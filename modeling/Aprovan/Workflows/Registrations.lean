import Aprovan.Workflows.Runner

/-!
# Registrations of workflows and webhooks

Both kinds of registration are records that a `register` call writes over,
whoever calls; the creator, the day of creation and the token stay.  `parseCron`
is taken as what it throws for an expression, if it throws.
-/

namespace Aprovan.Workflows

open Aprovan.Library Aprovan.Server

/-- A JSON object that is kept as it is: absent or null, no object, or an
object. -/
inductive ObjectArg where
  | absent
  | malformed
  | object (json : Text)

/-- The fields of `triggers`, each where it has the right type. -/
structure TriggerFields where
  cron : Option Text
  webhook : Bool
  events : Option (List Text)

inductive TriggersArg where
  | absent
  | malformed
  | object (fields : TriggerFields)

/-- `null` takes the agent away. -/
inductive AgentArg where
  | absent
  | cleared
  | named (name : Text)

/-- The arguments of `workflows.register`; those of another type than they
should have are absent. -/
structure RegisterWorkflowArgs where
  (name script scriptPath description : Option Text)
  agent : AgentArg
  triggers : TriggersArg
  bindings : Option (List (Text × Text))
  input : ObjectArg
  output : ObjectArg

/-- `manual` is always true. -/
structure WorkflowTriggers where
  cron : Option Text
  webhook : Bool
  events : Option (List Text)

structure StoredWorkflow where
  name : Text
  description : Option Text
  scriptPath : Text
  script : Option Text
  triggers : WorkflowTriggers
  bindings : Option (List (Text × Text))
  (agent input output hookToken : Option Text)
  createdBy : Text
  (createdAt updatedAt : Nat)

structure CallSurroundings where
  (userId mintedToken : Text)
  now : Nat

def scriptPathRequired : ServiceError where
  message := "script_path is required".toList
  status := 400

def triggersNotObject : ServiceError where
  message := "triggers must be an object".toList
  status := 400

def schemaNotObject (label : Text) : ServiceError where
  message := label ++ " must be a JSON Schema object".toList
  status := 400

/-- A name that is no string has no right form either. -/
def givenWorkflowName (name : Option Text) : Outcome Text :=
  workflowName (name.getD [])

def parseSchema (raw : ObjectArg) (label : Text) : Outcome (Option Text) :=
  match raw with
  | .absent => .ok none
  | .malformed => .error (schemaNotObject label)
  | .object json => .ok (some json)

def givenEvents (fields : TriggerFields) : Option (List Text) :=
  (fields.events.map (·.filter (· ≠ []))).filter (· ≠ [])

def parseTriggers (cronError : Text → Option ServiceError) : TriggersArg → Outcome WorkflowTriggers
  | .absent => .ok ⟨none, false, none⟩
  | .malformed => .error triggersNotObject
  | .object fields =>
    match fields.cron.filter (trim · ≠ []) with
    | none => .ok ⟨none, fields.webhook, givenEvents fields⟩
    | some expression =>
      match cronError expression with
      | some error => .error error
      | none => .ok ⟨some (trim expression), fields.webhook, givenEvents fields⟩

def givenScript (args : RegisterWorkflowArgs) : Option Text :=
  args.script.filter (· ≠ [])

def givenScriptPath (name : Text) (args : RegisterWorkflowArgs) : Outcome Text :=
  match args.scriptPath.filter (· ≠ []), givenScript args with
  | some path, _ => .ok path
  | none, some _ => .ok ("inline:".toList ++ name)
  | none, none => .error scriptPathRequired

/-- What `workflows.register` checks before it reads the record: the name,
and the path of the script. -/
def checkedWorkflow (args : RegisterWorkflowArgs) : Outcome (Text × Text) := do
  let name ← givenWorkflowName args.name
  let scriptPath ← givenScriptPath name args
  return (name, scriptPath)

structure GivenFields where
  triggers : WorkflowTriggers
  (input output : Option Text)

/-- What `workflows.register` checks after that. -/
def givenFields (cronError : Text → Option ServiceError) (args : RegisterWorkflowArgs) :
    Outcome GivenFields := do
  let triggers ← parseTriggers cronError args.triggers
  let input ← parseSchema args.input "input".toList
  let output ← parseSchema args.output "output".toList
  return ⟨triggers, input, output⟩

def givenAgent (agent : AgentArg) (existing : Option StoredWorkflow) : Option Text :=
  match agent with
  | .named name =>
    if name ≠ [] then some name else existing.bind StoredWorkflow.agent
  | .cleared => none
  | .absent => existing.bind StoredWorkflow.agent

/-- The record that `workflows.register` writes over `existing`. -/
def registeredWorkflow (caller : CallSurroundings) (args : RegisterWorkflowArgs)
    (checked : Text × Text) (given : GivenFields) (existing : Option StoredWorkflow) :
    StoredWorkflow where
  name := checked.1
  description := args.description <|> existing.bind StoredWorkflow.description
  scriptPath := checked.2
  script := givenScript args
  triggers := given.triggers
  bindings := args.bindings <|> existing.bind StoredWorkflow.bindings
  agent := givenAgent args.agent existing
  input := given.input <|> existing.bind StoredWorkflow.input
  output := given.output <|> existing.bind StoredWorkflow.output
  hookToken :=
    if given.triggers.webhook then
      some ((existing.bind StoredWorkflow.hookToken).getD caller.mintedToken)
    else none
  createdBy := (existing.map StoredWorkflow.createdBy).getD caller.userId
  createdAt := (existing.map StoredWorkflow.createdAt).getD caller.now
  updatedAt := caller.now

def storedVisibleTo (registration : StoredWorkflow) (callerSub : Text) (exportedBy : List Text) :
    Bool :=
  registration.createdBy = callerSub || exportedBy ≠ []

inductive HmacScheme where
  | sha256
  | sha1
  deriving DecidableEq

structure WebhookSignature where
  header : Text
  scheme : HmacScheme
  secret : Text
  deriving DecidableEq

structure WebhookRegistration where
  (id provider : Text)
  description : Option Text
  /-- Whether the level is "user". -/
  userLevel : Bool
  userId : Option Text
  (events workflows : List Text)
  token : Text
  signature : Option WebhookSignature
  createdBy : Text
  (createdAt updatedAt : Nat)
  (deliveryCount lastDeliveryAt : Option Nat)
  (lastEvent lastError : Option Text)
  deriving DecidableEq

/-- `signature`, each field where it is a string. -/
inductive SignatureArg where
  | absent
  | malformed
  | object (header scheme secret : Option Text)

/-- The arguments of `webhooks.register`; the lists hold their strings. -/
structure RegisterWebhookArgs where
  (id provider description level : Option Text)
  (events workflows : List Text)
  signature : SignatureArg

def badWebhookId : ServiceError where
  message :=
    "webhook id must match /^[a-z0-9][a-z0-9-]\x7b0,63\x7d$/u".toList
  status := 400

def providerRequired : ServiceError where
  message := "provider is required".toList
  status := 400

def workflowsRequired : ServiceError where
  message :=
    "workflows must contain at least one registered workflow name".toList
  status := 400

def unknownListedWorkflow (name : Text) : ServiceError where
  message := "Unknown workflow: ".toList ++ name
  status := 400

def signatureError (message : String) : ServiceError where
  message := message.toList
  status := 400

def webhookId (id : Option Text) : Outcome Text :=
  if isRecordName (id.getD []) then .ok (id.getD []) else .error badWebhookId

def parseScheme (scheme : Option Text) : Option HmacScheme :=
  if scheme = some "hmac-sha256".toList then some .sha256
  else if scheme = some "hmac-sha1".toList then some .sha1
  else none

def parseSignature : SignatureArg → Outcome (Option WebhookSignature)
  | .absent => .ok none
  | .malformed => .error (signatureError "signature must be an object")
  | .object header scheme secret =>
    match header.filter (· ≠ []), parseScheme scheme, secret.filter (· ≠ []) with
    | none, _, _ => .error (signatureError "signature.header is required")
    | some _, none, _ =>
      .error (signatureError "signature.scheme must be \"hmac-sha256\" or \"hmac-sha1\"")
    | some _, some _, none => .error (signatureError "signature.secret is required")
    | some header, some scheme, some secret => .ok (some ⟨header, scheme, secret⟩)

/-- What `webhooks.register` checks before it reads anything: the id, the
provider and the workflows. -/
def checkedWebhook (args : RegisterWebhookArgs) : Outcome (Text × Text × List Text) := do
  let id ← webhookId args.id
  match args.provider.filter (· ≠ []) with
  | none => .error providerRequired
  | some provider =>
    let workflows := args.workflows.filter (· ≠ [])
    if workflows = [] then .error workflowsRequired else return (id, provider, workflows)

def isUserLevel (args : RegisterWebhookArgs) : Bool :=
  args.level = some "user".toList

/-- The record that `webhooks.register` writes over `existing`. -/
def registeredWebhook (caller : CallSurroundings) (args : RegisterWebhookArgs)
    (checked : Text × Text × List Text) (signature : Option WebhookSignature)
    (existing : Option WebhookRegistration) : WebhookRegistration where
  id := checked.1
  provider := checked.2.1
  description := args.description <|> existing.bind WebhookRegistration.description
  userLevel := isUserLevel args
  userId :=
    if isUserLevel args then some ((existing.bind WebhookRegistration.userId).getD caller.userId)
    else none
  events := args.events.filter (· ≠ [])
  workflows := checked.2.2
  token :=
    (existing.map WebhookRegistration.token).getD caller.mintedToken
  signature := signature <|> existing.bind WebhookRegistration.signature
  createdBy :=
    (existing.map WebhookRegistration.createdBy).getD caller.userId
  createdAt := (existing.map WebhookRegistration.createdAt).getD caller.now
  updatedAt := caller.now
  deliveryCount := existing.bind WebhookRegistration.deliveryCount
  lastDeliveryAt := existing.bind WebhookRegistration.lastDeliveryAt
  lastEvent := existing.bind WebhookRegistration.lastEvent
  lastError := existing.bind WebhookRegistration.lastError

def appMayNotManage : ServiceError where
  message :=
    "webhooks management is not available to app sessions".toList
  status := 403

/-- Whose name the workflows of a webhook run in. -/
def WebhookRegistration.principal (registration : WebhookRegistration) : Text :=
  registration.userId.getD registration.createdBy

/-- A registration that is written over keeps its principal: at the user
level its user, else its creator. -/
def keptPrincipal (userId : Text) (args : RegisterWebhookArgs)
    (existing : Option WebhookRegistration) : Text :=
  if isUserLevel args then (existing.bind WebhookRegistration.userId).getD userId
  else (existing.map WebhookRegistration.createdBy).getD userId

theorem principal_registeredWebhook (caller : CallSurroundings) (args : RegisterWebhookArgs)
    (checked : Text × Text × List Text) (signature : Option WebhookSignature)
    (existing : Option WebhookRegistration) :
    (registeredWebhook caller args checked signature existing).principal =
      keptPrincipal caller.userId args existing := by
  unfold WebhookRegistration.principal registeredWebhook keptPrincipal
  by_cases level : isUserLevel args = true
  · simp [level]
  · simp [level]

end Aprovan.Workflows
