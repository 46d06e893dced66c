import Aprovan.Library.Keyed
import Aprovan.Library.Process
import Aprovan.Workflows.Registrations

/-!
# Webhook deliveries

A delivery loads the registration of a webhook, runs its workflows, and saves
what it has loaded with the bookkeeping of this delivery.  A hook call runs one
workflow and saves no registration.
-/

namespace Aprovan.Webhooks

open Aprovan.Library Aprovan.Server Aprovan.Workflows

/-- The registrations, and which workflow is exported by which app. -/
structure HookStores where
  webhooks : Keyed WebhookRegistration.id
  workflows : Keyed StoredWorkflow.name
  exports : List (Text × Text)

def HookStores.exportedBy (stores : HookStores) (name : Text) : List Text :=
  (stores.exports.filter (·.1 = name)).map Prod.snd

inductive RunStatus where
  | running
  | succeeded
  | failed
  deriving DecidableEq

structure FinishedRun where
  id : Text
  status : RunStatus

inductive RunInput where
  | delivered (provider : Text) (event : Option Text) (body : Text)
  | hooked (body : Text)
  | fired (now : Nat)

structure RunOptions where
  userId : Text
  registration : StoredWorkflow
  triggerDetail : Option Text
  input : RunInput

inductive HookStatement where
  | readWebhook (id : Text)
  /-- For a delivery, `loaded` is the registration that it has read. -/
  | saveWebhook (next : WebhookRegistration)
      (loaded : Option WebhookRegistration)
  | removeWebhook (id : Text)
  | readWorkflow (name : Text)
  | saveWorkflow (next : StoredWorkflow)
  | removeWorkflow (name : Text)
  | removeRuns (name : Text)
  | exportedBy (name : Text)
  | updateCronIndex
  | runWorkflow (options : RunOptions)

abbrev HookStatement.Answer : HookStatement → Type
  | .readWebhook _ => Option WebhookRegistration
  | .removeWebhook _ => Bool
  | .readWorkflow _ => Option StoredWorkflow
  | .removeWorkflow _ => Bool
  | .exportedBy _ => List Text
  | .runWorkflow _ => FinishedRun
  | _ => Unit

/-- Registering, updating and removing. -/
def manages : HookStatement → Bool
  | .saveWebhook _ none => true
  | .removeWebhook _ => true
  | .saveWorkflow _ => true
  | .removeWorkflow _ => true
  | _ => false

inductive HookFailure where
  | store
  /-- `Headers.get` throws for a text that is no header name. -/
  | badHeaderName
  | service (error : ServiceError)

/-- Whether a statement is refused, and what a run ends with that is not. -/
inductive HookChoice where
  | refuses
  | proceeds (run : FinishedRun)

/-- What a statement does that is not refused. Run records and the cron index
are kept elsewhere. -/
def performHook (run : FinishedRun) :
    (statement : HookStatement) → HookStores → statement.Answer × HookStores
  | .readWebhook id, stores => (stores.webhooks.find? id, stores)
  | .saveWebhook next _, stores => ((), { stores with webhooks := stores.webhooks.put next })
  | .removeWebhook id, stores =>
    ((stores.webhooks.find? id).isSome, { stores with webhooks := stores.webhooks.erase id })
  | .readWorkflow name, stores => (stores.workflows.find? name, stores)
  | .saveWorkflow next, stores => ((), { stores with workflows := stores.workflows.put next })
  | .removeWorkflow name, stores =>
    ((stores.workflows.find? name).isSome,
      { stores with workflows := stores.workflows.erase name })
  | .removeRuns _, stores => ((), stores)
  | .exportedBy name, stores => (stores.exportedBy name, stores)
  | .updateCronIndex, stores => ((), stores)
  | .runWorkflow _, stores => (run, stores)

def executeHook (choice : HookChoice) (statement : HookStatement) (stores : HookStores) :
    Except HookFailure statement.Answer × HookStores :=
  match choice with
  | .refuses => (.error .store, stores)
  | .proceeds run =>
    let performed := performHook run statement stores
    (.ok performed.1, performed.2)

abbrev HookCall := Process HookStatement.Answer HookFailure

def askHook (statement : HookStatement) : HookCall statement.Answer :=
  Process.perform statement

def refuseHook {Value : Type} (error : ServiceError) : HookCall Value :=
  Process.raise (.service error)

def checkedOutcome {Value : Type} : Outcome Value → HookCall Value
  | .ok value => pure value
  | .error error => refuseHook error

/-- A request on the public surface. The names of its headers are in lower
case. -/
structure HookDelivery where
  target : Text
  headers : List (Text × Text)
  queryToken : Option Text
  body : Text
  now : Nat

/-- The digests of `createHmac`, in hexadecimal, `toLowerCase`, and the
fields with a string value of the object that a body parses to, if it
does. -/
structure HookServices where
  hmac : HmacScheme → Text → Text → Text
  toLowerCase : Text → Text
  textFields : Text → List (Text × Text)

def headerNameLetters : Text :=
  "!#$%&'*+-.^_`|~".toList

def isHeaderName (name : Text) : Bool :=
  name ≠ [] && name.all fun letter => letter.isAlphanum || letter ∈ headerNameLetters

variable (services : HookServices) (registration : WebhookRegistration)
  (delivery : HookDelivery)

def HookDelivery.header (name : Text) : Option Text :=
  delivery.headers.lookup name

def hexDigit? (letter : Char) : Option Nat :=
  if letter.isDigit then some (letter.toNat - '0'.toNat)
  else if 'a' ≤ letter ∧ letter ≤ 'f' then some (letter.toNat - 'a'.toNat + 10)
  else if 'A' ≤ letter ∧ letter ≤ 'F' then some (letter.toNat - 'A'.toNat + 10)
  else none

/-- `Buffer.from(text, "hex")`, which stops at what is no pair of digits. -/
def hexBytes : Text → List Nat
  | high :: low :: rest =>
    match hexDigit? high, hexDigit? low with
    | some upper, some lower => (16 * upper + lower) :: hexBytes rest
    | _, _ => []
  | _ => []

/-- The digest after the first `=`, or the whole header. -/
def presentedDigest (header : Text) : Text :=
  if '=' ∈ header then (header.dropWhile (· ≠ '=')).tail else header

def signatureValid (signature : WebhookSignature) (rawBody : Text) (header : Option Text) : Bool :=
  match header.filter (· ≠ []) with
  | none => false
  | some header =>
    hexBytes (services.hmac signature.scheme signature.secret rawBody) =
      hexBytes (presentedDigest header)

/-- `X-Hook-Token`, else `?token=`. -/
def HookDelivery.token (delivery : HookDelivery) : Option Text :=
  delivery.header "x-hook-token".toList <|> delivery.queryToken

/-- The signature decides where there is one, else the token; `none` if the
name of the signature's header is no header name. -/
def authorized : Option Bool :=
  match registration.signature with
  | none => some (delivery.token = some registration.token)
  | some signature =>
    let name := services.toLowerCase signature.header
    if isHeaderName name then
      some (signatureValid services signature delivery.body (delivery.header name))
    else none

def eventHeaders : List Text :=
  ["x-github-event".toList, "x-event-key".toList,
    "x-figma-event-type".toList, "x-webhook-event".toList]

def eventKeys : List Text :=
  ["event".toList, "event_type".toList, "type".toList, "action".toList]

/-- The first of the headers, unless it is empty, else the first of the
fields. -/
def deliveryEvent : Option Text :=
  (eventHeaders.findSome? delivery.header).filter (· ≠ []) <|> eventKeys.findSome? fun key =>
      (services.textFields delivery.body).lookup key

def matchesEvents (event : Option Text) : Bool :=
  registration.events = [] || event.any (· ∈ registration.events)

inductive ListedStatus where
  | missing
  | ended (status : RunStatus)
  deriving DecidableEq

structure ListedRun where
  workflow : Text
  runId : Option Text
  status : ListedStatus

def ListedStatus.label : ListedStatus → Text
  | .missing => "missing".toList
  | .ended .running => "running".toList
  | .ended .succeeded => "succeeded".toList
  | .ended .failed => "failed".toList

def ListedRun.isFailure (run : ListedRun) : Bool :=
  run.status = .missing || run.status = .ended .failed

/-- What a run started by a delivery is told of it. -/
def deliveredDetail (event : Option Text) : Text :=
  registration.provider ++ ':' :: registration.id ++
    match event.filter (· ≠ []) with
    | none => []
    | some event => ':' :: event

def deliveredRun (event : Option Text) (body : Text) (workflow : StoredWorkflow) : RunOptions where
  userId := registration.principal
  registration := workflow
  triggerDetail := some (deliveredDetail registration event)
  input := .delivered registration.provider event body

/-- The bookkeeping of a delivery that is authorized. -/
def delivered (now : Nat) (event : Option Text) (runs : List ListedRun) : WebhookRegistration :=
  { registration with
    deliveryCount := some (registration.deliveryCount.getD 0 + 1)
    lastDeliveryAt := some now
    lastEvent := event
    lastError := (runs.find? ListedRun.isFailure).map fun failed =>
      failed.workflow ++ ": ".toList ++ failed.status.label }

def rejected (registration : WebhookRegistration) : WebhookRegistration :=
  { registration with
    lastError := some "unauthorized delivery rejected".toList }

inductive HookReply where
  | notFound
  | forbidden
  | delivered (id : Text) (event : Option Text) (matched : Bool)
      (runs : List ListedRun)
  | ran (run : FinishedRun)
  | webhook (registration : WebhookRegistration)
  | workflow (registration : StoredWorkflow)
  | removed (id : Text) (removed : Bool)

/-- One round of the loop over the workflows of a webhook. -/
def runListed (event : Option Text) (body : Text) (name : Text) : HookCall ListedRun := do
  match ← (askHook (.readWorkflow name)).rescue fun _ => pure none with
  | none => pure ⟨name, none, .missing⟩
  | some workflow =>
    let attempt : HookCall ListedRun := do
      let run ← askHook (.runWorkflow (deliveredRun registration event body workflow))
      pure ⟨name, some run.id, .ended run.status⟩
    attempt.rescue fun _ => pure ⟨name, none, .ended .failed⟩

/-- The last step of a delivery, where a refusal is caught. -/
def saveBack (loaded next : WebhookRegistration) : HookCall Unit :=
  (askHook (.saveWebhook next (some loaded))).rescue fun _ => pure ()

/-- What is done with a registration that was loaded. -/
def deliverTo (registration : WebhookRegistration) : HookCall HookReply :=
  match authorized services registration delivery with
  | none => Process.raise .badHeaderName
  | some false => do
      saveBack registration (rejected registration)
      pure .forbidden
  | some true => do
      let event := deliveryEvent services delivery
      let matched := matchesEvents registration event
      let listed := if matched then registration.workflows else []
      let runs ← listed.foldlM (fun runs name => do
        let run ← runListed registration event delivery.body name
        pure (runs ++ [run])) []
      saveBack registration (delivered registration delivery.now event runs)
      pure (.delivered registration.id event matched runs)

/-- `POST /hooks/:workspaceId/webhooks/:id`. -/
def deliver : HookCall HookReply := do
  if delivery.target = [] then pure .notFound
  else
    match ← (askHook (.readWebhook delivery.target)).rescue fun _ => pure none with
    | none => pure .notFound
    | some registration => deliverTo services delivery registration

def hasHook (registration : StoredWorkflow) : Bool :=
  registration.triggers.webhook && registration.hookToken.any (· ≠ [])

/-- `POST /hooks/:workspaceId/:name`. -/
def hook : HookCall HookReply := do
  if delivery.target = [] then pure .notFound
  else
    match ← (askHook (.readWorkflow delivery.target)).rescue fun _ => pure none with
    | none => pure .notFound
    | some registration =>
      if !hasHook registration then pure .notFound
      else if delivery.token ≠ registration.hookToken then pure .forbidden
      else
        let run ← askHook (.runWorkflow {
          userId := registration.createdBy
          registration := registration
          triggerDetail := none
          input := .hooked delivery.body })
        pure (.ran run)

/-- `runCronTick`, in a workspace that the cron index names; `cronMatches`
answers none where it throws. -/
def runCronTick (cronMatches : Text → Option Bool) (now : Nat)
    (registrations : List StoredWorkflow) : List RunOptions :=
  registrations.filterMap fun registration =>
    (registration.triggers.cron.filter (· ≠ [])).bind fun cron =>
      if cronMatches cron = some true then
        some {
          userId := registration.createdBy
          registration := registration
          triggerDetail := some cron
          input := .fired now }
      else none

/-- The workflows of a webhook have to be registered. -/
def requireListed (name : Text) : HookCall PUnit := do
  match ← askHook (.readWorkflow name) with
  | none => refuseHook (unknownListedWorkflow name)
  | some _ => pure PUnit.unit

/-- `webhooks.register`. -/
def registerWebhook (caller : CallSurroundings) (inApp : Bool) (args : RegisterWebhookArgs) :
    HookCall HookReply := do
  if inApp then refuseHook appMayNotManage
  else
    let checked ← checkedOutcome (checkedWebhook args)
    checked.2.2.forM requireListed
    let existing ← askHook (.readWebhook checked.1)
    let signature ← checkedOutcome (parseSignature args.signature)
    let registration :=
      registeredWebhook caller args checked signature existing
    askHook (.saveWebhook registration none)
    pure (.webhook registration)

/-- `webhooks.remove`. -/
def removeWebhook (inApp : Bool) (rawId : Option Text) : HookCall HookReply := do
  if inApp then refuseHook appMayNotManage
  else
    let id ← checkedOutcome (webhookId rawId)
    let removed ← askHook (.removeWebhook id)
    pure (.removed id removed)

/-- `workflows.register`. -/
def registerWorkflow (cronError : Text → Option ServiceError)
    (caller : CallSurroundings) (args : RegisterWorkflowArgs) :
    HookCall HookReply := do
  let checked ← checkedOutcome (checkedWorkflow args)
  let existing ← askHook (.readWorkflow checked.1)
  let given ← checkedOutcome (givenFields cronError args)
  let registration := registeredWorkflow caller args checked given existing
  askHook (.saveWorkflow registration)
  askHook .updateCronIndex
  pure (.workflow registration)

/-- `workflows.remove`. -/
def removeWorkflow (caller : CallSurroundings) (rawName : Option Text) : HookCall HookReply := do
  let name ← checkedOutcome (givenWorkflowName rawName)
  match ← askHook (.readWorkflow name) with
  | none => refuseHook (unknownWorkflow name)
  | some registration =>
    let exportedBy ← askHook (.exportedBy name)
    if storedVisibleTo registration caller.userId exportedBy then
      let removed ← askHook (.removeWorkflow name)
      askHook (.removeRuns name)
      askHook .updateCronIndex
      pure (.removed name removed)
    else refuseHook (unknownWorkflow name)

inductive HookRequest where
  | deliver (delivery : HookDelivery)
  | hook (delivery : HookDelivery)
  | registerWebhook (caller : CallSurroundings) (inApp : Bool)
      (args : RegisterWebhookArgs)
  | removeWebhook (inApp : Bool) (id : Option Text)
  | registerWorkflow (caller : CallSurroundings)
      (args : RegisterWorkflowArgs)
  | removeWorkflow (caller : CallSurroundings) (name : Option Text)

/-- The call registers, updates or removes something. -/
def HookRequest.isManagement : HookRequest → Bool
  | .deliver _ => false
  | .hook _ => false
  | _ => true

def serveHook (cronError : Text → Option ServiceError) : HookRequest → HookCall HookReply
  | .deliver delivery => deliver services delivery
  | .hook delivery => hook delivery
  | .registerWebhook caller inApp args => registerWebhook caller inApp args
  | .removeWebhook inApp id => removeWebhook inApp id
  | .registerWorkflow caller args => registerWorkflow cronError caller args
  | .removeWorkflow caller name => removeWorkflow caller name

abbrev HookSystem :=
  Concurrent HookStores HookRequest HookStatement.Answer HookFailure HookReply

inductive HookAct where
  | start (request : HookRequest)
  /-- The statement that the call at a position awaits is executed. -/
  | advance (position : Nat) (choice : HookChoice)
  /-- Apps are published and removed. -/
  | republish (exports : List (Text × Text))

def hookStep (cronError : Text → Option ServiceError) (system : HookSystem) :
    HookAct → Option HookSystem
  | .start request => some (system.start request (serveHook services cronError request))
  | .advance position choice => system.advance executeHook position choice
  | .republish exports => some { system with shared := { system.shared with exports := exports } }

def noHookCalls (stores : HookStores) : HookSystem :=
  ⟨stores, [], []⟩

/-! ## What the routes ask

Under a discipline that admits the statements of a route, in the order in
which the route asks them, the route follows it. -/

/-- The discipline admits what a delivery asks after it has loaded a
webhook, while something holds of what is remembered. -/
structure AdmitsDelivery {Memory : Type}
    (discipline : Discipline HookStatement.Answer HookFailure Memory)
    (holds : Memory → Prop) (services : HookServices)
    (delivery : HookDelivery) (loaded : WebhookRegistration) : Prop where
  kept : ∀ memory statement answer, holds memory →
    holds (discipline.remember memory statement answer)
  reads : ∀ memory name, holds memory → discipline.admits memory (.readWorkflow name)
  runs : authorized services loaded delivery = some true →
    ∀ before after name workflow event, holds after → name ∈ loaded.workflows →
        discipline.possible before (.readWorkflow name) (.ok (some workflow)) →
          discipline.admits after (.runWorkflow (deliveredRun loaded event delivery.body workflow))
  rejects : authorized services loaded delivery = some false → ∀ memory, holds memory →
      discipline.admits memory (.saveWebhook (rejected loaded) (some loaded))
  saves : authorized services loaded delivery = some true → ∀ memory event listed, holds memory →
      discipline.admits memory (.saveWebhook
        (delivered loaded delivery.now event listed) (some loaded))

section

variable {Memory : Type}
  {discipline : Discipline HookStatement.Answer HookFailure Memory}
  {holds : Memory → Prop} {services : HookServices}
  {delivery : HookDelivery} {loaded : WebhookRegistration}
  {memory : Memory}

theorem follows_saveBack {next : WebhookRegistration} {reply : HookReply} (admitted :
      discipline.admits memory (.saveWebhook next (some loaded))) :
    Follows discipline (fun _ _ => True) memory
      (do
        saveBack loaded next
        pure reply) := by
  refine follows_await admitted (fun _ _ => trivial) ?_
  intro saved _
  trivial

theorem follows_runListed {event : Option Text} {name : Text}
    (admits : AdmitsDelivery discipline holds services delivery loaded)
    (permitted : authorized services loaded delivery = some true)
    (listed : name ∈ loaded.workflows) (initial : holds memory) :
    Follows discipline (fun later _ => holds later) memory
      (runListed loaded event delivery.body name) := by
  refine ⟨admits.reads memory name initial, ?_⟩
  intro answer possible
  have later := admits.kept memory _ answer initial
  cases answer with
  | error thrown => exact later
  | ok found =>
    cases found with
    | none => exact later
    | some workflow =>
      refine ⟨admits.runs permitted _ _ _ _ _ later listed possible, ?_⟩
      intro ended _
      have last := admits.kept _ _ ended later
      cases ended with
      | error thrown => exact last
      | ok run => exact last

theorem follows_deliverTo (admits : AdmitsDelivery discipline holds services delivery loaded)
    (initial : holds memory) :
    Follows discipline (fun _ _ => True) memory (deliverTo services delivery loaded) := by
  unfold deliverTo
  split
  · trivial
  · next refused =>
      exact follows_saveBack (admits.rejects refused memory initial)
  · next permitted =>
      apply follows_bind
      have rounds : Follows discipline (fun later _ => holds later) memory
          ((if matchesEvents loaded (deliveryEvent services delivery) then
              loaded.workflows else []).foldlM (fun runs name => do
            let run ← runListed loaded (deliveryEvent services delivery) delivery.body name
            pure (runs ++ [run])) []) := by
        refine follows_foldlM_of_mem _ ?_ _ _ initial
        intro soFar name member before held
        have listed : name ∈ loaded.workflows := by
          split at member
          · exact member
          · cases member
        refine follows_then (follows_runListed admits permitted listed held)
          (fun _ _ last => last) ?_
        intro later run last
        exact last
      apply rounds.weaken
      intro later outcome held
      cases outcome with
      | error thrown => trivial
      | ok listed => exact follows_saveBack (admits.saves permitted later _ listed held)

theorem follows_hook (reads : discipline.admits memory (.readWorkflow delivery.target))
    (runs : ∀ registration, discipline.possible memory (.readWorkflow delivery.target)
          (.ok (some registration)) →
        hasHook registration = true → delivery.token = registration.hookToken → discipline.admits
              (discipline.remember memory (.readWorkflow delivery.target)
                (.ok (some registration)))
              (.runWorkflow {
                userId := registration.createdBy
                registration := registration
                triggerDetail := none
                input := .hooked delivery.body })) :
    Follows discipline (fun _ _ => True) memory (hook delivery) := by
  unfold hook
  split
  · trivial
  · refine follows_await reads (fun _ _ => trivial) ?_
    intro found possible
    cases found with
    | none => trivial
    | some registration =>
      show Follows _ _ _ (if _ then _ else _)
      split
      · trivial
      · next exposed =>
          split
          · trivial
          · next permitted =>
              refine ⟨runs registration possible
                (by simpa using exposed) (not_not.mp permitted), ?_⟩
              intro ended _
              cases ended with
              | error thrown => trivial
              | ok run => trivial

end

end Aprovan.Webhooks
