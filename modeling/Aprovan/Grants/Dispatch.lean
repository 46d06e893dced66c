import Aprovan.Grants.Capability

/-!
# The dispatch predicate

`evaluateDispatch` intersects the invoker's patterns, the app ceiling, the
profile narrowing and the run projection, and then matches an action against
the resource-grant rows.  Which reads of the storage throw is a `Failures`
value; the matcher of resource patterns is a parameter.
-/

namespace Aprovan.Grants

open Aprovan.Library

inductive Effect where
  | observation
  | action
  deriving DecidableEq

inductive Role where
  | admin
  | member
  deriving DecidableEq

structure Principal where
  sub : Text
  role : Role
  groupIds : List Text
  deriving DecidableEq

inductive CredentialLevel where
  | userOauth
  | workspaceToken
  | workspaceOauth
  deriving DecidableEq

structure Via where
  (appId profileId : Option Text)
  deriving DecidableEq

structure ToolCall where
  (toolNamespace operation : Text)
  effect : Effect
  deriving DecidableEq

/-- The credential a request names; an empty id counts as absent. -/
structure RequestCredential where
  level : CredentialLevel
  id : Text
  deriving DecidableEq

structure RunContext where
  runId : Text
  resultDependent : Bool
  deriving DecidableEq

structure DispatchRequest where
  principal : Principal
  via : Option Via
  tool : ToolCall
  resource : Option Text
  credential : Option RequestCredential
  runContext : Option RunContext
  deriving DecidableEq

/-- `req.via?.appId`, where the empty text counts as absent. -/
def DispatchRequest.appId (req : DispatchRequest) : Option Text :=
  (req.via.bind (·.appId)).filter (· ≠ [])

/-- `req.via?.profileId`, where the empty text counts as absent. -/
def DispatchRequest.profileId (req : DispatchRequest) : Option Text :=
  (req.via.bind (·.profileId)).filter (· ≠ [])

inductive DenyReason where
  | capability
  | credentialUnconnected
  deriving DecidableEq

inductive DispatchDecision where
  | allow
  | deny (reason : DenyReason)
  | queue (queuedActionId : Text)
  | ask (cardId : Text)
  deriving DecidableEq

structure PermissionRow where
  (callerId provider operation : Text)
  deriving DecidableEq

inductive SubjectKind where
  | user
  | group
  | app
  | appInstall
  deriving DecidableEq

structure GrantSubject where
  kind : SubjectKind
  id : Text
  deriving DecidableEq

structure ProfileGrant where
  profileId : Text
  subject : GrantSubject
  deriving DecidableEq

structure ProfileRow where
  (id targetId : Text)
  deriving DecidableEq

structure ResourceGrantRow where
  subject : GrantSubject
  capability : Text
  resourcePattern : Option Text
  credentialLevel : CredentialLevel
  deriving DecidableEq

structure CredentialRow where
  provider : Text
  level : CredentialLevel
  createdBy : Text
  deriving DecidableEq

/-- The part of an app record that dispatch reads. -/
structure AppCeiling where
  appId : Text
  allowedTools : List Text
  deriving DecidableEq

/-- Everything dispatch reads of one workspace. -/
structure Workspace where
  permissions : List PermissionRow
  profileGrants : List ProfileGrant
  profiles : List ProfileRow
  apps : List AppCeiling
  resourceGrants : List ResourceGrantRow
  credentials : List CredentialRow
  deriving DecidableEq

/-- Which reads throw. The profile patterns are read twice, once for the
invoker and once for the profile narrowing. -/
structure Failures where
  (permissions invokerProfiles readApp narrowingProfiles : Bool)
  (profileById resourceGrants credentials enqueue : Bool)

def Failures.none : Failures where
  permissions := false
  invokerProfiles := false
  readApp := false
  narrowingProfiles := false
  profileById := false
  resourceGrants := false
  credentials := false
  enqueue := false

/-- Overrides for tests, and the projection of an agent run. -/
structure EvaluateDispatchOptions where
  appCeiling : Option (List Text)
  runTools : Option (List Text)
  resourceGrants : Option (List ResourceGrantRow)
  invokerPatterns : Option (List Text)

/-- No test override; an agent run may still project its tools. -/
def EvaluateDispatchOptions.projected (runTools : Option (List Text)) :
    EvaluateDispatchOptions where
  appCeiling := Option.none
  runTools := runTools
  resourceGrants := Option.none
  invokerPatterns := Option.none

def capabilityCovered (patterns : List Text) (toolNamespace operation : Text) : Bool :=
  matchesCapabilityPattern patterns toolNamespace operation

def PermissionRow.pattern (row : PermissionRow) : Text :=
  if row.operation = "*".toList then row.provider ++ ".*".toList
  else callName row.provider row.operation

def namespacePattern (toolNamespace : Text) : Text :=
  toolNamespace ++ ".*".toList

/-- The caller and the caller's groups, as grant subjects. -/
def subjectsOf (principal : Principal) : List GrantSubject :=
  ⟨.user, principal.sub⟩ :: principal.groupIds.map fun id => ⟨.group, id⟩

variable (workspace : Workspace)

/-- Is the profile granted to the caller or one of the caller's groups? -/
def profileGranted (principal : Principal) (profileId : Text) : Bool :=
  workspace.profileGrants.any fun grant =>
    grant.profileId = profileId && grant.subject ∈ subjectsOf principal

/-- The invoker's tool patterns from profile grants; a failed read finds
none. -/
def invokerMatchedToolPatterns (fails : Bool) (principal : Principal) : List Text :=
  if fails then []
  else
    (workspace.profiles.filter fun profile =>
      profileGranted workspace principal profile.id).map
        fun profile => namespacePattern profile.targetId

def patternAdmitsNamespace (toolNamespace pattern : Text) : Bool :=
  pattern = "*".toList ||
  pattern = namespacePattern toolNamespace ||
  pattern = toolNamespace ||
  (".*".toList.isSuffixOf pattern && (let base := pattern.dropLast.dropLast
     toolNamespace = base || (base ++ ['.']).isPrefixOf toolNamespace)) ||
  (toolNamespace ++ ['.']).isPrefixOf pattern

/-- Does any profile granted to the caller target the namespace? -/
def profileGrantAllows (fails : Bool) (principal : Principal) (toolNamespace : Text) : Bool :=
  (invokerMatchedToolPatterns workspace fails principal).any (patternAdmitsNamespace toolNamespace)

/-- The invoker's patterns: the caller's permission rows, the profile grants,
and `*` for an admin who does not go through an app. -/
def resolveInvokerPatterns (fails : Bool) (req : DispatchRequest) : List Text :=
  ((workspace.permissions.filter fun row =>
      row.callerId = req.principal.sub).map PermissionRow.pattern) ++
  invokerMatchedToolPatterns workspace fails req.principal ++
  (if req.principal.role = .admin && req.appId.isNone then ["*".toList] else [])

def readApp (appId : Text) : Option AppCeiling :=
  workspace.apps.find? fun app => app.appId = appId

/-- The app ceiling; `none` when the request names no app, and also when the
record is missing or the read throws. -/
def resolveAppCeiling (fails : Bool) (req : DispatchRequest) : Option (List Text) :=
  match req.appId with
  | none => none
  | some appId =>
    if fails then none else (readApp workspace appId).map (·.allowedTools)

def profileById (profileId : Text) : Option ProfileRow :=
  workspace.profiles.find? fun profile => profile.id = profileId

def ProfileRow.targets (profile : ProfileRow) (toolNamespace : Text) : Bool :=
  profile.targetId = toolNamespace || profile.targetId = "*".toList

def profileOk (failures : Failures) (req : DispatchRequest) : Bool :=
  match req.profileId with
  | none => true
  | some profileId =>
    profileGrantAllows workspace failures.narrowingProfiles req.principal req.tool.toolNamespace &&
      -- storage unavailable: fail closed on an explicit profile pin
      !failures.profileById &&
      (match profileById workspace profileId with
        | none => true
        | some profile => profile.targets req.tool.toolNamespace)

def isUserOauthConnected (fails : Bool) (req : DispatchRequest) (credential : RequestCredential) :
    Bool :=
  if credential.id ≠ [] then true
  else if fails then false
  else
    workspace.credentials.any fun row =>
      row.level = .userOauth && row.createdBy = req.principal.sub &&
        (row.provider = req.tool.toolNamespace || req.tool.toolNamespace = [])

def credentialOk (fails : Bool) (req : DispatchRequest) : Bool :=
  match req.credential with
  | none => true
  | some credential =>
    credential.level ≠ .userOauth || isUserOauthConnected workspace fails req credential

def resourceGrantSubjectsFor (req : DispatchRequest) : List GrantSubject :=
  subjectsOf req.principal ++ (match req.appId with
      | none => []
      | some appId => [⟨.appInstall, appId⟩])

section

variable (matchesResourcePattern : Text → Text → Bool)

def resourceMatchesGrant (grant : ResourceGrantRow) (resource : Option Text) : Bool :=
  match grant.resourcePattern with
  | none => true
  | some pattern =>
    match resource with
    | none => false
    | some named => matchesResourcePattern pattern named

def grantsForCapability (rows : List ResourceGrantRow) (toolNamespace operation : Text) :
    List ResourceGrantRow :=
  rows.filter fun row => matchesCapabilityPattern [row.capability] toolNamespace operation

variable (workspace : Workspace)

def storedResourceGrants (req : DispatchRequest) : List ResourceGrantRow :=
  workspace.resourceGrants.filter fun row => row.subject ∈ resourceGrantSubjectsFor req

/-- What the resource axis says of a call whose capability layers pass. -/
inductive ResourceVerdict where
  | allow
  | miss
  | unconnected
  deriving DecidableEq

/-- The resource axis on given rows. No row for the capability means that the
capability alone decides. -/
def decideResource (rows : List ResourceGrantRow) (req : DispatchRequest) : ResourceVerdict :=
  let forCap :=
    grantsForCapability rows req.tool.toolNamespace req.tool.operation
  if forCap = [] then .allow
  else
    let matched := forCap.filter fun grant =>
      resourceMatchesGrant matchesResourcePattern grant req.resource
    if matched = [] then .miss
    else
      match req.credential with
      | none => .allow
      | some credential =>
        if (matched.all fun grant => grant.credentialLevel ≠ credential.level) &&
            (matched.any fun grant => grant.credentialLevel = .userOauth) then
          .unconnected
        else .allow

def invokerOk (failures : Failures) (req : DispatchRequest) (options : EvaluateDispatchOptions) :
    Bool :=
  capabilityCovered (options.invokerPatterns.getD
      (resolveInvokerPatterns workspace failures.invokerProfiles req))
    req.tool.toolNamespace req.tool.operation

/-- A layer that is absent does not constrain. -/
def ceilingOk (ceiling : Option (List Text)) (req : DispatchRequest) : Bool :=
  match ceiling with
  | none => true
  | some patterns => capabilityCovered patterns req.tool.toolNamespace req.tool.operation

def appOk (failures : Failures) (req : DispatchRequest) (options : EvaluateDispatchOptions) :
    Bool :=
  ceilingOk (options.appCeiling <|> resolveAppCeiling workspace failures.readApp req) req

/-- The rows the resource axis decides on; a failed read finds none. -/
def resourceRows (failures : Failures) (req : DispatchRequest)
    (options : EvaluateDispatchOptions) :
    List ResourceGrantRow :=
  options.resourceGrants.getD (if failures.resourceGrants then []
    else storedResourceGrants workspace req)

/-- The one dispatch chokepoint; `none` when it throws, which it does when
the permission rows cannot be read or a queued action cannot be saved.
`freshId` is the identifier minted for a queued action or a card. -/
def evaluateDispatch (failures : Failures) (freshId : Text)
    (req : DispatchRequest) (options : EvaluateDispatchOptions) :
    Option DispatchDecision :=
  if credentialOk workspace failures.credentials req = false then
    some (.deny .credentialUnconnected)
  else if options.invokerPatterns = none && failures.permissions then none
  else if !invokerOk workspace failures req options || !appOk workspace failures req options ||
      !profileOk workspace failures req ||
      !ceilingOk options.runTools req then
    some (if req.runContext.isSome then .ask freshId else .deny .capability)
  else if req.tool.effect = .observation then some .allow
  else
    match decideResource matchesResourcePattern
        (resourceRows workspace failures req options) req with
    | .allow => some .allow
    | .miss => if failures.enqueue then none else some (.queue freshId)
    | .unconnected => some (.deny .credentialUnconnected)

end

end Aprovan.Grants
