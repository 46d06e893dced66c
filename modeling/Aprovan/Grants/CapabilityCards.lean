import Aprovan.Grants.AppCeilingLaw

/-!
# Capability cards

A capability miss raises a card; accepting it writes rows of resource grants,
which none of the capability layers of `evaluateDispatch` reads.  The release of
queued actions executes tools and is a parameter; the continuation
`opts.resume` runs after the answer is settled and is left out.
-/

namespace Aprovan.Grants.Cards

open Aprovan.Library Aprovan.Server

inductive CapabilityCardKind where
  | install
  | jit
  | ask
  | draft
  deriving DecidableEq

inductive CapabilityCardState where
  | pending
  | accepted
  | declined
  | answered
  | blocked
  deriving DecidableEq

def CapabilityCardState.word : CapabilityCardState → Text
  | .pending => "pending".toList
  | .accepted => "accepted".toList
  | .declined => "declined".toList
  | .answered => "answered".toList
  | .blocked => "blocked".toList

inductive CapabilityRowFlag where
  | undeclared
  | unused
  deriving DecidableEq

/-- One row of an install or draft ceiling. -/
structure CapabilityProposal where
  capability : Text
  effect : Effect
  flag : Option CapabilityRowFlag
  credentialLevel : Option CredentialLevel
  deriving DecidableEq

structure CardResolution where
  reviewer : Text
  resolvedAt : Nat
  deriving DecidableEq

structure CapabilityCard where
  id : Text
  kind : CapabilityCardKind
  invokerId : Text
  state : CapabilityCardState
  createdAt : Nat
  proposals : Option (List CapabilityProposal)
  blocked : Bool
  request : Option DispatchRequest
  queuedActionIds : Option (List Text)
  queuedCount : Nat
  alwaysAsk : Bool
  runId : Option Text
  turn : Option Nat
  resolution : Option CardResolution
  deriving DecidableEq

/-- The card as `accepted` by the reviewer. -/
def CapabilityCard.acceptedBy (card : CapabilityCard) (reviewerId : Text) (now : Nat) :
    CapabilityCard :=
  { card with state := .accepted, resolution := some ⟨reviewerId, now⟩ }

/-- The cards of one workspace beside what dispatch reads of it. -/
structure CardStore where
  workspace : Workspace
  cards : List CapabilityCard
  deriving DecidableEq

inductive CardError where
  | service (error : ServiceError)
  | storage
  deriving DecidableEq

/-- Which storage calls throw: the read of the card, the call that ensures
the tenant, the creation of grants after the given number of them, and the
save of the card. -/
structure CardFailures where
  (readCard ensure : Bool)
  createAfter : Option Nat
  saveCard : Bool

def CardFailures.none : CardFailures where
  readCard := false
  ensure := false
  createAfter := Option.none
  saveCard := false

variable (store : CardStore)

/-- The card under an id; a failed read finds none. -/
def getCapabilityCard (fails : Bool) (cardId : Text) : Option CapabilityCard :=
  if fails then none else store.cards.find? fun card => card.id = cardId

/-- The record of a card replaces the one under its id. -/
def CardStore.saveCard (card : CapabilityCard) : CardStore :=
  { store with
    cards := card :: store.cards.filter fun other => other.id ≠ card.id }

def CardStore.createGrants (rows : List ResourceGrantRow) : CardStore :=
  { store with
    workspace := { store.workspace with
      resourceGrants := store.workspace.resourceGrants ++ rows } }

def createEach (failures : CardFailures) (rows : List ResourceGrantRow) :
    CardStore × Except CardError Unit :=
  if failures.ensure then (store, .error .storage)
  else
    match failures.createAfter with
    | none => (store.createGrants rows, .ok ())
    | some count =>
      if count < rows.length then (store.createGrants (rows.take count), .error .storage)
      else (store.createGrants rows, .ok ())

def settleCard (failures : CardFailures) (card : CapabilityCard) (reviewerId : Text) (now : Nat) :
    CardStore × Except CardError CapabilityCard :=
  if failures.saveCard then (store, .error .storage)
  else
    let next := card.acceptedBy reviewerId now
    (store.saveCard next, .ok next)

structure RaiseInput where
  (id invokerId : Text)
  request : DispatchRequest
  runId : Option Text
  turn : Option Nat
  queuedActionIds : Option (List Text)
  alwaysAsk : Bool

/-- The card `raiseJitCard` saves; `queuedForRun` counts the queued actions
of the run. -/
def jitCard (input : RaiseInput) (queuedForRun now : Nat) : CapabilityCard where
  id := input.id
  kind := .jit
  invokerId := input.invokerId
  state := .pending
  createdAt := now
  proposals := none
  blocked := false
  request := some input.request
  queuedActionIds := input.queuedActionIds
  queuedCount :=
    match input.queuedActionIds with
    | some ids => ids.length
    | none =>
      if (input.runId.filter (· ≠ [])).isSome then queuedForRun else 0
  alwaysAsk := input.alwaysAsk
  runId := input.runId.filter (· ≠ [])
  turn := input.turn
  resolution := none

def raiseJitCard (input : RaiseInput) (queuedForRun now : Nat) : CardStore :=
  store.saveCard (jitCard input queuedForRun now)

def unknownCard (cardId : Text) : CardError :=
  .service ⟨"Unknown capability card: ".toList ++ cardId, 404⟩

def settledCard (cardId : Text) (state : CapabilityCardState) : CardError :=
  .service ⟨"Card ".toList ++ cardId ++ " is ".toList ++ state.word, 409⟩

/-- The subject of a remembered grant: the app, when the request names one
(even the empty id), else the user. -/
def rememberedSubject (req : DispatchRequest) : GrantSubject :=
  match req.via.bind (·.appId) with
  | some appId => ⟨.appInstall, appId⟩
  | none => ⟨.user, req.principal.sub⟩

/-- The row that accepting a capability miss writes. -/
def rememberedGrant (req : DispatchRequest) (pattern : Option Text) : ResourceGrantRow where
  subject := rememberedSubject req
  capability := callName req.tool.toolNamespace req.tool.operation
  resourcePattern := pattern
  credentialLevel :=
    (req.credential.map (·.level)).getD .workspaceToken

def rememberedPattern (req : DispatchRequest) (rememberPattern : Option (Option Text)) :
    Option Text :=
  rememberPattern.getD req.resource

section

-- releases one queued action for the reviewer, remembering a pattern
variable (release : CardStore → Text → Text → Option Text → CardStore × Except CardError Text)

/-- A conflict or a missing action is passed over. -/
def passedOver : CardError → Bool
  | .service error => error.status = 404 || error.status = 409
  | .storage => false

/-- Release the listed actions in turn. -/
def releaseEach (reviewerId : Text) (pattern : Option Text) :
    CardStore → List Text → CardStore × Except CardError (List Text)
  | store, [] => (store, .ok [])
  | store, id :: ids =>
    match release store id reviewerId pattern with
    | (after, .ok released) =>
      match releaseEach reviewerId pattern after ids with
      | (last, .ok others) => (last, .ok (released :: others))
      | (last, .error thrown) => (last, .error thrown)
    | (after, .error thrown) =>
      if passedOver thrown then releaseEach reviewerId pattern after ids
      else (after, .error thrown)

def grantOrRelease (store : CardStore) (failures : CardFailures) (card : CapabilityCard)
    (req : DispatchRequest) (reviewerId : Text) (pattern : Option Text) :
    CardStore × Except CardError (List Text) :=
  let ids := card.queuedActionIds.getD []
  if card.alwaysAsk then releaseEach release reviewerId none store ids
  else if ids = [] then
    match createEach store failures [rememberedGrant req pattern] with
    | (after, .ok ()) => (after, .ok [])
    | (after, .error thrown) => (after, .error thrown)
  else releaseEach release reviewerId pattern store ids

def acceptJitCard (store : CardStore) (failures : CardFailures) (cardId reviewerId : Text)
    (rememberPattern : Option (Option Text)) (now : Nat) :
    CardStore × Except CardError (CapabilityCard × List Text) :=
  match getCapabilityCard store failures.readCard cardId with
  | none => (store, .error (unknownCard cardId))
  | some card =>
    if card.kind ≠ .jit then
      (store, .error (.service ⟨"Card ".toList ++ cardId ++ " is not a JIT card".toList, 400⟩))
    else if card.state ≠ .pending then (store, .error (settledCard cardId card.state))
    else
      match card.request with
      | none =>
        (store, .error (.service ⟨"Card ".toList ++ cardId ++
            " has no dispatch request".toList, 500⟩))
      | some req =>
        match grantOrRelease release store failures card req reviewerId
            (rememberedPattern req rememberPattern) with
        | (after, .error thrown) => (after, .error thrown)
        | (after, .ok released) =>
          match settleCard after failures card reviewerId now with
          | (last, .ok next) => (last, .ok (next, released))
          | (last, .error thrown) => (last, .error thrown)

end

/-- The rows a confirmed ceiling writes: one for each unflagged proposal,
for any resource. -/
def ceilingGrants (proposals : List CapabilityProposal) (subject : GrantSubject) :
    List ResourceGrantRow :=
  (proposals.filter fun row => row.flag = none).map fun row =>
    { subject := subject
      capability := row.capability
      resourcePattern := none
      credentialLevel := row.credentialLevel.getD .workspaceToken }

def confirmInstallCeiling (store : CardStore) (failures : CardFailures)
    (cardId reviewerId : Text) (subject : Option GrantSubject) (now : Nat) :
    CardStore × Except CardError CapabilityCard :=
  match getCapabilityCard store failures.readCard cardId with
  | none => (store, .error (unknownCard cardId))
  | some card =>
    if card.kind ≠ .install ∧ card.kind ≠ .draft then
      (store, .error (.service ⟨"Card ".toList ++ cardId ++
          " is not an install/draft card".toList, 400⟩))
    else if card.blocked || card.state = .blocked then
      (store, .error (.service ⟨("Install blocked: undeclared capability use must be declared " ++
          "in app.yaml or removed from code").toList, 400⟩))
    else if card.state ≠ .pending then (store, .error (settledCard cardId card.state))
    else
      match createEach store failures (ceilingGrants (card.proposals.getD [])
            (subject.getD ⟨.user, reviewerId⟩)) with
      | (after, .error thrown) => (after, .error thrown)
      | (after, .ok ()) => settleCard after failures card reviewerId now

theorem createEach_ok {store after : CardStore} {failures : CardFailures}
    {rows : List ResourceGrantRow} (created : createEach store failures rows = (after, .ok ())) :
    after = store.createGrants rows := by
  unfold createEach at created
  split at created
  · cases created
  · split at created
    · cases created
      rfl
    · split at created
      · cases created
      · cases created
        rfl

theorem settleCard_workspace {store after : CardStore} {failures : CardFailures}
    {card : CapabilityCard} {reviewerId : Text} {now : Nat}
    {outcome : Except CardError CapabilityCard}
    (settled : settleCard store failures card reviewerId now = (after, outcome)) :
    after.workspace = store.workspace := by
  unfold settleCard at settled
  split at settled
  · cases settled
    rfl
  · cases settled
    rfl

theorem createGrants_nil (store : CardStore) : store.createGrants [] = store := by
  simp [CardStore.createGrants]

theorem getCapabilityCard_raised (store : CardStore) (fails : Bool) (input : RaiseInput)
    (queuedForRun now : Nat) {card : CapabilityCard}
    (found :
      getCapabilityCard (raiseJitCard store input queuedForRun now) fails input.id = some card) :
    card = jitCard input queuedForRun now := by
  unfold getCapabilityCard at found
  split at found
  · cases found
  · have first : (jitCard input queuedForRun now).id = input.id := rfl
    simp only [raiseJitCard, CardStore.saveCard] at found
    rw [List.find?_cons_of_pos (by simp [first])] at found
    exact (Option.some.inj found).symm

section

variable (matchesResourcePattern : Text → Text → Bool)
variable (release : CardStore → Text → Text → Option Text → CardStore × Except CardError Text)

/-- The rows that accepting the card of a capability miss writes. -/
def acceptedRows (input : RaiseInput) (rememberPattern : Option (Option Text)) :
    List ResourceGrantRow :=
  if input.alwaysAsk then []
  else [rememberedGrant input.request (rememberedPattern input.request rememberPattern)]

/-- A reviewer accepts the card of a request: the card raised for a miss,
which lists no queued action, or a ceiling of the store.  The index is the
list of rows written. -/
inductive Accepts (store : CardStore) (req : DispatchRequest) :
    List ResourceGrantRow → CardStore → Prop where
  | jit (after : CardStore) (input : RaiseInput)
      (queuedForRun raisedAt acceptedAt : Nat) (failures : CardFailures)
      (reviewerId : Text) (rememberPattern : Option (Option Text))
      (answer : CapabilityCard × List Text)
      (ofRequest : input.request = req)
      (unqueued : input.queuedActionIds.getD [] = [])
      (accepted :
        acceptJitCard release (raiseJitCard store input queuedForRun raisedAt) failures
            input.id reviewerId rememberPattern acceptedAt =
          (after, .ok answer)) :
      Accepts store req (acceptedRows input rememberPattern) after
  | ceiling (after : CardStore) (card answer : CapabilityCard)
      (failures : CardFailures) (cardId reviewerId : Text)
      (subject : Option GrantSubject) (acceptedAt : Nat)
      (stored : getCapabilityCard store failures.readCard cardId = some card)
      (confirmed :
        confirmInstallCeiling store failures cardId reviewerId subject acceptedAt =
          (after, .ok answer)) :
      Accepts store req (ceilingGrants (card.proposals.getD [])
          (subject.getD ⟨.user, reviewerId⟩)) after

variable {store after : CardStore}

theorem acceptJitCard_workspace {input : RaiseInput} {queuedForRun raisedAt acceptedAt : Nat}
    {failures : CardFailures} {reviewerId : Text} {rememberPattern : Option (Option Text)}
    {answer : CapabilityCard × List Text} (unqueued : input.queuedActionIds.getD [] = [])
    (accepted :
      acceptJitCard release (raiseJitCard store input queuedForRun raisedAt) failures
          input.id reviewerId rememberPattern acceptedAt =
        (after, .ok answer)) :
    after.workspace = (store.createGrants (acceptedRows input rememberPattern)).workspace := by
  unfold acceptJitCard at accepted
  split at accepted
  · cases accepted
  · rename_i card found
    have same := getCapabilityCard_raised store _ input queuedForRun raisedAt found
    subst same
    rw [if_neg (by simp [jitCard]), if_neg (by simp [jitCard])] at accepted
    simp only [jitCard] at accepted
    split at accepted
    · cases accepted
    · rename_i middle released worked
      have settles : after.workspace = middle.workspace := by
        split at accepted
        · rename_i last next settled
          cases accepted
          exact settleCard_workspace settled
        · cases accepted
      rw [settles]
      unfold grantOrRelease at worked
      simp only [unqueued] at worked
      cases always : input.alwaysAsk with
      | true =>
        simp only [always, if_true, releaseEach, Prod.mk.injEq] at worked
        rw [← worked.1, acceptedRows, always, if_pos rfl, createGrants_nil]
        rfl
      | false =>
        rw [acceptedRows, always, if_neg (by simp)]
        simp only [always, Bool.false_eq_true, if_false, if_true] at worked
        split at worked
        · rename_i created
          cases worked
          rw [createEach_ok created]
          rfl
        · cases worked

/-- A ceiling, once confirmed, has added its rows. -/
theorem confirmInstallCeiling_workspace {card answer : CapabilityCard} {failures : CardFailures}
    {cardId reviewerId : Text} {subject : Option GrantSubject} {acceptedAt : Nat}
    (stored : getCapabilityCard store failures.readCard cardId = some card)
    (confirmed :
      confirmInstallCeiling store failures cardId reviewerId subject acceptedAt =
        (after, .ok answer)) :
    after.workspace = (store.createGrants (ceilingGrants (card.proposals.getD [])
          (subject.getD ⟨.user, reviewerId⟩))).workspace := by
  unfold confirmInstallCeiling at confirmed
  rw [stored] at confirmed
  simp only at confirmed
  split at confirmed
  · cases confirmed
  · split at confirmed
    · cases confirmed
    · split at confirmed
      · cases confirmed
      · split at confirmed
        · cases confirmed
        · rename_i middle created
          rw [settleCard_workspace confirmed, createEach_ok created]

theorem Accepts.workspace_eq {req : DispatchRequest} {rows : List ResourceGrantRow}
    (accepts : Accepts release store req rows after) :
    after.workspace = (store.createGrants rows).workspace := by
  cases accepts with
  | jit _ _ _ _ _ _ _ _ _ _ unqueued accepted =>
    exact acceptJitCard_workspace release unqueued accepted
  | ceiling _ _ _ _ _ _ _ _ stored confirmed =>
    exact confirmInstallCeiling_workspace stored confirmed

theorem layers_createGrants (store : CardStore) (rows : List ResourceGrantRow)
    (failures : Failures) (req : DispatchRequest) (runTools : Option (List Text)) :
    otherLayersPass (store.createGrants rows).workspace failures req runTools =
      otherLayersPass store.workspace failures req runTools ∧
    appLayerPasses (store.createGrants rows).workspace failures req =
      appLayerPasses store.workspace failures req :=
  ⟨rfl, rfl⟩

/-- A denial or a question for a missing capability. -/
def isCapabilityMiss : DispatchDecision → Bool
  | .deny .capability => true
  | .ask _ => true
  | _ => false

theorem layer_of_capabilityMiss {workspace : Workspace} {failures : Failures} {freshId : Text}
    {req : DispatchRequest} {runTools : Option (List Text)} {decision : DispatchDecision}
    (evaluated :
      evaluateDispatch matchesResourcePattern workspace failures freshId
        req (.projected runTools) = some decision) (missed : isCapabilityMiss decision = true) :
    ¬ (otherLayersPass workspace failures req runTools = true ∧
      appLayerPasses workspace failures req = true) := by
  rintro ⟨others, app⟩
  rw [evaluateDispatch_of_passes others app] at evaluated
  unfold resourceStage at evaluated
  split at evaluated
  · cases evaluated
    cases missed
  · split at evaluated
    · cases evaluated
      cases missed
    · split at evaluated
      · cases evaluated
      · cases evaluated
        cases missed
    · cases evaluated
      cases missed

/-- What the second evaluation of a missed request needs: its reads, of the
workspace as it was before the card, cover the call in every capability
layer, and the resource axis does not refuse the rows with those the card
adds. -/
structure CoveredOnReading
    (store : CardStore) (rows : List ResourceGrantRow) (later : Failures)
    (req : DispatchRequest) (runTools : Option (List Text)) : Prop where
  others : otherLayersPass store.workspace later req runTools = true
  app : appLayerPasses store.workspace later req = true
  resource :
    resourceRefuses matchesResourcePattern (store.createGrants rows).workspace later req = false

/-- After the card of a missed request is accepted, the same request is
allowed exactly when the stored authority covered it all along, which the
first evaluation, with its failed reads, could not see.  With the same reads
it is never allowed. -/
theorem accepted_allows_iff (store after : CardStore) (rows : List ResourceGrantRow)
    (earlier later : Failures) (freshId laterId : Text) (req : DispatchRequest)
    (runTools : Option (List Text)) (decision : DispatchDecision)
    (evaluated :
      evaluateDispatch matchesResourcePattern store.workspace earlier
        freshId req (.projected runTools) = some decision)
    (missed : isCapabilityMiss decision = true)
    (accepts : Accepts release store req rows after) :
    (evaluateDispatch matchesResourcePattern after.workspace later laterId
        req (.projected runTools) = some .allow ↔
      CoveredOnReading matchesResourcePattern store rows later req runTools) ∧
    (later = earlier → evaluateDispatch matchesResourcePattern after.workspace later laterId
        req (.projected runTools) ≠ some .allow) := by
  have allowed :
      evaluateDispatch matchesResourcePattern after.workspace later laterId
          req (.projected runTools) = some .allow ↔
        CoveredOnReading matchesResourcePattern store rows later req
          runTools := by
    rw [accepts.workspace_eq, evaluateDispatch_eq_allow_iff]
    have layers := layers_createGrants store rows later req runTools
    rw [layers.1, layers.2]
    constructor
    · intro ⟨others, app, resource⟩
      exact ⟨others, app, resource⟩
    · intro covered
      exact ⟨covered.others, covered.app, covered.resource⟩
  refine ⟨allowed, ?_⟩
  intro sameReads opened
  subst sameReads
  have covered := allowed.mp opened
  exact layer_of_capabilityMiss matchesResourcePattern evaluated missed
    ⟨covered.others, covered.app⟩

end

/-- A member's run wants to send a mail and no grant covers it. -/
def sendMail : DispatchRequest where
  principal := { sub := "alice".toList, role := .member, groupIds := [] }
  via := none
  tool := {
    toolNamespace := "email".toList
    operation := "send".toList
    effect := .action }
  resource := some "mailto:bob".toList
  credential := none
  runContext := some { runId := "run".toList, resultDependent := true }

def bareStore : CardStore where
  workspace := {
    permissions := []
    profileGrants := []
    profiles := []
    apps := []
    resourceGrants := []
    credentials := [] }
  cards := []

def mailCard : RaiseInput where
  id := "card".toList
  invokerId := "alice".toList
  request := sendMail
  runId := some "run".toList
  turn := some 0
  queuedActionIds := none
  alwaysAsk := false

def releaseNothing (store : CardStore) (id _reviewerId : Text) (_pattern : Option Text) :
    CardStore × Except CardError Text :=
  (store, .ok id)

def mailAccepted : CardStore :=
  (acceptJitCard releaseNothing (raiseJitCard bareStore mailCard 0 1) .none
    "card".toList "alice".toList (some none) 2).1

theorem mailCard_accepts :
    Accepts releaseNothing bareStore sendMail (acceptedRows mailCard (some none)) mailAccepted :=
  .jit mailAccepted mailCard 0 1 2 .none "alice".toList (some none)
    ((jitCard mailCard 0 1).acceptedBy "alice".toList 2, []) rfl rfl
    (by decide +kernel)

/-- Alice's own acceptance does not let her run send the mail. -/
theorem accepted_allows_fails_send :
    ¬ ∀ (store after : CardStore) (rows : List ResourceGrantRow)
        (freshId laterId : Text) (req : DispatchRequest)
        (runTools : Option (List Text)) (decision : DispatchDecision),
        evaluateDispatch matchesLiteral store.workspace Failures.none
            freshId req (.projected runTools) = some decision →
          isCapabilityMiss decision = true →
          Accepts releaseNothing store req rows after →
          evaluateDispatch matchesLiteral after.workspace Failures.none
            laterId req (.projected runTools) = some .allow := by
  intro law
  have allowed := law bareStore mailAccepted
    (acceptedRows mailCard (some none)) "card".toList "other".toList
    sendMail none (.ask "card".toList) (by decide +kernel) rfl
    mailCard_accepts
  have asks :
      evaluateDispatch matchesLiteral mailAccepted.workspace Failures.none
        "other".toList sendMail (.projected none) = some (.ask "other".toList) := by
    decide +kernel
  rw [asks] at allowed
  cases allowed

/-- The mail is not allowed with the same reads. -/
theorem accepted_allows_send :
    (evaluateDispatch matchesLiteral mailAccepted.workspace Failures.none
        "other".toList sendMail (.projected none) = some .allow ↔
      CoveredOnReading matchesLiteral bareStore
        (acceptedRows mailCard (some none)) Failures.none sendMail none) ∧
    (Failures.none = Failures.none →
      evaluateDispatch matchesLiteral mailAccepted.workspace Failures.none
        "other".toList sendMail (.projected none) ≠ some .allow) :=
  accepted_allows_iff matchesLiteral releaseNothing bareStore mailAccepted
    (acceptedRows mailCard (some none)) Failures.none Failures.none
    "card".toList "other".toList sendMail none (.ask "card".toList)
    (by decide +kernel) rfl mailCard_accepts

end Aprovan.Grants.Cards
