import Aprovan.Actions.Queue
import Aprovan.Grants.ResourceMonotone
import Aprovan.Library.Keyed

/-!
# A release that fails

One call of `release`, with the resource grants and the queue that it
writes.  Nothing takes a remembered grant back when a later step fails.  The
executor is a callback; it may throw, and writes neither grants nor queued
actions here.
-/

namespace Aprovan.Actions

open Aprovan.Library Aprovan.Grants Aprovan.Server

/-- The stores of a workspace.  Every row of a resource grant has an id of
its own, so the list of the rows stands for their set. -/
structure ReleaseStores where
  workspace : Workspace
  queue : Keyed QueuedAction.id

/-- Which operations of the call throw, in their order. -/
structure ReleaseFailures where
  (read saveExpired tenants createGrant : Bool)
  dispatch : Failures
  (executor saveReleased : Bool)

def ReleaseFailures.none : ReleaseFailures where
  read := false
  saveExpired := false
  tenants := false
  createGrant := false
  dispatch := Failures.none
  executor := false
  saveReleased := false

/-- What is thrown: a service error, or what a store or the executor threw. -/
inductive ReleaseError where
  | service (error : ServiceError)
  | passedOn

/-- The arguments of the call, its time, and the identifier that is minted
when an action is queued. -/
structure ReleaseCall where
  (id reviewerId : Text)
  rememberPattern : Option Text
  now : Nat
  freshId : Text

def actionNotFound (id : Text) : ServiceError where
  message := "Queued action ".toList ++ id ++ " not found".toList
  status := 404

def QueuedActionState.label : QueuedActionState → Text
  | .queued => "queued".toList
  | .released => "released".toList
  | .discarded => "discarded".toList
  | .expired => "expired".toList

def releaseIsNoop (id : Text) (state : QueuedActionState) : ServiceError where
  message := "Queued action ".toList ++ id ++ " is ".toList ++ state.label ++
    "; release is a no-op".toList
  status := 409

def decisionKind : DispatchDecision → Text
  | .allow => "allow".toList
  | .deny _ => "deny".toList
  | .queue _ => "queue".toList
  | .ask _ => "ask".toList

def pathNotOpened (decision : DispatchDecision) : ServiceError where
  message := "Remembered pattern did not open the allow path (got ".toList ++
    decisionKind decision ++ ")".toList
  status := 500

/-- `writeSvcRecord`, under the action's id. -/
def ReleaseStores.save (stores : ReleaseStores) (action : QueuedAction) : ReleaseStores :=
  { stores with queue := stores.queue.put action }

/-- `getQueuedAction`: a failed read counts as not found, and a record whose
expiry has passed is expired first. -/
def getQueuedAction (stores : ReleaseStores) (failures : ReleaseFailures) (now : Nat) (id : Text) :
    Except ReleaseError (Option QueuedAction) × ReleaseStores :=
  if failures.read then (.ok none, stores)
  else
    match stores.queue.find? id with
    | none => (.ok none, stores)
    | some action =>
      if isDue action now then
        if failures.saveExpired then (.error .passedOn, stores)
        else
          let next := (transitionExpired action now).val
          (.ok (some next), stores.save next)
      else (.ok (some action), stores)

def rememberedGrant (req : DispatchRequest) (pattern : Text) : ResourceGrantRow where
  subject :=
    match req.via.bind (·.appId) with
    | some appId => ⟨.appInstall, appId⟩
    | none => ⟨.user, req.principal.sub⟩
  capability := callName req.tool.toolNamespace req.tool.operation
  resourcePattern := some pattern
  credentialLevel :=
    (req.credential.map (·.level)).getD .workspaceToken

/-- The options of the check: the capability was cleared at queue time. -/
def allowPathOptions (req : DispatchRequest) : EvaluateDispatchOptions where
  appCeiling :=
    req.appId.map fun _ => [callName req.tool.toolNamespace req.tool.operation]
  runTools := none
  resourceGrants := none
  invokerPatterns :=
    some [callName req.tool.toolNamespace req.tool.operation]

/-- `store.resourceGrants.create`. -/
def ReleaseStores.createGrant (stores : ReleaseStores) (grant : ResourceGrantRow) :
    ReleaseStores :=
  { stores with
    workspace := stores.workspace.withGrants
      (stores.workspace.resourceGrants ++ [grant]) }

/-- The one-shot execution, and the record of it. -/
def executeRelease (stores : ReleaseStores) (failures : ReleaseFailures)
    (call : ReleaseCall) (loaded : QueuedAction) :
    Except ReleaseError QueuedAction × ReleaseStores :=
  if failures.executor then (.error .passedOn, stores)
  else if failures.saveReleased then (.error .passedOn, stores)
  else
    let next :=
      (released loaded call.reviewerId call.rememberPattern call.now).val
    (.ok next, stores.save next)

section

variable (matchesResourcePattern : Text → Text → Bool)

def rememberAndRelease (stores : ReleaseStores) (failures : ReleaseFailures)
    (call : ReleaseCall) (loaded : QueuedAction) (pattern : Text) :
    Except ReleaseError QueuedAction × ReleaseStores :=
  let req := loaded.request
  if failures.tenants then (.error .passedOn, stores)
  else if failures.createGrant then (.error .passedOn, stores)
  else
    let granted := stores.createGrant (rememberedGrant req pattern)
    match evaluateDispatch matchesResourcePattern granted.workspace
        failures.dispatch call.freshId req (allowPathOptions req) with
    | none => (.error .passedOn, granted)
    | some .allow => executeRelease granted failures call loaded
    | some (.queue queuedActionId) =>
      -- the chokepoint has queued the request once more
      (.error (.service (pathNotOpened (.queue queuedActionId))),
        granted.save (enqueueQueuedAction queuedActionId req call.now))
    | some decision => (.error (.service (pathNotOpened decision)), granted)

def release (stores : ReleaseStores) (failures : ReleaseFailures) (call : ReleaseCall) :
    Except ReleaseError QueuedAction × ReleaseStores :=
  match getQueuedAction stores failures call.now call.id with
  | (.error thrown, reached) => (.error thrown, reached)
  | (.ok none, reached) => (.error (.service (actionNotFound call.id)), reached)
  | (.ok (some loaded), reached) =>
    if loaded.state ≠ .queued then
      (.error (.service (releaseIsNoop call.id loaded.state)), reached)
    else
      match call.rememberPattern with
      | none => executeRelease reached failures call loaded
      | some pattern =>
        rememberAndRelease matchesResourcePattern reached failures call loaded pattern

end

/-- The queued actions, as `countQueuedForRun` takes them: a record past its
expiry is none. -/
def queuedActions (stores : ReleaseStores) (now : Nat) : List QueuedAction :=
  stores.queue.rows.filter fun action => action.state = .queued && !isDue action now

/-- If the call throws, grants and queued actions are the ones before. -/
def FailsUnchanged (before : ReleaseStores) (now : Nat)
    (result : Except ReleaseError QueuedAction × ReleaseStores) : Prop :=
  ∀ thrown, result.1 = .error thrown →
    result.2.workspace.resourceGrants = before.workspace.resourceGrants ∧
      queuedActions result.2 now = queuedActions before now

def releasable (stores : ReleaseStores) (failures : ReleaseFailures) (call : ReleaseCall) :
    Option QueuedAction :=
  if failures.read then none
  else
    (stores.queue.find? call.id).filter fun action =>
      action.state = .queued && !isDue action call.now

/-- With the remembered grant the request passes: its credential is
connected, its profile allows it, and the grants do not refuse its
resource. -/
structure OpensPath (matchesResourcePattern : Text → Text → Bool)
    (workspace : Workspace) (failures : Failures) (req : DispatchRequest)
    (pattern : Text) : Prop where
  credential : credentialOk workspace failures.credentials req = true
  profile : profileOk workspace failures req = true
  resource : req.tool.effect = .observation ∨ failures.resourceGrants = true ∨
      ¬ ResourceMissed matchesResourcePattern
          (workspace.resourceGrants ++ [rememberedGrant req pattern]) req ∧
        ¬ LevelUnproved matchesResourcePattern
          (workspace.resourceGrants ++ [rememberedGrant req pattern]) req

/-- Whenever the call comes to create a grant, everything after it
succeeds. -/
def RememberSucceeds (matchesResourcePattern : Text → Text → Bool) (stores : ReleaseStores)
    (failures : ReleaseFailures) (call : ReleaseCall) : Prop :=
  ∀ pattern action, call.rememberPattern = some pattern →
    releasable stores failures call = some action →
      failures.tenants = false → failures.createGrant = false →
        OpensPath matchesResourcePattern stores.workspace failures.dispatch
            action.request pattern ∧
          failures.executor = false ∧ failures.saveReleased = false

theorem matchesCapabilityPattern_callName (toolNamespace operation : Text) :
    matchesCapabilityPattern [callName toolNamespace operation] toolNamespace operation = true := by
  rw [matchesCapabilityPattern, List.any_cons, List.any_nil, Bool.or_false]
  exact patternMatches_self _

section

variable (matchesResourcePattern : Text → Text → Bool)
  (workspace : Workspace) (failures : Failures)

theorem invokerOk_allowPath (req : DispatchRequest) :
    invokerOk workspace failures req (allowPathOptions req) = true :=
  matchesCapabilityPattern_callName _ _

theorem appOk_allowPath (req : DispatchRequest) :
    appOk workspace failures req (allowPathOptions req) = true := by
  unfold appOk allowPathOptions
  cases named : req.appId with
  | none =>
    simp only [resolveAppCeiling, named]
    rfl
  | some appId => exact matchesCapabilityPattern_callName _ _

theorem resourceRows_allowPath (req : DispatchRequest) :
    decideResource matchesResourcePattern
        (resourceRows workspace failures req (allowPathOptions req)) req =
      if failures.resourceGrants then .allow
      else
        storedVerdict matchesResourcePattern workspace req := by
  unfold resourceRows allowPathOptions
  cases unreadable : failures.resourceGrants with
  | true => exact decideResource_nil matchesResourcePattern req
  | false => rfl

theorem evaluateDispatch_allowPath_iff (freshId : Text) (req : DispatchRequest) (pattern : Text) :
    evaluateDispatch matchesResourcePattern (workspace.withGrants
          (workspace.resourceGrants ++ [rememberedGrant req pattern]))
        failures freshId req (allowPathOptions req) = some .allow ↔
      OpensPath matchesResourcePattern workspace failures req pattern := by
  have sameCredential (rows : List ResourceGrantRow) :
      credentialOk (workspace.withGrants rows) failures.credentials req =
        credentialOk workspace failures.credentials req :=
    rfl
  have sameProfile (rows : List ResourceGrantRow) :
      profileOk (workspace.withGrants rows) failures req = profileOk workspace failures req :=
    rfl
  have given : (allowPathOptions req).invokerPatterns ≠ none := by simp [allowPathOptions]
  have unprojected : ceilingOk (allowPathOptions req).runTools req = true := rfl
  unfold evaluateDispatch
  simp only [given, decide_false, Bool.false_and, Bool.false_eq_true,
    if_false, invokerOk_allowPath, appOk_allowPath, unprojected,
    resourceRows_allowPath, sameCredential, sameProfile, Bool.not_true,
    Bool.false_or, Bool.or_false, Bool.not_eq_eq_eq_not]
  by_cases connected : credentialOk workspace failures.credentials req = false
  · rw [if_pos connected]
    constructor
    · intro impossible
      cases impossible
    · intro opens
      rw [opens.credential] at connected
      cases connected
  rw [if_neg connected]
  rw [Bool.not_eq_false] at connected
  by_cases narrowed : profileOk workspace failures req = false
  · rw [if_pos narrowed]
    constructor
    · intro impossible
      split at impossible <;> cases impossible
    · intro opens
      rw [opens.profile] at narrowed
      cases narrowed
  rw [if_neg narrowed]
  rw [Bool.not_eq_false] at narrowed
  by_cases observed : req.tool.effect = .observation
  · rw [if_pos observed]
    exact ⟨fun _ => ⟨connected, narrowed, Or.inl observed⟩, fun _ => rfl⟩
  rw [if_neg observed]
  cases unreadable : failures.resourceGrants with
  | true =>
    exact ⟨fun _ => ⟨connected, narrowed, Or.inr (Or.inl unreadable)⟩,
      fun _ => rfl⟩
  | false =>
    have verdictIff := storedVerdict_eq_allow_iff matchesResourcePattern workspace
      (workspace.resourceGrants ++ [rememberedGrant req pattern]) req
    cases verdict : storedVerdict matchesResourcePattern (workspace.withGrants
          (workspace.resourceGrants ++ [rememberedGrant req pattern]))
        req with
    | allow =>
      have both := verdictIff.mp verdict
      exact ⟨fun _ => ⟨connected, narrowed, Or.inr (Or.inr both)⟩,
        fun _ => by simp⟩
    | miss =>
      have refused := mt verdictIff.mpr (by rw [verdict]; decide)
      constructor
      · intro impossible
        simp only [Bool.false_eq_true, if_false] at impossible
        split at impossible <;> cases impossible
      · intro opens
        rcases opens.resource with observes | fails | both
        · exact absurd observes observed
        · rw [unreadable] at fails
          cases fails
        · exact absurd both refused
    | unconnected =>
      have refused := mt verdictIff.mpr (by rw [verdict]; decide)
      constructor
      · intro impossible
        simp at impossible
      · intro opens
        rcases opens.resource with observes | fails | both
        · exact absurd observes observed
        · rw [unreadable] at fails
          cases fails
        · exact absurd both refused

end

section

variable {stores : ReleaseStores} {failures : ReleaseFailures}
  {call : ReleaseCall}

theorem failsUnchanged_refl (stores : ReleaseStores) (now : Nat)
    (outcome : Except ReleaseError QueuedAction) :
    FailsUnchanged stores now (outcome, stores) :=
  fun _ _ => ⟨rfl, rfl⟩

theorem failsUnchanged_execute (stores : ReleaseStores) (failures : ReleaseFailures)
    (call : ReleaseCall) (loaded : QueuedAction) :
    FailsUnchanged stores call.now (executeRelease stores failures call loaded) := by
  unfold executeRelease
  by_cases executorThrows : failures.executor = true
  · rw [if_pos executorThrows]
    exact failsUnchanged_refl stores call.now _
  · rw [if_neg executorThrows]
    by_cases saveThrows : failures.saveReleased = true
    · rw [if_pos saveThrows]
      exact failsUnchanged_refl stores call.now _
    · rw [if_neg saveThrows]
      intro thrown impossible
      cases impossible

/-- A record that stops being queued, or was none before, changes nothing
else about the queued actions. -/
theorem queuedActions_save {stores : ReleaseStores} {old next : QueuedAction}
    {now : Nat} (stored : stores.queue.find? next.id = some old)
    (wasNone : isDue old now = true) (isNone : next.state ≠ .queued) :
    queuedActions (stores.save next) now = queuedActions stores now := by
  obtain ⟨member, sameId⟩ := Keyed.find?_eq_some_iff.mp stored
  have known : next.id ∈ stores.queue.rows.map QueuedAction.id := by
    rw [← sameId]
    exact List.mem_map_of_mem member
  have rows : (stores.save next).queue.rows = stores.queue.rows.map fun row =>
        if row.id = next.id then next else row := by
    show putUnder QueuedAction.id stores.queue.rows next = _
    rw [putUnder, if_pos known]
  have dropped (row : QueuedAction) (present : row ∈ stores.queue.rows)
      (same : row.id = next.id) : row = old :=
    stores.queue.eq_of_key_eq present member (same.trans sameId.symm)
  unfold queuedActions
  rw [rows, List.filter_map]
  have kept : stores.queue.rows.filter ((fun action => decide (action.state = .queued) &&
          !isDue action now) ∘ fun row =>
            if row.id = next.id then next else row) =
      stores.queue.rows.filter fun action =>
        decide (action.state = .queued) && !isDue action now := by
    apply List.filter_congr
    intro row present
    by_cases same : row.id = next.id
    · rw [dropped row present same]
      simp [sameId, isNone, wasNone]
    · simp [same]
  rw [kept]
  have unmoved : ∀ row ∈ stores.queue.rows.filter (fun action =>
        decide (action.state = .queued) && !isDue action now),
      (if row.id = next.id then next else row) = row := by
    intro row queued
    obtain ⟨present, live⟩ := List.mem_filter.mp queued
    have other : row.id ≠ next.id := by
      intro same
      rw [dropped row present same, wasNone] at live
      simp at live
    rw [if_neg other]
  rw [List.map_congr_left unmoved, List.map_id']

/-- Either the call goes on with a releasable action and the stores as they
were, or it throws and changes nothing. -/
theorem getQueuedAction_cases (stores : ReleaseStores)
    (failures : ReleaseFailures) (call : ReleaseCall) :
    (∃ action, releasable stores failures call = some action ∧ action.state = .queued ∧
      getQueuedAction stores failures call.now call.id = (.ok (some action), stores)) ∨
    releasable stores failures call = none ∧ ∃ outcome reached,
        getQueuedAction stores failures call.now call.id = (outcome, reached) ∧
        (∀ action, outcome = .ok (some action) → action.state ≠ .queued) ∧
        reached.workspace = stores.workspace ∧
        queuedActions reached call.now = queuedActions stores call.now := by
  unfold releasable getQueuedAction
  by_cases unread : failures.read = true
  · right
    rw [if_pos unread, if_pos unread]
    exact ⟨rfl, _, _, rfl, by simp, rfl, rfl⟩
  rw [if_neg unread, if_neg unread]
  cases stored : stores.queue.find? call.id with
  | none =>
    right
    exact ⟨rfl, _, _, rfl, by simp, rfl, rfl⟩
  | some action =>
    by_cases due : isDue action call.now = true
    · right
      refine ⟨by simp [due], ?_⟩
      simp only [if_pos due]
      by_cases unsaved : failures.saveExpired = true
      · simp only [if_pos unsaved]
        exact ⟨_, _, rfl, by simp, rfl, rfl⟩
      · simp only [if_neg unsaved]
        refine ⟨_, _, rfl, ?_, rfl, ?_⟩
        · intro expired same
          cases same
          exact (transitionExpired action call.now).property
        · have sameId := (Keyed.find?_eq_some_iff.mp stored).2
          have kept :
              stores.queue.find? (transitionExpired action call.now).val.id = some action := by
            rw [← stored, ← sameId]
            rfl
          exact queuedActions_save kept due (transitionExpired action call.now).property
    · simp only [if_neg due]
      by_cases queued : action.state = .queued
      · left
        exact ⟨action, by simp [queued, due], queued, rfl⟩
      · right
        refine ⟨by simp [queued], _, _, rfl, ?_, rfl, rfl⟩
        intro other same
        cases same
        exact queued

end

section

variable (matchesResourcePattern : Text → Text → Bool)

theorem failsUnchanged_remember_iff (stores : ReleaseStores) (failures : ReleaseFailures)
    (call : ReleaseCall) (loaded : QueuedAction) (pattern : Text) :
    FailsUnchanged stores call.now
        (rememberAndRelease matchesResourcePattern stores failures call loaded pattern) ↔
      (failures.tenants = false → failures.createGrant = false →
        OpensPath matchesResourcePattern stores.workspace failures.dispatch loaded.request pattern ∧
          failures.executor = false ∧ failures.saveReleased = false) := by
  have opensIff := evaluateDispatch_allowPath_iff matchesResourcePattern
    stores.workspace failures.dispatch call.freshId loaded.request pattern
  have grew (reached : ReleaseStores) (outcome : ReleaseError)
      (same : reached.workspace = (stores.createGrant
          (rememberedGrant loaded.request pattern)).workspace) :
      ¬ FailsUnchanged stores call.now (.error outcome, reached) := by
    intro unchanged
    have grants := (unchanged outcome rfl).1
    rw [same] at grants
    have lengths := congrArg List.length grants
    simp [ReleaseStores.createGrant, Workspace.withGrants] at lengths
  unfold rememberAndRelease
  by_cases noTenant : failures.tenants = true
  · simp only [if_pos noTenant]
    refine iff_of_true (failsUnchanged_refl stores call.now _) ?_
    intro present
    rw [noTenant] at present
    cases present
  simp only [if_neg noTenant]
  by_cases notCreated : failures.createGrant = true
  · simp only [if_pos notCreated]
    refine iff_of_true (failsUnchanged_refl stores call.now _) ?_
    intro _ created
    rw [notCreated] at created
    cases created
  simp only [if_neg notCreated]
  rw [Bool.not_eq_true] at noTenant notCreated
  simp only [noTenant, notCreated, forall_const]
  rw [← opensIff]
  simp only [ReleaseStores.createGrant]
  cases decided : evaluateDispatch matchesResourcePattern
      (stores.workspace.withGrants (stores.workspace.resourceGrants ++
        [rememberedGrant loaded.request pattern]))
      failures.dispatch call.freshId loaded.request
      (allowPathOptions loaded.request) with
  | none => exact iff_of_false (grew _ _ rfl) (by simp)
  | some decision =>
    cases decision with
    | deny reason => exact iff_of_false (grew _ _ rfl) (by simp)
    | queue queuedActionId => exact iff_of_false (grew _ _ rfl) (by simp)
    | ask cardId => exact iff_of_false (grew _ _ rfl) (by simp)
    | allow =>
      simp only [true_and]
      unfold executeRelease
      by_cases executorThrows : failures.executor = true
      · rw [if_pos executorThrows]
        exact iff_of_false (grew _ _ rfl) (by simp [executorThrows])
      rw [if_neg executorThrows]
      by_cases saveThrows : failures.saveReleased = true
      · rw [if_pos saveThrows]
        exact iff_of_false (grew _ _ rfl) (by simp [saveThrows])
      rw [if_neg saveThrows]
      rw [Bool.not_eq_true] at executorThrows saveThrows
      refine iff_of_true ?_ ⟨executorThrows, saveThrows⟩
      intro thrown impossible
      cases impossible

end

def mailsToBob : ReleaseStores where
  workspace := mailWorkspace
  queue := Keyed.empty.put (enqueueQueuedAction "q".toList mailBob 0)

def rememberCarol : ReleaseCall where
  id := "q".toList
  reviewerId := "rev".toList
  rememberPattern := some "carol".toList
  now := 1
  freshId := "r".toList

end Aprovan.Actions
