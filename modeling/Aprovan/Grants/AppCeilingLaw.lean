import Aprovan.Grants.Dispatch

/-!
# The app ceiling under every storage outcome

The layers of `evaluateDispatch` do not all fail closed: a missing or
unreadable app record counts as no ceiling, an unknown profile as one that
targets every namespace, and unreadable resource grants as no grants.
-/

namespace Aprovan.Grants

open Aprovan.Library

section

variable (matchesResourcePattern : Text → Text → Bool)

variable (workspace : Workspace)

/-- The layers other than the app ceiling and the resource axis. -/
def otherLayersPass (failures : Failures) (req : DispatchRequest) (runTools : Option (List Text)) :
    Bool :=
  credentialOk workspace failures.credentials req && !failures.permissions &&
    invokerOk workspace failures req (.projected runTools) &&
    profileOk workspace failures req &&
    ceilingOk runTools req

def appLayerPasses (failures : Failures) (req : DispatchRequest) : Bool :=
  ceilingOk (resolveAppCeiling workspace failures.readApp req) req

/-- What the resource axis says of the rows as stored. -/
def storedVerdict (req : DispatchRequest) : ResourceVerdict :=
  decideResource matchesResourcePattern (storedResourceGrants workspace req) req

/-- The resource axis refuses an action on rows it has read. -/
def resourceRefuses (failures : Failures) (req : DispatchRequest) : Bool :=
  req.tool.effect = .action && !failures.resourceGrants &&
    storedVerdict matchesResourcePattern workspace req ≠ .allow

theorem decideResource_nil (req : DispatchRequest) :
    decideResource matchesResourcePattern [] req = .allow :=
  rfl

/-- What the chokepoint answers once the other layers pass. -/
def resourceStage (failures : Failures) (freshId : Text)
    (req : DispatchRequest) (runTools : Option (List Text)) :
    Option DispatchDecision :=
  if req.tool.effect = .observation then some .allow
  else
    match decideResource matchesResourcePattern
        (resourceRows workspace failures req (.projected runTools)) req with
    | .allow => some .allow
    | .miss => if failures.enqueue then none else some (.queue freshId)
    | .unconnected => some (.deny .credentialUnconnected)

section

variable {matchesResourcePattern} {workspace : Workspace}
  {failures : Failures} {freshId : Text} {req : DispatchRequest}
  {runTools : Option (List Text)}

theorem evaluateDispatch_of_passes (others : otherLayersPass workspace failures req runTools = true)
    (app : appLayerPasses workspace failures req = true) :
    evaluateDispatch matchesResourcePattern workspace failures freshId req (.projected runTools) =
      resourceStage matchesResourcePattern workspace failures freshId req runTools := by
  simp only [otherLayersPass, Bool.and_eq_true, Bool.not_eq_true'] at others
  obtain ⟨⟨⟨⟨credential, readable⟩, invoker⟩, profile⟩, run⟩ := others
  have appLayer : appOk workspace failures req (.projected runTools) = true := app
  have runLayer : ceilingOk (EvaluateDispatchOptions.projected runTools).runTools req = true := run
  simp [evaluateDispatch, credential, readable, invoker, appLayer, profile, runLayer]
  rfl

theorem evaluateDispatch_eq_some_iff {decision : DispatchDecision}
    (granted : decision = .allow ∨ decision = .queue freshId) :
    evaluateDispatch matchesResourcePattern workspace failures freshId
        req (.projected runTools) = some decision ↔
      otherLayersPass workspace failures req runTools = true ∧
        appLayerPasses workspace failures req = true ∧
        resourceStage matchesResourcePattern workspace failures freshId req
          runTools = some decision := by
  constructor
  · intro evaluated
    have passes : otherLayersPass workspace failures req runTools = true ∧
        appLayerPasses workspace failures req = true := by
      unfold evaluateDispatch at evaluated
      split at evaluated
      · rcases granted with rfl | rfl <;> cases evaluated
      split at evaluated
      · cases evaluated
      split at evaluated
      · split at evaluated <;> rcases granted with rfl | rfl <;>
          cases evaluated
      · next connected readable refused =>
          simp only [Bool.or_eq_true, Bool.not_eq_true', not_or,
            Bool.not_eq_false] at connected refused
          obtain ⟨⟨⟨invoker, app⟩, profile⟩, run⟩ := refused
          refine ⟨?_, app⟩
          simp_all [otherLayersPass, EvaluateDispatchOptions.projected]
    rw [evaluateDispatch_of_passes passes.1 passes.2] at evaluated
    exact ⟨passes.1, passes.2, evaluated⟩
  · rintro ⟨others, app, staged⟩
    rw [evaluateDispatch_of_passes others app, staged]

theorem evaluateDispatch_eq_allow_iff :
    evaluateDispatch matchesResourcePattern workspace failures freshId
        req (.projected runTools) = some .allow ↔
      otherLayersPass workspace failures req runTools = true ∧
        appLayerPasses workspace failures req = true ∧
        resourceRefuses matchesResourcePattern workspace failures req = false := by
  rw [evaluateDispatch_eq_some_iff (.inl rfl)]
  refine and_congr_right' (and_congr_right' ?_)
  unfold resourceStage resourceRefuses storedVerdict
  cases effect : req.tool.effect with
  | observation => simp
  | action =>
    cases unreadable : failures.resourceGrants with
    | true =>
      simp [resourceRows, EvaluateDispatchOptions.projected, unreadable, decideResource_nil]
    | false =>
      simp only [resourceRows, EvaluateDispatchOptions.projected, unreadable]
      cases verdict : decideResource matchesResourcePattern
          (storedResourceGrants workspace req) req with
      | allow => simp [verdict]
      | miss => cases failures.enqueue <;> simp [verdict]
      | unconnected => simp [verdict]

theorem evaluateDispatch_eq_queue_iff (readable : failures.resourceGrants = false)
    (saves : failures.enqueue = false) :
    evaluateDispatch matchesResourcePattern workspace failures freshId
        req (.projected runTools) = some (.queue freshId) ↔
      otherLayersPass workspace failures req runTools = true ∧
        appLayerPasses workspace failures req = true ∧ req.tool.effect = .action ∧
        storedVerdict matchesResourcePattern workspace req = .miss := by
  rw [evaluateDispatch_eq_some_iff (.inr rfl)]
  refine and_congr_right' (and_congr_right' ?_)
  unfold resourceStage storedVerdict
  cases effect : req.tool.effect with
  | observation => simp
  | action =>
    simp only [resourceRows, EvaluateDispatchOptions.projected, readable]
    cases verdict : decideResource matchesResourcePattern
        (storedResourceGrants workspace req) req with
    | allow => simp [verdict]
    | miss => simp [verdict, saves]
    | unconnected => simp [verdict]

end

/-- The invoker's patterns, all of them read, cover the call. -/
def InvokerCovers (workspace : Workspace) (req : DispatchRequest) : Prop :=
  capabilityCovered (resolveInvokerPatterns workspace false req)
    req.tool.toolNamespace req.tool.operation = true

/-- The record of the app exists and its tool list covers the call. -/
def CeilingCovers (workspace : Workspace) (req : DispatchRequest) (appId : Text) : Prop :=
  ∃ app, readApp workspace appId = some app ∧
    capabilityCovered app.allowedTools req.tool.toolNamespace req.tool.operation = true

/-- The profile exists, is granted to the caller or one of the caller's
groups, and targets the namespace. -/
def ProfileCovers (workspace : Workspace) (req : DispatchRequest) (profileId : Text) : Prop :=
  ∃ profile, profileById workspace profileId = some profile ∧
    profileGranted workspace req.principal profileId = true ∧
    profile.targets req.tool.toolNamespace = true

/-- The intersection law for one request through the app `appId`. -/
structure CeilingIntersects
    (workspace : Workspace) (failures : Failures) (freshId : Text)
    (req : DispatchRequest) (runTools : Option (List Text))
    (appId : Text) : Prop where
  covered :
    evaluateDispatch matchesResourcePattern workspace failures freshId
        req (.projected runTools) = some .allow →
      InvokerCovers workspace req ∧ CeilingCovers workspace req appId ∧
        ∀ profileId, req.profileId = some profileId → ProfileCovers workspace req profileId
  unreadable :
    failures.readApp = true ∨ readApp workspace appId = none →
      evaluateDispatch matchesResourcePattern workspace failures freshId
        req (.projected runTools) ≠ some .allow
  queued :
    failures.resourceGrants = true → evaluateDispatch matchesResourcePattern workspace
          { failures with resourceGrants := false, enqueue := false }
          freshId req (.projected runTools) = some (.queue freshId) →
        evaluateDispatch matchesResourcePattern workspace failures freshId
          req (.projected runTools) ≠ some .allow

def ceilingFound (workspace : Workspace) (failures : Failures) (appId : Text) : Bool :=
  !failures.readApp && (readApp workspace appId).isSome

/-- The profile a request names, if any, exists and is granted to the
caller or one of the caller's groups. -/
def pinnedProfileGranted (workspace : Workspace) (req : DispatchRequest) : Bool :=
  match req.profileId with
  | none => true
  | some profileId =>
    (profileById workspace profileId).isSome && profileGranted workspace req.principal profileId

/-- The stored rows would queue the action, and they cannot be read. -/
def missUnread (workspace : Workspace) (failures : Failures) (req : DispatchRequest) : Bool :=
  failures.resourceGrants && req.tool.effect = .action &&
    storedVerdict matchesResourcePattern workspace req = .miss

def layerRefuses (workspace : Workspace) (failures : Failures)
    (req : DispatchRequest) (runTools : Option (List Text)) : Bool :=
  !otherLayersPass workspace failures req runTools || !appLayerPasses workspace failures req ||
    resourceRefuses matchesResourcePattern workspace failures req

theorem resolveInvokerPatterns_subset
    (workspace : Workspace) (fails : Bool) (req : DispatchRequest) :
    ∀ pattern ∈ resolveInvokerPatterns workspace fails req,
      pattern ∈ resolveInvokerPatterns workspace false req := by
  intro pattern member
  cases fails with
  | false => exact member
  | true =>
    simp only [resolveInvokerPatterns, invokerMatchedToolPatterns, if_true,
      List.mem_append, List.not_mem_nil, or_false] at member
    simp only [resolveInvokerPatterns, List.mem_append]
    exact member.imp_left Or.inl

variable {workspace : Workspace} {failures : Failures} {req : DispatchRequest}

private theorem invokerCovers_of_otherLayersPass {runTools : Option (List Text)}
    (passes : otherLayersPass workspace failures req runTools = true) :
    InvokerCovers workspace req := by
  simp only [otherLayersPass, Bool.and_eq_true] at passes
  have covered := passes.1.1.2
  simp only [invokerOk, EvaluateDispatchOptions.projected, Option.getD_none] at covered
  exact matchesCapabilityPattern_mono
    (resolveInvokerPatterns_subset workspace failures.invokerProfiles req)
    covered

private theorem ceilingCovers_of_found {appId : Text} (named : req.appId = some appId)
    (found : ceilingFound workspace failures appId = true)
    (passes : appLayerPasses workspace failures req = true) :
    CeilingCovers workspace req appId := by
  simp only [ceilingFound, Bool.and_eq_true, Bool.not_eq_true', Option.isSome_iff_exists] at found
  obtain ⟨readable, app, stored⟩ := found
  refine ⟨app, stored, ?_⟩
  simpa [appLayerPasses, resolveAppCeiling, named, readable, stored, ceilingOk] using passes

private theorem profileCovers_of_granted {runTools : Option (List Text)}
    {profileId : Text} (named : req.profileId = some profileId)
    (granted : pinnedProfileGranted workspace req = true)
    (passes : otherLayersPass workspace failures req runTools = true) :
    ProfileCovers workspace req profileId := by
  simp only [pinnedProfileGranted, named, Bool.and_eq_true, Option.isSome_iff_exists] at granted
  obtain ⟨⟨profile, stored⟩, grant⟩ := granted
  simp only [otherLayersPass, Bool.and_eq_true] at passes
  have narrowed := passes.1.2
  simp only [profileOk, named, stored, Bool.and_eq_true] at narrowed
  exact ⟨profile, stored, grant, narrowed.2⟩

/-- The chokepoint meets the intersection law on a request through an app
exactly when some layer refuses the call by itself, or the app record is read
and exists, the named profile exists and is granted to the caller, and no
failed read of the resource grants hides a miss. -/
theorem ceilingIntersects_iff (workspace : Workspace) (failures : Failures) (freshId : Text)
    (req : DispatchRequest) (runTools : Option (List Text))
    (appId : Text) (named : req.appId = some appId) :
    CeilingIntersects matchesResourcePattern workspace failures freshId req runTools appId ↔
      layerRefuses matchesResourcePattern workspace failures req runTools = true ∨
        (ceilingFound workspace failures appId = true ∧ pinnedProfileGranted workspace req = true ∧
          missUnread matchesResourcePattern workspace failures req = false) := by
  have allows := @evaluateDispatch_eq_allow_iff matchesResourcePattern
    workspace failures freshId req runTools
  have queues := @evaluateDispatch_eq_queue_iff matchesResourcePattern
    workspace { failures with resourceGrants := false, enqueue := false }
    freshId req runTools rfl rfl
  -- the flags that the queue is asked under do not reach the other layers
  change _ ↔ otherLayersPass workspace failures req runTools = true ∧
    appLayerPasses workspace failures req = true ∧ _ at queues
  have refuses :
      layerRefuses matchesResourcePattern workspace failures req runTools = false ↔
        evaluateDispatch matchesResourcePattern workspace failures freshId
          req (.projected runTools) = some .allow := by
    rw [allows]
    simp [layerRefuses, and_assoc]
  constructor
  · rintro ⟨covered, unreadable, queued⟩
    by_cases refused : layerRefuses matchesResourcePattern workspace failures req runTools = true
    · exact Or.inl refused
    right
    rw [Bool.not_eq_true] at refused
    have allowed := refuses.mp refused
    obtain ⟨_, ⟨app, stored, _⟩, profiles⟩ := covered allowed
    refine ⟨?_, ?_, ?_⟩
    · have readable : failures.readApp = false := by
        by_contra fails
        rw [Bool.not_eq_false] at fails
        exact unreadable (Or.inl fails) allowed
      simp [ceilingFound, readable, stored]
    · unfold pinnedProfileGranted
      cases pinned : req.profileId with
      | none => rfl
      | some profileId =>
        obtain ⟨profile, found, granted, _⟩ := profiles profileId pinned
        simp [found, granted]
    · by_contra hidden
      rw [Bool.not_eq_false] at hidden
      simp only [missUnread, Bool.and_eq_true, decide_eq_true_eq] at hidden
      obtain ⟨⟨fails, action⟩, miss⟩ := hidden
      have passes := allows.mp allowed
      exact queued fails (queues.mpr ⟨passes.1, passes.2.1, action, miss⟩) allowed
  · rintro (refused | ⟨found, granted, seen⟩)
    · have closed :
          evaluateDispatch matchesResourcePattern workspace failures
            freshId req (.projected runTools) ≠ some .allow := by
        intro allowed
        rw [refuses.mpr allowed] at refused
        cases refused
      exact ⟨fun allowed => absurd allowed closed, fun _ => closed,
        fun _ _ => closed⟩
    · constructor
      · intro allowed
        have passes := allows.mp allowed
        exact ⟨invokerCovers_of_otherLayersPass passes.1,
          ceilingCovers_of_found named found passes.2.1,
          fun profileId pinned => profileCovers_of_granted pinned granted passes.1⟩
      · intro missing
        simp only [ceilingFound, Bool.and_eq_true, Bool.not_eq_true'] at found
        rcases missing with fails | absent
        · rw [fails] at found
          cases found.1
        · rw [absent] at found
          cases found.2
      · intro fails wouldQueue
        obtain ⟨_, _, action, miss⟩ := queues.mp wouldQueue
        change storedVerdict matchesResourcePattern workspace req = _ at miss
        simp [missUnread, fails, action, miss] at seen

end

def listThroughApp : DispatchRequest where
  principal := { sub := "ann".toList, role := .member, groupIds := [] }
  via := some { appId := some "notes".toList, profileId := none }
  tool := {
    toolNamespace := "vfs".toList
    operation := "list".toList
    effect := .observation }
  resource := none
  credential := none
  runContext := none

/-- The member may use every file operation; `apps` are the stored apps. -/
def filesWorkspace (apps : List AppCeiling) : Workspace where
  permissions := [⟨"ann".toList, "vfs".toList, "*".toList⟩]
  profileGrants := []
  profiles := []
  apps := apps
  resourceGrants := []
  credentials := []

def matchesLiteral (pattern resource : Text) : Bool :=
  pattern = resource

/-- With no record stored for the app, the call is allowed and no ceiling
covers it. -/
theorem ceilingIntersects_fails_missing_app :
    ¬ ∀ (workspace : Workspace) (failures : Failures) (freshId : Text)
        (req : DispatchRequest) (runTools : Option (List Text))
        (appId : Text), req.appId = some appId →
          CeilingIntersects matchesLiteral workspace failures freshId req
            runTools appId := by
  intro law
  have intersects := law (filesWorkspace []) Failures.none "q".toList
    listThroughApp none "notes".toList (by decide)
  exact intersects.unreadable (Or.inr (by decide)) (by decide)

/-- With a record whose tool list covers the call, the law holds. -/
theorem ceilingIntersects_iff_stored_app :
    CeilingIntersects matchesLiteral
      (filesWorkspace [⟨"notes".toList, ["vfs.*".toList]⟩]) Failures.none
      "q".toList listThroughApp none "notes".toList :=
  (ceilingIntersects_iff matchesLiteral
    (filesWorkspace [⟨"notes".toList, ["vfs.*".toList]⟩]) Failures.none
    "q".toList listThroughApp none "notes".toList (by decide)).mpr (Or.inr (by decide))

end Aprovan.Grants
