import Aprovan.Library.LazyFill
import Aprovan.Webhooks.Deliveries

/-!
# Registering and removing against deliveries

What a delivery saves is what it has loaded, whatever has been registered or
removed since.  Where it is still registered as it was loaded, registering and
removing decide what is registered.
-/

namespace Aprovan.Webhooks

open Aprovan.Library Aprovan.Server Aprovan.Workflows

abbrev HookExecuted := Executed HookStatement.Answer HookFailure

def core (registration : WebhookRegistration) : WebhookRegistration :=
  { registration with
    deliveryCount := none
    lastDeliveryAt := none
    lastEvent := none
    lastError := none }

def recordEffect (id : Text) : HookExecuted → CellEffect WebhookRegistration
  | ⟨_, .saveWebhook next _, .ok _⟩ =>
    if next.id = id then .writes (some next) else .keeps
  | ⟨_, .removeWebhook removed, .ok _⟩ =>
    if removed = id then .writes none else .keeps
  | _ => .keeps

/-- What registering and removing do to it, apart from the bookkeeping. -/
def coreEffect (id : Text) : HookExecuted → CellEffect WebhookRegistration
  | ⟨_, .saveWebhook next none, .ok _⟩ =>
    if next.id = id then .writes (some (core next)) else .keeps
  | ⟨_, .removeWebhook removed, .ok _⟩ =>
    if removed = id then .writes none else .keeps
  | _ => .keeps

def workflowEffect (name : Text) : HookExecuted → CellEffect StoredWorkflow
  | ⟨_, .saveWorkflow next, .ok _⟩ =>
    if next.name = name then .writes (some next) else .keeps
  | ⟨_, .removeWorkflow removed, .ok _⟩ =>
    if removed = name then .writes none else .keeps
  | _ => .keeps

abbrev HookSeen :=
  (statement : HookStatement) → Except HookFailure statement.Answer → Prop

variable (services : HookServices)

/-- A registration is saved back by the delivery that has loaded it, with
another bookkeeping, and with the error only if it is not authorized. -/
def SavesBack (request : HookRequest) (seen : HookSeen) (next loaded : WebhookRegistration) :
    Prop :=
  ∃ delivery, request = .deliver delivery ∧
    seen (.readWebhook delivery.target) (.ok (some loaded)) ∧ core next = core loaded ∧
        (authorized services loaded delivery = some false → next = rejected loaded)

/-- A run is started by a delivery or a hook call that is authorized by what
it has loaded. -/
def MayRun (request : HookRequest) (seen : HookSeen) : Prop :=
  (∃ delivery loaded, request = .deliver delivery ∧
    seen (.readWebhook delivery.target) (.ok (some loaded)) ∧
      authorized services loaded delivery = some true) ∨
    ∃ delivery loaded, request = .hook delivery ∧
      seen (.readWorkflow delivery.target) (.ok (some loaded)) ∧ loaded.triggers.webhook = true ∧
          delivery.token = loaded.hookToken

def MayDo (request : HookRequest) (seen : HookSeen) : HookStatement → Prop
  | .saveWebhook next (some loaded) => SavesBack services request seen next loaded
  | .runWorkflow _ => MayRun services request seen
  | statement => manages statement = true → request.isManagement = true

structure ManagementWins (initial : HookStores) (system : HookSystem) : Prop where
  records : ∀ id, system.shared.webhooks.find? id =
    cellAfter (recordEffect id) (initial.webhooks.find? id) system.history
  /-- A webhook is as it was last registered or removed, apart from the
  bookkeeping. -/
  webhooks : ∀ id, (system.shared.webhooks.find? id).map core =
    cellAfter (coreEffect id) ((initial.webhooks.find? id).map core) system.history
  /-- So is a workflow, whatever is delivered. -/
  workflows : ∀ name, system.shared.workflows.find? name =
    cellAfter (workflowEffect name) (initial.workflows.find? name) system.history
  /-- Every call does what it may do. -/
  done : ∀ (caller : Nat) statement answer, ⟨caller, statement, answer⟩ ∈ system.history →
      ∃ request, system.requestAt caller = some request ∧ MayDo services request
          (fun asked given => ⟨caller, asked, given⟩ ∈ system.history)
          statement
  /-- A delivery changes no other webhook than its own. -/
  own : ∀ (caller : Nat) delivery next loaded, system.requestAt caller = some (.deliver delivery) →
      ⟨caller, .saveWebhook next (some loaded), .ok ()⟩ ∈ system.history →
        next.id = delivery.target
  /-- A delivery that is not authorized changes only the error, unless the
  webhook is written in between. -/
  unauthorized : ∀ (caller : Nat) delivery loaded next before middle after,
    system.requestAt caller = some (.deliver delivery) →
      authorized services loaded delivery = some false → system.history = before ++
            ⟨caller, .readWebhook delivery.target, .ok (some loaded)⟩ ::
              (middle ++ ⟨caller, .saveWebhook next (some loaded), .ok ()⟩ :: after) →
          (∀ entry ∈ middle, recordEffect delivery.target entry = .keeps) →
            cellAfter (recordEffect delivery.target) (initial.webhooks.find? delivery.target)
                (before ++ ⟨caller, .readWebhook delivery.target,
                    .ok (some loaded)⟩ :: middle) = some loaded ∧
              next = rejected loaded

/-- A delivery saves its webhook only if it is still registered as it was
when it was loaded, apart from the bookkeeping. -/
def findsLoaded (system : HookSystem) : HookAct → Bool
  | .advance position (.proceeds _) =>
    match system.awaiting position with
    | some (.saveWebhook next (some loaded)) =>
      (system.shared.webhooks.find? next.id).map core = some (core loaded)
    | _ => true
  | _ => true

abbrev HookMemory :=
  List ((statement : HookStatement) × Except HookFailure statement.Answer)

def remembers (memory : HookMemory) : HookSeen :=
  fun statement answer => ⟨statement, answer⟩ ∈ memory

def hookDiscipline (request : HookRequest) :
    Discipline HookStatement.Answer HookFailure HookMemory :=
  tracingAdmitting fun memory => MayDo services request (remembers memory)

/-- Nothing is asked of how a call ends. -/
def anyEnd (_ : HookRequest) (_ : HookMemory) (_ : Except HookFailure HookReply) : Prop :=
  True

section

variable {services : HookServices} {request : HookRequest}
  {delivery : HookDelivery} {loaded : WebhookRegistration}
  {memory : HookMemory} {statement : HookStatement}

theorem MayDo.mono {seen more : HookSeen} (may : MayDo services request seen statement)
    (kept : ∀ statement answer, seen statement answer → more statement answer) :
    MayDo services request more statement := by
  unfold MayDo at may ⊢
  split at may
  · obtain ⟨delivery, same, read, rest⟩ := may
    exact ⟨delivery, same, kept _ _ read, rest⟩
  · rcases may with delivers | hooks
    · obtain ⟨delivery, loaded, same, read, rest⟩ := delivers
      exact Or.inl ⟨delivery, loaded, same, kept _ _ read, rest⟩
    · obtain ⟨delivery, loaded, same, read, rest⟩ := hooks
      exact Or.inr ⟨delivery, loaded, same, kept _ _ read, rest⟩
  · exact may

/-- What a member's call may ask. -/
def isOrdinary : HookStatement → Prop
  | .saveWebhook _ (some _) => False
  | .runWorkflow _ => False
  | _ => True

theorem mayDo_of_isOrdinary (management : request.isManagement = true)
    (ordinary : isOrdinary statement) (seen : HookSeen) :
    MayDo services request seen statement := by
  unfold MayDo
  split
  · exact ordinary.elim
  · exact ordinary.elim
  · intro _
    exact management

theorem follows_of_isOrdinary {process : HookCall HookReply}
    (management : request.isManagement = true) (asks : Asks isOrdinary process) :
    Follows (hookDiscipline services request) (anyEnd request) memory process :=
  follows_of_asks asks fun memory _ ordinary =>
    mayDo_of_isOrdinary management ordinary (remembers memory)

theorem asks_checkedOutcome {Value : Type} (outcome : Outcome Value) :
    Asks isOrdinary (checkedOutcome outcome) := by
  cases outcome with
  | ok value => exact asks_pure value
  | error error => exact asks_raise _

theorem asks_askHook (ordinary : isOrdinary statement) : Asks isOrdinary (askHook statement) :=
  asks_perform ordinary

theorem asks_registerWebhook (caller : CallSurroundings) (inApp : Bool)
    (args : RegisterWebhookArgs) :
    Asks isOrdinary (registerWebhook caller inApp args) := by
  unfold registerWebhook
  split
  · exact asks_raise _
  · refine asks_bind (asks_checkedOutcome _) ?_
    intro checked
    apply asks_bind
    · apply asks_forM
      intro name
      unfold requireListed
      refine asks_bind (asks_askHook trivial) ?_
      intro found
      cases found with
      | none => exact asks_raise _
      | some workflow => exact asks_pure _
    · intro _
      refine asks_bind (asks_askHook trivial) ?_
      intro existing
      refine asks_bind (asks_checkedOutcome _) ?_
      intro signature
      refine asks_bind (asks_askHook trivial) ?_
      intro _
      exact asks_pure _

theorem asks_removeWebhook (inApp : Bool) (rawId : Option Text) :
    Asks isOrdinary (removeWebhook inApp rawId) := by
  unfold removeWebhook
  split
  · exact asks_raise _
  · refine asks_bind (asks_checkedOutcome _) ?_
    intro id
    refine asks_bind (asks_askHook trivial) ?_
    intro removed
    exact asks_pure _

theorem asks_registerWorkflow (cronError : Text → Option ServiceError)
    (caller : CallSurroundings) (args : RegisterWorkflowArgs) :
    Asks isOrdinary (registerWorkflow cronError caller args) := by
  unfold registerWorkflow
  refine asks_bind (asks_checkedOutcome _) ?_
  intro checked
  refine asks_bind (asks_askHook trivial) ?_
  intro existing
  refine asks_bind (asks_checkedOutcome _) ?_
  intro given
  refine asks_bind (asks_askHook trivial) ?_
  intro _
  refine asks_bind (asks_askHook trivial) ?_
  intro _
  exact asks_pure _

theorem asks_removeWorkflow (caller : CallSurroundings) (rawName : Option Text) :
    Asks isOrdinary (removeWorkflow caller rawName) := by
  unfold removeWorkflow
  refine asks_bind (asks_checkedOutcome _) ?_
  intro name
  refine asks_bind (asks_askHook trivial) ?_
  intro found
  cases found with
  | none => exact asks_raise _
  | some registration =>
    refine asks_bind (asks_askHook trivial) ?_
    intro exportedBy
    split
    · refine asks_bind (asks_askHook trivial) ?_
      intro removed
      refine asks_bind (asks_askHook trivial) ?_
      intro _
      refine asks_bind (asks_askHook trivial) ?_
      intro _
      exact asks_pure _
    · exact asks_raise _

theorem core_delivered (registration : WebhookRegistration) (now : Nat)
    (event : Option Text) (runs : List ListedRun) :
    core (delivered registration now event runs) = core registration :=
  rfl

theorem core_rejected (registration : WebhookRegistration) :
    core (rejected registration) = core registration :=
  rfl

theorem admitsDelivery_hookDiscipline :
    AdmitsDelivery (hookDiscipline services (.deliver delivery))
      (fun memory => remembers memory (.readWebhook delivery.target)
        (.ok (some loaded))) services delivery loaded where
  kept := by
    intro memory statement answer read
    exact List.mem_append_left _ read
  reads := by
    intro memory name _ impossible
    cases impossible
  runs := by
    intro permitted before after name workflow event read _ _
    exact Or.inl ⟨delivery, loaded, rfl, read, permitted⟩
  rejects := by
    intro _ memory read
    exact ⟨delivery, rfl, read, core_rejected loaded, fun _ => rfl⟩
  saves := by
    intro permitted memory event listed read
    refine ⟨delivery, rfl, read, core_delivered loaded _ _ _, ?_⟩
    intro refused
    rw [permitted] at refused
    cases refused

theorem follows_delivery :
    Follows (hookDiscipline services (.deliver delivery))
      (anyEnd (.deliver delivery)) memory (deliver services delivery) := by
  unfold deliver
  split
  · trivial
  · refine ⟨?unmanaged, ?answered⟩
    case unmanaged =>
      intro impossible
      cases impossible
    intro answer _
    cases answer with
    | error thrown => trivial
    | ok found =>
      cases found with
      | none => trivial
      | some loaded =>
        apply follows_deliverTo admitsDelivery_hookDiscipline
        exact List.mem_append_right _ (List.mem_singleton_self _)

theorem follows_hookCall :
    Follows (hookDiscipline services (.hook delivery))
      (anyEnd (.hook delivery)) memory (hook delivery) := by
  apply follows_hook
  · intro impossible
    cases impossible
  · intro registration _ exposed permitted
    have webhook : registration.triggers.webhook = true := by
      simp only [hasHook, Bool.and_eq_true] at exposed
      exact exposed.1
    refine Or.inr ⟨delivery, registration, rfl, ?_, webhook, permitted⟩
    exact List.mem_append_right _ (List.mem_singleton_self _)

theorem follows_serveHook (cronError : Text → Option ServiceError) (request : HookRequest) :
    Follows (hookDiscipline services request) (anyEnd request) memory
      (serveHook services cronError request) := by
  cases request with
  | deliver delivery => exact follows_delivery
  | hook delivery => exact follows_hookCall
  | registerWebhook caller inApp args =>
    exact follows_of_isOrdinary rfl (asks_registerWebhook caller inApp args)
  | removeWebhook inApp id => exact follows_of_isOrdinary rfl (asks_removeWebhook inApp id)
  | registerWorkflow caller args =>
    exact follows_of_isOrdinary rfl (asks_registerWorkflow cronError caller args)
  | removeWorkflow caller name => exact follows_of_isOrdinary rfl (asks_removeWorkflow caller name)

end

section

variable {choice : HookChoice} {stores : HookStores} (caller : Nat)

theorem record_executeHook (statement : HookStatement) (id : Text) :
    (executeHook choice statement stores).2.webhooks.find? id = (recordEffect id
        ⟨caller, statement, (executeHook choice statement stores).1⟩).on
          (stores.webhooks.find? id) := by
  cases choice with
  | refuses => cases statement <;> rfl
  | proceeds run =>
    cases statement with
    | saveWebhook next loaded =>
      refine (Keyed.find?_put stores.webhooks next id).trans ?_
      by_cases own : next.id = id <;>
        simp [executeHook, recordEffect, own, CellEffect.on]
    | removeWebhook removed =>
      refine (Keyed.find?_erase stores.webhooks removed id).trans ?_
      by_cases own : removed = id <;>
        simp [executeHook, recordEffect, own, CellEffect.on]
    | _ => rfl

theorem workflow_executeHook (statement : HookStatement) (name : Text) :
    (executeHook choice statement stores).2.workflows.find? name = (workflowEffect name
        ⟨caller, statement, (executeHook choice statement stores).1⟩).on
          (stores.workflows.find? name) := by
  cases choice with
  | refuses => cases statement <;> rfl
  | proceeds run =>
    cases statement with
    | saveWorkflow next =>
      refine (Keyed.find?_put stores.workflows next name).trans ?_
      by_cases own : next.name = name <;>
        simp [executeHook, workflowEffect, own, CellEffect.on]
    | removeWorkflow removed =>
      refine (Keyed.find?_erase stores.workflows removed name).trans ?_
      by_cases own : removed = name <;>
        simp [executeHook, workflowEffect, own, CellEffect.on]
    | _ => rfl

/-- Apart from the bookkeeping, what a delivery saves changes nothing where
the webhook is as it was loaded. -/
theorem core_executeHook (statement : HookStatement) (id : Text)
    (same : ∀ next loaded, choice ≠ .refuses → statement = .saveWebhook next (some loaded) →
        core next = core loaded ∧ (stores.webhooks.find? next.id).map core = some (core loaded)) :
    ((executeHook choice statement stores).2.webhooks.find? id).map core = (coreEffect id
        ⟨caller, statement, (executeHook choice statement stores).1⟩).on
          ((stores.webhooks.find? id).map core) := by
  rw [record_executeHook caller]
  cases choice with
  | refuses =>
    cases statement with
    | saveWebhook next loaded => cases loaded <;> rfl
    | _ => rfl
  | proceeds run =>
    cases statement with
    | saveWebhook next loaded =>
      by_cases own : next.id = id
      · cases loaded with
        | none => simp [executeHook, recordEffect, coreEffect, own, CellEffect.on]
        | some loaded =>
          obtain ⟨kept, stored⟩ := same next loaded nofun rfl
          rw [own] at stored
          simp [executeHook, recordEffect, coreEffect, own, CellEffect.on, stored, kept]
      · cases loaded <;>
          simp [executeHook, recordEffect, coreEffect, own, CellEffect.on]
    | removeWebhook removed =>
      by_cases own : removed = id <;>
        simp [executeHook, recordEffect, coreEffect, own, CellEffect.on]
    | _ => rfl

theorem eq_find?_of_readWebhook {reader : Nat} {statement : HookStatement}
    {id : Text} {answer : Option WebhookRegistration}
    (read : (⟨reader, .readWebhook id, .ok answer⟩ : HookExecuted) =
      ⟨caller, statement, (executeHook choice statement stores).1⟩) :
    answer = stores.webhooks.find? id := by
  cases choice with
  | refuses => cases read
  | proceeds run =>
    cases read
    rfl

end

/-- What is known of the statements that were executed. -/
structure HookSettled (services : HookServices) (initial : HookStores)
    (system : HookSystem) : Prop where
  records : ∀ id, system.shared.webhooks.find? id =
    cellAfter (recordEffect id) (initial.webhooks.find? id) system.history
  webhooks : ∀ id, (system.shared.webhooks.find? id).map core =
    cellAfter (coreEffect id) ((initial.webhooks.find? id).map core) system.history
  workflows : ∀ name, system.shared.workflows.find? name =
    cellAfter (workflowEffect name) (initial.workflows.find? name) system.history
  reads : ∀ before caller id found after,
    system.history = before ++ ⟨caller, .readWebhook id, .ok found⟩ :: after →
      found = cellAfter (recordEffect id) (initial.webhooks.find? id) before
  loads : ∀ (caller : Nat) id loaded,
    ⟨caller, .readWebhook id, .ok (some loaded)⟩ ∈ system.history → loaded.id = id
  done : ∀ (caller : Nat) statement answer, ⟨caller, statement, answer⟩ ∈ system.history →
      ∃ request, system.requestAt caller = some request ∧ MayDo services request
          (fun asked given => ⟨caller, asked, given⟩ ∈ system.history)
          statement

structure HookInvariant (services : HookServices) (initial : HookStores)
    (system : HookSystem) : Prop where
  follow : AllFollow (hookDiscipline services) [] anyEnd system
  settled : HookSettled services initial system

theorem hookInvariant_idle (services : HookServices) (initial : HookStores) :
    HookInvariant services initial (noHookCalls initial) where
  follow := follows_idle
  settled := by
    refine ⟨fun _ => rfl, fun _ => rfl, fun _ => rfl, ?_, ?_, ?_⟩
    · intro before caller id found after split
      have impossible : [] = before ++ _ :: after := split
      simp at impossible
    · intro caller id loaded member
      cases member
    · intro caller statement answer member
      cases member

section

variable {services : HookServices} {initial : HookStores}
  {cronError : Text → Option ServiceError} {system next : HookSystem}
  {position : Nat} {request : HookRequest} {choice : HookChoice}

theorem hookInvariant_start (holds : HookInvariant services initial system)
    (request : HookRequest) :
    HookInvariant services initial
      (system.start request (serveHook services cronError request)) where
  follow := follows_start holds.follow (follows_serveHook cronError request)
  settled := by
    refine ⟨holds.settled.records, holds.settled.webhooks,
      holds.settled.workflows, holds.settled.reads, holds.settled.loads, ?_⟩
    intro caller statement answer member
    have inside : caller < system.calls.length := holds.follow.below _ member
    rw [requestAt_start inside]
    exact holds.settled.done caller statement answer member

theorem settled_answered (settled : HookSettled services initial system)
    {statement : HookStatement}
    {resume : Except HookFailure statement.Answer → HookCall HookReply}
    (found : system.Awaits position request statement resume)
    (may : MayDo services request (fun asked given => ⟨position, asked, given⟩ ∈ system.history)
      statement) (finds : findsLoaded system (.advance position choice) = true) :
    HookSettled services initial (system.answered position request statement
      resume (executeHook choice statement system.shared)) where
  records := by
    intro id
    refine (record_executeHook position statement id).trans ?_
    rw [settled.records]
    exact (cellAfter_append_singleton _ _).symm
  webhooks := by
    intro id
    refine (core_executeHook position statement id ?_).trans ?_
    · intro next loaded executed same
      subst same
      obtain ⟨delivery, _, _, kept, _⟩ := may
      refine ⟨kept, ?_⟩
      cases choice with
      | refuses => exact absurd rfl executed
      | proceeds run => simpa [findsLoaded, Concurrent.awaiting, found] using finds
    · rw [settled.webhooks]
      exact (cellAfter_append_singleton _ _).symm
  workflows := by
    intro name
    refine (workflow_executeHook position statement name).trans ?_
    rw [settled.workflows]
    exact (cellAfter_append_singleton _ _).symm
  reads := by
    intro before caller id answer after split
    rcases split_of_append_singleton split with
      ⟨same, rfl⟩ | ⟨shorter, rfl, older⟩
    · have front : before = system.history := (List.append_inj_left' split (by simp)).symm
      rw [front, ← settled.records]
      exact eq_find?_of_readWebhook position same
    · exact settled.reads before caller id answer shorter older
  loads := by
    intro caller id loaded member
    rcases List.mem_append.mp member with older | new
    · exact settled.loads caller id loaded older
    · have stored : some loaded = system.shared.webhooks.find? id :=
        eq_find?_of_readWebhook position (List.mem_singleton.mp new)
      exact (Keyed.find?_eq_some_iff.mp stored.symm).2
  done := by
    intro caller asked answer member
    rw [requestAt_answered found]
    have grows : ∀ entry ∈ system.history, entry ∈
        (system.answered position request statement resume
          (executeHook choice statement system.shared)).history :=
      fun entry held => List.mem_append_left _ held
    rcases List.mem_append.mp member with older | new
    · obtain ⟨started, asks, may⟩ := settled.done caller asked answer older
      exact ⟨started, asks, may.mono fun _ _ held => grows _ held⟩
    · cases List.mem_singleton.mp new
      exact ⟨request, requestAt_of_found found, may.mono fun _ _ held => grows _ held⟩

theorem hookInvariant_hookStep {act : HookAct} (holds : HookInvariant services initial system)
    (finds : findsLoaded system act = true)
    (taken : hookStep services cronError system act = some next) :
    HookInvariant services initial next := by
  cases act with
  | start request =>
    cases taken
    exact hookInvariant_start holds request
  | advance position choice =>
    obtain ⟨request, statement, resume, found, rfl⟩ :=
      advance_eq_some_iff.mp taken
    refine ⟨follows_answered holds.follow found trivial,
      settled_answered holds.settled found ?_ finds⟩
    have admitted : MayDo services request _ statement := holds.follow.admitted found
    apply admitted.mono
    intro asked answer remembered
    exact mem_memoryOf_tracing remembered
  | republish exports =>
    cases taken
    exact ⟨⟨holds.follow.below, holds.follow.follow⟩,
      ⟨holds.settled.records, holds.settled.webhooks, holds.settled.workflows, holds.settled.reads,
        holds.settled.loads, holds.settled.done⟩⟩

end

theorem managementWins_of_invariant {services : HookServices} {initial : HookStores}
    {system : HookSystem} (holds : HookInvariant services initial system) :
    ManagementWins services initial system where
  records := holds.settled.records
  webhooks := holds.settled.webhooks
  workflows := holds.settled.workflows
  done := holds.settled.done
  own := by
    intro caller delivery next loaded started saved
    obtain ⟨request, asks, may⟩ := holds.settled.done caller _ _ saved
    rw [started] at asks
    cases asks
    obtain ⟨_, same, read, kept, _⟩ := may
    cases same
    have sameId : next.id = loaded.id := by
      show (core next).id = (core loaded).id
      rw [kept]
    rw [sameId]
    exact holds.settled.loads caller _ loaded read
  unauthorized := by
    intro caller delivery loaded next before middle after started refused
      split quiet
    constructor
    · rw [holds.settled.reads before caller _ _ _ split]
      apply cellAfter_append_of_keeps
      intro entry member
      rcases List.mem_cons.mp member with read | later
      · rw [read]
        rfl
      · exact quiet entry later
    · have saved : ⟨caller, .saveWebhook next (some loaded), .ok ()⟩ ∈ system.history := by
        rw [split]
        simp
      obtain ⟨request, asks, may⟩ := holds.settled.done caller _ _ saved
      rw [started] at asks
      cases asks
      obtain ⟨_, same, _, _, refuses⟩ := may
      cases same
      exact refuses refused

/-- In a run in which every delivery that saves its webhook finds it as it was
loaded, registering and removing decide what is registered, and deliveries
keep its books. -/
theorem management_wins {services : HookServices} {cronError : Text → Option ServiceError}
    {initial : HookStores} {acts : List HookAct} {system : HookSystem}
    (meets : StepsMeet (hookStep services cronError)
      (fun system act => findsLoaded system act = true)
      (noHookCalls initial) acts)
    (executed : runFrom (hookStep services cronError) (noHookCalls initial) acts = some system) :
    ManagementWins services initial system := by
  apply managementWins_of_invariant
  exact invariant_of_stepsMeet (HookInvariant services initial)
    (fun _ _ _ holds finds taken => hookInvariant_hookStep holds finds taken)
    (hookInvariant_idle services initial) meets executed

/-- `hmac` is not asked for in what follows, and the bodies have no
fields. -/
def sampleServices : HookServices where
  hmac _ _ _ := []
  toLowerCase text := text
  textFields _ := []

def annCalls (now : Nat) : CallSurroundings where
  userId := "ann".toList
  mintedToken := "t0".toList
  now := now

def pushesArgs : RegisterWebhookArgs where
  id := some "pushes".toList
  provider := some "github".toList
  description := none
  level := none
  events := []
  workflows := ["digest".toList]
  signature := .absent

def digestArgs : RegisterWorkflowArgs where
  name := some "digest".toList
  script := none
  scriptPath := some "digest.js".toList
  description := none
  agent := .absent
  triggers := .absent
  bindings := none
  input := .absent
  output := .absent

def deliveryWith (token : Text) : HookRequest :=
  .deliver {
    target := "pushes".toList
    headers := []
    queryToken := some token
    body := "\x7b\x7d".toList
    now := 5 }

def nothingRegistered : HookStores where
  webhooks := Keyed.empty
  workflows := Keyed.empty
  exports := []

def advances (position count : Nat) : List HookAct :=
  List.replicate count (.advance position (.proceeds ⟨"r1".toList, .succeeded⟩))

def registeringRun : List HookAct :=
  .start (.registerWorkflow (annCalls 1) digestArgs) :: advances 0 3 ++
    .start (.registerWebhook (annCalls 2) false pushesArgs) :: advances 1 3

/-- Then come two deliveries at once, of which one has the token, and the
webhook is registered again. -/
def deliveringRun : List HookAct :=
  registeringRun ++ [.start (deliveryWith "t0".toList)] ++ advances 2 1 ++
    .start (deliveryWith "t1".toList) :: advances 3 1 ++ advances 2 3 ++ advances 3 1 ++
        .start (.registerWebhook (annCalls 9) false pushesArgs) :: advances 4 3

theorem management_wins_deliveringRun :
    ∃ system, runFrom (hookStep sampleServices fun _ => none)
          (noHookCalls nothingRegistered) deliveringRun = some system ∧
        (system.shared.webhooks.find? "pushes".toList).map WebhookRegistration.updatedAt = some 9 ∧
          ManagementWins sampleServices nothingRegistered system := by
  have executed : (runFrom (hookStep sampleServices fun _ => none)
      (noHookCalls nothingRegistered) deliveringRun).map (fun system =>
        (system.shared.webhooks.find? "pushes".toList).map
          WebhookRegistration.updatedAt) = some (some 9) := by
    decide +kernel
  obtain ⟨system, reached, updated⟩ := Option.map_eq_some_iff.mp executed
  exact ⟨system, reached, updated, management_wins (by decide +kernel) reached⟩

def rejectedRun : List HookAct :=
  registeringRun ++ .start (deliveryWith "t1".toList) :: advances 2 2

/-- The webhook is removed while a delivery runs its workflow. -/
def removedRun : List HookAct :=
  registeringRun ++ .start (deliveryWith "t0".toList) :: advances 2 3 ++
    .start (.removeWebhook false (some "pushes".toList)) :: advances 3 1 ++ advances 2 1

/-- A delivery that is not authorized does change the webhook, and a removed
webhook comes back. -/
theorem delivery_wins :
    (¬∀ before after, runFrom (hookStep sampleServices fun _ => none)
          (noHookCalls nothingRegistered) registeringRun = some before →
        runFrom (hookStep sampleServices fun _ => none)
            (noHookCalls nothingRegistered) rejectedRun = some after →
          after.shared.webhooks.find? "pushes".toList =
            before.shared.webhooks.find? "pushes".toList) ∧
      ¬∀ after, runFrom (hookStep sampleServices fun _ => none)
            (noHookCalls nothingRegistered) removedRun = some after →
          after.shared.webhooks.find? "pushes".toList = none := by
  let seen := fun system : HookSystem => system.shared.webhooks.find? "pushes".toList
  constructor
  · intro unchanged
    have first : ((runFrom (hookStep sampleServices fun _ => none)
        (noHookCalls nothingRegistered) registeringRun).map seen).map
          (Option.map WebhookRegistration.lastError) =
        some (some none) := by
      decide +kernel
    have second : ((runFrom (hookStep sampleServices fun _ => none)
        (noHookCalls nothingRegistered) rejectedRun).map seen).map
          (Option.map WebhookRegistration.lastError) =
        some (some (some "unauthorized delivery rejected".toList)) := by
      decide +kernel
    simp only [Option.map_map, Option.map_eq_some_iff] at first second
    obtain ⟨before, reached, fresh⟩ := first
    obtain ⟨after, later, marked⟩ := second
    have same : seen after = seen before := unchanged before after reached later
    simp only [Function.comp_apply] at fresh marked
    rw [same, fresh] at marked
    cases marked
  · intro removed
    have executed : (runFrom (hookStep sampleServices fun _ => none)
        (noHookCalls nothingRegistered) removedRun).map
          (fun system => (seen system).isSome) = some true := by
      decide +kernel
    obtain ⟨after, reached, stored⟩ := Option.map_eq_some_iff.mp executed
    have gone : seen after = none := removed after reached
    rw [gone] at stored
    cases stored

end Aprovan.Webhooks
