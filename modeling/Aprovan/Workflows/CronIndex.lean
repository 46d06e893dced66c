import Aprovan.Webhooks.TriggeredRuns

/-!
# The index of the workspaces with cron workflows

The scheduler visits the workspaces that one document lists.  Every call that
registers or removes a workflow reads the registrations of its workspace one by
one, reads the document, and writes it whole if it has to change.
-/

namespace Aprovan.Workflows

open Aprovan.Library Aprovan.Server
open Aprovan.Webhooks (hasCron)

structure WorkflowRow where
  workspaceId : Text
  workflow : StoredWorkflow

def WorkflowRow.name (row : WorkflowRow) : Text × Text :=
  (row.workspaceId, row.workflow.name)

structure WorkflowExport where
  (workspaceId appId workflow : Text)

structure CronStores where
  workflows : Keyed WorkflowRow.name
  /-- The document `cron-workspaces` of the workspace `_system`. -/
  index : List Text
  exports : List WorkflowExport

namespace CronStores

def workflowsOf (stores : CronStores) (workspaceId : Text) : List StoredWorkflow :=
  (stores.workflows.rows.filter (·.workspaceId = workspaceId)).map WorkflowRow.workflow

def hasCronWorkflow (stores : CronStores) (workspaceId : Text) : Bool :=
  (stores.workflowsOf workspaceId).any hasCron

def lists (stores : CronStores) (workspaceId : Text) : Bool :=
  workspaceId ∈ stores.index

end CronStores

inductive CronStatement where
  | readWorkflow (workspaceId name : Text)
  | saveWorkflow (workspaceId : Text) (next : StoredWorkflow)
  | removeWorkflow (workspaceId name : Text)
  | removeRuns (workspaceId name : Text)
  | exportedBy (workspaceId name : Text)
  | listWorkflows (workspaceId : Text)
  | readIndex
  | writeIndex (next : List Text)

abbrev CronStatement.Answer : CronStatement → Type
  | .readWorkflow _ _ => Option StoredWorkflow
  | .removeWorkflow _ _ => Bool
  | .exportedBy _ _ => List Text
  | .listWorkflows _ => List Text
  | .readIndex => List Text
  | _ => Unit

inductive CronFailure where
  | store
  | service (error : ServiceError)

inductive CronChoice where
  | refuses
  | proceeds

/-- What a statement does that is not refused. Run records are kept
elsewhere. -/
def performCron : (statement : CronStatement) → CronStores → statement.Answer × CronStores
  | .readWorkflow workspaceId name, stores =>
    ((stores.workflows.find? (workspaceId, name)).map WorkflowRow.workflow, stores)
  | .saveWorkflow workspaceId next, stores =>
    ((), { stores with
      workflows := stores.workflows.put ⟨workspaceId, next⟩ })
  | .removeWorkflow workspaceId name, stores =>
    ((stores.workflows.find? (workspaceId, name)).isSome,
      { stores with
        workflows := stores.workflows.erase (workspaceId, name) })
  | .removeRuns _ _, stores => ((), stores)
  | .exportedBy workspaceId name, stores =>
    ((stores.exports.filter fun exported =>
      exported.workspaceId = workspaceId &&
        exported.workflow = name).map WorkflowExport.appId, stores)
  | .listWorkflows workspaceId, stores =>
    (sortTexts ((stores.workflowsOf workspaceId).map StoredWorkflow.name), stores)
  | .readIndex, stores => (stores.index, stores)
  | .writeIndex next, stores => ((), { stores with index := next })

def executeCron (choice : CronChoice) (statement : CronStatement) (stores : CronStores) :
    Except CronFailure statement.Answer × CronStores :=
  match choice with
  | .refuses => (.error .store, stores)
  | .proceeds =>
    let performed := performCron statement stores
    (.ok performed.1, performed.2)

abbrev CronCall := Process CronStatement.Answer CronFailure

def askCron (statement : CronStatement) : CronCall statement.Answer :=
  Process.perform statement

def cronOutcome {Value : Type} : Outcome Value → CronCall Value
  | .ok value => pure value
  | .error error => Process.raise (.service error)

variable (workspaceId : Text)

/-- One round of `listSvcRecords`. -/
def readListed (entries : List StoredWorkflow) (name : Text) : CronCall (List StoredWorkflow) := do
  match ← askCron (.readWorkflow workspaceId name) with
  | none => pure entries
  | some workflow => pure (entries ++ [workflow])

def listRegistrations : CronCall (List StoredWorkflow) := do
  let names ← askCron (.listWorkflows workspaceId)
  names.foldlM (readListed workspaceId) []

/-- `workspacesWithCronWorkflows`: a refused read is read as empty. -/
def workspacesWithCronWorkflows : CronCall (List Text) :=
  (askCron .readIndex).rescue fun _ => pure []

/-- The document with the workspace put in, or taken out. -/
def nextIndex (found : Bool) (workspaces : List Text) : List Text :=
  if found then workspaces ++ [workspaceId] else workspaces.filter (· ≠ workspaceId)

def updateCronIndex : CronCall PUnit := do
  let registrations ← listRegistrations workspaceId
  let found := registrations.any hasCron
  let workspaces ← workspacesWithCronWorkflows
  if found = decide (workspaceId ∈ workspaces) then pure PUnit.unit
  else
    askCron (.writeIndex (nextIndex workspaceId found workspaces))
    pure PUnit.unit

inductive CronReply where
  | registered (registration : StoredWorkflow)
  | removed (name : Text) (removed : Bool)

/-- `workflows.register`. -/
def registerIn (cronError : Text → Option ServiceError) (workspaceId : Text)
    (caller : CallSurroundings) (args : RegisterWorkflowArgs) :
    CronCall CronReply := do
  let checked ← cronOutcome (checkedWorkflow args)
  let existing ← askCron (.readWorkflow workspaceId checked.1)
  let given ← cronOutcome (givenFields cronError args)
  let registration := registeredWorkflow caller args checked given existing
  askCron (.saveWorkflow workspaceId registration)
  updateCronIndex workspaceId
  pure (.registered registration)

/-- `workflows.remove`. -/
def removeIn (caller : CallSurroundings) (rawName : Option Text) : CronCall CronReply := do
  let name ← cronOutcome (givenWorkflowName rawName)
  match ← askCron (.readWorkflow workspaceId name) with
  | none => Process.raise (.service (unknownWorkflow name))
  | some registration =>
    let exportedBy ← askCron (.exportedBy workspaceId name)
    if storedVisibleTo registration caller.userId exportedBy then
      let removed ← askCron (.removeWorkflow workspaceId name)
      askCron (.removeRuns workspaceId name)
      updateCronIndex workspaceId
      pure (.removed name removed)
    else Process.raise (.service (unknownWorkflow name))

/-- The registrations that a tick of the scheduler looks at. -/
def scheduledAt (stores : CronStores) : List (Text × StoredWorkflow) :=
  stores.index.flatMap fun workspaceId =>
    ((stores.workflowsOf workspaceId).filter hasCron).map fun workflow => (workspaceId, workflow)

inductive CronCallKind where
  | register (args : RegisterWorkflowArgs)
  | remove (name : Option Text)

structure CronRequest where
  workspaceId : Text
  caller : CallSurroundings
  kind : CronCallKind

def serveCron (cronError : Text → Option ServiceError) (request : CronRequest) :
    CronCall CronReply :=
  match request.kind with
  | .register args => registerIn cronError request.workspaceId request.caller args
  | .remove name => removeIn request.workspaceId request.caller name

abbrev CronSystem :=
  Concurrent CronStores CronRequest CronStatement.Answer CronFailure CronReply

inductive CronAct where
  | start (request : CronRequest)
  | advance (position : Nat) (choice : CronChoice)
  /-- Apps are published and removed. -/
  | republish (exports : List WorkflowExport)

def cronStep (cronError : Text → Option ServiceError) (system : CronSystem) :
    CronAct → Option CronSystem
  | .start request => some (system.start request (serveCron cronError request))
  | .advance position choice => system.advance executeCron position choice
  | .republish exports => some { system with shared := { system.shared with exports := exports } }

def noCronCalls : CronSystem :=
  ⟨⟨Keyed.empty, [], []⟩, [], []⟩

/-- Once all calls have ended, the document lists the workspaces that have a
cron workflow, and the scheduler looks at each of these. -/
structure CronIndexComplete (stores : CronStores) : Prop where
  listed : ∀ workspaceId, workspaceId ∈ stores.index ↔ ∃ row ∈ stores.workflows.rows,
      row.workspaceId = workspaceId ∧ hasCron row.workflow = true
  scheduled : ∀ row ∈ stores.workflows.rows, hasCron row.workflow = true →
    (row.workspaceId, row.workflow) ∈ scheduledAt stores

def allEnded (system : CronSystem) : Prop :=
  ∀ call ∈ system.calls, ∃ outcome, call.process = .done outcome

/-- What a call remembers of its answers. -/
inductive CronPhase where
  /-- The registrations are not changed yet. -/
  | preparing
  /-- They are changed; a cron trigger was found among them so far. -/
  | updating (found : Bool)
  /-- The document was read. -/
  | decided (found : Bool) (workspaces : List Text)
  /-- It was written, or the call has failed. -/
  | concluded

def CronPhase.remember (phase : CronPhase) (statement : CronStatement)
    (answer : Except CronFailure statement.Answer) : CronPhase :=
  match phase, statement, answer with
  | .preparing, .saveWorkflow _ _, .ok _ => .updating false
  | .preparing, .removeWorkflow _ _, .ok _ => .updating false
  | .updating found, .readIndex, .ok workspaces => .decided found workspaces
  | .updating found, .readIndex, .error _ => .decided found []
  | .updating found, .readWorkflow _ _, .ok (some workflow) =>
    .updating (found || hasCron workflow)
  | .updating _, _, .error _ => .concluded
  | .decided _ _, .writeIndex _, _ => .concluded
  | phase, _, _ => phase

def CronPhase.admits : CronPhase → CronStatement → Prop
  | .preparing, .saveWorkflow changed _ => changed = workspaceId
  | .preparing, .removeWorkflow changed _ => changed = workspaceId
  | .preparing, .writeIndex _ => False
  | .preparing, .readIndex => False
  | .preparing, _ => True
  | .updating _, .saveWorkflow _ _ => False
  | .updating _, .removeWorkflow _ _ => False
  | .updating _, .writeIndex _ => False
  | .updating _, _ => True
  | .decided found workspaces, .writeIndex next =>
    decide (workspaceId ∈ workspaces) ≠ found ∧ next = nextIndex workspaceId found workspaces
  | _, _ => False

/-- The call still has to bring the document up to date. -/
def CronPhase.isPending : CronPhase → Bool
  | .updating _ => true
  | .decided found workspaces => decide (workspaceId ∈ workspaces) ≠ found
  | _ => false

def cronDiscipline : Discipline CronStatement.Answer CronFailure CronPhase where
  admits := CronPhase.admits workspaceId
  possible _ _ _ := True
  remember := CronPhase.remember

/-- A call that still has something to do has not ended. -/
def cronEnds {Value : Type} (workspaceId : Text) (phase : CronPhase)
    (_ : Except CronFailure Value) : Prop :=
  phase.isPending workspaceId = false

def phaseAt (system : CronSystem) (position : Nat) : CronPhase :=
  memoryOf (cronDiscipline []) .preparing system.history position

/-- The call at a position still has to bring the document up to date for a
workspace. -/
def pendingAt (system : CronSystem) (workspaceId : Text) (position : Nat) : Bool :=
  (system.requestAt position).any fun request =>
    request.workspaceId = workspaceId && (phaseAt system position).isPending workspaceId

/-- The document is right about a workspace. -/
def settled (stores : CronStores) (workspaceId : Text) : Bool :=
  stores.lists workspaceId = stores.hasCronWorkflow workspaceId

/-- Two lists have the same members, one workspace aside. -/
def sameOthers (first second : List Text) : Bool :=
  (first.all fun other => other = workspaceId || other ∈ second) &&
    second.all fun other => other = workspaceId || other ∈ first

def othersPending (system : CronSystem) (workspaceId : Text) (position : Nat) : Bool :=
  (List.range system.calls.length).any fun other =>
    other ≠ position && pendingAt system workspaceId other

/-- What the call has found of the registrations is still so. -/
def findsCurrent (stores : CronStores) (workspaceId : Text) (found : Bool) : Bool :=
  found = stores.hasCronWorkflow workspaceId

/-- The last statement of a call, in a phase of it: the document that it
writes still has the other workspaces that it had when it was read, and the
last call of a workspace that concludes has found what is so. -/
def concludesCurrent (stores : CronStores) (workspaceId : Text) (others : Bool)
    (phase : CronPhase) (choice : CronChoice) (statement : CronStatement) : Bool :=
  match phase, statement, choice with
  | .updating found, .readIndex, .proceeds =>
    stores.lists workspaceId ≠ found || others || findsCurrent stores workspaceId found
  | .updating found, .readIndex, .refuses => found || others || settled stores workspaceId
  | .decided found workspaces, .writeIndex _, .proceeds =>
    sameOthers workspaceId workspaces stores.index &&
      (others || findsCurrent stores workspaceId found)
  | .updating _, _, .refuses => others || settled stores workspaceId
  | .decided _ _, _, .refuses => others || settled stores workspaceId
  | _, _, _ => true

def updatesFromCurrent (system : CronSystem) : CronAct → Bool
  | .advance position choice =>
    match system.requestAt position, system.awaiting position with
    | some request, some statement =>
      concludesCurrent system.shared request.workspaceId
        (othersPending system request.workspaceId position)
        (phaseAt system position) choice statement
    | _, _ => true
  | _ => true

section

variable {workspaceId : Text} {Value : Type} {phase : CronPhase}

/-- Statements that change nothing, before the registrations are changed. -/
def isPreparatory : CronStatement → Prop
  | .readWorkflow _ _ => True
  | .exportedBy _ _ => True
  | _ => False

theorem follows_preparatory {statement : CronStatement}
    {next : statement.Answer → CronCall Value} (preparatory : isPreparatory statement)
    (after : ∀ answer, Follows (cronDiscipline workspaceId)
      (cronEnds workspaceId) .preparing (next answer)) :
    Follows (cronDiscipline workspaceId) (cronEnds workspaceId) .preparing
      (askCron statement >>= next) := by
  apply follows_bind
  cases statement with
  | readWorkflow asked name =>
    refine ⟨trivial, ?_⟩
    intro answer _
    cases answer with
    | ok found => exact after found
    | error thrown => rfl
  | exportedBy asked name =>
    refine ⟨trivial, ?_⟩
    intro answer _
    cases answer with
    | ok found => exact after found
    | error thrown => rfl
  | _ => exact preparatory.elim

theorem follows_cronOutcome {Result : Type} {outcome : Outcome Value}
    {next : Value → CronCall Result}
    (after : ∀ value, Follows (cronDiscipline workspaceId)
      (cronEnds workspaceId) .preparing (next value)) :
    Follows (cronDiscipline workspaceId) (cronEnds workspaceId) .preparing
      (cronOutcome outcome >>= next) := by
  cases outcome with
  | ok value => exact after value
  | error error => rfl

/-- What holds after the registrations were read: the call has remembered
whether there was a cron trigger, or it has failed. -/
def remembersFound (phase : CronPhase) : Except CronFailure (List StoredWorkflow) → Prop
  | .ok entries => phase = .updating (entries.any hasCron)
  | .error _ => phase = .concluded

theorem follows_readListed (entries : List StoredWorkflow) (name : Text)
    (before : remembersFound phase (.ok entries)) :
    Follows (cronDiscipline workspaceId) remembersFound phase
      (readListed workspaceId entries name) := by
  have same : phase = .updating (entries.any hasCron) := before
  rw [same]
  refine ⟨trivial, ?_⟩
  intro answer _
  cases answer with
  | error thrown => rfl
  | ok found =>
    cases found with
    | none => rfl
    | some workflow =>
      show remembersFound _ (.ok (entries ++ [workflow]))
      rw [remembersFound, List.any_append, List.any_cons, List.any_nil, Bool.or_false]
      rfl

theorem follows_listRegistrations :
    Follows (cronDiscipline workspaceId) remembersFound (.updating false)
      (listRegistrations workspaceId) := by
  apply follows_bind
  refine ⟨trivial, ?_⟩
  intro answer _
  cases answer with
  | error thrown => rfl
  | ok names =>
    refine follows_foldlM ?_ names [] _ rfl
    intro entries name phase before
    exact follows_readListed entries name before

theorem follows_decided (found : Bool) (workspaces : List Text) :
    Follows (cronDiscipline workspaceId) (cronEnds workspaceId) (.decided found workspaces)
      (if found = decide (workspaceId ∈ workspaces) then pure PUnit.unit
      else do
        askCron (.writeIndex (nextIndex workspaceId found workspaces))
        pure PUnit.unit) := by
  by_cases already : found = decide (workspaceId ∈ workspaces)
  · rw [if_pos already]
    show CronPhase.isPending workspaceId (.decided found workspaces) = false
    simp [CronPhase.isPending, already]
  · rw [if_neg already]
    refine ⟨⟨Ne.symm already, rfl⟩, ?_⟩
    intro answer _
    cases answer with
    | ok written => rfl
    | error thrown => rfl

theorem follows_updateCronIndex :
    Follows (cronDiscipline workspaceId) (cronEnds workspaceId)
      (.updating false) (updateCronIndex workspaceId) := by
  refine follows_then follows_listRegistrations ?_ ?_
  · intro phase thrown remembered
    have same : phase = .concluded := remembered
    rw [same]
    rfl
  · intro phase registrations remembered
    have same : phase = .updating (registrations.any hasCron) := remembered
    rw [same]
    refine follows_await trivial (fun _ _ => follows_decided _ []) ?_
    intro workspaces _
    exact follows_decided _ workspaces

theorem follows_update_then {value : Value} :
    Follows (cronDiscipline workspaceId) (cronEnds workspaceId) (.updating false)
      (do
        updateCronIndex workspaceId
        pure value) := by
  refine follows_then follows_updateCronIndex (fun _ _ ended => ended) ?_
  intro phase done ended
  exact ended

theorem follows_registerIn (cronError : Text → Option ServiceError)
    (caller : CallSurroundings) (args : RegisterWorkflowArgs) :
    Follows (cronDiscipline workspaceId) (cronEnds workspaceId) .preparing
      (registerIn cronError workspaceId caller args) := by
  apply follows_cronOutcome
  intro checked
  refine follows_preparatory trivial ?_
  intro existing
  apply follows_cronOutcome
  intro given
  refine ⟨rfl, ?_⟩
  intro answer _
  cases answer with
  | ok saved => exact follows_update_then
  | error thrown => rfl

theorem follows_removeIn (caller : CallSurroundings) (rawName : Option Text) :
    Follows (cronDiscipline workspaceId) (cronEnds workspaceId) .preparing
      (removeIn workspaceId caller rawName) := by
  apply follows_cronOutcome
  intro name
  refine follows_preparatory trivial ?_
  intro registration
  cases registration with
  | none => rfl
  | some registration =>
    refine follows_preparatory trivial ?_
    intro exportedBy
    split
    · refine ⟨rfl, ?_⟩
      intro answer _
      cases answer with
      | error thrown => rfl
      | ok removed =>
        refine ⟨trivial, ?_⟩
        intro answer _
        cases answer with
        | error thrown => rfl
        | ok cleared => exact follows_update_then
    · rfl

theorem follows_serveCron (cronError : Text → Option ServiceError) (request : CronRequest) :
    Follows (cronDiscipline request.workspaceId) (cronEnds request.workspaceId) .preparing
      (serveCron cronError request) := by
  obtain ⟨workspaceId, caller, kind⟩ := request
  cases kind with
  | register args => exact follows_registerIn cronError caller args
  | remove name => exact follows_removeIn caller name

end

section

variable {stores : CronStores} {workspaceId other : Text} {phase : CronPhase}
  {choice : CronChoice} {statement : CronStatement}

/-- The registrations that decide about a workspace. -/
theorem hasCronWorkflow_eq_true_iff :
    stores.hasCronWorkflow workspaceId = true ↔ ∃ row ∈ stores.workflows.rows,
        row.workspaceId = workspaceId ∧ hasCron row.workflow = true := by
  simp only [CronStores.hasCronWorkflow, CronStores.workflowsOf,
    List.any_map, List.any_filter, List.any_eq_true, Function.comp_apply,
    Bool.and_eq_true, decide_eq_true_eq]

variable {after : CronStores}

theorem hasCronWorkflow_congr {before : CronStores}
    (same : ∀ row : WorkflowRow, row.workspaceId = workspaceId →
      (row ∈ before.workflows.rows ↔ row ∈ after.workflows.rows)) :
    before.hasCronWorkflow workspaceId = after.hasCronWorkflow workspaceId := by
  rw [Bool.eq_iff_iff, hasCronWorkflow_eq_true_iff, hasCronWorkflow_eq_true_iff]
  constructor
  · intro found
    obtain ⟨row, member, own, cron⟩ := found
    exact ⟨row, (same row own).mp member, own, cron⟩
  · intro found
    obtain ⟨row, member, own, cron⟩ := found
    exact ⟨row, (same row own).mpr member, own, cron⟩

variable {workspaces : List Text} {found : Bool}

theorem mem_nextIndex_of_ne (different : other ≠ workspaceId) :
    other ∈ nextIndex workspaceId found workspaces ↔ other ∈ workspaces := by
  cases found with
  | true => simp [nextIndex, different]
  | false => simp [nextIndex, different]

theorem mem_nextIndex_self :
    workspaceId ∈ nextIndex workspaceId found workspaces ↔ found = true := by
  cases found with
  | true => simp [nextIndex]
  | false => simp [nextIndex]

theorem mem_iff_of_sameOthers {first second : List Text}
    (same : sameOthers workspaceId first second = true) (different : other ≠ workspaceId) :
    other ∈ first ↔ other ∈ second := by
  simp only [sameOthers, Bool.and_eq_true, List.all_eq_true,
    Bool.or_eq_true, decide_eq_true_eq] at same
  constructor
  · intro member
    exact (same.1 other member).resolve_left different
  · intro member
    exact (same.2 other member).resolve_left different

theorem settled_congr {before : CronStores}
    (index : workspaceId ∈ before.index ↔ workspaceId ∈ after.index)
    (cron : before.hasCronWorkflow workspaceId = after.hasCronWorkflow workspaceId) :
    settled before workspaceId = settled after workspaceId := by
  rw [settled, settled, CronStores.lists, CronStores.lists, decide_eq_decide.mpr index, cron]

/-- What a call does changes nothing for another workspace. -/
theorem settled_execute_other {others : Bool} (admitted : phase.admits workspaceId statement)
    (current : concludesCurrent stores workspaceId others phase choice statement = true)
    (different : other ≠ workspaceId) :
    settled (executeCron choice statement stores).2 other = settled stores other := by
  cases choice with
  | refuses => rfl
  | proceeds =>
    cases statement with
    | saveWorkflow changed next =>
      have own : changed = workspaceId := by
        cases phase with
        | preparing => exact admitted
        | _ => exact admitted.elim
      refine settled_congr Iff.rfl (hasCronWorkflow_congr ?_)
      intro row elsewhere
      show row ∈ (stores.workflows.put ⟨changed, next⟩).rows ↔ row ∈ stores.workflows.rows
      rw [Keyed.mem_rows_put]
      constructor
      · intro held
        rcases held with new | old
        · rw [new] at elsewhere
          exact absurd (elsewhere.symm.trans own) different
        · exact old.1
      · intro held
        refine Or.inr ⟨held, ?_⟩
        intro same
        have workspaces : row.workspaceId = changed := (Prod.mk.inj same).1
        exact different (elsewhere.symm.trans (workspaces.trans own))
    | removeWorkflow changed name =>
      have own : changed = workspaceId := by
        cases phase with
        | preparing => exact admitted
        | _ => exact admitted.elim
      refine settled_congr Iff.rfl (hasCronWorkflow_congr ?_)
      intro row elsewhere
      show row ∈ (stores.workflows.erase (changed, name)).rows ↔ row ∈ stores.workflows.rows
      rw [Keyed.mem_rows_erase]
      refine and_iff_left ?_
      intro same
      have workspaces : row.workspaceId = changed := (Prod.mk.inj same).1
      exact different (elsewhere.symm.trans (workspaces.trans own))
    | writeIndex next =>
      cases phase with
      | decided found workspaces =>
        have same := (Bool.and_eq_true_iff.mp current).1
        refine settled_congr ?_ rfl
        show other ∈ next ↔ other ∈ stores.index
        rw [admitted.2, mem_nextIndex_of_ne different]
        exact mem_iff_of_sameOthers same different
      | _ => exact admitted.elim
    | _ => rfl

theorem settled_of_found (listed : stores.lists workspaceId = found)
    (current : findsCurrent stores workspaceId found = true) :
    settled stores workspaceId = true := by
  have same : found = stores.hasCronWorkflow workspaceId := of_decide_eq_true current
  rw [settled, listed, same]
  exact decide_eq_true rfl

theorem settled_execute_write {next : List Text}
    (written : next = nextIndex workspaceId found workspaces)
    (current : findsCurrent stores workspaceId found = true) :
    settled (executeCron .proceeds (.writeIndex next) stores).2 workspaceId = true := by
  have listed : (executeCron .proceeds (.writeIndex next) stores).2.lists workspaceId = found := by
    show decide (workspaceId ∈ next) = found
    rw [written, Bool.eq_iff_iff, decide_eq_true_iff, mem_nextIndex_self]
  exact settled_of_found listed current

/-- After its statement a call still has something to do, or another call
has, or the document is right about its workspace, or as right as before. -/
inductive OwnAfter (stores after : CronStores) (workspaceId : Text)
    (others : Bool) (phase afterwards : CronPhase) : Prop where
  | pending (still : afterwards.isPending workspaceId = true)
  | others (waiting : others = true)
  | settled (right : settled after workspaceId = true)
  | unchanged (idle : phase.isPending workspaceId = false)
      (same : Workflows.settled after workspaceId = Workflows.settled stores workspaceId)

theorem ownAfter_of_others_or_settled {others : Bool} {afterwards : CronPhase}
    (either : (others || settled after workspaceId) = true) :
    OwnAfter stores after workspaceId others phase afterwards := by
  rcases Bool.or_eq_true_iff.mp either with waiting | right
  · exact .others waiting
  · exact .settled right

theorem ownAfter_execute {others : Bool} (admitted : phase.admits workspaceId statement)
    (current : concludesCurrent stores workspaceId others phase choice statement = true) :
    OwnAfter stores (executeCron choice statement stores).2 workspaceId others phase
      (phase.remember statement (executeCron choice statement stores).1) := by
  cases phase with
  | preparing =>
    cases choice with
    | refuses => exact .unchanged rfl rfl
    | proceeds =>
      cases statement with
      | saveWorkflow changed next => exact .pending rfl
      | removeWorkflow changed name => exact .pending rfl
      | writeIndex next => exact admitted.elim
      | readIndex => exact admitted.elim
      | _ => exact .unchanged rfl rfl
  | updating found =>
    cases choice with
    | refuses =>
      cases statement with
      | readIndex =>
        cases found with
        | true => exact .pending rfl
        | false => exact ownAfter_of_others_or_settled current
      | saveWorkflow changed next => exact admitted.elim
      | removeWorkflow changed name => exact admitted.elim
      | writeIndex next => exact admitted.elim
      | _ => exact ownAfter_of_others_or_settled current
    | proceeds =>
      cases statement with
      | readIndex =>
        by_cases listed : stores.lists workspaceId = found
        · have either : (others || findsCurrent stores workspaceId found) = true := by
            simpa [concludesCurrent, listed] using current
          rcases Bool.or_eq_true_iff.mp either with waiting | right
          · exact .others waiting
          · exact .settled (settled_of_found listed right)
        · exact .pending (decide_eq_true listed)
      | readWorkflow asked name =>
        apply OwnAfter.pending
        cases held : (stores.workflows.find? (asked, name)).map WorkflowRow.workflow with
        | none =>
          simp only [executeCron, performCron, held]
          rfl
        | some workflow =>
          simp only [executeCron, performCron, held]
          rfl
      | saveWorkflow changed next => exact admitted.elim
      | removeWorkflow changed name => exact admitted.elim
      | writeIndex next => exact admitted.elim
      | _ => exact .pending rfl
  | decided found workspaces =>
    cases statement with
    | writeIndex next =>
      cases choice with
      | refuses => exact ownAfter_of_others_or_settled current
      | proceeds =>
        have either := (Bool.and_eq_true_iff.mp current).2
        rcases Bool.or_eq_true_iff.mp either with waiting | right
        · exact .others waiting
        · exact .settled (settled_execute_write admitted.2 right)
    | _ => exact admitted.elim
  | concluded => exact admitted.elim

end

/-- What the runs keep: every call follows the phases, and the document is
right about a workspace, or a call has still to bring it up to date. -/
structure CronInvariant (system : CronSystem) : Prop where
  follow : AllFollow (fun request : CronRequest => cronDiscipline request.workspaceId)
    .preparing (fun request => cronEnds request.workspaceId) system
  settledOrPending : ∀ workspaceId, settled system.shared workspaceId = true ∨
      ∃ position, pendingAt system workspaceId position = true

section

variable {system after : CronSystem} {request : CronRequest}
  {position other : Nat} {workspaceId : Text}
  {cronError : Text → Option ServiceError}

theorem pendingAt_inside (pending : pendingAt system workspaceId position = true) :
    position < system.calls.length := by
  unfold pendingAt Concurrent.requestAt at pending
  cases found : system.calls[position]? with
  | none =>
    rw [found] at pending
    cases pending
  | some call => exact (List.getElem?_eq_some_iff.mp found).1

theorem pendingAt_start (process : CronCall CronReply)
    (pending : pendingAt system workspaceId position = true) :
    pendingAt (system.start request process) workspaceId position = true := by
  have inside := pendingAt_inside pending
  rw [pendingAt, requestAt_start inside]
  exact pending

theorem cronInvariant_start (before : CronInvariant system) :
    CronInvariant (system.start request (serveCron cronError request)) := by
  refine ⟨follows_start before.follow (follows_serveCron cronError request), ?_⟩
  intro workspaceId
  rcases before.settledOrPending workspaceId with right | pending
  · exact Or.inl right
  · obtain ⟨position, waiting⟩ := pending
    exact Or.inr ⟨position, pendingAt_start _ waiting⟩

section

variable {statement : CronStatement}
  {resume : Except CronFailure statement.Answer → CronCall CronReply}
  {outcome : Except CronFailure statement.Answer × CronStores}

section

variable (found : system.Awaits position request statement resume)

include found

theorem pendingAt_answered_other (different : other ≠ position) :
    pendingAt (system.answered position request statement resume outcome)
      workspaceId other = pendingAt system workspaceId other := by
  unfold pendingAt phaseAt
  rw [requestAt_answered found other]
  simp only [Concurrent.answered, memoryOf_append_other _ _ _ _ _ (Ne.symm different)]

theorem pendingAt_answered_self :
    pendingAt (system.answered position request statement resume outcome) workspaceId position =
      (decide (request.workspaceId = workspaceId) &&
        ((phaseAt system position).remember statement outcome.1).isPending workspaceId) := by
  have phase : phaseAt (system.answered position request statement resume outcome) position =
        (phaseAt system position).remember statement outcome.1 :=
    memoryOf_append_own _ _ _ _ _ _
  rw [pendingAt, phase, requestAt_answered found, Concurrent.requestAt, found]
  rfl

theorem ne_of_pendingAt (pending : pendingAt system workspaceId other = true)
    (idle : request.workspaceId ≠ workspaceId ∨
      (phaseAt system position).isPending workspaceId = false) :
    other ≠ position := by
  intro same
  subst same
  rw [pendingAt, Concurrent.requestAt, found] at pending
  have both := Bool.and_eq_true_iff.mp pending
  rcases idle with elsewhere | concluded
  · exact elsewhere (of_decide_eq_true both.1)
  · rw [concluded] at both
    cases both.2

end

theorem exists_pendingAt_of_othersPending
    (others : othersPending system workspaceId position = true) :
    ∃ other, other ≠ position ∧ pendingAt system workspaceId other = true := by
  obtain ⟨other, _, both⟩ := List.any_eq_true.mp others
  rw [Bool.and_eq_true_iff, decide_eq_true_iff] at both
  exact ⟨other, both⟩

theorem cronInvariant_answered {choice : CronChoice} (before : CronInvariant system)
    (current : updatesFromCurrent system (.advance position choice) = true)
    (found : system.Awaits position request statement resume) :
    CronInvariant (system.answered position request statement resume
      (executeCron choice statement system.shared)) := by
  have admitted : (phaseAt system position).admits request.workspaceId
      statement := before.follow.admitted found
  have concludes : concludesCurrent system.shared request.workspaceId
      (othersPending system request.workspaceId position)
      (phaseAt system position) choice statement = true := by
    simpa only [updatesFromCurrent, Concurrent.requestAt,
      Concurrent.awaiting, found, Option.map_some] using current
  refine ⟨follows_answered before.follow found trivial, ?_⟩
  intro workspaceId
  have keeps : ∀ other, other ≠ position → pendingAt system workspaceId other = true →
        ∃ still, pendingAt (system.answered position request statement
          resume (executeCron choice statement system.shared)) workspaceId still = true := by
    intro other different waiting
    refine ⟨other, ?_⟩
    rw [pendingAt_answered_other found different]
    exact waiting
  by_cases own : request.workspaceId = workspaceId
  · subst own
    cases ownAfter_execute admitted concludes with
    | pending still =>
      refine Or.inr ⟨position, ?_⟩
      rw [pendingAt_answered_self found, still]
      simp
    | others waiting =>
      obtain ⟨other, different, pending⟩ :=
        exists_pendingAt_of_othersPending waiting
      exact Or.inr (keeps other different pending)
    | settled right => exact Or.inl right
    | unchanged idle same =>
      rcases before.settledOrPending request.workspaceId with right | pending
      · exact Or.inl (same.trans right)
      · obtain ⟨other, waiting⟩ := pending
        exact Or.inr (keeps other (ne_of_pendingAt found waiting (Or.inr idle)) waiting)
  · rcases before.settledOrPending workspaceId with right | pending
    · have same := settled_execute_other admitted concludes (Ne.symm own)
      exact Or.inl (same.trans right)
    · obtain ⟨other, waiting⟩ := pending
      exact Or.inr (keeps other (ne_of_pendingAt found waiting (Or.inl own)) waiting)

end

theorem cronInvariant_step {act : CronAct} (before : CronInvariant system)
    (current : updatesFromCurrent system act = true)
    (taken : cronStep cronError system act = some after) :
    CronInvariant after := by
  cases act with
  | start request =>
    cases taken
    exact cronInvariant_start before
  | advance position choice =>
    obtain ⟨request, statement, resume, found, same⟩ :=
      advance_eq_some_iff.mp taken
    rw [same]
    exact cronInvariant_answered before current found
  | republish exports =>
    cases taken
    exact ⟨⟨before.follow.below, before.follow.follow⟩, before.settledOrPending⟩

theorem cronInvariant_noCronCalls : CronInvariant noCronCalls :=
  ⟨follows_idle, fun _ => Or.inl rfl⟩

theorem settled_of_allEnded (invariant : CronInvariant system)
    (ended : allEnded system) (workspaceId : Text) :
    settled system.shared workspaceId = true := by
  rcases invariant.settledOrPending workspaceId with right | pending
  · exact right
  · obtain ⟨position, waiting⟩ := pending
    have inside := pendingAt_inside waiting
    have found : system.calls[position]? = some system.calls[position] :=
      List.getElem?_eq_getElem inside
    obtain ⟨outcome, done⟩ :=
      ended system.calls[position] (List.getElem_mem inside)
    have idle : (phaseAt system position).isPending
        system.calls[position].request.workspaceId = false := by
      have follows := invariant.follow.follow position _ found
      rw [done] at follows
      exact follows
    rw [pendingAt, Concurrent.requestAt, found] at waiting
    obtain ⟨own, still⟩ := Bool.and_eq_true_iff.mp waiting
    rw [← of_decide_eq_true own, idle] at still
    cases still

theorem cronIndexComplete_of_settled {stores : CronStores}
    (right : ∀ workspaceId, settled stores workspaceId = true) :
    CronIndexComplete stores := by
  have listed : ∀ workspaceId, workspaceId ∈ stores.index ↔ ∃ row ∈ stores.workflows.rows,
        row.workspaceId = workspaceId ∧ hasCron row.workflow = true := by
    intro workspaceId
    have same := of_decide_eq_true (right workspaceId)
    rw [← hasCronWorkflow_eq_true_iff, ← same, CronStores.lists, decide_eq_true_iff]
  refine ⟨listed, ?_⟩
  intro row member cron
  have visited := (listed row.workspaceId).mpr ⟨row, member, rfl, cron⟩
  refine List.mem_flatMap.mpr ⟨row.workspaceId, visited, ?_⟩
  refine List.mem_map.mpr ⟨row.workflow, ?_, rfl⟩
  refine List.mem_filter.mpr ⟨?_, cron⟩
  refine List.mem_map.mpr ⟨row, ?_, rfl⟩
  exact List.mem_filter.mpr ⟨member, decide_eq_true rfl⟩

end

theorem cron_index_is_complete (cronError : Text → Option ServiceError) {acts : List CronAct}
    {system : CronSystem}
    (meets : StepsMeet (cronStep cronError)
      (fun before act => updatesFromCurrent before act = true) noCronCalls
      acts) (executed : runFrom (cronStep cronError) noCronCalls acts = some system)
    (ended : allEnded system) :
    CronIndexComplete system.shared := by
  have invariant := invariant_of_stepsMeet CronInvariant
    (fun before act after holds current taken => cronInvariant_step holds current taken)
    cronInvariant_noCronCalls meets executed
  exact cronIndexComplete_of_settled (settled_of_allEnded invariant ended)

def hourlyIn (workspaceId : Text) : CronRequest where
  workspaceId := workspaceId
  caller := ⟨"alice".toList, [], 1⟩
  kind := .register {
    name := some "digest".toList
    script := none
    scriptPath := some "digest.ts".toList
    description := none
    agent := .absent
    triggers := .object ⟨some "0 * * * *".toList, false, none⟩
    bindings := none
    input := .absent
    output := .absent }

def removeDigestIn (workspaceId : Text) : CronRequest where
  workspaceId := workspaceId
  caller := ⟨"alice".toList, [], 2⟩
  kind := .remove (some "digest".toList)

/-- The statements of a call, one after the other. -/
def onward (position count : Nat) : List CronAct :=
  List.replicate count (.advance position .proceeds)

theorem allEnded_of_outcomes {system : CronSystem}
    (ended : system.calls.all (·.process.outcome?.isSome) = true) :
    allEnded system := by
  intro call member
  have finished := List.all_eq_true.mp ended call member
  obtain ⟨outcome, same⟩ := Option.isSome_iff_exists.mp finished
  exact ⟨outcome, Process.eq_done_of_outcome? same⟩

/-- Two workspaces register a cron workflow, the second while the first reads
its registrations, and the first removes it again. -/
def indexKept : List CronAct :=
  [.start (hourlyIn "ws-a".toList), .start (hourlyIn "ws-b".toList)] ++
    onward 0 4 ++ onward 1 6 ++ onward 0 2 ++ .start (removeDigestIn "ws-a".toList) :: onward 2 7

theorem cron_index_is_complete_indexKept :
    ∃ system, runFrom (cronStep fun _ => none) noCronCalls indexKept = some system ∧
        CronIndexComplete system.shared := by
  have executed :
      (runFrom (cronStep fun _ => none) noCronCalls indexKept).map
        (fun system => (system.shared.index, system.calls.all (·.process.outcome?.isSome))) =
        some (["ws-b".toList], true) := by
    decide +kernel
  obtain ⟨system, found, seen⟩ := Option.map_eq_some_iff.mp executed
  have ended := allEnded_of_outcomes (Prod.mk.inj seen).2
  exact ⟨system, found, cron_index_is_complete (fun _ => none) (by decide +kernel) found ended⟩

/-- Two workspaces register a cron workflow, and both read the document
before either of them writes it. -/
theorem workspace_is_lost_from_cron_index :
    ¬ ∀ acts system, runFrom (cronStep fun _ => none) noCronCalls acts = some system →
        allEnded system → CronIndexComplete system.shared := by
  intro always
  have executed :
      (runFrom (cronStep fun _ => none) noCronCalls ([.start (hourlyIn "ws-a".toList),
          .start (hourlyIn "ws-b".toList)] ++ onward 0 5 ++ onward 1 5 ++
            onward 0 1 ++ onward 1 1)).map
        (fun system => (system.shared.lists "ws-a".toList,
          system.shared.hasCronWorkflow "ws-a".toList,
          system.calls.all (·.process.outcome?.isSome))) =
        some (false, true, true) := by
    decide +kernel
  obtain ⟨system, found, seen⟩ := Option.map_eq_some_iff.mp executed
  obtain ⟨unlisted, rest⟩ := Prod.mk.inj seen
  obtain ⟨cron, ended⟩ := Prod.mk.inj rest
  have complete := always _ system found (allEnded_of_outcomes ended)
  have listed := (complete.listed "ws-a".toList).mpr (hasCronWorkflow_eq_true_iff.mp cron)
  rw [CronStores.lists, decide_eq_false_iff_not] at unlisted
  exact unlisted listed

end Aprovan.Workflows
