import Aprovan.Apps.Instances

/-!
# A removed participant stays out

Every writer of an instance reads the record and writes it back whole, the byte
meter of an ordinary record write among them.  Where the record that is written
over is still stored and nobody is put on its list but by the call that adds
him, a removed participant stays out.
-/

namespace Aprovan.Apps.Instances

open Aprovan.Library Aprovan.Server

inductive InstanceRequest where
  | addParticipant (workspaceId instanceId sub : Text)
  | removeParticipant (workspaceId instanceId sub : Text)
  | setInstanceCap (workspaceId instanceId : Text) (capBytes : Option Int)
  | setRecord (tenant scope key value : Text)
  | deleteRecord (tenant scope key : Text)
  | recountInstanceUsage (workspaceId instanceId : Text)
  | deleteInstance (workspaceId instanceId : Text)
  deriving DecidableEq

inductive InstanceReply where
  | record (record : MeteredInstance)
  | stored
  | deleted (found : Bool)
  | usage (bytes : Nat)

def serveInstance (backend : RecordBackend) : InstanceRequest → InstanceCall InstanceReply
  | .addParticipant workspaceId instanceId sub => do
      pure (.record (← addParticipant workspaceId instanceId sub))
  | .removeParticipant workspaceId instanceId sub => do
      pure (.record (← removeParticipant workspaceId instanceId sub))
  | .setInstanceCap workspaceId instanceId capBytes => do
      pure (.record (← setInstanceCap workspaceId instanceId capBytes))
  | .setRecord tenant scope key value => do
      setRecord backend tenant scope key value
      pure .stored
  | .deleteRecord tenant scope key => do
      pure (.deleted (← deleteRecord backend tenant scope key))
  | .recountInstanceUsage workspaceId instanceId => do
      pure (.usage (← recountInstanceUsage workspaceId instanceId))
  | .deleteInstance workspaceId instanceId => do
      deleteInstance backend workspaceId instanceId
      pure .stored

abbrev InstanceSystem :=
  Concurrent InstanceStores InstanceRequest InstanceStatement.Answer InstanceFailure InstanceReply

inductive InstanceAct where
  | start (request : InstanceRequest)
  /-- The statement that the call at a position awaits is executed. -/
  | advance (position : Nat) (refused : Bool)
  | tick (milliseconds : Nat)

def instanceStep (backend : RecordBackend) (system : InstanceSystem) :
    InstanceAct → Option InstanceSystem
  | .start request => some (system.start request (serveInstance backend request))
  | .advance position refused => system.advance executeStatement position refused
  | .tick milliseconds =>
    some { system with
      shared := { system.shared with
        clock := system.shared.clock + milliseconds } }

def noInstanceCalls (stores : InstanceStores) : InstanceSystem :=
  ⟨stores, [], []⟩

abbrev InstanceEntry := Executed InstanceStatement.Answer InstanceFailure

def AddsUser (system : InstanceSystem) (workspaceId instanceId sub : Text)
    (entry : InstanceEntry) : Prop :=
  system.requestAt entry.caller = some (.addParticipant workspaceId instanceId sub) ∧
    ∃ record, entry.statement = .writeInstance workspaceId instanceId record

structure RemovalFinal (system : InstanceSystem) : Prop where
  /-- Whoever is listed after the last statement of a removal that returned
  was added after it. -/
  staysOut : ∀ (position : Nat) workspaceId instanceId sub reply, system.calls[position]? =
        some ⟨.removeParticipant workspaceId instanceId sub, .done (.ok reply)⟩ →
      ∃ last after, LastOf system.history position last after ∧
        ∀ record, system.shared.instances workspaceId instanceId = some record →
          sub ∈ record.participants →
            ∃ later ∈ after, AddsUser system workspaceId instanceId sub later
  staysDeleted : ∀ (position : Nat) workspaceId instanceId reply, system.calls[position]? =
        some ⟨.deleteInstance workspaceId instanceId, .done (.ok reply)⟩ →
      system.shared.instances workspaceId instanceId = none

/-- A write by the call of the request would list only users that are listed
or that the call adds. -/
def BringsNobodyBack (stores : InstanceStores) (request : InstanceRequest)
    (workspaceId instanceId : Text) (record : MeteredInstance) : Prop :=
  ∃ stored ∈ stores.instances workspaceId instanceId,
    ∀ sub ∈ record.participants, sub ∈ stored.participants ∨
      request = .addParticipant workspaceId instanceId sub
  deriving Decidable

def MayAsk (stores : InstanceStores) (request : InstanceRequest) : Option InstanceStatement → Prop
  | some (.writeInstance workspaceId instanceId record) =>
    BringsNobodyBack stores request workspaceId instanceId record
  | _ => True

/-- The condition on the execution of one statement. -/
def InstanceCondition (system : InstanceSystem) : InstanceAct → Prop
  | .advance position false =>
    ∀ request ∈ system.requestAt position, MayAsk system.shared request (system.awaiting position)
  | _ => True

instance (stores : InstanceStores) (request : InstanceRequest) (asked : Option InstanceStatement) :
    Decidable (MayAsk stores request asked) := by
  unfold MayAsk
  split <;> infer_instance

instance (system : InstanceSystem) (act : InstanceAct) :
    Decidable (InstanceCondition system act) :=
  match act with
  | .advance position false =>
    inferInstanceAs (Decidable (∀ request ∈ system.requestAt position,
      MayAsk system.shared request (system.awaiting position)))
  | .advance _ true => .isTrue trivial
  | .start _ => .isTrue trivial
  | .tick _ => .isTrue trivial

/-- A read or a write that shows the instance without the user. -/
def leavesOut (workspaceId instanceId sub : Text) :
    (statement : InstanceStatement) → Except InstanceFailure statement.Answer → Bool
  | .readInstance workspace identifier, .ok (some record) =>
    workspace = workspaceId ∧ identifier = instanceId ∧ sub ∉ record.participants
  | .writeInstance workspace identifier record, .ok _ =>
    workspace = workspaceId ∧ identifier = instanceId ∧ sub ∉ record.participants
  | _, _ => false

def deletesRecord (workspaceId instanceId : Text) :
    (statement : InstanceStatement) → Except InstanceFailure statement.Answer → Bool
  | .deleteInstanceRecord workspace identifier, .ok _ =>
    workspace = workspaceId ∧ identifier = instanceId
  | _, _ => false

/-- What a call has to see last to return. -/
def completes : InstanceRequest → (statement : InstanceStatement) →
    Except InstanceFailure statement.Answer → Bool
  | .removeParticipant workspaceId instanceId sub => leavesOut workspaceId instanceId sub
  | .deleteInstance workspaceId instanceId => deletesRecord workspaceId instanceId
  | _ => fun _ _ => false

abbrev instanceDiscipline (request : InstanceRequest) :
    Discipline InstanceStatement.Answer InstanceFailure Bool :=
  lastSeen (fun _ => True) (completes request)

def InstanceEnds (request : InstanceRequest) (completed : Bool)
    (outcome : Except InstanceFailure InstanceReply) : Prop :=
  match request, outcome with
  | .removeParticipant _ _ _, .ok _ => completed = true
  | .deleteInstance _ _, .ok _ => completed = true
  | _, _ => True

variable {record : MeteredInstance}

section

variable {workspaceId instanceId sub : Text}

/-- How a removal ends, and the deletion of an instance. -/
def EndsSeen {Value : Type} (seen : Bool) (outcome : Except InstanceFailure Value) : Prop :=
  match outcome with
  | .ok _ => seen = true
  | .error _ => True

theorem follows_writeBack {request : InstanceRequest} {seen : Bool} (completing : ∀ now,
      completes request (.writeInstance workspaceId instanceId
          { record with updatedAt := now }) (.ok ()) = true) :
    Follows (instanceDiscipline request) EndsSeen seen
      (writeBack workspaceId instanceId record) := by
  apply follows_bind_any (fun _ _ => trivial) (fun _ _ => trivial)
  intro now memory
  refine follows_await trivial (fun _ _ => trivial) ?_
  intro written _
  exact completing now

theorem follows_removeParticipant (seen : Bool) :
    Follows (instanceDiscipline (.removeParticipant workspaceId instanceId sub))
      EndsSeen seen (removeParticipant workspaceId instanceId sub) := by
  apply follows_bind
  apply follows_bind
  apply follows_perform trivial
  intro answer _
  match answer with
  | .error thrown => trivial
  | .ok none => trivial
  | .ok (some record) =>
    show Follows _ _ _ (if sub ∈ record.participants then _ else _)
    by_cases listed : sub ∈ record.participants
    · rw [if_pos listed]
      apply follows_writeBack
      intro now
      simp [completes, leavesOut]
    · rw [if_neg listed]
      apply follows_pure
      simp [EndsSeen, lastSeen, completes, leavesOut, listed]

theorem follows_deleteInstance (backend : RecordBackend) (seen : Bool) :
    Follows (instanceDiscipline (.deleteInstance workspaceId instanceId))
      EndsSeen seen (deleteInstance backend workspaceId instanceId) := by
  apply follows_bind_any (fun _ _ => trivial) (fun _ _ => trivial)
  intro record _
  apply follows_bind_any (fun _ _ => trivial) (fun _ _ => trivial)
  intro keys _
  apply follows_bind_any (fun _ _ => trivial) (fun _ _ => trivial)
  intro cleared _
  apply follows_bind_any (fun _ _ => trivial) (fun _ _ => trivial)
  intro count _
  refine follows_await trivial (fun _ _ => trivial) ?_
  intro deleted _
  apply follows_pure
  simp [EndsSeen, lastSeen, completes, deletesRecord]

theorem follows_serveInstance (backend : RecordBackend) (request : InstanceRequest) :
    Follows (instanceDiscipline request) (InstanceEnds request) false
      (serveInstance backend request) := by
  have unconstrained (process : InstanceCall InstanceReply)
      (free : ∀ memory outcome, InstanceEnds request memory outcome) :
      Follows (instanceDiscipline request) (InstanceEnds request) false
        process := by
    have any : Follows (instanceDiscipline request) (fun _ _ => True) false
        process := follows_of_asks (asks_any process) fun _ _ _ => trivial
    exact any.weaken fun memory outcome _ => free memory outcome
  cases request with
  | removeParticipant workspaceId instanceId sub =>
    refine follows_then (follows_removeParticipant false) (fun _ _ _ => trivial) ?_
    intro memory record ended
    exact follows_pure ended
  | deleteInstance workspaceId instanceId =>
    refine follows_then (follows_deleteInstance backend false) (fun _ _ _ => trivial) ?_
    intro memory record ended
    exact follows_pure ended
  | _ => exact unconstrained _ fun _ _ => trivial

end

def isWriteOf (workspaceId instanceId : Text) : InstanceStatement → Bool
  | .writeInstance workspace identifier _ => workspace = workspaceId ∧ identifier = instanceId
  | .deleteInstanceRecord workspace identifier => workspace = workspaceId ∧ identifier = instanceId
  | _ => false

variable {statement : InstanceStatement} {stores : InstanceStores}
  {workspaceId instanceId : Text}

theorem instances_answerStatement_of_not_write
    (other : isWriteOf workspaceId instanceId statement = false) :
    (answerStatement statement stores).2.instances workspaceId instanceId =
      stores.instances workspaceId instanceId := by
  cases statement with
  | writeInstance workspace identifier record =>
    apply instances_setInstance_of_ne
    rintro ⟨rfl, rfl⟩
    simp [isWriteOf] at other
  | deleteInstanceRecord workspace identifier =>
    apply instances_setInstance_of_ne
    rintro ⟨rfl, rfl⟩
    simp [isWriteOf] at other
  | _ => rfl

theorem instances_executeStatement (refused : Bool) (statement : InstanceStatement)
    (stores : InstanceStores) (workspaceId instanceId : Text) :
    (executeStatement refused statement stores).2.instances
        workspaceId instanceId = stores.instances workspaceId instanceId ∨
      refused = false ∧ ((∃ record, statement = .writeInstance workspaceId instanceId record ∧
          (executeStatement refused statement stores).2.instances
            workspaceId instanceId = some record) ∨
        (executeStatement refused statement stores).2.instances workspaceId instanceId = none) := by
  by_cases turned : (refused && statement ≠ .now) = true
  · left
    rw [executeStatement, if_pos turned]
  · rw [executeStatement, if_neg turned]
    by_cases writes : isWriteOf workspaceId instanceId statement = true
    · right
      cases statement with
      | writeInstance workspace identifier record =>
        simp only [isWriteOf, decide_eq_true_eq] at writes
        obtain ⟨rfl, rfl⟩ := writes
        refine ⟨by simpa using turned, Or.inl ⟨record, rfl, ?_⟩⟩
        exact instances_setInstance_self stores workspace identifier _
      | deleteInstanceRecord workspace identifier =>
        simp only [isWriteOf, decide_eq_true_eq] at writes
        obtain ⟨rfl, rfl⟩ := writes
        refine ⟨by simpa using turned, Or.inr ?_⟩
        exact instances_setInstance_self stores workspace identifier _
      | _ => cases writes
    · left
      rw [Bool.not_eq_true] at writes
      exact instances_answerStatement_of_not_write writes

theorem not_listed_of_leavesOut {refused : Bool} {sub : Text}
    (shown : leavesOut workspaceId instanceId sub statement
      (executeStatement refused statement stores).1 = true)
    (stored : (executeStatement refused statement stores).2.instances
      workspaceId instanceId = some record) :
    sub ∉ record.participants := by
  by_cases turned : (refused && statement ≠ .now) = true
  · rw [executeStatement, if_pos turned] at shown
    cases statement <;> cases shown
  · rw [executeStatement, if_neg turned] at shown stored
    cases statement with
    | readInstance workspace identifier =>
      have current : stores.instances workspaceId instanceId = some record := stored
      cases answered : stores.instances workspace identifier with
      | none => simp [answerStatement, answered, leavesOut] at shown
      | some other =>
        simp only [answerStatement, answered, leavesOut, decide_eq_true_eq] at shown
        obtain ⟨rfl, rfl, absent⟩ := shown
        rw [answered] at current
        cases current
        exact absent
    | writeInstance workspace identifier written =>
      simp only [leavesOut, decide_eq_true_eq] at shown
      obtain ⟨rfl, rfl, absent⟩ := shown
      simp only [answerStatement, instances_setInstance_self] at stored
      cases stored
      exact absent
    | _ => cases shown

theorem instances_none_of_deletesRecord {refused : Bool}
    (deleted : deletesRecord workspaceId instanceId statement
      (executeStatement refused statement stores).1 = true) :
    (executeStatement refused statement stores).2.instances workspaceId instanceId = none := by
  by_cases turned : (refused && statement ≠ .now) = true
  · rw [executeStatement, if_pos turned] at deleted
    cases statement <;> cases deleted
  · rw [executeStatement, if_neg turned] at deleted ⊢
    cases statement with
    | deleteInstanceRecord workspace identifier =>
      simp only [deletesRecord, decide_eq_true_eq] at deleted
      obtain ⟨rfl, rfl⟩ := deleted
      exact instances_setInstance_self stores workspace identifier none
    | _ => cases deleted

structure RemovalInvariant (system : InstanceSystem) : Prop where
  follow : AllFollow instanceDiscipline false InstanceEnds system
  /-- Whoever is listed after a statement that showed the instance without
  the user was added after it. -/
  staysOut : ∀ before entry after workspaceId instanceId sub,
    system.history = before ++ entry :: after →
      leavesOut workspaceId instanceId sub entry.statement entry.answer = true →
      ∀ record, system.shared.instances workspaceId instanceId = some record →
        sub ∈ record.participants →
          ∃ later ∈ after, AddsUser system workspaceId instanceId sub later
  staysDeleted : ∀ entry ∈ system.history, ∀ workspaceId instanceId,
    deletesRecord workspaceId instanceId entry.statement entry.answer = true →
      system.shared.instances workspaceId instanceId = none

theorem removalInvariant_noInstanceCalls (stores : InstanceStores) :
    RemovalInvariant (noInstanceCalls stores) := by
  constructor
  · exact follows_idle
  · intro before entry after workspaceId instanceId sub split
    cases before <;> cases split
  · intro entry member
    cases member

variable {system : InstanceSystem}

theorem removalInvariant_start {backend : RecordBackend}
    (invariant : RemovalInvariant system) (request : InstanceRequest) :
    RemovalInvariant (system.start request (serveInstance backend request)) := by
  constructor
  · exact follows_start invariant.follow (follows_serveInstance backend request)
  · intro before entry after workspaceId instanceId sub split shown record stored listed
    obtain ⟨later, member, adds, writes⟩ :=
      invariant.staysOut before entry after workspaceId instanceId sub split
        shown record stored listed
    have inside : later ∈ system.history := by
      show later ∈ (system.start request (serveInstance backend request)).history
      rw [split]
      exact List.mem_append_right before (List.mem_cons_of_mem entry member)
    refine ⟨later, member, ?_, writes⟩
    rw [requestAt_start (invariant.follow.below later inside)]
    exact adds
  · exact invariant.staysDeleted

theorem removalInvariant_tick (invariant : RemovalInvariant system) (clock : Nat) :
    RemovalInvariant { system with shared := { system.shared with clock := clock } } :=
  ⟨⟨invariant.follow.below, invariant.follow.follow⟩, invariant.staysOut, invariant.staysDeleted⟩

section

variable {system : InstanceSystem} {position : Nat} {refused : Bool}
  {request : InstanceRequest} {statement : InstanceStatement}
  {resume : Except InstanceFailure statement.Answer → InstanceCall InstanceReply}

abbrev executed (system : InstanceSystem) (position : Nat)
    (request : InstanceRequest) (statement : InstanceStatement)
    (resume : Except InstanceFailure statement.Answer →
      InstanceCall InstanceReply) (refused : Bool) : InstanceSystem :=
  system.answered position request statement resume
    (executeStatement refused statement system.shared)

theorem listed_before_executed (found : system.Awaits position request statement resume)
    (condition : InstanceCondition system (.advance position refused))
    {sub : Text} (stored : (executed system position request statement resume
      refused).shared.instances workspaceId instanceId = some record)
    (listed : sub ∈ record.participants) :
    (∃ earlier, system.shared.instances workspaceId instanceId = some earlier ∧
      (sub ∈ earlier.participants ∨ request = .addParticipant workspaceId instanceId sub ∧
          ∃ written, statement = .writeInstance workspaceId instanceId written)) := by
  rcases instances_executeStatement refused statement system.shared
    workspaceId instanceId with same | ⟨served, ⟨written, rfl, now⟩ | gone⟩
  · have earlier : system.shared.instances workspaceId instanceId =
        some record := same.symm.trans stored
    exact ⟨record, earlier, Or.inl listed⟩
  · subst served
    have same : some written = some record := now.symm.trans stored
    cases same
    have requested := requestAt_of_found found
    have awaited : system.awaiting position =
        some (.writeInstance workspaceId instanceId record) := by
      rw [Concurrent.awaiting, found]
    have permitted := condition request requested
    rw [awaited] at permitted
    obtain ⟨earlier, present, covered⟩ := permitted
    refine ⟨earlier, present, ?_⟩
    rcases covered sub listed with older | adds
    · exact Or.inl older
    · exact Or.inr ⟨adds, record, rfl⟩
  · have impossible : none = some record := gone.symm.trans stored
    cases impossible

theorem removalInvariant_executed (invariant : RemovalInvariant system)
    (found : system.Awaits position request statement resume)
    (condition : InstanceCondition system (.advance position refused)) :
    RemovalInvariant (executed system position request statement resume refused) := by
  have requests (other : Nat) :
      (executed system position request statement resume refused).requestAt
        other = system.requestAt other :=
    requestAt_answered found other
  constructor
  · exact follows_answered invariant.follow found trivial
  · intro before entry after workspaceId instanceId sub split shown record stored listed
    rcases split_of_append_singleton split with
      ⟨rfl, rfl⟩ | ⟨shorter, rfl, older⟩
    · exact absurd listed (not_listed_of_leavesOut shown stored)
    · obtain ⟨earlier, present, wasListed | ⟨adds, written, writes⟩⟩ :=
        listed_before_executed found condition stored listed
      · obtain ⟨later, member, addsLater, writesLater⟩ :=
          invariant.staysOut before entry shorter workspaceId instanceId sub
            older shown earlier present wasListed
        refine ⟨later, List.mem_append_left _ member, ?_, writesLater⟩
        rw [requests]
        exact addsLater
      · refine ⟨_, List.mem_append_right _ (List.mem_singleton_self _), ?_, written, writes⟩
        rw [requests, requestAt_of_found found, adds]
  · intro entry member workspaceId instanceId deleted
    rcases List.mem_append.mp member with older | new
    · have gone := invariant.staysDeleted entry older workspaceId instanceId deleted
      cases stored : (executed system position request statement resume
          refused).shared.instances workspaceId instanceId with
      | none => rfl
      | some record =>
        rcases instances_executeStatement refused statement system.shared
          workspaceId instanceId with
          same | ⟨served, ⟨written, rfl, now⟩ | gone'⟩
        · rw [same.symm.trans stored] at gone
          cases gone
        · subst served
          have permitted := condition request (requestAt_of_found found)
          rw [Concurrent.awaiting, found] at permitted
          obtain ⟨earlier, present, _⟩ := permitted
          rw [gone] at present
          cases present
        · cases gone'.symm.trans stored
    · rw [List.mem_singleton.mp new] at deleted
      exact instances_none_of_deletesRecord deleted

end

theorem removalFinal_of_invariant (invariant : RemovalInvariant system) :
    RemovalFinal system := by
  constructor
  · intro position workspaceId instanceId sub reply returned
    have remembered := invariant.follow.ended returned
    obtain ⟨last, after, isLast, shown⟩ :=
      exists_lastOf_of_lastSeen system.history position remembered
    refine ⟨last, after, isLast, ?_⟩
    obtain ⟨before, split, _, _⟩ := isLast
    exact invariant.staysOut before last after workspaceId instanceId sub
      split shown
  · intro position workspaceId instanceId reply returned
    have remembered := invariant.follow.ended returned
    obtain ⟨last, after, ⟨before, split, _, _⟩, deleted⟩ :=
      exists_lastOf_of_lastSeen system.history position remembered
    have member : last ∈ system.history := by
      rw [split]
      exact List.mem_append_right before List.mem_cons_self
    exact invariant.staysDeleted last member workspaceId instanceId deleted

theorem removalInvariant_step {backend : RecordBackend} {system next : InstanceSystem}
    {act : InstanceAct} (invariant : RemovalInvariant system)
    (condition : InstanceCondition system act)
    (taken : instanceStep backend system act = some next) :
    RemovalInvariant next := by
  cases act with
  | start request =>
    cases taken
    exact removalInvariant_start invariant request
  | advance position refused =>
    obtain ⟨request, statement, resume, found, rfl⟩ :=
      advance_eq_some_iff.mp taken
    exact removalInvariant_executed invariant found condition
  | tick milliseconds =>
    cases taken
    exact removalInvariant_tick invariant _

/-- In every run whose statements meet the condition a removal is final. -/
theorem removal_is_final (backend : RecordBackend) (stores : InstanceStores)
    (acts : List InstanceAct) (system : InstanceSystem)
    (meets : StepsMeet (instanceStep backend) InstanceCondition (noInstanceCalls stores) acts)
    (executed : runFrom (instanceStep backend) (noInstanceCalls stores) acts = some system) :
    RemovalFinal system := by
  apply removalFinal_of_invariant
  apply invariant_of_stepsMeet RemovalInvariant ?preserved
    (removalInvariant_noInstanceCalls stores) meets executed
  case preserved =>
    intro state act next invariant condition taken
    exact removalInvariant_step invariant condition taken

def sharedStores : InstanceStores where
  clock := 0
  instances := fun _ instanceId =>
    if instanceId = "i".toList then
      some ⟨⟨"app".toList, "w".toList, ["host".toList, "guest".toList]⟩, 0, none, 0⟩
    else none
  items := []
  objects := fun _ _ _ => none
  files := fun _ => ⟨.sqlite, [], Fs.Store.keys_nil⟩
  installHosting := fun _ _ => some .hosted
  isMember := fun _ _ => true

/-- The host writes a row, then removes the guest. -/
def writeThenRemove : List InstanceAct :=
  [.start (.setRecord "w".toList "app#app#shared#i".toList "k".toList "1".toList),
    .start (.removeParticipant "w".toList "i".toList "guest".toList)] ++
    List.replicate 6 (.advance 0 false) ++ List.replicate 3 (.advance 1 false)

theorem removal_is_final_writeThenRemove :
    ∃ system, runFrom (instanceStep .dynamodb) (noInstanceCalls sharedStores)
        writeThenRemove = some system ∧
      (system.shared.instances "w".toList "i".toList).map
        (fun record => (record.participants, record.storageBytes)) =
        some (["host".toList], 1) ∧
      RemovalFinal system := by
  have ran :
      (runFrom (instanceStep .dynamodb) (noInstanceCalls sharedStores)
        writeThenRemove).map (fun system =>
          (system.shared.instances "w".toList "i".toList).map
            (fun record => (record.participants, record.storageBytes))) =
        some (some (["host".toList], 1)) := by
    decide +kernel
  obtain ⟨system, executed, shown⟩ := Option.map_eq_some_iff.mp ran
  have meets : StepsMeet (instanceStep .dynamodb) InstanceCondition
      (noInstanceCalls sharedStores) writeThenRemove := by
    decide +kernel
  exact ⟨system, executed, shown,
    removal_is_final .dynamodb sharedStores writeThenRemove system meets executed⟩

/-- The meter of a row write reads the record before the removal and writes
it back after. -/
def meterAcrossRemoval : List InstanceAct :=
  [.start (.setRecord "w".toList "app#app#shared#i".toList "k".toList "1".toList),
    .start (.removeParticipant "w".toList "i".toList "guest".toList)] ++
    List.replicate 2 (.advance 0 false) ++
    List.replicate 3 (.advance 1 false) ++ List.replicate 3 (.advance 0 false)

def guestRemoved (system : InstanceSystem) (position : Nat) : Bool :=
  match system.calls[position]? with
  | some ⟨.removeParticipant workspaceId instanceId sub,
      .done (.ok (.record _))⟩ =>
      workspaceId = "w".toList ∧ instanceId = "i".toList ∧ sub = "guest".toList
  | _ => false

theorem removal_not_final :
    ¬ ∀ (backend : RecordBackend) (stores : InstanceStores)
        (acts : List InstanceAct) (system : InstanceSystem),
      runFrom (instanceStep backend) (noInstanceCalls stores) acts = some system →
        RemovalFinal system := by
  intro law
  have ran :
      (runFrom (instanceStep .dynamodb) (noInstanceCalls sharedStores)
        meterAcrossRemoval).map (fun system => decide (guestRemoved system 1 ∧
            (∃ record ∈ system.shared.instances "w".toList "i".toList,
              "guest".toList ∈ record.participants) ∧
            ∀ entry ∈ system.history, system.requestAt entry.caller ≠
              some (.addParticipant "w".toList "i".toList "guest".toList))) = some true := by
    decide +kernel
  obtain ⟨system, executed, seen⟩ := Option.map_eq_some_iff.mp ran
  obtain ⟨removed, ⟨record, stored, listed⟩, neverAdded⟩ :=
    of_decide_eq_true seen
  have final := law .dynamodb sharedStores meterAcrossRemoval system executed
  unfold guestRemoved at removed
  split at removed
  · rename_i workspaceId instanceId sub reply returned
    obtain ⟨rfl, rfl, rfl⟩ := of_decide_eq_true removed
    obtain ⟨last, after, ⟨before, split, _, _⟩, staysOut⟩ :=
      final.staysOut 1 _ _ _ _ returned
    obtain ⟨later, member, adds, _⟩ := staysOut record stored listed
    have inside : later ∈ system.history := by
      rw [split]
      exact List.mem_append_right before (List.mem_cons_of_mem last member)
    exact neverAdded later inside adds
  · cases removed

end Aprovan.Apps.Instances
