import Aprovan.Agents.RunEnds

/-!
# Cancelling an agent run

A cancel flags the run if its process has the run's handle; any other cancel
writes the record back as cancelled, and the loop, which holds its own copy,
goes on.  The calls are about one run: the call that runs it, which is the
first, and the cancels and resumes, from any process.
-/

namespace Aprovan.Agents

open Aprovan.Library

inductive RunReply where
  | finished (record : StoredAgentRun)
  | cancelled (cancelled : Bool)
  | resumed (record : StoredAgentRun)

/-- A read that is refused finds nothing. -/
def readNativeAgentRun : RunCall (Option StoredAgentRun) :=
  (askRun .readRecord).rescue fun _ => pure none

def cancelledRecord (record : StoredAgentRun) : StoredAgentRun :=
  { record with
      status := .cancelled
      stopReason := some .cancelled
      isFinished := true }

def cancelNativeAgentRun (inOwner : Bool) : RunCall RunReply := do
  if ← askRun (.cancelLive inOwner) then pure (.cancelled true)
  else
    match ← readNativeAgentRun with
    | none => Process.raise unknownRunId
    | some record =>
      if isTerminal record.status then pure (.cancelled false)
      else do
        askRun (.writeRecord (cancelledRecord record))
        pure (.cancelled true)

def resumedRecord (record : StoredAgentRun) : StoredAgentRun :=
  { record with
      status := .running
      pendingApproval := none
      error := none
      stopReason := none }

def isAwaitingApproval (record : StoredAgentRun) : Bool :=
  record.status = .awaitingTools && record.pendingApproval.isSome

def resumeNativeAgentAfterApproval : RunCall RunReply := do
  match ← readNativeAgentRun with
  | none => Process.raise unknownRunId
  | some record =>
    if isAwaitingApproval record then do
      askRun (.writeRecord (resumedRecord record))
      pure (.resumed (resumedRecord record))
    else Process.raise "Agent run is not awaiting approval".toList

inductive RunRequest where
  | run
  /-- A cancel, in the process that runs the run or in another. -/
  | cancel (inOwner : Bool)
  | resume
  deriving DecidableEq

structure RunStores where
  record : Option StoredAgentRun
  /-- The flag of the run's handle, while its process has the handle. -/
  handle : Option Bool

def executeCall (happening : Happening) (statement : RunStatement) (stores : RunStores) :
    Except Text statement.Answer × RunStores :=
  match statement with
  | .register => (.ok (), { stores with handle := some false })
  | .unregister => (.ok (), { stores with handle := none })
  | .isCancelled => (.ok (stores.handle.getD false), stores)
  | .cancelLive inOwner =>
    if inOwner && stores.handle.isSome then (.ok true, { stores with handle := some true })
    else (.ok false, stores)
  | other =>
    let outcome := executeRun happening other stores.record
    (outcome.1, { stores with record := outcome.2 })

def serveRun (host : AgentHost) (settings : RunSettings) : RunRequest → RunCall RunReply
  | .run => do
      let record ← runNativeAgent host settings
      pure (.finished record)
  | .cancel inOwner => cancelNativeAgentRun inOwner
  | .resume => resumeNativeAgentAfterApproval

abbrev RunSystem :=
  Concurrent RunStores RunRequest RunStatement.Answer Text RunReply

inductive RunAct where
  | start (request : RunRequest)
  | advance (position : Nat) (happening : Happening)

/-- The run is the first call; the id of another one is another. -/
def runStep (host : AgentHost) (settings : RunSettings) (system : RunSystem) :
    RunAct → Option RunSystem
  | .start request =>
    if request = .run then none
    else some (system.start request (serveRun host settings request))
  | .advance position happening => system.advance executeCall position happening

def begunRun (host : AgentHost) (settings : RunSettings) : RunSystem :=
  ⟨⟨none, none⟩, [⟨.run, serveRun host settings .run⟩], []⟩

def HasCancelled (system : RunSystem) (position : Nat) : Prop :=
  ∃ inOwner, system.calls[position]? = some ⟨.cancel inOwner, .done (.ok (.cancelled true))⟩

structure CancelHeld (system : RunSystem) : Prop where
  /-- A terminal record has a log that ends with the one terminal event. -/
  closed : ∀ record, system.shared.record = some record →
    isTerminal record.status = true → ClosedLog record.events
  /-- No tool is invoked after a cancel has answered. -/
  silenced : ∀ position, HasCancelled system position →
    ∀ entry after, LastOf system.history position entry after →
      ∀ later ∈ after, isToolCall later = false
  /-- A run that a cancel has answered about ends as cancelled. -/
  settled : ∀ position, HasCancelled system position →
    ∀ outcome, system.calls[0]? = some ⟨.run, .done outcome⟩ →
      ∃ record, system.shared.record = some record ∧ record.status = .cancelled

/-- What a cancel or a resume has read, and what it has done. -/
structure VisitMemory where
  read : Option StoredAgentRun
  (flagged wrote : Bool)

def VisitMemory.blank : VisitMemory :=
  ⟨none, false, false⟩

def VisitMemory.remember (memory : VisitMemory) (statement : RunStatement)
    (answer : Except Text statement.Answer) : VisitMemory :=
  match statement, answer with
  | .readRecord, .ok found => { memory with read := found }
  | .cancelLive _, .ok flagged => { memory with flagged := flagged }
  | .writeRecord _, .ok _ => { memory with wrote := true }
  | _, _ => memory

def VisitMemory.admits (request : RunRequest) (memory : VisitMemory) (statement : RunStatement) :
    Prop :=
  match request, statement with
  | .run, _ => True
  | .cancel inOwner, .cancelLive asked => memory.flagged = false ∧ asked = inOwner
  | .cancel _, .readRecord => memory.flagged = false
  | .cancel _, .writeRecord _ => memory.flagged = false
  | .resume, .readRecord => True
  | .resume, .writeRecord record => ∃ before, memory.read = some before ∧
      before.status = .awaitingTools ∧ record = resumedRecord before
  | _, _ => False

def visitDiscipline (request : RunRequest) : Discipline RunStatement.Answer Text VisitMemory where
  admits := VisitMemory.admits request
  possible _ _ _ := True
  remember := VisitMemory.remember

/-- A cancel that answers that it cancelled has flagged the run or written
its record. -/
def visitEnds (request : RunRequest) (memory : VisitMemory) (outcome : Except Text RunReply) :
    Prop :=
  match request, outcome with
  | .cancel _, .ok (.cancelled true) => memory.flagged = true ∨ memory.wrote = true
  | _, _ => True

def ownDiscipline (settings : RunSettings) :
    RunRequest → Discipline RunStatement.Answer Text RunMemory
  | .run => runDiscipline settings
  | _ => {
      admits := fun _ _ => True
      possible := fun _ _ _ => True
      remember := fun memory _ _ => memory }

def ownEnds (settings : RunSettings) (request : RunRequest)
    (memory : RunMemory) (outcome : Except Text RunReply) : Prop :=
  match request, outcome with
  | .run, .ok (.finished record) => RanWell settings memory record
  | .run, .ok _ => False
  | .run, .error _ => HasEscaped memory
  | _, _ => True

def ownMemory (settings : RunSettings) (system : RunSystem) : RunMemory :=
  memoryOf (runDiscipline settings) .blank system.history 0

def visitMemory (system : RunSystem) (position : Nat) : VisitMemory :=
  memoryOf (visitDiscipline .resume) .blank system.history position

/-- A statement that a cancel asks: it writes no record, and it flags the run
only where the loop comes to its check before anything else. -/
def cancelsInTime (stores : RunStores) (memory : RunMemory) (happening : Happening) :
    RunStatement → Bool
  | .cancelLive inOwner => !(inOwner && stores.handle.isSome) ||
      (memory.course = .approaching && !memory.escaped)
  | .writeRecord _ => happening.thrown.isSome
  | _ => true

/-- A statement that the run asks: nothing escapes after it was flagged. -/
def endsInTime (stores : RunStores) (memory : RunMemory)
    (happening : Happening) (statement : RunStatement) : Bool :=
  (stores.handle ≠ some true && memory.course ≠ .cancelled) ||
    (thrownBy happening statement).isNone || memory.guarded

def cancelsAtCheck (settings : RunSettings) (system : RunSystem) : RunAct → Bool
  | .advance position happening =>
    match system.requestAt position, system.awaiting position with
    | some (.cancel _), some statement =>
      cancelsInTime system.shared (ownMemory settings system) happening statement
    | some .run, some statement =>
      endsInTime system.shared (ownMemory settings system) happening statement
    | _, _ => true
  | _ => true

section

variable {host : AgentHost} {settings : RunSettings}

theorem follows_own (request : RunRequest) :
    Follows (ownDiscipline settings request) (ownEnds settings request)
      .blank (serveRun host settings request) := by
  cases request with
  | run =>
    refine follows_then (follows_runNativeAgent host) (fun _ _ ended => ended) ?_
    intro memory record ended
    exact ended
  | cancel inOwner => exact follows_of_asks (asks_any _) fun _ _ _ => trivial
  | resume => exact follows_of_asks (asks_any _) fun _ _ _ => trivial

theorem follows_cancel (inOwner : Bool) :
    Follows (visitDiscipline (.cancel inOwner)) (visitEnds (.cancel inOwner))
      .blank (cancelNativeAgentRun inOwner) := by
  refine follows_await ⟨rfl, rfl⟩ (fun _ _ => trivial) ?_
  intro flagged _
  cases flagged with
  | true => exact Or.inl rfl
  | false =>
    refine follows_await rfl (fun _ _ => trivial) ?_
    intro found _
    cases found with
    | none => trivial
    | some record =>
      show Follows _ _ _ (if isTerminal record.status then _ else _)
      split
      · trivial
      · refine follows_await rfl (fun _ _ => trivial) ?_
        intro written _
        exact Or.inr rfl

theorem follows_resume :
    Follows (visitDiscipline .resume) (visitEnds .resume) .blank
      resumeNativeAgentAfterApproval := by
  refine follows_await trivial (fun _ _ => trivial) ?_
  intro found _
  cases found with
  | none => trivial
  | some record =>
    show Follows _ _ _ (if isAwaitingApproval record then _ else _)
    by_cases awaits : isAwaitingApproval record = true
    · rw [if_pos awaits]
      have waiting : record.status = .awaitingTools :=
        of_decide_eq_true (Bool.and_eq_true_iff.mp awaits).1
      refine follows_await ⟨record, rfl, waiting, rfl⟩ (fun _ _ => trivial) ?_
      intro written _
      trivial
    · rw [if_neg awaits]
      trivial

theorem follows_visit (request : RunRequest) :
    Follows (visitDiscipline request) (visitEnds request) .blank
      (serveRun host settings request) := by
  cases request with
  | run => exact follows_of_asks (asks_any _) fun _ _ _ => trivial
  | cancel inOwner => exact follows_cancel inOwner
  | resume => exact follows_resume

end

def RunMemory.HasWaited (memory : RunMemory) : Prop :=
  ∃ record, memory.stored = some record ∧ record.status = .awaitingTools

def ResumedAfter (memory : RunMemory) (stores : RunStores) : Prop :=
  memory.HasWaited ∧ ∃ record, stores.record = some record ∧ record.status = .running

/-- The loop has found its flag, or finds it before anything else. -/
structure IsDoomed (memory : RunMemory) (stores : RunStores) : Prop where
  kept : memory.escaped = false
  course : memory.course = .cancelled ∨ (memory.course = .approaching ∧ stores.handle = some true)

structure RunAgree (requestAt : Nat → Option RunRequest)
    (visit : Nat → VisitMemory) (memory : RunMemory) (stores : RunStores) :
    Prop where
  only : ∀ position, requestAt position = some .run ↔ position = 0
  stored : stores.record = memory.stored ∨ ResumedAfter memory stores
  closed : ∀ record, memory.stored = some record →
    isTerminal record.status = true → ClosedLog record.events
  waited : ∀ position record, requestAt position = some .resume →
    (visit position).read = some record → record.status = .awaitingTools → memory.HasWaited
  registered : stores.handle.isSome = true → memory.registered = true
  unwritten : ∀ position inOwner, requestAt position = some (.cancel inOwner) →
      (visit position).wrote = false
  flagged : ∀ position inOwner, requestAt position = some (.cancel inOwner) →
      (visit position).flagged = true → IsDoomed memory stores

variable {record : StoredAgentRun}

section

variable {requestAt : Nat → Option RunRequest}
  {visit : Nat → VisitMemory} {memory : RunMemory} {stores : RunStores}
  {settings : RunSettings} {happening : Happening}
  {statement : RunStatement} {position : Nat}

theorem RunMemory.HasWaited.not_isOpen (waited : memory.HasWaited) (isOpen : memory.IsOpen) :
    False := by
  obtain ⟨record, stored, waits⟩ := waited
  rw [isOpen record stored] at waits
  cases waits

/-- While the run has not settled its record, nobody else has written it. -/
theorem RunAgree.stored_of_isOpen (agree : RunAgree requestAt visit memory stores)
    (isOpen : memory.IsOpen) :
    stores.record = memory.stored := by
  rcases agree.stored with same | resumed
  · exact same
  · exact (resumed.1.not_isOpen isOpen).elim

theorem record_executeCall (same : stores.record = memory.stored)
    (asks : memory.mayAsk settings statement) :
    (executeCall happening statement stores).2.record = (memory.remember settings statement
        (executeCall happening statement stores).1).stored := by
  cases statement with
  | register => exact same
  | unregister => exact same
  | isCancelled => exact same
  | cancelLive inOwner => exact asks.elim
  | _ =>
    show (executeRun happening _ stores.record).2 = RunMemory.stored
      (RunMemory.remember _ _ _ (executeRun happening _ stores.record).1)
    rw [same]
    exact stored_remember _

theorem possible_executeCall (same : stores.record = memory.stored) :
    memory.possible statement (executeCall happening statement stores).1 := by
  cases statement with
  | register => trivial
  | unregister => trivial
  | isCancelled => trivial
  | cancelLive inOwner => trivial
  | _ =>
    show RunMemory.possible _ _ (executeRun happening _ stores.record).1
    rw [same]
    exact possible_execute _

theorem closed_remember (closed : ∀ record, memory.stored = some record →
      isTerminal record.status = true → ClosedLog record.events)
    (asks : memory.mayAsk settings statement) (answer : Except Text statement.Answer) :
    ∀ record, (memory.remember settings statement answer).stored =
      some record → isTerminal record.status = true → ClosedLog record.events := by
  cases statement with
  | writeRecord written =>
    cases answer with
    | ok done =>
      intro record stored
      cases stored
      exact asks.closed
    | error thrown =>
      show ∀ record, memory.threw.stored = some record → _
      rw [stored_threw]
      exact closed
  | _ =>
    cases answer with
    | ok given => exact closed
    | error thrown =>
      first
      | exact closed
      | show ∀ record, memory.threw.stored = some record → _
        rw [stored_threw]
        exact closed

theorem registered_threw : memory.threw.registered = memory.registered := by
  unfold RunMemory.threw
  split <;> rfl

theorem registered_remember (answer : Except Text statement.Answer)
    (registered : memory.registered = true) :
    (memory.remember settings statement answer).registered = true := by
  cases statement with
  | register =>
    cases answer with
    | ok done => rfl
    | error thrown => exact registered_threw.trans registered
  | _ =>
    cases answer with
    | ok given => exact registered
    | error thrown =>
      first
      | exact registered_threw.trans registered
      | exact registered

theorem registered_executeCall (registered : stores.handle.isSome = true → memory.registered = true)
    (asks : memory.mayAsk settings statement) :
    (executeCall happening statement stores).2.handle.isSome = true →
      (memory.remember settings statement
        (executeCall happening statement stores).1).registered = true := by
  cases statement with
  | register =>
    intro _
    rfl
  | unregister =>
    intro impossible
    cases impossible
  | isCancelled => exact registered
  | cancelLive inOwner => exact asks.elim
  | _ =>
    intro held
    exact registered_remember _ (registered held)

theorem escaped_remember (answer : Except Text statement.Answer) (kept : memory.escaped = false)
    (caught : (∃ given, answer = .ok given) ∨ memory.guarded = true) :
    (memory.remember settings statement answer).escaped = false := by
  have threw (guarded : memory.guarded = true) : memory.threw.escaped = false := by
    rw [RunMemory.threw, if_pos guarded]
    exact kept
  cases answer with
  | ok given => cases statement <;> exact kept
  | error thrown =>
    have guarded : memory.guarded = true := by
      rcases caught with answered | guarded
      · obtain ⟨given, impossible⟩ := answered
        cases impossible
      · exact guarded
    cases statement with
    | createChatCompletion messages => exact kept
    | invokeTool toolNamespace operation args => exact kept
    | _ => exact threw guarded

theorem exists_ok_executeCall (fine : (thrownBy happening statement).isNone = true) :
    ∃ given, (executeCall happening statement stores).1 = .ok given := by
  have none := Option.isNone_iff_eq_none.mp fine
  cases statement with
  | register => exact ⟨_, rfl⟩
  | unregister => exact ⟨_, rfl⟩
  | isCancelled => exact ⟨_, rfl⟩
  | cancelLive inOwner =>
    unfold executeCall
    dsimp only
    split <;> exact ⟨_, rfl⟩
  | _ =>
    show ∃ given, (executeRun happening _ stores.record).1 = .ok given
    rw [executeRun, none]
    exact ⟨_, rfl⟩

/-- A statement that says nothing about the course of the loop. -/
def isAside : RunStatement → Bool
  | .isCancelled => false
  | .readCallId _ => false
  | .invokeTool _ _ _ => false
  | _ => true

theorem course_remember (answer : Except Text statement.Answer) (aside : isAside statement = true) :
    (memory.remember settings statement answer).course = memory.course := by
  have threw : memory.threw.course = memory.course := by
    unfold RunMemory.threw
    split <;> rfl
  cases statement with
  | isCancelled => cases aside
  | readCallId requested => cases aside
  | invokeTool toolNamespace operation args => cases aside
  | _ =>
    cases answer with
    | ok given => rfl
    | error thrown =>
      first
      | exact threw
      | rfl

theorem doomed_executeCall (doomed : IsDoomed memory stores)
    (registered : stores.handle.isSome = true → memory.registered = true)
    (asks : memory.mayAsk settings statement)
    (inTime : endsInTime stores memory happening statement = true) :
    IsDoomed (memory.remember settings statement (executeCall happening statement stores).1)
      (executeCall happening statement stores).2 := by
  have caught : (∃ given, (executeCall happening statement stores).1 = .ok given) ∨
        memory.guarded = true := by
    simp only [endsInTime, Bool.or_eq_true, Bool.and_eq_true, decide_eq_true_eq] at inTime
    rcases inTime with (unflagged | fine) | guarded
    · rcases doomed.course with cancelled | flagged
      · exact (unflagged.2 cancelled).elim
      · exact (unflagged.1 flagged.2).elim
    · exact Or.inl (exists_ok_executeCall fine)
    · exact Or.inr guarded
  refine ⟨escaped_remember _ doomed.kept caught, ?_⟩
  have notUnderway : memory.course ≠ .underway := by
    intro underway
    rcases doomed.course with cancelled | flagged
    · cases cancelled.symm.trans underway
    · cases flagged.1.symm.trans underway
  cases statement with
  | register =>
    rcases doomed.course with cancelled | flagged
    · exact Or.inl cancelled
    · have before := registered (by rw [flagged.2]; rfl)
      cases before.symm.trans asks
  | unregister =>
    rcases doomed.course with cancelled | flagged
    · exact Or.inl cancelled
    · rcases asks with escaped | decided
      · cases doomed.kept.symm.trans escaped
      · exact (decided flagged.1).elim
  | isCancelled =>
    rcases doomed.course with cancelled | flagged
    · cases cancelled.symm.trans asks
    · left
      show (if stores.handle.getD false then LoopCourse.cancelled
        else LoopCourse.underway) = .cancelled
      rw [flagged.2]
      rfl
  | cancelLive inOwner => exact asks.elim
  | readCallId requested => exact (notUnderway asks).elim
  | invokeTool toolNamespace operation args => exact (notUnderway asks.1).elim
  | _ =>
    rw [course_remember _ rfl]
    exact doomed.course

variable {inOwner : Bool} (agree : RunAgree requestAt visit memory stores)

include agree

theorem RunAgree.ne_zero_of_cancel (found : requestAt position = some (.cancel inOwner)) :
    position ≠ 0 := by
  intro first
  rw [(agree.only position).mpr first] at found
  cases found

theorem RunAgree.ne_zero_of_resume (found : requestAt position = some .resume) :
    position ≠ 0 := by
  intro first
  rw [(agree.only position).mpr first] at found
  cases found

theorem agree_run (admitted : memory.admits settings statement)
    (inTime : endsInTime stores memory happening statement = true) (visited : VisitMemory) :
    RunAgree requestAt (Function.update visit 0 visited) (memory.remember settings statement
        (executeCall happening statement stores).1) (executeCall happening statement stores).2 := by
  have same := agree.stored_of_isOpen admitted.1
  refine ⟨agree.only, Or.inl (record_executeCall same admitted.2),
    closed_remember agree.closed admitted.2 _, ?_,
    registered_executeCall agree.registered admitted.2, ?_, ?_⟩
  · intro position record found read waits
    rw [Function.update_of_ne (agree.ne_zero_of_resume found)] at read
    have waited := agree.waited position record found read waits
    exact (waited.not_isOpen admitted.1).elim
  · intro position inOwner found
    rw [Function.update_of_ne (agree.ne_zero_of_cancel found)]
    exact agree.unwritten position inOwner found
  · intro position inOwner found flagged
    rw [Function.update_of_ne (agree.ne_zero_of_cancel found)] at flagged
    exact doomed_executeCall (agree.flagged position inOwner found flagged)
      agree.registered admitted.2 inTime

theorem agree_visit {visited : VisitMemory} (read : ∀ record, requestAt position = some .resume →
      visited.read = some record → record.status = .awaitingTools →
        memory.HasWaited) (wrote : requestAt position ≠ some .resume →
      visited.wrote = (visit position).wrote)
    (flagged : visited.flagged = true → (visit position).flagged = true) :
    RunAgree requestAt (Function.update visit position visited) memory
      stores := by
  refine ⟨agree.only, agree.stored, agree.closed, ?_, agree.registered, ?_, ?_⟩
  · intro other record found reads waits
    by_cases same : other = position
    · subst same
      rw [Function.update_self] at reads
      exact read record found reads waits
    · rw [Function.update_of_ne same] at reads
      exact agree.waited other record found reads waits
  · intro other inOwner found
    by_cases same : other = position
    · subst same
      have cancels : requestAt other ≠ some .resume := by
        rw [found]
        intro impossible
        cases impossible
      rw [Function.update_self, wrote cancels]
      exact agree.unwritten other inOwner found
    · rw [Function.update_of_ne same]
      exact agree.unwritten other inOwner found
  · intro other inOwner found flag
    by_cases same : other = position
    · subst same
      rw [Function.update_self] at flag
      exact agree.flagged other inOwner found (flagged flag)
    · rw [Function.update_of_ne same] at flag
      exact agree.flagged other inOwner found flag

theorem agree_flag (found : requestAt position = some (.cancel inOwner))
    (held : stores.handle.isSome = true) (approaching : memory.course = .approaching)
    (kept : memory.escaped = false) :
    RunAgree requestAt (Function.update visit position { visit position with flagged := true })
      memory { stores with handle := some true } := by
  refine ⟨agree.only, agree.stored, agree.closed, ?_, ?_, ?_, ?_⟩
  · intro other record resumes reads waits
    by_cases same : other = position
    · rw [same, found] at resumes
      cases resumes
    · rw [Function.update_of_ne same] at reads
      exact agree.waited other record resumes reads waits
  · intro _
    exact agree.registered held
  · intro other asked cancels
    by_cases same : other = position
    · subst same
      rw [Function.update_self]
      exact agree.unwritten other asked cancels
    · rw [Function.update_of_ne same]
      exact agree.unwritten other asked cancels
  · intro other asked cancels _
    exact ⟨kept, Or.inr ⟨approaching, rfl⟩⟩

theorem agree_cancel (found : requestAt position = some (.cancel inOwner))
    (admitted : (visit position).admits (.cancel inOwner) statement)
    (inTime : cancelsInTime stores memory happening statement = true) :
    RunAgree requestAt (Function.update visit position ((visit position).remember statement
        (executeCall happening statement stores).1))
      memory (executeCall happening statement stores).2 := by
  have noResume {claim : Prop} (resumes : requestAt position = some .resume) : claim := by
    rw [found] at resumes
    cases resumes
  cases statement with
  | cancelLive asked =>
    obtain ⟨unflagged, rfl⟩ := admitted
    by_cases finds : (asked && stores.handle.isSome) = true
    · simp only [executeCall, if_pos finds]
      simp only [cancelsInTime, finds, Bool.not_true, Bool.false_or,
        Bool.and_eq_true, decide_eq_true_eq, Bool.not_eq_true'] at inTime
      exact agree_flag agree found (Bool.and_eq_true_iff.mp finds).2 inTime.1 inTime.2
    · simp only [executeCall, if_neg finds]
      refine agree_visit agree ?_ (fun _ => rfl) ?_
      · intro record resumes
        exact noResume resumes
      · intro impossible
        cases impossible
  | readRecord =>
    simp only [executeCall, executeRun, thrownBy]
    cases happening.thrown with
    | some message =>
      refine agree_visit agree ?_ (fun _ => rfl) (fun flagged => flagged)
      intro record resumes
      exact noResume resumes
    | none =>
      refine agree_visit agree ?_ (fun _ => rfl) (fun flagged => flagged)
      intro record resumes
      exact noResume resumes
  | writeRecord record =>
    obtain ⟨message, thrown⟩ := Option.isSome_iff_exists.mp inTime
    simp only [executeCall, executeRun, thrownBy, thrown]
    refine agree_visit agree ?_ (fun _ => rfl) (fun flagged => flagged)
    intro record resumes
    exact noResume resumes
  | _ => exact admitted.elim

theorem agree_rewrite (waited : memory.HasWaited) (running : record.status = .running) :
    RunAgree requestAt visit memory { stores with record := some record } := by
  refine ⟨agree.only, Or.inr ⟨waited, record, rfl, running⟩, agree.closed,
    agree.waited, agree.registered, agree.unwritten, ?_⟩
  intro position inOwner found flagged
  have doomed := agree.flagged position inOwner found flagged
  exact ⟨doomed.kept, doomed.course⟩

theorem agree_resume (found : requestAt position = some .resume)
    (admitted : (visit position).admits .resume statement) :
    RunAgree requestAt (Function.update visit position ((visit position).remember statement
        (executeCall happening statement stores).1))
      memory (executeCall happening statement stores).2 := by
  cases statement with
  | readRecord =>
    simp only [executeCall, executeRun, thrownBy]
    cases happening.thrown with
    | some message =>
      exact agree_visit agree (fun record => agree.waited position record) (fun _ => rfl)
        fun flagged => flagged
    | none =>
      refine agree_visit agree ?_ (fun _ => rfl) fun flagged => flagged
      intro record _ read waits
      have stored : stores.record = some record := read
      rcases agree.stored with same | resumed
      · exact ⟨record, same ▸ stored, waits⟩
      · exact resumed.1
  | writeRecord record =>
    obtain ⟨before, read, waits, rfl⟩ := admitted
    have waited := agree.waited position before found read waits
    simp only [executeCall, executeRun, thrownBy]
    cases happening.thrown with
    | some message =>
      exact agree_visit agree (fun record => agree.waited position record) (fun _ => rfl)
        fun flagged => flagged
    | none =>
      have visited : RunAgree requestAt (Function.update visit position
            { visit position with wrote := true }) memory stores :=
        agree_visit agree (fun record => agree.waited position record)
          (fun cancels => (cancels found).elim)
          fun flagged => flagged
      exact agree_rewrite visited waited rfl
  | _ => exact admitted.elim

end

structure RunKept (settings : RunSettings) (system : RunSystem) : Prop where
  follow : AllFollow (ownDiscipline settings) .blank (ownEnds settings) system
  visits : AllFollow visitDiscipline .blank visitEnds system
  agree : RunAgree system.requestAt (visitMemory system) (ownMemory settings system) system.shared
  silenced : ∀ position inOwner, system.requestAt position = some (.cancel inOwner) →
      (visitMemory system position).flagged = true →
        ∀ entry after, LastOf system.history position entry after →
          ∀ later ∈ after, isToolCall later = false

section

variable {host : AgentHost} {settings : RunSettings}
  {system next : RunSystem} {position : Nat} {request : RunRequest}
  {statement : RunStatement} {happening : Happening}

theorem runKept_begunRun : RunKept settings (begunRun host settings) := by
  have begun : (⟨⟨none, none⟩, [], []⟩ : RunSystem).start .run
      (serveRun host settings .run) = begunRun host settings := rfl
  have only (position : Nat) :
      (begunRun host settings).requestAt position = some .run ↔ position = 0 := by
    rw [← begun, requestAt_start_eq_some_iff]
    simp [Concurrent.requestAt]
  have noOther {position : Nat} {request : RunRequest}
      (found : (begunRun host settings).requestAt position = some request) :
      request = .run := by
    rw [← begun, requestAt_start_eq_some_iff] at found
    rcases found with older | new
    · cases older
    · exact new.2
  refine ⟨?_, ?_, ⟨only, Or.inl rfl, ?_, ?_, ?_, ?_, ?_⟩, ?_⟩
  · rw [← begun]
    exact follows_start follows_idle (follows_own .run)
  · rw [← begun]
    exact follows_start follows_idle (follows_visit .run)
  · intro record stored
    cases stored
  · intro position record found
    cases noOther found
  · intro held
    cases held
  · intro position inOwner found
    cases noOther found
  · intro position inOwner found
    cases noOther found
  · intro position inOwner found
    cases noOther found

theorem runKept_start (kept : RunKept settings system) (visits : request ≠ .run) :
    RunKept settings (system.start request (serveRun host settings request)) := by
  have unasked : visitMemory system system.calls.length = .blank := by
    apply memoryOf_of_unasked
    intro entry member
    exact Nat.ne_of_lt (kept.visits.below entry member)
  have agree := kept.agree
  refine ⟨follows_start kept.follow (follows_own request),
    follows_start kept.visits (follows_visit request),
    ⟨?_, agree.stored, agree.closed, ?_, agree.registered, ?_, ?_⟩, ?_⟩
  · intro position
    rw [requestAt_start_eq_some_iff, agree.only]
    constructor
    · intro either
      exact either.resolve_right fun new => visits new.2.symm
    · exact Or.inl
  · intro position record found read waits
    rcases requestAt_start_eq_some_iff.mp found with old | new
    · exact agree.waited position record old read waits
    · have before : (visitMemory system position).read = some record := read
      rw [new.1, unasked] at before
      cases before
  · intro position inOwner found
    rcases requestAt_start_eq_some_iff.mp found with old | new
    · exact agree.unwritten position inOwner old
    · show (visitMemory system position).wrote = false
      rw [new.1, unasked]
      rfl
  · intro position inOwner found flagged
    rcases requestAt_start_eq_some_iff.mp found with old | new
    · exact agree.flagged position inOwner old flagged
    · have before : (visitMemory system position).flagged = true := flagged
      rw [new.1, unasked] at before
      cases before
  · intro position inOwner found flagged
    rcases requestAt_start_eq_some_iff.mp found with old | new
    · exact kept.silenced position inOwner old flagged
    · have before : (visitMemory system position).flagged = true := flagged
      rw [new.1, unasked] at before
      cases before

variable {resume : Except Text statement.Answer → RunCall RunReply}
  {outcome : Except Text statement.Answer × RunStores}

theorem visitMemory_answered :
    visitMemory (system.answered position request statement resume outcome) =
      Function.update (visitMemory system) position
        ((visitMemory system position).remember statement outcome.1) :=
  memoryOf_append _ _ _ _ _ _

variable {answer : Except Text statement.Answer}

theorem not_isToolCall_of_doomed {memory : RunMemory} {stores : RunStores}
    (doomed : IsDoomed memory stores) (asks : memory.mayAsk settings statement) :
    isToolCall ⟨position, statement, answer⟩ = false := by
  cases statement with
  | invokeTool toolNamespace operation args =>
    have underway : memory.course = .underway := asks.1
    rcases doomed.course with cancelled | flagged
    · cases cancelled.symm.trans underway
    · cases flagged.1.symm.trans underway
  | _ => rfl

theorem not_isToolCall_of_visit {memory : VisitMemory}
    (visits : request ≠ .run) (admitted : memory.admits request statement) :
    isToolCall ⟨position, statement, answer⟩ = false := by
  cases statement with
  | invokeTool toolNamespace operation args =>
    cases request with
    | run => exact (visits rfl).elim
    | cancel inOwner => exact admitted.elim
    | resume => exact admitted.elim
  | _ => rfl

theorem silenced_answered (kept : RunKept settings system)
    (found : system.Awaits position request statement resume)
    (quiet : ∀ other inOwner, system.requestAt other = some (.cancel inOwner) →
        (visitMemory system other).flagged = true →
          isToolCall ⟨position, statement, outcome.1⟩ = false) :
    ∀ other inOwner, (system.answered position request statement resume outcome).requestAt
          other = some (.cancel inOwner) →
        (visitMemory (system.answered position request statement resume
          outcome) other).flagged = true →
          ∀ entry after, LastOf (system.answered position request statement
            resume outcome).history other entry after →
            ∀ later ∈ after, isToolCall later = false := by
  intro other inOwner asked flagged entry after last later member
  rw [requestAt_answered found] at asked
  by_cases same : position = other
  · rw [lastOf_own_eq_nil last same] at member
    cases member
  · rw [visitMemory_answered, Function.update_of_ne (Ne.symm same)] at flagged
    obtain ⟨front, rfl, older⟩ := lastOf_of_append_other last same
    rcases List.mem_append.mp member with old | new
    · exact kept.silenced other inOwner asked flagged entry front older later old
    · rw [List.mem_singleton.mp new]
      exact quiet other inOwner asked flagged

theorem ownMemory_answered_other (other : position ≠ 0) :
    ownMemory settings (system.answered position request statement resume outcome) =
      ownMemory settings system :=
  memoryOf_append_other _ _ _ _ _ other

section

variable (kept : RunKept settings system)

include kept

theorem runKept_advance (inTime : cancelsAtCheck settings system (.advance position happening) =
      true) (advanced : system.advance executeCall position happening = some next) :
    RunKept settings next := by
  obtain ⟨request, statement, resume, found, rfl⟩ :=
    advance_eq_some_iff.mp advanced
  have agree := kept.agree
  have asked : system.requestAt position = some request := requestAt_of_found found
  have awaits : system.awaiting position = some statement :=
    awaiting_eq_some_iff.mpr ⟨request, resume, found⟩
  have visitAdmitted := kept.visits.admitted found
  simp only [cancelsAtCheck, asked, awaits] at inTime
  have visits : AllFollow visitDiscipline .blank visitEnds
      (system.answered position request statement resume
        (executeCall happening statement system.shared)) :=
    follows_answered kept.visits found trivial
  cases request with
  | run =>
    have first := (agree.only position).mp asked
    subst first
    have admitted : (ownMemory settings system).admits settings statement :=
      kept.follow.admitted found
    have same := agree.stored_of_isOpen admitted.1
    refine ⟨follows_answered kept.follow found (possible_executeCall same), visits, ?_, ?_⟩
    · rw [visitMemory_answered, funext (requestAt_answered found)]
      have own : ownMemory settings (system.answered 0 .run statement
          resume (executeCall happening statement system.shared)) =
            (ownMemory settings system).remember settings statement
              (executeCall happening statement system.shared).1 :=
        memoryOf_append_own _ _ _ _ _ _
      rw [own]
      exact agree_run agree admitted inTime _
    · apply silenced_answered kept found
      intro other inOwner cancels flagged
      exact not_isToolCall_of_doomed (agree.flagged other inOwner cancels flagged) admitted.2
  | cancel inOwner =>
    refine ⟨follows_answered kept.follow found trivial, visits, ?_, ?_⟩
    · rw [visitMemory_answered, funext (requestAt_answered found),
        ownMemory_answered_other (agree.ne_zero_of_cancel asked)]
      exact agree_cancel agree asked visitAdmitted inTime
    · apply silenced_answered kept found
      intro other _ _ _
      refine not_isToolCall_of_visit ?_ visitAdmitted
      intro impossible
      cases impossible
  | resume =>
    refine ⟨follows_answered kept.follow found trivial, visits, ?_, ?_⟩
    · rw [visitMemory_answered, funext (requestAt_answered found),
        ownMemory_answered_other (agree.ne_zero_of_resume asked)]
      exact agree_resume agree asked visitAdmitted
    · apply silenced_answered kept found
      intro other _ _ _
      refine not_isToolCall_of_visit ?_ visitAdmitted
      intro impossible
      cases impossible

theorem runKept_runStep {act : RunAct} (inTime : cancelsAtCheck settings system act = true)
    (taken : runStep host settings system act = some next) :
    RunKept settings next := by
  cases act with
  | start request =>
    by_cases runs : request = .run
    · rw [runStep, if_pos runs] at taken
      cases taken
    · rw [runStep, if_neg runs] at taken
      cases taken
      exact runKept_start kept runs
  | advance position happening => exact runKept_advance kept inTime taken

theorem settled_of_terminal (stored : system.shared.record = some record)
    (terminal : isTerminal record.status = true) :
    (ownMemory settings system).stored = some record := by
  rcases kept.agree.stored with same | resumed
  · exact same ▸ stored
  · obtain ⟨_, other, again, running⟩ := resumed
    rw [stored] at again
    rw [← Option.some.inj again] at running
    rw [running] at terminal
    cases terminal

theorem doomed_of_hasCancelled (cancelled : HasCancelled system position) :
    ∃ inOwner, system.requestAt position = some (.cancel inOwner) ∧
      (visitMemory system position).flagged = true := by
  obtain ⟨inOwner, found⟩ := cancelled
  have asked : system.requestAt position = some (.cancel inOwner) := requestAt_of_found found
  refine ⟨inOwner, asked, ?_⟩
  have ended : (visitMemory system position).flagged = true ∨
      (visitMemory system position).wrote = true :=
    kept.visits.ended found
  rcases ended with flagged | wrote
  · exact flagged
  · rw [kept.agree.unwritten position inOwner asked] at wrote
    cases wrote

theorem cancelHeld_of_runKept : CancelHeld system := by
  refine ⟨?_, ?_, ?_⟩
  · intro record stored terminal
    exact kept.agree.closed record (settled_of_terminal kept stored terminal) terminal
  · intro position cancelled
    obtain ⟨inOwner, asked, flagged⟩ :=
      doomed_of_hasCancelled kept cancelled
    exact kept.silenced position inOwner asked flagged
  · intro position cancelled outcome found
    obtain ⟨inOwner, asked, flagged⟩ :=
      doomed_of_hasCancelled kept cancelled
    have doomed := kept.agree.flagged position inOwner asked flagged
    have ended : ownEnds settings .run (ownMemory settings system) outcome :=
      kept.follow.ended found
    cases outcome with
    | error thrown =>
      have escaped : HasEscaped (ownMemory settings system) := ended
      cases doomed.kept.symm.trans escaped.escaped
    | ok reply =>
      cases reply with
      | finished record =>
        have ran : RanWell settings (ownMemory settings system) record := ended
        have course : (ownMemory settings system).course = .cancelled := by
          rcases doomed.course with cancelled | flagged
          · exact cancelled
          · exact (ran.decided flagged.1).elim
        have status := ran.flagged course
        refine ⟨record, ?_, status⟩
        rcases kept.agree.stored with same | resumed
        · exact same.trans ran.stored
        · obtain ⟨⟨other, stored, waits⟩, _⟩ := resumed
          rw [ran.stored] at stored
          rw [← Option.some.inj stored, status] at waits
          cases waits
      | cancelled answer => exact ended.elim
      | resumed record => exact ended.elim

end

theorem record_kept_executeCall {stores : RunStores}
    (silent : ∀ record, statement = .writeRecord record → happening.thrown.isSome = true) :
    (executeCall happening statement stores).2.record = stores.record := by
  cases statement with
  | writeRecord record =>
    obtain ⟨message, thrown⟩ :=
      Option.isSome_iff_exists.mp (silent record rfl)
    simp only [executeCall, executeRun, thrownBy, thrown]
  | register => rfl
  | unregister => rfl
  | isCancelled => rfl
  | cancelLive inOwner =>
    unfold executeCall
    dsimp only
    split <;> rfl
  | _ =>
    simp only [executeCall, executeRun]
    split <;> rfl

theorem record_of_terminal {act : RunAct} (kept : RunKept settings system)
    (inTime : cancelsAtCheck settings system act = true)
    (taken : runStep host settings system act = some next)
    (stored : system.shared.record = some record) (terminal : isTerminal record.status = true) :
    next.shared.record = some record := by
  have own := settled_of_terminal kept stored terminal
  cases act with
  | start request =>
    by_cases runs : request = .run
    · rw [runStep, if_pos runs] at taken
      cases taken
    · rw [runStep, if_neg runs] at taken
      cases taken
      exact stored
  | advance position happening =>
    obtain ⟨request, statement, resume, found, rfl⟩ :=
      advance_eq_some_iff.mp taken
    have asked : system.requestAt position = some request := requestAt_of_found found
    have awaits : system.awaiting position = some statement :=
      awaiting_eq_some_iff.mpr ⟨request, resume, found⟩
    have visitAdmitted := kept.visits.admitted found
    simp only [cancelsAtCheck, asked, awaits] at inTime
    cases request with
    | run =>
      have first := (kept.agree.only position).mp asked
      subst first
      have admitted : (ownMemory settings system).admits settings statement :=
        kept.follow.admitted found
      rw [admitted.1 record own] at terminal
      cases terminal
    | cancel inOwner =>
      refine (record_kept_executeCall ?_).trans stored
      intro written same
      subst same
      exact inTime
    | resume =>
      refine (record_kept_executeCall ?_).trans stored
      intro written same
      subst same
      obtain ⟨before, read, waits, _⟩ := visitAdmitted
      obtain ⟨other, again, waiting⟩ :=
        kept.agree.waited position before asked read waits
      rw [own] at again
      rw [Option.some.inj again, waiting] at terminal
      cases terminal

end

/-- In every run in which no cancel writes the record, each that flags the
run does so where the loop comes to its check next, and nothing escapes from
a run that is flagged, terminal records stay as they are and cancels hold. -/
theorem terminal_runs_stay_and_cancels_hold (host : AgentHost) (settings : RunSettings)
    (first later : List RunAct) (middle system : RunSystem)
    (meets : StepsMeet (runStep host settings)
      (fun state act => cancelsAtCheck settings state act = true)
      (begunRun host settings) (first ++ later))
    (reached : runFrom (runStep host settings) (begunRun host settings) first = some middle)
    (executed : runFrom (runStep host settings) middle later = some system) :
    CancelHeld middle ∧ CancelHeld system ∧ ∀ record, middle.shared.record = some record →
        isTerminal record.status = true → ∃ now, system.shared.record = some now ∧
            now.status = record.status := by
  obtain ⟨meetsFirst, meetsLater⟩ := meets.split reached
  have keptMiddle : RunKept settings middle :=
    invariant_of_stepsMeet (RunKept settings)
      (fun _ _ _ kept inTime taken => runKept_runStep kept inTime taken)
      runKept_begunRun meetsFirst reached
  have keptLast : RunKept settings system :=
    invariant_of_stepsMeet (RunKept settings)
      (fun _ _ _ kept inTime taken => runKept_runStep kept inTime taken)
      keptMiddle meetsLater executed
  refine ⟨cancelHeld_of_runKept keptMiddle, cancelHeld_of_runKept keptLast, ?_⟩
  intro record stored terminal
  have stays : RunKept settings system ∧ system.shared.record = some record :=
    invariant_of_stepsMeet (fun state => RunKept settings state ∧
        state.shared.record = some record)
      (fun _ _ _ kept inTime taken =>
        ⟨runKept_runStep kept.1 inTime taken,
          record_of_terminal kept.1 inTime taken kept.2 terminal⟩)
      ⟨keptMiddle, stored⟩ meetsLater executed
  exact ⟨record, stays.2, rfl⟩

/-- Statements of the call at a position, of which nothing fails. -/
def passes (position number : Nat) : List RunAct :=
  List.replicate number (.advance position answersAtOnce)

/-- A cancel where the run has its handle, before the first turn. -/
def cancelledInOwner : List RunAct :=
  passes 0 5 ++ .start (.cancel true) :: passes 1 1 ++ passes 0 6

/-- A cancel in another process, of a run that has ended. -/
def cancelledAgain : List RunAct :=
  .start (.cancel false) :: passes 2 2

def statusOf (system : RunSystem) : Option AgentRunStatus :=
  system.shared.record.map StoredAgentRun.status

theorem terminal_runs_stay_and_cancels_hold_inOwner :
    ∃ middle system, runFrom (runStep plainHost plainSettings)
        (begunRun plainHost plainSettings) cancelledInOwner = some middle ∧
      runFrom (runStep plainHost plainSettings) middle cancelledAgain = some system ∧
      statusOf middle = some .cancelled ∧ CancelHeld middle ∧ CancelHeld system := by
  have executed :
      (runFrom (runStep plainHost plainSettings)
        (begunRun plainHost plainSettings) cancelledInOwner).map statusOf =
          some (some .cancelled) := by
    decide +kernel
  have both :
      (runFrom (runStep plainHost plainSettings) (begunRun plainHost plainSettings)
        (cancelledInOwner ++ cancelledAgain)).isSome = true := by
    decide +kernel
  obtain ⟨middle, reached, status⟩ := Option.map_eq_some_iff.mp executed
  obtain ⟨system, whole⟩ := Option.isSome_iff_exists.mp both
  rw [runFrom_append, reached, Option.bind_some] at whole
  have held := terminal_runs_stay_and_cancels_hold plainHost plainSettings
    cancelledInOwner cancelledAgain middle system (by decide +kernel)
    reached whole
  exact ⟨middle, system, reached, whole, status, held.1, held.2.1⟩

/-- A cancel in another process while the first turn has not begun. -/
def cancelledElsewhere : List RunAct :=
  passes 0 5 ++ .start (.cancel false) :: passes 1 3

theorem cancelled_run_succeeds :
    ¬ ∀ (host : AgentHost) (settings : RunSettings)
      (first later : List RunAct) (middle system : RunSystem),
      runFrom (runStep host settings) (begunRun host settings) first = some middle →
      runFrom (runStep host settings) middle later = some system →
      CancelHeld middle ∧ CancelHeld system ∧ ∀ record, middle.shared.record = some record →
          isTerminal record.status = true → ∃ now, system.shared.record = some now ∧
              now.status = record.status := by
  intro claimed
  have executed :
      (runFrom (runStep plainHost plainSettings)
        (begunRun plainHost plainSettings) cancelledElsewhere).map
          statusOf = some (some .cancelled) := by
    decide +kernel
  have both :
      (runFrom (runStep plainHost plainSettings) (begunRun plainHost plainSettings)
        (cancelledElsewhere ++ passes 0 17)).map statusOf = some (some .succeeded) := by
    decide +kernel
  obtain ⟨middle, reached, cancelled⟩ := Option.map_eq_some_iff.mp executed
  obtain ⟨system, whole, succeeded⟩ := Option.map_eq_some_iff.mp both
  rw [runFrom_append, reached, Option.bind_some] at whole
  obtain ⟨record, stored, status⟩ := Option.map_eq_some_iff.mp cancelled
  obtain ⟨_, _, stays⟩ :=
    claimed _ _ _ _ middle system reached whole
  obtain ⟨now, storedNow, same⟩ := stays record stored (by rw [status]; rfl)
  rw [statusOf, storedNow, Option.map_some, same, status] at succeeded
  cases succeeded

end Aprovan.Agents
