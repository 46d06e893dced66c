import Aprovan.Sandboxes.Queue

/-!
# A scheduled run is claimed at most once

A claim writes the entry whether or not it still is as the claim read it, and
the read-back tells hosts apart, not calls; the other writers do not look
whether the entry is still there.  Where none of this matters, a run is claimed
at most once and never after it was cancelled.
-/

namespace Aprovan.Sandboxes.Queue

open Aprovan.Library Aprovan.Server

inductive QueueRequest where
  | enqueueRun (id : Text) (run : QueuedRun)
  | cancelRun (id : Text)
  | updateQueuedRun (run : QueuedRun)
  | finishRun (run : QueuedRun) (outcome : RunOutcome)
  | claimRun (rounds : Nat) (host : SandboxHostRecord)
      (maxWaitMs : Option Nat)

inductive QueueReply where
  | run (run : QueuedRun)
  | written
  | claimed (run : Option QueuedRun)

def serveQueue : QueueRequest → QueueCall QueueReply
  | .enqueueRun id run => do pure (.run (← enqueueRun id run))
  | .cancelRun id => do pure (.run (← cancelRun id))
  | .updateQueuedRun run => do
      updateQueuedRun run
      pure .written
  | .finishRun run outcome => do pure (.run (← finishRun run outcome))
  | .claimRun rounds host maxWaitMs => do
      pure (.claimed (← claimRun rounds host maxWaitMs))

abbrev QueueSystem :=
  Concurrent QueueStores QueueRequest QueueStatement.Answer QueueFailure QueueReply

inductive QueueAct where
  | start (request : QueueRequest)
  /-- The statement that the call at a position awaits is executed. -/
  | advance (position : Nat) (refused : Bool)
  | tick (milliseconds : Nat)
  /-- An entry past its time to live disappears. -/
  | reap (key : Text)

def isExpired (clock : Nat) (key : Text) (entry : QueueEntry) : Bool :=
  entry.key = key && entry.expiresAt < clock / 1000

def queueStep (backend : RecordBackend) (toISOString : Nat → Text) (system : QueueSystem) :
    QueueAct → Option QueueSystem
  | .start request => some (system.start request (serveQueue request))
  | .advance position refused =>
    system.advance (executeStatement backend toISOString) position refused
  | .tick milliseconds =>
    some { system with
      shared := { system.shared with
        clock := system.shared.clock + milliseconds } }
  | .reap key =>
    some { system with
      shared := { system.shared with
        queue := system.shared.queue.keep
          (!isExpired system.shared.clock key ·) } }

def noQueueCalls (stores : QueueStores) : QueueSystem :=
  ⟨stores, [], []⟩

abbrev QueueExecuted := Executed QueueStatement.Answer QueueFailure

def writesKey (key : Text) : QueueExecuted → Bool
  | ⟨_, .setQueued entry, .ok _⟩ => entry.key = key
  | _ => false

/-- The statement deleted what was under the key, if anything was. -/
def deletesKey (key : Text) : QueueExecuted → Bool
  | ⟨_, .deleteQueued deleted, .ok _⟩ => deleted = key
  | _ => false

def removesKey (key : Text) : QueueExecuted → Bool
  | ⟨_, .deleteQueued deleted, .ok true⟩ => deleted = key
  | _ => false

structure ClaimedOnce (system : QueueSystem) : Prop where
  /-- At most one claim returns a run. -/
  once : ∀ (first second : Nat) rounds host maxWaitMs run otherRounds otherHost otherWaitMs other,
    system.calls[first]? = some ⟨.claimRun rounds host maxWaitMs,
          .done (.ok (.claimed (some run)))⟩ →
      system.calls[second]? = some ⟨.claimRun otherRounds otherHost otherWaitMs,
            .done (.ok (.claimed (some other)))⟩ →
        queueKey run = queueKey other → first = second
  /-- A claim all of whose statements come after those of a cancellation does
  not return the cancelled run. -/
  notAfterCancel : ∀ (cancelling claiming : Nat) id cancelled rounds host
      maxWaitMs run before after,
    system.calls[cancelling]? = some ⟨.cancelRun id, .done (.ok (.run cancelled))⟩ →
      system.calls[claiming]? = some ⟨.claimRun rounds host maxWaitMs,
            .done (.ok (.claimed (some run)))⟩ →
        system.history = before ++ after → (∀ entry ∈ after, entry.caller ≠ cancelling) →
            (∀ entry ∈ before, entry.caller ≠ claiming) → queueKey run ≠ queueKey cancelled
  /-- What was removed from the queue is not written back. -/
  notWrittenBack : ∀ before removal after key, system.history = before ++ removal :: after →
      removesKey key removal = true → ∀ entry ∈ after, writesKey key entry = false

def returnedKey : Call QueueRequest QueueStatement.Answer QueueFailure QueueReply → Option Text
  | ⟨.claimRun _ _ _, .done (.ok (.claimed (some run)))⟩ => some (queueKey run)
  | _ => none

def lastWriter (history : List QueueExecuted) (key : Text) : Option Nat :=
  (history.reverse.find? (writesKey key)).map (·.caller)

/-- The last statement of the call was an answered write. -/
def justWrote (history : List QueueExecuted) (position : Nat) : Bool :=
  match history.reverse.find? fun entry => entry.caller = position with
  | some ⟨_, .setQueued _, .ok _⟩ => true
  | _ => false

def MayWrite (system : QueueSystem) (entry : QueueEntry) : QueueRequest → Prop
  | .enqueueRun _ _ => ∀ executed ∈ system.history, deletesKey entry.key executed = false
  | .claimRun _ _ _ =>
    (system.shared.queue.find? entry.key).isSome ∧
      ∀ call ∈ system.calls, returnedKey call ≠ some entry.key
  | _ => (system.shared.queue.find? entry.key).isSome

def MayReadBack (system : QueueSystem) (position : Nat) (key : Text) : QueueRequest → Prop
  | .claimRun _ host _ =>
    justWrote system.history position → ∀ stored ∈ system.shared.queue.find? key,
        stored.run.hostId = some host.id → lastWriter system.history key = some position
  | _ => True

/-- What the call of the request at the position may be about to ask, if it
is answered. -/
def MayAsk (system : QueueSystem) (position : Nat) (request : QueueRequest) :
    Option QueueStatement → Prop
  | some (.setQueued entry) => MayWrite system entry request
  | some (.getQueued key) => MayReadBack system position key request
  | _ => True

/-- What a call of the request may be about to ask, if it is refused. -/
def MayFail : QueueRequest → Option QueueStatement → Prop
  | .cancelRun _, some (.deleteQueued _) => False
  | _, _ => True

/-- The condition on the execution of one statement. -/
def QueueCondition (system : QueueSystem) : QueueAct → Prop
  | .advance position false =>
    ∀ request ∈ system.requestAt position,
      MayAsk system position request (system.awaiting position)
  | .advance position true =>
    ∀ request ∈ system.requestAt position, MayFail request (system.awaiting position)
  | _ => True

instance (system : QueueSystem) (entry : QueueEntry)
    (request : QueueRequest) : Decidable (MayWrite system entry request) := by
  unfold MayWrite
  split <;> infer_instance

instance (system : QueueSystem) (position : Nat) (key : Text) (request : QueueRequest) :
    Decidable (MayReadBack system position key request) := by
  unfold MayReadBack
  split <;> infer_instance

instance (system : QueueSystem) (position : Nat) (request : QueueRequest)
    (asked : Option QueueStatement) :
    Decidable (MayAsk system position request asked) := by
  unfold MayAsk
  split <;> infer_instance

instance (request : QueueRequest) (asked : Option QueueStatement) :
    Decidable (MayFail request asked) := by
  unfold MayFail
  split <;> infer_instance

instance (system : QueueSystem) (act : QueueAct) : Decidable (QueueCondition system act) :=
  match act with
  | .advance position false =>
    inferInstanceAs (Decidable (∀ request ∈ system.requestAt position,
      MayAsk system position request (system.awaiting position)))
  | .advance position true =>
    inferInstanceAs (Decidable (∀ request ∈ system.requestAt position,
      MayFail request (system.awaiting position)))
  | .start _ => .isTrue trivial
  | .tick _ => .isTrue trivial
  | .reap _ => .isTrue trivial

/-- What a claim does with an entry: it has just written it, or it has just
read it back as its own. -/
inductive ClaimPhase where
  | searching
  | wrote (key : Text)
  | confirmed (key : Text)
  deriving DecidableEq

structure QueueMemory where
  phase : ClaimPhase
  deleted : List Text

def noMemory : QueueMemory :=
  ⟨.searching, []⟩

def QueueRequest.host? : QueueRequest → Option SandboxHostRecord
  | .claimRun _ host _ => some host
  | _ => none

def nextPhase (host : Option SandboxHostRecord) (phase : ClaimPhase) :
    (statement : QueueStatement) → Except QueueFailure statement.Answer → ClaimPhase
  | .setQueued entry, .ok _ => .wrote entry.key
  | .getQueued key, .ok (some run) =>
    if phase = .wrote key ∧ run.hostId = host.map (·.id) then .confirmed key
    else .searching
  | _, _ => .searching

/-- An entry is read under its own key, and a cancellation's deletion is
answered. -/
def queueDiscipline (request : QueueRequest) :
    Discipline QueueStatement.Answer QueueFailure QueueMemory where
  admits _ _ := True
  possible _ statement answer :=
    match statement, answer with
    | .getQueued key, .ok (some run) => queueKey run = key
    | .deleteQueued _, .error _ =>
      match request with
      | .cancelRun _ => False
      | _ => True
    | _, _ => True
  remember memory statement answer :=
    { phase := nextPhase request.host? memory.phase statement answer
      deleted :=
        match statement, answer with
        | .deleteQueued key, .ok _ => key :: memory.deleted
        | _, _ => memory.deleted }

/-- A claim read back what it returns, and a cancellation deleted it. -/
def QueueEnds (request : QueueRequest) (memory : QueueMemory)
    (outcome : Except QueueFailure QueueReply) : Prop :=
  match request, outcome with
  | .claimRun _ _ _, .ok (.claimed (some run)) => memory.phase = .confirmed (queueKey run)
  | .cancelRun _, .ok (.run run) => queueKey run ∈ memory.deleted
  | _, _ => True

variable {key : Text} {memory : QueueMemory}

section

variable {rounds : Nat} {host : SandboxHostRecord} {maxWaitMs : Option Nat}

abbrev claimDiscipline (rounds : Nat) (host : SandboxHostRecord) (maxWaitMs : Option Nat) :
    Discipline QueueStatement.Answer QueueFailure QueueMemory :=
  queueDiscipline (.claimRun rounds host maxWaitMs)

/-- The call has just read back the run that it found, if it found one. -/
def FoundConfirmed (memory : QueueMemory) (outcome : Except QueueFailure (Option QueuedRun)) :
    Prop :=
  ∀ run, outcome = .ok (some run) → memory.phase = .confirmed (queueKey run)

theorem foundConfirmed_none (memory : QueueMemory) : FoundConfirmed memory (.ok none) := by
  intro run same
  cases same

theorem foundConfirmed_error (memory : QueueMemory) (thrown : QueueFailure) :
    FoundConfirmed memory (.error thrown) := by
  intro run same
  cases same

theorem follows_readBack (wrote : memory.phase = .wrote key) :
    Follows (claimDiscipline rounds host maxWaitMs) FoundConfirmed memory
      (do
        let readBack ← query (.getQueued key)
        pure (readBack.filter fun stored => stored.hostId = some host.id)) := by
  apply follows_bind
  apply follows_perform trivial
  intro answer shown
  match answer with
  | .error thrown => exact foundConfirmed_error _ thrown
  | .ok none => exact follows_pure (foundConfirmed_none _)
  | .ok (some run) =>
    apply follows_pure
    intro found same
    obtain ⟨isRun, own⟩ := Option.filter_eq_some_iff.mp (Except.ok.inj same)
    have runKey : queueKey run = key := shown
    have isOwn : run.hostId = some host.id := by
      rw [← Option.some.inj isRun] at own
      exact of_decide_eq_true own
    rw [← Option.some.inj isRun, runKey]
    exact if_pos ⟨wrote, isOwn⟩

theorem follows_claimEntry (key : Text) (memory : QueueMemory) :
    Follows (claimDiscipline rounds host maxWaitMs) FoundConfirmed memory
      (claimEntry host key) := by
  apply follows_bind
  apply follows_perform trivial
  intro answer possible
  match answer with
  | .error thrown => exact foundConfirmed_error _ thrown
  | .ok none => exact follows_pure (foundConfirmed_none _)
  | .ok (some run) =>
    have own : queueKey run = key := possible
    show Follows _ _ _ (if (run.status = .pending && hostSatisfies host run) = true then _
        else _)
    by_cases taken : (run.status = .pending && hostSatisfies host run) = true
    · rw [if_pos taken]
      apply follows_bind_any (fun _ _ => trivial) foundConfirmed_error
      intro claimedAt stamped
      apply follows_bind
      refine follows_await trivial (fun thrown _ => foundConfirmed_error _ thrown) ?_
      intro now _
      refine follows_await trivial (fun thrown _ => foundConfirmed_error _ thrown) ?_
      intro stored _
      apply follows_readBack
      show ClaimPhase.wrote (queueKey run) = .wrote key
      rw [own]
    · rw [if_neg taken]
      exact follows_pure (foundConfirmed_none _)

theorem follows_orElse {first : QueueCall (Option QueuedRun)} {next : QueueCall (Option QueuedRun)}
    (searched : Follows (claimDiscipline rounds host maxWaitMs) FoundConfirmed
      memory first) (otherwise : ∀ memory,
      Follows (claimDiscipline rounds host maxWaitMs) FoundConfirmed memory next) :
    Follows (claimDiscipline rounds host maxWaitMs) FoundConfirmed memory (first >>= fun found =>
        match found with
        | some run => pure (some run)
        | none => next) := by
  apply follows_bind
  apply searched.weaken
  intro afterwards outcome ended
  match outcome with
  | .error thrown => exact foundConfirmed_error _ thrown
  | .ok none => exact otherwise afterwards
  | .ok (some run) => exact follows_pure ended

theorem follows_claimFirst (keys : List Text) (memory : QueueMemory) :
    Follows (claimDiscipline rounds host maxWaitMs) FoundConfirmed memory
      (claimFirst host keys) := by
  induction keys generalizing memory with
  | nil => exact follows_pure (foundConfirmed_none memory)
  | cons key rest ih => exact follows_orElse (follows_claimEntry key memory) ih

theorem follows_claimImages (images : List Text) (memory : QueueMemory) :
    Follows (claimDiscipline rounds host maxWaitMs) FoundConfirmed memory
      (claimImages host images) := by
  induction images generalizing memory with
  | nil => exact follows_pure (foundConfirmed_none memory)
  | cons image rest ih =>
    apply follows_bind_any (fun _ _ => trivial) foundConfirmed_error
    intro keys listed
    exact follows_orElse (follows_claimFirst (sortTexts keys) listed) ih

theorem follows_pollQueue (deadline polls : Nat) (memory : QueueMemory) :
    Follows (claimDiscipline rounds host maxWaitMs) FoundConfirmed memory
      (pollQueue host deadline polls) := by
  induction polls generalizing memory with
  | zero => exact follows_claimImages (hostImages host) memory
  | succ polls ih =>
    apply follows_orElse (follows_claimImages (hostImages host) memory)
    intro later
    apply follows_bind_any (fun _ _ => trivial) foundConfirmed_error
    intro now clocked
    show Follows _ _ _ (if deadline ≤ now then _ else _)
    by_cases overdue : deadline ≤ now
    · rw [if_pos overdue]
      exact follows_pure (foundConfirmed_none _)
    · rw [if_neg overdue]
      exact ih clocked

theorem follows_claimRun (memory : QueueMemory) :
    Follows (claimDiscipline rounds host maxWaitMs) FoundConfirmed memory
      (claimRun rounds host maxWaitMs) := by
  show Follows _ _ _ (if hostImages host = [] then _ else _)
  by_cases offersNothing : hostImages host = []
  · rw [if_pos offersNothing]
    exact follows_pure (foundConfirmed_none memory)
  · rw [if_neg offersNothing]
    apply follows_bind_any (fun _ _ => trivial) foundConfirmed_error
    intro now clocked
    exact follows_pollQueue _ rounds clocked

end

def AnsweredDeleted (memory : QueueMemory) (outcome : Except QueueFailure QueuedRun) : Prop :=
  ∀ run, outcome = .ok run → queueKey run ∈ memory.deleted

theorem answeredDeleted_error (memory : QueueMemory) (thrown : QueueFailure) :
    AnsweredDeleted memory (.error thrown) := by
  intro run same
  cases same

theorem follows_finishRun (id : Text) (run : QueuedRun)
    (outcome : RunOutcome) (memory : QueueMemory) :
    Follows (queueDiscipline (.cancelRun id)) AnsweredDeleted memory (finishRun run outcome) := by
  apply follows_bind_any (fun _ _ => trivial) answeredDeleted_error
  intro finishedAt stamped
  apply follows_bind_any (fun _ _ => trivial) answeredDeleted_error
  intro recorded written
  apply follows_bind
  apply follows_rescue
  refine follows_await trivial (fun _ possible => possible.elim) ?_
  intro removed possible
  apply follows_pure
  intro finished same
  rw [← Except.ok.inj same]
  exact List.mem_cons_self

theorem follows_cancelRun (id : Text) (memory : QueueMemory) :
    Follows (queueDiscipline (.cancelRun id)) AnsweredDeleted memory (cancelRun id) := by
  show Follows _ _ _ (if isSandboxId id = false then _ else _)
  by_cases malformed : isSandboxId id = false
  · rw [if_pos malformed]
    exact follows_raise (answeredDeleted_error _ _)
  · rw [if_neg malformed]
    apply follows_bind_any (fun _ _ => trivial) answeredDeleted_error
    intro found afterwards
    match found with
    | none => exact follows_raise (answeredDeleted_error _ _)
    | some run =>
      show Follows _ _ _ (if run.status ≠ .pending then _ else _)
      by_cases taken : run.status ≠ .pending
      · rw [if_pos taken]
        exact follows_raise (answeredDeleted_error _ _)
      · rw [if_neg taken]
        exact follows_finishRun id run _ afterwards

theorem follows_serveQueue (request : QueueRequest) :
    Follows (queueDiscipline request) (QueueEnds request) noMemory (serveQueue request) := by
  cases request with
  | claimRun rounds host maxWaitMs =>
    apply follows_bind
    apply (follows_claimRun _).weaken
    intro memory outcome ended
    match outcome with
    | .error thrown => trivial
    | .ok none => exact follows_pure trivial
    | .ok (some run) => exact follows_pure (ended run rfl)
  | cancelRun id =>
    refine follows_then (follows_cancelRun id _) (fun _ _ _ => trivial) ?_
    intro memory run ended
    exact follows_pure (ended run rfl)
  | enqueueRun id run =>
    apply follows_bind_any (fun _ _ => trivial) (fun _ _ => trivial)
    intro queued memory
    exact follows_pure trivial
  | updateQueuedRun run =>
    apply follows_bind_any (fun _ _ => trivial) (fun _ _ => trivial)
    intro written memory
    exact follows_pure trivial
  | finishRun run outcome =>
    apply follows_bind_any (fun _ _ => trivial) (fun _ _ => trivial)
    intro finished memory
    exact follows_pure trivial

theorem justWrote_append_own (history : List QueueExecuted) (position : Nat)
    (entry : QueueEntry) (answer : Unit) :
    justWrote (history ++ [⟨position, .setQueued entry, .ok answer⟩]) position = true := by
  simp [justWrote]

variable {history : List QueueExecuted} {position : Nat}

theorem justWrote_append_other {entry : QueueExecuted} (other : entry.caller ≠ position) :
    justWrote (history ++ [entry]) position = justWrote history position := by
  simp [justWrote, other]

def PhaseShown (position : Nat) (history : List QueueExecuted) (memory : QueueMemory) : Prop :=
  (∀ key, memory.phase = .wrote key ∨ memory.phase = .confirmed key →
    ∃ entry ∈ history, entry.caller = position ∧ writesKey key entry) ∧
  (∀ key, memory.phase = .wrote key → justWrote history position) ∧
  ∀ key ∈ memory.deleted, ∃ entry ∈ history, entry.caller = position ∧ deletesKey key entry

theorem shown_append {holds : QueueExecuted → Prop} (last : QueueExecuted)
    (earlier : ∃ entry ∈ history, entry.caller = position ∧ holds entry) :
    ∃ entry ∈ history ++ [last], entry.caller = position ∧ holds entry := by
  obtain ⟨entry, member, facts⟩ := earlier
  exact ⟨entry, List.mem_append_left _ member, facts⟩

theorem phaseShown_own {request : QueueRequest} {statement : QueueStatement}
    {answer : Except QueueFailure statement.Answer}
    (shown : PhaseShown position history memory) :
    PhaseShown position (history ++ [⟨position, statement, answer⟩])
      ((queueDiscipline request).remember memory statement answer) := by
  obtain ⟨phases, _, deletions⟩ := shown
  have isLast := List.mem_append_right history
    (List.mem_singleton_self (⟨position, statement, answer⟩ : QueueExecuted))
  have kept (key : Text) (member : key ∈ memory.deleted) :=
    shown_append ⟨position, statement, answer⟩ (deletions key member)
  match statement, answer with
  | .setQueued entry, .ok written =>
    refine ⟨?_, ?_, kept⟩
    · intro key isPhase
      have same : entry.key = key := by
        rcases isPhase with wrote | confirmed
        · exact ClaimPhase.wrote.inj wrote
        · cases confirmed
      exact ⟨_, isLast, rfl, decide_eq_true same⟩
    · intro key _
      exact justWrote_append_own history position entry written
  | .getQueued asked, .ok (some run) =>
    have phase : ((queueDiscipline request).remember memory
        (.getQueued asked) (.ok (some run))).phase =
        if memory.phase = .wrote asked ∧ run.hostId = request.host?.map (·.id) then
          .confirmed asked
        else
          .searching :=
      rfl
    refine ⟨?_, ?_, kept⟩
    · intro key isPhase
      rw [phase] at isPhase
      by_cases confirms : memory.phase = .wrote asked ∧ run.hostId = request.host?.map (·.id)
      · rw [if_pos confirms] at isPhase
        have same : asked = key := by
          rcases isPhase with wrote | confirmed
          · cases wrote
          · exact ClaimPhase.confirmed.inj confirmed
        exact shown_append _ (phases key (Or.inl (same ▸ confirms.1)))
      · rw [if_neg confirms] at isPhase
        rcases isPhase with wrote | confirmed
        · cases wrote
        · cases confirmed
    · intro key wrote
      rw [phase] at wrote
      split at wrote <;> cases wrote
  | .deleteQueued deleted, .ok removed =>
    refine ⟨?_, nofun, ?_⟩
    · intro key isPhase
      rcases isPhase with wrote | confirmed
      · cases wrote
      · cases confirmed
    · intro key member
      rcases List.mem_cons.mp member with same | older
      · exact ⟨_, isLast, rfl, decide_eq_true same.symm⟩
      · exact kept key older
  | .setQueued _, .error _ | .deleteQueued _, .error _ |
      .getQueued _, .error _ | .getQueued _, .ok none | .now, _ |
      .timestamp, _ | .listQueue _, _ | .writeHistory _, _ =>
      refine ⟨?_, nofun, kept⟩
      intro key isPhase
      rcases isPhase with wrote | confirmed
      · cases wrote
      · cases confirmed

theorem phaseShown_memoryOf (request : QueueRequest)
    (history : List QueueExecuted) (position : Nat) :
    PhaseShown position history (memoryOf (queueDiscipline request) noMemory history position) := by
  refine memoryOf_induction (queueDiscipline request) noMemory position
    (PhaseShown position) ?start ?own ?other history
  case start =>
    refine ⟨?_, nofun, nofun⟩
    intro key isPhase
    rcases isPhase with wrote | confirmed
    · cases wrote
    · cases confirmed
  case own =>
    intro before memory statement answer shown
    exact phaseShown_own shown
  case other =>
    intro before memory entry different shown
    obtain ⟨phases, wrote, deletions⟩ := shown
    refine ⟨?_, ?_, ?_⟩
    · intro key isPhase
      exact shown_append entry (phases key isPhase)
    · intro key isPhase
      rw [justWrote_append_other different]
      exact wrote key isPhase
    · intro key member
      exact shown_append entry (deletions key member)

section

variable (backend : RecordBackend) (toISOString : Nat → Text)
  (refused : Bool) (statement : QueueStatement) (stores : QueueStores)

theorem find?_executeStatement (position : Nat) (key : Text) :
    let executed : QueueExecuted := ⟨position, statement,
      (executeStatement backend toISOString refused statement stores).1⟩
    let queue := (executeStatement backend toISOString refused statement stores).2.queue
    (writesKey key executed = false ∧ deletesKey key executed = false ∧
        queue.find? key = stores.queue.find? key) ∨
      (refused = false ∧ deletesKey key executed = false ∧
        ∃ entry, statement = .setQueued entry ∧ entry.key = key ∧ queue.find? key = some entry) ∨
      (writesKey key executed = false ∧ queue.find? key = none) := by
  intro executed queue
  by_cases turned : (refused && !readsClock statement) = true
  · left
    simp only [executed, queue, executeStatement, if_pos turned]
    cases statement <;> exact ⟨rfl, rfl, trivial⟩
  · simp only [executed, queue, executeStatement, if_neg turned]
    cases statement with
    | setQueued entry =>
      by_cases same : entry.key = key
      · right
        left
        subst same
        have served : refused = false := by simpa [readsClock] using turned
        exact ⟨served, rfl, entry, rfl, rfl, Keyed.find?_put_self stores.queue entry⟩
      · left
        exact ⟨decide_eq_false same, rfl, Keyed.find?_put_of_ne stores.queue same⟩
    | deleteQueued deleted =>
      by_cases same : deleted = key
      · right
        right
        subst same
        exact ⟨rfl, Keyed.find?_erase_self stores.queue deleted⟩
      · left
        exact ⟨rfl, decide_eq_false same, Keyed.find?_erase_of_ne stores.queue same⟩
    | _ =>
      left
      exact ⟨rfl, rfl, rfl⟩

variable {backend toISOString refused statement stores}

theorem queueKey_of_getQueued {run : QueuedRun}
    (answered : (executeStatement backend toISOString refused
      (.getQueued key) stores).1 = .ok (some run)) :
    queueKey run = key := by
  cases refused with
  | true => cases answered
  | false =>
    have found : (stores.queue.find? key).map QueueEntry.run = some run := Except.ok.inj answered
    obtain ⟨entry, stored, same⟩ := Option.map_eq_some_iff.mp found
    rw [← same]
    exact (Keyed.find?_eq_some_iff.mp stored).2

end

def returnedAt (system : QueueSystem) (position : Nat) : Option Text :=
  system.calls[position]?.bind returnedKey

variable {system : QueueSystem}

theorem returnedAt_eq_some (returned : returnedAt system position = some key) :
    ∃ rounds host maxWaitMs run, queueKey run = key ∧
      system.calls[position]? = some ⟨.claimRun rounds host maxWaitMs,
        .done (.ok (.claimed (some run)))⟩ := by
  obtain ⟨call, found, same⟩ := Option.bind_eq_some_iff.mp returned
  unfold returnedKey at same
  split at same
  · exact ⟨_, _, _, _, Option.some.inj same, found⟩
  · cases same

def isClaimAt (system : QueueSystem) (position : Nat) : Prop :=
  ∃ rounds host maxWaitMs, system.requestAt position = some (.claimRun rounds host maxWaitMs)

theorem isClaimAt_of_returnedAt (returned : returnedAt system position = some key) :
    isClaimAt system position := by
  obtain ⟨rounds, host, maxWaitMs, run, _, found⟩ :=
    returnedAt_eq_some returned
  exact ⟨rounds, host, maxWaitMs, requestAt_of_found found⟩

structure QueueInvariant (system : QueueSystem) : Prop where
  follow : AllFollow queueDiscipline noMemory QueueEnds system
  once : ∀ first second key, returnedAt system first = some key →
    returnedAt system second = some key → first = second
  /-- No claim has written a key after the claim that returned it. -/
  settled : ∀ position key, returnedAt system position = some key →
    ∃ writer, lastWriter system.history key = some writer ∧
      (isClaimAt system writer → writer = position)
  gone : ∀ key, ∀ entry ∈ system.history, deletesKey key entry = true →
    system.shared.queue.find? key = none
  noneAfter : ∀ before deletion after key, system.history = before ++ deletion :: after →
      deletesKey key deletion = true → ∀ entry ∈ after, writesKey key entry = false

theorem queueInvariant_noQueueCalls (stores : QueueStores) :
    QueueInvariant (noQueueCalls stores) := by
  constructor
  · exact follows_idle
  · intro first second key returned
    cases returned
  · intro position key returned
    cases returned
  · intro key entry member
    cases member
  · intro before deletion after key split
    cases before <;> cases split

theorem lastWriter_lt {system : QueueSystem} (below : HistoryBelow system) {key : Text}
    {writer : Nat} (last : lastWriter system.history key = some writer) :
    writer < system.calls.length := by
  obtain ⟨entry, found, same⟩ := Option.map_eq_some_iff.mp last
  rw [← same]
  exact below entry (List.mem_reverse.mp (List.mem_of_find?_eq_some found))

/-- A step that executes no statement and leaves no more entries. -/
theorem queueInvariant_of_sameHistory {next : QueueSystem} (invariant : QueueInvariant system)
    (follow : AllFollow queueDiscipline noMemory QueueEnds next)
    (sameHistory : next.history = system.history)
    (sameRequests : ∀ position, position < system.calls.length →
      next.requestAt position = system.requestAt position)
    (sameReturns : ∀ position, returnedAt next position = returnedAt system position)
    (fewer : ∀ key stored, next.shared.queue.find? key = some stored →
      system.shared.queue.find? key = some stored) :
    QueueInvariant next := by
  refine ⟨follow, ?_, ?_, ?_, ?_⟩
  · intro first second key one two
    rw [sameReturns] at one two
    exact invariant.once first second key one two
  · intro position key returned
    rw [sameReturns] at returned
    obtain ⟨writer, last, own⟩ := invariant.settled position key returned
    rw [sameHistory]
    refine ⟨writer, last, ?_⟩
    intro isClaim
    apply own
    unfold isClaimAt at isClaim
    rw [sameRequests writer (lastWriter_lt invariant.follow.below last)] at isClaim
    exact isClaim
  · intro key entry member deletes
    rw [sameHistory] at member
    have absent := invariant.gone key entry member deletes
    cases found : next.shared.queue.find? key with
    | none => rfl
    | some stored =>
      rw [fewer key stored found] at absent
      cases absent
  · intro before deletion after key split
    rw [sameHistory] at split
    exact invariant.noneAfter before deletion after key split

theorem returnedAt_start (system : QueueSystem) (request : QueueRequest) (position : Nat) :
    returnedAt (system.start request (serveQueue request)) position =
      returnedAt system position := by
  by_cases inside : position < system.calls.length
  · simp only [returnedAt, Concurrent.start, List.getElem?_append_left inside]
  · have nothing : returnedAt system position = none := by
      rw [returnedAt, List.getElem?_eq_none (Nat.le_of_not_lt inside)]
      rfl
    rw [nothing]
    cases returned : returnedAt (system.start request (serveQueue request)) position with
    | none => rfl
    | some key =>
      obtain ⟨rounds, host, maxWaitMs, run, _, found⟩ :=
        returnedAt_eq_some returned
      have new : (system.start request (serveQueue request)).calls[position]?
          = [⟨request, serveQueue request⟩][position - system.calls.length]? :=
        List.getElem?_append_right (Nat.le_of_not_lt inside)
      have member := List.mem_of_getElem? (new.symm.trans found)
      have same := List.mem_singleton.mp member
      have own := follows_serveQueue request
      obtain ⟨isRequest, isProcess⟩ := Call.mk.inj same
      rw [← isProcess, ← isRequest] at own
      cases own

section

variable {backend : RecordBackend} {toISOString : Nat → Text}
  {system : QueueSystem} {position : Nat} {refused : Bool}
  {request : QueueRequest} {statement : QueueStatement}
  {resume : Except QueueFailure statement.Answer → QueueCall QueueReply}

abbrev executed (backend : RecordBackend) (toISOString : Nat → Text) (system : QueueSystem)
    (position : Nat) (request : QueueRequest) (statement : QueueStatement)
    (resume : Except QueueFailure statement.Answer → QueueCall QueueReply) (refused : Bool) :
    QueueSystem :=
  system.answered position request statement resume
    (executeStatement backend toISOString refused statement system.shared)

abbrev executedEntry (backend : RecordBackend) (toISOString : Nat → Text) (system : QueueSystem)
    (position : Nat) (statement : QueueStatement) (refused : Bool) : QueueExecuted :=
  ⟨position, statement, (executeStatement backend toISOString refused statement system.shared).1⟩

theorem possible_executeStatement (found : system.Awaits position request statement resume)
    (condition : QueueCondition system (.advance position refused)) (memory : QueueMemory) :
    (queueDiscipline request).possible memory statement
      (executeStatement backend toISOString refused statement system.shared).1 := by
  cases statement with
  | getQueued key =>
    cases answered : (executeStatement backend toISOString refused
        (.getQueued key) system.shared).1 with
    | error thrown => trivial
    | ok stored =>
      cases stored with
      | none => trivial
      | some run => exact queueKey_of_getQueued answered
  | deleteQueued key =>
    cases refused with
    | false => trivial
    | true =>
      have mayFail := condition request (requestAt_of_found found)
      rw [Concurrent.awaiting, found] at mayFail
      cases request with
      | cancelRun id => exact mayFail.elim
      | _ => trivial
  | _ => trivial

theorem mayWrite_of_condition {entry : QueueEntry}
    (found : system.Awaits position request statement resume)
    (isWrite : statement = .setQueued entry)
    (condition : QueueCondition system (.advance position false)) :
    MayWrite system entry request := by
  subst isWrite
  have mayAsk := condition request (requestAt_of_found found)
  rw [Concurrent.awaiting, found] at mayAsk
  exact mayAsk

theorem write_of_writesKey {key : Text}
    (writes : writesKey key (executedEntry backend toISOString system position
      statement refused) = true) :
    refused = false ∧ ∃ entry, statement = .setQueued entry ∧ entry.key = key := by
  cases statement with
  | setQueued entry =>
    cases refused with
    | false => exact ⟨rfl, entry, rfl, of_decide_eq_true writes⟩
    | true => cases writes
  | _ => cases writes

variable {key : Text}

section

variable (invariant : QueueInvariant system)
  (found : system.Awaits position request statement resume)
  (condition : QueueCondition system (.advance position refused))

include invariant found condition

theorem not_writes_of_deleted {deletion : QueueExecuted} (member : deletion ∈ system.history)
    (deletes : deletesKey key deletion = true) :
    writesKey key (executedEntry backend toISOString system position
      statement refused) = false := by
  by_contra writes
  rw [Bool.not_eq_false] at writes
  obtain ⟨served, entry, isWrite, own⟩ := write_of_writesKey writes
  subst served
  subst own
  have may := mayWrite_of_condition found isWrite condition
  have absent := invariant.gone entry.key deletion member deletes
  cases request with
  | enqueueRun id run =>
    have fresh := may deletion member
    rw [deletes] at fresh
    cases fresh
  | claimRun rounds host maxWaitMs =>
    have present := may.1
    rw [absent] at present
    cases present
  | _ =>
    have present : (system.shared.queue.find? entry.key).isSome := may
    rw [absent] at present
    cases present

theorem gone_executed {entry : QueueExecuted} (deletes : deletesKey key entry = true)
    (member : entry ∈ system.history ∨
      entry = executedEntry backend toISOString system position statement refused) :
    (executed backend toISOString system position request statement resume
      refused).shared.queue.find? key = none := by
  rcases find?_executeStatement backend toISOString refused statement
    system.shared position key with
    ⟨_, notDeleted, same⟩ | ⟨served, notDeleted, written, isWrite, own, now⟩ |
      ⟨_, absent⟩
  · rcases member with older | new
    · exact same.trans (invariant.gone key entry older deletes)
    · subst new
      rw [deletes] at notDeleted
      cases notDeleted
  · rcases member with older | new
    · subst served
      subst isWrite
      have idle : writesKey key (executedEntry backend toISOString system
          position (.setQueued written) false) = false :=
        not_writes_of_deleted invariant found condition older deletes
      exact absurd own (of_decide_eq_false idle)
    · subst new
      rw [deletes] at notDeleted
      cases notDeleted
  · exact absent

end

variable {other : Nat}

theorem isClaimAt_executed_iff (found : system.Awaits position request statement resume) :
    isClaimAt (executed backend toISOString system position request statement
      resume refused) other ↔ isClaimAt system other := by
  unfold isClaimAt
  rw [requestAt_answered found]

theorem returnedAt_executed_of_ne (different : position ≠ other) :
    returnedAt (executed backend toISOString system position request statement
      resume refused) other = returnedAt system other := by
  simp only [returnedAt, Concurrent.answered, List.getElem?_set_ne different]

theorem lastWriter_append (history : List QueueExecuted) (entry : QueueExecuted) (key : Text) :
    lastWriter (history ++ [entry]) key =
      if writesKey key entry then some entry.caller
      else
        lastWriter history key := by
  simp only [lastWriter, List.reverse_append, List.reverse_singleton,
    List.singleton_append, List.find?_cons]
  cases writesKey key entry <;> rfl

theorem nextPhase_eq_confirmed {stores : QueueStores}
    {host : Option SandboxHostRecord} {phase : ClaimPhase} {key : Text}
    (confirmed : nextPhase host phase statement
      (executeStatement backend toISOString refused statement stores).1 = .confirmed key) :
    refused = false ∧ statement = .getQueued key ∧ phase = .wrote key ∧
      ∃ stored ∈ stores.queue.find? key, stored.run.hostId = host.map (·.id) := by
  cases statement with
  | getQueued asked =>
    cases refused with
    | true => cases confirmed
    | false =>
      have answer : (executeStatement backend toISOString false (.getQueued asked) stores).1 =
          .ok ((stores.queue.find? asked).map QueueEntry.run) :=
        rfl
      rw [answer] at confirmed
      cases held : stores.queue.find? asked with
      | none =>
        rw [held] at confirmed
        cases confirmed
      | some stored =>
        rw [held] at confirmed
        simp only [Option.map_some, nextPhase] at confirmed
        split at confirmed
        · rename_i facts
          cases confirmed
          exact ⟨rfl, rfl, facts.1, stored, held, facts.2⟩
        · cases confirmed
  | setQueued entry => cases refused <;> cases confirmed
  | deleteQueued deleted => cases refused <;> cases confirmed
  | _ => cases refused <;> cases confirmed

variable (invariant : QueueInvariant system)
  (found : system.Awaits position request statement resume)
  (condition : QueueCondition system (.advance position refused))

include invariant found condition

theorem lastWriter_of_returns (returned : returnedAt (executed backend toISOString system position
      request statement resume refused) position = some key) :
    writesKey key (executedEntry backend toISOString system position statement refused) = false ∧
      lastWriter system.history key = some position := by
  have possible : (queueDiscipline request).possible
      (memoryOf (queueDiscipline request) noMemory system.history position)
      statement (executeStatement backend toISOString refused statement system.shared).1 :=
    possible_executeStatement found condition _
  have follow := follows_answered invariant.follow found possible
  obtain ⟨rounds, host, maxWaitMs, run, own, ended⟩ :=
    returnedAt_eq_some returned
  have isRequest : request = .claimRun rounds host maxWaitMs := by
    have inside := (List.getElem?_eq_some_iff.mp found).1
    have set : (executed backend toISOString system position request statement
        resume refused).calls[position]? = some ⟨request, _⟩ :=
      List.getElem?_set_self inside
    rw [set] at ended
    exact (Call.mk.inj (Option.some.inj ended)).1
  subst isRequest
  have confirmed := follow.ended ended
  have appended := memoryOf_append_own (queueDiscipline (.claimRun rounds host maxWaitMs)) noMemory
    system.history position statement
    (executeStatement backend toISOString refused statement system.shared).1
  have phase : nextPhase (some host)
      (memoryOf (queueDiscipline (.claimRun rounds host maxWaitMs)) noMemory
        system.history position).phase statement
      (executeStatement backend toISOString refused statement
        system.shared).1 = .confirmed (queueKey run) :=
    (congrArg QueueMemory.phase appended).symm.trans confirmed
  obtain ⟨served, isRead, wrote, stored, held, isOwn⟩ :=
    nextPhase_eq_confirmed phase
  subst served
  subst isRead
  subst own
  have shown := phaseShown_memoryOf (.claimRun rounds host maxWaitMs) system.history position
  have mayAsk := condition _ (requestAt_of_found found)
  rw [Concurrent.awaiting, found] at mayAsk
  exact ⟨rfl, mayAsk (shown.2.1 _ wrote) stored held isOwn⟩

theorem once_executed (different : position ≠ other)
    (returned : returnedAt (executed backend toISOString system position
      request statement resume refused) position = some key)
    (otherReturned : returnedAt (executed backend toISOString system position
      request statement resume refused) other = some key) : False := by
  have last := (lastWriter_of_returns invariant found condition returned).2
  rw [returnedAt_executed_of_ne different] at otherReturned
  obtain ⟨writer, otherLast, own⟩ := invariant.settled other key otherReturned
  rw [last] at otherLast
  cases otherLast
  have isClaim := (isClaimAt_executed_iff found).mp (isClaimAt_of_returnedAt returned)
  exact different (own isClaim)

theorem settled_executed (returned : returnedAt (executed backend toISOString system position
      request statement resume refused) other = some key) :
    ∃ writer, lastWriter (executed backend toISOString system position request
        statement resume refused).history key = some writer ∧
      (isClaimAt (executed backend toISOString system position request
        statement resume refused) writer → writer = other) := by
  have appended := lastWriter_append system.history (executedEntry backend
    toISOString system position statement refused) key
  by_cases same : position = other
  · subst same
    obtain ⟨idle, last⟩ :=
      lastWriter_of_returns invariant found condition returned
    rw [idle, if_neg Bool.false_ne_true] at appended
    exact ⟨position, appended.trans last, fun _ => rfl⟩
  · rw [returnedAt_executed_of_ne same] at returned
    by_cases writes : writesKey key (executedEntry backend toISOString system
        position statement refused) = true
    · rw [if_pos writes] at appended
      refine ⟨position, appended, ?_⟩
      intro isClaim
      exfalso
      obtain ⟨rounds, host, maxWaitMs, requested⟩ :=
        (isClaimAt_executed_iff found).mp isClaim
      obtain ⟨served, entry, isWrite, own⟩ := write_of_writesKey writes
      subst served
      subst own
      have may := mayWrite_of_condition found isWrite condition
      rw [requestAt_of_found found] at requested
      have isRequest : request = .claimRun rounds host maxWaitMs := Option.some.inj requested
      subst isRequest
      obtain ⟨call, present, isReturned⟩ :=
        Option.bind_eq_some_iff.mp returned
      exact may.2 call (List.mem_of_getElem? present) isReturned
    · obtain ⟨writer, last, own⟩ := invariant.settled other key returned
      rw [if_neg writes] at appended
      refine ⟨writer, appended.trans last, ?_⟩
      intro isClaim
      exact own ((isClaimAt_executed_iff found).mp isClaim)

theorem queueInvariant_executed :
    QueueInvariant (executed backend toISOString system position request
      statement resume refused) := by
  constructor
  · exact follows_answered invariant.follow found (possible_executeStatement found condition _)
  · intro first second key one two
    by_cases firstIs : position = first
    · by_cases secondIs : position = second
      · exact firstIs.symm.trans secondIs
      · subst firstIs
        exact (once_executed invariant found condition secondIs one two).elim
    · by_cases secondIs : position = second
      · subst secondIs
        exact (once_executed invariant found condition firstIs two one).elim
      · rw [returnedAt_executed_of_ne firstIs] at one
        rw [returnedAt_executed_of_ne secondIs] at two
        exact invariant.once first second key one two
  · intro other key returned
    exact settled_executed invariant found condition returned
  · intro key entry member deletes
    apply gone_executed invariant found condition deletes
    rcases List.mem_append.mp member with older | new
    · exact Or.inl older
    · exact Or.inr (List.mem_singleton.mp new)
  · intro before deletion after key split deletes entry member
    rcases split_of_append_singleton split with
      ⟨rfl, rfl⟩ | ⟨shorter, rfl, older⟩
    · cases member
    · have earlier : deletion ∈ system.history := by
        rw [older]
        exact List.mem_append_right before List.mem_cons_self
      rcases List.mem_append.mp member with old | new
      · exact invariant.noneAfter before deletion shorter key older deletes entry old
      · rw [List.mem_singleton.mp new]
        exact not_writes_of_deleted invariant found condition earlier deletes

end

theorem claimedOnce_of_invariant (invariant : QueueInvariant system) : ClaimedOnce system := by
  have isReturned {position rounds : Nat} {host : SandboxHostRecord}
      {maxWaitMs : Option Nat} {run : QueuedRun}
      (returned : system.calls[position]? = some ⟨.claimRun rounds host maxWaitMs,
          .done (.ok (.claimed (some run)))⟩) :
      returnedAt system position = some (queueKey run) := by
    rw [returnedAt, returned]
    rfl
  constructor
  · intro first second rounds host maxWaitMs run otherRounds otherHost
      otherWaitMs other returned otherReturned same
    have one := isReturned returned
    rw [same] at one
    exact invariant.once first second _ one (isReturned otherReturned)
  · intro cancelling claiming id cancelled rounds host maxWaitMs run before
      after returned claimReturned split notCancelling notClaiming same
    obtain ⟨deletion, member, own, deletes⟩ :=
      (phaseShown_memoryOf _ system.history cancelling).2.2 _ (invariant.follow.ended returned)
    obtain ⟨entry, laterMember, laterOwn, writes⟩ :=
      (phaseShown_memoryOf _ system.history claiming).1 _
        (Or.inr (invariant.follow.ended claimReturned))
    rw [split, List.mem_append] at member laterMember
    have early : deletion ∈ before := by
      rcases member with early | late
      · exact early
      · exact absurd own (notCancelling deletion late)
    have late : entry ∈ after := by
      rcases laterMember with early | late
      · exact absurd laterOwn (notClaiming entry early)
      · exact late
    obtain ⟨start, rest, isSplit⟩ := List.append_of_mem early
    have whole : system.history = start ++ deletion :: (rest ++ after) := by
      rw [split, isSplit, List.append_assoc, List.cons_append]
    have idle := invariant.noneAfter start deletion (rest ++ after)
      (queueKey cancelled) whole deletes entry (List.mem_append_right rest late)
    rw [← same, writes] at idle
    cases idle
  · intro before removal after key split removes
    apply invariant.noneAfter before removal after key split
    obtain ⟨caller, statement, answer⟩ := removal
    cases statement with
    | deleteQueued deleted =>
      cases answer with
      | error thrown => cases removes
      | ok found =>
        cases found with
        | false => cases removes
        | true => exact removes
    | _ => cases removes

theorem queueInvariant_step {backend : RecordBackend}
    {toISOString : Nat → Text} {system next : QueueSystem} {act : QueueAct}
    (invariant : QueueInvariant system) (condition : QueueCondition system act)
    (taken : queueStep backend toISOString system act = some next) :
    QueueInvariant next := by
  have follow := invariant.follow
  cases act with
  | start request =>
    cases taken
    apply queueInvariant_of_sameHistory invariant
    · exact follows_start follow (follows_serveQueue request)
    · rfl
    · intro position inside
      exact requestAt_start inside
    · exact returnedAt_start system request
    · intro key stored present
      exact present
  | advance position refused =>
    obtain ⟨request, statement, resume, found, rfl⟩ :=
      advance_eq_some_iff.mp taken
    exact queueInvariant_executed invariant found condition
  | tick milliseconds =>
    cases taken
    apply queueInvariant_of_sameHistory invariant
    · exact ⟨follow.below, follow.follow⟩
    · rfl
    · intro position inside
      rfl
    · intro position
      rfl
    · intro key stored present
      exact present
  | reap key =>
    cases taken
    apply queueInvariant_of_sameHistory invariant
    · exact ⟨follow.below, follow.follow⟩
    · rfl
    · intro position inside
      rfl
    · intro position
      rfl
    · intro other stored present
      exact (Keyed.find?_keep_eq_some_iff.mp present).1

/-- A run is claimed at most once in every run of the queue that meets the
condition. -/
theorem claimed_at_most_once (backend : RecordBackend) (toISOString : Nat → Text)
    (stores : QueueStores) (acts : List QueueAct) (system : QueueSystem)
    (meets : StepsMeet (queueStep backend toISOString) QueueCondition (noQueueCalls stores) acts)
    (executed : runFrom (queueStep backend toISOString) (noQueueCalls stores) acts = some system) :
    ClaimedOnce system := by
  apply claimedOnce_of_invariant
  apply invariant_of_stepsMeet QueueInvariant ?preserved
    (queueInvariant_noQueueCalls stores) meets executed
  case preserved =>
    intro state act next invariant condition taken
    exact queueInvariant_step invariant condition taken

def pendingRun : QueuedRun where
  id := "r".toList
  image := "@node/20".toList
  workflow := some "build".toList
  mounts := []
  agent := none
  sessionId := none
  createdBy := "ann".toList
  tools := []
  status := .pending
  hostId := none
  sandboxId := none
  workflowRunId := none
  agentRunId := none
  error := none
  createdAt := "t".toList
  claimedAt := none
  finishedAt := none

def laptop : SandboxHostRecord where
  id := "h".toList
  images := some ["@node/20".toList]
  verifiedImages := none
  tools := none

def queuedStores : QueueStores where
  clock := 0
  queue := Keyed.empty.put ⟨pendingRun, 86400⟩
  history := Keyed.empty

/-- A claim, its execution, and a cancellation that comes too late. -/
def claimedAndRun : List QueueAct :=
  [.start (.claimRun 0 laptop none)] ++ List.replicate 7 (.advance 0 false) ++
    [.start (.updateQueuedRun { pendingRun with status := .running }),
      .advance 1 false, .advance 1 false,
      .start (.cancelRun "r".toList), .advance 2 false, .advance 2 false,
      .start (.finishRun pendingRun ⟨.succeeded, none, none, none⟩)] ++
    List.replicate 3 (.advance 3 false)

theorem claimed_at_most_once_claimedAndRun :
    ∃ system, runFrom (queueStep .dynamodb fun _ => "t".toList)
        (noQueueCalls queuedStores) claimedAndRun = some system ∧
      (system.shared.queue.rows.length, system.shared.history.rows.length) = (0, 1) ∧
      ClaimedOnce system := by
  have ran :
      (runFrom (queueStep .dynamodb fun _ => "t".toList)
        (noQueueCalls queuedStores) claimedAndRun).map (fun system =>
          (system.shared.queue.rows.length, system.shared.history.rows.length)) = some (0, 1) := by
    decide +kernel
  obtain ⟨system, executed, counts⟩ := Option.map_eq_some_iff.mp ran
  have meets : StepsMeet (queueStep .dynamodb fun _ => "t".toList)
      QueueCondition (noQueueCalls queuedStores) claimedAndRun := by
    decide +kernel
  exact ⟨system, executed, counts, claimed_at_most_once .dynamodb _
    queuedStores claimedAndRun system meets executed⟩

/-- Two agents of one host read the run before either writes it. -/
def twoClaims : List QueueAct :=
  [.start (.claimRun 0 laptop none), .start (.claimRun 0 laptop none)] ++
    List.replicate 3 (.advance 0 false) ++
    List.replicate 3 (.advance 1 false) ++
    List.replicate 4 (.advance 0 false) ++ List.replicate 4 (.advance 1 false)

def claimedRun (system : QueueSystem) (position : Nat) : Option QueuedRun :=
  match system.calls[position]? with
  | some ⟨.claimRun _ _ _, .done (.ok (.claimed run))⟩ => run
  | _ => none

theorem exists_call_of_claimedRun {run : QueuedRun}
    (claimed : claimedRun system position = some run) :
    ∃ rounds host maxWaitMs, system.calls[position]? = some ⟨.claimRun rounds host maxWaitMs,
        .done (.ok (.claimed (some run)))⟩ := by
  unfold claimedRun at claimed
  split at claimed
  · rename_i rounds host maxWaitMs found returned
    subst claimed
    exact ⟨rounds, host, maxWaitMs, returned⟩
  · cases claimed

theorem claimed_twice :
    ¬ ∀ (backend : RecordBackend) (toISOString : Nat → Text)
        (stores : QueueStores) (acts : List QueueAct) (system : QueueSystem),
      runFrom (queueStep backend toISOString) (noQueueCalls stores) acts = some system →
        ClaimedOnce system := by
  intro law
  have ran :
      (runFrom (queueStep .dynamodb fun _ => "t".toList)
        (noQueueCalls queuedStores) twoClaims).map (fun system =>
          ((claimedRun system 0).map queueKey, (claimedRun system 1).map queueKey)) =
        some (some (queueKey pendingRun), some (queueKey pendingRun)) := by
    decide +kernel
  obtain ⟨system, executed, both⟩ := Option.map_eq_some_iff.mp ran
  obtain ⟨first, second⟩ := Prod.mk.inj both
  obtain ⟨run, claimed, own⟩ := Option.map_eq_some_iff.mp first
  obtain ⟨other, otherClaimed, otherOwn⟩ := Option.map_eq_some_iff.mp second
  obtain ⟨rounds, host, maxWaitMs, returned⟩ :=
    exists_call_of_claimedRun claimed
  obtain ⟨otherRounds, otherHost, otherWaitMs, otherReturned⟩ :=
    exists_call_of_claimedRun otherClaimed
  have once := law .dynamodb _ queuedStores twoClaims system executed
  have same := once.once 0 1 _ _ _ run _ _ _ other returned otherReturned (own.trans otherOwn.symm)
  cases same

end Aprovan.Sandboxes.Queue
