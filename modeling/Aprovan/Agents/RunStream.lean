import Aprovan.Agents.RunEnds
import Aprovan.Library.LogReader

/-!
# Streams of run events

A stream subscribes to its run, replays what is persisted, delivers what was
heard meanwhile and goes on until a terminal event.  The runner appends to the
log and then fans the events out, in one process; the reads, the appends and
the fan-outs come in any order.  No read of a stream fails.
-/

namespace Aprovan.Agents

open Aprovan.Library

inductive StreamPhase where
  | replaying
  | replayed (persisted : List RunEvent)
  | checking
  | checked (settled : Bool)
  | catchingUp (start : Nat)
  | caughtUp (more : List RunEvent)
  | ended
  deriving DecidableEq

structure RunStream where
  /-- `from`, `lastSeq + 1`, what was delivered, and `closed`. -/
  reader : LogReader RunEvent
  pending : List RunEvent
  live : Bool
  phase : StreamPhase
  /-- The client has disconnected. -/
  gone : Bool

def createRunEventStream (start : Nat) : RunStream where
  reader := LogReader.opened start
  pending := []
  live := false
  phase := .replaying
  gone := false

def RunStream.deliver (stream : RunStream) (events : List RunEvent) : RunStream :=
  { stream with
      reader :=
        stream.reader.receiveAll RunEvent.seq isTerminalEvent events }

def RunStream.close (stream : RunStream) : RunStream :=
  { stream with reader := stream.reader.close }

/-- The subscription of a stream, which a closed one no longer has. -/
def RunStream.hear (stream : RunStream) (event : RunEvent) : RunStream :=
  if stream.reader.closed then stream
  else if stream.live then stream.deliver [event]
  else { stream with pending := stream.pending ++ [event] }

def readRunEvents (record : StoredAgentRun) (start : Nat) : List RunEvent :=
  record.events.filter fun event => start ≤ event.seq

def RunStream.read (record : StoredAgentRun) (stream : RunStream) : Option RunStream :=
  match stream.phase with
  | .replaying => some { stream with
      phase := .replayed (readRunEvents record stream.reader.start) }
  | .checking => some { stream with
      phase := .checked (isTerminal record.status) }
  | .catchingUp start => some { stream with
      phase := .caughtUp (readRunEvents record start) }
  | _ => none

/-- What a stream has heard while it replayed. -/
def RunStream.drain (stream : RunStream) : RunStream :=
  { stream with live := true, pending := [] }.deliver stream.pending

/-- What a stream does with the answer of its read. -/
def RunStream.resume (stream : RunStream) : Option RunStream :=
  match stream.phase with
  | .replayed persisted =>
    let replayed := stream.deliver persisted
    if replayed.reader.closed then some { replayed with phase := .ended }
    else
      let drained := replayed.drain
      if drained.reader.closed then some { drained with phase := .ended }
      else some { drained with phase := .checking }
  | .checked settled =>
    if settled then some { stream with phase := .catchingUp stream.reader.next }
    else some { stream with phase := .ended }
  | .caughtUp more => some { (stream.deliver more).close with phase := .ended }
  | _ => none

structure StreamSystem where
  record : StoredAgentRun
  /-- The call of `appendRunEvents` that has not returned, or the last. -/
  appending : RunCall (List RunEvent)
  streams : List RunStream

inductive StreamAct where
  | append (events : List RunEventInput)
  /-- The append executes its next statement, which may fail. -/
  | advance (happening : Happening)
  /-- The runner saves its record. -/
  | save (record : StoredAgentRun)
  | connect (start : Nat)
  | read (position : Nat)
  | resume (position : Nat)
  | disconnect (position : Nat)

variable (system : StreamSystem)

def StreamSystem.isIdle : Bool :=
  system.appending.outcome?.isSome

def endsRun (events : List RunEvent) : Bool :=
  events.getLast?.any isTerminalEvent

/-- The runner saves what it has appended to, as settled only after a
terminal event, and nothing later. -/
def maySave (record : StoredAgentRun) : Bool :=
  system.isIdle && !isTerminal system.record.status && record.events = system.record.events &&
    record.lastSeq = system.record.lastSeq &&
    (!isTerminal record.status || endsRun record.events)

/-- What a statement lets the subscribers hear. -/
def RunStatement.fanned : RunStatement → List RunEvent
  | .fanOut events => events
  | _ => []

def StreamSystem.advance (happening : Happening) : Option StreamSystem :=
  match system.appending with
  | .done _ => none
  | .await statement resume =>
    let outcome := executeRun happening statement (some system.record)
    some {
      record := outcome.2.getD system.record
      appending := resume outcome.1
      streams := system.streams.map fun stream => statement.fanned.foldl RunStream.hear stream }

def StreamSystem.changeStream (position : Nat) (change : RunStream → Option RunStream) :
    Option StreamSystem := do
  let stream ← system.streams[position]?
  let after ← change stream
  some { system with streams := system.streams.set position after }

/-- A client disconnects from a stream that is open. -/
def RunStream.cancel (stream : RunStream) : Option RunStream :=
  if stream.reader.closed then none else some { stream.close with gone := true }

def streamStep : StreamAct → Option StreamSystem
  | .append events =>
    if system.isIdle && !isTerminal system.record.status then
      some { system with appending := appendRunEvents events }
    else none
  | .advance happening => system.advance happening
  | .save record =>
    if maySave system record then some { system with record := record } else none
  | .connect start =>
    some { system with
      streams := system.streams ++ [createRunEventStream start] }
  | .read position => system.changeStream position (RunStream.read system.record)
  | .resume position => system.changeStream position RunStream.resume
  | .disconnect position => system.changeStream position RunStream.cancel

def begunStreams : StreamSystem :=
  ⟨startedRecord, .done (.ok []), []⟩

/-- What a stream should deliver. -/
def dueEvents (events : List RunEvent) (start : Nat) : List RunEvent :=
  throughFirst isTerminalEvent (events.filter fun event => start ≤ event.seq)

/-- How far a stream has come. -/
def StreamPhase.order : StreamPhase → Nat
  | .replaying => 0
  | .replayed _ => 1
  | .checking => 2
  | .checked _ => 3
  | .catchingUp _ => 4
  | .caughtUp _ => 5
  | .ended => 6

structure StreamsHeld : Prop where
  gapless : Gapless RunEvent.seq system.record.events
  /-- Nothing is delivered twice, out of order or behind the end. -/
  once : ∀ stream ∈ system.streams, stream.gone = false → stream.reader.taken <+:
      dueEvents system.record.events stream.reader.start
  /-- Nothing is missing when a stream closes. -/
  closed : ∀ stream ∈ system.streams, stream.gone = false → stream.reader.closed = true →
      stream.reader.taken = dueEvents system.record.events stream.reader.start
  /-- Nothing is missing at rest. -/
  complete : ∀ stream ∈ system.streams, stream.gone = false →
    stream.phase = .ended → system.isIdle = true →
      stream.reader.taken = dueEvents system.record.events stream.reader.start
  /-- A stream closes when it has delivered a terminal event, and at rest
  when the run has ended. -/
  closes : ∀ stream ∈ system.streams, stream.gone = false →
    (∃ event ∈ stream.reader.taken, isTerminalEvent event = true) ∨
      (stream.phase = .ended ∧ system.isIdle = true ∧ endsRun system.record.events = true) →
    stream.reader.closed = true
  /-- A stream has a next step until it ends. -/
  proceeds : ∀ (position : Nat) (stream : RunStream),
    system.streams[position]? = some stream → stream.phase ≠ .ended →
      ∃ (act : StreamAct) (after : StreamSystem) (later : RunStream),
        streamStep system act = some after ∧ after.streams[position]? = some later ∧
          stream.phase.order < later.phase.order

/-- An open stream starts behind a terminal event that the log ends with. -/
def missesEnd (events : List RunEvent) (stream : RunStream) : Bool :=
  !stream.reader.closed && events.getLast?.any fun last =>
    isTerminalEvent last && last.seq < stream.reader.start

/-- A stream that starts behind the terminal event does not end before the
run is settled. -/
def endsInReach : StreamAct → Bool
  | .advance _ =>
    match system.appending with
    | .await (.fanOut events) _ => system.streams.all fun stream =>
      !(stream.phase = .ended && missesEnd events stream)
    | _ => true
  | .resume position => (system.streams[position]?).all fun stream =>
    !(stream.phase = .checked false && missesEnd system.record.events stream)
  | _ => true

def fanEvents (sequenced : List RunEvent) : RunCall (List RunEvent) := do
  askRun (.fanOut sequenced)
  pure sequenced

def storeEvents (record : StoredAgentRun) (sequenced : List RunEvent) :
    RunCall (List RunEvent) := do
  askRun (.writeRecord (record.append sequenced))
  fanEvents sequenced

/-- How far an append has come, and how many events are fanned out. -/
inductive AppendProgress (record : StoredAgentRun) : Nat → RunCall (List RunEvent) → Prop where
  | ended (outcome : Except Text (List RunEvent)) :
      AppendProgress record record.events.length (.done outcome)
  | reading (events : List RunEventInput) (notEmpty : events ≠ []) :
      AppendProgress record record.events.length (appendRunEvents events)
  | storing (events : List RunEventInput) (notEmpty : events ≠ []) :
      AppendProgress record record.events.length
        (storeEvents record (numbered (nextSeq record) events))
  | fanning (earlier sequenced : List RunEvent) (notEmpty : sequenced ≠ [])
      (log : record.events = earlier ++ sequenced) :
      AppendProgress record earlier.length (fanEvents sequenced)

theorem numbers_numbered (first : Nat) (events : List RunEventInput) :
    (numbered first events).map RunEvent.seq =
      List.range' first (numbered first events).length := by
  induction events generalizing first with
  | nil => rfl
  | cons event rest ih => simp [numbered, List.range'_succ, ih]

theorem length_numbered (first : Nat) (events : List RunEventInput) :
    (numbered first events).length = events.length := by
  induction events generalizing first with
  | nil => rfl
  | cons event rest ih => simp [numbered, ih]

variable {events : List RunEventInput}

theorem numbered_ne_nil (notEmpty : events ≠ []) (first : Nat) : numbered first events ≠ [] := by
  cases events with
  | nil => exact absurd rfl notEmpty
  | cons event rest => simp [numbered]

structure LogHeld (record : StoredAgentRun) : Prop where
  gapless : Gapless RunEvent.seq record.events
  next : nextSeq record = record.events.length

theorem logHeld_started : LogHeld startedRecord where
  gapless := gapless_nil
  next := rfl

variable {record : StoredAgentRun}

theorem LogHeld.append (held : LogHeld record) (notEmpty : events ≠ []) :
    LogHeld (record.append (numbered (nextSeq record) events)) := by
  have numbers := numbers_numbered (nextSeq record) events
  have last : (numbered (nextSeq record) events).getLast?.map RunEvent.seq =
        some (nextSeq record + events.length - 1) := by
    rw [← List.getLast?_map, numbers, List.getLast?_range',
      length_numbered, if_neg (by simpa using notEmpty)]
  have positive : 0 < events.length := List.length_pos_iff.mpr notEmpty
  refine ⟨held.gapless.append (held.next ▸ numbers), ?_⟩
  rw [nextSeq, StoredAgentRun.append, last, held.next]
  simp only [Option.some_or, Option.map_some, Option.getD_some,
    List.length_append, length_numbered]
  omega

/-- A stream that has not finished its replay has what was fanned out since
it subscribed. -/
structure Buffered (events : List RunEvent) (fanned : Nat) (stream : RunStream) : Prop where
  silent : stream.live = false
  untouched : stream.reader.next = stream.reader.start
  pendingLe : stream.pending.length ≤ fanned
  pending : stream.pending = (events.take fanned).drop (fanned - stream.pending.length)

structure Live (fanned : Nat) (stream : RunStream) : Prop where
  live : stream.live = true
  reached : fanned ≤ stream.reader.next

def PhaseHeld (record : StoredAgentRun) (fanned : Nat) (stream : RunStream) : Prop :=
  match stream.phase with
  | .replaying => Buffered record.events fanned stream
  | .replayed persisted => Buffered record.events fanned stream ∧
      ∃ known, fanned - stream.pending.length ≤ known ∧ known ≤ record.events.length ∧
        persisted = (record.events.take known).drop stream.reader.start
  | .checking => Live fanned stream
  | .checked settled => Live fanned stream ∧ (settled = true → isTerminal record.status = true)
  | .catchingUp start => Live fanned stream ∧
      isTerminal record.status = true ∧ start ≤ stream.reader.next
  | .caughtUp more => Live fanned stream ∧
      isTerminal record.status = true ∧
      ∃ start, start ≤ stream.reader.next ∧ more = record.events.drop start
  | .ended => Live fanned stream ∧ (fanned = record.events.length → endsRun record.events = false)

abbrev StreamReading (record : StoredAgentRun) (stream : RunStream) : Prop :=
  stream.reader.Reading isTerminalEvent record.events

/-- A closed stream has everything that it will ever have. -/
structure StreamClosed (record : StoredAgentRun) (stream : RunStream) : Prop where
  isClosed : stream.reader.closed = true
  taken : stream.reader.taken = throughFirst isTerminalEvent
    (record.events.drop stream.reader.start)
  final : (∃ event ∈ stream.reader.taken, isTerminalEvent event = true) ∨
    isTerminal record.status = true

def StreamHeld (record : StoredAgentRun) (fanned : Nat) (stream : RunStream) : Prop :=
  StreamClosed record stream ∨ (StreamReading record stream ∧ PhaseHeld record fanned stream)

section

variable {record : StoredAgentRun} {fanned : Nat} {stream : RunStream}

theorem streamHeld_connected (record : StoredAgentRun) (fanned start : Nat) :
    StreamHeld record fanned (createRunEventStream start) := by
  refine Or.inr ⟨LogReader.reading_opened record.events start, ?_⟩
  exact ⟨rfl, rfl, Nat.zero_le fanned, by simp [createRunEventStream]⟩

theorem streamHeld_of_reader (reader : stream.reader.Finished isTerminalEvent record.events ∨
      (StreamReading record stream ∧ PhaseHeld record fanned stream)) :
    StreamHeld record fanned stream := by
  rcases reader with finished | reading
  · exact Or.inl ⟨finished.isClosed, finished.taken, Or.inl finished.final⟩
  · exact Or.inr reading

theorem StreamHeld.saved (held : StreamHeld record fanned stream)
    {later : StoredAgentRun} (sameLog : later.events = record.events)
    (settled : isTerminal record.status = true → isTerminal later.status = true) :
    StreamHeld later fanned stream := by
  rcases held with closed | ⟨reading, phase⟩
  · refine Or.inl ⟨closed.isClosed, ?_, closed.final.imp_right settled⟩
    rw [sameLog]
    exact closed.taken
  · refine Or.inr ⟨?_, ?_⟩
    · rw [StreamReading, sameLog]
      exact reading
    · unfold PhaseHeld at phase ⊢
      rw [sameLog]
      cases located : stream.phase with
      | checked found =>
        rw [located] at phase
        exact ⟨phase.1, fun asked => settled (phase.2 asked)⟩
      | catchingUp start =>
        rw [located] at phase
        exact ⟨phase.1, settled phase.2.1, phase.2.2⟩
      | caughtUp more =>
        rw [located] at phase
        exact ⟨phase.1, settled phase.2.1, phase.2.2⟩
      | _ =>
        rw [located] at phase
        exact phase

theorem Buffered.append {events : List RunEvent} (buffered : Buffered events fanned stream)
    (inside : fanned ≤ events.length) (more : List RunEvent) :
    Buffered (events ++ more) fanned stream where
  silent := buffered.silent
  untouched := buffered.untouched
  pendingLe := buffered.pendingLe
  pending := by
    rw [List.take_append_of_le_length inside]
    exact buffered.pending

/-- The log grows before the new events are fanned out. -/
theorem StreamHeld.appended (held : StreamHeld record record.events.length stream)
    (unsettled : isTerminal record.status = false)
    {more : List RunEvent} (notEmpty : more ≠ []) :
    StreamHeld (record.append more) record.events.length stream := by
  rcases held with closed | ⟨reading, phase⟩
  · rcases closed.final with final | settled
    · have finished : stream.reader.Finished isTerminalEvent record.events :=
        ⟨closed.isClosed, closed.taken, final⟩
      exact streamHeld_of_reader (Or.inl (finished.append more))
    · rw [unsettled] at settled
      cases settled
  · refine Or.inr ⟨reading.append more, ?_⟩
    unfold PhaseHeld at phase ⊢
    cases located : stream.phase with
    | replaying =>
      rw [located] at phase
      exact phase.append (Nat.le_refl _) more
    | replayed persisted =>
      rw [located] at phase
      obtain ⟨buffered, known, reached, inside, found⟩ := phase
      refine ⟨buffered.append (Nat.le_refl _) more, known, reached, ?_, ?_⟩
      · rw [StoredAgentRun.append, List.length_append]
        omega
      · rw [StoredAgentRun.append, List.take_append_of_le_length inside]
        exact found
    | checking =>
      rw [located] at phase
      exact phase
    | checked found =>
      rw [located] at phase
      exact phase
    | catchingUp start =>
      rw [located] at phase
      rw [unsettled] at phase
      cases phase.2.1
    | caughtUp found =>
      rw [located] at phase
      rw [unsettled] at phase
      cases phase.2.1
    | ended =>
      rw [located] at phase
      refine ⟨phase.1, fun same => ?_⟩
      have longer := List.length_pos_iff.mpr notEmpty
      rw [StoredAgentRun.append, List.length_append] at same
      omega

theorem hearAll_of_closed (isClosed : stream.reader.closed = true) (events : List RunEvent) :
    events.foldl RunStream.hear stream = stream := by
  induction events with
  | nil => rfl
  | cons event rest ih =>
    rw [List.foldl_cons, RunStream.hear, if_pos isClosed]
    exact ih

theorem hearAll_of_live (live : stream.live = true) (events : List RunEvent) :
    events.foldl RunStream.hear stream = stream.deliver events := by
  induction events generalizing stream with
  | nil => rfl
  | cons event rest ih =>
    have first : stream.hear event = stream.deliver [event] := by
      by_cases isClosed : stream.reader.closed = true
      · rw [RunStream.hear, if_pos isClosed, RunStream.deliver,
          LogReader.receiveAll_of_closed _ _ isClosed]
      · rw [RunStream.hear, if_neg isClosed, if_pos live]
    rw [List.foldl_cons, first]
    have later : (stream.deliver [event]).live = true := live
    exact ih later

theorem hearAll_of_silent (stillOpen : stream.reader.closed = false)
    (silent : stream.live = false) (events : List RunEvent) :
    events.foldl RunStream.hear stream = { stream with pending := stream.pending ++ events } := by
  induction events generalizing stream with
  | nil => simp
  | cons event rest ih =>
    have first : stream.hear event = { stream with pending := stream.pending ++ [event] } := by
      rw [RunStream.hear, if_neg (by simp [stillOpen]), if_neg (by simp [silent])]
    have later := @ih { stream with pending := stream.pending ++ [event] } stillOpen silent
    rw [List.foldl_cons, first, later]
    simp

theorem phase_hear (stream : RunStream) (event : RunEvent) :
    (stream.hear event).phase = stream.phase ∧ (stream.hear event).gone = stream.gone := by
  unfold RunStream.hear
  split
  · exact ⟨rfl, rfl⟩
  · split <;> exact ⟨rfl, rfl⟩

theorem phase_hearAll (stream : RunStream) (events : List RunEvent) :
    (events.foldl RunStream.hear stream).phase = stream.phase ∧
      (events.foldl RunStream.hear stream).gone = stream.gone := by
  induction events generalizing stream with
  | nil => exact ⟨rfl, rfl⟩
  | cons event rest ih =>
    obtain ⟨phase, gone⟩ := ih (stream.hear event)
    obtain ⟨firstPhase, firstGone⟩ := phase_hear stream event
    exact ⟨phase.trans firstPhase, gone.trans firstGone⟩

variable {earlier sequenced : List RunEvent} {after : RunStream}

theorem Buffered.heard (buffered : Buffered (earlier ++ sequenced) earlier.length stream)
    (sameLive : after.live = stream.live) (sameReader : after.reader = stream.reader)
    (pending : after.pending = stream.pending ++ sequenced) :
    Buffered (earlier ++ sequenced) (earlier ++ sequenced).length after where
  silent := sameLive.trans buffered.silent
  untouched := by
    rw [sameReader]
    exact buffered.untouched
  pendingLe := by
    have shorter := buffered.pendingLe
    rw [pending, List.length_append, List.length_append]
    omega
  pending := by
    have before := buffered.pending
    have shorter := buffered.pendingLe
    have position : (earlier ++ sequenced).length - (stream.pending ++ sequenced).length =
          earlier.length - stream.pending.length := by
      simp only [List.length_append]
      omega
    rw [List.take_left] at before
    rw [pending, List.take_length, position, List.drop_append_of_le_length (by omega), ← before]

theorem Live.heard (gapless : Gapless RunEvent.seq record.events)
    (log : record.events = earlier ++ sequenced) (reading : StreamReading record stream)
    (live : Live earlier.length stream) :
    (stream.deliver sequenced).reader.Finished isTerminalEvent record.events ∨
      (StreamReading record (stream.deliver sequenced) ∧
        Live record.events.length (stream.deliver sequenced) ∧
        stream.reader.next ≤ (stream.deliver sequenced).reader.next) := by
  have located : sequenced <+: record.events.drop earlier.length := by rw [log, List.drop_left]
  rcases reading.receiveAll gapless located live.reached with
    finished | ⟨still, reached, grown⟩
  · exact Or.inl finished
  · refine Or.inr ⟨still, ⟨live.live, ?_⟩, grown⟩
    rw [log, List.length_append]
    exact reached

theorem endsRun_eq_false (gapless : Gapless RunEvent.seq record.events)
    (reading : StreamReading record stream) (everything : record.events.length ≤ stream.reader.next)
    (inReach : missesEnd record.events stream = false) :
    endsRun record.events = false := by
  by_contra ends
  unfold endsRun at ends
  unfold missesEnd at inReach
  rw [reading.isOpen] at inReach
  cases last : record.events.getLast? with
  | none =>
    rw [last] at ends
    exact ends rfl
  | some event =>
    rw [last] at ends inReach
    have terminal : isTerminalEvent event = true := by simpa using ends
    have wanted : stream.reader.start ≤ event.seq := by simpa [terminal] using inReach
    have taken := reading.mem_taken gapless everything (List.mem_of_getLast? last) wanted
    rw [reading.unfinished event taken] at terminal
    cases terminal

theorem StreamHeld.heard (held : StreamHeld record earlier.length stream)
    (gapless : Gapless RunEvent.seq record.events) (log : record.events = earlier ++ sequenced)
    (inReach : stream.phase = .ended → missesEnd record.events stream = false) :
    StreamHeld record record.events.length (sequenced.foldl RunStream.hear stream) := by
  rcases held with closed | ⟨reading, phase⟩
  · rw [hearAll_of_closed closed.isClosed]
    exact Or.inl closed
  · by_cases silent : stream.live = false
    · rw [hearAll_of_silent reading.isOpen silent]
      refine Or.inr ⟨reading, ?_⟩
      unfold PhaseHeld at phase ⊢
      rw [log] at phase ⊢
      cases located : stream.phase with
      | replaying =>
        rw [located] at phase
        exact Buffered.heard phase rfl rfl rfl
      | replayed persisted =>
        rw [located] at phase
        obtain ⟨buffered, known, reached, inside, found⟩ := phase
        refine ⟨buffered.heard rfl rfl rfl, known, ?_, inside, found⟩
        simp only [List.length_append]
        omega
      | checking =>
        rw [located] at phase
        exact absurd phase.live (by simp [silent])
      | _ =>
        rw [located] at phase
        exact absurd phase.1.live (by simp [silent])
    · have isLive : stream.live = true := by
        simpa using silent
      rw [hearAll_of_live isLive]
      have delivered : ∀ (live : Live earlier.length stream)
          (others : StreamReading record (stream.deliver sequenced) →
            Live record.events.length (stream.deliver sequenced) →
            stream.reader.next ≤ (stream.deliver sequenced).reader.next →
            PhaseHeld record record.events.length (stream.deliver sequenced)),
          StreamHeld record record.events.length (stream.deliver sequenced) := by
        intro live others
        rcases live.heard gapless log reading with
          finished | ⟨still, reached, grown⟩
        · exact streamHeld_of_reader (Or.inl finished)
        · exact Or.inr ⟨still, others still reached grown⟩
      have samePhase : (stream.deliver sequenced).phase = stream.phase := rfl
      unfold PhaseHeld at phase delivered
      rw [samePhase] at delivered
      cases located : stream.phase with
      | replaying =>
        rw [located] at phase
        exact absurd phase.silent silent
      | replayed persisted =>
        rw [located] at phase
        exact absurd phase.1.silent silent
      | checking =>
        rw [located] at phase delivered
        exact delivered phase fun _ reached _ => reached
      | checked found =>
        rw [located] at phase delivered
        exact delivered phase.1 fun _ reached _ => ⟨reached, phase.2⟩
      | catchingUp start =>
        rw [located] at phase delivered
        exact delivered phase.1 fun _ reached grown =>
          ⟨reached, phase.2.1, Nat.le_trans phase.2.2 grown⟩
      | caughtUp more =>
        rw [located] at phase delivered
        obtain ⟨live, settled, start, startLe, found⟩ := phase
        exact delivered live fun _ reached grown =>
          ⟨reached, settled, start, Nat.le_trans startLe grown, found⟩
      | ended =>
        rw [located] at phase delivered
        refine delivered phase.1 fun still reached _ => ⟨reached, fun _ => ?_⟩
        refine endsRun_eq_false gapless still reached.reached ?_
        have sameStart : (stream.deliver sequenced).reader.start =
            stream.reader.start := LogReader.start_receiveAll _ _
        have before := inReach located
        unfold missesEnd at before ⊢
        rw [reading.isOpen] at before
        rw [still.isOpen, sameStart]
        exact before

theorem kept_of_read {after : RunStream} (taken : stream.read record = some after) :
    after.reader = stream.reader ∧ after.gone = stream.gone := by
  unfold RunStream.read at taken
  split at taken
  · cases taken
    exact ⟨rfl, rfl⟩
  · cases taken
    exact ⟨rfl, rfl⟩
  · cases taken
    exact ⟨rfl, rfl⟩
  · cases taken

theorem StreamHeld.read (held : StreamHeld record fanned stream)
    (gapless : Gapless RunEvent.seq record.events) (inside : fanned ≤ record.events.length)
    (taken : stream.read record = some after) :
    StreamHeld record fanned after := by
  have sameReader := (kept_of_read taken).1
  rcases held with closed | ⟨reading, phase⟩
  · refine Or.inl ?_
    constructor
    · rw [sameReader]
      exact closed.isClosed
    · rw [sameReader]
      exact closed.taken
    · rw [sameReader]
      exact closed.final
  · have stillReading : StreamReading record after := by
      rw [StreamReading, sameReader]
      exact reading
    refine Or.inr ⟨stillReading, ?_⟩
    unfold PhaseHeld at phase
    unfold RunStream.read at taken
    split at taken
    · rename_i located
      rw [located] at phase
      cases taken
      refine ⟨⟨phase.silent, phase.untouched, phase.pendingLe,
        phase.pending⟩, record.events.length, ?_, Nat.le_refl _, ?_⟩
      · exact Nat.le_trans (Nat.sub_le _ _) inside
      · rw [List.take_length]
        exact gapless.filter_le stream.reader.start
    · rename_i located
      rw [located] at phase
      cases taken
      exact ⟨⟨phase.live, phase.reached⟩, fun settled => settled⟩
    · rename_i start located
      rw [located] at phase
      cases taken
      exact ⟨⟨phase.1.live, phase.1.reached⟩, phase.2.1, start, phase.2.2, gapless.filter_le start⟩
    · cases taken

theorem deliver_of_closed (isClosed : stream.reader.closed = true) (events : List RunEvent) :
    stream.deliver events = stream := by
  rw [RunStream.deliver, LogReader.receiveAll_of_closed _ _ isClosed]

theorem gone_of_resume (taken : stream.resume = some after) : after.gone = stream.gone := by
  unfold RunStream.resume at taken
  split at taken
  · dsimp only at taken
    split at taken
    · cases taken
      rfl
    · split at taken <;> (cases taken; rfl)
  · split at taken <;> (cases taken; rfl)
  · cases taken
    rfl
  · cases taken

theorem reader_of_resume_of_closed {after : RunStream} (isClosed : stream.reader.closed = true)
    (taken : stream.resume = some after) :
    after.reader = stream.reader := by
  unfold RunStream.resume at taken
  split at taken
  · dsimp only at taken
    rw [deliver_of_closed isClosed, if_pos isClosed] at taken
    cases taken
    rfl
  · split at taken <;> (cases taken; rfl)
  · rw [deliver_of_closed isClosed] at taken
    cases taken
    rw [RunStream.close, LogReader.close, ← isClosed]
  · cases taken

theorem streamHeld_replayed {persisted : List RunEvent} {known : Nat}
    (gapless : Gapless RunEvent.seq record.events) (reading : StreamReading record stream)
    (buffered : Buffered record.events fanned stream)
    (reached : fanned - stream.pending.length ≤ known) (inside : known ≤ record.events.length)
    (found : persisted = (record.events.take known).drop stream.reader.start) {after : RunStream}
    (located : stream.phase = .replayed persisted) (taken : stream.resume = some after) :
    StreamHeld record fanned after := by
  rw [RunStream.resume, located] at taken
  dsimp only at taken
  have replayable : persisted <+: record.events.drop stream.reader.start := by
    have front := List.take_prefix known record.events
    rw [found]
    exact front.drop stream.reader.start
  rcases reading.receiveAll gapless replayable (Nat.le_of_eq buffered.untouched.symm) with
    finished | ⟨still, replayedUpTo, _⟩
  · have isClosed : (stream.deliver persisted).reader.closed = true := finished.isClosed
    rw [if_pos isClosed] at taken
    cases taken
    exact streamHeld_of_reader (Or.inl finished)
  · have isOpen : (stream.deliver persisted).reader.closed = false := still.isOpen
    rw [if_neg (by simp [isOpen])] at taken
    have known_le : known ≤ (stream.deliver persisted).reader.next := by
      have length : persisted.length = known - stream.reader.start := by
        rw [found, List.length_drop, List.length_take, Nat.min_eq_left inside]
      have upTo : stream.reader.start + persisted.length ≤
        (stream.deliver persisted).reader.next := replayedUpTo
      omega
    have drainable : stream.pending <+:
        record.events.drop (fanned - stream.pending.length) := by
      have front := List.take_prefix fanned record.events
      have heard := front.drop (fanned - stream.pending.length)
      rw [← buffered.pending] at heard
      exact heard
    rcases still.receiveAll gapless drainable (Nat.le_trans reached known_le) with
      finished | ⟨read, drainedUpTo, _⟩
    · have isClosed : (stream.deliver persisted).drain.reader.closed = true := finished.isClosed
      rw [if_pos isClosed] at taken
      cases taken
      exact streamHeld_of_reader (Or.inl finished)
    · have drainedOpen : (stream.deliver persisted).drain.reader.closed = false := read.isOpen
      rw [if_neg (by simp [drainedOpen])] at taken
      cases taken
      refine Or.inr ⟨read, rfl, ?_⟩
      have shorter := buffered.pendingLe
      have upTo : fanned - stream.pending.length + stream.pending.length ≤
        (stream.deliver persisted).drain.reader.next := drainedUpTo
      show fanned ≤ (stream.deliver persisted).drain.reader.next
      omega

theorem streamHeld_caughtUp {more : List RunEvent} {start : Nat}
    (gapless : Gapless RunEvent.seq record.events) (reading : StreamReading record stream)
    (everything : record.events.length ≤ stream.reader.next)
    (settled : isTerminal record.status = true) (startLe : start ≤ stream.reader.next)
    (found : more = record.events.drop start) :
    StreamHeld record fanned { (stream.deliver more).close with phase := .ended } := by
  have located : more <+: record.events.drop start := by rw [found]
  rcases reading.receiveAll gapless located startLe with
    finished | ⟨still, _, grown⟩
  · exact Or.inl ⟨rfl, finished.taken, Or.inl finished.final⟩
  · refine Or.inl ⟨rfl, ?_, Or.inr settled⟩
    exact still.taken_eq (Nat.le_trans everything grown)

theorem StreamHeld.resume (held : StreamHeld record fanned stream)
    (gapless : Gapless RunEvent.seq record.events) (settled : isTerminal record.status = true →
      fanned = record.events.length) (inReach : stream.phase = .checked false →
      missesEnd record.events stream = false) (taken : stream.resume = some after) :
    StreamHeld record fanned after := by
  rcases held with closed | ⟨reading, phase⟩
  · have sameReader := reader_of_resume_of_closed closed.isClosed taken
    refine Or.inl ⟨?_, ?_, ?_⟩
    · rw [sameReader]
      exact closed.isClosed
    · rw [sameReader]
      exact closed.taken
    · rw [sameReader]
      exact closed.final
  · unfold PhaseHeld at phase
    cases located : stream.phase with
    | replayed persisted =>
      rw [located] at phase
      obtain ⟨buffered, known, reached, knownLe, found⟩ := phase
      exact streamHeld_replayed gapless reading buffered reached knownLe found located taken
    | checked found =>
      rw [located] at phase
      rw [RunStream.resume, located] at taken
      cases found with
      | true =>
        cases taken
        exact Or.inr ⟨reading, ⟨phase.1.live, phase.1.reached⟩, phase.2 rfl, Nat.le_refl _⟩
      | false =>
        cases taken
        refine Or.inr ⟨reading, ⟨phase.1.live, phase.1.reached⟩, ?_⟩
        intro everything
        have reached := phase.1.reached
        exact endsRun_eq_false gapless reading (by omega) (inReach located)
    | caughtUp more =>
      rw [located] at phase
      rw [RunStream.resume, located] at taken
      obtain ⟨live, isSettled, start, startLe, found⟩ := phase
      cases taken
      have everything : record.events.length ≤ stream.reader.next := by
        rw [← settled isSettled]
        exact live.reached
      exact streamHeld_caughtUp gapless reading everything isSettled startLe found
    | _ =>
      rw [RunStream.resume, located] at taken
      cases taken

end

variable {fanned : Nat} {appending : RunCall (List RunEvent)}

theorem AppendProgress.fannedLe (state : AppendProgress record fanned appending) :
    fanned ≤ record.events.length := by
  cases state with
  | fanning earlier sequenced notEmpty log =>
    rw [log, List.length_append]
    omega
  | _ => exact Nat.le_refl _

theorem AppendProgress.fanned_of_idle (state : AppendProgress record fanned appending)
    (idle : appending.outcome?.isSome = true) :
    fanned = record.events.length := by
  cases state with
  | fanning earlier sequenced notEmpty log => cases idle
  | _ => rfl

theorem appendState_called (events : List RunEventInput) :
    AppendProgress record record.events.length (appendRunEvents events) := by
  by_cases isEmpty : events = []
  · rw [appendRunEvents, if_pos isEmpty]
    exact .ended _
  · exact .reading events isEmpty

theorem AppendProgress.saved {later : StoredAgentRun}
    (state : AppendProgress record fanned appending) (idle : appending.outcome?.isSome = true)
    (sameLog : later.events = record.events) :
    AppendProgress later fanned appending := by
  have all := state.fanned_of_idle idle
  cases appending with
  | done outcome =>
    rw [all, ← sameLog]
    exact .ended outcome
  | await statement resume => cases idle

theorem executeRun_cases (happening : Happening)
    (statement : RunStatement) (stored : Option StoredAgentRun) :
    (∃ message, executeRun happening statement stored = (.error message, stored)) ∨
      executeRun happening statement stored = (.ok (performRun happening statement stored).1,
          (performRun happening statement stored).2) := by
  cases thrown : thrownBy happening statement with
  | none =>
    refine Or.inr ?_
    rw [executeRun, thrown]
  | some message =>
    refine Or.inl ⟨message, ?_⟩
    rw [executeRun, thrown]

variable {system : StreamSystem}

theorem advance_cases {after : StreamSystem} {happening : Happening}
    (state : AppendProgress system.record fanned system.appending)
    (taken : system.advance happening = some after) :
    system.isIdle = false ∧
    ((after.record = system.record ∧ after.streams = system.streams ∧
      AppendProgress system.record fanned after.appending) ∨
    (∃ events : List RunEventInput, events ≠ [] ∧ fanned = system.record.events.length ∧
      after.record = system.record.append (numbered (nextSeq system.record) events) ∧
      after.streams = system.streams ∧
      AppendProgress after.record fanned after.appending) ∨
    (∃ (earlier sequenced : List RunEvent) (resume : Except Text Unit → RunCall (List RunEvent)),
      sequenced ≠ [] ∧ system.record.events = earlier ++ sequenced ∧
      fanned = earlier.length ∧
      system.appending = .await (.fanOut sequenced) resume ∧
      after.record = system.record ∧
      after.streams = system.streams.map (sequenced.foldl RunStream.hear) ∧
      AppendProgress system.record system.record.events.length after.appending)) := by
  obtain ⟨record, appending, streams⟩ := system
  have unheard : streams.map (fun stream =>
      ([] : List RunEvent).foldl RunStream.hear stream) = streams := by
    simp
  dsimp only at state ⊢
  cases state with
  | ended outcome => cases taken
  | reading events notEmpty =>
    rw [appendRunEvents, if_neg notEmpty] at taken ⊢
    cases taken
    refine ⟨rfl, Or.inl ?_⟩
    rcases executeRun_cases happening .readRecord (some record) with ⟨message, failed⟩ | found
    · rw [failed]
      exact ⟨rfl, unheard, .ended _⟩
    · rw [found]
      exact ⟨rfl, unheard, .storing events notEmpty⟩
  | storing events notEmpty =>
    cases taken
    refine ⟨rfl, ?_⟩
    rcases executeRun_cases happening (.writeRecord
        (record.append (numbered (nextSeq record) events)))
        (some record) with
      ⟨message, failed⟩ | written
    · rw [failed]
      exact Or.inl ⟨rfl, unheard, .ended _⟩
    · rw [written]
      exact Or.inr (Or.inl ⟨events, notEmpty, rfl, rfl, unheard,
        .fanning record.events _ (numbered_ne_nil notEmpty _) rfl⟩)
  | fanning earlier sequenced notEmpty log =>
    cases taken
    refine ⟨rfl, Or.inr (Or.inr ⟨earlier, sequenced, _, notEmpty, log, rfl,
      rfl, rfl, rfl, .ended _⟩)⟩

/-- What the runs keep. -/
structure StreamInvariant (system : StreamSystem) : Prop where
  log : LogHeld system.record
  settled : isTerminal system.record.status = true → system.isIdle = true
  streams : ∃ fanned, AppendProgress system.record fanned system.appending ∧
    ∀ stream ∈ system.streams, stream.gone = false → StreamHeld system.record fanned stream

theorem streamInvariant_begun : StreamInvariant begunStreams where
  log := logHeld_started
  settled := by
    intro settled
    cases settled
  streams := by
    refine ⟨0, .ended _, ?_⟩
    intro stream member
    cases member

variable {position : Nat}

section

variable {system after : StreamSystem} (invariant : StreamInvariant system)

include invariant

theorem streamInvariant_append (idle : system.isIdle = true)
    (unsettled : isTerminal system.record.status = false) :
    StreamInvariant { system with appending := appendRunEvents events } := by
  obtain ⟨fanned, state, held⟩ := invariant.streams
  have all := state.fanned_of_idle idle
  refine ⟨invariant.log, ?_, system.record.events.length, appendState_called events, ?_⟩
  · intro settled
    have status : isTerminal system.record.status = true := settled
    rw [unsettled] at status
    cases status
  · rw [← all]
    exact held

theorem streamInvariant_advance {happening : Happening}
    (inReach : endsInReach system (.advance happening) = true)
    (taken : system.advance happening = some after) :
    StreamInvariant after := by
  obtain ⟨fanned, state, held⟩ := invariant.streams
  obtain ⟨busy, outcome⟩ := advance_cases state taken
  have unsettled : isTerminal system.record.status = false := by
    by_contra settled
    have idle := invariant.settled (by simpa using settled)
    rw [busy] at idle
    cases idle
  rcases outcome with ⟨sameRecord, sameStreams, next⟩ |
    ⟨events, notEmpty, all, written, sameStreams, next⟩ |
    ⟨earlier, sequenced, resume, notEmpty, log, known, awaits, sameRecord, heard, next⟩
  · refine ⟨sameRecord ▸ invariant.log, ?_, fanned, sameRecord ▸ next, ?_⟩
    · rw [sameRecord, unsettled]
      intro impossible
      cases impossible
    · rw [sameRecord, sameStreams]
      exact held
  · refine ⟨written ▸ invariant.log.append notEmpty, ?_, fanned, next, ?_⟩
    · rw [written]
      show isTerminal system.record.status = true → _
      rw [unsettled]
      intro impossible
      cases impossible
    · rw [written, sameStreams]
      intro stream member present
      rw [all]
      exact (all ▸ held stream member present).appended unsettled (numbered_ne_nil notEmpty _)
  · refine ⟨sameRecord ▸ invariant.log, ?_, system.record.events.length, sameRecord ▸ next, ?_⟩
    · rw [sameRecord, unsettled]
      intro impossible
      cases impossible
    · rw [sameRecord, heard]
      intro stream member present
      obtain ⟨before, beforeMember, same⟩ := List.mem_map.mp member
      have stays := phase_hearAll before sequenced
      rw [same] at stays
      rw [← same]
      refine (known ▸ held before beforeMember
        (stays.2 ▸ present)).heard invariant.log.gapless log ?_
      intro ended
      unfold endsInReach at inReach
      rw [awaits] at inReach
      have reaches : missesEnd sequenced before = false := by
        have each := List.all_eq_true.mp inReach before beforeMember
        simpa [ended] using each
      rw [missesEnd, log, List.getLast?_append_of_ne_nil _ notEmpty]
      exact reaches

theorem streamInvariant_save (may : maySave system record = true) :
    StreamInvariant { system with record := record } := by
  obtain ⟨fanned, state, held⟩ := invariant.streams
  simp only [maySave, Bool.and_eq_true, decide_eq_true_eq] at may
  obtain ⟨⟨⟨⟨idle, unsettled⟩, sameEvents⟩, sameSeq⟩, ends⟩ := may
  refine ⟨⟨?_, ?_⟩, fun _ => idle, fanned, state.saved idle sameEvents, ?_⟩
  · show Gapless RunEvent.seq record.events
    rw [sameEvents]
    exact invariant.log.gapless
  · show nextSeq record = record.events.length
    rw [nextSeq, sameSeq, sameEvents]
    exact invariant.log.next
  · intro stream member present
    refine (held stream member present).saved sameEvents ?_
    intro settled
    rw [settled] at unsettled
    cases unsettled

theorem streamInvariant_changeStream {change : RunStream → Option RunStream}
    (kept : ∀ (fanned : Nat) (stream later : RunStream),
      AppendProgress system.record fanned system.appending →
      system.streams[position]? = some stream →
      change stream = some later → later.gone = false → stream.gone = false ∧
          (StreamHeld system.record fanned stream → StreamHeld system.record fanned later))
    (taken : system.changeStream position change = some after) :
    StreamInvariant after := by
  obtain ⟨fanned, state, held⟩ := invariant.streams
  obtain ⟨stream, located, rest⟩ := Option.bind_eq_some_iff.mp taken
  obtain ⟨later, changed, result⟩ := Option.bind_eq_some_iff.mp rest
  cases result
  refine ⟨invariant.log, invariant.settled, fanned, state, ?_⟩
  intro other member present
  rcases List.mem_or_eq_of_mem_set member with older | same
  · exact held other older present
  · rw [same] at present ⊢
    obtain ⟨wasPresent, keeps⟩ :=
      kept fanned stream later state located changed present
    exact keeps (held stream (List.mem_of_getElem? located) wasPresent)

theorem streamInvariant_step {act : StreamAct} (inReach : endsInReach system act = true)
    (taken : streamStep system act = some after) :
    StreamInvariant after := by
  cases act with
  | append events =>
    rw [streamStep] at taken
    split at taken
    · rename_i may
      cases taken
      obtain ⟨idle, unsettled⟩ := Bool.and_eq_true_iff.mp may
      exact streamInvariant_append invariant idle (by simpa using unsettled)
    · cases taken
  | advance happening => exact streamInvariant_advance invariant inReach taken
  | save record =>
    rw [streamStep] at taken
    split at taken
    · rename_i may
      cases taken
      exact streamInvariant_save invariant may
    · cases taken
  | connect start =>
    obtain ⟨fanned, state, held⟩ := invariant.streams
    cases taken
    refine ⟨invariant.log, invariant.settled, fanned, state, ?_⟩
    intro stream member present
    rcases List.mem_append.mp member with older | new
    · exact held stream older present
    · rw [List.mem_singleton.mp new]
      exact streamHeld_connected system.record fanned start
  | read position =>
    refine streamInvariant_changeStream invariant ?_ taken
    intro fanned stream later state located changed present
    refine ⟨(kept_of_read changed).2 ▸ present, fun held => ?_⟩
    exact held.read invariant.log.gapless state.fannedLe changed
  | resume position =>
    refine streamInvariant_changeStream invariant ?_ taken
    intro fanned stream later state located changed present
    refine ⟨gone_of_resume changed ▸ present, fun held => ?_⟩
    refine held.resume invariant.log.gapless ?_ ?_ changed
    · intro settled
      exact state.fanned_of_idle (invariant.settled settled)
    · intro looked
      have reaches : (system.streams[position]?).all (fun stream =>
          !(stream.phase = .checked false &&
            missesEnd system.record.events stream)) = true := inReach
      rw [located] at reaches
      simpa [looked] using reaches
  | disconnect position =>
    refine streamInvariant_changeStream invariant ?_ taken
    intro fanned stream later state located changed present
    unfold RunStream.cancel at changed
    split at changed
    · cases changed
    · cases changed
      cases present

end

theorem dueEvents_eq {events : List RunEvent}
    (gapless : Gapless RunEvent.seq events) (start : Nat) :
    dueEvents events start = throughFirst isTerminalEvent (events.drop start) := by
  rw [dueEvents, gapless.filter_le]

variable {stream : RunStream}

theorem moves_of_unended (record : StoredAgentRun) (unended : stream.phase ≠ .ended) :
    (∃ later, stream.read record = some later ∧ stream.phase.order < later.phase.order) ∨
    (∃ later, stream.resume = some later ∧ stream.phase.order < later.phase.order) := by
  unfold RunStream.read RunStream.resume
  cases phase : stream.phase with
  | replaying => exact Or.inl ⟨_, rfl, Nat.lt_succ_self 0⟩
  | replayed persisted =>
    refine Or.inr ?_
    dsimp only
    split
    · exact ⟨_, rfl, by simp [StreamPhase.order]⟩
    · split
      · exact ⟨_, rfl, by simp [StreamPhase.order]⟩
      · exact ⟨_, rfl, by simp [StreamPhase.order]⟩
  | checking => exact Or.inl ⟨_, rfl, Nat.lt_succ_self 2⟩
  | checked settled =>
    refine Or.inr ?_
    dsimp only
    split
    · exact ⟨_, rfl, by simp [StreamPhase.order]⟩
    · exact ⟨_, rfl, by simp [StreamPhase.order]⟩
  | catchingUp start => exact Or.inl ⟨_, rfl, Nat.lt_succ_self 4⟩
  | caughtUp more => exact Or.inr ⟨_, rfl, Nat.lt_succ_self 5⟩
  | ended => exact absurd phase unended

theorem changeStream_of_found {later : RunStream} {change : RunStream → Option RunStream}
    (located : system.streams[position]? = some stream) (changed : change stream = some later) :
    ∃ after, system.changeStream position change = some after ∧
      after.streams[position]? = some later := by
  refine ⟨{ system with streams := system.streams.set position later }, ?_, ?_⟩
  · rw [StreamSystem.changeStream, located]
    show (change stream >>= _) = _
    rw [changed]
    rfl
  · obtain ⟨inside, _⟩ := List.getElem?_eq_some_iff.mp located
    exact List.getElem?_set_self inside

theorem stream_proceeds (located : system.streams[position]? = some stream)
    (unended : stream.phase ≠ .ended) :
    ∃ (act : StreamAct) (after : StreamSystem) (later : RunStream),
      streamStep system act = some after ∧ after.streams[position]? = some later ∧
        stream.phase.order < later.phase.order := by
  rcases moves_of_unended system.record unended with
    ⟨later, changed, further⟩ | ⟨later, changed, further⟩
  · obtain ⟨after, stepped, found⟩ :=
      changeStream_of_found located changed
    exact ⟨.read position, after, later, stepped, found, further⟩
  · obtain ⟨after, stepped, found⟩ :=
      changeStream_of_found located changed
    exact ⟨.resume position, after, later, stepped, found, further⟩

theorem streamsHeld_of_invariant {system : StreamSystem} (invariant : StreamInvariant system) :
    StreamsHeld system := by
  obtain ⟨fanned, state, held⟩ := invariant.streams
  have gapless := invariant.log.gapless
  refine ⟨gapless, ?_, ?_, ?_, ?_, ?_⟩
  · intro stream member present
    rw [dueEvents_eq gapless]
    rcases held stream member present with closed | ⟨reading, phase⟩
    · rw [closed.taken]
    · exact reading.taken_within
  · intro stream member present isClosed
    rw [dueEvents_eq gapless]
    rcases held stream member present with closed | ⟨reading, phase⟩
    · exact closed.taken
    · rw [reading.isOpen] at isClosed
      cases isClosed
  · intro stream member present ended idle
    rw [dueEvents_eq gapless]
    rcases held stream member present with closed | ⟨reading, phase⟩
    · exact closed.taken
    · unfold PhaseHeld at phase
      rw [ended] at phase
      refine reading.taken_eq ?_
      rw [← state.fanned_of_idle idle]
      exact phase.1.reached
  · intro stream member present reason
    rcases held stream member present with closed | ⟨reading, phase⟩
    · exact closed.isClosed
    · rcases reason with ⟨event, taken, terminal⟩ | ⟨ended, idle, ends⟩
      · rw [reading.unfinished event taken] at terminal
        cases terminal
      · unfold PhaseHeld at phase
        rw [ended] at phase
        rw [phase.2 (state.fanned_of_idle idle)] at ends
        cases ends
  · intro position stream located unended
    exact stream_proceeds located unended

/-- Every stream delivers what is persisted from its start on, each event
once and in order, through the first terminal event, and then closes, if no
stream that starts behind the terminal event ends before the run is
settled. -/
theorem streams_deliver_exactly_once {acts : List StreamAct} {system : StreamSystem}
    (meets : StepsMeet streamStep
      (fun before act => endsInReach before act = true) begunStreams acts)
    (executed : runFrom streamStep begunStreams acts = some system) :
    StreamsHeld system :=
  streamsHeld_of_invariant (invariant_of_stepsMeet StreamInvariant
      (fun _ _ _ invariant inReach taken => streamInvariant_step invariant inReach taken)
      streamInvariant_begun meets executed)

def quiet : Happening where
  thrown := none
  flag := false
  reply := ⟨none, none⟩
  catalog := []
  decision := .allow
  count := 0
  text := []

/-- One event is persisted when a stream connects; the terminal one is
written and fanned out between the read of its replay and its drain. -/
def replayAndTail : List StreamAct :=
  [.append [.turnStarted 0], .advance quiet, .advance quiet,
    .advance quiet, .connect 0, .append [.error []], .advance quiet,
    .read 0, .advance quiet, .advance quiet, .resume 0]

theorem streams_deliver_exactly_once_replayAndTail :
    ∃ system, runFrom streamStep begunStreams replayAndTail = some system ∧
      (system.streams.map fun stream =>
        (stream.reader.taken.map RunEvent.seq, stream.reader.closed)) = [([0, 1], true)] ∧
      StreamsHeld system := by
  have executed : (runFrom streamStep begunStreams replayAndTail).map
      (fun system => system.streams.map fun stream =>
        (stream.reader.taken.map RunEvent.seq, stream.reader.closed)) =
      some [([0, 1], true)] := by
    decide +kernel
  obtain ⟨system, reached, seen⟩ := Option.map_eq_some_iff.mp executed
  exact ⟨system, reached, seen, streams_deliver_exactly_once (by decide +kernel) reached⟩

/-- A stream that starts behind the terminal event finds the run running,
before that event is appended. -/
def startedBehind : List StreamAct :=
  [.connect 1, .read 0, .resume 0, .read 0, .resume 0, .append [.error []],
    .advance quiet, .advance quiet, .advance quiet]

/-- It stays open after the run has ended. -/
theorem stream_stays_open :
    ¬ ∀ acts system, runFrom streamStep begunStreams acts = some system → StreamsHeld system := by
  intro claimed
  have executed : (runFrom streamStep begunStreams startedBehind).map
      (fun system => (system.streams.map fun stream =>
        (stream.gone, stream.phase, stream.reader.closed),
        system.isIdle, endsRun system.record.events)) =
      some ([(false, .ended, false)], true, true) := by
    decide +kernel
  obtain ⟨system, reached, seen⟩ := Option.map_eq_some_iff.mp executed
  have held := claimed startedBehind system reached
  obtain ⟨streams, atRest⟩ := Prod.mk.inj seen
  obtain ⟨idle, ends⟩ := Prod.mk.inj atRest
  obtain ⟨stream, single, shown⟩ := List.map_eq_singleton_iff.mp streams
  obtain ⟨present, left⟩ := Prod.mk.inj shown
  obtain ⟨ended, stillOpen⟩ := Prod.mk.inj left
  have closed := held.closes stream (by simp [single]) present (Or.inr ⟨ended, idle, ends⟩)
  rw [stillOpen] at closed
  cases closed

end Aprovan.Agents
