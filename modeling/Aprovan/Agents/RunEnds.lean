import Aprovan.Agents.RunLoop

/-!
# How an agent run ends

The record of a run is settled by the save after the loop.  Where nothing fails
outside of the blocks that catch, it is settled with a closed log, and
otherwise it is left running.
-/

namespace Aprovan.Agents

open Aprovan.Library

/-- Where the loop is: it comes to its check before anything else, it is in
a turn, or its check has found the flag. -/
inductive LoopCourse where
  | approaching
  | underway
  | cancelled
  deriving DecidableEq

/-- The record as the run has written it, what it has asked for, and whether
something was thrown outside of the blocks that catch. -/
structure RunMemory where
  stored : Option StoredAgentRun
  (modelCalls toolCalls : Nat)
  /-- The tool calls that were taken from responses, and those that the last
  response still holds. -/
  (taken pending : Nat)
  /-- The next append reports the success of a tool. -/
  (guarded escaped registered : Bool)
  course : LoopCourse

def RunMemory.blank : RunMemory :=
  ⟨none, 0, 0, 0, 0, false, false, false, .approaching⟩

variable (memory : RunMemory)

def RunMemory.wrote (record : StoredAgentRun) : RunMemory :=
  { memory with stored := some record, guarded := false }

def RunMemory.threw : RunMemory :=
  if memory.guarded then { memory with guarded := false }
  else { memory with escaped := true }

/-- The course after something that leads to the next check if there is
nothing else. -/
def RunMemory.towards (last : Bool) : LoopCourse :=
  if last then .approaching else memory.course

def invokesTool (call : ChatToolCall) : Bool :=
  match decodeToolCall call with
  | .callTool _ _ _ => true
  | _ => false

variable (settings : RunSettings)

def RunMemory.take (memory : RunMemory) (requested : Option ChatToolCall) : RunMemory :=
  { memory with
      taken := memory.taken + 1
      pending := memory.pending - 1
      course := memory.towards (memory.pending ≤ 1 &&
        settings.toolCap.all (memory.taken < ·) && requested.all (!invokesTool ·)) }

def RunMemory.invoked (succeeded : Bool) : RunMemory :=
  { memory with
      toolCalls := memory.toolCalls + 1
      guarded := succeeded
      course := memory.towards (memory.pending = 0) }

def RunMemory.responded (reply : Option ModelReply) : RunMemory :=
  { memory with
      modelCalls := memory.modelCalls + 1
      pending :=
        ((reply.bind ModelReply.message).map (·.toolCalls.length)).getD 0 }

def RunMemory.remember (memory : RunMemory) (statement : RunStatement)
    (answer : Except Text statement.Answer) : RunMemory :=
  match statement, answer with
  | .writeRecord record, .ok _ => memory.wrote record
  | .register, .ok _ => { memory with registered := true }
  | .isCancelled, .ok flagged =>
    { memory with course := if flagged then .cancelled else .underway }
  | .createChatCompletion _, .ok reply => memory.responded (some reply)
  | .createChatCompletion _, .error _ => memory.responded none
  | .readCallId requested, .ok _ => memory.take settings requested
  | .invokeTool _ _ _, .ok _ => memory.invoked true
  | .invokeTool _ _ _, .error _ => memory.invoked false
  | _, .ok _ => memory
  | _, .error _ => memory.threw

def OpenLog (events : List RunEvent) : Prop :=
  ∀ event ∈ events, isTerminalEvent event = false

def ClosedLog (events : List RunEvent) : Prop :=
  ∃ before last, events = before ++ [last] ∧ OpenLog before ∧ isTerminalEvent last = true

def RunMemory.IsOpen : Prop :=
  ∀ stored, memory.stored = some stored → stored.status = .running

/-- A record is settled only when its log is closed, and as cancelled if the
loop has found the flag. -/
structure RunMemory.MayWrite (record : StoredAgentRun) : Prop where
  decided : record.status ≠ .running → memory.course ≠ .approaching
  flagged : record.status ≠ .running → memory.course = .cancelled → record.status = .cancelled
  closed : isTerminal record.status = true → ClosedLog record.events

def RunMemory.mayAsk (memory : RunMemory) : RunStatement → Prop
  | .writeRecord record => memory.MayWrite record
  | .register => memory.registered = false
  | .isCancelled => memory.course = .approaching
  | .createChatCompletion _ => memory.modelCalls < settings.turnCap
  | .readCallId _ => memory.course = .underway
  | .invokeTool _ _ _ => memory.course = .underway ∧
      ∀ toolCap, settings.toolCap = some toolCap → memory.toolCalls < toolCap
  | .unregister => memory.escaped = true ∨ memory.course ≠ .approaching
  | .cancelLive _ => False
  | _ => True

def RunMemory.admits (memory : RunMemory) (statement : RunStatement) : Prop :=
  memory.IsOpen ∧ memory.mayAsk settings statement

/-- The store answers with the record that the run has written; a null call
has no id; what is asked of this process does not fail. -/
def RunMemory.possible (statement : RunStatement) (answer : Except Text statement.Answer) : Prop :=
  match statement, answer with
  | .readRecord, .ok found => found = memory.stored
  | .readCallId requested, .ok _ => requested.isSome = true
  | .fanOut _, .error _ => False
  | .register, .error _ => False
  | .unregister, .error _ => False
  | .isCancelled, .error _ => False
  | .isPastDeadline, .error _ => False
  | _, _ => True

def runDiscipline : Discipline RunStatement.Answer Text RunMemory where
  admits := RunMemory.admits settings
  possible := RunMemory.possible
  remember := RunMemory.remember settings

/-- Something was thrown that nothing catches. -/
structure HasEscaped : Prop where
  escaped : memory.escaped = true
  isOpen : memory.IsOpen

/-- A part ends as `ends` says, or something has escaped. -/
def exits {Value : Type} (ends : RunMemory → Value → Prop) (memory : RunMemory) :
    Except Text Value → Prop
  | .ok value => ends memory value
  | .error _ => HasEscaped memory

/-- Between two statements of the loop, the run's copy is what is stored. -/
structure InStep (memory : RunMemory) (record : StoredAgentRun) : Prop where
  stored : memory.stored = some record
  running : record.status = .running
  openLog : OpenLog record.events
  kept : memory.escaped = false
  unguarded : memory.guarded = false
  turns : memory.modelCalls ≤ settings.turnCap
  invoked : memory.toolCalls ≤ memory.taken
  calls : ∀ toolCap, settings.toolCap = some toolCap → memory.toolCalls ≤ toolCap

section

variable {settings : RunSettings} {memory : RunMemory}
  {record : StoredAgentRun} {state : LoopState} {Value Result : Type}
  {ends : RunMemory → Value → Prop}

def LoopState.emitted (state : LoopState) (event : RunEventInput) : LoopState :=
  { state with
      record := state.record.append [⟨nextSeq state.record, event⟩] }

theorem isOpen_of_running (stored : memory.stored = some record)
    (running : record.status = .running) :
    memory.IsOpen := by
  intro other found
  rw [stored] at found
  rw [← Option.some.inj found]
  exact running

theorem InStep.isOpen (inStep : InStep settings memory record) : memory.IsOpen :=
  isOpen_of_running inStep.stored inStep.running

theorem hasEscaped_threw (stored : memory.stored = some record)
    (running : record.status = .running) (unguarded : memory.guarded = false) :
    HasEscaped memory.threw := by
  rw [RunMemory.threw, unguarded]
  exact ⟨rfl, isOpen_of_running stored running⟩

theorem InStep.hasEscaped (inStep : InStep settings memory record) : HasEscaped memory.threw :=
  hasEscaped_threw inStep.stored inStep.running inStep.unguarded

theorem InStep.emitted (event : RunEventInput) (inStep : InStep settings memory state.record)
    (plain : isTerminalEvent ⟨0, event⟩ = false) :
    InStep settings (memory.wrote (state.emitted event).record) (state.emitted event).record := by
  refine ⟨rfl, inStep.running, ?_, inStep.kept, rfl, inStep.turns, inStep.invoked, inStep.calls⟩
  intro other member
  rcases List.mem_append.mp member with old | new
  · exact inStep.openLog other old
  · rw [List.mem_singleton.mp new]
    exact plain

variable {event : RunEventInput}

theorem follows_append (after : Except Text (List RunEvent) → RunMemory → Prop)
    (stored : memory.stored = some record) (running : record.status = .running)
    (fails : ∀ thrown, after (.error thrown) memory.threw)
    (succeeds : after (.ok [⟨nextSeq record, event⟩])
      (memory.wrote (record.append [⟨nextSeq record, event⟩]))) :
    Follows (runDiscipline settings) (fun memory outcome => after outcome memory) memory
      (appendRunEvents [event]) := by
  have mayWrite : memory.MayWrite (record.append [⟨nextSeq record, event⟩]) := by
    refine ⟨?_, ?_, ?_⟩
    · intro settled
      exact (settled running).elim
    · intro settled
      exact (settled running).elim
    · intro settled
      have now : isTerminal record.status = true := settled
      rw [running] at now
      cases now
  have isOpen := isOpen_of_running stored running
  refine follows_await ⟨isOpen, trivial⟩ (fun thrown _ => fails thrown) ?_
  intro found possible
  have same : found = some record := possible.trans stored
  subst same
  refine follows_await ⟨isOpen, mayWrite⟩ (fun thrown _ => fails thrown) ?_
  intro written _
  refine follows_await ⟨isOpen_of_running rfl running, trivial⟩
    (fun _ possible => possible.elim) ?_
  intro shown possible
  exact succeeds

theorem follows_emit {event : RunEventInput} (after : Except Text LoopState → RunMemory → Prop)
    (stored : memory.stored = some state.record) (running : state.record.status = .running)
    (fails : ∀ thrown, after (.error thrown) memory.threw)
    (succeeds : after (.ok (state.emitted event)) (memory.wrote (state.emitted event).record)) :
    Follows (runDiscipline settings) (fun memory outcome => after outcome memory) memory
      (emit event state) := by
  apply follows_bind
  refine follows_append (fun outcome memory => _) stored running ?_ ?_
  · exact fails
  · exact succeeds

theorem follows_emit_last {event : RunEventInput} {next : LoopState → RunCall Value}
    (inStep : InStep settings memory state.record)
    (after : Follows (runDiscipline settings) (exits ends)
      (memory.wrote (state.emitted event).record)
      (next (state.emitted event))) :
    Follows (runDiscipline settings) (exits ends) memory (emit event state >>= next) := by
  apply follows_bind
  refine follows_emit (fun outcome memory => _) inStep.stored inStep.running ?_ ?_
  · intro thrown
    exact inStep.hasEscaped
  · exact after

theorem follows_emit_then {next : LoopState → RunCall Value}
    (inStep : InStep settings memory state.record) (plain : isTerminalEvent ⟨0, event⟩ = false)
    (after : InStep settings (memory.wrote (state.emitted event).record)
        (state.emitted event).record →
      Follows (runDiscipline settings) (exits ends) (memory.wrote (state.emitted event).record)
        (next (state.emitted event))) :
    Follows (runDiscipline settings) (exits ends) memory (emit event state >>= next) := by
  exact follows_emit_last inStep (after (inStep.emitted event plain))

theorem follows_attempt_then {process : RunCall Value} {next : Except Text Value → RunCall Result}
    {concludes : RunMemory → Except Text Result → Prop}
    (follows : Follows (runDiscipline settings)
      (fun memory outcome => Follows (runDiscipline settings) concludes memory (next outcome))
      memory process) :
    Follows (runDiscipline settings) concludes memory (attempt process >>= next) := by
  apply follows_bind
  apply follows_rescue
  refine follows_then follows (fun _ _ ended => ended) ?_
  intro afterwards value ended
  exact ended

/-- A statement that changes nothing the run remembers; it may fail. -/
def isQuestion : RunStatement → Prop
  | .catalogForNamespace _ => True
  | .evaluateDispatch _ _ _ => True
  | .isAlwaysAsk _ _ => True
  | .countQueuedForRun => True
  | .raiseJitCard _ => True
  | _ => False

theorem follows_question_then {statement : RunStatement}
    {next : statement.Answer → RunCall Value} (question : isQuestion statement)
    (inStep : InStep settings memory record)
    (after : ∀ answer, Follows (runDiscipline settings) (exits ends) memory (next answer)) :
    Follows (runDiscipline settings) (exits ends) memory (askRun statement >>= next) := by
  have both : memory.mayAsk settings statement ∧
      (∀ answer, memory.remember settings statement (.ok answer) = memory) ∧
      ∀ thrown, memory.remember settings statement (.error thrown) = memory.threw := by
    cases statement with
    | catalogForNamespace toolNamespace => exact ⟨trivial, fun _ => rfl, fun _ => rfl⟩
    | evaluateDispatch toolNamespace operation resource =>
      exact ⟨trivial, fun _ => rfl, fun _ => rfl⟩
    | isAlwaysAsk appId name => exact ⟨trivial, fun _ => rfl, fun _ => rfl⟩
    | countQueuedForRun => exact ⟨trivial, fun _ => rfl, fun _ => rfl⟩
    | raiseJitCard request => exact ⟨trivial, fun _ => rfl, fun _ => rfl⟩
    | _ => exact question.elim
  obtain ⟨admitted, answered, failed⟩ := both
  apply follows_bind
  refine ⟨⟨inStep.isOpen, admitted⟩, ?_⟩
  intro answer _
  cases answer with
  | ok value =>
    show Follows _ _ (memory.remember settings statement _) _
    rw [answered]
    exact after value
  | error thrown =>
    show HasEscaped (memory.remember settings statement _)
    rw [failed]
    exact inStep.hasEscaped

structure Concluding (settings : RunSettings) (memory : RunMemory)
    (status : AgentRunStatus) : Prop where
  kept : memory.escaped = false
  unguarded : memory.guarded = false
  decided : memory.course ≠ .approaching
  flagged : memory.course = .cancelled → status = .cancelled
  turns : memory.modelCalls ≤ settings.turnCap
  calls : ∀ toolCap, settings.toolCap = some toolCap → memory.toolCalls ≤ toolCap

/-- How the loop may be left. -/
structure LeftWell (settings : RunSettings) (memory : RunMemory) (ended : LoopEnd) : Prop where
  stored : memory.stored = some ended.state.record
  running : ended.state.record.status = .running
  log : OpenLog ended.state.record.events ∨ (ClosedLog ended.state.record.events ∧
      ended.state.record.events.any isErrorEvent = true)
  settled : ended.status ≠ .running
  waits : ended.status = .awaitingTools → OpenLog ended.state.record.events
  concluding : Concluding settings memory ended.status

/-- A call of the response was answered, and some are left. -/
structure MayGoOn (settings : RunSettings) (asked left : Nat)
    (memory : RunMemory) (state : LoopState) : Prop where
  inStep : InStep settings memory state.record
  taken : memory.taken = state.usage.toolCalls
  turns : memory.modelCalls = asked
  pending : memory.pending = left
  course : memory.course = if left = 0 then .approaching else .underway

structure InCall (settings : RunSettings) (asked left : Nat)
    (memory : RunMemory) (state : LoopState) : Prop where
  inStep : InStep settings memory state.record
  taken : memory.taken = state.usage.toolCalls
  turns : memory.modelCalls = asked
  pending : memory.pending = left
  fresh : memory.toolCalls < memory.taken
  within : ∀ toolCap, settings.toolCap = some toolCap → memory.taken ≤ toolCap

def callEnds (settings : RunSettings) (asked left : Nat) (memory : RunMemory) : CallEnd → Prop
  | .goesOn next => MayGoOn settings asked left memory next.1
  | .stops ended => LeftWell settings memory ended

/-- A tool call keeps to the discipline and ends well. -/
abbrev AnswersCall (settings : RunSettings) (asked left : Nat)
    (memory : RunMemory) (process : RunCall CallEnd) : Prop :=
  Follows (runDiscipline settings) (exits (callEnds settings asked left)) memory process

theorem InStep.leftWell {ended : LoopEnd} (inStep : InStep settings memory ended.state.record)
    (settled : ended.status ≠ .running) (underway : memory.course = .underway) :
    LeftWell settings memory ended := by
  refine ⟨inStep.stored, inStep.running, Or.inl inStep.openLog, settled,
    fun _ => inStep.openLog, inStep.kept, inStep.unguarded, ?_, ?_,
    inStep.turns, inStep.calls⟩
  · rw [underway]
    intro impossible
    cases impossible
  · rw [underway]
    intro impossible
    cases impossible

variable {host : AgentHost} {asked left : Nat} {place : CallPlace}

theorem MayGoOn.emitted (event : RunEventInput) (goesOn : MayGoOn settings asked left memory state)
    (plain : isTerminalEvent ⟨0, event⟩ = false) :
    MayGoOn settings asked left (memory.wrote (state.emitted event).record) (state.emitted event) :=
  ⟨goesOn.inStep.emitted event plain, goesOn.taken, goesOn.turns, goesOn.pending, goesOn.course⟩

theorem follows_emit_goesOn {recorded : List AgentToolCall}
    (goesOn : MayGoOn settings asked left memory state)
    (plain : isTerminalEvent ⟨0, event⟩ = false) :
    AnswersCall settings asked left memory (emit event state >>= fun state =>
        pure (.goesOn (state, recorded))) := by
  apply follows_emit_then goesOn.inStep plain
  intro _
  exact goesOn.emitted event plain

variable {args : ToolArgs}

theorem follows_answerFailure {name message : Text}
    (goesOn : MayGoOn settings asked left memory state) :
    AnswersCall settings asked left memory (answerFailure host place state name args message) := by
  refine follows_emit_goesOn ?_ rfl
  exact ⟨goesOn.inStep, goesOn.taken, goesOn.turns, goesOn.pending, goesOn.course⟩

theorem InCall.invoked (inCall : InCall settings asked left memory state)
    (underway : memory.course = .underway) :
    MayGoOn settings asked left (memory.invoked false) state := by
  have inStep := inCall.inStep
  have more : memory.toolCalls + 1 ≤ memory.taken := inCall.fresh
  refine ⟨⟨inStep.stored, inStep.running, inStep.openLog, inStep.kept, rfl,
    inStep.turns, more, ?_⟩, inCall.taken, inCall.turns, inCall.pending, ?_⟩
  · intro toolCap capped
    exact Nat.le_trans more (inCall.within toolCap capped)
  · show memory.towards (memory.pending = 0) = _
    rw [RunMemory.towards, inCall.pending, underway]
    simp only [decide_eq_true_eq]

variable {toolNamespace operation : Text}

theorem follows_answerInvoke (inCall : InCall settings asked left memory state)
    (underway : memory.course = .underway) :
    AnswersCall settings asked left memory
      (answerInvoke host place state toolNamespace operation args) := by
  have goesOn := inCall.invoked underway
  apply follows_attempt_then
  refine ⟨⟨inCall.inStep.isOpen, underway, ?_⟩, ?_⟩
  · intro toolCap capped
    exact Nat.lt_of_lt_of_le inCall.fresh (inCall.within toolCap capped)
  · intro answer _
    cases answer with
    | error message => exact follows_answerFailure goesOn
    | ok body =>
      apply follows_attempt_then
      refine follows_emit (fun outcome memory => _)
        goesOn.inStep.stored goesOn.inStep.running ?_ ?_
      · intro message
        apply follows_answerFailure
        exact ⟨goesOn.inStep, goesOn.taken, goesOn.turns, goesOn.pending, goesOn.course⟩
      · let told := state.tell place.callId (truncate body maxToolResultBytes)
        have toldOn : MayGoOn settings asked left (memory.invoked false) told :=
          ⟨goesOn.inStep, goesOn.taken, goesOn.turns, goesOn.pending, goesOn.course⟩
        exact toldOn.emitted _ rfl

theorem follows_answerDenied {name : Text} (inStep : InStep settings memory state.record)
    (underway : memory.course = .underway) :
    AnswersCall settings asked left memory (answerDenied settings place state name) := by
  refine follows_emit_then inStep rfl ?_
  intro finished
  refine follows_emit_then finished rfl ?_
  intro closed
  refine closed.leftWell ?_ underway
  intro impossible
  cases impossible

variable {resource : Option Text}

section

variable (inStep : InStep settings memory state.record)
  (underway : memory.course = .underway)

include inStep underway

theorem follows_awaitApproval {name cardId errorMessage : Text} {payload : PendingPayload} :
    AnswersCall settings asked left memory
      (awaitApproval settings place state name resource cardId payload errorMessage) := by
  refine follows_emit_then inStep rfl ?_
  intro finished
  refine follows_emit_then finished rfl ?_
  intro told
  refine follows_emit_then told rfl ?_
  intro closed
  refine closed.leftWell ?_ underway
  intro impossible
  cases impossible

theorem follows_answerQueued {queuedActionId : Text} :
    AnswersCall settings asked left memory
      (answerQueued settings place state toolNamespace operation resource queuedActionId) := by
  refine follows_question_then trivial inStep ?_
  intro queued
  refine follows_question_then trivial inStep ?_
  intro cardId
  exact follows_awaitApproval inStep underway

theorem follows_answerAsked {cardId : Option Text} {alwaysAsk : Bool} :
    AnswersCall settings asked left memory
      (answerAsked settings place state toolNamespace operation resource cardId alwaysAsk) := by
  refine follows_question_then trivial inStep ?_
  intro raised
  refine follows_question_then trivial inStep ?_
  intro queued
  exact follows_awaitApproval inStep underway

end

theorem InCall.emitted (event : RunEventInput) (inCall : InCall settings asked left memory state)
    (plain : isTerminalEvent ⟨0, event⟩ = false) :
    InCall settings asked left (memory.wrote (state.emitted event).record) (state.emitted event) :=
  ⟨inCall.inStep.emitted event plain, inCall.taken, inCall.turns,
    inCall.pending, inCall.fresh, inCall.within⟩

theorem follows_answerCallTool (inCall : InCall settings asked left memory state)
    (underway : memory.course = .underway) :
    AnswersCall settings asked left memory
      (answerCallTool host settings place state toolNamespace operation args) := by
  refine follows_emit_then inCall.inStep rfl ?_
  intro inStep
  have begun := inCall.emitted (.toolCallStarted place.turn
    place.callId toolNamespace operation (.given args)) rfl
  refine follows_question_then trivial inStep ?_
  intro decision
  cases decision with
  | deny => exact follows_answerDenied inStep underway
  | queue queuedActionId => exact follows_answerQueued inStep underway
  | ask cardId => exact follows_answerAsked inStep underway
  | allow =>
    refine follows_question_then trivial inStep ?_
    intro alwaysAskHit
    cases alwaysAskHit with
    | true => exact follows_answerAsked inStep underway
    | false => exact follows_answerInvoke begun underway

theorem follows_runDescribe {query cursor : Option Text} {allowed : List Text}
    (inStep : InStep settings memory record) :
    Follows (runDiscipline settings) (exits fun after _ => after = memory)
      memory (runDescribe host allowed toolNamespace query cursor) := by
  unfold runDescribe
  split
  · refine follows_question_then trivial inStep ?_
    intro catalog
    rfl
  · rfl

theorem follows_answerDescribe {toolNamespace : Text} {query cursor : Option Text}
    (goesOn : MayGoOn settings asked left memory state) :
    AnswersCall settings asked left memory
      (answerDescribe host settings place state toolNamespace query cursor) := by
  refine follows_emit_then goesOn.inStep rfl ?_
  intro inStep
  have begun := goesOn.emitted (.toolCallStarted place.turn
    place.callId toolNamespace "describe".toList
    (.described toolNamespace query cursor)) rfl
  refine follows_then (follows_runDescribe inStep) (fun _ _ ended => ended) ?_
  intro after result ended
  have same : after = _ := ended
  rw [same]
  refine follows_emit_goesOn ?_ rfl
  exact ⟨begun.inStep, begun.taken, begun.turns, begun.pending, begun.course⟩

/-- A call that counts; one that invokes no tool leads to the check if it is
the last. -/
theorem follows_answerDecoded {call : ChatToolCall}
    (inCall : InCall settings asked left memory state)
    (course : memory.course =
      if left = 0 ∧ invokesTool call = false then .approaching else .underway) :
    AnswersCall settings asked left memory (answerDecoded host settings place state call) := by
  have goesOn (idle : invokesTool call = false) : MayGoOn settings asked left memory state := by
    refine ⟨inCall.inStep, inCall.taken, inCall.turns, inCall.pending, ?_⟩
    rw [course]
    simp only [idle, and_true]
  unfold answerDecoded
  cases decoded : decodeToolCall call with
  | error message =>
    have idle : invokesTool call = false := by rw [invokesTool, decoded]
    have now := goesOn idle
    exact ⟨now.inStep, now.taken, now.turns, now.pending, now.course⟩
  | describe toolNamespace query cursor =>
    have idle : invokesTool call = false := by rw [invokesTool, decoded]
    exact follows_answerDescribe (goesOn idle)
  | callTool toolNamespace operation args =>
    have invokes : invokesTool call = true := by rw [invokesTool, decoded]
    rw [invokes, if_neg (fun both => absurd both.2 (by simp))] at course
    exact follows_answerCallTool inCall course

/-- One call of a response that has been in a turn since its last check. -/
theorem follows_answerCall {turn : Nat} {recorded : List AgentToolCall}
    {requested : Option ChatToolCall} (inStep : InStep settings memory state.record)
    (taken : memory.taken = state.usage.toolCalls) (turns : memory.modelCalls = asked)
    (pending : memory.pending = left + 1) (underway : memory.course = .underway) :
    AnswersCall settings asked left memory
      (answerCall host settings turn state recorded requested) := by
  apply follows_bind
  refine follows_await ⟨inStep.isOpen, underway⟩ (fun _ _ => inStep.hasEscaped) ?_
  intro id possible
  obtain ⟨call, rfl⟩ := Option.isSome_iff_exists.mp possible
  have now : InStep settings (memory.take settings (some call)) state.record :=
    ⟨inStep.stored, inStep.running, inStep.openLog, inStep.kept,
      inStep.unguarded, inStep.turns, Nat.le_succ_of_le inStep.invoked,
      inStep.calls⟩
  apply follows_pure
  dsimp only
  cases reached : settings.toolCap.filter (· ≤ state.usage.toolCalls) with
  | some toolCap =>
    obtain ⟨capped, atCap⟩ := Option.filter_eq_some_iff.mp reached
    have full : memory.taken < toolCap → False := by
      rw [taken]
      exact Nat.not_lt_of_le (of_decide_eq_true atCap)
    have still : (memory.take settings (some call)).course = .underway := by
      simp only [RunMemory.take, RunMemory.towards, capped,
        Option.all_some, decide_eq_false full, Bool.and_false,
        Bool.false_and, Bool.false_eq_true, if_false, underway]
    refine follows_emit_then now rfl ?_
    intro closed
    refine closed.leftWell ?_ still
    intro impossible
    cases impossible
  | none =>
    have below : ∀ toolCap, settings.toolCap = some toolCap → memory.taken < toolCap := by
      intro toolCap capped
      rw [capped, Option.filter_some] at reached
      by_cases atCap : toolCap ≤ state.usage.toolCalls
      · simp [atCap] at reached
      · omega
    have counts : settings.toolCap.all (memory.taken < ·) = true :=
      (Option.all_eq_true _ _).mpr fun toolCap capped => decide_eq_true (below toolCap capped)
    apply follows_answerDecoded
    · refine ⟨now, ?_, turns, ?_, ?_, below⟩
      · exact congrArg (· + 1) taken
      · show memory.pending - 1 = left
        omega
      · exact Nat.lt_succ_of_le inStep.invoked
    · show memory.towards _ = _
      have last : (memory.pending ≤ 1) ↔ left = 0 := by omega
      simp [RunMemory.towards, counts, underway, last]

variable {turn : Nat}

/-- The calls of a response, of which there is one at least. -/
theorem follows_answerCalls (calls : List (Option ChatToolCall))
    (state : LoopState) (recorded : List AgentToolCall) (memory : RunMemory)
    (goesOn : MayGoOn settings asked calls.length memory state) :
    Follows (runDiscipline settings) (exits (callEnds settings asked 0))
      memory (answerCalls host settings turn calls state recorded) := by
  induction calls generalizing state recorded memory with
  | nil => exact goesOn
  | cons requested rest ih =>
    have underway : memory.course = .underway := by
      rw [goesOn.course]
      rfl
    refine follows_then (follows_answerCall goesOn.inStep goesOn.taken goesOn.turns
      goesOn.pending underway)
      (fun _ _ ended => ended) ?_
    intro after called ended
    cases called with
    | stops left => exact ended
    | goesOn next => exact ih next.1 next.2 after ended

/-- A turn begins, or is over; the loop comes to its check. -/
structure AtCheck (settings : RunSettings) (asked : Nat)
    (memory : RunMemory) (state : LoopState) : Prop where
  inStep : InStep settings memory state.record
  taken : memory.taken = state.usage.toolCalls
  turns : memory.modelCalls = asked

def turnEnds (settings : RunSettings) (asked : Nat) (memory : RunMemory) :
    RoundEnd LoopState → Prop
  | .goesOn next => AtCheck settings asked memory next ∧ memory.course = .approaching
  | .stops ended => LeftWell settings memory ended

theorem AtCheck.emitted (event : RunEventInput) (atCheck : AtCheck settings asked memory state)
    (plain : isTerminalEvent ⟨0, event⟩ = false) :
    AtCheck settings asked (memory.wrote (state.emitted event).record) (state.emitted event) :=
  ⟨atCheck.inStep.emitted event plain, atCheck.taken, atCheck.turns⟩

section

variable {message : ChatMessage}
  (atCheck : AtCheck settings asked memory state)
  (pending : memory.pending = message.toolCalls.length)
  (underway : memory.course = .underway)

include atCheck pending underway

theorem follows_takeCalls :
    Follows (runDiscipline settings) (exits (turnEnds settings asked))
      memory (takeCalls host settings turn state message) := by
  unfold takeCalls
  by_cases silent : message.toolCalls = []
  · rw [if_pos silent]
    refine follows_emit_then atCheck.inStep rfl ?_
    intro closed
    refine closed.leftWell ?_ underway
    intro impossible
    cases impossible
  · rw [if_neg silent]
    have some : message.toolCalls.length ≠ 0 := by
      intro none
      exact silent (List.length_eq_zero_iff.mp none)
    have course : memory.course =
        if message.toolCalls.length = 0 then .approaching else .underway := by
      rw [if_neg some]
      exact underway
    apply follows_bind
    apply Follows.weaken
    · apply follows_answerCalls
      exact ⟨atCheck.inStep, atCheck.taken, atCheck.turns, pending, course⟩
    · intro after outcome ended
      cases outcome with
      | error thrown => exact ended
      | ok called =>
        cases called with
        | stops left => exact ended
        | goesOn next =>
          have goesOn : MayGoOn settings asked 0 after next.1 := ended
          refine follows_emit_then goesOn.inStep rfl ?_
          intro inStep
          exact ⟨⟨inStep, goesOn.taken, goesOn.turns⟩, goesOn.course⟩

theorem follows_takeMessage :
    Follows (runDiscipline settings) (exits (turnEnds settings asked))
      memory (takeMessage host settings turn state message) := by
  unfold takeMessage
  by_cases silent : message.content.getD [] = []
  · simp only [if_pos silent]
    exact follows_takeCalls atCheck pending underway
  · simp only [if_neg silent]
    refine follows_emit_then atCheck.inStep rfl ?_
    intro inStep
    exact follows_takeCalls ⟨inStep, atCheck.taken, atCheck.turns⟩ pending underway

end

theorem toolCalls_addUsage (total : AgentUsage) (reported : Option ReportedUsage) :
    (addUsage total reported).toolCalls = total.toolCalls := by
  cases reported <;> rfl

def modelEnds (memory : RunMemory) (after : RunMemory)
    (answer : Except Text ChatMessage × Option ReportedUsage) : Prop :=
  match answer.1 with
  | .ok message => ∃ reply : ModelReply, reply.message = some message ∧
      after = memory.responded (some reply)
  | .error _ => ∃ reply, after = memory.responded reply

theorem follows_askModel (isOpen : memory.IsOpen)
    (permitted : memory.modelCalls < settings.turnCap) :
    Follows (runDiscipline settings) (exits (modelEnds memory)) memory (askModel state) := by
  apply follows_attempt_then
  refine follows_await ⟨isOpen, permitted⟩ (fun _ _ => ⟨none, rfl⟩) ?_
  intro reply _
  apply follows_pure
  dsimp only
  cases responded : reply.message with
  | none => exact ⟨some reply, rfl⟩
  | some message => exact ⟨reply, responded, rfl⟩

/-- The error that ends a run is its last event. -/
theorem leftWell_error {message : Text} (inStep : InStep settings memory state.record)
    (underway : memory.course = .underway) :
    LeftWell settings (memory.wrote (state.emitted (.error message)).record)
      (stoppedFor (state.emitted (.error message)) .error (some message)) := by
  refine ⟨rfl, inStep.running, Or.inr ⟨?_, ?_⟩, ?_, ?_, inStep.kept, rfl,
    ?_, ?_, inStep.turns, inStep.calls⟩
  · exact ⟨_, _, rfl, inStep.openLog, rfl⟩
  · show (state.record.events ++ [_]).any isErrorEvent = true
    rw [List.any_append, List.any_cons]
    exact Bool.or_true _
  · intro impossible
    cases impossible
  · intro impossible
    cases impossible
  · intro impossible
    cases underway.symm.trans impossible
  · intro impossible
    cases underway.symm.trans impossible

theorem InStep.responded {reply : Option ModelReply} (inStep : InStep settings memory record)
    (permitted : memory.modelCalls < settings.turnCap) :
    InStep settings (memory.responded reply) record :=
  ⟨inStep.stored, inStep.running, inStep.openLog, inStep.kept,
    inStep.unguarded, permitted, inStep.invoked, inStep.calls⟩

theorem follows_runTurn (atCheck : AtCheck settings asked memory state)
    (permitted : asked < settings.turnCap) (underway : memory.course = .underway) :
    Follows (runDiscipline settings) (exits (turnEnds settings (asked + 1)))
      memory (runTurn host settings turn state) := by
  refine follows_emit_then atCheck.inStep rfl ?_
  intro inStep
  have begun := atCheck.emitted (.turnStarted turn) rfl
  have may : (memory.wrote (state.emitted (.turnStarted turn)).record).modelCalls <
        settings.turnCap := by
    rw [begun.turns]
    exact permitted
  refine follows_then (follows_askModel inStep.isOpen may) (fun _ _ ended => ended) ?_
  intro after answered ended
  obtain ⟨answer, reported⟩ := answered
  cases answer with
  | error message =>
    obtain ⟨reply, rfl⟩ := ended
    refine follows_emit_then (inStep.responded may) rfl ?_
    intro closed
    refine follows_emit_last closed ?_
    exact leftWell_error closed underway
  | ok message =>
    obtain ⟨reply, responded, rfl⟩ := ended
    refine follows_takeMessage ⟨inStep.responded may, ?_, congrArg (· + 1) begun.turns⟩ ?_ underway
    · exact begun.taken.trans (toolCalls_addUsage _ reported).symm
    · simp only [RunMemory.responded, Option.bind_some, responded,
        Option.map_some, Option.getD_some]

/-- The loop is underway once its check has not found the flag. -/
def RunMemory.unflagged (memory : RunMemory) : RunMemory :=
  { memory with course := .underway }

theorem InStep.unflagged (inStep : InStep settings memory record) :
    InStep settings memory.unflagged record :=
  ⟨inStep.stored, inStep.running, inStep.openLog, inStep.kept,
    inStep.unguarded, inStep.turns, inStep.invoked, inStep.calls⟩

theorem follows_check {next : RunCall LoopEnd} (inStep : InStep settings memory state.record)
    (approaching : memory.course = .approaching)
    (after : Follows (runDiscipline settings) (exits (LeftWell settings)) memory.unflagged next) :
    Follows (runDiscipline settings) (exits (LeftWell settings)) memory
      (do
        if ← askRun .isCancelled then pure ⟨state, .cancelled, .cancelled, none, none, none⟩
        else if ← askRun .isPastDeadline then
          pure (stoppedFor state .wallClock (some (wallClockMessage settings.wallClockMs)))
        else
          next) := by
  refine follows_await ⟨inStep.isOpen, approaching⟩ (fun _ possible => possible.elim) ?_
  intro flagged possible
  cases flagged with
  | true =>
    refine ⟨inStep.stored, inStep.running, Or.inl inStep.openLog, ?_,
      fun _ => inStep.openLog, inStep.kept, inStep.unguarded, ?_,
      fun _ => rfl, inStep.turns, inStep.calls⟩
    · intro impossible
      cases impossible
    · intro impossible
      cases impossible
  | false =>
    refine follows_await ⟨inStep.isOpen, trivial⟩ (fun _ possible => possible.elim) ?_
    intro late possible
    cases late with
    | true =>
      refine inStep.unflagged.leftWell ?_ rfl
      intro impossible
      cases impossible
    | false => exact after

theorem follows_runTurns (left turn : Nat) (state : LoopState) (memory : RunMemory) (asked : Nat)
    (atCheck : AtCheck settings asked memory state) (approaching : memory.course = .approaching)
    (count : asked + left = settings.turnCap) :
    Follows (runDiscipline settings) (exits (LeftWell settings)) memory
      (runTurns host settings left turn state) := by
  induction left generalizing turn state memory asked with
  | zero =>
    rw [runTurns]
    apply follows_check atCheck.inStep approaching
    refine atCheck.inStep.unflagged.leftWell ?_ rfl
    intro impossible
    cases impossible
  | succ left ih =>
    rw [runTurns]
    apply follows_check atCheck.inStep approaching
    have begun : AtCheck settings asked memory.unflagged state :=
      ⟨atCheck.inStep.unflagged, atCheck.taken, atCheck.turns⟩
    refine follows_then (follows_runTurn begun (by omega) rfl) (fun _ _ ended => ended) ?_
    intro after turned ended
    cases turned with
    | stops left => exact ended
    | goesOn next => exact ih (turn + 1) next after (asked + 1) ended.1 ended.2 (by omega)

/-- What a run leaves that has returned. -/
structure RanWell (settings : RunSettings) (memory : RunMemory)
    (record : StoredAgentRun) : Prop where
  stored : memory.stored = some record
  kept : memory.escaped = false
  settled : record.status = .awaitingTools ∨
    (isTerminal record.status = true ∧ ClosedLog record.events)
  decided : memory.course ≠ .approaching
  flagged : memory.course = .cancelled → record.status = .cancelled
  turns : memory.modelCalls ≤ settings.turnCap
  calls : ∀ toolCap, settings.toolCap = some toolCap → memory.toolCalls ≤ toolCap

theorem isTerminalEvent_of_isErrorEvent {event : RunEvent} (isError : isErrorEvent event = true) :
    isTerminalEvent event = true := by
  unfold isErrorEvent at isError
  unfold isTerminalEvent
  split at isError
  · rename_i message same
    rw [same]
  · cases isError

theorem no_error_of_openLog {events : List RunEvent} (openLog : OpenLog events) :
    events.any isErrorEvent = false := by
  apply List.any_eq_false.mpr
  intro event member isError
  have terminal := isTerminalEvent_of_isErrorEvent isError
  rw [openLog event member] at terminal
  cases terminal

theorem follows_settle (status : AgentRunStatus) {closed : StoredAgentRun}
    (concluding : Concluding settings memory status) (stored : memory.stored = some record)
    (running : record.status = .running) (same : closed.status = status)
    (settled : status = .awaitingTools ∨ (isTerminal status = true ∧ ClosedLog closed.events)) :
    Follows (runDiscipline settings) (exits (RanWell settings)) memory
      (do
        askRun (.writeRecord closed)
        pure closed) := by
  have mayWrite : memory.MayWrite closed := by
    refine ⟨fun _ => concluding.decided, ?_, ?_⟩
    · intro _ flagged
      exact same.trans (concluding.flagged flagged)
    · intro terminal
      rcases settled with awaiting | closedLog
      · rw [same, awaiting] at terminal
        cases terminal
      · exact closedLog.2
  refine follows_await ⟨isOpen_of_running stored running, mayWrite⟩
    (fun _ _ => hasEscaped_threw stored running concluding.unguarded) ?_
  intro written _
  rw [← same] at settled
  exact ⟨rfl, concluding.kept, settled, concluding.decided,
    fun flagged => same.trans (concluding.flagged flagged),
    concluding.turns, concluding.calls⟩

theorem isTerminal_of_settled {status : AgentRunStatus}
    (settled : status ≠ .running) (decided : status ≠ .awaitingTools) :
    isTerminal status = true := by
  cases status with
  | running => exact (settled rfl).elim
  | awaitingTools => exact (decided rfl).elim
  | _ => rfl

theorem follows_finishRun {ended : LoopEnd} (left : LeftWell settings memory ended) :
    Follows (runDiscipline settings) (exits (RanWell settings)) memory
      (finishRun host settings ended) := by
  unfold finishRun
  by_cases finishes : ended.status ≠ .awaitingTools ∧
      ¬ (finishedRecord host settings ended).events.any isErrorEvent
  · rw [if_pos finishes]
    have openLog : OpenLog ended.state.record.events := by
      rcases left.log with openLog | closed
      · exact openLog
      · exact (finishes.2 closed.2).elim
    apply follows_bind
    refine follows_append (fun outcome memory => _) left.stored left.running ?_ ?_
    · intro thrown
      exact hasEscaped_threw left.stored left.running left.concluding.unguarded
    · have concluding := left.concluding
      refine follows_settle ended.status
        ⟨concluding.kept, rfl, concluding.decided, concluding.flagged,
          concluding.turns, concluding.calls⟩ rfl left.running rfl
        (Or.inr ⟨isTerminal_of_settled left.settled finishes.1, ?_⟩)
      exact ⟨_, _, rfl, openLog, rfl⟩
  · rw [if_neg finishes]
    refine follows_settle _ left.concluding left.stored left.running rfl ?_
    by_cases waits : ended.status = .awaitingTools
    · exact Or.inl waits
    · refine Or.inr ⟨isTerminal_of_settled left.settled waits, ?_⟩
      rcases left.log with openLog | closed
      · have none := no_error_of_openLog openLog
        exact (finishes ⟨waits, by simp [finishedRecord, none]⟩).elim
      · exact closed.1

theorem follows_runNativeAgent (host : AgentHost) :
    Follows (runDiscipline settings) (exits (RanWell settings)) .blank
      (runNativeAgent host settings) := by
  have isOpen : RunMemory.blank.IsOpen := by
    intro stored none
    cases none
  refine ⟨⟨isOpen, ?_, ?_, ?_⟩, ?_⟩
  · intro settled
    exact (settled rfl).elim
  · intro settled
    exact (settled rfl).elim
  · intro terminal
    cases terminal
  intro answer _
  cases answer with
  | error thrown => exact ⟨rfl, isOpen⟩
  | ok saved =>
    refine follows_await ⟨isOpen_of_running rfl rfl, rfl⟩ (fun _ possible => possible.elim) ?_
    intro registered possible
    have begun : InStep settings
        { RunMemory.blank.wrote startedRecord with
          registered := true } startedRecord := by
      refine ⟨rfl, rfl, ?_, rfl, rfl, Nat.zero_le _, Nat.le_refl _, ?_⟩
      · intro event member
        cases member
      · intro toolCap _
        exact Nat.zero_le _
    refine follows_emit_then begun rfl ?_
    intro inStep
    apply follows_attempt_then
    apply (follows_runTurns settings.turnCap 0 _ _ 0
      ⟨inStep, rfl, rfl⟩ rfl (Nat.zero_add _)).weaken
    intro after outcome ended
    cases outcome with
    | error thrown =>
      have escaped : HasEscaped after := ended
      refine follows_await ⟨escaped.isOpen, Or.inl escaped.escaped⟩
        (fun _ possible => possible.elim) ?_
      intro unregistered possible
      exact escaped
    | ok left =>
      have leftWell : LeftWell settings after left := ended
      refine ⟨⟨isOpen_of_running leftWell.stored leftWell.running,
        Or.inr leftWell.concluding.decided⟩, ?_⟩
      intro answer possible
      cases answer with
      | error thrown => exact possible.elim
      | ok unregistered => exact follows_finishRun leftWell

end

/-- What happens at a statement: what it throws, if it does, and what it
answers otherwise. -/
structure Happening where
  thrown : Option Text
  flag : Bool
  reply : ModelReply
  catalog : List CatalogOperation
  decision : DispatchDecision
  count : Nat
  text : Text

/-- What a statement throws.  What is done in this process does not fail, and
a null call has no id. -/
def thrownBy (happening : Happening) : RunStatement → Option Text
  | .fanOut _ => none
  | .register => none
  | .unregister => none
  | .isCancelled => none
  | .isPastDeadline => none
  | .cancelLive _ => none
  | .readCallId call =>
    if call.isSome then none else some "call is null".toList
  | _ => happening.thrown

def performRun (happening : Happening) :
    (statement : RunStatement) → Option StoredAgentRun → statement.Answer × Option StoredAgentRun
  | .readRecord, stored => (stored, stored)
  | .writeRecord record, _ => ((), some record)
  | .fanOut _, stored => ((), stored)
  | .register, stored => ((), stored)
  | .unregister, stored => ((), stored)
  | .isCancelled, stored => (happening.flag, stored)
  | .isPastDeadline, stored => (happening.flag, stored)
  | .createChatCompletion _, stored => (happening.reply, stored)
  | .readCallId call, stored => (call.bind (·.id), stored)
  | .catalogForNamespace _, stored => (happening.catalog, stored)
  | .evaluateDispatch _ _ _, stored => (happening.decision, stored)
  | .isAlwaysAsk _ _, stored => (happening.flag, stored)
  | .countQueuedForRun, stored => (happening.count, stored)
  | .raiseJitCard _, stored => (happening.text, stored)
  | .invokeTool _ _ _, stored => (happening.text, stored)
  | .cancelLive _, stored => (happening.flag, stored)

def executeRun (happening : Happening) (statement : RunStatement)
    (stored : Option StoredAgentRun) :
    Except Text statement.Answer × Option StoredAgentRun :=
  match thrownBy happening statement with
  | some message => (.error message, stored)
  | none =>
    let performed := performRun happening statement stored
    (.ok performed.1, performed.2)

/-- The record, and what was asked and answered. -/
structure RunWorld where
  stored : Option StoredAgentRun
  history : List (Executed RunStatement.Answer Text)

def executeIn (happenings : Nat → Happening) (statement : RunStatement) (world : RunWorld) :
    Except Text statement.Answer × RunWorld :=
  let outcome :=
    executeRun (happenings world.history.length) statement world.stored
  (outcome.1, ⟨outcome.2, world.history ++ [⟨0, statement, outcome.1⟩]⟩)

def runAlone (host : AgentHost) (settings : RunSettings) (happenings : Nat → Happening) :
    RunWorld :=
  ((runNativeAgent host settings).run (executeIn happenings) ⟨none, []⟩).state

def isModelCall (entry : Executed RunStatement.Answer Text) : Bool :=
  match entry.statement with
  | .createChatCompletion _ => true
  | _ => false

def isToolCall (entry : Executed RunStatement.Answer Text) : Bool :=
  match entry.statement with
  | .invokeTool _ _ _ => true
  | _ => false

/-- The record is settled, with a closed log if no approval is awaited, and
the caps were kept. -/
structure EndsCleanly (settings : RunSettings) (world : RunWorld) : Prop where
  settled : ∃ record, world.stored = some record ∧ (record.status = .awaitingTools ∨
      (isTerminal record.status = true ∧ ClosedLog record.events))
  turns : world.history.countP isModelCall ≤ settings.turnCap
  calls : ∀ toolCap, settings.toolCap = some toolCap → world.history.countP isToolCall ≤ toolCap

def memoryIn (settings : RunSettings) (world : RunWorld) : RunMemory :=
  memoryOf (runDiscipline settings) .blank world.history 0

/-- Nothing was thrown but by the model, by a tool or by the append that
reports a tool's success. -/
def nothingEscapes (settings : RunSettings) (world : RunWorld) : Bool :=
  !(memoryIn settings world).escaped

/-- What the history tells about the store. -/
structure Told (settings : RunSettings) (world : RunWorld) : Prop where
  stored : world.stored = (memoryIn settings world).stored
  turns : world.history.countP isModelCall = (memoryIn settings world).modelCalls
  calls : world.history.countP isToolCall = (memoryIn settings world).toolCalls

section

variable {settings : RunSettings} {world : RunWorld} {memory : RunMemory}
  {happening : Happening}

@[simp]
theorem stored_threw : memory.threw.stored = memory.stored := by
  unfold RunMemory.threw
  split <;> rfl

@[simp]
theorem modelCalls_threw : memory.threw.modelCalls = memory.modelCalls := by
  unfold RunMemory.threw
  split <;> rfl

@[simp]
theorem toolCalls_threw : memory.threw.toolCalls = memory.toolCalls := by
  unfold RunMemory.threw
  split <;> rfl

section

variable (statement : RunStatement)

theorem possible_execute :
    memory.possible statement (executeRun happening statement memory.stored).1 := by
  cases statement with
  | readCallId call => cases call <;> trivial
  | fanOut events => trivial
  | register => trivial
  | unregister => trivial
  | isCancelled => trivial
  | isPastDeadline => trivial
  | _ =>
    unfold executeRun thrownBy
    cases happening.thrown <;> trivial

theorem stored_remember :
    (executeRun happening statement memory.stored).2 = (memory.remember settings statement
        (executeRun happening statement memory.stored).1).stored := by
  cases statement with
  | readCallId call =>
    cases call with
    | none => exact stored_threw.symm
    | some call => rfl
  | fanOut events => rfl
  | register => rfl
  | unregister => rfl
  | isCancelled => rfl
  | isPastDeadline => rfl
  | cancelLive inOwner => rfl
  | createChatCompletion messages =>
    unfold executeRun thrownBy
    cases happening.thrown <;> rfl
  | invokeTool toolNamespace operation args =>
    unfold executeRun thrownBy
    cases happening.thrown <;> rfl
  | _ =>
    unfold executeRun thrownBy
    cases happening.thrown with
    | none => rfl
    | some message => exact stored_threw.symm

theorem modelCalls_remember {position : Nat} (answer : Except Text statement.Answer) :
    (memory.remember settings statement answer).modelCalls = memory.modelCalls +
        [Executed.mk position statement answer].countP isModelCall := by
  cases statement with
  | createChatCompletion messages => cases answer <;> rfl
  | _ =>
    cases answer with
    | ok given => rfl
    | error thrown =>
      first
      | exact modelCalls_threw
      | rfl

theorem toolCalls_remember {position : Nat} (answer : Except Text statement.Answer) :
    (memory.remember settings statement answer).toolCalls = memory.toolCalls +
        [Executed.mk position statement answer].countP isToolCall := by
  cases statement with
  | invokeTool toolNamespace operation args => cases answer <;> rfl
  | _ =>
    cases answer with
    | ok given => rfl
    | error thrown =>
      first
      | exact toolCalls_threw
      | rfl

end

theorem told_executeIn (happenings : Nat → Happening)
    (statement : RunStatement) (told : Told settings world) :
    (memoryIn settings world).possible statement (executeIn happenings statement world).1 ∧
      memoryIn settings (executeIn happenings statement world).2 =
        (memoryIn settings world).remember settings statement
          (executeIn happenings statement world).1 ∧
      Told settings (executeIn happenings statement world).2 := by
  have recalled :
      memoryIn settings (executeIn happenings statement world).2 =
        (memoryIn settings world).remember settings statement
          (executeIn happenings statement world).1 :=
    memoryOf_append_own (runDiscipline settings) .blank world.history 0 statement _
  refine ⟨?_, recalled, ?_, ?_, ?_⟩
  · show RunMemory.possible _ _ (executeRun (happenings world.history.length) _ world.stored).1
    rw [told.stored]
    exact possible_execute statement
  · rw [recalled]
    show (executeRun _ _ world.stored).2 = RunMemory.stored
      (RunMemory.remember _ _ _ (executeRun _ _ world.stored).1)
    rw [told.stored]
    exact stored_remember statement
  · rw [recalled, modelCalls_remember, ← told.turns]
    exact List.countP_append
  · rw [recalled, toolCalls_remember, ← told.calls]
    exact List.countP_append

end

/-- A run ends cleanly, whatever happens at its statements, exactly if
nothing escapes. -/
theorem run_ends_cleanly_iff (host : AgentHost) (settings : RunSettings)
    (happenings : Nat → Happening) :
    EndsCleanly settings (runAlone host settings happenings) ↔
      nothingEscapes settings (runAlone host settings happenings) = true := by
  have begun : Told settings ⟨none, []⟩ := ⟨rfl, rfl, rfl⟩
  obtain ⟨told, ended⟩ := ended_of_follows (memoryIn settings)
    (fun statement _ => told_executeIn happenings statement) begun
    (follows_runNativeAgent host)
  change Told settings (runAlone host settings happenings) at told
  change exits (RanWell settings)
    (memoryIn settings (runAlone host settings happenings)) _ at ended
  rw [nothingEscapes, Bool.not_eq_true']
  generalize Finished.outcome _ = outcome at ended
  cases outcome with
  | ok record =>
    have ran : RanWell settings (memoryIn settings (runAlone host settings happenings)) record :=
      ended
    refine iff_of_true ⟨⟨record, ?_, ran.settled⟩, ?_, ?_⟩ ran.kept
    · exact told.stored.trans ran.stored
    · rw [told.turns]
      exact ran.turns
    · rw [told.calls]
      exact ran.calls
  | error thrown =>
    have escaped : HasEscaped (memoryIn settings (runAlone host settings happenings)) := ended
    refine iff_of_false ?_ ?_
    · intro clean
      obtain ⟨record, stored, settled⟩ := clean.settled
      have running := escaped.isOpen record (told.stored ▸ stored)
      rcases settled with waits | terminal
      · rw [running] at waits
        cases waits
      · rw [running] at terminal
        cases terminal.1
    · rw [escaped.escaped]
      intro impossible
      cases impossible

def answersAtOnce : Happening where
  thrown := none
  flag := false
  reply := ⟨some ⟨some "done".toList, []⟩, none⟩
  catalog := []
  decision := .allow
  count := 0
  text := "ok".toList

/-- The store refuses one write, and nothing else fails. -/
def failsAt (failing step : Nat) : Happening :=
  if step = failing then { answersAtOnce with thrown := some "store is unavailable".toList }
  else answersAtOnce

def plainHost : AgentHost where
  toLowerCase text := text
  parseInt _ := none
  jsonish _ := []
  clampOutput output := (output, false)

def plainSettings : RunSettings where
  turnCap := 4
  toolCap := none
  wallClockMs := 1000
  allowed := []
  opening := [.given "user".toList "hello".toList]
  agent := none
  model := none
  sessionId := none
  appId := none
  effortApplied := none

/-- The append of the first turn's start fails, and the record is left
running. -/
theorem run_is_left_running :
    ¬ ∀ (host : AgentHost) (settings : RunSettings) (happenings : Nat → Happening),
      EndsCleanly settings (runAlone host settings happenings) := by
  intro claimed
  have left : (runAlone plainHost plainSettings (failsAt 8)).stored.map
      (·.status) = some .running := by
    decide +kernel
  obtain ⟨record, stored, settled⟩ :=
    (claimed plainHost plainSettings (failsAt 8)).settled
  rw [stored] at left
  have running : record.status = .running := Option.some.inj left
  rw [running] at settled
  rcases settled with waits | terminal
  · cases waits
  · cases terminal.1

end Aprovan.Agents
