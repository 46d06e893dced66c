import Aprovan.Agents.RunLoop
import Aprovan.Library.LogReader

/-!
# Run events as parts of a message

The client shows the events of a run as the parts of one message: text that is
opened and closed again, tool calls and their results, and the end.
-/

namespace Aprovan.Client

open Aprovan.Library Aprovan.Agents

inductive ToolOutput (Value : Type) where
  | parsed (value : Value)
  | text (preview : Text)

inductive UIMessageChunk (Value : Type) where
  | start (messageId : Option Text)
  | textStart
  | textDelta (delta : Text)
  | textEnd
  | toolInputStart (toolCallId toolName : Text)
  | toolInputAvailable (toolCallId toolName : Text) (input : CallArguments)
  | toolOutputAvailable (toolCallId : Text) (output : ToolOutput Value)
  | toolOutputError (toolCallId errorText : Text)
  | finish (isError : Bool)
  | error (errorText : Text)

structure RunEventMappingState where
  textOpen : Bool
  /-- The names of the tools that calls were started for. -/
  tools : Text → Option Text
  (started finished : Bool)

def createRunEventMappingState : RunEventMappingState :=
  ⟨false, fun _ => none, false, false⟩

/-- `JSON.parse` gives nothing where it throws. -/
structure ChunkOptions (Value : Type) where
  messageId : Option Text
  parseJson : Text → Option Value

variable {Value : Type} (options : ChunkOptions Value) (state : RunEventMappingState)

def toolName (toolNamespace operation : Text) : Text :=
  toolNamespace ++ '.' :: operation

def closeTextIfOpen : List (UIMessageChunk Value) :=
  if state.textOpen then [.textEnd] else []

def toolOutput (callId : Text) (ok : Bool) (resultPreview error : Option Text) :
    UIMessageChunk Value :=
  if ok then
    let parsed := resultPreview.bind options.parseJson
    .toolOutputAvailable callId (parsed.elim (.text (resultPreview.getD [])) .parsed)
  else .toolOutputError callId (error.getD "Tool call failed".toList)

def mapRunEventToChunks (event : RunEvent) :
    List (UIMessageChunk Value) × RunEventMappingState :=
  if state.finished then ([], state)
  else
    let starts := !state.started && !isErrorEvent event
    let out := if starts then [.start (options.messageId.filter (· ≠ []))] else []
    let state := { state with started := state.started || starts }
    match event.event with
    | .runStarted _ _ _ | .turnStarted _ | .pendingAction _ _ _ _ _ => (out, state)
    | .turnFinished _ => (out ++ closeTextIfOpen state, { state with textOpen := false })
    | .assistantDelta _ text =>
      (out ++ (if state.textOpen then [] else [.textStart]) ++ [.textDelta text],
        { state with textOpen := true })
    | .toolCallStarted _ callId toolNamespace operation arguments =>
      let name := toolName toolNamespace operation
      (out ++ closeTextIfOpen state ++
          [.toolInputStart callId name, .toolInputAvailable callId name arguments],
        { state with
          textOpen := false
          tools := Function.update state.tools callId (some name) })
    | .toolCallFinished _ callId ok resultPreview error =>
      let name := (state.tools callId).getD "tool".toList
      (out ++ [toolOutput options callId ok resultPreview error],
        { state with tools := Function.update state.tools callId (some name) })
    | .runFinished status _ _ _ =>
      (out ++ closeTextIfOpen state ++ [.finish (status = .failed)],
        { state with textOpen := false, finished := true })
    | .error message =>
      (out ++ closeTextIfOpen state ++ [.error message, .finish true],
        { state with textOpen := false, finished := true })

/-- The chunks of events in their order. -/
def renderEvents : RunEventMappingState → List RunEvent →
    List (UIMessageChunk Value) × RunEventMappingState
  | state, [] => ([], state)
  | state, event :: rest =>
    let (chunks, next) := mapRunEventToChunks options state event
    let (more, last) := renderEvents next rest
    (chunks ++ more, last)

/-- Where a message is. -/
inductive MessagePhase where
  | fresh
  | between
  | writing
  | failing
  | complete

/-- The phase after a chunk, where the chunk may stand. -/
def MessagePhase.after : MessagePhase → UIMessageChunk Value → Option MessagePhase
  | .fresh, .start _ => some .between
  | .fresh, .error _ => some .failing
  | .between, .textStart => some .writing
  | .between, .toolInputStart _ _ => some .between
  | .between, .toolInputAvailable _ _ _ => some .between
  | .between, .toolOutputAvailable _ _ => some .between
  | .between, .toolOutputError _ _ => some .between
  | .between, .error _ => some .failing
  | .between, .finish _ => some .complete
  | .writing, .textDelta _ => some .writing
  | .writing, .textEnd => some .between
  | .writing, .toolOutputAvailable _ _ => some .writing
  | .writing, .toolOutputError _ _ => some .writing
  | .failing, .finish true => some .complete
  | _, _ => none

/-- The phase that a state stands for; text is only open in a message that
has started. -/
def RunEventMappingState.phase : Option MessagePhase :=
  match state.finished, state.started, state.textOpen with
  | true, _, false => some .complete
  | false, false, false => some .fresh
  | false, true, false => some .between
  | false, true, true => some .writing
  | _, _, true => none

/-- The chunks that carry what was said, called and answered. -/
def UIMessageChunk.isContent : UIMessageChunk Value → Bool
  | .textDelta _ | .toolInputAvailable _ _ _ | .toolOutputAvailable _ _ | .toolOutputError _ _ |
    .error _ => true
  | _ => false

def contentOf (event : RunEvent) : List (UIMessageChunk Value) :=
  match event.event with
  | .assistantDelta _ text => [.textDelta text]
  | .toolCallStarted _ callId toolNamespace operation arguments =>
    [.toolInputAvailable callId (toolName toolNamespace operation) arguments]
  | .toolCallFinished _ callId ok resultPreview error =>
    [toolOutput options callId ok resultPreview error]
  | .error message => [.error message]
  | _ => []

variable {options} {state} {phase : MessagePhase}

theorem phase_mapRunEventToChunks (event : RunEvent) (known : state.phase = some phase) :
    ∃ next, (mapRunEventToChunks options state event).1.foldlM MessagePhase.after phase =
        some next ∧ (mapRunEventToChunks options state event).2.phase = some next := by
  obtain ⟨textOpen, tools, started, finished⟩ := state
  obtain ⟨seq, event⟩ := event
  cases finished <;> cases started <;> cases textOpen <;> cases known
  all_goals cases event with
    | toolCallFinished turn callId ok resultPreview error => cases ok <;> exact ⟨_, rfl, rfl⟩
    | _ => exact ⟨_, rfl, rfl⟩

theorem finished_mapRunEventToChunks (event : RunEvent) :
    (mapRunEventToChunks options state event).2.finished =
      (state.finished || isTerminalEvent event) := by
  obtain ⟨textOpen, tools, started, finished⟩ := state
  obtain ⟨seq, event⟩ := event
  cases finished <;> cases event <;> rfl

theorem content_mapRunEventToChunks (event : RunEvent) (unfinished : state.finished = false) :
    (mapRunEventToChunks options state event).1.filter UIMessageChunk.isContent =
      contentOf options event := by
  obtain ⟨textOpen, tools, started, finished⟩ := state
  obtain ⟨seq, event⟩ := event
  cases unfinished
  cases started <;> cases textOpen
  all_goals cases event with
    | toolCallFinished turn callId ok resultPreview error => cases ok <;> rfl
    | _ => rfl

theorem renderEvents_of_finished (finished : state.finished = true) (events : List RunEvent) :
    renderEvents options state events = ([], state) := by
  induction events with
  | nil => rfl
  | cons event rest ih =>
    have nothing : mapRunEventToChunks options state event = ([], state) := by
      rw [mapRunEventToChunks, if_pos finished]
    simp only [renderEvents, nothing, ih, List.append_nil]

theorem phase_renderEvents (events : List RunEvent) (known : state.phase = some phase) :
    ∃ last, (renderEvents options state events).1.foldlM MessagePhase.after phase = some last ∧
      (renderEvents options state events).2.phase = some last := by
  induction events generalizing state phase with
  | nil => exact ⟨phase, rfl, known⟩
  | cons event rest ih =>
    obtain ⟨next, moved, here⟩ := @phase_mapRunEventToChunks _ options _ _ event known
    obtain ⟨last, ran, there⟩ := ih here
    refine ⟨last, ?_, there⟩
    simp only [renderEvents, List.foldlM_append, moved, Option.bind_eq_bind, Option.bind_some, ran]

theorem finished_renderEvents (events : List RunEvent) :
    (renderEvents options state events).2.finished =
      (state.finished || events.any isTerminalEvent) := by
  induction events generalizing state with
  | nil => exact (Bool.or_false _).symm
  | cons event rest ih =>
    simp only [renderEvents, ih, finished_mapRunEventToChunks, List.any_cons, Bool.or_assoc]

theorem finished_of_phase (known : state.phase = some phase) :
    phase = .complete ↔ state.finished = true := by
  obtain ⟨textOpen, tools, started, finished⟩ := state
  cases finished <;> cases started <;> cases textOpen <;> cases known <;> simp

/-- However a log goes on, its chunks make up a message as far as they go,
and a complete one if and only if the log has a final event. -/
theorem renderEvents_wellFormed (options : ChunkOptions Value) (events : List RunEvent) :
    ∃ phase, (renderEvents options createRunEventMappingState events).1.foldlM
        MessagePhase.after .fresh = some phase ∧
      (phase = .complete ↔ ∃ event ∈ events, isTerminalEvent event = true) := by
  obtain ⟨last, ran, reached⟩ := @phase_renderEvents _ options createRunEventMappingState
    .fresh events rfl
  refine ⟨last, ran, ?_⟩
  rw [finished_of_phase reached, finished_renderEvents, createRunEventMappingState,
    Bool.false_or, List.any_eq_true]

/-- The message tells each event up to the first final one once, in the
order of the log, and nothing else. -/
theorem renderEvents_content (options : ChunkOptions Value) (events : List RunEvent) :
    (renderEvents options createRunEventMappingState events).1.filter UIMessageChunk.isContent =
      (throughFirst isTerminalEvent events).flatMap (contentOf options) := by
  suffices general : ∀ state : RunEventMappingState, state.finished = false →
      (renderEvents options state events).1.filter UIMessageChunk.isContent =
        (throughFirst isTerminalEvent events).flatMap (contentOf options) from
    general createRunEventMappingState rfl
  induction events with
  | nil => exact fun _ _ => rfl
  | cons event rest ih =>
    intro state unfinished
    have told := @content_mapRunEventToChunks _ options _ event unfinished
    have after := @finished_mapRunEventToChunks _ options state event
    rw [unfinished, Bool.false_or] at after
    simp only [renderEvents, List.filter_append, told, throughFirst]
    cases final : isTerminalEvent event with
    | true =>
      rw [renderEvents_of_finished (after.trans final)]
      simp
    | false =>
      rw [ih _ (after.trans final)]
      simp

end Aprovan.Client
