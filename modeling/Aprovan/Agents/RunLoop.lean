import Aprovan.Grants.Capability
import Aprovan.Library.Process

/-!
# The native agent loop

A run is one record with the log of its events; an append reads the record and
writes it back with the event.  What the model and the tools answer, what is
evaluated about a call and whether anything of it fails is arbitrary.  Clock
readings and the fields that no step changes are left out.
-/

namespace Aprovan.Agents

open Aprovan.Library Aprovan.Grants

/-- The statuses that the native runtime gives. -/
inductive AgentRunStatus where
  | running
  | awaitingTools
  | succeeded
  | failed
  | cancelled
  deriving DecidableEq

def isTerminal : AgentRunStatus → Bool
  | .running => false
  | .awaitingTools => false
  | _ => true

inductive AgentStopReason where
  | completed
  | maxTurns
  | wallClock
  | maxToolCalls
  | cancelled
  | toolDenied
  | error
  deriving DecidableEq

structure AgentUsage where
  (turns toolCalls : Nat)
  (inputTokens outputTokens totalTokens : Option Nat)
  deriving DecidableEq

def AgentUsage.zero : AgentUsage :=
  ⟨0, 0, none, none, none⟩

/-- The `usage` of a response. -/
structure ReportedUsage where
  (promptTokens completionTokens totalTokens : Option Nat)

def addTokens (total reported : Option Nat) : Option Nat :=
  match reported with
  | none => total
  | some tokens => some (total.getD 0 + tokens)

def addUsage (total : AgentUsage) : Option ReportedUsage → AgentUsage
  | none => total
  | some reported => { total with
        inputTokens := addTokens total.inputTokens reported.promptTokens
        outputTokens :=
          addTokens total.outputTokens reported.completionTokens
        totalTokens := addTokens total.totalTokens reported.totalTokens }

/-- The arguments of a tool call: the fields that the loop reads, and the
whole as text. -/
structure ToolArgs where
  (resourceField toField urlField : Option Text)
  json : Text
  deriving DecidableEq

def ToolArgs.none : ToolArgs :=
  ⟨.none, .none, .none, "\x7b\x7d".toList⟩

inductive CallArguments where
  | described (toolNamespace : Text) (query cursor : Option Text)
  | given (args : ToolArgs)
  deriving DecidableEq

structure PendingPayload where
  alwaysAsk : Bool
  queuedCount : Nat
  message : Option Text
  deriving DecidableEq

/-- An event before the store gives it its `seq`. -/
inductive RunEventInput where
  | runStarted (agent model sessionId : Option Text)
  | turnStarted (turn : Nat)
  | assistantDelta (turn : Nat) (text : Text)
  | toolCallStarted (turn : Nat) (callId toolNamespace operation : Text)
      (arguments : CallArguments)
  | toolCallFinished (turn : Nat) (callId : Text) (ok : Bool)
      (resultPreview error : Option Text)
  | pendingAction (turn : Nat) (actionId capability : Text)
      (resource : Option Text) (payload : PendingPayload)
  | turnFinished (turn : Nat)
  | runFinished (status : AgentRunStatus) (stopReason : AgentStopReason)
      (usage : AgentUsage) (output : Option Text)
  | error (message : Text)
  deriving DecidableEq

structure RunEvent where
  seq : Nat
  event : RunEventInput
  deriving DecidableEq

def isErrorEvent (event : RunEvent) : Bool :=
  match event.event with
  | .error _ => true
  | _ => false

def isTerminalEvent (event : RunEvent) : Bool :=
  match event.event with
  | .runFinished _ _ _ _ => true
  | .error _ => true
  | _ => false

/-- A tool call as the record keeps it. -/
structure AgentToolCall where
  (id name : Text)
  arguments : Option CallArguments
  (result error : Option Text)

structure AgentTurn where
  index : Nat
  isToolTurn : Bool
  text : Option Text
  toolCalls : List AgentToolCall

/-- What the content of an answer says; null tool calls occur. -/
inductive ParsedArguments where
  | malformed
  | notObject
  /-- A field that is no text counts as empty. -/
  | fields (toolNamespace operation query cursor : Text)
      (args : Option ToolArgs)

structure ChatToolCall where
  (id name : Option Text)
  arguments : ParsedArguments

structure ChatMessage where
  content : Option Text
  toolCalls : List (Option ChatToolCall)

structure ModelReply where
  message : Option ChatMessage
  usage : Option ReportedUsage

/-- A message of the conversation with the model. -/
inductive ChatEntry where
  | given (role content : Text)
  | assistant (content : Option Text)
      (toolCalls : List (Option ChatToolCall))
  | tool (callId content : Text)

structure PendingApproval where
  cardId : Text
  turn : Nat
  messages : List ChatEntry
  allowed : List Text

structure StoredAgentRun where
  status : AgentRunStatus
  events : List RunEvent
  lastSeq : Option Nat
  /-- `finishedAt` is set. -/
  isFinished : Bool
  stopReason : Option AgentStopReason
  turns : List AgentTurn
  usage : Option AgentUsage
  output : Option Text
  truncated : Bool
  (error effortApplied : Option Text)
  pendingApproval : Option PendingApproval

/-- The record that is saved before the first turn. -/
def startedRecord : StoredAgentRun where
  status := .running
  events := []
  lastSeq := none
  isFinished := false
  stopReason := none
  turns := []
  usage := none
  output := none
  truncated := false
  error := none
  effortApplied := none
  pendingApproval := none

def StoredAgentRun.append (record : StoredAgentRun) (events : List RunEvent) : StoredAgentRun :=
  { record with
      events := record.events ++ events
      lastSeq := (events.getLast?.map RunEvent.seq).or record.lastSeq }

inductive DispatchDecision where
  | allow
  | deny
  | ask (cardId : Text)
  | queue (queuedActionId : Text)

/-- The request of a card, as far as the loop chooses it. -/
structure CardRequest where
  (toolNamespace operation : Text)
  (resource viaApp : Option Text)
  turn : Nat
  cardId : Option Text
  queuedActionIds : List Text
  alwaysAsk : Bool

structure CatalogOperation where
  operation : Text
  description : Option Text

inductive RunStatement where
  | readRecord
  | writeRecord (record : StoredAgentRun)
  | fanOut (events : List RunEvent)
  /-- `activeRuns.set`, and `activeRuns.delete`. -/
  | register
  | unregister
  /-- The flag of the run's own handle. -/
  | isCancelled
  | isPastDeadline
  | createChatCompletion (messages : List ChatEntry)
  /-- `call.id`, of a call that may be null. -/
  | readCallId (call : Option ChatToolCall)
  | catalogForNamespace (toolNamespace : Text)
  | evaluateDispatch (toolNamespace operation : Text)
      (resource : Option Text)
  | isAlwaysAsk (appId : Option Text) (name : Text)
  | countQueuedForRun
  | raiseJitCard (request : CardRequest)
  | invokeTool (toolNamespace operation : Text) (args : ToolArgs)
  /-- Flag the run if this process has its handle. -/
  | cancelLive (inOwner : Bool)

abbrev RunStatement.Answer : RunStatement → Type
  | .readRecord => Option StoredAgentRun
  | .isCancelled => Bool
  | .isPastDeadline => Bool
  | .createChatCompletion _ => ModelReply
  | .readCallId _ => Option Text
  | .catalogForNamespace _ => List CatalogOperation
  | .evaluateDispatch _ _ _ => DispatchDecision
  | .isAlwaysAsk _ _ => Bool
  | .countQueuedForRun => Nat
  | .raiseJitCard _ => Text
  | .invokeTool _ _ _ => Text
  | .cancelLive _ => Bool
  | _ => Unit

/-- A call fails with the message of what was thrown. -/
abbrev RunCall := Process RunStatement.Answer Text

def askRun (statement : RunStatement) : RunCall statement.Answer :=
  Process.perform statement

/-- What a `try` block comes to. -/
def attempt {Value : Type} (process : RunCall Value) : RunCall (Except Text Value) :=
  (process >>= fun value => pure (.ok value)).rescue fun thrown => pure (.error thrown)

def nextSeq (record : StoredAgentRun) : Nat :=
  (record.lastSeq.map (· + 1)).getD 0

def numbered : Nat → List RunEventInput → List RunEvent
  | _, [] => []
  | first, event :: rest => ⟨first, event⟩ :: numbered (first + 1) rest

def unknownRunId : Text :=
  "Unknown agent run".toList

def appendRunEvents (events : List RunEventInput) : RunCall (List RunEvent) :=
  if events = [] then pure []
  else do
    match ← askRun .readRecord with
    | none => Process.raise unknownRunId
    | some record => do
        let sequenced := numbered (nextSeq record) events
        askRun (.writeRecord (record.append sequenced))
        askRun (.fanOut sequenced)
        pure sequenced

inductive ToolAnswer where
  | error (message : Text)
  | refusedNamespace (toolNamespace : Text) (allowed : List Text)
  | invalidCursor (cursor : Text)
  /-- `cursor` and `remaining` are there if there is a next page. -/
  | page (toolNamespace : Text) (operations : List CatalogOperation)
      (next : Option (Nat × Nat))

/-- What the language and the contract package do. -/
structure AgentHost where
  toLowerCase : Text → Text
  /-- `Number.parseInt(_, 10)`, where it is finite. -/
  parseInt : Text → Option Int
  jsonish : ToolAnswer → Text
  /-- The text of an output, and whether it was cut. -/
  clampOutput : Option Text → Option Text × Bool

/-- The arguments of a run, after they were validated. -/
structure RunSettings where
  turnCap : Nat
  toolCap : Option Nat
  wallClockMs : Nat
  allowed : List Text
  /-- The instructions and the input. -/
  opening : List ChatEntry
  (agent model sessionId appId : Option Text)
  effortApplied : Option Text

def maxToolResultBytes : Nat := 24000

def maxRecordedResultBytes : Nat := 2000

def describePageSize : Nat := 40

def truncate (text : Text) (cap : Nat) : Text :=
  if text.length ≤ cap then text else text.take cap ++ "…(truncated)".toList

/-- A text that counts as absent if it is empty. -/
def nonempty (text : Text) : Option Text :=
  if text = [] then none else some text

inductive DecodedCall where
  | callTool (toolNamespace operation : Text) (args : ToolArgs)
  | describe (toolNamespace : Text) (query cursor : Option Text)
  | error (message : Text)

/-- `name || "tool"`. -/
def toolName (name : Text) : Text :=
  if name = [] then "tool".toList else name

def decodeToolCall (call : ChatToolCall) : DecodedCall :=
  let name := call.name.getD []
  match call.arguments with
  | .malformed => .error (toolName name ++ " arguments were not valid JSON".toList)
  | .notObject => .error (toolName name ++ " arguments must be an object".toList)
  | .fields toolNamespace operation query cursor args =>
    if name = "describe".toList then
      if toolNamespace = [] then .error "describe needs \x7b namespace \x7d".toList
      else .describe toolNamespace (nonempty query) (nonempty cursor)
    else if name ≠ "call_tool".toList then
      .error ("Unknown tool \"".toList ++ name ++
        "\" — built-ins are call_tool and describe".toList)
    else if toolNamespace = [] ∨ operation = [] then
      .error "call_tool needs \x7b namespace, operation \x7d".toList
    else .callTool toolNamespace operation (args.getD .none)

def includesText (part text : Text) : Bool :=
  decide (part <:+: text)

def namespaceInProjection (allowed : List Text) (toolNamespace : Text) : Bool :=
  allowed.any fun pattern =>
    pattern = "*".toList || pattern = toolNamespace ||
      (toolNamespace ++ ['.']).isPrefixOf pattern ||
      (['.', '*'].isSuffixOf pattern &&
        let base := pattern.take (pattern.length - 2)
        toolNamespace = base || (base ++ ['.']).isPrefixOf toolNamespace ||
          (toolNamespace ++ ['.']).isPrefixOf base)

def describePage (host : AgentHost) (allowed : List Text) (toolNamespace : Text)
    (query cursor : Option Text) (catalog : List CatalogOperation) : ToolAnswer :=
  let granted := catalog.filter fun entry =>
    matchesCapabilityPattern allowed toolNamespace entry.operation
  let found := granted.filter fun entry => query.all fun text =>
    let sought := host.toLowerCase text
    includesText sought (host.toLowerCase entry.operation) ||
      entry.description.any fun description => includesText sought (host.toLowerCase description)
  let pageFrom (offset : Nat) : ToolAnswer :=
    let operations := (found.drop offset).take describePageSize
    let remaining := found.length - offset - operations.length
    .page toolNamespace operations (if remaining > 0 then
        some (offset + operations.length, remaining)
      else none)
  match cursor with
  | none => pageFrom 0
  | some text =>
    match (host.parseInt text).filter (0 ≤ ·) with
    | none => .invalidCursor text
    | some offset => pageFrom offset.toNat

def runDescribe (host : AgentHost) (allowed : List Text)
    (toolNamespace : Text) (query cursor : Option Text) :
    RunCall ToolAnswer :=
  if namespaceInProjection allowed toolNamespace then do
    let catalog ← askRun (.catalogForNamespace toolNamespace)
    pure (describePage host allowed toolNamespace query cursor catalog)
  else pure (.refusedNamespace toolNamespace allowed)

/-- What a round of the loop works on; the record is the run's own copy. -/
structure LoopState where
  record : StoredAgentRun
  messages : List ChatEntry
  turns : List AgentTurn
  usage : AgentUsage

/-- How the loop was left. -/
structure LoopEnd where
  state : LoopState
  status : AgentRunStatus
  stopReason : AgentStopReason
  (output errorMessage : Option Text)
  pendingApproval : Option PendingApproval

/-- A loop that is left without success. -/
def stoppedFor (state : LoopState) (stopReason : AgentStopReason) (errorMessage : Option Text) :
    LoopEnd where
  state := state
  status := .failed
  stopReason := stopReason
  output := none
  errorMessage := errorMessage
  pendingApproval := none

inductive RoundEnd (Next : Type) where
  | goesOn (next : Next)
  | stops (ended : LoopEnd)

def emit (event : RunEventInput) (state : LoopState) : RunCall LoopState := do
  let appended ← appendRunEvents [event]
  pure { state with record := state.record.append appended }

def LoopState.tell (state : LoopState) (callId content : Text) : LoopState :=
  { state with messages := state.messages ++ [.tool callId content] }

def LoopState.addTurn (state : LoopState) (turn : AgentTurn) : LoopState :=
  { state with turns := state.turns ++ [turn] }

def toolTurn (turn : Nat) (text : Option Text) (recorded : List AgentToolCall) : AgentTurn where
  index := turn
  isToolTurn := true
  text := text
  toolCalls := recorded

def decimal (number : Nat) : Text :=
  Nat.toDigits 10 number

def toolCapMessage (toolCap : Nat) : Text :=
  "Run hit its ".toList ++ decimal toolCap ++ "-tool-call cap".toList

def turnCapMessage (turnCap : Nat) : Text :=
  "Run hit its ".toList ++ decimal turnCap ++ "-turn cap without a final answer".toList

def wallClockMessage (wallClockMs : Nat) : Text :=
  "Run exceeded its ".toList ++ decimal wallClockMs ++ "ms wall clock".toList

def deniedMessage (name : Text) (allowed : List Text) : Text :=
  "The model asked for ".toList ++ name ++
    ", which the run's tool list (".toList ++ joinComma allowed ++
    ") does not allow".toList

def queuedActionsMessage (queued : Nat) : Text :=
  "queued ".toList ++ decimal queued ++ " actions".toList

structure CallPlace where
  turn : Nat
  callId : Text
  recorded : List AgentToolCall

abbrev CallEnd := RoundEnd (LoopState × List AgentToolCall)

section

variable (host : AgentHost) (settings : RunSettings)

variable (place : CallPlace) (state : LoopState) (toolNamespace : Text)

/-- A `describe` of the model. -/
def answerDescribe (query cursor : Option Text) : RunCall CallEnd := do
  let arguments := CallArguments.described toolNamespace query cursor
  let state ← emit (.toolCallStarted place.turn place.callId toolNamespace
    "describe".toList arguments) state
  let result ← runDescribe host settings.allowed toolNamespace query cursor
  let body := host.jsonish result
  let preview := truncate body maxRecordedResultBytes
  let state ← emit (.toolCallFinished place.turn place.callId true (some preview) none)
    (state.tell place.callId (truncate body maxToolResultBytes))
  pure (.goesOn (state, place.recorded ++
    [⟨place.callId, "describe".toList, some arguments, some preview, none⟩]))

/-- The `catch` around a tool's execution. -/
def answerFailure (name : Text) (args : ToolArgs) (message : Text) : RunCall CallEnd := do
  let state ← emit (.toolCallFinished place.turn place.callId false none (some message))
    (state.tell place.callId (host.jsonish (.error message)))
  pure (.goesOn (state, place.recorded ++
    [⟨place.callId, name, some (.given args), none, some message⟩]))

/-- Execute a tool; what it throws is told to the model, and so is what is
thrown by the append that reports its success. -/
def answerInvoke (operation : Text) (args : ToolArgs) : RunCall CallEnd := do
  let name := callName toolNamespace operation
  match ← attempt (askRun (.invokeTool toolNamespace operation args)) with
  | .error message => answerFailure host place state name args message
  | .ok body => do
      let preview := truncate body maxRecordedResultBytes
      let told := state.tell place.callId (truncate body maxToolResultBytes)
      let recorded := place.recorded ++
        [⟨place.callId, name, some (.given args), some preview, none⟩]
      match ← attempt (emit (.toolCallFinished place.turn place.callId true
          (some preview) none) told) with
      | .error message =>
        answerFailure host { place with recorded := recorded } told name args message
      | .ok state => pure (.goesOn (state, recorded))

def answerDenied (name : Text) : RunCall CallEnd := do
  let recorded := place.recorded ++ [⟨place.callId, name, none, none, some "denied".toList⟩]
  let state ← emit (.toolCallFinished place.turn place.callId false none (some "denied".toList))
    (state.addTurn (toolTurn place.turn none recorded))
  let state ← emit (.turnFinished place.turn) state
  pure (.stops (stoppedFor state .toolDenied (some (deniedMessage name settings.allowed))))

def awaitApproval (name : Text) (resource : Option Text) (cardId : Text)
    (payload : PendingPayload) (errorMessage : Text) : RunCall CallEnd := do
  let recorded := place.recorded ++
    [⟨place.callId, name, none, none, some "pending_action".toList⟩]
  let state ← emit (.toolCallFinished place.turn place.callId false none
    (some "pending_action".toList))
    (state.addTurn (toolTurn place.turn none recorded))
  let state ← emit (.pendingAction place.turn cardId name resource payload) state
  let state ← emit (.turnFinished place.turn) state
  pure (.stops {
    state := state
    status := .awaitingTools
    stopReason := .toolDenied
    output := none
    errorMessage := some errorMessage
    pendingApproval := some
      ⟨cardId, place.turn, state.messages, settings.allowed⟩ })

/-- A call that is queued; what the run does next depends on its result. -/
def answerQueued (operation : Text) (resource : Option Text) (queuedActionId : Text) :
    RunCall CallEnd := do
  let queued ← askRun .countQueuedForRun
  let cardId ← askRun (.raiseJitCard {
    toolNamespace := toolNamespace
    operation := operation
    resource := resource
    viaApp := none
    turn := place.turn
    cardId := none
    queuedActionIds := [queuedActionId]
    alwaysAsk := false })
  awaitApproval settings place state (callName toolNamespace operation)
    resource cardId ⟨false, queued, some (queuedActionsMessage queued)⟩
    (queuedActionsMessage queued)

def answerAsked (operation : Text) (resource : Option Text)
    (cardId : Option Text) (alwaysAsk : Bool) : RunCall CallEnd := do
  let name := callName toolNamespace operation
  let raised ← askRun (.raiseJitCard {
    toolNamespace := toolNamespace
    operation := operation
    resource := resource
    viaApp := settings.appId
    turn := place.turn
    cardId := cardId
    queuedActionIds := []
    alwaysAsk := alwaysAsk })
  let queued ← askRun .countQueuedForRun
  let message :=
    if queued > 0 then some (queuedActionsMessage queued) else none
  awaitApproval settings place state name resource raised ⟨alwaysAsk, queued, message⟩
    (message.getD ("Approval required for ".toList ++ name))

/-- `call_tool` of the model. -/
def answerCallTool (operation : Text) (args : ToolArgs) : RunCall CallEnd := do
  let name := callName toolNamespace operation
  let state ← emit (.toolCallStarted place.turn place.callId toolNamespace
    operation (.given args)) state
  let resource :=
    (args.resourceField.or (args.toField.or args.urlField)).filter (· ≠ [])
  let decision ←
    askRun (.evaluateDispatch toolNamespace operation resource)
  let alwaysAskHit ← (match decision with
    | .allow => askRun (.isAlwaysAsk settings.appId name)
    | _ => pure false : RunCall Bool)
  match decision, alwaysAskHit with
  | .deny, _ => answerDenied settings place state name
  | .queue queuedActionId, _ =>
    answerQueued settings place state toolNamespace operation resource queuedActionId
  | .ask cardId, _ =>
    answerAsked settings place state toolNamespace operation resource (some cardId) false
  | .allow, true => answerAsked settings place state toolNamespace operation resource none true
  | .allow, false => answerInvoke host place state toolNamespace operation args

def answerDecoded (call : ChatToolCall) : RunCall CallEnd :=
  match decodeToolCall call with
  | .error message =>
    pure (.goesOn (state.tell place.callId (host.jsonish (.error message)),
        place.recorded ++ [⟨place.callId, call.name.getD "call_tool".toList, none, none,
          some message⟩]))
  | .describe toolNamespace query cursor =>
    answerDescribe host settings place state toolNamespace query cursor
  | .callTool toolNamespace operation args =>
    answerCallTool host settings place state toolNamespace operation args

def answerCall (turn : Nat) (state : LoopState)
    (recorded : List AgentToolCall) (requested : Option ChatToolCall) :
    RunCall CallEnd := do
  let id ← askRun (.readCallId requested)
  let callId := (id.filter (· ≠ [])).getD ("call-".toList ++ decimal state.usage.toolCalls)
  match settings.toolCap.filter (· ≤ state.usage.toolCalls) with
  | some toolCap => do
      let state ← emit (.turnFinished turn) (state.addTurn (toolTurn turn none recorded))
      pure (.stops (stoppedFor state .maxToolCalls (some (toolCapMessage toolCap))))
  | none =>
    match requested with
    | none => Process.raise "null has no id".toList
    | some call =>
      answerDecoded host settings ⟨turn, callId, recorded⟩ { state with usage := {
          state.usage with toolCalls := state.usage.toolCalls + 1 } }
        call

def answerCalls (turn : Nat) :
    List (Option ChatToolCall) → LoopState → List AgentToolCall → RunCall CallEnd
  | [], state, recorded => pure (.goesOn (state, recorded))
  | requested :: rest, state, recorded => do
      match ← answerCall host settings turn state recorded requested with
      | .stops ended => pure (.stops ended)
      | .goesOn (state, recorded) => answerCalls turn rest state recorded

/-- What the `try` around the model comes to. -/
def askModel : RunCall (Except Text ChatMessage × Option ReportedUsage) := do
  match ← attempt (askRun (.createChatCompletion state.messages)) with
  | .error message => pure (.error message, none)
  | .ok reply =>
    match reply.message with
    | none => pure (.error "The model returned no choices".toList, reply.usage)
    | some message => pure (.ok message, reply.usage)

def takeCalls (turn : Nat) (state : LoopState) (message : ChatMessage) :
    RunCall (RoundEnd LoopState) := do
  let text := message.content.getD []
  if message.toolCalls = [] then do
    let state ← emit (.turnFinished turn) (state.addTurn
      ⟨turn, false, some (truncate text maxRecordedResultBytes), []⟩)
    pure (.stops ⟨state, .succeeded, .completed, some text, none, none⟩)
  else do
    let opened := { state with
      messages := state.messages ++ [.assistant message.content message.toolCalls] }
    match ← answerCalls host settings turn message.toolCalls opened [] with
    | .stops ended => pure (.stops ended)
    | .goesOn (state, recorded) => do
        let told := (message.content.filter (· ≠ [])).map (truncate · maxRecordedResultBytes)
        let state ← emit (.turnFinished turn) (state.addTurn (toolTurn turn told recorded))
        pure (.goesOn state)

def takeMessage (turn : Nat) (state : LoopState) (message : ChatMessage) :
    RunCall (RoundEnd LoopState) :=
  let text := message.content.getD []
  if text = [] then takeCalls host settings turn state message
  else do
    let state ← emit (.assistantDelta turn text) state
    takeCalls host settings turn state message

def runTurn (turn : Nat) (state : LoopState) : RunCall (RoundEnd LoopState) := do
  let state ← emit (.turnStarted turn) state
  let (answer, reported) ← askModel state
  let usage := addUsage state.usage reported
  match answer with
  | .error message => do
      let state ← emit (.turnFinished turn) { state with usage := usage }
      let state ← emit (.error message) state
      pure (.stops (stoppedFor state .error (some message)))
  | .ok message =>
    takeMessage host settings turn { state with usage := { usage with turns := turn + 1 } } message

def runTurns : Nat → Nat → LoopState → RunCall LoopEnd
  | left, turn, state => do
      if ← askRun .isCancelled then pure ⟨state, .cancelled, .cancelled, none, none, none⟩
      else if ← askRun .isPastDeadline then
        pure (stoppedFor state .wallClock (some (wallClockMessage settings.wallClockMs)))
      else
        match left with
        | 0 => pure (stoppedFor state .maxTurns (some (turnCapMessage settings.turnCap)))
        | left + 1 => do
            match ← runTurn host settings turn state with
            | .stops ended => pure ended
            | .goesOn state => runTurns left (turn + 1) state

def finishedRecord (ended : LoopEnd) : StoredAgentRun :=
  let clamped := host.clampOutput ended.output
  { ended.state.record with
      status := ended.status
      isFinished := ended.status ≠ .awaitingTools
      stopReason := some ended.stopReason
      turns := ended.state.turns
      usage := some ended.state.usage
      output := clamped.1.filter (· ≠ [])
      truncated := clamped.2
      error := ended.errorMessage.filter (· ≠ [])
      effortApplied := settings.effortApplied
      pendingApproval := ended.pendingApproval }

def finishRun (ended : LoopEnd) : RunCall StoredAgentRun := do
  let record := finishedRecord host settings ended
  if ended.status ≠ .awaitingTools ∧ ¬ record.events.any isErrorEvent then
    let appended ← appendRunEvents [.runFinished ended.status ended.stopReason ended.state.usage
        record.output]
    let closed := record.append appended
    askRun (.writeRecord closed)
    pure closed
  else
    askRun (.writeRecord record)
    pure record

/-- `runNativeAgent`, of arguments that were validated. -/
def runNativeAgent : RunCall StoredAgentRun := do
  askRun (.writeRecord startedRecord)
  askRun .register
  let state ← emit (.runStarted settings.agent settings.model settings.sessionId)
    ⟨startedRecord, settings.opening, [], .zero⟩
  let left ← attempt (runTurns host settings settings.turnCap 0 state)
  askRun .unregister
  match left with
  | .error thrown => Process.raise thrown
  | .ok ended => finishRun host settings ended

end

end Aprovan.Agents
