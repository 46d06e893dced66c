import Aprovan.Vcs.ChatSessions

/-!
# Chat turns and their heals

`POST /chat-turn` appends a user message to the transcript and starts an agent
run; the caps on self-heals are checked against the transcript as the request
has read it.  The requests name one session, and no two messages have one id.
-/

namespace Aprovan.Agents

open Aprovan.Library Aprovan.Server
open Aprovan.Vcs (seqKey parseSeqKey AppendState countKey listedState
  SessionStatus unknownSession seqKey_eq takeWhile_seqKey parseSeqKey_seqKey
  short_of_parseSeqKey)

inductive MessageRole where
  | user
  | assistant
  deriving DecidableEq

/-- A message; `healOf` is the failed message in the metadata of a heal. -/
structure TranscriptMessage where
  id : Text
  role : MessageRole
  text : Text
  healOf : Option Text
  deriving DecidableEq

structure TranscriptRow where
  key : Text
  message : TranscriptMessage

def isHealUserMessage (message : TranscriptMessage) : Bool :=
  message.role = .user && message.healOf.isSome

def isPlainUser (message : TranscriptMessage) : Bool :=
  message.role = .user && message.healOf.isNone

def healFailureMessageId (message : TranscriptMessage) : Option Text :=
  message.healOf.filter (· ≠ [])

def maxWidgetAutofixes : Nat := 2

/-- The heals behind the last user message that is none. -/
def consecutiveHealCount (messages : List TranscriptMessage) : Nat :=
  (messages.reverse.takeWhile (!isPlainUser ·)).countP isHealUserMessage

def hasHealForAssistantMessage (messages : List TranscriptMessage) (assistantMessageId : Text) :
    Bool :=
  messages.any fun message => isHealUserMessage message &&
    healFailureMessageId message = some assistantMessageId

/-- The caps, as a request checks them. -/
def healAllowed (prior : List TranscriptMessage) (failure : Text) : Bool :=
  !hasHealForAssistantMessage prior failure && consecutiveHealCount prior < maxWidgetAutofixes

/-- The fields of the session record that a turn reads or changes. -/
structure TurnSession where
  status : SessionStatus
  (agent activeRunId : Option Text)
  messageCount : Nat

structure ChatTurn where
  (messageId text : Text)
  isSelfHeal : Bool
  failure : Option Text

def ChatTurn.healOf (turn : ChatTurn) : Option Text :=
  if turn.isSelfHeal then turn.failure else none

def ChatTurn.message (turn : ChatTurn) : TranscriptMessage where
  id := turn.messageId
  role := .user
  text := turn.text
  healOf := turn.healOf

structure TurnStores where
  session : Option TurnSession
  rows : Keyed TranscriptRow.key
  profiles : List Text
  /-- The turns whose run was started. -/
  started : List ChatTurn

inductive TurnStatement where
  | readSession
  | saveSession (record : TurnSession)
  | listKeys
  | readMessage (key : Text)
  | writeMessage (key : Text) (message : TranscriptMessage)
  | readProfile (name : Text)
  | startRun (turn : ChatTurn)

abbrev TurnStatement.Answer : TurnStatement → Type
  | .readSession => Option TurnSession
  | .listKeys => List Text
  | .readMessage _ => Option TranscriptMessage
  | .readProfile _ => Bool
  | .startRun _ => Text
  | _ => Unit

inductive TurnFailure where
  | store
  | service (error : ServiceError)

/-- Whether a statement is refused, and the id of a run that it starts. -/
inductive TurnChoice where
  | refuses
  | proceeds (runId : Text)

def performTurn (runId : Text) :
    (statement : TurnStatement) → TurnStores → statement.Answer × TurnStores
  | .readSession, stores => (stores.session, stores)
  | .saveSession record, stores => ((), { stores with session := some record })
  | .listKeys, stores => (sortTexts (stores.rows.rows.map TranscriptRow.key), stores)
  | .readMessage key, stores => ((stores.rows.find? key).map TranscriptRow.message, stores)
  | .writeMessage key message, stores =>
    ((), { stores with rows := stores.rows.put ⟨key, message⟩ })
  | .readProfile name, stores => (decide (name ∈ stores.profiles), stores)
  | .startRun turn, stores => (runId, { stores with started := stores.started ++ [turn] })

def executeTurn (choice : TurnChoice) (statement : TurnStatement) (stores : TurnStores) :
    Except TurnFailure statement.Answer × TurnStores :=
  match choice with
  | .refuses => (.error .store, stores)
  | .proceeds runId =>
    let performed := performTurn runId statement stores
    (.ok performed.1, performed.2)

abbrev TurnCall := Process TurnStatement.Answer TurnFailure

def askTurn (statement : TurnStatement) : TurnCall statement.Answer :=
  Process.perform statement

variable (sessionId : Text)

def requireTurnSession : TurnCall TurnSession := do
  match ← askTurn .readSession with
  | none => Process.raise (.service (unknownSession sessionId))
  | some session => pure session

def readTurnMessage (messages : List TranscriptMessage) (key : Text) :
    TurnCall (List TranscriptMessage) := do
  match ← askTurn (.readMessage key) with
  | none => pure messages
  | some message => pure (messages ++ [message])

/-- `readMessages`. -/
def readTranscript : TurnCall (List TranscriptMessage) := do
  let keys ← askTurn .listKeys
  keys.foldlM readTurnMessage []

/-- The key that a message of the id is written under: the one it has, or
one behind all that were listed. -/
def rowKey (listed : List Text) (id : Text) : Text :=
  let state := listedState listed
  (state.keyOf id).getD (seqKey state.nextSeq id)

/-- `appendMessages`, for one message. -/
def appendMessage (message : TranscriptMessage) : TurnCall PUnit := do
  let session ← requireTurnSession sessionId
  let keys ← askTurn .listKeys
  askTurn (.writeMessage (rowKey keys message.id) message)
  let added := if ((listedState keys).keyOf message.id).isSome then 0 else 1
  askTurn (.saveSession { session with messageCount := keys.length + added })
  pure PUnit.unit

def setActiveRun (runId : Text) : TurnCall PUnit := do
  let session ← requireTurnSession sessionId
  askTurn (.saveSession { session with activeRunId := some runId })
  pure PUnit.unit

def clearActiveRun (runId : Text) : TurnCall PUnit := do
  let session ← requireTurnSession sessionId
  if session.activeRunId = some runId then
    askTurn (.saveSession { session with activeRunId := none })
    pure PUnit.unit
  else pure PUnit.unit

/-- An answer to a turn: a run, or an error with its status. -/
inductive TurnReply where
  | started (runId : Text)
  | refused (error : Text) (status : Nat)
  | concluded

def healNeedsFailure : TurnReply :=
  .refused "self-heal requires failure".toList 400

def sessionReadOnly : TurnReply :=
  .refused "Session is read-only".toList 409

def selfHealCapExceeded : TurnReply :=
  .refused "self-heal cap exceeded".toList 429

def unknownTurnAgent (name : Text) : TurnReply :=
  .refused ("Unknown agent: ".toList ++ name) 404

def startTurn (turn : ChatTurn) : TurnCall TurnReply := do
  let runId ← askTurn (.startRun turn)
  setActiveRun sessionId runId
  pure (.started runId)

def launchTurn (session : TurnSession) (turn : ChatTurn) : TurnCall TurnReply :=
  match session.agent.filter (· ≠ []) with
  | none => startTurn sessionId turn
  | some agent => do
      if ← askTurn (.readProfile agent) then startTurn sessionId turn
      else pure (unknownTurnAgent agent)

def admitTurn (session : TurnSession) (turn : ChatTurn) (prior : List TranscriptMessage) :
    TurnCall TurnReply :=
  if turn.healOf.any (!healAllowed prior ·) then pure selfHealCapExceeded
  else do
    appendMessage sessionId turn.message
    launchTurn sessionId session turn

/-- `POST /chat-turn`. -/
def chatTurn (turn : ChatTurn) : TurnCall TurnReply :=
  if turn.isSelfHeal && turn.failure.isNone then pure healNeedsFailure
  else do
    let session ← requireTurnSession sessionId
    if session.status = .merged ∨ session.status = .closed then pure sessionReadOnly
    else
      let prior ← readTranscript
      admitTurn sessionId session turn prior

def answerMessage (runId output : Text) : TranscriptMessage where
  id := "assistant-".toList ++ runId
  role := .assistant
  text := output
  healOf := none

def concludeRun (runId output : Text) : TurnCall TurnReply :=
  (do
    if output ≠ [] then
      appendMessage sessionId (answerMessage runId output)
    clearActiveRun sessionId runId
    pure .concluded : TurnCall TurnReply).rescue fun _ =>
      (do
        clearActiveRun sessionId runId
        pure .concluded : TurnCall TurnReply).rescue fun _ => pure .concluded

inductive TurnRequest where
  | turn (turn : ChatTurn)
  /-- The run of a turn has ended. -/
  | answered (runId output : Text)

/-- The message that a request appends, if it comes to that. -/
def TurnRequest.message : TurnRequest → TranscriptMessage
  | .turn asked => asked.message
  | .answered runId output => answerMessage runId output

def serveTurn : TurnRequest → TurnCall TurnReply
  | .turn asked => chatTurn sessionId asked
  | .answered runId output => concludeRun sessionId runId output

abbrev TurnSystem :=
  Concurrent TurnStores TurnRequest TurnStatement.Answer TurnFailure TurnReply

inductive TurnAct where
  | start (request : TurnRequest)
  | advance (position : Nat) (choice : TurnChoice)
  /-- The session is merged, closed or changed otherwise. -/
  | changeSession (record : Option TurnSession)

def isFreshId (system : TurnSystem) (id : Text) : Bool :=
  system.calls.all (·.request.message.id ≠ id)

/-- The ids that are drawn are new. -/
def turnStep (system : TurnSystem) : TurnAct → Option TurnSystem
  | .start request =>
    if isFreshId system request.message.id then
      some (system.start request (serveTurn sessionId request))
    else none
  | .advance position choice => system.advance executeTurn position choice
  | .changeSession record =>
    some { system with
      shared := { system.shared with session := record } }

def newSession (session : TurnSession) (profiles : List Text) : TurnSystem :=
  ⟨⟨some session, Keyed.empty, profiles, []⟩, [], []⟩

/-- A key lies between two others, where there are these. -/
def isWithin (low high : Option Text) (key : Text) : Bool :=
  low.all (· < key) && high.all (key < ·)

def stretch (rows : List TranscriptRow) (low high : Option Text) : List TranscriptRow :=
  rows.filter fun row => isWithin low high row.key

def isStartedHeal (stores : TurnStores) (row : TranscriptRow) : Bool :=
  isHealUserMessage row.message && stores.started.any (·.message = row.message)

structure HealCapsHeld (stores : TurnStores) : Prop where
  /-- At most one heal is started for a failed message. -/
  perMessage : ∀ failure, stores.started.countP (·.healOf = some failure) ≤ 1
  /-- Where there is no user message but heals, there are at most as many of
  them as the cap. -/
  perStretch : ∀ low high, (∀ row ∈ stretch stores.rows.rows low high,
      isPlainUser row.message = false) →
      (stretch stores.rows.rows low high).countP (isStartedHeal stores) ≤ maxWidgetAutofixes
  /-- Every turn that was started is in the transcript. -/
  recorded : ∀ turn ∈ stores.started, ∃ row ∈ stores.rows.rows, row.message = turn.message

/-- The messages and the keys that a call has read, and what it has done. -/
structure TurnMemory where
  prior : List TranscriptMessage
  listed : List Text
  (written launched : Bool)

def TurnMemory.blank : TurnMemory :=
  ⟨[], [], false, false⟩

def TurnMemory.remember (memory : TurnMemory) (statement : TurnStatement)
    (answer : Except TurnFailure statement.Answer) : TurnMemory :=
  match statement, answer with
  | .listKeys, .ok keys => { memory with listed := keys }
  | .readMessage _, .ok (some message) => { memory with prior := memory.prior ++ [message] }
  | .writeMessage _ _, .ok _ => { memory with written := true }
  | .startRun _, .ok _ => { memory with launched := true }
  | _, _ => memory

/-- A call writes its message once, a heal only if what it has read admits
it, and starts its run at most once after that. -/
def TurnMemory.admits (request : TurnRequest) (memory : TurnMemory) : TurnStatement → Prop
  | .writeMessage key message =>
    memory.written = false ∧ message = request.message ∧
      key = rowKey memory.listed message.id ∧ ∀ failure, message.healOf = some failure →
          healAllowed memory.prior failure = true
  | .startRun turn => request = .turn turn ∧ memory.written = true ∧ memory.launched = false
  | _ => True

def turnDiscipline (request : TurnRequest) :
    Discipline TurnStatement.Answer TurnFailure TurnMemory where
  admits := TurnMemory.admits request
  possible _ _ _ := True
  remember := TurnMemory.remember

def memoryAt (system : TurnSystem) (position : Nat) : TurnMemory :=
  memoryOf (turnDiscipline (.answered [] [])) .blank system.history position

def liesBetween (first second key : Text) : Bool :=
  (first < key && key < second) || (second < key && key < first)

def healsAround (rows : List TranscriptRow) (key : Text) : Nat :=
  rows.countP fun row => isHealUserMessage row.message && rows.all fun other =>
      !(isPlainUser other.message && liesBetween row.key key other.key)

def roomAt (rows : List TranscriptRow) (key failure : Text) : Bool :=
  (rows.all fun row => row.message.healOf ≠ some failure) &&
    healsAround rows key < maxWidgetAutofixes

/-- When a heal is written, there is room for it at its place exactly if
there was for its request in what it has read. -/
def findsRoom (system : TurnSystem) : TurnAct → Bool
  | .advance position (.proceeds _) =>
    match system.awaiting position with
    | some (.writeMessage key message) =>
      message.healOf.all fun failure =>
        roomAt system.shared.rows.rows key failure =
          healAllowed (memoryAt system position).prior failure
    | _ => true
  | _ => true

section

variable {request : TurnRequest} {memory : TurnMemory} {sessionId : Text}

def isOrdinaryTurn : TurnStatement → Prop
  | .writeMessage _ _ => False
  | .startRun _ => False
  | _ => True

/-- Nothing is asked of how a call ends. -/
def anyTurnEnd {Value : Type} (_ : TurnMemory) (_ : Except TurnFailure Value) : Prop :=
  True

theorem follows_of_isOrdinaryTurn {Value : Type} {process : TurnCall Value}
    (asks : Asks isOrdinaryTurn process) :
    Follows (turnDiscipline request) anyTurnEnd memory process := by
  apply follows_of_asks asks
  intro memory statement ordinary
  cases statement with
  | writeMessage key message => exact ordinary.elim
  | startRun turn => exact ordinary.elim
  | _ => trivial

theorem asks_requireTurnSession : Asks isOrdinaryTurn (requireTurnSession sessionId) := by
  refine asks_bind (asks_perform trivial) ?_
  intro found
  cases found with
  | none => exact asks_raise _
  | some session => exact asks_pure session

theorem asks_setActiveRun (runId : Text) :
    Asks isOrdinaryTurn (setActiveRun sessionId runId) := by
  refine asks_bind asks_requireTurnSession ?_
  intro session
  refine asks_bind (asks_perform trivial) ?_
  intro _
  exact asks_pure _

theorem asks_clearActiveRun (runId : Text) :
    Asks isOrdinaryTurn (clearActiveRun sessionId runId) := by
  refine asks_bind asks_requireTurnSession ?_
  intro session
  split
  · refine asks_bind (asks_perform trivial) ?_
    intro _
    exact asks_pure _
  · exact asks_pure _

/-- What holds of a call that has read the transcript. -/
def hasReadPrior (memory : TurnMemory) : Except TurnFailure (List TranscriptMessage) → Prop
  | .ok messages => memory.prior = messages ∧ memory.written = false ∧ memory.launched = false
  | .error _ => True

theorem follows_readTranscript :
    Follows (turnDiscipline request) hasReadPrior .blank readTranscript := by
  refine follows_await trivial (fun _ _ => trivial) ?_
  intro keys _
  refine follows_foldlM ?_ keys [] _ ⟨rfl, rfl, rfl⟩
  intro messages key memory before
  refine follows_await trivial (fun _ _ => trivial) ?_
  intro found _
  cases found with
  | none => exact before
  | some message => exact ⟨congrArg (· ++ [message]) before.1, before.2⟩

/-- What holds of a call that has appended its message. -/
def hasAppended (memory : TurnMemory) : Except TurnFailure PUnit → Prop
  | .ok _ => memory.written = true ∧ memory.launched = false
  | .error _ => True

theorem follows_appendMessage (unwritten : memory.written = false) (idle : memory.launched = false)
    (allowed : ∀ failure, request.message.healOf = some failure →
      healAllowed memory.prior failure = true) :
    Follows (turnDiscipline request) hasAppended memory
      (appendMessage sessionId request.message) := by
  refine follows_await trivial (fun _ _ => trivial) ?_
  intro found _
  cases found with
  | none => trivial
  | some session =>
    refine follows_await trivial (fun _ _ => trivial) ?_
    intro keys _
    refine follows_await ⟨unwritten, rfl, rfl, allowed⟩ (fun _ _ => trivial) ?_
    intro written _
    refine follows_await trivial (fun _ _ => trivial) ?_
    intro saved _
    exact ⟨rfl, idle⟩

theorem follows_startTurn {turn : ChatTurn} (own : request = .turn turn)
    (written : memory.written = true) (idle : memory.launched = false) :
    Follows (turnDiscipline request) anyTurnEnd memory (startTurn sessionId turn) := by
  apply follows_bind
  refine follows_await ⟨own, written, idle⟩ (fun _ _ => trivial) ?_
  intro runId _
  apply follows_of_isOrdinaryTurn
  refine asks_bind (asks_setActiveRun runId) ?_
  intro _
  exact asks_pure _

theorem follows_launchTurn {turn : ChatTurn} (session : TurnSession) (own : request = .turn turn)
    (written : memory.written = true) (idle : memory.launched = false) :
    Follows (turnDiscipline request) anyTurnEnd memory (launchTurn sessionId session turn) := by
  unfold launchTurn
  cases session.agent.filter (· ≠ []) with
  | none => exact follows_startTurn own written idle
  | some agent =>
    refine follows_await trivial (fun _ _ => trivial) ?_
    intro known _
    cases known with
    | true => exact follows_startTurn own written idle
    | false => trivial

theorem follows_admitTurn {turn : ChatTurn} (session : TurnSession)
    (unwritten : memory.written = false) (idle : memory.launched = false) :
    Follows (turnDiscipline (.turn turn)) anyTurnEnd memory
      (admitTurn sessionId session turn memory.prior) := by
  unfold admitTurn
  by_cases capped : turn.healOf.any (!healAllowed memory.prior ·)
  · rw [if_pos capped]
    trivial
  · rw [if_neg capped]
    have allowed : ∀ failure, turn.healOf = some failure →
        healAllowed memory.prior failure = true := by
      intro failure healing
      simpa [healing] using capped
    apply follows_bind
    have appends :
        Follows (turnDiscipline (.turn turn)) hasAppended memory
          (appendMessage sessionId turn.message) :=
      follows_appendMessage unwritten idle allowed
    apply appends.weaken
    intro afterwards outcome appended
    cases outcome with
    | error thrown => trivial
    | ok done => exact follows_launchTurn session rfl appended.1 appended.2

theorem follows_chatTurn (turn : ChatTurn) :
    Follows (turnDiscipline (.turn turn)) anyTurnEnd .blank (chatTurn sessionId turn) := by
  unfold chatTurn
  by_cases incomplete : turn.isSelfHeal && turn.failure.isNone
  · rw [if_pos incomplete]
    trivial
  · rw [if_neg incomplete]
    refine follows_await trivial (fun _ _ => trivial) ?_
    intro found _
    cases found with
    | none => trivial
    | some session =>
      show Follows _ _ _ (if _ then _ else _)
      split
      · trivial
      · refine follows_then follows_readTranscript (fun _ _ _ => trivial) ?_
        intro afterwards prior before
        obtain ⟨same, unwritten, idle⟩ := before
        subst same
        exact follows_admitTurn session unwritten idle

theorem follows_clearThenConclude (runId : Text) :
    Follows (turnDiscipline request) anyTurnEnd memory
      (do
        clearActiveRun sessionId runId
        pure TurnReply.concluded) := by
  apply follows_of_isOrdinaryTurn
  refine asks_bind (asks_clearActiveRun runId) ?_
  intro _
  exact asks_pure _

theorem follows_appendThenConclude (runId output : Text) :
    Follows (turnDiscipline (.answered runId output)) anyTurnEnd .blank
      (do
        if output ≠ [] then
          appendMessage sessionId (answerMessage runId output)
        clearActiveRun sessionId runId
        pure TurnReply.concluded) := by
  by_cases silent : output = []
  · simp only [if_neg (not_not_intro silent)]
    exact follows_clearThenConclude runId
  · simp only [if_pos (show output ≠ [] from silent)]
    have appends :
        Follows (turnDiscipline (.answered runId output)) hasAppended .blank
          (appendMessage sessionId (answerMessage runId output)) := by
      refine follows_appendMessage rfl rfl ?_
      intro failure impossible
      cases impossible
    refine follows_then appends (fun _ _ _ => trivial) ?_
    intro memory done _
    exact follows_clearThenConclude runId

theorem follows_concludeRun (runId output : Text) :
    Follows (turnDiscipline (.answered runId output)) anyTurnEnd .blank
      (concludeRun sessionId runId output) := by
  apply follows_rescue
  apply (follows_appendThenConclude runId output).weaken
  intro memory outcome _
  cases outcome with
  | ok reply => trivial
  | error thrown =>
    apply follows_rescue
    apply (follows_clearThenConclude runId).weaken
    intro memory outcome _
    cases outcome with
    | ok reply => trivial
    | error thrown => trivial

theorem follows_serveTurn (asked : TurnRequest) :
    Follows (turnDiscipline asked) anyTurnEnd .blank (serveTurn sessionId asked) := by
  cases asked with
  | turn turn => exact follows_chatTurn turn
  | answered runId output => exact follows_concludeRun runId output

end

theorem id_of_seqKey_eq {first second : Nat} {one two : Text}
    (same : seqKey first one = seqKey second two) :
    one = two := by
  have ordinals : padded 10 first = padded 10 second := by
    rw [← takeWhile_seqKey first one, ← takeWhile_seqKey second two, same]
  rw [seqKey_eq, seqKey_eq, ordinals] at same
  exact (List.cons.inj (List.append_cancel_left same)).2

theorem id_of_parseSeqKey {seq ordinal : Nat} {id read : Text}
    (parsed : parseSeqKey (seqKey seq id) = some (ordinal, read)) :
    read = id := by
  have short : seq < 10 ^ 10 := short_of_parseSeqKey (by rw [parsed]; rfl)
  rw [parseSeqKey_seqKey short] at parsed
  exact (congrArg Prod.snd (Option.some.inj parsed)).symm

def KeysRead (keys : List Text) (state : AppendState) : Prop :=
  ∀ entry ∈ state.keyById, entry.2 ∈ keys ∧ ∃ seq, parseSeqKey entry.2 = some (seq, entry.1)

theorem keysRead_countKey {keys : List Text} {state : AppendState}
    {key : Text} (read : KeysRead keys state) (member : key ∈ keys) :
    KeysRead keys (countKey state key) := by
  intro entry known
  unfold countKey at known
  cases parsed : parseSeqKey key with
  | none =>
    simp only [parsed] at known
    exact read entry known
  | some pair =>
    obtain ⟨seq, id⟩ := pair
    simp only [parsed] at known
    by_cases unnamed : id = []
    · rw [if_pos unnamed] at known
      exact read entry known
    · rw [if_neg unnamed] at known
      rcases List.mem_append.mp known with older | own
      · exact read entry older
      · rw [List.mem_singleton.mp own]
        exact ⟨member, seq, parsed⟩

theorem keysRead_listedState (keys : List Text) : KeysRead keys (listedState keys) := by
  have counted (rest : List Text) (state : AppendState)
      (inside : ∀ key ∈ rest, key ∈ keys) (read : KeysRead keys state) :
      KeysRead keys (rest.foldl countKey state) := by
    induction rest generalizing state with
    | nil => exact read
    | cons key rest ih =>
      have member := inside key List.mem_cons_self
      refine ih (countKey state key) ?_ (keysRead_countKey read member)
      intro other later
      exact inside other (List.mem_cons_of_mem key later)
  refine counted keys _ (fun key member => member) ?_
  intro entry none
  cases none

theorem keyOf_listedState {keys : List Text} {id key : Text}
    (found : (listedState keys).keyOf id = some key) :
    key ∈ keys ∧ ∃ seq, parseSeqKey key = some (seq, id) := by
  obtain ⟨entry, first, same⟩ := Option.map_eq_some_iff.mp found
  have known : entry ∈ (listedState keys).keyById :=
    List.mem_reverse.mp (List.mem_of_find?_eq_some first)
  have named : entry.1 = id := by simpa using List.find?_some first
  obtain ⟨listed, seq, parsed⟩ := keysRead_listedState keys entry known
  rw [named, same] at parsed
  rw [same] at listed
  exact ⟨listed, seq, parsed⟩

theorem rowKey_fresh {rows : List TranscriptRow} {listed : List Text} {id : Text}
    (keyed : ∀ row ∈ rows, ∃ seq, row.key = seqKey seq row.message.id)
    (among : ∀ key ∈ listed, ∃ row ∈ rows, row.key = key)
    (unused : ∀ row ∈ rows, row.message.id ≠ id) :
    (∃ seq, rowKey listed id = seqKey seq id) ∧ ∀ row ∈ rows, row.key ≠ rowKey listed id := by
  have made : ∃ seq, rowKey listed id = seqKey seq id := by
    refine ⟨(listedState listed).nextSeq, ?_⟩
    have unknown : (listedState listed).keyOf id = none := by
      apply Option.eq_none_iff_forall_ne_some.mpr
      intro key found
      obtain ⟨member, ordinal, parsed⟩ := keyOf_listedState found
      obtain ⟨row, held, same⟩ := among key member
      obtain ⟨seq, rowKeyed⟩ := keyed row held
      rw [← same, rowKeyed] at parsed
      exact unused row held (id_of_parseSeqKey parsed).symm
    rw [rowKey, unknown, Option.getD_none]
  refine ⟨made, ?_⟩
  intro row held same
  obtain ⟨ordinal, own⟩ := made
  obtain ⟨seq, rowKeyed⟩ := keyed row held
  rw [rowKeyed, own] at same
  exact unused row held (id_of_seqKey_eq same)

section

variable {rows : List TranscriptRow} {low high : Option Text}

/-- No plain user message lies between two keys. -/
def PlainFree (rows : List TranscriptRow) (low high : Option Text) : Prop :=
  ∀ row ∈ stretch rows low high, isPlainUser row.message = false

def healsBetween (rows : List TranscriptRow) (low high : Option Text) : Nat :=
  (stretch rows low high).countP (isHealUserMessage ·.message)

theorem mem_stretch {row : TranscriptRow} :
    row ∈ stretch rows low high ↔ row ∈ rows ∧ isWithin low high row.key = true :=
  List.mem_filter

theorem isWithin_of_liesBetween {first second key : Text} (one : isWithin low high first = true)
    (two : isWithin low high second = true) (between : liesBetween first second key = true) :
    isWithin low high key = true := by
  simp only [isWithin, liesBetween, Bool.and_eq_true, Bool.or_eq_true,
    decide_eq_true_eq, Option.all_eq_true] at one two between ⊢
  rcases between with up | down
  · exact ⟨fun bound given => lt_trans (one.1 bound given) up.1,
      fun bound given => lt_trans up.2 (two.2 bound given)⟩
  · exact ⟨fun bound given => lt_trans (two.1 bound given) down.1,
      fun bound given => lt_trans down.2 (one.2 bound given)⟩

theorem healsBetween_le_healsAround {key : Text} (plainFree : PlainFree rows low high)
    (inside : isWithin low high key = true) :
    healsBetween rows low high ≤ healsAround rows key := by
  rw [healsBetween, stretch, List.countP_filter, healsAround]
  apply List.countP_mono_left
  intro row member healing
  obtain ⟨heal, within⟩ := Bool.and_eq_true_iff.mp healing
  rw [heal, Bool.true_and, List.all_eq_true]
  intro other held
  cases plain : isPlainUser other.message with
  | false => rfl
  | true =>
    cases between : liesBetween row.key key other.key with
    | false => rfl
    | true =>
      have stretched : other ∈ stretch rows low high :=
        mem_stretch.mpr ⟨held, isWithin_of_liesBetween within inside between⟩
      rw [plainFree other stretched] at plain
      cases plain

theorem stretch_append_singleton (row : TranscriptRow) :
    stretch (rows ++ [row]) low high = stretch rows low high ++
        if isWithin low high row.key then [row] else [] := by
  rw [stretch, List.filter_append, stretch, List.filter_singleton, cond_eq_ite]

theorem stretches_append {row : TranscriptRow} (capped : ∀ low high, PlainFree rows low high →
      healsBetween rows low high ≤ maxWidgetAutofixes)
    (room : isHealUserMessage row.message = true → healsAround rows row.key < maxWidgetAutofixes)
    (plainFree : PlainFree (rows ++ [row]) low high) :
    healsBetween (rows ++ [row]) low high ≤ maxWidgetAutofixes := by
  have before : PlainFree rows low high := by
    intro other member
    apply plainFree other
    rw [stretch_append_singleton]
    exact List.mem_append_left _ member
  have old := capped low high before
  rw [healsBetween, stretch_append_singleton, List.countP_append]
  by_cases inside : isWithin low high row.key = true
  · rw [if_pos inside, List.countP_singleton]
    by_cases heal : isHealUserMessage row.message = true
    · have around := healsBetween_le_healsAround before inside
      have room := room heal
      rw [if_pos heal]
      change healsBetween rows low high + 1 ≤ maxWidgetAutofixes
      omega
    · rw [if_neg heal]
      exact old
  · rw [if_neg inside]
    exact old

end

/-- What the calls remember agrees with the stores. -/
structure TurnsAgree (requestAt : Nat → Option TurnRequest)
    (memory : Nat → TurnMemory) (stores : TurnStores) : Prop where
  distinct : ∀ first second one two, requestAt first = some one → requestAt second = some two →
      one.message.id = two.message.id → first = second
  keyed : ∀ row ∈ stores.rows.rows, ∃ seq, row.key = seqKey seq row.message.id
  written : ∀ row ∈ stores.rows.rows, ∃ position request,
    requestAt position = some request ∧ request.message = row.message ∧
      (memory position).written = true
  listed : ∀ position, ∀ key ∈ (memory position).listed, ∃ row ∈ stores.rows.rows, row.key = key
  recorded : ∀ position request, requestAt position = some request →
    (memory position).written = true → ∃ row ∈ stores.rows.rows, row.message = request.message
  launched : ∀ turn ∈ stores.started, ∃ position, requestAt position = some (.turn turn) ∧
      (memory position).launched = true ∧ (memory position).written = true
  startedOnce : (stores.started.map ChatTurn.messageId).Nodup
  healedOnce : ∀ first ∈ stores.rows.rows, ∀ second ∈ stores.rows.rows,
    ∀ failure, first.message.healOf = some failure →
      second.message.healOf = some failure → first = second
  capped : ∀ low high, PlainFree stores.rows.rows low high →
    healsBetween stores.rows.rows low high ≤ maxWidgetAutofixes

section

variable {requestAt : Nat → Option TurnRequest}
  {memory : Nat → TurnMemory} {stores : TurnStores} {position : Nat}
  {request : TurnRequest}

/-- Where a fact is one of every call and of what it remembers, one call may
remember other things. -/
theorem holds_update (holds : Nat → TurnMemory → Prop) {next : TurnMemory}
    (all : ∀ other, holds other (memory other)) (own : holds position next) (other : Nat) :
    holds other (Function.update memory position next other) := by
  by_cases same : other = position
  · rw [same, Function.update_self]
    exact own
  · rw [Function.update_of_ne same]
    exact all other

theorem countP_le_one_of_same {turns : List ChatTurn} {kind : ChatTurn → Bool}
    (once : (turns.map ChatTurn.messageId).Nodup)
    (same : ∀ first ∈ turns, ∀ second ∈ turns, kind first = true → kind second = true →
        first.messageId = second.messageId) :
    turns.countP kind ≤ 1 := by
  induction turns with
  | nil => simp
  | cons head tail ih =>
    rw [List.map_cons, List.nodup_cons] at once
    cases found : kind head with
    | false =>
      rw [List.countP_cons_of_neg (by simp [found])]
      apply ih once.2
      intro first one second two
      exact same first (List.mem_cons_of_mem head one) second (List.mem_cons_of_mem head two)
    | true =>
      have none : tail.countP kind = 0 := by
        apply List.countP_eq_zero.mpr
        intro other member again
        have equal := same head List.mem_cons_self other
          (List.mem_cons_of_mem head member) found again
        rw [equal] at once
        exact once.1 (List.mem_map_of_mem member)
      rw [List.countP_cons_of_pos found, none]

variable (agree : TurnsAgree requestAt memory stores)

include agree

theorem recorded_of_agree {turn : ChatTurn} (member : turn ∈ stores.started) :
    ∃ row ∈ stores.rows.rows, row.message = turn.message := by
  obtain ⟨position, found, _, written⟩ := agree.launched turn member
  exact agree.recorded position _ found written

theorem perMessage_of_agree (failure : Text) :
    stores.started.countP (·.healOf = some failure) ≤ 1 := by
  apply countP_le_one_of_same agree.startedOnce
  intro first one second two healsFirst healsSecond
  obtain ⟨row, held, own⟩ := recorded_of_agree agree one
  obtain ⟨other, heldOther, ownOther⟩ := recorded_of_agree agree two
  have sameRow : row = other := by
    refine agree.healedOnce row held other heldOther failure ?_ ?_
    · rw [own]
      exact of_decide_eq_true healsFirst
    · rw [ownOther]
      exact of_decide_eq_true healsSecond
  rw [sameRow, ownOther] at own
  exact (congrArg TranscriptMessage.id own).symm

theorem capsHeld_of_agree : HealCapsHeld stores := by
  refine ⟨perMessage_of_agree agree, ?_,
    fun turn member => recorded_of_agree agree member⟩
  intro low high plainFree
  refine Nat.le_trans ?_ (agree.capped low high plainFree)
  apply List.countP_mono_left
  intro row _ healing
  exact (Bool.and_eq_true_iff.mp healing).1

theorem agree_of_quiet {after : TurnStores} {next : TurnMemory} (rows : after.rows = stores.rows)
    (started : after.started = stores.started)
    (written : next.written = (memory position).written)
    (launched : next.launched = (memory position).launched)
    (listed : ∀ key ∈ next.listed, ∃ row ∈ stores.rows.rows, row.key = key) :
    TurnsAgree requestAt (Function.update memory position next) after := by
  have sameWritten (other : Nat) :
      (Function.update memory position next other).written = (memory other).written :=
    holds_update (fun place now => now.written = (memory place).written)
      (fun _ => rfl) written other
  have sameLaunched (other : Nat) :
      (Function.update memory position next other).launched = (memory other).launched :=
    holds_update (fun place now => now.launched = (memory place).launched)
      (fun _ => rfl) launched other
  refine ⟨agree.distinct, ?_, ?_, ?_, ?_, ?_, ?_, ?_, ?_⟩
  · rw [rows]
    exact agree.keyed
  · simp only [rows, sameWritten]
    exact agree.written
  · rw [rows]
    exact holds_update (fun _ now => ∀ key ∈ now.listed,
      ∃ row ∈ stores.rows.rows, row.key = key) agree.listed listed
  · simp only [rows, sameWritten]
    exact agree.recorded
  · simp only [started, sameWritten, sameLaunched]
    exact agree.launched
  · rw [started]
    exact agree.startedOnce
  · rw [rows]
    exact agree.healedOnce
  · rw [rows]
    exact agree.capped

theorem agree_of_read (key : Text) (found : Option TranscriptMessage) :
    TurnsAgree requestAt (Function.update memory position
        ((memory position).remember (.readMessage key) (.ok found))) stores := by
  cases found with
  | none => exact agree_of_quiet agree rfl rfl rfl rfl (agree.listed position)
  | some message => exact agree_of_quiet agree rfl rfl rfl rfl (agree.listed position)

theorem agree_of_write {key : Text} (found : requestAt position = some request)
    (unwritten : (memory position).written = false)
    (own : key = rowKey (memory position).listed request.message.id)
    (room : ∀ failure, request.message.healOf = some failure →
      roomAt stores.rows.rows key failure = true) :
    TurnsAgree requestAt (Function.update memory position { memory position with written := true })
      { stores with rows := stores.rows.put ⟨key, request.message⟩ } := by
  have unused : ∀ row ∈ stores.rows.rows, row.message.id ≠ request.message.id := by
    intro row member same
    obtain ⟨other, asked, foundOther, message, written⟩ :=
      agree.written row member
    rw [← message] at same
    rw [agree.distinct other position asked request foundOther found same, unwritten] at written
    cases written
  obtain ⟨made, fresh⟩ :=
    rowKey_fresh agree.keyed (agree.listed position) unused
  rw [← own] at made fresh
  have rows : (stores.rows.put ⟨key, request.message⟩).rows =
      stores.rows.rows ++ [⟨key, request.message⟩] := by
    rw [Keyed.rows_put, putUnder, if_neg]
    intro known
    obtain ⟨row, member, same⟩ := List.mem_map.mp known
    exact fresh row member same
  have mem_rows (row : TranscriptRow) :
      row ∈ (stores.rows.put ⟨key, request.message⟩).rows ↔
        row ∈ stores.rows.rows ∨ row = ⟨key, request.message⟩ := by
    rw [rows, List.mem_append, List.mem_singleton]
  have stillWritten (other : Nat) (before : (memory other).written = true) :
      (Function.update memory position
        { memory position with written := true } other).written = true :=
    holds_update (fun place now =>
      (memory place).written = true → now.written = true)
      (fun _ before => before) (fun _ => rfl) other before
  refine ⟨agree.distinct, ?_, ?_, ?_, ?_, ?_, agree.startedOnce, ?_, ?_⟩
  · intro row member
    rcases (mem_rows row).mp member with old | new
    · exact agree.keyed row old
    · rw [new]
      exact made
  · intro row member
    rcases (mem_rows row).mp member with old | new
    · obtain ⟨other, asked, foundOther, message, before⟩ :=
        agree.written row old
      exact ⟨other, asked, foundOther, message, stillWritten other before⟩
    · rw [new]
      refine ⟨position, request, found, rfl, ?_⟩
      rw [Function.update_self]
  · refine holds_update (fun _ now => ∀ key ∈ now.listed,
      ∃ row ∈ (stores.rows.put ⟨_, request.message⟩).rows, row.key = key)
      ?_ ?_
    · intro other listed member
      obtain ⟨row, held, same⟩ := agree.listed other listed member
      exact ⟨row, (mem_rows row).mpr (Or.inl held), same⟩
    · intro listed member
      obtain ⟨row, held, same⟩ := agree.listed position listed member
      exact ⟨row, (mem_rows row).mpr (Or.inl held), same⟩
  · intro other asked foundOther before
    by_cases same : other = position
    · rw [same, found] at foundOther
      cases foundOther
      exact ⟨_, (mem_rows _).mpr (Or.inr rfl), rfl⟩
    · rw [Function.update_of_ne same] at before
      obtain ⟨row, held, message⟩ :=
        agree.recorded other asked foundOther before
      exact ⟨row, (mem_rows row).mpr (Or.inl held), message⟩
  · intro turn member
    obtain ⟨other, foundOther, launched, before⟩ :=
      agree.launched turn member
    refine ⟨other, foundOther, ?_, stillWritten other before⟩
    refine holds_update (fun place now =>
      (memory place).launched = true → now.launched = true)
      ?_ ?_ other launched
    · intro place launchedThere
      exact launchedThere
    · intro launchedThere
      exact launchedThere
  · intro first one second two failure healsFirst healsSecond
    have apart {row : TranscriptRow} (old : row ∈ stores.rows.rows)
        (heals : row.message.healOf = some failure)
        (heal : request.message.healOf = some failure) : False := by
      have none := (Bool.and_eq_true_iff.mp (room failure heal)).1
      exact of_decide_eq_true (List.all_eq_true.mp none row old) heals
    rcases (mem_rows first).mp one with oldFirst | newFirst
    · rcases (mem_rows second).mp two with oldSecond | newSecond
      · exact agree.healedOnce first oldFirst second oldSecond failure healsFirst healsSecond
      · rw [newSecond] at healsSecond
        exact (apart oldFirst healsFirst healsSecond).elim
    · rcases (mem_rows second).mp two with oldSecond | newSecond
      · rw [newFirst] at healsFirst
        exact (apart oldSecond healsSecond healsFirst).elim
      · rw [newFirst, newSecond]
  · intro low high plainFree
    rw [rows] at plainFree ⊢
    refine stretches_append agree.capped ?_ plainFree
    intro heal
    obtain ⟨failure, healing⟩ :=
      Option.isSome_iff_exists.mp (Bool.and_eq_true_iff.mp heal).2
    have free := (Bool.and_eq_true_iff.mp (room failure healing)).2
    exact of_decide_eq_true free

theorem agree_of_launch {turn : ChatTurn} (found : requestAt position = some (.turn turn))
    (written : (memory position).written = true) (idle : (memory position).launched = false) :
    TurnsAgree requestAt (Function.update memory position
        { memory position with launched := true })
      { stores with started := stores.started ++ [turn] } := by
  have sameWritten (other : Nat) :
      (Function.update memory position { memory position with launched := true } other).written =
        (memory other).written := by
    refine holds_update (fun place now => now.written = (memory place).written) ?_ ?_ other
    · intro place
      rfl
    · rfl
  refine ⟨agree.distinct, agree.keyed, ?_, ?_, ?_, ?_, ?_, agree.healedOnce, agree.capped⟩
  · simp only [sameWritten]
    exact agree.written
  · exact holds_update (fun _ now => ∀ key ∈ now.listed,
      ∃ row ∈ stores.rows.rows, row.key = key) agree.listed
      (agree.listed position)
  · simp only [sameWritten]
    exact agree.recorded
  · intro other member
    rcases List.mem_append.mp member with old | new
    · obtain ⟨place, foundOther, launched, before⟩ :=
        agree.launched other old
      refine ⟨place, foundOther, ?_, ?_⟩
      · exact holds_update (fun place now =>
          (memory place).launched = true → now.launched = true)
          (fun _ before => before) (fun _ => rfl) place launched
      · rw [sameWritten]
        exact before
    · rw [List.mem_singleton.mp new]
      refine ⟨position, found, ?_, ?_⟩
      · rw [Function.update_self]
      · rw [sameWritten]
        exact written
  · rw [List.map_append, List.nodup_append]
    refine ⟨agree.startedOnce, List.nodup_singleton _, ?_⟩
    intro first old second new same
    obtain ⟨other, member, own⟩ := List.mem_map.mp old
    rw [List.map_singleton, List.mem_singleton] at new
    obtain ⟨place, foundOther, launched, _⟩ := agree.launched other member
    have equal : other.messageId = turn.messageId := by rw [own, same, new]
    have placed : place = position := agree.distinct place position _ _ foundOther found equal
    rw [placed, idle] at launched
    cases launched

end

structure TurnsKept (system : TurnSystem) : Prop where
  follow : AllFollow turnDiscipline .blank (fun _ => anyTurnEnd) system
  agree : TurnsAgree system.requestAt (memoryAt system) system.shared

section

variable {system next : TurnSystem} {sessionId : Text}

theorem turnsKept_newSession (session : TurnSession) (profiles : List Text) :
    TurnsKept (newSession session profiles) := by
  refine ⟨follows_idle, ?_, ?_, ?_, ?_, ?_, ?_, List.nodup_nil, ?_, ?_⟩
  · intro first second one two found
    cases found
  · intro row member
    cases member
  · intro row member
    cases member
  · intro position key member
    cases member
  · intro position request found
    cases found
  · intro turn member
    cases member
  · intro first member
    cases member
  · intro low high _
    exact Nat.zero_le _

variable {request : TurnRequest} {position : Nat}

theorem memoryAt_answered {statement : TurnStatement}
    {resume : Except TurnFailure statement.Answer → TurnCall TurnReply}
    {outcome : Except TurnFailure statement.Answer × TurnStores} :
    memoryAt (system.answered position request statement resume outcome) =
      Function.update (memoryAt system) position
        ((memoryAt system position).remember statement outcome.1) :=
  memoryOf_append _ _ _ _ _ _

theorem remember_error (memory : TurnMemory) (statement : TurnStatement) (thrown : TurnFailure) :
    memory.remember statement (.error thrown) = memory := by
  cases statement <;> rfl

theorem agree_execute {statement : TurnStatement} {choice : TurnChoice}
    (agree : TurnsAgree system.requestAt (memoryAt system) system.shared)
    (found : system.requestAt position = some request)
    (admitted : (memoryAt system position).admits request statement)
    (awaits : system.awaiting position = some statement)
    (room : findsRoom system (.advance position choice) = true) :
    TurnsAgree system.requestAt (Function.update (memoryAt system) position
        ((memoryAt system position).remember statement
          (executeTurn choice statement system.shared).1))
      (executeTurn choice statement system.shared).2 := by
  cases choice with
  | refuses =>
    show TurnsAgree _ (Function.update _ _ (TurnMemory.remember _ _ (.error _))) _
    rw [remember_error]
    exact agree_of_quiet agree rfl rfl rfl rfl (agree.listed position)
  | proceeds runId =>
    cases statement with
    | listKeys =>
      refine agree_of_quiet agree rfl rfl rfl rfl ?_
      intro key member
      exact List.mem_map.mp (mem_sortTexts.mp member)
    | readMessage key => exact agree_of_read agree key _
    | writeMessage key message =>
      obtain ⟨unwritten, own, place, allowed⟩ := admitted
      subst own
      refine agree_of_write agree found unwritten place ?_
      intro failure healing
      have enough := room
      simp only [findsRoom, awaits, healing, Option.all_some, decide_eq_true_eq] at enough
      rw [enough]
      exact allowed failure healing
    | startRun turn =>
      obtain ⟨own, written, idle⟩ := admitted
      rw [own] at found
      exact agree_of_launch agree found written idle
    | _ => exact agree_of_quiet agree rfl rfl rfl rfl (agree.listed position)

theorem turnsKept_advance {choice : TurnChoice} (kept : TurnsKept system)
    (room : findsRoom system (.advance position choice) = true)
    (advanced : system.advance executeTurn position choice = some next) :
    TurnsKept next := by
  obtain ⟨request, statement, resume, found, rfl⟩ :=
    advance_eq_some_iff.mp advanced
  have awaits : system.awaiting position = some statement :=
    awaiting_eq_some_iff.mpr ⟨request, resume, found⟩
  have asked : system.requestAt position = some request := requestAt_of_found found
  refine ⟨follows_answered kept.follow found trivial, ?_⟩
  rw [memoryAt_answered, funext (requestAt_answered found)]
  exact agree_execute kept.agree asked (kept.follow.admitted found) awaits room

theorem turnsKept_start (kept : TurnsKept system)
    (fresh : isFreshId system request.message.id = true) :
    TurnsKept (system.start request (serveTurn sessionId request)) := by
  refine ⟨follows_start kept.follow (follows_serveTurn request), ?_⟩
  have agree := kept.agree
  have new {position : Nat} {asked : TurnRequest}
      (found : system.requestAt position = some asked) :
      asked.message.id ≠ request.message.id := by
    obtain ⟨call, present, rfl⟩ := Option.map_eq_some_iff.mp found
    have member := List.mem_of_getElem? present
    exact of_decide_eq_true (List.all_eq_true.mp fresh call member)
  have older {position : Nat} {asked : TurnRequest}
      (found : system.requestAt position = some asked) :
      (system.start request (serveTurn sessionId request)).requestAt position = some asked :=
    requestAt_start_eq_some_iff.mpr (Or.inl found)
  have unasked : memoryAt system system.calls.length = .blank := by
    apply memoryOf_of_unasked
    intro entry member
    exact Nat.ne_of_lt (kept.follow.below entry member)
  refine { agree with
      distinct := ?_
      written := ?_
      recorded := ?_
      launched := ?_ }
  · intro first second one two foundFirst foundSecond same
    rcases requestAt_start_eq_some_iff.mp foundFirst with oldFirst | lastFirst
    · rcases requestAt_start_eq_some_iff.mp foundSecond with
        oldSecond | lastSecond
      · exact agree.distinct first second one two oldFirst oldSecond same
      · rw [lastSecond.2] at same
        exact (new oldFirst same).elim
    · rcases requestAt_start_eq_some_iff.mp foundSecond with
        oldSecond | lastSecond
      · rw [lastFirst.2] at same
        exact (new oldSecond same.symm).elim
      · rw [lastFirst.1, lastSecond.1]
  · intro row member
    obtain ⟨position, asked, found, message, written⟩ :=
      agree.written row member
    exact ⟨position, asked, older found, message, written⟩
  · intro position asked found written
    rcases requestAt_start_eq_some_iff.mp found with old | last
    · exact agree.recorded position asked old written
    · have before : (memoryAt system position).written = true := written
      rw [last.1, unasked] at before
      cases before
  · intro turn member
    obtain ⟨position, found, launched, written⟩ := agree.launched turn member
    exact ⟨position, older found, launched, written⟩

theorem turnsKept_turnStep {act : TurnAct} (kept : TurnsKept system)
    (room : findsRoom system act = true) (taken : turnStep sessionId system act = some next) :
    TurnsKept next := by
  cases act with
  | start request =>
    by_cases fresh : isFreshId system request.message.id = true
    · rw [turnStep, if_pos fresh] at taken
      cases taken
      exact turnsKept_start kept fresh
    · rw [turnStep, if_neg fresh] at taken
      cases taken
  | advance position choice => exact turnsKept_advance kept room taken
  | changeSession record =>
    cases taken
    refine ⟨⟨kept.follow.below, kept.follow.follow⟩, ?_⟩
    exact { kept.agree with }

end

/-- In every run in which each heal that is written finds the room that its
request has found, the caps on heals hold. -/
theorem self_heal_caps_hold (sessionId : Text) (session : TurnSession)
    (profiles : List Text) (acts : List TurnAct) (system : TurnSystem)
    (meets : StepsMeet (turnStep sessionId) (fun state act => findsRoom state act = true)
      (newSession session profiles) acts)
    (executed : runFrom (turnStep sessionId) (newSession session profiles) acts = some system) :
    HealCapsHeld system.shared := by
  have kept : TurnsKept system :=
    invariant_of_stepsMeet TurnsKept
      (fun _ _ _ kept room taken => turnsKept_turnStep kept room taken)
      (turnsKept_newSession session profiles) meets executed
  exact capsHeld_of_agree kept.agree

def ordinarySession : TurnSession where
  status := .opened
  agent := none
  activeRunId := none
  messageCount := 0

def healOfFirst (messageId : String) : TurnRequest :=
  .turn ⟨messageId.toList, "mend it".toList, true, some "assistant-r0".toList⟩

def advances (position number : Nat) : List TurnAct :=
  List.replicate number (.advance position (.proceeds "run".toList))

def answeredActs : List TurnAct :=
  .start (.answered "r0".toList "broken".toList) :: advances 0 5

/-- A heal and, after it, a second one for the same answer. -/
def healsInTurn : List TurnAct :=
  answeredActs ++ .start (healOfFirst "u1") :: advances 1 10 ++
    .start (healOfFirst "u2") :: advances 2 4

theorem self_heal_caps_hold_healsInTurn :
    ∃ system, runFrom (turnStep "s".toList) (newSession ordinarySession [])
        healsInTurn = some system ∧
      system.shared.started.length = 1 ∧ HealCapsHeld system.shared := by
  have executed :
      (runFrom (turnStep "s".toList) (newSession ordinarySession [])
        healsInTurn).map (·.shared.started.length) = some 1 := by
    decide +kernel
  obtain ⟨system, found, started⟩ := Option.map_eq_some_iff.mp executed
  exact ⟨system, found, started, self_heal_caps_hold _ _ _ _ _ (by decide +kernel) found⟩

/-- Two heals of one answer, both of which have read the transcript before
either is in it. -/
def healsAtOnce : List TurnAct :=
  answeredActs ++ .start (healOfFirst "u1") :: .start (healOfFirst "u2") ::
    advances 1 3 ++ advances 2 3 ++ advances 1 5 ++ advances 2 5

theorem failed_answer_is_healed_twice :
    ¬ ∀ (sessionId : Text) (session : TurnSession) (profiles : List Text)
      (acts : List TurnAct) (system : TurnSystem),
      runFrom (turnStep sessionId) (newSession session profiles) acts = some system →
      HealCapsHeld system.shared := by
  intro claimed
  have executed :
      (runFrom (turnStep "s".toList) (newSession ordinarySession [])
        healsAtOnce).map (·.shared.started.countP
          (·.healOf = some "assistant-r0".toList)) = some 2 := by
    decide +kernel
  obtain ⟨system, found, twice⟩ := Option.map_eq_some_iff.mp executed
  have single := (claimed _ _ _ _ system found).perMessage "assistant-r0".toList
  rw [twice] at single
  omega

end Aprovan.Agents
