import Aprovan.Vcs.ChatSessions

/-!
# Updates of a session

Calls of the seven functions that write a session's record run over its
rows.  Each writes back the record that it read some statements before, and an
append counts the rows that it listed before it wrote its own.
-/

namespace Aprovan.Vcs

open Aprovan.Library Aprovan.Server Aprovan.Fs

inductive SessionRequest where
  | write (path content : Text) (mimeType : Option Text)
  | delete (path : Text) (recursive : Bool)
  | append (messages : List ChatMessage)
  | update (patch : SessionPatch)
  | setActiveRun (runId onlyIfRunId : Option Text)
  | close (userId : Text) (options : CloseOptions)
  | touch (path : Text)
  deriving DecidableEq

inductive SessionReply where
  | written (file : FsEntry)
  | deleted (removed : List Text)
  | answered (record : ChatSessionRecord)
  | closed (record : ChatSessionRecord) (commit : Option VcsCommit)
  | touched
  deriving DecidableEq

/-- The callers of `sessionWrite` and `sessionDelete` read the record. -/
def serveSession (services : SessionServices) (id : Text) :
    SessionRequest → SessionCall SessionReply
  | .write path content mimeType => do
      let session ← requireSession id
      let written ← sessionWrite session path content mimeType
      pure (.written written.1)
  | .delete path recursive => do
      let session ← requireSession id
      let deleted ← sessionDelete session path recursive
      pure (.deleted deleted.1)
  | .append messages => do
      pure (.answered (← appendMessages id messages))
  | .update patch => do
      pure (.answered (← updateSession id patch))
  | .setActiveRun runId onlyIfRunId => do
      pure (.answered (← setSessionActiveRun id runId onlyIfRunId))
  | .close userId options => do
      let closed ← closeSession services id userId options
      pure (.closed closed.1 closed.2)
  | .touch path => do
      recordSessionTouch id path
      pure .touched

/-- Every statement but those that await nothing may be refused. -/
def executeSession (services : SessionServices) (refused : Bool)
    (statement : SessionStatement) (stores : SessionStores) :
    Except SessionFailure statement.Answer × SessionStores :=
  if refused ∧ statement ≠ .now ∧ statement ≠ .randomUUID then (.error .store, stores)
  else
    (.ok (answerSession services statement stores).1, (answerSession services statement stores).2)

abbrev SessionSystem :=
  Concurrent SessionStores SessionRequest SessionStatement.Answer SessionFailure SessionReply

inductive SessionAct where
  | start (request : SessionRequest)
  /-- The statement that the call at a position awaits is executed. -/
  | advance (position : Nat) (refused : Bool)
  | tick (milliseconds : Nat)
  /-- The files and the history change for other reasons. -/
  | elsewhere (files : Store) (history : History)

def sessionStep (services : SessionServices) (id : Text) (system : SessionSystem) :
    SessionAct → Option SessionSystem
  | .start request => some (system.start request (serveSession services id request))
  | .advance position refused => system.advance (executeSession services) position refused
  | .tick milliseconds =>
    some { system with
      shared := { system.shared with
        clock := system.shared.clock + milliseconds } }
  | .elsewhere files history =>
    some { system with
      shared := { system.shared with files := files, history := history } }

/-- No call was started on the rows. -/
def noSessionCalls (stores : SessionStores) : SessionSystem :=
  ⟨stores, [], []⟩

/-- What holds of the record once a call has saved it. -/
inductive SessionFact where
  | staged (path : Text) (hash : Option Text)
  | titled (title : Text)
  | inMode (mode : SessionMode)
  | tabbed (tabs : Text)
  | running (runId : Option Text)
  | touched (path : Text)
  | ended

namespace SessionFact

def Holds (record : ChatSessionRecord) : SessionFact → Prop
  | .staged path hash => record.overlay.get path = some hash
  | .titled title => record.title = title
  | .inMode mode => record.mode = mode
  | .tabbed tabs => record.tabs = some tabs
  | .running runId => record.activeRunId = runId
  | .touched path => path ∈ record.touchedPaths.getD []
  | .ended => record.status ≠ .opened

/-- A later update that replaces an earlier one.  A touched path stays
touched, and an end is final. -/
def overrides : SessionFact → SessionFact → Bool
  | .staged later _, .staged earlier _ => later = earlier
  | .titled _, .titled _ => true
  | .inMode _, .inMode _ => true
  | .tabbed _, .tabbed _ => true
  | .running _, .running _ => true
  | _, _ => false

end SessionFact

def tombstones (request : SessionRequest) (record : ChatSessionRecord) : List Text :=
  match request with
  | .delete path recursive =>
    (record.overlay.entries.filter fun entry =>
      matchesDelete path recursive entry.1 && entry.2 = none).map Prod.fst
  | _ => []

/-- What a call does that completes and saves the record; a delete of some
paths. -/
def factsOf (services : SessionServices) (removed : List Text) : SessionRequest → List SessionFact
  | .write path content _ => [.staged path (some (services.sha256 content))]
  | .delete _ _ => removed.map (.staged · none)
  | .append _ => []
  | .update patch =>
    (match trim (patch.title.getD []) with
      | [] => []
      | title => [.titled title]) ++
      (patch.mode.map .inMode).toList ++ (patch.tabs.map .tabbed).toList
  | .setActiveRun runId _ => [.running runId]
  | .close _ _ => [.ended]
  | .touch path => ((normalizeFsPath path).map .touched).toList

/-- What the reply to a call promises.  A touch of a known path and a clear
with nothing to clear save nothing. -/
def promisedFacts (services : SessionServices) (request : SessionRequest) (reply : SessionReply) :
    List SessionFact :=
  match request, reply with
  | .touch _, _ => []
  | .setActiveRun none _, _ => []
  | .delete _ _, .deleted removed => factsOf services removed request
  | request, _ => factsOf services [] request

abbrev SessionEntry := Executed SessionStatement.Answer SessionFailure

/-- What an executed statement did to the record, when it saved it. -/
def entryFacts (services : SessionServices) (system : SessionSystem) (entry : SessionEntry) :
    List SessionFact :=
  match system.requestAt entry.caller, entry with
  | some request, ⟨_, .saveSession record, .ok _⟩ =>
    factsOf services (tombstones request record) request
  | _, _ => []

/-- The record shows every update of a series that no later one replaced. -/
def Reflects (updates : List (List SessionFact)) (stored : Option ChatSessionRecord) : Prop :=
  ∀ before facts after, updates = before ++ facts :: after → ∀ fact ∈ facts,
      (∀ later ∈ after, ∀ other ∈ later, other.overrides fact = false) →
        ∃ record ∈ stored, fact.Holds record

def Quiet (system : SessionSystem) : Prop :=
  ∀ call ∈ system.calls, call.process.outcome?.isSome

structure KeepsUpdates (services : SessionServices) (system : SessionSystem) : Prop where
  /-- A call that completed has saved what it promises. -/
  saved : ∀ (position : Nat) request reply,
    system.calls[position]? = some ⟨request, .done (.ok reply)⟩ →
      ∀ fact ∈ promisedFacts services request reply,
        ∃ entry ∈ system.history, entry.caller = position ∧ fact ∈ entryFacts services system entry
  reflected : Reflects (system.history.map (entryFacts services system)) system.shared.session
  counted : Quiet system → ∀ record ∈ system.shared.session,
    record.messageCount = system.shared.messages.rows.length
  stayClosed : ∀ (position : Nat) userId options reply,
    system.calls[position]? = some ⟨.close userId options, .done (.ok reply)⟩ →
      ∀ record ∈ system.shared.session, record.status ≠ .opened

/-- What a call knows: the record that it read, the rows that it listed, the
rows that it wrote and has not counted, and the record that it saved. -/
structure SessionMemory where
  read : Option ChatSessionRecord
  (listed fresh : List Text)
  saved : Option ChatSessionRecord

def knowsNothing : SessionMemory :=
  ⟨none, [], [], none⟩

def rememberAnswer (memory : SessionMemory) (statement : SessionStatement)
    (answer : Except SessionFailure statement.Answer) : SessionMemory :=
  match statement, answer with
  | .readSession, .ok found => { memory with read := found }
  | .listMessageKeys, .ok keys => { memory with listed := keys }
  | .writeMessage key _, .ok _ =>
    if key ∈ memory.listed ∨ key ∈ memory.fresh then memory
    else { memory with fresh := memory.fresh ++ [key] }
  | .saveSession record, .ok _ => { memory with fresh := [], saved := some record }
  | _, _ => memory

def known (system : SessionSystem) (position : Nat) : SessionMemory :=
  system.history.foldl (fun memory entry =>
    if entry.caller = position then rememberAnswer memory entry.statement entry.answer
    else memory) knowsNothing

namespace SessionRequest

def appends : SessionRequest → Bool
  | .append _ => true
  | _ => false

def stagedPath : SessionRequest → Option Text
  | .write path _ _ => some path
  | .delete path _ => some path
  | _ => none

end SessionRequest

/-- The save overwrites the record that the call read, and an append knows
all rows. -/
def SavesUnchanged (system : SessionSystem) (position : Nat) (request : SessionRequest) : Prop :=
  system.shared.session = (known system position).read ∧
    (request.appends → ∀ key ∈ system.shared.messages.names,
      key ∈ (known system position).listed ∨ key ∈ (known system position).fresh)
  deriving Decidable

/-- The condition on a statement that is not refused; an ordinal has at most
ten digits. -/
def StatementCondition (system : SessionSystem) (position : Nat) (request : SessionRequest) :
    SessionStatement → Prop
  | .saveSession _ => SavesUnchanged system position request
  | .writeMessage key _ => (parseSeqKey key).isSome
  | _ => True

/-- The condition on one act.  A statement is refused to no call with rows
that are not counted yet, and no path is named like the prototype. -/
def SessionCondition (system : SessionSystem) : SessionAct → Prop
  | .start request => request.stagedPath ≠ some PlainObject.prototypeKey
  | .advance position false =>
    ∀ request ∈ system.requestAt position, ∀ statement ∈ system.awaiting position,
        StatementCondition system position request statement
  | .advance position true => (known system position).fresh = []
  | _ => True

instance (system : SessionSystem) (position : Nat)
    (request : SessionRequest) (statement : SessionStatement) :
    Decidable (StatementCondition system position request statement) := by
  cases statement <;> unfold StatementCondition <;> infer_instance

instance (system : SessionSystem) (act : SessionAct) : Decidable (SessionCondition system act) :=
  match act with
  | .start request =>
    inferInstanceAs (Decidable (request.stagedPath ≠ some PlainObject.prototypeKey))
  | .advance position false =>
    inferInstanceAs (Decidable (∀ request ∈ system.requestAt position,
      ∀ statement ∈ system.awaiting position,
        StatementCondition system position request statement))
  | .advance position true => inferInstanceAs (Decidable ((known system position).fresh = []))
  | .tick _ => .isTrue trivial
  | .elsewhere _ _ => .isTrue trivial

variable (services : SessionServices) (request : SessionRequest)

def savedFacts (record : ChatSessionRecord) : List SessionFact :=
  factsOf services (tombstones request record) request

/-- The record shows the facts of its save, and what held before and is not
overridden. -/
structure Extends (before record : ChatSessionRecord) : Prop where
  own : ∀ fact ∈ savedFacts services request record, fact.Holds record
  kept : ∀ fact : SessionFact, fact.Holds before → (∀ other ∈ savedFacts services request record,
      other.overrides fact = false) → fact.Holds record

/-- A save of what the call read, with its own update. -/
def SavesFrom (memory : SessionMemory) (record : ChatSessionRecord) : Prop :=
  ∃ before, memory.read = some before ∧ Extends services request before record ∧
    (request.appends = false → memory.fresh = []) ∧
    record.messageCount =
      if request.appends then memory.listed.length + memory.fresh.length
      else before.messageCount

def sessionDiscipline : Discipline SessionStatement.Answer SessionFailure SessionMemory where
  admits memory statement :=
    match statement with
    | .saveSession record => SavesFrom services request memory record
    | .writeMessage _ _ => request.appends = true
    | .listMessageKeys => memory.fresh = []
    | _ => True
  possible memory statement answer :=
    (memory.fresh ≠ [] → ∃ value, answer = .ok value) ∧
      match statement, answer with
      | .writeMessage key _, .ok _ => (parseSeqKey key).isSome
      | .writeFile _ content _, .ok file => file.hash = services.sha256 content
      | _, _ => True
  remember := rememberAnswer

/-- No row is left uncounted, and what the reply promises was saved. -/
def SessionEnds (memory : SessionMemory) (outcome : Except SessionFailure SessionReply) : Prop :=
  memory.fresh = [] ∧ ∀ reply, outcome = .ok reply →
      ∀ fact ∈ promisedFacts services request reply, ∃ record, memory.saved = some record ∧
          fact ∈ savedFacts services request record

def EndsWith {Value : Type} (services : SessionServices)
    (request : SessionRequest) (reply : Value → SessionReply)
    (memory : SessionMemory) (outcome : Except SessionFailure Value) : Prop :=
  SessionEnds services request memory (outcome.map reply)

/-- A function of a call keeps to the discipline and ends as it should. -/
abbrev Obeys {Value : Type} (services : SessionServices) (request : SessionRequest)
    (reply : Value → SessionReply) (memory : SessionMemory) (process : SessionCall Value) :
    Prop :=
  Follows (sessionDiscipline services request) (EndsWith services request reply) memory process

def isPlain : SessionStatement → Bool
  | .readSession => false
  | .saveSession _ => false
  | .listMessageKeys => false
  | .writeMessage _ _ => false
  | _ => true

variable {id : Text} {record : ChatSessionRecord}

section

variable {services : SessionServices} {request : SessionRequest}
  {memory : SessionMemory} {Value Result : Type}
  {reply : Value → SessionReply}

theorem endsWith_error {thrown : SessionFailure} (settled : memory.fresh = []) :
    EndsWith services request reply memory (.error thrown) := by
  refine ⟨settled, ?_⟩
  intro answered same
  cases same

variable {statement : SessionStatement}

theorem settled_of_possible {thrown : SessionFailure}
    (possible : (sessionDiscipline services request).possible memory statement (.error thrown)) :
    memory.fresh = [] := by
  by_contra uncounted
  obtain ⟨value, same⟩ := possible.1 uncounted
  cases same

theorem rememberAnswer_plain (plain : isPlain statement)
    (answer : Except SessionFailure statement.Answer) :
    rememberAnswer memory statement answer = memory := by
  cases statement with
  | readSession => cases plain
  | saveSession record => cases plain
  | listMessageKeys => cases plain
  | writeMessage key message => cases plain
  | _ => rfl

theorem admits_plain {statement : SessionStatement} (plain : isPlain statement) :
    (sessionDiscipline services request).admits memory statement := by
  cases statement with
  | saveSession record => cases plain
  | writeMessage key message => cases plain
  | listMessageKeys => cases plain
  | _ => trivial

theorem follows_plain {next : statement.Answer → SessionCall Value}
    (plain : isPlain statement) (after : ∀ answer,
      (sessionDiscipline services request).possible memory statement (.ok answer) →
      Obeys services request reply memory (next answer)) :
    Obeys services request reply memory (ask statement >>= next) := by
  refine ⟨admits_plain plain, ?_⟩
  intro answer possible
  have same : rememberAnswer memory statement answer = memory := rememberAnswer_plain plain answer
  show Follows _ _ (rememberAnswer memory statement answer) _
  rw [same]
  cases answer with
  | ok value => exact after value possible
  | error thrown => exact endsWith_error (settled_of_possible possible)

theorem keeps_ask (plain : isPlain statement) :
    KeepsMemory (sessionDiscipline services request) (ask statement) := by
  apply keepsMemory_perform
  · intro memory
    exact admits_plain plain
  · intro memory answer
    exact rememberAnswer_plain plain answer

theorem follows_keeps {process : SessionCall Result} {next : Result → SessionCall Value}
    (settled : memory.fresh = [])
    (keeps : KeepsMemory (sessionDiscipline services request) process)
    (after : ∀ value, Obeys services request reply memory (next value)) :
    Obeys services request reply memory (process >>= next) := by
  apply follows_bind
  apply (keeps memory).weaken
  intro afterwards outcome same
  subst same
  cases outcome with
  | ok value => exact after value
  | error thrown => exact endsWith_error settled

variable (session : ChatSessionRecord)

def hasRead : SessionMemory :=
  { knowsNothing with read := some session }

theorem follows_requireSession {next : ChatSessionRecord → SessionCall Value} (after : ∀ session,
      Obeys services request reply (hasRead session) (next session)) :
    Obeys services request reply knowsNothing (requireSession id >>= next) := by
  refine follows_await trivial (fun _ _ => endsWith_error rfl) ?_
  intro found possible
  cases found with
  | none => exact endsWith_error rfl
  | some session => exact after session

theorem follows_lastSave (record : ChatSessionRecord) (reply : Unit → SessionReply)
    (saves : SavesFrom services request memory record)
    (promised : ∀ fact ∈ promisedFacts services request (reply ()),
      fact ∈ savedFacts services request record) :
    Obeys services request reply memory (save record) := by
  refine follows_await saves (fun _ possible => endsWith_error (settled_of_possible possible)) ?_
  intro done possible
  refine ⟨rfl, ?_⟩
  intro answered same fact member
  cases same
  exact ⟨record, rfl, promised fact member⟩

theorem follows_save (record : ChatSessionRecord) {value : Value}
    (saves : SavesFrom services request memory record)
    (promised : ∀ fact ∈ promisedFacts services request (reply value),
      fact ∈ savedFacts services request record) :
    Obeys services request reply memory (save record >>= fun _ => pure value) := by
  refine follows_then (follows_lastSave record (fun _ => reply value) saves promised)
    (fun _ _ ended => ended) ?_
  intro afterwards done ended
  exact ended

theorem follows_unsaved {value : Value} (settled : memory.fresh = [])
    (nothing : promisedFacts services request (reply value) = []) :
    Obeys services request reply memory (pure value) := by
  refine ⟨settled, ?_⟩
  intro answered same fact member
  cases same
  rw [nothing] at member
  cases member

theorem follows_refuse {error : ServiceError} (settled : memory.fresh = []) :
    Obeys services request reply memory (refuse error) :=
  endsWith_error settled

theorem keeps_history {process : SessionCall Value} (asks : Asks (isHistoryStatement ·) process) :
    KeepsMemory (sessionDiscipline services request) process := by
  have plain : ∀ statement : SessionStatement,
      isHistoryStatement statement → isPlain statement := by
    intro statement history
    cases statement <;> first | rfl | cases history
  apply keepsMemory_of_asks asks
  · intro memory statement history
    exact admits_plain (plain statement history)
  · intro memory statement answer history
    exact rememberAnswer_plain (plain statement history) answer

theorem keeps_applyStaged (entry : Text × Option Text) :
    KeepsMemory (sessionDiscipline services request) (applyStaged session entry) := by
  unfold applyStaged
  cases normalizeFsPath entry.1 with
  | none => exact keepsMemory_pure ()
  | some normalized =>
    cases entry.2 with
    | none =>
      apply keepsMemory_rescue
      · apply keepsMemory_bind (keeps_ask rfl)
        intro removed
        exact keepsMemory_pure _
      · intro thrown
        exact keepsMemory_pure ()
    | some staged =>
      apply keepsMemory_bind (keeps_ask rfl)
      intro found
      cases found with
      | none => exact keepsMemory_raise _
      | some shadow =>
        apply keepsMemory_bind (keeps_ask rfl)
        intro written
        exact keepsMemory_pure _

variable {before : ChatSessionRecord} {path : Text}

theorem extends_write {content : Text} {mimeType : Option Text}
    (updatedAt : Nat) (plain : path ≠ PlainObject.prototypeKey) :
    Extends services (.write path content mimeType) before { before with
        overlay := before.overlay.set path (some (services.sha256 content))
        updatedAt := updatedAt } := by
  constructor
  · intro fact member
    rw [List.mem_singleton.mp member]
    exact before.overlay.get_set_self _ plain
  · intro fact holds alone
    cases fact with
    | staged other hash =>
      have different : other ≠ path := by
        intro same
        have kept := alone _ (List.mem_singleton_self _)
        simp [SessionFact.overrides, same] at kept
      show PlainObject.get _ other = some hash
      rw [PlainObject.get_set_of_ne _ _ different]
      exact holds
    | _ => exact holds

/-- The end of a call that answers its reply itself. -/
abbrev asReply (reply : SessionReply) : SessionReply :=
  reply

/-- A call of a function keeps to the discipline of its request. -/
abbrev Serves (services : SessionServices) (id : Text) (request : SessionRequest) : Prop :=
  Obeys services request asReply knowsNothing (serveSession services id request)

theorem follows_reply (reply : Value → SessionReply) {process : SessionCall Value}
    (follows : Obeys services request reply memory process) :
    Obeys services request asReply memory (process >>= fun value => pure (reply value)) := by
  refine follows_then follows (fun _ _ ended => ended) ?_
  intro afterwards value ended
  exact ended

theorem follows_write (id path content : Text) (mimeType : Option Text)
    (plain : path ≠ PlainObject.prototypeKey) :
    Serves services id (.write path content mimeType) := by
  apply follows_requireSession
  intro session
  apply follows_reply
    (fun written : FsEntry × ChatSessionRecord => .written written.1)
  apply follows_plain rfl
  intro file possible
  apply follows_plain rfl
  intro updatedAt _
  have hashed : file.hash = services.sha256 content := possible.2
  rw [hashed]
  apply follows_save _
  · exact ⟨session, rfl, extends_write updatedAt plain, fun _ => rfl, rfl⟩
  · intro fact member
    exact member

theorem mem_tombstones_iff {target : Text} {recursive : Bool} :
    target ∈ tombstones (.delete path recursive) record ↔
      matchesDelete path recursive target = true ∧ record.overlay.get target = some none := by
  simp only [tombstones, List.mem_map, List.mem_filter, Bool.and_eq_true, decide_eq_true_eq]
  constructor
  · rintro ⟨⟨key, staged⟩, ⟨member, matched, null⟩, rfl⟩
    dsimp only at null matched
    rw [null] at member
    exact ⟨matched, PlainObject.mem_entries.mp member⟩
  · rintro ⟨matched, found⟩
    exact ⟨(target, none), ⟨PlainObject.mem_entries.mpr found, matched, rfl⟩, rfl⟩

def tombstoned (removed : List Text) (updatedAt : Nat) : ChatSessionRecord := { session with
    overlay := removed.foldl (fun overlay target => overlay.set target none) session.overlay
    updatedAt := updatedAt }

theorem extends_delete {recursive : Bool} {removed : List Text}
    (updatedAt : Nat) (plain : PlainObject.prototypeKey ∉ removed)
    (matched : ∀ target ∈ removed, matchesDelete path recursive target) :
    Extends services (.delete path recursive) before (tombstoned before removed updatedAt) := by
  constructor
  · intro fact member
    obtain ⟨target, left, rfl⟩ := List.mem_map.mp member
    exact (mem_tombstones_iff.mp left).2
  · intro fact holds alone
    cases fact with
    | staged other hash =>
      have found := get_tombstoned before.overlay removed plain other
      by_cases deleted : other ∈ removed
      · rw [if_pos deleted] at found
        have left : SessionFact.staged other none ∈ savedFacts services (.delete path recursive)
            (tombstoned before removed updatedAt) :=
          List.mem_map_of_mem (mem_tombstones_iff.mpr ⟨matched other deleted, found⟩)
        have kept := alone _ left
        simp [SessionFact.overrides] at kept
      · rw [if_neg deleted] at found
        show PlainObject.get _ other = some hash
        rw [tombstoned, found]
        exact holds
    | _ => exact holds

theorem follows_delete (id path : Text) (recursive : Bool)
    (plain : path ≠ PlainObject.prototypeKey) :
    Serves services id (.delete path recursive) := by
  apply follows_requireSession
  intro session
  apply follows_reply
    (fun deleted : List Text × ChatSessionRecord => .deleted deleted.1)
  apply follows_keeps rfl (keeps_history
    (asks_baseSnapshot (allowsCommits_history services).reads session))
  intro snapshot
  by_cases nothing : deleteTargets snapshot session.overlay path recursive = []
  · simp only [nothing]
    exact follows_refuse rfl
  · simp only [nothing, if_false]
    apply follows_plain rfl
    intro updatedAt _
    have special : PlainObject.prototypeKey ∉
        deleteTargets snapshot session.overlay path recursive :=
      not_mem_deleteTargets plain
    apply follows_save (tombstoned session
      (deleteTargets snapshot session.overlay path recursive) updatedAt)
    · exact ⟨session, rfl, extends_delete updatedAt special
        (fun target member => matches_of_mem_deleteTargets member),
        fun _ => rfl, rfl⟩
    · intro fact member
      obtain ⟨target, removed, rfl⟩ := List.mem_map.mp member
      rw [mem_sortTexts] at removed
      apply List.mem_map_of_mem
      rw [mem_tombstones_iff]
      refine ⟨matches_of_mem_deleteTargets removed, ?_⟩
      have found := get_tombstoned session.overlay _ special target
      rw [if_pos removed] at found
      exact found

def patched (patch : SessionPatch) (updatedAt : Nat) : ChatSessionRecord := { session with
    title := patchedTitle patch session
    mode := patch.mode.getD session.mode
    tabs := patch.tabs.or session.tabs
    updatedAt := updatedAt }

theorem mem_factsOf_update {patch : SessionPatch} {removed : List Text} {fact : SessionFact} :
    fact ∈ factsOf services removed (.update patch) ↔ (trim (patch.title.getD []) ≠ [] ∧
        fact = .titled (trim (patch.title.getD []))) ∨
      (∃ mode, patch.mode = some mode ∧ fact = .inMode mode) ∨
      ∃ tabs, patch.tabs = some tabs ∧ fact = .tabbed tabs := by
  simp only [factsOf, List.mem_append, Option.mem_toList, Option.map_eq_some_iff, or_assoc]
  cases trim (patch.title.getD []) with
  | nil => simp [eq_comm]
  | cons letter rest => simp [eq_comm]

theorem extends_update {patch : SessionPatch} (updatedAt : Nat) :
    Extends services (.update patch) before (patched before patch updatedAt) := by
  constructor
  · intro fact member
    rcases mem_factsOf_update.mp member with
      ⟨titled, rfl⟩ | ⟨mode, chosen, rfl⟩ | ⟨tabs, given, rfl⟩
    · show patchedTitle patch before = _
      unfold patchedTitle
      cases title : trim (patch.title.getD []) with
      | nil => exact absurd title titled
      | cons letter rest => rfl
    · show patch.mode.getD before.mode = mode
      rw [chosen]
      rfl
    · show patch.tabs.or before.tabs = some tabs
      rw [given]
      rfl
  · intro fact holds alone
    cases fact with
    | titled title =>
      have untitled : trim (patch.title.getD []) = [] := by
        by_contra titled
        have kept := alone _ (mem_factsOf_update.mpr (Or.inl ⟨titled, rfl⟩))
        cases kept
      show patchedTitle patch before = title
      rw [patchedTitle, untitled]
      exact holds
    | inMode mode =>
      cases chosen : patch.mode with
      | none =>
        show patch.mode.getD before.mode = mode
        rw [chosen]
        exact holds
      | some other =>
        have kept := alone _ (mem_factsOf_update.mpr (Or.inr (Or.inl ⟨other, chosen, rfl⟩)))
        cases kept
    | tabbed tabs =>
      cases given : patch.tabs with
      | none =>
        show patch.tabs.or before.tabs = some tabs
        rw [given]
        exact holds
      | some other =>
        have kept := alone _ (mem_factsOf_update.mpr (Or.inr (Or.inr ⟨other, given, rfl⟩)))
        cases kept
    | _ => exact holds

theorem follows_update (id : Text) (patch : SessionPatch) :
    Serves services id (.update patch) := by
  apply follows_reply (fun record : ChatSessionRecord => .answered record)
  apply follows_requireSession
  intro session
  by_cases ended : patch.mode.isSome ∧ session.status ≠ .opened
  · rw [if_pos ended]
    exact follows_refuse rfl
  rw [if_neg ended]
  by_cases staged : patch.mode = some .auto ∧ session.overlay.rows ≠ []
  · rw [if_pos staged]
    exact follows_refuse rfl
  rw [if_neg staged]
  apply follows_plain rfl
  intro updatedAt _
  apply follows_save (patched session patch updatedAt)
  · exact ⟨session, rfl, extends_update updatedAt, fun _ => rfl, rfl⟩
  · intro fact member
    have given : fact ∈ factsOf services [] (.update patch) := member
    rw [savedFacts, mem_factsOf_update]
    exact mem_factsOf_update.mp given

def runningAs (runId : Option Text) (updatedAt : Nat) : ChatSessionRecord :=
  { session with activeRunId := runId, updatedAt := updatedAt }

theorem extends_setActiveRun {runId onlyIfRunId : Option Text} (updatedAt : Nat) :
    Extends services (.setActiveRun runId onlyIfRunId) before
      (runningAs before runId updatedAt) := by
  constructor
  · intro fact member
    rw [List.mem_singleton.mp member]
    rfl
  · intro fact holds alone
    cases fact with
    | running other =>
      have kept := alone _ (List.mem_singleton_self _)
      cases kept
    | _ => exact holds

theorem follows_setActiveRun (id : Text) (runId onlyIfRunId : Option Text) :
    Serves services id (.setActiveRun runId onlyIfRunId) := by
  apply follows_reply (fun record : ChatSessionRecord => .answered record)
  apply follows_requireSession
  intro session
  by_cases idle : runId = none ∧ ((onlyIfRunId.getD [] ≠ [] ∧
          session.activeRunId ≠ some (onlyIfRunId.getD [])) ∨
        session.activeRunId = none)
  · simp only [if_pos idle]
    apply follows_unsaved rfl
    rw [idle.1]
    rfl
  · simp only [if_neg idle]
    apply follows_plain rfl
    intro updatedAt _
    apply follows_save (runningAs session runId updatedAt)
    · exact ⟨session, rfl, extends_setActiveRun updatedAt, fun _ => rfl, rfl⟩
    · intro fact member
      cases runId with
      | none => cases member
      | some run => exact member

def touchedAt (path : Text) (updatedAt : Nat) : ChatSessionRecord := { session with
    touchedPaths := some (sortTexts ((session.touchedPaths.getD []).eraseDups ++ [path]))
    updatedAt := updatedAt }

theorem mem_touchedAt {session : ChatSessionRecord} {other : Text} {updatedAt : Nat} :
    other ∈ (touchedAt session path updatedAt).touchedPaths.getD [] ↔
      other ∈ session.touchedPaths.getD [] ∨ other = path := by
  show other ∈ sortTexts _ ↔ _
  rw [mem_sortTexts, List.mem_append, List.mem_eraseDups, List.mem_singleton]

theorem extends_touch {normalized : Text} (updatedAt : Nat)
    (normal : normalizeFsPath path = some normalized) :
    Extends services (.touch path) before (touchedAt before normalized updatedAt) := by
  constructor
  · intro fact member
    simp only [savedFacts, factsOf, normal, Option.map_some,
      Option.toList_some, List.mem_singleton] at member
    rw [member]
    exact mem_touchedAt.mpr (Or.inr rfl)
  · intro fact holds alone
    cases fact with
    | touched other => exact mem_touchedAt.mpr (Or.inl holds)
    | _ => exact holds

theorem follows_touch (id path : Text) : Serves services id (.touch path) := by
  apply follows_reply (fun _ : Unit => .touched)
  apply follows_requireSession
  intro session
  by_cases other : session.status ≠ .opened ∨ session.mode ≠ .auto
  · rw [if_pos other]
    exact follows_unsaved rfl rfl
  rw [if_neg other]
  cases normal : normalizeFsPath path with
  | none => exact follows_unsaved rfl rfl
  | some normalized =>
    by_cases repeated : normalized ∈ (session.touchedPaths.getD []).eraseDups
    · simp only [if_pos repeated]
      exact follows_unsaved rfl rfl
    · simp only [if_neg repeated]
      apply follows_plain rfl
      intro updatedAt _
      apply follows_lastSave (touchedAt session normalized updatedAt)
      · exact ⟨session, rfl, extends_touch updatedAt normal, fun _ => rfl, rfl⟩
      · intro fact member
        cases member

theorem extends_close {userId : Text} {options : CloseOptions} (ended : record.status ≠ .opened)
    (overlay : record.overlay = before.overlay) (title : record.title = before.title)
    (mode : record.mode = before.mode) (tabs : record.tabs = before.tabs)
    (run : record.activeRunId = before.activeRunId)
    (touched : record.touchedPaths = before.touchedPaths) :
    Extends services (.close userId options) before record := by
  constructor
  · intro fact member
    rw [List.mem_singleton.mp member]
    exact ended
  · intro fact holds alone
    cases fact <;> simp_all [SessionFact.Holds]

theorem follows_close (id userId : Text) (options : CloseOptions) :
    Serves services id (.close userId options) := by
  apply follows_reply
    (fun closed : ChatSessionRecord × Option VcsCommit => .closed closed.1 closed.2)
  apply follows_requireSession
  intro session
  by_cases ended : session.status ≠ .opened
  · rw [if_pos ended]
    exact follows_refuse rfl
  rw [if_neg ended]
  by_cases archived : options.stage = false
  · rw [if_pos archived]
    apply follows_plain rfl
    intro updatedAt _
    apply follows_save _
    · refine ⟨session, rfl, ?_, fun _ => rfl, rfl⟩
      exact extends_close (by simp) rfl rfl rfl rfl rfl rfl
    · intro fact member
      exact member
  · rw [if_neg archived]
    apply follows_keeps rfl (keepsMemory_forM (keeps_applyStaged session) _)
    intro applied
    apply follows_keeps rfl (keeps_history
      (asks_mergeParents (allowsCommits_history services) session userId fun _ => rfl))
    intro parents
    apply follows_keeps rfl (keeps_history
      (asks_commitTree (allowsCommits_history services) fun _ => rfl))
    intro commit
    apply follows_plain rfl
    intro updatedAt _
    apply follows_save _
    · refine ⟨session, rfl, ?_, fun _ => rfl, rfl⟩
      exact extends_close (by simp) rfl rfl rfl rfl rfl rfl
    · intro fact member
      exact member

end

section

variable {services : SessionServices} {session : ChatSessionRecord}
  {messages : List ChatMessage}

/-- What an append counts is what it knows, and its next ordinal is above
those of the rows that it knows. -/
structure Tracks (session : ChatSessionRecord) (memory : SessionMemory)
    (state : AppendState) : Prop where
  read : memory.read = some session
  count : state.count = memory.listed.length + memory.fresh.length
  known : ∀ entry ∈ state.keyById, entry.2 ∈ memory.listed ∨ entry.2 ∈ memory.fresh
  below : ∀ key, key ∈ memory.listed ∨ key ∈ memory.fresh →
    ∀ seq id, parseSeqKey key = some (seq, id) → seq < state.nextSeq

theorem countKey_keeps (state : AppendState) (key : Text) :
    (countKey state key).count = state.count ∧ state.nextSeq ≤ (countKey state key).nextSeq ∧
      (∀ entry ∈ (countKey state key).keyById, entry ∈ state.keyById ∨ entry.2 = key) ∧
      ∀ seq id, parseSeqKey key = some (seq, id) → seq < (countKey state key).nextSeq := by
  unfold countKey
  cases parsed : parseSeqKey key with
  | none =>
    refine ⟨rfl, Nat.le_refl _, ?_, ?_⟩
    · intro entry member
      exact Or.inl member
    · intro seq id impossible
      cases impossible
  | some pair =>
    obtain ⟨seq, id⟩ := pair
    refine ⟨rfl, Nat.le_max_left _ _, ?_, ?_⟩
    · intro entry member
      by_cases empty : id = []
      · simp only [if_pos empty] at member
        exact Or.inl member
      · simp only [if_neg empty, List.mem_append, List.mem_singleton] at member
        rcases member with old | new
        · exact Or.inl old
        · exact Or.inr (by rw [new])
    · intro other otherId same
      cases same
      exact Nat.lt_of_lt_of_le (Nat.lt_succ_self seq) (Nat.le_max_right _ _)

theorem foldl_countKey (keys : List Text) (state : AppendState) :
    (keys.foldl countKey state).count = state.count ∧
      state.nextSeq ≤ (keys.foldl countKey state).nextSeq ∧
      (∀ entry ∈ (keys.foldl countKey state).keyById, entry ∈ state.keyById ∨ entry.2 ∈ keys) ∧
      ∀ key ∈ keys, ∀ seq id, parseSeqKey key = some (seq, id) →
        seq < (keys.foldl countKey state).nextSeq := by
  induction keys generalizing state with
  | nil =>
    refine ⟨rfl, Nat.le_refl _, ?_, ?_⟩
    · intro entry member
      exact Or.inl member
    · intro key member
      cases member
  | cons key rest ih =>
    obtain ⟨count, grown, known, below⟩ := countKey_keeps state key
    obtain ⟨restCount, restGrown, restKnown, restBelow⟩ :=
      ih (countKey state key)
    refine ⟨restCount.trans count, Nat.le_trans grown restGrown, ?_, ?_⟩
    · intro entry member
      rcases restKnown entry member with earlier | later
      · rcases known entry earlier with old | own
        · exact Or.inl old
        · exact Or.inr (by rw [own]; exact List.mem_cons_self)
      · exact Or.inr (List.mem_cons_of_mem key later)
    · intro other member seq id parsed
      rcases List.mem_cons.mp member with own | later
      · subst own
        exact Nat.lt_of_lt_of_le (below seq id parsed) restGrown
      · exact restBelow other later seq id parsed

theorem tracks_listedState (keys : List Text) :
    Tracks session { hasRead session with listed := keys } (listedState keys) := by
  obtain ⟨count, _, known, below⟩ :=
    foldl_countKey keys ⟨[], 0, keys.length⟩
  refine ⟨rfl, count, ?_, ?_⟩
  · intro entry member
    rcases known entry member with none | listed
    · cases none
    · exact Or.inl listed
  · intro key member seq id parsed
    rcases member with listed | fresh
    · exact below key listed seq id parsed
    · cases fresh

/-- What holds between two messages of an append. -/
def Appending (session : ChatSessionRecord) (memory : SessionMemory)
    (outcome : Except SessionFailure AppendState) : Prop :=
  match outcome with
  | .ok state => Tracks session memory state
  | .error _ => memory.fresh = []

theorem known_of_keyOf {memory : SessionMemory} {state : AppendState}
    (tracks : Tracks session memory state) {id key : Text} (found : state.keyOf id = some key) :
    key ∈ memory.listed ∨ key ∈ memory.fresh := by
  obtain ⟨entry, first, rfl⟩ := Option.map_eq_some_iff.mp found
  exact tracks.known entry (List.mem_reverse.mp (List.mem_of_find?_eq_some first))

variable {memory : SessionMemory} {state : AppendState}

section

variable (tracks : Tracks session memory state)

include tracks

theorem follows_replaceRow {key : Text} (found : state.keyOf id = some key)
    (message : ChatMessage) :
    Follows (sessionDiscipline services (.append messages)) (Appending session) memory
      (do
        ask (.writeMessage key message)
        pure state) := by
  refine follows_await rfl (fun _ possible => settled_of_possible possible) ?_
  intro done possible
  show Tracks session (rememberAnswer memory (.writeMessage key message) (.ok done)) state
  have same : rememberAnswer memory (.writeMessage key message) (.ok done) = memory :=
    if_pos (known_of_keyOf tracks found)
  rw [same]
  exact tracks

theorem tracks_appendRow (fits : (parseSeqKey (seqKey state.nextSeq id)).isSome)
    (message : ChatMessage) (done : Unit) {keyById : List (Text × Text)}
    (own : ∀ entry ∈ keyById, entry ∈ state.keyById ∨ entry.2 = seqKey state.nextSeq id) :
    Tracks session (rememberAnswer memory (.writeMessage (seqKey state.nextSeq id) message)
        (.ok done))
      ⟨keyById, state.nextSeq + 1, state.count + 1⟩ := by
  have parsed := parseSeqKey_seqKey (short_of_parseSeqKey fits) id
  have unknown : ¬ (seqKey state.nextSeq id ∈ memory.listed ∨
      seqKey state.nextSeq id ∈ memory.fresh) := by
    intro member
    exact Nat.lt_irrefl _ (tracks.below _ member _ _ parsed)
  have added : rememberAnswer memory (.writeMessage (seqKey state.nextSeq id) message) (.ok done) =
      { memory with fresh := memory.fresh ++ [seqKey state.nextSeq id] } :=
    if_neg unknown
  rw [added]
  constructor
  · exact tracks.read
  · have counted := tracks.count
    simp only [List.length_append, List.length_singleton]
    omega
  · intro entry member
    rcases own entry member with old | new
    · rcases tracks.known entry old with listed | fresh
      · exact Or.inl listed
      · exact Or.inr (List.mem_append_left _ fresh)
    · exact Or.inr (List.mem_append_right _ (by simp [new]))
  · intro key member seq otherId same
    have older : key ∈ memory.listed ∨ key ∈ memory.fresh → seq < state.nextSeq + 1 := fun known =>
      Nat.lt_succ_of_lt (tracks.below key known seq otherId same)
    rcases member with listed | fresh
    · exact older (Or.inl listed)
    · rcases List.mem_append.mp fresh with old | new
      · exact older (Or.inr old)
      · rw [List.mem_singleton.mp new, parsed] at same
        cases same
        exact Nat.lt_succ_self _

theorem follows_writeRow (id : Text) (message : ChatMessage) {keyById : List (Text × Text)}
    (own : ∀ entry ∈ keyById, entry ∈ state.keyById ∨ entry.2 = seqKey state.nextSeq id) :
    Follows (sessionDiscipline services (.append messages)) (Appending session) memory
      (do
        ask (.writeMessage (seqKey state.nextSeq id) message)
        pure (⟨keyById, state.nextSeq + 1, state.count + 1⟩ : AppendState)) := by
  refine follows_await rfl (fun _ possible => settled_of_possible possible) ?_
  intro done possible
  exact tracks_appendRow tracks possible.2 message done own

end

theorem follows_upsertRow (state : AppendState) (message : ChatMessage)
    (tracks : Tracks session memory state) :
    Follows (sessionDiscipline services (.append messages))
      (Appending session) memory (upsertRow state message) := by
  unfold upsertRow
  cases existing : (messageIdOf message).bind state.keyOf with
  | some key =>
    obtain ⟨id, _, found⟩ := Option.bind_eq_some_iff.mp existing
    exact follows_replaceRow tracks found message
  | none =>
    unfold appendRow
    cases named : messageIdOf message with
    | some id =>
      apply follows_writeRow tracks id message
      intro entry member
      rcases List.mem_append.mp member with old | new
      · exact Or.inl old
      · exact Or.inr (by rw [List.mem_singleton.mp new])
    | none =>
      refine follows_await trivial (fun _ possible => settled_of_possible possible) ?_
      intro id possible
      apply follows_writeRow tracks id message
      intro entry member
      exact Or.inl member

theorem extends_append {before : ChatSessionRecord} (count updatedAt : Nat) :
    Extends services (.append messages) before
      { before with messageCount := count, updatedAt := updatedAt } := by
  constructor
  · intro fact member
    cases member
  · intro fact holds alone
    cases fact <;> exact holds

theorem follows_append (id : Text) (messages : List ChatMessage) :
    Serves services id (.append messages) := by
  apply follows_reply (fun record : ChatSessionRecord => .answered record)
  apply follows_requireSession
  intro session
  refine follows_await rfl (fun _ _ => endsWith_error rfl) ?_
  intro keys _
  show Follows _ _ { hasRead session with listed := keys }
    (messages.foldlM upsertRow (listedState keys) >>= _)
  apply follows_bind
  have rows : Follows (sessionDiscipline services (.append messages))
      (Appending session) { hasRead session with listed := keys }
      (messages.foldlM upsertRow (listedState keys)) :=
    follows_foldlM (fun state message _ tracks =>
      follows_upsertRow state message tracks)
      messages (listedState keys) _ (tracks_listedState keys)
  apply rows.weaken
  intro memory outcome ended
  cases outcome with
  | error thrown => exact endsWith_error ended
  | ok state =>
    have tracks : Tracks session memory state := ended
    apply follows_plain rfl
    intro updatedAt _
    apply follows_save _
    · refine ⟨session, tracks.read, extends_append state.count updatedAt, ?_, tracks.count⟩
      intro impossible
      cases impossible
    · intro fact member
      cases member

end

theorem follows_serveSession (services : SessionServices) (id : Text) (request : SessionRequest)
    (plain : request.stagedPath ≠ some PlainObject.prototypeKey) :
    Serves services id request := by
  cases request with
  | write path content mimeType =>
    apply follows_write
    intro same
    exact plain (congrArg some same)
  | delete path recursive =>
    apply follows_delete
    intro same
    exact plain (congrArg some same)
  | append messages => exact follows_append id messages
  | update patch => exact follows_update id patch
  | setActiveRun runId onlyIfRunId => exact follows_setActiveRun id runId onlyIfRunId
  | close userId options => exact follows_close id userId options
  | touch path => exact follows_touch id path

section

variable {services : SessionServices} {refused : Bool}
  {statement : SessionStatement} {stores : SessionStores}

theorem executeSession_cases (services : SessionServices) (refused : Bool)
    (statement : SessionStatement) (stores : SessionStores) :
    (refused = true ∧ executeSession services refused statement stores = (.error .store, stores)) ∨
    ((refused = false ∨ statement = .now ∨ statement = .randomUUID) ∧
      executeSession services refused statement stores =
        (.ok (answerSession services statement stores).1,
          (answerSession services statement stores).2)) := by
  unfold executeSession
  by_cases refusal : refused ∧ statement ≠ .now ∧ statement ≠ .randomUUID
  · rw [if_pos refusal]
    exact Or.inl ⟨refusal.1, rfl⟩
  · rw [if_neg refusal]
    refine Or.inr ⟨?_, rfl⟩
    by_contra answered
    simp only [not_or] at answered
    exact refusal ⟨by simpa using answered.1, answered.2⟩

/-- No statement deletes a row of the transcript. -/
theorem names_of_answer {key : Text} (member : key ∈ stores.messages.names) :
    key ∈ (answerSession services statement stores).2.messages.names := by
  cases statement with
  | writeMessage written message => exact Table.mem_names_put.mpr (Or.inr member)
  | _ => exact member

theorem rememberAnswer_error (memory : SessionMemory)
    (statement : SessionStatement) (thrown : SessionFailure) :
    rememberAnswer memory statement (.error thrown) = memory := by
  cases statement <;> rfl

end

theorem reflects_append {updates : List (List SessionFact)} {new : List SessionFact}
    {stored next : Option ChatSessionRecord} (reflects : Reflects updates stored)
    (own : ∀ fact ∈ new, ∃ record ∈ next, fact.Holds record)
    (kept : ∀ fact : SessionFact, (∃ record ∈ stored, fact.Holds record) →
      (∀ other ∈ new, other.overrides fact = false) → ∃ record ∈ next, fact.Holds record) :
    Reflects (updates ++ [new]) next := by
  intro before facts after split fact member alone
  rcases split_of_append_singleton split with
    ⟨same, _⟩ | ⟨shorter, rfl, older⟩
  · rw [same] at member
    exact own fact member
  · apply kept fact
    · apply reflects before facts shorter older fact member
      intro later inside
      exact alone later (List.mem_append_left _ inside)
    · exact alone new (List.mem_append_right _ (List.mem_singleton_self _))

structure SessionInvariant (services : SessionServices) (system : SessionSystem) : Prop where
  follow : AllFollow (sessionDiscipline services) knowsNothing
    (fun request => EndsWith services request asReply) system
  reflected : Reflects (system.history.map (entryFacts services system)) system.shared.session
  knownRows : ∀ position key, key ∈ (known system position).listed ∨
        key ∈ (known system position).fresh →
      key ∈ system.shared.messages.names
  distinct : ∀ position, ((known system position).listed ++ (known system position).fresh).Nodup
  counted :
    (∀ record ∈ system.shared.session, record.messageCount = system.shared.messages.rows.length) ∨
    ∃ position, (known system position).fresh ≠ []

theorem entryFacts_congr {services : SessionServices} {system next : SessionSystem}
    {entry : SessionEntry} (same : next.requestAt entry.caller = system.requestAt entry.caller) :
    entryFacts services next entry = entryFacts services system entry := by
  unfold entryFacts
  rw [same]

variable {services : SessionServices}

theorem invariant_of_sameRows {system next : SessionSystem}
    (invariant : SessionInvariant services system)
    (follow : AllFollow (sessionDiscipline services) knowsNothing
      (fun request => EndsWith services request asReply) next)
    (history : next.history = system.history)
    (requests : ∀ position < system.calls.length,
      next.requestAt position = system.requestAt position)
    (session : next.shared.session = system.shared.session)
    (messages : next.shared.messages = system.shared.messages) :
    SessionInvariant services next := by
  have knows : ∀ position, known next position = known system position := by
    intro position
    rw [known, history, known]
  have facts : next.history.map (entryFacts services next) =
      system.history.map (entryFacts services system) := by
    rw [history]
    apply List.map_congr_left
    intro entry member
    exact entryFacts_congr (requests entry.caller (invariant.follow.below entry member))
  refine ⟨follow, ?_, ?_, ?_, ?_⟩
  · rw [facts, session]
    exact invariant.reflected
  · intro position key member
    rw [knows] at member
    rw [messages]
    exact invariant.knownRows position key member
  · intro position
    rw [knows]
    exact invariant.distinct position
  · rw [session, messages]
    rcases invariant.counted with counted | ⟨position, uncounted⟩
    · exact Or.inl counted
    · exact Or.inr ⟨position, by rw [knows]; exact uncounted⟩

section

variable {services : SessionServices} {system : SessionSystem}
  {position : Nat} {refused : Bool} {request : SessionRequest}
  {statement : SessionStatement}
  {resume : Except SessionFailure statement.Answer → SessionCall SessionReply}

theorem known_answered_self (outcome : Except SessionFailure statement.Answer × SessionStores) :
    known (system.answered position request statement resume outcome) position =
      rememberAnswer (known system position) statement outcome.1 :=
  memoryOf_append_own ⟨fun _ _ => True, fun _ _ _ => True, rememberAnswer⟩
    knowsNothing system.history position statement outcome.1

theorem known_answered_of_ne {other : Nat} (different : position ≠ other)
    (outcome : Except SessionFailure statement.Answer × SessionStores) :
    known (system.answered position request statement resume outcome) other = known system other :=
  memoryOf_append_other ⟨fun _ _ => True, fun _ _ _ => True, rememberAnswer⟩
    knowsNothing system.history statement outcome.1 different

theorem length_of_savesUnchanged (invariant : SessionInvariant services system)
    (unchanged : SavesUnchanged system position request) (appends : request.appends) :
    (known system position).listed.length + (known system position).fresh.length =
      system.shared.messages.rows.length := by
  rw [← List.length_append]
  have permuted :
      ((known system position).listed ++ (known system position).fresh).Perm
        system.shared.messages.names := by
    apply (List.perm_ext_iff_of_nodup (invariant.distinct position)
      system.shared.messages.keys).mpr
    intro key
    rw [List.mem_append]
    exact ⟨invariant.knownRows position key, unchanged.2 appends key⟩
  rw [permuted.length_eq, Table.names, List.length_map]

theorem facts_answered (found : system.Awaits position request statement resume)
    (outcome : Except SessionFailure statement.Answer × SessionStores) :
    (system.answered position request statement resume outcome).history.map (entryFacts services
          (system.answered position request statement resume outcome)) =
      system.history.map (entryFacts services system) ++
        [entryFacts services system ⟨position, statement, outcome.1⟩] := by
  have same : ∀ entry, entryFacts services
      (system.answered position request statement resume outcome) entry =
      entryFacts services system entry := by
    intro entry
    exact entryFacts_congr (requestAt_answered found entry.caller)
  show (system.history ++ [_]).map _ = _
  rw [List.map_append, List.map_congr_left fun entry _ => same entry, List.map_singleton, same]

theorem invariant_refused (invariant : SessionInvariant services system)
    (found : system.Awaits position request statement resume)
    (follow : AllFollow (sessionDiscipline services) knowsNothing
      (fun request => EndsWith services request asReply)
      (system.answered position request statement resume (.error .store, system.shared))) :
    SessionInvariant services (system.answered position request statement resume
        (.error .store, system.shared)) := by
  have knows : ∀ other, known (system.answered position request statement resume
        (.error .store, system.shared)) other = known system other := by
    intro other
    by_cases same : position = other
    · subst same
      rw [known_answered_self]
      exact rememberAnswer_error _ _ _
    · exact known_answered_of_ne same _
  have nothing : entryFacts services system ⟨position, statement, .error .store⟩ = [] := by
    unfold entryFacts
    split
    · rename_i heard
      cases heard
    · rfl
  refine ⟨follow, ?_, ?_, ?_, ?_⟩
  · rw [facts_answered found, nothing]
    apply reflects_append invariant.reflected
    · intro fact member
      cases member
    · intro fact holds _
      exact holds
  · intro other key member
    rw [knows] at member
    exact invariant.knownRows other key member
  · intro other
    rw [knows]
    exact invariant.distinct other
  · rcases invariant.counted with counted | ⟨other, uncounted⟩
    · exact Or.inl counted
    · exact Or.inr ⟨other, by rw [knows]; exact uncounted⟩

abbrev afterAnswer (services : SessionServices) (system : SessionSystem) (position : Nat)
    (request : SessionRequest) (statement : SessionStatement)
    (resume : Except SessionFailure statement.Answer → SessionCall SessionReply) : SessionSystem :=
  system.answered position request statement resume
    (.ok (answerSession services statement system.shared).1,
      (answerSession services statement system.shared).2)

theorem condition_of_found (found : system.Awaits position request statement resume)
    (condition : SessionCondition system (.advance position refused))
    (answered : refused = false ∨ statement = .now ∨ statement = .randomUUID) :
    StatementCondition system position request statement := by
  rcases answered with accepted | rfl | rfl
  · subst accepted
    have asked : system.awaiting position = some statement := by rw [Concurrent.awaiting, found]
    exact condition request (requestAt_of_found found) statement asked
  · trivial
  · trivial

theorem entryFacts_save (asked : system.requestAt position = some request)
    (record : ChatSessionRecord) :
    entryFacts services system ⟨position, .saveSession record, .ok ()⟩ =
      savedFacts services request record := by
  unfold entryFacts
  rw [asked]
  rfl

theorem entryFacts_other (other : ∀ record, statement ≠ .saveSession record)
    (answer : Except SessionFailure statement.Answer) :
    entryFacts services system ⟨position, statement, answer⟩ = [] := by
  unfold entryFacts
  split
  · rename_i same
    cases same
    exact absurd rfl (other _)
  · rfl

section

variable (invariant : SessionInvariant services system)

include invariant

theorem reflected_answered (found : system.Awaits position request statement resume)
    (condition : StatementCondition system position request statement) :
    let after := afterAnswer services system position request statement resume
    Reflects (after.history.map (entryFacts services after))
      after.shared.session := by
  dsimp only
  rw [facts_answered found]
  cases statement with
  | saveSession record =>
    obtain ⟨before, read, extended, _, _⟩ := invariant.follow.admitted found
    have unchanged : SavesUnchanged system position request := condition
    have stored : system.shared.session = some before := unchanged.1.trans read
    have reflected := invariant.reflected
    rw [stored] at reflected
    show Reflects (_ ++ [entryFacts services system
      ⟨position, .saveSession record, .ok ()⟩]) (some record)
    rw [entryFacts_save (requestAt_of_found found)]
    apply reflects_append reflected
    · intro fact member
      exact ⟨record, rfl, extended.own fact member⟩
    · intro fact holds alone
      obtain ⟨old, same, held⟩ := holds
      cases same
      exact ⟨record, rfl, extended.kept fact held alone⟩
  | _ =>
    rw [entryFacts_other (by simp)]
    apply reflects_append invariant.reflected
    · intro fact member
      cases member
    · intro fact holds _
      exact holds

theorem knownRows_answered (other : Nat) (key : Text) :
    let after := afterAnswer services system position request statement resume
    key ∈ (known after other).listed ∨ key ∈ (known after other).fresh →
      key ∈ after.shared.messages.names := by
  intro after member
  have older : key ∈ (known system other).listed ∨ key ∈ (known system other).fresh →
      key ∈ (answerSession services statement system.shared).2.messages.names := fun held =>
    names_of_answer (invariant.knownRows other key held)
  by_cases same : position = other
  · subst same
    rw [known_answered_self] at member
    cases statement with
    | listMessageKeys =>
      rcases member with listed | fresh
      · exact (List.perm_insertionSort _ _).mem_iff.mp listed
      · exact older (Or.inr fresh)
    | writeMessage written message =>
      by_cases seen : written ∈ (known system position).listed ∨
          written ∈ (known system position).fresh
      · simp only [rememberAnswer, if_pos seen] at member
        exact older member
      · simp only [rememberAnswer, if_neg seen] at member
        rcases member with listed | fresh
        · exact older (Or.inl listed)
        · rcases List.mem_append.mp fresh with old | new
          · exact older (Or.inr old)
          · exact Table.mem_names_put.mpr (Or.inl (List.mem_singleton.mp new))
    | saveSession record =>
      rcases member with listed | fresh
      · exact older (Or.inl listed)
      · cases fresh
    | _ => exact older member
  · rw [known_answered_of_ne same] at member
    exact older member

theorem distinct_answered (found : system.Awaits position request statement resume) (other : Nat) :
    let after := afterAnswer services system position request statement resume
    ((known after other).listed ++ (known after other).fresh).Nodup := by
  have earlier := invariant.distinct other
  dsimp only
  by_cases same : position = other
  · subst same
    rw [known_answered_self]
    cases statement with
    | listMessageKeys =>
      have settled : (known system position).fresh = [] := invariant.follow.admitted found
      show (_ ++ (known system position).fresh).Nodup
      rw [settled, List.append_nil]
      exact (List.perm_insertionSort _ _).nodup_iff.mpr system.shared.messages.keys
    | writeMessage written message =>
      by_cases seen : written ∈ (known system position).listed ∨
          written ∈ (known system position).fresh
      · simp only [rememberAnswer, if_pos seen]
        exact earlier
      · simp only [rememberAnswer, if_neg seen]
        rw [← List.append_assoc, List.nodup_append]
        refine ⟨earlier, List.nodup_singleton written, ?_⟩
        intro old member new isNew same
        rw [same, List.mem_singleton.mp isNew] at member
        exact seen (List.mem_append.mp member)
    | saveSession record =>
      show (_ ++ []).Nodup
      rw [List.append_nil]
      exact (List.nodup_append.mp earlier).1
    | _ => exact earlier
  · rw [known_answered_of_ne same]
    exact earlier

theorem counted_save {resume : Except SessionFailure Unit → SessionCall SessionReply}
    (found : system.calls[position]? = some ⟨request, .await (.saveSession record) resume⟩)
    (unchanged : SavesUnchanged system position request) :
    record.messageCount = system.shared.messages.rows.length ∨
      ∃ other, position ≠ other ∧ (known system other).fresh ≠ [] := by
  obtain ⟨before, read, _, settled, count⟩ := invariant.follow.admitted found
  by_cases appends : request.appends = true
  · left
    rw [if_pos appends] at count
    exact count.trans (length_of_savesUnchanged invariant unchanged appends)
  · rw [if_neg appends] at count
    rcases invariant.counted with counted | ⟨other, uncounted⟩
    · left
      rw [count]
      apply counted
      rw [unchanged.1]
      exact read
    · right
      refine ⟨other, ?_, uncounted⟩
      intro same
      subst same
      exact uncounted (settled (by simpa using appends))

theorem counted_answered (found : system.Awaits position request statement resume)
    (condition : StatementCondition system position request statement) :
    let after := afterAnswer services system position request statement resume
    (∀ record ∈ after.shared.session, record.messageCount = after.shared.messages.rows.length) ∨
    ∃ other, (known after other).fresh ≠ [] := by
  intro after
  have elsewhere : ∀ other, position ≠ other → (known system other).fresh ≠ [] →
      ∃ other, (known after other).fresh ≠ [] := by
    intro other different uncounted
    refine ⟨other, ?_⟩
    rw [known_answered_of_ne different]
    exact uncounted
  have carried :
      (rememberAnswer (known system position) statement
        (.ok (answerSession services statement system.shared).1)).fresh =
        (known system position).fresh →
      (∃ other, (known system other).fresh ≠ []) →
      ∃ other, (known after other).fresh ≠ [] := by
    intro same uncounted
    obtain ⟨other, uncounted⟩ := uncounted
    by_cases own : position = other
    · subst own
      refine ⟨position, ?_⟩
      rw [known_answered_self, same]
      exact uncounted
    · exact elsewhere other own uncounted
  cases statement with
  | saveSession record =>
    rcases counted_save invariant found condition with
      counted | ⟨other, different, uncounted⟩
    · left
      intro stored same
      cases same
      exact counted
    · exact Or.inr (elsewhere other different uncounted)
  | writeMessage key message =>
    by_cases seen : key ∈ (known system position).listed ∨ key ∈ (known system position).fresh
    · have same : rememberAnswer (known system position)
          (.writeMessage key message) (.ok ()) = known system position :=
        if_pos seen
      rcases invariant.counted with counted | uncounted
      · left
        intro record stored
        have row := invariant.knownRows position key seen
        exact (counted record stored).trans (Table.length_put_of_mem row message).symm
      · exact Or.inr (carried (by rw [same]) uncounted)
    · right
      refine ⟨position, ?_⟩
      have grown : rememberAnswer (known system position) (.writeMessage key message) (.ok ()) =
          { known system position with
            fresh := (known system position).fresh ++ [key] } :=
        if_neg seen
      rw [known_answered_self]
      show (rememberAnswer (known system position) (.writeMessage key message) (.ok ())).fresh ≠ []
      rw [grown]
      simp
  | _ =>
    rcases invariant.counted with counted | uncounted
    · exact Or.inl counted
    · exact Or.inr (carried rfl uncounted)

end

theorem possible_of_condition (services : SessionServices)
    (found : system.Awaits position request statement resume)
    (condition : SessionCondition system (.advance position refused)) :
    (sessionDiscipline services request).possible (known system position) statement
      (executeSession services refused statement system.shared).1 := by
  rcases executeSession_cases services refused statement system.shared with
    ⟨refusal, outcome⟩ | ⟨answered, outcome⟩
  · rw [outcome]
    subst refusal
    refine ⟨fun uncounted => absurd condition uncounted, ?_⟩
    cases statement <;> trivial
  · have met := condition_of_found found condition answered
    rw [outcome]
    refine ⟨fun _ => ⟨_, rfl⟩, ?_⟩
    cases statement with
    | writeMessage key message => exact met
    | writeFile path content mimeType => rfl
    | _ => trivial

theorem invariant_answered (invariant : SessionInvariant services system)
    (found : system.Awaits position request statement resume)
    (condition : SessionCondition system (.advance position refused)) :
    SessionInvariant services (system.answered position request statement resume
        (executeSession services refused statement system.shared)) := by
  have follow := follows_answered invariant.follow found
    (possible_of_condition services found condition)
  rcases executeSession_cases services refused statement system.shared with
    ⟨_, outcome⟩ | ⟨answered, outcome⟩
  · rw [outcome] at follow ⊢
    exact invariant_refused invariant found follow
  · have met := condition_of_found found condition answered
    rw [outcome] at follow ⊢
    exact ⟨follow, reflected_answered invariant found met,
      knownRows_answered invariant, distinct_answered invariant found,
      counted_answered invariant found met⟩

end

theorem invariant_sessionStep (system : SessionSystem) (act : SessionAct) (next : SessionSystem)
    (invariant : SessionInvariant services system) (condition : SessionCondition system act)
    (stepped : sessionStep services id system act = some next) :
    SessionInvariant services next := by
  cases act with
  | start request =>
    cases stepped
    apply invariant_of_sameRows invariant
    · exact follows_start invariant.follow (follows_serveSession services id request condition)
    · rfl
    · intro position inside
      exact requestAt_start inside
    · rfl
    · rfl
  | advance position refused =>
    obtain ⟨request, statement, resume, found, rfl⟩ :=
      advance_eq_some_iff.mp stepped
    exact invariant_answered invariant found condition
  | tick milliseconds =>
    cases stepped
    exact invariant_of_sameRows invariant ⟨invariant.follow.below, invariant.follow.follow⟩ rfl
      (fun _ _ => rfl) rfl rfl
  | elsewhere files history =>
    cases stepped
    exact invariant_of_sameRows invariant ⟨invariant.follow.below, invariant.follow.follow⟩ rfl
      (fun _ _ => rfl) rfl rfl

/-- The counter is right between calls. -/
def CountsMessages (stores : SessionStores) : Prop :=
  ∀ record ∈ stores.session, record.messageCount = stores.messages.rows.length

theorem invariant_noSessionCalls {stores : SessionStores} (counted : CountsMessages stores) :
    SessionInvariant services (noSessionCalls stores) := by
  refine ⟨follows_idle, ?_, ?_, ?_, Or.inl counted⟩
  · intro before facts after split
    have empty := congrArg List.length split
    simp [noSessionCalls] at empty
  · intro position key member
    rcases member with listed | fresh
    · cases listed
    · cases fresh
  · intro position
    exact List.nodup_nil

theorem saved_of_known (system : SessionSystem) (position : Nat) :
    ∀ record, (known system position).saved = some record →
      (⟨position, .saveSession record, .ok ()⟩ : SessionEntry) ∈ system.history := by
  apply memoryOf_induction
    ⟨fun _ _ => True, fun _ _ _ => True, rememberAnswer⟩ knowsNothing position
    (fun history memory => ∀ record, memory.saved = some record →
      (⟨position, .saveSession record, .ok ()⟩ : SessionEntry) ∈ history)
  · intro record impossible
    cases impossible
  · intro history memory statement answer earlier record saved
    have older : memory.saved = some record →
        (⟨position, .saveSession record, .ok ()⟩ : SessionEntry) ∈
          history ++ [⟨position, statement, answer⟩] := fun same =>
      List.mem_append_left _ (earlier record same)
    cases answer with
    | error thrown =>
      have forgotten := rememberAnswer_error memory statement thrown
      dsimp only at saved
      rw [forgotten] at saved
      exact older saved
    | ok value =>
      cases statement with
      | saveSession other =>
        cases saved
        exact List.mem_append_right _ (List.mem_singleton_self _)
      | writeMessage key message =>
        apply older
        by_cases seen : key ∈ memory.listed ∨ key ∈ memory.fresh
        · simp only [rememberAnswer, if_pos seen] at saved
          exact saved
        · simp only [rememberAnswer, if_neg seen] at saved
          exact saved
      | _ => exact older saved
  · intro history memory entry _ earlier record saved
    exact List.mem_append_left _ (earlier record saved)

section

variable {services : SessionServices} {system : SessionSystem}
  (invariant : SessionInvariant services system)

include invariant

theorem saved_of_invariant {position : Nat} {request : SessionRequest} {reply : SessionReply}
    (found : system.calls[position]? = some ⟨request, .done (.ok reply)⟩) {fact : SessionFact}
    (promised : fact ∈ promisedFacts services request reply) :
    ∃ entry ∈ system.history, entry.caller = position ∧
      fact ∈ entryFacts services system entry := by
  have ended := invariant.follow.ended found
  obtain ⟨record, saved, member⟩ := ended.2 reply rfl fact promised
  refine ⟨_, saved_of_known system position record saved, rfl, ?_⟩
  rw [entryFacts_save (requestAt_of_found found)]
  exact member

theorem ended_of_saved {entry : SessionEntry} (member : entry ∈ system.history)
    (ends : .ended ∈ entryFacts services system entry) :
    ∃ record ∈ system.shared.session, record.status ≠ .opened := by
  obtain ⟨before, after, split⟩ := List.append_of_mem member
  have mapped : system.history.map (entryFacts services system) =
      before.map (entryFacts services system) ++ entryFacts services system entry ::
          after.map (entryFacts services system) := by
    rw [split, List.map_append, List.map_cons]
  apply invariant.reflected _ _ _ mapped .ended ends
  intro later _ other _
  cases other <;> rfl

theorem settled_of_quiet (quiet : Quiet system) (position : Nat) :
    (known system position).fresh = [] := by
  cases found : system.calls[position]? with
  | none =>
    have unasked : ∀ entry ∈ system.history, entry.caller ≠ position := by
      intro entry member same
      have below := invariant.follow.below entry member
      rw [same] at below
      rw [List.getElem?_eq_none_iff] at found
      omega
    have nothing : known system position = knowsNothing :=
      memoryOf_of_unasked ⟨fun _ _ => True, fun _ _ _ => True, rememberAnswer⟩ knowsNothing unasked
    rw [nothing]
    rfl
  | some call =>
    have done := quiet call (List.mem_of_getElem? found)
    obtain ⟨request, process⟩ := call
    cases process with
    | done outcome => exact (invariant.follow.ended found).1
    | await statement resume => cases done

theorem keepsUpdates_of_invariant : KeepsUpdates services system := by
  constructor
  · intro position request reply found fact promised
    exact saved_of_invariant invariant found promised
  · exact invariant.reflected
  · intro quiet
    rcases invariant.counted with counted | ⟨position, uncounted⟩
    · exact counted
    · exact absurd (settled_of_quiet invariant quiet position) uncounted
  · intro position userId options reply found record stored
    have promised : SessionFact.ended ∈ promisedFacts services (.close userId options) reply := by
      cases reply <;> exact List.mem_singleton_self _
    obtain ⟨entry, member, _, ends⟩ :=
      saved_of_invariant invariant found promised
    obtain ⟨other, same, ended⟩ := ended_of_saved invariant member ends
    cases stored.symm.trans same
    exact ended

end

/-- The record keeps every update in each run that meets the condition. -/
theorem sessions_keep_updates {services : SessionServices} {id : Text} {stores : SessionStores}
    {acts : List SessionAct} {system : SessionSystem} (counted : CountsMessages stores)
    (meets : StepsMeet (sessionStep services id) SessionCondition (noSessionCalls stores) acts)
    (executed : runFrom (sessionStep services id) (noSessionCalls stores) acts = some system) :
    KeepsUpdates services system := by
  apply keepsUpdates_of_invariant
  exact invariant_of_stepsMeet (SessionInvariant services)
    invariant_sessionStep (invariant_noSessionCalls counted) meets executed

/-- An edit is staged while an append waits, which reads the record when the
edit is saved. -/
def editThenAppend : List SessionAct :=
  [.start (.write "a".toList "x".toList none),
    .start (.append [⟨some "m".toList, "hello".toList⟩])] ++
    List.replicate 4 (.advance 0 false) ++
    List.replicate 5 (.advance 1 false)

theorem sessions_keep_updates_editThenAppend :
    ∃ system, runFrom (sessionStep plainServices "s".toList)
          (noSessionCalls freshStores) editThenAppend = some system ∧
        (system.shared.session.map (·.messageCount)) = some 1 ∧
        KeepsUpdates plainServices system := by
  have ran :
      (runFrom (sessionStep plainServices "s".toList)
        (noSessionCalls freshStores) editThenAppend).map
        (·.shared.session.map (·.messageCount)) = some (some 1) := by
    decide +kernel
  obtain ⟨system, executed, count⟩ := Option.map_eq_some_iff.mp ran
  have meets : StepsMeet (sessionStep plainServices "s".toList)
      SessionCondition (noSessionCalls freshStores) editThenAppend := by
    decide +kernel
  have counted : CountsMessages freshStores := by
    intro record stored
    cases stored
    rfl
  exact ⟨system, executed, count, sessions_keep_updates counted meets executed⟩

/-- A session is closed between the read and the save of an edit. -/
def closeDuringEdit : List SessionAct :=
  [.start (.write "a".toList "x".toList none),
    .start (.close "ann".toList ⟨false, none⟩), .advance 0 false] ++
    List.replicate 3 (.advance 1 false) ++
    List.replicate 3 (.advance 0 false)

theorem sessions_not_keep_updates :
    ¬ ∀ (services : SessionServices) (id : Text) (stores : SessionStores)
        (acts : List SessionAct) (system : SessionSystem),
      CountsMessages stores → runFrom (sessionStep services id) (noSessionCalls stores) acts =
            some system →
          KeepsUpdates services system := by
  intro law
  have ran :
      (runFrom (sessionStep plainServices "s".toList)
        (noSessionCalls freshStores) closeDuringEdit).map
        (fun system => (system.calls[1]?.bind (·.process.outcome?),
          system.requestAt 1, system.shared.session.map (·.status))) =
        some (some (.ok (.closed { freshSession with status := .closed } none)),
          some (.close "ann".toList ⟨false, none⟩), some .opened) := by
    decide +kernel
  obtain ⟨system, executed, seen⟩ := Option.map_eq_some_iff.mp ran
  have counted : CountsMessages freshStores := by
    intro record stored
    cases stored
    rfl
  have keeps := law plainServices "s".toList freshStores closeDuringEdit system counted executed
  cases found : system.calls[1]? with
  | none => simp [found] at seen
  | some call =>
    obtain ⟨request, process⟩ := call
    rw [Concurrent.requestAt, found, Option.bind_some, Option.map_some,
      Prod.mk.injEq, Prod.mk.injEq, Option.map_eq_some_iff] at seen
    obtain ⟨ended, asked, record, stored, reopened⟩ := seen
    cases asked
    have done := Process.eq_done_of_outcome? ended
    dsimp only at done
    subst done
    exact keeps.stayClosed 1 _ _ _ found record stored reopened

end Aprovan.Vcs
