import Aprovan.Library.Ordinals
import Aprovan.Library.PlainObject
import Aprovan.Library.Process
import Aprovan.Vfs.Listing

/-!
# Chat sessions

A session keeps a transcript, one row a message, and a record with its settings
and its file view: a base commit and, in staged mode, an overlay from paths to
hashes, null for a deleted path.  The rows of one session are modelled, with the
files and the history of its workspace; mounts are left out.
-/

namespace Aprovan.Vcs

open Aprovan.Library Aprovan.Server Aprovan.Fs

inductive SessionMode where
  | auto
  | staged
  deriving DecidableEq

inductive SessionStatus where
  | opened
  | merged
  | closed
  deriving DecidableEq

/-- The staged hash of a path, or null. -/
abbrev Overlay := PlainObject (Option Text)

structure ChatSessionRecord where
  (id title : Text)
  status : SessionStatus
  mode : SessionMode
  base : Text
  overlay : Overlay
  touchedPaths : Option (List Text)
  (tabs activeRunId : Option Text)
  messageCount : Nat
  createdBy : Text
  (createdAt updatedAt : Nat)
  mergeCommit : Option Text
  deriving DecidableEq

/-- A message as the client sends it, with its id if it has one. -/
structure ChatMessage where
  id : Option Text
  body : Text
  deriving DecidableEq

inductive SessionStatement where
  | now
  | randomUUID
  | readSession
  | saveSession (record : ChatSessionRecord)
  | listMessageKeys
  | writeMessage (key : Text) (message : ChatMessage)
  | readCommit (id : Text)
  | readSnapshot (id : Text)
  | readRef (name : Text)
  | saveSnapshot (snapshot : VcsSnapshot)
  | writeCommit (commit : VcsCommit)
  | writeRef (name commit : Text)
  | listFiles (pathPrefix : Text)
  | readFile (path : Text) (hash : Option Text)
  | writeFile (path content mimeType : Text)
  | removeFile (path : Text)
  deriving DecidableEq

abbrev SessionStatement.Answer : SessionStatement → Type
  | .now => Nat
  | .randomUUID => Text
  | .readSession => Option ChatSessionRecord
  | .saveSession _ => Unit
  | .listMessageKeys => List Text
  | .writeMessage _ _ => Unit
  | .readCommit _ => Option VcsCommit
  | .readSnapshot _ => Option VcsSnapshot
  | .readRef _ => Option VcsRef
  | .saveSnapshot _ => Unit
  | .writeCommit _ => Unit
  | .writeRef _ _ => Unit
  | .listFiles _ => List FsEntry
  | .readFile _ _ => Option FsRow
  | .writeFile _ _ _ => FsRow
  | .removeFile _ => Bool

inductive SessionFailure where
  /-- A statement was refused. -/
  | store
  | service (error : ServiceError)
  deriving DecidableEq

abbrev SessionCall := Process SessionStatement.Answer SessionFailure

def ask (statement : SessionStatement) : SessionCall statement.Answer :=
  Process.perform statement

def refuse {Value : Type} (error : ServiceError) : SessionCall Value :=
  Process.raise (.service error)

/-- The digests that name file contents, snapshots and commits; a commit's
also covers the session that it came from. -/
structure SessionServices where
  sha256 : Text → Text
  collate : Text → Text → Bool
  snapshotId : List SnapshotEntry → Text → Text
  commitId : CommitBody → Option Text → Text

/-- The rows of one session, and the files and the history of its workspace.
The ids to come are given. -/
structure SessionStores where
  clock : Nat
  uuids : List Text
  session : Option ChatSessionRecord
  messages : Table ChatMessage
  files : Store
  history : History

def fileRow (sha256 : Text → Text) (now : Nat) (path content mimeType : Text) : FsRow where
  path := path
  hash := sha256 content
  content := content
  mimeType := mimeType
  size := byteLength content
  updatedAt := now
  versioned := !isServicePath path

variable (services : SessionServices)

def answerSession :
    (statement : SessionStatement) → SessionStores → statement.Answer × SessionStores
  | .now, stores => (stores.clock, stores)
  | .randomUUID, stores => (stores.uuids.headD [], { stores with uuids := stores.uuids.tail })
  | .readSession, stores => (stores.session, stores)
  | .saveSession record, stores => ((), { stores with session := some record })
  | .listMessageKeys, stores => (stores.messages.names.insertionSort (· ≤ ·), stores)
  | .writeMessage key message, stores =>
    ((), { stores with messages := stores.messages.put key message })
  | .readCommit id, stores => (stores.history.readCommit id, stores)
  | .readSnapshot id, stores => (stores.history.readSnapshot id, stores)
  | .readRef name, stores => (stores.history.readRef name, stores)
  | .saveSnapshot snapshot, stores =>
    ((), { stores with history := stores.history.saveSnapshot snapshot })
  | .writeCommit commit, stores =>
    ((), { stores with history := stores.history.writeCommit commit })
  | .writeRef name commit, stores =>
    ((), { stores with history := stores.history.writeRef name commit })
  | .listFiles pathPrefix, stores => (stores.files.listAll pathPrefix, stores)
  | .readFile path hash, stores => (stores.files.read path hash, stores)
  | .writeFile path content mimeType, stores =>
    (fileRow services.sha256 stores.clock path content mimeType,
      { stores with
        files := stores.files.write services.sha256 stores.clock path content mimeType none })
  | .removeFile path, stores =>
    ((stores.files.remove path).1, { stores with files := (stores.files.remove path).2 })

/-- A statement of a call that no other call interleaves with. -/
def executeAlone (statement : SessionStatement) (stores : SessionStores) :
    Except SessionFailure statement.Answer × SessionStores :=
  (.ok (answerSession services statement stores).1, (answerSession services statement stores).2)

def unknownSession (id : Text) : ServiceError where
  message := "Unknown session: ".toList ++ id
  status := 404

def modeNeedsOpen : ServiceError where
  message := "Only open sessions can change mode".toList
  status := 400

def hasStagedChanges : ServiceError where
  message :=
    ("Session has staged changes — stage or discard them before switching " ++ "to auto").toList
  status := 400

def sessionNotOpen : ServiceError where
  message := "Session is not open".toList
  status := 400

def stagedOnly : ServiceError where
  message := "Session listing applies to staged sessions".toList
  status := 400

def stagedContentMissing (path : Text) : ServiceError where
  message := "Staged content missing for ".toList ++ path
  status := 500

def sessionsPrefix : Text := ".services/chat/sessions".toList

def shadowRoot (id : Text) : Text :=
  sessionsPrefix ++ '/' :: id ++ "/files".toList

def shadowPath (id path : Text) : Text :=
  shadowRoot id ++ '/' :: path

/-- `seq10#<id>`. -/
def seqKey (seq : Nat) (id : Text) : Text :=
  (Nat.toDigits 10 seq).leftpad 10 '0' ++ '#' :: id

/-- The ordinal and the id of a key; only keys of digits occur. -/
def parseSeqKey (key : Text) : Option (Nat × Text) :=
  let ordinal := key.takeWhile (· ≠ '#')
  if ordinal.length = 10 ∧ '#' ∈ key ∧ ordinal.all Char.isDigit then
    some (Nat.ofDigitChars 10 ordinal 0, key.drop 11)
  else none

theorem seqKey_eq (seq : Nat) (id : Text) : seqKey seq id = padded 10 seq ++ '#' :: id :=
  rfl

theorem takeWhile_seqKey (seq : Nat) (id : Text) :
    (seqKey seq id).takeWhile (· ≠ '#') = padded 10 seq := by
  rw [seqKey_eq, List.takeWhile_append_of_pos]
  · simp
  · intro letter member
    have digit := isDigit_of_mem_padded member
    have different : letter ≠ '#' := by
      intro same
      rw [same] at digit
      cases digit
    simpa using different

/-- An ordinal of at most ten digits is read back. -/
theorem parseSeqKey_seqKey {seq : Nat} (short : seq < 10 ^ 10) (id : Text) :
    parseSeqKey (seqKey seq id) = some (seq, id) := by
  have length := length_padded (by omega) short
  have digits : (padded 10 seq).all Char.isDigit :=
    List.all_eq_true.mpr fun letter member => isDigit_of_mem_padded member
  have front : (padded 10 seq).drop 11 = [] := List.drop_eq_nil_of_le (by rw [length]; omega)
  have rest : (seqKey seq id).drop 11 = id := by
    rw [seqKey_eq, List.drop_append, length, front]
    rfl
  simp only [parseSeqKey, takeWhile_seqKey]
  rw [if_pos ⟨length, by simp [seqKey], digits⟩, ofDigitChars_padded, rest]

theorem short_of_parseSeqKey {seq : Nat} {id : Text}
    (parsed : (parseSeqKey (seqKey seq id)).isSome) :
    seq < 10 ^ 10 := by
  simp only [parseSeqKey, takeWhile_seqKey] at parsed
  by_cases fits : (padded 10 seq).length = 10
  · exact (length_padded_eq_iff (by omega)).mp fits
  · rw [if_neg (fun both => fits both.1)] at parsed
    cases parsed

def readSession : SessionCall (Option ChatSessionRecord) :=
  ask .readSession

def requireSession (id : Text) : SessionCall ChatSessionRecord := do
  match ← readSession with
  | none => refuse (unknownSession id)
  | some session => pure session

def save (record : ChatSessionRecord) : SessionCall Unit :=
  ask (.saveSession record)

structure SessionPatch where
  title : Option Text
  mode : Option SessionMode
  tabs : Option Text
  deriving DecidableEq

/-- `patch.title.trim() || session.title`, when there is a title. -/
def patchedTitle (patch : SessionPatch) (session : ChatSessionRecord) : Text :=
  match trim (patch.title.getD []) with
  | [] => session.title
  | title => title

def updateSession (id : Text) (patch : SessionPatch) : SessionCall ChatSessionRecord := do
  let session ← requireSession id
  if patch.mode.isSome ∧ session.status ≠ .opened then refuse modeNeedsOpen
  else if patch.mode = some .auto ∧ session.overlay.rows ≠ [] then refuse hasStagedChanges
  else
    let updatedAt ← ask .now
    let next : ChatSessionRecord := { session with
        title := patchedTitle patch session
        mode := patch.mode.getD session.mode
        tabs := patch.tabs.or session.tabs
        updatedAt := updatedAt }
    save next
    pure next

/-- Record the live run, or clear it: only if it is the one named, where one
is named. -/
def setSessionActiveRun (id : Text) (runId onlyIfRunId : Option Text) :
    SessionCall ChatSessionRecord := do
  let session ← requireSession id
  let named := onlyIfRunId.getD []
  if runId = none ∧ ((named ≠ [] ∧ session.activeRunId ≠ some named) ∨
        session.activeRunId = none) then
    pure session
  else
    let updatedAt ← ask .now
    let next : ChatSessionRecord :=
      { session with activeRunId := runId, updatedAt := updatedAt }
    save next
    pure next

/-- The rows that an append knows: the key of each message id, the next
ordinal and the number of rows. -/
structure AppendState where
  keyById : List (Text × Text)
  (nextSeq count : Nat)

/-- `keyById.get(messageId)`; a later key of an id replaces the earlier. -/
def AppendState.keyOf (state : AppendState) (id : Text) : Option Text :=
  (state.keyById.reverse.find? (·.1 = id)).map Prod.snd

def countKey (state : AppendState) (key : Text) : AppendState :=
  match parseSeqKey key with
  | none => state
  | some (seq, id) => { state with
        keyById :=
          if id = [] then state.keyById else state.keyById ++ [(id, key)]
        nextSeq := max state.nextSeq (seq + 1) }

def listedState (keys : List Text) : AppendState :=
  keys.foldl countKey ⟨[], 0, keys.length⟩

/-- The id of a message; the empty one counts as absent. -/
def messageIdOf (message : ChatMessage) : Option Text :=
  message.id.filter (· ≠ [])

def appendRow (state : AppendState) (message : ChatMessage) : SessionCall AppendState := do
  let id ← (match messageIdOf message with
    | some id => pure id
    | none => ask .randomUUID : SessionCall Text)
  let key := seqKey state.nextSeq id
  ask (.writeMessage key message)
  pure {
    keyById :=
      match messageIdOf message with
      | some id => state.keyById ++ [(id, key)]
      | none => state.keyById
    nextSeq := state.nextSeq + 1
    count := state.count + 1 }

/-- A message whose id is known replaces its row in place. -/
def upsertRow (state : AppendState) (message : ChatMessage) : SessionCall AppendState :=
  match (messageIdOf message).bind state.keyOf with
  | some existingKey => do
      ask (.writeMessage existingKey message)
      pure state
  | none => appendRow state message

def appendMessages (id : Text) (messages : List ChatMessage) : SessionCall ChatSessionRecord := do
  let session ← requireSession id
  let keys ← ask .listMessageKeys
  let state ← messages.foldlM upsertRow (listedState keys)
  let updatedAt ← ask .now
  let next : ChatSessionRecord :=
    { session with messageCount := state.count, updatedAt := updatedAt }
  save next
  pure next

def readCommit (id : Text) : SessionCall (Option VcsCommit) :=
  if id = [] then pure none else ask (.readCommit id)

def snapshotOf : Option VcsCommit → SessionCall (Option VcsSnapshot)
  | none => pure none
  | some commit => ask (.readSnapshot commit.snapshot)

def baseSnapshot (session : ChatSessionRecord) : SessionCall VcsSnapshot := do
  let commit ← readCommit session.base
  match ← snapshotOf commit with
  | none => refuse (Vfs.baseMissing session.id)
  | some snapshot => pure snapshot

def visibleTree : SessionCall (List FsEntry) := do
  let entries ← ask (.listFiles [])
  pure (entries.filter fun entry => !isServicePath entry.path && !isHiddenDataPath entry.path)

structure CommitOptions where
  (message author : Text)
  sessionId : Option Text
  ref : Text
  parents : Option (List Text)

def snapshotTree (entries : List FsEntry) : VcsSnapshot :=
  buildSnapshot
    { collate := services.collate
      snapshotId := services.snapshotId
      commitId := fun body => services.commitId body none
      now := 0 } entries []

def createCommitOf (snapshot : VcsSnapshot) (parents : List Text) (options : CommitOptions) :
    SessionCall VcsCommit := do
  let parentCommit ← readCommit (parents.head?.getD [])
  let parentSnapshot ← snapshotOf parentCommit
  let createdAt ← ask .now
  let body : CommitBody := {
    snapshot := snapshot.id
    pathPrefix := snapshot.pathPrefix
    parents := parents
    message := options.message
    author := options.author
    createdAt := createdAt
    stats := diffStats ((parentSnapshot.map VcsSnapshot.entries).getD []) snapshot.entries }
  let commit : VcsCommit := {
    toCommitBody := body
    id := services.commitId body options.sessionId }
  ask (.writeCommit commit)
  pure commit

def headOf : Option VcsRef → SessionCall (Option VcsCommit)
  | none => pure none
  | some ref => readCommit ref.commit

/-- `commitTree`, for the whole workspace; the ref is a valid name. -/
def commitTree (options : CommitOptions) : SessionCall VcsCommit := do
  let entries ← visibleTree
  let snapshot := snapshotTree services entries
  let ref ← ask (.readRef options.ref)
  let head ← headOf ref
  match head, options.parents with
  | some commit, none =>
    if commit.snapshot = snapshot.id then pure commit else advanceRef snapshot [commit.id]
  | none, none => advanceRef snapshot []
  | _, some parents => advanceRef snapshot parents
where
  advanceRef (snapshot : VcsSnapshot) (parents : List Text) : SessionCall VcsCommit := do
    ask (.saveSnapshot snapshot)
    let commit ← createCommitOf services snapshot parents options
    ask (.writeRef options.ref commit.id)
    pure commit

def isHistoryStatement : SessionStatement → Bool
  | .now => true
  | .readCommit _ => true
  | .readSnapshot _ => true
  | .readRef _ => true
  | .saveSnapshot _ => true
  | .writeCommit _ => true
  | .writeRef _ _ => true
  | .listFiles _ => true
  | _ => false

def isHistoryRead : SessionStatement → Bool
  | .now => true
  | .readCommit _ => true
  | .readSnapshot _ => true
  | .readRef _ => true
  | .listFiles _ => true
  | _ => false

/-- What a commit may ask before it moves its ref; commits are stored under
their digests. -/
structure AllowsCommits (services : SessionServices) (allowed : SessionStatement → Prop) :
    Prop where
  reads : ∀ statement, isHistoryRead statement = true → allowed statement
  keeps : ∀ snapshot, allowed (.saveSnapshot snapshot)
  writes : ∀ body sessionId, allowed (.writeCommit ⟨body, services.commitId body sessionId⟩)

theorem allowsCommits_history (services : SessionServices) :
    AllowsCommits services (isHistoryStatement ·) := by
  refine ⟨?_, fun _ => rfl, fun _ _ => rfl⟩
  intro statement reads
  cases statement <;> first | rfl | cases reads

section

variable {services : SessionServices} {allowed : SessionStatement → Prop}

section

variable (reads : ∀ statement, isHistoryRead statement = true → allowed statement)
include reads

theorem asks_readCommit (id : Text) : Asks allowed (readCommit id) := by
  unfold readCommit
  by_cases empty : id = []
  · rw [if_pos empty]
    exact asks_pure none
  · rw [if_neg empty]
    exact asks_perform (reads _ rfl)

theorem asks_snapshotOf (commit : Option VcsCommit) : Asks allowed (snapshotOf commit) := by
  cases commit with
  | none => exact asks_pure none
  | some commit => exact asks_perform (reads _ rfl)

theorem asks_headOf (ref : Option VcsRef) : Asks allowed (headOf ref) := by
  cases ref with
  | none => exact asks_pure none
  | some ref => exact asks_readCommit reads ref.commit

theorem asks_visibleTree : Asks allowed visibleTree := by
  exact asks_map (asks_perform (reads _ rfl)) _

theorem asks_baseSnapshot (session : ChatSessionRecord) :
    Asks allowed (baseSnapshot session) := by
  apply asks_bind (asks_readCommit reads session.base)
  intro commit
  apply asks_bind (asks_snapshotOf reads commit)
  intro found
  cases found with
  | none => exact asks_raise _
  | some snapshot => exact asks_pure snapshot

theorem asks_createCommitOf
    (writes : ∀ body sessionId, allowed (.writeCommit ⟨body, services.commitId body sessionId⟩))
    (snapshot : VcsSnapshot) (parents : List Text) (options : CommitOptions) :
    Asks allowed (createCommitOf services snapshot parents options) := by
  apply asks_bind (asks_readCommit reads _)
  intro parentCommit
  apply asks_bind (asks_snapshotOf reads parentCommit)
  intro parentSnapshot
  apply asks_bind (asks_perform (reads _ rfl))
  intro createdAt
  exact asks_map (asks_perform (writes _ _)) _

end

variable (allows : AllowsCommits services allowed)
include allows

section

variable {options : CommitOptions} (moves : ∀ commit, allowed (.writeRef options.ref commit))
include moves

theorem asks_advanceRef (snapshot : VcsSnapshot) (parents : List Text) :
    Asks allowed (commitTree.advanceRef services options snapshot parents) := by
  apply asks_bind (asks_perform (allows.keeps snapshot))
  intro kept
  apply asks_bind (asks_createCommitOf allows.reads allows.writes snapshot parents options)
  intro commit
  apply asks_bind (asks_perform (moves commit.id))
  intro written
  exact asks_pure commit

/-- The last part of `commitTree`: commit the tree, unless it is unchanged. -/
theorem asks_advanceUnless (snapshot : VcsSnapshot) (head : Option VcsCommit)
    (given : Option (List Text)) :
    Asks allowed (match head, given with
        | some commit, none =>
          if commit.snapshot = snapshot.id then (pure commit : SessionCall VcsCommit)
          else commitTree.advanceRef services options snapshot [commit.id]
        | none, none => commitTree.advanceRef services options snapshot []
        | _, some parents =>
          commitTree.advanceRef services options snapshot parents) := by
  cases given with
  | some parents => cases head <;> exact asks_advanceRef allows moves snapshot parents
  | none =>
    cases head with
    | none => exact asks_advanceRef allows moves snapshot []
    | some commit =>
      by_cases same : commit.snapshot = snapshot.id
      · simp only [same]
        exact asks_pure commit
      · simp only [same]
        exact asks_advanceRef allows moves snapshot [commit.id]

theorem asks_commitTree : Asks allowed (commitTree services options) := by
  apply asks_bind (asks_visibleTree allows.reads)
  intro entries
  apply asks_bind (asks_perform (allows.reads _ rfl))
  intro ref
  apply asks_bind (asks_headOf allows.reads ref)
  intro head
  exact asks_advanceUnless allows moves _ head options.parents

end

end

section

variable (services : SessionServices) (stores : SessionStores)
  (session : ChatSessionRecord)

def baseOf : Option VcsSnapshot :=
  (stores.history.readCommit session.base).bind fun commit =>
    stores.history.readSnapshot commit.snapshot

theorem run_requireSession {stores : SessionStores} {session : ChatSessionRecord} (id : Text)
    (stored : stores.session = some session) :
    ((requireSession id).run (executeAlone services) stores).outcome = .ok session ∧
      ((requireSession id).run (executeAlone services) stores).state = stores ∧
      ((requireSession id).run (executeAlone services) stores).asked = [.readSession] := by
  have asked : (readSession.run (executeAlone services) stores).outcome = .ok stores.session := rfl
  unfold requireSession
  rw [run_bind_ok asked, stored]
  exact ⟨rfl, rfl, rfl⟩

theorem run_readCommit (id : Text) :
    ((readCommit id).run (executeAlone services) stores).outcome =
        .ok (stores.history.readCommit id) ∧
      ((readCommit id).run (executeAlone services) stores).state = stores := by
  unfold readCommit
  by_cases empty : id = []
  · rw [if_pos empty]
    constructor
    · rw [History.readCommit, if_pos empty]
      rfl
    · rfl
  · rw [if_neg empty]
    exact ⟨rfl, rfl⟩

theorem run_baseSnapshot :
    ((baseSnapshot session).run (executeAlone services) stores).outcome =
        (match baseOf stores session with
          | some snapshot => .ok snapshot
          | none => .error (.service (Vfs.baseMissing session.id))) ∧
      ((baseSnapshot session).run (executeAlone services) stores).state = stores := by
  obtain ⟨read, same⟩ := run_readCommit services stores session.base
  unfold baseSnapshot
  rw [run_bind_ok read, same, baseOf]
  cases stores.history.readCommit session.base with
  | none => exact ⟨rfl, rfl⟩
  | some commit =>
    have asked : ((snapshotOf (some commit)).run (executeAlone services) stores).outcome =
        .ok (stores.history.readSnapshot commit.snapshot) :=
      rfl
    rw [run_bind_ok asked, Option.bind_some]
    cases stores.history.readSnapshot commit.snapshot with
    | none => exact ⟨rfl, rfl⟩
    | some snapshot => exact ⟨rfl, rfl⟩

end

variable (session : ChatSessionRecord)

def listingView (snapshot : VcsSnapshot) (shadow : List FsEntry) : Vfs.ChatSession where
  id := session.id
  staged := session.mode = .staged
  createdAt := session.createdAt
  updatedAt := session.updatedAt
  base := some snapshot.entries
  overlay := session.overlay.entries
  shadow := shadow.map fun entry =>
    { entry with path := entry.path.drop ((shadowRoot session.id).length + 1) }

variable (services : SessionServices)

def sessionList (session : ChatSessionRecord) (pathPrefix : Text) :
    SessionCall (List FsEntry) := do
  if session.mode ≠ .staged then refuse stagedOnly
  else
    let snapshot ← baseSnapshot session
    let shadow ← (ask (.listFiles (shadowRoot session.id))).rescue fun _ => pure []
    pure (Vfs.sortEntries services.collate
      (Vfs.sessionEntries (listingView session snapshot shadow) snapshot.entries pathPrefix))

def atPath (path : Text) (file : FsRow) : FsRow :=
  { file with path := path }

def sessionRead (path : Text) : SessionCall (Option FsRow) := do
  match session.overlay.get path with
  | some none => pure none
  | some (some staged) =>
    let file ← ask (.readFile (shadowPath session.id path) (some staged))
    pure (file.map (atPath path))
  | none =>
    let snapshot ← baseSnapshot session
    match snapshot.entries.find? (·.path = path) with
    | none => pure none
    | some entry => ask (.readFile path (some entry.hash))

/-- The call answers the file's metadata and the session object, which it
changed. -/
def sessionWrite (path content : Text) (mimeType : Option Text) :
    SessionCall (FsEntry × ChatSessionRecord) := do
  let file ← ask (.writeFile (shadowPath session.id path) content
    (mimeType.getD "text/plain".toList))
  let updatedAt ← ask .now
  let staged : ChatSessionRecord := { session with
      overlay := session.overlay.set path (some file.hash)
      updatedAt := updatedAt }
  save staged
  pure ({ file.entry with path := path }, staged)

def recordSessionTouch (id path : Text) : SessionCall Unit := do
  let session ← requireSession id
  if session.status ≠ .opened ∨ session.mode ≠ .auto then pure ()
  else
    match normalizeFsPath path with
    | none => pure ()
    | some normalized =>
      let touched := (session.touchedPaths.getD []).eraseDups
      if normalized ∈ touched then pure ()
      else
        let updatedAt ← ask .now
        save { session with
            touchedPaths := some (sortTexts (touched ++ [normalized]))
            updatedAt := updatedAt }

/-- `candidate === path || (recursive && candidate.startsWith(path + "/"))`. -/
def matchesDelete (path : Text) (recursive : Bool) (candidate : Text) : Bool :=
  candidate = path || (recursive && (path ++ ['/']).isPrefixOf candidate)

/-- The paths that a delete turns into tombstones. -/
def deleteTargets (snapshot : VcsSnapshot) (overlay : Overlay) (path : Text) (recursive : Bool) :
    List Text :=
  let listed := snapshot.entries.map SnapshotEntry.path ++ overlay.entries.map Prod.fst
  (listed.filter (matchesDelete path recursive)).eraseDups.filter
    fun target => overlay.get target ≠ some none

variable {recursive : Bool}

theorem matchesDelete_prototypeKey {path : Text} (plain : path ≠ PlainObject.prototypeKey) :
    matchesDelete path recursive PlainObject.prototypeKey = false := by
  have noSlash : '/' ∉ PlainObject.prototypeKey := by decide
  rw [Bool.eq_false_iff]
  intro matched
  rw [matchesDelete, Bool.or_eq_true, Bool.and_eq_true,
    List.isPrefixOf_iff_prefix, decide_eq_true_eq] at matched
  rcases matched with same | ⟨_, rest, split⟩
  · exact plain same.symm
  · rw [← split] at noSlash
    simp at noSlash

theorem get_tombstoned (overlay : Overlay) (removed : List Text)
    (plain : PlainObject.prototypeKey ∉ removed) (path : Text) :
    (removed.foldl (fun overlay target => overlay.set target none) overlay).get path =
      if path ∈ removed then some none else overlay.get path := by
  induction removed generalizing overlay with
  | nil => rfl
  | cons target rest ih =>
    rw [List.mem_cons, not_or] at plain
    rw [List.foldl_cons, ih _ plain.2]
    by_cases later : path ∈ rest
    · rw [if_pos later, if_pos (List.mem_cons_of_mem target later)]
    · rw [if_neg later]
      by_cases same : path = target
      · subst same
        rw [if_pos List.mem_cons_self, PlainObject.get_set_self _ _ (Ne.symm plain.1)]
      · rw [PlainObject.get_set_of_ne _ _ same, if_neg]
        intro member
        rcases List.mem_cons.mp member with first | second
        · exact same first
        · exact later second

theorem matches_of_mem_deleteTargets {snapshot : VcsSnapshot} {overlay : Overlay}
    {path target : Text} (member : target ∈ deleteTargets snapshot overlay path recursive) :
    matchesDelete path recursive target = true := by
  have listed := (List.mem_filter.mp member).1
  rw [List.mem_eraseDups, List.mem_filter] at listed
  exact listed.2

theorem not_mem_deleteTargets {snapshot : VcsSnapshot} {overlay : Overlay}
    {path : Text} (plain : path ≠ PlainObject.prototypeKey) :
    PlainObject.prototypeKey ∉ deleteTargets snapshot overlay path recursive := by
  intro member
  have matched := matches_of_mem_deleteTargets member
  rw [matchesDelete_prototypeKey plain] at matched
  cases matched

def sessionDelete (path : Text) (recursive : Bool) :
    SessionCall (List Text × ChatSessionRecord) := do
  let snapshot ← baseSnapshot session
  let removed := deleteTargets snapshot session.overlay path recursive
  if removed = [] then refuse (Fs.notFound path)
  else
    let updatedAt ← ask .now
    let tombstoned : ChatSessionRecord := { session with
        overlay := removed.foldl (fun overlay target => overlay.set target none) session.overlay
        updatedAt := updatedAt }
    save tombstoned
    pure (sortTexts removed, tombstoned)

/-- The paths that a session changes; for an auto session without recorded
paths they may be those of others. -/
structure SessionChangeSummary where
  (added modified removed : List Text)
  includesOtherActivity : Bool

/-- `new Map(entries)` keeps the last hash of a path. -/
def baseHash (entries : List SnapshotEntry) (path : Text) : Option Text :=
  (entries.reverse.find? (·.path = path)).map SnapshotEntry.hash

def summarize (entries : List SnapshotEntry) (overlay : Overlay) : SessionChangeSummary where
  added := sortTexts (overlay.entries.filterMap fun (path, staged) =>
    if staged.isSome ∧ baseHash entries path = none then some path else none)
  modified := sortTexts (overlay.entries.filterMap fun (path, staged) =>
    if staged.isSome ∧ baseHash entries path ≠ none ∧
        baseHash entries path ≠ staged then some path else none)
  removed := sortTexts (overlay.entries.filterMap fun (path, staged) =>
    if staged = none ∧ baseHash entries path ≠ none then some path else none)
  includesOtherActivity := false

/-- The paths of `diffSnapshots` that an auto session touched. -/
def summarizeAuto (before after : List SnapshotEntry) : SessionChangeSummary :=
  let touched (path : Text) : Bool :=
    match session.touchedPaths with
    | none => true
    | some paths => path ∈ paths
  { added := sortTexts ((after.filter fun entry =>
      baseHash before entry.path = none && touched entry.path).map SnapshotEntry.path)
    modified := sortTexts ((after.filter fun entry =>
      baseHash before entry.path ≠ none && baseHash before entry.path ≠ some entry.hash &&
        touched entry.path).map SnapshotEntry.path)
    removed := sortTexts ((before.map SnapshotEntry.path).eraseDups.filter
      fun path => path ∉ after.map SnapshotEntry.path && touched path)
    includesOtherActivity := session.touchedPaths.isNone }

def autoChangeSummary (session : ChatSessionRecord) : SessionCall SessionChangeSummary := do
  let baseCommit ← readCommit session.base
  let baseSnap ← snapshotOf baseCommit
  let live ← visibleTree
  pure (summarizeAuto session ((baseSnap.map VcsSnapshot.entries).getD [])
    (snapshotTree services live).entries)

/-- For a staged session a missing base counts as empty. -/
def changeSummary (session : ChatSessionRecord) : SessionCall SessionChangeSummary := do
  if session.mode = .auto then autoChangeSummary services session
  else
    let entries ← (do
      let snapshot ← baseSnapshot session
      pure snapshot.entries).rescue fun _ => pure []
    pure (summarize entries session.overlay)

/-- One overlay entry applied to the live tree.  A refused removal is
ignored. -/
def applyStaged (entry : Text × Option Text) : SessionCall Unit := do
  match normalizeFsPath entry.1 with
  | none => pure ()
  | some normalized =>
    match entry.2 with
    | none => (do let _ ← ask (.removeFile normalized)).rescue fun _ => pure ()
    | some staged =>
      match ← ask (.readFile (shadowPath session.id normalized) (some staged)) with
      | none => refuse (stagedContentMissing normalized)
      | some shadow =>
        let _ ← ask (.writeFile normalized shadow.content shadow.mimeType)

def mainRef : Text := "main".toList

def sessionRef (id : Text) : Text :=
  "session/".toList ++ id

structure CloseOptions where
  stage : Bool
  message : Option Text
  deriving DecidableEq

/-- `options.message?.trim() || "Merge session: <title>"`. -/
def mergeMessage (options : CloseOptions) : Text :=
  match trim (options.message.getD []) with
  | [] => "Merge session: ".toList ++ session.title
  | message => message

/-- The parents of the merge commit: when the overlay contributed anything,
the main head and a commit on the session's own line. -/
def mergeParents (session : ChatSessionRecord) (userId : Text) :
    SessionCall (Option (List Text)) := do
  let mainBefore ← ask (.readRef mainRef)
  if session.overlay.rows = [] then pure none
  else
    let sessionCommit ← commitTree services {
      message := "Session: ".toList ++ session.title
      author := userId
      sessionId := some session.id
      ref := sessionRef session.id
      parents := some [session.base] }
    match mainBefore with
    | some main => pure (some [main.commit, sessionCommit.id])
    | none => pure (some [sessionCommit.id])

theorem asks_mergeParents {services : SessionServices} {allowed : SessionStatement → Prop}
    (allows : AllowsCommits services allowed) (session : ChatSessionRecord) (userId : Text)
    (moves : ∀ commit, allowed (.writeRef (sessionRef session.id) commit)) :
    Asks allowed (mergeParents services session userId) := by
  apply asks_bind (asks_perform (allows.reads _ rfl))
  intro mainBefore
  by_cases empty : session.overlay.rows = []
  · rw [if_pos empty]
    exact asks_pure none
  · rw [if_neg empty]
    apply asks_bind (asks_commitTree allows moves)
    intro sessionCommit
    cases mainBefore with
    | none => exact asks_pure _
    | some main => exact asks_pure _

def closeSession (id userId : Text) (options : CloseOptions) :
    SessionCall (ChatSessionRecord × Option VcsCommit) := do
  let session ← requireSession id
  if session.status ≠ .opened then refuse sessionNotOpen
  else if options.stage = false then
    let updatedAt ← ask .now
    let closed : ChatSessionRecord :=
      { session with status := .closed, updatedAt := updatedAt }
    save closed
    pure (closed, none)
  else
    session.overlay.entries.forM (applyStaged session)
    let parents ← mergeParents services session userId
    let commit ← commitTree services {
      message := mergeMessage session options
      author := userId
      sessionId := some session.id
      ref := mainRef
      parents := parents }
    let updatedAt ← ask .now
    let merged : ChatSessionRecord := { session with
        status := .merged
        mergeCommit := some commit.id
        updatedAt := updatedAt }
    save merged
    pure (merged, some commit)

def emptyBase : VcsCommit where
  snapshot := "tree".toList
  pathPrefix := []
  parents := []
  message := "Auto snapshot".toList
  author := "ann".toList
  createdAt := 0
  stats := ⟨0, 0, 0⟩
  id := "base".toList

def freshSession : ChatSessionRecord where
  id := "s".toList
  title := "New chat".toList
  status := .opened
  mode := .staged
  base := emptyBase.id
  overlay := .empty
  touchedPaths := none
  tabs := none
  activeRunId := none
  messageCount := 0
  createdBy := "ann".toList
  createdAt := 0
  updatedAt := 0
  mergeCommit := none

def freshStores : SessionStores where
  clock := 0
  uuids := []
  session := some freshSession
  messages := .empty
  files := ⟨.sqlite, [], Fs.Store.keys_nil⟩
  history := ⟨[⟨"tree".toList, [], []⟩], [emptyBase], []⟩

def plainServices : SessionServices where
  sha256 := fun content => 'h' :: content
  collate := fun first second => first ≤ second
  snapshotId := fun _ pathPrefix => pathPrefix
  commitId := fun body _ => body.message

end Aprovan.Vcs
