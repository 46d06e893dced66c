import Aprovan.Vcs.ChatSessions
import Aprovan.Vfs.Delete

/-!
# The partition guard of the HTTP plane

The routes under `/fs` and `POST /fs-uploads/complete` check the path, then the
partition, and then do their work.  The partition guard is a parameter of the
handlers: the routes ask only for the structural verdict, the tools ask
`assertPartitionAccess`.  Live documents are a parameter too.
-/

namespace Aprovan.Vfs

open Aprovan.Library Aprovan.Server Aprovan.Fs Aprovan.Apps
open Aprovan.Vcs (ChatSessionRecord SessionServices SessionStores SessionCall
  SessionFailure History executeAlone)

/-- What the routes of a workspace read and write. -/
structure RouteState where
  files : Store
  uploads : Text → Option Text
  records : AccessRecords
  mounts : List VfsMount
  sessions : Text → Option ChatSessionRecord
  history : History
  journal : Journal
  clock : Nat

inductive ReconcileResult where
  | notLive
  | applied (blocks : Nat)
  | conflict (sessionId : Text) (blocks : Nat) (failed : List Text)
  deriving DecidableEq

/-- The digests, the content of mounts and the live documents. -/
structure RouteServices extends SessionServices where
  mountRead : VfsMount → Text → Outcome (Option FsRow)
  reconcile : RouteState → (path content : Text) → (base : Option Text) →
    (sessionId sub : Text) → Outcome ReconcileResult × RouteState

/-- A session parameter is empty when it is absent, and an argument is absent
when it is not a string. -/
inductive RouteRequest where
  | get (hash : Option Text) (session : Text)
  | put (content mimeType base : Option Text) (session : Text)
  | delete (recursive : Bool) (session : Text)
  | complete (hash : Text) (mimeType : Option Text)

inductive RouteAnswer where
  | file (file : FsRow)
  | entry (entry : FsEntry)
  | reconciled (path : Text) (result : ReconcileResult)
  | noContent
  deriving DecidableEq

abbrev RouteReply := Reply RouteAnswer × RouteState

def needsObjectStorage : ServiceError where
  message := "Direct uploads need the S3 backend".toList
  status := 501

def contentNotText : ServiceError where
  message := "content must be a string".toList
  status := 400

def hashNotDigest : ServiceError where
  message := "hash must be the hex SHA-256 of the content".toList
  status := 400

def noUploadedBlob : ServiceError where
  message := "No uploaded blob for that hash".toList
  status := 404

/-- `^[0-9a-f]{64}$`. -/
def isContentHash (hash : Text) : Bool :=
  hash.length = 64 && hash.all fun letter => letter.isDigit || ('a' ≤ letter && letter ≤ 'f')

namespace RouteState

def recordChange (state : RouteState) (scope path : Text) (kind : ChangeKind) : RouteState := {
  state with
    journal := state.journal.recordChange ⟨⟨path, kind⟩, scope⟩ }

def stores (state : RouteState) (id : Text) : SessionStores where
  clock := state.clock
  uuids := []
  session := state.sessions id
  messages := .empty
  files := state.files
  history := state.history

def runSession {Value : Type} (services : RouteServices)
    (state : RouteState) (id : Text) (call : SessionCall Value) :
    Except SessionFailure Value × RouteState :=
  let finished := call.run (executeAlone services.toSessionServices) (state.stores id)
  (finished.outcome, { state with
      files := finished.state.files
      sessions := Function.update state.sessions id finished.state.session
      history := finished.state.history })

/-- The staged session that a request names, if it is staged. -/
def stagedSessionParam (state : RouteState) (id : Text) (write : Bool) :
    Outcome (Option ChatSessionRecord) :=
  if id = [] then .ok none
  else
    match state.sessions id with
    | none => .error (unknownSession id)
    | some session =>
      if session.mode ≠ .staged then .ok none
      else if write ∧ session.status ≠ .opened then .error Vcs.sessionNotOpen
      else .ok (some session)

end RouteState

/-- `serviceErrorResponse`; other errors are thrown on. -/
def refusedBy {Answer : Type} : SessionFailure → Reply Answer
  | .service thrown => .refused thrown
  | .store => .crashed

def fileOrNotFound : Option FsRow → Reply RouteAnswer
  | some file => .answered (.file file)
  | none => .refused routeNotFound

section

variable (services : RouteServices) (state : RouteState)

/-- `GET /fs/*path` past its guards. -/
def getFile (path : Text) (hash : Option Text) (sessionId : Text) : RouteReply :=
  match state.stagedSessionParam sessionId false with
  | .error thrown => (.refused thrown, state)
  | .ok (some session) =>
    match state.runSession services session.id (Vcs.sessionRead session path) with
    | (.error failure, next) => (refusedBy failure, next)
    | (.ok file, next) => (fileOrNotFound file, next)
  | .ok none =>
    match mountFor state.mounts path with
    | none => (fileOrNotFound (state.files.read path hash), state)
    | some mount =>
      match services.mountRead mount path with
      | .error thrown => (.refused thrown, state)
      | .ok file => (fileOrNotFound file, state)

/-- The write of `PUT /fs/*path`, when no live document takes it. -/
def putThrough (path content : Text) (mimeType : Option Text) (sessionId : Text) : RouteReply :=
  match state.stagedSessionParam sessionId true with
  | .error thrown => (.refused thrown, state)
  | .ok (some session) =>
    match state.runSession services session.id
        (Vcs.sessionWrite session path content mimeType) with
    | (.error failure, next) => (refusedBy failure, next)
    | (.ok (entry, _), next) =>
      (.answered (.entry entry), next.recordChange session.id path .update)
  | .ok none =>
    let mimeType := mimeType.getD "text/plain".toList
    let files := state.files.write services.sha256 state.clock path content mimeType none
    (.answered (.file (Vcs.fileRow services.sha256 state.clock path content mimeType)),
      { state with files := files }.recordChange [] path .update)

/-- `PUT /fs/*path` past its guards. -/
def putFile (sub path : Text) (content mimeType base : Option Text) (sessionId : Text) :
    RouteReply :=
  match content with
  | none => (.refused contentNotText, state)
  | some content =>
    match assertNotMounted state.mounts path with
    | .error thrown => (.refused thrown, state)
    | .ok _ =>
      match services.reconcile state path content base sessionId sub with
      | (.error thrown, next) => (.refused thrown, next)
      | (.ok .notLive, next) => putThrough services next path content mimeType sessionId
      | (.ok (.applied blocks), next) =>
        (.answered (.reconciled path (.applied blocks)), next.recordChange [] path .update)
      | (.ok (.conflict id blocks failed), next) =>
        (.answered (.reconciled path (.conflict id blocks failed)),
          next.recordChange id path .update)

/-- A removal from the live tree, with its journal entries. -/
def deleteLive (path : Text) (recursive : Bool) : RouteReply :=
  let removed := if recursive then (state.files.listAll path).map FsEntry.path else [path]
  let (hit, files) := deleteAt state.files path recursive
  let next := { state with files := files }
  if hit then (.answered .noContent, removed.foldl (·.recordChange [] · .delete) next)
  else (.refused routeNotFound, next)

/-- `DELETE /fs/*path` past its guards. -/
def deleteFile (path : Text) (recursive : Bool) (sessionId : Text) : RouteReply :=
  match assertNotMounted state.mounts path with
  | .error thrown => (.refused thrown, state)
  | .ok _ =>
    match state.stagedSessionParam sessionId true with
    | .error thrown => (.refused thrown, state)
    | .ok (some session) =>
      match state.runSession services session.id (Vcs.sessionDelete session path recursive) with
      | (.error failure, next) => (refusedBy failure, next)
      | (.ok (removed, _), next) =>
        (.answered .noContent, removed.foldl (·.recordChange session.id · .delete) next)
    | .ok none => deleteLive state path recursive

/-- `POST /fs-uploads/complete` past its guards: the uploaded blob becomes a
version of the path. -/
def completeUpload (path hash : Text) (mimeType : Option Text) : RouteReply :=
  match state.uploads hash with
  | none => (.refused noUploadedBlob, state)
  | some content =>
    let row : FsRow := {
      path := path
      hash := hash
      content := content
      mimeType := mimeType.getD "application/octet-stream".toList
      size := byteLength content
      updatedAt := state.clock
      versioned := !isServicePath path }
    (.answered (.entry row.entry),
      { state with files := state.files.putIndex row }.recordChange [] path .update)

def pastGuard (sub path : Text) : RouteRequest → RouteReply
  | .get hash session => getFile services state path hash session
  | .put content mimeType base session =>
    putFile services state sub path content mimeType base session
  | .delete recursive session => deleteFile services state path recursive session
  | .complete hash mimeType => completeUpload state path hash mimeType

def routeFilePath (raw : Text) : Outcome Text :=
  match normalizeFsPath raw with
  | none => .error invalidPath
  | some path =>
    if isServicePath path then .error serviceStateRefused else .ok path

/-- What a request has to pass before the partition guard. -/
def beforeGuard (raw : Text) : RouteRequest → Outcome Text
  | .complete hash _ =>
    if state.files.backend = .sqlite then .error needsObjectStorage
    else do
      let path ← routeFilePath raw
      if isContentHash hash then .ok path else .error hashNotDigest
  | _ => routeFilePath raw

def handleRoute (guard : Text → Outcome Unit) (sub raw : Text) (request : RouteRequest) :
    RouteReply :=
  match beforeGuard state raw request with
  | .error thrown => (.refused thrown, state)
  | .ok path =>
    match guard path with
    | .error thrown => (.refused thrown, state)
    | .ok _ => pastGuard services state sub path request

end

def foreignPartitionResponse (sub path : Text) : Outcome Unit :=
  if partitionAccess path sub = .foreign then .error routeNotFound else .ok ()

def fsRoute (services : RouteServices) (state : RouteState)
    (sub raw : Text) (request : RouteRequest) : RouteReply :=
  handleRoute services state (foreignPartitionResponse sub) sub raw request

/-- The answer at a path, when the request gets as far as the guard: not
found exactly if the tools' guard throws, else what the handler does. -/
structure OneGuard (services : RouteServices) (state : RouteState)
    (sub raw path : Text) (request : RouteRequest) : Prop where
  denied : ∀ thrown, assertPartitionAccess state.records sub path = .error thrown →
      fsRoute services state sub raw request = (.refused routeNotFound, state)
  admitted : assertPartitionAccess state.records sub path = .ok () →
    fsRoute services state sub raw request = pastGuard services state sub path request

/-- The instance lets the caller in, if the path is in one, and no
person-share opens it, if it is somebody else's. -/
structure GuardsAgree (records : AccessRecords) (sub path : Text) : Prop where
  participant : ∀ partition, parseSharedPartition path = some partition →
    assertInstanceAccess records partition.id partition.instanceId sub = .ok ()
  unshared : partitionAccess path sub = .foreign → personShareAllowsRead records sub path = false

variable {request : RouteRequest} {path : Text}

theorem fsRoute_eq {services : RouteServices} {state : RouteState}
    {sub raw : Text} (passes : beforeGuard state raw request = .ok path) :
    fsRoute services state sub raw request =
      if partitionAccess path sub = .foreign then (.refused routeNotFound, state)
      else
        pastGuard services state sub path request := by
  unfold fsRoute handleRoute foreignPartitionResponse
  rw [passes]
  dsimp only
  by_cases foreign : partitionAccess path sub = .foreign
  · rw [if_pos foreign, if_pos foreign]
  · rw [if_neg foreign, if_neg foreign]

theorem assertPartitionAccess_shared {records : AccessRecords} {sub : Text}
    {partition : SharedPartition} (found : parseSharedPartition path = some partition) :
    assertPartitionAccess records sub path =
      assertInstanceAccess records partition.id partition.instanceId sub := by
  have shared : partitionAccess path sub = .shared :=
    partitionAccess_eq_shared_iff.mpr ⟨partition, found⟩
  rw [assertPartitionAccess, shared]
  dsimp only
  rw [found]

theorem oneGuard_of_guardsAgree {services : RouteServices} {state : RouteState}
    {sub raw : Text} (agree : GuardsAgree state.records sub path)
    (passes : beforeGuard state raw request = .ok path) :
    OneGuard services state sub raw path request := by
  have answer := @fsRoute_eq request path services state sub raw passes
  constructor
  · intro thrown denied
    rw [answer]
    cases access : partitionAccess path sub with
    | foreign => rfl
    | shared =>
      obtain ⟨partition, found⟩ := partitionAccess_eq_shared_iff.mp access
      rw [assertPartitionAccess_shared found, agree.participant partition found] at denied
      cases denied
    | openAccess =>
      rw [assertPartitionAccess, access] at denied
      cases denied
    | own =>
      rw [assertPartitionAccess, access] at denied
      cases denied
  · intro admitted
    rw [answer, if_neg]
    intro foreign
    rw [assertPartitionAccess, foreign] at admitted
    simp only [agree.unshared foreign, Bool.false_eq_true, if_false] at admitted
    cases admitted

/-- A workspace with one file and every blob, without mounts and sessions. -/
def holding (records : AccessRecords) (path hash : Text) : RouteState where
  files := ⟨.dsql, [⟨path, hash, [], "text/plain".toList, 0, 0, true⟩], List.nodup_singleton _⟩
  uploads := fun _ => some []
  records := records
  mounts := []
  sessions := fun _ => none
  history := ⟨[], [], []⟩
  journal := .empty
  clock := 0

def quietServices : RouteServices where
  toSessionServices := Vcs.plainServices
  mountRead := fun _ _ => .ok none
  reconcile := fun state _ _ _ _ _ => (.ok .notLive, state)

def RouteRequest.pinned : RouteRequest → Text
  | .get hash _ => hash.getD []
  | _ => []

def RouteRequest.named : RouteRequest → Bool
  | .complete hash _ => isContentHash hash
  | _ => true

theorem unknownSession_ne (id : Text) : unknownSession id ≠ routeNotFound := by
  intro same
  have unknown : (unknownSession id).message.head? = some 'U' := rfl
  rw [same] at unknown
  exact absurd unknown (by decide)

theorem stagedSessionParam_holding (records : AccessRecords) (path hash id : Text) (write : Bool) :
    (holding records path hash).stagedSessionParam id write =
      if id = [] then .ok none else .error (unknownSession id) :=
  rfl

theorem pastGuard_holding (records : AccessRecords) (sub path : Text) (request : RouteRequest) :
    (pastGuard quietServices (holding records path request.pinned) sub path
      request).1 ≠ .refused routeNotFound := by
  have unknown : ∀ id, (Reply.refused (unknownSession id) :
      Reply RouteAnswer) ≠ .refused routeNotFound := by
    intro id same
    exact unknownSession_ne id (Reply.refused.inj same)
  cases request with
  | get hash session =>
    rw [pastGuard, getFile, stagedSessionParam_holding]
    by_cases absent : session = []
    · rw [if_pos absent]
      have stored : (holding records path (hash.getD [])).files.read path hash =
          some ⟨path, hash.getD [], [], "text/plain".toList, 0, 0, true⟩ := by
        cases hash with
        | none => simp [holding, Store.read, Store.latest, Store.newer]
        | some hash => simp [holding, Store.read, Store.latest, Store.newer, Store.version]
      show (fileOrNotFound ((holding records path (hash.getD [])).files.read path hash)) ≠ _
      rw [stored]
      intro same
      cases same
    · rw [if_neg absent]
      exact unknown session
  | put content mimeType base session =>
    cases content with
    | none =>
      intro same
      cases Reply.refused.inj same
    | some content =>
      show (putThrough quietServices (holding records path []) path content mimeType session).1 ≠ _
      rw [putThrough, stagedSessionParam_holding]
      by_cases absent : session = []
      · rw [if_pos absent]
        intro same
        cases same
      · rw [if_neg absent]
        exact unknown session
  | delete recursive session =>
    show (deleteFile quietServices (holding records path []) path recursive session).1 ≠ _
    unfold deleteFile
    rw [stagedSessionParam_holding]
    by_cases absent : session = []
    · rw [if_pos absent]
      have stored : path ∈ (holding records path []).files.paths := List.mem_singleton_self path
      have hit : (deleteAt (holding records path []).files path recursive).1 = true := by
        cases recursive with
        | false => exact decide_eq_true stored
        | true =>
          rw [deleteAt_recursive, decide_eq_true_eq, Store.removePrefix_pos_iff]
          refine ⟨path, stored, ?_⟩
          simp [Store.clears, Store.selects, holding]
      show (deleteLive (holding records path []) path recursive).1 ≠ _
      unfold deleteLive
      dsimp only
      rw [if_pos hit]
      intro same
      cases same
    · rw [if_neg absent]
      exact unknown session
  | complete hash mimeType =>
    intro same
    cases same

theorem beforeGuard_holding {records : AccessRecords} {held : Text}
    (isFile : isFilePath path = true) (named : request.named = true) :
    beforeGuard (holding records path held) path request = .ok path := by
  have normal : routeFilePath path = .ok path := by
    rw [isFilePath, Bool.and_eq_true, decide_eq_true_eq, Bool.not_eq_true'] at isFile
    unfold routeFilePath
    rw [isFile.1]
    exact if_neg (by rw [isFile.2]; exact Bool.false_ne_true)
  cases request with
  | complete hash mimeType =>
    have digest : isContentHash hash = true := named
    have stored : (holding records path held).files.backend ≠ .sqlite :=
      fun same => Backend.noConfusion same
    simp only [beforeGuard, if_neg stored, normal]
    exact if_pos digest
  | get hash session => exact normal
  | put content mimeType base session => exact normal
  | delete recursive session => exact normal

/-- At a path, a caller and its records, the routes enforce the guard of the
tools in every state exactly when the instance that holds the path lets the
caller in and no person-share opens the path. -/
theorem routes_one_guard_iff {records : AccessRecords} {sub path : Text} {request : RouteRequest}
    (isFile : isFilePath path = true) (named : request.named = true) :
    (∀ (services : RouteServices) (state : RouteState) (raw : Text),
      state.records = records → beforeGuard state raw request = .ok path →
        OneGuard services state sub raw path request) ↔
      GuardsAgree records sub path := by
  constructor
  · intro law
    have passes := @beforeGuard_holding request path records request.pinned isFile named
    have holds := law quietServices (holding records path request.pinned) path rfl passes
    have answer := @fsRoute_eq request path quietServices
      (holding records path request.pinned) sub path passes
    have found := pastGuard_holding records sub path request
    constructor
    · intro partition inside
      cases access : assertInstanceAccess records partition.id partition.instanceId sub with
      | ok admitted => rfl
      | error thrown =>
        have denied := holds.denied thrown ((assertPartitionAccess_shared inside).trans access)
        have shared : partitionAccess path sub = .shared :=
          partitionAccess_eq_shared_iff.mpr ⟨partition, inside⟩
        rw [answer, shared, if_neg (by decide)] at denied
        exact absurd (congrArg Prod.fst denied) found
    · intro foreign
      cases opened : personShareAllowsRead records sub path with
      | false => rfl
      | true =>
        have admitted := holds.admitted ((assertPartitionAccess_foreign_iff foreign).mpr opened)
        rw [answer, if_pos foreign] at admitted
        exact absurd (congrArg Prod.fst admitted).symm found
  · intro agree services state raw same passes
    rw [← same] at agree
    exact oneGuard_of_guardsAgree agree passes

/-- A file of an instance in which ann alone takes part. -/
def annsInstance : AccessRecords where
  appInstance := fun instanceId =>
    if instanceId = "i".toList then some ⟨"a".toList, "w".toList, ["ann".toList]⟩
    else none
  installHosting := fun _ _ => some .hosted
  isMember := fun _ _ => true
  shares := []
  now := 0

def instanceFile : Text :=
  ".apps/a/shared/i/notes.md".toList

/-- Ann reads the file as the tools let her. -/
theorem routes_one_guard_participant :
    isFilePath instanceFile = true ∧ (RouteRequest.get none []).named = true ∧
      ∀ (services : RouteServices) (state : RouteState) (raw : Text),
        state.records = annsInstance → beforeGuard state raw (.get none []) = .ok instanceFile →
            OneGuard services state "ann".toList raw instanceFile (.get none []) := by
  have isFile : isFilePath instanceFile = true := by decide +kernel
  refine ⟨isFile, rfl, (routes_one_guard_iff isFile rfl).mpr ?_⟩
  constructor
  · intro partition inside
    have parsed : parseSharedPartition instanceFile = some ⟨"a".toList, "i".toList⟩ := by
      decide +kernel
    rw [parsed] at inside
    cases inside
    decide +kernel
  · intro foreign
    exact absurd foreign (by decide +kernel)

/-- Bob, who takes no part in the instance, reads its file through the
routes; the tools answer that there is none. -/
theorem routes_not_one_guard :
    ¬ ∀ (services : RouteServices) (state : RouteState)
        (sub raw path : Text) (request : RouteRequest),
      isFilePath path = true → beforeGuard state raw request = .ok path →
        OneGuard services state sub raw path request := by
  intro law
  have holds := law quietServices (holding annsInstance instanceFile [])
    "bob".toList instanceFile instanceFile (.get none []) (by decide +kernel)
    (by decide +kernel)
  have denied := holds.denied (denyInstance "i".toList) (by decide +kernel)
  have answered : (fsRoute quietServices
      (holding annsInstance instanceFile []) "bob".toList instanceFile
      (.get none [])).1 ≠ .refused routeNotFound := by
    decide +kernel
  exact answered (congrArg Prod.fst denied)

end Aprovan.Vfs
