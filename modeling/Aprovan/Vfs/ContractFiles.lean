import Aprovan.Vfs.Delete
import Aprovan.Vfs.Listing
import Aprovan.Library.Keyed
import Aprovan.Library.Pages

/-!
# Files and their contract

The native package implements the contract of vfs over a backend, which may be
a map in memory; the live dispatch goes to the vfs service.  The calls are those
of one member, who names paths outside mounts and without a session, a commit
or a live document.  The locale order is a parameter.
-/

namespace Aprovan.Vfs

open Aprovan.Library Aprovan.Server Aprovan.Fs Aprovan.Apps

inductive VfsEncoding where
  | utf8
  | base64
  deriving DecidableEq

inductive VfsKind where
  | file
  | directory
  deriving DecidableEq

inductive VfsOperation where
  | read (path : Text)
  | write (path content : Text) (encoding : Option VfsEncoding)
      (ifMatch : Option Text)
  | delete (path : Text)
  | list (pathPrefix : Option Text) (recursive : Bool)
      (limit : Option Rat) (cursor : Option Text)
  | stat (path : Text)

/-- A call, with what `Date.now()` says during it. -/
structure VfsRequest where
  now : Nat
  operation : VfsOperation

structure VfsStat where
  path : Text
  kind : VfsKind
  size : Option Nat
  etag : Option Text
  modifiedAt : Option Nat

/-- What the contract answers. -/
inductive VfsResult where
  | read (path : Text) (encoding : VfsEncoding) (content : Text)
      (size : Nat) (etag : Option Text)
  | written (stat : VfsStat)
  | deleted (path : Text) (deleted : Bool)
  | listed (entries : List VfsStat) (cursor : Option Text)
  | stat (stat : VfsStat)

/-- What the contract package gives. -/
structure VfsPackage where
  defaultListLimit : Nat
  vfsRelativePath : Text → Text → Outcome Text
  validateWriteArgs : Text → Text → Option VfsEncoding → Option Text → Outcome Unit
  validateListArgs : Option Text → Bool → Option Rat → Option Text → Outcome Unit

structure NativeVfsFile where
  content : Text
  encoding : VfsEncoding
  size : Nat
  etag : Option Text
  modifiedAt : Option Nat

structure NativeVfsBackend (State : Type) where
  read : Text → State → Option NativeVfsFile
  write : Nat → Text → Text → VfsEncoding → Option Text → State → Outcome (VfsStat × State)
  delete : Text → State → Bool × State
  list : Text → Bool → Option Text → Rat → State → List VfsStat × Option Text
  stat : Text → State → Option VfsStat

def pathLabel : Text := "path".toList

def prefixLabel : Text := "prefix".toList

def createNativeVfs {State : Type} (package : VfsPackage)
    (backend : NativeVfsBackend State) (state : State) (call : VfsRequest) :
    Outcome VfsResult × State :=
  match call.operation with
  | .read raw =>
    match package.vfsRelativePath raw pathLabel with
    | .error thrown => (.error thrown, state)
    | .ok path =>
      match backend.read path state with
      | none => (.error (notFound path), state)
      | some hit => (.ok (.read path hit.encoding hit.content hit.size
          hit.etag), state)
  | .write raw content encoding ifMatch =>
    match package.validateWriteArgs raw content encoding ifMatch with
    | .error thrown => (.error thrown, state)
    | .ok () =>
      match package.vfsRelativePath raw pathLabel with
      | .error thrown => (.error thrown, state)
      | .ok path =>
        match backend.write call.now path content (encoding.getD .utf8) ifMatch state with
        | .error thrown => (.error thrown, state)
        | .ok (stat, after) => (.ok (.written stat), after)
  | .delete raw =>
    match package.vfsRelativePath raw pathLabel with
    | .error thrown => (.error thrown, state)
    | .ok path =>
      let (deleted, after) := backend.delete path state
      (.ok (.deleted path deleted), after)
  | .list pathPrefix recursive limit cursor =>
    match package.validateListArgs pathPrefix recursive limit cursor with
    | .error thrown => (.error thrown, state)
    | .ok () =>
      let raw := pathPrefix.getD []
      let checked :=
        if raw = [] then .ok [] else
          package.vfsRelativePath raw prefixLabel
      match checked with
      | .error thrown => (.error thrown, state)
      | .ok path =>
        let (entries, next) := backend.list path recursive cursor
          (limit.getD package.defaultListLimit) state
        (.ok (.listed entries next), state)
  | .stat raw =>
    match package.vfsRelativePath raw pathLabel with
    | .error thrown => (.error thrown, state)
    | .ok path =>
      match backend.stat path state with
      | none => (.error (notFound path), state)
      | some hit => (.ok (.stat hit), state)

structure MemoryFile where
  (path content : Text)
  encoding : VfsEncoding
  etag : Text
  modifiedAt : Nat

abbrev MemoryFiles := Keyed MemoryFile.path

def contentLength (content : Text) : VfsEncoding → Nat
  | .utf8 => byteLength content
  | .base64 => (codeUnits (content.rdropWhile (· = '='))).length * 3 / 4

def MemoryFile.size (file : MemoryFile) : Nat :=
  contentLength file.content file.encoding

def MemoryFile.stat (file : MemoryFile) : VfsStat where
  path := file.path
  kind := .file
  size := some file.size
  etag := some file.etag
  modifiedAt := some file.modifiedAt

def directoryStat (path : Text) : VfsStat where
  path := path
  kind := .directory
  size := none
  etag := none
  modifiedAt := none

def existingRequired (path : Text) : ServiceError where
  message := "ifMatch \"*\" requires an existing file: ".toList ++ path
  status := 409

def etagMismatch (path : Text) : ServiceError where
  message := "etag mismatch for ".toList ++ path
  status := 409

/-- What is wrong with an `ifMatch`, if something is. -/
def ifMatchRefusal (files : MemoryFiles) (path : Text) : Option Text → Option ServiceError
  | none => none
  | some ifMatch =>
    if ifMatch = ['*'] then
      if (files.find? path).isSome then none else some (existingRequired path)
    else if (files.find? path).map MemoryFile.etag = some ifMatch then none
    else some (etagMismatch path)

/-- `etag-<size>-<now>`. -/
def newEtag (size now : Nat) : Text :=
  "etag-".toList ++ Nat.toDigits 10 size ++ '-' :: Nat.toDigits 10 now

def newFile (now : Nat) (path content : Text) (encoding : VfsEncoding) : MemoryFile where
  path := path
  content := content
  encoding := encoding
  etag := newEtag (contentLength content encoding) now
  modifiedAt := now

/-- What `indexOf("/")` leaves in front of the first slash. -/
def firstSegment (path : Text) : Option Text :=
  if '/' ∈ path then some (path.takeWhile (· ≠ '/')) else none

def directoryBelow (pathPrefix path : Text) : Option Text :=
  if pathPrefix = [] then firstSegment path
  else (firstSegment (path.drop (pathPrefix.length + 1))).map (pathPrefix ++ '/' :: ·)

/-- The directory that a listing has in place of a path. -/
def collapsed (pathPrefix : Text) (recursive : Bool) (path : Text) : Option Text :=
  if recursive then none else directoryBelow pathPrefix path

def filesUnder (files : MemoryFiles) (pathPrefix : Text) : List Text :=
  (sortTexts (files.rows.map MemoryFile.path)).filter (inListing pathPrefix)

variable (collate : Text → Text → Bool)

/-- The paths sorted by `localeCompare`. -/
def sortPaths (paths : List Text) : List Text :=
  paths.insertionSort fun first second => collate first second = true

def sortStats (entries : List VfsStat) : List VfsStat :=
  entries.insertionSort fun first second => collate first.path second.path = true

def listEntries (files : MemoryFiles) (pathPrefix : Text) (recursive : Bool) : List VfsStat :=
  let paths := filesUnder files pathPrefix
  let entries := (paths.filter fun path =>
    (collapsed pathPrefix recursive path).isNone).filterMap fun path =>
      (files.find? path).map MemoryFile.stat
  let dirs := (paths.filterMap (collapsed pathPrefix recursive)).dedup
  sortStats collate (entries ++ (sortTexts dirs).map directoryStat)

def isDirectory (files : MemoryFiles) (path : Text) : Bool :=
  files.rows.any fun file => (path ++ ['/']).isPrefixOf file.path

/-- `createMemoryVfsBackend`, over its files. -/
def memoryVfsBackend : NativeVfsBackend MemoryFiles where
  read path files := (files.find? path).map fun hit => {
    content := hit.content
    encoding := hit.encoding
    size := hit.size
    etag := some hit.etag
    modifiedAt := some hit.modifiedAt }
  write now path content encoding ifMatch files :=
    match ifMatchRefusal files path ifMatch with
    | some thrown => .error thrown
    | none =>
      let file := newFile now path content encoding
      .ok (file.stat, files.put file)
  delete path files := ((files.find? path).isSome, files.erase path)
  list pathPrefix recursive cursor limit files :=
    let entries := listEntries collate files pathPrefix recursive
    let start := startAfter (entries.map VfsStat.path) cursor
    let page := slice entries start (start + limit)
    (page,
      if start + limit < entries.length then (page.getLast?.map VfsStat.path).filter (· ≠ [])
      else none)
  stat path files :=
    match files.find? path with
    | some file => some file.stat
    | none =>
      if isDirectory files path then some (directoryStat path) else none

/-- What the vfs service relies on besides the workspace. -/
structure VfsServices where
  sha256 : Text → Text
  collate : Text → Text → Bool
  mountRead : VfsMount → Text → Option FsRow

/-- The answers of the vfs service. -/
inductive VfsAnswer where
  | read (file : FsRow)
  | written (entry : FsEntry)
  | deleted (path : Text)
  | listed (answer : ListAnswer)
  | stat (stat : VfsStat)

/-- `vfs.write`, without a live document and a session. -/
def vfsWrite (sha256 : Text → Text) (now : Nat) (ctx : ServiceContext)
    (workspace : Workspace) (value : Option Text) (content : Text) :
    Outcome (FsEntry × Store) := do
  let path ← mutationPath ctx workspace value
  let mimeType := "text/plain".toList
  return ({
    path := path
    hash := sha256 content
    mimeType := mimeType
    size := byteLength content
    updatedAt := now },
    workspace.store.write sha256 now path content mimeType none)

def vfsStat (ctx : ServiceContext) (workspace : Workspace) (value : Option Text) :
    Outcome VfsStat := do
  let path ← readPath ctx workspace value
  match workspace.store.read path none with
  | none => .error (notFound path)
  | some file => .ok {
      path := file.path
      kind := .file
      size := some file.size
      etag := some file.hash
      modifiedAt := some file.updatedAt }

/-- What `vfs.list` takes of the arguments of a call. -/
def listArgs (pathPrefix : Option Text) (limit : Option Rat) (cursor : Option Text) :
    ListArgs where
  pathPrefix := pathPrefix.getD []
  commit := []
  session := none
  limit := limit.map Rat.floor
  cursor := cursor.getD []

/-- `vfs.call`, of the arguments of the contract. -/
def callVfs (services : VfsServices) (ctx : ServiceContext)
    (state : ListingState) (call : VfsRequest) : Reply VfsAnswer × Store :=
  match call.operation with
  | .read path =>
    match vfsRead services.mountRead ctx state.toWorkspace (some path) none with
    | .error thrown => (.refused thrown, state.store)
    | .ok file => (.answered (.read file), state.store)
  | .write path content _ _ =>
    match vfsWrite services.sha256 call.now ctx state.toWorkspace (some path) content with
    | .error thrown => (.refused thrown, state.store)
    | .ok (entry, after) => (.answered (.written entry), after)
  | .delete path =>
    match vfsDelete ctx state.toWorkspace (some path) false with
    | .error thrown => (.refused thrown, state.store)
    | .ok (path, after) => (.answered (.deleted path), after)
  | .list pathPrefix _ limit cursor =>
    match vfsList services.collate ctx state (listArgs pathPrefix limit cursor) with
    | .answered answer => (.answered (.listed answer), state.store)
    | .refused thrown => (.refused thrown, state.store)
    | .crashed => (.crashed, state.store)
  | .stat path =>
    match vfsStat ctx state.toWorkspace (some path) with
    | .error thrown => (.refused thrown, state.store)
    | .ok stat => (.answered (.stat stat), state.store)

/-- What is compared: no sizes, entity tags and times.  The encoding of a
read and the kinds of a listing may be left out. -/
inductive VfsSeen where
  | read (path content : Text) (encoding : Option VfsEncoding)
  | written (path : Text)
  | deleted (path : Text) (deleted : Bool)
  | listed (entries : List (Text × Option VfsKind)) (cursor : Option Text)
  | stat (path : Text) (kind : VfsKind)
  deriving DecidableEq

def VfsResult.seen : VfsResult → VfsSeen
  | .read path encoding content _ _ => .read path content (some encoding)
  | .written hit => .written hit.path
  | .deleted path removed => .deleted path removed
  | .listed entries cursor =>
    .listed (entries.map fun entry => (entry.path, some entry.kind)) cursor
  | .stat hit => .stat hit.path hit.kind

/-- What a listing shows: its entries carry no kind. -/
def ListAnswer.seen : ListAnswer → VfsSeen
  | .session _ entries => .listed (entries.map fun entry => (entry.path, none)) none
  | .commit _ entries => .listed (entries.map fun entry => (entry.path, none)) none
  | .tree entries cursor => .listed (entries.map fun entry => (entry.path, none)) cursor

/-- What `dispatchAprovanNativeOp` answers: it makes a boolean of the
deleted path. -/
def VfsAnswer.seen : VfsAnswer → VfsSeen
  | .read file => .read file.path file.content none
  | .written entry => .written entry.path
  | .deleted path => .deleted path true
  | .listed answer => answer.seen
  | .stat hit => .stat hit.path hit.kind

def Reply.seen : Reply VfsAnswer → Option VfsSeen
  | .answered answer => some answer.seen
  | .refused _ => none
  | .crashed => none

def memberContext (userId : Text) : ServiceContext where
  userId := userId
  appScope := none
  grants := none

def liveAnswer (services : VfsServices) (userId : Text)
    (base : ListingState) (store : Store) (call : VfsRequest) :
    Option VfsSeen × Store :=
  let answered := callVfs services (memberContext userId) { base with store := store } call
  (answered.1.seen, answered.2)

def contractAnswer (package : VfsPackage)
    (collate : Text → Text → Bool) (files : MemoryFiles) (call : VfsRequest) :
    Option VfsSeen × MemoryFiles :=
  let answered :=
    createNativeVfs package (memoryVfsBackend collate) files call
  (answered.1.toOption.map VfsResult.seen, answered.2)

/-- A missing encoding counts as `utf8` and a missing kind as `file`. -/
def VfsSeen.withDefaults : VfsSeen → VfsSeen
  | .read path content encoding => .read path content (some (encoding.getD .utf8))
  | .listed entries cursor =>
    .listed (entries.map fun entry => (entry.1, some (entry.2.getD .file))) cursor
  | other => other

/-- The results are equal, with what is missing filled in if the caller has
defaults for it. -/
def SameSeen (defaults : Bool) (live contract : Option VfsSeen) : Prop :=
  live = contract ∨ (defaults = true ∧ live.map VfsSeen.withDefaults = contract)

/-- The member may use the path, and listings show it. -/
def isOpenPath (userId : Text) (base : ListingState) (path : Text) : Bool :=
  listedTo userId path && (assertPartitionAccess base.records userId path).isOk

def VfsOperation.named : VfsOperation → Text
  | .read path => path
  | .write path _ _ _ => path
  | .delete path => path
  | .list pathPrefix _ _ _ => pathPrefix.getD []
  | .stat path => path

def onOpenPath (userId : Text) (base : ListingState) (call : VfsRequest) : Bool :=
  (normalizeFsPath call.operation.named).all (isOpenPath userId base)

/-- The workspace has no mounts. -/
structure Unmounted (base : ListingState) : Prop where
  mounts : base.mounts = []
  entries : ∀ pathPrefix, base.mountEntries pathPrefix = []

section

variable {services : VfsServices} {userId : Text} {base : ListingState}
  {store : Store} {now : Nat} {raw path : Text}

theorem openPath_iff :
    isOpenPath userId base path = true ↔ isServicePath path = false ∧
        partitionAccess path userId ≠ .foreign ∧
        assertPartitionAccess base.records userId path = .ok () := by
  rw [isOpenPath, listedTo, Bool.and_eq_true, Bool.and_eq_true,
    Bool.not_eq_true', decide_eq_true_eq, and_assoc]
  cases assertPartitionAccess base.records userId path with
  | error thrown => simp [Except.isOk, Except.toBool]
  | ok admitted => simp [Except.isOk, Except.toBool]

theorem readPath_open (normal : normalizeFsPath raw = some path)
    (isOpen : isOpenPath userId base path = true) :
    readPath (memberContext userId) { base with store := store }.toWorkspace (some raw) =
      .ok path := by
  obtain ⟨notService, _, guarded⟩ := openPath_iff.mp isOpen
  exact readPath_eq_ok_iff.mpr ⟨fsPath_eq_ok_iff.mpr ⟨normal, notService⟩, rfl, guarded⟩

theorem mutationPath_open (unmounted : Unmounted base) (normal : normalizeFsPath raw = some path)
    (isOpen : isOpenPath userId base path = true) :
    mutationPath (memberContext userId) { base with store := store }.toWorkspace (some raw) =
      .ok path := by
  obtain ⟨notService, _, guarded⟩ := openPath_iff.mp isOpen
  refine mutationPath_eq_ok_iff.mpr ⟨fsPath_eq_ok_iff.mpr ⟨normal, notService⟩, rfl, guarded, ?_⟩
  show mountFor base.mounts path = none
  rw [unmounted.mounts]
  rfl

theorem readPath_refused (refused : normalizeFsPath raw = none) :
    readPath (memberContext userId) { base with store := store }.toWorkspace (some raw) =
      .error notAFilePath := by
  simp [readPath, resolveVfsPath, memberContext, fsPath, refused, Bind.bind, Except.bind]

theorem mutationPath_refused (refused : normalizeFsPath raw = none) :
    mutationPath (memberContext userId) { base with store := store }.toWorkspace (some raw) =
      .error notAFilePath := by
  simp [mutationPath, resolveVfsPath, memberContext, fsPath, refused, Bind.bind, Except.bind]

theorem liveAnswer_read (unmounted : Unmounted base) (normal : normalizeFsPath raw = some path)
    (isOpen : isOpenPath userId base path = true) :
    liveAnswer services userId base store ⟨now, .read raw⟩ =
      ((store.latest path).map fun file => .read path file.content none, store) := by
  have passes := @readPath_open userId base store raw path normal isOpen
  have notMounted : mountFor base.mounts path = none := by
    rw [unmounted.mounts]
    rfl
  unfold liveAnswer callVfs
  simp only [vfsRead, passes, Bind.bind, Except.bind]
  simp only [memberContext, notMounted, Store.read]
  cases found : store.latest path with
  | none => rfl
  | some file =>
    have own := (Store.mem_of_latest found).2
    simp [Reply.seen, VfsAnswer.seen, own]

theorem liveAnswer_stat (normal : normalizeFsPath raw = some path)
    (isOpen : isOpenPath userId base path = true) :
    liveAnswer services userId base store ⟨now, .stat raw⟩ =
      ((store.latest path).map fun _ => .stat path .file, store) := by
  have passes := @readPath_open userId base store raw path normal isOpen
  unfold liveAnswer callVfs
  simp only [vfsStat, passes, Bind.bind, Except.bind, Store.read]
  cases found : store.latest path with
  | none => rfl
  | some file =>
    have own := (Store.mem_of_latest found).2
    simp [Reply.seen, VfsAnswer.seen, own]

theorem liveAnswer_write (unmounted : Unmounted base) (normal : normalizeFsPath raw = some path)
    (isOpen : isOpenPath userId base path = true) (content : Text)
    (encoding : Option VfsEncoding) (ifMatch : Option Text) :
    liveAnswer services userId base store ⟨now, .write raw content encoding ifMatch⟩ =
      (some (.written path), store.write services.sha256 now path content
        "text/plain".toList none) := by
  have passes := @mutationPath_open userId base store raw path unmounted normal isOpen
  unfold liveAnswer callVfs
  simp only [vfsWrite, passes, Bind.bind, Except.bind]
  rfl

theorem liveAnswer_delete (unmounted : Unmounted base) (normal : normalizeFsPath raw = some path)
    (isOpen : isOpenPath userId base path = true) (stored : path ∈ store.paths) :
    liveAnswer services userId base store ⟨now, .delete raw⟩ =
      (some (.deleted path true), (store.remove path).2) := by
  have passes := @mutationPath_open userId base store raw path unmounted normal isOpen
  have removed : (deleteAt store path false).1 = true := by
    simpa [deleteAt, Store.remove] using stored
  have deleted := vfsDelete_eq_ok_iff.mpr ⟨passes, removed, rfl⟩
  unfold liveAnswer callVfs
  simp only [deleted]
  rfl

theorem liveAnswer_refused (refused : normalizeFsPath raw = none) {operation : VfsOperation}
    (names : operation = .read raw ∨ operation = .delete raw ∨
      operation = .stat raw ∨ ∃ content encoding ifMatch,
        operation = .write raw content encoding ifMatch) :
    liveAnswer services userId base store ⟨now, operation⟩ = (none, store) := by
  have reading := @readPath_refused userId base store raw refused
  have mutating := @mutationPath_refused userId base store raw refused
  unfold liveAnswer callVfs
  rcases names with same | same | same | ⟨content, encoding, ifMatch, same⟩
  · simp [same, vfsRead, reading, Bind.bind, Except.bind, Reply.seen]
  · simp [same, vfsDelete, mutating, Bind.bind, Except.bind, Reply.seen]
  · simp [same, vfsStat, reading, Bind.bind, Except.bind, Reply.seen]
  · simp [same, vfsWrite, mutating, Bind.bind, Except.bind, Reply.seen]

theorem paths_sortEntries (collate : Text → Text → Bool) (entries : List FsEntry) :
    (sortEntries collate entries).map FsEntry.path = sortPaths collate (entries.map FsEntry.path) :=
  List.map_insertionSort _ _ _ _ fun _ _ _ _ => Iff.rfl

def shownPaths (userId : Text) (page : Store.FsListPage) : List Text :=
  (page.entries.map FsEntry.path).filter (listedTo userId)

theorem liveAnswer_list (unmounted : Unmounted base) {pathPrefix cursor : Option Text}
    {recursive : Bool} {limit : Option Rat} {under : Text} {page : Store.FsListPage}
    (normal : listPrefix (pathPrefix.getD []) = some under)
    (notService : under = [] ∨ isServicePath under = false)
    (mayPage : cursor.getD [] = [] ∨ limit.isSome = true)
    (found : store.list under (limit.map fun limit => min limit.floor 10000)
      (cursor.getD []) = some page) :
    liveAnswer services userId base store ⟨now, .list pathPrefix recursive limit cursor⟩ =
      (some (.listed ((sortPaths services.collate (shownPaths userId page)).map
          (·, none)) page.cursor), store) := by
  have served : ¬ (under ≠ [] ∧ isServicePath under = true) := by
    intro refused
    rcases notService with isEmpty | shown
    · exact refused.1 isEmpty
    · rw [shown] at refused
      cases refused.2
  have paged : ¬ (cursor.getD [] ≠ [] ∧
      limit.map (fun limit => min limit.floor 10000) = none) := by
    intro refused
    rcases mayPage with isEmpty | given
    · exact refused.1 isEmpty
    · rw [Option.map_eq_none_iff] at refused
      rw [refused.2] at given
      cases given
  have entries : ∀ shown : List FsEntry, (sortEntries services.collate shown).map
          (fun entry => (entry.path, (none : Option VfsKind))) =
        (sortPaths services.collate (shown.map FsEntry.path)).map (·, none) := by
    intro shown
    rw [← paths_sortEntries, List.map_map]
    rfl
  unfold liveAnswer callVfs
  simp only [vfsList, stagedSession, listArgs, ne_eq, not_true_eq_false,
    if_false, memberContext, listTree, normal, Option.map_map,
    Function.comp_def, if_neg served, if_neg paged]
  simp only [shownPage, found, unmounted.entries, ite_self, List.append_nil]
  simp [Reply.seen, VfsAnswer.seen, ListAnswer.seen, entries, grantShows,
    shownPaths, List.filter_map, Function.comp_def]
end

end Aprovan.Vfs
