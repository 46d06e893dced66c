import Aprovan.Vcs.History
import Aprovan.Vfs.Context
import Aprovan.Vfs.Journal

/-!
# Listing files

`vfs.list`, `GET /fs` and `GET /fs/changes` read a page, a snapshot or the
journal first and filter afterwards.  The locale order of the answers is a
parameter; the change cursor is opaque to the client, and the replies leave it
out.
-/

namespace Aprovan.Vfs

open Aprovan.Library Aprovan.Server Aprovan.Fs Aprovan.Grants Aprovan.Apps
open Aprovan.Vcs (SnapshotEntry)

structure Commit where
  id : Text
  entries : List SnapshotEntry

/-- A chat session.  The overlay maps a path to its staged content, or to
nothing when it is deleted; the shadow files are named by their path in the
session.  The base is absent when its snapshot is missing. -/
structure ChatSession where
  id : Text
  staged : Bool
  (createdAt updatedAt : Nat)
  base : Option (List SnapshotEntry)
  overlay : List (Text × Option Text)
  shadow : List FsEntry
  deriving DecidableEq

/-- A workspace with what listings read besides its files. -/
structure ListingState extends Workspace where
  sessions : Text → Option ChatSession
  commits : Text → Outcome Commit
  mountEntries : Text → List FsEntry
  history : List JournalEntry

/-- `localeCompare` puts all texts in an order. -/
structure LocaleOrder (collate : Text → Text → Bool) : Prop where
  total : ∀ first second, collate first second = true ∨ collate second first = true
  trans : ∀ first second third, collate first second = true →
    collate second third = true → collate first third = true

theorem localeOrder_le : LocaleOrder fun first second => first ≤ second where
  total first second := by
    simpa using le_total first second
  trans first second third forth back := by
    rw [decide_eq_true_eq] at forth back ⊢
    exact forth.trans back

variable (collate : Text → Text → Bool) (ctx : ServiceContext)
  (state : ListingState)

/-- The journal of the mutations since the server started. -/
def ListingState.journal : Journal :=
  .ofHistory state.history

/-- A call answers, is refused, or fails without a service error. -/
inductive Reply (Answer : Type) where
  | answered (answer : Answer)
  | refused (thrown : ServiceError)
  | crashed
  deriving DecidableEq

def unknownSession (id : Text) : ServiceError where
  message := "Unknown session: ".toList ++ id
  status := 404

def workspaceOnly : ServiceError where
  message :=
    "Commit-pinned and session overlays are workspace-only".toList
  status := 403

def sessionNotText : ServiceError where
  message := "session must be a session id".toList
  status := 400

def baseMissing (id : Text) : ServiceError where
  message := "Base snapshot missing for session ".toList ++ id
  status := 500

def requireWorkspaceCaller : Outcome Unit :=
  match ctx.appScope with
  | none => .ok ()
  | some _ => .error workspaceOnly

def stagedById (id : Text) : Outcome (Option ChatSession) :=
  match state.sessions id with
  | none => .error (unknownSession id)
  | some session => .ok (if session.staged then some session else none)

/-- The staged session that a call names.  The argument is absent, not a
string, or a string; the empty one counts as absent. -/
def stagedSession (value : Option (Option Text)) : Outcome (Option ChatSession) :=
  match value with
  | none => .ok none
  | some (some []) => .ok none
  | some id => do
      let _ ← requireWorkspaceCaller ctx
      match id with
      | none => .error sessionNotText
      | some id => stagedById state id

/-- `?session=<id>` of the HTTP plane. -/
def stagedSessionParam (id : Text) : Outcome (Option ChatSession) :=
  if id = [] then .ok none else stagedById state id

/-- `!prefix || path === prefix || path.startsWith(prefix + "/")`. -/
def inListing (pathPrefix path : Text) : Bool :=
  pathPrefix = [] || underPath path pathPrefix

variable (session : ChatSession)

/-- An entry for staged content; its shadow file supplies the metadata. -/
def stagedEntry (path hash mimeType : Text) (size : Nat) : FsEntry :=
  match session.shadow.find? (·.path = path) with
  | some shadow => {
      path := path
      hash := hash
      mimeType := shadow.mimeType
      size := shadow.size
      updatedAt := shadow.updatedAt }
  | none => {
      path := path
      hash := hash
      mimeType := mimeType
      size := size
      updatedAt := session.updatedAt }

def baseEntry (entry : SnapshotEntry) : Option FsEntry :=
  match session.overlay.lookup entry.path with
  | some none => none
  | some (some hash) => some (stagedEntry session entry.path hash entry.mimeType entry.size)
  | none => some {
      path := entry.path
      hash := entry.hash
      mimeType := entry.mimeType
      size := entry.size
      updatedAt := session.createdAt }

/-- A file that the session added; those of the base were seen already. -/
def addedEntry (base : List SnapshotEntry) (pathPrefix : Text) (staged : Text × Option Text) :
    Option FsEntry :=
  match staged.2 with
  | none => none
  | some hash =>
    if staged.1 ∈ base.map SnapshotEntry.path ∨ inListing pathPrefix staged.1 = false then none
    else some (stagedEntry session staged.1 hash "text/plain".toList 0)

def sessionEntries (base : List SnapshotEntry) (pathPrefix : Text) : List FsEntry :=
  (base.filter (inListing pathPrefix ·.path)).filterMap (baseEntry session) ++
    session.overlay.filterMap (addedEntry session base pathPrefix)

/-- `.sort((a, b) => a.path.localeCompare(b.path))`, which is stable. -/
def sortEntries (entries : List FsEntry) : List FsEntry :=
  entries.insertionSort (fun first second => collate first.path second.path = true)

@[simp]
theorem length_sortEntries (entries : List FsEntry) :
    (sortEntries collate entries).length = entries.length :=
  List.length_insertionSort _ _

def sessionList (pathPrefix : Text) : Outcome (List FsEntry) :=
  match session.base with
  | none => .error (baseMissing session.id)
  | some base => .ok (sortEntries collate
      (sessionEntries session base pathPrefix))

inductive ListAnswer where
  | session (id : Text) (entries : List FsEntry)
  | commit (id : Text) (entries : List SnapshotEntry)
  | tree (entries : List FsEntry) (cursor : Option Text)
  deriving DecidableEq

/-- The arguments of `vfs.list`.  A prefix or commit that is not a string
counts as empty; the limit is already rounded down. -/
structure ListArgs where
  (pathPrefix commit : Text)
  session : Option (Option Text)
  limit : Option Int
  cursor : Text

def badPrefix (raw : Text) : ServiceError where
  message := "Invalid prefix: ".toList ++ raw
  status := 400

def cursorNeedsLimit : ServiceError where
  message := "cursor requires limit".toList
  status := 400

/-- The prefix in normal form; the empty one stays empty. -/
def listPrefix (raw : Text) : Option Text :=
  if raw = [] then some [] else normalizeFsPath raw

/-- What a listing shows by its path: no service state, and no partition of
somebody else. -/
def listedTo (sub path : Text) : Bool :=
  !isServicePath path && partitionAccess path sub ≠ .foreign

/-- Agent-bounded contexts see what their path grants cover. -/
def grantShows (grants : Option CapabilityGrants) (path : Text) : Bool :=
  match grants.bind (·.paths) with
  | none => true
  | some paths => pathAccess paths path ≠ .none

def shownPage (shows : Text → Bool) (pathPrefix : Text) (limit : Option Int)
    (cursor : Text) (grants : Option CapabilityGrants) :
    Reply ListAnswer :=
  match state.store.list pathPrefix limit cursor with
  | none => .crashed
  | some page =>
    let mounted :=
      if limit = none ∨ cursor = [] then state.mountEntries pathPrefix else []
    .answered (.tree (sortEntries collate
        ((page.entries.filter (shows ·.path) ++ mounted).filter (grantShows grants ·.path)))
      page.cursor)

def listTree (args : ListArgs) : Reply ListAnswer :=
  match listPrefix args.pathPrefix with
  | none => .refused (badPrefix args.pathPrefix)
  | some pathPrefix =>
    if pathPrefix ≠ [] ∧ isServicePath pathPrefix = true then .refused serviceStateRefused
    else
      let limit := args.limit.map (min · 10000)
      if args.cursor ≠ [] ∧ limit = none then .refused cursorNeedsLimit
      else shownPage collate state (listedTo ctx.userId) pathPrefix limit args.cursor ctx.grants

def appListRoots (scope : AppPaths) (state : ListingState) (raw : Text) : Outcome (List Text) :=
  if raw = [] then .ok scope.paths
  else do
    let path ← resolveVfsPath ctx state.shares (some raw) false
    return [path]

def listApp (scope : AppPaths) (state : ListingState) (args : ListArgs) : Reply ListAnswer :=
  match appListRoots ctx scope state args.pathPrefix with
  | .error thrown => .refused thrown
  | .ok roots => .answered (.tree (roots.flatMap state.store.listAll) none)

def listCommit (args : ListArgs) : Reply ListAnswer :=
  match requireWorkspaceCaller ctx with
  | .error thrown => .refused thrown
  | .ok _ =>
    match state.commits args.commit with
    | .error thrown => .refused thrown
    | .ok commit =>
      match listPrefix args.pathPrefix with
      | none => .refused (badPrefix args.pathPrefix)
      | some pathPrefix =>
        .answered (.commit commit.id (commit.entries.filter (inListing pathPrefix ·.path)))

def listSession (raw : Text) (invalid : ServiceError) : Reply ListAnswer :=
  match listPrefix raw with
  | none => .refused invalid
  | some pathPrefix =>
    match sessionList collate session pathPrefix with
    | .error thrown => .refused thrown
    | .ok entries => .answered (.session session.id entries)

def vfsList (args : ListArgs) : Reply ListAnswer :=
  match stagedSession ctx state args.session with
  | .error thrown => .refused thrown
  | .ok (some session) => listSession collate session args.pathPrefix (badPrefix args.pathPrefix)
  | .ok none =>
    if args.commit ≠ [] then listCommit ctx state args
    else
      match ctx.appScope with
      | some scope => listApp ctx scope state args
      | none => listTree collate ctx state args

/-- The query of `GET /fs`.  The limit is absent, invalid, or a number in
its range. -/
structure RouteListArgs where
  (pathPrefix session : Text)
  limit : Option (Option { bound : Nat // 1 ≤ bound ∧ bound ≤ 10000 })
  cursor : Text

def invalidPrefix : ServiceError where
  message := "Invalid prefix".toList
  status := 400

def invalidLimit : ServiceError where
  message := "Invalid limit".toList
  status := 400

/-- `GET /fs`, by a member without grants. -/
def listRoute (sub : Text) (state : ListingState) (args : RouteListArgs) : Reply ListAnswer :=
  match listPrefix args.pathPrefix with
  | none => .refused invalidPrefix
  | some pathPrefix =>
    if pathPrefix ≠ [] ∧ isServicePath pathPrefix = true then .refused serviceStateRefused
    else if args.limit = some none then .refused invalidLimit
    else
      let limit := args.limit.join.map fun bound => (bound.val : Int)
      if args.cursor ≠ [] ∧ limit = none then .refused cursorNeedsLimit
      else
        match stagedSessionParam state args.session with
        | .error thrown => .refused thrown
        | .ok (some session) => listSession collate session args.pathPrefix invalidPrefix
        | .ok none => shownPage collate state (listedTo sub) pathPrefix limit args.cursor none

/-- The query of `GET /fs/changes`: the cursor that `If-None-Match` quotes,
and the one to answer from, which is absent when it is missing or not a
number. -/
structure ChangesArgs where
  ifNoneMatch : Option Int
  session : Text
  since : Option Int

inductive ChangesAnswer where
  | notModified
  | changes (reset : Bool) (changes : List FsChange)
  deriving DecidableEq

def asUpdates (entries : List FsEntry) : List FsChange :=
  entries.map fun entry => { path := entry.path, kind := .update }

/-- The full listing behind a reset of the live tree. -/
def fullListing (sub : Text) (state : ListingState) : List FsEntry :=
  (state.store.listAll []).filter (listedTo sub ·.path) ++ state.mountEntries []

/-- The answer when the journal cannot tell: everything, anew. -/
def resetChanges (sub : Text) (state : ListingState) (session : Option ChatSession) :
    Reply ChangesAnswer :=
  match session with
  | none => .answered (.changes true (asUpdates (fullListing sub state)))
  | some session =>
    match sessionList collate session [] with
    | .error thrown => .refused thrown
    | .ok entries => .answered (.changes true (asUpdates entries))

def changesReply (sub : Text) (state : ListingState)
    (session : Option ChatSession) (since : Option Int) :
    Reply ChangesAnswer :=
  let scope := (session.map ChatSession.id).getD []
  match state.journal.changesSince scope since with
  | some changes => .answered (.changes false changes)
  | none => resetChanges collate sub state session

/-- `GET /fs/changes`. -/
def changesRoute (sub : Text) (state : ListingState) (args : ChangesArgs) : Reply ChangesAnswer :=
  if args.ifNoneMatch = some (state.journal.cursor : Int) then .answered .notModified
  else
    match stagedSessionParam state args.session with
    | .error thrown => .refused thrown
    | .ok session => changesReply collate sub state session args.since

end Aprovan.Vfs
