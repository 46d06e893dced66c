import Aprovan.Apps.Partition
import Aprovan.Fs.Store

/-!
# Snapshots, commits and refs

The version history of a workspace.  A snapshot lists the visible files of a
subtree with their content hashes; a commit names a snapshot; refs name
commits: `main`, the heads of the apps, and the tags and channels of their
releases.
-/

namespace Aprovan.Vcs

open Aprovan.Library Aprovan.Server Aprovan.Fs Aprovan.Apps

/-- A file in a snapshot. -/
structure SnapshotEntry where
  (path hash mimeType : Text)
  size : Nat
  deriving DecidableEq

/-- The files of a subtree; the empty prefix stands for the whole visible
workspace. -/
structure VcsSnapshot where
  (id pathPrefix : Text)
  entries : List SnapshotEntry
  deriving DecidableEq

structure CommitStats where
  (added modified removed : Nat)
  deriving DecidableEq

/-- What the id of a commit is a digest of. -/
structure CommitBody where
  (snapshot pathPrefix : Text)
  parents : List Text
  (message author : Text)
  createdAt : Nat
  stats : CommitStats
  deriving DecidableEq

structure VcsCommit extends CommitBody where
  id : Text
  deriving DecidableEq

structure VcsRef where
  (name commit : Text)

/-- The records of a workspace's history.  Each table holds at most one row
a key, by the way they are written. -/
structure History where
  snapshots : List VcsSnapshot
  commits : List VcsCommit
  refs : List VcsRef

/-- The digests that name snapshots and commits, and the clock. -/
structure VcsServices where
  collate : Text → Text → Bool
  snapshotId : List SnapshotEntry → Text → Text
  commitId : CommitBody → Text
  now : Nat

namespace History

variable (history : History)

def readSnapshot (id : Text) : Option VcsSnapshot :=
  history.snapshots.find? (·.id = id)

def readCommit (id : Text) : Option VcsCommit :=
  if id = [] then none else history.commits.find? (·.id = id)

def readRef (name : Text) : Option VcsRef :=
  history.refs.find? (·.name = name)

/-- The refs that equal the name or lie below it. -/
def listRefs (name : Text) : List VcsRef :=
  history.refs.filter fun ref => underPath ref.name name

def saveSnapshot (snapshot : VcsSnapshot) : History := { history with
    snapshots :=
      history.snapshots.filter (·.id ≠ snapshot.id) ++ [snapshot] }

def writeCommit (commit : VcsCommit) : History := { history with
    commits := history.commits.filter (·.id ≠ commit.id) ++ [commit] }

def writeRef (name commit : Text) : History := { history with
    refs := history.refs.filter (·.name ≠ name) ++ [{ name := name, commit := commit }] }

end History

def isRefLetter (letter : Char) : Bool :=
  letter.isAlphanum || letter = '_' || letter = '-'

/-- `^[a-z][a-z0-9-]*(\/[A-Za-z0-9_-]+)*$`. -/
def matchesRef (name : Text) : Bool :=
  match splitOn '/' name with
  | [] => false
  | first :: others =>
    (match first with
      | [] => false
      | start :: rest =>
        start.isLower && rest.all fun letter =>
            letter.isLower || letter.isDigit || letter = '-') &&
      others.all fun segment => segment ≠ [] && segment.all isRefLetter

def badRef : ServiceError where
  message :=
    "ref must match /^[a-z][a-z0-9-]*(\\/[A-Za-z0-9_-]+)*$/u".toList
  status := 400

/-- `refName(name)`; the empty name stands for `main`. -/
def refName (name : Text) : Outcome Text :=
  if name = [] then .ok "main".toList
  else if matchesRef name then .ok name
  else .error badRef

def notATag (name : Text) : ServiceError where
  message := "tag ref must start with tag/: ".toList ++ name
  status := 400

def tagExists (name : Text) : ServiceError where
  message := "tag already exists: ".toList ++ name
  status := 409

def notAChannel (name : Text) : ServiceError where
  message := "channel ref must start with channel/: ".toList ++ name
  status := 400

def writeTag (history : History) (name commit : Text) : Outcome History := do
  let key ← refName name
  if "tag/".toList.isPrefixOf key = false then .error (notATag name)
  else if (history.readRef key).isSome then .error (tagExists key)
  else .ok (history.writeRef key commit)

def moveChannel (history : History) (name commit : Text) : Outcome History := do
  let key ← refName name
  if "channel/".toList.isPrefixOf key = false then .error (notAChannel name)
  else .ok (history.writeRef key commit)

def tagRefName (appId releaseId : Text) : Text :=
  "tag/app/".toList ++ appId ++ '/' :: releaseId

def channelRefName (appId channel : Text) : Text :=
  "channel/app/".toList ++ appId ++ '/' :: channel

def appRefName (appId : Text) : Text :=
  "app/".toList ++ appId

def isHiddenDataPath (path : Text) : Bool :=
  underPath path appDataRoot || underPath path userSpaceRoot

/-- The files that a snapshot may hold. -/
def visibleEntries (store : Store) (pathPrefix : Text) : List FsEntry :=
  (store.listAll pathPrefix).filter fun entry =>
    !isServicePath entry.path && !isHiddenDataPath entry.path

def snapshotEntry (entry : FsEntry) : SnapshotEntry where
  path := entry.path
  hash := entry.hash
  mimeType := entry.mimeType
  size := entry.size

def buildSnapshot (services : VcsServices) (entries : List FsEntry) (pathPrefix : Text) :
    VcsSnapshot :=
  let sorted := (entries.insertionSort fun first second =>
    services.collate first.path second.path = true).map snapshotEntry
  { id := services.snapshotId sorted pathPrefix
    pathPrefix := pathPrefix
    entries := sorted }

/-- How many files a snapshot adds, modifies and removes. -/
def diffStats (before after : List SnapshotEntry) : CommitStats :=
  let prior := fun path => (before.reverse.find? (·.path = path)).map SnapshotEntry.hash
  { added := (after.filter fun entry => (prior entry.path).isNone).length
    modified := (after.filter fun entry =>
      match prior entry.path with
      | none => false
      | some hash => hash ≠ entry.hash).length
    removed := ((before.map SnapshotEntry.path).dedup.filter
      (· ∉ after.map SnapshotEntry.path)).length }

def createCommit (services : VcsServices) (history : History) (snapshot : VcsSnapshot)
    (parents : List Text) (message author : Text) : VcsCommit × History :=
  let parentSnapshot := do
    let parent ← parents.head?
    let commit ← history.readCommit parent
    history.readSnapshot commit.snapshot
  let body : CommitBody := {
    snapshot := snapshot.id
    pathPrefix := snapshot.pathPrefix
    parents := parents
    message := message
    author := author
    createdAt := services.now
    stats := diffStats ((parentSnapshot.map VcsSnapshot.entries).getD []) snapshot.entries }
  let commit : VcsCommit := {
    toCommitBody := body
    id := services.commitId body }
  (commit, history.writeCommit commit)

section

variable {history : History}

theorem readCommit_eq_some {id : Text} {commit : VcsCommit}
    (found : history.readCommit id = some commit) :
    commit ∈ history.commits ∧ commit.id = id := by
  unfold History.readCommit at found
  split at found
  · cases found
  · have hit := List.find?_some found
    exact ⟨List.mem_of_find?_eq_some found, of_decide_eq_true hit⟩

variable {name commit : Text}

theorem readRef_writeRef_self :
    (history.writeRef name commit).readRef name = some ⟨name, commit⟩ := by
  have others : (history.refs.filter (·.name ≠ name)).find? (·.name = name) = none := by
    rw [List.find?_eq_none]
    intro ref member
    simpa using (List.mem_filter.mp member).2
  rw [History.readRef, History.writeRef, List.find?_append, others,
    Option.none_or, List.find?_cons_of_pos (by simp)]

theorem readRef_writeRef_of_ne {other : Text} (different : other ≠ name) :
    (history.writeRef name commit).readRef other = history.readRef other := by
  rw [History.readRef, History.writeRef, List.find?_append,
    List.find?_singleton, if_neg (by simpa using different.symm),
    Option.or_none, List.find?_filter, History.readRef]
  congr 1
  funext ref
  by_cases same : ref.name = other
  · simp [same, different]
  · simp [same]

end

end Aprovan.Vcs
