import Aprovan.Apps.InstallTrees
import Aprovan.Fs.Methods

/-!
# Exact copies

The files of a snapshot are copied one after the other.  A version that is no
longer stored is passed over, what lies under the root of a new installation
stays, and a file that is copied has the hash of its text.
-/

namespace Aprovan.Apps

open Aprovan.Library Aprovan.Fs Aprovan.Vcs

def copyDest (root pathPrefix : Text) (entry : SnapshotEntry) : Text :=
  place root (snapshotRelative pathPrefix entry.path)

def CopiesExactly (root : Text) (snapshot : VcsSnapshot) (files : Store) : Prop :=
  (∀ entry ∈ snapshot.entries, (files.latest (copyDest root snapshot.pathPrefix entry)).map
      FsRow.hash = some entry.hash) ∧
  ∀ path ∈ files.paths, underPath path root = true → ∃ entry ∈ snapshot.entries,
      path = copyDest root snapshot.pathPrefix entry
  deriving Decidable

/-- A call that answers leaves an exact copy. -/
def InstalledExactly (root : Text) (snapshot : VcsSnapshot) (run : InstallRun AppInstallation) :
    Prop :=
  ∀ install, run.outcome = .answered install → CopiesExactly root snapshot run.installer.store

instance {root : Text} {snapshot : VcsSnapshot} {run : InstallRun AppInstallation} :
    Decidable (InstalledExactly root snapshot run) :=
  match ends : run.outcome with
  | .answered install =>
    decidable_of_iff (CopiesExactly root snapshot run.installer.store)
      ⟨fun copied _ _ => copied, fun copied => copied install ends⟩
  | .threw _ => isTrue fun _ impossible => by rw [ends] at impossible; cases impossible
  | .endless => isTrue fun _ impossible => by rw [ends] at impossible; cases impossible

def lastStored (origin : Store) (root pathPrefix : Text)
    (entries : List SnapshotEntry) (path : Text) : Option FsRow :=
  entries.reverse.findSome? fun entry =>
    if copyDest root pathPrefix entry = path then origin.read entry.path (some entry.hash)
    else none

/-- The hash that a path is left with: that of the text which is copied to
it, or the one that it had before. -/
def hashLeft (sha256 : Text → Text) (origin before : Store) (root : Text)
    (snapshot : VcsSnapshot) (path : Text) : Option Text :=
  match lastStored origin root snapshot.pathPrefix snapshot.entries path with
  | some file => some (sha256 file.content)
  | none => (before.latest path).map FsRow.hash

/-- Every entry leaves its hash, and nothing but files of the snapshot was
under the root before. -/
def CopyCondition (sha256 : Text → Text) (origin before : Store)
    (root : Text) (snapshot : VcsSnapshot) : Prop :=
  (∀ entry ∈ snapshot.entries, hashLeft sha256 origin before root snapshot
      (copyDest root snapshot.pathPrefix entry) = some entry.hash) ∧
  ∀ path ∈ before.paths, underPath path root = true → ∃ entry ∈ snapshot.entries,
      path = copyDest root snapshot.pathPrefix entry

section

variable (services : InstallServices) {store : Store}

theorem mem_paths_writeCopies {copies : List Copy} {path : Text} :
    path ∈ (writeCopies services store copies).paths ↔
      path ∈ store.paths ∨ path ∈ copies.map Copy.dest := by
  induction copies generalizing store with
  | nil => simp [writeCopies]
  | cons copy rest ih =>
    show path ∈ (writeCopies services _ rest).paths ↔ _
    rw [ih, Store.mem_paths_write, List.map_cons, List.mem_cons, or_assoc]

theorem older_writeCopies (older : ∀ row ∈ store.rows, row.updatedAt ≤ services.now)
    (copies : List Copy) :
    ∀ row ∈ (writeCopies services store copies).rows, row.updatedAt ≤ services.now := by
  induction copies generalizing store with
  | nil => exact older
  | cons copy rest ih =>
    apply ih
    intro row member
    rcases Store.mem_rows_write.mp member with ⟨before, _⟩ | new
    · exact older row before
    · rw [new]
      exact le_refl services.now

variable {origin : Store} {root : Text} {snapshot : VcsSnapshot}

theorem latest_snapshotCopies (older : ∀ row ∈ store.rows, row.updatedAt ≤ services.now)
    (path : Text) :
    ((writeCopies services store
        (snapshotCopies origin snapshot root)).latest path).map FsRow.hash =
      hashLeft services.sha256 origin store root snapshot path := by
  obtain ⟨id, pathPrefix, entries⟩ := snapshot
  unfold hashLeft
  simp only
  induction entries using List.reverseRecOn with
  | nil => rfl
  | append_singleton front entry ih =>
    have copied :
        snapshotCopies origin ⟨id, pathPrefix, front ++ [entry]⟩ root =
          snapshotCopies origin ⟨id, pathPrefix, front⟩ root ++
            ((origin.read entry.path (some entry.hash)).map
              (copyOfFile root (snapshotRelative pathPrefix entry.path) entry.path)).toList := by
      simp only [snapshotCopies, List.filterMap_append]
      congr 1
    have found :
        lastStored origin root pathPrefix (front ++ [entry]) path =
          ((if copyDest root pathPrefix entry = path then origin.read entry.path (some entry.hash)
            else
              none) <|> lastStored origin root pathPrefix front path) := by
      simp only [lastStored, List.reverse_append, List.reverse_singleton,
        List.singleton_append, List.findSome?_cons]
      split
      · next file isFile =>
          rw [isFile]
          rfl
      · next missing =>
          rw [missing]
          rfl
    rw [copied, found]
    cases stored : origin.read entry.path (some entry.hash) with
    | none =>
      simp only [Option.map_none, Option.toList_none, List.append_nil, ite_self]
      exact ih
    | some file =>
      have written := older_writeCopies services older
        (snapshotCopies origin ⟨id, pathPrefix, front⟩ root)
      have last : writeCopies services store (snapshotCopies origin ⟨id, pathPrefix, front⟩ root ++
            [copyOfFile root (snapshotRelative pathPrefix entry.path) entry.path file]) =
          (writeCopies services store (snapshotCopies origin
            ⟨id, pathPrefix, front⟩ root)).write services.sha256
              services.now (copyDest root pathPrefix entry) file.content
              file.mimeType none := by
        unfold writeCopies
        rw [List.foldl_append]
        rfl
      simp only [Option.map_some, Option.toList_some]
      rw [last]
      by_cases here : copyDest root pathPrefix entry = path
      · rw [if_pos here, ← here, Store.latest_write_self fun row member _ => written row member]
        rfl
      · rw [if_neg here, (Store.SameAt.write_of_ne _ (Ne.symm here)).latest]
        exact ih

theorem copiesExactly_iff (older : ∀ row ∈ store.rows, row.updatedAt ≤ services.now) :
    CopiesExactly root snapshot (writeCopies services store (snapshotCopies origin snapshot root)) ↔
      CopyCondition services.sha256 origin store root snapshot := by
  have copied : ∀ path ∈ (snapshotCopies origin snapshot root).map Copy.dest,
      ∃ entry ∈ snapshot.entries, path = copyDest root snapshot.pathPrefix entry := by
    intro path member
    obtain ⟨copy, isCopy, rfl⟩ := List.mem_map.mp member
    obtain ⟨entry, isEntry, made⟩ := List.mem_filterMap.mp isCopy
    obtain ⟨file, _, rfl⟩ := Option.map_eq_some_iff.mp made
    exact ⟨entry, isEntry, rfl⟩
  unfold CopiesExactly CopyCondition
  simp only [latest_snapshotCopies services older, mem_paths_writeCopies]
  apply and_congr_right
  intro _
  constructor
  · intro only path before
    exact only path (Or.inl before)
  · intro only path stored inside
    rcases stored with before | new
    · exact only path before inside
    · exact copied path new

end

/-- An installation, and an update, that take a snapshot copy it exactly
under the condition on the files that they find; those of an update are
cleared. -/
theorem install_copies_exactly_iff (services : InstallServices) (fuel : Nat)
    (originWorkspaceId installedBy : Text) (origin : Origin) (installer : Installer)
    (manifest : AppManifest) (bindings : List (Text × Text)) (slug hosting : Option Text)
    (asked : Option InstallPin) (installId : Text) (confirmOverwrite : Bool)
    (older : ∀ row ∈ installer.store.rows, row.updatedAt ≤ services.now) :
    (∀ root chosen resolved reached snapshot,
      installSite originWorkspaceId installer manifest slug hosting = .ok (root, chosen) →
      resolveInstallPin services fuel origin manifest asked = (.answered resolved, reached) →
      installTree reached.history resolved = some (.pinned snapshot) →
        (InstalledExactly root snapshot
            (installAsCopy services fuel originWorkspaceId installedBy origin
              installer manifest bindings slug hosting asked) ↔
          CopyCondition services.sha256 origin.store installer.store root snapshot)) ∧
    (∀ install root updated resolved reached snapshot,
      updateSite services origin installer installId confirmOverwrite =
        .ok (install, root, updated) →
      resolveUpdatePin services fuel origin updated = (.answered resolved, reached) →
      updateTree reached.history resolved = some (.pinned snapshot) →
        (InstalledExactly root snapshot (applyUpdate services fuel origin installer installId
              confirmOverwrite) ↔
          CopyCondition services.sha256 origin.store
            (installer.store.removePrefix root).2 root snapshot)) := by
  constructor
  · intro root chosen resolved reached snapshot sited ends isTree
    have kept := resolveInstallPin_store services fuel origin manifest asked
    rw [ends] at kept
    have made := materialize_tree reached manifest resolved root
    rw [isTree, Option.map_some] at made
    cases out : materialize reached manifest resolved root with
    | error thrown =>
      rw [out] at made
      cases made
    | ok copies =>
      rw [out] at made
      have same : copies = snapshotCopies origin.store snapshot root := by
        rw [← kept]
        exact Option.some.inj made
      rw [← copiesExactly_iff services older, ← same]
      unfold InstalledExactly installAsCopy
      simp only [sited, ends, out]
      constructor
      · intro installed
        exact installed _ rfl
      · intro copied _ _
        exact copied
  · intro install root updated resolved reached snapshot sited ends isTree
    have kept := resolveUpdatePin_store services fuel origin updated
    rw [ends] at kept
    have made := rematerialize_tree reached updated resolved root
    rw [isTree, Option.map_some] at made
    have olderCleared : ∀ row ∈ (installer.store.removePrefix root).2.rows,
        row.updatedAt ≤ services.now := by
      intro row member
      exact older row (mem_removePrefix member)
    cases out : rematerialize reached updated resolved root with
    | error thrown =>
      rw [out] at made
      cases made
    | ok copies =>
      rw [out] at made
      have same : copies = snapshotCopies origin.store snapshot root := by
        rw [← kept]
        exact Option.some.inj made
      rw [← copiesExactly_iff services olderCleared, ← same]
      unfold InstalledExactly applyUpdate
      simp only [sited, ends, out]
      constructor
      · intro installed
        exact installed _ rfl
      · intro copied _ _
        exact copied

/-! Ann's commit, taken into workspaces of bob's. -/

/-- Every text has the hash of the stored files. -/
def hashingServices : InstallServices := {
  exampleInstallServices with sha256 := fun _ => "h".toList }

def annsSnapshot : VcsSnapshot where
  id := "s1".toList
  pathPrefix := []
  entries := [committedFile "apps/notes/ui.tsx".toList,
    committedFile "docs/plans.md".toList]

def bobsFiles (paths : List Text) (keys : paths.Nodup) : Installer := { bobsWorkspace with
    store := {
      backend := .sqlite
      rows := paths.map storedFile
      keys := by
        rw [List.map_map]
        exact keys.map fun _ _ same => congrArg Prod.fst same } }

def bobTakes (origin : Origin) (installer : Installer) : InstallRun AppInstallation :=
  installAsCopy hashingServices 3 "anns".toList "bob".toList origin installer notesApp [] none none
    (some (.commit { tag := none, commit := "c1".toList }))

/-- Files are passed over that ann's workspace no longer has, and a file of
bob's is left under the root; both calls answer. -/
theorem install_not_exact :
    commitSnapshot annsOrigin.history "c1".toList = .ok annsSnapshot ∧
      ¬ InstalledExactly "apps/notes".toList annsSnapshot
        (bobTakes { annsOrigin with store := bobsWorkspace.store } bobsWorkspace) ∧
      ¬ InstalledExactly "apps/notes".toList annsSnapshot (bobTakes annsOrigin
          (bobsFiles ["apps/notes/old.tsx".toList] (by decide))) := by
  refine ⟨rfl, ?_, ?_⟩
  · decide +kernel
  · decide +kernel

/-- Bob has files beside the new root. -/
theorem install_exact_beside :
    CopyCondition hashingServices.sha256 annsOrigin.store
      (bobsFiles ["apps/todo/ui.tsx".toList, "notes.md".toList] (by decide)).store
      "apps/notes".toList annsSnapshot := by
  have installed : InstalledExactly "apps/notes".toList annsSnapshot (bobTakes annsOrigin
      (bobsFiles ["apps/todo/ui.tsx".toList, "notes.md".toList] (by decide))) := by
    decide +kernel
  exact ((install_copies_exactly_iff hashingServices 3 "anns".toList "bob".toList annsOrigin
    (bobsFiles ["apps/todo/ui.tsx".toList, "notes.md".toList] (by decide)) notesApp [] none none
    (some (.commit { tag := none, commit := "c1".toList })) [] false (by decide)).1
      _ _ _ _ _ rfl rfl rfl).mp installed

end Aprovan.Apps
