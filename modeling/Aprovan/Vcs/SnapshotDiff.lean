import Aprovan.Library.TreeChanges
import Aprovan.Vcs.ChatSessions

/-!
# Differences of snapshots

`diffSnapshots` lists what a later snapshot adds, modifies and removes.  For
a later snapshot with one entry a path, as `buildSnapshot` makes them, the
lists are the changes between the two trees of hashes.
-/

namespace Aprovan.Vcs

open Aprovan.Library Aprovan.Fs

structure VcsDiff where
  added : List (Text × Text)
  modified : List (Text × Text × Text)
  removed : List (Text × Text)

/-- The entries of a snapshot that may be missing are empty. -/
def diffSnapshots (before after : List SnapshotEntry) : VcsDiff where
  added := after.filterMap fun entry =>
    match baseHash before entry.path with
    | none => some (entry.path, entry.hash)
    | some _ => none
  modified := after.filterMap fun entry =>
    match baseHash before entry.path with
    | none => none
    | some prior =>
      if prior ≠ entry.hash then some (entry.path, prior, entry.hash) else none
  removed := (before.map SnapshotEntry.path).eraseDups.filterMap fun path =>
    if path ∈ after.map SnapshotEntry.path then none
    else (baseHash before path).map fun hash => (path, hash)

structure VcsDiff.Records (diff : VcsDiff) (changes : TreeChanges Text Text) : Prop where
  written : ∀ path hash, ((path, hash) ∈ diff.added ∨
        ∃ prior, (path, prior, hash) ∈ diff.modified) ↔
      changes path = some (some hash)
  removed : ∀ path, (∃ hash, (path, hash) ∈ diff.removed) ↔ changes path = some none

variable {path : Text}

theorem baseHash_eq_none_iff {entries : List SnapshotEntry} :
    baseHash entries path = none ↔ path ∉ entries.map SnapshotEntry.path := by
  rw [baseHash, Option.map_eq_none_iff, List.find?_eq_none]
  simp [eq_comm]

theorem baseHash_eq_some_iff {entries : List SnapshotEntry}
    (distinct : (entries.map SnapshotEntry.path).Nodup) {hash : Text} :
    baseHash entries path = some hash ↔
      ∃ entry ∈ entries, entry.path = path ∧ entry.hash = hash := by
  rw [baseHash, Option.map_eq_some_iff]
  constructor
  · rintro ⟨entry, found, same⟩
    exact ⟨entry, List.mem_reverse.mp (List.mem_of_find?_eq_some found),
      by simpa using List.find?_some found, same⟩
  · rintro ⟨entry, member, samePath, same⟩
    have present : (entries.reverse.find? (·.path = path)).isSome := by
      rw [List.find?_isSome]
      exact ⟨entry, List.mem_reverse.mpr member, by simpa using samePath⟩
    obtain ⟨other, found⟩ := Option.isSome_iff_exists.mp present
    have otherMember := List.mem_reverse.mp (List.mem_of_find?_eq_some found)
    have otherPath : other.path = path := by simpa using List.find?_some found
    have equal : other = entry :=
      List.inj_on_of_nodup_map distinct otherMember member (otherPath.trans samePath.symm)
    subst equal
    exact ⟨other, found, same⟩

variable {before after : List SnapshotEntry}

theorem written_diffSnapshots_iff {hash : Text} :
    ((path, hash) ∈ (diffSnapshots before after).added ∨
        ∃ prior, (path, prior, hash) ∈ (diffSnapshots before after).modified) ↔
      ∃ entry ∈ after, entry.path = path ∧ entry.hash = hash ∧
        baseHash before path ≠ some hash := by
  simp only [diffSnapshots, List.mem_filterMap]
  constructor
  · rintro (⟨entry, member, listed⟩ | ⟨prior, entry, member, listed⟩)
    · split at listed
      · rename_i absent
        cases listed
        refine ⟨entry, member, rfl, rfl, ?_⟩
        rw [absent]
        exact Option.some_ne_none _ |>.symm
      · cases listed
    · split at listed
      · cases listed
      · rename_i found known
        split at listed
        · rename_i different
          cases listed
          refine ⟨entry, member, rfl, rfl, ?_⟩
          rw [known]
          exact fun same => different (Option.some.inj same)
        · cases listed
  · rintro ⟨entry, member, rfl, rfl, different⟩
    cases known : baseHash before entry.path with
    | none =>
      left
      refine ⟨entry, member, ?_⟩
      rw [known]
    | some prior =>
      right
      refine ⟨prior, entry, member, ?_⟩
      rw [known] at different
      have distinct : prior ≠ entry.hash := fun same => different (congrArg some same)
      rw [known]
      simp only [if_pos distinct]

theorem removed_diffSnapshots_iff :
    (∃ hash, (path, hash) ∈ (diffSnapshots before after).removed) ↔
      baseHash before path ≠ none ∧ baseHash after path = none := by
  simp only [diffSnapshots, List.mem_filterMap, List.mem_eraseDups]
  constructor
  · rintro ⟨hash, other, member, listed⟩
    split at listed
    · cases listed
    · rename_i absent
      obtain ⟨found, known, same⟩ := Option.map_eq_some_iff.mp listed
      cases same
      exact ⟨by rw [known]; exact Option.some_ne_none _, baseHash_eq_none_iff.mpr absent⟩
  · rintro ⟨known, absent⟩
    obtain ⟨hash, found⟩ := Option.ne_none_iff_exists'.mp known
    have member : path ∈ before.map SnapshotEntry.path := by
      by_contra missing
      exact known (baseHash_eq_none_iff.mpr missing)
    refine ⟨hash, path, member, ?_⟩
    rw [if_neg (baseHash_eq_none_iff.mp absent), found]
    rfl

theorem diffSnapshots_records_iff (distinct : (after.map SnapshotEntry.path).Nodup)
    {changes : TreeChanges Text Text} :
    (diffSnapshots before after).Records changes ↔
      changesBetween (baseHash before) (baseHash after) = changes := by
  have written : ∀ path hash, ((path, hash) ∈ (diffSnapshots before after).added ∨ ∃ prior,
            (path, prior, hash) ∈ (diffSnapshots before after).modified) ↔
        changesBetween (baseHash before) (baseHash after) path = some (some hash) := by
    intro path hash
    rw [written_diffSnapshots_iff, changesBetween_eq_some_iff, baseHash_eq_some_iff distinct]
    constructor
    · rintro ⟨entry, member, samePath, same, different⟩
      exact ⟨different, entry, member, samePath, same⟩
    · rintro ⟨different, entry, member, samePath, same⟩
      exact ⟨entry, member, samePath, same, different⟩
  have removed : ∀ path, (∃ hash, (path, hash) ∈ (diffSnapshots before after).removed) ↔
        changesBetween (baseHash before) (baseHash after) path = some none := by
    intro path
    rw [removed_diffSnapshots_iff, changesBetween_eq_some_iff]
  constructor
  · intro records
    funext path
    apply Option.ext
    intro value
    cases value with
    | none => exact (removed path).symm.trans (records.removed path)
    | some hash => exact (written path hash).symm.trans (records.written path hash)
  · rintro rfl
    exact ⟨written, removed⟩

def visibleHash (files : Store) (path : Text) : Option Text :=
  if isServicePath path || isHiddenDataPath path then none
  else (files.latest path).map FsRow.hash

/-- What `visibleTree` answers. -/
def visibleFiles (files : Store) : List FsEntry :=
  (files.listAll []).filter fun entry => !isServicePath entry.path && !isHiddenDataPath entry.path

section

variable {services : SessionServices} {files : Store}

theorem snapshotTree_perm (services : SessionServices) (entries : List FsEntry) :
    (snapshotTree services entries).entries.Perm (entries.map snapshotEntry) :=
  (List.perm_insertionSort _ entries).map snapshotEntry

theorem nodup_snapshotTree :
    ((snapshotTree services (visibleFiles files)).entries.map SnapshotEntry.path).Nodup := by
  have sorted := files.selected_sorted [] []
  have paths : ((visibleFiles files).map FsEntry.path).Nodup := by
    apply List.Nodup.sublist (List.filter_sublist.map FsEntry.path)
    rw [List.Nodup, List.pairwise_map]
    exact sorted.imp fun before => ne_of_lt before
  have renamed : ((visibleFiles files).map snapshotEntry).map
      SnapshotEntry.path = (visibleFiles files).map FsEntry.path := by
    rw [List.map_map]
    rfl
  have permuted := (snapshotTree_perm services (visibleFiles files)).map SnapshotEntry.path
  rw [renamed] at permuted
  exact permuted.nodup_iff.mpr paths

theorem mem_visibleFiles_iff {entry : FsEntry} :
    entry ∈ visibleFiles files ↔ (∃ row, files.latest entry.path = some row ∧ row.entry = entry) ∧
        (isServicePath entry.path || isHiddenDataPath entry.path) = false := by
  rw [visibleFiles, List.mem_filter, Store.listAll, Store.mem_selected_iff,
    ← Bool.not_or, Bool.not_eq_true']
  simp

theorem baseHash_snapshotTree (path : Text) :
    baseHash (snapshotTree services (visibleFiles files)).entries path =
      visibleHash files path := by
  apply Option.ext
  intro hash
  rw [baseHash_eq_some_iff nodup_snapshotTree]
  have members : ∀ entry, entry ∈ (snapshotTree services (visibleFiles files)).entries ↔
        entry ∈ (visibleFiles files).map snapshotEntry :=
    fun entry => (snapshotTree_perm services _).mem_iff
  simp only [members, List.mem_map, exists_exists_and_eq_and]
  unfold visibleHash
  constructor
  · rintro ⟨entry, member, rfl, rfl⟩
    obtain ⟨⟨row, found, same⟩, visible⟩ := mem_visibleFiles_iff.mp member
    have samePath : (snapshotEntry entry).path = entry.path := rfl
    rw [samePath, visible, if_neg (by decide), found, ← same]
    rfl
  · intro found
    split at found
    · cases found
    · rename_i visible
      obtain ⟨row, latest, rfl⟩ := Option.map_eq_some_iff.mp found
      have samePath : row.path = path := (Store.mem_of_latest latest).2
      refine ⟨row.entry, ?_, samePath, rfl⟩
      have entryPath : row.entry.path = path := samePath
      rw [mem_visibleFiles_iff, entryPath]
      exact ⟨⟨row, latest, rfl⟩, Bool.eq_false_iff.mpr visible⟩

end

end Aprovan.Vcs
