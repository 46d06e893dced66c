import Aprovan.Fs.Methods
import Aprovan.Vcs.Tags

/-!
# Restoring a commit

`restoreCommit` writes the versions that a snapshot names as the newest ones,
and a write hashes the text that it is given.  The text of an uploaded version
need not have the hash under which it lies.
-/

namespace Aprovan.Vcs.Restoring

open Aprovan.Library Aprovan.Server Aprovan.Fs

structure TreeSnapshot extends VcsSnapshot where
  distinct : (entries.map SnapshotEntry.path).Nodup

def visibleSnapshot (services : VcsServices) (files : Store) (pathPrefix : Text) :
    TreeSnapshot where
  toVcsSnapshot :=
    buildSnapshot services (visibleEntries files pathPrefix) pathPrefix
  distinct := by
    have paths : ((visibleEntries files pathPrefix).map FsEntry.path).Nodup := by
      apply List.Nodup.sublist (List.filter_sublist.map FsEntry.path)
      rw [List.Nodup, List.pairwise_map]
      exact (files.selected_sorted pathPrefix []).imp fun before => ne_of_lt before
    have permuted := (List.perm_insertionSort
      (fun first second : FsEntry => services.collate first.path second.path = true)
      (visibleEntries files pathPrefix)).map FsEntry.path
    simp only [buildSnapshot, List.map_map]
    exact permuted.nodup_iff.mpr paths

/-- `filter`; an empty field counts as a missing one. -/
structure RestoreFilter where
  (path pathPrefix : Text)

def RestoreFilter.within (filter : RestoreFilter) (path : Text) : Bool :=
  if filter.path ≠ [] then path = filter.path
  else if filter.pathPrefix ≠ [] then underPath path filter.pathPrefix
  else true

/-- What becomes of an entry. -/
inductive Fate where
  | skipped
  | missing
  | restored (pinned : FsRow)

def fate (filter : RestoreFilter) (files : Store) (entry : SnapshotEntry) : Fate :=
  if filter.within entry.path = false then .skipped
  else if (files.read entry.path none).map FsRow.hash = some entry.hash then .skipped
  else
    match files.read entry.path (some entry.hash) with
    | none => .missing
    | some pinned => .restored pinned

/-- The loop's state: the files and the two lists of paths. -/
structure Restored where
  files : Store
  (restored missing : List Text)

/-- One round of the loop; the writes have the times of a clock. -/
def restoreEntry (sha256 : Text → Text) (clock : Nat → Nat)
    (filter : RestoreFilter) (state : Restored) (entry : SnapshotEntry) :
    Restored :=
  match fate filter state.files entry with
  | .skipped => state
  | .missing => { state with missing := state.missing ++ [entry.path] }
  | .restored pinned => { state with
        files := state.files.write sha256 (clock state.restored.length)
          entry.path pinned.content pinned.mimeType none
        restored := state.restored ++ [entry.path] }

def restoreCommit (sha256 : Text → Text) (clock : Nat → Nat)
    (readSnapshot : Text → Option TreeSnapshot) (commit : VcsCommit)
    (filter : RestoreFilter) (files : Store) : Outcome Restored :=
  match readSnapshot commit.snapshot with
  | none => .error (vcsSnapshotMissing commit)
  | some snapshot =>
    .ok (snapshot.entries.foldl (restoreEntry sha256 clock filter) ⟨files, [], []⟩)

/-- Every entry that the filter selects has its hash or is listed as missing,
and nothing else is changed. -/
structure RestoresExactly (snapshot : TreeSnapshot) (filter : RestoreFilter)
    (before : Store) (after : Restored) : Prop where
  reached : ∀ entry ∈ snapshot.entries, filter.within entry.path = true →
    entry.path ∈ after.missing ∨
      (after.files.read entry.path none).map FsRow.hash = some entry.hash
  outside : ∀ path, (path ∈ snapshot.entries.map SnapshotEntry.path →
      filter.within path = false) → ∀ hash, after.files.read path hash = before.read path hash
  missing : ∀ path ∈ after.missing, ∀ hash, after.files.read path hash = before.read path hash

/-- The difference leads from one tree to the other, its lists have no path
in common, and the counts of a commit are their sizes. -/
structure DiffExact (before after : List SnapshotEntry) : Prop where
  applied : ∃ changes, (diffSnapshots before after).Records changes ∧
    changes.override (baseHash before) = baseHash after
  disjoint :
    (((diffSnapshots before after).added.map Prod.fst).Disjoint
        ((diffSnapshots before after).modified.map Prod.fst) ∧
      ((diffSnapshots before after).added.map Prod.fst).Disjoint
        ((diffSnapshots before after).removed.map Prod.fst)) ∧
    ((diffSnapshots before after).modified.map Prod.fst).Disjoint
      ((diffSnapshots before after).removed.map Prod.fst)
  stats : diffStats before after = ⟨(diffSnapshots before after).added.length,
      (diffSnapshots before after).modified.length,
      (diffSnapshots before after).removed.length⟩

/-- The versions that are written again have the hash of their text. -/
def RestoreCondition (sha256 : Text → Text) (snapshot : TreeSnapshot)
    (filter : RestoreFilter) (files : Store) : Prop :=
  ∀ entry ∈ snapshot.entries, filter.within entry.path = true →
    (files.read entry.path none).map FsRow.hash ≠ some entry.hash →
      ∀ pinned ∈ files.read entry.path (some entry.hash), sha256 pinned.content = entry.hash

section

variable {sha256 : Text → Text} {clock : Nat → Nat} {filter : RestoreFilter}
  {entry : SnapshotEntry}

theorem fate_congr {first second : Store} (same : Store.SameAt entry.path first second) :
    fate filter first entry = fate filter second entry := by
  simp only [fate, same.read]

/-- What the files of an entry's path are after the loop. -/
def HasFate (sha256 : Text → Text) (before after : Store) (entry : SnapshotEntry) : Fate → Prop
  | .restored pinned => (after.read entry.path none).map FsRow.hash = some (sha256 pinned.content)
  | _ => Store.SameAt entry.path after before

def isMissing : Fate → Bool
  | .missing => true
  | _ => false

variable {after : Restored}

theorem restoreEntry_round (increasing : StrictMono clock) {state : Restored}
    (done : restoreEntry sha256 clock filter state entry = after)
    (older : ∀ row ∈ state.files.rows, row.updatedAt < clock state.restored.length) :
    (∀ path, path ≠ entry.path → Store.SameAt path after.files state.files) ∧
      HasFate sha256 state.files after.files entry (fate filter state.files entry) ∧
      (∀ row ∈ after.files.rows, row.updatedAt < clock after.restored.length) ∧
      after.missing = state.missing ++
        if isMissing (fate filter state.files entry) then [entry.path]
        else
          [] := by
  subst done
  unfold restoreEntry
  cases fate filter state.files entry with
  | skipped =>
    exact ⟨fun path _ => Store.SameAt.refl path _,
      Store.SameAt.refl _ _, older, by simp [isMissing]⟩
  | missing =>
    exact ⟨fun path _ => Store.SameAt.refl path _,
      Store.SameAt.refl _ _, older, by simp [isMissing]⟩
  | restored pinned =>
    refine ⟨fun path other => Store.SameAt.write_of_ne _ other, ?_, ?_,
      by simp [isMissing]⟩
    · have newest :
          (state.files.write sha256 (clock state.restored.length)
            entry.path pinned.content pinned.mimeType none).latest entry.path = some _ :=
        Store.latest_write_self fun row member _ => (older row member).le
      exact congrArg (Option.map FsRow.hash) newest
    · intro row member
      rw [List.length_append, List.length_singleton]
      have later := increasing (Nat.lt_succ_self state.restored.length)
      rcases Store.mem_rows_write.mp member with ⟨old, _⟩ | isNew
      · exact (older row old).trans later
      · rw [isNew]
        exact later

theorem HasFate.congr {first second before after : Store} {met : Fate}
    (sameBefore : Store.SameAt entry.path first second)
    (sameAfter : Store.SameAt entry.path after before)
    (has : HasFate sha256 first before entry met) :
    HasFate sha256 second after entry met := by
  cases met with
  | restored pinned => exact (congrArg (Option.map FsRow.hash) (sameAfter.read none)).trans has
  | skipped => exact (sameAfter.trans has).trans sameBefore
  | missing => exact (sameAfter.trans has).trans sameBefore

/-- Every round is about another path, so that each entry meets the fate that
it has before the loop. -/
theorem foldl_restoreEntry (increasing : StrictMono clock) {entries : List SnapshotEntry}
    (distinct : (entries.map SnapshotEntry.path).Nodup) {state : Restored}
    (done : entries.foldl (restoreEntry sha256 clock filter) state = after)
    (older : ∀ row ∈ state.files.rows, row.updatedAt < clock state.restored.length) :
    (∀ path, path ∉ entries.map SnapshotEntry.path → Store.SameAt path after.files state.files) ∧
      (∀ entry ∈ entries, HasFate sha256 state.files after.files entry
        (fate filter state.files entry)) ∧
      after.missing = state.missing ++ (entries.filter fun entry =>
          isMissing (fate filter state.files entry)).map
            SnapshotEntry.path := by
  induction entries generalizing state with
  | nil =>
    subst done
    exact ⟨fun path _ => Store.SameAt.refl path _, by simp, by simp⟩
  | cons entry rest ih =>
    rw [List.map_cons, List.nodup_cons] at distinct
    obtain ⟨spares, meets, olderNext, missing⟩ :=
      restoreEntry_round increasing rfl older
    obtain ⟨outside, fates, listed⟩ :=
      ih distinct.2 done olderNext
    have same : ∀ other ∈ rest, Store.SameAt other.path
        (restoreEntry sha256 clock filter state entry).files
        state.files := by
      intro other member
      apply spares
      intro samePath
      apply distinct.1
      rw [← samePath]
      exact List.mem_map_of_mem member
    refine ⟨?_, ?_, ?_⟩
    · intro path absent
      rw [List.map_cons, List.mem_cons, not_or] at absent
      exact (outside path absent.2).trans (spares path absent.1)
    · intro other member
      rcases List.mem_cons.mp member with rfl | later
      · exact meets.congr (Store.SameAt.refl _ _) (outside other.path distinct.1)
      · have held := fates other later
        rw [fate_congr (same other later)] at held
        exact held.congr (same other later) (Store.SameAt.refl _ _)
    · have filtered : (rest.filter fun other => isMissing (fate filter
          (restoreEntry sha256 clock filter state entry).files other)) =
          rest.filter fun other =>
            isMissing (fate filter state.files other) := by
        apply List.filter_congr
        intro other member
        rw [fate_congr (same other member)]
      rw [listed, missing, filtered, List.append_assoc, List.filter_cons]
      by_cases absent : isMissing (fate filter state.files entry) = true
      · simp [absent]
      · simp [absent]

theorem restoresExactly_iff (increasing : StrictMono clock)
    {snapshot : TreeSnapshot} {files : Store}
    (done : snapshot.entries.foldl (restoreEntry sha256 clock filter) ⟨files, [], []⟩ = after)
    (older : ∀ row ∈ files.rows, row.updatedAt < clock 0) :
    RestoresExactly snapshot filter files after ↔
      RestoreCondition sha256 snapshot filter files := by
  obtain ⟨outside, fates, listed⟩ :=
    foldl_restoreEntry increasing snapshot.distinct done older
  have missing_iff : ∀ entry ∈ snapshot.entries, entry.path ∈ after.missing ↔
        isMissing (fate filter files entry) = true := by
    intro entry member
    rw [listed, List.nil_append, List.mem_map]
    constructor
    · rintro ⟨other, selected, samePath⟩
      rw [List.mem_filter] at selected
      have same : other = entry :=
        List.inj_on_of_nodup_map snapshot.distinct selected.1 member samePath
      rw [← same]
      exact selected.2
    · intro absent
      exact ⟨entry, List.mem_filter.mpr ⟨member, absent⟩, rfl⟩
  constructor
  · intro exactly entry member selected changed pinned stored
    have restored : fate filter files entry = .restored pinned := by
      rw [fate, if_neg (by simp [selected]), if_neg changed, stored]
    have held := fates entry member
    rw [restored] at held
    have reached := exactly.reached entry member selected
    rw [missing_iff entry member, restored] at reached
    rcases reached with impossible | reads
    · cases impossible
    · exact Option.some.inj (held.symm.trans reads)
  · intro condition
    refine ⟨?_, ?_, ?_⟩
    · intro entry member selected
      have held := fates entry member
      rw [missing_iff entry member]
      by_cases current : (files.read entry.path none).map FsRow.hash = some entry.hash
      · right
        rw [fate, if_neg (by simp [selected]), if_pos current] at held
        rw [Store.SameAt.read held, current]
      · cases stored : files.read entry.path (some entry.hash) with
        | none =>
          left
          rw [fate, if_neg (by simp [selected]), if_neg current, stored]
          rfl
        | some pinned =>
          right
          rw [fate, if_neg (by simp [selected]), if_neg current, stored] at held
          rw [← condition entry member selected current pinned stored]
          exact held
    · intro path unselected hash
      by_cases listedPath : path ∈ snapshot.entries.map SnapshotEntry.path
      · obtain ⟨entry, member, rfl⟩ := List.mem_map.mp listedPath
        have held := fates entry member
        rw [fate, if_pos (unselected listedPath)] at held
        exact Store.SameAt.read held hash
      · exact (outside path listedPath).read hash
    · intro path absent hash
      have listedPath : path ∈ snapshot.entries.map SnapshotEntry.path := by
        rw [listed, List.nil_append] at absent
        exact (List.filter_sublist.map SnapshotEntry.path).subset absent
      obtain ⟨entry, member, rfl⟩ := List.mem_map.mp listedPath
      have held := fates entry member
      have lost := (missing_iff entry member).mp absent
      cases met : fate filter files entry with
      | missing =>
        rw [met] at held
        exact Store.SameAt.read held hash
      | skipped =>
        rw [met] at lost
        cases lost
      | restored pinned =>
        rw [met] at lost
        cases lost

end

theorem length_filterMap {Value Result : Type} {keep : Value → Bool}
    {select : Value → Option Result} {values : List Value}
    (agree : ∀ value ∈ values, (select value).isSome = keep value) :
    (values.filterMap select).length = (values.filter keep).length := by
  induction values with
  | nil => rfl
  | cons value rest ih =>
    have later := ih fun other member => agree other (List.mem_cons_of_mem value member)
    have here := agree value List.mem_cons_self
    rw [List.filterMap_cons, List.filter_cons, ← here]
    cases select value with
    | none => exact later
    | some result => exact congrArg (· + 1) later

section

variable {before after : List SnapshotEntry} {path : Text}

theorem of_mem_added (added : path ∈ (diffSnapshots before after).added.map Prod.fst) :
    baseHash before path = none ∧ path ∈ after.map SnapshotEntry.path := by
  obtain ⟨change, listed, rfl⟩ := List.mem_map.mp added
  obtain ⟨entry, member, found⟩ := List.mem_filterMap.mp listed
  split at found
  · next absent =>
      cases found
      exact ⟨absent, List.mem_map_of_mem member⟩
  · cases found

theorem of_mem_modified (modified : path ∈ (diffSnapshots before after).modified.map Prod.fst) :
    baseHash before path ≠ none ∧ path ∈ after.map SnapshotEntry.path := by
  obtain ⟨change, listed, rfl⟩ := List.mem_map.mp modified
  obtain ⟨entry, member, found⟩ := List.mem_filterMap.mp listed
  split at found
  · cases found
  · next prior known =>
      split at found
      · cases found
        exact ⟨by simp [known], List.mem_map_of_mem member⟩
      · cases found

theorem of_mem_removed (removed : path ∈ (diffSnapshots before after).removed.map Prod.fst) :
    path ∉ after.map SnapshotEntry.path := by
  obtain ⟨⟨_, hash⟩, listed, rfl⟩ := List.mem_map.mp removed
  exact baseHash_eq_none_iff.mp (removed_diffSnapshots_iff.mp ⟨hash, listed⟩).2

end

theorem diffExact (before : List SnapshotEntry) {after : List SnapshotEntry}
    (distinct : (after.map SnapshotEntry.path).Nodup) :
    DiffExact before after where
  applied := by
    refine ⟨_, (diffSnapshots_records_iff distinct).mpr rfl, ?_⟩
    funext path
    by_cases same : baseHash before path = baseHash after path
    · rw [override_of_none (changesBetween_eq_none_iff.mpr same), same]
    · exact override_of_some (changesBetween_eq_some_iff.mpr ⟨same, rfl⟩)
  disjoint := by
    refine ⟨⟨?_, ?_⟩, ?_⟩
    · intro path added modified
      exact (of_mem_modified modified).1 (of_mem_added added).1
    · intro path added removed
      exact of_mem_removed removed (of_mem_added added).2
    · intro path modified removed
      exact of_mem_removed removed (of_mem_modified modified).2
  stats := by
    have paths : (before.map SnapshotEntry.path).eraseDups.Perm
        (before.map SnapshotEntry.path).dedup := by
      rw [List.perm_ext_iff_of_nodup (nodup_eraseDups _) (List.nodup_dedup _)]
      simp
    unfold diffStats diffSnapshots
    dsimp only
    rw [CommitStats.mk.injEq]
    refine ⟨?_, ?_, ?_⟩
    · refine (length_filterMap ?_).symm
      intro entry _
      show _ = (baseHash before entry.path).isNone
      cases baseHash before entry.path <;> rfl
    · refine (length_filterMap ?_).symm
      intro entry _
      rw [← baseHash]
      cases baseHash before entry.path with
      | none => rfl
      | some prior =>
        by_cases same : prior = entry.hash
        · simp [same]
        · simp [same]
    · rw [← (paths.filter _).length_eq]
      refine (length_filterMap ?_).symm
      intro path member
      rw [List.mem_eraseDups] at member
      have known : baseHash before path ≠ none := fun absent =>
        baseHash_eq_none_iff.mp absent member
      by_cases kept : path ∈ after.map SnapshotEntry.path
      · rw [if_pos kept]
        simp [kept]
      · obtain ⟨hash, found⟩ := Option.ne_none_iff_exists'.mp known
        rw [if_neg kept, found]
        simp [kept]

/-- A restore is exact when the versions that it writes have the hash of
their text, and then only; differences are exact. -/
theorem restoreCommit_exact_iff {sha256 : Text → Text} {clock : Nat → Nat}
    (increasing : StrictMono clock) {readSnapshot : Text → Option TreeSnapshot}
    {commit : VcsCommit} {snapshot : TreeSnapshot}
    (saved : readSnapshot commit.snapshot = some snapshot) (filter : RestoreFilter)
    {files : Store} (older : ∀ row ∈ files.rows, row.updatedAt < clock 0)
    (before : List SnapshotEntry) (after : TreeSnapshot) :
    (∃ restored, restoreCommit sha256 clock readSnapshot commit filter files = .ok restored ∧
        RestoresExactly snapshot filter files restored) ∧
        DiffExact before after.entries ↔
      RestoreCondition sha256 snapshot filter files := by
  unfold restoreCommit
  rw [saved, and_iff_left (diffExact before after.distinct)]
  constructor
  · rintro ⟨restored, returned, exactly⟩
    cases returned
    exact (restoresExactly_iff increasing rfl older).mp exactly
  · intro condition
    exact ⟨_, rfl, (restoresExactly_iff increasing rfl older).mpr condition⟩

/-- The digests of the letter `b` and of the replacement character. -/
def digest (content : Text) : Text :=
  if content = ['b'] then "3e23e8160039594a33894f6564e1b1348bbd7a0088d42c4acb73eeaed59c009d".toList
  else "83d544ccc223c057d2bf80d3f2a32982c32c3c0db8e2674820da5064783fb097".toList

/-- An uploaded byte `ff`, with its digest. -/
def upload : FsRow where
  path := "logo".toList
  hash :=
    "a8100ae6aa1940d0b663bb31cd466142ebbdbd5187131b92d93818987832eb89".toList
  content := ['\uFFFD']
  mimeType := "image/png".toList
  size := 1
  updatedAt := 1
  versioned := true

/-- The letter `b` written over the upload. -/
def overwritten : Store :=
  (Store.putIndex ⟨.dsql, [], Fs.Store.keys_nil⟩ upload).write digest 2
    upload.path ['b'] upload.mimeType none

def snapshotWith (hash : Text) : TreeSnapshot where
  id := "snapshot".toList
  pathPrefix := []
  entries := [⟨upload.path, hash, upload.mimeType, 1⟩]
  distinct := List.nodup_singleton _

def sampleCommit : VcsCommit where
  snapshot := "snapshot".toList
  pathPrefix := []
  parents := []
  message := []
  author := []
  createdAt := 3
  stats := ⟨1, 0, 0⟩
  id := "commit".toList

theorem older_overwritten : ∀ row ∈ overwritten.rows, row.updatedAt < 0 + 3 := by
  decide

theorem restoreCommit_exact_written :
    (∃ restored, restoreCommit digest (· + 3)
            (fun _ => some (snapshotWith (digest ['b']))) sampleCommit
            ⟨[], []⟩ overwritten =
          .ok restored ∧
        RestoresExactly (snapshotWith (digest ['b'])) ⟨[], []⟩ overwritten restored) ∧
      DiffExact [] (snapshotWith upload.hash).entries :=
  (restoreCommit_exact_iff (fun _ _ before => Nat.add_lt_add_right before 3)
    rfl ⟨[], []⟩ older_overwritten [] (snapshotWith upload.hash)).mpr (by
      intro entry member _ changed
      rw [List.mem_singleton.mp member] at changed
      exact absurd (by decide) changed)

/-- The upload is restored as the replacement character. -/
theorem restore_changes_upload :
    ¬ ∃ restored, restoreCommit digest (· + 3) (fun _ => some (snapshotWith upload.hash))
          sampleCommit ⟨[], []⟩ overwritten =
        .ok restored ∧
      RestoresExactly (snapshotWith upload.hash) ⟨[], []⟩ overwritten
        restored := by
  rintro ⟨restored, returned, exactly⟩
  cases returned
  have condition := (restoresExactly_iff (fun _ _ before => Nat.add_lt_add_right before 3) rfl
    older_overwritten).mp exactly
  have hashed := condition _ (List.mem_singleton.mpr rfl) rfl (by decide) upload (by decide)
  exact absurd hashed (by decide)

end Aprovan.Vcs.Restoring
