import Aprovan.Fs.Methods
import Aprovan.Library.PlainObject

/-!
# The tables of the DSQL store

`fs_latest` has the newest version of a file, `fs_files` the versions that are
kept, and the contents are blobs under their hashes.  A transaction changes at
most 3,000 rows, so a statement that would delete more is refused.
-/

namespace Aprovan.Fs.Dsql

open Aprovan.Library

def entryKey (entry : FsEntry) : Text × Text :=
  (entry.path, entry.hash)

structure Tables where
  latest : Keyed FsEntry.path
  files : Keyed entryKey
  blobs : Table Text

def emptyTables : Tables :=
  ⟨Keyed.empty, Keyed.empty, Table.empty⟩

/-- `DSQL_MAX_ROWS_PER_TXN`. -/
def maxRowsPerTransaction : Nat := 3000

/-- `DSQL_MAX_BYTES_PER_TXN`. -/
def maxBytesPerTransaction : Nat := 10 * 1024 * 1024

/-- The batches so far, the last one and its size. -/
structure Chunks (Row : Type) where
  batches : List (List Row)
  batch : List Row
  batchBytes : Nat

/-- One round of `chunkRows`. -/
def chunkRow {Row : Type} (sizeOf : Row → Nat) (maxRows maxBytes : Nat)
    (chunks : Chunks Row) (row : Row) : Chunks Row :=
  if chunks.batch ≠ [] ∧ (maxRows ≤ chunks.batch.length ∨
      maxBytes < chunks.batchBytes + sizeOf row) then
    ⟨chunks.batches ++ [chunks.batch], [row], sizeOf row⟩
  else ⟨chunks.batches, chunks.batch ++ [row], chunks.batchBytes + sizeOf row⟩

def chunkRows {Row : Type} (sizeOf : Row → Nat) (maxRows maxBytes : Nat) (rows : List Row) :
    List (List Row) :=
  let chunks := rows.foldl (chunkRow sizeOf maxRows maxBytes) ⟨[], [], 0⟩
  if chunks.batch = [] then chunks.batches else chunks.batches ++ [chunks.batch]

namespace Tables

variable (tables : Tables)

/-- The rows of `fs_latest` that a listing selects, `ORDER BY path`. -/
def selected (pathPrefix cursor : Text) : List FsEntry :=
  (tables.latest.rows.filter fun entry =>
    (pathPrefix = [] || Store.selects .dsql pathPrefix entry.path) &&
      (cursor = [] || cursor < entry.path)).insertionSort
    fun first second => first.path ≤ second.path

def list (pathPrefix : Text) (limit : Option Int) (cursor : Text) : Option Store.FsListPage :=
  let all := tables.selected pathPrefix cursor
  match limit with
  | none => some { entries := all, cursor := none }
  | some limit =>
    match Store.limited .dsql all limit with
    | none => none
    | some rows =>
      if limit < rows.length then
        let page := Store.sliceFront rows limit
        match page.getLast? with
        | none => none
        | some last => some { entries := page, cursor := some last.path }
      else some { entries := rows, cursor := none }

/-- `ORDER BY updated_at DESC`. -/
def listVersions (path : Text) : List FsEntry :=
  (tables.files.rows.filter (·.path = path)).insertionSort
    fun first second => second.updatedAt ≤ first.updatedAt

/-- The row that a read finds; an empty hash is not pinned. -/
def readRow (path : Text) (hash : Option Text) : Option FsEntry :=
  match hash with
  | none => tables.latest.find? path
  | some hash =>
    if hash = [] then tables.latest.find? path else tables.files.find? (path, hash)

def read (path : Text) (hash : Option Text) : StoreResult :=
  match tables.readRow path hash with
  | none => .found none
  | some entry =>
    match tables.blobs.get entry.hash with
    | none => .thrown
    | some content => .found (some { entry with content := content })

/-- `DELETE FROM fs_latest WHERE path = ANY(paths)`. -/
def deleteLatest (paths : List Text) : Option Tables :=
  if tables.latest.rows.countP (·.path ∈ paths) ≤ maxRowsPerTransaction then
    some { tables with latest := tables.latest.keep (·.path ∉ paths) }
  else none

/-- `DELETE FROM fs_files WHERE path = ANY(paths)`. -/
def deleteFiles (paths : List Text) : Option Tables :=
  if tables.files.rows.countP (·.path ∈ paths) ≤ maxRowsPerTransaction then
    some { tables with files := tables.files.keep (·.path ∉ paths) }
  else none

/-- Both, one after the other. -/
def deletePaths (paths : List Text) : Bool × Tables :=
  match tables.deleteLatest paths with
  | none => (false, tables)
  | some first =>
    match first.deleteFiles paths with
    | none => (false, first)
    | some second => (true, second)

/-- `putIndex`: whether it returns, and the tables. -/
def putIndex (entry : FsEntry) (versioned : Bool) : Bool × Tables :=
  let first := { tables with latest := tables.latest.put entry }
  if versioned then (true, { first with files := first.files.put entry })
  else
    match first.deleteFiles [entry.path] with
    | none => (false, first)
    | some second => (true, second)

def write (sha256 : Text → Text) (now : Nat) (tables : Tables) (path content : Text)
    (mimeType : Option Text) (versioned : Option Bool) : StoreResult × Tables :=
  let file := writtenFile sha256 now path content mimeType
  let stored := { tables with blobs := tables.blobs.put file.hash content }
  let (returns, next) := stored.putIndex file.toFsEntry (versioned.getD (!isServicePath path))
  (if returns then .written file else .thrown, next)

def remove (path : Text) : StoreResult × Tables :=
  let (returns, next) := tables.deletePaths [path]
  (if returns then .removed (0 < tables.latest.rows.countP (·.path = path))
  else .thrown, next)

/-- The loop of `removePrefix`. -/
def removeBatches (tables : Tables) (removed : Nat) : List (List FsEntry) → StoreResult × Tables
  | [] => (.count removed, tables)
  | batch :: rest =>
    let (returns, next) := tables.deletePaths (batch.map FsEntry.path)
    if returns then removeBatches next (removed + batch.length) rest else (.thrown, next)

/-- The listing is one page, since it has no limit. -/
def removePrefix (jsonBytes : FsEntry → Nat) (tables : Tables) (pathPrefix : Text) :
    StoreResult × Tables :=
  tables.removeBatches 0 (chunkRows jsonBytes 500 maxBytesPerTransaction
    (tables.selected pathPrefix []))

def serve (sha256 : Text → Text) (jsonBytes : FsEntry → Nat)
    (tables : Tables) (request : StoreRequest) : StoreResult × Tables :=
  match request.method with
  | .list pathPrefix limit cursor =>
    (match tables.list pathPrefix limit cursor with
      | some page => .page page
      | none => .thrown, tables)
  | .listVersions path => (.versions (tables.listVersions path), tables)
  | .read path hash => (tables.read path hash, tables)
  | .write path content mimeType versioned =>
    tables.write sha256 request.now path content mimeType versioned
  | .remove path => tables.remove path
  | .removePrefix pathPrefix => tables.removePrefix jsonBytes pathPrefix

end Tables

/-- The newest versions, the versions that are kept, and the contents of the
rows of a store. -/
structure Represents (tables : Tables) (store : Store) : Prop where
  backend : store.backend = .dsql
  latest : ∀ path, tables.latest.find? path = (store.latest path).map FsRow.entry
  files : ∀ path hash, tables.files.find? (path, hash) = (store.version path hash).map FsRow.entry
  blobs : ∀ row ∈ store.rows, tables.blobs.get row.hash = some row.content

section

variable {tables : Tables} {store : Store}
  (represents : Represents tables store)

include represents

theorem Represents.mem_latest_iff {entry : FsEntry} :
    entry ∈ tables.latest.rows ↔
      ∃ row, store.latest entry.path = some row ∧ row.entry = entry := by
  rw [← Option.map_eq_some_iff, ← represents.latest, Keyed.find?_eq_some_iff, and_iff_left rfl]

theorem Represents.mem_files_iff {entry : FsEntry} {path : Text} :
    entry ∈ tables.files.rows ∧ entry.path = path ↔
      ∃ row ∈ store.versionRows path, row.entry = entry := by
  have found : entry ∈ tables.files.rows ↔
      tables.files.find? (entry.path, entry.hash) = some entry := by
    rw [Keyed.find?_eq_some_iff]
    exact (and_iff_left rfl).symm
  rw [found, represents.files, Option.map_eq_some_iff]
  constructor
  · intro held
    obtain ⟨⟨row, version, same⟩, own⟩ := held
    obtain ⟨member, samePath, _, kept⟩ := Store.version_eq_some_iff.mp version
    refine ⟨row, ?_, same⟩
    rw [Store.versionRows, List.mem_filter]
    simp only [Bool.and_eq_true, Bool.or_eq_true, decide_eq_true_eq]
    exact ⟨member, samePath.trans own, kept⟩
  · intro held
    obtain ⟨row, member, same⟩ := held
    rw [Store.versionRows, List.mem_filter] at member
    simp only [Bool.and_eq_true, Bool.or_eq_true, decide_eq_true_eq] at member
    subst same
    refine ⟨⟨row, ?_, rfl⟩, member.2.1⟩
    exact Store.version_eq_some_iff.mpr ⟨member.1, rfl, rfl, member.2.2⟩

theorem Represents.selected (pathPrefix cursor : Text) :
    tables.selected pathPrefix cursor = store.selected pathPrefix cursor := by
  have increasing := store.selected_sorted pathPrefix cursor
  unfold Tables.selected
  apply insertionSort_eq_of_mem_iff
  · exact (List.Nodup.of_map _ tables.latest.keys).filter _
  · exact increasing.imp fun before => by
      intro same
      rw [same] at before
      exact lt_irrefl _ before
  · exact increasing.imp fun before => le_of_lt before
  · intro first firstMember second secondMember forth back
    have nodup : ((store.selected pathPrefix cursor).map FsEntry.path).Nodup := by
      rw [List.Nodup, List.pairwise_map]
      exact increasing.imp fun before => ne_of_lt before
    exact List.inj_on_of_nodup_map nodup firstMember secondMember (le_antisymm forth back)
  · intro entry
    rw [List.mem_filter, represents.mem_latest_iff, Store.mem_selected_iff, represents.backend]
    simp only [Bool.and_eq_true, Bool.or_eq_true, decide_eq_true_eq]

theorem Represents.list (pathPrefix : Text) (limit : Option Int) (cursor : Text) :
    tables.list pathPrefix limit cursor = store.list pathPrefix limit cursor := by
  have sameRows := represents.selected pathPrefix cursor
  have sameBackend := represents.backend
  cases limit with
  | none => simp only [Tables.list, Store.list, sameRows]
  | some limit =>
    cases selected : Store.limited .dsql (store.selected pathPrefix cursor) limit with
    | none => simp only [Tables.list, Store.list, sameRows, sameBackend, selected]
    | some rows =>
      by_cases more : limit < rows.length
      · cases last : (Store.sliceFront rows limit).getLast? <;>
          simp only [Tables.list, Store.list, sameRows, sameBackend, selected, if_pos more, last]
      · simp only [Tables.list, Store.list, sameRows, sameBackend, selected, if_neg more]

theorem Represents.listVersions (chronological : store.Chronological) (path : Text) :
    tables.listVersions path = store.listVersions path := by
  have inOrder : (store.versionRows path).reverse.Pairwise
      fun first second => second.updatedAt < first.updatedAt := by
    rw [List.pairwise_reverse]
    exact List.Pairwise.filter _ chronological
  have strict : ((store.versionRows path).reverse.map FsRow.entry).Pairwise fun first second =>
        second.updatedAt < first.updatedAt :=
    List.pairwise_map.mpr inOrder
  rw [Store.listVersions_eq_reverse chronological]
  unfold Tables.listVersions
  apply insertionSort_eq_of_mem_iff
  · exact (List.Nodup.of_map _ tables.files.keys).filter _
  · exact strict.imp fun before => by
      intro same
      rw [same] at before
      exact lt_irrefl _ before
  · exact strict.imp fun before => le_of_lt before
  · intro first firstMember second secondMember forth back
    have nodup : (((store.versionRows path).reverse.map FsRow.entry).map
        FsEntry.updatedAt).Nodup := by
      rw [List.Nodup, List.pairwise_map]
      exact strict.imp fun before => (ne_of_lt before).symm
    exact List.inj_on_of_nodup_map nodup firstMember secondMember (le_antisymm back forth)
  · intro entry
    rw [List.mem_filter, decide_eq_true_eq, represents.mem_files_iff, List.mem_map]
    simp only [List.mem_reverse]

theorem Represents.read (path : Text) (hash : Option Text) :
    tables.read path hash = .found ((store.read path hash).map FsRow.file) := by
  have sameRow : tables.readRow path hash = (store.read path hash).map FsRow.entry := by
    unfold Tables.readRow Store.read
    cases hash with
    | none => exact represents.latest path
    | some hash =>
      dsimp only
      by_cases empty : hash = []
      · rw [if_pos empty, if_pos empty]
        exact represents.latest path
      · rw [if_neg empty, if_neg empty]
        exact represents.files path hash
  unfold Tables.read
  rw [sameRow]
  cases found : store.read path hash with
  | none => rfl
  | some row =>
    have blob := represents.blobs row (Store.mem_of_read found).1
    rw [Option.map_some]
    show (match tables.blobs.get row.hash with
      | none => StoreResult.thrown
      | some content => .found (some { row.entry with content := content }))
        = _
    rw [blob]
    rfl

end

section

variable {tables : Tables} {store : Store}

theorem Represents.keep (represents : Represents tables store) (kept : Text → Bool) :
    Represents { tables with
          latest := tables.latest.keep fun entry => kept entry.path
          files := tables.files.keep fun entry => kept entry.path }
      (store.keep fun row => kept row.path) := by
  refine ⟨represents.backend, ?_, ?_, ?_⟩
  · intro path
    rw [Store.latest_keep_path]
    refine (Keyed.find?_keep_key tables.latest kept path).trans ?_
    rw [represents.latest]
    by_cases stays : kept path = true
    · rw [if_pos stays, if_pos stays]
    · rw [if_neg stays, if_neg stays, Option.map_none]
  · intro path hash
    rw [Store.version_keep_path]
    refine (Keyed.find?_keep_key tables.files (fun key => kept key.1) (path, hash)).trans ?_
    rw [represents.files]
    by_cases stays : kept path = true
    · rw [if_pos stays, if_pos stays]
    · rw [if_neg stays, if_neg stays, Option.map_none]
  · intro row member
    exact represents.blobs row (List.mem_filter.mp member).1

/-- The rows under some paths are few enough for one transaction. -/
structure Tables.Fits (tables : Tables) (paths : List Text) : Prop where
  latest : tables.latest.rows.countP (·.path ∈ paths) ≤ maxRowsPerTransaction
  files : tables.files.rows.countP (·.path ∈ paths) ≤ maxRowsPerTransaction

variable {paths : List Text}

theorem deletePaths_of_fits (fits : tables.Fits paths) :
    tables.deletePaths paths = (true, { tables with
        latest := tables.latest.keep (·.path ∉ paths)
        files := tables.files.keep (·.path ∉ paths) }) := by
  have first : tables.deleteLatest paths = some {
      tables with latest := tables.latest.keep (·.path ∉ paths) } :=
    if_pos fits.latest
  have second : Tables.deleteFiles {
      tables with latest := tables.latest.keep (·.path ∉ paths) } paths =
      some { tables with
          latest := tables.latest.keep (·.path ∉ paths)
          files := tables.files.keep (·.path ∉ paths) } :=
    if_pos fits.files
  simp only [Tables.deletePaths, first, second]

theorem Tables.Fits.keep (fits : tables.Fits paths) (kept : FsEntry → Bool) :
    Tables.Fits { tables with
        latest := tables.latest.keep kept
        files := tables.files.keep kept } paths :=
  ⟨(List.Sublist.countP_le List.filter_sublist).trans fits.latest,
    (List.Sublist.countP_le List.filter_sublist).trans fits.files⟩

theorem countP_le_length_of_nodup {rows : List FsEntry}
    (nodup : ((rows.filter (·.path ∈ paths)).map FsEntry.path).Nodup) :
    rows.countP (·.path ∈ paths) ≤ paths.length := by
  rw [List.countP_eq_length_filter, ← List.length_map (f := FsEntry.path)]
  apply (List.subperm_of_subset nodup _).length_le
  intro path member
  obtain ⟨entry, inside, rfl⟩ := List.mem_map.mp member
  exact of_decide_eq_true (List.mem_filter.mp inside).2

theorem countP_latest_le (tables : Tables) (paths : List Text) :
    tables.latest.rows.countP (·.path ∈ paths) ≤ paths.length :=
  countP_le_length_of_nodup (tables.latest.keys.sublist (List.filter_sublist.map FsEntry.path))

theorem Represents.countP_files (represents : Represents tables store) (path : Text) :
    tables.files.rows.countP (·.path = path) = (store.versionRows path).length := by
  have rearranged : (tables.files.rows.filter (·.path = path)).Perm
      ((store.versionRows path).map FsRow.entry) := by
    rw [List.perm_ext_iff_of_nodup]
    · intro entry
      rw [List.mem_filter, decide_eq_true_eq, represents.mem_files_iff, List.mem_map]
    · exact (List.Nodup.of_map _ tables.files.keys).filter _
    · apply List.Nodup.of_map entryKey
      rw [List.map_map]
      exact store.keys.sublist (List.filter_sublist.map FsRow.key)
  rw [List.countP_eq_length_filter, rearranged.length_eq, List.length_map]

theorem represents_remove (represents : Represents tables store) {path : Text}
    (fits : (store.versionRows path).length ≤ maxRowsPerTransaction) :
    (tables.remove path).1 = .removed (store.remove path).1 ∧
      Represents (tables.remove path).2 (store.remove path).2 := by
  have single : ∀ entry : FsEntry, decide (entry.path ∈ [path]) = decide (entry.path = path) := by
    intro entry
    simp only [List.mem_singleton]
  have few : tables.Fits [path] := by
    constructor
    · exact (countP_latest_le tables [path]).trans (show 1 ≤ 3000 by omega)
    · simp only [single]
      rw [represents.countP_files]
      exact fits
  have kept := represents.keep fun other => other ∉ [path]
  have same : (store.keep fun row => row.path ∉ [path]) = (store.remove path).2 := by
    simp only [Store.remove, List.mem_singleton, ne_eq]
  rw [same] at kept
  unfold Tables.remove
  rw [deletePaths_of_fits few]
  dsimp only
  constructor
  · rw [if_pos rfl]
    congr 1
    unfold Store.remove
    dsimp only
    rw [decide_eq_decide, List.countP_pos_iff, ← Store.latest_isSome_iff]
    constructor
    · intro present
      obtain ⟨entry, member, own⟩ := present
      obtain ⟨row, found, _⟩ := represents.mem_latest_iff.mp member
      rw [of_decide_eq_true own] at found
      exact ⟨row, found⟩
    · intro present
      obtain ⟨row, found⟩ := present
      have own : row.entry.path = path := (Store.mem_of_latest found).2
      refine ⟨row.entry, ?_, decide_eq_true own⟩
      rw [represents.mem_latest_iff, own]
      exact ⟨row, found, rfl⟩
  · exact kept

theorem foldl_chunkRow {Row : Type} (sizeOf : Row → Nat) {maxRows : Nat} (maxBytes : Nat)
    (positive : 0 < maxRows) (rows : List Row) (chunks : Chunks Row)
    (short : ∀ batch ∈ chunks.batch :: chunks.batches, batch.length ≤ maxRows) :
    let finished := rows.foldl (chunkRow sizeOf maxRows maxBytes) chunks
    finished.batches.flatten ++ finished.batch = chunks.batches.flatten ++ chunks.batch ++ rows ∧
      ∀ batch ∈ finished.batch :: finished.batches, batch.length ≤ maxRows := by
  induction rows generalizing chunks with
  | nil => exact ⟨(List.append_nil _).symm, short⟩
  | cons row rest ih =>
    rw [List.foldl_cons]
    by_cases full : chunks.batch ≠ [] ∧ (maxRows ≤ chunks.batch.length ∨
        maxBytes < chunks.batchBytes + sizeOf row)
    · have next : chunkRow sizeOf maxRows maxBytes chunks row =
          ⟨chunks.batches ++ [chunks.batch], [row], sizeOf row⟩ :=
        if_pos full
      rw [next]
      have later := ih
        ⟨chunks.batches ++ [chunks.batch], [row], sizeOf row⟩ (by
          intro batch member
          simp only [List.mem_cons, List.mem_append, List.not_mem_nil, or_false] at member
          rcases member with rfl | older | rfl
          · exact positive
          · exact short batch (List.mem_cons_of_mem _ older)
          · exact short _ List.mem_cons_self)
      refine ⟨later.1.trans ?_, later.2⟩
      simp only [List.flatten_append, List.flatten_cons, List.flatten_nil,
        List.append_nil, List.append_assoc, List.cons_append,
        List.nil_append]
    · have next : chunkRow sizeOf maxRows maxBytes chunks row =
          ⟨chunks.batches, chunks.batch ++ [row], chunks.batchBytes + sizeOf row⟩ :=
        if_neg full
      have room : chunks.batch.length < maxRows := by
        by_cases empty : chunks.batch = []
        · rw [empty]
          exact positive
        · have notLong : ¬ maxRows ≤ chunks.batch.length :=
            fun long => full ⟨empty, Or.inl long⟩
          omega
      rw [next]
      have later := ih ⟨chunks.batches, chunks.batch ++ [row],
          chunks.batchBytes + sizeOf row⟩ (by
          intro batch member
          rcases List.mem_cons.mp member with rfl | older
          · rw [List.length_append, List.length_singleton]
            omega
          · exact short batch (List.mem_cons_of_mem _ older))
      refine ⟨later.1.trans ?_, later.2⟩
      simp only [List.append_assoc, List.cons_append, List.nil_append]

theorem flatten_chunkRows {Row : Type} (sizeOf : Row → Nat) {maxRows : Nat} (maxBytes : Nat)
    (positive : 0 < maxRows) (rows : List Row) :
    (chunkRows sizeOf maxRows maxBytes rows).flatten = rows ∧
      ∀ batch ∈ chunkRows sizeOf maxRows maxBytes rows, batch.length ≤ maxRows := by
  obtain ⟨whole, short⟩ := foldl_chunkRow sizeOf maxBytes positive
    rows ⟨[], [], 0⟩ (by
      intro batch member
      rw [List.mem_singleton.mp member]
      exact Nat.zero_le maxRows)
  unfold chunkRows
  dsimp only
  split
  · rename_i empty
    rw [empty, List.append_nil] at whole
    exact ⟨whole, fun batch member => short batch (List.mem_cons_of_mem _ member)⟩
  · constructor
    · rw [List.flatten_append, List.flatten_singleton]
      exact whole
    · intro batch member
      rcases List.mem_append.mp member with older | last
      · exact short batch (List.mem_cons_of_mem _ older)
      · rw [List.mem_singleton.mp last]
        exact short _ List.mem_cons_self

theorem represents_removeBatches (represents : Represents tables store)
    (batches : List (List FsEntry)) (removed : Nat)
    (fits : ∀ batch ∈ batches, tables.Fits (batch.map FsEntry.path)) :
    let finished := tables.removeBatches removed batches
    finished.1 = .count (removed + batches.flatten.length) ∧
      Represents finished.2 (store.keep fun row =>
        row.path ∉ batches.flatten.map FsEntry.path) := by
  induction batches generalizing tables store removed with
  | nil =>
    refine ⟨rfl, ?_⟩
    have same : (store.keep fun row => decide (row.path ∉
        ([] : List (List FsEntry)).flatten.map FsEntry.path)) = store := by
      cases store
      simp [Store.keep]
    rw [same]
    exact represents
  | cons batch rest ih =>
    have first := fits batch List.mem_cons_self
    have kept := represents.keep fun path => path ∉ batch.map FsEntry.path
    obtain ⟨counted, later⟩ := ih kept (removed + batch.length) fun other member =>
        (fits other (List.mem_cons_of_mem batch member)).keep _
    have step : tables.removeBatches removed (batch :: rest) = Tables.removeBatches { tables with
            latest := tables.latest.keep (·.path ∉ batch.map FsEntry.path)
            files := tables.files.keep (·.path ∉ batch.map FsEntry.path) }
          (removed + batch.length) rest := by
      rw [Tables.removeBatches, deletePaths_of_fits first]
      rfl
    have same : ((store.keep fun row => row.path ∉
          batch.map FsEntry.path).keep fun row => row.path ∉ rest.flatten.map FsEntry.path) =
        store.keep fun row => row.path ∉ (batch :: rest).flatten.map FsEntry.path := by
      cases store
      simp only [Store.keep, List.filter_filter, Store.mk.injEq, true_and]
      apply List.filter_congr
      intro row _
      rw [List.flatten_cons, List.map_append, ← Bool.decide_and,
        decide_eq_decide, List.mem_append, not_or, and_comm]
    dsimp only
    rw [step, ← same, List.flatten_cons, List.length_append, ← Nat.add_assoc]
    exact ⟨counted, later⟩

def OneVersionEach (store : Store) (pathPrefix : Text) : Prop :=
  ((store.rows.filter fun row => Store.clears .dsql pathPrefix row.path).map FsRow.path).Nodup

variable {pathPrefix : Text}

theorem mem_selected_path_iff (backend : store.backend = .dsql) {path : Text} :
    path ∈ (store.selected pathPrefix []).map FsEntry.path ↔
      path ∈ store.paths ∧ Store.clears .dsql pathPrefix path = true := by
  rw [List.mem_map]
  refine Store.mem_listAll_path_iff.trans ?_
  rw [backend, Store.clears, Bool.or_eq_true, decide_eq_true_eq]

theorem Represents.fits_batch (represents : Represents tables store)
    (single : OneVersionEach store pathPrefix) {batch : List FsEntry}
    (within : ∀ entry ∈ batch, entry ∈ store.selected pathPrefix []) (short : batch.length ≤ 500) :
    tables.Fits (batch.map FsEntry.path) := by
  have few : (batch.map FsEntry.path).length ≤ maxRowsPerTransaction := by
    rw [List.length_map]
    exact short.trans (show 500 ≤ 3000 by omega)
  have rowOf : ∀ entry ∈ tables.files.rows.filter (·.path ∈ batch.map FsEntry.path),
      ∃ row ∈ store.rows.filter fun row =>
        Store.clears .dsql pathPrefix row.path, row.entry = entry := by
    intro entry member
    have inside := List.mem_filter.mp member
    have listed := of_decide_eq_true inside.2
    obtain ⟨other, inBatch, samePath⟩ := List.mem_map.mp listed
    have cleared := ((mem_selected_path_iff represents.backend).mp
      (List.mem_map_of_mem (within other inBatch))).2
    obtain ⟨row, version, same⟩ :=
      represents.mem_files_iff.mp ⟨inside.1, samePath.symm⟩
    have parts := List.mem_filter.mp version
    have own : row.path = other.path := by simpa using (Bool.and_eq_true_iff.mp parts.2).1
    refine ⟨row, List.mem_filter.mpr ⟨parts.1, ?_⟩, same⟩
    rw [own]
    exact cleared
  refine ⟨(countP_latest_le tables _).trans few, ?_⟩
  apply (countP_le_length_of_nodup _).trans few
  apply List.Nodup.map_on
  · intro first firstMember second secondMember same
    obtain ⟨firstRow, firstInside, rfl⟩ := rowOf first firstMember
    obtain ⟨secondRow, secondInside, rfl⟩ := rowOf second secondMember
    have sameRow : firstRow = secondRow :=
      List.inj_on_of_nodup_map single firstInside secondInside same
    rw [sameRow]
  · exact (List.Nodup.of_map _ tables.files.keys).filter _

theorem represents_removePrefix (represents : Represents tables store)
    (jsonBytes : FsEntry → Nat) (single : OneVersionEach store pathPrefix) :
    let finished := tables.removePrefix jsonBytes pathPrefix
    finished.1 = .count (store.removePrefix pathPrefix).1 ∧
      Represents finished.2 (store.removePrefix pathPrefix).2 := by
  obtain ⟨whole, short⟩ := flatten_chunkRows jsonBytes
    maxBytesPerTransaction (show 0 < 500 by omega)
    (store.selected pathPrefix [])
  obtain ⟨counted, kept⟩ := represents_removeBatches represents
    (chunkRows jsonBytes 500 maxBytesPerTransaction (store.selected pathPrefix [])) 0 (by
    intro batch member
    apply represents.fits_batch single _ (short batch member)
    intro entry inside
    rw [← whole]
    exact List.mem_flatten_of_mem member inside)
  rw [whole] at counted kept
  unfold Tables.removePrefix
  rw [represents.selected]
  have rearranged : ((store.selected pathPrefix []).map FsEntry.path).Perm
      ((store.rows.filter fun row =>
        Store.clears .dsql pathPrefix row.path).map FsRow.path) := by
    rw [List.perm_ext_iff_of_nodup]
    · intro path
      rw [mem_selected_path_iff represents.backend, Store.mem_paths, List.mem_map]
      simp only [List.mem_filter]
      constructor
      · intro held
        obtain ⟨⟨row, member, rfl⟩, cleared⟩ := held
        exact ⟨row, ⟨member, cleared⟩, rfl⟩
      · intro held
        obtain ⟨row, ⟨member, cleared⟩, rfl⟩ := held
        exact ⟨⟨row, member, rfl⟩, cleared⟩
    · rw [List.Nodup, List.pairwise_map]
      exact (store.selected_sorted pathPrefix []).imp fun before => ne_of_lt before
    · exact single
  constructor
  · rw [counted]
    have lengths := rearranged.length_eq
    rw [List.length_map] at lengths
    simp only [Store.removePrefix, represents.backend]
    rw [List.dedup_eq_self.mpr single, ← lengths, Nat.zero_add]
  · have same : (store.keep fun row => row.path ∉
        (store.selected pathPrefix []).map FsEntry.path) =
        (store.removePrefix pathPrefix).2 := by
      simp only [Store.removePrefix, Store.keep, Store.mk.injEq, true_and]
      apply List.filter_congr
      intro row member
      have listed : row.path ∈ (store.selected pathPrefix []).map FsEntry.path ↔
          Store.clears .dsql pathPrefix row.path = true := by
        rw [mem_selected_path_iff represents.backend,
          and_iff_right (Store.mem_paths.mpr ⟨row, member, rfl⟩)]
      rw [represents.backend, decide_not]
      simp only [listed, Bool.decide_eq_true]
    rw [← same]
    exact kept

end

section

variable {tables : Tables} {store : Store} {sha256 : Text → Text}
  {path content : Text}

/-- No other file has the digest of the content with another content. -/
def NoCollision (sha256 : Text → Text) (store : Store) (path content : Text) : Prop :=
  ∀ row ∈ store.rows, row.hash = sha256 content → row.content = content ∨ row.path = path

theorem represents_write (represents : Represents tables store)
    (now : Nat) (mimeType : Option Text) {versioned : Option Bool}
    (minted : versioned.getD (!isServicePath path) = true)
    (noCollision : NoCollision sha256 store path content) :
    let finished := tables.write sha256 now path content mimeType versioned
    finished.1 = .written (writtenFile sha256 now path content mimeType) ∧
      Represents finished.2 (store.write sha256 now path content
        (mimeType.getD "text/plain".toList) versioned) := by
  have returned : tables.write sha256 now path content mimeType versioned =
      (.written (writtenFile sha256 now path content mimeType), {
        latest := tables.latest.put (writtenFile sha256 now path content mimeType).toFsEntry
        files := tables.files.put (writtenFile sha256 now path content mimeType).toFsEntry
        blobs := tables.blobs.put (sha256 content) content }) := by
    unfold Tables.write
    rw [minted]
    rfl
  dsimp only
  rw [returned]
  refine ⟨rfl, represents.backend, ?_, ?_, ?_⟩
  · intro other
    by_cases own : path = other
    · subst own
      rw [Store.latest_write_dsql represents.backend]
      exact Keyed.find?_put_self tables.latest _
    · refine (Keyed.find?_put_of_ne tables.latest own).trans ?_
      rw [represents.latest]
      congr 1
      exact (Store.read_write_of_ne (Ne.symm own) none).symm
  · intro other hash
    rw [Store.version_write minted]
    by_cases own : (path, sha256 content) = (other, hash)
    · rw [if_pos own, ← own]
      exact Keyed.find?_put_self tables.files _
    · rw [if_neg own, ← represents.files]
      exact Keyed.find?_put_of_ne tables.files own
  · intro row member
    rcases Store.mem_rows_write.mp member with ⟨old, survives⟩ | same
    · by_cases hash : row.hash = sha256 content
      · have stays : row.content = content := by
          rcases noCollision row old hash with equal | own
          · exact equal
          · simp [Store.survivesWrite, own, hash] at survives
        rw [hash, stays]
        exact Table.get_put_self tables.blobs _ _
      · rw [← represents.blobs row old]
        exact Table.get_put_of_ne tables.blobs content hash
    · rw [same]
      exact Table.get_put_self tables.blobs _ _

end

/-- A listing selects what lies at or below the prefix, whatever letters that
has, and a removal of the prefix leaves the rest. -/
theorem dsql_prefix_exact {tables : Tables} {store : Store} {pathPrefix : Text}
    (represents : Represents tables store) (nonempty : pathPrefix ≠ [])
    (jsonBytes : FsEntry → Nat) (single : OneVersionEach store pathPrefix) (path : Text) :
    (path ∈ (tables.selected pathPrefix []).map FsEntry.path ↔
      path ∈ (tables.selected [] []).map FsEntry.path ∧ underPath path pathPrefix = true) ∧
    (path ∈ ((tables.removePrefix jsonBytes pathPrefix).2.selected [] []).map FsEntry.path ↔
      path ∈ (tables.selected [] []).map FsEntry.path ∧ underPath path pathPrefix = false) := by
  obtain ⟨_, kept⟩ := represents_removePrefix represents jsonBytes single
  simp only [represents.selected, kept.selected, mem_selected_path_iff represents.backend,
    mem_selected_path_iff kept.backend, Store.mem_paths_removePrefix]
  simp [represents.backend, Store.clears, nonempty, Store.selects_dsql]

theorem dsql_prefix_exact_written :
    "a_b/c".toList ∈ (((emptyTables.write id 0 "a_b/c".toList [] none (some true)).2.removePrefix
      (fun _ => 100) "a%b".toList).2.selected [] []).map FsEntry.path := by
  have written := (@represents_write emptyTables ⟨.dsql, [], Store.keys_nil⟩ id
    "a_b/c".toList [] ⟨rfl, fun _ => rfl, fun _ _ => rfl, by simp⟩ 0 none (some true) rfl
    (by simp [NoCollision])).2
  exact (dsql_prefix_exact written (by decide) (fun _ => 100)
    (by unfold OneVersionEach; decide) _).2.mpr (by decide)

end Aprovan.Fs.Dsql
