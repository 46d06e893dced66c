import Aprovan.Fs.Path
import Aprovan.Library.Like

/-!
# The workspace file store

One workspace's file table, under either backend.  A write appends a `(path,
hash)` version; reads default to the newest one, which DSQL keeps in a table of
its own: here it is the row written last.  The backends select a subtree by
different `LIKE` statements.
-/

namespace Aprovan.Fs

open Aprovan.Library

inductive Backend where
  | sqlite
  | dsql
  deriving DecidableEq

/-- The metadata of a file version. -/
structure FsEntry where
  (path hash mimeType : Text)
  (size updatedAt : Nat)
  deriving DecidableEq

/-- A stored version of a file. -/
structure FsRow where
  (path hash content mimeType : Text)
  (size updatedAt : Nat)
  versioned : Bool
  deriving DecidableEq

def FsRow.entry (row : FsRow) : FsEntry where
  path := row.path
  hash := row.hash
  mimeType := row.mimeType
  size := row.size
  updatedAt := row.updatedAt

/-- The primary key of the version table. -/
def FsRow.key (row : FsRow) : Text × Text :=
  (row.path, row.hash)

/-- The file table of one workspace, oldest write first. -/
structure Store where
  backend : Backend
  rows : List FsRow
  keys : (rows.map FsRow.key).Nodup

namespace Store

theorem keys_nil : (([] : List FsRow).map FsRow.key).Nodup :=
  List.nodup_nil

def keep (store : Store) (condition : FsRow → Bool) : Store where
  backend := store.backend
  rows := store.rows.filter condition
  keys := store.keys.sublist (List.filter_sublist.map FsRow.key)

def paths (store : Store) : List Text :=
  store.rows.map FsRow.path

variable {store : Store} {path : Text}

theorem mem_paths : path ∈ store.paths ↔ ∃ row ∈ store.rows, row.path = path := by
  simp [paths]

variable {condition : FsRow → Bool}

@[simp]
theorem mem_paths_keep :
    path ∈ (store.keep condition).paths ↔
      ∃ row ∈ store.rows, condition row = true ∧ row.path = path := by
  simp [paths, keep, and_assoc]

/-- SQLite's `LIKE` compares ASCII letters without case. -/
def sameLetter : Backend → Char → Char → Bool
  | .sqlite, left, right => left.toLower = right.toLower
  | .dsql, left, right => left = right

/-- The letters that the statement escapes in the prefix. -/
def escaped : Backend → List Char
  | .sqlite => ['%', '_']
  | .dsql => ['%', '_', '\\']

def subtreePattern (backend : Backend) (pathPrefix : Text) : Text :=
  escapeLetters '\\' (escaped backend) pathPrefix ++ ['/', '%']

/-- `path = ? OR path LIKE ? ESCAPE '\'`. -/
def selects (backend : Backend) (pathPrefix path : Text) : Bool :=
  path = pathPrefix || like (sameLetter backend) '\\' path (subtreePattern backend pathPrefix)

variable {pathPrefix : Text}

theorem selects_dsql : selects .dsql pathPrefix path = underPath path pathPrefix := by
  rw [Bool.eq_iff_iff, selects, Bool.or_eq_true, decide_eq_true_eq, subtreePattern, isUnder_iff]
  refine or_congr Iff.rfl ?_
  exact like_below_exact_iff (by decide) (by decide) (Or.inl (by decide)) (by decide) (by decide)

theorem selects_of_underPath (backend : Backend) (plain : '\\' ∉ pathPrefix)
    (under : underPath path pathPrefix = true) :
    selects backend pathPrefix path = true := by
  rw [selects, Bool.or_eq_true, decide_eq_true_eq]
  rcases isUnder_iff.mp under with same | ⟨rest, below⟩
  · exact Or.inl same
  · right
    rw [below, subtreePattern]
    have reflexive : ∀ letter, sameLetter backend letter letter = true := by
      intro letter
      cases backend <;> simp [sameLetter]
    have percent : '%' ∈ escaped backend := by
      cases backend <;> decide
    have underscore : '_' ∈ escaped backend := by
      cases backend <;> decide
    exact like_below_of_append reflexive percent underscore (Or.inr plain) (by decide) (by decide)

/-- `ORDER BY updated_at DESC, rowid DESC LIMIT 1`, or the row of the table
of newest versions. -/
def newer (backend : Backend) (best : Option FsRow) (row : FsRow) : Option FsRow :=
  match best with
  | none => some row
  | some current =>
    if backend = .dsql || current.updatedAt ≤ row.updatedAt then some row
    else some current

/-- The newest version of a file. -/
def latest (store : Store) (path : Text) : Option FsRow :=
  (store.rows.filter (·.path = path)).foldl (newer store.backend) none

def version (store : Store) (path hash : Text) : Option FsRow :=
  store.rows.find? fun row =>
    row.path = path && row.hash = hash && (store.backend = .sqlite || row.versioned)

/-- `read(path, hash)`; an empty hash reads the newest version. -/
def read (store : Store) (path : Text) (hash : Option Text) : Option FsRow :=
  match hash with
  | none => store.latest path
  | some hash =>
    if hash = [] then store.latest path else store.version path hash

private theorem foldl_newer_some (backend : Backend) (rows : List FsRow) (start : FsRow) :
    ∃ row, rows.foldl (newer backend) (some start) = some row ∧ (row = start ∨ row ∈ rows) := by
  induction rows generalizing start with
  | nil => exact ⟨start, rfl, Or.inl rfl⟩
  | cons head tail ih =>
    by_cases replaced : (backend = .dsql || decide (start.updatedAt ≤ head.updatedAt)) = true
    · obtain ⟨row, found, source⟩ := ih head
      refine ⟨row, ?_, Or.inr ?_⟩
      · simpa only [List.foldl_cons, newer, if_pos replaced] using found
      · rcases source with rfl | member
        · exact List.mem_cons_self
        · exact List.mem_cons_of_mem head member
    · obtain ⟨row, found, source⟩ := ih start
      refine ⟨row, ?_, source.imp_right (List.mem_cons_of_mem head)⟩
      simpa only [List.foldl_cons, newer, if_neg replaced] using found

theorem mem_of_latest {store : Store} {path : Text} {row : FsRow}
    (found : store.latest path = some row) :
    row ∈ store.rows ∧ row.path = path := by
  unfold latest at found
  cases selected : store.rows.filter (·.path = path) with
  | nil =>
    rw [selected] at found
    cases found
  | cons head tail =>
    rw [selected, List.foldl_cons] at found
    obtain ⟨newest, foundNewest, source⟩ :=
      foldl_newer_some store.backend tail head
    have same : newest = row := by
      have started : newer store.backend none head = some head := rfl
      rw [started, foundNewest] at found
      exact Option.some.inj found
    have member : row ∈ store.rows.filter (·.path = path) := by
      rw [selected, ← same]
      exact List.mem_cons.mpr source
    simpa using member

theorem latest_isSome_iff : (∃ row, store.latest path = some row) ↔ path ∈ store.paths := by
  constructor
  · rintro ⟨row, found⟩
    obtain ⟨member, rfl⟩ := mem_of_latest found
    exact List.mem_map_of_mem member
  · intro stored
    obtain ⟨row, member, rfl⟩ := List.mem_map.mp stored
    unfold latest
    cases selected : store.rows.filter (·.path = row.path) with
    | nil =>
      have inside : row ∈ store.rows.filter (·.path = row.path) := by simpa using member
      rw [selected] at inside
      cases inside
    | cons head tail =>
      obtain ⟨newest, foundNewest, _⟩ :=
        foldl_newer_some store.backend tail head
      exact ⟨newest, foundNewest⟩

variable {row : FsRow}

theorem mem_of_version {hash : Text} (found : store.version path hash = some row) :
    row ∈ store.rows ∧ row.path = path := by
  have member := List.mem_of_find?_eq_some found
  have hit := List.find?_some found
  simp only [Bool.and_eq_true, decide_eq_true_eq] at hit
  exact ⟨member, hit.1.1⟩

theorem mem_of_read {hash : Option Text} (found : store.read path hash = some row) :
    row ∈ store.rows ∧ row.path = path := by
  unfold read at found
  split at found
  · exact mem_of_latest found
  · split at found
    · exact mem_of_latest found
    · exact mem_of_version found

/-- No two versions of a file have one time.  Of two that have, `read` finds
the one written last; so does `selected` here, where SQLite's `MAX(updated_at)`
lists the other. -/
def Untied (store : Store) : Prop :=
  ∀ row ∈ store.rows, ∀ other ∈ store.rows, row.path = other.path →
    row.updatedAt = other.updatedAt → row = other

instance : Decidable store.Untied :=
  inferInstanceAs (Decidable (∀ row ∈ store.rows, ∀ other ∈ store.rows, row.path = other.path →
    row.updatedAt = other.updatedAt → row = other))

structure FsListPage where
  entries : List FsEntry
  cursor : Option Text
  deriving DecidableEq

/-- Every file that a listing statement selects, in path order: under the
prefix (the empty one selects all) and past the cursor. -/
def selected (store : Store) (pathPrefix cursor : Text) : List FsEntry :=
  let names := store.paths.dedup.filter fun path =>
    (pathPrefix = [] || selects store.backend pathPrefix path) && (cursor = [] || cursor < path)
  (names.insertionSort (· ≤ ·)).filterMap fun path => (store.latest path).map FsRow.entry

/-- JavaScript's `slice(0, limit)`. -/
def sliceFront {Value : Type} (values : List Value) (limit : Int) : List Value :=
  if 0 ≤ limit then values.take limit.toNat
  else values.take (values.length - (-limit).toNat)

/-- The rows that `LIMIT limit + 1` leaves.  No clause is written for the
limit 0; SQLite takes a negative bound as none and DSQL rejects it. -/
def limited {Value : Type} (backend : Backend) (values : List Value) (limit : Int) :
    Option (List Value) :=
  if limit = 0 then some values
  else if 0 ≤ limit + 1 then some (values.take (limit + 1).toNat)
  else
    match backend with
    | .sqlite => some values
    | .dsql => none

/-- One page of a listing.  `none` is a call that throws: a rejected bound,
or a truncated page without a last entry to resume from. -/
def list (store : Store) (pathPrefix : Text) (limit : Option Int) (cursor : Text) :
    Option FsListPage :=
  let all := store.selected pathPrefix cursor
  match limit with
  | none => some { entries := all, cursor := none }
  | some limit =>
    match limited store.backend all limit with
    | none => none
    | some rows =>
      if limit < rows.length then
        let page := sliceFront rows limit
        match page.getLast? with
        | none => none
        | some last => some { entries := page, cursor := some last.path }
      else some { entries := rows, cursor := none }

/-- Every page of a listing.  The first one has no cursor, so it is the
whole. -/
def listAll (store : Store) (pathPrefix : Text) : List FsEntry :=
  store.selected pathPrefix []

section

variable (store : Store) (pathPrefix : Text)

theorem list_unlimited :
    store.list pathPrefix none [] = some { entries := store.listAll pathPrefix, cursor := none } :=
  rfl

theorem list_positive (cursor : Text) {limit : Nat} (positive : 0 < limit) :
    store.list pathPrefix (some limit) cursor =
      let rows := store.selected pathPrefix cursor
      if limit < rows.length then
        some {
          entries := rows.take limit
          cursor := (rows.take limit).getLast?.map FsEntry.path }
      else
        some { entries := rows, cursor := none } := by
  have fetched :
      limited store.backend (store.selected pathPrefix cursor) limit =
        some ((store.selected pathPrefix cursor).take (limit + 1)) := by
    unfold limited
    rw [if_neg (by omega), if_pos (by omega)]
    rfl
  simp only [list, fetched, List.length_take]
  by_cases more : limit < (store.selected pathPrefix cursor).length
  · have front :
        sliceFront ((store.selected pathPrefix cursor).take (limit + 1)) limit =
          (store.selected pathPrefix cursor).take limit := by
      rw [sliceFront, if_pos (by omega), Int.toNat_natCast, List.take_take,
        Nat.min_eq_left (by omega)]
    rw [if_pos more, if_pos (by omega), front]
    have nonempty : (store.selected pathPrefix cursor).take limit ≠ [] := by
      intro empty
      have none_left := congrArg List.length empty
      rw [List.length_take, List.length_nil] at none_left
      omega
    rw [List.getLast?_eq_some_getLast nonempty]
    rfl
  · rw [if_neg more, if_neg (by omega), List.take_of_length_le (by omega)]

/-- For the limit 0 no bound is written and then nothing is kept, so that a
file in the selection leaves no entry to resume from. -/
theorem list_zero (cursor : Text) :
    store.list pathPrefix (some 0) cursor =
      if store.selected pathPrefix cursor = [] then some { entries := [], cursor := none }
      else
        none := by
  have fetched :
      limited store.backend (store.selected pathPrefix cursor) 0 =
        some (store.selected pathPrefix cursor) :=
    if_pos rfl
  simp only [list, fetched]
  by_cases empty : store.selected pathPrefix cursor = []
  · rw [if_pos empty, if_neg (by simp [empty]), empty]
  · have positive := List.length_pos_iff.mpr empty
    rw [if_neg empty, if_pos (by omega)]
    rfl

/-- A negative limit drops entries from the end of the selection on SQLite;
the bound that it makes is rejected by DSQL, and leaves nothing when it
is 0. -/
theorem list_negative (cursor : Text) {limit : Int} (negative : limit < 0) :
    store.list pathPrefix (some limit) cursor =
      if limit = -1 ∨ store.backend = .dsql then none
      else
        let rows := store.selected pathPrefix cursor
        let front := rows.take (rows.length - (-limit).toNat)
        front.getLast?.map fun last =>
          { entries := front, cursor := some last.path } := by
  by_cases one : limit = -1
  · subst one
    have fetched : limited store.backend (store.selected pathPrefix cursor) (-1) = some [] := by
      unfold limited
      rw [if_neg (by omega), if_pos (by omega)]
      rfl
    rw [if_pos (Or.inl rfl)]
    simp only [list, fetched]
    rfl
  · have below : ¬ 0 ≤ limit + 1 := by
      omega
    cases isBackend : store.backend with
    | dsql =>
      have fetched :
          limited store.backend (store.selected pathPrefix cursor) limit = none := by
        unfold limited
        rw [if_neg (by omega), if_neg below, isBackend]
      rw [if_pos (Or.inr rfl)]
      simp only [list, fetched]
    | sqlite =>
      have fetched :
          limited store.backend (store.selected pathPrefix cursor) limit =
            some (store.selected pathPrefix cursor) := by
        unfold limited
        rw [if_neg (by omega), if_neg below, isBackend]
      rw [if_neg (by simp [one])]
      simp only [list, fetched]
      unfold sliceFront
      rw [if_pos (by omega), if_neg (by omega)]
      cases ((store.selected pathPrefix cursor).take
        ((store.selected pathPrefix cursor).length - (-limit).toNat)).getLast? <;> rfl

end

theorem mem_selected_iff {store : Store} {pathPrefix cursor : Text} {entry : FsEntry} :
    entry ∈ store.selected pathPrefix cursor ↔
      (∃ row, store.latest entry.path = some row ∧ row.entry = entry) ∧ (pathPrefix = [] ∨
          selects store.backend pathPrefix entry.path = true) ∧
        (cursor = [] ∨ cursor < entry.path) := by
  simp only [selected, List.mem_filterMap, List.mem_insertionSort,
    List.mem_filter, List.mem_dedup, Option.map_eq_some_iff,
    Bool.and_eq_true, Bool.or_eq_true, decide_eq_true_eq]
  constructor
  · rintro ⟨path, ⟨_, underPrefix, past⟩, row, found, rfl⟩
    obtain ⟨_, rfl⟩ := mem_of_latest found
    exact ⟨⟨row, found, rfl⟩, underPrefix, past⟩
  · rintro ⟨⟨row, found, same⟩, underPrefix, past⟩
    have stored : entry.path ∈ store.paths := latest_isSome_iff.mp ⟨row, found⟩
    exact ⟨entry.path, ⟨stored, underPrefix, past⟩, row, found, same⟩

theorem selected_sorted (store : Store) (pathPrefix cursor : Text) :
    (store.selected pathPrefix cursor).Pairwise (fun before after => before.path < after.path) := by
  rw [selected, List.pairwise_filterMap]
  have names :=
    (List.nodup_dedup store.paths).filter fun path =>
      (pathPrefix = [] || selects store.backend pathPrefix path) && (cursor = [] || cursor < path)
  have increasing := (List.pairwise_insertionSort (· ≤ ·) (store.paths.dedup.filter fun path =>
      (pathPrefix = [] || selects store.backend pathPrefix path) &&
        (cursor = [] || cursor < path)))
  have distinct := (List.perm_insertionSort (· ≤ ·) _).nodup_iff.mpr names
  refine (increasing.and distinct).imp ?_
  rintro before after ⟨notAfter, different⟩ first isFirst second isSecond
  obtain ⟨row, found, rfl⟩ := Option.map_eq_some_iff.mp isFirst
  obtain ⟨other, foundOther, rfl⟩ := Option.map_eq_some_iff.mp isSecond
  have firstPath : row.entry.path = before := (mem_of_latest found).2
  have secondPath : other.entry.path = after := (mem_of_latest foundOther).2
  rw [firstPath, secondPath]
  exact lt_of_le_of_ne notAfter different

theorem mem_listAll_path_iff :
    (∃ entry ∈ store.listAll pathPrefix, entry.path = path) ↔ path ∈ store.paths ∧
        (pathPrefix = [] ∨ selects store.backend pathPrefix path = true) := by
  constructor
  · rintro ⟨entry, member, rfl⟩
    obtain ⟨⟨row, found, _⟩, underPrefix, _⟩ := mem_selected_iff.mp member
    exact ⟨latest_isSome_iff.mp ⟨row, found⟩, underPrefix⟩
  · rintro ⟨stored, underPrefix⟩
    obtain ⟨row, found⟩ := latest_isSome_iff.mpr stored
    obtain ⟨_, samePath⟩ := mem_of_latest found
    have entryPath : row.entry.path = path := samePath
    refine ⟨row.entry, ?_, entryPath⟩
    rw [listAll, mem_selected_iff, entryPath]
    exact ⟨⟨row, found, rfl⟩, underPrefix, Or.inl rfl⟩

/-- Does a write of `(path, hash)` leave the row in the table? -/
def survivesWrite (backend : Backend) (versioned : Bool) (path hash : Text) (row : FsRow) : Bool :=
  row.path ≠ path || (row.hash ≠ hash && versioned && (backend = .sqlite || row.versioned))

/-- `write(path, content, mimeType, { versioned })`. -/
def write (sha256 : Text → Text) (now : Nat) (store : Store)
    (path content mimeType : Text) (versioned : Option Bool) : Store :=
  let minted := versioned.getD (!isServicePath path)
  let hash := sha256 content
  let row : FsRow := {
    path := path
    hash := hash
    content := content
    mimeType := mimeType
    size := byteLength content
    updatedAt := now
    versioned := minted }
  let kept := store.keep (survivesWrite store.backend minted path hash)
  { backend := store.backend
    rows := kept.rows ++ [row]
    keys := by
      rw [List.map_append, List.nodup_append]
      refine ⟨kept.keys, by simp, ?_⟩
      intro key member other isNew same
      obtain ⟨old, inside, rfl⟩ := List.mem_map.mp member
      have survived : survivesWrite store.backend minted path hash old = true :=
        (List.mem_filter.mp inside).2
      have newKey : other = (path, hash) := by simpa [FsRow.key, row] using isNew
      rw [newKey, FsRow.key, Prod.mk.injEq] at same
      simp [survivesWrite, same.1, same.2] at survived }

/-- `putIndex`: a row whose content is already stored. -/
def putIndex (store : Store) (row : FsRow) : Store :=
  let kept := store.keep (survivesWrite store.backend row.versioned row.path row.hash)
  { backend := store.backend
    rows := kept.rows ++ [row]
    keys := by
      rw [List.map_append, List.nodup_append]
      refine ⟨kept.keys, by simp, ?_⟩
      intro key member other isNew same
      obtain ⟨old, inside, rfl⟩ := List.mem_map.mp member
      have survived := (List.mem_filter.mp inside).2
      rw [List.mem_singleton.mp isNew, FsRow.key, FsRow.key, Prod.mk.injEq] at same
      simp [survivesWrite, same.1, same.2] at survived }

/-- `remove(path)`: whether something was removed, and the rest. -/
def remove (store : Store) (path : Text) : Bool × Store :=
  (path ∈ store.paths, store.keep (·.path ≠ path))

/-- Does `removePrefix` delete the file?  DSQL deletes what it lists, and
its listing selects everything under the empty prefix. -/
def clears (backend : Backend) (pathPrefix path : Text) : Bool :=
  match backend with
  | .sqlite => selects .sqlite pathPrefix path
  | .dsql => pathPrefix = [] || selects .dsql pathPrefix path

/-- `removePrefix(prefix)`: how many rows (SQLite) or files (DSQL) it
removed, and the rest. -/
def removePrefix (store : Store) (pathPrefix : Text) : Nat × Store :=
  let gone := store.rows.filter fun row => clears store.backend pathPrefix row.path
  let count :=
    match store.backend with
    | .sqlite => gone.length
    | .dsql => (gone.map FsRow.path).dedup.length
  (count, store.keep fun row => !clears store.backend pathPrefix row.path)

variable {sha256 : Text → Text} {now : Nat} {content mimeType other : Text}
  {versioned : Option Bool}

@[simp]
theorem mem_paths_write :
    other ∈ (store.write sha256 now path content mimeType versioned).paths ↔
      other ∈ store.paths ∨ other = path := by
  simp only [mem_paths, write, keep, List.mem_append, List.mem_filter, List.mem_singleton]
  constructor
  · rintro ⟨row, ⟨member, _⟩ | rfl, rfl⟩
    · exact Or.inl ⟨row, member, rfl⟩
    · exact Or.inr rfl
  · rintro (⟨row, member, rfl⟩ | rfl)
    · by_cases same : row.path = path
      · exact ⟨_, Or.inr rfl, same.symm⟩
      · refine ⟨row, Or.inl ⟨member, ?_⟩, rfl⟩
        simp [survivesWrite, same]
    · exact ⟨_, Or.inr rfl, rfl⟩

theorem rows_outside_write {outside : FsRow → Bool}
    (inside : ∀ row, row.path = path → outside row = false) :
    (store.write sha256 now path content mimeType versioned).rows.filter outside =
      store.rows.filter outside := by
  simp only [write, keep, List.filter_append, List.filter_filter]
  rw [List.filter_singleton, inside _ rfl, cond_false, List.append_nil]
  apply List.filter_congr
  intro row _
  by_cases same : row.path = path
  · simp [inside row same]
  · simp [survivesWrite, same]

@[simp]
theorem mem_paths_remove :
    other ∈ (store.remove path).2.paths ↔ other ∈ store.paths ∧ other ≠ path := by
  rw [remove, mem_paths_keep, mem_paths]
  simp only [decide_eq_true_eq]
  constructor
  · rintro ⟨row, member, different, rfl⟩
    exact ⟨⟨row, member, rfl⟩, different⟩
  · rintro ⟨⟨row, member, rfl⟩, different⟩
    exact ⟨row, member, different, rfl⟩

@[simp]
theorem mem_paths_removePrefix :
    path ∈ (store.removePrefix pathPrefix).2.paths ↔ path ∈ store.paths ∧
        clears store.backend pathPrefix path = false := by
  rw [removePrefix, mem_paths_keep, mem_paths]
  simp only [Bool.not_eq_true']
  constructor
  · rintro ⟨row, member, spared, rfl⟩
    exact ⟨⟨row, member, rfl⟩, spared⟩
  · rintro ⟨⟨row, member, rfl⟩, spared⟩
    exact ⟨row, member, spared, rfl⟩

theorem removePrefix_pos_iff :
    0 < (store.removePrefix pathPrefix).1 ↔
      ∃ path ∈ store.paths, clears store.backend pathPrefix path = true := by
  have some_gone : 0 < (store.removePrefix pathPrefix).1 ↔ (store.rows.filter fun row =>
          clears store.backend pathPrefix row.path) ≠ [] := by
    simp only [removePrefix]
    cases store.backend with
    | sqlite => exact List.length_pos_iff
    | dsql => rw [List.length_pos_iff, ne_eq, List.dedup_eq_nil, List.map_eq_nil_iff]
  rw [some_gone]
  constructor
  · intro nonempty
    obtain ⟨row, member⟩ := List.exists_mem_of_ne_nil _ nonempty
    rw [List.mem_filter] at member
    exact ⟨row.path, List.mem_map_of_mem member.1, member.2⟩
  · rintro ⟨path, stored, cleared⟩
    obtain ⟨row, member, rfl⟩ := List.mem_map.mp stored
    exact List.ne_nil_of_mem (List.mem_filter.mpr ⟨member, cleared⟩)

theorem version_eq_find? (store : Store) (path hash : Text) :
    store.version path hash = (store.rows.filter (·.path = path)).find? fun row =>
        row.hash = hash && (store.backend = .sqlite || row.versioned) := by
  rw [List.find?_filter, version]
  congr 1
  funext row
  rw [Bool.and_assoc, Bool.decide_and, Bool.decide_coe, Bool.decide_coe]

variable {second : Store}

theorem read_congr {first : Store} (sameBackend : first.backend = second.backend)
    (sameRows : first.rows.filter (·.path = path) =
      second.rows.filter (·.path = path)) (hash : Option Text) :
    first.read path hash = second.read path hash := by
  have latest : first.latest path = second.latest path := by
    rw [Store.latest, Store.latest, sameBackend, sameRows]
  cases hash with
  | none => exact latest
  | some hash => simp only [read, latest, version_eq_find?, sameBackend, sameRows]

theorem read_write_of_ne (different : other ≠ path) (hash : Option Text) :
    (store.write sha256 now path content mimeType versioned).read other hash =
      store.read other hash := by
  apply read_congr
  · rfl
  · apply rows_outside_write
    intro row same
    rw [same]
    simpa using different.symm

theorem read_remove_of_ne (different : other ≠ path) (hash : Option Text) :
    (store.remove path).2.read other hash = store.read other hash := by
  apply read_congr
  · rfl
  · show (store.rows.filter _).filter _ = _
    rw [List.filter_filter]
    apply List.filter_congr
    intro row _
    by_cases same : row.path = other
    · simp [same, different]
    · simp [same]

theorem read_keep (kept : ∀ row ∈ store.rows, row.path = path → condition row = true)
    (hash : Option Text) :
    (store.keep condition).read path hash = store.read path hash := by
  apply read_congr
  · rfl
  · show (store.rows.filter _).filter _ = _
    rw [List.filter_filter]
    apply List.filter_congr
    intro row member
    by_cases same : row.path = path
    · simp [same, kept row member same]
    · simp [same]

theorem rows_write_unversioned (service : isServicePath path = true) :
    ∃ row, (store.write sha256 now path content mimeType none).rows.filter (·.path = path) = [row] ∧
      row.hash = sha256 content ∧ row.content = content := by
  have noneKept : store.rows.filter (fun row =>
      decide (row.path = path) && survivesWrite store.backend ((none : Option Bool).getD
          (!isServicePath path)) path (sha256 content) row) = [] := by
    rw [List.filter_eq_nil_iff]
    intro row _ both
    simp [survivesWrite, service] at both
  simp only [write, keep, List.filter_append, List.filter_filter]
  rw [noneKept, List.nil_append]
  refine ⟨_, List.filter_eq_self.mpr ?_, rfl, rfl⟩
  intro row member
  rw [List.mem_singleton.mp member]
  exact decide_eq_true rfl

theorem hash_of_read {hash : Text} (nonempty : hash ≠ [])
    (found : store.read path (some hash) = some row) :
    row.hash = hash := by
  have pinned : store.version path hash = some row := by simpa [read, nonempty] using found
  have hit := List.find?_some pinned
  simp only [Bool.and_eq_true, decide_eq_true_eq] at hit
  exact hit.1.2

theorem read_of_single (single : store.rows.filter (·.path = path) = [row])
    (sqlite : store.backend = .sqlite) :
    store.read path (some row.hash) = some row := by
  have newest : store.latest path = some row := by
    rw [latest, single]
    rfl
  have pinned : store.version path row.hash = some row := by
    rw [version_eq_find?, single]
    simp [sqlite]
  simp only [read, newest, pinned, ite_self]

theorem read_write_pinned {hash : Text} (collisionFree : ∀ other ∈ store.rows,
      other.hash = sha256 content → other.content = content)
    (live : isServicePath path = false) (nonempty : hash ≠ [])
    (pinned : store.read path (some hash) = some row) :
    ∃ kept, (store.write sha256 now path content mimeType none).read path
        (some hash) = some kept ∧ kept.content = row.content ∧
      kept.hash = hash := by
  have found : store.version path hash = some row := by simpa [read, nonempty] using pinned
  have member := List.mem_of_find?_eq_some found
  have hit := List.find?_some found
  simp only [Bool.and_eq_true, decide_eq_true_eq] at hit
  obtain ⟨⟨samePath, sameHash⟩, readable⟩ := hit
  simp only [read, nonempty, if_false]
  by_cases same : sha256 content = hash
  · have noneKept :
        (store.rows.filter (survivesWrite store.backend
          ((none : Option Bool).getD (!isServicePath path)) path
          (sha256 content))).find? (fun other =>
            other.path = path && other.hash = hash &&
              (store.backend = .sqlite || other.versioned)) = none := by
      rw [List.find?_eq_none]
      intro other inside matched
      have survived := (List.mem_filter.mp inside).2
      simp only [Bool.and_eq_true, decide_eq_true_eq] at matched
      simp [survivesWrite, matched.1.1, matched.1.2, same] at survived
    have sameContent : row.content = content := collisionFree row member (sameHash.trans same.symm)
    unfold version write keep
    dsimp only
    rw [List.find?_append, noneKept, Option.none_or, List.find?_cons_of_pos (by simp [same, live])]
    exact ⟨_, rfl, sameContent.symm, same⟩
  · refine ⟨row, ?_, rfl, sameHash⟩
    unfold version write keep
    dsimp only
    rw [List.find?_append, List.find?_filter]
    have stays : (store.rows.find? fun other =>
        decide (survivesWrite store.backend ((none : Option Bool).getD (!isServicePath path)) path
            (sha256 content) other = true ∧
          (other.path = path && other.hash = hash &&
            (store.backend = .sqlite || other.versioned)) = true)) =
        some row := by
      rw [← found, version]
      congr 1
      funext other
      by_cases matched : (other.path = path && other.hash = hash &&
          (store.backend = .sqlite || other.versioned)) = true
      · have parts := matched
        simp only [Bool.and_eq_true, decide_eq_true_eq] at parts
        have survives : survivesWrite store.backend
            ((none : Option Bool).getD (!isServicePath path)) path
            (sha256 content) other = true := by
          simp only [survivesWrite, parts.1.2, Ne.symm same, live,
            Option.getD_none, Bool.not_false, ne_eq, not_false_eq_true,
            decide_true, Bool.and_true, parts.2, Bool.or_true]
        rw [decide_eq_true ⟨survives, matched⟩, matched]
      · rw [decide_eq_false fun both => matched both.2, Bool.eq_false_iff.mpr matched]
    rw [stays, Option.some_or]

theorem filter_write_congr {first : Store} (sameBackend : first.backend = second.backend)
    (sameRows : first.rows.filter condition = second.rows.filter condition) :
    (first.write sha256 now path content mimeType versioned).rows.filter condition =
      (second.write sha256 now path content mimeType versioned).rows.filter
        condition := by
  simp only [write, keep, List.filter_append, sameBackend]
  rw [List.filter_comm, sameRows, List.filter_comm]

theorem filter_keep_congr {first : Store} {kept : FsRow → Bool}
    (sameRows : first.rows.filter condition = second.rows.filter condition) :
    (first.keep kept).rows.filter condition = (second.keep kept).rows.filter condition := by
  show (first.rows.filter kept).filter condition = (second.rows.filter kept).filter condition
  rw [List.filter_comm, sameRows, List.filter_comm]

/-- Both stores hold the same rows under the path. -/
structure SameAt (path : Text) (first second : Store) : Prop where
  backend : first.backend = second.backend
  rows : first.rows.filter (·.path = path) = second.rows.filter (·.path = path)

namespace SameAt

variable {sha256 : Text → Text} {now : Nat} {path other : Text}
  {content mimeType : Text} {versioned : Option Bool}
  {first second third : Store}

theorem refl (path : Text) (store : Store) : SameAt path store store :=
  ⟨rfl, rfl⟩

section

variable (same : SameAt path first second)

include same

theorem trans (next : SameAt path second third) : SameAt path first third :=
  ⟨same.backend.trans next.backend, same.rows.trans next.rows⟩

theorem read (hash : Option Text) : first.read path hash = second.read path hash :=
  read_congr same.backend same.rows hash

theorem latest : first.latest path = second.latest path :=
  same.read none

end

theorem write_of_ne (store : Store) (different : other ≠ path) :
    SameAt other (store.write sha256 now path content mimeType versioned) store := by
  refine ⟨rfl, rows_outside_write ?_⟩
  intro row same
  rw [same]
  simpa using different.symm

theorem remove_of_ne (store : Store) (different : other ≠ path) :
    SameAt other (store.remove path).2 store := by
  refine ⟨rfl, ?_⟩
  show (store.rows.filter _).filter _ = _
  rw [List.filter_filter]
  apply List.filter_congr
  intro row _
  by_cases same : row.path = other
  · simp [same, different]
  · simp [same]

theorem write (same : SameAt other first second) :
    SameAt other (first.write sha256 now path content mimeType versioned)
      (second.write sha256 now path content mimeType versioned) :=
  ⟨same.backend, filter_write_congr same.backend same.rows⟩

theorem remove (same : SameAt other first second) :
    SameAt other (first.remove path).2 (second.remove path).2 :=
  ⟨same.backend, filter_keep_congr same.rows⟩

end SameAt

theorem latest_remove_self (store : Store) (path : Text) :
    (store.remove path).2.latest path = none := by
  have gone : ¬ ∃ row, (store.remove path).2.latest path = some row := by
    rw [latest_isSome_iff, mem_paths_remove]
    exact fun both => both.2 rfl
  exact Option.eq_none_iff_forall_ne_some.mpr fun row found => gone ⟨row, found⟩

theorem latest_eq_none_iff : store.latest path = none ↔ path ∉ store.paths := by
  rw [← latest_isSome_iff, Option.eq_none_iff_forall_ne_some, not_exists]

theorem foldl_newer_last (backend : Backend) (rows : List FsRow) (last : FsRow)
    (start : Option FsRow) (older : ∀ row ∈ rows, row.updatedAt ≤ last.updatedAt)
    (olderStart : ∀ row ∈ start, row.updatedAt ≤ last.updatedAt) :
    (rows ++ [last]).foldl (newer backend) start = some last := by
  induction rows generalizing start with
  | nil =>
    cases start with
    | none => rfl
    | some current =>
      show newer backend (some current) last = some last
      rw [newer, if_pos]
      simp [olderStart current rfl]
  | cons head tail ih =>
    rw [List.cons_append, List.foldl_cons]
    apply ih
    · intro row member
      exact older row (List.mem_cons_of_mem head member)
    · intro row kept
      have headOlder := older head List.mem_cons_self
      cases start with
      | none =>
        cases kept
        exact headOlder
      | some current =>
        have startOlder := olderStart current rfl
        simp only [newer] at kept
        split at kept
        · cases kept
          exact headOlder
        · cases kept
          exact startOlder

/-- What is written is the newest version, unless the clock was ahead
before. -/
theorem latest_write_self (older : ∀ row ∈ store.rows, row.path = path → row.updatedAt ≤ now) :
    (store.write sha256 now path content mimeType versioned).latest path = some {
        path := path
        hash := sha256 content
        content := content
        mimeType := mimeType
        size := byteLength content
        updatedAt := now
        versioned := versioned.getD (!isServicePath path) } := by
  unfold latest
  simp only [write, keep, List.filter_append, List.filter_singleton, decide_true, cond_true]
  apply foldl_newer_last
  · intro row member
    have kept := List.mem_filter.mp member
    exact older row (List.mem_filter.mp kept.1).1 (of_decide_eq_true kept.2)
  · intro row impossible
    cases impossible

end Store

end Aprovan.Fs
