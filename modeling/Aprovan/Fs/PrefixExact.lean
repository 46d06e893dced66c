import Aprovan.Fs.Store
import Aprovan.Library.LikeReading
import Aprovan.Server.RecordStore

/-!
# Operations on a prefix over SQLite

The stores select by a `LIKE` whose pattern is made of the prefix.  The
statement compares ASCII letters without case and escapes `%` and `_`, but not
the backslash; the operations are exact as long as no stored name tells the
difference.
-/

namespace Aprovan.Fs

open Aprovan.Library Aprovan.Server

structure RecordRow where
  (tenant scope key : Text)
  expiresAt : Option Nat

/-- `expires_at IS NULL OR expires_at >= unixepoch()`. -/
def RecordRow.live (now : Nat) (row : RecordRow) : Bool :=
  match row.expiresAt with
  | none => true
  | some expiresAt => now ≤ expiresAt

structure RecordTable where
  rows : List RecordRow
  keys : (rows.map fun row => (row.tenant, row.scope, row.key)).Nodup

namespace RecordTable

variable (table : RecordTable)

def liveRows (tenant scope : Text) (now : Nat) : List RecordRow :=
  table.rows.filter fun row => row.tenant = tenant && row.scope = scope && row.live now

def list (tenant scope keyPrefix : Text) (now : Nat) : List Text :=
  (((table.liveRows tenant scope now).filter fun row =>
    RecordBackend.selectsKey .sqlite keyPrefix row.key).map RecordRow.key).insertionSort (· ≤ ·)

def listScopes (tenant scopePrefix : Text) : List Text :=
  ((table.rows.filter fun row =>
    row.tenant = tenant && RecordBackend.selectsKey .sqlite scopePrefix row.scope).map
        RecordRow.scope).dedup.insertionSort (· ≤ ·)

end RecordTable

/-- The same letter, up to ASCII case. -/
def SameLetter (first second : Char) : Prop :=
  first.toLower = second.toLower

/-- The names that the statement takes a prefix for, and whether a backslash
is left over at its end.  A backslash is dropped; before a wildcard it stays
and the wildcard is one. -/
inductive TakenFor : Text → Text → Bool → Prop where
  | empty : TakenFor [] [] false
  | leftOver : TakenFor ['\\'] [] true
  | letter {first found : Char} {rest name : Text} {leftOver : Bool}
      (plain : first ≠ '\\') (same : SameLetter first found)
      (later : TakenFor rest name leftOver) :
      TakenFor (first :: rest) (found :: name) leftOver
  | dropped {second found : Char} {rest name : Text} {leftOver : Bool}
      (plain : second ≠ '%' ∧ second ≠ '_')
      (same : SameLetter second found)
      (later : TakenFor rest name leftOver) :
      TakenFor ('\\' :: second :: rest) (found :: name) leftOver
  | anyText {rest name : Text} {leftOver : Bool} (skipped : Text)
      (later : TakenFor rest name leftOver) :
      TakenFor ('\\' :: '%' :: rest) ('\\' :: (skipped ++ name)) leftOver
  | anyLetter {rest name : Text} {leftOver : Bool} (skipped : Char)
      (later : TakenFor rest name leftOver) :
      TakenFor ('\\' :: '_' :: rest) ('\\' :: skipped :: name) leftOver

/-- The comparison of SQLite's `LIKE`. -/
def foldCase (first second : Char) : Bool :=
  first.toLower = second.toLower

theorem foldCase_iff {first second : Char} :
    foldCase first second = true ↔ SameLetter first second :=
  decide_eq_true_iff

/-- Outside `A-Z` and `a-z` a letter is the same as itself alone. -/
theorem sameLetter_iff_eq {letter found : Char} (notUpper : letter.toNat < 65 ∨ 90 < letter.toNat)
    (notLower : letter.toNat < 97 ∨ 122 < letter.toNat) :
    SameLetter letter found ↔ found = letter := by
  constructor
  · intro same
    have outside : ¬ (letter.val ≥ 'A'.val ∧ letter.val ≤ 'Z'.val) := by
      rintro ⟨above, upTo⟩
      have low : 65 ≤ letter.toNat := UInt32.le_iff_toNat_le.mp above
      have high : letter.toNat ≤ 90 := UInt32.le_iff_toNat_le.mp upTo
      omega
    have own : letter.toLower = letter := dif_neg outside
    rw [SameLetter, own] at same
    unfold Char.toLower at same
    split at same
    · next range =>
        have low : 65 ≤ found.toNat := UInt32.le_iff_toNat_le.mp range.1
        have high : found.toNat ≤ 90 := UInt32.le_iff_toNat_le.mp range.2
        have moved : letter.toNat = (found.toNat + 32) % 4294967296 := by
          rw [same]
          rfl
        omega
    · exact same.symm
  · rintro rfl
    rfl

theorem takenFor_iff {pathPrefix name : Text} {leftOver : Bool} :
    TakenFor pathPrefix name leftOver ↔
      matchesItems foldCase (readName '\\' pathPrefix).1 name = true ∧
        (readName '\\' pathPrefix).2 = leftOver := by
  induction pathPrefix using readName.induct '\\' generalizing name with
  | case1 =>
    constructor
    · intro taken
      cases taken
      exact ⟨rfl, rfl⟩
    · rintro ⟨matched, rfl⟩
      cases List.isEmpty_iff.mp matched
      exact .empty
  | case2 =>
    constructor
    · intro taken
      cases taken with
      | leftOver => exact ⟨rfl, rfl⟩
      | letter plain => exact absurd rfl plain
    · rintro ⟨matched, rfl⟩
      cases List.isEmpty_iff.mp matched
      exact .leftOver
  | case3 last other =>
    rw [readName, if_neg other]
    constructor
    · intro taken
      cases taken with
      | leftOver => exact absurd rfl other
      | letter plain same later =>
        cases later
        simp [matchesItems, foldCase_iff.mpr same]
    · rintro ⟨matched, rfl⟩
      cases name with
      | nil => simp [matchesItems] at matched
      | cons found rest =>
        have parts : foldCase last found = true ∧ rest = [] := by simpa [matchesItems] using matched
        rw [parts.2]
        exact .letter other (foldCase_iff.mp parts.1) .empty
  | case4 second rest ih =>
    rw [readName, if_pos rfl]
    simp only [Prod.map_fst, Prod.map_snd, id]
    constructor
    · intro taken
      cases taken with
      | letter plain => exact absurd rfl plain
      | dropped plain same later =>
        have remaining := ih.mp later
        simpa [plain.1, plain.2, matchesItems, foldCase_iff.mpr same] using remaining
      | anyText skipped later =>
        obtain ⟨matched, ends⟩ := ih.mp later
        have own : foldCase '\\' '\\' = true := by decide
        refine ⟨?_, ends⟩
        simp only [if_true, matchesItems, own, Bool.true_and, List.any_eq_true, List.mem_tails]
        exact ⟨_, List.suffix_append skipped _, matched⟩
      | anyLetter skipped later =>
        have own : foldCase '\\' '\\' = true := by decide
        have remaining := ih.mp later
        simpa [matchesItems, own] using remaining
    · rintro ⟨matched, ends⟩
      by_cases percent : second = '%'
      · subst percent
        rw [if_pos rfl] at matched
        cases name with
        | nil => simp [matchesItems] at matched
        | cons found name =>
          simp only [matchesItems, Bool.and_eq_true, List.any_eq_true, List.mem_tails] at matched
          obtain ⟨same, tail, ⟨skipped, rfl⟩, remaining⟩ := matched
          have own := foldCase_iff.mp same
          rw [(sameLetter_iff_eq (by decide) (by decide)).mp own]
          exact .anyText skipped (ih.mpr ⟨remaining, ends⟩)
      · by_cases underscore : second = '_'
        · subst underscore
          rw [if_neg percent, if_pos rfl] at matched
          cases name with
          | nil => simp [matchesItems] at matched
          | cons found rest =>
            cases rest with
            | nil => simp [matchesItems] at matched
            | cons skipped name =>
              simp only [matchesItems, Bool.and_eq_true] at matched
              have own := foldCase_iff.mp matched.1
              rw [(sameLetter_iff_eq (by decide) (by decide)).mp own]
              exact .anyLetter skipped (ih.mpr ⟨matched.2, ends⟩)
        · rw [if_neg percent, if_neg underscore] at matched
          cases name with
          | nil => simp [matchesItems] at matched
          | cons found name =>
            rw [matchesItems, Bool.and_eq_true] at matched
            exact .dropped ⟨percent, underscore⟩ (foldCase_iff.mp matched.1)
              (ih.mpr ⟨matched.2, ends⟩)
  | case5 first second rest other ih =>
    rw [readName, if_neg other]
    simp only [Prod.map_fst, Prod.map_snd, id]
    constructor
    · intro taken
      cases taken with
      | letter plain same later =>
        have remaining := ih.mp later
        simpa [matchesItems, foldCase_iff.mpr same] using remaining
      | dropped => exact absurd rfl other
      | anyText => exact absurd rfl other
      | anyLetter => exact absurd rfl other
    · rintro ⟨matched, ends⟩
      cases name with
      | nil => simp [matchesItems] at matched
      | cons found name =>
        rw [matchesItems, Bool.and_eq_true] at matched
        exact .letter other (foldCase_iff.mp matched.1) (ih.mpr ⟨matched.2, ends⟩)

/-- A subtree statement reads a prefix exactly among some paths: none of them
lies below another name that the prefix is taken for, and each one below the
prefix lies below such a name. -/
structure SubtreeReadExactly (paths : List Text) (pathPrefix : Text) : Prop where
  noOther : ∀ path ∈ paths, ∀ name rest leftOver,
    path = name ++ '/' :: rest → TakenFor pathPrefix name leftOver →
      underPath path pathPrefix = true
  reached : ∀ path ∈ paths, ∀ rest, path = pathPrefix ++ '/' :: rest → ∃ name below leftOver,
      path = name ++ '/' :: below ∧ TakenFor pathPrefix name leftOver

/-- A name starts with something that a prefix is taken for.  A backslash left
over at the end of the prefix asks for a percent sign and nothing more. -/
def StartsAsRead (start name : Text) : Prop :=
  ∃ begun rest leftOver, name = begun ++ rest ∧
    TakenFor start begun leftOver ∧ (leftOver = true → rest = ['%'])

/-- A statement for names that start with a prefix reads it exactly among
some names. -/
def StartReadExactly (names : List Text) (start : Text) : Prop :=
  ∀ name ∈ names, StartsAsRead start name ↔ start <+: name

section

variable {pathPrefix path start name : Text}

theorem selects_sqlite_iff :
    Store.selects .sqlite pathPrefix path = true ↔ path = pathPrefix ∨ ∃ name rest leftOver,
        path = name ++ '/' :: rest ∧ TakenFor pathPrefix name leftOver := by
  rw [Store.selects, Bool.or_eq_true, decide_eq_true_eq, Store.subtreePattern]
  refine or_congr Iff.rfl ?_
  show like foldCase '\\' path (escapeLetters '\\' ['%', '_'] pathPrefix ++ ['/', '%']) = true ↔ _
  rw [like_below_read_iff (by decide) (by decide) (by decide)]
  simp only [takenFor_iff, foldCase_iff]
  constructor
  · rintro ⟨above, letter, rest, rfl, matched, separates⟩
    rw [(sameLetter_iff_eq (by decide) (by decide)).mp separates]
    exact ⟨above, rest, _, rfl, matched, rfl⟩
  · rintro ⟨above, rest, leftOver, rfl, matched, _⟩
    exact ⟨above, '/', rest, rfl, matched, rfl⟩

theorem selectsKey_sqlite_iff :
    RecordBackend.selectsKey .sqlite start name = true ↔ StartsAsRead start name := by
  show like foldCase '\\' name (escapeLetters '\\' ['%', '_'] start ++ ['%']) = true ↔ _
  rw [like_start_read_iff (by decide) (by decide)]
  simp only [StartsAsRead, takenFor_iff, foldCase_iff]
  constructor
  · rintro ⟨begun, rest, rfl, matched, ends⟩
    refine ⟨begun, rest, _, rfl, ⟨matched, rfl⟩, ?_⟩
    intro leftOver
    obtain ⟨letter, rfl, percent⟩ := ends leftOver
    rw [(sameLetter_iff_eq (by decide) (by decide)).mp percent]
  · rintro ⟨begun, rest, leftOver, rfl, ⟨matched, rfl⟩, ends⟩
    refine ⟨begun, rest, rfl, matched, ?_⟩
    intro leftOver
    exact ⟨'%', ends leftOver, rfl⟩

theorem selects_eq_underPath_iff {paths : List Text} :
    (∀ path ∈ paths, Store.selects .sqlite pathPrefix path = underPath path pathPrefix) ↔
      SubtreeReadExactly paths pathPrefix := by
  constructor
  · intro exact
    refine ⟨?_, ?_⟩
    · intro path stored name rest leftOver split taken
      rw [← exact path stored, selects_sqlite_iff]
      exact Or.inr ⟨name, rest, leftOver, split, taken⟩
    · intro path stored rest below
      have selected : Store.selects .sqlite pathPrefix path = true := by
        rw [exact path stored, isUnder_iff]
        exact Or.inr ⟨rest, below⟩
      rcases selects_sqlite_iff.mp selected with same | taken
      · have longer := congrArg List.length (same.symm.trans below)
        simp at longer
      · exact taken
  · intro reads path stored
    rw [Bool.eq_iff_iff, selects_sqlite_iff]
    constructor
    · rintro (rfl | ⟨name, rest, leftOver, split, taken⟩)
      · exact isUnder_iff.mpr (Or.inl rfl)
      · exact reads.noOther path stored name rest leftOver split taken
    · intro under
      rcases isUnder_iff.mp under with same | ⟨rest, below⟩
      · exact Or.inl same
      · exact Or.inr (reads.reached path stored rest below)

theorem selectsKey_eq_isPrefixOf_iff {names : List Text} :
    (∀ name ∈ names, RecordBackend.selectsKey .sqlite start name = start.isPrefixOf name) ↔
      StartReadExactly names start := by
  refine forall₂_congr fun name _ => ?_
  rw [Bool.eq_iff_iff, selectsKey_sqlite_iff, List.isPrefixOf_iff_prefix]

end

/-- What the four operations do to a store and a record table when they go by
the prefix they are given. -/
structure ExactOperations (store : Store) (pathPrefix : Text)
    (table : RecordTable) (tenant scope keyPrefix scopePrefix : Text)
    (now : Nat) : Prop where
  list : ∀ path, (∃ entry ∈ store.listAll pathPrefix, entry.path = path) ↔
    path ∈ store.paths ∧ underPath path pathPrefix = true
  removePrefix : (store.removePrefix pathPrefix).2.rows =
    store.rows.filter fun row => !underPath row.path pathPrefix
  keys : ∀ key, key ∈ table.list tenant scope keyPrefix now ↔
    key ∈ (table.liveRows tenant scope now).map RecordRow.key ∧ keyPrefix <+: key
  scopes : ∀ name, name ∈ table.listScopes tenant scopePrefix ↔
    name ∈ (table.rows.filter (·.tenant = tenant)).map RecordRow.scope ∧ scopePrefix <+: name

section

variable {store : Store} {pathPrefix : Text}

theorem listAll_exact_iff (sqlite : store.backend = .sqlite) (nonempty : pathPrefix ≠ []) :
    (∀ path, (∃ entry ∈ store.listAll pathPrefix, entry.path = path) ↔
        path ∈ store.paths ∧ underPath path pathPrefix = true) ↔
      SubtreeReadExactly store.paths pathPrefix := by
  simp only [Store.mem_listAll_path_iff, sqlite, nonempty, false_or,
    and_congr_right_iff, ← Bool.eq_iff_iff]
  exact selects_eq_underPath_iff

theorem removePrefix_exact_iff (sqlite : store.backend = .sqlite) :
    (store.removePrefix pathPrefix).2.rows =
        (store.rows.filter fun row => !underPath row.path pathPrefix) ↔
      SubtreeReadExactly store.paths pathPrefix := by
  rw [← selects_eq_underPath_iff]
  have rows : (store.removePrefix pathPrefix).2.rows = store.rows.filter fun row =>
        !Store.selects .sqlite pathPrefix row.path := by
    simp only [Store.removePrefix, Store.keep, sqlite, Store.clears]
  rw [rows]
  constructor
  · intro same path stored
    obtain ⟨row, member, rfl⟩ := Store.mem_paths.mp stored
    have kept := congrArg (row ∈ ·) same
    simp only [List.mem_filter, member, true_and, Bool.not_eq_true', eq_iff_iff] at kept
    rw [Bool.eq_iff_iff, ← not_iff_not, Bool.not_eq_true, Bool.not_eq_true]
    exact kept
  · intro exact
    apply List.filter_congr
    intro row member
    rw [exact row.path (List.mem_map_of_mem member)]

theorem mem_map_filter_iff {Row : Type} {rows : List Row}
    {name : Row → Text} {chosen : Text → Bool} {text : Text} :
    text ∈ (rows.filter fun row => chosen (name row)).map name ↔
      text ∈ rows.map name ∧ chosen text = true := by
  simp only [List.mem_map, List.mem_filter]
  constructor
  · rintro ⟨row, ⟨member, hit⟩, rfl⟩
    exact ⟨⟨row, member, rfl⟩, hit⟩
  · rintro ⟨⟨row, member, rfl⟩, hit⟩
    exact ⟨row, ⟨member, hit⟩, rfl⟩

variable {table : RecordTable} {tenant scope keyPrefix scopePrefix : Text}
  {now : Nat}

theorem mem_list_iff {key : Text} :
    key ∈ table.list tenant scope keyPrefix now ↔
      key ∈ (table.liveRows tenant scope now).map RecordRow.key ∧ StartsAsRead keyPrefix key := by
  rw [RecordTable.list, List.mem_insertionSort, mem_map_filter_iff, selectsKey_sqlite_iff]

theorem mem_listScopes_iff {name : Text} :
    name ∈ table.listScopes tenant scopePrefix ↔
      name ∈ (table.rows.filter (·.tenant = tenant)).map RecordRow.scope ∧
        StartsAsRead scopePrefix name := by
  rw [RecordTable.listScopes, List.mem_insertionSort, List.mem_dedup,
    ← selectsKey_sqlite_iff, ← mem_map_filter_iff, List.filter_filter]
  simp only [Bool.and_comm]

/-- The operations are exact exactly when the statements read the prefixes
exactly. -/
theorem operations_exact_iff {raw : Text} (accepted : normalizeFsPath raw = some pathPrefix)
    (sqlite : store.backend = .sqlite) :
    ExactOperations store pathPrefix table tenant scope keyPrefix scopePrefix now ↔
      SubtreeReadExactly store.paths pathPrefix ∧
        StartReadExactly ((table.liveRows tenant scope now).map RecordRow.key) keyPrefix ∧
        StartReadExactly ((table.rows.filter (·.tenant = tenant)).map RecordRow.scope)
          scopePrefix := by
  have nonempty : pathPrefix ≠ [] := (normalizeFsPath_eq_some_iff.mp accepted).2.1
  constructor
  · intro exact
    refine ⟨(listAll_exact_iff sqlite nonempty).mp exact.list, ?_, ?_⟩
    · intro key stored
      have same := exact.keys key
      rw [mem_list_iff, and_congr_right_iff] at same
      exact same stored
    · intro name stored
      have same := exact.scopes name
      rw [mem_listScopes_iff, and_congr_right_iff] at same
      exact same stored
  · rintro ⟨reads, keys, scopes⟩
    refine ⟨(listAll_exact_iff sqlite nonempty).mpr reads,
      (removePrefix_exact_iff sqlite).mpr reads, ?_, ?_⟩
    · intro key
      rw [mem_list_iff]
      exact and_congr_right (keys key)
    · intro name
      rw [mem_listScopes_iff]
      exact and_congr_right (scopes name)

end

def storedFile (path : String) : FsRow where
  path := path.toList
  hash := "h".toList
  content := "text".toList
  mimeType := "text/plain".toList
  size := 4
  updatedAt := 0
  versioned := true

/-- A folder `docs`, one beside it and one below it with a `%`. -/
def folders : Store where
  backend := .sqlite
  rows := [storedFile "docs/a", storedFile "docs%/b", storedFile "x/docs/c"]
  keys := by decide

/-- Two live keys of a scope, and an expired one. -/
def savedKeys : RecordTable where
  rows := [⟨"w".toList, "kv#1".toList, "a_1".toList, none⟩,
    ⟨"w".toList, "kv#1".toList, "ab1".toList, some 20⟩,
    ⟨"w".toList, "kv#2".toList, "a_2".toList, some 5⟩]
  keys := by decide

theorem operations_exact_folders :
    ExactOperations folders "docs%".toList savedKeys "w".toList
      "kv#1".toList "a_".toList "kv#".toList 10 := by
  have accepted : normalizeFsPath "/docs%/".toList = some "docs%".toList := by decide +kernel
  apply (operations_exact_iff accepted rfl).mpr
  refine ⟨selects_eq_underPath_iff.mp (by decide +kernel),
    selectsKey_eq_isPrefixOf_iff.mp (by decide +kernel),
    selectsKey_eq_isPrefixOf_iff.mp (by decide +kernel)⟩

/-- Two folders whose names differ in the case of a letter. -/
def twoCases : Store where
  backend := .sqlite
  rows := [storedFile "docs/a", storedFile "Docs/b"]
  keys := by decide

/-- The prefix `docs` reaches into `Docs`. -/
theorem operations_inexact :
    ¬∀ (store : Store) (raw pathPrefix : Text), store.backend = .sqlite →
        normalizeFsPath raw = some pathPrefix → ∀ table tenant scope keyPrefix scopePrefix now,
            ExactOperations store pathPrefix table tenant scope keyPrefix
              scopePrefix now := by
  intro exact
  have removed := (exact twoCases "docs".toList "docs".toList rfl
    (by decide +kernel) savedKeys "w".toList "kv#1".toList [] [] 10
    ).removePrefix
  revert removed
  decide +kernel

end Aprovan.Fs
