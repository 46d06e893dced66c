import Aprovan.Fs.Store

/-!
# The methods of the file store

`IFsStore` as requests and results, and the contract that its comments state
for what can be observed of one store.

The rows of a store with increasing times stand in the order in which its
listings sort them: the newest version of a path is its last row.
-/

namespace Aprovan.Fs

open Aprovan.Library

structure FsFile extends FsEntry where
  content : Text
  deriving DecidableEq

def FsRow.file (row : FsRow) : FsFile :=
  { row.entry with content := row.content }

inductive StoreMethod where
  | list (pathPrefix : Text) (limit : Option Int) (cursor : Text)
  | listVersions (path : Text)
  | read (path : Text) (hash : Option Text)
  | write (path content : Text) (mimeType : Option Text)
      (versioned : Option Bool)
  | remove (path : Text)
  | removePrefix (pathPrefix : Text)

/-- A call of a method, and the time that the clock shows. -/
structure StoreRequest where
  now : Nat
  method : StoreMethod

inductive StoreResult where
  | page (page : Store.FsListPage)
  | versions (entries : List FsEntry)
  | found (file : Option FsFile)
  | written (file : FsFile)
  | removed (any : Bool)
  | count (files : Nat)
  | thrown
  deriving DecidableEq

def StoreResult.entries : StoreResult → List FsEntry
  | .page shown => shown.entries
  | .versions entries => entries
  | .found file => (file.map FsFile.toFsEntry).toList
  | _ => []

def writtenFile (sha256 : Text → Text) (now : Nat) (path content : Text) (mimeType : Option Text) :
    FsFile where
  path := path
  hash := sha256 content
  mimeType := mimeType.getD "text/plain".toList
  size := byteLength content
  updatedAt := now
  content := content

namespace Store

def writtenRow (sha256 : Text → Text) (now : Nat)
    (path content mimeType : Text) (versioned : Bool) : FsRow where
  path := path
  hash := sha256 content
  content := content
  mimeType := mimeType
  size := byteLength content
  updatedAt := now
  versioned := versioned

/-- The rows that `listVersions` selects. -/
def versionRows (store : Store) (path : Text) : List FsRow :=
  store.rows.filter fun row => row.path = path && (store.backend = .sqlite || row.versioned)

/-- `ORDER BY updated_at DESC, rowid DESC`. -/
def listVersions (store : Store) (path : Text) : List FsEntry :=
  ((store.versionRows path).reverse.insertionSort
    fun first second => second.updatedAt ≤ first.updatedAt).map FsRow.entry

def serve (sha256 : Text → Text) (store : Store) (request : StoreRequest) : StoreResult × Store :=
  match request.method with
  | .list pathPrefix limit cursor =>
    (match store.list pathPrefix limit cursor with
      | some page => .page page
      | none => .thrown, store)
  | .listVersions path => (.versions (store.listVersions path), store)
  | .read path hash => (.found ((store.read path hash).map FsRow.file), store)
  | .write path content mimeType versioned =>
    (.written (writtenFile sha256 request.now path content mimeType),
      store.write sha256 request.now path content (mimeType.getD "text/plain".toList) versioned)
  | .remove path => (.removed (store.remove path).1, (store.remove path).2)
  | .removePrefix pathPrefix =>
    (.count (store.removePrefix pathPrefix).1, (store.removePrefix pathPrefix).2)

end Store

/-- What the methods that change nothing answer. -/
abbrev Observation :=
  StoreMethod → StoreResult

def Observation.listing (observe : Observation) : List FsEntry :=
  (observe (.list [] none [])).entries

/-- The listing, the latest read and the first version of a path show one
hash, and the read that is pinned to it has the content. -/
structure Contract (observe : Observation) : Prop where
  listed : ∀ path, (observe.listing.find? (·.path = path)).map FsEntry.hash =
      (observe (.read path none)).entries.head?.map FsEntry.hash
  newest : ∀ path, (observe (.listVersions path)).entries.head?.map FsEntry.hash =
      (observe (.read path none)).entries.head?.map FsEntry.hash
  pinned : ∀ path file, observe (.read path none) = .found (some file) →
    ∃ same, observe (.read path (some file.hash)) = .found (some same) ∧
      same.content = file.content

/-- How many files were there before and are not there any more. -/
def filesRemoved (before after : Observation) : Nat :=
  (before.listing.filter fun entry => entry.path ∉ after.listing.map FsEntry.path).length

def Store.observe (store : Store) : Observation :=
  fun method => (store.serve id ⟨0, method⟩).1

theorem contract_congr {first second : Observation}
    (listing : first (.list [] none []) = second (.list [] none []))
    (versions : ∀ path, first (.listVersions path) = second (.listVersions path))
    (reads : ∀ path hash, first (.read path hash) = second (.read path hash))
    (contract : Contract first) : Contract second := by
  constructor
  · intro path
    rw [Observation.listing, ← listing, ← reads]
    exact contract.listed path
  · intro path
    rw [← versions, ← reads]
    exact contract.newest path
  · intro path file found
    rw [← reads] at found ⊢
    exact contract.pinned path file found

namespace Store

/-- The rows stand in the order of their times. -/
def Chronological (store : Store) : Prop :=
  store.rows.Pairwise fun before after => before.updatedAt < after.updatedAt

def AllVersioned (store : Store) : Prop :=
  ∀ row ∈ store.rows, row.versioned = true

variable {store : Store} {path : Text}
  {sha256 : Text → Text} {now : Nat} {content mimeType : Text}
  {versioned : Option Bool}

theorem mem_rows_write {row : FsRow} :
    row ∈ (store.write sha256 now path content mimeType versioned).rows ↔
      (row ∈ store.rows ∧ survivesWrite store.backend
          (versioned.getD (!isServicePath path)) path (sha256 content) row =
        true) ∨
      row = writtenRow sha256 now path content mimeType
        (versioned.getD (!isServicePath path)) := by
  show row ∈ store.rows.filter _ ++ [_] ↔ _
  rw [List.mem_append, List.mem_filter, List.mem_singleton]
  exact Iff.rfl

theorem chronological_keep (chronological : store.Chronological) (condition : FsRow → Bool) :
    (store.keep condition).Chronological :=
  List.Pairwise.filter condition chronological

theorem chronological_write (chronological : store.Chronological)
    (older : ∀ row ∈ store.rows, row.updatedAt < now) :
    (store.write sha256 now path content mimeType versioned).Chronological := by
  show List.Pairwise _ (_ ++ [_])
  rw [List.pairwise_append]
  refine ⟨List.Pairwise.filter _ chronological, List.pairwise_singleton _ _, ?_⟩
  intro before member after isNew
  rw [List.mem_singleton.mp isNew]
  exact older before (List.mem_filter.mp member).1

theorem latest_eq_getLast? (chronological : store.Chronological) (path : Text) :
    store.latest path = (store.rows.filter (·.path = path)).getLast? := by
  unfold latest
  have sorted : (store.rows.filter (·.path = path)).Pairwise
      fun before after => before.updatedAt < after.updatedAt :=
    List.Pairwise.filter _ chronological
  rcases List.eq_nil_or_concat (store.rows.filter (·.path = path)) with
    empty | ⟨front, last, split⟩
  · rw [empty]
    rfl
  · rw [split, List.concat_eq_append] at sorted ⊢
    rw [List.getLast?_concat]
    apply foldl_newer_last
    · intro row member
      exact le_of_lt ((List.pairwise_append.mp sorted).2.2 row member last
        (List.mem_singleton_self last))
    · intro row impossible
      cases impossible

theorem latest_write_dsql (backend : store.backend = .dsql) :
    (store.write sha256 now path content mimeType versioned).latest path =
      some (writtenRow sha256 now path content mimeType
        (versioned.getD (!isServicePath path))) := by
  have rows : (store.write sha256 now path content mimeType
      versioned).rows.filter (·.path = path) =
      ((store.keep (survivesWrite store.backend (versioned.getD (!isServicePath path)) path
          (sha256 content))).rows.filter (·.path = path)) ++
        [writtenRow sha256 now path content mimeType (versioned.getD (!isServicePath path))] := by
    show (_ ++ [_]).filter _ = _
    rw [List.filter_append]
    congr 1
    exact List.filter_eq_self.mpr fun row member => by
      rw [List.mem_singleton.mp member]
      exact decide_eq_true rfl
  unfold latest
  rw [rows, List.foldl_append]
  show newer store.backend _ _ = _
  unfold newer
  split
  · rfl
  · rw [backend]
    rfl

theorem listVersions_eq_reverse (chronological : store.Chronological) (path : Text) :
    store.listVersions path = (store.versionRows path).reverse.map FsRow.entry := by
  have sorted : (store.versionRows path).reverse.Pairwise
      fun first second => second.updatedAt ≤ first.updatedAt := by
    rw [List.pairwise_reverse]
    exact (List.Pairwise.filter _ chronological).imp fun before => le_of_lt before
  unfold listVersions
  rw [List.Pairwise.insertionSort_eq sorted]

theorem versionRows_of_allVersioned (versioned : store.AllVersioned) (path : Text) :
    store.versionRows path = store.rows.filter (·.path = path) := by
  apply List.filter_congr
  intro row member
  rw [versioned row member, Bool.or_true, Bool.and_true]

theorem version_eq_some_iff {hash : Text} {row : FsRow} :
    store.version path hash = some row ↔ row ∈ store.rows ∧ row.path = path ∧ row.hash = hash ∧
        (store.backend = .sqlite ∨ row.versioned = true) := by
  have hit : ∀ other : FsRow, (other.path = path && other.hash = hash &&
      (store.backend = .sqlite || other.versioned)) = true ↔
      other.path = path ∧ other.hash = hash ∧
        (store.backend = .sqlite ∨ other.versioned = true) := by
    intro other
    simp only [Bool.and_eq_true, Bool.or_eq_true, decide_eq_true_eq, and_assoc]
  constructor
  · intro found
    have passes := List.find?_some found
    exact ⟨List.mem_of_find?_eq_some found, (hit row).mp passes⟩
  · intro held
    obtain ⟨member, conditions⟩ := held
    cases found : store.version path hash with
    | none =>
      have absent := List.find?_eq_none.mp found row member
      exact absurd ((hit row).mpr conditions) absent
    | some other =>
      have passes := List.find?_some found
      have otherHit := (hit other).mp passes
      have sameKey : other.key = row.key := by
        rw [FsRow.key, FsRow.key, otherHit.1, otherHit.2.1, conditions.1, conditions.2.1]
      rw [List.inj_on_of_nodup_map store.keys (List.mem_of_find?_eq_some found) member sameKey]

theorem version_write (minted : versioned.getD (!isServicePath path) = true) (other hash : Text) :
    (store.write sha256 now path content mimeType versioned).version other hash =
      if (path, sha256 content) = (other, hash) then
        some (writtenRow sha256 now path content mimeType true)
      else
        store.version other hash := by
  apply Option.ext
  intro row
  rw [version_eq_some_iff, mem_rows_write, minted]
  by_cases own : (path, sha256 content) = (other, hash)
  · rw [if_pos own]
    cases own
    constructor
    · intro held
      rcases held.1 with ⟨_, survives⟩ | same
      · simp [survivesWrite, held.2.1, held.2.2.1] at survives
      · rw [same]
    · intro same
      cases same
      exact ⟨Or.inr rfl, rfl, rfl, Or.inr rfl⟩
  · rw [if_neg own, version_eq_some_iff]
    constructor
    · intro held
      rcases held.1 with ⟨member, _⟩ | same
      · exact ⟨member, held.2⟩
      · subst same
        exact absurd (Prod.ext held.2.1 held.2.2.1) own
    · intro held
      refine ⟨Or.inl ⟨held.1, ?_⟩, held.2⟩
      rw [survivesWrite, held.2.1, held.2.2.1]
      have different : ¬(other = path ∧ hash = sha256 content) :=
        fun both => own (Prod.ext both.1.symm both.2.symm)
      have kept := held.2.2.2
      by_cases samePath : other = path
      · have otherHash : hash ≠ sha256 content :=
          fun same => different ⟨samePath, same⟩
        simp [samePath, otherHash, kept]
      · simp [samePath]

theorem version_keep_path (store : Store) (kept : Text → Bool) (path hash : Text) :
    (store.keep fun row => kept row.path).version path hash =
      if kept path then store.version path hash else none := by
  apply Option.ext
  intro row
  rw [version_eq_some_iff, keep, List.mem_filter]
  by_cases stays : kept path = true
  · rw [if_pos stays, version_eq_some_iff]
    constructor
    · intro held
      exact ⟨held.1.1, held.2⟩
    · intro held
      refine ⟨⟨held.1, ?_⟩, held.2⟩
      rw [held.2.1]
      exact stays
  · rw [if_neg stays]
    constructor
    · intro held
      rw [held.2.1] at held
      exact absurd held.1.2 stays
    · intro impossible
      cases impossible

theorem latest_keep_path (store : Store) (kept : Text → Bool) (path : Text) :
    (store.keep fun row => kept row.path).latest path =
      if kept path then store.latest path else none := by
  by_cases stays : kept path = true
  · rw [if_pos stays]
    apply read_keep _ none
    intro row _ own
    rw [own]
    exact stays
  · rw [if_neg stays, latest_eq_none_iff, mem_paths_keep]
    intro present
    obtain ⟨row, _, kept, rfl⟩ := present
    exact stays kept

theorem contract_observe (chronological : store.Chronological) (versioned : store.AllVersioned) :
    Contract store.observe := by
  have reads : ∀ path, (store.observe (.read path none)).entries.head? =
      (store.latest path).map FsRow.entry := by
    intro path
    show (((store.latest path).map FsRow.file).map FsFile.toFsEntry).toList.head? = _
    cases store.latest path <;> rfl
  constructor
  · intro path
    rw [reads]
    congr 1
    show (store.selected [] []).find? (·.path = path) = _
    cases found : store.latest path with
    | none =>
      rw [Option.map_none, List.find?_eq_none]
      intro entry member
      obtain ⟨⟨row, other, _⟩, _⟩ := mem_selected_iff.mp member
      intro same
      rw [of_decide_eq_true same, found] at other
      cases other
    | some row =>
      have samePath : row.entry.path = path := (mem_of_latest found).2
      have member : row.entry ∈ store.selected [] [] := by
        rw [mem_selected_iff, samePath]
        exact ⟨⟨row, found, rfl⟩, Or.inl rfl, Or.inl rfl⟩
      cases search : (store.selected [] []).find? (·.path = path) with
      | none =>
        have absent := List.find?_eq_none.mp search _ member
        exact absurd (decide_eq_true samePath) absent
      | some entry =>
        obtain ⟨⟨other, foundOther, same⟩, _⟩ :=
          mem_selected_iff.mp (List.mem_of_find?_eq_some search)
        have entryPath : entry.path = path := by simpa using List.find?_some search
        rw [entryPath, found] at foundOther
        cases foundOther
        rw [Option.map_some, same]
  · intro path
    rw [reads]
    congr 1
    show (store.listVersions path).head? = _
    rw [listVersions_eq_reverse chronological,
      versionRows_of_allVersioned versioned, latest_eq_getLast? chronological,
      List.head?_map, List.head?_reverse]
  · intro path file found
    have foundFile : (store.latest path).map FsRow.file = some file := by
      injection found
    obtain ⟨row, newest, same⟩ := Option.map_eq_some_iff.mp foundFile
    obtain ⟨member, samePath⟩ := mem_of_latest newest
    have hash : file.hash = row.hash := by
      rw [← same]
      rfl
    refine ⟨file, ?_, rfl⟩
    show StoreResult.found ((store.read path (some file.hash)).map FsRow.file) = _
    have pinned : store.read path (some file.hash) = some row := by
      unfold read
      dsimp only
      by_cases empty : file.hash = []
      · rw [if_pos empty, newest]
      · rw [if_neg empty, hash]
        exact version_eq_some_iff.mpr ⟨member, samePath, rfl, Or.inr (versioned row member)⟩
    rw [pinned, Option.map_some, same]

end Store

end Aprovan.Fs
