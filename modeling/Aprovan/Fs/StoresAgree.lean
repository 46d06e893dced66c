import Aprovan.Fs.DsqlTables
import Aprovan.Library.Runs

/-!
# The file stores agree

One list of calls is served by the SQLite store and by the DSQL tables, at
increasing times.  They agree as long as every write keeps its version and the
subtree statements select the same files, of which a removal finds one version
each.
-/

namespace Aprovan.Fs

open Aprovan.Library Dsql

section

variable (sha256 : Text → Text) (jsonBytes : FsEntry → Nat)

def Dsql.Tables.observe (tables : Tables) : Observation :=
  fun method => (tables.serve id (fun _ => 0) ⟨0, method⟩).1

/-- A removal of a subtree answers how many files it has removed. -/
def CountsFiles (method : StoreMethod) (result : StoreResult) (before after : Observation) :
    Prop :=
  match method with
  | .removePrefix _ => result = .count (filesRemoved before after)
  | _ => True

/-- The call has one result, and both stores keep the contract. -/
structure ServedAlike (store : Store) (tables : Tables) (request : StoreRequest) : Prop where
  result : (store.serve sha256 request).1 = (tables.serve sha256 jsonBytes request).1
  storeContract : Contract (store.serve sha256 request).2.observe
  tablesContract : Contract (tables.serve sha256 jsonBytes request).2.observe
  storeCounts : CountsFiles request.method (store.serve sha256 request).1
    store.observe (store.serve sha256 request).2.observe
  tablesCounts : CountsFiles request.method (tables.serve sha256 jsonBytes request).1
    tables.observe (tables.serve sha256 jsonBytes request).2.observe

/-- The statements select the same of the stored files. -/
def SelectAlike (store : Store) (pathPrefix cursor : Text) : Prop :=
  pathPrefix = [] ∨ ∀ path ∈ store.paths, cursor = [] ∨ cursor < path →
    Store.selects .sqlite pathPrefix path = Store.selects .dsql pathPrefix path
  deriving Decidable

/-- A bound that DSQL rejects leaves SQLite without a last entry. -/
def BoundAlike (store : Store) (pathPrefix : Text) (limit : Option Int) (cursor : Text) : Prop :=
  match limit with
  | none => True
  | some bound => -1 ≤ bound ∨ (store.selected pathPrefix cursor).length ≤ (-bound).toNat

def StoresCondition (store : Store) : StoreMethod → Prop
  | .list pathPrefix limit cursor =>
    SelectAlike store pathPrefix cursor ∧ BoundAlike store pathPrefix limit cursor
  | .listVersions _ => True
  | .read _ _ => True
  | .write path content _ versioned =>
    versioned.getD (!isServicePath path) = true ∧ NoCollision sha256 store path content
  | .remove path => (store.versionRows path).length ≤ maxRowsPerTransaction
  | .removePrefix pathPrefix =>
    (∀ path ∈ store.paths, Store.clears .sqlite pathPrefix path =
      Store.clears .dsql pathPrefix path) ∧
    OneVersionEach store pathPrefix

def emptyStore : Store :=
  ⟨.sqlite, [], Fs.Store.keys_nil⟩

end

namespace Store

variable {store : Store}

def asDsql (store : Store) : Store :=
  { store with backend := .dsql }

theorem latest_asDsql (chronological : store.Chronological) (path : Text) :
    store.asDsql.latest path = store.latest path := by
  have same : store.asDsql.Chronological := chronological
  rw [latest_eq_getLast? same, latest_eq_getLast? chronological]
  rfl

theorem version_asDsql (versioned : store.AllVersioned) (path hash : Text) :
    store.asDsql.version path hash = store.version path hash := by
  apply Option.ext
  intro row
  rw [version_eq_some_iff, version_eq_some_iff]
  constructor
  · intro held
    exact ⟨held.1, held.2.1, held.2.2.1, Or.inr (versioned row held.1)⟩
  · intro held
    exact ⟨held.1, held.2.1, held.2.2.1, Or.inr (versioned row held.1)⟩

theorem read_asDsql (chronological : store.Chronological)
    (versioned : store.AllVersioned) (path : Text) (hash : Option Text) :
    store.asDsql.read path hash = store.read path hash := by
  cases hash with
  | none => exact latest_asDsql chronological path
  | some hash => simp only [read, latest_asDsql chronological, version_asDsql versioned]

theorem listVersions_asDsql (versioned : store.AllVersioned) (path : Text) :
    store.asDsql.listVersions path = store.listVersions path := by
  have same : store.asDsql.AllVersioned := versioned
  rw [listVersions, listVersions, versionRows_of_allVersioned same,
    versionRows_of_allVersioned versioned]
  rfl

variable {pathPrefix : Text}

theorem selected_asDsql (backend : store.backend = .sqlite) (chronological : store.Chronological)
    {cursor : Text} (alike : SelectAlike store pathPrefix cursor) :
    store.asDsql.selected pathPrefix cursor = store.selected pathPrefix cursor := by
  have latest : (fun path => (store.asDsql.latest path).map FsRow.entry) =
      fun path => (store.latest path).map FsRow.entry :=
    funext fun path => by rw [latest_asDsql chronological]
  have names : store.paths.dedup.filter (fun path =>
        (pathPrefix = [] || selects .dsql pathPrefix path) && (cursor = [] || cursor < path)) =
      store.paths.dedup.filter fun path =>
        (pathPrefix = [] || selects store.backend pathPrefix path) &&
          (cursor = [] || cursor < path) := by
    apply List.filter_congr
    intro path member
    rw [backend]
    rcases alike with whole | alike
    · simp [whole]
    · by_cases past : cursor = [] ∨ cursor < path
      · rw [alike path (List.mem_dedup.mp member) past]
      · rw [not_or] at past
        simp [past.1, past.2]
  unfold selected
  rw [latest, ← names]
  rfl

theorem limited_of_le {Value : Type} (first second : Backend)
    (values : List Value) {limit : Int} (bound : -1 ≤ limit) :
    limited first values limit = limited second values limit := by
  unfold limited
  by_cases zero : limit = 0
  · rw [if_pos zero, if_pos zero]
  · rw [if_neg zero, if_neg zero, if_pos (by omega), if_pos (by omega)]

theorem list_asDsql (backend : store.backend = .sqlite) (chronological : store.Chronological)
    {cursor : Text} {limit : Option Int} (alike : SelectAlike store pathPrefix cursor)
    (bounds : BoundAlike store pathPrefix limit cursor) :
    store.asDsql.list pathPrefix limit cursor = store.list pathPrefix limit cursor := by
  have same := selected_asDsql backend chronological alike
  cases limit with
  | none => simp only [list, same]
  | some bound =>
    by_cases usual : -1 ≤ bound
    · simp only [list, same, limited_of_le store.asDsql.backend store.backend _ usual]
    · have short := bounds.resolve_left usual
      have negative : bound < 0 := by omega
      have rejects : store.asDsql.backend = .dsql := rfl
      rw [list_negative _ _ _ negative, list_negative _ _ _ negative,
        if_pos (Or.inr rejects), if_neg]
      · dsimp only
        rw [Nat.sub_eq_zero_of_le short]
        rfl
      · rw [backend]
        rintro (one | impossible)
        · omega
        · cases impossible

theorem write_asDsql (versioned : store.AllVersioned) {sha256 : Text → Text} {now : Nat}
    {path content mimeType : Text} {minted : Option Bool} :
    (store.write sha256 now path content mimeType minted).asDsql =
      store.asDsql.write sha256 now path content mimeType minted := by
  have kept : store.rows.filter (survivesWrite store.backend
        (minted.getD (!isServicePath path)) path (sha256 content)) =
      store.rows.filter (survivesWrite .dsql
        (minted.getD (!isServicePath path)) path (sha256 content)) := by
    apply List.filter_congr
    intro row member
    simp only [survivesWrite, versioned row member, Bool.or_true, Bool.and_true]
  simp only [asDsql, write, keep, kept]

theorem removePrefix_asDsql (backend : store.backend = .sqlite)
    (clear : ∀ path ∈ store.paths, clears .sqlite pathPrefix path = clears .dsql pathPrefix path) :
    (store.removePrefix pathPrefix).2.asDsql = (store.asDsql.removePrefix pathPrefix).2 := by
  have kept : store.rows.filter (fun row => !clears store.backend pathPrefix row.path) =
      store.rows.filter fun row => !clears .dsql pathPrefix row.path := by
    apply List.filter_congr
    intro row member
    rw [backend, clear row.path (mem_paths.mpr ⟨row, member, rfl⟩)]
  simp only [asDsql, removePrefix, keep, kept]

theorem filesRemoved_removePrefix (store : Store) (pathPrefix : Text) :
    filesRemoved store.observe (store.removePrefix pathPrefix).2.observe =
      ((store.rows.filter fun row =>
        clears store.backend pathPrefix row.path).map FsRow.path).dedup.length := by
  have listing : ∀ (other : Store) path, path ∈ other.observe.listing.map FsEntry.path ↔
        path ∈ other.paths := by
    intro other path
    rw [List.mem_map]
    refine mem_listAll_path_iff.trans ?_
    rw [and_iff_left (Or.inl rfl)]
  have nodup : (store.observe.listing.map FsEntry.path).Nodup := by
    rw [List.Nodup, List.pairwise_map]
    exact (store.selected_sorted [] []).imp fun before => ne_of_lt before
  unfold filesRemoved
  rw [← List.length_map (f := FsEntry.path)]
  apply List.Perm.length_eq
  rw [List.perm_ext_iff_of_nodup (nodup.sublist (List.filter_sublist.map FsEntry.path))
    (List.nodup_dedup _)]
  intro path
  rw [List.mem_dedup, List.mem_map, List.mem_map]
  simp only [List.mem_filter, decide_eq_true_eq]
  constructor
  · intro held
    obtain ⟨entry, ⟨member, gone⟩, rfl⟩ := held
    have stored := (listing store entry.path).mp (List.mem_map_of_mem member)
    obtain ⟨row, inside, own⟩ := mem_paths.mp stored
    refine ⟨row, ⟨inside, ?_⟩, own⟩
    rw [own]
    rw [listing, mem_paths_removePrefix, not_and] at gone
    exact eq_true_of_ne_false (gone stored)
  · intro held
    obtain ⟨row, ⟨inside, cleared⟩, rfl⟩ := held
    have stored : row.path ∈ store.observe.listing.map FsEntry.path :=
      (listing store row.path).mpr (mem_paths.mpr ⟨row, inside, rfl⟩)
    obtain ⟨entry, member, own⟩ := List.mem_map.mp stored
    refine ⟨entry, ⟨member, ?_⟩, own⟩
    rw [own, listing, mem_paths_removePrefix, cleared]
    intro both
    cases both.2

end Store

/-- The tables represent the rows of the store, each of them a version, in
the order of their times. -/
structure Related (store : Store) (tables : Tables) : Prop where
  backend : store.backend = .sqlite
  represents : Represents tables store.asDsql
  chronological : store.Chronological
  versioned : store.AllVersioned

section

variable {sha256 : Text → Text} {jsonBytes : FsEntry → Nat} {store : Store}
  {tables : Tables}

theorem related_empty : Related emptyStore emptyTables := by
  refine ⟨rfl, ⟨rfl, fun _ => rfl, fun _ _ => rfl, ?_⟩, List.Pairwise.nil, ?_⟩
  · intro row impossible
    cases impossible
  · intro row impossible
    cases impossible

section

variable (related : Related store tables)

include related

theorem Related.list {pathPrefix cursor : Text} {limit : Option Int}
    (alike : SelectAlike store pathPrefix cursor)
    (bounds : BoundAlike store pathPrefix limit cursor) :
    store.list pathPrefix limit cursor = tables.list pathPrefix limit cursor := by
  rw [related.represents.list, Store.list_asDsql related.backend
    related.chronological alike bounds]

theorem Related.listVersions (path : Text) :
    store.listVersions path = tables.listVersions path := by
  have rows : store.asDsql.Chronological := related.chronological
  rw [related.represents.listVersions rows, Store.listVersions_asDsql related.versioned]

theorem Related.read (path : Text) (hash : Option Text) :
    .found ((store.read path hash).map FsRow.file) = tables.read path hash := by
  rw [related.represents.read, Store.read_asDsql related.chronological related.versioned]

theorem Related.listing :
    store.observe (.list [] none []) = tables.observe (.list [] none []) := by
  have same : store.list [] none [] = tables.list [] none [] := related.list (Or.inl rfl) trivial
  cases listed : tables.list [] none [] <;>
    simp only [Store.observe, Tables.observe, Store.serve, Tables.serve, same, listed]

theorem Related.contracts : Contract store.observe ∧ Contract tables.observe := by
  have contract := Store.contract_observe related.chronological related.versioned
  exact ⟨contract, contract_congr related.listing
    (fun path => congrArg StoreResult.versions (related.listVersions path))
    related.read contract⟩

theorem related_write {now : Nat} {path content : Text} (mimeType : Option Text)
    {minted : Option Bool} (kept : minted.getD (!isServicePath path) = true)
    (noCollision : NoCollision sha256 store path content)
    (older : ∀ row ∈ store.rows, row.updatedAt < now) :
    (tables.write sha256 now path content mimeType minted).1 =
        .written (writtenFile sha256 now path content mimeType) ∧
      Related (store.write sha256 now path content (mimeType.getD "text/plain".toList) minted)
        (tables.write sha256 now path content mimeType minted).2 := by
  have collides : NoCollision sha256 store.asDsql path content := noCollision
  obtain ⟨result, represents⟩ :=
    represents_write related.represents now mimeType kept collides
  rw [← Store.write_asDsql related.versioned] at represents
  refine ⟨result, related.backend, represents,
    Store.chronological_write related.chronological older, ?_⟩
  intro row member
  rcases Store.mem_rows_write.mp member with ⟨old, _⟩ | same
  · exact related.versioned row old
  · rw [same]
    exact kept

theorem related_remove {path : Text}
    (fits : (store.versionRows path).length ≤ maxRowsPerTransaction) :
    .removed (store.remove path).1 = (tables.remove path).1 ∧
      Related (store.remove path).2 (tables.remove path).2 := by
  have rows : store.asDsql.versionRows path = store.versionRows path := by
    have versioned : store.asDsql.AllVersioned := related.versioned
    rw [Store.versionRows_of_allVersioned versioned,
      Store.versionRows_of_allVersioned related.versioned]
    rfl
  rw [← rows] at fits
  obtain ⟨result, represents⟩ := represents_remove related.represents fits
  refine ⟨result.symm, related.backend, represents,
    Store.chronological_keep related.chronological _, ?_⟩
  intro row member
  exact related.versioned row (List.mem_filter.mp member).1

theorem Related.cleared {pathPrefix : Text}
    (clear : ∀ path ∈ store.paths, Store.clears .sqlite pathPrefix path =
      Store.clears .dsql pathPrefix path) :
    store.rows.filter (fun row => Store.clears store.backend pathPrefix row.path) =
      store.rows.filter fun row =>
        Store.clears .dsql pathPrefix row.path := by
  apply List.filter_congr
  intro row member
  rw [related.backend, clear row.path (Store.mem_paths.mpr ⟨row, member, rfl⟩)]

end

theorem related_removePrefix (jsonBytes : FsEntry → Nat) (related : Related store tables)
    {pathPrefix : Text}
    (clear : ∀ path ∈ store.paths, Store.clears .sqlite pathPrefix path =
      Store.clears .dsql pathPrefix path) (single : OneVersionEach store pathPrefix) :
    .count (store.removePrefix pathPrefix).1 = (tables.removePrefix jsonBytes pathPrefix).1 ∧
      Related (store.removePrefix pathPrefix).2 (tables.removePrefix jsonBytes pathPrefix).2 ∧
      (store.removePrefix pathPrefix).1 = filesRemoved store.observe
        (store.removePrefix pathPrefix).2.observe := by
  have each : OneVersionEach store.asDsql pathPrefix := single
  obtain ⟨result, represents⟩ :=
    represents_removePrefix related.represents jsonBytes each
  rw [← Store.removePrefix_asDsql related.backend clear] at represents
  have deleted : (store.removePrefix pathPrefix).1 = (store.rows.filter fun row =>
        Store.clears .dsql pathPrefix row.path).length := by
    rw [← related.cleared clear]
    simp only [Store.removePrefix, related.backend]
  have counted : (store.removePrefix pathPrefix).1 = filesRemoved
      store.observe (store.removePrefix pathPrefix).2.observe := by
    rw [Store.filesRemoved_removePrefix, related.cleared clear,
      List.dedup_eq_self.mpr single, List.length_map, deleted]
  have sameCount : (store.asDsql.removePrefix pathPrefix).1 =
      (store.removePrefix pathPrefix).1 := by
    show ((store.rows.filter fun row => Store.clears .dsql pathPrefix
      row.path).map FsRow.path).dedup.length = _
    rw [List.dedup_eq_self.mpr single, List.length_map, deleted]
  refine ⟨?_, ⟨related.backend, represents,
    Store.chronological_keep related.chronological _, ?_⟩, counted⟩
  · rw [result, sameCount]
  · intro row member
    exact related.versioned row (List.mem_filter.mp member).1

variable {request : StoreRequest}

/-- A call that meets the condition gives one result, and leaves related
stores. -/
theorem related_serve (jsonBytes : FsEntry → Nat) (related : Related store tables)
    (condition : StoresCondition sha256 store request.method)
    (older : ∀ row ∈ store.rows, row.updatedAt < request.now) :
    (store.serve sha256 request).1 = (tables.serve sha256 jsonBytes request).1 ∧
      Related (store.serve sha256 request).2 (tables.serve sha256 jsonBytes request).2 := by
  obtain ⟨now, method⟩ := request
  cases method with
  | list pathPrefix limit cursor =>
    refine ⟨?_, related⟩
    have same : store.list pathPrefix limit cursor = tables.list pathPrefix limit cursor :=
      related.list condition.1 condition.2
    cases listed : tables.list pathPrefix limit cursor <;>
      simp only [Store.serve, Tables.serve, same, listed]
  | listVersions path => exact ⟨congrArg StoreResult.versions (related.listVersions path), related⟩
  | read path hash => exact ⟨related.read path hash, related⟩
  | write path content mimeType versioned =>
    obtain ⟨result, next⟩ :=
      related_write related mimeType condition.1 condition.2 older
    exact ⟨result.symm, next⟩
  | remove path => exact related_remove related condition
  | removePrefix pathPrefix =>
    obtain ⟨result, next, _⟩ := related_removePrefix jsonBytes related condition.1 condition.2
    exact ⟨result, next⟩

theorem rows_serve {row : FsRow} (member : row ∈ (store.serve sha256 request).2.rows) :
    row ∈ store.rows ∨ row.updatedAt = request.now := by
  obtain ⟨now, method⟩ := request
  cases method with
  | write path content mimeType versioned =>
    rcases Store.mem_rows_write.mp member with ⟨old, _⟩ | same
    · exact Or.inl old
    · rw [same]
      exact Or.inr rfl
  | remove path => exact Or.inl (List.mem_filter.mp member).1
  | removePrefix pathPrefix => exact Or.inl (List.mem_filter.mp member).1
  | _ => exact Or.inl member

theorem servedAlike_of_related (related : Related store tables)
    (condition : StoresCondition sha256 store request.method)
    (older : ∀ row ∈ store.rows, row.updatedAt < request.now) :
    ServedAlike sha256 jsonBytes store tables request := by
  obtain ⟨result, next⟩ :=
    related_serve jsonBytes related condition older
  have counts : CountsFiles request.method (store.serve sha256 request).1
      store.observe (store.serve sha256 request).2.observe := by
    obtain ⟨now, method⟩ := request
    cases method with
    | removePrefix pathPrefix =>
      obtain ⟨_, _, counted⟩ := related_removePrefix jsonBytes related condition.1 condition.2
      exact congrArg StoreResult.count counted
    | _ => trivial
  refine ⟨result, next.contracts.1, next.contracts.2, counts, ?_⟩
  rw [← result]
  unfold CountsFiles at counts ⊢
  unfold filesRemoved Observation.listing at counts ⊢
  rw [← related.listing, ← next.listing]
  exact counts

end

/-- Whatever is called at increasing times, if every call meets the condition
then both stores answer the same and keep the contract throughout. -/
theorem stores_served_alike (sha256 : Text → Text)
    (jsonBytes : FsEntry → Nat) (requests : List StoreRequest)
    (increasing : requests.Pairwise fun before after => before.now < after.now)
    (meets : RequestsMeet (Store.serve sha256) (Tables.serve sha256 jsonBytes)
      (fun store _ request => StoresCondition sha256 store request.method)
      emptyStore emptyTables requests) :
    RequestsMeet (Store.serve sha256) (Tables.serve sha256 jsonBytes)
      (ServedAlike sha256 jsonBytes) emptyStore emptyTables requests := by
  have run : ∀ (requests : List StoreRequest) (store : Store)
      (tables : Tables), Related store tables →
      requests.Pairwise (fun before after => before.now < after.now) →
      (∀ request ∈ requests, ∀ row ∈ store.rows, row.updatedAt < request.now) →
      RequestsMeet (Store.serve sha256) (Tables.serve sha256 jsonBytes)
        (fun store _ request => StoresCondition sha256 store request.method)
        store tables requests →
      RequestsMeet (Store.serve sha256) (Tables.serve sha256 jsonBytes)
        (ServedAlike sha256 jsonBytes) store tables requests := by
    intro requests
    induction requests with
    | nil =>
      intro store tables _ _ _ _
      trivial
    | cons request rest ih =>
      intro store tables related increasing older meets
      have order := List.pairwise_cons.mp increasing
      have now := older request List.mem_cons_self
      refine ⟨servedAlike_of_related related meets.1 now, ?_⟩
      apply ih _ _ (related_serve jsonBytes related meets.1 now).2 order.2 _ meets.2
      intro later member row inside
      rcases rows_serve inside with old | new
      · exact older later (List.mem_cons_of_mem request member) row old
      · rw [new]
        exact order.1 later member
  apply run requests emptyStore emptyTables related_empty increasing _ meets
  intro request _ row impossible
  cases impossible

section

variable (sha256 : Text → Text) (store : Store)

instance (pathPrefix : Text) (limit : Option Int) (cursor : Text) :
    Decidable (BoundAlike store pathPrefix limit cursor) :=
  match limit with
  | none => inferInstanceAs (Decidable True)
  | some _ => inferInstanceAs (Decidable (_ ∨ _))

instance (path content : Text) : Decidable (NoCollision sha256 store path content) :=
  inferInstanceAs (Decidable (∀ _ ∈ store.rows, _ → _ ∨ _))

instance (pathPrefix : Text) : Decidable (OneVersionEach store pathPrefix) :=
  inferInstanceAs (Decidable (List.Nodup _))

instance : ∀ method, Decidable (StoresCondition sha256 store method)
  | .list _ _ _ => inferInstanceAs (Decidable (_ ∧ _))
  | .listVersions _ => inferInstanceAs (Decidable True)
  | .read _ _ => inferInstanceAs (Decidable True)
  | .write _ _ _ _ => inferInstanceAs (Decidable (_ ∧ _))
  | .remove _ => inferInstanceAs (Decidable (_ ≤ _))
  | .removePrefix _ => inferInstanceAs (Decidable (_ ∧ _))

end

/-- The calls at the times 0, 1 and so on. -/
def atTimes (methods : List StoreMethod) : List StoreRequest :=
  methods.zipIdx.map fun entry => ⟨entry.2, entry.1⟩

/-- Two versions of one file and one of another, each removed in turn. -/
def editedFiles : List StoreRequest :=
  atTimes [.write "a/x".toList "1".toList none none, .write "a/x".toList "2".toList none none,
    .write "b".toList "1".toList (some "text/html".toList) none,
    .list "a".toList (some 1) [],
    .read "a/x".toList (some "1".toList),
    .listVersions "a/x".toList,
    .remove "a/x".toList,
    .removePrefix "b".toList,
    .list [] none []]

theorem stores_served_alike_edited :
    RequestsMeet (Store.serve id) (Tables.serve id fun _ => 100)
      (ServedAlike id fun _ => 100) emptyStore emptyTables editedFiles :=
  stores_served_alike id (fun _ => 100) editedFiles (by decide +kernel) (by decide +kernel)

theorem answers_eq_of_servedAlike {sha256 : Text → Text} {jsonBytes : FsEntry → Nat}
    {store : Store} {tables : Tables} {requests : List StoreRequest}
    (alike : RequestsMeet (Store.serve sha256)
      (Tables.serve sha256 jsonBytes) (ServedAlike sha256 jsonBytes) store
      tables requests) :
    answersFrom (Store.serve sha256) store requests =
      answersFrom (Tables.serve sha256 jsonBytes) tables requests := by
  induction requests generalizing store tables with
  | nil => rfl
  | cons request rest ih =>
    have served := alike.1
    unfold answersFrom
    rw [served.result, ih alike.2]

/-- A subtree with a file of two versions is removed. -/
def removedVersions : List StoreRequest :=
  atTimes [.write "a/x".toList "1".toList none none, .write "a/x".toList "2".toList none none,
    .removePrefix "a".toList]

def unversionedFile : List StoreRequest :=
  atTimes [.write ".services/x".toList "1".toList none none, .listVersions ".services/x".toList,
    .read ".services/x".toList (some "1".toList)]

/-- A folder is listed whose name differs in the case of a letter. -/
def otherCase : List StoreRequest :=
  atTimes [.write "A/x".toList "1".toList none none, .list "a".toList none []]

def emptyPrefix : List StoreRequest :=
  atTimes [.write "x".toList "1".toList none none, .removePrefix []]

theorem stores_served_unlike :
    ¬∃ requests ∈ [removedVersions, unversionedFile, otherCase, emptyPrefix],
      RequestsMeet (Store.serve id) (Tables.serve id fun _ => 100)
        (ServedAlike id fun _ => 100) emptyStore emptyTables requests := by
  have differ : ∀ requests ∈ [removedVersions, unversionedFile, otherCase, emptyPrefix],
      answersFrom (Store.serve id) emptyStore requests ≠
        answersFrom (Tables.serve id fun _ => 100) emptyTables requests := by
    decide +kernel
  rintro ⟨requests, member, alike⟩
  exact differ requests member (answers_eq_of_servedAlike alike)

end Aprovan.Fs
