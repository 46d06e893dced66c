import Aprovan.Library.Keyed
import Aprovan.Library.Text

/-!
# Tables of items

A table of a key-value service holds items under a partition key and, in some
tables, a sort key.  The service refuses empty and overlong keys and items that
are too large.  A query, a scan or a batch reads items up to a number of bytes.
-/

namespace Aprovan.Library

universe u

/-- Why the service refuses a request. -/
inductive ItemError where
  | validation
  | conditionalCheckFailed

def utf8Size (text : Text) : Nat :=
  (text.map Char.utf8Size).sum

/-- The bytes of an item with the given attribute names and values. -/
def itemSize (attributes : List (Text × Text)) : Nat :=
  (attributes.map fun field => utf8Size field.1 + utf8Size field.2).sum

def optionalAttribute (name : Text) : Option Text → List (Text × Text)
  | none => []
  | some value => [(name, value)]

def acceptsPartition (value : Text) : Bool :=
  value ≠ [] && utf8Size value ≤ 2048

def acceptsSort (value : Text) : Bool :=
  value ≠ [] && utf8Size value ≤ 1024

/-- The values of the key attributes: the partition key, or both keys. -/
def acceptsKey : List Text → Bool
  | [partition] => acceptsPartition partition
  | [partition, sort] => acceptsPartition partition && acceptsSort sort
  | _ => false

def itemLimit : Nat := 400 * 1024

/-- The bytes that a query or a scan reads. -/
def pageLimit : Nat := 1024 * 1024

/-- The bytes that a batch of reads answers. -/
def batchLimit : Nat := 16 * 1024 * 1024

/-- The rows that are read before a number of bytes is exceeded. -/
def readWithin {Row : Type u} (size : Row → Nat) : Nat → List Row → List Row
  | _, [] => []
  | budget, row :: rest =>
    if size row ≤ budget then row :: readWithin size (budget - size row) rest else []

theorem readWithin_eq_self {Row : Type u} {size : Row → Nat} {budget : Nat}
    {rows : List Row} (fits : (rows.map size).sum ≤ budget) :
    readWithin size budget rows = rows := by
  induction rows generalizing budget with
  | nil => rfl
  | cons row rest ih =>
    rw [List.map_cons, List.sum_cons] at fits
    have within : size row ≤ budget := by omega
    have remaining : (rest.map size).sum ≤ budget - size row := by omega
    rw [readWithin, if_pos within, ih remaining]

/-- Something is read, if there is something and no row is too large. -/
theorem readWithin_isEmpty {Row : Type u} {size : Row → Nat} {budget : Nat}
    {rows : List Row} (small : ∀ row ∈ rows, size row ≤ budget) :
    (readWithin size budget rows).isEmpty = rows.isEmpty := by
  cases rows with
  | nil => rfl
  | cons row rest =>
    rw [readWithin, if_pos (small row List.mem_cons_self)]
    rfl

/-- What the service knows of the items of a table. -/
structure ItemSchema (Row : Type u) where
  key : Row → List Text
  attributes : Row → List (Text × Text)

abbrev ItemTable {Row : Type u} (schema : ItemSchema Row) :=
  Keyed schema.key

namespace ItemTable

variable {Row : Type u} {schema : ItemSchema Row}

def size (schema : ItemSchema Row) (row : Row) : Nat :=
  itemSize (schema.attributes row)

/-- Whether the service takes an item. -/
def admits (schema : ItemSchema Row) (row : Row) : Bool :=
  acceptsKey (schema.key row) && size schema row ≤ itemLimit

def getItem (table : ItemTable schema) (key : List Text) : Except ItemError (Option Row) :=
  if acceptsKey key then .ok (table.find? key) else .error .validation

def putItem (table : ItemTable schema) (row : Row) : Except ItemError (ItemTable schema) :=
  if admits schema row then .ok (table.put row) else .error .validation

def putItemIf (table : ItemTable schema) (condition : Option Row → Bool) (row : Row) :
    Except ItemError (ItemTable schema) := do
  let found ← table.getItem (schema.key row)
  if condition found then table.putItem row else .error .conditionalCheckFailed

def updateItem (table : ItemTable schema) (key : List Text)
    (condition : Option Row → Bool) (bare : Row) (change : Row → Row) :
    Except ItemError (Row × ItemTable schema) := do
  let found ← table.getItem key
  if condition found then
    let next := change (found.getD bare)
    let written ← table.putItem next
    return (next, written)
  else .error .conditionalCheckFailed

def deleteItem (table : ItemTable schema) (key : List Text) :
    Except ItemError (ItemTable schema) :=
  if acceptsKey key then .ok (table.erase key) else .error .validation

def isSelected (schema : ItemSchema Row) (partition initial : Text) (row : Row) : Bool :=
  match schema.key row with
  | [value, sort] => value = partition && initial.isPrefixOf sort
  | _ => false

def sortKey (schema : ItemSchema Row) (row : Row) : Text :=
  (schema.key row).getLastD []

def query (table : ItemTable schema) (partition initial : Text) : Except ItemError (List Row) :=
  if acceptsPartition partition && utf8Size initial ≤ 1024 then
    let selected := table.rows.filter (isSelected schema partition initial)
    let sorted := selected.insertionSort fun first second =>
      sortKey schema first ≤ sortKey schema second
    .ok (readWithin (size schema) pageLimit sorted)
  else .error .validation

/-- A query of a secondary index whose only key is the given attribute. -/
def queryIndex (table : ItemTable schema) (indexed : Row → Text) (value : Text) :
    Except ItemError (List Row) :=
  if acceptsPartition value then
    let selected := table.rows.filter fun row => indexed row = value
    .ok (readWithin (size schema) pageLimit selected)
  else .error .validation

/-- The bytes that a scan reads are counted before its filter is applied. -/
def scan (table : ItemTable schema) (condition : Row → Bool) : List Row :=
  (readWithin (size schema) pageLimit table.rows).filter condition

def batchGet (table : ItemTable schema) (keys : List (List Text)) : Except ItemError (List Row) :=
  if keys.all acceptsKey then
    .ok (readWithin (size schema) batchLimit (keys.filterMap table.find?))
  else .error .validation

def batches {Name : Type u} (length : Nat) : Nat → List Name → List (List Name)
  | 0, _ => []
  | _ + 1, [] => []
  | fuel + 1, names => names.take length :: batches length fuel (names.drop length)

theorem flatten_batches {Name : Type u} {length fuel : Nat}
    (positive : 0 < length) {names : List Name} (enough : names.length ≤ fuel) :
    (batches length fuel names).flatten = names := by
  induction fuel generalizing names with
  | zero =>
    have none : names = [] := List.length_eq_zero_iff.mp (by omega)
    rw [none]
    rfl
  | succ fuel ih =>
    cases names with
    | nil => rfl
    | cons name rest =>
      have shorter : ((name :: rest).drop length).length ≤ fuel := by
        rw [List.length_drop, List.length_cons]
        rw [List.length_cons] at enough
        omega
      rw [batches, List.flatten_cons, ih shorter, List.take_append_drop]
      intro impossible
      cases impossible

theorem mapM_of_answered {Name : Type u} {Answer : Type u}
    {request : Name → Except ItemError Answer} {answer : Name → Answer}
    {names : List Name} (answered : ∀ name ∈ names, request name = .ok (answer name)) :
    names.mapM request = .ok (names.map answer) := by
  induction names with
  | nil => rfl
  | cons name rest ih =>
    have remaining : rest.mapM request = .ok (rest.map answer) := by
      apply ih
      intro other member
      exact answered other (List.mem_cons_of_mem name member)
    rw [List.mapM_cons, answered name List.mem_cons_self, remaining]
    rfl

variable {table : ItemTable schema} {key : List Text}

theorem getItem_of_accepts (accepted : acceptsKey key) :
    table.getItem key = .ok (table.find? key) :=
  if_pos accepted

variable {row : Row}

theorem accepts_of_admits (admitted : admits schema row) : acceptsKey (schema.key row) :=
  (Bool.and_eq_true_iff.mp admitted).1

theorem size_of_admits (admitted : admits schema row) : size schema row ≤ itemLimit :=
  of_decide_eq_true (Bool.and_eq_true_iff.mp admitted).2

theorem putItem_of_admits (admitted : admits schema row) :
    table.putItem row = .ok (table.put row) :=
  if_pos admitted

variable {condition : Option Row → Bool}

theorem putItemIf_of_admits (met : condition (table.find? (schema.key row)))
    (admitted : admits schema row) :
    table.putItemIf condition row = .ok (table.put row) := by
  rw [putItemIf, getItem_of_accepts (accepts_of_admits admitted)]
  exact (if_pos met).trans (putItem_of_admits admitted)

theorem putItemIf_of_unmet (unmet : ¬condition (table.find? (schema.key row)))
    (admitted : admits schema row) :
    table.putItemIf condition row = .error .conditionalCheckFailed := by
  rw [putItemIf, getItem_of_accepts (accepts_of_admits admitted)]
  exact if_neg unmet

theorem updateItem_of_admits {bare : Row} {change : Row → Row}
    (accepted : acceptsKey key) (met : condition (table.find? key))
    (admitted : admits schema (change ((table.find? key).getD bare))) :
    table.updateItem key condition bare change = .ok (change ((table.find? key).getD bare),
        table.put (change ((table.find? key).getD bare))) := by
  rw [updateItem, getItem_of_accepts accepted]
  show (if condition (table.find? key) then _ else _) = _
  rw [if_pos met, putItem_of_admits admitted]
  rfl

theorem updateItem_of_unmet {bare : Row} {change : Row → Row}
    (accepted : acceptsKey key) (unmet : ¬condition (table.find? key)) :
    table.updateItem key condition bare change = .error .conditionalCheckFailed := by
  rw [updateItem, getItem_of_accepts accepted]
  exact if_neg unmet

theorem deleteItem_of_accepts (accepted : acceptsKey key) :
    table.deleteItem key = .ok (table.erase key) :=
  if_pos accepted

def QueryFits (table : ItemTable schema) (partition initial : Text) : Prop :=
  ((table.rows.filter (isSelected schema partition initial)).map (size schema)).sum ≤ pageLimit
  deriving Decidable

/-- A query for a whole partition. -/
theorem isSelected_partition {value sort partition : Text}
    (keyed : schema.key row = [value, sort]) :
    isSelected schema partition [] row = decide (value = partition) := by
  rw [isSelected, keyed]
  simp

theorem query_of_fits {partition initial : Text} (accepted : acceptsPartition partition)
    (short : utf8Size initial ≤ 1024) (fits : table.QueryFits partition initial) :
    ∃ rows, table.query partition initial = .ok rows ∧
      rows.Perm (table.rows.filter (isSelected schema partition initial)) := by
  have sorted := List.perm_insertionSort
    (fun first second => sortKey schema first ≤ sortKey schema second)
    (table.rows.filter (isSelected schema partition initial))
  have within := (sorted.map (size schema)).sum_nat.trans_le fits
  refine ⟨_, ?_, sorted⟩
  rw [query, if_pos (by simp [accepted, short])]
  exact congrArg Except.ok (readWithin_eq_self within)

def IndexFits (table : ItemTable schema) (indexed : Row → Text) (value : Text) : Prop :=
  ((table.rows.filter fun row => indexed row = value).map (size schema)).sum ≤ pageLimit
  deriving Decidable

theorem queryIndex_of_fits {indexed : Row → Text} {value : Text}
    (accepted : acceptsPartition value) (fits : table.IndexFits indexed value) :
    table.queryIndex indexed value = .ok (table.rows.filter fun row => indexed row = value) := by
  rw [queryIndex, if_pos accepted]
  exact congrArg Except.ok (readWithin_eq_self fits)

def ScanFits (table : ItemTable schema) : Prop :=
  (table.rows.map (size schema)).sum ≤ pageLimit
  deriving Decidable

theorem scan_of_fits {condition : Row → Bool} (fits : table.ScanFits) :
    table.scan condition = table.rows.filter condition := by
  rw [scan, readWithin_eq_self fits]

/-- The service takes the keys and answers them in one batch. -/
def BatchFits (table : ItemTable schema) (keys : List (List Text)) : Prop :=
  keys.all acceptsKey ∧ ((keys.filterMap table.find?).map (size schema)).sum ≤ batchLimit

instance (table : ItemTable schema) (keys : List (List Text)) : Decidable (table.BatchFits keys) :=
  inferInstanceAs (Decidable (_ ∧ _))

theorem batchGet_of_fits {keys : List (List Text)} (fits : table.BatchFits keys) :
    table.batchGet keys = .ok (keys.filterMap table.find?) := by
  rw [batchGet, if_pos fits.1]
  exact congrArg Except.ok (readWithin_eq_self fits.2)

/-- A batch answers something, if there is something under its keys. -/
theorem batchGet_isEmpty {keys : List (List Text)} (accepted : keys.all acceptsKey)
    (small : ∀ row ∈ table.rows, size schema row ≤ itemLimit) :
    ∃ rows, table.batchGet keys = .ok rows ∧
      rows.isEmpty = (keys.filterMap table.find?).isEmpty := by
  rw [batchGet, if_pos accepted]
  refine ⟨_, rfl, readWithin_isEmpty ?_⟩
  intro row found
  obtain ⟨key, _, held⟩ := List.mem_filterMap.mp found
  have least := small row (Keyed.find?_eq_some_iff.mp held).1
  exact least.trans (by decide)

end ItemTable

end Aprovan.Library
