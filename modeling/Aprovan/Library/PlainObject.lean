import Aprovan.Library.Keyed
import Aprovan.Library.Text

/-!
# Tables and plain objects

A table holds at most one value a key, in the order in which the keys were
first put.  An object of the language, used as a map from texts, lists array
indices first, and setting `__proto__` sets no property.
-/

namespace Aprovan.Library

structure Table (Value : Type) where
  rows : List (Text × Value)
  keys : (rows.map Prod.fst).Nodup
  deriving DecidableEq

namespace Table

variable {Value : Type}

def empty : Table Value :=
  ⟨[], List.nodup_nil⟩

def names (table : Table Value) : List Text :=
  table.rows.map Prod.fst

def get (table : Table Value) (key : Text) : Option Value :=
  table.rows.lookup key

/-- The value under the key in place, or behind the others. -/
def putRow (rows : List (Text × Value)) (key : Text) (value : Value) : List (Text × Value) :=
  if key ∈ rows.map Prod.fst then rows.map fun row => if row.1 = key then (key, value) else row
  else rows ++ [(key, value)]

theorem putRow_eq (rows : List (Text × Value)) (key : Text) (value : Value) :
    putRow rows key value = putUnder Prod.fst rows (key, value) := by
  unfold putRow putUnder
  congr

theorem nodup_putRow {rows : List (Text × Value)}
    (keys : (rows.map Prod.fst).Nodup) (key : Text) (value : Value) :
    ((putRow rows key value).map Prod.fst).Nodup := by
  rw [putRow_eq]
  exact nodup_putUnder keys (key, value)

def put (table : Table Value) (key : Text) (value : Value) : Table Value :=
  ⟨putRow table.rows key value, nodup_putRow table.keys key value⟩

variable {key : Text}

theorem lookup_eq_some_iff {rows : List (Text × Value)}
    (keys : (rows.map Prod.fst).Nodup) {value : Value} :
    rows.lookup key = some value ↔ (key, value) ∈ rows := by
  induction rows with
  | nil => simp
  | cons row rest ih =>
    obtain ⟨first, held⟩ := row
    rw [List.map_cons, List.nodup_cons] at keys
    by_cases same : key = first
    · subst same
      rw [List.lookup_cons_self, List.mem_cons]
      constructor
      · intro found
        cases found
        exact Or.inl rfl
      · rintro (found | later)
        · cases found
          rfl
        · exact absurd (List.mem_map_of_mem later) keys.1
    · have different : (key == first) = false := by
        simpa using same
      rw [List.lookup_cons, different, ih keys.2, List.mem_cons]
      constructor
      · exact Or.inr
      · rintro (found | later)
        · cases found
          exact absurd rfl same
        · exact later

variable {table : Table Value}

theorem get_eq_some_iff {value : Value} :
    table.get key = some value ↔ (key, value) ∈ table.rows :=
  lookup_eq_some_iff table.keys

theorem get_eq_none_iff : table.get key = none ↔ key ∉ table.names := by
  rw [get, List.lookup_eq_none_iff, names]
  constructor
  · intro absent member
    obtain ⟨row, inside, same⟩ := List.mem_map.mp member
    have different := absent row inside
    simp [same] at different
  · intro absent row inside
    have different : key ≠ row.1 := by
      intro same
      rw [same] at absent
      exact absent (List.mem_map_of_mem inside)
    simpa using different

theorem mem_names_iff : key ∈ table.names ↔ ∃ value, table.get key = some value := by
  rw [← Option.ne_none_iff_exists', ne_eq, get_eq_none_iff, not_not]

theorem mem_put {row : Text × Value} {value : Value} :
    row ∈ (table.put key value).rows ↔ row = (key, value) ∨ (row ∈ table.rows ∧ row.1 ≠ key) := by
  show row ∈ putRow table.rows key value ↔ _
  rw [putRow_eq]
  exact mem_putUnder

theorem mem_names_put {other : Text} {value : Value} :
    other ∈ (table.put key value).names ↔ other = key ∨ other ∈ table.names := by
  by_cases same : other = key <;> simp [names, mem_put, same, Ne.symm]

theorem length_put_of_mem (known : key ∈ table.names) (value : Value) :
    (table.put key value).rows.length = table.rows.length := by
  show (putRow table.rows key value).length = table.rows.length
  have present : key ∈ table.rows.map Prod.fst := known
  rw [putRow, if_pos present, List.length_map]

theorem get_put_self (table : Table Value) (key : Text) (value : Value) :
    (table.put key value).get key = some value := by
  rw [get_eq_some_iff, mem_put]
  exact Or.inl rfl

theorem get_put_of_ne (table : Table Value) {other : Text} (value : Value)
    (different : other ≠ key) :
    (table.put key value).get other = table.get other := by
  apply Option.ext
  intro held
  rw [get_eq_some_iff, get_eq_some_iff, mem_put]
  simp [different]

def keep (table : Table Value) (condition : Text → Bool) : Table Value where
  rows := table.rows.filter (condition ·.1)
  keys := table.keys.sublist (List.filter_sublist.map Prod.fst)

theorem get_keep (table : Table Value) (condition : Text → Bool) (key : Text) :
    (table.keep condition).get key = if condition key then table.get key else none := by
  apply Option.ext
  intro value
  rw [get_eq_some_iff]
  show (key, value) ∈ table.rows.filter (condition ·.1) ↔ _
  rw [List.mem_filter, ← get_eq_some_iff]
  by_cases kept : condition key = true
  · rw [if_pos kept]
    exact and_iff_left kept
  · rw [if_neg kept]
    constructor
    · intro both
      exact absurd both.2 kept
    · intro impossible
      cases impossible

end Table

structure PlainObject (Value : Type) extends Table Value
  deriving DecidableEq

namespace PlainObject

variable {Value : Type}

def empty : PlainObject Value :=
  ⟨Table.empty⟩

def get (object : PlainObject Value) (key : Text) : Option Value :=
  object.toTable.get key

def prototypeKey : Text := "__proto__".toList

variable (object : PlainObject Value)

/-- `object[key] = value`, for a value that is a text or null. -/
def set (key : Text) (value : Value) : PlainObject Value :=
  if key = prototypeKey then object else ⟨object.toTable.put key value⟩

/-- `delete object[key]`. -/
def delete (key : Text) : PlainObject Value :=
  ⟨object.toTable.keep (· ≠ key)⟩

def inheritedNames : List Text :=
  ["__defineGetter__".toList, "__defineSetter__".toList,
    "__lookupGetter__".toList, "__lookupSetter__".toList, prototypeKey,
    "constructor".toList, "hasOwnProperty".toList, "isPrototypeOf".toList,
    "propertyIsEnumerable".toList, "toLocaleString".toList,
    "toString".toList, "valueOf".toList]

/-- `key in object`. -/
def has (key : Text) : Bool :=
  (object.get key).isSome || key ∈ inheritedNames

def arrayIndex? (key : Text) : Option Nat :=
  let index := Nat.ofDigitChars 10 key 0
  if key = Nat.toDigits 10 index ∧ index < 2 ^ 32 - 1 then some index else none

theorem eq_of_arrayIndex {key : Text} {index : Nat} (found : arrayIndex? key = some index) :
    key = Nat.toDigits 10 index := by
  unfold arrayIndex? at found
  dsimp only at found
  split at found
  · cases found
    exact ‹_ ∧ _›.1
  · cases found

/-- `Object.entries(object)`. -/
def entries : List (Text × Value) :=
  let indices := object.rows.filter fun row => (arrayIndex? row.1).isSome
  let names := object.rows.filter fun row => (arrayIndex? row.1).isNone
  (indices.insertionSort fun first second =>
    (arrayIndex? first.1).getD 0 ≤ (arrayIndex? second.1).getD 0) ++ names

/-- An enumeration lists the own properties. -/
theorem entries_perm : object.entries.Perm object.rows := by
  have split := List.filter_append_perm
    (fun row : Text × Value => (arrayIndex? row.1).isSome) object.rows
  have names : (object.rows.filter fun row => (arrayIndex? row.1).isNone) =
      object.rows.filter fun row => !(arrayIndex? row.1).isSome := by
    apply List.filter_congr
    intro row _
    cases arrayIndex? row.1 <;> rfl
  unfold entries
  dsimp only
  rw [names]
  exact ((List.perm_insertionSort _ _).append_right _).trans split

variable {key : Text}

theorem mem_entries {object : PlainObject Value} {value : Value} :
    (key, value) ∈ object.entries ↔ object.get key = some value := by
  rw [object.entries_perm.mem_iff, get, Table.get_eq_some_iff]

section

variable (object : PlainObject Value)

theorem nodup_entries : (object.entries.map Prod.fst).Nodup :=
  (object.entries_perm.map Prod.fst).nodup_iff.mpr object.keys

/-- An enumeration has the own properties under their keys. -/
theorem lookup_entries (key : Text) : object.entries.lookup key = object.get key := by
  apply Option.ext
  intro value
  rw [Table.lookup_eq_some_iff object.nodup_entries, mem_entries]

theorem get_set_self (value : Value) (plain : key ≠ prototypeKey) :
    (object.set key value).get key = some value := by
  rw [set, if_neg plain]
  exact object.toTable.get_put_self key value

theorem get_set_of_ne {other : Text} (value : Value) (different : other ≠ key) :
    (object.set key value).get other = object.get other := by
  unfold set
  by_cases special : key = prototypeKey
  · rw [if_pos special]
  · rw [if_neg special]
    exact object.toTable.get_put_of_ne value different

theorem get_delete (key other : Text) :
    (object.delete key).get other = if other = key then none else object.get other := by
  have kept := object.toTable.get_keep (· ≠ key) other
  rw [delete, get, kept]
  by_cases same : other = key
  · rw [if_pos same, if_neg (by simpa using same)]
  · rw [if_neg same, if_pos (by simpa using same)]
    rfl

end

theorem has_of_get {object : PlainObject Value} {value : Value}
    (found : object.get key = some value) : object.has key = true := by
  rw [has, found]
  rfl

end PlainObject

end Aprovan.Library
