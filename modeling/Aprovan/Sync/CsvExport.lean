import Aprovan.Library.Csv
import Aprovan.Library.PlainObject

/-!
# Records as comma-separated values

Cells with a carriage return alone are left without quotes, records without
keys have no header, and a key that a record lacks is looked up in the
prototype of the object.
-/

namespace Aprovan.Sync

open Aprovan.Library

/-- The keys of the records, in the order in which they first occur. -/
def unionKeys (records : List (PlainObject Text)) : List Text :=
  (records.flatMap fun record => record.entries.map Prod.fst).eraseDups

/-- What a property that every object inherits is written as. -/
def inheritedText (key : Text) : Option Text :=
  if key ∉ PlainObject.inheritedNames then none
  else if key = PlainObject.prototypeKey then some "{}".toList
  else
    let name := if key = "constructor".toList then "Object".toList else key
    some ("function ".toList ++ name ++ "() { [native code] }".toList)

/-- `row?.[key]`, as a text. -/
def property (row : PlainObject Text) (key : Text) : Option Text :=
  (row.get key).or (inheritedText key)

def csvCell : Option Text → Text
  | none => []
  | some text => writeCell text

/-- `serializeRecords` for csv, of objects with text fields. -/
def serializeRecords (records : List (PlainObject Text)) : Text :=
  let keys := unionKeys records
  if keys = [] then joinWith '\n' (records.map fun _ => csvCell (some "{}".toList)) ++ ['\n']
  else
    let header := joinWith ',' (keys.map fun key => csvCell (some key))
    let lines := records.map fun row =>
      joinWith ',' (keys.map fun key => csvCell (property row key))
    joinWith '\n' (header :: lines) ++ ['\n']

/-- The text is read as a header of all keys, and one row for each record with
its values, empty for a key that it has not. -/
def Lossless (records : List (PlainObject Text)) : Prop :=
  ∃ header, header.Nodup ∧
    (∀ key, key ∈ header ↔ ∃ record ∈ records, (record.get key).isSome = true) ∧
    readCsv (serializeRecords records) = some (header :: records.map fun record =>
      header.map fun key => (record.get key).getD [])

/-- Some record has a key, no key and no value is written without quotes that
has a carriage return, and no record lacks a key that it inherits. -/
def Exportable (records : List (PlainObject Text)) : Prop :=
  unionKeys records ≠ [] ∧ (∀ key ∈ unionKeys records, survives key = true) ∧
    ∀ record ∈ records, ∀ key ∈ unionKeys records,
      match record.get key with
      | some value => survives value = true
      | none => key ∉ PlainObject.inheritedNames

theorem joinWith_line {lines : List Text} (filled : lines ≠ []) :
    joinWith '\n' lines ++ ['\n'] = lines.flatMap (· ++ ['\n']) := by
  induction lines with
  | nil => exact absurd rfl filled
  | cons line rest ih =>
    cases rest with
    | nil => simp [joinWith]
    | cons next others =>
      rw [List.flatMap_cons, ← ih (List.cons_ne_nil _ _)]
      simp [joinWith]

section

variable {records : List (PlainObject Text)} {record : PlainObject Text} {key : Text}

theorem mem_unionKeys :
    key ∈ unionKeys records ↔ ∃ record ∈ records, (record.get key).isSome = true := by
  have listed : ∀ record : PlainObject Text,
      key ∈ record.entries.map Prod.fst ↔ (record.get key).isSome = true := by
    intro record
    simp [Option.isSome_iff_exists, ← PlainObject.mem_entries]
  simp [unionKeys, List.mem_eraseDups, ← listed]

def writtenValue (record : PlainObject Text) (key : Text) : Text :=
  (property record key).getD []

theorem csvCell_eq (value : Option Text) : csvCell value = writeCell (value.getD []) := by
  cases value <;> rfl

theorem writtenValue_of_get {value : Text} (held : record.get key = some value) :
    writtenValue record key = value := by
  rw [writtenValue, property, held]
  rfl

/-- Without a value, what the prototype has is written, or nothing. -/
theorem writtenValue_of_lacks (lacks : record.get key = none) :
    key ∉ PlainObject.inheritedNames ∧ writtenValue record key = [] ∨
      key ∈ PlainObject.inheritedNames ∧ survives (writtenValue record key) = true ∧
        writtenValue record key ≠ [] := by
  have written : writtenValue record key = (inheritedText key).getD [] := by
    rw [writtenValue, property, lacks, Option.none_or]
  by_cases known : key ∈ PlainObject.inheritedNames
  · have texts : (PlainObject.inheritedNames.all fun name =>
        survives ((inheritedText name).getD []) && (inheritedText name).getD [] ≠ []) = true := by
      decide +kernel
    have both := List.all_eq_true.mp texts key known
    rw [Bool.and_eq_true, decide_eq_true_eq, ← written] at both
    exact Or.inr ⟨known, both⟩
  · left
    rw [written, inheritedText, if_pos known]
    exact ⟨known, rfl⟩

theorem writtenValue_cases (record : PlainObject Text) (key : Text) :
    writtenValue record key = (record.get key).getD [] ∨
      survives (writtenValue record key) = true := by
  cases held : record.get key with
  | some value => exact Or.inl (writtenValue_of_get held)
  | none => exact (writtenValue_of_lacks held).imp And.right fun both => both.2.1

theorem serializeRecords_eq (keyed : unionKeys records ≠ []) :
    serializeRecords records = (unionKeys records ::
      records.map fun record => (unionKeys records).map (writtenValue record)).flatMap
        fun row => writeRow row ++ ['\n'] := by
  unfold serializeRecords
  dsimp only
  rw [if_neg keyed, joinWith_line (List.cons_ne_nil _ _), List.flatMap_cons, List.flatMap_cons,
    List.flatMap_map, List.flatMap_map]
  simp only [writeRow, List.map_map, csvCell_eq, Option.getD_some]
  rfl

theorem written_of_readCsv {keys : List Text} (keyed : keys ≠ [])
    (found : readCsv ((records.map fun record => keys.map (writtenValue record)).flatMap
        fun row => writeRow row ++ ['\n']) =
      some (records.map fun record => keys.map fun key => (record.get key).getD [])) :
    ∀ record ∈ records, ∀ key ∈ keys, survives (writtenValue record key) = true ∧
      writtenValue record key = (record.get key).getD [] := by
  induction records with
  | nil => exact nofun
  | cons record rest ih =>
    rw [List.map_cons, List.flatMap_cons, List.append_assoc, List.singleton_append] at found
    have filled : keys.map (writtenValue record) ≠ [] := by simpa using keyed
    rcases row_of_readCsvFrom (Or.inl rfl) filled found with
      all | ⟨good, bad, later, last, rows, cut, read, lost, returned, noReturn⟩
    · rw [readCsv, readCsvFrom_writeRow (Or.inl rfl) filled _ all] at found
      obtain ⟨rows, more, same⟩ := Option.map_eq_some_iff.mp found
      obtain ⟨own, rfl⟩ := List.cons.inj same
      intro other member
      rcases List.mem_cons.mp member with rfl | older
      · intro key isKey
        exact ⟨all _ (List.mem_map_of_mem isKey), List.map_inj_left.mp own key isKey⟩
      · exact ih more other older
    · have own : (keys.map fun key => (record.get key).getD []) = good ++ [last] :=
        (List.cons.inj read).1
      have nothing : later = [] := by
        have first := congrArg List.length cut
        have second := congrArg List.length own
        simp only [List.length_map, List.length_append, List.length_cons,
          List.length_nil] at first second
        exact List.length_eq_zero_iff.mp (by omega)
      obtain ⟨init, key, rfl⟩ : ∃ init key, keys = init ++ [key] :=
        ⟨_, _, (List.dropLast_append_getLast keyed).symm⟩
      rw [nothing, List.map_append, List.map_singleton] at cut
      rw [List.map_append, List.map_singleton] at own
      have isBad := List.singleton_inj.mp (List.append_inj' cut rfl).2
      have isLast := List.singleton_inj.mp (List.append_inj' own rfl).2
      rcases writtenValue_cases record key with same | survived
      · rw [isBad, isLast] at same
        exact absurd (same ▸ returned) noReturn
      · rw [isBad, lost] at survived
        cases survived

theorem exportable_iff (keyed : unionKeys records ≠ []) :
    Exportable records ↔ (∀ key ∈ unionKeys records, survives key = true) ∧
      ∀ record ∈ records, ∀ key ∈ unionKeys records, survives (writtenValue record key) = true ∧
          writtenValue record key = (record.get key).getD [] := by
  rw [Exportable, and_iff_right keyed]
  refine and_congr_right fun _ => forall₄_congr fun record _ key _ => ?_
  cases held : record.get key with
  | some value => simp [writtenValue_of_get held]
  | none =>
    rcases writtenValue_of_lacks held with ⟨unknown, isEmpty⟩ | ⟨known, _, filled⟩
    · simp [unknown, isEmpty, survives]
    · simp [known, filled]

/-- Without keys the first row that is read has a cell. -/
theorem keyed_of_lossless (lossless : Lossless records) : unionKeys records ≠ [] := by
  intro unkeyed
  obtain ⟨header, _, isUnion, read⟩ := lossless
  have nothing : header = [] := by
    rw [List.eq_nil_iff_forall_not_mem]
    intro key member
    have inUnion := mem_unionKeys.mpr ((isUnion key).mp member)
    rw [unkeyed] at inUnion
    cases inUnion
  rw [serializeRecords] at read
  dsimp only at read
  rw [if_pos unkeyed, nothing] at read
  cases records with
  | nil => cases read
  | cons record rest =>
    rw [joinWith_line (by simp), List.map_cons, List.flatMap_cons, List.append_assoc] at read
    have first := fun rest => @readCsvFrom_writeRow .record (Or.inl rfl) ["{}".toList]
      (List.cons_ne_nil _ _) rest (by decide)
    obtain ⟨rows, _, same⟩ := Option.map_eq_some_iff.mp ((first _).symm.trans read)
    cases same

/-- The export is lossless exactly for the exportable lists of records. -/
theorem lossless_iff (records : List (PlainObject Text)) :
    Lossless records ↔ Exportable records := by
  constructor
  · intro lossless
    have keyed := keyed_of_lossless lossless
    obtain ⟨header, _, isUnion, read⟩ := lossless
    have inHeader : ∀ key, key ∈ header ↔ key ∈ unionKeys records :=
      fun key => (isUnion key).trans mem_unionKeys.symm
    rw [serializeRecords_eq keyed, List.flatMap_cons, List.append_assoc,
      List.singleton_append] at read
    rw [exportable_iff keyed]
    rcases row_of_readCsvFrom (Or.inl rfl) keyed read with
      all | ⟨good, bad, later, last, rows, cut, same, lost, returned, noReturn⟩
    · rw [readCsv, readCsvFrom_writeRow (Or.inl rfl) keyed _ all] at read
      obtain ⟨rows, more, same⟩ := Option.map_eq_some_iff.mp read
      obtain ⟨rfl, rfl⟩ := List.cons.inj same
      exact ⟨all, written_of_readCsv keyed more⟩
    · obtain ⟨rfl, -⟩ := List.cons.inj same
      have distinct : (unionKeys records).Nodup := nodup_eraseDups _
      have member := (inHeader bad).mpr (by rw [cut]; simp)
      rw [cut, List.nodup_append] at distinct
      rcases List.mem_append.mp member with early | isLast
      · exact absurd rfl (distinct.2.2 bad early bad List.mem_cons_self)
      · exact absurd (List.mem_singleton.mp isLast ▸ returned) noReturn
  · intro exportable
    have keyed := exportable.1
    obtain ⟨headed, valued⟩ := (exportable_iff keyed).mp exportable
    refine ⟨unionKeys records, nodup_eraseDups _, fun key => mem_unionKeys, ?_⟩
    rw [serializeRecords_eq keyed, readCsv_writeRows]
    · congr 2
      apply List.map_congr_left
      intro record member
      exact List.map_congr_left fun key isKey => (valued record member key isKey).2
    · intro row member
      rcases List.mem_cons.mp member with rfl | isRecord
      · exact keyed
      · obtain ⟨record, _, rfl⟩ := List.mem_map.mp isRecord
        simpa using keyed
    · intro row member cell inRow
      rcases List.mem_cons.mp member with rfl | isRecord
      · exact headed cell inRow
      · obtain ⟨record, isMember, rfl⟩ := List.mem_map.mp isRecord
        obtain ⟨key, isKey, rfl⟩ := List.mem_map.mp inRow
        exact (valued record isMember key isKey).1

end

/-- A carriage return alone is written without quotes. -/
theorem export_loses : ¬ ∀ records, Lossless records := by
  intro law
  let record : PlainObject Text := ⟨⟨[("note".toList, "a\rb".toList)], by decide⟩⟩
  obtain ⟨header, _, _, read⟩ := law [record]
  have unread : readCsv (serializeRecords [record]) = none := by decide +kernel
  rw [unread] at read
  cases read

end Aprovan.Sync
