import Mathlib

/-!
# Tables behind a cache

A table is changed by saves and read through a cache, which a save drops when
it completes.  A table is current where no save has completed since it was
stored.
-/

namespace Aprovan.Library

/-- Which entries of a history save a change and which complete a save. -/
structure SaveLog (Entry Change Table : Type) where
  initial : Table
  apply : Table → Change → Table
  saved : Entry → Option Change
  completes : Entry → Bool

namespace SaveLog

variable {Entry Change Table : Type} (log : SaveLog Entry Change Table)

def changes (history : List Entry) : List Change :=
  history.filterMap log.saved

def tableOf (changes : List Change) : Table :=
  changes.foldl log.apply log.initial

def stored (history : List Entry) : Table :=
  log.tableOf (log.changes history)

def Completed (history : List Entry) (change : Change) : Prop :=
  ∃ before entry after, history = before ++ entry :: after ∧
    log.completes entry = true ∧ change ∈ log.changes before

/-- No save has completed since the table was stored. -/
def Current (history : List Entry) (table : Table) : Prop :=
  ∃ before after, history = before ++ after ∧ table = log.stored before ∧
    ∀ entry ∈ after, log.completes entry = false

variable {log}

theorem changes_append (first second : List Entry) :
    log.changes (first ++ second) = log.changes first ++ log.changes second :=
  List.filterMap_append

variable {history : List Entry} {change : Change}

theorem stored_saved {entry : Entry} (saves : log.saved entry = some change) :
    log.stored (history ++ [entry]) = log.apply (log.stored history) change := by
  rw [stored, stored, changes_append, tableOf, tableOf, List.foldl_append]
  simp [changes, saves]

theorem stored_unsaved {entry : Entry} (saves : log.saved entry = none) :
    log.stored (history ++ [entry]) = log.stored history := by
  rw [stored, stored, changes_append]
  simp [changes, saves]

theorem Completed.mem_changes (completed : log.Completed history change) :
    change ∈ log.changes history := by
  obtain ⟨before, entry, after, split, _, member⟩ := completed
  rw [split, changes_append]
  exact List.mem_append_left _ member

theorem Completed.append (completed : log.Completed history change) (later : List Entry) :
    log.Completed (history ++ later) change := by
  obtain ⟨before, entry, after, split, completes, member⟩ := completed
  refine ⟨before, entry, after ++ later, ?_, completes, member⟩
  rw [split, List.append_assoc, List.cons_append]

theorem Current.append {table : Table} (current : log.Current history table) {later : List Entry}
    (pending : ∀ entry ∈ later, log.completes entry = false) :
    log.Current (history ++ later) table := by
  obtain ⟨before, after, split, same, pendingBefore⟩ := current
  refine ⟨before, after ++ later, ?_, same, ?_⟩
  · rw [split, List.append_assoc]
  · intro entry member
    rcases List.mem_append.mp member with older | newer
    · exact pendingBefore entry older
    · exact pending entry newer

/-- A current table holds a number of the changes, the completed ones among
them. -/
theorem Current.sees {table : Table} (current : log.Current history table) (later : List Entry) :
    ∃ count, table = log.tableOf ((log.changes (history ++ later)).take count) ∧
        ∀ change, log.Completed history change →
          change ∈ (log.changes (history ++ later)).take count := by
  obtain ⟨before, after, split, same, pending⟩ := current
  have taken : (log.changes (history ++ later)).take
      (log.changes before).length = log.changes before := by
    rw [split, List.append_assoc, changes_append, List.take_left']
    rfl
  refine ⟨(log.changes before).length, ?_, ?_⟩
  · rw [taken]
    exact same
  · intro change completed
    obtain ⟨front, entry, rest, whole, completes, member⟩ := completed
    rw [taken]
    -- the save completed within `before`
    rw [split] at whole
    rcases List.append_eq_append_iff.mp whole with
      ⟨middle, frontSplit, afterSplit⟩ | ⟨middle, beforeSplit, _⟩
    · have inside : entry ∈ after := by
        rw [afterSplit]
        simp
      rw [pending entry inside] at completes
      cases completes
    · rw [beforeSplit, changes_append]
      exact List.mem_append_left _ member

end SaveLog

end Aprovan.Library
