import Mathlib

/-!
# Cells that are filled lazily

A cell is written by those who mean to, and filled from an older place by
readers that found it empty.  Where every fill finds the cell empty, or holding
what it is filled with, what was written stays until the next write.
-/

namespace Aprovan.Library

inductive CellEffect (Value : Type) where
  | keeps
  | writes (value : Option Value)
  | fills (value : Value)

section

variable {Entry Value : Type} (effect : Entry → CellEffect Value)
  (initial : Option Value)

def CellEffect.on (cell : Option Value) : CellEffect Value → Option Value
  | .keeps => cell
  | .writes value => value
  | .fills value => some value

def cellAfter (history : List Entry) : Option Value :=
  history.foldl (fun cell entry => (effect entry).on cell) initial

/-- Every fill finds the cell empty, or holding its value. -/
def FillsSafely (history : List Entry) : Prop :=
  ∀ before entry after value, history = before ++ entry :: after → effect entry = .fills value →
      cellAfter effect initial before = none ∨ cellAfter effect initial before = some value

variable {effect initial}

theorem cellAfter_append_singleton (history : List Entry) (entry : Entry) :
    cellAfter effect initial (history ++ [entry]) =
      (effect entry).on (cellAfter effect initial history) := by
  rw [cellAfter, List.foldl_append]
  rfl

variable {before after : List Entry}

theorem cellAfter_append_of_keeps (keeps : ∀ entry ∈ after, effect entry = .keeps) :
    cellAfter effect initial (before ++ after) = cellAfter effect initial before := by
  induction after using List.reverseRecOn with
  | nil => rw [List.append_nil]
  | append_singleton earlier entry ih =>
    rw [← List.append_assoc, cellAfter_append_singleton, keeps entry (by simp)]
    apply ih
    intro other member
    exact keeps other (List.mem_append_left _ member)

theorem FillsSafely.front (safely : FillsSafely effect initial (before ++ after)) :
    FillsSafely effect initial before := by
  intro front entry rest value split
  apply safely front entry (rest ++ after) value
  rw [split, List.append_assoc, List.cons_append]

/-- What the cell holds stays until it is written. -/
theorem cellAfter_kept {value : Value} (safely : FillsSafely effect initial (before ++ after))
    (held : cellAfter effect initial before = some value) :
    cellAfter effect initial (before ++ after) = some value ∨
      ∃ middle entry rest written, after = middle ++ entry :: rest ∧
        effect entry = .writes written := by
  induction after using List.reverseRecOn with
  | nil =>
    rw [List.append_nil]
    exact Or.inl held
  | append_singleton earlier entry ih =>
    rw [← List.append_assoc] at safely ⊢
    rcases ih safely.front with kept | written
    · rw [cellAfter_append_singleton, kept]
      cases does : effect entry with
      | keeps => exact Or.inl rfl
      | writes other => exact Or.inr ⟨earlier, entry, [], other, rfl, does⟩
      | fills other =>
        have found := safely (before ++ earlier) entry [] other rfl does
        rw [kept] at found
        rcases found with impossible | same
        · cases impossible
        · exact Or.inl same.symm
    · obtain ⟨middle, found, rest, other, rfl, does⟩ := written
      refine Or.inr ⟨middle, found, rest ++ [entry], other, ?_, does⟩
      rw [List.append_assoc, List.cons_append]

end

end Aprovan.Library
