import Mathlib

/-!
# Changes of a tree

A tree has a value or nothing under each key.  Changes name some keys, each
with its new value or with its removal.  They override a tree, and two trees
have exactly one set of changes between them that repeats nothing.
-/

namespace Aprovan.Library

variable {Key Value : Type}

abbrev TreeChanges (Key Value : Type) := Key → Option (Option Value)

def TreeChanges.override (changes : TreeChanges Key Value) (tree : Key → Option Value) :
    Key → Option Value :=
  fun key => (changes key).getD (tree key)

def TreeChanges.within (changes : TreeChanges Key Value)
    (condition : Key → Prop) [DecidablePred condition] :
    TreeChanges Key Value :=
  fun key => if condition key then changes key else none

def changesBetween [DecidableEq Value] (before after : Key → Option Value) :
    TreeChanges Key Value :=
  fun key => if before key = after key then none else some (after key)

theorem override_of_none {changes : TreeChanges Key Value}
    {tree : Key → Option Value} {key : Key} (unchanged : changes key = none) :
    changes.override tree key = tree key := by
  rw [TreeChanges.override, unchanged, Option.getD_none]

theorem override_of_some {changes : TreeChanges Key Value} {tree : Key → Option Value}
    {key : Key} {value : Option Value} (changed : changes key = some value) :
    changes.override tree key = value := by
  rw [TreeChanges.override, changed, Option.getD_some]

section

variable [DecidableEq Value] {before after : Key → Option Value}
  {changes : TreeChanges Key Value}

theorem changesBetween_eq_some_iff {key : Key} {value : Option Value} :
    changesBetween before after key = some value ↔ before key ≠ value ∧ after key = value := by
  unfold changesBetween
  by_cases same : before key = after key
  · rw [if_pos same]
    constructor
    · intro impossible
      cases impossible
    · rintro ⟨different, reached⟩
      exact absurd (same.trans reached) different
  · rw [if_neg same, Option.some.injEq]
    constructor
    · intro reached
      rw [← reached]
      exact ⟨same, rfl⟩
    · exact And.right

theorem changesBetween_eq_none_iff {key : Key} :
    changesBetween before after key = none ↔ before key = after key := by
  unfold changesBetween
  by_cases same : before key = after key
  · rw [if_pos same]
    exact ⟨fun _ => same, fun _ => rfl⟩
  · rw [if_neg same]
    constructor
    · intro impossible
      cases impossible
    · intro reached
      exact absurd reached same

/-- Two trees differ by given changes exactly where the changes say. -/
theorem changesBetween_eq_iff :
    changesBetween before after = changes ↔ ∀ key, match changes key with
        | none => after key = before key
        | some value => after key = value ∧ before key ≠ value := by
  rw [funext_iff]
  apply forall_congr'
  intro key
  cases changed : changes key with
  | none => rw [changesBetween_eq_none_iff, eq_comm]
  | some value => rw [changesBetween_eq_some_iff, and_comm]

end

end Aprovan.Library
