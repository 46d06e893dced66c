import Aprovan.Library.Text

/-!
# Occurrences of a text in another one

The first place where a needle occurs, and the replacement of a stretch of a
text.  A text made of lines is replaced line by line or letter by letter with
the same result.
-/

namespace Aprovan.Library

section

variable {Letter : Type} [DecidableEq Letter]

/-- The first place at which the needle occurs. -/
def indexOf (needle : List Letter) : List Letter → Option Nat
  | [] => if needle = [] then some 0 else none
  | letter :: rest =>
    if needle.isPrefixOf (letter :: rest) then some 0
    else (indexOf needle rest).map (· + 1)

def splice (text : List Letter) (index length : Nat) (replacement : List Letter) : List Letter :=
  text.take index ++ replacement ++ text.drop (index + length)

omit [DecidableEq Letter] in
/-- Replacing a stretch that is displayed. -/
theorem splice_append (before old after replacement : List Letter) :
    splice (before ++ old ++ after) before.length old.length replacement =
      before ++ replacement ++ after := by
  have front : (before ++ old ++ after).take before.length = before := by
    rw [List.append_assoc, List.take_left]
  have back : (before ++ old ++ after).drop (before.length + old.length) = after := by
    rw [← List.length_append, List.drop_left]
  rw [splice, front, back]

omit [DecidableEq Letter] in
/-- Replacements at one place differ as their texts do. -/
theorem splice_injective (text : List Letter) (index length : Nat) :
    Function.Injective (splice text index length) := by
  intro first second same
  have middle := List.append_cancel_right same
  exact List.append_cancel_left middle

/-- A displayed needle is found at its place or before it. -/
theorem indexOf_append_le (before needle after : List Letter) :
    ∃ index, indexOf needle (before ++ needle ++ after) = some index ∧ index ≤ before.length := by
  induction before with
  | nil =>
    cases text : needle ++ after with
    | nil =>
      have empty := List.append_eq_nil_iff.mp text
      refine ⟨0, ?_, Nat.le_refl 0⟩
      rw [empty.1, empty.2]
      simp [indexOf]
    | cons letter rest =>
      have here : needle.isPrefixOf (letter :: rest) = true := by
        rw [← text]
        exact List.isPrefixOf_iff_prefix.mpr (List.prefix_append _ _)
      exact ⟨0, by simp [indexOf, text, here], Nat.le_refl 0⟩
  | cons letter before ih =>
    obtain ⟨index, found, bound⟩ := ih
    rw [List.cons_append, List.cons_append, indexOf]
    by_cases here : needle.isPrefixOf (letter :: (before ++ needle ++ after)) = true
    · rw [if_pos here]
      exact ⟨0, rfl, Nat.zero_le _⟩
    · rw [if_neg here, found]
      exact ⟨index + 1, rfl, Nat.succ_le_succ bound⟩

end

def closedSegments (separator : Char) (segments : List Text) : Text :=
  segments.flatMap (· ++ [separator])

def ledSegments (separator : Char) (segments : List Text) : Text :=
  segments.flatMap (separator :: ·)

theorem joinWith_cons (separator : Char) (segment : Text) (segments : List Text) :
    joinWith separator (segment :: segments) = segment ++ ledSegments separator segments := by
  induction segments generalizing segment with
  | nil => simp [joinWith, ledSegments]
  | cons next others ih =>
    rw [joinWith, ih]
    simp [ledSegments]

/-- The letters of a stretch of segments stand between those before and
those behind it. -/
theorem joinWith_middle (separator : Char) (before : List Text) {middle : List Text}
    (after : List Text) (nonempty : middle ≠ []) :
    joinWith separator (before ++ middle ++ after) =
      closedSegments separator before ++ joinWith separator middle ++
        ledSegments separator after := by
  induction before with
  | nil =>
    cases middle with
    | nil => exact absurd rfl nonempty
    | cons segment segments =>
      rw [List.nil_append, List.cons_append, joinWith_cons, joinWith_cons]
      simp [closedSegments, ledSegments]
  | cons segment before ih =>
    have more : before ++ middle ++ after ≠ [] := by simp [nonempty]
    obtain ⟨next, others, shown⟩ := List.exists_cons_of_ne_nil more
    rw [List.cons_append, List.cons_append, shown, joinWith, ← shown, ih]
    simp [closedSegments]

/-- Replacing a stretch of lines replaces the stretch of their letters. -/
theorem splice_joinWith (separator : Char) (before : List Text) {old new : List Text}
    (after : List Text) (oldNonempty : old ≠ []) (newNonempty : new ≠ []) :
    splice (joinWith separator (before ++ old ++ after)) (closedSegments separator before).length
        (joinWith separator old).length (joinWith separator new) =
      joinWith separator (before ++ new ++ after) := by
  rw [joinWith_middle separator before after oldNonempty, splice_append,
    joinWith_middle separator before after newNonempty]

end Aprovan.Library
