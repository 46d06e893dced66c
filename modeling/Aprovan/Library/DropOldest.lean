import Mathlib

/-!
# A bounded queue that drops its oldest item

A queue with a limit that makes room by dropping its first item holds the
last items of everything that was pushed.
-/

namespace Aprovan.Library

universe u

variable {Item : Type u}

def pushDropOldest (limit : Nat) (queue : List Item) (item : Item) : List Item :=
  (if limit ≤ queue.length then queue.tail else queue) ++ [item]

theorem length_rtake (log : List Item) (limit : Nat) :
    (log.rtake limit).length = min limit log.length := by
  rw [List.rtake_eq_reverse_take_reverse, List.length_reverse,
    List.length_take, List.length_reverse]

theorem length_rtake_le (log : List Item) (limit : Nat) : (log.rtake limit).length ≤ limit := by
  rw [length_rtake]
  exact Nat.min_le_left limit log.length

/-- The last items of a log are none only if the log is empty. -/
theorem rtake_eq_nil_iff {limit : Nat} (positive : 0 < limit) (log : List Item) :
    log.rtake limit = [] ↔ log = [] := by
  rw [← List.length_eq_zero_iff, length_rtake, ← List.length_eq_zero_iff]
  omega

/-- A queue that holds the last items of a log holds them after a push. -/
theorem pushDropOldest_rtake {limit : Nat} (positive : 0 < limit) (log : List Item) (item : Item) :
    pushDropOldest limit (log.rtake limit) item = (log ++ [item]).rtake limit := by
  cases limit with
  | zero => cases positive
  | succ smaller =>
    rw [List.rtake_concat_succ, pushDropOldest]
    congr 1
    by_cases full : smaller + 1 ≤ (log.rtake (smaller + 1)).length
    · rw [if_pos full]
      rw [length_rtake] at full
      unfold List.rtake
      rw [List.tail_drop]
      congr 1
      omega
    · rw [if_neg full]
      rw [length_rtake] at full
      unfold List.rtake
      congr 1
      omega

end Aprovan.Library
