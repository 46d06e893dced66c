import Aprovan.Library.Text

/-!
# Pages of a list

A page starts behind the name that a cursor gives, or in front if the list
does not have it, and is cut with a number that need not be whole.
-/

namespace Aprovan.Library

/-- A whole number from a number, towards zero. -/
def truncated (number : Rat) : Int :=
  if 0 ≤ number then number.floor else number.ceil

/-- `items.slice(start, stop)`. -/
def slice {Item : Type} (items : List Item) (start : Nat) (stop : Rat) : List Item :=
  let whole := truncated stop
  let last := if whole < 0 then whole + items.length else whole
  (items.take last.toNat).drop start

/-- Behind the key that the cursor names, if it is listed. -/
def startAfter (keys : List Text) (cursor : Option Text) : Nat :=
  match cursor with
  | none => 0
  | some named =>
    if named = [] then 0
    else
      match keys.findIdx? (· = named) with
      | some index => index + 1
      | none => 0

theorem startAfter_le (keys : List Text) (cursor : Option Text) :
    startAfter keys cursor ≤ keys.length := by
  cases cursor with
  | none => exact Nat.zero_le _
  | some named =>
    by_cases isEmpty : named = []
    · rw [startAfter, if_pos isEmpty]
      exact Nat.zero_le _
    · rw [startAfter, if_neg isEmpty]
      cases found : keys.findIdx? (· = named) with
      | none => exact Nat.zero_le _
      | some index =>
        have inside := (List.findIdx?_eq_some_iff_findIdx_eq.mp found).1
        exact inside

theorem startAfter_getD (keys : List Text) (cursor : Option Text) :
    startAfter keys (some (cursor.getD [])) = startAfter keys cursor := by
  cases cursor with
  | none => rfl
  | some named => rfl

section

variable {Item : Type} {items : List Item} {start : Nat} {limit : Rat}

theorem slice_map {Other : Type} (items : List Item) (change : Item → Other)
    (start : Nat) (stop : Rat) :
    slice (items.map change) start stop = (slice items start stop).map change := by
  simp only [slice, List.length_map, List.map_drop, List.map_take]

/-- A page holds as many items as its limit has whole ones. -/
theorem slice_page (positive : 0 ≤ limit) :
    slice items start (start + limit) = (items.drop start).take limit.floor.toNat := by
  have notNegative : 0 ≤ limit.floor := Rat.le_floor_iff.mpr (by exact_mod_cast positive)
  have whole : truncated (start + limit) = start + limit.floor := by
    rw [truncated, if_pos (by positivity)]
    have moved := Int.floor_natCast_add start limit
    exact moved
  have last : (if truncated (start + limit) < 0 then
      truncated (start + limit) + (items.length : Int)
    else
      truncated (start + limit)).toNat = start + limit.floor.toNat := by
    rw [whole, if_neg (by omega)]
    omega
  rw [slice]
  simp only [last]
  rw [List.drop_take]
  congr 1
  omega

theorem slice_all (enough : (items.length : Rat) ≤ limit) :
    slice items 0 ((0 : Nat) + limit) = items := by
  have positive : 0 ≤ limit := le_trans (Nat.cast_nonneg items.length) enough
  have reached := Rat.le_floor_iff.mpr
    (show ((items.length : Int) : Rat) ≤ limit by exact_mod_cast enough)
  rw [slice_page positive, List.drop_zero, List.take_of_length_le (by omega)]

theorem none_left_behind (enough : (items.length : Rat) ≤ limit) :
    ¬ ((0 : Nat) : Rat) + limit < (items.length : Rat) := by
  rw [Nat.cast_zero, zero_add]
  exact not_lt.mpr enough

/-- Something is left behind a page if the whole limit leaves it. -/
theorem left_behind_iff (positive : 0 ≤ limit) (inside : start ≤ items.length) :
    (start : Rat) + limit < (items.length : Rat) ↔
      limit.floor.toNat < (items.drop start).length := by
  have notNegative : 0 ≤ limit.floor := Rat.le_floor_iff.mpr (by exact_mod_cast positive)
  have room : ((items.length - start : Nat) : Int) = (items.length : Int) - start := by omega
  rw [List.length_drop]
  have moved : (start : Rat) + limit < (items.length : Rat) ↔
      limit < ((items.length - start : Nat) : Rat) := by
    rw [Nat.cast_sub inside]
    constructor
    · intro less
      linarith
    · intro less
      linarith
  rw [moved]
  have cast : (((items.length - start : Nat) : Int) : Rat) =
      ((items.length - start : Nat) : Rat) := by
    push_cast
    rfl
  rw [← cast, ← Rat.floor_lt_iff]
  omega

end

end Aprovan.Library
