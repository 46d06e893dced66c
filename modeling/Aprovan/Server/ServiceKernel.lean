import Aprovan.Library.Text

/-!
# Service errors

A service procedure answers a value or throws a `ServiceError`, which carries
the message for the caller and the HTTP status.
-/

namespace Aprovan.Server

open Aprovan.Library

structure ServiceError where
  message : Text
  status : Nat
  deriving DecidableEq

abbrev Outcome (Value : Type) := Except ServiceError Value

/-- A sequence of calls returns exactly when each of them does. -/
theorem bind_eq_ok_iff {First Second : Type} {first : Outcome First}
    {next : First → Outcome Second} {value : Second} :
    (first >>= next) = .ok value ↔ ∃ middle, first = .ok middle ∧ next middle = .ok value := by
  cases first with
  | error thrown =>
    constructor
    · intro impossible
      cases impossible
    · rintro ⟨_, impossible, _⟩
      cases impossible
  | ok middle =>
    constructor
    · intro same
      exact ⟨middle, rfl, same⟩
    · rintro ⟨other, returned, same⟩
      cases returned
      exact same

theorem foldlM_ok_of_preserved {Value Item : Type} {round : Value → Item → Outcome Value}
    (holds : Value → Prop)
    (preserved : ∀ before item after, holds before → round before item = .ok after → holds after)
    {items : List Item} {start answer : Value} (initial : holds start)
    (returned : items.foldlM round start = .ok answer) :
    holds answer := by
  induction items generalizing start with
  | nil =>
    cases returned
    exact initial
  | cons item rest ih =>
    rw [List.foldlM_cons] at returned
    obtain ⟨middle, taken, remaining⟩ := bind_eq_ok_iff.mp returned
    exact ih (preserved start item middle initial taken) remaining

end Aprovan.Server
