import Mathlib

/-!
# Computations that leave a trace

A computation reports events and then returns a value or throws; what it
reported before it threw stays reported.  `Confined bound answers` is the
partial-correctness judgement for such computations.
-/

namespace Aprovan.Library

structure Traced (Event Error Value : Type) where
  trace : List Event
  outcome : Except Error Value

namespace Traced

variable {Event Error Value Result : Type}

/-- Run `first`, and `next` on its value if it returned. -/
def andThen (first : Traced Event Error Value) (next : Value → Traced Event Error Result) :
    Traced Event Error Result :=
  match first.outcome with
  | .error thrown => ⟨first.trace, .error thrown⟩
  | .ok value => ⟨first.trace ++ (next value).trace, (next value).outcome⟩

instance : Monad (Traced Event Error) where
  pure value := ⟨[], .ok value⟩
  bind := andThen

def report (event : Event) : Traced Event Error Unit :=
  ⟨[event], .ok ()⟩

def check (outcome : Except Error Value) : Traced Event Error Value :=
  ⟨[], outcome⟩

def raise (thrown : Error) : Traced Event Error Value :=
  ⟨[], .error thrown⟩

/-- A check that passes is done. -/
theorem check_ok_bind (value : Value) (next : Value → Traced Event Error Result) :
    (check (.ok value) : Traced Event Error Value) >>= next = next value :=
  rfl

theorem ok_bind (events : List Event) (value : Value) (next : Value → Traced Event Error Result) :
    (⟨events, .ok value⟩ : Traced Event Error Value) >>= next =
      ⟨events ++ (next value).trace, (next value).outcome⟩ :=
  rfl

/-- Every reported event is in the bound and every returned value is as
required. -/
structure Confined (bound : Set Event) (answers : Value → Prop)
    (computation : Traced Event Error Value) : Prop where
  events : ∀ event ∈ computation.trace, event ∈ bound
  returns : ∀ value, computation.outcome = .ok value → answers value

variable {bound : Set Event} {answers : Value → Prop}
  {concludes : Result → Prop}

theorem confined_pure {value : Value} (holds : answers value) :
    Confined bound answers (pure value : Traced Event Error Value) := by
  constructor
  · intro event member
    cases member
  · intro other returned
    cases returned
    exact holds

theorem confined_raise (thrown : Error) :
    Confined bound answers (raise thrown : Traced Event Error Value) := by
  constructor
  · intro event member
    cases member
  · intro other returned
    cases returned

theorem confined_report {event : Event} (inside : event ∈ bound) :
    Confined bound (fun _ => True) (report event : Traced Event Error Unit) := by
  constructor
  · intro other member
    rw [List.mem_singleton.mp member]
    exact inside
  · intro value returned
    trivial

/-- A check answers what it returns, and reports nothing. -/
theorem confined_check (outcome : Except Error Value) :
    Confined bound (fun value => outcome = .ok value)
      (check outcome : Traced Event Error Value) := by
  constructor
  · intro event member
    cases member
  · intro value returned
    exact returned

/-- The rule of composition. -/
theorem confined_bind {first : Traced Event Error Value}
    {next : Value → Traced Event Error Result} (before : Confined bound answers first)
    (after : ∀ value, answers value → Confined bound concludes (next value)) :
    Confined bound concludes (first >>= next) := by
  have unfolded : first >>= next = andThen first next := rfl
  rw [unfolded, andThen]
  cases ended : first.outcome with
  | error thrown =>
    constructor
    · exact before.events
    · intro value returned
      cases returned
  | ok value =>
    have rest := after value (before.returns value ended)
    constructor
    · intro event member
      rcases List.mem_append.mp member with early | late
      · exact before.events event early
      · exact rest.events event late
    · exact rest.returns

theorem confined_checked {outcome : Except Error Value}
    {next : Value → Traced Event Error Result} :
    Confined bound concludes (check outcome >>= next) ↔
      ∀ value, outcome = .ok value → Confined bound concludes (next value) := by
  constructor
  · rintro confined value rfl
    exact ⟨confined.events, confined.returns⟩
  · exact confined_bind (confined_check outcome)

/-- The rule of consequence. -/
theorem Confined.weaken {smaller : Set Event} {stronger : Value → Prop}
    {computation : Traced Event Error Value} (confined : Confined smaller stronger computation)
    (larger : smaller ⊆ bound) (implies : ∀ value, stronger value → answers value) :
    Confined bound answers computation := by
  constructor
  · intro event member
    exact larger (confined.events event member)
  · intro value returned
    exact implies value (confined.returns value returned)

/-- The rule of iteration: what one round preserves, the loop preserves. -/
theorem confined_foldlM {Item : Type} {round : Value → Item → Traced Event Error Value}
    (items : List Item) {start : Value} (initial : answers start)
    (preserved : ∀ value, ∀ item ∈ items, answers value →
      Confined bound answers (round value item)) :
    Confined bound answers (items.foldlM round start) := by
  induction items generalizing start with
  | nil => exact confined_pure initial
  | cons item rest ih =>
    rw [List.foldlM_cons]
    apply confined_bind (preserved start item List.mem_cons_self initial)
    intro value holds
    apply ih holds
    intro other later member
    exact preserved other later (List.mem_cons_of_mem item member)

/-- A loop whose rounds all return reports what they report, in turn. -/
theorem foldlM_of_rounds {Item : Type} {round : Value → Item → Traced Event Error Value}
    {events : Item → List Event} {next : Value → Item → Value} (items : List Item)
    (rounds : ∀ value, ∀ item ∈ items, round value item = ⟨events item, .ok (next value item)⟩)
    (start : Value) :
    items.foldlM round start = ⟨items.flatMap events, .ok (items.foldl next start)⟩ := by
  induction items generalizing start with
  | nil => rfl
  | cons item rest ih =>
    have later := ih
      (fun value other member => rounds value other (List.mem_cons_of_mem item member))
      (next start item)
    have first : (item :: rest).foldlM round start =
        ⟨events item ++ (rest.foldlM round (next start item)).trace,
          (rest.foldlM round (next start item)).outcome⟩ := by
      rw [List.foldlM_cons, rounds start item List.mem_cons_self]
      rfl
    rw [first, later]
    rfl

variable {event : Event} {first : Traced Event Error Value}
  {next : Value → Traced Event Error Result}

theorem mem_trace_report (event : Event) :
    event ∈ (report event : Traced Event Error Unit).trace :=
  List.mem_singleton_self event

/-- What the first part reports stays reported. -/
theorem mem_trace_of_first (member : event ∈ first.trace) : event ∈ (first >>= next).trace := by
  show event ∈ (andThen first next).trace
  unfold andThen
  split
  · exact member
  · exact List.mem_append_left _ member

/-- What the second part reports is reported if the first one returns. -/
theorem mem_trace_of_next {value : Value} (returned : first.outcome = .ok value)
    (member : event ∈ (next value).trace) :
    event ∈ (first >>= next).trace := by
  show event ∈ (andThen first next).trace
  unfold andThen
  rw [returned]
  exact List.mem_append_right _ member

end Traced

end Aprovan.Library
