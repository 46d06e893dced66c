import Mathlib

/-!
# Runs of partial step functions

A component whose callers interleave at their awaits is a state with a partial
step function, where `none` means that the action is not enabled.  The induction
over a run is carried out once here: a component supplies a step lemma and
obtains the run lemma.
-/

namespace Aprovan.Library

universe u v w x

section

variable {State : Type u} {Action : Type v}

/-- Execute a list of actions; `none` as soon as one is not enabled. -/
def runFrom (step : State → Action → Option State) : State → List Action → Option State
  | state, [] => some state
  | state, action :: rest => (step state action).bind fun next => runFrom step next rest

/-- Execute a list of actions, each of which must meet `allowed` in the state
it is taken in. -/
def runGuarded (step : State → Action → Option State) (allowed : State → Action → Prop)
    [∀ state action, Decidable (allowed state action)] :
    State → List Action → Option State
  | state, [] => some state
  | state, action :: rest =>
    if allowed state action then
      (step state action).bind fun next => runGuarded step allowed next rest
    else none

variable {step : State → Action → Option State}
  {allowed : State → Action → Prop}
  [∀ state action, Decidable (allowed state action)]

theorem runFrom_cons (state : State) (action : Action) (rest : List Action) :
    runFrom step state (action :: rest) =
      (step state action).bind fun next => runFrom step next rest :=
  rfl

/-- A run splits at every position into two runs. -/
theorem runFrom_append (state : State) (first second : List Action) :
    runFrom step state (first ++ second) = (runFrom step state first).bind fun middle =>
        runFrom step middle second := by
  induction first generalizing state with
  | nil => rfl
  | cons action rest ih =>
    rw [List.cons_append, runFrom_cons, runFrom_cons]
    cases taken : step state action with
    | none => rfl
    | some next => simpa only [Option.bind_some] using ih next

variable {state target : State}

theorem runGuarded_cons_iff {action : Action} {rest : List Action} :
    runGuarded step allowed state (action :: rest) = some target ↔ allowed state action ∧
        ∃ next, step state action = some next ∧
          runGuarded step allowed next rest = some target := by
  rw [runGuarded]
  by_cases permitted : allowed state action
  · rw [if_pos permitted, Option.bind_eq_some_iff]
    exact (and_iff_right permitted).symm
  · rw [if_neg permitted]
    constructor
    · intro impossible
      cases impossible
    · rintro ⟨permission, _⟩
      exact absurd permission permitted

variable {actions : List Action}

theorem invariant_runGuarded (invariant : State → Prop) (preserved : ∀ state action next,
      invariant state → allowed state action → step state action = some next → invariant next)
    (initial : invariant state) (guarded : runGuarded step allowed state actions = some target) :
    invariant target := by
  induction actions generalizing state with
  | nil =>
    cases guarded
    exact initial
  | cons action rest ih =>
    obtain ⟨permitted, next, taken, remaining⟩ :=
      runGuarded_cons_iff.mp guarded
    exact ih (preserved state action next initial permitted taken) remaining

theorem invariant_runFrom (invariant : State → Prop) (preserved : ∀ state action next,
      invariant state → step state action = some next → invariant next) (initial : invariant state)
    (executed : runFrom step state actions = some target) :
    invariant target := by
  induction actions generalizing state with
  | nil =>
    cases executed
    exact initial
  | cons action rest ih =>
    rw [runFrom_cons] at executed
    obtain ⟨next, taken, remaining⟩ :=
      Option.bind_eq_some_iff.mp executed
    exact ih (preserved state action next initial taken) remaining

/-- Every action of a run meets a condition on the state it is taken in. -/
def StepsMeet (step : State → Action → Option State) (condition : State → Action → Prop) :
    State → List Action → Prop
  | _, [] => True
  | state, action :: rest =>
    condition state action ∧ ∀ next, step state action = some next →
        StepsMeet step condition next rest

/-- Whether the steps of a given run meet a condition can be computed. -/
instance decidableStepsMeet (step : State → Action → Option State)
    (condition : State → Action → Prop)
    [∀ state action, Decidable (condition state action)] :
    ∀ state actions, Decidable (StepsMeet step condition state actions)
  | _, [] => .isTrue trivial
  | state, action :: rest =>
    match taken : step state action with
    | none =>
      decidable_of_iff (condition state action) ⟨fun holds => ⟨holds, fun _ other => by
          rw [taken] at other; cases other⟩, fun both => both.1⟩
    | some next =>
      have := decidableStepsMeet step condition next rest
      decidable_of_iff (condition state action ∧ StepsMeet step condition next rest)
        ⟨fun both => ⟨both.1, fun _ other => by
          rw [taken] at other; cases other; exact both.2⟩,
          fun both => ⟨both.1, both.2 next taken⟩⟩

variable {condition : State → Action → Prop}

theorem invariant_of_stepsMeet (invariant : State → Prop) (preserved : ∀ state action next,
      invariant state → condition state action → step state action = some next → invariant next)
    (initial : invariant state) (meets : StepsMeet step condition state actions)
    (executed : runFrom step state actions = some target) :
    invariant target := by
  induction actions generalizing state with
  | nil =>
    cases executed
    exact initial
  | cons action rest ih =>
    rw [runFrom_cons] at executed
    obtain ⟨next, taken, remaining⟩ :=
      Option.bind_eq_some_iff.mp executed
    have holds := preserved state action next initial meets.1 taken
    exact ih holds (meets.2 next taken) remaining

theorem StepsMeet.split {middle : State} {first later : List Action}
    (meets : StepsMeet step condition state (first ++ later))
    (reached : runFrom step state first = some middle) :
    StepsMeet step condition state first ∧ StepsMeet step condition middle later := by
  induction first generalizing state with
  | nil =>
    cases reached
    exact ⟨trivial, meets⟩
  | cons action rest ih =>
    rw [runFrom_cons] at reached
    obtain ⟨next, taken, remaining⟩ :=
      Option.bind_eq_some_iff.mp reached
    have parts := ih (meets.2 next taken) remaining
    refine ⟨⟨meets.1, ?_⟩, parts.2⟩
    intro other same
    rw [taken] at same
    rw [← Option.some.inj same]
    exact parts.1

/-- What is observed of a run whose steps meet the condition, where each of
them changes it as its action says. -/
theorem observe_of_stepsMeet {Seen : Type x} (observe : State → Seen)
    (effect : Seen → Action → Seen)
    (each : ∀ state action next, condition state action → step state action = some next →
        observe next = effect (observe state) action)
    (meets : StepsMeet step condition state actions)
    (executed : runFrom step state actions = some target) :
    observe target = actions.foldl effect (observe state) := by
  induction actions generalizing state with
  | nil =>
    cases executed
    rfl
  | cons action rest ih =>
    rw [runFrom_cons] at executed
    obtain ⟨next, taken, remaining⟩ :=
      Option.bind_eq_some_iff.mp executed
    rw [List.foldl_cons, ← each state action next meets.1 taken]
    exact ih (meets.2 next taken) remaining

/-- Actions that keep an invariant, by which they meet the condition, make a
run whose steps meet it. -/
theorem stepsMeet_of_invariant (invariant : State → Prop) (permitted : Action → Prop)
    (enough : ∀ state action, invariant state → permitted action → condition state action)
    (preserved : ∀ state action next, invariant state → permitted action →
        step state action = some next → invariant next) (initial : invariant state)
    (allPermitted : ∀ action ∈ actions, permitted action) :
    StepsMeet step condition state actions := by
  induction actions generalizing state with
  | nil => exact trivial
  | cons action rest ih =>
    have first := allPermitted action List.mem_cons_self
    refine ⟨enough state action initial first, fun next taken => ?_⟩
    exact ih (preserved state action next initial first taken)
      fun other member => allPermitted other (List.mem_cons_of_mem action member)

theorem StepsMeet.weaken {weaker : State → Action → Prop} (invariant : State → Prop)
    (preserved : ∀ state action next,
      invariant state → condition state action → step state action = some next → invariant next)
    (implies : ∀ state action, invariant state → condition state action → weaker state action)
    (initial : invariant state) (meets : StepsMeet step condition state actions) :
    StepsMeet step weaker state actions := by
  induction actions generalizing state with
  | nil => exact trivial
  | cons action rest ih =>
    refine ⟨implies state action initial meets.1, fun next taken => ?_⟩
    have holds := preserved state action next initial meets.1 taken
    exact ih holds (meets.2 next taken)

/-- A relation between the ends of a run that is reflexive, transitive and
contains every step that keeps the invariant relates the two ends of the
whole run. -/
theorem related_runGuarded (invariant : State → Prop)
    (related : State → State → Prop) (reflexive : ∀ state, related state state)
    (transitive : ∀ first second third,
      related first second → related second third → related first third)
    (preserved : ∀ state action next, invariant state → allowed state action →
        step state action = some next →
          invariant next ∧ related state next) (initial : invariant state)
    (guarded : runGuarded step allowed state actions = some target) :
    related state target := by
  have keeps : invariant target ∧ related state target := by
    apply invariant_runGuarded (fun reached => invariant reached ∧ related state reached)
      _ ⟨initial, reflexive state⟩ guarded
    rintro reached action next ⟨holds, before⟩ permitted taken
    obtain ⟨kept, after⟩ := preserved reached action next holds permitted taken
    exact ⟨kept, transitive state reached next before after⟩
  exact keeps.2

end

/-! ## Calls in flight

The calls that have started and not yet returned form a list.  A call keeps
its position while it is in flight, and its position is freed when it
returns, so that an action can name the call it advances. -/

section

variable {Call : Type w}

def advanceCall (calls : List Call) (position : Nat) (call : Call) : List Call :=
  calls.set position call

def finishCall (calls : List Call) (position : Nat) : List Call :=
  calls.eraseIdx position

variable {calls : List Call} {position : Nat}

theorem mem_advanceCall {call member : Call} (found : member ∈ advanceCall calls position call) :
    member = call ∨ member ∈ calls := by
  rcases List.mem_or_eq_of_mem_set found with older | same
  · exact Or.inr older
  · exact Or.inl same

theorem mem_finishCall {member : Call} (found : member ∈ finishCall calls position) :
    member ∈ calls :=
  List.mem_of_mem_eraseIdx found

theorem mem_of_getElem?_eq_some {call : Call} (found : calls[position]? = some call) :
    call ∈ calls :=
  List.mem_of_getElem? found

/-- Another call stays in flight when one returns. -/
theorem mem_finishCall_of_ne {finished other : Call} (found : calls[position]? = some finished)
    (member : other ∈ calls) (different : other ≠ finished) :
    other ∈ finishCall calls position := by
  rw [finishCall, List.mem_eraseIdx_iff_getElem?]
  obtain ⟨index, located⟩ := List.mem_iff_getElem?.mp member
  refine ⟨index, ?_, located⟩
  intro same
  subst same
  rw [found] at located
  exact different (Option.some.inj located).symm

variable {old : Call}

/-- The call that replaces another one is in flight. -/
theorem mem_advanceCall_self (new : Call) (found : calls[position]? = some old) :
    new ∈ advanceCall calls position new := by
  obtain ⟨inside, _⟩ := List.getElem?_eq_some_iff.mp found
  exact List.mem_set inside new

/-- Another call stays in flight when one is replaced. -/
theorem mem_advanceCall_of_ne {other : Call} (new : Call) (found : calls[position]? = some old)
    (member : other ∈ calls) (different : other ≠ old) :
    other ∈ advanceCall calls position new := by
  obtain ⟨index, located⟩ := List.mem_iff_getElem?.mp member
  apply List.mem_iff_getElem?.mpr
  refine ⟨index, ?_⟩
  have elsewhere : position ≠ index := by
    intro same
    subst same
    rw [found] at located
    exact different (Option.some.inj located).symm
  rw [advanceCall, List.getElem?_set_ne elsewhere]
  exact located

theorem countP_finishCall (kind : Call → Bool) (found : calls[position]? = some old) :
    (finishCall calls position).countP kind + (kind old).toNat = calls.countP kind := by
  obtain ⟨inside, rfl⟩ := List.getElem?_eq_some_iff.mp found
  rw [← (List.getElem_cons_eraseIdx_perm inside).countP_eq kind, List.countP_cons, finishCall]
  cases kind calls[position] <;> rfl

/-- Replacing a call changes the number of calls of a kind only by the two
calls concerned. -/
theorem countP_advanceCall (kind : Call → Bool) (new : Call) (found : calls[position]? = some old) :
    (advanceCall calls position new).countP kind + (kind old).toNat =
      calls.countP kind + (kind new).toNat := by
  obtain ⟨inside, _⟩ := List.getElem?_eq_some_iff.mp found
  rw [← countP_finishCall kind found, advanceCall,
    (List.set_perm_cons_eraseIdx inside new).countP_eq kind, List.countP_cons, finishCall]
  cases kind new <;> simp [Nat.add_right_comm]

theorem countP_startCall (kind : Call → Bool) (calls : List Call) (call : Call) :
    (calls ++ [call]).countP kind = calls.countP kind + (kind call).toNat := by
  rw [List.countP_append, List.countP_singleton]
  cases kind call <;> simp

end

/-! ## Services and simulation

A service answers every request and moves to its next state.  Two services
give related answers to every list of requests if a relation between their
states is kept by each request, possibly under a condition on the two states
the request is served in. -/

section

variable {First : Type u} {Second : Type v} {Request : Type w}
  {Answer : Type x}

def answersFrom (serve : First → Request → Answer × First) : First → List Request → List Answer
  | _, [] => []
  | state, request :: rest =>
    (serve state request).1 :: answersFrom serve (serve state request).2 rest

/-- Every request meets a condition on the states in which the two services
serve it. -/
def RequestsMeet (first : First → Request → Answer × First)
    (second : Second → Request → Answer × Second) (condition : First → Second → Request → Prop) :
    First → Second → List Request → Prop
  | _, _, [] => True
  | one, two, request :: rest =>
    condition one two request ∧ RequestsMeet first second condition
        (first one request).2 (second two request).2 rest

/-- Whether given requests meet a condition can be computed. -/
instance decidableRequestsMeet (first : First → Request → Answer × First)
    (second : Second → Request → Answer × Second)
    (condition : First → Second → Request → Prop)
    [∀ one two request, Decidable (condition one two request)] :
    ∀ one two requests, Decidable (RequestsMeet first second condition one two requests)
  | _, _, [] => .isTrue trivial
  | one, two, request :: rest =>
    have := decidableRequestsMeet first second condition
      (first one request).2 (second two request).2 rest
    inferInstanceAs (Decidable (condition one two request ∧ _))

variable {condition : First → Second → Request → Prop}
  {second : Second → Request → Answer × Second}
  {first : First → Request → Answer × First}

theorem RequestsMeet.and_of_forall {every : Request → Prop} {one : First} {two : Second}
    {requests : List Request} (meets : RequestsMeet first second condition one two requests)
    (all : ∀ request ∈ requests, every request) :
    RequestsMeet first second (fun one two request => every request ∧ condition one two request)
      one two requests := by
  induction requests generalizing one two with
  | nil => trivial
  | cons request rest ih =>
    refine ⟨⟨all request List.mem_cons_self, meets.1⟩, ?_⟩
    exact ih meets.2 fun other member => all other (List.mem_cons_of_mem request member)

theorem answers_agree_of_simulation (agree : Answer → Answer → Prop)
    (related : First → Second → Prop) (simulated : ∀ one two request,
      related one two → condition one two request →
        agree (first one request).1 (second two request).1 ∧
          related (first one request).2 (second two request).2) {one : First}
    {two : Second} {requests : List Request} (initial : related one two)
    (meets : RequestsMeet first second condition one two requests) :
    List.Forall₂ agree (answersFrom first one requests) (answersFrom second two requests) := by
  induction requests generalizing one two with
  | nil => exact List.Forall₂.nil
  | cons request rest ih =>
    have served := simulated one two request initial meets.1
    exact List.Forall₂.cons served.1 (ih served.2 meets.2)

end

end Aprovan.Library
