import Aprovan.Library.Process

/-!
# Calls that may be cut short

`SafeFrom` says that a call which runs alone finds the state in order before
each of its statements and after the last one.  `Sequential` is a store on which
calls run one after the other; a run of it may stop in the middle of a call.
-/

namespace Aprovan.Library

variable {Statement Failure Value Result Item State Request : Type}
  {Answer : Statement → Type}
  {execute : (statement : Statement) → State → Except Failure (Answer statement) × State}

def SafeFrom (execute : (statement : Statement) → State →
      Except Failure (Answer statement) × State)
    (order : State → Prop) (returns : Value → State → Prop) :
    Process Answer Failure Value → State → Prop
  | .done (.ok value), state => order state ∧ returns value state
  | .done (.error _), state => order state
  | .await statement resume, state =>
    order state ∧ SafeFrom execute order returns (resume (execute statement state).1)
        (execute statement state).2

variable {order : State → Prop} {returns : Value → State → Prop}
  {concludes : Result → State → Prop} {state : State}
  {process : Process Answer Failure Value}

theorem safe_pure {value : Value} (inOrder : order state) (returned : returns value state) :
    SafeFrom execute order returns (pure value : Process Answer Failure Value) state :=
  ⟨inOrder, returned⟩

theorem safe_perform {statement : Statement} {answer : Answer statement}
    {returns : Answer statement → State → Prop} (inOrder : order state)
    (answered : (execute statement state).1 = .ok answer)
    (later : order (execute statement state).2)
    (returned : returns answer (execute statement state).2) :
    SafeFrom execute order returns (Process.perform statement :
        Process Answer Failure (Answer statement)) state := by
  refine ⟨inOrder, ?_⟩
  rw [answered]
  exact ⟨later, returned⟩

/-- The rule of composition. -/
theorem safe_bind {process : Process Answer Failure Value}
    {next : Value → Process Answer Failure Result}
    (before : SafeFrom execute order (fun value => SafeFrom execute order concludes (next value))
      process state) :
    SafeFrom execute order concludes (process >>= next) state := by
  show SafeFrom execute order concludes (Process.andThen next process) state
  induction process generalizing state with
  | done outcome =>
    cases outcome with
    | ok value => exact before.2
    | error thrown => exact before
  | await statement resume ih => exact ⟨before.1, ih _ before.2⟩

/-- A stronger order is enough, and so is more that is known at the end. -/
theorem SafeFrom.mono {stronger : State → Prop} {known : Value → State → Prop}
    (safe : SafeFrom execute stronger known process state)
    (orders : ∀ state, stronger state → order state) (ends : ∀ value,
      (process.run execute state).outcome = .ok value →
        known value (process.run execute state).state →
          returns value (process.run execute state).state) :
    SafeFrom execute order returns process state := by
  induction process generalizing state with
  | done outcome =>
    cases outcome with
    | ok value => exact ⟨orders state safe.1, ends value rfl safe.2⟩
    | error thrown => exact orders state safe
  | await statement resume ih => exact ⟨orders state safe.1, ih _ safe.2 ends⟩

/-- The rule of consequence. -/
theorem SafeFrom.weaken {weaker : Value → State → Prop}
    (safe : SafeFrom execute order returns process state)
    (implies : ∀ value state, returns value state → weaker value state) :
    SafeFrom execute order weaker process state :=
  safe.mono (fun _ inOrder => inOrder) fun value _ => implies value _

theorem SafeFrom.inOrderOf {weaker : State → Prop}
    (safe : SafeFrom execute order returns process state)
    (implies : ∀ state, order state → weaker state) :
    SafeFrom execute weaker returns process state :=
  safe.mono implies fun _ _ holds => holds

/-- The rule of loops: `holds` relates the state of the loop and the items
that are left to the state of the store. -/
theorem safe_foldlM {Loop : Type} {round : Loop → Item → Process Answer Failure Loop}
    {holds : List Item → Loop → State → Prop}
    (orderly : ∀ items loop state, holds items loop state → order state)
    (each : ∀ item rest loop state, holds (item :: rest) loop state →
      SafeFrom execute order (holds rest) (round loop item) state)
    {items : List Item} {loop : Loop} (initial : holds items loop state) :
    SafeFrom execute order (holds []) (items.foldlM round loop) state := by
  induction items generalizing loop state with
  | nil => exact safe_pure (orderly [] loop state initial) initial
  | cons item rest ih =>
    show SafeFrom execute order (holds [])
      (round loop item >>= fun next => rest.foldlM round next) state
    apply safe_bind
    apply (each item rest loop state initial).weaken
    intro next later held
    exact ih held

theorem safe_forM {round : Item → Process Answer Failure PUnit} {holds : State → Prop}
    (orderly : ∀ state, holds state → order state)
    (each : ∀ item state, holds state → SafeFrom execute order (fun _ => holds) (round item) state)
    (items : List Item) (initial : holds state) :
    SafeFrom execute order (fun _ => holds) (items.forM round) state := by
  induction items generalizing state with
  | nil => exact safe_pure (orderly state initial) initial
  | cons item rest ih =>
    show SafeFrom execute order (fun _ => holds) (round item >>= fun _ => rest.forM round) state
    apply safe_bind
    apply (each item state initial).weaken
    intro _ later held
    exact ih held

/-- A call that asks only what leaves the state as it should be. -/
theorem safe_of_asks {allowed : Statement → Prop}
    (kept : ∀ statement state, allowed statement → order state →
      order (execute statement state).2) (asks : Asks allowed process) (initial : order state) :
    SafeFrom execute order (fun _ => order) process state := by
  induction process generalizing state with
  | done outcome =>
    cases outcome with
    | ok value => exact ⟨initial, initial⟩
    | error thrown => exact initial
  | await statement resume ih =>
    exact ⟨initial, ih _ (asks.2 _) (kept statement state asks.1 initial)⟩

/-- What a safe call returns is known from its run to the end. -/
theorem SafeFrom.ofRun {weaker : Value → State → Prop}
    (safe : SafeFrom execute order weaker process state) (returned : ∀ value,
      (process.run execute state).outcome = .ok value →
        returns value (process.run execute state).state) :
    SafeFrom execute order returns process state :=
  safe.mono (fun _ inOrder => inOrder) fun value ends _ => returned value ends

/-- The store, the call that runs, if one does, and the calls that have
returned. -/
structure Sequential (State Request : Type) (Answer : Statement → Type)
    (Failure Value : Type) where
  shared : State
  running : Option (Call Request Answer Failure Value)
  returned : List Request

inductive SequentialAct (Request : Type) where
  | start (request : Request)
  | advance

namespace Sequential

/-- The call as it goes on; one that has ended makes way for the next. -/
def goOn (system : Sequential State Request Answer Failure Value)
    (shared : State) (request : Request) :
    Process Answer Failure Value → Sequential State Request Answer Failure Value
  | .done (.ok _) => ⟨shared, none, system.returned ++ [request]⟩
  | .done (.error _) => ⟨shared, none, system.returned⟩
  | process => ⟨shared, some ⟨request, process⟩, system.returned⟩

/-- Start a call when none runs, or execute its next statement. -/
def step (execute : (statement : Statement) → State → Except Failure (Answer statement) × State)
    (serve : Request → Process Answer Failure Value)
    (system : Sequential State Request Answer Failure Value) :
    SequentialAct Request → Option (Sequential State Request Answer Failure Value)
  | .start request =>
    match system.running with
    | none => some (system.goOn system.shared request (serve request))
    | some _ => none
  | .advance =>
    match system.running with
    | some ⟨request, .await statement resume⟩ =>
      some (system.goOn (execute statement system.shared).2 request
        (resume (execute statement system.shared).1))
    | _ => none

variable {serve : Request → Process Answer Failure Value}
  {system next : Sequential State Request Answer Failure Value}

/-- The state is in order for the calls that have returned, and the call that
runs is safe from it. -/
structure InOrder
    (execute : (statement : Statement) → State → Except Failure (Answer statement) × State)
    (order : List Request → State → Prop)
    (system : Sequential State Request Answer Failure Value) : Prop where
  here : order system.returned system.shared
  running : ∀ call, system.running = some call → SafeFrom execute (order system.returned)
      (fun _ => order (system.returned ++ [call.request])) call.process
      system.shared

variable {order : List Request → State → Prop}

theorem inOrder_goOn {shared : State} {request : Request}
    (safe : SafeFrom execute (order system.returned)
      (fun _ => order (system.returned ++ [request])) process shared) :
    InOrder execute order (system.goOn shared request process) := by
  cases process with
  | done outcome =>
    cases outcome with
    | ok value =>
      refine ⟨safe.2, ?_⟩
      intro call impossible
      cases impossible
    | error thrown =>
      refine ⟨safe, ?_⟩
      intro call impossible
      cases impossible
  | await statement resume =>
    refine ⟨safe.1, ?_⟩
    intro call same
    cases same
    exact safe

variable
  (serves : ∀ returned request state, order returned state → SafeFrom execute
    (order returned) (fun _ => order (returned ++ [request])) (serve request)
    state)

include serves

theorem inOrder_step (act : SequentialAct Request)
    (stepped : system.step execute serve act = some next) (before : InOrder execute order system) :
    InOrder execute order next := by
  cases act with
  | start request =>
    simp only [step] at stepped
    split at stepped
    · cases stepped
      exact inOrder_goOn (serves _ request _ before.here)
    · cases stepped
  | advance =>
    simp only [step] at stepped
    split at stepped
    · rename_i request statement resume running
      cases stepped
      exact inOrder_goOn (before.running _ running).2
    · cases stepped

theorem inOrder_run {initial : State} (ordered : order [] initial)
    {acts : List (SequentialAct Request)}
    (reached : runFrom (step execute serve) ⟨initial, none, []⟩ acts = some system) :
    order system.returned system.shared := by
  have all : InOrder execute order system := by
    apply invariant_runFrom (InOrder execute order) _ _ reached
    · intro before act after held stepped
      exact inOrder_step serves act stepped held
    · refine ⟨ordered, ?_⟩
      intro call impossible
      cases impossible
  exact all.here

end Sequential

end Aprovan.Library
