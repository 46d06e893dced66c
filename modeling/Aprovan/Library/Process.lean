import Aprovan.Library.Runs

/-!
# Calls of asynchronous functions

A call of an asynchronous function has ended, or it awaits one atomic statement
and resumes with the answer; `Process` is the tree of these waits.  `Concurrent`
is a store with the calls that were started on it and the history of their
statements.

`Follows` is proved about the tree of one call: it asks only what a discipline
admits and ends as it should, where the discipline remembers the answers so
far.  `follows_answered` and `follows_start` carry that through a run.
-/

namespace Aprovan.Library

/-- A statement is answered, or it fails. -/
inductive Process {Statement : Type} (Answer : Statement → Type)
    (Failure Value : Type) : Type where
  | done (outcome : Except Failure Value)
  | await (statement : Statement)
      (resume : Except Failure (Answer statement) → Process Answer Failure Value)

namespace Process

variable {Statement Failure Value Result : Type} {Answer : Statement → Type}

def andThen (next : Value → Process Answer Failure Result) :
    Process Answer Failure Value → Process Answer Failure Result
  | .done (.ok value) => next value
  | .done (.error thrown) => .done (.error thrown)
  | .await statement resume => .await statement fun answer => andThen next (resume answer)

instance : Monad (Process Answer Failure) where
  pure value := .done (.ok value)
  bind process next := andThen next process

def perform (statement : Statement) : Process Answer Failure (Answer statement) :=
  .await statement .done

def raise (thrown : Failure) : Process Answer Failure Value :=
  .done (.error thrown)

/-- `try`: run the handler on what the call throws. -/
def rescue (handler : Failure → Process Answer Failure Value) :
    Process Answer Failure Value → Process Answer Failure Value
  | .done (.ok value) => .done (.ok value)
  | .done (.error thrown) => handler thrown
  | .await statement resume => .await statement fun answer => rescue handler (resume answer)

def outcome? : Process Answer Failure Value → Option (Except Failure Value)
  | .done outcome => some outcome
  | .await _ _ => none

theorem eq_done_of_outcome? {process : Process Answer Failure Value}
    {outcome : Except Failure Value} (ended : process.outcome? = some outcome) :
    process = .done outcome := by
  cases process with
  | done other =>
    cases ended
    rfl
  | await statement resume => cases ended

end Process

variable {Item : Type}

section

variable {Statement Failure Value Result : Type}
  {Answer : Statement → Type} {allowed : Statement → Prop}

/-- Whatever is answered, the call asks only what is allowed. -/
def Asks (allowed : Statement → Prop) : Process Answer Failure Value → Prop
  | .done _ => True
  | .await statement resume => allowed statement ∧ ∀ answer, Asks allowed (resume answer)

theorem asks_pure (value : Value) : Asks allowed (pure value : Process Answer Failure Value) :=
  trivial

theorem asks_raise (thrown : Failure) :
    Asks allowed (Process.raise thrown : Process Answer Failure Value) :=
  trivial

theorem asks_perform {statement : Statement} (may : allowed statement) :
    Asks allowed (Process.perform statement : Process Answer Failure (Answer statement)) :=
  ⟨may, fun _ => trivial⟩

variable {process : Process Answer Failure Value}

theorem asks_bind {next : Value → Process Answer Failure Result} (before : Asks allowed process)
    (after : ∀ value, Asks allowed (next value)) :
    Asks allowed (process >>= next) := by
  show Asks allowed (Process.andThen next process)
  induction process with
  | done outcome =>
    cases outcome with
    | ok value => exact after value
    | error thrown => trivial
  | await statement resume ih =>
    refine ⟨before.1, ?_⟩
    intro answer
    exact ih answer (before.2 answer)

theorem asks_then {statement : Statement}
    {next : Answer statement → Process Answer Failure Result} (may : allowed statement)
    (after : ∀ answer, Asks allowed (next answer)) :
    Asks allowed (Process.perform statement >>= next) :=
  asks_bind (asks_perform may) after

theorem asks_map (asks : Asks allowed process) (result : Value → Result) :
    Asks allowed (process >>= fun value => pure (result value)) :=
  asks_bind asks fun value => asks_pure (result value)

theorem asks_rescue {handler : Failure → Process Answer Failure Value}
    (before : Asks allowed process) (after : ∀ thrown, Asks allowed (handler thrown)) :
    Asks allowed (process.rescue handler) := by
  induction process with
  | done outcome =>
    cases outcome with
    | ok value => trivial
    | error thrown => exact after thrown
  | await statement resume ih =>
    refine ⟨before.1, ?_⟩
    intro answer
    exact ih answer (before.2 answer)

theorem asks_forM {round : Item → Process Answer Failure PUnit}
    (each : ∀ item, Asks allowed (round item)) (items : List Item) :
    Asks allowed (items.forM round) := by
  induction items with
  | nil => exact asks_pure PUnit.unit
  | cons item rest ih =>
    show Asks allowed (round item >>= fun _ => rest.forM round)
    exact asks_bind (each item) fun _ => ih

theorem asks_foldlM {Loop : Type} {round : Loop → Item → Process Answer Failure Loop}
    (each : ∀ loop item, Asks allowed (round loop item)) (items : List Item) (loop : Loop) :
    Asks allowed (items.foldlM round loop) := by
  induction items generalizing loop with
  | nil => exact asks_pure loop
  | cons item rest ih =>
    show Asks allowed (round loop item >>= fun next => rest.foldlM round next)
    exact asks_bind (each loop item) fun next => ih next

theorem asks_any (process : Process Answer Failure Value) : Asks (fun _ => True) process := by
  induction process with
  | done outcome => trivial
  | await statement resume ih => exact ⟨trivial, ih⟩

theorem Asks.weaken {weaker : Statement → Prop} (asks : Asks allowed process)
    (implies : ∀ statement, allowed statement → weaker statement) :
    Asks weaker process := by
  induction process with
  | done outcome => trivial
  | await statement resume ih =>
    refine ⟨implies statement asks.1, ?_⟩
    intro answer
    exact ih answer (asks.2 answer)

end

/-- `admits` says what a call may ask, `possible` which answers there are,
and `remember` what the call knows after an answer. -/
structure Discipline {Statement : Type} (Answer : Statement → Type) (Failure Memory : Type) where
  admits : Memory → Statement → Prop
  possible : Memory → (statement : Statement) → Except Failure (Answer statement) → Prop
  remember : Memory → (statement : Statement) → Except Failure (Answer statement) → Memory

section

variable {Statement Failure Memory Value Result : Type}
  {Answer : Statement → Type}

/-- Whatever is answered, the call asks what the discipline admits, and it
ends as `ends` says. -/
def Follows (discipline : Discipline Answer Failure Memory)
    (ends : Memory → Except Failure Value → Prop) :
    Memory → Process Answer Failure Value → Prop
  | memory, .done outcome => ends memory outcome
  | memory, .await statement resume =>
    discipline.admits memory statement ∧
      ∀ answer, discipline.possible memory statement answer → Follows discipline ends
          (discipline.remember memory statement answer) (resume answer)

variable {discipline : Discipline Answer Failure Memory}
  {ends : Memory → Except Failure Value → Prop}
  {concludes : Memory → Except Failure Result → Prop}
  {memory : Memory}

theorem follows_pure {value : Value} (ended : ends memory (.ok value)) :
    Follows discipline ends memory (pure value) :=
  ended

theorem follows_raise {thrown : Failure} (ended : ends memory (.error thrown)) :
    Follows discipline ends memory (Process.raise thrown) :=
  ended

variable {statement : Statement}

theorem follows_perform {ends : Memory → Except Failure (Answer statement) → Prop}
    (admitted : discipline.admits memory statement)
    (ended : ∀ answer, discipline.possible memory statement answer →
      ends (discipline.remember memory statement answer) answer) :
    Follows discipline ends memory (Process.perform statement) :=
  ⟨admitted, ended⟩

/-- A call that asks only what is always admitted. -/
theorem follows_of_asks {allowed : Statement → Prop} {process : Process Answer Failure Value}
    (asks : Asks allowed process)
    (admitted : ∀ memory statement, allowed statement → discipline.admits memory statement) :
    Follows discipline (fun _ _ => True) memory process := by
  induction process generalizing memory with
  | done outcome => trivial
  | await statement resume ih =>
    refine ⟨admitted memory statement asks.1, ?_⟩
    intro answer possible
    exact ih answer (asks.2 answer)

variable {process : Process Answer Failure Value}

/-- The rule of consequence. -/
theorem Follows.weaken {weaker : Memory → Except Failure Value → Prop}
    (follows : Follows discipline ends memory process)
    (implies : ∀ memory outcome, ends memory outcome → weaker memory outcome) :
    Follows discipline weaker memory process := by
  induction process generalizing memory with
  | done outcome => exact implies memory outcome follows
  | await statement resume ih =>
    refine ⟨follows.1, ?_⟩
    intro answer possible
    exact ih answer (follows.2 answer possible)

variable {next : Value → Process Answer Failure Result}

/-- The rule of composition. -/
theorem follows_bind {process : Process Answer Failure Value}
    (before : Follows discipline (fun memory outcome =>
        match outcome with
        | .ok value => Follows discipline concludes memory (next value)
        | .error thrown => concludes memory (.error thrown))
      memory process) :
    Follows discipline concludes memory (process >>= next) := by
  show Follows discipline concludes memory (Process.andThen next process)
  induction process generalizing memory with
  | done outcome =>
    cases outcome with
    | ok value => exact before
    | error thrown => exact before
  | await statement resume ih =>
    refine ⟨before.1, ?_⟩
    intro answer possible
    exact ih answer (before.2 answer possible)

/-- The rule of a statement: the call goes on from its failure and from its
answer. -/
theorem follows_await {resume : Except Failure (Answer statement) → Process Answer Failure Value}
    (admitted : discipline.admits memory statement) (failed : ∀ thrown,
      discipline.possible memory statement (.error thrown) → Follows discipline ends
          (discipline.remember memory statement (.error thrown))
          (resume (.error thrown)))
    (answered : ∀ value, discipline.possible memory statement (.ok value) →
      Follows discipline ends (discipline.remember memory statement (.ok value))
        (resume (.ok value))) :
    Follows discipline ends memory (.await statement resume) := by
  refine ⟨admitted, ?_⟩
  intro answer possible
  cases answer with
  | error thrown => exact failed thrown possible
  | ok value => exact answered value possible

/-- The rule of composition for a call of which it is known how it ends. -/
theorem follows_then (before : Follows discipline ends memory process)
    (failed : ∀ memory thrown, ends memory (.error thrown) → concludes memory (.error thrown))
    (after : ∀ memory value, ends memory (.ok value) →
      Follows discipline concludes memory (next value)) :
    Follows discipline concludes memory (process >>= next) := by
  apply follows_bind
  apply before.weaken
  intro memory outcome ended
  cases outcome with
  | ok value => exact after memory value ended
  | error thrown => exact failed memory thrown ended

/-- What follows a call of which nothing is known. -/
theorem follows_bind_any (admitted : ∀ memory statement, discipline.admits memory statement)
    (failed : ∀ memory thrown, concludes memory (.error thrown))
    (after : ∀ value memory, Follows discipline concludes memory (next value)) :
    Follows discipline concludes memory (process >>= next) := by
  have any : Follows discipline (fun _ _ => True) memory process :=
    follows_of_asks (asks_any process) fun before statement _ => admitted before statement
  exact follows_then any (fun afterwards thrown _ => failed afterwards thrown)
    fun afterwards value _ => after value afterwards

variable {handler : Failure → Process Answer Failure Value}

/-- The rule of `try`. -/
theorem follows_rescue (before : Follows discipline (fun memory outcome =>
        match outcome with
        | .ok value => ends memory (.ok value)
        | .error thrown => Follows discipline ends memory (handler thrown))
      memory process) :
    Follows discipline ends memory (process.rescue handler) := by
  induction process generalizing memory with
  | done outcome =>
    cases outcome with
    | ok value => exact before
    | error thrown => exact before
  | await statement resume ih =>
    refine ⟨before.1, ?_⟩
    intro answer possible
    exact ih answer (before.2 answer possible)

/-- The rule of loops: every round keeps what holds of its state and of what
is remembered. -/
theorem follows_foldlM_of_mem {State : Type} {round : State → Item → Process Answer Failure State}
    {holds : Memory → Except Failure State → Prop} (items : List Item)
    (each : ∀ state, ∀ item ∈ items, ∀ memory, holds memory (.ok state) →
      Follows discipline holds memory (round state item)) (state : State)
    (memory : Memory) (initial : holds memory (.ok state)) :
    Follows discipline holds memory (items.foldlM round state) := by
  induction items generalizing state memory with
  | nil => exact follows_pure initial
  | cons item rest ih =>
    show Follows discipline holds memory (round state item >>= fun next => rest.foldlM round next)
    apply follows_bind
    apply (each state item List.mem_cons_self memory initial).weaken
    intro afterwards outcome ended
    cases outcome with
    | ok next =>
      refine ih ?_ next afterwards ended
      intro later other member
      exact each later other (List.mem_cons_of_mem item member)
    | error thrown => exact ended

theorem follows_foldlM {State : Type} {round : State → Item → Process Answer Failure State}
    {holds : Memory → Except Failure State → Prop}
    (each : ∀ state item memory, holds memory (.ok state) →
      Follows discipline holds memory (round state item)) (items : List Item)
    (state : State) (memory : Memory) (initial : holds memory (.ok state)) :
    Follows discipline holds memory (items.foldlM round state) :=
  follows_foldlM_of_mem items (fun state item _ => each state item) state memory initial

/-- The call leaves what is remembered as it was, however it ends. -/
def KeepsMemory (discipline : Discipline Answer Failure Memory)
    (process : Process Answer Failure Value) : Prop :=
  ∀ memory, Follows discipline (fun afterwards _ => afterwards = memory) memory process

/-- A call that asks only what is always admitted and never remembered. -/
theorem keepsMemory_of_asks {allowed : Statement → Prop} (asks : Asks allowed process)
    (admitted : ∀ memory statement, allowed statement → discipline.admits memory statement)
    (same : ∀ memory statement answer, allowed statement →
      discipline.remember memory statement answer = memory) :
    KeepsMemory discipline process := by
  induction process with
  | done outcome =>
    intro memory
    rfl
  | await statement resume ih =>
    intro memory
    refine ⟨admitted memory statement asks.1, ?_⟩
    intro answer possible
    rw [same memory statement answer asks.1]
    exact ih answer (asks.2 answer) memory

theorem keepsMemory_pure (value : Value) : KeepsMemory discipline (pure value) := by
  intro memory
  exact follows_pure rfl

theorem keepsMemory_raise (thrown : Failure) :
    KeepsMemory discipline (Process.raise thrown : Process Answer Failure Value) := by
  intro memory
  exact follows_raise rfl

theorem keepsMemory_perform (admitted : ∀ memory, discipline.admits memory statement)
    (same : ∀ memory answer, discipline.remember memory statement answer = memory) :
    KeepsMemory discipline (Process.perform statement) := by
  intro memory
  apply follows_perform (admitted memory)
  intro answer possible
  exact same memory answer

theorem keepsMemory_bind (before : KeepsMemory discipline process)
    (after : ∀ value, KeepsMemory discipline (next value)) :
    KeepsMemory discipline (process >>= next) := by
  intro memory
  apply follows_bind
  apply (before memory).weaken
  intro afterwards outcome same
  subst same
  cases outcome with
  | ok value => exact after value afterwards
  | error thrown => rfl

theorem keepsMemory_rescue (before : KeepsMemory discipline process)
    (after : ∀ thrown, KeepsMemory discipline (handler thrown)) :
    KeepsMemory discipline (process.rescue handler) := by
  intro memory
  apply follows_rescue
  apply (before memory).weaken
  intro afterwards outcome same
  subst same
  cases outcome with
  | ok value => rfl
  | error thrown => exact after thrown afterwards

theorem keepsMemory_forM {round : Item → Process Answer Failure PUnit}
    (each : ∀ item, KeepsMemory discipline (round item)) (items : List Item) :
    KeepsMemory discipline (items.forM round) := by
  induction items with
  | nil => exact keepsMemory_pure PUnit.unit
  | cons item rest ih =>
    show KeepsMemory discipline (round item >>= fun _ => rest.forM round)
    exact keepsMemory_bind (each item) fun _ => ih

end

/-- What a call leaves that ran to its end, and what it asked. -/
structure Finished (Statement State Failure Value : Type) where
  outcome : Except Failure Value
  state : State
  asked : List Statement

section

variable {Statement Failure Value Result State : Type}
  {Answer : Statement → Type}
  {execute : (statement : Statement) → State → Except Failure (Answer statement) × State}

/-- Run a call; no other call comes between its statements. -/
def Process.run (execute : (statement : Statement) → State →
      Except Failure (Answer statement) × State) :
    Process Answer Failure Value → State → Finished Statement State Failure Value
  | .done outcome, state => ⟨outcome, state, []⟩
  | .await statement resume, state =>
    let reply := execute statement state
    let rest := run execute (resume reply.1) reply.2
    ⟨rest.outcome, rest.state, statement :: rest.asked⟩

/-- The call after `first`, if that returned. -/
def Finished.andThen (first : Finished Statement State Failure Value)
    (next : Value → State → Finished Statement State Failure Result) :
    Finished Statement State Failure Result :=
  match first.outcome with
  | .error thrown => ⟨.error thrown, first.state, first.asked⟩
  | .ok value =>
    let second := next value first.state
    ⟨second.outcome, second.state, first.asked ++ second.asked⟩

theorem run_bind (process : Process Answer Failure Value)
    (next : Value → Process Answer Failure Result) (state : State) :
    (process >>= next).run execute state = (process.run execute state).andThen fun value =>
        (next value).run execute := by
  show (Process.andThen next process).run execute state = _
  induction process generalizing state with
  | done outcome =>
    cases outcome with
    | ok value => rfl
    | error thrown => rfl
  | await statement resume ih =>
    simp only [Process.andThen, Process.run]
    rw [ih]
    unfold Finished.andThen
    dsimp only
    split <;> rfl

variable {process : Process Answer Failure Value}
  {next : Value → Process Answer Failure Result} {state : State}

/-- What comes after a call that returned. -/
theorem run_bind_ok {value : Value} (returned : (process.run execute state).outcome = .ok value) :
    (process >>= next).run execute state =
      let second := (next value).run execute (process.run execute state).state
      ⟨second.outcome, second.state, (process.run execute state).asked ++ second.asked⟩ := by
  rw [run_bind, Finished.andThen, returned]

/-- Nothing comes after a call that threw. -/
theorem run_bind_error {thrown : Failure}
    (failed : (process.run execute state).outcome = .error thrown) :
    (process >>= next).run execute state = ⟨.error thrown, (process.run execute state).state,
        (process.run execute state).asked⟩ := by
  rw [run_bind, Finished.andThen, failed]

theorem run_rescue (process : Process Answer Failure Value)
    (handler : Failure → Process Answer Failure Value) (state : State) :
    (process.rescue handler).run execute state =
      match (process.run execute state).outcome with
      | .ok _ => process.run execute state
      | .error thrown =>
        let second := (handler thrown).run execute (process.run execute state).state
        ⟨second.outcome, second.state, (process.run execute state).asked ++ second.asked⟩ := by
  induction process generalizing state with
  | done outcome =>
    cases outcome with
    | ok value => rfl
    | error thrown => rfl
  | await statement resume ih =>
    simp only [Process.rescue, Process.run]
    rw [ih]
    split <;> rfl

/-- What a call alone answers and leaves. -/
def Process.settle (execute : (statement : Statement) → State →
      Except Failure (Answer statement) × State)
    (process : Process Answer Failure Value) (state : State) :
    Except Failure Value × State :=
  ((process.run execute state).outcome, (process.run execute state).state)

theorem settle_pure (value : Value) (state : State) :
    (pure value : Process Answer Failure Value).settle execute state = (.ok value, state) :=
  rfl

theorem settle_raise (thrown : Failure) (state : State) :
    (Process.raise thrown : Process Answer Failure Value).settle execute state =
      (.error thrown, state) :=
  rfl

theorem settle_perform (statement : Statement) (state : State) :
    (Process.perform statement : Process Answer Failure (Answer statement)).settle execute state =
      execute statement state :=
  rfl

theorem settle_bind (process : Process Answer Failure Value)
    (next : Value → Process Answer Failure Result) (state : State) :
    (process >>= next).settle execute state =
      match process.settle execute state with
      | (.ok value, after) => (next value).settle execute after
      | (.error thrown, after) => (.error thrown, after) := by
  unfold Process.settle
  rw [run_bind]
  unfold Finished.andThen
  split <;> rename_i ended <;> simp only [ended]

theorem settle_rescue (process : Process Answer Failure Value)
    (handler : Failure → Process Answer Failure Value) (state : State) :
    (process.rescue handler).settle execute state =
      match process.settle execute state with
      | (.ok value, after) => (.ok value, after)
      | (.error thrown, after) => (handler thrown).settle execute after := by
  unfold Process.settle
  rw [run_rescue]
  split <;> rename_i ended <;> simp only [ended]

/-- What a call alone answers and leaves is as `ends` says. -/
def Settles (execute : (statement : Statement) → State → Except Failure (Answer statement) × State)
    (process : Process Answer Failure Value) (state : State)
    (ends : Except Failure Value → State → Prop) : Prop :=
  ends (process.settle execute state).1 (process.settle execute state).2

variable {ends : Except Failure Value → State → Prop}

theorem settles_pure {value : Value} (ended : ends (.ok value) state) :
    Settles execute (pure value) state ends :=
  ended

theorem settles_raise {thrown : Failure} (ended : ends (.error thrown) state) :
    Settles execute (Process.raise thrown) state ends :=
  ended

/-- The rule of consequence for a call alone. -/
theorem Settles.weaken {weaker : Except Failure Value → State → Prop}
    (settles : Settles execute process state ends)
    (implies : ∀ outcome after, ends outcome after → weaker outcome after) :
    Settles execute process state weaker :=
  implies _ _ settles

/-- The rule of composition for a call alone. -/
theorem settles_bind {ends : Except Failure Result → State → Prop}
    (before : Settles execute process state fun outcome after =>
      match outcome with
      | .ok value => Settles execute (next value) after ends
      | .error thrown => ends (.error thrown) after) :
    Settles execute (process >>= next) state ends := by
  unfold Settles at before ⊢
  rw [settle_bind]
  split <;> rename_i settled <;> rw [settled] at before <;> exact before

/-- The rule of `try` for a call alone. -/
theorem settles_rescue {handler : Failure → Process Answer Failure Value}
    (before : Settles execute process state fun outcome after =>
      match outcome with
      | .ok value => ends (.ok value) after
      | .error thrown => Settles execute (handler thrown) after ends) :
    Settles execute (process.rescue handler) state ends := by
  unfold Settles at before ⊢
  rw [settle_rescue]
  split <;> rename_i settled <;> rw [settled] at before <;> exact before

/-- A call alone asks only what it may ask. -/
theorem asked_of_asks {allowed : Statement → Prop} (asks : Asks allowed process) (state : State) :
    ∀ statement ∈ (process.run execute state).asked, allowed statement := by
  induction process generalizing state with
  | done outcome =>
    intro statement member
    cases member
  | await asked resume ih =>
    intro statement member
    rcases List.mem_cons.mp member with own | later
    · rw [own]
      exact asks.1
    · exact ih _ (asks.2 _) _ statement later

variable {holds : State → Prop}

/-- A call alone ends as its discipline says, on a state that tells what the
call remembers. -/
theorem ended_of_follows {Memory : Type} {discipline : Discipline Answer Failure Memory}
    {ends : Memory → Except Failure Value → Prop} (recalled : State → Memory)
    (answered : ∀ statement state, holds state → discipline.possible (recalled state) statement
          (execute statement state).1 ∧
        recalled (execute statement state).2 = discipline.remember (recalled state) statement
            (execute statement state).1 ∧
        holds (execute statement state).2) (initial : holds state)
    (follows : Follows discipline ends (recalled state) process) :
    holds (process.run execute state).state ∧ ends (recalled (process.run execute state).state)
        (process.run execute state).outcome := by
  induction process generalizing state with
  | done outcome => exact ⟨initial, follows⟩
  | await asked resume ih =>
    obtain ⟨possible, remembered, kept⟩ :=
      answered asked state initial
    refine ih _ kept ?_
    rw [remembered]
    exact follows.2 _ possible

theorem kept_of_asks {allowed : Statement → Prop}
    (kept : ∀ statement state, allowed statement → holds state →
      holds (execute statement state).2) (asks : Asks allowed process) (initial : holds state) :
    holds (process.run execute state).state := by
  induction process generalizing state with
  | done outcome => exact initial
  | await asked resume ih => exact ih _ (asks.2 _) (kept asked state asks.1 initial)

/-- Whatever is answered, if no statement fails then the call returns a value
of this kind. -/
def Returns (holds : Value → Prop) : Process Answer Failure Value → Prop
  | .done outcome => ∃ value, outcome = .ok value ∧ holds value
  | .await _ resume => ∀ answer, Returns holds (resume (.ok answer))

theorem returns_pure {holds : Value → Prop} {value : Value} (here : holds value) :
    Returns holds (pure value : Process Answer Failure Value) :=
  ⟨value, rfl, here⟩

theorem returns_bind {holds : Value → Prop} {afterwards : Result → Prop}
    (before : Returns holds process)
    (after : ∀ value, holds value → Returns afterwards (next value)) :
    Returns afterwards (process >>= next) := by
  show Returns afterwards (Process.andThen next process)
  induction process with
  | done outcome =>
    obtain ⟨value, rfl, here⟩ := before
    exact after value here
  | await statement resume ih =>
    intro answer
    exact ih (.ok answer) (before answer)

/-- A call alone on a store that refuses nothing. -/
theorem run_of_returns {holds : Value → Prop} (returns : Returns holds process)
    (answered : ∀ statement state, ∃ answer,
      (execute statement state).1 = .ok answer) (state : State) :
    ∃ value, (process.run execute state).outcome = .ok value ∧ holds value := by
  induction process generalizing state with
  | done outcome => exact returns
  | await statement resume ih =>
    obtain ⟨answer, given⟩ := answered statement state
    show ∃ value, ((resume (execute statement state).1).run execute
      (execute statement state).2).outcome = .ok value ∧ holds value
    rw [given]
    exact ih (.ok answer) (returns answer) _

def Succeeds (process : Process Answer Failure Value) : Prop :=
  Returns (fun _ => True) process

theorem succeeds_pure (value : Value) : Succeeds (pure value : Process Answer Failure Value) :=
  returns_pure trivial

theorem succeeds_perform (statement : Statement) :
    Succeeds (Process.perform statement : Process Answer Failure (Answer statement)) :=
  fun answer => ⟨answer, rfl, trivial⟩

theorem succeeds_bind (before : Succeeds process) (after : ∀ value, Succeeds (next value)) :
    Succeeds (process >>= next) :=
  returns_bind before fun value _ => after value

theorem succeeds_forM {round : Item → Process Answer Failure PUnit}
    (each : ∀ item, Succeeds (round item)) (items : List Item) :
    Succeeds (items.forM round) := by
  induction items with
  | nil => exact succeeds_pure PUnit.unit
  | cons item rest ih => exact succeeds_bind (each item) fun _ => ih

theorem run_of_succeeds (succeeds : Succeeds process) (answered : ∀ statement state, ∃ answer,
      (execute statement state).1 = .ok answer) (state : State) :
    ∃ value, (process.run execute state).outcome = .ok value := by
  obtain ⟨value, returned, _⟩ := run_of_returns succeeds answered state
  exact ⟨value, returned⟩

end

section

variable {Statement Failure Value Request State Choice Memory : Type}
  {Answer : Statement → Type}

/-- What was asked, by the call at which position, and the answer. -/
structure Executed (Answer : Statement → Type) (Failure : Type) where
  caller : Nat
  statement : Statement
  answer : Except Failure (Answer statement)

structure Call (Request : Type) (Answer : Statement → Type) (Failure Value : Type) where
  request : Request
  process : Process Answer Failure Value

structure Concurrent (State Request : Type) (Answer : Statement → Type)
    (Failure Value : Type) where
  shared : State
  calls : List (Call Request Answer Failure Value)
  history : List (Executed Answer Failure)

/-- A new call on the store; a call keeps its position. -/
def Concurrent.start (system : Concurrent State Request Answer Failure Value)
    (request : Request) (process : Process Answer Failure Value) :
    Concurrent State Request Answer Failure Value :=
  { system with calls := system.calls ++ [⟨request, process⟩] }

def Concurrent.awaiting (system : Concurrent State Request Answer Failure Value) (position : Nat) :
    Option Statement :=
  match system.calls[position]? with
  | some ⟨_, .await statement _⟩ => some statement
  | _ => none

abbrev Concurrent.Awaits (system : Concurrent State Request Answer Failure Value)
    (position : Nat) (request : Request) (statement : Statement)
    (resume : Except Failure (Answer statement) → Process Answer Failure Value) : Prop :=
  system.calls[position]? = some ⟨request, .await statement resume⟩

def Concurrent.answered (system : Concurrent State Request Answer Failure Value)
    (position : Nat) (request : Request) (statement : Statement)
    (resume : Except Failure (Answer statement) → Process Answer Failure Value)
    (outcome : Except Failure (Answer statement) × State) :
    Concurrent State Request Answer Failure Value where
  shared := outcome.2
  calls := system.calls.set position ⟨request, resume outcome.1⟩
  history := system.history ++ [⟨position, statement, outcome.1⟩]

def Concurrent.requestAt (system : Concurrent State Request Answer Failure Value)
    (position : Nat) : Option Request :=
  system.calls[position]?.map (·.request)

def Concurrent.advance (execute : Choice → (statement : Statement) → State →
      Except Failure (Answer statement) × State)
    (system : Concurrent State Request Answer Failure Value)
    (position : Nat) (choice : Choice) :
    Option (Concurrent State Request Answer Failure Value) :=
  match system.calls[position]? with
  | some ⟨request, .await statement resume⟩ =>
    some (system.answered position request statement resume
      (execute choice statement system.shared))
  | _ => none

variable {execute : Choice → (statement : Statement) → State →
    Except Failure (Answer statement) × State}
  {system next : Concurrent State Request Answer Failure Value}
  {position : Nat} {choice : Choice}

/-- Everything a statement of a call does. -/
theorem advance_eq_some_iff :
    system.advance execute position choice = some next ↔ ∃ request statement resume,
        system.calls[position]? = some ⟨request, .await statement resume⟩ ∧
        next = system.answered position request statement resume
          (execute choice statement system.shared) := by
  unfold Concurrent.advance
  constructor
  · intro advanced
    split at advanced
    · rename_i request statement resume found
      exact ⟨request, statement, resume, found, (Option.some.inj advanced).symm⟩
    · cases advanced
  · rintro ⟨request, statement, resume, found, rfl⟩
    rw [found]

theorem requestAt_of_found {call : Call Request Answer Failure Value}
    (found : system.calls[position]? = some call) :
    system.requestAt position = some call.request := by
  rw [Concurrent.requestAt, found, Option.map_some]

variable {request : Request} {statement : Statement}
  {resume : Except Failure (Answer statement) → Process Answer Failure Value}
  {outcome : Except Failure (Answer statement) × State}

theorem requestAt_answered (found : system.Awaits position request statement resume) (other : Nat) :
    (system.answered position request statement resume outcome).requestAt
      other = system.requestAt other := by
  simp only [Concurrent.requestAt, Concurrent.answered]
  by_cases same : position = other
  · subst same
    rw [List.getElem?_set_self (List.getElem?_eq_some_iff.mp found).1, found]
    rfl
  · rw [List.getElem?_set_ne same]

theorem awaiting_eq_some_iff :
    system.awaiting position = some statement ↔ ∃ request resume, system.calls[position]? =
        some ⟨request, .await statement resume⟩ := by
  unfold Concurrent.awaiting
  constructor
  · intro awaits
    split at awaits
    · rename_i request asked resume found
      cases awaits
      exact ⟨request, resume, found⟩
    · cases awaits
  · intro waiting
    obtain ⟨request, resume, found⟩ := waiting
    rw [found]

/-- A statement leaves what the other calls await. -/
theorem awaiting_answered_other {other : Nat} (different : other ≠ position) :
    (system.answered position request statement resume outcome).awaiting
      other = system.awaiting other := by
  simp only [Concurrent.awaiting, Concurrent.answered, List.getElem?_set_ne (Ne.symm different)]

theorem awaits_of_awaiting_answered {asked : Statement}
    (inside : position < system.calls.length) (awaits :
      (system.answered position request statement resume outcome).awaiting position = some asked) :
    ∃ next, resume outcome.1 = .await asked next := by
  obtain ⟨later, next, found⟩ := awaiting_eq_some_iff.mp awaits
  rw [Concurrent.answered, List.getElem?_set_self inside] at found
  have same := Option.some.inj found
  exact ⟨next, congrArg Call.process same⟩

variable {process : Process Answer Failure Value}

/-- What is awaited after a call was started: what was before, or what the
new call awaits. -/
theorem awaiting_start (awaits : (system.start request process).awaiting position =
      some statement) :
    system.awaiting position = some statement ∨ ∃ next, process = .await statement next := by
  obtain ⟨asked, resume, found⟩ := awaiting_eq_some_iff.mp awaits
  have member : position < system.calls.length ∨ position = system.calls.length := by
    have inside := (List.getElem?_eq_some_iff.mp found).1
    rw [Concurrent.start, List.length_append, List.length_singleton] at inside
    omega
  rcases member with inside | last
  · rw [Concurrent.start, List.getElem?_append_left inside] at found
    exact Or.inl (awaiting_eq_some_iff.mpr ⟨asked, resume, found⟩)
  · subst last
    rw [Concurrent.start, List.getElem?_concat_length] at found
    have same := Option.some.inj found
    exact Or.inr ⟨resume, congrArg Call.process same⟩

theorem Concurrent.requests_answered (found : system.Awaits position request statement resume)
    (outcome : Except Failure (Answer statement) × State) :
    (system.answered position request statement resume outcome).calls.map
        (·.request) = system.calls.map (·.request) := by
  apply List.ext_getElem?
  intro other
  rw [List.getElem?_map, List.getElem?_map]
  exact requestAt_answered found other

theorem Concurrent.mem_requests_answered (found : system.Awaits position request statement resume)
    (outcome : Except Failure (Answer statement) × State) (asked : Request) :
    (∃ call ∈ (system.answered position request statement resume
        outcome).calls, call.request = asked) ↔ ∃ call ∈ system.calls, call.request = asked := by
  rw [← List.mem_map, ← List.mem_map, requests_answered found outcome]

theorem requestAt_start (inside : position < system.calls.length) :
    (system.start request process).requestAt position = system.requestAt position := by
  simp only [Concurrent.requestAt, Concurrent.start, List.getElem?_append_left inside]

theorem requestAt_start_eq_some_iff {asked : Request} :
    (system.start request process).requestAt position = some asked ↔
      system.requestAt position = some asked ∨
        position = system.calls.length ∧ asked = request := by
  simp only [Concurrent.requestAt, Concurrent.start]
  by_cases inside : position < system.calls.length
  · rw [List.getElem?_append_left inside]
    constructor
    · exact Or.inl
    · intro known
      exact known.resolve_right fun last => absurd last.1 (by omega)
  · have none : system.calls[position]? = none := List.getElem?_eq_none (by omega)
    rw [none]
    by_cases last : position = system.calls.length
    · subst last
      rw [List.getElem?_concat_length]
      simp [eq_comm]
    · rw [List.getElem?_eq_none (by simp; omega)]
      simp [last]

def memoryOf (discipline : Discipline Answer Failure Memory) (initial : Memory)
    (history : List (Executed Answer Failure)) (position : Nat) : Memory :=
  history.foldl (fun memory entry =>
    if entry.caller = position then discipline.remember memory entry.statement entry.answer
    else memory) initial

theorem memoryOf_append_own (discipline : Discipline Answer Failure Memory) (initial : Memory)
    (history : List (Executed Answer Failure)) (position : Nat)
    (statement : Statement) (answer : Except Failure (Answer statement)) :
    memoryOf discipline initial (history ++ [⟨position, statement, answer⟩]) position =
      discipline.remember (memoryOf discipline initial history position) statement answer := by
  simp only [memoryOf, List.foldl_append, List.foldl_cons, List.foldl_nil, if_pos]

variable {position : Nat}

section

variable (discipline : Discipline Answer Failure Memory) (initial : Memory)

theorem memoryOf_append_other (history : List (Executed Answer Failure)) {other : Nat}
    (statement : Statement) (answer : Except Failure (Answer statement))
    (different : position ≠ other) :
    memoryOf discipline initial (history ++ [⟨position, statement, answer⟩]) other =
      memoryOf discipline initial history other := by
  simp only [memoryOf, List.foldl_append, List.foldl_cons, List.foldl_nil, if_neg different]

theorem memoryOf_append (history : List (Executed Answer Failure)) (position : Nat)
    (statement : Statement) (answer : Except Failure (Answer statement)) :
    memoryOf discipline initial (history ++ [⟨position, statement, answer⟩]) =
      Function.update (memoryOf discipline initial history) position
        (discipline.remember (memoryOf discipline initial history position) statement answer) := by
  funext other
  by_cases same : other = position
  · subst same
    rw [Function.update_self]
    exact memoryOf_append_own discipline initial history other statement answer
  · rw [Function.update_of_ne same]
    exact memoryOf_append_other discipline initial history statement answer (Ne.symm same)

theorem memoryOf_induction (position : Nat)
    (related : List (Executed Answer Failure) → Memory → Prop) (start : related [] initial)
    (own : ∀ history memory statement answer, related history memory →
      related (history ++ [⟨position, statement, answer⟩])
        (discipline.remember memory statement answer))
    (other : ∀ history memory entry, entry.caller ≠ position →
      related history memory → related (history ++ [entry]) memory)
    (history : List (Executed Answer Failure)) :
    related history (memoryOf discipline initial history position) := by
  induction history using List.reverseRecOn with
  | nil => exact start
  | append_singleton before entry ih =>
    obtain ⟨caller, statement, answer⟩ := entry
    by_cases same : caller = position
    · subst same
      rw [memoryOf_append_own]
      exact own before _ statement answer ih
    · rw [memoryOf_append_other _ _ _ _ _ same]
      exact other before _ _ same ih

end

/-- The last statement of the call at a position, and what was executed after
it. -/
def LastOf (history : List (Executed Answer Failure)) (position : Nat)
    (entry : Executed Answer Failure) (after : List (Executed Answer Failure)) : Prop :=
  ∃ before, history = before ++ entry :: after ∧ entry.caller = position ∧
    ∀ later ∈ after, later.caller ≠ position

theorem lastOf_append_own (history : List (Executed Answer Failure)) (position : Nat)
    (statement : Statement) (answer : Except Failure (Answer statement)) :
    LastOf (history ++ [⟨position, statement, answer⟩]) position
      ⟨position, statement, answer⟩ [] := by
  refine ⟨history, rfl, rfl, ?_⟩
  intro later member
  cases member

theorem lastOf_append_other {history after : List (Executed Answer Failure)} {position : Nat}
    {entry : Executed Answer Failure} (last : LastOf history position entry after)
    (added : Executed Answer Failure) (other : added.caller ≠ position) :
    LastOf (history ++ [added]) position entry (after ++ [added]) := by
  obtain ⟨before, split, own, apart⟩ := last
  refine ⟨before, ?_, own, ?_⟩
  · rw [split, List.append_assoc, List.cons_append]
  · intro later member
    rcases List.mem_append.mp member with older | new
    · exact apart later older
    · rw [List.mem_singleton.mp new]
      exact other

/-- An entry with a later one behind it, after one more entry was added. -/
theorem split_of_append_singleton {Entry : Type} {items before after : List Entry}
    {last middle : Entry} (split : items ++ [last] = before ++ middle :: after) :
    (middle = last ∧ after = []) ∨ ∃ shorter, after = shorter ++ [last] ∧
        items = before ++ middle :: shorter := by
  rcases List.eq_nil_or_concat after with empty | ⟨shorter, tail, rfl⟩
  · subst empty
    have same := List.append_inj_right' split rfl
    exact Or.inl ⟨(List.cons.inj same).1.symm, rfl⟩
  · rw [List.concat_eq_append] at split ⊢
    rw [← List.cons_append, ← List.append_assoc] at split
    obtain ⟨front, same⟩ := List.append_inj' split rfl
    cases same
    exact Or.inr ⟨shorter, rfl, front⟩

variable {history : List (Executed Answer Failure)}

section

variable {after : List (Executed Answer Failure)}
  {entry added : Executed Answer Failure}
  (last : LastOf (history ++ [added]) position entry after)

include last

/-- What was executed after the last statement of a call that was just
executed: nothing. -/
theorem lastOf_own_eq_nil (own : added.caller = position) : after = [] := by
  obtain ⟨before, split, _, apart⟩ := last
  rcases split_of_append_singleton split with same | earlier
  · exact same.2
  · obtain ⟨shorter, rfl, _⟩ := earlier
    have member : added ∈ shorter ++ [added] := List.mem_append_right shorter List.mem_cons_self
    exact (apart added member own).elim

/-- What was executed after the last statement of a call, before another call
added to it. -/
theorem lastOf_of_append_other (other : added.caller ≠ position) :
    ∃ front, after = front ++ [added] ∧ LastOf history position entry front := by
  obtain ⟨before, split, own, apart⟩ := last
  rcases split_of_append_singleton split with same | earlier
  · rw [← same.1] at other
    exact (other own).elim
  · obtain ⟨shorter, rfl, older⟩ := earlier
    refine ⟨shorter, rfl, before, older, own, ?_⟩
    intro later member
    exact apart later (List.mem_append_left _ member)

end

/-- The discipline of a call that remembers what it saw of its last answer
only. -/
def lastSeen (admits : Statement → Prop)
    (seen : (statement : Statement) → Except Failure (Answer statement) →
      Bool) : Discipline Answer Failure Bool where
  admits _ statement := admits statement
  possible _ _ _ := True
  remember _ statement answer := seen statement answer

theorem exists_lastOf_of_lastSeen {admits : Statement → Prop}
    {seen : (statement : Statement) → Except Failure (Answer statement) → Bool}
    (history : List (Executed Answer Failure)) (position : Nat)
    (remembered : memoryOf (lastSeen admits seen) false history position = true) :
    ∃ entry after, LastOf history position entry after ∧
      seen entry.statement entry.answer = true := by
  refine memoryOf_induction (lastSeen admits seen) false position
    (fun history memory => memory = true → ∃ entry after, LastOf history position entry after ∧
        seen entry.statement entry.answer = true)
    ?start ?own ?other history remembered
  case start =>
    intro impossible
    cases impossible
  case own =>
    intro history memory statement answer _ saw
    exact ⟨_, _, lastOf_append_own history position statement answer, saw⟩
  case other =>
    intro history memory added different ih saw
    obtain ⟨entry, after, last, sawEntry⟩ := ih saw
    exact ⟨entry, _, lastOf_append_other last added different, sawEntry⟩

def tracing : Discipline Answer Failure
      (List ((statement : Statement) × Except Failure (Answer statement))) where
  admits _ _ := True
  possible _ _ _ := True
  remember memory statement answer := memory ++ [⟨statement, answer⟩]

/-- The same, of a call that is admitted only some statements. -/
def tracingAdmitting (admits :
      List ((statement : Statement) × Except Failure (Answer statement)) → Statement → Prop) :
    Discipline Answer Failure
      (List ((statement : Statement) × Except Failure (Answer statement))) :=
  { tracing with admits := admits }

theorem mem_memoryOf_tracing {answer : Except Failure (Answer statement)} (remembered :
      ⟨statement, answer⟩ ∈ memoryOf tracing [] history position) :
    ⟨position, statement, answer⟩ ∈ history := by
  refine memoryOf_induction tracing [] position
    (fun history memory => ⟨statement, answer⟩ ∈ memory → ⟨position, statement, answer⟩ ∈ history)
    ?start ?own ?other history remembered
  case start =>
    intro impossible
    cases impossible
  case own =>
    intro before memory asked given ih member
    rcases List.mem_append.mp member with older | new
    · exact List.mem_append_left _ (ih older)
    · cases List.mem_singleton.mp new
      simp
  case other =>
    intro before memory entry _ ih member
    exact List.mem_append_left _ (ih member)

/-- A position at which no call was started has asked nothing. -/
def HistoryBelow (system : Concurrent State Request Answer Failure Value) : Prop :=
  ∀ entry ∈ system.history, entry.caller < system.calls.length

theorem memoryOf_of_unasked (discipline : Discipline Answer Failure Memory)
    (initial : Memory) (unasked : ∀ entry ∈ history, entry.caller ≠ position) :
    memoryOf discipline initial history position = initial := by
  induction history with
  | nil => rfl
  | cons entry rest ih =>
    have other := unasked entry List.mem_cons_self
    have remaining := ih fun later member => unasked later (List.mem_cons_of_mem entry member)
    rw [memoryOf, List.foldl_cons, if_neg other]
    exact remaining

structure AllFollow
    (discipline : Request → Discipline Answer Failure Memory)
    (initial : Memory)
    (ends : Request → Memory → Except Failure Value → Prop)
    (system : Concurrent State Request Answer Failure Value) : Prop where
  below : HistoryBelow system
  follow : ∀ position call, system.calls[position]? = some call →
    Follows (discipline call.request) (ends call.request)
      (memoryOf (discipline call.request) initial system.history position)
      call.process

variable {discipline : Request → Discipline Answer Failure Memory}
  {initial : Memory}
  {ends : Request → Memory → Except Failure Value → Prop}

/-- A store on which no call was started. -/
theorem follows_idle {shared : State} :
    AllFollow discipline initial ends
      (⟨shared, [], []⟩ : Concurrent State Request Answer Failure Value) := by
  constructor
  · intro entry member
    cases member
  · intro position call found
    cases found

variable (all : AllFollow discipline initial ends system)

include all

theorem follows_start (follows : Follows (discipline request) (ends request) initial process) :
    AllFollow discipline initial ends (system.start request process) := by
  constructor
  · intro entry member
    have below := all.below entry member
    simp only [Concurrent.start, List.length_append, List.length_singleton]
    omega
  · intro position call found
    simp only [Concurrent.start] at found ⊢
    by_cases old : position < system.calls.length
    · rw [List.getElem?_append_left old] at found
      exact all.follow position call found
    · have new : position = system.calls.length := by
        have inside := (List.getElem?_eq_some_iff.mp found).1
        rw [List.length_append, List.length_singleton] at inside
        omega
      subst new
      rw [List.getElem?_concat_length] at found
      cases found
      have unasked : ∀ entry ∈ system.history, entry.caller ≠ system.calls.length := by
        intro entry member
        exact Nat.ne_of_lt (all.below entry member)
      rw [memoryOf_of_unasked _ initial unasked]
      exact follows

theorem follows_answered (found : system.Awaits position request statement resume)
    (possible : (discipline request).possible
      (memoryOf (discipline request) initial system.history position) statement outcome.1) :
    AllFollow discipline initial ends
      (system.answered position request statement resume outcome) := by
  have inside : position < system.calls.length := (List.getElem?_eq_some_iff.mp found).1
  have own := all.follow position _ found
  constructor
  · intro entry member
    simp only [Concurrent.answered] at member ⊢
    rw [List.length_set]
    rcases List.mem_append.mp member with old | new
    · exact all.below entry old
    · rw [List.mem_singleton.mp new]
      exact inside
  · intro other call present
    simp only [Concurrent.answered] at present ⊢
    by_cases same : position = other
    · subst same
      rw [List.getElem?_set_self inside] at present
      cases present
      rw [memoryOf_append_own]
      exact own.2 _ possible
    · rw [List.getElem?_set_ne same] at present
      rw [memoryOf_append_other _ _ _ _ _ same]
      exact all.follow other call present

/-- A call asks only what its discipline admits. -/
theorem AllFollow.admitted (found : system.Awaits position request statement resume) :
    (discipline request).admits (memoryOf (discipline request) initial system.history position)
      statement :=
  (all.follow position _ found).1

theorem AllFollow.ended {outcome : Except Failure Value}
    (found : system.calls[position]? = some ⟨request, .done outcome⟩) :
    ends request (memoryOf (discipline request) initial system.history position) outcome :=
  all.follow position _ found

end

end Aprovan.Library
