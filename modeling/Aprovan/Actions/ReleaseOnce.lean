import Aprovan.Actions.Queue

/-!
# A released action executes at most once

The queue is seen through a `Ledger`: the stored state of the action, how many
executor runs are under way, and how many successful runs still have to be
saved.  While nobody else moves the record between a call's read and its write,
a step of the queue is a `SettledStep`, and the laws are proved on ledgers.
-/

namespace Aprovan.Actions

open Aprovan.Library Aprovan.Grants

structure Ledger where
  stored : QueuedActionState
  (executing unsaved completions lateStarts : Nat)

/-- What an undisturbed step may do. -/
inductive SettledStep : Ledger → Ledger → Prop
  | stay (ledger : Ledger) : SettledStep ledger ledger
  | start (completions lateStarts : Nat) :
      SettledStep ⟨.queued, 0, 0, completions, lateStarts⟩ ⟨.queued, 1, 0, completions, lateStarts⟩
  | succeed (stored : QueuedActionState)
      (executing unsaved completions lateStarts : Nat) :
      SettledStep ⟨stored, executing + 1, unsaved, completions, lateStarts⟩
        ⟨stored, executing, unsaved + 1, completions + 1, lateStarts⟩
  | throw (stored : QueuedActionState)
      (executing unsaved completions lateStarts : Nat) :
      SettledStep ⟨stored, executing + 1, unsaved, completions, lateStarts⟩
        ⟨stored, executing, unsaved, completions, lateStarts⟩
  | save (next : QueuedActionState) (terminal : next ≠ .queued)
      (executing unsaved left completions lateStarts : Nat) :
      SettledStep ⟨.queued, executing, unsaved, completions, lateStarts⟩
        ⟨next, executing, left, completions, lateStarts⟩

/-- At most one executor run has started that may still succeed or has
succeeded; once one has succeeded, its save is pending or the record is
terminal; and no run started late. -/
structure Settled (ledger : Ledger) : Prop where
  once : ledger.executing + ledger.completions ≤ 1
  remembered : ledger.completions = 1 → ledger.stored ≠ .queued ∨ 0 < ledger.unsaved
  onTime : ledger.lateStarts = 0

theorem settled_step {before after : Ledger} (settled : Settled before)
    (taken : SettledStep before after) :
    Settled after := by
  obtain ⟨once, remembered, onTime⟩ := settled
  cases taken with
  | stay => exact ⟨once, remembered, onTime⟩
  | start completions lateStarts =>
    have fresh : completions ≠ 1 := by
      intro succeeded
      rcases remembered succeeded with terminal | pending
      · exact terminal rfl
      · exact absurd pending (Nat.lt_irrefl 0)
    simp only at once onTime
    exact ⟨by simp only; omega, fun succeeded => absurd succeeded fresh, onTime⟩
  | succeed stored executing unsaved completions lateStarts =>
    simp only at once onTime
    exact ⟨by simp only; omega, fun _ => Or.inr (Nat.succ_pos unsaved), onTime⟩
  | throw stored executing unsaved completions lateStarts =>
    simp only at once onTime
    exact ⟨by simp only; omega, remembered, onTime⟩
  | save next terminal executing unsaved left completions lateStarts =>
    exact ⟨once, fun _ => Or.inl terminal, onTime⟩

theorem terminal_step {before after : Ledger} (taken : SettledStep before after)
    (terminal : before.stored ≠ .queued) :
    after.stored = before.stored := by
  cases taken with
  | stay => rfl
  | start => exact absurd rfl terminal
  | succeed => rfl
  | throw => rfl
  | save => exact absurd rfl terminal

def Call.executes (call : Call) : Bool :=
  match call.phase with
  | .executing _ => true
  | _ => false

def Call.savesRelease (call : Call) : Bool :=
  match call.phase with
  | .saving next => next.val.state = .released
  | _ => false

def Call.isQuiet (call : Call) : Prop :=
  call.executes = false ∧ call.savesRelease = false

def State.ledger (state : State) : Ledger where
  stored := state.action.state
  executing := state.calls.countP Call.executes
  unsaved := state.calls.countP Call.savesRelease
  completions := state.completions
  lateStarts := state.lateStarts

variable {state : State} {position : Nat} {old : Call}

theorem ledger_advance {new : Call} (found : state.calls[position]? = some old)
    (oldQuiet : old.isQuiet) (newQuiet : new.isQuiet) :
    (state.advance position new).ledger = state.ledger := by
  have executing := countP_advanceCall Call.executes new found
  have unsaved := countP_advanceCall Call.savesRelease new found
  rw [oldQuiet.1, newQuiet.1] at executing
  rw [oldQuiet.2, newQuiet.2] at unsaved
  simp only [State.ledger, State.advance, Nat.add_right_cancel executing,
    Nat.add_right_cancel unsaved]

theorem ledger_finish (found : state.calls[position]? = some old) (oldQuiet : old.isQuiet) :
    (state.finish position).ledger = state.ledger := by
  have executing := countP_finishCall Call.executes found
  have unsaved := countP_finishCall Call.savesRelease found
  rw [oldQuiet.1, Bool.toNat_false, Nat.add_zero] at executing
  rw [oldQuiet.2, Bool.toNat_false, Nat.add_zero] at unsaved
  simp only [State.ledger, State.finish, executing, unsaved]

/-- Ending a release removes its call, or turns it into a quiet one. -/
theorem proceed_cases (state : State) (position : Nat) (caller : Caller) :
    state.proceed position caller = state.finish position ∨ ∃ new : Call, new.isQuiet ∧
        state.proceed position caller = state.advance position new := by
  unfold State.proceed
  split
  · exact Or.inr ⟨_, ⟨rfl, rfl⟩, rfl⟩
  · exact Or.inr ⟨_, ⟨rfl, rfl⟩, rfl⟩
  · exact Or.inl rfl

variable {caller : Caller}

theorem ledger_proceed (found : state.calls[position]? = some old) (oldQuiet : old.isQuiet) :
    (state.proceed position caller).ledger = state.ledger := by
  rcases proceed_cases state position caller with
    same | ⟨new, newQuiet, same⟩
  · rw [same, ledger_finish found oldQuiet]
  · rw [same, ledger_advance found oldQuiet newQuiet]

theorem ledger_ended {next : State} (caller : Caller) (found : state.calls[position]? = some old)
    (ended : next = state.proceed position caller ∨ next = state.finish position) :
    ∃ executing unsaved, state.ledger = ⟨state.action.state, executing + old.executes.toNat,
        unsaved + old.savesRelease.toNat, state.completions,
        state.lateStarts⟩ ∧
      next.ledger = ⟨state.action.state, executing, unsaved,
        state.completions, state.lateStarts⟩ := by
  have finished :
      ∃ executing unsaved, state.ledger = ⟨state.action.state, executing + old.executes.toNat,
          unsaved + old.savesRelease.toNat, state.completions,
          state.lateStarts⟩ ∧
        (state.finish position).ledger = ⟨state.action.state, executing,
          unsaved, state.completions, state.lateStarts⟩ := by
    refine ⟨_, _, ?_, rfl⟩
    simp only [State.ledger, State.finish, countP_finishCall Call.executes found,
      countP_finishCall Call.savesRelease found]
  rcases ended with rfl | rfl
  · rcases proceed_cases state position caller with
      same | ⟨new, newQuiet, same⟩
    · rw [same]
      exact finished
    · have executing := countP_advanceCall Call.executes new found
      have unsaved := countP_advanceCall Call.savesRelease new found
      rw [newQuiet.1, Bool.toNat_false, Nat.add_zero] at executing
      rw [newQuiet.2, Bool.toNat_false, Nat.add_zero] at unsaved
      refine ⟨(state.advance position new).ledger.executing,
        (state.advance position new).ledger.unsaved, ?_, ?_⟩
      · simp only [State.ledger, State.advance, executing, unsaved]
      · rw [same]
        rfl
  · exact finished

/-- The record is queued, and no other release has its executor running or
its save pending. -/
def State.free (state : State) : Bool :=
  state.action.state = .queued && state.calls.countP Call.executes = 0 &&
    state.calls.countP Call.savesRelease = 0

/-- Does the continuation of this read start the executor? -/
def State.resumeStarts (state : State) (caller : Caller) : Option QueuedAction → Bool
  | none => false
  | some row =>
    caller.releases.any (fun approval => approval.2 = none) &&
      row.state = .queued && !isDue row state.clock

/-- The steps that find the record as their call read it: an executor starts
only for a record that is still queued and that no other release is
executing or saving, a save finds the record still queued, and the save of a
release does not fail. -/
def undisturbed (state : State) : Action → Bool
  | .resume position =>
    match state.calls[position]? with
    | some ⟨caller, .loaded row⟩ => !state.resumeStarts caller row || state.free
    | _ => true
  | .confirm _ opened => !opened || state.free
  | .save _ => state.action.state = .queued
  | .saveFails position =>
    match state.calls[position]? with
    | some call => !call.savesRelease
    | none => true
  | _ => true

theorem startExecutor_settled {loaded : QueuedAction} (found : state.calls[position]? = some old)
    (oldQuiet : old.isQuiet) (free : state.free = true) :
    SettledStep state.ledger (state.startExecutor position caller loaded).ledger := by
  simp only [State.free, Bool.and_eq_true, decide_eq_true_eq] at free
  obtain ⟨⟨queued, idle⟩, saved⟩ := free
  have executing := countP_advanceCall Call.executes ⟨caller, .executing loaded⟩ found
  have unsaved := countP_advanceCall Call.savesRelease ⟨caller, .executing loaded⟩ found
  rw [oldQuiet.1, idle] at executing
  rw [oldQuiet.2, saved] at unsaved
  have before : state.ledger = ⟨.queued, 0, 0, state.completions, state.lateStarts⟩ := by
    simp only [State.ledger, queued, idle, saved]
  have after : (state.startExecutor position caller loaded).ledger =
      ⟨.queued, 1, 0, state.completions, state.lateStarts⟩ := by
    have onTime : state.withdrawn = false := by simp [State.withdrawn, queued]
    simp only [State.ledger, State.startExecutor, State.advance, queued,
      onTime, Bool.toNat_false, Nat.add_zero, Ledger.mk.injEq, true_and,
      and_true]
    exact ⟨executing, unsaved⟩
  rw [before, after]
  exact SettledStep.start _ _

private theorem release_settled {state : State} {position : Nat} {old : Call} {caller : Caller}
    {rememberPattern : Option Text} {loaded : QueuedAction}
    (found : state.calls[position]? = some old) (oldQuiet : old.isQuiet)
    (free : rememberPattern = none → loaded.state = .queued → state.free = true) :
    SettledStep state.ledger (state.release position caller rememberPattern loaded).ledger := by
  unfold State.release
  split
  · rw [ledger_proceed found oldQuiet]
    exact SettledStep.stay _
  next queued =>
    rw [ne_eq, not_not] at queued
    split
    · rw [ledger_advance found oldQuiet ⟨rfl, rfl⟩]
      exact SettledStep.stay _
    next forgets =>
      rw [Option.not_isSome_iff_eq_none] at forgets
      exact startExecutor_settled found oldQuiet (free forgets queued)

/-- The continuation of a read moves the ledger only by starting the
executor. -/
private theorem resume_settled {row : Option QueuedAction}
    (found : state.calls[position]? = some ⟨caller, .loaded row⟩)
    (free : state.resumeStarts caller row = true → state.free = true) :
    SettledStep state.ledger (state.resume position caller row).ledger := by
  have oldQuiet : Call.isQuiet ⟨caller, .loaded row⟩ := ⟨rfl, rfl⟩
  have finished : SettledStep state.ledger (state.finish position).ledger := by
    rw [ledger_finish found oldQuiet]
    exact SettledStep.stay _
  have advanced (new : Call) (newQuiet : new.isQuiet) :
      SettledStep state.ledger (state.advance position new).ledger := by
    rw [ledger_advance found oldQuiet newQuiet]
    exact SettledStep.stay _
  cases row with
  | none =>
    rw [State.resume, ledger_proceed found oldQuiet]
    exact SettledStep.stay _
  | some row =>
    cases caller with
    | expire =>
      simp only [State.resume]
      split
      · exact finished
      · exact advanced _ ⟨rfl, rfl⟩
    | get =>
      simp only [State.resume]
      split
      · exact advanced _ ⟨rfl, rfl⟩
      · exact finished
    | count =>
      simp only [State.resume]
      split
      · exact advanced _ ⟨rfl, rfl⟩
      · exact finished
    | discard reviewer =>
      simp only [State.resume]
      split
      · exact advanced _ ⟨rfl, rfl⟩
      · split
        · exact finished
        · exact advanced _ ⟨rfl, rfl⟩
    | release reviewer rememberPattern =>
      simp only [State.resume]
      split
      · exact advanced _ ⟨rfl, rfl⟩
      next due =>
        apply release_settled found oldQuiet
        intro forgets queued
        exact free (by
          simp [State.resumeStarts, Caller.releases, forgets, queued, due])
    | accept reviewer rememberPattern remaining =>
      simp only [State.resume]
      split
      · exact advanced _ ⟨rfl, rfl⟩
      next due =>
        apply release_settled found oldQuiet
        intro forgets queued
        exact free (by
          simp [State.resumeStarts, Caller.releases, forgets, queued, due])

theorem ledger_step {state next : State} {action : Action}
    (allowed : undisturbed state action = true) (taken : step state action = some next) :
    SettledStep state.ledger next.ledger := by
  cases action with
  | tick elapsed =>
    cases taken
    exact SettledStep.stay _
  | call caller =>
    cases caller <;> simp only [step, Option.some.injEq, reduceCtorEq] at taken
    all_goals
      subst taken
      simp only [State.ledger, countP_startCall]
      exact SettledStep.stay _
  | acceptJitCard reviewer rememberPattern =>
    cases taken
    simp only [State.ledger, countP_startCall]
    exact SettledStep.stay _
  | readCard position =>
    simp only [step] at taken
    split at taken
    next caller found =>
      split at taken
      · cases taken
        rw [ledger_proceed found ⟨rfl, rfl⟩]
        exact SettledStep.stay _
      · cases taken
        rw [ledger_finish found ⟨rfl, rfl⟩]
        exact SettledStep.stay _
    · cases taken
  | saveCard position =>
    simp only [step] at taken
    split at taken
    next caller found =>
      cases taken
      change SettledStep _ (state.finish position).ledger
      rw [ledger_finish found ⟨rfl, rfl⟩]
      exact SettledStep.stay _
    · cases taken
  | read position =>
    simp only [step] at taken
    split at taken
    next caller found =>
      cases taken
      rw [ledger_advance found ⟨rfl, rfl⟩ ⟨rfl, rfl⟩]
      exact SettledStep.stay _
    · cases taken
  | readFails position =>
    simp only [step] at taken
    split at taken
    next caller found =>
      cases taken
      rw [ledger_advance found ⟨rfl, rfl⟩ ⟨rfl, rfl⟩]
      exact SettledStep.stay _
    · cases taken
  | resume position =>
    simp only [step] at taken
    split at taken
    next caller row found =>
      cases taken
      simp only [undisturbed, found, Bool.or_eq_true, Bool.not_eq_true'] at allowed
      apply resume_settled found
      intro starts
      rw [starts] at allowed
      exact allowed.resolve_left Bool.noConfusion
    · cases taken
  | confirm position opened =>
    simp only [step] at taken
    split at taken
    next caller loaded found =>
      split at taken
      next opens =>
        cases taken
        simp only [undisturbed, opens, Bool.not_true, Bool.false_or] at allowed
        exact startExecutor_settled found ⟨rfl, rfl⟩ allowed
      · cases taken
        rw [ledger_finish found ⟨rfl, rfl⟩]
        exact SettledStep.stay _
    · cases taken
  | executorSucceeds position =>
    simp only [step] at taken
    split at taken
    next caller loaded found =>
      obtain ⟨approval, _, rfl⟩ := Option.map_eq_some_iff.mp taken
      have executing := countP_advanceCall Call.executes ⟨caller, .saving
          (released loaded approval.1 approval.2 state.clock)⟩ found
      have unsaved := countP_advanceCall Call.savesRelease ⟨caller, .saving
          (released loaded approval.1 approval.2 state.clock)⟩ found
      change _ + 1 = _ + 0 at executing
      change _ + 0 = _ + 1 at unsaved
      have moved := SettledStep.succeed state.action.state
        ((advanceCall state.calls position ⟨caller, .saving
          (released loaded approval.1 approval.2 state.clock)⟩).countP Call.executes)
        (state.calls.countP Call.savesRelease)
        state.completions state.lateStarts
      rw [executing, ← unsaved] at moved
      exact moved
    · cases taken
  | executorThrows position status =>
    simp only [step] at taken
    split at taken
    next caller loaded found =>
      have ended : next = state.proceed position caller ∨ next = state.finish position := by
        split at taken <;> cases taken
        · exact Or.inl rfl
        · exact Or.inr rfl
      obtain ⟨executing, unsaved, before, after⟩ :=
        ledger_ended caller found ended
      rw [before, after]
      exact SettledStep.throw _ _ _ _ _
    · cases taken
  | save position =>
    simp only [step] at taken
    split at taken
    next caller saved found =>
      cases taken
      simp only [undisturbed, decide_eq_true_eq] at allowed
      obtain ⟨executing, unsaved, before, after⟩ :=
        ledger_ended caller found (Or.inl rfl)
      have kept : State.ledger { state.proceed position caller with action := saved.val } =
            { (state.proceed position caller).ledger with
              stored := saved.val.state } :=
        rfl
      rw [kept, before, after, allowed]
      exact SettledStep.save _ saved.property _ _ _ _ _
    · cases taken
  | saveFails position =>
    simp only [step] at taken
    split at taken
    next caller saved found =>
      cases taken
      simp only [undisturbed, found, Bool.not_eq_true'] at allowed
      rw [ledger_finish found ⟨rfl, allowed⟩]
      exact SettledStep.stay _
    · cases taken

theorem settled_run {target : State} {actions : List Action}
    (settled : Settled state.ledger) (executed :
      runGuarded step (fun state action => undisturbed state action = true)
        state actions = some target) :
    Settled target.ledger :=
  invariant_runGuarded (fun state => Settled state.ledger)
    (fun _ _ _ kept allowed taken => settled_step kept (ledger_step allowed taken))
    settled executed

theorem settled_start (id : Text) (req : DispatchRequest) (card : CapabilityCard) (now : Nat) :
    Settled (State.start id req card now).ledger where
  once := Nat.zero_le 1
  remembered := by
    intro impossible
    cases impossible
  onTime := rfl

theorem terminal_run {state target : State} {actions : List Action} (executed :
      runGuarded step (fun state action => undisturbed state action = true)
        state actions = some target)
    (terminal : state.action.state ≠ .queued) :
    target.action.state = state.action.state := by
  have kept := related_runGuarded (fun _ => True)
    (fun before after : State =>
      before.action.state ≠ .queued → after.action.state = before.action.state)
    (fun _ _ => rfl)
    (fun first second third early late closed => by
      rw [late (by rwa [early closed]), early closed])
    (fun before action after _ allowed taken =>
      ⟨trivial, terminal_step (ledger_step allowed taken)⟩)
    trivial executed
  exact kept terminal

/-- In every run of undisturbed steps the executor completes successfully at
most once, it is never started after the action was discarded or expired, and
once the record is released, discarded or expired its state never changes. -/
theorem release_once (id : Text) (req : DispatchRequest) (card : CapabilityCard)
    (now : Nat) (actions : List Action) (state : State)
    (executed :
      runGuarded step (fun state action => undisturbed state action = true)
        (State.start id req card now) actions = some state) :
    state.completions ≤ 1 ∧ state.lateStarts = 0 ∧ ∀ (later : List Action) (target : State),
        runGuarded step (fun state action => undisturbed state action = true)
            state later = some target →
          state.action.state ≠ .queued → target.action.state = state.action.state := by
  have settled : Settled state.ledger := settled_run (settled_start id req card now) executed
  have once : state.ledger.executing + state.completions ≤ 1 := settled.once
  exact ⟨by omega, settled.onTime,
    fun _ _ continued terminal => terminal_run continued terminal⟩

/-- A member's mail, waiting for a reviewer. -/
def sendMail : DispatchRequest where
  principal := { sub := "ann".toList, role := .member, groupIds := [] }
  via := none
  tool := {
    toolNamespace := "mail".toList
    operation := "send".toList
    effect := .action }
  resource := some "bob".toList
  credential := none
  runContext := none

def mailCard : CapabilityCard where
  state := .pending
  alwaysAsk := true
  resource := some "bob".toList
  listed := 1

def mailQueued : State :=
  State.start "q".toList sendMail mailCard 0

/-- Two reviewers release at once: both read before either saves. -/
def bothRelease : List Action :=
  [.call (.release "rev".toList none), .call (.release "eve".toList none),
    .read 0, .read 1, .resume 0, .resume 1,
    .executorSucceeds 0, .executorSucceeds 1]

def endOf (state : State) (actions : List Action) : State :=
  (runFrom step state actions).getD state

/-- Without the condition each of the three laws fails. -/
theorem release_not_once :
    ¬ ∀ (id : Text) (req : DispatchRequest) (card : CapabilityCard)
        (now : Nat) (actions : List Action) (state : State),
        runFrom step (State.start id req card now) actions = some state →
          state.completions ≤ 1 ∧ state.lateStarts = 0 ∧
            ∀ (later : List Action) (target : State), runFrom step state later = some target →
                state.action.state ≠ .queued → target.action.state = state.action.state := by
  intro law
  have twice : 2 ≤ 1 :=
    (law "q".toList sendMail mailCard 0 bothRelease (endOf mailQueued bothRelease) rfl).1
  exact absurd twice (by decide)

/-- An accepted card releases its action, and a later release is refused. -/
def acceptThenRelease : List Action :=
  [.acceptJitCard "rev".toList none, .readCard 0, .read 0, .resume 0, .executorThrows 0 409,
    .call (.release "eve".toList none), .read 1, .resume 1,
    .executorSucceeds 1, .save 1, .saveCard 0,
    .call (.release "rev".toList none), .read 0, .resume 0]

theorem release_once_accepted :
    (endOf mailQueued acceptThenRelease).completions ≤ 1 ∧
      (endOf mailQueued acceptThenRelease).lateStarts = 0 ∧
      ∀ (later : List Action) (target : State),
        runGuarded step (fun state action => undisturbed state action = true)
            (endOf mailQueued acceptThenRelease) later = some target →
          (endOf mailQueued acceptThenRelease).action.state ≠ .queued → target.action.state =
              (endOf mailQueued acceptThenRelease).action.state :=
  release_once "q".toList sendMail mailCard 0 acceptThenRelease
    (endOf mailQueued acceptThenRelease) rfl

end Aprovan.Actions
