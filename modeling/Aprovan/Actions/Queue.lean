import Aprovan.Grants.Dispatch
import Aprovan.Library.Runs

/-!
# The action queue

A resource miss persists as a `QueuedAction` that is queued, then released,
discarded or expired.  The model follows one action and the capability card that
lists it.  Every store operation and every continuation of the calls is a step,
reads and saves may fail, and the executor may succeed or throw.
-/

namespace Aprovan.Actions

open Aprovan.Library Aprovan.Grants

inductive QueuedActionState where
  | queued
  | released
  | discarded
  | expired
  deriving DecidableEq

/-- Who invoked, through what, under which credential, and who approved. -/
structure Attribution where
  user : Text
  via : Option Via
  credential : Option RequestCredential
  approver : Option Text

structure Resolution where
  reviewer : Text
  resolvedAt : Nat
  rememberedPattern : Option Text

structure QueuedAction where
  id : Text
  state : QueuedActionState
  request : DispatchRequest
  attribution : Attribution
  (createdAt expiresAt : Nat)
  (runId reason : Option Text)
  resolution : Option Resolution

def QUEUE_TTL_MS : Nat := 7 * 24 * 60 * 60 * 1000

def attributionFrom (req : DispatchRequest) : Attribution where
  user := req.principal.sub
  via := req.via
  credential := req.credential
  approver := none

/-- The record of a resource miss, persisted at `now`. -/
def enqueueQueuedAction (id : Text) (req : DispatchRequest) (now : Nat) : QueuedAction where
  id := id
  state := .queued
  request := req
  attribution := attributionFrom req
  createdAt := now
  expiresAt := now + QUEUE_TTL_MS
  runId := req.runContext.map (·.runId)
  reason := none
  resolution := none

/-- A record in a terminal state; the transitions write nothing else. -/
abbrev TerminalAction :=
  { action : QueuedAction // action.state ≠ .queued }

/-- The record `transitionExpired` writes. -/
def transitionExpired (action : QueuedAction) (now : Nat) : TerminalAction :=
  ⟨{ action with
      state := .expired
      reason := some "expired".toList
      resolution := some ⟨"system".toList, now, none⟩ },
    by simp⟩

/-- The record `release` writes after the executor. -/
def released (loaded : QueuedAction) (reviewer : Text)
    (rememberPattern : Option Text) (now : Nat) : TerminalAction :=
  ⟨{ loaded with
      state := .released
      attribution := { loaded.attribution with approver := some reviewer }
      resolution := some ⟨reviewer, now, rememberPattern⟩ },
    by simp⟩

/-- The record `discard` writes. -/
def discarded (loaded : QueuedAction) (reviewer : Text) (now : Nat) : TerminalAction :=
  ⟨{ loaded with
      state := .discarded
      attribution := { loaded.attribution with approver := some reviewer }
      resolution := some ⟨reviewer, now, none⟩ },
    by simp⟩

/-- `maybeExpire` moves a queued record whose expiry has passed. -/
def isDue (action : QueuedAction) (now : Nat) : Bool :=
  action.state = .queued && action.expiresAt ≤ now

inductive CardState where
  | pending
  | accepted
  | declined
  deriving DecidableEq

/-- The card that lists the action; `listed` counts how often. -/
structure CapabilityCard where
  state : CardState
  alwaysAsk : Bool
  resource : Option Text
  listed : Nat

/-- The call a step belongs to. `accept` stands in the release of one listed
occurrence, with `remaining` occurrences to come. -/
inductive Caller where
  | get
  | count
  | release (reviewer : Text) (rememberPattern : Option Text)
  | discard (reviewer : Text)
  | expire
  | accept (reviewer : Text) (rememberPattern : Option Text)
      (remaining : Nat)

/-- The point a call has reached. -/
inductive Phase where
  | reading
  | loaded (row : Option QueuedAction)
  | confirming (action : QueuedAction)
  | executing (action : QueuedAction)
  | saving (next : TerminalAction)
  | readingCard
  | savingCard

structure Call where
  caller : Caller
  phase : Phase

/-- The stored records, the clock and the calls in flight. `completions`
counts successful runs of the executor, and `lateStarts` its starts while the
stored action was discarded or expired; the code stores neither. -/
structure State where
  action : QueuedAction
  card : CapabilityCard
  clock : Nat
  calls : List Call
  (completions lateStarts : Nat)

/-- The action has just been enqueued and nobody has called. -/
def State.start (id : Text) (req : DispatchRequest) (card : CapabilityCard) (now : Nat) :
    State where
  action := enqueueQueuedAction id req now
  card := card
  clock := now
  calls := []
  completions := 0
  lateStarts := 0

inductive Action where
  | tick (elapsed : Nat)
  | call (caller : Caller)
  | acceptJitCard (reviewer : Text) (rememberPattern : Option (Option Text))
  | readCard (position : Nat)
  | saveCard (position : Nat)
  | read (position : Nat)
  | readFails (position : Nat)
  | resume (position : Nat)
  | confirm (position : Nat) (opened : Bool)
  | executorSucceeds (position : Nat)
  | executorThrows (position : Nat) (status : Nat)
  | save (position : Nat)
  | saveFails (position : Nat)

variable (state : State)

def State.withdrawn : Bool :=
  state.action.state = .discarded || state.action.state = .expired

def State.advance (position : Nat) (call : Call) : State :=
  { state with calls := advanceCall state.calls position call }

def State.finish (position : Nat) : State :=
  { state with calls := finishCall state.calls position }

/-- A release ends by returning, or by an error that `acceptJitCard` skips:
the accept goes on with the next listed occurrence. -/
def State.proceed (position : Nat) (caller : Caller) : State :=
  match caller with
  | .accept reviewer rememberPattern (remaining + 1) =>
    state.advance position ⟨.accept reviewer rememberPattern remaining, .reading⟩
  | .accept reviewer rememberPattern 0 =>
    state.advance position ⟨.accept reviewer rememberPattern 0, .savingCard⟩
  | _ => state.finish position

/-- The one-shot execution of the original request starts. -/
def State.startExecutor (position : Nat) (caller : Caller) (loaded : QueuedAction) : State :=
  { state.advance position ⟨caller, .executing loaded⟩ with
    lateStarts := state.lateStarts + state.withdrawn.toNat }

/-- The release of a loaded record: a no-op error unless it is queued. -/
def State.release (position : Nat) (caller : Caller)
    (rememberPattern : Option Text) (loaded : QueuedAction) : State :=
  if loaded.state ≠ .queued then state.proceed position caller
  else if rememberPattern.isSome then state.advance position ⟨caller, .confirming loaded⟩
  else state.startExecutor position caller loaded

/-- The continuation of a read of the record. -/
def State.resume (position : Nat) (caller : Caller) : Option QueuedAction → State
  | none => state.proceed position caller
  | some row =>
    match caller with
    | .expire =>
      if row.state ≠ .queued then state.finish position
      else state.advance position ⟨caller, .saving (transitionExpired row state.clock)⟩
    | caller =>
      if isDue row state.clock then
        state.advance position ⟨caller, .saving (transitionExpired row state.clock)⟩
      else
        match caller with
        | .release _ rememberPattern => state.release position caller rememberPattern row
        | .accept _ rememberPattern _ => state.release position caller rememberPattern row
        | .discard reviewer =>
          if row.state ≠ .queued then state.finish position
          else state.advance position ⟨caller, .saving (discarded row reviewer state.clock)⟩
        | _ => state.finish position

def Caller.releases : Caller → Option (Text × Option Text)
  | .release reviewer rememberPattern => some (reviewer, rememberPattern)
  | .accept reviewer rememberPattern _ => some (reviewer, rememberPattern)
  | _ => none

/-- The pattern an accept hands to `release`: none for an always-ask card,
else the given one, else the resource of the request. -/
def CapabilityCard.remembered (card : CapabilityCard) (rememberPattern : Option (Option Text)) :
    Option Text :=
  if card.alwaysAsk then none else rememberPattern.getD card.resource

/-- One store operation or one continuation. -/
def step : Action → Option State
  | .tick elapsed => some { state with clock := state.clock + elapsed }
  | .call (.accept _ _ _) => none
  | .call caller => some { state with calls := state.calls ++ [⟨caller, .reading⟩] }
  | .acceptJitCard reviewer rememberPattern =>
    some { state with
      calls := state.calls ++
        [⟨.accept reviewer (state.card.remembered rememberPattern)
            state.card.listed, .readingCard⟩] }
  | .readCard position =>
    match state.calls[position]? with
    | some ⟨caller, .readingCard⟩ =>
      if state.card.state = .pending then some (state.proceed position caller)
      else some (state.finish position)
    | _ => none
  | .saveCard position =>
    match state.calls[position]? with
    | some ⟨_, .savingCard⟩ =>
      some { state.finish position with
        card := { state.card with state := .accepted } }
    | _ => none
  | .read position =>
    match state.calls[position]? with
    | some ⟨caller, .reading⟩ =>
      some (state.advance position ⟨caller, .loaded (some state.action)⟩)
    | _ => none
  | .readFails position =>
    -- `.catch(() => undefined)`: the record counts as not found
    match state.calls[position]? with
    | some ⟨caller, .reading⟩ => some (state.advance position ⟨caller, .loaded none⟩)
    | _ => none
  | .resume position =>
    match state.calls[position]? with
    | some ⟨caller, .loaded row⟩ => some (state.resume position caller row)
    | _ => none
  | .confirm position opened =>
    match state.calls[position]? with
    | some ⟨caller, .confirming loaded⟩ =>
      if opened then some (state.startExecutor position caller loaded)
      else some (state.finish position)
    | _ => none
  | .executorSucceeds position =>
    match state.calls[position]? with
    | some ⟨caller, .executing loaded⟩ =>
      caller.releases.map fun approval =>
        { state.advance position ⟨caller, .saving
              (released loaded approval.1 approval.2 state.clock)⟩ with
          completions := state.completions + 1 }
    | _ => none
  | .executorThrows position status =>
    match state.calls[position]? with
    | some ⟨caller, .executing _⟩ =>
      if status = 404 ∨ status = 409 then some (state.proceed position caller)
      else some (state.finish position)
    | _ => none
  | .save position =>
    match state.calls[position]? with
    | some ⟨caller, .saving next⟩ => some { state.proceed position caller with action := next.val }
    | _ => none
  | .saveFails position =>
    match state.calls[position]? with
    | some ⟨_, .saving _⟩ => some (state.finish position)
    | _ => none

end Aprovan.Actions
