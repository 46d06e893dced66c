import Aprovan.Library.Runs

/-!
# The leader lease

`LeaderLease` guards background work by a row in the record store, which
`acquire` reads and then writes unconditionally and `release` deletes
unconditionally.  Every store operation is atomic, and the calls, also several
on one lease, interleave freely.  A lease is identified by its `holder`, and one
clock never decreases.
-/

namespace Aprovan.Runtime.Leader

open Aprovan.Library

/-- How long a lease survives without renewal. -/
def LEASE_TTL_MS : Nat := 90000

/-- Renewal cadence, a third of the lifetime. -/
def LEASE_RENEW_MS : Nat := 30000

universe u

variable {Holder : Type u}

/-- The value stored under the lease's name. -/
structure LeaseRecord (Holder : Type u) where
  holder : Holder
  expiresAt : Nat

/-- The second from which the store may drop the row of a lease. -/
def LeaseRecord.expiresAtEpochSeconds (lease : LeaseRecord Holder) : Nat :=
  (lease.expiresAt + LEASE_TTL_MS) / 1000

/-- The content of the row: a lease, or a value that `isLease` rejects. -/
inductive Stored (Holder : Type u) where
  | lease (record : LeaseRecord Holder)
  | other

/-- The lease in a row, when the row is present and holds one. -/
def isLease : Option (Stored Holder) → Option (LeaseRecord Holder)
  | some (.lease record) => some record
  | some .other => none
  | none => none

def purged (clock : Nat) (row : Option (Stored Holder)) : Bool :=
  match isLease row with
  | some record => record.expiresAtEpochSeconds < clock / 1000
  | none => false

/-- The point a call in flight has reached. `now` is the clock reading the
call of `acquire` started with. -/
inductive Phase (Holder : Type u) where
  | getting (now : Nat)
  | got (now : Nat) (current : Option (Stored Holder))
  | setting (now : Nat)
  | set (now : Nat)
  | deleting

structure Call (Holder : Type u) where
  holder : Holder
  phase : Phase Holder

/-- The private state of one `LeaderLease`. `acquiredAt` records the clock
reading of its last successful `acquire`; the code does not store it. -/
structure LeaderLease where
  hasLease : Bool
  acquiredAt : Option Nat

/-- A lease that has made no call yet. -/
def LeaderLease.fresh : LeaderLease where
  hasLease := false
  acquiredAt := none

structure State (Holder : Type u) where
  row : Option (Stored Holder)
  clock : Nat
  leases : Holder → LeaderLease
  calls : List (Call Holder)

/-- No call has been made; the row may hold anything. -/
def State.start (row : Option (Stored Holder)) (clock : Nat) : State Holder where
  row := row
  clock := clock
  leases := fun _ => LeaderLease.fresh
  calls := []

/-- The only question callers ask. -/
def State.held (state : State Holder) (holder : Holder) : Bool :=
  (state.leases holder).hasLease

inductive Action (Holder : Type u) where
  | tick (elapsed : Nat)
  | purge
  | acquire (holder : Holder)
  | release (holder : Holder)
  | get (position : Nat)
  | getFails (position : Nat)
  | decide (position : Nat)
  | set (position : Nat)
  | finish (position : Nat)
  | delete (position : Nat)

section

variable [DecidableEq Holder]

def State.update (state : State Holder) (holder : Holder) (lease : LeaderLease) : State Holder :=
  { state with leases := Function.update state.leases holder lease }

/-- The decision of `acquire`: the row is mine, or it is vacant. -/
def mayTake (holder : Holder) (now : Nat) (current : Option (Stored Holder)) : Bool :=
  match isLease current with
  | none => true
  | some record => record.holder = holder || record.expiresAt ≤ now

/-- The record `acquire` writes. -/
def written (holder : Holder) (now : Nat) : LeaseRecord Holder where
  holder := holder
  expiresAt := now + LEASE_TTL_MS

/-- One store operation or one continuation. -/
def step (state : State Holder) : Action Holder → Option (State Holder)
  | .tick elapsed => some { state with clock := state.clock + elapsed }
  | .purge =>
    if purged state.clock state.row then some { state with row := none } else none
  | .acquire holder =>
    some { state with
      calls := state.calls ++ [⟨holder, .getting state.clock⟩] }
  | .release holder =>
    if state.held holder then
      some { state.update holder { state.leases holder with hasLease := false } with
        calls := state.calls ++ [⟨holder, .deleting⟩] }
    else some state
  | .get position =>
    match state.calls[position]? with
    | some ⟨holder, .getting now⟩ =>
      let current :=
        if purged state.clock state.row then none else state.row
      some { state with
        calls := advanceCall state.calls position ⟨holder, .got now current⟩ }
    | _ => none
  | .getFails position =>
    -- `.catch(() => undefined)`: a failed read counts as an absent row
    match state.calls[position]? with
    | some ⟨holder, .getting now⟩ =>
      some { state with
        calls := advanceCall state.calls position ⟨holder, .got now none⟩ }
    | _ => none
  | .decide position =>
    match state.calls[position]? with
    | some ⟨holder, .got now current⟩ =>
      if mayTake holder now current then
        some { state with
          calls := advanceCall state.calls position ⟨holder, .setting now⟩ }
      else
        some { state.update holder { state.leases holder with hasLease := false } with
          calls := finishCall state.calls position }
    | _ => none
  | .set position =>
    match state.calls[position]? with
    | some ⟨holder, .setting now⟩ =>
      some { state with
        row := some (.lease (written holder now))
        calls := advanceCall state.calls position ⟨holder, .set now⟩ }
    | _ => none
  | .finish position =>
    match state.calls[position]? with
    | some ⟨holder, .set now⟩ =>
      some { state.update holder { hasLease := true, acquiredAt := some now } with
        calls := finishCall state.calls position }
    | _ => none
  | .delete position =>
    match state.calls[position]? with
    | some ⟨_, .deleting⟩ =>
      some { state with
        row := none
        calls := finishCall state.calls position }
    | _ => none

end

/-- The lease reports `held()`, and its last successful `acquire` happened
less than one lifetime ago. -/
def State.leads (state : State Holder) (holder : Holder) : Prop :=
  state.held holder = true ∧ ∃ since, (state.leases holder).acquiredAt = some since ∧
      state.clock < since + LEASE_TTL_MS

/-- No two different leases lead. -/
def MutualExclusion (state : State Holder) : Prop :=
  ∀ first second, state.leads first → state.leads second → first = second

/-- The `delete` in flight at a position finds no lease of another holder. -/
def ReleasesOwn (state : State Holder) (position : Nat) : Prop :=
  ∀ holder record, state.calls[position]? = some ⟨holder, .deleting⟩ →
      isLease state.row = some record → record.holder = holder

section

variable [DecidableEq Holder]

/-- The row a `set` finds: no lease, an expired one, or the writer's own with
an expiry that the write does not shorten. -/
def takesFreeRow (state : State Holder) (holder : Holder) (now : Nat) : Bool :=
  match isLease state.row with
  | none => true
  | some record =>
    record.expiresAt ≤ state.clock || (record.holder = holder &&
        record.expiresAt ≤ now + LEASE_TTL_MS)

/-- The row a `delete` finds is the releaser's own or holds no lease, and the
releaser has not acquired again. -/
def deletesReleasedRow (state : State Holder) (holder : Holder) : Bool :=
  (match isLease state.row with
    | none => true
    | some record => record.holder = holder) &&
  !state.held holder &&
  state.calls.all fun call =>
    match call with
    | ⟨caller, .set _⟩ => caller ≠ holder
    | _ => true

/-- The writes of the row that agree with what their caller read: no other
call has moved the row between the read of an `acquire` and its `set`, or
between the start of a `release` and its `delete`. -/
def undisturbed (state : State Holder) : Action Holder → Bool
  | .set position =>
    match state.calls[position]? with
    | some ⟨holder, .setting now⟩ => takesFreeRow state holder now
    | _ => true
  | .delete position =>
    match state.calls[position]? with
    | some ⟨holder, .deleting⟩ => deletesReleasedRow state holder
    | _ => true
  | _ => true

theorem takesFreeRow_iff (state : State Holder) (holder : Holder) (now : Nat) :
    takesFreeRow state holder now = true ↔ ∀ record, isLease state.row = some record →
        record.expiresAt ≤ state.clock ∨ (record.holder = holder ∧
            record.expiresAt ≤ now + LEASE_TTL_MS) := by
  unfold takesFreeRow
  cases found : isLease state.row with
  | none => simp
  | some record => simp

theorem deletesReleasedRow_iff (state : State Holder) (holder : Holder) :
    deletesReleasedRow state holder = true ↔ (∀ record, isLease state.row = some record →
        record.holder = holder) ∧ state.held holder = false ∧
      ∀ since, ⟨holder, .set since⟩ ∉ state.calls := by
  unfold deletesReleasedRow
  rw [Bool.and_eq_true, Bool.and_eq_true, List.all_eq_true, and_assoc]
  refine and_congr ?_ (and_congr (by simp) ?_)
  · cases found : isLease state.row with
    | none => simp
    | some record => simp
  · constructor
    · intro apart since member
      simpa using apart _ member
    · rintro absent ⟨caller, phase⟩ member
      cases phase with
      | set since =>
        have different : caller ≠ holder := by
          rintro rfl
          exact absent since member
        simpa using different
      | getting now => rfl
      | got now current => rfl
      | setting now => rfl
      | deleting => rfl

end

/-- Until one lifetime after `since`, the row is a lease of `holder` that
lasts at least that long. -/
def State.backs (state : State Holder) (holder : Holder) (since : Nat) : Prop :=
  state.clock < since + LEASE_TTL_MS → ∃ record, isLease state.row = some record ∧
      record.holder = holder ∧
      since + LEASE_TTL_MS ≤ record.expiresAt

/-- The row backs every lease that reports `held()` and every `acquire` whose
`set` has taken effect. -/
structure LeasesBacked (state : State Holder) : Prop where
  held : ∀ holder since, state.held holder = true →
    (state.leases holder).acquiredAt = some since → state.backs holder since
  writing : ∀ holder since, ⟨holder, .set since⟩ ∈ state.calls → state.backs holder since

theorem leasesBacked_start (row : Option (Stored Holder)) (clock : Nat) :
    LeasesBacked (State.start row clock) where
  held _ _ reported := by
    cases reported
  writing _ _ member := by
    cases member

variable {state : State Holder}

theorem backs_unique {first second : Holder} {since later : Nat}
    (firstBacked : state.backs first since) (firstLive : state.clock < since + LEASE_TTL_MS)
    (secondBacked : state.backs second later) (secondLive : state.clock < later + LEASE_TTL_MS) :
    first = second := by
  obtain ⟨record, found, rfl, _⟩ := firstBacked firstLive
  obtain ⟨same, foundAgain, rfl, _⟩ := secondBacked secondLive
  rw [found] at foundAgain
  cases foundAgain
  rfl

theorem mutualExclusion_of_leasesBacked (backed : LeasesBacked state) :
    MutualExclusion state := by
  rintro first second ⟨firstHeld, since, firstAcquired, firstLive⟩
    ⟨secondHeld, later, secondAcquired, secondLive⟩
  exact backs_unique (backed.held first since firstHeld firstAcquired) firstLive
    (backed.held second later secondHeld secondAcquired) secondLive

/-- Backing survives the passing of time while the row stays. -/
theorem backs_of_row_eq {next : State Holder} {holder : Holder} {since : Nat}
    (rowEq : next.row = state.row) (later : state.clock ≤ next.clock)
    (backed : state.backs holder since) :
    next.backs holder since := by
  intro live
  rw [rowEq]
  exact backed (Nat.lt_of_le_of_lt later live)

theorem not_purged_of_backs {holder : Holder} {since : Nat} (backed : state.backs holder since)
    (live : state.clock < since + LEASE_TTL_MS) :
    purged state.clock state.row = false := by
  obtain ⟨record, found, _, lasting⟩ := backed live
  have unexpired : state.clock < record.expiresAt := Nat.lt_of_lt_of_le live lasting
  simp only [purged, found, LeaseRecord.expiresAtEpochSeconds]
  apply decide_eq_false
  rw [Nat.not_lt]
  exact Nat.div_le_div_right (by omega)

private theorem leasesBacked_of_row_eq {next : State Holder} (backed : LeasesBacked state)
    (rowEq : next.row = state.row) (later : state.clock ≤ next.clock)
    (held : ∀ holder since, next.held holder = true →
      (next.leases holder).acquiredAt = some since → (state.held holder = true ∧
          (state.leases holder).acquiredAt = some since) ∨
        ⟨holder, .set since⟩ ∈ state.calls)
    (writing : ∀ holder since, ⟨holder, .set since⟩ ∈ next.calls →
      ⟨holder, .set since⟩ ∈ state.calls) :
    LeasesBacked next where
  held holder since reported acquired := by
    apply backs_of_row_eq rowEq later
    rcases held holder since reported acquired with
      ⟨before, acquiredBefore⟩ | member
    · exact backed.held holder since before acquiredBefore
    · exact backed.writing holder since member
  writing holder since member :=
    backs_of_row_eq rowEq later (backed.writing holder since (writing holder since member))

section

variable [DecidableEq Holder] {state : State Holder} {holder : Holder}

private theorem held_of_withdrawn {target : Holder} {since : Nat} (reported :
      (state.update target { state.leases target with hasLease := false }).held holder = true)
    (acquired :
      ((state.update target { state.leases target with hasLease := false }).leases
          holder).acquiredAt = some since) :
    state.held holder = true ∧ (state.leases holder).acquiredAt = some since := by
  simp only [State.held, State.update] at reported acquired ⊢
  by_cases same : holder = target
  · subst same
    simp only [Function.update_self] at reported
    cases reported
  · simp only [Function.update_of_ne same] at reported acquired
    exact ⟨reported, acquired⟩

private theorem leasesBacked_set {position : Nat} {now : Nat} (backed : LeasesBacked state)
    (free : takesFreeRow state holder now = true) :
    LeasesBacked { state with
      row := some (.lease (written holder now))
      calls := advanceCall state.calls position ⟨holder, .set now⟩ } := by
  rw [takesFreeRow_iff] at free
  have keeps : ∀ other since, state.backs other since →
      State.backs { state with
        row := some (.lease (written holder now))
        calls := advanceCall state.calls position ⟨holder, .set now⟩ }
        other since := by
    intro other since before live
    obtain ⟨record, found, owner, lasting⟩ := before live
    rcases free record found with expired | ⟨mine, shorter⟩
    · -- an expired row backs nobody
      have unexpired : state.clock < record.expiresAt := Nat.lt_of_lt_of_le live lasting
      exact absurd expired (Nat.not_le.mpr unexpired)
    · exact ⟨written holder now, rfl, by rw [← owner, mine]; rfl, Nat.le_trans lasting shorter⟩
  constructor
  · intro other since reported acquired
    exact keeps other since (backed.held other since reported acquired)
  · intro other since member
    rcases mem_advanceCall member with same | older
    · cases same
      intro _
      exact ⟨written holder now, rfl, rfl, Nat.le_refl _⟩
    · exact keeps other since (backed.writing other since older)

private theorem leasesBacked_delete {position : Nat} (backed : LeasesBacked state)
    (released : deletesReleasedRow state holder = true) :
    LeasesBacked { state with
      row := none
      calls := finishCall state.calls position } := by
  rw [deletesReleasedRow_iff] at released
  obtain ⟨own, withdrawn, unwritten⟩ := released
  constructor
  · intro other since reported acquired live
    obtain ⟨record, found, owner, _⟩ :=
      backed.held other since reported acquired live
    have same : other = holder := by rw [← owner, own record found]
    subst same
    rw [show state.held other = true from reported] at withdrawn
    cases withdrawn
  · intro other since member live
    have inFlight := mem_finishCall member
    obtain ⟨record, found, owner, _⟩ :=
      backed.writing other since inFlight live
    have same : other = holder := by rw [← owner, own record found]
    subst same
    exact absurd inFlight (unwritten since)

omit [DecidableEq Holder] in
private theorem leasesBacked_advance {position : Nat} {call : Call Holder}
    (backed : LeasesBacked state) (notSet : ∀ holder since, ⟨holder, .set since⟩ ≠ call) :
    LeasesBacked { state with calls := advanceCall state.calls position call } := by
  refine leasesBacked_of_row_eq backed rfl (Nat.le_refl _)
    (fun _ _ reported acquired => Or.inl ⟨reported, acquired⟩) ?_
  intro other since member
  exact (mem_advanceCall member).resolve_left (notSet other since)

theorem leasesBacked_step (state : State Holder) (action : Action Holder) (next : State Holder)
    (backed : LeasesBacked state) (allowed : undisturbed state action = true)
    (taken : step state action = some next) :
    LeasesBacked next := by
  cases action with
  | tick elapsed =>
    cases taken
    exact leasesBacked_of_row_eq backed rfl (Nat.le_add_right _ _)
      (fun _ _ reported acquired => Or.inl ⟨reported, acquired⟩)
      (fun _ _ member => member)
  | purge =>
    simp only [step] at taken
    split at taken
    next dropped =>
      cases taken
      constructor
      · intro holder since reported acquired live
        rw [not_purged_of_backs (backed.held holder since reported acquired) live] at dropped
        cases dropped
      · intro holder since member live
        rw [not_purged_of_backs (backed.writing holder since member) live] at dropped
        cases dropped
    next =>
      cases taken
  | acquire holder =>
    cases taken
    refine leasesBacked_of_row_eq backed rfl (Nat.le_refl _)
      (fun _ _ reported acquired => Or.inl ⟨reported, acquired⟩) ?_
    intro other since member
    simpa using member
  | release holder =>
    simp only [step] at taken
    split at taken
    · cases taken
      refine leasesBacked_of_row_eq backed rfl (Nat.le_refl _)
        (fun _ _ reported acquired => Or.inl (held_of_withdrawn reported acquired)) ?_
      intro other since member
      simpa using member
    · cases taken
      exact backed
  | get position =>
    simp only [step] at taken
    split at taken
    · cases taken
      exact leasesBacked_advance backed (by simp)
    · cases taken
  | getFails position =>
    simp only [step] at taken
    split at taken
    · cases taken
      exact leasesBacked_advance backed (by simp)
    · cases taken
  | decide position =>
    simp only [step] at taken
    split at taken
    · split at taken
      · cases taken
        exact leasesBacked_advance backed (by simp)
      · cases taken
        exact leasesBacked_of_row_eq backed rfl (Nat.le_refl _)
          (fun _ _ reported acquired => Or.inl (held_of_withdrawn reported acquired))
          (fun _ _ member => mem_finishCall member)
    · cases taken
  | set position =>
    simp only [step] at taken
    split at taken
    next holder now found =>
      cases taken
      simp only [undisturbed, found] at allowed
      exact leasesBacked_set backed allowed
    next =>
      cases taken
  | finish position =>
    simp only [step] at taken
    split at taken
    next holder now found =>
      cases taken
      refine leasesBacked_of_row_eq backed rfl (Nat.le_refl _) ?_
        (fun _ _ member => mem_finishCall member)
      intro other since reported acquired
      simp only [State.held, State.update] at reported acquired ⊢
      by_cases same : other = holder
      · subst same
        simp only [Function.update_self, Option.some.injEq] at acquired
        subst acquired
        exact Or.inr (mem_of_getElem?_eq_some found)
      · simp only [Function.update_of_ne same] at reported acquired
        exact Or.inl ⟨reported, acquired⟩
    next =>
      cases taken
  | delete position =>
    simp only [step] at taken
    split at taken
    next holder found =>
      cases taken
      simp only [undisturbed, found] at allowed
      exact leasesBacked_delete backed allowed
    next =>
      cases taken

/-- The release of a lease that leads starts with its own row. -/
theorem releasesOwn_of_leads {holder : Holder} {next : State Holder} (backed : LeasesBacked state)
    (leads : state.leads holder) (taken : step state (.release holder) = some next) :
    ReleasesOwn next state.calls.length := by
  obtain ⟨reported, since, acquired, live⟩ := leads
  obtain ⟨own, found, isOwn, _⟩ := backed.held holder since reported acquired live
  simp only [step, reported, if_true] at taken
  cases taken
  intro releaser record started stored
  simp only [List.getElem?_concat_length, Option.some.injEq, Call.mk.injEq] at started
  have stillFound : isLease state.row = some record := stored
  rw [found] at stillFound
  cases stillFound
  rw [← started.1]
  exact isOwn

/-- In every run whose writes of the row are undisturbed, no two leases ever
lead together, and no `delete` that can be taken next finds the lease of
another holder; a lease that leads starts its release with its own row. -/
theorem leader_exclusive (row : Option (Stored Holder)) (clock : Nat)
    (actions : List (Action Holder)) (state : State Holder)
    (executed :
      runGuarded step (fun state action => undisturbed state action = true)
        (State.start row clock) actions = some state) :
    MutualExclusion state ∧ (∀ position, undisturbed state (.delete position) = true →
        ReleasesOwn state position) ∧
      ∀ holder next, state.leads holder → step state (.release holder) = some next →
        ReleasesOwn next state.calls.length := by
  have backed : LeasesBacked state :=
    invariant_runGuarded LeasesBacked leasesBacked_step (leasesBacked_start row clock) executed
  refine ⟨mutualExclusion_of_leasesBacked backed, ?_, ?_⟩
  · intro position allowed holder record found stored
    simp only [undisturbed, found] at allowed
    exact ((deletesReleasedRow_iff state holder).mp allowed).1 record stored
  · intro holder next leads taken
    exact releasesOwn_of_leads backed leads taken

end

/-- Two leases read the vacant row before either writes it. -/
def bothAcquire : List (Action Bool) :=
  [.acquire false, .acquire true, .get 0, .get 1, .decide 0, .decide 1,
    .set 0, .set 1, .finish 0, .finish 0]

/-- A lease expires, another takes over, and the first hands its lease
back. -/
def lateRelease : List (Action Bool) :=
  [.acquire false, .get 0, .decide 0, .set 0, .finish 0, .tick LEASE_TTL_MS,
    .acquire true, .get 0, .decide 0, .set 0, .finish 0,
    .release false]

def bothAcquireEnd : State Bool :=
  ((runFrom step (State.start none 0) bothAcquire).getD (State.start none 0))

def lateReleaseEnd : State Bool :=
  ((runFrom step (State.start none 0) lateRelease).getD (State.start none 0))

/-- Without the condition two leases may lead together, and a release may
find and delete the row of another holder. -/
theorem leader_not_exclusive :
    ¬ (∀ (row : Option (Stored Bool)) (clock : Nat)
        (actions : List (Action Bool)) (state : State Bool),
        runFrom step (State.start row clock) actions = some state → MutualExclusion state) ∧
      ¬ (∀ (row : Option (Stored Bool)) (clock : Nat)
        (actions : List (Action Bool)) (state : State Bool),
        runFrom step (State.start row clock) actions = some state →
          ∀ position, ReleasesOwn state position) := by
  constructor
  · intro exclusive
    have together : false = true :=
      exclusive none 0 bothAcquire bothAcquireEnd rfl false true
        ⟨rfl, 0, rfl, by decide⟩ ⟨rfl, 0, rfl, by decide⟩
    cases together
  · intro own
    have owner : true = false :=
      own none 0 lateRelease lateReleaseEnd rfl 0 false (written true LEASE_TTL_MS) rfl rfl
    cases owner

def handOver : List (Action Bool) :=
  [.acquire false, .get 0, .decide 0, .set 0, .finish 0, .tick LEASE_RENEW_MS,
    .acquire false, .getFails 0, .decide 0, .set 0, .finish 0,
    .release false, .delete 0,
    .acquire true, .get 0, .decide 0, .set 0, .finish 0]

def handOverEnd : State Bool :=
  ((runFrom step (State.start none 0) handOver).getD (State.start none 0))

theorem leader_exclusive_handOver :
    handOverEnd.leads true ∧ MutualExclusion handOverEnd ∧
      (∀ position, undisturbed handOverEnd (.delete position) = true →
        ReleasesOwn handOverEnd position) ∧
      ∀ holder next, handOverEnd.leads holder →
        step handOverEnd (.release holder) = some next →
          ReleasesOwn next handOverEnd.calls.length :=
  ⟨⟨rfl, LEASE_RENEW_MS, rfl, by decide⟩, leader_exclusive none 0 handOver handOverEnd rfl⟩

end Aprovan.Runtime.Leader
