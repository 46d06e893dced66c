import Aprovan.Library.Keyed
import Aprovan.Library.Process
import Aprovan.Library.Text

/-!
# The daily budget of an app

`countDailyCall` reads the user's counter of the day, refuses the call if the
limit is reached, and writes the counter raised by one otherwise.  A read that
is refused counts as zero, and the store drops counters that have expired.
-/

namespace Aprovan.Apps

open Aprovan.Library

/-- A limit as a manifest may set it: any number above zero. -/
structure DailyLimit where
  calls : Rat
  positive : 0 < calls

def defaultDailyCalls : DailyLimit :=
  ⟨1000, by decide⟩

/-- The part of a manifest that is metered. -/
structure BudgetManifest where
  appId : Text
  daily : Option DailyLimit

/-- A call to charge, and the date on which it is charged. -/
structure UsageRequest where
  workspaceId : Text
  manifest : BudgetManifest
  (sub date : Text)

def UsageRequest.limit (request : UsageRequest) : DailyLimit :=
  request.manifest.daily.getD defaultDailyCalls

/-- `[A-Za-z0-9_-]`. -/
def isKeyLetter (letter : Char) : Bool :=
  letter.isAlphanum || letter = '_' || letter = '-'

def safeSub (sub : Text) : Text :=
  sub.map fun letter => if isKeyLetter letter then letter else '_'

def usageKey (sub date : Text) : Text :=
  safeSub sub ++ '/' :: date

/-- `svcScope("apps", "usage", appId)`. -/
def usageScope (appId : Text) : Text :=
  "svc#apps#usage#".toList ++ appId

structure UsageRow where
  (tenant scope key : Text)
  (used expiresAt : Nat)

def UsageRow.name (row : UsageRow) : Text × Text × Text :=
  (row.tenant, row.scope, row.key)

abbrev UsageCounters := Keyed UsageRow.name

inductive UsageStatement where
  | getUsage (tenant scope key : Text)
  | setUsage (tenant scope key : Text) (used : Nat)

abbrev UsageStatement.Answer : UsageStatement → Type
  | .getUsage _ _ _ => Option Nat
  | .setUsage _ _ _ _ => Unit

inductive UsageFailure where
  | store

inductive UsageChoice where
  | refuses
  /-- The statement is executed at a time, in seconds. -/
  | proceeds (now : Nat)

/-- A counter is kept for two days after it was written. -/
def usageLifetime : Nat := 2 * 24 * 3600

def executeUsage (choice : UsageChoice) (statement : UsageStatement) (counters : UsageCounters) :
    Except UsageFailure statement.Answer × UsageCounters :=
  match choice with
  | .refuses => (.error .store, counters)
  | .proceeds now =>
    match statement with
    | .getUsage tenant scope key =>
      (.ok (((counters.find? (tenant, scope, key)).filter
        (now ≤ ·.expiresAt)).map UsageRow.used), counters)
    | .setUsage tenant scope key used =>
      (.ok (), counters.put ⟨tenant, scope, key, used, now + usageLifetime⟩)

abbrev UsageCall := Process UsageStatement.Answer UsageFailure

def askUsage (statement : UsageStatement) : UsageCall statement.Answer :=
  Process.perform statement

structure DailyUsage where
  allowed : Bool
  used : Nat
  limit : DailyLimit
  date : Text

/-- What follows the read of the counter. -/
def chargeCall (request : UsageRequest) (used : Nat) : UsageCall DailyUsage := do
  if request.limit.calls ≤ used then pure ⟨false, used, request.limit, request.date⟩
  else
    askUsage (.setUsage request.workspaceId (usageScope request.manifest.appId)
      (usageKey request.sub request.date) (used + 1))
    pure ⟨true, used + 1, request.limit, request.date⟩

def countDailyCall (request : UsageRequest) : UsageCall DailyUsage := do
  let existing ← (askUsage (.getUsage request.workspaceId (usageScope request.manifest.appId)
    (usageKey request.sub request.date))).rescue fun _ => pure none
  chargeCall request (existing.getD 0)

abbrev UsageSystem :=
  Concurrent UsageCounters UsageRequest UsageStatement.Answer UsageFailure DailyUsage

inductive UsageAct where
  | start (request : UsageRequest)
  | advance (position : Nat) (choice : UsageChoice)
  /-- The store drops what has expired. -/
  | reap (now : Nat)

def usageStep (system : UsageSystem) : UsageAct → Option UsageSystem
  | .start request => some (system.start request (countDailyCall request))
  | .advance position choice => system.advance executeUsage position choice
  | .reap now => some { system with shared := system.shared.keep (now ≤ ·.expiresAt) }

def noUsage : UsageSystem :=
  ⟨Keyed.empty, [], []⟩

/-- What a call is charged to. -/
structure Charge where
  (workspaceId appId sub date : Text)
  deriving DecidableEq

def UsageRequest.charge (request : UsageRequest) : Charge :=
  ⟨request.workspaceId, request.manifest.appId, request.sub, request.date⟩

def UsageRequest.counter (request : UsageRequest) : Text × Text × Text :=
  (request.workspaceId, usageScope request.manifest.appId, usageKey request.sub request.date)

abbrev ChargedCall :=
  Call UsageRequest UsageStatement.Answer UsageFailure DailyUsage

def isAdmitted (call : ChargedCall) : Bool :=
  match call.process with
  | .done (.ok usage) => usage.allowed
  | _ => false

def admittedWhere (counted : UsageRequest → Bool) (system : UsageSystem) : Nat :=
  system.calls.countP fun call => counted call.request && isAdmitted call

def admittedOn (counter : Text × Text × Text) (system : UsageSystem) : Nat :=
  admittedWhere (·.counter = counter) system

structure DailyBudgetHeld (system : UsageSystem) : Prop where
  /-- If no call charged to a user, an app and a date has a higher limit, no
  more calls are admitted than the limit. -/
  capped : ∀ (charge : Charge) (limit : DailyLimit),
    (∀ call ∈ system.calls, call.request.charge = charge →
      call.request.limit.calls ≤ limit.calls) →
      (admittedWhere (·.charge = charge) system : Rat) ≤ limit.calls
  /-- Calls with different charges have different counters. -/
  apart : ∀ first ∈ system.calls, ∀ second ∈ system.calls,
    first.request.counter = second.request.counter → first.request.charge = second.request.charge

/-- The users of two calls are one, or their ids differ also in the letters
that a key may have. -/
def subsApart (first second : UsageRequest) : Bool :=
  first.sub = second.sub || safeSub first.sub ≠ safeSub second.sub

/-- A limit is a whole number, the ids of the users of an app stay apart as
keys, and what a call has read of its counter counts every call that was
admitted on it. -/
def countsEveryAdmission (system : UsageSystem) : UsageAct → Bool
  | .start request =>
    request.limit.calls.den = 1 && system.calls.all fun call =>
      call.request.workspaceId ≠ request.workspaceId ||
        call.request.manifest.appId ≠ request.manifest.appId ||
          call.request.date ≠ request.date || subsApart call.request request
  | .advance position (.proceeds _) =>
    match system.awaiting position with
    | some (.setUsage tenant scope key used) => used = admittedOn (tenant, scope, key) system + 1
    | _ => true
  | _ => true

theorem slash_not_mem_safeSub (sub : Text) : '/' ∉ safeSub sub := by
  intro member
  obtain ⟨letter, _, same⟩ := List.mem_map.mp member
  by_cases kept : isKeyLetter letter = true
  · rw [if_pos kept] at same
    rw [same] at kept
    revert kept
    decide
  · rw [if_neg kept] at same
    cases same

/-- A key tells the date, and of the user the letters that it may have. -/
theorem usageKey_eq_iff {first second firstDate secondDate : Text} :
    usageKey first firstDate = usageKey second secondDate ↔
      safeSub first = safeSub second ∧ firstDate = secondDate := by
  constructor
  · intro same
    have parts := congrArg (splitOn '/') same
    rw [usageKey, usageKey, splitOn_append_separator, splitOn_append_separator,
      splitOn_of_not_mem (slash_not_mem_safeSub first),
      splitOn_of_not_mem (slash_not_mem_safeSub second)] at parts
    obtain ⟨subs, dates⟩ := List.cons.inj parts
    exact ⟨subs, splitOn_injective '/' dates⟩
  · intro both
    rw [usageKey, usageKey, both.1, both.2]

theorem usageScope_eq_iff {first second : Text} :
    usageScope first = usageScope second ↔ first = second :=
  List.append_right_inj _

theorem counter_eq_iff {first second : UsageRequest} :
    first.counter = second.counter ↔ first.workspaceId = second.workspaceId ∧
        first.manifest.appId = second.manifest.appId ∧ safeSub first.sub = safeSub second.sub ∧
            first.date = second.date := by
  simp only [UsageRequest.counter, Prod.mk.injEq, usageKey_eq_iff, usageScope_eq_iff]

theorem counter_eq_of_charge_eq {first second : UsageRequest}
    (same : first.charge = second.charge) :
    first.counter = second.counter := by
  simp only [UsageRequest.charge, Charge.mk.injEq] at same
  obtain ⟨workspaces, apps, subs, dates⟩ := same
  exact counter_eq_iff.mpr ⟨workspaces, apps, by rw [subs], dates⟩

inductive ChargeState (request : UsageRequest) : UsageCall DailyUsage → Prop where
  | reading : ChargeState request (countDailyCall request)
  | writing (used : Nat) (below : (used : Rat) < request.limit.calls) :
      ChargeState request (chargeCall request used)
  | ended (outcome : Except UsageFailure DailyUsage) : ChargeState request (.done outcome)

variable {request : UsageRequest}

theorem chargeCall_of_below {used : Nat} (below : (used : Rat) < request.limit.calls) :
    chargeCall request used =
      (do
        askUsage (.setUsage request.workspaceId (usageScope request.manifest.appId)
          (usageKey request.sub request.date) (used + 1))
        pure ⟨true, used + 1, request.limit, request.date⟩) := by
  rw [chargeCall, if_neg (not_le.mpr below)]

theorem chargeCall_of_reached {used : Nat} (reached : request.limit.calls ≤ used) :
    chargeCall request used = pure ⟨false, used, request.limit, request.date⟩ := by
  rw [chargeCall, if_pos reached]

theorem chargeState_chargeCall (request : UsageRequest) (used : Nat) :
    ChargeState request (chargeCall request used) := by
  by_cases reached : request.limit.calls ≤ used
  · rw [chargeCall_of_reached reached]
    exact .ended _
  · exact .writing used (not_le.mp reached)

theorem not_isAdmitted_chargeCall (request : UsageRequest) (used : Nat) :
    isAdmitted ⟨request, chargeCall request used⟩ = false := by
  by_cases reached : request.limit.calls ≤ used
  · rw [chargeCall_of_reached reached]
    rfl
  · rw [chargeCall_of_below (not_le.mp reached)]
    rfl

theorem succ_le_of_below {limit : Rat} {used : Nat} (whole : limit.den = 1)
    (below : (used : Rat) < limit) :
    ((used + 1 : Nat) : Rat) ≤ limit := by
  have same := Rat.coe_int_num_of_den_eq_one whole
  rw [← same] at below ⊢
  have steps : (used : Int) < limit.num := by
    exact_mod_cast below
  have raised : ((used + 1 : Nat) : Int) ≤ limit.num := by omega
  exact_mod_cast raised

theorem chargeState_read (request : UsageRequest) (used : Nat) {concludes : Prop} :
    ChargeState request (chargeCall request used) ∧
      (isAdmitted ⟨request, chargeCall request used⟩ = true → concludes) := by
  refine ⟨chargeState_chargeCall request used, ?_⟩
  intro impossible
  rw [not_isAdmitted_chargeCall] at impossible
  cases impossible

theorem chargeState_resumed {statement : UsageStatement}
    {resume : Except UsageFailure statement.Answer → UsageCall DailyUsage}
    (state : ChargeState request (.await statement resume))
    (answer : Except UsageFailure statement.Answer) :
    ChargeState request (resume answer) ∧ (isAdmitted ⟨request, resume answer⟩ = true →
        (∃ given, answer = .ok given) ∧ ∃ used : Nat, (used : Rat) < request.limit.calls ∧
            statement = .setUsage request.workspaceId (usageScope request.manifest.appId)
              (usageKey request.sub request.date) (used + 1)) := by
  generalize awaits : Process.await statement resume = process at state
  cases state with
  | reading =>
    cases awaits
    cases answer with
    | ok found => exact chargeState_read request _
    | error thrown => exact chargeState_read request _
  | writing used below =>
    rw [chargeCall_of_below below] at awaits
    cases awaits
    cases answer with
    | ok given =>
      refine ⟨.ended _, ?_⟩
      intro _
      exact ⟨⟨given, rfl⟩, used, below, rfl⟩
    | error thrown =>
      refine ⟨.ended _, ?_⟩
      intro impossible
      cases impossible
  | ended outcome => cases awaits

/-- What the runs keep. -/
structure UsageInvariant (system : UsageSystem) : Prop where
  states : ∀ call ∈ system.calls, ChargeState call.request call.process
  whole : ∀ call ∈ system.calls, call.request.limit.calls.den = 1
  held : DailyBudgetHeld system

section

variable {system after : UsageSystem} {request : UsageRequest}
  {position : Nat} {choice : UsageChoice}

theorem admittedWhere_start (counted : UsageRequest → Bool) :
    admittedWhere counted (system.start request (countDailyCall request)) =
      admittedWhere counted system := by
  unfold admittedWhere Concurrent.start
  have waiting : isAdmitted ⟨request, countDailyCall request⟩ = false := rfl
  rw [countP_startCall, waiting, Bool.and_false, Bool.toNat_false, Nat.add_zero]

theorem counter_apart_of_countsEveryAdmission
    (counts : countsEveryAdmission system (.start request) = true) {call : ChargedCall}
    (member : call ∈ system.calls) (same : call.request.counter = request.counter) :
    call.request.charge = request.charge := by
  obtain ⟨workspaces, apps, subs, dates⟩ := counter_eq_iff.mp same
  have each := (Bool.and_eq_true_iff.mp counts).2
  have apart := List.all_eq_true.mp each call member
  simp only [workspaces, apps, dates, subsApart, subs, ne_eq,
    not_true_eq_false, decide_false, Bool.false_or, Bool.or_false,
    decide_eq_true_eq] at apart
  rw [UsageRequest.charge, UsageRequest.charge, workspaces, apps, apart, dates]

theorem usageInvariant_start (before : UsageInvariant system)
    (counts : countsEveryAdmission system (.start request) = true) :
    UsageInvariant (system.start request (countDailyCall request)) := by
  have cases : ∀ call : ChargedCall, call ∈ (system.start request (countDailyCall request)).calls →
        call ∈ system.calls ∨ call = ⟨request, countDailyCall request⟩ := by
    intro call member
    rcases List.mem_append.mp member with old | new
    · exact Or.inl old
    · exact Or.inr (List.mem_singleton.mp new)
  have whole : request.limit.calls.den = 1 :=
    decide_eq_true_iff.mp (Bool.and_eq_true_iff.mp counts).1
  refine ⟨?states, ?whole, ?capped, ?apart⟩
  case states =>
    intro call member
    rcases cases call member with old | new
    · exact before.states call old
    · rw [new]
      exact .reading
  case whole =>
    intro call member
    rcases cases call member with old | new
    · exact before.whole call old
    · rw [new]
      exact whole
  case capped =>
    intro charge limit bounded
    rw [admittedWhere_start]
    apply before.held.capped
    intro call member same
    exact bounded call (List.mem_append_left _ member) same
  case apart =>
    intro first firstMember second secondMember same
    rcases cases first firstMember with firstOld | firstNew
    · rcases cases second secondMember with secondOld | secondNew
      · exact before.held.apart first firstOld second secondOld same
      · rw [secondNew] at same ⊢
        exact counter_apart_of_countsEveryAdmission counts firstOld same
    · rcases cases second secondMember with secondOld | secondNew
      · rw [firstNew] at same ⊢
        exact (counter_apart_of_countsEveryAdmission counts secondOld same.symm).symm
      · rw [firstNew, secondNew]

theorem admittedWhere_charge_le (system : UsageSystem) (request : UsageRequest) :
    admittedWhere (·.charge = request.charge) system ≤ admittedOn request.counter system := by
  apply List.countP_mono_left
  intro call _ both
  rw [Bool.and_eq_true_iff, decide_eq_true_iff] at both ⊢
  exact ⟨counter_eq_of_charge_eq both.1, both.2⟩

section

variable {statement : UsageStatement}
  {resume : Except UsageFailure statement.Answer → UsageCall DailyUsage}

theorem admittedOn_lt_of_admitted
    (counts : countsEveryAdmission system (.advance position choice) = true)
    (state : ChargeState request (.await statement resume))
    (found : system.Awaits position request statement resume)
    (admitted : isAdmitted ⟨request, resume
      (executeUsage choice statement system.shared).1⟩ = true) :
    (admittedOn request.counter system : Rat) < request.limit.calls := by
  obtain ⟨⟨given, answered⟩, used, below, writes⟩ :=
    (chargeState_resumed state _).2 admitted
  have awaits := awaiting_eq_some_iff.mpr ⟨request, resume, found⟩
  rw [writes] at awaits
  cases choice with
  | refuses => cases answered
  | proceeds now =>
    simp only [countsEveryAdmission, awaits, decide_eq_true_eq] at counts
    have exact : used = admittedOn request.counter system := by
      have same : used + 1 = admittedOn request.counter system + 1 := counts
      omega
    rw [← exact]
    exact below

theorem admittedWhere_answered (counted : UsageRequest → Bool)
    (found : system.Awaits position request statement resume)
    (outcome : Except UsageFailure statement.Answer × UsageCounters) :
    admittedWhere counted (system.answered position request statement resume outcome) =
      admittedWhere counted system + (counted request &&
          isAdmitted ⟨request, resume outcome.1⟩).toNat := by
  have changed := countP_advanceCall
    (fun call : ChargedCall => counted call.request && isAdmitted call)
    ⟨request, resume outcome.1⟩ found
  have waiting : isAdmitted ⟨request, Process.await statement resume⟩ = false := rfl
  simp only [waiting, Bool.and_false, Bool.toNat_false, Nat.add_zero] at changed
  exact changed

theorem usageInvariant_answered (before : UsageInvariant system)
    (counts : countsEveryAdmission system (.advance position choice) = true)
    (found : system.Awaits position request statement resume) :
    UsageInvariant (system.answered position request statement resume
      (executeUsage choice statement system.shared)) := by
  have own := List.mem_of_getElem? found
  have state := before.states _ own
  have same := Concurrent.mem_requests_answered found (executeUsage choice statement system.shared)
  refine ⟨?states, ?whole, ?capped, ?apart⟩
  case states =>
    intro call member
    rcases List.mem_or_eq_of_mem_set member with old | new
    · exact before.states call old
    · rw [new]
      exact (chargeState_resumed state _).1
  case whole =>
    intro call member
    obtain ⟨old, held, asked⟩ := (same call.request).mp ⟨call, member, rfl⟩
    rw [← asked]
    exact before.whole old held
  case capped =>
    intro charge limit bounded
    have earlier : ∀ call ∈ system.calls, call.request.charge = charge →
        call.request.limit.calls ≤ limit.calls := by
      intro call member charged
      obtain ⟨later, held, asked⟩ :=
        (same call.request).mpr ⟨call, member, rfl⟩
      rw [← asked] at charged ⊢
      exact bounded later held charged
    rw [admittedWhere_answered _ found]
    by_cases raised : (decide (request.charge = charge) && isAdmitted ⟨request, resume
          (executeUsage choice statement system.shared).1⟩) = true
    · obtain ⟨charged, admitted⟩ := Bool.and_eq_true_iff.mp raised
      have charged := of_decide_eq_true charged
      have room := admittedOn_lt_of_admitted counts state found admitted
      have fits := succ_le_of_below (before.whole _ own) room
      have fewer := admittedWhere_charge_le system request
      rw [raised, Bool.toNat_true, ← charged]
      calc ((admittedWhere (·.charge = request.charge) system + 1 : Nat) : Rat)
          ≤ ((admittedOn request.counter system + 1 : Nat) : Rat) := by
            exact_mod_cast Nat.succ_le_succ fewer
        _ ≤ request.limit.calls := fits
        _ ≤ limit.calls := earlier _ own charged
    · rw [Bool.eq_false_iff.mpr raised, Bool.toNat_false, Nat.add_zero]
      exact before.held.capped charge limit earlier
  case apart =>
    intro first firstMember second secondMember counters
    obtain ⟨firstOld, firstHeld, firstAsked⟩ :=
      (same first.request).mp ⟨first, firstMember, rfl⟩
    obtain ⟨secondOld, secondHeld, secondAsked⟩ :=
      (same second.request).mp ⟨second, secondMember, rfl⟩
    rw [← firstAsked, ← secondAsked] at counters ⊢
    exact before.held.apart firstOld firstHeld secondOld secondHeld counters

end

theorem usageInvariant_step {act : UsageAct} (before : UsageInvariant system)
    (counts : countsEveryAdmission system act = true)
    (taken : usageStep system act = some after) :
    UsageInvariant after := by
  cases act with
  | start request =>
    cases taken
    exact usageInvariant_start before counts
  | advance position choice =>
    obtain ⟨request, statement, resume, found, same⟩ :=
      advance_eq_some_iff.mp taken
    rw [same]
    exact usageInvariant_answered before counts found
  | reap now =>
    cases taken
    exact ⟨before.states, before.whole, ⟨before.held.capped, before.held.apart⟩⟩

end

theorem usageInvariant_noUsage : UsageInvariant noUsage := by
  refine ⟨?states, ?whole, ?capped, ?apart⟩
  case states =>
    intro call impossible
    cases impossible
  case whole =>
    intro call impossible
    cases impossible
  case capped =>
    intro charge limit _
    exact limit.positive.le
  case apart =>
    intro call impossible
    cases impossible

theorem daily_budget_is_held {acts : List UsageAct} {system : UsageSystem}
    (meets : StepsMeet usageStep
      (fun before act => countsEveryAdmission before act = true) noUsage
      acts) (executed : runFrom usageStep noUsage acts = some system) :
    DailyBudgetHeld system := by
  have kept := invariant_of_stepsMeet UsageInvariant
    (fun before act after holds counts taken => usageInvariant_step holds counts taken)
    usageInvariant_noUsage meets executed
  exact kept.held

def onceADay (sub : Text) : UsageRequest where
  workspaceId := "ws-1".toList
  manifest := ⟨"app-1".toList, some ⟨1, by decide⟩⟩
  sub := sub
  date := "2026-01-01".toList

/-- Two users call, one after the other, and one of them calls again. -/
def budgetsKept : List UsageAct :=
  [.start (onceADay "ann".toList), .advance 0 (.proceeds 0),
    .advance 0 (.proceeds 0), .start (onceADay "bob".toList),
    .start (onceADay "ann".toList), .advance 1 (.proceeds 1),
    .advance 2 (.proceeds 1), .advance 1 (.proceeds 2)]

theorem daily_budget_is_held_budgetsKept :
    ∃ system, runFrom usageStep noUsage budgetsKept = some system ∧ DailyBudgetHeld system := by
  have executed :
      (runFrom usageStep noUsage budgetsKept).map
        (·.calls.map isAdmitted) = some [true, true, false] := by
    decide +kernel
  obtain ⟨system, found, _⟩ := Option.map_eq_some_iff.mp executed
  exact ⟨system, found, daily_budget_is_held (by decide +kernel) found⟩

/-- Two calls of one user read the counter before either of them writes it,
and both are admitted where the limit is one. -/
theorem budget_is_overrun :
    ¬ ∀ acts system, runFrom usageStep noUsage acts = some system → DailyBudgetHeld system := by
  intro always
  have executed :
      (runFrom usageStep noUsage [.start (onceADay "ann".toList), .start (onceADay "ann".toList),
          .advance 0 (.proceeds 0), .advance 1 (.proceeds 0),
          .advance 0 (.proceeds 0), .advance 1 (.proceeds 0)]).map
        (fun system => (system.calls.map (·.request.limit.calls),
          admittedWhere (·.charge = (onceADay "ann".toList).charge) system)) =
        some ([1, 1], 2) := by
    decide +kernel
  obtain ⟨system, found, seen⟩ := Option.map_eq_some_iff.mp executed
  obtain ⟨limits, admitted⟩ := Prod.mk.inj seen
  have bounded : ∀ call ∈ system.calls, call.request.charge = (onceADay "ann".toList).charge →
        call.request.limit.calls ≤ (1 : Rat) := by
    intro call member _
    have listed : call.request.limit.calls ∈ ([1, 1] : List Rat) := by
      rw [← limits]
      exact List.mem_map_of_mem member
    simp at listed
    exact listed.le
  have capped := (always _ system found).capped
    (onceADay "ann".toList).charge ⟨1, by decide⟩ bounded
  rw [admitted] at capped
  exact absurd capped (by decide)

end Aprovan.Apps
