import Aprovan.Grants.Dispatch
import Aprovan.Library.Keyed
import Aprovan.Library.Runs

/-!
# Standing automations

A standing automation keeps the identity of its owner and no grants.  A
departure deactivates the automations of the member; registering and
reassigning take any owner they are given.
-/

namespace Aprovan.Automations

open Aprovan.Library Aprovan.Server Aprovan.Grants

inductive AutomationKind where
  | workflow
  | schedule
  | agentProfile

inductive AutomationStatus where
  | active
  | deactivated
  deriving DecidableEq

def ownerDepartedReason : Text := "owner departed".toList

structure StandingAutomationRecord where
  (id workspaceId : Text)
  kind : AutomationKind
  (name ownerId : Text)
  status : AutomationStatus
  deactivationReason : Option Text
  deactivatedAt : Option Nat
  (createdAt updatedAt : Nat)

variable (authority : DerivedAuthority) (workspaceId : Text)

def automationKey (id : Text) : Text :=
  workspaceId ++ ':' :: id

def departedKey (userId : Text) : Text :=
  workspaceId ++ ':' :: userId

def StandingAutomationRecord.key (record : StandingAutomationRecord) : Text :=
  automationKey record.workspaceId record.id

/-- The two collections of the module. -/
structure DerivedAuthority where
  automations : Keyed StandingAutomationRecord.key
  departedUserLevel : List Text

structure RegisterStandingAutomationInput where
  workspaceId : Text
  kind : AutomationKind
  (name ownerId : Text)
  id : Option Text

/-- The record that a registration sets; `fresh` is the id that is drawn. -/
def registeredAutomation (input : RegisterStandingAutomationInput) (fresh : Text) (now : Nat) :
    StandingAutomationRecord :=
  let id := input.id.getD fresh
  let existing :=
    authority.automations.find? (automationKey input.workspaceId id)
  { id := id
    workspaceId := input.workspaceId
    kind := input.kind
    name := input.name
    ownerId := input.ownerId
    status := (existing.map (·.status)).getD .active
    createdAt := (existing.map (·.createdAt)).getD now
    updatedAt := now
    deactivationReason := existing.bind (·.deactivationReason)
    deactivatedAt := existing.bind (·.deactivatedAt) }

def registerStandingAutomation (input : RegisterStandingAutomationInput)
    (fresh : Text) (now : Nat) :
    DerivedAuthority :=
  { authority with
    automations := authority.automations.put
      (registeredAutomation authority input fresh now) }

def userLevelCredentialGrantsResolvable (userId : Text) : Bool :=
  departedKey workspaceId userId ∉ authority.departedUserLevel

def canRunStandingAutomation (automationId : Text) : Bool :=
  (authority.automations.find? (automationKey workspaceId automationId)).any (·.status = .active)

def automationNotFound (automationId : Text) : ServiceError where
  message := "Standing automation ".toList ++ automationId ++ " not found".toList
  status := 404

/-- The arguments of `resolveAutomationDispatch`. -/
structure AutomationDispatch where
  (workspaceId automationId : Text)
  tool : ToolCall
  resource : Option Text
  credential : Option RequestCredential
  via : Option Via
  runContext : Option RunContext
  ownerGroupIds : Option (List Text)
  ownerRole : Option Role

inductive AutomationDispatchResult where
  | decided (decision : DispatchDecision)
  | skipped

/-- The request that is made in the name of the owner. -/
def ownerRequest (args : AutomationDispatch) (ownerId : Text) : DispatchRequest where
  principal := {
    sub := ownerId
    role := args.ownerRole.getD .member
    groupIds := args.ownerGroupIds.getD [] }
  via := args.via
  tool := args.tool
  resource := args.resource
  credential := args.credential
  runContext := args.runContext

/-- `resolveAutomationDispatch`; `evaluate` is `evaluateDispatch`, over what
is stored at the time. -/
def resolveAutomationDispatch (evaluate : DispatchRequest → Outcome DispatchDecision)
    (authority : DerivedAuthority) (args : AutomationDispatch) :
    Outcome AutomationDispatchResult :=
  match authority.automations.find? (automationKey args.workspaceId args.automationId) with
  | none => .error (automationNotFound args.automationId)
  | some record =>
    if record.status ≠ .active then .ok .skipped
    else if args.credential.any (·.level = .userOauth) &&
        !userLevelCredentialGrantsResolvable authority args.workspaceId record.ownerId then
      .ok (.decided (.deny .credentialUnconnected))
    else (evaluate (ownerRequest args record.ownerId)).map .decided

def isOwnedBy (userId : Text) (record : StandingAutomationRecord) : Bool :=
  record.workspaceId = workspaceId && record.ownerId = userId

def departedRecord (userId : Text) (now : Nat) (record : StandingAutomationRecord) :
    StandingAutomationRecord :=
  if !isOwnedBy workspaceId userId record then record
  else if record.status = .deactivated && record.deactivationReason = some ownerDepartedReason then
    record
  else
    { record with
      status := .deactivated
      deactivationReason := some ownerDepartedReason
      deactivatedAt := some now
      updatedAt := now }

theorem key_departedRecord (userId : Text) (now : Nat) (record : StandingAutomationRecord) :
    (departedRecord workspaceId userId now record).key = record.key := by
  unfold departedRecord
  split
  · rfl
  · split <;> rfl

def onMembershipDeparture (userId : Text) (now : Nat) : DerivedAuthority where
  departedUserLevel :=
    authority.departedUserLevel.insert (departedKey workspaceId userId)
  automations := authority.automations.revise
    (departedRecord workspaceId userId now)
    (key_departedRecord workspaceId userId now)

def notAnAdmin : ServiceError where
  message :=
    "Only workspace admins can reassign standing automations".toList
  status := 403

def adminOfAnother : ServiceError where
  message := "Admin must act within the automation's workspace".toList
  status := 403

/-- The acting principal of a reassignment. -/
structure ReassignActor where
  workspaceId : Text
  role : Role

structure Reassignment where
  (workspaceId automationId newOwnerId : Text)
  actor : ReassignActor

def Reassignment.key (args : Reassignment) : Text :=
  automationKey args.workspaceId args.automationId

def reassignable (args : Reassignment) : Outcome StandingAutomationRecord :=
  if args.actor.role ≠ .admin then .error notAnAdmin
  else if args.actor.workspaceId ≠ args.workspaceId then .error adminOfAnother
  else
    match authority.automations.find? args.key with
    | none => .error (automationNotFound args.automationId)
    | some record => .ok record

def reassignedRecord (record : StandingAutomationRecord) (newOwnerId : Text) (now : Nat) :
    StandingAutomationRecord where
  id := record.id
  workspaceId := record.workspaceId
  kind := record.kind
  name := record.name
  ownerId := newOwnerId
  status := .active
  deactivationReason := none
  deactivatedAt := none
  createdAt := record.createdAt
  updatedAt := now

def reassignAutomation (args : Reassignment) (now : Nat) : Outcome DerivedAuthority := do
  let record ← reassignable authority args
  return { authority with
    automations := authority.automations.put
      (reassignedRecord record args.newOwnerId now) }

/-- The collections, and the members who have departed and not rejoined, with
their workspaces. -/
structure AuthoritySystem extends DerivedAuthority where
  departed : List (Text × Text)

inductive AuthorityAct where
  | register (input : RegisterStandingAutomationInput) (fresh : Text)
      (now : Nat)
  | reassign (args : Reassignment) (now : Nat)
  | dispatch (args : AutomationDispatch)
  | depart (workspaceId userId : Text) (now : Nat)
  | rejoin (workspaceId userId : Text)

/-- A call that throws changes nothing; nothing listens to a member who
rejoins. -/
def authorityStep (system : AuthoritySystem) : AuthorityAct → Option AuthoritySystem
  | .register input fresh now =>
    some { system with
      toDerivedAuthority := registerStandingAutomation system.toDerivedAuthority input fresh now }
  | .reassign args now =>
    match reassignAutomation system.toDerivedAuthority args now with
    | .ok authority => some { system with toDerivedAuthority := authority }
    | .error _ => some system
  | .dispatch _ => some system
  | .depart workspaceId userId now =>
    some {
      toDerivedAuthority := onMembershipDeparture system.toDerivedAuthority workspaceId userId now
      departed := (workspaceId, userId) :: system.departed }
  | .rejoin workspaceId userId =>
    some { system with
      departed := system.departed.filter (· ≠ (workspaceId, userId)) }

def noAutomations : AuthoritySystem :=
  ⟨⟨Keyed.empty, []⟩, []⟩

def OwnerPresent (system : AuthoritySystem) (record : StandingAutomationRecord) : Prop :=
  (record.workspaceId, record.ownerId) ∉ system.departed

def ActiveOwnersPresent (system : AuthoritySystem) : Prop :=
  ∀ record ∈ system.automations.rows, record.status = .active → OwnerPresent system record

def AuthorityAct.givesOwner (key : Text) : AuthorityAct → Bool
  | .register input fresh _ => automationKey input.workspaceId (input.id.getD fresh) = key
  | .reassign args _ => args.key = key
  | _ => false

def wasDepartureDeactivated (record : StandingAutomationRecord) : Bool :=
  record.status = .deactivated && record.deactivationReason = some ownerDepartedReason

structure DepartedRunNothing
    (evaluate : DispatchRequest → Outcome DispatchDecision)
    (before : AuthoritySystem) (act : AuthorityAct) : Prop where
  /-- What a departure has deactivated becomes active only where the act
  gives it an owner who is present. -/
  revived : ∀ after key old new, authorityStep before act = some after →
    before.automations.find? key = some old → wasDepartureDeactivated old = true →
        after.automations.find? key = some new → new.status = .active →
          act.givesOwner key = true ∧ OwnerPresent after new
  /-- What may run, runs for an owner who is present. -/
  scheduled : ∀ workspaceId automationId,
    canRunStandingAutomation before.toDerivedAuthority workspaceId automationId = true →
      ∃ record, before.automations.find? (automationKey workspaceId automationId) = some record ∧
        OwnerPresent before record
  dispatched : ∀ args decision, act = .dispatch args →
    resolveAutomationDispatch evaluate before.toDerivedAuthority args = .ok (.decided decision) →
      ∃ record, before.automations.find?
          (automationKey args.workspaceId args.automationId) = some record ∧
        OwnerPresent before record

def namesPresentOwner (system : AuthoritySystem) : AuthorityAct → Bool
  | .register input fresh _ =>
    (system.automations.find? (automationKey input.workspaceId
      (input.id.getD fresh))).any (·.status = .deactivated) ||
      (input.workspaceId, input.ownerId) ∉ system.departed
  | .reassign args _ =>
    match reassignable system.toDerivedAuthority args with
    | .ok record => (record.workspaceId, args.newOwnerId) ∉ system.departed
    | .error _ => true
  | _ => true

section

variable {authority : DerivedAuthority} {system after : AuthoritySystem}
  {record : StandingAutomationRecord}

theorem find?_of_reassignable {args : Reassignment}
    (found : reassignable authority args = .ok record) :
    authority.automations.find? args.key = some record := by
  unfold reassignable at found
  split at found
  · cases found
  · split at found
    · cases found
    · split at found
      · cases found
      · next isHeld =>
          cases found
          exact isHeld

theorem reassign_cases {args : Reassignment} {now : Nat}
    (taken : authorityStep system (.reassign args now) = some after) :
    after = system ∨ ∃ record, reassignable system.toDerivedAuthority args = .ok record ∧
        after = { system with
          automations := system.automations.put
            (reassignedRecord record args.newOwnerId now) } := by
  unfold authorityStep reassignAutomation at taken
  cases found : reassignable system.toDerivedAuthority args with
  | error thrown =>
    simp only [found] at taken
    cases taken
    exact Or.inl rfl
  | ok record =>
    simp only [found] at taken
    cases taken
    exact Or.inr ⟨record, rfl, rfl⟩

theorem departedRecord_of_active {workspaceId userId : Text} {now : Nat} (active :
      (departedRecord workspaceId userId now record).status = .active) :
    departedRecord workspaceId userId now record = record ∧
      (record.workspaceId, record.ownerId) ≠ (workspaceId, userId) := by
  unfold departedRecord at active ⊢
  by_cases owned : isOwnedBy workspaceId userId record = true
  · rw [owned, Bool.not_true, if_neg Bool.false_ne_true] at active
    split at active
    · next already =>
        rw [active] at already
        simp at already
    · cases active
  · have other := Bool.eq_false_iff.mpr owned
    rw [other, Bool.not_false, if_pos rfl]
    refine ⟨rfl, ?_⟩
    intro same
    cases same
    simp [isOwnedBy] at owned

theorem registeredAutomation_of_active
    {input : RegisterStandingAutomationInput} {fresh : Text} {now : Nat}
    (active : (registeredAutomation authority input fresh now).status = .active) :
    (authority.automations.find? (automationKey input.workspaceId
      (input.id.getD fresh))).any (·.status = .deactivated) = false := by
  cases existing : authority.automations.find?
      (automationKey input.workspaceId (input.id.getD fresh)) with
  | none => rfl
  | some record =>
    simp only [registeredAutomation, existing, Option.map_some, Option.getD_some] at active
    simp [active]

end

section

variable {system after : AuthoritySystem} {act : AuthorityAct}

section

variable (before : ActiveOwnersPresent system)
  (named : namesPresentOwner system act = true)
  (taken : authorityStep system act = some after)

include before named taken

theorem activeOwnersPresent_step : ActiveOwnersPresent after := by
  intro record member active
  cases act with
  | register input fresh now =>
    cases taken
    rcases Keyed.mem_rows_put.mp member with new | old
    · subst new
      have found := registeredAutomation_of_active active
      have present : (input.workspaceId, input.ownerId) ∉ system.departed := by
        simpa [namesPresentOwner, found] using named
      exact present
    · exact before record old.1 active
  | reassign args now =>
    rcases reassign_cases taken with same | ⟨found, permitted, same⟩
    · subst same
      exact before record member active
    · subst same
      rcases Keyed.mem_rows_put.mp member with new | old
      · subst new
        have present : (found.workspaceId, args.newOwnerId) ∉ system.departed := by
          simpa [namesPresentOwner, permitted] using named
        exact present
      · exact before record old.1 active
  | dispatch args =>
    cases taken
    exact before record member active
  | depart workspaceId userId now =>
    cases taken
    have keeps := key_departedRecord workspaceId userId now
    obtain ⟨old, held, changed⟩ :=
      (Keyed.mem_rows_revise keeps).mp member
    subst changed
    obtain ⟨same, other⟩ := departedRecord_of_active active
    rw [same] at active ⊢
    intro left
    rcases List.mem_cons.mp left with isThis | earlier
    · exact other isThis
    · exact before old held active earlier
  | rejoin workspaceId userId =>
    cases taken
    intro left
    exact before record member active (List.mem_of_mem_filter left)

theorem revived_step {key : Text} {old new : StandingAutomationRecord}
    (found : system.automations.find? key = some old)
    (deactivated : wasDepartureDeactivated old = true)
    (held : after.automations.find? key = some new) (active : new.status = .active) :
    act.givesOwner key = true ∧ OwnerPresent after new := by
  have present : OwnerPresent after new :=
    activeOwnersPresent_step before named taken new (Keyed.find?_eq_some_iff.mp held).1 active
  refine ⟨?_, present⟩
  have stays : ∀ record, record = old → record.status ≠ .active := by
    intro record same isActive
    rw [← same, wasDepartureDeactivated, isActive] at deactivated
    simp at deactivated
  have unchanged : after.automations.find? key ≠ system.automations.find? key := by
    intro same
    rw [same, found] at held
    cases held
    exact stays old rfl active
  cases act with
  | register input fresh now =>
    cases taken
    by_cases own : (registeredAutomation system.toDerivedAuthority input fresh now).key = key
    · exact decide_eq_true own
    · exact absurd (Keyed.find?_put_of_ne _ own) unchanged
  | reassign args now =>
    rcases reassign_cases taken with same | ⟨record, permitted, same⟩
    · subst same
      exact absurd rfl unchanged
    · subst same
      have isKept := (Keyed.find?_eq_some_iff.mp (find?_of_reassignable permitted)).2
      by_cases own : args.key = key
      · exact decide_eq_true own
      · have other : (reassignedRecord record args.newOwnerId now).key ≠ key := by
          intro same
          exact own (isKept.symm.trans same)
        exact absurd (Keyed.find?_put_of_ne _ other) unchanged
  | dispatch args =>
    cases taken
    exact absurd rfl unchanged
  | depart workspaceId userId now =>
    cases taken
    have revised : (onMembershipDeparture system.toDerivedAuthority
        workspaceId userId now).automations.find? key = some new := held
    rw [onMembershipDeparture, Keyed.find?_revise, found, Option.map_some] at revised
    cases revised
    have kept := (departedRecord_of_active active).1
    exact absurd active (stays _ kept)
  | rejoin workspaceId userId =>
    cases taken
    exact absurd rfl unchanged

end

theorem present_of_canRun (before : ActiveOwnersPresent system) {workspaceId automationId : Text}
    (may : canRunStandingAutomation system.toDerivedAuthority workspaceId automationId = true) :
    ∃ record, system.automations.find? (automationKey workspaceId automationId) = some record ∧
      OwnerPresent system record := by
  unfold canRunStandingAutomation at may
  cases found : system.automations.find? (automationKey workspaceId automationId) with
  | none =>
    rw [found] at may
    cases may
  | some record =>
    rw [found] at may
    have member := (Keyed.find?_eq_some_iff.mp found).1
    exact ⟨record, rfl, before record member (by simpa using may)⟩

theorem canRun_of_decided {evaluate : DispatchRequest → Outcome DispatchDecision}
    {authority : DerivedAuthority} {args : AutomationDispatch} {decision : DispatchDecision}
    (resolved : resolveAutomationDispatch evaluate authority args = .ok (.decided decision)) :
    canRunStandingAutomation authority args.workspaceId args.automationId = true := by
  unfold resolveAutomationDispatch at resolved
  unfold canRunStandingAutomation
  cases found : authority.automations.find? (automationKey args.workspaceId args.automationId) with
  | none =>
    rw [found] at resolved
    cases resolved
  | some record =>
    simp only [found] at resolved
    by_cases active : record.status = .active
    · simp [active]
    · rw [if_pos active] at resolved
      cases resolved

theorem departedRunNothing_of_namesPresentOwner
    (evaluate : DispatchRequest → Outcome DispatchDecision) (before : ActiveOwnersPresent system)
    (named : namesPresentOwner system act = true) :
    DepartedRunNothing evaluate system act where
  revived := by
    intro after key old new taken found deactivated held active
    exact revived_step before named taken found deactivated held active
  scheduled := by
    intro workspaceId automationId may
    exact present_of_canRun before may
  dispatched := by
    intro args decision _ resolved
    exact present_of_canRun before (canRun_of_decided resolved)

theorem departed_owners_run_nothing (evaluate : DispatchRequest → Outcome DispatchDecision)
    {acts : List AuthorityAct} {system : AuthoritySystem}
    (meets : StepsMeet authorityStep (fun before act => namesPresentOwner before act = true)
      noAutomations acts) (executed : runFrom authorityStep noAutomations acts = some system) :
    ActiveOwnersPresent system ∧ StepsMeet authorityStep (DepartedRunNothing evaluate)
        noAutomations acts := by
  have initial : ActiveOwnersPresent noAutomations := by
    intro record impossible
    cases impossible
  have preserved : ∀ before act next, ActiveOwnersPresent before →
      namesPresentOwner before act = true →
        authorityStep before act = some next → ActiveOwnersPresent next := by
    intro before act next present named taken
    exact activeOwnersPresent_step present named taken
  constructor
  · exact invariant_of_stepsMeet ActiveOwnersPresent preserved initial meets executed
  · apply StepsMeet.weaken ActiveOwnersPresent preserved _ initial meets
    intro before act present named
    exact departedRunNothing_of_namesPresentOwner evaluate present named

end

def nightlyOf (ownerId : Text) : RegisterStandingAutomationInput where
  workspaceId := "ws-1".toList
  kind := .workflow
  name := "nightly-report".toList
  ownerId := ownerId
  id := some "nightly".toList

def reassignNightly (newOwnerId : Text) : Reassignment where
  workspaceId := "ws-1".toList
  automationId := "nightly".toList
  newOwnerId := newOwnerId
  actor := ⟨"ws-1".toList, .admin⟩

/-- The automation of a member who departs is reassigned to another, and the
member rejoins. -/
def handedOver : List AuthorityAct :=
  [.register (nightlyOf "alice".toList) [] 1, .depart "ws-1".toList "alice".toList 2,
    .reassign (reassignNightly "bob".toList) 3,
    .rejoin "ws-1".toList "alice".toList]

theorem departed_owners_run_nothing_handedOver :
    ∃ system, runFrom authorityStep noAutomations handedOver = some system ∧
        ActiveOwnersPresent system ∧
          StepsMeet authorityStep (DepartedRunNothing fun _ => .ok .allow)
            noAutomations handedOver := by
  have executed :
      (runFrom authorityStep noAutomations handedOver).map
        (·.automations.rows.map (·.status)) = some [.active] := by
    decide +kernel
  obtain ⟨system, found, _⟩ := Option.map_eq_some_iff.mp executed
  exact ⟨system, found, departed_owners_run_nothing (fun _ => .ok .allow)
    (by decide +kernel) found⟩

/-- A member who has departed is registered as an owner, and the automation
is active. -/
theorem departed_owner_is_registered :
    ¬ ∀ acts system, runFrom authorityStep noAutomations acts = some system →
        ActiveOwnersPresent system := by
  intro always
  have executed :
      (runFrom authorityStep noAutomations [.depart "ws-1".toList "alice".toList 1,
          .register (nightlyOf "alice".toList) [] 2]).map
        (fun system => system.automations.rows.any fun record =>
          record.status = .active && (record.workspaceId, record.ownerId) ∈ system.departed) =
        some true := by
    decide +kernel
  obtain ⟨system, found, active⟩ := Option.map_eq_some_iff.mp executed
  obtain ⟨record, member, both⟩ := List.any_eq_true.mp active
  simp only [Bool.and_eq_true, decide_eq_true_iff] at both
  exact always _ system found record member both.1 both.2

end Aprovan.Automations
