import Aprovan.Identity.Invites

/-!
# Invites are single-use

`consume` reads the row and then deletes it whether or not it is still there,
the participant of an instance is minted before that, and the membership is put
after it.  The law holds in every run in which a redeeming statement finds the
row and no other call's participant, and no membership is refused.
-/

namespace Aprovan.Identity

open Aprovan.Library Aprovan.Apps

def hasToken (inviteToken : Text) (invite : InviteRecord) : Bool :=
  invite.inviteToken = inviteToken

def upsertMembership (rows : List MembershipRecord) (record : MembershipRecord) :
    List MembershipRecord :=
  rows.filter (fun row =>
    ¬ (row.workspaceId = record.workspaceId ∧ row.userId = record.userId)) ++
    [record]

def answerStatement : (statement : InviteStatement) → InviteStores →
    statement.Answer × InviteStores
  | .now, stores => (stores.clock, stores)
  | .selectPending inviteToken now, stores =>
    (stores.invites.find? fun invite =>
      hasToken inviteToken invite && decide (now < invite.expiresAt),
      stores)
  | .selectInvite inviteToken, stores => (stores.invites.find? (hasToken inviteToken), stores)
  | .deleteInvite inviteToken, stores =>
    (stores.invites.countP (hasToken inviteToken),
      { stores with
        invites := stores.invites.filter (!hasToken inviteToken ·) })
  | .readInstance workspaceId instanceId, stores =>
    (stores.instances workspaceId instanceId, stores)
  | .readInstall workspaceId appId, stores => (stores.installHosting workspaceId appId, stores)
  | .getMembership workspaceId userId, stores =>
    (stores.memberships.find? fun row =>
      row.workspaceId = workspaceId ∧ row.userId = userId, stores)
  | .writeInstance workspaceId instanceId record, stores =>
    ((), { stores with
      instances := fun workspace key =>
        if workspace = workspaceId ∧ key = instanceId then some record
        else stores.instances workspace key })
  | .putMembership record, stores =>
    ((), { stores with
      memberships := upsertMembership stores.memberships record })
  | .addUserToGroup record, stores =>
    ((), { stores with userGroups := stores.userGroups.insert record })

/-- Every statement but a clock reading may be refused. -/
def executeStatement (refused : Bool) (statement : InviteStatement) (stores : InviteStores) :
    Except InviteFailure statement.Answer × InviteStores :=
  if refused && statement ≠ .now then (.error .store, stores)
  else (.ok (answerStatement statement stores).1, (answerStatement statement stores).2)

inductive InviteRequest where
  | consume (inviteToken : Text) (userId : Option Text)
  | revoke (inviteToken : Text)
  | accept (inviteToken userId : Text)

namespace InviteRequest

def inviteToken : InviteRequest → Text
  | .consume inviteToken _ => inviteToken
  | .revoke inviteToken => inviteToken
  | .accept inviteToken _ => inviteToken

/-- The request calls `consumeInvite`. -/
def consumes : InviteRequest → Bool
  | .revoke _ => false
  | _ => true

end InviteRequest

inductive InviteReply where
  | consumed (invite : Option InviteRecord)
  | revoked (removed : Bool)
  | accepted (reply : AcceptReply)

def serveInvite (operations : InviteOperations) : InviteRequest → InviteCall InviteReply
  | .consume inviteToken userId => do
      pure (.consumed (← consumeInvite operations inviteToken userId))
  | .revoke inviteToken => do
      pure (.revoked (← operations.revoke inviteToken))
  | .accept inviteToken userId => do
      pure (.accepted (← acceptInvite operations inviteToken userId))

abbrev InviteSystem :=
  Concurrent InviteStores InviteRequest InviteStatement.Answer InviteFailure InviteReply

inductive InviteAct where
  | start (request : InviteRequest)
  /-- The statement that the call at a position awaits is executed. -/
  | advance (position : Nat) (refused : Bool)
  | tick (seconds : Nat)
  /-- A row past its time to live disappears. -/
  | reap (inviteToken : Text)

def isExpired (now : Nat) (inviteToken : Text) (invite : InviteRecord) : Bool :=
  hasToken inviteToken invite && invite.expiresAt ≤ now

def inviteStep (backend : IdentityBackend) (system : InviteSystem) :
    InviteAct → Option InviteSystem
  | .start request => some (system.start request (serveInvite backend.invites request))
  | .advance position refused => system.advance executeStatement position refused
  | .tick seconds =>
    some { system with
      shared := { system.shared with
        clock := system.shared.clock + seconds } }
  | .reap inviteToken =>
    some { system with
      shared := { system.shared with
        invites := system.shared.invites.filter
          (!isExpired system.shared.clock inviteToken ·) } }

def noInviteCalls (stores : InviteStores) : InviteSystem :=
  ⟨stores, [], []⟩

abbrev InviteEntry := Executed InviteStatement.Answer InviteFailure

def succeeded (entry : InviteEntry) : Bool :=
  match entry.answer with
  | .ok _ => true
  | .error _ => false

/-- With the deletion `consume` returns the invite, and with the record of
the instance the participant is minted. -/
def redeemsBy : InviteStatement → Bool
  | .deleteInvite _ => true
  | .writeInstance _ _ _ => true
  | _ => false

def mintsBy : InviteStatement → Bool
  | .writeInstance _ _ _ => true
  | _ => false

variable (system : InviteSystem)

/-- The entry is a statement of a call of `consumeInvite` on the token by
which the call returns the invite or mints a participant. -/
def IsRedemption (inviteToken : Text) (entry : InviteEntry) : Prop :=
  ∃ request ∈ system.requestAt entry.caller, request.consumes ∧ request.inviteToken = inviteToken ∧
    redeemsBy entry.statement ∧ succeeded entry
  deriving Decidable

/-- A deletion; a call deletes the row of its own token only. -/
def IsDeletion (entry : InviteEntry) : Prop :=
  (∃ inviteToken, entry.statement = .deleteInvite inviteToken) ∧ succeeded entry

/-- The entry is the deletion after which `revoke` returns true. -/
def IsRevocation (inviteToken : Text) (entry : InviteEntry) : Prop :=
  system.requestAt entry.caller = some (.revoke inviteToken) ∧ IsDeletion entry

def DeletesNothing (position : Nat) : Prop :=
  ∀ entry ∈ system.history, entry.caller = position → ¬ IsDeletion entry

structure SingleUse : Prop where
  /-- A call that returned the invite is among the redemptions. -/
  returned : ∀ position inviteToken userId invite,
    system.calls[position]? = some ⟨.consume inviteToken userId,
          .done (.ok (.consumed (some invite)))⟩ →
      ∃ entry ∈ system.history, entry.caller = position ∧ IsRedemption system inviteToken entry
  /-- A revoke that returned true is among the revocations. -/
  revoked : ∀ position inviteToken, system.calls[position]? =
        some ⟨.revoke inviteToken, .done (.ok (.revoked true))⟩ →
      ∃ entry ∈ system.history, entry.caller = position ∧ IsRevocation system inviteToken entry
  once : ∀ inviteToken, ∀ first ∈ system.history, ∀ second ∈ system.history,
    IsRedemption system inviteToken first →
      IsRedemption system inviteToken second → first.caller = second.caller
  noneAfterRevoke : ∀ inviteToken before revocation after,
    system.history = before ++ revocation :: after → IsRevocation system inviteToken revocation →
        ∀ entry ∈ after, ¬ IsRedemption system inviteToken entry
  failedLeaves : ∀ position inviteToken userId reply, system.calls[position]? =
        some ⟨.accept inviteToken userId, .done (.ok (.accepted reply))⟩ →
      reply.status ≠ 200 → DeletesNothing system position

def IsMint (inviteToken : Text) (entry : InviteEntry) : Prop :=
  IsRedemption system inviteToken entry ∧ mintsBy entry.statement

def StillRedeemable (position : Nat) (inviteToken : Text) : Prop :=
  (∃ invite ∈ system.shared.invites, hasToken inviteToken invite) ∧
    ∀ entry ∈ system.history, IsMint system inviteToken entry → entry.caller = position

def putsMembership : InviteStatement → Bool
  | .putMembership _ => true
  | _ => false

/-- The condition on the execution of one statement: what redeems finds the
invite redeemable, and a membership is not refused. -/
def InviteCondition : InviteAct → Prop
  | .advance position false =>
    ∀ request ∈ system.requestAt position, ∀ statement ∈ system.awaiting position,
        request.consumes → redeemsBy statement →
          StillRedeemable system position request.inviteToken
  | .advance position true =>
    ∀ statement ∈ system.awaiting position, putsMembership statement = false
  | _ => True

instance (system : InviteSystem) (position : Nat) (inviteToken : Text) :
    Decidable (StillRedeemable system position inviteToken) := by
  unfold StillRedeemable IsMint
  infer_instance

instance (system : InviteSystem) (act : InviteAct) : Decidable (InviteCondition system act) :=
  match act with
  | .advance position false =>
    inferInstanceAs (Decidable (∀ request ∈ system.requestAt position,
      ∀ statement ∈ system.awaiting position, request.consumes → redeemsBy statement →
          StillRedeemable system position request.inviteToken))
  | .advance position true =>
    inferInstanceAs (Decidable (∀ statement ∈ system.awaiting position,
      putsMembership statement = false))
  | .start _ => .isTrue trivial
  | .tick _ => .isTrue trivial
  | .reap _ => .isTrue trivial

/-- A call deletes only its own token, and mints only when it consumes; it
remembers whether it deleted the row. -/
def inviteDiscipline (request : InviteRequest) :
    Discipline InviteStatement.Answer InviteFailure Bool where
  admits _ statement :=
    match statement with
    | .deleteInvite inviteToken => inviteToken = request.inviteToken
    | .writeInstance _ _ _ => request.consumes
    | _ => True
  possible _ statement answer :=
    match statement with
    | .putMembership _ => ∃ value, answer = .ok value
    | _ => True
  remember deleted statement answer :=
    match statement, answer with
    | .deleteInvite _, .ok _ => true
    | _, _ => deleted

/-- How a call ends, from whether it deleted the row. -/
def InviteEnds (request : InviteRequest) (deleted : Bool)
    (outcome : Except InviteFailure InviteReply) : Prop :=
  match request, outcome with
  | .consume _ _, .ok (.consumed (some _)) => deleted = true
  | .revoke _, .ok (.revoked true) => deleted = true
  | .accept _ _, .ok (.accepted reply) => reply.status ≠ 200 → deleted = false
  | _, _ => True

section

variable {request : InviteRequest} {Value : Type} {deleted : Bool}

theorem follows_query {statement : InviteStatement}
    {ends : Bool → Except InviteFailure statement.Answer → Prop}
    (admitted : (inviteDiscipline request).admits deleted statement)
    (ended : ∀ answer, (inviteDiscipline request).possible deleted statement answer →
        ends ((inviteDiscipline request).remember deleted statement answer) answer) :
    Follows (inviteDiscipline request) ends deleted (query statement) :=
  ⟨admitted, ended⟩

theorem keeps_query {statement : InviteStatement} (admitted : ∀ deleted,
      (inviteDiscipline request).admits deleted statement)
    (other : ∀ inviteToken, statement ≠ .deleteInvite inviteToken) :
    KeepsMemory (inviteDiscipline request) (query statement) := by
  apply keepsMemory_perform admitted
  intro deleted answer
  cases statement with
  | deleteInvite inviteToken => exact absurd rfl (other inviteToken)
  | _ => rfl

variable (backend : IdentityBackend)

theorem keeps_getInvite (inviteToken : Text) :
    KeepsMemory (inviteDiscipline request) (backend.invites.get inviteToken) := by
  cases backend with
  | sql =>
    apply keepsMemory_bind
    · exact keeps_query (fun _ => trivial) (by simp)
    · intro now
      exact keeps_query (fun _ => trivial) (by simp)
  | dynamo =>
    apply keepsMemory_bind
    · exact keeps_query (fun _ => trivial) (by simp)
    · intro found
      cases found with
      | none => exact keepsMemory_pure none
      | some item =>
        apply keepsMemory_bind
        · exact keeps_query (fun _ => trivial) (by simp)
        · intro now
          by_cases expired : item.expiresAt ≤ now
          · rw [if_pos expired]
            exact keepsMemory_pure none
          · rw [if_neg expired]
            exact keepsMemory_pure (some item)

theorem keeps_requireInstance (workspaceId instanceId : Text) :
    KeepsMemory (inviteDiscipline request) (requireInstance workspaceId instanceId) := by
  apply keepsMemory_bind
  · exact keeps_query (fun _ => trivial) (by simp)
  · intro found
    cases found with
    | none => exact keepsMemory_raise _
    | some record => exact keepsMemory_pure record

theorem keeps_assertParticipantsAllowed (hostWorkspaceId appId : Text) (subs : List Text) :
    KeepsMemory (inviteDiscipline request)
      (assertParticipantsAllowed hostWorkspaceId appId subs) := by
  apply keepsMemory_bind
  · apply keepsMemory_bind
    · apply keepsMemory_rescue
      · exact keeps_query (fun _ => trivial) (by simp)
      · intro thrown
        exact keepsMemory_pure none
    · intro hosting
      exact keepsMemory_pure (hosting.getD .managed)
  · intro mode
    by_cases hosted : mode ≠ .managed
    · rw [if_pos hosted]
      exact keepsMemory_pure ()
    · rw [if_neg hosted]
      apply keepsMemory_forM
      intro sub
      apply keepsMemory_bind
      · exact keeps_query (fun _ => trivial) (by simp)
      · intro found
        cases found with
        | none => exact keepsMemory_raise _
        | some row => exact keepsMemory_pure ()

theorem keeps_addParticipant (consuming : request.consumes) (workspaceId instanceId sub : Text) :
    KeepsMemory (inviteDiscipline request) (addParticipant workspaceId instanceId sub) := by
  apply keepsMemory_bind (keeps_requireInstance workspaceId instanceId)
  intro record
  apply keepsMemory_bind (keeps_assertParticipantsAllowed _ _ _)
  intro allowed
  by_cases present : sub ∈ record.participants
  · rw [if_pos present]
    exact keepsMemory_pure record
  · rw [if_neg present]
    apply keepsMemory_bind
    · exact keeps_query (fun _ => consuming) (by simp)
    · intro written
      exact keepsMemory_pure _

/-- `consume` returns the invite exactly when it deleted the row. -/
def ConsumeEnds (deleted afterwards : Bool)
    (outcome : Except InviteFailure (Option InviteRecord)) : Prop :=
  match outcome with
  | .ok (some _) => afterwards = true
  | _ => afterwards = deleted

theorem follows_consumeRow (deleted : Bool) :
    Follows (inviteDiscipline request) (ConsumeEnds deleted) deleted
      (consumeRow request.inviteToken) := by
  refine follows_await trivial ?_ ?_
  · intro thrown possible
    rfl
  · intro row possible
    cases row with
    | none => exact follows_pure rfl
    | some invite =>
      refine follows_await trivial ?_ ?_
      · intro thrown possible
        rfl
      · intro now possible
        show Follows _ _ _ (if _ then _ else _)
        by_cases expired : invite.expiresAt ≤ now
        · simp only [if_pos expired]
          exact follows_raise rfl
        · simp only [if_neg expired]
          apply follows_bind
          apply follows_query
          · rfl
          · intro answer possible
            cases answer with
            | error thrown => rfl
            | ok changes => exact follows_pure rfl

theorem consume_eq_consumeRow : backend.invites.consume = consumeRow := by
  cases backend <;> rfl

theorem follows_consume (deleted : Bool) :
    Follows (inviteDiscipline request) (ConsumeEnds deleted) deleted
      ((backend.invites.consume request.inviteToken).rescue rethrowExpired) := by
  rw [consume_eq_consumeRow]
  apply follows_rescue
  apply (follows_consumeRow deleted).weaken
  intro afterwards outcome ended
  cases outcome with
  | ok invite => exact ended
  | error thrown => cases thrown <;> exact follows_raise ended

variable (request) in
theorem follows_consumeInvite (consuming : request.consumes)
    (userId : Option Text) (deleted : Bool) :
    Follows (inviteDiscipline request) (ConsumeEnds deleted) deleted
      (consumeInvite backend.invites request.inviteToken userId) := by
  apply follows_bind
  apply (keeps_getInvite backend request.inviteToken deleted).weaken
  intro afterwards outcome same
  subst same
  cases outcome with
  | error thrown => rfl
  | ok found =>
    cases found with
    | none => exact follows_consume backend afterwards
    | some pending =>
      cases named : pending.target with
      | none =>
        simp only [named]
        exact follows_consume backend afterwards
      | some target =>
        simp only [named]
        cases userId with
        | none => exact follows_raise rfl
        | some sub =>
          apply follows_bind
          apply (keeps_addParticipant consuming pending.workspaceId
            target.installId sub afterwards).weaken
          intro later outcome same
          subst same
          cases outcome with
          | error thrown => rfl
          | ok record => exact follows_consume backend later

theorem keeps_joinGroups (workspaceId userId : Text) (groupIds : List Text) :
    KeepsMemory (inviteDiscipline request) (joinGroups workspaceId userId groupIds) := by
  apply keepsMemory_forM
  intro groupId
  apply keepsMemory_rescue
  · exact keeps_query (fun _ => trivial) (by simp)
  · intro thrown
    exact keepsMemory_pure ()

def Admits (_ : Bool) (outcome : Except InviteFailure AcceptReply) : Prop :=
  ∀ reply, outcome = .ok reply → reply.status = 200

/-- When no membership is refused, the route succeeds with the invite. -/
theorem follows_joinByInvite (userId : Text) (invite : InviteRecord) (deleted : Bool) :
    Follows (inviteDiscipline request) Admits deleted (joinByInvite userId invite) := by
  unfold joinByInvite
  cases invite.target with
  | some target =>
    apply follows_pure
    intro reply same
    cases same
    rfl
  | none =>
    apply follows_bind
    apply follows_rescue
    apply follows_bind
    apply follows_query
    · trivial
    · intro answer possible
      obtain ⟨value, rfl⟩ := possible
      apply follows_pure
      simp only [if_true]
      refine follows_then (keeps_joinGroups _ _ _ _) ?_ ?_
      · intro afterwards thrown same reply impossible
        cases impossible
      · intro afterwards joined same
        apply follows_pure
        intro reply same
        cases same
        rfl

variable (request) in
/-- An accept that fails has deleted no row. -/
theorem follows_acceptInvite (consuming : request.consumes) (userId : Text) :
    Follows (inviteDiscipline request) (fun afterwards outcome => ∀ reply, outcome = .ok reply →
        reply.status ≠ 200 → afterwards = false)
      false (acceptInvite backend.invites request.inviteToken userId) := by
  apply follows_bind
  apply follows_rescue
  refine follows_then (follows_consumeInvite request backend consuming (some userId) false) ?_ ?_
  · intro afterwards thrown ended
    apply follows_pure
    apply follows_pure
    intro reply same failed
    exact ended
  · intro afterwards consumed ended
    apply follows_pure
    cases consumed with
    | none =>
      apply follows_pure
      intro reply same failed
      exact ended
    | some invite =>
      apply (follows_joinByInvite userId invite afterwards).weaken
      intro later outcome admits reply same failed
      exact absurd (admits reply same) failed

variable (request) in
theorem follows_revoke (deleted : Bool) :
    Follows (inviteDiscipline request)
      (fun afterwards outcome => outcome = .ok true → afterwards = true)
      deleted (backend.invites.revoke request.inviteToken) := by
  have revokes : backend.invites.revoke = revokeWith backend.invites.get := by
    cases backend <;> rfl
  rw [revokes]
  refine follows_then (keeps_getInvite backend request.inviteToken deleted) ?_ ?_
  · intro afterwards thrown same impossible
    cases impossible
  · intro afterwards found same
    cases found with
    | none =>
      apply follows_pure
      intro impossible
      cases impossible
    | some invite =>
      apply follows_bind
      apply follows_query
      · rfl
      · intro answer possible
        cases answer with
        | error thrown =>
          intro impossible
          cases impossible
        | ok changes =>
          apply follows_pure
          intro revoked
          rfl

end

theorem follows_serveInvite (backend : IdentityBackend) (request : InviteRequest) :
    Follows (inviteDiscipline request) (InviteEnds request) false
      (serveInvite backend.invites request) := by
  cases request with
  | consume inviteToken userId =>
    refine follows_then (follows_consumeInvite (.consume inviteToken userId) backend
      rfl userId false)
      (fun _ _ _ => trivial) ?_
    intro afterwards consumed ended
    cases consumed with
    | none => trivial
    | some invite => exact ended
  | revoke inviteToken =>
    refine follows_then (follows_revoke (.revoke inviteToken) backend false)
      (fun _ _ _ => trivial) ?_
    intro afterwards removed ended
    cases removed with
    | false => trivial
    | true => exact ended rfl
  | accept inviteToken userId =>
    refine follows_then (follows_acceptInvite (.accept inviteToken userId) backend
      rfl userId)
      (fun _ _ _ => trivial) ?_
    intro afterwards reply ended
    exact ended reply rfl

theorem remember_eq_true_iff (request : InviteRequest) (deleted : Bool) (position : Nat)
    (statement : InviteStatement) (answer : Except InviteFailure statement.Answer) :
    (inviteDiscipline request).remember deleted statement answer = true ↔
      deleted = true ∨ IsDeletion ⟨position, statement, answer⟩ := by
  cases statement with
  | deleteInvite inviteToken =>
    cases answer with
    | ok changes => simp [inviteDiscipline, IsDeletion, succeeded]
    | error thrown => simp [inviteDiscipline, IsDeletion, succeeded]
  | _ => simp [inviteDiscipline, IsDeletion]

theorem deleted_iff_entry (request : InviteRequest) (position : Nat) (history : List InviteEntry) :
    memoryOf (inviteDiscipline request) false history position = true ↔
      ∃ entry ∈ history, entry.caller = position ∧ IsDeletion entry := by
  refine memoryOf_induction (inviteDiscipline request) false position
    (fun history deleted => deleted = true ↔
      ∃ entry ∈ history, entry.caller = position ∧ IsDeletion entry)
    ?_ ?_ ?_ history
  · simp
  · intro before deleted statement answer ih
    rw [remember_eq_true_iff request deleted position, ih]
    simp [or_and_right, exists_or]
  · intro before deleted entry other ih
    rw [ih]
    simp [or_and_right, exists_or, other]

theorem mem_invites_of_executeStatement {refused : Bool} {statement : InviteStatement}
    {stores : InviteStores} {invite : InviteRecord}
    (member : invite ∈ (executeStatement refused statement stores).2.invites) :
    invite ∈ stores.invites := by
  unfold executeStatement at member
  split at member
  · exact member
  · cases statement with
    | deleteInvite inviteToken => exact List.mem_of_mem_filter member
    | _ => exact member

theorem no_row_of_deleted {refused : Bool} {inviteToken : Text} {stores : InviteStores}
    {position : Nat}
    (answered : succeeded ⟨position, .deleteInvite inviteToken,
      (executeStatement refused (.deleteInvite inviteToken) stores).1⟩) :
    ∀ invite ∈ (executeStatement refused (.deleteInvite inviteToken) stores).2.invites,
      ¬ hasToken inviteToken invite := by
  intro invite member
  unfold executeStatement at member answered
  split at member
  · rename_i denied
    rw [if_pos denied] at answered
    exact absurd answered (by simp [succeeded])
  · have kept := (List.mem_filter.mp member).2
    simpa using kept

structure InviteInvariant (system : InviteSystem) : Prop where
  follow : AllFollow inviteDiscipline false InviteEnds system
  spent : ∀ entry ∈ system.history, IsDeletion entry →
    ∀ request, system.requestAt entry.caller = some request → ∀ invite ∈ system.shared.invites,
        ¬ hasToken request.inviteToken invite
  once : ∀ inviteToken, ∀ first ∈ system.history, ∀ second ∈ system.history,
    IsRedemption system inviteToken first →
      IsRedemption system inviteToken second → first.caller = second.caller
  noneAfterRevoke : ∀ inviteToken before revocation after,
    system.history = before ++ revocation :: after → IsRevocation system inviteToken revocation →
        ∀ entry ∈ after, ¬ IsRedemption system inviteToken entry

theorem singleUse_of_invariant {system : InviteSystem} (invariant : InviteInvariant system) :
    SingleUse system := by
  constructor
  · intro position inviteToken userId invite found
    have remembered := invariant.follow.ended found
    obtain ⟨entry, member, same, ⟨token, deletes⟩, answered⟩ :=
      (deleted_iff_entry _ position system.history).mp remembered
    refine ⟨entry, member, same, .consume inviteToken userId, ?_, rfl, rfl, ?_, answered⟩
    · rw [same]
      exact requestAt_of_found found
    · rw [deletes]
      rfl
  · intro position inviteToken found
    have remembered := invariant.follow.ended found
    obtain ⟨entry, member, same, deletes⟩ :=
      (deleted_iff_entry _ position system.history).mp remembered
    refine ⟨entry, member, same, ?_, deletes⟩
    rw [same]
    exact requestAt_of_found found
  · exact invariant.once
  · exact invariant.noneAfterRevoke
  · intro position inviteToken userId reply found failed entry member same deletes
    have remembered := invariant.follow.ended found failed
    have contradiction :=
      (deleted_iff_entry (.accept inviteToken userId) position
        system.history).mpr ⟨entry, member, same, deletes⟩
    rw [contradiction] at remembered
    cases remembered

theorem isRedemption_congr {system next : InviteSystem} {inviteToken : Text}
    {entry : InviteEntry} (same : next.requestAt entry.caller = system.requestAt entry.caller) :
    IsRedemption next inviteToken entry ↔ IsRedemption system inviteToken entry := by
  simp only [IsRedemption, same]

/-- A step that executes no statement and adds no row. -/
theorem invariant_of_sameHistory {system next : InviteSystem} (invariant : InviteInvariant system)
    (follow : AllFollow inviteDiscipline false InviteEnds next)
    (same : next.history = system.history)
    (requests : ∀ position < system.calls.length,
      next.requestAt position = system.requestAt position)
    (fewer : ∀ invite ∈ next.shared.invites, invite ∈ system.shared.invites) :
    InviteInvariant next := by
  have agrees : ∀ entry ∈ system.history,
      next.requestAt entry.caller = system.requestAt entry.caller :=
    fun entry member => requests entry.caller (invariant.follow.below entry member)
  refine ⟨follow, ?_, ?_, ?_⟩
  · intro entry member deletes request asked invite present
    rw [same] at member
    rw [agrees entry member] at asked
    exact invariant.spent entry member deletes request asked invite (fewer invite present)
  · intro inviteToken first firstMember second secondMember one two
    rw [same] at firstMember secondMember
    exact invariant.once inviteToken first firstMember second secondMember
      ((isRedemption_congr (agrees first firstMember)).mp one)
      ((isRedemption_congr (agrees second secondMember)).mp two)
  · intro inviteToken before revocation after split revokes entry member redeems
    rw [same] at split
    have earlier : revocation ∈ system.history := by
      rw [split]
      exact List.mem_append_right before List.mem_cons_self
    have later : entry ∈ system.history := by
      rw [split]
      exact List.mem_append_right before (List.mem_cons_of_mem revocation member)
    have revoked : IsRevocation system inviteToken revocation := by
      rw [IsRevocation, ← agrees revocation earlier]
      exact revokes
    exact invariant.noneAfterRevoke inviteToken before revocation after split
      revoked entry member ((isRedemption_congr (agrees entry later)).mp redeems)

section

variable {system : InviteSystem} {position : Nat} {refused : Bool}
  {request : InviteRequest} {statement : InviteStatement}
  {resume : Except InviteFailure statement.Answer → InviteCall InviteReply}

theorem redeemable_of_redemption (found : system.Awaits position request statement resume)
    (condition : InviteCondition system (.advance position refused))
    (consuming : request.consumes) (redeeming : redeemsBy statement)
    (answered : succeeded ⟨position, statement,
      (executeStatement refused statement system.shared).1⟩) :
    StillRedeemable system position request.inviteToken := by
  cases refused with
  | true =>
    have changed : statement ≠ .now := by
      intro same
      rw [same] at redeeming
      cases redeeming
    unfold executeStatement at answered
    simp [changed, succeeded] at answered
  | false =>
    have asked : system.awaiting position = some statement := by rw [Concurrent.awaiting, found]
    exact condition request (requestAt_of_found found) statement asked consuming redeeming

section

variable {inviteToken : Text} {entry : InviteEntry}
  (invariant : InviteInvariant system)
  (redeemable : StillRedeemable system position inviteToken)
  (member : entry ∈ system.history)

include invariant redeemable member

theorem caller_of_redeemable (redeems : IsRedemption system inviteToken entry) :
    entry.caller = position := by
  obtain ⟨⟨invite, present, named⟩, minted⟩ := redeemable
  obtain ⟨asker, asked, consuming, same, redeeming, answered⟩ := redeems
  cases kind : entry.statement with
  | deleteInvite token =>
    have gone := invariant.spent entry member ⟨⟨token, kind⟩, answered⟩ asker asked invite present
    rw [same] at gone
    exact absurd named gone
  | writeInstance workspaceId instanceId record =>
    apply minted entry member
    refine ⟨⟨asker, asked, consuming, same, redeeming, answered⟩, ?_⟩
    rw [kind]
    rfl
  | _ =>
    rw [kind] at redeeming
    cases redeeming

theorem not_revoked_of_redeemable : ¬ IsRevocation system inviteToken entry := by
  rintro ⟨asked, deletes⟩
  obtain ⟨⟨invite, present, named⟩, minted⟩ := redeemable
  exact invariant.spent entry member deletes _ asked invite present named

end

section

variable (found : system.Awaits position request statement resume)
  (condition : InviteCondition system (.advance position refused))

include found condition

theorem possible_of_condition (deleted : Bool) :
    (inviteDiscipline request).possible deleted statement
      (executeStatement refused statement system.shared).1 := by
  cases statement with
  | putMembership record =>
    cases refused with
    | true =>
      have asked : system.awaiting position = some (.putMembership record) := by
        rw [Concurrent.awaiting, found]
      have refusal := condition _ asked
      cases refusal
    | false => exact ⟨(), rfl⟩
  | _ => trivial

theorem redeemable_of_new {inviteToken : Text}
    (redeems : IsRedemption system inviteToken ⟨position, statement,
        (executeStatement refused statement system.shared).1⟩) :
    StillRedeemable system position inviteToken := by
  obtain ⟨asker, asked, consuming, same, redeeming, answered⟩ := redeems
  rw [requestAt_of_found found] at asked
  cases asked
  rw [← same]
  exact redeemable_of_redemption found condition consuming redeeming answered

end

theorem spent_of_new (invariant : InviteInvariant system)
    (found : system.Awaits position request statement resume)
    (deletes : IsDeletion ⟨position, statement,
      (executeStatement refused statement system.shared).1⟩) :
    ∀ invite ∈ (executeStatement refused statement system.shared).2.invites,
      ¬ hasToken request.inviteToken invite := by
  obtain ⟨⟨inviteToken, kind⟩, answered⟩ := deletes
  dsimp only at kind
  subst kind
  have own : inviteToken = request.inviteToken := invariant.follow.admitted found
  rw [← own]
  exact no_row_of_deleted answered

theorem invariant_answered (invariant : InviteInvariant system)
    (found : system.Awaits position request statement resume)
    (condition : InviteCondition system (.advance position refused)) :
    InviteInvariant (system.answered position request statement resume
      (executeStatement refused statement system.shared)) := by
  have agrees : ∀ other, (system.answered position request statement resume
        (executeStatement refused statement system.shared)).requestAt other =
        system.requestAt other :=
    requestAt_answered found
  have redemption : ∀ inviteToken entry,
      IsRedemption (system.answered position request statement resume
        (executeStatement refused statement system.shared)) inviteToken entry →
        IsRedemption system inviteToken entry :=
    fun inviteToken entry => (isRedemption_congr (agrees entry.caller)).mp
  refine ⟨?_, ?_, ?_, ?_⟩
  · exact follows_answered invariant.follow found (possible_of_condition found condition _)
  · intro entry member deletes asker asked invite present
    rw [agrees] at asked
    rcases List.mem_append.mp member with old | new
    · exact invariant.spent entry old deletes asker asked invite
        (mem_invites_of_executeStatement present)
    · cases List.mem_singleton.mp new
      rw [requestAt_of_found found] at asked
      cases asked
      exact spent_of_new invariant found deletes invite present
  · intro inviteToken first firstMember second secondMember one two
    have firstRedeems := redemption inviteToken first one
    have secondRedeems := redemption inviteToken second two
    rcases List.mem_append.mp firstMember with firstOld | firstNew
    · rcases List.mem_append.mp secondMember with secondOld | secondNew
      · exact invariant.once inviteToken first firstOld second secondOld firstRedeems secondRedeems
      · cases List.mem_singleton.mp secondNew
        exact caller_of_redeemable invariant
          (redeemable_of_new found condition secondRedeems) firstOld
          firstRedeems
    · cases List.mem_singleton.mp firstNew
      rcases List.mem_append.mp secondMember with secondOld | secondNew
      · exact (caller_of_redeemable invariant
          (redeemable_of_new found condition firstRedeems) secondOld
          secondRedeems).symm
      · cases List.mem_singleton.mp secondNew
        rfl
  · intro inviteToken before revocation after split revokes entry member redeems
    have revoked : IsRevocation system inviteToken revocation := by
      rw [IsRevocation, ← agrees]
      exact revokes
    rcases split_of_append_singleton split with
      ⟨_, empty⟩ | ⟨shorter, rfl, older⟩
    · rw [empty] at member
      cases member
    · have earlier : revocation ∈ system.history := by
        rw [older]
        exact List.mem_append_right before List.mem_cons_self
      have redeemed := redemption inviteToken entry redeems
      rcases List.mem_append.mp member with old | new
      · exact invariant.noneAfterRevoke inviteToken before revocation shorter
          older revoked entry old redeemed
      · cases List.mem_singleton.mp new
        exact not_revoked_of_redeemable invariant
          (redeemable_of_new found condition redeemed) earlier revoked

end

theorem invariant_inviteStep {backend : IdentityBackend} (system : InviteSystem)
    (act : InviteAct) (next : InviteSystem) (invariant : InviteInvariant system)
    (condition : InviteCondition system act)
    (stepped : inviteStep backend system act = some next) :
    InviteInvariant next := by
  cases act with
  | start request =>
    cases stepped
    apply invariant_of_sameHistory invariant
    · exact follows_start invariant.follow (follows_serveInvite backend request)
    · rfl
    · intro position inside
      exact requestAt_start inside
    · intro invite member
      exact member
  | advance position refused =>
    obtain ⟨request, statement, resume, found, rfl⟩ :=
      advance_eq_some_iff.mp stepped
    exact invariant_answered invariant found condition
  | tick seconds =>
    cases stepped
    apply invariant_of_sameHistory invariant
    · exact ⟨invariant.follow.below, invariant.follow.follow⟩
    · rfl
    · intro position inside
      rfl
    · intro invite member
      exact member
  | reap inviteToken =>
    cases stepped
    apply invariant_of_sameHistory invariant
    · exact ⟨invariant.follow.below, invariant.follow.follow⟩
    · rfl
    · intro position inside
      rfl
    · intro invite member
      exact List.mem_of_mem_filter member

theorem invariant_noInviteCalls (stores : InviteStores) :
    InviteInvariant (noInviteCalls stores) := by
  refine ⟨follows_idle, ?_, ?_, ?_⟩
  · intro entry member
    cases member
  · intro inviteToken first member
    cases member
  · intro inviteToken before revocation after split
    have empty := congrArg List.length split
    simp [noInviteCalls] at empty

/-- Invites are single-use in every run that meets the condition. -/
theorem invites_single_use {backend : IdentityBackend} {stores : InviteStores}
    {acts : List InviteAct} {system : InviteSystem}
    (meets : StepsMeet (inviteStep backend) InviteCondition (noInviteCalls stores) acts)
    (executed : runFrom (inviteStep backend) (noInviteCalls stores) acts = some system) :
    SingleUse system := by
  apply singleUse_of_invariant
  exact invariant_of_stepsMeet InviteInvariant invariant_inviteStep
    (invariant_noInviteCalls stores) meets executed

/-- An invite for a workspace and one for an instance with one participant. -/
def invitedStores : InviteStores where
  clock := 0
  invites :=
    [⟨"join".toList, "w".toList, "member".toList, [], 9, none⟩,
      ⟨"guest".toList, "w".toList, "guest".toList, [], 9, some ⟨"i".toList, none⟩⟩]
  instances := fun _ key =>
    if key = "i".toList then some ⟨"app".toList, "w".toList, ["host".toList]⟩ else none
  installHosting := fun _ _ => some .hosted
  memberships := []
  userGroups := []

/-- A guest accepts while an admin revokes; the revoke reads the row before
the accept deletes it. -/
def guestJoins : List InviteAct :=
  [.start (.accept "guest".toList "bob".toList), .start (.revoke "guest".toList)] ++
    List.replicate 2 (.advance 1 false) ++
    List.replicate 8 (.advance 0 false) ++ [.advance 1 false]

theorem invites_single_use_guestJoins :
    ∃ system, runFrom (inviteStep .sql) (noInviteCalls invitedStores) guestJoins = some system ∧
      system.shared.invites.length = 1 ∧ SingleUse system := by
  have ran :
      (runFrom (inviteStep .sql) (noInviteCalls invitedStores) guestJoins).map
        (·.shared.invites.length) = some 1 := by
    decide +kernel
  obtain ⟨system, executed, count⟩ := Option.map_eq_some_iff.mp ran
  have meets : StepsMeet (inviteStep .sql) InviteCondition
      (noInviteCalls invitedStores) guestJoins := by
    decide +kernel
  exact ⟨system, executed, count, invites_single_use meets executed⟩

/-- Two users accept one invite; both read the row before either deletes
it. -/
def twoAccepts : List InviteAct :=
  [.start (.consume "join".toList (some "ann".toList)),
    .start (.consume "join".toList (some "bob".toList))] ++
    List.replicate 4 (.advance 0 false) ++
    List.replicate 4 (.advance 1 false) ++
    [.advance 0 false, .advance 1 false]

theorem invites_not_single_use :
    ¬ ∀ (backend : IdentityBackend) (stores : InviteStores)
        (acts : List InviteAct) (system : InviteSystem),
      runFrom (inviteStep backend) (noInviteCalls stores) acts = some system →
        SingleUse system := by
  intro law
  have ran :
      (runFrom (inviteStep .sql) (noInviteCalls invitedStores) twoAccepts).map
        (fun system => decide (∃ first ∈ system.history, ∃ second ∈ system.history,
            IsRedemption system "join".toList first ∧ IsRedemption system "join".toList second ∧
              first.caller ≠ second.caller)) = some true := by
    decide +kernel
  obtain ⟨system, executed, twice⟩ := Option.map_eq_some_iff.mp ran
  obtain ⟨first, firstMember, second, secondMember, one, two, different⟩ :=
    of_decide_eq_true twice
  have single := law .sql invitedStores twoAccepts system executed
  exact different (single.once "join".toList first firstMember second secondMember one two)

end Aprovan.Identity
