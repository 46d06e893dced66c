import Aprovan.Apps.Partition
import Aprovan.Library.Process

/-!
# Invites

An invite is a row keyed by its token, with a time to live.  The calls that
consume, revoke and accept it run over one identity store.  Each statement is
atomic and may be refused; between two of them other calls go on, the clock
moves, and expired rows disappear.  A clock reading is a statement of its own.
-/

namespace Aprovan.Identity

open Aprovan.Library Aprovan.Server Aprovan.Apps

/-- An invite for an app instance; `installId` is the instance's id. -/
structure InviteTarget where
  installId : Text
  channelIds : Option (List Text)

structure InviteRecord where
  (inviteToken workspaceId role : Text)
  groupIds : List Text
  expiresAt : Nat
  target : Option InviteTarget

structure MembershipRecord where
  (workspaceId userId role : Text)
  deriving DecidableEq

structure UserGroupRecord where
  (workspaceId groupId userId : Text)
  deriving DecidableEq

/-- The stores an accept touches. -/
structure InviteStores where
  clock : Nat
  invites : List InviteRecord
  instances : Text → Text → Option AppInstanceRecord
  installHosting : Text → Text → Option HostingMode
  memberships : List MembershipRecord
  userGroups : List UserGroupRecord

inductive InviteStatement where
  | now
  /-- `SELECT * FROM invites WHERE invite_token = ? AND expires_at > ?`. -/
  | selectPending (inviteToken : Text) (now : Nat)
  /-- The row with the token, in both backends. -/
  | selectInvite (inviteToken : Text)
  | deleteInvite (inviteToken : Text)
  | readInstance (workspaceId instanceId : Text)
  | readInstall (workspaceId appId : Text)
  | getMembership (workspaceId userId : Text)
  | writeInstance (workspaceId instanceId : Text) (record : AppInstanceRecord)
  | putMembership (record : MembershipRecord)
  | addUserToGroup (record : UserGroupRecord)
  deriving DecidableEq

/-- What the store answers; a deletion answers the number of rows. -/
abbrev InviteStatement.Answer : InviteStatement → Type
  | .now => Nat
  | .selectPending _ _ => Option InviteRecord
  | .selectInvite _ => Option InviteRecord
  | .deleteInvite _ => Nat
  | .readInstance _ _ => Option AppInstanceRecord
  | .readInstall _ _ => Option HostingMode
  | .getMembership _ _ => Option MembershipRecord
  | .writeInstance _ _ _ => Unit
  | .putMembership _ => Unit
  | .addUserToGroup _ => Unit

inductive InviteFailure where
  /-- A statement was refused. -/
  | store
  /-- The error with code `invite_expired` of the store's `consume`. -/
  | inviteExpired
  /-- `InviteConsumeError`. -/
  | consumeError (expired : Bool)
  | service (error : ServiceError)

abbrev InviteCall := Process InviteStatement.Answer InviteFailure

def query (statement : InviteStatement) : InviteCall statement.Answer :=
  Process.perform statement

/-- The part of `IIdentityStore` that concerns one token. -/
structure InviteOperations where
  get : Text → InviteCall (Option InviteRecord)
  revoke : Text → InviteCall Bool
  consume : Text → InviteCall (Option InviteRecord)

/-- `revoke`, over the backend's `getInvite`. -/
def revokeWith (getInvite : Text → InviteCall (Option InviteRecord)) (inviteToken : Text) :
    InviteCall Bool := do
  match ← getInvite inviteToken with
  | none => pure false
  | some _ =>
    let _ ← query (.deleteInvite inviteToken)
    pure true

/-- `consume`: the row, its expiry, the deletion. -/
def consumeRow (inviteToken : Text) : InviteCall (Option InviteRecord) := do
  match ← query (.selectInvite inviteToken) with
  | none => pure none
  | some invite =>
    let now ← query .now
    if invite.expiresAt ≤ now then Process.raise .inviteExpired
    else
      let _ ← query (.deleteInvite inviteToken)
      pure (some invite)

/-- `getInvite` of `createIdentityStoreSql`. -/
def getInviteSql (inviteToken : Text) : InviteCall (Option InviteRecord) := do
  let now ← query .now
  query (.selectPending inviteToken now)

/-- `getInvite` of `createIdentityStoreDynamo`. -/
def getInviteDynamo (inviteToken : Text) : InviteCall (Option InviteRecord) := do
  match ← query (.selectInvite inviteToken) with
  | none => pure none
  | some item =>
    let now ← query .now
    if item.expiresAt ≤ now then pure none else pure (some item)

def invitesSql : InviteOperations where
  get := getInviteSql
  revoke := revokeWith getInviteSql
  consume := consumeRow

def invitesDynamo : InviteOperations where
  get := getInviteDynamo
  revoke := revokeWith getInviteDynamo
  consume := consumeRow

inductive IdentityBackend where
  | sql
  | dynamo

def IdentityBackend.invites : IdentityBackend → InviteOperations
  | .sql => invitesSql
  | .dynamo => invitesDynamo

def unknownInstance (instanceId : Text) : ServiceError where
  message := "Unknown instance: ".toList ++ instanceId
  status := 404

def notAMember (sub hostWorkspaceId : Text) : ServiceError where
  message :=
    "User ".toList ++ sub ++ " is not a member of workspace ".toList ++ hostWorkspaceId ++
      (": managed instances require every participant to be a " ++
        "hosting-workspace member").toList
  status := 400

def requireInstance (workspaceId instanceId : Text) : InviteCall AppInstanceRecord := do
  match ← query (.readInstance workspaceId instanceId) with
  | none => Process.raise (.service (unknownInstance instanceId))
  | some record => pure record

/-- A read of the install that fails counts as no install. -/
def hostingModeOf (hostWorkspaceId appId : Text) : InviteCall HostingMode := do
  let hosting ←
    (query (.readInstall hostWorkspaceId appId)).rescue fun _ => pure none
  pure (hosting.getD .managed)

def assertHostingMembership (hostWorkspaceId sub : Text) : InviteCall Unit := do
  match ← query (.getMembership hostWorkspaceId sub) with
  | none => Process.raise (.service (notAMember sub hostWorkspaceId))
  | some _ => pure ()

def assertParticipantsAllowed (hostWorkspaceId appId : Text) (subs : List Text) :
    InviteCall Unit := do
  if (← hostingModeOf hostWorkspaceId appId) ≠ .managed then pure ()
  else subs.forM (assertHostingMembership hostWorkspaceId)

def addParticipant (workspaceId instanceId sub : Text) : InviteCall AppInstanceRecord := do
  let record ← requireInstance workspaceId instanceId
  assertParticipantsAllowed record.hostWorkspaceId record.appId [sub]
  if sub ∈ record.participants then pure record
  else
    let extended : AppInstanceRecord :=
      { record with participants := record.participants ++ [sub] }
    query (.writeInstance workspaceId instanceId extended)
    pure extended

def rethrowExpired (thrown : InviteFailure) : InviteCall (Option InviteRecord) :=
  match thrown with
  | .inviteExpired => Process.raise (.consumeError true)
  | other => Process.raise other

def consumeInvite (operations : InviteOperations) (inviteToken : Text) (userId : Option Text) :
    InviteCall (Option InviteRecord) := do
  match ← operations.get inviteToken with
  | none => (operations.consume inviteToken).rescue rethrowExpired
  | some pending =>
    match pending.target with
    | none => (operations.consume inviteToken).rescue rethrowExpired
    | some target =>
      match userId with
      | none => Process.raise (.consumeError false)
      | some sub =>
        -- Minted first, so that a failed add leaves the token.
        let _ ← addParticipant pending.workspaceId target.installId sub
        (operations.consume inviteToken).rescue rethrowExpired

inductive AcceptBody where
  | failed (error : Text) (code : Option Text)
  | participation (workspaceId role : Text) (target : InviteTarget)
  | membership (workspaceId role : Text) (groupIds : List Text)

structure AcceptReply where
  status : Nat
  body : AcceptBody

def inviteExpiredReply : AcceptReply where
  status := 410
  body := .failed "Invite expired".toList (some "invite_expired".toList)

def inviteNotFoundReply : AcceptReply where
  status := 404
  body := .failed "Invite not found".toList (some "invite_not_found".toList)

def consumeFailedReply : AcceptReply where
  status := 500
  body := .failed "Failed to consume invite".toList none

def membershipFailedReply : AcceptReply where
  status := 500
  body := .failed "Failed to create workspace membership".toList none

/-- The reply to an error of `consumeInvite`. -/
def refusedConsume : InviteFailure → AcceptReply
  | .consumeError true => inviteExpiredReply
  | .consumeError false => inviteNotFoundReply
  | _ => consumeFailedReply

/-- Joining a group is best effort. -/
def joinGroups (workspaceId userId : Text) (groupIds : List Text) : InviteCall Unit :=
  groupIds.forM fun groupId =>
    (query (.addUserToGroup ⟨workspaceId, groupId, userId⟩)).rescue fun _ => pure ()

/-- What the route does with the invite it consumed. -/
def joinByInvite (userId : Text) (invite : InviteRecord) : InviteCall AcceptReply := do
  match invite.target with
  | some target => pure ⟨200, .participation invite.workspaceId invite.role target⟩
  | none =>
    let joined ←
      (do
        query (.putMembership ⟨invite.workspaceId, userId, invite.role⟩)
        pure true : InviteCall Bool).rescue fun _ => pure false
    if joined then
      joinGroups invite.workspaceId userId invite.groupIds
      pure ⟨200, .membership invite.workspaceId invite.role invite.groupIds⟩
    else pure membershipFailedReply

/-- The route for a caller whose access token was verified. -/
def acceptInvite (operations : InviteOperations) (inviteToken userId : Text) :
    InviteCall AcceptReply := do
  let consumed ←
    (do
      let invite ← consumeInvite operations inviteToken (some userId)
      pure (Except.ok invite) : InviteCall (Except AcceptReply (Option InviteRecord))).rescue
      fun thrown => pure (.error (refusedConsume thrown))
  match consumed with
  | .error reply => pure reply
  | .ok none => pure inviteNotFoundReply
  | .ok (some invite) => joinByInvite userId invite

end Aprovan.Identity
