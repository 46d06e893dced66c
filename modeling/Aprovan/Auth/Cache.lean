import Aprovan.Identity.Invites

/-!
# Authentication and its cache

`oidcPrincipal` resolves a bearer token and the requested workspace to a
principal by several reads of the identity store and keeps it in a cache for a
time to live.  Mutations drop the user's principals from the cache.  Every
statement and the verification of the token are awaited.
-/

namespace Aprovan.Auth

open Aprovan.Library Aprovan.Identity

structure Principal where
  (sub workspaceId role : Text)
  groupIds : List Text
  deriving DecidableEq

/-- The picker row of a user; `expiresAt` counts seconds. -/
structure SessionRow where
  (userId currentWorkspaceId : Text)
  expiresAt : Nat
  deriving DecidableEq

structure UserRow where
  (sub activeWorkspaceId : Text)

structure MemberRow where
  (workspaceId userId : Text)
  role : Option Text
  deriving DecidableEq

/-- The rows `oidcPrincipal` reads, and the clock in milliseconds. -/
structure IdentityRows where
  sessions : List SessionRow
  users : List UserRow
  memberships : List MemberRow
  groupMembers : List UserGroupRecord
  clock : Nat

inductive IdentityChange where
  | putMembership (row : MemberRow)
  | removeMembership (workspaceId userId : Text)
  | setCurrentWorkspace (userId workspaceId : Text) (ttlSeconds : Nat)
  | addMember (row : UserGroupRecord)
  | removeMember (row : UserGroupRecord)
  | setActiveWorkspaceId (sub workspaceId : Text)
  | removeGroup (workspaceId groupId : Text)
  deriving DecidableEq

namespace IdentityRows

variable (rows : IdentityRows)

def session (userId : Text) : Option SessionRow :=
  rows.sessions.find? (·.userId = userId)

def activeWorkspace (sub : Text) : Option Text :=
  (rows.users.find? (·.sub = sub)).map (·.activeWorkspaceId)

def membership (workspaceId userId : Text) : Option MemberRow :=
  rows.memberships.find? fun row => row.workspaceId = workspaceId ∧ row.userId = userId

def groupIds (workspaceId userId : Text) : List Text :=
  (rows.groupMembers.filter fun row =>
    row.workspaceId = workspaceId ∧ row.userId = userId).map (·.groupId)

def nowEpoch : Nat :=
  rows.clock / 1000

/-- One statement that changes the store, and whether it found a row to
change. -/
def change : IdentityChange → Bool × IdentityRows
  | .putMembership row =>
    (true, { rows with
      memberships := rows.memberships.filter (fun other =>
        ¬ (other.workspaceId = row.workspaceId ∧ other.userId = row.userId)) ++
        [{ row with role := some (row.role.getD "member".toList) }] })
  | .removeMembership workspaceId userId =>
    ((rows.membership workspaceId userId).isSome,
      { rows with
        memberships := rows.memberships.filter fun row =>
          ¬ (row.workspaceId = workspaceId ∧ row.userId = userId) })
  | .setCurrentWorkspace userId workspaceId ttlSeconds =>
    (true, { rows with
      sessions := rows.sessions.filter (·.userId ≠ userId) ++
        [⟨userId, workspaceId, rows.nowEpoch + ttlSeconds⟩] })
  | .addMember row => (true, { rows with groupMembers := rows.groupMembers.insert row })
  | .removeMember row =>
    (decide (row ∈ rows.groupMembers),
      { rows with groupMembers := rows.groupMembers.filter (· ≠ row) })
  | .setActiveWorkspaceId sub workspaceId =>
    (true, { rows with
      users := rows.users.filter (·.sub ≠ sub) ++ [⟨sub, workspaceId⟩] })
  | .removeGroup workspaceId groupId =>
    (true, { rows with
      groupMembers := rows.groupMembers.filter fun row =>
        ¬ (row.workspaceId = workspaceId ∧ row.groupId = groupId) })

end IdentityRows

structure CacheEntry where
  key : Text
  principal : Principal
  expiresAt : Nat

/-- `hashToken` and the verifier of access tokens are given.  Digests of
different tokens differ, and a digest is hexadecimal. -/
structure AuthEnvironment where
  hashToken : Text → Text
  distinct : Function.Injective hashToken
  hexadecimal : ∀ token, ':' ∉ hashToken token
  /-- The subject of a valid token. -/
  subjectOf : Text → Option Text
  ttlMs : Nat
  backend : IdentityBackend

def cacheKey (tokenHash workspaceHint : Text) : Text :=
  tokenHash ++ ':' :: workspaceHint

variable (environment : AuthEnvironment) (cache : List CacheEntry)

def cacheGet (key : Text) : Option CacheEntry :=
  cache.find? (·.key = key)

def cacheDelete (key : Text) : List CacheEntry :=
  cache.filter (·.key ≠ key)

def getCachedPrincipal (now : Nat) (key : Text) : Option Principal × List CacheEntry :=
  match cacheGet cache key with
  | none => (none, cache)
  | some entry =>
    if entry.expiresAt ≤ now then (none, cacheDelete cache key)
    else (some entry.principal, cache)

def setCachedPrincipal (now ttlMs : Nat) (key : Text) (principal : Principal) : List CacheEntry :=
  cacheDelete cache key ++ [⟨key, principal, now + ttlMs⟩]

/-- Drop every principal of a user or of a workspace. -/
def invalidatePrincipal (subOrWorkspaceId : Text) : List CacheEntry :=
  cache.filter fun entry =>
    ¬ (entry.principal.sub = subOrWorkspaceId ∨ entry.principal.workspaceId = subOrWorkspaceId)

inductive AuthStatement where
  | getCachedPrincipal (key : Text)
  | setCachedPrincipal (key : Text) (principal : Principal)
  | invalidatePrincipal (subOrWorkspaceId : Text)
  | verifyAccessToken (token : Text)
  | readSession (userId : Text)
  | nowEpoch
  | getActiveWorkspaceId (sub : Text)
  | getMembership (workspaceId userId : Text)
  | listUserGroupIds (workspaceId userId : Text)
  | getMember (row : UserGroupRecord)
  | change (change : IdentityChange)
  /-- The clock moves. -/
  | elapse (milliseconds : Nat)
  deriving DecidableEq

abbrev AuthStatement.Answer : AuthStatement → Type
  | .getCachedPrincipal _ => Option Principal
  | .setCachedPrincipal _ _ => Unit
  | .invalidatePrincipal _ => Unit
  | .verifyAccessToken _ => Text
  | .readSession _ => Option SessionRow
  | .nowEpoch => Nat
  | .getActiveWorkspaceId _ => Option Text
  | .getMembership _ _ => Option MemberRow
  | .listUserGroupIds _ _ => List Text
  | .getMember _ => Bool
  | .change _ => Bool
  | .elapse _ => Unit

abbrev AuthFailure := Text

abbrev AuthCall := Process AuthStatement.Answer AuthFailure

def ask (statement : AuthStatement) : AuthCall statement.Answer :=
  Process.perform statement

def missingToken : AuthFailure := "missing_token".toList

def workspaceNotSelected : AuthFailure := "workspace_not_selected".toList

def workspaceForbidden : AuthFailure := "workspace_forbidden".toList

/-- The picker row, unless it is past its time to live. -/
def getCurrentWorkspace (sub : Text) : AuthCall (Option Text) := do
  match ← ask (.readSession sub) with
  | none => pure none
  | some row =>
    let now ← ask .nowEpoch
    if row.expiresAt ≤ now then pure none else pure (some row.currentWorkspaceId)

/-- `requestedHeader || (await getCurrentWorkspace(sub)) ||
(await getActiveWorkspaceId(sub))`, where the empty text counts as none. -/
def selectWorkspace (requestedHeader sub : Text) : AuthCall Text := do
  if requestedHeader ≠ [] then pure requestedHeader
  else
    let current := (← getCurrentWorkspace sub).getD []
    if current ≠ [] then pure current
    else
      let active ← ask (.getActiveWorkspaceId sub)
      pure (active.getD [])

def principalOf (sub workspaceId : Text) (membership : MemberRow) (groupIds : List Text) :
    Principal where
  sub := sub
  workspaceId := workspaceId
  role := membership.role.getD "member".toList
  groupIds := groupIds

def resolvePrincipal (token requestedHeader : Text) : AuthCall Principal := do
  let sub ← ask (.verifyAccessToken token)
  let workspaceId ← selectWorkspace requestedHeader sub
  if workspaceId = [] then Process.raise workspaceNotSelected
  else
    match ← ask (.getMembership workspaceId sub) with
    | none => Process.raise workspaceForbidden
    | some membership =>
      let groupIds ← ask (.listUserGroupIds workspaceId sub)
      let principal := principalOf sub workspaceId membership groupIds
      ask (.setCachedPrincipal (cacheKey (environment.hashToken token) requestedHeader) principal)
      pure principal

def oidcPrincipal (token : Option Text) (requestedHeader : Text) : AuthCall Principal := do
  match token with
  | none => Process.raise missingToken
  | some token =>
    match ← ask (.getCachedPrincipal (cacheKey (environment.hashToken token) requestedHeader)) with
    | some cached => pure cached
    | none => resolvePrincipal environment token requestedHeader

/-- A removal answers whether there was a row; Dynamo reads it first. -/
def removeRow (backend : IdentityBackend) (present : AuthCall Bool) (removal : IdentityChange) :
    AuthCall Bool := do
  match backend with
  | .sql => ask (.change removal)
  | .dynamo =>
    if ← present then
      let _ ← ask (.change removal)
      pure true
    else pure false

def invalidateIf (changed : Bool) (userId : Text) : AuthCall Unit :=
  if changed then ask (.invalidatePrincipal userId) else pure ()

/-- The store operation of a change, wrapped by `withPrincipalInvalidation`
where the factory wraps it. -/
def applyChange : IdentityChange → AuthCall Unit
  | .putMembership row => do
      let _ ← ask (.change (.putMembership row))
      ask (.invalidatePrincipal row.userId)
  | .removeMembership workspaceId userId => do
      let removed ← removeRow environment.backend
        (do pure (← ask (.getMembership workspaceId userId)).isSome)
        (.removeMembership workspaceId userId)
      invalidateIf removed userId
  | .setCurrentWorkspace userId workspaceId ttlSeconds => do
      let _ ← ask (.change (.setCurrentWorkspace userId workspaceId ttlSeconds))
      ask (.invalidatePrincipal userId)
  | .addMember row => do
      let _ ← ask (.change (.addMember row))
      ask (.invalidatePrincipal row.userId)
  | .removeMember row => do
      let removed ← removeRow environment.backend (ask (.getMember row)) (.removeMember row)
      invalidateIf removed row.userId
  | .setActiveWorkspaceId sub workspaceId => do
      let _ ← ask (.change (.setActiveWorkspaceId sub workspaceId))
  | .removeGroup workspaceId groupId => do
      match environment.backend with
      | .sql =>
        let _ ← ask (.change (.removeGroup workspaceId groupId))
      | .dynamo =>
        -- The rows of the members stay behind the deleted group.
        pure ()

structure AuthState where
  rows : IdentityRows
  cache : List CacheEntry

def answerAuth (state : AuthState) :
    (statement : AuthStatement) → Except AuthFailure statement.Answer × AuthState
  | .getCachedPrincipal key =>
    (.ok (getCachedPrincipal state.cache state.rows.clock key).1,
      { state with
        cache := (getCachedPrincipal state.cache state.rows.clock key).2 })
  | .setCachedPrincipal key principal =>
    (.ok (), { state with
      cache := setCachedPrincipal state.cache state.rows.clock environment.ttlMs key principal })
  | .invalidatePrincipal subOrWorkspaceId =>
    (.ok (), { state with
      cache := invalidatePrincipal state.cache subOrWorkspaceId })
  | .verifyAccessToken token =>
    match environment.subjectOf token with
    | some sub => (.ok sub, state)
    | none => (.error "invalid_token".toList, state)
  | .readSession userId => (.ok (state.rows.session userId), state)
  | .nowEpoch => (.ok state.rows.nowEpoch, state)
  | .getActiveWorkspaceId sub => (.ok (state.rows.activeWorkspace sub), state)
  | .getMembership workspaceId userId => (.ok (state.rows.membership workspaceId userId), state)
  | .listUserGroupIds workspaceId userId => (.ok (state.rows.groupIds workspaceId userId), state)
  | .getMember row => (.ok (decide (row ∈ state.rows.groupMembers)), state)
  | .change change =>
    (.ok (state.rows.change change).1, { state with rows := (state.rows.change change).2 })
  | .elapse milliseconds =>
    (.ok (), { state with
      rows := { state.rows with
        clock := state.rows.clock + milliseconds } })

/-- What happens inside the process cannot be refused. -/
def isLocal : AuthStatement → Bool
  | .getCachedPrincipal _ => true
  | .setCachedPrincipal _ _ => true
  | .invalidatePrincipal _ => true
  | .nowEpoch => true
  | .elapse _ => true
  | _ => false

def executeAuth (refused : Bool) (statement : AuthStatement) (state : AuthState) :
    Except AuthFailure statement.Answer × AuthState :=
  if refused && !isLocal statement then (.error "store".toList, state)
  else answerAuth environment state statement

/-- `started` is the number of statements executed before the request. -/
inductive AuthRequest where
  | authenticate (token : Option Text) (requestedHeader : Text)
      (started : Nat)
  | mutate (change : IdentityChange)
  | elapse (milliseconds : Nat)
  deriving DecidableEq

abbrev AuthReply := Option Principal

def serveAuth : AuthRequest → AuthCall AuthReply
  | .authenticate token requestedHeader _ => do
      pure (some (← oidcPrincipal environment token requestedHeader))
  | .mutate change => do
      applyChange environment change
      pure none
  | .elapse milliseconds => do
      ask (.elapse milliseconds)
      pure none

abbrev AuthSystem :=
  Concurrent AuthState AuthRequest AuthStatement.Answer AuthFailure AuthReply

inductive AuthAct where
  | authenticate (token : Option Text) (requestedHeader : Text)
  | mutate (change : IdentityChange)
  | elapse (milliseconds : Nat)
  /-- The statement that the call at a position awaits is executed. -/
  | advance (position : Nat) (refused : Bool)

def startAuth (system : AuthSystem) (request : AuthRequest) : AuthSystem :=
  system.start request (serveAuth environment request)

def authStep (system : AuthSystem) : AuthAct → Option AuthSystem
  | .authenticate token requestedHeader =>
    some (startAuth environment system (.authenticate token requestedHeader system.history.length))
  | .mutate change => some (startAuth environment system (.mutate change))
  | .elapse milliseconds => some (startAuth environment system (.elapse milliseconds))
  | .advance position refused => system.advance (executeAuth environment) position refused

def freshProcess (rows : IdentityRows) : AuthSystem :=
  ⟨⟨rows, []⟩, [], []⟩

end Aprovan.Auth
