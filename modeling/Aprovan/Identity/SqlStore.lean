import Aprovan.Identity.Records
import Aprovan.Library.Keyed

/-!
# The identity store on SQL

`createIdentityStoreSql`: tables whose primary keys are columns.  A null column
is a field that the record lacks.
-/

namespace Aprovan.IdentityStore.Sql

open Aprovan.Library

abbrev UsersTable := Keyed UserRecord.sub

def serveUsers (now : Text) (table : UsersTable) : UsersMethod → IdentityResult × UsersTable
  | .getActiveWorkspaceId sub =>
    let row := table.find? sub
    (.workspaceId (row.bind (·.activeWorkspaceId)), table)
  | .setActiveWorkspaceId sub workspaceId =>
    let inserted : UserRecord :=
      ⟨sub, none, none, some workspaceId, none, some now⟩
    (.done, table.upsert inserted fun user =>
      { user with
        activeWorkspaceId := some workspaceId
        updatedAt := some now })
  | .getMany subs =>
    let rows := table.rows.filter fun user => subs.eraseDups.contains user.sub
    (.users (rows.map toSummary), table)
  | .upsert user =>
    let updatedAt := some (user.updatedAt.getD now)
    let inserted :=
      { user with
        createdAt := some (user.createdAt.getD now)
        updatedAt := updatedAt }
    (.done, table.upsert inserted fun old =>
      { old with
        email := user.email
        name := user.name
        activeWorkspaceId := user.activeWorkspaceId
        updatedAt := updatedAt })

abbrev WorkspacesTable := Keyed WorkspaceRecord.workspaceId

def workspaceOnConflict (now : Text) (workspace old : WorkspaceRecord) : WorkspaceRecord :=
  { old with
    name := workspace.name
    plan := workspace.plan
    dataDir := workspace.dataDir
    vfsRoot := workspace.vfsRoot
    updatedAt := some (workspace.updatedAt.getD now) }

def serveWorkspaces (now : Text) (table : WorkspacesTable) :
    WorkspacesMethod → IdentityResult × WorkspacesTable
  | .get workspaceId => (.workspace (table.find? workspaceId), table)
  | .getMany workspaceIds => (.workspaces (workspaceIds.filterMap table.find?), table)
  | .put workspace =>
    let inserted :=
      { workspace with
        createdAt := some (workspace.createdAt.getD now)
        updatedAt := some (workspace.updatedAt.getD now) }
    (.done, table.upsert inserted (workspaceOnConflict now workspace))

def membershipKey (record : MembershipRecord) : Text × Text :=
  (record.workspaceId, record.userId)

abbrev MembershipsTable := Keyed membershipKey

def serveMemberships (now : Text) (table : MembershipsTable) :
    MembershipsMethod → IdentityResult × MembershipsTable
  | .get workspaceId userId => (.membership (table.find? (workspaceId, userId)), table)
  | .listByWorkspace workspaceId =>
    let rows := table.rows.filter (·.workspaceId = workspaceId)
    (.memberships rows, table)
  | .listByUser userId =>
    let rows := table.rows.filter (·.userId = userId)
    (.memberships rows, table)
  | .put record =>
    let inserted := membershipToPut now record
    (.done, table.upsert inserted fun old => { old with role := inserted.role })
  | .remove workspaceId userId =>
    let changes := table.rows.countP fun record => membershipKey record = (workspaceId, userId)
    (.flag (0 < changes), table.erase (workspaceId, userId))

def groupKey (group : GroupRecord) : Text × Text :=
  (group.workspaceId, group.groupId)

def userGroupKey (member : UserGroupRecord) : Text × Text × Text :=
  (member.workspaceId, member.groupId, member.userId)

structure GroupTables where
  groups : Keyed groupKey
  userGroups : Keyed userGroupKey

def serveGroups (moment : Moment) (tables : GroupTables) :
    GroupsMethod → IdentityResult × GroupTables
  | .create workspaceId name description =>
    let group := createdGroup moment workspaceId name description
    -- The insert has no conflict clause.
    match tables.groups.find? (groupKey group) with
    | some _ => (.rejected, tables)
    | none => (.group (some group), { tables with groups := tables.groups.put group })
  | .list workspaceId =>
    let rows := tables.groups.rows.filter (·.workspaceId = workspaceId)
    (.groups rows, tables)
  | .get workspaceId groupId => (.group (tables.groups.find? (workspaceId, groupId)), tables)
  | .update workspaceId groupId name description =>
    match tables.groups.find? (workspaceId, groupId) with
    | none => (.group none, tables)
    | some existing =>
      let next := patched moment.now name description existing
      (.group (some next), { tables with groups := tables.groups.put next })
  | .remove workspaceId groupId =>
    let changes := tables.groups.rows.countP fun group => groupKey group = (workspaceId, groupId)
    if changes = 0 then (.flag false, tables)
    else
      (.flag true,
        { groups := tables.groups.erase (workspaceId, groupId)
          userGroups := tables.userGroups.keep fun member =>
            !(member.workspaceId = workspaceId && member.groupId = groupId) })
  | .addMember workspaceId groupId userId =>
    let member : UserGroupRecord := ⟨workspaceId, userId, groupId⟩
    (.done, { tables with userGroups := tables.userGroups.upsert member id })
  | .removeMember workspaceId groupId userId =>
    let changes := tables.userGroups.rows.countP fun member =>
      userGroupKey member = (workspaceId, groupId, userId)
    (.flag (0 < changes),
      { tables with
        userGroups :=
          tables.userGroups.erase (workspaceId, groupId, userId) })
  | .listGroupIdsForUser workspaceId userId =>
    let rows := tables.userGroups.rows.filter fun member =>
      member.workspaceId = workspaceId && member.userId = userId
    (.ids (rows.map (·.groupId)), tables)
  | .listUserIdsForGroup workspaceId groupId =>
    let rows := tables.userGroups.rows.filter fun member =>
      member.workspaceId = workspaceId && member.groupId = groupId
    (.ids (rows.map (·.userId)), tables)

def permissionKey (permission : Permission) : Text × Text × Text × Text :=
  (permission.workspaceId, permission.callerId, permission.provider, permission.operation)

abbrev PermissionsTable := Keyed permissionKey

def servePermissions (moment : Moment) (table : PermissionsTable) :
    PermissionsMethod → IdentityResult × PermissionsTable
  | .grant workspaceId input =>
    let permission := granted moment workspaceId input
    (.permission permission, table.upsert permission fun old =>
      { old with
        id := permission.id
        grantedBy := permission.grantedBy
        grantedAt := permission.grantedAt })
  | .revoke workspaceId id =>
    let isRevoked := fun permission : Permission =>
      permission.workspaceId = workspaceId && permission.id = id
    let changes := table.rows.countP isRevoked
    (.flag (0 < changes), table.keep (!isRevoked ·))
  | .list workspaceId callerId =>
    let rows :=
      -- An empty caller is as good as none.
      match callerId with
      | some (letter :: rest) =>
        table.rows.filter fun permission =>
          permission.workspaceId = workspaceId && permission.callerId = letter :: rest
      | _ => table.rows.filter (·.workspaceId = workspaceId)
    (.permissions rows, table)
  | .check workspaceId callerId provider operation =>
    let rows := table.rows.filter fun permission =>
      permission.workspaceId = workspaceId &&
        permission.callerId = callerId && permission.provider = provider &&
        (permission.operation = operation || permission.operation = wildcard)
    (.flag (!(rows.take 1).isEmpty), table)

structure Store where
  /-- How many methods were called. -/
  served : Nat
  users : UsersTable
  workspaces : WorkspacesTable
  memberships : MembershipsTable
  groups : GroupTables
  permissions : PermissionsTable

def emptyStore : Store where
  served := 0
  users := Keyed.empty
  workspaces := Keyed.empty
  memberships := Keyed.empty
  groups := ⟨Keyed.empty, Keyed.empty⟩
  permissions := Keyed.empty

/-- One method of the store; the method called after `n` others draws the id
`freshId n` at the time `now n`. -/
def serve (freshId now : Nat → Text) (store : Store) (method : IdentityMethod) :
    IdentityResult × Store :=
  let moment : Moment := ⟨freshId store.served, now store.served⟩
  let next := { store with served := store.served + 1 }
  match method with
  | .users method =>
    let answered := serveUsers moment.now store.users method
    (answered.1, { next with users := answered.2 })
  | .workspaces method =>
    let answered := serveWorkspaces moment.now store.workspaces method
    (answered.1, { next with workspaces := answered.2 })
  | .memberships method =>
    let answered := serveMemberships moment.now store.memberships method
    (answered.1, { next with memberships := answered.2 })
  | .groups method =>
    let answered := serveGroups moment store.groups method
    (answered.1, { next with groups := answered.2 })
  | .permissions method =>
    let answered := servePermissions moment store.permissions method
    (answered.1, { next with permissions := answered.2 })

end Aprovan.IdentityStore.Sql
