import Aprovan.Identity.Records
import Aprovan.Library.ItemTable

/-!
# The identity store on DynamoDB

`createIdentityStoreDynamo`: items in a table a record type, the permissions
and the pointers from their ids in one table.  The reads and the writes of the
group members go to one table, as the two variables of the environment that
name it do in the deployment.
-/

namespace Aprovan.IdentityStore.Dynamo

open Aprovan.Library Aprovan.Library.ItemTable

def usersSchema : ItemSchema UserRecord where
  key user := [user.sub]
  attributes user :=
    [("sub".toList, user.sub)] ++ optionalAttribute "email".toList user.email ++
      optionalAttribute "name".toList user.name ++
      optionalAttribute "activeWorkspaceId".toList user.activeWorkspaceId ++
      optionalAttribute "createdAt".toList user.createdAt ++
      optionalAttribute "updatedAt".toList user.updatedAt

def workspacesSchema : ItemSchema WorkspaceRecord where
  key workspace := [workspace.workspaceId]
  attributes workspace :=
    [("workspaceId".toList, workspace.workspaceId), ("name".toList, workspace.name)] ++
      optionalAttribute "plan".toList workspace.plan ++
      optionalAttribute "locus".toList (workspace.locus.map (·.text)) ++
      optionalAttribute "dataDir".toList workspace.dataDir ++
      optionalAttribute "vfsRoot".toList workspace.vfsRoot ++
      optionalAttribute "createdAt".toList workspace.createdAt ++
      optionalAttribute "updatedAt".toList workspace.updatedAt

def membershipsSchema : ItemSchema MembershipRecord where
  key record := [record.workspaceId, record.userId]
  attributes record :=
    [("workspaceId".toList, record.workspaceId), ("userId".toList, record.userId)] ++
      optionalAttribute "role".toList record.role ++
      optionalAttribute "createdAt".toList record.createdAt

def groupsSchema : ItemSchema GroupRecord where
  key group := [group.workspaceId, group.groupId]
  attributes group :=
    [("workspaceId".toList, group.workspaceId),
      ("groupId".toList, group.groupId), ("name".toList, group.name),
      ("createdAt".toList, group.createdAt),
      ("updatedAt".toList, group.updatedAt)] ++
      optionalAttribute "description".toList group.description

/-- The value of the attribute `workspaceId#userId`. -/
def memberKey (workspaceId userId : Text) : Text :=
  workspaceId ++ '#' :: userId

def userGroupsSchema : ItemSchema UserGroupRecord where
  key member := [memberKey member.workspaceId member.userId, member.groupId]
  attributes member :=
    [("workspaceId#userId".toList, memberKey member.workspaceId member.userId),
      ("groupId".toList, member.groupId),
      ("workspaceId".toList, member.workspaceId),
      ("userId".toList, member.userId)]

/-- An item of the permissions table: a grant, or the pointer from a
permission's id to what it is for. -/
inductive PermissionItem where
  | grant (permission : Permission)
  | pointer (workspaceId id callerId provider operation : Text)
  deriving DecidableEq

def permissionPk (workspaceId : Text) : Text :=
  "WS#".toList ++ workspaceId

def permSk (callerId provider operation : Text) : Text :=
  "PERM#".toList ++ callerId ++ '#' :: provider ++ '#' :: operation

def permIdSk (id : Text) : Text :=
  "PERMID#".toList ++ id

/-- The attributes `PK` and `SK`. -/
def PermissionItem.key : PermissionItem → List Text
  | .grant permission =>
    [permissionPk permission.workspaceId,
      permSk permission.callerId permission.provider permission.operation]
  | .pointer workspaceId id _ _ _ => [permissionPk workspaceId, permIdSk id]

def PermissionItem.attributes : PermissionItem → List (Text × Text)
  | .grant permission =>
    [("PK".toList, permissionPk permission.workspaceId),
      ("SK".toList, permSk permission.callerId permission.provider permission.operation),
      ("id".toList, permission.id),
      ("workspaceId".toList, permission.workspaceId),
      ("callerId".toList, permission.callerId),
      ("provider".toList, permission.provider),
      ("operation".toList, permission.operation),
      ("grantedAt".toList, permission.grantedAt),
      ("grantedBy".toList, permission.grantedBy)]
  | .pointer workspaceId id callerId provider operation =>
    [("PK".toList, permissionPk workspaceId),
      ("SK".toList, permIdSk id), ("callerId".toList, callerId),
      ("provider".toList, provider), ("operation".toList, operation)]

def permissionsSchema : ItemSchema PermissionItem where
  key := PermissionItem.key
  attributes := PermissionItem.attributes

/-- `toPermission`, on an item that has the attributes of a permission. -/
def toPermission : PermissionItem → Option Permission
  | .grant permission => some permission
  | .pointer _ _ _ _ _ => none

def PermissionItem.sk : PermissionItem → Text
  | .grant permission => permSk permission.callerId permission.provider permission.operation
  | .pointer _ _ callerId provider operation => permSk callerId provider operation

abbrev UsersTable := ItemTable usersSchema

def bareUser (sub : Text) : UserRecord :=
  ⟨sub, none, none, none, none, none⟩

/-- The keys of a batch hold at most a hundred subs. -/
def userBatches (subs : List Text) : List (List Text) :=
  batches 100 subs.eraseDups.length subs.eraseDups

def serveUsers (table : UsersTable) : UsersMethod → Except ItemError (IdentityResult × UsersTable)
  | .getActiveWorkspaceId sub => do
      let found ← table.getItem [sub]
      return (.workspaceId (found.bind (·.activeWorkspaceId)), table)
  | .setActiveWorkspaceId sub workspaceId => do
      let updated ← table.updateItem [sub] (fun _ => true) (bareUser sub)
        fun user => { user with activeWorkspaceId := some workspaceId }
      return (.done, updated.2)
  | .getMany subs => do
      let answered ← (userBatches subs).mapM fun batch =>
        table.batchGet (batch.map fun sub => [sub])
      return (.users (answered.flatten.map toSummary), table)
  | .upsert user => do
      let written ← table.putItem user
      return (.done, written)

abbrev WorkspacesTable := ItemTable workspacesSchema

def itemToPut (existing : Option WorkspaceRecord) (workspace : WorkspaceRecord) :
    WorkspaceRecord :=
  match existing.bind (·.locus) with
  | some locus => { workspace with locus := some locus }
  | none => workspace

def serveWorkspaces (table : WorkspacesTable) :
    WorkspacesMethod → Except ItemError (IdentityResult × WorkspacesTable)
  | .get workspaceId => do
      let found ← table.getItem [workspaceId]
      return (.workspace found, table)
  | .getMany workspaceIds => do
      let found ← workspaceIds.mapM fun id => table.getItem [id]
      return (.workspaces (found.filterMap id), table)
  | .put workspace => do
      let existing ← table.getItem [workspace.workspaceId]
      let written ← table.putItem (itemToPut existing workspace)
      return (.done, written)

abbrev MembershipsTable := ItemTable membershipsSchema

def serveMemberships (now : Text) (table : MembershipsTable) :
    MembershipsMethod → Except ItemError (IdentityResult × MembershipsTable)
  | .get workspaceId userId => do
      let found ← table.getItem [workspaceId, userId]
      return (.membership found, table)
  | .listByWorkspace workspaceId => do
      let rows ← table.query workspaceId []
      return (.memberships rows, table)
  | .listByUser userId => do
      let rows ← table.queryIndex (·.userId) userId
      return (.memberships rows, table)
  | .put record => do
      let written ← table.putItem (membershipToPut now record)
      return (.done, written)
  | .remove workspaceId userId => do
      match ← table.getItem [workspaceId, userId] with
      | none => return (.flag false, table)
      | some _ =>
        let written ← table.deleteItem [workspaceId, userId]
        return (.flag true, written)

structure GroupTables where
  groups : ItemTable groupsSchema
  userGroups : ItemTable userGroupsSchema

def bareGroup (workspaceId groupId : Text) : GroupRecord :=
  ⟨workspaceId, groupId, [], none, [], []⟩

def serveGroups (moment : Moment) (tables : GroupTables) :
    GroupsMethod → Except ItemError (IdentityResult × GroupTables)
  | .create workspaceId name description => do
      let group := createdGroup moment workspaceId name description
      let written ← tables.groups.putItemIf Option.isNone group
      return (.group (some group), { tables with groups := written })
  | .list workspaceId => do
      let rows ← tables.groups.query workspaceId []
      return (.groups rows, tables)
  | .get workspaceId groupId => do
      let found ← tables.groups.getItem [workspaceId, groupId]
      return (.group found, tables)
  | .update workspaceId groupId name description =>
    match tables.groups.updateItem [workspaceId, groupId] Option.isSome
        (bareGroup workspaceId groupId)
        (patched moment.now name description) with
    | .ok (group, written) => .ok (.group (some group), { tables with groups := written })
    | .error .conditionalCheckFailed => .ok (.group none, tables)
    | .error error => .error error
  | .remove workspaceId groupId => do
      match ← tables.groups.getItem [workspaceId, groupId] with
      | none => return (.flag false, tables)
      | some _ =>
        let written ← tables.groups.deleteItem [workspaceId, groupId]
        return (.flag true, { tables with groups := written })
  | .addMember workspaceId groupId userId => do
      let written ← tables.userGroups.putItem ⟨workspaceId, userId, groupId⟩
      return (.done, { tables with userGroups := written })
  | .removeMember workspaceId groupId userId => do
      let key := [memberKey workspaceId userId, groupId]
      match ← tables.userGroups.getItem key with
      | none => return (.flag false, tables)
      | some _ =>
        let written ← tables.userGroups.deleteItem key
        return (.flag true, { tables with userGroups := written })
  | .listGroupIdsForUser workspaceId userId => do
      let rows ← tables.userGroups.query (memberKey workspaceId userId) []
      return (.ids (rows.map (·.groupId)), tables)
  | .listUserIdsForGroup workspaceId groupId =>
    let rows := tables.userGroups.scan fun member =>
      member.workspaceId = workspaceId && member.groupId = groupId
    .ok (.ids (rows.map (·.userId)), tables)

abbrev PermissionsTable := ItemTable permissionsSchema

def pointerTo (permission : Permission) : PermissionItem :=
  .pointer permission.workspaceId permission.id permission.callerId
    permission.provider permission.operation

/-- The sort keys that answer a check. -/
def checkSks (callerId provider operation : Text) : List Text :=
  if operation = wildcard then [permSk callerId provider wildcard]
  else [permSk callerId provider operation, permSk callerId provider wildcard]

/-- The initial part of the sort keys of a listing. -/
def listSk : Option Text → Text
  | some callerId => "PERM#".toList ++ callerId ++ ['#']
  | none => "PERM#".toList

def servePermissions (moment : Moment) (table : PermissionsTable) :
    PermissionsMethod → Except ItemError (IdentityResult × PermissionsTable)
  | .grant workspaceId input => do
      let permission := granted moment workspaceId input
      let written ← table.putItem (.grant permission)
      let pointed ← written.putItem (pointerTo permission)
      return (.permission permission, pointed)
  | .revoke workspaceId id => do
      match ← table.getItem [permissionPk workspaceId, permIdSk id] with
      | none => return (.flag false, table)
      | some pointer =>
        let written ← table.deleteItem [permissionPk workspaceId, pointer.sk]
        let forgotten ← written.deleteItem [permissionPk workspaceId, permIdSk id]
        return (.flag true, forgotten)
  | .list workspaceId callerId => do
      let rows ← table.query (permissionPk workspaceId) (listSk callerId)
      return (.permissions (rows.filterMap toPermission), table)
  | .check workspaceId callerId provider operation => do
      let rows ← table.batchGet <|
        (checkSks callerId provider operation).map fun sk => [permissionPk workspaceId, sk]
      return (.flag (!rows.isEmpty), table)

structure Store where
  /-- How many methods were called. -/
  served : Nat
  users : UsersTable
  workspaces : WorkspacesTable
  memberships : MembershipsTable
  groups : GroupTables
  permissions : PermissionsTable

def emptyStore : Store where
  served := 0
  users := Keyed.empty
  workspaces := Keyed.empty
  memberships := Keyed.empty
  groups := ⟨Keyed.empty, Keyed.empty⟩
  permissions := Keyed.empty

/-- A method that is refused rejects and changes nothing. -/
def settle {Tables : Type} (tables : Tables)
    (outcome : Except ItemError (IdentityResult × Tables)) :
    IdentityResult × Tables :=
  match outcome with
  | .ok answered => answered
  | .error _ => (.rejected, tables)

/-- One method of the store; the method called after `n` others draws the id
`freshId n` at the time `now n`. -/
def serve (freshId now : Nat → Text) (store : Store) (method : IdentityMethod) :
    IdentityResult × Store :=
  let moment : Moment := ⟨freshId store.served, now store.served⟩
  let next := { store with served := store.served + 1 }
  match method with
  | .users method =>
    let answered := settle store.users (serveUsers store.users method)
    (answered.1, { next with users := answered.2 })
  | .workspaces method =>
    let answered :=
      settle store.workspaces (serveWorkspaces store.workspaces method)
    (answered.1, { next with workspaces := answered.2 })
  | .memberships method =>
    let answered := settle store.memberships (serveMemberships moment.now store.memberships method)
    (answered.1, { next with memberships := answered.2 })
  | .groups method =>
    let answered :=
      settle store.groups (serveGroups moment store.groups method)
    (answered.1, { next with groups := answered.2 })
  | .permissions method =>
    let answered := settle store.permissions (servePermissions moment store.permissions method)
    (answered.1, { next with permissions := answered.2 })

end Aprovan.IdentityStore.Dynamo
