import Aprovan.Library.Text

/-!
# Identity records

The rows and the methods of `IIdentityStore`, as far as users, workspaces,
memberships, groups, group members and permissions are concerned.  An optional
field that is `undefined` is one that the record lacks.
-/

namespace Aprovan.IdentityStore

open Aprovan.Library

structure UserRecord where
  sub : Text
  (email name activeWorkspaceId createdAt : Option Text)
  updatedAt : Option Text

/-- The fields of a user that `getMany` picks. -/
structure UserSummary where
  sub : Text
  (email name : Option Text)
  deriving DecidableEq

/-- `"local"` or `"cloud"`. -/
inductive WorkspaceLocus where
  | onMachine
  | inCloud
  deriving DecidableEq

def WorkspaceLocus.text : WorkspaceLocus → Text
  | .onMachine => "local".toList
  | .inCloud => "cloud".toList

structure WorkspaceRecord where
  (workspaceId name : Text)
  plan : Option Text
  locus : Option WorkspaceLocus
  (dataDir vfsRoot createdAt updatedAt : Option Text)
  deriving DecidableEq

structure MembershipRecord where
  (workspaceId userId : Text)
  (role createdAt : Option Text)
  deriving DecidableEq

structure GroupRecord where
  (workspaceId groupId name : Text)
  description : Option Text
  (createdAt updatedAt : Text)
  deriving DecidableEq

structure UserGroupRecord where
  (workspaceId userId groupId : Text)

structure Permission where
  (id workspaceId callerId provider : Text)
  (operation grantedAt grantedBy : Text)
  deriving DecidableEq

structure GrantInput where
  (callerId provider operation grantedBy : Text)

/-- The operation of a permission for every operation of its provider. -/
def wildcard : Text := "*".toList

inductive UsersMethod where
  | getActiveWorkspaceId (sub : Text)
  | setActiveWorkspaceId (sub workspaceId : Text)
  | getMany (subs : List Text)
  | upsert (user : UserRecord)

inductive WorkspacesMethod where
  | get (workspaceId : Text)
  | getMany (workspaceIds : List Text)
  | put (workspace : WorkspaceRecord)

inductive MembershipsMethod where
  | get (workspaceId userId : Text)
  | listByWorkspace (workspaceId : Text)
  | listByUser (userId : Text)
  | put (record : MembershipRecord)
  | remove (workspaceId userId : Text)

inductive GroupsMethod where
  | create (workspaceId name : Text) (description : Option Text)
  | list (workspaceId : Text)
  | get (workspaceId groupId : Text)
  | update (workspaceId groupId : Text) (name description : Option Text)
  | remove (workspaceId groupId : Text)
  | addMember (workspaceId groupId userId : Text)
  | removeMember (workspaceId groupId userId : Text)
  | listGroupIdsForUser (workspaceId userId : Text)
  | listUserIdsForGroup (workspaceId groupId : Text)

inductive PermissionsMethod where
  | grant (workspaceId : Text) (input : GrantInput)
  | revoke (workspaceId id : Text)
  | list (workspaceId : Text) (callerId : Option Text)
  | check (workspaceId callerId provider operation : Text)

inductive IdentityMethod where
  | users (method : UsersMethod)
  | workspaces (method : WorkspacesMethod)
  | memberships (method : MembershipsMethod)
  | groups (method : GroupsMethod)
  | permissions (method : PermissionsMethod)

/-- What the promise of a method resolves to, or that it rejects. -/
inductive IdentityResult where
  | done
  | flag (value : Bool)
  | workspaceId (value : Option Text)
  | users (rows : List UserSummary)
  | workspace (row : Option WorkspaceRecord)
  | workspaces (rows : List WorkspaceRecord)
  | membership (row : Option MembershipRecord)
  | memberships (rows : List MembershipRecord)
  | group (row : Option GroupRecord)
  | groups (rows : List GroupRecord)
  | ids (rows : List Text)
  | permission (row : Permission)
  | permissions (rows : List Permission)
  | rejected
  deriving DecidableEq

def SameSet {Row : Type} (first second : List Row) : Prop :=
  first ⊆ second ∧ second ⊆ first

/-- Two results are the same, lists being compared as sets. -/
def Agree : IdentityResult → IdentityResult → Prop
  | .users first, .users second => SameSet first second
  | .workspaces first, .workspaces second => SameSet first second
  | .memberships first, .memberships second => SameSet first second
  | .groups first, .groups second => SameSet first second
  | .ids first, .ids second => SameSet first second
  | .permissions first, .permissions second => SameSet first second
  | first, second => first = second

/-- What a method reads besides its arguments and its store: the id that it
draws and the time. -/
structure Moment where
  (freshId now : Text)

def toSummary (user : UserRecord) : UserSummary :=
  ⟨user.sub, user.email, user.name⟩

/-- The row for a record, with the defaults of `put`. -/
def membershipToPut (now : Text) (record : MembershipRecord) : MembershipRecord :=
  { record with
    role := some (record.role.getD "member".toList)
    createdAt := some (record.createdAt.getD now) }

def granted (moment : Moment) (workspaceId : Text) (input : GrantInput) : Permission :=
  ⟨moment.freshId, workspaceId, input.callerId, input.provider,
    input.operation, moment.now, input.grantedBy⟩

/-- The group that `create` returns. -/
def createdGroup (moment : Moment) (workspaceId name : Text) (description : Option Text) :
    GroupRecord :=
  ⟨workspaceId, moment.freshId, name, description, moment.now, moment.now⟩

/-- The patch of an update, with the time of the update. -/
def patched (now : Text) (name description : Option Text) (group : GroupRecord) : GroupRecord :=
  { group with
    name := name.getD group.name
    description := description.orElse fun _ => group.description
    updatedAt := now }

end Aprovan.IdentityStore
