import Aprovan.Identity.DynamoStore
import Aprovan.Identity.SqlStore

/-!
# Tables of the two identity backends

Users, workspaces, memberships and groups in the two stores: under a condition
on the method, the stores give the same result and keep showing the same rows.
-/

namespace Aprovan.IdentityStore

open Aprovan.Library Aprovan.Library.ItemTable

theorem sameSet_refl {Row : Type} (rows : List Row) : SameSet rows rows :=
  ⟨List.Subset.refl rows, List.Subset.refl rows⟩

theorem sameSet_of_perm {Row : Type} {first second : List Row} (permuted : first.Perm second) :
    SameSet first second :=
  ⟨permuted.subset, permuted.symm.subset⟩

theorem sameSet_of_mem {Row : Type} {first second : List Row}
    (same : ∀ row, row ∈ first ↔ row ∈ second) : SameSet first second :=
  ⟨fun row member => (same row).mp member,
    fun row member => (same row).mpr member⟩

/-- Both backends give the same result and leave related tables. -/
def ServedAlike {Tables Rows : Type} (related : Tables → Rows → Prop)
    (dynamo : IdentityResult × Tables) (sql : IdentityResult × Rows) : Prop :=
  Agree dynamo.1 sql.1 ∧ related dynamo.2 sql.2

/-- The fields of a user that a method returns. -/
def visible (user : UserRecord) : UserSummary × Option Text :=
  (toSummary user, user.activeWorkspaceId)

def UsersRelated (table : Dynamo.UsersTable) (rows : Sql.UsersTable) : Prop :=
  table.rows.map visible = rows.rows.map visible

def UsersCondition (table : Dynamo.UsersTable) : UsersMethod → Prop
  | .getActiveWorkspaceId sub => acceptsKey [sub]
  | .setActiveWorkspaceId sub workspaceId =>
    acceptsKey [sub] ∧ admits Dynamo.usersSchema
        { (table.find? [sub]).getD (Dynamo.bareUser sub) with
          activeWorkspaceId := some workspaceId }
  | .getMany subs =>
    ∀ batch ∈ Dynamo.userBatches subs, table.BatchFits (batch.map fun sub => [sub])
  | .upsert user => admits Dynamo.usersSchema user

section

variable {table : Dynamo.UsersTable} {rows : Sql.UsersTable} {now : Text}

theorem find_user (same : UsersRelated table rows) (sub : Text) :
    (table.find? [sub]).map visible = (rows.find? sub).map visible := by
  have isSub : ∀ user : UserRecord,
      decide ((visible user).1.sub = sub) ↔ user.sub = sub := by
    intro user
    rw [decide_eq_true_iff]
    rfl
  apply Keyed.map_find?_congr same fun seen => decide (seen.1.sub = sub)
  · intro user
    have single : Dynamo.usersSchema.key user = [sub] ↔ user.sub = sub := List.singleton_inj
    exact (isSub user).trans single.symm
  · exact isSub

theorem put_user (same : UsersRelated table rows)
    {item row : UserRecord} (alike : visible item = visible row) :
    UsersRelated (table.put item) (rows.put row) := by
  have first := @map_putUnder _ _ _ Dynamo.usersSchema.key item _ _ _
    (fun seen : UserSummary × Option Text => seen.1.sub) table.rows visible
    (by intro old; simp [Dynamo.usersSchema, visible, toSummary])
  have second := @map_putUnder _ _ _ UserRecord.sub row _ _ _
    (fun seen : UserSummary × Option Text => seen.1.sub) rows.rows visible
    (by intro old; rfl)
  rw [UsersRelated, Keyed.rows_put, Keyed.rows_put, first, second, same, alike]

theorem mem_summaries {users : List UserRecord} {subs : List Text} {summary : UserSummary} :
    (∃ user ∈ users, user.sub ∈ subs ∧ toSummary user = summary) ↔
      ∃ seen ∈ users.map visible, seen.1.sub ∈ subs ∧ seen.1 = summary := by
  constructor
  · intro found
    obtain ⟨user, member, asked, same⟩ := found
    exact ⟨visible user, List.mem_map_of_mem member, asked, same⟩
  · intro found
    obtain ⟨seen, member, asked, same⟩ := found
    obtain ⟨user, present, shown⟩ := List.mem_map.mp member
    rw [← shown] at asked same
    exact ⟨user, present, asked, same⟩

theorem mem_answered (subs : List Text) (user : UserRecord) :
    user ∈ ((Dynamo.userBatches subs).map fun batch =>
        (batch.map fun sub => [sub]).filterMap table.find?).flatten ↔
      user ∈ table.rows ∧ user.sub ∈ subs := by
  have split : ∀ sub, sub ∈ subs ↔ ∃ batch ∈ Dynamo.userBatches subs, sub ∈ batch := by
    intro sub
    have whole := @flatten_batches _ 100 subs.eraseDups.length (by omega) subs.eraseDups le_rfl
    rw [← List.mem_eraseDups, ← whole, List.mem_flatten]
    rfl
  rw [List.mem_flatten]
  constructor
  · intro found
    obtain ⟨answer, isAnswer, member⟩ := found
    obtain ⟨batch, inside, same⟩ := List.mem_map.mp isAnswer
    rw [← same, List.filterMap_map, List.mem_filterMap] at member
    obtain ⟨sub, asked, held⟩ := member
    obtain ⟨present, keyed⟩ := Keyed.find?_eq_some_iff.mp held
    have own : user.sub = sub := List.singleton_inj.mp keyed
    rw [own]
    exact ⟨present, (split sub).mpr ⟨batch, inside, asked⟩⟩
  · intro held
    obtain ⟨batch, inside, asked⟩ := (split user.sub).mp held.2
    refine ⟨_, List.mem_map_of_mem inside, ?_⟩
    rw [List.filterMap_map, List.mem_filterMap]
    exact ⟨user.sub, asked, Keyed.find?_eq_some_iff.mpr ⟨held.1, rfl⟩⟩

theorem users_agree (same : UsersRelated table rows)
    {method : UsersMethod} (condition : UsersCondition table method) :
    ServedAlike UsersRelated (Dynamo.settle table (Dynamo.serveUsers table method))
      (Sql.serveUsers now rows method) := by
  cases method with
  | getActiveWorkspaceId sub =>
    have answered : Dynamo.serveUsers table (.getActiveWorkspaceId sub) =
        .ok (.workspaceId ((table.find? [sub]).bind (·.activeWorkspaceId)), table) := by
      rw [Dynamo.serveUsers, getItem_of_accepts condition]
      rfl
    rw [answered]
    refine ⟨?_, same⟩
    have found := find_user same sub
    have shown := congrArg (fun seen => seen.bind Prod.snd) found
    simp only [Option.bind_map] at shown
    exact congrArg IdentityResult.workspaceId shown
  | setActiveWorkspaceId sub workspaceId =>
    have answered := @updateItem_of_admits _ _ table [sub] (fun _ => true) (Dynamo.bareUser sub)
      (fun user => { user with activeWorkspaceId := some workspaceId })
      condition.1 rfl condition.2
    rw [Dynamo.serveUsers, answered]
    refine ⟨rfl, ?_⟩
    apply put_user same
    have found := find_user same sub
    cases held : table.find? [sub] with
    | none =>
      rw [held] at found
      have absent : rows.find? sub = none := Option.map_eq_none_iff.mp found.symm
      simp only [absent]
      rfl
    | some user =>
      rw [held] at found
      obtain ⟨row, present, shown⟩ := Option.map_eq_some_iff.mp found.symm
      simp only [present]
      simp only [visible, toSummary, Prod.mk.injEq, UserSummary.mk.injEq] at shown
      simp [visible, toSummary, shown]
  | getMany subs =>
    have answered := @mapM_of_answered _ _
      (fun batch : List Text => table.batchGet (batch.map fun sub => [sub]))
      _ (Dynamo.userBatches subs)
      fun batch member => batchGet_of_fits (condition batch member)
    rw [Dynamo.serveUsers, answered]
    refine ⟨sameSet_of_mem ?_, same⟩
    intro summary
    have known := @mem_summaries table.rows subs summary
    have listed := @mem_summaries rows.rows subs summary
    rw [same, ← listed] at known
    have first : summary ∈ (((Dynamo.userBatches subs).map fun batch =>
        (batch.map fun sub => [sub]).filterMap table.find?).flatten).map toSummary ↔
        ∃ user ∈ table.rows, user.sub ∈ subs ∧ toSummary user = summary := by
      simp only [List.mem_map (f := toSummary), mem_answered, and_assoc]
    rw [first, known]
    simp [and_assoc]
  | upsert user =>
    rw [Dynamo.serveUsers, putItem_of_admits condition]
    refine ⟨rfl, ?_⟩
    apply put_user same
    show visible user = visible ((rows.find? user.sub).elim _ _)
    cases held : rows.find? user.sub with
    | none => rfl
    | some old =>
      have own := (Keyed.find?_eq_some_iff.mp held).2
      simp [visible, toSummary, own]

end

/-- A put of a workspace that has its dates, does not move its creation and
gives no locus to a workspace without one. -/
def KeepsWorkspace (existing : Option WorkspaceRecord) (workspace : WorkspaceRecord) : Prop :=
  workspace.updatedAt.isSome ∧
    match existing with
    | none => workspace.createdAt.isSome
    | some old => workspace.createdAt = old.createdAt ∧ (old.locus = none → workspace.locus = none)

instance (existing : Option WorkspaceRecord) (workspace : WorkspaceRecord) :
    Decidable (KeepsWorkspace existing workspace) :=
  match existing with
  | none => inferInstanceAs (Decidable (_ ∧ _))
  | some _ => inferInstanceAs (Decidable (_ ∧ _ ∧ _))

def WorkspacesCondition (table : Dynamo.WorkspacesTable) : WorkspacesMethod → Prop
  | .get workspaceId => acceptsKey [workspaceId]
  | .getMany workspaceIds => ∀ id ∈ workspaceIds, acceptsKey [id]
  | .put workspace =>
    acceptsKey [workspace.workspaceId] ∧ admits Dynamo.workspacesSchema
        (Dynamo.itemToPut (table.find? [workspace.workspaceId]) workspace) ∧
      KeepsWorkspace (table.find? [workspace.workspaceId]) workspace

section

variable {table : Dynamo.WorkspacesTable} {rows : Sql.WorkspacesTable}
  {now : Text}

theorem find_workspace (same : table.rows = rows.rows) (workspaceId : Text) :
    table.find? [workspaceId] = rows.find? workspaceId := by
  apply Keyed.find?_congr same
  intro row _
  exact List.singleton_inj

theorem itemToPut_of_keeps {existing : Option WorkspaceRecord} {workspace : WorkspaceRecord}
    (now : Text) (kept : KeepsWorkspace existing workspace)
    (own : ∀ old ∈ existing, old.workspaceId = workspace.workspaceId) :
    Dynamo.itemToPut existing workspace = existing.elim
        { workspace with
          createdAt := some (workspace.createdAt.getD now)
          updatedAt := some (workspace.updatedAt.getD now) }
        (Sql.workspaceOnConflict now workspace) := by
  obtain ⟨dated, keeps⟩ := kept
  obtain ⟨updatedAt, isUpdated⟩ := Option.isSome_iff_exists.mp dated
  obtain ⟨workspaceId, name, plan, locus, dataDir, vfsRoot, createdAt, _⟩ :=
    workspace
  cases isUpdated
  cases existing with
  | none =>
    obtain ⟨creation, isCreated⟩ := Option.isSome_iff_exists.mp keeps
    cases isCreated
    rfl
  | some old =>
    obtain ⟨sameCreation, sameLocus⟩ := keeps
    have sameId := own old rfl
    obtain ⟨oldId, oldName, oldPlan, oldLocus, oldDir, oldRoot, oldCreation, oldUpdate⟩ := old
    cases sameCreation
    cases sameId
    cases oldLocus with
    | none =>
      have noLocus : locus = none := sameLocus rfl
      cases noLocus
      rfl
    | some held => rfl

theorem workspaces_agree (same : table.rows = rows.rows)
    {method : WorkspacesMethod} (condition : WorkspacesCondition table method) :
    ServedAlike (fun table rows => table.rows = rows.rows)
      (Dynamo.settle table (Dynamo.serveWorkspaces table method))
      (Sql.serveWorkspaces now rows method) := by
  cases method with
  | get workspaceId =>
    rw [Dynamo.serveWorkspaces, getItem_of_accepts condition]
    exact ⟨congrArg IdentityResult.workspace (find_workspace same workspaceId), same⟩
  | getMany workspaceIds =>
    have answered := @mapM_of_answered _ _ (fun id : Text => table.getItem [id]) _ workspaceIds
      fun id member => getItem_of_accepts (condition id member)
    rw [Dynamo.serveWorkspaces, answered]
    refine ⟨?_, same⟩
    have found : (workspaceIds.map fun id => table.find? [id]).filterMap id =
        workspaceIds.filterMap rows.find? := by
      rw [List.filterMap_map]
      apply List.filterMap_congr
      intro id _
      exact find_workspace same id
    show SameSet _ _
    rw [found]
    exact sameSet_refl _
  | put workspace =>
    obtain ⟨accepted, admitted, kept⟩ := condition
    have found := find_workspace same workspace.workspaceId
    have answered : Dynamo.serveWorkspaces table (.put workspace) =
        .ok (.done, table.put (Dynamo.itemToPut
          (table.find? [workspace.workspaceId]) workspace)) := by
      rw [Dynamo.serveWorkspaces, getItem_of_accepts accepted]
      show (table.putItem _ >>= _) = _
      rw [putItem_of_admits admitted]
      rfl
    have alike := itemToPut_of_keeps now kept fun old isOld =>
      List.singleton_inj.mp (Keyed.find?_eq_some_iff.mp isOld).2
    rw [answered, alike, found]
    refine ⟨rfl, ?_⟩
    apply Keyed.rows_put_congr same
    intro old _
    exact List.singleton_inj

end

def MembershipsCondition (now : Text) (table : Dynamo.MembershipsTable) : MembershipsMethod → Prop
  | .get workspaceId userId => acceptsKey [workspaceId, userId]
  | .listByWorkspace workspaceId => acceptsPartition workspaceId ∧ table.QueryFits workspaceId []
  | .listByUser userId => acceptsPartition userId ∧ table.IndexFits (·.userId) userId
  | .put record =>
    admits Dynamo.membershipsSchema (membershipToPut now record) ∧
      ∀ old ∈ table.find? [record.workspaceId, record.userId],
        old.createdAt = (membershipToPut now record).createdAt
  | .remove workspaceId userId => acceptsKey [workspaceId, userId]

section

variable {table : Dynamo.MembershipsTable} {rows : Sql.MembershipsTable}
  {now : Text}

theorem pair_iff {first second third fourth : Text} :
    [first, second] = [third, fourth] ↔ (first, second) = (third, fourth) := by
  simp

theorem memberships_agree (same : table.rows = rows.rows) {method : MembershipsMethod}
    (condition : MembershipsCondition now table method) :
    ServedAlike (fun table rows => table.rows = rows.rows)
      (Dynamo.settle table (Dynamo.serveMemberships now table method))
      (Sql.serveMemberships now rows method) := by
  have keyed : ∀ (workspaceId userId : Text), ∀ row ∈ table.rows,
      Dynamo.membershipsSchema.key row = [workspaceId, userId] ↔
        Sql.membershipKey row = (workspaceId, userId) := by
    intro workspaceId userId row _
    exact pair_iff
  have found : ∀ workspaceId userId,
      table.find? [workspaceId, userId] = rows.find? (workspaceId, userId) := by
    intro workspaceId userId
    exact Keyed.find?_congr same (keyed workspaceId userId)
  cases method with
  | get workspaceId userId =>
    rw [Dynamo.serveMemberships, getItem_of_accepts condition]
    exact ⟨congrArg IdentityResult.membership (found workspaceId userId), same⟩
  | listByWorkspace workspaceId =>
    obtain ⟨listed, answered, permuted⟩ :=
      query_of_fits condition.1 (by decide) condition.2
    rw [Dynamo.serveMemberships, answered]
    refine ⟨sameSet_of_perm ?_, same⟩
    rw [← same]
    refine permuted.trans (List.Perm.of_eq ?_)
    apply List.filter_congr
    intro row _
    exact isSelected_partition rfl
  | listByUser userId =>
    rw [Dynamo.serveMemberships, queryIndex_of_fits condition.1 condition.2]
    refine ⟨?_, same⟩
    show SameSet _ _
    rw [same]
    exact sameSet_refl _
  | put record =>
    obtain ⟨admitted, dated⟩ := condition
    rw [Dynamo.serveMemberships, putItem_of_admits admitted]
    have upserted : (rows.find? (record.workspaceId, record.userId)).elim
        (membershipToPut now record)
        (fun old => { old with role := (membershipToPut now record).role }) =
        membershipToPut now record := by
      rw [← found]
      cases held : table.find? [record.workspaceId, record.userId] with
      | none => rfl
      | some old =>
        have sameDate := dated old held
        have own := pair_iff.mp (Keyed.find?_eq_some_iff.mp held).2
        simp only [Prod.mk.injEq] at own
        simp [membershipToPut, own, sameDate]
    refine ⟨rfl, ?_⟩
    have written := congrArg (fun row => (rows.put row).rows) upserted
    refine Eq.trans ?_ written.symm
    exact Keyed.rows_put_congr same (keyed _ _)
  | remove workspaceId userId =>
    have erased := Keyed.rows_erase_congr same (keyed workspaceId userId)
    have counted := @Keyed.countP_pos_iff _ _ _ rows _ (workspaceId, userId)
    rw [← found] at counted
    cases held : table.find? [workspaceId, userId] with
    | none =>
      rw [held] at counted
      rw [Keyed.erase_of_absent held] at erased
      have answered : Dynamo.serveMemberships now table
          (.remove workspaceId userId) = .ok (.flag false, table) := by
        rw [Dynamo.serveMemberships, getItem_of_accepts condition, held]
        rfl
      rw [answered]
      refine ⟨congrArg IdentityResult.flag ?_, erased⟩
      simpa using counted
    | some row =>
      rw [held] at counted
      have answered : Dynamo.serveMemberships now table (.remove workspaceId userId) =
            .ok (.flag true, table.erase [workspaceId, userId]) := by
        rw [Dynamo.serveMemberships, getItem_of_accepts condition, held]
        show (table.deleteItem _ >>= _) = _
        rw [deleteItem_of_accepts condition]
        rfl
      rw [answered]
      refine ⟨congrArg IdentityResult.flag ?_, erased⟩
      simpa using counted

end

/-- No member of another workspace or user is spelt like the given ones. -/
def SpellsMember (members : List UserGroupRecord) (workspaceId userId : Text) : Prop :=
  ∀ member ∈ members, Dynamo.memberKey member.workspaceId member.userId =
        Dynamo.memberKey workspaceId userId →
      member.workspaceId = workspaceId ∧ member.userId = userId
  deriving Decidable

def GroupsCondition (moment : Moment) (tables : Dynamo.GroupTables) : GroupsMethod → Prop
  | .create workspaceId name description =>
    admits Dynamo.groupsSchema (createdGroup moment workspaceId name description)
  | .list workspaceId => acceptsPartition workspaceId ∧ tables.groups.QueryFits workspaceId []
  | .get workspaceId groupId => acceptsKey [workspaceId, groupId]
  | .update workspaceId groupId name description =>
    acceptsKey [workspaceId, groupId] ∧ ∀ group ∈ tables.groups.find? [workspaceId, groupId],
        admits Dynamo.groupsSchema (patched moment.now name description group)
  | .remove workspaceId groupId =>
    acceptsKey [workspaceId, groupId] ∧ (tables.groups.find? [workspaceId, groupId] ≠ none →
        ∀ member ∈ tables.userGroups.rows,
          ¬(member.workspaceId = workspaceId ∧ member.groupId = groupId))
  | .addMember workspaceId groupId userId =>
    admits Dynamo.userGroupsSchema ⟨workspaceId, userId, groupId⟩ ∧
      SpellsMember (tables.userGroups.rows.filter (·.groupId = groupId)) workspaceId userId
  | .removeMember workspaceId groupId userId =>
    acceptsKey [Dynamo.memberKey workspaceId userId, groupId] ∧
      SpellsMember (tables.userGroups.rows.filter (·.groupId = groupId)) workspaceId userId
  | .listGroupIdsForUser workspaceId userId =>
    acceptsPartition (Dynamo.memberKey workspaceId userId) ∧
      tables.userGroups.QueryFits (Dynamo.memberKey workspaceId userId) [] ∧
      SpellsMember tables.userGroups.rows workspaceId userId
  | .listUserIdsForGroup _ _ => tables.userGroups.ScanFits

structure GroupsRelated (tables : Dynamo.GroupTables) (rows : Sql.GroupTables) : Prop where
  groups : tables.groups.rows = rows.groups.rows
  userGroups : tables.userGroups.rows = rows.userGroups.rows

section

variable {moment : Moment} {tables : Dynamo.GroupTables}
  {rows : Sql.GroupTables} {workspaceId groupId : Text}

theorem groupKey_iff {group : GroupRecord} :
    Dynamo.groupsSchema.key group = [workspaceId, groupId] ↔
      Sql.groupKey group = (workspaceId, groupId) :=
  pair_iff

theorem find_group (related : GroupsRelated tables rows) (workspaceId groupId : Text) :
    tables.groups.find? [workspaceId, groupId] = rows.groups.find? (workspaceId, groupId) :=
  Keyed.find?_congr related.groups fun _ _ => groupKey_iff

variable {userId : Text}

theorem memberKey_iff (spelt : SpellsMember (tables.userGroups.rows.filter (·.groupId = groupId))
      workspaceId userId) :
    ∀ member ∈ tables.userGroups.rows, Dynamo.userGroupsSchema.key member =
          [Dynamo.memberKey workspaceId userId, groupId] ↔
        Sql.userGroupKey member = (workspaceId, groupId, userId) := by
  intro member present
  show [Dynamo.memberKey member.workspaceId member.userId, member.groupId] =
      [Dynamo.memberKey workspaceId userId, groupId] ↔ _
  rw [pair_iff, Sql.userGroupKey, Prod.mk.injEq, Prod.mk.injEq, Prod.mk.injEq]
  constructor
  · intro same
    have inGroup : member ∈ tables.userGroups.rows.filter (·.groupId = groupId) := by
      simpa using ⟨present, same.2⟩
    have own := spelt member inGroup same.1
    exact ⟨own.1, same.2, own.2⟩
  · intro same
    rw [same.1, same.2.1, same.2.2]
    exact ⟨rfl, rfl⟩

variable (related : GroupsRelated tables rows)

include related

attribute [local simp] Dynamo.serveGroups Sql.serveGroups

theorem create_agrees {name : Text} {description : Option Text}
    (condition : GroupsCondition moment tables (.create workspaceId name description)) :
    ServedAlike GroupsRelated (Dynamo.settle tables (Dynamo.serveGroups moment tables
        (.create workspaceId name description)))
      (Sql.serveGroups moment rows (.create workspaceId name description)) := by
  have found := find_group related workspaceId moment.freshId
  have key : Sql.groupKey (createdGroup moment workspaceId name description) =
      (workspaceId, moment.freshId) := rfl
  simp only [Dynamo.serveGroups, Sql.serveGroups, key]
  cases held : rows.groups.find? (workspaceId, moment.freshId) with
  | none =>
    rw [held] at found
    have free : Option.isNone (tables.groups.find? (Dynamo.groupsSchema.key
        (createdGroup moment workspaceId name description))) := by
      show Option.isNone (tables.groups.find? [workspaceId, moment.freshId])
      rw [found]
      rfl
    rw [putItemIf_of_admits free condition]
    refine ⟨rfl, ?_, related.userGroups⟩
    exact Keyed.rows_put_congr related.groups fun _ _ => groupKey_iff
  | some old =>
    rw [held] at found
    have taken : ¬Option.isNone (tables.groups.find? (Dynamo.groupsSchema.key
          (createdGroup moment workspaceId name description))) := by
      show ¬Option.isNone (tables.groups.find? [workspaceId, moment.freshId])
      rw [found]
      simp
    rw [putItemIf_of_unmet taken condition]
    exact ⟨rfl, related⟩

theorem update_agrees {name description : Option Text} (condition : GroupsCondition moment tables
      (.update workspaceId groupId name description)) :
    ServedAlike GroupsRelated (Dynamo.settle tables (Dynamo.serveGroups moment tables
        (.update workspaceId groupId name description)))
      (Sql.serveGroups moment rows (.update workspaceId groupId name description)) := by
  obtain ⟨accepted, admitted⟩ := condition
  have found := find_group related workspaceId groupId
  simp only [Dynamo.serveGroups, Sql.serveGroups]
  cases held : rows.groups.find? (workspaceId, groupId) with
  | none =>
    rw [held] at found
    rw [updateItem_of_unmet accepted (by simp [found])]
    exact ⟨rfl, related⟩
  | some group =>
    rw [held] at found
    rw [updateItem_of_admits accepted (by simp [found])
      (by rw [found]; exact admitted group found)]
    simp only [found, Option.getD_some]
    refine ⟨rfl, ?_, related.userGroups⟩
    have own := (Keyed.find?_eq_some_iff.mp held).2
    exact Keyed.rows_put_congr related.groups fun _ _ => groupKey_iff

theorem removeGroup_agrees
    (condition : GroupsCondition moment tables (.remove workspaceId groupId)) :
    ServedAlike GroupsRelated (Dynamo.settle tables (Dynamo.serveGroups moment tables
        (.remove workspaceId groupId)))
      (Sql.serveGroups moment rows (.remove workspaceId groupId)) := by
  obtain ⟨accepted, memberless⟩ := condition
  have found := find_group related workspaceId groupId
  have counted := @Keyed.countP_pos_iff _ _ _ rows.groups _ (workspaceId, groupId)
  simp only [Dynamo.serveGroups, Sql.serveGroups,
    getItem_of_accepts accepted, deleteItem_of_accepts accepted]
  cases held : rows.groups.find? (workspaceId, groupId) with
  | none =>
    rw [held] at found counted
    have unchanged : rows.groups.rows.countP (fun group =>
        Sql.groupKey group = (workspaceId, groupId)) = 0 := by
      simpa using counted
    rw [found, if_pos unchanged]
    exact ⟨rfl, related⟩
  | some group =>
    rw [held] at found counted
    have changed : rows.groups.rows.countP (fun group =>
        Sql.groupKey group = (workspaceId, groupId)) ≠ 0 :=
      Nat.pos_iff_ne_zero.mp (counted.mpr rfl)
    rw [found, if_neg changed]
    refine ⟨rfl, ?_, ?_⟩
    · exact Keyed.rows_erase_congr related.groups fun _ _ => groupKey_iff
    · have without := memberless (by simp [found])
      rw [related.userGroups] at without
      show tables.userGroups.rows = rows.userGroups.rows.filter _
      rw [related.userGroups]
      apply Eq.symm
      apply List.filter_eq_self.mpr
      intro member present
      have other := without member present
      simpa [imp_iff_not_or] using other

theorem addMember_agrees (condition : GroupsCondition moment tables
      (.addMember workspaceId groupId userId)) :
    ServedAlike GroupsRelated (Dynamo.settle tables (Dynamo.serveGroups moment tables
        (.addMember workspaceId groupId userId)))
      (Sql.serveGroups moment rows (.addMember workspaceId groupId userId)) := by
  obtain ⟨admitted, spelt⟩ := condition
  simp only [Dynamo.serveGroups, Sql.serveGroups, putItem_of_admits admitted]
  refine ⟨rfl, related.groups, ?_⟩
  have inserted : (rows.userGroups.find? (workspaceId, groupId, userId)).elim
      (⟨workspaceId, userId, groupId⟩ : UserGroupRecord) id = ⟨workspaceId, userId, groupId⟩ := by
    cases held : rows.userGroups.find? (workspaceId, groupId, userId) with
    | none => rfl
    | some member =>
      have own := (Keyed.find?_eq_some_iff.mp held).2
      simp only [Sql.userGroupKey, Prod.mk.injEq] at own
      obtain ⟨_, _, _⟩ := member
      simp_all
  have written := congrArg (fun row => (rows.userGroups.put row).rows) inserted
  refine Eq.trans ?_ written.symm
  exact Keyed.rows_put_congr related.userGroups (memberKey_iff spelt)

theorem removeMember_agrees (condition : GroupsCondition moment tables
      (.removeMember workspaceId groupId userId)) :
    ServedAlike GroupsRelated (Dynamo.settle tables (Dynamo.serveGroups moment tables
        (.removeMember workspaceId groupId userId)))
      (Sql.serveGroups moment rows (.removeMember workspaceId groupId userId)) := by
  obtain ⟨accepted, spelt⟩ := condition
  have keyed := memberKey_iff spelt
  have found := Keyed.find?_congr related.userGroups keyed
  have erased := Keyed.rows_erase_congr related.userGroups keyed
  have counted := @Keyed.countP_pos_iff _ _ _ rows.userGroups _ (workspaceId, groupId, userId)
  simp only [Dynamo.serveGroups, Sql.serveGroups,
    getItem_of_accepts accepted, deleteItem_of_accepts accepted]
  cases held : rows.userGroups.find? (workspaceId, groupId, userId) with
  | none =>
    rw [held] at found counted
    rw [Keyed.erase_of_absent found] at erased
    rw [found]
    refine ⟨congrArg IdentityResult.flag ?_, related.groups, erased⟩
    simpa using counted
  | some member =>
    rw [held] at found counted
    rw [found]
    refine ⟨congrArg IdentityResult.flag ?_, related.groups, erased⟩
    simpa using counted

theorem groups_agree {method : GroupsMethod} (condition : GroupsCondition moment tables method) :
    ServedAlike GroupsRelated (Dynamo.settle tables (Dynamo.serveGroups moment tables method))
      (Sql.serveGroups moment rows method) := by
  cases method with
  | create workspaceId name description => exact create_agrees related condition
  | list workspaceId =>
    obtain ⟨listed, answered, permuted⟩ :=
      query_of_fits condition.1 (by decide) condition.2
    rw [Dynamo.serveGroups, answered]
    refine ⟨sameSet_of_perm ?_, related⟩
    rw [← related.groups]
    refine permuted.trans (List.Perm.of_eq ?_)
    apply List.filter_congr
    intro row _
    exact isSelected_partition rfl
  | get workspaceId groupId =>
    rw [Dynamo.serveGroups, getItem_of_accepts condition]
    exact ⟨congrArg IdentityResult.group (find_group related workspaceId groupId), related⟩
  | update workspaceId groupId name description => exact update_agrees related condition
  | remove workspaceId groupId => exact removeGroup_agrees related condition
  | addMember workspaceId groupId userId => exact addMember_agrees related condition
  | removeMember workspaceId groupId userId => exact removeMember_agrees related condition
  | listGroupIdsForUser workspaceId userId =>
    obtain ⟨accepted, fits, spelt⟩ := condition
    obtain ⟨listed, answered, permuted⟩ :=
      query_of_fits accepted (by decide) fits
    rw [Dynamo.serveGroups, answered]
    refine ⟨sameSet_of_perm ?_, related⟩
    rw [← related.userGroups]
    refine (permuted.map _).trans (List.Perm.of_eq (congrArg _ ?_))
    apply List.filter_congr
    intro member present
    rw [isSelected_partition rfl, Bool.eq_iff_iff, decide_eq_true_iff,
      Bool.and_eq_true, decide_eq_true_iff, decide_eq_true_iff]
    constructor
    · exact spelt member present
    · intro own
      rw [own.1, own.2]
  | listUserIdsForGroup workspaceId groupId =>
    refine ⟨?_, related⟩
    have read := @scan_of_fits _ _ tables.userGroups
      (fun member => member.workspaceId = workspaceId && member.groupId = groupId) condition
    show SameSet ((tables.userGroups.scan _).map _) _
    rw [read, related.userGroups]
    exact sameSet_refl _

end

end Aprovan.IdentityStore
