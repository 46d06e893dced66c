import Aprovan.Identity.TablesAgree
import Aprovan.Library.Runs

/-!
# The identity backends agree

One list of methods is served by both stores, which draw the same ids at the
same times.  A permission is found under a composite key in one store and
under its columns in the other, and revoked through a pointer from its id.
-/

namespace Aprovan.IdentityStore

open Aprovan.Library Aprovan.Library.ItemTable

variable (table : Dynamo.PermissionsTable)

def grants : List Permission :=
  table.rows.filterMap Dynamo.toPermission

/-- No permission of the workspace for another caller or provider is spelt by
one of the sort keys. -/
def SpellsPermission (workspaceId : Text) (sks : List Text) (callerId provider : Text) : Prop :=
  ∀ permission ∈ grants table, permission.workspaceId = workspaceId →
    Dynamo.permSk permission.callerId permission.provider permission.operation ∈ sks →
      permission.callerId = callerId ∧ permission.provider = provider
  deriving Decidable

def currentId (workspaceId : Text) (item : Dynamo.PermissionItem) : Option Text :=
  ((table.find? [Dynamo.permissionPk workspaceId, item.sk]).bind Dynamo.toPermission).map (·.id)

/-- A listing for a caller selects the permissions of no other one, and one
for the empty caller is not one for all. -/
def ListsCaller (workspaceId : Text) : Option Text → Prop
  | none => True
  | some callerId =>
    ∀ permission ∈ grants table, permission.workspaceId = workspaceId →
      (Dynamo.listSk (some callerId) <+:
          Dynamo.permSk permission.callerId permission.provider
            permission.operation ∨ callerId = []) →
        permission.callerId = callerId

def PermissionsCondition (moment : Moment) (table : Dynamo.PermissionsTable) :
    PermissionsMethod → Prop
  | .grant workspaceId input =>
    let permission := granted moment workspaceId input
    admits Dynamo.permissionsSchema (.grant permission) ∧
      admits Dynamo.permissionsSchema (Dynamo.pointerTo permission) ∧
      SpellsPermission table workspaceId
        [Dynamo.permSk input.callerId input.provider input.operation]
        input.callerId input.provider
  | .revoke workspaceId id =>
    let key := [Dynamo.permissionPk workspaceId, Dynamo.permIdSk id]
    acceptsKey key ∧ ∀ pointer ∈ table.find? key, currentId table workspaceId pointer = some id
  | .list workspaceId callerId =>
    acceptsPartition (Dynamo.permissionPk workspaceId) ∧ utf8Size (Dynamo.listSk callerId) ≤ 1024 ∧
      table.QueryFits (Dynamo.permissionPk workspaceId) (Dynamo.listSk callerId) ∧
      ListsCaller table workspaceId callerId
  | .check workspaceId callerId provider operation =>
    let sks := Dynamo.checkSks callerId provider operation
    (sks.map fun sk => [Dynamo.permissionPk workspaceId, sk]).all acceptsKey ∧
      SpellsPermission table workspaceId sks callerId provider

/-- The tables hold the same permissions, each under an id that was drawn
before, and the pointer from its id. -/
structure PermissionsRelated (freshId : Nat → Text) (served : Nat)
    (table : Dynamo.PermissionsTable) (rows : Sql.PermissionsTable) :
    Prop where
  same : grants table = rows.rows
  pointed : ∀ permission ∈ rows.rows, Dynamo.pointerTo permission ∈ table.rows
  drawn : ∀ workspaceId id callerId provider operation,
    Dynamo.PermissionItem.pointer workspaceId id callerId provider operation ∈ table.rows →
    ∃ earlier < served, freshId earlier = id
  admitted : ∀ item ∈ table.rows, admits Dynamo.permissionsSchema item

section

variable {freshId : Nat → Text} {served : Nat} {now : Text}
  {table : Dynamo.PermissionsTable} {rows : Sql.PermissionsTable}
  {permission : Permission}

theorem mem_grants :
    permission ∈ grants table ↔ Dynamo.PermissionItem.grant permission ∈ table.rows := by
  rw [grants, List.mem_filterMap]
  constructor
  · intro found
    obtain ⟨item, member, shown⟩ := found
    cases item with
    | grant other =>
      cases shown
      exact member
    | pointer => cases shown
  · intro member
    exact ⟨_, member, rfl⟩

variable {second : Text}

theorem permissionPk_inj {first : Text} :
    Dynamo.permissionPk first = Dynamo.permissionPk second ↔ first = second :=
  List.append_right_inj _

theorem permIdSk_inj {first : Text} :
    Dynamo.permIdSk first = Dynamo.permIdSk second ↔ first = second :=
  List.append_right_inj _

theorem permText : "PERM#".toList = ['P', 'E', 'R', 'M', '#'] := by
  decide

theorem permIdText : "PERMID#".toList = ['P', 'E', 'R', 'M', 'I', 'D', '#'] := by
  decide

theorem permSk_eq (callerId provider operation : Text) :
    Dynamo.permSk callerId provider operation = ['P', 'E', 'R', 'M', '#'] ++
        (callerId ++ '#' :: (provider ++ '#' :: operation)) := by
  unfold Dynamo.permSk
  rw [permText]
  simp

/-- The sort keys of a grant and of a pointer differ in the fifth letter. -/
theorem permSk_ne_permIdSk (callerId provider operation id : Text) :
    Dynamo.permSk callerId provider operation ≠ Dynamo.permIdSk id := by
  unfold Dynamo.permIdSk
  rw [permSk_eq, permIdText]
  simp

theorem grant_key_ne_pointer (permission : Permission)
    (workspaceId id callerId provider operation : Text) :
    Dynamo.PermissionItem.key (.grant permission) ≠ Dynamo.PermissionItem.key
        (.pointer workspaceId id callerId provider operation) := by
  intro same
  rw [Dynamo.PermissionItem.key, Dynamo.PermissionItem.key, pair_iff, Prod.mk.injEq] at same
  exact permSk_ne_permIdSk permission.callerId permission.provider permission.operation id same.2

variable {callerId provider : Text}

theorem permSk_inj_of_caller {first : Text} :
    Dynamo.permSk callerId provider first =
        Dynamo.permSk callerId provider second ↔ first = second := by
  rw [permSk_eq, permSk_eq]
  simp

variable {workspaceId operation : Text}

theorem grant_key_iff {sks : List Text}
    (spelt : SpellsPermission table workspaceId sks callerId provider)
    (listed : Dynamo.permSk callerId provider operation ∈ sks)
    (member : permission ∈ grants table) :
    Dynamo.PermissionItem.key (.grant permission) = [Dynamo.permissionPk workspaceId,
          Dynamo.permSk callerId provider operation] ↔
      Sql.permissionKey permission = (workspaceId, callerId, provider, operation) := by
  rw [Dynamo.PermissionItem.key, pair_iff, Sql.permissionKey]
  simp only [Prod.mk.injEq]
  constructor
  · intro same
    have inWorkspace := permissionPk_inj.mp same.1
    have own := spelt permission member inWorkspace (by rw [same.2]; exact listed)
    have sameSk := same.2
    rw [own.1, own.2, permSk_inj_of_caller] at sameSk
    exact ⟨inWorkspace, own.1, own.2, sameSk⟩
  · intro same
    rw [same.1, same.2.1, same.2.2.1, same.2.2.2]
    exact ⟨rfl, rfl⟩

theorem grants_grant {workspaceId : Text} {permission : Permission}
    (own : permission.workspaceId = workspaceId)
    (spelt : SpellsPermission table workspaceId
      [Dynamo.permSk permission.callerId permission.provider permission.operation]
      permission.callerId permission.provider) :
    grants ((table.put (.grant permission)).put (Dynamo.pointerTo permission)) =
      putUnder Sql.permissionKey (grants table) permission := by
  have hidden : grants ((table.put (.grant permission)).put (Dynamo.pointerTo permission)) =
      grants (table.put (.grant permission)) := by
    apply filterMap_putUnder_of_hidden rfl
    intro old _ same
    cases old with
    | grant other =>
      exact absurd same (grant_key_ne_pointer other permission.workspaceId
        permission.id permission.callerId permission.provider
        permission.operation)
    | pointer => rfl
  have shown : Dynamo.toPermission (.grant permission) = some permission := rfl
  rw [hidden]
  apply filterMap_putUnder shown
  intro old member
  cases old with
  | grant other =>
    have known : other ∈ grants table := mem_grants.mpr member
    have keyed := grant_key_iff spelt List.mem_cons_self known
    rw [← own] at keyed
    refine keyed.trans ?_
    simp [Dynamo.toPermission, Sql.permissionKey]
  | pointer target id callerId provider operation =>
    constructor
    · intro same
      exact absurd same.symm
        (grant_key_ne_pointer permission target id callerId provider operation)
    · intro visible
      obtain ⟨other, impossible, _⟩ := visible
      cases impossible

theorem related_grant (injective : Function.Injective freshId)
    (related : PermissionsRelated freshId served table rows)
    (draws : permission.id = freshId served)
    (admitted : admits Dynamo.permissionsSchema (.grant permission))
    (pointerAdmitted : admits Dynamo.permissionsSchema (Dynamo.pointerTo permission))
    (spelt : SpellsPermission table permission.workspaceId
      [Dynamo.permSk permission.callerId permission.provider permission.operation]
      permission.callerId permission.provider) :
    PermissionsRelated freshId (served + 1)
      ((table.put (.grant permission)).put (Dynamo.pointerTo permission))
      (rows.put permission) where
  same := by
    rw [grants_grant rfl spelt, related.same]
    rfl
  pointed := by
    intro other member
    rw [Keyed.mem_rows_put]
    by_cases own : Dynamo.pointerTo other = Dynamo.pointerTo permission
    · exact Or.inl own
    · have older : other ∈ rows.rows := by
        cases Keyed.mem_rows_put.mp member with
        | inl same =>
          rw [same] at own
          exact absurd rfl own
        | inr kept => exact kept.1
      have pointed := related.pointed other older
      have neverDrawn : other.id ≠ permission.id := by
        intro same
        obtain ⟨earlier, before, isId⟩ := related.drawn _ _ _ _ _ pointed
        rw [same, draws] at isId
        have equal := injective isId
        omega
      refine Or.inr ⟨Keyed.mem_rows_put.mpr (Or.inr ⟨pointed, ?_⟩), ?_⟩
      · exact (grant_key_ne_pointer permission other.workspaceId other.id
          other.callerId other.provider other.operation).symm
      · intro same
        have both := pair_iff.mp same
        rw [Prod.mk.injEq, permIdSk_inj] at both
        exact neverDrawn both.2
  drawn := by
    intro workspaceId id callerId provider operation member
    cases Keyed.mem_rows_put.mp member with
    | inl same =>
      cases same
      exact ⟨served, by omega, draws.symm⟩
    | inr kept =>
      cases Keyed.mem_rows_put.mp kept.1 with
      | inl same => cases same
      | inr older =>
        obtain ⟨earlier, before, isId⟩ :=
          related.drawn _ _ _ _ _ older.1
        exact ⟨earlier, by omega, isId⟩
  admitted := by
    intro item member
    cases Keyed.mem_rows_put.mp member with
    | inl same =>
      rw [same]
      exact pointerAdmitted
    | inr kept =>
      cases Keyed.mem_rows_put.mp kept.1 with
      | inl same =>
        rw [same]
        exact admitted
      | inr older => exact related.admitted item older.1

theorem upserted_grant (permission : Permission) :
    (rows.find? (Sql.permissionKey permission)).elim permission (fun old =>
        { old with
          id := permission.id
          grantedBy := permission.grantedBy
          grantedAt := permission.grantedAt }) = permission := by
  cases held : rows.find? (Sql.permissionKey permission) with
  | none => rfl
  | some old =>
    have own := (Keyed.find?_eq_some_iff.mp held).2
    simp only [Sql.permissionKey, Prod.mk.injEq] at own
    simp [own]

variable {moment : Moment}

theorem grant_agrees (injective : Function.Injective freshId)
    (draws : moment.freshId = freshId served)
    (related : PermissionsRelated freshId served table rows)
    {input : GrantInput} (condition : PermissionsCondition moment table
      (.grant workspaceId input)) :
    ServedAlike (PermissionsRelated freshId (served + 1))
      (Dynamo.settle table (Dynamo.servePermissions moment table (.grant workspaceId input)))
      (Sql.servePermissions moment rows (.grant workspaceId input)) := by
  obtain ⟨admitted, pointerAdmitted, spelt⟩ := condition
  have answered : Dynamo.servePermissions moment table (.grant workspaceId input) =
        .ok (.permission (granted moment workspaceId input),
          (table.put (.grant (granted moment workspaceId input))).put
            (Dynamo.pointerTo (granted moment workspaceId input))) := by
    rw [Dynamo.servePermissions]
    show (table.putItem _ >>= _) = _
    rw [putItem_of_admits admitted]
    show (ItemTable.putItem _ _ >>= _) = _
    rw [putItem_of_admits pointerAdmitted]
    rfl
  have upserted := @upserted_grant rows (granted moment workspaceId input)
  have written := congrArg rows.put upserted
  have next := related_grant injective related draws admitted pointerAdmitted spelt
  rw [← written] at next
  rw [answered]
  exact ⟨rfl, next⟩

section

variable (related : PermissionsRelated freshId served table rows)

include related

theorem revoked_iff {id : Text} {pointer : Dynamo.PermissionItem}
    (found : table.find? [Dynamo.permissionPk workspaceId, Dynamo.permIdSk id] = some pointer)
    (current : table.find? [Dynamo.permissionPk workspaceId, pointer.sk] =
      some (.grant permission)) (own : permission.id = id) {other : Permission}
    (member : other ∈ rows.rows) :
    (other.workspaceId = workspaceId ∧ other.id = id) ↔ other = permission := by
  have held := Keyed.find?_eq_some_iff.mp current
  have keyed := held.2
  constructor
  · intro revoked
    have pointed := related.pointed other member
    have isPointer : Dynamo.pointerTo other = pointer := by
      apply table.eq_of_key_eq pointed (Keyed.find?_eq_some_iff.mp found).1
      rw [(Keyed.find?_eq_some_iff.mp found).2, ← revoked.1, ← revoked.2]
      rfl
    rw [← related.same] at member
    have present := mem_grants.mp member
    have sameItem := table.eq_of_key_eq present held.1 (by
      rw [keyed, ← isPointer, ← revoked.1]
      rfl)
    cases sameItem
    rfl
  · intro same
    have both := pair_iff.mp keyed
    rw [Prod.mk.injEq, permissionPk_inj] at both
    rw [same]
    exact ⟨both.1, own⟩

theorem related_later : PermissionsRelated freshId (served + 1) table rows where
  same := related.same
  pointed := related.pointed
  drawn := by
    intro workspaceId id callerId provider operation member
    obtain ⟨earlier, before, isId⟩ := related.drawn _ _ _ _ _ member
    exact ⟨earlier, by omega, isId⟩
  admitted := related.admitted

theorem related_revoke {id : Text} {pointer : Dynamo.PermissionItem}
    (found : table.find? [Dynamo.permissionPk workspaceId, Dynamo.permIdSk id] = some pointer)
    (current : table.find? [Dynamo.permissionPk workspaceId, pointer.sk] =
      some (.grant permission)) (own : permission.id = id) :
    PermissionsRelated freshId (served + 1)
      ((table.erase [Dynamo.permissionPk workspaceId, pointer.sk]).erase
        [Dynamo.permissionPk workspaceId, Dynamo.permIdSk id])
      (rows.keep fun other =>
        !(decide (other.workspaceId = workspaceId) && decide (other.id = id))) where
  same := by
    have held := Keyed.find?_eq_some_iff.mp current
    show ((table.rows.filter _).filter _).filterMap Dynamo.toPermission = rows.rows.filter _
    rw [List.filter_filter, ← related.same]
    apply filterMap_filter_of_agree
    intro item member other shown
    cases item with
    | pointer => cases shown
    | grant granted =>
      cases shown
      have known : other ∈ rows.rows := by
        rw [← related.same]
        exact mem_grants.mpr member
      have revoked := revoked_iff related found current own known
      have keyed : Dynamo.permissionsSchema.key (.grant other) =
          [Dynamo.permissionPk workspaceId, pointer.sk] ↔ other = permission := by
        rw [← held.2]
        constructor
        · intro same
          cases table.eq_of_key_eq member held.1 same
          rfl
        · intro same
          rw [same]
      have notPointer : Dynamo.permissionsSchema.key (.grant other) ≠
          [Dynamo.permissionPk workspaceId, Dynamo.permIdSk id] :=
        grant_key_ne_pointer other workspaceId id [] [] []
      simp only [← revoked] at keyed
      simp [keyed, notPointer]
  pointed := by
    intro other member
    obtain ⟨known, kept⟩ := List.mem_filter.mp member
    have pointed := related.pointed other known
    have notRevoked : ¬(other.workspaceId = workspaceId ∧ other.id = id) := by
      simpa [imp_iff_not_or] using kept
    have notGrant : Dynamo.permissionsSchema.key (Dynamo.pointerTo other) ≠
        [Dynamo.permissionPk workspaceId, pointer.sk] := by
      rw [← (Keyed.find?_eq_some_iff.mp current).2]
      exact (grant_key_ne_pointer permission other.workspaceId other.id
        other.callerId other.provider other.operation).symm
    have notPointer : Dynamo.permissionsSchema.key (Dynamo.pointerTo other) ≠
        [Dynamo.permissionPk workspaceId, Dynamo.permIdSk id] := by
      intro same
      have both := pair_iff.mp same
      rw [Prod.mk.injEq, permissionPk_inj, permIdSk_inj] at both
      exact notRevoked both
    exact Keyed.mem_rows_erase.mpr ⟨Keyed.mem_rows_erase.mpr ⟨pointed, notGrant⟩, notPointer⟩
  drawn := by
    intro target other callerId provider operation member
    have older := (Keyed.mem_rows_erase.mp (Keyed.mem_rows_erase.mp member).1).1
    exact (related_later related).drawn _ _ _ _ _ older
  admitted := by
    intro item member
    have older := (Keyed.mem_rows_erase.mp (Keyed.mem_rows_erase.mp member).1).1
    exact related.admitted item older

theorem revoke_agrees {id : Text}
    (condition : PermissionsCondition moment table (.revoke workspaceId id)) :
    ServedAlike (PermissionsRelated freshId (served + 1))
      (Dynamo.settle table (Dynamo.servePermissions moment table (.revoke workspaceId id)))
      (Sql.servePermissions moment rows (.revoke workspaceId id)) := by
  obtain ⟨accepted, isCurrent⟩ := condition
  have counted := @List.countP_pos_iff _ rows.rows
    fun permission : Permission =>
      decide (permission.workspaceId = workspaceId) && decide (permission.id = id)
  simp only [Bool.and_eq_true, decide_eq_true_eq] at counted
  cases found : table.find? [Dynamo.permissionPk workspaceId, Dynamo.permIdSk id] with
  | none =>
    have spared : ∀ other ∈ rows.rows, ¬(other.workspaceId = workspaceId ∧ other.id = id) := by
      intro other member revoked
      have absent := Keyed.find?_eq_none_iff.mp found _ (related.pointed other member)
      rw [← revoked.1, ← revoked.2] at absent
      exact absent rfl
    have unchanged : rows.keep (fun other =>
        !(decide (other.workspaceId = workspaceId) && decide (other.id = id))) = rows := by
      apply Keyed.ext
      apply List.filter_eq_self.mpr
      intro other member
      have kept := spared other member
      simpa [imp_iff_not_or] using kept
    have nothing : ¬∃ other ∈ rows.rows, other.workspaceId = workspaceId ∧ other.id = id := by
      intro some
      obtain ⟨other, member, revoked⟩ := some
      exact spared other member revoked
    have answered : Dynamo.servePermissions moment table
        (.revoke workspaceId id) = .ok (.flag false, table) := by
      rw [Dynamo.servePermissions, getItem_of_accepts accepted, found]
      rfl
    have next := @related_later _ _ _ rows related
    rw [← unchanged] at next
    rw [answered]
    refine ⟨congrArg IdentityResult.flag ?_, next⟩
    exact (decide_eq_false (fun deleted => nothing (counted.mp deleted))).symm
  | some pointer =>
    obtain ⟨permission, isPermission, own⟩ :=
      Option.map_eq_some_iff.mp (isCurrent pointer found)
    obtain ⟨item, current, shown⟩ := Option.bind_eq_some_iff.mp isPermission
    cases item with
    | pointer => cases shown
    | grant granted =>
      cases shown
      have held := Keyed.find?_eq_some_iff.mp current
      have acceptedSk : acceptsKey [Dynamo.permissionPk workspaceId, pointer.sk] := by
        rw [← held.2]
        exact accepts_of_admits (related.admitted _ held.1)
      have known : permission ∈ rows.rows := by
        rw [← related.same]
        exact mem_grants.mpr held.1
      have deleted := counted.mpr ⟨permission, known,
        (revoked_iff related found current own known).mpr rfl⟩
      have next := related_revoke related found current own
      have answered : Dynamo.servePermissions moment table
          (.revoke workspaceId id) = .ok (.flag true,
              (table.erase [Dynamo.permissionPk workspaceId,
                pointer.sk]).erase [Dynamo.permissionPk workspaceId, Dynamo.permIdSk id]) := by
        rw [Dynamo.servePermissions, getItem_of_accepts accepted, found]
        show (table.deleteItem _ >>= _) = _
        rw [deleteItem_of_accepts acceptedSk]
        show (ItemTable.deleteItem _ _ >>= _) = _
        rw [deleteItem_of_accepts accepted]
        rfl
      rw [answered]
      refine ⟨congrArg IdentityResult.flag ?_, next⟩
      exact (decide_eq_true deleted).symm

end

theorem isEmpty_congr {First Second : Type} {first : List First} {second : List Second}
    (same : (∃ row, row ∈ first) ↔ ∃ row, row ∈ second) :
    first.isEmpty = second.isEmpty := by
  rw [Bool.eq_iff_iff, List.isEmpty_iff, List.isEmpty_iff,
    List.eq_nil_iff_forall_not_mem, List.eq_nil_iff_forall_not_mem]
  simpa using not_congr same

theorem mem_checkSks {sk : Text} :
    sk ∈ Dynamo.checkSks callerId provider operation ↔
      ∃ granted, (granted = operation ∨ granted = wildcard) ∧
        sk = Dynamo.permSk callerId provider granted := by
  unfold Dynamo.checkSks
  by_cases every : operation = wildcard
  · rw [if_pos every, every]
    simp
  · rw [if_neg every]
    simp

theorem checked_iff (related : PermissionsRelated freshId served table rows)
    (spelt : SpellsPermission table workspaceId
      (Dynamo.checkSks callerId provider operation) callerId provider) :
    (∃ item, item ∈ ((Dynamo.checkSks callerId provider operation).map
        fun sk => [Dynamo.permissionPk workspaceId, sk]).filterMap table.find?) ↔
      ∃ permission ∈ rows.rows, permission.workspaceId = workspaceId ∧
        permission.callerId = callerId ∧ permission.provider = provider ∧
          (permission.operation = operation ∨ permission.operation = wildcard) := by
  rw [← related.same]
  constructor
  · intro answered
    obtain ⟨item, found⟩ := answered
    rw [List.filterMap_map, List.mem_filterMap] at found
    obtain ⟨sk, asked, held⟩ := found
    obtain ⟨granted, isAsked, isSk⟩ := mem_checkSks.mp asked
    obtain ⟨member, keyed⟩ := Keyed.find?_eq_some_iff.mp held
    rw [isSk] at asked keyed
    cases item with
    | grant permission =>
      have known := mem_grants.mpr member
      have tuple := (grant_key_iff spelt asked known).mp keyed
      simp only [Sql.permissionKey, Prod.mk.injEq] at tuple
      refine ⟨permission, known, tuple.1, tuple.2.1, tuple.2.2.1, ?_⟩
      rw [tuple.2.2.2]
      exact isAsked
    | pointer target id caller service action =>
      have both := pair_iff.mp keyed
      rw [Prod.mk.injEq] at both
      exact absurd both.2.symm (permSk_ne_permIdSk _ _ _ _)
  · intro held
    obtain ⟨permission, known, inWorkspace, isCaller, isProvider, covers⟩ :=
      held
    have asked : Dynamo.permSk callerId provider permission.operation ∈
        Dynamo.checkSks callerId provider operation :=
      mem_checkSks.mpr ⟨permission.operation, covers, rfl⟩
    have keyed := (grant_key_iff spelt asked known).mpr (by
      rw [← inWorkspace, ← isCaller, ← isProvider]
      rfl)
    refine ⟨.grant permission, ?_⟩
    rw [List.filterMap_map, List.mem_filterMap]
    exact ⟨_, asked, Keyed.find?_eq_some_iff.mpr ⟨mem_grants.mp known, keyed⟩⟩

theorem check_agrees (related : PermissionsRelated freshId served table rows)
    (condition : PermissionsCondition moment table
      (.check workspaceId callerId provider operation)) :
    ServedAlike (PermissionsRelated freshId (served + 1))
      (Dynamo.settle table (Dynamo.servePermissions moment table
        (.check workspaceId callerId provider operation)))
      (Sql.servePermissions moment rows (.check workspaceId callerId provider operation)) := by
  obtain ⟨accepted, spelt⟩ := condition
  have small : ∀ item ∈ table.rows, size Dynamo.permissionsSchema item ≤ itemLimit := by
    intro item member
    exact size_of_admits (related.admitted item member)
  obtain ⟨found, answered, sameEmpty⟩ := batchGet_isEmpty accepted small
  have checked := checked_iff related spelt
  rw [Dynamo.servePermissions, answered]
  refine ⟨congrArg IdentityResult.flag (congrArg not ?_), related_later related⟩
  have first : (rows.rows.filter fun permission =>
      decide (permission.workspaceId = workspaceId) &&
        decide (permission.callerId = callerId) &&
        decide (permission.provider = provider) &&
        (decide (permission.operation = operation) ||
          decide (permission.operation = wildcard))).isEmpty =
      ((rows.rows.filter fun permission =>
        decide (permission.workspaceId = workspaceId) &&
          decide (permission.callerId = callerId) &&
          decide (permission.provider = provider) &&
          (decide (permission.operation = operation) ||
            decide (permission.operation = wildcard))).take 1).isEmpty := by
    cases List.filter _ rows.rows <;> rfl
  rw [sameEmpty]
  refine Eq.trans ?_ first
  apply isEmpty_congr
  rw [checked]
  simp [and_assoc]

theorem isSelected_grant {initial : Text} :
    isSelected Dynamo.permissionsSchema (Dynamo.permissionPk workspaceId)
        initial (.grant permission) ↔
      permission.workspaceId = workspaceId ∧
        initial <+: Dynamo.permSk permission.callerId permission.provider
          permission.operation := by
  show (decide (Dynamo.permissionPk permission.workspaceId =
    Dynamo.permissionPk workspaceId) && List.isPrefixOf initial _) = true ↔ _
  rw [Bool.and_eq_true, decide_eq_true_iff, permissionPk_inj, List.isPrefixOf_iff_prefix]

theorem listSk_isPrefix (callerId provider operation : Text) :
    Dynamo.listSk (some callerId) <+: Dynamo.permSk callerId provider operation := by
  refine ⟨provider ++ '#' :: operation, ?_⟩
  rw [permSk_eq]
  unfold Dynamo.listSk
  simp only [permText]
  simp

theorem listed_iff {callerId : Option Text} (lists : ListsCaller table workspaceId callerId)
    (known : permission ∈ grants table) :
    isSelected Dynamo.permissionsSchema (Dynamo.permissionPk workspaceId)
        (Dynamo.listSk callerId) (.grant permission) ↔
      permission.workspaceId = workspaceId ∧
        ∀ caller ∈ callerId, caller ≠ [] → permission.callerId = caller := by
  rw [isSelected_grant]
  apply and_congr_right
  intro inWorkspace
  cases callerId with
  | none =>
    constructor
    · intro _ caller impossible
      cases impossible
    · intro _
      rw [permSk_eq]
      unfold Dynamo.listSk
      simp only [permText]
      exact List.prefix_append _ _
  | some caller =>
    have own := lists permission known inWorkspace
    constructor
    · intro selected asked same _
      cases same
      exact own (Or.inl selected)
    · intro asked
      have isCaller : permission.callerId = caller := by
        by_cases nobody : caller = []
        · exact own (Or.inr nobody)
        · exact asked caller rfl nobody
      rw [isCaller]
      exact listSk_isPrefix caller _ _

theorem list_agrees (related : PermissionsRelated freshId served table rows)
    {callerId : Option Text} (condition : PermissionsCondition moment table
      (.list workspaceId callerId)) :
    ServedAlike (PermissionsRelated freshId (served + 1))
      (Dynamo.settle table (Dynamo.servePermissions moment table (.list workspaceId callerId)))
      (Sql.servePermissions moment rows (.list workspaceId callerId)) := by
  obtain ⟨accepted, short, fits, lists⟩ := condition
  obtain ⟨listed, answered, permuted⟩ := query_of_fits accepted short fits
  rw [Dynamo.servePermissions, answered]
  refine ⟨sameSet_of_mem ?_, related_later related⟩
  intro permission
  rw [(permuted.filterMap Dynamo.toPermission).mem_iff]
  have selected : permission ∈ (table.rows.filter
      (isSelected Dynamo.permissionsSchema (Dynamo.permissionPk workspaceId)
        (Dynamo.listSk callerId))).filterMap Dynamo.toPermission ↔
      permission ∈ rows.rows ∧ permission.workspaceId = workspaceId ∧
        ∀ caller ∈ callerId, caller ≠ [] → permission.callerId = caller := by
    rw [← related.same, List.mem_filterMap]
    constructor
    · intro found
      obtain ⟨item, kept, shown⟩ := found
      obtain ⟨member, isListed⟩ := List.mem_filter.mp kept
      cases item with
      | pointer => cases shown
      | grant other =>
        cases shown
        have known := mem_grants.mpr member
        exact ⟨known, (listed_iff lists known).mp isListed⟩
    · intro held
      have member := mem_grants.mp held.1
      exact ⟨_, List.mem_filter.mpr ⟨member, (listed_iff lists held.1).mpr held.2⟩, rfl⟩
  rw [selected]
  cases callerId with
  | none => simp
  | some caller =>
    cases caller with
    | nil => simp
    | cons letter rest => simp

theorem permissions_agree (injective : Function.Injective freshId)
    (draws : moment.freshId = freshId served)
    (related : PermissionsRelated freshId served table rows) {method : PermissionsMethod}
    (condition : PermissionsCondition moment table method) :
    ServedAlike (PermissionsRelated freshId (served + 1))
      (Dynamo.settle table (Dynamo.servePermissions moment table method))
      (Sql.servePermissions moment rows method) := by
  cases method with
  | grant workspaceId input => exact grant_agrees injective draws related condition
  | revoke workspaceId id => exact revoke_agrees related condition
  | list workspaceId callerId => exact list_agrees related condition
  | check workspaceId callerId provider operation => exact check_agrees related condition

end

structure Related (freshId : Nat → Text) (dynamo : Dynamo.Store) (sql : Sql.Store) : Prop where
  served : dynamo.served = sql.served
  users : UsersRelated dynamo.users sql.users
  workspaces : dynamo.workspaces.rows = sql.workspaces.rows
  memberships : dynamo.memberships.rows = sql.memberships.rows
  groups : GroupsRelated dynamo.groups sql.groups
  permissions : PermissionsRelated freshId dynamo.served dynamo.permissions sql.permissions

/-- What a method must meet in the state of the DynamoDB store before it: the
service takes its keys and items and answers its queries in one page, its
composite keys are spelt by no other rows, and it does not revoke a superseded
id, remove a group with members, or put a row with another creation or with a
locus that was missing. -/
def MethodCondition (freshId now : Nat → Text) (store : Dynamo.Store) (_ : Sql.Store) :
    IdentityMethod → Prop
  | .users method => UsersCondition store.users method
  | .workspaces method => WorkspacesCondition store.workspaces method
  | .memberships method => MembershipsCondition (now store.served) store.memberships method
  | .groups method => GroupsCondition ⟨freshId store.served, now store.served⟩ store.groups method
  | .permissions method =>
    PermissionsCondition ⟨freshId store.served, now store.served⟩ store.permissions method

theorem serve_agrees {freshId now : Nat → Text} (injective : Function.Injective freshId)
    {dynamo : Dynamo.Store} {sql : Sql.Store} (related : Related freshId dynamo sql)
    {method : IdentityMethod} (condition : MethodCondition freshId now dynamo sql method) :
    ServedAlike (Related freshId) (Dynamo.serve freshId now dynamo method)
      (Sql.serve freshId now sql method) := by
  obtain ⟨served, users, workspaces, memberships, groups, permissions⟩ := sql
  have same : dynamo.served = served := related.served
  subst same
  have later := related_later related.permissions
  cases method with
  | users method =>
    have alike := @users_agree _ _ (now dynamo.served) related.users method condition
    exact ⟨alike.1, rfl, alike.2, related.workspaces, related.memberships, related.groups, later⟩
  | workspaces method =>
    have alike := @workspaces_agree _ _ (now dynamo.served) related.workspaces method condition
    exact ⟨alike.1, rfl, related.users, alike.2, related.memberships, related.groups, later⟩
  | memberships method =>
    have alike := memberships_agree related.memberships condition
    exact ⟨alike.1, rfl, related.users, related.workspaces, alike.2, related.groups, later⟩
  | groups method =>
    have alike := groups_agree related.groups condition
    exact ⟨alike.1, rfl, related.users, related.workspaces, related.memberships, alike.2, later⟩
  | permissions method =>
    have alike := @permissions_agree _ _ _ _
      ⟨freshId dynamo.served, now dynamo.served⟩ injective rfl
      related.permissions method condition
    exact ⟨alike.1, rfl, related.users, related.workspaces,
      related.memberships, related.groups, alike.2⟩

/-- As long as every method meets its condition, the two stores give the same
results. -/
theorem backends_agree (freshId now : Nat → Text)
    (injective : Function.Injective freshId) (methods : List IdentityMethod)
    (meets : RequestsMeet (Dynamo.serve freshId now) (Sql.serve freshId now)
      (MethodCondition freshId now) Dynamo.emptyStore Sql.emptyStore
      methods) :
    List.Forall₂ Agree (answersFrom (Dynamo.serve freshId now) Dynamo.emptyStore methods)
      (answersFrom (Sql.serve freshId now) Sql.emptyStore methods) := by
  have initial : Related freshId Dynamo.emptyStore Sql.emptyStore := by
    refine ⟨rfl, rfl, rfl, rfl, ⟨rfl, rfl⟩, rfl, ?_, ?_, ?_⟩
    · intro permission impossible
      cases impossible
    · intro workspaceId id callerId provider operation impossible
      cases impossible
    · intro item impossible
      cases impossible
  apply answers_agree_of_simulation Agree (Related freshId) ?_ initial meets
  intro dynamo sql method related condition
  exact serve_agrees injective related condition

instance (table : Dynamo.UsersTable) : ∀ method, Decidable (UsersCondition table method)
  | .getActiveWorkspaceId _ => inferInstanceAs (Decidable (_ = true))
  | .setActiveWorkspaceId _ _ => inferInstanceAs (Decidable (_ ∧ _))
  | .getMany _ => inferInstanceAs (Decidable (∀ _ ∈ _, _))
  | .upsert _ => inferInstanceAs (Decidable (_ = true))

instance (table : Dynamo.WorkspacesTable) : ∀ method, Decidable (WorkspacesCondition table method)
  | .get _ => inferInstanceAs (Decidable (_ = true))
  | .getMany _ => inferInstanceAs (Decidable (∀ _ ∈ _, _))
  | .put _ => inferInstanceAs (Decidable (_ ∧ _ ∧ _))

instance (now : Text) (table : Dynamo.MembershipsTable) :
    ∀ method, Decidable (MembershipsCondition now table method)
  | .get _ _ => inferInstanceAs (Decidable (_ = true))
  | .listByWorkspace _ => inferInstanceAs (Decidable (_ ∧ _))
  | .listByUser _ => inferInstanceAs (Decidable (_ ∧ _))
  | .put _ => inferInstanceAs (Decidable (_ ∧ ∀ _ ∈ _, _))
  | .remove _ _ => inferInstanceAs (Decidable (_ = true))

instance (moment : Moment) (tables : Dynamo.GroupTables) :
    ∀ method, Decidable (GroupsCondition moment tables method)
  | .create _ _ _ => inferInstanceAs (Decidable (_ = true))
  | .list _ => inferInstanceAs (Decidable (_ ∧ _))
  | .get _ _ => inferInstanceAs (Decidable (_ = true))
  | .update _ _ _ _ => inferInstanceAs (Decidable (_ ∧ ∀ _ ∈ _, _))
  | .remove _ _ => inferInstanceAs (Decidable (_ ∧ (_ → ∀ _ ∈ _, _)))
  | .addMember _ _ _ => inferInstanceAs (Decidable (_ ∧ _))
  | .removeMember _ _ _ => inferInstanceAs (Decidable (_ ∧ _))
  | .listGroupIdsForUser _ _ => inferInstanceAs (Decidable (_ ∧ _ ∧ _))
  | .listUserIdsForGroup _ _ => inferInstanceAs (Decidable (ScanFits _))

instance (table : Dynamo.PermissionsTable) (workspaceId : Text) :
    ∀ callerId, Decidable (ListsCaller table workspaceId callerId)
  | none => .isTrue trivial
  | some _ => inferInstanceAs (Decidable (∀ _ ∈ _, _))

instance (moment : Moment) (table : Dynamo.PermissionsTable) :
    ∀ method, Decidable (PermissionsCondition moment table method)
  | .grant _ _ => inferInstanceAs (Decidable (_ ∧ _ ∧ _))
  | .revoke _ _ => inferInstanceAs (Decidable (_ ∧ ∀ _ ∈ _, _))
  | .list _ _ => inferInstanceAs (Decidable (_ ∧ _ ∧ _ ∧ _))
  | .check _ _ _ _ => inferInstanceAs (Decidable (_ ∧ _))

instance (freshId now : Nat → Text) (dynamo : Dynamo.Store) (sql : Sql.Store) :
    ∀ method, Decidable (MethodCondition freshId now dynamo sql method)
  | .users method => inferInstanceAs (Decidable (UsersCondition dynamo.users method))
  | .workspaces method =>
    inferInstanceAs (Decidable (WorkspacesCondition dynamo.workspaces method))
  | .memberships method => inferInstanceAs (Decidable (MembershipsCondition _ _ method))
  | .groups method => inferInstanceAs (Decidable (GroupsCondition _ _ method))
  | .permissions method => inferInstanceAs (Decidable (PermissionsCondition _ _ method))

/-- Ids that are told apart by their lengths. -/
def letterIds (position : Nat) : Text :=
  List.replicate (position + 1) 'a'

theorem letterIds_injective : Function.Injective letterIds := by
  intro first second same
  have lengths := congrArg List.length same
  simpa [letterIds] using lengths

def fixedTime (_ : Nat) : Text := "2024-05-01".toList

def readerGrant (callerId : Text) : GrantInput :=
  ⟨callerId, "mail".toList, "send".toList, "admin".toList⟩

def onboarding : List IdentityMethod :=
  [.workspaces (.put ⟨"w".toList, "Lab".toList, none, some .inCloud, none, none,
      some "2024".toList, some "2024".toList⟩),
    .memberships (.put ⟨"w".toList, "ann".toList, none, none⟩),
    .groups (.create "w".toList "readers".toList none),
    .groups (.addMember "w".toList (letterIds 2) "ann".toList),
    .groups (.listGroupIdsForUser "w".toList "ann".toList),
    .permissions (.grant "w".toList (readerGrant "ann".toList)),
    .permissions (.list "w".toList (some "ann".toList)),
    .permissions (.check "w".toList "ann".toList "mail".toList "send".toList),
    .permissions (.revoke "w".toList (letterIds 5)),
    .permissions (.list "w".toList none)]

theorem backends_agree_onboarding :
    List.Forall₂ Agree (answersFrom (Dynamo.serve letterIds fixedTime) Dynamo.emptyStore
        onboarding)
      (answersFrom (Sql.serve letterIds fixedTime) Sql.emptyStore onboarding) :=
  backends_agree letterIds fixedTime letterIds_injective onboarding (by decide +kernel)

/-- A permission is granted twice and revoked under its first id. -/
def supersededRevoke : List IdentityMethod :=
  [.permissions (.grant "w".toList (readerGrant "ann".toList)),
    .permissions (.grant "w".toList (readerGrant "ann".toList)),
    .permissions (.revoke "w".toList (letterIds 0))]

/-- The permissions of one caller are listed when another one, whose name goes
on behind a separator, has one. -/
def longerCaller : List IdentityMethod :=
  [.permissions (.grant "w".toList (readerGrant "ann#2".toList)),
    .permissions (.list "w".toList (some "ann".toList))]

def removedGroup : List IdentityMethod :=
  [.groups (.create "w".toList "readers".toList none),
    .groups (.addMember "w".toList (letterIds 0) "ann".toList),
    .groups (.remove "w".toList (letterIds 0)),
    .groups (.listGroupIdsForUser "w".toList "ann".toList)]

def secondMembership : List IdentityMethod :=
  [.memberships (.put ⟨"w".toList, "ann".toList, none, some "2023".toList⟩),
    .memberships (.put ⟨"w".toList, "ann".toList, none, some "2024".toList⟩),
    .memberships (.get "w".toList "ann".toList)]

theorem disagree_of_last {first second : List IdentityResult}
    {one two : IdentityResult} (isLast : first.getLast? = some one)
    (isOther : second.getLast? = some two) (differ : ¬Agree one two) :
    ¬List.Forall₂ Agree first second := by
  intro agree
  have reversed := List.forall₂_reverse_iff.mpr agree
  rw [List.getLast?_eq_head?_reverse] at isLast isOther
  obtain ⟨before, isFirst⟩ := List.head?_eq_some_iff.mp isLast
  obtain ⟨other, isSecond⟩ := List.head?_eq_some_iff.mp isOther
  rw [isFirst, isSecond] at reversed
  exact differ (List.forall₂_cons.mp reversed).1

theorem backends_disagree :
    ¬∃ methods ∈ [supersededRevoke, longerCaller, removedGroup, secondMembership],
      List.Forall₂ Agree (answersFrom (Dynamo.serve letterIds fixedTime) Dynamo.emptyStore methods)
        (answersFrom (Sql.serve letterIds fixedTime) Sql.emptyStore methods) := by
  rintro ⟨methods, member, agree⟩
  revert agree
  simp only [List.mem_cons, List.not_mem_nil, or_false] at member
  rcases member with rfl | rfl | rfl | rfl
  · have dynamo : (answersFrom (Dynamo.serve letterIds fixedTime)
        Dynamo.emptyStore supersededRevoke).getLast? = some (.flag true) := by
      decide +kernel
    have sql : (answersFrom (Sql.serve letterIds fixedTime) Sql.emptyStore
        supersededRevoke).getLast? = some (.flag false) := by
      decide +kernel
    apply disagree_of_last dynamo sql
    intro same
    cases same
  · have dynamo : (answersFrom (Dynamo.serve letterIds fixedTime)
        Dynamo.emptyStore longerCaller).getLast? =
          some (.permissions [⟨letterIds 0, "w".toList, "ann#2".toList,
            "mail".toList, "send".toList, fixedTime 0, "admin".toList⟩]) := by
      decide +kernel
    have sql : (answersFrom (Sql.serve letterIds fixedTime) Sql.emptyStore
        longerCaller).getLast? = some (.permissions []) := by
      decide +kernel
    apply disagree_of_last dynamo sql
    intro same
    cases same.1 List.mem_cons_self
  · have dynamo : (answersFrom (Dynamo.serve letterIds fixedTime)
        Dynamo.emptyStore removedGroup).getLast? = some (.ids [letterIds 0]) := by
      decide +kernel
    have sql : (answersFrom (Sql.serve letterIds fixedTime) Sql.emptyStore
        removedGroup).getLast? = some (.ids []) := by
      decide +kernel
    apply disagree_of_last dynamo sql
    intro same
    cases same.1 List.mem_cons_self
  · have dynamo : (answersFrom (Dynamo.serve letterIds fixedTime)
        Dynamo.emptyStore secondMembership).getLast? =
          some (.membership (some ⟨"w".toList, "ann".toList,
            some "member".toList, some "2024".toList⟩)) := by
      decide +kernel
    have sql : (answersFrom (Sql.serve letterIds fixedTime) Sql.emptyStore
        secondMembership).getLast? = some (.membership (some ⟨"w".toList, "ann".toList,
            some "member".toList, some "2023".toList⟩)) := by
      decide +kernel
    apply disagree_of_last dynamo sql
    show ¬IdentityResult.membership _ = IdentityResult.membership _
    decide +kernel

end Aprovan.IdentityStore
