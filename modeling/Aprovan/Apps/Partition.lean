import Aprovan.Fs.Path

/-!
# Partitions of the file plane

`.users/<sub>` and `.apps/<id>/data/<sub>` belong to one person,
`.apps/<id>/shared/<instance>` to the participants of an instance.  The rule
that classifies a path, and the guard that resolves the classification.
-/

namespace Aprovan.Apps

open Aprovan.Library Aprovan.Server Aprovan.Fs

def appDataRoot : Text := ".apps".toList

def userSpaceRoot : Text := ".users".toList

/-- `path.slice(root.length + 1).split("/")`. -/
def segmentsBelow (path root : Text) : List Text :=
  splitOn '/' (path.drop (root.length + 1))

inductive PartitionAccess where
  | openAccess
  | own
  | foreign
  | shared
  deriving DecidableEq

structure SharedPartition where
  (id instanceId : Text)
  deriving DecidableEq

/-- `.apps/<id>/shared/<instanceId>[/...]`. -/
def parseSharedPartition (path : Text) : Option SharedPartition :=
  if underPath path appDataRoot then
    match segmentsBelow path appDataRoot with
    | id :: discriminator :: instanceId :: _ =>
      if id ≠ [] ∧ discriminator = "shared".toList ∧ instanceId ≠ [] then
        some { id := id, instanceId := instanceId }
      else none
    | _ => none
  else none

def ownedBy (owner callerSub : Text) : PartitionAccess :=
  if owner = callerSub then .own else .foreign

/-- The pure partition rule; containers belong to nobody. -/
def partitionAccess (path callerSub : Text) : PartitionAccess :=
  if underPath path appDataRoot then
    if path = appDataRoot then .openAccess
    else if (parseSharedPartition path).isSome then .shared
    else
      match segmentsBelow path appDataRoot with
      | _ :: discriminator :: owner :: _ =>
        if discriminator = "data".toList then ownedBy owner callerSub else .openAccess
      | _ => .openAccess
  else if underPath path userSpaceRoot then
    if path = userSpaceRoot then .openAccess
    else
      match segmentsBelow path userSpaceRoot with
      | owner :: _ => ownedBy owner callerSub
      | [] => .openAccess
  else .openAccess

inductive HostingMode where
  | hosted
  | managed
  deriving DecidableEq

/-- A shared instance; the participants are its whole access list. -/
structure AppInstanceRecord where
  (appId hostWorkspaceId : Text)
  participants : List Text
  deriving DecidableEq

inductive ShareKind where
  | person
  | link
  deriving DecidableEq

structure VfsShareRecord where
  path : Text
  kind : ShareKind
  grantee : Option Text
  expiresAt : Nat
  revokedAt : Option Nat

/-- The records that the guard reads.  `installHosting` is the hosting field
of the owning install's record, absent when there is no such record. -/
structure AccessRecords where
  appInstance : Text → Option AppInstanceRecord
  installHosting : Text → Text → Option HostingMode
  isMember : Text → Text → Bool
  shares : List VfsShareRecord
  now : Nat

def resolveHostingMode (records : AccessRecords) (hostWorkspaceId appId : Text) : HostingMode :=
  (records.installHosting hostWorkspaceId appId).getD .managed

/-- Denial is indistinguishable from absence. -/
def denyInstance (instanceId : Text) : ServiceError where
  message := "Not found: instance ".toList ++ instanceId
  status := 404

def assertInstanceAccess (records : AccessRecords) (appId instanceId callerSub : Text) :
    Outcome Unit :=
  match records.appInstance instanceId with
  | none => .error (denyInstance instanceId)
  | some record =>
    if record.appId ≠ appId ∨ callerSub ∉ record.participants then .error (denyInstance instanceId)
    else if resolveHostingMode records record.hostWorkspaceId record.appId = .managed ∧
        records.isMember record.hostWorkspaceId callerSub = false then
      .error (denyInstance instanceId)
    else .ok ()

def isShareActive (share : VfsShareRecord) (now : Nat) : Bool :=
  share.revokedAt = none && now < share.expiresAt

def pathCoveredByShare (sharePath path : Text) : Bool :=
  underPath path sharePath

/-- Does an active person-share give `grantee` read access to `path`? -/
def personShareAllowsRead (records : AccessRecords) (grantee path : Text) : Bool :=
  match normalizeFsPath path with
  | none => false
  | some normalized =>
    records.shares.any fun share =>
      share.kind = .person && share.grantee = some grantee && isShareActive share records.now &&
        pathCoveredByShare share.path normalized

/-- Throws unless the caller may touch the partition that holds `path`. -/
def assertPartitionAccess (records : AccessRecords) (callerSub path : Text) : Outcome Unit :=
  match partitionAccess path callerSub with
  | .shared =>
    match parseSharedPartition path with
    | some partition => assertInstanceAccess records partition.id partition.instanceId callerSub
    | none => .ok ()
  | .foreign =>
    if personShareAllowsRead records callerSub path then .ok ()
    else .error (notFound path)
  | .openAccess => .ok ()
  | .own => .ok ()

theorem assertPartitionAccess_foreign_iff {records : AccessRecords} {member path : Text}
    (foreign : partitionAccess path member = .foreign) :
    assertPartitionAccess records member path = .ok () ↔
      personShareAllowsRead records member path = true := by
  rw [assertPartitionAccess, foreign]
  by_cases opened : personShareAllowsRead records member path = true
  · simp [opened]
  · simp [opened]

theorem segmentsBelow_below (root rest : Text) :
    segmentsBelow (root ++ '/' :: rest) root = splitOn '/' rest := by
  have split : (root ++ '/' :: rest).drop (root.length + 1) = rest := by
    rw [List.drop_append, List.drop_eq_nil_of_le (by omega)]
    simp
  rw [segmentsBelow, split]

theorem segmentsBelow_append {path root : Text} (under : underPath path root = true)
    (proper : path ≠ root) (more : Text) :
    segmentsBelow (path ++ '/' :: more) root = segmentsBelow path root ++ splitOn '/' more := by
  rcases isUnder_iff.mp under with same | ⟨rest, rfl⟩
  · exact absurd same proper
  · rw [segmentsBelow_below, ← splitOn_append_separator,
      ← segmentsBelow_below root (rest ++ '/' :: more)]
    congr 1
    simp

theorem parseSharedPartition_container : parseSharedPartition appDataRoot = none := by
  decide

theorem below_ne_root {path root : Text} (under : underPath path root = true) (more : Text) :
    path ++ '/' :: more ≠ root := by
  intro same
  have long := congrArg List.length same
  rcases isUnder_iff.mp under with rfl | ⟨rest, rfl⟩ <;>
    simp only [List.length_append, List.length_cons] at long <;> omega

theorem appDataRoot_disjoint {path : Text} (inUsers : underPath path userSpaceRoot = true) :
    underPath path appDataRoot = false := by
  rw [Bool.eq_false_iff]
  intro inApps
  have comparable := isUnder_total inApps inUsers
  revert comparable
  decide

theorem parseSharedPartition_below {path root : Text} {partition : SharedPartition}
    (found : parseSharedPartition root = some partition) (under : underPath path root = true) :
    parseSharedPartition path = some partition := by
  rcases isUnder_iff.mp under with rfl | ⟨more, rfl⟩
  · exact found
  · unfold parseSharedPartition at found ⊢
    by_cases inApps : underPath root appDataRoot = true
    · have proper : root ≠ appDataRoot := by
        rintro rfl
        have absent := parseSharedPartition_container
        unfold parseSharedPartition at absent
        rw [absent] at found
        cases found
      rw [if_pos inApps] at found
      rw [if_pos (isUnder_trans under inApps), segmentsBelow_append inApps proper]
      split at found
      next parts =>
        rw [parts]
        exact found
      next =>
        cases found
    · rw [if_neg inApps] at found
      cases found

theorem partitionAccess_eq_shared_iff {path callerSub : Text} :
    partitionAccess path callerSub = .shared ↔
      ∃ partition, parseSharedPartition path = some partition := by
  rw [← Option.isSome_iff_exists]
  unfold partitionAccess
  by_cases inApps : underPath path appDataRoot = true
  · rw [if_pos inApps]
    by_cases container : path = appDataRoot
    · rw [if_pos container, container, parseSharedPartition_container]
      simp
    · rw [if_neg container]
      by_cases shared : (parseSharedPartition path).isSome = true
      · simp [shared]
      · rw [if_neg shared]
        simp only [shared]
        split
        · split
          · unfold ownedBy
            split <;> simp
          · simp
        · simp
  · rw [if_neg inApps]
    have absent : parseSharedPartition path = none := by rw [parseSharedPartition, if_neg inApps]
    rw [absent]
    simp only [Option.isSome_none, Bool.false_eq_true, iff_false]
    split
    · split
      · simp
      · split
        · unfold ownedBy
          split <;> simp
        · simp
    · simp

private theorem partitionAccess_below_apps {root callerSub more : Text}
    (inApps : underPath root appDataRoot = true)
    (inAppsBelow : underPath (root ++ '/' :: more) appDataRoot = true)
    (notShared : parseSharedPartition root = none)
    (owned : partitionAccess root callerSub ≠ .openAccess) :
    partitionAccess (root ++ '/' :: more) callerSub = partitionAccess root callerSub := by
  unfold partitionAccess at owned ⊢
  rw [if_pos inApps] at owned ⊢
  rw [if_pos inAppsBelow, if_neg (below_ne_root inApps more)]
  by_cases container : root = appDataRoot
  · rw [if_pos container] at owned
    exact absurd rfl owned
  rw [if_neg container, notShared] at owned ⊢
  simp only [Option.isSome_none, Bool.false_eq_true, if_false] at owned ⊢
  have parts := segmentsBelow_append inApps container more
  split at owned
  next id discriminator owner others segments =>
    rw [segments] at parts
    by_cases data : discriminator = "data".toList
    · have notSharedBelow : parseSharedPartition (root ++ '/' :: more) = none := by
        rw [parseSharedPartition, if_pos inAppsBelow, parts]
        simp [data]
      rw [notSharedBelow, parts]
      simp [data]
    · rw [if_neg data] at owned
      exact absurd rfl owned
  next =>
    exact absurd rfl owned

private theorem partitionAccess_below_users {root callerSub more : Text}
    (inUsers : underPath root userSpaceRoot = true)
    (inUsersBelow : underPath (root ++ '/' :: more) userSpaceRoot = true)
    (owned : partitionAccess root callerSub ≠ .openAccess) :
    partitionAccess (root ++ '/' :: more) callerSub = partitionAccess root callerSub := by
  unfold partitionAccess at owned ⊢
  rw [appDataRoot_disjoint inUsers, if_pos inUsers] at owned ⊢
  rw [appDataRoot_disjoint inUsersBelow, if_pos inUsersBelow, if_neg (below_ne_root inUsers more)]
  simp only [Bool.false_eq_true, if_false] at owned ⊢
  by_cases container : root = userSpaceRoot
  · rw [if_pos container] at owned
    exact absurd rfl owned
  rw [if_neg container, segmentsBelow_append inUsers container more]
  cases parts : segmentsBelow root userSpaceRoot with
  | nil => exact absurd parts (splitOn_ne_nil _ _)
  | cons owner others => rfl

variable {path root callerSub : Text}
  (owned : partitionAccess root callerSub ≠ .openAccess)
  (under : underPath path root = true)

include owned under

theorem partitionAccess_below :
    partitionAccess path callerSub = partitionAccess root callerSub := by
  cases found : parseSharedPartition root with
  | some partition =>
    have below := parseSharedPartition_below found under
    rw [partitionAccess_eq_shared_iff.mpr ⟨partition, found⟩,
      partitionAccess_eq_shared_iff.mpr ⟨partition, below⟩]
  | none =>
    rcases isUnder_iff.mp under with rfl | ⟨more, rfl⟩
    · rfl
    by_cases inApps : underPath root appDataRoot = true
    · exact partitionAccess_below_apps inApps (isUnder_trans under inApps) found owned
    by_cases inUsers : underPath root userSpaceRoot = true
    · exact partitionAccess_below_users inUsers (isUnder_trans under inUsers) owned
    have unowned : partitionAccess root callerSub = .openAccess := by
      rw [partitionAccess, if_neg inApps, if_neg inUsers]
    exact absurd unowned owned

theorem assertPartitionAccess_below {records : AccessRecords}
    (rootNormal : normalizeFsPath root = some root)
    (pathNormal : normalizeFsPath path = some path)
    (passes : assertPartitionAccess records callerSub root = .ok ()) :
    assertPartitionAccess records callerSub path = .ok () := by
  have same := partitionAccess_below owned under
  unfold assertPartitionAccess at passes ⊢
  rw [same]
  cases access : partitionAccess root callerSub with
  | openAccess => rfl
  | own => rfl
  | shared =>
    obtain ⟨partition, found⟩ := partitionAccess_eq_shared_iff.mp access
    rw [access] at passes
    simp only [found] at passes
    simp only [parseSharedPartition_below found under]
    exact passes
  | foreign =>
    rw [access] at passes
    simp only at passes ⊢
    have shareOfRoot : personShareAllowsRead records callerSub root = true := by
      by_contra denied
      rw [if_neg denied] at passes
      cases passes
    rw [if_pos]
    rw [personShareAllowsRead, rootNormal] at shareOfRoot
    rw [personShareAllowsRead, pathNormal]
    simp only [List.any_eq_true, Bool.and_eq_true] at shareOfRoot ⊢
    obtain ⟨share, stored, grants, covered⟩ := shareOfRoot
    exact ⟨share, stored, grants, isUnder_trans under covered⟩

end Aprovan.Apps
