import Aprovan.Library.Runs
import Aprovan.Vfs.Delete

/-!
# Person-shares over runs

The guard of reads, writes and deletions consults the share records.  A share
should open a private partition only if somebody who could read the path made
it, never for writing, and only its creator or the owner should end it.
-/

namespace Aprovan.Vfs

open Aprovan.Library Aprovan.Server Aprovan.Fs Aprovan.Grants Aprovan.Apps

/-- A share record with the fields that the guard does not read. -/
structure StoredShare extends VfsShareRecord where
  (shareId createdBy : Text)

/-- The arguments of `vfs.share`; an argument of another type counts as
empty. -/
structure ShareArgs where
  (path expiresAt person : Text)
  link : Bool

def pathRequired : ServiceError where
  message := "path is required".toList
  status := 400

def expiresAtRequired : ServiceError where
  message := "expiresAt is required".toList
  status := 400

def personAndLink : ServiceError where
  message := "provide person or link, not both".toList
  status := 400

def personOrLinkRequired : ServiceError where
  message := "provide person (sub) or link:true".toList
  status := 400

def granteeRequired : ServiceError where
  message := "grantee is required".toList
  status := 400

def badExpiresAt : ServiceError where
  message := "expiresAt must be an ISO-8601 timestamp".toList
  status := 400

def badSharePath : ServiceError where
  message := "path must be a workspace path".toList
  status := 400

def shareIdRequired : ServiceError where
  message := "shareId is required".toList
  status := 400

def unknownShare (shareId : Text) : ServiceError where
  message := "Not found: share ".toList ++ shareId
  status := 404

section

variable (parseDate : Text → Option Nat)

def parseExpiresAt (value : Text) : Outcome Nat :=
  match parseDate value with
  | none => .error badExpiresAt
  | some time => .ok time

def normalizeSharePath (path : Text) : Outcome Text :=
  match normalizeFsPath path with
  | none => .error badSharePath
  | some normalized => .ok normalized

def createPersonShare (shareId : Text) (args : ShareArgs) (createdBy : Text) :
    Outcome StoredShare :=
  if Library.trim args.person = [] then .error granteeRequired
  else do
    let expiresAt ← parseExpiresAt parseDate args.expiresAt
    let path ← normalizeSharePath args.path
    return {
      path := path
      kind := .person
      grantee := some args.person
      expiresAt := expiresAt
      revokedAt := none
      shareId := shareId
      createdBy := createdBy }

/-- A link share has no grantee; its key is not part of the guard. -/
def createLinkShare (shareId : Text) (args : ShareArgs) (createdBy : Text) :
    Outcome StoredShare := do
  let expiresAt ← parseExpiresAt parseDate args.expiresAt
  let path ← normalizeSharePath args.path
  return {
    path := path
    kind := .link
    grantee := none
    expiresAt := expiresAt
    revokedAt := none
    shareId := shareId
    createdBy := createdBy }

def vfsShare (shareId : Text) (args : ShareArgs) (createdBy : Text) : Outcome StoredShare :=
  if args.path = [] then .error pathRequired
  else if args.expiresAt = [] then .error expiresAtRequired
  else if args.person ≠ [] ∧ args.link = true then .error personAndLink
  else if args.person = [] ∧ args.link = false then .error personOrLinkRequired
  else if args.person ≠ [] then createPersonShare parseDate shareId args createdBy
  else createLinkShare parseDate shareId args createdBy

end

/-- `writeShare`: the record under its id. -/
def writeShare (shares : List StoredShare) (share : StoredShare) : List StoredShare :=
  shares.filter (·.shareId ≠ share.shareId) ++ [share]

/-- `vfs.unshare`.  The caller is not consulted. -/
def revokeShare (shares : List StoredShare) (now : Nat) (shareId : Text) :
    Outcome (List StoredShare) :=
  if shareId = [] then .error shareIdRequired
  else
    match shares.find? (·.shareId = shareId) with
    | none => .error (unknownShare shareId)
    | some share =>
      if share.revokedAt.isSome then .ok shares
      else .ok (writeShare shares { share with revokedAt := some now })

/-- The shares, the rest of the workspace, and what the law speaks of: the
records under which each share was made, the writes and deletions that
passed their guards, and the revocations. -/
structure SharingState where
  stored : List StoredShare
  rest : Workspace
  issuedUnder : List (Text × AccessRecords)
  mutations : List (Text × Text)
  revocations : List (Text × StoredShare)

def SharingState.records (state : SharingState) : AccessRecords :=
  { state.rest.records with
    shares := state.stored.map StoredShare.toVfsShareRecord }

def SharingState.workspace (state : SharingState) : Workspace :=
  { state.rest with records := state.records }

/-- A member calls without an app, perhaps through an agent. -/
structure Member where
  userId : Text
  grants : Option CapabilityGrants

def Member.context (member : Member) : ServiceContext where
  userId := member.userId
  appScope := none
  grants := member.grants

/-- `others` stands for everything else that happens: time passes, files,
memberships and instances change. -/
inductive SharingAct where
  | share (member : Member) (shareId : Text) (args : ShareArgs)
  | unshare (member : Member) (shareId : Text)
  | read (member : Member) (value : Option Text)
  | write (member : Member) (value : Option Text)
  | delete (member : Member) (value : Option Text)
  | others (rest : Workspace)

/-- A write or a deletion, as far as its guards. -/
def mutate (state : SharingState) (member : Member) (value : Option Text) : SharingState :=
  match mutationPath member.context state.workspace value with
  | .error _ => state
  | .ok path =>
    { state with
      mutations := state.mutations ++ [(member.userId, path)] }

def unshare (state : SharingState) (member : Member) (shareId : Text) : SharingState :=
  match revokeShare state.stored state.rest.records.now shareId with
  | .error _ => state
  | .ok stored =>
    { state with
      stored := stored
      revocations := state.revocations ++
        ((state.stored.find? (·.shareId = shareId)).filter
          (·.revokedAt.isNone)).toList.map (member.userId, ·) }

def shareStep (parseDate : Text → Option Nat) (state : SharingState) (act : SharingAct) :
    Option SharingState :=
  match act with
  | .share member shareId args =>
    match vfsShare parseDate shareId args member.userId with
    | .error _ => some state
    | .ok share =>
      some { state with
        stored := writeShare state.stored share
        issuedUnder := state.issuedUnder ++ [(shareId, state.records)] }
  | .unshare member shareId => some (unshare state member shareId)
  | .read _ _ => some state
  | .write member value => some (mutate state member value)
  | .delete member value => some (mutate state member value)
  | .others rest => some { state with rest := rest }

/-- The share opens the path for the grantee: it is active, unrevoked, and
made by somebody who could then read the path. -/
def IssuedFor (state : SharingState) (grantee path : Text) (share : StoredShare) : Prop :=
  share ∈ state.stored ∧ share.kind = .person ∧ share.grantee = some grantee ∧
    isShareActive share.toVfsShareRecord state.rest.records.now = true ∧
    pathCoveredByShare share.path path = true ∧
    ∃ under, (share.shareId, under) ∈ state.issuedUnder ∧
      assertPartitionAccess under share.createdBy path = .ok ()

structure OwnerIssued (state : SharingState) : Prop where
  opened : ∀ member path, normalizeFsPath path = some path →
    partitionAccess path member = .foreign →
    assertPartitionAccess state.records member path = .ok () →
    ∃ share, IssuedFor state member path share
  readOnly : ∀ entry ∈ state.mutations, partitionAccess entry.2 entry.1 ≠ .foreign
  revokedByOwner : ∀ entry ∈ state.revocations, entry.1 = entry.2.createdBy ∨
      partitionAccess entry.2.path entry.1 = .own

def unshared (rest : Workspace) : SharingState where
  stored := []
  rest := rest
  issuedUnder := []
  mutations := []
  revocations := []

/-- The member could read every private path that the new share opens. -/
def IssuesReadable (state : SharingState) (member : Member) (args : ShareArgs) : Prop :=
  ∀ root, normalizeFsPath args.path = some root → ∀ path, normalizeFsPath path = some path →
      underPath path root = true →
      partitionAccess path args.person = .foreign →
      assertPartitionAccess state.records member.userId path = .ok ()

/-- No active share lets the member into somebody else's partition. -/
def MutatesUnshared (state : SharingState) (member : Member) (value : Option Text) : Prop :=
  ∀ path, resolveVfsPath member.context state.rest.shares value true = .ok path →
    partitionAccess path member.userId = .foreign →
    personShareAllowsRead state.records member.userId path = false

def RevokesOwn (state : SharingState) (member : Member) (shareId : Text) : Prop :=
  ∀ share, state.stored.find? (·.shareId = shareId) = some share → share.revokedAt = none →
    member.userId = share.createdBy ∨ partitionAccess share.path member.userId = .own

def ShareCondition (state : SharingState) (act : SharingAct) : Prop :=
  match act with
  | .share member _ args => args.person ≠ [] → IssuesReadable state member args
  | .unshare member shareId => RevokesOwn state member shareId
  | .write member value => MutatesUnshared state member value
  | .delete member value => MutatesUnshared state member value
  | .read _ _ => True
  | .others _ => True

/-- The creator of a person-share could read the private paths it covers,
under the records of that time. -/
def Warranted (state : SharingState) (share : StoredShare) : Prop :=
  share.kind = .person →
  ∃ under, (share.shareId, under) ∈ state.issuedUnder ∧
    ∀ path, normalizeFsPath path = some path → pathCoveredByShare share.path path = true →
      (∀ grantee, share.grantee = some grantee → partitionAccess path grantee = .foreign) →
      assertPartitionAccess under share.createdBy path = .ok ()

structure SharingInvariant (state : SharingState) : Prop where
  warranted : ∀ share ∈ state.stored, Warranted state share
  readOnly : ∀ entry ∈ state.mutations, partitionAccess entry.2 entry.1 ≠ .foreign
  revokedByOwner : ∀ entry ∈ state.revocations, entry.1 = entry.2.createdBy ∨
      partitionAccess entry.2.path entry.1 = .own

variable {state : SharingState}

/-- The guard of a foreign path names the share that opens it. -/
theorem exists_share_of_allowed {member path : Text} (normal : normalizeFsPath path = some path)
    (allowed : personShareAllowsRead state.records member path = true) :
    ∃ share ∈ state.stored, share.kind = .person ∧ share.grantee = some member ∧
      isShareActive share.toVfsShareRecord state.rest.records.now = true ∧
      pathCoveredByShare share.path path = true := by
  rw [personShareAllowsRead, normal] at allowed
  simp only [SharingState.records, List.any_map, List.any_eq_true,
    Function.comp_apply, Bool.and_eq_true, decide_eq_true_eq] at allowed
  obtain ⟨share, stored, ⟨⟨person, grantee⟩, active⟩, covered⟩ := allowed
  exact ⟨share, stored, person, grantee, active, covered⟩

theorem ownerIssued_of_invariant (holds : SharingInvariant state) : OwnerIssued state := by
  constructor
  · intro member path normal foreign passes
    have allowed := (assertPartitionAccess_foreign_iff foreign).mp passes
    obtain ⟨share, stored, person, grantee, active, covered⟩ :=
      exists_share_of_allowed normal allowed
    obtain ⟨under, issued, readable⟩ := holds.warranted share stored person
    have couldRead := readable path normal covered (by
      intro other named
      rw [grantee] at named
      cases named
      exact foreign)
    exact ⟨share, stored, person, grantee, active, covered, under, issued, couldRead⟩
  · exact holds.readOnly
  · exact holds.revokedByOwner

variable {share : StoredShare}

theorem mem_writeShare {shares : List StoredShare} {other : StoredShare}
    (member : other ∈ writeShare shares share) :
    other = share ∨ other ∈ shares := by
  rcases List.mem_append.mp member with older | new
  · exact Or.inr (List.mem_of_mem_filter older)
  · exact Or.inl (List.mem_singleton.mp new)

variable {shareId : Text} {parseDate : Text → Option Nat}

theorem vfsShare_ok {createdBy : Text} {args : ShareArgs}
    (made : vfsShare parseDate shareId args createdBy = .ok share) :
    share.shareId = shareId ∧ share.createdBy = createdBy ∧
      normalizeFsPath args.path = some share.path ∧
      (share.kind = .person → args.person ≠ [] ∧ share.grantee = some args.person) := by
  have named : ∀ {path : Text}, normalizeSharePath args.path = .ok path →
      normalizeFsPath args.path = some path := by
    intro path normalized
    unfold normalizeSharePath at normalized
    split at normalized
    · cases normalized
    · next found =>
        cases normalized
        exact found
  unfold vfsShare at made
  split at made
  · cases made
  split at made
  · cases made
  split at made
  · cases made
  split at made
  · cases made
  split at made
  · next person =>
      unfold createPersonShare at made
      split at made
      · cases made
      obtain ⟨expiresAt, _, rest⟩ := bind_eq_ok_iff.mp made
      obtain ⟨path, normalized, same⟩ := bind_eq_ok_iff.mp rest
      cases same
      exact ⟨rfl, rfl, named normalized, fun _ => ⟨person, rfl⟩⟩
  · unfold createLinkShare at made
    obtain ⟨expiresAt, _, rest⟩ := bind_eq_ok_iff.mp made
    obtain ⟨path, normalized, same⟩ := bind_eq_ok_iff.mp rest
    cases same
    refine ⟨rfl, rfl, named normalized, ?_⟩
    intro impossible
    cases impossible

theorem warranted_of_issuedUnder {next : SharingState} (warranted : Warranted state share)
    (kept : state.issuedUnder ⊆ next.issuedUnder) :
    Warranted next share := by
  intro person
  obtain ⟨under, issued, readable⟩ := warranted person
  exact ⟨under, kept issued, readable⟩

variable {member : Member}

theorem invariant_share {args : ShareArgs} (holds : SharingInvariant state)
    (condition : args.person ≠ [] → IssuesReadable state member args)
    (made : vfsShare parseDate shareId args member.userId = .ok share) :
    SharingInvariant { state with
      stored := writeShare state.stored share
      issuedUnder := state.issuedUnder ++ [(shareId, state.records)] } := by
  obtain ⟨sameId, creator, normalized, ofPerson⟩ := vfsShare_ok made
  constructor
  · intro other member
    rcases mem_writeShare member with rfl | older
    · intro person
      obtain ⟨named, grantee⟩ := ofPerson person
      refine ⟨state.records, ?_, ?_⟩
      · rw [sameId]
        exact List.mem_append_right _ List.mem_cons_self
      · intro path normal covered foreign
        rw [creator]
        exact condition named other.path normalized path normal covered
          (foreign args.person grantee)
    · exact warranted_of_issuedUnder (holds.warranted other older) (List.subset_append_left _ _)
  · exact holds.readOnly
  · exact holds.revokedByOwner

theorem revokeShare_ok {shares after : List StoredShare} {now : Nat}
    (revoked : revokeShare shares now shareId = .ok after) :
    ∀ share ∈ after, ∃ old ∈ shares, share.shareId = old.shareId ∧
      share.createdBy = old.createdBy ∧ share.path = old.path ∧
      share.kind = old.kind ∧ share.grantee = old.grantee := by
  unfold revokeShare at revoked
  split at revoked
  · cases revoked
  split at revoked
  · cases revoked
  · next share found =>
      split at revoked
      · cases revoked
        intro share stored
        exact ⟨share, stored, rfl, rfl, rfl, rfl, rfl⟩
      · cases revoked
        intro other member
        rcases mem_writeShare member with rfl | older
        · exact ⟨share, List.mem_of_find?_eq_some found, rfl, rfl, rfl, rfl, rfl⟩
        · exact ⟨other, older, rfl, rfl, rfl, rfl, rfl⟩

theorem invariant_unshare (holds : SharingInvariant state)
    (condition : RevokesOwn state member shareId) :
    SharingInvariant (unshare state member shareId) := by
  unfold unshare
  split
  · exact holds
  · next stored revoked =>
      constructor
      · intro share inAfter person
        obtain ⟨old, inOld, sameId, sameCreator, samePath, sameKind,
          sameGrantee⟩ := revokeShare_ok revoked share inAfter
        rw [sameKind] at person
        rw [sameId, sameCreator, samePath, sameGrantee]
        exact holds.warranted old inOld person
      · exact holds.readOnly
      · intro entry recorded
        rcases List.mem_append.mp recorded with earlier | new
        · exact holds.revokedByOwner entry earlier
        · obtain ⟨share, found, rfl⟩ := List.mem_map.mp new
          obtain ⟨stored, active⟩ :=
            Option.filter_eq_some_iff.mp (Option.mem_toList.mp found)
          exact condition share stored (by simpa using active)

theorem invariant_mutate {value : Option Text} (holds : SharingInvariant state)
    (condition : MutatesUnshared state member value) :
    SharingInvariant (mutate state member value) := by
  unfold mutate
  split
  · exact holds
  · next path passes =>
      obtain ⟨resolved, _, guarded, _⟩ := mutationPath_eq_ok_iff.mp passes
      have notForeign : partitionAccess path member.userId ≠ .foreign := by
        intro foreign
        have allowed := (assertPartitionAccess_foreign_iff foreign).mp guarded
        have denied := condition path resolved foreign
        rw [SharingState.workspace] at allowed
        simp only at allowed
        rw [denied] at allowed
        cases allowed
      constructor
      · exact holds.warranted
      · intro entry recorded
        rcases List.mem_append.mp recorded with earlier | new
        · exact holds.readOnly entry earlier
        · rw [List.mem_singleton.mp new]
          exact notForeign
      · exact holds.revokedByOwner

theorem invariant_shareStep {state next : SharingState} {act : SharingAct}
    (holds : SharingInvariant state) (condition : ShareCondition state act)
    (taken : shareStep parseDate state act = some next) :
    SharingInvariant next := by
  cases act with
  | share member shareId args =>
    simp only [shareStep] at taken
    split at taken
    · cases taken
      exact holds
    · next share made =>
        cases taken
        exact invariant_share holds condition made
  | unshare member shareId =>
    cases taken
    exact invariant_unshare holds condition
  | read member value =>
    cases taken
    exact holds
  | write member value =>
    cases taken
    exact invariant_mutate holds condition
  | delete member value =>
    cases taken
    exact invariant_mutate holds condition
  | others rest =>
    cases taken
    exact ⟨holds.warranted, holds.readOnly, holds.revokedByOwner⟩

/-- In every run whose steps meet the condition, shares open only what
their creators could read, only for reading, and are ended only by their
creators and owners. -/
theorem shares_owner_issued {parseDate : Text → Option Nat} {rest : Workspace}
    {acts : List SharingAct} {state : SharingState}
    (meets : StepsMeet (shareStep parseDate) ShareCondition (unshared rest) acts)
    (executed : runFrom (shareStep parseDate) (unshared rest) acts = some state) :
    OwnerIssued state := by
  apply ownerIssued_of_invariant
  apply invariant_of_stepsMeet SharingInvariant
    (fun _ _ _ holds condition taken => invariant_shareStep holds condition taken) _ meets executed
  constructor
  · intro share stored
    cases stored
  · intro entry recorded
    cases recorded
  · intro entry recorded
    cases recorded

def ann : Member where
  userId := "ann".toList
  grants := none

def mallory : Member where
  userId := "mallory".toList
  grants := none

def diaryFor (person : Text) : ShareArgs where
  path := annsDiary
  expiresAt := "2100-01-01".toList
  person := person
  link := false

def tomorrow (_ : Text) : Option Nat :=
  some 1

/-- Ann lends bob her diary and takes it back. -/
def lending : List SharingAct :=
  [.share ann "s".toList (diaryFor "bob".toList), .read ⟨"bob".toList, none⟩ (some annsDiary),
    .unshare ann "s".toList]

theorem ann_reads_below_diary {records : AccessRecords} {path : Text}
    (under : underPath path annsDiary = true) :
    assertPartitionAccess records "ann".toList path = .ok () := by
  have own : partitionAccess annsDiary "ann".toList = .own := by decide
  have below := partitionAccess_below (by rw [own]; decide) under
  rw [assertPartitionAccess, below, own]

theorem shares_owner_issued_lending :
    ∃ state, runFrom (shareStep tomorrow) (unshared annsWorkspace) lending = some state ∧
      state.revocations.length = 1 ∧ OwnerIssued state := by
  have ran :
      (runFrom (shareStep tomorrow) (unshared annsWorkspace) lending).map
        (·.revocations.length) = some 1 := by
    decide +kernel
  obtain ⟨state, executed, count⟩ := Option.map_eq_some_iff.mp ran
  refine ⟨state, executed, count, ?_⟩
  have meets : StepsMeet (shareStep tomorrow) ShareCondition (unshared annsWorkspace) lending := by
    refine ⟨?_, fun first shared => ⟨trivial, fun second read => ⟨?_,
      fun third revoked => trivial⟩⟩⟩
    · intro named root normalized path normal under foreign
      have sameRoot : normalizeFsPath (diaryFor "bob".toList).path = some annsDiary := by
        decide +kernel
      rw [sameRoot] at normalized
      cases normalized
      exact ann_reads_below_diary under
    · cases read
      intro share found active
      have byAnn :
          (shareStep tomorrow (unshared annsWorkspace)
            (.share ann "s".toList (diaryFor "bob".toList))).map
              (fun state => state.stored.map (·.createdBy)) =
            some ["ann".toList] := by
        decide +kernel
      rw [shared] at byAnn
      have creators : first.stored.map (·.createdBy) = ["ann".toList] := Option.some.inj byAnn
      have created : share.createdBy ∈ first.stored.map (·.createdBy) :=
        List.mem_map_of_mem (List.mem_of_find?_eq_some found)
      rw [creators] at created
      exact Or.inl (List.mem_singleton.mp created).symm
  exact shares_owner_issued meets executed

/-- Mallory shares ann's diary with himself, writes it, and another member
ends the share. -/
def theft : List SharingAct :=
  [.share mallory "s".toList (diaryFor "mallory".toList), .write mallory (some annsDiary),
    .unshare ⟨"bob".toList, none⟩ "s".toList]

theorem shares_not_owner_issued :
    ¬ ∀ (parseDate : Text → Option Nat) (rest : Workspace)
        (acts : List SharingAct) (state : SharingState),
      runFrom (shareStep parseDate) (unshared rest) acts = some state →
      OwnerIssued state := by
  intro law
  have ran :
      (runFrom (shareStep tomorrow) (unshared annsWorkspace) theft).map
        (fun state => (state.mutations, state.revocations.length)) =
      some ([("mallory".toList, annsDiary)], 1) := by
    decide +kernel
  obtain ⟨state, executed, recorded⟩ := Option.map_eq_some_iff.mp ran
  have holds := law tomorrow annsWorkspace theft state executed
  have written := (Prod.mk.inj recorded).1
  have foreign := holds.readOnly ("mallory".toList, annsDiary) (by
    rw [written]
    exact List.mem_cons_self)
  exact foreign (by decide)

end Aprovan.Vfs
