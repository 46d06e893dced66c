import Aprovan.Sandboxes.Manifests
import Aprovan.Sandboxes.Service
import Aprovan.Vcs.SessionMerge

/-!
# Where a commit delivers

One sandbox with one mount, the host that runs it, and the places that a commit
writes to: the overlay of a draft, the bucket behind an external mount, or the
file tree.
-/

namespace Aprovan.Sandboxes

open Aprovan.Library Aprovan.Server Aprovan.Fs Aprovan.Grants

/-- A path prefix that is backed by a bucket or a repository. -/
structure ExternalMount extends Vfs.VfsMount where
  readwrite : Bool
  (bucket root : Text)

/-- The places of one workspace: the files with the rows of one session, the
external mounts, and the objects in their buckets. -/
structure Targets where
  stores : Vcs.SessionStores
  externalMounts : List ExternalMount
  objects : List ((Text × Text) × Text)

def externalMountFor (mounts : List ExternalMount) (path : Text) : Option ExternalMount :=
  mounts.find? fun mount => underPath path mount.pathPrefix

def readOnlyExternal (mount : ExternalMount) : ServiceError where
  message := mount.pathPrefix ++ " is a read-only ".toList ++
    mount.type.label ++ " mount — remount with mode ".toList ++
    "\"readwrite\" to write through it".toList
  status := 403

def notWrittenThrough (mount : ExternalMount) : ServiceError where
  message := "Writing through a ".toList ++ mount.type.label ++
    " mount is not supported (".toList ++ mount.pathPrefix ++ ")".toList
  status := 501

def assertWritableMount (mount : ExternalMount) : Outcome Unit :=
  if mount.readwrite = false then .error (readOnlyExternal mount)
  else if mount.type ≠ .s3 then .error (notWrittenThrough mount)
  else .ok ()

def s3Key (mount : ExternalMount) (path : Text) : Text :=
  let root :=
    if mount.root = [] then [] else stripTrailingSlashes mount.root ++ ['/']
  root ++ path.drop (mount.pathPrefix.length + 1)

section

variable (services : Vcs.SessionServices)

/-- `mountWrite` and `mountDelete`. -/
def writeThrough (mount : ExternalMount) (path : Text) (body : Option Text) (targets : Targets) :
    Outcome Unit × Targets :=
  match assertWritableMount mount with
  | .error thrown => (.error thrown, targets)
  | .ok () =>
    let key := (mount.bucket, s3Key mount path)
    let others := targets.objects.filter (·.1 ≠ key)
    let own := body.toList.map fun content => (key, content)
    (.ok (), { targets with objects := others ++ own })

/-- `sessionWrite`, and `sessionDelete` with its refusal ignored; the record
is the one that the deliveries before left. -/
def stage (session : Vcs.ChatSessionRecord) (path : Text)
    (body : Option Text) (stores : Vcs.SessionStores) : Vcs.SessionStores :=
  match body with
  | some content =>
    ((Vcs.sessionWrite session path content none).run (Vcs.executeAlone services) stores).state
  | none => ((Vcs.sessionDelete session path false).run (Vcs.executeAlone services) stores).state

def writeTree (now : Nat) (path : Text) (body : Option Text) (files : Store) : Store :=
  match body with
  | some content => files.write services.sha256 now path content "text/plain".toList none
  | none => (files.remove path).2

/-- Deliver one path to where it is routed.  Whether it is refused depends
on the external mounts alone. -/
def deliverTo (staged : Bool) (path : Text) (body : Option Text) (targets : Targets) :
    Outcome Unit × Targets :=
  match targets.stores.session.filter fun _ => staged with
  | some session =>
    (.ok (), { targets with
        stores := stage services session path body targets.stores })
  | none =>
    match externalMountFor targets.externalMounts path with
    | some mount => writeThrough mount path body targets
    | none =>
      (.ok (), { targets with
          stores := { targets.stores with
              files := writeTree services targets.stores.clock path body
                targets.stores.files } })

end

def Targets.goesToTree (targets : Targets) (staged : Bool) (path : Text) : Bool :=
  (targets.stores.session.filter fun _ => staged).isNone &&
    (externalMountFor targets.externalMounts path).isNone

/-- The place of the path takes writes. -/
def Targets.accepts (targets : Targets) (staged : Bool) (path : Text) : Bool :=
  (targets.stores.session.filter fun _ => staged).isSome ||
    (externalMountFor targets.externalMounts path).all fun mount =>
      (assertWritableMount mount).isOk

def Targets.contentAt (targets : Targets) (path : Text) : Option Text :=
  (targets.stores.files.latest path).map FsRow.content

/-- Every version is stored under the digest of its content, and none is
newer than the clock. -/
def InOrder (services : Vcs.SessionServices) (clock : Nat) (files : Store) : Prop :=
  ∀ row ∈ files.rows, row.hash = services.sha256 row.content ∧ row.updatedAt ≤ clock

section

variable {services : Vcs.SessionServices} {clock : Nat} {files : Store}

section

variable (inOrder : InOrder services clock files)

include inOrder

theorem inOrder_write (path content mimeType : Text) :
    InOrder services clock (files.write services.sha256 clock path content mimeType none) := by
  intro row member
  rcases List.mem_append.mp member with old | new
  · exact inOrder row (List.mem_filter.mp old).1
  · rw [List.mem_singleton.mp new]
    exact ⟨rfl, Nat.le_refl clock⟩

theorem inOrder_keep (condition : FsRow → Bool) :
    InOrder services clock (files.keep condition) := by
  intro row member
  exact inOrder row (List.mem_filter.mp member).1

theorem inOrder_writeTree (path : Text) (body : Option Text) :
    InOrder services clock (writeTree services clock path body files) := by
  cases body with
  | none => exact inOrder_keep inOrder _
  | some content => exact inOrder_write inOrder path content _

end

theorem stage_eq (session : Vcs.ChatSessionRecord) (path : Text) (body : Option Text)
    (stores : Vcs.SessionStores) (stored : stores.session.isSome = true) :
    (stage services session path body stores).clock = stores.clock ∧
      (stage services session path body stores).session.isSome = true ∧
      (stage services session path body stores).files =
        match body with
        | some content =>
          stores.files.write services.sha256 stores.clock (Vcs.shadowPath session.id path) content
            "text/plain".toList none
        | none => stores.files := by
  cases body with
  | some content => exact ⟨rfl, rfl, rfl⟩
  | none =>
    obtain ⟨read, same⟩ :=
      Vcs.run_baseSnapshot services stores session
    show ((Vcs.sessionDelete session path false).run
        (Vcs.executeAlone services) stores).state.clock = stores.clock ∧
      ((Vcs.sessionDelete session path false).run
        (Vcs.executeAlone services) stores).state.session.isSome = true ∧
      ((Vcs.sessionDelete session path false).run
        (Vcs.executeAlone services) stores).state.files = stores.files
    unfold Vcs.sessionDelete
    cases base : Vcs.baseOf stores session with
    | none =>
      rw [base] at read
      rw [run_bind_error read, same]
      exact ⟨rfl, stored, rfl⟩
    | some snapshot =>
      rw [base] at read
      rw [run_bind_ok read, same]
      dsimp only
      by_cases nothing : Vcs.deleteTargets snapshot session.overlay path false = []
      · rw [if_pos nothing]
        exact ⟨rfl, stored, rfl⟩
      · rw [if_neg nothing]
        exact ⟨rfl, rfl, rfl⟩

theorem writeThrough_spares (mount : ExternalMount) (path : Text)
    (body : Option Text) (targets : Targets) :
    (writeThrough mount path body targets).2.stores = targets.stores ∧
      (writeThrough mount path body targets).2.externalMounts = targets.externalMounts := by
  unfold writeThrough
  split
  · exact ⟨rfl, rfl⟩
  · exact ⟨rfl, rfl⟩

/-- What no delivery changes. -/
structure Steady (services : Vcs.SessionServices) (start targets : Targets) : Prop where
  mounts : targets.externalMounts = start.externalMounts
  clock : targets.stores.clock = start.stores.clock
  session : targets.stores.session.isSome = start.stores.session.isSome
  inOrder : InOrder services start.stores.clock targets.stores.files

variable {start targets : Targets}

theorem deliverTo_spec (steady : Steady services start targets)
    (staged : Bool) (path : Text) (body : Option Text) :
    Steady services start (deliverTo services staged path body targets).2 ∧
      ∀ other, isServicePath other = false →
        (deliverTo services staged path body targets).2.contentAt other =
          if other = path ∧ targets.goesToTree staged path = true then body
          else targets.contentAt other := by
  obtain ⟨mounts, clock, session, inOrder⟩ := steady
  unfold deliverTo Targets.goesToTree
  cases bound : targets.stores.session.filter fun _ => staged with
  | some record =>
    have stored : targets.stores.session.isSome = true := by
      rw [(Option.filter_eq_some_iff.mp bound).1]
      rfl
    obtain ⟨sameClock, hasSession, sameFiles⟩ :=
      @stage_eq services record path body targets.stores stored
    constructor
    · refine ⟨mounts, sameClock.trans clock, ?_, ?_⟩
      · exact hasSession.trans (stored.symm.trans session)
      · show InOrder services start.stores.clock
          (stage services record path body targets.stores).files
        rw [sameFiles]
        cases body with
        | none => exact inOrder
        | some content =>
          rw [clock]
          exact inOrder_write inOrder _ content _
    · intro other plain
      have notTree : ¬ (other = path ∧ ((some record).isNone &&
            (externalMountFor targets.externalMounts path).isNone) = true) := by
        intro both
        cases both.2
      rw [if_neg notTree]
      show ((stage services record path body targets.stores).files.latest
        other).map FsRow.content = _
      rw [sameFiles]
      cases body with
      | none => rfl
      | some content =>
        have different : other ≠ Vcs.shadowPath record.id path :=
          (Vcs.shadowPath_ne record.id path plain).symm
        exact congrArg (Option.map FsRow.content)
          (Store.SameAt.write_of_ne targets.stores.files different).latest
  | none =>
    cases routed : externalMountFor targets.externalMounts path with
    | some mount =>
      have notTree : ∀ other, ¬ (other = path ∧
          ((none : Option Vcs.ChatSessionRecord).isNone && (some mount).isNone) = true) := by
        intro other both
        cases both.2
      obtain ⟨stores, others⟩ :=
        writeThrough_spares mount path body targets
      constructor
      · refine ⟨others.trans mounts, ?_, ?_, ?_⟩
        · exact (congrArg (·.clock) stores).trans clock
        · exact (congrArg (·.session.isSome) stores).trans session
        · show InOrder services start.stores.clock
            (writeThrough mount path body targets).2.stores.files
          rw [stores]
          exact inOrder
      · intro other plain
        rw [if_neg (notTree other)]
        show (((writeThrough mount path body targets).2.stores.files).latest
          other).map FsRow.content = _
        rw [stores]
        rfl
    | none =>
      constructor
      · refine ⟨mounts, clock, session, ?_⟩
        rw [← clock]
        rw [← clock] at inOrder
        exact inOrder_writeTree inOrder path body
      · intro other plain
        show ((writeTree services targets.stores.clock path body
          targets.stores.files).latest other).map FsRow.content = _
        by_cases same : other = path
        · rw [if_pos ⟨same, rfl⟩, same]
          cases body with
          | none =>
            exact congrArg (Option.map FsRow.content)
              (Store.latest_remove_self targets.stores.files path)
          | some content =>
            have older : ∀ row ∈ targets.stores.files.rows, row.path = path →
                  row.updatedAt ≤ targets.stores.clock := by
              intro row member _
              rw [clock]
              exact (inOrder row member).2
            exact congrArg (Option.map FsRow.content) (Store.latest_write_self older)
        · rw [if_neg fun both => same both.1]
          cases body with
          | none =>
            exact congrArg (Option.map FsRow.content)
              (Store.SameAt.remove_of_ne targets.stores.files same).latest
          | some content =>
            exact congrArg (Option.map FsRow.content)
              (Store.SameAt.write_of_ne targets.stores.files same).latest

theorem goesToTree_of_steady (steady : Steady services start targets)
    (staged : Bool) (path : Text) :
    targets.goesToTree staged path = start.goesToTree staged path := by
  have bound : (targets.stores.session.filter fun _ => staged).isNone =
      (start.stores.session.filter fun _ => staged).isNone := by
    have session := steady.session
    cases staged <;> cases first : targets.stores.session <;>
      cases second : start.stores.session <;> simp_all
  rw [Targets.goesToTree, Targets.goesToTree, bound, steady.mounts]

/-- A delivery is refused where the place takes no writes. -/
theorem isOk_deliverTo (staged : Bool) (path : Text) (body : Option Text) :
    (deliverTo services staged path body targets).1.isOk = targets.accepts staged path := by
  unfold deliverTo Targets.accepts
  cases targets.stores.session.filter fun _ => staged with
  | some record => rfl
  | none =>
    cases externalMountFor targets.externalMounts path with
    | none => rfl
    | some mount =>
      show (writeThrough mount path body targets).1.isOk = (assertWritableMount mount).isOk
      unfold writeThrough
      split
      · next refused =>
          rw [refused]
      · next passes =>
          rw [passes]

end

/-- A file in the sandbox; a body that is no text comes in base64. -/
structure FileBody where
  content : Text
  base64 : Bool
  deriving DecidableEq

/-- The digests; `binaryDigest` is the one of the bytes that a base64 text
encodes. -/
structure MountServices extends Vcs.SessionServices where
  binaryDigest : Text → Text

def MountServices.digest (services : MountServices) (body : FileBody) : Text :=
  if body.base64 then services.binaryDigest body.content else services.sha256 body.content

/-- A sandbox with one mount, whose files are in `box` under their paths
below the mount.  The code keeps no trace of the last two fields: the value
of each path that the sandbox last saw or committed, and what the tree held
when a commit last landed the path. -/
structure MountWorld where
  targets : Targets
  sessionId : Option Text
  workdir : Text
  mount : SandboxMount
  box : Table FileBody
  known : Text → Option FileBody
  held : Text → Option (Option FileBody)

namespace MountWorld

variable (services : MountServices) (world : MountWorld)

def source : Text :=
  world.mount.workspaceSource.getD []

def files : Store :=
  world.targets.stores.files

/-- The path of a file below the mount, in the workspace. -/
def pathOf (rel : Text) : Text :=
  workspacePathFor world.source rel

/-- What the file tree holds for a path below the mount. -/
def tree (rel : Text) : Option FileBody :=
  (world.files.latest (world.pathOf rel)).map fun row => ⟨row.content, false⟩

/-- The draft that the sandbox is bound to, if it is; it must be a staged
one. -/
def resolveSession : Outcome (Option Vcs.ChatSessionRecord) :=
  match world.sessionId.filter (· ≠ []) with
  | none => .ok none
  | some id =>
    match world.targets.stores.session.filter (·.id = id) with
    | none => .error (unknownSession id)
    | some session =>
      if session.mode = .staged then .ok (some session) else .error (autoSession id)

def isBound : Bool :=
  (world.sessionId.filter (· ≠ [])).isSome

def noSuchFile (path : Text) : ServiceError where
  message := "ENOENT: ".toList ++ path
  status := 500

def host : Driver where
  workdir := world.workdir
  writeFile _ _ := .ok ()
  readFile path :=
    match world.box.rows.find? fun row => sandboxPathFor world.mount row.1 = path with
    | none => .error (noSuchFile path)
    | some row => .ok (some ⟨some row.2.content, row.2.base64⟩)
  listFiles _ :=
    .ok (world.box.rows.map fun row => (sandboxPathFor world.mount row.1, services.digest row.2))
  cloneRepo _ := .ok []
  deliver path body :=
    (deliverTo services.toSessionServices world.isBound path body world.targets).1

/-- The body that a commit brings back for a path: of the file, if it is
there, and none for a removal. -/
def bodyAt (path : Text) : Option Text :=
  textBody ((world.box.get (relativeTo world.source path)).map fun body =>
    ⟨some body.content, body.base64⟩)

def deliverAccess (targets : Targets) : Access → Targets
  | .write path =>
    (deliverTo services.toSessionServices world.isBound path (world.bodyAt path) targets).2
  | _ => targets

def landed (trace : List Access) (path : Text) : Bool :=
  decide (.write path ∈ trace) && (deliverTo services.toSessionServices world.isBound path
      (world.bodyAt path) world.targets).1.isOk

def afterDeliveries (trace : List Access) : MountWorld :=
  let delivered := { world with
      targets :=
        trace.foldl (world.deliverAccess services) world.targets }
  { delivered with
    known := fun rel =>
      if world.landed services trace (world.pathOf rel) then world.box.get rel
      else world.known rel
    held := fun rel =>
      if world.landed services trace (world.pathOf rel) then some (delivered.tree rel)
      else world.held rel }

/-- `sandboxes.commit` on the mount: what the call answers, and the world
after it.  A commit that throws keeps the recorded base. -/
def commit (grants : Option CapabilityGrants) : Outcome MountCommitResult × MountWorld :=
  match world.resolveSession with
  | .error thrown => (.error thrown, world)
  | .ok _ =>
    let done :=
      commitMount grants world.files (world.host services) world.mount
    let after := world.afterDeliveries services done.trace
    match done.outcome with
    | .error thrown => (.error thrown, after)
    | .ok (mount, result) => (.ok result, { after with mount := mount })

variable {services world}

theorem deliverAccess_spec {targets : Targets}
    (steady : Steady services.toSessionServices world.targets targets) (access : Access) :
    Steady services.toSessionServices world.targets (world.deliverAccess services targets access) ∧
      ∀ other, isServicePath other = false →
        (world.deliverAccess services targets access).contentAt other =
          if access = .write other ∧ world.targets.goesToTree world.isBound other = true then
            world.bodyAt other
          else
            targets.contentAt other := by
  cases access with
  | write path =>
    obtain ⟨stays, writes⟩ :=
      deliverTo_spec steady world.isBound path (world.bodyAt path)
    refine ⟨stays, ?_⟩
    intro other plain
    have own := writes other plain
    rw [goesToTree_of_steady steady] at own
    refine own.trans ?_
    by_cases same : other = path
    · rw [same]
      simp
    · have different : Access.write path ≠ .write other := by
        intro equal
        cases equal
        exact same rfl
      rw [if_neg fun both => same both.1, if_neg fun both => different both.1]
  | read path =>
    refine ⟨steady, ?_⟩
    intro other _
    rw [if_neg fun both => by cases both.1]
    rfl
  | tool name procedure =>
    refine ⟨steady, ?_⟩
    intro other _
    rw [if_neg fun both => by cases both.1]
    rfl

theorem contentAt_foldl (trace : List Access) {targets : Targets}
    (steady : Steady services.toSessionServices world.targets targets) :
    Steady services.toSessionServices world.targets
        (trace.foldl (world.deliverAccess services) targets) ∧
      ∀ other, isServicePath other = false →
        (trace.foldl (world.deliverAccess services) targets).contentAt other =
          if .write other ∈ trace ∧ world.targets.goesToTree world.isBound other = true then
            world.bodyAt other
          else
            targets.contentAt other := by
  induction trace generalizing targets with
  | nil =>
    refine ⟨steady, ?_⟩
    intro other _
    rw [if_neg fun both => List.not_mem_nil both.1]
    rfl
  | cons access rest ih =>
    obtain ⟨stays, writes⟩ := deliverAccess_spec steady access
    obtain ⟨steadyAfter, contents⟩ := ih stays
    refine ⟨steadyAfter, ?_⟩
    intro other plain
    rw [List.foldl_cons, contents other plain, writes other plain]
    by_cases later : Access.write other ∈ rest
    · by_cases goes : world.targets.goesToTree world.isBound other = true
      · simp [later, goes]
      · simp [goes]
    · by_cases first : access = .write other
      · simp [first, later]
      · simp [first, later, Ne.symm first]

end MountWorld

end Aprovan.Sandboxes
