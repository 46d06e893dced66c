import Aprovan.Apps.Partition
import Aprovan.Fs.Store
import Aprovan.Grants.Capability

/-!
# The caller of a file procedure

Who calls (a workspace member, or an app session confined to its app's
root), how a path argument is resolved for the caller, and what of the
workspace the file procedures consult.
-/

namespace Aprovan.Vfs

open Aprovan.Library Aprovan.Server Aprovan.Fs Aprovan.Grants Aprovan.Apps

/-- The path binding of a published app. -/
structure AppPaths where
  (id name : Text)
  root : Option Text
  paths : List Text

/-- The context of a service call.  An app session carries its scope; an
agent-bounded call carries grants. -/
structure ServiceContext where
  userId : Text
  appScope : Option AppPaths
  grants : Option CapabilityGrants

/-- A path shared with apps; `apps` is absent for `"*"`. -/
structure WorkspaceShare where
  pathPrefix : Text
  apps : Option (List Text)
  readwrite : Bool

inductive MountType where
  | git
  | s3
  deriving DecidableEq

def MountType.label : MountType → Text
  | .git => "git".toList
  | .s3 => "s3".toList

structure VfsMount where
  pathPrefix : Text
  type : MountType
  deriving DecidableEq

/-- A workspace as the file procedures see it: its files, the records of
the partition guard, the shares with apps and the mounts. -/
structure Workspace where
  store : Store
  records : AccessRecords
  shares : List WorkspaceShare
  mounts : List VfsMount

/-- `app.root ?? app.paths?.[0]`. -/
def AppPaths.declaredRoot (app : AppPaths) : Option Text :=
  app.root <|> app.paths.head?

def noPublishedRoot (app : AppPaths) : ServiceError where
  message :=
    "App ".toList ++ app.name ++ " has no published root".toList
  status := 400

/-- The app's primary authored-source prefix. -/
def appRoot (app : AppPaths) : Outcome Text :=
  match app.declaredRoot with
  | none => .error (noPublishedRoot app)
  | some root =>
    if root = [] then .error (noPublishedRoot app) else .ok root

def resolveAppPath (app : AppPaths) (relative : Text) : Outcome Text := do
  let root ← appRoot app
  workspacePath (some (root ++ '/' :: relative)) "path".toList

/-- Does `path` belong to this app? -/
def appPathAllowed (app : AppPaths) (path : Text) : Bool :=
  match app.declaredRoot with
  | none => false
  | some root => root ≠ [] && underPath path root

/-- Is `path` shared with the app at the requested access level? -/
def shareAllows (shares : List WorkspaceShare) (appId path : Text) (write : Bool) : Bool :=
  shares.any fun share =>
    underPath path (trimSlashes share.pathPrefix) && (match share.apps with
        | none => true
        | some apps => appId ∈ apps) &&
      (!write || share.readwrite)

def appFsAllowed (app : AppPaths) (shares : List WorkspaceShare) (path : Text) (write : Bool) :
    Bool :=
  appPathAllowed app path || shareAllows shares app.id path write

def notAnAppFilePath : ServiceError where
  message := "path must be a file path".toList
  status := 400

def notSharedWithApp (path : Text) : ServiceError where
  message := "Path not shared with this app: ~/".toList ++ path
  status := 403

/-- Resolve a path argument for the caller.  Workspace callers address the
whole workspace; app sessions their root, and through `~/` what is shared
with them. -/
def resolveVfsPath (ctx : ServiceContext) (shares : List WorkspaceShare)
    (value : Option Text) (write : Bool) : Outcome Text :=
  match ctx.appScope with
  | none => fsPath value
  | some scope =>
    match value with
    | none => .error notAnAppFilePath
    | some text =>
      if "~/".toList.isPrefixOf text then do
        let path ← fsPath (some (text.drop 2))
        if appFsAllowed scope shares path write then .ok path
        else .error (notSharedWithApp path)
      else do
        let path ← resolveAppPath scope text
        fsPath (some path)

variable {ctx : ServiceContext} {value : Option Text} {path : Text}

theorem isFilePath_of_resolveVfsPath {shares : List WorkspaceShare} {write : Bool}
    (resolved : resolveVfsPath ctx shares value write = .ok path) :
    isFilePath path = true := by
  unfold resolveVfsPath at resolved
  split at resolved
  · exact isFilePath_of_fsPath resolved
  · split at resolved
    · cases resolved
    · split at resolved
      · rw [bind_eq_ok_iff] at resolved
        obtain ⟨named, found, allowed⟩ := resolved
        split at allowed
        · cases allowed
          exact isFilePath_of_fsPath found
        · cases allowed
      · rw [bind_eq_ok_iff] at resolved
        obtain ⟨named, _, found⟩ := resolved
        exact isFilePath_of_fsPath found

def Addressable (ctx : ServiceContext) (shares : List WorkspaceShare) (path : Text)
    (write : Bool) : Prop :=
  ∃ value, resolveVfsPath ctx shares value write = .ok path

theorem addressable_workspace_iff {shares : List WorkspaceShare} {write : Bool}
    (workspaceCaller : ctx.appScope = none) :
    Addressable ctx shares path write ↔ isFilePath path = true := by
  constructor
  · rintro ⟨value, resolved⟩
    exact isFilePath_of_resolveVfsPath resolved
  · intro named
    refine ⟨some path, ?_⟩
    rw [resolveVfsPath, workspaceCaller]
    exact fsPath_eq_ok_iff_isFilePath.mpr named

/-- The mount covering `path`, if any. -/
def mountFor (mounts : List VfsMount) (path : Text) : Option VfsMount :=
  mounts.find? fun mount => underPath path mount.pathPrefix

def readOnlyMount (mount : VfsMount) : ServiceError where
  message :=
    mount.pathPrefix ++ " is a read-only ".toList ++ mount.type.label ++ " mount".toList
  status := 403

/-- Throw when `path` sits under a mount. -/
def assertNotMounted (mounts : List VfsMount) (path : Text) : Outcome Unit :=
  match mountFor mounts path with
  | none => .ok ()
  | some mount => .error (readOnlyMount mount)

theorem assertNotMounted_eq_ok_iff {mounts : List VfsMount} :
    assertNotMounted mounts path = .ok () ↔ mountFor mounts path = none := by
  unfold assertNotMounted
  cases mountFor mounts path <;> simp

/-- The partition guard, which app sessions skip: their scope confines
them. -/
def partitionGuard (ctx : ServiceContext) (records : AccessRecords) (path : Text) : Outcome Unit :=
  match ctx.appScope with
  | none => assertPartitionAccess records ctx.userId path
  | some _ => .ok ()

/-- What `write` and `delete` check before they touch the store, in order:
the argument, the path grants, the partition, the mounts. -/
def mutationPath (ctx : ServiceContext) (workspace : Workspace) (value : Option Text) :
    Outcome Text := do
  let path ← resolveVfsPath ctx workspace.shares value true
  let _ ← assertPathGranted ctx.grants path true
  let _ ← partitionGuard ctx workspace.records path
  let _ ← assertNotMounted workspace.mounts path
  return path

variable {workspace : Workspace}

theorem mutationPath_eq_ok_iff :
    mutationPath ctx workspace value = .ok path ↔
      resolveVfsPath ctx workspace.shares value true = .ok path ∧
        pathAllowed ctx.grants path true = true ∧
        partitionGuard ctx workspace.records path = .ok () ∧
        mountFor workspace.mounts path = none := by
  rw [mutationPath]
  simp only [bind_eq_ok_iff]
  constructor
  · rintro ⟨named, resolved, _, granted, _, guarded, _, mounted, same⟩
    cases same
    exact ⟨resolved, assertPathGranted_eq_ok_iff.mp granted, guarded,
      assertNotMounted_eq_ok_iff.mp mounted⟩
  · rintro ⟨resolved, granted, guarded, mounted⟩
    exact ⟨path, resolved, (), assertPathGranted_eq_ok_iff.mpr granted,
      (), guarded, (), assertNotMounted_eq_ok_iff.mpr mounted, rfl⟩

/-- A path that its owner's guards let the caller mutate. -/
def Mutable (ctx : ServiceContext) (workspace : Workspace) (path : Text) : Prop :=
  ∃ value, mutationPath ctx workspace value = .ok path

theorem mutable_iff :
    Mutable ctx workspace path ↔ Addressable ctx workspace.shares path true ∧
        pathAllowed ctx.grants path true = true ∧
        partitionGuard ctx workspace.records path = .ok () ∧
        mountFor workspace.mounts path = none := by
  constructor
  · rintro ⟨value, passes⟩
    obtain ⟨resolved, rest⟩ := mutationPath_eq_ok_iff.mp passes
    exact ⟨⟨value, resolved⟩, rest⟩
  · rintro ⟨⟨value, resolved⟩, rest⟩
    exact ⟨value, mutationPath_eq_ok_iff.mpr ⟨resolved, rest⟩⟩

/-- What `read` and `stat` check before they touch the store. -/
def readPath (ctx : ServiceContext) (workspace : Workspace) (value : Option Text) :
    Outcome Text := do
  let path ← resolveVfsPath ctx workspace.shares value false
  let _ ← assertPathGranted ctx.grants path false
  let _ ← partitionGuard ctx workspace.records path
  return path

theorem readPath_eq_ok_iff :
    readPath ctx workspace value = .ok path ↔
      resolveVfsPath ctx workspace.shares value false = .ok path ∧
        pathAllowed ctx.grants path false = true ∧
        partitionGuard ctx workspace.records path = .ok () := by
  rw [readPath]
  simp only [bind_eq_ok_iff]
  constructor
  · rintro ⟨named, resolved, _, granted, _, guarded, same⟩
    cases same
    exact ⟨resolved, assertPathGranted_eq_ok_iff.mp granted, guarded⟩
  · rintro ⟨resolved, granted, guarded⟩
    exact ⟨path, resolved, (), assertPathGranted_eq_ok_iff.mpr granted, (), guarded, rfl⟩

/-- `vfs.read`, without session and commit.  A mounted path is answered by
its mount. -/
def vfsRead (mountRead : VfsMount → Text → Option FsRow) (ctx : ServiceContext)
    (workspace : Workspace) (value : Option Text) (hash : Option Text) :
    Outcome FsRow := do
  let path ← readPath ctx workspace value
  let found :=
    match ctx.appScope, mountFor workspace.mounts path with
    | none, some mount => mountRead mount path
    | _, _ => workspace.store.read path hash
  match found with
  | none => .error (notFound path)
  | some file => .ok file

/-- The stored file at `path` can be read by the caller: some argument gets
past the guards, and no mount hides the file. -/
def Readable (ctx : ServiceContext) (workspace : Workspace) (path : Text) : Prop :=
  (∃ value, readPath ctx workspace value = .ok path) ∧
    (ctx.appScope = none → mountFor workspace.mounts path = none)

theorem readable_iff :
    Readable ctx workspace path ↔ Addressable ctx workspace.shares path false ∧
        pathAllowed ctx.grants path false = true ∧
        partitionGuard ctx workspace.records path = .ok () ∧
        (ctx.appScope = none → mountFor workspace.mounts path = none) := by
  constructor
  · rintro ⟨⟨value, passes⟩, unmounted⟩
    obtain ⟨resolved, granted, guarded⟩ := readPath_eq_ok_iff.mp passes
    exact ⟨⟨value, resolved⟩, granted, guarded, unmounted⟩
  · rintro ⟨⟨value, resolved⟩, granted, guarded, unmounted⟩
    exact ⟨⟨value, readPath_eq_ok_iff.mpr ⟨resolved, granted, guarded⟩⟩, unmounted⟩

theorem pathAllowed_read_of_write {grants : Option CapabilityGrants}
    (writable : pathAllowed grants path true = true) :
    pathAllowed grants path false = true := by
  unfold pathAllowed at writable ⊢
  split
  · rfl
  · next paths bounded =>
      rw [bounded] at writable
      simp only at writable
      cases access : pathAccess paths path with
      | none => simp [access] at writable
      | ro => rfl
      | rw => rfl

theorem readable_of_mutable (workspaceCaller : ctx.appScope = none)
    (mayMutate : Mutable ctx workspace path) :
    Readable ctx workspace path := by
  obtain ⟨nameable, granted, guarded, unmounted⟩ :=
    mutable_iff.mp mayMutate
  refine readable_iff.mpr ⟨?_, pathAllowed_read_of_write granted, guarded,
    fun _ => unmounted⟩
  rw [addressable_workspace_iff workspaceCaller] at nameable ⊢
  exact nameable

end Aprovan.Vfs
