import Aprovan.Vfs.Context

/-!
# Deleting files

`vfs.delete` and `DELETE /fs/*path`, without a session, check the guards at the
one path they are given and then, when recursive, remove whatever the store's
subtree statement selects.
-/

namespace Aprovan.Vfs

open Aprovan.Library Aprovan.Server Aprovan.Fs Aprovan.Grants Aprovan.Apps

/-- The store after a deletion at `path`, and whether it removed anything. -/
def deleteAt (store : Store) (path : Text) (recursive : Bool) : Bool × Store :=
  if recursive then
    let removal := store.removePrefix path
    (0 < removal.1, removal.2)
  else store.remove path

/-- The deleted path and the files left, or that nothing was there. -/
def finishDelete (store : Store) (path : Text) (recursive : Bool) (missing : ServiceError) :
    Outcome (Text × Store) :=
  if (deleteAt store path recursive).1 then .ok (path, (deleteAt store path recursive).2)
  else .error missing

def vfsDelete (ctx : ServiceContext) (workspace : Workspace) (value : Option Text)
    (recursive : Bool) : Outcome (Text × Store) := do
  let path ← mutationPath ctx workspace value
  finishDelete workspace.store path recursive (notFound path)

def invalidPath : ServiceError where
  message := "Invalid path".toList
  status := 400

def routeNotFound : ServiceError where
  message := "Not found".toList
  status := 404

/-- The path checks of the HTTP plane: normal form, service state, and a
foreign partition answered as not found. -/
def routePath (sub raw : Text) : Outcome Text :=
  match normalizeFsPath raw with
  | none => .error invalidPath
  | some path =>
    if isServicePath path then .error serviceStateRefused
    else if partitionAccess path sub = .foreign then .error routeNotFound
    else .ok path

/-- `DELETE /fs/*path[?recursive=1]`. -/
def deleteRoute (sub : Text) (workspace : Workspace) (raw : Text) (recursive : Bool) :
    Outcome (Text × Store) := do
  let path ← routePath sub raw
  let _ ← assertNotMounted workspace.mounts path
  finishDelete workspace.store path recursive routeNotFound

theorem deleteAt_recursive (store : Store) (path : Text) :
    deleteAt store path true = (decide (0 < (store.removePrefix path).1),
        (store.removePrefix path).2) :=
  rfl

variable {path file : Text}

theorem deleteAt_of_clears {store : Store} (stored : file ∈ store.paths)
    (cleared : Store.clears store.backend path file = true) :
    (deleteAt store path true).1 = true := by
  rw [deleteAt_recursive, decide_eq_true_eq, Store.removePrefix_pos_iff]
  exact ⟨file, stored, cleared⟩

variable {recursive : Bool}

theorem finishDelete_eq_ok_iff {store after : Store} {named : Text} {missing : ServiceError} :
    finishDelete store named recursive missing = .ok (path, after) ↔
      named = path ∧ (deleteAt store named recursive).1 = true ∧
        (deleteAt store named recursive).2 = after := by
  unfold finishDelete
  by_cases hit : (deleteAt store named recursive).1 = true
  · rw [if_pos hit, Except.ok.injEq, Prod.mk.injEq]
    constructor
    · rintro ⟨rfl, rest⟩
      exact ⟨rfl, hit, rest⟩
    · rintro ⟨rfl, _, rest⟩
      exact ⟨rfl, rest⟩
  · rw [if_neg hit]
    constructor
    · intro impossible
      cases impossible
    · rintro ⟨_, removed, _⟩
      exact absurd removed hit

variable {ctx : ServiceContext} {workspace : Workspace} {value : Option Text}

theorem vfsDelete_eq_ok_iff {after : Store} :
    vfsDelete ctx workspace value recursive = .ok (path, after) ↔
      mutationPath ctx workspace value = .ok path ∧
        (deleteAt workspace.store path recursive).1 = true ∧
        (deleteAt workspace.store path recursive).2 = after := by
  rw [vfsDelete, bind_eq_ok_iff]
  constructor
  · rintro ⟨named, passes, removed⟩
    obtain ⟨rfl, rest⟩ := finishDelete_eq_ok_iff.mp removed
    exact ⟨passes, rest⟩
  · rintro ⟨passes, rest⟩
    exact ⟨path, passes, finishDelete_eq_ok_iff.mpr ⟨rfl, rest⟩⟩

variable {sub : Text}

theorem routePath_eq_ok_iff {raw : Text} :
    routePath sub raw = .ok path ↔ normalizeFsPath raw = some path ∧ isServicePath path = false ∧
        partitionAccess path sub ≠ .foreign := by
  unfold routePath
  cases normalizeFsPath raw with
  | none => simp
  | some normal =>
    by_cases service : isServicePath normal = true
    · simp only [if_pos service, Option.some.injEq]
      constructor
      · intro impossible
        cases impossible
      · rintro ⟨rfl, notService, _⟩
        rw [service] at notService
        cases notService
    · by_cases foreign : partitionAccess normal sub = .foreign
      · simp only [if_neg service, if_pos foreign, Option.some.injEq]
        constructor
        · intro impossible
          cases impossible
        · rintro ⟨rfl, _, notForeign⟩
          exact absurd foreign notForeign
      · simp only [if_neg service, if_neg foreign, Option.some.injEq, Except.ok.injEq]
        constructor
        · rintro rfl
          exact ⟨rfl, by simpa using service, foreign⟩
        · exact And.left

theorem deleteRoute_eq_ok_iff {raw : Text} {after : Store} :
    deleteRoute sub workspace raw recursive = .ok (path, after) ↔ routePath sub raw = .ok path ∧
        mountFor workspace.mounts path = none ∧
        (deleteAt workspace.store path recursive).1 = true ∧
        (deleteAt workspace.store path recursive).2 = after := by
  rw [deleteRoute]
  simp only [bind_eq_ok_iff]
  constructor
  · rintro ⟨named, passes, _, mounted, removed⟩
    obtain ⟨rfl, rest⟩ := finishDelete_eq_ok_iff.mp removed
    exact ⟨passes, assertNotMounted_eq_ok_iff.mp mounted, rest⟩
  · rintro ⟨passes, mounted, rest⟩
    exact ⟨path, passes, (), assertNotMounted_eq_ok_iff.mpr mounted,
      finishDelete_eq_ok_iff.mpr ⟨rfl, rest⟩⟩

theorem removed_iff {store : Store} :
    (file ∈ store.paths ∧ file ∉ (deleteAt store path true).2.paths) ↔
      file ∈ store.paths ∧ Store.clears store.backend path file = true := by
  rw [deleteAt_recursive]
  simp only [Store.mem_paths_removePrefix, not_and, Bool.not_eq_false]
  constructor
  · rintro ⟨stored, cleared⟩
    exact ⟨stored, cleared stored⟩
  · rintro ⟨stored, cleared⟩
    exact ⟨stored, fun _ => cleared⟩

/-- A stored file is deleted singly exactly when the guards let the caller
mutate it. -/
theorem deletable_iff (stored : file ∈ workspace.store.paths) :
    (∃ value after, vfsDelete ctx workspace value false = .ok (file, after)) ↔
      Mutable ctx workspace file := by
  constructor
  · rintro ⟨value, after, deleted⟩
    exact ⟨value, (vfsDelete_eq_ok_iff.mp deleted).1⟩
  · rintro ⟨value, passes⟩
    refine ⟨value, _, vfsDelete_eq_ok_iff.mpr ⟨passes, ?_, rfl⟩⟩
    simpa [deleteAt, Store.remove] using stored

theorem routeDeletable_iff (stored : file ∈ workspace.store.paths) :
    (∃ raw after, deleteRoute sub workspace raw false = .ok (file, after)) ↔
      isFilePath file = true ∧ partitionAccess file sub ≠ .foreign ∧
        mountFor workspace.mounts file = none := by
  constructor
  · rintro ⟨raw, after, deleted⟩
    obtain ⟨passes, mounted, _⟩ := deleteRoute_eq_ok_iff.mp deleted
    obtain ⟨normal, notService, notForeign⟩ :=
      routePath_eq_ok_iff.mp passes
    refine ⟨?_, notForeign, mounted⟩
    simp [isFilePath, normalizeFsPath_idempotent normal, notService]
  · rintro ⟨named, notForeign, mounted⟩
    rw [isFilePath, Bool.and_eq_true, decide_eq_true_eq, Bool.not_eq_true'] at named
    refine ⟨file, _, deleteRoute_eq_ok_iff.mpr
      ⟨routePath_eq_ok_iff.mpr ⟨named.1, named.2, notForeign⟩, mounted, ?_, rfl⟩⟩
    simpa [deleteAt, Store.remove] using stored

def RemovesOnlyDeletable (ctx : ServiceContext) (workspace : Workspace) (value : Option Text) :
    Prop :=
  ∀ path after, vfsDelete ctx workspace value true = .ok (path, after) →
    ∀ file ∈ workspace.store.paths, file ∉ after.paths → ∃ single rest,
        vfsDelete ctx workspace single false = .ok (file, rest)

/-- The caller takes part in the shared instance that holds the file, when
one does. -/
def TakesPart (sub : Text) (records : AccessRecords) (file : Text) : Prop :=
  partitionAccess file sub = .shared → assertPartitionAccess records sub file = .ok ()

/-- The law of the HTTP plane: every file removed could have been deleted
singly, and none is of a shared instance closed to the caller. -/
def RouteRemovesOnlyDeletable (sub : Text) (workspace : Workspace) (raw : Text) : Prop :=
  ∀ path after, deleteRoute sub workspace raw true = .ok (path, after) →
    ∀ file ∈ workspace.store.paths, file ∉ after.paths → (∃ single rest,
        deleteRoute sub workspace single false = .ok (file, rest)) ∧
      TakesPart sub workspace.records file

/-- The file lies in the partition that the guard has already checked. -/
def InCheckedPartition (sub path file : Text) : Prop :=
  partitionAccess path sub ≠ .openAccess ∧ underPath file path = true

/-- What has to be checked of the files that the subtree statement selects
at `path`, beyond what the guards checked at `path` itself. -/
structure SubtreeChecked (ctx : ServiceContext) (workspace : Workspace) (path : Text) : Prop where
  addressable : ∀ file ∈ workspace.store.paths,
    Store.clears workspace.store.backend path file = true →
      Addressable ctx workspace.shares file true
  granted : ∀ file ∈ workspace.store.paths, Store.clears workspace.store.backend path file = true →
      pathAllowed ctx.grants file true = true
  partition : ctx.appScope = none → ∀ file ∈ workspace.store.paths,
    Store.clears workspace.store.backend path file = true →
      InCheckedPartition ctx.userId path file ∨
        assertPartitionAccess workspace.records ctx.userId file = .ok ()
  unmounted : ∀ file ∈ workspace.store.paths,
    Store.clears workspace.store.backend path file = true → mountFor workspace.mounts file = none

/-- The same for the HTTP plane, which never opens a foreign partition and
does not ask for the instance of a shared one. -/
structure RouteSubtreeChecked (sub : Text) (workspace : Workspace) (path : Text) : Prop where
  named : ∀ file ∈ workspace.store.paths, Store.clears workspace.store.backend path file = true →
      isFilePath file = true
  partition : ∀ file ∈ workspace.store.paths,
    Store.clears workspace.store.backend path file = true →
      (partitionAccess path sub = .own ∧ underPath file path = true) ∨
        (partitionAccess file sub ≠ .foreign ∧ TakesPart sub workspace.records file)
  unmounted : ∀ file ∈ workspace.store.paths,
    Store.clears workspace.store.backend path file = true → mountFor workspace.mounts file = none

theorem guard_of_inCheckedPartition (workspaceCaller : ctx.appScope = none)
    (checkedPath : partitionGuard ctx workspace.records path = .ok ())
    (pathNamed : isFilePath path = true) (fileNamed : isFilePath file = true)
    (inside : InCheckedPartition ctx.userId path file) :
    assertPartitionAccess workspace.records ctx.userId file = .ok () := by
  rw [partitionGuard, workspaceCaller] at checkedPath
  simp only [isFilePath, Bool.and_eq_true, decide_eq_true_eq] at pathNamed fileNamed
  exact assertPartitionAccess_below inside.1 inside.2 pathNamed.1 fileNamed.1 checkedPath

private theorem mutable_of_subtreeChecked (passes : mutationPath ctx workspace value = .ok path)
    (checked : SubtreeChecked ctx workspace path) (stored : file ∈ workspace.store.paths)
    (cleared : Store.clears workspace.store.backend path file = true) :
    Mutable ctx workspace file := by
  obtain ⟨resolved, _, guarded, _⟩ := mutationPath_eq_ok_iff.mp passes
  have nameable := checked.addressable file stored cleared
  refine mutable_iff.mpr ⟨nameable, checked.granted file stored cleared,
    ?_, checked.unmounted file stored cleared⟩
  cases scope : ctx.appScope with
  | some app => rw [partitionGuard, scope]
  | none =>
    rw [partitionGuard, scope]
    rcases checked.partition scope file stored cleared with
      inside | passesFile
    · exact guard_of_inCheckedPartition scope guarded (isFilePath_of_resolveVfsPath resolved)
        ((addressable_workspace_iff scope).mp nameable) inside
    · exact passesFile

private theorem subtreeChecked_of_mutable
    {ctx : ServiceContext} {workspace : Workspace} {path : Text}
    (deletable : ∀ file ∈ workspace.store.paths,
      Store.clears workspace.store.backend path file = true → Mutable ctx workspace file) :
    SubtreeChecked ctx workspace path where
  addressable file stored cleared :=
    (mutable_iff.mp (deletable file stored cleared)).1
  granted file stored cleared :=
    (mutable_iff.mp (deletable file stored cleared)).2.1
  partition workspaceCaller file stored cleared := by
    have guarded := (mutable_iff.mp (deletable file stored cleared)).2.2.1
    rw [partitionGuard, workspaceCaller] at guarded
    exact Or.inr guarded
  unmounted file stored cleared :=
    (mutable_iff.mp (deletable file stored cleared)).2.2.2

/-- A recursive deletion that gets past the guards removes only deletable
files exactly when the selected subtree is checked. -/
theorem removesOnlyDeletable_iff :
    RemovesOnlyDeletable ctx workspace value ↔
      ∀ path, mutationPath ctx workspace value = .ok path → SubtreeChecked ctx workspace path := by
  constructor
  · intro law path passes
    apply subtreeChecked_of_mutable
    intro file stored cleared
    have removedSome := deleteAt_of_clears stored cleared
    have gone := (removed_iff.mpr ⟨stored, cleared⟩).2
    have single := law path _ (vfsDelete_eq_ok_iff.mpr ⟨passes, removedSome, rfl⟩) file stored gone
    exact (deletable_iff stored).mp single
  · intro checked path after deleted file stored gone
    obtain ⟨passes, _, rfl⟩ := vfsDelete_eq_ok_iff.mp deleted
    have cleared := (removed_iff.mp ⟨stored, gone⟩).2
    exact (deletable_iff stored).mpr
      (mutable_of_subtreeChecked passes (checked path passes) stored cleared)

private theorem takesPart_of_own {records : AccessRecords}
    (own : partitionAccess path sub = .own) (under : underPath file path = true) :
    partitionAccess file sub ≠ .foreign ∧ TakesPart sub records file := by
  have same : partitionAccess file sub = .own := by
    rw [partitionAccess_below (by simp [own]) under, own]
  constructor
  · simp [same]
  · intro shared
    rw [same] at shared
    cases shared

theorem routeRemovesOnlyDeletable_iff {sub raw : Text} {workspace : Workspace} :
    RouteRemovesOnlyDeletable sub workspace raw ↔ ∀ path, routePath sub raw = .ok path →
        mountFor workspace.mounts path = none → RouteSubtreeChecked sub workspace path := by
  constructor
  · intro law path passes mounted
    have deletable :
        ∀ file ∈ workspace.store.paths, Store.clears workspace.store.backend path file = true →
            (isFilePath file = true ∧ partitionAccess file sub ≠ .foreign ∧
              mountFor workspace.mounts file = none) ∧
            TakesPart sub workspace.records file := by
      intro file stored cleared
      have removedSome := deleteAt_of_clears stored cleared
      have gone := (removed_iff.mpr ⟨stored, cleared⟩).2
      have single := law path _ (deleteRoute_eq_ok_iff.mpr ⟨passes, mounted, removedSome, rfl⟩)
        file stored gone
      exact ⟨(routeDeletable_iff stored).mp single.1, single.2⟩
    exact {
      named := fun file stored cleared => (deletable file stored cleared).1.1
      partition := fun file stored cleared =>
        Or.inr ⟨(deletable file stored cleared).1.2.1, (deletable file stored cleared).2⟩
      unmounted := fun file stored cleared => (deletable file stored cleared).1.2.2 }
  · intro checked path after deleted file stored gone
    obtain ⟨passes, mounted, _, rfl⟩ := deleteRoute_eq_ok_iff.mp deleted
    have subtree := checked path passes mounted
    have cleared := (removed_iff.mp ⟨stored, gone⟩).2
    have partition :
        partitionAccess file sub ≠ .foreign ∧ TakesPart sub workspace.records file := by
      rcases subtree.partition file stored cleared with own | direct
      · exact takesPart_of_own own.1 own.2
      · exact direct
    refine ⟨(routeDeletable_iff stored).mpr ⟨subtree.named file stored cleared, partition.1,
        subtree.unmounted file stored cleared⟩, partition.2⟩

/-- Recursive deletion, as a service procedure and over HTTP, respects the
guards exactly when the call is refused at its path or the selected subtree
is checked. -/
theorem recursive_delete_guarded_iff (ctx : ServiceContext) (workspace : Workspace)
    (value : Option Text) (sub raw : Text) :
    (RemovesOnlyDeletable ctx workspace value ↔
      ∀ path, mutationPath ctx workspace value = .ok path → SubtreeChecked ctx workspace path) ∧
    (RouteRemovesOnlyDeletable sub workspace raw ↔ ∀ path, routePath sub raw = .ok path →
        mountFor workspace.mounts path = none → RouteSubtreeChecked sub workspace path) :=
  ⟨removesOnlyDeletable_iff, routeRemovesOnlyDeletable_iff⟩

def exampleRow (path : Text) : FsRow where
  path := path
  hash := "h".toList
  content := "text".toList
  mimeType := "text/plain".toList
  size := 4
  updatedAt := 0
  versioned := true

def annsDiary : Text := ".users/ann/diary.txt".toList

def lockedPlan : Text := "docs/locked/plan.md".toList

/-- A workspace with a private file of ann and a document. -/
def annsWorkspace : Workspace where
  store := {
    backend := .sqlite
    rows := [exampleRow annsDiary, exampleRow lockedPlan]
    keys := by decide }
  records := {
    appInstance := fun _ => none
    installHosting := fun _ _ => none
    isMember := fun _ _ => true
    shares := []
    now := 0 }
  shares := []
  mounts := []

def bob : ServiceContext where
  userId := "bob".toList
  appScope := none
  grants := none

/-- Bob's agent may write the documents, the locked ones excepted. -/
def bobsAgent : ServiceContext where
  userId := "bob".toList
  appScope := none
  grants := some {
    tools := none
    paths := some [ { pathPrefix := "docs".toList, access := .rw },
      { pathPrefix := "docs/locked".toList, access := .ro }] }

/-- Bob deletes ann's diary through the container of all partitions, by the
procedure and over HTTP, and his agent a document below its read-only
grant. -/
theorem recursive_delete_not_guarded :
    ¬ RemovesOnlyDeletable bob annsWorkspace (some userSpaceRoot) ∧
      ¬ RouteRemovesOnlyDeletable "bob".toList annsWorkspace userSpaceRoot ∧
      ¬ RemovesOnlyDeletable bobsAgent annsWorkspace (some "docs".toList) := by
  refine ⟨?_, ?_, ?_⟩
  · rw [removesOnlyDeletable_iff]
    intro checked
    have subtree := checked userSpaceRoot (by decide +kernel)
    have guarded := subtree.partition rfl annsDiary (by decide) (by decide +kernel)
    rcases guarded with inside | passes
    · exact absurd inside.1 (by decide +kernel)
    · exact absurd passes (by decide +kernel)
  · rw [routeRemovesOnlyDeletable_iff]
    intro checked
    have subtree := checked userSpaceRoot (by decide +kernel) rfl
    have guarded := subtree.partition annsDiary (by decide) (by decide +kernel)
    rcases guarded with own | direct
    · exact absurd own.1 (by decide +kernel)
    · exact absurd direct.1 (by decide +kernel)
  · rw [removesOnlyDeletable_iff]
    intro checked
    have subtree := checked "docs".toList (by decide +kernel)
    have granted := subtree.granted lockedPlan (by decide) (by decide +kernel)
    exact absurd granted (by decide +kernel)

end Aprovan.Vfs
