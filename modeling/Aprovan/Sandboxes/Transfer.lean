import Aprovan.Grants.Reach
import Aprovan.Library.Traced
import Aprovan.Sandboxes.Mounts
import Aprovan.Vcs.History

/-!
# Files into a sandbox and back

Materializing a mount reads the files below its source and writes them into the
sandbox; a commit compares what the sandbox was given with what it holds.  What
happens outside of the workspace is a `Driver`: the answers of the sandbox's
host, and whether a routed write goes through.
-/

namespace Aprovan.Sandboxes

open Aprovan.Library Aprovan.Server Aprovan.Fs Aprovan.Grants Aprovan.Vcs

/-- A file service call and the workspace paths that it opens. -/
abbrev Tracing (Value : Type) :=
  Traced Access ServiceError Value

/-- The body of a file inside a sandbox. -/
structure DriverFile where
  content : Option Text
  base64 : Bool

/-- One sandbox as its host answers for it during a call. -/
structure Driver where
  workdir : Text
  writeFile : Text → Text → Outcome Unit
  readFile : Text → Outcome (Option DriverFile)
  listFiles : Text → Outcome (List (Text × Text))
  cloneRepo : SandboxMount → Outcome (List (Text × Text))
  deliver : Text → Option Text → Outcome Unit

def maxFileBytes : Nat := 2000000

def maxMountFiles : Nat := 5000

def setKey (table : List (Text × Text)) (entry : Text × Text) : List (Text × Text) :=
  if table.any (·.1 = entry.1) then table.map fun row => if row.1 = entry.1 then entry else row
  else table ++ [entry]

def manifestOf (entries : List (Text × Text)) : List (Text × Text) :=
  entries.foldl setKey []

/-- `<mount.source>/<rel>`. -/
def workspacePathFor (source rel : Text) : Text :=
  source ++ '/' :: rel

/-- `<mount.path>/<rel>`. -/
def sandboxPathFor (mount : SandboxMount) (rel : Text) : Text :=
  mount.path ++ '/' :: rel

/-- The part of a listed path below the source of a mount. -/
def relativeTo (source path : Text) : Text :=
  if path = source then [] else path.drop (source.length + 1)

variable (store : Store)

/-- The files below a mount's source, right now. -/
def workspaceManifest (source : Text) : List (Text × Text) :=
  manifestOf (((visibleEntries store source).map fun entry =>
      (relativeTo source entry.path, entry.hash)).filter (·.1 ≠ []))

/-- `path.replace(/^\.\//u, "").replace(/^\/+/u, "")`, after a backslash
counts as a slash and the working directory is cut off. -/
def listedPath (workdir raw : Text) : Text :=
  let slashed := raw.map fun letter =>
    if letter.toNat = 92 then '/' else letter
  let root := stripTrailingSlashes workdir ++ ['/']
  let inside :=
    if root.isPrefixOf slashed then slashed.drop root.length else slashed
  let plain :=
    if "./".toList.isPrefixOf inside then inside.drop 2 else inside
  plain.dropWhile (· = '/')

/-- Normalize a driver-reported path to mount-relative. -/
def mountRelative (mount : SandboxMount) (workdir raw : Text) : Option Text :=
  let path := listedPath workdir raw
  if path = mount.path then none
  else
    let rel :=
      if (mount.path ++ ['/']).isPrefixOf path then path.drop (mount.path.length + 1)
      else path
    if rel = [] ||
        (splitOn '/' rel).any (fun segment => segment = ['.'] || segment = ['.', '.']) then
      none
    else some rel

/-- What the sandbox holds under a mount, from the host's listing. -/
def manifestOfListing (driver : Driver) (mount : SandboxMount) (listing : List (Text × Text)) :
    List (Text × Text) :=
  manifestOf (listing.filterMap fun entry =>
      (mountRelative mount driver.workdir entry.1).map (·, entry.2))

structure MountDiff where
  (added modified removed : List Text)

def diffManifests (base live : List (Text × Text)) : MountDiff where
  added := sortTexts ((live.filter fun entry => (base.lookup entry.1).isNone).map (·.1))
  modified := sortTexts
    ((live.filter fun entry =>
      (base.lookup entry.1).isSome && base.lookup entry.1 ≠ some entry.2).map (·.1))
  removed := sortTexts
    ((base.filter fun entry => (live.lookup entry.1).isNone).map (·.1))

def notAWorkspaceMount (mount : SandboxMount) : ServiceError where
  message := "Mount ".toList ++ mount.path ++ " is repo-backed — not a workspace mount".toList
  status := 500

def tooManyFiles (source : Text) (count : Nat) : ServiceError where
  message := source ++ " has ".toList ++ (toString count).toList ++
    " files — a sandbox mount is capped at 5000. ".toList ++
    "Mount a narrower prefix.".toList
  status := 400

def fileTooLarge (path : Text) (size : Nat) : ServiceError where
  message := path ++ " is ".toList ++ (toString size).toList ++
    " bytes — over the 2000000-byte sandbox file limit".toList
  status := 413

def handOver (driver : Driver) (mount : SandboxMount) (source : Text)
    (base : List (Text × Text)) (entry : Text × Text) :
    Tracing (List (Text × Text)) := do
  let path := workspacePathFor source entry.1
  Traced.report (.read path)
  match store.read path none with
  | none => return base
  | some file =>
    if maxFileBytes < file.size then Traced.raise (fileTooLarge path file.size)
    else do
      Traced.check (driver.writeFile (sandboxPathFor mount entry.1) file.content)
      return setKey base (entry.1, file.hash)

/-- Write a mount's workspace content into the sandbox. -/
def materializeMount (driver : Driver) (mount : SandboxMount) : Tracing SandboxMount :=
  if mount.kind = .repo then Traced.raise (notAWorkspaceMount mount)
  else
    match mount.workspaceSource with
    | none => return { mount with base := [] }
    | some source =>
      let manifest := workspaceManifest store source
      if maxMountFiles < manifest.length then Traced.raise (tooManyFiles source manifest.length)
      else do
        let base ←
          manifest.foldlM (handOver store driver mount source) []
        return { mount with base := base }

/-- Route one mount to its materializer; a repository is cloned on the
host. -/
def materializeAnyMount (driver : Driver) (mount : SandboxMount) : Tracing SandboxMount :=
  if mount.kind = .repo then do
    let base ← Traced.check (driver.cloneRepo mount)
    return { mount with base := base }
  else materializeMount store driver mount

def materializeAll (driver : Driver) (mounts : List SandboxMount) : Tracing (List SandboxMount) :=
  mounts.foldlM (fun done mount => do
    let mount ← materializeAnyMount store driver mount
    return done ++ [mount]) []

structure MountCommitResult where
  (written removed conflicts skipped : List Text)

/-- What a commit compares: the files as given, as they are in the sandbox,
and as they are in the workspace. -/
structure Comparison where
  base : List (Text × Text)
  live : List (Text × Text)
  current : List (Text × Text)

/-- The workspace changed the path since the sandbox was given it. -/
def Comparison.moved (compared : Comparison) (rel : Text) : Bool :=
  compared.base.lookup rel ≠ compared.current.lookup rel

/-- The body that goes into the workspace; a binary or oversized one does
not. -/
def textBody (file : Option DriverFile) : Option Text :=
  match file with
  | none => none
  | some file =>
    if file.base64 then none
    else file.content.filter fun content => (codeUnits content).length ≤ maxFileBytes

/-- Bring one added or modified path back. -/
def commitChange (grants : Option CapabilityGrants) (driver : Driver) (mount : SandboxMount)
    (source : Text) (compared : Comparison) (result : MountCommitResult) (rel : Text) :
    Tracing MountCommitResult := do
  let path := workspacePathFor source rel
  Traced.check (assertPathGranted grants path true)
  if compared.moved rel && compared.current.lookup rel ≠ compared.live.lookup rel then
    return { result with conflicts := result.conflicts ++ [path] }
  else do
    let file ← Traced.check (driver.readFile (sandboxPathFor mount rel))
    match textBody file with
    | none => return { result with skipped := result.skipped ++ [path] }
    | some content => do
        Traced.report (.write path)
        Traced.check (driver.deliver path (some content))
        return { result with written := result.written ++ [path] }

def commitRemoval (grants : Option CapabilityGrants) (driver : Driver) (source : Text)
    (compared : Comparison) (result : MountCommitResult) (rel : Text) :
    Tracing MountCommitResult := do
  let path := workspacePathFor source rel
  Traced.check (assertPathGranted grants path true)
  if compared.moved rel then return { result with conflicts := result.conflicts ++ [path] }
  else do
    Traced.report (.write path)
    Traced.check (driver.deliver path none)
    return { result with removed := result.removed ++ [path] }

/-- What landed is the new base; conflicted and skipped paths keep their old
one. -/
def settledBase (source : Text) (compared : Comparison)
    (removed : List Text) (result : MountCommitResult) :
    List (Text × Text) :=
  let settled := fun rel =>
    workspacePathFor source rel ∈ result.written || workspacePathFor source rel ∈ result.removed
  ((compared.live.filter fun entry => settled entry.1).foldl setKey
    compared.base).filter fun entry => !(entry.1 ∈ removed && settled entry.1)

def commitMount (grants : Option CapabilityGrants) (store : Store)
    (driver : Driver) (mount : SandboxMount) :
    Tracing (SandboxMount × MountCommitResult) :=
  match mount.workspaceSource with
  | none => return (mount, ⟨[], [], [], []⟩)
  | some source =>
    if mount.track = false then return (mount, ⟨[], [], [], []⟩)
    else do
      let listing ← Traced.check (driver.listFiles mount.path)
      let live := manifestOfListing driver mount listing
      let diff := diffManifests mount.base live
      let compared : Comparison := {
        base := mount.base
        live := live
        current := workspaceManifest store source }
      let result ← (diff.added ++ diff.modified).foldlM
        (commitChange grants driver mount source compared) ⟨[], [], [], []⟩
      let result ← diff.removed.foldlM (commitRemoval grants driver source compared) result
      let base := settledBase source compared diff.removed result
      return ({ mount with base := base }, result)

theorem workspacePathFor_below (source rel : Text) :
    isUnder '/' (workspacePathFor source rel) source = true := by
  rw [isUnder_iff]
  right
  exact ⟨rel, rfl⟩

/-- The files that materializing a mount opens. -/
def readsOf (mount : SandboxMount) : Set Access :=
  { access | ∃ source, mount.workspaceSource = some source ∧
      ∃ entry ∈ workspaceManifest store source, access = .read (workspacePathFor source entry.1) }

variable {grants : Option CapabilityGrants} {mount : SandboxMount}

theorem readsOf_subset_reach (readable : ∀ source, mount.workspaceSource = some source →
      .read source ∈ reach grants) (store : Store) :
    readsOf store mount ⊆ reach grants := by
  rintro access ⟨source, named, entry, _, rfl⟩
  exact read_mem_reach_below (readable source named) (workspacePathFor_below source entry.1)

theorem confined_handOver (store : Store) (driver : Driver) {source : Text}
    (named : mount.workspaceSource = some source) (base : List (Text × Text))
    {entry : Text × Text} (listed : entry ∈ workspaceManifest store source) :
    Traced.Confined (readsOf store mount) (fun _ => True)
      (handOver store driver mount source base entry) := by
  have inside : Access.read (workspacePathFor source entry.1) ∈ readsOf store mount :=
    ⟨source, named, entry, listed, rfl⟩
  rw [handOver]
  apply Traced.confined_bind (Traced.confined_report inside)
  intro _ _
  split
  · exact Traced.confined_pure trivial
  · split
    · exact Traced.confined_raise _
    · rw [Traced.confined_checked]
      intro _ _
      exact Traced.confined_pure trivial

/-- Only `base` changes when a mount is materialized. -/
def SameMount (mount after : SandboxMount) : Prop :=
  after.workspaceSource = mount.workspaceSource ∧ after.track = mount.track

theorem confined_materializeAnyMount (driver : Driver) (mount : SandboxMount) :
    Traced.Confined (readsOf store mount) (SameMount mount)
      (materializeAnyMount store driver mount) := by
  rw [materializeAnyMount]
  split
  · rw [Traced.confined_checked]
    intro _ _
    exact Traced.confined_pure ⟨rfl, rfl⟩
  · next workspaceMount =>
      rw [materializeMount, if_neg workspaceMount]
      split
      · exact Traced.confined_pure ⟨rfl, rfl⟩
      · next source named =>
          simp only
          split
          · exact Traced.confined_raise _
          · apply Traced.confined_bind (Traced.confined_foldlM _ trivial
                fun base entry listed _ => confined_handOver store driver named base listed)
            intro _ _
            exact Traced.confined_pure ⟨rfl, rfl⟩

/-- The changed paths of a tracked mount: what a commit may write. -/
def writesOf (driver : Driver) (mount : SandboxMount) : Set Access :=
  { access | ∃ source listing rel, mount.track = true ∧ mount.workspaceSource = some source ∧
      driver.listFiles mount.path = .ok listing ∧
      (let diff := diffManifests mount.base (manifestOfListing driver mount listing)
       rel ∈ diff.added ++ diff.modified ++ diff.removed) ∧
      access = .write (workspacePathFor source rel) }

theorem confined_assertPathGranted
    (grants : Option CapabilityGrants) (path : Text) (bound : Set Access) :
    Traced.Confined bound (fun _ => .write path ∈ reach grants)
      (Traced.check (assertPathGranted grants path true)) := by
  apply (Traced.confined_check _).weaken (Set.Subset.refl bound)
  intro value passes
  exact assertPathGranted_eq_ok_iff.mp passes

variable {bound : Set Access} {driver : Driver}

theorem confined_commitChange {source rel : Text}
    (inside : .write (workspacePathFor source rel) ∈ reach grants →
      .write (workspacePathFor source rel) ∈ bound) (compared : Comparison)
    (result : MountCommitResult) :
    Traced.Confined bound (fun _ => True)
      (commitChange grants driver mount source compared result rel) := by
  rw [commitChange]
  apply Traced.confined_bind (confined_assertPathGranted grants _ bound)
  intro _ granted
  split
  · exact Traced.confined_pure trivial
  · rw [Traced.confined_checked]
    intro file _
    split
    · exact Traced.confined_pure trivial
    · apply Traced.confined_bind (Traced.confined_report (inside granted))
      intro _ _
      rw [Traced.confined_checked]
      intro _ _
      exact Traced.confined_pure trivial

theorem confined_commitRemoval {source rel : Text} {compared : Comparison}
    (inside : compared.moved rel = false → .write (workspacePathFor source rel) ∈ reach grants →
        .write (workspacePathFor source rel) ∈ bound) (result : MountCommitResult) :
    Traced.Confined bound (fun _ => True)
      (commitRemoval grants driver source compared result rel) := by
  rw [commitRemoval]
  apply Traced.confined_bind (confined_assertPathGranted grants _ bound)
  intro _ granted
  by_cases moved : compared.moved rel = true
  · rw [if_pos moved]
    exact Traced.confined_pure trivial
  · rw [if_neg moved]
    apply Traced.confined_bind (Traced.confined_report
      (inside (Bool.eq_false_iff.mpr moved) granted))
    intro _ _
    rw [Traced.confined_checked]
    intro _ _
    exact Traced.confined_pure trivial

/-- What a commit of a mount compares, given the host's listing. -/
def compareMount (driver : Driver) (mount : SandboxMount) (source : Text)
    (listing : List (Text × Text)) : Comparison where
  base := mount.base
  live := manifestOfListing driver mount listing
  current := workspaceManifest store source

theorem confined_commitMount_of {store : Store} (changes : ∀ source listing, mount.track = true →
      mount.workspaceSource = some source →
      driver.listFiles mount.path = .ok listing →
      let compared := compareMount store driver mount source listing
      let diff := diffManifests compared.base compared.live
      ∀ rel ∈ diff.added ++ diff.modified, .write (workspacePathFor source rel) ∈ reach grants →
          .write (workspacePathFor source rel) ∈ bound)
    (removals : ∀ source listing, mount.track = true → mount.workspaceSource = some source →
      driver.listFiles mount.path = .ok listing →
      let compared := compareMount store driver mount source listing
      let diff := diffManifests compared.base compared.live
      ∀ rel ∈ diff.removed, compared.moved rel = false →
        .write (workspacePathFor source rel) ∈ reach grants →
          .write (workspacePathFor source rel) ∈ bound) :
    Traced.Confined bound (fun _ => True) (commitMount grants store driver mount) := by
  unfold commitMount
  split
  · exact Traced.confined_pure trivial
  · next source named =>
      split
      · exact Traced.confined_pure trivial
      · next tracked =>
          have isTracked : mount.track = true := by simpa using tracked
          rw [Traced.confined_checked]
          intro listing listed
          have changed := changes source listing isTracked named listed
          have gone := removals source listing isTracked named listed
          apply Traced.confined_bind (Traced.confined_foldlM _ trivial
              fun result rel member _ => confined_commitChange (changed rel member) _ result)
          intro result _
          apply Traced.confined_bind (Traced.confined_foldlM _ trivial
              fun result rel member _ => confined_commitRemoval (gone rel member) result)
          intro _ _
          exact Traced.confined_pure trivial

/-- A commit writes changed paths of the mount, and of these only what the
grants it runs under permit. -/
theorem confined_commitMount (grants : Option CapabilityGrants) (store : Store) (driver : Driver)
    (mount : SandboxMount) :
    Traced.Confined (reach grants ∩ writesOf driver mount) (fun _ => True)
      (commitMount grants store driver mount) := by
  apply confined_commitMount_of
  · intro source listing isTracked named listed compared diff rel member granted
    exact ⟨granted, source, listing, rel, isTracked, named, listed,
      List.mem_append_left _ member, rfl⟩
  · intro source listing isTracked named listed compared diff rel member _ granted
    exact ⟨granted, source, listing, rel, isTracked, named, listed,
      List.mem_append_right _ member, rfl⟩

end Aprovan.Sandboxes
