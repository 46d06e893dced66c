import Aprovan.Fs.Path
import Aprovan.Grants.Capability

/-!
# Declaring sandbox mounts

A sandbox holds directories that are backed by workspace prefixes, by
repositories or by nothing.  A declaration is checked against the path
grants it is made under: the prefix must be readable, and for a writable
mount writable.
-/

namespace Aprovan.Sandboxes

open Aprovan.Library Aprovan.Server Aprovan.Fs Aprovan.Grants

inductive MountMode where
  | ro
  | rw
  deriving DecidableEq

inductive SandboxMountKind where
  | vfs
  | repo
  deriving DecidableEq

/-- A parsed `github:` mount source. -/
structure RepoMountRef where
  repo : Text
  (ref path : Option Text)
  deriving DecidableEq

/-- A directory inside the sandbox.  `base` is what the sandbox was given,
by relative path and hash. -/
structure SandboxMount where
  path : Text
  source : Option Text
  kind : SandboxMountKind
  repo : Option RepoMountRef
  mode : MountMode
  track : Bool
  base : List (Text × Text)
  deriving DecidableEq

/-- The workspace prefix behind a mount; the empty source counts as none. -/
def SandboxMount.workspaceSource (mount : SandboxMount) : Option Text :=
  if mount.kind = .repo then none else mount.source.filter (· ≠ [])

/-- A field of a caller's JSON object; a value that is no string is kept as
its JSON text. -/
inductive DeclaredField where
  | absent
  | text (value : Text)
  | other (json : Text)

structure MountDeclaration where
  path : DeclaredField
  (source mode : Option Text)

/-- The `mounts` argument; an entry that is no object is `none`. -/
inductive DeclaredMounts where
  | absent
  | malformed
  | entries (entries : List (Option MountDeclaration))

/-- The letter as `JSON.stringify` writes it inside a string. -/
def jsonLetter (letter : Char) : Text :=
  let hex := fun digit => "0123456789abcdef".toList.getD digit '0'
  let escape := Char.ofNat 92
  match letter.toNat with
  | 8 => [escape, 'b']
  | 9 => [escape, 't']
  | 10 => [escape, 'n']
  | 12 => [escape, 'f']
  | 13 => [escape, 'r']
  | 34 => [escape, letter]
  | 92 => [escape, letter]
  | code =>
    if code < 32 then escape :: 'u' :: '0' :: '0' :: hex (code / 16) :: [hex (code % 16)]
    else [letter]

def jsonText (text : Text) : Text :=
  [Char.ofNat 34] ++ text.flatMap jsonLetter ++ [Char.ofNat 34]

def DeclaredField.json : DeclaredField → Text
  | .absent => "undefined".toList
  | .text value => jsonText value
  | .other json => json

/-- The path that a declaration names, without outer slashes. -/
def MountDeclaration.trimmedPath (entry : MountDeclaration) : Text :=
  match entry.path with
  | .text value => trimSlashes value
  | _ => []

/-- `\w`. -/
def isWordLetter (letter : Char) : Bool :=
  letter.isAlphanum || letter = '_'

/-- `[\w.-]`. -/
def isNameLetter (letter : Char) : Bool :=
  isWordLetter letter || letter = '.' || letter = '-'

/-- `MOUNT_PATH_RE`. -/
def isMountPath (path : Text) : Bool :=
  (splitOn '/' path).all fun segment =>
    match segment with
    | [] => false
    | first :: rest => isWordLetter first && rest.all isNameLetter

/-- `text.includes("..")`. -/
def includesParent (text : Text) : Bool :=
  text.tails.any fun rest => "..".toList.isPrefixOf rest

def repoScheme : Text := "github:".toList

def isRepoSource (source : Text) : Bool :=
  repoScheme.isPrefixOf source

def badRepoSource (source : Text) : ServiceError where
  message := "Invalid repo mount source: ".toList ++ jsonText source ++
    " — expected \"github:owner/repo\", ".toList ++
    "\"github:owner/repo#ref\", or ".toList ++
    "\"github:owner/repo#ref/sub/path\"".toList
  status := 400

def badRepoPath (path : Text) : ServiceError where
  message := "Invalid repo mount path: ".toList ++ path
  status := 400

/-- `owner/repo`. -/
def isRepoName (name : Text) : Bool :=
  match splitOn '/' name with
  | [owner, repo] => owner ≠ [] && repo ≠ [] && owner.all isNameLetter && repo.all isNameLetter
  | _ => false

/-- The letters that `.` does not match in a pattern. -/
def isLineEnd (letter : Char) : Bool :=
  letter.toNat ∈ [10, 13, 8232, 8233]

/-- The groups of `REPO_SOURCE_RE`. -/
def matchRepoSource (source : Text) : Option RepoMountRef :=
  let body := source.drop repoScheme.length
  let repo := body.takeWhile (· ≠ '#')
  if isRepoSource source = false || isRepoName repo = false then none
  else
    match body.dropWhile (· ≠ '#') with
    | [] => some { repo := repo, ref := none, path := none }
    | _ :: rest =>
      let ref := rest.takeWhile (· ≠ '/')
      if ref = [] || ref.any isJsSpace then none
      else
        match rest.dropWhile (· ≠ '/') with
        | [] => some { repo := repo, ref := some ref, path := none }
        | _ :: path =>
          if path = [] || path.any isLineEnd then none
          else some { repo := repo, ref := some ref, path := some path }

def parseRepoSource (source : Text) : Outcome RepoMountRef :=
  match matchRepoSource source with
  | none => .error (badRepoSource source)
  | some parsed =>
    match parsed.path with
    | none => .ok parsed
    | some path =>
      if includesParent path || ['/'].isPrefixOf path then .error (badRepoPath path)
      else .ok { parsed with path := some (stripTrailingSlashes path) }

def mountsNotAnArray : ServiceError where
  message :=
    "mounts must be an array of \x7b path, source?, mode? \x7d".toList
  status := 400

def mountNotAnObject : ServiceError where
  message := "each mount must be \x7b path, source?, mode? \x7d".toList
  status := 400

def badMountPath (field : DeclaredField) : ServiceError where
  message := "mount.path must be a relative directory name (got ".toList ++
    field.json ++ ")".toList
  status := 400

def duplicateMountPath (path : Text) : ServiceError where
  message := "Duplicate mount path: ".toList ++ path
  status := 400

def badMountSource (source : Text) : ServiceError where
  message := "Invalid mount source: ".toList ++ source
  status := 400

/-- What is checked of a nonempty workspace prefix. -/
def assertMountSource (grants : Option CapabilityGrants) (mode : MountMode) (source : Text) :
    Outcome Unit :=
  if source = [] then .ok ()
  else if includesParent source || ".services".toList.isPrefixOf source then
    .error (badMountSource source)
  else do
    let _ ← assertPathGranted grants source false
    if mode = .rw then assertPathGranted grants source true else return ()

/-- The `mode` field; everything but `"ro"` means `rw`. -/
def MountDeclaration.mountMode (entry : MountDeclaration) : MountMode :=
  if entry.mode = some "ro".toList then .ro else .rw

/-- A mount with a workspace prefix, or a scratch mount.  A source of
slashes alone leaves the empty prefix, which is not checked. -/
def workspaceMount (path : Text) (source : Option Text) (mode : MountMode) : SandboxMount where
  path := path
  source := source
  kind := .vfs
  repo := none
  mode := mode
  track := source.isSome && mode = .rw
  base := []

def repoMount (path source : Text) (repo : RepoMountRef) (mode : MountMode) : SandboxMount where
  path := path
  source := some source
  kind := .repo
  repo := some repo
  mode := mode
  track := false
  base := []

def declaredMount (grants : Option CapabilityGrants) (path : Text) (entry : MountDeclaration) :
    Outcome SandboxMount :=
  let trimmed := trim (entry.source.getD [])
  if trimmed = [] then .ok (workspaceMount path none entry.mountMode)
  else if isRepoSource trimmed then do
    let repo ← parseRepoSource trimmed
    return repoMount path trimmed repo entry.mountMode
  else do
    let _ ← assertMountSource grants entry.mountMode (trimSlashes trimmed)
    return workspaceMount path (some (trimSlashes trimmed)) entry.mountMode

def parseMount (grants : Option CapabilityGrants)
    (mounts : List SandboxMount) (entry : Option MountDeclaration) :
    Outcome (List SandboxMount) :=
  match entry with
  | none => .error mountNotAnObject
  | some entry =>
    if isMountPath entry.trimmedPath = false then .error (badMountPath entry.path)
    else if mounts.any (·.path = entry.trimmedPath) then
      .error (duplicateMountPath entry.trimmedPath)
    else do
      let mount ← declaredMount grants entry.trimmedPath entry
      return mounts ++ [mount]

def parseMounts (raw : DeclaredMounts) (grants : Option CapabilityGrants) :
    Outcome (List SandboxMount) :=
  match raw with
  | .absent => .ok []
  | .malformed => .error mountsNotAnArray
  | .entries entries => entries.foldlM (parseMount grants) []

/-- Add a workspace default, unless its path is taken or the grants deny
it. -/
def addDefaultMount (grants : Option CapabilityGrants)
    (mounts : List SandboxMount) (entry : MountDeclaration) :
    List SandboxMount :=
  if mounts.any (·.path = entry.trimmedPath) then mounts
  else
    match parseMounts (.entries [some entry]) grants with
    | .ok (mount :: _) => mounts ++ [mount]
    | _ => mounts

/-- The caller's mounts with the workspace defaults folded in. -/
def applyDefaultMounts (defaults : List MountDeclaration)
    (raw : DeclaredMounts) (grants : Option CapabilityGrants) :
    Outcome (List SandboxMount) := do
  let mounts ← parseMounts raw grants
  return defaults.foldl (addDefaultMount grants) mounts

def Admitted (grants : Option CapabilityGrants) (mount : SandboxMount) : Prop :=
  ∀ source, mount.workspaceSource = some source → pathAllowed grants source false = true ∧
      (mount.track = true → pathAllowed grants source true = true)

variable {grants : Option CapabilityGrants}

theorem assertMountSource_ok {mode : MountMode} {source : Text} (nonempty : source ≠ [])
    (passes : assertMountSource grants mode source = .ok ()) :
    pathAllowed grants source false = true ∧
      (mode = .rw → pathAllowed grants source true = true) := by
  rw [assertMountSource, if_neg nonempty] at passes
  split at passes
  · cases passes
  · obtain ⟨checked, readable, rest⟩ := bind_eq_ok_iff.mp passes
    refine ⟨assertPathGranted_eq_ok_iff.mp readable, ?_⟩
    intro writable
    rw [if_pos writable] at rest
    exact assertPathGranted_eq_ok_iff.mp rest

theorem admitted_workspaceMount {path source : Text} {mode : MountMode}
    (passes : assertMountSource grants mode source = .ok ()) :
    Admitted grants (workspaceMount path (some source) mode) := by
  intro other named
  simp only [SandboxMount.workspaceSource, workspaceMount,
    reduceCtorEq, if_false, Option.filter_eq_some_iff,
    Option.some.injEq, decide_eq_true_eq] at named
  obtain ⟨rfl, nonempty⟩ := named
  obtain ⟨readable, writable⟩ := assertMountSource_ok nonempty passes
  refine ⟨readable, ?_⟩
  intro tracked
  apply writable
  simpa [workspaceMount] using tracked

theorem admitted_declaredMount {path : Text} {entry : MountDeclaration} {mount : SandboxMount}
    (declared : declaredMount grants path entry = .ok mount) :
    Admitted grants mount := by
  simp only [declaredMount] at declared
  split at declared
  · cases declared
    intro source named
    simp [SandboxMount.workspaceSource, workspaceMount] at named
  · split at declared
    · obtain ⟨repo, _, same⟩ := bind_eq_ok_iff.mp declared
      cases same
      intro source named
      simp [SandboxMount.workspaceSource, repoMount] at named
    · obtain ⟨checked, passes, same⟩ := bind_eq_ok_iff.mp declared
      cases same
      exact admitted_workspaceMount passes

def Declared (grants : Option CapabilityGrants) (mount : SandboxMount) : Prop :=
  ∃ path entry, isMountPath path = true ∧ declaredMount grants path entry = .ok mount

variable {mounts : List SandboxMount}

theorem declared_parseMount {after : List SandboxMount} {entry : Option MountDeclaration}
    (declared : ∀ mount ∈ mounts, Declared grants mount)
    (parsed : parseMount grants mounts entry = .ok after) :
    ∀ mount ∈ after, Declared grants mount := by
  unfold parseMount at parsed
  split at parsed
  · cases parsed
  · next entry =>
      by_cases inOrder : isMountPath entry.trimmedPath = false
      · rw [if_pos inOrder] at parsed
        cases parsed
      · rw [if_neg inOrder] at parsed
        split at parsed
        · cases parsed
        · obtain ⟨mount, isDeclared, same⟩ := bind_eq_ok_iff.mp parsed
          cases same
          intro other member
          rcases List.mem_append.mp member with earlier | last
          · exact declared other earlier
          · rw [List.mem_singleton.mp last]
            exact ⟨entry.trimmedPath, entry, eq_true_of_ne_false inOrder, isDeclared⟩

variable {raw : DeclaredMounts}

theorem declared_parseMounts (parsed : parseMounts raw grants = .ok mounts) :
    ∀ mount ∈ mounts, Declared grants mount := by
  cases raw with
  | absent =>
    cases parsed
    simp
  | malformed => cases parsed
  | entries entries =>
    apply foldlM_ok_of_preserved (fun mounts => ∀ mount ∈ mounts, Declared grants mount)
      (fun before item after => declared_parseMount) _ parsed
    simp

theorem declared_addDefaultMount {grants : Option CapabilityGrants} {mounts : List SandboxMount}
    (entry : MountDeclaration) (declared : ∀ mount ∈ mounts, Declared grants mount) :
    ∀ mount ∈ addDefaultMount grants mounts entry,
      Declared grants mount := by
  unfold addDefaultMount
  split
  · exact declared
  · split
    · next mount others parsed =>
        intro other member
        rcases List.mem_append.mp member with earlier | last
        · exact declared other earlier
        · rw [List.mem_singleton.mp last]
          exact declared_parseMounts parsed mount List.mem_cons_self
    · exact declared

/-- Every mount of a new sandbox is of a declaration that was accepted under
the grants, the workspace defaults included. -/
theorem declared_applyDefaultMounts {defaults : List MountDeclaration}
    (applied : applyDefaultMounts defaults raw grants = .ok mounts) :
    ∀ mount ∈ mounts, Declared grants mount := by
  rw [applyDefaultMounts] at applied
  obtain ⟨explicit, parsed, same⟩ := bind_eq_ok_iff.mp applied
  cases same
  apply List.foldlRecOn (motive := fun mounts => ∀ mount ∈ mounts, Declared grants mount)
  · exact declared_parseMounts parsed
  · intro before declared entry _
    exact declared_addDefaultMount entry declared

theorem admitted_applyDefaultMounts {defaults : List MountDeclaration}
    (applied : applyDefaultMounts defaults raw grants = .ok mounts) :
    ∀ mount ∈ mounts, Admitted grants mount := by
  intro mount member
  obtain ⟨_, _, _, declared⟩ := declared_applyDefaultMounts applied mount member
  exact admitted_declaredMount declared

end Aprovan.Sandboxes
