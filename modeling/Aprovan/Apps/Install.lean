import Aprovan.Apps.ReleaseTags

/-!
# Installing an app as a copy

A pin is resolved to a commit, the commit's snapshot is copied below
`apps/<slug>`, and an installation record remembers the pin; where no commit is
found the live files are copied.  The origin and the installing workspace are
different ones.
-/

namespace Aprovan.Apps

open Aprovan.Library Aprovan.Server Aprovan.Fs Aprovan.Vcs

structure InstallServices extends VcsServices where
  sha256 : Text → Text
  mintedId : Text
  resolveProfile : Text → Text → Option Text
  profileGrantsAvailable : Bool

/-- What an installation is pinned to: a commit, a channel, or a release. -/
inductive InstallPin where
  | commit (pin : CommitPin)
  | channel (name : Text)
  | release (releaseId : Text)
  deriving DecidableEq

structure AppInstallation where
  (installId originAppId originWorkspaceId : Text)
  pin : InstallPin
  hosting : HostingMode
  (hostingWorkspaceId root pathPrefix : Option Text)
  manifest : Option AppManifest
  (contentFingerprint resolvedRelease : Option Text)
  bindings : List (Text × Text)
  installedBy : Text
  deriving DecidableEq

structure Installer where
  workspaceId : Text
  store : Store
  registry : Registry
  installs : List AppInstallation

/-- A file that was copied: where from, where to, and what. -/
structure Copy where
  (source dest content mimeType : Text)

/-- What a call leaves: how it ended, what it copied in order, and both
workspaces. -/
structure InstallRun (Value : Type) where
  outcome : Ended Value
  copies : List Copy
  origin : Origin
  installer : Installer

/-- The `pin` argument of an installation: null or empty, a string, an
object with its non-empty string fields, or anything else. -/
inductive PinArg where
  | nothing
  | text (value : Text)
  | object (commit tag release channel : Option Text)
  | other

def badPin : ServiceError where
  message :=
    "pin must be \x7bcommit\x7d, \x7bchannel\x7d, or \x7brelease\x7d".toList
  status := 400

def parseInstallPin (raw : PinArg) : Outcome InstallPin :=
  match raw with
  | .nothing => .ok (.channel defaultChannel)
  | .text value => .ok (.channel value)
  | .object (some commit) tag _ _ => .ok (.commit { tag := tag, commit := commit })
  | .object none _ (some release) _ => .ok (.release release)
  | .object none _ none (some channel) => .ok (.channel channel)
  | .object none _ none none => .error badPin
  | .other => .error badPin

def resolvePinRelease (services : VcsServices) (fuel : Nat)
    (origin : Origin) (appId : Text) (pin : InstallPin) :
    Ended (Option ResolvedRelease) × Origin :=
  match pin with
  | .commit { tag := some tag, commit := commit } =>
    if tag ≠ [] then resolveRelease services fuel origin appId tag
    else
      (.answered ((origin.history.readCommit commit).map fun found => {
        releaseId := tag
        commitId := found.id
        snapshotId := found.snapshot }), origin)
  | .commit { tag := none, commit := commit } =>
    (.answered ((origin.history.readCommit commit).map fun found => {
      releaseId := commit
      commitId := found.id
      snapshotId := found.snapshot }), origin)
  | .channel name => resolveRelease services fuel origin appId name
  | .release releaseId => resolveRelease services fuel origin appId releaseId

variable (services : InstallServices) (manifest : AppManifest)

/-- `root ?? paths[0] ?? "apps/<name>"`. -/
def AppManifest.originRoot : Text :=
  manifest.declaredRoot.getD ("apps/".toList ++ manifest.name)

/-- The subtrees that the live files are copied from. -/
def AppManifest.originPaths : List Text :=
  if manifest.paths ≠ [] then manifest.paths
  else
    match manifest.root.filter (· ≠ []) with
    | some root => [root]
    | none => ["apps/".toList ++ manifest.name]

/-- `fingerprintRoot`: a digest of the paths and versions below a root. -/
def fingerprintRoot (store : Store) (root : Text) : Text :=
  let entries := (store.listAll root).insertionSort fun first second =>
    services.collate first.path second.path = true
  services.sha256 (joinWith '\n' (entries.filterMap fun entry =>
    (store.read entry.path none).map fun file => entry.path ++ ':' :: file.hash))

def InstallPin.tag (pin : InstallPin) : Option Text :=
  match pin with
  | .commit pin => pin.tag
  | .channel name => some name
  | .release releaseId => some releaseId

/-- What a failed resolution falls back to: the commit of the pin, else the
fingerprint of the root in place of a commit. -/
def floorPin (origin : Origin) (manifest : AppManifest)
    (pin : Option InstallPin) (thrown : ServiceError) : CommitPin :=
  let floor : CommitPin := {
    tag := if thrown.status = 404 then (pin.bind InstallPin.tag).filter (· ≠ []) else none
    commit := fingerprintRoot services origin.store manifest.originRoot }
  match pin with
  | some (.commit named) =>
    if named.commit ≠ [] then { tag := named.tag.filter (· ≠ []), commit := named.commit }
    else floor
  | _ => floor

def resolveCommitPin (fuel : Nat) (origin : Origin) (manifest : AppManifest)
    (pin : Option InstallPin) :
    Ended CommitPin × Origin :=
  let viaTag := fun origin =>
    match resolveReleaseTag services.toVcsServices fuel origin manifest.appId
        (pin.bind InstallPin.tag) with
    | (.threw thrown, reached) =>
      (.answered (floorPin services reached manifest pin thrown), reached)
    | settled => settled
  match pin with
  | some (.channel name) =>
    match resolveRelease services.toVcsServices fuel origin manifest.appId name with
    | (.endless, reached) => (.endless, reached)
    | (.threw thrown, reached) =>
      (.answered (floorPin services reached manifest pin thrown), reached)
    | (.answered (some release), reached) =>
      (.answered {
        tag := some release.releaseId
        commit := release.commitId }, reached)
    | (.answered none, reached) => viaTag reached
  | _ => viaTag origin

/-- A path below the destination. -/
def place (destRoot relative : Text) : Text :=
  if relative = [] then destRoot else destRoot ++ '/' :: relative

/-- The path of a snapshot's file relative to the snapshot's prefix; a path
that is not below the prefix stays as it is. -/
def snapshotRelative (originRoot path : Text) : Text :=
  if originRoot = [] then path
  else if path = originRoot then []
  else if (originRoot ++ ['/']).isPrefixOf path then path.drop (originRoot.length + 1)
  else path

/-- The path of a listed file relative to the prefix of the listing. -/
def archiveRelative (pathPrefix path : Text) : Text :=
  if path = pathPrefix then []
  else
    match path.drop pathPrefix.length with
    | '/' :: rest => rest
    | rest => rest

def copyOfFile (destRoot relative path : Text) (file : FsRow) : Copy where
  source := path
  dest := place destRoot relative
  content := file.content
  mimeType := file.mimeType

/-- `copyArchivePaths`: the live files below the prefixes. -/
def copyArchivePaths (origin : Store) (originPaths : List Text) (destRoot : Text) : List Copy :=
  originPaths.flatMap fun pathPrefix =>
    (origin.listAll pathPrefix).filterMap fun entry =>
      (origin.read entry.path none).map
        (copyOfFile destRoot (archiveRelative pathPrefix entry.path) entry.path)

def unknownCommit (commitId : Text) : ServiceError where
  message := "Unknown commit: ".toList ++ commitId
  status := 404

def snapshotMissing (commitId : Text) : ServiceError where
  message := "Snapshot missing for commit ".toList ++ commitId
  status := 404

def snapshotCopies (origin : Store) (snapshot : VcsSnapshot) (destRoot : Text) : List Copy :=
  snapshot.entries.filterMap fun entry =>
    (origin.read entry.path (some entry.hash)).map (copyOfFile destRoot
        (snapshotRelative snapshot.pathPrefix entry.path) entry.path)

def commitSnapshot (history : History) (commitId : Text) : Outcome VcsSnapshot :=
  match history.readCommit commitId with
  | none => .error (unknownCommit commitId)
  | some commit =>
    match history.readSnapshot commit.snapshot with
    | none => .error (snapshotMissing commitId)
    | some snapshot => .ok snapshot

def materializeCommit (origin : Origin) (commitId destRoot : Text) : Outcome (List Copy) :=
  (commitSnapshot origin.history commitId).map fun snapshot =>
    snapshotCopies origin.store snapshot destRoot

def writeCopies (store : Store) (copies : List Copy) : Store :=
  copies.foldl (fun reached copy =>
    reached.write services.sha256 services.now copy.dest copy.content copy.mimeType none) store

def remapEntry (entry : Text) (originPaths : List Text) (destRoot : Text) : Text :=
  let root := originPaths.headD []
  if root ≠ [] ∧ underPath entry root = true then place destRoot (entry.drop (root.length + 1))
  else destRoot ++ '/' :: (entry.reverse.takeWhile (· ≠ '/')).reverse

def remapManifestToRoot (root : Text) : AppManifest :=
  let originPaths :=
    if manifest.paths ≠ [] then manifest.paths else manifest.root.toList
  { manifest with
    root := some root
    paths := [root]
    entry := remapEntry manifest.entry originPaths root }

def HostModeDecl.label : HostModeDecl → Text
  | .managed => "managed".toList
  | .creatorHosted => "creator-hosted".toList
  | .publisherHosted => "publisher-hosted".toList

def HostingMode.label : HostingMode → Text
  | .hosted => "hosted".toList
  | .managed => "managed".toList

def commaList (labels : List Text) : Text :=
  (labels.intersperse ", ".toList).flatten

def declaredHostModes : List HostModeDecl :=
  if manifest.hostModes ≠ [] then manifest.hostModes else [.managed]

def HostModeDecl.bucket : HostModeDecl → HostingMode
  | .managed => .managed
  | _ => .hosted

/-- The buckets that are declared, sorted by their names. -/
def hostingBuckets (modes : List HostModeDecl) : List HostingMode :=
  [HostingMode.hosted, .managed].filter (· ∈ modes.map HostModeDecl.bucket)

def badHosting (options : List HostingMode) : ServiceError where
  message :=
    "hosting must be \"managed\" or \"hosted\" (options: ".toList ++
      commaList (options.map HostingMode.label) ++ ")".toList
  status := 400

def hostingNotDeclared (requested : HostingMode) (modes : List HostModeDecl) : ServiceError where
  message :=
    "Hosting mode \"".toList ++ requested.label ++
      "\" is not declared by this app (declared: ".toList ++
      commaList (modes.map HostModeDecl.label) ++ ")".toList
  status := 400

def hostingRequired (options : List HostingMode) : ServiceError where
  message :=
    "Hosting mode required when the app declares multiple options: ".toList ++
      commaList (options.map HostingMode.label)
  status := 400

structure ResolvedHosting where
  hosting : HostingMode
  hostingWorkspaceId : Option Text

def finalizeHosting (hosting : HostingMode) (modes : List HostModeDecl)
    (originWorkspaceId installerWorkspaceId : Text) : ResolvedHosting :=
  match hosting with
  | .managed => { hosting := .managed, hostingWorkspaceId := none }
  | .hosted => {
      hosting := .hosted
      hostingWorkspaceId := some
        (if .creatorHosted ∈ modes ∧ .publisherHosted ∉ modes then installerWorkspaceId
        else originWorkspaceId) }

/-- The requested mode: absent or empty, one of the two, or an error. -/
def requestedHosting (requested : Option Text) (options : List HostingMode) :
    Outcome (Option HostingMode) :=
  match requested.filter (· ≠ []) with
  | none => .ok none
  | some text =>
    if text = HostingMode.managed.label then .ok (some .managed)
    else if text = HostingMode.hosted.label then .ok (some .hosted)
    else .error (badHosting options)

def resolveHostingChoice (requested : Option Text)
    (originWorkspaceId installerWorkspaceId : Text) :
    Outcome ResolvedHosting := do
  let modes := declaredHostModes manifest
  let options := hostingBuckets modes
  let requested ← requestedHosting requested options
  let settle := fun hosting => finalizeHosting hosting modes originWorkspaceId installerWorkspaceId
  match requested, options with
  | some hosting, [only] =>
    if hosting ∈ options then return settle only
    else .error (hostingNotDeclared hosting modes)
  | some hosting, _ =>
    if hosting ∈ options then return settle hosting
    else .error (hostingNotDeclared hosting modes)
  | none, [only] => return settle only
  | none, _ => .error (hostingRequired options)

/-- `root ?? prefix`. -/
def AppInstallation.installRoot (install : AppInstallation) : Option Text :=
  install.root <|> install.pathPrefix

/-- What `apps.install` is called with, besides the app. -/
structure InstallArgs where
  (slug hosting : Option Text)
  bindings : Option (List (Text × Text))
  pin : Option PinArg

def slugOverlaps (slug message : Text) : ServiceError where
  message :=
    "Slug \"".toList ++ slug ++
      "\" conflicts with an existing app root — choose an explicit slug (".toList ++
      message ++ ")".toList
  status := 400

def slugInstalled (slug installId root : Text) : ServiceError where
  message :=
    "Slug \"".toList ++ slug ++ "\" conflicts with existing install ".toList ++
      installId ++ " at \"".toList ++ root ++ "\"".toList
  status := 400

def installSlug (slug : Option Text) : Text :=
  let asked := trim (slug.getD [])
  if asked ≠ [] then asked
  else
    let own := manifest.slug.getD []
    if own ≠ [] then own else manifest.name

/-- The root and the hosting of a new installation, if they are free. -/
def installSite (originWorkspaceId : Text) (installer : Installer)
    (manifest : AppManifest) (slug hosting : Option Text) :
    Outcome (Text × ResolvedHosting) := do
  let slug := installSlug manifest slug
  let root ← workspacePath (some ("apps/".toList ++ slug)) "root".toList
  let chosen ← resolveHostingChoice manifest hosting originWorkspaceId installer.workspaceId
  match assertRootAvailable installer.registry root none with
  | .error thrown =>
    if thrown.status = 409 then .error (slugOverlaps slug thrown.message)
    else .error thrown
  | .ok _ =>
    match installer.installs.find? (·.installRoot = some root) with
    | some other => .error (slugInstalled slug other.installId root)
    | none => return (root, chosen)

/-- The commit and, if there is one, the release that an installation is
taken from. -/
structure ResolvedPin where
  pin : CommitPin
  release : Option ResolvedRelease

def releasePin (asked : Option InstallPin) (pin : CommitPin) : InstallPin :=
  let derived :=
    match pin.tag.filter (· ≠ []) with
    | some tag => .release tag
    | none =>
      if pin.commit ≠ [] then .commit pin else .channel defaultChannel
  match asked with
  | some (.commit _) => derived
  | some other => other
  | none => derived

def withRelease (services : VcsServices) (fuel : Nat) (appId : Text)
    (named : CommitPin → InstallPin) (found : Ended CommitPin × Origin) :
    Ended ResolvedPin × Origin :=
  match found with
  | (.endless, reached) => (.endless, reached)
  | (.threw thrown, reached) => (.threw thrown, reached)
  | (.answered pin, reached) =>
    match resolvePinRelease services fuel reached appId (named pin) with
    | (.endless, last) => (.endless, last)
    | (.threw thrown, last) => (.threw thrown, last)
    | (.answered release, last) => (.answered { pin := pin, release := release }, last)

/-- The pin resolution of `installAsCopy`. -/
def resolveInstallPin (fuel : Nat) (origin : Origin) (manifest : AppManifest)
    (asked : Option InstallPin) :
    Ended ResolvedPin × Origin :=
  withRelease services.toVcsServices fuel manifest.appId (releasePin asked) (match asked with
      | some (.commit pin) => (.answered pin, origin)
      | _ => resolveCommitPin services fuel origin manifest asked)

/-- The files that are copied for a resolved pin: the release's, else those
of the commit, else the live ones. -/
def materialize (origin : Origin) (manifest : AppManifest) (resolved : ResolvedPin) (root : Text) :
    Outcome (List Copy) :=
  let live := copyArchivePaths origin.store manifest.originPaths root
  match resolved.release with
  | some release => materializeCommit origin release.commitId root
  | none =>
    if resolved.pin.commit ≠ [] then
      match materializeCommit origin resolved.pin.commit root with
      | .error _ => .ok live
      | .ok copies => .ok copies
    else .ok live

/-- The record of a new installation over its copied files. -/
def newInstall (originWorkspaceId : Text) (installedBy : Text)
    (manifest : AppManifest) (bindings : List (Text × Text)) (root : Text)
    (hosting : ResolvedHosting) (resolved : ResolvedPin) (store : Store) :
    AppInstallation where
  installId := services.mintedId
  originAppId := manifest.appId
  originWorkspaceId := originWorkspaceId
  pin := .commit resolved.pin
  hosting := hosting.hosting
  hostingWorkspaceId := hosting.hostingWorkspaceId
  root := some root
  pathPrefix := some root
  manifest := some (remapManifestToRoot manifest root)
  contentFingerprint := some (fingerprintRoot services store root)
  resolvedRelease :=
    resolved.pin.tag <|> resolved.release.map ResolvedRelease.releaseId
  bindings := bindings
  installedBy := installedBy

/-- A call that ends before it copies anything. -/
def nothingCopied {Value : Type} (outcome : Ended Value) (origin : Origin)
    (installer : Installer) : InstallRun Value where
  outcome := outcome
  copies := []
  origin := origin
  installer := installer

def installAsCopy (fuel : Nat) (originWorkspaceId installedBy : Text) (origin : Origin)
    (installer : Installer) (manifest : AppManifest) (bindings : List (Text × Text))
    (slug hosting : Option Text) (asked : Option InstallPin) : InstallRun AppInstallation :=
  match installSite originWorkspaceId installer manifest slug hosting with
  | .error thrown => nothingCopied (.threw thrown) origin installer
  | .ok (root, chosen) =>
    match resolveInstallPin services fuel origin manifest asked with
    | (.endless, reached) => nothingCopied .endless reached installer
    | (.threw thrown, reached) => nothingCopied (.threw thrown) reached installer
    | (.answered resolved, reached) =>
      match materialize reached manifest resolved root with
      | .error thrown => nothingCopied (.threw thrown) reached installer
      | .ok copies =>
        let store := writeCopies services installer.store copies
        let install := newInstall services originWorkspaceId
          installedBy manifest bindings root chosen resolved store
        { outcome := .answered install
          copies := copies
          origin := reached
          installer := { installer with
              store := store
              installs := installer.installs ++ [install] } }

def resolveBindings (requires : List AppRequirement) (explicit : Option (List (Text × Text))) :
    List (Text × Text) × List Text :=
  requires.foldl (fun (bindings, missing) requirement =>
    let asked := (explicit.bind (·.lookup requirement.contract)).filter (· ≠ [])
    let profile :=
      match asked with
      | some name => some ((services.resolveProfile requirement.contract name).getD name)
      | none =>
        services.resolveProfile requirement.contract
          (requirement.profileName.getD "default".toList)
    match profile.filter (· ≠ []) with
    | some profile => (setRow bindings requirement.contract profile, missing)
    | none =>
      if requirement.optional then (bindings, missing)
      else (bindings, missing ++ [requirement.contract])) ([], [])

def bindingMissing (contracts : List Text) : ServiceError where
  message :=
    "Unfulfilled requirement".toList ++
      (if contracts.length = 1 then [] else ['s']) ++ ": ".toList ++
      commaList contracts ++ ". Create a profile for ".toList ++
      (if contracts.length = 1 then "this contract".toList
      else "these contracts".toList) ++
      " (POST /profiles with targetKind \"interface\") or pass bindings naming an existing profile.".toList
  status := 400

/-- The bindings of an installation; while grants are unavailable the ids
that the caller passed are taken as they are. -/
def installBindings (explicit : Option (List (Text × Text))) : Outcome (List (Text × Text)) :=
  let (bindings, missing) :=
    resolveBindings services manifest.requires explicit
  let (bindings, missing) :=
    match explicit with
    | some explicit =>
      if missing ≠ [] ∧ services.profileGrantsAvailable = false then
        let given := fun contract => (explicit.lookup contract).filter (· ≠ [])
        (missing.foldl (fun bindings contract =>
          match given contract with
          | some profile => setRow bindings contract profile
          | none => bindings) bindings,
          missing.filter fun contract => given contract = none)
      else (bindings, missing)
    | none => (bindings, missing)
  if missing ≠ [] then .error (bindingMissing missing) else .ok bindings

def notFoundApp : ServiceError where
  message := "Not found".toList
  status := 404

/-- What `completeInstall` checks of its arguments. -/
def installRequest (originWorkspaceId : Text) (installer : Installer)
    (manifest : AppManifest) (args : InstallArgs) :
    Outcome (List (Text × Text) × Option InstallPin) := do
  if originWorkspaceId ≠ installer.workspaceId ∧ manifest.isPublic = false then .error notFoundApp
  else
    let bindings ← installBindings services manifest args.bindings
    match args.pin with
    | none => return (bindings, none)
    | some raw => do
        let pin ← parseInstallPin raw
        return (bindings, some pin)

def completeInstall (fuel : Nat) (originWorkspaceId installedBy : Text) (origin : Origin)
    (installer : Installer) (manifest : AppManifest) (args : InstallArgs) :
    InstallRun AppInstallation :=
  match installRequest services originWorkspaceId installer manifest args with
  | .error thrown => nothingCopied (.threw thrown) origin installer
  | .ok (bindings, asked) =>
    installAsCopy services fuel originWorkspaceId installedBy origin
      installer manifest bindings (args.slug.filter (· ≠ [])) args.hosting
      asked

def unknownInstall (installId : Text) : ServiceError where
  message := "Unknown install: ".toList ++ installId
  status := 404

def noLocalCopy : ServiceError where
  message := "Install has no local copy root to update".toList
  status := 400

def originGone (install : AppInstallation) : ServiceError where
  message :=
    "Origin unavailable: app ".toList ++ install.originAppId ++
      " in workspace ".toList ++ install.originWorkspaceId ++
      " is gone".toList
  status := 404

def localEdits : ServiceError where
  message :=
    "Installation has local edits; pass confirmOverwrite=true to overwrite the copy from the origin".toList
  status := 409

/-- Was the copy edited since it was made? -/
def installHasLocalEdits (store : Store) (install : AppInstallation) : Bool :=
  match install.installRoot.filter (· ≠ []), install.contentFingerprint.filter (· ≠ []) with
  | some root, some fingerprint => fingerprintRoot services store root ≠ fingerprint
  | _, _ => false

def updateSite (origin : Origin) (installer : Installer) (installId : Text)
    (confirmOverwrite : Bool) :
    Outcome (AppInstallation × Text × AppManifest) :=
  match installer.installs.find? (·.installId = installId) with
  | none => .error (unknownInstall installId)
  | some install =>
    match install.installRoot.filter (· ≠ []) with
    | none => .error noLocalCopy
    | some root =>
      match origin.readApp install.originAppId with
      | none => .error (originGone install)
      | some manifest =>
        if installHasLocalEdits services installer.store install ∧ confirmOverwrite = false then
          .error localEdits
        else .ok (install, root, manifest)

def updateReleasePin (pin : CommitPin) : InstallPin :=
  match pin.tag.filter (· ≠ []) with
  | some tag => .release tag
  | none => .channel defaultChannel

/-- The pin resolution of `applyUpdate`. -/
def resolveUpdatePin (fuel : Nat) (origin : Origin) (manifest : AppManifest) :
    Ended ResolvedPin × Origin :=
  withRelease services.toVcsServices fuel manifest.appId updateReleasePin
    (resolveCommitPin services fuel origin manifest none)

/-- The files that an update copies: the release's, else the live ones. -/
def rematerialize (origin : Origin) (manifest : AppManifest)
    (resolved : ResolvedPin) (root : Text) : Outcome (List Copy) :=
  match resolved.release with
  | some release => materializeCommit origin release.commitId root
  | none => .ok (copyArchivePaths origin.store manifest.originPaths root)

def updatedInstall (install : AppInstallation) (manifest : AppManifest)
    (root : Text) (resolved : ResolvedPin) (store : Store) :
    AppInstallation := { install with
    pin := .commit resolved.pin
    resolvedRelease :=
      resolved.pin.tag <|> resolved.release.map ResolvedRelease.releaseId <|>
          install.resolvedRelease
    manifest := some (remapManifestToRoot manifest root)
    contentFingerprint := some (fingerprintRoot services store root) }

/-- `applyUpdate`: the root is cleared before the files are copied again. -/
def applyUpdate (fuel : Nat) (origin : Origin) (installer : Installer)
    (installId : Text) (confirmOverwrite : Bool) :
    InstallRun AppInstallation :=
  match updateSite services origin installer installId confirmOverwrite with
  | .error thrown => nothingCopied (.threw thrown) origin installer
  | .ok (install, root, manifest) =>
    match resolveUpdatePin services fuel origin manifest with
    | (.endless, reached) => nothingCopied .endless reached installer
    | (.threw thrown, reached) => nothingCopied (.threw thrown) reached installer
    | (.answered resolved, reached) =>
      let cleared := (installer.store.removePrefix root).2
      match rematerialize reached manifest resolved root with
      | .error thrown => nothingCopied (.threw thrown) reached { installer with store := cleared }
      | .ok copies =>
        let store := writeCopies services cleared copies
        let updated := updatedInstall services install manifest root resolved store
        { outcome := .answered updated
          copies := copies
          origin := reached
          installer := { installer with
              store := store
              installs := installer.installs.map fun other =>
                if other.installId = installId then updated else other } }

end Aprovan.Apps
