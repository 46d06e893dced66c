import Aprovan.Apps.Registry
import Aprovan.Vcs.History
import Aprovan.Vfs.Context

/-!
# Releases of an app

A release is an immutable tag over a commit of the app's files, a channel a
movable ref.  Release records from before the tags are turned into tags when the
releases of an app are first looked at.  Pointers of the manifest may lead to
one another in a circle, and then the lookup never ends.
-/

namespace Aprovan.Apps

open Aprovan.Library Aprovan.Server Aprovan.Fs Aprovan.Vcs
open Aprovan.Vfs (AppPaths appRoot)

inductive HostModeDecl where
  | managed
  | creatorHosted
  | publisherHosted
  deriving DecidableEq

structure AppRequirement where
  contract : Text
  profileName : Option Text
  optional : Bool
  deriving DecidableEq

/-- A manifest as an installation reads it. -/
structure AppManifest extends AppRecord where
  isPublic : Bool
  channels : List (Text × Text)
  hostModes : List HostModeDecl
  requires : List AppRequirement
  deriving DecidableEq

/-- A release record from before the tags. -/
structure LegacyRelease where
  (key id channel : Text)
  (notes entryHash : Option Text)
  entry : Text
  manifest : Option AppPaths
  createdBy : Option Text

/-- The workspace that an app comes from. -/
structure Origin where
  store : Store
  history : History
  apps : List AppManifest
  legacy : List (Text × LegacyRelease)

def Origin.readApp (origin : Origin) (appId : Text) : Option AppManifest :=
  origin.apps.find? (·.appId = appId)

def Origin.legacyOf (origin : Origin) (appId : Text) : List LegacyRelease :=
  (origin.legacy.filter (·.1 = appId)).map (·.2)

structure ResolvedRelease where
  (releaseId commitId snapshotId : Text)

/-- How a lookup ends, if it does. -/
inductive Ended (Value : Type) where
  | answered (value : Value)
  | threw (thrown : ServiceError)
  | endless
  deriving DecidableEq

def defaultChannel : Text := "live".toList

/-- `^[a-z][a-z0-9-]{0,31}$`. -/
def matchesChannel (name : Text) : Bool :=
  match name with
  | [] => false
  | start :: rest =>
    start.isLower && rest.length ≤ 31 && rest.all fun letter =>
        letter.isLower || letter.isDigit || letter = '-'

def badChannel : ServiceError where
  message := "channel must match /^[a-z][a-z0-9-]\x7b0,31\x7d$/u".toList
  status := 400

/-- `channelName(value)`, with the default for the empty one. -/
def channelName (value : Text) : Outcome Text :=
  if value = [] then .ok defaultChannel
  else if matchesChannel value then .ok value
  else .error badChannel

def AppManifest.appPaths (manifest : AppManifest) : AppPaths where
  id := manifest.appId
  name := manifest.name
  root := manifest.root
  paths := manifest.paths

/-- `root || paths?.[0]` is not empty. -/
def hasRoot (app : AppPaths) : Bool :=
  app.root.getD [] ≠ [] || app.paths.headD [] ≠ []

/-- The folder of an entry file: what precedes the last slash. -/
def entryFolder (entry : Text) : Text :=
  if '/' ∈ entry then (entry.reverse.dropWhile (· ≠ '/')).tail.reverse else []

/-- The subtree that a legacy release is taken over. -/
def legacyPrefix (manifest : Option AppManifest) (release : LegacyRelease) : Outcome Text :=
  match manifest.map AppManifest.appPaths, release.manifest with
  | some app, other =>
    if hasRoot app then appRoot app
    else
      match other with
      | some released =>
        if hasRoot released then appRoot released else .ok (entryFolder release.entry)
      | none => .ok (entryFolder release.entry)
  | none, some released =>
    if hasRoot released then appRoot released else .ok (entryFolder release.entry)
  | none, none => .ok (entryFolder release.entry)

/-- The white space that `trim` removes. -/
def isSpace (letter : Char) : Bool :=
  let code := letter.toNat
  (0x9 ≤ code && code ≤ 0xD) || code = 0x20 || code = 0xA0 ||
    code = 0x1680 || (0x2000 ≤ code && code ≤ 0x200A) || code = 0x2028 ||
    code = 0x2029 || code = 0x202F || code = 0x205F || code = 0x3000 ||
    code = 0xFEFF

def trim (text : Text) : Text :=
  (((text.dropWhile isSpace).reverse).dropWhile isSpace).reverse

/-- `Release <id>`, with the notes. -/
def releaseMessage (releaseId : Text) (notes : Option Text) : Text :=
  match trim (notes.getD []) with
  | [] => "Release ".toList ++ releaseId
  | notes => "Release ".toList ++ releaseId ++ ": ".toList ++ notes

/-- The live files with the entrypoint at its pinned version; `none` when
that version is gone. -/
def legacyEntries (store : Store) (pathPrefix : Text) (release : LegacyRelease) :
    Option (List FsEntry) :=
  let live := visibleEntries store pathPrefix
  match release.entryHash.filter (· ≠ []) with
  | none => some live
  | some hash =>
    match store.read release.entry (some hash) with
    | none => none
    | some pinned =>
      let adjusted := live.map fun entry =>
        if entry.path = release.entry then { pinned.entry with path := entry.path }
        else entry
      if release.entry ∈ adjusted.map FsEntry.path then some adjusted
      else some (adjusted ++ [{ pinned.entry with path := release.entry }])

variable (services : VcsServices)

/-- `buildLegacyReleaseCommit`: the commit's id, unless the release has to
be skipped. -/
def buildLegacyReleaseCommit (origin : Origin) (appId : Text)
    (release : LegacyRelease) (manifest : Option AppManifest) :
    Outcome (Option Text × Origin) := do
  let pathPrefix ← legacyPrefix manifest release
  match legacyEntries origin.store pathPrefix release with
  | none => return (none, origin)
  | some entries =>
    let snapshot := buildSnapshot services entries pathPrefix
    let saved := origin.history.saveSnapshot snapshot
    let parents := ((saved.readRef (appRefName appId)).map VcsRef.commit).toList
    let (commit, history) := createCommit services saved snapshot
      (parents.filter (· ≠ [])) (releaseMessage release.id release.notes)
      (release.createdBy.getD "migrate".toList)
    return (some commit.id, { origin with history := history })

def migrateRelease (appId : Text) (manifest : Option AppManifest)
    (origin : Origin) (release : LegacyRelease) : Outcome Unit × Origin :=
  let tag := tagRefName appId release.id
  if release.id = [] ∨ (origin.history.readRef tag).isSome then (.ok (), origin)
  else
    match buildLegacyReleaseCommit services origin appId release manifest with
    | .error thrown => (.error thrown, origin)
    | .ok (none, same) => (.ok (), same)
    | .ok (some commit, built) =>
      match writeTag built.history tag commit with
      | .error thrown => (.error thrown, built)
      | .ok tagged =>
        let origin := { built with history := tagged }
        match channelName release.channel with
        | .error thrown => (.error thrown, origin)
        | .ok channel =>
          let pointed := manifest.bind fun app => app.channels.lookup channel
          let channelRef := channelRefName appId channel
          if pointed = some release.id ∨ tagged.readRef channelRef = none then
            match moveChannel tagged channelRef commit with
            | .error thrown => (.error thrown, origin)
            | .ok moved => (.ok (), { origin with history := moved })
          else (.ok (), origin)

def migrateChannel (appId : Text) (origin : Origin) (pointer : Text × Text) :
    Outcome Unit × Origin :=
  match origin.history.readRef (tagRefName appId pointer.2) with
  | none => (.ok (), origin)
  | some tag =>
    let channelRef := channelRefName appId pointer.1
    let current := (origin.history.readRef channelRef).map VcsRef.commit
    if current = some tag.commit then (.ok (), origin)
    else
      match moveChannel origin.history channelRef tag.commit with
      | .error thrown => (.error thrown, origin)
      | .ok moved => (.ok (), { origin with history := moved })

def forEach {Item : Type} (act : Origin → Item → Outcome Unit × Origin) :
    List Item → Origin → Outcome Unit × Origin
  | [], origin => (.ok (), origin)
  | item :: items, origin =>
    match act origin item with
    | (.error thrown, reached) => (.error thrown, reached)
    | (.ok _, reached) => forEach act items reached

def migrateLegacyReleasesIfNeeded (origin : Origin) (appId : Text) : Outcome Unit × Origin :=
  let records := origin.legacyOf appId
  if records = [] then (.ok (), origin)
  else
    let manifest := origin.readApp appId
    let ordered := records.insertionSort fun first second => first.key ≤ second.key
    match forEach (migrateRelease services appId manifest) ordered origin with
    | (.error thrown, reached) => (.error thrown, reached)
    | (.ok _, reached) =>
      let pointers := (manifest.map (·.channels)).getD []
      match forEach (migrateChannel appId) pointers reached with
      | (.error thrown, reached) => (.error thrown, reached)
      | (.ok _, reached) =>
        (.ok (), { reached with
            legacy := reached.legacy.filter (·.1 ≠ appId) })

def missingCommit (commitId : Text) : ServiceError where
  message := "Missing commit for release: ".toList ++ commitId
  status := 404

def releaseIdForCommit (history : History) (appId commitId : Text) : Option Text :=
  let tags := history.listRefs ("tag/app/".toList ++ appId)
  let tagPrefix := "tag/app/".toList ++ appId ++ ['/']
  let ids := (tags.filter (·.commit = commitId)).filterMap fun ref =>
    if tagPrefix.isPrefixOf ref.name then some (ref.name.drop tagPrefix.length) else none
  ((ids.filter (· ≠ [])).insertionSort (· ≤ ·)).getLast?

/-- `resolveRelease`, once the records are migrated: a release tag, else a
channel, else a pointer of the manifest. -/
def lookupRelease (origin : Origin) (appId : Text) : Nat → Text → Ended (Option ResolvedRelease)
  | 0, _ => .endless
  | fuel + 1, name =>
    if name = [] then .answered none
    else
      match origin.history.readRef (tagRefName appId name) with
      | some tag =>
        match origin.history.readCommit tag.commit with
        | none => .threw (missingCommit tag.commit)
        | some commit => .answered (some {
            releaseId := name
            commitId := commit.id
            snapshotId := commit.snapshot })
      | none =>
        match origin.history.readRef (channelRefName appId name) with
        | some channel =>
          match origin.history.readCommit channel.commit with
          | none => .threw (missingCommit channel.commit)
          | some commit =>
            let pointed := (origin.readApp appId).bind fun app => app.channels.lookup name
            let named :=
              releaseIdForCommit origin.history appId commit.id <|> pointed
            .answered (some {
              releaseId :=
                if named.getD [] = [] then name else named.getD []
              commitId := commit.id
              snapshotId := commit.snapshot })
        | none =>
          if matchesChannel name then
            match (origin.readApp appId).bind fun app => app.channels.lookup name with
            | none => .answered none
            | some pointed =>
              if pointed ≠ [] ∧ pointed ≠ name then lookupRelease origin appId fuel pointed
              else .answered none
          else .answered none

def resolveRelease (fuel : Nat) (origin : Origin) (appId name : Text) :
    Ended (Option ResolvedRelease) × Origin :=
  match migrateLegacyReleasesIfNeeded services origin appId with
  | (.error thrown, reached) => (.threw thrown, reached)
  | (.ok _, reached) => (lookupRelease reached appId fuel name, reached)

/-- The commit that an installation is pinned to. -/
structure CommitPin where
  tag : Option Text
  commit : Text
  deriving DecidableEq

def unknownRelease (tag appId : Text) : ServiceError where
  message :=
    "Unknown release \"".toList ++ tag ++ "\" for app ".toList ++ appId ++
      " — re-release required".toList
  status := 404

def nothingToPin (appId : Text) : ServiceError where
  message := "No commit to pin for app ".toList ++ appId
  status := 404

/-- The commit of a ref, unless it is empty. -/
def refCommit (history : History) (name : Text) : Option Text :=
  ((history.readRef name).map VcsRef.commit).filter (· ≠ [])

/-- Without a release: the head of the app, else the head of the whole
workspace. -/
def headPin (origin : Origin) (appId : Text) : Ended CommitPin :=
  match refCommit origin.history (appRefName appId) with
  | some commit => .answered { tag := none, commit := commit }
  | none =>
    match refCommit origin.history "main".toList with
    | some commit => .answered { tag := none, commit := commit }
    | none => .threw (nothingToPin appId)

def resolveReleaseTag (fuel : Nat) (origin : Origin) (appId : Text) (tag : Option Text) :
    Ended CommitPin × Origin :=
  let named := tag.filter (· ≠ [])
  match resolveRelease services fuel origin appId (named.getD defaultChannel) with
  | (.endless, reached) => (.endless, reached)
  | (.threw thrown, reached) => (.threw thrown, reached)
  | (.answered (some release), reached) =>
    (.answered {
      tag := some release.releaseId
      commit := release.commitId }, reached)
  | (.answered none, reached) =>
    match named with
    | some name => (.threw (unknownRelease name appId), reached)
    | none => (headPin reached appId, reached)

end Aprovan.Apps
