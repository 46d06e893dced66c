import Aprovan.Apps.Promote
import Aprovan.Library.Keyed
import Aprovan.Library.Process

/-!
# The catalog of apps, statement by statement

An app has a record, an alias by its name, an entry in the index by id, a
directory row if it is public, perhaps a binding of its root and a vanity
claim, which every call writes one after the other.  A manifest is modelled as
it is saved; times, roles, workflows and the fields that no call reads are left
out.
-/

namespace Aprovan.Apps.Catalog

open Aprovan.Library Aprovan.Server Aprovan.Fs

/-- An authored snapshot; `others` are the fields that nothing projects. -/
structure AppYaml where
  (slug title description : Option Text)
  capabilities : Option (List Text)
  others : Text
  deriving DecidableEq

structure AppManifest where
  (appId name slug root : Text)
  entry : Text
  (title description : Option Text)
  declared : Option AppYaml
  isPublic : Bool
  allowedTools : List Text
  createdBy : Text
  deriving DecidableEq

structure DirectoryEntry where
  (name slug workspaceId : Text)
  (title description liveRelease : Option Text)
  deriving DecidableEq

structure AppRow where
  workspaceId : Text
  manifest : AppManifest

def AppRow.key (row : AppRow) : Text × Text :=
  (row.workspaceId, row.manifest.appId)

structure ClaimRow where
  (slug appId workspaceId : Text)
  deriving DecidableEq

/-- The documents about apps.  Aliases and root bindings belong to a
workspace, locations, claims and the directory to the deployment; `minted`
counts the ids that were drawn. -/
structure CatalogStores where
  minted : Nat
  apps : Keyed AppRow.key
  aliases : Text × Text → Option Text
  bindings : Text × Text → Option Text
  locations : Text → Option (Text × Text)
  claims : Keyed ClaimRow.slug
  directory : Text → Option DirectoryEntry
  /-- The files of each workspace. -/
  files : Text → Store

def CatalogStores.empty (files : Text → Store) : CatalogStores where
  minted := 0
  apps := Keyed.empty
  aliases := fun _ => none
  bindings := fun _ => none
  locations := fun _ => none
  claims := Keyed.empty
  directory := fun _ => none
  files := files

def CatalogStores.appAt (stores : CatalogStores) (workspaceId appId : Text) : Option AppManifest :=
  (stores.apps.find? (workspaceId, appId)).map (·.manifest)

/-- The keys under which a workspace has records, in their order. -/
def CatalogStores.appKeys (stores : CatalogStores) (workspaceId : Text) : List Text :=
  ((stores.apps.rows.filter fun row => row.workspaceId = workspaceId).map
    fun row => row.manifest.appId).insertionSort (· ≤ ·)

inductive CatalogStatement where
  | mintAppId
  | listApps (workspaceId : Text)
  | readApp (workspaceId appId : Text)
  | writeApp (workspaceId : Text) (manifest : AppManifest)
  | deleteApp (workspaceId appId : Text)
  | readAlias (workspaceId name : Text)
  | writeAlias (workspaceId name appId : Text)
  | deleteAlias (workspaceId name : Text)
  | readBinding (workspaceId root : Text)
  | writeBinding (workspaceId root appId : Text)
  | deleteBinding (workspaceId root : Text)
  | readLocation (appId : Text)
  | writeLocation (appId workspaceId name : Text)
  | deleteLocation (appId : Text)
  | readClaim (slug : Text)
  | writeClaim (claim : ClaimRow)
  | deleteClaim (slug : Text)
  | resolveRelease (workspaceId appId : Text)
  | writeDirectory (appId : Text) (entry : DirectoryEntry)
  | deleteDirectory (appId : Text)
  | listFiles (workspaceId pathPrefix : Text)
  | readFile (workspaceId path : Text)
  | writeFile (workspaceId path content mimeType : Text)
  | removePrefix (workspaceId pathPrefix : Text)
  deriving DecidableEq

abbrev CatalogStatement.Answer : CatalogStatement → Type
  | .mintAppId => Text
  | .listApps _ => List Text
  | .readApp _ _ => Option AppManifest
  | .writeApp _ _ => Unit
  | .deleteApp _ _ => Bool
  | .readAlias _ _ => Option Text
  | .writeAlias _ _ _ => Unit
  | .deleteAlias _ _ => Unit
  | .readBinding _ _ => Option Text
  | .writeBinding _ _ _ => Unit
  | .deleteBinding _ _ => Unit
  | .readLocation _ => Option (Text × Text)
  | .writeLocation _ _ _ => Unit
  | .deleteLocation _ => Unit
  | .readClaim _ => Option ClaimRow
  | .writeClaim _ => Unit
  | .deleteClaim _ => Unit
  | .resolveRelease _ _ => Option Text
  | .writeDirectory _ _ => Unit
  | .deleteDirectory _ => Unit
  | .listFiles _ _ => List FsEntry
  | .readFile _ _ => Option FsRow
  | .writeFile _ _ _ _ => Unit
  | .removePrefix _ _ => Nat

/-- Which texts are ids, the ids that are drawn, the release that is live for
an app, the content hash, the clock of a file write, and the parser of
`app.yaml`. -/
structure CatalogServices where
  isAppId : Text → Bool
  mint : Nat → Text
  liveRelease : Text → Text → Option Text
  sha256 : Text → Text
  now : Nat
  loadAppYaml : Text → Option AppYaml

abbrev CatalogCall (Value : Type) :=
  Process CatalogStatement.Answer ServiceError Value

def query (statement : CatalogStatement) : CatalogCall statement.Answer :=
  Process.perform statement

def orRaise {Value : Type} : Outcome Value → CatalogCall Value
  | .ok value => pure value
  | .error thrown => Process.raise thrown

variable (services : CatalogServices)

def executeStatement : (statement : CatalogStatement) → CatalogStores →
      Except ServiceError statement.Answer × CatalogStores
  | .mintAppId, stores =>
    (.ok (services.mint stores.minted), { stores with minted := stores.minted + 1 })
  | .listApps workspaceId, stores => (.ok (stores.appKeys workspaceId), stores)
  | .readApp workspaceId appId, stores => (.ok (stores.appAt workspaceId appId), stores)
  | .writeApp workspaceId manifest, stores =>
    (.ok (), { stores with apps := stores.apps.put ⟨workspaceId, manifest⟩ })
  | .deleteApp workspaceId appId, stores =>
    (.ok (stores.apps.find? (workspaceId, appId)).isSome,
      { stores with apps := stores.apps.erase (workspaceId, appId) })
  | .readAlias workspaceId name, stores => (.ok (stores.aliases (workspaceId, name)), stores)
  | .writeAlias workspaceId name appId, stores =>
    (.ok (), { stores with
      aliases := Function.update stores.aliases (workspaceId, name) (some appId) })
  | .deleteAlias workspaceId name, stores =>
    (.ok (), { stores with
      aliases := Function.update stores.aliases (workspaceId, name) none })
  | .readBinding workspaceId root, stores => (.ok (stores.bindings (workspaceId, root)), stores)
  | .writeBinding workspaceId root appId, stores =>
    (.ok (), { stores with
      bindings := Function.update stores.bindings (workspaceId, root) (some appId) })
  | .deleteBinding workspaceId root, stores =>
    (.ok (), { stores with
      bindings := Function.update stores.bindings (workspaceId, root) none })
  | .readLocation appId, stores => (.ok (stores.locations appId), stores)
  | .writeLocation appId workspaceId name, stores =>
    (.ok (), { stores with
      locations := Function.update stores.locations appId (some (workspaceId, name)) })
  | .deleteLocation appId, stores =>
    (.ok (), { stores with
      locations := Function.update stores.locations appId none })
  | .readClaim slug, stores => (.ok (stores.claims.find? slug), stores)
  | .writeClaim claim, stores => (.ok (), { stores with claims := stores.claims.put claim })
  | .deleteClaim slug, stores => (.ok (), { stores with claims := stores.claims.erase slug })
  | .resolveRelease workspaceId appId, stores =>
    (.ok (services.liveRelease workspaceId appId), stores)
  | .writeDirectory appId entry, stores =>
    (.ok (), { stores with
      directory := Function.update stores.directory appId (some entry) })
  | .deleteDirectory appId, stores =>
    (.ok (), { stores with
      directory := Function.update stores.directory appId none })
  | .listFiles workspaceId pathPrefix, stores =>
    (.ok ((stores.files workspaceId).listAll pathPrefix), stores)
  | .readFile workspaceId path, stores => (.ok ((stores.files workspaceId).read path none), stores)
  | .writeFile workspaceId path content mimeType, stores =>
    (.ok (), { stores with
      files := Function.update stores.files workspaceId
        ((stores.files workspaceId).write services.sha256 services.now path
          content mimeType none) })
  | .removePrefix workspaceId pathPrefix, stores =>
    (.ok ((stores.files workspaceId).removePrefix pathPrefix).1,
      { stores with
        files := Function.update stores.files workspaceId
          ((stores.files workspaceId).removePrefix pathPrefix).2 })

def unknownApp (ref : Text) : ServiceError where
  message :=
    if ref = [] then "Unknown app".toList else "Unknown app: ".toList ++ ref
  status := 404

variable (workspaceId : Text)

def resolveAppRef (ref : Text) : CatalogCall Text := do
  if ref = [] then Process.raise (unknownApp ref)
  else if services.isAppId ref then pure ref
  else
    match ← query (.readAlias workspaceId ref) with
    | none => Process.raise (unknownApp ref)
    | some appId => pure appId

def setAlias (name appId : Text) : CatalogCall Unit := do
  match ← query (.readAlias workspaceId name) with
  | none => query (.writeAlias workspaceId name appId)
  | some holder =>
    if holder ≠ appId then Process.raise (nameHeld name holder) else pure ()

def resolveAppLocation (appId : Text) : CatalogCall (Text × Text) := do
  if services.isAppId appId then
    match ← query (.readLocation appId) with
    | none => Process.raise (unknownApp appId)
    | some location => pure location
  else Process.raise (unknownApp [])

def badSlug : ServiceError where
  message := "slug must match /^[a-z0-9][a-z0-9-]\x7b0,63\x7d$/u".toList
  status := 400

def ulidSlug : ServiceError where
  message := "ULID-shaped slugs are reserved".toList
  status := 400

def assertValidSlug (slug : Text) : Outcome Unit :=
  if matchesName slug = false then .error badSlug
  else if services.isAppId slug then .error ulidSlug
  else .ok ()

def globalSlugTaken (slug appId : Text) : ServiceError where
  message :=
    "Global slug \"".toList ++ slug ++ "\" is already held by app ".toList ++ appId
  status := 409

def claimGlobalSlug (slug appId workspaceId : Text) : CatalogCall Unit := do
  orRaise (assertValidSlug services slug)
  match ← query (.readClaim slug) with
  | none => query (.writeClaim ⟨slug, appId, workspaceId⟩)
  | some claim =>
    if claim.appId ≠ appId then Process.raise (globalSlugTaken slug claim.appId)
    else pure ()

def releaseGlobalSlug (slug appId : Text) : CatalogCall Unit := do
  match ← query (.readClaim slug) with
  | none => pure ()
  | some claim =>
    if claim.appId ≠ appId then Process.raise (slugHeld slug claim.appId)
    else query (.deleteClaim slug)

def deploymentTenant : Text :=
  "__deployment__".toList

def reservedTenant : ServiceError where
  message :=
    ("\"__deployment__\" is a reserved deployment scope and cannot be used " ++
      "as a workspace id").toList
  status := 400

def assertNotDeploymentTenant : Outcome Unit :=
  if workspaceId = deploymentTenant then .error reservedTenant else .ok ()

def toEntry (manifest : AppManifest) (liveRelease : Option Text) : DirectoryEntry where
  name := manifest.name
  slug := manifest.slug
  workspaceId := workspaceId
  title := manifest.title
  description := manifest.description
  liveRelease := liveRelease

def syncDirectoryEntry (manifest : AppManifest) : CatalogCall Unit := do
  orRaise (assertNotDeploymentTenant workspaceId)
  if manifest.isPublic then
    let live ← query (.resolveRelease workspaceId manifest.appId)
    query (.writeDirectory manifest.appId (toEntry workspaceId manifest live))
  else
    query (.deleteDirectory manifest.appId)
    releaseGlobalSlug manifest.slug manifest.appId

def saveApp (manifest : AppManifest) : CatalogCall Unit := do
  query (.writeApp workspaceId manifest)
  setAlias workspaceId manifest.name manifest.appId
  query (.writeLocation manifest.appId workspaceId manifest.name)
  syncDirectoryEntry workspaceId manifest

/-- `removeApp`; the data of the app, which it may delete too, is left
out. -/
def removeApp (appId : Text) : CatalogCall Bool := do
  let manifest ← query (.readApp workspaceId appId)
  let removed ← query (.deleteApp workspaceId appId)
  match manifest with
  | none => pure removed
  | some manifest => do
      query (.deleteAlias workspaceId manifest.name)
      query (.deleteLocation manifest.appId)
      if manifest.root ≠ [] then
        query (.deleteBinding workspaceId manifest.root)
      releaseGlobalSlug manifest.slug manifest.appId
      query (.deleteDirectory manifest.appId)
      pure removed

/-- A record that is gone when it is read is left out. -/
def readListed (apps : List AppManifest) (appId : Text) : CatalogCall (List AppManifest) := do
  match ← query (.readApp workspaceId appId) with
  | none => pure apps
  | some manifest => pure (apps ++ [manifest])

def listApps (workspaceId : Text) : CatalogCall (List AppManifest) := do
  let keys ← query (.listApps workspaceId)
  keys.foldlM (readListed workspaceId) []

variable (root : Text)

def rootTaken (app : AppManifest) : ServiceError where
  message :=
    "App root \"".toList ++ root ++
      "\" overlaps existing app \"".toList ++ app.name ++ "\" (".toList ++
      app.appId ++ ") at \"".toList ++ app.root ++ "\"".toList
  status := 409

/-- The app stands in the way of a root for another app. -/
def AppManifest.blocks (app : AppManifest) (root : Text) (exceptAppId : Option Text) : Bool :=
  exceptAppId ≠ some app.appId ∧ app.root ≠ [] ∧ rootsOverlap root app.root

def assertRootAvailable (exceptAppId : Option Text) : CatalogCall Unit := do
  let normalized ← orRaise (workspacePath (some root) "root".toList)
  let apps ← listApps workspaceId
  match apps.find? (·.blocks normalized exceptAppId) with
  | none => pure ()
  | some app => Process.raise (rootTaken normalized app)

/-- The root and entry that the `entry` or `dir` argument resolves to. -/
structure PublishTarget where
  (root entry : Text)
  canonical : workspacePath (some root) "root".toList = .ok root

/-- The arguments of a publish that its checks have read. -/
structure PublishArgs where
  name : Text
  app : Option Text
  target : Option PublishTarget
  (title description : Option Text)
  isPublic : Option Bool
  allowedTools : List Text
  userId : Text

def useRename (existing : AppManifest) : ServiceError where
  message :=
    "App ".toList ++ existing.appId ++ " is aliased as \"".toList ++
      existing.name ++
      "\"; use apps.rename to change the alias".toList
  status := 400

def publishedApp (args : PublishArgs) : CatalogCall (Option AppManifest) :=
  Process.rescue (fun _ => do
      match ← query (.readAlias workspaceId args.name) with
      | none => pure none
      | some holder => query (.readApp workspaceId holder)) do
    let appId ←
      resolveAppRef services workspaceId (args.app.getD args.name)
    query (.readApp workspaceId appId)

def conventionalEntry : Text :=
  root ++ "/index.tsx".toList

/-- `resolvePublishRoot`, as far as it depends on the app. -/
def publishRoot (args : PublishArgs) (existing : Option AppManifest) : Text × Text :=
  match args.target, existing with
  | some target, _ => (target.root, target.entry)
  | none, some app => (app.root, app.entry)
  | none, none => (slugRoot args.name, conventionalEntry (slugRoot args.name))

def publishedManifest (args : PublishArgs) (existing : Option AppManifest)
    (yaml : Option AppYaml) (appId : Text) : AppManifest :=
  let (root, entry) := publishRoot args existing
  { appId := appId
    name := args.name
    slug := args.name
    root := root
    entry := entry
    title := (args.title.or (yaml.bind AppYaml.title)).or (existing.bind AppManifest.title)
    description := (args.description.or (yaml.bind AppYaml.description)).or
      (existing.bind AppManifest.description)
    declared := yaml.or (existing.bind AppManifest.declared)
    isPublic := args.isPublic.getD (existing.any AppManifest.isPublic)
    allowedTools := args.allowedTools
    createdBy := (existing.map AppManifest.createdBy).getD args.userId }

/-- `loadRootYaml`; no `app.yaml` reads as an empty one. -/
def loadRootYaml : CatalogCall (Option AppYaml) := do
  match ← query (.readFile workspaceId (root ++ "/app.yaml".toList)) with
  | none => pure (services.loadAppYaml "\x7b\x7d".toList)
  | some file => pure (services.loadAppYaml file.content)

def assertPublishable (name : Text) : Option AppManifest → CatalogCall Unit
  | none => do
      match ← query (.readAlias workspaceId name) with
      | none => pure ()
      | some holder => Process.raise (nameHeld name holder)
  | some app =>
    if app.name ≠ name then Process.raise (useRename app) else pure ()

def publishApp (args : PublishArgs) : CatalogCall AppManifest := do
  let _ ← orRaise (appName args.name)
  let existing ← publishedApp services workspaceId args
  assertPublishable workspaceId args.name existing
  let root := (publishRoot args existing).1
  assertRootAvailable workspaceId root (existing.map AppManifest.appId)
  let yaml ← loadRootYaml services workspaceId root
  let appId ←
    match existing with
    | some app => pure app.appId
    | none => query .mintAppId
  let manifest := publishedManifest args existing yaml appId
  saveApp workspaceId manifest
  pure manifest

def requireApp (ref : Text) : CatalogCall AppManifest := do
  let appId ← resolveAppRef services workspaceId ref
  match ← query (.readApp workspaceId appId) with
  | none => Process.raise (unknownApp ref)
  | some manifest => pure manifest

/-- `apps.rename`. -/
def renameAlias (ref newName : Text) : CatalogCall AppManifest := do
  let manifest ← requireApp services workspaceId ref
  let newName ← orRaise (appName newName)
  if newName = manifest.name then pure manifest
  else
    setAlias workspaceId newName manifest.appId
    query (.deleteAlias workspaceId manifest.name)
    let updated := { manifest with name := newName }
    saveApp workspaceId updated
    pure updated

structure ReconcileInput where
  (workspaceId root : Text)
  yaml : AppYaml
  expectedAppId : Option Text
  actor : Text

structure ReconcileResult where
  appId : Text
  (created changed : Bool)

def dropTrailingSlashes (path : Text) : Text :=
  (path.reverse.dropWhile (· = '/')).reverse

def rootBasename : Text :=
  ((dropTrailingSlashes root).reverse.takeWhile (· ≠ '/')).reverse

def foreignIdError (appId : Text) : ServiceError where
  message :=
    "Foreign or duplicate app id ".toList ++ appId ++ " for root ".toList ++ root
  status := 400

def slugMismatch (declared slug : Text) : ServiceError where
  message :=
    "slug \"".toList ++ declared ++
      "\" does not match directory basename \"".toList ++ slug ++
      "\"; the directory name is authoritative".toList
  status := 400

def boundElsewhere (appId bound root : Text) : ServiceError where
  message :=
    "App id ".toList ++ appId ++ " is bound to root ".toList ++ bound ++ ", not ".toList ++ root
  status := 400

def assertSlugAvailable (slug appId : Text) : CatalogCall Unit := do
  match ← query (.readAlias workspaceId slug) with
  | none => pure ()
  | some holder =>
    if holder ≠ appId then Process.raise (nameHeld slug holder) else pure ()

def resolveSlug (yaml : AppYaml) : Outcome Text := do
  let slug := rootBasename root
  match yaml.slug with
  | some declared =>
    if declared ≠ slug then .error (slugMismatch declared slug) else .ok ()
  | none => .ok ()
  assertValidSlug services slug
  .ok slug

/-- `projectFromYaml` on the record of an app, or on a bare new one. -/
def projectFromYaml (base : AppManifest) (root slug : Text) (yaml : AppYaml) : AppManifest where
  appId := base.appId
  name := slug
  slug := slug
  root := root
  entry := if base.entry = [] then conventionalEntry root else base.entry
  title := yaml.title
  description := yaml.description
  declared := some yaml
  isPublic := base.isPublic
  allowedTools := yaml.capabilities.getD base.allowedTools
  createdBy := base.createdBy

/-- What `firstSight` projects on. -/
def bareManifest (appId actor : Text) : AppManifest where
  appId := appId
  name := []
  slug := []
  root := []
  entry := []
  title := none
  description := none
  declared := none
  isPublic := false
  allowedTools := []
  createdBy := actor

def firstSight (slug : Text) (yaml : AppYaml) (actor : Text) : CatalogCall ReconcileResult := do
  let appId ← query .mintAppId
  assertSlugAvailable workspaceId slug appId
  let record := projectFromYaml (bareManifest appId actor) root slug yaml
  saveApp workspaceId record
  query (.writeBinding workspaceId root appId)
  pure ⟨appId, true, true⟩

def locateExpected (appId : Text) : CatalogCall (Text × Text) :=
  Process.rescue (fun thrown =>
      if thrown.status = 404 then Process.raise (foreignIdError root appId)
      else Process.raise thrown)
    (resolveAppLocation services appId)

def renameApp (newRoot newSlug : Text) (yaml : AppYaml) (expectedAppId : Text) :
    CatalogCall ReconcileResult := do
  let location ← locateExpected services newRoot expectedAppId
  if location.1 ≠ workspaceId then Process.raise (foreignIdError newRoot expectedAppId)
  else
    match ← query (.readApp workspaceId expectedAppId) with
    | none => Process.raise (foreignIdError newRoot expectedAppId)
    | some existing => do
        assertSlugAvailable workspaceId newSlug expectedAppId
        let updated := projectFromYaml existing newRoot newSlug yaml
        setAlias workspaceId newSlug expectedAppId
        if existing.slug ≠ [] ∧ existing.slug ≠ newSlug then
          query (.deleteAlias workspaceId existing.slug)
        query (.writeLocation expectedAppId workspaceId newSlug)
        query (.writeBinding workspaceId newRoot expectedAppId)
        if existing.root ≠ [] ∧ existing.root ≠ newRoot then
          query (.deleteBinding workspaceId existing.root)
        saveApp workspaceId updated
        pure ⟨expectedAppId, false, true⟩

def updateBound (slug : Text) (yaml : AppYaml) (appId : Text) : CatalogCall ReconcileResult := do
  match ← query (.readApp workspaceId appId) with
  | none => Process.raise (foreignIdError root appId)
  | some existing => do
      if existing.root ≠ [] ∧ existing.root ≠ root then
        Process.raise (boundElsewhere appId existing.root root)
      else if existing.declared = some yaml ∧ existing.slug = slug then pure ⟨appId, false, false⟩
      else
        assertSlugAvailable workspaceId slug appId
        saveApp workspaceId (projectFromYaml existing root slug yaml)
        query (.writeBinding workspaceId root appId)
        pure ⟨appId, false, true⟩

def reconcileApp (input : ReconcileInput) : CatalogCall ReconcileResult := do
  let slug ← orRaise (resolveSlug services input.root input.yaml)
  match ← query (.readBinding input.workspaceId input.root) with
  | none =>
    match input.expectedAppId with
    | some expected => renameApp services input.workspaceId input.root slug input.yaml expected
    | none => firstSight input.workspaceId input.root slug input.yaml input.actor
  | some appId =>
    match input.expectedAppId with
    | some expected =>
      if expected ≠ appId then Process.raise (foreignIdError input.root expected)
      else updateBound input.workspaceId input.root slug input.yaml appId
    | none => updateBound input.workspaceId input.root slug input.yaml appId

end Aprovan.Apps.Catalog
