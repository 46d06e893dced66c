import Aprovan.Fs.Path

/-!
# App records

The records of a workspace's apps: the manifest by app id, the mutable
name-to-id alias, the root bindings, and the vanity claims of the
deployment.  `saveApp` and `removeApp` write them one after the other, so a
failure leaves what came before.
-/

namespace Aprovan.Apps

open Aprovan.Library Aprovan.Server Aprovan.Fs

/-- A manifest as it is read back: `root` filled in from the older fields. -/
structure AppRecord where
  (appId name : Text)
  slug : Option Text
  title : Text
  (description root : Option Text)
  entry : Text
  paths : List Text
  createdBy : Text
  deriving DecidableEq

/-- The app records of a workspace and the vanity claims.  The keyed tables
hold at most one row a key, by the way they are written. -/
structure Registry where
  apps : List AppRecord
  aliases : List (Text × Text)
  rootBindings : List (Text × Text)
  slugClaims : List (Text × Text)

def setRow (table : List (Text × Text)) (key value : Text) : List (Text × Text) :=
  table.filter (·.1 ≠ key) ++ [(key, value)]

def dropRow (table : List (Text × Text)) (key : Text) : List (Text × Text) :=
  table.filter (·.1 ≠ key)

theorem dropRow_eq_self_iff {table : List (Text × Text)} {key : Text} :
    dropRow table key = table ↔ table.lookup key = none := by
  rw [dropRow, List.filter_eq_self, List.lookup_eq_none_iff]
  constructor
  · intro different row member
    have apart := different row member
    simp only [decide_eq_true_eq] at apart
    exact bne_iff_ne.mpr (Ne.symm apart)
  · intro absent row member
    have apart := absent row member
    simp only [decide_eq_true_eq]
    exact (bne_iff_ne.mp apart).symm

theorem dropRow_setRow {table : List (Text × Text)} {key value : Text}
    (absent : table.lookup key = none) :
    dropRow (setRow table key value) key = table := by
  rw [setRow, dropRow, List.filter_append, List.filter_filter]
  simpa [dropRow] using dropRow_eq_self_iff.mpr absent

namespace Registry

/-- `readApp(appId)`. -/
def readApp (registry : Registry) (appId : Text) : Option AppRecord :=
  registry.apps.find? (·.appId = appId)

/-- `readAlias(name)`. -/
def readAlias (registry : Registry) (name : Text) : Option Text :=
  registry.aliases.lookup name

end Registry

def rootOverlaps (normalized : Text) (app : AppRecord) (other : Text) : ServiceError where
  message :=
    "App root \"".toList ++ normalized ++
      "\" overlaps existing app \"".toList ++ app.name ++ "\" (".toList ++
      app.appId ++ ") at \"".toList ++ other ++ "\"".toList
  status := 409

/-- `app.root ?? app.paths?.[0]`. -/
def AppRecord.declaredRoot (app : AppRecord) : Option Text :=
  app.root <|> app.paths.head?

def rootsOverlap (first second : Text) : Bool :=
  underPath first second || underPath second first

def overlappingApp (apps : List AppRecord) (root : Text) (exceptAppId : Option Text) :
    Option (AppRecord × Text) :=
  apps.findSome? fun app =>
    if exceptAppId = some app.appId then none
    else
      match app.declaredRoot with
      | none => none
      | some other =>
        if other ≠ [] ∧ rootsOverlap root other = true then some (app, other) else none

/-- Reject a root that equals, contains or is contained in the root of
another app. -/
def assertRootAvailable (registry : Registry) (root : Text) (exceptAppId : Option Text) :
    Outcome Unit := do
  let normalized ← workspacePath (some root) "root".toList
  match overlappingApp registry.apps normalized exceptAppId with
  | none => .ok ()
  | some (app, other) => .error (rootOverlaps normalized app other)

def nameHeld (name appId : Text) : ServiceError where
  message :=
    "App name \"".toList ++ name ++ "\" is already held by app ".toList ++ appId
  status := 409

def slugHeld (slug appId : Text) : ServiceError where
  message :=
    "Global slug \"".toList ++ slug ++ "\" is held by app ".toList ++ appId
  status := 403

def releaseGlobalSlug (registry : Registry) (slug appId : Text) : Outcome Unit × Registry :=
  match registry.slugClaims.lookup slug with
  | none => (.ok (), registry)
  | some holder =>
    if holder ≠ appId then (.error (slugHeld slug holder), registry)
    else (.ok (), { registry with slugClaims := dropRow registry.slugClaims slug })

def AppRecord.claimedSlug (app : AppRecord) : Text :=
  app.slug.getD app.name

/-- Persist a private record: the manifest, then its alias, then the claim
released.  Each write stays when a later one throws. -/
def saveApp (registry : Registry) (record : AppRecord) : Outcome Unit × Registry :=
  let stored : Registry := { registry with
      apps := registry.apps.filter (·.appId ≠ record.appId) ++ [record] }
  match stored.readAlias record.name with
  | none =>
    releaseGlobalSlug
      { stored with
        aliases := setRow stored.aliases record.name record.appId }
      record.claimedSlug record.appId
  | some holder =>
    if holder ≠ record.appId then (.error (nameHeld record.name holder), stored)
    else releaseGlobalSlug stored record.claimedSlug record.appId

def removeApp (registry : Registry) (appId : Text) : Outcome Unit × Registry :=
  let manifest := registry.readApp appId
  let deleted : Registry := {
    registry with apps := registry.apps.filter (·.appId ≠ appId) }
  match manifest with
  | none => (.ok (), deleted)
  | some record =>
    let unnamed : Registry := {
      deleted with aliases := dropRow deleted.aliases record.name }
    let unbound : Registry :=
      match record.root with
      | none => unnamed
      | some root => { unnamed with
            rootBindings := dropRow unnamed.rootBindings root }
    releaseGlobalSlug unbound record.claimedSlug record.appId

section

variable {registry : Registry} {record : AppRecord} {holder : Text}

/-- The records after the manifest and the alias were written. -/
def Registry.enter (registry : Registry) (record : AppRecord) : Registry where
  apps := registry.apps.filter (·.appId ≠ record.appId) ++ [record]
  aliases := setRow registry.aliases record.name record.appId
  rootBindings := registry.rootBindings
  slugClaims := registry.slugClaims

theorem saveApp_of_unnamed (unnamed : registry.readAlias record.name = none) :
    saveApp registry record = releaseGlobalSlug (registry.enter record) record.claimedSlug
        record.appId := by
  rw [Registry.readAlias] at unnamed
  simp only [saveApp, Registry.readAlias, unnamed]
  rfl

theorem saveApp_of_slugFree (unnamed : registry.readAlias record.name = none) (free : ∀ other,
      registry.slugClaims.lookup record.claimedSlug = some other → other = record.appId) :
    (saveApp registry record).1 = .ok () := by
  rw [saveApp_of_unnamed unnamed, releaseGlobalSlug]
  split
  · rfl
  · next other claim =>
      rw [if_neg (not_not.mpr (free other claim))]

theorem releaseGlobalSlug_of_held
    (claim : registry.slugClaims.lookup record.claimedSlug = some holder)
    (different : holder ≠ record.appId) :
    releaseGlobalSlug registry record.claimedSlug record.appId =
      (.error (slugHeld record.claimedSlug holder), registry) := by
  rw [releaseGlobalSlug, claim]
  exact if_pos different

theorem saveApp_of_slugHeld (unnamed : registry.readAlias record.name = none)
    (claim : registry.slugClaims.lookup record.claimedSlug = some holder)
    (different : holder ≠ record.appId) :
    saveApp registry record = (.error (slugHeld record.claimedSlug holder),
        registry.enter record) := by
  have entered :
      (registry.enter record).slugClaims.lookup record.claimedSlug = some holder := claim
  rw [saveApp_of_unnamed unnamed, releaseGlobalSlug_of_held entered different]

theorem removeApp_enter {root : Text} (unnamed : registry.readAlias record.name = none)
    (fresh : registry.readApp record.appId = none) (rooted : record.root = some root)
    (claim : registry.slugClaims.lookup record.claimedSlug = some holder)
    (different : holder ≠ record.appId) :
    (removeApp (registry.enter record) record.appId).2 = { registry with
        rootBindings := dropRow registry.rootBindings root } := by
  have unknown : registry.apps.filter (·.appId ≠ record.appId) = registry.apps := by
    rw [Registry.readApp, List.find?_eq_none] at fresh
    rw [List.filter_eq_self]
    intro app isApp
    simpa using fresh app isApp
  have stored : (registry.enter record).readApp record.appId = some record := by
    rw [Registry.readApp] at fresh ⊢
    simp only [Registry.enter, unknown, List.find?_append, fresh, Option.none_or]
    simp
  have forgotten :
      (registry.enter record).apps.filter (·.appId ≠ record.appId) = registry.apps := by
    simp only [Registry.enter, unknown, List.filter_append]
    simp
  rw [Registry.readAlias] at unnamed
  have unaliased : dropRow (registry.enter record).aliases record.name = registry.aliases :=
    dropRow_setRow unnamed
  have removed :
      removeApp (registry.enter record) record.appId = releaseGlobalSlug { registry with
            rootBindings := dropRow registry.rootBindings root }
          record.claimedSlug record.appId := by
    simp only [removeApp, stored, rooted, forgotten, unaliased]
    rfl
  have stillHeld :
      ({ registry with
          rootBindings := dropRow registry.rootBindings root } :
        Registry).slugClaims.lookup record.claimedSlug = some holder :=
    claim
  rw [removed, releaseGlobalSlug_of_held stillHeld different]

end

end Aprovan.Apps
