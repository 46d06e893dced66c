import Aprovan.Apps.CatalogIndexes

/-!
# Creating apps side by side

The personal app is created when it is first needed, a subtree is promoted, a
publish of a new name makes an app, and so does a reconcile of a new root.  Any
number of these calls run in one workspace; a step is one statement of one
call.
-/

namespace Aprovan.Apps.Catalog

open Aprovan.Library Aprovan.Server Aprovan.Fs

def personalSlug : Text :=
  "personal".toList

def personalRoot : Text :=
  slugRoot personalSlug

def defaultAllowedTools : List Text :=
  ["vfs.*".toList, "keyvalue.*".toList]

variable (workspaceId : Text)

def readPersonal : CatalogCall (Option AppManifest) := do
  match ← query (.readAlias workspaceId personalSlug) with
  | none => pure none
  | some holder => query (.readApp workspaceId holder)

def personalManifest (appId actor : Text) : AppManifest where
  appId := appId
  name := personalSlug
  slug := personalSlug
  root := personalRoot
  entry := conventionalEntry personalRoot
  title := some "Personal".toList
  description := none
  declared := none
  isPublic := false
  allowedTools := defaultAllowedTools
  createdBy := actor

/-- The alias is held: another call was faster, and its app is read. -/
def readWinner (thrown : ServiceError) : CatalogCall AppManifest := do
  if thrown.status = 409 then
    match ← readPersonal workspaceId with
    | some winner => pure winner
    | none => Process.raise thrown
  else Process.raise thrown

def ensurePersonalApp (actor : Text) : CatalogCall AppManifest := do
  match ← readPersonal workspaceId with
  | some existing => pure existing
  | none => do
      assertRootAvailable workspaceId personalRoot none
      let appId ← query .mintAppId
      Process.rescue (readWinner workspaceId) do
        saveApp workspaceId (personalManifest appId actor)
        pure (personalManifest appId actor)

def copyListed (plan : PromotePlan) (entry : FsEntry) : CatalogCall Unit := do
  match ← query (.readFile workspaceId entry.path) with
  | none => pure ()
  | some file => query (.writeFile workspaceId (plan.target entry.path) file.content file.mimeType)

/-- `resolveAppEntry(root)` with its failures caught. -/
def resolveRootEntry (root : Text) : CatalogCall Text := do
  match ← query (.readFile workspaceId root) with
  | some _ => pure root
  | none => do
      let entries ← query (.listFiles workspaceId root)
      let below := root ++ ['/']
      let names := (entries.map FsEntry.path).filterMap fun path =>
        if below.isPrefixOf path ∧ '/' ∉ path.drop below.length then some (path.drop below.length)
        else none
      match entryCandidates.find? (· ∈ names) with
      | some conventional => pure (below ++ conventional)
      | none =>
        match names.filter (".tsx".toList.isSuffixOf ·) with
        | [widget] => pure (below ++ widget)
        | _ => pure (conventionalEntry root)

variable (services : CatalogServices)

/-- The snapshot at the new root; a missing or invalid one is none. -/
def loadPromotedYaml (workspaceId root : Text) : CatalogCall (Option AppYaml) := do
  match ← query (.readFile workspaceId (root ++ "/app.yaml".toList)) with
  | none => pure none
  | some file => pure (services.loadAppYaml file.content)

def promotedManifest (workspaceId : Text) (plan : PromotePlan) (actor : Text) :
    CatalogCall AppManifest := do
  let entry ←
    Process.rescue (fun _ => pure (conventionalEntry plan.root))
      (resolveRootEntry workspaceId plan.root)
  let yaml ← loadPromotedYaml services workspaceId plan.root
  let appId ← query .mintAppId
  pure {
    appId := appId
    name := plan.slug
    slug := plan.slug
    root := plan.root
    entry := entry
    title := some ((yaml.bind AppYaml.title).getD plan.slug)
    description := yaml.bind AppYaml.description
    declared := yaml
    isPublic := false
    allowedTools := defaultAllowedTools
    createdBy := actor }

/-- The rollback of a promotion whose copy is done; what it throws itself is
dropped. -/
def undoPromotion {Value : Type} (workspaceId root : Text)
    (minted : Option Text) (thrown : ServiceError) :
    CatalogCall Value := do
  match minted with
  | none => pure ()
  | some appId => do
      let _ ← Process.rescue (fun _ => pure false) (removeApp workspaceId appId)
  let _ ← Process.rescue (fun _ => pure 0) (query (.removePrefix workspaceId root))
  Process.raise thrown

def mintPromoted (plan : PromotePlan) (manifest : AppManifest) : CatalogCall AppManifest := do
  saveApp workspaceId manifest
  let _ ← query (.removePrefix workspaceId plan.source)
  pure manifest

def promoteApp (workspaceId source slug actor : Text) : CatalogCall AppManifest := do
  let plan ← orRaise (planPromotion source slug)
  assertRootAvailable workspaceId plan.root none
  match ← query (.readAlias workspaceId plan.slug) with
  | some holder => Process.raise (nameHeld plan.slug holder)
  | none => do
      let entries ← query (.listFiles workspaceId plan.source)
      if entries = [] then Process.raise (nothingToPromote plan.source)
      else
        let _ ← query (.removePrefix workspaceId plan.root)
        entries.forM (copyListed workspaceId plan)
        let manifest ←
          Process.rescue (undoPromotion workspaceId plan.root none)
            (promotedManifest services workspaceId plan actor)
        Process.rescue (undoPromotion workspaceId plan.root (some manifest.appId))
          (mintPromoted workspaceId plan manifest)

inductive CreationRequest where
  | ensurePersonal (actor : Text)
  | publish (args : PublishArgs)
  | promote (source slug actor : Text)
  | firstSight (root : Text) (yaml : AppYaml) (actor : Text)

def createApp (workspaceId : Text) : CreationRequest → CatalogCall Text
  | .ensurePersonal actor => do
      let app ← ensurePersonalApp workspaceId actor
      pure app.appId
  | .publish args => do
      let app ← publishApp services workspaceId args
      pure app.appId
  | .promote source slug actor => do
      let app ← promoteApp services workspaceId source slug actor
      pure app.appId
  | .firstSight root yaml actor => do
      let result ← reconcileApp services ⟨workspaceId, root, yaml, none, actor⟩
      pure result.appId

abbrev CreationCall :=
  Call CreationRequest CatalogStatement.Answer ServiceError Text

abbrev CreationSystem :=
  Concurrent CatalogStores CreationRequest CatalogStatement.Answer ServiceError Text

inductive CreationAct where
  | start (request : CreationRequest)
  | advance (position : Nat)

def creationStep (workspaceId : Text) (system : CreationSystem) :
    CreationAct → Option CreationSystem
  | .start request => some (system.start request (createApp services workspaceId request))
  | .advance position => system.advance (fun _ : Unit => executeStatement services) position ()

/-- A workspace in which nobody creates an app. -/
def noCreators (stores : CatalogStores) : CreationSystem :=
  ⟨stores, [], []⟩

/-- Two apps do not share a name, and neither root lies in the other. -/
def AppsApart (one other : AppManifest) : Prop :=
  one.name ≠ other.name ∧ rootsOverlap one.root other.root = false
  deriving Decidable

/-- The apps of a workspace are apart, and aliases lead to them. -/
structure AppsExclusive (stores : CatalogStores) : Prop where
  apart : ∀ first second one other, stores.appAt workspaceId first = some one →
      stores.appAt workspaceId second = some other → first ≠ second → AppsApart one other
  aliases : ∀ name appId, stores.aliases (workspaceId, name) = some appId ↔
      ∃ app, stores.appAt workspaceId appId = some app ∧ app.name = name

def CreationSystem.ended (system : CreationSystem) : Bool :=
  system.calls.all fun call => call.process.outcome?.isSome

structure CreationLaw (system : CreationSystem) : Prop where
  exclusive : AppsExclusive workspaceId system.shared
  /-- A call that succeeded returned an app that is stored under its alias. -/
  created : ∀ (position : Nat) request appId, system.calls[position]? =
        some (⟨request, .done (.ok appId)⟩ : CreationCall) →
      ∃ app, system.shared.appAt workspaceId appId = some app ∧
        system.shared.aliases (workspaceId, app.name) = some appId
  /-- The personal app is one app. -/
  personal : ∀ (position : Nat) actor appId, system.calls[position]? =
        some (⟨.ensurePersonal actor, .done (.ok appId)⟩ : CreationCall) →
      system.shared.aliases (workspaceId, personalSlug) = some appId
  /-- An app that was to get an id drawn by a call that failed is not
  stored. -/
  failed : ∀ (position : Nat) request thrown, system.calls[position]? =
        some (⟨request, .done (.error thrown)⟩ : CreationCall) →
      ∀ appId, (⟨position, .mintAppId, .ok appId⟩ :
          Executed CatalogStatement.Answer ServiceError) ∈ system.history →
        system.shared.appAt workspaceId appId = none

/-- The save of a record goes through, and the other records are apart from
it; an app that is saved again keeps its name. -/
def WriteOpen (stores : CatalogStores) (workspaceId : Text) (manifest : AppManifest) : Prop :=
  SaveOpen stores workspaceId manifest.slug (some manifest.appId) manifest.isPublic ∧
    ∀ row ∈ stores.apps.rows, row.workspaceId = workspaceId →
      (row.manifest.appId = manifest.appId ∧ row.manifest.name = manifest.name) ∨
        (row.manifest.appId ≠ manifest.appId ∧ AppsApart manifest row.manifest)
  deriving Decidable

def CatalogStatement.saves : CatalogStatement → Option (Text × AppManifest)
  | .writeApp workspaceId manifest => some (workspaceId, manifest)
  | _ => none

/-- What the checks of a creator have found still holds when its record is
written. -/
def CreationCondition (system : CreationSystem) : CreationAct → Prop
  | .start _ => True
  | .advance position =>
    ∀ statement ∈ system.awaiting position, ∀ saved ∈ statement.saves,
      WriteOpen system.shared saved.1 saved.2

instance (system : CreationSystem) (act : CreationAct) :
    Decidable (CreationCondition system act) :=
  match act with
  | .start _ => inferInstanceAs (Decidable True)
  | .advance _ => inferInstanceAs (Decidable (∀ _ ∈ _, ∀ _ ∈ _, _))

end Aprovan.Apps.Catalog
