import Aprovan.Apps.Catalog

/-!
# Indexes that agree with the records

Calls that change the catalog run one after the other here.  Some of their
checks come behind writes, and some writes are missing.  Where none of this
happens the indexes agree with the records after every call, and a call that
throws leaves them as they were.
-/

namespace Aprovan.Apps.Catalog

open Aprovan.Library Aprovan.Server Aprovan.Fs

inductive CatalogAct where
  | publish (workspaceId : Text) (args : PublishArgs)
  | rename (workspaceId ref newName : Text)
  | reconcile (input : ReconcileInput)
  | remove (workspaceId appId : Text)
  /-- A claim is made for an app that is stored. -/
  | claim (slug appId workspaceId : Text)
  | writeFile (workspaceId path content mimeType : Text)

variable (stores : CatalogStores) (workspaceId : Text)
  (services : CatalogServices)

def serveAct : CatalogAct → CatalogCall Unit
  | .publish workspaceId args => do
      let _ ← publishApp services workspaceId args
  | .rename workspaceId ref newName => do
      let _ ← renameAlias services workspaceId ref newName
  | .reconcile input => do
      let _ ← reconcileApp services input
  | .remove workspaceId appId => do
      let _ ← removeApp workspaceId appId
  | .claim slug appId workspaceId => claimGlobalSlug services slug appId workspaceId
  | .writeFile workspaceId path content mimeType =>
    query (.writeFile workspaceId path content mimeType)

def settleAct (stores : CatalogStores) (act : CatalogAct) : Outcome Unit × CatalogStores :=
  (serveAct services act).settle (executeStatement services) stores

def CatalogAct.enabled : CatalogAct → Bool
  | .claim _ appId workspaceId => (stores.appAt workspaceId appId).isSome
  | _ => true

/-- A call that throws is a step as well. -/
def catalogStep (stores : CatalogStores) (act : CatalogAct) : Option CatalogStores :=
  if act.enabled stores then some (settleAct services stores act).2 else none

structure IndexesAgree : Prop where
  aliases : ∀ workspaceId name appId, stores.aliases (workspaceId, name) = some appId ↔
      ∃ app, stores.appAt workspaceId appId = some app ∧ app.name = name
  locations : ∀ appId workspaceId name, stores.locations appId = some (workspaceId, name) ↔
      ∃ app, stores.appAt workspaceId appId = some app ∧ app.name = name
  bindings : ∀ workspaceId root appId, stores.bindings (workspaceId, root) = some appId →
      ∃ app, stores.appAt workspaceId appId = some app ∧ app.root = root
  /-- A claim does not outlive its app. -/
  claims : ∀ claim ∈ stores.claims.rows, ∃ workspaceId app,
    stores.appAt workspaceId claim.appId = some app

/-- The records, the indexes and the claims are the same. -/
structure SameCatalog (before after : CatalogStores) : Prop where
  apps : after.apps = before.apps
  aliases : after.aliases = before.aliases
  bindings : after.bindings = before.bindings
  locations : after.locations = before.locations
  claims : after.claims = before.claims
  directory : after.directory = before.directory

structure CatalogLaw (before : CatalogStores) (outcome : Outcome Unit)
    (after : CatalogStores) : Prop where
  agree : IndexesAgree after
  unchanged : ∀ thrown, outcome = .error thrown → SameCatalog before after

def SlugOpen (slug : Text) (appId : Option Text) : Prop :=
  ∀ claim ∈ stores.claims.find? slug, some claim.appId = appId
  deriving Decidable

def CatalogStores.named (name : Text) : Option AppManifest :=
  (stores.aliases (workspaceId, name)).bind (stores.appAt workspaceId)

def CatalogStores.referred (stores : CatalogStores) (workspaceId ref : Text) :
    Option AppManifest :=
  if services.isAppId ref then stores.appAt workspaceId ref
  else stores.named workspaceId ref

/-- The save is public, or nobody else holds the claim that it gives up; it
is not a save in the reserved tenant. -/
def SaveOpen (slug : Text) (appId : Option Text) (isPublic : Bool) : Prop :=
  workspaceId ≠ deploymentTenant ∧ (isPublic = true ∨ SlugOpen stores slug appId)
  deriving Decidable

def RootStays (root : Text) (app : AppManifest) : Prop :=
  root = app.root ∨ stores.bindings (workspaceId, app.root) ≠ some app.appId
  deriving Decidable

/-- A reconcile finds the alias of the app under its slug. -/
def NamedBySlug (newSlug : Text) (app : AppManifest) : Prop :=
  (app.slug ≠ [] ∧ app.name = app.slug) ∨
    (app.name = newSlug ∧ stores.aliases (workspaceId, app.slug) = none)
  deriving Decidable

def AliasOpen (name appId : Text) : Prop :=
  ∀ holder ∈ stores.aliases (workspaceId, name), holder = appId
  deriving Decidable

/-- What a reconcile of an expected app that moves to the root asks. -/
def MoveOpen (slug appId : Text) : Prop :=
  ∀ app ∈ stores.appAt workspaceId appId, AliasOpen stores workspaceId slug appId →
      SaveOpen stores workspaceId slug (some appId) app.isPublic ∧
        NamedBySlug stores workspaceId slug app
  deriving Decidable

/-- What a reconcile of a bound app asks, if there is anything to save. -/
def UpdateOpen (slug : Text) (yaml : AppYaml) (appId : Text) : Prop :=
  ∀ app ∈ stores.appAt workspaceId appId, ¬ (app.declared = some yaml ∧ app.slug = slug) →
      AliasOpen stores workspaceId slug appId →
        SaveOpen stores workspaceId slug (some appId) app.isPublic ∧ app.name = slug
  deriving Decidable

def ReconcileOpen (input : ReconcileInput) : Prop :=
  let slug := rootBasename input.root
  let bound := stores.bindings (input.workspaceId, input.root)
  (∀ appId ∈ bound, UpdateOpen stores input.workspaceId slug input.yaml appId) ∧ (bound = none →
      (∀ expected ∈ input.expectedAppId, MoveOpen stores input.workspaceId slug expected) ∧
        (input.expectedAppId = none → stores.aliases (input.workspaceId, slug) = none →
            SaveOpen stores input.workspaceId slug none false))
  deriving Decidable

def PublishOpen (args : PublishArgs) : Prop :=
  let existing := stores.named workspaceId args.name
  SaveOpen stores workspaceId args.name (existing.map AppManifest.appId)
      (args.isPublic.getD (existing.any AppManifest.isPublic)) ∧
    ∀ app ∈ existing, RootStays stores workspaceId (publishRoot args existing).1 app
  deriving Decidable

def RenameOpen (stores : CatalogStores) (workspaceId ref newName : Text) : Prop :=
  ∀ app ∈ stores.referred services workspaceId ref,
    ∀ name, appName newName = .ok name → name ≠ app.name →
      SaveOpen stores workspaceId app.slug (some app.appId) app.isPublic

instance (services : CatalogServices) (stores : CatalogStores) (workspaceId ref newName : Text) :
    Decidable (RenameOpen services stores workspaceId ref newName) :=
  match named : appName newName with
  | .error _ => .isTrue fun _ _ _ given => nomatch named.symm.trans given
  | .ok name =>
    decidable_of_iff (∀ app ∈ stores.referred services workspaceId ref, name ≠ app.name →
          SaveOpen stores workspaceId app.slug (some app.appId) app.isPublic)
      ⟨fun each app found other given different =>
          each app found (by cases named.symm.trans given; exact different),
        fun each app found different => each app found name named different⟩

/-- The app holds no claim but that on its slug, and nobody else holds that
one. -/
def RemoveOpen (appId : Text) : Prop :=
  ∀ app ∈ stores.appAt workspaceId appId, SlugOpen stores app.slug (some appId) ∧
      ∀ claim ∈ stores.claims.rows, claim.appId = appId → claim.slug = app.slug
  deriving Decidable

def CatalogCondition (stores : CatalogStores) : CatalogAct → Prop
  | .publish workspaceId args => PublishOpen stores workspaceId args
  | .rename workspaceId ref newName => RenameOpen services stores workspaceId ref newName
  | .reconcile input => ReconcileOpen stores input
  | .remove workspaceId appId => RemoveOpen stores workspaceId appId
  | .claim _ _ _ => True
  | .writeFile _ _ _ _ => True

instance (services : CatalogServices) (stores : CatalogStores)
    (act : CatalogAct) : Decidable (CatalogCondition services stores act) :=
  match act with
  | .publish workspaceId args => inferInstanceAs (Decidable (PublishOpen stores workspaceId args))
  | .rename workspaceId ref newName =>
    inferInstanceAs (Decidable (RenameOpen services stores workspaceId ref newName))
  | .reconcile input => inferInstanceAs (Decidable (ReconcileOpen stores input))
  | .remove workspaceId appId => inferInstanceAs (Decidable (RemoveOpen stores workspaceId appId))
  | .claim _ _ _ => inferInstanceAs (Decidable True)
  | .writeFile _ _ _ _ => inferInstanceAs (Decidable True)

variable {Value : Type}

section

variable {services : CatalogServices} {stores : CatalogStores}

theorem appAt_writeApp (services : CatalogServices) (stores : CatalogStores) (workspaceId : Text)
    (manifest : AppManifest) (other appId : Text) :
    (executeStatement services (.writeApp workspaceId manifest) stores).2.appAt other appId =
      if other = workspaceId ∧ appId = manifest.appId then some manifest
      else
        stores.appAt other appId := by
  simp only [executeStatement, CatalogStores.appAt]
  split
  · rename_i same
    obtain ⟨rfl, rfl⟩ := same
    have found := Keyed.find?_put_self stores.apps (⟨other, manifest⟩ : AppRow)
    simp only [AppRow.key] at found
    rw [found, Option.map_some]
  · rename_i different
    have apart : AppRow.key ⟨workspaceId, manifest⟩ ≠ (other, appId) := by
      intro same
      cases same
      exact different ⟨rfl, rfl⟩
    rw [Keyed.find?_put_of_ne _ apart]

theorem appAt_deleteApp (services : CatalogServices)
    (stores : CatalogStores) (workspaceId appId other otherId : Text) :
    (executeStatement services (.deleteApp workspaceId appId) stores).2.appAt other otherId =
      if other = workspaceId ∧ otherId = appId then none
      else
        stores.appAt other otherId := by
  simp only [executeStatement, CatalogStores.appAt]
  split
  · rename_i same
    obtain ⟨rfl, rfl⟩ := same
    rw [Keyed.find?_erase_self, Option.map_none]
  · rename_i different
    have apart : (workspaceId, appId) ≠ (other, otherId) := by
      intro same
      cases same
      exact different ⟨rfl, rfl⟩
    rw [Keyed.find?_erase_of_ne _ apart]

theorem appId_of_appAt {workspaceId appId : Text} {app : AppManifest}
    (found : stores.appAt workspaceId appId = some app) :
    app.appId = appId := by
  obtain ⟨row, stored, rfl⟩ := Option.map_eq_some_iff.mp found
  have key := (Keyed.find?_eq_some_iff.mp stored).2
  exact (Prod.mk.inj key).2

theorem settles_query {statement : CatalogStatement}
    {next : statement.Answer → CatalogCall Value} {ends : Outcome Value → CatalogStores → Prop}
    {answer : statement.Answer} {after : CatalogStores}
    (executed : executeStatement services statement stores = (.ok answer, after))
    (rest : Settles (executeStatement services) (next answer) after ends) :
    Settles (executeStatement services) (query statement >>= next) stores
      ends := by
  apply settles_bind
  unfold Settles query
  rw [settle_perform, executed]
  exact rest

end

section

variable {before after : CatalogStores} {workspaceId : Text}
  {manifest : AppManifest}

/-- The record is stored and its indexes lead to it and to no other place;
the other apps keep theirs. -/
structure Moved (before : CatalogStores) (workspaceId : Text)
    (manifest : AppManifest) (after : CatalogStores) : Prop where
  apps : ∀ other appId, after.appAt other appId =
    if other = workspaceId ∧ appId = manifest.appId then some manifest
    else before.appAt other appId
  aliases : ∀ other name, after.aliases (other, name) =
    if other = workspaceId ∧ name = manifest.name then some manifest.appId
    else if before.aliases (other, name) = some manifest.appId then none
    else before.aliases (other, name)
  locations : after.locations = Function.update before.locations manifest.appId
      (some (workspaceId, manifest.name))
  bindings : ∀ other root appId, after.bindings (other, root) = some appId →
    (appId = manifest.appId ∧ other = workspaceId ∧ root = manifest.root) ∨
      (appId ≠ manifest.appId ∧ before.bindings (other, root) = some appId)
  claims : ∀ claim ∈ after.claims.rows, claim ∈ before.claims.rows

theorem agree_of_moved (agree : IndexesAgree before)
    (homed : ∀ other old, before.appAt other manifest.appId = some old → other = workspaceId)
    (free : ∀ holder, before.aliases (workspaceId, manifest.name) =
      some holder → holder = manifest.appId) (moved : Moved before workspaceId manifest after) :
    IndexesAgree after := by
  have absent : ∀ other, other ≠ workspaceId → before.appAt other manifest.appId = none := by
    intro other different
    cases stored : before.appAt other manifest.appId with
    | none => rfl
    | some old => exact absurd (homed other old stored) different
  constructor
  · intro other name appId
    rw [moved.aliases, moved.apps]
    by_cases own : appId = manifest.appId
    · subst own
      by_cases here : other = workspaceId
      · subst here
        simp only [true_and, and_self, if_true, Option.some.injEq, exists_eq_left']
        by_cases same : name = manifest.name
        · simp [same]
        · rw [if_neg same]
          split
          · simp [Ne.symm same]
          · rename_i unnamed
            simp [unnamed, Ne.symm same]
      · have nowhere := absent other here
        have unnamed : before.aliases (other, name) ≠ some manifest.appId := by
          intro named
          obtain ⟨app, stored, _⟩ := (agree.aliases _ _ _).mp named
          rw [nowhere] at stored
          cases stored
        simp [here, unnamed, nowhere]
    · have notOwn : ¬ (other = workspaceId ∧ appId = manifest.appId) :=
        fun both => own both.2
      simp only [if_neg notOwn]
      rw [← agree.aliases]
      split
      · rename_i same
        obtain ⟨rfl, rfl⟩ := same
        constructor
        · intro named
          exact absurd (Option.some.inj named).symm own
        · intro held
          exact absurd (free appId held) own
      · split
        · rename_i named
          constructor
          · intro impossible
            cases impossible
          · intro held
            exact absurd (Option.some.inj (held.symm.trans named)) own
        · exact Iff.rfl
  · intro appId other name
    rw [moved.locations, moved.apps]
    by_cases own : appId = manifest.appId
    · subst own
      rw [Function.update_self]
      by_cases here : other = workspaceId
      · subst here
        simp
      · have nowhere := absent other here
        simp [here, Ne.symm here, nowhere]
    · rw [Function.update_of_ne own, if_neg (fun both => own both.2)]
      exact agree.locations appId other name
  · intro other root appId bound
    rw [moved.apps]
    rcases moved.bindings other root appId bound with
      ⟨rfl, rfl, rfl⟩ | ⟨different, old⟩
    · exact ⟨manifest, if_pos ⟨rfl, rfl⟩, rfl⟩
    · rw [if_neg (fun both => different both.2)]
      exact agree.bindings other root appId old
  · intro claim member
    obtain ⟨other, app, stored⟩ :=
      agree.claims claim (moved.claims claim member)
    by_cases same : other = workspaceId ∧ claim.appId = manifest.appId
    · exact ⟨other, manifest, (moved.apps _ _).trans (if_pos same)⟩
    · exact ⟨other, app, ((moved.apps _ _).trans (if_neg same)).trans stored⟩

end

section

variable {services : CatalogServices} {stores : CatalogStores}
  {workspaceId : Text}

theorem settles_setAlias {name appId : Text}
    (free : ∀ holder, stores.aliases (workspaceId, name) = some holder → holder = appId) :
    Settles (executeStatement services) (setAlias workspaceId name appId)
      stores fun outcome after => outcome = .ok () ∧
        after = { stores with
          aliases := Function.update stores.aliases (workspaceId, name) (some appId) } := by
  apply settles_query rfl
  cases held : stores.aliases (workspaceId, name) with
  | none => exact ⟨rfl, rfl⟩
  | some holder =>
    have own := free holder held
    subst own
    have same : Function.update stores.aliases (workspaceId, name)
        (some holder) = stores.aliases := by
      rw [← held, Function.update_eq_self]
    dsimp only
    rw [if_neg (not_not.mpr rfl), same]
    exact settles_pure ⟨rfl, rfl⟩

theorem settles_releaseGlobalSlug {slug appId : Text}
    (slugOpen : SlugOpen stores slug (some appId)) :
    Settles (executeStatement services) (releaseGlobalSlug slug appId) stores
      fun outcome after => outcome = .ok () ∧
        ∃ claims, after = { stores with claims := claims } ∧ ∀ claim ∈ claims.rows,
            claim ∈ stores.claims.rows ∧ claim.slug ≠ slug := by
  apply settles_query rfl
  cases held : stores.claims.find? slug with
  | none =>
    refine settles_pure ⟨rfl, stores.claims, rfl, ?_⟩
    intro claim member
    exact ⟨member, Keyed.find?_eq_none_iff.mp held claim member⟩
  | some claim =>
    have own : claim.appId = appId := Option.some.inj (slugOpen claim held)
    dsimp only
    rw [if_neg (not_not.mpr own)]
    refine ⟨rfl, stores.claims.erase slug, rfl, ?_⟩
    intro other member
    exact Keyed.mem_rows_erase.mp member

/-- A held alias is refused before anything is written. -/
theorem settles_setAlias_cases (workspaceId name appId : Text) :
    Settles (executeStatement services) (setAlias workspaceId name appId)
      stores fun outcome after =>
        ((∃ thrown, outcome = .error thrown) ∧ after = stores) ∨ (outcome = .ok () ∧
            (∀ holder, stores.aliases (workspaceId, name) = some holder → holder = appId) ∧
            after = { stores with
              aliases := Function.update stores.aliases (workspaceId, name) (some appId) }) := by
  by_cases free : ∀ holder, stores.aliases (workspaceId, name) = some holder → holder = appId
  · refine Settles.weaken (settles_setAlias free) ?_
    rintro outcome after ⟨ended, changed⟩
    exact Or.inr ⟨ended, free, changed⟩
  · push Not at free
    obtain ⟨holder, held, other⟩ := free
    refine settles_query rfl ?_
    rw [held]
    dsimp only
    rw [if_pos other]
    exact settles_raise (Or.inl ⟨⟨_, rfl⟩, rfl⟩)

/-- What `saveApp` writes where nothing stands in its way. -/
structure Saved (before : CatalogStores) (workspaceId : Text)
    (manifest : AppManifest) (after : CatalogStores) : Prop where
  minted : after.minted = before.minted
  apps : ∀ other appId, after.appAt other appId =
    if other = workspaceId ∧ appId = manifest.appId then some manifest
    else before.appAt other appId
  aliases : after.aliases = Function.update before.aliases (workspaceId, manifest.name)
      (some manifest.appId)
  locations : after.locations = Function.update before.locations manifest.appId
      (some (workspaceId, manifest.name))
  bindings : after.bindings = before.bindings
  claims : ∀ claim ∈ after.claims.rows, claim ∈ before.claims.rows

theorem settles_syncDirectoryEntry {manifest : AppManifest}
    (saveOpen : SaveOpen stores workspaceId manifest.slug
      (some manifest.appId) manifest.isPublic) :
    Settles (executeStatement services)
      (syncDirectoryEntry workspaceId manifest) stores fun outcome after =>
        outcome = .ok () ∧ ∃ claims directory,
          after = { stores with claims := claims, directory := directory } ∧
          ∀ claim ∈ claims.rows, claim ∈ stores.claims.rows := by
  obtain ⟨tenant, visible⟩ := saveOpen
  rw [syncDirectoryEntry, assertNotDeploymentTenant, if_neg tenant]
  cases isPublic : manifest.isPublic with
  | true =>
    refine settles_query rfl ?_
    exact ⟨rfl, _, _, rfl, fun _ member => member⟩
  | false =>
    refine settles_query rfl ?_
    have slugOpen := visible.resolve_left (isPublic ▸ Bool.false_ne_true)
    refine Settles.weaken (settles_releaseGlobalSlug slugOpen) ?_
    rintro outcome after ⟨ended, claims, rfl, kept⟩
    exact ⟨ended, _, _, rfl, fun claim member => (kept claim member).1⟩

theorem settles_saveApp {manifest : AppManifest}
    (saveOpen : SaveOpen stores workspaceId manifest.slug (some manifest.appId) manifest.isPublic)
    (free : ∀ holder, stores.aliases (workspaceId, manifest.name) =
      some holder → holder = manifest.appId) :
    Settles (executeStatement services) (saveApp workspaceId manifest) stores
      fun outcome after =>
        outcome = .ok () ∧ Saved stores workspaceId manifest after := by
  apply settles_query rfl
  apply settles_bind
  refine Settles.weaken (settles_setAlias free) ?_
  rintro outcome after ⟨rfl, rfl⟩
  refine settles_query rfl ?_
  refine Settles.weaken (settles_syncDirectoryEntry saveOpen) ?_
  rintro outcome after ⟨ended, claims, directory, rfl, kept⟩
  refine ⟨ended, rfl, ?_, rfl, rfl, rfl, kept⟩
  exact appAt_writeApp services stores workspaceId manifest

/-- The statement changes nothing, and the records and aliases that it reads
are those of the workspace. -/
def Reads (workspaceId : Text) : CatalogStatement → Prop
  | .listApps _ => True
  | .readApp asked _ => asked = workspaceId
  | .readAlias asked _ => asked = workspaceId
  | .readBinding _ _ => True
  | .readLocation _ => True
  | .readClaim _ => True
  | .resolveRelease _ _ => True
  | .listFiles _ _ => True
  | .readFile _ _ => True
  | _ => False

theorem settles_reads {process : CatalogCall Value} (asks : Asks (Reads workspaceId) process) :
    Settles (executeStatement services) process stores fun _ after => after = stores := by
  have kept : ∀ statement after, Reads workspaceId statement → after = stores →
      (executeStatement services statement after).2 = stores := by
    rintro statement after reads rfl
    cases statement <;> first | rfl | exact reads.elim
  exact kept_of_asks kept asks rfl

theorem asks_query {statement : CatalogStatement} (reads : Reads workspaceId statement) :
    Asks (Reads workspaceId) (query statement) :=
  asks_perform reads

theorem asks_orRaise (workspaceId : Text) (outcome : Outcome Value) :
    Asks (Reads workspaceId) (orRaise outcome) := by
  cases outcome with
  | ok value => exact asks_pure value
  | error thrown => exact asks_raise thrown

theorem settles_orRaise (given : Outcome Value) :
    Settles (executeStatement services) (orRaise given) stores
      fun outcome after => after = stores ∧ outcome = given := by
  cases given with
  | ok value => exact settles_pure ⟨rfl, rfl⟩
  | error thrown => exact settles_raise ⟨rfl, rfl⟩

variable (workspaceId : Text)

theorem asks_assertRootAvailable (root : Text) (exceptAppId : Option Text) :
    Asks (Reads workspaceId) (assertRootAvailable workspaceId root exceptAppId) := by
  apply asks_bind (asks_orRaise workspaceId _)
  intro normalized
  apply asks_bind
  · refine asks_bind (asks_query trivial) ?_
    intro keys
    apply asks_foldlM
    intro apps appId
    refine asks_bind (asks_query rfl) ?_
    intro found
    cases found <;> exact asks_pure _
  · intro apps
    cases apps.find? (·.blocks normalized exceptAppId) with
    | none => exact asks_pure _
    | some app => exact asks_raise _

theorem asks_loadRootYaml (root : Text) :
    Asks (Reads workspaceId) (loadRootYaml services workspaceId root) := by
  refine asks_bind (asks_query trivial) ?_
  intro file
  cases file <;> exact asks_pure _

theorem settles_resolveAppRef (ref : Text) :
    Settles (executeStatement services)
      (resolveAppRef services workspaceId ref) stores fun outcome after =>
        after = stores ∧ ∀ appId, outcome = .ok appId →
          (services.isAppId ref = true ∧ appId = ref) ∨ (services.isAppId ref = false ∧
              stores.aliases (workspaceId, ref) = some appId) := by
  unfold resolveAppRef
  split
  · exact settles_raise ⟨rfl, nofun⟩
  · split
    · rename_i isId
      refine settles_pure ⟨rfl, ?_⟩
      intro appId given
      exact Or.inl ⟨isId, (Except.ok.inj given).symm⟩
    · rename_i notId
      apply settles_query rfl
      cases held : stores.aliases (workspaceId, ref) with
      | none => exact settles_raise ⟨rfl, nofun⟩
      | some holder =>
        refine settles_pure ⟨rfl, ?_⟩
        intro appId given
        cases given
        exact Or.inr ⟨Bool.eq_false_iff.mpr notId, rfl⟩

theorem settles_requireApp (ref : Text) :
    Settles (executeStatement services) (requireApp services workspaceId ref)
      stores fun outcome after => after = stores ∧ ∀ app, outcome = .ok app →
          stores.referred services workspaceId ref = some app ∧
            stores.appAt workspaceId app.appId = some app := by
  apply settles_bind
  refine Settles.weaken (settles_resolveAppRef workspaceId ref) ?_
  rintro outcome after ⟨rfl, resolved⟩
  cases outcome with
  | error thrown => exact ⟨rfl, nofun⟩
  | ok appId =>
    apply settles_query rfl
    cases stored : after.appAt workspaceId appId with
    | none => exact settles_raise ⟨rfl, nofun⟩
    | some app =>
      refine settles_pure ⟨rfl, ?_⟩
      intro other given
      cases given
      have own := appId_of_appAt stored
      refine ⟨?_, own ▸ stored⟩
      rw [CatalogStores.referred]
      rcases resolved appId rfl with ⟨isId, rfl⟩ | ⟨notId, held⟩
      · rw [if_pos isId]
        exact stored
      · rw [if_neg (Bool.eq_false_iff.mp notId), CatalogStores.named, held, Option.bind_some]
        exact stored

theorem settles_publishedApp (args : PublishArgs) :
    Settles (executeStatement services)
      (publishedApp services workspaceId args) stores fun outcome after =>
        after = stores ∧ ∀ existing, outcome = .ok existing →
          ∀ app ∈ existing, stores.appAt workspaceId app.appId = some app := by
  have read : ∀ appId, ∀ app ∈ stores.appAt workspaceId appId,
      stores.appAt workspaceId app.appId = some app := by
    intro appId app stored
    rw [appId_of_appAt stored]
    exact stored
  apply settles_rescue
  apply settles_bind
  refine Settles.weaken (settles_resolveAppRef workspaceId _) ?_
  rintro outcome after ⟨rfl, _⟩
  cases outcome with
  | ok appId =>
    refine ⟨rfl, ?_⟩
    rintro existing given app member
    cases given
    exact read appId app member
  | error thrown =>
    apply settles_query rfl
    cases after.aliases (workspaceId, args.name) with
    | none =>
      refine settles_pure ⟨rfl, ?_⟩
      rintro existing given app member
      cases given
      cases member
    | some holder =>
      refine ⟨rfl, ?_⟩
      rintro existing given app member
      cases given
      exact read holder app member

theorem settles_assertPublishable (name : Text) (existing : Option AppManifest) :
    Settles (executeStatement services) (assertPublishable workspaceId name existing) stores
      fun outcome after => after = stores ∧ (outcome = .ok () →
          (existing = none ∧ stores.aliases (workspaceId, name) = none) ∨
            ∃ app, existing = some app ∧ app.name = name) := by
  cases existing with
  | none =>
    apply settles_query rfl
    cases held : stores.aliases (workspaceId, name) with
    | none => exact settles_pure ⟨rfl, fun _ => Or.inl ⟨rfl, rfl⟩⟩
    | some holder => exact settles_raise ⟨rfl, nofun⟩
  | some app =>
    rw [assertPublishable]
    by_cases same : app.name = name
    · rw [if_neg (not_not.mpr same)]
      exact settles_pure ⟨rfl, fun _ => Or.inr ⟨app, rfl, same⟩⟩
    · rw [if_pos same]
      exact settles_raise ⟨rfl, nofun⟩

theorem settles_assertSlugAvailable (slug appId : Text) :
    Settles (executeStatement services) (assertSlugAvailable workspaceId slug appId) stores
      fun outcome after => after = stores ∧ (outcome = .ok () →
          ∀ holder, stores.aliases (workspaceId, slug) = some holder → holder = appId) := by
  apply settles_query rfl
  cases held : stores.aliases (workspaceId, slug) with
  | none => exact settles_pure ⟨rfl, fun _ => nofun⟩
  | some holder =>
    dsimp only
    by_cases same : holder = appId
    · rw [if_neg (not_not.mpr same)]
      refine settles_pure ⟨rfl, ?_⟩
      rintro _ other given
      cases given
      exact same
    · rw [if_pos same]
      exact settles_raise ⟨rfl, nofun⟩

end

section

variable {services : CatalogServices} {stores before after : CatalogStores}
  {workspaceId : Text} {manifest app : AppManifest}

structure CatalogInvariant (services : CatalogServices) (stores : CatalogStores) : Prop where
  agree : IndexesAgree stores
  /-- No app has an id that is still to come. -/
  fresh : ∀ number, stores.minted ≤ number → ∀ workspaceId,
    stores.appAt workspaceId (services.mint number) = none
  /-- No app is bound to the whole workspace. -/
  based : ∀ workspaceId, stores.bindings (workspaceId, []) = none

/-- What a call may leave. -/
structure Lawful {Value : Type} (services : CatalogServices)
    (before : CatalogStores) (outcome : Outcome Value)
    (after : CatalogStores) : Prop where
  invariant : CatalogInvariant services after
  unchanged : ∀ thrown, outcome = .error thrown → SameCatalog before after

theorem sameCatalog_refl (stores : CatalogStores) : SameCatalog stores stores :=
  ⟨rfl, rfl, rfl, rfl, rfl, rfl⟩

theorem lawful_same (invariant : CatalogInvariant services stores) (outcome : Outcome Value) :
    Lawful services stores outcome stores :=
  ⟨invariant, fun _ _ => sameCatalog_refl stores⟩

theorem lawful_ok {value : Value} (invariant : CatalogInvariant services after) :
    Lawful services before (.ok value) after :=
  ⟨invariant, nofun⟩

variable {appId : Text}

theorem home_unique (agree : IndexesAgree stores) {first second : Text}
    {one other : AppManifest} (here : stores.appAt first appId = some one)
    (there : stores.appAt second appId = some other) :
    first = second := by
  have located := (agree.locations appId first one.name).mpr ⟨one, here, rfl⟩
  have also := (agree.locations appId second other.name).mpr ⟨other, there, rfl⟩
  have same := Option.some.inj (located.symm.trans also)
  exact (Prod.mk.inj same).1

theorem named_of_appAt (agree : IndexesAgree stores)
    (stored : stores.appAt workspaceId app.appId = some app) :
    stores.named workspaceId app.name = some app := by
  have held := (agree.aliases workspaceId app.name app.appId).mpr ⟨app, stored, rfl⟩
  rw [CatalogStores.named, held, Option.bind_some, stored]

theorem moved_of_saved {ready : CatalogStores} (saved : Saved ready workspaceId manifest after)
    (apps : ready.apps = before.apps)
    (aliases : ∀ other name, ¬ (other = workspaceId ∧ name = manifest.name) →
      ready.aliases (other, name) =
        if before.aliases (other, name) = some manifest.appId then none
        else before.aliases (other, name))
    (locations : ∀ appId, appId ≠ manifest.appId → ready.locations appId = before.locations appId)
    (bindings : ∀ other root appId, ready.bindings (other, root) = some appId →
        (appId = manifest.appId ∧ other = workspaceId ∧ root = manifest.root) ∨
          (appId ≠ manifest.appId ∧ before.bindings (other, root) = some appId))
    (claims : ready.claims = before.claims) :
    Moved before workspaceId manifest after := by
  constructor
  · intro other appId
    rw [saved.apps, CatalogStores.appAt, apps]
    rfl
  · intro other name
    rw [saved.aliases]
    by_cases here : other = workspaceId ∧ name = manifest.name
    · obtain ⟨rfl, rfl⟩ := here
      rw [if_pos ⟨rfl, rfl⟩, Function.update_self]
    · have apart : (other, name) ≠ (workspaceId, manifest.name) := by
        intro same
        exact here (Prod.mk.inj same)
      rw [if_neg here, Function.update_of_ne apart]
      exact aliases other name here
  · funext appId
    rw [saved.locations]
    by_cases own : appId = manifest.appId
    · subst own
      rw [Function.update_self, Function.update_self]
    · rw [Function.update_of_ne own, Function.update_of_ne own]
      exact locations appId own
  · intro other root appId held
    rw [saved.bindings] at held
    exact bindings other root appId held
  · intro claim member
    rw [← claims]
    exact saved.claims claim member

theorem moved_bound (moved : Moved before workspaceId manifest after) :
    Moved before workspaceId manifest
      { after with
        bindings := Function.update after.bindings
          (workspaceId, manifest.root) (some manifest.appId) } := by
  refine ⟨moved.apps, moved.aliases, moved.locations, ?_, moved.claims⟩
  intro other root appId held
  by_cases here : (other, root) = (workspaceId, manifest.root)
  · obtain ⟨rfl, rfl⟩ := Prod.mk.inj here
    have own : some manifest.appId = some appId :=
      (Function.update_self (other, manifest.root) _ after.bindings).symm.trans held
    exact Or.inl ⟨(Option.some.inj own).symm, rfl, rfl⟩
  · have old : after.bindings (other, root) = some appId :=
      (Function.update_of_ne here _ after.bindings).symm.trans held
    exact moved.bindings other root appId old

theorem invariant_of_moved (moved : Moved before workspaceId manifest after)
    (invariant : CatalogInvariant services before)
    (homed : ∀ other old, before.appAt other manifest.appId = some old → other = workspaceId)
    (free : ∀ holder, before.aliases (workspaceId, manifest.name) =
      some holder → holder = manifest.appId)
    (used : ∀ number, before.minted ≤ number → services.mint number ≠ manifest.appId)
    (minted : after.minted = before.minted) (based : ∀ other, after.bindings (other, []) = none) :
    CatalogInvariant services after := by
  refine ⟨agree_of_moved invariant.agree homed free moved, ?_, based⟩
  intro number late other
  rw [minted] at late
  rw [moved.apps, if_neg (fun both => used number late both.2)]
  exact invariant.fresh number late other

theorem mint_ne_of_stored (invariant : CatalogInvariant services stores)
    (stored : stores.appAt workspaceId appId = some app) (number : Nat)
    (late : stores.minted ≤ number) :
    services.mint number ≠ appId := by
  rintro rfl
  rw [invariant.fresh number late workspaceId] at stored
  cases stored

section

variable (agree : IndexesAgree stores)
  (stored : stores.appAt workspaceId appId = some app)

include agree stored

theorem homed_of_stored (other : Text) (old : AppManifest)
    (there : stores.appAt other appId = some old) :
    other = workspaceId ∧ old = app := by
  obtain rfl := home_unique agree there stored
  exact ⟨rfl, Option.some.inj (there.symm.trans stored)⟩

theorem alias_of_stored (other name : Text) :
    stores.aliases (other, name) = some appId ↔ other = workspaceId ∧ name = app.name := by
  rw [agree.aliases]
  constructor
  · rintro ⟨old, there, rfl⟩
    obtain ⟨rfl, rfl⟩ := homed_of_stored agree stored other old there
    exact ⟨rfl, rfl⟩
  · rintro ⟨rfl, rfl⟩
    exact ⟨app, stored, rfl⟩

theorem bound_of_stored {other root : Text} (held : stores.bindings (other, root) = some appId) :
    other = workspaceId ∧ root = app.root := by
  obtain ⟨old, there, rfl⟩ := agree.bindings _ _ _ held
  obtain ⟨rfl, rfl⟩ := homed_of_stored agree stored other old there
  exact ⟨rfl, rfl⟩

end

theorem invariant_of_resaved (moved : Moved before workspaceId manifest after)
    (invariant : CatalogInvariant services before)
    (stored : before.appAt workspaceId manifest.appId = some app)
    (free : ∀ holder, before.aliases (workspaceId, manifest.name) =
      some holder → holder = manifest.appId) (minted : after.minted = before.minted)
    (based : ∀ other, after.bindings (other, []) = none) :
    CatalogInvariant services after := by
  apply invariant_of_moved moved invariant ?_ free ?_ minted based
  · intro other old there
    exact (homed_of_stored invariant.agree stored other old there).1
  · exact mint_ne_of_stored invariant stored

theorem moved_of_kept (agree : IndexesAgree before)
    (stored : before.appAt workspaceId manifest.appId = some app)
    (named : app.name = manifest.name) (rooted : RootStays before workspaceId manifest.root app)
    (saved : Saved before workspaceId manifest after) :
    Moved before workspaceId manifest after := by
  refine moved_of_saved saved rfl ?aliased (fun _ _ => rfl) ?bound rfl
  case aliased =>
    intro other name apart
    rw [if_neg]
    intro held
    rw [alias_of_stored agree stored, named] at held
    exact apart held
  case bound =>
    intro other root appId held
    by_cases own : appId = manifest.appId
    · subst own
      obtain ⟨rfl, rfl⟩ := bound_of_stored agree stored held
      rcases rooted with stays | unbound
      · exact Or.inl ⟨rfl, rfl, stays.symm⟩
      · rw [appId_of_appAt stored] at unbound
        exact absurd held unbound
    · exact Or.inr ⟨own, held⟩

theorem bindings_kept (agree : IndexesAgree stores)
    (stored : stores.appAt workspaceId appId = some app) (other root bound : Text)
    (held : stores.bindings (other, root) = some bound) :
    (bound = appId ∧ other = workspaceId ∧ root = app.root) ∨
      (bound ≠ appId ∧ stores.bindings (other, root) = some bound) := by
  by_cases own : bound = appId
  · subst own
    exact Or.inl ⟨rfl, bound_of_stored agree stored held⟩
  · exact Or.inr ⟨own, held⟩

theorem invariant_minted (invariant : CatalogInvariant services stores) :
    CatalogInvariant services { stores with minted := stores.minted + 1 } :=
  ⟨⟨invariant.agree.aliases, invariant.agree.locations,
      invariant.agree.bindings, invariant.agree.claims⟩,
    fun number late => invariant.fresh number (Nat.le_of_succ_le late),
    invariant.based⟩

theorem moved_of_created (invariant : CatalogInvariant services before)
    (created : manifest.appId = services.mint before.minted)
    (saved : Saved { before with minted := before.minted + 1 } workspaceId manifest after) :
    Moved { before with minted := before.minted + 1 } workspaceId manifest
      after := by
  have nowhere : ∀ other, before.appAt other manifest.appId = none := by
    intro other
    rw [created]
    exact invariant.fresh _ le_rfl other
  refine moved_of_saved saved rfl ?aliased (fun _ _ => rfl) ?bound rfl
  case aliased =>
    intro other name apart
    rw [if_neg]
    intro held
    obtain ⟨old, there, _⟩ := (invariant.agree.aliases _ _ _).mp held
    rw [nowhere] at there
    cases there
  case bound =>
    intro other root appId held
    refine Or.inr ⟨?_, held⟩
    rintro rfl
    obtain ⟨old, there, _⟩ := invariant.agree.bindings _ _ _ held
    rw [nowhere] at there
    cases there

theorem invariant_of_created
    (moved : Moved { before with minted := before.minted + 1 } workspaceId manifest after)
    (distinct : Function.Injective services.mint) (invariant : CatalogInvariant services before)
    (created : manifest.appId = services.mint before.minted)
    (free : before.aliases (workspaceId, manifest.name) = none)
    (minted : after.minted = before.minted + 1)
    (based : ∀ other, after.bindings (other, []) = none) :
    CatalogInvariant services after := by
  apply invariant_of_moved moved (invariant_minted invariant) ?homed ?free ?used minted based
  case homed =>
    intro other old there
    have nowhere : before.appAt other manifest.appId = none := by
      rw [created]
      exact invariant.fresh _ le_rfl other
    exact absurd (nowhere.symm.trans there) nofun
  case free =>
    intro holder held
    exact absurd (free.symm.trans held) nofun
  case used =>
    intro number late same
    rw [created] at same
    have equal := distinct same
    dsimp only at late
    omega

end

section

variable {services : CatalogServices} {stores : CatalogStores}

theorem settles_checked {Result : Type} {check : CatalogCall Value}
    {next : Value → CatalogCall Result} (facts : Outcome Value → Prop)
    (invariant : CatalogInvariant services stores)
    (checked : Settles (executeStatement services) check stores
      fun outcome after => after = stores ∧ facts outcome)
    (rest : ∀ value, facts (.ok value) → Settles (executeStatement services) (next value) stores
        (Lawful services stores)) :
    Settles (executeStatement services) (check >>= next) stores (Lawful services stores) := by
  apply settles_bind
  refine Settles.weaken checked ?_
  rintro outcome after ⟨same, known⟩
  rw [same]
  cases outcome with
  | ok value => exact rest value known
  | error thrown => exact lawful_same invariant _

variable {workspaceId : Text}

theorem settles_asked {Result : Type} {check : CatalogCall Value}
    {next : Value → CatalogCall Result} (invariant : CatalogInvariant services stores)
    (asks : Asks (Reads workspaceId) check)
    (rest : ∀ value, Settles (executeStatement services) (next value) stores
      (Lawful services stores)) :
    Settles (executeStatement services) (check >>= next) stores (Lawful services stores) := by
  apply settles_checked (fun _ => True) invariant
  · refine Settles.weaken (settles_reads asks) ?_
    exact fun _ _ same => ⟨same, trivial⟩
  · exact fun value _ => rest value

theorem lawful_publish (distinct : Function.Injective services.mint)
    (invariant : CatalogInvariant services stores) (workspaceId : Text)
    (args : PublishArgs) (publishOpen : PublishOpen stores workspaceId args) :
    Settles (executeStatement services) (publishApp services workspaceId args) stores
      (Lawful services stores) := by
  apply settles_asked invariant (asks_orRaise workspaceId _)
  intro name
  apply settles_checked _ invariant (settles_publishedApp workspaceId args)
  intro existing known
  apply settles_checked _ invariant (settles_assertPublishable workspaceId args.name existing)
  intro _ publishable
  apply settles_asked invariant (asks_assertRootAvailable _ _ _)
  intro _
  apply settles_asked invariant (asks_loadRootYaml workspaceId _)
  intro yaml
  obtain ⟨saveOpen, rooted⟩ := publishOpen
  rcases publishable rfl with ⟨rfl, free⟩ | ⟨app, rfl, named⟩
  · have unnamed : stores.named workspaceId args.name = none := by
      rw [CatalogStores.named, free, Option.bind_none]
    rw [unnamed] at saveOpen
    refine settles_query rfl ?_
    apply settles_bind
    have saveNew : SaveOpen { stores with minted := stores.minted + 1 }
        workspaceId args.name (some (services.mint stores.minted))
        (args.isPublic.getD false) := by
      obtain ⟨tenant, visible⟩ := saveOpen
      refine ⟨tenant, visible.imp_right ?_⟩
      intro slugOpen claim held
      cases slugOpen claim held
    refine Settles.weaken (settles_saveApp saveNew ?_) ?_
    · intro holder held
      exact absurd (free.symm.trans held) nofun
    · rintro outcome after ⟨rfl, saved⟩
      have moved := moved_of_created invariant rfl saved
      apply settles_pure
      apply lawful_ok
      apply invariant_of_created moved distinct invariant rfl free saved.minted
      rw [saved.bindings]
      exact invariant.based
  · have stored := known (some app) rfl app rfl
    have found := named_of_appAt invariant.agree stored
    rw [named] at found
    rw [found] at saveOpen rooted
    apply settles_bind
    refine settles_pure ?_
    apply settles_bind
    have held : stores.aliases (workspaceId, args.name) = some app.appId :=
      (invariant.agree.aliases _ _ _).mpr ⟨app, stored, named⟩
    have free : ∀ holder, stores.aliases (workspaceId, args.name) =
        some holder → holder = app.appId :=
      fun holder given => Option.some.inj (given.symm.trans held)
    refine Settles.weaken (settles_saveApp saveOpen free) ?_
    rintro outcome after ⟨rfl, saved⟩
    have moved : Moved stores workspaceId
        (publishedManifest args (some app) yaml app.appId) after :=
      moved_of_kept invariant.agree stored named (rooted app rfl) saved
    apply settles_pure
    apply lawful_ok
    apply invariant_of_resaved moved invariant stored free saved.minted
    rw [saved.bindings]
    exact invariant.based

/-- The indexes of an app that is about to be saved lead to its new place
only. -/
structure Ready (stores : CatalogStores) (workspaceId : Text)
    (manifest : AppManifest) (ready : CatalogStores) : Prop where
  minted : ready.minted = stores.minted
  apps : ready.apps = stores.apps
  held : ready.aliases (workspaceId, manifest.name) = some manifest.appId
  aliases : ∀ other name, ¬ (other = workspaceId ∧ name = manifest.name) →
    ready.aliases (other, name) =
      if stores.aliases (other, name) = some manifest.appId then none
      else stores.aliases (other, name)
  locations : ∀ appId, appId ≠ manifest.appId → ready.locations appId = stores.locations appId
  bindings : ∀ other root appId, ready.bindings (other, root) = some appId →
      (appId = manifest.appId ∧ other = workspaceId ∧ root = manifest.root) ∨
        (appId ≠ manifest.appId ∧ stores.bindings (other, root) = some appId)
  based : ∀ other, ready.bindings (other, []) = none
  claims : ready.claims = stores.claims

theorem lawful_resave {Value : Type} {value : Value} {workspaceId : Text}
    {manifest app : AppManifest} {ready : CatalogStores}
    (invariant : CatalogInvariant services stores)
    (stored : stores.appAt workspaceId manifest.appId = some app)
    (free : ∀ holder, stores.aliases (workspaceId, manifest.name) =
      some holder → holder = manifest.appId)
    (saveOpen : SaveOpen stores workspaceId manifest.slug (some manifest.appId) manifest.isPublic)
    (prepared : Ready stores workspaceId manifest ready) :
    Settles (executeStatement services)
      (saveApp workspaceId manifest >>= fun _ => pure value) ready
      (Lawful services stores) := by
  have openReady : SaveOpen ready workspaceId manifest.slug
      (some manifest.appId) manifest.isPublic := by
    rw [SaveOpen, SlugOpen, prepared.claims]
    exact saveOpen
  apply settles_bind
  refine Settles.weaken (settles_saveApp openReady ?_) ?_
  · intro holder held
    exact Option.some.inj (held.symm.trans prepared.held)
  rintro outcome after ⟨rfl, saved⟩
  have moved := moved_of_saved saved prepared.apps prepared.aliases
    prepared.locations prepared.bindings prepared.claims
  apply settles_pure
  apply lawful_ok
  apply invariant_of_resaved moved invariant stored free
  · rw [saved.minted, prepared.minted]
  · rw [saved.bindings]
    exact prepared.based

theorem lawful_rename (invariant : CatalogInvariant services stores)
    (workspaceId ref newName : Text)
    (renameOpen : RenameOpen services stores workspaceId ref newName) :
    Settles (executeStatement services) (renameAlias services workspaceId ref newName) stores
      (Lawful services stores) := by
  apply settles_checked _ invariant (settles_requireApp workspaceId ref)
  intro app known
  obtain ⟨found, stored⟩ := known app rfl
  apply settles_checked _ invariant (settles_orRaise _)
  intro name given
  dsimp only
  by_cases same : name = app.name
  · rw [if_pos same]
    exact settles_pure (lawful_same invariant _)
  rw [if_neg same]
  have agree := invariant.agree
  apply settles_bind
  refine Settles.weaken (settles_setAlias_cases workspaceId name app.appId) ?_
  rintro outcome after (⟨⟨thrown, rfl⟩, rfl⟩ | ⟨rfl, free, rfl⟩)
  · exact lawful_same invariant _
  have apart : (workspaceId, name) ≠ (workspaceId, app.name) := by
    intro equal
    exact same (Prod.mk.inj equal).2
  refine settles_query rfl ?_
  refine lawful_resave invariant stored free (renameOpen app found name given.symm same) ?_
  constructor
  case held =>
    exact (Function.update_of_ne apart _ _).trans (Function.update_self _ _ stores.aliases)
  case aliases =>
    intro other held away
    have notNew : (other, held) ≠ (workspaceId, name) := by
      intro equal
      exact away (Prod.mk.inj equal)
    simp only [alias_of_stored agree stored]
    by_cases old : other = workspaceId ∧ held = app.name
    · obtain ⟨rfl, rfl⟩ := old
      rw [Function.update_self, if_pos ⟨rfl, rfl⟩]
    · have notOld : (other, held) ≠ (workspaceId, app.name) :=
        fun equal => old (Prod.mk.inj equal)
      rw [Function.update_of_ne notOld, Function.update_of_ne notNew, if_neg old]
  case bindings =>
    have kept := bindings_kept agree stored
    exact kept
  case based =>
    exact invariant.based
  all_goals first | rfl | exact fun _ _ => rfl

variable {root slug : Text}

theorem lawful_firstSight (distinct : Function.Injective services.mint)
    (invariant : CatalogInvariant services stores) (yaml : AppYaml)
    (actor : Text) (rooted : root ≠ []) (sightOpen : stores.aliases (workspaceId, slug) = none →
      SaveOpen stores workspaceId slug none false) :
    Settles (executeStatement services) (firstSight workspaceId root slug yaml actor) stores
      (Lawful services stores) := by
  refine settles_query rfl ?_
  apply settles_bind
  refine Settles.weaken (settles_assertSlugAvailable _ _ _) ?_
  rintro outcome after ⟨rfl, checked⟩
  have agree := invariant.agree
  cases outcome with
  | error thrown =>
    exact ⟨invariant_minted invariant,
      fun _ _ => ⟨rfl, rfl, rfl, rfl, rfl, rfl⟩⟩
  | ok _ =>
    have free : stores.aliases (workspaceId, slug) = none := by
      cases held : stores.aliases (workspaceId, slug) with
      | none => rfl
      | some holder =>
        have own := checked rfl holder held
        obtain ⟨app, stored, _⟩ := (agree.aliases _ _ _).mp held
        rw [own, invariant.fresh _ le_rfl] at stored
        cases stored
    have saveNew : SaveOpen { stores with minted := stores.minted + 1 }
        workspaceId slug (some (services.mint stores.minted)) false := by
      obtain ⟨tenant, visible⟩ := sightOpen free
      refine ⟨tenant, visible.imp_right ?_⟩
      intro slugOpen claim held
      cases slugOpen claim held
    apply settles_bind
    refine Settles.weaken (settles_saveApp saveNew ?_) ?_
    · intro holder held
      exact absurd (free.symm.trans held) nofun
    rintro outcome after ⟨rfl, saved⟩
    have moved := moved_bound (moved_of_created invariant rfl saved)
    refine settles_query rfl ?_
    apply settles_pure
    apply lawful_ok
    apply invariant_of_created moved distinct invariant rfl free saved.minted
    intro other
    have apart : (other, []) ≠ (workspaceId, root) := by
      intro same
      exact rooted (Prod.mk.inj same).2.symm
    rw [saved.bindings]
    exact (Function.update_of_ne apart _ _).trans (invariant.based other)

theorem asks_locateExpected (workspaceId root appId : Text) :
    Asks (Reads workspaceId) (locateExpected services root appId) := by
  apply asks_rescue
  · unfold resolveAppLocation
    split
    · refine asks_bind (asks_query trivial) ?_
      intro location
      cases location with
      | none => exact asks_raise _
      | some location => exact asks_pure _
    · exact asks_raise _
  · intro thrown
    split <;> exact asks_raise _

def AliasesMoved (stores : CatalogStores) (workspaceId slug appId : Text)
    (aliases : Text × Text → Option Text) : Prop :=
  aliases (workspaceId, slug) = some appId ∧
    ∀ other name, ¬ (other = workspaceId ∧ name = slug) → aliases (other, name) =
        if stores.aliases (other, name) = some appId then none
        else stores.aliases (other, name)

variable {appId : Text} {app : AppManifest}

section

variable (agree : IndexesAgree stores)
  (stored : stores.appAt workspaceId appId = some app)
  (named : NamedBySlug stores workspaceId slug app)

include agree stored named

theorem aliasesMoved_dropped (changed : app.slug ≠ slug) :
    AliasesMoved stores workspaceId slug appId (Function.update
        (Function.update stores.aliases (workspaceId, slug) (some appId))
        (workspaceId, app.slug) none) := by
  have apart : (workspaceId, slug) ≠ (workspaceId, app.slug) := by
    intro equal
    exact changed (Prod.mk.inj equal).2.symm
  refine ⟨?_, ?_⟩
  · rw [Function.update_of_ne apart, Function.update_self]
  intro other name away
  have notNew : (other, name) ≠ (workspaceId, slug) :=
    fun equal => away (Prod.mk.inj equal)
  by_cases old : other = workspaceId ∧ name = app.slug
  · obtain ⟨rfl, rfl⟩ := old
    rw [Function.update_self]
    split
    · rfl
    · rename_i unheld
      rcases named with ⟨_, same⟩ | ⟨_, none⟩
      · rw [alias_of_stored agree stored] at unheld
        exact absurd ⟨rfl, same.symm⟩ unheld
      · exact none.symm
  · have notOld : (other, name) ≠ (workspaceId, app.slug) :=
      fun equal => old (Prod.mk.inj equal)
    rw [Function.update_of_ne notOld, Function.update_of_ne notNew, if_neg]
    rw [alias_of_stored agree stored]
    rintro ⟨rfl, rfl⟩
    rcases named with ⟨_, same⟩ | ⟨same, _⟩
    · exact old ⟨rfl, same⟩
    · exact away ⟨rfl, same⟩

theorem aliasesMoved_kept (kept : ¬ (app.slug ≠ [] ∧ app.slug ≠ slug)) :
    AliasesMoved stores workspaceId slug appId
      (Function.update stores.aliases (workspaceId, slug) (some appId)) := by
  have own : app.name = slug := by
    rcases named with ⟨given, same⟩ | ⟨same, _⟩
    · by_contra different
      rw [same] at different
      exact kept ⟨given, different⟩
    · exact same
  refine ⟨Function.update_self _ _ _, ?_⟩
  intro other name away
  have notNew : (other, name) ≠ (workspaceId, slug) :=
    fun equal => away (Prod.mk.inj equal)
  rw [Function.update_of_ne notNew, if_neg]
  rw [alias_of_stored agree stored, own]
  exact away

end

def BindingsMoved (stores : CatalogStores) (workspaceId root appId : Text)
    (bindings : Text × Text → Option Text) : Prop :=
  (∀ other bound held, bindings (other, bound) = some held →
      (held = appId ∧ other = workspaceId ∧ bound = root) ∨
        (held ≠ appId ∧ stores.bindings (other, bound) = some held)) ∧
    ∀ other, bindings (other, []) = none

section

variable (invariant : CatalogInvariant services stores)
  (stored : stores.appAt workspaceId appId = some app) (rooted : root ≠ [])

include invariant stored rooted

theorem bindingsMoved {bindings : Text × Text → Option Text}
    (written : bindings (workspaceId, root) = some appId)
    (gone : app.root = [] ∨ app.root = root ∨ bindings (workspaceId, app.root) = none)
    (others : ∀ key, key ≠ (workspaceId, root) →
      bindings key = none ∨ bindings key = stores.bindings key) :
    BindingsMoved stores workspaceId root appId bindings := by
  refine ⟨?_, ?_⟩
  · intro other bound held given
    by_cases here : (other, bound) = (workspaceId, root)
    · rw [here, written] at given
      obtain ⟨rfl, rfl⟩ := Prod.mk.inj here
      exact Or.inl ⟨(Option.some.inj given).symm, rfl, rfl⟩
    · have old : stores.bindings (other, bound) = some held := by
        rcases others _ here with dropped | same
        · rw [dropped] at given
          cases given
        · exact same.symm.trans given
      refine Or.inr ⟨?_, old⟩
      rintro rfl
      obtain ⟨rfl, rfl⟩ := bound_of_stored invariant.agree stored old
      rcases gone with empty | same | dropped
      · rw [empty, invariant.based] at old
        cases old
      · exact here (by rw [same])
      · rw [dropped] at given
        cases given
  · intro other
    have apart : (other, []) ≠ (workspaceId, root) := by
      intro same
      exact rooted (Prod.mk.inj same).2.symm
    rcases others _ apart with dropped | same
    · exact dropped
    · exact same.trans (invariant.based other)

theorem bindingsMoved_dropped (changed : app.root ≠ root) :
    BindingsMoved stores workspaceId root appId (Function.update
        (Function.update stores.bindings (workspaceId, root) (some appId))
        (workspaceId, app.root) none) := by
  have apart : (workspaceId, root) ≠ (workspaceId, app.root) := by
    intro equal
    exact changed (Prod.mk.inj equal).2.symm
  apply bindingsMoved invariant stored rooted
  · rw [Function.update_of_ne apart, Function.update_self]
  · exact Or.inr (Or.inr (Function.update_self _ _ _))
  · intro key different
    by_cases old : key = (workspaceId, app.root)
    · subst old
      exact Or.inl (Function.update_self _ _ _)
    · rw [Function.update_of_ne old, Function.update_of_ne different]
      exact Or.inr rfl

theorem bindingsMoved_kept (kept : ¬ (app.root ≠ [] ∧ app.root ≠ root)) :
    BindingsMoved stores workspaceId root appId
      (Function.update stores.bindings (workspaceId, root) (some appId)) := by
  apply bindingsMoved invariant stored rooted
  · exact Function.update_self _ _ _
  · by_cases empty : app.root = []
    · exact Or.inl empty
    · exact Or.inr (Or.inl (not_not.mp fun different => kept ⟨empty, different⟩))
  · intro key different
    exact Or.inr (Function.update_of_ne different _ _)

end

theorem lawful_renameApp (invariant : CatalogInvariant services stores)
    (workspaceId root slug : Text) (yaml : AppYaml) (expected : Text) (rooted : root ≠ [])
    (moveOpen : MoveOpen stores workspaceId slug expected) :
    Settles (executeStatement services)
      (renameApp services workspaceId root slug yaml expected) stores (Lawful services stores) := by
  have agree := invariant.agree
  apply settles_asked invariant (asks_locateExpected workspaceId root expected)
  intro location
  by_cases foreign : location.1 ≠ workspaceId
  · rw [if_pos foreign]
    exact settles_raise (lawful_same invariant _)
  rw [if_neg foreign]
  refine settles_query rfl ?_
  cases stored : stores.appAt workspaceId expected with
  | none => exact settles_raise (lawful_same invariant _)
  | some app =>
    have own := appId_of_appAt stored
    apply settles_checked _ invariant (settles_assertSlugAvailable _ _ _)
    intro _ checked
    have free := checked rfl
    obtain ⟨saveOpen, named⟩ := moveOpen app stored free
    apply settles_bind
    refine Settles.weaken (settles_setAlias free) ?_
    rintro outcome after ⟨rfl, rfl⟩
    have finish : ∀ aliases, AliasesMoved stores workspaceId slug expected aliases →
        Settles (executeStatement services) (do
          query (.writeLocation expected workspaceId slug)
          query (.writeBinding workspaceId root expected)
          if app.root ≠ [] ∧ app.root ≠ root then
            query (.deleteBinding workspaceId app.root)
          saveApp workspaceId (projectFromYaml app root slug yaml)
          pure (⟨expected, false, true⟩ : ReconcileResult))
          { stores with aliases := aliases } (Lawful services stores) := by
      intro aliases aliasesMoved
      refine settles_query rfl ?_
      refine settles_query rfl ?_
      have ready : ∀ bindings, BindingsMoved stores workspaceId root expected bindings →
          Ready stores workspaceId (projectFromYaml app root slug yaml)
            { stores with
              aliases := aliases
              locations := Function.update stores.locations expected (some (workspaceId, slug))
              bindings := bindings } := by
        intro bindings bindingsMoved
        subst own
        refine ⟨rfl, rfl, aliasesMoved.1, aliasesMoved.2, ?_,
          bindingsMoved.1, bindingsMoved.2, rfl⟩
        intro appId other
        exact Function.update_of_ne other _ _
      have save : ∀ bindings, BindingsMoved stores workspaceId root expected bindings →
          Settles (executeStatement services) (do
            saveApp workspaceId (projectFromYaml app root slug yaml)
            pure (⟨expected, false, true⟩ : ReconcileResult))
            { stores with
              aliases := aliases
              locations := Function.update stores.locations expected (some (workspaceId, slug))
              bindings := bindings }
            (Lawful services stores) := by
        intro bindings bindingsMoved
        subst own
        exact lawful_resave invariant stored free saveOpen (ready bindings bindingsMoved)
      split
      · rename_i changed
        refine settles_query rfl ?_
        exact save _ (bindingsMoved_dropped invariant stored rooted changed.2)
      · rename_i unchanged
        exact save _ (bindingsMoved_kept invariant stored rooted unchanged)
    dsimp only
    split
    · rename_i changed
      refine settles_query rfl ?_
      exact finish _ (aliasesMoved_dropped agree stored named changed.2)
    · rename_i unchanged
      exact finish _ (aliasesMoved_kept agree stored named unchanged)

theorem lawful_updateBound (invariant : CatalogInvariant services stores)
    (yaml : AppYaml) (bound : stores.bindings (workspaceId, root) = some appId)
    (updateOpen : UpdateOpen stores workspaceId slug yaml appId) :
    Settles (executeStatement services) (updateBound workspaceId root slug yaml appId) stores
      (Lawful services stores) := by
  have agree := invariant.agree
  obtain ⟨app, stored, rfl⟩ := agree.bindings _ _ _ bound
  obtain rfl := appId_of_appAt stored
  refine settles_query rfl ?_
  rw [stored]
  dsimp only
  rw [if_neg (fun away => away.2 rfl)]
  by_cases same : app.declared = some yaml ∧ app.slug = slug
  · rw [if_pos same]
    exact settles_pure (lawful_same invariant _)
  rw [if_neg same]
  apply settles_checked _ invariant (settles_assertSlugAvailable _ _ _)
  intro _ checked
  have free := checked rfl
  obtain ⟨saveOpen, named⟩ := updateOpen app stored same free
  apply settles_bind
  refine Settles.weaken (settles_saveApp saveOpen free) ?_
  rintro outcome after ⟨rfl, saved⟩
  have moved : Moved stores workspaceId (projectFromYaml app app.root slug yaml) after :=
    moved_of_kept agree stored named (Or.inl rfl) saved
  refine settles_query rfl ?_
  apply settles_pure
  apply lawful_ok
  have again : Moved stores workspaceId
      (projectFromYaml app app.root slug yaml) _ := moved_bound moved
  refine invariant_of_resaved again invariant stored free saved.minted ?_
  have rebound : Function.update after.bindings (workspaceId, app.root)
      (some app.appId) = stores.bindings := by
    rw [saved.bindings, ← bound, Function.update_eq_self]
  intro other
  exact (congrFun rebound (other, [])).trans (invariant.based other)

theorem root_ne_of_resolveSlug {yaml : AppYaml}
    (resolved : resolveSlug services root yaml = .ok slug) :
    slug = rootBasename root ∧ root ≠ [] := by
  have checked : (assertValidSlug services (rootBasename root) >>= fun _ =>
      Except.ok (rootBasename root)) = Except.ok slug := by
    rw [resolveSlug] at resolved
    dsimp only at resolved
    split at resolved
    · split at resolved
      · cases resolved
      · exact resolved
    · exact resolved
  obtain ⟨_, valid, same⟩ := bind_eq_ok_iff.mp checked
  refine ⟨(Except.ok.inj same).symm, ?_⟩
  rintro rfl
  have nameless : matchesName (rootBasename []) = false := rfl
  rw [assertValidSlug, if_pos nameless] at valid
  cases valid

theorem lawful_reconcile (distinct : Function.Injective services.mint)
    (invariant : CatalogInvariant services stores) (input : ReconcileInput)
    (reconcileOpen : ReconcileOpen stores input) :
    Settles (executeStatement services) (reconcileApp services input) stores
      (Lawful services stores) := by
  obtain ⟨bindOpen, freshOpen⟩ := reconcileOpen
  apply settles_checked _ invariant (settles_orRaise _)
  intro slug resolved
  obtain ⟨rfl, rooted⟩ := root_ne_of_resolveSlug resolved.symm
  refine settles_query rfl ?_
  cases bound : stores.bindings (input.workspaceId, input.root) with
  | none =>
    obtain ⟨moveOpen, sightOpen⟩ := freshOpen bound
    dsimp only
    cases given : input.expectedAppId with
    | some expected =>
      exact lawful_renameApp invariant _ _ _ _ expected rooted (moveOpen expected given)
    | none => exact lawful_firstSight distinct invariant _ _ rooted (sightOpen given)
  | some appId =>
    have updateOpen := bindOpen appId bound
    dsimp only
    cases input.expectedAppId with
    | some expected =>
      dsimp only
      split
      · exact settles_raise (lawful_same invariant _)
      · exact lawful_updateBound invariant _ bound updateOpen
    | none => exact lawful_updateBound invariant _ bound updateOpen

section

variable (invariant : CatalogInvariant services stores)

include invariant

theorem invariant_of_removed {after : CatalogStores}
    (stored : stores.appAt workspaceId appId = some app)
    (minted : after.minted = stores.minted)
    (apps : ∀ other otherId, after.appAt other otherId =
      if other = workspaceId ∧ otherId = appId then none
      else stores.appAt other otherId) (aliases : after.aliases =
      Function.update stores.aliases (workspaceId, app.name) none)
    (locations : after.locations = Function.update stores.locations appId none)
    (bindings : ∀ key, key ≠ (workspaceId, app.root) → after.bindings key = stores.bindings key)
    (unbound : after.bindings (workspaceId, app.root) = none)
    (claims : ∀ claim ∈ after.claims.rows, claim ∈ stores.claims.rows ∧ claim.appId ≠ appId) :
    CatalogInvariant services after := by
  have agree := invariant.agree
  have only : ∀ other found, stores.appAt other appId = some found → other = workspaceId := by
    intro other found there
    exact (homed_of_stored agree stored other found there).1
  have kept : ∀ other otherId, otherId ≠ appId →
      after.appAt other otherId = stores.appAt other otherId := by
    intro other otherId different
    rw [apps, if_neg (fun both => different both.2)]
  have gone : ∀ other, after.appAt other appId = none := by
    intro other
    rw [apps]
    by_cases here : other = workspaceId
    · exact if_pos ⟨here, rfl⟩
    · rw [if_neg (fun both => here both.1)]
      cases there : stores.appAt other appId with
      | none => rfl
      | some found => exact absurd (only other found there) here
  refine ⟨⟨?_, ?_, ?_, ?_⟩, ?_, ?_⟩
  · intro other name otherId
    rw [aliases]
    by_cases own : otherId = appId
    · subst own
      rw [gone]
      constructor
      · intro held
        by_cases same : (other, name) = (workspaceId, app.name)
        · rw [same, Function.update_self] at held
          cases held
        · rw [Function.update_of_ne same, alias_of_stored agree stored] at held
          exact absurd (Prod.ext held.1 held.2) same
      · rintro ⟨found, impossible, _⟩
        cases impossible
    · rw [kept other otherId own, ← agree.aliases]
      by_cases same : (other, name) = (workspaceId, app.name)
      · rw [same, Function.update_self, (alias_of_stored agree stored _ _).mpr ⟨rfl, rfl⟩]
        constructor
        · intro impossible
          cases impossible
        · intro held
          exact absurd (Option.some.inj held).symm own
      · rw [Function.update_of_ne same]
  · intro otherId other name
    rw [locations]
    by_cases own : otherId = appId
    · subst own
      rw [Function.update_self, gone]
      simp
    · rw [Function.update_of_ne own, kept other otherId own]
      exact agree.locations otherId other name
  · intro other root otherId held
    have apart : (other, root) ≠ (workspaceId, app.root) := by
      intro same
      rw [same, unbound] at held
      cases held
    rw [bindings _ apart] at held
    have different : otherId ≠ appId := by
      rintro rfl
      obtain ⟨rfl, rfl⟩ := bound_of_stored agree stored held
      exact apart rfl
    rw [kept other otherId different]
    exact agree.bindings other root otherId held
  · intro claim member
    obtain ⟨old, different⟩ := claims claim member
    obtain ⟨other, found, there⟩ := agree.claims claim old
    exact ⟨other, found, (kept other _ different).trans there⟩
  · intro number late other
    rw [minted] at late
    rw [apps]
    split
    · rfl
    · exact invariant.fresh number late other
  · intro other
    by_cases same : (other, []) = (workspaceId, app.root)
    · rw [same]
      exact unbound
    · rw [bindings _ same]
      exact invariant.based other

theorem lawful_remove (workspaceId appId : Text)
    (removeOpen : RemoveOpen stores workspaceId appId) :
    Settles (executeStatement services) (removeApp workspaceId appId) stores
      (Lawful services stores) := by
  have agree := invariant.agree
  refine settles_query rfl ?_
  refine settles_query rfl ?_
  have apps := appAt_deleteApp services stores workspaceId appId
  cases stored : stores.appAt workspaceId appId with
  | none =>
    have absent : stores.apps.find? (workspaceId, appId) = none := Option.map_eq_none_iff.mp stored
    have same : stores.apps.erase (workspaceId, appId) = stores.apps :=
      Keyed.erase_of_absent absent
    rw [same]
    exact settles_pure (lawful_same invariant _)
  | some app =>
    obtain rfl := appId_of_appAt stored
    obtain ⟨slugOpen, only⟩ := removeOpen app stored
    refine settles_query rfl ?_
    refine settles_query rfl ?_
    have finish : ∀ bindings : Text × Text → Option Text,
        (∀ key, key ≠ (workspaceId, app.root) → bindings key = stores.bindings key) →
        bindings (workspaceId, app.root) = none →
        Settles (executeStatement services) (do
          releaseGlobalSlug app.slug app.appId
          query (.deleteDirectory app.appId)
          pure (stores.apps.find? (workspaceId, app.appId)).isSome)
          { stores with
            apps := stores.apps.erase (workspaceId, app.appId)
            aliases := Function.update stores.aliases (workspaceId, app.name) none
            locations := Function.update stores.locations app.appId none
            bindings := bindings }
          (Lawful services stores) := by
      intro bindings others unbound
      apply settles_bind
      refine Settles.weaken (settles_releaseGlobalSlug slugOpen) ?_
      rintro outcome after ⟨rfl, claims, rfl, left⟩
      refine settles_query rfl ?_
      apply settles_pure
      apply lawful_ok
      refine invariant_of_removed invariant stored rfl apps rfl rfl others unbound ?_
      intro claim member
      obtain ⟨old, different⟩ := left claim member
      exact ⟨old, fun own => different (only claim old own)⟩
    dsimp only
    split
    · rename_i rooted
      refine settles_query rfl ?_
      apply finish
      · intro key different
        exact Function.update_of_ne different _ _
      · exact Function.update_self _ _ _
    · rename_i rootless
      apply finish
      · intro key _
        rfl
      · rw [not_not.mp rootless]
        exact invariant.based workspaceId

theorem lawful_claim (enabled : (stores.appAt workspaceId appId).isSome = true) :
    Settles (executeStatement services) (claimGlobalSlug services slug appId workspaceId) stores
      (Lawful services stores) := by
  have agree := invariant.agree
  apply settles_asked invariant (asks_orRaise workspaceId _)
  intro _
  refine settles_query rfl ?_
  cases stores.claims.find? slug with
  | none =>
    refine lawful_ok ⟨⟨agree.aliases, agree.locations, agree.bindings, ?_⟩,
      invariant.fresh, invariant.based⟩
    intro claim member
    rcases Keyed.mem_rows_put.mp member with rfl | ⟨old, _⟩
    · obtain ⟨app, stored⟩ := Option.isSome_iff_exists.mp enabled
      exact ⟨workspaceId, app, stored⟩
    · exact agree.claims claim old
  | some claim =>
    dsimp only
    split
    · exact settles_raise (lawful_same invariant _)
    · exact settles_pure (lawful_same invariant _)

end

theorem lawful_ignored {process : CatalogCall Value}
    (lawful : Settles (executeStatement services) process stores (Lawful services stores)) :
    Settles (executeStatement services) (do let _ ← process) stores (Lawful services stores) := by
  apply settles_bind
  refine Settles.weaken lawful ?_
  intro outcome after ended
  cases outcome with
  | ok value => exact ⟨ended.invariant, nofun⟩
  | error thrown => exact ⟨ended.invariant, fun _ _ => ended.unchanged thrown rfl⟩

theorem lawful_serveAct (distinct : Function.Injective services.mint)
    (invariant : CatalogInvariant services stores) (act : CatalogAct)
    (enabled : act.enabled stores = true) (condition : CatalogCondition services stores act) :
    Settles (executeStatement services) (serveAct services act) stores
      (Lawful services stores) := by
  cases act with
  | publish workspaceId args =>
    exact lawful_ignored (lawful_publish distinct invariant workspaceId args condition)
  | rename workspaceId ref newName =>
    exact lawful_ignored (lawful_rename invariant workspaceId ref newName condition)
  | reconcile input => exact lawful_ignored (lawful_reconcile distinct invariant input condition)
  | remove workspaceId appId =>
    exact lawful_ignored (lawful_remove invariant workspaceId appId condition)
  | claim slug appId workspaceId => exact lawful_claim invariant enabled
  | writeFile workspaceId path content mimeType =>
    exact lawful_ok ⟨⟨invariant.agree.aliases, invariant.agree.locations,
      invariant.agree.bindings, invariant.agree.claims⟩, invariant.fresh,
      invariant.based⟩

end

section

variable {services : CatalogServices}

theorem catalogInvariant_empty (files : Text → Store) :
    CatalogInvariant services (CatalogStores.empty files) := by
  have nothing : ∀ workspaceId appId, (CatalogStores.empty files).appAt workspaceId appId = none :=
    fun _ _ => rfl
  refine ⟨⟨?_, ?_, nofun, nofun⟩, fun _ _ _ => rfl, fun _ => rfl⟩
  · intro workspaceId name appId
    rw [nothing]
    exact ⟨nofun, nofun⟩
  · intro appId workspaceId name
    rw [nothing]
    exact ⟨nofun, nofun⟩

theorem catalogInvariant_step (distinct : Function.Injective services.mint)
    {stores next : CatalogStores} {act : CatalogAct}
    (invariant : CatalogInvariant services stores)
    (condition : CatalogCondition services stores act)
    (taken : catalogStep services stores act = some next) :
    CatalogInvariant services next := by
  rw [catalogStep] at taken
  split at taken
  · rename_i enabled
    cases taken
    exact (lawful_serveAct distinct invariant act enabled condition).invariant
  · cases taken

end

/-- In every run whose calls meet the condition, every call leaves indexes
that agree with the records, and a call that throws leaves the catalog as it
was. -/
theorem indexes_agree_with_records (services : CatalogServices)
    (distinct : Function.Injective services.mint) (files : Text → Store) (acts : List CatalogAct)
    (act : CatalogAct) (stores : CatalogStores)
    (meets : StepsMeet (catalogStep services) (CatalogCondition services)
      (CatalogStores.empty files) acts)
    (executed : runFrom (catalogStep services) (CatalogStores.empty files) acts = some stores)
    (enabled : act.enabled stores = true) (condition : CatalogCondition services stores act) :
    CatalogLaw stores (settleAct services stores act).1 (settleAct services stores act).2 := by
  have invariant : CatalogInvariant services stores := by
    apply invariant_of_stepsMeet (CatalogInvariant services) ?preserved
      (catalogInvariant_empty files) meets executed
    case preserved =>
      intro state act next invariant condition taken
      exact catalogInvariant_step distinct invariant condition taken
  have lawful := lawful_serveAct distinct invariant act enabled condition
  exact ⟨lawful.invariant.agree, lawful.unchanged⟩

/-- Services for short runs: ids are long texts. -/
def plainServices : CatalogServices where
  isAppId text := 26 ≤ text.length
  mint number := List.replicate (26 + number) '0'
  liveRelease _ _ := none
  sha256 text := text
  now := 0
  loadAppYaml _ := none

theorem plainServices_mint : Function.Injective plainServices.mint := by
  intro first second same
  have lengths := congrArg List.length same
  simp only [plainServices, List.length_replicate] at lengths
  omega

def plainPublish (name : Text) (isPublic : Bool) : PublishArgs where
  name := name
  app := none
  target := none
  title := none
  description := none
  isPublic := some isPublic
  allowedTools := []
  userId := "user".toList

/-- An app is seen first, claims its slug, is published, refuses one name and
takes another. -/
def appLife : List CatalogAct :=
  [.reconcile ⟨"ws".toList, "apps/notes".toList,
      ⟨none, none, none, none, []⟩, none, "user".toList⟩,
    .claim "notes".toList (plainServices.mint 0) "ws".toList,
    .publish "ws".toList (plainPublish "notes".toList true),
    .rename "ws".toList "notes".toList "Bad Name".toList,
    .rename "ws".toList "notes".toList "diary".toList]

def noFiles (_ : Text) : Store :=
  ⟨.sqlite, [], Fs.Store.keys_nil⟩

theorem indexes_agree_with_records_appLife :
    ∃ stores, runFrom (catalogStep plainServices) (CatalogStores.empty noFiles)
        appLife = some stores ∧
      stores.aliases ("ws".toList, "diary".toList) = some (plainServices.mint 0) ∧
      CatalogLaw stores (settleAct plainServices stores
          (.remove "ws".toList (plainServices.mint 0))).1
        (settleAct plainServices stores (.remove "ws".toList (plainServices.mint 0))).2 := by
  have ran :
      (runFrom (catalogStep plainServices) (CatalogStores.empty noFiles)
        appLife).map (fun stores => decide (stores.aliases ("ws".toList, "diary".toList) =
              some (plainServices.mint 0) ∧
            CatalogCondition plainServices stores (.remove "ws".toList (plainServices.mint 0)))) =
        some true := by
    decide +kernel
  obtain ⟨stores, executed, seen⟩ := Option.map_eq_some_iff.mp ran
  obtain ⟨named, condition⟩ := of_decide_eq_true seen
  have meets : StepsMeet (catalogStep plainServices)
      (CatalogCondition plainServices) (CatalogStores.empty noFiles)
      appLife := by
    decide +kernel
  exact ⟨stores, executed, named,
    indexes_agree_with_records plainServices plainServices_mint noFiles appLife
      (.remove "ws".toList (plainServices.mint 0)) stores meets executed rfl
      condition⟩

/-- One app claims the slug that is the name of another one. -/
def slugOfAnother : List CatalogAct :=
  [.publish "ws".toList (plainPublish "diary".toList true),
    .claim "notes".toList (plainServices.mint 0) "ws".toList]

/-- The private publish throws after it has written the record. -/
theorem indexes_not_agree :
    ¬ ∀ (services : CatalogServices), Function.Injective services.mint →
      ∀ (files : Text → Store) (acts : List CatalogAct) (act : CatalogAct)
        (stores : CatalogStores),
        runFrom (catalogStep services) (CatalogStores.empty files) acts = some stores →
        act.enabled stores = true →
        CatalogLaw stores (settleAct services stores act).1 (settleAct services stores act).2 := by
  intro law
  have ran :
      (runFrom (catalogStep plainServices) (CatalogStores.empty noFiles)
        slugOfAnother).map (fun stores =>
          let settled := settleAct plainServices stores
            (.publish "ws".toList (plainPublish "notes".toList false))
          (settled.1.toOption.isSome, stores.apps.rows.length,
            settled.2.apps.rows.length)) = some (false, 1, 2) := by
    decide +kernel
  obtain ⟨stores, executed, seen⟩ := Option.map_eq_some_iff.mp ran
  have held := law plainServices plainServices_mint noFiles slugOfAnother
    (.publish "ws".toList (plainPublish "notes".toList false)) stores
    executed rfl
  simp only [Prod.mk.injEq] at seen
  obtain ⟨threw, one, two⟩ := seen
  generalize settleAct plainServices stores
    (.publish "ws".toList (plainPublish "notes".toList false)) = settled
    at held threw two
  obtain ⟨outcome, after⟩ := settled
  cases outcome with
  | ok value => cases threw
  | error thrown =>
    have same := (held.unchanged thrown rfl).apps
    dsimp only at two
    rw [same, one] at two
    cases two

end Aprovan.Apps.Catalog
