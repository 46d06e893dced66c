import Aprovan.Apps.Creation

/-!
# Creation is exclusive where its checks still hold

A creator checks that its root and its name are free, and writes its record,
its alias and the location one after the other.  Where the checks still hold
when the record is written nothing after it can fail.
-/

namespace Aprovan.Apps.Catalog

open Aprovan.Library Aprovan.Server Aprovan.Fs

structure Known where
  /-- The id it has drawn. -/
  minted : Option Text
  /-- Ids of records that it has read or written. -/
  stored : List Text
  /-- Aliases that it has read or written. -/
  held : List (Text × Text)
  /-- The record it has written. -/
  saving : Option AppManifest

def Known.start : Known where
  minted := none
  stored := []
  held := []
  saving := none

def Known.after (known : Known) :
    (statement : CatalogStatement) → Except ServiceError statement.Answer → Known
  | .mintAppId, .ok appId => { known with minted := some appId }
  | .readApp _ appId, .ok (some _) => { known with stored := appId :: known.stored }
  | .readAlias _ name, .ok (some holder) => { known with held := (name, holder) :: known.held }
  | .writeApp _ manifest, .ok _ =>
    { known with
      stored := manifest.appId :: known.stored
      saving := some manifest }
  | .writeAlias _ name appId, .ok _ => { known with held := (name, appId) :: known.held }
  | _, _ => known

def Known.admits (workspaceId : Text) (known : Known) : CatalogStatement → Prop
  | .mintAppId => known.minted = none
  | .readApp asked _ => asked = workspaceId
  | .readAlias asked _ => asked = workspaceId
  | .writeApp asked manifest => asked = workspaceId ∧ known.saving = none ∧
      (known.minted = some manifest.appId ∨ manifest.appId ∈ known.stored)
  | .writeAlias asked name appId => asked = workspaceId ∧
      ∃ manifest, known.saving = some manifest ∧ manifest.name = name ∧ manifest.appId = appId
  | .deleteApp _ _ => False
  | .deleteAlias _ _ => False
  | .writeClaim _ => False
  | _ => True

/-- What it is answered: no statement fails, a record lies under its id, and
what it needs for the record it has written is not held by another app. -/
def Known.possible (workspaceId : Text) (known : Known) :
    (statement : CatalogStatement) → Except ServiceError statement.Answer → Prop
  | .readApp _ appId, answer => ∃ found, answer = .ok found ∧ ∀ app ∈ found, app.appId = appId
  | .readAlias _ name, answer => ∃ found, answer = .ok found ∧
      ∀ manifest ∈ known.saving, manifest.name = name → ∀ holder ∈ found, holder = manifest.appId
  | .readClaim slug, answer => ∃ found, answer = .ok found ∧
      ∀ manifest ∈ known.saving, manifest.isPublic = false →
        manifest.slug = slug → ∀ claim ∈ found, claim.appId = manifest.appId
  | .writeApp _ _, answer => (∃ given, answer = .ok given) ∧ workspaceId ≠ deploymentTenant
  | _, answer => ∃ given, answer = .ok given

def creating (workspaceId : Text) : Discipline CatalogStatement.Answer ServiceError Known where
  admits := Known.admits workspaceId
  possible := Known.possible workspaceId
  remember := Known.after

/-- How a creator ends: it returns an app that it knows to be stored, and to
have its alias if it wrote the record, or it has written none. -/
def createdEnds (request : CreationRequest) (known : Known) : Outcome Text → Prop
  | .ok appId => appId ∈ known.stored ∧
      (∀ manifest ∈ known.saving, (manifest.name, manifest.appId) ∈ known.held) ∧
      ∀ actor, request = .ensurePersonal actor → (personalSlug, appId) ∈ known.held
  | .error _ => known.saving = none

section

variable {services : CatalogServices} {workspaceId : Text} {known : Known}

/-- The creator has learned, and neither drawn an id nor written a record. -/
structure Learned (before after : Known) : Prop where
  minted : after.minted = before.minted
  saving : after.saving = before.saving
  stored : ∀ appId ∈ before.stored, appId ∈ after.stored
  held : ∀ pair ∈ before.held, pair ∈ after.held

theorem learned_refl (known : Known) : Learned known known :=
  ⟨rfl, rfl, fun _ member => member, fun _ member => member⟩

theorem Learned.trans {first second third : Known}
    (before : Learned first second) (after : Learned second third) :
    Learned first third :=
  ⟨after.minted.trans before.minted, after.saving.trans before.saving,
    fun appId member => after.stored appId (before.stored appId member),
    fun pair member => after.held pair (before.held pair member)⟩

/-- The statement reads the workspace, or writes what is none of the catalog's
records and aliases. -/
def Harmless (workspaceId : Text) : CatalogStatement → Prop
  | .mintAppId => False
  | .readApp asked _ => asked = workspaceId
  | .readAlias asked _ => asked = workspaceId
  | .writeApp _ _ => False
  | .writeAlias _ _ _ => False
  | .deleteApp _ _ => False
  | .deleteAlias _ _ => False
  | .writeClaim _ => False
  | _ => True

variable {statement : CatalogStatement}

theorem admits_of_harmless (harmless : Harmless workspaceId statement) (known : Known) :
    known.admits workspaceId statement := by
  cases statement <;> first | exact harmless | exact harmless.elim

theorem learned_after (harmless : Harmless workspaceId statement)
    (known : Known) (answer : Except ServiceError statement.Answer) :
    Learned known (known.after statement answer) := by
  cases statement with
  | readApp asked appId =>
    rcases answer with thrown | found | app
    · exact learned_refl known
    · exact learned_refl known
    · exact ⟨rfl, rfl, fun _ member => List.mem_cons_of_mem _ member,
        fun _ member => member⟩
  | readAlias asked name =>
    rcases answer with thrown | found | holder
    · exact learned_refl known
    · exact learned_refl known
    · exact ⟨rfl, rfl, fun _ member => member,
        fun _ member => List.mem_cons_of_mem _ member⟩
  | mintAppId => exact harmless.elim
  | writeApp asked manifest => exact harmless.elim
  | writeAlias asked name appId => exact harmless.elim
  | _ => exact learned_refl known

variable {Value : Type} {process : CatalogCall Value}

theorem follows_harmless (asks : Asks (Harmless workspaceId) process) :
    Follows (creating workspaceId) (fun after _ => Learned known after) known process := by
  induction process generalizing known with
  | done outcome => exact learned_refl known
  | await statement resume ih =>
    refine ⟨admits_of_harmless asks.1 known, ?_⟩
    intro answer possible
    apply (ih answer (asks.2 answer)).weaken
    intro after outcome learned
    exact (learned_after asks.1 known answer).trans learned

theorem ok_of_possible {answer : Except ServiceError statement.Answer}
    (possible : known.possible workspaceId statement answer) :
    ∃ given, answer = .ok given := by
  cases statement with
  | readApp asked appId => exact possible.imp fun _ both => both.1
  | readAlias asked name => exact possible.imp fun _ both => both.1
  | readClaim slug => exact possible.imp fun _ both => both.1
  | writeApp asked manifest => exact possible.1
  | _ => exact possible

theorem follows_query {next : statement.Answer → CatalogCall Value}
    {ends : Known → Outcome Value → Prop} (admitted : known.admits workspaceId statement)
    (rest : ∀ given, known.possible workspaceId statement (.ok given) →
      Follows (creating workspaceId) ends (known.after statement (.ok given)) (next given)) :
    Follows (creating workspaceId) ends known (query statement >>= next) := by
  refine ⟨admitted, ?_⟩
  intro answer possible
  obtain ⟨given, rfl⟩ := ok_of_possible possible
  exact rest given possible

theorem follows_last {ends : Known → Outcome statement.Answer → Prop}
    (admitted : known.admits workspaceId statement)
    (ended : ∀ given, known.possible workspaceId statement (.ok given) →
      ends (known.after statement (.ok given)) (.ok given)) :
    Follows (creating workspaceId) ends known (query statement) := by
  apply follows_perform admitted
  intro answer possible
  obtain ⟨given, rfl⟩ := ok_of_possible possible
  exact ended given possible

theorem asks_harmless (harmless : Harmless workspaceId statement) :
    Asks (Harmless workspaceId) (query statement) :=
  asks_perform harmless

theorem harmless_of_reads (asks : Asks (Reads workspaceId) process) :
    Asks (Harmless workspaceId) process := by
  apply asks.weaken
  intro statement reads
  cases statement <;> first | exact reads | exact reads.elim

structure SavedBy (before : Known) (manifest : AppManifest) (after : Known) : Prop where
  saving : after.saving = some manifest
  stored : manifest.appId ∈ after.stored
  held : (manifest.name, manifest.appId) ∈ after.held
  kept : ∀ pair ∈ before.held, pair ∈ after.held

theorem follows_setAlias {manifest : AppManifest} (saving : known.saving = some manifest) :
    Follows (creating workspaceId) (fun after outcome => outcome = .ok () ∧
        after.saving = some manifest ∧ after.stored = known.stored ∧
        (manifest.name, manifest.appId) ∈ after.held ∧
        ∀ pair ∈ known.held, pair ∈ after.held) known
      (setAlias workspaceId manifest.name manifest.appId) := by
  refine follows_query rfl ?_
  rintro found ⟨_, same, own⟩
  cases same
  cases found with
  | none =>
    refine follows_last ⟨rfl, manifest, saving, rfl, rfl⟩ ?_
    intro given _
    exact ⟨rfl, saving, rfl, List.mem_cons_self,
      fun pair member => List.mem_cons_of_mem _ member⟩
  | some holder =>
    obtain rfl := own manifest saving rfl holder rfl
    dsimp only
    rw [if_neg (not_not.mpr rfl)]
    exact ⟨rfl, saving, rfl, List.mem_cons_self,
      fun pair member => List.mem_cons_of_mem _ member⟩

/-- The directory and the claim on the slug of the record that was
written. -/
theorem follows_syncDirectoryEntry {manifest : AppManifest}
    (saving : known.saving = some manifest) (tenant : workspaceId ≠ deploymentTenant) :
    Follows (creating workspaceId) (fun after outcome => outcome = .ok () ∧ after = known) known
      (syncDirectoryEntry workspaceId manifest) := by
  rw [syncDirectoryEntry, assertNotDeploymentTenant, if_neg tenant]
  cases isPublic : manifest.isPublic with
  | true =>
    refine follows_query trivial ?_
    intro live _
    refine follows_last trivial ?_
    intro given _
    exact ⟨rfl, rfl⟩
  | false =>
    refine follows_query trivial ?_
    intro given _
    refine follows_query trivial ?_
    rintro found ⟨_, same, own⟩
    cases same
    cases found with
    | none => exact ⟨rfl, rfl⟩
    | some claim =>
      have same := own manifest saving isPublic rfl claim rfl
      dsimp only
      rw [if_neg (not_not.mpr same)]
      refine follows_last trivial ?_
      intro given _
      exact ⟨rfl, rfl⟩

variable {manifest : AppManifest}

theorem follows_saveApp (unsaved : known.saving = none)
    (named : known.minted = some manifest.appId ∨ manifest.appId ∈ known.stored) :
    Follows (creating workspaceId)
      (fun after outcome => outcome = .ok () ∧ SavedBy known manifest after)
      known (saveApp workspaceId manifest) := by
  refine follows_query ⟨rfl, unsaved, named⟩ ?_
  rintro given ⟨_, tenant⟩
  apply follows_bind
  apply (follows_setAlias rfl).weaken
  rintro after outcome ⟨rfl, saving, stored, held, kept⟩
  refine follows_query trivial ?_
  intro given _
  apply (follows_syncDirectoryEntry saving tenant).weaken
  rintro later outcome ⟨ended, same⟩
  have unchanged : later = after := same
  subst unchanged
  refine ⟨ended, saving, ?_, held, kept⟩
  rw [stored]
  exact List.mem_cons_self

/-- What the calls that create an app know when they return it. -/
def returnedEnds {Value : Type} (idOf : Value → Text) (known : Known) : Outcome Value → Prop
  | .ok value => idOf value ∈ known.stored ∧
      ∀ manifest ∈ known.saving, (manifest.name, manifest.appId) ∈ known.held
  | .error _ => known.saving = none

theorem returned_of_saved {before after : Known} (saved : SavedBy before manifest after) :
    returnedEnds AppManifest.appId after (.ok manifest) := by
  refine ⟨saved.stored, ?_⟩
  intro other saving
  rw [saved.saving] at saving
  cases saving
  exact saved.held

theorem follows_readPersonal :
    Follows (creating workspaceId) (fun after outcome => Learned known after ∧
        ∃ found, outcome = .ok found ∧ ∀ app ∈ found, app.appId ∈ after.stored ∧
            (personalSlug, app.appId) ∈ after.held) known (readPersonal workspaceId) := by
  refine follows_query rfl ?_
  intro holder _
  cases holder with
  | none => exact ⟨learned_refl known, none, rfl, nofun⟩
  | some holder =>
    refine follows_last rfl ?_
    rintro found ⟨_, same, under⟩
    cases same
    cases found with
    | none =>
      exact ⟨⟨rfl, rfl, fun _ member => member,
        fun _ member => List.mem_cons_of_mem _ member⟩, none, rfl, nofun⟩
    | some app =>
      obtain rfl := under app rfl
      refine ⟨⟨rfl, rfl, fun _ member => List.mem_cons_of_mem _ member,
        fun _ member => List.mem_cons_of_mem _ member⟩, some app, rfl, ?_⟩
      rintro other same
      cases same
      exact ⟨List.mem_cons_self, List.mem_cons_self⟩

theorem follows_ensurePersonalApp (actor : Text) :
    Follows (creating workspaceId) (fun after outcome =>
        returnedEnds AppManifest.appId after outcome ∧ ∀ app, outcome = .ok app →
          (personalSlug, app.appId) ∈ after.held) Known.start
      (ensurePersonalApp workspaceId actor) := by
  apply follows_bind
  apply follows_readPersonal.weaken
  rintro after outcome ⟨learned, found, rfl, own⟩
  have unsaved : after.saving = none := learned.saving
  cases found with
  | some app =>
    obtain ⟨stored, held⟩ := own app rfl
    refine follows_pure ⟨⟨stored, ?_⟩, ?_⟩
    · intro manifest saving
      rw [unsaved] at saving
      cases saving
    · rintro other same
      cases same
      exact held
  | none =>
    apply follows_bind
    apply (follows_harmless (harmless_of_reads
      (asks_assertRootAvailable workspaceId personalRoot none))).weaken
    intro checked outcome learnedMore
    have both := learned.trans learnedMore
    cases outcome with
    | error thrown => exact ⟨both.saving, nofun⟩
    | ok _ =>
      refine follows_query both.minted ?_
      intro appId _
      apply follows_rescue
      apply follows_bind
      refine Follows.weaken (follows_saveApp both.saving (Or.inl rfl)) ?_
      rintro after outcome ⟨rfl, saved⟩
      refine follows_pure ⟨returned_of_saved saved, ?_⟩
      rintro other same
      cases same
      exact saved.held

theorem follows_readApp (appId : Text) :
    Follows (creating workspaceId) (fun after outcome => Learned known after ∧
        ∃ found, outcome = .ok found ∧ ∀ app ∈ found,
          app.appId = appId ∧ app.appId ∈ after.stored) known
      (query (.readApp workspaceId appId)) := by
  refine follows_last rfl ?_
  rintro found ⟨_, same, under⟩
  cases same
  cases found with
  | none => exact ⟨learned_refl known, none, rfl, nofun⟩
  | some app =>
    obtain rfl := under app rfl
    refine ⟨⟨rfl, rfl, fun _ member => List.mem_cons_of_mem _ member,
      fun _ member => member⟩, some app, rfl, ?_⟩
    rintro other same
    cases same
    exact ⟨rfl, List.mem_cons_self⟩

theorem asks_resolveAppRef (ref : Text) :
    Asks (Reads workspaceId) (resolveAppRef services workspaceId ref) := by
  unfold resolveAppRef
  split
  · exact asks_raise _
  · split
    · exact asks_pure _
    · refine asks_bind (asks_query rfl) ?_
      intro holder
      cases holder with
      | none => exact asks_raise _
      | some holder => exact asks_pure _

theorem follows_publishedApp (args : PublishArgs) :
    Follows (creating workspaceId) (fun after outcome => Learned known after ∧
        ∃ existing, outcome = .ok existing ∧ ∀ app ∈ existing, app.appId ∈ after.stored) known
      (publishedApp services workspaceId args) := by
  have read : ∀ (before : Known) (appId : Text), Learned known before →
      Follows (creating workspaceId) (fun after outcome => Learned known after ∧
          ∃ existing, outcome = .ok existing ∧ ∀ app ∈ existing, app.appId ∈ after.stored) before
        (query (.readApp workspaceId appId)) := by
    intro before appId learned
    apply (follows_readApp appId).weaken
    rintro after outcome ⟨more, found, rfl, own⟩
    exact ⟨learned.trans more, found, rfl, fun app member => (own app member).2⟩
  apply follows_rescue
  refine follows_then (follows_harmless (harmless_of_reads (asks_resolveAppRef _))) ?_ ?_
  · intro after thrown learned
    refine follows_query rfl ?_
    intro holder _
    have harmless : Harmless workspaceId (.readAlias workspaceId args.name) := rfl
    have more := learned.trans (learned_after harmless after (.ok holder))
    cases holder with
    | none => exact follows_pure ⟨more, none, rfl, nofun⟩
    | some holder => exact read _ holder more
  · intro after appId learned
    apply (read after appId learned).weaken
    rintro later outcome ⟨more, existing, rfl, own⟩
    exact ⟨more, existing, rfl, own⟩

theorem asks_assertPublishable (name : Text) (existing : Option AppManifest) :
    Asks (Reads workspaceId) (assertPublishable workspaceId name existing) := by
  cases existing with
  | none =>
    refine asks_bind (asks_query rfl) ?_
    intro holder
    cases holder with
    | none => exact asks_pure _
    | some holder => exact asks_raise _
  | some app =>
    rw [assertPublishable]
    split
    · exact asks_raise _
    · exact asks_pure _

theorem asks_assertSlugAvailable (slug appId : Text) :
    Asks (Reads workspaceId) (assertSlugAvailable workspaceId slug appId) := by
  refine asks_bind (asks_query rfl) ?_
  intro holder
  cases holder with
  | none => exact asks_pure _
  | some holder =>
    dsimp only
    split
    · exact asks_raise _
    · exact asks_pure _

theorem follows_checked {Result : Type} {idOf : Result → Text} {check : CatalogCall Value}
    {next : Value → CatalogCall Result} (asks : Asks (Harmless workspaceId) check)
    (learned : Learned Known.start known)
    (rest : ∀ value after, Learned Known.start after → Learned known after →
      Follows (creating workspaceId) (returnedEnds idOf) after (next value)) :
    Follows (creating workspaceId) (returnedEnds idOf) known (check >>= next) := by
  apply follows_bind
  apply (follows_harmless asks).weaken
  intro after outcome more
  have both := learned.trans more
  cases outcome with
  | ok value => exact rest value after both more
  | error thrown => exact both.saving

theorem follows_read {Result : Type} {idOf : Result → Text} {check : CatalogCall Value}
    {next : Value → CatalogCall Result} (asks : Asks (Reads workspaceId) check)
    (learned : Learned Known.start known)
    (rest : ∀ value after, Learned Known.start after → Learned known after →
      Follows (creating workspaceId) (returnedEnds idOf) after (next value)) :
    Follows (creating workspaceId) (returnedEnds idOf) known (check >>= next) :=
  follows_checked (harmless_of_reads asks) learned rest

theorem follows_saved (learned : Learned Known.start known)
    (named : manifest.appId ∈ known.stored) :
    Follows (creating workspaceId) (returnedEnds AppManifest.appId) known
      (do
        saveApp workspaceId manifest
        pure manifest) := by
  apply follows_bind
  refine Follows.weaken (follows_saveApp learned.saving (Or.inr named)) ?_
  rintro after outcome ⟨rfl, saved⟩
  exact follows_pure (returned_of_saved saved)

theorem follows_publishApp (args : PublishArgs) :
    Follows (creating workspaceId) (returnedEnds AppManifest.appId) Known.start
      (publishApp services workspaceId args) := by
  apply follows_read (asks_orRaise workspaceId _) (learned_refl _)
  intro _ known learned _
  apply follows_bind
  apply (follows_publishedApp args).weaken
  rintro found outcome ⟨more, existing, rfl, own⟩
  apply follows_read (asks_assertPublishable args.name existing) (learned.trans more)
  intro _ publishable learned known
  apply follows_read (asks_assertRootAvailable workspaceId _ _) learned
  intro _ available learned more
  apply follows_read (asks_loadRootYaml workspaceId _) learned
  intro yaml loaded learned last
  cases existing with
  | none =>
    refine follows_query learned.minted ?_
    intro appId _
    apply follows_bind
    refine Follows.weaken (follows_saveApp learned.saving (Or.inl rfl)) ?_
    rintro after outcome ⟨rfl, saved⟩
    exact follows_pure (returned_of_saved saved)
  | some app =>
    have stored := (known.trans (more.trans last)).stored _ (own app rfl)
    apply follows_bind
    exact follows_pure (follows_saved learned stored)

theorem asks_copyListed (plan : PromotePlan) (entry : FsEntry) :
    Asks (Harmless workspaceId) (copyListed workspaceId plan entry) := by
  refine asks_bind (asks_harmless trivial) ?_
  intro file
  cases file with
  | none => exact asks_pure _
  | some file => exact asks_harmless trivial

theorem asks_resolveRootEntry (root : Text) :
    Asks (Harmless workspaceId) (resolveRootEntry workspaceId root) := by
  refine asks_bind (asks_harmless trivial) ?_
  intro file
  cases file with
  | some file => exact asks_pure _
  | none =>
    refine asks_bind (asks_harmless trivial) ?_
    intro entries
    dsimp only
    split
    · exact asks_pure _
    · split <;> exact asks_pure _

theorem asks_loadPromotedYaml (root : Text) :
    Asks (Harmless workspaceId) (loadPromotedYaml services workspaceId root) := by
  refine asks_bind (asks_harmless trivial) ?_
  intro file
  cases file with
  | none => exact asks_pure _
  | some file => exact asks_pure _

theorem follows_undoPromotion (root : Text) (thrown : ServiceError)
    (learned : Learned Known.start known) :
    Follows (creating workspaceId) (fun after (outcome : Outcome Value) =>
        outcome = .error thrown ∧ Learned Known.start after) known
      (undoPromotion workspaceId root none thrown) := by
  apply follows_bind
  apply follows_rescue
  refine follows_last trivial ?_
  intro given _
  exact follows_raise ⟨rfl, learned⟩

theorem follows_promotedManifest (plan : PromotePlan) (actor : Text)
    (learned : Learned Known.start known) :
    Follows (creating workspaceId)
      (fun after outcome =>
        match outcome with
        | .ok manifest => after.saving = none ∧ after.minted = some manifest.appId
        | .error _ => Learned Known.start after) known
      (promotedManifest services workspaceId plan actor) := by
  apply follows_bind
  have entry : Asks (Harmless workspaceId)
      (Process.rescue (fun _ => pure (conventionalEntry plan.root))
        (resolveRootEntry workspaceId plan.root)) :=
    asks_rescue (asks_resolveRootEntry plan.root) fun _ => asks_pure _
  apply (follows_harmless entry).weaken
  intro after outcome more
  have found := learned.trans more
  cases outcome with
  | error thrown => exact found
  | ok path =>
    apply follows_bind
    apply (follows_harmless (asks_loadPromotedYaml plan.root)).weaken
    intro later outcome last
    have loaded := found.trans last
    cases outcome with
    | error thrown => exact loaded
    | ok yaml =>
      refine follows_query loaded.minted ?_
      intro appId _
      exact follows_pure ⟨loaded.saving, rfl⟩

/-- Nothing fails once the record is written, and the rollback is not
needed. -/
theorem follows_mintPromoted (plan : PromotePlan) (unsaved : known.saving = none)
    (minted : known.minted = some manifest.appId) (undo : ServiceError → CatalogCall AppManifest) :
    Follows (creating workspaceId) (returnedEnds AppManifest.appId) known
      (Process.rescue undo (mintPromoted workspaceId plan manifest)) := by
  apply follows_rescue
  apply follows_bind
  refine Follows.weaken (follows_saveApp unsaved (Or.inl minted)) ?_
  rintro after outcome ⟨rfl, saved⟩
  refine follows_query trivial ?_
  intro removed _
  exact follows_pure (returned_of_saved saved)

theorem follows_promoteApp (source slug actor : Text) :
    Follows (creating workspaceId) (returnedEnds AppManifest.appId) Known.start
      (promoteApp services workspaceId source slug actor) := by
  apply follows_read (asks_orRaise workspaceId _) (learned_refl _)
  intro plan planned learned _
  apply follows_read (asks_assertRootAvailable workspaceId _ _) learned
  intro _ available learned _
  refine follows_checked (asks_harmless rfl) learned ?_
  intro holder named learned _
  cases holder with
  | some holder => exact follows_raise learned.saving
  | none =>
    refine follows_checked (asks_harmless trivial) learned ?_
    intro entries listed learned _
    split
    · exact follows_raise learned.saving
    refine follows_checked (asks_harmless trivial) learned ?_
    intro _ cleared learned _
    apply follows_checked (asks_forM (asks_copyListed plan) entries) learned
    intro _ copied learned _
    apply follows_bind
    apply follows_rescue
    apply (follows_promotedManifest plan actor learned).weaken
    intro after outcome known
    cases outcome with
    | ok manifest => exact follows_mintPromoted plan known.1 known.2 _
    | error thrown =>
      apply (follows_undoPromotion plan.root thrown known).weaken
      rintro later outcome ⟨rfl, undone⟩
      exact undone.saving

theorem follows_firstSight (root slug : Text) (yaml : AppYaml)
    (actor : Text) (learned : Learned Known.start known) :
    Follows (creating workspaceId) (returnedEnds ReconcileResult.appId) known
      (firstSight workspaceId root slug yaml actor) := by
  refine follows_query learned.minted ?_
  intro appId _
  apply follows_bind
  apply (follows_harmless (harmless_of_reads (asks_assertSlugAvailable slug appId))).weaken
  intro after outcome more
  have unsaved := more.saving.trans learned.saving
  cases outcome with
  | error thrown => exact unsaved
  | ok _ =>
    apply follows_bind
    refine Follows.weaken (follows_saveApp unsaved (Or.inl more.minted)) ?_
    rintro later outcome ⟨rfl, saved⟩
    refine follows_query trivial ?_
    intro given _
    exact follows_pure (returned_of_saved saved)

theorem follows_updateBound (root slug : Text) (yaml : AppYaml)
    (appId : Text) (learned : Learned Known.start known) :
    Follows (creating workspaceId) (returnedEnds ReconcileResult.appId) known
      (updateBound workspaceId root slug yaml appId) := by
  apply follows_bind
  apply (follows_readApp appId).weaken
  rintro read outcome ⟨more, found, rfl, own⟩
  replace learned := learned.trans more
  cases found with
  | none => exact follows_raise learned.saving
  | some app =>
    obtain ⟨rfl, stored⟩ := own app rfl
    dsimp only
    split
    · exact follows_raise learned.saving
    split
    · refine follows_pure ⟨stored, ?_⟩
      intro manifest saving
      rw [learned.saving] at saving
      cases saving
    apply follows_read (asks_assertSlugAvailable slug app.appId) learned
    intro _ checked learned last
    apply follows_bind
    refine Follows.weaken (follows_saveApp learned.saving (Or.inr (last.stored _ stored))) ?_
    rintro later outcome ⟨rfl, saved⟩
    refine follows_query trivial ?_
    intro given _
    have ended := returned_of_saved saved
    exact follows_pure ended

theorem follows_reconcileApp (root : Text) (yaml : AppYaml) (actor : Text) :
    Follows (creating workspaceId) (returnedEnds ReconcileResult.appId) Known.start
      (reconcileApp services ⟨workspaceId, root, yaml, none, actor⟩) := by
  apply follows_read (asks_orRaise workspaceId _) (learned_refl _)
  intro slug named learned _
  refine follows_read (asks_query trivial) learned ?_
  intro bound binding learned _
  cases bound with
  | none => exact follows_firstSight root slug yaml actor learned
  | some appId => exact follows_updateBound root slug yaml appId learned

theorem follows_returned {idOf : Value → Text} {request : CreationRequest}
    (follows : Follows (creating workspaceId) (returnedEnds idOf) Known.start
      process) (other : ∀ actor, request ≠ .ensurePersonal actor) :
    Follows (creating workspaceId) (createdEnds request) Known.start
      (process >>= fun value => pure (idOf value)) := by
  refine follows_then follows (fun _ _ ended => ended) ?_
  intro after value ended
  exact follows_pure ⟨ended.1, ended.2,
    fun actor same => absurd same (other actor)⟩

theorem follows_createApp (request : CreationRequest) :
    Follows (creating workspaceId) (createdEnds request) Known.start
      (createApp services workspaceId request) := by
  cases request with
  | ensurePersonal actor =>
    apply follows_bind
    apply (follows_ensurePersonalApp actor).weaken
    rintro after outcome ⟨ended, own⟩
    cases outcome with
    | ok app => exact follows_pure ⟨ended.1, ended.2, fun _ _ => own app rfl⟩
    | error thrown => exact ended
  | publish args => exact follows_returned (follows_publishApp args) nofun
  | promote source slug actor =>
    exact follows_returned (follows_promoteApp source slug actor) nofun
  | firstSight root yaml actor =>
    exact follows_returned (follows_reconcileApp root yaml actor) nofun

end

variable {statement : CatalogStatement}

section

variable {services : CatalogServices} {workspaceId : Text}
  {stores after : CatalogStores} {known knownAfter : Nat → Known}

theorem appsApart_symm {one other : AppManifest} (apart : AppsApart one other) :
    AppsApart other one := by
  refine ⟨apart.1.symm, ?_⟩
  rw [← apart.2, rootsOverlap, rootsOverlap, Bool.or_comm]

/-- What holds between the stores and what the creators know. -/
structure CreationFacts (services : CatalogServices) (workspaceId : Text)
    (stores : CatalogStores) (known : Nat → Known) : Prop where
  apart : ∀ first second one other, stores.appAt workspaceId first = some one →
      stores.appAt workspaceId second = some other → first ≠ second → AppsApart one other
  named : ∀ name appId, stores.aliases (workspaceId, name) = some appId →
    ∃ app, stores.appAt workspaceId appId = some app ∧ app.name = name
  /-- A record without its alias is being saved. -/
  covered : ∀ appId app, stores.appAt workspaceId appId = some app →
    stores.aliases (workspaceId, app.name) = some appId ∨
      ∃ position manifest, (known position).saving = some manifest ∧
        manifest.appId = appId ∧ manifest.name = app.name ∧
        (manifest.name, manifest.appId) ∉ (known position).held
  stored : ∀ position, ∀ appId ∈ (known position).stored,
    ∃ app, stores.appAt workspaceId appId = some app
  held : ∀ position name appId, (name, appId) ∈ (known position).held →
    stores.aliases (workspaceId, name) = some appId
  saving : ∀ position manifest, (known position).saving = some manifest →
    (∃ app, stores.appAt workspaceId manifest.appId = some app ∧ app.name = manifest.name) ∧
      SaveOpen stores workspaceId manifest.slug (some manifest.appId) manifest.isPublic
  fresh : ∀ number, stores.minted ≤ number → stores.appAt workspaceId (services.mint number) = none
  drawn : ∀ position appId, (known position).minted = some appId →
    ∃ number < stores.minted, appId = services.mint number
  owned : ∀ first second appId, (known first).minted = some appId →
    (known second).minted = some appId → first = second
  /-- Nobody else stores an app under an id that a creator has drawn. -/
  unsaved : ∀ position appId app, (known position).minted = some appId →
    stores.appAt workspaceId appId = some app → (known position).saving ≠ none

variable {position : Nat} {manifest : AppManifest}

theorem CreationFacts.own (facts : CreationFacts services workspaceId stores known)
    (saving : (known position).saving = some manifest) {holder : Text}
    (held : stores.aliases (workspaceId, manifest.name) = some holder) :
    holder = manifest.appId := by
  obtain ⟨⟨app, stored, named⟩, _⟩ := facts.saving position manifest saving
  obtain ⟨other, there, sameName⟩ := facts.named _ _ held
  by_contra different
  have apart := facts.apart _ _ _ _ there stored different
  exact apart.1 (sameName.trans named.symm)

/-- Records, aliases and ids are the same, and no claim is new. -/
structure Unmoved (workspaceId : Text) (stores after : CatalogStores) : Prop where
  apps : ∀ appId, after.appAt workspaceId appId = stores.appAt workspaceId appId
  aliases : after.aliases = stores.aliases
  minted : after.minted = stores.minted
  claims : ∀ slug claim, after.claims.find? slug = some claim →
    stores.claims.find? slug = some claim

theorem unmoved_refl (workspaceId : Text) (stores : CatalogStores) :
    Unmoved workspaceId stores stores :=
  ⟨fun _ => rfl, rfl, rfl, fun _ _ held => held⟩

theorem saveOpen_unmoved (claims : ∀ slug claim, after.claims.find? slug = some claim →
      stores.claims.find? slug = some claim)
    {slug : Text} {appId : Option Text} {isPublic : Bool}
    (saveOpen : SaveOpen stores workspaceId slug appId isPublic) :
    SaveOpen after workspaceId slug appId isPublic := by
  refine ⟨saveOpen.1, saveOpen.2.imp_right ?_⟩
  intro slugOpen claim held
  exact slugOpen claim (claims slug claim held)

theorem facts_learned (facts : CreationFacts services workspaceId stores known)
    (unmoved : Unmoved workspaceId stores after)
    (minted : ∀ position, (knownAfter position).minted = (known position).minted)
    (saving : ∀ position, (knownAfter position).saving = (known position).saving)
    (stored : ∀ position, ∀ appId ∈ (knownAfter position).stored,
      ∃ app, stores.appAt workspaceId appId = some app)
    (held : ∀ position name appId, (name, appId) ∈ (knownAfter position).held →
        stores.aliases (workspaceId, name) = some appId) :
    CreationFacts services workspaceId after knownAfter := by
  constructor
  case apart =>
    intro first second one other
    rw [unmoved.apps, unmoved.apps]
    exact facts.apart first second one other
  case named =>
    intro name appId
    rw [unmoved.aliases, unmoved.apps]
    exact facts.named name appId
  case covered =>
    intro appId app
    rw [unmoved.aliases, unmoved.apps]
    intro there
    rcases facts.covered appId app there with
      named | ⟨position, manifest, saved, rfl, sameName, unheld⟩
    · exact Or.inl named
    by_cases seen : (manifest.name, manifest.appId) ∈ (knownAfter position).held
    · rw [← sameName]
      exact Or.inl (held position _ _ seen)
    · exact Or.inr ⟨position, manifest, (saving position).trans saved, rfl, sameName, seen⟩
  case stored =>
    intro position appId member
    rw [unmoved.apps]
    exact stored position appId member
  case held =>
    intro position name appId member
    rw [unmoved.aliases]
    exact held position name appId member
  case saving =>
    intro position manifest
    rw [saving, unmoved.apps]
    intro saved
    obtain ⟨there, saveOpen⟩ := facts.saving position manifest saved
    exact ⟨there, saveOpen_unmoved unmoved.claims saveOpen⟩
  case fresh =>
    intro number late
    rw [unmoved.minted] at late
    rw [unmoved.apps]
    exact facts.fresh number late
  case drawn =>
    intro position appId
    rw [minted, unmoved.minted]
    exact facts.drawn position appId
  case owned =>
    intro first second appId
    rw [minted, minted]
    exact facts.owned first second appId
  case unsaved =>
    intro position appId app
    rw [minted, saving, unmoved.apps]
    exact facts.unsaved position appId app

theorem field_update {Field : Type} (field : Known → Field)
    (known : Nat → Known) (position : Nat) (learned : Known)
    (same : field learned = field (known position)) (other : Nat) :
    field (Function.update known position learned other) = field (known other) := by
  by_cases own : other = position
  · rw [own, Function.update_self, same]
  · rw [Function.update_of_ne own]

variable {learned : Known}

theorem facts_minted (distinct : Function.Injective services.mint)
    (facts : CreationFacts services workspaceId stores known)
    (draws : learned = (known position).after .mintAppId (.ok (services.mint stores.minted))) :
    CreationFacts services workspaceId { stores with minted := stores.minted + 1 }
      (Function.update known position learned) := by
  subst draws
  have saving := field_update Known.saving known position
    ((known position).after .mintAppId (.ok (services.mint stores.minted)))
    rfl
  have stored := field_update Known.stored known position
    ((known position).after .mintAppId (.ok (services.mint stores.minted)))
    rfl
  have held := field_update Known.held known position
    ((known position).after .mintAppId (.ok (services.mint stores.minted)))
    rfl
  have older : ∀ other appId, (known other).minted = some appId →
      appId ≠ services.mint stores.minted := by
    rintro other appId drawn rfl
    obtain ⟨number, early, same⟩ := facts.drawn other _ drawn
    have equal := distinct same
    omega
  constructor
  case apart =>
    exact facts.apart
  case named =>
    exact facts.named
  case covered =>
    intro appId app there
    simp only [saving, held]
    exact facts.covered appId app there
  case stored =>
    intro other
    rw [stored]
    exact facts.stored other
  case held =>
    intro other
    rw [held]
    exact facts.held other
  case saving =>
    intro other
    rw [saving]
    exact facts.saving other
  case fresh =>
    intro number late
    exact facts.fresh number (Nat.le_of_succ_le late)
  case drawn =>
    intro other appId
    by_cases own : other = position
    · rw [own, Function.update_self]
      intro given
      cases given
      exact ⟨stores.minted, Nat.lt_succ_self _, rfl⟩
    · rw [Function.update_of_ne own]
      intro drawn
      obtain ⟨number, early, same⟩ := facts.drawn other appId drawn
      exact ⟨number, Nat.lt_succ_of_lt early, same⟩
  case owned =>
    intro first second appId
    by_cases ownFirst : first = position
    · by_cases ownSecond : second = position
      · intro _ _
        exact ownFirst.trans ownSecond.symm
      · rw [ownFirst, Function.update_self, Function.update_of_ne ownSecond]
        intro given drawn
        cases given
        exact absurd rfl (older second _ drawn)
    · rw [Function.update_of_ne ownFirst]
      by_cases ownSecond : second = position
      · rw [ownSecond, Function.update_self]
        intro drawn given
        cases given
        exact absurd rfl (older first _ drawn)
      · rw [Function.update_of_ne ownSecond]
        exact facts.owned first second appId
  case unsaved =>
    intro other appId app
    rw [saving]
    by_cases own : other = position
    · rw [own, Function.update_self]
      intro given there
      cases given
      have absent := facts.fresh stores.minted le_rfl
      exact absurd (absent.symm.trans there) nofun
    · rw [Function.update_of_ne own]
      exact facts.unsaved other appId app

theorem facts_aliased (facts : CreationFacts services workspaceId stores known)
    (saving : (known position).saving = some manifest) (apps : after.apps = stores.apps)
    (claims : after.claims = stores.claims) (minted : after.minted = stores.minted)
    (aliases : after.aliases = Function.update stores.aliases
      (workspaceId, manifest.name) (some manifest.appId))
    (sets : learned = { known position with
      held := (manifest.name, manifest.appId) :: (known position).held }) :
    CreationFacts services workspaceId after (Function.update known position learned) := by
  obtain ⟨⟨own, stored, sameName⟩, _⟩ := facts.saving position manifest saving
  have unchanged : ∀ appId, after.appAt workspaceId appId = stores.appAt workspaceId appId := by
    intro appId
    rw [CatalogStores.appAt, apps]
    rfl
  have set : after.aliases (workspaceId, manifest.name) = some manifest.appId := by
    rw [aliases, Function.update_self]
  have others : ∀ name, name ≠ manifest.name → after.aliases (workspaceId, name) =
        stores.aliases (workspaceId, name) := by
    intro name different
    rw [aliases, Function.update_of_ne]
    exact fun equal => different (Prod.mk.inj equal).2
  -- every alias that there was is still there
  have kept : ∀ name appId, stores.aliases (workspaceId, name) = some appId →
        after.aliases (workspaceId, name) = some appId := by
    intro name appId held
    by_cases same : name = manifest.name
    · rw [same] at held ⊢
      rw [set, facts.own saving held]
    · rw [others name same, held]
  have sameSaving := field_update Known.saving known position learned (by rw [sets])
  have sameStored := field_update Known.stored known position learned (by rw [sets])
  have sameMinted := field_update Known.minted known position learned (by rw [sets])
  constructor
  case apart =>
    intro first second one other
    rw [unchanged, unchanged]
    exact facts.apart first second one other
  case named =>
    intro name appId held
    rw [unchanged]
    by_cases same : name = manifest.name
    · rw [same, set] at held
      cases held
      exact ⟨own, stored, sameName.trans same.symm⟩
    · rw [others name same] at held
      exact facts.named name appId held
  case covered =>
    intro appId app there
    rw [unchanged] at there
    rcases facts.covered appId app there with
      named | ⟨other, saved, savedBy, rfl, savedName, unheld⟩
    · exact Or.inl (kept _ _ named)
    · by_cases ownSave : other = position
      · subst ownSave
        have one := Option.some.inj (savedBy.symm.trans saving)
        subst one
        rw [← savedName]
        exact Or.inl set
      · refine Or.inr ⟨other, saved, (sameSaving other).trans savedBy, rfl, savedName, ?_⟩
        rw [Function.update_of_ne ownSave]
        exact unheld
  case stored =>
    intro other appId
    rw [sameStored, unchanged]
    exact facts.stored other appId
  case held =>
    intro other name appId member
    by_cases ownHeld : other = position
    · rw [ownHeld, Function.update_self, sets] at member
      rcases List.mem_cons.mp member with new | old
      · obtain ⟨rfl, rfl⟩ := Prod.mk.inj new
        exact set
      · exact kept _ _ (facts.held position name appId old)
    · rw [Function.update_of_ne ownHeld] at member
      exact kept _ _ (facts.held other name appId member)
  case saving =>
    intro other saved
    rw [sameSaving, unchanged, SaveOpen, SlugOpen, claims]
    exact facts.saving other saved
  case fresh =>
    intro number late
    rw [minted] at late
    rw [unchanged]
    exact facts.fresh number late
  case drawn =>
    intro other
    rw [sameMinted, minted]
    exact facts.drawn other
  case owned =>
    intro first second
    rw [sameMinted, sameMinted]
    exact facts.owned first second
  case unsaved =>
    intro other appId app
    rw [sameMinted, sameSaving, unchanged]
    exact facts.unsaved other appId app

theorem facts_written (distinct : Function.Injective services.mint)
    (facts : CreationFacts services workspaceId stores known)
    (unsaved : (known position).saving = none)
    (named : (known position).minted = some manifest.appId ∨
      manifest.appId ∈ (known position).stored)
    (writeOpen : WriteOpen stores workspaceId manifest)
    (apps : ∀ appId, after.appAt workspaceId appId =
      if appId = manifest.appId then some manifest
      else stores.appAt workspaceId appId) (aliases : after.aliases = stores.aliases)
    (claims : after.claims = stores.claims) (minted : after.minted = stores.minted)
    (writes : learned = { known position with
      stored := manifest.appId :: (known position).stored
      saving := some manifest }) :
    CreationFacts services workspaceId after (Function.update known position learned) := by
  obtain ⟨saveOpen, others⟩ := writeOpen
  have found : ∀ appId app, stores.appAt workspaceId appId = some app →
      (appId = manifest.appId ∧ app.name = manifest.name) ∨
        (appId ≠ manifest.appId ∧ AppsApart manifest app) := by
    intro appId app there
    obtain rfl := appId_of_appAt there
    obtain ⟨row, stored, rfl⟩ := Option.map_eq_some_iff.mp there
    obtain ⟨member, key⟩ := Keyed.find?_eq_some_iff.mp stored
    exact others row member (Prod.mk.inj key).1
  have own : after.appAt workspaceId manifest.appId = some manifest := by rw [apps, if_pos rfl]
  have other : ∀ appId, appId ≠ manifest.appId →
      after.appAt workspaceId appId = stores.appAt workspaceId appId := by
    intro appId different
    rw [apps, if_neg different]
  -- a record that was stored is stored under its name
  have still : ∀ appId app, stores.appAt workspaceId appId = some app →
      ∃ now, after.appAt workspaceId appId = some now ∧ now.name = app.name := by
    intro appId app there
    rcases found appId app there with ⟨rfl, same⟩ | ⟨different, _⟩
    · exact ⟨manifest, own, same.symm⟩
    · exact ⟨app, (other appId different).trans there, rfl⟩
  have sameHeld := field_update Known.held known position learned (by rw [writes])
  have sameMinted := field_update Known.minted known position learned (by rw [writes])
  have savingOther : ∀ place saved, (known place).saving = some saved →
      (Function.update known position learned place).saving = some saved := by
    intro place saved savedBy
    have apart : place ≠ position := by
      rintro rfl
      rw [unsaved] at savedBy
      cases savedBy
    rw [Function.update_of_ne apart]
    exact savedBy
  constructor
  case apart =>
    intro first second one two there also different
    by_cases ownFirst : first = manifest.appId
    · subst ownFirst
      rw [own] at there
      cases there
      rw [other second (Ne.symm different)] at also
      rcases found second two also with ⟨rfl, _⟩ | ⟨_, apart⟩
      · exact absurd rfl different
      · exact apart
    · rw [other first ownFirst] at there
      by_cases ownSecond : second = manifest.appId
      · subst ownSecond
        rw [own] at also
        cases also
        rcases found first one there with ⟨rfl, _⟩ | ⟨_, apart⟩
        · exact absurd rfl different
        · exact appsApart_symm apart
      · rw [other second ownSecond] at also
        exact facts.apart first second one two there also different
  case named =>
    intro name appId held
    rw [aliases] at held
    obtain ⟨app, there, rfl⟩ := facts.named name appId held
    exact still appId app there
  case covered =>
    intro appId app there
    rw [aliases]
    by_cases ownApp : appId = manifest.appId
    · subst ownApp
      rw [own] at there
      cases there
      by_cases seen : (manifest.name, manifest.appId) ∈ (known position).held
      · exact Or.inl (facts.held position _ _ seen)
      · refine Or.inr ⟨position, manifest, ?_, rfl, rfl, ?_⟩
        · rw [Function.update_self, writes]
        · rw [sameHeld]
          exact seen
    · rw [other appId ownApp] at there
      rcases facts.covered appId app there with
        named | ⟨place, saved, savedBy, sameId, sameName, unheld⟩
      · exact Or.inl named
      · refine Or.inr ⟨place, saved, savingOther place saved savedBy, sameId, sameName, ?_⟩
        rw [sameHeld]
        exact unheld
  case stored =>
    intro place appId member
    have older : ∀ earlier, appId ∈ (known earlier).stored →
        ∃ app, after.appAt workspaceId appId = some app := by
      intro earlier before
      obtain ⟨app, there⟩ := facts.stored earlier appId before
      obtain ⟨now, stored, _⟩ := still appId app there
      exact ⟨now, stored⟩
    by_cases ownStored : place = position
    · rw [ownStored, Function.update_self, writes] at member
      rcases List.mem_cons.mp member with rfl | old
      · exact ⟨manifest, own⟩
      · exact older position old
    · rw [Function.update_of_ne ownStored] at member
      exact older place member
  case held =>
    intro place name appId
    rw [sameHeld, aliases]
    exact facts.held place name appId
  case saving =>
    intro place saved savedBy
    rw [SaveOpen, SlugOpen, claims]
    by_cases ownSave : place = position
    · rw [ownSave, Function.update_self, writes] at savedBy
      cases savedBy
      exact ⟨⟨manifest, own, rfl⟩, saveOpen⟩
    · rw [Function.update_of_ne ownSave] at savedBy
      obtain ⟨⟨app, there, sameName⟩, itsOpen⟩ :=
        facts.saving place saved savedBy
      obtain ⟨now, stored, keeps⟩ := still _ app there
      exact ⟨⟨now, stored, keeps.trans sameName⟩, itsOpen⟩
  case fresh =>
    intro number late
    rw [minted] at late
    have absent := facts.fresh number late
    rw [other, absent]
    rintro same
    rcases named with drawn | read
    · obtain ⟨earlier, early, drew⟩ := facts.drawn position _ drawn
      have equal := distinct (same.trans drew)
      omega
    · obtain ⟨app, there⟩ := facts.stored position _ read
      rw [← same, absent] at there
      cases there
  case drawn =>
    intro place
    rw [sameMinted, minted]
    exact facts.drawn place
  case owned =>
    intro first second
    rw [sameMinted, sameMinted]
    exact facts.owned first second
  case unsaved =>
    intro place appId app drawn there
    rw [sameMinted] at drawn
    by_cases ownSave : place = position
    · rw [ownSave, Function.update_self, writes]
      exact Option.some_ne_none manifest
    rw [Function.update_of_ne ownSave]
    by_cases ownApp : appId = manifest.appId
    · subst ownApp
      rcases named with drew | read
      · exact absurd (facts.owned _ _ _ drawn drew) ownSave
      · obtain ⟨old, before⟩ := facts.stored position _ read
        exact facts.unsaved place _ old drawn before
    · rw [other appId ownApp] at there
      exact facts.unsaved place appId app drawn there

theorem facts_read (facts : CreationFacts services workspaceId stores known) {position : Nat}
    {learned : Known} (minted : learned.minted = (known position).minted)
    (saving : learned.saving = (known position).saving)
    (stored : ∀ appId ∈ learned.stored, appId ∈ (known position).stored ∨
      ∃ app, stores.appAt workspaceId appId = some app)
    (held : ∀ pair ∈ learned.held, pair ∈ (known position).held ∨
      stores.aliases (workspaceId, pair.1) = some pair.2) :
    CreationFacts services workspaceId stores (Function.update known position learned) := by
  apply facts_learned facts (unmoved_refl workspaceId stores)
    (field_update Known.minted known position learned minted)
    (field_update Known.saving known position learned saving)
  · intro other appId member
    by_cases own : other = position
    · rw [own, Function.update_self] at member
      rcases stored appId member with old | new
      · exact facts.stored position appId old
      · exact new
    · rw [Function.update_of_ne own] at member
      exact facts.stored other appId member
  · intro other name appId member
    by_cases own : other = position
    · rw [own, Function.update_self] at member
      rcases held _ member with old | new
      · exact facts.held position name appId old
      · exact new
    · rw [Function.update_of_ne own] at member
      exact facts.held other name appId member

theorem facts_executed (distinct : Function.Injective services.mint)
    (facts : CreationFacts services workspaceId stores known)
    (admitted : (known position).admits workspaceId statement)
    (writeOpen : ∀ saved ∈ statement.saves, WriteOpen stores saved.1 saved.2) :
    (known position).possible workspaceId statement (executeStatement services statement stores).1 ∧
      CreationFacts services workspaceId (executeStatement services statement stores).2
        (Function.update known position ((known position).after statement
          (executeStatement services statement stores).1)) := by
  have same : Function.update known position (known position) = known :=
    Function.update_eq_self position known
  have quiet : ∀ after, Unmoved workspaceId stores after → CreationFacts services workspaceId after
        (Function.update known position (known position)) := by
    intro after unmoved
    rw [same]
    exact facts_learned facts unmoved (fun _ => rfl) (fun _ => rfl) facts.stored facts.held
  cases statement with
  | mintAppId => exact ⟨⟨_, rfl⟩, facts_minted distinct facts rfl⟩
  | writeApp asked manifest =>
    obtain ⟨rfl, unsaved, named⟩ := admitted
    have allowed := writeOpen _ rfl
    refine ⟨⟨⟨_, rfl⟩, allowed.1.1⟩, ?_⟩
    apply facts_written distinct facts unsaved named allowed
    case apps =>
      intro appId
      rw [appAt_writeApp]
      simp only [true_and]
    all_goals rfl
  | writeAlias asked name appId =>
    obtain ⟨rfl, manifest, saving, rfl, rfl⟩ := admitted
    refine ⟨⟨_, rfl⟩, ?_⟩
    apply facts_aliased facts saving <;> rfl
  | readApp asked appId =>
    have asks : asked = workspaceId := admitted
    subst asks
    refine ⟨⟨_, rfl, fun app there => appId_of_appAt there⟩, ?_⟩
    cases there : stores.appAt asked appId with
    | none =>
      simp only [executeStatement, there]
      exact quiet _ (unmoved_refl asked stores)
    | some app =>
      simp only [executeStatement, there]
      apply facts_read facts
      · rfl
      · rfl
      · intro other member
        rcases List.mem_cons.mp member with rfl | old
        · exact Or.inr ⟨app, there⟩
        · exact Or.inl old
      · exact fun _ member => Or.inl member
  | readAlias asked name =>
    have asks : asked = workspaceId := admitted
    subst asks
    refine ⟨⟨_, rfl, ?_⟩, ?_⟩
    · rintro manifest saving rfl holder held
      exact facts.own saving held
    cases held : stores.aliases (asked, name) with
    | none =>
      simp only [executeStatement, held]
      exact quiet _ (unmoved_refl asked stores)
    | some holder =>
      simp only [executeStatement, held]
      apply facts_read facts
      · rfl
      · rfl
      · exact fun _ member => Or.inl member
      · intro pair member
        rcases List.mem_cons.mp member with rfl | old
        · exact Or.inr held
        · exact Or.inl old
  | readClaim slug =>
    refine ⟨⟨_, rfl, ?_⟩, quiet _ (unmoved_refl workspaceId stores)⟩
    rintro manifest saving isPrivate rfl claim held
    obtain ⟨_, saveOpen⟩ := facts.saving position manifest saving
    have slugOpen := saveOpen.2.resolve_left (isPrivate ▸ Bool.false_ne_true)
    exact Option.some.inj (slugOpen claim held)
  | deleteApp asked appId => exact admitted.elim
  | deleteAlias asked name => exact admitted.elim
  | writeClaim claim => exact admitted.elim
  | deleteClaim slug =>
    refine ⟨⟨_, rfl⟩, quiet _ ⟨fun _ => rfl, rfl, rfl, ?_⟩⟩
    intro other claim held
    obtain ⟨member, key⟩ := Keyed.find?_eq_some_iff.mp held
    exact Keyed.find?_eq_some_iff.mpr ⟨(Keyed.mem_rows_erase.mp member).1, key⟩
  | _ => exact ⟨⟨_, rfl⟩, quiet _ ⟨fun _ => rfl, rfl, rfl, fun _ _ held => held⟩⟩

end

section

variable {services : CatalogServices} {workspaceId : Text}
  {system : CreationSystem}

def knownTo (workspaceId : Text) (system : CreationSystem) (position : Nat) : Known :=
  memoryOf (creating workspaceId) Known.start system.history position

structure CreationInvariant (services : CatalogServices)
    (workspaceId : Text) (system : CreationSystem) : Prop where
  follow : AllFollow (fun _ => creating workspaceId) Known.start createdEnds system
  facts : CreationFacts services workspaceId system.shared (knownTo workspaceId system)
  mints : ∀ position appId, (⟨position, .mintAppId, .ok appId⟩ :
      Executed CatalogStatement.Answer ServiceError) ∈ system.history →
    (knownTo workspaceId system position).minted = some appId

theorem knownTo_answered {position : Nat} {request : CreationRequest}
    {resume : Except ServiceError statement.Answer → CatalogCall Text}
    {outcome : Except ServiceError statement.Answer × CatalogStores} :
    knownTo workspaceId (system.answered position request statement resume outcome) =
      Function.update (knownTo workspaceId system) position
        ((knownTo workspaceId system position).after statement outcome.1) :=
  memoryOf_append _ _ _ _ _ _

theorem minted_after (other : statement ≠ .mintAppId) (known : Known)
    (answer : Except ServiceError statement.Answer) :
    (known.after statement answer).minted = known.minted := by
  cases statement with
  | mintAppId => exact absurd rfl other
  | readApp asked appId => rcases answer with thrown | found | app <;> rfl
  | readAlias asked name => rcases answer with thrown | found | holder <;> rfl
  | writeApp asked manifest => rcases answer with thrown | given <;> rfl
  | writeAlias asked name appId => rcases answer with thrown | given <;> rfl
  | _ => rfl

theorem creationInvariant_advance (distinct : Function.Injective services.mint)
    (invariant : CreationInvariant services workspaceId system) {position : Nat}
    {next : CreationSystem} (condition : CreationCondition system (.advance position))
    (taken : creationStep services workspaceId system (.advance position) = some next) :
    CreationInvariant services workspaceId next := by
  obtain ⟨request, statement, resume, found, rfl⟩ :=
    advance_eq_some_iff.mp taken
  have admitted := invariant.follow.admitted found
  have writeOpen : ∀ saved ∈ statement.saves, WriteOpen system.shared saved.1 saved.2 := by
    apply condition
    rw [Concurrent.awaiting, found]
    rfl
  obtain ⟨possible, facts⟩ :=
    facts_executed distinct invariant.facts admitted writeOpen
  refine ⟨follows_answered invariant.follow found possible, ?_, ?_⟩
  · rw [knownTo_answered]
    exact facts
  · intro other appId member
    rw [knownTo_answered]
    rcases List.mem_append.mp member with old | new
    · have before := invariant.mints other appId old
      by_cases own : other = position
      · subst own
        rw [Function.update_self]
        by_cases mint : statement = .mintAppId
        · subst mint
          have unminted : (knownTo workspaceId system other).minted = none := admitted
          cases unminted.symm.trans before
        · rw [minted_after mint]
          exact before
      · rw [Function.update_of_ne own]
        exact before
    · cases List.mem_singleton.mp new
      rw [Function.update_self]
      rfl

theorem creationInvariant_start (invariant : CreationInvariant services workspaceId system)
    (request : CreationRequest) :
    CreationInvariant services workspaceId
      (system.start request (createApp services workspaceId request)) :=
  ⟨follows_start invariant.follow (follows_createApp request), invariant.facts, invariant.mints⟩

theorem creationInvariant_step (distinct : Function.Injective services.mint)
    (invariant : CreationInvariant services workspaceId system) {act : CreationAct}
    {next : CreationSystem} (condition : CreationCondition system act)
    (taken : creationStep services workspaceId system act = some next) :
    CreationInvariant services workspaceId next := by
  cases act with
  | start request =>
    cases taken
    exact creationInvariant_start invariant request
  | advance position => exact creationInvariant_advance distinct invariant condition taken

theorem creationInvariant_noCreators {stores : CatalogStores}
    (exclusive : AppsExclusive workspaceId stores)
    (fresh : ∀ number, stores.minted ≤ number →
      stores.appAt workspaceId (services.mint number) = none) :
    CreationInvariant services workspaceId (noCreators stores) := by
  refine ⟨follows_idle, ?_, nofun⟩
  constructor
  case apart =>
    exact exclusive.apart
  case named =>
    intro name appId
    exact (exclusive.aliases name appId).mp
  case covered =>
    intro appId app there
    exact Or.inl ((exclusive.aliases app.name appId).mpr ⟨app, there, rfl⟩)
  case fresh =>
    exact fresh
  case stored =>
    intro position appId impossible
    cases impossible
  case held =>
    intro position name appId impossible
    cases impossible
  case saving =>
    intro position manifest impossible
    cases impossible
  case drawn =>
    intro position appId impossible
    cases impossible
  case owned =>
    intro first second appId impossible
    cases impossible
  case unsaved =>
    intro position appId app impossible
    cases impossible

theorem creationLaw_of_invariant (invariant : CreationInvariant services workspaceId system)
    (ended : system.ended = true) : CreationLaw workspaceId system := by
  have facts := invariant.facts
  -- a call that has ended has set the alias of its record
  have settled : ∀ position manifest,
      (knownTo workspaceId system position).saving = some manifest →
        (manifest.name, manifest.appId) ∈ (knownTo workspaceId system position).held := by
    intro position manifest saving
    cases found : system.calls[position]? with
    | none =>
      have unasked : ∀ entry ∈ system.history, entry.caller ≠ position := by
        intro entry member same
        have inside := invariant.follow.below entry member
        rw [same] at inside
        have outside := List.getElem?_eq_none_iff.mp found
        omega
      rw [knownTo, memoryOf_of_unasked _ _ unasked] at saving
      cases saving
    | some call =>
      obtain ⟨outcome, done⟩ := Option.isSome_iff_exists.mp
        (List.all_eq_true.mp ended call (List.mem_of_getElem? found))
      obtain ⟨request, process⟩ := call
      obtain rfl := Process.eq_done_of_outcome? done
      have ends := invariant.follow.ended found
      cases outcome with
      | ok appId => exact ends.2.1 manifest saving
      | error thrown =>
        have unsaved : (knownTo workspaceId system position).saving = none := ends
        rw [unsaved] at saving
        cases saving
  have aliased : ∀ appId app, system.shared.appAt workspaceId appId = some app →
        system.shared.aliases (workspaceId, app.name) = some appId := by
    intro appId app there
    rcases facts.covered appId app there with
      named | ⟨position, manifest, saving, _, _, unheld⟩
    · exact named
    · exact absurd (settled position manifest saving) unheld
  constructor
  case exclusive =>
    refine ⟨facts.apart, ?_⟩
    intro name appId
    constructor
    · exact facts.named name appId
    · rintro ⟨app, there, rfl⟩
      exact aliased appId app there
  case created =>
    intro position request appId found
    have ends := invariant.follow.ended found
    obtain ⟨app, there⟩ := facts.stored position appId ends.1
    exact ⟨app, there, aliased appId app there⟩
  case personal =>
    intro position actor appId found
    have ends := invariant.follow.ended found
    exact facts.held position _ _ (ends.2.2 actor rfl)
  case failed =>
    intro position request thrown found appId minted
    have unsaved : (knownTo workspaceId system position).saving = none :=
      invariant.follow.ended found
    have drawn := invariant.mints position appId minted
    by_contra stored
    obtain ⟨app, there⟩ := Option.ne_none_iff_exists'.mp stored
    exact facts.unsaved position appId app drawn there unsaved

end

/-- In every run whose steps meet the condition creation is exclusive once
all calls have ended. -/
theorem creation_is_exclusive (services : CatalogServices)
    (distinct : Function.Injective services.mint) (workspaceId : Text) (stores : CatalogStores)
    (exclusive : AppsExclusive workspaceId stores)
    (fresh : ∀ number, stores.minted ≤ number →
      stores.appAt workspaceId (services.mint number) = none) (acts : List CreationAct)
    (system : CreationSystem)
    (meets : StepsMeet (creationStep services workspaceId) CreationCondition
      (noCreators stores) acts)
    (executed : runFrom (creationStep services workspaceId)
      (noCreators stores) acts = some system) (ended : system.ended = true) :
    CreationLaw workspaceId system := by
  have invariant : CreationInvariant services workspaceId system := by
    apply invariant_of_stepsMeet (CreationInvariant services workspaceId)
      ?preserved (creationInvariant_noCreators exclusive fresh) meets
      executed
    case preserved =>
      intro state act next invariant condition taken
      exact creationInvariant_step distinct invariant condition taken
  exact creationLaw_of_invariant invariant ended

/-- The second creator of the personal app reads the alias before the first
one has written it, and lists the apps after that; an app is published at
last. -/
def creatorsInTurn : List CreationAct :=
  [.start (.ensurePersonal "one".toList), .start (.ensurePersonal "two".toList), .advance 1] ++
    List.replicate 9 (.advance 0) ++ List.replicate 2 (.advance 1) ++
    [.start (.publish (plainPublish "notes".toList false))] ++
    List.replicate 13 (.advance 2)

theorem appsExclusive_empty (workspaceId : Text) (files : Text → Store) :
    AppsExclusive workspaceId (CatalogStores.empty files) := by
  have nothing : ∀ appId, (CatalogStores.empty files).appAt workspaceId appId = none :=
    fun _ => rfl
  constructor
  · intro first second one other there
    rw [nothing] at there
    cases there
  · intro name appId
    rw [nothing]
    exact ⟨nofun, nofun⟩

theorem creation_is_exclusive_inTurn :
    ∃ system, runFrom (creationStep plainServices "ws".toList)
        (noCreators (CatalogStores.empty noFiles)) creatorsInTurn =
        some system ∧
      system.calls.map (fun call => call.process.outcome?.map Except.toOption) =
        [some (some (plainServices.mint 0)), some none, some (some (plainServices.mint 1))] ∧
      CreationLaw "ws".toList system := by
  have ran :
      (runFrom (creationStep plainServices "ws".toList)
        (noCreators (CatalogStores.empty noFiles)) creatorsInTurn).map
        (fun system => (system.ended, system.calls.map fun call =>
          call.process.outcome?.map Except.toOption)) =
        some (true, [some (some (plainServices.mint 0)), some none,
          some (some (plainServices.mint 1))]) := by
    decide +kernel
  obtain ⟨system, executed, shown⟩ := Option.map_eq_some_iff.mp ran
  obtain ⟨ended, outcomes⟩ := Prod.mk.inj shown
  have meets : StepsMeet (creationStep plainServices "ws".toList)
      CreationCondition (noCreators (CatalogStores.empty noFiles))
      creatorsInTurn := by
    decide +kernel
  exact ⟨system, executed, outcomes,
    creation_is_exclusive plainServices plainServices_mint "ws".toList
      (CatalogStores.empty noFiles) (appsExclusive_empty _ noFiles)
      (fun _ _ => rfl) creatorsInTurn system meets executed ended⟩

/-- Two creators of the personal app that both check before either writes. -/
def creatorsAtOnce : List CreationAct :=
  [.start (.ensurePersonal "one".toList), .start (.ensurePersonal "two".toList)] ++
    List.replicate 3 (.advance 0) ++ List.replicate 3 (.advance 1) ++
    List.replicate 6 (.advance 0) ++ List.replicate 4 (.advance 1)

/-- Both of them return the same app, and two records are stored. -/
theorem creation_not_exclusive :
    ¬ ∀ (services : CatalogServices), Function.Injective services.mint →
      ∀ (workspaceId : Text) (stores : CatalogStores), AppsExclusive workspaceId stores →
        (∀ number, stores.minted ≤ number →
          stores.appAt workspaceId (services.mint number) = none) →
        ∀ (acts : List CreationAct) (system : CreationSystem),
          runFrom (creationStep services workspaceId) (noCreators stores) acts = some system →
          system.ended = true → CreationLaw workspaceId system := by
  intro law
  have ran :
      (runFrom (creationStep plainServices "ws".toList)
        (noCreators (CatalogStores.empty noFiles)) creatorsAtOnce).map
        (fun system => (system.ended, [plainServices.mint 0, plainServices.mint 1].map fun appId =>
            (system.shared.appAt "ws".toList appId).map AppManifest.name)) =
        some (true, [some personalSlug, some personalSlug]) := by
    decide +kernel
  obtain ⟨system, executed, shown⟩ := Option.map_eq_some_iff.mp ran
  obtain ⟨ended, names⟩ := Prod.mk.inj shown
  simp only [List.map_cons, List.map_nil, List.cons.injEq, and_true] at names
  obtain ⟨first, second⟩ := names
  obtain ⟨one, storedOne, nameOne⟩ := Option.map_eq_some_iff.mp first
  obtain ⟨two, storedTwo, nameTwo⟩ := Option.map_eq_some_iff.mp second
  have held := law plainServices plainServices_mint "ws".toList
    (CatalogStores.empty noFiles) (appsExclusive_empty _ noFiles)
    (fun _ _ => rfl) creatorsAtOnce system executed ended
  have different : plainServices.mint 0 ≠ plainServices.mint 1 := by
    intro same
    have equal := plainServices_mint same
    omega
  have apart := held.exclusive.apart _ _ one two storedOne storedTwo different
  exact apart.1 (nameOne.trans nameTwo.symm)

end Aprovan.Apps.Catalog
