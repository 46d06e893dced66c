import Aprovan.Apps.Promote
import Aprovan.Vfs.Delete

/-!
# Promotion and the guards of the file plane

`apps.promote` hands its source to `promoteApp` with no more than a check of
the text.  A member should not copy or delete through it what the guards of
`vfs.read` and `vfs.delete` refuse.
-/

namespace Aprovan.Apps

open Aprovan.Library Aprovan.Server Aprovan.Fs Aprovan.Grants Aprovan.Vfs

/-- A workspace member; app sessions cannot manage apps. -/
def member (sub : Text) (grants : Option CapabilityGrants) : ServiceContext where
  userId := sub
  appScope := none
  grants := grants

section

variable (services : PromoteServices) (workspace : Vfs.Workspace)
  (registry : Registry) (sub : Text) (grants : Option CapabilityGrants)

def CopiesOnlyReadable (source slug : Text) : Prop :=
  ∀ file ∈ (promoteApp services workspace.store registry source slug sub).copied,
    Readable (member sub grants) workspace file

def DeletesOnlyDeletable (source slug : Text) : Prop :=
  ∀ file ∈ workspace.store.paths,
    file ∈ (promoteApp services workspace.store registry source slug sub).deleted →
      ∃ value after, vfsDelete (member sub grants) workspace value false = .ok (file, after)

/-- A promotion that throws leaves the files and the records as they
were. -/
def ThrowsUnchanged (source slug : Text) : Prop :=
  let run := promoteApp services workspace.store registry source slug sub
  ∀ thrown, run.outcome = .error thrown →
    run.store.rows = workspace.store.rows ∧ run.registry = registry

def PromoteRespectsGuards (source slug : Text) : Prop :=
  CopiesOnlyReadable services workspace registry sub grants source slug ∧
    DeletesOnlyDeletable services workspace registry sub grants source slug ∧
    ThrowsUnchanged services workspace registry sub source slug

end

/-- Every guard at a file lets the member through. -/
structure OpenTo (sub : Text) (grants : Option CapabilityGrants)
    (workspace : Vfs.Workspace) (write : Bool) (file : Text) : Prop where
  named : isFilePath file = true
  granted : pathAllowed grants file write = true
  partition : assertPartitionAccess workspace.records sub file = .ok ()
  unmounted : mountFor workspace.mounts file = none

variable {workspace : Vfs.Workspace} {file : Text}

theorem mutable_member_iff {sub : Text} {grants : Option CapabilityGrants} :
    Mutable (member sub grants) workspace file ↔ OpenTo sub grants workspace true file := by
  rw [mutable_iff, addressable_workspace_iff rfl]
  constructor
  · rintro ⟨named, granted, partition, unmounted⟩
    exact ⟨named, granted, partition, unmounted⟩
  · rintro ⟨named, granted, partition, unmounted⟩
    exact ⟨named, granted, partition, unmounted⟩

theorem readable_member_iff {sub : Text} {grants : Option CapabilityGrants} :
    Readable (member sub grants) workspace file ↔ OpenTo sub grants workspace false file := by
  rw [readable_iff, addressable_workspace_iff rfl]
  constructor
  · rintro ⟨named, granted, partition, unmounted⟩
    exact ⟨named, granted, partition, unmounted rfl⟩
  · rintro ⟨named, granted, partition, unmounted⟩
    exact ⟨named, granted, partition, fun _ => unmounted⟩

/-- A source file, as the subtree statement selects it. -/
def InSource (workspace : Vfs.Workspace) (plan : PromotePlan) (file : Text) : Prop :=
  file ∈ workspace.store.paths ∧ Store.clears workspace.store.backend plan.source file = true

/-- A leftover at the new root, which the promotion clears. -/
def InRoot (workspace : Vfs.Workspace) (plan : PromotePlan) (file : Text) : Prop :=
  file ∈ workspace.store.paths ∧ Store.clears workspace.store.backend plan.root file = true

/-- The vanity slug is free, or held by the app that is being minted. -/
def SlugFree (services : PromoteServices) (registry : Registry) (plan : PromotePlan) : Prop :=
  ∀ holder, registry.slugClaims.lookup plan.slug = some holder → holder = services.mintedId

variable {plan : PromotePlan}

theorem plan_source_ne_nil {source slug : Text} (planned : planPromotion source slug = .ok plan) :
    plan.source ≠ [] := by
  rw [planPromotion] at planned
  simp only [bind_eq_ok_iff] at planned
  obtain ⟨name, _, path, isPath, same⟩ := planned
  split at same
  · cases same
  · cases same
    have named := isFilePath_of_fsPath (workspacePath_eq_ok_iff.mp isPath)
    rintro rfl
    exact absurd named (by decide)

theorem plan_slug {source slug : Text} (planned : planPromotion source slug = .ok plan) :
    matchesName plan.slug = true := by
  rw [planPromotion] at planned
  simp only [bind_eq_ok_iff] at planned
  obtain ⟨name, isName, path, _, same⟩ := planned
  split at same
  · cases same
  · cases same
    rw [appName] at isName
    split at isName
    · next valid =>
        cases isName
        exact valid
    · cases isName

/-- A name has no backslash, so the statement at the root is exact or
ignores case only. -/
theorem plain_root {plan : PromotePlan} (valid : matchesName plan.slug = true) :
    '\\' ∉ plan.root := by
  have start : '\\' ∉ "apps/".toList := by decide
  have notInSlug : '\\' ∉ plan.slug := by
    intro member
    cases slug : plan.slug with
    | nil =>
      rw [slug] at member
      cases member
    | cons first rest =>
      rw [slug] at valid member
      simp only [matchesName, Bool.and_eq_true, List.all_eq_true] at valid
      rcases List.mem_cons.mp member with rfl | later
      · exact absurd valid.1.1 (by decide)
      · exact absurd (valid.1.2 '\\' later) (by decide)
  unfold PromotePlan.root slugRoot
  rw [List.mem_append, not_or]
  exact ⟨start, notInSlug⟩

theorem target_under_root (plan : PromotePlan) (path : Text) :
    underPath (plan.target path) plan.root = true := by
  unfold PromotePlan.target
  simp only
  split
  · exact isUnder_self '/' plan.root
  · exact isUnder_iff.mpr (Or.inr ⟨_, rfl⟩)

theorem clears_target (valid : matchesName plan.slug = true) (backend : Backend) (path : Text) :
    Store.clears backend plan.root (plan.target path) = true := by
  have selected :=
    Store.selects_of_underPath backend (plain_root valid) (target_under_root plan path)
  cases backend with
  | sqlite => exact selected
  | dsql => simp [Store.clears, selected]

theorem mem_listAll_source_iff (nonempty : plan.source ≠ []) :
    (∃ entry ∈ workspace.store.listAll plan.source, entry.path = file) ↔
      InSource workspace plan file := by
  rw [Store.mem_listAll_path_iff, InSource]
  cases workspace.store.backend with
  | sqlite => simp [nonempty, Store.clears]
  | dsql => simp [nonempty, Store.clears]

theorem mem_clearedPaths {store : Store} {pathPrefix : Text} :
    file ∈ clearedPaths store pathPrefix ↔ file ∈ store.paths ∧
        Store.clears store.backend pathPrefix file = true := by
  simp [clearedPaths]

section

variable {services : PromoteServices} {registry : Registry}
  {plan : PromotePlan}

theorem alias_free (promotable : assertPromotable registry plan = .ok ()) :
    registry.readAlias plan.slug = none := by
  rw [assertPromotable, bind_eq_ok_iff] at promotable
  obtain ⟨_, _, free⟩ := promotable
  cases found : registry.readAlias plan.slug with
  | none => rfl
  | some holder =>
    rw [found] at free
    cases free

theorem saves_of_slugFree (store : Store) (actor : Text)
    (promotable : assertPromotable registry plan = .ok ())
    (free : SlugFree services registry plan) :
    (saveApp registry (mintRecord services plan store actor)).1 = .ok () :=
  saveApp_of_slugFree (alias_free promotable) free

theorem rollsBack_of_slugHeld (store : Store) (actor : Text)
    (promotable : assertPromotable registry plan = .ok ())
    (fresh : registry.readApp services.mintedId = none)
    (held : ¬ SlugFree services registry plan) :
    ∃ thrown saved, saveApp registry (mintRecord services plan store actor) =
        (.error thrown, saved) ∧
      (removeApp saved services.mintedId).2 = { registry with
          rootBindings := dropRow registry.rootBindings plan.root } := by
  unfold SlugFree at held
  simp only [not_forall] at held
  obtain ⟨holder, claim, different⟩ := held
  have unnamed : registry.readAlias (mintRecord services plan store actor).name = none :=
    alias_free promotable
  exact ⟨_, _, saveApp_of_slugHeld unnamed claim different,
    removeApp_enter unnamed fresh rfl claim different⟩

end

section

variable {services : PromoteServices} {workspace : Vfs.Workspace}
  {registry : Registry} {plan : PromotePlan} {actor : Text}

def copyOf (services : PromoteServices) (workspace : Vfs.Workspace) (plan : PromotePlan) :
    Copying :=
  copyEntries services plan (workspace.store.removePrefix plan.root).2
    (workspace.store.listAll plan.source)

theorem copyOf_backend :
    (copyOf services workspace plan).store.backend = workspace.store.backend :=
  (copyEntries_spec services plan _ _).2.2.2.2.2

theorem inSource_of_copied (nonempty : plan.source ≠ [])
    (copied : file ∈ (copyOf services workspace plan).copied) :
    InSource workspace plan file := by
  have sources := (copyEntries_spec services plan (workspace.store.listAll plan.source)
    { store := (workspace.store.removePrefix plan.root).2,
      copied := [] }).2.2.1
  rcases sources file copied with never | listed
  · cases never
  · exact (mem_listAll_source_iff nonempty).mp listed

theorem copied_of_inSource (nonempty : plan.source ≠ []) (source : InSource workspace plan file)
    (spared : ¬ InRoot workspace plan file) :
    file ∈ (copyOf services workspace plan).copied := by
  have present := (copyEntries_spec services plan (workspace.store.listAll plan.source)
    { store := (workspace.store.removePrefix plan.root).2,
      copied := [] }).2.2.2.2.1
  obtain ⟨entry, listed, rfl⟩ :=
    (mem_listAll_source_iff nonempty).mpr source
  apply present entry listed
  rw [Store.mem_paths_removePrefix]
  refine ⟨source.1, ?_⟩
  rw [Bool.eq_false_iff]
  intro cleared
  exact spared ⟨source.1, cleared⟩

/-- The files stored before that the two removals of a completed promotion
delete. -/
theorem deleted_iff (stored : file ∈ workspace.store.paths) :
    file ∈ clearedPaths workspace.store plan.root ++
        clearedPaths (copyOf services workspace plan).store plan.source ↔
      InSource workspace plan file ∨ InRoot workspace plan file := by
  have kept := (copyEntries_spec services plan (workspace.store.listAll plan.source)
    { store := (workspace.store.removePrefix plan.root).2,
      copied := [] }).1
  rw [List.mem_append, mem_clearedPaths, mem_clearedPaths, copyOf_backend]
  constructor
  · rintro (inRoot | ⟨_, cleared⟩)
    · exact Or.inr inRoot
    · exact Or.inl ⟨stored, cleared⟩
  · rintro (source | inRoot)
    · by_cases inRoot : InRoot workspace plan file
      · exact Or.inl inRoot
      · right
        refine ⟨kept file ?_, source.2⟩
        rw [Store.mem_paths_removePrefix]
        refine ⟨stored, ?_⟩
        rw [Bool.eq_false_iff]
        intro cleared
        exact inRoot ⟨stored, cleared⟩
    · exact Or.inl inRoot

theorem rows_outside_copyEntries (services : PromoteServices) (valid : matchesName plan.slug = true)
    (backend : Backend) (entries : List FsEntry) (start : Copying) :
    (entries.foldl (copyEntry services plan) start).store.rows.filter
        (fun row => !Store.clears backend plan.root row.path) = start.store.rows.filter
        (fun row => !Store.clears backend plan.root row.path) := by
  induction entries generalizing start with
  | nil => rfl
  | cons entry others ih =>
    rw [List.foldl_cons, ih]
    unfold copyEntry
    split
    · rfl
    · apply Store.rows_outside_write
      intro row same
      rw [same, clears_target valid]
      rfl

theorem rows_after_rollback (valid : matchesName plan.slug = true) :
    ((copyOf services workspace plan).store.removePrefix plan.root).2.rows =
      workspace.store.rows.filter (fun row =>
          !Store.clears workspace.store.backend plan.root row.path) := by
  have outside := rows_outside_copyEntries services valid workspace.store.backend
    (workspace.store.listAll plan.source)
    { store := (workspace.store.removePrefix plan.root).2, copied := [] }
  rw [Store.removePrefix, Store.keep, copyOf_backend]
  simp only
  rw [copyOf, copyEntries, outside]
  simp [Store.removePrefix, Store.keep, List.filter_filter]

end

/-- What has to be open to the member when the record is going to be
saved: every source file and every leftover at the new root. -/
def SubtreesOpen (workspace : Vfs.Workspace) (sub : Text)
    (grants : Option CapabilityGrants) (plan : PromotePlan) : Prop :=
  ∀ file, InSource workspace plan file ∨ InRoot workspace plan file →
    OpenTo sub grants workspace true file

/-- What is needed when the slug is held, so that the promotion is rolled
back: nothing to clear, no root binding, and source files open to
reading. -/
structure RollbackHarmless (workspace : Vfs.Workspace)
    (registry : Registry)
    (sub : Text) (grants : Option CapabilityGrants)
    (plan : PromotePlan) : Prop where
  vacant : ∀ file, ¬ InRoot workspace plan file
  unbound : registry.rootBindings.lookup plan.root = none
  readable : ∀ file, InSource workspace plan file → OpenTo sub grants workspace false file

section

variable {services : PromoteServices} {workspace : Vfs.Workspace}
  {registry : Registry} {sub : Text} {grants : Option CapabilityGrants}
  {source slug : Text} {plan : PromotePlan}

theorem respects_of_refused
    (refused : ∀ plan, ¬ Promotes workspace.store registry source slug plan) :
    PromoteRespectsGuards services workspace registry sub grants source slug := by
  rcases promoteApp_cases services workspace.store registry source slug sub
    with ⟨plan, promotes, _⟩ | ⟨_, thrown, same⟩
  · exact absurd promotes (refused plan)
  · refine ⟨?_, ?_, ?_⟩
    · intro file copied
      rw [same] at copied
      cases copied
    · intro file _ deleted
      rw [same] at deleted
      cases deleted
    · intro error _
      rw [same]
      exact ⟨rfl, rfl⟩

theorem promoteApp_of_promotes (services : PromoteServices) (sub : Text)
    (promotes : Promotes workspace.store registry source slug plan) :
    promoteApp services workspace.store registry source slug sub =
      carryOut services workspace.store registry plan sub := by
  rcases promoteApp_cases services workspace.store registry source slug sub
    with ⟨other, otherPromotes, same⟩ | ⟨refused, _⟩
  · have equal := otherPromotes.1.symm.trans promotes.1
    cases equal
    exact same
  · exact absurd promotes (refused plan)

/-- A promotion that saves its record respects the guards exactly when all
it touches is open to the member. -/
theorem respects_iff_of_slugFree (promotes : Promotes workspace.store registry source slug plan)
    (free : SlugFree services registry plan) :
    PromoteRespectsGuards services workspace registry sub grants source slug ↔
      SubtreesOpen workspace sub grants plan := by
  have nonempty := plan_source_ne_nil promotes.1
  have run := promoteApp_of_promotes services sub promotes
  have saves := saves_of_slugFree (copyOf services workspace plan).store sub promotes.2.1 free
  have carried : ∃ saved, carryOut services workspace.store registry plan sub = {
        outcome := .ok (mintRecord services plan (copyOf services workspace plan).store sub)
        store := ((copyOf services workspace plan).store.removePrefix plan.source).2
        registry := saved
        copied := (copyOf services workspace plan).copied
        deleted := clearedPaths workspace.store plan.root ++
          clearedPaths (copyOf services workspace plan).store plan.source } := by
    unfold copyOf at saves ⊢
    simp only [carryOut]
    split
    next saved result =>
      exact ⟨saved, rfl⟩
    next thrown saved result =>
      rw [result] at saves
      cases saves
  obtain ⟨saved, carried⟩ := carried
  rw [PromoteRespectsGuards, CopiesOnlyReadable, DeletesOnlyDeletable,
    ThrowsUnchanged, run, carried]
  constructor
  · rintro ⟨_, deletable, _⟩ file touched
    have stored : file ∈ workspace.store.paths := by
      rcases touched with source | root
      · exact source.1
      · exact root.1
    have single := deletable file stored ((deleted_iff stored).mpr touched)
    exact mutable_member_iff.mp ((deletable_iff stored).mp single)
  · intro opened
    refine ⟨?_, ?_, ?_⟩
    · intro file copied
      have inSource := inSource_of_copied nonempty copied
      exact readable_of_mutable rfl (mutable_member_iff.mpr (opened file (Or.inl inSource)))
    · intro file stored deleted
      have touched := (deleted_iff stored).mp deleted
      exact (deletable_iff stored).mpr (mutable_member_iff.mpr (opened file touched))
    · intro thrown impossible
      cases impossible

theorem respects_iff_of_slugHeld (fresh : registry.readApp services.mintedId = none)
    (promotes : Promotes workspace.store registry source slug plan)
    (held : ¬ SlugFree services registry plan) :
    PromoteRespectsGuards services workspace registry sub grants source slug ↔
      RollbackHarmless workspace registry sub grants plan := by
  have nonempty := plan_source_ne_nil promotes.1
  have valid := plan_slug promotes.1
  have run := promoteApp_of_promotes services sub promotes
  obtain ⟨thrown, saved, result, removed⟩ :=
    rollsBack_of_slugHeld (copyOf services workspace plan).store sub promotes.2.1 fresh held
  have carried : carryOut services workspace.store registry plan sub = {
      outcome := .error thrown
      store := ((copyOf services workspace plan).store.removePrefix plan.root).2
      registry := (removeApp saved services.mintedId).2
      copied := (copyOf services workspace plan).copied
      deleted := clearedPaths workspace.store plan.root ++
        clearedPaths (copyOf services workspace plan).store plan.root } := by
    unfold copyOf at result ⊢
    simp only [carryOut, result]
    rfl
  rw [PromoteRespectsGuards, CopiesOnlyReadable, DeletesOnlyDeletable,
    ThrowsUnchanged, run, carried]
  simp only [rows_after_rollback valid, removed]
  constructor
  · rintro ⟨readable, _, unchanged⟩
    obtain ⟨sameRows, sameRegistry⟩ := unchanged thrown rfl
    have vacant : ∀ file, ¬ InRoot workspace plan file := by
      intro file inRoot
      obtain ⟨row, stored, rfl⟩ := Store.mem_paths.mp inRoot.1
      rw [List.filter_eq_self] at sameRows
      have spared := sameRows row stored
      rw [inRoot.2] at spared
      cases spared
    refine ⟨vacant, ?_, ?_⟩
    · have bindings := congrArg Registry.rootBindings sameRegistry
      exact dropRow_eq_self_iff.mp bindings
    · intro file source
      exact readable_member_iff.mp
        (readable file (copied_of_inSource nonempty source (vacant file)))
  · rintro ⟨vacant, unbound, readable⟩
    refine ⟨?_, ?_, ?_⟩
    · intro file copied
      exact readable_member_iff.mpr (readable file (inSource_of_copied nonempty copied))
    · intro file stored deleted
      have cleared : Store.clears workspace.store.backend plan.root file = true := by
        rw [List.mem_append, mem_clearedPaths, mem_clearedPaths, copyOf_backend] at deleted
        rcases deleted with first | second
        · exact first.2
        · exact second.2
      exact absurd ⟨stored, cleared⟩ (vacant file)
    · intro error _
      constructor
      · rw [List.filter_eq_self]
        intro row stored
        rw [Bool.not_eq_true', Bool.eq_false_iff]
        intro cleared
        exact vacant row.path ⟨Store.mem_paths.mpr ⟨row, stored, rfl⟩, cleared⟩
      · rw [dropRow_eq_self_iff.mpr unbound]

end

def exampleServices : PromoteServices where
  sha256 := id
  now := 1
  mintedId := "01new".toList
  loadAppYaml := fun _ => none

def noApps : Registry where
  apps := []
  aliases := []
  rootBindings := []
  slugClaims := []

/-- Bob promotes ann's private files to an app of his. -/
theorem promote_ignores_partition :
    ¬ PromoteRespectsGuards exampleServices annsWorkspace noApps
        "bob".toList none ".users/ann".toList "loot".toList := by
  have promotes :
      Promotes annsWorkspace.store noApps ".users/ann".toList "loot".toList
        { source := ".users/ann".toList, slug := "loot".toList } :=
    ⟨by decide +kernel, by decide +kernel, by decide +kernel⟩
  have free : SlugFree exampleServices noApps
      { source := ".users/ann".toList, slug := "loot".toList } := by
    intro holder claim
    cases claim
  rw [respects_iff_of_slugFree promotes free]
  intro opened
  have touched := opened annsDiary (Or.inl ⟨by decide, by decide +kernel⟩)
  exact absurd touched.partition (by decide +kernel)

/-- A promotion respects the guards exactly when it is refused, or all the
files it touches are open to the member; and when another app holds the
slug, so that the record cannot be saved, when the rollback is harmless. -/
theorem promote_respects_guards_iff (services : PromoteServices) (workspace : Vfs.Workspace)
    (registry : Registry) (sub : Text) (grants : Option CapabilityGrants) (source slug : Text)
    (fresh : registry.readApp services.mintedId = none) :
    PromoteRespectsGuards services workspace registry sub grants source slug ↔
      ∀ plan, Promotes workspace.store registry source slug plan →
        (SlugFree services registry plan → SubtreesOpen workspace sub grants plan) ∧
        (¬ SlugFree services registry plan →
          RollbackHarmless workspace registry sub grants plan) := by
  constructor
  · intro law plan promotes
    exact ⟨fun free => (respects_iff_of_slugFree promotes free).mp law,
      fun held => (respects_iff_of_slugHeld fresh promotes held).mp law⟩
  · intro condition
    by_cases promoted : ∃ plan, Promotes workspace.store registry source slug plan
    · obtain ⟨plan, promotes⟩ := promoted
      obtain ⟨whenFree, whenHeld⟩ := condition plan promotes
      by_cases free : SlugFree services registry plan
      · exact (respects_iff_of_slugFree promotes free).mpr (whenFree free)
      · exact (respects_iff_of_slugHeld fresh promotes free).mpr (whenHeld free)
    · exact respects_of_refused fun plan promotes => promoted ⟨plan, promotes⟩

/-- Bob promotes the documents, which are open to him. -/
theorem promote_respects_guards_documents :
    PromoteRespectsGuards exampleServices annsWorkspace noApps
      "bob".toList none "docs".toList "plans".toList := by
  apply (promote_respects_guards_iff exampleServices annsWorkspace noApps
    "bob".toList none "docs".toList "plans".toList rfl).mpr
  intro plan promotes
  have planned : planPromotion "docs".toList "plans".toList =
      .ok { source := "docs".toList, slug := "plans".toList } := by
    decide +kernel
  have same := promotes.1.symm.trans planned
  cases same
  refine ⟨?_, ?_⟩
  · intro _ file touched
    have stored : file ∈ annsWorkspace.store.paths := by
      rcases touched with source | root
      · exact source.1
      · exact root.1
    have known : file = annsDiary ∨ file = lockedPlan := by
      simpa [Store.paths, annsWorkspace, exampleRow] using stored
    rcases known with rfl | rfl
    · have untouched :
          Store.clears annsWorkspace.store.backend "docs".toList annsDiary = false ∧
            Store.clears annsWorkspace.store.backend "apps/plans".toList annsDiary = false := by
        decide +kernel
      rcases touched with ⟨_, cleared⟩ | ⟨_, cleared⟩
      · exact absurd cleared (by rw [untouched.1]; decide)
      · exact absurd cleared (by
          rw [PromotePlan.root, slugRoot]
          exact fun hit => absurd hit (by decide +kernel))
    · exact ⟨by decide +kernel, rfl, by decide +kernel, rfl⟩
  · intro held
    exact absurd (fun holder claim => by cases claim) held

end Aprovan.Apps
