import Aprovan.Sandboxes.Manifests

/-!
# Mounts and partitions

The source of a mount is checked once, as a text and against the grants; the
guard that keeps the partitions of others closed is never asked.  The listing
hides all data partitions, so that only a commit opens one, unless the listing
statement selects a path that is not below the source.
-/

namespace Aprovan.Sandboxes

open Aprovan.Library Aprovan.Server Aprovan.Fs Aprovan.Grants Aprovan.Apps Aprovan.Vcs

variable (records : AccessRecords) (member : Text)

def Inside (path : Text) : Prop :=
  assertPartitionAccess records member path = .ok () ∧ isServicePath path = false

def OpensInside (trace : List Access) : Prop :=
  ∀ path, .read path ∈ trace ∨ .write path ∈ trace → Inside records member path

/-- Whatever the workspace, the sandbox's host and what the sandbox was given
are, materializing the mount and committing it open paths inside. -/
def StaysInside (grants : Option CapabilityGrants) (backend : Backend) (mount : SandboxMount) :
    Prop :=
  ∀ store driver base, store.backend = backend → OpensInside records member
        (materializeAnyMount store driver { mount with base := base }).trace ∧
      OpensInside records member
        (commitMount grants store driver { mount with base := base }).trace

/-- What the listing statement may select is inside when it is put below the
source. -/
def ListsInside (backend : Backend) (source : Text) : Prop :=
  ∀ path, isServicePath path = false → isHiddenDataPath path = false →
    Store.selects backend source path = true → relativeTo source path ≠ [] →
        Inside records member (workspacePathFor source (relativeTo source path))

/-- No path below the source that the grants let the caller write is in a
partition that is closed to the member. -/
def CommitsInside (grants : Option CapabilityGrants) (source : Text) : Prop :=
  ∀ rel, RelativePath rel → pathAllowed grants (workspacePathFor source rel) true = true →
      Inside records member (workspacePathFor source rel)

structure SourceCondition (grants : Option CapabilityGrants)
    (backend : Backend) (mount : SandboxMount) : Prop where
  lists : ∀ source, mount.workspaceSource = some source → ListsInside records member backend source
  commits : ∀ source, mount.workspaceSource = some source →
    mount.track = true → CommitsInside records member grants source

theorem declared_forms {grants : Option CapabilityGrants}
    {mount : SandboxMount} (declared : Declared grants mount) :
    isMountPath mount.path = true ∧ ∀ source, mount.workspaceSource = some source →
        ".services".toList.isPrefixOf source = false := by
  obtain ⟨path, entry, named, accepted⟩ := declared
  simp only [declaredMount] at accepted
  split at accepted
  · cases accepted
    refine ⟨named, ?_⟩
    intro source found
    simp [SandboxMount.workspaceSource, workspaceMount] at found
  · split at accepted
    · obtain ⟨repo, _, same⟩ := bind_eq_ok_iff.mp accepted
      cases same
      refine ⟨named, ?_⟩
      intro source found
      simp [SandboxMount.workspaceSource, repoMount] at found
    · obtain ⟨_, passes, same⟩ := bind_eq_ok_iff.mp accepted
      cases same
      refine ⟨named, ?_⟩
      intro source found
      simp only [SandboxMount.workspaceSource, workspaceMount,
        reduceCtorEq, if_false, Option.filter_eq_some_iff,
        Option.some.injEq, decide_eq_true_eq] at found
      obtain ⟨same, nonempty⟩ := found
      rw [same] at passes
      rw [assertMountSource, if_neg nonempty] at passes
      split at passes
      · cases passes
      · next plain =>
          rw [Bool.or_eq_true, not_or] at plain
          exact Bool.eq_false_iff.mpr plain.2

/-- Outside of the data partitions everything is open. -/
theorem inside_of_visible {path : Text} (service : isServicePath path = false)
    (visible : isHiddenDataPath path = false) :
    Inside records member path := by
  refine ⟨?_, service⟩
  rw [isHiddenDataPath, Bool.or_eq_false_iff] at visible
  have isOpen : partitionAccess path member = .openAccess := by
    unfold partitionAccess
    rw [visible.1, visible.2]
    rfl
  rw [assertPartitionAccess, isOpen]

section

variable {records : AccessRecords} {member : Text}
  {grants : Option CapabilityGrants} {store : Store} {source : Text}
  {backend : Backend}

theorem inside_of_manifest (lists : ListsInside records member backend source)
    (isBackend : store.backend = backend) (nonempty : source ≠ [])
    {entry : Text × Text} (listed : entry ∈ workspaceManifest store source) :
    Inside records member (workspacePathFor source entry.1) := by
  have kept := List.mem_filter.mp (mem_of_mem_manifestOf listed)
  obtain ⟨row, visible, same⟩ := List.mem_map.mp kept.1
  obtain ⟨inListing, isVisible⟩ := List.mem_filter.mp visible
  rw [Bool.and_eq_true, Bool.not_eq_true', Bool.not_eq_true'] at isVisible
  have selected := (Store.mem_selected_iff.mp inListing).2.1.resolve_left nonempty
  rw [isBackend] at selected
  have proper : relativeTo source row.path ≠ [] := by
    have notEmpty := of_decide_eq_true kept.2
    rw [← same] at notEmpty
    exact notEmpty
  rw [← same]
  exact lists row.path isVisible.1 isVisible.2 selected proper

theorem opensInside_materialize {mount : SandboxMount}
    (lists : ∀ source, mount.workspaceSource = some source →
      ListsInside records member backend source)
    (isBackend : store.backend = backend) (driver : Driver) :
    OpensInside records member (materializeAnyMount store driver mount).trace := by
  have confined := confined_materializeAnyMount store driver mount
  intro path opened
  have reads : .read path ∈ readsOf store mount ∨ .write path ∈ readsOf store mount :=
    opened.imp (confined.events _) (confined.events _)
  rcases reads with ⟨source, named, entry, listed, same⟩ |
    ⟨_, _, _, _, impossible⟩
  · cases same
    exact inside_of_manifest (lists source named) isBackend
      (nonempty_of_workspaceSource named) listed
  · cases impossible

theorem opensInside_commit {mount : SandboxMount}
    (condition : SourceCondition records member grants backend mount)
    (isBackend : store.backend = backend) (driver : Driver) :
    OpensInside records member (commitMount grants store driver mount).trace := by
  let bound : Set Access := { access | ∀ path,
    access = .read path ∨ access = .write path → Inside records member path }
  have confined : Traced.Confined bound (fun _ => True)
      (commitMount grants store driver mount) := by
    apply confined_commitMount_of
    · intro source listing tracked named _ compared diff rel changed granted path opened
      have same : path = workspacePathFor source rel := by
        rcases opened with impossible | same
        · cases impossible
        · injection same.symm
      rw [same]
      apply condition.commits source named tracked rel _ granted
      have key : ∃ entry ∈ compared.live, entry.1 = rel := by
        rcases List.mem_append.mp changed with added | modified
        · obtain ⟨entry, kept, own⟩ :=
            List.mem_map.mp (mem_sortTexts.mp added)
          exact ⟨entry, (List.mem_filter.mp kept).1, own⟩
        · obtain ⟨entry, kept, own⟩ :=
            List.mem_map.mp (mem_sortTexts.mp modified)
          exact ⟨entry, (List.mem_filter.mp kept).1, own⟩
      obtain ⟨entry, inLive, own⟩ := key
      obtain ⟨reported, _, found⟩ :=
        List.mem_filterMap.mp (mem_of_mem_manifestOf inLive)
      obtain ⟨relative, normal, pair⟩ := Option.map_eq_some_iff.mp found
      rw [← own, ← pair]
      exact relativePath_of_mountRelative normal
    · intro source listing tracked named _ compared diff rel gone unmoved granted path opened
      have same : path = workspacePathFor source rel := by
        rcases opened with impossible | same
        · cases impossible
        · injection same.symm
      rw [same]
      obtain ⟨entry, kept, own⟩ := List.mem_map.mp (mem_sortTexts.mp gone)
      have inBase : entry ∈ compared.base := (List.mem_filter.mp kept).1
      have sameValue : compared.base.lookup rel = compared.current.lookup rel :=
        not_not.mp (of_decide_eq_false unmoved)
      have given : (compared.base.lookup rel).isSome = true := by
        rw [List.lookup_isSome_iff]
        exact ⟨entry, inBase, beq_iff_eq.mpr own.symm⟩
      rw [sameValue] at given
      obtain ⟨hash, found⟩ := Option.isSome_iff_exists.mp given
      have listed : (rel, hash) ∈ workspaceManifest store source := mem_of_lookup found
      exact inside_of_manifest (condition.lists source named) isBackend
        (nonempty_of_workspaceSource named) listed
  intro path opened
  rcases opened with reads | writes
  · exact confined.events _ reads path (Or.inl rfl)
  · exact confined.events _ writes path (Or.inr rfl)

end

section

variable {records : AccessRecords} {member : Text}
  {grants : Option CapabilityGrants} {backend : Backend}
  {mount : SandboxMount} {source : Text}

/-- A host on which everything goes through and that lists these files. -/
def openDriver (listing : List (Text × Text)) : Driver where
  workdir := []
  writeFile _ _ := .ok ()
  readFile _ := .ok (some ⟨some ['x'], false⟩)
  listFiles _ := .ok listing
  cloneRepo _ := .ok []
  deliver _ _ := .ok ()

def oneFileStore (backend : Backend) (path : Text) : Store :=
  (Store.write id 0 ⟨backend, [], Fs.Store.keys_nil⟩ path [] [] none)

theorem workspaceManifest_oneFileStore {path : Text} (service : isServicePath path = false)
    (visible : isHiddenDataPath path = false)
    (selected : Store.selects backend source path = true)
    (proper : relativeTo source path ≠ []) :
    workspaceManifest (oneFileStore backend path) source = [(relativeTo source path, [])] := by
  have row : (oneFileStore backend path).rows = [{
      path := path, hash := [], content := [], mimeType := [],
      size := byteLength [], updatedAt := 0,
      versioned := !isServicePath path }] :=
    rfl
  have listed : (oneFileStore backend path).listAll source =
      [⟨path, [], [], byteLength [], 0⟩] := by
    have isBackend : (oneFileStore backend path).backend = backend := rfl
    unfold Store.listAll Store.selected Store.paths Store.latest
    rw [row, isBackend]
    simp [selected, Store.newer, FsRow.entry]
  unfold workspaceManifest visibleEntries
  rw [listed]
  simp [service, visible, proper, manifestOf, setKey]

theorem reads_selected (named : mount.workspaceSource = some source) {path : Text}
    (service : isServicePath path = false) (visible : isHiddenDataPath path = false)
    (selected : Store.selects backend source path = true)
    (proper : relativeTo source path ≠ []) :
    .read (workspacePathFor source (relativeTo source path)) ∈
      (materializeAnyMount (oneFileStore backend path) (openDriver []) mount).trace := by
  have kind : mount.kind ≠ .repo := by
    intro repo
    rw [SandboxMount.workspaceSource, if_pos repo] at named
    cases named
  unfold materializeAnyMount materializeMount
  rw [if_neg kind, if_neg kind, named]
  dsimp only
  have few : ¬ maxMountFiles < [(relativeTo source path, ([] : Text))].length := by
    simp [maxMountFiles]
  rw [workspaceManifest_oneFileStore service visible selected proper, if_neg few]
  apply Traced.mem_trace_of_first
  rw [List.foldlM_cons]
  apply Traced.mem_trace_of_first
  unfold handOver
  exact Traced.mem_trace_of_first (Traced.mem_trace_report _)

theorem writes_reported (named : mount.workspaceSource = some source)
    (tracked : mount.track = true) (inOrder : isMountPath mount.path = true)
    {rel : Text} (relative : RelativePath rel)
    (granted : pathAllowed grants (workspacePathFor source rel) true = true) :
    .write (workspacePathFor source rel) ∈ (commitMount grants ⟨backend, [], Fs.Store.keys_nil⟩
        (openDriver [(sandboxPathFor mount rel, [])])
        { mount with base := [] }).trace := by
  let fresh : SandboxMount := { mount with base := [] }
  let driver := openDriver [(sandboxPathFor mount rel, [])]
  let store : Store := ⟨backend, [], Fs.Store.keys_nil⟩
  have stillNamed : fresh.workspaceSource = some source := named
  have stillTracked : ¬ fresh.track = false := by
    rw [Bool.not_eq_false]
    exact tracked
  have normal : mountRelative fresh [] (sandboxPathFor mount rel) = some rel :=
    @mountRelative_sandboxPathFor fresh [] [] rel rfl inOrder relative
  have live : manifestOfListing driver fresh [(sandboxPathFor mount rel, [])] = [(rel, [])] := by
    have workdir : driver.workdir = [] := rfl
    unfold manifestOfListing
    rw [workdir]
    simp [normal, manifestOf, setKey]
  have current : workspaceManifest store source = [] := by
    have nothing : store.listAll source = [] := by
      unfold Store.listAll Store.selected Store.paths
      rfl
    unfold workspaceManifest visibleEntries
    rw [nothing]
    rfl
  have added : (diffManifests [] [(rel, [])]).added ++
      (diffManifests [] [(rel, [])]).modified = [rel] := by
    simp [diffManifests, sortTexts]
  show Access.write (workspacePathFor source rel) ∈ (commitMount grants store driver fresh).trace
  unfold commitMount
  rw [stillNamed]
  simp only [if_neg stillTracked]
  have listed : (Traced.check (driver.listFiles fresh.path) :
      Tracing (List (Text × Text))).outcome = .ok [(sandboxPathFor mount rel, [])] :=
    rfl
  apply Traced.mem_trace_of_next listed
  rw [live, current]
  have noBase : fresh.base = [] := rfl
  rw [noBase, added]
  apply Traced.mem_trace_of_first
  rw [List.foldlM_cons]
  apply Traced.mem_trace_of_first
  unfold commitChange
  have passes : (Traced.check (assertPathGranted grants
      (workspacePathFor source rel) true) : Tracing Unit).outcome = .ok () :=
    assertPathGranted_eq_ok_iff.mpr granted
  apply Traced.mem_trace_of_next passes
  have unmoved : Comparison.moved ⟨[], [(rel, [])], []⟩ rel = false := by simp [Comparison.moved]
  rw [unmoved, Bool.false_and, if_neg Bool.false_ne_true]
  have body : (Traced.check (driver.readFile (sandboxPathFor fresh rel)) :
      Tracing (Option DriverFile)).outcome = .ok (some ⟨some ['x'], false⟩) :=
    rfl
  apply Traced.mem_trace_of_next body
  have text : textBody (some ⟨some ['x'], false⟩) = some ['x'] := by decide
  rw [text]
  exact Traced.mem_trace_of_first (Traced.mem_trace_report _)

end

/-- A source outside of the data partitions, and what the listing statement
may select below it, is inside. -/
theorem sourceCondition_of_outside {records : AccessRecords} {member : Text}
    {grants : Option CapabilityGrants} {backend : Backend} {mount : SandboxMount} {source : Text}
    (named : mount.workspaceSource = some source)
    (plain : ".services".toList.isPrefixOf source = false)
    (apps : underPath source appDataRoot = false)
    (users : underPath source userSpaceRoot = false) :
    SourceCondition records member grants backend mount := by
  have outside : ∀ root, '/' ∉ root → underPath source root = false →
      ∀ rel, underPath (workspacePathFor source rel) root = false := by
    intro root oneSegment notUnder rel
    rw [Bool.eq_false_iff]
    intro under
    rcases isUnder_total under (workspacePathFor_below source rel) with
      rootBelow | sourceBelow
    · rcases isUnder_iff.mp rootBelow with same | ⟨rest, same⟩
      · rw [same, underPath] at notUnder
        have whole : isUnder '/' source source = true := isUnder_iff.mpr (Or.inl rfl)
        rw [whole] at notUnder
        cases notUnder
      · apply oneSegment
        rw [same]
        exact List.mem_append_right _ List.mem_cons_self
    · exact Bool.false_ne_true (notUnder.symm.trans sourceBelow)
  have inside : ∀ rel, Inside records member (workspacePathFor source rel) := by
    intro rel
    apply inside_of_visible records member (isServicePath_below plain rel)
    rw [isHiddenDataPath, outside appDataRoot (by decide) apps,
      outside userSpaceRoot (by decide) users]
    rfl
  constructor
  · intro other otherNamed path _ _ _ _
    have same : source = other := Option.some.inj (named.symm.trans otherNamed)
    rw [← same]
    exact inside _
  · intro other otherNamed _ rel _ _
    have same : source = other := Option.some.inj (named.symm.trans otherNamed)
    rw [← same]
    exact inside _

/-- A mount of a new sandbox stays in the caller's partitions exactly if what
may be listed below its source, and for a tracked mount what may be
committed below it, does. -/
theorem mount_staysInside_iff (records : AccessRecords) (member : Text)
    (defaults : List MountDeclaration) (raw : DeclaredMounts) (grants : Option CapabilityGrants)
    (mounts : List SandboxMount) (applied : applyDefaultMounts defaults raw grants = .ok mounts)
    (commitGrants : Option CapabilityGrants) (backend : Backend) :
    ∀ mount ∈ mounts, (StaysInside records member commitGrants backend mount ↔
        SourceCondition records member commitGrants backend mount) := by
  intro mount isMember
  obtain ⟨inOrder, _⟩ :=
    declared_forms (declared_applyDefaultMounts applied mount isMember)
  constructor
  · intro stays
    constructor
    · intro source named path service visible selected proper
      have opens := (stays (oneFileStore backend path) (openDriver []) [] rfl).1
      apply opens
      left
      exact @reads_selected backend { mount with base := [] } source named
        path service visible selected proper
    · intro source named tracked rel relative granted
      have opens := (stays ⟨backend, [], Fs.Store.keys_nil⟩
        (openDriver [(sandboxPathFor mount rel, [])]) [] rfl).2
      apply opens
      right
      exact writes_reported named tracked inOrder relative granted
  · intro condition store driver base isBackend
    have same : SourceCondition records member commitGrants backend { mount with base := base } :=
      ⟨condition.lists, condition.commits⟩
    exact ⟨opensInside_materialize same.lists isBackend driver,
      opensInside_commit same isBackend driver⟩

def noRecords : AccessRecords where
  appInstance _ := none
  installHosting _ _ := none
  isMember _ _ := true
  shares := []
  now := 0

def mountOf (source : Text) : DeclaredMounts :=
  .entries [some ⟨.text "work".toList, some source, none⟩]

theorem mount_staysInside_iff_docs :
    ∃ mount, applyDefaultMounts [] (mountOf "docs".toList) none = .ok [mount] ∧
      StaysInside noRecords "ann".toList none .sqlite mount := by
  have applied : applyDefaultMounts [] (mountOf "docs".toList) none =
      .ok [workspaceMount "work".toList (some "docs".toList) .rw] := by
    decide +kernel
  refine ⟨_, applied, ?_⟩
  apply (mount_staysInside_iff noRecords "ann".toList [] _ none _ applied
    none .sqlite _ List.mem_cons_self).mpr
  have named : (workspaceMount "work".toList (some "docs".toList)
      .rw).workspaceSource = some "docs".toList := by
    decide +kernel
  apply sourceCondition_of_outside named
  · decide +kernel
  · decide +kernel
  · decide +kernel

/-- The partition of another person is mounted and written. -/
theorem foreign_partition_written :
    ∃ mount, applyDefaultMounts [] (mountOf ".users/bob".toList) none = .ok [mount] ∧
      ¬ StaysInside noRecords "ann".toList none .sqlite mount := by
  have applied : applyDefaultMounts [] (mountOf ".users/bob".toList) none =
      .ok [workspaceMount "work".toList (some ".users/bob".toList) .rw] := by
    decide +kernel
  refine ⟨_, applied, ?_⟩
  intro stays
  let mount := workspaceMount "work".toList (some ".users/bob".toList) .rw
  have named : mount.workspaceSource = some ".users/bob".toList := by decide +kernel
  have relative : RelativePath ['x'] := by
    refine ⟨by decide, by decide, ?_⟩
    decide
  have written := @writes_reported none .sqlite mount _ named rfl
    (by decide +kernel) ['x'] relative rfl
  have opens := (stays ⟨.sqlite, [], Fs.Store.keys_nil⟩
    (openDriver [(sandboxPathFor mount ['x'], [])]) [] rfl).2
  have inside := (opens _ (Or.inr written)).1
  revert inside
  decide +kernel

end Aprovan.Sandboxes
