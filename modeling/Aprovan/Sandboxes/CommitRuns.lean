import Aprovan.Sandboxes.Delivery

/-!
# Commits of one mount, one after the other

A commit has three sides: what the sandbox was last given or last committed,
what it holds, and what the file tree holds.  The law is the one of a three-way
comparison, in every commit of a run.
-/

namespace Aprovan.Sandboxes

open Aprovan.Library Aprovan.Fs Aprovan.Grants Aprovan.Vcs

section

variable {grants : Option CapabilityGrants} {driver : Driver}
  {mount : SandboxMount} {source : Text} {compared : Comparison}

/-- The workspace and the sandbox changed the path, and not to the same. -/
def Comparison.collides (compared : Comparison) (rel : Text) : Bool :=
  compared.moved rel && compared.current.lookup rel ≠ compared.live.lookup rel

/-- The path of a change is written. -/
def Comparison.writes (compared : Comparison) (file : Text → Option DriverFile) (rel : Text) :
    Bool :=
  !compared.collides rel && (textBody (file rel)).isSome

def changeResult (source : Text) (compared : Comparison) (file : Text → Option DriverFile)
    (result : MountCommitResult) (rel : Text) : MountCommitResult :=
  let path := workspacePathFor source rel
  if compared.collides rel then { result with conflicts := result.conflicts ++ [path] }
  else if (textBody (file rel)).isSome then { result with written := result.written ++ [path] }
  else { result with skipped := result.skipped ++ [path] }

def removalResult (source : Text) (compared : Comparison)
    (result : MountCommitResult) (rel : Text) : MountCommitResult :=
  let path := workspacePathFor source rel
  if compared.moved rel then { result with conflicts := result.conflicts ++ [path] }
  else { result with removed := result.removed ++ [path] }

/-- The grants and the place of a path take what a commit asks of them. -/
structure Ready (grants : Option CapabilityGrants) (driver : Driver)
    (source rel : Text) : Prop where
  granted : pathAllowed grants (workspacePathFor source rel) true = true
  delivers : ∀ body, driver.deliver (workspacePathFor source rel) body = .ok ()

theorem commitChange_eq {file : Text → Option DriverFile} {rel : Text}
    (ready : Ready grants driver source rel)
    (reads : driver.readFile (sandboxPathFor mount rel) = .ok (file rel))
    (result : MountCommitResult) :
    commitChange grants driver mount source compared result rel = ⟨if compared.writes file rel then
          [.write (workspacePathFor source rel)] else [],
        .ok (changeResult source compared file result rel)⟩ := by
  have granted := assertPathGranted_eq_ok_iff.mpr ready.granted
  unfold commitChange changeResult Comparison.writes
  dsimp only
  rw [granted, reads, Traced.check_ok_bind, Traced.check_ok_bind]
  by_cases collides : compared.collides rel = true
  · have moved : (compared.moved rel &&
        decide (compared.current.lookup rel ≠ compared.live.lookup rel)) = true :=
      collides
    rw [if_pos moved, if_pos collides, collides]
    rfl
  · have unmoved : ¬ (compared.moved rel &&
        decide (compared.current.lookup rel ≠ compared.live.lookup rel)) = true :=
      collides
    rw [if_neg unmoved, if_neg collides, Bool.eq_false_iff.mpr collides]
    cases body : textBody (file rel) with
    | none => rfl
    | some content =>
      dsimp only
      rw [ready.delivers]
      rfl

theorem commitRemoval_eq {rel : Text} (ready : Ready grants driver source rel)
    (result : MountCommitResult) :
    commitRemoval grants driver source compared result rel = ⟨if compared.moved rel then []
        else [.write (workspacePathFor source rel)],
        .ok (removalResult source compared result rel)⟩ := by
  have granted := assertPathGranted_eq_ok_iff.mpr ready.granted
  unfold commitRemoval removalResult
  dsimp only
  rw [granted, Traced.check_ok_bind, ready.delivers]
  by_cases moved : compared.moved rel = true
  · rw [if_pos moved, if_pos moved, if_pos moved]
    rfl
  · rw [if_neg moved, if_neg moved, if_neg moved]
    rfl

variable {file : Text → Option DriverFile}

theorem mem_changeResults (rels : List Text) (start : MountCommitResult) (path : Text) :
    let after := rels.foldl (changeResult source compared file) start
    (path ∈ after.conflicts ↔ path ∈ start.conflicts ∨
        ∃ rel ∈ rels, compared.collides rel = true ∧ path = workspacePathFor source rel) ∧
      (path ∈ after.written ↔ path ∈ start.written ∨
        ∃ rel ∈ rels, compared.writes file rel = true ∧ path = workspacePathFor source rel) ∧
      after.removed = start.removed := by
  induction rels generalizing start with
  | nil => simp
  | cons rel rest ih =>
    obtain ⟨conflicts, written, removed⟩ :=
      ih (changeResult source compared file start rel)
    rw [List.foldl_cons]
    refine ⟨conflicts.trans ?_, written.trans ?_, removed.trans ?_⟩
    · by_cases collides : compared.collides rel = true
      · simp [changeResult, collides, or_assoc]
      · by_cases body : (textBody (file rel)).isSome = true
        · simp [changeResult, collides, body]
        · simp [changeResult, collides, body]
    · by_cases collides : compared.collides rel = true
      · simp [changeResult, Comparison.writes, collides]
      · by_cases body : (textBody (file rel)).isSome = true
        · simp [changeResult, Comparison.writes, collides, body, or_assoc]
        · simp [changeResult, Comparison.writes, collides, body]
    · unfold changeResult
      split
      · rfl
      · split
        · rfl
        · rfl

theorem mem_removalResults (rels : List Text) (start : MountCommitResult) (path : Text) :
    let after := rels.foldl (removalResult source compared) start
    (path ∈ after.conflicts ↔ path ∈ start.conflicts ∨ ∃ rel ∈ rels, compared.moved rel = true ∧
          path = workspacePathFor source rel) ∧
      (path ∈ after.removed ↔ path ∈ start.removed ∨ ∃ rel ∈ rels, compared.moved rel = false ∧
          path = workspacePathFor source rel) ∧
      after.written = start.written := by
  induction rels generalizing start with
  | nil => simp
  | cons rel rest ih =>
    obtain ⟨conflicts, removed, written⟩ :=
      ih (removalResult source compared start rel)
    rw [List.foldl_cons]
    refine ⟨conflicts.trans ?_, removed.trans ?_, written.trans ?_⟩
    · by_cases moved : compared.moved rel = true
      · simp [removalResult, moved, or_assoc]
      · simp [removalResult, moved]
    · by_cases moved : compared.moved rel = true
      · simp [removalResult, moved]
      · simp [removalResult, moved, or_assoc]
    · unfold removalResult
      split
      · rfl
      · rfl

def Comparison.diff (compared : Comparison) : MountDiff :=
  diffManifests compared.base compared.live

def Comparison.changed (compared : Comparison) : List Text :=
  compared.diff.added ++ compared.diff.modified

def Comparison.Lands (compared : Comparison) (file : Text → Option DriverFile) (rel : Text) :
    Prop :=
  (rel ∈ compared.changed ∧ compared.writes file rel = true) ∨
    (rel ∈ compared.diff.removed ∧ compared.moved rel = false)

/-- What a commit answers when nothing is refused. -/
theorem commitMount_spec {store : Store} {listing : List (Text × Text)}
    (named : mount.workspaceSource = some source) (tracked : mount.track = true)
    (listed : driver.listFiles mount.path = .ok listing)
    (isCompared : compared = compareMount store driver mount source listing)
    (ready : ∀ rel, rel ∈ compared.changed ∨ rel ∈ compared.diff.removed →
      Ready grants driver source rel)
    (reads : ∀ rel ∈ compared.changed,
      driver.readFile (sandboxPathFor mount rel) = .ok (file rel)) :
    ∃ trace result, commitMount grants store driver mount = ⟨trace, .ok ({ mount with
            base := settledBase source compared compared.diff.removed result }, result)⟩ ∧
      ∀ rel, (workspacePathFor source rel ∈ result.conflicts ↔
          (rel ∈ compared.changed ∧ compared.collides rel = true) ∨
            (rel ∈ compared.diff.removed ∧ compared.moved rel = true)) ∧
        (workspacePathFor source rel ∈ result.written ∨
            workspacePathFor source rel ∈ result.removed ↔
          compared.Lands file rel) ∧
        (.write (workspacePathFor source rel) ∈ trace ↔ compared.Lands file rel) := by
  let early := compared.changed.foldl (changeResult source compared file) ⟨[], [], [], []⟩
  let result := compared.diff.removed.foldl (removalResult source compared) early
  have changes : compared.changed.foldlM
      (commitChange grants driver mount source compared) ⟨[], [], [], []⟩ =
        ⟨compared.changed.flatMap fun rel =>
          if compared.writes file rel then
            [.write (workspacePathFor source rel)] else [], .ok early⟩ :=
    Traced.foldlM_of_rounds compared.changed
      (fun value rel member =>
        commitChange_eq (ready rel (Or.inl member)) (reads rel member) value)
      _
  have removals : compared.diff.removed.foldlM
      (commitRemoval grants driver source compared) early =
        ⟨compared.diff.removed.flatMap fun rel =>
          if compared.moved rel then []
          else [.write (workspacePathFor source rel)], .ok result⟩ :=
    Traced.foldlM_of_rounds compared.diff.removed
      (fun value rel member => commitRemoval_eq (ready rel (Or.inr member)) value) _
  have isTracked : ¬ mount.track = false := by
    rw [Bool.not_eq_false]
    exact tracked
  refine ⟨(compared.changed.flatMap fun rel =>
      if compared.writes file rel then
        [.write (workspacePathFor source rel)] else []) ++
      compared.diff.removed.flatMap fun rel =>
        if compared.moved rel then []
        else [.write (workspacePathFor source rel)], result, ?_, ?_⟩
  · unfold commitMount
    rw [named]
    dsimp only
    rw [if_neg isTracked, listed, Traced.check_ok_bind]
    have compares : (⟨mount.base, manifestOfListing driver mount listing,
        workspaceManifest store source⟩ : Comparison) = compared :=
      isCompared.symm
    have isDiff : diffManifests mount.base
        (manifestOfListing driver mount listing) = compared.diff := by
      rw [isCompared]
      rfl
    rw [compares, isDiff]
    have changesOf : compared.diff.added ++ compared.diff.modified = compared.changed := rfl
    rw [changesOf, changes, Traced.ok_bind, removals, Traced.ok_bind]
    show Traced.mk (_ ++ (_ ++ [])) _ = _
    rw [List.append_nil]
    rfl
  · intro rel
    obtain ⟨earlyConflicts, earlyWritten, earlyRemoved⟩ :=
      @mem_changeResults source compared file compared.changed
        ⟨[], [], [], []⟩ (workspacePathFor source rel)
    obtain ⟨conflicts, removed, written⟩ :=
      @mem_removalResults source compared compared.diff.removed early (workspacePathFor source rel)
    have named : ∀ (rels : List Text) (condition : Text → Prop), (∃ other ∈ rels, condition other ∧
          workspacePathFor source rel = workspacePathFor source other) ↔
            rel ∈ rels ∧ condition rel := by
      intro rels condition
      constructor
      · intro found
        obtain ⟨other, member, holds, same⟩ := found
        rw [workspacePathFor_inj same]
        exact ⟨member, holds⟩
      · intro both
        exact ⟨rel, both.1, both.2, rfl⟩
    refine ⟨?_, ?_, ?_⟩
    · rw [conflicts, earlyConflicts, named, named]
      simp
    · rw [removed, written, earlyRemoved, earlyWritten, named, named]
      simp [Comparison.Lands]
    · have inChanges : Access.write (workspacePathFor source rel) ∈
          (compared.changed.flatMap fun rel =>
            if compared.writes file rel then
              [.write (workspacePathFor source rel)] else []) ↔
          rel ∈ compared.changed ∧ compared.writes file rel = true := by
        rw [List.mem_flatMap, ← named compared.changed fun rel => compared.writes file rel = true]
        apply exists_congr
        intro other
        apply and_congr_right
        intro _
        by_cases writes : compared.writes file other = true
        · simp [writes]
        · simp [writes]
      have inRemovals : Access.write (workspacePathFor source rel) ∈
          (compared.diff.removed.flatMap fun rel =>
            if compared.moved rel then [] else [.write (workspacePathFor source rel)]) ↔
          rel ∈ compared.diff.removed ∧ compared.moved rel = false := by
        rw [List.mem_flatMap, ← named compared.diff.removed fun rel => compared.moved rel = false]
        apply exists_congr
        intro other
        apply and_congr_right
        intro _
        by_cases moved : compared.moved other = true
        · simp [moved]
        · simp [moved]
      rw [List.mem_append, inChanges, inRemovals]
      exact Iff.rfl

end

inductive MountAct where
  | sandboxWrite (rel : Text) (body : FileBody)
  | sandboxRemove (rel : Text)
  | memberWrite (path content mimeType : Text)
  | memberRemove (path : Text)
  | memberRemovePrefix (pathPrefix : Text)
  | tick (elapsed : Nat)
  | commit (grants : Option CapabilityGrants)

section

variable (services : MountServices) (world : MountWorld)

def MountWorld.edit (change : Store → Store) : MountWorld := { world with
    targets := { world.targets with
        stores := {
          world.targets.stores with files := change world.files } } }

def mountStep : MountAct → Option MountWorld
  | .sandboxWrite rel body => some { world with box := world.box.put rel body }
  | .sandboxRemove rel => some { world with box := world.box.keep (· ≠ rel) }
  | .memberWrite path content mimeType =>
    some (world.edit fun files =>
      files.write services.sha256 world.targets.stores.clock path content mimeType none)
  | .memberRemove path => some (world.edit fun files => (files.remove path).2)
  | .memberRemovePrefix pathPrefix =>
    some (world.edit fun files => (files.removePrefix pathPrefix).2)
  | .tick elapsed => some { world with
        targets := { world.targets with
            stores := { world.targets.stores with
                clock := world.targets.stores.clock + elapsed } } }
  | .commit grants => some (world.commit services grants).2

/-- A commit reports a conflict exactly where all three sides differ, leaves
what the workspace changed as it is, and finds no conflict where the tree is
as an earlier commit of the path left it. -/
structure ThreeWay (grants : Option CapabilityGrants) : Prop where
  conflicts : ∀ result, (world.commit services grants).1 = .ok result →
    ∀ rel, world.pathOf rel ∈ result.conflicts ↔ world.box.get rel ≠ world.known rel ∧
        world.tree rel ≠ world.known rel ∧
        world.tree rel ≠ world.box.get rel
  spares : ∀ rel, world.tree rel ≠ world.known rel →
    (world.commit services grants).2.tree rel = world.tree rel
  settles : ∀ result, (world.commit services grants).1 = .ok result →
    ∀ rel, world.held rel = some (world.tree rel) → world.pathOf rel ∉ result.conflicts

/-- A declared, tracked mount whose base records what is known, on a host
that lists paths below an absolute working directory. -/
structure MountStarts : Prop where
  named : isMountPath world.mount.path = true
  sourced : world.mount.workspaceSource ≠ none
  plain : ".services".toList.isPrefixOf world.source = false
  tracked : world.mount.track = true
  absolute : ∃ root, stripTrailingSlashes world.workdir ++ ['/'] = '/' :: root
  boxed : ∀ rel ∈ world.box.names, RelativePath rel
  based : ∀ rel, world.mount.base.lookup rel = (world.known rel).map services.digest
  inOrder : InOrder services.toSessionServices world.targets.stores.clock world.files
  fresh : ∀ rel, world.held rel = none

/-- The sandbox holds something else than it last saw or committed. -/
def MountWorld.Changed (rel : Text) : Prop :=
  world.box.get rel ≠ world.known rel

/-- The listing shows the subtree of the source, and of each file what a
read finds; every changed path is listed and has a name that is no property of
all objects; the grants and the place of the path take it; it was not removed
on both sides; and if it goes to a draft or an external mount, no earlier
commit delivered it there, unless the tree has it too or was changed since. -/
structure CommitCondition (grants : Option CapabilityGrants) : Prop where
  lists : ListsSubtree world.files world.source
  untied : world.files.Untied
  shown : ∀ rel, world.Changed rel → rel ≠ [] ∧
    rel ∉ PlainObject.prototypeKey :: PlainObject.inheritedNames ∧
    isHiddenDataPath (world.pathOf rel) = false
  permitted : ∀ rel, world.Changed rel → pathAllowed grants (world.pathOf rel) true = true ∧
      world.targets.accepts world.isBound (world.pathOf rel) = true
  oneSided : ∀ rel, world.known rel ≠ none → world.box.get rel = none → world.tree rel ≠ none
  elsewhere : ∀ rel, world.Changed rel →
    world.targets.goesToTree world.isBound (world.pathOf rel) = false →
      world.held rel = some (world.tree rel) → world.tree rel = world.known rel

/-- Sandboxed files have paths that the host can report. -/
def MountCondition : MountAct → Prop
  | .sandboxWrite rel _ => RelativePath rel
  | .commit grants => CommitCondition world grants
  | _ => True

end

/-- What every step keeps; for a path that goes to the tree, a commit left
there what is known. -/
structure MountInvariant (services : MountServices) (world : MountWorld) : Prop where
  named : isMountPath world.mount.path = true
  sourced : world.mount.workspaceSource ≠ none
  plain : ".services".toList.isPrefixOf world.source = false
  tracked : world.mount.track = true
  absolute : ∃ root, stripTrailingSlashes world.workdir ++ ['/'] = '/' :: root
  boxed : ∀ rel ∈ world.box.names, RelativePath rel
  based : ∀ rel, world.mount.base.lookup rel = (world.known rel).map services.digest
  inOrder : InOrder services.toSessionServices world.targets.stores.clock world.files
  landed : ∀ rel, world.targets.goesToTree world.isBound (world.pathOf rel) = true →
      ∀ value, world.held rel = some value → value = world.known rel

section

variable {services : MountServices} {world : MountWorld}

theorem invariant_of_mountStarts (starts : MountStarts services world) :
    MountInvariant services world := by
  obtain ⟨named, sourced, plain, tracked, absolute, boxed, based, inOrder, fresh⟩ := starts
  refine ⟨named, sourced, plain, tracked, absolute, boxed, based, inOrder, ?_⟩
  intro rel _ value found
  rw [fresh rel] at found
  cases found

theorem workspaceSource_eq (sourced : world.mount.workspaceSource ≠ none) :
    world.mount.workspaceSource = some world.source := by
  unfold MountWorld.source
  cases named : world.mount.workspaceSource with
  | none => exact absurd named sourced
  | some source => rfl

theorem live_spec (invariant : MountInvariant services world) {listing : List (Text × Text)}
    (listed : (world.host services).listFiles world.mount.path = .ok listing) :
    (∀ rel, (manifestOfListing (world.host services) world.mount
        listing).lookup rel = (world.box.get rel).map services.digest) ∧
      ∀ entry ∈ manifestOfListing (world.host services) world.mount listing,
        entry.2 = ((world.box.get entry.1).map services.digest).getD [] := by
  obtain ⟨root, absolute⟩ := invariant.absolute
  have isListing : listing = world.box.rows.map fun row =>
      (sandboxPathFor world.mount row.1, services.digest row.2) :=
    (Except.ok.inj listed).symm
  have entries : (listing.filterMap fun entry =>
      (mountRelative world.mount world.workdir entry.1).map (·, entry.2)) =
        world.box.rows.map fun row => (row.1, services.digest row.2) := by
    rw [isListing, List.filterMap_map, ← List.filterMap_eq_map]
    apply List.filterMap_congr
    intro row member
    have relative : RelativePath row.1 := invariant.boxed row.1 (List.mem_map_of_mem member)
    have normal := mountRelative_sandboxPathFor absolute invariant.named relative
    simp [normal]
  have agree : ∀ entry ∈ world.box.rows.map fun row =>
      (row.1, services.digest row.2),
      entry.2 = ((world.box.get entry.1).map services.digest).getD [] := by
    intro entry member
    obtain ⟨row, inBox, same⟩ := List.mem_map.mp member
    have found : world.box.get row.1 = some row.2 := Table.get_eq_some_iff.mpr inBox
    rw [← same, found]
    rfl
  have whole : manifestOfListing (world.host services) world.mount listing =
      manifestOf (world.box.rows.map fun row =>
        (row.1, services.digest row.2)) := by
    rw [← entries]
    rfl
  rw [whole]
  constructor
  · intro rel
    let value := fun rel => ((world.box.get rel).map services.digest).getD []
    rw [@lookup_manifestOf _ value agree]
    have names : rel ∈ (world.box.rows.map fun row =>
        (row.1, services.digest row.2)).map Prod.fst ↔ rel ∈ world.box.names := by
      rw [List.map_map]
      exact Iff.rfl
    cases found : world.box.get rel with
    | none =>
      rw [if_neg]
      · rfl
      · rw [names]
        exact Table.get_eq_none_iff.mp found
    | some body =>
      rw [if_pos]
      · show some (((world.box.get rel).map services.digest).getD []) = _
        rw [found]
        rfl
      · rw [names, Table.mem_names_iff]
        exact ⟨body, found⟩
  · intro entry member
    exact agree entry (mem_of_mem_manifestOf member)

/-- The file that the host reads for a path. -/
def MountWorld.fileAt (world : MountWorld) (rel : Text) : Option DriverFile :=
  (world.box.get rel).map fun body => ⟨some body.content, body.base64⟩

/-- What goes into the workspace is what the sandbox has. -/
theorem textBody_fileAt (rel : Text) (body : (textBody (world.fileAt rel)).isSome = true ∨
      world.box.get rel = none) :
    (textBody (world.fileAt rel)).map (fun content => FileBody.mk content
      false) = world.box.get rel := by
  unfold MountWorld.fileAt at body ⊢
  cases found : world.box.get rel with
  | none => rfl
  | some file =>
    rw [found] at body
    have isText := body.resolve_right (Option.some_ne_none file)
    obtain ⟨content, base64⟩ := file
    cases base64 with
    | true => cases isText
    | false =>
      obtain ⟨text, same⟩ := Option.isSome_iff_exists.mp isText
      rw [same]
      have filtered : (some content).filter (fun content =>
          (codeUnits content).length ≤ maxFileBytes) = some text :=
        same
      have isContent := (Option.filter_eq_some_iff.mp filtered).1
      cases isContent
      rfl

theorem bodyAt_pathOf (rel : Text) :
    world.bodyAt (world.pathOf rel) = textBody (world.fileAt rel) := by
  unfold MountWorld.bodyAt MountWorld.pathOf
  rw [relativeTo_workspacePathFor]
  rfl

theorem plain_pathOf (invariant : MountInvariant services world) (rel : Text) :
    isServicePath (world.pathOf rel) = false :=
  isServicePath_below invariant.plain rel

theorem readFile_host {rel : Text} (held : world.box.get rel ≠ none) :
    (world.host services).readFile (sandboxPathFor world.mount rel) = .ok (world.fileAt rel) := by
  obtain ⟨body, found⟩ := Option.ne_none_iff_exists'.mp held
  have stored : (rel, body) ∈ world.box.rows := Table.get_eq_some_iff.mp found
  unfold MountWorld.host MountWorld.fileAt
  dsimp only
  rw [found]
  cases looked : world.box.rows.find? fun row =>
      decide (sandboxPathFor world.mount row.1 = sandboxPathFor world.mount rel) with
  | none =>
    have different := List.find?_eq_none.mp looked (rel, body) stored
    exact absurd (decide_eq_true rfl) different
  | some row =>
    have same : row.1 = rel := by
      have samePath : sandboxPathFor world.mount row.1 = sandboxPathFor world.mount rel := by
        have found := List.find?_some looked
        simpa using found
      have letters := List.append_cancel_left samePath
      rw [List.cons.injEq] at letters
      exact letters.2
    have isBody : world.box.get rel = some row.2 := by
      rw [← same]
      exact Table.get_eq_some_iff.mpr (List.mem_of_find?_eq_some looked)
    rw [found] at isBody
    cases isBody
    rfl

def MountWorld.compared (services : MountServices) (world : MountWorld) : Comparison :=
  compareMount world.files (world.host services) world.mount world.source
    (world.box.rows.map fun row => (sandboxPathFor world.mount row.1, services.digest row.2))

section

variable {grants : Option CapabilityGrants} {rel : Text}

section

variable (invariant : MountInvariant services world)

include invariant

theorem mem_changed (distinct : Function.Injective services.digest) :
    rel ∈ (world.compared services).changed ↔ world.box.get rel ≠ none ∧ world.Changed rel := by
  obtain ⟨looked, agree⟩ := live_spec invariant rfl
  have changed := @mem_changed_iff world.mount.base (world.compared services).live
    (fun rel => ((world.box.get rel).map services.digest).getD []) agree rel
  refine changed.trans ?_
  have live : (world.compared services).live.lookup rel =
      (world.box.get rel).map services.digest :=
    looked rel
  rw [live, invariant.based rel, ne_eq, Option.map_eq_none_iff]
  apply and_congr_right
  intro _
  unfold MountWorld.Changed
  rw [(Option.map_injective distinct).ne_iff]
  exact ne_comm

theorem mem_removed :
    rel ∈ (world.compared services).diff.removed ↔
      world.known rel ≠ none ∧ world.box.get rel = none := by
  obtain ⟨looked, _⟩ := live_spec invariant rfl
  have live : (world.compared services).live.lookup rel =
      (world.box.get rel).map services.digest :=
    looked rel
  have removed := @mem_removed_iff world.mount.base (world.compared services).live rel
  refine removed.trans ?_
  rw [live, invariant.based rel, ne_eq, Option.map_eq_none_iff, Option.map_eq_none_iff]

theorem lookup_current (condition : CommitCondition world grants) (changed : world.Changed rel) :
    (world.compared services).current.lookup rel = (world.tree rel).map services.digest := by
  obtain ⟨proper, _, visible⟩ := condition.shown rel changed
  have nonempty : world.source ≠ [] :=
    nonempty_of_workspaceSource (workspaceSource_eq invariant.sourced)
  have listed := lookup_workspaceManifest condition.lists nonempty proper
    (plain_pathOf invariant rel) visible
  refine listed.trans ?_
  unfold MountWorld.tree
  rw [Option.map_map]
  show (world.files.latest (world.pathOf rel)).map FsRow.hash = _
  cases found : world.files.latest (world.pathOf rel) with
  | none => rfl
  | some row =>
    have stored := (Store.mem_of_latest found).1
    have hash := (invariant.inOrder row stored).1
    exact congrArg some hash

theorem moved_iff (distinct : Function.Injective services.digest)
    (condition : CommitCondition world grants) (changed : world.Changed rel) :
    (world.compared services).moved rel = true ↔ world.tree rel ≠ world.known rel := by
  unfold Comparison.moved
  rw [decide_eq_true_eq, lookup_current invariant condition changed]
  have base : (world.compared services).base.lookup rel = (world.known rel).map services.digest :=
    invariant.based rel
  rw [base, (Option.map_injective distinct).ne_iff]
  exact ne_comm

theorem collides_iff (distinct : Function.Injective services.digest)
    (condition : CommitCondition world grants) (changed : world.Changed rel) :
    (world.compared services).collides rel = true ↔ world.tree rel ≠ world.known rel ∧
        world.tree rel ≠ world.box.get rel := by
  obtain ⟨looked, _⟩ := live_spec invariant rfl
  have live : (world.compared services).live.lookup rel =
      (world.box.get rel).map services.digest :=
    looked rel
  unfold Comparison.collides
  rw [Bool.and_eq_true, moved_iff invariant distinct condition changed,
    decide_eq_true_eq, lookup_current invariant condition changed, live,
    (Option.map_injective distinct).ne_iff]

end

/-- What a commit that goes through leaves: the paths that landed are known
as the sandbox has them, and so are they in the tree where they go there. -/
structure Committed (services : MountServices) (world : MountWorld)
    (grants : Option CapabilityGrants) (result : MountCommitResult)
    (after : MountWorld) (lands : Text → Prop) : Prop where
  answers : world.commit services grants = (.ok result, after)
  conflicts : ∀ rel, world.pathOf rel ∈ result.conflicts ↔
    world.Changed rel ∧ world.tree rel ≠ world.known rel ∧ world.tree rel ≠ world.box.get rel
  changed : ∀ rel, lands rel → world.Changed rel
  fits : ∀ rel, lands rel → world.tree rel = world.known rel ∨ world.tree rel = world.box.get rel
  known : ∀ rel, (lands rel → after.known rel = world.box.get rel) ∧
    (¬ lands rel → after.known rel = world.known rel)
  held : ∀ rel, (lands rel → after.held rel = some (after.tree rel)) ∧
    (¬ lands rel → after.held rel = world.held rel)
  lands_tree : ∀ rel, lands rel →
    world.targets.goesToTree world.isBound (world.pathOf rel) = true →
      after.tree rel = world.box.get rel
  other_tree : ∀ rel, ¬ (lands rel ∧
      world.targets.goesToTree world.isBound (world.pathOf rel) = true) →
    after.tree rel = world.tree rel
  based : ∀ rel, after.mount.base.lookup rel = (after.known rel).map services.digest
  steady : Steady services.toSessionServices world.targets after.targets
  box : after.box = world.box
  workdir : after.workdir = world.workdir
  sessionId : after.sessionId = world.sessionId
  mount : after.mount = { world.mount with base := after.mount.base }

theorem tree_eq_contentAt (world : MountWorld) (rel : Text) :
    world.tree rel = (world.targets.contentAt (world.pathOf rel)).map
      fun content => FileBody.mk content false := by
  unfold MountWorld.tree Targets.contentAt
  rw [Option.map_map]
  rfl

theorem ready_of_changed (condition : CommitCondition world grants) (changed : world.Changed rel) :
    Ready grants (world.host services) world.source rel := by
  obtain ⟨granted, accepts⟩ := condition.permitted rel changed
  refine ⟨granted, ?_⟩
  intro body
  have passes := @isOk_deliverTo services.toSessionServices world.targets
    world.isBound (world.pathOf rel) body
  rw [accepts] at passes
  show (deliverTo services.toSessionServices world.isBound
    (world.pathOf rel) body world.targets).1 = .ok ()
  cases outcome : (deliverTo services.toSessionServices world.isBound
      (world.pathOf rel) body world.targets).1 with
  | ok value => rfl
  | error thrown =>
    rw [outcome] at passes
    cases passes

section

variable (invariant : MountInvariant services world)

include invariant

theorem changed_of_compares (distinct : Function.Injective services.digest)
    (compares : rel ∈ (world.compared services).changed ∨
      rel ∈ (world.compared services).diff.removed) :
    world.Changed rel := by
  rcases compares with isChanged | isRemoved
  · exact ((mem_changed invariant distinct).mp isChanged).2
  · obtain ⟨given, gone⟩ := (mem_removed invariant).mp isRemoved
    intro same
    exact given (same.symm.trans gone)

theorem changed_of_lands (distinct : Function.Injective services.digest)
    (lands : (world.compared services).Lands world.fileAt rel) :
    world.Changed rel :=
  changed_of_compares invariant distinct (lands.imp And.left And.left)

theorem refused_iff (distinct : Function.Injective services.digest)
    (condition : CommitCondition world grants) :
    (rel ∈ (world.compared services).changed ∧ (world.compared services).collides rel = true) ∨
        (rel ∈ (world.compared services).diff.removed ∧
          (world.compared services).moved rel = true) ↔
      world.Changed rel ∧ world.tree rel ≠ world.known rel ∧
        world.tree rel ≠ world.box.get rel := by
  constructor
  · intro refused
    have differs := changed_of_compares invariant distinct (refused.imp And.left And.left)
    rcases refused with ⟨_, collides⟩ | ⟨isRemoved, moved⟩
    · exact ⟨differs, (collides_iff invariant distinct condition differs).mp collides⟩
    · obtain ⟨given, gone⟩ := (mem_removed invariant).mp isRemoved
      refine ⟨differs, (moved_iff invariant distinct condition differs).mp moved, ?_⟩
      rw [gone]
      exact condition.oneSided rel given gone
  · intro sides
    obtain ⟨differs, moved, apart⟩ := sides
    by_cases gone : world.box.get rel = none
    · right
      have given : world.known rel ≠ none := by
        intro unknown
        exact differs (gone.trans unknown.symm)
      exact ⟨(mem_removed invariant).mpr ⟨given, gone⟩,
        (moved_iff invariant distinct condition differs).mpr moved⟩
    · left
      exact ⟨(mem_changed invariant distinct).mpr ⟨gone, differs⟩,
        (collides_iff invariant distinct condition differs).mpr ⟨moved, apart⟩⟩

/-- What lands replaces what is known, or what the sandbox has already. -/
theorem fits_of_lands (distinct : Function.Injective services.digest)
    (condition : CommitCondition world grants)
    (lands : (world.compared services).Lands world.fileAt rel) :
    world.tree rel = world.known rel ∨ world.tree rel = world.box.get rel := by
  have differs := changed_of_lands invariant distinct lands
  rcases lands with ⟨_, writes⟩ | ⟨_, unmoved⟩
  · unfold Comparison.writes at writes
    rw [Bool.and_eq_true, Bool.not_eq_true'] at writes
    have fits : ¬ (world.compared services).collides rel = true := by
      rw [writes.1]
      exact Bool.false_ne_true
    rw [collides_iff invariant distinct condition differs, not_and_or, not_not, not_not] at fits
    exact fits
  · left
    by_contra moved
    rw [← ne_eq, ← moved_iff invariant distinct condition differs, unmoved] at moved
    cases moved

theorem committed_of_condition (distinct : Function.Injective services.digest)
    (condition : CommitCondition world grants) {draft : Option Vcs.ChatSessionRecord}
    (resolved : world.resolveSession = .ok draft) :
    ∃ result after, Committed services world grants result after
        ((world.compared services).Lands world.fileAt) := by
  obtain ⟨trace, result, whole, perPath⟩ := commitMount_spec
    (workspaceSource_eq invariant.sourced) invariant.tracked rfl rfl
    (fun _ compares => ready_of_changed condition
      (changed_of_compares invariant distinct compares))
    (fun rel member => readFile_host ((mem_changed invariant distinct).mp member).1)
  let delivered := world.afterDeliveries services trace
  let base := settledBase world.source (world.compared services)
    (world.compared services).diff.removed result
  let after : MountWorld :=
    { delivered with mount := { world.mount with base := base } }
  have answers : world.commit services grants = (.ok result, after) := by
    unfold MountWorld.commit
    rw [resolved]
    dsimp only
    rw [whole]
    rfl
  have written : ∀ rel, (.write (world.pathOf rel) ∈ trace) ↔
      (world.compared services).Lands world.fileAt rel :=
    fun rel => (perPath rel).2.2
  have landed : ∀ rel, world.landed services trace (world.pathOf rel) =
      true ↔ (world.compared services).Lands world.fileAt rel := by
    intro rel
    unfold MountWorld.landed
    rw [isOk_deliverTo, Bool.and_eq_true, decide_eq_true_eq]
    refine (and_congr_left' (written rel)).trans (and_iff_left_of_imp ?_)
    intro lands
    exact (condition.permitted rel (changed_of_lands invariant distinct lands)).2
  have start : Steady services.toSessionServices world.targets world.targets :=
    ⟨rfl, rfl, rfl, invariant.inOrder⟩
  obtain ⟨steady, contents⟩ := @MountWorld.contentAt_foldl services world trace world.targets start
  have tree : ∀ rel, after.tree rel =
      if (.write (world.pathOf rel) ∈ trace) ∧
          world.targets.goesToTree world.isBound (world.pathOf rel) = true
      then (textBody (world.fileAt rel)).map fun content => FileBody.mk content false
      else world.tree rel := by
    intro rel
    have content := contents (world.pathOf rel) (plain_pathOf invariant rel)
    rw [bodyAt_pathOf] at content
    rw [tree_eq_contentAt, tree_eq_contentAt]
    show (Targets.contentAt _ (world.pathOf rel)).map _ = _
    refine (congrArg _ content).trans ?_
    split
    · rfl
    · rfl
  refine ⟨result, after, {
    answers := answers
    conflicts := fun rel => (perPath rel).1.trans (refused_iff invariant distinct condition)
    changed := fun rel lands => changed_of_lands invariant distinct lands
    fits := fun rel lands => fits_of_lands invariant distinct condition lands
    known := ?_
    held := ?_
    lands_tree := ?_
    other_tree := ?_
    based := ?_
    steady := steady
    box := rfl
    workdir := rfl
    sessionId := rfl
    mount := rfl }⟩
  · intro rel
    constructor
    · intro lands
      exact if_pos ((landed rel).mpr lands)
    · intro other
      exact if_neg fun isLanded => other ((landed rel).mp isLanded)
  · intro rel
    constructor
    · intro lands
      exact if_pos ((landed rel).mpr lands)
    · intro other
      exact if_neg fun isLanded => other ((landed rel).mp isLanded)
  · intro rel lands goes
    rw [tree rel, if_pos ⟨(written rel).mpr lands, goes⟩]
    apply textBody_fileAt
    rcases lands with ⟨_, writes⟩ | ⟨isRemoved, _⟩
    · left
      unfold Comparison.writes at writes
      exact (Bool.and_eq_true_iff.mp writes).2
    · right
      exact ((mem_removed invariant).mp isRemoved).2
  · intro rel other
    rw [tree rel, if_neg fun both => other ⟨(written rel).mp both.1, both.2⟩]
  · intro rel
    obtain ⟨looked, agree⟩ := live_spec invariant rfl
    have settled := @lookup_settledBase
      (fun rel => ((world.box.get rel).map services.digest).getD [])
      world.source (world.compared services) agree result rel
    refine settled.trans ?_
    by_cases lands : (world.compared services).Lands world.fileAt rel
    · have isKnown : after.known rel = world.box.get rel := if_pos ((landed rel).mpr lands)
      rw [if_pos ((perPath rel).2.1.mpr lands), isKnown]
      exact looked rel
    · have isKnown : after.known rel = world.known rel :=
        if_neg fun isLanded => lands ((landed rel).mp isLanded)
      rw [if_neg fun isSettled => lands ((perPath rel).2.1.mp isSettled), isKnown]
      exact invariant.based rel

theorem invariant_commit (distinct : Function.Injective services.digest)
    (condition : CommitCondition world grants) :
    MountInvariant services (world.commit services grants).2 := by
  cases resolved : world.resolveSession with
  | error thrown =>
    have refused : world.commit services grants = (.error thrown, world) := by
      unfold MountWorld.commit
      rw [resolved]
    rw [refused]
    exact invariant
  | ok draft =>
    obtain ⟨result, after, committed⟩ :=
      committed_of_condition invariant distinct condition resolved
    rw [committed.answers]
    have source : after.source = world.source := by
      unfold MountWorld.source
      rw [committed.mount]
      rfl
    have path : ∀ rel, after.pathOf rel = world.pathOf rel := by
      intro rel
      unfold MountWorld.pathOf
      rw [source]
    constructor
    · show isMountPath after.mount.path = true
      rw [committed.mount]
      exact invariant.named
    · show after.mount.workspaceSource ≠ none
      rw [committed.mount]
      exact invariant.sourced
    · show ".services".toList.isPrefixOf after.source = false
      rw [source]
      exact invariant.plain
    · show after.mount.track = true
      rw [committed.mount]
      exact invariant.tracked
    · show ∃ root, stripTrailingSlashes after.workdir ++ ['/'] = '/' :: root
      rw [committed.workdir]
      exact invariant.absolute
    · show ∀ rel ∈ after.box.names, RelativePath rel
      rw [committed.box]
      exact invariant.boxed
    · exact committed.based
    · show InOrder services.toSessionServices after.targets.stores.clock after.targets.stores.files
      rw [committed.steady.clock]
      exact committed.steady.inOrder
    · intro rel goes value held
      have bound : after.isBound = world.isBound := by
        unfold MountWorld.isBound
        rw [committed.sessionId]
      rw [path, bound, goesToTree_of_steady committed.steady] at goes
      by_cases lands : (world.compared services).Lands world.fileAt rel
      · have tree := committed.lands_tree rel lands goes
        rw [(committed.held rel).1 lands] at held
        cases held
        exact tree.trans ((committed.known rel).1 lands).symm
      · rw [(committed.held rel).2 lands] at held
        exact (invariant.landed rel goes value held).trans ((committed.known rel).2 lands).symm

theorem invariant_edit (change : Store → Store) (inOrder : InOrder services.toSessionServices
      world.targets.stores.clock (change world.files)) :
    MountInvariant services (world.edit change) :=
  ⟨invariant.named, invariant.sourced, invariant.plain, invariant.tracked,
    invariant.absolute, invariant.boxed, invariant.based, inOrder,
    invariant.landed⟩

end

theorem invariant_mountStep (distinct : Function.Injective services.digest) (world : MountWorld)
    (act : MountAct) (next : MountWorld) (invariant : MountInvariant services world)
    (condition : MountCondition world act) (taken : mountStep services world act = some next) :
    MountInvariant services next := by
  cases act with
  | sandboxWrite rel body =>
    cases taken
    refine ⟨invariant.named, invariant.sourced, invariant.plain,
      invariant.tracked, invariant.absolute, ?_, invariant.based,
      invariant.inOrder, invariant.landed⟩
    intro other member
    rcases Table.mem_names_put.mp member with same | old
    · rw [same]
      exact condition
    · exact invariant.boxed other old
  | sandboxRemove rel =>
    cases taken
    refine ⟨invariant.named, invariant.sourced, invariant.plain,
      invariant.tracked, invariant.absolute, ?_, invariant.based,
      invariant.inOrder, invariant.landed⟩
    intro other member
    apply invariant.boxed
    obtain ⟨row, kept, same⟩ := List.mem_map.mp member
    exact List.mem_map.mpr ⟨row, (List.mem_filter.mp kept).1, same⟩
  | memberWrite path content mimeType =>
    cases taken
    exact invariant_edit invariant _ (inOrder_write invariant.inOrder path content mimeType)
  | memberRemove path =>
    cases taken
    exact invariant_edit invariant _ (inOrder_keep invariant.inOrder _)
  | memberRemovePrefix pathPrefix =>
    cases taken
    exact invariant_edit invariant _ (inOrder_keep invariant.inOrder _)
  | tick elapsed =>
    cases taken
    refine ⟨invariant.named, invariant.sourced, invariant.plain,
      invariant.tracked, invariant.absolute, invariant.boxed,
      invariant.based, ?_, invariant.landed⟩
    intro row member
    obtain ⟨hash, older⟩ := invariant.inOrder row member
    exact ⟨hash, Nat.le_trans older (Nat.le_add_right _ elapsed)⟩
  | commit grants =>
    cases taken
    exact invariant_commit invariant distinct condition

theorem threeWay_of_condition (invariant : MountInvariant services world)
    (distinct : Function.Injective services.digest) (condition : CommitCondition world grants) :
    ThreeWay services world grants := by
  cases resolved : world.resolveSession with
  | error thrown =>
    have refused : world.commit services grants = (.error thrown, world) := by
      unfold MountWorld.commit
      rw [resolved]
    constructor
    · intro result answered
      rw [refused] at answered
      cases answered
    · intro rel _
      rw [refused]
    · intro result answered
      rw [refused] at answered
      cases answered
  | ok draft =>
    obtain ⟨result, after, committed⟩ :=
      committed_of_condition invariant distinct condition resolved
    have isResult : ∀ other, (world.commit services grants).1 = .ok other → result = other := by
      intro other answered
      rw [committed.answers] at answered
      exact Except.ok.inj answered
    constructor
    · intro other answered rel
      rw [← isResult other answered]
      exact committed.conflicts rel
    · intro rel moved
      rw [committed.answers]
      by_cases lands : ((world.compared services).Lands world.fileAt rel ∧
          world.targets.goesToTree world.isBound (world.pathOf rel) = true)
      · have same := (committed.fits rel lands.1).resolve_left moved
        exact (committed.lands_tree rel lands.1 lands.2).trans same.symm
      · exact committed.other_tree rel lands
    · intro other answered rel held
      rw [← isResult other answered, committed.conflicts rel]
      intro sides
      obtain ⟨differs, moved, _⟩ := sides
      by_cases goes : world.targets.goesToTree world.isBound (world.pathOf rel) = true
      · exact moved (invariant.landed rel goes _ held)
      · exact moved (condition.elsewhere rel differs (Bool.eq_false_iff.mpr goes) held)

end

end

/-- In a run whose steps meet the condition, every commit that meets it
follows the three-way law. -/
theorem commits_threeWay (services : MountServices)
    (distinct : Function.Injective services.digest) (start : MountWorld)
    (starts : MountStarts services start) (acts : List MountAct) (world : MountWorld)
    (meets : StepsMeet (mountStep services) MountCondition start acts)
    (executed : runFrom (mountStep services) start acts = some world)
    (grants : Option CapabilityGrants) (condition : CommitCondition world grants) :
    ThreeWay services world grants := by
  have invariant := invariant_of_stepsMeet (MountInvariant services)
    (invariant_mountStep distinct) (invariant_of_mountStarts starts) meets
    executed
  exact threeWay_of_condition invariant distinct condition

/-- Digests that tell texts and binary bodies apart. -/
def plainDigests : MountServices where
  sha256 content := 't' :: content
  collate _ _ := true
  snapshotId _ _ := []
  commitId _ _ := []
  binaryDigest content := 'b' :: content

theorem plainDigests_injective : Function.Injective plainDigests.digest := by
  intro first second same
  obtain ⟨content, base64⟩ := first
  obtain ⟨other, otherBase64⟩ := second
  cases base64 <;> cases otherBase64 <;>
    simp [MountServices.digest, plainDigests] at same ⊢
  · exact same
  · exact same

/-- A file `docs/a` that a sandbox was given, which is bound to a draft or to
none. -/
def oneFileWorld (session : Option Vcs.ChatSessionRecord) : MountWorld where
  targets := {
    stores := {
      clock := 1
      uuids := []
      session := session
      messages := Table.empty
      files := Store.write plainDigests.sha256 0 ⟨.sqlite, [], Fs.Store.keys_nil⟩
        "docs/a".toList "0".toList "text/plain".toList none
      history := ⟨[], [], []⟩ }
    externalMounts := []
    objects := [] }
  sessionId := session.map (·.id)
  workdir := "/work".toList
  mount := {
    workspaceMount "box".toList (some "docs".toList) .rw with
      base := [("a".toList, "t0".toList)] }
  box := Table.empty.put "a".toList ⟨"0".toList, false⟩
  known rel := if rel = "a".toList then some ⟨"0".toList, false⟩ else none
  held _ := none

theorem oneFileWorld_starts (session : Option Vcs.ChatSessionRecord) :
    MountStarts plainDigests (oneFileWorld session) where
  named := by
    show isMountPath (oneFileWorld none).mount.path = true
    decide +kernel
  sourced := by
    show (oneFileWorld none).mount.workspaceSource ≠ none
    decide +kernel
  plain := by
    show ".services".toList.isPrefixOf (oneFileWorld none).source = false
    decide +kernel
  tracked := rfl
  absolute := by
    refine ⟨"work/".toList, ?_⟩
    show stripTrailingSlashes (oneFileWorld none).workdir ++ ['/'] = _
    decide +kernel
  boxed := by
    intro rel member
    rcases Table.mem_names_put.mp member with same | impossible
    · rw [same]
      exact ⟨by decide, by decide, by decide +kernel⟩
    · cases impossible
  based := by
    intro rel
    by_cases same : rel = "a".toList
    · rw [same]
      rfl
    · have different : (rel == "a".toList) = false := beq_eq_false_iff_ne.mpr same
      show [("a".toList, "t0".toList)].lookup rel = (if rel = "a".toList then _ else none).map _
      rw [if_neg same, List.lookup_cons, different]
      rfl
  inOrder := by
    intro row member
    cases List.mem_singleton.mp member
    exact ⟨rfl, Nat.zero_le 1⟩
  fresh _ := rfl

/-- The sandbox changes the file and commits. -/
theorem commits_threeWay_changed :
    ∃ world, runFrom (mountStep plainDigests) (oneFileWorld none)
        [.sandboxWrite "a".toList ⟨"1".toList, false⟩] = some world ∧
      ThreeWay plainDigests world none := by
  refine ⟨_, rfl, ?_⟩
  apply commits_threeWay plainDigests plainDigests_injective
    (oneFileWorld none) (oneFileWorld_starts none)
    [.sandboxWrite "a".toList ⟨"1".toList, false⟩] _ ?_ rfl
  · have onlyFile : ∀ rel, rel ≠ "a".toList →
        ((oneFileWorld none).box.put "a".toList ⟨"1".toList, false⟩).get rel =
          (oneFileWorld none).known rel := by
      intro rel other
      rw [Table.get_put_of_ne _ _ other]
      show (Table.empty.put _ _).get rel = if rel = "a".toList then _ else none
      rw [Table.get_put_of_ne _ _ other, if_neg other]
      rfl
    constructor
    · intro path member service visible
      cases List.mem_singleton.mp member
      decide +kernel
    · show (oneFileWorld none).files.Untied
      decide +kernel
    · intro rel differs
      have same : rel = "a".toList := by
        by_contra other
        exact differs (onlyFile rel other)
      rw [same]
      exact ⟨by decide, by decide +kernel, by decide +kernel⟩
    · intro rel _
      exact ⟨rfl, rfl⟩
    · intro rel given gone
      have same : rel = "a".toList := by
        by_contra other
        exact given ((onlyFile rel other).symm.trans gone)
      rw [same] at gone ⊢
      revert gone
      decide +kernel
    · intro rel _ _ held
      cases held
  · refine ⟨⟨by decide, by decide, by decide +kernel⟩, ?_⟩
    intro next taken
    trivial

def draftSession : Vcs.ChatSessionRecord where
  id := "s".toList
  title := []
  status := .opened
  mode := .staged
  base := []
  overlay := .empty
  touchedPaths := none
  tabs := none
  activeRunId := none
  messageCount := 0
  createdBy := []
  createdAt := 0
  updatedAt := 0
  mergeCommit := none

def draftRun : List MountAct :=
  [.sandboxWrite "a".toList ⟨"1".toList, false⟩, .commit none,
    .sandboxWrite "a".toList ⟨"2".toList, false⟩]

/-- A sandbox that is bound to a draft commits a file twice; the second
commit reports a conflict, though nobody else touched the file. -/
theorem draft_commit_conflicts :
    ∃ world, MountStarts plainDigests (oneFileWorld (some draftSession)) ∧
      runFrom (mountStep plainDigests) (oneFileWorld (some draftSession)) draftRun = some world ∧
      ¬ ThreeWay plainDigests world none := by
  have evaluated : (runFrom (mountStep plainDigests)
      (oneFileWorld (some draftSession)) draftRun).map (fun world =>
        ((world.commit plainDigests none).1.toOption.map (·.conflicts),
          decide (world.held "a".toList = some (world.tree "a".toList)),
          world.pathOf "a".toList)) =
      some (some ["docs/a".toList], true, "docs/a".toList) := by
    decide +kernel
  obtain ⟨world, executed, seen⟩ := Option.map_eq_some_iff.mp evaluated
  rw [Prod.mk.injEq, Prod.mk.injEq] at seen
  obtain ⟨answered, held, path⟩ := seen
  refine ⟨world, oneFileWorld_starts _, executed, ?_⟩
  intro law
  obtain ⟨result, returned, conflicts⟩ := Option.map_eq_some_iff.mp answered
  have isResult : (world.commit plainDigests none).1 = .ok result := by
    cases outcome : (world.commit plainDigests none).1 with
    | error thrown =>
      rw [outcome] at returned
      cases returned
    | ok value =>
      rw [outcome] at returned
      cases returned
      rfl
  apply law.settles result isResult "a".toList (of_decide_eq_true held)
  rw [conflicts, path]
  exact List.mem_cons_self

end Aprovan.Sandboxes
