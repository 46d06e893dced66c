import Aprovan.Vcs.SessionCommit

/-!
# Resolved merges of a session

`resolveSessionMerge` moves the base of a session to the current tree, reports
the staged paths where `main` has moved as conflicts, drops them from the
overlay if the workspace is to win, and merges the rest.  Snapshots leave the
hidden data partitions out.
-/

namespace Aprovan.Vcs

open Aprovan.Library Aprovan.Server Aprovan.Fs

def snapshotMissing : ServiceError where
  message := "Snapshot missing for main head".toList
  status := 500

def noStagedMatch : ServiceError where
  message := "No matching staged changes".toList
  status := 404

/-- `ours` is null for a staged delete, `theirs` undefined for a path that
is deleted on main. -/
structure SessionConflict where
  path : Text
  (ours theirs : Option Text)

/-- `staged !== now`; null is not undefined. -/
def stagedDiffers : Option Text → Option Text → Bool
  | some staged, some now => staged ≠ now
  | _, _ => true

def conflictsOf (before now : List SnapshotEntry) (overlay : Overlay) : List SessionConflict :=
  overlay.entries.filterMap fun (path, staged) =>
    if baseHash before path ≠ baseHash now path ∧
        stagedDiffers staged (baseHash now path) = true then
      some ⟨path, staged, baseHash now path⟩
    else none

def autoSnapshot (userId : Text) : CommitOptions where
  message := "Auto snapshot".toList
  author := userId
  sessionId := none
  ref := mainRef
  parents := none

def syncSession (services : SessionServices) (id userId : Text) :
    SessionCall (ChatSessionRecord × List SessionConflict) := do
  let session ← requireSession id
  if session.status ≠ .opened then refuse sessionNotOpen
  else
    let oldBase ← baseSnapshot session
    let commit ← commitTree services (autoSnapshot userId)
    if commit.id = session.base then pure (session, [])
    else
      match ← ask (.readSnapshot commit.snapshot) with
      | none => refuse snapshotMissing
      | some newBase =>
        let updatedAt ← ask .now
        let synced : ChatSessionRecord :=
          { session with base := commit.id, updatedAt := updatedAt }
        save synced
        pure (synced, conflictsOf oldBase.entries newBase.entries session.overlay)

/-- One path of a discard: the entry goes, if there is one. -/
def discardPath (kept : Overlay × List Text) (raw : Text) : Overlay × List Text :=
  match normalizeFsPath raw with
  | none => kept
  | some path =>
    if kept.1.has path then (kept.1.delete path, kept.2 ++ [path]) else kept

def discardChanges (id : Text) (paths : List Text) : SessionCall (List Text) := do
  let session ← requireSession id
  if session.status ≠ .opened then refuse sessionNotOpen
  else
    let (overlay, dropped) := paths.foldl discardPath (session.overlay, [])
    if dropped = [] then refuse noStagedMatch
    else
      let updatedAt ← ask .now
      save { session with overlay := overlay, updatedAt := updatedAt }
      pure (sortTexts dropped)

inductive MergeStrategy where
  | keepDraft
  | keepWorkspace
  deriving DecidableEq

structure ResolveOptions where
  strategy : MergeStrategy
  apply : Bool
  message : Option Text

structure ResolvedMerge where
  session : ChatSessionRecord
  commit : Option VcsCommit
  resolved : List Text

def keptVersions : MergeStrategy → Text
  | .keepDraft => "kept the draft's versions".toList
  | .keepWorkspace => "kept the workspace versions".toList

def resolveMessage (session : ChatSessionRecord) (options : ResolveOptions) : Text :=
  match trim (options.message.getD []) with
  | [] => "Merge: ".toList ++ session.title ++ " (".toList ++
      keptVersions options.strategy ++ ")".toList
  | message => message

/-- The conflicts of the strategy that the workspace wins are dropped. -/
def dropResolved (id : Text) (strategy : MergeStrategy) (resolved : List Text) :
    SessionCall Unit :=
  if strategy = .keepWorkspace ∧ resolved ≠ [] then do
    let _ ← discardChanges id resolved
  else pure ()

def resolveSessionMerge (services : SessionServices) (id userId : Text)
    (options : ResolveOptions) : SessionCall ResolvedMerge := do
  let (_, conflicts) ← syncSession services id userId
  let resolved := sortTexts (conflicts.map SessionConflict.path)
  dropResolved id options.strategy resolved
  if options.apply = false then
    let session ← requireSession id
    pure ⟨session, none, resolved⟩
  else
    let session ← requireSession id
    let (closed, commit) ← closeSession services id userId
      ⟨true, some (resolveMessage session options)⟩
    pure ⟨closed, commit, resolved⟩

def fileHash (files : Store) (path : Text) : Option Text :=
  (files.latest path).map FsRow.hash

def announcedChanges (session : ChatSessionRecord) (atBase main : Store)
    (strategy : MergeStrategy) : TreeChanges Text Text :=
  match strategy with
  | .keepDraft => session.overlay.get
  | .keepWorkspace =>
    TreeChanges.within session.overlay.get fun path => fileHash atBase path = fileHash main path

def MovedAway (session : ChatSessionRecord) (atBase main : Store) (path : Text) : Prop :=
  ∃ staged, session.overlay.get path = some staged ∧
    fileHash atBase path ≠ fileHash main path ∧ fileHash main path ≠ staged

section

variable (services : SessionServices) (stores : SessionStores)
  (session : ChatSessionRecord) (atBase : Store)

/-- The merge returns, the resolved paths are the conflicts, and the live
tree is main overridden as announced. -/
def ResolvesAsAnnounced (strategy : MergeStrategy) (userId : Text) (message : Option Text) :
    Prop :=
  let finished := (resolveSessionMerge services session.id userId
    ⟨strategy, true, message⟩).run (executeAlone services) stores
  ∃ merge, finished.outcome = .ok merge ∧ (∀ path, path ∈ merge.resolved ↔
      MovedAway session atBase stores.files path) ∧
    ∀ path, fileHash finished.state.files path =
      (announcedChanges session atBase stores.files strategy).override (fileHash stores.files) path

def WritesStaged (path hash : Text) : Prop :=
  ∃ shadow, stores.files.read (shadowPath session.id path) (some hash) = some shadow ∧
      fileHash (stores.files.write services.sha256 stores.clock path
        shadow.content shadow.mimeType none) path = some hash

/-- No hidden path moved away, no path that the base had is deleted on both
sides, and everything that the draft keeps can be written. -/
structure ResolveCondition (strategy : MergeStrategy) : Prop where
  hidden : ∀ path, isHiddenDataPath path = true → ¬ MovedAway session atBase stores.files path
  deleted : ∀ path, session.overlay.get path = some none →
    visibleHash atBase path ≠ none → visibleHash stores.files path ≠ none
  content : ∀ path hash, session.overlay.get path = some (some hash) →
    (strategy = .keepDraft ∨ ¬ MovedAway session atBase stores.files path) →
      WritesStaged services stores session path hash

/-- An open session whose base is a snapshot of earlier files, in a workspace
whose listing shows what a read finds.  The history has the snapshot of each
of its commits, and the digests that name the base and the live tree name
nothing else. -/
structure ResolveStarts : Prop where
  stored : stores.session = some session
  opened : session.status = .opened
  filePaths : StagesFilePaths session
  untied : stores.files.Untied
  based : ∃ commit snapshot, stores.history.readCommit session.base = some commit ∧
      stores.history.readSnapshot commit.snapshot = some snapshot ∧
      ∀ path, baseHash snapshot.entries path = visibleHash atBase path
  kept : ∀ commit ∈ stores.history.commits,
    ∃ snapshot, stores.history.readSnapshot commit.snapshot = some snapshot
  trees : ∀ snapshot ∈ stores.history.snapshots,
    snapshot.id = (snapshotTree services (visibleFiles stores.files)).id →
      ∀ path, baseHash snapshot.entries path = visibleHash stores.files path
  commits : ∀ body, services.commitId body none = session.base →
    ∀ commit, stores.history.readCommit session.base = some commit →
      body.snapshot = commit.snapshot

end

section

variable {services : SessionServices} {stores : SessionStores}
  {session : ChatSessionRecord} {atBase : Store} {Value : Type}

/-- What the functions over the history leave as it is. -/
structure OnlyHistory (before after : SessionStores) : Prop where
  files : after.files = before.files
  session : after.session = before.session
  clock : after.clock = before.clock

theorem onlyHistory_of_asks (services : SessionServices) {process : SessionCall Value}
    (asks : Asks (isHistoryStatement ·) process) (stores : SessionStores) :
    OnlyHistory stores (process.run (executeAlone services) stores).state := by
  have start : OnlyHistory stores stores := ⟨rfl, rfl, rfl⟩
  refine kept_of_asks ?_ asks start
  intro statement state history same
  obtain ⟨files, session, clock⟩ := same
  cases statement <;> first
    | exact ⟨files, session, clock⟩
    | cases history

theorem readSnapshot_eq_some {history : History} {id : Text} {snapshot : VcsSnapshot}
    (found : history.readSnapshot id = some snapshot) :
    snapshot ∈ history.snapshots ∧ snapshot.id = id := by
  unfold History.readSnapshot at found
  have hit := List.find?_some found
  exact ⟨List.mem_of_find?_eq_some found, of_decide_eq_true hit⟩

theorem readSnapshot_saveSnapshot (history : History) (snapshot : VcsSnapshot) :
    (history.saveSnapshot snapshot).readSnapshot snapshot.id = some snapshot := by
  have others : (history.snapshots.filter (·.id ≠ snapshot.id)).find?
      (·.id = snapshot.id) = none := by
    rw [List.find?_eq_none]
    intro other member same
    exact of_decide_eq_true (List.mem_filter.mp member).2 (of_decide_eq_true same)
  unfold History.readSnapshot History.saveSnapshot
  rw [List.find?_append, others, Option.none_or, List.find?_cons_of_pos (by simp)]

def sparesSnapshots : SessionStatement → Bool
  | .saveSnapshot _ => false
  | _ => true

theorem spares_createCommitOf (services : SessionServices) (snapshot : VcsSnapshot)
    (parents : List Text) (options : CommitOptions) :
    Asks (sparesSnapshots ·) (createCommitOf services snapshot parents options) := by
  apply (quiet_createCommitOf snapshot parents options).weaken
  intro statement quiet
  cases statement with
  | saveSnapshot saved => cases quiet
  | _ => rfl

/-- Saved snapshots stay when commits and refs are written. -/
theorem readSnapshot_of_quiet (services : SessionServices) {process : SessionCall Value}
    (quiet : Asks (sparesSnapshots ·) process) (stores : SessionStores) (id : Text) :
    (process.run (executeAlone services) stores).state.history.readSnapshot
        id = stores.history.readSnapshot id := by
  let same (state : SessionStores) : Prop :=
    state.history.readSnapshot id = stores.history.readSnapshot id
  have start : same stores := rfl
  refine kept_of_asks ?_ quiet start
  intro statement state spares same
  cases statement <;> first
    | exact same
    | cases spares

theorem returns_createCommitOf (services : SessionServices) (snapshot : VcsSnapshot)
    (parents : List Text) (options : CommitOptions) :
    Returns (fun commit : VcsCommit => commit.snapshot = snapshot.id ∧
        commit.id = services.commitId commit.toCommitBody options.sessionId)
      (createCommitOf services snapshot parents options) := by
  apply returns_bind (succeeds_readCommit _)
  intro parentCommit _
  apply returns_bind (succeeds_snapshotOf parentCommit)
  intro parentSnapshot _
  apply returns_bind (succeeds_ask _)
  intro createdAt _
  apply returns_bind (succeeds_ask _)
  intro written _
  exact returns_pure ⟨rfl, rfl⟩

theorem run_advanceRef (services : SessionServices) (stores : SessionStores)
    (options : CommitOptions) (snapshot : VcsSnapshot) (parents : List Text) :
    let finished := (commitTree.advanceRef services options snapshot
      parents).run (executeAlone services) stores
    ∃ commit, finished.outcome = .ok commit ∧ commit.snapshot = snapshot.id ∧
      commit.id = services.commitId commit.toCommitBody options.sessionId ∧
      finished.state.history.readSnapshot snapshot.id = some snapshot := by
  have saved : ((ask (.saveSnapshot snapshot)).run (executeAlone services)
      stores).state.history.readSnapshot snapshot.id = some snapshot :=
    readSnapshot_saveSnapshot stores.history snapshot
  obtain ⟨commit, created, names, digest⟩ := run_of_returns
    (returns_createCommitOf services snapshot parents options)
    (answered_executeAlone services)
    ((ask (.saveSnapshot snapshot)).run (executeAlone services) stores).state
  have still := readSnapshot_of_quiet services
    (spares_createCommitOf services snapshot parents options)
    ((ask (.saveSnapshot snapshot)).run (executeAlone services) stores).state
    snapshot.id
  unfold commitTree.advanceRef
  dsimp only
  rw [run_bind_ok rfl]
  dsimp only
  rw [run_bind_ok created]
  refine ⟨commit, rfl, names, digest, ?_⟩
  exact still.trans saved

theorem run_headOf (services : SessionServices) (stores : SessionStores) (ref : Option VcsRef) :
    ((headOf ref).run (executeAlone services) stores).outcome =
        .ok (ref.bind fun ref => stores.history.readCommit ref.commit) ∧
      ((headOf ref).run (executeAlone services) stores).state = stores := by
  cases ref with
  | none => exact ⟨rfl, rfl⟩
  | some ref => exact run_readCommit services stores ref.commit

theorem run_autoSnapshot (starts : ResolveStarts services stores session atBase) (userId : Text) :
    let finished := (commitTree services (autoSnapshot userId)).run (executeAlone services) stores
    OnlyHistory stores finished.state ∧
    ∃ commit snapshot, finished.outcome = .ok commit ∧
      finished.state.history.readSnapshot commit.snapshot = some snapshot ∧
      (∀ path, baseHash snapshot.entries path = visibleHash stores.files path) ∧
      (commit.id = session.base →
        ∀ path, visibleHash atBase path = visibleHash stores.files path) := by
  have only : OnlyHistory stores ((commitTree services
      (autoSnapshot userId)).run (executeAlone services) stores).state :=
    onlyHistory_of_asks services (asks_commitTree (allowsCommits_history services) fun _ => rfl) stores
  refine ⟨only, ?_⟩
  obtain ⟨baseCommit, base, foundCommit, foundBase, ofBase⟩ := starts.based
  -- whatever commits the snapshot of the live tree commits the base only if
  -- the base is the live tree
  have sameTree : baseCommit.snapshot = (snapshotTree services (visibleFiles stores.files)).id →
        ∀ path, visibleHash atBase path = visibleHash stores.files path := by
    intro same path
    obtain ⟨member, named⟩ := readSnapshot_eq_some foundBase
    rw [← ofBase path]
    exact starts.trees base member (named.trans same) path
  have created : ∀ parents,
      let finished := (commitTree.advanceRef services (autoSnapshot userId)
        (snapshotTree services (visibleFiles stores.files)) parents).run
          (executeAlone services) stores
      ∃ commit snapshot, finished.outcome = .ok commit ∧
        finished.state.history.readSnapshot commit.snapshot = some snapshot ∧
        (∀ path, baseHash snapshot.entries path = visibleHash stores.files path) ∧
        (commit.id = session.base → ∀ path,
          visibleHash atBase path = visibleHash stores.files path) := by
    intro parents
    obtain ⟨commit, returned, names, digest, saved⟩ := run_advanceRef services
      stores (autoSnapshot userId)
      (snapshotTree services (visibleFiles stores.files)) parents
    refine ⟨commit, snapshotTree services (visibleFiles stores.files),
      returned, ?_, baseHash_snapshotTree, ?_⟩
    · rw [names]
      exact saved
    · intro isBase
      apply sameTree
      have body : services.commitId commit.toCommitBody none = session.base :=
        digest.symm.trans isBase
      rw [← starts.commits _ body baseCommit foundCommit]
      exact names
  obtain ⟨head, sameHead⟩ := run_headOf services stores
    (answerSession services (.readRef (autoSnapshot userId).ref) stores).1
  have listed : (visibleTree.run (executeAlone services) stores).outcome =
      .ok (visibleFiles stores.files) :=
    rfl
  have sameListed : (visibleTree.run (executeAlone services) stores).state = stores := rfl
  unfold commitTree
  dsimp only
  rw [run_bind_ok listed, sameListed]
  dsimp only
  rw [run_bind_ok rfl]
  have answered : ((ask (.readRef (autoSnapshot userId).ref)).run
      (executeAlone services) stores).state = stores :=
    rfl
  rw [answered]
  dsimp only
  rw [run_bind_ok head, sameHead]
  have noParents : (autoSnapshot userId).parents = none := rfl
  simp only [noParents]
  cases found : (answerSession services (.readRef (autoSnapshot userId).ref)
      stores).1.bind fun ref => stores.history.readCommit ref.commit with
  | none => exact created []
  | some commit =>
    dsimp only
    by_cases same : commit.snapshot = (snapshotTree services (visibleFiles stores.files)).id
    · rw [if_pos same]
      obtain ⟨ref, _, read⟩ := Option.bind_eq_some_iff.mp found
      obtain ⟨member, named⟩ := readCommit_eq_some read
      obtain ⟨snapshot, stored⟩ := starts.kept commit member
      obtain ⟨inside, snapshotNamed⟩ := readSnapshot_eq_some stored
      refine ⟨commit, snapshot, rfl, stored,
        starts.trees snapshot inside (snapshotNamed.trans same), ?_⟩
      intro isBase
      apply sameTree
      rw [← named, isBase, foundCommit] at read
      cases read
      exact same
    · rw [if_neg same]
      exact created [commit.id]

/-- What a sync reports: the visible tree moved under a staged path, and the
staged value is another one than its hash. -/
def Reported (session : ChatSessionRecord) (atBase main : Store) (path : Text) : Prop :=
  ∃ staged, session.overlay.get path = some staged ∧
    visibleHash atBase path ≠ visibleHash main path ∧
    stagedDiffers staged (visibleHash main path) = true

/-- The stores hold the session, with another overlay, and have the files
that they had. -/
structure HoldsDraft (before : SessionStores) (session : ChatSessionRecord)
    (draft : ChatSessionRecord) (after : SessionStores) : Prop where
  stored : after.session = some draft
  named : draft.id = session.id
  opened : draft.status = .opened
  files : after.files = before.files
  clock : after.clock = before.clock

theorem mem_conflictsOf_iff {before now : List SnapshotEntry} {overlay : Overlay} {path : Text} :
    path ∈ (conflictsOf before now overlay).map SessionConflict.path ↔
      ∃ staged, overlay.get path = some staged ∧ baseHash before path ≠ baseHash now path ∧
        stagedDiffers staged (baseHash now path) = true := by
  simp only [conflictsOf, List.mem_map, List.mem_filterMap, Prod.exists, PlainObject.mem_entries]
  constructor
  · rintro ⟨conflict, ⟨other, staged, found, listed⟩, rfl⟩
    split at listed
    · rename_i both
      cases listed
      exact ⟨staged, found, both⟩
    · cases listed
  · rintro ⟨staged, found, both⟩
    exact ⟨_, ⟨path, staged, found, if_pos both⟩, rfl⟩

theorem run_syncSession (starts : ResolveStarts services stores session atBase) (userId : Text) :
    let finished := (syncSession services session.id userId).run (executeAlone services) stores
    ∃ synced conflicts, finished.outcome = .ok (synced, conflicts) ∧
      HoldsDraft stores session synced finished.state ∧
      synced.overlay = session.overlay ∧
      ∀ path, path ∈ conflicts.map SessionConflict.path ↔
        Reported session atBase stores.files path := by
  obtain ⟨read, same, _⟩ := run_requireSession services session.id starts.stored
  obtain ⟨baseCommit, base, foundCommit, foundBase, ofBase⟩ := starts.based
  have isBase : baseOf stores session = some base := by
    rw [baseOf, foundCommit, Option.bind_some, foundBase]
  obtain ⟨readBase, sameBase⟩ := run_baseSnapshot services stores session
  rw [isBase] at readBase
  obtain ⟨only, commit, snapshot, committed, stored, ofLive, atHead⟩ :=
    run_autoSnapshot starts userId
  unfold syncSession
  dsimp only
  rw [run_bind_ok read, same]
  simp only [starts.opened, ne_eq, not_true_eq_false, if_false]
  rw [run_bind_ok readBase, sameBase]
  dsimp only
  rw [run_bind_ok committed]
  by_cases isHead : commit.id = session.base
  · simp only [isHead, if_true]
    refine ⟨session, [], rfl, ⟨only.session.trans starts.stored, rfl,
      starts.opened, only.files, only.clock⟩, rfl, ?_⟩
    intro path
    constructor
    · intro impossible
      cases impossible
    · rintro ⟨staged, _, moved, _⟩
      exact absurd (atHead isHead path) moved
  · simp only [if_neg isHead]
    have asked : ((ask (.readSnapshot commit.snapshot)).run (executeAlone services)
        ((commitTree services (autoSnapshot userId)).run
          (executeAlone services) stores).state).outcome =
        .ok (some snapshot) :=
      congrArg Except.ok stored
    rw [run_bind_ok asked]
    refine ⟨_, _, rfl, ⟨rfl, rfl, rfl, only.files, only.clock⟩, rfl, ?_⟩
    intro path
    rw [mem_conflictsOf_iff, ofBase path, ofLive path]
    exact Iff.rfl

theorem foldl_discardPath (paths : List Text) (overlay : Overlay) (dropped : List Text)
    (filePaths : ∀ path ∈ paths, isFilePath path = true) :
    let kept := paths.foldl discardPath (overlay, dropped)
    (∀ path, kept.1.get path = if path ∈ paths then none else overlay.get path) ∧
    (dropped ≠ [] ∨ (∃ first rest, paths = first :: rest ∧
        overlay.has first = true) → kept.2 ≠ []) := by
  induction paths generalizing overlay dropped with
  | nil =>
    refine ⟨fun path => rfl, ?_⟩
    rintro (some_dropped | ⟨first, rest, impossible, _⟩)
    · exact some_dropped
    · cases impossible
  | cons raw rest ih =>
    have normal := normal_of_isFilePath (filePaths raw List.mem_cons_self)
    have later : ∀ path ∈ rest, isFilePath path = true :=
      fun path member => filePaths path (List.mem_cons_of_mem raw member)
    rw [List.foldl_cons]
    by_cases present : overlay.has raw = true
    · have first : discardPath (overlay, dropped) raw =
          (overlay.delete raw, dropped ++ [raw]) := by
        simp only [discardPath, normal, present, if_true]
      rw [first]
      obtain ⟨kept, some_dropped⟩ := ih (overlay.delete raw) (dropped ++ [raw]) later
      refine ⟨?_, fun _ => some_dropped (Or.inl (by simp))⟩
      intro path
      rw [kept path, PlainObject.get_delete]
      by_cases inRest : path ∈ rest
      · rw [if_pos inRest, if_pos (List.mem_cons_of_mem raw inRest)]
      · rw [if_neg inRest]
        by_cases own : path = raw
        · rw [if_pos own, if_pos (own ▸ List.mem_cons_self)]
        · rw [if_neg own, if_neg fun member => (List.mem_cons.mp member).elim own inRest]
    · have first : discardPath (overlay, dropped) raw = (overlay, dropped) := by
        simp only [discardPath, normal, present, Bool.false_eq_true, if_false]
      have absent : overlay.get raw = none := by
        rw [PlainObject.has, Bool.or_eq_true, not_or, Option.isSome_iff_ne_none,
          not_not] at present
        exact present.1
      rw [first]
      obtain ⟨kept, some_dropped⟩ := ih overlay dropped later
      refine ⟨?_, ?_⟩
      · intro path
        rw [kept path]
        by_cases inRest : path ∈ rest
        · rw [if_pos inRest, if_pos (List.mem_cons_of_mem raw inRest)]
        · rw [if_neg inRest]
          by_cases own : path = raw
          · rw [own, if_pos List.mem_cons_self, absent]
          · rw [if_neg fun member => (List.mem_cons.mp member).elim own inRest]
      · rintro (before | ⟨head, tail, split, has⟩)
        · exact some_dropped (Or.inl before)
        · cases split
          exact absurd has present

def keptChanges (session : ChatSessionRecord) (strategy : MergeStrategy)
    (resolved : List Text) (path : Text) : Option (Option Text) :=
  if strategy = .keepWorkspace ∧ path ∈ resolved then none else session.overlay.get path

theorem run_dropResolved (services : SessionServices) {draft : ChatSessionRecord}
    {after : SessionStores} (holds : HoldsDraft stores session draft after)
    (same : draft.overlay = session.overlay) (filePaths : StagesFilePaths session)
    (strategy : MergeStrategy) (resolved : List Text)
    (staged : ∀ path ∈ resolved, ∃ value, session.overlay.get path = some value) :
    let finished := (dropResolved session.id strategy resolved).run (executeAlone services) after
    finished.outcome = .ok () ∧
    ∃ kept, HoldsDraft stores session kept finished.state ∧ ∀ path, kept.overlay.get path =
        keptChanges session strategy resolved path := by
  unfold dropResolved
  by_cases drops : strategy = .keepWorkspace ∧ resolved ≠ []
  · obtain ⟨read, sameState, _⟩ := run_requireSession services session.id holds.stored
    have names : ∀ path ∈ resolved, isFilePath path = true := by
      intro path member
      obtain ⟨value, found⟩ := staged path member
      exact filePaths (path, value) (PlainObject.mem_entries.mpr found)
    obtain ⟨kept, some_dropped⟩ := foldl_discardPath resolved draft.overlay [] names
    have dropped : (resolved.foldl discardPath (draft.overlay, [])).2 ≠ [] := by
      apply some_dropped
      obtain ⟨first, rest, split⟩ := List.exists_cons_of_ne_nil drops.2
      obtain ⟨value, found⟩ := staged first (split ▸ List.mem_cons_self)
      exact Or.inr ⟨first, rest, split, PlainObject.has_of_get (same ▸ found)⟩
    have discarded :
        let finished := (discardChanges session.id resolved).run (executeAlone services) after
        (∃ paths, finished.outcome = .ok paths) ∧
          finished.state = { after with
            session := some { draft with
              overlay := (resolved.foldl discardPath (draft.overlay, [])).1
              updatedAt := after.clock } } := by
      unfold discardChanges
      dsimp only
      rw [run_bind_ok read, sameState]
      simp only [holds.opened, ne_eq, not_true_eq_false, if_false, if_neg dropped]
      exact ⟨⟨_, rfl⟩, rfl⟩
    obtain ⟨⟨paths, returned⟩, state⟩ := discarded
    rw [if_pos drops]
    dsimp only
    rw [run_bind_ok returned, state]
    refine ⟨rfl, _, ⟨rfl, holds.named, holds.opened, holds.files, holds.clock⟩, ?_⟩
    intro path
    show (resolved.foldl discardPath (draft.overlay, [])).1.get path = _
    rw [kept path, keptChanges, same]
    by_cases member : path ∈ resolved
    · rw [if_pos member, if_pos ⟨drops.1, member⟩]
    · rw [if_neg member, if_neg fun both => member both.2]
  · rw [if_neg drops]
    refine ⟨rfl, draft, holds, ?_⟩
    intro path
    rw [keptChanges, same, if_neg]
    rintro ⟨workspace, member⟩
    exact drops ⟨workspace, List.ne_nil_of_mem member⟩

theorem fileHash_congr {path : Text} {first second : Store}
    (same : Store.SameAt path first second) :
    fileHash first path = fileHash second path := by
  rw [fileHash, fileHash, same.latest]

section

variable (filePaths : StagesFilePaths session)

include filePaths

theorem fileHash_merged_of_none {path : Text} (unstaged : session.overlay.get path = none) :
    fileHash (mergedFiles services stores session) path = fileHash stores.files path := by
  apply fileHash_congr
  apply sameAt_applied_of_ne
  intro entry member normal
  rw [normal_of_isFilePath (filePaths entry member)] at normal
  cases normal
  rw [PlainObject.mem_entries.mp member] at unstaged
  cases unstaged

theorem fileHash_merged_of_removed {path : Text} (found : session.overlay.get path = some none) :
    fileHash (mergedFiles services stores session) path = none := by
  have member := PlainObject.mem_entries.mpr found
  have normal := normal_of_isFilePath (filePaths (path, none) member)
  have same := fileHash_congr (sameAt_merged services stores filePaths member)
  refine same.trans ?_
  unfold fileHash entryApplied
  simp only [normal, Store.latest_remove_self, Option.map_none]

theorem fileHash_merged_of_staged {path hash : Text} {shadow : FsRow}
    (found : session.overlay.get path = some (some hash))
    (read : stores.files.read (shadowPath session.id path) (some hash) = some shadow) :
    fileHash (mergedFiles services stores session) path =
      fileHash (stores.files.write services.sha256 stores.clock path
        shadow.content shadow.mimeType none) path := by
  have member := PlainObject.mem_entries.mpr found
  have normal := normal_of_isFilePath (filePaths (path, some hash) member)
  have same := fileHash_congr (sameAt_merged services stores filePaths member)
  refine same.trans ?_
  unfold entryApplied
  simp only [normal, read]

theorem stagesFilePaths_of_kept {kept : ChatSessionRecord}
    {strategy : MergeStrategy} {resolved : List Text}
    (changes : ∀ path, kept.overlay.get path = keptChanges session strategy resolved path) :
    StagesFilePaths kept := by
  intro entry member
  have found := PlainObject.mem_entries.mp member
  rw [changes entry.1] at found
  unfold keptChanges at found
  split at found
  · cases found
  · exact filePaths entry (PlainObject.mem_entries.mpr found)

end

/-- A resolved merge syncs, drops what the workspace wins and merges the
rest. -/
theorem run_resolveSessionMerge (starts : ResolveStarts services stores session atBase)
    (strategy : MergeStrategy) (userId : Text) (message : Option Text) :
    let finished := (resolveSessionMerge services session.id userId
      ⟨strategy, true, message⟩).run (executeAlone services) stores
    ∃ resolved kept after, HoldsDraft stores session kept after ∧ (∀ path, path ∈ resolved ↔
        Reported session atBase stores.files path) ∧
      (∀ path, kept.overlay.get path = keptChanges session strategy resolved path) ∧
      if kept.overlay.entries.all (hasContent after kept) then
        ∃ merge, finished.outcome = .ok merge ∧ merge.resolved = resolved ∧
          finished.state.files = mergedFiles services after kept
      else
        ∃ thrown, finished.outcome = .error thrown := by
  obtain ⟨synced, conflicts, returned, holds, same, reports⟩ :=
    run_syncSession starts userId
  have members : ∀ path, path ∈ sortTexts (conflicts.map SessionConflict.path) ↔
        Reported session atBase stores.files path := by
    intro path
    rw [mem_sortTexts, reports path]
  obtain ⟨dropped, kept, holdsKept, changes⟩ := run_dropResolved
    services holds same starts.filePaths strategy
    (sortTexts (conflicts.map SessionConflict.path))
    (by
      intro path member
      obtain ⟨value, found, _⟩ := (members path).mp member
      exact ⟨value, found⟩)
  refine ⟨sortTexts (conflicts.map SessionConflict.path), kept, _, holdsKept, members, changes, ?_⟩
  obtain ⟨read, sameState, _⟩ := run_requireSession services session.id holdsKept.stored
  have merged := run_mergeDraft services session.id userId
    (some (resolveMessage kept ⟨strategy, true, message⟩)) holdsKept.stored
    holdsKept.opened (stagesFilePaths_of_kept starts.filePaths changes)
  unfold resolveSessionMerge
  dsimp only
  rw [run_bind_ok returned]
  dsimp only
  rw [run_bind_ok dropped]
  simp only [Bool.true_eq_false, if_false]
  rw [run_bind_ok read, sameState]
  dsimp only at merged ⊢
  split at merged
  · rename_i complete
    obtain ⟨closed, ok, files⟩ := merged
    rw [if_pos complete, run_bind_ok ok]
    exact ⟨_, rfl, rfl, files⟩
  · rename_i missing
    obtain ⟨⟨thrown, failed⟩, _⟩ := merged
    rw [if_neg missing, run_bind_error failed]
    exact ⟨thrown, rfl⟩

end

section

variable {services : SessionServices} {stores : SessionStores}
  {session : ChatSessionRecord} {atBase : Store} {strategy : MergeStrategy}
  {path : Text}

theorem isServicePath_of_staged (filePaths : StagesFilePaths session)
    {staged : Option Text} (found : session.overlay.get path = some staged) :
    isServicePath path = false := by
  have named := filePaths (path, staged) (PlainObject.mem_entries.mpr found)
  rw [isFilePath, Bool.and_eq_true, Bool.not_eq_true'] at named
  exact named.2

/-- Outside the hidden partitions a snapshot has what is there. -/
theorem visibleHash_of_visible (files : Store) (service : isServicePath path = false)
    (visible : isHiddenDataPath path = false) :
    visibleHash files path = fileHash files path := by
  rw [visibleHash, service, visible, if_neg (by decide)]
  rfl

theorem visible_of_moved {first second : Store}
    (moved : visibleHash first path ≠ visibleHash second path) :
    isHiddenDataPath path = false := by
  rw [Bool.eq_false_iff]
  intro hidden
  apply moved
  rw [visibleHash, visibleHash, hidden, Bool.or_true, if_pos rfl, if_pos rfl]

theorem reported_iff_movedAway (filePaths : StagesFilePaths session) :
    (∀ path, Reported session atBase stores.files path ↔
      MovedAway session atBase stores.files path) ↔
      (∀ path, isHiddenDataPath path = true → ¬ MovedAway session atBase stores.files path) ∧
      (∀ path, session.overlay.get path = some none → visibleHash atBase path ≠ none →
          visibleHash stores.files path ≠ none) := by
  constructor
  · intro same
    constructor
    · intro path hidden moved
      obtain ⟨staged, _, visiblyMoved, _⟩ := (same path).mpr moved
      rw [visible_of_moved visiblyMoved] at hidden
      cases hidden
    · intro path tombstone inBase gone
      have moved : visibleHash atBase path ≠ visibleHash stores.files path := by
        rw [gone]
        exact inBase
      have reported : Reported session atBase stores.files path := ⟨none, tombstone, moved, rfl⟩
      obtain ⟨staged, found, _, other⟩ := (same path).mp reported
      rw [tombstone] at found
      cases found
      rw [visibleHash_of_visible _ (isServicePath_of_staged filePaths tombstone)
        (visible_of_moved moved)] at gone
      exact other gone
  · rintro ⟨hidden, deleted⟩ path
    constructor
    · rintro ⟨staged, found, moved, differs⟩
      have service := isServicePath_of_staged filePaths found
      have visible := visible_of_moved moved
      have base := visibleHash_of_visible atBase service visible
      have live := visibleHash_of_visible stores.files service visible
      refine ⟨staged, found, ?_, ?_⟩
      · rw [← base, ← live]
        exact moved
      · intro same
        rw [live, same] at differs
        cases staged with
        | none =>
          rw [live, same] at moved
          exact deleted path found moved (live.trans same)
        | some hash => simp [stagedDiffers] at differs
    · intro movedAway
      obtain ⟨staged, found, moved, other⟩ := movedAway
      have service := isServicePath_of_staged filePaths found
      have visible : isHiddenDataPath path = false := by
        rw [Bool.eq_false_iff]
        intro isHidden
        exact hidden path isHidden ⟨staged, found, moved, other⟩
      have base := visibleHash_of_visible atBase service visible
      have live := visibleHash_of_visible stores.files service visible
      refine ⟨staged, found, ?_, ?_⟩
      · rw [base, live]
        exact moved
      · rw [live]
        cases staged with
        | none => rfl
        | some hash =>
          cases now : fileHash stores.files path with
          | none => rfl
          | some current =>
            rw [now] at other
            have different : hash ≠ current := fun same => other (congrArg some same.symm)
            exact decide_eq_true different

theorem kept_staged_iff {resolved : List Text} {hash : Text}
    (found : session.overlay.get path = some (some hash)) :
    keptChanges session strategy resolved path = some (some hash) ↔
      (strategy = .keepDraft ∨ path ∉ resolved) := by
  unfold keptChanges
  by_cases drops : strategy = .keepWorkspace ∧ path ∈ resolved
  · rw [if_pos drops]
    constructor
    · intro impossible
      cases impossible
    · rintro (draft | unresolved)
      · rw [drops.1] at draft
        cases draft
      · exact absurd drops.2 unresolved
  · rw [if_neg drops]
    constructor
    · intro _
      cases strategy with
      | keepDraft => exact Or.inl rfl
      | keepWorkspace => exact Or.inr fun member => drops ⟨rfl, member⟩
    · intro _
      exact found

theorem announced_keepWorkspace (session : ChatSessionRecord) (atBase main : Store) (path : Text) :
    announcedChanges session atBase main .keepWorkspace path =
      if fileHash atBase path = fileHash main path then session.overlay.get path
      else
        none :=
  rfl

/-- Under a staged path the announced merge has the staged value, unless main
moved away and the workspace wins. -/
theorem override_announced {staged : Option Text}
    (found : session.overlay.get path = some staged) :
    (announcedChanges session atBase stores.files strategy).override (fileHash stores.files) path =
      if strategy = .keepWorkspace ∧ fileHash atBase path ≠ fileHash stores.files path then
        fileHash stores.files path
      else
        staged := by
  cases strategy with
  | keepDraft =>
    rw [if_neg fun both => nomatch both.1]
    exact override_of_some found
  | keepWorkspace =>
    by_cases moved : fileHash atBase path = fileHash stores.files path
    · rw [if_neg fun both => both.2 moved]
      apply override_of_some
      rw [announced_keepWorkspace, if_pos moved, found]
    · rw [if_pos ⟨rfl, moved⟩]
      apply override_of_none
      rw [announced_keepWorkspace, if_neg moved]

theorem override_announced_of_none (unstaged : session.overlay.get path = none) :
    (announcedChanges session atBase stores.files strategy).override
        (fileHash stores.files) path = fileHash stores.files path := by
  apply override_of_none
  cases strategy with
  | keepDraft => exact unstaged
  | keepWorkspace => rw [announced_keepWorkspace, unstaged, ite_self]

theorem hasContent_staged {hash : Text} (named : isFilePath path = true) :
    hasContent stores session (path, some hash) = (stores.files.read (shadowPath session.id path)
        (some hash)).isSome := by
  unfold hasContent
  simp only [normal_of_isFilePath named]

/-- What is kept of a draft, its conflicts dropped where main moved away and
the workspace wins, makes the announced tree. -/
theorem fileHash_merged {kept : ChatSessionRecord} {after : SessionStores} {resolved : List Text}
    (holds : HoldsDraft stores session kept after) (keptPaths : StagesFilePaths kept)
    (changes : ∀ path, kept.overlay.get path = keptChanges session strategy resolved path)
    (conflicts : ∀ path, path ∈ resolved ↔ MovedAway session atBase stores.files path)
    (writes : ∀ path hash, kept.overlay.get path = some (some hash) →
      WritesStaged services stores session path hash) (path : Text) :
    fileHash (mergedFiles services after kept) path =
      (announcedChanges session atBase stores.files strategy).override
        (fileHash stores.files) path := by
  cases found : session.overlay.get path with
  | none =>
    have unstaged : kept.overlay.get path = none := by
      rw [changes path, keptChanges, found, ite_self]
    rw [fileHash_merged_of_none keptPaths unstaged, holds.files,
      override_announced_of_none found]
  | some staged =>
    rw [override_announced found]
    by_cases drops : strategy = .keepWorkspace ∧ path ∈ resolved
    · have unstaged : kept.overlay.get path = none := by
        rw [changes path, keptChanges, if_pos drops]
      obtain ⟨_, _, moved, _⟩ := (conflicts path).mp drops.2
      rw [fileHash_merged_of_none keptPaths unstaged, holds.files, if_pos ⟨drops.1, moved⟩]
    · have keptHere : kept.overlay.get path = some staged := by
        rw [changes path, keptChanges, if_neg drops, found]
      have merged : fileHash (mergedFiles services after kept) path = staged := by
        cases staged with
        | none => exact fileHash_merged_of_removed keptPaths keptHere
        | some hash =>
          obtain ⟨shadow, read, written⟩ := writes path hash keptHere
          rw [← holds.files, ← holds.named] at read
          rw [fileHash_merged_of_staged keptPaths keptHere read, holds.files, holds.clock]
          exact written
      rw [merged]
      by_cases workspace : strategy = .keepWorkspace ∧
          fileHash atBase path ≠ fileHash stores.files path
      · have stays : ¬ MovedAway session atBase stores.files path :=
          fun movedAway => drops ⟨workspace.1, (conflicts path).mpr movedAway⟩
        rw [if_pos workspace]
        by_contra other
        exact stays ⟨staged, found, workspace.2, Ne.symm other⟩
      · rw [if_neg workspace]

end

def spellingServices : SessionServices where
  sha256 := fun content => 'h' :: content
  collate := fun first second => first ≤ second
  snapshotId := fun entries _ => 't' :: entries.flatMap fun entry =>
    entry.hash ++ ' ' :: entry.path ++ ['\n']
  commitId := fun body _ => 'c' :: body.snapshot

def draftOver (overlay : Overlay) : ChatSessionRecord :=
  { freshSession with base := "ct".toList, overlay := overlay }

def draftStores (overlay : Overlay) (files : Store) : SessionStores := { freshStores with
    session := some (draftOver overlay)
    files := files
    history := ⟨[⟨"t".toList, [], []⟩],
      [{ emptyBase with snapshot := "t".toList, id := "ct".toList }], []⟩ }

def fileWith (files : Store) (path content : Text) : Store :=
  files.write spellingServices.sha256 0 path content "text/plain".toList none

theorem draft_starts {overlay : Overlay} {files : Store}
    (filePaths : StagesFilePaths (draftOver overlay)) (untied : files.Untied)
    (nonempty : (snapshotTree spellingServices (visibleFiles files)).id ≠ "t".toList) :
    ResolveStarts spellingServices (draftStores overlay files)
      (draftOver overlay) freshStores.files where
  stored := rfl
  opened := rfl
  filePaths := filePaths
  untied := untied
  based := by
    refine ⟨_, _, rfl, rfl, ?_⟩
    intro path
    unfold visibleHash
    split <;> rfl
  kept := by
    intro commit member
    cases List.mem_singleton.mp member
    exact ⟨_, rfl⟩
  trees := by
    intro snapshot member same
    cases List.mem_singleton.mp member
    exact absurd same.symm nonempty
  commits := by
    intro body same commit found
    have first : 'c' :: body.snapshot = 'c' :: "t".toList := same
    cases found
    exact (List.cons.inj first).2

/-- The draft has a new file and another version of a file that a member
wrote since. -/
def conflictOverlay : Overlay :=
  (PlainObject.empty.set "a".toList (some "hx".toList)).set "b".toList (some "hy".toList)

def conflictFiles : Store :=
  fileWith (fileWith (fileWith freshStores.files (shadowPath "s".toList "a".toList) "x".toList)
    (shadowPath "s".toList "b".toList) "y".toList) "b".toList "z".toList

def personalPath : Text := ".users/ann/n".toList

def personalOverlay : Overlay :=
  PlainObject.empty.set personalPath (some "hy".toList)

def personalFiles : Store :=
  fileWith (fileWith (fileWith freshStores.files (shadowPath "s".toList personalPath) "y".toList)
    personalPath "z".toList) "b".toList "w".toList

end Aprovan.Vcs
