import Aprovan.Vcs.SessionMerge

/-!
# Failed closes of a session

`closeSession` writes the overlay to the live tree path by path and reads
the staged content of a path only when its turn comes.  Where content is
missing the call throws: the record is as it was, and the paths before it
have been written.
-/

namespace Aprovan.Vcs

open Aprovan.Library Aprovan.Fs

section

variable (services : SessionServices) (stores : SessionStores)

/-- Every live file is the row that it was, with its time. -/
structure Unchanged (before after : SessionStores) : Prop where
  session : after.session = before.session
  tree : ∀ path, after.files.latest path = before.files.latest path

def FailedCloseKeepsAll (id userId : Text) (message : Option Text) : Prop :=
  let closed := (closeSession services id userId ⟨true, message⟩).run
    (executeAlone services) stores
  ∀ thrown, closed.outcome = .error thrown → Unchanged stores closed.state

/-- A tombstone where no file is, or staged content whose write leaves the
newest row what it was. -/
def KeepsLiveRow (session : ChatSessionRecord) (entry : Text × Option Text) : Prop :=
  match entry.2 with
  | none => entry.1 ∉ stores.files.paths
  | some staged =>
    ∀ shadow, stores.files.read (shadowPath session.id entry.1) (some staged) = some shadow →
      (stores.files.write services.sha256 stores.clock entry.1
          shadow.content shadow.mimeType none).latest entry.1 =
        stores.files.latest entry.1

/-- If some staged content is missing, the entries before it change
nothing. -/
def CloseCondition : Prop :=
  ∀ session, stores.session = some session → session.status = .opened →
    (∃ entry ∈ session.overlay.entries, hasContent stores session entry = false) →
      ∀ entry ∈ session.overlay.entries.takeWhile (hasContent stores session),
        KeepsLiveRow services stores session entry

end

variable {path : Text}

section

variable {services : SessionServices} {stores : SessionStores}
  {session : ChatSessionRecord} {entries : List (Text × Option Text)}

theorem sameAt_entryApplied_of_ne {id path : Text} {files : Store} {entry : Text × Option Text}
    (other : normalizeFsPath entry.1 ≠ some path) :
    Store.SameAt path (entryApplied services now id files entry) files := by
  unfold entryApplied
  split
  · exact Store.SameAt.refl path files
  · rename_i normalized normal
    have different : path ≠ normalized := by
      intro same
      rw [same] at other
      exact other normal
    split
    · exact Store.SameAt.remove_of_ne files different
    · split
      · exact Store.SameAt.refl path files
      · exact Store.SameAt.write_of_ne files different

variable {entry : Text × Option Text}

/-- What an entry leaves under a path depends on the rows of the path and on
its staged content. -/
theorem sameAt_entryApplied {id : Text} {first second : Store}
    (same : Store.SameAt path first second)
    (shadows : ∀ other, Store.SameAt (shadowPath id other) first second) :
    Store.SameAt path (entryApplied services now id first entry)
      (entryApplied services now id second entry) := by
  unfold entryApplied
  split
  · exact same
  · rename_i normalized normal
    split
    · exact same.remove
    · rename_i staged stagedHash
      rw [(shadows normalized).read]
      split
      · exact same
      · exact same.write

theorem sameAt_applied_of_ne {id : Text} {files : Store}
    (others : ∀ entry ∈ entries, normalizeFsPath entry.1 ≠ some path) :
    Store.SameAt path (entries.foldl (entryApplied services now id) files)
      files := by
  induction entries generalizing files with
  | nil => exact Store.SameAt.refl path files
  | cons entry rest ih =>
    rw [List.foldl_cons]
    apply Store.SameAt.trans (ih fun other member =>
      others other (List.mem_cons_of_mem entry member))
    exact sameAt_entryApplied_of_ne (others entry List.mem_cons_self)

theorem normal_ne_shadowPath (outside : KeepsOutOfServices entries)
    (id path : Text) (member : entry ∈ entries) :
    normalizeFsPath entry.1 ≠ some (shadowPath id path) := by
  intro normal
  have live := outside entry member (shadowPath id path) normal
  rw [isServicePath_shadowPath] at live
  cases live

theorem sameAt_applied {id : Text} {files : Store}
    (filePaths : ∀ entry ∈ entries, isFilePath entry.1 = true)
    (keys : (entries.map Prod.fst).Nodup) (member : entry ∈ entries) :
    Store.SameAt entry.1 (entries.foldl (entryApplied services now id) files)
      (entryApplied services now id files entry) := by
  have outside := keepsOutOfServices_of_stages filePaths
  induction entries generalizing files with
  | nil => cases member
  | cons head rest ih =>
    rw [List.map_cons, List.nodup_cons] at keys
    have restPaths : ∀ later ∈ rest, isFilePath later.1 = true :=
      fun later inside => filePaths later (List.mem_cons_of_mem head inside)
    have apart : ∀ later ∈ rest, later.1 ≠ head.1 := by
      intro later inside same
      rw [← same] at keys
      exact keys.1 (List.mem_map_of_mem inside)
    rw [List.foldl_cons]
    rcases List.mem_cons.mp member with rfl | later
    · apply sameAt_applied_of_ne
      intro other inside
      rw [normal_of_isFilePath (restPaths other inside)]
      intro same
      exact apart other inside (Option.some.inj same)
    · apply (@ih (entryApplied services now id files head) restPaths keys.2 later
        (keepsOutOfServices_of_stages restPaths)).trans
      have headNormal := normal_of_isFilePath (filePaths head List.mem_cons_self)
      apply sameAt_entryApplied
      · apply sameAt_entryApplied_of_ne
        rw [headNormal]
        intro same
        exact apart entry later (Option.some.inj same).symm
      · intro other
        exact sameAt_entryApplied_of_ne (normal_ne_shadowPath outside id other List.mem_cons_self)

end

section

variable {services : SessionServices} {stores : SessionStores}
  {session : ChatSessionRecord}

theorem succeeds_ask (statement : SessionStatement) : Succeeds (ask statement) :=
  succeeds_perform statement

theorem succeeds_readCommit (id : Text) : Succeeds (readCommit id) := by
  unfold readCommit
  by_cases empty : id = []
  · rw [if_pos empty]
    exact succeeds_pure none
  · rw [if_neg empty]
    exact succeeds_ask _

theorem succeeds_snapshotOf (commit : Option VcsCommit) : Succeeds (snapshotOf commit) := by
  cases commit with
  | none => exact succeeds_pure none
  | some commit => exact succeeds_ask _

theorem succeeds_createCommitOf (snapshot : VcsSnapshot) (parents : List Text)
    (options : CommitOptions) :
    Succeeds (createCommitOf services snapshot parents options) := by
  apply succeeds_bind (succeeds_readCommit _)
  intro parentCommit
  apply succeeds_bind (succeeds_snapshotOf parentCommit)
  intro parentSnapshot
  apply succeeds_bind (succeeds_ask _)
  intro createdAt
  apply succeeds_bind (succeeds_ask _)
  intro written
  exact succeeds_pure _

theorem succeeds_advanceRef (options : CommitOptions)
    (snapshot : VcsSnapshot) (parents : List Text) :
    Succeeds (commitTree.advanceRef services options snapshot parents) := by
  apply succeeds_bind (succeeds_ask _)
  intro kept
  apply succeeds_bind (succeeds_createCommitOf snapshot parents options)
  intro commit
  apply succeeds_bind (succeeds_ask _)
  intro written
  exact succeeds_pure commit

theorem succeeds_commitTree (services : SessionServices) (options : CommitOptions) :
    Succeeds (commitTree services options) := by
  apply succeeds_bind
  · apply succeeds_bind (succeeds_ask _)
    intro entries
    exact succeeds_pure _
  intro entries
  apply succeeds_bind (succeeds_ask _)
  intro ref
  apply succeeds_bind
  · cases ref with
    | none => exact succeeds_pure none
    | some ref => exact succeeds_readCommit ref.commit
  intro head
  cases chosen : options.parents with
  | some parents => cases head <;> exact succeeds_advanceRef options _ parents
  | none =>
    cases head with
    | none => exact succeeds_advanceRef options _ []
    | some commit =>
      by_cases same : commit.snapshot = (snapshotTree services entries).id
      · simp only [same]
        exact succeeds_pure commit
      · simp only [same]
        exact succeeds_advanceRef options _ [commit.id]

theorem succeeds_mergeParents (services : SessionServices) (session : ChatSessionRecord)
    (userId : Text) : Succeeds (mergeParents services session userId) := by
  apply succeeds_bind (succeeds_ask _)
  intro mainBefore
  by_cases empty : session.overlay.rows = []
  · rw [if_pos empty]
    exact succeeds_pure none
  · rw [if_neg empty]
    apply succeeds_bind (succeeds_commitTree services _)
    intro sessionCommit
    cases mainBefore with
    | none => exact succeeds_pure _
    | some main => exact succeeds_pure _

theorem answered_executeAlone (services : SessionServices)
    (statement : SessionStatement) (stores : SessionStores) :
    ∃ answer, (executeAlone services statement stores).1 = .ok answer :=
  ⟨_, rfl⟩

theorem succeeds_recordMerge (services : SessionServices)
    (session : ChatSessionRecord) (userId : Text) (message : Option Text) :
    Succeeds (recordMerge services session userId message) := by
  apply succeeds_bind (succeeds_mergeParents services session userId)
  intro parents
  apply succeeds_bind (succeeds_commitTree services _)
  intro commit
  apply succeeds_bind (succeeds_ask _)
  intro updatedAt
  apply succeeds_bind (succeeds_ask _)
  intro saved
  exact succeeds_pure _

theorem run_closeSession (services : SessionServices) (id userId : Text) (message : Option Text)
    (stored : stores.session = some session) (opened : session.status = .opened) :
    let closed := (closeSession services id userId ⟨true, message⟩).run
      (executeAlone services) stores
    let merged := (session.overlay.entries.forM (applyStaged session) >>=
      fun _ => recordMerge services session userId message).run (executeAlone services) stores
    closed.outcome = merged.outcome ∧ closed.state = merged.state ∧
      closed.asked = .readSession :: merged.asked := by
  obtain ⟨read, same, asked⟩ := run_requireSession services id stored
  unfold closeSession
  rw [run_bind_ok read, same, asked]
  simp only [opened, ne_eq, not_true_eq_false, if_false, Bool.true_eq_false]
  exact ⟨rfl, rfl, rfl⟩

end

section

variable {services : SessionServices} {stores : SessionStores}
  {session : ChatSessionRecord}

theorem keeps_of_leavesFiles {files : Store} (statement : SessionStatement)
    (state : SessionStores) (leaves : leavesFiles statement) (same : state.files = files) :
    (executeAlone services statement state).2.files = files := by
  cases statement <;> first
    | exact same
    | cases leaves

/-- How a merge of an open session ends, and what it leaves. -/
theorem run_mergeDraft (services : SessionServices) (id userId : Text) (message : Option Text)
    (stored : stores.session = some session) (opened : session.status = .opened)
    (filePaths : StagesFilePaths session) :
    let closed := (closeSession services id userId ⟨true, message⟩).run
      (executeAlone services) stores
    if session.overlay.entries.all (hasContent stores session) then
      ∃ merged, closed.outcome = .ok merged ∧
        closed.state.files = session.overlay.entries.foldl
          (entryApplied services stores.clock session.id) stores.files
    else
      (∃ thrown, closed.outcome = .error thrown) ∧ closed.state = { stores with
        files := (session.overlay.entries.takeWhile (hasContent stores session)).foldl
          (entryApplied services stores.clock session.id) stores.files } := by
  obtain ⟨outcome, state, _⟩ := run_closeSession services id userId message stored opened
  obtain ⟨left, _, ended⟩ := run_applyLoop services stores session
    (keepsOutOfServices_of_stages filePaths)
  dsimp only
  rw [outcome, state]
  by_cases complete : session.overlay.entries.all (hasContent stores session) = true
  · rw [if_pos complete] at ended ⊢
    have all : session.overlay.entries.takeWhile
        (hasContent stores session) = session.overlay.entries :=
      List.takeWhile_eq_self_iff.mpr (List.all_eq_true.mp complete)
    obtain ⟨merged, returned⟩ := run_of_succeeds
      (succeeds_recordMerge services session userId message) (answered_executeAlone services)
      ((session.overlay.entries.forM (applyStaged session)).run
        (executeAlone services) stores).state
    let applied (state : SessionStores) : Prop := state.files =
      ((session.overlay.entries.forM (applyStaged session)).run
        (executeAlone services) stores).state.files
    have start : applied ((session.overlay.entries.forM
        (applyStaged session)).run (executeAlone services) stores).state :=
      rfl
    have files : applied ((recordMerge services session userId message).run
        (executeAlone services) ((session.overlay.entries.forM
          (applyStaged session)).run (executeAlone services) stores).state).state :=
      kept_of_asks keeps_of_leavesFiles
        (leavesFiles_recordMerge services session userId message) start
    rw [run_bind_ok ended]
    refine ⟨merged, returned, files.trans ?_⟩
    rw [left, all]
  · rw [if_neg complete] at ended ⊢
    obtain ⟨thrown, failed⟩ := ended
    rw [run_bind_error failed]
    exact ⟨⟨thrown, rfl⟩, left⟩

/-- How a merge of an open session ends, and what a failed one leaves. -/
theorem failed_iff_missing (services : SessionServices) (id userId : Text)
    (message : Option Text) (stored : stores.session = some session)
    (opened : session.status = .opened) (filePaths : StagesFilePaths session) :
    let closed := (closeSession services id userId ⟨true, message⟩).run
      (executeAlone services) stores
    ((∃ thrown, closed.outcome = .error thrown) ↔ ∃ entry ∈ session.overlay.entries,
        hasContent stores session entry = false) ∧
    (∀ thrown, closed.outcome = .error thrown →
      closed.state = { stores with
        files := (session.overlay.entries.takeWhile (hasContent stores session)).foldl
          (entryApplied services stores.clock session.id)
          stores.files }) := by
  have ended := run_mergeDraft services id userId message stored opened filePaths
  dsimp only at ended ⊢
  by_cases complete : session.overlay.entries.all (hasContent stores session) = true
  · rw [if_pos complete] at ended
    obtain ⟨merged, returned, _⟩ := ended
    rw [returned]
    refine ⟨⟨?_, ?_⟩, ?_⟩
    · rintro ⟨thrown, impossible⟩
      cases impossible
    · rintro ⟨entry, member, missing⟩
      rw [List.all_eq_true.mp complete entry member] at missing
      cases missing
    · intro thrown impossible
      cases impossible
  · rw [if_neg complete] at ended
    obtain ⟨throws, left⟩ := ended
    refine ⟨⟨?_, ?_⟩, ?_⟩
    · intro _
      rw [Bool.not_eq_true, List.all_eq_false] at complete
      obtain ⟨entry, member, missing⟩ := complete
      exact ⟨entry, member, Bool.eq_false_iff.mpr missing⟩
    · intro _
      exact throws
    · intro _ _
      exact left

/-- What one entry of the overlay leaves under its path. -/
theorem keepsLiveRow_iff {entry : Text × Option Text} (named : isFilePath entry.1 = true)
    (readable : hasContent stores session entry = true) :
    KeepsLiveRow services stores session entry ↔
      (entryApplied services stores.clock session.id stores.files entry).latest entry.1 =
        stores.files.latest entry.1 := by
  obtain ⟨path, staged⟩ := entry
  have normal := normal_of_isFilePath named
  unfold hasContent at readable
  unfold KeepsLiveRow entryApplied
  simp only [normal] at readable ⊢
  cases staged with
  | none =>
    simp only [Store.latest_remove_self]
    rw [eq_comm, Store.latest_eq_none_iff]
  | some hash =>
    dsimp only at readable ⊢
    obtain ⟨shadow, found⟩ := Option.isSome_iff_exists.mp readable
    simp only [found]
    constructor
    · intro keeps
      exact keeps shadow rfl
    · intro keeps other same
      cases same
      exact keeps

theorem unchanged_refl (stores : SessionStores) : Unchanged stores stores :=
  ⟨rfl, fun _ => rfl⟩

theorem state_closeSession_of_refused {id userId : Text} {message : Option Text}
    (refused : ∀ session, stores.session = some session → session.status ≠ .opened) :
    ((closeSession services id userId ⟨true, message⟩).run
      (executeAlone services) stores).state = stores := by
  cases stored : stores.session with
  | none =>
    have asked : (readSession.run (executeAlone services) stores).outcome = .ok none := by
      rw [← stored]
      rfl
    unfold closeSession requireSession
    rw [run_bind_error]
    · rw [run_bind_ok asked]
      rfl
    · rw [run_bind_ok asked]
      rfl
  | some session =>
    obtain ⟨read, same, _⟩ := run_requireSession services id stored
    unfold closeSession
    rw [run_bind_ok read, same, if_pos (refused session stored)]
    rfl

end

/-- A session that staged two paths and stored the content of the first
one. -/
def halfStoredSession : ChatSessionRecord := { freshSession with
    overlay := (PlainObject.empty.set "a".toList (some "hx".toList)).set
      "b".toList (some "hy".toList) }

def halfStoredStores : SessionStores := { freshStores with
    session := some halfStoredSession
    files := freshStores.files.write plainServices.sha256 0
      (shadowPath "s".toList "a".toList) "x".toList "text/plain".toList
      none }

/-- A session that deleted one path and staged another, whose content is
missing. -/
def deletingSession : ChatSessionRecord := { freshSession with
    overlay := (PlainObject.empty.set "a".toList none).set "b".toList (some "hy".toList) }

end Aprovan.Vcs
