import Aprovan.Vcs.ChatSessions

/-!
# Merges of a session

`changeSummary` compares the overlay of a staged session with its base;
`closeSession` applies every entry of the overlay, whatever the base or the
live tree says.
-/

namespace Aprovan.Vcs

open Aprovan.Library Aprovan.Fs

section

variable (services : SessionServices) (stores : SessionStores)
  (session : ChatSessionRecord)

/-- The entries of the base; none if it is missing. -/
def baseEntries : List SnapshotEntry :=
  ((baseOf stores session).map VcsSnapshot.entries).getD []

def announced : List Text :=
  match ((changeSummary services session).run (executeAlone services) stores).outcome with
  | .ok summary => summary.added ++ summary.modified ++ summary.removed
  | .error _ => []

def liveEdit : SessionStatement → Option (Text × Bool)
  | .writeFile path _ _ => some (path, false)
  | .removeFile path => some (path, true)
  | _ => none

/-- The files that a merge writes and removes. -/
def mergeEdits (userId : Text) (message : Option Text) : List (Text × Bool) :=
  ((closeSession services session.id userId ⟨true, message⟩).run
    (executeAlone services) stores).asked.filterMap liveEdit

/-- A removal changes something if the file is there. -/
def Changes (edit : Text × Bool) : Prop :=
  edit.2 = false ∨ edit.1 ∈ stores.files.paths

def liveHash (path : Text) : Option Text :=
  (stores.files.latest path).map FsRow.hash

/-- The merge writes and removes what is announced; `resolved` are the paths
that were reported as conflicts and resolved. -/
structure AnnouncesMerge (userId : Text) (message : Option Text)
    (resolved : Text → Prop) : Prop where
  onlyAnnounced :
    ∀ edit ∈ mergeEdits services stores session userId message,
      Changes stores edit → edit.1 ∈ announced services stores session
  allAnnounced : ∀ path ∈ announced services stores session,
    ∃ edit ∈ mergeEdits services stores session userId message, edit.1 = path
  sparesMoved : ∀ edit ∈ mergeEdits services stores session userId message,
    ∀ hash, liveHash stores edit.1 = some hash →
      baseHash (baseEntries stores session) edit.1 ≠ some hash → resolved edit.1

def StagesFilePaths (session : ChatSessionRecord) : Prop :=
  ∀ entry ∈ session.overlay.entries, isFilePath entry.1 = true
  deriving Decidable

def Differs (path : Text) : Prop :=
  ∃ staged, session.overlay.get path = some staged ∧
    staged ≠ baseHash (baseEntries stores session) path

/-- Staged content can be read; a tombstone has none. -/
def hasContent (entry : Text × Option Text) : Bool :=
  match normalizeFsPath entry.1, entry.2 with
  | some path, some staged => (stores.files.read (shadowPath session.id path) (some staged)).isSome
  | _, _ => true

/-- What an overlay entry does to the live tree. -/
def editOf (entry : Text × Option Text) : Option (Text × Bool) :=
  (normalizeFsPath entry.1).map fun path => (path, entry.2.isNone)

/-- The entries before the first without content. -/
def reachedEntries : List (Text × Option Text) :=
  session.overlay.entries.takeWhile (hasContent stores session)

/-- The ways in which the merge of an overlay departs from what is announced,
by the staged hash of a path, its hash in the base and its live file. -/
inductive MergeFault (resolved : Text → Prop) : Prop where
  /-- Content that the base has already is written again. -/
  | rewritesBase (path hash : Text) :
      (path, some hash) ∈ reachedEntries stores session →
        baseHash (baseEntries stores session) path = some hash → MergeFault resolved
  /-- A tombstone for no file of the base meets a live file. -/
  | removesForeign (path : Text) :
      (path, none) ∈ reachedEntries stores session →
        baseHash (baseEntries stores session) path = none → path ∈ stores.files.paths →
          MergeFault resolved
  | replacesMoved (path hash : Text) (staged : Option Text) :
      (path, staged) ∈ reachedEntries stores session →
        liveHash stores path = some hash →
          baseHash (baseEntries stores session) path ≠ some hash → ¬ resolved path →
            MergeFault resolved
  /-- A change stands behind an entry without content. -/
  | leavesOut (path : Text) (staged : Option Text) :
      (path, staged) ∈ session.overlay.entries.dropWhile (hasContent stores session) →
        staged ≠ baseHash (baseEntries stores session) path → MergeFault resolved

end

section

variable (services : SessionServices) (stores : SessionStores)
  (session : ChatSessionRecord)

theorem run_changeSummary (staged : session.mode = .staged) :
    ((changeSummary services session).run (executeAlone services) stores).outcome =
      .ok (summarize (baseEntries stores session) session.overlay) := by
  obtain ⟨read, _⟩ := run_baseSnapshot services stores session
  have entries : (((do
      let snapshot ← baseSnapshot session
      pure snapshot.entries).rescue fun _ => pure [] :
        SessionCall (List SnapshotEntry)).run (executeAlone services)
          stores).outcome = .ok (baseEntries stores session) := by
    rw [run_rescue, baseEntries]
    cases base : baseOf stores session with
    | none =>
      rw [base] at read
      rw [run_bind_error read]
      rfl
    | some snapshot =>
      rw [base] at read
      rw [run_bind_ok read]
      rfl
  unfold changeSummary
  rw [staged, if_neg (by decide), run_bind_ok entries]
  rfl

theorem mem_summarize_iff {entries : List SnapshotEntry} {overlay : Overlay} {path : Text} :
    path ∈ (summarize entries overlay).added ++ (summarize entries overlay).modified ++
        (summarize entries overlay).removed ↔
      ∃ staged, overlay.get path = some staged ∧ staged ≠ baseHash entries path := by
  simp only [summarize, List.mem_append, mem_sortTexts, List.mem_filterMap,
    Prod.exists, PlainObject.mem_entries]
  constructor
  · rintro ((⟨other, staged, found, kept⟩ | ⟨other, staged, found, kept⟩) |
      ⟨other, staged, found, kept⟩)
    · split at kept
      · rename_i both
        cases kept
        refine ⟨staged, found, ?_⟩
        intro same
        rw [same, both.2] at both
        simp at both
      · cases kept
    · split at kept
      · rename_i all
        cases kept
        exact ⟨staged, found, Ne.symm all.2.2⟩
      · cases kept
    · split at kept
      · rename_i both
        cases kept
        refine ⟨staged, found, ?_⟩
        intro same
        exact both.2 (same.symm.trans both.1)
      · cases kept
  · rintro ⟨staged, found, differs⟩
    cases staged with
    | none => exact Or.inr ⟨path, none, found, if_pos ⟨rfl, Ne.symm differs⟩⟩
    | some hash =>
      left
      by_cases known : baseHash entries path = none
      · exact Or.inl ⟨path, some hash, found, if_pos ⟨rfl, known⟩⟩
      · exact Or.inr ⟨path, some hash, found, if_pos ⟨rfl, known, Ne.symm differs⟩⟩

variable {services stores session}

theorem mem_announced_iff (staged : session.mode = .staged) {path : Text} :
    path ∈ announced services stores session ↔ Differs stores session path := by
  rw [announced, run_changeSummary services stores session staged]
  exact mem_summarize_iff

end

section

variable {services : SessionServices} {stores : SessionStores}
  {session : ChatSessionRecord} {Value Result : Type}

/-- No entry of the overlay stands for service state, such as the shadow
files themselves. -/
def KeepsOutOfServices (entries : List (Text × Option Text)) : Prop :=
  ∀ entry ∈ entries, ∀ path ∈ normalizeFsPath entry.1, isServicePath path = false
  deriving Decidable

theorem isServicePath_shadowPath (id path : Text) :
    isServicePath (shadowPath id path) = true := by
  have root : sessionsPrefix = servicesRoot ++ '/' :: "chat/sessions".toList := rfl
  rw [isServicePath, underPath, isUnder_iff]
  refine Or.inr ⟨"chat/sessions".toList ++ '/' :: id ++ "/files".toList ++ '/' :: path, ?_⟩
  rw [shadowPath, shadowRoot, root]
  simp only [List.append_assoc, List.cons_append]

theorem shadowPath_ne (id path : Text) {other : Text} (outside : isServicePath other = false) :
    shadowPath id path ≠ other := by
  intro same
  rw [← same, isServicePath_shadowPath] at outside
  cases outside

/-- Staged content is where it was after an edit of the live tree. -/
theorem hasContent_congr {next : SessionStores} (same : ∀ path hash,
      next.files.read (shadowPath session.id path) hash =
        stores.files.read (shadowPath session.id path) hash)
    (entry : Text × Option Text) :
    hasContent next session entry = hasContent stores session entry := by
  unfold hasContent
  split
  · rw [same]
  · rfl

/-- The files after an entry was applied; as they were, if its content is
missing. -/
def entryApplied (services : SessionServices) (now : Nat) (id : Text) (files : Store)
    (entry : Text × Option Text) : Store :=
  match normalizeFsPath entry.1 with
  | none => files
  | some path =>
    match entry.2 with
    | none => (files.remove path).2
    | some staged =>
      match files.read (shadowPath id path) (some staged) with
      | none => files
      | some shadow => files.write services.sha256 now path shadow.content shadow.mimeType none

theorem run_applyStaged (services : SessionServices) (stores : SessionStores)
    (session : ChatSessionRecord) (entry : Text × Option Text)
    (outside : ∀ path, normalizeFsPath entry.1 = some path → isServicePath path = false) :
    let finished := (applyStaged session entry).run (executeAlone services) stores
    (∀ path hash, finished.state.files.read (shadowPath session.id path) hash =
        stores.files.read (shadowPath session.id path) hash) ∧
    finished.state = { stores with
      files := entryApplied services stores.clock session.id stores.files entry } ∧
    if hasContent stores session entry then
      finished.outcome = .ok () ∧ finished.asked.filterMap liveEdit = (editOf entry).toList
    else
      (∃ thrown, finished.outcome = .error thrown) ∧ finished.asked.filterMap liveEdit = [] := by
  obtain ⟨key, staged⟩ := entry
  unfold applyStaged hasContent editOf entryApplied
  cases normal : normalizeFsPath key with
  | none => exact ⟨fun _ _ => rfl, rfl, rfl, rfl⟩
  | some path =>
    have different := fun other => shadowPath_ne session.id other (outside path normal)
    cases staged with
    | none =>
      refine ⟨?_, rfl, rfl, rfl⟩
      intro other hash
      exact Store.read_remove_of_ne (different other) hash
    | some hash =>
      have asked : ((ask (.readFile (shadowPath session.id path)
          (some hash))).run (executeAlone services) stores).outcome =
          .ok (stores.files.read (shadowPath session.id path) (some hash)) :=
        rfl
      simp only [run_bind_ok asked]
      cases found : stores.files.read (shadowPath session.id path) (some hash) with
      | none => exact ⟨fun _ _ => rfl, rfl, ⟨_, rfl⟩, rfl⟩
      | some shadow =>
        refine ⟨?_, rfl, rfl, rfl⟩
        intro other wanted
        exact Store.read_write_of_ne (different other) wanted

theorem entryApplied_of_missing {entry : Text × Option Text}
    (missing : hasContent stores session entry = false) (now : Nat) :
    entryApplied services now session.id stores.files entry = stores.files := by
  obtain ⟨key, staged⟩ := entry
  unfold hasContent at missing
  unfold entryApplied
  cases normal : normalizeFsPath key with
  | none => rfl
  | some path =>
    cases staged with
    | none => simp [normal] at missing
    | some hash =>
      simp only [normal, Option.isSome_eq_false_iff, Option.isNone_iff_eq_none] at missing
      simp only [missing]

theorem run_applyLoop (services : SessionServices) (stores : SessionStores)
    (session : ChatSessionRecord) {entries : List (Text × Option Text)}
    (outside : KeepsOutOfServices entries) :
    let finished := (entries.forM (applyStaged session)).run (executeAlone services) stores
    finished.state = { stores with
      files := (entries.takeWhile (hasContent stores session)).foldl
        (entryApplied services stores.clock session.id) stores.files } ∧
    finished.asked.filterMap liveEdit =
      (entries.takeWhile (hasContent stores session)).filterMap editOf ∧
    if entries.all (hasContent stores session) then finished.outcome = .ok PUnit.unit
    else
      ∃ thrown, finished.outcome = .error thrown := by
  induction entries generalizing stores with
  | nil => exact ⟨rfl, rfl, rfl⟩
  | cons entry rest ih =>
    obtain ⟨same, state, applied⟩ := run_applyStaged services stores session entry
      (outside entry List.mem_cons_self)
    have later : KeepsOutOfServices rest := fun other member =>
      outside other (List.mem_cons_of_mem entry member)
    have split : (entry :: rest).forM (applyStaged session) =
        applyStaged session entry >>= fun _ =>
          rest.forM (applyStaged session) :=
      rfl
    rw [split]
    by_cases readable : hasContent stores session entry = true
    · rw [if_pos readable] at applied
      have contents : hasContent _ session = hasContent stores session :=
        funext (hasContent_congr same)
      rw [run_bind_ok applied.1, List.takeWhile_cons_of_pos readable, List.foldl_cons,
        List.all_cons, readable, Bool.true_and]
      have rests := @ih ((applyStaged session entry).run (executeAlone services)
          stores).state later
      rw [contents] at rests
      rw [state] at rests ⊢
      refine ⟨rests.1, ?_, rests.2.2⟩
      show List.filterMap liveEdit (_ ++ _) = _
      rw [List.filterMap_append, applied.2, rests.2.1, List.filterMap_cons]
      cases editOf entry with
      | none => rfl
      | some edit => rfl
    · rw [if_neg readable] at applied
      obtain ⟨⟨thrown, failed⟩, nothing⟩ := applied
      have missing := Bool.eq_false_iff.mpr readable
      rw [run_bind_error failed, List.takeWhile_cons_of_neg readable,
        List.all_cons, missing, Bool.false_and]
      refine ⟨?_, nothing, thrown, rfl⟩
      rw [state, entryApplied_of_missing missing]
      rfl

def leavesFiles (statement : SessionStatement) : Prop :=
  liveEdit statement = none

theorem asks_leaving {statement : SessionStatement} (leaves : liveEdit statement = none) :
    Asks leavesFiles (ask statement) :=
  asks_perform leaves

theorem leavesFiles_of_history {process : SessionCall Value}
    (asks : Asks (isHistoryStatement ·) process) :
    Asks leavesFiles process := by
  apply asks.weaken
  intro statement history
  cases statement <;> first | rfl | cases history

theorem edits_bind {process : SessionCall Value} {next : Value → SessionCall Result}
    (leaves : ∀ value, Asks leavesFiles (next value)) :
    ((process >>= next).run (executeAlone services) stores).asked.filterMap liveEdit =
      (process.run (executeAlone services) stores).asked.filterMap
        liveEdit := by
  cases returned : (process.run (executeAlone services) stores).outcome with
  | error thrown => rw [run_bind_error returned]
  | ok value =>
    rw [run_bind_ok returned, List.filterMap_append]
    have nothing : (((next value).run (executeAlone services) (process.run (executeAlone services)
          stores).state).asked).filterMap liveEdit = [] := by
      rw [List.filterMap_eq_nil_iff]
      exact asked_of_asks (leaves value) _
    rw [nothing, List.append_nil]

def recordMerge (services : SessionServices) (session : ChatSessionRecord)
    (userId : Text) (message : Option Text) :
    SessionCall (ChatSessionRecord × Option VcsCommit) := do
  let parents ← mergeParents services session userId
  let commit ← commitTree services {
    message := mergeMessage session ⟨true, message⟩
    author := userId
    sessionId := some session.id
    ref := mainRef
    parents := parents }
  let updatedAt ← ask .now
  let merged : ChatSessionRecord := { session with
      status := .merged
      mergeCommit := some commit.id
      updatedAt := updatedAt }
  save merged
  pure (merged, some commit)

theorem leavesFiles_recordMerge (services : SessionServices)
    (session : ChatSessionRecord) (userId : Text) (message : Option Text) :
    Asks leavesFiles (recordMerge services session userId message) := by
  apply asks_bind (leavesFiles_of_history
      (asks_mergeParents (allowsCommits_history services) session userId fun _ => rfl))
  intro parents
  apply asks_bind (leavesFiles_of_history
      (asks_commitTree (allowsCommits_history services) fun _ => rfl))
  intro commit
  apply asks_bind (asks_leaving rfl)
  intro updatedAt
  exact asks_map (asks_leaving rfl) _

theorem mergeEdits_eq (services : SessionServices) (userId : Text) (message : Option Text)
    (stored : stores.session = some session) (opened : session.status = .opened)
    (outside : KeepsOutOfServices session.overlay.entries) :
    mergeEdits services stores session userId message =
      (reachedEntries stores session).filterMap editOf := by
  obtain ⟨read, same, asked⟩ := run_requireSession services _ stored
  unfold mergeEdits closeSession
  rw [run_bind_ok read, same, asked, List.filterMap_append]
  simp only [opened, ne_eq, not_true_eq_false, if_false, Bool.true_eq_false]
  rw [edits_bind, (run_applyLoop services stores session outside).2.1]
  · rfl
  · intro applied
    exact leavesFiles_recordMerge services session userId message

theorem keepsOutOfServices_of_stages {entries : List (Text × Option Text)}
    (filePaths : ∀ entry ∈ entries, isFilePath entry.1 = true) :
    KeepsOutOfServices entries := by
  intro entry member path normal
  have named := filePaths entry member
  rw [isFilePath, Bool.and_eq_true, decide_eq_true_eq, Bool.not_eq_true'] at named
  rw [named.1] at normal
  cases normal
  exact named.2

theorem normal_of_isFilePath {path : Text} (named : isFilePath path = true) :
    normalizeFsPath path = some path := by
  rw [isFilePath, Bool.and_eq_true, decide_eq_true_eq] at named
  exact named.1

theorem mem_mergeEdits_iff (userId : Text) (message : Option Text)
    (stored : stores.session = some session) (opened : session.status = .opened)
    (filePaths : StagesFilePaths session) {edit : Text × Bool} :
    edit ∈ mergeEdits services stores session userId message ↔
      ∃ staged, (edit.1, staged) ∈ reachedEntries stores session ∧ staged.isNone = edit.2 := by
  rw [mergeEdits_eq services userId message stored opened (keepsOutOfServices_of_stages filePaths),
    List.mem_filterMap]
  constructor
  · rintro ⟨⟨path, staged⟩, member, same⟩
    have inOverlay := (List.takeWhile_sublist _).subset member
    rw [editOf, normal_of_isFilePath (filePaths _ inOverlay)] at same
    cases same
    exact ⟨staged, member, rfl⟩
  · rintro ⟨staged, member, removes⟩
    refine ⟨(edit.1, staged), member, ?_⟩
    have inOverlay := (List.takeWhile_sublist _).subset member
    rw [editOf, normal_of_isFilePath (filePaths _ inOverlay)]
    exact congrArg (fun isRemoval => some (edit.1, isRemoval)) removes

theorem staged_of_reached {path : Text} {staged : Option Text}
    (member : (path, staged) ∈ reachedEntries stores session) :
    session.overlay.get path = some staged :=
  PlainObject.mem_entries.mp ((List.takeWhile_sublist _).subset member)

end

/-- A session of an empty workspace that staged one path. -/
def stagedSession (staged : Option Text) : ChatSessionRecord :=
  { freshSession with overlay := PlainObject.empty.set "a".toList staged }

/-- Its rows, in a workspace with one file. -/
def stagedStores (staged : Option Text) (path : Text) : SessionStores := { freshStores with
    session := some (stagedSession staged)
    files := freshStores.files.write plainServices.sha256 0 path
      "x".toList "text/plain".toList none }

end Aprovan.Vcs
