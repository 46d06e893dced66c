import Aprovan.Vcs.SessionResolve

/-!
# Tags

A tag is a ref under `tag/`, which `writeTag` refuses to write when it finds
it; `vcs.commit` takes any ref and moves it.  The calls that read and write refs
run on one history; the sessions, the files and the clock are found as other
callers have left them.
-/

namespace Aprovan.Vcs

open Aprovan.Library Aprovan.Server Aprovan.Fs

def refuseWith {Value : Type} : Outcome Value → SessionCall Value
  | .ok value => pure value
  | .error error => refuse error

/-- `writeTag`, statement by statement. -/
def writeTagCall (name commit : Text) : SessionCall Unit := do
  let refKey ← refuseWith (refName name)
  if "tag/".toList.isPrefixOf refKey = false then refuse (notATag name)
  else
    match ← ask (.readRef refKey) with
    | some _ => refuse (tagExists refKey)
    | none => ask (.writeRef refKey commit)

/-- `moveChannel`, statement by statement. -/
def moveChannelCall (name commit : Text) : SessionCall Unit := do
  let refKey ← refuseWith (refName name)
  if "channel/".toList.isPrefixOf refKey = false then refuse (notAChannel name)
  else ask (.writeRef refKey commit)

def scopedTree (pathPrefix : Text) : SessionCall (List FsEntry) := do
  let entries ← ask (.listFiles pathPrefix)
  pure (entries.filter fun entry => !isServicePath entry.path && !isHiddenDataPath entry.path)

variable (services : SessionServices)

def buildScoped (entries : List FsEntry) (pathPrefix : Text) : VcsSnapshot :=
  buildSnapshot
    { collate := services.collate
      snapshotId := services.snapshotId
      commitId := fun body => services.commitId body none
      now := 0 } entries pathPrefix

/-- `commitTree` for a subtree and any ref. -/
def commitScope (pathPrefix : Text) (options : CommitOptions) : SessionCall VcsCommit := do
  let refKey ← refuseWith (refName options.ref)
  let entries ← scopedTree pathPrefix
  let snapshot := buildScoped services entries pathPrefix
  let ref ← ask (.readRef refKey)
  let head ← headOf ref
  let keyed : CommitOptions := { options with ref := refKey }
  match head, options.parents with
  | some commit, none =>
    if commit.snapshot = snapshot.id then pure commit
    else commitTree.advanceRef services keyed snapshot [commit.id]
  | none, none => commitTree.advanceRef services keyed snapshot []
  | _, some parents => commitTree.advanceRef services keyed snapshot parents

def vcsSnapshotMissing (commit : VcsCommit) : ServiceError where
  message := "Snapshot missing for commit ".toList ++ commit.id
  status := 404

def restoreEntry (entry : SnapshotEntry) : SessionCall Unit := do
  let current ← (ask (.readFile entry.path none)).rescue fun _ => pure none
  if current.any (·.hash = entry.hash) then pure ()
  else
    let pinned ← (ask (.readFile entry.path (some entry.hash))).rescue fun _ => pure none
    match pinned with
    | none => pure ()
    | some row =>
      let _ ← ask (.writeFile entry.path row.content row.mimeType)
      pure ()

def restoreCommit (commit : VcsCommit) (within : Text → Bool) : SessionCall Unit := do
  match ← ask (.readSnapshot commit.snapshot) with
  | none => refuse (vcsSnapshotMissing commit)
  | some snapshot => (snapshot.entries.filter fun entry => within entry.path).forM restoreEntry

structure ReleaseOptions where
  (appId releaseId pathPrefix channel : Text)
  (message actor : Text)

def cutRelease (release : ReleaseOptions) : SessionCall VcsCommit := do
  let commit ← commitScope services release.pathPrefix {
    message := release.message
    author := release.actor
    sessionId := none
    ref := appRefName release.appId
    parents := none }
  writeTagCall (tagRefName release.appId release.releaseId) commit.id
  moveChannelCall (channelRefName release.appId release.channel) commit.id
  pure commit

/-- Tag a release that has only a record so far; `pointed` says that its
channel points at it. -/
def migrateLegacyRelease (release : ReleaseOptions) (snapshot : VcsSnapshot) (pointed : Bool) :
    SessionCall Unit := do
  let tag := tagRefName release.appId release.releaseId
  match ← ask (.readRef tag) with
  | some _ => pure ()
  | none =>
    ask (.saveSnapshot snapshot)
    let head ← ask (.readRef (appRefName release.appId))
    let commit ← createCommitOf services snapshot (head.map VcsRef.commit).toList {
        message := release.message
        author := release.actor
        sessionId := none
        ref := []
        parents := none }
    writeTagCall tag commit.id
    let channel := channelRefName release.appId release.channel
    let channelRef ← ask (.readRef channel)
    if pointed || channelRef.isNone then
      moveChannelCall channel commit.id

/-- `^[0-9a-f]{8,63}$`. -/
def isCommitPrefix (value : Text) : Bool :=
  8 ≤ value.length && value.length ≤ 63 && value.all fun letter =>
      letter.isDigit || ('a' ≤ letter && letter ≤ 'f')

def ambiguousPrefix (value : Text) : ServiceError where
  message := "Ambiguous commit prefix: ".toList ++ value
  status := 400

def unknownCommitish (value : Text) : ServiceError where
  message := "Unknown commit or ref: ".toList ++ value
  status := 404

def refHead (history : History) (value : Text) : Option VcsCommit :=
  if matchesRef value then do
    let ref ← history.readRef value
    history.readCommit ref.commit
  else none

def resolveCommitish (history : History) (value : Text) : Outcome VcsCommit :=
  match history.readCommit value, refHead history value with
  | some direct, _ => .ok direct
  | none, some head => .ok head
  | none, none =>
    let matching := (history.commits.map VcsCommit.id).filter (value.isPrefixOf ·)
    if isCommitPrefix value then
      match matching with
      | [] => .error (unknownCommitish value)
      | [id] =>
        match history.readCommit id with
        | some commit => .ok commit
        | none => .error (unknownCommitish value)
      | _ => .error (ambiguousPrefix value)
    else .error (unknownCommitish value)

inductive RefRequest where
  | commit (pathPrefix : Text) (options : CommitOptions)
  | tag (name commit : Text)
  | channel (name commit : Text)
  | release (options : ReleaseOptions)
  | migrate (options : ReleaseOptions) (snapshot : VcsSnapshot)
      (pointed : Bool)
  | restore (commit : VcsCommit) (within : Text → Bool)
  | close (id userId : Text) (options : CloseOptions)
  | sync (id userId : Text)
  | resolve (id userId : Text) (options : ResolveOptions)

def RefRequest.call : RefRequest → SessionCall Unit
  | .commit pathPrefix options => do
      let _ ← commitScope services pathPrefix options
      pure ()
  | .tag name target => writeTagCall name target
  | .channel name target => moveChannelCall name target
  | .release options => do
      let _ ← cutRelease services options
      pure ()
  | .migrate options snapshot pointed => migrateLegacyRelease services options snapshot pointed
  | .restore restored within => restoreCommit restored within
  | .close id userId options => do
      let _ ← closeSession services id userId options
      pure ()
  | .sync id userId => do
      let _ ← syncSession services id userId
      pure ()
  | .resolve id userId options => do
      let _ ← resolveSessionMerge services id userId options
      pure ()

abbrev RefSystem :=
  Concurrent History RefRequest SessionStatement.Answer SessionFailure Unit

inductive RefAct where
  | start (request : RefRequest)
  /-- The statement finds the other stores as given, or is refused. -/
  | advance (position : Nat) (around : Option SessionStores)

def executeOn (around : Option SessionStores) (statement : SessionStatement) (history : History) :
    Except SessionFailure statement.Answer × History :=
  match around with
  | none => (.error .store, history)
  | some stores =>
    let answered := answerSession services statement { stores with history := history }
    (.ok answered.1, answered.2.history)

def refStep (system : RefSystem) : RefAct → Option RefSystem
  | .start request => some (system.start request (request.call services))
  | .advance position around => system.advance (executeOn services) position around

def noWriters : RefSystem :=
  ⟨⟨[], [], []⟩, [], []⟩

def isTag (name : Text) : Bool :=
  "tag/".toList.isPrefixOf name

/-- Only `vcs.commit` and the calls of `writeTag` write refs under `tag/`. -/
def RefRequest.mayTag : RefRequest → Bool
  | .commit _ _ => true
  | .tag _ _ => true
  | .release _ => true
  | .migrate _ _ _ => true
  | _ => false

/-- The tags that are written are valid refs.  Commits are stored under
digests, which hold no slash. -/
def MayAsk (mayTag : Bool) : SessionStatement → Prop
  | .writeRef name _ => isTag name = true → mayTag = true ∧ matchesRef name = true
  | .writeCommit commit => '/' ∉ commit.id
  | _ => True

theorem matchesRef_of_refName {name key : Text} (named : refName name = .ok key)
    (tag : isTag key = true) : matchesRef key = true := by
  unfold refName at named
  split at named
  · cases named
    cases tag
  · split at named
    · cases named
      assumption
    · cases named

section

variable {services : SessionServices} {mayTag : Bool}

theorem spared_ref {name : Text} (other : isTag name = false) :
    isTag name = true → mayTag = true ∧ matchesRef name = true := by
  intro tag
  rw [other] at tag
  cases tag

theorem mayAsk_of_reads (statement : SessionStatement)
    (reads : isHistoryRead statement = true) : MayAsk mayTag statement := by
  cases statement <;> trivial

theorem mayAsk_refuseWith {Value Result : Type} {outcome : Outcome Value}
    {next : Value → SessionCall Result}
    (after : ∀ value, outcome = .ok value → Asks (MayAsk mayTag) (next value)) :
    Asks (MayAsk mayTag) (refuseWith outcome >>= next) := by
  cases outcome with
  | ok value => exact after value rfl
  | error error => exact asks_raise _

theorem mayAsk_writeRef {name : Text} (commit : Text) (permitted : isTag name = true →
      mayTag = true ∧ matchesRef name = true) :
    Asks (MayAsk mayTag) (ask (.writeRef name commit)) :=
  asks_perform permitted

theorem mayAsk_writeTagCall (name commit : Text) :
    Asks (MayAsk true) (writeTagCall name commit) := by
  apply mayAsk_refuseWith
  intro refKey named
  split
  · exact asks_raise _
  · apply asks_then trivial
    intro existing
    cases existing with
    | some ref => exact asks_raise _
    | none => exact mayAsk_writeRef commit fun tag => ⟨rfl, matchesRef_of_refName named tag⟩

theorem mayAsk_moveChannelCall (name commit : Text) :
    Asks (MayAsk mayTag) (moveChannelCall name commit) := by
  apply mayAsk_refuseWith
  intro refKey _
  split
  · exact asks_raise _
  · next channel =>
      apply mayAsk_writeRef commit
      intro tag
      cases refKey with
      | nil => cases tag
      | cons letter rest =>
        simp [isTag] at tag
        simp [← tag.1] at channel

theorem mayAsk_restoreCommit (commit : VcsCommit) (within : Text → Bool) :
    Asks (MayAsk mayTag) (restoreCommit commit within) := by
  apply asks_then trivial
  intro found
  cases found with
  | none => exact asks_raise _
  | some snapshot =>
    apply asks_forM
    intro entry
    apply asks_bind (asks_rescue (asks_perform trivial) fun _ => asks_pure none)
    intro current
    split
    · exact asks_pure _
    · apply asks_bind (asks_rescue (asks_perform trivial) fun _ => asks_pure none)
      intro pinned
      cases pinned with
      | none => exact asks_pure _
      | some row => exact asks_map (asks_perform trivial) _

theorem mayAsk_requireSession (id : Text) : Asks (MayAsk mayTag) (requireSession id) := by
  apply asks_then trivial
  intro found
  cases found with
  | none => exact asks_raise _
  | some session => exact asks_pure session

theorem mayAsk_applyStaged (session : ChatSessionRecord) (entry : Text × Option Text) :
    Asks (MayAsk mayTag) (applyStaged session entry) := by
  unfold applyStaged
  cases normalizeFsPath entry.1 with
  | none => exact asks_pure _
  | some normalized =>
    cases entry.2 with
    | none =>
      apply asks_rescue
      · exact asks_map (asks_perform trivial) _
      · intro thrown
        exact asks_pure _
    | some staged =>
      apply asks_then trivial
      intro shadow
      cases shadow with
      | none => exact asks_raise _
      | some row => exact asks_map (asks_perform trivial) _

theorem mayAsk_discardChanges (id : Text) (paths : List Text) :
    Asks (MayAsk mayTag) (discardChanges id paths) := by
  apply asks_bind (mayAsk_requireSession id)
  intro session
  dsimp only
  split
  · exact asks_raise _
  · split
    · exact asks_raise _
    · apply asks_then trivial
      intro updatedAt
      exact asks_map (asks_perform trivial) _

variable (digests : ∀ body sessionId, '/' ∉ services.commitId body sessionId)
include digests

theorem allowsCommits_mayAsk : AllowsCommits services (MayAsk mayTag) :=
  ⟨mayAsk_of_reads, fun _ => trivial, digests⟩

theorem mayAsk_commitScope (pathPrefix : Text) {options : CommitOptions}
    (permitted : ∀ refKey, refName options.ref = .ok refKey →
      isTag refKey = true → mayTag = true) :
    Asks (MayAsk mayTag) (commitScope services pathPrefix options) := by
  apply mayAsk_refuseWith
  intro refKey named
  apply asks_bind
  · exact asks_map (asks_perform trivial) _
  intro entries
  apply asks_then trivial
  intro ref
  apply asks_bind (asks_headOf mayAsk_of_reads ref)
  intro head
  have keyed : isTag refKey = true → mayTag = true ∧ matchesRef refKey = true := fun tag =>
    ⟨permitted refKey named tag, matchesRef_of_refName named tag⟩
  let keyedOptions : CommitOptions := { options with ref := refKey }
  exact @asks_advanceUnless services _ (allowsCommits_mayAsk digests) keyedOptions
    (fun _ => keyed) _ head options.parents

theorem mayAsk_closeSession (id userId : Text) (options : CloseOptions) :
    Asks (MayAsk mayTag) (closeSession services id userId options) := by
  apply asks_bind (mayAsk_requireSession id)
  intro session
  dsimp only
  split
  · exact asks_raise _
  · split
    · apply asks_then trivial
      intro updatedAt
      exact asks_map (asks_perform trivial) _
    · apply asks_bind (asks_forM (mayAsk_applyStaged session) _)
      intro applied
      apply asks_bind (asks_mergeParents (allowsCommits_mayAsk digests) session userId
        fun _ => spared_ref rfl)
      intro parents
      apply asks_bind (asks_commitTree (allowsCommits_mayAsk digests)
      fun _ => spared_ref rfl)
      intro commit
      apply asks_then trivial
      intro updatedAt
      exact asks_map (asks_perform trivial) _

theorem mayAsk_syncSession (id userId : Text) :
    Asks (MayAsk mayTag) (syncSession services id userId) := by
  apply asks_bind (mayAsk_requireSession id)
  intro session
  dsimp only
  split
  · exact asks_raise _
  · apply asks_bind (asks_baseSnapshot mayAsk_of_reads session)
    intro oldBase
    apply asks_bind (asks_commitTree (allowsCommits_mayAsk digests) fun _ => spared_ref rfl)
    intro commit
    split
    · exact asks_pure _
    · apply asks_then trivial
      intro newBase
      cases newBase with
      | none => exact asks_raise _
      | some snapshot =>
        apply asks_then trivial
        intro updatedAt
        exact asks_map (asks_perform trivial) _

theorem mayAsk_resolveSessionMerge (id userId : Text) (options : ResolveOptions) :
    Asks (MayAsk mayTag) (resolveSessionMerge services id userId options) := by
  apply asks_bind (mayAsk_syncSession digests id userId)
  intro synced
  apply asks_bind
  · unfold dropResolved
    split
    · exact asks_map (mayAsk_discardChanges id _) _
    · exact asks_pure _
  intro dropped
  dsimp only
  split
  · exact asks_map (mayAsk_requireSession id) _
  · apply asks_bind (mayAsk_requireSession id)
    intro session
    exact asks_map (mayAsk_closeSession digests id userId _) _

theorem mayAsk_cutRelease (release : ReleaseOptions) :
    Asks (MayAsk true) (cutRelease services release) := by
  apply asks_bind (mayAsk_commitScope digests _ fun _ _ _ => rfl)
  intro commit
  apply asks_bind (mayAsk_writeTagCall _ commit.id)
  intro tagged
  apply asks_bind (mayAsk_moveChannelCall _ commit.id)
  intro moved
  exact asks_pure commit

theorem mayAsk_migrateLegacyRelease (release : ReleaseOptions)
    (snapshot : VcsSnapshot) (pointed : Bool) :
    Asks (MayAsk true) (migrateLegacyRelease services release snapshot pointed) := by
  apply asks_then trivial
  intro existing
  cases existing with
  | some ref => exact asks_pure _
  | none =>
    apply asks_then trivial
    intro kept
    apply asks_then trivial
    intro head
    apply asks_bind (asks_createCommitOf mayAsk_of_reads digests snapshot _ _)
    intro commit
    apply asks_bind (mayAsk_writeTagCall _ commit.id)
    intro tagged
    apply asks_then trivial
    intro channelRef
    split
    · exact mayAsk_moveChannelCall _ commit.id
    · exact asks_pure _

theorem mayAsk_call (request : RefRequest) :
    Asks (MayAsk request.mayTag) (request.call services) := by
  cases request with
  | commit pathPrefix options =>
    exact asks_map (mayAsk_commitScope digests pathPrefix fun _ _ _ => rfl) _
  | tag name target => exact mayAsk_writeTagCall name target
  | channel name target => exact mayAsk_moveChannelCall name target
  | release options => exact asks_map (mayAsk_cutRelease digests options) _
  | migrate options snapshot pointed =>
    exact mayAsk_migrateLegacyRelease digests options snapshot pointed
  | restore restored within => exact mayAsk_restoreCommit restored within
  | close id userId options => exact asks_map (mayAsk_closeSession digests id userId options) _
  | sync id userId => exact asks_map (mayAsk_syncSession digests id userId) _
  | resolve id userId options =>
    exact asks_map (mayAsk_resolveSessionMerge digests id userId options) _

end

section

variable {history : History} {name commit : Text}

def History.Names (history : History) (name commit : Text) : Prop :=
  ∃ ref, history.readRef name = some ref ∧ ref.commit = commit

theorem names_writeRef : (history.writeRef name commit).Names name commit :=
  ⟨_, readRef_writeRef_self, rfl⟩

theorem stored_writeCommit {written : VcsCommit} {id : Text}
    (stored : ∃ found, history.readCommit id = some found) :
    ∃ found, (history.writeCommit written).readCommit id = some found := by
  obtain ⟨found, read⟩ := stored
  obtain ⟨member, named⟩ := readCommit_eq_some read
  have nonempty : id ≠ [] := by
    intro empty
    rw [History.readCommit, if_pos empty] at read
    cases read
  rw [History.readCommit, if_neg nonempty, ← Option.isSome_iff_exists, List.find?_isSome]
  by_cases replaced : written.id = id
  · refine ⟨written, ?_, by simp [replaced]⟩
    simp [History.writeCommit]
  · refine ⟨found, ?_, by simp [named]⟩
    have other : found.id ≠ written.id := by
      rw [named]
      exact fun same => replaced same.symm
    simp [History.writeCommit, member, other]

theorem resolve_of_names (plain : ∀ commit ∈ history.commits, '/' ∉ commit.id)
    (tag : isTag name = true) (named : matchesRef name = true) (names : history.Names name commit)
    (stored : ∃ found, history.readCommit commit = some found) :
    ∃ resolved, resolveCommitish history name = .ok resolved ∧ resolved.id = commit := by
  obtain ⟨ref, read, rfl⟩ := names
  obtain ⟨found, readFound⟩ := stored
  have slash : '/' ∈ name := by
    obtain ⟨rest, rfl⟩ := List.isPrefixOf_iff_prefix.mp tag
    simp
  have indirect : history.readCommit name = none := by
    cases direct : history.readCommit name with
    | none => rfl
    | some other =>
      obtain ⟨member, same⟩ := readCommit_eq_some direct
      rw [← same] at slash
      exact absurd slash (plain other member)
  have head : refHead history name = some found := by
    rw [refHead, if_pos named, read]
    exact readFound
  refine ⟨found, ?_, (readCommit_eq_some readFound).2⟩
  simp only [resolveCommitish, indirect, head]

end

/-- Only a call of `vcs.commit`, or one that writes a tag, is concerned: when
it writes a tag, it finds none there, or the same commit. -/
def keepsTag (system : RefSystem) : RefAct → Bool
  | .advance position (some _) =>
    match system.awaiting position, system.requestAt position with
    | some (.writeRef name commit), some request =>
      !request.mayTag || !isTag name || (system.shared.readRef name).all (·.commit = commit)
    | _, _ => true
  | _ => true

def TagWritten (system : RefSystem) (name commit : Text) : Prop :=
  isTag name = true ∧ ∃ caller, ⟨caller, .writeRef name commit, .ok ()⟩ ∈ system.history

/-- Tags stay where they were written, and every call asks what it may. -/
structure TagsHeld (system : RefSystem) : Prop where
  plain : ∀ commit ∈ system.shared.commits, '/' ∉ commit.id
  names : ∀ name commit, TagWritten system name commit →
    system.shared.Names name commit ∧ matchesRef name = true
  asks : ∀ call ∈ system.calls, Asks (MayAsk call.request.mayTag) call.process

section

variable {services : SessionServices} {system next : RefSystem}
  {around : Option SessionStores} {statement : SessionStatement}
  {history : History}

theorem commits_executeOn {mayTag : Bool} (asked : MayAsk mayTag statement)
    (plain : ∀ commit ∈ history.commits, '/' ∉ commit.id) :
    ∀ commit ∈ (executeOn services around statement history).2.commits, '/' ∉ commit.id := by
  cases around with
  | none => exact plain
  | some stores =>
    cases statement with
    | writeCommit written =>
      intro commit member
      rcases List.mem_append.mp member with older | new
      · exact plain commit (List.mem_filter.mp older).1
      · rw [List.mem_singleton.mp new]
        exact asked
    | _ => exact plain

theorem names_executeOn {name commit : Text} (names : history.Names name commit)
    (kept : ∀ target, statement = .writeRef name target → around.isSome = true → target = commit) :
    (executeOn services around statement history).2.Names name commit := by
  cases around with
  | none => exact names
  | some stores =>
    cases statement with
    | writeRef other target =>
      by_cases same : other = name
      · subst same
        rw [← kept target rfl rfl]
        exact names_writeRef
      · obtain ⟨ref, read, target⟩ := names
        refine ⟨ref, ?_, target⟩
        rw [← read]
        exact readRef_writeRef_of_ne fun equal => same equal.symm
    | _ => exact names

theorem stored_executeOn {id : Text} (stored : ∃ found, history.readCommit id = some found) :
    ∃ found, (executeOn services around statement history).2.readCommit id = some found := by
  cases around with
  | none => exact stored
  | some stores =>
    cases statement with
    | writeCommit written => exact stored_writeCommit stored
    | _ => exact stored

theorem tagsHeld_start (digests : ∀ body sessionId, '/' ∉ services.commitId body sessionId)
    (held : TagsHeld system) (request : RefRequest) :
    TagsHeld (system.start request (request.call services)) where
  plain := held.plain
  names := held.names
  asks := by
    intro call member
    rcases List.mem_append.mp member with older | new
    · exact held.asks call older
    · rw [List.mem_singleton.mp new]
      exact mayAsk_call digests request

theorem tagsHeld_advance {position : Nat} (held : TagsHeld system)
    (kept : keepsTag system (.advance position around) = true)
    (taken : system.advance (executeOn services) position around = some next) :
    TagsHeld next := by
  obtain ⟨request, statement, resume, found, rfl⟩ :=
    advance_eq_some_iff.mp taken
  have asks := held.asks _ (List.mem_of_getElem? found)
  have finds : ∀ name target ref, statement = .writeRef name target →
      around.isSome = true → isTag name = true →
        system.shared.readRef name = some ref → ref.commit = target := by
    rintro name target ref rfl present tag read
    obtain ⟨stores, rfl⟩ := Option.isSome_iff_exists.mp present
    have awaiting : system.awaiting position = some (.writeRef name target) := by
      rw [Concurrent.awaiting, found]
    have permitted := (asks.1 tag).1
    simp only [keepsTag, awaiting, requestAt_of_found found, permitted, tag,
      read, Bool.not_true, Bool.false_or, Option.all_some,
      decide_eq_true_eq] at kept
    exact kept
  refine ⟨commits_executeOn asks.1 held.plain, ?_, ?_⟩
  · rintro name commit ⟨tag, caller, written⟩
    rcases List.mem_append.mp written with older | new
    · obtain ⟨names, valid⟩ := held.names name commit ⟨tag, caller, older⟩
      refine ⟨names_executeOn names ?_, valid⟩
      intro target same present
      obtain ⟨ref, read, rfl⟩ := names
      exact (finds name target ref same present tag read).symm
    · cases around with
      | none =>
        have entry := List.mem_singleton.mp new
        injection entry with _ statements answers
        subst statements
        cases eq_of_heq answers
      | some stores =>
        have entry := List.mem_singleton.mp new
        injection entry with _ statements answers
        subst statements
        exact ⟨names_writeRef, (asks.1 tag).2⟩
  · intro call member
    rcases List.mem_or_eq_of_mem_set member with older | same
    · exact held.asks call older
    · rw [same]
      exact asks.2 _

theorem tagsHeld_refStep (digests : ∀ body sessionId, '/' ∉ services.commitId body sessionId)
    {act : RefAct} (held : TagsHeld system) (kept : keepsTag system act = true)
    (taken : refStep services system act = some next) : TagsHeld next := by
  cases act with
  | start request =>
    cases taken
    exact tagsHeld_start digests held request
  | advance position around => exact tagsHeld_advance held kept taken

theorem tagsHeld_noWriters : TagsHeld noWriters where
  plain := fun _ absent => (nomatch absent)
  names := fun _ _ ⟨_, _, absent⟩ => (nomatch absent)
  asks := fun _ absent => (nomatch absent)

theorem stored_refStep {act : RefAct} {id : Text}
    (stored : ∃ found, system.shared.readCommit id = some found)
    (taken : refStep services system act = some next) :
    ∃ found, next.shared.readCommit id = some found := by
  cases act with
  | start request =>
    cases taken
    exact stored
  | advance position around =>
    obtain ⟨request, statement, resume, _, rfl⟩ :=
      advance_eq_some_iff.mp taken
    exact stored_executeOn stored

theorem tagWritten_refStep {act : RefAct} {name commit : Text}
    (written : TagWritten system name commit) (taken : refStep services system act = some next) :
    TagWritten next name commit := by
  obtain ⟨tag, caller, entry⟩ := written
  refine ⟨tag, caller, ?_⟩
  cases act with
  | start request =>
    cases taken
    exact entry
  | advance position around =>
    obtain ⟨request, statement, resume, _, rfl⟩ :=
      advance_eq_some_iff.mp taken
    exact List.mem_append_left _ entry

end

/-- The answered write of a call of `writeTag`. -/
def sawTag (raw target : Text) :
    (statement : SessionStatement) → Except SessionFailure statement.Answer → Bool
  | .writeRef name commit, .ok _ =>
    (refName raw).toOption = some name && isTag name && commit = target
  | _, _ => false

def tagDiscipline : RefRequest → Discipline SessionStatement.Answer SessionFailure Bool
  | .tag raw target => lastSeen (fun _ => True) (sawTag raw target)
  | _ => lastSeen (fun _ => True) fun _ _ => false

/-- A call of `writeTag` that returns has written the tag. -/
def tagEnds : RefRequest → Bool → Except SessionFailure Unit → Prop
  | .tag _ _, wrote, .ok _ => wrote = true
  | _, _, _ => True

theorem follows_writeTagCall (raw target : Text) :
    Follows (tagDiscipline (.tag raw target)) (tagEnds (.tag raw target))
      false (writeTagCall raw target) := by
  unfold writeTagCall
  cases named : refName raw with
  | error error => exact follows_raise trivial
  | ok refKey =>
    apply follows_bind
    apply follows_pure
    dsimp only
    split
    · exact follows_raise trivial
    · next tag =>
        refine follows_await trivial (fun _ _ => trivial) ?_
        intro existing _
        cases existing with
        | some ref => exact follows_raise trivial
        | none =>
          refine follows_await trivial (fun _ _ => trivial) ?_
          intro written _
          have saw : isTag refKey = true := by simpa [isTag] using tag
          show sawTag raw target (.writeRef refKey target) (.ok written) = true
          simp [sawTag, named, saw, Except.toOption]

theorem follows_call (services : SessionServices) (request : RefRequest) :
    Follows (tagDiscipline request) (tagEnds request) false (request.call services) := by
  cases request with
  | tag name target => exact follows_writeTagCall name target
  | _ =>
    exact (follows_of_asks (asks_any _) fun _ _ _ => trivial).weaken fun _ _ _ => trivial

/-- `writeTag` has succeeded: its write was answered, or it has returned. -/
def TagSucceeded (system : RefSystem) (name commit : Text) : Prop :=
  TagWritten system name commit ∨ ∃ (position : Nat) (raw : Text), refName raw = .ok name ∧
      system.calls[position]? = some ⟨.tag raw commit, .done (.ok ())⟩

theorem tagWritten_of_succeeded {system : RefSystem} {name commit : Text}
    (follow : AllFollow tagDiscipline false tagEnds system)
    (succeeded : TagSucceeded system name commit) :
    TagWritten system name commit := by
  rcases succeeded with written | ⟨position, raw, named, returned⟩
  · exact written
  · have wrote : memoryOf (lastSeen (fun _ => True) (sawTag raw commit))
        false system.history position = true :=
      follow.ended returned
    obtain ⟨entry, after, ⟨before, split, _⟩, saw⟩ :=
      exists_lastOf_of_lastSeen system.history position wrote
    have member : entry ∈ system.history := by
      rw [split]
      simp
    obtain ⟨caller, statement, answer⟩ := entry
    cases statement with
    | writeRef other target =>
      cases answer with
      | error thrown => cases saw
      | ok written =>
        simp only [sawTag, named, Except.toOption, Bool.and_eq_true,
          decide_eq_true_eq, Option.some.injEq] at saw
        obtain ⟨⟨rfl, tag⟩, rfl⟩ := saw
        exact ⟨tag, caller, member⟩
    | _ => cases saw

theorem follow_refStep {services : SessionServices} {system next : RefSystem} {act : RefAct}
    (follow : AllFollow tagDiscipline false tagEnds system)
    (taken : refStep services system act = some next) :
    AllFollow tagDiscipline false tagEnds next := by
  cases act with
  | start request =>
    cases taken
    exact follows_start follow (follows_call services request)
  | advance position around =>
    obtain ⟨request, statement, resume, found, rfl⟩ :=
      advance_eq_some_iff.mp taken
    apply follows_answered follow found
    cases request <;> trivial

/-- Once `writeTag` has succeeded, the tag names its commit in every later
state, and resolves to it if it is stored. -/
theorem tags_stay (services : SessionServices)
    (digests : ∀ body sessionId, '/' ∉ services.commitId body sessionId)
    {before after : List RefAct} {middle system : RefSystem} {name commit : Text}
    (meets : StepsMeet (refStep services)
      (fun system act => keepsTag system act = true) noWriters
      (before ++ after)) (reached : runFrom (refStep services) noWriters before = some middle)
    (continued : runFrom (refStep services) middle after = some system)
    (succeeded : TagSucceeded middle name commit) :
    system.shared.Names name commit ∧ ((∃ found, middle.shared.readCommit commit = some found) →
        ∃ resolved, resolveCommitish system.shared name = .ok resolved ∧
          resolved.id = commit) := by
  have whole : runFrom (refStep services) noWriters (before ++ after) = some system := by
    rw [runFrom_append, reached]
    exact continued
  have held := invariant_of_stepsMeet TagsHeld
    (fun _ _ _ held kept taken => tagsHeld_refStep digests held kept taken)
    tagsHeld_noWriters meets whole
  have follow := invariant_runFrom (AllFollow tagDiscipline false tagEnds)
    (fun _ _ _ follow taken => follow_refStep follow taken)
    follows_idle reached
  have written := invariant_runFrom (TagWritten · name commit)
    (fun _ _ _ written taken => tagWritten_refStep written taken)
    (tagWritten_of_succeeded follow succeeded) continued
  obtain ⟨names, valid⟩ := held.names name commit written
  refine ⟨names, fun stored => ?_⟩
  have kept := invariant_runFrom
    (fun state : RefSystem => ∃ found, state.shared.readCommit commit = some found)
    (fun _ _ _ stored taken => stored_refStep stored taken)
    stored continued
  exact resolve_of_names held.plain written.1 valid names kept

/-- The tag and the commit of a call of `writeTag` that has returned. -/
def returnedTag (system : RefSystem) (position : Nat) : Option (Text × Text) :=
  match system.calls[position]? with
  | some ⟨.tag raw target, .done (.ok _)⟩ => some (raw, target)
  | _ => none

theorem tagSucceeded_of_returnedTag {system : RefSystem} {position : Nat}
    {raw name commit : Text} (named : refName raw = .ok name)
    (returned : returnedTag system position = some (raw, commit)) :
    TagSucceeded system name commit := by
  refine Or.inr ⟨position, raw, named, ?_⟩
  unfold returnedTag at returned
  split at returned
  · next found =>
      cases returned
      exact found
  · cases returned

def messageServices : SessionServices := { spellingServices with
    commitId := fun body _ => 'c' :: body.message.filter (· ≠ '/') }

def commitOn (ref message : Text) : RefRequest :=
  .commit [] {
    message := message
    author := "ann".toList
    sessionId := none
    ref := ref
    parents := none }

def changedStores : SessionStores := {
  freshStores with files := fileWith freshStores.files "a".toList "x".toList }

def statements (position count : Nat) (around : SessionStores) : List RefAct :=
  List.replicate count (.advance position (some around))

def tagFirst : List RefAct :=
  .start (commitOn [] "1".toList) :: statements 0 6 freshStores ++
    .start (.tag "tag/r".toList "c1".toList) :: statements 1 2 freshStores

/-- A second commit, to the main line. -/
def commitMain : List RefAct :=
  .start (commitOn [] "2".toList) :: statements 2 9 changedStores

def commitTag : List RefAct :=
  .start (commitOn "tag/r".toList "2".toList) :: statements 2 9 changedStores

theorem tags_stay_commitMain :
    ∃ middle system, runFrom (refStep messageServices) noWriters tagFirst = some middle ∧
        runFrom (refStep messageServices) middle commitMain = some system ∧
          system.shared.commits.length = 2 ∧ system.shared.Names "tag/r".toList "c1".toList ∧
              ∃ resolved, resolveCommitish system.shared "tag/r".toList = .ok resolved ∧
                  resolved.id = "c1".toList := by
  have tagged : (runFrom (refStep messageServices) noWriters tagFirst).map
      (fun middle => (returnedTag middle 1, (middle.shared.readCommit "c1".toList).isSome)) =
        some (some ("tag/r".toList, "c1".toList), true) := by
    decide +kernel
  obtain ⟨middle, reached, returned⟩ := Option.map_eq_some_iff.mp tagged
  have executed : (runFrom (refStep messageServices) noWriters
      (tagFirst ++ commitMain)).map (·.shared.commits.length) = some 2 := by
    decide +kernel
  rw [runFrom_append, reached, Option.bind_some] at executed
  obtain ⟨system, continued, commits⟩ := Option.map_eq_some_iff.mp executed
  have plain : ∀ body sessionId, '/' ∉ messageServices.commitId body sessionId := by
    intro body sessionId
    simp [messageServices]
  have named : refName "tag/r".toList = .ok "tag/r".toList := by decide
  have stays := tags_stay messageServices plain (by decide +kernel) reached
    continued (tagSucceeded_of_returnedTag named (Prod.mk.inj returned).1)
  refine ⟨middle, system, reached, continued, commits, stays.1, stays.2 ?_⟩
  exact Option.isSome_iff_exists.mp (Prod.mk.inj returned).2

/-- A commit to the tag moves it. -/
theorem tags_moved :
    ¬∀ middle system, runFrom (refStep messageServices) noWriters tagFirst = some middle →
        runFrom (refStep messageServices) middle commitTag = some system →
          TagSucceeded middle "tag/r".toList "c1".toList →
            system.shared.Names "tag/r".toList "c1".toList := by
  intro stay
  have tagged : (runFrom (refStep messageServices) noWriters tagFirst).map
      (returnedTag · 1) = some (some ("tag/r".toList, "c1".toList)) := by
    decide +kernel
  obtain ⟨middle, reached, returned⟩ := Option.map_eq_some_iff.mp tagged
  have executed : (runFrom (refStep messageServices) noWriters (tagFirst ++ commitTag)).map
        (fun system => (system.shared.readRef "tag/r".toList).map
          VcsRef.commit) = some (some "c2".toList) := by
    decide +kernel
  rw [runFrom_append, reached, Option.bind_some] at executed
  obtain ⟨system, continued, moved⟩ := Option.map_eq_some_iff.mp executed
  obtain ⟨ref, read, named⟩ := stay middle system reached continued
    (tagSucceeded_of_returnedTag (by decide) returned)
  rw [read, Option.map_some, named] at moved
  exact absurd moved (by decide)

end Aprovan.Vcs
