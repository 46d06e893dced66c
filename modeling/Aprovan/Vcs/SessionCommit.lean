import Aprovan.Vcs.SessionClose
import Aprovan.Vcs.SnapshotDiff

/-!
# The commit of a session

A merge commits the live tree, with the overlay applied, on the ref of the
session before it commits the same tree on `main`.  The first commit is parented
at the base of the session.
-/

namespace Aprovan.Vcs

open Aprovan.Library Aprovan.Fs

/-- The snapshot saved last, and the snapshots committed on the ref. -/
structure CommitTrace where
  saved : Option VcsSnapshot
  committed : List VcsSnapshot

def traceCommit (name : Text) (trace : CommitTrace) : SessionStatement → CommitTrace
  | .saveSnapshot snapshot => { trace with saved := some snapshot }
  | .writeRef ref _ =>
    if ref = name then { trace with committed := trace.committed ++ trace.saved.toList }
    else trace
  | _ => trace

def committedOn (name : Text) (asked : List SessionStatement) : List VcsSnapshot :=
  (asked.foldl (traceCommit name) ⟨none, []⟩).committed

section

variable (services : SessionServices) (stores : SessionStores)
  (session : ChatSessionRecord)

def CommitRecordsOverlay (userId : Text) (message : Option Text) : Prop :=
  ∀ snapshot ∈ committedOn (sessionRef session.id)
      ((closeSession services session.id userId ⟨true, message⟩).run
        (executeAlone services) stores).asked,
    (diffSnapshots (baseEntries stores session) snapshot.entries).Records session.overlay.get

/-- The live tree is at the base where nothing is staged; what is staged
differs from the base; and a staged write is a visible file with the staged
hash, once it is made. -/
structure RecordsCondition : Prop where
  noDrift : ∀ path, session.overlay.get path = none →
    visibleHash stores.files path = baseHash (baseEntries stores session) path
  fresh : ∀ path staged, session.overlay.get path = some staged →
    baseHash (baseEntries stores session) path ≠ staged
  visible : ∀ path hash, session.overlay.get path = some (some hash) →
    visibleHash (entryApplied services stores.clock session.id stores.files
      (path, some hash)) path = some hash

/-- An open session in a workspace whose listing shows what a read finds, also
after writes of this time: no two versions of a file have one time, and none
has the clock's. -/
structure CommitStarts : Prop where
  stored : stores.session = some session
  opened : session.status = .opened
  filePaths : StagesFilePaths session
  untied : stores.files.Untied
  older : ∀ row ∈ stores.files.rows, row.updatedAt < stores.clock

/-- The merge fails, there is nothing to commit, or the condition holds. -/
def CommitCondition : Prop :=
  (∃ entry ∈ session.overlay.entries, hasContent stores session entry = false) ∨
    session.overlay.rows = [] ∨
    RecordsCondition services stores session

end

section

variable {services : SessionServices} {stores : SessionStores}
  {session : ChatSessionRecord} {name : Text} {Value Result : Type}

/-- Neither saves a snapshot nor moves a ref. -/
def isQuiet : SessionStatement → Bool
  | .saveSnapshot _ => false
  | .writeRef _ _ => false
  | _ => true

theorem traceCommit_of_quiet {statement : SessionStatement}
    (quiet : isQuiet statement = true) (trace : CommitTrace) :
    traceCommit name trace statement = trace := by
  cases statement <;> first | rfl | cases quiet

theorem foldl_traceCommit_of_quiet {asked : List SessionStatement}
    (quiet : ∀ statement ∈ asked, isQuiet statement = true) (trace : CommitTrace) :
    asked.foldl (traceCommit name) trace = trace := by
  induction asked with
  | nil => rfl
  | cons statement rest ih =>
    rw [List.foldl_cons, traceCommit_of_quiet (quiet statement List.mem_cons_self)]
    exact ih fun later member => quiet later (List.mem_cons_of_mem statement member)

def traceAfter (services : SessionServices) (stores : SessionStores)
    (name : Text) (trace : CommitTrace) (process : SessionCall Value) :
    CommitTrace :=
  (process.run (executeAlone services) stores).asked.foldl (traceCommit name) trace

variable {process : SessionCall Value}

theorem traceAfter_of_quiet (quiet : Asks (isQuiet ·) process) (trace : CommitTrace) :
    traceAfter services stores name trace process = trace :=
  foldl_traceCommit_of_quiet (asked_of_asks quiet stores) trace

theorem traceAfter_bind {next : Value → SessionCall Result} {value : Value}
    (returned : (process.run (executeAlone services) stores).outcome =
      .ok value) (trace : CommitTrace) :
    traceAfter services stores name trace (process >>= next) = traceAfter services
        (process.run (executeAlone services) stores).state name
        (traceAfter services stores name trace process) (next value) := by
  unfold traceAfter
  rw [run_bind_ok returned, List.foldl_append]

theorem traceAfter_bind_error {next : Value → SessionCall Result} {thrown : SessionFailure}
    (failed : (process.run (executeAlone services) stores).outcome =
      .error thrown) (trace : CommitTrace) :
    traceAfter services stores name trace (process >>= next) =
      traceAfter services stores name trace process := by
  unfold traceAfter
  rw [run_bind_error failed]

def sparesRef (name : Text) : SessionStatement → Prop
  | .writeRef ref _ => ref ≠ name
  | _ => True

theorem committed_of_spares (spares : Asks (sparesRef name) process) (trace : CommitTrace) :
    (traceAfter services stores name trace process).committed = trace.committed := by
  unfold traceAfter
  have asked : ∀ statement ∈ (process.run (executeAlone services)
      stores).asked, sparesRef name statement :=
    asked_of_asks spares stores
  generalize (process.run (executeAlone services) stores).asked = statements at asked
  induction statements generalizing trace with
  | nil => rfl
  | cons statement rest ih =>
    rw [List.foldl_cons, ih _ fun later member =>
      asked later (List.mem_cons_of_mem statement member)]
    have here := asked statement List.mem_cons_self
    cases statement with
    | writeRef ref commit => rw [traceCommit, if_neg here]
    | _ => rfl

end

section

variable {services : SessionServices} {stores : SessionStores}
  {session : ChatSessionRecord} {name : Text}

theorem asks_quiet {statement : SessionStatement} (quiet : isQuiet statement = true) :
    Asks (isQuiet ·) (ask statement) :=
  asks_perform quiet

theorem quiet_of_reads (statement : SessionStatement)
    (reads : isHistoryRead statement = true) : isQuiet statement = true := by
  cases statement <;> first | rfl | cases reads

theorem quiet_createCommitOf (snapshot : VcsSnapshot) (parents : List Text)
    (options : CommitOptions) :
    Asks (isQuiet ·) (createCommitOf services snapshot parents options) :=
  asks_createCommitOf quiet_of_reads (fun _ _ => rfl) snapshot parents options

theorem traceAfter_advanceRef (options : CommitOptions) (snapshot : VcsSnapshot)
    (parents : List Text) (trace : CommitTrace) (named : options.ref = name) :
    traceAfter services stores name trace
        (commitTree.advanceRef services options snapshot parents) =
      ⟨some snapshot, trace.committed ++ [snapshot]⟩ := by
  unfold commitTree.advanceRef
  rw [traceAfter_bind rfl]
  obtain ⟨commit, created⟩ := run_of_succeeds (succeeds_createCommitOf snapshot parents options)
    (answered_executeAlone services)
    ((ask (.saveSnapshot snapshot)).run (executeAlone services) stores).state
  rw [traceAfter_bind created, traceAfter_of_quiet (quiet_createCommitOf snapshot parents options),
    traceAfter_bind rfl]
  show traceCommit name ⟨some snapshot, trace.committed⟩ (.writeRef options.ref commit.id) = _
  rw [traceCommit, if_pos named]
  rfl

theorem traceAfter_commitTree (services : SessionServices) (stores : SessionStores) (name : Text)
    (options : CommitOptions) {parents : List Text} (given : options.parents = some parents)
    (trace : CommitTrace) (named : options.ref = name) :
    traceAfter services stores name trace (commitTree services options) =
      ⟨some (snapshotTree services (visibleFiles stores.files)), trace.committed ++
          [snapshotTree services (visibleFiles stores.files)]⟩ := by
  have listed : (visibleTree.run (executeAlone services) stores).outcome =
      .ok (visibleFiles stores.files) :=
    rfl
  have sameTree : (visibleTree.run (executeAlone services) stores).state = stores := rfl
  have quietTree : Asks (isQuiet ·) visibleTree := asks_visibleTree quiet_of_reads
  have quietHead : ∀ ref, Asks (isQuiet ·) (headOf ref) := asks_headOf quiet_of_reads
  have succeedsHead : ∀ ref, Succeeds (headOf ref) := by
    intro ref
    cases ref with
    | none => exact succeeds_pure none
    | some ref => exact succeeds_readCommit ref.commit
  unfold commitTree
  rw [traceAfter_bind listed, sameTree, traceAfter_of_quiet quietTree]
  have quietRef : Asks (isQuiet ·) (ask (.readRef options.ref)) := asks_quiet rfl
  rw [traceAfter_bind rfl, traceAfter_of_quiet quietRef]
  obtain ⟨head, read⟩ := run_of_succeeds (succeedsHead (stores.history.readRef options.ref))
    (answered_executeAlone services) stores
  have answered : ((ask (.readRef options.ref)).run (executeAlone services)
      stores).state = stores :=
    rfl
  rw [answered]
  show traceAfter services stores name trace
    (headOf (stores.history.readRef options.ref) >>= _) = _
  rw [traceAfter_bind read, traceAfter_of_quiet (quietHead _)]
  simp only [given]
  cases head <;> exact traceAfter_advanceRef options _ parents trace named

theorem spares_of_quiet {Value : Type} {process : SessionCall Value}
    (quiet : Asks (isQuiet ·) process) :
    Asks (sparesRef name) process := by
  apply quiet.weaken
  intro statement isQuiet
  cases statement with
  | writeRef ref commit => cases isQuiet
  | _ => trivial

theorem allowsCommits_sparing (services : SessionServices) (name : Text) :
    AllowsCommits services (sparesRef name) := by
  refine ⟨?_, fun _ => trivial, fun _ _ => trivial⟩
  intro statement reads
  cases statement <;> trivial

theorem sessionRef_ne_main (id : Text) : mainRef ≠ sessionRef id := by
  intro same
  have main : mainRef = 'm' :: "ain".toList := by decide +kernel
  have front : "session/".toList = 's' :: "ession/".toList := by decide +kernel
  have other : sessionRef id = 's' :: ("ession/".toList ++ id) := congrArg (· ++ id) front
  have letters : 'm' = 's' := List.head_eq_of_cons_eq (main.symm.trans (same.trans other))
  exact absurd letters (by decide)

theorem quiet_applyStaged (entry : Text × Option Text) :
    Asks (isQuiet ·) (applyStaged session entry) := by
  unfold applyStaged
  split
  · exact asks_pure ()
  · split
    · apply asks_rescue
      · apply asks_bind (asks_quiet rfl)
        intro removed
        exact asks_pure ()
      · intro thrown
        exact asks_pure ()
    · apply asks_bind (asks_quiet rfl)
      intro found
      cases found with
      | none => exact asks_raise _
      | some shadow =>
        apply asks_bind (asks_quiet rfl)
        intro written
        exact asks_pure ()

theorem committed_recordMerge (userId : Text) (message : Option Text) (trace : CommitTrace) :
    (traceAfter services stores (sessionRef session.id) trace
        (recordMerge services session userId message)).committed =
      trace.committed ++
        if session.overlay.rows = [] then []
        else [snapshotTree services (visibleFiles stores.files)] := by
  obtain ⟨parents, returned⟩ := run_of_succeeds (succeeds_mergeParents services session userId)
    (answered_executeAlone services) stores
  unfold recordMerge
  rw [traceAfter_bind returned, committed_of_spares]
  swap
  · refine asks_bind (asks_commitTree
      (allowsCommits_sparing services (sessionRef session.id)) ?_) ?_
    · exact fun _ => sessionRef_ne_main session.id
    intro commit
    apply asks_bind (spares_of_quiet (asks_quiet rfl))
    intro updatedAt
    exact asks_map (spares_of_quiet (asks_quiet rfl)) _
  unfold mergeParents
  have quietMain : Asks (isQuiet ·) (ask (.readRef mainRef)) := asks_quiet rfl
  rw [traceAfter_bind rfl, traceAfter_of_quiet quietMain]
  by_cases empty : session.overlay.rows = []
  · rw [if_pos empty, if_pos empty, List.append_nil]
    rfl
  · rw [if_neg empty, if_neg empty]
    let options : CommitOptions := {
      message := "Session: ".toList ++ session.title
      author := userId
      sessionId := some session.id
      ref := sessionRef session.id
      parents := some [session.base] }
    obtain ⟨commit, committed⟩ := run_of_succeeds (succeeds_commitTree services options)
      (answered_executeAlone services)
      ((ask (.readRef mainRef)).run (executeAlone services) stores).state
    rw [traceAfter_bind committed]
    have trace := traceAfter_commitTree services
      ((ask (.readRef mainRef)).run (executeAlone services) stores).state
      (sessionRef session.id) options rfl trace rfl
    rw [trace]
    split <;> rfl

end

section

variable {services : SessionServices} {stores : SessionStores}
  {session : ChatSessionRecord}

def mergedFiles (services : SessionServices) (stores : SessionStores)
    (session : ChatSessionRecord) : Store :=
  session.overlay.entries.foldl (entryApplied services stores.clock session.id) stores.files

theorem quiet_applyAll (entries : List (Text × Option Text)) :
    Asks (isQuiet ·) (entries.forM (applyStaged session)) :=
  asks_forM (fun entry => quiet_applyStaged entry) entries

theorem committedOn_closeSession (userId : Text) (message : Option Text)
    (stored : stores.session = some session) (opened : session.status = .opened)
    (filePaths : StagesFilePaths session) :
    committedOn (sessionRef session.id)
        ((closeSession services session.id userId ⟨true, message⟩).run
          (executeAlone services) stores).asked =
      if session.overlay.entries.all (hasContent stores session) = true ∧
          session.overlay.rows ≠ [] then
        [snapshotTree services (visibleFiles (mergedFiles services stores session))]
      else
        [] := by
  obtain ⟨_, _, asked⟩ := run_closeSession services session.id userId message stored opened
  obtain ⟨left, _, ended⟩ := run_applyLoop services stores session
    (keepsOutOfServices_of_stages filePaths)
  rw [asked]
  show (traceAfter services stores (sessionRef session.id) ⟨none, []⟩
    (session.overlay.entries.forM (applyStaged session) >>= fun _ =>
      recordMerge services session userId message)).committed = _
  by_cases complete : session.overlay.entries.all (hasContent stores session) = true
  · rw [if_pos complete] at ended
    have all : session.overlay.entries.takeWhile
        (hasContent stores session) = session.overlay.entries :=
      List.takeWhile_eq_self_iff.mpr (List.all_eq_true.mp complete)
    rw [traceAfter_bind ended, traceAfter_of_quiet (quiet_applyAll _),
      committed_recordMerge, left, all]
    by_cases empty : session.overlay.rows = []
    · rw [if_pos empty, if_neg fun both => both.2 empty]
      rfl
    · rw [if_neg empty, if_pos ⟨complete, empty⟩]
      rfl
  · rw [if_neg complete] at ended
    obtain ⟨thrown, failed⟩ := ended
    rw [traceAfter_bind_error failed, traceAfter_of_quiet (quiet_applyAll _),
      if_neg fun both => complete both.1]

variable {path : Text}

theorem visibleHash_congr {first second : Store} (same : Store.SameAt path first second) :
    visibleHash first path = visibleHash second path := by
  rw [visibleHash, visibleHash, same.latest]

theorem visibleHash_merged_of_none (filePaths : StagesFilePaths session)
    (unstaged : session.overlay.get path = none) :
    visibleHash (mergedFiles services stores session) path = visibleHash stores.files path := by
  apply visibleHash_congr
  apply sameAt_applied_of_ne
  intro entry member normal
  rw [normal_of_isFilePath (filePaths entry member)] at normal
  cases normal
  rw [PlainObject.mem_entries.mp member] at unstaged
  cases unstaged

theorem sameAt_merged (services : SessionServices) (stores : SessionStores)
    (filePaths : StagesFilePaths session) {entry : Text × Option Text}
    (member : entry ∈ session.overlay.entries) :
    Store.SameAt entry.1 (mergedFiles services stores session)
      (entryApplied services stores.clock session.id stores.files entry) :=
  sameAt_applied filePaths session.overlay.nodup_entries member

theorem visibleHash_merged_of_some (filePaths : StagesFilePaths session)
    {staged : Option Text} (found : session.overlay.get path = some staged) :
    visibleHash (mergedFiles services stores session) path =
      visibleHash (entryApplied services stores.clock session.id stores.files
        (path, staged)) path :=
  visibleHash_congr (sameAt_merged services stores filePaths (PlainObject.mem_entries.mpr found))

theorem visibleHash_removed (filePaths : StagesFilePaths session)
    (found : session.overlay.get path = some none) :
    visibleHash (entryApplied services stores.clock session.id stores.files
      (path, none)) path = none := by
  have normal := normal_of_isFilePath (filePaths (path, none) (PlainObject.mem_entries.mpr found))
  unfold visibleHash entryApplied
  simp only [normal, Store.latest_remove_self, Option.map_none, ite_self]

theorem merged_differs_iff (filePaths : StagesFilePaths session) :
    changesBetween (baseHash (baseEntries stores session))
        (visibleHash (mergedFiles services stores session)) = session.overlay.get ↔
      RecordsCondition services stores session := by
  rw [changesBetween_eq_iff]
  constructor
  · intro differ
    refine ⟨?_, ?_, ?_⟩
    · intro path unstaged
      have here := differ path
      simp only [unstaged] at here
      rw [← here, visibleHash_merged_of_none filePaths unstaged]
    · intro path staged found
      have here := differ path
      simp only [found] at here
      exact here.2
    · intro path hash found
      have here := differ path
      simp only [found] at here
      rw [← visibleHash_merged_of_some filePaths found]
      exact here.1
  · intro condition path
    cases found : session.overlay.get path with
    | none =>
      dsimp only
      rw [visibleHash_merged_of_none filePaths found]
      exact condition.noDrift path found
    | some staged =>
      refine ⟨?_, condition.fresh path staged found⟩
      rw [visibleHash_merged_of_some filePaths found]
      cases staged with
      | none => exact visibleHash_removed filePaths found
      | some hash => exact condition.visible path hash found

end

/-- The stores of the session with the staged content, and a file of another
member under a path. -/
def driftedStores (path : Text) : SessionStores := {
  stagedStores (some "hx".toList) (shadowPath "s".toList "a".toList) with
    files := (stagedStores (some "hx".toList)
        (shadowPath "s".toList "a".toList)).files.write plainServices.sha256
      0 path "y".toList "text/plain".toList none }

/-- The staged content was stored before. -/
def storedBefore : SessionStores :=
  { stagedStores (some "hx".toList) (shadowPath "s".toList "a".toList) with clock := 1 }

end Aprovan.Vcs
