import Aprovan.Library.CachedTable
import Aprovan.Library.Process
import Aprovan.Vfs.Context

/-!
# The mount table

The mounts of a workspace are one record, which `readMounts` keeps in the
process for 30 seconds.  `addMount` and `removeMount` read the table the same
way, write the changed one and drop the cache.  A refused read is taken for an
empty table.
-/

namespace Aprovan.Vcs.MountTable

open Aprovan.Library Aprovan.Server Aprovan.Fs

/-- A value of the `config` of a mount: a string, or anything else. -/
inductive ConfigValue where
  | text (value : Text)
  | other (json : Text)
  deriving DecidableEq

structure MountRecord extends Vfs.VfsMount where
  readwrite : Bool
  config : List (Text × ConfigValue)
  createdBy : Text
  createdAt : Nat
  deriving DecidableEq

structure CachedMounts where
  mounts : List MountRecord
  expiresAt : Nat

def mountsCacheTtlMs : Nat := 30000

/-- What the calls find: the record, the cache of the process, the files of
the workspace and the clock. -/
structure MountStores where
  record : Option (List MountRecord)
  cache : Option CachedMounts
  files : Store
  clock : Nat

def MountStores.mounts (stores : MountStores) : List MountRecord :=
  stores.record.getD []

def MountStores.fresh (stores : MountStores) : Option (List MountRecord) :=
  (stores.cache.filter (stores.clock < ·.expiresAt)).map CachedMounts.mounts

def overlaps (first second : Text) : Bool :=
  underPath first second || underPath second first

inductive MountStatement where
  | cached
  | readRecord
  | fill (mounts : List MountRecord)
  | listNative (pathPrefix : Text)
  | now
  | writeRecord (mounts : List MountRecord)
  | invalidate

abbrev MountStatement.Answer : MountStatement → Type
  | .cached => Option (List MountRecord)
  | .readRecord => Option (List MountRecord)
  | .listNative _ => Bool
  | .now => Nat
  | _ => Unit

inductive MountFailure where
  | store
  | service (error : ServiceError)

def executeMount (refused : Bool) : (statement : MountStatement) → MountStores →
      Except MountFailure statement.Answer × MountStores
  | .cached, stores => (.ok stores.fresh, stores)
  | .readRecord, stores => (if refused then .error .store else .ok stores.record, stores)
  | .fill mounts, stores =>
    (.ok (), { stores with
      cache := some ⟨mounts, stores.clock + mountsCacheTtlMs⟩ })
  | .listNative pathPrefix, stores =>
    (if refused then .error .store
      else .ok (decide (stores.files.listAll pathPrefix ≠ [])), stores)
  | .now, stores => (.ok stores.clock, stores)
  | .writeRecord mounts, stores =>
    if refused then (.error .store, stores)
    else (.ok (), { stores with record := some mounts })
  | .invalidate, stores => (.ok (), { stores with cache := none })

abbrev MountCall := Process MountStatement.Answer MountFailure

def askMounts (statement : MountStatement) : MountCall statement.Answer :=
  Process.perform statement

def refuseMount {Value : Type} (error : ServiceError) : MountCall Value :=
  Process.raise (.service error)

def loadMounts : MountCall (List MountRecord) := do
  let parsed ← (askMounts .readRecord).rescue fun _ => pure none
  pure (parsed.getD [])

def readMounts : MountCall (List MountRecord) := do
  match ← askMounts .cached with
  | some mounts => pure mounts
  | none =>
    let mounts ← loadMounts
    askMounts (.fill mounts)
    pure mounts

def saveMounts (mounts : List MountRecord) : MountCall Unit := do
  askMounts (.writeRecord mounts)
  askMounts .invalidate

structure AddMountOptions where
  (pathPrefix type : Text)
  config : List (Text × ConfigValue)
  mode : Option Text

def notRelativePrefix : ServiceError where
  message := "prefix must be a workspace-relative path".toList
  status := 400

def hiddenPrefix : ServiceError where
  message := "prefix must not be hidden".toList
  status := 400

def crdtReserved : ServiceError where
  message :=
    "Mount type \"crdt\" is reserved — no provider is implemented yet (see docs/vcs-and-sessions.md)".toList
  status := 501

def badMountType : ServiceError where
  message := "type must be \"git\" or \"s3\"".toList
  status := 400

def repoMissing : ServiceError where
  message := "git mounts need config.repo (\"owner/name\")".toList
  status := 400

def bucketMissing : ServiceError where
  message := "s3 mounts need config.bucket".toList
  status := 400

def alreadyMounted (pathPrefix : Text) : ServiceError where
  message := "A mount already covers ".toList ++ pathPrefix
  status := 409

def nativeFiles (pathPrefix : Text) : ServiceError where
  message := pathPrefix ++
    " has workspace file(s) — move or delete them before mounting over it".toList
  status := 409

/-- `typeof config[field] === "string"`. -/
def hasText (config : List (Text × ConfigValue)) (field : Text) : Bool :=
  match config.lookup field with
  | some (.text _) => true
  | _ => false

/-- The checks of `addMount` that need no store. -/
def checkMount (options : AddMountOptions) : Outcome (Text × Vfs.MountType) :=
  match normalizeFsPath options.pathPrefix with
  | none => .error notRelativePrefix
  | some pathPrefix =>
    if pathPrefix.head? = some '.' then .error hiddenPrefix
    else if options.type = "crdt".toList then .error crdtReserved
    else if options.type = Vfs.MountType.git.label then
      if hasText options.config "repo".toList then .ok (pathPrefix, .git)
      else .error repoMissing
    else if options.type = Vfs.MountType.s3.label then
      if hasText options.config "bucket".toList then .ok (pathPrefix, .s3)
      else .error bucketMissing
    else .error badMountType

def newMount (userId : Text) (options : AddMountOptions)
    (checked : Text × Vfs.MountType) (createdAt : Nat) : MountRecord where
  pathPrefix := checked.1
  type := checked.2
  readwrite := options.mode = some "readwrite".toList
  config := options.config
  createdBy := userId
  createdAt := createdAt

def addMount (userId : Text) (options : AddMountOptions) : MountCall MountRecord :=
  match checkMount options with
  | .error error => refuseMount error
  | .ok checked => do
      let mounts ← readMounts
      if mounts.any (overlaps ·.pathPrefix checked.1) then refuseMount (alreadyMounted checked.1)
      else
        let native ← askMounts (.listNative checked.1)
        if native = true then refuseMount (nativeFiles checked.1)
        else
          let createdAt ← askMounts .now
          let mount := newMount userId options checked createdAt
          saveMounts (mounts ++ [mount])
          pure mount

def withoutPrefix (normalized : Option Text) (mounts : List MountRecord) : List MountRecord :=
  mounts.filter fun mount => some mount.pathPrefix ≠ normalized

def removeMount (pathPrefix : Text) : MountCall Bool := do
  let mounts ← readMounts
  let next := withoutPrefix (normalizeFsPath pathPrefix) mounts
  if next.length = mounts.length then pure false
  else
    saveMounts next
    pure true

inductive MountRequest where
  | read
  | add (userId : Text) (options : AddMountOptions)
  | remove (pathPrefix : Text)

inductive MountReply where
  | mounts (mounts : List MountRecord)
  | added (mount : MountRecord)
  | removed (removed : Bool)

def serveMounts : MountRequest → MountCall MountReply
  | .read => do pure (.mounts (← readMounts))
  | .add userId options => do pure (.added (← addMount userId options))
  | .remove pathPrefix => do pure (.removed (← removeMount pathPrefix))

abbrev MountSystem :=
  Concurrent MountStores MountRequest MountStatement.Answer MountFailure MountReply

inductive MountAct where
  | start (request : MountRequest)
  /-- The statement that the call at a position awaits is executed. -/
  | advance (position : Nat) (refused : Bool)
  /-- Others change the files, and time passes. -/
  | around (files : Store) (clock : Nat)

def mountStep (system : MountSystem) : MountAct → Option MountSystem
  | .start request => some (system.start request (serveMounts request))
  | .advance position refused => system.advance executeMount position refused
  | .around files clock =>
    some { system with
      shared := { system.shared with files := files, clock := clock } }

def noMountCalls (files : Store) (clock : Nat) : MountSystem :=
  ⟨⟨none, none, files, clock⟩, [], []⟩

inductive MountChange where
  | add (mount : MountRecord)
  | remove (normalized : Option Text)

def applyChange (mounts : List MountRecord) : MountChange → List MountRecord
  | .add mount => mounts ++ [mount]
  | .remove normalized => withoutPrefix normalized mounts

abbrev MountExecuted := Executed MountStatement.Answer MountFailure

/-- What a call changes that writes a table. -/
def changeOf (request : MountRequest) (written : List MountRecord) : Option MountChange :=
  match request with
  | .read => none
  | .add _ _ => written.getLast?.map .add
  | .remove pathPrefix => some (.remove (normalizeFsPath pathPrefix))

/-- The change that a statement writes, with the position of its call. -/
def savedBy (requests : Nat → Option MountRequest) : MountExecuted → Option (Nat × MountChange)
  | ⟨caller, .writeRecord written, .ok _⟩ =>
    ((requests caller).bind (changeOf · written)).map (caller, ·)
  | _ => none

def completesSave : MountExecuted → Bool
  | ⟨_, .invalidate, .ok _⟩ => true
  | _ => false

def mountLog (requests : Nat → Option MountRequest) :
    SaveLog MountExecuted (Nat × MountChange) (List MountRecord) where
  initial := []
  apply mounts change := applyChange mounts change.2
  saved := savedBy requests
  completes := completesSave

def returnedChange :
    Call MountRequest MountStatement.Answer MountFailure MountReply → Option MountChange
  | ⟨.add _ _, .done (.ok (.added mount))⟩ => some (.add mount)
  | ⟨.remove pathPrefix, .done (.ok (.removed true))⟩ =>
    some (.remove (normalizeFsPath pathPrefix))
  | _ => none

def Apart (mounts : List MountRecord) : Prop :=
  mounts.Pairwise fun first second => overlaps first.pathPrefix second.pathPrefix = false

/-- The changes that were made, each with the position of its call. -/
def changesMade (system : MountSystem) : List (Nat × MountChange) :=
  (mountLog system.requestAt).changes system.history

structure MountsKept (system : MountSystem) : Prop where
  /-- The table is what the changes make of the empty one. -/
  whole : system.shared.mounts = (mountLog system.requestAt).tableOf (changesMade system)
  /-- No change is lost whose call has returned. -/
  among : ∀ (saver : Nat) call change,
    system.calls[saver]? = some call → returnedChange call = some change →
      (saver, change) ∈ changesMade system
  /-- A reader is given what the first of the changes make, and among them
  are those whose calls had ended before it asked anything. -/
  visible : ∀ (reader : Nat) mounts,
    system.calls[reader]? = some ⟨.read, .done (.ok (.mounts mounts))⟩ → ∃ count,
        mounts = (mountLog system.requestAt).tableOf ((changesMade system).take count) ∧
          ∀ (saver : Nat) call change before after, system.calls[saver]? = some call →
              returnedChange call = some change → system.history = before ++ after →
                  (∀ entry ∈ after, entry.caller ≠ saver) →
                    (∀ entry ∈ before, entry.caller ≠ reader) →
                      (saver, change) ∈ (changesMade system).take count
  apart : Apart system.shared.mounts

/-- The history up to the last statement of a call, and since then. -/
def untilOwn (history : List MountExecuted) (position : Nat) : List MountExecuted :=
  (history.reverse.dropWhile (·.caller ≠ position)).reverse

def sinceOwn (history : List MountExecuted) (position : Nat) : List MountExecuted :=
  (history.reverse.takeWhile (·.caller ≠ position)).reverse

/-- A table is written that is the stored one with the call's change, and
put into the cache if it was stored when it was loaded and no save has
completed since. -/
def keepsTable (system : MountSystem) : MountAct → Bool
  | .advance position refused =>
    match system.awaiting position with
    | some (.writeRecord written) =>
      refused || ((system.requestAt position).bind (changeOf · written)).map
          (applyChange system.shared.mounts) = some written
    | some (.fill mounts) =>
      mounts = (mountLog system.requestAt).stored (untilOwn system.history position) &&
        (sinceOwn system.history position).all (!completesSave ·)
    | _ => true
  | _ => true

/-- The table that a call was given, the one it has written, and the one
whose save it has completed. -/
structure MountMemory where
  read : Option (List MountRecord) := none
  written : Option (List MountRecord) := none
  completed : Option (List MountRecord) := none

def MountMemory.after (memory : MountMemory) :
    (statement : MountStatement) → Except MountFailure statement.Answer → MountMemory
  | .cached, .ok (some mounts) => { memory with read := some mounts }
  | .fill mounts, .ok _ => { memory with read := some mounts }
  | .writeRecord mounts, .ok _ => { memory with written := some mounts }
  | .invalidate, .ok _ => { memory with completed := memory.written }
  | _, _ => memory

/-- What a call may write that was given a table. -/
def Makes (request : MountRequest) (base written : List MountRecord) : Prop :=
  match request with
  | .read => False
  | .add _ _ =>
    ∃ mount, written = base ++ [mount] ∧
      ∀ other ∈ base, overlaps other.pathPrefix mount.pathPrefix = false
  | .remove pathPrefix => written = withoutPrefix (normalizeFsPath pathPrefix) base

def mountDiscipline (request : MountRequest) :
    Discipline MountStatement.Answer MountFailure MountMemory where
  admits memory statement :=
    match statement with
    | .writeRecord written => ∃ base, memory.read = some base ∧ Makes request base written
    | _ => True
  possible _ _ _ := True
  remember := MountMemory.after

def mountEnds (request : MountRequest) (memory : MountMemory)
    (outcome : Except MountFailure MountReply) : Prop :=
  match request, outcome with
  | .read, .ok (.mounts mounts) => memory.read = some mounts
  | .add _ _, .ok (.added mount) => ∃ base, memory.completed = some (base ++ [mount])
  | .remove _, .ok (.removed true) => ∃ written, memory.completed = some written
  | .read, .ok _ => False
  | .add _ _, .ok _ => False
  | .remove _, .ok (.removed false) => True
  | .remove _, .ok _ => False
  | _, .error _ => True

section

variable {request : MountRequest} {memory : MountMemory}

/-- What the call answers is the table that it was given. -/
def GivenTable (after : MountMemory) (outcome : Except MountFailure (List MountRecord)) : Prop :=
  ∀ mounts, outcome = .ok mounts → after.read = some mounts

theorem givenTable_error (thrown : MountFailure) : GivenTable memory (.error thrown) := by
  intro mounts impossible
  cases impossible

theorem follows_fill (mounts : List MountRecord) :
    Follows (mountDiscipline request) GivenTable memory
      (askMounts (.fill mounts) >>= fun _ => pure mounts) := by
  refine follows_await trivial (fun thrown _ => givenTable_error thrown) ?_
  intro done _ given same
  cases same
  rfl

theorem follows_readMounts : Follows (mountDiscipline request) GivenTable memory readMounts := by
  refine follows_await trivial (fun thrown _ => givenTable_error thrown) ?_
  intro found _
  cases found with
  | some mounts =>
    intro given same
    cases same
    rfl
  | none =>
    refine ⟨trivial, ?_⟩
    intro loaded _
    cases loaded with
    | error thrown => exact follows_fill []
    | ok parsed => exact follows_fill (parsed.getD [])

theorem follows_saveMounts {base written : List MountRecord}
    (given : memory.read = some base) (makes : Makes request base written) :
    Follows (mountDiscipline request) (fun after outcome => ∀ done, outcome = .ok done →
        after.completed = some written) memory (saveMounts written) := by
  refine ⟨⟨base, given, makes⟩, ?_⟩
  intro answer _
  cases answer with
  | error thrown =>
    intro done impossible
    cases impossible
  | ok done =>
    refine ⟨trivial, ?_⟩
    intro dropped _
    cases dropped with
    | error thrown =>
      intro done impossible
      cases impossible
    | ok done =>
      intro done _
      rfl

def SavedMount (after : MountMemory) (outcome : Except MountFailure MountRecord) : Prop :=
  ∀ mount, outcome = .ok mount → ∃ base, after.completed = some (base ++ [mount])

theorem savedMount_error (thrown : MountFailure) : SavedMount memory (.error thrown) := by
  intro mount impossible
  cases impossible

theorem follows_saveMount {base : List MountRecord} {mount : MountRecord}
    (given : memory.read = some base) (makes : Makes request base (base ++ [mount])) :
    Follows (mountDiscipline request) SavedMount memory
      (saveMounts (base ++ [mount]) >>= fun _ => pure mount) := by
  refine follows_then (follows_saveMounts given makes)
    (fun _ thrown _ => savedMount_error thrown) ?_
  intro after done completed added same
  cases same
  exact ⟨base, completed done rfl⟩

theorem follows_addMount {userId : Text} {options : AddMountOptions} :
    Follows (mountDiscipline (.add userId options)) SavedMount memory
      (addMount userId options) := by
  unfold addMount
  cases checkMount options with
  | error error => exact savedMount_error _
  | ok checked =>
    refine follows_then follows_readMounts (fun _ thrown _ => savedMount_error thrown) ?_
    intro after mounts given
    dsimp only
    split
    · exact savedMount_error _
    next free =>
    have makes : ∀ createdAt, Makes (.add userId options) mounts
        (mounts ++ [newMount userId options checked createdAt]) := by
      intro createdAt
      refine ⟨_, rfl, ?_⟩
      intro other member
      have apart := fun covers => free (List.any_eq_true.mpr ⟨other, member, covers⟩)
      exact Bool.eq_false_iff.mpr apart
    refine ⟨trivial, ?_⟩
    intro listed _
    cases listed with
    | error thrown => exact savedMount_error thrown
    | ok native =>
      cases native with
      | true => exact savedMount_error _
      | false =>
        refine ⟨trivial, ?_⟩
        intro clock _
        cases clock with
        | error thrown => exact savedMount_error thrown
        | ok createdAt => exact follows_saveMount (given mounts rfl) (makes createdAt)

theorem follows_removeMount {pathPrefix : Text} :
    Follows (mountDiscipline (.remove pathPrefix)) (fun after outcome => outcome = .ok true →
        ∃ written, after.completed = some written)
      memory (removeMount pathPrefix) := by
  refine follows_then follows_readMounts ?_ ?_
  · intro after thrown given impossible
    cases impossible
  · intro after mounts given
    dsimp only
    split
    · intro impossible
      cases impossible
    · apply follows_bind
      have makes : Makes (.remove pathPrefix) mounts
          (withoutPrefix (normalizeFsPath pathPrefix) mounts) := rfl
      apply (follows_saveMounts (given mounts rfl) makes).weaken
      intro finished saved completed
      cases saved with
      | error thrown =>
        intro impossible
        cases impossible
      | ok done =>
        intro _
        exact ⟨_, completed done rfl⟩

theorem follows_serveMounts (request : MountRequest) :
    Follows (mountDiscipline request) (mountEnds request) memory (serveMounts request) := by
  cases request with
  | read =>
    refine follows_then follows_readMounts (fun _ _ _ => trivial) ?_
    intro after mounts given
    exact given mounts rfl
  | add userId options =>
    refine follows_then follows_addMount (fun _ _ _ => trivial) ?_
    intro after mount completed
    exact completed mount rfl
  | remove pathPrefix =>
    refine follows_then follows_removeMount (fun _ _ _ => trivial) ?_
    intro after removed completed
    cases removed with
    | false => trivial
    | true => exact completed rfl

end

section

variable {requests : Nat → Option MountRequest}
  {history : List MountExecuted} {position : Nat} {request : MountRequest}

def givesTable : MountExecuted → Option (List MountRecord)
  | ⟨_, .cached, .ok (some mounts)⟩ => some mounts
  | ⟨_, .fill mounts, .ok _⟩ => some mounts
  | _ => none

theorem after_cases (position : Nat) (memory : MountMemory) (statement : MountStatement)
    (answer : Except MountFailure statement.Answer) :
    (∃ mounts, givesTable ⟨position, statement, answer⟩ = some mounts ∧
      memory.after statement answer = { memory with read := some mounts }) ∨
    (∃ mounts, (⟨position, statement, answer⟩ : MountExecuted) =
        ⟨position, .writeRecord mounts, .ok ()⟩ ∧
      memory.after statement answer = { memory with written := some mounts }) ∨
    (completesSave ⟨position, statement, answer⟩ = true ∧ memory.after statement answer =
        { memory with completed := memory.written }) ∨
    memory.after statement answer = memory := by
  cases answer with
  | error thrown => cases statement <;> exact Or.inr (Or.inr (Or.inr rfl))
  | ok value =>
    cases statement with
    | cached =>
      cases value with
      | none => exact Or.inr (Or.inr (Or.inr rfl))
      | some mounts => exact Or.inl ⟨mounts, rfl, rfl⟩
    | fill mounts => exact Or.inl ⟨mounts, rfl, rfl⟩
    | writeRecord mounts => exact Or.inr (Or.inl ⟨mounts, rfl, rfl⟩)
    | invalidate => exact Or.inr (Or.inr (Or.inl ⟨rfl, rfl⟩))
    | _ => exact Or.inr (Or.inr (Or.inr rfl))

variable {statement : MountStatement}
  {answer : Except MountFailure statement.Answer} {memory : MountMemory}

theorem givesTable_of_after {mounts : List MountRecord}
    (remembered : (memory.after statement answer).read = some mounts) :
    givesTable ⟨position, statement, answer⟩ = some mounts ∨ memory.read = some mounts := by
  rcases after_cases position memory statement answer with
    ⟨table, gives, after⟩ | ⟨_, _, after⟩ | ⟨_, after⟩ | after
  · rw [after] at remembered
    rw [gives]
    exact Or.inl remembered
  all_goals
    rw [after] at remembered
    exact Or.inr remembered

variable {written : List MountRecord}

theorem writes_of_after (remembered : (memory.after statement answer).written = some written) :
    (⟨position, statement, answer⟩ : MountExecuted) = ⟨position, .writeRecord written, .ok ()⟩ ∨
      memory.written = some written := by
  rcases after_cases position memory statement answer with
    ⟨_, _, after⟩ | ⟨table, writes, after⟩ | ⟨_, after⟩ | after
  case inr.inl =>
    rw [after] at remembered
    cases remembered
    exact Or.inl writes
  all_goals
    rw [after] at remembered
    exact Or.inr remembered

theorem completes_of_after (remembered : (memory.after statement answer).completed = some written) :
    (completesSave ⟨position, statement, answer⟩ = true ∧ memory.written = some written) ∨
      memory.completed = some written := by
  rcases after_cases position memory statement answer with
    ⟨_, _, after⟩ | ⟨_, _, after⟩ | ⟨completes, after⟩ | after
  case inr.inr.inl =>
    rw [after] at remembered
    exact Or.inl ⟨completes, remembered⟩
  all_goals
    rw [after] at remembered
    exact Or.inr remembered

theorem exists_given_of_read {mounts : List MountRecord}
    (read : (memoryOf (mountDiscipline request) {} history position).read = some mounts) :
    ∃ before entry after, history = before ++ entry :: after ∧
      entry.caller = position ∧ givesTable entry = some mounts := by
  refine memoryOf_induction (mountDiscipline request) {} position
    (fun history memory => memory.read = some mounts →
      ∃ before entry after, history = before ++ entry :: after ∧
        entry.caller = position ∧ givesTable entry = some mounts)
    ?start ?own ?other history read
  case start =>
    intro impossible
    cases impossible
  case own =>
    intro before memory statement answer ih remembered
    rcases givesTable_of_after remembered with gives | held
    · exact ⟨before, _, [], rfl, rfl, gives⟩
    · obtain ⟨front, found, after, rfl, own, gives⟩ :=
        ih held
      refine ⟨front, found, after ++ [⟨position, statement, answer⟩], ?_, own, gives⟩
      rw [List.append_assoc, List.cons_append]
  case other =>
    intro before memory entry _ ih remembered
    obtain ⟨front, found, after, rfl, own, gives⟩ :=
      ih remembered
    refine ⟨front, found, after ++ [entry], ?_, own, gives⟩
    rw [List.append_assoc, List.cons_append]

theorem completed_of_memory {change : MountChange} (asked : requests position = some request)
    (changes : changeOf request written = some change) (remembered :
      (memoryOf (mountDiscipline request) {} history position).completed = some written) :
    (mountLog requests).Completed history (position, change) := by
  have saves : savedBy requests ⟨position, .writeRecord written, .ok ()⟩ =
      some (position, change) := by
    simp [savedBy, asked, changes]
  refine (memoryOf_induction (mountDiscipline request) {} position
    (fun history memory =>
      (memory.written = some written → (position, change) ∈ (mountLog requests).changes history) ∧
      (memory.completed = some written → (mountLog requests).Completed history (position, change)))
    ?start ?own ?other history).2 remembered
  case start =>
    constructor <;> intro impossible <;> cases impossible
  case own =>
    intro before memory statement answer ih
    constructor
    · intro later
      rw [SaveLog.changes_append, List.mem_append]
      rcases @writes_of_after position statement answer memory written later with same | held
      · right
        rw [same]
        exact List.mem_filterMap.mpr ⟨_, List.mem_singleton_self _, saves⟩
      · exact Or.inl (ih.1 held)
    · intro later
      rcases @completes_of_after position statement answer memory written
        later with ⟨completes, held⟩ | held
      · exact ⟨before, _, [], rfl, completes, ih.1 held⟩
      · exact (ih.2 held).append _
  case other =>
    intro before memory entry _ ih
    constructor
    · intro held
      rw [SaveLog.changes_append]
      exact List.mem_append_left _ (ih.1 held)
    · intro held
      exact (ih.2 held).append _

end

def Agrees (requests : Nat → Option MountRequest) (system : MountSystem) : Prop :=
  ∀ position request, system.requestAt position = some request → requests position = some request

structure Settled (requests : Nat → Option MountRequest) (system : MountSystem) : Prop where
  stored : system.shared.mounts = (mountLog requests).stored system.history
  cache : ∀ cached, system.shared.cache = some cached →
    (mountLog requests).Current system.history cached.mounts
  given : ∀ before entry after mounts, system.history = before ++ entry :: after →
      givesTable entry = some mounts → (mountLog requests).Current before mounts
  apart : Apart system.shared.mounts

section

variable {requests : Nat → Option MountRequest} {system next : MountSystem}
  {position : Nat} {request : MountRequest}

theorem untilOwn_append_sinceOwn (history : List MountExecuted) (position : Nat) :
    untilOwn history position ++ sinceOwn history position = history := by
  rw [untilOwn, sinceOwn, ← List.reverse_append,
    List.takeWhile_append_dropWhile, List.reverse_reverse]

variable
  {calls : List (Call MountRequest MountStatement.Answer MountFailure MountReply)}

theorem settled_plain (settled : Settled requests system) {entry : MountExecuted}
    {shared : MountStores} (record : shared.record = system.shared.record)
    (saves : savedBy requests entry = none) (pending : completesSave entry = false)
    (cache : ∀ cached, shared.cache = some cached →
      (mountLog requests).Current system.history cached.mounts)
    (gives : ∀ mounts, givesTable entry = some mounts →
      (mountLog requests).Current system.history mounts) :
    Settled requests ⟨shared, calls, system.history ++ [entry]⟩ where
  stored := by
    rw [SaveLog.stored_unsaved saves, ← settled.stored]
    simp only [MountStores.mounts, record]
  cache := by
    intro cached held
    apply (cache cached held).append
    intro other member
    rw [List.mem_singleton.mp member]
    exact pending
  given := by
    intro before found after mounts split given
    rcases split_of_append_singleton split with
      ⟨rfl, rfl⟩ | ⟨shorter, rfl, older⟩
    · have same : system.history = before := List.append_inj_left' split rfl
      rw [← same]
      exact gives mounts given
    · exact settled.given before found shorter mounts older given
  apart := by
    have apart := settled.apart
    simpa only [MountStores.mounts, record] using apart

theorem settled_written (settled : Settled requests system) (agrees : Agrees requests system)
    (asked : system.requestAt position = some request)
    {base written : List MountRecord} (makes : Makes request base written)
    (keeps : (changeOf request written).map (applyChange system.shared.mounts) = some written) :
    Settled requests ⟨{ system.shared with record := some written }, calls,
      system.history ++ [⟨position, .writeRecord written, .ok ()⟩]⟩ := by
  obtain ⟨change, changes, applied⟩ := Option.map_eq_some_iff.mp keeps
  have saves : (mountLog requests).saved
      ⟨position, .writeRecord written, .ok ()⟩ = some (position, change) := by
    simp [mountLog, savedBy, agrees position request asked, changes]
  refine ⟨?_, ?_, ?_, ?_⟩
  · rw [SaveLog.stored_saved saves, ← settled.stored]
    exact applied.symm
  · intro cached held
    apply (settled.cache cached held).append
    intro other member
    rw [List.mem_singleton.mp member]
    rfl
  · intro before found after mounts split given
    rcases split_of_append_singleton split with
      ⟨rfl, rfl⟩ | ⟨shorter, rfl, older⟩
    · cases given
    · exact settled.given before found shorter mounts older given
  · show Apart written
    rw [← applied]
    cases request with
    | read => cases makes
    | add userId options =>
      obtain ⟨mount, rfl, free⟩ := makes
      have added : change = .add mount := by simpa [changeOf] using changes.symm
      subst added
      have same : system.shared.mounts = base := List.append_inj_left' applied rfl
      refine List.pairwise_append.mpr ⟨settled.apart, List.pairwise_singleton _ _, ?_⟩
      intro first member second new
      rw [List.mem_singleton.mp new]
      rw [same] at member
      exact free first member
    | remove pathPrefix =>
      cases changes
      exact settled.apart.sublist List.filter_sublist

theorem settled_invalidated (settled : Settled requests system) :
    Settled requests ⟨{ system.shared with cache := none }, calls,
      system.history ++ [⟨position, .invalidate, .ok ()⟩]⟩ where
  stored := by
    rw [SaveLog.stored_unsaved rfl, ← settled.stored]
    rfl
  cache := by
    intro cached held
    cases held
  given := by
    intro before found after mounts split given
    rcases split_of_append_singleton split with
      ⟨rfl, rfl⟩ | ⟨shorter, rfl, older⟩
    · cases given
    · exact settled.given before found shorter mounts older given
  apart := settled.apart

theorem stored_congr (agrees : Agrees requests system) (below : HistoryBelow system)
    {entries : List MountExecuted} (inside : ∀ entry ∈ entries, entry ∈ system.history) :
    (mountLog system.requestAt).stored entries = (mountLog requests).stored entries := by
  have saves : ∀ entry ∈ entries, savedBy system.requestAt entry = savedBy requests entry := by
    intro entry member
    have started := below entry (inside entry member)
    have asked := requestAt_of_found (List.getElem?_eq_getElem started)
    have same : system.requestAt entry.caller = requests entry.caller := by
      rw [agrees _ _ asked, asked]
    obtain ⟨caller, statement, answer⟩ := entry
    cases statement <;> cases answer <;> simp only [savedBy] at same ⊢
    rw [same]
  have changes : (mountLog system.requestAt).changes entries =
      (mountLog requests).changes entries :=
    List.filterMap_congr saves
  rw [SaveLog.stored, SaveLog.stored, changes]
  rfl

theorem current_of_keeps (agrees : Agrees requests system) (below : HistoryBelow system)
    {mounts : List MountRecord} (awaiting : system.awaiting position = some (.fill mounts))
    {refused : Bool} (keeps : keepsTable system (.advance position refused) = true) :
    (mountLog requests).Current system.history mounts := by
  simp only [keepsTable, awaiting, Bool.and_eq_true, decide_eq_true_eq,
    List.all_eq_true, Bool.not_eq_true'] at keeps
  obtain ⟨same, pending⟩ := keeps
  refine ⟨_, _, (untilOwn_append_sinceOwn system.history position).symm, ?_, pending⟩
  rw [same]
  apply stored_congr agrees below
  intro entry member
  rw [← untilOwn_append_sinceOwn system.history position]
  exact List.mem_append_left _ member

theorem settled_answered (settled : Settled requests system) (agrees : Agrees requests system)
    (follow : AllFollow mountDiscipline {} mountEnds system) {statement : MountStatement}
    {resume : Except MountFailure statement.Answer → MountCall MountReply}
    (found : system.Awaits position request statement resume) {refused : Bool}
    (keeps : keepsTable system (.advance position refused) = true) :
    Settled requests (system.answered position request statement resume
      (executeMount refused statement system.shared)) := by
  have asked := requestAt_of_found found
  have awaiting : system.awaiting position = some statement := by rw [Concurrent.awaiting, found]
  unfold Concurrent.answered
  cases statement with
  | cached =>
    apply settled_plain settled rfl rfl rfl settled.cache
    intro mounts gives
    have fresh : system.shared.fresh = some mounts := by
      simp only [executeMount] at gives
      cases held : system.shared.fresh with
      | none =>
        rw [held] at gives
        cases gives
      | some table =>
        rw [held] at gives
        exact gives
    obtain ⟨cached, kept, rfl⟩ := Option.map_eq_some_iff.mp fresh
    exact settled.cache cached (Option.filter_eq_some_iff.mp kept).1
  | readRecord =>
    apply settled_plain settled rfl _ rfl settled.cache
    · intro mounts gives
      cases gives
    · rfl
  | fill mounts =>
    have current := current_of_keeps agrees follow.below awaiting keeps
    refine settled_plain settled ?_ rfl rfl ?_ ?_
    · rfl
    · intro cached held
      cases held
      exact current
    · intro other gives
      cases gives
      exact current
  | listNative pathPrefix =>
    apply settled_plain settled rfl rfl rfl settled.cache
    intro mounts gives
    cases gives
  | now =>
    apply settled_plain settled rfl rfl rfl settled.cache
    intro mounts gives
    cases gives
  | writeRecord written =>
    obtain ⟨base, _, makes⟩ := follow.admitted found
    by_cases rejected : refused = true
    · subst rejected
      apply settled_plain settled rfl rfl rfl settled.cache
      intro mounts gives
      cases gives
    · simp only [keepsTable, awaiting, asked, rejected, Bool.false_or,
        Option.bind_some, decide_eq_true_eq] at keeps
      simp only [executeMount, rejected]
      exact settled_written settled agrees asked makes keeps
  | invalidate => exact settled_invalidated settled

end

structure MountsInvariant (system : MountSystem) : Prop where
  follow : AllFollow mountDiscipline {} mountEnds system
  settled : ∀ requests, Agrees requests system → Settled requests system

theorem mountsInvariant_idle (files : Store) (clock : Nat) :
    MountsInvariant (noMountCalls files clock) where
  follow := follows_idle
  settled := by
    intro requests _
    refine ⟨rfl, ?_, ?_, List.Pairwise.nil⟩
    · intro cached held
      cases held
    · intro before entry after mounts split
      have impossible : [] = before ++ entry :: after := split
      simp at impossible

variable {system : MountSystem}

theorem mountsInvariant_mountStep {next : MountSystem} {act : MountAct}
    (holds : MountsInvariant system) (keeps : keepsTable system act = true)
    (taken : mountStep system act = some next) : MountsInvariant next := by
  cases act with
  | start request =>
    cases taken
    refine ⟨follows_start holds.follow (follows_serveMounts request), ?_⟩
    intro requests agrees
    have before : Agrees requests system := by
      intro position asked started
      have inside : position < system.calls.length := by
        obtain ⟨call, found, _⟩ := Option.map_eq_some_iff.mp started
        exact (List.getElem?_eq_some_iff.mp found).1
      apply agrees
      rw [requestAt_start inside]
      exact started
    have settled := holds.settled requests before
    exact ⟨settled.stored, settled.cache, settled.given, settled.apart⟩
  | advance position refused =>
    obtain ⟨request, statement, resume, found, rfl⟩ :=
      advance_eq_some_iff.mp taken
    refine ⟨follows_answered holds.follow found trivial, ?_⟩
    intro requests agrees
    have before : Agrees requests system := by
      intro other asked started
      apply agrees
      rw [requestAt_answered found]
      exact started
    exact settled_answered (holds.settled requests before) before holds.follow found keeps
  | around files clock =>
    cases taken
    refine ⟨⟨holds.follow.below, holds.follow.follow⟩, ?_⟩
    intro requests agrees
    have settled := holds.settled requests agrees
    exact ⟨settled.stored, settled.cache, settled.given, settled.apart⟩

theorem completed_of_returned (follow : AllFollow mountDiscipline {} mountEnds system)
    {saver : Nat} {call : Call MountRequest MountStatement.Answer MountFailure MountReply}
    {change : MountChange} (found : system.calls[saver]? = some call)
    (returned : returnedChange call = some change) {before after : List MountExecuted}
    (split : system.history = before ++ after) (ended : ∀ entry ∈ after, entry.caller ≠ saver) :
    (mountLog system.requestAt).Completed before (saver, change) := by
  have asked := requestAt_of_found found
  have memory : memoryOf (mountDiscipline call.request) {} system.history
      saver = memoryOf (mountDiscipline call.request) {} before saver := by
    rw [split, memoryOf, List.foldl_append]
    exact memoryOf_of_unasked _ _ ended
  have follows := follow.follow saver call found
  rw [memory] at follows
  obtain ⟨request, process⟩ := call
  unfold returnedChange at returned
  split at returned
  · next userId options mount same =>
      cases same
      cases returned
      obtain ⟨base, completed⟩ := follows
      exact completed_of_memory asked (by simp [changeOf]) completed
  · next pathPrefix same =>
      cases same
      cases returned
      obtain ⟨written, completed⟩ := follows
      exact completed_of_memory asked rfl completed
  · cases returned

theorem front_of_apart {before after front rest : List MountExecuted} {entry : MountExecuted}
    (split : before ++ after = front ++ entry :: rest) (apart : entry ∉ before) :
    ∃ middle, front = before ++ middle := by
  rcases List.append_eq_append_iff.mp split with
    ⟨middle, frontSplit, _⟩ | ⟨middle, beforeSplit, whole⟩
  · exact ⟨middle, frontSplit⟩
  · cases middle with
    | nil => exact ⟨[], by rw [beforeSplit, List.append_nil, List.append_nil]⟩
    | cons first later =>
      rw [List.cons_append] at whole
      cases whole
      exact absurd (by rw [beforeSplit]; simp) apart

theorem mountsKept_of_invariant (holds : MountsInvariant system) : MountsKept system := by
  have settled := holds.settled system.requestAt fun _ _ same => same
  refine ⟨settled.stored, ?_, ?_, settled.apart⟩
  · intro saver call change found returned
    have completed := completed_of_returned holds.follow found returned
      (List.append_nil system.history).symm (by simp)
    exact completed.mem_changes
  · intro reader mounts found
    obtain ⟨front, entry, rest, split, own, gives⟩ :=
      exists_given_of_read (holds.follow.ended found)
    have current := settled.given front entry rest mounts split gives
    obtain ⟨count, same, among⟩ := current.sees (entry :: rest)
    rw [← split] at same among
    refine ⟨count, same, ?_⟩
    intro saver call change before after saved returned parts ended begun
    have completed := completed_of_returned holds.follow saved returned parts ended
    have outside : entry ∉ before := fun member => begun entry member own
    obtain ⟨middle, rfl⟩ := front_of_apart (parts.symm.trans split) outside
    exact among _ (completed.append middle)

/-- In a run in which every save finds the table that its call was given, and
every load that is cached is overtaken by no save, no change is lost, and a
reader sees what was changed before it started. -/
theorem mounts_kept {files : Store} {clock : Nat} {acts : List MountAct} {system : MountSystem}
    (meets : StepsMeet mountStep (fun system act => keepsTable system act = true)
      (noMountCalls files clock) acts)
    (executed : runFrom mountStep (noMountCalls files clock) acts =
      some system) : MountsKept system := by
  apply mountsKept_of_invariant
  exact invariant_of_stepsMeet MountsInvariant
    (fun _ _ _ holds keeps taken => mountsInvariant_mountStep holds keeps taken)
    (mountsInvariant_idle files clock) meets executed

def noFilesYet : Store :=
  ⟨.sqlite, [], Fs.Store.keys_nil⟩

def addAt (pathPrefix : Text) : MountRequest :=
  .add "ann".toList {
    pathPrefix := pathPrefix
    type := "git".toList
    config := [("repo".toList, .text "o/n".toList)]
    mode := none }

def advances (position count : Nat) : List MountAct :=
  List.replicate count (.advance position false)

def mountLife : List MountAct :=
  .start (addAt "vendor".toList) :: advances 0 7 ++ .start .read :: advances 1 3 ++
      .start (.remove "/vendor/".toList) :: advances 2 3

theorem mounts_kept_mountLife :
    ∃ system, runFrom mountStep (noMountCalls noFilesYet 0) mountLife = some system ∧
        (changesMade system).map Prod.fst = [0, 2] ∧ MountsKept system := by
  have executed : (runFrom mountStep (noMountCalls noFilesYet 0)
      mountLife).map (fun system => (changesMade system).map Prod.fst) = some [0, 2] := by
    decide +kernel
  obtain ⟨system, reached, changes⟩ := Option.map_eq_some_iff.mp executed
  exact ⟨system, reached, changes, mounts_kept (by decide +kernel) reached⟩

def twoAdds : List MountAct :=
  .start (addAt "a".toList) :: advances 0 5 ++
    .start (addAt "b".toList) :: advances 1 3 ++ advances 0 2 ++ advances 1 2

/-- Both calls return, and one mount is lost. -/
theorem mounts_lost :
    ¬∀ system, runFrom mountStep (noMountCalls noFilesYet 0) twoAdds = some system →
        MountsKept system := by
  intro kept
  have executed : (runFrom mountStep (noMountCalls noFilesYet 0)
      twoAdds).map (fun system => decide (system.shared.mounts =
        (mountLog system.requestAt).tableOf (changesMade system))) = some false := by
    decide +kernel
  obtain ⟨system, reached, lost⟩ := Option.map_eq_some_iff.mp executed
  exact of_decide_eq_false lost (kept system reached).whole

end Aprovan.Vcs.MountTable
