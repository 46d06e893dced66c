import Aprovan.Library.PlainObject
import Aprovan.Library.Runs

/-!
# Change records of a virtual file system

The memory backend keeps a file under its normalized path.  A record of its
change is kept under the spelling of the caller, and the files of a removed
directory leave none.
-/

namespace Aprovan.Compiler

open Aprovan.Library

/-- Every run of slashes is one slash. -/
def collapseSlashes : Text → Text
  | [] => []
  | letter :: rest =>
    if letter = '/' ∧ rest.head? = some '/' then collapseSlashes rest
    else letter :: collapseSlashes rest

def normalizePath (path : Text) : Text :=
  let collapsed := collapseSlashes path
  let unled := if collapsed.head? = some '/' then collapsed.tail else collapsed
  if unled.getLast? = some '/' then unled.dropLast else unled

/-- The normalized path in front of its last slash. -/
def dirname (path : Text) : Text :=
  ((normalizePath path).reverse.dropWhile (· ≠ '/')).tail.reverse

theorem length_normalizePath_le (path : Text) : (normalizePath path).length ≤ path.length := by
  have collapsed : (collapseSlashes path).length ≤ path.length := by
    fun_induction collapseSlashes path with
    | case1 => exact Nat.le_refl 0
    | case2 letter rest _ ih => exact Nat.le_succ_of_le ih
    | case3 letter rest _ ih => exact Nat.succ_le_succ ih
  unfold normalizePath
  dsimp only
  split <;> split <;> grind [List.length_dropLast, List.length_tail]

theorem length_dirname_lt {path : Text} (named : dirname path ≠ []) :
    (dirname path).length < path.length := by
  have shorter := (List.dropWhile_sublist (· ≠ '/') (l := (normalizePath path).reverse)).length_le
  have bounded := length_normalizePath_le path
  have filled := List.length_pos_iff.mpr named
  simp only [dirname, List.length_reverse, List.length_tail] at shorter filled ⊢
  omega

/-- The error of a missing entry. -/
def noEntry (path : Text) : Text :=
  "ENOENT: ".toList ++ path

structure MemoryBackend where
  files : Table Text
  dirs : List Text

namespace MemoryBackend

variable (backend : MemoryBackend) (path : Text) (recursive : Bool)

def readFile : Except Text Text :=
  match backend.files.get (normalizePath path) with
  | none => .error (noEntry path)
  | some content => .ok content

def writeFile (content : Text) : Except Text MemoryBackend :=
  let normalized := normalizePath path
  let dir := dirname normalized
  if dir ≠ [] ∧ dir ∉ backend.dirs then .error (noEntry dir)
  else .ok { backend with files := backend.files.put normalized content }

def unlink : Except Text MemoryBackend :=
  let normalized := normalizePath path
  if normalized ∈ backend.files.names then
    .ok { backend with files := backend.files.keep (· ≠ normalized) }
  else .error (noEntry path)

def mkdir (path : Text) : Except Text MemoryBackend :=
  let normalized := normalizePath path
  let parent := dirname normalized
  if normalized ∈ backend.dirs then .ok backend
  else if parent ≠ [] ∧ parent ∉ backend.dirs then
    if recursive then
      match mkdir parent with
      | .error thrown => .error thrown
      | .ok made => .ok { made with dirs := made.dirs.insert normalized }
    else .error (noEntry parent)
  else .ok { backend with dirs := backend.dirs.insert normalized }
termination_by path.length
decreasing_by
  rename_i _ missing
  exact (length_dirname_lt missing.1).trans_le (length_normalizePath_le path)

/-- Whether an entry starts with the path of a directory and a slash. -/
def isBelow (normalized entry : Text) : Bool :=
  (normalized ++ ['/']).isPrefixOf entry

def rmdir : Except Text MemoryBackend :=
  let normalized := normalizePath path
  if normalized ∉ backend.dirs then .error (noEntry path)
  else if (backend.files.names.any (isBelow normalized) ||
      backend.dirs.any (isBelow normalized)) && !recursive then
    .error ("ENOTEMPTY: ".toList ++ path)
  else
    let kept := fun entry => !(recursive && isBelow normalized entry)
    .ok {
      files := backend.files.keep kept
      dirs := backend.dirs.filter fun dir => kept dir && dir ≠ normalized }

/-- Whether a file or a directory has the path. -/
def «exists» : Bool :=
  normalizePath path ∈ backend.files.names || normalizePath path ∈ backend.dirs

end MemoryBackend

inductive WatchEventType
  | create
  | update
  | delete
  deriving DecidableEq

structure VirtualFS where
  backend : MemoryBackend
  changes : Table WatchEventType

inductive ChangeCall
  | writeFile (path content : Text)
  | unlink (path : Text)
  | mkdir (path : Text) (recursive : Bool)
  | rmdir (path : Text) (recursive : Bool)

/-- A new file system of its own backend. -/
def newVirtualFS : VirtualFS :=
  ⟨⟨Table.empty, [[]]⟩, Table.empty⟩

namespace VirtualFS

variable (fs : VirtualFS) (path : Text)

def getChanges : List (Text × WatchEventType) :=
  fs.changes.rows

def clearChanges : VirtualFS :=
  { fs with changes := Table.empty }

def recordChange (type : WatchEventType) : VirtualFS :=
  { fs with changes := fs.changes.put path type }

def ensureParentDir : Except Text MemoryBackend :=
  let dir := dirname path
  if dir = [] then .ok fs.backend else fs.backend.mkdir true dir

def writeFile (content : Text) : Except Text Unit × VirtualFS :=
  match fs.ensureParentDir path with
  | .error thrown => (.error thrown, fs)
  | .ok backend =>
    let existed := backend.exists path
    match backend.writeFile path content with
    | .error thrown => (.error thrown, { fs with backend })
    | .ok written => (.ok (), recordChange { fs with backend := written } path
          (if existed then .update else .create))

def unlink : Except Text Unit × VirtualFS :=
  match fs.backend.unlink path with
  | .error thrown => (.error thrown, fs)
  | .ok backend => (.ok (), recordChange { fs with backend } path .delete)

/-- A call that only the backend answers. -/
def passOn : Except Text MemoryBackend → Except Text Unit × VirtualFS
  | .error thrown => (.error thrown, fs)
  | .ok backend => (.ok (), { fs with backend })

def call : ChangeCall → Except Text Unit × VirtualFS
  | .writeFile path content => fs.writeFile path content
  | .unlink path => fs.unlink path
  | .mkdir path recursive => fs.passOn (fs.backend.mkdir recursive path)
  | .rmdir path recursive => fs.passOn (fs.backend.rmdir path recursive)

/-- A record on a tree of files: the current content of a file that was
created or updated, which has to be there, or its removal. -/
def replayRecord (tree : Text → Option Text) (record : Text × WatchEventType) :
    Option (Text → Option Text) :=
  match record.2 with
  | .delete => some (Function.update tree (normalizePath record.1) none)
  | .create | .update =>
    (fs.backend.readFile record.1).toOption.map fun content =>
      Function.update tree (normalizePath record.1) (some content)

def replay (tree : Text → Option Text) : Option (Text → Option Text) :=
  fs.getChanges.foldlM fs.replayRecord tree

/-- The records of a file have the given spelling of its path. -/
def spelledAlike : Bool :=
  fs.changes.names.all fun recorded =>
    normalizePath recorded ≠ normalizePath path || recorded = path

/-- A file is written or removed under the spelling of its record, and a
directory that is removed recursively holds no file. -/
def keepsRecords : ChangeCall → Bool
  | .writeFile path _ => fs.spelledAlike path
  | .unlink path => normalizePath path ∉ fs.backend.files.names || fs.spelledAlike path
  | .mkdir _ _ => true
  | .rmdir path recursive =>
    !recursive || normalizePath path ∉ fs.backend.dirs ||
      fs.backend.files.names.all fun file => !MemoryBackend.isBelow (normalizePath path) file

end VirtualFS

def changeStep (fs : VirtualFS) (call : ChangeCall) : Option VirtualFS :=
  some (fs.call call).2

section

variable {backend made : MemoryBackend} {path : Text} {recursive : Bool}

theorem MemoryBackend.files_mkdir (answered : backend.mkdir recursive path = .ok made) :
    made.files = backend.files := by
  fun_induction MemoryBackend.mkdir backend recursive path generalizing made with
  | case1 =>
    cases answered
    rfl
  | case2 => cases answered
  | case3 path normalized parent _ _ _ parents found =>
    rename_i ih
    cases answered
    exact (ih found :)
  | case4 => cases answered
  | case5 =>
    cases answered
    rfl

/-- Where a recursive removal finds no file, the files stay. -/
theorem MemoryBackend.get_rmdir (answered : backend.rmdir path recursive = .ok made)
    (spared : recursive = true → ∀ file ∈ backend.files.names,
      isBelow (normalizePath path) file = false) (file : Text) :
    made.files.get file = backend.files.get file := by
  unfold MemoryBackend.rmdir at answered
  dsimp only at answered
  split at answered
  · cases answered
  split at answered
  · cases answered
  cases answered
  refine (Table.get_keep _ _ _).trans ?_
  split
  · rfl
  next dropped =>
    symm
    rw [Table.get_eq_none_iff]
    intro held
    apply dropped
    cases recursive with
    | false => rfl
    | true => rw [spared rfl file held]; rfl

variable {fs : VirtualFS} {snapshot : Text → Option Text}

/-- The records are of different files, a removal of each file that is not
there, and a file without one is as it was. -/
structure RecordsComplete (snapshot : Text → Option Text) (fs : VirtualFS) : Prop where
  apart : ∀ first ∈ fs.changes.names, ∀ second ∈ fs.changes.names,
    normalizePath first = normalizePath second → first = second
  current : ∀ path type, fs.changes.get path = some type →
    (type = .delete ↔ fs.backend.files.get (normalizePath path) = none)
  others : ∀ file, file ∉ fs.changes.names.map normalizePath →
    fs.backend.files.get file = snapshot file

theorem RecordsComplete.sameFiles (complete : RecordsComplete snapshot fs)
    (same : ∀ file, backend.files.get file = fs.backend.files.get file) :
    RecordsComplete snapshot { fs with backend } where
  apart := complete.apart
  current path type recorded := by
    rw [same]
    exact complete.current path type recorded
  others file outside := by
    rw [same]
    exact complete.others file outside

theorem RecordsComplete.recordChange (complete : RecordsComplete snapshot fs)
    (alike : fs.spelledAlike path = true) {type : WatchEventType}
    (kind : type = .delete ↔ backend.files.get (normalizePath path) = none)
    (elsewhere : ∀ file, file ≠ normalizePath path →
      backend.files.get file = fs.backend.files.get file) :
    RecordsComplete snapshot (VirtualFS.recordChange { fs with backend } path type) := by
  have own : ∀ recorded ∈ fs.changes.names,
      normalizePath recorded = normalizePath path → recorded = path := by
    simpa [VirtualFS.spelledAlike, Classical.or_iff_not_imp_left] using alike
  constructor
  · intro first firstMember second secondMember same
    rcases Table.mem_names_put.mp firstMember with rfl | firstOld
    · rcases Table.mem_names_put.mp secondMember with rfl | secondOld
      · rfl
      · exact (own second secondOld same.symm).symm
    · rcases Table.mem_names_put.mp secondMember with rfl | secondOld
      · exact own first firstOld same
      · exact complete.apart first firstOld second secondOld same
  · intro other otherType recorded
    by_cases same : other = path
    · subst same
      rw [VirtualFS.recordChange, Table.get_put_self] at recorded
      cases recorded
      exact kind
    · rw [VirtualFS.recordChange, Table.get_put_of_ne _ _ same] at recorded
      have known : other ∈ fs.changes.names := Table.mem_names_iff.mpr ⟨otherType, recorded⟩
      show _ ↔ backend.files.get _ = none
      rw [elsewhere _ fun equal => same (own other known equal)]
      exact complete.current other otherType recorded
  · intro file outside
    have different : file ≠ normalizePath path := by
      rintro rfl
      exact outside (List.mem_map_of_mem (Table.mem_names_put.mpr (Or.inl rfl)))
    refine (elsewhere file different).trans (complete.others file ?_)
    intro inside
    obtain ⟨recorded, member, same⟩ := List.mem_map.mp inside
    exact outside (List.mem_map.mpr ⟨recorded, Table.mem_names_put.mpr (Or.inr member), same⟩)

theorem RecordsComplete.call (complete : RecordsComplete snapshot fs) {call : ChangeCall}
    (kept : fs.keepsRecords call = true) : RecordsComplete snapshot (fs.call call).2 := by
  cases call with
  | writeFile path content =>
    unfold VirtualFS.call VirtualFS.writeFile
    dsimp only
    cases ensured : fs.ensureParentDir path with
    | error thrown => exact complete
    | ok backend =>
      have same : backend.files = fs.backend.files := by
        unfold VirtualFS.ensureParentDir at ensured
        dsimp only at ensured
        split at ensured
        · cases ensured
          rfl
        · exact MemoryBackend.files_mkdir ensured
      dsimp only
      cases answered : backend.writeFile path content with
      | error thrown => exact complete.sameFiles fun _ => by rw [same]
      | ok written =>
        unfold MemoryBackend.writeFile at answered
        dsimp only at answered
        split at answered
        · cases answered
        cases answered
        apply complete.recordChange kept
        · simp only [Table.get_put_self]
          split <;> simp
        · intro file different
          rw [← same]
          exact Table.get_put_of_ne _ _ different
  | unlink path =>
    unfold VirtualFS.call VirtualFS.unlink MemoryBackend.unlink
    dsimp only
    split
    · exact complete
    next backend answered =>
      split at answered
      next held =>
        cases answered
        have alike : fs.spelledAlike path = true := by
          simpa [VirtualFS.keepsRecords, held] using kept
        apply complete.recordChange alike
        · simp [Table.get_keep]
        · intro file different
          simp [Table.get_keep, different]
      next => cases answered
  | mkdir path recursive =>
    unfold VirtualFS.call VirtualFS.passOn
    dsimp only
    split
    · exact complete
    next made answered =>
      exact complete.sameFiles fun _ => by rw [MemoryBackend.files_mkdir answered]
  | rmdir path recursive =>
    unfold VirtualFS.call VirtualFS.passOn
    dsimp only
    split
    · exact complete
    next made answered =>
      apply complete.sameFiles
      apply MemoryBackend.get_rmdir answered
      intro isRecursive file member
      have known : normalizePath path ∈ fs.backend.dirs := by
        by_contra missing
        simp [MemoryBackend.rmdir, missing] at answered
      have spared : ∀ held ∈ fs.backend.files.names,
          MemoryBackend.isBelow (normalizePath path) held = false := by
        simpa [VirtualFS.keepsRecords, isRecursive, known] using kept
      exact spared file member

theorem foldlM_replayRecord {records : List (Text × WatchEventType)} (current : ∀ record ∈ records,
      (record.2 = .delete ↔ fs.backend.files.get (normalizePath record.1) = none))
    (tree : Text → Option Text) :
    records.foldlM fs.replayRecord tree = some fun file =>
      if file ∈ records.map (normalizePath ·.1) then fs.backend.files.get file
      else tree file := by
  induction records generalizing tree with
  | nil => rfl
  | cons record rest ih =>
    have first := current record List.mem_cons_self
    have replayed : fs.replayRecord tree record = some (Function.update tree
        (normalizePath record.1) (fs.backend.files.get (normalizePath record.1))) := by
      obtain ⟨path, type⟩ := record
      unfold VirtualFS.replayRecord MemoryBackend.readFile
      cases held : fs.backend.files.get (normalizePath path) <;> cases type <;>
        simp_all [Except.toOption]
    rw [List.foldlM_cons, replayed, Option.bind_eq_bind, Option.bind_some,
      ih fun other member => current other (List.mem_cons_of_mem _ member)]
    congr 1
    funext file
    by_cases own : file = normalizePath record.1
    · simp [own]
    · have rest : file ∈ (record :: rest).map (normalizePath ·.1) ↔
          file ∈ rest.map (normalizePath ·.1) := by
        rw [List.map_cons, List.mem_cons, or_iff_right own]
      simp only [rest, Function.update_of_ne own]

theorem RecordsComplete.replay (complete : RecordsComplete snapshot fs) :
    fs.replay snapshot = some fs.backend.files.get := by
  refine (foldlM_replayRecord ?_ snapshot).trans (congrArg some (funext fun file => ?_))
  · intro record member
    exact complete.current record.1 record.2 (Table.get_eq_some_iff.mpr member)
  · split
    · rfl
    next outside =>
      refine (complete.others file ?_).symm
      rw [Table.names, List.map_map]
      exact outside

/-- From a snapshot on, the records say how the files changed, one for each. -/
theorem changes_complete {start final : VirtualFS} {calls : List ChangeCall}
    (meets : StepsMeet changeStep (fun fs call => fs.keepsRecords call = true)
      start.clearChanges calls)
    (ran : runFrom changeStep start.clearChanges calls = some final) :
    final.replay start.backend.files.get = some final.backend.files.get ∧
      (final.getChanges.map (normalizePath ·.1)).Nodup := by
  have initial : RecordsComplete start.backend.files.get start.clearChanges :=
    ⟨nofun, nofun, fun _ _ => rfl⟩
  have complete := invariant_of_stepsMeet (RecordsComplete start.backend.files.get)
    (fun _ _ _ holds kept taken => Option.some.inj taken ▸ holds.call kept) initial meets ran
  refine ⟨complete.replay, ?_⟩
  have distinct : (final.changes.names.map normalizePath).Nodup :=
    final.changes.keys.map_on fun first firstMember second secondMember =>
      complete.apart first firstMember second secondMember
  rwa [Table.names, List.map_map] at distinct

end

/-- A note is written and rewritten, another one written and removed. -/
def noteChanges : List ChangeCall :=
  [.mkdir "a/b".toList true, .writeFile "a/b/1.md".toList "one".toList,
    .writeFile "a//2.md".toList "two".toList, .writeFile "a/b/1.md".toList "1".toList,
    .unlink "a//2.md".toList, .unlink "a/2.md".toList, .rmdir "a".toList false]

theorem changes_complete_notes :
    ∃ final, runFrom changeStep newVirtualFS.clearChanges noteChanges = some final ∧
      final.getChanges = [("a/b/1.md".toList, .update), ("a//2.md".toList, .delete)] ∧
      final.replay Table.empty.get = some final.backend.files.get := by
  refine ⟨_, rfl, by decide +kernel, ?_⟩
  exact (@changes_complete newVirtualFS _ noteChanges (by decide +kernel) rfl).1

/-- The files of a removed directory are removed without a record. -/
theorem changes_incomplete :
    ¬ ∀ (start final : VirtualFS) (calls : List ChangeCall),
      runFrom changeStep start.clearChanges calls = some final →
        final.replay start.backend.files.get = some final.backend.files.get ∧
          (final.getChanges.map (normalizePath ·.1)).Nodup := by
  intro law
  let start := (newVirtualFS.writeFile "src/main.ts".toList "x".toList).2
  have same := (law start _ [.rmdir "src".toList true] rfl).1
  have read := congrArg (Option.map (· "src/main.ts".toList)) same
  exact absurd read (by decide +kernel)

end Aprovan.Compiler
