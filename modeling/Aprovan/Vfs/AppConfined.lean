import Aprovan.Vfs.Delete
import Aprovan.Vfs.Listing

/-!
# What an app session touches

A path argument of an app session leads into the app's root or into a share;
what a listing or a recursive deletion takes besides is what the store's
statement selects, and a listing without a prefix goes by the declared
prefixes.
-/

namespace Aprovan.Vfs

open Aprovan.Library Aprovan.Server Aprovan.Fs Aprovan.Grants Aprovan.Apps

/-- A call without a session; the limit and the cursor of a listing are not
read for apps. -/
inductive AppCall where
  | list (raw commit : Text)
  | read (value : Option Text)
  | write (value : Option Text)
  | delete (value : Option Text) (recursive : Bool)
  | stat (value : Option Text)

def AppCall.writes : AppCall → Bool
  | .write _ => true
  | .delete _ _ => true
  | _ => false

def appContext (userId : Text) (scope : AppPaths) (grants : Option CapabilityGrants) :
    ServiceContext where
  userId := userId
  appScope := some scope
  grants := grants

def resolvedPaths : Outcome Text → List Text
  | .ok path => [path]
  | .error _ => []

theorem mem_resolvedPaths {resolved : Outcome Text} {path : Text} :
    path ∈ resolvedPaths resolved ↔ resolved = .ok path := by
  cases resolved with
  | error thrown => simp [resolvedPaths]
  | ok named => simp [resolvedPaths, eq_comm]

/-- The paths that the store is asked for, and those that it answers with or
removes. -/
def touched (collate : Text → Text → Bool) (ctx : ServiceContext) (state : ListingState) :
    AppCall → List Text
  | .list raw commit =>
    match vfsList collate ctx state ⟨raw, commit, none, none, []⟩ with
    | .answered (.tree entries _) => entries.map FsEntry.path
    | _ => []
  | .read value => resolvedPaths (readPath ctx state.toWorkspace value)
  | .stat value => resolvedPaths (readPath ctx state.toWorkspace value)
  | .write value => resolvedPaths (mutationPath ctx state.toWorkspace value)
  | .delete value recursive =>
    let named := resolvedPaths (mutationPath ctx state.toWorkspace value)
    if recursive then
      named ++ named.flatMap fun path => state.store.paths.filter
        (· ∉ (deleteAt state.store path true).2.paths)
    else named

/-- At or below the app's root, with or without the slashes around it. -/
def inOwnRoot (scope : AppPaths) (path : Text) : Bool :=
  match scope.declaredRoot with
  | none => false
  | some root => root ≠ [] && (underPath path root || inListing (trimSlashes root) path)

/-- In the root or in a share with the mode, and no service state. -/
def Covered (scope : AppPaths) (shares : List WorkspaceShare) (write : Bool) (path : Text) :
    Prop :=
  (inOwnRoot scope path = true ∨ shareAllows shares scope.id path write = true) ∧
    isServicePath path = false
  deriving Decidable

/-- What a listing selects lies at or below a root that is covered, or is
covered itself; what a recursive deletion takes lies at or below the path that
it names, or is covered. -/
def ConfinedWhen (ctx : ServiceContext) (scope : AppPaths) (state : ListingState) : AppCall → Prop
  | .list raw commit =>
    commit = [] → ∀ roots, appListRoots ctx scope state raw = .ok roots →
      ∀ root ∈ roots, ∀ file ∈ state.store.paths,
        (root = [] ∨ Store.selects state.store.backend root file = true) →
          Covered scope state.shares false root ∧ underPath file root = true ∨
            Covered scope state.shares false file
  | .delete value true =>
    ∀ path, mutationPath ctx state.toWorkspace value = .ok path → ∀ file ∈ state.store.paths,
      Store.clears state.store.backend path file = true →
        underPath file path = true ∨ Covered scope state.shares true file
  | _ => True

section

variable {userId : Text} {scope : AppPaths} {shares : List WorkspaceShare}
  {grants : Option CapabilityGrants} {write : Bool} {path : Text}

theorem inOwnRoot_of_resolveAppPath {relative : Text}
    (resolved : resolveAppPath scope relative = .ok path) :
    inOwnRoot scope path = true := by
  rw [resolveAppPath, bind_eq_ok_iff] at resolved
  obtain ⟨root, rooted, named⟩ := resolved
  unfold appRoot at rooted
  unfold inOwnRoot
  cases declared : scope.declaredRoot with
  | none =>
    rw [declared] at rooted
    cases rooted
  | some other =>
    rw [declared] at rooted
    by_cases empty : other = []
    · simp only [if_pos empty] at rooted
      cases rooted
    · simp only [if_neg empty] at rooted
      cases rooted
      have normal := (fsPath_eq_ok_iff.mp (workspacePath_eq_ok_iff.mp named)).1
      have trimmed := (normalizeFsPath_eq_some_iff.mp normal).1
      have below : inListing (trimSlashes root) path = true := by
        unfold inListing
        by_cases whole : trimSlashes root = []
        · simp [whole]
        · rw [trimmed, underPath_trimSlashes relative whole, Bool.or_true]
      simp [empty, below]

theorem covered_of_resolveVfsPath {value : Option Text}
    (resolved : resolveVfsPath (appContext userId scope grants) shares value write = .ok path) :
    Covered scope shares write path := by
  have service : isServicePath path = false := by
    have named := isFilePath_of_resolveVfsPath resolved
    exact (fsPath_eq_ok_iff.mp (fsPath_eq_ok_iff_isFilePath.mpr named)).2
  refine ⟨?_, service⟩
  unfold resolveVfsPath appContext at resolved
  dsimp only at resolved
  cases value with
  | none => cases resolved
  | some text =>
    dsimp only at resolved
    split at resolved
    · rw [bind_eq_ok_iff] at resolved
      obtain ⟨named, _, allowed⟩ := resolved
      split at allowed
      · next shared =>
          cases allowed
          rw [appFsAllowed, Bool.or_eq_true] at shared
          refine shared.imp_left fun own => ?_
          unfold appPathAllowed at own
          unfold inOwnRoot
          cases declared : scope.declaredRoot with
          | none =>
            rw [declared] at own
            cases own
          | some root =>
            rw [declared] at own
            simp only [Bool.and_eq_true] at own ⊢
            exact ⟨own.1, by rw [own.2, Bool.true_or]⟩
      · cases allowed
    · rw [bind_eq_ok_iff] at resolved
      obtain ⟨first, own, again⟩ := resolved
      have first_ : fsPath (some first) = .ok first := by
        rw [resolveAppPath, bind_eq_ok_iff] at own
        obtain ⟨root, _, named⟩ := own
        exact fsPath_self (workspacePath_eq_ok_iff.mp named)
      rw [Except.ok.inj (again.symm.trans first_)]
      exact Or.inl (inOwnRoot_of_resolveAppPath own)

theorem Covered.below {file : Text} (covered : Covered scope shares write path)
    (under : underPath file path = true) :
    Covered scope shares write file := by
  obtain ⟨allowed, service⟩ := covered
  refine ⟨allowed.imp ?_ ?_, ?_⟩
  · intro own
    unfold inOwnRoot at own ⊢
    cases declared : scope.declaredRoot with
    | none =>
      rw [declared] at own
      cases own
    | some root =>
      rw [declared] at own
      simp only [Bool.and_eq_true, Bool.or_eq_true, inListing, decide_eq_true_eq] at own ⊢
      exact ⟨own.1, own.2.imp (isUnder_trans under) (Or.imp_right (isUnder_trans under))⟩
  · intro shared
    unfold shareAllows at shared ⊢
    rw [List.any_eq_true] at shared ⊢
    obtain ⟨share, member, allows⟩ := shared
    refine ⟨share, member, ?_⟩
    simp only [Bool.and_eq_true] at allows ⊢
    exact ⟨⟨isUnder_trans under allows.1.1, allows.1.2⟩, allows.2⟩
  · -- a path above service state is named by one of its segments
    by_contra inside
    have inService : underPath file servicesRoot = true := by simpa [isServicePath] using inside
    rcases isUnder_total inService under with above | belowIt
    · rcases isUnder_iff.mp above with same | ⟨rest, longer⟩
      · rw [← same] at service
        exact absurd service (by decide)
      · have slash : '/' ∈ servicesRoot := by
          rw [longer]
          simp
        exact absurd slash (by decide)
    · exact absurd belowIt (Bool.eq_false_iff.mp service)

end

section

variable (collate : Text → Text → Bool) (userId : Text) (scope : AppPaths)
  (grants : Option CapabilityGrants) (state : ListingState)

theorem mem_touched_list_iff {raw path : Text} :
    path ∈ touched collate (appContext userId scope grants) state (.list raw []) ↔
      ∃ roots, appListRoots (appContext userId scope grants) scope state raw = .ok roots ∧
        ∃ root ∈ roots, path ∈ state.store.paths ∧ (root = [] ∨
            Store.selects state.store.backend root path = true) := by
  have answer : vfsList collate (appContext userId scope grants) state
      ⟨raw, [], none, none, []⟩ = listApp (appContext userId scope grants) scope state
          ⟨raw, [], none, none, []⟩ :=
    rfl
  rw [touched, answer, listApp]
  cases appListRoots (appContext userId scope grants) scope state raw with
  | error thrown => simp
  | ok roots =>
    simp only [Except.ok.injEq, exists_eq_left', List.mem_map, List.mem_flatMap]
    constructor
    · rintro ⟨entry, ⟨root, member, listed⟩, rfl⟩
      exact ⟨root, member, Store.mem_listAll_path_iff.mp ⟨entry, listed, rfl⟩⟩
    · rintro ⟨root, member, takes⟩
      obtain ⟨entry, listed, rfl⟩ := Store.mem_listAll_path_iff.mpr takes
      exact ⟨entry, ⟨root, member, listed⟩, rfl⟩

/-- A call touches covered paths only when all that its listing or its
recursive deletion takes is covered, and then only. -/
theorem app_calls_confined_iff (call : AppCall) :
    (∀ path ∈ touched collate (appContext userId scope grants) state call,
        Covered scope state.shares call.writes path) ↔
      ConfinedWhen (appContext userId scope grants) scope state call := by
  have resolvedRead : ∀ value path,
      readPath (appContext userId scope grants) state.toWorkspace value = .ok path →
        Covered scope state.shares false path :=
    fun value path passes => covered_of_resolveVfsPath (readPath_eq_ok_iff.mp passes).1
  have resolvedWrite : ∀ value path,
      mutationPath (appContext userId scope grants) state.toWorkspace value = .ok path →
        Covered scope state.shares true path :=
    fun value path passes => covered_of_resolveVfsPath (mutationPath_eq_ok_iff.mp passes).1
  cases call with
  | list raw commit =>
    by_cases live : commit = []
    · subst live
      simp only [ConfinedWhen, mem_touched_list_iff, true_imp_iff]
      constructor
      · intro confined roots listed root member file stored taken
        exact Or.inr (confined file ⟨roots, listed, root, member, stored, taken⟩)
      · rintro confined path ⟨roots, listed, root, member, stored, taken⟩
        rcases confined roots listed root member path stored taken with ⟨covered, under⟩ | covered
        · exact covered.below under
        · exact covered
    · have refused : touched collate (appContext userId scope grants) state
          (.list raw commit) = [] := by
        simp [touched, vfsList, stagedSession, live, listCommit,
          requireWorkspaceCaller, appContext]
      rw [refused]
      exact iff_of_true (by simp) fun empty => absurd empty live
  | read value =>
    refine iff_of_true (fun path named => ?_) trivial
    exact resolvedRead value path (mem_resolvedPaths.mp named)
  | stat value =>
    refine iff_of_true (fun path named => ?_) trivial
    exact resolvedRead value path (mem_resolvedPaths.mp named)
  | write value =>
    refine iff_of_true (fun path named => ?_) trivial
    exact resolvedWrite value path (mem_resolvedPaths.mp named)
  | delete value recursive =>
    cases recursive with
    | false =>
      refine iff_of_true (fun path named => ?_) trivial
      exact resolvedWrite value path (mem_resolvedPaths.mp named)
    | true =>
      simp only [ConfinedWhen, touched, if_true, List.mem_append, mem_resolvedPaths,
        List.mem_flatMap, List.mem_filter, decide_eq_true_eq, removed_iff]
      constructor
      · intro confined path passes file stored cleared
        exact Or.inr (confined file (Or.inr ⟨path, passes, stored, cleared⟩))
      · rintro confined file (passes | ⟨path, passes, stored, cleared⟩)
        · exact resolvedWrite value file passes
        · rcases confined path passes file stored cleared with under | covered
          · exact (resolvedWrite value path passes).below under
          · exact covered

end

def annsState : ListingState where
  toWorkspace := annsWorkspace
  sessions := fun _ => none
  commits := fun _ => .error workspaceOnly
  mountEntries := fun _ => []
  history := []

def notesApp (root : String) (declared : List String) : AppPaths where
  id := "app".toList
  name := "notes".toList
  root := some root.toList
  paths := declared.map String.toList

/-- An app at `Docs` deletes a file below `docs`, and an app that declares
the private files lists them. -/
theorem app_calls_not_confined :
    (¬ ∀ path ∈ touched (fun _ _ => true)
          (appContext "bob".toList (notesApp "Docs" ["Docs"]) none) annsState
          (.delete (some []) true),
        Covered (notesApp "Docs" ["Docs"]) [] true path) ∧
      ¬ ∀ path ∈ touched (fun _ _ => true)
          (appContext "bob".toList (notesApp "notes" ["notes", ".users"])
            none) annsState (.list [] []),
        Covered (notesApp "notes" ["notes", ".users"]) [] false path := by
  refine ⟨fun confined => ?_, fun confined => ?_⟩
  · exact absurd (confined lockedPlan (by decide +kernel)) (by decide +kernel)
  · exact absurd (confined annsDiary (by decide +kernel)) (by decide +kernel)

end Aprovan.Vfs
