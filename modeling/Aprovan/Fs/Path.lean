import Aprovan.Server.ServiceKernel

/-!
# Workspace paths

Normal form of a workspace path, the service subtree that only tool
namespaces may touch, and the two checks through which every path argument
of the file procedures goes.
-/

namespace Aprovan.Fs

open Aprovan.Library Aprovan.Server

/-- Does `path` lie at or below `root`? -/
abbrev underPath (path root : Text) : Bool :=
  isUnder '/' path root

def maxFsPathBytes : Nat := 900

/-- `Buffer.byteLength(path, "utf8")`. -/
def byteLength (text : Text) : Nat :=
  (text.map Char.utf8Size).sum

/-- `raw.replace(/^\/+|\/+$/g, "")`. -/
def trimSlashes (raw : Text) : Text :=
  ((raw.dropWhile (· = '/')).reverse.dropWhile (· = '/')).reverse

def badSegment (segment : Text) : Bool :=
  segment = [] || segment = ['.'] || segment = ['.', '.']

/-- Normalize to `a/b/c` form; rejects traversal, empty segments, and long
paths. -/
def normalizeFsPath (raw : Text) : Option Text :=
  let path := trimSlashes raw
  if path = [] then none
  else if maxFsPathBytes < byteLength path then none
  else
    let segments := splitOn '/' path
    if segments.any badSegment then none else some (joinWith '/' segments)

def servicesRoot : Text := ".services".toList

/-- Service state, managed exclusively through its tool namespaces. -/
def isServicePath (path : Text) : Bool :=
  underPath path servicesRoot

variable {path : Text}

/-- What `normalizeFsPath` accepts and answers. -/
theorem normalizeFsPath_eq_some_iff {raw : Text} :
    normalizeFsPath raw = some path ↔ path = trimSlashes raw ∧ path ≠ [] ∧
        byteLength path ≤ maxFsPathBytes ∧
        (splitOn '/' path).any badSegment = false := by
  simp only [normalizeFsPath]
  by_cases empty : trimSlashes raw = []
  · rw [if_pos empty]
    constructor
    · intro impossible
      cases impossible
    · rintro ⟨rfl, nonempty, _, _⟩
      exact absurd empty nonempty
  rw [if_neg empty]
  by_cases long : maxFsPathBytes < byteLength (trimSlashes raw)
  · rw [if_pos long]
    constructor
    · intro impossible
      cases impossible
    · rintro ⟨rfl, _, short, _⟩
      omega
  rw [if_neg long, joinWith_splitOn]
  by_cases bad : (splitOn '/' (trimSlashes raw)).any badSegment = true
  · rw [if_pos bad]
    constructor
    · intro impossible
      cases impossible
    · rintro ⟨rfl, _, _, good⟩
      rw [bad] at good
      cases good
  · rw [if_neg bad]
    constructor
    · intro same
      cases same
      exact ⟨rfl, empty, by omega, by simpa using bad⟩
    · rintro ⟨rfl, _⟩
      rfl

private theorem dropWhile_twice (text : Text) :
    (text.dropWhile (· = '/')).dropWhile (· = '/') = text.dropWhile (· = '/') := by
  induction text with
  | nil => rfl
  | cons first rest ih =>
    by_cases slash : first = '/'
    · simpa [List.dropWhile_cons, slash] using ih
    · simp [slash]

private theorem head_of_trimmed_end {text rest : Text} {first : Char}
    (trimmed : (text.reverse.dropWhile (· = '/')).reverse = first :: rest) :
    text.head? = some first := by
  have suffix : text.reverse.dropWhile (· = '/') <:+ text.reverse := List.dropWhile_suffix _
  rw [← List.reverse_prefix, trimmed, List.reverse_reverse] at suffix
  obtain ⟨tail, whole⟩ := suffix
  rw [← whole]
  rfl

@[simp]
theorem trimSlashes_trimSlashes (raw : Text) :
    trimSlashes (trimSlashes raw) = trimSlashes raw := by
  have front : (trimSlashes raw).dropWhile (· = '/') = trimSlashes raw := by
    cases trimmed : trimSlashes raw with
    | nil => rfl
    | cons first rest =>
      have start := head_of_trimmed_end trimmed
      have notSlash : first ≠ '/' := by
        rintro rfl
        have twice := dropWhile_twice raw
        cases dropped : raw.dropWhile (· = '/') with
        | nil =>
          rw [dropped] at start
          cases start
        | cons head tail =>
          rw [dropped] at start
          cases start
          rw [dropped] at twice
          have shorter := congrArg List.length twice
          have bound : (tail.dropWhile (· = '/')).length ≤ tail.length :=
            (List.dropWhile_suffix _).length_le
          simp at shorter
          omega
      simp [notSlash]
  unfold trimSlashes at front ⊢
  rw [front, List.reverse_reverse, dropWhile_twice]

theorem trimEnd_append {front back : Text} {letter : Char}
    (ends : front.getLast? = some letter) (notSlash : letter ≠ '/') :
    ((front ++ back).reverse.dropWhile (· = '/')).reverse =
      front ++ (back.reverse.dropWhile (· = '/')).reverse := by
  obtain ⟨init, rfl⟩ := List.getLast?_eq_some_iff.mp ends
  rw [List.reverse_append, List.dropWhile_append]
  split
  · next empty =>
      rw [List.isEmpty_iff.mp empty]
      simp [notSlash]
  · simp

/-- What is appended to a root stays at or below it without its slashes. -/
theorem underPath_trimSlashes {root : Text} (rest : Text) (nonempty : trimSlashes root ≠ []) :
    underPath (trimSlashes (root ++ '/' :: rest)) (trimSlashes root) = true := by
  have opened : root.dropWhile (· = '/') ≠ [] := by
    intro empty
    rw [trimSlashes, empty] at nonempty
    exact nonempty rfl
  have decomposed : root.dropWhile (· = '/') = trimSlashes root ++
        ((root.dropWhile (· = '/')).reverse.takeWhile (· = '/')).reverse := by
    rw [trimSlashes, ← List.reverse_append, List.takeWhile_append_dropWhile, List.reverse_reverse]
  obtain ⟨letter, ends⟩ : ∃ letter, (trimSlashes root).getLast? = some letter :=
    Option.ne_none_iff_exists'.mp (by simpa using nonempty)
  have notSlash : letter ≠ '/' := by
    have kept := List.head?_dropWhile_not (· = '/') (root.dropWhile (· = '/')).reverse
    rw [trimSlashes, List.getLast?_reverse] at ends
    rw [ends] at kept
    simpa using kept
  have whole : trimSlashes (root ++ '/' :: rest) = trimSlashes root ++
      ((((root.dropWhile (· = '/')).reverse.takeWhile (· = '/')).reverse ++
        '/' :: rest).reverse.dropWhile (· = '/')).reverse := by
    rw [← trimEnd_append ends notSlash, ← List.append_assoc, ← decomposed,
      trimSlashes, List.dropWhile_append, if_neg (by simpa using opened)]
  rw [whole, isUnder_iff]
  cases left : ((((root.dropWhile (· = '/')).reverse.takeWhile
      (· = '/')).reverse ++ '/' :: rest).reverse.dropWhile (· = '/')).reverse with
  | nil => exact Or.inl (List.append_nil _)
  | cons first others =>
    right
    refine ⟨others, ?_⟩
    have start := head_of_trimmed_end left
    have slash : first = '/' := by
      cases slashes : ((root.dropWhile (· = '/')).reverse.takeWhile (· = '/')).reverse with
      | nil =>
        rw [slashes] at start
        exact (Option.some.inj start).symm
      | cons head tail =>
        rw [slashes] at start
        have member : head ∈ (root.dropWhile (· = '/')).reverse.takeWhile (· = '/') := by
          rw [← List.mem_reverse, slashes]
          exact List.mem_cons_self
        rw [← Option.some.inj start]
        simpa using List.all_eq_true.mp List.all_takeWhile head member
    rw [slash]

theorem normalizeFsPath_idempotent {raw : Text} (normal : normalizeFsPath raw = some path) :
    normalizeFsPath path = some path := by
  rw [normalizeFsPath_eq_some_iff] at normal ⊢
  obtain ⟨rfl, rest⟩ := normal
  exact ⟨(trimSlashes_trimSlashes raw).symm, rest⟩

def notAFilePath : ServiceError where
  message := "path must be a workspace-relative file path".toList
  status := 400

def serviceStateRefused : ServiceError where
  message :=
    "Service state is managed through its tool namespaces".toList
  status := 403

/-- `Not found: <path>`. -/
def notFound (path : Text) : ServiceError where
  message := "Not found: ".toList ++ path
  status := 404

/-- The path argument of a file procedure; `none` is an argument that is not
a string. -/
def fsPath (value : Option Text) : Outcome Text :=
  match value.bind normalizeFsPath with
  | none => .error notAFilePath
  | some path =>
    if isServicePath path then .error serviceStateRefused else .ok path

variable {value : Option Text}

theorem fsPath_eq_ok_iff :
    fsPath value = .ok path ↔ value.bind normalizeFsPath = some path ∧
        isServicePath path = false := by
  unfold fsPath
  cases value.bind normalizeFsPath with
  | none => simp
  | some normal =>
    by_cases service : isServicePath normal = true
    · simp only [if_pos service, Option.some.injEq]
      constructor
      · intro impossible
        cases impossible
      · rintro ⟨rfl, notService⟩
        rw [service] at notService
        cases notService
    · simp only [if_neg service, Option.some.injEq, Except.ok.injEq]
      constructor
      · rintro rfl
        exact ⟨rfl, by simpa using service⟩
      · exact And.left

theorem fsPath_self (named : fsPath value = .ok path) : fsPath (some path) = .ok path := by
  rw [fsPath_eq_ok_iff] at named ⊢
  obtain ⟨found, notService⟩ := named
  cases value with
  | none => cases found
  | some raw => exact ⟨normalizeFsPath_idempotent found, notService⟩

/-- The paths that file procedures can name. -/
def isFilePath (path : Text) : Bool :=
  normalizeFsPath path = some path && !isServicePath path

theorem fsPath_eq_ok_iff_isFilePath : fsPath (some path) = .ok path ↔ isFilePath path = true := by
  rw [fsPath_eq_ok_iff, isFilePath, Bool.and_eq_true, decide_eq_true_eq, Bool.not_eq_true']
  rfl

theorem isFilePath_of_fsPath (named : fsPath value = .ok path) : isFilePath path = true :=
  fsPath_eq_ok_iff_isFilePath.mp (fsPath_self named)

/-- `workspacePath(value, label)` of the app store: like `fsPath`, with
errors that name the argument. -/
def notAWorkspacePath (label : Text) : ServiceError where
  message := label ++ " must be a workspace path (e.g. apps/liift4/widget.tsx)".toList
  status := 400

def underServices (label : Text) : ServiceError where
  message := label ++ " cannot live under .services/".toList
  status := 400

def workspacePath (value : Option Text) (label : Text) : Outcome Text :=
  match value.bind normalizeFsPath with
  | none => .error (notAWorkspacePath label)
  | some path =>
    if isServicePath path then .error (underServices label) else .ok path

/-- The two checks accept the same paths. -/
theorem workspacePath_eq_ok_iff {label : Text} :
    workspacePath value label = .ok path ↔ fsPath value = .ok path := by
  unfold workspacePath fsPath
  cases value.bind normalizeFsPath with
  | none => simp
  | some normal => by_cases service : isServicePath normal = true <;> simp [service]

end Aprovan.Fs
