import Aprovan.Apps.Registry
import Aprovan.Fs.Store

/-!
# Promoting a subtree to an app

`promoteApp` checks that the root `apps/<slug>` is free, copies the files,
mints the record and deletes the source last.  A failure after the copy rolls
the record and the copy back.
-/

namespace Aprovan.Apps

open Aprovan.Library Aprovan.Server Aprovan.Fs

def isNameStart (letter : Char) : Bool :=
  ('a' ≤ letter && letter ≤ 'z') || ('0' ≤ letter && letter ≤ '9')

/-- `/^[a-z0-9][a-z0-9-]{0,63}$/u`. -/
def matchesName (text : Text) : Bool :=
  match text with
  | [] => false
  | first :: rest =>
    isNameStart first && rest.all (fun letter => isNameStart letter || letter = '-') &&
      rest.length ≤ 63

def badAppName : ServiceError where
  message :=
    "app name must match /^[a-z0-9][a-z0-9-]\x7b0,63\x7d$/u".toList
  status := 400

def appName (value : Text) : Outcome Text :=
  if matchesName value then .ok value else .error badAppName

/-- `apps/<slug>`. -/
def slugRoot (slug : Text) : Text :=
  "apps/".toList ++ slug

variable (services : PromoteServices) (store : Store) (registry : Registry)
  (plan : PromotePlan) (source : Text)

def overlappingPromotion (root : Text) : ServiceError where
  message :=
    "Cannot promote \"".toList ++ source ++
      "\" onto overlapping root \"".toList ++ root ++ "\"".toList
  status := 400

def nothingToPromote : ServiceError where
  message := "Nothing to promote at ".toList ++ source
  status := 400

/-- What the arguments of a promotion name. -/
structure PromotePlan where
  (source slug : Text)
  deriving DecidableEq

def PromotePlan.root : Text :=
  slugRoot plan.slug

/-- The checks of the arguments, before any store operation. -/
def planPromotion (slug : Text) : Outcome PromotePlan := do
  let slug ← appName slug
  let source ← workspacePath (some source) "source".toList
  if rootsOverlap source (slugRoot slug) then .error (overlappingPromotion source (slugRoot slug))
  else .ok { source := source, slug := slug }

/-- The checks against the app records. -/
def assertPromotable : Outcome Unit := do
  let _ ← assertRootAvailable registry plan.root none
  match registry.readAlias plan.slug with
  | none => .ok ()
  | some holder => .error (nameHeld plan.slug holder)

/-- `entry.path.slice(source.length).replace(/^\//, "")`. -/
def relativePath (path : Text) : Text :=
  if path = source then []
  else
    match path.drop source.length with
    | [] => []
    | first :: rest => if first = '/' then rest else first :: rest

/-- Where a listed file is copied to. -/
def PromotePlan.target (path : Text) : Text :=
  let relative := relativePath plan.source path
  if relative = [] then plan.root else plan.root ++ '/' :: relative

/-- What the platform supplies: the content hash, the clock, the fresh id,
and the projection of `app.yaml`. -/
structure PromoteServices where
  sha256 : Text → Text
  now : Nat
  mintedId : Text
  loadAppYaml : Text → Option (Option Text × Option Text)

/-- The store while files are copied, and the paths copied so far. -/
structure Copying where
  store : Store
  copied : List Text

/-- Copy one listed file, if it is still there. -/
def copyEntry (copying : Copying) (entry : FsEntry) : Copying :=
  match copying.store.read entry.path none with
  | none => copying
  | some file => {
      store := copying.store.write services.sha256 services.now
        (plan.target entry.path) file.content file.mimeType none
      copied := copying.copied ++ [entry.path] }

def copyEntries (store : Store) (entries : List FsEntry) : Copying :=
  entries.foldl (copyEntry services plan) { store := store, copied := [] }

def entryCandidates : List Text :=
  ["index.tsx".toList, "index.ts".toList, "widget.tsx".toList]

/-- `resolveAppEntry(root)`, with its failures caught: the root itself, a
conventional name, a lone widget, or the first conventional name. -/
def resolveAppEntry (root : Text) : Text :=
  match store.read root none with
  | some _ => root
  | none =>
    let below := root ++ ['/']
    let names := ((store.listAll root).map FsEntry.path).filterMap
      fun path =>
        if below.isPrefixOf path ∧ '/' ∉ path.drop below.length then some (path.drop below.length)
        else none
    match entryCandidates.find? (· ∈ names) with
    | some conventional => below ++ conventional
    | none =>
      match names.filter (".tsx".toList.isSuffixOf ·) with
      | [widget] => below ++ widget
      | _ => below ++ "index.tsx".toList

/-- The record of the promoted app; its title comes from `app.yaml`. -/
def mintRecord (store : Store) (actor : Text) : AppRecord :=
  let yaml :=
    match store.read (plan.root ++ "/app.yaml".toList) none with
    | none => none
    | some file => services.loadAppYaml file.content
  { appId := services.mintedId
    name := plan.slug
    slug := some plan.slug
    title := (yaml.bind Prod.fst).getD plan.slug
    description := yaml.bind Prod.snd
    root := some plan.root
    entry := resolveAppEntry store plan.root
    paths := [plan.root]
    createdBy := actor }

/-- A promotion's outcome, what it leaves, and the files it copied and
deleted on the way. -/
structure PromoteRun where
  outcome : Outcome AppRecord
  store : Store
  registry : Registry
  (copied deleted : List Text)

/-- The paths that `removePrefix` deletes. -/
def clearedPaths (pathPrefix : Text) : List Text :=
  store.paths.filter (Store.clears store.backend pathPrefix)

/-- A call that throws before it touches anything. -/
def refusePromotion (thrown : ServiceError) : PromoteRun where
  outcome := .error thrown
  store := store
  registry := registry
  copied := []
  deleted := []

/-- From the clearing of the new root to the deletion of the source, or the
rollback when the record cannot be saved. -/
def carryOut (actor : Text) : PromoteRun :=
  let entries := store.listAll plan.source
  let cleared := (store.removePrefix plan.root).2
  let copying := copyEntries services plan cleared entries
  let minted := mintRecord services plan copying.store actor
  match saveApp registry minted with
  | (.ok _, saved) => {
      outcome := .ok minted
      store := (copying.store.removePrefix plan.source).2
      registry := saved
      copied := copying.copied
      deleted := clearedPaths store plan.root ++ clearedPaths copying.store plan.source }
  | (.error thrown, saved) => {
      outcome := .error thrown
      store := (copying.store.removePrefix plan.root).2
      registry := (removeApp saved minted.appId).2
      copied := copying.copied
      deleted := clearedPaths store plan.root ++ clearedPaths copying.store plan.root }

/-- `promoteApp({ source, slug, actor })`. -/
def promoteApp (slug actor : Text) : PromoteRun :=
  match planPromotion source slug with
  | .error thrown => refusePromotion store registry thrown
  | .ok plan =>
    match assertPromotable registry plan with
    | .error thrown => refusePromotion store registry thrown
    | .ok _ =>
      if store.listAll plan.source = [] then
        refusePromotion store registry (nothingToPromote plan.source)
      else carryOut services store registry plan actor

/-- The promotion gets past its checks and finds files. -/
def Promotes (slug : Text) (plan : PromotePlan) : Prop :=
  planPromotion source slug = .ok plan ∧ assertPromotable registry plan = .ok () ∧
    store.listAll plan.source ≠ []

theorem promoteApp_cases (slug actor : Text) :
    (∃ plan, Promotes store registry source slug plan ∧
      promoteApp services store registry source slug actor =
        carryOut services store registry plan actor) ∨
    ((∀ plan, ¬ Promotes store registry source slug plan) ∧
      ∃ thrown, promoteApp services store registry source slug actor =
        refusePromotion store registry thrown) := by
  unfold promoteApp
  cases planned : planPromotion source slug with
  | error thrown =>
    right
    refine ⟨?_, thrown, rfl⟩
    intro plan promotes
    rw [promotes.1] at planned
    cases planned
  | ok plan =>
    cases checked : assertPromotable registry plan with
    | error thrown =>
      right
      refine ⟨?_, thrown, by simp only [checked]⟩
      intro other promotes
      have same := promotes.1.symm.trans planned
      cases same
      rw [promotes.2.1] at checked
      cases checked
    | ok _ =>
      by_cases empty : store.listAll plan.source = []
      · right
        refine ⟨?_, nothingToPromote plan.source,
          by simp only [checked, if_pos empty]⟩
        intro other promotes
        have same := promotes.1.symm.trans planned
        cases same
        exact promotes.2.2 empty
      · left
        exact ⟨plan, ⟨planned, checked, empty⟩,
          by simp only [checked, if_neg empty]⟩

/-- Copying adds paths at or below the new root and removes none; the paths
copied are among the listed ones, and include those present from the
start. -/
theorem copyEntries_spec (services : PromoteServices) (plan : PromotePlan)
    (entries : List FsEntry) (start : Copying) :
    let copying := entries.foldl (copyEntry services plan) start
    (∀ path ∈ start.store.paths, path ∈ copying.store.paths) ∧
    (∀ path ∈ copying.store.paths, path ∈ start.store.paths ∨
      ∃ entry ∈ entries, path = plan.target entry.path) ∧
    (∀ path ∈ copying.copied, path ∈ start.copied ∨ ∃ entry ∈ entries, entry.path = path) ∧
    (∀ path ∈ start.copied, path ∈ copying.copied) ∧
    (∀ entry ∈ entries, entry.path ∈ start.store.paths → entry.path ∈ copying.copied) ∧
    copying.store.backend = start.store.backend := by
  induction entries generalizing start with
  | nil => simp
  | cons entry others ih =>
    have later := ih (copyEntry services plan start entry)
    obtain ⟨kept, added, sources, copiedKept, present, backend⟩ := later
    have stepBackend :
        (copyEntry services plan start entry).store.backend = start.store.backend := by
      unfold copyEntry
      split <;> rfl
    have stepPaths : ∀ path, path ∈ (copyEntry services plan start entry).store.paths →
          path ∈ start.store.paths ∨ path = plan.target entry.path := by
      intro path member
      unfold copyEntry at member
      split at member
      · exact Or.inl member
      · exact Store.mem_paths_write.mp member
    have stepKeeps : ∀ path ∈ start.store.paths,
        path ∈ (copyEntry services plan start entry).store.paths := by
      intro path member
      unfold copyEntry
      split
      · exact member
      · exact Store.mem_paths_write.mpr (Or.inl member)
    have stepCopied : ∀ path, path ∈ (copyEntry services plan start entry).copied →
          path ∈ start.copied ∨ path = entry.path := by
      intro path member
      unfold copyEntry at member
      split at member
      · exact Or.inl member
      · simpa using member
    have stepCopiedKeeps : ∀ path ∈ start.copied,
        path ∈ (copyEntry services plan start entry).copied := by
      intro path member
      unfold copyEntry
      split
      · exact member
      · exact List.mem_append_left _ member
    have stepCopies : entry.path ∈ start.store.paths →
        entry.path ∈ (copyEntry services plan start entry).copied := by
      intro stored
      obtain ⟨row, found⟩ := Store.latest_isSome_iff.mpr stored
      simp [copyEntry, Store.read, found]
    refine ⟨?_, ?_, ?_, ?_, ?_, backend.trans stepBackend⟩
    · intro path member
      exact kept path (stepKeeps path member)
    · intro path member
      rcases added path member with before | ⟨other, inOthers, target⟩
      · rcases stepPaths path before with old | target
        · exact Or.inl old
        · exact Or.inr ⟨entry, List.mem_cons_self, target⟩
      · exact Or.inr ⟨other, List.mem_cons_of_mem entry inOthers, target⟩
    · intro path member
      rcases sources path member with before | ⟨other, inOthers, same⟩
      · rcases stepCopied path before with old | rfl
        · exact Or.inl old
        · exact Or.inr ⟨entry, List.mem_cons_self, rfl⟩
      · exact Or.inr ⟨other, List.mem_cons_of_mem entry inOthers, same⟩
    · intro path member
      exact copiedKept path (stepCopiedKeeps path member)
    · intro other member stored
      rcases List.mem_cons.mp member with rfl | inOthers
      · exact copiedKept other.path (stepCopies stored)
      · exact present other inOthers (stepKeeps other.path stored)

end Aprovan.Apps
