import Aprovan.Apps.InstallStores

/-!
# What an installation copies

What is copied is the tree that the pin resolves to: the files of a snapshot,
or the live ones.
-/

namespace Aprovan.Apps

open Aprovan.Library Aprovan.Server Aprovan.Fs Aprovan.Vcs

/-- The files that a resolved pin stands for: those of a snapshot, or the
live ones. -/
inductive Tree where
  | pinned (snapshot : VcsSnapshot)
  | live

def Tree.copies (origin : Store) (manifest : AppManifest) (root : Text) (tree : Tree) :
    List Copy :=
  match tree with
  | .pinned held => snapshotCopies origin held root
  | .live => copyArchivePaths origin manifest.originPaths root

def commitTree (history : History) (commitId : Text) : Option Tree :=
  (commitSnapshot history commitId).toOption.map Tree.pinned

def installTree (history : History) (resolved : ResolvedPin) : Option Tree :=
  match resolved.release with
  | some release => commitTree history release.commitId
  | none =>
    if resolved.pin.commit ≠ [] then commitTree history resolved.pin.commit <|> some .live
    else some .live

def updateTree (history : History) (resolved : ResolvedPin) : Option Tree :=
  match resolved.release with
  | some release => commitTree history release.commitId
  | none => some .live

section

variable (origin : Origin) (manifest : AppManifest)

theorem materializeCommit_tree (commitId root : Text) :
    (materializeCommit origin commitId root).toOption = (commitTree origin.history commitId).map
        (Tree.copies origin.store manifest root) := by
  unfold materializeCommit commitTree
  cases commitSnapshot origin.history commitId <;> rfl

theorem materialize_tree (resolved : ResolvedPin) (root : Text) :
    (materialize origin manifest resolved root).toOption =
      (installTree origin.history resolved).map (Tree.copies origin.store manifest root) := by
  unfold materialize installTree
  cases resolved.release with
  | some release => exact materializeCommit_tree origin manifest release.commitId root
  | none =>
    simp only
    split
    · have tree := materializeCommit_tree origin manifest resolved.pin.commit root
      cases made : materializeCommit origin resolved.pin.commit root with
      | error thrown =>
        rw [made] at tree
        have missing := Option.map_eq_none_iff.mp tree.symm
        rw [missing]
        rfl
      | ok copies =>
        rw [made] at tree
        obtain ⟨found, isFound, same⟩ :=
          Option.map_eq_some_iff.mp tree.symm
        rw [isFound, ← same]
        rfl
    · rfl

theorem rematerialize_tree (resolved : ResolvedPin) (root : Text) :
    (rematerialize origin manifest resolved root).toOption =
      (updateTree origin.history resolved).map (Tree.copies origin.store manifest root) := by
  unfold rematerialize updateTree
  cases resolved.release with
  | some release => exact materializeCommit_tree origin manifest release.commitId root
  | none => rfl

end

theorem updateSite_eq_ok {services : InstallServices} {manifest : AppManifest}
    {installer : Installer} {origin : Origin} {installId : Text} {confirmOverwrite : Bool}
    {install : AppInstallation} {root : Text}
    (sited : updateSite services origin installer installId
      confirmOverwrite = .ok (install, root, manifest)) :
    installer.installs.find? (·.installId = installId) = some install ∧
      install.installRoot = some root ∧
      origin.readApp install.originAppId = some manifest := by
  unfold updateSite at sited
  split at sited
  · cases sited
  · next found =>
      split at sited
      · cases sited
      · next isRoot =>
          split at sited
          · cases sited
          · next isManifest =>
              split at sited
              · cases sited
              · cases sited
                exact ⟨found, (Option.filter_eq_some_iff.mp isRoot).1, isManifest⟩

/-! An app without a release in a workspace with other documents. -/

def notesApp : AppManifest where
  appId := "01NOTES".toList
  name := "notes".toList
  slug := none
  title := "Notes".toList
  description := none
  root := some "apps/notes".toList
  entry := "apps/notes/ui.tsx".toList
  paths := ["apps/notes".toList]
  createdBy := "ann".toList
  isPublic := true
  channels := []
  hostModes := []
  requires := []

def storedFile (path : Text) : FsRow where
  path := path
  hash := "h".toList
  content := "text".toList
  mimeType := "text/plain".toList
  size := 4
  updatedAt := 0
  versioned := true

def committedFile (path : Text) : SnapshotEntry where
  path := path
  hash := "h".toList
  mimeType := "text/plain".toList
  size := 4

/-- Ann's workspace after one commit of the whole tree on `main`. -/
def annsOrigin : Origin where
  store := {
    backend := .sqlite
    rows := [storedFile "apps/notes/ui.tsx".toList, storedFile "docs/plans.md".toList]
    keys := by decide }
  history := {
    snapshots := [{
      id := "s1".toList
      pathPrefix := []
      entries := [committedFile "apps/notes/ui.tsx".toList,
        committedFile "docs/plans.md".toList] }]
    commits := [{
      snapshot := "s1".toList
      pathPrefix := []
      parents := []
      message := "Save".toList
      author := "ann".toList
      createdAt := 0
      stats := { added := 2, modified := 0, removed := 0 }
      id := "c1".toList }]
    refs := [{ name := "main".toList, commit := "c1".toList }] }
  apps := [notesApp]
  legacy := []

def bobsWorkspace : Installer where
  workspaceId := "bobs".toList
  store := {
    backend := .sqlite
    rows := []
    keys := by decide }
  registry := {
    apps := []
    aliases := []
    rootBindings := []
    slugClaims := [] }
  installs := []

def exampleInstallServices : InstallServices where
  collate := fun first second => first ≤ second
  snapshotId := fun _ pathPrefix => pathPrefix
  commitId := fun body => body.snapshot
  now := 1
  sha256 := id
  mintedId := "01INSTALL".toList
  resolveProfile := fun _ _ => none
  profileGrantsAvailable := true

end Aprovan.Apps
