import Aprovan.Apps.InstallTrees
import Aprovan.Fs.Methods

/-!
# Updates that fail

An update clears the root of the installation, copies the files of the
origin one after the other and saves the record last.  The file store may
fail at each of these steps, and nothing is put back then.
-/

namespace Aprovan.Apps

open Aprovan.Library Aprovan.Server Aprovan.Fs Aprovan.Vcs

/-- Where an update fails that has passed its checks: while it still reads,
in the removal, or when so many files are copied; behind the last one it is
the fingerprint or the record that fails. -/
inductive UpdateFault where
  | reading (thrown : ServiceError)
  | removing (gone : Text → Bool) (thrown : ServiceError)
  | copying (written : Nat) (thrown : ServiceError)

variable (services : InstallServices)

def updateStart (fuel : Nat) (origin : Origin) (installer : Installer)
    (installId : Text) (confirmOverwrite : Bool) :
    Ended (AppInstallation × Text × AppManifest × ResolvedPin) × Origin :=
  match updateSite services origin installer installId confirmOverwrite with
  | .error thrown => (.threw thrown, origin)
  | .ok (install, root, manifest) =>
    match resolveUpdatePin services fuel origin manifest with
    | (.endless, reached) => (.endless, reached)
    | (.threw thrown, reached) => (.threw thrown, reached)
    | (.answered resolved, reached) => (.answered (install, root, manifest, resolved), reached)

/-- `applyUpdate` with a store that fails.  SQLite removes in one statement,
DSQL in batches of paths. -/
def applyUpdateUnder (fuel : Nat) (fault : UpdateFault) (origin : Origin)
    (installer : Installer) (installId : Text) (confirmOverwrite : Bool) :
    InstallRun AppInstallation :=
  match updateStart services fuel origin installer installId confirmOverwrite with
  | (.endless, reached) => nothingCopied .endless reached installer
  | (.threw thrown, reached) => nothingCopied (.threw thrown) reached installer
  | (.answered (_, root, manifest, resolved), reached) =>
    match fault with
    | .reading thrown => nothingCopied (.threw thrown) reached installer
    | .removing gone thrown =>
      nothingCopied (.threw thrown) reached { installer with
          store := installer.store.keep fun row =>
            !(installer.store.backend = .dsql &&
              Store.clears .dsql root row.path && gone row.path) }
    | .copying written thrown =>
      let cleared := (installer.store.removePrefix root).2
      match rematerialize reached manifest resolved root with
      | .error other => nothingCopied (.threw other) reached { installer with store := cleared }
      | .ok copies =>
        { outcome := .threw thrown
          copies := copies.take written
          origin := reached
          installer := { installer with
              store := writeCopies services cleared
                (copies.take written) } }

def AppInstallation.currentPin (install : AppInstallation) : CommitPin :=
  match install.pin with
  | .commit pin => pin
  | _ => {
      tag := install.resolvedRelease.filter (· ≠ [])
      commit := install.resolvedRelease.getD "unknown".toList }

structure UpdateCheckResult where
  current : CommitPin
  available : Option CommitPin
  originAvailable : Bool
  message : Option Text

def updateMessage (available : CommitPin) : Text :=
  match available.tag.filter (· ≠ []) with
  | some tag => "v(".toList ++ tag ++ ") available".toList
  | none => "commit ".toList ++ available.commit.take 8 ++ " available".toList

def pinChanged (available current : CommitPin) : Bool :=
  available.commit ≠ current.commit || available.tag.getD [] ≠ current.tag.getD []

def updateCheck (fuel : Nat) (origin : Origin) (installer : Installer) (installId : Text) :
    Ended UpdateCheckResult × Origin :=
  match installer.installs.find? (·.installId = installId) with
  | none => (.threw (unknownInstall installId), origin)
  | some install =>
    match origin.readApp install.originAppId with
    | none =>
      (.answered {
        current := install.currentPin
        available := none
        originAvailable := false
        message := some "Origin unavailable".toList }, origin)
    | some manifest =>
      match resolveCommitPin services fuel origin manifest none with
      | (.endless, reached) => (.endless, reached)
      | (.threw thrown, reached) => (.threw thrown, reached)
      | (.answered available, reached) =>
        let changed := pinChanged available install.currentPin
        (.answered {
          current := install.currentPin
          available := if changed then some available else none
          originAvailable := true
          message :=
            if changed then some (updateMessage available) else none },
          reached)

/-- The same versions are stored at and below a root. -/
def SameUnder (root : Text) (first second : Store) : Prop :=
  ∀ row, underPath row.path root = true → (row ∈ first.rows ↔ row ∈ second.rows)

/-- A call that throws leaves the files of the installation and the records
as they were. -/
def LeavesInstall (installer : Installer) (installId : Text) (run : InstallRun AppInstallation) :
    Prop :=
  ∀ thrown, run.outcome = .threw thrown → run.installer.installs = installer.installs ∧
    ∀ install root, installer.installs.find? (·.installId = installId) = some install →
      install.installRoot = some root → SameUnder root run.installer.store installer.store

/-- An update fails without a trace, wherever it fails, and after one that
succeeds no update is reported in the origin it has left. -/
structure UpdateAtomic (fuel : Nat) (origin : Origin) (installer : Installer)
    (installId : Text) (confirmOverwrite : Bool) : Prop where
  throws : LeavesInstall installer installId
    (applyUpdate services fuel origin installer installId confirmOverwrite)
  fails : ∀ fault, LeavesInstall installer installId
    (applyUpdateUnder services fuel fault origin installer installId confirmOverwrite)
  settles : ∀ updated,
    let run := applyUpdate services fuel origin installer installId confirmOverwrite
    run.outcome = .answered updated → ∃ check last,
        updateCheck services fuel run.origin run.installer installId =
          (.answered check, last) ∧ check.available = none

/-- The file is stored already as it would be written now, and no version of
it would have to go. -/
def Stored (base : Store) (copy : Copy) : Prop :=
  let versioned := !isServicePath copy.dest
  let written := Store.writtenRow services.sha256 services.now copy.dest
    copy.content copy.mimeType versioned
  written ∈ base.rows ∧ ∀ row ∈ base.rows, row.path = copy.dest →
      Store.survivesWrite base.backend versioned copy.dest written.hash row = true ∨ row = written

/-- The records from before the tags are turned into tags at the first try,
or else nothing is found but the fingerprint of the live files. -/
def PinStays (fuel : Nat) (origin reached : Origin) (manifest : AppManifest) : Prop :=
  (migrateLegacyReleasesIfNeeded services.toVcsServices origin manifest.appId).1 = .ok () ∨
  ∀ pin, (resolveReleaseTag services.toVcsServices fuel reached
      manifest.appId none).1 = .answered pin →
    pin.tag.getD [] = [] ∧ pin.commit = fingerprintRoot services origin.store manifest.originRoot

/-- The checks refuse the call; or it clears nothing that is stored under the
root, each file to be copied is there already, and the pin stays. -/
def UpdateCondition (fuel : Nat) (origin : Origin) (installer : Installer)
    (installId : Text) (confirmOverwrite : Bool) : Prop :=
  ∀ install root manifest resolved reached,
    updateStart services fuel origin installer installId confirmOverwrite =
      (.answered (install, root, manifest, resolved), reached) →
    (∀ row ∈ installer.store.rows, underPath row.path root = true →
      Store.clears installer.store.backend root row.path = false) ∧
    ∀ copies, rematerialize reached manifest resolved root = .ok copies →
      (∀ copy ∈ copies, Stored services installer.store copy) ∧
        PinStays services fuel origin reached manifest

section

variable (services : InstallServices) {root : Text} {base store : Store}

theorem sameUnder_removePrefix_iff :
    SameUnder root (base.removePrefix root).2 base ↔
      ∀ row ∈ base.rows, underPath row.path root = true →
        Store.clears base.backend root row.path = false := by
  have kept : ∀ row, row ∈ (base.removePrefix root).2.rows ↔ row ∈ base.rows ∧
        Store.clears base.backend root row.path = false := by
    intro row
    simp [Store.removePrefix, Store.keep]
  constructor
  · intro same row member below
    exact ((kept row).mp ((same row below).mpr member)).2
  · intro spared row below
    rw [kept]
    exact ⟨And.left, fun member => ⟨member, spared row member below⟩⟩

theorem underPath_place (relative : Text) : underPath (place root relative) root = true := by
  rw [place, isUnder_iff]
  split
  · exact Or.inl rfl
  · exact Or.inr ⟨relative, rfl⟩

theorem below_of_rematerialize {origin : Origin} {manifest : AppManifest}
    {resolved : ResolvedPin} {copies : List Copy}
    (made : rematerialize origin manifest resolved root = .ok copies) :
    ∀ copy ∈ copies, underPath copy.dest root = true := by
  have tree := rematerialize_tree origin manifest resolved root
  rw [made] at tree
  obtain ⟨found, _, same⟩ := Option.map_eq_some_iff.mp tree.symm
  intro copy member
  rw [← same] at member
  cases found with
  | pinned held =>
    obtain ⟨entry, _, copied⟩ := List.mem_filterMap.mp member
    obtain ⟨file, _, rfl⟩ := Option.map_eq_some_iff.mp copied
    exact underPath_place _
  | live =>
    obtain ⟨pathPrefix, _, inner⟩ := List.mem_flatMap.mp member
    obtain ⟨entry, _, copied⟩ := List.mem_filterMap.mp inner
    obtain ⟨file, _, rfl⟩ := Option.map_eq_some_iff.mp copied
    exact underPath_place _

variable {copy : Copy} {copies : List Copy}

theorem sameUnder_write_iff (sameBackend : store.backend = base.backend)
    (same : SameUnder root store base) (below : underPath copy.dest root = true) :
    SameUnder root (writeCopies services store [copy]) base ↔ Stored services base copy := by
  have wrote : ∀ row, row ∈ (writeCopies services store [copy]).rows ↔ _ :=
    fun row => Store.mem_rows_write
  simp only [Option.getD_none, sameBackend] at wrote
  constructor
  · intro stays
    constructor
    · exact (stays _ below).mp ((wrote _).mpr (Or.inr rfl))
    · intro row member isDest
      rw [← isDest] at below
      exact ((wrote row).mp ((stays row below).mpr member)).imp_left And.right
  · intro stored row isBelow
    rw [wrote]
    constructor
    · intro member
      rcases member with ⟨older, _⟩ | rfl
      · exact (same row isBelow).mp older
      · exact stored.1
    · intro member
      by_cases isDest : row.path = copy.dest
      · exact (stored.2 row member isDest).imp_left
          fun survives => ⟨(same row isBelow).mpr member, survives⟩
      · left
        exact ⟨(same row isBelow).mpr member,
          by simp [Store.survivesWrite, isDest]⟩

/-- However many files are copied, the root is as before exactly when it was
so without them and each of them is there already. -/
theorem sameUnder_writeCopies_iff (sameBackend : store.backend = base.backend)
    (below : ∀ copy ∈ copies, underPath copy.dest root = true) :
    (∀ count, SameUnder root (writeCopies services store (copies.take count)) base) ↔
    SameUnder root store base ∧ ∀ copy ∈ copies, Stored services base copy := by
  induction copies generalizing store with
  | nil => simp [writeCopies]
  | cons copy rest ih =>
    have later := @ih (writeCopies services store [copy]) sameBackend
      fun other member => below other (List.mem_cons_of_mem _ member)
    have written := fun same : SameUnder root store base =>
      sameUnder_write_iff services sameBackend same (below copy List.mem_cons_self)
    constructor
    · intro stays
      have same := stays 0
      have rests := later.mp fun count => stays (count + 1)
      exact ⟨same, List.forall_mem_cons.mpr ⟨(written same).mp rests.1, rests.2⟩⟩
    · intro ⟨same, stored⟩ count
      obtain ⟨first, others⟩ := List.forall_mem_cons.mp stored
      cases count with
      | zero => exact same
      | succ count => exact later.mpr ⟨(written same).mpr first, others⟩ count

/-- The copies of an update leave the root as it was exactly when nothing is
cleared there and each of them is there already. -/
theorem sameUnder_copied_iff {origin : Origin} {manifest : AppManifest} {resolved : ResolvedPin}
    (made : rematerialize origin manifest resolved root = .ok copies) :
    (∀ count, SameUnder root (writeCopies services
      (base.removePrefix root).2 (copies.take count)) base) ↔
    (∀ row ∈ base.rows, underPath row.path root = true →
      Store.clears base.backend root row.path = false) ∧
      ∀ copy ∈ copies, Stored services base copy := by
  rw [← sameUnder_removePrefix_iff]
  exact sameUnder_writeCopies_iff services rfl (below_of_rematerialize made)

end

section

variable (services : VcsServices) (fuel : Nat) {origin reached : Origin}
  {appId : Text}

theorem resolveReleaseTag_migrated
    (migrated : migrateLegacyReleasesIfNeeded services origin appId = (.ok (), reached)) :
    resolveReleaseTag services fuel origin appId none =
      ((match lookupRelease reached appId fuel defaultChannel with
        | .endless => .endless
        | .threw thrown => .threw thrown
        | .answered (some release) => .answered {
            tag := some release.releaseId
            commit := release.commitId }
        | .answered none => headPin reached appId), reached) := by
  rw [resolveReleaseTag]
  simp only [Option.filter_none, Option.getD_none, resolveRelease_migrated fuel migrated]
  cases lookupRelease reached appId fuel defaultChannel with
  | endless => rfl
  | threw thrown => rfl
  | answered found => cases found <;> rfl

variable {services : InstallServices} {fuel : Nat} {manifest : AppManifest}
  {resolved : ResolvedPin}

theorem resolveCommitPin_of_tag {pin : CommitPin}
    (tagged : resolveReleaseTag services.toVcsServices fuel origin
      manifest.appId none = (.answered pin, reached)) :
    resolveCommitPin services fuel origin manifest none = (.answered pin, reached) := by
  simp only [resolveCommitPin, Option.bind_none, tagged]

theorem resolveCommitPin_of_threw {thrown : ServiceError}
    (tagged : resolveReleaseTag services.toVcsServices fuel origin
      manifest.appId none = (.threw thrown, reached)) :
    resolveCommitPin services fuel origin manifest none = (.answered {
        tag := none
        commit := fingerprintRoot services reached.store manifest.originRoot }, reached) := by
  simp [resolveCommitPin, tagged, floorPin]

theorem resolveCommitPin_migrated
    (migrated : migrateLegacyReleasesIfNeeded services.toVcsServices origin
      manifest.appId = (.ok (), reached)) :
    resolveCommitPin services fuel origin manifest none =
        resolveCommitPin services fuel reached manifest none ∧
      (resolveCommitPin services fuel reached manifest none).2 = reached := by
  have first := resolveReleaseTag_migrated services.toVcsServices fuel migrated
  have again := resolveReleaseTag_migrated services.toVcsServices fuel (migrate_again migrated)
  constructor
  · simp only [resolveCommitPin, Option.bind_none, first, again]
  · simp only [resolveCommitPin, Option.bind_none, again]
    split
    · next ends => exact (congrArg Prod.snd ends).symm
    · rfl

theorem resolveUpdatePin_eq_ok (ends : resolveUpdatePin services fuel origin manifest =
      (.answered resolved, reached)) :
    ∃ middle, resolveCommitPin services fuel origin manifest none =
        (.answered resolved.pin, middle) ∧
      resolvePinRelease services.toVcsServices fuel middle manifest.appId
          (updateReleasePin resolved.pin) = (.answered resolved.release, reached) := by
  unfold resolveUpdatePin withRelease at ends
  split at ends
  · cases ends
  · cases ends
  · next pin middle found =>
      split at ends
      · cases ends
      · cases ends
      · next looked =>
          cases ends
          exact ⟨middle, found, looked⟩

theorem found_of_resolved {release : Option ResolvedRelease}
    (looked : resolveRelease services.toVcsServices fuel origin appId
      defaultChannel = (.answered release, reached)) :
    (resolveReleaseTag services.toVcsServices fuel reached appId none).1 ≠ .endless := by
  cases migrated : migrateLegacyReleasesIfNeeded services.toVcsServices origin appId with
  | mk outcome last =>
    cases outcome with
    | error thrown =>
      rw [resolveRelease, migrated] at looked
      cases looked
    | ok _ =>
      rw [resolveRelease_migrated _ migrated] at looked
      obtain ⟨isFound, isReached⟩ := Prod.mk.inj looked
      rw [← isReached, resolveReleaseTag_migrated _ _ (migrate_again migrated), isFound]
      cases release with
      | some release => simp
      | none =>
        simp only [headPin]
        split
        · simp
        · split <;> simp

/-- Resolved once more, the pin is the same exactly when the records could
be migrated or nothing else is found. -/
theorem pinStays_iff (ends : resolveUpdatePin services fuel origin manifest =
      (.answered resolved, reached)) :
    (∃ pin last, resolveCommitPin services fuel reached manifest none =
        (.answered pin, last) ∧ pinChanged pin resolved.pin = false) ↔
      PinStays services fuel origin reached manifest := by
  obtain ⟨middle, found, looked⟩ := resolveUpdatePin_eq_ok ends
  cases migrated : migrateLegacyReleasesIfNeeded services.toVcsServices origin manifest.appId with
  | mk outcome first =>
    cases outcome with
    | ok _ =>
      obtain ⟨same, stays⟩ := resolveCommitPin_migrated migrated
      rw [same] at found
      have isFirst : middle = first := by
        rw [found] at stays
        exact stays
      have isReached : reached = first := by
        rw [isFirst, updateReleasePin] at looked
        split at looked
        all_goals
          rw [resolvePinRelease, resolveRelease_migrated _ (migrate_again migrated)] at looked
          exact (congrArg Prod.snd looked).symm
      rw [isReached]
      constructor
      · intro _
        exact Or.inl (congrArg Prod.fst migrated)
      · intro _
        exact ⟨resolved.pin, middle, found, by simp [pinChanged]⟩
    | error thrown =>
      -- the pin is the fingerprint, and the release is looked up again
      have tagged : resolveReleaseTag services.toVcsServices fuel origin
          manifest.appId none = (.threw thrown, first) := by
        simp [resolveReleaseTag, resolveRelease, migrated]
      obtain ⟨isPin, isMiddle⟩ := Prod.mk.inj ((resolveCommitPin_of_threw tagged).symm.trans found)
      have isPin := Ended.answered.inj isPin
      have firstKept : first.store = origin.store := by
        have files := migrateLegacyReleasesIfNeeded_files
          services.toVcsServices manifest.appId origin
        rw [migrated] at files
        exact congrArg Prod.fst files
      have kept := resolveUpdatePin_store services fuel origin manifest
      rw [ends] at kept
      rw [← isPin, ← isMiddle] at looked
      have looked : resolveRelease services.toVcsServices fuel first
          manifest.appId defaultChannel = (.answered resolved.release, reached) := looked
      have found := found_of_resolved looked
      have stays : PinStays services fuel origin reached manifest ↔
          ∀ pin, (resolveReleaseTag services.toVcsServices fuel reached
              manifest.appId none).1 = .answered pin →
            pinChanged pin resolved.pin = false := by
        rw [PinStays, migrated, ← isPin, firstKept]
        simp [pinChanged, and_comm]
      rw [stays]
      cases again : resolveReleaseTag services.toVcsServices fuel reached manifest.appId none with
      | mk ended last =>
        rw [again] at found
        cases ended with
        | endless => exact absurd rfl found
        | threw other =>
          have files := resolveReleaseTag_files
            services.toVcsServices manifest.appId fuel reached none
          rw [again] at files
          have lastKept : last.store = reached.store := congrArg Prod.fst files
          rw [resolveCommitPin_of_threw again, ← isPin, firstKept, lastKept, kept]
          simp [pinChanged]
        | answered pin =>
          rw [resolveCommitPin_of_tag again]
          simp

end

section

variable {services : InstallServices} {fuel : Nat} {origin : Origin}
  {installer : Installer} {installId : Text} {confirmOverwrite : Bool}
  {install : AppInstallation} {root : Text} {manifest : AppManifest}
  {resolved : ResolvedPin} {reached : Origin}

theorem updateStart_eq_ok (started : updateStart services fuel origin installer installId
      confirmOverwrite = (.answered (install, root, manifest, resolved), reached)) :
    updateSite services origin installer installId confirmOverwrite =
        .ok (install, root, manifest) ∧
      resolveUpdatePin services fuel origin manifest = (.answered resolved, reached) := by
  unfold updateStart at started
  split at started
  · cases started
  · next sited =>
      split at started
      · cases started
      · cases started
      · next ends =>
          cases started
          exact ⟨sited, ends⟩

theorem applyUpdate_refused {outcome : Ended _}
    (started : updateStart services fuel origin installer installId
      confirmOverwrite = (outcome, reached)) (refused : ∀ site, outcome ≠ .answered site) :
    (applyUpdate services fuel origin installer installId confirmOverwrite).installer = installer ∧
      ∀ updated, (applyUpdate services fuel origin installer installId
        confirmOverwrite).outcome ≠ .answered updated := by
  cases sited : updateSite services origin installer installId confirmOverwrite with
  | error thrown => simp [applyUpdate, sited, nothingCopied]
  | ok site =>
    obtain ⟨install, root, manifest⟩ := site
    simp only [updateStart, sited] at started
    simp only [applyUpdate, sited]
    cases ends : resolveUpdatePin services fuel origin manifest with
    | mk resolved last =>
      cases resolved with
      | endless => simp [nothingCopied]
      | threw thrown => simp [nothingCopied]
      | answered resolved =>
        rw [ends] at started
        cases started
        exact absurd rfl (refused _)

theorem leavesInstall_of_same {run : InstallRun AppInstallation}
    (same : run.installer = installer) :
    LeavesInstall installer installId run := by
  intro _ _
  rw [same]
  exact ⟨rfl, fun _ _ _ _ _ _ => Iff.rfl⟩

theorem leavesInstall_iff {run : InstallRun AppInstallation} {thrown : ServiceError}
    (sited : updateSite services origin installer installId
      confirmOverwrite = .ok (install, root, manifest)) (ends : run.outcome = .threw thrown)
    (records : run.installer.installs = installer.installs) :
    LeavesInstall installer installId run ↔
      SameUnder root run.installer.store installer.store := by
  obtain ⟨found, isRoot, _⟩ := updateSite_eq_ok sited
  constructor
  · intro unchanged
    exact (unchanged thrown ends).2 install root found isRoot
  · intro same _ _
    refine ⟨records, ?_⟩
    intro other otherRoot again isOther
    cases found.symm.trans again
    cases isRoot.symm.trans isOther
    exact same

/-- Where nothing is cleared and every file is there already, no failure
leaves a trace. -/
theorem leavesInstall_under (started : updateStart services fuel origin installer installId
      confirmOverwrite = (.answered (install, root, manifest, resolved), reached))
    (spared : ∀ row ∈ installer.store.rows, underPath row.path root = true →
        Store.clears installer.store.backend root row.path = false)
    (stored : ∀ copies, rematerialize reached manifest resolved root = .ok copies →
        ∀ copy ∈ copies, Stored services installer.store copy) (fault : UpdateFault) :
    LeavesInstall installer installId
      (applyUpdateUnder services fuel fault origin installer installId confirmOverwrite) := by
  have sited := (updateStart_eq_ok started).1
  simp only [applyUpdateUnder, started]
  cases fault with
  | reading thrown => exact leavesInstall_of_same rfl
  | removing gone thrown =>
    apply (leavesInstall_iff sited rfl rfl).mpr
    intro row below
    have clears := spared row
    simp only [nothingCopied, Store.keep, List.mem_filter]
    cases backend : installer.store.backend with
    | sqlite => simp
    | dsql =>
      rw [backend] at clears
      constructor
      · exact And.left
      · intro member
        exact ⟨member, by simp [clears member below]⟩
  | copying count thrown =>
    cases made : rematerialize reached manifest resolved root with
    | error other =>
      exact (leavesInstall_iff sited rfl rfl).mpr (sameUnder_removePrefix_iff.mpr spared)
    | ok copies =>
      exact (leavesInstall_iff sited rfl rfl).mpr ((sameUnder_copied_iff services made).mpr
          ⟨spared, stored copies made⟩ count)

theorem find?_replaced {updated : AppInstallation}
    (found : installer.installs.find? (·.installId = installId) = some install)
    (sameId : updated.installId = installId) :
    (installer.installs.map fun other =>
        if other.installId = installId then updated else other).find?
          (·.installId = installId) = some updated := by
  have asked : ((fun other : AppInstallation => decide (other.installId = installId)) ∘
      fun other => if other.installId = installId then updated else other) =
      fun other => decide (other.installId = installId) := by
    funext other
    by_cases own : other.installId = installId
    · simp [own, sameId]
    · simp [own]
  rw [List.find?_map, asked, found, Option.map_some, if_pos]
  simpa using List.find?_some found

theorem updateCheck_after (started : updateStart services fuel origin installer installId
      confirmOverwrite = (.answered (install, root, manifest, resolved), reached))
    {copies : List Copy}
    (made : rematerialize reached manifest resolved root = .ok copies) :
    (let run := applyUpdate services fuel origin installer installId confirmOverwrite
      ∃ check last, updateCheck services fuel run.origin run.installer installId =
          (.answered check, last) ∧ check.available = none) ↔
      PinStays services fuel origin reached manifest := by
  obtain ⟨sited, ends⟩ := updateStart_eq_ok started
  obtain ⟨found, _, isManifest⟩ := updateSite_eq_ok sited
  rw [← pinStays_iff ends]
  have sameId : install.installId = installId := by simpa using List.find?_some found
  have files := resolveUpdatePin_files services fuel origin manifest
  rw [ends] at files
  have sameApp : reached.readApp install.originAppId = some manifest := by
    rw [Origin.readApp, show reached.apps = origin.apps from
      congrArg Prod.snd files]
    exact isManifest
  simp only [applyUpdate, sited, ends, made, updateCheck,
    fun store => find?_replaced found (show (updatedInstall services install manifest root resolved
        store).installId = installId from sameId)]
  simp only [updatedInstall, sameApp, AppInstallation.currentPin]
  cases resolveCommitPin services fuel reached manifest none with
  | mk outcome last =>
    cases outcome with
    | endless => simp
    | threw thrown => simp
    | answered pin =>
      have silent : (if pinChanged pin resolved.pin then
          some pin else none) = none ↔ pinChanged pin resolved.pin = false := by
        cases pinChanged pin resolved.pin <;> simp
      simp
      exact silent

variable (services fuel origin installer installId confirmOverwrite)

/-- An update is atomic exactly under the condition. -/
theorem applyUpdate_atomic_iff :
    UpdateAtomic services fuel origin installer installId confirmOverwrite ↔
      UpdateCondition services fuel origin installer installId
        confirmOverwrite := by
  constructor
  · intro atomic install root manifest resolved reached started
    obtain ⟨sited, ends⟩ := updateStart_eq_ok started
    have throws := atomic.throws
    simp only [applyUpdate, sited, ends] at throws
    cases made : rematerialize reached manifest resolved root with
    | error thrown =>
      rw [made] at throws
      exact ⟨sameUnder_removePrefix_iff.mp ((leavesInstall_iff sited rfl rfl).mp throws),
        fun _ impossible => nomatch impossible⟩
    | ok copies =>
      have same : ∀ count, SameUnder root (writeCopies services
          (installer.store.removePrefix root).2 (copies.take count))
          installer.store := by
        intro count
        have fails := atomic.fails (.copying count noLocalCopy)
        simp only [applyUpdateUnder, started, made] at fails
        exact (leavesInstall_iff sited rfl rfl).mp fails
      obtain ⟨spared, stored⟩ := (sameUnder_copied_iff services made).mp same
      refine ⟨spared, ?_⟩
      intro _ isCopies
      cases isCopies
      refine ⟨stored, (updateCheck_after started made).mp ?_⟩
      apply atomic.settles
      simp only [applyUpdate, sited, ends, made]
      rfl
  · intro condition
    cases started : updateStart services fuel origin installer installId confirmOverwrite with
    | mk outcome reached =>
      by_cases refused : ∀ site, outcome ≠ .answered site
      · obtain ⟨same, silent⟩ := applyUpdate_refused started refused
        refine ⟨leavesInstall_of_same same, ?_, ?_⟩
        swap
        · intro updated run answers
          exact absurd answers (silent updated)
        intro fault
        apply leavesInstall_of_same
        rw [applyUpdateUnder, started]
        cases outcome with
        | endless => rfl
        | threw thrown => rfl
        | answered site => exact absurd rfl (refused site)
      · obtain ⟨⟨install, root, manifest, resolved⟩, isSite⟩ :=
          not_forall_not.mp refused
        rw [isSite] at started
        obtain ⟨sited, ends⟩ := updateStart_eq_ok started
        obtain ⟨spared, holds⟩ := condition install root manifest resolved reached started
        refine ⟨?_, leavesInstall_under started spared
          fun copies made => (holds copies made).1, ?_⟩
        · simp only [applyUpdate, sited, ends]
          cases made : rematerialize reached manifest resolved root with
          | error thrown =>
            exact (leavesInstall_iff sited rfl rfl).mpr (sameUnder_removePrefix_iff.mpr spared)
          | ok copies => exact fun _ impossible => nomatch impossible
        · cases made : rematerialize reached manifest resolved root with
          | error thrown =>
            intro updated run answers
            simp [run, applyUpdate, sited, ends, made, nothingCopied] at answers
          | ok copies =>
            intro _ _ _
            exact (updateCheck_after started made).mpr (holds copies made).2

end

/-- Bob's copy of ann's app. -/
def bobsNotes : AppInstallation :=
  newInstall exampleInstallServices "anns".toList "bob".toList notesApp []
    "apps/notes".toList { hosting := .managed, hostingWorkspaceId := none }
    { pin := { tag := none, commit := "c1".toList }, release := none }
    bobsWorkspace.store

def bobsCopy : Installer := { bobsWorkspace with
    store := {
      backend := .sqlite
      rows := [storedFile "apps/notes/ui.tsx".toList]
      keys := by decide }
    installs := [bobsNotes] }

def storeDown : ServiceError where
  message := "database or disk is full".toList
  status := 500

/-- The store fails before the first file is copied, and bob's copy is
gone. -/
theorem applyUpdate_not_atomic :
    ¬ UpdateAtomic exampleInstallServices 3 annsOrigin bobsCopy "01INSTALL".toList true := by
  intro atomic
  have unchanged := atomic.fails (.copying 0 storeDown) storeDown (by decide +kernel)
  have same := unchanged.2 bobsNotes "apps/notes".toList (by decide +kernel) rfl
  have kept := (same (storedFile "apps/notes/ui.tsx".toList) (by decide)).mpr (by decide)
  exact absurd kept (by decide +kernel)

end Aprovan.Apps
