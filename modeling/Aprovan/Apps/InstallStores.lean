import Aprovan.Apps.Install

/-!
# The stores of an installation

Resolving a pin leaves the files of the origin as they are, and the records
from before the tags are migrated once.
-/

namespace Aprovan.Apps

open Aprovan.Library Aprovan.Server Aprovan.Fs Aprovan.Vcs

def Origin.files (origin : Origin) : Store × List AppManifest :=
  (origin.store, origin.apps)

section

variable (services : VcsServices) (appId : Text)

theorem buildLegacyReleaseCommit_files {origin : Origin} {release : LegacyRelease}
    {manifest : Option AppManifest} {built : Option Text × Origin}
    (builds : buildLegacyReleaseCommit services origin appId release manifest = .ok built) :
    built.2.files = origin.files := by
  rw [buildLegacyReleaseCommit, bind_eq_ok_iff] at builds
  obtain ⟨pathPrefix, _, rest⟩ := builds
  split at rest
  · cases rest
    rfl
  · cases rest
    rfl

theorem migrateRelease_files (manifest : Option AppManifest)
    (origin : Origin) (release : LegacyRelease) :
    (migrateRelease services appId manifest origin release).2.files = origin.files := by
  unfold migrateRelease
  simp only
  split
  · rfl
  · split
    · rfl
    · next builds => exact buildLegacyReleaseCommit_files services appId builds
    · next builds =>
        have same := buildLegacyReleaseCommit_files services appId builds
        split
        · exact same
        · split
          · exact same
          · split
            · split <;> exact same
            · exact same

theorem migrateChannel_files (origin : Origin) (pointer : Text × Text) :
    (migrateChannel appId origin pointer).2.files = origin.files := by
  unfold migrateChannel
  split
  · rfl
  · simp only
    split
    · rfl
    · split <;> rfl

theorem forEach_files {Item : Type} {act : Origin → Item → Outcome Unit × Origin}
    (keeps : ∀ origin item, (act origin item).2.files = origin.files)
    (items : List Item) (origin : Origin) :
    (forEach act items origin).2.files = origin.files := by
  induction items generalizing origin with
  | nil => rfl
  | cons item items ih =>
    have one := keeps origin item
    rw [forEach]
    cases acted : act origin item with
    | mk outcome reached =>
      rw [acted] at one
      cases outcome with
      | error thrown => exact one
      | ok _ => exact (ih reached).trans one

theorem migrateLegacyReleasesIfNeeded_files (origin : Origin) :
    (migrateLegacyReleasesIfNeeded services origin appId).2.files = origin.files := by
  unfold migrateLegacyReleasesIfNeeded
  simp only
  split
  · rfl
  · have released := forEach_files (migrateRelease_files services appId (origin.readApp appId))
      ((origin.legacyOf appId).insertionSort fun first second => first.key ≤ second.key) origin
    split
    · next thrown reached migrated =>
        rw [migrated] at released
        exact released
    · next reached migrated =>
        rw [migrated] at released
        have pointed := forEach_files (migrateChannel_files appId)
          (((origin.readApp appId).map (·.channels)).getD []) reached
        split
        · next thrown last moved =>
            rw [moved] at pointed
            exact pointed.trans released
        · next last moved =>
            rw [moved] at pointed
            exact pointed.trans released

theorem resolveRelease_files (fuel : Nat) (origin : Origin) (name : Text) :
    (resolveRelease services fuel origin appId name).2.files = origin.files := by
  have migrated := migrateLegacyReleasesIfNeeded_files services appId origin
  unfold resolveRelease
  split
  · next thrown reached ends =>
      rw [ends] at migrated
      exact migrated
  · next reached ends =>
      rw [ends] at migrated
      exact migrated

theorem resolveReleaseTag_files (fuel : Nat) (origin : Origin) (tag : Option Text) :
    (resolveReleaseTag services fuel origin appId tag).2.files = origin.files := by
  have resolved := resolveRelease_files services appId fuel origin
    ((tag.filter (· ≠ [])).getD defaultChannel)
  unfold resolveReleaseTag
  simp only
  split
  · next ends =>
      rw [ends] at resolved
      exact resolved
  · next ends =>
      rw [ends] at resolved
      exact resolved
  · next ends =>
      rw [ends] at resolved
      exact resolved
  · next ends =>
      rw [ends] at resolved
      split <;> exact resolved

theorem resolvePinRelease_files (fuel : Nat) (origin : Origin) (pin : InstallPin) :
    (resolvePinRelease services fuel origin appId pin).2.files = origin.files := by
  unfold resolvePinRelease
  split
  · split
    · exact resolveRelease_files services appId fuel origin _
    · rfl
  · rfl
  · exact resolveRelease_files services appId fuel origin _
  · exact resolveRelease_files services appId fuel origin _

variable {services appId} {origin reached : Origin}

theorem legacyOf_migrated (migrated : migrateLegacyReleasesIfNeeded services origin appId =
      (.ok (), reached)) :
    reached.legacyOf appId = [] := by
  unfold migrateLegacyReleasesIfNeeded at migrated
  simp only at migrated
  split at migrated
  · next isEmpty =>
      cases migrated
      exact isEmpty
  · split at migrated
    · cases migrated
    · split at migrated
      · cases migrated
      · cases migrated
        simp [Origin.legacyOf, List.filter_filter]

theorem migrate_again (migrated : migrateLegacyReleasesIfNeeded services origin appId =
      (.ok (), reached)) :
    migrateLegacyReleasesIfNeeded services reached appId = (.ok (), reached) := by
  rw [migrateLegacyReleasesIfNeeded]
  exact if_pos (legacyOf_migrated migrated)

theorem resolveRelease_migrated (fuel : Nat)
    (migrated : migrateLegacyReleasesIfNeeded services origin appId =
      (.ok (), reached)) (name : Text) :
    resolveRelease services fuel origin appId name =
      (lookupRelease reached appId fuel name, reached) := by
  rw [resolveRelease, migrated]

end

section

variable (services : InstallServices) (fuel : Nat)

theorem viaTag_files (reached : Origin) (manifest : AppManifest) (pin : Option InstallPin) :
    (match resolveReleaseTag services.toVcsServices fuel reached
          manifest.appId (pin.bind InstallPin.tag) with
        | (.threw thrown, last) =>
          ((.answered (floorPin services last manifest pin thrown), last) :
            Ended CommitPin × Origin)
        | settled => settled).2.files = reached.files := by
  have tagged := resolveReleaseTag_files services.toVcsServices
    manifest.appId fuel reached (pin.bind InstallPin.tag)
  split
  · next ends =>
      rw [ends] at tagged
      exact tagged
  · exact tagged

theorem resolveCommitPin_files (origin : Origin) (manifest : AppManifest)
    (pin : Option InstallPin) :
    (resolveCommitPin services fuel origin manifest pin).2.files = origin.files := by
  unfold resolveCommitPin
  simp only
  split
  · next name =>
      have resolved := resolveRelease_files services.toVcsServices manifest.appId fuel origin name
      split
      · next ends =>
          rw [ends] at resolved
          exact resolved
      · next ends =>
          rw [ends] at resolved
          exact resolved
      · next ends =>
          rw [ends] at resolved
          exact resolved
      · next ends =>
          rw [ends] at resolved
          exact (viaTag_files services fuel _ manifest _).trans resolved
  · exact viaTag_files services fuel origin manifest _

theorem withRelease_files (services : VcsServices) (fuel : Nat) (appId : Text)
    (named : CommitPin → InstallPin) (found : Ended CommitPin × Origin) :
    (withRelease services fuel appId named found).2.files = found.2.files := by
  obtain ⟨outcome, reached⟩ := found
  cases outcome with
  | endless => rfl
  | threw thrown => rfl
  | answered pin =>
    have released := resolvePinRelease_files services appId fuel reached (named pin)
    unfold withRelease
    simp only
    split
    · next ends =>
        rw [ends] at released
        exact released
    · next ends =>
        rw [ends] at released
        exact released
    · next ends =>
        rw [ends] at released
        exact released

variable (origin : Origin) (manifest : AppManifest)

theorem resolveInstallPin_files (asked : Option InstallPin) :
    (resolveInstallPin services fuel origin manifest asked).2.files = origin.files := by
  unfold resolveInstallPin
  rw [withRelease_files]
  split
  · rfl
  · exact resolveCommitPin_files services fuel origin manifest asked

theorem resolveUpdatePin_files :
    (resolveUpdatePin services fuel origin manifest).2.files = origin.files := by
  rw [resolveUpdatePin, withRelease_files]
  exact resolveCommitPin_files services fuel origin manifest none

theorem resolveInstallPin_store (asked : Option InstallPin) :
    (resolveInstallPin services fuel origin manifest asked).2.store = origin.store :=
  congrArg Prod.fst (resolveInstallPin_files services fuel origin manifest asked)

theorem resolveUpdatePin_store :
    (resolveUpdatePin services fuel origin manifest).2.store = origin.store :=
  congrArg Prod.fst (resolveUpdatePin_files services fuel origin manifest)

end

theorem mem_removePrefix {store : Store} {pathPrefix : Text} {row : FsRow}
    (member : row ∈ (store.removePrefix pathPrefix).2.rows) :
    row ∈ store.rows :=
  (List.mem_filter.mp member).1

end Aprovan.Apps
