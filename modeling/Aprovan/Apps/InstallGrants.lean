import Aprovan.Apps.Install
import Aprovan.Library.Runs

/-!
# Grants of installations

An installation binds contracts to profiles, and the subject `app:<installId>`
is granted each of them.  The grants are a set of pairs beside the record.  Any
statement may be refused, and a refusal ends the call, unless the caller
catches it.  Profile grants are available.
-/

namespace Aprovan.Apps

open Aprovan.Library Aprovan.Server Aprovan.Fs Aprovan.Vcs

structure ConfiguredInstall extends AppInstallation where
  editing : Bool
  config : Text

/-- The profiles that are granted, each with the installation that holds
it. -/
structure InstallStores where
  installs : List ConfiguredInstall := []
  grants : List (Text × Text) := []

namespace InstallStores

def find (stores : InstallStores) (installId : Text) : Option ConfiguredInstall :=
  stores.installs.find? (·.installId = installId)

def write (stores : InstallStores) (install : ConfiguredInstall) : InstallStores :=
  { stores with
    installs := stores.installs.filter (·.installId ≠ install.installId) ++ [install] }

def remove (stores : InstallStores) (installId : Text) : InstallStores :=
  { stores with
    installs := stores.installs.filter (·.installId ≠ installId) }

def grant (installId : Text) (stores : InstallStores) (profileId : Text) : InstallStores :=
  { stores with
    grants := stores.grants.filter (· ≠ (profileId, installId)) ++ [(profileId, installId)] }

def revoke (installId : Text) (stores : InstallStores) (profileId : Text) : InstallStores :=
  { stores with
    grants := stores.grants.filter (· ≠ (profileId, installId)) }

end InstallStores

inductive CallFailure where
  /-- A statement was refused. -/
  | store
  | service (error : ServiceError)

/-- What a call finds around it: what the other services answer, and which
of its statements are refused. -/
structure Around where
  services : InstallServices
  installer : Installer
  readRefused : Bool
  /-- The installation as `saveInstall` reads it again. -/
  rereadRefused : Bool
  origin : Option AppManifest
  /-- The record of `installAsCopy` once the files are copied. -/
  copied : Except CallFailure ConfiguredInstall
  revokes : List Bool
  grants : List Bool
  /-- Whether the pin has a release. -/
  released : Except CallFailure Bool
  forked : Except CallFailure Unit
  (writeRefused removeRefused : Bool)
  purged : Except CallFailure Unit

/-- An argument that has to be an object, where it is given. -/
inductive Given (Value : Type) where
  | absent
  | malformed
  | object (value : Value)

structure ConfigureArgs where
  config : Given Text
  bindings : Given (List (Text × Text))
  editing : Option Bool
  pathPrefix : Option Text

def untilRefused (apply : InstallStores → Text → InstallStores) :
    List Bool → List Text → InstallStores → Bool × InstallStores
  | _, [], stores => (true, stores)
  | refusals, profileId :: rest, stores =>
    if refusals.headD false then (false, stores)
    else untilRefused apply refusals.tail rest (apply stores profileId)

/-- The same, passing over refusals. -/
def overRefusals (apply : InstallStores → Text → InstallStores) :
    List Bool → List Text → InstallStores → InstallStores
  | _, [], stores => stores
  | refusals, profileId :: rest, stores =>
    overRefusals apply refusals.tail rest
      (if refusals.headD false then stores else apply stores profileId)

variable (around : Around) (stores : InstallStores)

def readInstall (installId : Text) : Option ConfiguredInstall :=
  if around.readRefused then none else stores.find installId

def hostingWorkspaceFixed : ServiceError where
  message := "hostingWorkspaceId is immutable at creation".toList
  status := 400

def hostingFixed (hosting : HostingMode) : ServiceError where
  message :=
    "Hosting mode is immutable at creation (was \"".toList ++ hosting.label ++ "\")".toList
  status := 409

/-- The check of `saveInstall` against the stored record. -/
def hostingKept (existing : Option ConfiguredInstall) (install : ConfiguredInstall) :
    Outcome Unit :=
  match existing with
  | none => .ok ()
  | some existing =>
    if existing.hostingWorkspaceId ≠ install.hostingWorkspaceId then .error hostingWorkspaceFixed
    else if existing.hosting ≠ install.hosting then .error (hostingFixed existing.hosting)
    else .ok ()

variable (install : ConfiguredInstall)

def saveInstall : Except CallFailure Unit × InstallStores :=
  let existing :=
    if around.rereadRefused then none else stores.find install.installId
  match hostingKept existing install with
  | .error error => (.error (.service error), stores)
  | .ok _ =>
    if around.writeRefused then (.error .store, stores)
    else (.ok (), stores.write install)

def withGrants (services : InstallServices) : InstallServices :=
  { services with profileGrantsAvailable := true }

/-- `completeInstall`: save the record, then grant what it binds. -/
def completeInstallGranting (originWorkspaceId : Text) (manifest : AppManifest)
    (args : InstallArgs) : Except CallFailure Unit × InstallStores :=
  match installRequest (withGrants around.services) originWorkspaceId
      around.installer manifest args, around.copied with
  | .error error, _ => (.error (.service error), stores)
  | .ok _, .error failure => (.error failure, stores)
  | .ok (bindings, _), .ok minted =>
    let install : ConfiguredInstall := { minted with bindings := bindings }
    match saveInstall around stores install with
    | (.error failure, stores) => (.error failure, stores)
    | (.ok _, stores) =>
      match untilRefused (InstallStores.grant install.installId)
          around.grants (bindings.map Prod.snd) stores with
      | (true, stores) => (.ok (), stores)
      | (false, stores) => (.error .store, stores)

def installRequired : ServiceError where
  message := "install is required".toList
  status := 400

def mustBeObject (field : Text) : ServiceError where
  message := field ++ " must be an object".toList
  status := 400

def noRelease : ServiceError where
  message :=
    "Cannot enable editing: no resolved release to materialize".toList
  status := 400

/-- `installPrefix(value, name)`. -/
def installPrefix (value : Option Text) (name : Text) : Outcome Text :=
  match value.filter (· ≠ []) with
  | none => .ok ("apps/".toList ++ name)
  | some given => workspacePath (some given) "prefix".toList

/-- `{ ...bindings, ...explicit }`. -/
def mergeBindings (bindings explicit : List (Text × Text)) : List (Text × Text) :=
  explicit.foldl (fun merged row => setRow merged row.1 row.2) bindings

/-- What the app requires, or, if it is gone, the contracts that are
bound. -/
def requirementsOf (origin : Option AppManifest) (install : ConfiguredInstall) :
    List AppRequirement :=
  match origin with
  | some manifest => manifest.requires
  | none => install.bindings.map fun row => ⟨row.1, none, false⟩

/-- The profiles of the contracts that change, and those they get. -/
def givenUp (before after : List (Text × Text)) : List Text :=
  (before.filter fun row => after.lookup row.1 ≠ some row.2).map Prod.snd

def taken (before after : List (Text × Text)) : List Text :=
  (after.filter fun row => before.lookup row.1 ≠ some row.2).map Prod.snd

def exchange (resolved : List (Text × Text)) : Bool × InstallStores :=
  match untilRefused (InstallStores.revoke install.installId)
      around.revokes (givenUp install.bindings resolved) stores with
  | (false, stores) => (false, stores)
  | (true, stores) =>
    untilRefused (InstallStores.grant install.installId) around.grants
      (taken install.bindings resolved) stores

def rebindTo (resolved : List (Text × Text)) :
    Except CallFailure (List (Text × Text)) × InstallStores :=
  match exchange around stores install resolved with
  | (false, stores) => (.error .store, stores)
  | (true, stores) => (.ok resolved, stores)

def rebind : Given (List (Text × Text)) → Except CallFailure (List (Text × Text)) × InstallStores
  | .absent => (.ok install.bindings, stores)
  | .malformed => (.error (.service (mustBeObject "bindings".toList)), stores)
  | .object explicit =>
    let (resolved, missing) := resolveBindings (withGrants around.services)
      (requirementsOf around.origin install)
      (some (mergeBindings install.bindings explicit))
    if missing ≠ [] then (.error (.service (bindingMissing missing)), stores)
    else rebindTo around stores install resolved

def originName (origin : Option AppManifest) : Text :=
  match origin with
  | some manifest => manifest.name
  | none => "app".toList

/-- The `editing` and `prefix` arguments; to start editing, the pinned
release is copied. -/
def settleEditing (args : ConfigureArgs) (install next : ConfiguredInstall) :
    Except CallFailure ConfiguredInstall :=
  let name := originName around.origin
  let given := args.pathPrefix.filter (· ≠ [])
  if args.editing = some true ∧ install.editing = false then
    let chosen :=
      match given, install.pathPrefix with
      | some value, _ => installPrefix (some value) name
      | none, some own => .ok own
      | none, none => installPrefix none name
    match chosen, around.released, around.forked with
    | .error error, _, _ => .error (.service error)
    | _, .error failure, _ => .error failure
    | _, .ok false, _ => .error (.service noRelease)
    | _, _, .error failure => .error failure
    | .ok chosen, _, _ => .ok { next with editing := true, pathPrefix := some chosen }
  else if args.editing = some false then .ok { next with editing := false }
  else
    match given with
    | none => .ok next
    | some value =>
      match installPrefix (some value) name with
      | .error error => .error (.service error)
      | .ok chosen => .ok { next with pathPrefix := some chosen }

def withConfig (args : ConfigureArgs) (install : ConfiguredInstall) : Outcome ConfiguredInstall :=
  match args.config with
  | .absent => .ok install
  | .malformed => .error (mustBeObject "config".toList)
  | .object config => .ok { install with config := config }

/-- What `configure` does once the grants have changed. -/
def saveRebound (args : ConfigureArgs) (install next : ConfiguredInstall) :
    Except CallFailure (List (Text × Text)) × InstallStores →
      Except CallFailure Unit × InstallStores
  | (.error failure, stores) => (.error failure, stores)
  | (.ok bindings, stores) =>
    match settleEditing around args install { next with bindings := bindings } with
    | .error failure => (.error failure, stores)
    | .ok next => saveInstall around stores next

/-- `configure`: the grants change before the record does. -/
def configure (installId : Text) (args : ConfigureArgs) :
    Except CallFailure Unit × InstallStores :=
  if installId = [] then (.error (.service installRequired), stores)
  else
    match readInstall around stores installId with
    | none => (.error (.service (unknownInstall installId)), stores)
    | some install =>
      match withConfig args install with
      | .error error => (.error (.service error), stores)
      | .ok next =>
        saveRebound around args install next (rebind around stores install args.bindings)

/-- `uninstall`: what cannot be revoked is passed over. -/
def uninstall (installId : Text) (purge : Bool) : Except CallFailure Unit × InstallStores :=
  if installId = [] then (.error (.service installRequired), stores)
  else
    let stores :=
      match readInstall around stores installId with
      | none => stores
      | some install =>
        overRefusals (InstallStores.revoke install.installId)
          around.revokes (install.bindings.map Prod.snd) stores
    if around.removeRefused then (.error .store, stores)
    else
      let stores := stores.remove installId
      if purge then (around.purged, stores) else (.ok (), stores)

inductive InstallRequest where
  | install (originWorkspaceId : Text) (manifest : AppManifest)
      (args : InstallArgs)
  | configure (installId : Text) (args : ConfigureArgs)
  | uninstall (installId : Text) (purge : Bool)

structure InstallAct where
  request : InstallRequest
  around : Around

def callInstalls (act : InstallAct) : Except CallFailure Unit × InstallStores :=
  match act.request with
  | .install originWorkspaceId manifest args =>
    completeInstallGranting act.around stores originWorkspaceId manifest args
  | .configure installId args => configure act.around stores installId args
  | .uninstall installId purge => uninstall act.around stores installId purge

def mintsNew (act : InstallAct) : Bool :=
  match act.request, act.around.copied with
  | .install _ _ _, .ok minted =>
    stores.installs.all (·.installId ≠ minted.installId) &&
      stores.grants.all (·.2 ≠ minted.installId)
  | _, _ => true

def installStep (act : InstallAct) : Option InstallStores :=
  if mintsNew stores act then some (callInstalls stores act).2 else none

/-- An installation holds the profiles that its record binds, and no grant
is left without a record. -/
def GrantsMatch : Prop :=
  ∀ installId profileId, (profileId, installId) ∈ stores.grants ↔
    ∃ install ∈ stores.installs, install.installId = installId ∧
      profileId ∈ install.bindings.map Prod.snd

def calm (refusals : List Bool) (count : Nat) : Bool :=
  (refusals.take count).all (!·)

def performed : List Bool → List Text → List Text
  | _, [] => []
  | refusals, profileId :: rest =>
    if refusals.headD false then [] else profileId :: performed refusals.tail rest

def accepted : List Bool → List Text → List Text
  | _, [] => []
  | refusals, profileId :: rest =>
    if refusals.headD false then accepted refusals.tail rest
    else profileId :: accepted refusals.tail rest

/-- A profile that a contract gave up and that is still bound is bound under
a contract that has changed. -/
def regrants (before after : List (Text × Text)) : Bool :=
  (givenUp before after).all fun profileId =>
    profileId ∉ after.map Prod.snd || profileId ∈ taken before after

def granting (before after : List (Text × Text)) : List Text :=
  if calm around.revokes (givenUp before after).length then
    performed around.grants (taken before after)
  else []

/-- A change of the bindings that is saved grants again what is still bound;
one that is not has given back what it revoked, and granted nothing else. -/
def exchangeKeeps (args : ConfigureArgs) (install next : ConfiguredInstall)
    (resolved : List (Text × Text)) :
    Bool :=
  let granted := granting around install.bindings resolved
  if calm around.revokes (givenUp install.bindings resolved).length &&
      calm around.grants (taken install.bindings resolved).length &&
      (settleEditing around args install { next with bindings := resolved }).isOk &&
      !around.writeRefused then
    regrants install.bindings resolved
  else
    (performed around.revokes (givenUp install.bindings resolved)).all (· ∈ granted) &&
      granted.all (· ∈ install.bindings.map Prod.snd)

def rebindKeeps (args : ConfigureArgs) (install next : ConfiguredInstall)
    (explicit : List (Text × Text)) :
    Bool :=
  let (resolved, missing) := resolveBindings (withGrants around.services)
    (requirementsOf around.origin install)
    (some (mergeBindings install.bindings explicit))
  missing ≠ [] || exchangeKeeps around args install next resolved

/-- A record that goes has lost its grants, and one that stays has them. -/
def uninstallKeeps : Bool :=
  let bound := install.bindings.map Prod.snd
  let revoked :=
    if around.readRefused then [] else accepted around.revokes bound
  if around.removeRefused then revoked = [] else bound.all (· ∈ revoked)

def keepsMatch (act : InstallAct) : Bool :=
  match act.request with
  | .install originWorkspaceId manifest args =>
    match installRequest (withGrants act.around.services)
        originWorkspaceId act.around.installer manifest args with
    | .error _ => true
    | .ok (bindings, _) =>
      act.around.writeRefused || (bindings.map Prod.snd).all
          (· ∈ performed act.around.grants (bindings.map Prod.snd))
  | .configure installId args =>
    match stores.find installId, args.bindings with
    | some install, .object explicit =>
      match withConfig args install with
      | .error _ => true
      | .ok next => act.around.readRefused || rebindKeeps act.around args install next explicit
    | _, _ => true
  | .uninstall installId _ =>
    match stores.find installId with
    | none => true
    | some install => uninstallKeeps act.around install

/-- Ids are those of one installation each. -/
structure Settled : Prop where
  single : (stores.installs.map (·.installId)).Nodup
  matching : GrantsMatch stores

section

variable {apply : InstallStores → Text → InstallStores}
  {refusals : List Bool} {profiles : List Text} {stores : InstallStores}

theorem calm_cons (count : Nat) :
    calm refusals (count + 1) = (!refusals.headD false && calm refusals.tail count) := by
  cases refusals with
  | nil => simp [calm]
  | cons refused rest => simp [calm]

theorem untilRefused_eq :
    untilRefused apply refusals profiles stores = (calm refusals profiles.length,
        (performed refusals profiles).foldl apply stores) := by
  induction profiles generalizing refusals stores with
  | nil => simp [untilRefused, calm, performed]
  | cons profileId rest ih =>
    rw [untilRefused, performed, List.length_cons, calm_cons]
    by_cases refused : refusals.headD false = true
    · rw [if_pos refused, if_pos refused, refused]
      rfl
    · rw [if_neg refused, if_neg refused, ih, Bool.eq_false_iff.mpr refused]
      rfl

theorem overRefusals_eq :
    overRefusals apply refusals profiles stores =
      (accepted refusals profiles).foldl apply stores := by
  induction profiles generalizing refusals stores with
  | nil => rfl
  | cons profileId rest ih =>
    rw [overRefusals, accepted, ih]
    by_cases refused : refusals.headD false = true
    · rw [if_pos refused, if_pos refused]
    · rw [if_neg refused, if_neg refused]
      rfl

theorem performed_of_calm (quiet : calm refusals profiles.length = true) :
    performed refusals profiles = profiles := by
  induction profiles generalizing refusals with
  | nil => rfl
  | cons profileId rest ih =>
    rw [List.length_cons, calm_cons, Bool.and_eq_true, Bool.not_eq_true'] at quiet
    rw [performed, quiet.1, ih quiet.2]
    simp

theorem mem_of_mem_performed {profileId : Text}
    (member : profileId ∈ performed refusals profiles) :
    profileId ∈ profiles := by
  induction profiles generalizing refusals with
  | nil => exact member
  | cons first rest ih =>
    rw [performed] at member
    split at member
    · cases member
    · rcases List.mem_cons.mp member with rfl | later
      · simp
      · exact List.mem_cons_of_mem _ (ih later)

theorem installs_foldl (same : ∀ stores profileId,
      (apply stores profileId).installs = stores.installs) :
    (profiles.foldl apply stores).installs = stores.installs := by
  induction profiles generalizing stores with
  | nil => rfl
  | cons profileId rest ih => rw [List.foldl_cons, ih, same]

theorem installs_foldl_grant (installId : Text) :
    (profiles.foldl (InstallStores.grant installId) stores).installs = stores.installs :=
  @installs_foldl (InstallStores.grant installId) profiles stores fun _ _ => rfl

theorem installs_foldl_revoke (installId : Text) :
    (profiles.foldl (InstallStores.revoke installId) stores).installs = stores.installs :=
  @installs_foldl (InstallStores.revoke installId) profiles stores fun _ _ => rfl

theorem mem_grants_foldl_grant {installId : Text} {pair : Text × Text} :
    pair ∈ (profiles.foldl (InstallStores.grant installId) stores).grants ↔
      pair ∈ stores.grants ∨ pair.2 = installId ∧ pair.1 ∈ profiles := by
  induction profiles generalizing stores with
  | nil => simp
  | cons profileId rest ih =>
    rw [List.foldl_cons, ih]
    obtain ⟨one, two⟩ := pair
    simp only [InstallStores.grant, List.mem_append, List.mem_filter,
      List.mem_cons, decide_eq_true_eq, ne_eq, Prod.mk.injEq]
    tauto

theorem mem_grants_foldl_revoke {installId : Text} {pair : Text × Text} :
    pair ∈ (profiles.foldl (InstallStores.revoke installId) stores).grants ↔
      pair ∈ stores.grants ∧ ¬(pair.2 = installId ∧ pair.1 ∈ profiles) := by
  induction profiles generalizing stores with
  | nil => simp
  | cons profileId rest ih =>
    rw [List.foldl_cons, ih]
    obtain ⟨one, two⟩ := pair
    simp only [InstallStores.revoke, List.mem_filter, List.mem_cons,
      decide_eq_true_eq, ne_eq, Prod.mk.injEq]
    tauto

end

section

variable {around : Around} {stores after : InstallStores}
  {install next : ConfiguredInstall} {installId : Text}

theorem mem_find (found : stores.find installId = some install) :
    install ∈ stores.installs ∧ install.installId = installId :=
  ⟨List.mem_of_find?_eq_some found, by simpa using List.find?_some found⟩

theorem granted_iff (settled : Settled stores)
    (member : install ∈ stores.installs) (profileId : Text) :
    (profileId, install.installId) ∈ stores.grants ↔ profileId ∈ install.bindings.map Prod.snd := by
  rw [settled.matching]
  constructor
  · rintro ⟨other, stored, same, bound⟩
    have equal := List.inj_on_of_nodup_map settled.single stored member same
    rw [← equal]
    exact bound
  · intro bound
    exact ⟨install, member, rfl, bound⟩

/-- A change that puts a configuration, or none, in place of an install's. -/
theorem settled_replaced (settled : Settled stores) (new : Option ConfiguredInstall)
    (installs : after.installs = stores.installs.filter (·.installId ≠ installId) ++ new.toList)
    (named : ∀ install ∈ new, install.installId = installId)
    (own : ∀ profileId, (profileId, installId) ∈ after.grants ↔
      ∃ install ∈ new, profileId ∈ install.bindings.map Prod.snd)
    (others : ∀ profileId other, other ≠ installId →
      ((profileId, other) ∈ after.grants ↔ (profileId, other) ∈ stores.grants)) :
    Settled after where
  single := by
    rw [installs, List.map_append, List.nodup_append]
    refine ⟨settled.single.sublist (List.filter_sublist.map _), by cases new <;> simp, ?_⟩
    intro kept isKept other isNew same
    obtain ⟨stored, member, rfl⟩ := List.mem_map.mp isKept
    obtain ⟨install, isNext, rfl⟩ := List.mem_map.mp isNew
    rw [named install (Option.mem_toList.mp isNext)] at same
    simpa [same] using (List.mem_filter.mp member).2
  matching := by
    intro other profileId
    have listed : ∀ stored, stored ∈ after.installs ↔
        (stored ∈ stores.installs ∧ stored.installId ≠ installId) ∨ stored ∈ new := by
      intro stored
      rw [installs, List.mem_append, List.mem_filter, decide_eq_true_eq, Option.mem_toList]
      rfl
    by_cases written : other = installId
    · subst written
      rw [own]
      constructor
      · rintro ⟨install, isNew, bound⟩
        exact ⟨install, (listed install).mpr (Or.inr isNew), named install isNew, bound⟩
      · rintro ⟨stored, member, sameId, bound⟩
        rcases (listed stored).mp member with ⟨_, different⟩ | isNew
        · exact absurd sameId different
        · exact ⟨stored, isNew, bound⟩
    · rw [others profileId other written, settled.matching]
      constructor
      · rintro ⟨stored, member, rfl, bound⟩
        exact ⟨stored, (listed stored).mpr (Or.inl ⟨member, written⟩), rfl, bound⟩
      · rintro ⟨stored, member, rfl, bound⟩
        rcases (listed stored).mp member with ⟨older, _⟩ | isNew
        · exact ⟨stored, older, rfl, bound⟩
        · exact absurd (named stored isNew) written

theorem settled_write (settled : Settled stores) (same : after.installs = stores.installs)
    (own : ∀ profileId, (profileId, next.installId) ∈ after.grants ↔
      profileId ∈ next.bindings.map Prod.snd)
    (others : ∀ profileId installId, installId ≠ next.installId →
      ((profileId, installId) ∈ after.grants ↔ (profileId, installId) ∈ stores.grants)) :
    Settled (after.write next) := by
  refine settled_replaced settled (some next) ?_ ?_ ?_ others
  · rw [InstallStores.write, same]
    rfl
  · simp
  · intro profileId
    exact (own profileId).trans (by simp)

theorem settled_remove (settled : Settled stores) (same : after.installs = stores.installs)
    (own : ∀ profileId, (profileId, installId) ∉ after.grants)
    (others : ∀ profileId other, other ≠ installId → ((profileId, other) ∈ after.grants ↔
        (profileId, other) ∈ stores.grants)) :
    Settled (after.remove installId) := by
  refine settled_replaced settled none ?_ ?_ ?_ others
  · rw [InstallStores.remove, same]
    exact (List.append_nil _).symm
  · simp
  · intro profileId
    exact iff_of_false (own profileId) (by simp)

/-- What is bound after a change, if shared profiles are granted again. -/
theorem mem_after_iff {before after : List (Text × Text)}
    (again : regrants before after = true) (profileId : Text) :
    profileId ∈ after.map Prod.snd ↔
      (profileId ∈ before.map Prod.snd ∧ profileId ∉ givenUp before after) ∨
        profileId ∈ taken before after := by
  constructor
  · intro bound
    by_cases given : profileId ∈ givenUp before after
    · have still := List.all_eq_true.mp again profileId given
      simp only [Bool.or_eq_true, decide_eq_true_eq] at still
      exact Or.inr (still.resolve_left fun gone => gone bound)
    · obtain ⟨row, member, rfl⟩ := List.mem_map.mp bound
      by_cases kept : before.lookup row.1 = some row.2
      · have older : row ∈ before := by
          obtain ⟨front, rest, split, _⟩ := List.lookup_eq_some_iff.mp kept
          rw [split]
          simp
        exact Or.inl ⟨List.mem_map_of_mem older, given⟩
      · refine Or.inr (List.mem_map_of_mem ?_)
        exact List.mem_filter.mpr ⟨member, by simpa using kept⟩
  · rintro (⟨older, kept⟩ | new)
    · obtain ⟨row, member, rfl⟩ := List.mem_map.mp older
      by_cases still : after.lookup row.1 = some row.2
      · obtain ⟨front, rest, split, _⟩ := List.lookup_eq_some_iff.mp still
        have inside : (row.1, row.2) ∈ after := by
          rw [split]
          simp
        exact List.mem_map_of_mem inside
      · refine absurd (List.mem_map_of_mem ?_) kept
        exact List.mem_filter.mpr ⟨member, by simpa using still⟩
    · obtain ⟨row, member, rfl⟩ := List.mem_map.mp new
      exact List.mem_map_of_mem (List.mem_filter.mp member).1

def SameHosting (first second : ConfiguredInstall) : Prop :=
  first.installId = second.installId ∧ first.hosting = second.hosting ∧
    first.hostingWorkspaceId = second.hostingWorkspaceId

theorem saveInstall_eq (kept : ∀ existing, stores.find install.installId = some existing →
      SameHosting existing install) :
    saveInstall around stores install =
      if around.writeRefused then (.error .store, stores)
      else (.ok (), stores.write install) := by
  have accepted : ∀ existing, (∀ other, existing = some other →
      SameHosting other install) → hostingKept existing install = .ok () := by
    intro existing same
    cases existing with
    | none => rfl
    | some other =>
      obtain ⟨_, hosting, workspaceId⟩ := same other rfl
      simp [hostingKept, hosting, workspaceId]
  rw [saveInstall]
  by_cases reread : around.rereadRefused = true
  · rw [if_pos reread, accepted none (fun _ absent => (nomatch absent))]
  · rw [if_neg reread, accepted _ kept]

theorem foldl_grant_write (profiles : List Text) (installId : Text) :
    profiles.foldl (InstallStores.grant installId) (stores.write next) =
      (profiles.foldl (InstallStores.grant installId) stores).write next := by
  induction profiles generalizing stores with
  | nil => rfl
  | cons profileId rest ih =>
    rw [List.foldl_cons, List.foldl_cons, ← ih]
    rfl

theorem settled_install (settled : Settled stores)
    {originWorkspaceId : Text} {manifest : AppManifest} {args : InstallArgs}
    (new : mintsNew stores ⟨.install originWorkspaceId manifest args, around⟩ = true)
    (keeps : keepsMatch stores ⟨.install originWorkspaceId manifest args, around⟩ = true) :
    Settled (completeInstallGranting around stores originWorkspaceId manifest args).2 := by
  unfold completeInstallGranting
  simp only [keepsMatch] at keeps
  cases asked : installRequest (withGrants around.services) originWorkspaceId
      around.installer manifest args with
  | error error => exact settled
  | ok request =>
    obtain ⟨bindings, pin⟩ := request
    cases copied : around.copied with
    | error failure => exact settled
    | ok minted =>
      simp only [mintsNew, copied, Bool.and_eq_true, List.all_eq_true] at new
      rw [asked] at keeps
      have absent : stores.find minted.installId = none := by
        rw [InstallStores.find, List.find?_eq_none]
        intro other member
        simpa using new.1 other member
      dsimp only
      rw [saveInstall_eq (by
        intro existing found
        rw [absent] at found
        cases found)]
      by_cases refused : around.writeRefused = true
      · rw [if_pos refused]
        exact settled
      · rw [if_neg refused]
        have granted : ∀ profileId ∈ bindings.map Prod.snd,
            profileId ∈ performed around.grants (bindings.map Prod.snd) := by
          simp only [refused, Bool.false_or] at keeps
          simpa using List.all_eq_true.mp keeps
        have after : Settled (((performed around.grants (bindings.map Prod.snd)).foldl
              (InstallStores.grant minted.installId) stores).write
                { minted with bindings := bindings }) := by
          apply settled_write settled (installs_foldl_grant _)
          · intro profileId
            have ungranted : (profileId, minted.installId) ∉ stores.grants := by
              intro member
              simpa using new.2 _ member
            rw [mem_grants_foldl_grant]
            constructor
            · rintro (older | ⟨_, member⟩)
              · exact absurd older ungranted
              · exact mem_of_mem_performed member
            · intro bound
              exact Or.inr ⟨rfl, granted profileId bound⟩
          · intro profileId installId other
            rw [mem_grants_foldl_grant]
            simp [other]
        rw [← foldl_grant_write] at after
        dsimp only
        rw [untilRefused_eq]
        cases calm around.grants (bindings.map Prod.snd).length <;>
          exact after

theorem settled_rebind (settled : Settled stores) (member : install ∈ stores.installs)
    {resolved : List (Text × Text)} (same : SameHosting install next)
    (bindings : next.bindings = resolved) (again : regrants install.bindings resolved = true) :
    Settled (((taken install.bindings resolved).foldl (InstallStores.grant install.installId)
      ((givenUp install.bindings resolved).foldl
        (InstallStores.revoke install.installId) stores)).write next) := by
  apply settled_write settled
  · rw [installs_foldl_grant, installs_foldl_revoke]
  · intro profileId
    rw [mem_grants_foldl_grant, mem_grants_foldl_revoke, ← same.1,
      granted_iff settled member, bindings, mem_after_iff again]
    simp
  · intro profileId installId other
    rw [← same.1] at other
    rw [mem_grants_foldl_grant, mem_grants_foldl_revoke]
    simp [other]

variable {args : ConfigureArgs}

theorem sameHosting_settleEditing {chosen : ConfiguredInstall}
    (settledAs : settleEditing around args install next = .ok chosen) :
    SameHosting next chosen ∧ chosen.bindings = next.bindings := by
  unfold settleEditing at settledAs
  dsimp only at settledAs
  split at settledAs
  · split at settledAs <;> cases settledAs
    exact ⟨⟨rfl, rfl, rfl⟩, rfl⟩
  · split at settledAs
    · cases settledAs
      exact ⟨⟨rfl, rfl, rfl⟩, rfl⟩
    · split at settledAs
      · cases settledAs
        exact ⟨⟨rfl, rfl, rfl⟩, rfl⟩
      · split at settledAs <;> cases settledAs
        exact ⟨⟨rfl, rfl, rfl⟩, rfl⟩

theorem sameHosting_withConfig (configured : withConfig args install = .ok next) :
    SameHosting install next ∧ next.bindings = install.bindings := by
  unfold withConfig at configured
  split at configured <;> cases configured <;>
    exact ⟨⟨rfl, rfl, rfl⟩, rfl⟩

theorem settled_saveInstall (settled : Settled stores) (member : install ∈ stores.installs)
    (same : SameHosting install next) (bindings : next.bindings = install.bindings) :
    Settled (saveInstall around stores next).2 := by
  rw [saveInstall_eq]
  · by_cases refused : around.writeRefused = true
    · rw [if_pos refused]
      exact settled
    · rw [if_neg refused]
      apply settled_write settled rfl
      · intro profileId
        rw [← same.1, granted_iff settled member, bindings]
      · exact fun _ _ _ => Iff.rfl
  · intro existing found
    obtain ⟨stored, id⟩ := mem_find found
    have equal := List.inj_on_of_nodup_map settled.single stored member (id.trans same.1.symm)
    rw [equal]
    exact same

theorem saveInstall_rebound (settled : Settled stores) (member : install ∈ stores.installs)
    {changed : InstallStores} (same : SameHosting install next)
    (installs : changed.installs = stores.installs) :
    saveInstall around changed next =
      if around.writeRefused then (.error .store, changed)
      else (.ok (), changed.write next) := by
  apply saveInstall_eq
  intro existing found
  obtain ⟨stored, id⟩ := mem_find found
  rw [installs] at stored
  have equal := List.inj_on_of_nodup_map settled.single stored member (id.trans same.1.symm)
  rw [equal]
  exact same

theorem SameHosting.trans {first second third : ConfiguredInstall}
    (one : SameHosting first second) (two : SameHosting second third) :
    SameHosting first third :=
  ⟨one.1.trans two.1, one.2.1.trans two.2.1, one.2.2.trans two.2.2⟩

theorem exchange_eq (resolved : List (Text × Text)) :
    exchange around stores install resolved =
      (calm around.revokes (givenUp install.bindings resolved).length &&
        calm around.grants (taken install.bindings resolved).length,
      (granting around install.bindings resolved).foldl (InstallStores.grant install.installId)
        ((performed around.revokes (givenUp install.bindings resolved)).foldl
          (InstallStores.revoke install.installId) stores)) := by
  rw [exchange, untilRefused_eq, granting]
  cases calm around.revokes (givenUp install.bindings resolved).length with
  | false => rfl
  | true => exact untilRefused_eq

variable (settled : Settled stores)

include settled

theorem settled_given_back (member : install ∈ stores.installs) {revoked granted : List Text}
    (back : ∀ profileId ∈ revoked, profileId ∈ granted)
    (bound : ∀ profileId ∈ granted, profileId ∈ install.bindings.map Prod.snd) :
    Settled (granted.foldl (InstallStores.grant install.installId)
      (revoked.foldl (InstallStores.revoke install.installId) stores)) := by
  have installs :
      (granted.foldl (InstallStores.grant install.installId)
        (revoked.foldl (InstallStores.revoke install.installId)
          stores)).installs = stores.installs := by
    rw [installs_foldl_grant, installs_foldl_revoke]
  refine ⟨by rw [installs]; exact settled.single, ?_⟩
  intro installId profileId
  rw [installs, ← settled.matching, mem_grants_foldl_grant, mem_grants_foldl_revoke]
  constructor
  · rintro (⟨kept, _⟩ | ⟨same, again⟩)
    · exact kept
    · rw [show installId = install.installId from same, granted_iff settled member]
      exact bound profileId again
  · intro held
    by_cases gone : installId = install.installId ∧ profileId ∈ revoked
    · exact Or.inr ⟨gone.1, back profileId gone.2⟩
    · exact Or.inl ⟨held, gone⟩

theorem settled_exchange (member : install ∈ stores.installs)
    {resolved : List (Text × Text)} (hosting : SameHosting install next)
    (keeps : exchangeKeeps around args install next resolved = true) :
    Settled (saveRebound around args install next
      (rebindTo around stores install resolved)).2 := by
  have returned :
      ((performed around.revokes (givenUp install.bindings resolved)).all
          (· ∈ granting around install.bindings resolved) &&
        (granting around install.bindings resolved).all
          (· ∈ install.bindings.map Prod.snd)) = true →
      Settled (exchange around stores install resolved).2 := by
    intro returned
    simp only [Bool.and_eq_true, List.all_eq_true, decide_eq_true_eq] at returned
    rw [exchange_eq]
    exact settled_given_back settled member returned.1 returned.2
  unfold exchangeKeeps at keeps
  dsimp only at keeps
  have exchanged := @exchange_eq around stores install resolved
  by_cases quiet :
      (calm around.revokes (givenUp install.bindings resolved).length &&
        calm around.grants (taken install.bindings resolved).length) = true
  · rw [quiet] at exchanged keeps
    rw [exchanged] at returned
    rw [rebindTo, exchanged]
    dsimp only
    rw [saveRebound]
    cases edited : settleEditing around args install { next with bindings := resolved } with
    | error failure =>
      rw [edited] at keeps
      exact returned keeps
    | ok chosen =>
      obtain ⟨same, bound⟩ := sameHosting_settleEditing edited
      dsimp only
      rw [saveInstall_rebound settled member (hosting.trans same) (by
        rw [installs_foldl_grant, installs_foldl_revoke])]
      rw [edited] at keeps
      by_cases refused : around.writeRefused = true
      · rw [if_pos refused]
        rw [refused] at keeps
        exact returned keeps
      · rw [if_neg refused]
        rw [Bool.eq_false_iff.mpr refused] at keeps
        simp only [Bool.and_eq_true] at quiet
        rw [granting, if_pos quiet.1, performed_of_calm quiet.1, performed_of_calm quiet.2]
        exact settled_rebind settled member (hosting.trans same) bound keeps
  · rw [Bool.eq_false_iff.mpr quiet] at exchanged keeps
    rw [exchanged] at returned
    rw [rebindTo, exchanged]
    exact returned keeps

theorem settled_configure (keeps : keepsMatch stores ⟨.configure installId args, around⟩ = true) :
    Settled (configure around stores installId args).2 := by
  unfold configure
  split
  · exact settled
  cases read : readInstall around stores installId with
  | none => exact settled
  | some install =>
    have found : stores.find installId = some install ∧ around.readRefused = false := by
      unfold readInstall at read
      split at read
      · cases read
      · next accepted =>
          exact ⟨read, by simpa using accepted⟩
    obtain ⟨member, id⟩ := mem_find found.1
    dsimp only
    cases configured : withConfig args install with
    | error error => exact settled
    | ok next =>
      obtain ⟨hosting, bindings⟩ := sameHosting_withConfig configured
      cases given : args.bindings with
      | absent =>
        simp only [rebind, saveRebound]
        cases edited : settleEditing around args install
            { next with bindings := install.bindings } with
        | error failure => exact settled
        | ok chosen =>
          obtain ⟨same, bound⟩ := sameHosting_settleEditing edited
          exact settled_saveInstall settled member (hosting.trans same) bound
      | malformed => exact settled
      | object explicit =>
        simp only [keepsMatch, found.1, given, configured, found.2, Bool.false_or] at keeps
        simp only [rebind, rebindKeeps] at keeps ⊢
        generalize resolveBindings (withGrants around.services)
          (requirementsOf around.origin install)
          (some (mergeBindings install.bindings explicit)) = answer at keeps ⊢
        obtain ⟨resolved, missing⟩ := answer
        by_cases fulfilled : missing = []
        · simp only [fulfilled, ne_eq, not_true_eq_false, decide_false,
            Bool.false_or, if_false] at keeps ⊢
          exact settled_exchange settled member hosting keeps
        · simp only [fulfilled, ne_eq, not_false_eq_true, if_true]
          exact settled

theorem settled_uninstall {purge : Bool}
    (keeps : keepsMatch stores ⟨.uninstall installId purge, around⟩ = true) :
    Settled (uninstall around stores installId purge).2 := by
  -- the record stays, or goes
  have ended : ∀ left : InstallStores, (around.removeRefused = true → Settled left) →
      (around.removeRefused = false → Settled (left.remove installId)) → Settled
          (if around.removeRefused then (Except.error CallFailure.store, left)
          else if purge then (around.purged, left.remove installId)
          else (Except.ok (), left.remove installId)).2 := by
    intro left kept removed
    by_cases refused : around.removeRefused = true
    · rw [if_pos refused]
      exact kept refused
    · rw [if_neg refused]
      cases purge <;> exact removed (Bool.eq_false_iff.mpr refused)
  unfold uninstall
  split
  · exact settled
  dsimp only
  cases found : stores.find installId with
  | none =>
    have read : readInstall around stores installId = none := by rw [readInstall, found, ite_self]
    rw [read]
    apply ended stores (fun _ => settled)
    intro _
    apply settled_remove settled rfl _ fun _ _ _ => Iff.rfl
    intro profileId granted
    obtain ⟨other, member, same, _⟩ :=
      (settled.matching installId profileId).mp granted
    have absent := List.find?_eq_none.mp found other member
    simp [same] at absent
  | some install =>
    obtain ⟨member, rfl⟩ := mem_find found
    let bound := install.bindings.map Prod.snd
    let revoked :=
      if around.readRefused then [] else accepted around.revokes bound
    have left : (match readInstall around stores install.installId with
        | none => stores
        | some install =>
          overRefusals (InstallStores.revoke install.installId)
            around.revokes (install.bindings.map Prod.snd) stores) =
          revoked.foldl (InstallStores.revoke install.installId)
            stores := by
      rw [readInstall, found]
      by_cases refused : around.readRefused = true
      · simp [revoked, refused]
      · simp [revoked, refused, bound, overRefusals_eq]
    rw [left]
    simp only [keepsMatch, found] at keeps
    unfold uninstallKeeps at keeps
    apply ended
    · intro refused
      have none_revoked : revoked = [] := by
        simpa only [refused, if_true, decide_eq_true_eq] using keeps
      rw [none_revoked]
      exact settled
    · intro allowed
      have all_revoked : ∀ profileId ∈ bound, profileId ∈ revoked := by
        simp only [allowed, Bool.false_eq_true, if_false] at keeps
        intro profileId held
        exact of_decide_eq_true (List.all_eq_true.mp keeps profileId held)
      apply settled_remove settled (installs_foldl_revoke _)
      · intro profileId
        rw [mem_grants_foldl_revoke, granted_iff settled member]
        rintro ⟨held, kept⟩
        exact kept ⟨rfl, all_revoked profileId held⟩
      · intro profileId other different
        rw [mem_grants_foldl_revoke]
        simp [different]

theorem settled_installStep {act : InstallAct} (keeps : keepsMatch stores act = true)
    (taken : installStep stores act = some after) : Settled after := by
  unfold installStep at taken
  split at taken
  · next new =>
      cases taken
      obtain ⟨request, around⟩ := act
      cases request with
      | install originWorkspaceId manifest args => exact settled_install settled new keeps
      | configure installId args => exact settled_configure settled keeps
      | uninstall installId purge => exact settled_uninstall settled keeps
  · cases taken

end

theorem settled_empty : Settled {} where
  single := List.nodup_nil
  matching := by
    intro installId profileId
    simp

/-- In a run whose calls meet the condition, the grants are those that the
records bind, and where there is no record there is none. -/
theorem grants_match {acts : List InstallAct} {stores : InstallStores}
    (meets : StepsMeet installStep (fun stores act => keepsMatch stores act = true) {} acts)
    (executed : runFrom installStep {} acts = some stores) :
    GrantsMatch stores ∧ ∀ installId, stores.find installId = none →
        ∀ profileId, (profileId, installId) ∉ stores.grants := by
  have settled := invariant_of_stepsMeet Settled
    (fun _ _ _ settled keeps taken => settled_installStep settled keeps taken)
    settled_empty meets executed
  refine ⟨settled.matching, ?_⟩
  intro installId absent profileId granted
  obtain ⟨install, member, same, _⟩ :=
    (settled.matching installId profileId).mp granted
  have other := List.find?_eq_none.mp absent install member
  simp [same] at other

def namingServices : InstallServices where
  collate := fun first second => first.length ≤ second.length
  snapshotId := fun _ name => name
  commitId := fun body => body.message
  now := 0
  sha256 := fun text => text
  mintedId := []
  resolveProfile := fun _ name => some name
  profileGrantsAvailable := true

def pairManifest : AppManifest where
  appId := "pair".toList
  name := "pair".toList
  slug := none
  title := "Pair".toList
  description := none
  root := none
  entry := "index.html".toList
  paths := []
  createdBy := "ann".toList
  isPublic := true
  channels := []
  hostModes := []
  requires := [⟨"a".toList, none, false⟩, ⟨"b".toList, none, false⟩]

def mintedPair : ConfiguredInstall where
  installId := "i".toList
  originAppId := "pair".toList
  originWorkspaceId := "origin".toList
  pin := .channel "live".toList
  hosting := .managed
  hostingWorkspaceId := none
  root := none
  pathPrefix := none
  manifest := none
  contentFingerprint := none
  resolvedRelease := none
  bindings := []
  installedBy := "bob".toList
  editing := false
  config := []

def allAccepted : Around where
  services := namingServices
  installer := {
    workspaceId := "home".toList
    store := ⟨.sqlite, [], Fs.Store.keys_nil⟩
    registry := ⟨[], [], [], []⟩
    installs := [] }
  readRefused := false
  rereadRefused := false
  origin := some pairManifest
  copied := .ok mintedPair
  revokes := []
  grants := []
  released := .ok true
  forked := .ok ()
  writeRefused := false
  removeRefused := false
  purged := .ok ()

def bindingArgs (bindings : List (Text × Text)) : ConfigureArgs where
  config := .absent
  bindings := .object bindings
  editing := none
  pathPrefix := none

def installPair (first second : Text) : InstallAct where
  request := .install "origin".toList pairManifest {
    slug := none
    hosting := none
    bindings := some [("a".toList, first), ("b".toList, second)]
    pin := none }
  around := allAccepted

def rebindPair (bindings : List (Text × Text)) (writeRefused : Bool) : InstallAct where
  request := .configure "i".toList (bindingArgs bindings)
  around := { allAccepted with writeRefused := writeRefused }

/-- The contracts get the profiles of one another, once in vain. -/
def exchangeRun : List InstallAct :=
  [installPair "p".toList "q".toList,
    rebindPair [("a".toList, "q".toList), ("b".toList, "p".toList)] true,
    rebindPair [("b".toList, "r".toList)] false,
    ⟨.uninstall "other".toList false, allAccepted⟩]

theorem grants_match_exchangeRun :
    ∃ stores, runFrom installStep {} exchangeRun = some stores ∧
      stores.grants.map Prod.fst = ["p".toList, "r".toList] ∧ GrantsMatch stores := by
  have executed : (runFrom installStep {} exchangeRun).map
      (·.grants.map Prod.fst) = some ["p".toList, "r".toList] := by
    decide +kernel
  obtain ⟨stores, reached, granted⟩ := Option.map_eq_some_iff.mp executed
  exact ⟨stores, reached, granted, (grants_match (by decide +kernel) reached).1⟩

/-- A profile is bound under two contracts, and one of them gives it up. -/
theorem grants_miss_shared :
    ¬∀ stores, runFrom installStep {} [installPair "p".toList "p".toList,
          rebindPair [("a".toList, "q".toList)] false] = some stores →
      GrantsMatch stores := by
  intro holds
  have executed : (runFrom installStep {} [installPair "p".toList "p".toList,
        rebindPair [("a".toList, "q".toList)] false]).map
        (fun stores => (stores.grants.map Prod.fst, stores.installs.map fun install =>
            (install.installId, install.bindings.map Prod.snd))) =
      some (["q".toList], [("i".toList, ["q".toList, "p".toList])]) := by
    decide +kernel
  obtain ⟨stores, reached, seen⟩ := Option.map_eq_some_iff.mp executed
  obtain ⟨granted, bound⟩ := Prod.mk.inj seen
  have stored : ("i".toList, ["q".toList, "p".toList]) ∈ stores.installs.map fun install =>
        (install.installId, install.bindings.map Prod.snd) := by
    rw [bound]
    exact List.mem_singleton_self _
  obtain ⟨install, member, same⟩ := List.mem_map.mp stored
  obtain ⟨id, profiles⟩ := Prod.mk.inj same
  have held : ("p".toList, "i".toList) ∈ stores.grants := by
    apply (holds stores reached _ _).mpr ⟨install, member, id, ?_⟩
    rw [profiles]
    exact List.mem_cons_of_mem _ (List.mem_singleton_self _)
  have listed : "p".toList ∈ stores.grants.map Prod.fst := List.mem_map_of_mem held
  rw [granted] at listed
  exact absurd listed (by decide)

end Aprovan.Apps
