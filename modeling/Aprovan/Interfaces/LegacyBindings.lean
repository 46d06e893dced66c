import Aprovan.Library.Text

/-!
# The import of legacy bindings

`readBindings` finds no interface profile, but the bindings file of an older
deployment.  It writes a profile for each binding and removes the file.
-/

namespace Aprovan.Interfaces

open Aprovan.Library

structure InterfaceBinding where
  interfaceId : Option Text
  provider : Text
  (credentialId options : Option Text)

/-- What a profile has of a binding; an empty credential id counts as none. -/
structure ProfileFields where
  provider : Text
  credentialId : Option Text
  options : Text
  deriving DecidableEq

def InterfaceBinding.fields (binding : InterfaceBinding) : ProfileFields where
  provider := binding.provider
  credentialId := binding.credentialId.filter (· ≠ [])
  options := binding.options.getD "{}".toList

def splitInstance (key : Text) : Text × Text :=
  if ':' ∈ key then (key.takeWhile (· ≠ ':'), (key.dropWhile (· ≠ ':')).drop 1)
  else (key, "default".toList)

/-- A binding of the file, under its key. -/
abbrev LegacyEntry := Text × InterfaceBinding

/-- The `targetId` and the name of the profile that a binding becomes. -/
def profileKey (entry : LegacyEntry) : Text × Text :=
  (entry.2.interfaceId.getD (splitInstance entry.1).1, (splitInstance entry.1).2)

/-- The interface profiles of a workspace, in the registry's storage.  An
update is only known to keep equal fields. -/
structure ProfileStore (Profiles : Type) where
  list : Profiles → List (Text × Text)
  getByName : Profiles → Text × Text → Option ProfileFields
  create : Profiles → Text × Text → ProfileFields → Profiles
  update : Profiles → Text × Text → ProfileFields → Profiles
  list_eq_nil : ∀ profiles, list profiles = [] ↔ ∀ key, getByName profiles key = none
  get_create : ∀ profiles key fields other, getByName profiles key = none →
    getByName (create profiles key fields) other =
      if other = key then some fields else getByName profiles other
  get_update_of_ne : ∀ profiles key fields other, other ≠ key →
    getByName (update profiles key fields) other = getByName profiles other
  update_same : ∀ profiles key fields, getByName profiles key = some fields →
    getByName (update profiles key fields) key = some fields

/-- Which operations on profiles succeed.  A binding is written by three
statements, of which the last one changes a profile. -/
structure ImportFaults where
  listed : Bool
  written : Nat → Bool

def noFaults : ImportFaults :=
  ⟨true, fun _ => true⟩

structure ImportState (Profiles : Type) where
  profiles : Profiles
  file : Option (List LegacyEntry)

section

variable {Profiles : Type} (store : ProfileStore Profiles)

def writeProfileBinding (accepted : Bool) (profiles : Profiles) (entry : LegacyEntry) : Profiles :=
  if accepted then
    match store.getByName profiles (profileKey entry) with
    | some _ => store.update profiles (profileKey entry) entry.2.fields
    | none => store.create profiles (profileKey entry) entry.2.fields
  else profiles

/-- The bindings of the file one after the other; a write that fails is passed
over. -/
def writeBindings (faults : ImportFaults) (profiles : Profiles)
    (attempts : List (LegacyEntry × Nat)) : Profiles :=
  attempts.foldl (fun profiles attempt =>
    writeProfileBinding store (faults.written attempt.2) profiles attempt.1)
    profiles

/-- `importLegacyBindings`, in a process that lives for some operations. -/
def importLegacyBindings (faults : ImportFaults) (life : Nat)
    (entries : List LegacyEntry) (state : ImportState Profiles) :
    ImportState Profiles where
  profiles :=
    writeBindings store faults state.profiles (entries.zipIdx.take life)
  file := if entries.length < life then none else state.file

def readBindings (faults : ImportFaults) (life : Nat) (state : ImportState Profiles) :
    ImportState Profiles :=
  if faults.listed = true ∧ store.list state.profiles = [] then
    match state.file with
    | some entries => importLegacyBindings store faults (life - 3) entries state
    | none => state
  else state

def Imported (profiles : Profiles) (entry : LegacyEntry) : Prop :=
  store.getByName profiles (profileKey entry) = some entry.2.fields

/-- A workspace with a bindings file and no interface profile. -/
structure LegacyWorkspace where
  profiles : Profiles
  entries : List LegacyEntry
  unbound : store.list profiles = []

/-- All bindings are profiles, or the file is there and a later read makes
them profiles. -/
def LosesNothing (entries : List LegacyEntry) (after : ImportState Profiles) : Prop :=
  (∀ entry ∈ entries, Imported store after.profiles entry) ∨
    (after.file = some entries ∧ ∀ entry ∈ entries, Imported store
        (readBindings store noFaults (entries.length + 4) after).profiles
        entry)

end

/-- Bindings of one profile are the same. -/
def Agree (entries : List LegacyEntry) : Prop :=
  ∀ entry ∈ entries, ∀ other ∈ entries,
    profileKey other = profileKey entry → other.2.fields = entry.2.fields

structure Writes (faults : ImportFaults) (life : Nat)
    (entries : List LegacyEntry) (index : Nat) (entry : LegacyEntry) :
    Prop where
  begun : faults.listed = true
  listed : entries[index]? = some entry
  accepted : faults.written index = true
  lives : index < life - 3

/-- A binding of every profile is written, or none is and the process stops
before it removes the file. -/
structure ImportSurvives (faults : ImportFaults) (life : Nat)
    (entries : List LegacyEntry) : Prop where
  agree : Agree entries
  kept : (∀ entry ∈ entries, ∃ index other, Writes faults life entries index other ∧
        profileKey other = profileKey entry) ∨
    ((∀ index entry, ¬ Writes faults life entries index entry) ∧
      ¬ (faults.listed = true ∧ entries.length < life - 3))

section

variable {Profiles : Type} {store : ProfileStore Profiles}
  {faults : ImportFaults} {profiles : Profiles} {entries : List LegacyEntry}
  {entry : LegacyEntry}

theorem getByName_write (own : ∀ fields, store.getByName profiles (profileKey entry) =
      some fields → fields = entry.2.fields) (key : Text × Text) :
    store.getByName (writeProfileBinding store true profiles entry) key =
      if key = profileKey entry then some entry.2.fields
      else store.getByName profiles key := by
  unfold writeProfileBinding
  rw [if_pos rfl]
  cases held : store.getByName profiles (profileKey entry) with
  | none => exact store.get_create _ _ _ _ held
  | some fields =>
    obtain rfl := own fields held
    by_cases same : key = profileKey entry
    · rw [if_pos same, same]
      exact store.update_same _ _ _ held
    · rw [if_neg same]
      exact store.get_update_of_ne _ _ _ _ same

theorem imported_writeBindings (agree : Agree entries) (attempts : List (LegacyEntry × Nat))
    (listed : ∀ attempt ∈ attempts, attempt.1 ∈ entries)
    (owns : ∀ entry ∈ entries, ∀ fields, store.getByName profiles
      (profileKey entry) = some fields → fields = entry.2.fields) (member : entry ∈ entries) :
    Imported store (writeBindings store faults profiles attempts) entry ↔
      Imported store profiles entry ∨ ∃ attempt ∈ attempts, faults.written attempt.2 = true ∧
          profileKey attempt.1 = profileKey entry := by
  induction attempts generalizing profiles with
  | nil => simp [writeBindings]
  | cons attempt rest ih =>
    have isListed := listed attempt List.mem_cons_self
    have later := fun other inRest => listed other (List.mem_cons_of_mem attempt inRest)
    rw [writeBindings, List.foldl_cons, ← writeBindings]
    cases accepted : faults.written attempt.2 with
    | true =>
      have reads := getByName_write (owns attempt.1 isListed)
      rw [ih later, Imported, reads, Imported]
      · by_cases same : profileKey entry = profileKey attempt.1
        · rw [if_pos same, agree entry member attempt.1 isListed same.symm]
          simp [accepted, same]
        · rw [if_neg same]
          simp [accepted, Ne.symm same]
      · intro other inFile fields held
        rw [reads] at held
        split at held
        · next same =>
            rw [← Option.some.inj held]
            exact agree other inFile attempt.1 isListed same.symm
        · exact owns other inFile fields held
    | false =>
      have kept : writeProfileBinding store false profiles attempt.1 = profiles := rfl
      rw [kept, ih later owns]
      simp [accepted]

theorem writeBindings_refused (attempts : List (LegacyEntry × Nat))
    (refused : ∀ attempt ∈ attempts, faults.written attempt.2 = false) :
    writeBindings store faults profiles attempts = profiles := by
  induction attempts with
  | nil => rfl
  | cons attempt rest ih =>
    rw [writeBindings, List.foldl_cons, ← writeBindings, refused attempt List.mem_cons_self]
    exact ih fun other inRest => refused other (List.mem_cons_of_mem attempt inRest)

theorem exists_attempt_iff {life : Nat} (begun : faults.listed = true) (target : Text × Text) :
    (∃ attempt ∈ entries.zipIdx.take (life - 3),
      faults.written attempt.2 = true ∧ profileKey attempt.1 = target) ↔
    ∃ index entry, Writes faults life entries index entry ∧ profileKey entry = target := by
  simp only [List.mem_iff_getElem?, List.getElem?_take]
  constructor
  · rintro ⟨⟨entry, index⟩, ⟨place, found⟩, accepted, same⟩
    split at found
    · next early =>
        rw [List.getElem?_zipIdx] at found
        obtain ⟨other, listed, pair⟩ := Option.map_eq_some_iff.mp found
        simp only [Prod.mk.injEq, Nat.zero_add] at pair
        obtain ⟨rfl, rfl⟩ := pair
        exact ⟨place, other, ⟨begun, listed, accepted, early⟩, same⟩
    · cases found
  · rintro ⟨index, entry, writes, same⟩
    exact ⟨(entry, index), ⟨index, by simp [writes.lives, List.getElem?_zipIdx, writes.listed]⟩,
      writes.accepted, same⟩

variable (agree : Agree entries) (unbound : store.list profiles = [])

include agree unbound

theorem imported_iff {life : Nat} (begun : faults.listed = true) (member : entry ∈ entries) :
    Imported store (writeBindings store faults profiles (entries.zipIdx.take (life - 3))) entry ↔
      ∃ index other, Writes faults life entries index other ∧
        profileKey other = profileKey entry := by
  have empty := (store.list_eq_nil profiles).mp unbound
  have listed : ∀ attempt ∈ entries.zipIdx.take (life - 3),
      attempt.1 ∈ entries := fun attempt tried =>
    List.fst_mem_of_mem_zipIdx (List.mem_of_mem_take tried)
  rw [imported_writeBindings agree _ listed _ member, exists_attempt_iff begun, Imported, empty]
  · simp
  · intro entry _ fields held
    rw [empty] at held
    cases held

theorem imported_later (member : entry ∈ entries) :
    Imported store (readBindings store noFaults (entries.length + 4)
      ⟨profiles, some entries⟩).profiles entry := by
  rw [readBindings, if_pos ⟨rfl, unbound⟩]
  apply (imported_iff agree unbound rfl member).mpr
  obtain ⟨index, listed⟩ := List.mem_iff_getElem?.mp member
  have early := (List.getElem?_eq_some_iff.mp listed).1
  exact ⟨index, entry, ⟨rfl, listed, rfl, by omega⟩, rfl⟩

theorem losesNothing_iff_of_agree (life : Nat) (begun : faults.listed = true) :
    LosesNothing store entries (importLegacyBindings store faults (life - 3)
        entries ⟨profiles, some entries⟩) ↔ ImportSurvives faults life entries := by
  have imports := fun entry member => @imported_iff Profiles store faults
    profiles entries entry agree unbound life begun member
  constructor
  · rintro (imported | ⟨filed, imported⟩)
    · exact ⟨agree, Or.inl fun entry member => (imports entry member).mp (imported entry member)⟩
    · refine ⟨agree, ?_⟩
      by_cases nothing : ∀ index entry, ¬ Writes faults life entries index entry
      · refine Or.inr ⟨nothing, ?_⟩
        rintro ⟨_, gone⟩
        cases (if_pos gone).symm.trans filed
      · push Not at nothing
        obtain ⟨index, first, writes⟩ := nothing
        have written := (imports first (List.mem_of_getElem? writes.listed)).mpr
            ⟨index, first, writes, rfl⟩
        refine Or.inl fun entry member => (imports entry member).mp ?_
        have held := imported entry member
        rw [readBindings, if_neg] at held
        · exact held
        · rintro ⟨_, empty⟩
          have none := (store.list_eq_nil _).mp empty (profileKey first)
          cases none.symm.trans written
  · rintro ⟨_, written | ⟨nothing, stays⟩⟩
    · exact Or.inl fun entry member => (imports entry member).mpr (written entry member)
    · have kept : importLegacyBindings store faults (life - 3) entries
          ⟨profiles, some entries⟩ = ⟨profiles, some entries⟩ := by
        rw [importLegacyBindings, writeBindings_refused, if_neg fun early => stays ⟨begun, early⟩]
        intro attempt tried
        by_contra accepted
        obtain ⟨index, other, writes, _⟩ := (exists_attempt_iff begun _).mp
          ⟨attempt, tried, Bool.not_eq_false _ ▸ accepted, rfl⟩
        exact nothing index other writes
      rw [kept]
      exact Or.inr ⟨rfl, fun entry => imported_later agree unbound⟩

end

/-- For every file, every failing operation on profiles and every stop of the
process. -/
theorem import_loses_nothing_iff {Profiles : Type} (store : ProfileStore Profiles)
    (workspace : LegacyWorkspace store) (faults : ImportFaults) (life : Nat) :
    LosesNothing store workspace.entries (readBindings store faults life
        ⟨workspace.profiles, some workspace.entries⟩) ↔
      ImportSurvives faults life workspace.entries := by
  obtain ⟨profiles, entries, unbound⟩ := workspace
  dsimp only
  by_cases agree : Agree entries
  · by_cases begun : faults.listed = true
    · rw [readBindings, if_pos ⟨begun, unbound⟩]
      exact losesNothing_iff_of_agree agree unbound life begun
    · rw [readBindings, if_neg fun both => begun both.1]
      exact iff_of_true (Or.inr ⟨rfl, fun entry => imported_later agree unbound⟩)
        ⟨agree, Or.inr ⟨fun _ _ writes => begun writes.begun,
          fun removes => begun removes.1⟩⟩
  · have apart : ∀ after : Profiles, ¬ ∀ entry ∈ entries, Imported store after entry := by
      intro after imported
      apply agree
      intro entry member other inFile same
      have held := imported other inFile
      rw [Imported, same, imported entry member] at held
      exact (Option.some.inj held).symm
    refine iff_of_false ?_ fun survives => agree survives.agree
    rintro (imported | ⟨_, imported⟩)
    · exact apart _ imported
    · exact apart _ imported

def tableProfiles : ProfileStore (List ((Text × Text) × ProfileFields)) where
  list profiles := profiles.map Prod.fst
  getByName profiles key := profiles.lookup key
  create profiles key fields := (key, fields) :: profiles
  update profiles key fields := (key, fields) :: profiles
  list_eq_nil profiles := by
    cases profiles with
    | nil => simp
    | cons row rest => simpa using ⟨row.1.1, row.1.2, by simp⟩
  get_create profiles key fields other _ := by
    rw [List.lookup_cons]
    by_cases same : other = key
    · simp [same]
    · simp [beq_eq_false_iff_ne.mpr same, same]
  get_update_of_ne profiles key fields other different := by
    rw [List.lookup_cons, beq_eq_false_iff_ne.mpr different]
  update_same profiles key fields _ := by simp

/-- The second of two writes fails, and the file is removed. -/
theorem import_loses_binding :
    ¬ ∀ (workspace : LegacyWorkspace tableProfiles) (faults : ImportFaults) (life : Nat),
      LosesNothing tableProfiles workspace.entries (readBindings tableProfiles faults life
          ⟨workspace.profiles, some workspace.entries⟩) := by
  intro law
  have kept := law ⟨[], [("llm".toList, ⟨none, "openai".toList, none, none⟩),
      ("sql".toList, ⟨none, "postgres".toList, none, none⟩)], rfl⟩
    ⟨true, (· ≠ 1)⟩ 6
  rcases kept with imported | ⟨filed, _⟩
  · have second := imported ("sql".toList, ⟨none, "postgres".toList, none, none⟩) (by simp)
    exact absurd second (by unfold Imported; decide +kernel)
  · cases filed

end Aprovan.Interfaces
