import Aprovan.Doc.Durability

/-!
# Overlapping flushes

`flushDurableAfterMaterialize` saves the size threshold, sets it to zero for
its compaction and restores what it saved.  A step is what one call does
between two awaits, or the throw of what it awaits.
-/

namespace Aprovan.Doc

open Aprovan.Library

inductive FlushStage (Doc : Type) where
  | appending (rest : DocCall Doc Unit)
  | listing (prev : Nat) (rest : DocCall Doc (List (Text × UpdateRecord Doc)))
  | compacting (prev : Nat) (rest : DocCall Doc Unit)

/-- The threshold that the call restores. -/
def FlushStage.saved {Doc : Type} : FlushStage Doc → Option Nat
  | .appending _ => none
  | .listing prev _ => some prev
  | .compacting prev _ => some prev

/-- A call of `flushDurableAfterMaterialize` for the document of a key. -/
structure FlushCall (Doc : Type) where
  key : Text
  stage : FlushStage Doc

structure FlushState (Doc : Type) where
  thresholds : CompactThresholds
  documents : Text → DocStores Doc
  calls : Nat → Option (FlushCall Doc)

inductive FlushAct (Doc : Type) where
  | flush (id : Nat) (key : Text) (doc : Doc)
  | resume (id : Nat)
  | fail (id : Nat)

namespace FlushState

variable {Doc : Type} (state : FlushState Doc)

def setCall (id : Nat) (call : Option (FlushCall Doc)) : FlushState Doc :=
  { state with calls := Function.update state.calls id call }

def setSize (sizeBytes : Nat) : FlushState Doc :=
  { state with thresholds := { state.thresholds with sizeBytes := sizeBytes } }

/-- What a call saved that is between its save and its restore. -/
def saved (id : Nat) : Option Nat :=
  (state.calls id).bind fun call => call.stage.saved

/-- The awaited statement is answered. -/
def answer (services : DocServices Doc) (id : Nat) (key : Text) (statement : DocStatement Doc)
    (resumed : Except Empty statement.Answer → FlushStage Doc) : FlushState Doc :=
  let executed := execute services statement (state.documents key)
  { state with documents := Function.update state.documents key executed.2 }.setCall id
    (some ⟨key, resumed executed.1⟩)

end FlushState

section

variable {Doc : Type} [SemilatticeSup Doc] [OrderBot Doc] (services : DocServices Doc)

/-- `compactIfDue` once the log is listed, with the thresholds of that time. -/
def compactEntries (thresholds : CompactThresholds) (entries : List (Text × UpdateRecord Doc)) :
    DocCall Doc Unit := do
  if entries = [] then pure ()
  else
    let now ← ask .now
    if totalBytes services entries < thresholds.sizeBytes ∧
        ageDue thresholds now entries = false then
      pure ()
    else
      let snapshot ← ask .readSnapshot
      let doc := applyEntries (match snapshot with
          | some record => ⊥ ⊔ record.data
          | none => ⊥) entries
      let file ← ask .readFile
      writeSnapshot doc ((file.map FileVersion.hash).or (snapshot.bind SnapshotRecord.fileHash))
      (entries.map Prod.fst).forM deleteUpdate

variable (state : FlushState Doc)

def resumeCall (id : Nat) (call : FlushCall Doc) : FlushState Doc :=
  match call.stage with
  | .appending (.await statement next) =>
    state.answer services id call.key statement fun answer => .appending (next answer)
  | .appending (.done (.ok _)) =>
    (state.setSize 0).setCall id
      (some ⟨call.key, .listing state.thresholds.sizeBytes listUpdateRecords⟩)
  | .appending (.done (.error _)) => state.setCall id none
  | .listing prev (.await statement next) =>
    state.answer services id call.key statement fun answer => .listing prev (next answer)
  | .listing prev (.done (.ok entries)) =>
    state.setCall id
      (some ⟨call.key, .compacting prev (compactEntries services state.thresholds entries)⟩)
  | .listing prev (.done (.error _)) => (state.setSize prev).setCall id none
  | .compacting prev (.await statement next) =>
    state.answer services id call.key statement fun answer => .compacting prev (next answer)
  | .compacting prev (.done _) => (state.setSize prev).setCall id none

/-- What the call awaits throws; a `finally` restores the threshold. -/
def failCall (id : Nat) (call : FlushCall Doc) : FlushState Doc :=
  match call.stage.saved with
  | none => state.setCall id none
  | some prev => (state.setSize prev).setCall id none

def flushStep : FlushAct Doc → Option (FlushState Doc)
  | .flush id key doc =>
    if (state.calls id).isSome then none
    else some (state.setCall id (some ⟨key, .appending (appendUpdate [doc])⟩))
  | .resume id => (state.calls id).map (resumeCall services state id)
  | .fail id => (state.calls id).map (failCall state id)

end

section

variable {Doc : Type}

/-- The call that ends with the step, if one does. -/
def endedBy (state : FlushState Doc) : FlushAct Doc → Option Nat
  | .flush _ _ _ => none
  | .fail id => some id
  | .resume id =>
    match (state.calls id).map FlushCall.stage with
    | some (.listing _ (.done (.error _))) => some id
    | some (.compacting _ (.done _)) => some id
    | _ => none

/-- A call that saved another threshold than zero restores it when no other
call is between its save and its restore. -/
def OutermostLast (state : FlushState Doc) (act : FlushAct Doc) : Prop :=
  ∀ id ∈ endedBy state act, state.saved id = none ∨ state.saved id = some 0 ∨
    ∀ other, other ≠ id → state.saved other = none

/-- The threshold stands, or it is zero and one call has saved it. -/
def Restorable (sizeBytes : Nat) (state : FlushState Doc) : Prop :=
  (state.thresholds.sizeBytes = sizeBytes ∧ ∀ id, state.saved id = none) ∨
    state.thresholds.sizeBytes = 0 ∧ ∃ outer, state.saved outer = some sizeBytes ∧
      ∀ other, other ≠ outer → state.saved other = none ∨ state.saved other = some 0

variable {state next : FlushState Doc} {act : FlushAct Doc}

theorem saved_setCall (id : Nat) (call : Option (FlushCall Doc)) :
    (state.setCall id call).saved =
      Function.update state.saved id (call.bind fun call => call.stage.saved) := by
  funext other
  by_cases same : other = id
  · simp [same, FlushState.saved, FlushState.setCall]
  · simp [same, FlushState.saved, FlushState.setCall]

theorem saved_setCall_of_same {id : Nat} {call : Option (FlushCall Doc)}
    (same : (call.bind fun call => call.stage.saved) = state.saved id) :
    (state.setCall id call).saved = state.saved := by
  rw [saved_setCall, same, Function.update_eq_self]

variable [SemilatticeSup Doc] [OrderBot Doc] {services : DocServices Doc}

/-- A step leaves the thresholds alone, saves one or restores one. -/
theorem flushStep_cases (taken : flushStep services state act = some next) :
    (next.thresholds = state.thresholds ∧ next.saved = state.saved) ∨
      (∃ id, state.saved id = none ∧ next.thresholds.sizeBytes = 0 ∧
        next.saved = Function.update state.saved id (some state.thresholds.sizeBytes)) ∨
      ∃ id prev, state.saved id = some prev ∧ endedBy state act = some id ∧
        next.thresholds.sizeBytes = prev ∧ next.saved = Function.update state.saved id none := by
  cases act with
  | flush id key doc =>
    rw [flushStep] at taken
    split at taken
    · cases taken
    · next idle =>
        cases taken
        rw [Option.not_isSome_iff_eq_none] at idle
        exact Or.inl ⟨rfl, saved_setCall_of_same (by simp [FlushState.saved, idle]; rfl)⟩
  | resume id =>
    obtain ⟨call, active, rfl⟩ := Option.map_eq_some_iff.mp taken
    obtain ⟨key, stage⟩ := call
    have isSaved : state.saved id = stage.saved := by simp [FlushState.saved, active]
    cases stage with
    | appending rest =>
      match rest with
      | .await statement next => exact Or.inl ⟨rfl, saved_setCall_of_same isSaved.symm⟩
      | .done (.ok _) => exact Or.inr (Or.inl ⟨id, isSaved, rfl, saved_setCall _ _⟩)
      | .done (.error _) => exact Or.inl ⟨rfl, saved_setCall_of_same isSaved.symm⟩
    | listing prev rest =>
      match rest with
      | .await statement next => exact Or.inl ⟨rfl, saved_setCall_of_same isSaved.symm⟩
      | .done (.ok entries) => exact Or.inl ⟨rfl, saved_setCall_of_same isSaved.symm⟩
      | .done (.error _) =>
        exact Or.inr (Or.inr ⟨id, prev, isSaved, by rw [endedBy, active]; rfl, rfl,
          saved_setCall _ _⟩)
    | compacting prev rest =>
      match rest with
      | .await statement next => exact Or.inl ⟨rfl, saved_setCall_of_same isSaved.symm⟩
      | .done _ =>
        exact Or.inr (Or.inr ⟨id, prev, isSaved, by rw [endedBy, active]; rfl, rfl,
          saved_setCall _ _⟩)
  | fail id =>
    obtain ⟨call, active, rfl⟩ := Option.map_eq_some_iff.mp taken
    have isSaved : state.saved id = call.stage.saved := by simp [FlushState.saved, active]
    unfold failCall
    cases window : call.stage.saved with
    | none => exact Or.inl ⟨rfl, saved_setCall_of_same (isSaved.trans window).symm⟩
    | some prev =>
      exact Or.inr (Or.inr ⟨id, prev, isSaved.trans window, rfl, rfl, saved_setCall _ _⟩)

theorem restorable_step {sizeBytes : Nat} (restorable : Restorable sizeBytes state)
    (last : OutermostLast state act) (taken : flushStep services state act = some next) :
    Restorable sizeBytes next := by
  rcases flushStep_cases taken with ⟨kept, same⟩ | ⟨id, fresh, zero, saves⟩ |
    ⟨id, prev, held, ends, restored, leaves⟩
  · rw [Restorable, kept, same]
    exact restorable
  · refine Or.inr ⟨zero, ?_⟩
    rcases restorable with ⟨standing, idle⟩ | ⟨isZero, outer, isOuter, others⟩
    · refine ⟨id, by rw [saves, Function.update_self, standing], ?_⟩
      intro other different
      rw [saves, Function.update_of_ne different]
      exact Or.inl (idle other)
    · have different : outer ≠ id := by
        rintro rfl
        cases fresh.symm.trans isOuter
      refine ⟨outer, by rw [saves, Function.update_of_ne different, isOuter], ?_⟩
      intro other notOuter
      by_cases same : other = id
      · rw [saves, same, Function.update_self, isZero]
        exact Or.inr rfl
      · rw [saves, Function.update_of_ne same]
        exact others other notOuter
  · rcases restorable with ⟨_, idle⟩ | ⟨_, outer, isOuter, others⟩
    · cases (idle id).symm.trans held
    have inner : ∀ other, other ≠ outer → next.saved other = none ∨ next.saved other = some 0 := by
      intro other notOuter
      rw [leaves]
      by_cases own : other = id
      · exact Or.inl (by rw [own, Function.update_self])
      · rw [Function.update_of_ne own]
        exact others other notOuter
    by_cases same : id = outer
    · subst same
      cases isOuter.symm.trans held
      have gone : next.saved id = none := by rw [leaves, Function.update_self]
      by_cases alone : ∃ other, other ≠ id ∧ next.saved other = some 0
      · obtain ⟨other, different, inside⟩ := alone
        have isNothing : sizeBytes = 0 := by
          rw [leaves, Function.update_of_ne different] at inside
          rcases last id ends with none | zero | alone
          · cases none.symm.trans held
          · exact Option.some.inj (held.symm.trans zero)
          · cases (alone other different).symm.trans inside
        subst isNothing
        refine Or.inr ⟨restored, other, inside, ?_⟩
        intro third _
        by_cases own : third = id
        · exact Or.inl (own ▸ gone)
        · exact inner third own
      · refine Or.inl ⟨restored, ?_⟩
        intro other
        by_cases own : other = id
        · exact own ▸ gone
        · exact (inner other own).resolve_right fun inside => alone ⟨other, own, inside⟩
    · have isNothing : prev = 0 := by
        rcases others id same with none | zero
        · cases none.symm.trans held
        · exact Option.some.inj (held.symm.trans zero)
      refine Or.inr ⟨restored.trans isNothing, outer, ?_, inner⟩
      rw [leaves, Function.update_of_ne (Ne.symm same), isOuter]

/-- Once every call has finished, the threshold is what it was before. -/
theorem threshold_restored {start : FlushState Doc} (idle : ∀ id, start.calls id = none)
    {acts : List (FlushAct Doc)} (meets : StepsMeet (flushStep services) OutermostLast start acts)
    (ran : runFrom (flushStep services) start acts = some state)
    (finished : ∀ id, state.calls id = none) :
    state.thresholds.sizeBytes = start.thresholds.sizeBytes := by
  have initial : Restorable start.thresholds.sizeBytes start :=
    Or.inl ⟨rfl, fun id => by rw [FlushState.saved, idle]; rfl⟩
  have restorable := invariant_of_stepsMeet (Restorable start.thresholds.sizeBytes)
    (fun _ _ _ holds condition taken => restorable_step holds condition taken) initial meets ran
  rcases restorable with ⟨standing, _⟩ | ⟨_, outer, isOuter, _⟩
  · exact standing
  · rw [FlushState.saved, finished] at isOuter
    cases isOuter

end

def idleFlushes : FlushState (Finset ℕ) where
  thresholds := ⟨262144, 86400000⟩
  documents := fun _ => loadedStores
  calls := fun _ => none

/-- A flush up to its save. -/
def flushActsOf (id : Nat) : List (FlushAct (Finset ℕ)) :=
  .flush id [] {id} :: List.replicate 5 (.resume id)

/-- The second call begins and ends while the first has the zero saved. -/
theorem threshold_restored_nested :
    ∃ state, runFrom (flushStep markServices) idleFlushes
        (flushActsOf 1 ++ flushActsOf 2 ++ [.fail 2, .fail 1]) = some state ∧
      state.thresholds.sizeBytes = 262144 := by
  refine ⟨_, rfl, @threshold_restored _ _ _ _ markServices idleFlushes (fun _ => rfl)
    (flushActsOf 1 ++ flushActsOf 2 ++ [.fail 2, .fail 1]) ?_ rfl ?_⟩
  · iterate 12
      refine ⟨nofun, fun _ taken => ?_⟩
      cases taken
    refine ⟨?_, fun _ taken => ?_⟩
    · intro id ends
      cases ends
      right; left
      rfl
    cases taken
    refine ⟨?_, fun _ _ => trivial⟩
    intro id ends
    cases ends
    right; right
    intro other different
    match other with
    | 0 => rfl
    | 1 => exact absurd rfl different
    | 2 => rfl
    | _ + 3 => rfl
  · intro id
    match id with
    | 0 => rfl
    | 1 => rfl
    | 2 => rfl
    | _ + 3 => rfl

/-- The second call saves the zero of the first and restores it last. -/
theorem threshold_lost :
    ¬ ∀ (acts : List (FlushAct (Finset ℕ))) (state : FlushState (Finset ℕ)),
      runFrom (flushStep markServices) idleFlushes acts = some state →
        (∀ id, state.calls id = none) → state.thresholds.sizeBytes = 262144 := by
  intro law
  have zero := law (flushActsOf 1 ++ flushActsOf 2 ++ [.fail 1, .fail 2]) _ rfl (by
    intro id
    match id with
    | 0 => rfl
    | 1 => rfl
    | 2 => rfl
    | _ + 3 => rfl)
  cases zero

end Aprovan.Doc
