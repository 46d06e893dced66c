import Aprovan.Client.OfflineEdits

/-!
# Draining the journal

Edits of the live tree that find no gateway are kept in OPFS and journaled;
then the journal is replayed once, with nothing in between, and the gateway
answers by its own rules.
-/

namespace Aprovan.Client

open Aprovan.Library

structure LocalState where
  opfs : Table Text
  pending : List PendingOp

/-- `syncedBackend.write` or `.remove`, when the request fails. -/
def editOffline (state : LocalState) (op : FileOp) : LocalState where
  opfs := cacheOp state.opfs op
  pending := setPending state.pending ⟨op.path, op.kind, ⟨[], none⟩⟩

/-- What is sent for an entry; the content is read from OPFS. -/
def requestFor (opfs : Table Text) (entry : PendingOp) : Option FileOp :=
  match entry.op with
  | .write => (opfs.get entry.path).map (.write entry.path)
  | .remove recursive => some (.remove entry.path recursive)

/-- `PUT` and `DELETE`: a path may be refused, and the removal of nothing is
answered 404. -/
def serve (admits : Text → Bool) (gateway : Table Text) (request : FileOp) : Option (Table Text) :=
  let found := match request with
    | .write _ _ => true
    | .remove _ _ => gateway.names.any request.covers
  if admits request.path && found then some (cacheOp gateway request) else none

/-- The loop of `flushPending`, which stops at the first failure. -/
def drain (admits : Text → Bool) (opfs : Table Text) :
    List PendingOp → Table Text → List PendingOp → Table Text × List PendingOp
  | [], gateway, pending => (gateway, pending)
  | entry :: rest, gateway, pending =>
    match (requestFor opfs entry).bind (serve admits gateway) with
    | none => (gateway, pending)
    | some next => drain admits opfs rest next (clearPending pending entry.path)

/-- The journal is empty and the trees are equal. -/
def Drains (admits : Text → Bool) (gateway : Table Text) (edited : LocalState) : Prop :=
  let drained := drain admits edited.opfs edited.pending gateway edited.pending
  drained.2 = [] ∧ ∀ path, drained.1.get path = edited.opfs.get path

def replayed (gateway opfs : Table Text) (entries : List PendingOp) (path : Text) : Option Text :=
  match lastEntry entries path with
  | none => gateway.get path
  | some entry => if entry.op = .write then opfs.get path else none

section

variable {admits : Text → Bool} {gateway opfs turn : Table Text}
  {entry : PendingOp} {front rest : List PendingOp}

theorem covers_write (isWrite : entry.op = .write) (path : Text) :
    entry.covers path = true ↔ path = entry.path := by
  rw [PendingOp.covers, isWrite]
  exact decide_eq_true_iff

theorem lastEntry_concat (path : Text) :
    lastEntry (front ++ [entry]) path =
      if entry.covers path then some entry else lastEntry front path := by
  rw [lastEntry, List.filter_append]
  by_cases covered : entry.covers path = true
  · simp [covered]
  · simp [covered, lastEntry]

/-- An entry is accepted at its turn. -/
def Ready (admits : Text → Bool) (opfs turn : Table Text) (entry : PendingOp) : Prop :=
  admits entry.path = true ∧ (entry.op = .write → (opfs.get entry.path).isSome) ∧
    (entry.op ≠ .write → ∃ path, entry.covers path = true ∧ (turn.get path).isSome)

theorem served_iff :
    ((requestFor opfs entry).bind (serve admits turn)).isSome ↔ Ready admits opfs turn entry := by
  obtain ⟨path, kind, scope⟩ := entry
  cases kind with
  | write =>
    cases content : opfs.get path <;>
      simp [requestFor, serve, Ready, content, FileOp.path]
  | remove recursive =>
    have any : (turn.names.any (FileOp.remove path recursive).covers = true) ↔
        ∃ other, (FileOp.remove path recursive).covers other = true ∧ (turn.get other).isSome := by
      simp only [List.any_eq_true, Table.mem_names_iff, Option.isSome_iff_exists]
      exact exists_congr fun _ => and_comm
    simp only [requestFor, serve, Ready, Option.bind_some]
    split
    · next accepted =>
        rw [Bool.and_eq_true, any] at accepted
        refine iff_of_true rfl ⟨accepted.1, ?_, fun _ => accepted.2⟩
        intro written
        cases written
    · next refused =>
        rw [Bool.and_eq_true, any] at refused
        refine iff_of_false (Bool.false_ne_true) ?_
        rintro ⟨admitted, _, removes⟩
        refine refused ⟨admitted, removes ?_⟩
        intro written
        cases written

theorem requestFor_eq_some {request : FileOp} (isRequest : requestFor opfs entry = some request) :
    request.covers = entry.covers ∧ request.effect =
        if entry.op = .write then opfs.get entry.path else none := by
  obtain ⟨path, kind, scope⟩ := entry
  cases kind with
  | write =>
    obtain ⟨content, held, rfl⟩ := Option.map_eq_some_iff.mp isRequest
    exact ⟨rfl, held.symm⟩
  | remove recursive =>
    cases isRequest
    exact ⟨rfl, rfl⟩

theorem get_served {next : Table Text}
    (served : (requestFor opfs entry).bind (serve admits turn) = some next)
    (values : ∀ path, turn.get path = replayed gateway opfs front path) :
    ∀ path, next.get path = replayed gateway opfs (front ++ [entry]) path := by
  intro path
  obtain ⟨request, isRequest, accepted⟩ := Option.bind_eq_some_iff.mp served
  obtain ⟨covers, effect⟩ := requestFor_eq_some isRequest
  simp only [serve, Option.ite_none_right_eq_some] at accepted
  rw [← Option.some.inj accepted.2, get_cacheOp, covers, effect, values,
    replayed, replayed, lastEntry_concat]
  by_cases covered : entry.covers path = true
  · rw [if_pos covered, if_pos covered]
    by_cases isWrite : entry.op = .write
    · rw [(covers_write isWrite path).mp covered]
    · simp only [if_neg isWrite]
  · rw [if_neg covered, if_neg covered]

/-- The journal is emptied just when each entry is accepted at its turn. -/
theorem drain_iff (values : ∀ path, turn.get path = replayed gateway opfs front path)
    (distinct : (rest.map PendingOp.path).Nodup) :
    ((drain admits opfs rest turn rest).2 = [] ↔
      ∀ before entry after, rest = before ++ entry :: after → admits entry.path = true ∧
          (entry.op = .write → (opfs.get entry.path).isSome) ∧
          (entry.op ≠ .write → ∃ path, entry.covers path = true ∧
            (replayed gateway opfs (front ++ before) path).isSome)) ∧
    ((drain admits opfs rest turn rest).2 = [] →
      ∀ path, (drain admits opfs rest turn rest).1.get path =
        replayed gateway opfs (front ++ rest) path) := by
  induction rest generalizing front turn with
  | nil =>
    rw [List.append_nil]
    refine ⟨iff_of_true rfl fun before entry after impossible => ?_,
      fun _ => values⟩
    simp at impossible
  | cons entry rest ih =>
    have ready : Ready admits opfs turn entry ↔ admits entry.path = true ∧
          (entry.op = .write → (opfs.get entry.path).isSome) ∧
          (entry.op ≠ .write → ∃ path, entry.covers path = true ∧
            (replayed gateway opfs (front ++ []) path).isSome) := by
      simp only [Ready, values, List.append_nil]
    rw [← served_iff] at ready
    rw [drain, clearPending_head distinct]
    cases served : (requestFor opfs entry).bind (serve admits turn) with
    | none =>
      rw [served] at ready
      refine ⟨iff_of_false nofun fun all => ?_, nofun⟩
      exact nomatch ready.mpr (all [] entry rest rfl)
    | some next =>
      rw [served] at ready
      have step := ih (get_served served values) (List.nodup_cons.mp distinct).2
      rw [List.append_assoc] at step
      refine ⟨step.1.trans ⟨?_, ?_⟩, step.2⟩
      · intro later before other after split
        cases before with
        | nil =>
          cases split
          exact ready.mp rfl
        | cons first before =>
          cases split
          have found := later before other after rfl
          rw [List.append_assoc] at found
          exact found
      · intro all before other after split
        rw [List.append_assoc]
        exact all (entry :: before) other after (by rw [split]; rfl)

end

section

variable {gateway : Table Text} {edits : List FileOp} {state : LocalState}

structure Journaled (gateway : Table Text) (edits : List FileOp) (state : LocalState) : Prop where
  distinct : (state.pending.map PendingOp.path).Nodup
  made : ∀ entry ∈ state.pending, ∃ op ∈ edits, op.path = entry.path ∧ op.kind = entry.op
  removed : ∀ path entry, lastEntry state.pending path = some entry →
    entry.op ≠ .write → state.opfs.get path = none
  uncovered : ∀ path, lastEntry state.pending path = none → state.opfs.get path =
      if edits.any (·.covers path) then none else gateway.get path

theorem lastEntry_clearPending_of_ne {pending : List PendingOp} {last : PendingOp}
    {path cleared : Text} (found : lastEntry pending path = some last)
    (other : last.path ≠ cleared) :
    lastEntry (clearPending pending cleared) path = some last := by
  obtain ⟨front, isFront⟩ := List.getLast?_eq_some_iff.mp found
  rw [lastEntry, clearPending, List.filter_filter]
  simp only [Bool.and_comm]
  rw [← List.filter_filter, isFront, List.filter_append]
  simp [other]

theorem journaled_edit (journaled : Journaled gateway edits state) (op : FileOp) :
    Journaled gateway (edits ++ [op]) (editOffline state op) := by
  have kept : ∀ path, op.covers path = false → lastEntry (editOffline state op).pending path =
          lastEntry state.pending path ∨
        (state.opfs.get path = none ∧ edits.any (·.covers path) = true) := by
    intro path outside
    have isCleared : lastEntry (editOffline state op).pending path =
        lastEntry (clearPending state.pending op.path) path := by
      have same : PendingOp.covers ⟨op.path, op.kind, ⟨[], none⟩⟩ path = false := outside
      simp [editOffline, setPending, clearPending, lastEntry, same]
    rw [isCleared]
    cases found : lastEntry state.pending path with
    | none =>
      rw [lastEntry_eq_none_iff] at found ⊢
      exact Or.inl fun entry member => found entry (List.mem_filter.mp member).1
    | some last =>
      by_cases own : last.path = op.path
      · obtain ⟨member, covered⟩ := mem_of_lastEntry found
        have isRemoval : last.op ≠ .write := by
          intro isWrite
          rw [(covers_write isWrite path).mp covered, own,
            show op.covers op.path = true from op.kind.covers_self _]
            at outside
          cases outside
        obtain ⟨other, isEdit, path_eq, kind_eq⟩ :=
          journaled.made last member
        refine Or.inr ⟨journaled.removed path last found isRemoval,
          List.any_eq_true.mpr ⟨other, isEdit, ?_⟩⟩
        rw [FileOp.covers, path_eq, kind_eq]
        exact covered
      · exact Or.inl (lastEntry_clearPending_of_ne found own)
  have own : ∀ path, op.covers path = true → lastEntry (editOffline state op).pending path =
        some ⟨op.path, op.kind, ⟨[], none⟩⟩ := fun path covered =>
    @lastEntry_setPending_of_covers state.pending ⟨op.path, op.kind, ⟨[], none⟩⟩ path covered
  refine ⟨nodup_setPending journaled.distinct _, ?_, ?_, ?_⟩
  · intro entry member
    rcases List.mem_append.mp member with old | new
    · obtain ⟨other, isEdit, same⟩ :=
        journaled.made entry (List.mem_filter.mp old).1
      exact ⟨other, List.mem_append_left _ isEdit, same⟩
    · rw [List.mem_singleton.mp new]
      exact ⟨op, by simp, rfl, rfl⟩
  · intro path entry found isRemoval
    show (cacheOp state.opfs op).get path = none
    rw [get_cacheOp]
    by_cases covered : op.covers path = true
    · rw [if_pos covered]
      cases (own path covered).symm.trans found
      cases op with
      | write path content => exact absurd rfl isRemoval
      | remove path recursive => rfl
    · rw [if_neg covered]
      rcases kept path (Bool.eq_false_iff.mpr covered) with same | gone
      · exact journaled.removed path entry (same ▸ found) isRemoval
      · exact gone.1
  · intro path nothing
    show (cacheOp state.opfs op).get path = _
    rw [get_cacheOp]
    by_cases covered : op.covers path = true
    · cases (own path covered).symm.trans nothing
    · rw [if_neg covered]
      have before : (edits ++ [op]).any (·.covers path) = edits.any (·.covers path) := by
        simp [covered]
      rw [before]
      rcases kept path (Bool.eq_false_iff.mpr covered) with same | gone
      · exact journaled.uncovered path (same ▸ nothing)
      · rw [gone.1, if_pos gone.2]

theorem journaled_edits {opfs : Table Text} (agree : ∀ path, opfs.get path = gateway.get path)
    (edits : List FileOp) :
    Journaled gateway edits (edits.foldl editOffline ⟨opfs, []⟩) := by
  induction edits using List.reverseRecOn with
  | nil => exact ⟨List.nodup_nil, nofun, nofun, fun path _ => agree path⟩
  | append_singleton edits op ih =>
    rw [List.foldl_append]
    exact journaled_edit ih op

end

/-- Edits that OPFS, the journal and the gateway read alike. -/
structure CanonicalEdits where
  ops : List FileOp
  canonical : ∀ op ∈ ops, isCanonical op.path = true

structure AgreedTrees where
  gateway : Table Text
  opfs : Table Text
  agree : ∀ path, opfs.get path = gateway.get path

/-- The replay can go through, and no removal has left the journal that
still matters. -/
structure Drainable (admits : Text → Bool) (gateway : Table Text)
    (edits : List FileOp) (edited : LocalState) : Prop where
  admitted : ∀ entry ∈ edited.pending, admits entry.path = true
  stored : ∀ entry ∈ edited.pending, entry.op = .write → (edited.opfs.get entry.path).isSome
  found : ∀ before entry after, edited.pending = before ++ entry :: after → entry.op ≠ .write →
      ∃ path, entry.covers path = true ∧ (gateway.get path).isSome ∧
        ∀ earlier ∈ before, earlier.covers path = false
  kept : ∀ op ∈ edits, ∀ path, op.covers path = true → (gateway.get path).isSome →
      ∃ entry ∈ edited.pending, entry.covers path = true

/-- What a removal finds at its turn was on the gateway before. -/
theorem replayed_isSome_iff {gateway : Table Text} {edits : List FileOp} {edited : LocalState}
    (journaled : Journaled gateway edits edited) {before after : List PendingOp}
    {entry : PendingOp} {path : Text} (split : edited.pending = before ++ entry :: after)
    (covered : entry.covers path = true) :
    (replayed gateway edited.opfs before path).isSome ↔ (gateway.get path).isSome ∧
        ∀ earlier ∈ before, earlier.covers path = false := by
  rw [← lastEntry_eq_none_iff, replayed]
  cases found : lastEntry before path with
  | none => exact (and_iff_left rfl).symm
  | some earlier =>
    refine iff_of_false (fun held => ?_) nofun
    simp only at held
    by_cases isWrite : earlier.op = .write
    · rw [if_pos isWrite] at held
      obtain ⟨member, covers⟩ := mem_of_lastEntry found
      have same := (covers_write isWrite path).mp covers
      cases isLast : lastEntry (entry :: after) path with
      | none =>
        have uncovered := lastEntry_eq_none_iff.mp isLast entry List.mem_cons_self
        rw [covered] at uncovered
        cases uncovered
      | some last =>
        obtain ⟨lastMember, lastCovers⟩ := mem_of_lastEntry isLast
        have distinct := journaled.distinct
        rw [split, List.map_append, List.nodup_append] at distinct
        have lastRemoves : last.op ≠ .write := by
          intro lastWrite
          have lastSame := (covers_write lastWrite path).mp lastCovers
          exact distinct.2.2 _ (List.mem_map_of_mem member) _
            (List.mem_map_of_mem lastMember) (same.symm.trans lastSame)
        have whole : lastEntry edited.pending path = some last := by
          unfold lastEntry at isLast ⊢
          rw [split, List.filter_append, List.getLast?_append, isLast]
          rfl
        rw [journaled.removed path last whole lastRemoves] at held
        cases held
    · rw [if_neg isWrite] at held
      cases held

end Aprovan.Client
