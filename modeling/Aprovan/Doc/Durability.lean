import Aprovan.Doc.Persistence

/-!
# Durability of documents

Appends, compactions, materializations and flushes run one after the other; a
crash may come between any two of their statements and is followed by a
load.  At every such point the snapshot and the log together contain every
acknowledged update.
-/

namespace Aprovan.Doc

open Aprovan.Library

inductive DocOperation (Doc : Type) where
  | append (batch : List Doc)
  | compact (thresholds : CompactThresholds)
  | materialize (doc : Doc)
  | flush (thresholds : CompactThresholds) (doc : Doc)
  | materializeAndFlush (thresholds : CompactThresholds) (doc : Doc)

section

variable {Doc : Type} [SemilatticeSup Doc] [OrderBot Doc]

variable (services : DocServices Doc)

def DocOperation.serve : DocOperation Doc → DocCall Doc Unit
  | .append batch => appendUpdate batch
  | .compact thresholds => compactIfDue services thresholds
  | .materialize doc => Aprovan.Doc.materialize services doc
  | .flush thresholds doc => flushDurableAfterMaterialize services thresholds doc
  | .materializeAndFlush thresholds doc => Aprovan.Doc.materializeAndFlush services thresholds doc

/-- The updates whose append the operation acknowledges when it returns. -/
def DocOperation.updates : DocOperation Doc → List Doc
  | .append batch => batch
  | .compact _ => []
  | .materialize _ => []
  | .flush _ doc => [doc]
  | .materializeAndFlush _ doc => [doc]

abbrev DocSystem (Doc : Type) :=
  Sequential (DocStores Doc) (DocOperation Doc) (@DocStatement.Answer Doc) Empty Unit

abbrev docStep :=
  Sequential.step (execute services) (DocOperation.serve services)

def acknowledged (system : DocSystem Doc) : List Doc :=
  system.returned.flatMap DocOperation.updates

/-- After a crash, a load returns a document with every acknowledged
update. -/
def Durable (system : DocSystem Doc) : Prop :=
  ∃ doc, ((loadDurable services).run (execute services) system.shared).outcome = .ok doc ∧
    ∀ update ∈ acknowledged system, update ≤ doc

def Recognised (stores : DocStores Doc) : Prop :=
  ∃ record, stores.snapshot = some record ∧ stores.file.map FileVersion.hash = record.fileHash

/-- The history is recognised, or a document that is started from the file
has every acknowledged update. -/
def CrashCondition (system : DocSystem Doc) : Prop :=
  Recognised system.shared ∨ ∀ update ∈ acknowledged system,
      update ≤ docOfFile services (services.clientId system.shared.drawn) system.shared.file

/-- Ids are drawn once: no key in the log has one that is still to come. -/
structure FreshIds (stores : DocStores Doc) : Prop where
  distinct : Function.Injective services.uuid
  unused : ∀ key ∈ stores.updates.names, ∀ number, stores.drawn ≤ number →
    ∀ seq, key ≠ Vcs.seqKey seq (services.uuid number)

def snapshotData (stores : DocStores Doc) : Doc :=
  match stores.snapshot with
  | some record => ⊥ ⊔ record.data
  | none => ⊥

def durable (stores : DocStores Doc) : Doc :=
  applyEntries (snapshotData stores) stores.updates.rows

/-- The updates are stored, and the keys to come are new. -/
structure Stored (updates : List Doc) (stores : DocStores Doc) : Prop where
  covered : ∀ update ∈ updates, update ≤ durable stores
  fresh : FreshIds services stores

end

section

variable {Doc : Type} [SemilatticeSup Doc]
  {entries : List (Text × UpdateRecord Doc)}

theorem applyEntries_le_iff {doc bound : Doc} :
    applyEntries doc entries ≤ bound ↔ doc ≤ bound ∧ ∀ entry ∈ entries, entry.2.data ≤ bound := by
  unfold applyEntries
  induction entries generalizing doc with
  | nil => simp
  | cons entry rest ih => rw [List.foldl_cons, ih, sup_le_iff, List.forall_mem_cons, and_assoc]

theorem le_applyEntries (doc : Doc) (entries : List (Text × UpdateRecord Doc)) :
    doc ≤ applyEntries doc entries :=
  (applyEntries_le_iff.mp le_rfl).1

theorem entry_le_applyEntries {doc : Doc} {entry : Text × UpdateRecord Doc}
    (member : entry ∈ entries) :
    entry.2.data ≤ applyEntries doc entries :=
  (applyEntries_le_iff.mp le_rfl).2 entry member

theorem applyEntries_mono {first second : Doc} {some more : List (Text × UpdateRecord Doc)}
    (base : first ≤ second) (within : ∀ entry ∈ some, entry ∈ more) :
    applyEntries first some ≤ applyEntries second more := by
  rw [applyEntries_le_iff]
  refine ⟨base.trans (le_applyEntries second more), ?_⟩
  intro entry member
  exact entry_le_applyEntries (within entry member)

end

theorem seqKey_id_inj {seq other : Nat} {id otherId : Text}
    (same : Vcs.seqKey seq id = Vcs.seqKey other otherId) : id = otherId := by
  have ordinals := congrArg (List.takeWhile (· ≠ '#')) same
  rw [Vcs.takeWhile_seqKey, Vcs.takeWhile_seqKey] at ordinals
  rw [Vcs.seqKey_eq, Vcs.seqKey_eq, ordinals] at same
  exact (List.cons.inj (List.append_cancel_left same)).2

section

variable {Doc : Type} {services : DocServices Doc}
  {stores next : DocStores Doc}

theorem freshIds_congr (fresh : FreshIds services stores) (drawn : stores.drawn ≤ next.drawn)
    (names : ∀ key ∈ next.updates.names, key ∈ stores.updates.names) :
    FreshIds services next := by
  refine ⟨fresh.distinct, ?_⟩
  intro key member number later
  exact fresh.unused key (names key member) number (drawn.trans later)

theorem safe_ask {order : DocStores Doc → Prop} (statement : DocStatement Doc)
    {answer : statement.Answer} {returns : statement.Answer → DocStores Doc → Prop}
    (inOrder : order stores) (answered : (execute services statement stores).1 = .ok answer)
    (later : order (execute services statement stores).2)
    (returned : returns answer (execute services statement stores).2) :
    SafeFrom (execute services) order returns (ask statement) stores :=
  safe_perform inOrder answered later returned

theorem run_readEntry (services : DocServices Doc) (stores : DocStores Doc)
    (entries : List (Text × UpdateRecord Doc)) (key : Text) :
    let finished := (readEntry entries key).run (execute services) stores
    finished.state = stores ∧ finished.outcome = .ok (entries ++
        ((stores.updates.get key).map fun record => (key, record)).toList) := by
  have asked : ((ask (.readUpdate key)).run (execute services)
      stores).outcome = .ok (stores.updates.get key) :=
    rfl
  unfold readEntry
  dsimp only
  rw [run_bind_ok asked]
  cases stores.updates.get key with
  | none =>
    refine ⟨rfl, ?_⟩
    rw [Option.map_none, Option.toList_none, List.append_nil]
    rfl
  | some record => exact ⟨rfl, rfl⟩

theorem run_readEntries (services : DocServices Doc) (stores : DocStores Doc) (keys : List Text)
    (entries : List (Text × UpdateRecord Doc)) :
    let finished := (keys.foldlM readEntry entries).run (execute services) stores
    finished.state = stores ∧ finished.outcome = .ok (entries ++ keys.filterMap fun key =>
        (stores.updates.get key).map fun record => (key, record)) := by
  induction keys generalizing entries with
  | nil =>
    refine ⟨rfl, ?_⟩
    rw [List.filterMap_nil, List.append_nil]
    rfl
  | cons key rest ih =>
    obtain ⟨state, outcome⟩ := run_readEntry services stores entries key
    have split : (key :: rest).foldlM readEntry entries = readEntry entries key >>= fun next =>
          rest.foldlM readEntry next :=
      rfl
    rw [split]
    dsimp only
    rw [run_bind_ok outcome, state]
    obtain ⟨later, listed⟩ := ih (entries ++
      ((stores.updates.get key).map fun record => (key, record)).toList)
    refine ⟨later, listed.trans ?_⟩
    rw [List.append_assoc, List.filterMap_cons]
    cases stores.updates.get key with
    | none => rfl
    | some record => rfl

/-- What a listing of the log answers. -/
def listedEntries (stores : DocStores Doc) : List (Text × UpdateRecord Doc) :=
  (stores.updates.names.insertionSort (· ≤ ·)).filterMap fun key =>
    (stores.updates.get key).map fun record => (key, record)

theorem mem_listedEntries {entry : Text × UpdateRecord Doc} :
    entry ∈ listedEntries stores ↔ entry ∈ stores.updates.rows := by
  obtain ⟨key, record⟩ := entry
  simp only [listedEntries, List.mem_filterMap, List.mem_insertionSort,
    Option.map_eq_some_iff, Prod.mk.injEq]
  rw [← Table.get_eq_some_iff]
  constructor
  · rintro ⟨other, _, held, found, rfl, rfl⟩
    exact found
  · intro found
    exact ⟨key, Table.mem_names_iff.mpr ⟨record, found⟩, record, found, rfl, rfl⟩

theorem run_listUpdateRecords (services : DocServices Doc) (stores : DocStores Doc) :
    let finished := listUpdateRecords.run (execute services) stores
    finished.state = stores ∧ finished.outcome = .ok (listedEntries stores) := by
  have asked : ((ask .listUpdateKeys).run (execute services) stores).outcome =
      .ok (stores.updates.names.insertionSort (· ≤ ·)) :=
    rfl
  unfold listUpdateRecords
  dsimp only
  rw [run_bind_ok asked]
  exact run_readEntries services stores _ []

def isReading : DocStatement Doc → Bool
  | .readFile => true
  | .readSnapshot => true
  | .listUpdateKeys => true
  | .readUpdate _ => true
  | _ => false

theorem reads_listUpdateRecords : Asks (isReading ·) (@listUpdateRecords Doc) := by
  have asks : ∀ statement : DocStatement Doc, isReading statement = true →
      Asks (isReading ·) (ask statement) :=
    fun statement reading => asks_perform reading
  apply asks_bind (asks .listUpdateKeys rfl)
  intro keys
  apply asks_foldlM
  intro entries key
  apply asks_bind (asks (.readUpdate key) rfl)
  intro found
  cases found with
  | none => exact asks_pure entries
  | some record => exact asks_pure _

/-- A listing may be cut short anywhere, and answers the rows. -/
theorem safe_listUpdateRecords {order : DocStores Doc → Prop} (inOrder : order stores) :
    SafeFrom (execute services) order
      (fun entries state => entries = listedEntries stores ∧ state = stores)
      listUpdateRecords stores := by
  have reading : SafeFrom (execute services) order (fun _ => order)
      listUpdateRecords stores := by
    apply safe_of_asks _ reads_listUpdateRecords inOrder
    intro statement state reads held
    cases statement <;> first
      | exact held
      | cases reads
  obtain ⟨state, outcome⟩ := run_listUpdateRecords services stores
  apply reading.ofRun
  intro entries listed
  rw [outcome] at listed
  cases listed
  exact ⟨rfl, state⟩

theorem answered_execute (services : DocServices Doc)
    (statement : DocStatement Doc) (stores : DocStores Doc) :
    ∃ answer, (execute services statement stores).1 = .ok answer := by
  cases statement <;> exact ⟨_, rfl⟩

theorem succeeds_clearUpdateLog : Succeeds (@clearUpdateLog Doc) := by
  apply succeeds_bind (succeeds_perform (DocStatement.listUpdateKeys))
  intro keys
  apply succeeds_forM
  intro key
  apply succeeds_bind (succeeds_perform (DocStatement.deleteUpdate key))
  intro removed
  exact succeeds_pure ()

end

section

variable {Doc : Type} [SemilatticeSup Doc] [OrderBot Doc]
  {services : DocServices Doc} {stores next : DocStores Doc}
  {updates : List Doc}

section

variable (stored : Stored services updates stores)

include stored

theorem stored_congr (drawn : stores.drawn ≤ next.drawn)
    (snapshot : next.snapshot = stores.snapshot) (log : next.updates = stores.updates) :
    Stored services updates next := by
  refine ⟨?_, freshIds_congr stored.fresh drawn fun key member => by
    rwa [← log]⟩
  intro update member
  have same : durable next = durable stores := by
    rw [durable, durable, snapshotData, snapshotData, snapshot, log]
  rw [same]
  exact stored.covered update member

theorem stored_draw : Stored services updates stores.draw :=
  stored_congr stored (Nat.le_succ _) rfl rfl

theorem stored_of_subset {fewer : List Doc} (within : ∀ update ∈ fewer, update ∈ updates) :
    Stored services fewer stores :=
  ⟨fun update member => stored.covered update (within update member), stored.fresh⟩

end

theorem stored_put (update : Doc) (createdAt seq : Nat) (stored : Stored services updates stores) :
    Stored services (updates ++ [update]) { stores.draw with
        updates := stores.draw.updates.put
          (Vcs.seqKey seq (services.uuid stores.drawn))
          ⟨update, createdAt⟩ } := by
  have absent : Vcs.seqKey seq (services.uuid stores.drawn) ∉ stores.updates.names := by
    intro member
    exact stored.fresh.unused _ member stores.drawn le_rfl seq rfl
  have rows : (stores.updates.put (Vcs.seqKey seq (services.uuid stores.drawn))
      ⟨update, createdAt⟩).rows = stores.updates.rows ++
        [(Vcs.seqKey seq (services.uuid stores.drawn), ⟨update, createdAt⟩)] := by
    show Table.putRow _ _ _ = _
    unfold Table.putRow
    exact if_neg absent
  constructor
  · intro added member
    show added ≤ applyEntries (snapshotData stores) (stores.updates.put
      (Vcs.seqKey seq (services.uuid stores.drawn))
      ⟨update, createdAt⟩).rows
    rw [rows]
    rcases List.mem_append.mp member with old | new
    · apply (stored.covered added old).trans
      apply applyEntries_mono le_rfl
      intro entry inside
      exact List.mem_append_left _ inside
    · rw [List.mem_singleton.mp new]
      have row : (Vcs.seqKey seq (services.uuid stores.drawn),
          (⟨update, createdAt⟩ : UpdateRecord Doc)) ∈
          stores.updates.rows ++ [(Vcs.seqKey seq (services.uuid stores.drawn),
              ⟨update, createdAt⟩)] :=
        List.mem_append_right _ (List.mem_singleton_self _)
      exact entry_le_applyEntries row
  · refine ⟨stored.fresh.distinct, ?_⟩
    intro key member number later other same
    have known : key ∈ (stores.updates.put (Vcs.seqKey seq (services.uuid stores.drawn))
        ⟨update, createdAt⟩).names :=
      member
    have counted : stores.drawn + 1 ≤ number := later
    rcases Table.mem_names_put.mp known with new | old
    · rw [new] at same
      have sameId := stored.fresh.distinct (seqKey_id_inj same)
      omega
    · exact stored.fresh.unused key old number (by omega) other same

/-- The loop of an append with these rows to come. -/
def AppendedSoFar (services : DocServices Doc) (updates batch : List Doc)
    (items : List Doc) (stores : DocStores Doc) : Prop :=
  ∃ done, batch = done ++ items ∧ Stored services (updates ++ done) stores

theorem safe_appendEntries {batch items : List Doc} {createdAt : Nat}
    (seq : Nat) (start : AppendedSoFar services updates batch items stores) :
    SafeFrom (execute services) (Stored services updates)
      (fun _ => AppendedSoFar services updates batch [])
      (items.foldlM (appendEntry createdAt) seq) stores := by
  have before : ∀ items state, AppendedSoFar services updates batch items state →
        Stored services updates state := by
    intro items state sofar
    obtain ⟨done, _, held⟩ := sofar
    exact stored_of_subset held fun update member => List.mem_append_left _ member
  apply safe_foldlM (fun items _ state => before items state) _ start
  intro item rest seq state sofar
  have earlier := before _ _ sofar
  obtain ⟨done, split, held⟩ := sofar
  have written := stored_put item createdAt seq held
  have after : Stored services updates _ :=
    stored_of_subset written fun update member =>
      List.mem_append_left _ (List.mem_append_left _ member)
  unfold appendEntry
  apply safe_bind
  refine safe_ask _ earlier rfl (stored_draw earlier) ?_
  apply safe_bind
  refine safe_ask (.writeUpdate _ _) (stored_draw earlier) rfl after ?_
  apply safe_pure after
  refine ⟨done ++ [item], ?_, ?_⟩
  · rw [split, List.append_assoc]
    rfl
  · rw [← List.append_assoc]
    exact written

theorem safe_appendUpdate (batch : List Doc) (stored : Stored services updates stores) :
    SafeFrom (execute services) (Stored services updates)
      (fun _ => Stored services (updates ++ batch)) (appendUpdate batch) stores := by
  unfold appendUpdate
  apply safe_bind
  refine safe_ask _ stored rfl stored ?_
  apply safe_bind
  refine safe_ask _ stored rfl (stored_draw stored) ?_
  apply safe_bind
  have start : AppendedSoFar services updates batch batch stores.draw :=
    ⟨[], rfl, by rw [List.append_nil]; exact stored_draw stored⟩
  apply (safe_appendEntries _ start).weaken
  intro seq state ended
  obtain ⟨done, split, held⟩ := ended
  rw [List.append_nil] at split
  subst split
  exact safe_pure (stored_of_subset held fun update member => List.mem_append_left _ member) held

/-- The rest of a compaction: the snapshot has the updates, whatever is left
of the log. -/
structure Compacted (services : DocServices Doc) (updates : List Doc)
    (stores : DocStores Doc) : Prop where
  covered : ∀ update ∈ updates, update ≤ snapshotData stores
  fresh : FreshIds services stores

theorem stored_of_compacted (compacted : Compacted services updates stores) :
    Stored services updates stores :=
  ⟨fun update member =>
    (compacted.covered update member).trans (le_applyEntries _ _),
    compacted.fresh⟩

theorem safe_deleteUpdates (keys : List Text) (compacted : Compacted services updates stores) :
    SafeFrom (execute services) (Stored services updates)
      (fun _ => Compacted services updates) (keys.forM deleteUpdate) stores := by
  refine safe_forM (fun _ => stored_of_compacted) ?_ keys compacted
  intro key state held
  have after : Compacted services updates
      { state with updates := state.updates.keep (· ≠ key) } := by
    refine ⟨held.covered, freshIds_congr held.fresh le_rfl ?_⟩
    intro other member
    have kept : other ∈ (state.updates.keep (· ≠ key)).names := member
    obtain ⟨record, found⟩ := Table.mem_names_iff.mp kept
    rw [Table.get_keep] at found
    split at found
    · exact Table.mem_names_iff.mpr ⟨record, found⟩
    · cases found
  unfold deleteUpdate
  apply safe_bind
  refine safe_ask (.deleteUpdate key) (stored_of_compacted held) rfl (stored_of_compacted after) ?_
  exact safe_pure (stored_of_compacted after) after

theorem durable_le_compaction (base : Doc) (same : base = snapshotData stores) :
    durable stores ≤ applyEntries base (listedEntries stores) := by
  rw [same]
  apply applyEntries_mono le_rfl
  intro entry member
  exact mem_listedEntries.mpr member

theorem safe_compactIfDue (thresholds : CompactThresholds)
    (stored : Stored services updates stores) :
    SafeFrom (execute services) (Stored services updates) (fun _ => Stored services updates)
      (compactIfDue services thresholds) stores := by
  unfold compactIfDue
  apply safe_bind
  apply (safe_listUpdateRecords stored).weaken
  rintro entries state ⟨rfl, rfl⟩
  by_cases empty : listedEntries state = []
  · rw [if_pos empty]
    exact safe_pure stored stored
  rw [if_neg empty]
  have drawn := stored_draw stored
  apply safe_bind
  refine safe_ask _ stored rfl drawn ?_
  by_cases due : totalBytes services (listedEntries state) < thresholds.sizeBytes ∧
      ageDue thresholds (services.time state.drawn) (listedEntries state) = false
  · rw [if_pos due]
    exact safe_pure drawn drawn
  rw [if_neg due]
  apply safe_bind
  refine safe_ask _ drawn rfl drawn ?_
  apply safe_bind
  refine safe_ask _ drawn rfl drawn ?_
  have twice := stored_draw drawn
  have base : (match state.snapshot with
      | some record => ⊥ ⊔ record.data
      | none => ⊥) = snapshotData state :=
    rfl
  have written : ∀ time fileHash, Compacted services updates { state.draw.draw with
        snapshot := some ⟨applyEntries (snapshotData state)
          (listedEntries state), time, fileHash⟩ } := by
    intro time fileHash
    constructor
    · intro update member
      apply (stored.covered update member).trans
      apply (durable_le_compaction _ rfl).trans
      exact le_sup_right
    · exact freshIds_congr twice.fresh le_rfl fun key member => member
  apply safe_bind
  apply safe_bind
  refine safe_ask _ drawn rfl twice ?_
  refine safe_ask (.writeSnapshot _) twice rfl (stored_of_compacted (written _ _)) ?_
  apply (safe_deleteUpdates _ (written _ _)).weaken
  intro _ state held
  exact stored_of_compacted held

theorem safe_materialize (doc : Doc) (stored : Stored services updates stores) :
    SafeFrom (execute services) (Stored services updates)
      (fun _ => Stored services updates) (materialize services doc) stores := by
  have after : Stored services updates
      (execute services (.writeFile (services.text doc)) stores).2 :=
    stored_congr stored le_rfl rfl rfl
  unfold materialize
  apply safe_bind
  refine safe_ask (.writeFile _) stored rfl after ?_
  exact safe_pure after after

theorem safe_flush (thresholds : CompactThresholds) (doc : Doc)
    (stored : Stored services updates stores) :
    SafeFrom (execute services) (Stored services updates)
      (fun _ => Stored services (updates ++ [doc]))
      (flushDurableAfterMaterialize services thresholds doc) stores := by
  unfold flushDurableAfterMaterialize
  apply safe_bind
  apply (safe_appendUpdate [doc] stored).weaken
  intro _ state appended
  have fewer : ∀ state, Stored services (updates ++ [doc]) state →
      Stored services updates state := by
    intro state held
    exact stored_of_subset held fun update member => List.mem_append_left _ member
  exact (safe_compactIfDue { thresholds with sizeBytes := 0 } appended).inOrderOf fewer

theorem safe_serve (operation : DocOperation Doc) (stored : Stored services updates stores) :
    SafeFrom (execute services) (Stored services updates)
      (fun _ => Stored services (updates ++ operation.updates))
      (operation.serve services) stores := by
  cases operation with
  | append batch => exact safe_appendUpdate batch stored
  | compact thresholds =>
    rw [DocOperation.updates, List.append_nil]
    exact safe_compactIfDue thresholds stored
  | materialize doc =>
    rw [DocOperation.updates, List.append_nil]
    exact safe_materialize doc stored
  | flush thresholds doc => exact safe_flush thresholds doc stored
  | materializeAndFlush thresholds doc =>
    show SafeFrom (execute services) _ _ (materialize services doc >>= fun _ =>
        flushDurableAfterMaterialize services thresholds doc) stores
    apply safe_bind
    apply (safe_materialize doc stored).weaken
    intro _ state written
    exact safe_flush thresholds doc written

theorem run_initFromFile (services : DocServices Doc) (stores : DocStores Doc) :
    ((initFromFile services).run (execute services) stores).outcome =
      .ok (docOfFile services (services.clientId stores.drawn) stores.file) := by
  unfold initFromFile
  rw [run_bind_ok rfl, run_bind_ok rfl]
  dsimp only
  have finished : ∀ (doc : Doc) (fileHash : Option Text),
      Returns (fun loaded => loaded = doc) (do
        writeSnapshot doc fileHash
        clearUpdateLog
        pure doc : DocCall Doc Doc) := by
    intro doc fileHash
    apply returns_bind (succeeds_bind (succeeds_perform DocStatement.now)
      fun time => succeeds_perform (DocStatement.writeSnapshot ⟨doc, time, fileHash⟩))
    intro _ _
    apply returns_bind succeeds_clearUpdateLog
    intro _ _
    exact returns_pure rfl
  obtain ⟨loaded, returned, same⟩ := run_of_returns
    (finished (docOfFile services (services.clientId stores.drawn)
      stores.file) (stores.file.map FileVersion.hash))
    (answered_execute services) stores.draw
  rw [same] at returned
  exact returned

theorem run_loadDurable (services : DocServices Doc) (stores : DocStores Doc) :
    ∃ doc, ((loadDurable services).run (execute services) stores).outcome = .ok doc ∧
      (Recognised stores → durable stores ≤ doc) ∧ (¬Recognised stores → doc = docOfFile services
        (services.clientId stores.drawn) stores.file) := by
  unfold loadDurable
  rw [run_bind_ok rfl, run_bind_ok rfl]
  show ∃ doc, (Process.run (execute services) (match stores.snapshot with
    | none => initFromFile services
    | some record =>
      if stores.file.map FileVersion.hash ≠ record.fileHash then initFromFile services
      else do
        let entries ← listUpdateRecords
        pure (applyEntries (⊥ ⊔ record.data) entries)) stores).outcome =
      .ok doc ∧ _
  cases stored : stores.snapshot with
  | none =>
    refine ⟨_, run_initFromFile services stores, ?_, fun _ => rfl⟩
    intro recognised
    obtain ⟨record, found, _⟩ := recognised
    rw [stored] at found
    cases found
  | some record =>
    dsimp only
    by_cases changed : stores.file.map FileVersion.hash ≠ record.fileHash
    · rw [if_pos changed]
      refine ⟨_, run_initFromFile services stores, ?_, fun _ => rfl⟩
      intro recognised
      obtain ⟨other, found, same⟩ := recognised
      rw [stored] at found
      cases found
      exact absurd same changed
    · rw [if_neg changed]
      obtain ⟨_, listed⟩ := run_listUpdateRecords services stores
      rw [run_bind_ok listed]
      refine ⟨_, rfl, ?_, ?_⟩
      · intro _
        apply durable_le_compaction
        rw [snapshotData, stored]
      · intro unrecognised
        exact absurd ⟨record, stored, not_not.mp changed⟩ unrecognised

end

section

variable {Doc : Type} [SemilatticeSup Doc] [OrderBot Doc]

/-- Wherever a run stops, every acknowledged update is in the snapshot or in
the log. -/
theorem stored_run (services : DocServices Doc) {initial : DocStores Doc}
    (fresh : FreshIds services initial)
    {acts : List (SequentialAct (DocOperation Doc))} {system : DocSystem Doc}
    (reached : runFrom (docStep services) ⟨initial, none, []⟩ acts = some system) :
    Stored services (acknowledged system) system.shared := by
  let order (returned : List (DocOperation Doc)) (stores : DocStores Doc) : Prop :=
    Stored services (returned.flatMap DocOperation.updates) stores
  have serves : ∀ returned operation stores, order returned stores →
      SafeFrom (execute services) (order returned) (fun _ => order (returned ++ [operation]))
        (operation.serve services) stores := by
    intro returned operation stores stored
    apply (safe_serve operation stored).weaken
    intro _ state held
    show Stored services ((returned ++ [operation]).flatMap DocOperation.updates) state
    rw [List.flatMap_append, List.flatMap_singleton]
    exact held
  have start : order [] initial := by
    refine ⟨?_, fresh⟩
    intro update impossible
    cases impossible
  exact Sequential.inOrder_run serves start reached

/-- The document that is loaded after a crash has every acknowledged update
exactly when the snapshot carries the hash of the file, or a new document
that is typed from the file has them all. -/
theorem durable_iff_recognised (services : DocServices Doc)
    {initial : DocStores Doc} (fresh : FreshIds services initial)
    {acts : List (SequentialAct (DocOperation Doc))} {system : DocSystem Doc}
    (reached : runFrom (docStep services) ⟨initial, none, []⟩ acts = some system) :
    Durable services system ↔ CrashCondition services system := by
  have stored := stored_run services fresh reached
  obtain ⟨doc, returned, whole, typed⟩ :=
    run_loadDurable services system.shared
  by_cases recognised : Recognised system.shared
  · constructor
    · intro _
      exact Or.inl recognised
    · intro _
      refine ⟨doc, returned, ?_⟩
      intro update member
      exact (stored.covered update member).trans (whole recognised)
  · have same := typed recognised
    constructor
    · intro held
      obtain ⟨loaded, outcome, all⟩ := held
      rw [returned] at outcome
      cases outcome
      right
      rw [← same]
      exact all
    · intro condition
      refine ⟨doc, returned, ?_⟩
      rw [same]
      exact condition.resolve_left recognised

end

/-- Documents of marks: what a client types is a mark of its own, and the
text shows how many marks there are. -/
def markServices : DocServices (Finset ℕ) where
  sha256 := id
  typed clientId content := {100 + clientId + content.length}
  text doc := List.replicate doc.card 'x'
  byteLength := Finset.card
  uuid number := List.replicate number 'u'
  clientId := id
  time := id

def loadedStores : DocStores (Finset ℕ) where
  drawn := 0
  file := none
  snapshot := some ⟨∅, 0, none⟩
  updates := ⟨[], List.nodup_nil⟩

theorem freshIds_loadedStores : FreshIds markServices loadedStores := by
  constructor
  · intro first second same
    have lengths := congrArg List.length same
    rw [markServices, List.length_replicate, List.length_replicate] at lengths
    exact lengths
  · intro key impossible
    cases impossible

/-- An append of one mark, and then a materialization with its flush of which
so many statements are executed. -/
def flushActs (statements : Nat) : List (SequentialAct (DocOperation (Finset ℕ))) :=
  .start (.append [{1}]) :: List.replicate 4 .advance ++
    .start (.materializeAndFlush ⟨0, 0⟩ {1}) :: List.replicate statements .advance

def flushSystem (statements : Nat) : Option (DocSystem (Finset ℕ)) :=
  runFrom (docStep markServices) ⟨loadedStores, none, []⟩ (flushActs statements)

/-- After the compaction has written its snapshot a crash loses nothing. -/
theorem durable_iff_recognised_flushed :
    ∃ system, flushSystem 13 = some system ∧
      acknowledged system = [{1}] ∧ Durable markServices system := by
  have reached : (flushSystem 13).map (fun system =>
      (acknowledged system, system.shared.snapshot.map
        SnapshotRecord.fileHash, system.shared.file.map FileVersion.hash)) =
      some ([{1}], some (some "x".toList), some "x".toList) := by
    decide +kernel
  obtain ⟨system, ran, shown⟩ := Option.map_eq_some_iff.mp reached
  simp only [Prod.mk.injEq] at shown
  obtain ⟨appended, carries, hash⟩ := shown
  obtain ⟨record, stored, same⟩ := Option.map_eq_some_iff.mp carries
  refine ⟨system, ran, appended, ?_⟩
  apply (durable_iff_recognised markServices freshIds_loadedStores ran).mpr
  exact Or.inl ⟨record, stored, hash.trans same.symm⟩

/-- A crash right after the file was written: the load takes the file for
restored, and the acknowledged mark is lost. -/
theorem acknowledged_update_lost :
    ¬ ∀ (services : DocServices (Finset ℕ)) (initial : DocStores (Finset ℕ))
        (acts : List (SequentialAct (DocOperation (Finset ℕ))))
        (system : DocSystem (Finset ℕ)),
      FreshIds services initial → Recognised initial →
        runFrom (docStep services) ⟨initial, none, []⟩ acts = some system →
          Durable services system := by
  intro law
  have reached : (flushSystem 1).map (fun system =>
      (acknowledged system, ((loadDurable markServices).run
        (execute markServices) system.shared).outcome)) =
      some ([{1}], .ok {103}) := by
    decide +kernel
  obtain ⟨system, ran, shown⟩ := Option.map_eq_some_iff.mp reached
  simp only [Prod.mk.injEq] at shown
  obtain ⟨appended, outcome⟩ := shown
  obtain ⟨doc, returned, all⟩ := law markServices loadedStores (flushActs 1)
    system freshIds_loadedStores ⟨_, rfl, rfl⟩ ran
  rw [outcome] at returned
  cases returned
  have lost := all {1} (appended ▸ List.mem_singleton_self _)
  exact absurd lost (by decide)

end Aprovan.Doc
