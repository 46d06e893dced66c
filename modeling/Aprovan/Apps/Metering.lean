import Aprovan.Apps.Instances
import Aprovan.Library.Keyed

/-!
# The byte meter, one call after another

The counter of an instance and the rows of its record scope lie in different
records, which a call writes one after the other, and so do a row and its
object.  Here the calls do not overlap; each statement is executed, or
refused, or executed while its answer is lost.
-/

namespace Aprovan.Apps.Instances

open Aprovan.Library Aprovan.Server Aprovan.Fs

inductive Fate where
  | executed
  | refused
  | answerLost
  deriving DecidableEq

/-- What becomes of the statements of one call, which makes each of them at
most once.  Without a bucket every statement on an object is refused. -/
structure CallFates where
  (readBytes readInstance writeInstance : Fate)
  (object putRow deleteRow : Fate)

def CallFates.calm : CallFates where
  readBytes := .executed
  readInstance := .executed
  writeInstance := .executed
  object := .executed
  putRow := .executed
  deleteRow := .executed

def CallFates.fateOf (fates : CallFates) : InstanceStatement → Fate
  | .readBytes _ _ _ => fates.readBytes
  | .getRow _ _ _ => fates.readBytes
  | .putObject _ _ _ _ => fates.object
  | .deleteObject _ _ _ => fates.object
  | .readInstance _ _ => fates.readInstance
  | .writeInstance _ _ _ => fates.writeInstance
  | .putRow _ => fates.putRow
  | .deleteRow _ _ _ => fates.deleteRow
  | _ => .executed

def executeFated (fates : CallFates) (statement : InstanceStatement) (stores : InstanceStores) :
    Except InstanceFailure statement.Answer × InstanceStores :=
  match fates.fateOf statement with
  | .executed => (.ok (answerStatement statement stores).1, (answerStatement statement stores).2)
  | .refused => (.error .store, stores)
  | .answerLost => (.error .store, (answerStatement statement stores).2)

/-- A record scope that is metered. -/
structure SharedScope where
  (tenant scope instanceId : Text)
  shared : sharedScopeInstanceId scope = some instanceId

inductive MeterCall where
  | set (key value : Text)
  | delete (key : Text)
  | setCap (capBytes : Option Int)

structure MeterAct where
  call : MeterCall
  fates : CallFates

variable (backend : RecordBackend)

def settleAct (shared : SharedScope) (stores : InstanceStores) (act : MeterAct) :
    Except InstanceFailure Unit × InstanceStores :=
  match act.call with
  | .set key value =>
    (setRecord backend shared.tenant shared.scope key value).settle (executeFated act.fates) stores
  | .delete key =>
    (do let _ ← deleteRecord backend shared.tenant shared.scope key).settle
      (executeFated act.fates) stores
  | .setCap capBytes =>
    (do let _ ← setInstanceCap shared.tenant shared.instanceId capBytes).settle
      (executeFated act.fates) stores

/-- A call that throws is a step as well. -/
def meterStep (shared : SharedScope) (stores : InstanceStores) (act : MeterAct) :
    Option InstanceStores :=
  some (settleAct backend shared stores act).2

def RecordRow.size (row : RecordRow) : Nat :=
  (row.value.map byteLength).getD 0

def scopeBytes (shared : SharedScope) (rows : List RecordRow) : Nat :=
  ((rows.filter fun row => row.tenant = shared.tenant ∧ row.scope = shared.scope).map
    RecordRow.size).sum

def storageBytes (shared : SharedScope) (stores : InstanceStores) : Option Nat :=
  (stores.instances shared.tenant shared.instanceId).map MeteredInstance.storageBytes

def MeterCall.isSet : MeterCall → Bool
  | .set _ _ => true
  | _ => false

/-- What the meter owes a call. -/
structure MeteredExactly (shared : SharedScope) (before : InstanceStores)
    (call : MeterCall) (outcome : Except InstanceFailure Unit)
    (after : InstanceStores) : Prop where
  counted : storageBytes shared after = some (scopeBytes shared after.rows)
  failed : ∀ thrown, call.isSet = true → outcome = .error thrown → after.rows = before.rows ∧
      storageBytes shared after = storageBytes shared before
  capped : call.isSet = true → outcome = .ok () →
    scopeBytes shared before.rows < scopeBytes shared after.rows →
    ∀ record cap, after.instances shared.tenant shared.instanceId = some record →
      record.storageCapBytes = some cap →
      scopeBytes shared after.rows ≤ cap

def rowAt (shared : SharedScope) (stores : InstanceStores) (key : Text) : Option RecordRow :=
  stores.rows.find? (isRow shared.tenant shared.scope key)

def stampAt (shared : SharedScope) (stores : InstanceStores) (key : Text) : Nat :=
  ((rowAt shared stores key).bind RecordRow.bytes).getD 0

def sizeAt (shared : SharedScope) (stores : InstanceStores) (key : Text) : Nat :=
  ((rowAt shared stores key).map RecordRow.size).getD 0

/-- The growth a set reserves. -/
def deltaOf (shared : SharedScope) (stores : InstanceStores) (key value : Text) : Int :=
  byteLength value - stampAt shared stores key

def gateCloses (record : MeteredInstance) (fates : CallFates) (delta : Int) : Bool :=
  delta ≠ 0 && fates.readInstance = .executed && record.storageCapBytes.any fun cap =>
      0 < delta && (cap : Int) < record.storageBytes + delta

/-- The reservation of an open gate takes effect. -/
def counterMoves (fates : CallFates) (delta : Int) : Bool :=
  delta ≠ 0 && fates.readInstance = .executed && fates.writeInstance ≠ .refused

/-- The row is put, after its object if it spills. -/
def writesRow (value : Text) (fates : CallFates) : Bool :=
  (!spills backend value || fates.object = .executed) && fates.putRow = .executed

/-- The set fails at the object or at the row. -/
def failsToWrite (value : Text) (fates : CallFates) : Bool :=
  (spills backend value && fates.object ≠ .executed) || fates.putRow = .refused

/-- The object of a spilled row becomes another before the row is written. -/
def replacesObject (shared : SharedScope) (stores : InstanceStores) (key value : Text)
    (fates : CallFates) : Bool :=
  fates.object ≠ .refused &&
    (stores.items.any fun row => isRow shared.tenant shared.scope key row && row.value = none) &&
    if spills backend value then
      stores.objects shared.tenant shared.scope key ≠ some value
    else
      backend = .dynamodb && stores.objects shared.tenant shared.scope key ≠ none

/-- The read of the stamp fails, the cap refuses the set, neither the counter
nor the row nor its object is written, or the counter and the row are, over a
row that carries its stamp. -/
def setMovesTogether (shared : SharedScope) (stores : InstanceStores)
    (key value : Text) (fates : CallFates) : Bool :=
  let delta := deltaOf shared stores key value
  fates.readBytes ≠ .executed ||
    (stores.instances shared.tenant shared.instanceId).any (gateCloses · fates delta) ||
    (!counterMoves fates delta && failsToWrite backend value fates &&
      !replacesObject backend shared stores key value fates) ||
    (stampAt shared stores key = sizeAt shared stores key &&
      writesRow backend value fates && (delta = 0 || counterMoves fates delta))

def deleteMovesTogether (shared : SharedScope) (stores : InstanceStores)
    (key : Text) (fates : CallFates) : Bool :=
  rowAt shared stores key = none || (backend = .dsql && fates.readBytes ≠ .executed) ||
    fates.deleteRow = .refused ||
    (stampAt shared stores key = sizeAt shared stores key &&
      (sizeAt shared stores key = 0 || (fates.deleteRow = .executed &&
          counterMoves fates (-(sizeAt shared stores key : Int)))))

def MeterCondition (shared : SharedScope) (stores : InstanceStores) (act : MeterAct) : Prop :=
  match act.call with
  | .set key value => setMovesTogether backend shared stores key value act.fates = true
  | .delete key => deleteMovesTogether backend shared stores key act.fates = true
  | .setCap _ => True

instance (backend : RecordBackend) (shared : SharedScope)
    (stores : InstanceStores) (act : MeterAct) :
    Decidable (MeterCondition backend shared stores act) :=
  match act with
  | ⟨.set key value, fates⟩ =>
    inferInstanceAs (Decidable (setMovesTogether backend shared stores key value fates = true))
  | ⟨.delete key, fates⟩ =>
    inferInstanceAs (Decidable (deleteMovesTogether backend shared stores key fates = true))
  | ⟨.setCap _, _⟩ => inferInstanceAs (Decidable True)

/-- The instance exists, its counter is exact, and the primary key holds in
the scope. -/
structure Metered (shared : SharedScope) (stores : InstanceStores) : Prop where
  counted : storageBytes shared stores = some (scopeBytes shared stores.rows)
  oneRow : ∀ key, stores.rows.countP (isRow shared.tenant shared.scope key) ≤ 1

theorem scopeBytes_without {shared : SharedScope} {stores : InstanceStores}
    (metered : Metered shared stores) (key : Text) :
    scopeBytes shared (stores.rows.filter (!isRow shared.tenant shared.scope key ·)) +
      sizeAt shared stores key =
    scopeBytes shared stores.rows := by
  have inScope : ∀ row : RecordRow, isRow shared.tenant shared.scope key row = true →
        (decide (row.tenant = shared.tenant ∧ row.scope = shared.scope)) = true := by
    intro row picked
    simp only [isRow, Bool.decide_and, Bool.and_eq_true, decide_eq_true_eq] at picked ⊢
    exact ⟨picked.1, picked.2.1⟩
  have single : (stores.rows.filter fun row =>
          row.tenant = shared.tenant ∧ row.scope = shared.scope).countP
        (isRow shared.tenant shared.scope key) ≤ 1 := by
    have fewer := List.Sublist.countP_le (p := isRow shared.tenant shared.scope key)
      (List.filter_sublist (l := stores.rows) (p := fun row =>
          decide (row.tenant = shared.tenant ∧ row.scope = shared.scope)))
    have oneRow := metered.oneRow key
    omega
  have found : (stores.rows.filter fun row =>
          row.tenant = shared.tenant ∧ row.scope = shared.scope).find?
        (isRow shared.tenant shared.scope key) =
      rowAt shared stores key := by
    rw [List.find?_filter, rowAt]
    congr 1
    funext row
    cases picked : isRow shared.tenant shared.scope key row with
    | true =>
      have inside := inScope row picked
      simpa using inside
    | false => simp
  have sums := sum_filter_not_add_find? RecordRow.size single
  rw [found] at sums
  unfold scopeBytes sizeAt
  rw [← sums, List.filter_filter, List.filter_filter]
  congr 4
  funext row
  exact Bool.and_comm _ _

variable {shared : SharedScope} {stores : InstanceStores}

theorem scopeBytes_put (metered : Metered shared stores) (key value : Text) (bytes : Option Nat) :
    scopeBytes shared (stores.rows.filter (!isRow shared.tenant shared.scope key ·) ++
          [⟨shared.tenant, shared.scope, key, some value, bytes⟩]) + sizeAt shared stores key =
    scopeBytes shared stores.rows + byteLength value := by
  have without := scopeBytes_without metered key
  have added :
      scopeBytes shared (stores.rows.filter (!isRow shared.tenant shared.scope key ·) ++
            [⟨shared.tenant, shared.scope, key, some value, bytes⟩]) =
        scopeBytes shared (stores.rows.filter (!isRow shared.tenant shared.scope key ·)) +
          byteLength value := by
    simp [scopeBytes, RecordRow.size, List.filter_append]
  omega

theorem sizeAt_le (metered : Metered shared stores) (key : Text) :
    sizeAt shared stores key ≤ scopeBytes shared stores.rows := by
  have without := scopeBytes_without metered key
  omega

theorem oneRow_without {rows : List RecordRow}
    (oneRow : ∀ key, rows.countP (isRow shared.tenant shared.scope key) ≤ 1)
    (kept : RecordRow → Bool) (key : Text) :
    (rows.filter kept).countP (isRow shared.tenant shared.scope key) ≤ 1 := by
  have fewer := List.Sublist.countP_le (p := isRow shared.tenant shared.scope key)
    (List.filter_sublist (l := rows) (p := kept))
  have single := oneRow key
  omega

theorem oneRow_put {rows : List RecordRow}
    (oneRow : ∀ key, rows.countP (isRow shared.tenant shared.scope key) ≤ 1)
    (key : Text) (value : Option Text) (bytes : Option Nat) (other : Text) :
    (rows.filter (!isRow shared.tenant shared.scope key ·) ++
        [RecordRow.mk shared.tenant shared.scope key value bytes]).countP
      (isRow shared.tenant shared.scope other) ≤ 1 := by
  rw [List.countP_append, List.countP_singleton]
  by_cases same : key = other
  · subst same
    have emptied :
        (rows.filter (!isRow shared.tenant shared.scope key ·)).countP
          (isRow shared.tenant shared.scope key) = 0 := by
      rw [List.countP_eq_zero]
      intro row member
      simpa using (List.mem_filter.mp member).2
    split <;> omega
  · have elsewhere :
        isRow shared.tenant shared.scope other
          (RecordRow.mk shared.tenant shared.scope key value bytes) = false := by
      simp [isRow, same]
    have before := oneRow_without oneRow (!isRow shared.tenant shared.scope key ·) other
    rw [elsewhere]
    simpa using before

theorem settle_query (fates : CallFates) (statement : InstanceStatement) (stores : InstanceStores) :
    (query statement).settle (executeFated fates) stores = executeFated fates statement stores :=
  rfl

section

variable (tenant scope key : Text) (body : Option Text)

theorem resolved_setObject {row : RecordRow}
    (same : isRow tenant scope key row = true → row.value = none →
      stores.objects tenant scope key = body) :
    row.resolved (setObject stores tenant scope key body).objects =
      row.resolved stores.objects := by
  cases held : row.value with
  | some value => simp [RecordRow.resolved, held]
  | none =>
    by_cases own : isRow tenant scope key row = true
    · have isBody := same own held
      simp only [isRow, decide_eq_true_eq] at own
      obtain ⟨rfl, rfl, rfl⟩ := own
      simp [RecordRow.resolved, setObject, isBody]
    · simp only [isRow, decide_eq_true_eq] at own
      simp [RecordRow.resolved, setObject, own]

/-- An object changes at most the row of its key. -/
theorem filter_rows_setObject :
    (setObject stores tenant scope key body).rows.filter (!isRow tenant scope key ·) =
      stores.rows.filter (!isRow tenant scope key ·) := by
  unfold InstanceStores.rows
  rw [List.filter_map, List.filter_map]
  apply List.map_congr_left
  intro row member
  apply resolved_setObject
  intro own
  have other : (!isRow tenant scope key row) = true := (List.mem_filter.mp member).2
  rw [own] at other
  cases other

theorem rows_setObject (same : ∀ row ∈ stores.items, isRow tenant scope key row = true →
      row.value = none → stores.objects tenant scope key = body) :
    (setObject stores tenant scope key body).rows = stores.rows :=
  List.map_congr_left fun row member => resolved_setObject tenant scope key body (same row member)

theorem rows_putRow (stores : InstanceStores) (row : RecordRow) :
    (answerStatement (.putRow row) stores).2.rows =
      stores.rows.filter (!isRow row.tenant row.scope row.key ·) ++
        [row.resolved stores.objects] := by
  show List.map _ (_ ++ [row]) = _
  rw [List.map_append, InstanceStores.rows, List.filter_map]
  rfl

theorem settle_clearObject (fates : CallFates) (stores : InstanceStores) :
    (clearObject tenant scope key).settle (executeFated fates) stores =
      (.ok (), if fates.object = .refused then stores
        else setObject stores tenant scope key none) := by
  unfold clearObject
  rw [settle_rescue, settle_query]
  unfold executeFated
  simp only [CallFates.fateOf]
  cases fates.object <;> rfl

end

section

variable {backend : RecordBackend} {fates : CallFates} {key value : Text}

theorem settle_storeRow_of_writes (shared : SharedScope) (stores : InstanceStores)
    (key : Text) (bytes : Option Nat) (writes : writesRow backend value fates = true) :
    let ended := (storeRow backend shared.tenant shared.scope key value bytes).settle
      (executeFated fates) stores
    ended.1 = .ok () ∧ ended.2.instances = stores.instances ∧
      ended.2.rows = stores.rows.filter (!isRow shared.tenant shared.scope key ·) ++
        [⟨shared.tenant, shared.scope, key, some value, bytes⟩] := by
  simp only [writesRow, Bool.and_eq_true, Bool.or_eq_true, Bool.not_eq_true',
    decide_eq_true_eq] at writes
  obtain ⟨object, put⟩ := writes
  have puts : ∀ (row : RecordRow) (before : InstanceStores), executeFated fates (.putRow row)
      before = (.ok (), (answerStatement (.putRow row) before).2) := by
    intro row before
    simp only [executeFated, CallFates.fateOf, put]
  unfold storeRow
  by_cases large : spills backend value = true
  · rw [if_pos large]
    have stored : executeFated fates (.putObject shared.tenant shared.scope key value) stores =
        (.ok (), setObject stores shared.tenant shared.scope key (some value)) := by
      have taken := object.resolve_left (by rw [large]; exact Bool.true_eq_false_eq_False)
      simp only [executeFated, CallFates.fateOf, taken, answerStatement]
    dsimp only
    rw [settle_bind, settle_query, stored]
    dsimp only
    rw [settle_query, puts]
    refine ⟨rfl, rfl, ?_⟩
    rw [rows_putRow, filter_rows_setObject]
    simp [RecordRow.resolved, setObject]
  · rw [if_neg large]
    cases backend with
    | dynamodb =>
      dsimp only
      rw [settle_bind, settle_clearObject]
      dsimp only
      rw [settle_query, puts]
      refine ⟨rfl, by split <;> rfl, ?_⟩
      rw [rows_putRow]
      split
      · rfl
      · rw [filter_rows_setObject]
        rfl
    | sqlite =>
      dsimp only
      rw [settle_query, puts]
      exact ⟨rfl, rfl, rows_putRow stores _⟩
    | dsql =>
      dsimp only
      rw [settle_bind, settle_query, puts]
      dsimp only
      rw [settle_clearObject]
      refine ⟨rfl, by split <;> rfl, ?_⟩
      have put := rows_putRow stores
        ⟨shared.tenant, shared.scope, key, some value, bytes⟩
      split
      · exact put
      · refine (rows_setObject _ _ _ _ ?_).trans put
        intro row member own spilled
        rcases List.mem_append.mp member with older | new
        · have other := (List.mem_filter.mp older).2
          dsimp only at other
          rw [own] at other
          cases other
        · rw [List.mem_singleton.mp new] at spilled
          cases spilled

theorem settle_storeRow_of_fails (bytes : Option Nat)
    (fails : failsToWrite backend value fates = true)
    (spares : replacesObject backend shared stores key value fates = false) :
    let ended := (storeRow backend shared.tenant shared.scope key value bytes).settle
      (executeFated fates) stores
    ended.2.instances = stores.instances ∧ ended.2.rows = stores.rows := by
  have kept : ∀ body, fates.object ≠ .refused →
      (if spills backend value = true then body = some value
        else backend = .dynamodb ∧ body = none) →
      (setObject stores shared.tenant shared.scope key body).rows = stores.rows := by
    intro body asked isBody
    apply rows_setObject
    intro row member own spilled
    have found : (stores.items.any fun row =>
        isRow shared.tenant shared.scope key row && row.value = none) = true :=
      List.any_eq_true.mpr ⟨row, member, by simp [own, spilled]⟩
    unfold replacesObject at spares
    rw [found, decide_eq_true asked] at spares
    split at isBody
    · rename_i large
      rw [if_pos large] at spares
      simpa [isBody] using spares
    · rename_i small
      rw [if_neg small] at spares
      simpa [isBody] using spares
  simp only [failsToWrite, Bool.or_eq_true, Bool.and_eq_true, decide_eq_true_eq] at fails
  unfold storeRow
  by_cases large : spills backend value = true
  · rw [if_pos large]
    dsimp only
    rw [settle_bind, settle_query]
    cases object : fates.object with
    | refused => simp [executeFated, CallFates.fateOf, object]
    | answerLost =>
      simp only [executeFated, CallFates.fateOf, object, answerStatement]
      exact ⟨rfl, kept _ (by simp [object]) (by rw [if_pos large])⟩
    | executed =>
      have refused : fates.putRow = .refused := by simpa [object] using fails
      simp only [executeFated, CallFates.fateOf, object, answerStatement]
      rw [settle_query]
      simp only [executeFated, CallFates.fateOf, refused]
      exact ⟨rfl, kept _ (by simp [object]) (by rw [if_pos large])⟩
  · have refused : fates.putRow = .refused := by simpa [large] using fails
    have puts : ∀ (row : RecordRow) (before : InstanceStores),
        executeFated fates (.putRow row) before = (.error .store, before) := by
      intro row before
      simp only [executeFated, CallFates.fateOf, refused]
    rw [if_neg large]
    cases backend with
    | dynamodb =>
      dsimp only
      rw [settle_bind, settle_clearObject]
      dsimp only
      rw [settle_query, puts]
      split
      · exact ⟨rfl, rfl⟩
      · rename_i asked
        exact ⟨rfl, kept none asked (by rw [if_neg large]; exact ⟨rfl, rfl⟩)⟩
    | sqlite =>
      dsimp only
      rw [settle_query, puts]
      exact ⟨rfl, rfl⟩
    | dsql =>
      dsimp only
      rw [settle_bind, settle_query, puts]
      exact ⟨rfl, rfl⟩

end

/-- The stores after a reservation behind an open gate. -/
def afterMeter (shared : SharedScope) (stores : InstanceStores)
    (record : MeteredInstance) (fates : CallFates) (delta : Int) :
    InstanceStores :=
  if counterMoves fates delta then
    setInstance stores shared.tenant shared.instanceId
      (some { record with
        storageBytes := (record.storageBytes + delta).toNat
        updatedAt := stores.clock })
  else stores

theorem settle_writeBack (fates : CallFates) (workspaceId instanceId : Text)
    (record : MeteredInstance) (stores : InstanceStores) :
    ((writeBack workspaceId instanceId record).settle (executeFated fates) stores).2 =
      (if fates.writeInstance = .refused then stores
      else
        setInstance stores workspaceId instanceId
          (some { record with updatedAt := stores.clock })) ∧
    (∀ thrown, ((writeBack workspaceId instanceId record).settle (executeFated fates)
        stores).1 = .error thrown → thrown = .store) := by
  obtain ⟨readBytes, readInstance, writeInstance, putRow, deleteRow⟩ := fates
  cases writeInstance with
  | executed =>
    refine ⟨rfl, ?_⟩
    intro thrown failed
    cases failed
  | refused =>
    refine ⟨rfl, ?_⟩
    intro thrown failed
    cases failed
    rfl
  | answerLost =>
    refine ⟨rfl, ?_⟩
    intro thrown failed
    cases failed
    rfl

theorem refusingCap_eq (record : MeteredInstance) {fates : CallFates} {delta : Int}
    (moves : delta ≠ 0) (read : fates.readInstance = .executed) :
    (record.storageCapBytes.filter fun cap =>
        0 < delta ∧ (cap : Int) < record.storageBytes + delta : Option Int) =
      if gateCloses record fates delta then record.storageCapBytes.map Int.ofNat
      else
        none := by
  cases named : record.storageCapBytes with
  | none => simp [gateCloses, named]
  | some cap =>
    by_cases exceeds : 0 < delta ∧ (cap : Int) < record.storageBytes + delta
    · simp [gateCloses, named, moves, read, exceeds]
    · have closed : gateCloses record fates delta = false := by
        simpa [gateCloses, named, moves, read] using exceeds
      rw [closed]
      simpa using exceeds

theorem settle_reserve {shared : SharedScope} {stores : InstanceStores}
    {record : MeteredInstance} (fates : CallFates) {delta : Int}
    (present :
      stores.instances shared.tenant shared.instanceId = some record) (moves : delta ≠ 0) :
    (gateCloses record fates delta = true ∧ ∃ thrown, isOverCap thrown = true ∧
        (reserveInstanceBytes shared.tenant shared.instanceId delta).settle
            (executeFated fates) stores =
          (.error thrown, stores)) ∨
    (gateCloses record fates delta = false ∧
      ((reserveInstanceBytes shared.tenant shared.instanceId delta).settle
          (executeFated fates) stores).2 =
        afterMeter shared stores record fates delta ∧
      ∀ thrown, ((reserveInstanceBytes shared.tenant shared.instanceId delta).settle
            (executeFated fates) stores).1 = .error thrown →
          isOverCap thrown = false) := by
  unfold reserveInstanceBytes
  rw [if_neg moves, requireInstance, settle_bind, settle_bind, settle_query]
  cases read : fates.readInstance with
  | refused =>
    right
    simp [executeFated, CallFates.fateOf, read, gateCloses, afterMeter, counterMoves, isOverCap]
  | answerLost =>
    right
    simp [executeFated, CallFates.fateOf, read, gateCloses, afterMeter,
      counterMoves, isOverCap, answerStatement]
  | executed =>
    simp only [executeFated, CallFates.fateOf, read, answerStatement, present, settle_pure]
    rw [refusingCap_eq record moves read]
    cases closes : gateCloses record fates delta with
    | true =>
      left
      refine ⟨rfl, ?_⟩
      cases named : record.storageCapBytes with
      | none => simp [gateCloses, named] at closes
      | some cap =>
        refine ⟨.service (capExceeded shared.instanceId record.storageBytes delta cap), rfl, ?_⟩
        rw [if_pos rfl]
        rfl
    | false =>
      right
      have written := settle_writeBack fates shared.tenant shared.instanceId
        { record with
          storageBytes := (record.storageBytes + delta).toNat } stores
      have moved :
          afterMeter shared stores record fates delta =
            if fates.writeInstance = .refused then stores
            else
              setInstance stores shared.tenant shared.instanceId
                (some { record with
                  storageBytes := (record.storageBytes + delta).toNat
                  updatedAt := stores.clock }) := by
        unfold afterMeter counterMoves
        cases fates.writeInstance <;> simp [read, moves]
      rw [moved]
      simp only [Bool.false_eq_true, if_false]
      rw [settle_bind]
      refine ⟨trivial, ?_, ?_⟩
      · split
        · rename_i value after ended
          rw [ended] at written
          exact written.1
        · rename_i thrown after ended
          rw [ended] at written
          exact written.1
      · intro thrown failed
        split at failed
        · cases failed
        · rename_i other after ended
          rw [ended] at written
          cases failed
          rw [written.2 thrown rfl]
          rfl

theorem settle_meter (shared : SharedScope) {record : MeteredInstance}
    (fates : CallFates) (delta : Int) (present :
      stores.instances shared.tenant shared.instanceId = some record) :
    (gateCloses record fates delta = true ∧ ∃ thrown,
        (meterSharedScopeDelta shared.tenant shared.scope delta).settle
            (executeFated fates) stores =
          (.error thrown, stores)) ∨
    (gateCloses record fates delta = false ∧
      (meterSharedScopeDelta shared.tenant shared.scope delta).settle (executeFated fates) stores =
        (.ok (), afterMeter shared stores record fates delta)) := by
  unfold meterSharedScopeDelta
  rw [shared.shared]
  simp only
  by_cases still : delta = 0
  · right
    rw [if_pos still, settle_pure]
    simp [gateCloses, afterMeter, counterMoves, still]
  · rw [if_neg still, settle_rescue]
    rcases settle_reserve fates present still with
      ⟨closes, thrown, exceeds, ended⟩ | ⟨opens, left, others⟩
    · left
      refine ⟨closes, thrown, ?_⟩
      rw [ended]
      simp only [exceeds, if_true]
      exact settle_raise _ _
    · right
      refine ⟨opens, ?_⟩
      split
      · rename_i value after ended
        rw [ended] at left
        simp only at left
        rw [left]
      · rename_i thrown after ended
        rw [ended] at left others
        simp only at left
        rw [others thrown rfl, left]
        exact settle_pure _ _

variable {after : InstanceStores}

theorem exact_of_same (metered : Metered shared stores) (call : MeterCall)
    (outcome : Except InstanceFailure Unit) (instances : after.instances = stores.instances)
    (rows : after.rows = stores.rows) :
    MeteredExactly shared stores call outcome after ∧ Metered shared after := by
  have counter : storageBytes shared after = storageBytes shared stores := by
    rw [storageBytes, instances]
    rfl
  have counted : storageBytes shared after = some (scopeBytes shared after.rows) := by
    rw [counter, rows]
    exact metered.counted
  refine ⟨⟨counted, ?_, ?_⟩, ⟨counted, by rw [rows]; exact metered.oneRow⟩⟩
  · intro _ _ _
    exact ⟨rows, counter⟩
  · intro _ _ grown
    rw [rows] at grown
    exact absurd grown (Nat.lt_irrefl _)

theorem rows_afterMeter (shared : SharedScope) (stores : InstanceStores)
    (record : MeteredInstance) (fates : CallFates) (delta : Int) :
    (afterMeter shared stores record fates delta).rows = stores.rows := by
  unfold afterMeter
  split <;> rfl

theorem instances_afterMeter (shared : SharedScope) {record : MeteredInstance}
    (fates : CallFates) (delta : Int) (present :
      stores.instances shared.tenant shared.instanceId = some record) :
    ∃ after, (afterMeter shared stores record fates delta).instances shared.tenant
          shared.instanceId = some after ∧
      after.storageCapBytes = record.storageCapBytes ∧
      after.storageBytes =
        if counterMoves fates delta then (record.storageBytes + delta).toNat
        else
          record.storageBytes := by
  unfold afterMeter
  split
  · exact ⟨_, instances_setInstance_self _ _ _ _, rfl, rfl⟩
  · exact ⟨record, present, rfl, rfl⟩

theorem Metered.record {shared : SharedScope} {stores : InstanceStores}
    (metered : Metered shared stores) :
    ∃ record, stores.instances shared.tenant shared.instanceId = some record ∧
        record.storageBytes = scopeBytes shared stores.rows :=
  Option.map_eq_some_iff.mp metered.counted

theorem put_exact {shared : SharedScope} {stores : InstanceStores} {record : MeteredInstance}
    {fates : CallFates} {key value : Text} (metered : Metered shared stores)
    (present : stores.instances shared.tenant shared.instanceId = some record)
    (opens : gateCloses record fates (deltaOf shared stores key value) = false)
    (stamped : stampAt shared stores key = sizeAt shared stores key)
    (both :
      deltaOf shared stores key value = 0 ∨
        counterMoves fates (deltaOf shared stores key value) = true) {after : InstanceStores}
    (reserved : after.instances =
      (afterMeter shared stores record fates (deltaOf shared stores key value)).instances)
    (rows : after.rows = stores.rows.filter (!isRow shared.tenant shared.scope key ·) ++
      [⟨shared.tenant, shared.scope, key, some value, some (byteLength value)⟩]) :
    MeteredExactly shared stores (.set key value) (.ok ()) after ∧ Metered shared after := by
  have counted : record.storageBytes = scopeBytes shared stores.rows := by
    have known := metered.counted
    simpa [storageBytes, present] using known
  have delta :
      deltaOf shared stores key value = (byteLength value : Int) - sizeAt shared stores key := by
    rw [deltaOf, stamped]
  have below := sizeAt_le metered key
  have written := scopeBytes_put metered key value (some (byteLength value))
  obtain ⟨last, kept, sameCap, bytes⟩ :=
    instances_afterMeter shared fates (deltaOf shared stores key value) present
  have found : after.instances shared.tenant shared.instanceId = some last := by
    rw [reserved]
    exact kept
  have exact' : storageBytes shared after = some (scopeBytes shared after.rows) := by
    rw [storageBytes, found, rows, Option.map_some, bytes, counted]
    congr 1
    split
    · omega
    · rename_i still
      have none : deltaOf shared stores key value = 0 := both.resolve_right still
      omega
  refine ⟨⟨exact', ?_, ?_⟩, ⟨exact', ?_⟩⟩
  · intro thrown _ failed
    cases failed
  · intro _ _ grown other cap others capped
    rw [rows] at grown ⊢
    have same : last = other := Option.some.inj (found.symm.trans others)
    subst same
    rw [sameCap] at capped
    have moves : counterMoves fates (deltaOf shared stores key value) = true := by
      rcases both with none | moves
      · omega
      · exact moves
    simp only [counterMoves, Bool.and_eq_true, decide_eq_true_eq] at moves
    have room : 0 < deltaOf shared stores key value →
        (record.storageBytes : Int) + deltaOf shared stores key value ≤ cap := by
      intro grows
      simpa [gateCloses, moves.1.2, capped, grows, ne_of_gt grows] using opens
    omega
  · intro other
    rw [rows]
    exact oneRow_put metered.oneRow key value _ other

variable {fates : CallFates}

theorem stampAt_eq (shared : SharedScope) (stores : InstanceStores) (key : Text) :
    stampAt shared stores key =
      ((stores.items.find? (isRow shared.tenant shared.scope key)).bind RecordRow.bytes).getD 0 := by
  unfold stampAt rowAt InstanceStores.rows
  rw [List.find?_map, Option.bind_map]
  rfl

theorem set_exact {key value : Text} (metered : Metered shared stores)
    (together : setMovesTogether backend shared stores key value fates = true) :
    MeteredExactly shared stores (.set key value)
        ((setRecord backend shared.tenant shared.scope key value).settle
          (executeFated fates) stores).1
        ((setRecord backend shared.tenant shared.scope key value).settle
          (executeFated fates) stores).2 ∧
      Metered shared ((setRecord backend shared.tenant shared.scope key value).settle
          (executeFated fates) stores).2 := by
  obtain ⟨record, present, counted⟩ := metered.record
  unfold setRecord
  rw [if_pos (by rw [shared.shared]; rfl), settle_bind, settle_query]
  cases read : fates.readBytes with
  | refused =>
    simp only [executeFated, CallFates.fateOf, read]
    exact exact_of_same metered _ _ rfl rfl
  | answerLost =>
    simp only [executeFated, CallFates.fateOf, read]
    exact exact_of_same metered _ _ rfl rfl
  | executed =>
    have stamp :
        executeFated fates (.readBytes shared.tenant shared.scope key) stores =
          (.ok (stampAt shared stores key), stores) := by
      simp only [executeFated, CallFates.fateOf, read]
      rw [stampAt_eq]
      rfl
    rw [stamp]
    simp only
    rw [settle_bind]
    rcases settle_meter shared fates (deltaOf shared stores key value) present with
      ⟨_, thrown, ended⟩ | ⟨opens, ended⟩
    · unfold deltaOf at ended
      rw [ended]
      exact exact_of_same metered _ _ rfl rfl
    · unfold deltaOf at ended
      rw [ended]
      simp only
      simp only [setMovesTogether, read, present, Option.any_some, opens,
        ne_eq, not_true_eq_false, decide_false, Bool.or_eq_true,
        Bool.false_eq_true, false_or, Bool.and_eq_true,
        Bool.not_eq_true', decide_eq_true_eq] at together
      rcases together with ⟨⟨still, fails⟩, spares⟩ | ⟨⟨stamped, writes⟩, both⟩
      · have same :
            afterMeter shared stores record fates (deltaOf shared stores key value) = stores := by
          rw [afterMeter, still]
          rfl
        unfold deltaOf at same
        rw [same]
        obtain ⟨instances, rows⟩ :=
          settle_storeRow_of_fails (some (byteLength value)) fails spares
        exact exact_of_same metered _ _ instances rows
      · obtain ⟨returned, instances, rows⟩ := settle_storeRow_of_writes shared
          (afterMeter shared stores record fates (deltaOf shared stores key value))
          key (some (byteLength value)) writes
        unfold deltaOf at returned instances rows
        rw [returned]
        rw [rows_afterMeter] at rows
        exact put_exact metered present opens stamped both instances rows

theorem settle_giveBack {shared : SharedScope} {stores : InstanceStores}
    {record : MeteredInstance} (fates : CallFates) (oldBytes : Nat)
    (present : stores.instances shared.tenant shared.instanceId = some record) :
    (giveBack shared.tenant shared.scope oldBytes).settle (executeFated fates) stores =
      (.ok (), afterMeter shared stores record fates (-(oldBytes : Int))) := by
  unfold giveBack
  by_cases nothing : oldBytes = 0
  · rw [if_pos nothing, settle_pure]
    simp [afterMeter, counterMoves, nothing]
  · rw [if_neg nothing]
    rcases settle_meter shared fates (-(oldBytes : Int)) present with
      ⟨closes, _⟩ | ⟨_, ended⟩
    · simp only [gateCloses, Bool.and_eq_true, Option.any_eq_true, decide_eq_true_eq] at closes
      obtain ⟨_, cap, _, positive, _⟩ := closes
      omega
    · exact ended

theorem settle_clearSpilled (tenant scope key : Text) (row : Option RecordRow)
    (fates : CallFates) (gone : ∀ row ∈ stores.items, isRow tenant scope key row = false) :
    ∃ cleared, (clearSpilled tenant scope key row).settle (executeFated fates) stores =
        (.ok (), cleared) ∧
      cleared.instances = stores.instances ∧ cleared.rows = stores.rows := by
  unfold clearSpilled
  split
  · rw [settle_clearObject]
    refine ⟨_, rfl, ?_⟩
    split
    · exact ⟨rfl, rfl⟩
    · refine ⟨rfl, rows_setObject tenant scope key none ?_⟩
      intro row member own
      rw [gone row member] at own
      cases own
  · exact ⟨stores, rfl, rfl, rfl⟩

/-- The stores without the row of a key. -/
def withoutRow (stores : InstanceStores) (tenant scope key : Text) : InstanceStores :=
  { stores with items := stores.items.filter (!isRow tenant scope key ·) }

theorem rows_withoutRow (tenant scope key : Text) :
    (withoutRow stores tenant scope key).rows =
      stores.rows.filter (!isRow tenant scope key ·) := by
  unfold withoutRow InstanceStores.rows
  rw [List.filter_map]
  rfl

theorem isRow_of_withoutRow {tenant scope key : Text} {row : RecordRow}
    (member : row ∈ (withoutRow stores tenant scope key).items) :
    isRow tenant scope key row = false := by
  simpa using (List.mem_filter.mp member).2

theorem settle_deleteRow (tenant scope key : Text) (fates : CallFates)
    (next : Option RecordRow → InstanceCall Bool) :
    (query (.deleteRow tenant scope key) >>= next).settle (executeFated fates) stores =
      match fates.deleteRow with
      | .executed => (next (stores.items.find? (isRow tenant scope key))).settle
          (executeFated fates) (withoutRow stores tenant scope key)
      | .refused => (.error .store, stores)
      | .answerLost => (.error .store, withoutRow stores tenant scope key) := by
  rw [settle_bind, settle_query]
  simp only [executeFated, CallFates.fateOf]
  cases fates.deleteRow <;> rfl

theorem settle_getRow (tenant scope key : Text) (fates : CallFates)
    (next : Option RecordRow → InstanceCall Bool) :
    (query (.getRow tenant scope key) >>= next).settle (executeFated fates) stores =
      if fates.readBytes = .executed then
        (next (stores.items.find? (isRow tenant scope key))).settle (executeFated fates) stores
      else (.error .store, stores) := by
  rw [settle_bind, settle_query]
  simp only [executeFated, CallFates.fateOf]
  cases fates.readBytes <;> rfl

theorem rowAt_eq_none_iff (shared : SharedScope) (stores : InstanceStores) (key : Text) :
    rowAt shared stores key = none ↔
      stores.items.find? (isRow shared.tenant shared.scope key) = none := by
  unfold rowAt InstanceStores.rows
  rw [List.find?_map, Option.map_eq_none_iff]
  rfl

theorem settle_delete (backend : RecordBackend) (shared : SharedScope) {stores : InstanceStores}
    {record : MeteredInstance} (fates : CallFates) (key : Text)
    (present : stores.instances shared.tenant shared.instanceId = some record) :
    let ended := (deleteRecord backend shared.tenant shared.scope key).settle
      (executeFated fates) stores
    ∃ gone : InstanceStores, gone.instances = stores.instances ∧
      gone.rows = stores.rows.filter (!isRow shared.tenant shared.scope key ·) ∧
      if (backend = .dsql && fates.readBytes ≠ .executed) || fates.deleteRow = .refused then
        ended.2 = stores
      else if rowAt shared stores key = none ∨ fates.deleteRow = .answerLost then ended.2 = gone
      else
        ended.2 = afterMeter shared gone record fates (-(stampAt shared stores key : Int)) := by
  intro ended
  have deletes := @settle_deleteRow stores shared.tenant shared.scope key fates
  have reads := @settle_getRow stores shared.tenant shared.scope key fates
  have rows := @rows_withoutRow stores shared.tenant shared.scope key
  have stamp := stampAt_eq shared stores key
  have absent := rowAt_eq_none_iff shared stores key
  cases fate : fates.deleteRow with
  | refused =>
    refine ⟨withoutRow stores shared.tenant shared.scope key, rfl, rows, ?_⟩
    simp only [fate] at deletes
    cases backend <;> simp only [ended, deleteRecord]
    · simp [deletes]
    · simp [deletes]
    · by_cases read : fates.readBytes = .executed <;> simp [reads, deletes, read]
  | answerLost =>
    refine ⟨withoutRow stores shared.tenant shared.scope key, rfl, rows, ?_⟩
    simp only [fate] at deletes
    cases backend <;> simp only [ended, deleteRecord]
    · simp [deletes]
    · simp [deletes]
    · by_cases read : fates.readBytes = .executed <;> simp [reads, deletes, read]
  | executed =>
    simp only [fate] at deletes
    cases found : stores.items.find? (isRow shared.tenant shared.scope key) with
    | none =>
      rw [found] at absent reads deletes
      refine ⟨withoutRow stores shared.tenant shared.scope key, rfl, rows, ?_⟩
      cases backend <;> simp only [ended, deleteRecord]
      · simp [deletes, settle_pure, absent]
      · simp [deletes, settle_pure, absent]
      · by_cases read : fates.readBytes = .executed <;>
          simp [reads, deletes, settle_pure, absent, read]
    | some row =>
      rw [found] at absent reads deletes stamp
      rw [Option.bind_some] at stamp
      have there : rowAt shared stores key ≠ none := by simp [absent]
      obtain ⟨cleared, cleans, instances, same⟩ :=
        settle_clearSpilled shared.tenant shared.scope key (some row) fates
          (fun _ member => isRow_of_withoutRow member)
      have presentCleared : cleared.instances shared.tenant shared.instanceId = some record := by
        rw [instances]
        exact present
      have presentDeleted : (withoutRow stores shared.tenant shared.scope key).instances
          shared.tenant shared.instanceId = some record :=
        present
      cases backend with
      | dynamodb =>
        refine ⟨cleared, instances, same.trans rows, ?_⟩
        simp only [ended, deleteRecord]
        rw [deletes]
        dsimp only
        rw [settle_bind, cleans]
        dsimp only
        rw [settle_bind, settle_giveBack fates (row.bytes.getD 0) presentCleared]
        simp [settle_pure, there, stamp]
      | sqlite =>
        refine ⟨withoutRow stores shared.tenant shared.scope key, rfl, rows, ?_⟩
        simp only [ended, deleteRecord]
        rw [deletes]
        dsimp only
        rw [settle_bind, settle_giveBack fates (row.bytes.getD 0) presentDeleted]
        simp [settle_pure, there, stamp]
      | dsql =>
        refine ⟨cleared, instances, same.trans rows, ?_⟩
        simp only [ended, deleteRecord]
        rw [reads]
        by_cases read : fates.readBytes = .executed
        · rw [if_pos read, deletes]
          dsimp only
          rw [settle_bind, cleans]
          dsimp only
          rw [settle_bind, Option.bind_some,
            settle_giveBack fates (row.bytes.getD 0) presentCleared]
          simp [settle_pure, there, stamp, read]
        · simp [read]

theorem delete_exact (backend : RecordBackend) {key : Text} (metered : Metered shared stores)
    (together : deleteMovesTogether backend shared stores key fates = true)
    (outcome : Except InstanceFailure Unit) (left :
      ((deleteRecord backend shared.tenant shared.scope key).settle
        (executeFated fates) stores).2 = after) :
    MeteredExactly shared stores (.delete key) outcome after ∧ Metered shared after := by
  obtain ⟨record, present, counted⟩ := metered.record
  obtain ⟨gone, goneInstances, goneRows, ends⟩ := settle_delete backend shared fates key present
  simp only [left] at ends
  split at ends
  · rw [ends]
    exact exact_of_same metered _ _ rfl rfl
  rename_i taken
  have without := scopeBytes_without metered key
  have gives :
      scopeBytes shared after.rows + sizeAt shared stores key = scopeBytes shared stores.rows ∧
        (∀ other, after.rows.countP (isRow shared.tenant shared.scope other) ≤ 1) ∧
        storageBytes shared after = some (scopeBytes shared after.rows) := by
    have oneRow := oneRow_without metered.oneRow (!isRow shared.tenant shared.scope key ·)
    simp only [deleteMovesTogether, Bool.or_eq_true, Bool.and_eq_true,
      decide_eq_true_eq] at together
    simp only [Bool.or_eq_true, Bool.and_eq_true, decide_eq_true_eq, not_or] at taken
    split at ends
    · rename_i kept
      rw [ends, goneRows]
      refine ⟨without, oneRow, ?_⟩
      have nothing : sizeAt shared stores key = 0 := by
        rcases kept with absent | lost
        · simp [sizeAt, absent]
        · rcases together with ((absent | early) | refused) | ⟨_, both⟩
          · simp [sizeAt, absent]
          · exact absurd early taken.1
          · exact absurd refused taken.2
          · rcases both with none | ⟨executed, _⟩
            · exact none
            · rw [lost] at executed
              cases executed
      have same :
          scopeBytes shared (stores.rows.filter (!isRow shared.tenant shared.scope key ·)) =
            scopeBytes shared stores.rows := by
        omega
      simp only [storageBytes, same, goneInstances, present, Option.map_some, counted]
    · rename_i kept
      rw [not_or] at kept
      have presentGone : gone.instances shared.tenant shared.instanceId = some record := by
        rw [goneInstances]
        exact present
      obtain ⟨last, found, _, bytes⟩ :=
        instances_afterMeter shared fates (-(stampAt shared stores key : Int)) presentGone
      rw [ends]
      simp only [rows_afterMeter, goneRows, storageBytes, found, Option.map_some, bytes]
      refine ⟨without, oneRow, ?_⟩
      rcases together with ((absent | early) | refused) | ⟨stamped, both⟩
      · exact absurd absent kept.1
      · exact absurd early taken.1
      · exact absurd refused taken.2
      · rw [stamped, counted]
        split
        · congr 1
          omega
        · rename_i still
          rcases both with none | ⟨_, moves⟩
          · congr 1
            omega
          · exact absurd moves still
  refine ⟨⟨gives.2.2, ?_, ?_⟩, ⟨gives.2.2, gives.2.1⟩⟩
  · intro _ isSet _
    cases isSet
  · intro isSet _ _
    cases isSet

theorem setCap_exact (capBytes : Option Int) (metered : Metered shared stores)
    (outcome : Except InstanceFailure Unit) (left :
      ((setInstanceCap shared.tenant shared.instanceId capBytes).settle
        (executeFated fates) stores).2 = after) :
    MeteredExactly shared stores (.setCap capBytes) outcome after ∧ Metered shared after := by
  obtain ⟨record, present, counted⟩ := metered.record
  have kept :
      after.rows = stores.rows ∧ storageBytes shared after = storageBytes shared stores := by
    rw [← left]
    unfold setInstanceCap
    split
    · exact ⟨rfl, rfl⟩
    · unfold requireInstance
      rw [settle_bind, settle_bind, settle_query]
      cases read : fates.readInstance with
      | refused => simp [executeFated, CallFates.fateOf, read]
      | answerLost => simp [executeFated, CallFates.fateOf, read, answerStatement]
      | executed =>
        simp only [executeFated, CallFates.fateOf, read, answerStatement, present, settle_pure]
        have written := (settle_writeBack fates shared.tenant shared.instanceId
          { record with storageCapBytes := capBytes.map Int.toNat }
          stores).1
        rw [written]
        split
        · exact ⟨rfl, rfl⟩
        · refine ⟨rfl, ?_⟩
          simp [storageBytes, present]
  have exact' : storageBytes shared after = some (scopeBytes shared after.rows) := by
    rw [kept.1, kept.2]
    exact metered.counted
  refine ⟨⟨exact', ?_, ?_⟩, ⟨exact', ?_⟩⟩
  · intro _ isSet _
    cases isSet
  · intro isSet _ _
    cases isSet
  · rw [kept.1]
    exact metered.oneRow

theorem settle_ignored {Value : Type} (process : InstanceCall Value) (fates : CallFates)
    (stores : InstanceStores) :
    ((do let _ ← process : InstanceCall Unit).settle (executeFated fates) stores).2 =
      (process.settle (executeFated fates) stores).2 := by
  rw [settle_bind]
  split
  · rename_i ended
    rw [ended]
    rfl
  · rename_i ended
    rw [ended]

theorem act_exact {shared : SharedScope} {stores : InstanceStores} {act : MeterAct}
    (metered : Metered shared stores) (met : MeterCondition backend shared stores act) :
    MeteredExactly shared stores act.call (settleAct backend shared stores act).1
        (settleAct backend shared stores act).2 ∧
      Metered shared (settleAct backend shared stores act).2 := by
  obtain ⟨call, fates⟩ := act
  cases call with
  | set key value => exact set_exact backend metered met
  | delete key => exact delete_exact backend metered met _ (settle_ignored _ fates stores).symm
  | setCap capBytes => exact setCap_exact capBytes metered _ (settle_ignored _ fates stores).symm

/-- In every run from a metered state whose calls meet the condition, each
call that meets it in turn is metered exactly. -/
theorem metering_exact (backend : RecordBackend) (shared : SharedScope)
    (stores reached : InstanceStores) (acts : List MeterAct) (act : MeterAct)
    (metered : Metered shared stores)
    (meets : StepsMeet (meterStep backend shared) (MeterCondition backend shared) stores acts)
    (executed : runFrom (meterStep backend shared) stores acts = some reached)
    (met : MeterCondition backend shared reached act) :
    MeteredExactly shared reached act.call (settleAct backend shared reached act).1
      (settleAct backend shared reached act).2 := by
  have kept : Metered shared reached := by
    apply invariant_of_stepsMeet (Metered shared) _ metered meets executed
    intro before next after holds condition taken
    cases taken
    exact (act_exact backend holds condition).2
  exact (act_exact backend kept met).1

def cappedStores : InstanceStores where
  clock := 0
  instances := fun _ instanceId =>
    if instanceId = "i".toList then
      some ⟨⟨"app".toList, "w".toList, ["host".toList]⟩, 0, some 10, 0⟩
    else none
  items := []
  objects := fun _ _ _ => none
  files := fun _ => ⟨.sqlite, [], Fs.Store.keys_nil⟩
  installHosting := fun _ _ => none
  isMember := fun _ _ => true

def instanceScope : SharedScope where
  tenant := "w".toList
  scope := "app#app#shared#i".toList
  instanceId := "i".toList
  shared := by decide

theorem cappedStores_metered : Metered instanceScope cappedStores where
  counted := by decide +kernel
  oneRow := fun _ => Nat.zero_le 1

/-- A row is set, then deleted, then one that the cap refuses is set. -/
def setDeleteSet : List MeterAct :=
  [⟨.set "k".toList "12345".toList, .calm⟩, ⟨.delete "k".toList, .calm⟩]

theorem metering_exact_setDeleteSet :
    ∃ reached, runFrom (meterStep .dsql instanceScope) cappedStores setDeleteSet = some reached ∧
      MeteredExactly instanceScope reached (.set "k".toList "12345678901".toList)
        (settleAct .dsql instanceScope reached ⟨.set "k".toList "12345678901".toList, .calm⟩).1
        (settleAct .dsql instanceScope reached
          ⟨.set "k".toList "12345678901".toList, .calm⟩).2 := by
  have ran :
      (runFrom (meterStep .dsql instanceScope) cappedStores
        setDeleteSet).map (fun reached =>
          decide (MeterCondition .dsql instanceScope reached
            ⟨.set "k".toList "12345678901".toList, .calm⟩)) =
        some true := by
    decide +kernel
  obtain ⟨reached, executed, seen⟩ := Option.map_eq_some_iff.mp ran
  exact ⟨reached, executed, metering_exact .dsql instanceScope cappedStores reached setDeleteSet
      ⟨.set "k".toList "12345678901".toList, .calm⟩ cappedStores_metered
      (by decide +kernel) executed (of_decide_eq_true seen)⟩

def rowRefused : MeterAct :=
  ⟨.set "k".toList "1".toList, { CallFates.calm with putRow := .refused }⟩

/-- The set fails, stores nothing, and the counter has grown. -/
theorem metering_drifts :
    ¬ ∀ (backend : RecordBackend) (shared : SharedScope)
        (stores reached : InstanceStores) (acts : List MeterAct)
        (act : MeterAct), Metered shared stores →
          runFrom (meterStep backend shared) stores acts = some reached →
          MeteredExactly shared reached act.call (settleAct backend shared reached act).1
            (settleAct backend shared reached act).2 := by
  intro law
  have metered := law .dsql instanceScope cappedStores cappedStores []
    rowRefused cappedStores_metered rfl
  have drifted :
      storageBytes instanceScope (settleAct .dsql instanceScope cappedStores rowRefused).2 =
        some 1 ∧
      scopeBytes instanceScope (settleAct .dsql instanceScope cappedStores rowRefused).2.rows =
        0 := by
    decide +kernel
  have counted := metered.counted
  rw [drifted.1, drifted.2] at counted
  cases counted

end Aprovan.Apps.Instances
