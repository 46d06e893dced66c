import Aprovan.Library.Pages
import Aprovan.Records.KeyValue

/-!
# Keyvalue and its contract

The native package implements the contract of keyvalue over a backend, which
may be a map in memory; the live dispatch goes to the keyvalue service and
adapts what it answers.  The calls are those of one caller whom the dispatch
admits; timestamps are left out, and no statement is refused.
-/

namespace Aprovan.Records

open Aprovan.Library Aprovan.Server

inductive KeyValueOperation where
  | get (key : Text)
  | set (key value : Text) (ttlSeconds : Option Rat)
  | delete (key : Text)
  | list (keyPrefix : Option Text) (limit : Option Rat)
      (cursor : Option Text)

/-- A call, with what `Date.now()` says during it. -/
structure KeyValueCall where
  now : Int
  operation : KeyValueOperation

inductive KeyValueResult where
  /-- The value may be `undefined`. -/
  | got (key : Text) (value : Option Text) (found : Bool)
  | wasSet (key : Text)
  | deleted (key : Text) (deleted : Bool)
  | listed (keys : List Text) (cursor : Option Text)
  deriving DecidableEq

/-- What the contract package gives.  What is thrown is its message. -/
structure KeyValuePackage where
  defaultListLimit : Nat
  validateKey : Text → Except Text Text
  validateSetArgs : Text → Text → Option Rat → Except Text Unit
  validateListArgs : Option Text → Option Rat → Option Text → Except Text Unit
  ttlUnsupported : Text
  /-- `new Date(now + ttlSeconds * 1000).toISOString()`, which throws if
  that is no date. -/
  expiry : Int → Rat → Except Text Int

structure NativeKeyValueEntry where
  (key value : Text)
  expiresAt : Option Int

/-- A backend, over the states that it can have. -/
structure NativeKeyValueBackend (State : Type) where
  supportsTtl : Bool
  get : Int → Text → State → Option NativeKeyValueEntry × State
  set : Int → Text → Text → Option Rat → State → Except Text State
  delete : Text → State → Bool × State
  list : Text → Option Text → Rat → State → List Text × Option Text

def createNativeKeyValue {State : Type} (package : KeyValuePackage)
    (backend : NativeKeyValueBackend State) (state : State) (call : KeyValueCall) :
    Except Text KeyValueResult × State :=
  match call.operation with
  | .get raw =>
    match package.validateKey raw with
    | .error thrown => (.error thrown, state)
    | .ok key =>
      match backend.get call.now key state with
      | (none, after) => (.ok (.got key none false), after)
      | (some hit, after) => (.ok (.got key (some hit.value) true), after)
  | .set key value ttlSeconds =>
    match package.validateSetArgs key value ttlSeconds with
    | .error thrown => (.error thrown, state)
    | .ok () =>
      if ttlSeconds.isSome ∧ backend.supportsTtl = false then
        (.error package.ttlUnsupported, state)
      else
        match backend.set call.now key value ttlSeconds state with
        | .error thrown => (.error thrown, state)
        | .ok after => (.ok (.wasSet key), after)
  | .delete raw =>
    match package.validateKey raw with
    | .error thrown => (.error thrown, state)
    | .ok key =>
      let (deleted, after) := backend.delete key state
      (.ok (.deleted key deleted), after)
  | .list keyPrefix limit cursor =>
    match package.validateListArgs keyPrefix limit cursor with
    | .error thrown => (.error thrown, state)
    | .ok () =>
      let (keys, next) := backend.list (keyPrefix.getD []) cursor
        (limit.getD package.defaultListLimit) state
      (.ok (.listed keys next), state)

abbrev MemoryRows := Keyed NativeKeyValueEntry.key

def NativeKeyValueEntry.isOver (entry : NativeKeyValueEntry) (now : Int) : Bool :=
  entry.expiresAt.any (· ≤ now)

def keysUnder (rows : MemoryRows) (keyPrefix : Text) : List Text :=
  sortTexts ((rows.rows.map NativeKeyValueEntry.key).filter fun key => keyPrefix.isPrefixOf key)

/-- `createMemoryKeyValueBackend`, over its rows. -/
def memoryBackend (package : KeyValuePackage) : NativeKeyValueBackend MemoryRows where
  supportsTtl := true
  get now key rows :=
    match rows.find? key with
    | none => (none, rows)
    | some hit =>
      if hit.isOver now then (none, rows.erase key) else (some hit, rows)
  set now key value ttlSeconds rows :=
    match ttlSeconds with
    | none => .ok (rows.put ⟨key, value, none⟩)
    | some ttl => (package.expiry now ttl).map fun expiresAt =>
      rows.put ⟨key, value, some expiresAt⟩
  delete key rows := ((rows.find? key).isSome, rows.erase key)
  list keyPrefix cursor limit rows :=
    let keys := keysUnder rows keyPrefix
    let start := startAfter keys cursor
    let page := slice keys start (start + limit)
    (page,
      if start + limit < keys.length then page.getLast?.filter (· ≠ []) else none)

/-- What the service takes of the arguments of a call. -/
def servedOperation : KeyValueOperation → KvOperation
  | .get key => .get (some key)
  | .set key value _ => .set (some key) (some value)
  | .delete key => .delete (some key)
  | .list keyPrefix _ _ => .list (keyPrefix.getD [])

def adaptKeyvalueProductResult : KvReply → KeyValueResult
  | .got key value =>
    let found : Bool := value ≠ jsonNull
    .got key (some (if found then value else jsonNull)) found
  | .wasSet key => .wasSet key
  | .deleted key removed => .deleted key removed
  | .keys keys => .listed keys none

/-- `dispatchAprovanNativeOp`, of keyvalue. -/
def dispatchKeyvalue (backend : RecordBackend) (parse : Text → Option Text) (ctx : KvContext)
    (stores : KvStores) (call : KeyValueCall) : Except KvFailure KeyValueResult × KvStores :=
  let served := (serveKv parse ⟨ctx, .absent,
    servedOperation call.operation⟩).run (executeKv backend none) stores
  (served.outcome.map adaptKeyvalueProductResult, served.state)

def liveAnswer (backend : RecordBackend) (parse : Text → Option Text)
    (ctx : KvContext) (stores : KvStores) (call : KeyValueCall) :
    Option KeyValueResult × KvStores :=
  let answered := dispatchKeyvalue backend parse ctx stores call
  (answered.1.toOption, answered.2)

def contractAnswer (package : KeyValuePackage) (rows : MemoryRows) (call : KeyValueCall) :
    Option KeyValueResult × MemoryRows :=
  let answered :=
    createNativeKeyValue package (memoryBackend package) rows call
  (answered.1.toOption, answered.2)

/-- The results are equal, but for the value of an absent key if a null is
taken for `undefined`. -/
def SameResult (nullIsUndefined : Bool) (live contract : Option KeyValueResult) : Prop :=
  live = contract ∨ (nullIsUndefined = true ∧ ∃ key,
    live = some (.got key (some jsonNull) false) ∧ contract = some (.got key none false))

/-- The partition of the caller has no records and no old files. -/
structure FreshPartition (ctx : KvContext) (stores : KvStores) : Prop where
  noRows : ∀ row ∈ stores.rows.rows, row.scope ≠ kvScope ctx
  noFiles : ∀ file ∈ stores.files, (legacyKvPath ctx []).isPrefixOf file.path = false

def fitsOnePage (keys : List Text) (limit : Rat) (cursor : Option Text) : Bool :=
  keys.isEmpty || ((keys.length : Rat) ≤ limit && startAfter keys cursor = 0)

/-- The two validate the call alike; a `get` finds its key, which has not
expired and whose value is no null; a list fits on one page. -/
def servedAlike (nullIsUndefined : Bool) (package : KeyValuePackage)
    (backend : RecordBackend) (rows : MemoryRows) (call : KeyValueCall) :
    Bool :=
  match call.operation with
  | .get key =>
    isIdent key = (package.validateKey key).isOk && (!isIdent key || match rows.find? key with
        | none => nullIsUndefined
        | some entry => !entry.isOver call.now && entry.value ≠ jsonNull)
  | .set key value ttlSeconds =>
    isIdent key = ((package.validateSetArgs key value ttlSeconds).isOk &&
      ttlSeconds.all fun ttl => (package.expiry call.now ttl).isOk)
  | .delete key => isIdent key = (package.validateKey key).isOk
  | .list keyPrefix limit cursor =>
    let named := keyPrefix.getD []
    (package.validateListArgs keyPrefix limit cursor).isOk && (rows.rows.all fun entry =>
        backend.selectsKey named entry.key = named.isPrefixOf entry.key) &&
      fitsOnePage (keysUnder rows named) (limit.getD package.defaultListLimit) cursor

/-- The records of the caller hold the values of the rows, and there are no
old files. -/
structure SameValues (ctx : KvContext) (stores : KvStores) (rows : MemoryRows) : Prop where
  values : ∀ key, stores.lookup (kvScope ctx) key = (rows.find? key).map NativeKeyValueEntry.value
  noFiles : ∀ file ∈ stores.files, (legacyKvPath ctx []).isPrefixOf file.path = false

section

variable {backend : RecordBackend} {parse : Text → Option Text}
  {ctx : KvContext} {stores : KvStores} {key : Text} {now : Int}

theorem path_ne_legacy {file : KvFile}
    (elsewhere : (legacyKvPath ctx []).isPrefixOf file.path = false) (key : Text) :
    file.path ≠ legacyKvPath ctx key := by
  intro same
  have under : (legacyKvPath ctx []).isPrefixOf (legacyKvPath ctx [] ++ key) = true := by simp
  rw [legacyKvPath_append, ← same, elsewhere] at under
  cases under

theorem fileAt_legacy (noFiles : ∀ file ∈ stores.files,
      (legacyKvPath ctx []).isPrefixOf file.path = false) (key : Text) :
    stores.fileAt (legacyKvPath ctx key) = none := by
  rw [KvStores.fileAt, List.find?_eq_none]
  intro file member same
  exact path_ne_legacy (noFiles file member) key (by simpa using same)

theorem checkedIdent_of_ident (valid : isIdent key = true) (label : Text) :
    checkedIdent (some key) label = pure key := by
  rw [checkedIdent, ident, if_pos valid]

theorem checkedIdent_of_not (invalid : isIdent key = false) (label : Text) :
    checkedIdent (some key) label = refuseKv (badIdent label) := by
  rw [checkedIdent, ident, if_neg (by simp [invalid])]

section

variable
  (noFiles : ∀ file ∈ stores.files, (legacyKvPath ctx []).isPrefixOf file.path
    = false) (valid : isIdent key = true)

include noFiles valid

theorem liveAnswer_get :
    liveAnswer backend parse ctx stores ⟨now, .get key⟩ =
      (some (adaptKeyvalueProductResult (.got key
        ((stores.lookup (kvScope ctx) key).getD jsonNull))), stores) := by
  unfold liveAnswer dispatchKeyvalue
  simp only [serveKv, servedOperation, kvGet, checkedIdent_of_ident valid]
  cases found : stores.lookup (kvScope ctx) key with
  | some value =>
    simp [resolveRecordScope, askKv, Process.perform, bind,
      Process.andThen, pure, Process.run, executeKv, performKv, found,
      Except.map, Except.toOption]
  | none =>
    simp [resolveRecordScope, askKv, Process.perform, bind,
      Process.andThen, pure, Process.run, executeKv, performKv, found,
      Except.map, Except.toOption, fileAt_legacy noFiles]

theorem liveAnswer_set (value : Text) (ttlSeconds : Option Rat) :
    liveAnswer backend parse ctx stores ⟨now, .set key value ttlSeconds⟩ =
      (some (.wasSet key), { stores with
        rows := stores.rows.put ⟨kvScope ctx, key, value⟩ }) := by
  unfold liveAnswer dispatchKeyvalue
  simp only [serveKv, servedOperation, kvSet, checkedIdent_of_ident valid]
  simp [resolveRecordScope, askKv, Process.perform, bind, Process.andThen,
    pure, Process.run, executeKv, performKv, removeLegacyKey,
    Process.rescue, Except.map, Except.toOption,
    adaptKeyvalueProductResult]
  exact fun file member => path_ne_legacy (noFiles file member) key

theorem liveAnswer_delete :
    liveAnswer backend parse ctx stores ⟨now, .delete key⟩ =
      (some (.deleted key (stores.lookup (kvScope ctx) key).isSome),
        { stores with
          rows := stores.rows.erase (kvScope ctx, key) }) := by
  have noFile : ({ stores with
      rows := stores.rows.erase (kvScope ctx, key) } : KvStores).fileAt
        (legacyKvPath ctx key) = none :=
    fileAt_legacy noFiles key
  unfold liveAnswer dispatchKeyvalue
  simp only [serveKv, servedOperation, kvDelete, checkedIdent_of_ident valid]
  simp [resolveRecordScope, askKv, Process.perform, bind, Process.andThen,
    pure, Process.run, executeKv, performKv, removeLegacyKey,
    Process.rescue, Except.map, Except.toOption,
    adaptKeyvalueProductResult, noFile]
  exact fun file member => path_ne_legacy (noFiles file member) key

end

theorem liveAnswer_invalid (invalid : isIdent key = false) {operation : KeyValueOperation}
    (names : operation = .get key ∨ operation = .delete key ∨
      ∃ value ttlSeconds, operation = .set key value ttlSeconds) :
    liveAnswer backend parse ctx stores ⟨now, operation⟩ = (none, stores) := by
  unfold liveAnswer dispatchKeyvalue
  rcases names with same | same | ⟨value, ttlSeconds, same⟩
  · rw [same]
    simp [serveKv, servedOperation, kvGet, checkedIdent_of_not invalid,
      resolveRecordScope, refuseKv, Process.raise, bind, Process.andThen,
      pure, Process.run, Except.map, Except.toOption]
  · rw [same]
    simp [serveKv, servedOperation, kvDelete, checkedIdent_of_not invalid,
      resolveRecordScope, refuseKv, Process.raise, bind, Process.andThen,
      pure, Process.run, Except.map, Except.toOption]
  · rw [same]
    simp [serveKv, servedOperation, kvSet, checkedIdent_of_not invalid,
      resolveRecordScope, refuseKv, Process.raise, bind, Process.andThen,
      pure, Process.run, Except.map, Except.toOption]

def selectedKeys (backend : RecordBackend) (ctx : KvContext)
    (stores : KvStores) (keyPrefix : Text) : List Text :=
  (stores.rows.rows.filter fun row =>
    row.scope = kvScope ctx ∧ backend.selectsKey keyPrefix row.key).map KvRow.key

theorem legacyKeys_legacy {files : List KvFile} (noFiles : ∀ file ∈ files,
      (legacyKvPath ctx []).isPrefixOf file.path = false)
    (keyPrefix : Text) :
    legacyKeys (legacyKvPath ctx []) keyPrefix files = [] := by
  have none : (files.filter fun file =>
      (legacyKvPath ctx []).isPrefixOf file.path) = [] := by
    rw [List.filter_eq_nil_iff]
    intro file member
    simp [noFiles file member]
  rw [legacyKeys, none]
  rfl

theorem liveAnswer_list (noFiles : ∀ file ∈ stores.files,
      (legacyKvPath ctx []).isPrefixOf file.path = false)
    (keyPrefix : Option Text) (limit : Option Rat) (cursor : Option Text) :
    liveAnswer backend parse ctx stores ⟨now, .list keyPrefix limit cursor⟩ =
      (some (.listed (sortTexts (selectedKeys backend ctx stores
        (keyPrefix.getD [])).dedup) none), stores) := by
  have noKeys : ∀ files ⊆ stores.files,
      legacyKeys (legacyKvPath ctx []) (keyPrefix.getD []) files = [] := by
    intro files part
    exact legacyKeys_legacy (fun file member => noFiles file (part member)) _
  unfold liveAnswer dispatchKeyvalue
  simp [serveKv, servedOperation, kvList, resolveRecordScope, askKv,
    Process.perform, bind, Process.andThen, pure, Process.run, executeKv,
    performKv, Process.rescue, Except.map, Except.toOption,
    adaptKeyvalueProductResult, selectedKeys,
    noKeys _ (List.filter_subset_self _)]

end

section

variable {package : KeyValuePackage} {backend : RecordBackend}
  {parse : Text → Option Text} {ctx : KvContext} {stores : KvStores}
  {rows : MemoryRows} {nullIsUndefined : Bool} {now : Int}

def AnswersAlike (nullIsUndefined : Bool) (ctx : KvContext)
    (live : Option KeyValueResult × KvStores) (contract : Option KeyValueResult × MemoryRows) :
    Prop :=
  SameResult nullIsUndefined live.1 contract.1 ∧ SameValues ctx live.2 contract.2

theorem answersAlike_refused {call : KeyValueCall} (same : SameValues ctx stores rows)
    (live : liveAnswer backend parse ctx stores call = (none, stores))
    (contract : contractAnswer package rows call = (none, rows)) :
    AnswersAlike nullIsUndefined ctx (liveAnswer backend parse ctx stores call)
      (contractAnswer package rows call) := by
  rw [live, contract]
  exact ⟨Or.inl rfl, same⟩

theorem answersAlike_get (keysKept : ∀ raw key, package.validateKey raw = .ok key → key = raw)
    (same : SameValues ctx stores rows) {key : Text}
    (alike : servedAlike nullIsUndefined package backend rows ⟨now, .get key⟩ = true) :
    AnswersAlike nullIsUndefined ctx (liveAnswer backend parse ctx stores ⟨now, .get key⟩)
      (contractAnswer package rows ⟨now, .get key⟩) := by
  simp only [servedAlike, Bool.and_eq_true, decide_eq_true_eq,
    Bool.or_eq_true, Bool.not_eq_true'] at alike
  obtain ⟨valid, served⟩ := alike
  cases validated : package.validateKey key with
  | error thrown =>
    have invalid : isIdent key = false := by
      rw [valid, validated]
      rfl
    refine answersAlike_refused same (liveAnswer_invalid invalid (Or.inl rfl)) ?_
    simp [contractAnswer, createNativeKeyValue, validated, Except.toOption]
  | ok checked =>
    have isKey : checked = key := keysKept key checked validated
    have isValid : isIdent key = true := by
      rw [valid, validated]
      rfl
    rw [isKey] at validated
    rw [liveAnswer_get same.noFiles isValid, same.values key]
    cases found : rows.find? key with
    | none =>
      rw [found] at served
      have taken : nullIsUndefined = true := by simpa [isValid] using served
      refine ⟨Or.inr ⟨taken, key, ?_, ?_⟩, ?_⟩
      · simp [adaptKeyvalueProductResult]
      · simp [contractAnswer, createNativeKeyValue, validated,
          memoryBackend, found, Except.toOption]
      · simpa [contractAnswer, createNativeKeyValue, validated, memoryBackend, found] using same
    | some entry =>
      rw [found] at served
      obtain ⟨current, notNull⟩ : entry.isOver now = false ∧ entry.value ≠ jsonNull := by
        simpa [isValid] using served
      refine ⟨Or.inl ?_, ?_⟩
      · simp [adaptKeyvalueProductResult, contractAnswer,
          createNativeKeyValue, validated, memoryBackend, found,
          current, notNull, Except.toOption]
      · simpa [contractAnswer, createNativeKeyValue, validated,
          memoryBackend, found, current] using same

section

variable (same : SameValues ctx stores rows)

include same

theorem SameValues.put (entry : NativeKeyValueEntry) :
    SameValues ctx
      { stores with
        rows := stores.rows.put ⟨kvScope ctx, entry.key, entry.value⟩ }
      (rows.put entry) where
  values := by
    intro key
    have before := same.values key
    unfold KvStores.lookup at before ⊢
    rw [Keyed.find?_put, Keyed.find?_put]
    by_cases own : entry.key = key
    · rw [if_pos own, if_pos (by rw [KvRow.name, own])]
      rfl
    · have other : KvRow.name ⟨kvScope ctx, entry.key, entry.value⟩ ≠ (kvScope ctx, key) := by
        intro named
        exact own (Prod.mk.inj named).2
      rw [if_neg own, if_neg other]
      exact before
  noFiles := same.noFiles

theorem SameValues.erase (key : Text) :
    SameValues ctx { stores with rows := stores.rows.erase (kvScope ctx, key) }
      (rows.erase key) where
  values := by
    intro other
    have before := same.values other
    unfold KvStores.lookup at before ⊢
    rw [Keyed.find?_erase, Keyed.find?_erase]
    by_cases own : key = other
    · rw [if_pos own, if_pos (by rw [own])]
      rfl
    · rw [if_neg own, if_neg (by
        intro named
        exact own (Prod.mk.inj named).2)]
      exact before
  noFiles := same.noFiles

theorem answersAlike_set {key value : Text} {ttlSeconds : Option Rat}
    (alike : servedAlike nullIsUndefined package backend rows
      ⟨now, .set key value ttlSeconds⟩ = true) :
    AnswersAlike nullIsUndefined ctx (liveAnswer backend parse ctx stores
        ⟨now, .set key value ttlSeconds⟩)
      (contractAnswer package rows ⟨now, .set key value ttlSeconds⟩) := by
  have refused : isIdent key = false →
      contractAnswer package rows ⟨now, .set key value ttlSeconds⟩ = (none, rows) →
      AnswersAlike nullIsUndefined ctx (liveAnswer backend parse ctx stores
          ⟨now, .set key value ttlSeconds⟩)
        (contractAnswer package rows ⟨now, .set key value ttlSeconds⟩) := by
    intro invalid contract
    exact answersAlike_refused same (liveAnswer_invalid invalid
      (Or.inr (Or.inr ⟨value, ttlSeconds, rfl⟩))) contract
  have stored : isIdent key = true → ∀ expiresAt,
      contractAnswer package rows ⟨now, .set key value ttlSeconds⟩ =
        (some (.wasSet key), rows.put ⟨key, value, expiresAt⟩) →
      AnswersAlike nullIsUndefined ctx (liveAnswer backend parse ctx stores
          ⟨now, .set key value ttlSeconds⟩)
        (contractAnswer package rows ⟨now, .set key value ttlSeconds⟩) := by
    intro valid expiresAt contract
    rw [contract, liveAnswer_set same.noFiles valid]
    exact ⟨Or.inl rfl, same.put ⟨key, value, expiresAt⟩⟩
  simp only [servedAlike, decide_eq_true_eq] at alike
  cases validated : package.validateSetArgs key value ttlSeconds with
  | error thrown =>
    refine refused (by rw [alike, validated]; rfl) ?_
    simp [contractAnswer, createNativeKeyValue, validated, Except.toOption]
  | ok admitted =>
    cases ttlSeconds with
    | none =>
      refine stored (by rw [alike, validated]; rfl) none ?_
      simp [contractAnswer, createNativeKeyValue, validated, memoryBackend, Except.toOption]
    | some ttl =>
      cases dated : package.expiry now ttl with
      | error thrown =>
        refine refused ?_ ?_
        · rw [alike, validated]
          simp [dated, Except.isOk, Except.toBool]
        · simp [contractAnswer, createNativeKeyValue, validated,
            memoryBackend, dated, Except.map, Except.toOption]
      | ok expiresAt =>
        refine stored ?_ (some expiresAt) ?_
        · rw [alike, validated]
          simp [dated, Except.isOk, Except.toBool]
        · simp [contractAnswer, createNativeKeyValue, validated,
            memoryBackend, dated, Except.map, Except.toOption]

end

theorem answersAlike_delete (keysKept : ∀ raw key, package.validateKey raw = .ok key → key = raw)
    (same : SameValues ctx stores rows) {key : Text}
    (alike : servedAlike nullIsUndefined package backend rows ⟨now, .delete key⟩ = true) :
    AnswersAlike nullIsUndefined ctx (liveAnswer backend parse ctx stores ⟨now, .delete key⟩)
      (contractAnswer package rows ⟨now, .delete key⟩) := by
  simp only [servedAlike, decide_eq_true_eq] at alike
  cases validated : package.validateKey key with
  | error thrown =>
    have invalid : isIdent key = false := by
      rw [alike, validated]
      rfl
    refine answersAlike_refused same (liveAnswer_invalid invalid (Or.inr (Or.inl rfl))) ?_
    simp [contractAnswer, createNativeKeyValue, validated, Except.toOption]
  | ok checked =>
    have isKey : checked = key := keysKept key checked validated
    have isValid : isIdent key = true := by
      rw [alike, validated]
      rfl
    rw [isKey] at validated
    rw [liveAnswer_delete same.noFiles isValid, same.values key]
    refine ⟨Or.inl ?_, ?_⟩
    · simp [contractAnswer, createNativeKeyValue, validated, memoryBackend, Except.toOption]
    · simpa [contractAnswer, createNativeKeyValue, validated, memoryBackend] using same.erase key

theorem mem_selectedKeys (same : SameValues ctx stores rows) {keyPrefix : Text}
    (selects : ∀ entry ∈ rows.rows, backend.selectsKey keyPrefix entry.key =
        keyPrefix.isPrefixOf entry.key) (key : Text) :
    key ∈ selectedKeys backend ctx stores keyPrefix ↔
      key ∈ (rows.rows.map NativeKeyValueEntry.key).filter
        fun key => keyPrefix.isPrefixOf key := by
  have value := same.values key
  rw [List.mem_filter, List.mem_map]
  constructor
  · intro listed
    obtain ⟨row, selected, own⟩ := List.mem_map.mp listed
    obtain ⟨member, chosen⟩ := List.mem_filter.mp selected
    obtain ⟨scope, picked⟩ :
        row.scope = kvScope ctx ∧ backend.selectsKey keyPrefix row.key = true := by
      simpa using chosen
    have stored : stores.lookup (kvScope ctx) key = some row.value := by
      have found : stores.rows.find? (kvScope ctx, key) = some row :=
        Keyed.find?_eq_some_iff.mpr ⟨member, by rw [KvRow.name, scope, own]⟩
      rw [KvStores.lookup, found]
      rfl
    rw [stored] at value
    obtain ⟨entry, found, _⟩ := Option.map_eq_some_iff.mp value.symm
    obtain ⟨present, named⟩ := Keyed.find?_eq_some_iff.mp found
    refine ⟨⟨entry, present, named⟩, ?_⟩
    rw [← named, ← selects entry present, named, ← own]
    exact picked
  · intro listed
    obtain ⟨⟨entry, present, named⟩, below⟩ := listed
    have found : rows.find? key = some entry := Keyed.find?_eq_some_iff.mpr ⟨present, named⟩
    rw [found, Option.map_some, KvStores.lookup, Option.map_eq_some_iff] at value
    obtain ⟨row, located, _⟩ := value
    obtain ⟨member, own⟩ := Keyed.find?_eq_some_iff.mp located
    obtain ⟨scope, rowKey⟩ := Prod.mk.inj own
    refine List.mem_map.mpr ⟨row, List.mem_filter.mpr ⟨member, ?_⟩, rowKey⟩
    have picked := selects entry present
    rw [named, below] at picked
    simp [scope, rowKey, picked]

theorem nodup_selectedKeys (backend : RecordBackend) (ctx : KvContext)
    (stores : KvStores) (keyPrefix : Text) :
    (selectedKeys backend ctx stores keyPrefix).Nodup := by
  refine List.Nodup.map_on ?_ ((stores.rows.keys.of_map KvRow.name).filter _)
  intro first firstMember second secondMember sameKey
  obtain ⟨firstStored, firstChosen⟩ := List.mem_filter.mp firstMember
  obtain ⟨secondStored, secondChosen⟩ := List.mem_filter.mp secondMember
  have firstScope := (of_decide_eq_true firstChosen).1
  have secondScope := (of_decide_eq_true secondChosen).1
  refine stores.rows.eq_of_key_eq firstStored secondStored ?_
  rw [KvRow.name, KvRow.name, firstScope, secondScope, sameKey]

theorem memoryList_of_fits {keyPrefix : Text} {cursor : Option Text} {limit : Rat}
    (fits : fitsOnePage (keysUnder rows keyPrefix) limit cursor = true) :
    (memoryBackend package).list keyPrefix cursor limit rows =
      (keysUnder rows keyPrefix, none) := by
  show (slice (keysUnder rows keyPrefix) (startAfter (keysUnder rows keyPrefix) cursor) _, _) = _
  generalize keysUnder rows keyPrefix = keys at fits ⊢
  cases keys with
  | nil => simp [slice]
  | cons first rest =>
    obtain ⟨enough, whole⟩ :
        (((first :: rest).length : Nat) : Rat) ≤ limit ∧
          startAfter (first :: rest) cursor = 0 := by
      simpa [fitsOnePage] using fits
    rw [whole, slice_all enough, if_neg (none_left_behind enough)]

theorem answersAlike_list (same : SameValues ctx stores rows)
    {keyPrefix cursor : Option Text} {limit : Option Rat}
    (alike : servedAlike nullIsUndefined package backend rows
      ⟨now, .list keyPrefix limit cursor⟩ = true) :
    AnswersAlike nullIsUndefined ctx (liveAnswer backend parse ctx stores
        ⟨now, .list keyPrefix limit cursor⟩)
      (contractAnswer package rows ⟨now, .list keyPrefix limit cursor⟩) := by
  simp only [servedAlike, Bool.and_eq_true, List.all_eq_true, decide_eq_true_eq] at alike
  obtain ⟨⟨admitted, selects⟩, fits⟩ := alike
  cases validated : package.validateListArgs keyPrefix limit cursor with
  | error thrown =>
    rw [validated] at admitted
    cases admitted
  | ok admission =>
    have contract : contractAnswer package rows ⟨now, .list keyPrefix limit cursor⟩ =
        (some (.listed (keysUnder rows (keyPrefix.getD [])) none), rows) := by
      simp only [contractAnswer, createNativeKeyValue, validated,
        memoryList_of_fits fits, Except.toOption]
    rw [contract, liveAnswer_list same.noFiles]
    refine ⟨Or.inl ?_, same⟩
    have distinct := nodup_selectedKeys backend ctx stores (keyPrefix.getD [])
    have sorted : sortTexts (selectedKeys backend ctx stores (keyPrefix.getD [])).dedup =
        keysUnder rows (keyPrefix.getD []) := by
      rw [distinct.dedup, keysUnder]
      exact sortTexts_eq_of_mem_iff distinct (rows.keys.filter _) (mem_selectedKeys same selects)
    rw [sorted]

theorem answersAlike_call (keysKept : ∀ raw key, package.validateKey raw = .ok key → key = raw)
    (same : SameValues ctx stores rows) {call : KeyValueCall}
    (alike : servedAlike nullIsUndefined package backend rows call = true) :
    AnswersAlike nullIsUndefined ctx (liveAnswer backend parse ctx stores call)
      (contractAnswer package rows call) := by
  obtain ⟨now, operation⟩ := call
  cases operation with
  | get key => exact answersAlike_get keysKept same alike
  | set key value ttlSeconds => exact answersAlike_set same alike
  | delete key => exact answersAlike_delete keysKept same alike
  | list keyPrefix limit cursor => exact answersAlike_list same alike

theorem sameValues_fresh (fresh : FreshPartition ctx stores) :
    SameValues ctx stores Keyed.empty where
  values := by
    intro key
    have absent : stores.rows.find? (kvScope ctx, key) = none := by
      rw [Keyed.find?_eq_none_iff]
      intro row member named
      exact fresh.noRows row member (Prod.mk.inj named).1
    rw [KvStores.lookup, absent]
    rfl
  noFiles := fresh.noFiles

end

/-- The live dispatch answers a caller's calls as the contract's
implementation in memory does, if the two validate them alike, every `get`
finds its key current and not null, and every list fits on one page.  For a
reader that takes null for `undefined`, a `get` need not find its key. -/
theorem keyvalue_implements_its_contract {package : KeyValuePackage}
    (keysKept : ∀ raw key, package.validateKey raw = .ok key → key = raw)
    (backend : RecordBackend) (parse : Text → Option Text) {ctx : KvContext} {stores : KvStores}
    (fresh : FreshPartition ctx stores) (nullIsUndefined : Bool) {calls : List KeyValueCall}
    (meets : RequestsMeet (liveAnswer backend parse ctx) (contractAnswer package)
      (fun _ rows call => servedAlike nullIsUndefined package backend rows call = true)
      stores Keyed.empty calls) :
    List.Forall₂ (SameResult nullIsUndefined)
      (answersFrom (liveAnswer backend parse ctx) stores calls)
      (answersFrom (contractAnswer package) Keyed.empty calls) := by
  refine answers_agree_of_simulation (SameResult nullIsUndefined)
    (SameValues ctx) ?_ (sameValues_fresh fresh) meets
  intro live rows call same alike
  exact answersAlike_call keysKept same alike

/-- A package that admits every key that is not empty. -/
def lenientPackage : KeyValuePackage where
  defaultListLimit := 100
  validateKey key := if key = [] then .error "key".toList else .ok key
  validateSetArgs key _ _ :=
    if key = [] then .error "key".toList else .ok ()
  validateListArgs _ _ _ := .ok ()
  ttlUnsupported := "ttl not supported".toList
  expiry now ttlSeconds := .ok (truncated (now + ttlSeconds * 1000))

def workspaceCaller : KvContext where
  userId := "ann".toList
  appScope := none

def emptyStores : KvStores where
  rows := Keyed.empty
  files := []

/-- A draft is kept for a minute, read before that, listed and deleted. -/
def draftCalls : List KeyValueCall :=
  [⟨0, .set "draft".toList "1".toList (some 60)⟩,
    ⟨59999, .get "draft".toList⟩, ⟨60000, .list none none none⟩,
    ⟨60001, .delete "draft".toList⟩]

theorem keyvalue_implements_its_contract_draftCalls :
    answersFrom (contractAnswer lenientPackage) Keyed.empty draftCalls =
        [some (.wasSet "draft".toList), some (.got "draft".toList (some "1".toList) true),
          some (.listed ["draft".toList] none),
          some (.deleted "draft".toList true)] ∧
      List.Forall₂ (SameResult false) (answersFrom (liveAnswer .dynamodb some workspaceCaller)
          emptyStores draftCalls)
        (answersFrom (contractAnswer lenientPackage) Keyed.empty draftCalls) := by
  have kept : ∀ raw key, lenientPackage.validateKey raw = .ok key → key = raw := by
    intro raw key validated
    by_cases isEmpty : raw = []
    · simp [lenientPackage, isEmpty] at validated
    · simp only [lenientPackage, isEmpty, if_false] at validated
      exact (Except.ok.inj validated).symm
  have fresh : FreshPartition workspaceCaller emptyStores :=
    ⟨by simp [emptyStores, Keyed.empty], by simp [emptyStores]⟩
  exact ⟨by decide +kernel, keyvalue_implements_its_contract kept .dynamodb some fresh false
      (by decide +kernel)⟩

def expiredCalls : List KeyValueCall :=
  [⟨0, .set "draft".toList "1".toList (some 60)⟩, ⟨60000, .get "draft".toList⟩]

theorem keyvalue_breaks_its_contract :
    ¬ ∀ calls, List.Forall₂ (SameResult true)
        (answersFrom (liveAnswer .dynamodb some workspaceCaller) emptyStores calls)
        (answersFrom (contractAnswer lenientPackage) Keyed.empty calls) := by
  intro claimed
  have live : answersFrom (liveAnswer .dynamodb some workspaceCaller)
      emptyStores expiredCalls = [some (.wasSet "draft".toList),
          some (.got "draft".toList (some "1".toList) true)] := by
    decide +kernel
  have contract : answersFrom (contractAnswer lenientPackage) Keyed.empty
      expiredCalls = [some (.wasSet "draft".toList), some (.got "draft".toList none false)] := by
    decide +kernel
  have alike := claimed expiredCalls
  rw [live, contract] at alike
  obtain ⟨_, rest⟩ := List.forall₂_cons.mp alike
  obtain ⟨got, _⟩ := List.forall₂_cons.mp rest
  rcases got with same | ⟨_, key, same, _⟩
  · cases same
  · cases same

end Aprovan.Records
