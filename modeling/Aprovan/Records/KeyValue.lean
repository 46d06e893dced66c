import Aprovan.Apps.Instances
import Aprovan.Library.Keyed
import Aprovan.Library.LazyFill

/-!
# Keyvalue

`keyvalue` keeps its values in the record store, and a key that has no record
is still looked for at its old path in the files.  The statements of concurrent
calls interleave, and others write and delete files in between.  A value is the
JSON text that stands for it.
-/

namespace Aprovan.Records

open Aprovan.Library Aprovan.Server Aprovan.Fs
open Aprovan.Apps.Instances (sharedRecordScope)

/-- A file, and whether it was written through `vfs`. -/
structure KvFile where
  (path content : Text)
  viaVfs : Bool
  deriving DecidableEq

structure KvRow where
  (scope key value : Text)

def KvRow.name (row : KvRow) : Text × Text :=
  (row.scope, row.key)

/-- The records and the files of the workspace. -/
structure KvStores where
  rows : Keyed KvRow.name
  files : List KvFile

namespace KvStores

def lookup (stores : KvStores) (scope key : Text) : Option Text :=
  (stores.rows.find? (scope, key)).map KvRow.value

def fileAt (stores : KvStores) (path : Text) : Option KvFile :=
  stores.files.find? (·.path = path)

end KvStores

inductive KvStatement where
  | instanceAccess (appId instanceId userId : Text)
  | getRecord (scope key : Text)
  /-- For a migration, `source` is the file that the value was read from. -/
  | setRecord (scope key value : Text) (source : Option KvFile)
  | deleteRecord (scope key : Text)
  | listRecords (scope keyPrefix : Text)
  | readLegacy (path : Text)
  | removeLegacy (path : Text)
  | listLegacy (root : Text)

abbrev KvStatement.Answer : KvStatement → Type
  | .getRecord _ _ => Option Text
  | .deleteRecord _ _ => Bool
  | .listRecords _ _ => List Text
  | .readLegacy _ => Option KvFile
  | .removeLegacy _ => Bool
  | .listLegacy _ => List KvFile
  | _ => Unit

inductive KvFailure where
  | store
  /-- `JSON.parse` throws. -/
  | malformedJson
  | service (error : ServiceError)

def performKv (backend : RecordBackend) :
    (statement : KvStatement) → KvStores → statement.Answer × KvStores
  | .instanceAccess _ _ _, stores => ((), stores)
  | .getRecord scope key, stores => (stores.lookup scope key, stores)
  | .setRecord scope key value _, stores =>
    ((), { stores with rows := stores.rows.put ⟨scope, key, value⟩ })
  | .deleteRecord scope key, stores =>
    ((stores.lookup scope key).isSome, { stores with rows := stores.rows.erase (scope, key) })
  | .listRecords scope keyPrefix, stores =>
    ((stores.rows.rows.filter fun row =>
      row.scope = scope ∧ backend.selectsKey keyPrefix row.key).map KvRow.key, stores)
  | .readLegacy path, stores => (stores.fileAt path, stores)
  | .removeLegacy path, stores =>
    ((stores.fileAt path).isSome, { stores with
      files := stores.files.filter (·.path ≠ path) })
  | .listLegacy root, stores => (stores.files.filter fun file => underPath file.path root, stores)

def executeKv (backend : RecordBackend) (failure : Option KvFailure)
    (statement : KvStatement) (stores : KvStores) :
    Except KvFailure statement.Answer × KvStores :=
  match failure with
  | some failure => (.error failure, stores)
  | none =>
    let performed := performKv backend statement stores
    (.ok performed.1, performed.2)

abbrev KvCall := Process KvStatement.Answer KvFailure

def askKv (statement : KvStatement) : KvCall statement.Answer :=
  Process.perform statement

def refuseKv {Value : Type} (error : ServiceError) : KvCall Value :=
  Process.raise (.service error)

/-- `\w`. -/
def isWordLetter (letter : Char) : Bool :=
  letter.isAlphanum || letter = '_'

/-- `/^[\w][\w.\-:]{0,127}$/u`. -/
def isIdent : Text → Bool
  | [] => false
  | first :: rest =>
    isWordLetter first && rest.length ≤ 127 &&
      rest.all fun letter => isWordLetter letter || letter ∈ ['.', '-', ':']

def badIdent (label : Text) : ServiceError where
  message := label ++ " must match /^[\\w][\\w.\\-:]\x7b0,127\x7d$/u".toList
  status := 400

/-- `ident(value, label)`; a value that is no string is absent here. -/
def ident (value : Option Text) (label : Text) : Outcome Text :=
  match value with
  | some text => if isIdent text then .ok text else .error (badIdent label)
  | none => .error (badIdent label)

def checkedIdent (value : Option Text) (label : Text) : KvCall Text :=
  match ident value label with
  | .ok text => pure text
  | .error error => refuseKv error

/-- The session of an app. -/
structure KvSession where
  (id userId : Text)

structure KvContext where
  userId : Text
  appScope : Option KvSession

/-- The `instance` argument: absent, no string, or a string. -/
inductive InstanceArg where
  | absent
  | malformed
  | named (value : Text)
  deriving DecidableEq

variable (ctx : KvContext)

def kvScope : Text :=
  match ctx.appScope with
  | some app => "app#".toList ++ app.id ++ "#u#".toList ++ app.userId
  | none => "ws".toList

def badInstance : ServiceError where
  message := "instance must be a string".toList
  status := 400

def instanceNeedsApp : ServiceError where
  message := "instance addressing requires an app session".toList
  status := 400

/-- `resolveRecordScope`, over the argument as `instanceOpt` reads it. -/
def resolveRecordScope : InstanceArg → KvCall Text
  | .absent => pure (kvScope ctx)
  | .malformed => refuseKv badInstance
  | .named value => do
      let instanceId ← checkedIdent (some value) "instance".toList
      match ctx.appScope with
      | none => refuseKv instanceNeedsApp
      | some app =>
        askKv (.instanceAccess app.id instanceId ctx.userId)
        pure (sharedRecordScope app.id instanceId)

/-- `appDataDir(id, userSub)`. -/
def appDataDir (id userSub : Text) : Text :=
  ".apps/".toList ++ id ++ "/data/".toList ++ userSub

def legacyKvPath (key : Text) : Text :=
  match ctx.appScope with
  | none => servicesRoot ++ "/keyvalue/".toList ++ key
  | some app => appDataDir app.id app.userId ++ '/' :: key

theorem legacyKvPath_append (key : Text) : legacyKvPath ctx [] ++ key = legacyKvPath ctx key := by
  unfold legacyKvPath
  cases ctx.appScope with
  | none => simp
  | some app => simp

def legacyKeys (root keyPrefix : Text) (files : List KvFile) : List Text :=
  ((files.filter fun file => root.isPrefixOf file.path).map fun file =>
    file.path.drop root.length).filter fun key => keyPrefix.isPrefixOf key

def jsonNull : Text := "null".toList

inductive KvReply where
  | got (key value : Text)
  | wasSet (key : Text)
  | deleted (key : Text) (removed : Bool)
  | keys (keys : List Text)

/-- `keyvalue.get`; `parse` is `JSON.parse`, as a function of texts. -/
def kvGet (parse : Text → Option Text) (ctx : KvContext)
    (instanceArg : InstanceArg) (rawKey : Option Text) : KvCall KvReply := do
  let scope ← resolveRecordScope ctx instanceArg
  let key ← checkedIdent rawKey "key".toList
  match ← askKv (.getRecord scope key) with
  | some value => pure (.got key value)
  | none =>
    if instanceArg ≠ .absent then pure (.got key jsonNull)
    else
      match ← askKv (.readLegacy (legacyKvPath ctx key)) with
      | none => pure (.got key jsonNull)
      | some file =>
        match parse file.content with
        | none => Process.raise .malformedJson
        | some value =>
          askKv (.setRecord scope key value (some file))
          let _ ← askKv (.removeLegacy (legacyKvPath ctx key))
          pure (.got key value)

/-- `remove(...)`, where a refusal is caught. -/
def removeLegacyKey (instanceArg : InstanceArg) (key : Text) : KvCall Bool :=
  if instanceArg ≠ .absent then pure false
  else (askKv (.removeLegacy (legacyKvPath ctx key))).rescue fun _ => pure false

def kvSet (instanceArg : InstanceArg) (rawKey value : Option Text) : KvCall KvReply := do
  let scope ← resolveRecordScope ctx instanceArg
  let key ← checkedIdent rawKey "key".toList
  askKv (.setRecord scope key (value.getD jsonNull) none)
  let _ ← removeLegacyKey ctx instanceArg key
  pure (.wasSet key)

def kvDelete (instanceArg : InstanceArg) (rawKey : Option Text) : KvCall KvReply := do
  let scope ← resolveRecordScope ctx instanceArg
  let key ← checkedIdent rawKey "key".toList
  let deletedRecord ← askKv (.deleteRecord scope key)
  let deletedLegacy ← removeLegacyKey ctx instanceArg key
  pure (.deleted key (deletedRecord || deletedLegacy))

/-- The path that `list` lists the old files of: the old path of no key,
without its last slash. -/
def legacyRoot : Text :=
  (legacyKvPath ctx []).dropLast

def kvList (instanceArg : InstanceArg) (keyPrefix : Text) : KvCall KvReply := do
  let scope ← resolveRecordScope ctx instanceArg
  let recordKeys ← askKv (.listRecords scope keyPrefix)
  if instanceArg ≠ .absent then pure (.keys (sortTexts recordKeys))
  else
    let entries ← (askKv (.listLegacy (legacyRoot ctx))).rescue fun _ => pure []
    let legacy := legacyKeys (legacyKvPath ctx []) keyPrefix entries
    pure (.keys (sortTexts (recordKeys ++ legacy).dedup))

inductive KvOperation where
  | get (key : Option Text)
  | set (key value : Option Text)
  | delete (key : Option Text)
  | list (keyPrefix : Text)

structure KvRequest where
  ctx : KvContext
  instanceArg : InstanceArg
  operation : KvOperation

def serveKv (parse : Text → Option Text) (request : KvRequest) : KvCall KvReply :=
  match request.operation with
  | .get key => kvGet parse request.ctx request.instanceArg key
  | .set key value => kvSet request.ctx request.instanceArg key value
  | .delete key => kvDelete request.ctx request.instanceArg key
  | .list keyPrefix => kvList request.ctx request.instanceArg keyPrefix

abbrev KvSystem :=
  Concurrent KvStores KvRequest KvStatement.Answer KvFailure KvReply

inductive KvAct where
  | start (request : KvRequest)
  /-- The statement that the call at a position awaits is executed, or fails
  with the given failure. -/
  | advance (position : Nat) (failure : Option KvFailure)
  | vfsWrite (path content : Text)
  | vfsDelete (path : Text)

/-- What `vfs` does to files; it does not touch the service subtree. -/
def vfsEffect (files : List KvFile) : KvAct → List KvFile
  | .vfsWrite path content => files.filter (·.path ≠ path) ++ [⟨path, content, true⟩]
  | .vfsDelete path => files.filter (·.path ≠ path)
  | _ => files

def kvStep (backend : RecordBackend) (parse : Text → Option Text)
    (system : KvSystem) (act : KvAct) : Option KvSystem :=
  let after : KvSystem := { system with
    shared := { system.shared with
      files := vfsEffect system.shared.files act } }
  match act with
  | .start request => some (system.start request (serveKv parse request))
  | .advance position failure => system.advance (executeKv backend) position failure
  | .vfsWrite path _ => if isServicePath path then none else some after
  | .vfsDelete path => if isServicePath path then none else some after

def noKvCalls (stores : KvStores) : KvSystem :=
  ⟨stores, [], []⟩

/-- The files that were written through `vfs`. -/
def vfsFiles (stores : KvStores) : List KvFile :=
  stores.files.filter KvFile.viaVfs

def scopeOf : InstanceArg → Option Text
  | .absent => some (kvScope ctx)
  | .malformed => none
  | .named value =>
    if isIdent value then ctx.appScope.map fun app => sharedRecordScope app.id value
    else none

def KvRequest.scope? (request : KvRequest) : Option Text :=
  scopeOf request.ctx request.instanceArg

abbrev KvExecuted := Executed KvStatement.Answer KvFailure

def kvEffect (scope key : Text) : KvExecuted → CellEffect Text
  | ⟨_, .setRecord otherScope otherKey value source, .ok _⟩ =>
    if otherScope = scope ∧ otherKey = key then
      match source with
      | none => .writes (some value)
      | some _ => .fills value
    else .keeps
  | ⟨_, .deleteRecord otherScope otherKey, .ok _⟩ =>
    if otherScope = scope ∧ otherKey = key then .writes none else .keeps
  | _ => .keeps

structure KvKept (system : KvSystem) : Prop where
  /-- No file that was written through `vfs` becomes a record. -/
  migrated : ∀ (caller : Nat) scope key value file,
    ⟨caller, .setRecord scope key value (some file), .ok ()⟩ ∈ system.history → file.viaVfs = false
  /-- What a `get` answers was its record, or was migrated, or is null. -/
  got : ∀ (getter : Nat) request key value,
    system.calls[getter]? = some ⟨request, .done (.ok (.got key value))⟩ →
      ∃ scope, request.scope? = some scope ∧ (⟨getter, .getRecord scope key, .ok (some value)⟩ ∈
            system.history ∨ value = jsonNull ∨
          ∃ file, ⟨getter, .setRecord scope key value (some file), .ok ()⟩ ∈ system.history)
  /-- What a `list` names is a record, or a file not written through `vfs`. -/
  named : ∀ (lister : Nat) request keys,
    system.calls[lister]? = some ⟨request, .done (.ok (.keys keys))⟩ → ∀ key ∈ keys,
        (∃ scope keyPrefix recordKeys, ⟨lister, .listRecords scope keyPrefix, .ok recordKeys⟩ ∈
              system.history ∧ key ∈ recordKeys) ∨
          ∃ root files file, ⟨lister, .listLegacy root, .ok files⟩ ∈ system.history ∧
              file ∈ files ∧ file.path = legacyKvPath request.ctx key ∧ file.viaVfs = false
  /-- A `get` that begins after a `set` has ended answers what was set,
  unless the key was set or deleted in between. -/
  kept : ∀ (setter getter : Nat) setRequest getRequest scope key rawKey value found before after,
    system.calls[setter]? = some ⟨setRequest, .done (.ok (.wasSet key))⟩ →
      setRequest.operation = .set rawKey value → setRequest.scope? = some scope →
          system.calls[getter]? = some ⟨getRequest, .done (.ok (.got key found))⟩ →
            getRequest.scope? = some scope → system.history = before ++ after →
                (∀ entry ∈ after, entry.caller ≠ setter) →
                  (∀ entry ∈ before, entry.caller ≠ getter) → found = value.getD jsonNull ∨
                      ∃ front write middle change rest written, system.history =
                            front ++ write :: middle ++ change :: rest ∧
                          write.caller = setter ∧ kvEffect scope key write =
                                .writes (some (value.getD jsonNull)) ∧
                              kvEffect scope key change = .writes written ∧
                                ∃ read ∈ rest, read.caller = getter

/-- A file is removed, made a record, or listed only if it was not written
through `vfs`; and a migration finds no other value under its key. -/
def keepsApart (system : KvSystem) : KvAct → Bool
  | .advance position none =>
    match system.awaiting position with
    | some (.removeLegacy path) => (vfsFiles system.shared).all (·.path ≠ path)
    | some (.setRecord scope key value (some file)) =>
      !file.viaVfs && (system.shared.lookup scope key = none ||
        system.shared.lookup scope key = some value)
    | some (.listLegacy _) =>
      match system.requestAt position with
      | some ⟨ctx, _, .list keyPrefix⟩ =>
        legacyKeys (legacyKvPath ctx []) keyPrefix (vfsFiles system.shared) = []
      | _ => true
    | _ => true
  | _ => true

abbrev KvMemory :=
  List ((statement : KvStatement) × Except KvFailure statement.Answer)

/-- What a call has done when it returns. -/
def kvEnds (request : KvRequest) (memory : KvMemory) : Except KvFailure KvReply → Prop
  | .ok (.got key value) =>
    ∃ scope found, request.scope? = some scope ∧ ⟨.getRecord scope key, .ok found⟩ ∈ memory ∧
        match found with
        | some held => value = held
        | none => value = jsonNull ∨ ∃ file,
            ⟨.setRecord scope key value (some file), .ok ()⟩ ∈ memory
  | .ok (.wasSet key) =>
    ∃ scope rawKey value, request.scope? = some scope ∧ request.operation = .set rawKey value ∧
        ⟨.setRecord scope key (value.getD jsonNull) none, .ok ()⟩ ∈ memory
  | .ok (.keys keys) =>
    ∃ listed, request.operation = .list listed ∧ ∀ key ∈ keys, (∃ scope keyPrefix recordKeys,
        ⟨.listRecords scope keyPrefix, .ok recordKeys⟩ ∈ memory ∧ key ∈ recordKeys) ∨
        ∃ root files, ⟨.listLegacy root, .ok files⟩ ∈ memory ∧
          key ∈ legacyKeys (legacyKvPath request.ctx []) listed files
  | _ => True

section

variable {ctx : KvContext} {instanceArg : InstanceArg}
  {operation : KvOperation} {memory : KvMemory}
  {Value : Type} {concludes : KvMemory → Except KvFailure Value → Prop}

theorem follows_checkedIdent {raw : Option Text} {label : Text} {next : Text → KvCall Value}
    (failed : ∀ thrown, concludes memory (.error thrown))
    (after : ∀ text, Follows tracing concludes memory (next text)) :
    Follows tracing concludes memory (checkedIdent raw label >>= next) := by
  unfold checkedIdent
  cases ident raw label with
  | error error => exact failed _
  | ok text => exact after text

theorem follows_resolveRecordScope {next : Text → KvCall Value}
    (failed : ∀ memory thrown, concludes memory (.error thrown))
    (after : ∀ memory scope, scopeOf ctx instanceArg = some scope →
        Follows tracing concludes memory (next scope)) :
    Follows tracing concludes memory (resolveRecordScope ctx instanceArg >>= next) := by
  cases instanceArg with
  | absent => exact after memory _ rfl
  | malformed => exact failed memory _
  | named value =>
    unfold resolveRecordScope checkedIdent ident
    by_cases valid : isIdent value = true
    · simp only [valid, if_true]
      cases session : ctx.appScope with
      | none => exact failed memory _
      | some app =>
        refine follows_await trivial (fun thrown _ => failed _ thrown) ?_
        intro granted _
        apply after
        simp [scopeOf, session, valid]
    · simp only [valid]
      exact failed memory _

/-- Removing the old file of a key returns, and what is remembered stays. -/
theorem follows_removeLegacyKey {key : Text} {next : Bool → KvCall Value}
    (after : ∀ later removed, (∀ seen ∈ memory, seen ∈ later) →
      Follows tracing concludes later (next removed)) :
    Follows tracing concludes memory (removeLegacyKey ctx instanceArg key >>= next) := by
  unfold removeLegacyKey
  by_cases own : instanceArg = .absent
  · simp only [own, ne_eq, not_true_eq_false, if_false]
    refine follows_await trivial (fun _ _ =>
      after _ false fun seen member => List.mem_append_left _ member) ?_
    intro removed _
    exact after _ removed fun seen member => List.mem_append_left _ member
  · simp only [own, ne_eq, not_false_eq_true, if_true]
    exact after memory false fun seen member => member

theorem kvEnds_error {request : KvRequest} (thrown : KvFailure) :
    kvEnds request memory (.error thrown) :=
  trivial

variable {rawKey : Option Text}

theorem follows_migrate {parse : Text → Option Text} {scope key : Text}
    {file : KvFile} (resolved : scopeOf ctx instanceArg = some scope)
    (missed : ⟨.getRecord scope key, .ok none⟩ ∈ memory) :
    Follows tracing (kvEnds ⟨ctx, instanceArg, .get rawKey⟩) memory (match parse file.content with
      | none => Process.raise .malformedJson
      | some value => do
          askKv (.setRecord scope key value (some file))
          let _ ← askKv (.removeLegacy (legacyKvPath ctx key))
          pure (.got key value)) := by
  cases parse file.content with
  | none => trivial
  | some value =>
    refine ⟨trivial, ?_⟩
    intro written _
    cases written with
    | error thrown => trivial
    | ok done =>
      refine ⟨trivial, ?_⟩
      intro removed _
      cases removed with
      | error thrown => trivial
      | ok removed =>
        refine ⟨scope, none, resolved, ?_, Or.inr ⟨file, ?_⟩⟩
        · exact List.mem_append_left _ (List.mem_append_left _ missed)
        · exact List.mem_append_left _ (List.mem_append_right _ (List.mem_singleton_self _))

theorem follows_kvGet {parse : Text → Option Text} :
    Follows tracing (kvEnds ⟨ctx, instanceArg, .get rawKey⟩) memory
      (kvGet parse ctx instanceArg rawKey) := by
  apply follows_resolveRecordScope fun _ thrown => kvEnds_error thrown
  intro before scope resolved
  apply follows_checkedIdent kvEnds_error
  intro key
  refine follows_await trivial (fun _ _ => trivial) ?_
  intro found _
  cases found with
  | some value =>
    refine ⟨scope, some value, resolved, ?_, rfl⟩
    exact List.mem_append_right _ (List.mem_singleton_self _)
  | none =>
    show Follows tracing _ (before ++ _) (if instanceArg ≠ .absent then _ else _)
    split
    · refine ⟨scope, none, resolved, ?_, Or.inl rfl⟩
      exact List.mem_append_right _ (List.mem_singleton_self _)
    · refine ⟨trivial, ?_⟩
      intro read _
      cases read with
      | error thrown => trivial
      | ok legacy =>
        cases legacy with
        | none =>
          refine ⟨scope, none, resolved, ?_, Or.inl rfl⟩
          exact List.mem_append_left _ (List.mem_append_right _ (List.mem_singleton_self _))
        | some file =>
          apply follows_migrate resolved
          exact List.mem_append_left _ (List.mem_append_right _ (List.mem_singleton_self _))

theorem follows_kvSet {value : Option Text} :
    Follows tracing (kvEnds ⟨ctx, instanceArg, .set rawKey value⟩) memory
      (kvSet ctx instanceArg rawKey value) := by
  apply follows_resolveRecordScope fun _ thrown => kvEnds_error thrown
  intro before scope resolved
  apply follows_checkedIdent kvEnds_error
  intro key
  refine ⟨trivial, ?_⟩
  intro written _
  cases written with
  | error thrown => trivial
  | ok done =>
    apply follows_removeLegacyKey
    intro later removed stays
    refine ⟨scope, rawKey, value, resolved, rfl, stays _ ?_⟩
    exact List.mem_append_right _ (List.mem_singleton_self _)

theorem follows_kvDelete :
    Follows tracing (kvEnds ⟨ctx, instanceArg, .delete rawKey⟩) memory
      (kvDelete ctx instanceArg rawKey) := by
  apply follows_resolveRecordScope fun _ thrown => kvEnds_error thrown
  intro before scope resolved
  apply follows_checkedIdent kvEnds_error
  intro key
  refine follows_await trivial (fun _ _ => trivial) ?_
  intro removed _
  apply follows_removeLegacyKey
  intro later removed stays
  trivial

theorem follows_kvList {keyPrefix : Text} :
    Follows tracing (kvEnds ⟨ctx, instanceArg, .list keyPrefix⟩) memory
      (kvList ctx instanceArg keyPrefix) := by
  apply follows_resolveRecordScope fun _ thrown => kvEnds_error thrown
  intro before scope resolved
  refine follows_await trivial (fun _ _ => trivial) ?_
  intro recordKeys _
  show Follows tracing _ (before ++ _) (if instanceArg ≠ .absent then _ else _)
  have own : ⟨.listRecords scope keyPrefix, .ok recordKeys⟩ ∈
      before ++ [⟨KvStatement.listRecords scope keyPrefix, .ok recordKeys⟩] :=
    List.mem_append_right _ (List.mem_singleton_self _)
  split
  · refine ⟨keyPrefix, rfl, ?_⟩
    intro key member
    exact Or.inl ⟨scope, keyPrefix, recordKeys, own, mem_sortTexts.mp member⟩
  · refine ⟨trivial, ?_⟩
    intro listed _
    cases listed with
    | error thrown =>
      refine ⟨keyPrefix, rfl, ?_⟩
      intro key member
      rw [mem_sortTexts, List.mem_dedup, List.mem_append] at member
      rcases member with record | impossible
      · exact Or.inl ⟨scope, keyPrefix, recordKeys, List.mem_append_left _ own, record⟩
      · cases impossible
    | ok files =>
      refine ⟨keyPrefix, rfl, ?_⟩
      intro key member
      rw [mem_sortTexts, List.mem_dedup, List.mem_append] at member
      rcases member with record | legacy
      · exact Or.inl ⟨scope, keyPrefix, recordKeys, List.mem_append_left _ own, record⟩
      · exact Or.inr ⟨legacyRoot ctx, files,
          List.mem_append_right _ (List.mem_singleton_self _), legacy⟩

theorem follows_serveKv (parse : Text → Option Text) (request : KvRequest) :
    Follows tracing (kvEnds request) memory (serveKv parse request) := by
  obtain ⟨ctx, instanceArg, operation⟩ := request
  cases operation with
  | get key => exact follows_kvGet
  | set key value => exact follows_kvSet
  | delete key => exact follows_kvDelete
  | list keyPrefix => exact follows_kvList

end

theorem lookup_put (stores : KvStores) (row : KvRow) (scope key : Text) :
    KvStores.lookup { stores with rows := stores.rows.put row } scope key =
      if row.scope = scope ∧ row.key = key then some row.value
      else stores.lookup scope key := by
  unfold KvStores.lookup
  rw [Keyed.find?_put, apply_ite (Option.map KvRow.value)]
  simp only [KvRow.name, Prod.mk.injEq, Option.map_some]

theorem lookup_erase (stores : KvStores) (scope key other name : Text) :
    KvStores.lookup { stores with rows := stores.rows.erase (scope, key) } other name =
      if scope = other ∧ key = name then none else stores.lookup other name := by
  unfold KvStores.lookup
  rw [Keyed.find?_erase, apply_ite (Option.map KvRow.value)]
  simp only [Prod.mk.injEq, Option.map_none]

/-- The files that a call lists are the old keys of others than `vfs`. -/
def ListsApart (request : KvRequest) (files : List KvFile) : Prop :=
  ∀ keyPrefix, request.operation = .list keyPrefix →
    legacyKeys (legacyKvPath request.ctx []) keyPrefix (files.filter KvFile.viaVfs) = []

theorem legacyKeys_sublist {root keyPrefix : Text}
    {first second : List KvFile} (sublist : first.Sublist second) :
    (legacyKeys root keyPrefix first).Sublist (legacyKeys root keyPrefix second) :=
  ((sublist.filter _).map _).filter _

theorem mem_legacyKeys {root keyPrefix key : Text} {files : List KvFile} :
    key ∈ legacyKeys root keyPrefix files ↔ ∃ file ∈ files, file.path = root ++ key ∧
        keyPrefix.isPrefixOf key = true := by
  simp only [legacyKeys, List.mem_filter, List.mem_map]
  constructor
  · rintro ⟨⟨file, ⟨member, below⟩, rfl⟩, starts⟩
    refine ⟨file, member, ?_, starts⟩
    obtain ⟨rest, split⟩ := List.isPrefixOf_iff_prefix.mp below
    rw [← split, List.drop_left]
  · rintro ⟨file, member, path, starts⟩
    refine ⟨⟨file, ⟨member, ?_⟩, ?_⟩, starts⟩
    · rw [path]
      exact List.isPrefixOf_iff_prefix.mpr (List.prefix_append root key)
    · rw [path, List.drop_left]

structure KvSettled (initial : KvStores) (system : KvSystem) : Prop where
  records : ∀ scope key, system.shared.lookup scope key =
    cellAfter (kvEffect scope key) (initial.lookup scope key) system.history
  fills : ∀ scope key, FillsSafely (kvEffect scope key) (initial.lookup scope key) system.history
  read : ∀ before caller scope key found after,
    system.history = before ++ ⟨caller, .getRecord scope key, .ok found⟩ :: after →
      found = cellAfter (kvEffect scope key) (initial.lookup scope key) before
  migrated : ∀ (caller : Nat) scope key value file,
    ⟨caller, .setRecord scope key value (some file), .ok ()⟩ ∈ system.history → file.viaVfs = false
  listed : ∀ (caller : Nat) root files, ⟨caller, .listLegacy root, .ok files⟩ ∈ system.history →
      ∀ request, system.requestAt caller = some request → ListsApart request files

section

variable {backend : RecordBackend} {initial : KvStores}
  {system : KvSystem} {position : Nat} {request : KvRequest}

theorem settled_statement (settled : KvSettled initial system) {entry : KvExecuted}
    {next : KvSystem} (history : next.history = system.history ++ [entry])
    (asked : ∀ caller, next.requestAt caller = system.requestAt caller)
    (records : ∀ scope key, next.shared.lookup scope key =
      (kvEffect scope key entry).on (system.shared.lookup scope key))
    (fills : ∀ scope key value, kvEffect scope key entry = .fills value →
      system.shared.lookup scope key = none ∨ system.shared.lookup scope key = some value)
    (read : ∀ caller scope key found, entry = ⟨caller, .getRecord scope key, .ok found⟩ →
        found = system.shared.lookup scope key)
    (migrated : ∀ caller scope key value file,
      entry = ⟨caller, .setRecord scope key value (some file), .ok ()⟩ → file.viaVfs = false)
    (listed : ∀ caller root files, entry = ⟨caller, .listLegacy root, .ok files⟩ →
        ∀ request, system.requestAt caller = some request → ListsApart request files) :
    KvSettled initial next where
  records := by
    intro scope key
    rw [history, cellAfter_append_singleton, ← settled.records, records]
  fills := by
    intro scope key before found after value split fill
    rw [history] at split
    rcases split_of_append_singleton split with
      ⟨rfl, rfl⟩ | ⟨shorter, rfl, older⟩
    · rw [← List.append_inj_left' split rfl, ← settled.records]
      exact fills scope key value fill
    · exact settled.fills scope key before found shorter value older fill
  read := by
    intro before caller scope key found after split
    rw [history] at split
    rcases split_of_append_singleton split with
      ⟨same, rfl⟩ | ⟨shorter, rfl, older⟩
    · rw [← List.append_inj_left' split (by simp), ← settled.records]
      exact read caller scope key found same.symm
    · exact settled.read before caller scope key found shorter older
  migrated := by
    intro caller scope key value file member
    rw [history] at member
    rcases List.mem_append.mp member with older | new
    · exact settled.migrated caller scope key value file older
    · exact migrated caller scope key value file (List.mem_singleton.mp new).symm
  listed := by
    intro caller root files member request started
    rw [history] at member
    rw [asked] at started
    rcases List.mem_append.mp member with older | new
    · exact settled.listed caller root files older request started
    · exact listed caller root files (List.mem_singleton.mp new).symm request started

theorem settled_answered (settled : KvSettled initial system) {statement : KvStatement}
    {resume : Except KvFailure statement.Answer → KvCall KvReply}
    (found : system.Awaits position request statement resume) {failure : Option KvFailure}
    (keeps : keepsApart system (.advance position failure) = true) :
    KvSettled initial (system.answered position request statement resume
      (executeKv backend failure statement system.shared)) := by
  have asked := requestAt_of_found found
  have awaiting : system.awaiting position = some statement := by rw [Concurrent.awaiting, found]
  have same := fun caller => @requestAt_answered _ _ _ _ _ _ system position
    request statement resume (executeKv backend failure statement system.shared) found caller
  have migrates : ∀ {scope key value file},
      statement = .setRecord scope key value (some file) → failure = none → file.viaVfs = false ∧
          (system.shared.lookup scope key = none ∨
            system.shared.lookup scope key = some value) := by
    intro scope key value file written isNone
    subst written isNone
    simpa [keepsApart, awaiting] using keeps
  apply settled_statement settled rfl same
  · intro other name
    cases failure with
    | some failure => cases statement <;> rfl
    | none =>
      cases statement with
      | setRecord scope key value source =>
        refine (lookup_put system.shared ⟨scope, key, value⟩ other name).trans ?_
        by_cases own : scope = other ∧ key = name
        · rw [if_pos own]
          cases source <;> simp [executeKv, kvEffect, own, CellEffect.on]
        · rw [if_neg own]
          simp [executeKv, kvEffect, own, CellEffect.on]
      | deleteRecord scope key =>
        refine (lookup_erase system.shared scope key other name).trans ?_
        by_cases own : scope = other ∧ key = name
        · rw [if_pos own]
          simp [executeKv, kvEffect, own, CellEffect.on]
        · rw [if_neg own]
          simp [executeKv, kvEffect, own, CellEffect.on]
      | _ => rfl
  · intro other name filled fill
    cases failure with
    | some failure => cases statement <;> cases fill
    | none =>
      cases statement with
      | setRecord scope key value source =>
        by_cases own : scope = other ∧ key = name
        · obtain ⟨rfl, rfl⟩ := own
          cases source with
          | none => simp [executeKv, kvEffect] at fill
          | some file =>
            have sameValue : value = filled := by simpa [executeKv, kvEffect] using fill
            rw [← sameValue]
            exact (migrates rfl rfl).2
        · simp [executeKv, kvEffect, own] at fill
      | deleteRecord scope key =>
        by_cases own : scope = other ∧ key = name <;>
          simp [executeKv, kvEffect, own] at fill
      | _ => cases fill
  · intro caller scope key value read
    cases failure with
    | some failure => cases read
    | none =>
      cases read
      rfl
  · intro caller scope key value file written
    cases failure with
    | some failure => cases written
    | none =>
      cases written
      exact (migrates rfl rfl).1
  · intro caller root files listed other started keyPrefix operation
    cases failure with
    | some failure => cases listed
    | none =>
      cases listed
      rw [asked] at started
      cases started
      obtain ⟨ctx, instanceArg, operation⟩ := request
      cases operation
      have none_named : legacyKeys (legacyKvPath ctx []) keyPrefix
          (vfsFiles system.shared) = [] := by
        simpa only [keepsApart, awaiting, asked, decide_eq_true_eq] using keeps
      apply List.sublist_nil.mp
      rw [← none_named]
      apply legacyKeys_sublist
      exact List.filter_sublist.filter KvFile.viaVfs

end

structure KvInvariant (initial : KvStores) (system : KvSystem) : Prop where
  follow : AllFollow (fun _ => tracing) [] kvEnds system
  settled : KvSettled initial system

theorem kvInvariant_idle (initial : KvStores) : KvInvariant initial (noKvCalls initial) where
  follow := follows_idle
  settled := by
    refine ⟨fun _ _ => rfl, ?_, ?_, ?_, ?_⟩
    · intro scope key before entry after value split
      have impossible : [] = before ++ entry :: after := split
      simp at impossible
    · intro before caller scope key found after split
      have impossible : [] = before ++ _ :: after := split
      simp at impossible
    · intro caller scope key value file member
      cases member
    · intro caller root files member
      cases member

section

variable {backend : RecordBackend} {parse : Text → Option Text}
  {initial : KvStores} {system next : KvSystem} {act : KvAct}

section

variable (holds : KvInvariant initial system)

include holds

theorem kvInvariant_files (files : List KvFile) :
    KvInvariant initial { system with
      shared := { system.shared with files := files } } :=
  ⟨⟨holds.follow.below, holds.follow.follow⟩,
    ⟨holds.settled.records, holds.settled.fills, holds.settled.read,
      holds.settled.migrated, holds.settled.listed⟩⟩

theorem kvInvariant_start (request : KvRequest) :
    KvInvariant initial (system.start request (serveKv parse request)) where
  follow := follows_start holds.follow (follows_serveKv parse request)
  settled := by
    refine ⟨holds.settled.records, holds.settled.fills, holds.settled.read,
      holds.settled.migrated, ?_⟩
    intro caller root files member other started
    have inside : caller < system.calls.length := holds.follow.below _ member
    rw [requestAt_start inside] at started
    exact holds.settled.listed caller root files member other started

theorem kvInvariant_kvStep (keeps : keepsApart system act = true)
    (taken : kvStep backend parse system act = some next) :
    KvInvariant initial next := by
  cases act with
  | start request =>
    cases taken
    exact kvInvariant_start holds request
  | advance position failure =>
    obtain ⟨request, statement, resume, found, rfl⟩ :=
      advance_eq_some_iff.mp taken
    exact ⟨follows_answered holds.follow found trivial, settled_answered holds.settled found keeps⟩
  | vfsWrite path content =>
    simp only [kvStep] at taken
    split at taken
    · cases taken
    · cases taken
      exact kvInvariant_files holds _
  | vfsDelete path =>
    simp only [kvStep] at taken
    split at taken
    · cases taken
    · cases taken
      exact kvInvariant_files holds _

end

/-- A step does to the files that were written through `vfs` what `vfs`
does. -/
theorem vfsFiles_kvStep (keeps : keepsApart system act = true)
    (taken : kvStep backend parse system act = some next) :
    vfsFiles next.shared = vfsEffect (vfsFiles system.shared) act := by
  cases act with
  | start request =>
    cases taken
    rfl
  | advance position failure =>
    obtain ⟨request, statement, resume, found, rfl⟩ :=
      advance_eq_some_iff.mp taken
    have awaiting : system.awaiting position = some statement := by rw [Concurrent.awaiting, found]
    cases failure with
    | some failure => rfl
    | none =>
      cases statement with
      | removeLegacy path =>
        have apart : ∀ file ∈ vfsFiles system.shared, file.path ≠ path := by
          simpa [keepsApart, awaiting] using keeps
        show (system.shared.files.filter _).filter _ = _
        rw [List.filter_comm]
        apply List.filter_eq_self.mpr
        intro file member
        exact decide_eq_true (apart file member)
      | _ => rfl
  | vfsWrite path content =>
    simp only [kvStep] at taken
    split at taken
    · cases taken
    · cases taken
      show (system.shared.files.filter _ ++ _).filter _ =
        (system.shared.files.filter _).filter _ ++ _
      rw [List.filter_append, List.filter_comm]
      rfl
  | vfsDelete path =>
    simp only [kvStep] at taken
    split at taken
    · cases taken
    · cases taken
      exact List.filter_comm _ _ _

end

section

variable {initial : KvStores} {system : KvSystem}

theorem kvEnds_of_found (follow : AllFollow (fun _ => tracing) [] kvEnds
      system) {position : Nat} {request : KvRequest} {reply : KvReply}
    (found : system.calls[position]? = some ⟨request, .done (.ok reply)⟩) :
    ∃ memory, kvEnds request memory (.ok reply) ∧
      ∀ statement answer, ⟨statement, answer⟩ ∈ memory →
        ⟨position, statement, answer⟩ ∈ system.history :=
  ⟨_, follow.ended found, fun _ _ member => mem_memoryOf_tracing member⟩

theorem read_of_settled (settled : KvSettled initial system) {scope key value : Text}
    {found : Option Text} {setter getter : Nat} {before after : List KvExecuted}
    (split : system.history = before ++ after)
    (write : ⟨setter, .setRecord scope key value none, .ok ()⟩ ∈ before)
    (read : ⟨getter, .getRecord scope key, .ok found⟩ ∈ after) :
    found = some value ∨ ∃ front write middle change rest written,
        system.history = front ++ write :: middle ++ change :: rest ∧ write.caller = setter ∧
            kvEffect scope key write = .writes (some value) ∧
              kvEffect scope key change = .writes written ∧
                ∃ read ∈ rest, read.caller = getter := by
  obtain ⟨front, between, rfl⟩ := List.append_of_mem write
  obtain ⟨later, rest, rfl⟩ := List.append_of_mem read
  have writes : kvEffect scope key ⟨setter, .setRecord scope key value none, .ok ()⟩ =
        .writes (some value) := by
    simp [kvEffect]
  have whole : system.history = (front ++ [⟨setter, .setRecord scope key value none, .ok ()⟩]) ++
          (between ++ later) ++
        ⟨getter, .getRecord scope key, .ok found⟩ :: rest := by
    rw [split]
    simp
  have held : cellAfter (kvEffect scope key) (initial.lookup scope key)
      (front ++ [⟨setter, .setRecord scope key value none, .ok ()⟩]) = some value := by
    rw [cellAfter_append_singleton, writes]
    rfl
  have safely := settled.fills scope key
  rw [whole] at safely
  rw [settled.read _ getter scope key found rest whole]
  rcases cellAfter_kept safely.front held with kept | changed
  · exact Or.inl kept
  · obtain ⟨middle, change, remaining, written, inside, changes⟩ := changed
    refine Or.inr ⟨front, _, middle, change,
      remaining ++ ⟨getter, .getRecord scope key, .ok found⟩ :: rest,
      written, ?_, rfl, writes, changes, _,
      List.mem_append_right _ List.mem_cons_self, rfl⟩
    rw [whole, inside]
    simp

theorem kvKept_of_invariant (holds : KvInvariant initial system) : KvKept system where
  migrated := holds.settled.migrated
  got := by
    intro getter request key value found
    obtain ⟨memory, ends, seen⟩ := kvEnds_of_found holds.follow found
    obtain ⟨scope, answer, resolved, read, given⟩ := ends
    refine ⟨scope, resolved, ?_⟩
    cases answer with
    | some held =>
      have same : value = held := given
      rw [same]
      exact Or.inl (seen _ _ read)
    | none =>
      rcases given with null | ⟨file, written⟩
      · exact Or.inr (Or.inl null)
      · exact Or.inr (Or.inr ⟨file, seen _ _ written⟩)
  named := by
    intro lister request keys found key member
    obtain ⟨memory, ends, seen⟩ := kvEnds_of_found holds.follow found
    obtain ⟨listed, operation, named⟩ := ends
    rcases named key member with record | legacy
    · obtain ⟨scope, keyPrefix, recordKeys, asked, inside⟩ := record
      exact Or.inl ⟨scope, keyPrefix, recordKeys, seen _ _ asked, inside⟩
    · obtain ⟨root, files, asked, inside⟩ := legacy
      obtain ⟨file, stored, path, starts⟩ := mem_legacyKeys.mp inside
      have apart := holds.settled.listed lister root files (seen _ _ asked)
        request (requestAt_of_found found) listed operation
      have other : file.viaVfs = false := by
        by_contra written
        have named : key ∈ legacyKeys (legacyKvPath request.ctx []) listed
            (files.filter KvFile.viaVfs) :=
          mem_legacyKeys.mpr ⟨file, List.mem_filter.mpr
            ⟨stored, by simpa using written⟩, path, starts⟩
        rw [apart] at named
        cases named
      rw [legacyKvPath_append] at path
      exact Or.inr ⟨root, files, file, seen _ _ asked, stored, path, other⟩
  kept := by
    intro setter getter setRequest getRequest scope key rawKey value found
      before after wasSet operation setScope got getScope split ended begun
    obtain ⟨memory, ends, seen⟩ := kvEnds_of_found holds.follow wasSet
    obtain ⟨_, _, _, resolved, sameOperation, written⟩ := ends
    rw [setScope] at resolved
    rw [operation] at sameOperation
    cases resolved
    cases sameOperation
    have write := seen _ _ written
    rw [split] at write
    have writeBefore := (List.mem_append.mp write).resolve_right fun later => ended _ later rfl
    obtain ⟨_, readEnds, readSeen⟩ := kvEnds_of_found holds.follow got
    obtain ⟨_, answer, readScope, read, given⟩ := readEnds
    rw [getScope] at readScope
    cases readScope
    have readHistory := readSeen _ _ read
    rw [split] at readHistory
    have readAfter := (List.mem_append.mp readHistory).resolve_left
      fun earlier => begun _ earlier rfl
    rcases read_of_settled holds.settled split writeBefore readAfter with
      kept | changed
    · rw [kept] at given
      exact Or.inl given
    · exact Or.inr changed

end

def noRows : KvStores where
  rows := Keyed.empty
  files := [⟨".services/keyvalue/theme".toList, "dark".toList, false⟩]

def workspaceRequest (operation : KvOperation) : KvRequest where
  ctx := { userId := "ann".toList, appScope := none }
  instanceArg := .absent
  operation := operation

def sessionRequest (operation : KvOperation) : KvRequest where
  ctx := { userId := "ann".toList
           appScope := some { id := "app".toList, userId := "ann".toList } }
  instanceArg := .absent
  operation := operation

def statementsOf (position count : Nat) : List KvAct :=
  List.replicate count (.advance position none)

/-- A file that the app's user writes where a key would have been. -/
def noteWritten : KvAct :=
  .vfsWrite ".apps/app/data/ann/note".toList "1".toList

/-- A key is migrated, set and read again, next to a file of the app. -/
def quietRun : List KvAct :=
  noteWritten ::
    .start (workspaceRequest (.get (some "theme".toList))) :: statementsOf 0 4 ++
    .start (workspaceRequest (.set (some "theme".toList)
      (some "light".toList))) :: statementsOf 1 2 ++
    .start (sessionRequest (.set (some "size".toList) (some "9".toList))) :: statementsOf 2 2 ++
    .start (workspaceRequest (.get (some "theme".toList))) :: statementsOf 3 1

/-- A key of the app session that is read takes the file away. -/
def noteTaken : List KvAct :=
  noteWritten :: .start (sessionRequest (.get (some "note".toList))) :: statementsOf 0 4

end Aprovan.Records
