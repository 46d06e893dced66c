import Aprovan.Apps.Partition
import Aprovan.Fs.Store
import Aprovan.Library.Process
import Aprovan.Server.RecordStore

/-!
# Shared instances

An instance is one record that carries its access list, its storage cap and its
byte counter, and every operation reads it and writes it back whole.  Each
statement is atomic and may be refused; between two of them other calls go
on.  Two backends put a large value in an object of its own, under a key that
the row's next value shares.
-/

namespace Aprovan.Apps.Instances

open Aprovan.Library Aprovan.Server Aprovan.Fs

/-- The instance record with what the meter reads and writes. -/
structure MeteredInstance extends AppInstanceRecord where
  updatedAt : Nat
  storageCapBytes : Option Nat
  storageBytes : Nat
  deriving DecidableEq

/-- A row of the record store; `value` is its JSON text, which a spilled row
does not have, and `bytes` is stamped in shared scopes only. -/
structure RecordRow where
  (tenant scope key : Text)
  value : Option Text
  bytes : Option Nat
  deriving DecidableEq

/-- `objects` is the bucket, by tenant, scope and key. -/
structure InstanceStores where
  clock : Nat
  instances : Text → Text → Option MeteredInstance
  items : List RecordRow
  objects : Text → Text → Text → Option Text
  files : Text → Store
  installHosting : Text → Text → Option HostingMode
  isMember : Text → Text → Bool

/-- A row with the value that a read resolves: none if its object is gone. -/
def RecordRow.resolved (objects : Text → Text → Text → Option Text) (row : RecordRow) :
    RecordRow :=
  { row with value := row.value.or (objects row.tenant row.scope row.key) }

def InstanceStores.rows (stores : InstanceStores) : List RecordRow :=
  stores.items.map (RecordRow.resolved stores.objects)

inductive InstanceStatement where
  | now
  | readInstance (workspaceId instanceId : Text)
  | writeInstance (workspaceId instanceId : Text) (record : MeteredInstance)
  | deleteInstanceRecord (workspaceId instanceId : Text)
  | readInstall (workspaceId appId : Text)
  | getMembership (workspaceId userId : Text)
  | listRows (tenant scope : Text)
  | getRow (tenant scope key : Text)
  | putRow (row : RecordRow)
  | getObject (tenant scope key : Text)
  | putObject (tenant scope key body : Text)
  | deleteObject (tenant scope key : Text)
  /-- The stamp of a row; zero when there is none. -/
  | readBytes (tenant scope key : Text)
  /-- The deletion answers the row it removed. -/
  | deleteRow (tenant scope key : Text)
  | listFiles (workspaceId directory : Text)
  | removeFiles (workspaceId directory : Text)
  deriving DecidableEq

abbrev InstanceStatement.Answer : InstanceStatement → Type
  | .now => Nat
  | .readInstance _ _ => Option MeteredInstance
  | .writeInstance _ _ _ => Unit
  | .deleteInstanceRecord _ _ => Unit
  | .readInstall _ _ => Option HostingMode
  | .getMembership _ _ => Bool
  | .listRows _ _ => List Text
  | .getRow _ _ _ => Option RecordRow
  | .putRow _ => Unit
  | .getObject _ _ _ => Option Text
  | .putObject _ _ _ _ => Unit
  | .deleteObject _ _ _ => Unit
  | .readBytes _ _ _ => Nat
  | .deleteRow _ _ _ => Option RecordRow
  | .listFiles _ _ => List FsEntry
  | .removeFiles _ _ => Nat

inductive InstanceFailure where
  /-- A statement was refused. -/
  | store
  | service (error : ServiceError)

abbrev InstanceCall := Process InstanceStatement.Answer InstanceFailure

def query (statement : InstanceStatement) : InstanceCall statement.Answer :=
  Process.perform statement

def sharedRecordScope (appId instanceId : Text) : Text :=
  "app#".toList ++ appId ++ "#shared#".toList ++ instanceId

def sharedDataDir (id instanceId : Text) : Text :=
  ".apps/".toList ++ id ++ "/shared/".toList ++ instanceId

/-- `/^app#[^#]+#shared#([^#]+)$/`. -/
def sharedScopeInstanceId (scope : Text) : Option Text :=
  match splitOn '#' scope with
  | [first, appId, third, instanceId] =>
    if first = "app".toList ∧ appId ≠ [] ∧ third = "shared".toList ∧ instanceId ≠ [] then
      some instanceId
    else none
  | _ => none

variable (workspaceId instanceId : Text)

def unknownInstance : ServiceError where
  message := "Unknown instance: ".toList ++ instanceId
  status := 404

def notAMember (sub hostWorkspaceId : Text) : ServiceError where
  message :=
    "User ".toList ++ sub ++ " is not a member of workspace ".toList ++ hostWorkspaceId ++
      (": managed instances require every participant to be a " ++
        "hosting-workspace member").toList
  status := 400

def requireInstance : InstanceCall MeteredInstance := do
  match ← query (.readInstance workspaceId instanceId) with
  | none => Process.raise (.service (unknownInstance instanceId))
  | some record => pure record

/-- A read of the install that fails counts as no install. -/
def resolveHostingMode (hostWorkspaceId appId : Text) : InstanceCall HostingMode := do
  let hosting ←
    (query (.readInstall hostWorkspaceId appId)).rescue fun _ => pure none
  pure (hosting.getD .managed)

def assertHostingMembership (hostWorkspaceId sub : Text) : InstanceCall Unit := do
  if (← query (.getMembership hostWorkspaceId sub)) then pure ()
  else Process.raise (.service (notAMember sub hostWorkspaceId))

def assertParticipantsAllowed (hostWorkspaceId appId : Text) (subs : List Text) :
    InstanceCall Unit := do
  if (← resolveHostingMode hostWorkspaceId appId) ≠ .managed then pure ()
  else subs.forM (assertHostingMembership hostWorkspaceId)

def writeBack (record : MeteredInstance) : InstanceCall MeteredInstance := do
  let now ← query .now
  let stamped := { record with updatedAt := now }
  query (.writeInstance workspaceId instanceId stamped)
  pure stamped

def addParticipant (sub : Text) : InstanceCall MeteredInstance := do
  let record ← requireInstance workspaceId instanceId
  assertParticipantsAllowed record.hostWorkspaceId record.appId [sub]
  if sub ∈ record.participants then pure record
  else
    writeBack workspaceId instanceId { record with participants := record.participants ++ [sub] }

def removeParticipant (sub : Text) : InstanceCall MeteredInstance := do
  let record ← requireInstance workspaceId instanceId
  if sub ∈ record.participants then
    writeBack workspaceId instanceId { record with
      participants := record.participants.filter fun participant => participant ≠ sub }
  else pure record

def maxSafeInteger : Int := 2 ^ 53 - 1

def badCap : ServiceError where
  message := "storageCapBytes must be a non-negative integer".toList
  status := 400

/-- `none` clears the cap. -/
def setInstanceCap (capBytes : Option Int) : InstanceCall MeteredInstance := do
  if capBytes.any fun cap => maxSafeInteger < cap || cap < 0 then Process.raise (.service badCap)
  else
    let record ← requireInstance workspaceId instanceId
    writeBack workspaceId instanceId { record with storageCapBytes := capBytes.map Int.toNat }

def decimal (number : Int) : Text := (toString number).toList

def capExceeded (stored delta cap : Int) : ServiceError where
  message :=
    "Instance ".toList ++ instanceId ++ " storage cap exceeded: ".toList ++
      decimal stored ++ " + ".toList ++ decimal delta ++ " > ".toList ++
      decimal cap ++ " bytes".toList
  status := 413

/-- A positive delta may not pass the cap; the counter floors at zero. -/
def reserveInstanceBytes (deltaBytes : Int) : InstanceCall Unit := do
  if deltaBytes = 0 then pure ()
  else
    let record ← requireInstance workspaceId instanceId
    match record.storageCapBytes.filter fun cap =>
        0 < deltaBytes ∧ (cap : Int) < record.storageBytes + deltaBytes with
    | some cap =>
      Process.raise (.service (capExceeded instanceId record.storageBytes deltaBytes cap))
    | none =>
      let _ ← writeBack workspaceId instanceId
        { record with
          storageBytes := (record.storageBytes + deltaBytes).toNat }
      pure ()

def isOverCap : InstanceFailure → Bool
  | .store => false
  | .service error => error.status = 413

def meterSharedScopeDelta (tenant scope : Text) (deltaBytes : Int) : InstanceCall Unit :=
  match sharedScopeInstanceId scope with
  | none => pure ()
  | some instanceId =>
    if deltaBytes = 0 then pure ()
    else
      (reserveInstanceBytes tenant instanceId deltaBytes).rescue
        fun thrown =>
          if isOverCap thrown then Process.raise thrown else pure ()

def spillThresholdBytes : Nat := 350 * 1024

def spills (backend : RecordBackend) (value : Text) : Bool :=
  backend ≠ .sqlite && spillThresholdBytes < byteLength value

/-- Its failure is ignored. -/
def clearObject (tenant scope key : Text) : InstanceCall Unit :=
  (query (.deleteObject tenant scope key)).rescue fun _ => pure ()

/-- The object of the row is overwritten, or on DynamoDB cleared, before the
row is written. -/
def storeRow (backend : RecordBackend) (tenant scope key value : Text)
    (bytes : Option Nat) : InstanceCall Unit := do
  if spills backend value then
    query (.putObject tenant scope key value)
    query (.putRow ⟨tenant, scope, key, none, bytes⟩)
  else
    match backend with
    | .dynamodb =>
      clearObject tenant scope key
      query (.putRow ⟨tenant, scope, key, some value, bytes⟩)
    | .sqlite => query (.putRow ⟨tenant, scope, key, some value, bytes⟩)
    | .dsql =>
      query (.putRow ⟨tenant, scope, key, some value, bytes⟩)
      clearObject tenant scope key

/-- `set`: the meter runs before anything is stored. -/
def setRecord (backend : RecordBackend) (tenant scope key value : Text) :
    InstanceCall Unit := do
  if (sharedScopeInstanceId scope).isSome then
    let stored ← query (.readBytes tenant scope key)
    meterSharedScopeDelta tenant scope (byteLength value - stored : Int)
    storeRow backend tenant scope key value (some (byteLength value))
  else storeRow backend tenant scope key value none

/-- What a deletion gives back to the counter. -/
def giveBack (tenant scope : Text) (oldBytes : Nat) : InstanceCall Unit :=
  if oldBytes = 0 then pure () else meterSharedScopeDelta tenant scope (-oldBytes)

def clearSpilled (tenant scope key : Text) (row : Option RecordRow) : InstanceCall Unit :=
  if row.any (·.value = none) then clearObject tenant scope key else pure ()

/-- `delete`: the backend over DSQL reads the row in a statement of its own;
the others learn it with the deletion. -/
def deleteRecord (backend : RecordBackend) (tenant scope key : Text) : InstanceCall Bool := do
  match backend with
  | .dsql =>
    let prior ← query (.getRow tenant scope key)
    match ← query (.deleteRow tenant scope key) with
    | none => pure false
    | some _ =>
      clearSpilled tenant scope key prior
      giveBack tenant scope ((prior.bind RecordRow.bytes).getD 0)
      pure true
  | .dynamodb =>
    match ← query (.deleteRow tenant scope key) with
    | none => pure false
    | some row =>
      clearSpilled tenant scope key (some row)
      giveBack tenant scope (row.bytes.getD 0)
      pure true
  | .sqlite =>
    match ← query (.deleteRow tenant scope key) with
    | none => pure false
    | some row =>
      giveBack tenant scope (row.bytes.getD 0)
      pure true

/-- The size of the value that `get` answers; it fails on a spilled row
whose object is gone. -/
def sizeOfRow (tenant scope key : Text) : InstanceCall Nat := do
  match ← query (.getRow tenant scope key) with
  | none => pure 0
  | some row =>
    match row.value with
    | some value => pure (byteLength value)
    | none =>
      match ← query (.getObject tenant scope key) with
      | some value => pure (byteLength value)
      | none => Process.raise .store

def sizeOfRows (tenant scope : Text) (keys : List Text) : InstanceCall Nat :=
  keys.foldlM (fun total key => do pure (total + (← sizeOfRow tenant scope key))) 0

def recountInstanceUsage : InstanceCall Nat := do
  let record ← requireInstance workspaceId instanceId
  let keys ← query (.listRows workspaceId (sharedRecordScope record.appId instanceId))
  let ofRows ← sizeOfRows workspaceId (sharedRecordScope record.appId instanceId) keys
  let files ← query (.listFiles workspaceId (sharedDataDir record.appId instanceId))
  let total := ofRows + (files.map FsEntry.size).sum
  let _ ← writeBack workspaceId instanceId { record with storageBytes := total }
  pure total

def deleteInstance (backend : RecordBackend) (workspaceId instanceId : Text) :
    InstanceCall Unit := do
  let record ← requireInstance workspaceId instanceId
  let keys ← query (.listRows workspaceId (sharedRecordScope record.appId instanceId))
  keys.forM fun key => do
    let _ ← deleteRecord backend workspaceId (sharedRecordScope record.appId instanceId) key
    pure ()
  let _ ← query (.removeFiles workspaceId (sharedDataDir record.appId instanceId))
  query (.deleteInstanceRecord workspaceId instanceId)

def isRow (tenant scope key : Text) (row : RecordRow) : Bool :=
  row.tenant = tenant ∧ row.scope = scope ∧ row.key = key

def setInstance (stores : InstanceStores) (workspaceId instanceId : Text)
    (record : Option MeteredInstance) : InstanceStores where
  clock := stores.clock
  instances workspace identifier :=
    if workspace = workspaceId ∧ identifier = instanceId then record
    else stores.instances workspace identifier
  items := stores.items
  objects := stores.objects
  files := stores.files
  installHosting := stores.installHosting
  isMember := stores.isMember

@[simp]
theorem instances_setInstance_self (stores : InstanceStores)
    (workspaceId instanceId : Text) (record : Option MeteredInstance) :
    (setInstance stores workspaceId instanceId record).instances
      workspaceId instanceId = record := by
  rw [setInstance]
  exact if_pos ⟨rfl, rfl⟩

theorem instances_setInstance_of_ne (stores : InstanceStores)
    {workspaceId instanceId workspace identifier : Text} (record : Option MeteredInstance)
    (other : ¬ (workspace = workspaceId ∧ identifier = instanceId)) :
    (setInstance stores workspaceId instanceId record).instances
      workspace identifier = stores.instances workspace identifier := by
  rw [setInstance]
  exact if_neg other

def setObject (stores : InstanceStores) (tenant scope key : Text) (body : Option Text) :
    InstanceStores :=
  { stores with
    objects := fun ofTenant inScope named =>
      if ofTenant = tenant ∧ inScope = scope ∧ named = key then body
      else stores.objects ofTenant inScope named }

def answerStatement : (statement : InstanceStatement) → InstanceStores →
    statement.Answer × InstanceStores
  | .now, stores => (stores.clock, stores)
  | .readInstance workspaceId instanceId, stores =>
    (stores.instances workspaceId instanceId, stores)
  | .writeInstance workspaceId instanceId record, stores =>
    ((), setInstance stores workspaceId instanceId (some record))
  | .deleteInstanceRecord workspaceId instanceId, stores =>
    ((), setInstance stores workspaceId instanceId none)
  | .readInstall workspaceId appId, stores => (stores.installHosting workspaceId appId, stores)
  | .getMembership workspaceId userId, stores => (stores.isMember workspaceId userId, stores)
  | .listRows tenant scope, stores =>
    (sortTexts ((stores.items.filter fun row =>
      row.tenant = tenant ∧ row.scope = scope).map RecordRow.key), stores)
  | .getRow tenant scope key, stores => (stores.items.find? (isRow tenant scope key), stores)
  | .putRow row, stores =>
    ((), { stores with
      items := stores.items.filter (!isRow row.tenant row.scope row.key ·) ++ [row] })
  | .getObject tenant scope key, stores => (stores.objects tenant scope key, stores)
  | .putObject tenant scope key body, stores =>
    ((), setObject stores tenant scope key (some body))
  | .deleteObject tenant scope key, stores => ((), setObject stores tenant scope key none)
  | .readBytes tenant scope key, stores =>
    (((stores.items.find? (isRow tenant scope key)).bind RecordRow.bytes).getD 0, stores)
  | .deleteRow tenant scope key, stores =>
    (stores.items.find? (isRow tenant scope key), { stores with
      items := stores.items.filter (!isRow tenant scope key ·) })
  | .listFiles workspaceId directory, stores =>
    ((stores.files workspaceId).listAll directory, stores)
  | .removeFiles workspaceId directory, stores =>
    (((stores.files workspaceId).removePrefix directory).1, { stores with
      files := Function.update stores.files workspaceId
        ((stores.files workspaceId).removePrefix directory).2 })

/-- Every statement but a clock reading may be refused. -/
def executeStatement (refused : Bool) (statement : InstanceStatement) (stores : InstanceStores) :
    Except InstanceFailure statement.Answer × InstanceStores :=
  if refused && statement ≠ .now then (.error .store, stores)
  else (.ok (answerStatement statement stores).1, (answerStatement statement stores).2)

end Aprovan.Apps.Instances
