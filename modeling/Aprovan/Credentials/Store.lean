import Aprovan.Grants.Dispatch
import Aprovan.Library.Keyed
import Aprovan.Sandboxes.Mounts

/-!
# The credential stores

A SQLite table, and the storage of the registry package behind an
adapter.  `ServesRecords` is what a store promises: one set of records, listed,
found by id and opened.  The registry package and the cipher are parameters.
-/

namespace Aprovan.Credentials

open Aprovan.Library
open Aprovan.Grants (CredentialLevel)

inductive CredentialType where
  | bearerToken
  | apiKey
  | oauth2Client
  | oauth2Authcode

structure CredentialRecord where
  (id workspaceId provider : Text)
  label : Option Text
  type : CredentialType
  level : CredentialLevel
  createdBy : Option Text
  (createdAt updatedAt : Nat)

/-- What a call throws: `CredentialResolutionError`,
`CredentialNotConnectedError`, or that a payload cannot be opened. -/
inductive CredentialError where
  | resolution (message : Text)
  | notConnected (provider : Text)
  | sealedPayload

abbrev Answer (Value : Type) := Except CredentialError Value

/-- A payload with its provider, as `resolveRecordById` answers. -/
structure IdentifiedPayload (Payload : Type) where
  (id provider : Text)
  payload : Payload

/-- The part of `ICredentialStore` that resolution calls. -/
structure ICredentialStore (Payload : Type) where
  list : Text → List CredentialRecord
  get : Text → Text → Option CredentialRecord
  getPayload : Text → Text → Answer (Option Payload)
  resolveRecordById : Text → Text → Answer (Option (IdentifiedPayload Payload))

/-- One set of records, however it is asked for. -/
structure ServesRecords {Payload : Type} (store : ICredentialStore Payload) : Prop where
  get_iff : ∀ workspaceId id record, store.get workspaceId id = some record ↔
      record ∈ store.list workspaceId ∧ record.id = id
  resolve_absent : ∀ workspaceId id, store.get workspaceId id = none →
      store.resolveRecordById workspaceId id = .ok none
  resolve_found : ∀ workspaceId id record, store.get workspaceId id = some record →
      store.resolveRecordById workspaceId id =
          (store.getPayload workspaceId id).map (·.map fun payload =>
            ⟨id, record.provider, payload⟩) ∨
        store.resolveRecordById workspaceId id = .ok none ∧ (id = [] ∨ record.provider = [])

section

variable {Payload : Type} (effectiveLevel :
    CredentialType → Option CredentialLevel → CredentialLevel)
  (decrypt : Text → Option Payload)

/-- Open a sealed payload; the cipher or the JSON reader may throw. -/
def openPayload (sealedText : Text) : Answer Payload :=
  match decrypt sealedText with
  | none => .error .sealedPayload
  | some payload => .ok payload

/-- A row of the table `credentials`. -/
structure CredentialRow where
  (id workspaceId provider : Text)
  label : Option Text
  type : CredentialType
  payload : Text
  (createdBy level : Option Text)
  (createdAt updatedAt : Nat)

/-- The rows, with `id TEXT PRIMARY KEY`. -/
abbrev CredentialTable := Keyed CredentialRow.id

/-- A level of the vocabulary, by its name. -/
def isCredentialLevel (level : Text) : Option CredentialLevel :=
  if level = "workspace-token".toList then some .workspaceToken
  else if level = "workspace-oauth".toList then some .workspaceOauth
  else if level = "user-oauth".toList then some .userOauth
  else none

/-- `CredentialStoreSqlite.record`. -/
def CredentialRow.record (row : CredentialRow) : CredentialRecord where
  id := row.id
  workspaceId := row.workspaceId
  provider := row.provider
  label := row.label
  type := row.type
  level := effectiveLevel row.type (row.level.bind isCredentialLevel)
  createdBy := row.createdBy
  createdAt := row.createdAt
  updatedAt := row.updatedAt

/-- `ORDER BY provider, created_at`. -/
def listedBefore (first second : CredentialRow) : Prop :=
  first.provider < second.provider ∨
    first.provider = second.provider ∧ first.createdAt ≤ second.createdAt

instance : DecidableRel listedBefore := fun first second =>
  inferInstanceAs (Decidable (first.provider < second.provider ∨
    first.provider = second.provider ∧ first.createdAt ≤ second.createdAt))

/-- `WHERE workspace_id = ? AND id = ?`. -/
def rowOf (table : CredentialTable) (workspaceId id : Text) : Option CredentialRow :=
  table.rows.find? fun row => row.workspaceId = workspaceId ∧ row.id = id

def credentialStoreSqlite (table : CredentialTable) : ICredentialStore Payload where
  list workspaceId :=
    ((table.rows.filter (·.workspaceId = workspaceId)).insertionSort
      listedBefore).map (CredentialRow.record effectiveLevel)
  get workspaceId id :=
    (rowOf table workspaceId id).map (CredentialRow.record effectiveLevel)
  getPayload workspaceId id :=
    match rowOf table workspaceId id with
    | none => .ok none
    | some row =>
      if row.payload = [] then .ok none else (openPayload decrypt row.payload).map some
  resolveRecordById workspaceId credentialId :=
    match rowOf table workspaceId credentialId with
    | none => .ok none
    | some row =>
      if row.id = [] ∨ row.provider = [] ∨ row.payload = [] then .ok none
      else
        (openPayload decrypt row.payload).map fun payload => some ⟨row.id, row.provider, payload⟩

/-- A row as the registry package answers it, without the payload. -/
structure RegistryRow where
  (id provider : Text)
  label : Option Text
  type : CredentialType
  level : Option CredentialLevel
  createdBy : Option Text
  (createdAt updatedAt : Nat)

/-- The package's `storage.credentials`: a row is found under its id, and its
sealed payload with it. -/
structure RegistryCredentials where
  list : Text → List RegistryRow
  get : Text → Text → Option RegistryRow
  getWithPayload : Text → Text → Option (RegistryRow × Text)
  get_iff : ∀ tenant id row, get tenant id = some row ↔ row ∈ list tenant ∧ row.id = id
  getWithPayload_fst : ∀ tenant id, (getWithPayload tenant id).map Prod.fst = get tenant id

/-- Nothing is stored. -/
instance : Inhabited RegistryCredentials where
  default := {
    list := fun _ => []
    get := fun _ _ => none
    getWithPayload := fun _ _ => none
    get_iff := by simp
    getWithPayload_fst := by simp }

def RegistryRow.toRecord (workspaceId : Text) (row : RegistryRow) : CredentialRecord where
  id := row.id
  workspaceId := workspaceId
  provider := row.provider
  label := row.label
  type := row.type
  level := effectiveLevel row.type row.level
  createdBy := row.createdBy
  createdAt := row.createdAt
  updatedAt := row.updatedAt

def credentialStoreRegistry (storage : RegistryCredentials) : ICredentialStore Payload where
  list workspaceId :=
    (storage.list workspaceId).map (RegistryRow.toRecord effectiveLevel workspaceId)
  get workspaceId id :=
    (storage.get workspaceId id).map (RegistryRow.toRecord effectiveLevel workspaceId)
  getPayload workspaceId id :=
    match storage.getWithPayload workspaceId id with
    | none => .ok none
    | some (_, sealedText) => (openPayload decrypt sealedText).map some
  resolveRecordById workspaceId credentialId :=
    match storage.getWithPayload workspaceId credentialId with
    | none => .ok none
    | some (row, sealedText) =>
      (openPayload decrypt sealedText).map fun payload => some ⟨row.id, row.provider, payload⟩

/-- `storeBackend()`, with what the backend has stored. -/
inductive StoredCredentials where
  | sqlite (table : CredentialTable)
  | dsql (storage : RegistryCredentials)

def getCredentialStore : StoredCredentials → ICredentialStore Payload
  | .sqlite table => credentialStoreSqlite effectiveLevel decrypt table
  | .dsql storage => credentialStoreRegistry effectiveLevel decrypt storage

end

end Aprovan.Credentials
