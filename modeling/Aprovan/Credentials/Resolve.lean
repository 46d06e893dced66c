import Aprovan.Credentials.Store

/-!
# Resolving a credential

`resolveCredentialRecord` finds the credential of a call for the user who makes
it: a pinned one, else the user's own connection, else the first one of the
workspace.  `resolveWorkspaceCredential` is for calls without a user.
-/

namespace Aprovan.Credentials

open Aprovan.Library
open Aprovan.Sandboxes (jsonText)

structure CredentialInvoker where
  sub : Text

structure ResolvedCredential (Payload : Type) where
  id : Text
  level : Grants.CredentialLevel
  owner : Option Text
  payload : Payload

def idAndProfile (provider : Text) : CredentialError :=
  .resolution ("Cannot resolve ".toList ++ provider ++
    " by credential id and profile at once".toList)

def unresolvedProfile (provider profile : Text) : CredentialError :=
  .resolution ("Credential profile ".toList ++ jsonText profile ++ " for ".toList ++ provider ++
    " must be resolved through the profile store ".toList ++
    "(profiles.set \x7b namespace: ".toList ++ jsonText provider ++
    ", name: ".toList ++ jsonText profile ++
    ", credential: <id> \x7d) — ".toList ++
    "credential labels are display names, not identifiers".toList)

def missingCredential (credentialId : Text) : CredentialError :=
  .resolution ("Credential ".toList ++ credentialId ++ " does not exist in this workspace".toList)

def otherProvider (credentialId actual provider : Text) : CredentialError :=
  .resolution ("Credential ".toList ++ credentialId ++ " belongs to ".toList ++
    actual ++ ", not ".toList ++ provider)

section

variable {Payload : Type}

/-- An owner is named exactly for a user's connection. -/
def toResolvedCredential (record : CredentialRecord) (payload : Payload) :
    ResolvedCredential Payload where
  id := record.id
  level := record.level
  owner := if record.level = .userOauth then record.createdBy else none
  payload := payload

def isOwn (invoker : CredentialInvoker) (record : CredentialRecord) : Bool :=
  record.level = .userOauth && record.createdBy = some invoker.sub

variable (store : ICredentialStore Payload) (workspaceId : Text)

def providerRows (provider : Text) : List CredentialRecord :=
  (store.list workspaceId).filter (·.provider = provider)

def resolved (record : CredentialRecord) : Answer (Option (ResolvedCredential Payload)) :=
  (store.getPayload workspaceId record.id).map (·.map (toResolvedCredential record))

/-- A pin resolves exactly that row. -/
def resolvePinned (provider : Text) (invoker : CredentialInvoker) (credentialId : Text) :
    Answer (Option (ResolvedCredential Payload)) := do
  match ← store.resolveRecordById workspaceId credentialId with
  | none => .error (missingCredential credentialId)
  | some record =>
    if record.provider ≠ provider then .error (otherProvider credentialId record.provider provider)
    else
      match store.get workspaceId credentialId with
      | none => .error (missingCredential credentialId)
      | some held =>
        if held.level = .userOauth ∧ held.createdBy ≠ some invoker.sub then
          .error (.notConnected provider)
        else .ok (some (toResolvedCredential held record.payload))

/-- Without a pin: the invoker's own connection, else the first row of the
workspace. -/
def resolveUnpinned (provider : Text) (invoker : CredentialInvoker) :
    Answer (Option (ResolvedCredential Payload)) :=
  let rows := providerRows store workspaceId provider
  if rows = [] then .ok none
  else
    match rows.find? (isOwn invoker) <|> rows.find? (·.level ≠ .userOauth) with
    | none => .error (.notConnected provider)
    | some selected => resolved store workspaceId selected

/-- `resolveCredentialRecord`; the empty `credentialId` counts as absent. -/
def resolveCredentialRecord (provider : Text) (invoker : CredentialInvoker)
    (credentialId profile : Option Text) :
    Answer (Option (ResolvedCredential Payload)) :=
  match credentialId.filter (· ≠ []), profile with
  | some _, some _ => .error (idAndProfile provider)
  | none, some profile => .error (unresolvedProfile provider profile)
  | some credentialId, none => resolvePinned store workspaceId provider invoker credentialId
  | none, none => resolveUnpinned store workspaceId provider invoker

def resolveWorkspaceCredential (provider : Text) : Answer (Option (ResolvedCredential Payload)) :=
  let rows := (store.list workspaceId).filter fun record =>
    record.provider = provider ∧ record.level ≠ .userOauth
  match rows.head? with
  | none => .ok none
  | some selected => resolved store workspaceId selected

end

section

variable {Payload : Type} (effectiveLevel :
    CredentialType → Option Grants.CredentialLevel → Grants.CredentialLevel)
  (decrypt : Text → Option Payload)

theorem rowOf_eq_some_iff {table : CredentialTable} {workspaceId id : Text} {row : CredentialRow} :
    rowOf table workspaceId id = some row ↔
      row ∈ table.rows ∧ row.workspaceId = workspaceId ∧ row.id = id := by
  unfold rowOf
  constructor
  · intro found
    have hit := List.find?_some found
    exact ⟨List.mem_of_find?_eq_some found, of_decide_eq_true hit⟩
  · rintro ⟨member, sameWorkspace, sameId⟩
    cases found : table.rows.find? fun row => row.workspaceId = workspaceId ∧ row.id = id with
    | none =>
      have missed := List.find?_eq_none.mp found row member
      exact absurd (decide_eq_true ⟨sameWorkspace, sameId⟩) missed
    | some other =>
      have hit : other.workspaceId = workspaceId ∧ other.id = id := by
        simpa using List.find?_some found
      have stored := List.mem_of_find?_eq_some found
      have same : other = row :=
        List.inj_on_of_nodup_map table.keys stored member (hit.2.trans sameId.symm)
      rw [same]

theorem servesRecords_sqlite (table : CredentialTable) :
    ServesRecords (credentialStoreSqlite effectiveLevel decrypt table :
        ICredentialStore Payload) where
  get_iff workspaceId id record := by
    simp only [credentialStoreSqlite, Option.map_eq_some_iff,
      rowOf_eq_some_iff, List.mem_map, List.mem_insertionSort,
      List.mem_filter, decide_eq_true_eq]
    constructor
    · rintro ⟨row, ⟨member, sameWorkspace, sameId⟩, rfl⟩
      exact ⟨⟨row, ⟨member, sameWorkspace⟩, rfl⟩, sameId⟩
    · rintro ⟨⟨row, ⟨member, sameWorkspace⟩, rfl⟩, sameId⟩
      exact ⟨row, ⟨member, sameWorkspace, sameId⟩, rfl⟩
  resolve_absent workspaceId id absent := by
    have noRow : rowOf table workspaceId id = none := Option.map_eq_none_iff.mp absent
    simp only [credentialStoreSqlite, noRow]
  resolve_found workspaceId id record found := by
    obtain ⟨row, rowFound, rfl⟩ := Option.map_eq_some_iff.mp found
    have sameId : row.id = id := (rowOf_eq_some_iff.mp rowFound).2.2
    simp only [credentialStoreSqlite, rowFound, CredentialRow.record]
    by_cases unnamed : row.id = [] ∨ row.provider = []
    · right
      rw [if_pos (by tauto), ← sameId]
      exact ⟨rfl, unnamed⟩
    · left
      by_cases unsealed : row.payload = []
      · rw [if_pos (by tauto), if_pos unsealed]
        rfl
      · rw [if_neg (by tauto), if_neg unsealed, sameId]
        cases openPayload decrypt row.payload with
        | error thrown => rfl
        | ok payload => rfl

theorem servesRecords_registry (storage : RegistryCredentials) :
    ServesRecords (credentialStoreRegistry effectiveLevel decrypt storage :
        ICredentialStore Payload) where
  get_iff workspaceId id record := by
    simp only [credentialStoreRegistry, Option.map_eq_some_iff, storage.get_iff, List.mem_map]
    constructor
    · rintro ⟨row, ⟨member, sameId⟩, rfl⟩
      exact ⟨⟨row, member, rfl⟩, sameId⟩
    · rintro ⟨⟨row, member, rfl⟩, sameId⟩
      exact ⟨row, ⟨member, sameId⟩, rfl⟩
  resolve_absent workspaceId id absent := by
    have noRow : storage.get workspaceId id = none := Option.map_eq_none_iff.mp absent
    have noPayload : storage.getWithPayload workspaceId id = none := by
      rw [← storage.getWithPayload_fst] at noRow
      exact Option.map_eq_none_iff.mp noRow
    simp only [credentialStoreRegistry, noPayload]
  resolve_found workspaceId id record found := by
    left
    obtain ⟨row, rowFound, rfl⟩ := Option.map_eq_some_iff.mp found
    have sameId : row.id = id := ((storage.get_iff _ _ _).mp rowFound).2
    rw [← storage.getWithPayload_fst] at rowFound
    obtain ⟨⟨kept, sealedText⟩, withPayload, rfl⟩ :=
      Option.map_eq_some_iff.mp rowFound
    simp only [credentialStoreRegistry, withPayload, RegistryRow.toRecord]
    cases openPayload decrypt sealedText with
    | error thrown => rfl
    | ok payload =>
      show Except.ok _ = Except.ok _
      rw [← sameId]
      rfl

theorem servesRecords_configured (stored : StoredCredentials) :
    ServesRecords (getCredentialStore effectiveLevel decrypt stored) := by
  cases stored with
  | sqlite table => exact servesRecords_sqlite effectiveLevel decrypt table
  | dsql storage => exact servesRecords_registry effectiveLevel decrypt storage

end

section

variable {Payload : Type} {store : ICredentialStore Payload}
  {workspaceId provider credentialId : Text} {invoker : CredentialInvoker}
  {record : CredentialRecord} {found : ResolvedCredential Payload}

def MayUse (invoker : CredentialInvoker) (record : CredentialRecord) : Prop :=
  record.level = .userOauth → record.createdBy = some invoker.sub

/-- What is found is the stored record: its id, its level, its payload, and
its creator for a user's connection. -/
structure IsStored (store : ICredentialStore Payload)
    (workspaceId provider : Text) (record : CredentialRecord)
    (found : ResolvedCredential Payload) : Prop where
  listed : record ∈ store.list workspaceId
  ofProvider : record.provider = provider
  id : found.id = record.id
  level : found.level = record.level
  ofUser : record.level = .userOauth → found.owner = record.createdBy
  ofWorkspace : record.level ≠ .userOauth → found.owner = none
  payload : store.getPayload workspaceId record.id = .ok (some found.payload)

/-- The answer is the stored record once its payload opens, and follows the
payload where it is absent or does not open. -/
structure Opens (store : ICredentialStore Payload) (workspaceId provider : Text)
    (record : CredentialRecord) (answer : Answer (Option (ResolvedCredential Payload))) :
    Prop where
  found : ∀ payload, store.getPayload workspaceId record.id = .ok (some payload) →
    ∃ found, answer = .ok (some found) ∧ IsStored store workspaceId provider record found
  absent : store.getPayload workspaceId record.id = .ok none → answer = .ok none
  thrown : ∀ thrown, store.getPayload workspaceId record.id = .error thrown →
    answer = .error thrown

theorem isStored_toResolvedCredential {payload : Payload}
    (listed : record ∈ store.list workspaceId) (ofProvider : record.provider = provider)
    (opened : store.getPayload workspaceId record.id = .ok (some payload)) :
    IsStored store workspaceId provider record (toResolvedCredential record payload) where
  listed := listed
  ofProvider := ofProvider
  id := rfl
  level := rfl
  ofUser := fun userLevel => if_pos userLevel
  ofWorkspace := fun ofWorkspace => if_neg ofWorkspace
  payload := opened

theorem IsStored.same (stored : IsStored store workspaceId provider record found) :
    found = toResolvedCredential record found.payload := by
  obtain ⟨id, level, owner, payload⟩ := found
  obtain ⟨_, _, rfl, rfl, ofUser, ofWorkspace, _⟩ := stored
  rw [toResolvedCredential]
  by_cases userLevel : record.level = .userOauth
  · rw [if_pos userLevel, ← ofUser userLevel]
  · rw [if_neg userLevel, ← ofWorkspace userLevel]

theorem opens_resolved (listed : record ∈ providerRows store workspaceId provider) :
    Opens store workspaceId provider record (resolved store workspaceId record) := by
  have member := List.mem_filter.mp listed
  constructor
  · intro payload opened
    refine ⟨toResolvedCredential record payload, ?_,
      isStored_toResolvedCredential member.1 (of_decide_eq_true member.2) opened⟩
    rw [resolved, opened]
    rfl
  · intro absent
    rw [resolved, absent]
    rfl
  · intro thrown failed
    rw [resolved, failed]
    rfl

theorem isStored_of_resolved (listed : record ∈ providerRows store workspaceId provider)
    (returned : resolved store workspaceId record = .ok (some found)) :
    IsStored store workspaceId provider record found := by
  have opens := opens_resolved listed
  cases opened : store.getPayload workspaceId record.id with
  | error thrown => cases (opens.thrown thrown opened).symm.trans returned
  | ok sealedPayload =>
    cases sealedPayload with
    | none => cases (opens.absent opened).symm.trans returned
    | some payload =>
      obtain ⟨other, answered, isStored⟩ := opens.found payload opened
      cases answered.symm.trans returned
      exact isStored

theorem resolvePinned_answers (serves : ServesRecords store)
    {answer : Option (ResolvedCredential Payload)}
    (returned : resolvePinned store workspaceId provider invoker credentialId = .ok answer) :
    ∃ record found, answer = some found ∧ record.id = credentialId ∧
      IsStored store workspaceId provider record found ∧
      MayUse invoker record := by
  unfold resolvePinned at returned
  cases known : store.get workspaceId credentialId with
  | none =>
    rw [serves.resolve_absent _ _ known] at returned
    cases returned
  | some record =>
    have stored := (serves.get_iff _ _ _).mp known
    rcases serves.resolve_found _ _ _ known with same | ⟨hidden, _⟩
    · rw [same, ← stored.2] at returned
      rw [← stored.2] at known
      cases opened : store.getPayload workspaceId record.id with
      | error thrown =>
        rw [opened] at returned
        cases returned
      | ok sealedPayload =>
        cases sealedPayload with
        | none =>
          rw [opened] at returned
          cases returned
        | some payload =>
          rw [opened] at returned
          change (if record.provider ≠ provider then _ else _) = _ at returned
          rw [known] at returned
          by_cases mismatched : record.provider ≠ provider
          · rw [if_pos mismatched] at returned
            cases returned
          · rw [if_neg mismatched] at returned
            by_cases foreign : record.level = .userOauth ∧ record.createdBy ≠ some invoker.sub
            · simp only [if_pos foreign] at returned
              cases returned
            · simp only [if_neg foreign] at returned
              cases returned
              refine ⟨record, toResolvedCredential record payload, rfl, stored.2, ?_, ?_⟩
              · exact isStored_toResolvedCredential stored.1 (not_ne_iff.mp mismatched) opened
              · intro userLevel
                by_contra unlike
                exact foreign ⟨userLevel, unlike⟩
    · rw [hidden] at returned
      cases returned

theorem resolvePinned_returns (serves : ServesRecords store) (pinned : credentialId ≠ [])
    (named : provider ≠ []) (stored : IsStored store workspaceId provider record found)
    (isPinned : record.id = credentialId) (mayUse : MayUse invoker record) :
    resolvePinned store workspaceId provider invoker credentialId = .ok (some found) := by
  have known : store.get workspaceId credentialId = some record :=
    (serves.get_iff _ _ _).mpr ⟨stored.listed, isPinned⟩
  have looked : store.resolveRecordById workspaceId credentialId =
      .ok (some ⟨credentialId, record.provider, found.payload⟩) := by
    rcases serves.resolve_found _ _ _ known with same | ⟨_, unnamed | unnamed⟩
    · rw [same, ← isPinned, stored.payload]
      rfl
    · exact absurd unnamed pinned
    · exact absurd (stored.ofProvider.symm.trans unnamed) named
  have allowed : ¬ (record.level = .userOauth ∧ record.createdBy ≠ some invoker.sub) := by
    rintro ⟨userLevel, foreign⟩
    exact foreign (mayUse userLevel)
  unfold resolvePinned
  rw [looked, known]
  change (if record.provider ≠ provider then _ else _) = _
  rw [if_neg (not_ne_iff.mpr stored.ofProvider), if_neg allowed, stored.same]
  rfl

theorem mayUse_of_isOwn (own : isOwn invoker record = true) : MayUse invoker record := by
  unfold isOwn at own
  simp only [Bool.and_eq_true, decide_eq_true_eq] at own
  intro _
  exact own.2

/-- Without a pin an own connection comes first. -/
theorem resolveUnpinned_own
    (own : (providerRows store workspaceId provider).find? (isOwn invoker) = some record) :
    resolveUnpinned store workspaceId provider invoker = resolved store workspaceId record := by
  have nonempty : providerRows store workspaceId provider ≠ [] :=
    List.ne_nil_of_mem (List.mem_of_find?_eq_some own)
  unfold resolveUnpinned
  simp only [if_neg nonempty, own]
  rfl

theorem resolveUnpinned_workspace
    (noOwn : (providerRows store workspaceId provider).find? (isOwn invoker) = none)
    (first : (providerRows store workspaceId provider).find? (·.level ≠ .userOauth) = some record) :
    resolveUnpinned store workspaceId provider invoker = resolved store workspaceId record := by
  have nonempty : providerRows store workspaceId provider ≠ [] :=
    List.ne_nil_of_mem (List.mem_of_find?_eq_some first)
  unfold resolveUnpinned
  simp only [if_neg nonempty, noOwn, first]
  rfl

theorem resolveUnpinned_nothing
    (noOwn : (providerRows store workspaceId provider).find? (isOwn invoker) = none)
    (noWorkspace : (providerRows store workspaceId provider).find? (·.level ≠ .userOauth) = none) :
    resolveUnpinned store workspaceId provider invoker =
      if providerRows store workspaceId provider = [] then .ok none
      else
        .error (.notConnected provider) := by
  unfold resolveUnpinned
  simp only [noOwn, noWorkspace]
  rfl

theorem resolveUnpinned_answers (returned : resolveUnpinned store workspaceId provider invoker =
      .ok (some found)) :
    ∃ record, IsStored store workspaceId provider record found ∧ MayUse invoker record := by
  cases own : (providerRows store workspaceId provider).find? (isOwn invoker) with
  | some record =>
    rw [resolveUnpinned_own own] at returned
    exact ⟨record, isStored_of_resolved (List.mem_of_find?_eq_some own) returned,
      mayUse_of_isOwn (List.find?_some own)⟩
  | none =>
    cases first : (providerRows store workspaceId provider).find? (·.level ≠ .userOauth) with
    | some record =>
      rw [resolveUnpinned_workspace own first] at returned
      refine ⟨record, isStored_of_resolved (List.mem_of_find?_eq_some first) returned, ?_⟩
      intro userLevel
      have ofWorkspace : record.level ≠ .userOauth := by simpa using List.find?_some first
      exact absurd userLevel ofWorkspace
    | none =>
      rw [resolveUnpinned_nothing own first] at returned
      split at returned
      · cases returned
      · cases returned

theorem resolveWorkspaceCredential_answers
    (returned : resolveWorkspaceCredential store workspaceId provider = .ok (some found)) :
    ∃ record, IsStored store workspaceId provider record found ∧ record.level ≠ .userOauth := by
  unfold resolveWorkspaceCredential at returned
  simp only at returned
  split at returned
  · cases returned
  · next record selected =>
      have member := List.mem_of_head? selected
      have parts := List.mem_filter.mp member
      have matched := of_decide_eq_true parts.2
      refine ⟨record, isStored_of_resolved ?_ returned, matched.2⟩
      exact List.mem_filter.mpr ⟨parts.1, decide_eq_true matched.1⟩

section

variable (store : ICredentialStore Payload) (workspaceId provider : Text)
  (invoker : CredentialInvoker)

theorem resolveCredentialRecord_profile (pin : Option Text) (name : Text) :
    ∃ thrown, resolveCredentialRecord store workspaceId provider invoker pin
      (some name) = .error thrown := by
  unfold resolveCredentialRecord
  cases pin.filter (· ≠ []) with
  | some credentialId => exact ⟨_, rfl⟩
  | none => exact ⟨_, rfl⟩

theorem resolveCredentialRecord_pinned {pin : Option Text}
    (pinned : pin.filter (· ≠ []) = some credentialId) :
    resolveCredentialRecord store workspaceId provider invoker pin none =
      resolvePinned store workspaceId provider invoker credentialId := by
  simp only [resolveCredentialRecord, pinned]

theorem resolveCredentialRecord_unpinned {pin : Option Text}
    (unpinned : pin.filter (· ≠ []) = none) :
    resolveCredentialRecord store workspaceId provider invoker pin none =
      resolveUnpinned store workspaceId provider invoker := by
  simp only [resolveCredentialRecord, unpinned]

end

theorem resolveCredentialRecord_pinned_answers (serves : ServesRecords store)
    {pin profile : Option Text} {outcome : Option (ResolvedCredential Payload)}
    (pinned : pin.filter (· ≠ []) = some credentialId)
    (returned : resolveCredentialRecord store workspaceId provider invoker pin
      profile = .ok outcome) :
    ∃ record found, outcome = some found ∧ record.id = credentialId ∧
      IsStored store workspaceId provider record found ∧
      MayUse invoker record := by
  cases profile with
  | some name =>
    obtain ⟨thrown, same⟩ := resolveCredentialRecord_profile store
      workspaceId provider invoker pin name
    rw [same] at returned
    cases returned
  | none =>
    rw [resolveCredentialRecord_pinned store workspaceId provider invoker pinned] at returned
    exact resolvePinned_answers serves returned

theorem resolveCredentialRecord_answers (serves : ServesRecords store) {pin profile : Option Text}
    (returned : resolveCredentialRecord store workspaceId provider invoker pin
      profile = .ok (some found)) :
    ∃ record, IsStored store workspaceId provider record found ∧ MayUse invoker record := by
  cases pinned : pin.filter (· ≠ []) with
  | some credentialId =>
    obtain ⟨record, other, same, _, isStored, mayUse⟩ :=
      resolveCredentialRecord_pinned_answers serves pinned returned
    cases same
    exact ⟨record, isStored, mayUse⟩
  | none =>
    cases profile with
    | some name =>
      obtain ⟨thrown, same⟩ := resolveCredentialRecord_profile store
        workspaceId provider invoker pin name
      rw [same] at returned
      cases returned
    | none =>
      rw [resolveCredentialRecord_unpinned store workspaceId provider invoker pinned] at returned
      exact resolveUnpinned_answers returned

end

section

variable {Payload : Type} (effectiveLevel :
    CredentialType → Option Grants.CredentialLevel → Grants.CredentialLevel)
  (decrypt : Text → Option Payload)

end

end Aprovan.Credentials
