import Aprovan.Auth.Cache

/-!
# Coherence of the authentication cache

A resolution that read the store before a mutation may insert its principal
after the invalidation ran, and a principal may be assembled from reads at
different times.  Where an inserted principal was read at one moment that no
mutation invalidated so far came after, no request is given an older one.
-/

namespace Aprovan.Auth

open Aprovan.Library Aprovan.Identity

abbrev AuthEntry := Executed AuthStatement.Answer AuthFailure

def replayEntry (rows : IdentityRows) (entry : AuthEntry) : IdentityRows :=
  match entry.statement, entry.answer with
  | .change change, .ok _ => (rows.change change).2
  | .elapse milliseconds, .ok _ => { rows with clock := rows.clock + milliseconds }
  | _, _ => rows

def replay (initial : IdentityRows) (history : List AuthEntry) : IdentityRows :=
  history.foldl replayEntry initial

/-- The workspace of the picker row, in a store. -/
def currentWorkspace (rows : IdentityRows) (sub : Text) : Option Text :=
  match rows.session sub with
  | none => none
  | some row =>
    if row.expiresAt ≤ rows.nowEpoch then none else some row.currentWorkspaceId

/-- The workspace that a user resolves to in a store. -/
def selectedWorkspace (rows : IdentityRows) (requestedHeader sub : Text) : Text :=
  if requestedHeader ≠ [] then requestedHeader
  else if (currentWorkspace rows sub).getD [] ≠ [] then (currentWorkspace rows sub).getD []
  else (rows.activeWorkspace sub).getD []

/-- The principal that a user resolves to in a store. -/
def resolvesTo (rows : IdentityRows) (requestedHeader sub : Text) : Option Principal :=
  let workspaceId := selectedWorkspace rows requestedHeader sub
  if workspaceId = [] then none
  else
    (rows.membership workspaceId sub).map fun membership =>
      principalOf sub workspaceId membership (rows.groupIds workspaceId sub)

def isChange (entry : AuthEntry) : Bool :=
  match entry.statement, entry.answer with
  | .change _, .ok _ => true
  | _, _ => false

/-- The entry is the invalidation with which a mutation of the user
returns. -/
def invalidates (sub : Text) (entry : AuthEntry) : Bool :=
  entry.statement = .invalidatePrincipal sub

/-- At some time the user resolved to the principal, and every mutation of
the user that returned in `returned` had changed the store by then. -/
def ResolvedAfter (initial : IdentityRows) (history returned : List AuthEntry)
    (requestedHeader sub : Text) (principal : Principal) : Prop :=
  ∃ moment ≤ history.length,
    resolvesTo (replay initial (history.take moment)) requestedHeader sub = some principal ∧
    ∀ entry ∈ returned, invalidates sub entry → ∃ changed ∈ history.take moment,
        changed.caller = entry.caller ∧ isChange changed
  deriving Decidable

/-- Every request is given a principal of a time after the mutations of its
user that returned before it started. -/
def Coherent (environment : AuthEnvironment) (initial : IdentityRows) (system : AuthSystem) :
    Prop :=
  ∀ (position : Nat) (token requestedHeader : Text) (started : Nat) (principal : Principal),
    system.calls[position]? = some ⟨.authenticate (some token) requestedHeader started,
          .done (.ok (some principal))⟩ →
      ∃ sub, environment.subjectOf token = some sub ∧ principal.sub = sub ∧
        ResolvedAfter initial system.history (system.history.take started)
          requestedHeader sub principal

/-- The answer of a read is that of the store as given. -/
def agreesWith (rows : IdentityRows) (statement : AuthStatement)
    (answer : Except AuthFailure statement.Answer) : Bool :=
  match statement, answer with
  | .readSession userId, .ok found => found = rows.session userId
  | .nowEpoch, .ok now => now = rows.nowEpoch
  | .getActiveWorkspaceId sub, .ok found => found = rows.activeWorkspace sub
  | .getMembership workspaceId userId, .ok found => found = rows.membership workspaceId userId
  | .listUserGroupIds workspaceId userId, .ok found => found = rows.groupIds workspaceId userId
  | _, _ => true

/-- There is a moment at which everything the call read stood in the store,
and that no mutation of the user invalidated so far came after. -/
def ReadAtOneMoment (initial : IdentityRows) (history : List AuthEntry)
    (position : Nat) (sub : Text) : Prop :=
  ∃ moment ∈ List.range (history.length + 1), (∀ entry ∈ history, entry.caller = position →
      agreesWith (replay initial (history.take moment)) entry.statement entry.answer) ∧
    ∀ entry ∈ history, invalidates sub entry → ∃ changed ∈ history.take moment,
        changed.caller = entry.caller ∧ isChange changed
  deriving Decidable

def InsertCondition (initial : IdentityRows) (system : AuthSystem) : AuthAct → Prop
  | .advance position _ =>
    match system.awaiting position with
    | some (.setCachedPrincipal _ principal) =>
      ReadAtOneMoment initial system.history position principal.sub
    | _ => True
  | _ => True

instance (initial : IdentityRows) (system : AuthSystem) (act : AuthAct) :
    Decidable (InsertCondition initial system act) := by
  unfold InsertCondition
  split
  · split <;> infer_instance
  · infer_instance

/-- What a call knows: which stores its answers agree with, the principal it
found in the cache, and the one it stored. -/
structure AuthMemory where
  agrees : IdentityRows → Prop
  obtained : Option Principal
  stored : Option Principal

def noAnswers : AuthMemory where
  agrees := fun _ => True
  obtained := none
  stored := none

def rememberAuth (memory : AuthMemory) (statement : AuthStatement)
    (answer : Except AuthFailure statement.Answer) : AuthMemory where
  agrees := fun rows => memory.agrees rows ∧ agreesWith rows statement answer
  obtained :=
    match statement, answer with
    | .getCachedPrincipal _, .ok (some principal) => some principal
    | _, _ => memory.obtained
  stored :=
    match statement, answer with
    | .setCachedPrincipal _ principal, .ok _ => some principal
    | _, _ => memory.stored

/-- A request asks the cache under its own key only, and inserts what every
store that agrees with its answers resolves to. -/
def admitsAuthenticate (environment : AuthEnvironment) (token : Text)
    (requestedHeader : Text) (memory : AuthMemory) :
    AuthStatement → Prop
  | .getCachedPrincipal key => key = cacheKey (environment.hashToken token) requestedHeader
  | .setCachedPrincipal key principal =>
    key = cacheKey (environment.hashToken token) requestedHeader ∧
      environment.subjectOf token = some principal.sub ∧
      ∀ rows, memory.agrees rows → resolvesTo rows requestedHeader principal.sub = some principal
  | .invalidatePrincipal _ => False
  | .change _ => False
  | .elapse _ => False
  | _ => True

def admitsMutation : AuthStatement → Prop
  | .getCachedPrincipal _ => False
  | .setCachedPrincipal _ _ => False
  | _ => True

def authDiscipline (environment : AuthEnvironment) (request : AuthRequest) :
    Discipline AuthStatement.Answer AuthFailure AuthMemory where
  admits memory statement :=
    match request with
    | .authenticate (some token) requestedHeader _ =>
      admitsAuthenticate environment token requestedHeader memory statement
    | _ => admitsMutation statement
  possible _ statement answer :=
    match statement, answer with
    | .verifyAccessToken token, .ok sub => environment.subjectOf token = some sub
    | _, _ => True
  remember := rememberAuth

/-- A principal was found in the cache or stored there. -/
def AuthEnds (_ : AuthRequest) (memory : AuthMemory) (outcome : Except AuthFailure AuthReply) :
    Prop :=
  ∀ principal, outcome = .ok (some principal) →
    memory.obtained = some principal ∨ memory.stored = some principal

variable {request : AuthRequest} {statement : AuthStatement}

section

variable {environment : AuthEnvironment} {token requestedHeader : Text}
  {started : Nat} {memory : AuthMemory}

theorem follows_ask {ends : AuthMemory → Except AuthFailure statement.Answer → Prop} (admitted :
      (authDiscipline environment request).admits memory statement)
    (ended : ∀ answer, (authDiscipline environment request).possible memory statement answer →
        ends (rememberAuth memory statement answer) answer) :
    Follows (authDiscipline environment request) ends memory (ask statement) :=
  ⟨admitted, ended⟩

/-- After a call that returned, every store that agrees with the answers has
the property that the returned value says. -/
def Learns {Value : Type} (learned : Value → IdentityRows → Prop)
    (memory : AuthMemory) (outcome : Except AuthFailure Value) : Prop :=
  ∀ value, outcome = .ok value → ∀ rows, memory.agrees rows → learned value rows

theorem learns_error {Value : Type}
    {learned : Value → IdentityRows → Prop} (thrown : AuthFailure) :
    Learns learned memory (.error thrown) := by
  intro value impossible
  cases impossible

theorem follows_getCurrentWorkspace (sub : Text) :
    Follows (authDiscipline environment (.authenticate (some token) requestedHeader started))
      (Learns fun current rows => currentWorkspace rows sub = current)
      memory (getCurrentWorkspace sub) := by
  refine follows_await trivial (fun thrown _ => learns_error thrown) ?_
  intro found possible
  cases found with
  | none =>
    apply follows_pure
    intro value returned rows agrees
    cases returned
    have read : none = rows.session sub := of_decide_eq_true agrees.2
    rw [currentWorkspace, ← read]
  | some row =>
    refine follows_await trivial (fun thrown _ => learns_error thrown) ?_
    intro now possible
    show Follows _ _ _ (if _ then _ else _)
    by_cases expired : row.expiresAt ≤ now
    · rw [if_pos expired]
      apply follows_pure
      intro value returned rows agrees
      cases returned
      have read : some row = rows.session sub := of_decide_eq_true agrees.1.2
      have clock : now = rows.nowEpoch := of_decide_eq_true agrees.2
      rw [clock] at expired
      simp only [currentWorkspace, ← read, if_pos expired]
    · rw [if_neg expired]
      apply follows_pure
      intro value returned rows agrees
      cases returned
      have read : some row = rows.session sub := of_decide_eq_true agrees.1.2
      have clock : now = rows.nowEpoch := of_decide_eq_true agrees.2
      rw [clock] at expired
      simp only [currentWorkspace, ← read, if_neg expired]

theorem follows_selectWorkspace (sub : Text) :
    Follows (authDiscipline environment (.authenticate (some token) requestedHeader started))
      (Learns fun workspaceId rows => selectedWorkspace rows requestedHeader sub = workspaceId)
      memory (selectWorkspace requestedHeader sub) := by
  unfold selectWorkspace
  by_cases named : requestedHeader ≠ []
  · rw [if_pos named]
    apply follows_pure
    intro value returned rows agrees
    cases returned
    rw [selectedWorkspace, if_pos named]
  · rw [if_neg named]
    refine follows_then (follows_getCurrentWorkspace sub)
      (fun _ thrown _ => learns_error thrown) ?_
    intro afterwards current learned
    have known := learned current rfl
    dsimp only
    by_cases chosen : current.getD [] ≠ []
    · rw [if_pos chosen]
      apply follows_pure
      intro value returned rows agrees
      cases returned
      rw [selectedWorkspace, if_neg named, known rows agrees, if_pos chosen]
    · rw [if_neg chosen]
      refine follows_await trivial (fun thrown _ => learns_error thrown) ?_
      intro active possible
      apply follows_pure
      intro value returned rows agrees
      cases returned
      have read : active = rows.activeWorkspace sub := of_decide_eq_true agrees.2
      rw [selectedWorkspace, if_neg named, known rows agrees.1, if_neg chosen, ← read]

/-- The call ends with a principal it found in the cache or stored there. -/
def Accounts (memory : AuthMemory) (outcome : Except AuthFailure Principal) : Prop :=
  ∀ principal, outcome = .ok principal →
    memory.obtained = some principal ∨ memory.stored = some principal

theorem accounts_error (thrown : AuthFailure) : Accounts memory (.error thrown) := by
  intro principal impossible
  cases impossible

theorem resolvesTo_of_reads {rows : IdentityRows} {sub workspaceId : Text} {member : MemberRow}
    {groupIds : List Text} (selected : selectedWorkspace rows requestedHeader sub = workspaceId)
    (chosen : workspaceId ≠ []) (membership : some member = rows.membership workspaceId sub)
    (groups : groupIds = rows.groupIds workspaceId sub) :
    resolvesTo rows requestedHeader sub = some (principalOf sub workspaceId member groupIds) := by
  simp only [resolvesTo, selected, if_neg chosen, ← membership, ← groups, Option.map_some]

theorem follows_resolvePrincipal :
    Follows (authDiscipline environment (.authenticate (some token) requestedHeader started))
      Accounts memory (resolvePrincipal environment token requestedHeader) := by
  refine follows_await trivial (fun thrown _ => accounts_error thrown) ?_
  intro sub verified
  have subject : environment.subjectOf token = some sub := verified
  show Follows _ _ _ (selectWorkspace requestedHeader sub >>= _)
  refine follows_then (follows_selectWorkspace sub) (fun _ thrown _ => accounts_error thrown) ?_
  intro afterwards workspaceId learned
  have selected := learned workspaceId rfl
  dsimp only
  by_cases chosen : workspaceId = []
  · rw [if_pos chosen]
    exact follows_raise (accounts_error _)
  · rw [if_neg chosen]
    refine follows_await trivial (fun thrown _ => accounts_error thrown) ?_
    intro row possible
    cases row with
    | none => exact follows_raise (accounts_error _)
    | some member =>
      refine follows_await trivial (fun thrown _ => accounts_error thrown) ?_
      intro groupIds possible
      refine follows_await ⟨rfl, subject, ?_⟩ (fun thrown _ => accounts_error thrown) ?_
      · intro rows agrees
        have membership : some member = rows.membership workspaceId sub :=
          of_decide_eq_true agrees.1.2
        have groups : groupIds = rows.groupIds workspaceId sub := of_decide_eq_true agrees.2
        exact resolvesTo_of_reads (selected rows agrees.1.1) chosen membership groups
      · intro stored possible
        apply follows_pure
        intro principal returned
        cases returned
        exact Or.inr rfl

theorem follows_oidcPrincipal :
    Follows (authDiscipline environment (.authenticate (some token) requestedHeader started))
      Accounts memory (oidcPrincipal environment (some token) requestedHeader) := by
  apply follows_bind
  apply follows_ask
  · rfl
  · intro answer possible
    cases answer with
    | error thrown => exact accounts_error thrown
    | ok found =>
      cases found with
      | none => exact follows_resolvePrincipal
      | some cached =>
        apply follows_pure
        intro principal returned
        cases returned
        exact Or.inl rfl

end

section

variable {environment : AuthEnvironment}

theorem asks_ask (admitted : admitsMutation statement) : Asks admitsMutation (ask statement) :=
  asks_perform admitted

theorem asks_removeRow (backend : IdentityBackend) {present : AuthCall Bool}
    (reads : Asks admitsMutation present) (removal : IdentityChange) :
    Asks admitsMutation (removeRow backend present removal) := by
  cases backend with
  | sql => exact asks_ask (by trivial)
  | dynamo =>
    apply asks_bind reads
    intro found
    cases found with
    | false => exact asks_pure false
    | true =>
      apply asks_bind
      · exact asks_ask (by trivial)
      · intro changed
        exact asks_pure true

theorem asks_invalidateIf (changed : Bool) (userId : Text) :
    Asks admitsMutation (invalidateIf changed userId) := by
  cases changed with
  | false => exact asks_pure ()
  | true => exact asks_ask (by trivial)

theorem asks_changeThen {Value : Type} (change : IdentityChange) {next : Bool → AuthCall Value}
    (after : ∀ changed, Asks admitsMutation (next changed)) :
    Asks admitsMutation (ask (.change change) >>= next) := by
  apply asks_bind
  · exact asks_ask (by trivial)
  · exact after

theorem asks_applyChange (change : IdentityChange) :
    Asks admitsMutation (applyChange environment change) := by
  cases change with
  | putMembership row => exact asks_changeThen _ fun _ => asks_ask (by trivial)
  | removeMembership workspaceId userId =>
    apply asks_bind
    · apply asks_removeRow
      apply asks_bind
      · exact asks_ask (by trivial)
      · intro found
        exact asks_pure found.isSome
    · intro removed
      exact asks_invalidateIf removed userId
  | setCurrentWorkspace userId workspaceId ttlSeconds =>
    exact asks_changeThen _ fun _ => asks_ask (by trivial)
  | addMember row => exact asks_changeThen _ fun _ => asks_ask (by trivial)
  | removeMember row =>
    apply asks_bind
    · exact asks_removeRow _ (asks_ask (by trivial)) _
    · intro removed
      exact asks_invalidateIf removed row.userId
  | setActiveWorkspaceId sub workspaceId => exact asks_changeThen _ fun _ => asks_pure ()
  | removeGroup workspaceId groupId =>
    unfold applyChange
    cases environment.backend with
    | sql => exact asks_changeThen _ fun _ => asks_pure ()
    | dynamo => exact asks_pure ()

end

theorem follows_serveAuth (environment : AuthEnvironment) (request : AuthRequest) :
    Follows (authDiscipline environment request) (AuthEnds request) noAnswers
      (serveAuth environment request) := by
  cases request with
  | authenticate token requestedHeader started =>
    cases token with
    | none =>
      intro principal impossible
      cases impossible
    | some token =>
      refine follows_then follows_oidcPrincipal ?_ ?_
      · intro memory thrown accounts principal impossible
        cases impossible
      · intro memory found accounts principal returned
        cases returned
        exact accounts found rfl
  | mutate change =>
    refine follows_then (follows_of_asks (asks_applyChange change)
      fun _ _ admitted => admitted) ?_ ?_
    · intro memory thrown ended principal impossible
      cases impossible
    · intro memory value ended principal impossible
      cases impossible
  | elapse milliseconds =>
    refine follows_await trivial ?_ ?_
    · intro thrown possible principal impossible
      cases impossible
    · intro value possible principal impossible
      cases impossible

/-- With the entry a request obtained or stored the principal. -/
def yields (entry : AuthEntry) (principal : Principal) : Prop :=
  match entry.statement, entry.answer with
  | .getCachedPrincipal _, .ok found => found = some principal
  | .setCachedPrincipal _ stored, .ok _ => stored = principal
  | _, _ => False

variable {principal : Principal}

theorem yields_of_remembered {memory : AuthMemory} (position : Nat)
    {answer : Except AuthFailure statement.Answer} (remembered :
      (rememberAuth memory statement answer).obtained = some principal ∨
        (rememberAuth memory statement answer).stored = some principal) :
    yields ⟨position, statement, answer⟩ principal ∨
      memory.obtained = some principal ∨ memory.stored = some principal := by
  cases statement with
  | getCachedPrincipal key =>
    cases answer with
    | error thrown => exact Or.inr remembered
    | ok found =>
      cases found with
      | none => exact Or.inr remembered
      | some cached =>
        rcases remembered with obtained | stored
        · exact Or.inl obtained
        · exact Or.inr (Or.inr stored)
  | setCachedPrincipal key inserted =>
    cases answer with
    | error thrown => exact Or.inr remembered
    | ok written =>
      rcases remembered with obtained | stored
      · exact Or.inr (Or.inl obtained)
      · exact Or.inl (Option.some.inj stored)
  | _ => exact Or.inr remembered

theorem exists_entry_of_remembered (environment : AuthEnvironment) (request : AuthRequest)
    (position : Nat) (history : List AuthEntry) (principal : Principal) :
    (memoryOf (authDiscipline environment request) noAnswers history
        position).obtained = some principal ∨
      (memoryOf (authDiscipline environment request) noAnswers history
        position).stored = some principal →
      ∃ entry ∈ history, entry.caller = position ∧ yields entry principal := by
  refine memoryOf_induction (authDiscipline environment request) noAnswers position
    (fun history memory =>
      memory.obtained = some principal ∨ memory.stored = some principal →
        ∃ entry ∈ history, entry.caller = position ∧ yields entry principal)
    ?_ ?_ ?_ history
  · rintro (impossible | impossible) <;> cases impossible
  · intro before memory statement answer ih remembered
    rcases yields_of_remembered position remembered with
      new | old
    · exact ⟨_, List.mem_append_right before List.mem_cons_self, rfl, new⟩
    · obtain ⟨entry, member, same, yielding⟩ := ih old
      exact ⟨entry, List.mem_append_left _ member, same, yielding⟩
  · intro before memory entry other ih remembered
    obtain ⟨earlier, member, same, yielding⟩ := ih remembered
    exact ⟨earlier, List.mem_append_left _ member, same, yielding⟩

theorem agrees_iff_entries (environment : AuthEnvironment) (request : AuthRequest)
    (position : Nat) (history : List AuthEntry) (rows : IdentityRows) :
    (memoryOf (authDiscipline environment request) noAnswers history position).agrees rows ↔
      ∀ entry ∈ history, entry.caller = position →
        agreesWith rows entry.statement entry.answer := by
  refine memoryOf_induction (authDiscipline environment request) noAnswers position
    (fun history memory => memory.agrees rows ↔ ∀ entry ∈ history, entry.caller = position →
        agreesWith rows entry.statement entry.answer)
    ?_ ?_ ?_ history
  · simp [noAnswers]
  · intro before memory statement answer ih
    show memory.agrees rows ∧ agreesWith rows statement answer ↔ _
    rw [ih]
    constructor
    · rintro ⟨earlier, new⟩ entry member same
      rcases List.mem_append.mp member with old | last
      · exact earlier entry old same
      · cases List.mem_singleton.mp last
        exact new
    · intro all
      refine ⟨fun entry member => all entry (List.mem_append_left _ member), ?_⟩
      exact all _ (List.mem_append_right before List.mem_cons_self) rfl
  · intro before memory entry other ih
    rw [ih]
    constructor
    · intro earlier each member same
      rcases List.mem_append.mp member with old | last
      · exact earlier each old same
      · cases List.mem_singleton.mp last
        exact absurd same other
    · intro all each member
      exact all each (List.mem_append_left _ member)

section

variable {environment : AuthEnvironment} {refused : Bool}
  {statement : AuthStatement} {state : AuthState}

theorem rows_of_executeAuth (position : Nat) :
    (executeAuth environment refused statement state).2.rows =
      replayEntry state.rows ⟨position, statement,
          (executeAuth environment refused statement state).1⟩ := by
  unfold executeAuth
  split
  · cases statement <;> rfl
  · cases statement with
    | verifyAccessToken token =>
      simp only [answerAuth]
      cases environment.subjectOf token <;> rfl
    | _ => rfl

theorem mem_cache_of_getCachedPrincipal {cache : List CacheEntry} {now : Nat} {key : Text}
    {entry : CacheEntry} (member : entry ∈ (getCachedPrincipal cache now key).2) :
    entry ∈ cache := by
  unfold getCachedPrincipal at member
  split at member
  · exact member
  · split at member
    · exact List.mem_of_mem_filter member
    · exact member

theorem mem_cache_of_executeAuth {entry : CacheEntry} (member : entry ∈
      (executeAuth environment refused statement state).2.cache) :
    (entry ∈ state.cache ∧ statement ≠ .invalidatePrincipal entry.principal.sub) ∨
      statement = .setCachedPrincipal entry.key entry.principal := by
  unfold executeAuth at member
  split at member
  · rename_i denied
    refine Or.inl ⟨member, ?_⟩
    intro same
    rw [same] at denied
    simp [isLocal] at denied
  · cases statement with
    | getCachedPrincipal key => exact Or.inl ⟨mem_cache_of_getCachedPrincipal member, by simp⟩
    | setCachedPrincipal key principal =>
      rcases List.mem_append.mp member with old | new
      · exact Or.inl ⟨List.mem_of_mem_filter old, by simp⟩
      · cases List.mem_singleton.mp new
        exact Or.inr rfl
    | invalidatePrincipal subOrWorkspaceId =>
      have kept := of_decide_eq_true (List.mem_filter.mp member).2
      refine Or.inl ⟨List.mem_of_mem_filter member, ?_⟩
      intro same
      cases same
      exact kept (Or.inl rfl)
    | verifyAccessToken token =>
      simp only [answerAuth] at member
      refine Or.inl ⟨?_, by simp⟩
      cases subject : environment.subjectOf token with
      | none =>
        rw [subject] at member
        exact member
      | some sub =>
        rw [subject] at member
        exact member
    | _ => exact Or.inl ⟨member, by simp⟩

theorem mem_cache_of_hit {cache : List CacheEntry} {now : Nat} {key : Text}
    (hit : (getCachedPrincipal cache now key).1 = some principal) :
    ∃ entry ∈ cache, entry.key = key ∧ entry.principal = principal := by
  unfold getCachedPrincipal at hit
  split at hit
  · cases hit
  · rename_i entry found
    split at hit
    · cases hit
    · have seen : cache.find? (fun entry => entry.key = key) = some entry := found
      have named : entry.key = key := by simpa using List.find?_some seen
      exact ⟨entry, List.mem_of_find?_eq_some seen, named, Option.some.inj hit⟩

theorem executeAuth_of_isLocal (local_ : isLocal statement) :
    executeAuth environment refused statement state = answerAuth environment state statement := by
  rw [executeAuth, local_, Bool.not_true, Bool.and_false, if_neg (by simp)]

theorem possible_of_executeAuth (request : AuthRequest) (memory : AuthMemory) :
    (authDiscipline environment request).possible memory statement
      (executeAuth environment refused statement state).1 := by
  cases statement with
  | verifyAccessToken token =>
    unfold executeAuth
    split
    · trivial
    · simp only [answerAuth]
      cases subject : environment.subjectOf token with
      | none => trivial
      | some sub => exact subject
  | _ => trivial

end

theorem cacheKey_injective (environment : AuthEnvironment) {token other header otherHeader : Text}
    (same : cacheKey (environment.hashToken token) header =
      cacheKey (environment.hashToken other) otherHeader) :
    token = other ∧ header = otherHeader := by
  have plain : ∀ digest rest : Text, ':' ∉ digest →
      (digest ++ ':' :: rest).takeWhile (· ≠ ':') = digest := by
    intro digest rest absent
    rw [List.takeWhile_append_of_pos]
    · simp
    · intro letter member
      apply decide_eq_true
      intro colon
      exact absent (colon ▸ member)
  have first := congrArg (List.takeWhile (· ≠ ':')) same
  simp only [cacheKey] at first same
  rw [plain _ _ (environment.hexadecimal token),
    plain _ _ (environment.hexadecimal other)] at first
  rw [first] at same
  have rest := List.append_cancel_left same
  exact ⟨environment.distinct first, (List.cons.inj rest).2⟩

/-- A request with the token has started, and asks for the workspace. -/
def resolvedFor (environment : AuthEnvironment) (initial : IdentityRows)
    (history : List AuthEntry) (token requestedHeader : Text) (principal : Principal) : Prop :=
  environment.subjectOf token = some principal.sub ∧
    ResolvedAfter initial history history requestedHeader principal.sub principal

structure AuthInvariant (environment : AuthEnvironment)
    (initial : IdentityRows) (system : AuthSystem) : Prop where
  follow : AllFollow (authDiscipline environment) noAnswers AuthEnds system
  replayed : system.shared.rows = replay initial system.history
  started : ∀ position token requestedHeader start, system.requestAt position =
        some (.authenticate token requestedHeader start) →
      start ≤ system.history.length
  cached : ∀ entry ∈ system.shared.cache, ∃ token requestedHeader,
    entry.key = cacheKey (environment.hashToken token) requestedHeader ∧
      resolvedFor environment initial system.history token requestedHeader entry.principal
  served : ∀ index entry, system.history[index]? = some entry →
    ∀ principal, yields entry principal → ∀ token requestedHeader start,
        system.requestAt entry.caller = some (.authenticate (some token) requestedHeader start) →
          start ≤ index ∧ resolvedFor environment initial (system.history.take index) token
              requestedHeader principal

variable {initial : IdentityRows}

theorem resolvedAfter_mono {older rest returned fewer : List AuthEntry}
    {requestedHeader sub : Text}
    (resolved : ResolvedAfter initial older returned requestedHeader sub principal)
    (subset : ∀ entry ∈ fewer, invalidates sub entry → entry ∈ returned) :
    ResolvedAfter initial (older ++ rest) fewer requestedHeader sub
      principal := by
  obtain ⟨moment, within, resolves, before⟩ := resolved
  have same : (older ++ rest).take moment = older.take moment :=
    List.take_append_of_le_length within
  refine ⟨moment, ?_, ?_, ?_⟩
  · rw [List.length_append]
    omega
  · rw [same]
    exact resolves
  · intro entry member invalidated
    rw [same]
    exact before entry (subset entry member invalidated) invalidated

variable {environment : AuthEnvironment} {system : AuthSystem}

theorem coherent_of_invariant (invariant : AuthInvariant environment initial system) :
    Coherent environment initial system := by
  intro position token requestedHeader started principal found
  have ended := invariant.follow.ended found principal rfl
  obtain ⟨entry, member, same, yielding⟩ :=
    exists_entry_of_remembered environment _ position system.history principal ended
  obtain ⟨index, located⟩ := List.getElem?_of_mem member
  have asked : system.requestAt entry.caller =
      some (.authenticate (some token) requestedHeader started) := by
    rw [same]
    exact requestAt_of_found found
  obtain ⟨later, subject, resolved⟩ :=
    invariant.served index entry located principal yielding token requestedHeader started asked
  refine ⟨principal.sub, subject, rfl, ?_⟩
  have whole : ResolvedAfter initial (system.history.take index ++ system.history.drop index)
      (system.history.take started) requestedHeader principal.sub
      principal := by
    apply resolvedAfter_mono resolved
    intro returned early invalidated
    exact List.take_subset_take_left system.history later early
  rw [List.take_append_drop] at whole
  exact whole

theorem replay_append (initial : IdentityRows) (history : List AuthEntry) (entry : AuthEntry) :
    replay initial (history ++ [entry]) = replayEntry (replay initial history) entry := by
  simp only [replay, List.foldl_append, List.foldl_cons, List.foldl_nil]

theorem resolvedFor_append {history : List AuthEntry}
    {token requestedHeader : Text} {entry : AuthEntry}
    (resolved : resolvedFor environment initial history token requestedHeader principal)
    (other : entry.statement ≠ .invalidatePrincipal principal.sub) :
    resolvedFor environment initial (history ++ [entry]) token requestedHeader
      principal := by
  refine ⟨resolved.1, resolvedAfter_mono resolved.2 ?_⟩
  intro earlier member invalidated
  rcases List.mem_append.mp member with old | new
  · exact old
  · cases List.mem_singleton.mp new
    exact absurd (of_decide_eq_true invalidated) other

section

variable {environment : AuthEnvironment} {initial : IdentityRows}
  {system : AuthSystem} {position : Nat} {refused : Bool}
  {request : AuthRequest} {statement : AuthStatement}
  {resume : Except AuthFailure statement.Answer → AuthCall AuthReply}

theorem token_of_admitted (invariant : AuthInvariant environment initial system)
    (found : system.Awaits position request statement resume)
    (touches : ¬ admitsMutation statement) :
    ∃ token requestedHeader start, request = .authenticate (some token) requestedHeader start ∧
        admitsAuthenticate environment token requestedHeader
          (memoryOf (authDiscipline environment request) noAnswers
            system.history position) statement := by
  have admitted := invariant.follow.admitted found
  cases request with
  | authenticate token requestedHeader start =>
    cases token with
    | none => exact absurd admitted touches
    | some token => exact ⟨token, requestedHeader, start, rfl, admitted⟩
  | mutate change => exact absurd admitted touches
  | elapse milliseconds => exact absurd admitted touches

variable {principal : Principal}

theorem resolvedFor_of_insert {key : Text} {resume : Except AuthFailure Unit → AuthCall AuthReply}
    (invariant : AuthInvariant environment initial system)
    (found : system.calls[position]? =
      some ⟨request, .await (.setCachedPrincipal key principal) resume⟩)
    (condition : ReadAtOneMoment initial system.history position principal.sub) :
    ∃ token requestedHeader start, request = .authenticate (some token) requestedHeader start ∧
        key = cacheKey (environment.hashToken token) requestedHeader ∧
        resolvedFor environment initial system.history token requestedHeader
          principal := by
  obtain ⟨token, requestedHeader, start, same, keyed, subject, reads⟩ :=
    token_of_admitted invariant found (fun impossible => impossible)
  refine ⟨token, requestedHeader, start, same, keyed, subject, ?_⟩
  obtain ⟨moment, within, agrees, invalidated⟩ := condition
  have bound := List.mem_range.mp within
  refine ⟨moment, by omega, ?_, invalidated⟩
  exact reads _ ((agrees_iff_entries environment request position system.history _).mpr agrees)

theorem resolvedFor_of_hit {key : Text}
    {resume : Except AuthFailure (Option Principal) → AuthCall AuthReply}
    (invariant : AuthInvariant environment initial system)
    (found : system.calls[position]? = some ⟨request, .await (.getCachedPrincipal key) resume⟩)
    (hit : (getCachedPrincipal system.shared.cache system.shared.rows.clock
      key).1 = some principal) :
    ∃ token requestedHeader start, request = .authenticate (some token) requestedHeader start ∧
        resolvedFor environment initial system.history token requestedHeader
          principal := by
  obtain ⟨token, requestedHeader, start, same, keyed⟩ :=
    token_of_admitted invariant found (fun impossible => impossible)
  obtain ⟨entry, member, named, held⟩ := mem_cache_of_hit hit
  obtain ⟨other, otherHeader, otherKeyed, resolved⟩ :=
    invariant.cached entry member
  have sameKey := otherKeyed.symm.trans (named.trans keyed)
  obtain ⟨rfl, rfl⟩ := cacheKey_injective environment sameKey
  rw [held] at resolved
  exact ⟨other, otherHeader, start, same, resolved⟩

variable (invariant : AuthInvariant environment initial system)
  (found : system.Awaits position request statement resume)
  (condition : InsertCondition initial system (.advance position refused))

include invariant found condition

theorem resolvedFor_of_yields (yielding : yields ⟨position, statement,
      (executeAuth environment refused statement system.shared).1⟩ principal) :
    ∃ token requestedHeader start, request = .authenticate (some token) requestedHeader start ∧
        resolvedFor environment initial system.history token requestedHeader principal := by
  cases statement with
  | getCachedPrincipal key =>
    rw [executeAuth_of_isLocal rfl] at yielding
    exact resolvedFor_of_hit invariant found yielding
  | setCachedPrincipal key inserted =>
    rw [executeAuth_of_isLocal rfl] at yielding
    have same : inserted = principal := yielding
    subst same
    have asked : system.awaiting position = some (.setCachedPrincipal key inserted) :=
      awaiting_eq_some_iff.mpr ⟨request, resume, found⟩
    rw [InsertCondition, asked] at condition
    obtain ⟨token, requestedHeader, start, same, keyed, resolved⟩ :=
      resolvedFor_of_insert invariant found condition
    exact ⟨token, requestedHeader, start, same, resolved⟩
  | _ => cases yielding

theorem invariant_answered :
    AuthInvariant environment initial (system.answered position request statement resume
        (executeAuth environment refused statement system.shared)) := by
  have agrees : ∀ other, (system.answered position request statement resume
        (executeAuth environment refused statement
          system.shared)).requestAt other = system.requestAt other :=
    requestAt_answered found
  have own := requestAt_of_found found
  refine ⟨?_, ?_, ?_, ?_, ?_⟩
  · exact follows_answered invariant.follow found (possible_of_executeAuth request _)
  · show (executeAuth environment refused statement system.shared).2.rows = _
    rw [rows_of_executeAuth position, invariant.replayed]
    exact (replay_append initial system.history _).symm
  · intro other token requestedHeader start asked
    rw [agrees] at asked
    have early := invariant.started other token requestedHeader start asked
    simp only [Concurrent.answered, List.length_append]
    omega
  · intro entry member
    rcases mem_cache_of_executeAuth member with ⟨old, kept⟩ | inserted
    · obtain ⟨token, requestedHeader, keyed, resolved⟩ :=
        invariant.cached entry old
      exact ⟨token, requestedHeader, keyed, resolvedFor_append resolved kept⟩
    · subst inserted
      have asked : system.awaiting position =
          some (.setCachedPrincipal entry.key entry.principal) :=
        awaiting_eq_some_iff.mpr ⟨request, resume, found⟩
      rw [InsertCondition, asked] at condition
      obtain ⟨token, requestedHeader, start, same, keyed, resolved⟩ :=
        resolvedFor_of_insert invariant found condition
      exact ⟨token, requestedHeader, keyed, resolvedFor_append resolved (by simp)⟩
  · intro index entry located principal yielding token requestedHeader start asked
    rw [agrees] at asked
    simp only [Concurrent.answered] at located ⊢
    by_cases old : index < system.history.length
    · rw [List.getElem?_append_left old] at located
      rw [List.take_append_of_le_length (Nat.le_of_lt old)]
      exact invariant.served index entry located principal yielding token
        requestedHeader start asked
    · have last : index = system.history.length := by
        have inside := (List.getElem?_eq_some_iff.mp located).1
        rw [List.length_append, List.length_singleton] at inside
        omega
      subst last
      rw [List.getElem?_concat_length] at located
      cases located
      rw [own] at asked
      obtain ⟨otherToken, otherHeader, otherStart, same, resolved⟩ :=
        resolvedFor_of_yields invariant found condition yielding
      rw [same] at asked
      cases asked
      rw [List.take_append_of_le_length (Nat.le_refl _), List.take_length]
      refine ⟨?_, resolved⟩
      exact invariant.started position token requestedHeader start (by rw [own, same])

end

theorem invariant_startAuth (invariant : AuthInvariant environment initial system)
    (started : ∀ token requestedHeader start,
      request = .authenticate token requestedHeader start → start ≤ system.history.length) :
    AuthInvariant environment initial (startAuth environment system request) := by
  refine ⟨?_, invariant.replayed, ?_, invariant.cached, ?_⟩
  · exact follows_start invariant.follow (follows_serveAuth environment request)
  · intro position token requestedHeader start asked
    rw [startAuth, requestAt_start_eq_some_iff] at asked
    rcases asked with earlier | new
    · exact invariant.started position token requestedHeader start earlier
    · exact started token requestedHeader start new.2.symm
  · intro index entry located principal yielding token requestedHeader start asked
    have member : entry ∈ system.history := List.mem_of_getElem? located
    rw [startAuth, requestAt_start (invariant.follow.below entry member)] at asked
    exact invariant.served index entry located principal yielding token requestedHeader start asked

theorem invariant_authStep (system : AuthSystem) (act : AuthAct)
    (next : AuthSystem) (invariant : AuthInvariant environment initial system)
    (condition : InsertCondition initial system act)
    (stepped : authStep environment system act = some next) :
    AuthInvariant environment initial next := by
  cases act with
  | authenticate token requestedHeader =>
    cases stepped
    apply invariant_startAuth invariant
    intro other otherHeader start same
    cases same
    exact Nat.le_refl _
  | mutate change =>
    cases stepped
    apply invariant_startAuth invariant
    intro other otherHeader start impossible
    cases impossible
  | elapse milliseconds =>
    cases stepped
    apply invariant_startAuth invariant
    intro other otherHeader start impossible
    cases impossible
  | advance position refused =>
    obtain ⟨request, statement, resume, found, rfl⟩ :=
      advance_eq_some_iff.mp stepped
    exact invariant_answered invariant found condition

theorem invariant_freshProcess (environment : AuthEnvironment) (initial : IdentityRows) :
    AuthInvariant environment initial (freshProcess initial) := by
  refine ⟨follows_idle, rfl, ?_, ?_, ?_⟩
  · intro position token requestedHeader start asked
    cases asked
  · intro entry member
    cases member
  · intro index entry located
    cases located

/-- The cache is coherent in every run that meets the condition. -/
theorem auth_cache_coherent {environment : AuthEnvironment}
    {initial : IdentityRows} {acts : List AuthAct} {system : AuthSystem}
    (meets : StepsMeet (authStep environment) (InsertCondition initial)
      (freshProcess initial) acts)
    (executed : runFrom (authStep environment) (freshProcess initial) acts = some system) :
    Coherent environment initial system := by
  apply coherent_of_invariant
  exact invariant_of_stepsMeet (AuthInvariant environment initial)
    invariant_authStep (invariant_freshProcess environment initial) meets
    executed

/-- A digest without collisions, two letters for each letter. -/
def digestLetter (letter : Char) : Text :=
  if letter = ':' then ['c', '.'] else ['n', letter]

def digest (token : Text) : Text :=
  token.flatMap digestLetter

theorem digestLetter_injective {first second : Char} {rest other : Text}
    (same : digestLetter first ++ rest = digestLetter second ++ other) :
    first = second ∧ rest = other := by
  unfold digestLetter at same
  split at same <;> split at same <;> simp_all

theorem digest_cons_ne_nil (letter : Char) (rest : Text) : digest (letter :: rest) ≠ [] := by
  intro empty
  have parts := List.append_eq_nil_iff.mp empty
  have first : digestLetter letter = [] := parts.1
  unfold digestLetter at first
  split at first <;> cases first

theorem digest_injective : Function.Injective digest := by
  intro first
  induction first with
  | nil =>
    intro second same
    cases second with
    | nil => rfl
    | cons letter rest => exact absurd same.symm (digest_cons_ne_nil letter rest)
  | cons letter rest ih =>
    intro second same
    cases second with
    | nil => exact absurd same (digest_cons_ne_nil letter rest)
    | cons other others =>
      obtain ⟨rfl, tails⟩ := digestLetter_injective same
      rw [ih tails]

theorem colon_not_mem_digest (token : Text) : ':' ∉ digest token := by
  intro member
  obtain ⟨letter, _, inside⟩ := List.mem_flatMap.mp member
  unfold digestLetter at inside
  split at inside
  · simp at inside
  · rename_i other
    simp at inside
    exact other inside.symm

def plainTokens : AuthEnvironment where
  hashToken := digest
  distinct := digest_injective
  hexadecimal := colon_not_mem_digest
  subjectOf := some
  ttlMs := 60000
  backend := .sql

def annIsAdmin : IdentityRows where
  sessions := []
  users := []
  memberships := [⟨"w".toList, "ann".toList, some "admin".toList⟩]
  groupMembers := []
  clock := 0

def annAuthenticates : AuthAct :=
  .authenticate (some "ann".toList) "w".toList

def annIsDemoted : AuthAct :=
  .mutate (.putMembership ⟨"w".toList, "ann".toList, some "member".toList⟩)

def demotedBetween : List AuthAct :=
  [annAuthenticates] ++ List.replicate 5 (.advance 0 false) ++
    [annIsDemoted, .advance 1 false, .advance 1 false, annAuthenticates] ++
    List.replicate 5 (.advance 2 false)

def givenAt (system : AuthSystem) (position : Nat) : Option (AuthRequest × Principal) :=
  match system.calls[position]? with
  | some ⟨request, .done (.ok (some principal))⟩ => some (request, principal)
  | _ => none

theorem call_of_givenAt {position : Nat}
    (given_ : givenAt system position = some (request, principal)) :
    system.calls[position]? = some ⟨request, .done (.ok (some principal))⟩ := by
  unfold givenAt at given_
  split at given_
  · rename_i found
    cases given_
    exact found
  · cases given_

def annAs (role : Text) : Principal :=
  ⟨"ann".toList, "w".toList, role, []⟩

theorem auth_cache_coherent_demotedBetween :
    ∃ system, runFrom (authStep plainTokens) (freshProcess annIsAdmin)
          demotedBetween = some system ∧
        (givenAt system 2).map (·.2) = some (annAs "member".toList) ∧
        Coherent plainTokens annIsAdmin system := by
  have ran :
      (runFrom (authStep plainTokens) (freshProcess annIsAdmin)
        demotedBetween).map (fun system => (givenAt system 2).map (·.2)) =
        some (some (annAs "member".toList)) := by
    decide +kernel
  obtain ⟨system, executed, roles⟩ := Option.map_eq_some_iff.mp ran
  have meets : StepsMeet (authStep plainTokens) (InsertCondition annIsAdmin)
      (freshProcess annIsAdmin) demotedBetween := by
    decide +kernel
  exact ⟨system, executed, roles, auth_cache_coherent meets executed⟩

/-- Ann is demoted after the first request read the store and before it
inserts the principal. -/
def demotedMeanwhile : List AuthAct :=
  [annAuthenticates] ++ List.replicate 4 (.advance 0 false) ++
    [annIsDemoted, .advance 1 false, .advance 1 false, .advance 0 false,
      annAuthenticates, .advance 2 false]

theorem auth_cache_not_coherent :
    ¬ ∀ (environment : AuthEnvironment) (initial : IdentityRows)
        (acts : List AuthAct) (system : AuthSystem),
      runFrom (authStep environment) (freshProcess initial) acts = some system →
        Coherent environment initial system := by
  intro law
  have ran :
      (runFrom (authStep plainTokens) (freshProcess annIsAdmin)
        demotedMeanwhile).map (fun system =>
          (givenAt system 2,
            decide (ResolvedAfter annIsAdmin system.history
              (system.history.take 7) "w".toList "ann".toList
              (annAs "admin".toList)))) =
        some (some (.authenticate (some "ann".toList) "w".toList 7,
          annAs "admin".toList), false) := by
    decide +kernel
  obtain ⟨system, executed, observed⟩ := Option.map_eq_some_iff.mp ran
  obtain ⟨served, unresolved⟩ := Prod.mk.inj observed
  have holds := law plainTokens annIsAdmin demotedMeanwhile system executed
  obtain ⟨sub, _, same, resolved⟩ :=
    holds 2 _ _ _ _ (call_of_givenAt served)
  rw [← same] at resolved
  exact of_decide_eq_false unresolved resolved

end Aprovan.Auth
