import Aprovan.Server.ServiceKernel

/-!
# Capability and path grants

The vocabulary every dispatch path shares: capability patterns (exact,
`ns.*` or `*`), path grants decided by the longest covering prefix, and the
two assertions that a bounded context makes before it dispatches a tool or
touches a path.
-/

namespace Aprovan.Grants

open Aprovan.Library Aprovan.Server

/-- The access a path grant gives. -/
inductive GrantAccess where
  | ro
  | rw

inductive PathAccess where
  | none
  | ro
  | rw
  deriving DecidableEq

def GrantAccess.effective : GrantAccess → PathAccess
  | .ro => .ro
  | .rw => .rw

structure PathGrant where
  pathPrefix : Text
  access : GrantAccess

/-- The grants in force; an absent axis is unconstrained. -/
structure CapabilityGrants where
  tools : Option (List Text)
  paths : Option (List PathGrant)

/-- The name of a call, `namespace.procedure`. -/
def callName (toolNamespace procedure : Text) : Text :=
  toolNamespace ++ '.' :: procedure

/-- Does `pattern` cover the call? -/
def patternMatches (pattern call : Text) : Bool :=
  if pattern = "*".toList then true
  else if ".*".toList.isSuffixOf pattern then
    let base := pattern.dropLast.dropLast
    call = base || (base ++ ['.']).isPrefixOf call
  else call = pattern

theorem patternMatches_self (call : Text) : patternMatches call call = true := by
  unfold patternMatches
  by_cases everything : call = "*".toList
  · rw [if_pos everything]
  · rw [if_neg everything]
    by_cases wildcard : ".*".toList.isSuffixOf call = true
    · rw [if_pos wildcard]
      obtain ⟨base, same⟩ := List.isSuffixOf_iff_suffix.mp wildcard
      have dropped : call.dropLast.dropLast = base := by
        rw [← same]
        simp [List.dropLast_append_of_ne_nil]
      have below : (base ++ ['.']).isPrefixOf call = true := by
        rw [List.isPrefixOf_iff_prefix, ← same]
        exact ⟨['*'], by simp⟩
      simp only [dropped, below, Bool.or_true]
    · rw [if_neg wildcard]
      exact decide_eq_true rfl

def matchesCapabilityPattern (patterns : List Text) (toolNamespace procedure : Text) : Bool :=
  patterns.any fun pattern => patternMatches pattern (callName toolNamespace procedure)

theorem matchesCapabilityPattern_mono {patterns others : List Text}
    {toolNamespace procedure : Text} (included : ∀ pattern ∈ patterns, pattern ∈ others)
    (covered : matchesCapabilityPattern patterns toolNamespace procedure = true) :
    matchesCapabilityPattern others toolNamespace procedure = true := by
  rw [matchesCapabilityPattern, List.any_eq_true] at covered ⊢
  obtain ⟨pattern, member, hit⟩ := covered
  exact ⟨pattern, included pattern member, hit⟩

/-- `prefix.replace(/\/+$/u, "")`. -/
def stripTrailingSlashes (text : Text) : Text :=
  (text.reverse.dropWhile (· = '/')).reverse

def PathGrant.root (grant : PathGrant) : Text :=
  stripTrailingSlashes grant.pathPrefix

/-- A grant covers its prefix and everything under it; the empty prefix
covers everything. -/
def PathGrant.covers (grant : PathGrant) (path : Text) : Bool :=
  grant.root = [] || isUnder '/' path grant.root

/-- One step of the search for the longest covering grant; an equally long
one does not replace the best so far. -/
def better (path : Text) (best : Option PathGrant) (grant : PathGrant) : Option PathGrant :=
  if grant.covers path then
    match best with
    | none => some grant
    | some current =>
      if current.root.length < grant.root.length then some grant else some current
  else best

/-- The grant that decides a path: the first of the longest covering ones. -/
def decidingGrant (grants : List PathGrant) (path : Text) : Option PathGrant :=
  grants.foldl (better path) none

/-- Effective access for `path` under the grant list. -/
def pathAccess (grants : List PathGrant) (path : Text) : PathAccess :=
  match decidingGrant grants path with
  | none => .none
  | some grant => grant.access.effective

private theorem foldl_better_some (path : Text) (grants : List PathGrant) (start : PathGrant) :
    ∃ deciding, grants.foldl (better path) (some start) = some deciding ∧ (deciding = start ∨
        (deciding ∈ grants ∧ deciding.covers path = true)) ∧
      start.root.length ≤ deciding.root.length ∧
      ∀ grant ∈ grants, grant.covers path = true → grant.root.length ≤ deciding.root.length := by
  induction grants generalizing start with
  | nil => exact ⟨start, rfl, Or.inl rfl, Nat.le_refl _, by simp⟩
  | cons head tail ih =>
    rw [List.foldl_cons]
    by_cases covered : head.covers path = true
    · by_cases longer : start.root.length < head.root.length
      · obtain ⟨deciding, found, source, above, longest⟩ :=
          ih head
        refine ⟨deciding, ?_, ?_, by omega, ?_⟩
        · simpa only [better, if_pos covered, if_pos longer] using found
        · rcases source with rfl | ⟨member, covers⟩
          · exact Or.inr ⟨List.mem_cons_self, covered⟩
          · exact Or.inr ⟨List.mem_cons_of_mem head member, covers⟩
        · intro grant member covers
          rcases List.mem_cons.mp member with rfl | later
          · exact above
          · exact longest grant later covers
      · obtain ⟨deciding, found, source, above, longest⟩ :=
          ih start
        refine ⟨deciding, ?_, ?_, above, ?_⟩
        · simpa only [better, if_pos covered, if_neg longer] using found
        · exact source.imp_right fun inside => ⟨List.mem_cons_of_mem head inside.1, inside.2⟩
        · intro grant member covers
          rcases List.mem_cons.mp member with rfl | later
          · omega
          · exact longest grant later covers
    · obtain ⟨deciding, found, source, above, longest⟩ :=
        ih start
      refine ⟨deciding, ?_, ?_, above, ?_⟩
      · simpa only [better, if_neg covered] using found
      · exact source.imp_right fun inside => ⟨List.mem_cons_of_mem head inside.1, inside.2⟩
      · intro grant member covers
        rcases List.mem_cons.mp member with rfl | later
        · exact absurd covers covered
        · exact longest grant later covers

private theorem foldl_better_none (path : Text) (grants : List PathGrant) :
    (grants.foldl (better path) none = none ∧ ∀ grant ∈ grants, grant.covers path = false) ∨
    ∃ deciding, grants.foldl (better path) none = some deciding ∧
      deciding ∈ grants ∧ deciding.covers path = true ∧
      ∀ grant ∈ grants, grant.covers path = true → grant.root.length ≤ deciding.root.length := by
  induction grants with
  | nil => exact Or.inl ⟨rfl, by simp⟩
  | cons head tail ih =>
    rw [List.foldl_cons]
    by_cases covered : head.covers path = true
    · right
      obtain ⟨deciding, found, source, above, longest⟩ :=
        foldl_better_some path tail head
      have start : better path none head = some head := by rw [better, if_pos covered]
      refine ⟨deciding, by rw [start, found], ?_, ?_, ?_⟩
      · rcases source with rfl | ⟨member, _⟩
        · exact List.mem_cons_self
        · exact List.mem_cons_of_mem head member
      · rcases source with rfl | ⟨_, covers⟩
        · exact covered
        · exact covers
      · intro grant member covers
        rcases List.mem_cons.mp member with rfl | later
        · exact above
        · exact longest grant later covers
    · have start : better path none head = none := by
        rw [better, if_neg covered]
      rw [start]
      rcases ih with
        ⟨found, uncovered⟩ | ⟨deciding, found, member, covers, longest⟩
      · left
        refine ⟨found, ?_⟩
        intro grant member
        rcases List.mem_cons.mp member with rfl | later
        · simpa using covered
        · exact uncovered grant later
      · right
        refine ⟨deciding, found, List.mem_cons_of_mem head member, covers, ?_⟩
        intro grant inList coversGrant
        rcases List.mem_cons.mp inList with rfl | later
        · exact absurd coversGrant covered
        · exact longest grant later coversGrant

variable {path : Text}

theorem decidingGrant_eq_none_iff {grants : List PathGrant} :
    decidingGrant grants path = none ↔ ∀ grant ∈ grants, grant.covers path = false := by
  rcases foldl_better_none path grants with
    ⟨found, uncovered⟩ | ⟨deciding, found, member, covers, _⟩
  · exact ⟨fun _ => uncovered, fun _ => found⟩
  · constructor
    · intro absent
      rw [decidingGrant, found] at absent
      cases absent
    · intro uncovered
      rw [uncovered deciding member] at covers
      cases covers

theorem decidingGrant_spec {grants : List PathGrant} {deciding : PathGrant}
    (found : decidingGrant grants path = some deciding) :
    deciding ∈ grants ∧ deciding.covers path = true ∧
      ∀ grant ∈ grants, grant.covers path = true → grant.root.length ≤ deciding.root.length := by
  rcases foldl_better_none path grants with
    ⟨absent, _⟩ | ⟨same, foundAgain, member, covers, longest⟩
  · rw [decidingGrant, absent] at found
    cases found
  · rw [decidingGrant, foundAgain] at found
    cases found
    exact ⟨member, covers, longest⟩

theorem PathGrant.covers_of_isUnder {grant : PathGrant} {root : Text}
    (covers : grant.covers root = true) (under : isUnder '/' path root = true) :
    grant.covers path = true := by
  rw [PathGrant.covers, Bool.or_eq_true, decide_eq_true_eq] at covers ⊢
  exact covers.imp_right fun above => isUnder_trans under above

/-- Join with `", "`. -/
def joinComma : List Text → Text
  | [] => []
  | [entry] => entry
  | entry :: next :: others => entry ++ ", ".toList ++ joinComma (next :: others)

def toolDenied (tools : List Text) (toolNamespace procedure : Text) : ServiceError where
  message :=
    let granted := joinComma tools
    "Agent grant denies ".toList ++ callName toolNamespace procedure ++ " (granted: ".toList ++
      (if granted = [] then "nothing".toList else granted) ++
      ")".toList
  status := 403

/-- The refusal of a path, naming the path and the attempted access. -/
def pathDenied (path : Text) (write : Bool) : ServiceError where
  message :=
    "Agent grant denies ".toList ++
      (if write then "writing ".toList else "reading ".toList) ++ path
  status := 403

variable (grants : Option CapabilityGrants)

/-- Throw 403 unless the grants (when present) permit this tool call. -/
def assertToolGranted (toolNamespace procedure : Text) : Outcome Unit :=
  match grants.bind (·.tools) with
  | none => .ok ()
  | some tools =>
    if matchesCapabilityPattern tools toolNamespace procedure then .ok ()
    else .error (toolDenied tools toolNamespace procedure)

/-- Throw 403 unless the grants (when present) permit touching `path`. -/
def assertPathGranted (path : Text) (write : Bool) : Outcome Unit :=
  match grants.bind (·.paths) with
  | none => .ok ()
  | some paths =>
    let access := pathAccess paths path
    if access = .none || (write && access = .ro) then .error (pathDenied path write)
    else .ok ()

def toolAllowed (toolNamespace procedure : Text) : Bool :=
  match grants.bind (·.tools) with
  | none => true
  | some tools => matchesCapabilityPattern tools toolNamespace procedure

def pathAllowed (path : Text) (write : Bool) : Bool :=
  match grants.bind (·.paths) with
  | none => true
  | some paths =>
    match pathAccess paths path with
    | .none => false
    | .ro => !write
    | .rw => true

theorem assertToolGranted_eq_ok_iff
    {grants : Option CapabilityGrants} {toolNamespace procedure : Text} :
    assertToolGranted grants toolNamespace procedure = .ok () ↔
      toolAllowed grants toolNamespace procedure = true := by
  unfold assertToolGranted toolAllowed
  cases grants.bind (·.tools) with
  | none => simp
  | some tools =>
    by_cases covered : matchesCapabilityPattern tools toolNamespace procedure = true
    · simp [covered]
    · simp [covered]

theorem assertPathGranted_eq_ok_iff {grants : Option CapabilityGrants} {write : Bool} :
    assertPathGranted grants path write = .ok () ↔ pathAllowed grants path write = true := by
  unfold assertPathGranted pathAllowed
  cases grants.bind (·.paths) with
  | none => simp
  | some paths =>
    cases access : pathAccess paths path with
    | none => simp [access]
    | ro => cases write <;> simp [access]
    | rw => simp [access]

end Aprovan.Grants
