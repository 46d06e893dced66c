import Aprovan.Grants.Capability

/-!
# The reach of grants

What a context may do is a set of accesses: tool calls, and paths read or
written.  Grants narrow by the inclusion of their reaches; absent grants
reach everything.
-/

namespace Aprovan.Grants

open Aprovan.Library

/-- A tool dispatch, or the opening of a workspace path. -/
inductive Access where
  | tool (toolNamespace procedure : Text)
  | read (path : Text)
  | write (path : Text)
  deriving DecidableEq

def permits (grants : Option CapabilityGrants) : Access → Bool
  | .tool toolNamespace procedure => toolAllowed grants toolNamespace procedure
  | .read path => pathAllowed grants path false
  | .write path => pathAllowed grants path true

def reach (grants : Option CapabilityGrants) : Set Access :=
  { access | permits grants access = true }

/-- The part of a reach that lies in the file tree. -/
def pathReach (grants : Option CapabilityGrants) : Set Access :=
  { access | access ∈ reach grants ∧
      ∀ toolNamespace procedure, access ≠ .tool toolNamespace procedure }

variable {grants : Option CapabilityGrants}

theorem mem_reach {access : Access} : access ∈ reach grants ↔ permits grants access = true :=
  Iff.rfl

theorem pathReach_mono {first second : Option CapabilityGrants}
    (narrower : reach first ⊆ reach second) :
    pathReach first ⊆ pathReach second :=
  fun _ member => ⟨narrower member.1, member.2⟩

theorem read_mem_pathReach {path : Text} :
    .read path ∈ pathReach grants ↔ pathAllowed grants path false = true := by
  constructor
  · intro member
    exact member.1
  · intro allowed
    exact ⟨allowed, fun _ _ same => by cases same⟩

/-- A path list that reaches a directory reaches everything below it,
though perhaps with less access. -/
theorem pathAllowed_read_below {path root : Text}
    (allowed : pathAllowed grants root false = true) (below : isUnder '/' path root = true) :
    pathAllowed grants path false = true := by
  unfold pathAllowed at allowed ⊢
  cases bounded : grants.bind (·.paths) with
  | none => rfl
  | some paths =>
    rw [bounded] at allowed
    simp only [pathAccess] at allowed ⊢
    cases decided : decidingGrant paths root with
    | none => simp [decided] at allowed
    | some grant =>
      obtain ⟨member, covers, _⟩ := decidingGrant_spec decided
      have coversPath := PathGrant.covers_of_isUnder covers below
      cases found : decidingGrant paths path with
      | none =>
        have uncovered := decidingGrant_eq_none_iff.mp found grant member
        rw [coversPath] at uncovered
        cases uncovered
      | some other =>
        cases access : other.access <;>
          simp [access, GrantAccess.effective]

theorem read_mem_reach_below {path root : Text} (member : .read root ∈ reach grants)
    (below : isUnder '/' path root = true) :
    .read path ∈ reach grants :=
  pathAllowed_read_below member below

end Aprovan.Grants
