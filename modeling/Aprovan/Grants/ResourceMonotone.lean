import Aprovan.Grants.AppCeilingLaw

/-!
# More resource grants

The first row of a capability makes every call of it match a row, and a request
that names a credential level is refused once a user-oauth row matches.  Apart
from these two gates, adding rows keeps what was allowed.
-/

namespace Aprovan.Grants

open Aprovan.Library

section

variable (matchesResourcePattern : Text → Text → Bool)

def Workspace.withGrants (workspace : Workspace) (rows : List ResourceGrantRow) : Workspace :=
  { workspace with resourceGrants := rows }

/-- The row is one for the request: it belongs to one of its subjects and
covers the call. -/
def ResourceGrantRow.appliesTo (row : ResourceGrantRow) (req : DispatchRequest) : Bool :=
  row.subject ∈ resourceGrantSubjectsFor req &&
    matchesCapabilityPattern [row.capability] req.tool.toolNamespace req.tool.operation

def ResourceGrantRow.matchesRequest (row : ResourceGrantRow) (req : DispatchRequest) : Bool :=
  row.appliesTo req && resourceMatchesGrant matchesResourcePattern row req.resource

/-- Some row is one for the request, and none matches it. -/
def ResourceMissed (rows : List ResourceGrantRow) (req : DispatchRequest) : Prop :=
  (∃ row ∈ rows, row.appliesTo req = true) ∧
    ∀ row ∈ rows, row.matchesRequest matchesResourcePattern req = false

def LevelUnproved (rows : List ResourceGrantRow) (req : DispatchRequest) : Prop :=
  ∃ credential, req.credential = some credential ∧
    (∃ row ∈ rows, row.matchesRequest matchesResourcePattern req = true ∧
      row.credentialLevel = .userOauth) ∧
    ∀ row ∈ rows, row.matchesRequest matchesResourcePattern req = true →
      row.credentialLevel ≠ credential.level

def FirstRows (fewer more : List ResourceGrantRow) (req : DispatchRequest) : Prop :=
  (∀ row ∈ fewer, row.appliesTo req = false) ∧ ∃ row ∈ more, row.appliesTo req = true

theorem mem_grantsForCapability_iff (workspace : Workspace) {rows : List ResourceGrantRow}
    {req : DispatchRequest} {row : ResourceGrantRow} :
    row ∈ grantsForCapability (storedResourceGrants (workspace.withGrants rows) req)
        req.tool.toolNamespace req.tool.operation ↔
      row ∈ rows ∧ row.appliesTo req = true := by
  simp only [grantsForCapability, storedResourceGrants,
    Workspace.withGrants, ResourceGrantRow.appliesTo, List.mem_filter,
    decide_eq_true_eq, Bool.and_eq_true, and_assoc]

theorem mem_matchedGrants_iff (workspace : Workspace) {rows : List ResourceGrantRow}
    {req : DispatchRequest} {row : ResourceGrantRow} :
    row ∈ (grantsForCapability (storedResourceGrants (workspace.withGrants rows) req)
        req.tool.toolNamespace req.tool.operation).filter
          (fun grant => resourceMatchesGrant matchesResourcePattern grant req.resource) ↔
      row ∈ rows ∧ row.matchesRequest matchesResourcePattern req = true := by
  rw [List.mem_filter, mem_grantsForCapability_iff]
  simp only [ResourceGrantRow.matchesRequest, Bool.and_eq_true, and_assoc]

theorem storedVerdict_eq_allow_iff (workspace : Workspace) (rows : List ResourceGrantRow)
    (req : DispatchRequest) :
    storedVerdict matchesResourcePattern (workspace.withGrants rows) req = .allow ↔
      ¬ ResourceMissed matchesResourcePattern rows req ∧
        ¬ LevelUnproved matchesResourcePattern rows req := by
  unfold storedVerdict decideResource
  by_cases unconstrained :
    grantsForCapability (storedResourceGrants (workspace.withGrants rows) req)
      req.tool.toolNamespace req.tool.operation = []
  · rw [if_pos unconstrained]
    have noRow : ∀ row ∈ rows, row.appliesTo req = false := by
      intro row member
      by_contra applies
      have listed := (mem_grantsForCapability_iff workspace).mpr
        ⟨member, Bool.eq_true_of_not_eq_false applies⟩
      rw [unconstrained] at listed
      cases listed
    have noMatch : ∀ row ∈ rows, row.matchesRequest matchesResourcePattern req = false := by
      intro row member
      simp [ResourceGrantRow.matchesRequest, noRow row member]
    simp only [true_iff]
    constructor
    · intro ⟨⟨row, member, applies⟩, _⟩
      rw [noRow row member] at applies
      cases applies
    · intro ⟨_, _, ⟨row, member, matched, _⟩, _⟩
      rw [noMatch row member] at matched
      cases matched
  rw [if_neg unconstrained]
  obtain ⟨first, listed⟩ := List.exists_mem_of_ne_nil _ unconstrained
  have constrained : ∃ row ∈ rows, row.appliesTo req = true :=
    ⟨first, (mem_grantsForCapability_iff workspace).mp listed⟩
  by_cases missed :
    (grantsForCapability (storedResourceGrants (workspace.withGrants rows) req)
      req.tool.toolNamespace req.tool.operation).filter
        (fun grant => resourceMatchesGrant matchesResourcePattern grant req.resource) =
      []
  · rw [if_pos missed]
    have noMatch : ∀ row ∈ rows, row.matchesRequest matchesResourcePattern req = false := by
      intro row member
      by_contra matched
      have kept := (mem_matchedGrants_iff matchesResourcePattern workspace).mpr
          ⟨member, Bool.eq_true_of_not_eq_false matched⟩
      rw [missed] at kept
      cases kept
    constructor
    · intro impossible
      cases impossible
    · intro ⟨hit, _⟩
      exact absurd ⟨constrained, noMatch⟩ hit
  rw [if_neg missed]
  obtain ⟨hit, kept⟩ := List.exists_mem_of_ne_nil _ missed
  have hitRow := (mem_matchedGrants_iff matchesResourcePattern workspace).mp kept
  have found : ¬ ResourceMissed matchesResourcePattern rows req := by
    intro ⟨_, noMatch⟩
    rw [noMatch hit hitRow.1] at hitRow
    cases hitRow.2
  simp only [found, not_false_eq_true, true_and]
  cases named : req.credential with
  | none => simp [LevelUnproved, named]
  | some credential =>
    have levels :
        ((((grantsForCapability (storedResourceGrants (workspace.withGrants rows) req)
          req.tool.toolNamespace req.tool.operation).filter
            fun grant => resourceMatchesGrant matchesResourcePattern grant req.resource).all
            fun grant => grant.credentialLevel ≠ credential.level) &&
          (((grantsForCapability
          (storedResourceGrants (workspace.withGrants rows) req)
          req.tool.toolNamespace req.tool.operation).filter
            fun grant => resourceMatchesGrant matchesResourcePattern grant req.resource).any
            fun grant => grant.credentialLevel = .userOauth)) = true ↔
          LevelUnproved matchesResourcePattern rows req := by
      simp only [Bool.and_eq_true, List.all_eq_true, List.any_eq_true,
        decide_eq_true_eq, mem_matchedGrants_iff, and_imp, and_assoc]
      constructor
      · intro ⟨others, oauth⟩
        exact ⟨credential, named, oauth, others⟩
      · intro ⟨other, same, oauth, others⟩
        rw [named] at same
        cases same
        exact ⟨others, oauth⟩
    by_cases unproved : LevelUnproved matchesResourcePattern rows req
    · simp only [if_pos (levels.mpr unproved), unproved]
      simp
    · simp only [if_neg (mt levels.mp unproved), unproved]
      simp

/-- An allowed action stays allowed under more rows exactly when these are
not the first rows for it, all of them missing its resource, and leave no
named level unproved; with unreadable grants it stays allowed. -/
theorem allow_withGrants_iff (workspace : Workspace) (failures : Failures)
    (freshId laterId : Text) (req : DispatchRequest) (runTools : Option (List Text))
    (fewer more : List ResourceGrantRow) (added : fewer ⊆ more)
    (action : req.tool.effect = .action)
    (allowed :
      evaluateDispatch matchesResourcePattern (workspace.withGrants fewer)
        failures freshId req (.projected runTools) = some .allow) :
    evaluateDispatch matchesResourcePattern (workspace.withGrants more)
        failures laterId req (.projected runTools) = some .allow ↔
      failures.resourceGrants = true ∨ ¬ (FirstRows fewer more req ∧
            ResourceMissed matchesResourcePattern more req) ∧
          ¬ LevelUnproved matchesResourcePattern more req := by
  rw [evaluateDispatch_eq_allow_iff] at allowed ⊢
  obtain ⟨others, app, resource⟩ := allowed
  have othersKept : otherLayersPass (workspace.withGrants more) failures req runTools = true :=
    others
  have appKept : appLayerPasses (workspace.withGrants more) failures req = true := app
  simp only [othersKept, appKept, true_and]
  cases unreadable : failures.resourceGrants with
  | true => simp [resourceRefuses, unreadable]
  | false =>
    have before :
        storedVerdict matchesResourcePattern (workspace.withGrants fewer) req = .allow := by
      simpa [resourceRefuses, action, unreadable] using resource
    have after :
        resourceRefuses matchesResourcePattern (workspace.withGrants more) failures req = false ↔
          storedVerdict matchesResourcePattern (workspace.withGrants more) req = .allow := by
      simp [resourceRefuses, action, unreadable]
    rw [after, storedVerdict_eq_allow_iff]
    rw [storedVerdict_eq_allow_iff] at before
    have firstRows :
        ResourceMissed matchesResourcePattern more req → FirstRows fewer more req := by
      intro missed
      refine ⟨?_, missed.1⟩
      intro row member
      by_contra applies
      have constrained := Bool.eq_true_of_not_eq_false applies
      -- a row of the fewer ones matched, and it is still there
      apply before.1
      refine ⟨⟨row, member, constrained⟩, ?_⟩
      intro other otherMember
      exact missed.2 other (added otherMember)
    simp only [Bool.false_eq_true, false_or]
    constructor
    · intro ⟨hit, proved⟩
      exact ⟨fun first => hit first.2, proved⟩
    · intro ⟨hit, proved⟩
      exact ⟨fun missed => hit ⟨firstRows missed, missed⟩, proved⟩

end

def mailBob : DispatchRequest where
  principal := { sub := "ann".toList, role := .member, groupIds := [] }
  via := none
  tool := {
    toolNamespace := "email".toList
    operation := "send".toList
    effect := .action }
  resource := some "bob".toList
  credential := none
  runContext := none

/-- The member may use the mail tools. -/
def mailWorkspace : Workspace where
  permissions := [⟨"ann".toList, "email".toList, "*".toList⟩]
  profileGrants := []
  profiles := []
  apps := []
  resourceGrants := []
  credentials := []

/-- A grant for mails to the named person. -/
def mailGrant (resource : Text) : ResourceGrantRow where
  subject := ⟨.user, "ann".toList⟩
  capability := "email.send".toList
  resourcePattern := some resource
  credentialLevel := .workspaceToken

/-- With no row the mail to bob is allowed; a row for mails to carol queues
it. -/
theorem allow_withGrants_fails_first_row :
    ¬ ∀ (workspace : Workspace) (failures : Failures)
        (freshId laterId : Text) (req : DispatchRequest)
        (runTools : Option (List Text))
        (fewer more : List ResourceGrantRow),
        fewer ⊆ more → req.tool.effect = .action →
          evaluateDispatch matchesLiteral (workspace.withGrants fewer)
            failures freshId req (.projected runTools) = some .allow →
          evaluateDispatch matchesLiteral (workspace.withGrants more)
            failures laterId req (.projected runTools) = some .allow := by
  intro law
  have allowed := law mailWorkspace Failures.none "a".toList "b".toList
    mailBob none [] [mailGrant "carol".toList] (List.nil_subset _) rfl
    (by decide +kernel)
  have queues :
      evaluateDispatch matchesLiteral
        (mailWorkspace.withGrants [mailGrant "carol".toList]) Failures.none
        "b".toList mailBob (.projected none) = some (.queue "b".toList) := by
    decide +kernel
  rw [queues] at allowed
  cases allowed

/-- With a row for bob, a row for carol changes nothing. -/
theorem allow_withGrants_bob :
    evaluateDispatch matchesLiteral (mailWorkspace.withGrants
          [mailGrant "carol".toList, mailGrant "bob".toList]) Failures.none
        "b".toList mailBob (.projected none) = some .allow ↔
      Failures.none.resourceGrants = true ∨ ¬ (FirstRows [mailGrant "bob".toList]
              [mailGrant "carol".toList, mailGrant "bob".toList] mailBob ∧
            ResourceMissed matchesLiteral
              [mailGrant "carol".toList, mailGrant "bob".toList] mailBob) ∧
          ¬ LevelUnproved matchesLiteral
            [mailGrant "carol".toList, mailGrant "bob".toList] mailBob :=
  allow_withGrants_iff matchesLiteral mailWorkspace Failures.none
    "a".toList "b".toList mailBob none [mailGrant "bob".toList]
    [mailGrant "carol".toList, mailGrant "bob".toList]
    (List.subset_cons_self _ _) rfl (by decide +kernel)

end Aprovan.Grants
