import Aprovan.Workflows.Cascades

/-!
# The tools an app may list

A manifest lists entries `namespace.procedure` or `namespace.*`.  Native
namespaces and the app's workflows may be listed whole, contracts and providers
one procedure at a time, platform services not at all.
-/

namespace Aprovan.Apps

open Aprovan.Library Aprovan.Server Aprovan.Grants
open Aprovan.Workflows (platformPluginNames)

/-- `NATIVE_APP_NAMESPACES`. -/
def nativeAppNamespaces : List Text :=
  ["vfs", "keyvalue", "events", "notifications", "telemetry", "agents"].map String.toList

def isNativeNamespace (toolNamespace : Text) : Bool :=
  toolNamespace ∈ nativeAppNamespaces

def isWorkflowNamespace (toolNamespace : Text) : Bool :=
  toolNamespace = "app".toList || toolNamespace = "workflow".toList

def isCoreServiceName (name : Text) : Bool :=
  name ∈ platformPluginNames

/-- `weekly-summary` to `weeklySummary`. -/
def camelCase : Text → Text
  | '-' :: letter :: rest =>
    if letter.isLower || letter.isDigit then letter.toUpper :: camelCase rest
    else '-' :: camelCase (letter :: rest)
  | letter :: rest => letter :: camelCase rest
  | [] => []

def resolveExportedWorkflow (workflows : List Text) (requested : Text) : Option Text :=
  workflows.find? fun name => name = requested || camelCase name = requested

/-- `[\w-]`. -/
def isNamespaceLetter (letter : Char) : Bool :=
  letter.isAlphanum || letter = '_' || letter = '-'

/-- `ENTRY_RE`, `/^([\w-]+)\.(\*|[\w.-]+)$/u`. -/
def entryParts (entry : Text) : Option (Text × Text) :=
  let toolNamespace := entry.takeWhile isNamespaceLetter
  match entry.dropWhile isNamespaceLetter with
  | '.' :: procedure =>
    if toolNamespace ≠ [] ∧ procedure ≠ [] ∧ (procedure = ['*'] ∨
        procedure.all (fun letter => isNamespaceLetter letter || letter = '.') = true) then
      some (toolNamespace, procedure)
    else none
  | _ => none

/-- What the entries are checked against: the workflows that the app exports
and the contracts that it requires. -/
structure ToolsContext where
  app : Text
  (workflows requires : List Text)

structure ProviderGrant where
  (provider procedure : Text)
  deriving DecidableEq

def entryError (entry : Text) (rest : Text) : ServiceError where
  message := "allowed_tools entry \"".toList ++ entry ++ "\" ".toList ++ rest
  status := 400

def malformedEntry (entry : Text) : ServiceError :=
  entryError entry "must be 'namespace.procedure' or 'namespace.*'".toList

def workflowNotExported (context : ToolsContext) (entry procedure : Text) : ServiceError :=
  entryError entry ("names a workflow ".toList ++ context.app ++
    " does not export. Add \"".toList ++ procedure ++
    "\" to this app's \x60workflows\x60 list first (exported: ".toList ++
    (if context.workflows = [] then "none".toList
      else ", ".toList.intercalate context.workflows) ++ ").".toList)

def broaderThanEntry (toolNamespace : Text) : Text :=
  "Anything broader belongs in an exported workflow — register one that calls ".toList ++
    toolNamespace ++ ", list it in \x60workflows\x60, and the app calls it as ".toList ++
    "\"app.<workflow>\".".toList

def contractWildcard (entry toolNamespace : Text) : ServiceError :=
  entryError entry ("grants a whole interface namespace, which is never allowed: ".toList ++
    "a contract entry must name one exact procedure (e.g. \"".toList ++ toolNamespace ++
    ".query\"). ".toList ++ broaderThanEntry toolNamespace)

def coreNotReachable (entry toolNamespace : Text) : ServiceError :=
  entryError entry ("is not reachable from an app session: \"".toList ++ toolNamespace ++
    "\" is a core service namespace, not a provider. ".toList ++
    "Only the auto-partitioned natives (".toList ++
    ", ".toList.intercalate nativeAppNamespaces ++
    "), this app's workflow namespace (\"app.*\"), exact provider procedures, and ".toList ++
    "exact procedures on declared requires contracts are allowed.".toList)

def providerWildcard (entry toolNamespace : Text) : ServiceError :=
  entryError entry ("grants a whole provider namespace, which is never allowed: ".toList ++
    "a provider entry is a credential grant and must name one exact procedure (e.g. \"".toList ++
    toolNamespace ++ ".repos.get\"). ".toList ++ broaderThanEntry toolNamespace)

variable (context : ToolsContext)

/-- One round of the loop: the grant that the entry adds, if it adds one. -/
def validateEntry (entry : Text) : Outcome (Option ProviderGrant) :=
  match entryParts entry with
  | none => .error (malformedEntry entry)
  | some (toolNamespace, procedure) =>
    if isNativeNamespace toolNamespace then .ok none
    else if isWorkflowNamespace toolNamespace then
      if procedure = ['*'] ∨ (resolveExportedWorkflow context.workflows procedure).isSome then
        .ok none
      else .error (workflowNotExported context entry procedure)
    else if toolNamespace ∈ context.requires then
      if procedure = ['*'] then .error (contractWildcard entry toolNamespace) else .ok none
    else if isCoreServiceName toolNamespace then .error (coreNotReachable entry toolNamespace)
    else if procedure = ['*'] then .error (providerWildcard entry toolNamespace)
    else .ok (some ⟨toolNamespace, procedure⟩)

def validateAllowedToolsEntries : List Text → Outcome (List ProviderGrant)
  | [] => .ok []
  | entry :: rest => do
      let grant ← validateEntry context entry
      let grants ← validateAllowedToolsEntries rest
      pure (grant.toList ++ grants)

/-- The namespace of a call: what stands before the first dot. -/
def calledNamespace (call : Text) : Text :=
  call.takeWhile (· ≠ '.')

section

variable {context : ToolsContext} {entry toolNamespace procedure : Text}

theorem entryParts_eq_some (parts : entryParts entry = some (toolNamespace, procedure)) :
    entry = callName toolNamespace procedure ∧ '.' ∉ toolNamespace ∧
      (procedure = ['*'] ∨ '*' ∉ entry) := by
  unfold entryParts at parts
  dsimp only at parts
  split at parts
  · next rest isRest =>
      split at parts
      · next proper =>
          cases parts
          have whole : entry = callName (entry.takeWhile isNamespaceLetter) procedure := by
            rw [callName, ← isRest, List.takeWhile_append_dropWhile]
          refine ⟨whole, ?_, proper.2.2.imp_right fun plain star => ?_⟩
          · intro dot
            exact absurd (List.mem_takeWhile_imp dot) (by decide)
          · rw [whole] at star
            rcases List.mem_append.mp star with inNamespace | later
            · exact absurd (List.mem_takeWhile_imp inNamespace) (by decide)
            · rcases List.mem_cons.mp later with same | inProcedure
              · exact absurd same (by decide)
              · have letter := List.all_eq_true.mp plain _ inProcedure
                revert letter
                decide
      · cases parts
  · cases parts

/-- An accepted entry is of a native or workflow namespace, or it names one
procedure of a required contract or of what is no platform service. -/
theorem validateEntry_eq_ok {grant : Option ProviderGrant}
    (valid : validateEntry context entry = .ok grant) :
    ∃ toolNamespace procedure, entryParts entry = some (toolNamespace, procedure) ∧
      (isNativeNamespace toolNamespace = true ∨ isWorkflowNamespace toolNamespace = true ∨
        procedure ≠ ['*'] ∧ (toolNamespace ∈ context.requires ∨
          isCoreServiceName toolNamespace = false)) := by
  unfold validateEntry at valid
  split at valid
  · cases valid
  · next toolNamespace procedure parts =>
      refine ⟨toolNamespace, procedure, parts, ?_⟩
      by_cases native : isNativeNamespace toolNamespace = true
      · exact Or.inl native
      by_cases workflow : isWorkflowNamespace toolNamespace = true
      · exact Or.inr (Or.inl workflow)
      right; right
      rw [if_neg native, if_neg workflow] at valid
      split at valid
      · next required =>
          split at valid
          · cases valid
          · next single => exact ⟨single, Or.inl required⟩
      · split at valid
        · cases valid
        · next other =>
            split at valid
            · cases valid
            · next single => exact ⟨single, Or.inr (Bool.eq_false_iff.mpr other)⟩

theorem validateEntry_of_mem {entries : List Text} {grants : List ProviderGrant}
    (accepted : validateAllowedToolsEntries context entries = .ok grants)
    (member : entry ∈ entries) : ∃ grant, validateEntry context entry = .ok grant := by
  induction entries generalizing grants with
  | nil => cases member
  | cons first rest ih =>
    obtain ⟨grant, valid, returned⟩ := bind_eq_ok_iff.mp accepted
    obtain ⟨others, acceptedRest, _⟩ := bind_eq_ok_iff.mp returned
    rcases List.mem_cons.mp member with rfl | later
    · exact ⟨grant, valid⟩
    · exact ih acceptedRest later

theorem calledNamespace_append {base : Text} (plain : '.' ∉ base) (rest : Text) :
    calledNamespace (base ++ '.' :: rest) = base := by
  have all : ∀ letter ∈ base, decide (letter ≠ '.') = true := by
    intro letter member
    exact decide_eq_true fun same => plain (same ▸ member)
  rw [calledNamespace, List.takeWhile_append_of_pos all]
  simp

/-- What covers a call is the entry of this call or a wildcard of its namespace. -/
theorem covered_of_entryParts {call : Text} (dotted : '.' ∈ call)
    (parts : entryParts entry = some (toolNamespace, procedure))
    (covered : patternMatches entry call = true) :
    entry = call ∨ procedure = ['*'] ∧ calledNamespace call = toolNamespace := by
  obtain ⟨rfl, plain, star⟩ := entryParts_eq_some parts
  unfold patternMatches at covered
  by_cases everything : callName toolNamespace procedure = "*".toList
  · have dot : '.' ∈ callName toolNamespace procedure := List.mem_append_right _ List.mem_cons_self
    rw [everything] at dot
    exact absurd dot (by decide)
  rw [if_neg everything] at covered
  by_cases wild : procedure = ['*']
  · right
    subst wild
    have suffixed : ".*".toList.isSuffixOf (callName toolNamespace ['*']) = true :=
      List.isSuffixOf_iff_suffix.mpr ⟨toolNamespace, rfl⟩
    have base : (callName toolNamespace ['*']).dropLast.dropLast = toolNamespace := by
      simp [callName, List.dropLast_append_of_ne_nil]
    rw [if_pos suffixed, base] at covered
    rcases Bool.or_eq_true_iff.mp covered with same | start
    · exact absurd (of_decide_eq_true same ▸ dotted) plain
    · obtain ⟨rest, rfl⟩ := List.isPrefixOf_iff_prefix.mp start
      rw [List.append_assoc]
      exact ⟨rfl, calledNamespace_append plain rest⟩
  · left
    rw [if_neg] at covered
    · exact (of_decide_eq_true covered).symm
    · intro suffixed
      obtain ⟨start, same⟩ := List.isSuffixOf_iff_suffix.mp suffixed
      exact star.resolve_left wild (same ▸ List.mem_append_right _ (by decide))

variable {entries : List Text} {grants : List ProviderGrant}
  (accepted : validateAllowedToolsEntries context entries = .ok grants)

include accepted

theorem covered_iff_listed {operation : Text}
    (notNative : isNativeNamespace (calledNamespace (callName toolNamespace operation)) = false)
    (notWorkflow :
      isWorkflowNamespace (calledNamespace (callName toolNamespace operation)) = false) :
    matchesCapabilityPattern entries toolNamespace operation = true ↔
      callName toolNamespace operation ∈ entries := by
  have dotted : '.' ∈ callName toolNamespace operation :=
    List.mem_append_right _ List.mem_cons_self
  rw [matchesCapabilityPattern, List.any_eq_true]
  generalize callName toolNamespace operation = call at notNative notWorkflow dotted ⊢
  constructor
  · rintro ⟨entry, member, covered⟩
    obtain ⟨grant, valid⟩ := validateEntry_of_mem accepted member
    obtain ⟨named, procedure, parts, kind⟩ := validateEntry_eq_ok valid
    rcases covered_of_entryParts dotted parts covered with rfl | ⟨wild, rfl⟩
    · exact member
    · rw [notNative, notWorkflow] at kind
      rcases kind with impossible | impossible | ⟨proper, _⟩
      · cases impossible
      · cases impossible
      · exact absurd wild proper
  · intro listed
    exact ⟨_, listed, patternMatches_self _⟩

theorem core_not_covered {operation : Text} (core : isCoreServiceName toolNamespace = true)
    (notNative : isNativeNamespace toolNamespace = false)
    (notRequired : toolNamespace ∉ context.requires) :
    matchesCapabilityPattern entries toolNamespace operation = false := by
  have named : ∀ name ∈ platformPluginNames, '.' ∉ name ∧ isWorkflowNamespace name = false := by
    decide
  obtain ⟨plain, notWorkflow⟩ := named toolNamespace (of_decide_eq_true core)
  have called : calledNamespace (callName toolNamespace operation) = toolNamespace :=
    calledNamespace_append plain operation
  rw [Bool.eq_false_iff]
  intro covered
  have listed := (covered_iff_listed accepted (by rw [called, notNative])
    (by rw [called, notWorkflow])).mp covered
  obtain ⟨grant, valid⟩ := validateEntry_of_mem accepted listed
  obtain ⟨other, procedure, parts, kind⟩ := validateEntry_eq_ok valid
  obtain ⟨same, otherPlain, _⟩ := entryParts_eq_some parts
  have isOther : other = toolNamespace := by
    rw [← called, same]
    exact (calledNamespace_append otherPlain procedure).symm
  simp [isOther, notNative, notWorkflow, notRequired, core] at kind

/-- An operation of a provider or a contract is covered exactly when it is
listed, and no operation of a platform service is that is neither native nor a
required contract. -/
theorem ceiling_exact :
    (∀ toolNamespace operation,
      isNativeNamespace (calledNamespace (callName toolNamespace operation)) = false →
        isWorkflowNamespace (calledNamespace (callName toolNamespace operation)) = false →
          (matchesCapabilityPattern entries toolNamespace operation = true ↔
            callName toolNamespace operation ∈ entries)) ∧
      ∀ toolNamespace operation, isCoreServiceName toolNamespace = true →
        isNativeNamespace toolNamespace = false → toolNamespace ∉ context.requires →
          matchesCapabilityPattern entries toolNamespace operation = false :=
  ⟨fun _ _ => covered_iff_listed accepted, fun _ _ => core_not_covered accepted⟩

end

def ceilingContext : ToolsContext where
  app := "notes".toList
  workflows := []
  requires := ["vcs".toList]

def ceilingEntries : List Text :=
  ["vfs.*".toList, "github.repos.get".toList, "vcs.commit".toList]

theorem ceiling_exact_github :
    matchesCapabilityPattern ceilingEntries "github".toList "repos.list".toList = true ↔
      callName "github".toList "repos.list".toList ∈ ceilingEntries :=
  (@ceiling_exact ceilingContext ceilingEntries
    [⟨"github".toList, "repos.get".toList⟩] (by decide)).1 _ _ (by decide) (by decide)

def CoreNotCovered (service : Text) : Prop :=
  ∀ (context : ToolsContext) (entries : List Text) (grants : List ProviderGrant)
    (operation : Text), validateAllowedToolsEntries context entries = .ok grants →
      matchesCapabilityPattern entries service operation = false

/-- A native namespace may be listed whole, a required contract by procedures. -/
theorem core_covered : ¬ CoreNotCovered "vfs".toList ∧ ¬ CoreNotCovered "vcs".toList := by
  have accepted : validateAllowedToolsEntries ceilingContext ceilingEntries =
      .ok [⟨"github".toList, "repos.get".toList⟩] := by
    decide
  constructor
  · intro law
    exact absurd (law _ _ _ "write".toList accepted) (by decide)
  · intro law
    exact absurd (law _ _ _ "commit".toList accepted) (by decide)

end Aprovan.Apps
