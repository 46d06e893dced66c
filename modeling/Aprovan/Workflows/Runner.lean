import Aprovan.Vfs.Context

/-!
# Starting workflow runs

A run executes a script in a context that is built for it.  The grants of
that context are those of the agent profile the run is attributed to: the
agent named for the run, else the one of the registration, else none.
-/

namespace Aprovan.Workflows

open Aprovan.Library Aprovan.Server Aprovan.Grants

/-- A profile mount: the sandbox mount vocabulary without the bookkeeping. -/
structure AgentMount where
  path : Text
  source : Option Text
  repo : Bool

structure AgentProfile where
  name : Text
  grants : Option CapabilityGrants
  mounts : List AgentMount

structure WorkflowRegistration where
  (name scriptPath : Text)
  script : Option Text
  events : List Text
  agent : Option Text
  createdBy : Text

/-- What a workspace holds for the runner. `exportedBy` names the apps that
export a workflow. -/
structure Workspace extends Vfs.Workspace where
  registrations : List WorkflowRegistration
  exportedBy : Text → List Text
  agents : List AgentProfile

/-- The context that a run's tool calls are made in. -/
structure RunContext extends Vfs.ServiceContext where
  workflowDepth : Option Nat

def maxEventDepth : Nat := 2

/-- `[a-z0-9]`. -/
def isLowerOrDigit (letter : Char) : Bool :=
  letter.isLower || letter.isDigit

/-- `NAME_RE`, the form of workflow and agent names. -/
def isRecordName : Text → Bool
  | [] => false
  | first :: rest =>
    isLowerOrDigit first && rest.length ≤ 63 &&
      rest.all fun letter => isLowerOrDigit letter || letter = '-'

def readAgentProfile (workspace : Workspace) (name : Text) : Option AgentProfile :=
  if isRecordName name then workspace.agents.find? (·.name = name) else none

def readRegistration (workspace : Workspace) (name : Text) : Option WorkflowRegistration :=
  workspace.registrations.find? (·.name = name)

def badWorkflowName : ServiceError where
  message :=
    "workflow name must match /^[a-z0-9][a-z0-9-]\x7b0,63\x7d$/u".toList
  status := 400

def unknownWorkflow (name : Text) : ServiceError where
  message := "Unknown workflow: ".toList ++ name
  status := 404

def unknownAgent (name : Text) : ServiceError where
  message := "Unknown agent: ".toList ++ name
  status := 404

def cascadeTooDeep (name : Text) : ServiceError where
  message := "Workflow cascade depth exceeded (2) running ".toList ++ name
  status := 429

def workflowName (name : Text) : Outcome Text :=
  if isRecordName name then .ok name else .error badWorkflowName

def workflowVisibleTo (registration : WorkflowRegistration)
    (callerSub : Text) (exportedBy : List Text) : Bool :=
  registration.createdBy = callerSub || exportedBy ≠ []

/-- An unexported workflow of someone else is answered like a missing
one. -/
def requireVisibleRegistration (workspace : Workspace) (name callerSub : Text) :
    Outcome WorkflowRegistration :=
  match readRegistration workspace name with
  | none => .error (unknownWorkflow name)
  | some registration =>
    if workflowVisibleTo registration callerSub (workspace.exportedBy name) then .ok registration
    else .error (unknownWorkflow name)

/-- The agent that a run is attributed to: a run-level agent wins over the
registration's, and the empty name is none. -/
def attributedAgent (agent : Option Text) (registration : WorkflowRegistration) : Option Text :=
  (agent <|> registration.agent).filter (· ≠ [])

def agentGrants (workspace : Workspace) (agentName : Option Text) :
    Outcome (Option CapabilityGrants) :=
  match agentName with
  | none => .ok none
  | some name =>
    match readAgentProfile workspace name with
    | none => .error (unknownAgent name)
    | some profile => .ok profile.grants

/-- The script can be found: it is stored inline, or in the file tree. -/
def hasScript (workspace : Workspace) (registration : WorkflowRegistration) : Bool :=
  registration.script.isSome || (workspace.store.read registration.scriptPath none).isSome

/-- Start a run and answer the context of its script; `none` is a run that
is recorded as failed because its script is missing. -/
def runWorkflow (workspace : Workspace) (userId : Text) (appScope : Option Vfs.AppPaths)
    (depth : Nat) (registration : WorkflowRegistration) (agent : Option Text) :
    Outcome (Option RunContext) := do
  let grants ←
    agentGrants workspace (attributedAgent agent registration)
  if hasScript workspace registration then
    return some {
      userId := userId
      appScope := appScope
      grants := grants
      workflowDepth := some (depth + 1) }
  else return none

/-- Run by name; the depth cap applies through `workflowDepth`. -/
def runWorkflowByName (workspace : Workspace) (ctx : RunContext)
    (name : Text) (agent : Option Text) : Outcome (Option RunContext) :=
  if maxEventDepth < ctx.workflowDepth.getD 0 then .error (cascadeTooDeep name)
  else
    match readRegistration workspace name with
    | none => .error (unknownWorkflow name)
    | some registration =>
      runWorkflow workspace ctx.userId ctx.appScope (ctx.workflowDepth.getD 0) registration agent

def workflowsRun (workspace : Workspace) (ctx : RunContext) (name : Text) (agent : Option Text) :
    Outcome (Option RunContext) := do
  let name ← workflowName name
  let _ ← requireVisibleRegistration workspace name ctx.userId
  runWorkflowByName workspace ctx name (agent.filter (· ≠ []))

/-- The contexts of the runs that an emission starts, one for each subscribed
workflow whose run can start.  The app scope does not propagate. -/
def triggerEventWorkflows (workspace : Workspace) (ctx : RunContext)
    (channel : Text) (depth : Nat) : List RunContext :=
  if maxEventDepth < depth then []
  else
    (workspace.registrations.filter (channel ∈ ·.events)).filterMap fun registration =>
        match runWorkflow workspace ctx.userId none depth registration none with
        | .ok started => started
        | .error _ => none

/-- `events.emit`, the part that starts workflows. -/
def eventsEmit (workspace : Workspace) (ctx : RunContext) (channel : Text) : List RunContext :=
  triggerEventWorkflows workspace ctx channel (ctx.workflowDepth.getD 0)

def GrantsOf (workspace : Workspace) (agentName : Option Text) (grants : Option CapabilityGrants) :
    Prop :=
  match agentName with
  | none => grants = none
  | some name =>
    ∃ profile, readAgentProfile workspace name = some profile ∧ grants = profile.grants

variable {workspace : Workspace}

theorem agentGrants_eq_ok_iff {agentName : Option Text} {grants : Option CapabilityGrants} :
    agentGrants workspace agentName = .ok grants ↔ GrantsOf workspace agentName grants := by
  cases agentName with
  | none => simp [agentGrants, GrantsOf, eq_comm]
  | some name =>
    simp only [agentGrants, GrantsOf]
    cases readAgentProfile workspace name with
    | none => simp
    | some profile => simp [eq_comm]

variable {agent : Option Text} {started : RunContext}

theorem grants_of_runWorkflow {userId : Text} {appScope : Option Vfs.AppPaths}
    {depth : Nat} {registration : WorkflowRegistration}
    (runs : runWorkflow workspace userId appScope depth registration agent = .ok (some started)) :
    GrantsOf workspace (attributedAgent agent registration)
      started.grants := by
  rw [runWorkflow] at runs
  obtain ⟨grants, found, rest⟩ := bind_eq_ok_iff.mp runs
  split at rest
  · cases rest
    exact agentGrants_eq_ok_iff.mp found
  · cases rest

variable {ctx : RunContext}

theorem grants_of_runWorkflowByName {name : Text}
    (runs : runWorkflowByName workspace ctx name agent = .ok (some started)) :
    ctx.workflowDepth.getD 0 ≤ maxEventDepth ∧
      ∃ registration, readRegistration workspace name = some registration ∧
        GrantsOf workspace (attributedAgent agent registration)
          started.grants := by
  rw [runWorkflowByName] at runs
  split at runs
  · cases runs
  · next shallow =>
      split at runs
      · cases runs
      · next registration found =>
          refine ⟨by omega, registration, found, ?_⟩
          exact grants_of_runWorkflow runs

theorem grants_of_workflowsRun {name : Text}
    (runs : workflowsRun workspace ctx name agent = .ok (some started)) :
    ctx.workflowDepth.getD 0 ≤ maxEventDepth ∧
      ∃ registration, readRegistration workspace name = some registration ∧ GrantsOf workspace
          (attributedAgent (agent.filter (· ≠ [])) registration)
          started.grants := by
  rw [workflowsRun] at runs
  obtain ⟨checked, named, rest⟩ := bind_eq_ok_iff.mp runs
  obtain ⟨_, _, last⟩ := bind_eq_ok_iff.mp rest
  have sameName : checked = name := by
    unfold workflowName at named
    split at named
    · cases named
      rfl
    · cases named
  rw [sameName] at last
  exact grants_of_runWorkflowByName last

theorem grants_of_eventsEmit {channel : Text}
    (member : started ∈ eventsEmit workspace ctx channel) :
    ctx.workflowDepth.getD 0 ≤ maxEventDepth ∧ ∃ registration ∈ workspace.registrations,
        channel ∈ registration.events ∧ GrantsOf workspace (attributedAgent none registration)
            started.grants := by
  rw [eventsEmit, triggerEventWorkflows] at member
  split at member
  · cases member
  · next shallow =>
      obtain ⟨registration, subscribed, runs⟩ :=
        List.mem_filterMap.mp member
      obtain ⟨stored, listens⟩ := List.mem_filter.mp subscribed
      refine ⟨by omega, registration, stored, by simpa using listens, ?_⟩
      split at runs
      · next answer returned =>
          rw [runs] at returned
          exact grants_of_runWorkflow returned
      · cases runs

end Aprovan.Workflows
