import Aprovan.Agents.Run
import Aprovan.Library.Runs

/-!
# Cascades of workflow runs

A run of a workflow causes further runs, and `MAX_EVENT_DEPTH` caps the depth
that the contexts of its tool calls carry.  A tool call is served in the context
it is made in, or handed on: the interfaces restore the context, the platform
plugins are called in one that has no depth.
-/

namespace Aprovan.Workflows

open Aprovan.Library Aprovan.Server Aprovan.Grants

/-- An entry of `interfaceInstances`, which is only ever set for `llm`. -/
structure AgentInterfacePin where
  interface : Text
  profile : Option Text

/-- The context of a tool call, with what redirects its interfaces. -/
structure CallerContext extends RunContext where
  interfaceBindings : List (Text × Text)
  llmInstance : Option AgentInterfacePin

inductive CallSource where
  | tool
  | app (name : Text)

/-- The context that the registry server dispatches in. -/
structure CallContext where
  principal : Text
  source : CallSource
  actor : Option Text

/-- The product fields stay behind: a call context has no depth. -/
def callContextFromService (ctx : CallerContext) : CallContext where
  principal := ctx.userId
  source :=
    match ctx.appScope with
    | none => .tool
    | some scope => .app scope.name
  actor := ctx.appScope.map (·.id)

/-- The registry server is a package of its own.  It may refuse a dispatch,
it finds out whether an interface resolves to the native implementation, and
it builds the context that a platform plugin is called in. -/
structure RegistryServer where
  admits : CallContext → Text → Text → Option Text → Outcome Unit
  resolvesToNative : CallContext → Text → Option Text → Bool
  serviceContext : CallContext → CallerContext

/-- The workflows and agents of a workspace, with the interface bindings of
each workflow and the `llm` pin of each agent. -/
structure Automation where
  workspace : Workspace
  bindings : Text → List (Text × Text)
  agentLlm : Text → Option AgentInterfacePin

structure Gateway extends automation : Automation where
  /-- The workspace lives on the hosted gateway. -/
  forwards : Bool
  /-- The hosted gateway, when it asks for no token. -/
  hosted : Option Automation
  /-- Interfaces are dispatched through the registry server. -/
  embeds : Bool
  registry : RegistryServer
  interfaces : List Text
  /-- The providers that implement an interface. -/
  compat : Text → List Text
  /-- The provider that the workspace resolves an interface to. -/
  resolveBound : Text → Option Text → Outcome Text
  assertProviderAllowed : CallerContext → Text → Text → Outcome Unit

def platformPluginNames : List Text :=
  ["registry".toList, "workflows".toList, "apps".toList,
    "webhooks".toList, "interfaces".toList, "profiles".toList,
    "sync".toList, "sessions".toList, "notifications".toList,
    "agents".toList, "sandboxes".toList]

def nativeInterfaces : List Text :=
  ["vfs".toList, "vcs".toList, "keyvalue".toList, "events".toList, "telemetry".toList]

/-- A run, and the context of its script; `none` when the script is
missing. -/
structure Run where
  workflow : Text
  depth : Nat
  script : Option CallerContext

namespace Automation

variable (automation : Automation)

/-- The registration's bindings and the agent's `llm` pin join the context
of the script. -/
def scriptContext (workflow : Text) (agent : Option Text) (ctx : RunContext) : CallerContext where
  toRunContext := ctx
  interfaceBindings := automation.bindings workflow
  llmInstance := agent.bind automation.agentLlm

def runWorkflow (userId : Text) (appScope : Option Vfs.AppPaths) (depth : Nat)
    (registration : WorkflowRegistration) (agent : Option Text) : Outcome Run := do
  let started ← Workflows.runWorkflow automation.workspace userId appScope depth registration agent
  return {
    workflow := registration.name
    depth := depth
    script := started.map (automation.scriptContext registration.name
      (attributedAgent agent registration)) }

variable (ctx : CallerContext)

def runWorkflowByName (name : Text) (agent : Option Text) : Outcome Run :=
  if maxEventDepth < ctx.workflowDepth.getD 0 then .error (cascadeTooDeep name)
  else
    match readRegistration automation.workspace name with
    | none => .error (unknownWorkflow name)
    | some registration =>
      automation.runWorkflow ctx.userId ctx.appScope (ctx.workflowDepth.getD 0) registration agent

def workflowsRun (name : Text) (agent : Option Text) : Outcome Run := do
  let name ← workflowName name
  let _ ← requireVisibleRegistration automation.workspace name ctx.userId
  automation.runWorkflowByName ctx name (agent.filter (· ≠ []))

/-- A run whose agent is unknown fails before it is recorded. -/
def triggerEventWorkflows (channel : Text) (depth : Nat) : List Run :=
  if maxEventDepth < depth then []
  else
    (automation.workspace.registrations.filter (channel ∈ ·.events)).filterMap fun registration =>
        (automation.runWorkflow ctx.userId none depth registration none).toOption

def eventsEmit (channel : Text) : List Run :=
  automation.triggerEventWorkflows ctx channel (ctx.workflowDepth.getD 0)

end Automation

/-- A call, with the arguments of the procedures that start runs. -/
structure ToolCall where
  (toolNamespace procedure : Text)
  profile : Option Text
  name : Text
  agent : Option Text
  channel : Text

inductive Service where
  | plugin (name : Text)
  | native (interface : Text)
  | provider
  deriving DecidableEq

structure Served where
  automation : Automation
  service : Service
  ctx : CallerContext

def pinnedCoreService (toolNamespace : Text) : ServiceError where
  message := toolNamespace ++ " is a core service — it has no profiles to pin".toList
  status := 400

def missingToken : ServiceError where
  message := "missing_token".toList
  status := 401

def notCompatible (provider interfaceId : Text) (compat : List Text) : ServiceError where
  message := provider ++ " does not implement ".toList ++ interfaceId ++
    ". Compatible: ".toList ++ List.intercalate ", ".toList compat
  status := 400

/-- `interfaceBindings?.[interfaceId]`, where the empty text is none. -/
def bindingOverride (ctx : CallerContext) (interfaceId : Text) : Option Text :=
  (ctx.interfaceBindings.lookup interfaceId).filter (· ≠ [])

/-- `interfaceInstances?.[interfaceId]`. -/
def redirected (ctx : CallerContext) (interfaceId : Text) : Option AgentInterfacePin :=
  if interfaceId = "llm".toList then ctx.llmInstance else none

/-- The namespace and the profile that the registry server is given for an
interface. -/
def resolveEmbedTarget (ctx : CallerContext) (interfaceId : Text) (profile : Option Text) :
    Text × Option Text :=
  match bindingOverride ctx interfaceId with
  | some provider => (provider, profile)
  | none =>
    match profile with
    | some name => (interfaceId, some name)
    | none =>
      match redirected ctx interfaceId with
      | some pin => (pin.interface, pin.profile)
      | none => (interfaceId, none)

namespace Gateway

variable (gateway : Gateway)

/-- The context that the hosted gateway gives a call without a token. -/
def hostedContext : CallerContext where
  userId := "local".toList
  appScope := none
  grants := none
  workflowDepth := none
  interfaceBindings := []
  llmInstance := none

/-- Forward a call.  Neither a token nor the depth goes along. -/
def proxyCloudToolInvoke (call : ToolCall) : Outcome Served :=
  match gateway.hosted with
  | none => .error missingToken
  | some automation =>
    .ok {
      automation := automation
      service :=
        if call.toolNamespace ∈ platformPluginNames then .plugin call.toolNamespace
        else .native call.toolNamespace
      ctx := hostedContext }

/-- A platform plugin is called in the context that the registry server
builds, a native interface in the restored one. -/
def registryDispatch (ctx : CallerContext) (target procedure : Text) (profile : Option Text) :
    Outcome Served := do
  let callContext := callContextFromService ctx
  gateway.registry.admits callContext target procedure profile
  if target ∈ platformPluginNames then
    return {
      automation := gateway.automation
      service := .plugin target
      ctx := gateway.registry.serviceContext callContext }
  else if gateway.registry.resolvesToNative callContext target profile then
    return {
      automation := gateway.automation
      service := .native target
      ctx := ctx }
  else
    return {
      automation := gateway.automation
      service := .provider
      ctx := ctx }

def resolveInterfaceForWorkspace (interfaceId : Text) (overrideProvider profile : Option Text) :
    Outcome Text :=
  match overrideProvider with
  | some provider =>
    if provider ∈ gateway.compat interfaceId then .ok provider
    else .error (notCompatible provider interfaceId (gateway.compat interfaceId))
  | none => gateway.resolveBound interfaceId profile

/-- Whether a provider of an interface is this gateway itself. -/
def isNativeBinding (interfaceId provider : Text) : Bool :=
  (interfaceId = "agent".toList && provider = "native".toList) ||
    (interfaceId ∈ nativeInterfaces && provider = "aprovan".toList)

def dispatchInterface (ctx : CallerContext) (interfaceId procedure : Text)
    (profile : Option Text) : Outcome Served := do
  if gateway.embeds then
    let (target, embedProfile) := resolveEmbedTarget ctx interfaceId profile
    gateway.registryDispatch ctx target procedure embedProfile
  else
    let provider ← gateway.resolveInterfaceForWorkspace interfaceId
      (bindingOverride ctx interfaceId)
      (profile <|> (redirected ctx interfaceId).bind (·.profile))
    return {
      automation := gateway.automation
      service :=
        if isNativeBinding interfaceId provider then .native interfaceId else .provider
      ctx := ctx }

def invokeTool (ctx : CallerContext) (call : ToolCall) : Outcome Served := do
  assertToolGranted ctx.grants call.toolNamespace call.procedure
  if gateway.forwards then gateway.proxyCloudToolInvoke call
  else if call.toolNamespace ∈ platformPluginNames then
    if call.profile.isSome then
      throw (pinnedCoreService call.toolNamespace)
    return {
      automation := gateway.automation
      service := .plugin call.toolNamespace
      ctx := ctx }
  else do
    gateway.assertProviderAllowed ctx call.toolNamespace call.procedure
    if call.toolNamespace ∈ gateway.interfaces then
      gateway.dispatchInterface ctx call.toolNamespace call.procedure call.profile
    else
      return {
        automation := gateway.automation
        service := .provider
        ctx := ctx }

end Gateway

def Served.runs (served : Served) (call : ToolCall) : List Run :=
  if served.service = .plugin "workflows".toList ∧ call.procedure = "run".toList then
    (served.automation.workflowsRun served.ctx call.name call.agent).toOption.toList
  else if served.service = .native "events".toList ∧ call.procedure = "emit".toList then
    served.automation.eventsEmit served.ctx call.channel
  else []

/-- An agent's run: the profile replaces the grants, and its instance and
its provider the redirections of `llm`. -/
structure AgentRun where
  profile : AgentProfile
  sandbox : Bool
  llm : Option AgentInterfacePin
  provider : Option Text

def agentContext (run : AgentRun) (ctx : CallerContext) : CallerContext :=
  { ctx with
    grants := Agents.runGrants run.profile run.sandbox <|> ctx.grants
    llmInstance := run.llm <|> ctx.llmInstance
    interfaceBindings :=
      match run.provider with
      | none => ctx.interfaceBindings
      | some provider => ("llm".toList, provider) :: ctx.interfaceBindings }

/-- The context in which a served call makes tool calls of its own: an agent
in its profile's, a sync and the raw agent loop in the caller's. -/
def Served.callback (served : Served) (call : ToolCall) (run : AgentRun) : Option CallerContext :=
  if call.procedure = "run".toList then
    if served.service = .plugin "agents".toList then some (agentContext run served.ctx)
    else if served.service = .plugin "sync".toList ∨ served.service = .native "agent".toList then
      some served.ctx
    else none
  else none

/-- A chain, the oldest run first, and the context in which the newest run
makes its next tool call. -/
structure Cascade where
  runs : List Run
  caller : Option CallerContext

def noRuns : Cascade where
  runs := []
  caller := none

/-- The runs of a chain are linked by the calls that cause them.  Each link
names the gateway that it finds: registrations may change in between. -/
inductive Link where
  /-- A schedule, a hook, an app or a member starts the first run. -/
  | root (gateway : Gateway) (userId : Text)
      (appScope : Option Vfs.AppPaths) (registration : WorkflowRegistration)
      (agent : Option Text)
  /-- A tool call starts runs, one of which continues the chain. -/
  | cause (gateway : Gateway) (call : ToolCall) (position : Nat)
  /-- A tool call starts an agent or a sync, which makes the next call. -/
  | relay (gateway : Gateway) (call : ToolCall) (run : AgentRun)

def Cascade.grow (cascade : Cascade) (run : Run) : Cascade where
  runs := cascade.runs ++ [run]
  caller := run.script

def cascadeStep (cascade : Cascade) : Link → Option Cascade
  | .root gateway userId appScope registration agent =>
    if cascade.runs = [] then
      (gateway.runWorkflow userId appScope 0 registration agent).toOption.map cascade.grow
    else none
  | .cause gateway call position => do
      let caller ← cascade.caller
      let served ← (gateway.invokeTool caller call).toOption
      let run ← (served.runs call)[position]?
      return cascade.grow run
  | .relay gateway call run => do
      let caller ← cascade.caller
      let served ← (gateway.invokeTool caller call).toOption
      let callback ← served.callback call run
      return { cascade with caller := some callback }

/-- A chain is no longer than the cap allows, and the depth of a run is its
position in the chain. -/
structure Capped (cascade : Cascade) : Prop where
  bounded : cascade.runs.length ≤ maxEventDepth + 1
  depths : cascade.runs.map Run.depth = List.range cascade.runs.length

/-- The call stays in its context: it is not forwarded to a gateway that
admits it without a token, and no binding or pin hands it to a platform
plugin through the registry server. -/
def StaysInContext (gateway : Gateway) (ctx : CallerContext) (call : ToolCall) : Prop :=
  (gateway.forwards = true → gateway.hosted.isNone) ∧
    (gateway.forwards = false → gateway.embeds = true → call.toolNamespace ∈ platformPluginNames ∨
        (resolveEmbedTarget ctx call.toolNamespace call.profile).1 ∉ platformPluginNames)
  deriving Decidable

def LinkStaysInContext (cascade : Cascade) : Link → Prop
  | .root _ _ _ _ _ => True
  | .cause gateway call _ | .relay gateway call _ =>
    ∀ caller ∈ cascade.caller, StaysInContext gateway caller call

instance (cascade : Cascade) : ∀ link, Decidable (LinkStaysInContext cascade link)
  | .root _ _ _ _ _ => inferInstanceAs (Decidable True)
  | .cause gateway call _ | .relay gateway call _ =>
    inferInstanceAs (Decidable (∀ caller ∈ cascade.caller, StaysInContext gateway caller call))

theorem toOption_eq_some_iff {Value : Type} {answer : Outcome Value} {value : Value} :
    answer.toOption = some value ↔ answer = .ok value := by
  cases answer with
  | error thrown => simp [Except.toOption]
  | ok returned => simp [Except.toOption]

/-- A run at a depth, whose script is one deeper. -/
structure Run.At (run : Run) (depth : Nat) : Prop where
  same : run.depth = depth
  deeper : ∀ ctx ∈ run.script, ctx.workflowDepth = some (depth + 1)

section

variable {automation : Automation} {ctx : CallerContext} {run : Run}
  {agent : Option Text} {registration : WorkflowRegistration}

theorem workflowDepth_of_runWorkflow {workspace : Workspace} {userId : Text}
    {appScope : Option Vfs.AppPaths} {depth : Nat} {started : RunContext}
    (runs : Workflows.runWorkflow workspace userId appScope depth
      registration agent = .ok (some started)) :
    started.workflowDepth = some (depth + 1) := by
  rw [Workflows.runWorkflow] at runs
  obtain ⟨grants, _, rest⟩ := bind_eq_ok_iff.mp runs
  by_cases found : hasScript workspace registration
  · rw [if_pos found] at rest
    cases rest
    rfl
  · rw [if_neg found] at rest
    cases rest

theorem at_of_runWorkflow {userId : Text} {appScope : Option Vfs.AppPaths} {depth : Nat}
    (runs : automation.runWorkflow userId appScope depth registration agent = .ok run) :
    run.At depth := by
  rw [Automation.runWorkflow] at runs
  obtain ⟨started, begun, rest⟩ := bind_eq_ok_iff.mp runs
  cases rest
  refine ⟨rfl, ?_⟩
  intro ctx member
  obtain ⟨inner, same, rfl⟩ := Option.map_eq_some_iff.mp member
  rw [same] at begun
  exact workflowDepth_of_runWorkflow begun

theorem at_of_runWorkflowByName {name : Text}
    (runs : automation.runWorkflowByName ctx name agent = .ok run) :
    ctx.workflowDepth.getD 0 ≤ maxEventDepth ∧ run.At (ctx.workflowDepth.getD 0) := by
  rw [Automation.runWorkflowByName] at runs
  by_cases deep : maxEventDepth < ctx.workflowDepth.getD 0
  · rw [if_pos deep] at runs
    cases runs
  · rw [if_neg deep] at runs
    refine ⟨Nat.le_of_not_lt deep, ?_⟩
    cases found : readRegistration automation.workspace name with
    | none =>
      rw [found] at runs
      cases runs
    | some registration =>
      rw [found] at runs
      exact at_of_runWorkflow runs

theorem at_of_workflowsRun {name : Text}
    (runs : automation.workflowsRun ctx name agent = .ok run) :
    ctx.workflowDepth.getD 0 ≤ maxEventDepth ∧ run.At (ctx.workflowDepth.getD 0) := by
  rw [Automation.workflowsRun] at runs
  obtain ⟨_, _, rest⟩ := bind_eq_ok_iff.mp runs
  obtain ⟨_, _, last⟩ := bind_eq_ok_iff.mp rest
  exact at_of_runWorkflowByName last

theorem at_of_eventsEmit {channel : Text} (member : run ∈ automation.eventsEmit ctx channel) :
    ctx.workflowDepth.getD 0 ≤ maxEventDepth ∧ run.At (ctx.workflowDepth.getD 0) := by
  rw [Automation.eventsEmit, Automation.triggerEventWorkflows] at member
  by_cases deep : maxEventDepth < ctx.workflowDepth.getD 0
  · rw [if_pos deep] at member
    cases member
  · rw [if_neg deep] at member
    refine ⟨Nat.le_of_not_lt deep, ?_⟩
    obtain ⟨registration, _, runs⟩ := List.mem_filterMap.mp member
    exact at_of_runWorkflow (toOption_eq_some_iff.mp runs)

end

theorem at_of_served {served : Served} {call : ToolCall} {run : Run}
    (member : run ∈ served.runs call) :
    served.ctx.workflowDepth.getD 0 ≤ maxEventDepth ∧
      run.At (served.ctx.workflowDepth.getD 0) := by
  unfold Served.runs at member
  by_cases byName : served.service = .plugin "workflows".toList ∧ call.procedure = "run".toList
  · rw [if_pos byName, Option.mem_toList] at member
    exact at_of_workflowsRun (toOption_eq_some_iff.mp member)
  · rw [if_neg byName] at member
    by_cases byEvent : served.service = .native "events".toList ∧ call.procedure = "emit".toList
    · rw [if_pos byEvent] at member
      exact at_of_eventsEmit member
    · rw [if_neg byEvent] at member
      cases member

theorem workflowDepth_of_callback {served : Served} {call : ToolCall} {run : AgentRun}
    {callback : CallerContext} (answers : served.callback call run = some callback) :
    callback.workflowDepth = served.ctx.workflowDepth := by
  unfold Served.callback at answers
  split_ifs at answers
  · cases answers
    rfl
  · cases answers
    rfl

section

variable {gateway : Gateway} {ctx : CallerContext} {served : Served}

theorem ctx_of_registryDispatch {target procedure : Text}
    {profile : Option Text} (outside : target ∉ platformPluginNames)
    (serves : gateway.registryDispatch ctx target procedure profile = .ok served) :
    served.ctx = ctx := by
  rw [Gateway.registryDispatch] at serves
  obtain ⟨_, _, rest⟩ := bind_eq_ok_iff.mp serves
  rw [if_neg outside] at rest
  split at rest
  · cases rest
    rfl
  · cases rest
    rfl

theorem ctx_of_dispatchInterface {interfaceId procedure : Text} {profile : Option Text}
    (outside : gateway.embeds = true →
      (resolveEmbedTarget ctx interfaceId profile).1 ∉ platformPluginNames)
    (serves : gateway.dispatchInterface ctx interfaceId procedure profile = .ok served) :
    served.ctx = ctx := by
  rw [Gateway.dispatchInterface] at serves
  by_cases embeds : gateway.embeds = true
  · rw [if_pos embeds] at serves
    exact ctx_of_registryDispatch (outside embeds) serves
  · rw [if_neg embeds] at serves
    obtain ⟨_, _, rest⟩ := bind_eq_ok_iff.mp serves
    cases rest
    rfl

theorem ctx_of_invokeTool {call : ToolCall} (stays : StaysInContext gateway ctx call)
    (serves : gateway.invokeTool ctx call = .ok served) :
    served.ctx = ctx := by
  rw [Gateway.invokeTool] at serves
  obtain ⟨_, _, rest⟩ := bind_eq_ok_iff.mp serves
  by_cases forwards : gateway.forwards = true
  · -- the hosted gateway asks for a token, so that nothing is served
    rw [if_pos forwards, Gateway.proxyCloudToolInvoke,
      Option.isNone_iff_eq_none.mp (stays.1 forwards)] at rest
    cases rest
  · rw [if_neg forwards] at rest
    have inProcess := stays.2 (Bool.eq_false_iff.mpr forwards)
    by_cases core : call.toolNamespace ∈ platformPluginNames
    · rw [if_pos core] at rest
      split at rest
      · cases rest
      · cases rest
        rfl
    · rw [if_neg core] at rest
      obtain ⟨_, _, last⟩ := bind_eq_ok_iff.mp rest
      by_cases known : call.toolNamespace ∈ gateway.interfaces
      · rw [if_pos known] at last
        have outside := fun embeds => (inProcess embeds).resolve_left core
        exact ctx_of_dispatchInterface outside last
      · rw [if_neg known] at last
        cases last
        rfl

end

/-- The newest run makes its calls one deeper than it is. -/
structure Threaded (cascade : Cascade) : Prop where
  bounded : cascade.runs.length ≤ maxEventDepth + 1
  depths : cascade.runs.map Run.depth = List.range cascade.runs.length
  caller : ∀ ctx ∈ cascade.caller, ctx.workflowDepth = some cascade.runs.length

theorem threaded_grow {cascade : Cascade} {run : Run} (threaded : Threaded cascade)
    (room : cascade.runs.length ≤ maxEventDepth) (placed : run.At cascade.runs.length) :
    Threaded (cascade.grow run) := by
  have length : (cascade.grow run).runs.length = cascade.runs.length + 1 := by simp [Cascade.grow]
  refine ⟨?_, ?_, ?_⟩
  · rw [length]
    omega
  · rw [length, List.range_succ, ← threaded.depths, ← placed.same]
    simp [Cascade.grow]
  · intro ctx member
    rw [length]
    exact placed.deeper ctx member

theorem threaded_step {cascade next : Cascade} {link : Link} (threaded : Threaded cascade)
    (stays : LinkStaysInContext cascade link) (taken : cascadeStep cascade link = some next) :
    Threaded next := by
  cases link with
  | root gateway userId appScope registration agent =>
    rw [cascadeStep] at taken
    by_cases first : cascade.runs = []
    · rw [if_pos first] at taken
      obtain ⟨run, started, rfl⟩ := Option.map_eq_some_iff.mp taken
      have placed := at_of_runWorkflow (toOption_eq_some_iff.mp started)
      apply threaded_grow threaded
      · simp [first]
      · simpa [first] using placed
    · rw [if_neg first] at taken
      cases taken
  | cause gateway call position =>
    simp only [cascadeStep, Option.bind_eq_bind, Option.bind_eq_some_iff] at taken
    obtain ⟨caller, isCaller, served, serves, run, started, same⟩ := taken
    cases same
    have sameContext := ctx_of_invokeTool (stays caller isCaller) (toOption_eq_some_iff.mp serves)
    obtain ⟨shallow, placed⟩ :=
      at_of_served (List.mem_of_getElem? started)
    rw [sameContext, threaded.caller caller isCaller] at shallow placed
    exact threaded_grow threaded shallow placed
  | relay gateway call run =>
    simp only [cascadeStep, Option.bind_eq_bind, Option.bind_eq_some_iff] at taken
    obtain ⟨caller, isCaller, served, serves, callback, answers, same⟩ :=
      taken
    cases same
    refine ⟨threaded.bounded, threaded.depths, ?_⟩
    intro ctx member
    cases member
    rw [workflowDepth_of_callback answers, ctx_of_invokeTool (stays caller isCaller)
        (toOption_eq_some_iff.mp serves)]
    exact threaded.caller caller isCaller

theorem threaded_noRuns : Threaded noRuns := by
  refine ⟨?_, rfl, ?_⟩
  · simp [noRuns]
  · intro ctx member
    cases member

/-- A chain whose calls stay in their contexts is capped. -/
theorem cascades_capped {links : List Link} {cascade : Cascade}
    (stays : StepsMeet cascadeStep LinkStaysInContext noRuns links)
    (executed : runFrom cascadeStep noRuns links = some cascade) :
    Capped cascade := by
  have threaded := invariant_of_stepsMeet Threaded
    (fun _ _ _ => threaded_step) threaded_noRuns stays executed
  exact ⟨threaded.bounded, threaded.depths⟩

/-- A workflow `loop` that listens to `tick`. -/
def loopRegistration : WorkflowRegistration where
  name := "loop".toList
  scriptPath := "inline:loop".toList
  script := some "await llm.run(input)".toList
  events := ["tick".toList]
  agent := none
  createdBy := "ann".toList

def loopWorkspace : Workspace where
  store := ⟨.dsql, [], Fs.Store.keys_nil⟩
  records := {
    appInstance := fun _ => none
    installHosting := fun _ _ => none
    isMember := fun _ _ => true
    shares := []
    now := 0 }
  shares := []
  mounts := []
  registrations := [loopRegistration]
  exportedBy := fun _ => []
  agents := []

/-- The registry server admits every call, and gives a platform plugin the
principal of the call and none of the product fields. -/
def plainRegistry : RegistryServer where
  admits := fun _ _ _ _ => .ok ()
  resolvesToNative := fun _ _ _ => true
  serviceContext := fun callContext => {
    userId := callContext.principal
    appScope := none
    grants := none
    workflowDepth := none
    interfaceBindings := []
    llmInstance := none }

/-- A gateway on the DSQL backend, whose workflow binds its interfaces. -/
def loopGateway (bindings : List (Text × Text)) : Gateway where
  workspace := loopWorkspace
  bindings := fun _ => bindings
  agentLlm := fun _ => none
  forwards := false
  hosted := none
  embeds := true
  registry := plainRegistry
  interfaces := ["llm".toList, "events".toList]
  compat := fun _ => []
  resolveBound := fun _ _ => .ok "aprovan".toList
  assertProviderAllowed := fun _ _ _ => .ok ()

def loopCall (toolNamespace procedure : String) : ToolCall where
  toolNamespace := toolNamespace.toList
  procedure := procedure.toList
  profile := none
  name := "loop".toList
  agent := none
  channel := "tick".toList

def loopStart (bindings : List (Text × Text)) : Link :=
  .root (loopGateway bindings) "ann".toList none loopRegistration none

/-- An emission and a nested run continue the chain up to the cap. -/
def mixedLoop : List Link :=
  [loopStart [], .cause (loopGateway []) (loopCall "events" "emit") 0,
    .cause (loopGateway []) (loopCall "workflows" "run") 0]

theorem cascades_capped_mixedLoop :
    ∃ cascade, runFrom cascadeStep noRuns mixedLoop = some cascade ∧
      cascade.runs.length = 3 ∧ Capped cascade := by
  have reached : (runFrom cascadeStep noRuns mixedLoop).map (·.runs.length) = some 3 := by
    decide +kernel
  obtain ⟨cascade, executed, three⟩ := Option.map_eq_some_iff.mp reached
  have stays : StepsMeet cascadeStep LinkStaysInContext noRuns
      mixedLoop := by
    decide +kernel
  exact ⟨cascade, executed, three, cascades_capped stays executed⟩

/-- `bindings` maps `llm` to the workflows service. -/
def boundLoop : List Link :=
  loopStart [("llm".toList, "workflows".toList)] ::
    List.replicate 3 (.cause (loopGateway [("llm".toList, "workflows".toList)])
        (loopCall "llm" "run") 0)

theorem cascades_uncapped :
    ¬∀ links cascade, runFrom cascadeStep noRuns links = some cascade → Capped cascade := by
  intro capped
  have reached : (runFrom cascadeStep noRuns boundLoop).map (·.runs.length) = some 4 := by
    decide +kernel
  obtain ⟨cascade, executed, four⟩ := Option.map_eq_some_iff.mp reached
  have bounded := (capped boundLoop cascade executed).bounded
  rw [four, maxEventDepth] at bounded
  omega

end Aprovan.Workflows
