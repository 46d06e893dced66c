import Aprovan.Library.Runs
import Aprovan.Sandboxes.Service

/-!
# Chains of delegated runs

A chain starts from one run and grows by the runs that its tool calls cause;
their steps interleave.  Each step names the workspace that it finds, so that
whatever others wrote in between is covered.  The trace holds every tool
dispatch and every workspace path that was opened for a run of the chain.
-/

namespace Aprovan.Delegation

open Aprovan.Library Aprovan.Server Aprovan.Fs Aprovan.Grants
  Aprovan.Workflows Aprovan.Agents Aprovan.Sandboxes

/-- The file procedures, with their path argument. -/
inductive VfsCall where
  | read (value : Option Text)
  | stat (value : Option Text)
  | write (value : Option Text)
  | delete (value : Option Text) (recursive : Bool)

/-- The sandbox procedures that only talk to the host. -/
inductive SandboxUse where
  | exec
  | read
  | write
  | tree

inductive ToolCall where
  | vfs (call : VfsCall)
  | workflowsRun (name : Text) (agent : Option Text)
  | eventsEmit (channel : Text)
  | sandboxesCreate (id : Text) (args : CreateArgs)
  | sandboxesUse (procedure : SandboxUse) (id : Text)
  | sandboxesSync (id : Text) (mount : Option Text)
  | sandboxesCommit (id : Text) (mount : Option Text)
  | sandboxesSchedule (id : Text) (args : ScheduleArgs)
  | other (toolNamespace procedure : Text)

def VfsCall.procedure : VfsCall → Text
  | .read _ => "read".toList
  | .stat _ => "stat".toList
  | .write _ => "write".toList
  | .delete _ _ => "delete".toList

def SandboxUse.procedure : SandboxUse → Text
  | .exec => "exec".toList
  | .read => "read".toList
  | .write => "write".toList
  | .tree => "tree".toList

def ToolCall.target : ToolCall → Text × Text
  | .vfs call => ("vfs".toList, call.procedure)
  | .workflowsRun _ _ => ("workflows".toList, "run".toList)
  | .eventsEmit _ => ("events".toList, "emit".toList)
  | .sandboxesCreate _ _ => ("sandboxes".toList, "create".toList)
  | .sandboxesUse use _ => ("sandboxes".toList, use.procedure)
  | .sandboxesSync _ _ => ("sandboxes".toList, "sync".toList)
  | .sandboxesCommit _ _ => ("sandboxes".toList, "commit".toList)
  | .sandboxesSchedule _ _ => ("sandboxes".toList, "schedule".toList)
  | .other toolNamespace procedure => (toolNamespace, procedure)

/-- The stored files that a recursive deletion removes. -/
def clearedPaths (store : Store) (path : Text) : List Text :=
  (store.paths.filter fun file => Store.clears store.backend path file).dedup

/-- The paths that a file procedure opens once its guards pass. -/
def vfsOpen (workspace : Vfs.Workspace) (ctx : Workflows.RunContext) : VfsCall → Tracing Unit
  | .read value => do
      let path ← Traced.check (Vfs.readPath ctx.toServiceContext workspace value)
      Traced.report (.read path)
  | .stat value => do
      let path ← Traced.check (Vfs.readPath ctx.toServiceContext workspace value)
      Traced.report (.read path)
  | .write value => do
      let path ← Traced.check (Vfs.mutationPath ctx.toServiceContext workspace value)
      Traced.report (.write path)
  | .delete value recursive => do
      let path ← Traced.check (Vfs.mutationPath ctx.toServiceContext workspace value)
      Traced.report (.write path)
      if recursive then
        (clearedPaths workspace.store path).foldlM (fun _ file => Traced.report (.write file)) ()
      else return ()

/-- A scheduled run that a host has taken. -/
structure ClaimedRun where
  run : SandboxRun
  sandbox : Text
  launched : Bool

/-- Everything that came of the first run: the runs, the sandboxes, the
queued and the claimed work, and what was opened.  A run that has ended
takes no further step. -/
structure Chain where
  runs : List LiveRun
  sandboxes : List SandboxRecord
  queue : List SandboxRun
  claimed : List ClaimedRun
  trace : List Access

def originChain (origin : LiveRun) : Chain where
  runs := [origin]
  sandboxes := []
  queue := []
  claimed := []
  trace := []

def Chain.start (chain : Chain) (runs : List LiveRun) : Chain :=
  { chain with runs := chain.runs ++ runs }

def scriptRun (ctx : Workflows.RunContext) : LiveRun where
  ctx := ctx
  offered := none

def Chain.records (chain : Chain) (workspace : Sandboxes.Workspace) : List SandboxRecord :=
  chain.sandboxes ++ workspace.sandboxes

def Chain.saveSandbox (chain : Chain) (record : SandboxRecord) : Chain :=
  { chain with
    sandboxes := chain.sandboxes.map fun other =>
      if other.id = record.id then record else other }

def Chain.destroy (chain : Chain) (id : Text) : Chain :=
  { chain with
    sandboxes := chain.sandboxes.map fun record =>
      if record.id = id then { record with status := .destroyed } else record }

/-- The chain after some work: what it opened stays opened when it
throws. -/
def Chain.after (chain : Chain) (work : Tracing Chain) : Chain :=
  let next :=
    match work.outcome with
    | .ok next => next
    | .error _ => chain
  { next with trace := chain.trace ++ work.trace }

section

variable (workspace : Sandboxes.Workspace) (driver : Driver) (chain : Chain)

def perform (ctx : Workflows.RunContext) : ToolCall → Tracing Chain
  | .vfs call => do
      vfsOpen workspace.workflows.toWorkspace ctx call
      return chain
  | .workflowsRun name agent => do
      let started ← Traced.check (workflowsRun workspace.workflows ctx name agent)
      return chain.start (started.map scriptRun).toList
  | .eventsEmit channel =>
    return chain.start ((eventsEmit workspace.workflows ctx channel).map scriptRun)
  | .sandboxesCreate id args => do
      let record ← sandboxesCreate workspace driver ctx id args
      return { chain with sandboxes := chain.sandboxes ++ [record] }
  | .sandboxesUse _ id => do
      Traced.check (requireWorkspaceCaller ctx)
      let _ ← Traced.check (requireSandbox (chain.records workspace) id)
      return chain
  | .sandboxesSync id mount => do
      let record ← sandboxesSync workspace (chain.records workspace) driver ctx id mount
      return chain.saveSandbox record
  | .sandboxesCommit id mount => do
      let record ← sandboxesCommit workspace (chain.records workspace) driver ctx id mount
      return chain.saveSandbox record
  | .sandboxesSchedule id args => do
      let run ← sandboxesSchedule workspace ctx id args
      return { chain with queue := chain.queue ++ [run] }
  | .other _ _ => return chain

/-- A loop stops at a call outside of its tool list. -/
def assertOffered (offered : Option (List Text)) (toolNamespace procedure : Text) : Outcome Unit :=
  match offered with
  | none => .ok ()
  | some patterns =>
    if matchesCapabilityPattern patterns toolNamespace procedure then .ok ()
    else .error (toolDenied patterns toolNamespace procedure)

/-- `invokeTool`: the grants first, then the dispatch. -/
def invokeTool (run : LiveRun) (call : ToolCall) : Tracing Chain := do
  Traced.check (assertOffered run.offered call.target.1 call.target.2)
  Traced.check (assertToolGranted run.ctx.grants call.target.1 call.target.2)
  Traced.report (.tool call.target.1 call.target.2)
  perform workspace driver chain run.ctx call

end

inductive Act where
  | call (run : Nat) (call : ToolCall)
  | claim (position : Nat) (id freshSession : Text)
  | launch (position : Nat)
  | finish (position : Nat)

/-- An act, the workspace it finds and the host it reaches. -/
structure Step where
  workspace : Sandboxes.Workspace
  driver : Driver
  act : Act

/-- A host takes a queued run and provisions its sandbox. -/
def claimStep (step : Step) (chain : Chain) (position : Nat)
    (id freshSession : Text) (run : SandboxRun) : Chain :=
  let taken := { chain with queue := chain.queue.eraseIdx position }
  taken.after do
    let record ←
      provisionClaimedRun step.workspace step.driver id freshSession run
    return { taken with
      sandboxes := taken.sandboxes ++ [record]
      claimed := taken.claimed ++ [⟨run, id, false⟩] }

/-- The workflow or the agent loop of a claimed run starts. -/
def launchStep (step : Step) (chain : Chain) (position : Nat) (claimed : ClaimedRun) : Chain :=
  let failed := { chain.destroy claimed.sandbox with
    claimed := chain.claimed.eraseIdx position }
  failed.after do
    let started ← launchClaimedRun step.workspace claimed.run
    return { chain.start started.toList with
      claimed := chain.claimed.set position { claimed with launched := true } }

def finishStep (step : Step) (chain : Chain) (position : Nat)
    (claimed : ClaimedRun) (record : SandboxRecord) : Chain :=
  let done := { chain.destroy claimed.sandbox with
    claimed := chain.claimed.eraseIdx position }
  done.after do
    let _ ← finishClaimedRun step.workspace step.driver claimed.run record
    return done

/-- One step of a chain; `none` when there is nothing to take it. -/
def takeStep (chain : Chain) (step : Step) : Option Chain :=
  match step.act with
  | .call position call =>
    chain.runs[position]?.map fun run =>
      chain.after (invokeTool step.workspace step.driver chain run call)
  | .claim position id freshSession =>
    chain.queue[position]?.map fun run => claimStep step chain position id freshSession run
  | .launch position =>
    chain.claimed[position]?.bind fun claimed =>
      if claimed.launched then none else some (launchStep step chain position claimed)
  | .finish position =>
    chain.claimed[position]?.bind fun claimed =>
      if claimed.launched then
        (chain.sandboxes.find? (·.id = claimed.sandbox)).map fun record =>
          finishStep step chain position claimed record
      else none

/-- Every dispatch and every opened path is one that the grants allow, and
every run of the chain reaches no more than they do. -/
structure NeverWidens (grants : Option CapabilityGrants) (chain : Chain) : Prop where
  opened : ∀ access ∈ chain.trace, access ∈ reach grants
  inForce : ∀ run ∈ chain.runs, reach run.ctx.grants ⊆ reach grants

end Aprovan.Delegation
