import Aprovan.Sandboxes.Transfer
import Aprovan.Workflows.Runner

/-!
# Rendering an agent run

An agent profile becomes the context of its loop and the list of tools the
loop may call.  The profile replaces the caller's grants; a run bound to a
sandbox is given the sandbox tools on top of the profile's.
-/

namespace Aprovan.Agents

open Aprovan.Library Aprovan.Fs Aprovan.Grants Aprovan.Vcs
  Aprovan.Sandboxes Aprovan.Workflows

/-- A run that makes tool calls.  A workflow script is bounded by its
context alone, an agent loop also by the patterns it is offered. -/
structure LiveRun where
  ctx : Workflows.RunContext
  offered : Option (List Text)

def sandboxRunTools : List Text :=
  ["sandboxes.exec".toList, "sandboxes.read".toList,
    "sandboxes.write".toList, "sandboxes.tree".toList]

/-- `[...new Set([...tools, ...SANDBOX_RUN_TOOLS])]`. -/
def withSandboxTools (tools : List Text) : List Text :=
  (tools ++ sandboxRunTools).eraseDups

/-- The tool list of a run: a projection of the grants, and for a bound run
the sandbox tools. -/
def toolPatterns (profile : AgentProfile) (sandbox : Bool) : List Text :=
  let profileTools := (profile.grants.bind (·.tools)).getD []
  if sandbox then withSandboxTools profileTools else profileTools

/-- The dispatch-side boundary, which agrees with the tool list. -/
def runGrants (profile : AgentProfile) (sandbox : Bool) : Option CapabilityGrants :=
  match profile.grants with
  | none => none
  | some grants =>
    match sandbox, grants.tools with
    | true, some tools => some { grants with tools := some (withSandboxTools tools) }
    | _, _ => some grants

/-- The files that `renderMountLayer` reads for one mount: those that the
listing of its source answers.  A repository is read elsewhere. -/
def mountLayerPaths (store : Store) (mount : AgentMount) : List Text :=
  if mount.repo then []
  else
    match mount.source.filter (· ≠ []) with
    | none => []
    | some source =>
      ((visibleEntries store source).map (·.path)).filter fun path => relativeTo source path ≠ []

/-- Read the mounted files of a profile into the instructions. -/
def renderMountLayer (store : Store) (mounts : List AgentMount) : Tracing (List FsRow) :=
  (mounts.flatMap (mountLayerPaths store)).foldlM (fun files path => do
    Traced.report (.read path)
    return files ++ (store.read path none).toList) []

def renderAgentRun (workspace : Workflows.Workspace) (ctx : Workflows.RunContext)
    (profile : AgentProfile) (sandbox : Bool) : Tracing LiveRun := do
  let _ ← renderMountLayer workspace.store profile.mounts
  return {
    ctx := { ctx with grants := runGrants profile sandbox <|> ctx.grants }
    offered := some (toolPatterns profile sandbox) }

def agentsRun (workspace : Workflows.Workspace) (ctx : Workflows.RunContext)
    (name : Text) (sandbox : Bool) : Tracing LiveRun :=
  match readAgentProfile workspace name with
  | none => Traced.raise (unknownAgent name)
  | some profile => renderAgentRun workspace ctx profile sandbox

/-- The files that rendering a profile opens. -/
def layerReads (store : Store) (profile : AgentProfile) : Set Access :=
  { access | ∃ mount ∈ profile.mounts, ∃ path ∈ mountLayerPaths store mount, access = .read path }

theorem confined_renderMountLayer (store : Store) (profile : AgentProfile) :
    Traced.Confined (layerReads store profile) (fun _ => True)
      (renderMountLayer store profile.mounts) := by
  apply Traced.confined_foldlM _ trivial
  intro files path member _
  obtain ⟨mount, declared, listed⟩ := List.mem_flatMap.mp member
  have inside : Access.read path ∈ layerReads store profile := ⟨mount, declared, path, listed, rfl⟩
  apply Traced.confined_bind (Traced.confined_report inside)
  intro _ _
  exact Traced.confined_pure trivial

theorem confined_agentsRun (workspace : Workflows.Workspace) (ctx : Workflows.RunContext)
    (name : Text) (sandbox : Bool) :
    Traced.Confined { access | ∃ profile, readAgentProfile workspace name = some profile ∧
          access ∈ layerReads workspace.store profile }
      (fun run => ∃ profile, readAgentProfile workspace name = some profile ∧
          run.ctx.grants = (runGrants profile sandbox <|> ctx.grants))
      (agentsRun workspace ctx name sandbox) := by
  rw [agentsRun]
  cases found : readAgentProfile workspace name with
  | none => exact Traced.confined_raise _
  | some profile =>
    have opens : layerReads workspace.store profile ⊆
        { access | ∃ other, some profile = some other ∧
            access ∈ layerReads workspace.store other } :=
      fun access inside => ⟨profile, rfl, inside⟩
    have layer := (confined_renderMountLayer workspace.store
      profile).weaken opens fun _ holds => holds
    simp only [renderAgentRun]
    apply Traced.confined_bind layer
    intro _ _
    exact Traced.confined_pure ⟨profile, rfl, rfl⟩

end Aprovan.Agents
