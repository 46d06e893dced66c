import Aprovan.Delegation.Chain

/-!
# When delegation narrows

No hand-off consults the grants of the run that makes it.  `NarrowStep` says of
the agents, sandboxes and files that a step meets that they stay inside the
reach of the first grants; a chain of such steps never widens.
-/

namespace Aprovan.Delegation

open Aprovan.Library Aprovan.Fs Aprovan.Grants
  Aprovan.Workflows Aprovan.Agents Aprovan.Sandboxes

section

variable (grants : Option CapabilityGrants) (workspace : Sandboxes.Workspace)

/-- The named agent reaches no more than the grants.  A run without an agent
is unbounded. -/
def NarrowAgent (agentName : Option Text) : Prop :=
  ∀ own, GrantsOf workspace.workflows agentName own → reach own ⊆ reach grants

/-- An agent named for a sandbox reaches no more of the file tree. -/
def NarrowMounts (agent : Option Text) : Prop :=
  ∀ name profile, agent = some name → readAgentProfile workspace.workflows name = some profile →
    profile.grants.isSome →
    pathReach profile.grants ⊆ pathReach grants

def NarrowCall (ctx : Workflows.RunContext) : ToolCall → Prop
  | .vfs (.delete value true) =>
    ∀ path, Vfs.mutationPath ctx.toServiceContext
        workspace.workflows.toWorkspace value = .ok path →
      ∀ file ∈ clearedPaths workspace.workflows.store path, .write file ∈ reach grants
  | .workflowsRun name agent =>
    ctx.workflowDepth.getD 0 ≤ maxEventDepth →
    ∀ registration, readRegistration workspace.workflows name = some registration →
      NarrowAgent grants workspace (attributedAgent (agent.filter (· ≠ [])) registration)
  | .eventsEmit channel =>
    ctx.workflowDepth.getD 0 ≤ maxEventDepth →
    ∀ registration ∈ workspace.workflows.registrations, channel ∈ registration.events →
      NarrowAgent grants workspace (attributedAgent none registration)
  | .sandboxesCreate _ args => NarrowMounts grants workspace args.agent
  | .sandboxesSchedule _ args => NarrowMounts grants workspace args.agent
  | .sandboxesSync _ mount =>
    -- a sandbox that was made outside of the chain
    ∀ record ∈ workspace.sandboxes, ∀ mounts, mountsFor record mount = .ok mounts →
      readsOfAny workspace.workflows.store mounts ⊆ reach grants
  | _ => True

/-- What a claimed run must find when it is launched. -/
def NarrowLaunch (run : SandboxRun) : Prop :=
  match run.workflow with
  | some workflow =>
    ∀ registration, readRegistration workspace.workflows workflow = some registration →
      NarrowAgent grants workspace (attributedAgent run.agent registration)
  | none =>
    ∀ profile, readAgentProfile workspace.workflows (run.agent.getD []) = some profile →
      reach (runGrants profile true) ⊆ reach grants ∧
        layerReads workspace.workflows.store profile ⊆ reach grants

end

def NarrowStep (grants : Option CapabilityGrants) (chain : Chain) (step : Step) : Prop :=
  match step.act with
  | .call position call =>
    ∀ run, chain.runs[position]? = some run → NarrowCall grants step.workspace run.ctx call
  | .claim _ _ _ => True
  | .launch position =>
    ∀ claimed, chain.claimed[position]? = some claimed →
      NarrowLaunch grants step.workspace claimed.run
  | .finish position =>
    ∀ claimed, chain.claimed[position]? = some claimed →
    ∀ record ∈ chain.sandboxes, record.id = claimed.sandbox →
      writesOfAny step.driver (record.mounts.filter (·.track)) ⊆ reach grants

def ReadableSources (grants : Option CapabilityGrants) (mounts : List SandboxMount) : Prop :=
  ∀ mount ∈ mounts, ∀ source, mount.workspaceSource = some source → .read source ∈ reach grants

/-- A chain that has not widened, and whose sandboxes and queued runs mount
only what the grants can read. -/
structure Narrow (grants : Option CapabilityGrants) (chain : Chain) :
    Prop extends NeverWidens grants chain where
  mounted : ∀ record ∈ chain.sandboxes, ReadableSources grants record.mounts
  queued : ∀ run ∈ chain.queue, ReadableSources grants run.mounts

section

variable {grants : Option CapabilityGrants} {chain next : Chain}
  {workspace : Sandboxes.Workspace} {driver : Driver}

theorem narrow_originChain (origin : LiveRun) :
    Narrow origin.ctx.grants (originChain origin) := by
  constructor
  · constructor
    · intro access member
      cases member
    · intro run member
      rw [List.mem_singleton.mp member]
  · intro record member
    cases member
  · intro run member
    cases member

theorem narrow_after {base : Chain} {work : Tracing Chain} (narrow : Narrow grants base)
    (confined : Traced.Confined (reach grants) (fun next => Narrow grants next) work) :
    Narrow grants (base.after work) := by
  have opened : ∀ access ∈ base.trace ++ work.trace, access ∈ reach grants := by
    intro access member
    rcases List.mem_append.mp member with earlier | later
    · exact narrow.opened access earlier
    · exact confined.events access later
  rw [Chain.after]
  cases ended : work.outcome with
  | error thrown => exact ⟨⟨opened, narrow.inForce⟩, narrow.mounted, narrow.queued⟩
  | ok next =>
    have kept := confined.returns next ended
    exact ⟨⟨opened, kept.inForce⟩, kept.mounted, kept.queued⟩

theorem narrow_start {runs : List LiveRun} (narrow : Narrow grants chain)
    (inForce : ∀ run ∈ runs, reach run.ctx.grants ⊆ reach grants) :
    Narrow grants (chain.start runs) := by
  refine ⟨⟨narrow.opened, ?_⟩, narrow.mounted, narrow.queued⟩
  intro run member
  rcases List.mem_append.mp member with earlier | started
  · exact narrow.inForce run earlier
  · exact inForce run started

theorem narrow_destroy (narrow : Narrow grants chain) (id : Text) :
    Narrow grants (chain.destroy id) := by
  refine ⟨⟨narrow.opened, narrow.inForce⟩, ?_, narrow.queued⟩
  intro record member
  obtain ⟨old, stored, same⟩ := List.mem_map.mp member
  have readable := narrow.mounted old stored
  by_cases hit : old.id = id
  · rw [if_pos hit] at same
    rw [← same]
    exact readable
  · rw [if_neg hit] at same
    rw [← same]
    exact readable

variable {record : SandboxRecord}

theorem narrow_saveSandbox {old : SandboxRecord} (narrow : Narrow grants chain)
    (sameId : record.id = old.id)
    (sources : ∀ mount ∈ record.mounts, ∃ before ∈ old.mounts,
      mount.workspaceSource = before.workspaceSource)
    (known : ReadableSources grants old.mounts ∨ ∀ other ∈ chain.sandboxes, other.id ≠ old.id) :
    Narrow grants (chain.saveSandbox record) := by
  refine ⟨⟨narrow.opened, narrow.inForce⟩, ?_, narrow.queued⟩
  intro saved member
  obtain ⟨other, stored, same⟩ := List.mem_map.mp member
  by_cases hit : other.id = record.id
  · rw [if_pos hit] at same
    rcases known with readable | foreign
    · intro mount inSaved source named
      rw [← same] at inSaved
      obtain ⟨before, inOld, sameSource⟩ := sources mount inSaved
      rw [sameSource] at named
      exact readable before inOld source named
    · exact absurd (hit.trans sameId) (foreign other stored)
  · rw [if_neg hit] at same
    rw [← same]
    exact narrow.mounted other stored

theorem confined_vfsOpen (ctx : Workflows.RunContext) (call : VfsCall)
    (within : reach ctx.grants ⊆ reach grants)
    (condition : NarrowCall grants workspace ctx (.vfs call)) :
    Traced.Confined (reach grants) (fun _ => True)
      (vfsOpen workspace.workflows.toWorkspace ctx call) := by
  have readable : ∀ value path, Vfs.readPath ctx.toServiceContext workspace.workflows.toWorkspace
        value = .ok path → .read path ∈ reach grants := by
    intro value path passes
    exact within (Vfs.readPath_eq_ok_iff.mp passes).2.1
  have writable : ∀ value path, Vfs.mutationPath ctx.toServiceContext
        workspace.workflows.toWorkspace value = .ok path →
        .write path ∈ reach grants := by
    intro value path passes
    exact within (Vfs.mutationPath_eq_ok_iff.mp passes).2.1
  cases call with
  | read value =>
    refine Traced.confined_checked.mpr ?_
    intro path passes
    exact Traced.confined_report (readable value path passes)
  | stat value =>
    refine Traced.confined_checked.mpr ?_
    intro path passes
    exact Traced.confined_report (readable value path passes)
  | write value =>
    refine Traced.confined_checked.mpr ?_
    intro path passes
    exact Traced.confined_report (writable value path passes)
  | delete value recursive =>
    refine Traced.confined_checked.mpr ?_
    intro path passes
    apply Traced.confined_bind (Traced.confined_report (writable value path passes))
    intro _ _
    cases recursive with
    | false => exact Traced.confined_pure trivial
    | true =>
      apply Traced.confined_foldlM _ trivial
      intro _ file member _
      exact Traced.confined_report (condition path passes file member)

variable {mounts : List SandboxMount}

theorem readableSources_of_admitted {own : Option CapabilityGrants}
    (within : pathReach own ⊆ pathReach grants)
    (admitted : ∀ mount ∈ mounts, Admitted own mount) :
    ReadableSources grants mounts := by
  intro mount member source named
  have readable := (admitted mount member source named).1
  exact (within (read_mem_pathReach.mpr readable)).1

variable {ctx : Workflows.RunContext}

/-- The grants that a sandbox is declared under reach no more of the file
tree. -/
theorem pathReach_of_resolveGrants {agent : Option Text} {own : Option CapabilityGrants}
    (within : reach ctx.grants ⊆ reach grants) (condition : NarrowMounts grants workspace agent)
    (resolved : resolveGrants workspace.workflows ctx agent = .ok own) :
    pathReach own ⊆ pathReach grants := by
  rcases resolveGrants_ok resolved with
    rfl | ⟨name, profile, named, found, bounded, rfl⟩
  · exact pathReach_mono within
  · exact condition name profile named found bounded

theorem readsOfAny_subset_reach (readable : ReadableSources grants mounts) (store : Store) :
    readsOfAny store mounts ⊆ reach grants := by
  rintro access ⟨mount, member, opened⟩
  exact readsOf_subset_reach (readable mount member) store opened

theorem readableSources_of_sameMounts {before after : List SandboxMount}
    (readable : ReadableSources grants before) (same : SameMounts before after) :
    ReadableSources grants after := by
  intro mount member source named
  obtain ⟨old, stored, sameMount⟩ := same mount member
  rw [sameMount.1] at named
  exact readable old stored source named

theorem confined_provisionSandbox (store : Store) (id userId : Text)
    (session : Option ChatSessionRecord) (agent : Option Text)
    (readable : ReadableSources grants mounts) :
    Traced.Confined (reach grants) (fun record => ReadableSources grants record.mounts)
      (provisionSandbox store driver id userId mounts session agent) := by
  rw [provisionSandbox]
  apply Traced.confined_bind ((confined_materializeAll store driver mounts).weaken
      (readsOfAny_subset_reach readable store) fun _ same => same)
  intro after same
  exact Traced.confined_pure (readableSources_of_sameMounts readable same)

theorem confined_sandboxesCreate (id : Text) {args : CreateArgs}
    (within : reach ctx.grants ⊆ reach grants)
    (condition : NarrowMounts grants workspace args.agent) :
    Traced.Confined (reach grants) (fun record => ReadableSources grants record.mounts)
      (sandboxesCreate workspace driver ctx id args) := by
  simp only [sandboxesCreate, Traced.confined_checked]
  intro _ _ own resolved mounts applied session _
  apply confined_provisionSandbox
  exact readableSources_of_admitted (pathReach_of_resolveGrants within condition resolved)
    (admitted_applyDefaultMounts applied)

theorem confined_sandboxesSchedule (id : Text) {args : ScheduleArgs}
    (within : reach ctx.grants ⊆ reach grants)
    (condition : NarrowMounts grants workspace args.agent) :
    Traced.Confined (reach grants) (fun run => ReadableSources grants run.mounts)
      (sandboxesSchedule workspace ctx id args) := by
  rw [sandboxesSchedule, Traced.confined_checked]
  intro _ _
  split
  · exact Traced.confined_raise _
  · simp only [Traced.confined_checked]
    intro workflow _ own resolved mounts applied session _
    apply Traced.confined_pure
    exact readableSources_of_admitted (pathReach_of_resolveGrants within condition resolved)
      (admitted_applyDefaultMounts applied)

/-- A record that a call named, with what is known of its sources. -/
def Known (grants : Option CapabilityGrants) (chain : Chain) (record : SandboxRecord) : Prop :=
  ReadableSources grants record.mounts ∨ ∀ other ∈ chain.sandboxes, other.id ≠ record.id

theorem known_of_requireSandbox {id : Text} (narrow : Narrow grants chain)
    (found : requireSandbox (chain.records workspace) id = .ok record) :
    Known grants chain record := by
  have searched :
      (chain.sandboxes ++ workspace.sandboxes).find? (·.id = id) =
        some record ∧ record.id = id := by
    unfold requireSandbox Chain.records at found
    split at found
    · cases found
    · split at found
      · cases found
      · next other stored =>
          split at found
          · cases found
          · cases found
            exact ⟨stored, by simpa using List.find?_some stored⟩
  rw [List.find?_append] at searched
  obtain ⟨first, sameId⟩ := searched
  cases own : chain.sandboxes.find? (·.id = id) with
  | some other =>
    rw [own] at first
    cases first
    exact Or.inl (narrow.mounted record (List.mem_of_find?_eq_some own))
  | none =>
    right
    intro other member
    have absent := List.find?_eq_none.mp own other member
    rw [sameId]
    simpa using absent

theorem confined_sandboxesSync {ctx : Workflows.RunContext} {id : Text} {mount : Option Text}
    (narrow : Narrow grants chain)
    (condition : NarrowCall grants workspace ctx (.sandboxesSync id mount)) :
    Traced.Confined (reach grants)
      (fun record => ∃ old, Known grants chain old ∧ record.id = old.id ∧
        ∀ after ∈ record.mounts, ∃ before ∈ old.mounts,
          after.workspaceSource = before.workspaceSource)
      (sandboxesSync workspace (chain.records workspace) driver ctx id mount) := by
  simp only [sandboxesSync, Traced.confined_checked]
  intro _ _ record found targets selected
  have opened : readsOfAny workspace.workflows.store targets ⊆ reach grants := by
    rcases List.mem_append.mp (requireSandbox_mem found) with own | foreign
    · apply readsOfAny_subset_reach
      intro target member
      exact narrow.mounted record own target (mountsFor_subset selected member)
    · exact condition record foreign targets selected
  apply Traced.confined_bind ((confined_materializeAll workspace.workflows.store driver
      targets).weaken opened fun _ same => same)
  intro mounts _
  apply Traced.confined_pure
  exact ⟨record, known_of_requireSandbox narrow found, rfl, sources_withMounts record mounts⟩

/-- A commit under some grants writes what they permit of the changed
paths. -/
theorem confined_sandboxesCommit {records : List SandboxRecord} {ctx : Workflows.RunContext}
    {id : Text} {mount : Option Text}
    (written : ∀ record targets, requireSandbox records id = .ok record →
      mountsFor record mount = .ok targets →
      reach ctx.grants ∩ writesOfAny driver (targets.filter (·.track)) ⊆ reach grants) :
    Traced.Confined (reach grants) (fun record => ∃ old, requireSandbox records id = .ok old ∧
        record.id = old.id ∧
        ∀ after ∈ record.mounts, ∃ before ∈ old.mounts,
          after.workspaceSource = before.workspaceSource)
      (sandboxesCommit workspace records driver ctx id mount) := by
  simp only [sandboxesCommit, Traced.confined_checked]
  intro _ _ record found session _ targets selected
  split
  · exact Traced.confined_raise _
  · apply Traced.confined_bind ((confined_commitAll ctx.grants workspace.workflows.store driver
        _).weaken (written record targets found selected)
        fun _ same => same)
    intro mounts _
    apply Traced.confined_pure
    exact ⟨record, found, rfl, sources_withMounts record mounts⟩

theorem confined_perform {call : ToolCall} (narrow : Narrow grants chain)
    (within : reach ctx.grants ⊆ reach grants)
    (condition : NarrowCall grants workspace ctx call) :
    Traced.Confined (reach grants) (fun next => Narrow grants next)
      (perform workspace driver chain ctx call) := by
  cases call with
  | vfs call =>
    apply Traced.confined_bind (confined_vfsOpen ctx call within condition)
    intro _ _
    exact Traced.confined_pure narrow
  | workflowsRun name agent =>
    refine Traced.confined_checked.mpr ?_
    intro started runs
    apply Traced.confined_pure
    apply narrow_start narrow
    intro run member
    cases started with
    | none => cases member
    | some ctx =>
      rw [List.mem_singleton.mp member]
      obtain ⟨shallow, registration, found, own⟩ :=
        grants_of_workflowsRun runs
      exact condition shallow registration found ctx.grants own
  | eventsEmit channel =>
    apply Traced.confined_pure
    apply narrow_start narrow
    intro run member
    obtain ⟨started, emitted, rfl⟩ := List.mem_map.mp member
    obtain ⟨shallow, registration, stored, listens, own⟩ :=
      grants_of_eventsEmit emitted
    exact condition shallow registration stored listens started.grants own
  | sandboxesCreate id args =>
    apply Traced.confined_bind (confined_sandboxesCreate id within condition)
    intro record readable
    apply Traced.confined_pure
    refine ⟨⟨narrow.opened, narrow.inForce⟩, ?_, narrow.queued⟩
    intro other member
    rcases List.mem_append.mp member with earlier | new
    · exact narrow.mounted other earlier
    · rw [List.mem_singleton.mp new]
      exact readable
  | sandboxesUse use id =>
    simp only [perform, Traced.confined_checked]
    intro _ _ _ _
    exact Traced.confined_pure narrow
  | sandboxesSync id mount =>
    apply Traced.confined_bind (confined_sandboxesSync narrow condition)
    rintro record ⟨old, known, sameId, sources⟩
    exact Traced.confined_pure (narrow_saveSandbox narrow sameId sources known)
  | sandboxesCommit id mount =>
    apply Traced.confined_bind (confined_sandboxesCommit
      fun _ _ _ _ => Set.inter_subset_left.trans within)
    rintro record ⟨old, found, sameId, sources⟩
    exact Traced.confined_pure (narrow_saveSandbox narrow sameId sources
        (known_of_requireSandbox narrow found))
  | sandboxesSchedule id args =>
    apply Traced.confined_bind (confined_sandboxesSchedule id within condition)
    intro run readable
    apply Traced.confined_pure
    refine ⟨⟨narrow.opened, narrow.inForce⟩, narrow.mounted, ?_⟩
    intro other member
    rcases List.mem_append.mp member with earlier | new
    · exact narrow.queued other earlier
    · rw [List.mem_singleton.mp new]
      exact readable
  | other toolNamespace procedure => exact Traced.confined_pure narrow

theorem confined_invokeTool {run : LiveRun} {call : ToolCall} (narrow : Narrow grants chain)
    (within : reach run.ctx.grants ⊆ reach grants)
    (condition : NarrowCall grants workspace run.ctx call) :
    Traced.Confined (reach grants) (fun next => Narrow grants next)
      (invokeTool workspace driver chain run call) := by
  rw [invokeTool]
  simp only [Traced.confined_checked]
  intro _ _ _ granted
  have inside : Access.tool call.target.1 call.target.2 ∈ reach grants :=
    within (assertToolGranted_eq_ok_iff.mp granted)
  apply Traced.confined_bind (Traced.confined_report inside)
  intro _ _
  exact confined_perform narrow within condition

theorem narrow_claimStep {run : SandboxRun} (step : Step) (position : Nat)
    (id freshSession : Text) (narrow : Narrow grants chain) (queued : run ∈ chain.queue) :
    Narrow grants (claimStep step chain position id freshSession run) := by
  have taken : Narrow grants { chain with queue := chain.queue.eraseIdx position } := by
    refine ⟨⟨narrow.opened, narrow.inForce⟩, narrow.mounted, ?_⟩
    intro other member
    exact narrow.queued other (List.mem_of_mem_eraseIdx member)
  have provisioned : Traced.Confined (reach grants)
      (fun record => ReadableSources grants record.mounts)
      (provisionClaimedRun step.workspace step.driver id freshSession run) := by
    rw [provisionClaimedRun]
    rw [Traced.confined_checked]
    intro session _
    exact confined_provisionSandbox _ _ _ _ _ (narrow.queued run queued)
  apply narrow_after taken
  apply Traced.confined_bind provisioned
  intro record readable
  apply Traced.confined_pure
  refine ⟨⟨taken.opened, taken.inForce⟩, ?_, taken.queued⟩
  intro other member
  rcases List.mem_append.mp member with earlier | new
  · exact taken.mounted other earlier
  · rw [List.mem_singleton.mp new]
    exact readable

theorem confined_launchClaimedRun
    {run : SandboxRun} (condition : NarrowLaunch grants workspace run) :
    Traced.Confined (reach grants) (fun started => ∀ live ∈ started,
        reach live.ctx.grants ⊆ reach grants)
      (launchClaimedRun workspace run) := by
  unfold NarrowLaunch at condition
  unfold launchClaimedRun
  cases work : run.workflow with
  | some workflow =>
    rw [work] at condition
    rw [Traced.confined_checked]
    intro started runs
    apply Traced.confined_pure
    intro live member
    obtain ⟨ctx, rfl, same⟩ := Option.map_eq_some_iff.mp member
    obtain ⟨_, registration, found, own⟩ :=
      grants_of_runWorkflowByName runs
    rw [← same]
    exact condition registration found ctx.grants own
  | none =>
    rw [work] at condition
    have opened :
        { access | ∃ profile, readAgentProfile workspace.workflows (run.agent.getD []) =
              some profile ∧
            access ∈ layerReads workspace.workflows.store profile } ⊆
          reach grants := by
      rintro access ⟨profile, found, read⟩
      exact (condition profile found).2 read
    apply Traced.confined_bind ((confined_agentsRun workspace.workflows (claimedContext run)
        (run.agent.getD []) true).weaken opened fun _ holds => holds)
    rintro started ⟨profile, found, own⟩
    apply Traced.confined_pure
    intro live member
    cases member
    have sameGrants : started.ctx.grants = runGrants profile true := by
      rw [own]
      simp [claimedContext]
    rw [sameGrants]
    exact (condition profile found).1

theorem narrow_launchStep {claimed : ClaimedRun} (step : Step) (position : Nat)
    (narrow : Narrow grants chain) (condition : NarrowLaunch grants step.workspace claimed.run) :
    Narrow grants (launchStep step chain position claimed) := by
  have failed := narrow_destroy narrow claimed.sandbox
  apply narrow_after
  · exact ⟨⟨failed.opened, failed.inForce⟩, failed.mounted, failed.queued⟩
  · apply Traced.confined_bind (confined_launchClaimedRun condition)
    intro started inForce
    have kept := narrow_start narrow
      (fun run member => inForce run (Option.mem_toList.mp member))
    apply Traced.confined_pure
    exact ⟨⟨kept.opened, kept.inForce⟩, kept.mounted, kept.queued⟩

theorem narrow_finishStep {claimed : ClaimedRun} (step : Step) (position : Nat)
    (narrow : Narrow grants chain) (condition :
      writesOfAny step.driver (record.mounts.filter (·.track)) ⊆ reach grants) :
    Narrow grants (finishStep step chain position claimed record) := by
  have destroyed := narrow_destroy narrow claimed.sandbox
  have done : Narrow grants { chain.destroy claimed.sandbox with
      claimed := chain.claimed.eraseIdx position } :=
    ⟨⟨destroyed.opened, destroyed.inForce⟩, destroyed.mounted, destroyed.queued⟩
  have committed : Traced.Confined (reach grants) (fun _ => True)
      (finishClaimedRun step.workspace step.driver claimed.run record) := by
    rw [finishClaimedRun]
    split
    · apply (confined_sandboxesCommit _).weaken (Set.Subset.refl _) (fun _ _ => trivial)
      intro other targets found selected
      have same := List.mem_singleton.mp (requireSandbox_mem found)
      cases selected
      rw [same]
      exact Set.inter_subset_right.trans condition
    · exact Traced.confined_pure trivial
  apply narrow_after done
  apply Traced.confined_bind committed
  intro _ _
  exact Traced.confined_pure done

theorem narrow_takeStep {step : Step} (narrow : Narrow grants chain)
    (condition : NarrowStep grants chain step) (taken : takeStep chain step = some next) :
    Narrow grants next := by
  unfold takeStep at taken
  unfold NarrowStep at condition
  cases act : step.act with
  | call position call =>
    rw [act] at taken condition
    obtain ⟨run, live, rfl⟩ := Option.map_eq_some_iff.mp taken
    have within := narrow.inForce run (mem_of_getElem?_eq_some live)
    exact narrow_after narrow (confined_invokeTool narrow within (condition run live))
  | claim position id freshSession =>
    rw [act] at taken
    obtain ⟨run, queued, rfl⟩ := Option.map_eq_some_iff.mp taken
    exact narrow_claimStep step position id freshSession narrow (mem_of_getElem?_eq_some queued)
  | launch position =>
    rw [act] at taken condition
    obtain ⟨claimed, waiting, rest⟩ := Option.bind_eq_some_iff.mp taken
    split at rest
    · cases rest
    · cases rest
      exact narrow_launchStep step position narrow (condition claimed waiting)
  | finish position =>
    rw [act] at taken condition
    obtain ⟨claimed, running, rest⟩ := Option.bind_eq_some_iff.mp taken
    split at rest
    · obtain ⟨record, found, rfl⟩ := Option.map_eq_some_iff.mp rest
      have sameId : record.id = claimed.sandbox := by simpa using List.find?_some found
      exact narrow_finishStep step position narrow (condition claimed running record
          (List.mem_of_find?_eq_some found) sameId)
    · cases rest

end

/-- Along every chain whose steps stay narrow, no dispatch, no opened path
and no run goes beyond the grants of the run that the chain started from. -/
theorem delegation_never_widens {origin : LiveRun} {steps : List Step} {chain : Chain}
    (narrow : StepsMeet takeStep (NarrowStep origin.ctx.grants) (originChain origin) steps)
    (executed : runFrom takeStep (originChain origin) steps = some chain) :
    NeverWidens origin.ctx.grants chain :=
  (invariant_of_stepsMeet (Narrow origin.ctx.grants)
    (fun _ _ _ holds condition taken => narrow_takeStep holds condition taken)
    (narrow_originChain origin) narrow executed).toNeverWidens

def secretKey : FsRow where
  path := "secrets/key".toList
  hash := "h".toList
  content := "text".toList
  mimeType := "text/plain".toList
  size := 4
  updatedAt := 0
  versioned := true

/-- The documents are writable but for a locked folder. -/
def writersGrants : CapabilityGrants where
  tools := some ["vfs.*".toList, "sandboxes.*".toList, "workflows.run".toList]
  paths := some [⟨"docs".toList, .rw⟩, ⟨"docs/locked".toList, .ro⟩]

def writer : LiveRun where
  ctx := {
    userId := "ann".toList
    appScope := none
    grants := some writersGrants
    workflowDepth := none }
  offered := none

def scribe : AgentProfile where
  name := "scribe".toList
  grants := some writersGrants
  mounts := []

/-- One secret file, a workflow without an agent, an agent that reaches
every path and one with the writer's grants. -/
def office : Sandboxes.Workspace where
  workflows := {
    store := {
      backend := .sqlite
      rows := [secretKey]
      keys := by decide }
    records := {
      appInstance := fun _ => none
      installHosting := fun _ _ => none
      isMember := fun _ _ => true
      shares := []
      now := 0 }
    shares := []
    mounts := []
    registrations := [{
      name := "job".toList
      scriptPath := "job.js".toList
      script := some "return 1".toList
      events := []
      agent := none
      createdBy := "ann".toList }]
    exportedBy := fun _ => []
    agents := [
      { name := "roamer".toList
        grants := some ⟨none, some [⟨[], .rw⟩]⟩
        mounts := [] },
      scribe] }
  defaultMounts := []
  sessions := []
  sandboxes := []

/-- A host whose sandboxes hold one new file. -/
def laptop : Driver where
  workdir := "/work".toList
  writeFile := fun _ _ => .ok ()
  readFile := fun _ => .ok (some ⟨some "text".toList, false⟩)
  listFiles := fun _ => .ok [("locked/plan.md".toList, "h".toList)]
  cloneRepo := fun _ => .ok []
  deliver := fun _ _ => .ok ()

def inOffice (act : Act) : Step where
  workspace := office
  driver := laptop
  act := act

def scribesSteps : List Step :=
  [inOffice (.call 0 (.workflowsRun "job".toList (some "scribe".toList))),
    inOffice (.call 1 (.vfs (.write (some "docs/plan.md".toList))))]

theorem delegation_never_widens_scribe :
    ∃ chain, runFrom takeStep (originChain writer) scribesSteps = some chain ∧
      chain.runs.length = 2 ∧
      NeverWidens (some writersGrants) chain := by
  have ran :
      (runFrom takeStep (originChain writer) scribesSteps).map (·.runs.length) = some 2 := by
    decide +kernel
  obtain ⟨chain, executed, count⟩ := Option.map_eq_some_iff.mp ran
  refine ⟨chain, executed, count, ?_⟩
  have narrow : StepsMeet takeStep (NarrowStep writer.ctx.grants)
      (originChain writer) scribesSteps := by
    refine ⟨?_, fun next taken => ⟨fun run live => trivial, fun next taken => trivial⟩⟩
    intro run live shallow registration found own ofAgent
    obtain ⟨profile, read, rfl⟩ := ofAgent
    have stored : readAgentProfile office.workflows "scribe".toList = some scribe := by rfl
    have same : some scribe = some profile := stored.symm.trans read
    cases same
    exact Set.Subset.refl _
  exact delegation_never_widens narrow executed

def mountOf (path source : Text) : DeclaredMounts :=
  .entries [some ⟨.text path, some source, none⟩]

/-- A sandbox with the files of another agent, a workflow without an agent,
and a scheduled run over the documents. -/
def wideningSteps : List Step :=
  [inOffice (.call 0 (.sandboxesCreate "box".toList ⟨mountOf "all".toList "secrets".toList, none,
        some "roamer".toList⟩)),
    inOffice (.call 0 (.workflowsRun "job".toList none)),
    inOffice (.call 1 (.vfs (.write (some "secrets/key".toList)))),
    inOffice (.call 0 (.sandboxesSchedule "run".toList
      ⟨"@aprovan/native".toList, some "job".toList,
        mountOf "work".toList "docs".toList, none, none⟩)),
    inOffice (.claim 0 "unattended".toList "draft".toList),
    inOffice (.launch 0),
    { inOffice (.finish 0) with
      -- the draft chat that the claimed run opened
      workspace := { office with sessions := [⟨"draft".toList, true⟩] } }]

/-- A delegation can reach what the writer cannot: the named agent's mount
reads a secret, the workflow without an agent writes it, and the scheduled
run commits into the locked folder. -/
theorem delegation_widens :
    ¬ ∀ (grants : CapabilityGrants) (origin : LiveRun) (steps : List Step) (chain : Chain),
      origin.ctx.grants = some grants →
      runFrom takeStep (originChain origin) steps = some chain →
      NeverWidens (some grants) chain := by
  intro law
  have traced : (runFrom takeStep (originChain writer) wideningSteps).map (·.trace) =
      some [.tool "sandboxes".toList "create".toList, .read "secrets/key".toList,
        .tool "workflows".toList "run".toList,
        .tool "vfs".toList "write".toList,
        .write "secrets/key".toList,
        .tool "sandboxes".toList "schedule".toList,
        .write "docs/locked/plan.md".toList] := by
    decide +kernel
  obtain ⟨chain, executed, opened⟩ := Option.map_eq_some_iff.mp traced
  have holds := law writersGrants writer wideningSteps chain rfl executed
  have reached := holds.opened (.read "secrets/key".toList) (by
    rw [opened]
    decide)
  rw [mem_reach] at reached
  revert reached
  decide +kernel

end Aprovan.Delegation
