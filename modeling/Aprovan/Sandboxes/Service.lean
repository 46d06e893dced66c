import Aprovan.Agents.Run

/-!
# The sandbox procedures

Creating a sandbox, moving files between it and the workspace, and queueing
a run.  A named agent's grants take the place of the caller's where mounts
are declared; a claimed run is executed in a context without grants.
-/

namespace Aprovan.Sandboxes

open Aprovan.Library Aprovan.Server Aprovan.Fs Aprovan.Grants Aprovan.Workflows Aprovan.Agents

inductive SandboxRecordStatus where
  | running
  | destroyed
  deriving DecidableEq

structure SandboxRecord where
  id : Text
  status : SandboxRecordStatus
  mounts : List SandboxMount
  (sessionId agent : Option Text)
  createdBy : Text

structure ChatSessionRecord where
  id : Text
  staged : Bool

/-- A run waiting for a host. -/
structure SandboxRun where
  (id image : Text)
  workflow : Option Text
  mounts : List SandboxMount
  (agent sessionId : Option Text)
  createdBy : Text

/-- A workspace as a call finds it.  `sandboxes` are the records that other
callers made. -/
structure Workspace extends workflows : Workflows.Workspace where
  defaultMounts : List MountDeclaration
  sessions : List ChatSessionRecord
  sandboxes : List SandboxRecord

def workspaceOnly : ServiceError where
  message := "Sandbox operations are workspace-only".toList
  status := 403

def unknownSession (id : Text) : ServiceError where
  message := "Unknown session: ".toList ++ id
  status := 404

def autoSession (id : Text) : ServiceError where
  message := "Session ".toList ++ id ++
    " is an auto chat — sandbox commits need a draft chat ".toList ++
    "(sessions.create \x7b mode: \"staged\" \x7d) so the work can be ".toList ++
    "reviewed before it lands".toList
  status := 400

def badSandboxId : ServiceError where
  message := "id must match /^[A-Za-z0-9][\\w-]\x7b0,63\x7d$/u".toList
  status := 400

def unknownSandbox (id : Text) : ServiceError where
  message := "Unknown sandbox: ".toList ++ id
  status := 404

def destroyedSandbox (id : Text) : ServiceError where
  message := "Sandbox ".toList ++ id ++ " was destroyed".toList
  status := 410

def noSuchMount (id name : Text) : ServiceError where
  message := "Sandbox ".toList ++ id ++ " has no mount \"".toList ++ name ++ "\"".toList
  status := 404

def nothingToCommit (id : Text) : ServiceError where
  message := "Sandbox ".toList ++ id ++
    " has no writable workspace mounts — nothing to commit".toList
  status := 400

def imageRequired : ServiceError where
  message := "schedule requires \x7b image \x7d — it is what decides ".toList ++
    "which machines may take the run".toList
  status := 400

def workRequired : ServiceError where
  message :=
    "schedule requires \x7b workflow \x7d or \x7b agent \x7d — ".toList ++
    "the work to run in the sandbox".toList
  status := 400

/-- App sessions have no business with sandboxes. -/
def requireWorkspaceCaller (ctx : Workflows.RunContext) : Outcome Unit :=
  if ctx.appScope.isSome then .error workspaceOnly else .ok ()

/-- The grants that govern a sandbox: an explicitly named agent profile's,
else the caller's own. -/
def resolveGrants (workspace : Workflows.Workspace) (ctx : Workflows.RunContext)
    (agent : Option Text) : Outcome (Option CapabilityGrants) :=
  match agent.filter (· ≠ []) with
  | none => .ok ctx.grants
  | some name =>
    match readAgentProfile workspace name with
    | none => .error (unknownAgent name)
    | some profile => .ok (profile.grants <|> ctx.grants)

variable (workspace : Workspace)

/-- A sandbox may write into a chat only if that chat is staged. -/
def resolveSession (id : Option Text) : Outcome (Option ChatSessionRecord) :=
  match id.filter (· ≠ []) with
  | none => .ok none
  | some id =>
    match workspace.sessions.find? (·.id = id) with
    | none => .error (unknownSession id)
    | some session =>
      if session.staged then .ok (some session) else .error (autoSession id)

/-- `ID_RE`. -/
def isSandboxId : Text → Bool
  | [] => false
  | first :: rest =>
    first.isAlphanum && rest.length ≤ 63 &&
      rest.all fun letter => isWordLetter letter || letter = '-'

def requireSandbox (records : List SandboxRecord) (id : Text) : Outcome SandboxRecord :=
  if isSandboxId id = false then .error badSandboxId
  else
    match records.find? (·.id = id) with
    | none => .error (unknownSandbox id)
    | some record =>
      if record.status = .destroyed then .error (destroyedSandbox id) else .ok record

def mountsFor (record : SandboxRecord) (name : Option Text) : Outcome (List SandboxMount) :=
  match name.filter (· ≠ []) with
  | none => .ok record.mounts
  | some name =>
    match record.mounts.find? (·.path = name) with
    | none => .error (noSuchMount record.id name)
    | some mount => .ok [mount]

/-- Put the mounts that a call worked on back into their record. -/
def SandboxRecord.withMounts (record : SandboxRecord) (mounts : List SandboxMount) :
    SandboxRecord :=
  { record with
    mounts := record.mounts.map fun mount =>
      (mounts.find? fun other =>
        other.path = mount.path && other.workspaceSource = mount.workspaceSource).getD mount }

structure CreateArgs where
  mounts : DeclaredMounts
  (session agent : Option Text)

/-- Start a sandbox and hand it the files its mounts declare. -/
def provisionSandbox (store : Store) (driver : Driver) (id userId : Text)
    (mounts : List SandboxMount) (session : Option ChatSessionRecord) (agent : Option Text) :
    Tracing SandboxRecord := do
  let mounts ← materializeAll store driver mounts
  return {
    id := id
    status := .running
    mounts := mounts
    sessionId := session.map (·.id)
    agent := agent
    createdBy := userId }

def sandboxesCreate (driver : Driver) (ctx : Workflows.RunContext) (id : Text)
    (args : CreateArgs) :
    Tracing SandboxRecord := do
  Traced.check (requireWorkspaceCaller ctx)
  let grants ← Traced.check (resolveGrants workspace.workflows ctx args.agent)
  let mounts ← Traced.check (applyDefaultMounts workspace.defaultMounts args.mounts grants)
  let session ← Traced.check (resolveSession workspace args.session)
  provisionSandbox workspace.store driver id ctx.userId mounts session args.agent

def sandboxesSync (records : List SandboxRecord) (driver : Driver)
    (ctx : Workflows.RunContext) (id : Text) (mount : Option Text) :
    Tracing SandboxRecord := do
  Traced.check (requireWorkspaceCaller ctx)
  let record ← Traced.check (requireSandbox records id)
  let targets ← Traced.check (mountsFor record mount)
  let mounts ← materializeAll workspace.store driver targets
  return record.withMounts mounts

def commitAll (grants : Option CapabilityGrants) (store : Store)
    (driver : Driver) (mounts : List SandboxMount) :
    Tracing (List SandboxMount) :=
  mounts.foldlM (fun done mount => do
    let answer ← commitMount grants store driver mount
    return done ++ [answer.1]) []

def sandboxesCommit (records : List SandboxRecord) (driver : Driver)
    (ctx : Workflows.RunContext) (id : Text) (mount : Option Text) :
    Tracing SandboxRecord := do
  Traced.check (requireWorkspaceCaller ctx)
  let record ← Traced.check (requireSandbox records id)
  let _ ← Traced.check (resolveSession workspace record.sessionId)
  let targets ← Traced.check (mountsFor record mount)
  let tracked := targets.filter (·.track)
  if tracked = [] then Traced.raise (nothingToCommit record.id)
  else do
    let mounts ← commitAll ctx.grants workspace.store driver tracked
    return record.withMounts mounts

structure ScheduleArgs where
  image : Text
  workflow : Option Text
  mounts : DeclaredMounts
  (agent session : Option Text)

/-- The work of a scheduled run: a workflow, which may be left out when an
agent is named. -/
def scheduledWorkflow (args : ScheduleArgs) : Outcome (Option Text) :=
  match args.agent.filter (· ≠ []) with
  | some _ => .ok (args.workflow.filter (· ≠ []))
  | none =>
    if trim (args.workflow.getD []) = [] then .error workRequired else .ok args.workflow

def sandboxesSchedule (ctx : Workflows.RunContext) (id : Text) (args : ScheduleArgs) :
    Tracing SandboxRun := do
  Traced.check (requireWorkspaceCaller ctx)
  if args.image = [] then Traced.raise imageRequired
  else do
    let workflow ← Traced.check (scheduledWorkflow args)
    let grants ← Traced.check (resolveGrants workspace.workflows ctx args.agent)
    let mounts ← Traced.check (applyDefaultMounts workspace.defaultMounts args.mounts grants)
    let session ← Traced.check (resolveSession workspace args.session)
    return {
      id := id
      image := args.image
      workflow := workflow
      mounts := mounts
      agent := args.agent.filter (· ≠ [])
      sessionId := session.map (·.id)
      createdBy := ctx.userId }

def claimedContext (run : SandboxRun) : Workflows.RunContext where
  userId := run.createdBy
  appScope := none
  grants := none
  workflowDepth := none

def claimedSession (fresh : Text) (id : Option Text) : Outcome ChatSessionRecord :=
  match id with
  | none => .ok { id := fresh, staged := true }
  | some named =>
    match workspace.sessions.find? (·.id = named) with
    | none => .error (unknownSession named)
    | some session => .ok session

/-- The first part of `executeClaimedRun`: a session, new and staged unless
the run names one, and the sandbox. -/
def provisionClaimedRun (driver : Driver) (id freshSession : Text) (run : SandboxRun) :
    Tracing SandboxRecord := do
  let session ← Traced.check (claimedSession workspace freshSession run.sessionId)
  provisionSandbox workspace.store driver id run.createdBy run.mounts (some session) run.agent

/-- The second part: the workflow, or the loop of the agent.  `none` is a
run that is recorded as failed. -/
def launchClaimedRun (run : SandboxRun) : Tracing (Option LiveRun) :=
  match run.workflow with
  | some workflow => do
      let started ← Traced.check (runWorkflowByName workspace.workflows (claimedContext run)
          workflow run.agent)
      return started.map fun ctx => { ctx := ctx, offered := none }
  | none => do
      let started ← agentsRun workspace.workflows (claimedContext run) (run.agent.getD []) true
      return some started

/-- The last part: what changed in the sandbox is committed. -/
def finishClaimedRun (driver : Driver) (run : SandboxRun) (record : SandboxRecord) :
    Tracing SandboxRecord :=
  if record.mounts.any (·.track) then
    sandboxesCommit workspace [record] driver (claimedContext run) record.id none
  else return record

theorem resolveGrants_ok {workspace : Workflows.Workspace} {ctx : Workflows.RunContext}
    {agent : Option Text} {grants : Option CapabilityGrants}
    (resolved : resolveGrants workspace ctx agent = .ok grants) :
    grants = ctx.grants ∨ ∃ name profile, agent = some name ∧
        readAgentProfile workspace name = some profile ∧
        profile.grants.isSome ∧ grants = profile.grants := by
  unfold resolveGrants at resolved
  split at resolved
  · cases resolved
    exact Or.inl rfl
  · next name named =>
      split at resolved
      · cases resolved
      · next profile found =>
          cases resolved
          cases bounded : profile.grants with
          | none => exact Or.inl rfl
          | some own =>
            right
            have sameAgent := (Option.filter_eq_some_iff.mp named).1
            exact ⟨name, profile, sameAgent, found, by simp [bounded],
              by simp [bounded]⟩

/-- The files that materializing some mounts opens. -/
def readsOfAny (store : Store) (mounts : List SandboxMount) : Set Access :=
  { access | ∃ mount ∈ mounts, access ∈ readsOf store mount }

/-- Each mount is one of the old ones, up to its base. -/
def SameMounts (before after : List SandboxMount) : Prop :=
  ∀ mount ∈ after, ∃ old ∈ before, SameMount old mount

theorem confined_materializeAll (store : Store) (driver : Driver) (mounts : List SandboxMount) :
    Traced.Confined (readsOfAny store mounts) (SameMounts mounts)
      (materializeAll store driver mounts) := by
  apply Traced.confined_foldlM
  · intro mount member
    cases member
  · intro done mount member kept
    have inside : readsOf store mount ⊆ readsOfAny store mounts :=
      fun access opened => ⟨mount, member, opened⟩
    have materialize := (confined_materializeAnyMount store driver
      mount).weaken inside fun _ same => same
    apply Traced.confined_bind materialize
    intro after same
    apply Traced.confined_pure
    intro other belongs
    rcases List.mem_append.mp belongs with earlier | last
    · exact kept other earlier
    · rw [List.mem_singleton.mp last]
      exact ⟨mount, member, same⟩

def writesOfAny (driver : Driver) (mounts : List SandboxMount) : Set Access :=
  { access | ∃ mount ∈ mounts, access ∈ writesOf driver mount }

theorem confined_commitAll (grants : Option CapabilityGrants) (store : Store) (driver : Driver)
    (mounts : List SandboxMount) :
    Traced.Confined (reach grants ∩ writesOfAny driver mounts)
      (fun _ => True) (commitAll grants store driver mounts) := by
  apply Traced.confined_foldlM _ trivial
  intro done mount member _
  have inside : writesOf driver mount ⊆ writesOfAny driver mounts :=
    fun access written => ⟨mount, member, written⟩
  have commit := (confined_commitMount grants store driver mount).weaken
    (Set.inter_subset_inter_right (reach grants) inside)
    fun _ same => same
  apply Traced.confined_bind commit
  intro _ _
  exact Traced.confined_pure trivial

theorem mountsFor_subset {record : SandboxRecord} {name : Option Text}
    {mounts : List SandboxMount} (selected : mountsFor record name = .ok mounts) :
    mounts ⊆ record.mounts := by
  unfold mountsFor at selected
  split at selected
  · cases selected
    exact fun _ member => member
  · split at selected
    · cases selected
    · next mount found =>
        cases selected
        intro other member
        rw [List.mem_singleton.mp member]
        exact List.mem_of_find?_eq_some found

theorem requireSandbox_mem {records : List SandboxRecord} {id : Text} {record : SandboxRecord}
    (found : requireSandbox records id = .ok record) :
    record ∈ records := by
  unfold requireSandbox at found
  split at found
  · cases found
  · split at found
    · cases found
    · next other stored =>
        split at found
        · cases found
        · cases found
          exact List.mem_of_find?_eq_some stored

theorem sources_withMounts (record : SandboxRecord) (mounts : List SandboxMount) :
    ∀ mount ∈ (record.withMounts mounts).mounts, ∃ old ∈ record.mounts,
      mount.workspaceSource = old.workspaceSource := by
  intro mount member
  obtain ⟨old, stored, same⟩ := List.mem_map.mp member
  refine ⟨old, stored, ?_⟩
  rw [← same]
  cases found : mounts.find? fun other =>
      other.path = old.path && other.workspaceSource = old.workspaceSource with
  | none => rfl
  | some other =>
    have matched := List.find?_some found
    simp only [Bool.and_eq_true, decide_eq_true_eq] at matched
    exact matched.2

end Aprovan.Sandboxes
