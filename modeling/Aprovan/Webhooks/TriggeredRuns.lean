import Aprovan.Webhooks.Deliveries

/-!
# Runs that are triggered

A cron tick and a hook call run a workflow in the name of its creator, a
delivery runs the workflows of a webhook in the name of the webhook's user or
creator.  The runs that can be triggered in a state are a list; the routes
start no others.
-/

namespace Aprovan.Webhooks

open Aprovan.Library Aprovan.Fs Aprovan.Workflows

structure TriggerState extends HookStores where
  files : Store

/-- Where the script of a workflow is. -/
inductive ScriptPlace where
  | inline (script : Text)
  | file (path : Text)
  deriving DecidableEq

def placeOf (script : Option Text) (scriptPath : Text) : ScriptPlace :=
  match script with
  | some script => .inline script
  | none => .file scriptPath

def scriptPlace (registration : StoredWorkflow) : ScriptPlace :=
  placeOf registration.script registration.scriptPath

/-- The source that a run executes now, if there is one. -/
def sourceAt (files : Store) : ScriptPlace → Option Text
  | .inline script => some script
  | .file path => (files.latest path).map FsRow.content

inductive RunTrigger where
  | cron
  | hookToken
  | delivery (id : Text)
  deriving DecidableEq

structure TriggeredRun where
  principal : Text
  trigger : RunTrigger
  workflow : Text
  place : ScriptPlace
  source : Option Text
  deriving DecidableEq

def triggeredRun (files : Store) (trigger : RunTrigger) (principal : Text)
    (registration : StoredWorkflow) : TriggeredRun where
  principal := principal
  trigger := trigger
  workflow := registration.name
  place := scriptPlace registration
  source := sourceAt files (scriptPlace registration)

def hasCron (registration : StoredWorkflow) : Bool :=
  registration.triggers.cron.any (· ≠ [])

def cronRuns (state : TriggerState) : List TriggeredRun :=
  (state.workflows.rows.filter hasCron).map fun registration =>
    triggeredRun state.files .cron registration.createdBy registration

def hookRuns (state : TriggerState) : List TriggeredRun :=
  (state.workflows.rows.filter hasHook).map fun registration =>
    triggeredRun state.files .hookToken registration.createdBy registration

def deliveryRuns (state : TriggerState) : List TriggeredRun :=
  state.webhooks.rows.flatMap fun webhook =>
    (webhook.workflows.filterMap state.workflows.find?).map
      (triggeredRun state.files (.delivery webhook.id) webhook.principal)

/-- The runs that cron ticks, hook calls and deliveries start in a state. -/
def triggeredRuns (state : TriggerState) : List TriggeredRun :=
  cronRuns state ++ hookRuns state ++ deliveryRuns state

section

variable {state : TriggerState} {run : TriggeredRun}

theorem mem_deliveryRuns :
    run ∈ deliveryRuns state ↔ ∃ webhook ∈ state.webhooks.rows, ∃ name ∈ webhook.workflows,
        ∃ registration, state.workflows.find? name = some registration ∧
          triggeredRun state.files (.delivery webhook.id) webhook.principal registration = run := by
  simp only [deliveryRuns, List.mem_flatMap, List.mem_map, List.mem_filterMap]
  constructor
  · rintro ⟨webhook, held, registration, ⟨name, listed, found⟩, same⟩
    exact ⟨webhook, held, name, listed, registration, found, same⟩
  · rintro ⟨webhook, held, name, listed, registration, found, same⟩
    exact ⟨webhook, held, registration, ⟨name, listed, found⟩, same⟩

theorem mem_triggeredRuns :
    run ∈ triggeredRuns state ↔ (∃ registration ∈ state.workflows.rows,
        hasCron registration = true ∧ triggeredRun state.files .cron registration.createdBy
            registration = run) ∨
      (∃ registration ∈ state.workflows.rows, hasHook registration = true ∧
          triggeredRun state.files .hookToken registration.createdBy registration = run) ∨
      ∃ webhook ∈ state.webhooks.rows, ∃ name ∈ webhook.workflows,
        ∃ registration, state.workflows.find? name = some registration ∧
          triggeredRun state.files (.delivery webhook.id) webhook.principal registration = run := by
  rw [triggeredRuns, List.mem_append, List.mem_append, mem_deliveryRuns, or_assoc]
  simp only [cronRuns, hookRuns, List.mem_map, List.mem_filter, and_assoc]

theorem triggeredRun_congr {files : Store} {trigger : RunTrigger} {principal : Text}
    {first second : StoredWorkflow} (name : first.name = second.name)
    (place : scriptPlace first = scriptPlace second) :
    triggeredRun files trigger principal first = triggeredRun files trigger principal second := by
  unfold triggeredRun
  rw [name, place]

end

section

variable {state : TriggerState} {options : RunOptions}

theorem mem_triggeredRuns_of_runCronTick {cronMatches : Text → Option Bool} {now : Nat}
    (ticked : options ∈ runCronTick cronMatches now state.workflows.rows) :
    triggeredRun state.files .cron options.userId options.registration ∈ triggeredRuns state := by
  obtain ⟨registration, held, fires⟩ := List.mem_filterMap.mp ticked
  obtain ⟨cron, scheduled, started⟩ := Option.bind_eq_some_iff.mp fires
  obtain ⟨given, nonempty⟩ := Option.filter_eq_some_iff.mp scheduled
  split at started
  · cases started
    refine mem_triggeredRuns.mpr (Or.inl ⟨registration, held, ?_, rfl⟩)
    rw [hasCron, given]
    exact nonempty
  · cases started

theorem executeHook_readWorkflow (run : FinishedRun) (name : Text) :
    executeHook (.proceeds run) (.readWorkflow name) state.toHookStores =
      (.ok (state.workflows.find? name), state.toHookStores) :=
  rfl

/-- One round of a delivery, in the state that it reads: the runs before it
may have changed the registrations. -/
theorem mem_triggeredRuns_of_runListed {webhook : WebhookRegistration} {event : Option Text}
    {body name : Text} {run : FinishedRun} (held : webhook ∈ state.webhooks.rows)
    (listed : name ∈ webhook.workflows)
    (asked : .runWorkflow options ∈ ((runListed webhook event body name).run
      (executeHook (.proceeds run)) state.toHookStores).asked) :
    triggeredRun state.files (.delivery webhook.id) options.userId options.registration ∈
      triggeredRuns state := by
  rcases List.mem_cons.mp asked with own | later
  · cases own
  · rw [executeHook_readWorkflow] at later
    cases found : state.workflows.find? name with
    | none =>
      rw [found] at later
      cases later
    | some workflow =>
      rw [found] at later
      cases List.mem_singleton.mp later
      exact mem_triggeredRuns.mpr (Or.inr (Or.inr ⟨webhook, held, name, listed,
        workflow, found, rfl⟩))

theorem mem_triggeredRuns_of_hook {delivery : HookDelivery} {run : FinishedRun}
    (asked : .runWorkflow options ∈ ((hook delivery).run (executeHook (.proceeds run))
      state.toHookStores).asked) :
    triggeredRun state.files .hookToken options.userId options.registration ∈
      triggeredRuns state := by
  unfold hook at asked
  split at asked
  · cases asked
  · rcases List.mem_cons.mp asked with own | later
    · cases own
    · rw [executeHook_readWorkflow] at later
      cases found : state.workflows.find? delivery.target with
      | none =>
        rw [found] at later
        cases later
      | some registration =>
        rw [found] at later
        change _ ∈ ((if !hasHook registration then _
          else if delivery.token ≠ registration.hookToken then _ else _ :
            HookCall HookReply).run _ _).asked at later
        split at later
        · cases later
        · next exposed =>
            split at later
            · cases later
            · cases List.mem_singleton.mp later
              exact mem_triggeredRuns.mpr (Or.inr (Or.inl ⟨registration,
                (Keyed.find?_eq_some_iff.mp found).1, by simpa using exposed, rfl⟩))

end

end Aprovan.Webhooks
