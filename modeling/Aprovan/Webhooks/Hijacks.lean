import Aprovan.Webhooks.TriggeredRuns

/-!
# Runs in the name of others

`register` writes over the registration of that name, whoever's it is, and
leaves the creator.  The calls are those of one member who is no admin, one
after the other; what others have done is in the state they start from.
-/

namespace Aprovan.Webhooks

open Aprovan.Library Aprovan.Server Aprovan.Fs Aprovan.Workflows

inductive MemberCall where
  | registerWorkflow (args : RegisterWorkflowArgs)
  | removeWorkflow (name : Option Text)
  | restoreScript (name : Option Text) (hash : Option Text)
  | registerWebhook (inApp : Bool) (args : RegisterWebhookArgs)
  | removeWebhook (inApp : Bool) (id : Option Text)
  /-- The procedures that only read, and `workflows.run`, which runs a
  workflow in the caller's own name. -/
  | consult

structure MemberAct where
  call : MemberCall
  mintedToken : Text
  now : Nat

def MemberAct.surroundings (act : MemberAct) (userId : Text) : CallSurroundings where
  userId := userId
  mintedToken := act.mintedToken
  now := act.now

/-- A call that no other call interrupts. None of these starts a run. -/
def settleHook {Value : Type} (call : HookCall Value) (stores : HookStores) :
    Except HookFailure Value × HookStores :=
  call.settle (executeHook (.proceeds ⟨[], .succeeded⟩)) stores

def unknownVersion (name hash : Text) : ServiceError where
  message := "Unknown version: ".toList ++ name ++ '@' :: hash
  status := 404

/-- `requireVisibleRegistration`, over the stored record. -/
def requireVisible (stores : HookStores) (userId name : Text) : Outcome StoredWorkflow :=
  match stores.workflows.find? name with
  | none => .error (unknownWorkflow name)
  | some registration =>
    if storedVisibleTo registration userId (stores.exportedBy name) then .ok registration
    else .error (unknownWorkflow name)

/-- `workflows.restore`: the content of a version is written again. -/
def restoreScript (sha256 : Text → Text) (caller : CallSurroundings)
    (rawName hash : Option Text) (state : TriggerState) : Outcome Store := do
  let name ← givenWorkflowName rawName
  let registration ← requireVisible state.toHookStores caller.userId name
  match state.files.read registration.scriptPath (some (hash.getD [])) with
  | none => .error (unknownVersion name (hash.getD []))
  | some version =>
    return state.files.write sha256 caller.now registration.scriptPath
      version.content version.mimeType none

structure MemberServices where
  cronError : Text → Option ServiceError
  sha256 : Text → Text

def afterCall (services : MemberServices) (userId : Text)
    (state : TriggerState) (act : MemberAct) : TriggerState :=
  let caller := act.surroundings userId
  let stored {Value : Type} (call : HookCall Value) : TriggerState :=
    { state with toHookStores := (settleHook call state.toHookStores).2 }
  match act.call with
  | .registerWorkflow args => stored (registerWorkflow services.cronError caller args)
  | .removeWorkflow name => stored (removeWorkflow caller name)
  | .restoreScript name hash =>
    match restoreScript services.sha256 caller name hash state with
    | .error _ => state
    | .ok files => { state with files := files }
  | .registerWebhook inApp args => stored (registerWebhook caller inApp args)
  | .removeWebhook inApp id => stored (removeWebhook inApp id)
  | .consult => state

def memberStep (services : MemberServices) (userId : Text)
    (state : TriggerState) (act : MemberAct) : Option TriggerState :=
  some (afterCall services userId state act)

def sees (state : TriggerState) (userId : Text) (registration : StoredWorkflow) : Bool :=
  storedVisibleTo registration userId (state.exportedBy registration.name)

/-- What runs in the name of others is what ran before, and the workflows
that the caller cannot see are as before. -/
structure NotHijacked (userId : Text) (before after : TriggerState) : Prop where
  runs : ∀ run ∈ triggeredRuns after, run.principal ≠ userId → run ∈ triggeredRuns before
  unseen : ∀ registration ∈ before.workflows.rows, sees before userId registration = false →
      registration ∈ after.workflows.rows ∧ sourceAt after.files (scriptPlace registration) =
          sourceAt before.files (scriptPlace registration)

def listedByOthers (state : TriggerState) (userId name : Text) : Bool :=
  state.webhooks.rows.any fun webhook => webhook.principal ≠ userId && name ∈ webhook.workflows

/-- Another member's workflow is left where it was, or is left no trigger
that runs in that member's name. -/
def leavesWorkflow (state : TriggerState) (userId : Text)
    (name : Text) (place : ScriptPlace) (triggers : WorkflowTriggers) :
    Bool :=
  match state.workflows.find? name with
  | none => !listedByOthers state userId name
  | some existing =>
    let moved := scriptPlace existing ≠ place
    (!moved || !listedByOthers state userId name) &&
      (existing.createdBy = userId || state.exportedBy name ≠ [] &&
          (!triggers.cron.any (· ≠ []) || !moved && hasCron existing) &&
          (!triggers.webhook || !moved && hasHook existing))

/-- Another principal's webhook keeps that principal and is given none but
its own workflows. -/
def leavesWebhook (state : TriggerState) (userId : Text)
    (principal id : Text) (workflows : List Text) : Bool :=
  principal = userId || (state.webhooks.find? id).any fun existing =>
      existing.principal = principal && workflows.all (· ∈ existing.workflows)

/-- No script is at the path that runs in another's name, or is one of a
workflow that the caller cannot see. -/
def leavesScripts (state : TriggerState) (userId path : Text) : Bool :=
  (triggeredRuns state).all (fun run => run.principal = userId || run.place ≠ .file path) &&
  state.workflows.rows.all fun registration =>
    sees state userId registration || scriptPlace registration ≠ .file path

/-- The version is the newest one already, and the clock is not behind. -/
def isLive (files : Store) (now : Nat) (path : Text) (version : FsRow) : Bool :=
  (files.latest path).map FsRow.content = some version.content &&
    files.rows.all fun row => row.path ≠ path || row.updatedAt ≤ now

/-- A call that is rejected, or touches nothing that runs in the name of
others and no workflow that the caller cannot see. -/
def leavesOthers (services : MemberServices) (userId : Text)
    (state : TriggerState) (act : MemberAct) : Bool :=
  match act.call with
  | .registerWorkflow args =>
    match checkedWorkflow args, givenFields services.cronError args with
    | .ok (name, path), .ok given =>
      leavesWorkflow state userId name (placeOf (givenScript args) path) given.triggers
    | _, _ => true
  | .restoreScript rawName hash =>
    match givenWorkflowName rawName with
    | .error _ => true
    | .ok name =>
      match requireVisible state.toHookStores userId name with
      | .error _ => true
      | .ok registration =>
        match state.files.read registration.scriptPath (some (hash.getD [])) with
        | none => true
        | some version =>
          isLive state.files act.now registration.scriptPath version ||
            leavesScripts state userId registration.scriptPath
  | .registerWebhook inApp args =>
    match checkedWebhook args, parseSignature args.signature with
    | .ok (id, _, workflows), .ok _ =>
      inApp || !workflows.all (fun name => (state.workflows.find? name).isSome) ||
        leavesWebhook state userId (keptPrincipal userId args (state.webhooks.find? id)) id
          workflows
    | _, _ => true
  | _ => true

section

variable {userId : Text} {state : TriggerState}

theorem settleHook_ask {Value : Type} (statement : HookStatement)
    (next : statement.Answer → HookCall Value) (stores : HookStores) :
    settleHook (askHook statement >>= next) stores = settleHook
        (next (performHook ⟨[], .succeeded⟩ statement stores).1)
        (performHook ⟨[], .succeeded⟩ statement stores).2 :=
  rfl

theorem settle_registerWorkflow (cronError : Text → Option ServiceError)
    (caller : CallSurroundings) (args : RegisterWorkflowArgs) (stores : HookStores) :
    (settleHook (registerWorkflow cronError caller args) stores).2 =
      match checkedWorkflow args, givenFields cronError args with
      | .ok checked, .ok given =>
        { stores with
          workflows := stores.workflows.put
            (registeredWorkflow caller args checked given (stores.workflows.find? checked.1)) }
      | _, _ => stores := by
  unfold registerWorkflow
  cases checkedWorkflow args with
  | error error => rfl
  | ok checked =>
    cases fields : givenFields cronError args with
    | error error => rfl
    | ok given => rfl

theorem settle_removeWorkflow (caller : CallSurroundings)
    (rawName : Option Text) (stores : HookStores) :
    (settleHook (removeWorkflow caller rawName) stores).2 =
      match givenWorkflowName rawName with
      | .error _ => stores
      | .ok name =>
        match requireVisible stores caller.userId name with
        | .error _ => stores
        | .ok _ =>
          { stores with workflows := stores.workflows.erase name } := by
  unfold removeWorkflow requireVisible
  cases givenWorkflowName rawName with
  | error error => rfl
  | ok name =>
    show (settleHook (askHook (.readWorkflow name) >>= _) stores).2 = _
    rw [settleHook_ask]
    dsimp only [performHook]
    cases stores.workflows.find? name with
    | none => rfl
    | some registration =>
      show (settleHook (if storedVisibleTo registration caller.userId
        (stores.exportedBy name) then _ else _) stores).2 = _
      by_cases visible : storedVisibleTo registration caller.userId (stores.exportedBy name) = true
      · simp only [if_pos visible]
        rfl
      · simp only [if_neg visible]
        rfl

theorem settleHook_requireListed (name : Text) (stores : HookStores) :
    settleHook (requireListed name) stores = (match stores.workflows.find? name with
      | none => .error (.service (unknownListedWorkflow name))
      | some _ => .ok PUnit.unit, stores) := by
  unfold requireListed
  rw [settleHook_ask]
  dsimp only [performHook]
  cases stores.workflows.find? name with
  | none => rfl
  | some workflow => rfl

/-- The workflows that a webhook lists are looked up, and nothing else. -/
theorem settleHook_listed (names : List Text) (stores : HookStores) :
    ∃ outcome, settleHook (names.forM requireListed) stores = (outcome, stores) ∧
        (outcome = .ok PUnit.unit ↔ names.all (fun name =>
          (stores.workflows.find? name).isSome) = true) := by
  induction names with
  | nil => exact ⟨.ok PUnit.unit, rfl, by simp⟩
  | cons name rest ih =>
    obtain ⟨outcome, settled, known⟩ := ih
    have first := settleHook_requireListed name stores
    show ∃ outcome, settleHook (requireListed name >>= fun _ =>
      rest.forM requireListed) stores = (outcome, stores) ∧ _
    unfold settleHook at first settled ⊢
    rw [settle_bind, first]
    cases found : stores.workflows.find? name with
    | none =>
      refine ⟨_, rfl, ?_⟩
      simp [found]
    | some workflow =>
      refine ⟨outcome, settled, ?_⟩
      simpa [found] using known

theorem settle_registerWebhook (caller : CallSurroundings) (inApp : Bool)
    (args : RegisterWebhookArgs) (stores : HookStores) :
    (settleHook (registerWebhook caller inApp args) stores).2 =
      match inApp, checkedWebhook args, parseSignature args.signature with
      | false, .ok checked, .ok signature =>
        if checked.2.2.all fun name => (stores.workflows.find? name).isSome then
          { stores with
            webhooks := stores.webhooks.put
              (registeredWebhook caller args checked signature (stores.webhooks.find? checked.1)) }
        else stores
      | _, _, _ => stores := by
  unfold registerWebhook
  cases inApp with
  | true => rfl
  | false =>
    cases checkedWebhook args with
    | error error => rfl
    | ok checked =>
      obtain ⟨outcome, settled, known⟩ :=
        settleHook_listed checked.2.2 stores
      show (settleHook (checked.2.2.forM requireListed >>= fun _ => _) stores).2 = _
      unfold settleHook at settled ⊢
      rw [settle_bind, settled]
      cases outcome with
      | error thrown =>
        have unknown : ¬checked.2.2.all (fun name =>
            (stores.workflows.find? name).isSome) = true := by
          rw [← known]
          nofun
        cases parseSignature args.signature with
        | error error => rfl
        | ok signature => simp only [if_neg unknown]
      | ok done =>
        have all := known.mp rfl
        cases signed : parseSignature args.signature with
        | error error => rfl
        | ok signature =>
          simp only [if_pos all]
          rfl

theorem settle_removeWebhook (inApp : Bool) (rawId : Option Text) (stores : HookStores) :
    (settleHook (removeWebhook inApp rawId) stores).2 =
      match inApp, webhookId rawId with
      | false, .ok id => { stores with webhooks := stores.webhooks.erase id }
      | _, _ => stores := by
  unfold removeWebhook
  cases inApp with
  | true => rfl
  | false =>
    cases webhookId rawId with
    | error error => rfl
    | ok id => rfl

end

section

variable {userId : Text} {state : TriggerState}

theorem notHijacked_refl : NotHijacked userId state state :=
  ⟨fun _ member _ => member, fun _ member _ => ⟨member, rfl⟩⟩

theorem NotHijacked.trans {before middle after : TriggerState}
    (first : NotHijacked userId before middle) (exports : middle.exports = before.exports)
    (second : NotHijacked userId middle after) :
    NotHijacked userId before after where
  runs := by
    intro run member other
    exact first.runs run (second.runs run member other) other
  unseen := by
    intro registration member hidden
    obtain ⟨kept, source⟩ := first.unseen registration member hidden
    have stillHidden : sees middle userId registration = false := by
      rw [← hidden]
      unfold sees HookStores.exportedBy
      rw [exports]
    obtain ⟨last, sourceLast⟩ := second.unseen registration kept stillHidden
    exact ⟨last, sourceLast.trans source⟩

section

variable {name : Text} {place : ScriptPlace} {triggers : WorkflowTriggers}

theorem leavesWorkflow_existing (leaves : leavesWorkflow state userId name place triggers = true)
    {existing : StoredWorkflow} (found : state.workflows.find? name = some existing)
    (other : existing.createdBy ≠ userId) :
    state.exportedBy name ≠ [] ∧ (triggers.cron.any (· ≠ []) = true →
        scriptPlace existing = place ∧ hasCron existing = true) ∧
      (triggers.webhook = true → scriptPlace existing = place ∧ hasHook existing = true) := by
  unfold leavesWorkflow at leaves
  rw [found] at leaves
  simp only [other, decide_false, Bool.false_or, Bool.and_eq_true, decide_eq_true_eq] at leaves
  obtain ⟨_, ⟨exported, cron⟩, webhook⟩ := leaves
  refine ⟨exported, ?_, ?_⟩
  · intro given
    rw [given] at cron
    simpa using cron
  · intro given
    rw [given] at webhook
    simpa using webhook

theorem leavesWorkflow_listed (leaves : leavesWorkflow state userId name place triggers = true)
    (listed : listedByOthers state userId name = true) :
    ∃ existing, state.workflows.find? name = some existing ∧ scriptPlace existing = place := by
  unfold leavesWorkflow at leaves
  cases found : state.workflows.find? name with
  | none =>
    rw [found] at leaves
    simp [listed] at leaves
  | some existing =>
    rw [found] at leaves
    refine ⟨existing, rfl, ?_⟩
    simp only [listed, Bool.not_true, Bool.or_false, Bool.and_eq_true] at leaves
    simpa using leaves.1

theorem existing_of_foreign {next : StoredWorkflow}
    (creator : next.createdBy = ((state.workflows.find? next.name).map
      StoredWorkflow.createdBy).getD userId) (foreign : next.createdBy ≠ userId) :
    ∃ existing, state.workflows.find? next.name = some existing ∧
      existing.createdBy = next.createdBy ∧ existing.createdBy ≠ userId := by
  cases found : state.workflows.find? next.name with
  | none =>
    rw [found] at creator
    exact absurd creator foreign
  | some existing =>
    rw [found] at creator
    have sameCreator : existing.createdBy = next.createdBy := creator.symm
    refine ⟨existing, rfl, sameCreator, ?_⟩
    rw [sameCreator]
    exact foreign

theorem notHijacked_putWorkflow {next : StoredWorkflow}
    (leaves : leavesWorkflow state userId next.name (scriptPlace next) next.triggers = true)
    (creator : next.createdBy = ((state.workflows.find? next.name).map
      StoredWorkflow.createdBy).getD userId) :
    NotHijacked userId state { state with workflows := state.workflows.put next } where
  runs := by
    intro run member other
    rw [mem_triggeredRuns] at member ⊢
    rcases member with cron | hook | delivery
    · obtain ⟨registration, held, scheduled, rfl⟩ := cron
      rcases Keyed.mem_rows_put.mp held with rfl | old
      · obtain ⟨existing, found, sameCreator, foreign⟩ :=
          existing_of_foreign creator other
        obtain ⟨_, cron, _⟩ := leavesWorkflow_existing leaves found foreign
        obtain ⟨samePlace, schedules⟩ := cron scheduled
        obtain ⟨stored, sameName⟩ := Keyed.find?_eq_some_iff.mp found
        refine Or.inl ⟨existing, stored, schedules, ?_⟩
        rw [sameCreator]
        exact triggeredRun_congr sameName samePlace
      · exact Or.inl ⟨registration, old.1, scheduled, rfl⟩
    · obtain ⟨registration, held, exposed, rfl⟩ := hook
      rcases Keyed.mem_rows_put.mp held with rfl | old
      · obtain ⟨existing, found, sameCreator, foreign⟩ :=
          existing_of_foreign creator other
        obtain ⟨_, _, hook⟩ := leavesWorkflow_existing leaves found foreign
        have webhook : registration.triggers.webhook = true := by
          simp only [hasHook, Bool.and_eq_true] at exposed
          exact exposed.1
        obtain ⟨samePlace, exposes⟩ := hook webhook
        obtain ⟨stored, sameName⟩ := Keyed.find?_eq_some_iff.mp found
        refine Or.inr (Or.inl ⟨existing, stored, exposes, ?_⟩)
        rw [sameCreator]
        exact triggeredRun_congr sameName samePlace
      · exact Or.inr (Or.inl ⟨registration, old.1, exposed, rfl⟩)
    · obtain ⟨webhook, held, name, listed, registration, found, rfl⟩ :=
        delivery
      rw [Keyed.find?_put] at found
      by_cases own : next.name = name
      · subst own
        rw [if_pos rfl] at found
        cases found
        have byOthers : listedByOthers state userId next.name = true := by
          refine List.any_eq_true.mpr ⟨webhook, held, ?_⟩
          have foreign : webhook.principal ≠ userId := other
          simp [foreign, listed]
        obtain ⟨existing, found, samePlace⟩ :=
          leavesWorkflow_listed leaves byOthers
        obtain ⟨_, sameName⟩ := Keyed.find?_eq_some_iff.mp found
        exact Or.inr (Or.inr ⟨webhook, held, next.name, listed, existing,
          found, triggeredRun_congr sameName samePlace⟩)
      · rw [if_neg own] at found
        exact Or.inr (Or.inr ⟨webhook, held, name, listed, registration, found, rfl⟩)
  unseen := by
    intro registration held hidden
    refine ⟨Keyed.mem_rows_put.mpr (Or.inr ⟨held, ?_⟩), rfl⟩
    intro same
    have found : state.workflows.find? next.name = some registration :=
      Keyed.find?_eq_some_iff.mpr ⟨held, same⟩
    simp only [sees, storedVisibleTo, Bool.or_eq_false_iff, decide_eq_false_iff_not] at hidden
    obtain ⟨exported, _, _⟩ :=
      leavesWorkflow_existing leaves found hidden.1
    rw [same] at hidden
    exact hidden.2 exported

theorem notHijacked_eraseWorkflow (visible : ∃ registration,
      requireVisible state.toHookStores userId name = .ok registration) :
    NotHijacked userId state { state with workflows := state.workflows.erase name } where
  runs := by
    intro run member other
    rw [mem_triggeredRuns] at member ⊢
    rcases member with cron | hook | delivery
    · obtain ⟨registration, held, scheduled, same⟩ := cron
      exact Or.inl ⟨registration, (Keyed.mem_rows_erase.mp held).1, scheduled, same⟩
    · obtain ⟨registration, held, exposed, same⟩ := hook
      exact Or.inr (Or.inl ⟨registration, (Keyed.mem_rows_erase.mp held).1, exposed, same⟩)
    · obtain ⟨webhook, held, listed, inside, registration, found, same⟩ :=
        delivery
      rw [Keyed.find?_erase] at found
      split at found
      · cases found
      · exact Or.inr (Or.inr ⟨webhook, held, listed, inside, registration, found, same⟩)
  unseen := by
    intro registration held hidden
    refine ⟨Keyed.mem_rows_erase.mpr ⟨held, ?_⟩, rfl⟩
    intro same
    have found : state.workflows.find? name = some registration :=
      Keyed.find?_eq_some_iff.mpr ⟨held, same⟩
    obtain ⟨seen, granted⟩ := visible
    unfold requireVisible at granted
    rw [found] at granted
    simp only [sees, same] at hidden
    simp [hidden] at granted

end

theorem notHijacked_putWebhook {next : WebhookRegistration}
    (leaves : leavesWebhook state userId next.principal next.id next.workflows = true) :
    NotHijacked userId state { state with webhooks := state.webhooks.put next } where
  runs := by
    intro run member other
    rw [mem_triggeredRuns] at member ⊢
    rcases member with cron | hook | delivery
    · exact Or.inl cron
    · exact Or.inr (Or.inl hook)
    · obtain ⟨webhook, held, name, listed, registration, found, rfl⟩ :=
        delivery
      refine Or.inr (Or.inr ?_)
      rcases Keyed.mem_rows_put.mp held with rfl | old
      · have foreign : webhook.principal ≠ userId := other
        simp only [leavesWebhook, foreign, decide_false, Bool.false_or,
          Option.any_eq_true, Bool.and_eq_true, decide_eq_true_eq,
          List.all_eq_true] at leaves
        obtain ⟨existing, stored, samePrincipal, among⟩ := leaves
        obtain ⟨present, sameId⟩ := Keyed.find?_eq_some_iff.mp stored
        refine ⟨existing, present, name, among name listed, registration, found, ?_⟩
        rw [sameId, samePrincipal]
      · exact ⟨webhook, old.1, name, listed, registration, found, rfl⟩
  unseen := by
    intro registration held hidden
    exact ⟨held, rfl⟩

theorem notHijacked_eraseWebhook (id : Text) :
    NotHijacked userId state { state with webhooks := state.webhooks.erase id } where
  runs := by
    intro run member other
    rw [mem_triggeredRuns] at member ⊢
    rcases member with cron | hook | delivery
    · exact Or.inl cron
    · exact Or.inr (Or.inl hook)
    · obtain ⟨webhook, held, delivered⟩ := delivery
      exact Or.inr (Or.inr ⟨webhook, (Keyed.mem_rows_erase.mp held).1, delivered⟩)
  unseen := by
    intro registration held hidden
    exact ⟨held, rfl⟩

/-! Scripts. -/

section

variable {files : Store} {path : Text}

theorem triggeredRuns_files (files : Store) :
    triggeredRuns { state with files := files } = (triggeredRuns state).map fun run =>
        { run with source := sourceAt files run.place } := by
  simp only [triggeredRuns, cronRuns, hookRuns, deliveryRuns,
    List.map_append, List.map_map, List.map_flatMap]
  rfl

theorem source_of_mem {run : TriggeredRun} (member : run ∈ triggeredRuns state) :
    run.source = sourceAt state.files run.place := by
  rcases mem_triggeredRuns.mp member with cron | hook | delivery
  · obtain ⟨registration, _, _, rfl⟩ := cron
    rfl
  · obtain ⟨registration, _, _, rfl⟩ := hook
    rfl
  · obtain ⟨_, _, _, _, registration, _, rfl⟩ := delivery
    rfl

theorem notHijacked_files (elsewhere : ∀ place, place ≠ .file path →
      sourceAt files place = sourceAt state.files place)
    (leaves : sourceAt files (.file path) = sourceAt state.files (.file path) ∨
      leavesScripts state userId path = true) :
    NotHijacked userId state { state with files := files } where
  runs := by
    intro run member other
    rw [triggeredRuns_files] at member
    obtain ⟨earlier, held, rfl⟩ := List.mem_map.mp member
    have same : sourceAt files earlier.place = earlier.source := by
      rw [source_of_mem held]
      by_cases there : earlier.place = .file path
      · rcases leaves with live | apart
        · rw [there, live]
        · simp only [leavesScripts, Bool.and_eq_true] at apart
          have excluded := List.all_eq_true.mp apart.1 earlier held
          simp [there, other] at excluded
      · exact elsewhere earlier.place there
    rw [same]
    exact held
  unseen := by
    intro registration held hidden
    refine ⟨held, ?_⟩
    by_cases there : scriptPlace registration = .file path
    · rcases leaves with live | apart
      · rw [there, live]
      · simp only [leavesScripts, Bool.and_eq_true] at apart
        have excluded := List.all_eq_true.mp apart.2 registration held
        simp [there, hidden] at excluded
    · exact elsewhere _ there

/-- A write of the newest content again, or of a script that nobody else
runs. -/
theorem notHijacked_write {sha256 : Text → Text} {now : Nat} {version : FsRow}
    (leaves : (isLive state.files now path version || leavesScripts state userId path) = true) :
    NotHijacked userId state { state with
      files := state.files.write sha256 now path version.content version.mimeType none } := by
  have elsewhere : ∀ place, place ≠ .file path →
      sourceAt (state.files.write sha256 now path version.content
        version.mimeType none) place = sourceAt state.files place := by
    intro place different
    cases place with
    | inline script => rfl
    | file other =>
      have apart : other ≠ path := by
        intro same
        rw [same] at different
        exact different rfl
      have read := @Store.read_write_of_ne state.files path sha256 now
        version.content version.mimeType other none apart none
      exact congrArg (Option.map FsRow.content) read
  apply notHijacked_files elsewhere
  rcases Bool.or_eq_true_iff.mp leaves with live | apart
  · left
    simp only [isLive, Bool.and_eq_true, decide_eq_true_eq] at live
    have older : ∀ row ∈ state.files.rows, row.path = path → row.updatedAt ≤ now := by
      intro row member own
      have checked := List.all_eq_true.mp live.2 row member
      simpa [own] using checked
    show (Store.latest _ path).map FsRow.content = _
    rw [Store.latest_write_self older]
    exact live.1.symm
  · exact Or.inr apart

end

section

variable {services : MemberServices} {act : MemberAct}

theorem exports_afterCall : (afterCall services userId state act).exports = state.exports := by
  obtain ⟨call, mintedToken, now⟩ := act
  cases call with
  | registerWorkflow args =>
    simp only [afterCall, settle_registerWorkflow]
    split <;> rfl
  | removeWorkflow name =>
    simp only [afterCall, settle_removeWorkflow]
    split
    · rfl
    · split <;> rfl
  | restoreScript name hash =>
    simp only [afterCall]
    split <;> rfl
  | registerWebhook inApp args =>
    simp only [afterCall, settle_registerWebhook]
    split
    · split <;> rfl
    · rfl
  | removeWebhook inApp id =>
    simp only [afterCall, settle_removeWebhook]
    split <;> rfl
  | consult => rfl

theorem notHijacked_restored {rawName hash : Option Text} {files : Store}
    (called : act.call = .restoreScript rawName hash)
    (leaves : leavesOthers services userId state act = true)
    (restored : restoreScript services.sha256 (act.surroundings userId)
      rawName hash state = .ok files) :
    NotHijacked userId state { state with files := files } := by
  obtain ⟨name, named, restored⟩ := bind_eq_ok_iff.mp restored
  obtain ⟨registration, visible, restored⟩ := bind_eq_ok_iff.mp restored
  have seen : requireVisible state.toHookStores userId name = .ok registration := visible
  split at restored
  · cases restored
  · next version read =>
      cases restored
      apply notHijacked_write
      simp only [leavesOthers, called, named, seen, read] at leaves
      exact leaves

theorem notHijacked_afterCall (leaves : leavesOthers services userId state act = true) :
    NotHijacked userId state (afterCall services userId state act) := by
  obtain ⟨call, mintedToken, now⟩ := act
  cases call with
  | registerWorkflow args =>
    simp only [afterCall, settle_registerWorkflow]
    simp only [leavesOthers] at leaves
    split
    · next checked given checks fields =>
        rw [checks, fields] at leaves
        apply notHijacked_putWorkflow
        · exact leaves
        · rfl
    · exact notHijacked_refl
  | removeWorkflow rawName =>
    simp only [afterCall, settle_removeWorkflow]
    split
    · exact notHijacked_refl
    · split
      · exact notHijacked_refl
      · next registration visible =>
          exact notHijacked_eraseWorkflow ⟨registration, visible⟩
  | restoreScript rawName hash =>
    simp only [afterCall]
    split
    · exact notHijacked_refl
    · next files restored =>
        exact notHijacked_restored rfl leaves restored
  | registerWebhook inApp args =>
    simp only [afterCall, settle_registerWebhook]
    simp only [leavesOthers] at leaves
    split
    · next checked signature checks signed =>
        rw [checks, signed] at leaves
        split
        · next known =>
            apply notHijacked_putWebhook
            rw [principal_registeredWebhook]
            have kept : leavesWebhook state userId (keptPrincipal userId args
                  (state.webhooks.find? checked.1)) checked.1
                checked.2.2 = true := by
              simpa [known] using leaves
            exact kept
        · exact notHijacked_refl
    · exact notHijacked_refl
  | removeWebhook inApp rawId =>
    simp only [afterCall, settle_removeWebhook]
    split
    · exact notHijacked_eraseWebhook _
    · exact notHijacked_refl
  | consult => exact notHijacked_refl

end

end

/-- In a sequence of calls that meet the condition, nothing runs in the name
of others but what ran before. -/
theorem not_hijacked {services : MemberServices} {userId : Text} {before after : TriggerState}
    {acts : List MemberAct}
    (meets : StepsMeet (memberStep services userId)
      (fun state act => leavesOthers services userId state act = true)
      before acts) (executed : runFrom (memberStep services userId) before acts = some after) :
    NotHijacked userId before after := by
  have settled : NotHijacked userId before after ∧ after.exports = before.exports := by
    refine invariant_of_stepsMeet (fun state => NotHijacked userId before state ∧
        state.exports = before.exports)
      ?_ ⟨notHijacked_refl, rfl⟩ meets executed
    intro state act next holds leaves taken
    cases taken
    exact ⟨holds.1.trans holds.2 (notHijacked_afterCall leaves), exports_afterCall.trans holds.2⟩
  exact settled.1

/-- A cron expression that is valid, and the digest of "a". -/
def memberServices : MemberServices where
  cronError _ := none
  sha256 _ :=
    "ca978112ca1bbdcafac231b39a23dc4da786eff8147c4e72b9807785afee48bb".toList

def hourly : TriggersArg :=
  .object ⟨some "0 * * * *".toList, false, none⟩

/-- A private workflow that runs every hour. -/
def aliceDigest : StoredWorkflow where
  name := "digest".toList
  description := none
  scriptPath := "digest.js".toList
  script := none
  triggers := ⟨some "0 * * * *".toList, false, none⟩
  bindings := none
  agent := none
  input := none
  output := none
  hookToken := none
  createdBy := "alice".toList
  createdAt := 0
  updatedAt := 0

def aliceState : TriggerState where
  webhooks := Keyed.empty
  workflows := Keyed.empty.put aliceDigest
  exports := []
  files := {
    backend := .sqlite
    rows := [{
      path := "mine.js".toList
      hash := memberServices.sha256 "a".toList
      content := "a".toList
      mimeType := "text/javascript".toList
      size := 1
      updatedAt := 0
      versioned := true }]
    keys := List.nodup_singleton _ }

def registering (name : Text) (script scriptPath : Option Text) : MemberCall :=
  .registerWorkflow {
    name := some name
    script := script
    scriptPath := scriptPath
    description := none
    agent := .absent
    triggers := hourly
    bindings := none
    input := .absent
    output := .absent }

def actAt (now : Nat) (call : MemberCall) : MemberAct where
  call := call
  mintedToken := "t0".toList
  now := now

/-- A member registers a workflow and a webhook of its own, restores the
script, registers the workflow again, and asks in vain to remove the one of
the other member. -/
def ownCalls : List MemberAct :=
  [actAt 1 (registering "mine".toList none (some "mine.js".toList)),
    actAt 2 (.registerWebhook false {
      id := some "pushes".toList
      provider := some "github".toList
      description := none
      level := some "user".toList
      events := []
      workflows := ["mine".toList]
      signature := .absent }),
    actAt 3 (.restoreScript (some "mine".toList) (some (memberServices.sha256 "a".toList))),
    actAt 4 (registering "mine".toList (some "b".toList) none),
    actAt 5 (.removeWorkflow (some "digest".toList))]

theorem not_hijacked_ownCalls :
    ∃ after, runFrom (memberStep memberServices "bob".toList) aliceState ownCalls = some after ∧
        (triggeredRuns after).length = 3 ∧ NotHijacked "bob".toList aliceState after := by
  have executed : (runFrom (memberStep memberServices "bob".toList)
      aliceState ownCalls).map (fun after => (triggeredRuns after).length) = some 3 := by
    decide +kernel
  obtain ⟨after, reached, three⟩ := Option.map_eq_some_iff.mp executed
  exact ⟨after, reached, three, not_hijacked (by decide +kernel) reached⟩

/-- A member registers a script under the name of another member's private
workflow. -/
def hijackingCall : MemberAct :=
  actAt 1 (registering "digest".toList (some "steal()".toList) none)

/-- It then runs every hour in that member's name. -/
theorem digest_hijacked :
    ¬∀ after, runFrom (memberStep memberServices "bob".toList) aliceState
          [hijackingCall] = some after →
        NotHijacked "bob".toList aliceState after := by
  intro holds
  have kept := holds _ rfl
  have hijacked : (⟨"alice".toList, .cron, "digest".toList,
      .inline "steal()".toList, some "steal()".toList⟩ : TriggeredRun) ∈
        triggeredRuns aliceState := by
    apply kept.runs
    · decide +kernel
    · decide
  exact absurd hijacked (by decide +kernel)

end Aprovan.Webhooks
