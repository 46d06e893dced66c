import Aprovan.Client.WorkspaceVfs

/-!
# The scope of sync requests

The journal, the replay and the migration know paths and no scope.  The law says
of every request that is sent which edit it may be for, over runs with edits,
session and workspace switches, replays and migrations.
-/

namespace Aprovan.Client

open Aprovan.Library

def EditedIn (known : Knowledge) (workspace path : Text) : Prop :=
  ∃ edit ∈ known.edits, edit.1.workspace = workspace ∧ edit.2 = path

/-- A request to a staged session is for an edit made in it; one to a live
tree names a path that the user edited in the workspace, and does not write
one that another client deleted unseen. -/
structure InScope (issued : Issued) : Prop where
  session : issued.target.session ≠ none → issued.madeIn = some issued.target
  live : issued.target.session = none →
    EditedIn issued.known issued.target.workspace issued.request.path
  seen : issued.target.session = none → issued.request.kind = .write →
    (issued.target.workspace, issued.request.path) ∉ issued.known.unseen

/-- A request that was sent and has not taken effect. -/
inductive Underway (state : ClientState) : Scope → FileOp → Prop where
  | call {id : Nat} {op : FileOp} {madeIn : Scope} {live : Bool}
      {target : Scope} :
      state.calls id = some ⟨op, madeIn, .sending live target false⟩ → Underway state target op
  | replay {entry : PendingOp} {rest : List PendingOp} {request : FileOp}
      {target : Scope} :
      state.flush = some ⟨entry, rest, .sending request target false⟩ →
        Underway state target request
  | copy {path : Text} {request : FileOp} {target : Scope} :
      ⟨path, .sending request target⟩ ∈ state.copies → Underway state target request

variable (state : ClientState)

structure StaysInScope : Prop where
  issued : ∀ issued ∈ state.issued, InScope issued
  underway : ∀ target request, Underway state target request →
    target.session = none → request.kind = .write →
      (target.workspace, request.path) ∉ state.known.unseen

/-- The request of the call has still to take effect. -/
def Call.waits (call : Call) : Bool :=
  match call.stage with
  | .sending _ _ true => false
  | _ => true

/-- Where the call's request goes is not decided. -/
def Call.unsent (call : Call) : Bool :=
  match call.stage with
  | .sending _ _ _ => false
  | _ => true

/-- The entries whose requests have still to take effect. -/
def FlushRun.waiting (run : FlushRun) : List PendingOp :=
  match run.stage with
  | .sending _ _ true => run.rest
  | _ => run.entry :: run.rest

/-- Where a copy goes, or would go now. -/
def Copy.workspace (copy : Copy) (here : Scope) : Text :=
  match copy.stage with
  | .reading => here.workspace
  | .sending _ target => target.workspace

/-- Nothing has still to be sent. -/
structure NothingUnsent : Prop where
  calls : ∀ id call, state.calls id = some call → call.unsent = false
  flush : state.flush = none
  listings : state.listings = []
  copies : ∀ copy ∈ state.copies, copy.stage ≠ .reading

/-- A write of the path to the live tree has still to take effect. -/
inductive OnItsWay (state : ClientState) (workspace path : Text) : Prop where
  | call (id : Nat) (call : Call) :
      state.calls id = some call → call.waits = true →
        call.op.kind = .write → call.op.path = path →
          call.madeIn = ⟨workspace, none⟩ → OnItsWay state workspace path
  | replay (run : FlushRun) (entry : PendingOp) :
      state.flush = some run → entry ∈ run.waiting → entry.op = .write →
        entry.path = path → state.workspace = workspace → OnItsWay state workspace path
  | copy (copy : Copy) :
      copy ∈ state.copies → copy.path = path →
        copy.workspace state.scope = workspace → OnItsWay state workspace path

/-- The journal can be replayed here: it holds edits of this workspace, and
writes of nothing that was deleted unseen. -/
structure ReplaysHere : Prop where
  live : state.session = none
  here : ∀ entry ∈ state.pending, entry.madeIn.workspace = state.workspace
  seen : ∀ entry ∈ state.pending, entry.op = .write →
    (state.workspace, entry.path) ∉ state.known.unseen

/-- A replay starts only where the journal can be replayed. -/
def MayReplay : Prop :=
  state.flush = none → state.pending ≠ [] → ReplaysHere state

/-- What the gateway lacks was edited here, and not deleted unseen. -/
def MayCopy (listing : Listing) : Prop :=
  ∀ path ∈ listing.localPaths, state.gateway listing.target path = none →
      EditedIn state.known state.workspace path ∧ (state.workspace, path) ∉ state.known.unseen

/-- The user edits canonical paths that the client has seen; the scope changes when nothing
has still to be sent; replays and migrations happen in the live tree of the
edits; others delete nothing that is being written. -/
def ScopeCondition : ClientAct → Prop
  | .edit _ op => isCanonical op.path = true ∧
      (state.session = none → op.kind = .write →
        (state.workspace, op.path) ∉ state.known.unseen)
  | .reply id ok => ok = true → ∀ call, state.calls id = some call →
      MayReplay {
        state.setCall id none with
          pending := clearPending state.pending call.op.path }
  | .flush => MayReplay state
  | .migrate => state.session = none
  | .listed position => ∀ listing, state.listings[position]? = some listing → MayCopy state listing
  | .setSession session => session = state.session ∨ NothingUnsent state
  | .switchWorkspace workspace => workspace = state.workspace ∨ NothingUnsent state
  | .othersRemove workspace path => ¬ OnItsWay state workspace path
  | _ => True

/-- A client that has just started, with what is left of the time before. -/
structure ScopeStarts : Prop where
  flush : state.flush = none
  calls : ∀ id, state.calls id = none
  listings : state.listings = []
  copies : state.copies = []
  issued : state.issued = []
  canonical : ∀ entry ∈ state.pending, isCanonical entry.path = true
  journaled : ∀ entry ∈ state.pending, (entry.madeIn, entry.path) ∈ state.known.edits

/-- The call goes where it was made, and writes nothing deleted unseen. -/
structure CallInScope (known : Knowledge) (here : Scope) (call : Call) : Prop where
  edited : (call.madeIn, call.op.path) ∈ known.edits
  undecided : call.unsent = true → call.madeIn = here
  sent : ∀ live target arrived, call.stage = .sending live target arrived → target = call.madeIn
  seen : call.waits = true → call.madeIn.session = none → call.op.kind = .write →
      (call.madeIn.workspace, call.op.path) ∉ known.unseen

/-- The entry was edited here, and writes nothing deleted unseen. -/
structure EntryInScope (known : Knowledge) (here : Scope) (entry : PendingOp) : Prop where
  edited : EditedIn known here.workspace entry.path
  seen : entry.op = .write → (here.workspace, entry.path) ∉ known.unseen

structure ReplayInScope (known : Knowledge) (here : Scope) (run : FlushRun) : Prop where
  live : here.session = none
  edited : EditedIn known here.workspace run.entry.path
  waiting : ∀ entry ∈ run.waiting, EntryInScope known here entry
  reads : run.stage = .reading → run.entry.op = .write
  sends : ∀ request target arrived, run.stage = .sending request target arrived →
      target = here ∧ request.path = run.entry.path ∧ request.kind = run.entry.op

structure CopyInScope (known : Knowledge) (here : Scope) (copy : Copy) : Prop where
  reads : copy.stage = .reading → here.session = none ∧ EditedIn known here.workspace copy.path
  seen : (copy.workspace here, copy.path) ∉ known.unseen
  sends : ∀ request target, copy.stage = .sending request target → request.path = copy.path

structure ScopeInvariant : Prop where
  issued : ∀ issued ∈ state.issued, InScope issued
  calls : ∀ id call, state.calls id = some call → CallInScope state.known state.scope call
  journaled : ∀ entry ∈ state.pending, (entry.madeIn, entry.path) ∈ state.known.edits
  replay : ∀ run, state.flush = some run → ReplayInScope state.known state.scope run
  listings : ∀ listing ∈ state.listings, state.session = none ∧ listing.target = state.scope
  copies : ∀ copy ∈ state.copies, CopyInScope state.known state.scope copy

section

variable {state : ClientState}

theorem staysInScope_of_invariant (invariant : ScopeInvariant state) : StaysInScope state := by
  refine ⟨invariant.issued, ?_⟩
  intro target request underway live isWrite
  cases underway with
  | call found =>
    have call := invariant.calls _ _ found
    have same := call.sent _ target false rfl
    rw [same] at live ⊢
    exact call.seen rfl live isWrite
  | replay running =>
    have replay := invariant.replay _ running
    obtain ⟨sameTarget, samePath, sameKind⟩ :=
      replay.sends request target false rfl
    rw [sameTarget, samePath]
    exact (replay.waiting _ List.mem_cons_self).seen (sameKind.symm.trans isWrite)
  | copy member =>
    have copy := invariant.copies _ member
    rw [copy.sends request target rfl]
    exact copy.seen

theorem invariant_scopeStarts (starts : ScopeStarts state) : ScopeInvariant state where
  issued := by
    intro issued member
    rw [starts.issued] at member
    cases member
  calls := by
    intro id call found
    rw [starts.calls id] at found
    cases found
  journaled := starts.journaled
  replay := by
    intro run running
    rw [starts.flush] at running
    cases running
  listings := by
    intro listing member
    rw [starts.listings] at member
    cases member
  copies := by
    intro copy member
    rw [starts.copies] at member
    cases member

variable (invariant : ScopeInvariant state)

include invariant

theorem invariant_known (opfs : Table Text)
    (gateway : Scope → Text → Option Text) {edits : List (Scope × Text)}
    {unseen : List (Text × Text)} (more : state.known.edits ⊆ edits)
    (noMore : ∀ workspace path, OnItsWay state workspace path → (workspace, path) ∈ unseen →
        (workspace, path) ∈ state.known.unseen) :
    ScopeInvariant { state with
        opfs := opfs
        gateway := gateway
        known := ⟨edits, unseen⟩ } := by
  have edited : ∀ {workspace path}, EditedIn state.known workspace path →
      EditedIn ⟨edits, unseen⟩ workspace path := by
    rintro workspace path ⟨edit, member, same⟩
    exact ⟨edit, more member, same⟩
  refine ⟨invariant.issued, ?_, ?_, ?_, invariant.listings, ?_⟩
  · intro id call found
    have holds := invariant.calls id call found
    refine ⟨more holds.edited, holds.undecided, holds.sent, ?_⟩
    intro waits live isWrite deleted
    have scope : call.madeIn = ⟨call.madeIn.workspace, none⟩ := by rw [← live]
    exact holds.seen waits live isWrite (noMore _ _
      (.call id call found waits isWrite rfl scope) deleted)
  · intro entry member
    exact more (invariant.journaled entry member)
  · intro run running
    have holds := invariant.replay run running
    refine ⟨holds.live, edited holds.edited, ?_, holds.reads, holds.sends⟩
    intro entry member
    have entryHolds := holds.waiting entry member
    refine ⟨edited entryHolds.edited, ?_⟩
    intro isWrite deleted
    exact entryHolds.seen isWrite (noMore _ _
      (.replay run entry running member isWrite rfl rfl) deleted)
  · intro copy member
    have holds := invariant.copies copy member
    refine ⟨fun reading => ⟨(holds.reads reading).1,
      edited (holds.reads reading).2⟩, ?_, holds.sends⟩
    intro deleted
    exact holds.seen (noMore _ _ (.copy copy member rfl rfl) deleted)

theorem invariant_setCall (id : Nat) {changed : Option Call}
    (holds : ∀ call, changed = some call → CallInScope state.known state.scope call) :
    ScopeInvariant (state.setCall id changed) := { invariant with
    calls := by
      intro other call found
      by_cases same : other = id
      · rw [same, show (state.setCall id changed).calls id = changed from
          Function.update_self _ _ _] at found
        exact holds call found
      · exact invariant.calls other call ((Function.update_of_ne same _ _).symm.trans found) }

theorem invariant_issue {request : FileOp} {madeIn : Option Scope}
    (holds : InScope ⟨request, state.scope, madeIn, state.known⟩) :
    ScopeInvariant (state.issue request madeIn) := { invariant with
    issued := by
      intro issued member
      rcases List.mem_append.mp member with older | new
      · exact invariant.issued issued older
      · rw [List.mem_singleton.mp new]
        exact holds }

theorem invariant_flush (flush : Option FlushRun) (holds : ∀ run, flush = some run →
      ReplayInScope state.known state.scope run) :
    ScopeInvariant { state with flush := flush } := { invariant with
    replay := holds }

theorem invariant_copies (copies : List Copy)
    (holds : ∀ copy ∈ copies, CopyInScope state.known state.scope copy) :
    ScopeInvariant { state with copies := copies } := { invariant with
    copies := holds }

theorem invariant_pending (pending : List PendingOp) (holds : ∀ entry ∈ pending,
      (entry.madeIn, entry.path) ∈ state.known.edits) :
    ScopeInvariant { state with pending := pending } := { invariant with
    journaled := holds }

theorem invariant_arriveAt (target : Scope) (request : FileOp) :
    ScopeInvariant (state.arriveAt target request) :=
  invariant_known invariant state.opfs _ (List.Subset.refl _) fun _ _ _ deleted => deleted

end

section

variable {state next : ClientState} {id : Nat}

theorem scope_edit (invariant : ScopeInvariant state) {op : FileOp}
    (condition : ScopeCondition state (.edit id op)) (taken : editFile state id op = some next) :
    ScopeInvariant next := by
  unfold editFile at taken
  split at taken
  · cases taken
  cases taken
  have more : state.known.edits ⊆ state.known.edits ++ [(state.scope, op.path)] :=
    List.subset_append_left _ _
  have noted := invariant_known invariant state.opfs state.gateway more
    fun _ _ _ deleted => deleted
  apply invariant_setCall noted id
  intro call opened
  cases opened
  refine ⟨List.mem_append_right _ (List.mem_singleton_self _),
    fun _ => rfl, ?_, ?_⟩
  · intro live target arrived stage
    cases stage
  · intro _ live isWrite
    exact condition.2 live isWrite

theorem inScope_of_call {call : Call} (holds : CallInScope state.known state.scope call)
    (unsent : call.unsent = true) :
    InScope ⟨call.op, state.scope, some call.madeIn, state.known⟩ := by
  have here := holds.undecided unsent
  have waits : call.waits = true := by
    revert unsent
    unfold Call.unsent Call.waits
    cases call.stage <;> simp
  refine ⟨fun _ => congrArg some here, ?_, ?_⟩
  · intro _
    refine ⟨_, holds.edited, ?_, rfl⟩
    rw [here]
  · intro live isWrite
    have seen := holds.seen waits (by rw [here]; exact live) isWrite
    rw [here] at seen
    exact seen

theorem callInScope_sent {known : Knowledge} {here : Scope} {op : FileOp}
    {madeIn : Scope} {stage : CallStage} {live arrived : Bool}
    (holds : CallInScope known here ⟨op, madeIn, stage⟩)
    (waits : arrived = false → (Call.mk op madeIn stage).waits = true) {target : Scope}
    (same : target = madeIn) :
    CallInScope known here ⟨op, madeIn, .sending live target arrived⟩ := by
  refine ⟨holds.edited, ?_, ?_, ?_⟩
  · intro unsent
    cases unsent
  · intro _ _ _ sent
    cases sent
    exact same
  · intro stillWaits isLive isWrite
    cases arrived with
    | true => cases stillWaits
    | false => exact holds.seen (waits rfl) isLive isWrite

variable (invariant : ScopeInvariant state)

include invariant

theorem scope_start (taken : beginCall state id = some next) : ScopeInvariant next := by
  unfold beginCall at taken
  split at taken
  swap
  · cases taken
  rename_i op madeIn found
  have holds := invariant.calls id _ found
  split at taken
  · cases taken
    apply invariant_setCall (invariant_issue invariant (inScope_of_call holds rfl)) id
    intro call sent
    cases sent
    exact callInScope_sent holds (fun _ => rfl) (holds.undecided rfl).symm
  · cases taken
    apply invariant_setCall invariant id
    intro call caching
    cases caching
    refine ⟨holds.edited, fun _ => holds.undecided rfl, ?_, ?_⟩
    · intro live target arrived stage
      cases stage
    · intro _ live isWrite
      exact holds.seen rfl live isWrite

theorem scope_cached (taken : cachedCall state id = some next) : ScopeInvariant next := by
  unfold cachedCall at taken
  split at taken
  swap
  · cases taken
  rename_i op madeIn found
  have holds := invariant.calls id _ found
  cases taken
  have sent := invariant_issue invariant (inScope_of_call holds rfl)
  have stored := invariant_known sent (cacheOp state.opfs op) state.gateway
    (List.Subset.refl _) fun _ _ _ deleted => deleted
  apply invariant_setCall stored id
  intro call isSent
  cases isSent
  exact callInScope_sent holds (fun _ => rfl) (holds.undecided rfl).symm

theorem scope_arrive (taken : arriveCall state id = some next) : ScopeInvariant next := by
  unfold arriveCall at taken
  split at taken
  swap
  · cases taken
  rename_i op madeIn live target found
  have holds := invariant.calls id _ found
  cases taken
  apply invariant_setCall (invariant_arriveAt invariant target op) id
  intro call arrived
  cases arrived
  apply callInScope_sent holds
  · intro impossible
    cases impossible
  · exact holds.sent live target false rfl

theorem scope_flushFrom (live : state.session = none) {entries : List PendingOp}
    (holds : ∀ entry ∈ entries, EntryInScope state.known state.scope entry) :
    ScopeInvariant (flushFrom state entries) := by
  cases entries with
  | nil =>
    apply invariant_flush invariant none
    intro run running
    cases running
  | cons entry rest =>
    have own := holds entry List.mem_cons_self
    cases isOp : entry.op with
    | write =>
      simp only [flushFrom, isOp]
      apply invariant_flush invariant
      intro run running
      cases running
      refine ⟨live, own.edited, holds, fun _ => isOp, ?_⟩
      intro request target arrived stage
      cases stage
    | remove recursive =>
      simp only [flushFrom, isOp]
      have removal : InScope ⟨.remove entry.path recursive, state.scope,
          some entry.madeIn, state.known⟩ := by
        refine ⟨?_, fun _ => own.edited, ?_⟩
        · intro staged
          exact absurd live staged
        · intro _ isWrite
          cases isWrite
      apply invariant_flush (invariant_issue invariant removal)
      intro run running
      cases running
      refine ⟨live, own.edited, holds, ?_, ?_⟩
      · intro stage
        cases stage
      · intro request target arrived stage
        cases stage
        exact ⟨rfl, rfl, isOp.symm⟩

theorem scope_flushPending (condition : MayReplay state) :
    ScopeInvariant (flushPending state) := by
  unfold flushPending
  by_cases nothing : state.pending = [] ∨ state.flush.isSome = true
  · rw [if_pos nothing]
    exact invariant
  · rw [if_neg nothing]
    rw [not_or, Option.not_isSome_iff_eq_none] at nothing
    have replays := condition nothing.2 nothing.1
    apply scope_flushFrom invariant replays.live
    intro entry member
    refine ⟨⟨_, invariant.journaled entry member,
      replays.here entry member, rfl⟩, replays.seen entry member⟩

theorem scope_reply {ok : Bool} (condition : ScopeCondition state (.reply id ok))
    (taken : replyCall state id ok = some next) : ScopeInvariant next := by
  unfold replyCall at taken
  split at taken
  swap
  · cases taken
  rename_i op madeIn live target arrived found
  have holds := invariant.calls id _ found
  have returned : ScopeInvariant (state.setCall id none) := by
    apply invariant_setCall invariant id
    intro call gone
    cases gone
  dsimp only at taken
  split at taken
  · cases taken
  split at taken
  · cases taken
    exact returned
  split at taken
  · rename_i succeeded
    cases taken
    apply scope_flushPending _ (condition succeeded _ found)
    apply invariant_pending returned
    intro entry member
    exact invariant.journaled entry (List.mem_filter.mp member).1
  · cases taken
    apply invariant_pending returned
    intro entry member
    rcases List.mem_append.mp member with older | new
    · exact invariant.journaled entry (List.mem_filter.mp older).1
    · rw [List.mem_singleton.mp new]
      exact holds.edited

end

section

variable {state next : ClientState}

theorem scope_flushRead (invariant : ScopeInvariant state) (taken : flushRead state = some next) :
    ScopeInvariant next := by
  unfold flushRead at taken
  split at taken
  swap
  · cases taken
  rename_i entry rest running
  have replay := invariant.replay _ running
  split at taken
  · cases taken
    apply invariant_flush invariant none
    intro run stopped
    cases stopped
  · rename_i content stored
    cases taken
    have write : InScope ⟨.write entry.path content, state.scope,
        some entry.madeIn, state.known⟩ := by
      refine ⟨?_, fun _ => replay.edited, ?_⟩
      · intro staged
        exact absurd replay.live staged
      · intro _ _
        exact (replay.waiting entry List.mem_cons_self).seen (replay.reads rfl)
    apply invariant_flush (invariant_issue invariant write)
    intro run sent
    cases sent
    refine ⟨replay.live, replay.edited, replay.waiting, ?_, ?_⟩
    · intro stage
      cases stage
    · intro request target arrived stage
      cases stage
      exact ⟨rfl, rfl, (replay.reads rfl).symm⟩

theorem scope_flushArrive (invariant : ScopeInvariant state)
    (taken : flushArrive state = some next) : ScopeInvariant next := by
  unfold flushArrive at taken
  split at taken
  swap
  · cases taken
  rename_i entry rest request target running
  have replay := invariant.replay _ running
  cases taken
  apply invariant_flush (invariant_arriveAt invariant target request)
  intro run sent
  cases sent
  refine ⟨replay.live, replay.edited, ?_, ?_, ?_⟩
  · intro other member
    exact replay.waiting other (List.mem_cons_of_mem entry member)
  · intro stage
    cases stage
  · intro other otherTarget arrived stage
    cases stage
    exact replay.sends request target false rfl

theorem scope_flushReply (invariant : ScopeInvariant state) {ok : Bool}
    (taken : flushReply state ok = some next) : ScopeInvariant next := by
  unfold flushReply at taken
  split at taken
  swap
  · cases taken
  rename_i entry rest request target arrived running
  have replay := invariant.replay _ running
  split at taken
  · cases taken
  split at taken
  · cases taken
    have cleared := invariant_pending invariant
      (clearPending state.pending entry.path) fun other member =>
        invariant.journaled other (List.mem_filter.mp member).1
    apply scope_flushFrom cleared replay.live
    intro other member
    apply replay.waiting other
    cases arrived with
    | true => exact member
    | false => exact List.mem_cons_of_mem entry member
  · cases taken
    apply invariant_flush invariant none
    intro run stopped
    cases stopped

end

section

variable {state next : ClientState} (invariant : ScopeInvariant state)

include invariant

theorem scope_migrate (live : state.session = none) :
    ScopeInvariant (migrateOpfsToGateway state) := by
  unfold migrateOpfsToGateway
  split
  · exact invariant
  refine ⟨invariant.issued, invariant.calls, invariant.journaled,
    invariant.replay, ?_, invariant.copies⟩
  intro listing member
  rcases List.mem_append.mp member with older | new
  · exact invariant.listings listing older
  · rw [List.mem_singleton.mp new]
    exact ⟨live, rfl⟩

variable {position : Nat}

theorem scope_listed (condition : ScopeCondition state (.listed position))
    (taken : listedMigration state position = some next) :
    ScopeInvariant next := by
  unfold listedMigration at taken
  split at taken
  · cases taken
  rename_i listing found
  have may := condition listing found
  obtain ⟨live, here⟩ := invariant.listings listing (List.mem_of_getElem? found)
  cases taken
  refine ⟨invariant.issued, invariant.calls, invariant.journaled, invariant.replay, ?_, ?_⟩
  · intro other member
    exact invariant.listings other (List.mem_of_mem_eraseIdx member)
  · intro copy member
    rcases List.mem_append.mp member with older | new
    · exact invariant.copies copy older
    · obtain ⟨path, missing, rfl⟩ := List.mem_map.mp new
      obtain ⟨isLocal, lacking⟩ := List.mem_filter.mp missing
      obtain ⟨edited, seen⟩ :=
        may path isLocal (Option.isNone_iff_eq_none.mp lacking)
      refine ⟨fun _ => ⟨live, edited⟩, seen, ?_⟩
      intro request target stage
      cases stage

theorem scope_copyRead (taken : copyRead state position = some next) : ScopeInvariant next := by
  unfold copyRead at taken
  split at taken
  swap
  · cases taken
  rename_i path found
  have holds := invariant.copies _ (List.mem_of_getElem? found)
  obtain ⟨live, edited⟩ := holds.reads rfl
  split at taken
  · cases taken
    apply invariant_copies invariant
    intro copy member
    exact invariant.copies copy (List.mem_of_mem_eraseIdx member)
  · rename_i content stored
    cases taken
    have write : InScope ⟨.write path content, state.scope, none, state.known⟩ := by
      refine ⟨?_, fun _ => edited, fun _ _ => holds.seen⟩
      intro staged
      exact absurd live staged
    apply invariant_copies (invariant_issue invariant write)
    intro copy member
    rcases List.mem_or_eq_of_mem_set member with older | rfl
    · exact invariant.copies copy older
    · refine ⟨?_, holds.seen, ?_⟩
      · intro stage
        cases stage
      · intro request target stage
        cases stage
        rfl

theorem scope_copyReply {arrived : Bool} (taken : copyReply state position arrived = some next) :
    ScopeInvariant next := by
  unfold copyReply at taken
  split at taken
  swap
  · cases taken
  rename_i request target found
  cases taken
  have ended := invariant_copies invariant (state.copies.eraseIdx position)
    fun copy member => invariant.copies copy (List.mem_of_mem_eraseIdx member)
  cases arrived with
  | true => exact invariant_arriveAt ended target request
  | false => exact ended

theorem scope_moved (idle : NothingUnsent state) (workspace : Text) (session : Option Text) :
    ScopeInvariant { state with
        workspace := workspace
        session := session } := { invariant with
    calls := by
      intro id call found
      have holds := invariant.calls id call found
      refine ⟨holds.edited, ?_, holds.sent, holds.seen⟩
      intro unsent
      rw [idle.calls id call found] at unsent
      cases unsent
    replay := by
      intro run running
      have stopped : (none : Option FlushRun) = some run := idle.flush.symm.trans running
      cases stopped
    listings := by
      intro listing member
      have waiting : listing ∈ state.listings := member
      rw [idle.listings] at waiting
      cases waiting
    copies := by
      intro copy member
      have holds := invariant.copies copy member
      have notReading := idle.copies copy member
      refine ⟨fun reading => absurd reading notReading, ?_, holds.sends⟩
      have seen := holds.seen
      unfold Copy.workspace at seen ⊢
      split
      · rename_i reading
        exact absurd reading notReading
      · rename_i request target stage
        rw [stage] at seen
        exact seen }

theorem scope_look (path : Text) : ScopeInvariant (lookAt state path) := by
  have fewer : ∀ workspace other, OnItsWay state workspace other → (workspace, other) ∈
          state.known.unseen.filter (· ≠ (state.workspace, path)) →
        (workspace, other) ∈ state.known.unseen :=
    fun _ _ _ member => (List.mem_filter.mp member).1
  unfold lookAt
  split
  · exact invariant_known invariant _ state.gateway (List.Subset.refl _) fewer
  · exact invariant_known invariant state.opfs state.gateway (List.Subset.refl _) fewer

theorem scope_othersRemove {workspace path : Text} (condition : ¬ OnItsWay state workspace path) :
    ScopeInvariant (othersRemove state workspace path) := by
  unfold othersRemove
  split
  · exact invariant
  apply invariant_known invariant state.opfs _ (List.Subset.refl _)
  intro elsewhere other onItsWay member
  rcases List.mem_append.mp member with older | new
  · exact older
  · cases List.mem_singleton.mp new
    exact absurd onItsWay condition

theorem invariant_clientStep {act : ClientAct} (condition : ScopeCondition state act)
    (taken : clientStep state act = some next) : ScopeInvariant next := by
  cases act with
  | edit id op => exact scope_edit invariant condition taken
  | start id => exact scope_start invariant taken
  | cached id => exact scope_cached invariant taken
  | arrive id => exact scope_arrive invariant taken
  | reply id ok => exact scope_reply invariant condition taken
  | flush =>
    cases taken
    exact scope_flushPending invariant condition
  | flushRead => exact scope_flushRead invariant taken
  | flushArrive => exact scope_flushArrive invariant taken
  | flushReply ok => exact scope_flushReply invariant taken
  | migrate =>
    cases taken
    exact scope_migrate invariant condition
  | listed position => exact scope_listed invariant condition taken
  | copyRead position => exact scope_copyRead invariant taken
  | copyReply position arrived => exact scope_copyReply invariant taken
  | setSession session =>
    cases taken
    rcases condition with rfl | idle
    · exact invariant
    · exact scope_moved invariant idle state.workspace session
  | switchWorkspace workspace =>
    cases taken
    rcases condition with rfl | idle
    · exact invariant
    · exact scope_moved invariant idle workspace state.session
  | look path =>
    cases taken
    exact scope_look invariant path
  | othersWrite workspace path content =>
    cases taken
    exact invariant_known invariant state.opfs _ (List.Subset.refl _)
      fun _ _ _ member => (List.mem_filter.mp member).1
  | othersRemove workspace path =>
    cases taken
    exact scope_othersRemove invariant condition

end

/-- In every run whose steps meet the condition, every request stays in the
scope of its edit. -/
theorem sync_stays_in_scope {start state : ClientState} {acts : List ClientAct}
    (starts : ScopeStarts start) (meets : StepsMeet clientStep ScopeCondition start acts)
    (executed : runFrom clientStep start acts = some state) :
    StaysInScope state :=
  staysInScope_of_invariant (invariant_of_stepsMeet ScopeInvariant
    (fun _ _ _ invariant condition taken => invariant_clientStep invariant condition taken)
    (invariant_scopeStarts starts) meets executed)

def newClient : ClientState :=
  freshClient "w".toList .empty [] (fun _ _ => none)

theorem newClient_starts : ScopeStarts newClient where
  flush := rfl
  calls := fun _ => rfl
  listings := rfl
  copies := rfl
  issued := rfl
  canonical := by
    intro entry member
    cases member
  journaled := by
    intro entry member
    cases member

/-- An edit that is journaled and replayed, then one in a staged session. -/
def draftAfterReplay : List ClientAct :=
  [.edit 0 (.write "a".toList "x".toList), .start 0, .cached 0,
    .reply 0 false, .flush, .flushRead, .flushArrive, .flushReply true,
    .setSession (some "s".toList), .edit 0 (.write "b".toList "y".toList),
    .start 0]

theorem sync_stays_in_scope_draft :
    ∃ state, runFrom clientStep newClient draftAfterReplay = some state ∧
      state.issued.length = 3 ∧ StaysInScope state := by
  refine ⟨_, rfl, by decide +kernel, ?_⟩
  refine @sync_stays_in_scope newClient _ draftAfterReplay newClient_starts ?_ rfl
  refine ⟨⟨by decide +kernel, fun _ _ deleted => (by cases deleted)⟩, fun edited taken => ?_⟩
  cases taken
  refine ⟨trivial, fun started taken => ?_⟩
  cases taken
  refine ⟨trivial, fun cached taken => ?_⟩
  cases taken
  refine ⟨fun succeeded => (by cases succeeded), fun failed taken => ?_⟩
  cases taken
  refine ⟨fun _ _ => ⟨rfl, ?_, ?_⟩, fun flushing taken => ?_⟩
  · intro entry member
    cases List.mem_singleton.mp member
    rfl
  · intro entry member isWrite deleted
    cases deleted
  cases taken
  refine ⟨trivial, fun read taken => ?_⟩
  cases taken
  refine ⟨trivial, fun arrived taken => ?_⟩
  cases taken
  refine ⟨trivial, fun cleared taken => ?_⟩
  cases taken
  refine ⟨Or.inr ⟨?_, rfl, rfl, ?_⟩, fun switched taken => ?_⟩
  · intro id call found
    match id with
    | 0 => cases found
    | _ + 1 => cases found
  · intro copy member
    cases member
  cases taken
  refine ⟨⟨by decide +kernel, fun live => (by cases live)⟩, fun drafted taken => ?_⟩
  cases taken
  exact ⟨trivial, fun sent taken => trivial⟩

/-- A journaled edit, and a call that returns when a session is staged: the
journal is replayed into the session. -/
def replayIntoSession : List ClientAct :=
  [.edit 0 (.write "a".toList "x".toList), .start 0, .cached 0,
    .reply 0 false, .edit 1 (.write "b".toList "y".toList), .start 1,
    .cached 1, .arrive 1, .setSession (some "s".toList), .reply 1 true,
    .flushRead]

theorem sync_leaves_scope :
    ¬ ∀ (start state : ClientState) (acts : List ClientAct),
      ScopeStarts start → runFrom clientStep start acts = some state → StaysInScope state := by
  intro law
  have ran : (runFrom clientStep newClient replayIntoSession).map
      (fun state => state.issued.map fun issued =>
        (issued.target.session, issued.madeIn == some issued.target)) =
      some [(none, true), (none, true), (some "s".toList, false)] := by
    decide +kernel
  obtain ⟨state, executed, logged⟩ := Option.map_eq_some_iff.mp ran
  have stays := law newClient state replayIntoSession newClient_starts executed
  have last : (some "s".toList, false) ∈ state.issued.map fun issued =>
      (issued.target.session, issued.madeIn == some issued.target) := by
    rw [logged]
    decide
  obtain ⟨issued, member, shown⟩ := List.mem_map.mp last
  rw [Prod.mk.injEq, beq_eq_false_iff_ne] at shown
  have inScope := stays.issued issued member
  exact shown.2 (inScope.session (by rw [shown.1]; exact Option.some_ne_none _))

end Aprovan.Client
