import Aprovan.Client.WorkspaceVfs

/-!
# Offline edits

Calls of `write` and `remove` on the live tree, with replays of the journal
between their awaits, and requests that fail at any time.  The journal names
paths only, and a pending write has the content that OPFS holds when it is
replayed.
-/

namespace Aprovan.Client

open Aprovan.Library

/-- The client, and what the last operation on every path leaves there;
`none` for a path without one. -/
structure OfflineState where
  client : ClientState
  intended : Text → Option (Option Text)

def intendedAfter (state : OfflineState) : ClientAct → Text → Option (Option Text)
  | .start id, path =>
    match state.client.calls id with
    | none => state.intended path
    | some call =>
      if call.op.covers path then some call.op.effect else state.intended path
  | _, path => state.intended path

/-- Calls, replies and replays; others leave alone what was touched. -/
def isOfflineAct (state : OfflineState) : ClientAct → Bool
  | .migrate => false
  | .listed _ => false
  | .copyRead _ => false
  | .copyReply _ _ => false
  | .setSession _ => false
  | .switchWorkspace _ => false
  | .look _ => false
  | .othersWrite _ path _ => (state.intended path).isNone
  | .othersRemove _ path => (state.intended path).isNone
  | _ => true

def offlineStep (state : OfflineState) (act : ClientAct) : Option OfflineState :=
  if isOfflineAct state act then (clientStep state.client act).map (⟨·, intendedAfter state act⟩)
  else none

/-- No operation yet, and nothing journaled. -/
def offlineStart (workspace : Text) (opfs : Table Text) (gateway : Scope → Text → Option Text) :
    OfflineState where
  client := freshClient workspace opfs [] gateway
  intended := fun _ => none

/-- At rest the gateway holds the last operation on every path. -/
def KeepsEdits (state : OfflineState) : Prop :=
  (∀ id, state.client.calls id = none) → state.client.pending = [] →
    ∀ path value, state.intended path = some value →
      state.client.gateway state.client.scope path = value

def Apart (first second : Text → Bool) : Prop :=
  ∀ path, first path = true → second path = false

theorem Apart.symm {first second : Text → Bool} (apart : Apart first second) :
    Apart second first := by
  intro path inSecond
  rw [Bool.eq_false_iff]
  intro inFirst
  rw [apart path inFirst] at inSecond
  cases inSecond

def Call.begun (call : Call) : Bool :=
  call.stage ≠ .opening

theorem begun_of_sending {call : Call} {isLive : Bool} {target : Scope}
    {arrived : Bool} (stage : call.stage = .sending isLive target arrived) :
    call.begun = true := by
  rw [Call.begun, stage]
  rfl

def replaying (client : ClientState) : List PendingOp :=
  match client.flush with
  | none => []
  | some run => run.entry :: run.rest

def ClearOf (calls : Nat → Option Call) (entries : List PendingOp) : Prop :=
  ∀ id call, calls id = some call → call.begun = true →
    ∀ entry ∈ entries, Apart call.op.covers entry.covers

/-- A replay that starts now meets no call in flight. -/
def QuietReplay (client : ClientState) : Prop :=
  client.flush = none → ClearOf client.calls client.pending

/-- No journaled recursive removal is replaced by less. -/
def ReplacesAll (pending : List PendingOp) (op : FileOp) : Prop :=
  ∀ entry ∈ pending, entry.path = op.path → entry.op = .remove true → op.kind = .remove true

/-- No removal that is still journaled covers the path elsewhere. -/
def OutlivesRemovals (pending : List PendingOp) (op : FileOp) : Prop :=
  op.kind = .write → ∀ entry ∈ pending, entry.path ≠ op.path →
    entry.op ≠ .write → entry.covers op.path = false

/-- Edits name canonical paths; a call starts apart from the calls in flight
and from what is being replayed; a reply neither replaces a journaled removal
by less nor succeeds below one; a replay meets no call in flight. -/
def OfflineCondition (state : OfflineState) : ClientAct → Prop
  | .edit _ op => isCanonical op.path = true
  | .start id => ∀ call, state.client.calls id = some call →
      (∀ other second, state.client.calls other = some second →
        second.begun = true → Apart call.op.covers second.op.covers) ∧
      ∀ entry ∈ replaying state.client, Apart call.op.covers entry.covers
  | .reply id ok => ∀ call, state.client.calls id = some call →
      ReplacesAll state.client.pending call.op ∧
      (ok = true → OutlivesRemovals state.client.pending call.op ∧ QuietReplay {
          state.client.setCall id none with
            pending := clearPending state.client.pending call.op.path })
  | .flush => QuietReplay state.client
  | _ => True

section

variable {pending rest : List PendingOp} {entry new : PendingOp} {path : Text}

def lastEntry (pending : List PendingOp) (path : Text) : Option PendingOp :=
  (pending.filter (·.covers path)).getLast?

theorem covers_self (entry : PendingOp) : entry.covers entry.path = true :=
  entry.op.covers_self entry.path

theorem mem_of_lastEntry (found : lastEntry pending path = some entry) :
    entry ∈ pending ∧ entry.covers path = true := by
  have member := List.mem_of_getLast? found
  rw [List.mem_filter] at member
  exact member

theorem lastEntry_eq_none_iff :
    lastEntry pending path = none ↔ ∀ entry ∈ pending, entry.covers path = false := by
  rw [lastEntry, List.getLast?_eq_none_iff, List.filter_eq_nil_iff]
  simp only [Bool.not_eq_true]

theorem lastEntry_clearPending {cleared : Text}
    (spared : ∀ entry ∈ pending, entry.path = cleared → entry.covers path = false) :
    lastEntry (clearPending pending cleared) path = lastEntry pending path := by
  rw [lastEntry, lastEntry, clearPending, List.filter_filter]
  congr 1
  apply List.filter_congr
  intro entry member
  by_cases same : entry.path = cleared
  · rw [spared entry member same]
    rfl
  · simp [same]

theorem lastEntry_setPending_of_covers (covered : new.covers path = true) :
    lastEntry (setPending pending new) path = some new := by
  rw [lastEntry, setPending, List.filter_append]
  simp [covered]

theorem lastEntry_setPending_of_not (outside : new.covers path = false)
    (spared : ∀ entry ∈ pending, entry.path = new.path → entry.covers path = false) :
    lastEntry (setPending pending new) path = lastEntry pending path := by
  rw [← lastEntry_clearPending spared]
  simp [lastEntry, setPending, clearPending, outside]

theorem lastEntry_cons {last : PendingOp} (found : lastEntry rest path = some last) :
    lastEntry (entry :: rest) path = some last := by
  rw [lastEntry, List.filter_cons]
  rw [lastEntry] at found
  by_cases covered : entry.covers path = true
  · rw [if_pos covered, List.getLast?_cons, found]
    rfl
  · rw [if_neg covered]
    exact found

theorem lastEntry_cons_of_none (nothing : lastEntry rest path = none)
    (covered : entry.covers path = true) :
    lastEntry (entry :: rest) path = some entry := by
  rw [lastEntry, List.filter_cons, if_pos covered, List.getLast?_cons]
  rw [lastEntry] at nothing
  rw [nothing]
  rfl

theorem clearPending_head (distinct : ((entry :: rest).map PendingOp.path).Nodup) :
    clearPending (entry :: rest) entry.path = rest := by
  rw [List.map_cons, List.nodup_cons] at distinct
  rw [clearPending, List.filter_cons_of_neg (by simp), List.filter_eq_self]
  intro other member
  have different : other.path ≠ entry.path := by
    intro same
    rw [← same] at distinct
    exact distinct.1 (List.mem_map_of_mem member)
  simpa using different

theorem nodup_clearPending (distinct : (pending.map PendingOp.path).Nodup) (cleared : Text) :
    ((clearPending pending cleared).map PendingOp.path).Nodup :=
  distinct.sublist (List.filter_sublist.map PendingOp.path)

theorem nodup_setPending (distinct : (pending.map PendingOp.path).Nodup) (new : PendingOp) :
    ((setPending pending new).map PendingOp.path).Nodup := by
  rw [setPending, List.map_append, List.nodup_append]
  refine ⟨nodup_clearPending distinct new.path, List.nodup_singleton _, ?_⟩
  intro first inOld second inNew same
  obtain ⟨entry, member, rfl⟩ := List.mem_map.mp inOld
  have different := (List.mem_filter.mp member).2
  rw [List.mem_singleton.mp inNew] at same
  simp [same] at different

theorem front_clearPending {cleared : Text} (front : rest <+: pending)
    (spared : ∀ entry ∈ rest, entry.path ≠ cleared) :
    rest <+: clearPending pending cleared := by
  obtain ⟨newer, rfl⟩ := front
  rw [clearPending, List.filter_append]
  have kept : rest.filter (·.path ≠ cleared) = rest := by
    rw [List.filter_eq_self]
    intro entry member
    simpa using spared entry member
  rw [kept]
  exact List.prefix_append rest _

end

def Settled (calls : Nat → Option Call) (path : Text) : Prop :=
  ∀ id call, calls id = some call → call.begun = true → call.op.covers path = false

def ApartCalls (calls : Nat → Option Call) : Prop :=
  ∀ id other first second, id ≠ other → calls id = some first →
    calls other = some second → first.begun = true →
      second.begun = true → Apart first.op.covers second.op.covers

/-- The gateway has the value, or a journaled entry stands for it: a removal
for its absence, a write for what OPFS holds. -/
def Held (client : ClientState) (path : Text) (value : Option Text) : Prop :=
  match lastEntry client.pending path with
  | none => client.gateway client.scope path = value
  | some entry => entry.op ≠ .write → value = none

variable {path : Text}

theorem Held.congr {client other : ClientState} {value : Option Text}
    (held : Held client path value) (sameLast : lastEntry other.pending path =
      lastEntry client.pending path)
    (sameFile : lastEntry client.pending path = none →
      other.gateway other.scope path = client.gateway client.scope path) :
    Held other path value := by
  unfold Held at held ⊢
  rw [sameLast]
  cases found : lastEntry client.pending path with
  | none =>
    rw [found] at held
    exact (sameFile found).trans held
  | some entry =>
    rw [found] at held
    exact held

structure ReplaySends (state : OfflineState) (entry : PendingOp)
    (request : FileOp) (target : Scope) (arrived : Bool) : Prop where
  target : target = state.client.scope
  path : request.path = entry.path
  kind : request.kind = entry.op
  content : entry.op = .write → state.intended entry.path = some request.effect
  effect : arrived = true → ∀ path, entry.covers path = true →
    state.client.gateway state.client.scope path = request.effect

structure ReplayInvariant (state : OfflineState) (run : FlushRun) : Prop where
  front : run.entry :: run.rest <+: state.client.pending
  clear : ClearOf state.client.calls (run.entry :: run.rest)
  reads : run.stage = .reading → run.entry.op = .write
  sends : ∀ request target arrived, run.stage = .sending request target arrived →
      ReplaySends state run.entry request target arrived

structure OfflineInvariant (state : OfflineState) : Prop where
  live : state.client.session = none
  targets : ∀ id call isLive target arrived, state.client.calls id = some call →
      call.stage = .sending isLive target arrived → isLive = true ∧ target = state.client.scope
  apart : ApartCalls state.client.calls
  intends : ∀ id call, state.client.calls id = some call →
    call.begun = true → ∀ path, call.op.covers path = true →
      state.intended path = some call.op.effect
  cached : ∀ path value, state.intended path = some value →
    (∀ id call, state.client.calls id = some call →
      call.stage = .caching → call.op.covers path = false) → state.client.opfs.get path = value
  arrived : ∀ id call isLive target, state.client.calls id = some call →
    call.stage = .sending isLive target true → ∀ path, call.op.covers path = true →
        state.client.gateway state.client.scope path = call.op.effect
  journaled : ∀ entry ∈ state.client.pending, ∀ path,
    entry.covers path = true → state.intended path ≠ none
  distinct : (state.client.pending.map PendingOp.path).Nodup
  held : ∀ path value, state.intended path = some value →
    Settled state.client.calls path → Held state.client path value
  replay : ∀ run, state.client.flush = some run → ReplayInvariant state run

theorem keepsEdits_of_invariant {state : OfflineState} (invariant : OfflineInvariant state) :
    KeepsEdits state := by
  intro idle empty path value intended
  have settled : Settled state.client.calls path := by
    intro id call found
    rw [idle id] at found
    cases found
  have held := invariant.held path value intended settled
  rw [Held, empty] at held
  exact held

theorem invariant_offlineStart (workspace : Text) (opfs : Table Text)
    (gateway : Scope → Text → Option Text) :
    OfflineInvariant (offlineStart workspace opfs gateway) where
  live := rfl
  targets := by
    intro id call isLive target arrived found
    cases found
  apart := by
    intro id other first second different found
    cases found
  intends := by
    intro id call found
    cases found
  cached := by
    intro path value intended
    cases intended
  arrived := by
    intro id call isLive target found
    cases found
  journaled := by
    intro entry member
    cases member
  distinct := List.nodup_nil
  held := by
    intro path value intended
    cases intended
  replay := by
    intro run running
    cases running

variable {target : Scope}

section

variable {state : OfflineState} {id : Nat} {call new : Call}
  {calls : Nat → Option Call}

theorem call_of_update {other : Nat} {changed : Option Call} {found : Call}
    (updated : Function.update calls id changed other = some found) :
    (other = id ∧ changed = some found) ∨ (other ≠ id ∧ calls other = some found) := by
  by_cases same : other = id
  · subst same
    rw [Function.update_self] at updated
    exact Or.inl ⟨rfl, updated⟩
  · rw [Function.update_of_ne same] at updated
    exact Or.inr ⟨same, updated⟩

theorem clear_of_update {kind : Call → Prop} {changed : Option Call} (clear : ∀ other second,
      Function.update calls id changed other = some second → kind second →
        second.op.covers path = false)
    (own : ∀ call, calls id = some call → kind call → call.op.covers path = false) :
    ∀ other second, calls other = some second → kind second → second.op.covers path = false := by
  intro other second inFlight isKind
  by_cases same : other = id
  · subst same
    exact own second inFlight isKind
  · exact clear other second ((Function.update_of_ne same _ _).trans inFlight) isKind

/-- A call that moves on covers what it covered. -/
theorem settled_of_update (settled : Settled (Function.update calls id (some new)) path)
    (found : calls id = some call) (sameOp : new.op = call.op) (begun : new.begun = true) :
    Settled calls path := by
  apply clear_of_update settled
  intro second inFlight _
  cases found.symm.trans inFlight
  rw [← sameOp]
  exact settled id new (Function.update_self _ _ _) begun

variable {entries : List PendingOp}

theorem clearOf_update (clear : ClearOf calls entries) (found : calls id = some call)
    (begun : call.begun = true) (sameOp : new.op = call.op) :
    ClearOf (Function.update calls id (some new)) entries := by
  intro other second inFlight running entry member
  rcases call_of_update inFlight with ⟨_, moved⟩ | ⟨_, older⟩
  · cases moved
    rw [sameOp]
    exact clear id call found begun entry member
  · exact clear other second older running entry member

theorem clearOf_finished (clear : ClearOf calls entries) :
    ClearOf (Function.update calls id none) entries := by
  intro other second inFlight running
  rcases call_of_update inFlight with ⟨_, moved⟩ | ⟨_, older⟩
  · cases moved
  · exact clear other second older running

variable {next : ClientState} {op : FileOp}

theorem invariant_edit (invariant : OfflineInvariant state)
    (taken : editFile state.client id op = some next) :
    OfflineInvariant ⟨next, state.intended⟩ := by
  unfold editFile at taken
  split at taken
  · cases taken
  rename_i free
  cases taken
  have older : ∀ other second, Function.update state.client.calls id
      (some ⟨op, state.client.scope, .opening⟩) other = some second →
        second.begun = true → state.client.calls other = some second := by
    intro other second inFlight running
    rcases call_of_update inFlight with ⟨_, opened⟩ | ⟨_, before⟩
    · cases opened
      cases running
    · exact before
  have settled : ∀ path, Settled (Function.update state.client.calls id
      (some ⟨op, state.client.scope, .opening⟩)) path → Settled state.client.calls path := by
    intro path clear
    apply clear_of_update clear
    intro second inFlight
    rw [free] at inFlight
    cases inFlight
  refine { invariant with
    targets := ?_
    apart := ?_
    intends := ?_
    cached := ?_
    arrived := ?_
    held := ?_
    replay := ?_ }
  · intro other second isLive target arrived inFlight stage
    have begun : second.begun = true := begun_of_sending stage
    exact invariant.targets other second isLive target arrived
      (older other second inFlight begun) stage
  · intro one other first second different inFirst inSecond begun running
    exact invariant.apart one other first second different
      (older one first inFirst begun) (older other second inSecond running)
      begun running
  · intro other second inFlight running
    exact invariant.intends other second (older other second inFlight running) running
  · intro path value intended clear
    apply invariant.cached path value intended
    apply clear_of_update clear
    intro second inFlight
    rw [free] at inFlight
    cases inFlight
  · intro other second isLive target inFlight stage
    have begun : second.begun = true := begun_of_sending stage
    exact invariant.arrived other second isLive target (older other second inFlight begun) stage
  · intro path value intended clear
    exact invariant.held path value intended (settled path clear)
  · intro run running
    have replay := invariant.replay run running
    refine ⟨replay.front, ?_, replay.reads, ?_⟩
    · intro other second inFlight begun
      exact replay.clear other second (older other second inFlight begun) begun
    · intro request target arrived stage
      have sends := replay.sends request target arrived stage
      exact { sends with }

theorem apartCalls_update (apart : ApartCalls calls)
    (clear : ∀ other second, other ≠ id → calls other = some second →
      second.begun = true → Apart new.op.covers second.op.covers) :
    ApartCalls (Function.update calls id (some new)) := by
  intro one other first second different inFirst inSecond begun running
  rcases call_of_update inFirst with ⟨isFirst, moved⟩ | ⟨notFirst, older⟩
  · cases moved
    rcases call_of_update inSecond with ⟨isSecond, _⟩ | ⟨notSecond, before⟩
    · exact absurd (isFirst.trans isSecond.symm) different
    · exact clear other second notSecond before running
  · rcases call_of_update inSecond with ⟨_, moved⟩ | ⟨_, before⟩
    · cases moved
      exact (clear one first notFirst older begun).symm
    · exact apart one other first second different older before begun running

theorem apartCalls_moved (apart : ApartCalls calls) (found : calls id = some call)
    (begun : call.begun = true) (sameOp : new.op = call.op) :
    ApartCalls (Function.update calls id (some new)) := by
  apply apartCalls_update apart
  intro other second different inFlight running
  rw [sameOp]
  exact apart id other call second (Ne.symm different) found inFlight begun running

theorem apartCalls_finished (apart : ApartCalls calls) :
    ApartCalls (Function.update calls id none) := by
  intro one other first second different inFirst inSecond
  rcases call_of_update inFirst with ⟨_, gone⟩ | ⟨_, older⟩
  · cases gone
  · rcases call_of_update inSecond with ⟨_, gone⟩ | ⟨_, before⟩
    · cases gone
    · exact apart one other first second different older before

theorem invariant_start (invariant : OfflineInvariant state)
    (condition : OfflineCondition state (.start id))
    (taken : beginCall state.client id = some next) :
    OfflineInvariant ⟨next, intendedAfter state (.start id)⟩ := by
  unfold beginCall at taken
  split at taken
  swap
  · cases taken
  rename_i op madeIn found
  have live : state.client.isStagedScope = false := by
    rw [ClientState.isStagedScope, invariant.live]
    rfl
  rw [live, if_neg Bool.false_ne_true] at taken
  cases taken
  obtain ⟨clear, clearReplay⟩ := condition _ found
  have intends : ∀ path, intendedAfter state (.start id) path =
      if op.covers path then some op.effect else state.intended path := by
    intro path
    simp only [intendedAfter, found]
  have unchanged : ∀ path, op.covers path = false →
      intendedAfter state (.start id) path = state.intended path := by
    intro path outside
    rw [intends, outside]
    exact if_neg Bool.false_ne_true
  have settled : ∀ path, Settled (Function.update state.client.calls id
      (some ⟨op, madeIn, .caching⟩)) path →
        op.covers path = false ∧ Settled state.client.calls path := by
    intro path clearPath
    refine ⟨clearPath id _ (Function.update_self _ _ _) rfl, ?_⟩
    apply clear_of_update clearPath
    intro second inFlight running
    cases found.symm.trans inFlight
    cases running
  refine { invariant with
    targets := ?_
    apart := apartCalls_update invariant.apart
      fun other second _ inFlight running => clear other second inFlight running
    intends := ?_
    cached := ?_
    arrived := ?_
    journaled := ?_
    held := ?_
    replay := ?_ }
  · intro other second isLive target arrived inFlight stage
    rcases call_of_update inFlight with ⟨_, moved⟩ | ⟨_, older⟩
    · cases moved
      cases stage
    · exact invariant.targets other second isLive target arrived older stage
  · intro other second inFlight running path covered
    rcases call_of_update inFlight with ⟨_, moved⟩ | ⟨_, older⟩
    · cases moved
      exact (intends path).trans (if_pos covered)
    · have outside := (clear other second older running).symm path covered
      exact (unchanged path outside).trans
        (invariant.intends other second older running path covered)
  · intro path value intended clearPath
    have outside : op.covers path = false := clearPath id _ (Function.update_self _ _ _) rfl
    apply invariant.cached path value ((unchanged path outside).symm.trans intended)
    apply clear_of_update clearPath
    intro second inFlight stage
    cases found.symm.trans inFlight
    cases stage
  · intro other second isLive target inFlight stage
    rcases call_of_update inFlight with ⟨_, moved⟩ | ⟨_, older⟩
    · cases moved
      cases stage
    · exact invariant.arrived other second isLive target older stage
  · intro entry member path covered
    show intendedAfter state (.start id) path ≠ none
    rw [intends]
    by_cases inside : op.covers path = true
    · rw [if_pos inside]
      exact Option.some_ne_none _
    · rw [if_neg inside]
      exact invariant.journaled entry member path covered
  · intro path value intended clearPath
    obtain ⟨outside, before⟩ := settled path clearPath
    exact invariant.held path value ((unchanged path outside).symm.trans intended) before
  · intro run running
    have replay := invariant.replay run running
    have entries : replaying state.client = run.entry :: run.rest := by
      rw [replaying, show state.client.flush = some run from running]
    rw [entries] at clearReplay
    refine ⟨replay.front, ?_, replay.reads, ?_⟩
    · intro other second inFlight begun
      rcases call_of_update inFlight with ⟨_, moved⟩ | ⟨_, older⟩
      · cases moved
        exact clearReplay
      · exact replay.clear other second older begun
    · intro request target arrived stage
      have sends := replay.sends request target arrived stage
      refine ⟨sends.target, sends.path, sends.kind, ?_, sends.effect⟩
      intro isWrite
      have outside : op.covers run.entry.path = false :=
        (clearReplay run.entry List.mem_cons_self).symm _ (covers_self run.entry)
      exact (unchanged _ outside).trans (sends.content isWrite)

/-- OPFS holds what the call leaves. -/
theorem get_cacheOp (opfs : Table Text) (op : FileOp) (path : Text) :
    (cacheOp opfs op).get path = if op.covers path then op.effect else opfs.get path := by
  cases op with
  | write key content =>
    by_cases same : path = key
    · subst same
      have covered : (FileOp.write path content).covers path = true :=
        OpKind.covers_self .write path
      rw [if_pos covered]
      exact opfs.get_put_self path content
    · have outside : ¬ (FileOp.write key content).covers path = true := by
        simpa [FileOp.covers, FileOp.kind, FileOp.path, OpKind.covers] using same
      rw [if_neg outside]
      exact opfs.get_put_of_ne content same
  | remove key recursive =>
    rw [cacheOp, Table.get_keep]
    by_cases covered : (FileOp.remove key recursive).covers path = true
    · rw [covered, if_pos rfl]
      exact if_neg Bool.false_ne_true
    · rw [if_neg covered, Bool.not_eq_true _ |>.mp covered]
      exact if_pos rfl

theorem invariant_cached (invariant : OfflineInvariant state)
    (taken : cachedCall state.client id = some next) :
    OfflineInvariant ⟨next, state.intended⟩ := by
  unfold cachedCall at taken
  split at taken
  swap
  · cases taken
  rename_i op madeIn found
  cases taken
  have intends := invariant.intends id _ found rfl
  refine { invariant with
    targets := ?_
    apart := apartCalls_moved invariant.apart found rfl rfl
    intends := ?_
    cached := ?_
    arrived := ?_
    held := ?_
    replay := ?_ }
  · intro other second isLive target arrived inFlight stage
    rcases call_of_update inFlight with ⟨_, moved⟩ | ⟨_, older⟩
    · cases moved
      cases stage
      exact ⟨rfl, rfl⟩
    · exact invariant.targets other second isLive target arrived older stage
  · intro other second inFlight running
    rcases call_of_update inFlight with ⟨_, moved⟩ | ⟨_, older⟩
    · cases moved
      exact intends
    · exact invariant.intends other second older running
  · intro path value intended clearPath
    refine (get_cacheOp state.client.opfs op path).trans ?_
    by_cases covered : op.covers path = true
    · rw [if_pos covered]
      exact Option.some.inj ((intends path covered).symm.trans intended)
    · rw [if_neg covered]
      apply invariant.cached path value intended
      apply clear_of_update clearPath
      intro second inFlight _
      cases found.symm.trans inFlight
      exact Bool.eq_false_iff.mpr covered
  · intro other second isLive target inFlight stage
    rcases call_of_update inFlight with ⟨_, moved⟩ | ⟨_, older⟩
    · cases moved
      cases stage
    · exact invariant.arrived other second isLive target older stage
  · intro path value intended clearPath
    exact invariant.held path value intended (settled_of_update clearPath found rfl rfl)
  · intro run running
    have replay := invariant.replay run running
    refine ⟨replay.front, clearOf_update replay.clear found rfl rfl, replay.reads, ?_⟩
    intro request target arrived stage
    have sends := replay.sends request target arrived stage
    exact { sends with }

theorem apply_of_covers {files : Text → Option Text} (covered : op.covers path = true) :
    op.apply files path = op.effect :=
  if_pos covered

theorem apply_of_not {files : Text → Option Text} {path : Text}
    (outside : op.covers path = false) :
    op.apply files path = files path :=
  if_neg (by rw [outside]; exact Bool.false_ne_true)

theorem invariant_arrive (invariant : OfflineInvariant state)
    (taken : arriveCall state.client id = some next) :
    OfflineInvariant ⟨next, state.intended⟩ := by
  unfold arriveCall at taken
  split at taken
  swap
  · cases taken
  rename_i op madeIn isLive target found
  cases taken
  obtain ⟨liveCall, sameTarget⟩ :=
    invariant.targets id _ isLive target false found rfl
  have intends := invariant.intends id _ found rfl
  have files : ∀ path, Function.update state.client.gateway target
      (op.apply (state.client.gateway target)) state.client.scope path =
        op.apply (state.client.gateway state.client.scope) path := by
    intro path
    rw [sameTarget, Function.update_self]
  refine { invariant with
    targets := ?_
    apart := apartCalls_moved invariant.apart found rfl rfl
    intends := ?_
    cached := ?_
    arrived := ?_
    held := ?_
    replay := ?_ }
  · intro other second isLive target arrived inFlight stage
    rcases call_of_update inFlight with ⟨_, moved⟩ | ⟨_, older⟩
    · cases moved
      cases stage
      exact ⟨liveCall, sameTarget⟩
    · exact invariant.targets other second isLive target arrived older stage
  · intro other second inFlight running
    rcases call_of_update inFlight with ⟨_, moved⟩ | ⟨_, older⟩
    · cases moved
      exact intends
    · exact invariant.intends other second older running
  · intro path value intended clearPath
    apply invariant.cached path value intended
    apply clear_of_update clearPath
    intro second inFlight stage
    cases found.symm.trans inFlight
    cases stage
  · intro other second isLive target inFlight stage path covered
    refine (files path).trans ?_
    rcases call_of_update inFlight with ⟨_, moved⟩ | ⟨different, older⟩
    · cases moved
      exact apply_of_covers covered
    · have begun : second.begun = true := begun_of_sending stage
      have outside := invariant.apart other id second _ different older found
        begun rfl path covered
      rw [apply_of_not outside]
      exact invariant.arrived other second isLive target older stage path covered
  · intro path value intended clearPath
    have before := settled_of_update clearPath found rfl rfl
    have outside := before id _ found rfl
    exact (invariant.held path value intended before).congr rfl
      fun _ => (files path).trans (apply_of_not outside)
  · intro run running
    have replay := invariant.replay run running
    refine ⟨replay.front, clearOf_update replay.clear found rfl rfl, replay.reads, ?_⟩
    intro request target arrived stage
    have sends := replay.sends request target arrived stage
    refine ⟨sends.target, sends.path, sends.kind, sends.content, ?_⟩
    intro hasArrived path covered
    have outside := (replay.clear id _ found rfl run.entry List.mem_cons_self).symm path covered
    exact (files path).trans ((apply_of_not outside).trans (sends.effect hasArrived path covered))

theorem path_ne_of_clear (clear : ClearOf calls entries)
    (found : calls id = some call) (begun : call.begun = true) :
    ∀ entry ∈ entries, entry.path ≠ call.op.path := by
  intro entry member same
  have outside := clear id call found begun entry member call.op.path (OpKind.covers_self _ _)
  rw [← same, covers_self] at outside
  cases outside

theorem covers_of_replaced {pending : List PendingOp}
    (replaces : ReplacesAll pending op) (outside : op.covers path = false) :
    ∀ entry ∈ pending, entry.path = op.path → entry.covers path = false := by
  intro entry member same
  rw [Bool.eq_false_iff]
  intro covered
  have notSelf : path ≠ op.path := by
    intro equal
    rw [equal] at outside
    rw [show op.covers op.path = true from OpKind.covers_self _ _] at outside
    cases outside
  have isRemoval : entry.op = .remove true := by
    cases kind : entry.op with
    | write =>
      rw [PendingOp.covers, kind, same] at covered
      exact absurd (of_decide_eq_true covered) notSelf
    | remove recursive =>
      cases recursive with
      | true => rfl
      | false =>
        rw [PendingOp.covers, kind, same] at covered
        exact absurd (of_decide_eq_true covered) notSelf
  have more := replaces entry member same isRemoval
  rw [PendingOp.covers, isRemoval, same, ← more] at covered
  rw [show op.covers path = true from covered] at outside
  cases outside

theorem invariant_returned (invariant : OfflineInvariant state) {pending : List PendingOp}
    {call : Call} (found : state.client.calls id = some call) (begun : call.begun = true)
    (notCaching : call.stage ≠ .caching)
    (journaled : ∀ entry ∈ pending, ∀ path, entry.covers path = true →
      state.intended path ≠ none) (distinct : (pending.map PendingOp.path).Nodup)
    (front : ∀ run, state.client.flush = some run → run.entry :: run.rest <+: pending)
    (covered : ∀ path, call.op.covers path = true →
      Held { state.client with pending := pending } path call.op.effect)
    (outside : ∀ path, call.op.covers path = false →
      lastEntry pending path = lastEntry state.client.pending path) :
    OfflineInvariant ⟨{
      state.client.setCall id none with pending := pending },
      state.intended⟩ := by
  have older : ∀ other second, Function.update state.client.calls id none other = some second →
        other ≠ id ∧ state.client.calls other = some second := by
    intro other second inFlight
    rcases call_of_update inFlight with ⟨_, gone⟩ | before
    · cases gone
    · exact before
  refine { invariant with
    targets := ?_
    apart := apartCalls_finished invariant.apart
    intends := ?_
    cached := ?_
    arrived := ?_
    journaled := journaled
    distinct := distinct
    held := ?_
    replay := ?_ }
  · intro other second isLive target arrived inFlight stage
    exact invariant.targets other second isLive target arrived
      (older other second inFlight).2 stage
  · intro other second inFlight running
    exact invariant.intends other second (older other second inFlight).2 running
  · intro path value intended clearPath
    apply invariant.cached path value intended
    apply clear_of_update clearPath
    intro second inFlight stage
    cases found.symm.trans inFlight
    exact absurd stage notCaching
  · intro other second isLive target inFlight stage
    exact invariant.arrived other second isLive target (older other second inFlight).2 stage
  · intro path value intended clearPath
    by_cases inside : call.op.covers path = true
    · have own := invariant.intends id call found begun path inside
      have same : call.op.effect = value := Option.some.inj (own.symm.trans intended)
      rw [← same]
      exact covered path inside
    · have isOutside := Bool.eq_false_iff.mpr inside
      have before : Settled state.client.calls path := by
        apply clear_of_update clearPath
        intro second inFlight _
        cases found.symm.trans inFlight
        exact isOutside
      exact (invariant.held path value intended before).congr (outside path isOutside) fun _ => rfl
  · intro run running
    have replay := invariant.replay run running
    refine ⟨front run running, clearOf_finished replay.clear, replay.reads, ?_⟩
    intro request target arrived stage
    have sends := replay.sends request target arrived stage
    exact { sends with }

theorem invariant_cleared (invariant : OfflineInvariant state)
    (found : state.client.calls id = some call) {isLive : Bool}
    (stage : call.stage = .sending isLive target true)
    (replaces : ReplacesAll state.client.pending call.op)
    (outlives : OutlivesRemovals state.client.pending call.op) :
    OfflineInvariant ⟨{
      state.client.setCall id none with
        pending := clearPending state.client.pending call.op.path },
      state.intended⟩ := by
  have begun : call.begun = true := begun_of_sending stage
  apply invariant_returned invariant found begun
  · rw [stage]
    exact fun impossible => CallStage.noConfusion impossible
  · intro entry member
    exact invariant.journaled entry (List.mem_filter.mp member).1
  · exact nodup_clearPending invariant.distinct call.op.path
  · intro run running
    have replay := invariant.replay run running
    exact front_clearPending replay.front (path_ne_of_clear replay.clear found begun)
  · intro path covered
    have there := invariant.arrived id call isLive target found stage path covered
    unfold Held
    cases last : lastEntry (clearPending state.client.pending call.op.path) path with
    | none => exact there
    | some entry =>
      intro notWrite
      obtain ⟨member, inEntry⟩ := mem_of_lastEntry last
      obtain ⟨inPending, elsewhere⟩ := List.mem_filter.mp member
      cases isOp : call.op with
      | remove key recursive => rfl
      | write key content =>
        have samePath : path = call.op.path := by
          rw [isOp] at covered ⊢
          exact of_decide_eq_true covered
        have spared := outlives (by rw [isOp]; rfl) entry inPending
          (by simpa using elsewhere) notWrite
        rw [← samePath, inEntry] at spared
        cases spared
  · intro path outside
    exact lastEntry_clearPending (covers_of_replaced replaces outside)

theorem invariant_journaled (invariant : OfflineInvariant state)
    (found : state.client.calls id = some call) {isLive arrived : Bool}
    (stage : call.stage = .sending isLive target arrived)
    (replaces : ReplacesAll state.client.pending call.op) :
    OfflineInvariant ⟨{
      state.client.setCall id none with
        pending := setPending state.client.pending ⟨call.op.path, call.op.kind, call.madeIn⟩ },
      state.intended⟩ := by
  have begun : call.begun = true := begun_of_sending stage
  apply invariant_returned invariant found begun
  · rw [stage]
    exact fun impossible => CallStage.noConfusion impossible
  · intro entry member path covered
    rcases List.mem_append.mp member with older | new
    · exact invariant.journaled entry (List.mem_filter.mp older).1 path covered
    · rw [List.mem_singleton.mp new] at covered
      rw [invariant.intends id call found begun path covered]
      exact Option.some_ne_none _
  · exact nodup_setPending invariant.distinct _
  · intro run running
    have replay := invariant.replay run running
    exact (front_clearPending replay.front (path_ne_of_clear replay.clear found begun)).trans
        (List.prefix_append _ _)
  · intro path covered
    have inNew : (PendingOp.mk call.op.path call.op.kind call.madeIn).covers path = true := covered
    unfold Held
    dsimp only
    rw [lastEntry_setPending_of_covers inNew]
    intro notWrite
    cases isOp : call.op with
    | remove key recursive => rfl
    | write key content =>
      rw [isOp] at notWrite
      exact absurd rfl notWrite
  · intro path outside
    exact lastEntry_setPending_of_not outside (covers_of_replaced replaces outside)

end

section

variable {state : OfflineState} {run : FlushRun}

/-- What a replay relies on is not what it changes of itself. -/
theorem invariant_replaying (invariant : OfflineInvariant state) (flush : Option FlushRun)
    (issued : List Issued) (replay : ∀ run, flush = some run → ReplayInvariant state run) :
    OfflineInvariant ⟨{ state.client with
        flush := flush
        issued := issued }, state.intended⟩ where
  live := invariant.live
  targets := invariant.targets
  apart := invariant.apart
  intends := invariant.intends
  cached := invariant.cached
  arrived := invariant.arrived
  journaled := invariant.journaled
  distinct := invariant.distinct
  held := by
    intro path value intended settled
    exact (invariant.held path value intended settled).congr rfl fun _ => rfl
  replay := by
    intro run running
    have holds := replay run running
    refine ⟨holds.front, holds.clear, holds.reads, ?_⟩
    intro request target arrived stage
    have sends := holds.sends request target arrived stage
    exact { sends with }

/-- Where the replay was does not matter for where it goes on. -/
theorem flushFrom_stopped (client : ClientState) (entries : List PendingOp) :
    flushFrom { client with flush := none } entries = flushFrom client entries := by
  cases entries with
  | nil => rfl
  | cons entry rest =>
    simp only [flushFrom]
    cases entry.op <;> rfl

theorem invariant_flushFrom (invariant : OfflineInvariant state) {entries : List PendingOp}
    (front : entries <+: state.client.pending) (clear : ClearOf state.client.calls entries) :
    OfflineInvariant ⟨flushFrom state.client entries, state.intended⟩ := by
  cases entries with
  | nil =>
    apply invariant_replaying invariant none state.client.issued
    intro run running
    cases running
  | cons entry rest =>
    cases isOp : entry.op with
    | write =>
      simp only [flushFrom, isOp]
      apply invariant_replaying invariant _ state.client.issued
      intro run running
      cases running
      refine ⟨front, clear, fun _ => isOp, ?_⟩
      intro request target arrived stage
      cases stage
    | remove recursive =>
      simp only [flushFrom, isOp]
      apply invariant_replaying invariant _ _
      intro run running
      cases running
      refine ⟨front, clear, ?_, ?_⟩
      · intro stage
        cases stage
      · intro request target arrived stage
        cases stage
        refine ⟨rfl, rfl, isOp.symm, ?_, ?_⟩
        · intro isWrite
          rw [isOp] at isWrite
          cases isWrite
        · intro hasArrived
          cases hasArrived

theorem invariant_flushPending (invariant : OfflineInvariant state)
    (quiet : QuietReplay state.client) :
    OfflineInvariant ⟨flushPending state.client, state.intended⟩ := by
  unfold flushPending
  by_cases nothing : state.client.pending = [] ∨ state.client.flush.isSome = true
  · rw [if_pos nothing]
    exact invariant
  · rw [if_neg nothing]
    rw [not_or, Option.not_isSome_iff_eq_none] at nothing
    exact invariant_flushFrom invariant (List.prefix_refl _) (quiet nothing.2)

variable {entry : PendingOp}

theorem settled_of_clear {calls : Nat → Option Call} {entries : List PendingOp}
    (clear : ClearOf calls entries) (member : entry ∈ entries)
    (covered : entry.covers path = true) : Settled calls path := by
  intro id call found begun
  exact (clear id call found begun entry member).symm path covered

variable {next : ClientState}

theorem invariant_flushRead (invariant : OfflineInvariant state)
    (taken : flushRead state.client = some next) :
    OfflineInvariant ⟨next, state.intended⟩ := by
  unfold flushRead at taken
  split at taken
  swap
  · cases taken
  rename_i entry rest running
  have replay := invariant.replay _ running
  have inJournal : entry ∈ state.client.pending := replay.front.subset List.mem_cons_self
  split at taken
  · cases taken
    apply invariant_replaying invariant none state.client.issued
    intro run stopped
    cases stopped
  · rename_i content stored
    cases taken
    apply invariant_replaying invariant _ _
    intro run sent
    cases sent
    refine ⟨replay.front, replay.clear, ?_, ?_⟩
    · intro stage
      cases stage
    · intro request target arrived stage
      cases stage
      refine ⟨rfl, rfl, (replay.reads rfl).symm, ?_, ?_⟩
      · intro isWrite
        obtain ⟨value, intended⟩ := Option.ne_none_iff_exists'.mp
          (invariant.journaled entry inJournal entry.path (covers_self entry))
        have settled := settled_of_clear replay.clear List.mem_cons_self (covers_self entry)
        have held := invariant.cached entry.path value intended (by
          intro id call found stage
          apply settled id call found
          rw [Call.begun, stage]
          rfl)
        rw [stored] at held
        rw [intended, ← held]
        rfl
      · intro hasArrived
        cases hasArrived

theorem ReplaySends.covers_eq {request : FileOp} {arrived : Bool}
    (sends : ReplaySends state entry request target arrived) (path : Text) :
    request.covers path = entry.covers path := by
  rw [FileOp.covers, sends.path, sends.kind]
  rfl

theorem invariant_flushArrive (invariant : OfflineInvariant state)
    (taken : flushArrive state.client = some next) :
    OfflineInvariant ⟨next, state.intended⟩ := by
  unfold flushArrive at taken
  split at taken
  swap
  · cases taken
  rename_i entry rest request target running
  cases taken
  have replay := invariant.replay _ running
  have sends := replay.sends request target false rfl
  have files : ∀ path, Function.update state.client.gateway target
      (request.apply (state.client.gateway target)) state.client.scope path =
        request.apply (state.client.gateway state.client.scope) path := by
    intro path
    rw [sends.target, Function.update_self]
  refine { invariant with
    arrived := ?_
    held := ?_
    replay := ?_ }
  · intro id call isLive callTarget found stage path covered
    have begun : call.begun = true := begun_of_sending stage
    have outside := replay.clear id call found begun entry List.mem_cons_self path covered
    rw [← sends.covers_eq] at outside
    exact (files path).trans ((apply_of_not outside).trans
      (invariant.arrived id call isLive callTarget found stage path covered))
  · intro path value intended settled
    refine (invariant.held path value intended settled).congr rfl ?_
    intro nothing
    have inJournal : entry ∈ state.client.pending := replay.front.subset List.mem_cons_self
    have outside := lastEntry_eq_none_iff.mp nothing entry inJournal
    rw [← sends.covers_eq] at outside
    exact (files path).trans (apply_of_not outside)
  · intro run sent
    cases sent
    refine ⟨replay.front, replay.clear, ?_, ?_⟩
    · intro stage
      cases stage
    · intro other otherTarget arrived stage
      cases stage
      refine ⟨sends.target, sends.path, sends.kind, sends.content, ?_⟩
      intro _ path covered
      rw [← sends.covers_eq] at covered
      exact (files path).trans (apply_of_covers covered)

theorem invariant_replayed (invariant : OfflineInvariant state)
    {rest : List PendingOp} {request : FileOp}
    (running : state.client.flush = some ⟨entry, rest, .sending request target true⟩) :
    OfflineInvariant ⟨{ state.client with
          pending := clearPending state.client.pending entry.path
          flush := none }, state.intended⟩ ∧
      rest <+: clearPending state.client.pending entry.path := by
  have replay := invariant.replay _ running
  have sends := replay.sends request target true rfl
  obtain ⟨newer, journal⟩ := replay.front
  have distinct := invariant.distinct
  rw [← journal] at distinct
  have cleared : clearPending state.client.pending entry.path = rest ++ newer := by
    rw [← journal]
    exact clearPending_head distinct
  refine ⟨?_, by rw [cleared]; exact List.prefix_append rest newer⟩
  refine { invariant with
    journaled := ?_
    distinct := nodup_clearPending invariant.distinct entry.path
    held := ?_
    replay := ?_ }
  · intro other member
    exact invariant.journaled other (List.mem_filter.mp member).1
  · intro path value intended settled
    have held := invariant.held path value intended settled
    unfold Held at held ⊢
    dsimp only
    rw [cleared]
    rw [← journal, List.cons_append] at held
    cases last : lastEntry (rest ++ newer) path with
    | some other =>
      rw [lastEntry_cons last] at held
      exact held
    | none =>
      by_cases covered : entry.covers path = true
      · rw [lastEntry_cons_of_none last covered] at held
        have there := sends.effect rfl path covered
        refine there.trans ?_
        cases isOp : entry.op with
        | write =>
          have samePath : path = entry.path := by
            rw [PendingOp.covers, isOp] at covered
            exact of_decide_eq_true covered
          have own := sends.content isOp
          rw [← samePath, intended] at own
          exact (Option.some.inj own).symm
        | remove recursive =>
          have kind := sends.kind
          rw [isOp] at kind
          rw [held (by rw [isOp]; exact OpKind.noConfusion)]
          cases request with
          | write key content => cases kind
          | remove key recursive => rfl
      · have nothing : lastEntry (entry :: (rest ++ newer)) path = none := by
          rw [lastEntry_eq_none_iff] at last ⊢
          intro other member
          rcases List.mem_cons.mp member with rfl | later
          · exact Bool.eq_false_iff.mpr covered
          · exact last other later
        rw [nothing] at held
        exact held
  · intro run stopped
    cases stopped

theorem invariant_flushReply (invariant : OfflineInvariant state) {ok : Bool}
    (taken : flushReply state.client ok = some next) :
    OfflineInvariant ⟨next, state.intended⟩ := by
  unfold flushReply at taken
  split at taken
  swap
  · cases taken
  rename_i entry rest request target arrived running
  have replay := invariant.replay _ running
  split at taken
  · cases taken
  rename_i possible
  split at taken
  · rename_i succeeded
    cases taken
    have hasArrived : arrived = true := by
      cases arrived with
      | true => rfl
      | false => exact absurd ⟨succeeded, rfl⟩ possible
    rw [hasArrived] at running
    obtain ⟨replayed, front⟩ := invariant_replayed invariant running
    have clear : ClearOf state.client.calls rest := by
      intro id call found begun other member
      exact replay.clear id call found begun other (List.mem_cons_of_mem entry member)
    have continued := invariant_flushFrom replayed front clear
    rw [← flushFrom_stopped]
    exact continued
  · cases taken
    apply invariant_replaying invariant none state.client.issued
    intro run stopped
    cases stopped

end

section

variable {state : OfflineState}

theorem invariant_reply (invariant : OfflineInvariant state) {id : Nat} {ok : Bool}
    {next : ClientState} (condition : OfflineCondition state (.reply id ok))
    (taken : replyCall state.client id ok = some next) :
    OfflineInvariant ⟨next, state.intended⟩ := by
  unfold replyCall at taken
  split at taken
  swap
  · cases taken
  rename_i op madeIn isLive target arrived found
  obtain ⟨replaces, succeeds⟩ := condition _ found
  obtain ⟨liveCall, _⟩ :=
    invariant.targets id _ isLive target arrived found rfl
  subst liveCall
  dsimp only at taken
  split at taken
  · cases taken
  rename_i possible
  rw [if_neg Bool.true_eq_false_eq_False] at taken
  split at taken
  · rename_i succeeded
    have hasArrived : arrived = true := by
      cases arrived with
      | true => rfl
      | false => exact absurd ⟨succeeded, rfl⟩ possible
    subst hasArrived
    obtain ⟨outlives, quiet⟩ := succeeds succeeded
    cases taken
    exact invariant_flushPending (invariant_cleared invariant found rfl replaces outlives) quiet
  · cases taken
    exact invariant_journaled invariant found rfl replaces

theorem invariant_others (invariant : OfflineInvariant state)
    (workspace : Text) (known : Knowledge) {request : FileOp}
    (untouched : ∀ path, request.covers path = true → state.intended path = none) :
    OfflineInvariant ⟨{
      state.client.arriveAt ⟨workspace, none⟩ request with
        known := known }, state.intended⟩ := by
  have files : ∀ path, state.intended path ≠ none →
      Function.update state.client.gateway ⟨workspace, none⟩
        (request.apply (state.client.gateway ⟨workspace, none⟩)) state.client.scope path =
        state.client.gateway state.client.scope path := by
    intro path touched
    have outside : request.covers path = false := by
      rw [Bool.eq_false_iff]
      intro covered
      exact touched (untouched path covered)
    by_cases same : state.client.scope = ⟨workspace, none⟩
    · rw [same, Function.update_self]
      exact apply_of_not outside
    · rw [Function.update_of_ne same]
  refine { invariant with
    arrived := ?_
    held := ?_
    replay := ?_ }
  · intro id call isLive target found stage path covered
    have begun : call.begun = true := begun_of_sending stage
    have touched : state.intended path ≠ none := by
      rw [invariant.intends id call found begun path covered]
      exact Option.some_ne_none _
    exact (files path touched).trans
      (invariant.arrived id call isLive target found stage path covered)
  · intro path value intended settled
    have touched : state.intended path ≠ none := by
      rw [show state.intended path = some value from intended]
      exact Option.some_ne_none _
    exact (invariant.held path value intended settled).congr rfl fun _ => files path touched
  · intro run running
    have replay := invariant.replay run running
    have inJournal : run.entry ∈ state.client.pending := replay.front.subset List.mem_cons_self
    refine ⟨replay.front, replay.clear, replay.reads, ?_⟩
    intro sent target arrived stage
    have sends := replay.sends sent target arrived stage
    refine ⟨sends.target, sends.path, sends.kind, sends.content, ?_⟩
    intro hasArrived path covered
    exact (files path (invariant.journaled run.entry inJournal path
      covered)).trans (sends.effect hasArrived path covered)

theorem invariant_offlineStep {act : ClientAct} {next : OfflineState}
    (invariant : OfflineInvariant state) (condition : OfflineCondition state act)
    (taken : offlineStep state act = some next) :
    OfflineInvariant next := by
  unfold offlineStep at taken
  split at taken
  swap
  · cases taken
  rename_i enabled
  obtain ⟨client, stepped, rfl⟩ := Option.map_eq_some_iff.mp taken
  cases act with
  | edit id op => exact invariant_edit invariant stepped
  | start id => exact invariant_start invariant condition stepped
  | cached id => exact invariant_cached invariant stepped
  | arrive id => exact invariant_arrive invariant stepped
  | reply id ok => exact invariant_reply invariant condition stepped
  | flush =>
    cases stepped
    exact invariant_flushPending invariant condition
  | flushRead => exact invariant_flushRead invariant stepped
  | flushArrive => exact invariant_flushArrive invariant stepped
  | flushReply ok => exact invariant_flushReply invariant stepped
  | othersWrite workspace path content =>
    cases stepped
    apply invariant_others invariant workspace
    intro other covered
    rw [show other = path from of_decide_eq_true covered]
    exact Option.isNone_iff_eq_none.mp enabled
  | othersRemove workspace path =>
    cases stepped
    unfold othersRemove
    split
    · exact invariant
    · apply invariant_others invariant workspace
      intro other covered
      rw [show other = path from of_decide_eq_true covered]
      exact Option.isNone_iff_eq_none.mp enabled
  | migrate => cases enabled
  | listed position => cases enabled
  | copyRead position => cases enabled
  | copyReply position arrived => cases enabled
  | setSession session => cases enabled
  | switchWorkspace workspace => cases enabled
  | look path => cases enabled

end

def emptyClient : OfflineState :=
  offlineStart "w".toList .empty (fun _ _ => none)

/-- An edit while the gateway cannot be reached, and its replay. -/
def offlineEdit : List ClientAct :=
  [.edit 0 (.write "a".toList "x".toList), .start 0, .cached 0,
    .reply 0 false, .flush, .flushRead, .flushArrive, .flushReply true]

/-- A directory is removed while the gateway cannot be reached, then a file
is written below it: the write succeeds, and the replay of the removal
deletes it. -/
def staleRemoval : List ClientAct :=
  [.edit 0 (.remove "d".toList true), .start 0, .cached 0, .reply 0 false,
    .edit 1 (.write "d/a".toList "x".toList), .start 1, .cached 1, .arrive 1,
    .reply 1 true, .flushArrive, .flushReply true]

end Aprovan.Client
