import Aprovan.Fs.Path
import Aprovan.Library.PlainObject
import Aprovan.Library.Runs

/-!
# The client's workspace files

The web client writes an edit to OPFS first, then to the gateway, and into a
journal if the gateway cannot be reached.  Where a request goes is decided when
it is sent.  A step is what happens between two awaits of one function; a
request takes effect at some time before its reply, and one that fails has
taken effect by then or never does.

The backends strip slashes from a path, and a request's URL takes more apart;
the journal has the path as given, and so have all three here.  The laws are
about edits of canonical paths.
-/

namespace Aprovan.Client

open Aprovan.Library Aprovan.Fs

/-- The journal, OPFS and the URL of a request all name the same file: no
slash to strip, no segment to resolve, and nothing that a URL has another use
for. -/
def isCanonical (path : Text) : Bool :=
  normalizeFsPath path = some path && path.getLast? ≠ some ' ' &&
    path.all fun letter => 32 ≤ letter.toNat && letter ∉ ['?', '#', '%', '\\']

/-- Where a request goes: the live tree of a workspace, or a staged
session of it. -/
structure Scope where
  workspace : Text
  session : Option Text
  deriving DecidableEq

inductive OpKind where
  | write
  | remove (recursive : Bool)
  deriving DecidableEq

/-- The paths that an operation at a path sets. -/
def OpKind.covers : OpKind → Text → Text → Bool
  | .remove true, path, other => underPath other path
  | _, path, other => other = path

@[simp]
theorem OpKind.covers_self (kind : OpKind) (path : Text) : kind.covers path path = true := by
  cases kind with
  | write => exact decide_eq_true rfl
  | remove recursive =>
    cases recursive with
    | false => exact decide_eq_true rfl
    | true => exact isUnder_self '/' path

/-- `write(path, content)` and `remove(path, recursive)`, of the client or
as `PUT` and `DELETE` requests. -/
inductive FileOp where
  | write (path content : Text)
  | remove (path : Text) (recursive : Bool)

namespace FileOp

def path : FileOp → Text
  | .write path _ => path
  | .remove path _ => path

def kind : FileOp → OpKind
  | .write _ _ => .write
  | .remove _ recursive => .remove recursive

def covers (op : FileOp) (other : Text) : Bool :=
  op.kind.covers op.path other

/-- What a path that is covered has afterwards. -/
def effect : FileOp → Option Text
  | .write _ content => some content
  | .remove _ _ => none

def apply (op : FileOp) (files : Text → Option Text) : Text → Option Text :=
  fun path => if op.covers path then op.effect else files path

end FileOp

/-- A journaled mutation, with the scope that the edit was made in, which
the source does not keep. -/
structure PendingOp where
  path : Text
  op : OpKind
  madeIn : Scope

def PendingOp.covers (entry : PendingOp) (other : Text) : Bool :=
  entry.op.covers entry.path other

inductive CallStage where
  /-- `await backend()`. -/
  | opening
  /-- The operation on OPFS. -/
  | caching
  /-- The request; a live one is journaled if it fails. -/
  | sending (live : Bool) (target : Scope) (arrived : Bool)
  deriving DecidableEq

/-- A call of `writeFile` or `deleteWorkspacePath`. -/
structure Call where
  op : FileOp
  madeIn : Scope
  stage : CallStage

inductive FlushStage where
  | reading
  | sending (request : FileOp) (target : Scope) (arrived : Bool)

/-- The loop of `flushPending`: the entry it is at, and the entries of its
snapshot that come after. -/
structure FlushRun where
  entry : PendingOp
  rest : List PendingOp
  stage : FlushStage

inductive CopyStage where
  | reading
  | sending (request : FileOp) (target : Scope)

/-- A file that a migration copies up. -/
structure Copy where
  path : Text
  stage : CopyStage

/-- A migration that waits for the gateway's listing. -/
structure Listing where
  localPaths : List Text
  target : Scope

/-- What the laws speak of: the scope and the path of every edit, and the
paths that other clients deleted since this client last saw them, and did
not write again. -/
structure Knowledge where
  edits : List (Scope × Text)
  unseen : List (Text × Text)

/-- A request, with the scope of the edit that it is for, and what was known
when it was sent. -/
structure Issued where
  request : FileOp
  target : Scope
  madeIn : Option Scope
  known : Knowledge

structure ClientState where
  workspace : Text
  session : Option Text
  opfs : Table Text
  pending : List PendingOp
  flush : Option FlushRun
  calls : Nat → Option Call
  listings : List Listing
  copies : List Copy
  gateway : Scope → Text → Option Text
  known : Knowledge
  issued : List Issued

namespace ClientState

/-- Where a request goes that is sent now. -/
def scope (state : ClientState) : Scope :=
  ⟨state.workspace, state.session⟩

def isStagedScope (state : ClientState) : Bool :=
  state.session.isSome

def issue (state : ClientState) (request : FileOp) (madeIn : Option Scope) : ClientState := {
  state with
    issued := state.issued ++ [⟨request, state.scope, madeIn, state.known⟩] }

def arriveAt (state : ClientState) (target : Scope) (request : FileOp) : ClientState := { state with
    gateway := Function.update state.gateway target
      (request.apply (state.gateway target)) }

def setCall (state : ClientState) (id : Nat) (call : Option Call) : ClientState :=
  { state with calls := Function.update state.calls id call }

end ClientState

def setPending (pending : List PendingOp) (entry : PendingOp) : List PendingOp :=
  pending.filter (·.path ≠ entry.path) ++ [entry]

def clearPending (pending : List PendingOp) (path : Text) : List PendingOp :=
  pending.filter (·.path ≠ path)

variable (state : ClientState)

/-- The next round of the loop; a removal is sent at once. -/
def flushFrom : List PendingOp → ClientState
  | [] => { state with flush := none }
  | entry :: rest =>
    match entry.op with
    | .write => { state with flush := some ⟨entry, rest, .reading⟩ }
    | .remove recursive =>
      let request := FileOp.remove entry.path recursive
      { state.issue request (some entry.madeIn) with
        flush := some ⟨entry, rest,
          .sending request state.scope false⟩ }

/-- `flushPending()`: nothing if the journal is empty or being replayed. -/
def flushPending : ClientState :=
  if state.pending = [] ∨ state.flush.isSome then state else flushFrom state state.pending

/-- An edit, up to the await of `backend()`. -/
def editFile (id : Nat) (op : FileOp) : Option ClientState :=
  match state.calls id with
  | some _ => none
  | none => some {
      state.setCall id (some ⟨op, state.scope, .opening⟩) with
        known := { state.known with
            edits := state.known.edits ++ [(state.scope, op.path)] } }

/-- `syncedBackend.write` or `.remove`: in a staged scope the request goes
out at once, else OPFS comes first. -/
def beginCall (id : Nat) : Option ClientState :=
  match state.calls id with
  | some ⟨op, madeIn, .opening⟩ =>
    if state.isStagedScope then
      some ((state.issue op (some madeIn)).setCall id
        (some ⟨op, madeIn, .sending false state.scope false⟩))
    else some (state.setCall id (some ⟨op, madeIn, .caching⟩))
  | _ => none

/-- The operation on OPFS; a removal there may find nothing. -/
def cacheOp (opfs : Table Text) : FileOp → Table Text
  | .write path content => opfs.put path content
  | .remove path recursive => opfs.keep fun other => !(FileOp.remove path recursive).covers other

/-- OPFS is done, the request goes out. -/
def cachedCall (id : Nat) : Option ClientState :=
  match state.calls id with
  | some ⟨op, madeIn, .caching⟩ =>
    some { (state.issue op (some madeIn)).setCall id
        (some ⟨op, madeIn, .sending true state.scope false⟩) with
      opfs := cacheOp state.opfs op }
  | _ => none

def arriveCall (id : Nat) : Option ClientState :=
  match state.calls id with
  | some ⟨op, madeIn, .sending live target false⟩ =>
    some ((state.arriveAt target op).setCall id (some ⟨op, madeIn, .sending live target true⟩))
  | _ => none

/-- The reply.  A live call clears its entry and replays the others, or
makes an entry. -/
def replyCall (id : Nat) (ok : Bool) : Option ClientState :=
  match state.calls id with
  | some ⟨op, madeIn, .sending live _ arrived⟩ =>
    let returned := state.setCall id none
    if ok ∧ arrived = false then none
    else if live = false then some returned
    else if ok then
      some (flushPending {
        returned with pending := clearPending state.pending op.path })
    else
      some { returned with
          pending := setPending state.pending ⟨op.path, op.kind, madeIn⟩ }
  | _ => none

/-- The content of a pending write; without a file in OPFS the replay
ends. -/
def flushRead : Option ClientState :=
  match state.flush with
  | some ⟨entry, rest, .reading⟩ =>
    match state.opfs.get entry.path with
    | none => some { state with flush := none }
    | some content =>
      let request := FileOp.write entry.path content
      some { state.issue request (some entry.madeIn) with
        flush := some ⟨entry, rest, .sending request state.scope false⟩ }
  | _ => none

def flushArrive : Option ClientState :=
  match state.flush with
  | some ⟨entry, rest, .sending request target false⟩ =>
    some { state.arriveAt target request with
      flush := some ⟨entry, rest, .sending request target true⟩ }
  | _ => none

/-- The entry is cleared and the loop goes on, or the replay ends. -/
def flushReply (ok : Bool) : Option ClientState :=
  match state.flush with
  | some ⟨entry, rest, .sending _ _ arrived⟩ =>
    if ok ∧ arrived = false then none
    else if ok then
      some (flushFrom {
        state with pending := clearPending state.pending entry.path } rest)
    else some { state with flush := none }
  | _ => none

/-- `opfsList()`, and the request for the gateway's listing. -/
def migrateOpfsToGateway : ClientState :=
  if state.opfs.rows = [] then state
  else
    { state with
      listings := state.listings ++ [⟨state.opfs.names, state.scope⟩] }

/-- The listing arrives: what it lacks is copied up. -/
def listedMigration (position : Nat) : Option ClientState :=
  match state.listings[position]? with
  | none => none
  | some listing =>
    let missing := listing.localPaths.filter fun path => (state.gateway listing.target path).isNone
    some { state with
        listings := state.listings.eraseIdx position
        copies := state.copies ++ missing.map (⟨·, .reading⟩) }

def copyRead (position : Nat) : Option ClientState :=
  match state.copies[position]? with
  | some ⟨path, .reading⟩ =>
    match state.opfs.get path with
    | none => some {
        state with copies := state.copies.eraseIdx position }
    | some content =>
      let request := FileOp.write path content
      some { state.issue request none with
        copies := state.copies.set position ⟨path, .sending request state.scope⟩ }
  | _ => none

def copyReply (position : Nat) (arrived : Bool) : Option ClientState :=
  match state.copies[position]? with
  | some ⟨_, .sending request target⟩ =>
    let ended := { state with copies := state.copies.eraseIdx position }
    some (if arrived then ended.arriveAt target request else ended)
  | _ => none

/-- The path is there, or its absence was seen. -/
def Knowledge.settle (known : Knowledge) (workspace path : Text) : Knowledge :=
  { known with unseen := known.unseen.filter (· ≠ (workspace, path)) }

/-- `read(path)` of the live tree: the answer is kept in OPFS. -/
def lookAt (path : Text) : ClientState :=
  let seen := {
    state with known := state.known.settle state.workspace path }
  match state.session, state.gateway state.scope path with
  | none, some content => { seen with opfs := state.opfs.put path content }
  | _, _ => seen

/-- Another client writes a file of a live tree. -/
def othersWrite (workspace path content : Text) : ClientState := {
  state.arriveAt ⟨workspace, none⟩ (.write path content) with
    known := state.known.settle workspace path }

/-- Another client deletes a file of a live tree. -/
def othersRemove (workspace path : Text) : ClientState :=
  match state.gateway ⟨workspace, none⟩ path with
  | none => state
  | some _ => {
      state.arriveAt ⟨workspace, none⟩ (.remove path false) with
        known := { state.known with
            unseen := state.known.unseen ++ [(workspace, path)] } }

inductive ClientAct where
  | edit (id : Nat) (op : FileOp)
  | start (id : Nat)
  | cached (id : Nat)
  | arrive (id : Nat)
  | reply (id : Nat) (ok : Bool)
  | flush
  | flushRead
  | flushArrive
  | flushReply (ok : Bool)
  | migrate
  | listed (position : Nat)
  | copyRead (position : Nat)
  | copyReply (position : Nat) (arrived : Bool)
  | setSession (session : Option Text)
  | switchWorkspace (workspace : Text)
  | look (path : Text)
  | othersWrite (workspace path content : Text)
  | othersRemove (workspace path : Text)

def clientStep : ClientAct → Option ClientState
  | .edit id op => editFile state id op
  | .start id => beginCall state id
  | .cached id => cachedCall state id
  | .arrive id => arriveCall state id
  | .reply id ok => replyCall state id ok
  | .flush => some (flushPending state)
  | .flushRead => flushRead state
  | .flushArrive => flushArrive state
  | .flushReply ok => flushReply state ok
  | .migrate => some (migrateOpfsToGateway state)
  | .listed position => listedMigration state position
  | .copyRead position => copyRead state position
  | .copyReply position arrived => copyReply state position arrived
  | .setSession session => some { state with session := session }
  | .switchWorkspace workspace => some { state with workspace := workspace }
  | .look path => some (lookAt state path)
  | .othersWrite workspace path content => some (othersWrite state workspace path content)
  | .othersRemove workspace path => some (othersRemove state workspace path)

/-- A client that has just started, with what OPFS, the journal and the
gateway hold. -/
def freshClient (workspace : Text) (opfs : Table Text)
    (pending : List PendingOp) (gateway : Scope → Text → Option Text) :
    ClientState where
  workspace := workspace
  session := none
  opfs := opfs
  pending := pending
  flush := none
  calls := fun _ => none
  listings := []
  copies := []
  gateway := gateway
  known := ⟨[], []⟩
  issued := []

end Aprovan.Client
