import Aprovan.Library.Keyed
import Aprovan.Library.Process
import Aprovan.Library.Text

/-!
# Presence on file paths and app installs

The handlers of `presence:` and `app:` topics keep the focus of a connection
and the connections of a user on a path, which in app topics is the id of an
install.  Every access is one atomic operation that the handler awaits.  The
stores of a workspace are dropped with its last connection.
-/

namespace Aprovan.Realtime.Presence

open Aprovan.Library

inductive TopicNamespace where
  | presence
  | app
  deriving DecidableEq

/-- A store that `storeFor` returned; it returns a new one after a drop. -/
structure StoreRef where
  topics : TopicNamespace
  generation : Nat
  deriving DecidableEq

structure StoredFocus where
  path : Text
  lastActive : Nat

structure StoredMembership where
  connIds : List Text
  lastActive : Nat

/-- The entry `focus:<connId>`. -/
structure FocusRow where
  store : StoreRef
  connId : Text
  focus : StoredFocus

/-- The entry `member:<path>\0<userId>`. -/
structure MemberRow where
  store : StoreRef
  (path userId : Text)
  membership : StoredMembership

def FocusRow.key (row : FocusRow) : StoreRef × Text :=
  (row.store, row.connId)

def MemberRow.key (row : MemberRow) : StoreRef × Text × Text :=
  (row.store, row.path, row.userId)

structure PresenceStores where
  /-- How often the stores of the workspace were dropped. -/
  generation : Nat
  focus : Keyed FocusRow.key
  members : Keyed MemberRow.key

def PresenceStores.empty : PresenceStores :=
  ⟨0, Keyed.empty, Keyed.empty⟩

def PresenceStores.storeFor (stores : PresenceStores) (topics : TopicNamespace) : StoreRef :=
  ⟨topics, stores.generation⟩

def PresenceStores.focusAt (stores : PresenceStores) (store : StoreRef) (connId : Text) :
    Option Text :=
  (stores.focus.find? (store, connId)).map (·.focus.path)

def PresenceStores.memberAt (stores : PresenceStores) (store : StoreRef) (path userId : Text) :
    Option StoredMembership :=
  (stores.members.find? (store, path, userId)).map (·.membership)

def connIdsOf : Option StoredMembership → List Text
  | some membership => membership.connIds
  | none => []

def PresenceStores.connIdsAt (stores : PresenceStores) (store : StoreRef) (path userId : Text) :
    List Text :=
  connIdsOf (stores.memberAt store path userId)

inductive PresenceStatement where
  /-- `storeFor` and the `get` that follows it at once. -/
  | openFocus (topics : TopicNamespace) (connId : Text)
  | writeFocus (store : StoreRef) (connId : Text) (focus : StoredFocus)
  | deleteFocus (store : StoreRef) (connId : Text)
  | readMember (store : StoreRef) (path userId : Text)
  | writeMember (store : StoreRef) (path userId : Text)
      (membership : StoredMembership)
  | deleteMember (store : StoreRef) (path userId : Text)
  /-- `storeFor` and the `list` that follows it at once. -/
  | loadRoster (topics : TopicNamespace) (path : Text)

def PresenceStatement.Answer : PresenceStatement → Type
  | .openFocus _ _ => StoreRef × Option StoredFocus
  | .writeFocus _ _ _ => Unit
  | .deleteFocus _ _ => Bool
  | .readMember _ _ _ => Option StoredMembership
  | .writeMember _ _ _ _ => Unit
  | .deleteMember _ _ _ => Bool
  | .loadRoster _ _ => List (Text × Nat)

def PresenceStores.roster (stores : PresenceStores) (topics : TopicNamespace) (path : Text) :
    List (Text × Nat) :=
  (stores.members.rows.filter fun row =>
    row.store = stores.storeFor topics ∧ row.path = path).map
      fun row => (row.userId, row.membership.lastActive)

/-- The operations of the in-process store do not fail. -/
def executeStatement (_ : Unit) : (statement : PresenceStatement) → PresenceStores →
      Except Empty statement.Answer × PresenceStores
  | .openFocus topics connId, stores =>
    let store := stores.storeFor topics
    (.ok (store, (stores.focus.find? (store, connId)).map (·.focus)), stores)
  | .writeFocus store connId focus, stores =>
    (.ok (), { stores with
      focus := stores.focus.put ⟨store, connId, focus⟩ })
  | .deleteFocus store connId, stores =>
    (.ok (stores.focus.find? (store, connId)).isSome,
      { stores with focus := stores.focus.erase (store, connId) })
  | .readMember store path userId, stores => (.ok (stores.memberAt store path userId), stores)
  | .writeMember store path userId membership, stores =>
    (.ok (), { stores with
      members := stores.members.put ⟨store, path, userId, membership⟩ })
  | .deleteMember store path userId, stores =>
    (.ok (stores.members.find? (store, path, userId)).isSome,
      { stores with
        members := stores.members.erase (store, path, userId) })
  | .loadRoster topics path, stores => (.ok (stores.roster topics path), stores)

inductive PresenceDelta where
  | join
  | leave
  | update

inductive PresenceEvent where
  | peer (kind : PresenceDelta) (userId path : Text) (lastActive : Nat)
  | roster (installId : Text) (peers : List (Text × Nat))

abbrev StoreCall (Value : Type) :=
  Process PresenceStatement.Answer Empty Value

abbrev PresenceCall := StoreCall (List PresenceEvent)

def storeOp (statement : PresenceStatement) : StoreCall statement.Answer :=
  Process.perform statement

/-- What `clearFocus` and `clearPresence` share; `emit` publishes that the
last connection of the user is gone. -/
def leavePath (topics : TopicNamespace) (conn userId : Text) (emit : StoredFocus → PresenceCall) :
    PresenceCall := do
  let (store, current) ← storeOp (.openFocus topics conn)
  match current with
  | none => pure []
  | some current => do
      let _ ← storeOp (.deleteFocus store conn)
      match ← storeOp (.readMember store current.path userId) with
      | none => pure []
      | some membership => do
          let connIds := membership.connIds.filter (· ≠ conn)
          if connIds ≠ [] then
            storeOp (.writeMember store current.path userId { membership with connIds := connIds })
            pure []
          else
            let _ ← storeOp (.deleteMember store current.path userId)
            emit current

def clearFocus (conn userId : Text) : PresenceCall :=
  leavePath .presence conn userId fun current =>
    pure [.peer .leave userId current.path current.lastActive]

def emitPresence (installId : Text) : PresenceCall := do
  let peers ← storeOp (.loadRoster .app installId)
  pure [.roster installId peers]

def clearPresence (conn userId : Text) : PresenceCall :=
  leavePath .app conn userId fun focus => emitPresence focus.path

/-- What `setFocus` does once the old path is left. -/
def joinPath (store : StoreRef) (conn userId path : Text) (now : Nat) (left : List PresenceEvent) :
    PresenceCall := do
  storeOp (.writeFocus store conn ⟨path, now⟩)
  match ← storeOp (.readMember store path userId) with
  | none => do
      storeOp (.writeMember store path userId ⟨[conn], now⟩)
      pure (left ++ [.peer .join userId path now])
  | some membership => do
      storeOp (.writeMember store path userId ⟨membership.connIds ++ [conn], now⟩)
      pure (left ++ [.peer .update userId path now])

def setFocus (conn userId path : Text) (now : Nat) : PresenceCall := do
  let (store, current) ← storeOp (.openFocus .presence conn)
  if current.map (·.path) = some path then
    storeOp (.writeFocus store conn ⟨path, now⟩)
    match ← storeOp (.readMember store path userId) with
    | some membership => do
        storeOp (.writeMember store path userId { membership with lastActive := now })
        pure [.peer .update userId path now]
    | none => pure [.peer .update userId path now]
  else
    let left ← if current.isSome then clearFocus conn userId else pure []
    joinPath store conn userId path now left

/-- What `setPresence` does once another install is left. -/
def joinInstall (store : StoreRef) (conn userId installId : Text)
    (now : Nat) (left : List PresenceEvent) : PresenceCall := do
  storeOp (.writeFocus store conn ⟨installId, now⟩)
  match ← storeOp (.readMember store installId userId) with
  | none => do
      storeOp (.writeMember store installId userId ⟨[conn], now⟩)
      let events ← emitPresence installId
      pure (left ++ events)
  | some existing => do
      let connIds :=
        if conn ∈ existing.connIds then existing.connIds else existing.connIds ++ [conn]
      storeOp (.writeMember store installId userId ⟨connIds, now⟩)
      let events ← emitPresence installId
      pure (left ++ events)

def setPresence (conn userId installId : Text) (now : Nat) : PresenceCall := do
  let (store, prev) ← storeOp (.openFocus .app conn)
  let left ←
    if prev.isSome ∧ prev.map (·.path) ≠ some installId then clearPresence conn userId
    else pure []
  joinInstall store conn userId installId now left

inductive PresenceRequest where
  | setFocus (conn path : Text) (now : Nat)
  | clearFocus (conn : Text)
  | setPresence (conn installId : Text) (now : Nat)
  | clearPresence (conn : Text)

def PresenceRequest.topics : PresenceRequest → TopicNamespace
  | .setFocus _ _ _ => .presence
  | .clearFocus _ => .presence
  | .setPresence _ _ _ => .app
  | .clearPresence _ => .app

def PresenceRequest.conn : PresenceRequest → Text
  | .setFocus conn _ _ => conn
  | .clearFocus conn => conn
  | .setPresence conn _ _ => conn
  | .clearPresence conn => conn

def PresenceRequest.target : PresenceRequest → Option Text
  | .setFocus _ path _ => some path
  | .clearFocus _ => none
  | .setPresence _ installId _ => some installId
  | .clearPresence _ => none

def PresenceRequest.isOf (request : PresenceRequest) (topics : TopicNamespace) (conn : Text) :
    Bool :=
  request.topics = topics ∧ request.conn = conn

abbrev PresenceCalls :=
  Concurrent PresenceStores PresenceRequest PresenceStatement.Answer Empty (List PresenceEvent)

structure PresenceSystem where
  calls : PresenceCalls
  (connected known : List Text)

def noConnections : PresenceSystem :=
  ⟨⟨PresenceStores.empty, [], []⟩, [], []⟩

def PresenceSystem.stores (system : PresenceSystem) : PresenceStores :=
  system.calls.shared

/-- The requests in the order in which their handlers were called. -/
def PresenceSystem.requests (system : PresenceSystem) : List PresenceRequest :=
  system.calls.calls.map (·.request)

/-- The focus that the last message of a connection asks for. -/
def lastFocus (requests : List PresenceRequest) (topics : TopicNamespace) (conn : Text) :
    Option Text :=
  (requests.filter (·.isOf topics conn)).getLast?.bind (·.target)

inductive PresenceAct where
  | connect (conn : Text)
  | focus (conn path : Text) (now : Nat)
  | blur (conn : Text)
  /-- A subscribe or a presence message has passed its checks. -/
  | presence (conn installId : Text) (now : Nat)
  /-- The connection is removed; with the last one the broker may drop the
  stores of the workspace. -/
  | disconnect (conn : Text) (dropped : Bool)
  /-- The operation that the handler at a position awaits is executed. -/
  | advance (position : Nat)

section

variable (userOf : Text → Text)

def serve : PresenceRequest → PresenceCall
  | .setFocus conn path now => setFocus conn (userOf conn) path now
  | .clearFocus conn => clearFocus conn (userOf conn)
  | .setPresence conn installId now => setPresence conn (userOf conn) installId now
  | .clearPresence conn => clearPresence conn (userOf conn)

variable (system : PresenceSystem)

/-- A handler runs to its first operation when it is called. -/
def PresenceSystem.call (request : PresenceRequest) : Option PresenceSystem :=
  ((system.calls.start request (serve userOf request)).advance
      executeStatement system.calls.calls.length ()).map
    fun calls => { system with calls := calls }

def PresenceSystem.drop : PresenceSystem :=
  { system with
    calls := { system.calls with
      shared := { system.calls.shared with
        generation := system.calls.shared.generation + 1 } } }

def presenceStep : PresenceAct → Option PresenceSystem
  | .connect conn =>
    if conn ∈ system.known then none
    else
      some { system with
        connected := system.connected ++ [conn]
        known := system.known ++ [conn] }
  | .focus conn path now =>
    if conn ∈ system.known then system.call userOf (.setFocus conn path now) else none
  | .blur conn =>
    if conn ∈ system.known then system.call userOf (.clearFocus conn) else none
  | .presence conn installId now =>
    if conn ∈ system.known then system.call userOf (.setPresence conn installId now)
    else none
  | .disconnect conn dropped =>
    if conn ∈ system.connected then do
      let removed := { system with
        connected := system.connected.filter (· ≠ conn) }
      let cleared ← removed.call userOf (.clearFocus conn)
      let cleared ← cleared.call userOf (.clearPresence conn)
      if dropped then
        if cleared.connected = [] then some cleared.drop else none
      else some cleared
    else none
  | .advance position =>
    (system.calls.advance executeStatement position ()).map
      fun calls => { system with calls := calls }

def PresenceSystem.allHandled : Bool :=
  system.calls.calls.all fun call => call.process.outcome?.isSome

/-- Once no handler is in flight, a connection is in the member entry of its
user on its last focus path and in no other one. -/
def PresenceExact : Prop :=
  system.allHandled = true → ∀ topics conn path userId,
      conn ∈ system.stores.connIdsAt (system.stores.storeFor topics) path userId ↔
        conn ∈ system.connected ∧ userId = userOf conn ∧
          lastFocus system.requests topics conn = some path

def PresenceSystem.handled (topics : TopicNamespace) (conn : Text) : Bool :=
  system.calls.calls.all fun call => !call.request.isOf topics conn || call.process.outcome?.isSome

/-- The connections of the member entry that a call read last. -/
def readAfter (read : List Text) :
    (statement : PresenceStatement) → Except Empty statement.Answer → List Text
  | .readMember _ _ _, .ok membership => connIdsOf membership
  | _, _ => read

def lastRead (history : List (Executed PresenceStatement.Answer Empty)) (position : Nat) :
    List Text :=
  history.foldl (fun read entry =>
    if entry.caller = position then readAfter read entry.statement entry.answer
    else read) []

/-- A member entry that an operation changes has the given connections. -/
def Unchanged (stores : PresenceStores) (read : List Text) : PresenceStatement → Prop
  | .writeMember store path userId _ => stores.connIdsAt store path userId = read
  | .deleteMember store path userId => stores.connIdsAt store path userId = read
  | _ => True

instance (stores : PresenceStores) (read : List Text) (statement : PresenceStatement) :
    Decidable (Unchanged stores read statement) :=
  match statement with
  | .writeMember store path userId _ =>
    inferInstanceAs (Decidable (stores.connIdsAt store path userId = read))
  | .deleteMember store path userId =>
    inferInstanceAs (Decidable (stores.connIdsAt store path userId = read))
  | .openFocus _ _ => inferInstanceAs (Decidable True)
  | .writeFocus _ _ _ => inferInstanceAs (Decidable True)
  | .deleteFocus _ _ => inferInstanceAs (Decidable True)
  | .readMember _ _ _ => inferInstanceAs (Decidable True)
  | .loadRoster _ _ => inferInstanceAs (Decidable True)

/-- The handlers of one connection run one after the other, none begins once
the connection is gone, and a member entry is as its handler read it when the
handler changes it. -/
def PresenceCondition : PresenceAct → Prop
  | .connect _ => True
  | .focus conn _ _ => conn ∈ system.connected ∧ system.handled .presence conn = true
  | .blur conn => conn ∈ system.connected ∧ system.handled .presence conn = true
  | .presence conn _ _ => conn ∈ system.connected ∧ system.handled .app conn = true
  | .disconnect conn _ => system.handled .presence conn = true ∧ system.handled .app conn = true
  | .advance position =>
    ∀ statement ∈ system.calls.awaiting position,
      Unchanged system.stores (lastRead system.calls.history position) statement

instance (system : PresenceSystem) (act : PresenceAct) :
    Decidable (PresenceCondition system act) :=
  match act with
  | .connect _ => inferInstanceAs (Decidable True)
  | .focus conn _ _ =>
    inferInstanceAs (Decidable (conn ∈ system.connected ∧ system.handled .presence conn = true))
  | .blur conn =>
    inferInstanceAs (Decidable (conn ∈ system.connected ∧ system.handled .presence conn = true))
  | .presence conn _ _ =>
    inferInstanceAs (Decidable (conn ∈ system.connected ∧ system.handled .app conn = true))
  | .disconnect conn _ =>
    inferInstanceAs (Decidable (system.handled .presence conn = true ∧
        system.handled .app conn = true))
  | .advance position =>
    inferInstanceAs (Decidable (∀ statement ∈ system.calls.awaiting position,
        Unchanged system.stores (lastRead system.calls.history position) statement))

end

end Aprovan.Realtime.Presence
