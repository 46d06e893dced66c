import Aprovan.Realtime.Presence

/-!
# Presence under concurrent handlers

Two handlers that read one member entry before either writes it lose an update,
and two handlers of one connection leave it in two entries.  Where the handlers
of a connection follow one another and an entry is written only as it was read,
the entries agree with the last messages as soon as no handler is in flight.
-/

namespace Aprovan.Realtime.Presence

open Aprovan.Library

variable {statement : PresenceStatement} {store : StoreRef}

section

variable (stores : PresenceStores)

theorem focusAt_execute_of {conn : Text}
    (unwritten : ∀ focus, statement ≠ .writeFocus store conn focus)
    (kept : statement ≠ .deleteFocus store conn) :
    (executeStatement () statement stores).2.focusAt store conn = stores.focusAt store conn := by
  cases statement with
  | writeFocus written other focus =>
    have different : FocusRow.key ⟨written, other, focus⟩ ≠ (store, conn) := by
      intro same
      cases same
      exact unwritten focus rfl
    simp only [executeStatement, PresenceStores.focusAt, Keyed.find?_put_of_ne _ different]
  | deleteFocus written other =>
    have different : (written, other) ≠ (store, conn) := by
      intro same
      cases same
      exact kept rfl
    simp only [executeStatement, PresenceStores.focusAt, Keyed.find?_erase_of_ne _ different]
  | openFocus | readMember | writeMember | deleteMember | loadRoster => rfl

theorem focusAt_writeFocus (store : StoreRef) (conn : Text) (focus : StoredFocus) :
    (executeStatement () (.writeFocus store conn focus) stores).2.focusAt
      store conn = some focus.path := by
  have found := Keyed.find?_put_self stores.focus (⟨store, conn, focus⟩ : FocusRow)
  simp only [FocusRow.key] at found
  simp only [executeStatement, PresenceStores.focusAt, found, Option.map_some]

theorem focusAt_deleteFocus (store : StoreRef) (conn : Text) :
    (executeStatement () (.deleteFocus store conn) stores).2.focusAt store conn = none := by
  simp only [executeStatement, PresenceStores.focusAt, Keyed.find?_erase_self, Option.map_none]

theorem connIdsAt_execute_of {path user : Text} (unwritten : ∀ membership,
      statement ≠ .writeMember store path user membership)
    (kept : statement ≠ .deleteMember store path user) :
    (executeStatement () statement stores).2.connIdsAt store path user =
      stores.connIdsAt store path user := by
  cases statement with
  | writeMember written otherPath otherUser membership =>
    have different :
        MemberRow.key ⟨written, otherPath, otherUser, membership⟩ ≠ (store, path, user) := by
      intro same
      cases same
      exact unwritten membership rfl
    simp only [executeStatement, PresenceStores.connIdsAt,
      PresenceStores.memberAt, Keyed.find?_put_of_ne _ different]
  | deleteMember written otherPath otherUser =>
    have different : (written, otherPath, otherUser) ≠ (store, path, user) := by
      intro same
      cases same
      exact kept rfl
    simp only [executeStatement, PresenceStores.connIdsAt,
      PresenceStores.memberAt, Keyed.find?_erase_of_ne _ different]
  | openFocus | writeFocus | deleteFocus | readMember | loadRoster => rfl

theorem connIdsAt_writeMember (store : StoreRef) (path user : Text)
    (membership : StoredMembership) :
    (executeStatement () (.writeMember store path user membership)
      stores).2.connIdsAt store path user = membership.connIds := by
  have found := Keyed.find?_put_self stores.members (⟨store, path, user, membership⟩ : MemberRow)
  simp only [MemberRow.key] at found
  simp only [executeStatement, PresenceStores.connIdsAt,
    PresenceStores.memberAt, found, Option.map_some, connIdsOf]

theorem connIdsAt_deleteMember (store : StoreRef) (path user : Text) :
    (executeStatement () (.deleteMember store path user)
      stores).2.connIdsAt store path user = [] := by
  simp only [executeStatement, PresenceStores.connIdsAt,
    PresenceStores.memberAt, Keyed.find?_erase_self, Option.map_none,
    connIdsOf]

theorem generation_execute (statement : PresenceStatement) :
    (executeStatement () statement stores).2.generation = stores.generation := by
  cases statement <;> rfl

theorem storeFor_execute (statement : PresenceStatement) (topics : TopicNamespace) :
    (executeStatement () statement stores).2.storeFor topics = stores.storeFor topics := by
  rw [PresenceStores.storeFor, PresenceStores.storeFor, generation_execute]

end

section

variable {userOf : Text → Text} {stores : PresenceStores} {store : StoreRef}
  {conn : Text} {focus listed : Option Text}

structure Tracks (userOf : Text → Text) (stores : PresenceStores)
    (store : StoreRef) (conn : Text) (focus listed : Option Text) : Prop where
  focus : stores.focusAt store conn = focus
  listed : ∀ path user, conn ∈ stores.connIdsAt store path user ↔
    user = userOf conn ∧ listed = some path

/-- The operation writes into one store only, there no other focus than that
of `conn`, and it keeps the other connections in a member entry. -/
def TouchesOnly (stores : PresenceStores) (works : StoreRef) (conn : Text) :
    PresenceStatement → Prop
  | .writeFocus store other _ => store = works ∧ other = conn
  | .deleteFocus store other => store = works ∧ other = conn
  | .writeMember store path user membership =>
    store = works ∧ ∀ other, other ≠ conn → (other ∈ membership.connIds ↔
        other ∈ stores.connIdsAt store path user)
  | .deleteMember store path user =>
    store = works ∧ ∀ other, other ≠ conn → other ∉ stores.connIdsAt store path user
  | _ => True

theorem mem_connIdsAt_execute {works : StoreRef} {other : Text} {statement : PresenceStatement}
    (touches : TouchesOnly stores works conn statement)
    (apart : store ≠ works ∨ other ≠ conn) (path user : Text) :
    other ∈ (executeStatement () statement stores).2.connIdsAt store path user ↔
      other ∈ stores.connIdsAt store path user := by
  cases statement with
  | writeMember written otherPath otherUser membership =>
    obtain ⟨within, keeps⟩ := touches
    by_cases same : written = store ∧ otherPath = path ∧ otherUser = user
    · obtain ⟨rfl, rfl, rfl⟩ := same
      have different : other ≠ conn := apart.resolve_left fun outside => outside within
      rw [connIdsAt_writeMember]
      exact keeps other different
    · have unwritten : ∀ entry, PresenceStatement.writeMember written
          otherPath otherUser membership ≠ .writeMember store path user entry := by
        intro entry equal
        cases equal
        exact same ⟨rfl, rfl, rfl⟩
      rw [connIdsAt_execute_of stores unwritten nofun]
  | deleteMember written otherPath otherUser =>
    obtain ⟨within, alone⟩ := touches
    by_cases same : written = store ∧ otherPath = path ∧ otherUser = user
    · obtain ⟨rfl, rfl, rfl⟩ := same
      have different : other ≠ conn := apart.resolve_left fun outside => outside within
      rw [connIdsAt_deleteMember]
      simp [alone other different]
    · have kept : PresenceStatement.deleteMember written otherPath
          otherUser ≠ .deleteMember store path user := by
        intro equal
        cases equal
        exact same ⟨rfl, rfl, rfl⟩
      rw [connIdsAt_execute_of stores ?unwritten kept]
      case unwritten =>
        intro entry equal
        cases equal
  | openFocus | writeFocus | deleteFocus | readMember | loadRoster => exact Iff.rfl

theorem tracks_execute_other {works : StoreRef} {other : Text}
    (touches : TouchesOnly stores works conn statement) (apart : store ≠ works ∨ other ≠ conn)
    (tracks : Tracks userOf stores store other focus listed) :
    Tracks userOf (executeStatement () statement stores).2 store other focus
      listed := by
  constructor
  · rw [focusAt_execute_of stores ?unwritten ?kept]
    · exact tracks.focus
    case unwritten =>
      rintro written rfl
      rcases apart with outside | different
      · exact outside touches.1
      · exact different touches.2
    case kept =>
      rintro rfl
      rcases apart with outside | different
      · exact outside touches.1
      · exact different touches.2
  · intro path user
    rw [mem_connIdsAt_execute touches apart]
    exact tracks.listed path user

end

/-- The store a handler works on, what that store says of the connection, and
the member entry it read last. -/
structure Known where
  store : Option StoreRef
  (focus listed : Option Text)
  read : List Text

def Known.start : Known :=
  ⟨none, none, none, []⟩

def Known.after (conn : Text) (known : Known) :
    (statement : PresenceStatement) → Except Empty statement.Answer → Known
  | .openFocus _ _, .ok (store, current) =>
    if known.store = none then ⟨some store, current.map (·.path), current.map (·.path), known.read⟩
    else known
  | .writeFocus _ _ focus, _ => { known with focus := some focus.path }
  | .deleteFocus _ _, _ => { known with focus := none }
  | .readMember _ _ _, .ok membership => { known with read := connIdsOf membership }
  | .writeMember _ path _ membership, _ =>
    { known with
      listed := if conn ∈ membership.connIds then some path else none }
  | .deleteMember _ _ _, _ => { known with listed := none }
  | _, _ => known

/-- The entry is the one of the user on the path on which the connection is
listed, or the connection is not listed at all. -/
def Known.mayChange (known : Known) (path : Text) : Prop :=
  known.listed = none ∨ known.listed = some path

section

variable (userOf : Text → Text)

/-- A handler works on the store it was given; only one that sets a focus
asks for a store again. -/
def handling (request : PresenceRequest) : Discipline PresenceStatement.Answer Empty Known where
  admits known
    | .openFocus topics conn =>
      topics = request.topics ∧ conn = request.conn ∧ (known.store = none ∨ request.target ≠ none)
    | .writeFocus store conn _ => known.store = some store ∧ conn = request.conn
    | .deleteFocus store conn => known.store = some store ∧ conn = request.conn
    | .readMember store _ user => known.store = some store ∧ user = userOf request.conn
    | .writeMember store path user membership =>
      known.store = some store ∧ user = userOf request.conn ∧
        known.mayChange path ∧ ∀ other, other ≠ request.conn →
          (other ∈ membership.connIds ↔ other ∈ known.read)
    | .deleteMember store path user =>
      known.store = some store ∧ user = userOf request.conn ∧
        known.mayChange path ∧ ∀ other, other ≠ request.conn → other ∉ known.read
    | .loadRoster _ _ => True
  possible known
    | .openFocus _ _, .ok (store, current) =>
      known.store = none ∨ (known.store = some store ∧ known.focus = current.map (·.path))
    | .readMember _ path _, .ok membership =>
      request.conn ∈ connIdsOf membership ↔ known.listed = some path
    | _, _ => True
  remember := Known.after request.conn

/-- A handler leaves its connection on the path its message asks for. -/
def reaches (request : PresenceRequest) (known : Known) (_ : Except Empty (List PresenceEvent)) :
    Prop :=
  known.store ≠ none ∧ known.focus = request.target ∧ known.listed = request.target

variable {userOf} {request : PresenceRequest} {known : Known}

theorem follows_storeOp {Value : Type} {next : statement.Answer → StoreCall Value}
    {ends : Known → Except Empty Value → Prop}
    (admitted : (handling userOf request).admits known statement)
    (after : ∀ answer, (handling userOf request).possible known statement (.ok answer) →
        Follows (handling userOf request) ends
          (known.after request.conn statement (.ok answer)) (next answer)) :
    Follows (handling userOf request) ends known (storeOp statement >>= next) := by
  refine follows_await admitted (fun thrown _ => thrown.elim) ?_
  intro value possible
  exact after value possible

/-- What `leavePath` leaves of its connection: nothing. -/
def leaves (before known : Known) : Prop :=
  known.focus = none ∧ known.listed = none ∧ known.store ≠ none ∧
    ∀ store, before.store = some store → known.store = some store

theorem follows_emitPresence {installId : Text}
    {ends : Known → Except Empty (List PresenceEvent) → Prop}
    (ended : ∀ events, ends known (.ok events)) :
    Follows (handling userOf request) ends known (emitPresence installId) := by
  refine follows_storeOp trivial ?_
  intro peers _
  exact ended _

theorem follows_leavePath (userOf : Text → Text) (request : PresenceRequest) (known : Known)
    (emit : StoredFocus → PresenceCall) (opens : known.store = none ∨ request.target ≠ none)
    (agree : known.focus = known.listed) (emits : ∀ current after, leaves known after →
        Follows (handling userOf request) (fun after _ => leaves known after)
          after (emit current)) :
    Follows (handling userOf request) (fun after _ => leaves known after) known
      (leavePath request.topics request.conn (userOf request.conn) emit) := by
  refine follows_storeOp ⟨rfl, rfl, opens⟩ ?_
  rintro ⟨store, current⟩ possible
  have opened : ∃ path, known.after request.conn (.openFocus request.topics request.conn)
        (.ok (store, current)) = ⟨some store, path, path, known.read⟩ ∧
      path = current.map (·.path) ∧
      ∀ before, known.store = some before → store = before := by
    refine ⟨current.map (·.path), ?_, rfl, ?_⟩
    · by_cases first : known.store = none
      · simp only [Known.after, if_pos first]
      · obtain ⟨same, focus⟩ := possible.resolve_left first
        simp only [Known.after, if_neg first]
        rw [← focus, ← same]
        nth_rewrite 2 [agree]
        rfl
    · intro before given
      rcases possible with first | ⟨same, _⟩
      · rw [first] at given
        cases given
      · exact Option.some.inj (same.symm.trans given)
  obtain ⟨path, shape, rfl, sameStore⟩ := opened
  rw [shape]
  have stays : ∀ before, known.store = some before → some store = some before := by
    intro before given
    rw [sameStore before given]
  cases current with
  | none => exact follows_pure ⟨rfl, rfl, nofun, stays⟩
  | some current =>
    refine follows_storeOp ⟨rfl, rfl⟩ ?_
    intro deleted _
    refine follows_storeOp ⟨rfl, rfl⟩ ?_
    intro membership isListed
    have listed : request.conn ∈ connIdsOf membership := isListed.mpr rfl
    cases membership with
    | none => cases listed
    | some membership =>
      have others : ∀ other, other ≠ request.conn →
          (other ∈ membership.connIds.filter (· ≠ request.conn) ↔ other ∈ membership.connIds) := by
        intro other different
        simp [different]
      show Follows _ _ _ (if _ then _ else _)
      split
      · refine follows_storeOp ⟨rfl, rfl, Or.inr rfl, others⟩ ?_
        intro written _
        refine follows_pure ⟨rfl, ?_, nofun, stays⟩
        simp [Known.after]
      · rename_i empty
        have alone : ∀ other, other ≠ request.conn → other ∉ membership.connIds := by
          intro other different member
          have kept := (others other different).mpr member
          rw [not_not.mp empty] at kept
          cases kept
        refine follows_storeOp ⟨rfl, rfl, Or.inr rfl, alone⟩ ?_
        intro gone _
        exact emits current _ ⟨rfl, rfl, nofun, stays⟩

variable {conn : Text}

theorem others_append (ids : List Text) :
    ∀ other, other ≠ conn → (other ∈ ids ++ [conn] ↔ other ∈ ids) := by
  intro other different
  simp [different]

theorem others_singleton :
    ∀ other, other ≠ conn → (other ∈ [conn] ↔ other ∈ ([] : List Text)) := by
  intro other different
  simp [different]

theorem follows_clearFocus (conn : Text) :
    Follows (handling userOf (.clearFocus conn)) (reaches (.clearFocus conn)) Known.start
      (clearFocus conn (userOf conn)) := by
  have left := follows_leavePath userOf (.clearFocus conn) Known.start
    (fun current => pure [.peer .leave (userOf conn) current.path current.lastActive])
    (Or.inl rfl) rfl fun current after gone => follows_pure gone
  apply left.weaken
  intro after outcome gone
  exact ⟨gone.2.2.1, gone.1, gone.2.1⟩

theorem follows_clearPresence (conn : Text) :
    Follows (handling userOf (.clearPresence conn)) (reaches (.clearPresence conn)) Known.start
      (clearPresence conn (userOf conn)) := by
  have left := follows_leavePath userOf (.clearPresence conn) Known.start
    (fun focus => emitPresence focus.path) (Or.inl rfl) rfl fun current after gone =>
      follows_emitPresence fun _ => gone
  apply left.weaken
  intro after outcome gone
  exact ⟨gone.2.2.1, gone.1, gone.2.1⟩

theorem follows_joinPath {path : Text} {now : Nat} (left : List PresenceEvent)
    (within : known.store = some store) (unlisted : known.listed = none) :
    Follows (handling userOf (.setFocus conn path now)) (reaches (.setFocus conn path now)) known
      (joinPath store conn (userOf conn) path now left) := by
  refine follows_storeOp ⟨within, rfl⟩ ?_
  intro written _
  refine follows_storeOp ⟨within, rfl⟩ ?_
  intro membership _
  have reached : ∀ ids : List Text, conn ∈ ids →
      (if conn ∈ ids then some path else none) = some path :=
    fun ids member => if_pos member
  cases membership with
  | none =>
    refine follows_storeOp ⟨within, rfl, Or.inl unlisted, others_singleton⟩ ?_
    intro stored _
    exact follows_pure ⟨within ▸ nofun, rfl, reached _ (List.mem_singleton_self conn)⟩
  | some membership =>
    refine follows_storeOp ⟨within, rfl, Or.inl unlisted, others_append membership.connIds⟩ ?_
    intro stored _
    exact follows_pure ⟨within ▸ nofun, rfl,
      reached _ (List.mem_append_right _ (List.mem_singleton_self conn))⟩

theorem follows_setFocus (conn path : Text) (now : Nat) :
    Follows (handling userOf (.setFocus conn path now))
      (reaches (.setFocus conn path now)) Known.start (setFocus conn (userOf conn) path now) := by
  refine follows_storeOp ⟨rfl, rfl, Or.inl rfl⟩ ?_
  rintro ⟨store, current⟩ _
  have opened : Known.start.after conn (.openFocus .presence conn) (.ok (store, current)) =
      ⟨some store, current.map (·.path), current.map (·.path), []⟩ := rfl
  dsimp only [PresenceRequest.conn]
  rw [opened]
  by_cases same : current.map (·.path) = some path
  · rw [if_pos same, same]
    refine follows_storeOp ⟨rfl, rfl⟩ ?_
    intro written _
    refine follows_storeOp ⟨rfl, rfl⟩ ?_
    intro membership isListed
    have listed : conn ∈ connIdsOf membership := isListed.mpr rfl
    cases membership with
    | none => cases listed
    | some membership =>
      refine follows_storeOp ⟨rfl, rfl, Or.inr rfl, fun other _ => Iff.rfl⟩ ?_
      intro stored _
      exact follows_pure ⟨nofun, rfl, if_pos listed⟩
  · rw [if_neg same]
    cases current with
    | none => exact follows_joinPath [] rfl rfl
    | some current =>
      apply follows_bind
      have left := follows_leavePath userOf (.setFocus conn path now)
        ⟨some store, some current.path, some current.path, []⟩
        (fun current => pure [.peer .leave (userOf conn) current.path current.lastActive])
        (Or.inr nofun) rfl fun _ _ gone => follows_pure gone
      apply left.weaken
      intro after outcome gone
      cases outcome with
      | ok events => exact follows_joinPath events (gone.2.2.2 store rfl) gone.2.1
      | error thrown => exact thrown.elim

theorem follows_joinInstall {installId : Text} {now : Nat} (left : List PresenceEvent)
    (within : known.store = some store) (free : known.mayChange installId) :
    Follows (handling userOf (.setPresence conn installId now))
      (reaches (.setPresence conn installId now)) known
      (joinInstall store conn (userOf conn) installId now left) := by
  refine follows_storeOp ⟨within, rfl⟩ ?_
  intro written _
  refine follows_storeOp ⟨within, rfl⟩ ?_
  intro membership _
  have reached : ∀ (ids : List Text) (read : List Text), conn ∈ ids →
      ∀ events, reaches (.setPresence conn installId now) ⟨known.store, some installId,
          if conn ∈ ids then some installId else none, read⟩
        (.ok events) := by
    intro ids read member events
    exact ⟨within ▸ nofun, rfl, if_pos member⟩
  cases membership with
  | none =>
    refine follows_storeOp ⟨within, rfl, free, others_singleton⟩ ?_
    intro stored _
    apply follows_bind
    apply follows_emitPresence
    intro events
    exact reached _ _ (List.mem_singleton_self conn) _
  | some existing =>
    have others : ∀ other, other ≠ conn →
        (other ∈ (if conn ∈ existing.connIds then existing.connIds
          else existing.connIds ++ [conn]) ↔ other ∈ existing.connIds) := by
      intro other different
      split
      · exact Iff.rfl
      · exact others_append existing.connIds other different
    have member : conn ∈ (if conn ∈ existing.connIds then existing.connIds
        else existing.connIds ++ [conn]) := by
      split
      · assumption
      · exact List.mem_append_right _ (List.mem_singleton_self conn)
    refine follows_storeOp ⟨within, rfl, free, others⟩ ?_
    intro stored _
    apply follows_bind
    apply follows_emitPresence
    intro events
    exact reached _ _ member _

theorem follows_setPresence (conn installId : Text) (now : Nat) :
    Follows (handling userOf (.setPresence conn installId now))
      (reaches (.setPresence conn installId now)) Known.start
      (setPresence conn (userOf conn) installId now) := by
  refine follows_storeOp ⟨rfl, rfl, Or.inl rfl⟩ ?_
  rintro ⟨store, prev⟩ _
  have opened : Known.start.after conn (.openFocus .app conn) (.ok (store, prev)) =
      ⟨some store, prev.map (·.path), prev.map (·.path), []⟩ := rfl
  dsimp only [PresenceRequest.conn]
  rw [opened]
  cases prev with
  | none => exact follows_joinInstall [] rfl (Or.inl rfl)
  | some prev =>
    by_cases same : prev.path = installId
    · rw [if_neg (fun other => other.2 (congrArg some same))]
      exact follows_joinInstall [] rfl (Or.inr (congrArg some same))
    · rw [if_pos ⟨rfl, fun equal => same (Option.some.inj equal)⟩]
      apply follows_bind
      have left := follows_leavePath userOf (.setPresence conn installId now)
        ⟨some store, some prev.path, some prev.path, []⟩
        (fun focus => emitPresence focus.path)
        (Or.inr nofun) rfl fun _ _ gone => follows_emitPresence fun _ => gone
      apply left.weaken
      intro after outcome gone
      cases outcome with
      | ok events => exact follows_joinInstall events (gone.2.2.2 store rfl) (Or.inl gone.2.1)
      | error thrown => exact thrown.elim

/-- What a handler asks of the stores, and where it leaves its connection. -/
theorem follows_serve (userOf : Text → Text) (request : PresenceRequest) :
    Follows (handling userOf request) (reaches request) Known.start (serve userOf request) := by
  cases request with
  | setFocus conn path now => exact follows_setFocus conn path now
  | clearFocus conn => exact follows_clearFocus conn
  | setPresence conn installId now => exact follows_setPresence conn installId now
  | clearPresence conn => exact follows_clearPresence conn

end

section

variable {userOf : Text → Text} {stores : PresenceStores}
  {request : PresenceRequest} {known : Known}

theorem read_after (conn : Text) (statement : PresenceStatement)
    (answer : Except Empty statement.Answer) :
    (known.after conn statement answer).read = readAfter known.read statement answer := by
  cases statement with
  | openFocus topics other =>
    cases answer with
    | ok value =>
      obtain ⟨store, current⟩ := value
      by_cases first : known.store = none
      · simp only [Known.after, if_pos first, readAfter]
      · simp only [Known.after, if_neg first, readAfter]
    | error thrown => exact thrown.elim
  | readMember store path user =>
    cases answer with
    | ok value => rfl
    | error thrown => exact thrown.elim
  | writeFocus | deleteFocus | writeMember | deleteMember | loadRoster => rfl

theorem read_memoryOf (userOf : Text → Text) (request : PresenceRequest)
    (history : List (Executed PresenceStatement.Answer Empty)) (position : Nat) :
    (memoryOf (handling userOf request) Known.start history position).read =
      lastRead history position := by
  induction history using List.reverseRecOn with
  | nil => rfl
  | append_singleton before entry ih =>
    simp only [memoryOf, lastRead, List.foldl_append, List.foldl_cons, List.foldl_nil] at ih ⊢
    split
    · rw [← ih]
      exact read_after request.conn entry.statement entry.answer
    · exact ih

theorem touches_of_admits (works : StoreRef)
    (within : ∀ store, known.store = some store → store = works)
    (admitted : (handling userOf request).admits known statement)
    (unchanged : Unchanged stores known.read statement) :
    TouchesOnly stores works request.conn statement := by
  cases statement with
  | writeFocus store conn focus => exact ⟨within store admitted.1, admitted.2⟩
  | deleteFocus store conn => exact ⟨within store admitted.1, admitted.2⟩
  | writeMember store path user membership =>
    obtain ⟨works, _, _, others⟩ := admitted
    refine ⟨within store works, ?_⟩
    intro other different
    rw [show stores.connIdsAt store path user = known.read from unchanged]
    exact others other different
  | deleteMember store path user =>
    obtain ⟨works, _, _, others⟩ := admitted
    refine ⟨within store works, ?_⟩
    intro other different
    rw [show stores.connIdsAt store path user = known.read from unchanged]
    exact others other different
  | openFocus | readMember | loadRoster => trivial

theorem tracks_changed (known : Known) (after : PresenceStores)
    {store : StoreRef} {path : Text} {listed : Option Text} {ids : List Text}
    (tracks : Tracks userOf stores store request.conn known.focus known.listed)
    (free : known.mayChange path)
    (focus : after.focusAt store request.conn = stores.focusAt store request.conn)
    (changed : after.connIdsAt store path (userOf request.conn) = ids)
    (others : ∀ otherPath user, ¬ (otherPath = path ∧ user = userOf request.conn) →
        after.connIdsAt store otherPath user = stores.connIdsAt store otherPath user)
    (now : listed = if request.conn ∈ ids then some path else none) :
    Tracks userOf after store request.conn known.focus listed := by
  refine ⟨focus.trans tracks.focus, ?_⟩
  intro otherPath user
  by_cases same : otherPath = path ∧ user = userOf request.conn
  · obtain ⟨rfl, rfl⟩ := same
    rw [changed, now]
    split <;> simp_all
  · rw [others otherPath user same, tracks.listed, now]
    constructor
    · rintro ⟨rfl, found⟩
      rcases free with unlisted | here
      · rw [unlisted] at found
        cases found
      · rw [here] at found
        exact absurd ⟨(Option.some.inj found).symm, rfl⟩ same
    · rintro ⟨rfl, found⟩
      split at found
      · exact absurd ⟨(Option.some.inj found).symm, rfl⟩ same
      · cases found

theorem tracks_execute_own (works : known.store = some store)
    (admitted : (handling userOf request).admits known statement)
    (tracks : Tracks userOf stores store request.conn known.focus known.listed) :
    let outcome := executeStatement () statement stores
    Tracks userOf outcome.2 store request.conn (known.after request.conn statement outcome.1).focus
      (known.after request.conn statement outcome.1).listed := by
  cases statement with
  | openFocus topics conn =>
    simp only [executeStatement, Known.after, works, reduceCtorEq, if_false]
    exact tracks
  | writeFocus written conn focus =>
    obtain ⟨own, rfl⟩ := admitted
    obtain rfl : store = written := Option.some.inj (works.symm.trans own)
    refine ⟨focusAt_writeFocus stores store request.conn focus, ?_⟩
    exact tracks.listed
  | deleteFocus written conn =>
    obtain ⟨own, rfl⟩ := admitted
    obtain rfl : store = written := Option.some.inj (works.symm.trans own)
    refine ⟨focusAt_deleteFocus stores store request.conn, ?_⟩
    exact tracks.listed
  | readMember written path user => exact tracks
  | writeMember written path user membership =>
    obtain ⟨own, rfl, free, _⟩ := admitted
    obtain rfl : store = written := Option.some.inj (works.symm.trans own)
    refine tracks_changed known _ tracks free rfl
      (connIdsAt_writeMember stores store path _ membership) ?_ rfl
    intro otherPath user different
    apply connIdsAt_execute_of
    · intro entry equal
      cases equal
      exact different ⟨rfl, rfl⟩
    · intro equal
      cases equal
  | deleteMember written path user =>
    obtain ⟨own, rfl, free, _⟩ := admitted
    obtain rfl : store = written := Option.some.inj (works.symm.trans own)
    refine tracks_changed known _ tracks free rfl
      (connIdsAt_deleteMember stores store path _) ?_ rfl
    intro otherPath user different
    apply connIdsAt_execute_of
    · intro entry equal
      cases equal
    · intro equal
      cases equal
      exact different ⟨rfl, rfl⟩
  | loadRoster topics path => exact tracks

end

variable {position : Nat}

section

variable {requests : List PresenceRequest} {topics : TopicNamespace}
  {conn : Text}

theorem isOf_self (request : PresenceRequest) : request.isOf request.topics request.conn = true :=
  decide_eq_true ⟨rfl, rfl⟩

variable {request : PresenceRequest}

theorem eq_of_isOf (own : request.isOf topics conn = true) :
    request.topics = topics ∧ request.conn = conn :=
  of_decide_eq_true own

theorem lastFocus_append_own (requests : List PresenceRequest) (request : PresenceRequest) :
    lastFocus (requests ++ [request]) request.topics request.conn = request.target := by
  simp only [lastFocus, List.filter_append, List.filter_cons, isOf_self,
    if_true, List.filter_nil, List.getLast?_concat, Option.bind_some]

theorem lastFocus_append_other (other : request.isOf topics conn = false) :
    lastFocus (requests ++ [request]) topics conn = lastFocus requests topics conn := by
  simp only [lastFocus, List.filter_append, List.filter_cons, other,
    Bool.false_eq_true, if_false, List.filter_nil, List.append_nil]

theorem lastFocus_of_last (found : requests[position]? = some request)
    (last : ∀ later other, position < later → requests[later]? = some other →
        other.isOf request.topics request.conn = false) :
    lastFocus requests request.topics request.conn = request.target := by
  have inside := (List.getElem?_eq_some_iff.mp found).1
  have split : requests = (requests.take position ++ [request]) ++
        requests.drop (position + 1) := by
    rw [← (List.getElem?_eq_some_iff.mp found).2, List.take_append_getElem, List.take_append_drop]
  have rest : (requests.drop (position + 1)).filter (·.isOf request.topics request.conn) = [] := by
    rw [List.filter_eq_nil_iff]
    intro other member
    obtain ⟨offset, present⟩ := List.mem_iff_getElem?.mp member
    rw [List.getElem?_drop] at present
    exact ne_true_of_eq_false (last (position + 1 + offset) other (by omega) present)
  have front := lastFocus_append_own (requests.take position) request
  rw [lastFocus] at front ⊢
  rw [split, List.filter_append, rest, List.append_nil]
  exact front

end

section

abbrev HandlerCall :=
  Call PresenceRequest PresenceStatement.Answer Empty (List PresenceEvent)

variable {userOf : Text → Text} {system : PresenceSystem}

/-- What the stores say of the connection of a handler in flight.  A handler
whose store was dropped is one that leaves a path, and its connection is in
no entry of the current store. -/
def Flies (userOf : Text → Text) (stores : PresenceStores)
    (request : PresenceRequest) (known : Known) : Prop :=
  match known.store with
  | none =>
    ∃ target, Tracks userOf stores (stores.storeFor request.topics) request.conn target target
  | some store =>
    store.topics = request.topics ∧
      Tracks userOf stores store request.conn known.focus known.listed ∧
      (store.generation = stores.generation ∨
        (store.generation < stores.generation ∧ request.target = none ∧
          Tracks userOf stores (stores.storeFor request.topics) request.conn none none))

def PresenceSystem.knownTo (userOf : Text → Text) (system : PresenceSystem)
    (position : Nat) (request : PresenceRequest) : Known :=
  memoryOf (handling userOf request) Known.start system.calls.history position

structure HandlersInvariant (userOf : Text → Text) (system : PresenceSystem) : Prop where
  follow : AllFollow (handling userOf) Known.start reaches system.calls
  /-- No message of its connection came after the one a handler is
  handling. -/
  serial : ∀ (position : Nat) (call : HandlerCall), system.calls.calls[position]? = some call →
    call.process.outcome? = none → ∀ (later : Nat) (other : HandlerCall), position < later →
        system.calls.calls[later]? = some other →
          other.request.isOf call.request.topics call.request.conn = false
  flying : ∀ (position : Nat) (call : HandlerCall), system.calls.calls[position]? = some call →
    call.process.outcome? = none → Flies userOf system.stores call.request
        (system.knownTo userOf position call.request)
  settled : ∀ topics conn, system.handled topics conn = true →
    Tracks userOf system.stores (system.stores.storeFor topics) conn
      (lastFocus system.requests topics conn)
      (lastFocus system.requests topics conn)
  /-- Nothing is in a store that was not handed out yet. -/
  fresh : ∀ store, system.stores.generation < store.generation →
    ∀ conn, Tracks userOf system.stores store conn none none

structure PresenceInvariant (userOf : Text → Text) (system : PresenceSystem) : Prop where
  handlers : HandlersInvariant userOf system
  connected : ∀ topics conn, lastFocus system.requests topics conn ≠ none → conn ∈ system.connected

variable {topics : TopicNamespace} {conn : Text}

theorem handled_iff :
    system.handled topics conn = true ↔ ∀ (position : Nat) (call : HandlerCall),
        system.calls.calls[position]? = some call →
        call.request.isOf topics conn = true → call.process.outcome? ≠ none := by
  rw [PresenceSystem.handled, List.all_eq_true]
  constructor
  · intro all position call found own
    have member := List.mem_of_getElem? found
    have ended := all call member
    rw [own, Bool.not_true, Bool.false_or] at ended
    exact Option.isSome_iff_ne_none.mp ended
  · intro all call member
    obtain ⟨position, found⟩ := List.mem_iff_getElem?.mp member
    cases own : call.request.isOf topics conn with
    | false => rfl
    | true => exact Option.isSome_iff_ne_none.mpr (all position call found own)

theorem lastFocus_of_flying (invariant : HandlersInvariant userOf system)
    {call : HandlerCall} (found : system.calls.calls[position]? = some call)
    (inFlight : call.process.outcome? = none) :
    lastFocus system.requests call.request.topics call.request.conn = call.request.target := by
  have request : system.requests[position]? = some call.request := by
    rw [PresenceSystem.requests, List.getElem?_map, found, Option.map_some]
  apply lastFocus_of_last request
  intro later other behind present
  rw [PresenceSystem.requests, List.getElem?_map] at present
  obtain ⟨laterCall, stored, rfl⟩ := Option.map_eq_some_iff.mp present
  exact invariant.serial position call found inFlight later laterCall behind stored

theorem handlersInvariant_noConnections (userOf : Text → Text) :
    HandlersInvariant userOf noConnections := by
  constructor
  · exact follows_idle
  · intro position call found
    cases found
  · intro position call found
    cases found
  · intro topics conn _
    exact ⟨rfl, fun path user => ⟨nofun, nofun⟩⟩
  · intro store _ conn
    exact ⟨rfl, fun path user => ⟨nofun, nofun⟩⟩

def PresenceSystem.started (userOf : Text → Text) (system : PresenceSystem)
    (request : PresenceRequest) : PresenceSystem :=
  { system with calls := system.calls.start request (serve userOf request) }

theorem serve_opens (userOf : Text → Text) (request : PresenceRequest) :
    ∃ resume, serve userOf request = .await (.openFocus request.topics request.conn) resume := by
  cases request <;> exact ⟨_, rfl⟩

theorem requests_started (request : PresenceRequest) :
    (system.started userOf request).requests = system.requests ++ [request] := by
  simp only [PresenceSystem.requests, PresenceSystem.started,
    Concurrent.start, List.map_append, List.map_cons, List.map_nil]

variable {request : PresenceRequest}

theorem getElem?_started {call : HandlerCall}
    (found : (system.started userOf request).calls.calls[position]? = some call) :
    (position < system.calls.calls.length ∧ system.calls.calls[position]? = some call) ∨
      (position = system.calls.calls.length ∧ call = ⟨request, serve userOf request⟩) := by
  simp only [PresenceSystem.started, Concurrent.start] at found
  by_cases old : position < system.calls.calls.length
  · rw [List.getElem?_append_left old] at found
    exact Or.inl ⟨old, found⟩
  · have inside := (List.getElem?_eq_some_iff.mp found).1
    rw [List.length_append, List.length_singleton] at inside
    obtain rfl : position = system.calls.calls.length := by omega
    rw [List.getElem?_concat_length] at found
    exact Or.inr ⟨rfl, (Option.some.inj found).symm⟩

theorem handlersInvariant_started (invariant : HandlersInvariant userOf system)
    (request : PresenceRequest) (idle : system.handled request.topics request.conn = true) :
    HandlersInvariant userOf (system.started userOf request) := by
  constructor
  · exact follows_start invariant.follow (follows_serve userOf request)
  · intro position call found inFlight later other behind present
    rcases getElem?_started found with ⟨old, stored⟩ | ⟨rfl, rfl⟩
    · rcases getElem?_started present with ⟨_, before⟩ | ⟨_, rfl⟩
      · exact invariant.serial position call stored inFlight later other behind before
      · rw [Bool.eq_false_iff]
        intro own
        obtain ⟨sameTopics, sameConn⟩ := eq_of_isOf own
        dsimp only at sameTopics sameConn
        rw [sameTopics, sameConn] at idle
        exact handled_iff.mp idle position call stored (isOf_self call.request) inFlight
    · have inside := (List.getElem?_eq_some_iff.mp present).1
      simp only [PresenceSystem.started, Concurrent.start,
        List.length_append, List.length_singleton] at inside
      omega
  · intro position call found inFlight
    rcases getElem?_started found with ⟨old, stored⟩ | ⟨rfl, rfl⟩
    · exact invariant.flying position call stored inFlight
    · have unasked : ∀ entry ∈ system.calls.history, entry.caller ≠ system.calls.calls.length := by
        intro entry member
        exact Nat.ne_of_lt (invariant.follow.below entry member)
      have start : (system.started userOf request).knownTo userOf
          system.calls.calls.length request = Known.start :=
        memoryOf_of_unasked _ _ unasked
      show Flies userOf system.stores request _
      rw [start]
      exact ⟨_, invariant.settled _ _ idle⟩
  · intro topics conn idleAfter
    have other : request.isOf topics conn = false := by
      rw [Bool.eq_false_iff]
      intro own
      obtain ⟨resume, opens⟩ := serve_opens userOf request
      apply handled_iff.mp idleAfter system.calls.calls.length
        ⟨request, serve userOf request⟩ (List.getElem?_concat_length) own
      rw [opens]
      rfl
    have idleBefore : system.handled topics conn = true := by
      rw [handled_iff] at idleAfter ⊢
      intro position call found own
      apply idleAfter position call _ own
      exact (List.getElem?_append_left (List.getElem?_eq_some_iff.mp found).1).trans found
    rw [requests_started, lastFocus_append_other other]
    exact invariant.settled topics conn idleBefore
  · exact invariant.fresh

section

variable {stores : PresenceStores} {request : PresenceRequest}
  {known : Known} {statement : PresenceStatement}

theorem store_after (works : known.store = some store) (conn : Text)
    (answer : Except Empty statement.Answer) :
    (known.after conn statement answer).store = some store := by
  cases statement with
  | openFocus topics other =>
    cases answer with
    | ok value =>
      obtain ⟨given, current⟩ := value
      have opened : known.store ≠ none := works ▸ nofun
      rw [Known.after, if_neg opened]
      exact works
    | error thrown => exact thrown.elim
  | readMember store path user =>
    cases answer with
    | ok value => exact works
    | error thrown => exact thrown.elim
  | writeFocus | deleteFocus | writeMember | deleteMember | loadRoster => exact works

theorem possible_of_flies (flies : Flies userOf stores request known)
    (admitted : (handling userOf request).admits known statement) :
    (handling userOf request).possible known statement
      (executeStatement () statement stores).1 := by
  cases statement with
  | openFocus topics conn =>
    obtain ⟨rfl, rfl, again⟩ := admitted
    rcases again with first | sets
    · exact Or.inl first
    · cases opened : known.store with
      | none => exact Or.inl opened
      | some store =>
        rw [Flies, opened] at flies
        obtain ⟨within, tracks, current | ⟨_, leaving, _⟩⟩ := flies
        · have same : store = stores.storeFor request.topics := by
            cases store
            cases within
            cases current
            rfl
          subst same
          refine Or.inr ⟨opened, ?_⟩
          rw [← tracks.focus, PresenceStores.focusAt, Option.map_map]
          rfl
        · exact absurd leaving sets
  | readMember store path user =>
    obtain ⟨works, rfl⟩ := admitted
    rw [Flies, works] at flies
    obtain ⟨_, tracks, _⟩ := flies
    have listed := tracks.listed path (userOf request.conn)
    exact listed.trans ⟨fun both => both.2, fun found => ⟨rfl, found⟩⟩
  | writeFocus | deleteFocus | writeMember | deleteMember | loadRoster => trivial

theorem flies_execute_own (flies : Flies userOf stores request known)
    (admitted : (handling userOf request).admits known statement)
    (unchanged : Unchanged stores known.read statement) :
    let outcome := executeStatement () statement stores
    Flies userOf outcome.2 request (known.after request.conn statement outcome.1) := by
  intro outcome
  cases opened : known.store with
  | some store =>
    rw [Flies, opened] at flies
    rw [Flies, store_after opened]
    obtain ⟨within, tracks, age⟩ := flies
    refine ⟨within, tracks_execute_own opened admitted tracks, ?_⟩
    rw [generation_execute, storeFor_execute]
    rcases age with current | ⟨old, leaving, absent⟩
    · exact Or.inl current
    · have touches := touches_of_admits store
        (fun other same => Option.some.inj (same.symm.trans opened))
        admitted unchanged
      have apart : stores.storeFor request.topics ≠ store := by
        intro same
        rw [← same] at old
        exact Nat.lt_irrefl _ old
      exact Or.inr ⟨old, leaving, tracks_execute_other touches (Or.inl apart) absent⟩
  | none =>
    rw [Flies, opened] at flies
    obtain ⟨target, tracks⟩ := flies
    cases statement with
    | openFocus topics conn =>
      obtain ⟨rfl, rfl, _⟩ := admitted
      have found : (stores.focus.find? (stores.storeFor request.topics, request.conn)).map
            (·.focus.path) = target := tracks.focus
      have shape : known.after request.conn (.openFocus request.topics request.conn) outcome.1 =
          ⟨some (stores.storeFor request.topics), target, target, known.read⟩ := by
        simp only [outcome, executeStatement, Known.after, if_pos opened, Option.map_map]
        rw [← found]
        rfl
      rw [Flies, shape]
      exact ⟨rfl, tracks, Or.inl rfl⟩
    | loadRoster topics path =>
      have same : known.after request.conn (.loadRoster topics path) outcome.1 = known := rfl
      rw [Flies, same, opened]
      exact ⟨target, tracks⟩
    | writeFocus | deleteFocus | readMember | writeMember | deleteMember =>
      have works := admitted.1
      rw [opened] at works
      cases works

theorem flies_execute_other {works : StoreRef} {other : PresenceRequest}
    (touches : TouchesOnly stores works conn statement)
    (apart : works.topics ≠ other.topics ∨ other.conn ≠ conn)
    (flies : Flies userOf stores other known) :
    Flies userOf (executeStatement () statement stores).2 other known := by
  have elsewhere : ∀ store : StoreRef, store.topics = other.topics →
      store ≠ works ∨ other.conn ≠ conn := by
    intro store within
    apply apart.imp_left
    rintro different rfl
    exact different within
  cases opened : known.store with
  | none =>
    rw [Flies, opened] at flies ⊢
    obtain ⟨target, tracks⟩ := flies
    refine ⟨target, ?_⟩
    rw [storeFor_execute]
    exact tracks_execute_other touches (elsewhere _ rfl) tracks
  | some store =>
    rw [Flies, opened] at flies ⊢
    obtain ⟨within, tracks, age⟩ := flies
    refine ⟨within, tracks_execute_other touches (elsewhere store within) tracks, ?_⟩
    rw [generation_execute, storeFor_execute]
    rcases age with current | ⟨old, leaving, absent⟩
    · exact Or.inl current
    · exact Or.inr ⟨old, leaving, tracks_execute_other touches (elsewhere _ rfl) absent⟩

theorem tracks_of_reaches {outcome : Except Empty (List PresenceEvent)}
    (flies : Flies userOf stores request known) (reached : reaches request known outcome) :
    Tracks userOf stores (stores.storeFor request.topics) request.conn
      request.target request.target := by
  obtain ⟨opened, focus, listed⟩ := reached
  obtain ⟨store, works⟩ := Option.ne_none_iff_exists'.mp opened
  rw [Flies, works] at flies
  obtain ⟨within, tracks, current | ⟨_, leaving, absent⟩⟩ := flies
  · have same : store = stores.storeFor request.topics := by
      cases store
      cases within
      cases current
      rfl
    rw [same, focus, listed] at tracks
    exact tracks
  · rw [leaving]
    exact absent

end

section

variable {position : Nat} {request : PresenceRequest}
  {statement : PresenceStatement}
  {resume : Except Empty statement.Answer → PresenceCall}

def PresenceSystem.executed (system : PresenceSystem) (position : Nat)
    (request : PresenceRequest) (statement : PresenceStatement)
    (resume : Except Empty statement.Answer → PresenceCall) :
    PresenceSystem :=
  { system with
    calls := system.calls.answered position request statement resume
      (executeStatement () statement system.calls.shared) }

variable {other : Nat} {call : HandlerCall}

theorem getElem?_executed (found : (system.executed position request statement
      resume).calls.calls[other]? = some call) :
    (other ≠ position ∧ system.calls.calls[other]? = some call) ∨
      (other = position ∧ call = ⟨request, resume
        (executeStatement () statement system.calls.shared).1⟩) := by
  simp only [PresenceSystem.executed, Concurrent.answered] at found
  by_cases same : position = other
  · subst same
    have inside := (List.getElem?_eq_some_iff.mp found).1
    rw [List.length_set] at inside
    rw [List.getElem?_set_self inside] at found
    exact Or.inr ⟨rfl, (Option.some.inj found).symm⟩
  · rw [List.getElem?_set_ne same] at found
    exact Or.inl ⟨Ne.symm same, found⟩

theorem requests_executed (found : system.calls.Awaits position request statement resume) :
    (system.executed position request statement resume).requests = system.requests := by
  apply List.ext_getElem?
  intro other
  have same : (system.executed position request statement
      resume).calls.requestAt other = system.calls.requestAt other :=
    requestAt_answered found other
  simp only [PresenceSystem.requests, List.getElem?_map]
  exact same

theorem knownTo_executed_other (different : other ≠ position) (asked : PresenceRequest) :
    (system.executed position request statement resume).knownTo userOf other
      asked = system.knownTo userOf other asked :=
  memoryOf_append_other _ _ _ _ _ different.symm

theorem knownTo_executed_own :
    (system.executed position request statement resume).knownTo userOf position request =
      (system.knownTo userOf position request).after request.conn statement
        (executeStatement () statement system.calls.shared).1 :=
  memoryOf_append_own _ _ _ _ _ _

/-- Where a handler in flight works, as far as the operation it awaits
writes. -/
theorem touches_of_flying (flies : Flies userOf system.stores request
      (system.knownTo userOf position request)) (admitted : (handling userOf request).admits
      (system.knownTo userOf position request) statement)
    (unchanged : Unchanged system.stores (lastRead system.calls.history position) statement) :
    ∃ works : StoreRef, works.topics = request.topics ∧
      works.generation ≤ system.stores.generation ∧
      TouchesOnly system.stores works request.conn statement := by
  rw [← read_memoryOf userOf request] at unchanged
  cases opened : (system.knownTo userOf position request).store with
  | none =>
    refine ⟨system.stores.storeFor request.topics, rfl, le_rfl, ?_⟩
    apply touches_of_admits _ ?within admitted unchanged
    intro store some
    rw [opened] at some
    cases some
  | some store =>
    rw [Flies, opened] at flies
    obtain ⟨within, _, age⟩ := flies
    refine ⟨store, within, ?_, ?_⟩
    · rcases age with current | ⟨old, _⟩
      · exact current.le
      · exact old.le
    · apply touches_of_admits _ ?_ admitted unchanged
      intro other some
      exact Option.some.inj (some.symm.trans opened)

section

variable (invariant : HandlersInvariant userOf system)
  (found : system.calls.Awaits position request statement resume)

include invariant found

theorem apart_of_serial (different : other ≠ position)
    (stored : system.calls.calls[other]? = some call) (inFlight : call.process.outcome? = none) :
    request.topics ≠ call.request.topics ∨ call.request.conn ≠ request.conn := by
  by_contra same
  rw [not_or, not_not, not_not] at same
  have ofSame : call.request.isOf request.topics request.conn = true :=
    decide_eq_true ⟨same.1.symm, same.2⟩
  rcases Nat.lt_or_gt_of_ne different with before | behind
  · have later := invariant.serial other call stored inFlight position _ before found
    rw [same.2, ← same.1] at later
    exact Bool.false_ne_true (later.symm.trans (isOf_self request))
  · have later := invariant.serial position _ found rfl other call behind stored
    exact Bool.false_ne_true (later.symm.trans ofSame)

theorem serial_executed {later : Nat} {laterCall : HandlerCall}
    (stored : (system.executed position request statement resume).calls.calls[other]? = some call)
    (inFlight : call.process.outcome? = none) (behind : other < later)
    (present : (system.executed position request statement
      resume).calls.calls[later]? = some laterCall) :
    laterCall.request.isOf call.request.topics call.request.conn = false := by
  have before : ∃ earlier : HandlerCall, system.calls.calls[other]? = some earlier ∧
      earlier.request = call.request ∧ earlier.process.outcome? = none := by
    rcases getElem?_executed stored with ⟨_, same⟩ | ⟨rfl, rfl⟩
    · exact ⟨call, same, rfl, inFlight⟩
    · exact ⟨_, found, rfl, rfl⟩
  have after : ∃ earlier : HandlerCall, system.calls.calls[later]? = some earlier ∧
      earlier.request = laterCall.request := by
    rcases getElem?_executed present with ⟨_, same⟩ | ⟨rfl, rfl⟩
    · exact ⟨laterCall, same, rfl⟩
    · exact ⟨_, found, rfl⟩
  obtain ⟨first, storedFirst, sameFirst, flying⟩ := before
  obtain ⟨second, storedSecond, sameSecond⟩ := after
  rw [← sameFirst, ← sameSecond]
  exact invariant.serial other first storedFirst flying later second behind storedSecond

theorem follow_executed :
    AllFollow (handling userOf) Known.start reaches
      (system.executed position request statement resume).calls := by
  have flies := invariant.flying position _ found rfl
  have admitted := invariant.follow.admitted found
  exact follows_answered invariant.follow found (possible_of_flies flies admitted)

theorem flying_executed (unchanged : Unchanged system.stores
      (lastRead system.calls.history position) statement) :
    Flies userOf (system.executed position request statement resume).stores request
      ((system.executed position request statement resume).knownTo userOf position request) := by
  rw [knownTo_executed_own]
  apply flies_execute_own (invariant.flying position _ found rfl) (invariant.follow.admitted found)
  rw [PresenceSystem.knownTo, read_memoryOf]
  exact unchanged

/-- A handler that ends leaves its connection where its message asks. -/
theorem settled_executed_own (unchanged : Unchanged system.stores
      (lastRead system.calls.history position) statement)
    (idle : (system.executed position request statement resume).handled
      request.topics request.conn = true) :
    Tracks userOf (system.executed position request statement resume).stores
      ((system.executed position request statement
        resume).stores.storeFor request.topics) request.conn
      (lastFocus system.requests request.topics request.conn)
      (lastFocus system.requests request.topics request.conn) := by
  have inside := (List.getElem?_eq_some_iff.mp found).1
  have present : (system.executed position request statement resume).calls.calls[position]? =
      some ⟨request, resume (executeStatement () statement system.calls.shared).1⟩ :=
    List.getElem?_set_self inside
  have ended := handled_iff.mp idle position _ present (isOf_self request)
  obtain ⟨outcome, done⟩ := Option.ne_none_iff_exists'.mp ended
  have continued : resume (executeStatement () statement system.calls.shared).1 = .done outcome :=
    Process.eq_done_of_outcome? done
  rw [continued] at present
  have reached : reaches request ((system.executed position request statement resume).knownTo
        userOf position request) outcome :=
    (follow_executed invariant found).ended present
  rw [lastFocus_of_flying invariant found rfl]
  exact tracks_of_reaches (flying_executed invariant found unchanged) reached

end

theorem handled_of_executed (found : system.calls.Awaits position request statement resume)
    (other : request.isOf topics conn = false)
    (idle : (system.executed position request statement resume).handled topics conn = true) :
    system.handled topics conn = true := by
  rw [handled_iff] at idle ⊢
  intro later call stored ofConn
  by_cases same : later = position
  · subst same
    rw [found] at stored
    cases stored
    rw [other] at ofConn
    cases ofConn
  · apply idle later call _ ofConn
    exact (List.getElem?_set_ne (Ne.symm same)).trans stored

theorem handlersInvariant_executed (invariant : HandlersInvariant userOf system)
    (found : system.calls.Awaits position request statement resume)
    (unchanged : Unchanged system.stores (lastRead system.calls.history position) statement) :
    HandlersInvariant userOf (system.executed position request statement resume) := by
  obtain ⟨works, within, age, touches⟩ :=
    touches_of_flying (invariant.flying position _ found rfl)
      (invariant.follow.admitted found) unchanged
  dsimp only at within touches
  constructor
  · exact follow_executed invariant found
  · intro other call stored inFlight later laterCall behind present
    exact serial_executed invariant found stored inFlight behind present
  · intro other call stored inFlight
    rcases getElem?_executed stored with ⟨different, same⟩ | ⟨rfl, rfl⟩
    · rw [knownTo_executed_other different]
      apply flies_execute_other touches ?_ (invariant.flying other call same inFlight)
      rw [within]
      exact apart_of_serial invariant found different same inFlight
    · exact flying_executed invariant found unchanged
  · intro topics conn idle
    rw [requests_executed found]
    cases own : request.isOf topics conn with
    | true =>
      obtain ⟨rfl, rfl⟩ := eq_of_isOf own
      exact settled_executed_own invariant found unchanged idle
    | false =>
      have before := invariant.settled topics conn (handled_of_executed found own idle)
      rw [PresenceRequest.isOf, decide_eq_false_iff_not, not_and_or] at own
      have apart : system.stores.storeFor topics ≠ works ∨ conn ≠ request.conn := by
        apply own.imp
        · rintro different rfl
          exact different within.symm
        · exact Ne.symm
      have after := tracks_execute_other touches apart before
      rw [← storeFor_execute system.stores statement] at after
      exact after
  · intro store new conn
    have old : system.stores.generation < store.generation := by
      rw [← generation_execute system.stores statement]
      exact new
    apply tracks_execute_other touches (Or.inl ?_) (invariant.fresh store old conn)
    rintro rfl
    omega

end

theorem handlersInvariant_drop (invariant : HandlersInvariant userOf system)
    (gone : ∀ topics conn, lastFocus system.requests topics conn = none) :
    HandlersInvariant userOf system.drop := by
  have emptyStore : ∀ (store : StoreRef) conn, system.stores.generation < store.generation →
        Tracks userOf system.drop.stores store conn none none := by
    intro store conn new
    have absent := invariant.fresh store new conn
    exact ⟨absent.focus, absent.listed⟩
  have later : system.stores.generation < system.drop.stores.generation := Nat.lt_succ_self _
  constructor
  · exact ⟨invariant.follow.below, invariant.follow.follow⟩
  · exact invariant.serial
  · intro position call found inFlight
    have flies := invariant.flying position call found inFlight
    have leaving : call.request.target = none := by
      rw [← lastFocus_of_flying invariant found inFlight]
      exact gone _ _
    show Flies userOf system.drop.stores call.request (system.knownTo userOf position call.request)
    cases opened : (system.knownTo userOf position call.request).store with
    | none =>
      rw [Flies, opened]
      exact ⟨none, emptyStore _ _ later⟩
    | some store =>
      rw [Flies, opened] at flies ⊢
      obtain ⟨within, tracks, age⟩ := flies
      have old : store.generation < system.drop.stores.generation := by
        rcases age with current | ⟨older, _⟩
        · rw [current]
          exact later
        · exact older.trans later
      exact ⟨within, ⟨tracks.focus, tracks.listed⟩, Or.inr ⟨old, leaving, emptyStore _ _ later⟩⟩
  · intro topics conn _
    show Tracks userOf system.drop.stores _ conn (lastFocus system.requests topics conn)
      (lastFocus system.requests topics conn)
    rw [gone]
    exact emptyStore _ conn later
  · intro store new conn
    exact emptyStore store conn (later.trans new)

variable {next : PresenceSystem}

theorem call_eq_some (called : system.call userOf request = some next) :
    ∃ resume, (system.started userOf request).calls.calls[system.calls.calls.length]? =
        some ⟨request, .await (.openFocus request.topics request.conn) resume⟩ ∧
      next = (system.started userOf request).executed system.calls.calls.length request
        (.openFocus request.topics request.conn) resume := by
  obtain ⟨calls, advanced, rfl⟩ := Option.map_eq_some_iff.mp called
  obtain ⟨asker, statement, resume, found, rfl⟩ :=
    advance_eq_some_iff.mp advanced
  obtain ⟨expected, opens⟩ := serve_opens userOf request
  have own : (system.started userOf request).calls.calls[
      system.calls.calls.length]? = some ⟨request, serve userOf request⟩ :=
    List.getElem?_concat_length
  rw [opens] at own
  refine ⟨expected, own, ?_⟩
  have same : some _ = some _ := found.symm.trans own
  cases same
  rfl

theorem handlersInvariant_call (invariant : HandlersInvariant userOf system)
    (request : PresenceRequest) (idle : system.handled request.topics request.conn = true)
    (called : system.call userOf request = some next) :
    HandlersInvariant userOf next ∧ next.requests = system.requests ++ [request] ∧
      next.connected = system.connected := by
  obtain ⟨resume, found, rfl⟩ := call_eq_some called
  refine ⟨?_, ?_, rfl⟩
  · apply handlersInvariant_executed (handlersInvariant_started invariant request idle) found
    trivial
  · rw [requests_executed found, requests_started]

theorem handled_call (called : system.call userOf request = some next)
    (other : request.isOf topics conn = false) (idle : system.handled topics conn = true) :
    next.handled topics conn = true := by
  obtain ⟨resume, found, rfl⟩ := call_eq_some called
  rw [handled_iff] at idle ⊢
  intro position call stored ofConn
  rcases getElem?_executed stored with ⟨different, started⟩ | ⟨_, rfl⟩
  · rcases getElem?_started started with ⟨_, before⟩ | ⟨same, _⟩
    · exact idle position call before ofConn
    · exact absurd same different
  · rw [other] at ofConn
    cases ofConn

variable (invariant : PresenceInvariant userOf system)

include invariant

theorem presenceInvariant_call (request : PresenceRequest)
    (connected : request.conn ∈ system.connected)
    (idle : system.handled request.topics request.conn = true)
    (called : system.call userOf request = some next) :
    PresenceInvariant userOf next := by
  obtain ⟨handlers, requests, sameConnected⟩ :=
    handlersInvariant_call invariant.handlers request idle called
  refine ⟨handlers, ?_⟩
  intro topics conn focused
  rw [sameConnected]
  rw [requests] at focused
  cases own : request.isOf topics conn with
  | true =>
    rw [← (eq_of_isOf own).2]
    exact connected
  | false =>
    rw [lastFocus_append_other own] at focused
    exact invariant.connected topics conn focused

theorem presenceInvariant_disconnect {middle : PresenceSystem}
    (idleFocus : system.handled .presence conn = true)
    (idlePresence : system.handled .app conn = true)
    (first : PresenceSystem.call userOf
      { system with connected := system.connected.filter (· ≠ conn) }
      (.clearFocus conn) = some middle)
    (second : middle.call userOf (.clearPresence conn) = some next) :
    PresenceInvariant userOf next := by
  have without : HandlersInvariant userOf
      { system with connected := system.connected.filter (· ≠ conn) } :=
    ⟨invariant.handlers.follow, invariant.handlers.serial,
      invariant.handlers.flying, invariant.handlers.settled,
      invariant.handlers.fresh⟩
  obtain ⟨halfway, requestsFirst, connectedFirst⟩ :=
    handlersInvariant_call without (.clearFocus conn) idleFocus first
  have idleApp : middle.handled .app conn = true :=
    handled_call first (by simp [PresenceRequest.isOf, PresenceRequest.topics]) idlePresence
  obtain ⟨handlers, requestsSecond, connectedSecond⟩ :=
    handlersInvariant_call halfway (.clearPresence conn) idleApp second
  refine ⟨handlers, ?_⟩
  intro topics other focused
  rw [connectedSecond, connectedFirst]
  rw [requestsSecond, requestsFirst] at focused
  by_cases same : other = conn
  · subst same
    apply absurd _ focused
    cases topics with
    | presence =>
      rw [lastFocus_append_other (by simp [PresenceRequest.isOf, PresenceRequest.topics])]
      exact lastFocus_append_own _ (.clearFocus other)
    | app => exact lastFocus_append_own _ (.clearPresence other)
  · have notFirst : (PresenceRequest.clearFocus conn).isOf topics other = false :=
      decide_eq_false fun both => same both.2.symm
    have notSecond : (PresenceRequest.clearPresence conn).isOf topics other = false :=
      decide_eq_false fun both => same both.2.symm
    rw [lastFocus_append_other notSecond, lastFocus_append_other notFirst] at focused
    exact List.mem_filter.mpr ⟨invariant.connected topics other focused, decide_eq_true same⟩

theorem presenceInvariant_step {act : PresenceAct} (condition : PresenceCondition system act)
    (taken : presenceStep userOf system act = some next) :
    PresenceInvariant userOf next := by
  cases act with
  | connect conn =>
    simp only [presenceStep] at taken
    split at taken
    · cases taken
    · cases taken
      refine ⟨⟨invariant.handlers.follow, invariant.handlers.serial,
        invariant.handlers.flying, invariant.handlers.settled,
        invariant.handlers.fresh⟩, ?_⟩
      intro topics other focused
      exact List.mem_append_left _ (invariant.connected topics other focused)
  | focus conn path now =>
    simp only [presenceStep] at taken
    split at taken
    · exact presenceInvariant_call invariant (.setFocus conn path now)
        condition.1 condition.2 taken
    · cases taken
  | blur conn =>
    simp only [presenceStep] at taken
    split at taken
    · exact presenceInvariant_call invariant (.clearFocus conn) condition.1 condition.2 taken
    · cases taken
  | presence conn installId now =>
    simp only [presenceStep] at taken
    split at taken
    · exact presenceInvariant_call invariant (.setPresence conn installId now)
        condition.1 condition.2 taken
    · cases taken
  | disconnect conn dropped =>
    simp only [presenceStep] at taken
    split at taken
    · obtain ⟨middle, first, rest⟩ := Option.bind_eq_some_iff.mp taken
      obtain ⟨cleared, second, last⟩ := Option.bind_eq_some_iff.mp rest
      have after := presenceInvariant_disconnect invariant condition.1 condition.2 first second
      split at last
      · split at last
        · rename_i nobody
          cases last
          have gone : ∀ topics other, lastFocus cleared.requests topics other = none := by
            intro topics other
            by_contra focused
            have present := after.connected topics other focused
            rw [nobody] at present
            cases present
          exact ⟨handlersInvariant_drop after.handlers gone, after.connected⟩
        · cases last
      · cases last
        exact after
    · cases taken
  | advance position =>
    obtain ⟨calls, advanced, rfl⟩ := Option.map_eq_some_iff.mp taken
    obtain ⟨request, statement, resume, found, rfl⟩ :=
      advance_eq_some_iff.mp advanced
    have unchanged : Unchanged system.stores
        (lastRead system.calls.history position) statement := by
      apply condition
      rw [Concurrent.awaiting, found]
      rfl
    refine ⟨handlersInvariant_executed invariant.handlers found unchanged, ?_⟩
    intro topics conn focused
    apply invariant.connected topics conn
    rw [← requests_executed found]
    exact focused

end

theorem presenceInvariant_noConnections (userOf : Text → Text) :
    PresenceInvariant userOf noConnections := by
  refine ⟨handlersInvariant_noConnections userOf, ?_⟩
  intro topics conn focused
  exact absurd rfl focused

theorem presenceExact_of_invariant {userOf : Text → Text}
    {system : PresenceSystem} (invariant : PresenceInvariant userOf system) :
    PresenceExact userOf system := by
  intro ended topics conn path userId
  have idle : system.handled topics conn = true := by
    rw [handled_iff]
    intro position call found _
    have member := List.mem_of_getElem? found
    exact Option.isSome_iff_ne_none.mp (List.all_eq_true.mp ended call member)
  have tracks := invariant.handlers.settled topics conn idle
  rw [tracks.listed path userId]
  constructor
  · rintro ⟨user, focused⟩
    have connected : conn ∈ system.connected := by
      apply invariant.connected topics conn
      rw [focused]
      exact Option.some_ne_none path
    exact ⟨connected, user, focused⟩
  · exact fun both => both.2

/-- In every run whose steps meet the condition presence is exact whenever no
handler is in flight. -/
theorem presence_is_exact (userOf : Text → Text) (acts : List PresenceAct)
    (system : PresenceSystem)
    (meets : StepsMeet (presenceStep userOf) PresenceCondition noConnections acts)
    (executed : runFrom (presenceStep userOf) noConnections acts = some system) :
    PresenceExact userOf system := by
  apply presenceExact_of_invariant
  apply invariant_of_stepsMeet (PresenceInvariant userOf) ?preserved
    (presenceInvariant_noConnections userOf) meets executed
  case preserved =>
    intro state act next invariant condition taken
    exact presenceInvariant_step invariant condition taken

/-- Two connections of one user meet on a path; one of them moves on and the
other one closes. -/
def twoTabs : List PresenceAct :=
  [.connect "first".toList, .connect "second".toList, .focus "first".toList "a.md".toList 1] ++
    List.replicate 3 (.advance 0) ++
    [.focus "second".toList "a.md".toList 2] ++
    List.replicate 3 (.advance 1) ++
    [.focus "first".toList "b.md".toList 3] ++
    List.replicate 7 (.advance 2) ++
    [.disconnect "second".toList false] ++ List.replicate 3 (.advance 3)

theorem presence_is_exact_twoTabs :
    ∃ system, runFrom (presenceStep fun _ => "user".toList) noConnections twoTabs = some system ∧
      system.allHandled = true ∧
      system.stores.members.rows.map (fun row => (row.path, row.membership.connIds)) =
        [("b.md".toList, ["first".toList])] ∧
      PresenceExact (fun _ => "user".toList) system := by
  have ran :
      (runFrom (presenceStep fun _ => "user".toList) noConnections
        twoTabs).map (fun system =>
          (system.allHandled, system.stores.members.rows.map fun row =>
            (row.path, row.membership.connIds))) =
        some (true, [("b.md".toList, ["first".toList])]) := by
    decide +kernel
  obtain ⟨system, executed, shown⟩ := Option.map_eq_some_iff.mp ran
  obtain ⟨ended, listed⟩ := Prod.mk.inj shown
  have meets : StepsMeet (presenceStep fun _ => "user".toList)
      PresenceCondition noConnections twoTabs := by
    decide +kernel
  exact ⟨system, executed, ended, listed,
    presence_is_exact (fun _ => "user".toList) twoTabs system meets executed⟩

/-- One connection focuses two files; the handler of the second message
begins before that of the first has ended. -/
def focusTwice : List PresenceAct :=
  [.connect "conn".toList, .focus "conn".toList "a.md".toList 1,
    .focus "conn".toList "b.md".toList 2, .advance 0, .advance 1, .advance 0,
    .advance 1, .advance 0, .advance 1]

/-- The connection ends up in two entries. -/
theorem presence_not_exact :
    ¬ ∀ (userOf : Text → Text) (acts : List PresenceAct) (system : PresenceSystem),
      runFrom (presenceStep userOf) noConnections acts = some system →
        PresenceExact userOf system := by
  intro law
  have ran :
      (runFrom (presenceStep fun _ => "user".toList) noConnections
        focusTwice).map (fun system => decide (system.allHandled = true ∧
            "conn".toList ∈ system.stores.connIdsAt
              (system.stores.storeFor .presence) "a.md".toList
              "user".toList ∧
            "conn".toList ∈ system.stores.connIdsAt
              (system.stores.storeFor .presence) "b.md".toList
              "user".toList)) = some true := by
    decide +kernel
  obtain ⟨system, executed, seen⟩ := Option.map_eq_some_iff.mp ran
  obtain ⟨ended, first, second⟩ := of_decide_eq_true seen
  have listed := law (fun _ => "user".toList) focusTwice system executed ended
    .presence "conn".toList
  obtain ⟨_, _, focusedFirst⟩ := (listed _ _).mp first
  obtain ⟨_, _, focusedSecond⟩ := (listed _ _).mp second
  have same := focusedFirst.symm.trans focusedSecond
  cases same

end Aprovan.Realtime.Presence
