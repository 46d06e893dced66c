import Aprovan.Realtime.AppTopics

/-!
# Revoked members of a channel

The sets of channels are computed over many awaits and stored by whoever
finishes last.  If a user is removed only while none of his sets is being
computed, and no set is stored for a connection that is gone, a removed user
receives nothing.
-/

namespace Aprovan.Realtime

open Aprovan.Library

theorem seenOf_append (user installId channelId : Text)
    (trace : List TopicEvent) (event : TopicEvent) :
    seenOf user installId channelId (trace ++ [event]) =
      (seenOf user installId channelId trace).after user installId channelId event := by
  simp [seenOf]

theorem seenOf_append_delivered (user installId channelId : Text) (trace : List TopicEvent)
    (conns : List Text) (install channel : Text) :
    seenOf user installId channelId
        (trace ++ conns.map fun conn => .delivered conn install channel) =
      seenOf user installId channelId trace := by
  induction conns generalizing trace with
  | nil => simp
  | cons first rest ih =>
    rw [List.map_cons, List.append_cons, ih, seenOf_append]
    rfl

variable {channelId : Text}

theorem seenOf_append_of_ne {user installId : Text} {trace : List TopicEvent}
    {group : Option Nat} {other install channel : Text} {allowed : Bool}
    (different : ¬ (other = user ∧ install = installId ∧ channel = channelId)) :
    seenOf user installId channelId (trace ++ [.saw group other install channel allowed]) =
      seenOf user installId channelId trace := by
  rw [seenOf_append]
  exact if_neg different

section

variable (user installId channelId : Text) (trace : List TopicEvent)

theorem seenOf_append_allowed (group : Option Nat) :
    seenOf user installId channelId (trace ++ [.saw group user installId channelId true]) =
      ⟨[], false⟩ := by
  rw [seenOf_append]
  simp [Seen.after]

theorem seenOf_append_refused (group : Option Nat) :
    seenOf user installId channelId (trace ++ [.saw group user installId channelId false]) =
      ⟨group.toList ++ (seenOf user installId channelId trace).byRefreshes,
        (seenOf user installId channelId trace).revoked⟩ := by
  rw [seenOf_append]
  cases group <;> simp [Seen.after]

theorem seenOf_append_finished (group : Nat) :
    seenOf user installId channelId (trace ++ [.finished group]) =
      ⟨(seenOf user installId channelId trace).byRefreshes,
        (seenOf user installId channelId trace).revoked ||
          group ∈ (seenOf user installId channelId trace).byRefreshes⟩ :=
  seenOf_append user installId channelId trace (.finished group)

end

section

variable (userOf : Text → Text)

/-- The refresh has still to store the set of the connection. -/
def Awaits (topics : AppTopics) (group : Nat) (conn : Text) : Prop :=
  ∃ task ∈ topics.tasks, task.group = some group ∧ task.conn = conn

structure AppInvariant (topics : AppTopics) : Prop where
  ids : ∀ refresh ∈ topics.refreshes, refresh.id < topics.nextGroup
  seenIds : ∀ user installId channelId,
    ∀ group ∈ (seenOf user installId channelId topics.trace).byRefreshes, group < topics.nextGroup
  owned : ∀ task ∈ topics.tasks, ∀ group, task.group = some group →
    (∃ refresh ∈ topics.refreshes, refresh.id = group) ∧
      ∀ refresh ∈ topics.refreshes, refresh.id = group →
        task.conn ∈ refresh.covered ∧ task.installId = refresh.installId
  current : ∀ task ∈ topics.tasks, ∀ channelId ∈ task.readable,
    (userOf task.conn, task.installId, channelId) ∈ topics.canRead
  fresh : ∀ task ∈ topics.tasks, ∀ channelId ∈ task.readable,
    seenOf (userOf task.conn) task.installId channelId topics.trace = ⟨[], false⟩
  covered : ∀ refresh ∈ topics.refreshes, refresh.failed = false →
    ∀ entry ∈ topics.authByConn, entry.2.installId = refresh.installId →
      (∃ conn ∈ refresh.covered, userOf conn = userOf entry.1) →
      ∀ channelId ∈ entry.2.channelIds,
        (userOf entry.1, entry.2.installId, channelId) ∈ topics.canRead ∨
          Awaits topics refresh.id entry.1
  awaited : ∀ refresh ∈ topics.refreshes, refresh.failed = false →
    ∀ entry ∈ topics.authByConn, ∀ channelId ∈ entry.2.channelIds,
      refresh.id ∈ (seenOf (userOf entry.1) entry.2.installId channelId topics.trace).byRefreshes →
        Awaits topics refresh.id entry.1
  allowed : ∀ entry ∈ topics.authByConn, ∀ channelId ∈ entry.2.channelIds,
      (seenOf (userOf entry.1) entry.2.installId channelId topics.trace).revoked = false
  present : ∀ entry ∈ topics.authByConn, entry.1 ∈ topics.connsById ∧ entry.1 ∉ topics.gone
  reachable : ∀ task ∈ topics.tasks, task.conn ∈ topics.connsById ∨ task.conn ∈ topics.gone

theorem appInvariant_empty : AppInvariant userOf .empty where
  ids := fun _ member => by cases member
  seenIds := fun _ _ _ _ member => by cases member
  owned := fun _ member => by cases member
  current := fun _ member => by cases member
  fresh := fun _ member => by cases member
  covered := fun _ member => by cases member
  awaited := fun _ member => by cases member
  allowed := fun _ member => by cases member
  present := fun _ member => by cases member
  reachable := fun _ member => by cases member

variable {userOf} {topics : AppTopics}

theorem awaits_advance {position : Nat} {task next : AuthTask}
    (found : topics.tasks[position]? = some task) (sameGroup : next.group = task.group)
    (sameConn : next.conn = task.conn) {group : Nat} {conn : Text}
    (waits : Awaits topics group conn) {trace : List TopicEvent} :
    Awaits { topics with
      tasks := advanceCall topics.tasks position next
      trace := trace } group conn := by
  obtain ⟨other, member, ofGroup, ofConn⟩ := waits
  by_cases own : other = task
  · rw [own] at ofGroup ofConn
    exact ⟨next, mem_advanceCall_self next found, sameGroup.trans ofGroup, sameConn.trans ofConn⟩
  · exact ⟨other, mem_advanceCall_of_ne next found member own, ofGroup, ofConn⟩

variable {position : Nat} {task : AuthTask}

/-- A question of a task, or a move of its own: its set grows at most by the
channel it has just been allowed. -/
theorem appInvariant_advance (next : AuthTask) (invariant : AppInvariant userOf topics)
    (found : topics.tasks[position]? = some task) (sameGroup : next.group = task.group)
    (sameConn : next.conn = task.conn) (sameInstall : next.installId = task.installId)
    (kept : ∀ channelId ∈ next.readable, channelId ∈ task.readable) :
    AppInvariant userOf { topics with
      tasks := advanceCall topics.tasks position next } := by
  have own := mem_of_getElem?_eq_some found
  have waits : ∀ {group conn}, Awaits topics group conn →
      Awaits { topics with
        tasks := advanceCall topics.tasks position next } group conn :=
    fun waiting => awaits_advance found sameGroup sameConn waiting
  constructor
  case ids => exact invariant.ids
  case seenIds => exact invariant.seenIds
  case owned =>
    intro other member group ofGroup
    rcases mem_advanceCall member with rfl | older
    · rw [sameGroup] at ofGroup
      rw [sameConn, sameInstall]
      exact invariant.owned task own group ofGroup
    · exact invariant.owned other older group ofGroup
  case current =>
    intro other member channelId listed
    rcases mem_advanceCall member with rfl | older
    · rw [sameConn, sameInstall]
      exact invariant.current task own channelId (kept channelId listed)
    · exact invariant.current other older channelId listed
  case fresh =>
    intro other member channelId listed
    rcases mem_advanceCall member with rfl | older
    · rw [sameConn, sameInstall]
      exact invariant.fresh task own channelId (kept channelId listed)
    · exact invariant.fresh other older channelId listed
  case covered =>
    intro refresh member unfailed entry stored sameRefresh covers channelId listed
    exact (invariant.covered refresh member unfailed entry stored
      sameRefresh covers channelId listed).imp_right waits
  case awaited =>
    intro refresh member unfailed entry stored channelId listed seen
    exact waits (invariant.awaited refresh member unfailed entry stored channelId listed seen)
  case allowed => exact invariant.allowed
  case present => exact invariant.present
  case reachable =>
    intro other member
    rcases mem_advanceCall member with rfl | older
    · rw [sameConn]
      exact invariant.reachable task own
    · exact invariant.reachable other older

theorem appInvariant_ask {next : Bool → AuthPhase} (invariant : AppInvariant userOf topics)
    (found : topics.tasks[position]? = some task)
    (kept : ∀ allowed, ∀ channel ∈ ({ task with phase := next allowed } : AuthTask).readable,
        channel ∈ task.readable ∨ allowed = true ∧ channel = channelId) :
    AppInvariant userOf (topics.askAbout userOf position task channelId next) := by
  have own := mem_of_getElem?_eq_some found
  unfold AppTopics.askAbout
  generalize answered :
    decide ((userOf task.conn, task.installId, channelId) ∈ topics.canRead) = allowed
  simp only
  -- who asks about another channel sees what was seen before
  have elsewhere : ∀ {user installId channel},
      ¬ (userOf task.conn = user ∧ task.installId = installId ∧ channelId = channel) →
      seenOf user installId channel (topics.trace ++ [.saw task.group (userOf task.conn)
            task.installId channelId allowed]) =
        seenOf user installId channel topics.trace :=
    fun different => seenOf_append_of_ne different
  have waits : ∀ {group conn}, Awaits topics group conn →
      Awaits { topics with
        tasks := advanceCall topics.tasks position { task with phase := next allowed }
        trace := topics.trace ++ [.saw task.group (userOf task.conn)
          task.installId channelId allowed] } group conn := by
    intro group conn waiting
    have sameGroup : ({ task with phase := next allowed } : AuthTask).group = task.group := rfl
    exact awaits_advance found sameGroup rfl waiting
  -- a channel in a set is readable now, whoever has it
  have current : ∀ other ∈ advanceCall topics.tasks position { task with phase := next allowed },
      ∀ channel ∈ other.readable,
        (userOf other.conn, other.installId, channel) ∈ topics.canRead := by
    intro other member channel listed
    rcases mem_advanceCall member with rfl | older
    · rcases kept allowed channel listed with before | ⟨isAllowed, rfl⟩
      · exact invariant.current task own channel before
      · rw [isAllowed] at answered
        exact of_decide_eq_true answered
    · exact invariant.current other older channel listed
  constructor
  case ids => exact invariant.ids
  case seenIds =>
    intro user installId channel group listed
    by_cases same : userOf task.conn = user ∧ task.installId = installId ∧ channelId = channel
    · obtain ⟨rfl, rfl, rfl⟩ := same
      cases allowed with
      | true =>
        simp only at listed
        rw [seenOf_append_allowed] at listed
        cases listed
      | false =>
        simp only at listed
        rw [seenOf_append_refused] at listed
        rcases List.mem_append.mp listed with asker | older
        · have ofGroup : task.group = some group := Option.mem_toList.mp asker
          obtain ⟨refresh, member, isGroup⟩ :=
            (invariant.owned task own group ofGroup).1
          rw [← isGroup]
          exact invariant.ids refresh member
        · exact invariant.seenIds _ _ _ group older
    · simp only at listed
      rw [elsewhere same] at listed
      exact invariant.seenIds user installId channel group listed
  case owned =>
    intro other member group ofGroup
    rcases mem_advanceCall member with rfl | older
    · exact invariant.owned task own group ofGroup
    · exact invariant.owned other older group ofGroup
  case current => exact current
  case fresh =>
    intro other member channel listed
    have readable := current other member channel listed
    by_cases same :
      userOf task.conn = userOf other.conn ∧ task.installId = other.installId ∧ channelId = channel
    · have isAllowed : allowed = true := by
        rw [← answered, same.1, same.2.1, same.2.2]
        exact decide_eq_true readable
      rw [isAllowed, ← same.1, ← same.2.1, ← same.2.2]
      exact seenOf_append_allowed _ _ _ _ _
    · simp only
      rw [elsewhere same]
      rcases mem_advanceCall member with rfl | older
      · rcases kept allowed channel listed with before | ⟨_, rfl⟩
        · exact invariant.fresh task own channel before
        · exact absurd ⟨rfl, rfl, rfl⟩ same
      · exact invariant.fresh other older channel listed
  case covered =>
    intro refresh member unfailed entry stored sameRefresh covers channel listed
    exact (invariant.covered refresh member unfailed entry stored
      sameRefresh covers channel listed).imp_right waits
  case awaited =>
    intro refresh member unfailed entry stored channel listed seen
    by_cases same :
      userOf task.conn = userOf entry.1 ∧ task.installId = entry.2.installId ∧ channelId = channel
    · cases isAllowed : allowed with
      | true =>
        simp only [isAllowed, ← same.1, ← same.2.1, ← same.2.2] at seen
        rw [seenOf_append_allowed] at seen
        cases seen
      | false =>
        simp only [isAllowed, ← same.1, ← same.2.1, ← same.2.2] at seen
        rw [seenOf_append_refused] at seen
        rcases List.mem_append.mp seen with asker | older
        · have ofGroup : task.group = some refresh.id := Option.mem_toList.mp asker
          obtain ⟨coversTask, ofInstall⟩ :=
            (invariant.owned task own refresh.id ofGroup).2 refresh member
              rfl
          rcases invariant.covered refresh member unfailed entry stored
              (same.2.1.symm.trans ofInstall)
              ⟨task.conn, coversTask, same.1⟩ channel listed with
            readable | waiting
          · rw [← same.1, ← same.2.1, ← same.2.2] at readable
            rw [isAllowed] at answered
            exact absurd readable (of_decide_eq_false answered)
          · rw [isAllowed] at waits
            exact waits waiting
        · rw [isAllowed] at waits
          apply waits
          apply invariant.awaited refresh member unfailed entry stored channel listed
          rw [← same.1, ← same.2.1, ← same.2.2]
          exact older
    · simp only at seen
      rw [elsewhere same] at seen
      exact waits (invariant.awaited refresh member unfailed entry stored channel listed seen)
  case allowed =>
    intro entry stored channel listed
    by_cases same :
      userOf task.conn = userOf entry.1 ∧ task.installId = entry.2.installId ∧ channelId = channel
    · rw [← same.1, ← same.2.1, ← same.2.2]
      cases allowed with
      | true => rw [seenOf_append_allowed]
      | false =>
        rw [seenOf_append_refused, same.1, same.2.1, same.2.2]
        exact invariant.allowed entry stored channel listed
    · simp only
      rw [elsewhere same]
      exact invariant.allowed entry stored channel listed
  case present => exact invariant.present
  case reachable =>
    intro other member
    rcases mem_advanceCall member with rfl | older
    · exact invariant.reachable task own
    · exact invariant.reachable other older

theorem awaits_finish (found : topics.tasks[position]? = some task) {group : Nat} {conn : Text}
    (waits : Awaits topics group conn) (other : conn ≠ task.conn ∨ task.group ≠ some group) :
    ∃ rest ∈ finishCall topics.tasks position, rest.group = some group ∧ rest.conn = conn := by
  obtain ⟨waiting, member, ofGroup, ofConn⟩ := waits
  refine ⟨waiting, ?_, ofGroup, ofConn⟩
  apply mem_finishCall_of_ne found member
  intro same
  subst same
  rcases other with elsewhere | another
  · exact elsewhere ofConn.symm
  · exact another ofGroup

section

variable (invariant : AppInvariant userOf topics)

include invariant

theorem appInvariant_store {readable : List Text} (found : topics.tasks[position]? = some task)
    (phase : task.phase = .reading [] readable) (here : task.conn ∉ topics.gone) :
    AppInvariant userOf { topics.setAuth task.conn ⟨task.installId, task.instanceId, readable⟩ with
          tasks := finishCall topics.tasks position } := by
  have own := mem_of_getElem?_eq_some found
  have listedOfTask : task.readable = readable := by rw [AuthTask.readable, phase]
  have entries : ∀ {entry},
      entry ∈ topics.authByConn.filter (fun other => decide (other.1 ≠ task.conn)) ++
        [(task.conn, (⟨task.installId, task.instanceId, readable⟩ : ConnAuth))] →
      (entry ∈ topics.authByConn ∧ entry.1 ≠ task.conn) ∨ entry = (task.conn,
          ⟨task.installId, task.instanceId, readable⟩) := by
    intro entry member
    rcases List.mem_append.mp member with older | new
    · left
      simpa [List.mem_filter] using older
    · exact Or.inr (List.mem_singleton.mp new)
  constructor
  case ids => exact invariant.ids
  case seenIds => exact invariant.seenIds
  case owned =>
    intro other member
    exact invariant.owned other (mem_finishCall member)
  case current =>
    intro other member
    exact invariant.current other (mem_finishCall member)
  case fresh =>
    intro other member
    exact invariant.fresh other (mem_finishCall member)
  case covered =>
    intro refresh member unfailed entry stored sameRefresh covers channelId listed
    rcases entries stored with ⟨older, elsewhere⟩ | rfl
    · exact (invariant.covered refresh member unfailed entry older
        sameRefresh covers channelId listed).imp_right
          fun waits => awaits_finish found waits (Or.inl elsewhere)
    · left
      apply invariant.current task own channelId
      rw [listedOfTask]
      exact listed
  case awaited =>
    intro refresh member unfailed entry stored channelId listed seen
    rcases entries stored with ⟨older, elsewhere⟩ | rfl
    · exact awaits_finish found (invariant.awaited refresh member unfailed entry older channelId
          listed seen)
        (Or.inl elsewhere)
    · have clean := invariant.fresh task own channelId (by
        rw [listedOfTask]
        exact listed)
      simp only [AppTopics.setAuth] at seen
      rw [clean] at seen
      cases seen
  case allowed =>
    intro entry stored channelId listed
    rcases entries stored with ⟨older, _⟩ | rfl
    · exact invariant.allowed entry older channelId listed
    · have clean := invariant.fresh task own channelId (by
        rw [listedOfTask]
        exact listed)
      simp only [AppTopics.setAuth]
      rw [clean]
  case present =>
    intro entry stored
    rcases entries stored with ⟨older, _⟩ | rfl
    · exact invariant.present entry older
    · exact ⟨(invariant.reachable task own).resolve_right here, here⟩
  case reachable =>
    intro other member
    exact invariant.reachable other (mem_finishCall member)

theorem appInvariant_fail (found : topics.tasks[position]? = some task) :
    AppInvariant userOf (topics.failTask position task) := by
  have origin : ∀ {refresh}, refresh ∈ (topics.failTask position task).refreshes →
      ∃ older ∈ topics.refreshes, older.id = refresh.id ∧ older.covered = refresh.covered ∧
        older.installId = refresh.installId ∧
        (refresh.failed = false → older.failed = false ∧ task.group ≠ some refresh.id) := by
    intro refresh member
    simp only [AppTopics.failTask, List.mem_map] at member
    obtain ⟨older, inside, rfl⟩ := member
    refine ⟨older, inside, ?_⟩
    split
    · exact ⟨rfl, rfl, rfl, fun impossible => by cases impossible⟩
    · rename_i other
      exact ⟨rfl, rfl, rfl, fun unfailed => ⟨unfailed, other⟩⟩
  constructor
  case ids =>
    intro refresh member
    obtain ⟨older, inside, sameId, _⟩ := origin member
    rw [← sameId]
    exact invariant.ids older inside
  case seenIds => exact invariant.seenIds
  case owned =>
    intro other member group ofGroup
    obtain ⟨⟨older, inside, isGroup⟩, all⟩ :=
      invariant.owned other (mem_finishCall member) group ofGroup
    constructor
    · refine ⟨_, List.mem_map_of_mem inside, ?_⟩
      split <;> exact isGroup
    · intro refresh newer isNew
      obtain ⟨before, insideBefore, sameId, sameCovered, sameInstall, _⟩ :=
        origin newer
      rw [← sameCovered, ← sameInstall]
      exact all before insideBefore (sameId.trans isNew)
  case current =>
    intro other member
    exact invariant.current other (mem_finishCall member)
  case fresh =>
    intro other member
    exact invariant.fresh other (mem_finishCall member)
  case covered =>
    intro refresh member unfailed entry stored sameRefresh covers channelId listed
    obtain ⟨older, inside, sameId, sameCovered, sameInstall, healthy⟩ :=
      origin member
    rw [← sameCovered] at covers
    rw [← sameInstall] at sameRefresh
    have held := invariant.covered older inside (healthy unfailed).1 entry
      stored sameRefresh covers channelId listed
    rw [sameId] at held
    exact held.imp_right fun waits => awaits_finish found waits (Or.inr (healthy unfailed).2)
  case awaited =>
    intro refresh member unfailed entry stored channelId listed seen
    obtain ⟨older, inside, sameId, _, _, healthy⟩ := origin member
    rw [← sameId] at seen
    have waits := invariant.awaited older inside (healthy unfailed).1 entry
      stored channelId listed seen
    rw [sameId] at waits
    exact awaits_finish found waits (Or.inr (healthy unfailed).2)
  case allowed => exact invariant.allowed
  case present => exact invariant.present
  case reachable =>
    intro other member
    exact invariant.reachable other (mem_finishCall member)

theorem appInvariant_finish {refresh : Refresh} (member : refresh ∈ topics.refreshes)
    (ended : ∀ task ∈ topics.tasks, task.group ≠ some refresh.id) :
    AppInvariant userOf (topics.finishRefresh refresh) := by
  -- nobody whose channel the refresh saw refused has it in his set
  have settled : ∀ entry ∈ topics.authByConn,
      ∀ channelId ∈ entry.2.channelIds, refresh.failed = false →
        refresh.id ∉ (seenOf (userOf entry.1) entry.2.installId channelId
          topics.trace).byRefreshes := by
    intro entry stored channelId listed unfailed seen
    obtain ⟨task, inside, ofGroup, _⟩ := invariant.awaited refresh member
      unfailed entry stored channelId listed seen
    exact ended task inside ofGroup
  have sameSeen : ∀ user installId channelId, (seenOf user installId channelId
          (topics.finishRefresh refresh).trace).byRefreshes =
        (seenOf user installId channelId topics.trace).byRefreshes := by
    intro user installId channelId
    simp only [AppTopics.finishRefresh]
    split
    · rw [List.append_nil]
    · rw [seenOf_append_finished]
  constructor
  case ids =>
    intro other inside
    exact invariant.ids other (List.mem_filter.mp inside).1
  case seenIds =>
    intro user installId channelId group listed
    rw [sameSeen] at listed
    exact invariant.seenIds user installId channelId group listed
  case owned =>
    intro task inside group ofGroup
    obtain ⟨⟨older, kept, isGroup⟩, all⟩ :=
      invariant.owned task inside group ofGroup
    constructor
    · refine ⟨older, ?_, isGroup⟩
      simp only [AppTopics.finishRefresh, List.mem_filter, decide_eq_true_eq]
      refine ⟨kept, ?_⟩
      intro same
      apply ended task inside
      rw [ofGroup, ← isGroup, same]
    · intro other kept
      exact all other (List.mem_filter.mp kept).1
  case current => exact invariant.current
  case fresh =>
    intro task inside channelId listed
    have before := invariant.fresh task inside channelId listed
    simp only [AppTopics.finishRefresh]
    split
    · rw [List.append_nil]
      exact before
    · rw [seenOf_append_finished, before]
      simp
  case covered =>
    intro other inside
    exact invariant.covered other (List.mem_filter.mp inside).1
  case awaited =>
    intro other inside unfailed entry stored channelId listed seen
    rw [sameSeen] at seen
    exact invariant.awaited other (List.mem_filter.mp inside).1 unfailed
      entry stored channelId listed seen
  case allowed =>
    intro entry stored channelId listed
    have before := invariant.allowed entry stored channelId listed
    simp only [AppTopics.finishRefresh]
    split
    · rw [List.append_nil]
      exact before
    · rename_i healthy
      rw [seenOf_append_finished]
      have unfailed := Bool.eq_false_iff.mpr healthy
      simp [before, settled entry stored channelId listed unfailed]
  case present => exact invariant.present
  case reachable => exact invariant.reachable

end

theorem appInvariant_refresh (installId : Text) (invariant : AppInvariant userOf topics) :
    AppInvariant userOf (topics.startRefresh installId) := by
  have taskOf : ∀ {task}, task ∈ (topics.startRefresh installId).tasks → task ∈ topics.tasks ∨
        (task.readable = [] ∧ task.group = some topics.nextGroup ∧ task.installId = installId ∧
          ∃ entry ∈ topics.coveredBy installId, task.conn = entry.1) := by
    intro task member
    rcases List.mem_append.mp member with older | new
    · exact Or.inl older
    · obtain ⟨entry, covered, rfl⟩ := List.mem_map.mp new
      exact Or.inr ⟨rfl, rfl, rfl, entry, covered, rfl⟩
  have olderGroup : ∀ task ∈ topics.tasks, task.group ≠ some topics.nextGroup := by
    intro task member ofGroup
    obtain ⟨refresh, inside, isGroup⟩ :=
      (invariant.owned task member topics.nextGroup ofGroup).1
    have below := invariant.ids refresh inside
    omega
  have waits : ∀ {group conn}, Awaits topics group conn →
      Awaits (topics.startRefresh installId) group conn := by
    intro group conn ⟨task, member, waiting⟩
    exact ⟨task, List.mem_append_left _ member, waiting⟩
  constructor
  case ids =>
    intro refresh member
    rcases List.mem_append.mp member with older | new
    · exact Nat.lt_succ_of_lt (invariant.ids refresh older)
    · rw [List.mem_singleton.mp new]
      exact Nat.lt_succ_self _
  case seenIds =>
    intro user install channelId group listed
    exact Nat.lt_succ_of_lt (invariant.seenIds user install channelId group listed)
  case owned =>
    intro task member group ofGroup
    rcases taskOf member with older | ⟨_, isNew, ofInstall, entry, covered, ofConn⟩
    · obtain ⟨⟨refresh, inside, isGroup⟩, all⟩ :=
        invariant.owned task older group ofGroup
      refine ⟨⟨refresh, List.mem_append_left _ inside, isGroup⟩, ?_⟩
      intro other kept isOther
      rcases List.mem_append.mp kept with before | new
      · exact all other before isOther
      · rw [List.mem_singleton.mp new] at isOther
        exact absurd (ofGroup.trans (congrArg some isOther.symm)) (olderGroup task older)
    · have same : group = topics.nextGroup := Option.some.inj (ofGroup.symm.trans isNew)
      subst same
      refine ⟨⟨_, List.mem_append_right _ (List.mem_singleton_self _), rfl⟩, ?_⟩
      intro other kept isOther
      rcases List.mem_append.mp kept with before | new
      · have below := invariant.ids other before
        omega
      · rw [List.mem_singleton.mp new]
        refine ⟨?_, ofInstall⟩
        rw [ofConn]
        exact List.mem_map_of_mem covered
  case current =>
    intro task member channelId listed
    rcases taskOf member with older | ⟨nothing, _⟩
    · exact invariant.current task older channelId listed
    · rw [nothing] at listed
      cases listed
  case fresh =>
    intro task member channelId listed
    rcases taskOf member with older | ⟨nothing, _⟩
    · exact invariant.fresh task older channelId listed
    · rw [nothing] at listed
      cases listed
  case covered =>
    intro refresh member unfailed entry stored sameRefresh covers channelId listed
    rcases List.mem_append.mp member with older | new
    · exact (invariant.covered refresh older unfailed entry stored
        sameRefresh covers channelId listed).imp_right waits
    · right
      rw [List.mem_singleton.mp new] at sameRefresh ⊢
      have inCover : entry ∈ topics.coveredBy installId := by
        simp only [AppTopics.coveredBy, List.mem_filter, Bool.and_eq_true, decide_eq_true_eq]
        exact ⟨stored, sameRefresh, (invariant.present entry stored).1⟩
      exact ⟨_, List.mem_append_right _ (List.mem_map_of_mem inCover), rfl, rfl⟩
  case awaited =>
    intro refresh member unfailed entry stored channelId listed seen
    rcases List.mem_append.mp member with older | new
    · exact waits (invariant.awaited refresh older unfailed entry stored channelId listed seen)
    · rw [List.mem_singleton.mp new] at seen
      have below := invariant.seenIds _ _ _ _ seen
      exact absurd below (Nat.lt_irrefl _)
  case allowed => exact invariant.allowed
  case present => exact invariant.present
  case reachable =>
    intro task member
    rcases taskOf member with older | ⟨_, _, _, entry, covered, ofConn⟩
    · exact invariant.reachable task older
    · left
      rw [ofConn]
      simp only [AppTopics.coveredBy, List.mem_filter, Bool.and_eq_true,
        decide_eq_true_eq] at covered
      exact covered.2.2

theorem appInvariant_subscribe (conn installId instanceId : Text)
    (invariant : AppInvariant userOf topics) :
    AppInvariant userOf { topics with
      connsById := topics.connsById ++ [conn]
      tasks := topics.tasks ++ [⟨none, conn, installId, instanceId, .keys⟩] } := by
  have waits : ∀ {group conn'}, Awaits topics group conn' →
      Awaits { topics with
        connsById := topics.connsById ++ [conn]
        tasks := topics.tasks ++ [⟨none, conn, installId, instanceId, .keys⟩] } group conn' := by
    intro group conn' ⟨task, member, waiting⟩
    exact ⟨task, List.mem_append_left _ member, waiting⟩
  constructor
  case ids => exact invariant.ids
  case seenIds => exact invariant.seenIds
  case owned =>
    intro task member group ofGroup
    rcases List.mem_append.mp member with older | new
    · exact invariant.owned task older group ofGroup
    · rw [List.mem_singleton.mp new] at ofGroup
      cases ofGroup
  case current =>
    intro task member channelId listed
    rcases List.mem_append.mp member with older | new
    · exact invariant.current task older channelId listed
    · rw [List.mem_singleton.mp new] at listed
      cases listed
  case fresh =>
    intro task member channelId listed
    rcases List.mem_append.mp member with older | new
    · exact invariant.fresh task older channelId listed
    · rw [List.mem_singleton.mp new] at listed
      cases listed
  case covered =>
    intro refresh member unfailed entry stored sameRefresh covers channelId listed
    exact (invariant.covered refresh member unfailed entry stored
      sameRefresh covers channelId listed).imp_right waits
  case awaited =>
    intro refresh member unfailed entry stored channelId listed seen
    exact waits (invariant.awaited refresh member unfailed entry stored channelId listed seen)
  case allowed => exact invariant.allowed
  case present =>
    intro entry stored
    have before := invariant.present entry stored
    exact ⟨List.mem_append_left _ before.1, before.2⟩
  case reachable =>
    intro task member
    rcases List.mem_append.mp member with older | new
    · exact (invariant.reachable task older).imp_left (List.mem_append_left _)
    · rw [List.mem_singleton.mp new]
      exact Or.inl (List.mem_append_right _ (List.mem_singleton_self _))

theorem appInvariant_grant (user installId channelId : Text)
    (invariant : AppInvariant userOf topics) :
    AppInvariant userOf { topics with
      canRead := topics.canRead ++ [(user, installId, channelId)] } where
  ids := invariant.ids
  seenIds := invariant.seenIds
  owned := invariant.owned
  current := fun task member channel listed =>
    List.mem_append_left _ (invariant.current task member channel listed)
  fresh := invariant.fresh
  covered := fun refresh member unfailed entry stored sameRefresh covers channel listed =>
    (invariant.covered refresh member unfailed entry stored sameRefresh
      covers channel listed).imp_left (List.mem_append_left _)
  awaited := invariant.awaited
  allowed := invariant.allowed
  present := invariant.present
  reachable := invariant.reachable

theorem appInvariant_revoke {user installId channelId : Text}
    (invariant : AppInvariant userOf topics)
    (quiet : undisturbed userOf topics user installId channelId = true) :
    AppInvariant userOf { topics with
      canRead :=
        topics.canRead.filter (· ≠ (user, installId, channelId)) } := by
  simp only [undisturbed, Bool.and_eq_true, List.all_eq_true,
    Bool.not_eq_true', decide_eq_true_eq] at quiet
  obtain ⟨uncovered, unasked⟩ := quiet
  constructor
  case ids => exact invariant.ids
  case seenIds => exact invariant.seenIds
  case owned => exact invariant.owned
  case current =>
    intro task member channel listed
    rw [List.mem_filter, decide_eq_true_eq]
    refine ⟨invariant.current task member channel listed, ?_⟩
    intro same
    simp only [Prod.mk.injEq] at same
    obtain ⟨sameUser, sameInstall, sameChannel⟩ := same
    cases ofGroup : task.group with
    | none =>
      have asked := unasked task member
      simp [ofGroup, sameUser, sameInstall, ← sameChannel, listed] at asked
    | some group =>
      obtain ⟨⟨refresh, inside, isGroup⟩, all⟩ :=
        invariant.owned task member group ofGroup
      exact uncovered refresh inside task.conn (all refresh inside isGroup).1 sameUser
  case fresh => exact invariant.fresh
  case covered =>
    intro refresh member unfailed entry stored sameRefresh covers channel listed
    rcases invariant.covered refresh member unfailed entry stored
        sameRefresh covers channel listed with readable | waits
    · left
      rw [List.mem_filter, decide_eq_true_eq]
      refine ⟨readable, ?_⟩
      intro same
      obtain ⟨conn, covered, sameUser⟩ := covers
      exact uncovered refresh member conn covered (sameUser.trans (Prod.mk.inj same).1)
    · exact Or.inr waits
  case awaited => exact invariant.awaited
  case allowed => exact invariant.allowed
  case present => exact invariant.present
  case reachable => exact invariant.reachable

theorem appInvariant_disconnected (conn : Text) (invariant : AppInvariant userOf topics) :
    AppInvariant userOf { topics with
      authByConn := topics.authByConn.filter fun entry => entry.1 ≠ conn
      connsById := topics.connsById.filter (· ≠ conn)
      gone := topics.gone ++ [conn] } := by
  have kept : ∀ {entry},
      entry ∈ topics.authByConn.filter (fun entry => decide (entry.1 ≠ conn)) →
      entry ∈ topics.authByConn ∧ entry.1 ≠ conn := by
    intro entry member
    simpa [List.mem_filter] using member
  constructor
  case ids => exact invariant.ids
  case seenIds => exact invariant.seenIds
  case owned => exact invariant.owned
  case current => exact invariant.current
  case fresh => exact invariant.fresh
  case covered =>
    intro refresh member unfailed entry stored
    exact invariant.covered refresh member unfailed entry (kept stored).1
  case awaited =>
    intro refresh member unfailed entry stored
    exact invariant.awaited refresh member unfailed entry (kept stored).1
  case allowed =>
    intro entry stored
    exact invariant.allowed entry (kept stored).1
  case present =>
    intro entry stored
    obtain ⟨older, different⟩ := kept stored
    have before := invariant.present entry older
    refine ⟨?_, ?_⟩
    · rw [List.mem_filter, decide_eq_true_eq]
      exact ⟨before.1, different⟩
    · rw [List.mem_append, List.mem_singleton, not_or]
      exact ⟨before.2, different⟩
  case reachable =>
    intro task member
    by_cases own : task.conn = conn
    · rw [own]
      exact Or.inr (List.mem_append_right _ (List.mem_singleton_self _))
    · rcases invariant.reachable task member with here | left
      · left
        rw [List.mem_filter, decide_eq_true_eq]
        exact ⟨here, own⟩
      · exact Or.inr (List.mem_append_left _ left)

theorem appInvariant_message (conns : List Text) (installId channelId : Text)
    (invariant : AppInvariant userOf topics) :
    AppInvariant userOf { topics with
      trace := topics.trace ++ conns.map fun conn =>
        .delivered conn installId channelId } := by
  constructor
  case ids => exact invariant.ids
  case seenIds =>
    intro user install channel
    rw [seenOf_append_delivered]
    exact invariant.seenIds user install channel
  case owned => exact invariant.owned
  case current => exact invariant.current
  case fresh =>
    intro task member channel
    rw [seenOf_append_delivered]
    exact invariant.fresh task member channel
  case covered => exact invariant.covered
  case awaited =>
    intro refresh member unfailed entry stored channel
    rw [seenOf_append_delivered]
    exact invariant.awaited refresh member unfailed entry stored channel
  case allowed =>
    intro entry stored channel
    rw [seenOf_append_delivered]
    exact invariant.allowed entry stored channel
  case present => exact invariant.present
  case reachable => exact invariant.reachable

/-- The connections that come and go are not looked at. -/
theorem appInvariant_connections (connected known : List Text)
    (invariant : AppInvariant userOf topics) :
    AppInvariant userOf { topics with
      connected := connected
      known := known } :=
  ⟨invariant.ids, invariant.seenIds, invariant.owned, invariant.current,
    invariant.fresh, invariant.covered, invariant.awaited,
    invariant.allowed, invariant.present, invariant.reachable⟩

variable {next : AppTopics}

theorem appInvariant_askNext {position : Nat} {task : AuthTask}
    (invariant : AppInvariant userOf topics) (found : topics.tasks[position]? = some task)
    (asked : topics.askNext userOf position task = some next) :
    AppInvariant userOf next := by
  unfold AppTopics.askNext at asked
  split at asked
  · cases asked
  · rename_i channelId rest seen phase
    cases asked
    apply appInvariant_ask invariant found
    intro allowed channel listed
    cases listed
  · rename_i seen phase
    cases asked
    apply appInvariant_advance { task with phase := .reading seen [] } invariant found rfl rfl rfl
    intro channel listed
    cases listed
  · rename_i channelId rest readable phase
    cases asked
    apply appInvariant_ask invariant found
    intro allowed channel listed
    simp only [AuthTask.readable, phase] at listed ⊢
    cases allowed with
    | true =>
      rcases List.mem_append.mp listed with older | new
      · exact Or.inl older
      · exact Or.inr ⟨rfl, List.mem_singleton.mp new⟩
    | false => exact Or.inl listed
  · cases asked

theorem appInvariant_step {act : AppAct} (invariant : AppInvariant userOf topics)
    (condition : AppCondition userOf topics act)
    (taken : appStep userOf topics act = some next) :
    AppInvariant userOf next := by
  cases act with
  | connect conn =>
    simp only [appStep] at taken
    split at taken
    · cases taken
    · cases taken
      exact appInvariant_connections _ _ invariant
  | grant user installId channelId =>
    cases taken
    exact appInvariant_grant user installId channelId invariant
  | revoke user installId channelId =>
    cases taken
    exact appInvariant_revoke invariant condition
  | subscribe conn installId instanceId =>
    simp only [appStep] at taken
    split at taken
    · cases taken
      exact appInvariant_subscribe conn installId instanceId invariant
    · cases taken
  | refresh installId =>
    cases taken
    exact appInvariant_refresh installId invariant
  | listKeys position channelIds =>
    simp only [appStep, Option.bind_eq_some_iff] at taken
    obtain ⟨task, found, taken⟩ := taken
    split at taken
    · cases taken
      apply appInvariant_advance { task with phase := .listing channelIds [] }
        invariant found rfl rfl rfl
      intro channel listed
      cases listed
    · cases taken
  | ask position =>
    simp only [appStep, Option.bind_eq_some_iff] at taken
    obtain ⟨task, found, asked⟩ := taken
    exact appInvariant_askNext invariant found asked
  | store position =>
    simp only [appStep, Option.bind_eq_some_iff] at taken
    obtain ⟨task, found, stored⟩ := taken
    unfold AppTopics.storeTask at stored
    split at stored
    · rename_i readable phase
      cases stored
      exact appInvariant_store invariant found phase (condition task found)
    · cases stored
  | fail position =>
    simp only [appStep, Option.map_eq_some_iff] at taken
    obtain ⟨task, found, rfl⟩ := taken
    exact appInvariant_fail invariant found
  | finish group =>
    simp only [appStep, Option.bind_eq_some_iff] at taken
    obtain ⟨refresh, found, taken⟩ := taken
    have isGroup : refresh.id = group := by simpa using List.find?_some found
    split at taken
    · cases taken
    · rename_i none
      cases taken
      apply appInvariant_finish invariant (List.mem_of_find?_eq_some found)
      intro task member ofGroup
      apply none
      rw [List.any_eq_true]
      exact ⟨task, member, by simp [ofGroup, isGroup]⟩
  | message installId channelId subscribers =>
    cases taken
    exact appInvariant_message _ installId channelId invariant
  | disconnect conn =>
    simp only [appStep] at taken
    split at taken
    · cases taken
      exact appInvariant_connections _ _ invariant
    · cases taken
  | disconnected conn =>
    simp only [appStep] at taken
    split at taken
    · cases taken
      exact appInvariant_disconnected conn invariant
    · cases taken

theorem delivered_of_appStep {act : AppAct} {conn installId : Text}
    (taken : appStep userOf topics act = some next) (delivered :
      .delivered conn installId channelId ∈ next.trace.drop topics.trace.length) :
    topics.authorize conn installId channelId = true := by
  cases act with
  | connect other =>
    simp only [appStep] at taken
    split at taken <;> cases taken
    simp at delivered
  | grant user install channel =>
    cases taken
    simp at delivered
  | revoke user install channel =>
    cases taken
    simp at delivered
  | subscribe other install instanceId =>
    simp only [appStep] at taken
    split at taken <;> cases taken
    simp at delivered
  | refresh install =>
    cases taken
    simp [AppTopics.startRefresh] at delivered
  | listKeys position channelIds =>
    simp only [appStep, Option.bind_eq_some_iff] at taken
    obtain ⟨task, _, taken⟩ := taken
    split at taken <;> cases taken
    simp at delivered
  | ask position =>
    simp only [appStep, Option.bind_eq_some_iff] at taken
    obtain ⟨task, _, asked⟩ := taken
    unfold AppTopics.askNext at asked
    split at asked <;> cases asked <;>
      simp [AppTopics.askAbout] at delivered
  | store position =>
    simp only [appStep, Option.bind_eq_some_iff] at taken
    obtain ⟨task, _, stored⟩ := taken
    unfold AppTopics.storeTask at stored
    split at stored <;> cases stored
    simp [AppTopics.setAuth] at delivered
  | fail position =>
    simp only [appStep, Option.map_eq_some_iff] at taken
    obtain ⟨task, _, rfl⟩ := taken
    simp [AppTopics.failTask] at delivered
  | finish group =>
    simp only [appStep, Option.bind_eq_some_iff] at taken
    obtain ⟨refresh, _, taken⟩ := taken
    split at taken
    · cases taken
    · cases taken
      simp only [AppTopics.finishRefresh, List.drop_left] at delivered
      split at delivered <;> simp at delivered
  | message install channel subscribers =>
    cases taken
    simp only [List.drop_left, List.mem_map, List.mem_filter,
      Bool.and_eq_true, TopicEvent.delivered.injEq] at delivered
    obtain ⟨other, ⟨_, _, authorized⟩, rfl, rfl, rfl⟩ := delivered
    exact authorized
  | disconnect other =>
    simp only [appStep] at taken
    split at taken <;> cases taken
    simp at delivered
  | disconnected other =>
    simp only [appStep] at taken
    split at taken <;> cases taken
    simp at delivered

end

/-- In every run whose steps meet the condition, every step obeys the
law. -/
theorem revoked_receive_nothing (userOf : Text → Text) (acts : List AppAct) (act : AppAct)
    (topics next : AppTopics)
    (meets : StepsMeet (appStep userOf) (AppCondition userOf) .empty acts)
    (executed : runFrom (appStep userOf) .empty acts = some topics)
    (condition : AppCondition userOf topics act)
    (taken : appStep userOf topics act = some next) :
    RevocationLaw userOf topics next := by
  have invariant : AppInvariant userOf topics := by
    apply invariant_of_stepsMeet (AppInvariant userOf) _ (appInvariant_empty userOf) meets executed
    intro before step after holds met moved
    exact appInvariant_step holds met moved
  constructor
  case delivered =>
    intro conn installId channelId delivered
    have authorized := delivered_of_appStep taken delivered
    unfold AppTopics.authorize AppTopics.authOf at authorized
    cases found : topics.authByConn.find? (fun entry => decide (entry.1 = conn)) with
    | none => simp [found] at authorized
    | some entry =>
      have named : entry.1 = conn := by simpa using List.find?_some found
      simp only [found, Option.map_some, Bool.and_eq_true, decide_eq_true_eq] at authorized
      rw [← named, ← authorized.1]
      exact invariant.allowed entry (List.mem_of_find?_eq_some found) channelId authorized.2
  case absent =>
    intro conn left entry stored same
    have after := appInvariant_step invariant condition taken
    rw [← same] at left
    exact (after.present entry stored).2 left

/-- Every connection is named like its user. -/
def sameName (conn : Text) : Text := conn

/-- The guest may read the channel, and his set is stored. -/
def guestReads : List AppAct :=
  [.connect "guest".toList, .grant "guest".toList "app".toList "ops".toList,
    .subscribe "guest".toList "app".toList "one".toList,
    .listKeys 0 ["ops".toList], .ask 0, .ask 0, .ask 0, .store 0]

def guestRemovedThenRefreshed : List AppAct :=
  guestReads ++ [.revoke "guest".toList "app".toList "ops".toList,
      .refresh "app".toList, .listKeys 0 ["ops".toList], .ask 0, .ask 0,
      .store 0, .finish 0]

theorem revoked_receive_nothing_refreshed :
    ∃ topics next, runFrom (appStep sameName) .empty guestRemovedThenRefreshed = some topics ∧
      appStep sameName topics (.message "app".toList "ops".toList ["guest".toList]) = some next ∧
      next.trace = topics.trace ∧
      RevocationLaw sameName topics next := by
  have ran :
      ((runFrom (appStep sameName) .empty guestRemovedThenRefreshed).bind
        fun topics =>
          (appStep sameName topics (.message "app".toList "ops".toList ["guest".toList])).map
              fun next => decide (next.trace = topics.trace)) =
        some true := by
    decide +kernel
  obtain ⟨topics, executed, found⟩ := Option.bind_eq_some_iff.mp ran
  obtain ⟨next, taken, seen⟩ := Option.map_eq_some_iff.mp found
  exact ⟨topics, next, executed, taken, of_decide_eq_true seen,
    revoked_receive_nothing sameName guestRemovedThenRefreshed
      (.message "app".toList "ops".toList ["guest".toList]) topics next
      (by decide +kernel) executed trivial taken⟩

/-- A first refresh has asked when the guest is removed; a second one sees
the removal and returns; then the first one stores what it had found. -/
def slowRefresh : List AppAct :=
  guestReads ++ [.refresh "app".toList, .listKeys 0 ["ops".toList], .ask 0, .ask 0, .ask 0,
      .revoke "guest".toList "app".toList "ops".toList,
      .refresh "app".toList, .listKeys 1 ["ops".toList], .ask 1, .ask 1,
      .store 1, .finish 1,
      .store 0, .finish 0]

/-- The removed guest gets the next message of the channel. -/
theorem slow_refresh_delivers :
    ¬ ∀ (userOf : Text → Text) (acts : List AppAct) (act : AppAct) (topics next : AppTopics),
        runFrom (appStep userOf) .empty acts = some topics →
          appStep userOf topics act = some next →
          RevocationLaw userOf topics next := by
  intro law
  have ran :
      ((runFrom (appStep sameName) .empty slowRefresh).bind
        fun topics =>
          (appStep sameName topics (.message "app".toList "ops".toList ["guest".toList])).map
              fun next =>
                (decide (TopicEvent.delivered "guest".toList "app".toList
                    "ops".toList ∈ next.trace.drop topics.trace.length),
                  (seenOf "guest".toList "app".toList "ops".toList topics.trace).revoked)) =
        some (true, true) := by
    decide +kernel
  obtain ⟨topics, executed, found⟩ := Option.bind_eq_some_iff.mp ran
  obtain ⟨next, taken, seen⟩ := Option.map_eq_some_iff.mp found
  have parts := Prod.mk.inj seen
  have obeys := law sameName slowRefresh
    (.message "app".toList "ops".toList ["guest".toList]) topics next
    executed taken
  have spared := obeys.delivered "guest".toList "app".toList "ops".toList
    (of_decide_eq_true parts.1)
  have revoked :
      (seenOf (sameName "guest".toList) "app".toList "ops".toList topics.trace).revoked = true :=
    parts.2
  rw [revoked] at spared
  cases spared

end Aprovan.Realtime
