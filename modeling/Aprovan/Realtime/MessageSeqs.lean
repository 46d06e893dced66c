import Aprovan.Library.Keyed
import Aprovan.Library.Process
import Aprovan.Realtime.AppTopics

/-!
# The numbers of the messages of an install

A publication of a message posts it, reads the last number of the install,
stores the next one, and fans the message out with it, and awaits at the first
three of these.  The numbers are those of one workspace in memory, while it has
connections.
-/

namespace Aprovan.Realtime

open Aprovan.Library

structure PostedMessage where
  (id channelId : Text)

structure SeqRow where
  installId : Text
  seq : Nat

/-- A message event, with the connections that it went to. -/
structure MessageEvent where
  (installId channelId recordId : Text)
  seq : Nat
  receivers : List Text

structure MessageTopics where
  /-- The store of the namespace, under `seq:`. -/
  seqs : Keyed SeqRow.installId
  /-- What was fanned out, in its order. -/
  events : List MessageEvent

def MessageTopics.lastSeq (topics : MessageTopics) (installId : Text) : Nat :=
  ((topics.seqs.find? installId).map SeqRow.seq).getD 0

def MessageTopics.eventsOf (topics : MessageTopics) (installId : Text) : List MessageEvent :=
  topics.events.filter (·.installId = installId)

/-- The body of a `message` action. -/
structure MessageAction where
  (channelId body : Text)
  (parentId instanceId : Option Text)

/-- `publishSchema`, of a message. -/
def MessageAction.isValid (action : MessageAction) : Bool :=
  action.channelId ≠ [] && action.parentId.all (· ≠ []) && action.instanceId.all (· ≠ [])

inductive TopicStatement where
  | postMessage (installId instanceId : Text) (action : MessageAction)
  | getSeq (installId : Text)
  | setSeq (installId : Text) (seq : Nat)
  | fanout (installId : Text) (message : PostedMessage) (seq : Nat)

abbrev TopicStatement.Answer : TopicStatement → Type
  | .postMessage _ _ _ => PostedMessage
  | .getSeq _ => Option Nat
  | _ => Unit

inductive TopicFailure where
  | post
  | failed (message : Text)

/-- What the surroundings decide: the message that is posted, if the post
does not fail, and the connections that a fan-out reaches. -/
structure TopicChoice where
  posted : Option PostedMessage
  receivers : List Text

def executeTopic (choice : TopicChoice) (statement : TopicStatement) (topics : MessageTopics) :
    Except TopicFailure statement.Answer × MessageTopics :=
  match statement with
  | .postMessage _ _ _ =>
    match choice.posted with
    | some message => (.ok message, topics)
    | none => (.error .post, topics)
  | .getSeq installId => (.ok ((topics.seqs.find? installId).map SeqRow.seq), topics)
  | .setSeq installId seq => (.ok (), { topics with seqs := topics.seqs.put ⟨installId, seq⟩ })
  | .fanout installId message seq =>
    (.ok (), { topics with
      events := topics.events ++
        [⟨installId, message.channelId, message.id, seq, choice.receivers.dedup⟩] })

abbrev TopicCall := Process TopicStatement.Answer TopicFailure

def askTopic (statement : TopicStatement) : TopicCall statement.Answer :=
  Process.perform statement

/-- A publish request; `auth` is the entry of its connection. -/
structure PublishRequest where
  installId : Text
  auth : Option ConnAuth
  action : MessageAction

def noInstance (installId : Text) : Text :=
  "Not found: instance for install ".toList ++ installId

def badAppBody : Text :=
  "app body must be \x7baction:\"message\"|\"typing\"|\"presence\"|\"channel-membership\", ...\x7d".toList

def fanMessage (installId : Text) (message : PostedMessage) (seq : Nat) : TopicCall PUnit :=
  askTopic (.fanout installId message seq)

/-- What follows the read of the last number. -/
def numberMessage (installId : Text) (message : PostedMessage) (prev : Option Nat) :
    TopicCall PUnit := do
  let seq := prev.getD 0 + 1
  askTopic (.setSeq installId seq)
  fanMessage installId message seq

def announceMessage (installId : Text) (message : PostedMessage) : TopicCall PUnit := do
  let prev ← askTopic (.getSeq installId)
  numberMessage installId message prev

/-- `onPublish`, of a message. -/
def publishMessage (request : PublishRequest) : TopicCall PUnit :=
  match request.auth.filter (·.installId = request.installId) with
  | none => Process.raise (.failed (noInstance request.installId))
  | some auth =>
    if !request.action.isValid then Process.raise (.failed badAppBody)
    else do
      let message ← askTopic (.postMessage request.installId
        (request.action.instanceId.getD auth.instanceId) request.action)
      announceMessage request.installId message

abbrev TopicSystem :=
  Concurrent MessageTopics PublishRequest TopicStatement.Answer TopicFailure PUnit

inductive TopicAct where
  | publish (request : PublishRequest)
  | advance (position : Nat) (choice : TopicChoice)

def topicStep (system : TopicSystem) : TopicAct → Option TopicSystem
  | .publish request => some (system.start request (publishMessage request))
  | .advance position choice => system.advance executeTopic position choice

def noMessages : TopicSystem :=
  ⟨⟨Keyed.empty, []⟩, [], []⟩

/-- The numbers of the events of an install that some connections satisfying
a condition have received. -/
def seqsReceived (topics : MessageTopics) (installId : Text) (received : List Text → Bool) :
    List Nat :=
  ((topics.eventsOf installId).filter (received ·.receivers)).map MessageEvent.seq

structure SeqsIncrease (topics : MessageTopics) : Prop where
  /-- No two events that are delivered have the same number. -/
  distinct : ∀ installId, (seqsReceived topics installId (· ≠ [])).Nodup
  /-- A connection receives larger and larger numbers. -/
  ordered : ∀ installId conn, (seqsReceived topics installId (conn ∈ ·)).Pairwise (· < ·)

/-- The number with which the call at a position is about to fan out a
message of an install. -/
def fanningOut (system : TopicSystem) (installId : Text) (position : Nat) : Option Nat :=
  match system.awaiting position with
  | some (.fanout fanned _ seq) =>
    if fanned = installId then some seq else none
  | _ => none

/-- A number is stored while the last number is still the one that was read,
and a message is fanned out when no call is about to fan one out with a
smaller number. -/
def numbersInOrder (system : TopicSystem) : TopicAct → Bool
  | .advance position _ =>
    match system.awaiting position with
    | some (.setSeq installId seq) => seq = system.shared.lastSeq installId + 1
    | some (.fanout installId _ seq) =>
      (List.range system.calls.length).all fun other =>
        (fanningOut system installId other).all (seq ≤ ·)
    | _ => true
  | _ => true

/-- How far a publication has come. -/
inductive PublishState (request : PublishRequest) : TopicCall PUnit → Prop where
  | posting : PublishState request (publishMessage request)
  | reading (message : PostedMessage) :
      PublishState request (announceMessage request.installId message)
  | storing (message : PostedMessage) (prev : Option Nat) :
      PublishState request (numberMessage request.installId message prev)
  | fanning (message : PostedMessage) (seq : Nat) :
      PublishState request (fanMessage request.installId message seq)
  | ended (outcome : Except TopicFailure PUnit) : PublishState request (.done outcome)

/-- A call goes on to the next state, and it is about to fan out only what
it has just stored. -/
theorem publishState_resumed {request : PublishRequest} {statement : TopicStatement}
    {resume : Except TopicFailure statement.Answer → TopicCall PUnit}
    (state : PublishState request (.await statement resume))
    (answer : Except TopicFailure statement.Answer) :
    PublishState request (resume answer) ∧ ∀ installId message seq next,
        resume answer = .await (.fanout installId message seq) next →
          statement = .setSeq installId seq := by
  generalize awaits : Process.await statement resume = process at state
  cases state with
  | posting =>
    unfold publishMessage at awaits
    split at awaits
    · cases awaits
    · split at awaits
      · cases awaits
      · cases awaits
        cases answer with
        | ok message =>
          refine ⟨.reading message, ?_⟩
          intro installId fanned seq next impossible
          cases impossible
        | error thrown =>
          refine ⟨.ended _, ?_⟩
          intro installId fanned seq next impossible
          cases impossible
  | reading message =>
    cases awaits
    cases answer with
    | ok prev =>
      refine ⟨.storing message prev, ?_⟩
      intro installId fanned seq next impossible
      cases impossible
    | error thrown =>
      refine ⟨.ended _, ?_⟩
      intro installId fanned seq next impossible
      cases impossible
  | storing message prev =>
    cases awaits
    cases answer with
    | ok stored =>
      refine ⟨.fanning message _, ?_⟩
      intro installId fanned seq next awaited
      cases awaited
      rfl
    | error thrown =>
      refine ⟨.ended _, ?_⟩
      intro installId fanned seq next impossible
      cases impossible
  | fanning message seq =>
    cases awaits
    refine ⟨.ended _, ?_⟩
    intro installId fanned seq next impossible
    cases impossible
  | ended outcome => cases awaits

/-- What the runs keep. -/
structure SeqInvariant (system : TopicSystem) : Prop where
  states : ∀ call ∈ system.calls, PublishState call.request call.process
  eventsBounded : ∀ event ∈ system.shared.events, event.seq ≤ system.shared.lastSeq event.installId
  fanningBounded : ∀ installId position seq, fanningOut system installId position = some seq →
      seq ≤ system.shared.lastSeq installId
  fanningApart : ∀ installId first second seq, fanningOut system installId first = some seq →
      fanningOut system installId second = some seq → first = second
  eventsBelow : ∀ event ∈ system.shared.events, ∀ position seq,
    fanningOut system event.installId position = some seq → event.seq < seq
  increasing : ∀ installId,
    ((system.shared.eventsOf installId).map MessageEvent.seq).Pairwise (· < ·)

section

variable {system after : TopicSystem} {request : PublishRequest}
  {position other : Nat} {installId : Text} {seq : Nat}
  {topics : MessageTopics}

theorem lastSeq_put (installId stored : Text) (seq : Nat) :
    MessageTopics.lastSeq { topics with seqs := topics.seqs.put ⟨stored, seq⟩ } installId =
      if stored = installId then seq else topics.lastSeq installId := by
  unfold MessageTopics.lastSeq
  rw [Keyed.find?_put]
  by_cases same : stored = installId
  · rw [if_pos same, if_pos same]
    rfl
  · rw [if_neg same, if_neg same]

theorem fanningOut_eq_some_iff :
    fanningOut system installId position = some seq ↔ ∃ message,
        system.awaiting position = some (.fanout installId message seq) := by
  unfold fanningOut
  constructor
  · intro fanning
    split at fanning
    · next fanned message number awaits =>
        by_cases same : fanned = installId
        · rw [if_pos same] at fanning
          cases fanning
          rw [same] at awaits
          exact ⟨message, awaits⟩
        · rw [if_neg same] at fanning
          cases fanning
    · cases fanning
  · intro exists_
    obtain ⟨message, awaits⟩ := exists_
    rw [awaits]
    exact if_pos rfl

theorem not_fanning_publishMessage {message : PostedMessage}
    {next : Except TopicFailure Unit → TopicCall PUnit} :
    publishMessage request ≠ .await (.fanout installId message seq) next := by
  intro impossible
  unfold publishMessage at impossible
  split at impossible
  · cases impossible
  · split at impossible
    · cases impossible
    · cases impossible

theorem fanningOut_start (fanning : fanningOut (system.start request (publishMessage request))
      installId position = some seq) :
    fanningOut system installId position = some seq := by
  obtain ⟨message, awaits⟩ := fanningOut_eq_some_iff.mp fanning
  rcases awaiting_start awaits with before | new
  · exact fanningOut_eq_some_iff.mpr ⟨message, before⟩
  · obtain ⟨next, same⟩ := new
    exact absurd same not_fanning_publishMessage

theorem seqInvariant_start (before : SeqInvariant system) :
    SeqInvariant (system.start request (publishMessage request)) where
  states := by
    intro call member
    rcases List.mem_append.mp member with old | new
    · exact before.states call old
    · rw [List.mem_singleton.mp new]
      exact .posting
  eventsBounded := before.eventsBounded
  fanningBounded := by
    intro installId position seq fanning
    exact before.fanningBounded installId position seq (fanningOut_start fanning)
  fanningApart := by
    intro installId first second seq firstFans secondFans
    exact before.fanningApart installId first second seq
      (fanningOut_start firstFans) (fanningOut_start secondFans)
  eventsBelow := by
    intro event member position seq fanning
    exact before.eventsBelow event member position seq (fanningOut_start fanning)
  increasing := before.increasing

section

variable {statement : TopicStatement}
  {resume : Except TopicFailure statement.Answer → TopicCall PUnit}
  {outcome : Except TopicFailure statement.Answer × MessageTopics}
  (before : SeqInvariant system)
  (found : system.Awaits position request statement resume)

include before found

/-- A call that is about to fan out after a statement was about to before,
or the statement has stored its number. -/
theorem fanningOut_answered (fanning : fanningOut
      (system.answered position request statement resume outcome) installId other = some seq) :
    (other ≠ position ∧ fanningOut system installId other = some seq) ∨
      (other = position ∧ statement = .setSeq installId seq) := by
  obtain ⟨message, awaits⟩ := fanningOut_eq_some_iff.mp fanning
  by_cases same : other = position
  · subst same
    have inside := (List.getElem?_eq_some_iff.mp found).1
    obtain ⟨next, resumed⟩ := awaits_of_awaiting_answered inside awaits
    have state := before.states _ (List.mem_of_getElem? found)
    exact Or.inr ⟨rfl, (publishState_resumed state _).2 installId message seq next resumed⟩
  · rw [awaiting_answered_other same] at awaits
    exact Or.inl ⟨same, fanningOut_eq_some_iff.mpr ⟨message, awaits⟩⟩

theorem states_answered :
    ∀ call ∈ (system.answered position request statement resume
        outcome).calls, PublishState call.request call.process := by
  intro call member
  rcases List.mem_or_eq_of_mem_set member with old | new
  · exact before.states call old
  · rw [new]
    have state := before.states _ (List.mem_of_getElem? found)
    exact (publishState_resumed state _).1

/-- A statement that stores nothing and fans nothing out. -/
theorem seqInvariant_answered_idle (kept : outcome.2 = system.shared)
    (idle : ∀ installId seq, statement ≠ .setSeq installId seq) :
    SeqInvariant (system.answered position request statement resume outcome) := by
  have same : (system.answered position request statement resume
      outcome).shared = system.shared := kept
  have earlier : ∀ installId other seq,
      fanningOut (system.answered position request statement resume outcome)
          installId other = some seq →
        fanningOut system installId other = some seq := by
    intro installId other seq fanning
    rcases fanningOut_answered before found fanning with old | new
    · exact old.2
    · exact absurd new.2 (idle installId seq)
  refine ⟨states_answered before found, ?_, ?_, ?_, ?_, ?_⟩
  · rw [same]
    exact before.eventsBounded
  · intro installId other seq fanning
    rw [same]
    exact before.fanningBounded installId other seq (earlier installId other seq fanning)
  · intro installId first second seq firstFans secondFans
    exact before.fanningApart installId first second seq (earlier installId first seq firstFans)
      (earlier installId second seq secondFans)
  · rw [same]
    intro event member other seq fanning
    exact before.eventsBelow event member other seq (earlier event.installId other seq fanning)
  · rw [same]
    exact before.increasing

end

variable {resume : Except TopicFailure Unit → TopicCall PUnit}

theorem seqInvariant_stored {stored : Text} {next : Nat}
    (before : SeqInvariant system) (found : system.calls[position]? =
      some ⟨request, .await (.setSeq stored next) resume⟩)
    (follows : next = system.shared.lastSeq stored + 1) :
    SeqInvariant (system.answered position request (.setSeq stored next)
      resume (.ok (), { system.shared with
        seqs := system.shared.seqs.put ⟨stored, next⟩ })) := by
  have last : ∀ installId, (system.answered position request
      (.setSeq stored next) resume (.ok (), { system.shared with
        seqs := system.shared.seqs.put ⟨stored, next⟩ })).shared.lastSeq installId =
        if stored = installId then next else system.shared.lastSeq installId := by
    intro installId
    exact lastSeq_put installId stored next
  have grows : ∀ installId, system.shared.lastSeq installId ≤
      if stored = installId then next else system.shared.lastSeq installId := by
    intro installId
    by_cases own : stored = installId
    · rw [if_pos own, ← own, follows]
      exact Nat.le_succ _
    · rw [if_neg own]
  refine ⟨states_answered before found, ?_, ?_, ?_, ?_, before.increasing⟩
  · intro event member
    rw [last]
    exact (before.eventsBounded event member).trans (grows _)
  · intro installId other seq fanning
    rw [last]
    rcases fanningOut_answered before found fanning with old | new
    · exact (before.fanningBounded installId other seq old.2).trans (grows _)
    · cases new.2
      rw [if_pos rfl]
  · intro installId first second seq firstFans secondFans
    have above : ∀ other, fanningOut system installId other = some seq →
        TopicStatement.setSeq stored next ≠ .setSeq installId seq := by
      intro other fanning same
      cases same
      have bounded := before.fanningBounded _ other _ fanning
      omega
    rcases fanningOut_answered before found firstFans with firstOld | firstNew
    · rcases fanningOut_answered before found secondFans with secondOld |
        secondNew
      · exact before.fanningApart installId first second seq firstOld.2 secondOld.2
      · exact absurd secondNew.2 (above first firstOld.2)
    · rcases fanningOut_answered before found secondFans with secondOld |
        secondNew
      · exact absurd firstNew.2 (above second secondOld.2)
      · rw [firstNew.1, secondNew.1]
  · intro event member other seq fanning
    rcases fanningOut_answered before found fanning with old | new
    · exact before.eventsBelow event member other seq old.2
    · have same := new.2
      injection same with ownInstall ownSeq
      have bounded := before.eventsBounded event member
      rw [← ownInstall] at bounded
      omega

theorem seqInvariant_fanned {fanned : Text} {message : PostedMessage}
    {number : Nat} {receivers : List Text} (before : SeqInvariant system)
    (found : system.calls[position]? =
      some ⟨request, .await (.fanout fanned message number) resume⟩)
    (smallest : ∀ other seq, fanningOut system fanned other = some seq → number ≤ seq) :
    SeqInvariant (system.answered position request
      (.fanout fanned message number) resume (.ok (), { system.shared with
        events := system.shared.events ++
          [⟨fanned, message.channelId, message.id, number, receivers⟩] })) := by
  have own : fanningOut system fanned position = some number :=
    fanningOut_eq_some_iff.mpr ⟨message, awaiting_eq_some_iff.mpr ⟨request, resume, found⟩⟩
  have earlier : ∀ installId other seq, fanningOut (system.answered position request
          (.fanout fanned message number) resume (.ok (), { system.shared with
            events := system.shared.events ++
              [⟨fanned, message.channelId, message.id, number,
                receivers⟩] })) installId other = some seq →
        other ≠ position ∧ fanningOut system installId other = some seq := by
    intro installId other seq fanning
    rcases fanningOut_answered before found fanning with old | new
    · exact old
    · cases new.2
  refine ⟨states_answered before found, ?_, ?_, ?_, ?_, ?_⟩
  · intro event member
    rcases List.mem_append.mp member with old | new
    · exact before.eventsBounded event old
    · rw [List.mem_singleton.mp new]
      exact before.fanningBounded fanned position number own
  · intro installId other seq fanning
    exact before.fanningBounded installId other seq (earlier installId other seq fanning).2
  · intro installId first second seq firstFans secondFans
    exact before.fanningApart installId first second seq (earlier installId first seq firstFans).2
      (earlier installId second seq secondFans).2
  · intro event member other seq fanning
    obtain ⟨different, still⟩ := earlier event.installId other seq fanning
    rcases List.mem_append.mp member with old | new
    · exact before.eventsBelow event old other seq still
    · rw [List.mem_singleton.mp new] at still ⊢
      have atMost := smallest other seq still
      have apart : number ≠ seq := by
        intro same
        rw [← same] at still
        exact different (before.fanningApart fanned other position number still own)
      show number < seq
      omega
  · intro installId
    show (((system.shared.events ++ [_]).filter _).map _).Pairwise _
    rw [List.filter_append, List.map_append, List.pairwise_append]
    refine ⟨before.increasing installId, ?_, ?_⟩
    · by_cases same : fanned = installId
      · simp [same]
      · simp [same]
    · intro earlierSeq listed lastSeq last
      obtain ⟨event, kept, isEarlier⟩ := List.mem_map.mp listed
      obtain ⟨new, added, isLast⟩ := List.mem_map.mp last
      obtain ⟨old, ofInstall⟩ := List.mem_filter.mp kept
      obtain ⟨isNew, ofSame⟩ := List.mem_filter.mp added
      have eventInstall : event.installId = installId := by simpa using ofInstall
      have newInstall : new.installId = installId := by simpa using ofSame
      rw [List.mem_singleton.mp isNew] at isLast newInstall
      rw [← isEarlier, ← isLast]
      have same : fanned = event.installId := newInstall.trans eventInstall.symm
      rw [same] at own
      exact before.eventsBelow event old position number own

theorem seqInvariant_step {act : TopicAct} (before : SeqInvariant system)
    (inOrder : numbersInOrder system act = true) (taken : topicStep system act = some after) :
    SeqInvariant after := by
  cases act with
  | publish request =>
    cases taken
    exact seqInvariant_start before
  | advance position choice =>
    obtain ⟨request, statement, resume, found, same⟩ :=
      advance_eq_some_iff.mp taken
    rw [same]
    have awaits := awaiting_eq_some_iff.mpr ⟨request, resume, found⟩
    rw [numbersInOrder, awaits] at inOrder
    cases statement with
    | postMessage installId instanceId action =>
      refine seqInvariant_answered_idle before found ?_ ?_
      · unfold executeTopic
        cases choice.posted <;> rfl
      · intro installId seq impossible
        cases impossible
    | getSeq installId =>
      refine seqInvariant_answered_idle before found rfl ?_
      intro installId seq impossible
      cases impossible
    | setSeq installId seq => exact seqInvariant_stored before found (of_decide_eq_true inOrder)
    | fanout installId message seq =>
      refine seqInvariant_fanned before found ?_
      intro other number fanning
      obtain ⟨another, waits⟩ := fanningOut_eq_some_iff.mp fanning
      obtain ⟨_, _, present⟩ := awaiting_eq_some_iff.mp waits
      have inside := (List.getElem?_eq_some_iff.mp present).1
      have atMost := List.all_eq_true.mp inOrder other (List.mem_range.mpr inside)
      simpa [fanning] using atMost

theorem seqInvariant_noMessages : SeqInvariant noMessages := by
  refine ⟨?_, ?_, ?_, ?_, ?_, ?_⟩
  · intro call impossible
    cases impossible
  · intro event impossible
    cases impossible
  · intro installId position seq impossible
    cases impossible
  · intro installId first second seq impossible
    cases impossible
  · intro event impossible
    cases impossible
  · intro installId
    exact List.Pairwise.nil

theorem seqsIncrease_of_seqInvariant (invariant : SeqInvariant system) :
    SeqsIncrease system.shared := by
  have increasing : ∀ installId received,
      (seqsReceived system.shared installId received).Pairwise (· < ·) := by
    intro installId received
    exact (invariant.increasing installId).sublist (List.filter_sublist.map MessageEvent.seq)
  refine ⟨?_, ?_⟩
  · intro installId
    exact (increasing installId _).imp Nat.ne_of_lt
  · intro installId conn
    exact increasing installId _

end

theorem message_seqs_increase {acts : List TopicAct} {system : TopicSystem}
    (meets : StepsMeet topicStep
      (fun before act => numbersInOrder before act = true) noMessages acts)
    (executed : runFrom topicStep noMessages acts = some system) :
    SeqsIncrease system.shared := by
  have invariant := invariant_of_stepsMeet SeqInvariant
    (fun before act after holds inOrder taken => seqInvariant_step holds inOrder taken)
    seqInvariant_noMessages meets executed
  exact seqsIncrease_of_seqInvariant invariant

def sayIn (installId : Text) : PublishRequest where
  installId := installId
  auth := some ⟨installId, "inst".toList, ["general".toList]⟩
  action := ⟨"general".toList, "hello".toList, none, none⟩

/-- A statement whose message goes to two connections. -/
def reachesTwo (position : Nat) : TopicAct :=
  .advance position ⟨some ⟨"rec".toList, "general".toList⟩, ["c1".toList, "c2".toList]⟩

/-- The second message is posted while the first is, and numbered after. -/
def numberedInTurn : List TopicAct :=
  [.publish (sayIn "app-1".toList), .publish (sayIn "app-1".toList),
    reachesTwo 0, reachesTwo 1, reachesTwo 0, reachesTwo 0, reachesTwo 1,
    reachesTwo 1, reachesTwo 0, reachesTwo 1]

theorem message_seqs_increase_numberedInTurn :
    ∃ system, runFrom topicStep noMessages numberedInTurn = some system ∧
      SeqsIncrease system.shared := by
  have executed :
      (runFrom topicStep noMessages numberedInTurn).map
        (·.shared.events.map MessageEvent.seq) = some [1, 2] := by
    decide +kernel
  obtain ⟨system, found, _⟩ := Option.map_eq_some_iff.mp executed
  exact ⟨system, found, message_seqs_increase (by decide +kernel) found⟩

/-- Both publications read the last number before either of them stores the
next one. -/
theorem message_seq_is_repeated :
    ¬ ∀ acts system, runFrom topicStep noMessages acts = some system →
      SeqsIncrease system.shared := by
  intro always
  have executed :
      (runFrom topicStep noMessages
        [.publish (sayIn "app-1".toList), .publish (sayIn "app-1".toList),
          reachesTwo 0, reachesTwo 1, reachesTwo 0, reachesTwo 1,
          reachesTwo 0, reachesTwo 1, reachesTwo 0, reachesTwo 1]).map
        (fun system => seqsReceived system.shared "app-1".toList (· ≠ [])) = some [1, 1] := by
    decide +kernel
  obtain ⟨system, found, repeated⟩ := Option.map_eq_some_iff.mp executed
  have distinct := (always _ system found).distinct "app-1".toList
  rw [repeated] at distinct
  simp at distinct

end Aprovan.Realtime
