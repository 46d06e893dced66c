import Aprovan.Realtime.Broker

/-!
# Rejected subscriptions

The subscription is in place while the handler decides, and the rejection looks
only at what the request found when it came.  Outside of these windows the law
holds.
-/

namespace Aprovan.Realtime

open Aprovan.Library

theorem entitled_append (conn topic : Text) (trace : List BrokerEvent) (event : BrokerEvent) :
    entitled conn topic (trace ++ [event]) =
      if event = .accepted conn topic then true
      else
        entitled conn topic trace && !event.ends conn topic := by
  simp [entitled]

variable {conn topic : Text} {event : BrokerEvent}

theorem entitled_append_of_other {trace : List BrokerEvent}
    (grants : event ≠ .accepted conn topic) (ends : event.ends conn topic = false) :
    entitled conn topic (trace ++ [event]) = entitled conn topic trace := by
  rw [entitled_append, if_neg grants, ends]
  simp

theorem entitled_append_delivered (conn topic : Text)
    (trace : List BrokerEvent) (conns : List Text) (name body : Text) :
    entitled conn topic (trace ++ conns.map fun other => .delivered other name body) =
      entitled conn topic trace := by
  induction conns generalizing trace with
  | nil => simp
  | cons first rest ih =>
    rw [List.map_cons, List.append_cons, ih]
    exact entitled_append_of_other (by simp) rfl

theorem spares_others (ending : event = .rejected conn topic ∨ event = .unsubscribed conn topic) :
    ∀ other name, (name, other) ≠ (topic, conn) →
      event ≠ .accepted other name ∧ event.ends other name = false := by
  intro other name different
  simp only [ne_eq, Prod.mk.injEq, not_and] at different
  have unequal : ¬ (conn = other ∧ topic = name) := by
    intro ⟨sameConn, sameTopic⟩
    exact different sameTopic.symm sameConn.symm
  rcases ending with rfl | rfl
  · exact ⟨by simp, by simpa [BrokerEvent.ends] using unequal⟩
  · exact ⟨by simp, by simpa [BrokerEvent.ends] using unequal⟩

/-- The two maps agree, subscribers are connected, and a subscription was
granted or its request is in flight. -/
structure BrokerInvariant (broker : Broker) : Prop where
  same : ∀ conn topic, (topic, conn) ∈ broker.subscriptions ↔ (conn, topic) ∈ broker.connTopics
  connected : ∀ conn topic, (topic, conn) ∈ broker.subscriptions → conn ∈ broker.connections
  granted : ∀ conn topic, (topic, conn) ∈ broker.subscriptions →
      entitled conn topic broker.trace = true ∨ ⟨conn, topic, false⟩ ∈ broker.inFlight

theorem brokerInvariant_empty : BrokerInvariant .empty where
  same := fun _ _ => by simp [Broker.empty]
  connected := fun _ _ member => by cases member
  granted := fun _ _ member => by cases member

variable {broker : Broker}

theorem mem_uninstall {entry : Text × Text} :
    entry ∈ (broker.uninstall conn topic).subscriptions ↔
      entry ∈ broker.subscriptions ∧ entry ≠ (topic, conn) := by
  simp [Broker.uninstall, List.mem_filter]

theorem brokerInvariant_uninstall {requests : List SubscribeRequest}
    (invariant : BrokerInvariant broker)
    (others : ∀ other name, (name, other) ≠ (topic, conn) →
      event ≠ .accepted other name ∧ event.ends other name = false)
    (kept : ∀ other name, (name, other) ≠ (topic, conn) →
      ⟨other, name, false⟩ ∈ broker.inFlight → ⟨other, name, false⟩ ∈ requests) :
    BrokerInvariant (({ broker with inFlight := requests }.uninstall conn topic).report
        event) := by
  refine ⟨?_, ?_, ?_⟩
  · intro other name
    have same := invariant.same other name
    simp only [Broker.report, Broker.uninstall, List.mem_filter, same,
      decide_eq_true_eq, ne_eq, Prod.mk.injEq]
    tauto
  · intro other name member
    simp only [Broker.report, Broker.uninstall, List.mem_filter] at member
    exact invariant.connected other name member.1
  · intro other name member
    simp only [Broker.report, Broker.uninstall, List.mem_filter, decide_eq_true_eq] at member
    obtain ⟨grants, ends⟩ := others other name member.2
    simp only [Broker.report, Broker.uninstall]
    rw [entitled_append_of_other grants ends]
    exact (invariant.granted other name member.1).imp_right (kept other name member.2)

theorem brokerInvariant_disconnect (conn : Text) (invariant : BrokerInvariant broker) :
    BrokerInvariant ((broker.removeConnection conn).report (.disconnected conn)) := by
  have left : ∀ other name, (name, other) ∈ (broker.removeConnection conn).subscriptions ↔
        (name, other) ∈ broker.subscriptions ∧ other ≠ conn := by
    intro other name
    have same := invariant.same other name
    simp only [Broker.removeConnection, List.mem_filter, decide_eq_true_eq, not_and]
    constructor
    · intro ⟨member, kept⟩
      refine ⟨member, ?_⟩
      intro equal
      subst equal
      exact kept rfl (same.mp member)
    · intro ⟨member, different⟩
      exact ⟨member, fun equal => absurd equal different⟩
  refine ⟨?_, ?_, ?_⟩
  · intro other name
    show (name, other) ∈ (broker.removeConnection conn).subscriptions ↔ _
    rw [left, invariant.same other name]
    simp [Broker.report, Broker.removeConnection, List.mem_filter]
  · intro other name member
    have kept := (left other name).mp member
    simp only [Broker.report, Broker.removeConnection, List.mem_filter, decide_eq_true_eq]
    exact ⟨invariant.connected other name kept.1, kept.2⟩
  · intro other name member
    have kept := (left other name).mp member
    simp only [Broker.report, Broker.removeConnection]
    rw [entitled_append_of_other (by simp) (by simpa [BrokerEvent.ends] using Ne.symm kept.2)]
    exact invariant.granted other name kept.1

theorem brokerInvariant_subscribe (conn topic : Text) (invariant : BrokerInvariant broker)
    (present : conn ∈ broker.connections) :
    BrokerInvariant (broker.installFor conn topic) := by
  unfold Broker.installFor
  by_cases already : (conn, topic) ∈ broker.connTopics
  · simp only [already, decide_true, if_true]
    refine ⟨invariant.same, invariant.connected, ?_⟩
    intro other name member
    exact (invariant.granted other name member).imp_right (List.mem_append_left _)
  · have absent : (topic, conn) ∉ broker.subscriptions := mt (invariant.same conn topic).mp already
    simp only [already, decide_false, absent, Bool.false_eq_true, if_false]
    refine ⟨?_, ?_, ?_⟩
    · intro other name
      have same := invariant.same other name
      simp only [List.mem_append, same, List.mem_singleton, Prod.mk.injEq]
      tauto
    · intro other name member
      rcases List.mem_append.mp member with older | new
      · exact invariant.connected other name older
      · cases List.mem_singleton.mp new
        exact present
    · intro other name member
      rcases List.mem_append.mp member with older | new
      · exact (invariant.granted other name older).imp_right (List.mem_append_left _)
      · cases List.mem_singleton.mp new
        exact Or.inr (List.mem_append_right _ (List.mem_singleton_self _))

theorem brokerInvariant_accept {position : Nat} {request : SubscribeRequest}
    (invariant : BrokerInvariant broker) (found : broker.inFlight[position]? = some request) :
    BrokerInvariant
      ({ broker with
        inFlight := finishCall broker.inFlight position }.report
          (.accepted request.conn request.topic)) := by
  refine ⟨invariant.same, invariant.connected, ?_⟩
  intro other name member
  simp only [Broker.report]
  rw [entitled_append]
  by_cases own : BrokerEvent.accepted request.conn request.topic = .accepted other name
  · exact Or.inl (if_pos own)
  · rw [if_neg own]
    rcases invariant.granted other name member with held | waits
    · left
      simp [held, BrokerEvent.ends]
    · right
      apply mem_finishCall_of_ne found waits
      intro same
      apply own
      rw [← same]

theorem brokerInvariant_reject {broker : Broker} {position : Nat} {request : SubscribeRequest}
    (invariant : BrokerInvariant broker) (found : broker.inFlight[position]? = some request)
    (condition : BrokerCondition broker (.reject position)) :
    BrokerInvariant
      (({ broker with
        inFlight := finishCall broker.inFlight position }.rollBack
          request).report (.rejected request.conn request.topic)) := by
  have others := spares_others (Or.inl (Eq.refl (BrokerEvent.rejected request.conn request.topic)))
  have kept : ∀ other name, (name, other) ≠ (request.topic, request.conn) →
        ⟨other, name, false⟩ ∈ broker.inFlight →
          ⟨other, name, false⟩ ∈ finishCall broker.inFlight position := by
    intro other name different waits
    apply mem_finishCall_of_ne found waits
    intro same
    apply different
    rw [← same]
  unfold Broker.rollBack
  cases already : request.already with
  | false => exact brokerInvariant_uninstall invariant others kept
  | true =>
    have gone : (request.topic, request.conn) ∉ broker.subscriptions := by
      intro member
      have first := (condition request found member).1
      rw [already] at first
      cases first
    refine ⟨invariant.same, invariant.connected, ?_⟩
    intro other name member
    have different : (name, other) ≠ (request.topic, request.conn) := by
      intro same
      rw [same] at member
      exact gone member
    simp only [Broker.report, if_true]
    rw [entitled_append_of_other (others other name different).1 (others other name different).2]
    exact (invariant.granted other name member).imp_right (kept other name different)

variable {resolves : Text → Bool}

theorem brokerInvariant_step {next : Broker} {act : BrokerAct}
    (invariant : BrokerInvariant broker) (condition : BrokerCondition broker act)
    (taken : brokerStep resolves broker act = some next) :
    BrokerInvariant next := by
  cases act with
  | connect conn =>
    simp only [brokerStep] at taken
    split at taken
    · cases taken
    · cases taken
      refine ⟨invariant.same, ?_, invariant.granted⟩
      intro other name member
      exact List.mem_append_left _ (invariant.connected other name member)
  | disconnect conn =>
    simp only [brokerStep] at taken
    split at taken
    · cases taken
      exact brokerInvariant_disconnect conn invariant
    · cases taken
  | subscribe conn topic =>
    simp only [brokerStep] at taken
    split at taken
    · rename_i present
      split at taken
      · cases taken
        exact brokerInvariant_subscribe conn topic invariant present
      · cases taken
        exact invariant
    · cases taken
  | unsubscribe conn topic =>
    have others := spares_others (Or.inr (Eq.refl (BrokerEvent.unsubscribed conn topic)))
    simp only [brokerStep] at taken
    split at taken
    · split at taken
      · cases taken
        exact brokerInvariant_uninstall invariant others fun _ _ _ waits => waits
      · rename_i unknown
        cases taken
        refine ⟨invariant.same, invariant.connected, ?_⟩
        intro other name member
        have different : (name, other) ≠ (topic, conn) := by
          intro same
          rw [same] at member
          exact unknown ((invariant.same conn topic).mp member)
        simp only [Broker.report]
        rw [entitled_append_of_other (others other name different).1
          (others other name different).2]
        exact invariant.granted other name member
    · cases taken
  | accept position =>
    simp only [brokerStep, Option.map_eq_some_iff] at taken
    obtain ⟨request, found, rfl⟩ := taken
    exact brokerInvariant_accept invariant found
  | reject position =>
    simp only [brokerStep, Option.map_eq_some_iff] at taken
    obtain ⟨request, found, rfl⟩ := taken
    exact brokerInvariant_reject invariant found condition
  | publish topic body except refused =>
    cases taken
    refine ⟨invariant.same, invariant.connected, ?_⟩
    intro other name member
    simp only [Broker.publishToTopic]
    rw [entitled_append_delivered]
    exact invariant.granted other name member

theorem delivered_of_step {broker next : Broker} {act : BrokerAct} {conn topic body : Text}
    (taken : brokerStep resolves broker act = some next) (delivered :
      .delivered conn topic body ∈ next.trace.drop broker.trace.length) :
    ∃ except refused, act = .publish topic body except refused ∧
      broker.receives topic except refused conn = true := by
  cases act with
  | connect other =>
    simp only [brokerStep] at taken
    split at taken <;> cases taken
    simp at delivered
  | disconnect other =>
    simp only [brokerStep] at taken
    split at taken <;> cases taken
    simp [Broker.report, Broker.removeConnection] at delivered
  | subscribe other name =>
    simp only [brokerStep] at taken
    split at taken
    · split at taken <;> cases taken <;>
        simp [Broker.installFor] at delivered
    · cases taken
  | unsubscribe other name =>
    simp only [brokerStep] at taken
    split at taken
    · split at taken <;> cases taken <;>
        simp [Broker.report, Broker.uninstall] at delivered
    · cases taken
  | accept position =>
    simp only [brokerStep, Option.map_eq_some_iff] at taken
    obtain ⟨request, _, rfl⟩ := taken
    simp [Broker.report] at delivered
  | reject position =>
    simp only [brokerStep, Option.map_eq_some_iff] at taken
    obtain ⟨request, _, rfl⟩ := taken
    unfold Broker.rollBack at delivered
    split at delivered <;>
      simp [Broker.report, Broker.uninstall] at delivered
  | publish name text except refused =>
    cases taken
    simp only [Broker.publishToTopic, List.drop_left, List.mem_map,
      List.mem_filter, BrokerEvent.delivered.injEq] at delivered
    obtain ⟨other, ⟨_, receives⟩, rfl, rfl, rfl⟩ := delivered
    exact ⟨except, refused, rfl, receives⟩

theorem rejectionLaw_of_condition {broker next : Broker} {act : BrokerAct}
    (invariant : BrokerInvariant broker) (condition : BrokerCondition broker act)
    (taken : brokerStep resolves broker act = some next) :
    RejectionLaw broker act next := by
  constructor
  case delivered =>
    intro conn topic body delivered
    obtain ⟨except, refused, rfl, receives⟩ :=
      delivered_of_step taken delivered
    have parts := receives
    simp only [Broker.receives, Bool.and_eq_true, decide_eq_true_eq] at parts
    have settled := condition conn parts.1.1.2 receives
    rcases invariant.granted conn topic parts.1.1.1 with held | waits
    · exact held
    · simp only [Broker.isPending, Bool.and_eq_false_iff, Bool.not_eq_false'] at settled
      rcases settled with none | held
      · rw [List.any_eq_false] at none
        have waiting := none _ waits
        simp at waiting
      · exact held
  case rejected =>
    intro position request isReject found
    subst isReject
    simp only [brokerStep, found, Option.map_some, Option.some.injEq] at taken
    subst taken
    unfold Broker.rollBack
    cases already : request.already with
    | false =>
      intro member
      exact (mem_uninstall.mp member).2 rfl
    | true =>
      intro member
      have first := (condition request found member).1
      rw [already] at first
      cases first
  case kept =>
    intro position request isReject found held member
    subst isReject
    have never := (condition request found member).2
    rw [held] at never
    cases never

/-- In every run whose steps meet the condition, every step obeys the
law. -/
theorem rejected_receives_nothing (resolves : Text → Bool) (acts : List BrokerAct)
    (act : BrokerAct) (broker next : Broker)
    (meets : StepsMeet (brokerStep resolves) BrokerCondition .empty acts)
    (executed : runFrom (brokerStep resolves) .empty acts = some broker)
    (condition : BrokerCondition broker act)
    (taken : brokerStep resolves broker act = some next) :
    RejectionLaw broker act next := by
  have invariant : BrokerInvariant broker := by
    apply invariant_of_stepsMeet BrokerInvariant _ brokerInvariant_empty meets executed
    intro before step after holds met moved
    exact brokerInvariant_step holds met moved
  exact rejectionLaw_of_condition invariant condition taken

def docTopic : Text := "doc:a".toList

/-- One participant, whose subscription was accepted. -/
def joined : List BrokerAct :=
  [.connect "ann".toList, .subscribe "ann".toList docTopic, .accept 0]

def secondAsks : List BrokerAct :=
  joined ++ [.connect "eve".toList, .subscribe "eve".toList docTopic]

/-- The second connection is rejected before anything is published. -/
theorem rejected_receives_nothing_joined :
    ∃ broker next, runFrom (brokerStep fun _ => true) .empty secondAsks = some broker ∧
      brokerStep (fun _ => true) broker (.reject 0) = some next ∧
      RejectionLaw broker (.reject 0) next := by
  have ran :
      ((runFrom (brokerStep fun _ => true) .empty secondAsks).bind
        fun broker =>
          (brokerStep (fun _ => true) broker (.reject 0)).map fun next =>
            (decide (BrokerCondition broker (.reject 0)), next.trace)) =
        some (true, [.accepted "ann".toList docTopic, .rejected "eve".toList docTopic]) := by
    decide +kernel
  obtain ⟨broker, executed, found⟩ := Option.bind_eq_some_iff.mp ran
  obtain ⟨next, taken, seen⟩ := Option.map_eq_some_iff.mp found
  refine ⟨broker, next, executed, taken, ?_⟩
  exact rejected_receives_nothing (fun _ => true) secondAsks (.reject 0)
    broker next (by decide +kernel) executed
    (of_decide_eq_true (Prod.mk.inj seen).1) taken

/-- The participant publishes while the second request is undecided, and the
second connection gets the event. -/
theorem unsettled_receives :
    ¬ ∀ (resolves : Text → Bool) (acts : List BrokerAct) (act : BrokerAct) (broker next : Broker),
        runFrom (brokerStep resolves) .empty acts = some broker →
          brokerStep resolves broker act = some next →
          RejectionLaw broker act next := by
  intro law
  have ran :
      ((runFrom (brokerStep fun _ => true) .empty secondAsks).bind
        fun broker =>
          (brokerStep (fun _ => true) broker
            (.publish docTopic "edit".toList (some "ann".toList) [])).map
              fun next =>
                (decide (BrokerEvent.delivered "eve".toList docTopic
                    "edit".toList ∈ next.trace.drop broker.trace.length),
                  entitled "eve".toList docTopic broker.trace)) =
        some (true, false) := by
    decide +kernel
  obtain ⟨broker, executed, found⟩ := Option.bind_eq_some_iff.mp ran
  obtain ⟨next, taken, seen⟩ := Option.map_eq_some_iff.mp found
  have parts := Prod.mk.inj seen
  have obeys := law (fun _ => true) secondAsks
    (.publish docTopic "edit".toList (some "ann".toList) []) broker next
    executed taken
  have held := obeys.delivered "eve".toList docTopic "edit".toList (of_decide_eq_true parts.1)
  rw [parts.2] at held
  cases held

end Aprovan.Realtime
