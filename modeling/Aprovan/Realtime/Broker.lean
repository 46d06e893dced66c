import Aprovan.Library.Runs
import Aprovan.Library.Text

/-!
# The realtime broker

One workspace of the in-process broker.  A subscribe request installs the
subscription, awaits the handler of the namespace, and takes the subscription
back when the handler rejects; everything else is one step.  The names of
connections are fresh.
-/

namespace Aprovan.Realtime

open Aprovan.Library

/-- A subscribe request whose handler has not settled; `already` says that
the request found its topic among those of the connection. -/
structure SubscribeRequest where
  (conn topic : Text)
  already : Bool

/-- What has happened, for the connections to see. -/
inductive BrokerEvent where
  | accepted (conn topic : Text)
  | rejected (conn topic : Text)
  | unsubscribed (conn topic : Text)
  | disconnected (conn : Text)
  | delivered (conn topic body : Text)
  deriving DecidableEq

structure Broker where
  connections : List Text
  /-- Pairs of a topic and a connection, in the order of installation. -/
  subscriptions : List (Text × Text)
  /-- Pairs of a connection and a topic. -/
  connTopics : List (Text × Text)
  known : List Text
  inFlight : List SubscribeRequest
  trace : List BrokerEvent

def Broker.empty : Broker where
  connections := []
  subscriptions := []
  connTopics := []
  known := []
  inFlight := []
  trace := []

variable (broker : Broker)

/-- Forget a subscription in both maps. -/
def Broker.uninstall (conn topic : Text) : Broker :=
  { broker with
    subscriptions := broker.subscriptions.filter (· ≠ (topic, conn))
    connTopics := broker.connTopics.filter (· ≠ (conn, topic)) }

def Broker.report (event : BrokerEvent) : Broker :=
  { broker with trace := broker.trace ++ [event] }

def Broker.removeConnection (conn : Text) : Broker :=
  { broker with
    subscriptions := broker.subscriptions.filter fun entry =>
      ¬ (entry.2 = conn ∧ (conn, entry.1) ∈ broker.connTopics)
    connTopics := broker.connTopics.filter fun entry => entry.1 ≠ conn
    connections := broker.connections.filter (· ≠ conn) }

/-- A connection gets the event: it is subscribed, still there, not the
excepted one, and its authorisation is not refused. -/
def Broker.receives (topic : Text) (except : Option Text) (refused : List Text) (conn : Text) :
    Bool :=
  (topic, conn) ∈ broker.subscriptions && conn ∈ broker.connections &&
    except ≠ some conn && conn ∉ refused

/-- The subscribers of a topic, in the order of installation. -/
def Broker.subscribers (topic : Text) : List Text :=
  (broker.subscriptions.filter fun entry => entry.1 = topic).map (·.2)

def Broker.publishToTopic (topic body : Text) (except : Option Text) (refused : List Text) :
    Broker :=
  { broker with
    trace := broker.trace ++ ((broker.subscribers topic).filter
        (broker.receives topic except refused)).map fun conn => .delivered conn topic body }

/-- The synchronous part of a subscribe request. -/
def Broker.installFor (conn topic : Text) : Broker :=
  let already := decide ((conn, topic) ∈ broker.connTopics)
  { broker with
    subscriptions :=
      if already then broker.subscriptions
      else if (topic, conn) ∈ broker.subscriptions then broker.subscriptions
      else broker.subscriptions ++ [(topic, conn)]
    connTopics :=
      if already then broker.connTopics else broker.connTopics ++ [(conn, topic)]
    inFlight := broker.inFlight ++ [⟨conn, topic, already⟩] }

def Broker.rollBack (request : SubscribeRequest) : Broker :=
  if request.already then broker else broker.uninstall request.conn request.topic

inductive BrokerAct where
  | connect (conn : Text)
  | disconnect (conn : Text)
  | subscribe (conn topic : Text)
  | unsubscribe (conn topic : Text)
  | accept (position : Nat)
  | reject (position : Nat)
  | publish (topic body : Text) (except : Option Text) (refused : List Text)

section

variable (resolves : Text → Bool)

/-- One step; connections and messages come from open sockets, and
`resolves` tells the topics that parse and have a handler. -/
def brokerStep (broker : Broker) : BrokerAct → Option Broker
  | .connect conn =>
    if conn ∈ broker.known then none
    else
      some { broker with
        connections := broker.connections ++ [conn]
        known := broker.known ++ [conn] }
  | .disconnect conn =>
    if conn ∈ broker.connections then
      some ((broker.removeConnection conn).report (.disconnected conn))
    else none
  | .subscribe conn topic =>
    if conn ∈ broker.connections then
      if resolves topic then some (broker.installFor conn topic) else some broker
    else none
  | .unsubscribe conn topic =>
    if conn ∈ broker.connections then
      if (conn, topic) ∈ broker.connTopics then
        some ((broker.uninstall conn topic).report (.unsubscribed conn topic))
      else some (broker.report (.unsubscribed conn topic))
    else none
  | .accept position =>
    broker.inFlight[position]?.map fun request =>
      { broker with
        inFlight := finishCall broker.inFlight position }.report
          (.accepted request.conn request.topic)
  | .reject position =>
    broker.inFlight[position]?.map fun request =>
      ({ broker with
        inFlight := finishCall broker.inFlight position }.rollBack
          request).report (.rejected request.conn request.topic)
  | .publish topic body except refused => some (broker.publishToTopic topic body except refused)

end

/-- Does the event end the accepted subscriptions of a connection to a
topic? -/
def BrokerEvent.ends (conn topic : Text) : BrokerEvent → Bool
  | .rejected other named => other = conn && named = topic
  | .unsubscribed other named => other = conn && named = topic
  | .disconnected other => other = conn
  | _ => false

/-- An accepted subscribe that nothing has ended since. -/
def entitled (conn topic : Text) (trace : List BrokerEvent) : Bool :=
  trace.foldl
    (fun held event =>
      if event = .accepted conn topic then true else held && !event.ends conn topic)
    false

/-- The three parts of the law for one step: events reach the entitled only,
a rejected connection is left out of the topic, and a rejection takes nothing
from an accepted request. -/
structure RejectionLaw (before : Broker) (act : BrokerAct) (after : Broker) : Prop where
  delivered : ∀ conn topic body,
    .delivered conn topic body ∈ after.trace.drop before.trace.length →
      entitled conn topic before.trace = true
  rejected : ∀ position request,
    act = .reject position → before.inFlight[position]? = some request →
      (request.topic, request.conn) ∉ after.subscriptions
  kept : ∀ position request, act = .reject position → before.inFlight[position]? = some request →
      entitled request.conn request.topic before.trace = true →
      (request.topic, request.conn) ∈ before.subscriptions →
        (request.topic, request.conn) ∈ after.subscriptions

/-- The request that installed the subscription has not settled, and no other
one was accepted. -/
def Broker.isPending (broker : Broker) (conn topic : Text) : Bool :=
  broker.inFlight.any
      (fun request => request.conn = conn && request.topic = topic && !request.already) &&
    !entitled conn topic broker.trace

/-- No event is published to a connection that waits for its first answer,
and no request is rejected while its connection is subscribed, unless it
installed the subscription itself and none was accepted. -/
def BrokerCondition (broker : Broker) : BrokerAct → Prop
  | .publish topic _ except refused =>
    ∀ conn ∈ broker.connections, broker.receives topic except refused conn = true →
        broker.isPending conn topic = false
  | .reject position =>
    ∀ request ∈ broker.inFlight[position]?,
      (request.topic, request.conn) ∈ broker.subscriptions → request.already = false ∧
          entitled request.conn request.topic broker.trace = false
  | _ => True

instance (broker : Broker) (act : BrokerAct) : Decidable (BrokerCondition broker act) :=
  match act with
  | .connect _ => inferInstanceAs (Decidable True)
  | .disconnect _ => inferInstanceAs (Decidable True)
  | .subscribe _ _ => inferInstanceAs (Decidable True)
  | .unsubscribe _ _ => inferInstanceAs (Decidable True)
  | .accept _ => inferInstanceAs (Decidable True)
  | .reject position =>
    inferInstanceAs (Decidable (∀ request ∈ broker.inFlight[position]?,
      (request.topic, request.conn) ∈ broker.subscriptions → request.already = false ∧
          entitled request.conn request.topic broker.trace = false))
  | .publish topic _ except refused =>
    inferInstanceAs (Decidable (∀ conn ∈ broker.connections,
      broker.receives topic except refused conn = true → broker.isPending conn topic = false))

end Aprovan.Realtime
