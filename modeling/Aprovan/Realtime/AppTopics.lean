import Aprovan.Library.Runs
import Aprovan.Library.Text

/-!
# Authorisation of app topics

The handler of app topics keeps, for every connection, the channels whose
events it may receive.  A computation of this set awaits at every question
whether the user may read a channel, and the last one to finish stores its
set.  Such a question is one step; `userOf` tells the user of a connection.
-/

namespace Aprovan.Realtime

open Aprovan.Library

/-- The entry of a connection in `authByConn`. -/
structure ConnAuth where
  (installId instanceId : Text)
  channelIds : List Text

/-- How far a computation has come: it lists the keys of the channels, asks
for each of them, and asks again for those it found. -/
inductive AuthPhase where
  | keys
  | listing (rest found : List Text)
  | reading (rest readable : List Text)
  deriving DecidableEq

/-- A computation in flight, of a subscribe or of the refresh `group`. -/
structure AuthTask where
  group : Option Nat
  (conn installId instanceId : Text)
  phase : AuthPhase
  deriving DecidableEq

/-- The channels that a computation has found readable so far. -/
def AuthTask.readable (task : AuthTask) : List Text :=
  match task.phase with
  | .reading _ readable => readable
  | _ => []

/-- `refreshAuthForInstall` in flight. -/
structure Refresh where
  id : Nat
  installId : Text
  covered : List Text
  failed : Bool

inductive TopicEvent where
  /-- A computation asked whether the user may read the channel. -/
  | saw (group : Option Nat) (user installId channelId : Text)
      (allowed : Bool)
  | finished (group : Nat)
  | delivered (conn installId channelId : Text)
  deriving DecidableEq

structure AppTopics where
  /-- Triples of a user, an install and a channel. -/
  canRead : List (Text × Text × Text)
  authByConn : List (Text × ConnAuth)
  (connsById connected known : List Text)
  /-- Connections whose disconnect handling has ended. -/
  gone : List Text
  tasks : List AuthTask
  refreshes : List Refresh
  nextGroup : Nat
  trace : List TopicEvent

def AppTopics.empty : AppTopics where
  canRead := []
  authByConn := []
  connsById := []
  connected := []
  known := []
  gone := []
  tasks := []
  refreshes := []
  nextGroup := 0
  trace := []

def AppTopics.authOf (topics : AppTopics) (conn : Text) : Option ConnAuth :=
  (topics.authByConn.find? fun entry => entry.1 = conn).map (·.2)

/-- `authByConn.set`. -/
def AppTopics.setAuth (topics : AppTopics) (conn : Text) (auth : ConnAuth) : AppTopics :=
  { topics with
    authByConn :=
      topics.authByConn.filter (fun entry => entry.1 ≠ conn) ++ [(conn, auth)] }

/-- The event passes `authorize` for a connection: the entry is one for the
install and has the channel. -/
def AppTopics.authorize (topics : AppTopics) (conn installId channelId : Text) : Bool :=
  match topics.authOf conn with
  | none => false
  | some auth => auth.installId = installId && channelId ∈ auth.channelIds

/-- The connections whose sets a refresh of the install computes. -/
def AppTopics.coveredBy (topics : AppTopics) (installId : Text) : List (Text × ConnAuth) :=
  topics.authByConn.filter fun entry => entry.2.installId = installId && entry.1 ∈ topics.connsById

inductive AppAct where
  | connect (conn : Text)
  | grant (user installId channelId : Text)
  | revoke (user installId channelId : Text)
  /-- The access checks of a subscribe have passed. -/
  | subscribe (conn installId instanceId : Text)
  | refresh (installId : Text)
  | listKeys (position : Nat) (channelIds : List Text)
  | ask (position : Nat)
  | store (position : Nat)
  | fail (position : Nat)
  | finish (group : Nat)
  /-- A message of the channel goes to the subscribers of the topic. -/
  | message (installId channelId : Text) (subscribers : List Text)
  | disconnect (conn : Text)
  | disconnected (conn : Text)

section

variable (userOf : Text → Text)

variable (topics : AppTopics)

/-- One question of a computation about the channel it names. -/
def AppTopics.askAbout (position : Nat) (task : AuthTask) (channelId : Text)
    (next : Bool → AuthPhase) :
    AppTopics :=
  let allowed :=
    decide ((userOf task.conn, task.installId, channelId) ∈ topics.canRead)
  { topics with
    tasks := advanceCall topics.tasks position { task with phase := next allowed }
    trace := topics.trace ++
      [.saw task.group (userOf task.conn) task.installId channelId allowed] }

/-- The next question of a computation; after the list comes the set. -/
def AppTopics.askNext (position : Nat) (task : AuthTask) : Option AppTopics :=
  match task.phase with
  | .keys => none
  | .listing (channelId :: rest) found =>
    some (topics.askAbout userOf position task channelId fun allowed =>
      .listing rest (if allowed then found ++ [channelId] else found))
  | .listing [] found =>
    some { topics with
      tasks := advanceCall topics.tasks position { task with phase := .reading found [] } }
  | .reading (channelId :: rest) readable =>
    some (topics.askAbout userOf position task channelId fun allowed =>
      .reading rest (if allowed then readable ++ [channelId] else readable))
  | .reading [] _ => none

/-- `cacheAuth`. -/
def AppTopics.storeTask (position : Nat) (task : AuthTask) : Option AppTopics :=
  match task.phase with
  | .reading [] readable =>
    some { topics.setAuth task.conn ⟨task.installId, task.instanceId, readable⟩ with
        tasks := finishCall topics.tasks position }
  | _ => none

/-- A refresh whose computations have all ended; it returns if none of them
threw. -/
def AppTopics.finishRefresh (refresh : Refresh) : AppTopics :=
  { topics with
    refreshes := topics.refreshes.filter fun other => other.id ≠ refresh.id
    trace := topics.trace ++ if refresh.failed then [] else [.finished refresh.id] }

def AppTopics.failTask (position : Nat) (task : AuthTask) : AppTopics :=
  { topics with
    tasks := finishCall topics.tasks position
    refreshes := topics.refreshes.map fun refresh =>
      if task.group = some refresh.id then { refresh with failed := true } else refresh }

def AppTopics.startRefresh (installId : Text) : AppTopics :=
  let covered := topics.coveredBy installId
  { topics with
    refreshes := topics.refreshes ++ [⟨topics.nextGroup, installId, covered.map (·.1), false⟩]
    tasks := topics.tasks ++ covered.map fun entry =>
      ⟨some topics.nextGroup, entry.1, installId, entry.2.instanceId, .keys⟩
    nextGroup := topics.nextGroup + 1 }

def appStep : AppAct → Option AppTopics
  | .connect conn =>
    if conn ∈ topics.known then none
    else
      some { topics with
        connected := topics.connected ++ [conn]
        known := topics.known ++ [conn] }
  | .grant user installId channelId =>
    some { topics with
      canRead := topics.canRead ++ [(user, installId, channelId)] }
  | .revoke user installId channelId =>
    some { topics with
      canRead := topics.canRead.filter (· ≠ (user, installId, channelId)) }
  | .subscribe conn installId instanceId =>
    if conn ∈ topics.known then
      some { topics with
        connsById := topics.connsById ++ [conn]
        tasks := topics.tasks ++ [⟨none, conn, installId, instanceId, .keys⟩] }
    else none
  | .refresh installId => some (topics.startRefresh installId)
  | .listKeys position channelIds =>
    topics.tasks[position]?.bind fun task =>
      if task.phase = .keys then
        some { topics with
          tasks := advanceCall topics.tasks position
            { task with phase := .listing channelIds [] } }
      else none
  | .ask position => topics.tasks[position]?.bind (topics.askNext userOf position)
  | .store position => topics.tasks[position]?.bind (topics.storeTask position)
  | .fail position => topics.tasks[position]?.map (topics.failTask position)
  | .finish group =>
    (topics.refreshes.find? fun refresh => refresh.id = group).bind
      fun refresh =>
        if topics.tasks.any fun task => task.group = some group then none
        else some (topics.finishRefresh refresh)
  | .message installId channelId subscribers =>
    some { topics with
      trace := topics.trace ++
        (subscribers.filter fun conn =>
          conn ∈ topics.connected && topics.authorize conn installId channelId).map
          fun conn => .delivered conn installId channelId }
  | .disconnect conn =>
    if conn ∈ topics.connected then
      some { topics with
        connected := topics.connected.filter (· ≠ conn) }
    else none
  | .disconnected conn =>
    if conn ∈ topics.known ∧ conn ∉ topics.connected ∧ conn ∉ topics.gone then
      some { topics with
        authByConn := topics.authByConn.filter fun entry => entry.1 ≠ conn
        connsById := topics.connsById.filter (· ≠ conn)
        gone := topics.gone ++ [conn] }
    else none

/-- What the computations have seen of a user and a channel: the refreshes
that found the user not allowed since anyone last found him allowed, and
whether one of them has returned. -/
structure Seen where
  byRefreshes : List Nat
  revoked : Bool

def Seen.after (user installId channelId : Text) (seen : Seen) : TopicEvent → Seen
  | .saw group other install channel allowed =>
    if other = user ∧ install = installId ∧ channel = channelId then
      if allowed then ⟨[], false⟩
      else
        match group with
        | some refresh => ⟨refresh :: seen.byRefreshes, seen.revoked⟩
        | none => seen
    else seen
  | .finished group => ⟨seen.byRefreshes, seen.revoked || group ∈ seen.byRefreshes⟩
  | .delivered _ _ _ => seen

def seenOf (user installId channelId : Text) (trace : List TopicEvent) : Seen :=
  trace.foldl (Seen.after user installId channelId) ⟨[], false⟩

/-- The law for one step: no message goes to a user whose removal a finished
refresh has seen, and the table has no entry for a connection that is
gone. -/
structure RevocationLaw (before after : AppTopics) : Prop where
  delivered : ∀ conn installId channelId, .delivered conn installId channelId ∈
        after.trace.drop before.trace.length →
      (seenOf (userOf conn) installId channelId before.trace).revoked = false
  absent : ∀ conn ∈ after.gone, ∀ entry ∈ after.authByConn, entry.1 ≠ conn

/-- No refresh that covers a connection of the user is in flight, and no
subscribe of one that has found the channel readable. -/
def undisturbed (user installId channelId : Text) : Bool :=
  (topics.refreshes.all fun refresh => refresh.covered.all fun conn => userOf conn ≠ user) &&
  topics.tasks.all fun task =>
    !(task.group = none && userOf task.conn = user &&
      task.installId = installId && channelId ∈ task.readable)

/-- A user is removed from a channel while none of his sets is being
computed, and no set is stored for a connection that is gone. -/
def AppCondition : AppAct → Prop
  | .revoke user installId channelId => undisturbed userOf topics user installId channelId = true
  | .store position => ∀ task ∈ topics.tasks[position]?, task.conn ∉ topics.gone
  | _ => True

instance (topics : AppTopics) (act : AppAct) : Decidable (AppCondition userOf topics act) :=
  match act with
  | .revoke user installId channelId =>
    inferInstanceAs (Decidable (undisturbed userOf topics user installId channelId = true))
  | .store position =>
    inferInstanceAs (Decidable (∀ task ∈ topics.tasks[position]?, task.conn ∉ topics.gone))
  | .connect _ => inferInstanceAs (Decidable True)
  | .grant _ _ _ => inferInstanceAs (Decidable True)
  | .subscribe _ _ _ => inferInstanceAs (Decidable True)
  | .refresh _ => inferInstanceAs (Decidable True)
  | .listKeys _ _ => inferInstanceAs (Decidable True)
  | .ask _ => inferInstanceAs (Decidable True)
  | .fail _ => inferInstanceAs (Decidable True)
  | .finish _ => inferInstanceAs (Decidable True)
  | .message _ _ _ => inferInstanceAs (Decidable True)
  | .disconnect _ => inferInstanceAs (Decidable True)
  | .disconnected _ => inferInstanceAs (Decidable True)

end

end Aprovan.Realtime
