import Aprovan.Library.Keyed
import Aprovan.Library.Process
import Aprovan.Sandboxes.Service
import Aprovan.Server.RecordStore

/-!
# The queue of scheduled runs

The record store holds the runs that are not yet done, each under one key made
of its image, its time and its id, and has no compare-and-set.  The runs are
those of one workspace.  Each statement is atomic and may be refused; between
two of them other calls go on, the clock moves, and entries past their time to
live disappear.
-/

namespace Aprovan.Sandboxes.Queue

open Aprovan.Library Aprovan.Server

inductive SandboxRunStatus where
  | pending
  | claimed
  | running
  | succeeded
  | failed
  | cancelled
  deriving DecidableEq

/-- A run with what the queue reads and writes. -/
structure QueuedRun extends SandboxRun where
  /-- `requires.tools`. -/
  tools : List Text
  status : SandboxRunStatus
  (hostId sandboxId workflowRunId agentRunId : Option Text)
  error : Option Text
  createdAt : Text
  (claimedAt finishedAt : Option Text)

structure SandboxHostRecord where
  id : Text
  images : Option (List Text)
  verifiedImages : Option (List Text)
  tools : Option (List Text)

/-- `image.replace(/^@/u, "").replaceAll("/", "~")`. -/
def imageKey (image : Text) : Text :=
  (if image.head? = some '@' then image.tail else image).map fun letter =>
    if letter = '/' then '~' else letter

def queueKey (run : QueuedRun) : Text :=
  imageKey run.image ++ '/' :: run.createdAt ++ '/' :: run.id

structure QueueEntry where
  run : QueuedRun
  expiresAt : Nat

def QueueEntry.key (entry : QueueEntry) : Text :=
  queueKey entry.run

/-- The clock counts milliseconds. -/
structure QueueStores where
  clock : Nat
  queue : Keyed QueueEntry.key
  history : Keyed fun run : QueuedRun => run.id

inductive QueueStatement where
  | now
  /-- `new Date().toISOString()`. -/
  | timestamp
  | listQueue (keyPrefix : Text)
  | getQueued (key : Text)
  | setQueued (entry : QueueEntry)
  | deleteQueued (key : Text)
  | writeHistory (run : QueuedRun)

abbrev QueueStatement.Answer : QueueStatement → Type
  | .now => Nat
  | .timestamp => Text
  | .listQueue _ => List Text
  | .getQueued _ => Option QueuedRun
  | .setQueued _ => Unit
  | .deleteQueued _ => Bool
  | .writeHistory _ => Unit

inductive QueueFailure where
  /-- A statement was refused. -/
  | store
  | service (error : ServiceError)

abbrev QueueCall := Process QueueStatement.Answer QueueFailure

def query (statement : QueueStatement) : QueueCall statement.Answer :=
  Process.perform statement

def queueTtlSeconds : Nat := 24 * 60 * 60

def writeQueued (run : QueuedRun) : QueueCall Unit := do
  let now ← query .now
  query (.setQueued ⟨run, now / 1000 + queueTtlSeconds⟩)

/-- The id is minted from a random UUID. -/
def enqueueRun (id : Text) (run : QueuedRun) : QueueCall QueuedRun := do
  let createdAt ← query .timestamp
  let queued : QueuedRun :=
    { run with id := id, status := .pending, createdAt := createdAt }
  writeQueued queued
  pure queued

def endsWithId (id key : Text) : Bool :=
  ('/' :: id).isSuffixOf key

def firstQueued (id : Text) : List Text → QueueCall (Option QueuedRun)
  | [] => pure none
  | key :: keys =>
    if endsWithId id key then do
      match ← query (.getQueued key) with
      | some run => pure (some run)
      | none => firstQueued id keys
    else firstQueued id keys

def readQueuedRun (id : Text) : QueueCall (Option QueuedRun) := do
  let keys ← query (.listQueue [])
  firstQueued id keys

def updateQueuedRun (run : QueuedRun) : QueueCall Unit :=
  writeQueued run

structure RunOutcome where
  status : SandboxRunStatus
  (error workflowRunId agentRunId : Option Text)

/-- The run goes to the history; the deletion of its entry is best effort. -/
def finishRun (run : QueuedRun) (outcome : RunOutcome) : QueueCall QueuedRun := do
  let finishedAt ← query .timestamp
  let finished : QueuedRun :=
    { run with
      status := outcome.status
      error := outcome.error.filter (· ≠ []) <|> run.error
      workflowRunId :=
        outcome.workflowRunId.filter (· ≠ []) <|> run.workflowRunId
      agentRunId := outcome.agentRunId.filter (· ≠ []) <|> run.agentRunId
      finishedAt := some finishedAt }
  query (.writeHistory finished)
  let _ ← (query (.deleteQueued (queueKey run))).rescue fun _ => pure false
  pure finished

def SandboxRunStatus.name : SandboxRunStatus → Text
  | .pending => "pending".toList
  | .claimed => "claimed".toList
  | .running => "running".toList
  | .succeeded => "succeeded".toList
  | .failed => "failed".toList
  | .cancelled => "cancelled".toList

def unknownRun (id : Text) : ServiceError where
  message := "Unknown or already-finished run: ".toList ++ id
  status := 404

def alreadyTaken (id : Text) (status : SandboxRunStatus) : ServiceError where
  message :=
    "Run ".toList ++ id ++ " is ".toList ++ status.name ++
      (" — a host already took it, so cancelling would leave the sandbox " ++ "orphaned").toList
  status := 409

def cancelRun (id : Text) : QueueCall QueuedRun := do
  if isSandboxId id = false then Process.raise (.service badSandboxId)
  else
    match ← readQueuedRun id with
    | none => Process.raise (.service (unknownRun id))
    | some run =>
      if run.status ≠ .pending then Process.raise (.service (alreadyTaken id run.status))
      else finishRun run ⟨.cancelled, none, none, none⟩

def hostImages (host : SandboxHostRecord) : List Text :=
  (host.verifiedImages <|> host.images).getD []

def hostSatisfies (host : SandboxHostRecord) (run : QueuedRun) : Bool :=
  (hostImages host).contains run.image &&
    run.tools.all fun tool => (host.tools.getD []).contains tool

def claimEntry (host : SandboxHostRecord) (key : Text) : QueueCall (Option QueuedRun) := do
  match ← query (.getQueued key) with
  | none => pure none
  | some run =>
    if run.status = .pending && hostSatisfies host run then do
      let claimedAt ← query .timestamp
      writeQueued { run with
        status := .claimed, hostId := some host.id,
        claimedAt := some claimedAt }
      let readBack ← query (.getQueued key)
      pure (readBack.filter fun stored => stored.hostId = some host.id)
    else pure none

def claimFirst (host : SandboxHostRecord) : List Text → QueueCall (Option QueuedRun)
  | [] => pure none
  | key :: keys => do
      match ← claimEntry host key with
      | some run => pure (some run)
      | none => claimFirst host keys

def claimImages (host : SandboxHostRecord) : List Text → QueueCall (Option QueuedRun)
  | [] => pure none
  | image :: images => do
      let keys ← query (.listQueue (imageKey image ++ ['/']))
      match ← claimFirst host (sortTexts keys) with
      | some run => pure (some run)
      | none => claimImages host images

/-- The polls of `claimRun`; `rounds` bounds how often it wakes up before the
deadline. -/
def pollQueue (host : SandboxHostRecord) (deadline : Nat) : Nat → QueueCall (Option QueuedRun)
  | 0 => claimImages host (hostImages host)
  | rounds + 1 => do
      match ← claimImages host (hostImages host) with
      | some run => pure (some run)
      | none =>
        let now ← query .now
        if deadline ≤ now then pure none else pollQueue host deadline rounds

def maxClaimWaitMs : Nat := 25000

def claimRun (rounds : Nat) (host : SandboxHostRecord) (maxWaitMs : Option Nat) :
    QueueCall (Option QueuedRun) := do
  if hostImages host = [] then pure none
  else
    let now ← query .now
    pollQueue host (now + min (maxWaitMs.getD maxClaimWaitMs) maxClaimWaitMs) rounds

section

variable (backend : RecordBackend) (toISOString : Nat → Text)

def answerStatement : (statement : QueueStatement) → QueueStores → statement.Answer × QueueStores
  | .now, stores => (stores.clock, stores)
  | .timestamp, stores => (toISOString stores.clock, stores)
  | .listQueue keyPrefix, stores =>
    (sortTexts ((stores.queue.rows.map QueueEntry.key).filter
      (backend.selectsKey keyPrefix)), stores)
  | .getQueued key, stores => ((stores.queue.find? key).map QueueEntry.run, stores)
  | .setQueued entry, stores => ((), { stores with queue := stores.queue.put entry })
  | .deleteQueued key, stores =>
    ((stores.queue.find? key).isSome, { stores with queue := stores.queue.erase key })
  | .writeHistory run, stores => ((), { stores with history := stores.history.put run })

def readsClock : QueueStatement → Bool
  | .now => true
  | .timestamp => true
  | _ => false

def executeStatement (refused : Bool) (statement : QueueStatement) (stores : QueueStores) :
    Except QueueFailure statement.Answer × QueueStores :=
  if refused && !readsClock statement then (.error .store, stores)
  else
    (.ok (answerStatement backend toISOString statement stores).1,
      (answerStatement backend toISOString statement stores).2)

end

end Aprovan.Sandboxes.Queue
