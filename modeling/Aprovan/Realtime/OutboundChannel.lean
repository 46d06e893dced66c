import Aprovan.Library.DropOldest
import Aprovan.Library.Text

/-!
# The outbound channel

Events wait in a bounded drop-oldest queue until a flush; every other frame is
written at once.  A flush that finds the socket's buffer above the mark holds
the queue, and after too many held flushes the channel closes the socket.  The
channel refines the abstract `ChannelLog`.
-/

namespace Aprovan.Realtime

open Aprovan.Library

structure EventFrame where
  (topic body : Text)

/-- Bodies are JSON texts. -/
inductive ServerMessage where
  | subscribed (topic : Text) (body : Option Text)
  | event (frame : EventFrame)
  | error (code message : Text) (topic : Option Text)

/-- Every frame but an event takes the priority path. -/
def ServerMessage.isControl : ServerMessage → Bool
  | .event _ => false
  | _ => true

structure ChannelConfig where
  (queueLimit highWaterMark maxFullFlushes : Nat)

/-- The channel and its socket: what was written to it, and the closes that
the channel asked for. -/
structure OutboundChannel where
  queue : List EventFrame
  consecutiveFullFlushes : Nat
  isOpen : Bool
  bufferedAmount : Nat
  sent : List ServerMessage
  closes : List (Nat × Text)

def OutboundChannel.empty : OutboundChannel where
  queue := []
  consecutiveFullFlushes := 0
  isOpen := true
  bufferedAmount := 0
  sent := []
  closes := []

variable (config : ChannelConfig) (channel : OutboundChannel)

/-- `ws.send`. -/
def OutboundChannel.write (msg : ServerMessage) : OutboundChannel :=
  { channel with sent := channel.sent ++ [msg] }

/-- `ws.close`; from then on the socket is not open. -/
def OutboundChannel.close (code : Nat) (reason : Text) : OutboundChannel :=
  { channel with
    isOpen := false
    closes := channel.closes ++ [(code, reason)] }

/-- The close of a slow client. -/
def sendBufferFull : Nat × Text := (1013, "send buffer full".toList)

def OutboundChannel.send (msg : ServerMessage) : OutboundChannel :=
  if channel.isOpen then
    match msg with
    | .event frame =>
      { channel with
        queue := pushDropOldest config.queueLimit channel.queue frame }
    | other => channel.write other
  else channel

/-- Write the frames of a batch until the socket is not open any more.  The
socket may close while a frame is being sent: `closesAt` counts the frames
before that one. -/
def OutboundChannel.writeBatch : Option Nat → OutboundChannel → List EventFrame → OutboundChannel
  | _, channel, [] => channel
  | closesAt, channel, frame :: rest =>
    if channel.isOpen then
      let after := channel.write (.event frame)
      match closesAt with
      | some 0 => writeBatch none { after with isOpen := false } rest
      | some (more + 1) => writeBatch (some more) after rest
      | none => writeBatch none after rest
    else channel

def OutboundChannel.flush (closesAt : Option Nat) : OutboundChannel :=
  if !channel.isOpen then channel
  else if channel.queue = [] then { channel with consecutiveFullFlushes := 0 }
  else if config.highWaterMark < channel.bufferedAmount then
    let held :=
      { channel with
        consecutiveFullFlushes := channel.consecutiveFullFlushes + 1 }
    if config.maxFullFlushes ≤ held.consecutiveFullFlushes then
      held.close sendBufferFull.1 sendBufferFull.2
    else held
  else writeBatch closesAt { channel with consecutiveFullFlushes := 0, queue := [] } channel.queue

/-- What happens to a channel: a send, a flush of the timer, a change of the
socket's buffered amount, or a close from elsewhere. -/
inductive ChannelOp where
  | send (msg : ServerMessage)
  | flush (closesAt : Option Nat)
  | buffered (amount : Nat)
  | socketClosed

def channelStep : ChannelOp → OutboundChannel
  | .send msg => channel.send config msg
  | .flush closesAt => channel.flush config closesAt
  | .buffered amount => { channel with bufferedAmount := amount }
  | .socketClosed => { channel with isOpen := false }

def runChannel (ops : List ChannelOp) : OutboundChannel :=
  ops.foldl (channelStep config) .empty

/-- The abstract channel. -/
structure ChannelLog where
  isOpen : Bool
  bufferedAmount : Nat
  /-- All events pushed since the last drain. -/
  pushed : List EventFrame
  /-- The held flushes since the last flush that was not held. -/
  heldInARow : Nat
  sent : List ServerMessage

def ChannelLog.empty : ChannelLog where
  isOpen := true
  bufferedAmount := 0
  pushed := []
  heldInARow := 0
  sent := []

/-- The flush finds events and a full buffer. -/
def ChannelLog.isHeld (log : ChannelLog) : Bool :=
  log.isOpen && log.pushed ≠ [] && config.highWaterMark < log.bufferedAmount

/-- The flush finds events and room for them. -/
def ChannelLog.isDrain (log : ChannelLog) : Bool :=
  log.isOpen && log.pushed ≠ [] && !(config.highWaterMark < log.bufferedAmount)

def sentOf (closesAt : Option Nat) (batch : List EventFrame) : Nat :=
  match closesAt with
  | none => batch.length
  | some before => min (before + 1) batch.length

def interrupts (closesAt : Option Nat) (batch : List EventFrame) : Bool :=
  closesAt.any (· < batch.length)

def logStep (log : ChannelLog) : ChannelOp → ChannelLog
  | .send msg =>
    if log.isOpen then
      match msg with
      | .event frame => { log with pushed := log.pushed ++ [frame] }
      | other => { log with sent := log.sent ++ [other] }
    else log
  | .flush closesAt =>
    if log.isHeld config then
      { log with
        heldInARow := log.heldInARow + 1
        isOpen := log.heldInARow + 1 < config.maxFullFlushes }
    else if log.isDrain config then
      let batch := log.pushed.rtake config.queueLimit
      { log with
        heldInARow := 0
        pushed := []
        sent := log.sent ++ (batch.take (sentOf closesAt batch)).map .event
        isOpen := !interrupts closesAt batch }
    else if log.isOpen then { log with heldInARow := 0 }
    else log
  | .buffered amount => { log with bufferedAmount := amount }
  | .socketClosed => { log with isOpen := false }

def runLog (ops : List ChannelOp) : ChannelLog :=
  ops.foldl (logStep config) .empty

/-- The channel shows what the log says. -/
structure Refines (log : ChannelLog) : Prop where
  isOpen : channel.isOpen = log.isOpen
  bufferedAmount : channel.bufferedAmount = log.bufferedAmount
  queue : channel.queue = log.pushed.rtake config.queueLimit
  held : channel.consecutiveFullFlushes = log.heldInARow
  sent : channel.sent = log.sent

theorem refines_empty : Refines config .empty .empty where
  isOpen := rfl
  bufferedAmount := rfl
  queue := (List.rtake_nil config.queueLimit).symm
  held := rfl
  sent := rfl

theorem writeBatch_eq (closesAt : Option Nat) (channel : OutboundChannel)
    (batch : List EventFrame) (opened : channel.isOpen = true) :
    channel.writeBatch closesAt batch =
      { channel with
        sent := channel.sent ++ (batch.take (sentOf closesAt batch)).map .event
        isOpen := !interrupts closesAt batch } := by
  induction batch generalizing closesAt channel with
  | nil =>
    cases closesAt <;>
      simp [OutboundChannel.writeBatch, sentOf, interrupts, ← opened]
  | cons frame rest ih =>
    rw [OutboundChannel.writeBatch, if_pos opened]
    cases closesAt with
    | none =>
      have remaining := ih none (channel.write (.event frame)) opened
      simp only [remaining]
      simp [OutboundChannel.write, sentOf, interrupts]
    | some before =>
      cases before with
      | zero =>
        cases rest with
        | nil => simp [OutboundChannel.writeBatch, OutboundChannel.write, sentOf, interrupts]
        | cons second others =>
          simp [OutboundChannel.writeBatch, OutboundChannel.write, sentOf, interrupts]
      | succ more =>
        have remaining := ih (some more) (channel.write (.event frame)) opened
        simp only [remaining]
        simp [OutboundChannel.write, sentOf, interrupts]

section

variable {config : ChannelConfig} {channel : OutboundChannel}
  {log : ChannelLog} (refines : Refines config channel log)
  (positive : 0 < config.queueLimit)

include refines positive

/-- The queue is empty exactly when nothing was pushed since the drain. -/
theorem Refines.queue_eq_nil_iff : channel.queue = [] ↔ log.pushed = [] := by
  rw [refines.queue]
  exact rtake_eq_nil_iff positive log.pushed

theorem refines_send (msg : ServerMessage) :
    Refines config (channelStep config channel (.send msg)) (logStep config log (.send msg)) := by
  simp only [channelStep, OutboundChannel.send, logStep]
  by_cases opened : log.isOpen = true
  · have channelOpen : channel.isOpen = true := refines.isOpen.trans opened
    rw [if_pos channelOpen, if_pos opened]
    cases msg with
    | event frame =>
      refine ⟨refines.isOpen, refines.bufferedAmount, ?_, refines.held, refines.sent⟩
      simp only [refines.queue]
      exact pushDropOldest_rtake positive log.pushed frame
    | subscribed topic body =>
      refine ⟨refines.isOpen, refines.bufferedAmount, refines.queue, refines.held, ?_⟩
      simp only [OutboundChannel.write, refines.sent]
    | error code message topic =>
      refine ⟨refines.isOpen, refines.bufferedAmount, refines.queue, refines.held, ?_⟩
      simp only [OutboundChannel.write, refines.sent]
  · have channelClosed : ¬ channel.isOpen = true := by
      rw [refines.isOpen]
      exact opened
    rw [if_neg channelClosed, if_neg opened]
    exact refines

theorem flush_cases (closesAt : Option Nat) :
    (log.isOpen = false ∧ channel.flush config closesAt = channel) ∨
    (log.isOpen = true ∧ log.pushed = [] ∧ channel.flush config closesAt =
        { channel with consecutiveFullFlushes := 0 }) ∨
    (log.isHeld config = true ∧ channel.flush config closesAt =
        if config.maxFullFlushes ≤ channel.consecutiveFullFlushes + 1 then
          ({ channel with
            consecutiveFullFlushes :=
              channel.consecutiveFullFlushes + 1 } :
                OutboundChannel).close sendBufferFull.1 sendBufferFull.2
        else
          { channel with
            consecutiveFullFlushes :=
              channel.consecutiveFullFlushes + 1 }) ∨
    (log.isHeld config = false ∧ log.isDrain config = true ∧ channel.flush config closesAt =
        { channel with
          consecutiveFullFlushes := 0
          queue := []
          sent := channel.sent ++ (channel.queue.take (sentOf closesAt channel.queue)).map .event
          isOpen := !interrupts closesAt channel.queue }) := by
  unfold OutboundChannel.flush ChannelLog.isHeld ChannelLog.isDrain
  have empty := refines.queue_eq_nil_iff positive
  cases opened : log.isOpen with
  | false =>
    left
    simp [refines.isOpen, opened]
  | true =>
    right
    have channelOpen : channel.isOpen = true := refines.isOpen.trans opened
    rw [if_neg (by simp [channelOpen])]
    by_cases nothing : log.pushed = []
    · left
      exact ⟨rfl, nothing, if_pos (empty.mpr nothing)⟩
    · right
      rw [if_neg (mt empty.mp nothing)]
      by_cases full : config.highWaterMark < log.bufferedAmount
      · left
        refine ⟨by simp [nothing, full], ?_⟩
        rw [if_pos (by rw [refines.bufferedAmount]; exact full)]
      · right
        refine ⟨by simp [full], by simp [nothing, full], ?_⟩
        rw [if_neg (by rw [refines.bufferedAmount]; exact full)]
        exact writeBatch_eq _ _ _ channelOpen

theorem refines_flush (closesAt : Option Nat) :
    Refines config (channelStep config channel (.flush closesAt))
      (logStep config log (.flush closesAt)) := by
  simp only [channelStep, logStep]
  rcases flush_cases refines positive closesAt with
    ⟨closed, flushed⟩ | ⟨opened, nothing, flushed⟩ | ⟨held, flushed⟩ |
      ⟨free, drain, flushed⟩
  · rw [flushed]
    simpa [ChannelLog.isHeld, ChannelLog.isDrain, closed] using refines
  · rw [flushed]
    simp only [ChannelLog.isHeld, ChannelLog.isDrain, opened, nothing,
      Bool.true_and, ne_eq, not_true_eq_false, decide_false,
      Bool.false_and, Bool.false_eq_true, if_false, if_true]
    refine ⟨refines.isOpen.trans opened, refines.bufferedAmount, ?_, rfl, refines.sent⟩
    rw [refines.queue, nothing]
  · rw [flushed, if_pos held, refines.held]
    have opened : log.isOpen = true := by
      simp only [ChannelLog.isHeld, Bool.and_eq_true] at held
      exact held.1.1
    split
    · rename_i reached
      refine ⟨?_, refines.bufferedAmount, refines.queue, rfl, refines.sent⟩
      simp [OutboundChannel.close, Nat.not_lt.mpr reached]
    · rename_i below
      refine ⟨?_, refines.bufferedAmount, refines.queue, rfl, refines.sent⟩
      simp [refines.isOpen, opened, Nat.not_le.mp below]
  · rw [flushed, if_neg (by simp [free]), if_pos drain]
    refine ⟨?_, refines.bufferedAmount, ?_, rfl, ?_⟩
    · simp only [refines.queue]
    · exact (List.rtake_nil config.queueLimit).symm
    · simp only [refines.queue, refines.sent]

theorem refines_step (op : ChannelOp) :
    Refines config (channelStep config channel op) (logStep config log op) := by
  cases op with
  | send msg => exact refines_send refines positive msg
  | flush closesAt => exact refines_flush refines positive closesAt
  | buffered amount => exact ⟨refines.isOpen, rfl, refines.queue, refines.held, refines.sent⟩
  | socketClosed => exact ⟨rfl, refines.bufferedAmount, refines.queue, refines.held, refines.sent⟩

end

theorem refines_run (config : ChannelConfig) (positive : 0 < config.queueLimit)
    (ops : List ChannelOp) :
    Refines config (runChannel config ops) (runLog config ops) := by
  have generalized : ∀ (channel : OutboundChannel) (log : ChannelLog),
      Refines config channel log → Refines config (ops.foldl (channelStep config) channel)
          (ops.foldl (logStep config) log) := by
    induction ops with
    | nil =>
      intro channel log refines
      exact refines
    | cons op rest ih =>
      intro channel log refines
      exact ih _ _ (refines_step refines positive op)
  exact generalized _ _ (refines_empty config)

/-- The held flush that reaches the documented number closes the socket; a
number of zero counts as one. -/
def reachesLimit (config : ChannelConfig) (log : ChannelLog) : ChannelOp → Bool
  | .flush _ => log.isHeld config && log.heldInARow + 1 = max config.maxFullFlushes 1
  | _ => false

/-- After any operations: what was written, what the queue holds, and what
any next operation does. -/
structure DeliversInOrder (config : ChannelConfig) (ops : List ChannelOp) : Prop where
  written : (runChannel config ops).sent = (runLog config ops).sent
  bounded : (runChannel config ops).queue.length ≤ config.queueLimit
  control : ∀ msg, msg.isControl = true → (runChannel config ops).isOpen = true →
    (runChannel config (ops ++ [.send msg])).sent = (runChannel config ops).sent ++ [msg]
  pushed : ∀ frame, (runChannel config ops).isOpen = true →
    (runLog config (ops ++ [.send (.event frame)])).pushed = (runLog config ops).pushed ++ [frame]
  drained : ∀ closesAt, (runLog config ops).isDrain config = true → ∃ batch unwritten,
      batch ++ unwritten = (runLog config ops).pushed.rtake config.queueLimit ∧
        (runChannel config (ops ++ [.flush closesAt])).sent =
          (runChannel config ops).sent ++ batch.map .event ∧
        (runLog config (ops ++ [.flush closesAt])).pushed = [] ∧
        -- only a socket that closes on the way leaves frames unwritten
        (unwritten ≠ [] → (runChannel config (ops ++ [.flush closesAt])).isOpen = false) ∧
        (closesAt = none → unwritten = [])
  nothingElse : ∀ op, (runChannel config (ops ++ [op])).sent ≠ (runChannel config ops).sent →
      (∃ msg, op = .send msg ∧ msg.isControl = true) ∨ (∃ closesAt, op = .flush closesAt ∧
          (runLog config ops).isDrain config = true)
  closed : (runChannel config ops).isOpen = false → ∀ op,
    (runChannel config (ops ++ [op])).isOpen = false ∧
      (runChannel config (ops ++ [op])).sent = (runChannel config ops).sent
  closes : ∀ op, (runChannel config (ops ++ [op])).closes =
        (if reachesLimit config (runLog config ops) op then
          (runChannel config ops).closes ++ [sendBufferFull]
        else (runChannel config ops).closes) ∧
      (reachesLimit config (runLog config ops) op = true →
        (runChannel config (ops ++ [op])).isOpen = false)

section

variable (config : ChannelConfig) (ops : List ChannelOp)

theorem runChannel_append (op : ChannelOp) :
    runChannel config (ops ++ [op]) = channelStep config (runChannel config ops) op := by
  simp [runChannel]

theorem runLog_append (op : ChannelOp) :
    runLog config (ops ++ [op]) = logStep config (runLog config ops) op := by
  simp [runLog]

/-- While the socket is open, the held flushes stay below the number that
closes it. -/
theorem heldInARow_lt :
    (runLog config ops).isOpen = true →
      (runLog config ops).heldInARow < max config.maxFullFlushes 1 := by
  induction ops using List.reverseRecOn with
  | nil =>
    intro _
    show 0 < max config.maxFullFlushes 1
    omega
  | append_singleton ops op ih =>
    rw [runLog_append]
    intro opened
    cases op with
    | send msg =>
      unfold logStep at opened ⊢
      simp only at opened ⊢
      by_cases wasOpen : (runLog config ops).isOpen = true
      · rw [if_pos wasOpen]
        have below := ih wasOpen
        cases msg <;> exact below
      · rw [if_neg wasOpen] at opened
        exact absurd opened wasOpen
    | flush closesAt =>
      unfold logStep at opened ⊢
      simp only at opened ⊢
      by_cases held : (runLog config ops).isHeld config = true
      · rw [if_pos held] at opened ⊢
        simp only [decide_eq_true_eq] at opened
        exact lt_of_lt_of_le opened (Nat.le_max_left _ _)
      rw [if_neg held] at opened ⊢
      by_cases drain : (runLog config ops).isDrain config = true
      · rw [if_pos drain]
        exact lt_of_lt_of_le Nat.zero_lt_one (Nat.le_max_right _ _)
      rw [if_neg drain] at opened ⊢
      by_cases wasOpen : (runLog config ops).isOpen = true
      · rw [if_pos wasOpen]
        exact lt_of_lt_of_le Nat.zero_lt_one (Nat.le_max_right _ _)
      · rw [if_neg wasOpen] at opened
        exact absurd opened wasOpen
    | buffered amount => exact ih opened
    | socketClosed => cases opened

/-- The number is reached by the flush that brings the streak to it. -/
theorem reachesLimit_iff (closesAt : Option Nat) (held : (runLog config ops).isHeld config = true) :
    reachesLimit config (runLog config ops) (.flush closesAt) = true ↔
      config.maxFullFlushes ≤ (runLog config ops).heldInARow + 1 := by
  have opened : (runLog config ops).isOpen = true := by
    simp only [ChannelLog.isHeld, Bool.and_eq_true] at held
    exact held.1.1
  have below := heldInARow_lt config ops opened
  simp only [reachesLimit, held, Bool.true_and, decide_eq_true_eq]
  omega

end

theorem not_reachesLimit (config : ChannelConfig) {log : ChannelLog}
    (free : log.isHeld config = false) (closesAt : Option Nat) :
    reachesLimit config log (.flush closesAt) = false := by
  simp [reachesLimit, free]

/-- Over every limit of at least one and every sequence of operations the
channel delivers in order and in bound. -/
theorem channel_delivers (config : ChannelConfig) (positive : 0 < config.queueLimit)
    (ops : List ChannelOp) : DeliversInOrder config ops := by
  have refines := refines_run config positive ops
  constructor
  case written =>
    exact refines.sent
  case bounded =>
    rw [refines.queue]
    exact length_rtake_le _ _
  case control =>
    intro msg control opened
    rw [runChannel_append]
    simp only [channelStep, OutboundChannel.send]
    rw [if_pos opened]
    cases msg with
    | event frame => cases control
    | subscribed topic body => rfl
    | error code message topic => rfl
  case pushed =>
    intro frame opened
    rw [runLog_append]
    simp only [logStep]
    rw [if_pos (refines.isOpen.symm.trans opened)]
  case drained =>
    intro closesAt drain
    rw [runChannel_append, runLog_append]
    have opened : (runLog config ops).isOpen = true := by
      simp only [ChannelLog.isDrain, Bool.and_eq_true] at drain
      exact drain.1.1
    have nonempty : (runLog config ops).pushed ≠ [] := by
      simp only [ChannelLog.isDrain, Bool.and_eq_true, decide_eq_true_eq] at drain
      exact drain.1.2
    have room : (runLog config ops).isHeld config = false := by
      simp only [ChannelLog.isDrain, Bool.and_eq_true, Bool.not_eq_true'] at drain
      simp only [ChannelLog.isHeld, drain.2, Bool.and_false]
    rcases flush_cases refines positive closesAt with
      ⟨closed, _⟩ | ⟨_, nothing, _⟩ | ⟨held, _⟩ | ⟨_, _, flushed⟩
    · rw [opened] at closed
      cases closed
    · exact absurd nothing nonempty
    · rw [room] at held
      cases held
    refine ⟨_, _, List.take_append_drop
      (sentOf closesAt ((runLog config ops).pushed.rtake config.queueLimit))
      _, ?_, ?_, ?_, ?_⟩
    · simp only [channelStep, flushed, refines.queue]
    · simp only [logStep, room, drain, Bool.false_eq_true, if_false, if_true]
    · intro left
      simp only [channelStep, flushed, refines.queue]
      cases closesAt with
      | none => simp [sentOf] at left
      | some before =>
        have shorter : before + 1 <
            ((runLog config ops).pushed.rtake config.queueLimit).length := by
          by_contra reaches
          apply left
          rw [List.drop_eq_nil_iff, sentOf]
          omega
        simp only [interrupts, Option.any_some]
        rw [decide_eq_true (by omega)]
        rfl
    · intro never
      simp [never, sentOf]
  case nothingElse =>
    intro op changed
    rw [runChannel_append] at changed
    cases op with
    | send msg =>
      left
      refine ⟨msg, rfl, ?_⟩
      cases msg with
      | event frame =>
        exfalso
        apply changed
        simp only [channelStep, OutboundChannel.send]
        split <;> rfl
      | subscribed topic body => rfl
      | error code message topic => rfl
    | flush closesAt =>
      right
      refine ⟨closesAt, rfl, ?_⟩
      simp only [channelStep] at changed
      rcases flush_cases refines positive closesAt with
        ⟨_, flushed⟩ | ⟨_, _, flushed⟩ | ⟨_, flushed⟩ | ⟨_, drain, _⟩
      · rw [flushed] at changed
        exact absurd rfl changed
      · rw [flushed] at changed
        exact absurd rfl changed
      · rw [flushed] at changed
        split at changed
        · exact absurd rfl changed
        · exact absurd rfl changed
      · exact drain
    | buffered amount => exact absurd rfl changed
    | socketClosed => exact absurd rfl changed
  case closed =>
    intro closed op
    rw [runChannel_append]
    cases op with
    | send msg =>
      simp only [channelStep, OutboundChannel.send]
      rw [if_neg (by simp [closed])]
      exact ⟨closed, rfl⟩
    | flush closesAt =>
      simp only [channelStep, OutboundChannel.flush]
      rw [if_pos (by simp [closed])]
      exact ⟨closed, rfl⟩
    | buffered amount => exact ⟨closed, rfl⟩
    | socketClosed => exact ⟨rfl, rfl⟩
  case closes =>
    intro op
    rw [runChannel_append]
    cases op with
    | send msg =>
      refine ⟨?_, fun reached => by cases reached⟩
      simp only [channelStep, OutboundChannel.send, reachesLimit]
      split
      · cases msg <;> rfl
      · rfl
    | flush closesAt =>
      simp only [channelStep]
      rcases flush_cases refines positive closesAt with
        ⟨closed, flushed⟩ | ⟨opened, nothing, flushed⟩ |
          ⟨held, flushed⟩ | ⟨free, _, flushed⟩
      · have free : (runLog config ops).isHeld config = false := by
          simp [ChannelLog.isHeld, closed]
        rw [flushed, not_reachesLimit config free]
        exact ⟨rfl, fun impossible => by cases impossible⟩
      · have free : (runLog config ops).isHeld config = false := by
          simp [ChannelLog.isHeld, nothing]
        rw [flushed, not_reachesLimit config free]
        exact ⟨rfl, fun impossible => by cases impossible⟩
      · have reaches := reachesLimit_iff config ops closesAt held
        rw [flushed, refines.held]
        by_cases reached : config.maxFullFlushes ≤ (runLog config ops).heldInARow + 1
        · rw [if_pos reached, if_pos (reaches.mpr reached)]
          exact ⟨rfl, fun _ => rfl⟩
        · rw [if_neg reached, if_neg (mt reaches.mp reached)]
          exact ⟨rfl, fun impossible => absurd (reaches.mp impossible) reached⟩
      · rw [flushed, not_reachesLimit config free]
        exact ⟨rfl, fun impossible => by cases impossible⟩
    | buffered amount => exact ⟨rfl, fun impossible => by cases impossible⟩
    | socketClosed => exact ⟨rfl, fun impossible => by cases impossible⟩

/-- Three events over a limit of two, a control frame, and a drain. -/
theorem channel_delivers_two :
    DeliversInOrder ⟨2, 10, 3⟩ [.send (.event ⟨"t".toList, "1".toList⟩),
        .send (.event ⟨"t".toList, "2".toList⟩),
        .send (.subscribed "t".toList none),
        .send (.event ⟨"t".toList, "3".toList⟩),
        .flush none] :=
  channel_delivers ⟨2, 10, 3⟩ (by decide) [.send (.event ⟨"t".toList, "1".toList⟩),
      .send (.event ⟨"t".toList, "2".toList⟩),
      .send (.subscribed "t".toList none),
      .send (.event ⟨"t".toList, "3".toList⟩),
      .flush none]

end Aprovan.Realtime
