import Helios.Netstack.TcpSocket

/-!
# What a TCP socket puts on the wire

Taking the next segment from the transmit queue, as one wire segment, as a coalesced
burst or as a persist probe; the FIN behind the data; retransmission; and the timers
that decide when.
-/

namespace Helios

open Machine

namespace SendSide

variable {C : Type} [CongestionControl C]

/-- The loop that splits a burst into segments of at most `maximumSegment` bytes and
records each of them in flight.  The fuel bounds the number of segments. -/
def recordBurst (header : TcpHeader) (options : TcpHeaderOptions)
    (maximumSegment nowNanos : Nat) :
    Nat → Bytes → SequenceNumber → SendSide C → Except Panic (SendSide C)
  | 0, _, _, self => .ok self
  | fuel + 1, payload, sequence, self =>
    if payload = [] then
      .ok self
    else
      let chunkLen := min maximumSegment payload.length
      match (self.noteSent chunkLen nowNanos).pushInFlight
          (.sent { header with sequence } options (payload.take chunkLen) chunkLen nowNanos) with
      | .error panic => .error panic
      | .ok self =>
        recordBurst header options maximumSegment nowNanos fuel (payload.drop chunkLen)
          (sequence + BitVec.ofNat 32 chunkLen) self

/-- Takes at most `limit` bytes off the front chunk of the transmit queue and puts the
rest of that chunk back; `none` when the queue is empty. -/
def takeFront (self : SendSide C) (limit : Nat) :
    Except Panic (Option (Bytes × SendSide C)) :=
  match self.transmitQueue.popFront with
  | none => .ok none
  | some (payload, transmitQueue) =>
    if payload.length > limit then
      match transmitQueue.pushFront (payload.drop limit) with
      | .error panic => .error panic
      | .ok none => .error .transmitQueueLostCapacitySplitting
      | .ok (some transmitQueue) =>
        .ok (some (payload.take limit, { self with transmitQueue }))
    else
      .ok (some (payload, { self with transmitQueue }))

end SendSide

namespace TcpSocket

variable {C : Type} [CongestionControl C]

/-! ### Writing -/

variable (self : TcpSocket C)

/-- Accepts bytes from the application while the connection is open for sending, as many
as the transmit queue has room for, and returns their number. -/
def queueSendBytes (bytes : Bytes) : Except Panic (TcpSocket C × Nat) :=
  if self.state ≠ .established ∧ self.state ≠ .closeWait then
    .ok (self, 0)
  else
    let writable := min bytes.length self.send.transmitQueue.remainingBytesCapacity
    if writable = 0 then
      .ok (self, 0)
    else
      match self.send.transmitQueue.pushBack (bytes.take writable) with
      | .error panic => .error panic
      | .ok none => .error .transmitQueueFullAfterCheck
      | .ok (some transmitQueue) =>
        .ok ({ self with send := { self.send with transmitQueue } }, writable)

/-! ### The persist timer -/

def hasPersistPendingData : Bool :=
  match self.state with
  | .established | .closeWait => !self.send.transmitQueue.isEmpty
  | .finWait1 | .lastAck => !self.send.transmitQueue.isEmpty || !self.send.finQueued
  | _ => false

variable (nowNanos : Nat)

def armPersistTimerIfNeeded : TcpSocket C :=
  if self.send.peerReceiveWindow ≠ 0 ∨ self.hasPersistPendingData = false then
    { self with send := { self.send with persistTimer := none } }
  else if self.send.persistTimer.isNone then
    { self with
      send :=
        { self.send with
          persistTimer := some (.new nowNanos self.send.retransmissionTimer) } }
  else
    self

/-- The socket has closed its sending side and its FIN is still to be sent. -/
def finPending : Bool :=
  (decide (self.state = .finWait1) || decide (self.state = .lastAck)) && !self.send.finQueued

/-- The probe due while the peer's window is closed: the next byte, or the FIN. -/
def pendingPersistProbe : Option TcpPersistProbe :=
  if self.send.peerReceiveWindow ≠ 0 then
    none
  else
    match self.send.persistTimer with
    | none => none
    | some timer =>
      if nowNanos < timer.deadlineNanos then
        none
      else if self.send.transmitQueue.isEmpty = false then
        some { sequence := self.send.sendNext, sequenceLen := 1, fin := false }
      else if self.finPending then
        some { sequence := self.send.sendNext, sequenceLen := 1, fin := true }
      else
        none

def refreshPersistAfterAck : TcpSocket C :=
  if self.send.peerReceiveWindow ≠ 0 then
    { self with send := { self.send with persistTimer := none, persistProbe := none } }
  else
    self.armPersistTimerIfNeeded nowNanos

/-! ### Taking a segment -/

section

variable (localEndpoint remoteEndpoint : TcpEndpoint)

def dataHeader (sequence : SequenceNumber) (flags : TcpFlags) : TcpHeader :=
  { sourcePort := localEndpoint.port
    destinationPort := remoteEndpoint.port
    sequence
    acknowledgement := self.recv.receiveNext
    flags
    windowSize := self.recv.advertisedWindow }

/-- The most payload one segment may carry, and the most one call may take: the burst
limit.  `none` when nothing fits. -/
def segmentLimits (available : Nat) (budget : TcpSegmentBudget)
    (isPersistProbe : Bool) (tcpHeaderLen : Nat) : Option (Nat × Nat) :=
  if budget.wireSegment ≤ tcpHeaderLen then
    none
  else
    let payloadMtu := budget.wireSegment - tcpHeaderLen
    let maximumSegment := min (min available self.send.peerMaxSegmentSize) payloadMtu
    let inFlightRoom := maxTcpInFlightSegments - self.send.inFlight.length
    let burstLimit :=
      if budget.coalesced > budget.wireSegment ∧ isPersistProbe = false then
        max (min (min (budget.coalesced - tcpHeaderLen) available)
          (satMul 64 maximumSegment inFlightRoom)) maximumSegment
      else
        maximumSegment
    if burstLimit = 0 then none else some (maximumSegment, burstLimit)

def dataSegment (sequence : SequenceNumber) (payload : Bytes) (maximumSegment nowNanos : Nat) :
    TcpTransmitSegment :=
  { localEndpoint
    remoteEndpoint
    header := self.dataHeader localEndpoint remoteEndpoint sequence (TcpFlags.ack.union .psh)
    options := self.timestampedOptions nowNanos
    payload
    sequenceLen := satCast 32 payload.length
    segmentBytes := maximumSegment % 2 ^ 32
    retransmission := false }

/-- Sends the first byte of the transmit queue as a probe and leaves it queued. -/
def takeProbeSegment (probe : TcpPersistProbe) (maximumSegment nowNanos : Nat) :
    Option (TcpSocket C × TcpTransmitSegment) :=
  match self.send.transmitQueue.front with
  | none => none
  | some front =>
    let payload := front.take 1
    let segment :=
      self.dataSegment localEndpoint remoteEndpoint probe.sequence payload maximumSegment nowNanos
    some ({ self with
        send := self.send.markPersistProbeQueued
          { sequence := probe.sequence, sequenceLen := segment.sequenceLen, fin := false } nowNanos
        recv := self.recv.noteAckEmitted }, segment)

/-- Sends queued data at `send_next` and records it in flight. -/
def takeQueuedSegment (maximumSegment burstLimit nowNanos : Nat) :
    Except Panic (Option (TcpSocket C × TcpTransmitSegment)) :=
  match self.send.takeFront burstLimit with
  | .error panic => .error panic
  | .ok none => .ok none
  | .ok (some (payload, send)) =>
    let segment :=
      self.dataSegment localEndpoint remoteEndpoint self.send.sendNext payload maximumSegment
        nowNanos
    match send.recordBurst segment.header segment.options maximumSegment nowNanos payload.length
        payload self.send.sendNext with
    | .error panic => .error panic
    | .ok send =>
      .ok (some ({ self with
          send := send.scheduleNextPacingSend segment.sequenceLen nowNanos
          recv := self.recv.noteAckEmitted }, segment))

end

section

variable (localEndpoint remoteEndpoint : TcpEndpoint) (available : Nat) (budget : TcpSegmentBudget)

/-- `take_data_segment`: a probe is never held back by pacing. -/
def takeDataSegment (nowNanos : Nat) (persistProbe : Option TcpPersistProbe) :
    Except Panic (Option (TcpSocket C × TcpTransmitSegment)) :=
  let paced := self.send.nextPacingSendNanos.any fun deadline => decide (nowNanos < deadline)
  if paced = true ∧ persistProbe = none then
    .ok none
  else
    let tcpHeaderLen := TcpPacket.minHeaderLen + (self.timestampedOptions nowNanos).encodedLen
    let persistProbe := persistProbe.filter fun probe => !probe.fin
    match self.segmentLimits available budget persistProbe.isSome tcpHeaderLen with
    | none => .ok none
    | some (maximumSegment, burstLimit) =>
      match persistProbe with
      | some probe =>
        .ok (self.takeProbeSegment localEndpoint remoteEndpoint probe maximumSegment nowNanos)
      | none =>
        self.takeQueuedSegment localEndpoint remoteEndpoint maximumSegment burstLimit nowNanos

def finSegment (sequence : SequenceNumber) (nowNanos : Nat) : TcpTransmitSegment :=
  { localEndpoint
    remoteEndpoint
    header := self.dataHeader localEndpoint remoteEndpoint sequence (TcpFlags.ack.union .fin)
    options := self.timestampedOptions nowNanos
    payload := []
    sequenceLen := 1
    segmentBytes := 0
    retransmission := false }

/-- Records the FIN, which occupies one sequence number, as sent. -/
def recordFin (send : SendSide C) (segment : TcpTransmitSegment) (nowNanos : Nat) :
    Except Panic (SendSide C) :=
  { send.noteSent 1 nowNanos with
    finQueued := true
    persistTimer := none }.pushInFlight (.sent segment.header segment.options [] 1 nowNanos)

/-- `take_fin_segment`: the FIN itself, or a probe that carries it. -/
def takeFinSegment (nowNanos : Nat) (persistProbe : Bool) (sequence : SequenceNumber) :
    Except Panic (TcpSocket C × TcpTransmitSegment) :=
  let segment := self.finSegment localEndpoint remoteEndpoint sequence nowNanos
  let recv := self.recv.noteAckEmitted
  if persistProbe then
    let send := self.send.markPersistProbeQueued
      { sequence, sequenceLen := 1, fin := true } nowNanos
    .ok ({ self with send, recv }, segment)
  else
    match recordFin self.send segment nowNanos with
    | .error panic => .error panic
    | .ok send => .ok ({ self with send, recv }, segment)

def sendsData : Bool :=
  match self.state with
  | .established | .closeWait | .finWait1 | .lastAck => true
  | _ => false

/-- The FIN behind the data, once the transmit queue is empty. -/
def takeFinIfDue (nowNanos : Nat) (persistProbe : Option TcpPersistProbe) :
    Except Panic (TcpSocket C × Option TcpTransmitSegment) :=
  if self.send.transmitQueue.isEmpty = false ∨ self.finPending = false then
    .ok (self, none)
  else
    match persistProbe.filter TcpPersistProbe.fin with
    | some probe =>
      (self.takeFinSegment localEndpoint remoteEndpoint nowNanos true probe.sequence).map
        fun (socket, segment) => (socket, some segment)
    | none =>
      if self.send.peerReceiveWindow = 0 then
        .ok (self.armPersistTimerIfNeeded nowNanos, none)
      else
        (self.takeFinSegment localEndpoint remoteEndpoint nowNanos false self.send.sendNext).map
          fun (socket, segment) => (socket, some segment)

def takeDataOrFin (nowNanos : Nat) (persistProbe : Option TcpPersistProbe) :
    Except Panic (TcpSocket C × Option TcpTransmitSegment) :=
  if self.sendsData = true ∧ self.send.finQueued = false then
    match self.takeDataSegment localEndpoint remoteEndpoint available budget nowNanos
        persistProbe with
    | .error panic => .error panic
    | .ok (some (socket, segment)) => .ok (socket, some segment)
    | .ok none => self.takeFinIfDue localEndpoint remoteEndpoint nowNanos persistProbe
  else
    self.takeFinIfDue localEndpoint remoteEndpoint nowNanos persistProbe

end

/-- Takes the next segment this socket wants on the wire. -/
def takeTransmitSegment (budget : TcpSegmentBudget) :
    Except Panic (TcpSocket C × Option TcpTransmitSegment) :=
  let self := self.armPersistTimerIfNeeded nowNanos
  match self.localEndpoint, self.remoteEndpoint with
  | some localEndpoint, some remoteEndpoint =>
    let persistProbe := self.pendingPersistProbe nowNanos
    let available := if persistProbe.isSome then 1 else self.send.availableSendWindow
    if available = 0 ∨ persistProbe = none ∧ self.send.inFlightIsFull = true then
      .ok (self, none)
    else
      self.takeDataOrFin localEndpoint remoteEndpoint available budget nowNanos persistProbe
  | _, _ => .ok (self, none)

/-! ### Retransmission -/

/-- The segment in flight that is to be sent again: the first hole after a fast
retransmit, the one that exceeded the path MTU, or the first one once its timer ran
out. -/
def retransmissionCandidate : Option TcpInFlightSegment :=
  if self.send.fastRetransmitPending then
    self.send.firstUnsackedInFlight
  else
    match self.send.pendingPmtuRetransmitSequence with
    | some sequence => self.send.inFlightAt sequence
    | none =>
      self.send.inFlight.head?.filter fun segment =>
        decide (nowNanos - segment.sentAtNanos ≥
          self.send.retransmissionTimer.backedOffTimeoutNanos segment.retransmissions)

def pendingRetransmissionWithMtu (nowNanos tcpSegmentMtu : Nat) :
    Option TcpTransmitSegment :=
  match self.retransmissionCandidate nowNanos, self.localEndpoint, self.remoteEndpoint with
  | some segment, some localEndpoint, some remoteEndpoint =>
    let headerLen := TcpPacket.minHeaderLen + segment.options.encodedLen
    if tcpSegmentMtu < headerLen then
      none
    else
      let payloadMtu := tcpSegmentMtu - headerLen
      if payloadMtu = 0 ∧ segment.payload ≠ [] then
        none
      else
        let payloadLen := min segment.payload.length payloadMtu
        some
          { localEndpoint
            remoteEndpoint
            header := segment.header
            options := segment.options
            payload := segment.payload.take payloadLen
            sequenceLen :=
              if segment.payload = [] then segment.sequenceLen else satCast 32 payloadLen
            segmentBytes := payloadLen % 2 ^ 32
            retransmission := true }
  | _, _, _ => none

/-- Counts one more retransmission of the first segment in flight at `sequence`. -/
def noteRetransmission (sequence : SequenceNumber) (nowNanos : Nat) :
    List TcpInFlightSegment → List TcpInFlightSegment
  | [] => []
  | segment :: rest =>
    if segment.header.sequence = sequence then
      { segment with
        sentAtNanos := nowNanos
        retransmissions := satAdd 8 segment.retransmissions 1 } :: rest
    else
      segment :: noteRetransmission sequence nowNanos rest

/-- Accounts for a retransmission at `sequence`.  A segment sent once too often closes
the connection and drops what is in flight. -/
def markRetransmissionQueued (sequence : SequenceNumber)
    (nowNanos : Nat) : TcpSocket C :=
  let fastRetransmit := self.send.fastRetransmitPending
  let pmtuRetransmit := decide (self.send.pendingPmtuRetransmitSequence = some sequence)
  let send :=
    { self.send with
      fastRetransmitPending := false
      pendingPmtuRetransmitSequence :=
        if pmtuRetransmit then none else self.send.pendingPmtuRetransmitSequence }
  match send.inFlight.find? fun segment => decide (segment.header.sequence = sequence) with
  | none => { self with send }
  | some segment =>
    let send := { send with inFlight := noteRetransmission sequence nowNanos send.inFlight }
    if satAdd 8 segment.retransmissions 1 > tcpMaxRetransmissions then
      { self.setState .closed .retransmissionLimit with
        send := { send with bytesInFlight := 0, inFlight := [] } }
    else if fastRetransmit = false ∧ pmtuRetransmit = false then
      let send := send.onRetransmissionTimeout
      { self with
        send :=
          { send with
            congestion := (CongestionControl.onCongestionEvent send.congestion
              (.retransmissionTimeout nowNanos)).1 } }
    else
      { self with send }

/-! ### Timers -/

/-- Turns a delayed acknowledgement whose time has come into an owed one. -/
def expireDelayedAck : TcpSocket C :=
  if self.recv.delayedAckDeadlineNanos.any fun deadline => decide (nowNanos ≥ deadline) then
    { self with recv := self.recv.requestAck }
  else
    self

def expireTimers : TcpSocket C :=
  let self := self.expireDelayedAck nowNanos
  if self.state = .timeWait ∧
      (self.timeWaitDeadlineNanos.any fun deadline => decide (nowNanos ≥ deadline)) = true then
    { self.setState .closed .timeWaitExpired with timeWaitDeadlineNanos := none }
  else
    self

def nextDeadlineNanos : Option Nat :=
  minDeadline (minDeadline self.send.nextDeadlineNanos self.recv.delayedAckDeadlineNanos)
    self.timeWaitDeadlineNanos

end TcpSocket

end Helios
