import Helios.Netstack.TcpTransmit

/-!
# Segments arriving at a TCP socket

What a socket does with a segment from its peer, in every state, and what a reader takes
from the receive queue.
-/

namespace Helios

open Machine TcpSegmentOutcome

class TcpReceiveBuffer (S : Type) where
  remainingCapacity : S → Nat
  writeFrom : S → Bytes → S × Nat

/-- The buffer a guest registered for reading: the bytes written so far, in the order of
its memory ranges, which together have room for `capacity` bytes. -/
structure RegisteredTcpReadBuffer where
  capacity : Nat
  data : Bytes
  data_le : data.length ≤ capacity

instance : TcpReceiveBuffer RegisteredTcpReadBuffer where
  remainingCapacity self := self.capacity - self.data.length
  writeFrom self bytes :=
    let writeLen := min bytes.length (self.capacity - self.data.length)
    ({ self with
        data := self.data ++ bytes.take writeLen
        data_le := by
          have h := self.data_le
          simp only [List.length_append, List.length_take]
          omega }, writeLen)

namespace SendSide

variable {C : Type} [CongestionControl C]

variable (self : SendSide C) (acknowledgement : SequenceNumber) (rttNanos : Nat)

/-- The first part of `acknowledge_sent`: the acknowledgement point moves and the loss
bookkeeping restarts. -/
def noteAdvance : SendSide C :=
  { self with
    retransmissionTimer := self.retransmissionTimer.noteRtt rttNanos
    sendUnacknowledged := acknowledgement
    duplicateAckCount := 0
    fastRetransmitPending := false
    pendingPmtuRetransmitSequence :=
      self.pendingPmtuRetransmitSequence.filter fun sequence =>
        !sequenceLt sequence acknowledgement }

/-- What an advancing acknowledgement does to the sending half: the probe, the count of
bytes in flight, the segments in flight and the delivery count. -/
def settleAck : Except Panic (SendSide C) :=
  let acked := self.ackedBytes acknowledgement
  match (self.noteAdvance acknowledgement rttNanos).discardAckedPersistProbe acknowledgement with
  | .error panic => .error panic
  | .ok (self, probeAcked) =>
    match { self with bytesInFlight := self.bytesInFlight - acked }.discardAckedSegments
        acknowledgement with
    | .error panic => .error panic
    | .ok self =>
      .ok { self with
        deliveredBytes := satAdd 64 self.deliveredBytes (satAdd 32 acked probeAcked) }

/-- What the options of the peer's SYN settle for the sending half. -/
def recordPeerOptions (packet : TcpPacket) : SendSide C :=
  { self with
    peerMaxSegmentSize :=
      match packet.options.maximumSegmentSize with
      | none => self.peerMaxSegmentSize
      | some mss => max 1 (min mss tcpReceiveSegmentBytes)
    peerWindowScale :=
      match packet.options.windowScale with
      | none => self.peerWindowScale
      | some shift => min shift tcpMaxWindowScale
    peerReceiveWindow := packet.windowSize.toNat }

end SendSide

/-- What the options of the peer's SYN settle for the receiving half. -/
def ReceiveSide.recordPeerOptions (self : ReceiveSide) (packet : TcpPacket) : ReceiveSide :=
  let refreshed :=
    ReceiveSide.refreshAdvertisedWindow
      { self with
        localWindowScale := if packet.options.windowScale.isSome then tcpLocalWindowScale else 0 }
  { refreshed with peerSackPermitted := packet.options.sackPermitted }

namespace TcpSocket

variable {C : Type} [CongestionControl C]

/-! ### The acknowledgement field -/

variable (self : TcpSocket C)

/-- The transition a socket makes once its FIN is acknowledged. -/
def noteFinAcknowledged (acknowledgement : SequenceNumber)
    (nowNanos : Nat) : TcpSocket C :=
  if self.send.finQueued && sequenceLeq self.send.sendNext acknowledgement then
    match self.state with
    | .finWait1 => self.setState .finWait2 .finAcknowledged
    | .closing => self.enterTimeWait nowNanos
    | .lastAck => self.setState .closed .finAcknowledged
    | _ => self
  else
    self

/-- Reports an acknowledgement to the congestion controller. -/
def sampleAck (sample : AckSample) : TcpSocket C × RecoveryAction :=
  let reaction := CongestionControl.onAck self.send.congestion sample
  ({ self with send := { self.send with congestion := reaction.1 } }, reaction.2)

section

variable (acknowledgement : SequenceNumber) (nowNanos : Nat) (appLimited : Bool)
  (timestamp : Option TcpTimestampOption)

/-- An acknowledgement that advances `send_unacknowledged`. -/
def advanceSent : Except Panic (TcpSocket C × RecoveryAction) :=
  let acked := self.send.ackedBytes acknowledgement
  let timing := self.send.ackSampleTiming acknowledgement nowNanos timestamp
  match self.send.settleAck acknowledgement timing.rttNanos with
  | .error panic => .error panic
  | .ok send =>
    let self := ({ self with send }.noteFinAcknowledged acknowledgement nowNanos)
    let self := self.refreshPersistAfterAck nowNanos
    .ok (self.sampleAck
      { ackedBytes := acked
        deliveredBytes := self.send.deliveredBytes
        bytesInFlight := self.send.bytesInFlight
        rttNanos := timing.rttNanos
        intervalNanos := timing.intervalNanos
        nowNanos
        appLimited })

def acknowledgeSent (duplicateAckEligible : Bool) :
    Except Panic (TcpSocket C × Option RecoveryAction) :=
  if sequenceLeq acknowledgement self.send.sendUnacknowledged then
    if acknowledgement = self.send.sendUnacknowledged ∧ duplicateAckEligible = true then
      let (send, action) := self.send.noteDuplicateAck nowNanos
      .ok ({ self with send }, action)
    else
      .ok (self, none)
  else
    (self.advanceSent acknowledgement nowNanos appLimited timestamp).map
      fun (socket, action) => (socket, some action)

/-! ### The peer's options -/

def recordPeerTimestamp : TcpSocket C :=
  match timestamp with
  | none => self
  | some timestamp => { self with peerTimestamp := some timestamp }

def recordPeerOptions (packet : TcpPacket) : TcpSocket C :=
  recordPeerTimestamp
    { self with
      send := self.send.recordPeerOptions packet
      recv := self.recv.recordPeerOptions packet }
    packet.options.timestamp

/-! ### The FIN -/

/-- The transition a socket makes when the peer's FIN is consumed. -/
def notePeerFin : TcpSocket C :=
  match self.state with
  | .established => self.setState .closeWait .peerFin
  | .finWait1 => self.setState .closing .peerFin
  | .finWait2 => self.enterTimeWait nowNanos
  | _ => self

/-- Consumes the peer's FIN once everything before it arrived. -/
def consumePendingReceiveFin : TcpSocket C × Bool :=
  if self.recv.receiveFinSequence ≠ some self.recv.receiveNext then
    (self, false)
  else
    let socket := self.notePeerFin nowNanos
    let recv :=
      { self.recv with
        receiveFinSequence := none
        receiveNext := self.recv.receiveNext + 1 }
    ({ socket with recv := recv.requestAck }, true)

end

def noteReceiveFin (sequence : SequenceNumber) (payloadLen nowNanos : Nat) :
    TcpSocket C × Bool :=
  let finSequence := segmentEndFromParts sequence payloadLen
  if sequenceLt finSequence self.recv.receiveNext then
    ({ self with recv := self.recv.requestAck }, false)
  else
    match { self with
        recv := { self.recv with receiveFinSequence := some finSequence }
        }.consumePendingReceiveFin nowNanos with
    | (socket, true) => (socket, true)
    | (socket, false) => ({ socket with recv := socket.recv.requestAck }, false)

/-! ### Reading -/

/-- What follows every read: the hole may be filled, and the window may reopen. -/
def completeReceiveDrain (previousWindow nowNanos : Nat) :
    Except Panic (TcpSocket C) :=
  match self.recv.drainContiguousOutOfOrder with
  | .error panic => .error panic
  | .ok (recv, drainedSegments) =>
    let socket := ({ self with recv }.consumePendingReceiveFin nowNanos).1
    let (recv, reopensWindow) :=
      socket.recv.refreshAdvertisedWindow.shouldAdvertiseWindowUpdate previousWindow
    if drainedSegments ≠ 0 ∨ reopensWindow = true then
      .ok { socket with
        recv := { recv with
          pendingAckReopensWindow :=
            recv.pendingAckReopensWindow || reopensWindow }.requestAck }
    else
      .ok { socket with recv }

/-- The loop of `receive` that appends further chunks until `mergeLen` bytes are read.
The fuel is the number of chunks. -/
def mergeLoop (mergeLen : Nat) :
    Nat → ReceiveSide → Bytes → Except Panic (ReceiveSide × Bytes)
  | 0, recv, bytes => .ok (recv, bytes)
  | fuel + 1, recv, bytes =>
    if bytes.length < mergeLen then
      match recv.popReceiveSegment with
      | .error panic => .error panic
      | .ok none => .ok (recv, bytes)
      | .ok (some (next, recv)) =>
        let remaining := mergeLen - bytes.length
        if next.length > remaining then
          match recv.pushFrontReceiveSegment (next.drop remaining) with
          | .error panic => .error panic
          | .ok recv => .ok (recv, bytes ++ next.take remaining)
        else
          mergeLoop mergeLen fuel recv (bytes ++ next)
    else
      .ok (recv, bytes)

/-- The bytes a read of at most `maxBytes` takes from the receive queue. -/
def readQueue (recv : ReceiveSide) (maxBytes : Nat) :
    Except Panic (Option (ReceiveSide × Bytes)) :=
  match recv.popReceiveSegment with
  | .error panic => .error panic
  | .ok none => .ok none
  | .ok (some (bytes, recv)) =>
    if bytes.length ≥ maxBytes then
      if bytes.length > maxBytes then
        match recv.pushFrontReceiveSegment (bytes.drop maxBytes) with
        | .error panic => .error panic
        | .ok recv => .ok (some (recv, bytes.take maxBytes))
      else
        .ok (some (recv, bytes))
    else if recv.receiveQueue.isEmpty then
      .ok (some (recv, bytes))
    else
      let mergeLen := min (satAdd 64 bytes.length recv.receiveQueuedBytes) maxBytes
      (mergeLoop mergeLen recv.receiveQueue.len recv bytes).map some

/-- Reads at most `maxBytes` of in-order data; `none` when there is none. -/
def receive (maxBytes nowNanos : Nat) :
    Except Panic (TcpSocket C × Option Bytes) :=
  if maxBytes = 0 then
    .ok (self, if self.recv.receiveQueue.isEmpty then none else some [])
  else
    let self := (self.consumePendingReceiveFin nowNanos).1
    match readQueue self.recv maxBytes with
    | .error panic => .error panic
    | .ok none => .ok (self, none)
    | .ok (some (recv, bytes)) =>
      ({ self with recv }.completeReceiveDrain self.recv.advertisedWindow nowNanos).map
        fun socket => (socket, some bytes)

structure SinkProgress (S : Type) where
  recv : ReceiveSide
  buffer : S
  delivered : Bytes

/-- The loop of `receive_into`: chunk by chunk until the buffer or the queue is
exhausted.  The fuel is the number of chunks; the flag is false when there was nothing
to read. -/
def sinkLoop {S : Type} [TcpReceiveBuffer S] :
    Nat → SinkProgress S → Except Panic (SinkProgress S × Bool)
  | 0, progress => .ok (progress, decide (progress.delivered ≠ []))
  | fuel + 1, progress =>
    match progress.recv.popReceiveSegment with
    | .error panic => .error panic
    | .ok none => .ok (progress, decide (progress.delivered ≠ []))
    | .ok (some (bytes, recv)) =>
      let remainingBefore := TcpReceiveBuffer.remainingCapacity progress.buffer
      let (buffer, written) := TcpReceiveBuffer.writeFrom progress.buffer bytes
      if written > bytes.length then
        .error .receiveSinkOverran
      else if written = 0 ∧ remainingBefore ≠ 0 ∧ bytes ≠ [] then
        .error .receiveSinkMadeNoProgress
      else
        let delivered := progress.delivered ++ bytes.take written
        if written < bytes.length then
          match recv.pushFrontReceiveSegment (bytes.drop written) with
          | .error panic => .error panic
          | .ok recv => .ok (⟨recv, buffer, delivered⟩, true)
        else if TcpReceiveBuffer.remainingCapacity buffer = 0 ∨ recv.receiveQueue.isEmpty = true then
          .ok (⟨recv, buffer, delivered⟩, true)
        else
          sinkLoop fuel ⟨recv, buffer, delivered⟩

/-- Reads in-order data into a buffer.  Returns the buffer and the bytes written to it;
the source returns their number. -/
def receiveInto {S : Type} [TcpReceiveBuffer S] (self : TcpSocket C) (buffer : S)
    (nowNanos : Nat) : Except Panic (TcpSocket C × S × Option Bytes) :=
  if TcpReceiveBuffer.remainingCapacity buffer = 0 then
    .ok (self, buffer, if self.recv.receiveQueue.isEmpty then none else some [])
  else
    let self := (self.consumePendingReceiveFin nowNanos).1
    match sinkLoop self.recv.receiveQueue.len ⟨self.recv, buffer, []⟩ with
    | .error panic => .error panic
    | .ok (progress, false) => .ok ({ self with recv := progress.recv }, progress.buffer, none)
    | .ok (progress, true) =>
      (completeReceiveDrain { self with recv := progress.recv } self.recv.advertisedWindow
        nowNanos).map fun socket => (socket, progress.buffer, some progress.delivered)

/-! ### The arrival of a segment -/

/-- Closes the socket and tells the congestion controller, as a reset does. -/
def closeWithTimeout (reason : TcpStateChangeReason) (nowNanos : Nat) :
    TcpSocket C × TcpSegmentOutcome :=
  let reaction := CongestionControl.onCongestionEvent self.send.congestion
    (.retransmissionTimeout nowNanos)
  ({ self.setState .closed reason with send := { self.send with congestion := reaction.1 } },
    { default with recovery := some reaction.2 })

variable (packet : TcpPacket)

variable (nowNanos : Nat)

def establishSynSent : Except Panic (TcpSocket C × TcpSegmentOutcome) :=
  let self := self.recordPeerOptions packet
  let self :=
    { self with
      remoteEndpoint := self.remoteEndpoint.map fun (remote : TcpEndpoint) =>
        { remote with port := packet.sourcePort }
      recv := self.recv.setReceiveBase (packet.sequence + 1) }
  match self.acknowledgeSent packet.acknowledgement nowNanos true packet.options.timestamp
      false with
  | .error panic => .error panic
  | .ok (self, action) =>
    let self := self.setState .established .synSentEstablished
    .ok ({ self with recv := { self.recv with pendingAcks := max self.recv.pendingAcks 1 } },
      { default with recovery := action })

def onSegmentSynSent : Except Panic (TcpSocket C × TcpSegmentOutcome) :=
  if packet.flags.contains .rst then
    if !packet.flags.contains .ack || !self.send.synSentAckAcceptable packet.acknowledgement then
      .ok (self, .default)
    else
      .ok (self.closeWithTimeout .synSentReset nowNanos)
  else if packet.flags.contains .ack &&
      !self.send.synSentAckAcceptable packet.acknowledgement then
    .ok (self,
      { default with
        reset := self.unacceptableAckReset packet.acknowledgement })
  else if packet.flags.contains (TcpFlags.syn.union .ack) then
    self.establishSynSent packet nowNanos
  else
    .ok (self, .default)

def onSegmentSynReceived : Except Panic (TcpSocket C × TcpSegmentOutcome) :=
  if packet.flags.contains .rst then
    if self.recv.receiveSequenceAcceptable packet.sequence (receiveSequenceLen packet) then
      .ok (self.setState .closed .synReceivedReset, .default)
    else
      .ok (self, .default)
  else if packet.flags.contains .ack then
    if packet.acknowledgement ≠ self.send.sendNext then
      .ok (self,
        { default with
          reset := self.unacceptableAckReset packet.acknowledgement })
    else
      let self := { self with send := self.send.updatePeerReceiveWindow packet.windowSize }
      let self := self.recordPeerTimestamp packet.options.timestamp
      match self.acknowledgeSent packet.acknowledgement nowNanos true packet.options.timestamp
          false with
      | .error panic => .error panic
      | .ok (self, action) =>
        .ok (self.setState .established .synReceivedEstablished,
          { default with recovery := action })
  else
    .ok (self, .default)

def duplicateAckEligible : Bool :=
  decide (packet.acknowledgement = self.send.sendUnacknowledged) &&
    decide (packet.payload = []) &&
    !packet.flags.contains .syn && !packet.flags.contains .fin && !packet.flags.contains .rst &&
    decide (self.send.scaledPeerReceiveWindow packet.windowSize = self.send.peerReceiveWindow)

/-- What an acceptable segment's acknowledgement field does, unless it is old. -/
def processAck : Except Panic (TcpSocket C × Option RecoveryAction) :=
  let eligible := self.duplicateAckEligible packet
  if sequenceLt packet.acknowledgement self.send.sendUnacknowledged then
    .ok (self, none)
  else
    let self := { self with send := self.send.updatePeerReceiveWindow packet.windowSize }
    let self := self.recordPeerTimestamp packet.options.timestamp
    let self := { self with send := self.send.applySackBlocks packet.options.sackBlocks }
    self.acknowledgeSent packet.acknowledgement nowNanos self.send.transmitQueue.isEmpty
      packet.options.timestamp eligible

def receivesData : Bool :=
  match self.state with
  | .established | .finWait1 | .finWait2 => true
  | _ => false

def processFin : TcpSocket C × Bool :=
  if packet.flags.contains .fin then
    self.noteReceiveFin packet.sequence packet.payload.length nowNanos
  else
    (self, false)

def processText (action : Option RecoveryAction)
    (nowNanos : Nat) : Except Panic (TcpSocket C × TcpSegmentOutcome) :=
  if packet.payload ≠ [] ∧ self.receivesData = true then
    match self.recv.receivePayload packet.sequence packet.payload nowNanos with
    | .error panic => .error panic
    | .ok (recv, none) =>
      .ok ({ self with recv := recv.refreshAdvertisedWindow.requestDuplicateAck },
        { default with recovery := action, receiveBackpressure := true })
    | .ok (recv, some payloadReadable) =>
      let (socket, finReadable) := { self with recv }.processFin packet nowNanos
      .ok (socket,
        { default with
          recovery := action
          readable := payloadReadable || finReadable })
  else
    let (socket, finReadable) := self.processFin packet nowNanos
    .ok (socket, { default with recovery := action, readable := finReadable })

def noteSegmentReceived : TcpSocket C :=
  { self with
    recv :=
      { self.recv with
        lastSegmentReceived := some ⟨packet.sequence, satCast 32 packet.payload.length⟩ } }

/-- What a socket in a synchronised state does with a segment it has noted. -/
def examineSegment : Except Panic (TcpSocket C × TcpSegmentOutcome) :=
  let acceptable :=
    self.recv.receiveSequenceAcceptable packet.sequence (receiveSequenceLen packet)
  if packet.flags.contains .rst then
    if acceptable then
      .ok (self.closeWithTimeout .peerReset nowNanos)
    else
      .ok (self, .default)
  else if !packet.flags.contains .ack then
    .ok (self, .default)
  else if self.send.acknowledgesUnsentData packet.acknowledgement then
    .ok ({ self with recv := self.recv.requestAck }, .default)
  else if !acceptable then
    .ok ({ self with
        recv := (self.recv.recordOldPayload packet.sequence
          packet.payload.length).requestDuplicateAck }, .default)
  else if packet.flags.contains .syn then
    .ok (self.closeWithTimeout .peerSyn nowNanos)
  else
    match self.processAck packet nowNanos with
    | .error panic => .error panic
    | .ok (self, action) => self.processText packet action nowNanos

/-- A segment for a socket in a synchronised state, before `TIME-WAIT`. -/
def onSegmentSynchronised : Except Panic (TcpSocket C × TcpSegmentOutcome) :=
  (self.noteSegmentReceived packet).examineSegment packet nowNanos

def onSegmentTimeWait : TcpSocket C × TcpSegmentOutcome :=
  if packet.flags.contains .fin &&
      self.recv.receiveSequenceAcceptable packet.sequence (receiveSequenceLen packet) then
    let socket := self.enterTimeWait nowNanos
    ({ socket with recv := socket.recv.requestAck }, .default)
  else
    (self, .default)

def onSegment : Except Panic (TcpSocket C × TcpSegmentOutcome) :=
  match self.state with
  | .synSent => self.onSegmentSynSent packet nowNanos
  | .synReceived => self.onSegmentSynReceived packet nowNanos
  | .established | .finWait1 | .finWait2 | .closeWait | .closing | .lastAck =>
    self.onSegmentSynchronised packet nowNanos
  | .timeWait => .ok (self.onSegmentTimeWait packet nowNanos)
  | .closed | .listen => .ok (self, .default)

end TcpSocket

end Helios
