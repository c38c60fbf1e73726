import Helios.Netstack.Congestion
import Helios.Netstack.TcpQueues

/-!
# The sending half of a TCP connection

The fields of a connection that describe what it sends: the sequence numbers sent and
acknowledged, the bytes not yet sent, the segments in flight, the persist probe that
keeps a closed window alive, and the timers and congestion control around them.
-/

namespace Helios

open Machine CongestionControl

def maxTcpInFlightSegments : Nat := maxTcpReceiveSegments

def tcpInitialRtoNanos : Nat := 1000000000

def tcpMinRtoNanos : Nat := 200000000

def tcpMaxRtoNanos : Nat := 60000000000

def tcpMaxRetransmissions : Nat := 5

structure TcpInFlightSegment where
  header : TcpHeader
  options : TcpHeaderOptions
  payload : Bytes
  sequenceLen : Nat
  sentAtNanos : Nat
  retransmissions : Nat
  sacked : Bool
  deriving DecidableEq

/-- The record of a segment that was just sent. -/
def TcpInFlightSegment.sent (header : TcpHeader) (options : TcpHeaderOptions) (payload : Bytes)
    (sequenceLen nowNanos : Nat) : TcpInFlightSegment :=
  { header
    options
    payload
    sequenceLen
    sentAtNanos := nowNanos
    retransmissions := 0
    sacked := false }

def segmentEnd (segment : TcpInFlightSegment) : SequenceNumber :=
  segment.header.sequence + BitVec.ofNat 32 segment.sequenceLen

/-- A probe of a closed window, sent and not yet acknowledged. -/
structure TcpPersistProbe where
  sequence : SequenceNumber
  sequenceLen : Nat
  fin : Bool
  deriving DecidableEq, Repr

def TcpPersistProbe.endSequence (probe : TcpPersistProbe) : SequenceNumber :=
  probe.sequence + BitVec.ofNat 32 probe.sequenceLen

structure TcpAckTiming where
  rttNanos : Nat
  intervalNanos : Nat
  deriving DecidableEq, Repr

/-! ### Timers -/

structure TcpRetransmissionTimer where
  smoothedRttNanos : Option Nat
  rttVarianceNanos : Nat
  timeoutNanos : Nat
  deriving DecidableEq, Repr

namespace TcpRetransmissionTimer

def new : TcpRetransmissionTimer :=
  { smoothedRttNanos := none, rttVarianceNanos := 0, timeoutNanos := tcpInitialRtoNanos }

/-- The timeout for a smoothed round trip and its variance. -/
def timeoutFor (smoothed variance : Nat) : Nat :=
  max tcpMinRtoNanos (min (satAdd 64 smoothed (satMul 64 variance 4)) tcpMaxRtoNanos)

def noteRtt (self : TcpRetransmissionTimer) (rttNanos : Nat) : TcpRetransmissionTimer :=
  if rttNanos = 0 then
    self
  else
    match self.smoothedRttNanos with
    | some smoothed =>
      let error := max smoothed rttNanos - min smoothed rttNanos
      let variance := (self.rttVarianceNanos * 3 + error) % 2 ^ 64 / 4
      let smoothed := (smoothed * 7 + rttNanos) % 2 ^ 64 / 8
      { smoothedRttNanos := some smoothed
        rttVarianceNanos := variance
        timeoutNanos := timeoutFor smoothed variance }
    | none =>
      { smoothedRttNanos := some rttNanos
        rttVarianceNanos := rttNanos / 2
        timeoutNanos := timeoutFor rttNanos (rttNanos / 2) }

def backedOffTimeoutNanos (self : TcpRetransmissionTimer) (retransmissions : Nat) : Nat :=
  satMul 64 self.timeoutNanos (1 <<< min retransmissions 6)

end TcpRetransmissionTimer

structure TcpPersistTimer where
  deadlineNanos : Nat
  probesSent : Nat
  deriving DecidableEq, Repr

namespace TcpPersistTimer

def new (nowNanos : Nat) (retransmissionTimer : TcpRetransmissionTimer) : TcpPersistTimer :=
  { deadlineNanos := satAdd 64 nowNanos retransmissionTimer.timeoutNanos, probesSent := 0 }

def noteProbeSent (self : TcpPersistTimer) (nowNanos : Nat)
    (retransmissionTimer : TcpRetransmissionTimer) : TcpPersistTimer :=
  let probesSent := satAdd 8 self.probesSent 1
  { probesSent
    deadlineNanos := satAdd 64 nowNanos (retransmissionTimer.backedOffTimeoutNanos probesSent) }

end TcpPersistTimer

def timestampValue (nowNanos : Nat) : Nat :=
  nowNanos / 1000000 % 2 ^ 32

def timestampEchoRttNanos (nowNanos : Nat) (timestamp : TcpTimestampOption) : Nat :=
  (timestampValue nowNanos + 2 ^ 32 - timestamp.echoReply) % 2 ^ 32 * 1000000

def pacingIntervalNanos (bytes : Nat) (rate : PacingRate) : Nat :=
  max (bytes * 1000000000 / rate.bytesPerSecond) 1

def minDeadline : Option Nat → Option Nat → Option Nat
  | some left, some right => some (min left right)
  | some deadline, none => some deadline
  | none, some deadline => some deadline
  | none, none => none

/-! ### The sending half -/

structure SendSide (C : Type) where
  congestion : C
  sendNext : SequenceNumber
  sendUnacknowledged : SequenceNumber
  peerMaxSegmentSize : Nat
  peerWindowScale : Nat
  peerReceiveWindow : Nat
  transmitQueue : TcpTransmitQueue
  inFlight : List TcpInFlightSegment
  bytesInFlight : Nat
  deliveredBytes : Nat
  synQueued : Bool
  synAckQueued : Bool
  finQueued : Bool
  duplicateAckCount : Nat
  fastRetransmitPending : Bool
  pendingPmtuRetransmitSequence : Option SequenceNumber
  retransmissionTimer : TcpRetransmissionTimer
  persistTimer : Option TcpPersistTimer
  persistProbe : Option TcpPersistProbe
  nextPacingSendNanos : Option Nat

namespace SendSide

variable {C : Type} [CongestionControl C]

/-- The sending half of a connection that has sent nothing. -/
def closed (congestion : C) : SendSide C :=
  { congestion
    sendNext := 0
    sendUnacknowledged := 0
    peerMaxSegmentSize := tcpReceiveSegmentBytes
    peerWindowScale := 0
    peerReceiveWindow := maxWord 16
    transmitQueue := .new
    inFlight := []
    bytesInFlight := 0
    deliveredBytes := 0
    synQueued := false
    synAckQueued := false
    finQueued := false
    duplicateAckCount := 0
    fastRetransmitPending := false
    pendingPmtuRetransmitSequence := none
    retransmissionTimer := .new
    persistTimer := none
    persistProbe := none
    nextPacingSendNanos := none }

variable (self : SendSide C)

/-- What `abort` clears. -/
def abort : SendSide C :=
  { self with
    bytesInFlight := 0
    transmitQueue := .new
    inFlight := []
    synQueued := false
    synAckQueued := false
    finQueued := false
    duplicateAckCount := 0
    fastRetransmitPending := false
    pendingPmtuRetransmitSequence := none
    persistTimer := none
    persistProbe := none
    nextPacingSendNanos := none }

def inFlightIsFull : Bool :=
  decide (self.inFlight.length ≥ maxTcpInFlightSegments)

/-- Records a sent segment; every caller checked that there is room. -/
def pushInFlight (segment : TcpInFlightSegment) :
    Except Panic (SendSide C) :=
  if self.inFlightIsFull then
    .error .inFlightQueueFull
  else
    .ok { self with inFlight := self.inFlight ++ [segment] }

/-- Counts `len` more bytes in flight and tells the congestion controller. -/
def noteInFlight (len nowNanos : Nat) : SendSide C :=
  let bytesInFlight := satAdd 32 self.bytesInFlight len
  { self with
    bytesInFlight
    congestion := onPacketSent self.congestion len bytesInFlight nowNanos }

/-- Moves `send_next` past `len` bytes that go in flight. -/
def noteSent (len nowNanos : Nat) : SendSide C :=
  { self.noteInFlight len nowNanos with sendNext := self.sendNext + BitVec.ofNat 32 len }

def availableSendWindow : Nat :=
  min ((congestionWindow self.congestion).bytes - self.bytesInFlight)
    (self.peerReceiveWindow - self.bytesInFlight)

def scheduleNextPacingSend (bytes nowNanos : Nat) : SendSide C :=
  { self with
    nextPacingSendNanos := (pacingRate self.congestion).map fun rate =>
      satAdd 64 nowNanos (pacingIntervalNanos bytes rate) }

def scaledPeerReceiveWindow (windowSize : UInt16) : Nat :=
  windowSize.toNat <<< self.peerWindowScale

def updatePeerReceiveWindow (windowSize : UInt16) : SendSide C :=
  { self with peerReceiveWindow := self.scaledPeerReceiveWindow windowSize }

def firstUnsackedInFlight : Option TcpInFlightSegment :=
  self.inFlight.find? fun segment => !segment.sacked

/-- The segment in flight that holds `sequence` and was not selectively acknowledged. -/
def inFlightAt (sequence : SequenceNumber) : Option TcpInFlightSegment :=
  self.inFlight.find? fun segment =>
    sequenceLeq segment.header.sequence sequence && sequenceLt sequence (segmentEnd segment) &&
      !segment.sacked

def markPathMtuReduced (sequence : SequenceNumber) : SendSide C :=
  match self.inFlightAt sequence with
  | none => self
  | some segment =>
    { self with pendingPmtuRetransmitSequence := some segment.header.sequence }

/-! ### Acknowledgements -/

/-- The highest sequence number sent, the probe included.  The source compares the two
candidates as plain numbers. -/
def highestSentSequence : SequenceNumber :=
  match self.persistProbe with
  | none => self.sendNext
  | some probe =>
    if self.sendNext.toNat ≤ probe.endSequence.toNat then probe.endSequence else self.sendNext

variable (acknowledgement : SequenceNumber)

def acknowledgesUnsentData : Bool :=
  sequenceLt self.highestSentSequence acknowledgement

def synSentAckAcceptable : Bool :=
  sequenceLt self.sendUnacknowledged acknowledgement &&
    sequenceLeq acknowledgement self.sendNext

/-- Cuts the acknowledged part off the first segment in flight. -/
def trimAcked (segment : TcpInFlightSegment) (acknowledgement : SequenceNumber) :
    Except Panic TcpInFlightSegment :=
  let trim := (acknowledgement - segment.header.sequence).toNat
  let trimmed :=
    { segment with
      header := { segment.header with sequence := acknowledgement }
      sequenceLen := segment.sequenceLen - trim }
  if segment.payload = [] then
    .ok trimmed
  else if trim ≤ segment.payload.length then
    .ok { trimmed with payload := segment.payload.drop trim }
  else
    .error .partialAckTrimExceedsPayload

/-- The loop of `discard_acked_segments` over the segments in flight, first one first. -/
def discardAckedLoop (acknowledgement : SequenceNumber) :
    List TcpInFlightSegment → Except Panic (List TcpInFlightSegment)
  | [] => .ok []
  | front :: rest =>
    if sequenceLeq (segmentEnd front) acknowledgement then
      discardAckedLoop acknowledgement rest
    else if sequenceLt front.header.sequence acknowledgement then
      match trimAcked front acknowledgement with
      | .error panic => .error panic
      | .ok front => .ok (front :: rest)
    else
      .ok (front :: rest)

def discardAckedSegments :
    Except Panic (SendSide C) :=
  match discardAckedLoop acknowledgement self.inFlight with
  | .error panic => .error panic
  | .ok inFlight => .ok { self with inFlight }

/-- Settles an acknowledged probe: a data probe takes its byte out of the transmit
queue, a FIN probe counts as the FIN sent.  Returns the number of bytes it covered. -/
def discardAckedPersistProbe :
    Except Panic (SendSide C × Nat) :=
  match self.persistProbe with
  | none => .ok (self, 0)
  | some probe =>
    if sequenceLt probe.sequence acknowledgement then
      let acked := min (acknowledgement - probe.sequence).toNat probe.sequenceLen
      if probe.fin then
        if self.finQueued then
          .ok ({ self with persistProbe := none }, acked)
        else
          .ok ({ self with
                  persistProbe := none
                  finQueued := true
                  sendNext := self.sendNext + 1 }, acked)
      else
        match self.transmitQueue.discardFrontBytes acked with
        | .error panic => .error panic
        | .ok transmitQueue =>
          .ok ({ self with
                  persistProbe := none
                  transmitQueue
                  sendNext := self.sendNext + BitVec.ofNat 32 acked }, acked)
    else
      .ok (self, 0)

/-- The bytes an advancing acknowledgement takes out of flight.  While a probe at or
beyond `send_next` is outstanding the source counts everything in flight. -/
def ackedBytes : Nat :=
  match self.persistProbe with
  | none => (acknowledgement - self.sendUnacknowledged).toNat
  | some probe =>
    if sequenceLeq acknowledgement probe.endSequence && sequenceLeq self.sendNext probe.sequence then
      (self.sendNext - self.sendUnacknowledged).toNat
    else
      (acknowledgement - self.sendUnacknowledged).toNat

structure TimingScan where
  rttNanos : Nat
  firstSentAt : Option Nat
  lastSentAt : Option Nat

/-- The loop of `ack_sample_timing` over the acknowledged segments. -/
def timingLoop (acknowledgement : SequenceNumber) (nowNanos : Nat) :
    List TcpInFlightSegment → TimingScan → TimingScan
  | [], scan => scan
  | segment :: rest, scan =>
    if !sequenceLeq (segmentEnd segment) acknowledgement then
      scan
    else if segment.retransmissions ≠ 0 then
      timingLoop acknowledgement nowNanos rest scan
    else
      timingLoop acknowledgement nowNanos rest
        { rttNanos := nowNanos - segment.sentAtNanos
          firstSentAt := some (scan.firstSentAt.getD segment.sentAtNanos)
          lastSentAt := some segment.sentAtNanos }

section

variable (nowNanos : Nat) (timestamp : Option TcpTimestampOption)

/-- The round trip of a timestamp echo, unless it is shorter than the option's clock can
tell. -/
def timestampRtt : Option Nat :=
  match timestamp with
  | none => none
  | some timestamp =>
    if timestamp.echoReply = 0 then none
    else
      let rtt := timestampEchoRttNanos nowNanos timestamp
      if rtt = 0 then none else some rtt

def ackSampleTiming : TcpAckTiming :=
  let scan := timingLoop acknowledgement nowNanos self.inFlight ⟨0, none, none⟩
  let intervalNanos :=
    match scan.firstSentAt, scan.lastSentAt with
    | some first, some last => max (nowNanos - first) (last - first)
    | _, _ => 0
  let timestampRttNanos := timestampRtt nowNanos timestamp
  { rttNanos := timestampRttNanos.getD scan.rttNanos
    intervalNanos := if intervalNanos = 0 then timestampRttNanos.getD 0 else intervalNanos }

def noteDuplicateAck : SendSide C × Option RecoveryAction :=
  match self.firstUnsackedInFlight with
  | none => (self, none)
  | some lost =>
    let self := { self with duplicateAckCount := satAdd 8 self.duplicateAckCount 1 }
    if self.duplicateAckCount < 3 ∨ self.fastRetransmitPending = true then
      (self, none)
    else
      let reaction := onCongestionEvent self.congestion
        (.packetLoss lost.sequenceLen self.bytesInFlight nowNanos)
      ({ self with fastRetransmitPending := true, congestion := reaction.1 }, some reaction.2)

end

def sackBlockInSendRange (block : TcpSackBlock) : Bool :=
  sequenceLt block.leftEdge block.rightEdge &&
    sequenceLt self.sendUnacknowledged block.leftEdge &&
    sequenceLeq block.rightEdge self.sendNext

/-- Marks the segments a block covers as selectively acknowledged. -/
def applySackBlock (block : TcpSackBlock) : SendSide C :=
  if self.sackBlockInSendRange block then
    { self with
      inFlight := self.inFlight.map fun segment =>
        if sequenceLeq block.leftEdge segment.header.sequence &&
            sequenceLeq (segmentEnd segment) block.rightEdge then
          { segment with sacked := true }
        else
          segment }
  else
    self

def applySackBlocks (blocks : TcpSackBlocks) : SendSide C :=
  blocks.blocks.foldl applySackBlock self

def onRetransmissionTimeout : SendSide C :=
  { self with
    duplicateAckCount := 0
    fastRetransmitPending := false
    inFlight := self.inFlight.map fun segment => { segment with sacked := false } }

def markPersistProbeQueued (probe : TcpPersistProbe) (nowNanos : Nat) :
    SendSide C :=
  let timer := self.persistTimer.getD (.new nowNanos self.retransmissionTimer)
  { self with
    persistProbe := some probe
    persistTimer := some (timer.noteProbeSent nowNanos self.retransmissionTimer) }

def nextDeadlineNanos : Option Nat :=
  let rtoDeadline := self.inFlight.head?.map fun segment =>
    satAdd 64 segment.sentAtNanos
      (self.retransmissionTimer.backedOffTimeoutNanos segment.retransmissions)
  let pacingDeadline :=
    if self.transmitQueue.isEmpty then none else self.nextPacingSendNanos
  let persistDeadline := self.persistTimer.map TcpPersistTimer.deadlineNanos
  minDeadline (minDeadline rtoDeadline pacingDeadline) persistDeadline

end SendSide

end Helios
