import Helios.Netstack.TcpReceive
import Helios.Netstack.TcpSend

/-!
# TCP sockets

A TCP connection: its endpoints and state, with its sending and its receiving half.
This module defines the socket, the segments it emits, and the acknowledgements,
retransmissions and timers around them; the arrival of a segment has its own module.
-/

namespace Helios

open Machine

def tcpMaxWindowScale : Nat := 14

def tcpTimeWaitNanos : Nat := 60000000000

inductive TcpState where
  | closed
  | listen
  | synSent
  | synReceived
  | established
  | finWait1
  | finWait2
  | closeWait
  | closing
  | lastAck
  | timeWait
  deriving DecidableEq, Repr

inductive TcpStateChangeReason where
  | listen
  | connect
  | accept
  | timeWaitExpired
  | retransmissionLimit
  | synSentReset
  | synSentEstablished
  | synReceivedReset
  | synReceivedEstablished
  | peerReset
  | peerSyn
  | peerFin
  | localClose
  | finAcknowledged
  | abort
  deriving DecidableEq, Repr

/-- How a closed connection ended, for an application still holding it. -/
inductive TcpCloseKind where
  | graceful
  | reset
  | aborted
  | unresponsive
  deriving DecidableEq, Repr

def TcpStateChangeReason.closeKind : TcpStateChangeReason → Option TcpCloseKind
  | .timeWaitExpired | .peerFin | .localClose | .finAcknowledged => some .graceful
  | .synSentReset | .synReceivedReset | .peerReset | .peerSyn => some .reset
  | .abort => some .aborted
  | .retransmissionLimit => some .unresponsive
  | .listen | .connect | .accept | .synSentEstablished | .synReceivedEstablished => none

inductive TcpCloseAction where
  | reclaim
  | reset
  | finish
  deriving DecidableEq, Repr

/-- How much of the transmit queue one frame may carry, in TCP header and payload
bytes: one packet on the wire, and one frame handed to a segmenting interface. -/
structure TcpSegmentBudget where
  wireSegment : Nat
  coalesced : Nat
  deriving DecidableEq, Repr

structure TcpTransmitSegment where
  localEndpoint : TcpEndpoint
  remoteEndpoint : TcpEndpoint
  header : TcpHeader
  options : TcpHeaderOptions
  payload : Bytes
  sequenceLen : Nat
  segmentBytes : Nat
  retransmission : Bool
  deriving DecidableEq

structure TcpReset where
  localEndpoint : TcpEndpoint
  remoteEndpoint : TcpEndpoint
  header : TcpHeader
  deriving DecidableEq, Repr

structure TcpSegmentOutcome where
  recovery : Option RecoveryAction
  readable : Bool
  receiveBackpressure : Bool
  reset : Option TcpReset
  deriving DecidableEq, Repr

def TcpSegmentOutcome.default : TcpSegmentOutcome :=
  { recovery := none, readable := false, receiveBackpressure := false, reset := none }

structure TcpSocket (C : Type) where
  localEndpoint : Option TcpEndpoint
  remoteEndpoint : Option TcpEndpoint
  state : TcpState
  closeKind : Option TcpCloseKind
  peerTimestamp : Option TcpTimestampOption
  timeWaitDeadlineNanos : Option Nat
  hopLimit : Nat
  send : SendSide C
  recv : ReceiveSide

def synHeaderOptions (nowNanos : Nat) (echoReply : Option Nat) : TcpHeaderOptions :=
  { maximumSegmentSize := some tcpReceiveSegmentBytes
    windowScale := some tcpLocalWindowScale
    sackPermitted := true
    sackBlocks := .empty
    timestamp := some { value := timestampValue nowNanos, echoReply := echoReply.getD 0 } }

namespace TcpSocket

variable {C : Type} [CongestionControl C]

/-! ### Opening and closing -/

def closed (congestion : C) : TcpSocket C :=
  { localEndpoint := none
    remoteEndpoint := none
    state := .closed
    closeKind := none
    peerTimestamp := none
    timeWaitDeadlineNanos := none
    hopLimit := defaultHopLimit
    send := .closed congestion
    recv := .closed }

variable (self : TcpSocket C)

/-- The single place where the state changes.  Every transition into `closed` carries a
reason that says how the connection ended. -/
def setState (next : TcpState) (reason : TcpStateChangeReason) :
    TcpSocket C :=
  if self.state = next then
    self
  else
    { self with
      state := next
      closeKind := if next = .closed then reason.closeKind else none }

def listen (localEndpoint : TcpEndpoint) (congestion : C) : TcpSocket C :=
  setState { closed congestion with localEndpoint := some localEndpoint } .listen .listen

/-- The sending half of a connection that will open with the given sequence number. -/
def openSend (congestion : C) (initialSequence : SequenceNumber) : SendSide C :=
  { SendSide.closed congestion with
    sendNext := initialSequence + 1
    sendUnacknowledged := initialSequence }

def connect (localEndpoint remoteEndpoint : TcpEndpoint) (initialSequence : SequenceNumber)
    (congestion : C) : TcpSocket C :=
  let socket :=
    setState
      { closed congestion with
        localEndpoint := some localEndpoint
        remoteEndpoint := some remoteEndpoint }
      .synSent .connect
  { socket with send := openSend congestion initialSequence }

def accept (localEndpoint remoteEndpoint : TcpEndpoint)
    (receiveNext initialSequence : SequenceNumber) (congestion : C) : TcpSocket C :=
  let socket :=
    setState
      { closed congestion with
        localEndpoint := some localEndpoint
        remoteEndpoint := some remoteEndpoint }
      .synReceived .accept
  { socket with
    send := openSend congestion initialSequence
    recv := socket.recv.setReceiveBase receiveNext }

variable (nowNanos : Nat)

def enterTimeWait : TcpSocket C :=
  { self.setState .timeWait .peerFin with
    timeWaitDeadlineNanos := some (satAdd 64 nowNanos tcpTimeWaitNanos) }

def closeAction : TcpCloseAction :=
  match self.state with
  | .closed | .listen | .synSent => .reclaim
  | .finWait1 | .finWait2 | .closing | .lastAck | .timeWait => .finish
  | .synReceived => .reset
  | .established | .closeWait =>
    if self.recv.receiveBufferedBytes = 0 then .finish else .reset

def closeSend : TcpSocket C :=
  match self.state with
  | .established => self.setState .finWait1 .localClose
  | .closeWait => self.setState .lastAck .localClose
  | _ => self

def abort : TcpSocket C :=
  { self.setState .closed .abort with
    timeWaitDeadlineNanos := none
    send := self.send.abort
    recv := self.recv.abort }

def isListeningOn (address : IpAddress) (port : UInt16) : Bool :=
  match self.localEndpoint with
  | none => false
  | some endpoint =>
    decide (self.state = .listen) && endpoint.port == port &&
      match endpoint.address, address with
      | .ipv4 bound, .ipv4 address => bound.isUnspecified || decide (bound = address)
      | .ipv6 bound, .ipv6 address => bound.isUnspecified || decide (bound = address)
      | _, _ => false

/-! ### Headers -/

/-- A header between the socket's endpoints, or `none` for a socket without both. -/
def headerWith (sequence acknowledgement : SequenceNumber)
    (flags : TcpFlags) (windowSize : Nat) : Option TcpHeader :=
  match self.localEndpoint, self.remoteEndpoint with
  | some localEndpoint, some remoteEndpoint =>
    some
      { sourcePort := localEndpoint.port
        destinationPort := remoteEndpoint.port
        sequence
        acknowledgement
        flags
        windowSize }
  | _, _ => none

def pendingSyn : Option TcpHeader :=
  if self.state ≠ .synSent ∨ self.send.synQueued = true then
    none
  else
    self.headerWith self.send.sendUnacknowledged 0 .syn
      (receiveWindowSize self.recv.receiveBufferedBytes 0)

def pendingSynAck : Option TcpHeader :=
  if self.state ≠ .synReceived ∨ self.send.synAckQueued = true then
    none
  else
    self.headerWith self.send.sendUnacknowledged self.recv.receiveNext
      (TcpFlags.syn.union .ack) (receiveWindowSize self.recv.receiveBufferedBytes 0)

def pendingReset : Option TcpHeader :=
  self.headerWith self.send.sendNext self.recv.receiveNext (TcpFlags.rst.union .ack) 0

def pendingAck : Option TcpHeader :=
  if self.recv.pendingAcks = 0 then
    none
  else
    self.headerWith self.send.sendNext self.recv.receiveNext .ack self.recv.advertisedWindow

def unacceptableAckReset (acknowledgement : SequenceNumber) :
    Option TcpReset :=
  match self.localEndpoint, self.remoteEndpoint with
  | some localEndpoint, some remoteEndpoint =>
    some
      { localEndpoint
        remoteEndpoint
        header :=
          { sourcePort := localEndpoint.port
            destinationPort := remoteEndpoint.port
            sequence := acknowledgement
            acknowledgement := 0
            flags := .rst
            windowSize := 0 } }
  | _, _ => none

def timestampedOptions : TcpHeaderOptions :=
  match self.peerTimestamp with
  | none => .empty
  | some peerTimestamp =>
    { TcpHeaderOptions.empty with
      timestamp := some { value := timestampValue nowNanos, echoReply := peerTimestamp.value } }

/-- The blocks that report the segments held aside, as many as a header takes. -/
def sackBlocksOf : List TcpOutOfOrderSegment → TcpSackBlocks → TcpSackBlocks
  | [], blocks => blocks
  | segment :: rest, blocks =>
    match blocks.push { leftEdge := segment.sequence, rightEdge := segment.endSequence } with
    | none => blocks
    | some blocks => sackBlocksOf rest blocks

def pendingAckOptions : TcpHeaderOptions :=
  { self.timestampedOptions nowNanos with
    sackBlocks :=
      if self.recv.peerSackPermitted then sackBlocksOf self.recv.outOfOrder .empty else .empty }

def pendingSynOptions (_ : TcpSocket C) (nowNanos : Nat) : TcpHeaderOptions :=
  synHeaderOptions nowNanos none

def pendingSynAckOptions : TcpHeaderOptions :=
  synHeaderOptions nowNanos (self.peerTimestamp.map TcpTimestampOption.value)

/-! ### The handshake and pure acknowledgements -/

/-- Records a segment that carries no payload and occupies one sequence number, a SYN
or a SYN-ACK, as sent. -/
def recordHandshake (send : SendSide C) (header : TcpHeader) (options : TcpHeaderOptions)
    (nowNanos : Nat) : Except Panic (SendSide C) :=
  (send.noteInFlight 1 nowNanos).pushInFlight (.sent header options [] 1 nowNanos)

def markSynQueued : Except Panic (TcpSocket C) :=
  if self.state ≠ .synSent then
    .error .synQueuedOutsideSynSent
  else
    match self.pendingSyn with
    | none => .error .synHeaderDisappeared
    | some header =>
      match recordHandshake { self.send with synQueued := true } header
          (synHeaderOptions nowNanos none) nowNanos with
      | .error panic => .error panic
      | .ok send => .ok { self with send }

def markSynAckQueued : Except Panic (TcpSocket C) :=
  if self.state ≠ .synReceived then
    .error .synAckQueuedOutsideSynReceived
  else
    match self.pendingSynAck with
    | none => .error .synAckHeaderDisappeared
    | some header =>
      match recordHandshake { self.send with synAckQueued := true } header
          (self.pendingSynAckOptions nowNanos) nowNanos with
      | .error panic => .error panic
      | .ok send => .ok { self with send }

/-- Consumes one owed acknowledgement; the flag says whether it reopens the window. -/
def markAckQueued : TcpSocket C × Bool :=
  ({ self with
      recv := { self.recv.noteAckEmitted with pendingAckReopensWindow := false } },
    self.recv.pendingAckReopensWindow)

end TcpSocket

end Helios
