import Helios.Library.Transition
import Helios.Netstack.TcpArrival

/-!
# Runs of a TCP socket

The operations that the stack and the application perform on a socket, in any order,
and what each of them returns.  A run of a socket is a run of this machine.
-/

namespace Helios

/-- One operation on a socket.  The operations that put something on the wire ask the
socket what is pending and, when there is something, mark it as sent. -/
inductive SocketOp (S : Type) where
  | queueSendBytes (bytes : Bytes)
  | takeTransmitSegment (nowNanos : Nat) (budget : TcpSegmentBudget)
  | retransmit (nowNanos tcpSegmentMtu : Nat)
  | markPathMtuReduced (sequence : SequenceNumber)
  | sendSyn (nowNanos : Nat)
  | sendSynAck (nowNanos : Nat)
  | sendAck (nowNanos : Nat)
  | expireTimers (nowNanos : Nat)
  | receive (maxBytes nowNanos : Nat)
  | receiveInto (buffer : S) (nowNanos : Nat)
  | onSegment (packet : TcpPacket) (nowNanos : Nat)
  | closeSend
  | abort

inductive SocketOutput (S : Type) where
  | done
  | accepted (count : Nat)
  | segment (segment : Option TcpTransmitSegment)
  | header (header : Option (TcpHeader × TcpHeaderOptions))
  | acknowledged (header : TcpHeader) (options : TcpHeaderOptions) (reopenedWindow : Bool)
  | bytes (bytes : Option Bytes)
  | buffer (buffer : S) (bytes : Option Bytes)
  | outcome (outcome : TcpSegmentOutcome)

namespace TcpSocket

variable {C : Type} [CongestionControl C] {S : Type} [TcpReceiveBuffer S]

variable (self : TcpSocket C)

/-- Sends the pending retransmission, if there is one. -/
def retransmit (nowNanos tcpSegmentMtu : Nat) :
    TcpSocket C × Option TcpTransmitSegment :=
  match self.pendingRetransmissionWithMtu nowNanos tcpSegmentMtu with
  | none => (self, none)
  | some segment =>
    (self.markRetransmissionQueued segment.header.sequence nowNanos, some segment)

def sendSyn (nowNanos : Nat) :
    Except Panic (TcpSocket C × Option (TcpHeader × TcpHeaderOptions)) :=
  match self.pendingSyn with
  | none => .ok (self, none)
  | some header =>
    (self.markSynQueued nowNanos).map fun socket =>
      (socket, some (header, self.pendingSynOptions nowNanos))

def sendSynAck (nowNanos : Nat) :
    Except Panic (TcpSocket C × Option (TcpHeader × TcpHeaderOptions)) :=
  match self.pendingSynAck with
  | none => .ok (self, none)
  | some header =>
    (self.markSynAckQueued nowNanos).map fun socket =>
      (socket, some (header, self.pendingSynAckOptions nowNanos))

/-- One operation of a run. -/
def step : SocketOp S → Except Panic (TcpSocket C × SocketOutput S)
  | .queueSendBytes bytes =>
    (self.queueSendBytes bytes).map fun (socket, count) => (socket, .accepted count)
  | .takeTransmitSegment nowNanos budget =>
    (self.takeTransmitSegment nowNanos budget).map fun (socket, segment) =>
      (socket, .segment segment)
  | .retransmit nowNanos tcpSegmentMtu =>
    let (socket, segment) := self.retransmit nowNanos tcpSegmentMtu
    .ok (socket, .segment segment)
  | .markPathMtuReduced sequence =>
    .ok ({ self with send := self.send.markPathMtuReduced sequence }, .done)
  | .sendSyn nowNanos =>
    (self.sendSyn nowNanos).map fun (socket, header) => (socket, .header header)
  | .sendSynAck nowNanos =>
    (self.sendSynAck nowNanos).map fun (socket, header) => (socket, .header header)
  | .sendAck nowNanos =>
    match self.pendingAck with
    | none => .ok (self, .header none)
    | some header =>
      let (socket, reopenedWindow) := self.markAckQueued
      .ok (socket, .acknowledged header (self.pendingAckOptions nowNanos) reopenedWindow)
  | .expireTimers nowNanos => .ok (self.expireTimers nowNanos, .done)
  | .receive maxBytes nowNanos =>
    (self.receive maxBytes nowNanos).map fun (socket, bytes) => (socket, .bytes bytes)
  | .receiveInto buffer nowNanos =>
    (self.receiveInto buffer nowNanos).map fun (socket, buffer, bytes) =>
      (socket, .buffer buffer bytes)
  | .onSegment packet nowNanos =>
    (self.onSegment packet nowNanos).map fun (socket, outcome) => (socket, .outcome outcome)
  | .closeSend => .ok (self.closeSend, .done)
  | .abort => .ok (self.abort, .done)

end TcpSocket

/-- A segment of a remote peer without options and payload. -/
def bareSegment (flags : TcpFlags) (sequence acknowledgement : SequenceNumber)
    (windowSize : UInt16) : TcpPacket :=
  { sourcePort := 80
    destinationPort := 49152
    sequence
    acknowledgement
    flags
    windowSize
    options := .empty
    payload := []
    payload_lt := by decide }

/-- A connection with initial sequence number 7 from the port 49152 to the port 80 of a
peer. -/
def sampleConnect : TcpSocket NewReno :=
  .connect ⟨.ipv4 ⟨#v[10, 0, 0, 1]⟩, 49152⟩ ⟨.ipv4 ⟨#v[10, 0, 0, 2]⟩, 80⟩ 7
    (.new 1460 (by decide))

/-- A connection from the same peer that was accepted at its sequence number 101. -/
def sampleAccept : TcpSocket NewReno :=
  .accept ⟨.ipv4 ⟨#v[10, 0, 0, 1]⟩, 49152⟩ ⟨.ipv4 ⟨#v[10, 0, 0, 2]⟩, 80⟩ 101 7
    (.new 1460 (by decide))

end Helios
