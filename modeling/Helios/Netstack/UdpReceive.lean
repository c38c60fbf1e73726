import Helios.Library.Transition
import Helios.Netstack.UdpSockets

/-!
# The UDP receive queue

All UDP sockets share one queue of received datagrams, with a count for each socket.  A
socket's next datagram is found by rotating the queue until it is at the front.  When
the queue is full, a datagram of a socket that holds more than its fair share makes room,
found in the same way.
-/

namespace Helios

def maxUdpRx : Nat := 64

structure UdpReceive where
  source : IpAddress
  destination : IpAddress
  sourcePort : UInt16
  destinationPort : UInt16
  bytes : Bytes
  deriving DecidableEq, Repr

structure UdpQueuedReceive where
  socket : UdpSocketId
  datagram : UdpReceive
  deriving DecidableEq, Repr

structure UdpStack where
  udp : UdpSocketSlab
  udpRx : List UdpQueuedReceive
  udpRxCounts : Nat → Nat

/-- The element with the largest key, the last one of several. -/
def maxByKey {α : Type} (key : α → Nat) (xs : List α) : Option α :=
  xs.foldl
    (fun best x =>
      match best with
      | none => some x
      | some b => if key x < key b then some b else some x)
    none

def pushBack {α : Type} (capacity : Nat) (full : Panic) (queue : List α) (x : α) :
    Except Panic (List α) :=
  if queue.length < capacity then .ok (queue ++ [x]) else .error full

/-- Rotates the queue, at most `count` places, until a datagram of `socket` is at the
front, and takes that datagram. -/
def rotateToSocket (socket : UdpSocketId) :
    Nat → List UdpQueuedReceive → Except Panic (UdpQueuedReceive × List UdpQueuedReceive)
  | 0, _ => .error .udpCountWithoutDatagram
  | _ + 1, [] => .error .udpQueueLengthChanged
  | count + 1, queued :: rest =>
    if queued.socket = socket then
      .ok (queued, rest)
    else
      match pushBack maxUdpRx .udpQueueLostCapacity rest queued with
      | .error panic => .error panic
      | .ok queue => rotateToSocket socket count queue

/-- Rotates the queue `count` places and drops the datagrams of `socket` on the way,
with the number of datagrams that are still counted for it. -/
def pruneSocket (socket : UdpSocketId) :
    Nat → List UdpQueuedReceive → Nat → Except Panic (List UdpQueuedReceive × Nat)
  | 0, queue, socketCount => .ok (queue, socketCount)
  | _ + 1, [], _ => .error .udpQueueLengthChanged
  | count + 1, queued :: rest, socketCount =>
    if queued.socket = socket then
      if socketCount = 0 then .error .udpCountUnderflowed
      else pruneSocket socket count rest (socketCount - 1)
    else
      match pushBack maxUdpRx .udpQueueLostCapacity rest queued with
      | .error panic => .error panic
      | .ok queue => pruneSocket socket count queue socketCount

namespace UdpStack

variable (self : UdpStack)

def new : UdpStack where
  udp := .new
  udpRx := []
  udpRxCounts := fun _ => 0

variable (socket : UdpSocketId)

def udpSocket : Except StackError UdpSocketState :=
  match self.udp.get (udpSocketIndex socket) with
  | none => .error .unknownSocket
  | some state => .ok state

def countDown (index : Nat) (udpRx : List UdpQueuedReceive) :
    Except Panic UdpStack :=
  if self.udpRxCounts index = 0 then
    .error .udpCountUnderflowed
  else
    .ok { self with
      udpRx
      udpRxCounts := Function.update self.udpRxCounts index (self.udpRxCounts index - 1) }

/-- Takes a datagram of `socket` out of the queue by rotation. -/
def takeByRotation :
    Except Panic (UdpStack × UdpReceive) := do
  let (queued, udpRx) ← rotateToSocket socket self.udpRx.length self.udpRx
  let self ← self.countDown (udpSocketIndex socket) udpRx
  return (self, queued.datagram)

def takeUdp :
    Except Panic (UdpStack × Except StackError (Option UdpReceive)) := do
  let .ok _ := self.udpSocket socket | return (self, .error .unknownSocket)
  let index := udpSocketIndex socket
  if self.udpRxCounts index = 0 then
    return (self, .ok none)
  match self.udpRx with
  | queued :: rest =>
    if queued.socket = socket then
      let self ← self.countDown index rest
      return (self, .ok (some queued.datagram))
    else
      let (self, datagram) ← self.takeByRotation socket
      return (self, .ok (some datagram))
  | [] =>
    let (self, datagram) ← self.takeByRotation socket
    return (self, .ok (some datagram))

def fairShare : Nat :=
  let active := max self.udp.active.length 1
  max ((maxUdpRx + active - 1) / active) 1

/-- The socket that gives up a datagram to make room for one of `socket`: the socket
itself or the one that holds the most, above its fair share. -/
def evictionVictim : Option UdpSocketId :=
  if self.fairShare < self.udpRxCounts (udpSocketIndex socket) then
    some socket
  else
    (maxByKey self.udpRxCounts
      (self.udp.active.filter fun candidate => self.fairShare < self.udpRxCounts candidate)).map
        udpSocketId

def evictUdpReceiveFor :
    Except Panic (UdpStack × Bool) := do
  match self.evictionVictim socket with
  | none => return (self, false)
  | some victim =>
    let (self, _) ← self.takeByRotation victim
    return (self, true)

def appendUdpReceive (datagram : UdpReceive) :
    Except Panic UdpStack := do
  let index := udpSocketIndex socket
  let udpRx ← pushBack maxUdpRx .udpQueueFullAfterEviction self.udpRx { socket, datagram }
  if self.udpRxCounts index = 255 then
    throw .udpCountOverflowed
  return { self with
    udpRx
    udpRxCounts := Function.update self.udpRxCounts index (self.udpRxCounts index + 1) }

def queueUdpReceive (datagram : UdpReceive) :
    Except Panic UdpStack := do
  if self.udpRx.length = maxUdpRx then
    let (self, evicted) ← self.evictUdpReceiveFor socket
    if evicted then self.appendUdpReceive socket datagram else return self
  else
    self.appendUdpReceive socket datagram

/-- Delivers a datagram that passed its checks: to the queue of the socket it is for, if
there is one. -/
def receiveUdp (datagram : UdpReceive) : Except Panic (UdpStack × Bool) := do
  match ← self.udp.socketForPacket datagram.source datagram.sourcePort datagram.destination
      datagram.destinationPort with
  | none => return (self, false)
  | some socket => return (← self.queueUdpReceive socket datagram, true)

def clearUdpReceiveQueue :
    Except Panic (UdpStack × Except StackError Unit) := do
  let index := udpSocketIndex socket
  let .ok _ := self.udpSocket socket | return (self, .error .unknownSocket)
  let (udpRx, socketCount) ←
    pruneSocket socket self.udpRx.length self.udpRx (self.udpRxCounts index)
  if socketCount = 0 then
    return ({ self with
      udpRx
      udpRxCounts := Function.update self.udpRxCounts index socketCount }, .ok ())
  else
    throw .udpCountNonZeroAfterPruning

def openUdp (binding : UdpSocketBinding) :
    Except Panic (UdpStack × Except StackError UdpSocketId) := do
  let (udp, result) ← self.udp.insert binding
  return ({ self with udp }, result)

def rebindUdp (binding : UdpSocketBinding) :
    Except Panic (UdpStack × Except StackError Unit) := do
  let (udp, result) ← self.udp.rebind socket binding
  match result with
  | .error error => return ({ self with udp }, .error error)
  | .ok () => clearUdpReceiveQueue { self with udp } socket

def removeUdpSocket :
    Except Panic (UdpStack × Except StackError Unit) := do
  let (self, result) ← self.clearUdpReceiveQueue socket
  match result with
  | .error error => return (self, .error error)
  | .ok () =>
    let (udp, removed) ← self.udp.remove (udpSocketIndex socket)
    match removed with
    | none => return ({ self with udp }, .error .unknownSocket)
    | some _ => return ({ self with udp }, .ok ())

def takeUdpError :
    UdpStack × Except StackError (Option UdpSocketError) :=
  let (udp, result) := self.udp.takePendingError socket
  ({ self with udp }, result)

/-! ### Runs -/

/-- What is asked of the UDP part of the stack. -/
inductive Op where
  | openUdp (binding : UdpSocketBinding)
  | rebindUdp (socket : UdpSocketId) (binding : UdpSocketBinding)
  | removeUdpSocket (socket : UdpSocketId)
  | receiveUdp (datagram : UdpReceive)
  | takeUdp (socket : UdpSocketId)
  | takeUdpError (socket : UdpSocketId)

/-- What it answers. -/
inductive Output where
  | opened (result : Except StackError UdpSocketId)
  | done (result : Except StackError Unit)
  | delivered (accepted : Bool)
  | taken (result : Except StackError (Option UdpReceive))
  | pendingError (result : Except StackError (Option UdpSocketError))

def step : Op → Except Panic (UdpStack × Output)
  | .openUdp binding => (self.openUdp binding).map fun (self, result) => (self, .opened result)
  | .rebindUdp socket binding =>
    (self.rebindUdp socket binding).map fun (self, result) => (self, .done result)
  | .removeUdpSocket socket =>
    (self.removeUdpSocket socket).map fun (self, result) => (self, .done result)
  | .receiveUdp datagram =>
    (self.receiveUdp datagram).map fun (self, accepted) => (self, .delivered accepted)
  | .takeUdp socket => (self.takeUdp socket).map fun (self, result) => (self, .taken result)
  | .takeUdpError socket =>
    let (self, result) := self.takeUdpError socket
    .ok (self, .pendingError result)

end UdpStack
end Helios
