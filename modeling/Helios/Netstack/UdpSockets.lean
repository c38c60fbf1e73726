import Helios.Library.OpenAddressing
import Helios.Netstack.Types

/-!
# UDP sockets

The table of UDP sockets: up to `maxUdpSockets` slots, a free list, the list of the slots
in use, and a hash index from bindings to slots.  A datagram is delivered to the socket
found under one of four bindings that name it exactly, and otherwise to the first socket
in use that accepts it.
-/

namespace Helios

open Function

@[irreducible]
def maxUdpSockets : Nat := 256

def udpBindingIndexSlots : Nat := maxUdpSockets * 2

/-- The errors that the operations on UDP sockets return. -/
inductive StackError where
  | unknownSocket
  | addressInUse
  deriving DecidableEq, Repr

structure UdpSocketId where
  raw : Nat
  raw_ne_zero : raw ≠ 0
  deriving DecidableEq, Repr

def udpSocketId (index : Nat) : UdpSocketId :=
  ⟨index + 1, Nat.succ_ne_zero index⟩

def udpSocketIndex (socket : UdpSocketId) : Nat :=
  socket.raw - 1

@[simp]
theorem udpSocketIndex_udpSocketId (index : Nat) :
  udpSocketIndex (udpSocketId index) = index
  := rfl

@[simp]
theorem udpSocketId_udpSocketIndex (socket : UdpSocketId) :
  udpSocketId (udpSocketIndex socket) = socket
  := by
  obtain ⟨raw, hraw⟩ := socket
  simp only [udpSocketId, udpSocketIndex, UdpSocketId.mk.injEq]
  omega

theorem udpSocketIndex_inj {a b : UdpSocketId} :
  udpSocketIndex a = udpSocketIndex b ↔ a = b
  := by
  constructor
  · intro h
    rw [← udpSocketId_udpSocketIndex a, h, udpSocketId_udpSocketIndex]
  · rintro rfl
    rfl

structure UdpEndpoint where
  address : IpAddress
  port : UInt16
  deriving DecidableEq, Repr

inductive UdpSocketError where
  | remotePortUnreachable
  | remoteNetworkUnreachable
  | remoteHostUnreachable
  | remoteProtocolUnreachable
  | remoteCommunicationProhibited
  deriving DecidableEq, Repr

/-- What a UDP socket receives: an address and a port of its own, and possibly the one
peer it is connected to.  An absent address stands for every address. -/
structure UdpSocketBinding where
  localAddress : Option IpAddress
  localPort : UInt16
  remote : Option UdpEndpoint
  deriving DecidableEq, Repr

def optionalIpAddressesOverlap : Option IpAddress → Option IpAddress → Bool
  | some left, some right => left == right || ipAddressUnspecifiedOverlap left right
  | _, _ => true

def optionalUdpRemotesOverlap : Option UdpEndpoint → Option UdpEndpoint → Bool
  | some left, some right =>
    left.port == right.port &&
      (left.address == right.address || ipAddressUnspecifiedOverlap left.address right.address)
  | _, _ => true

/-! ### Hashing -/

section

variable (hash : UInt64)

def mixBytes (bytes : List UInt8) : UInt64 :=
  bytes.foldl (fun hash byte => (hash ^^^ byte.toUInt64) * 0x00000100000001b3) hash

def mixU8 (value : UInt8) : UInt64 :=
  mixBytes hash [value]

def mixU16 (value : UInt16) : UInt64 :=
  mixBytes hash [(value >>> 8).toUInt8, value.toUInt8]

def mixIpAddress : IpAddress → UInt64
  | .ipv4 address => mixBytes hash address.octets.toList
  | .ipv6 address => mixBytes hash address.octets.toList

def mixOptionalIpAddress : Option IpAddress → UInt64
  | some address => mixIpAddress (mixU8 hash 1) address
  | none => mixU8 hash 0

end

namespace UdpSocketBinding

def wildcard (localPort : UInt16) : UdpSocketBinding :=
  { localAddress := none, localPort, remote := none }

def exact («local» : UdpEndpoint) : UdpSocketBinding :=
  { localAddress := some «local».address, localPort := «local».port, remote := none }

def connected («local» remote : UdpEndpoint) : UdpSocketBinding :=
  { localAddress := some «local».address, localPort := «local».port, remote := some remote }

section

variable (self : UdpSocketBinding) (source : IpAddress) (sourcePort : UInt16)
  (destination : IpAddress)

/-- Whether the binding takes a datagram, by its addresses and its source port. -/
def accepts : Bool :=
  if !ipAddressFamiliesMatch source destination then
    false
  else if self.localAddress.any (· != destination) then
    false
  else
    match self.remote with
    | some remote => remote.address == source && remote.port == sourcePort
    | none => true

/-- Whether two bindings could both receive some datagram. -/
def overlaps (self other : UdpSocketBinding) : Bool :=
  self.localPort == other.localPort &&
    optionalIpAddressesOverlap self.localAddress other.localAddress &&
    optionalUdpRemotesOverlap self.remote other.remote

def exactPacketBinding (destinationPort : UInt16) : UdpSocketBinding :=
  { localAddress := some destination
    localPort := destinationPort
    remote := some { address := source, port := sourcePort } }

end

def hash (self : UdpSocketBinding) : Nat :=
  let hash := mixOptionalIpAddress 0xcbf29ce484222325 self.localAddress
  let hash := mixU16 hash self.localPort
  match self.remote with
  | some remote => (mixU16 (mixIpAddress hash remote.address) remote.port).toNat
  | none => (mixU8 hash 0).toNat

end UdpSocketBinding

structure UdpSocketState where
  binding : UdpSocketBinding
  pendingError : Option UdpSocketError
  hopLimit : Nat
  deriving DecidableEq, Repr

def UdpSocketState.new (binding : UdpSocketBinding) : UdpSocketState :=
  { binding, pendingError := none, hopLimit := defaultHopLimit }

/-! ### The binding index -/

abbrev UdpBindingIndex := OpenAddressing.Table UdpSocketBinding

namespace UdpBindingIndex

def panic : OpenAddressing.Fault → Panic
  | .duplicateKey => .udpIndexDuplicateKey
  | .full => .udpIndexFull

variable (self : UdpBindingIndex) (key : UdpSocketBinding)

def insert (socketIndex : Nat) : Except Panic UdpBindingIndex :=
  (OpenAddressing.insert UdpSocketBinding.hash udpBindingIndexSlots self key socketIndex).mapError
    panic

def remove : Except Panic UdpBindingIndex :=
  (OpenAddressing.remove UdpSocketBinding.hash udpBindingIndexSlots self key).mapError panic

def lookup : Option Nat :=
  OpenAddressing.lookup UdpSocketBinding.hash udpBindingIndexSlots self key

end UdpBindingIndex

/-! ### The socket slab -/

/-- The UDP sockets.  The arrays of slots are functions of the slot number; the free
list and the list of slots in use are lists, the top of the free list first. -/
structure UdpSocketSlab where
  sockets : Nat → Option UdpSocketState
  free : List Nat
  active : List Nat
  activePositions : Nat → Nat
  bindingIndex : UdpBindingIndex

namespace UdpSocketSlab

variable (self : UdpSocketSlab)

def new : UdpSocketSlab where
  sockets := fun _ => none
  free := List.range maxUdpSockets
  active := []
  activePositions := fun _ => 0
  bindingIndex := fun _ => none

def get (index : Nat) : Option UdpSocketState :=
  self.sockets index

def insertActive (index : Nat) : Except Panic UdpSocketSlab :=
  if self.active.length < maxUdpSockets then
    .ok { self with
      activePositions := update self.activePositions index self.active.length
      active := self.active ++ [index] }
  else
    .error .udpActiveFull

/-- Takes a slot out of the list of slots in use: the last one moves into its place. -/
def removeActive (index : Nat) : Except Panic UdpSocketSlab :=
  match self.active.getLast? with
  | none => .error .udpActiveUnderflowed
  | some moved =>
    let position := self.activePositions index
    if self.active[position]? = some index then
      .ok { self with
        active := (self.active.set position moved).dropLast
        activePositions := update self.activePositions moved position }
    else
      .error .udpActiveCorrupt

/-- Whether a binding overlaps one of the sockets in the given slots. -/
def bindingOverlapsIn (self : UdpSocketSlab) (binding : UdpSocketBinding) :
    List Nat → Except Panic Bool
  | [] => .ok false
  | index :: rest =>
    match self.get index with
    | none => .error .udpActiveMissingSocket
    | some socket =>
      if socket.binding.overlaps binding then .ok true else self.bindingOverlapsIn binding rest

def bindingOverlapsExcept (binding : UdpSocketBinding)
    (exceptIndex : Nat) : Except Panic Bool :=
  self.bindingOverlapsIn binding (self.active.filter (· != exceptIndex))

def bindingOverlaps (binding : UdpSocketBinding) : Except Panic Bool :=
  self.bindingOverlapsExcept binding (Machine.maxWord 64)

def insert (self : UdpSocketSlab) (binding : UdpSocketBinding) :
    Except Panic (UdpSocketSlab × Except StackError UdpSocketId) := do
  if ← self.bindingOverlaps binding then
    return (self, .error .addressInUse)
  match self.free with
  | [] => throw .udpSlabFull
  | index :: free =>
    if (self.sockets index).isSome then
      throw .udpFreeListCorrupt
    let bindingIndex ← self.bindingIndex.insert binding index
    let self ← insertActive
      { self with
        free
        sockets := update self.sockets index (some (UdpSocketState.new binding))
        bindingIndex } index
    return (self, .ok (udpSocketId index))

def rebind (socket : UdpSocketId) (binding : UdpSocketBinding) :
    Except Panic (UdpSocketSlab × Except StackError Unit) := do
  let index := udpSocketIndex socket
  match self.get index with
  | none => return (self, .error .unknownSocket)
  | some state =>
    if state.binding = binding then
      return (self, .ok ())
    if ← self.bindingOverlapsExcept binding index then
      return (self, .error .addressInUse)
    let bindingIndex ← self.bindingIndex.remove state.binding
    let bindingIndex ← bindingIndex.insert binding index
    return ({ self with
      sockets := update self.sockets index
        (some { state with binding, pendingError := none })
      bindingIndex }, .ok ())

def remove (self : UdpSocketSlab) (index : Nat) :
    Except Panic (UdpSocketSlab × Option UdpSocketState) := do
  match self.get index with
  | none => return (self, none)
  | some socket =>
    let bindingIndex ← self.bindingIndex.remove socket.binding
    let self ← removeActive
      { self with sockets := update self.sockets index none, bindingIndex } index
    return ({ self with free := index :: self.free }, some socket)

def takePendingError (socket : UdpSocketId) :
    UdpSocketSlab × Except StackError (Option UdpSocketError) :=
  let index := udpSocketIndex socket
  match self.get index with
  | none => (self, .error .unknownSocket)
  | some state =>
    ({ self with
      sockets := update self.sockets index (some { state with pendingError := none }) },
      .ok state.pendingError)

/-- The first of the given slots whose socket accepts a datagram. -/
def findAccepting (self : UdpSocketSlab) (source : IpAddress) (sourcePort : UInt16)
    (destination : IpAddress) : List Nat → Except Panic (Option Nat)
  | [] => .ok none
  | index :: rest =>
    match self.get index with
    | none => .error .udpActiveMissingSocket
    | some socket =>
      if socket.binding.accepts source sourcePort destination then .ok (some index)
      else self.findAccepting source sourcePort destination rest

/-- The bindings under which a datagram's socket is looked up, in this order. -/
def candidateBindings (packetBinding : UdpSocketBinding) : List UdpSocketBinding :=
  [packetBinding,
    { packetBinding with remote := none },
    { packetBinding with localAddress := none },
    { packetBinding with localAddress := none, remote := none }]

def socketForPacket (source : IpAddress) (sourcePort : UInt16)
    (destination : IpAddress) (destinationPort : UInt16) :
    Except Panic (Option UdpSocketId) := do
  let packetBinding :=
    UdpSocketBinding.exactPacketBinding source sourcePort destination destinationPort
  match (candidateBindings packetBinding).findSome? self.bindingIndex.lookup with
  | some index => return some (udpSocketId index)
  | none => return (← self.findAccepting source sourcePort destination self.active).map udpSocketId

end UdpSocketSlab
end Helios
