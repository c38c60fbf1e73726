import Helios.Library.Machine
import Mathlib.Data.Vector.Basic

/-!
# Addresses and bytes

The address types of the network stack, with the predicates the stack asks of them,
and the places where its code aborts.
-/

namespace Helios

/-- A byte string: a payload, a frame, or a part of one. -/
abbrev Bytes := List UInt8

abbrev EthernetAddress := Vector UInt8 6

structure Ipv4Address where
  octets : Vector UInt8 4
  deriving DecidableEq, Repr

structure Ipv6Address where
  octets : Vector UInt8 16
  deriving DecidableEq, Repr

namespace Ipv4Address

def unspecified : Ipv4Address := ⟨#v[0, 0, 0, 0]⟩

def broadcast : Ipv4Address := ⟨#v[255, 255, 255, 255]⟩

def isUnspecified (a : Ipv4Address) : Bool :=
  a.octets[0] == 0 && a.octets[1] == 0 && a.octets[2] == 0 && a.octets[3] == 0

def isMulticast (a : Ipv4Address) : Bool :=
  decide (a.octets[0] ≥ 224) && decide (a.octets[0] ≤ 239)

end Ipv4Address

namespace Ipv6Address

def unspecified : Ipv6Address := ⟨.replicate 16 0⟩

variable (a : Ipv6Address)

def isUnspecified : Bool :=
  a.octets.all (· == 0)

def isMulticast : Bool :=
  a.octets[0] == 0xff

def isLinkLocal : Bool :=
  a.octets[0] == 0xfe && (a.octets[1] &&& 0xc0) == 0x80

end Ipv6Address

inductive IpAddress where
  | ipv4 (address : Ipv4Address)
  | ipv6 (address : Ipv6Address)
  deriving DecidableEq, Repr

def IpAddress.isUnspecified : IpAddress → Bool
  | .ipv4 address => address.isUnspecified
  | .ipv6 address => address.isUnspecified

def defaultHopLimit : Nat := 64

structure TcpEndpoint where
  address : IpAddress
  port : UInt16
  deriving DecidableEq, Repr

def ipAddressFamiliesMatch : IpAddress → IpAddress → Bool
  | .ipv4 _, .ipv4 _ => true
  | .ipv6 _, .ipv6 _ => true
  | _, _ => false

/-- Two addresses of one family overlap when either is the unspecified one. -/
def ipAddressUnspecifiedOverlap : IpAddress → IpAddress → Bool
  | .ipv4 left, .ipv4 right => left.isUnspecified || right.isUnspecified
  | .ipv6 left, .ipv6 right => left.isUnspecified || right.isUnspecified
  | _, _ => false

/-- The places where the code aborts instead of returning: its assertions, its
`expect`s and its out-of-bounds slices.  Each constructor quotes the message. -/
inductive Panic where
  /-- "TCP transmit queue cannot store empty bytes" -/
  | transmitQueueEmptyBytes
  /-- "TCP transmit queue cannot discard zero bytes" -/
  | transmitQueueDiscardsNothing
  /-- "TCP transmit queue lost persist-probed bytes" -/
  | transmitQueueLostProbedBytes
  /-- "TCP transmit queue lost capacity while discarding probe bytes" -/
  | transmitQueueLostCapacityDiscarding
  /-- "TCP transmit queue reported full after capacity check" -/
  | transmitQueueFullAfterCheck
  /-- "TCP transmit queue lost capacity while splitting" -/
  | transmitQueueLostCapacitySplitting
  /-- "TCP in-flight queue is full" -/
  | inFlightQueueFull
  /-- "SYN can only be queued while connecting" -/
  | synQueuedOutsideSynSent
  /-- "SYN header disappeared" -/
  | synHeaderDisappeared
  /-- "SYN-ACK can only be queued for a half-open accepted socket" -/
  | synAckQueuedOutsideSynReceived
  /-- "SYN-ACK header disappeared" -/
  | synAckHeaderDisappeared
  /-- "TCP partial ACK trim exceeds in-flight payload" -/
  | partialAckTrimExceedsPayload
  /-- "TCP receive queue lost capacity while splitting" -/
  | receiveQueueLostCapacitySplitting
  /-- "TCP receive queued byte count is corrupt" -/
  | receiveQueuedBytesCorrupt
  /-- "TCP receive queue reported full after capacity check" -/
  | receiveQueueFullAfterCheck
  /-- "TCP out-of-order byte count underflowed" -/
  | outOfOrderBytesUnderflowed
  /-- a slice or split beyond the end of a byte string -/
  | sliceOutOfBounds
  /-- "TCP receive sink wrote more bytes than the source segment" -/
  | receiveSinkOverran
  /-- "TCP receive sink made no progress with available capacity" -/
  | receiveSinkMadeNoProgress
  /-- "TCP pseudo-header address families must match" -/
  | tcpAddressFamiliesDiffer
  /-- "UDP pseudo-header address families must match" -/
  | udpAddressFamiliesDiffer
  /-- "IPv4 payload exceeds pseudo-header length field" -/
  | ipv4PayloadExceedsPseudoHeader
  /-- "IPv6 payload exceeds u32 length" -/
  | ipv6PayloadExceedsLength
  /-- "UDP socket index duplicate key" -/
  | udpIndexDuplicateKey
  /-- "UDP socket index is full" -/
  | udpIndexFull
  /-- "UDP socket slab is full" -/
  | udpSlabFull
  /-- "UDP socket slab free list is corrupt" -/
  | udpFreeListCorrupt
  /-- "UDP active socket index is full" -/
  | udpActiveFull
  /-- "UDP active socket index underflowed" -/
  | udpActiveUnderflowed
  /-- "UDP active socket index is corrupt" -/
  | udpActiveCorrupt
  /-- "UDP active socket index referenced a missing socket" -/
  | udpActiveMissingSocket
  /-- "UDP receive queue length changed while rotating", "... during fair eviction" or
  "... while pruning" -/
  | udpQueueLengthChanged
  /-- "UDP receive queue socket count underflowed", also "... during fair eviction" and
  "... while pruning" -/
  | udpCountUnderflowed
  /-- "UDP receive queue lost capacity while rotating", "... during fair eviction" or
  "... while pruning" -/
  | udpQueueLostCapacity
  /-- "UDP receive socket count had no matching queued datagram", or
  "... no matching datagram during fair eviction" -/
  | udpCountWithoutDatagram
  /-- "UDP receive queue reported full after fair eviction" -/
  | udpQueueFullAfterEviction
  /-- "UDP receive socket count overflowed" -/
  | udpCountOverflowed
  /-- "UDP receive queue count remained non-zero after pruning" -/
  | udpCountNonZeroAfterPruning
  deriving DecidableEq, Repr

end Helios
