import Helios.Library.Serial
import Helios.Netstack.Types

/-!
# TCP segments

The parts of a TCP segment that the connection state machine reads and writes:
flags, header, options, and the parsed packet.  Sequence numbers are 32-bit words
compared as serial numbers.
-/

namespace Helios

open Machine

abbrev SequenceNumber := BitVec 32

structure TcpFlags where
  bits : UInt16
  deriving DecidableEq, Repr

namespace TcpFlags

def fin : TcpFlags := ⟨(1 : UInt16) <<< 0⟩

def syn : TcpFlags := ⟨(1 : UInt16) <<< 1⟩

def rst : TcpFlags := ⟨(1 : UInt16) <<< 2⟩

def psh : TcpFlags := ⟨(1 : UInt16) <<< 3⟩

def ack : TcpFlags := ⟨(1 : UInt16) <<< 4⟩

def contains (self other : TcpFlags) : Bool :=
  self.bits &&& other.bits == other.bits

def union (self other : TcpFlags) : TcpFlags :=
  ⟨self.bits ||| other.bits⟩

theorem contains_right_of_union {self left right : TcpFlags}
    (h : self.contains (left.union right) = true) :
  self.contains right = true
  := by
  simp only [contains, union, beq_iff_eq] at h ⊢
  have habsorb : right.bits = (left.bits ||| right.bits) &&& right.bits := by
    apply UInt16.toBitVec_inj.mp
    ext i
    simp only [UInt16.toBitVec_and, UInt16.toBitVec_or, BitVec.getElem_and, BitVec.getElem_or]
    cases left.bits.toBitVec[i] <;> simp
  calc self.bits &&& right.bits
      = self.bits &&& ((left.bits ||| right.bits) &&& right.bits) := by rw [← habsorb]
    _ = (self.bits &&& (left.bits ||| right.bits)) &&& right.bits := by rw [UInt16.and_assoc]
    _ = right.bits := by rw [h, ← habsorb]

end TcpFlags

structure TcpHeader where
  sourcePort : UInt16
  destinationPort : UInt16
  sequence : SequenceNumber
  acknowledgement : SequenceNumber
  flags : TcpFlags
  windowSize : Nat
  deriving DecidableEq, Repr

structure TcpTimestampOption where
  value : Nat
  echoReply : Nat
  deriving DecidableEq, Repr

/-- A range of sequence numbers reported by selective acknowledgement. -/
structure TcpSackBlock where
  leftEdge : SequenceNumber
  rightEdge : SequenceNumber
  deriving DecidableEq, Repr

def maxTcpSackBlocks : Nat := 4

/-- The selective-acknowledgement blocks of one header, at most `maxTcpSackBlocks`. -/
structure TcpSackBlocks where
  blocks : List TcpSackBlock
  length_le : blocks.length ≤ maxTcpSackBlocks
  deriving DecidableEq

namespace TcpSackBlocks

def empty : TcpSackBlocks := ⟨[], Nat.zero_le _⟩

/-- Appends a block, or `none` when the header has no room for another. -/
def push (self : TcpSackBlocks) (block : TcpSackBlock) : Option TcpSackBlocks :=
  if h : self.blocks.length < maxTcpSackBlocks then
    some ⟨self.blocks ++ [block], by simp only [List.length_append, List.length_singleton]; omega⟩
  else
    none

end TcpSackBlocks

structure TcpOptions where
  maximumSegmentSize : Option Nat
  windowScale : Option Nat
  sackPermitted : Bool
  sackBlocks : TcpSackBlocks
  timestamp : Option TcpTimestampOption
  deriving DecidableEq

def TcpOptions.empty : TcpOptions :=
  { maximumSegmentSize := none
    windowScale := none
    sackPermitted := false
    sackBlocks := .empty
    timestamp := none }

structure TcpHeaderOptions where
  maximumSegmentSize : Option Nat
  windowScale : Option Nat
  sackPermitted : Bool
  sackBlocks : TcpSackBlocks
  timestamp : Option TcpTimestampOption
  deriving DecidableEq

def alignTcpOptionsLen (len : Nat) : Nat :=
  (len + 3) / 4 * 4

namespace TcpHeaderOptions

def empty : TcpHeaderOptions :=
  { maximumSegmentSize := none
    windowScale := none
    sackPermitted := false
    sackBlocks := .empty
    timestamp := none }

/-- The length of the options on the wire, padded to whole words. -/
def encodedLen (self : TcpHeaderOptions) : Nat :=
  alignTcpOptionsLen
    ((if self.maximumSegmentSize.isSome then 4 else 0)
      + (if self.windowScale.isSome then 3 else 0)
      + (if self.sackPermitted then 2 else 0)
      + (if self.sackBlocks.blocks.isEmpty then 0 else 2 + self.sackBlocks.blocks.length * 8)
      + (if self.timestamp.isSome then 10 else 0))

end TcpHeaderOptions

/-- The largest payload of a segment: an IP datagram states its length in 16 bits. -/
def maxTcpPayloadBytes : Nat := 2 ^ 16

/-- A parsed TCP segment.  The payload of a segment that arrived in an IP datagram is
shorter than `maxTcpPayloadBytes`. -/
structure TcpPacket where
  sourcePort : UInt16
  destinationPort : UInt16
  sequence : SequenceNumber
  acknowledgement : SequenceNumber
  flags : TcpFlags
  windowSize : UInt16
  options : TcpOptions
  payload : Bytes
  payload_lt : payload.length < maxTcpPayloadBytes
  deriving DecidableEq

def TcpPacket.minHeaderLen : Nat := 20

/-! ### Sequence arithmetic -/

section

variable (lhs rhs : SequenceNumber)

/-- `lhs` is at or before `rhs` in sequence order: their difference, read as a signed
word, is not negative. -/
def sequenceLeq : Bool :=
  lhs == rhs || decide ((rhs - lhs).toInt ≥ 0)

def sequenceLt : Bool :=
  lhs != rhs && sequenceLeq lhs rhs

/-- The sequence number just after a segment of `len` bytes starting at `sequence`. -/
def segmentEndFromParts (sequence : SequenceNumber) (len : Nat) : SequenceNumber :=
  sequence + BitVec.ofNat 32 (satCast 32 len)

def receiveSequenceLen (packet : TcpPacket) : Nat :=
  satAdd 32 (satCast 32 packet.payload.length) (if packet.flags.contains .fin then 1 else 0)

theorem sequenceLeq_eq :
  sequenceLeq lhs rhs = Serial.le lhs rhs
  := by
  rw [Bool.eq_iff_iff, Serial.le_iff]
  simp only [sequenceLeq, Serial.distance, Bool.or_eq_true, beq_iff_eq, decide_eq_true_eq,
    BitVec.toInt_eq_toNat_cond]
  constructor
  · rintro (rfl | h)
    · simp
    · split at h <;> omega
  · omega

theorem sequenceLt_eq :
  sequenceLt lhs rhs = Serial.lt lhs rhs
  := by
  rw [sequenceLt, Serial.lt, sequenceLeq_eq]

end

theorem segmentEndFromParts_eq (sequence : SequenceNumber) {len : Nat}
    (h : len < 2 ^ 32) :
  segmentEndFromParts sequence len = Serial.advance sequence len
  := by
  rw [segmentEndFromParts, satCast_eq (by simp only [maxWord]; omega), Serial.advance]

end Helios
