import Helios.Library.BigEndian
import Helios.Library.Checksum
import Helios.Netstack.Segment

/-!
# TCP segments on the wire

The encoding of TCP headers, options and payloads into byte strings, with the checksum
over the segment and the pseudo-header of the IP layer, and the decoding of received
segments.
-/

namespace Helios

open BigEndian

/-! ### Checksums -/

inductive IpProtocol where
  | icmp
  | tcp
  | udp
  | icmpv6
  deriving DecidableEq, Repr

def IpProtocol.number : IpProtocol → Nat
  | .icmp => 1
  | .tcp => 6
  | .udp => 17
  | .icmpv6 => 58

def addU32 (a b : Nat) : Nat :=
  (a + b) % 2 ^ 32

def addWords (sum : Nat) : Bytes → Nat
  | [] => sum
  | [last] => addU32 sum (last.toNat * 256)
  | high :: low :: rest => addWords (addU32 sum (high.toNat * 256 + low.toNat)) rest

def sumWordsScalar (bytes : Bytes) : Nat :=
  addWords 0 bytes

def wordsOf : Bytes → List Nat
  | high :: low :: rest => (high.toNat * 256 + low.toNat) :: wordsOf rest
  | _ => []

/-- Adds the words of blocks of 16 bytes to eight lanes, one word to each. -/
def addLanes : Nat → List Nat → Bytes → List Nat × Bytes
  | 0, lanes, bytes => (lanes, bytes)
  | blocks + 1, lanes, bytes =>
    addLanes blocks (List.zipWith addU32 lanes (wordsOf (bytes.take 16))) (bytes.drop 16)

def sumWordsWide (bytes : Bytes) : Nat :=
  let (lanes, rest) := addLanes (bytes.length / 16) (List.replicate 8 0) bytes
  addWords (lanes.foldl addU32 0) rest

def simdChecksumMinBytes : Nat := 64

def sumWords (bytes : Bytes) : Nat :=
  if bytes.length < simdChecksumMinBytes then sumWordsScalar bytes else sumWordsWide bytes

def foldSum (sum : Nat) : Nat :=
  Checksum.fold sum

def finishChecksum (sum : Nat) : Nat :=
  65535 - foldSum sum

def ipv4PseudoSum (source destination : Ipv4Address) (protocol : IpProtocol)
    (payloadLen : Nat) : Except Panic Nat :=
  if payloadLen ≤ 65535 then
    .ok (addU32 (addU32 (addU32 (sumWords source.octets.toList)
      (sumWords destination.octets.toList)) protocol.number) payloadLen)
  else
    .error .ipv4PayloadExceedsPseudoHeader

def ipv6PseudoSum (source destination : Ipv6Address) (protocol : IpProtocol)
    (payloadLen : Nat) : Except Panic Nat :=
  if payloadLen < 2 ^ 32 then
    .ok (addU32 (addU32 (addU32 (sumWords source.octets.toList)
      (sumWords destination.octets.toList)) (sumWords (encode 4 payloadLen))) protocol.number)
  else
    .error .ipv6PayloadExceedsLength

section

variable (source destination : IpAddress)

/-- The pseudo-header sum of two addresses of one family. -/
def pseudoSumOf : Option (IpProtocol → Nat → Except Panic Nat) :=
  match source, destination with
  | .ipv4 source, .ipv4 destination => some (ipv4PseudoSum source destination)
  | .ipv6 source, .ipv6 destination => some (ipv6PseudoSum source destination)
  | _, _ => none

/-- The pseudo-header sum of a TCP segment, by the family of its addresses. -/
def tcpPseudoSum (segmentLen : Nat) : Except Panic Nat :=
  match source, destination with
  | .ipv4 source, .ipv4 destination => ipv4PseudoSum source destination .tcp segmentLen
  | .ipv6 source, .ipv6 destination => ipv6PseudoSum source destination .tcp segmentLen
  | _, _ => .error .tcpAddressFamiliesDiffer

/-- The checksum of a TCP segment, by the family of its addresses. -/
def tcpChecksum (segment : Bytes) : Except Panic Nat :=
  (tcpPseudoSum source destination segment.length).map fun pseudo =>
    finishChecksum (addU32 pseudo (sumWords segment))

def tcpChecksumValid (segment : Bytes) : Except Panic Bool :=
  (tcpChecksum source destination segment).map (· == 0)

def tcpPseudoHeaderChecksum (segmentLen : Nat) : Except Panic Nat :=
  (tcpPseudoSum source destination segmentLen).map foldSum

end

/-! ### Options -/

def putBytes (cursor : Bytes × Nat) (bytes : Bytes) : Bytes × Nat :=
  (overwrite cursor.1 cursor.2 bytes, cursor.2 + bytes.length)

def TcpSackBlock.bytes (block : TcpSackBlock) : Bytes :=
  encode 4 block.leftEdge.toNat ++ encode 4 block.rightEdge.toNat

namespace TcpHeaderOptions

variable (self : TcpHeaderOptions)

variable (cursor : Bytes × Nat)

def putMaximumSegmentSize : Bytes × Nat :=
  match self.maximumSegmentSize with
  | some mss => putBytes cursor (2 :: 4 :: BigEndian.encode 2 mss)
  | none => cursor

def putWindowScale : Bytes × Nat :=
  match self.windowScale with
  | some shift => putBytes cursor [3, 3, UInt8.ofNat shift]
  | none => cursor

def putSackPermitted : Bytes × Nat :=
  if self.sackPermitted then putBytes cursor [4, 2] else cursor

def putSackBlocks : Bytes × Nat :=
  if self.sackBlocks.blocks.isEmpty then
    cursor
  else
    self.sackBlocks.blocks.foldl (fun cursor block => putBytes cursor block.bytes)
      (putBytes cursor [5, UInt8.ofNat (2 + self.sackBlocks.blocks.length * 8)])

def putTimestamp : Bytes × Nat :=
  match self.timestamp with
  | some timestamp =>
    putBytes cursor (8 :: 10 ::
      (BigEndian.encode 4 timestamp.value ++ BigEndian.encode 4 timestamp.echoReply))
  | none => cursor

/-- Writes the options, in this order, into a buffer of exactly their length. -/
def encode (output : Bytes) : Option Bytes :=
  if output.length ≠ self.encodedLen then
    none
  else
    let cursor := (List.replicate output.length 0, 0)
    let cursor := self.putMaximumSegmentSize cursor
    let cursor := self.putWindowScale cursor
    let cursor := self.putSackPermitted cursor
    let cursor := self.putSackBlocks cursor
    let cursor := self.putTimestamp cursor
    some cursor.1

end TcpHeaderOptions

namespace TcpOptions

/-- Adds the selective-acknowledgement blocks of an option's data, eight bytes each. -/
def pushSackBlocks : Bytes → TcpSackBlocks → Option TcpSackBlocks
  | b₀ :: b₁ :: b₂ :: b₃ :: b₄ :: b₅ :: b₆ :: b₇ :: rest, blocks =>
    (blocks.push
      { leftEdge := BitVec.ofNat 32 (decode [b₀, b₁, b₂, b₃])
        rightEdge := BitVec.ofNat 32 (decode [b₄, b₅, b₆, b₇]) }).bind (pushSackBlocks rest)
  | _, blocks => some blocks

/-- Records one option by its kind and its data. -/
def note (options : TcpOptions) (kind : UInt8) (data : Bytes) : Option TcpOptions :=
  if kind = 2 ∧ data.length = 2 then
    some { options with maximumSegmentSize := some (decode data) }
  else if kind = 3 ∧ data.length = 1 then
    some { options with windowScale := some (decode data) }
  else if kind = 4 ∧ data.length = 0 then
    some { options with sackPermitted := true }
  else if kind = 5 ∧ data.length % 8 = 0 then
    (pushSackBlocks data options.sackBlocks).map fun sackBlocks => { options with sackBlocks }
  else if kind = 8 ∧ data.length = 8 then
    some { options with
      timestamp := some { value := decode (data.take 4), echoReply := decode (data.drop 4) } }
  else
    some options

def parseFrom (raw : Bytes) (options : TcpOptions) : Option TcpOptions :=
  match raw with
  | [] => some options
  | kind :: rest =>
    if kind = 0 then
      some options
    else if kind = 1 then
      parseFrom rest options
    else
      match rest with
      | [] => none
      | len :: tail =>
        if len.toNat < 2 ∨ (kind :: len :: tail).length < len.toNat then
          none
        else
          match options.note kind (((kind :: len :: tail).take len.toNat).drop 2) with
          | none => none
          | some options => parseFrom ((kind :: len :: tail).drop len.toNat) options
termination_by raw.length
decreasing_by
  · simp
  · simp only [List.length_drop, List.length_cons] at *
    omega

def parse (raw : Bytes) : Option TcpOptions :=
  parseFrom raw .empty

end TcpOptions

/-! ### Segments -/

inductive TransportChecksum where
  | software
  | deviceOffload
  deriving DecidableEq, Repr

/-- What parsing a segment returns, for byte strings of any length; a `TcpPacket` is one
that arrived in an IP datagram. -/
structure TcpSegmentView where
  sourcePort : UInt16
  destinationPort : UInt16
  sequence : SequenceNumber
  acknowledgement : SequenceNumber
  flags : TcpFlags
  windowSize : UInt16
  options : TcpOptions
  payload : Bytes
  deriving DecidableEq

def readArray (bytes : Bytes) (offset width : Nat) : Option Bytes :=
  if offset + width ≤ bytes.length then some ((bytes.drop offset).take width) else none

def readU16 (bytes : Bytes) (offset : Nat) : Option UInt16 :=
  (readArray bytes offset 2).map fun field => UInt16.ofNat (decode field)

def readU32 (bytes : Bytes) (offset : Nat) : Option SequenceNumber :=
  (readArray bytes offset 4).map fun field => BitVec.ofNat 32 (decode field)

section

variable (width : Nat) (bytes : Bytes) (offset value : Nat)

/-- Writes a number of `width` bytes, if there is room for it. -/
def writeNumber : Option Bytes :=
  if offset + width ≤ bytes.length then some (overwrite bytes offset (encode width value))
  else none

def writeU16 : Option Bytes :=
  writeNumber 2 bytes offset value

def writeU32 : Option Bytes :=
  writeNumber 4 bytes offset value

end

def checkedAdd (a b : Nat) : Option Nat :=
  if a + b < 2 ^ 64 then some (a + b) else none

def tryU8 (n : Nat) : Option UInt8 :=
  if n < 256 then some (UInt8.ofNat n) else none

namespace TcpSegmentView

def parse (bytes : Bytes) : Option TcpSegmentView :=
  match bytes[12]?, bytes[13]? with
  | some dataOffset, some flags =>
    let headerLen := (dataOffset >>> 4).toNat * 4
    if bytes.length < TcpPacket.minHeaderLen ∨ headerLen < TcpPacket.minHeaderLen ∨
        bytes.length < headerLen then
      none
    else do
      let sourcePort ← readU16 bytes 0
      let destinationPort ← readU16 bytes 2
      let sequence ← readU32 bytes 4
      let acknowledgement ← readU32 bytes 8
      let windowSize ← readU16 bytes 14
      let options ← TcpOptions.parse ((bytes.take headerLen).drop TcpPacket.minHeaderLen)
      return {
        sourcePort, destinationPort, sequence, acknowledgement
        flags := ⟨flags.toUInt16 ||| ((dataOffset &&& 1).toUInt16 <<< 8)⟩
        windowSize, options
        payload := bytes.drop headerLen }
  | _, _ => none

end TcpSegmentView

namespace TcpPacket

/-- Writes the header and the options into the first `headerLen` bytes, the checksum
field left zero. -/
def writeHeader (output : Bytes) (header : TcpHeader) (options : TcpHeaderOptions)
    (headerLen : Nat) (dataOffsetWords : UInt8) : Option Bytes := do
  let output := overwrite output 0 (List.replicate headerLen 0)
  let output ← writeU16 output 0 header.sourcePort.toNat
  let output ← writeU16 output 2 header.destinationPort.toNat
  let output ← writeU32 output 4 header.sequence.toNat
  let output ← writeU32 output 8 header.acknowledgement.toNat
  let output := overwrite output 12 [dataOffsetWords <<< 4]
  let output := overwrite output 13 [header.flags.bits.toUInt8]
  let output ← writeU16 output 14 header.windowSize
  let optionBytes ← options.encode ((output.take headerLen).drop minHeaderLen)
  return overwrite output minHeaderLen optionBytes

variable (output : Bytes) (source destination : IpAddress) (header : TcpHeader)
  (options : TcpHeaderOptions)

/-- Encodes the header and the options of a segment whose payload, of `payloadLen` bytes,
is sent from another buffer.  Returns the length and the buffer. -/
def encodeHeadersScatter (payloadLen : Nat) : Except Panic (Option (Nat × Bytes)) :=
  let prepared : Option (Nat × Nat × Bytes) := do
    let headerLen ← checkedAdd minHeaderLen options.encodedLen
    let dataOffsetWords ← tryU8 (headerLen / 4)
    if output.length < headerLen then none
    let output ← writeHeader output header options headerLen dataOffsetWords
    let segmentLen ← checkedAdd headerLen payloadLen
    return (headerLen, segmentLen, output)
  match prepared with
  | none => .ok none
  | some (headerLen, segmentLen, output) =>
    (tcpPseudoHeaderChecksum source destination segmentLen).map fun field =>
      (writeU16 output 16 field).map fun output => (headerLen, output)

/-- Encodes a segment into a buffer.  Returns the length and the buffer. -/
def encodeWithOptions (payload : Bytes) (checksum : TransportChecksum) :
    Except Panic (Option (Nat × Bytes)) :=
  let prepared : Option (Nat × Bytes) := do
    let headerLen ← checkedAdd minHeaderLen options.encodedLen
    let dataOffsetWords ← tryU8 (headerLen / 4)
    let len ← checkedAdd headerLen payload.length
    if output.length < len then none
    let output ← writeHeader output header options headerLen dataOffsetWords
    return (len, overwrite output headerLen payload)
  match prepared with
  | none => .ok none
  | some (len, output) =>
    let field :=
      match checksum with
      | .software => tcpChecksum source destination (output.take len)
      | .deviceOffload => tcpPseudoHeaderChecksum source destination len
    field.map fun field => (writeU16 output 16 field).map fun output => (len, output)

end TcpPacket
end Helios
