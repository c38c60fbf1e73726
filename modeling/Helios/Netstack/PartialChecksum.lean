import Helios.Netstack.CodecRoundTrip

/-!
# Partial checksums

A device may hand over a frame whose checksum field holds the sum over the pseudo-header only.  The
frame is taken when the field agrees with the header that was parsed, which is when the segment
with its checksum completed verifies.
-/

namespace Helios

open BigEndian Checksum List

variable {source destination : IpAddress} {segment bytes : Bytes} {pseudo offset value : Nat}
  {sum : IpProtocol → Nat → Except Panic Nat}

section

variable (source destination) (datagram : Bytes)

def udpChecksum : Except Panic Nat :=
  match pseudoSumOf source destination with
  | some sum => (sum .udp datagram.length).map fun pseudo =>
    finishChecksum (addU32 pseudo (sumWords datagram))
  | none => .error .udpAddressFamiliesDiffer

section

variable (segment) (offset)

def fieldAt : Nat :=
  decode ((segment.drop offset).take 2)

def udpChecksumField : Nat :=
  if datagram.length < 8 then 0 else fieldAt datagram 6

def udpChecksumValid : Except Panic Bool :=
  match source, destination, udpChecksumField datagram with
  | .ipv4 _, .ipv4 _, 0 => .ok true
  | .ipv6 _, .ipv6 _, 0 => .ok false
  | _, _, _ => (udpChecksum source destination datagram).map (· == 0)

def partialTransportChecksumCompletes (protocol : IpProtocol) (segment : Bytes)
    (fieldOffset : Nat) : Except Panic Bool :=
  if fieldOffset + 2 ≤ segment.length then
    match pseudoSumOf source destination with
    | some sum => (sum protocol segment.length).map fun pseudo =>
      foldSum (fieldAt segment fieldOffset + (65535 - foldSum pseudo)) ∈ [0, 65535]
    | none => .ok false
  else
    .ok false

/-- The segment with a checksum in its field, if it has that field. -/
def withField (offset checksum : Nat) : Option Bytes :=
  if offset + 2 ≤ segment.length then some (overwrite segment offset (encode 2 checksum)) else none

/-- The folded complement of the sum over the whole segment, the field included. -/
def completion : Nat :=
  finishChecksum (sumWords segment)

end

/-- A computed zero is stored as all ones. -/
def udpCompletion : Nat :=
  if completion datagram = 0 then 65535 else completion datagram

end

theorem wordSum_field {before field : Bytes} (h : before.length % 2 = 0) (hfield : field.length = 2)
    (after : Bytes) :
  wordSum (before ++ field ++ after) = wordSum before + decode field + wordSum after
  := by
  match field, hfield with
  | [high, low], _ =>
    rw [append_assoc, wordSum_append h]
    simp [wordSum, decode]
    omega

theorem wordSum_overwrite (heven : offset % 2 = 0) (hfits : offset + 2 ≤ segment.length)
    (hvalue : value < 65536) :
  wordSum (overwrite segment offset (encode 2 value)) + fieldAt segment offset =
    wordSum segment + value
  := by
  have hbefore : (segment.take offset).length % 2 = 0 := by
    rw [length_take_of_le (by omega), heven]
  have hfield : ((segment.drop offset).take 2).length = 2 :=
    length_take_of_le (by rw [length_drop]; omega)
  have hsplit : segment.take offset ++ (segment.drop offset).take 2 ++ segment.drop (offset + 2) =
      segment := by
    rw [append_assoc, ← drop_drop, take_append_drop, take_append_drop]
  have hold := wordSum_field hbefore hfield (segment.drop (offset + 2))
  rw [hsplit] at hold
  rw [overwrite, length_encode, wordSum_field hbefore (length_encode 2 value), decode_encode hvalue,
    fieldAt]
  omega

theorem finishChecksum_eq_zero (hpos : 0 < pseudo) (hle : pseudo ≤ 2 ^ 21)
    (hlength : bytes.length ≤ 65535) :
  finishChecksum (addU32 pseudo (sumWords bytes)) = 0 ↔ (pseudo + wordSum bytes) % 65535 = 0
  := by
  have hwords := wordSum_le bytes
  have hlt := fold_lt (pseudo + wordSum bytes)
  have hones := @fold_eq_ones (pseudo + wordSum bytes)
  rw [sumWords_eq, addU32, Nat.add_mod_mod, Nat.mod_eq_of_lt (by omega), finishChecksum, foldSum]
  omega

/-- Both sides say that the field and the sum over the pseudo-header agree modulo 65535. -/
theorem completes_iff (hsum : pseudoSumOf source destination = some sum) (protocol : IpProtocol)
    (hlength : segment.length ≤ 65535) (heven : offset % 2 = 0) (hvalue : value < 65536)
    (hmod : value % 65535 = completion segment % 65535) :
  partialTransportChecksumCompletes source destination protocol segment offset = .ok true ↔
    ∃ bytes, withField segment offset value = some bytes ∧
      ((sum protocol bytes.length).map fun pseudo =>
        finishChecksum (addU32 pseudo (sumWords bytes))).map (· == 0) = .ok true
  := by
  rw [partialTransportChecksumCompletes, withField]
  by_cases hfits : offset + 2 ≤ segment.length
  · obtain ⟨pseudo, hpseudo, hpos, hle⟩ := pseudoSumOf_ok hsum protocol hlength
    have hnew : (overwrite segment offset (encode 2 value)).length = segment.length := by
      simp only [overwrite, length_append, length_take, length_drop, length_encode]
      omega
    have hvalid := finishChecksum_eq_zero hpos hle (hnew.trans_le hlength)
    have hwords := wordSum_overwrite heven hfits hvalue
    have hle := wordSum_le segment
    have hsmall : wordSum segment < 2 ^ 32 := by omega
    rw [completion, finishChecksum, foldSum, sumWords_eq, Nat.mod_eq_of_lt hsmall] at hmod
    have hsegment := fold_mod (wordSum segment)
    have hheader := fold_mod pseudo
    have hfield := fold_mod (fieldAt segment offset + (65535 - fold pseudo))
    have hlt := fold_lt (wordSum segment)
    have hlt' := fold_lt pseudo
    have hlt'' := fold_lt (fieldAt segment offset + (65535 - fold pseudo))
    simp [hfits, hsum, hpseudo, hnew, hvalid, Except.map, foldSum]
    omega
  · simp [hfits]

theorem udpChecksumField_overwrite (hfits : 8 ≤ segment.length) (hvalue : value < 65536) :
  udpChecksumField (overwrite segment 6 (encode 2 value)) = value
  := by
  have hbefore : (segment.take 6).length = 6 := length_take_of_le (by omega)
  have hlength : ¬ (overwrite segment 6 (encode 2 value)).length < 8 := by
    simp [overwrite]
    omega
  rw [udpChecksumField, if_neg hlength, fieldAt, overwrite, append_assoc, drop_left' hbefore,
    take_left' (length_encode 2 value), decode_encode hvalue]

theorem partial_checksum_completes_iff (hfamily : (pseudoSumOf source destination).isSome)
    (hlength : segment.length ≤ 65535) :
  (partialTransportChecksumCompletes source destination .tcp segment 16 = .ok true ↔
    ∃ bytes, withField segment 16 (completion segment) = some bytes ∧
      tcpChecksumValid source destination bytes = .ok true) ∧
  (partialTransportChecksumCompletes source destination .udp segment 6 = .ok true ↔
    ∃ bytes, withField segment 6 (udpCompletion segment) = some bytes ∧
      udpChecksumValid source destination bytes = .ok true)
  := by
  obtain ⟨sum, hsum⟩ := Option.isSome_iff_exists.mp hfamily
  have hle : completion segment ≤ 65535 := Nat.sub_le _ _
  constructor
  · rw [completes_iff hsum .tcp hlength rfl (Nat.lt_succ_of_le hle) rfl]
    simp only [tcpChecksumValid, tcpChecksum, tcpPseudoSum_eq, hsum]
  · have hpos : 0 < udpCompletion segment ∧ udpCompletion segment < 65536 ∧
        udpCompletion segment % 65535 = completion segment % 65535 := by
      rw [udpCompletion]
      split <;> omega
    rw [completes_iff hsum .udp hlength rfl hpos.2.1 hpos.2.2]
    apply exists_congr
    intro bytes
    apply and_congr_right
    intro hbytes
    rw [withField] at hbytes
    split at hbytes <;> cases hbytes
    rename_i hfits
    have hfield := udpChecksumField_overwrite hfits hpos.2.1
    rw [udpChecksumValid]
    · simp only [udpChecksum, hsum]
    all_goals
      intros
      omega

/-- A datagram of eight bytes, whose field holds the sum over its pseudo-header. -/
theorem partial_checksum_completes_iff_datagram :
  partialTransportChecksumCompletes (.ipv4 ⟨#v[10, 0, 0, 1]⟩) (.ipv4 ⟨#v[10, 0, 0, 2]⟩) .udp
      [0, 1, 0, 2, 0, 8, 20, 28] 6 = .ok true ↔
    ∃ bytes, withField [0, 1, 0, 2, 0, 8, 20, 28] 6
        (udpCompletion [0, 1, 0, 2, 0, 8, 20, 28]) = some bytes ∧
      udpChecksumValid (.ipv4 ⟨#v[10, 0, 0, 1]⟩) (.ipv4 ⟨#v[10, 0, 0, 2]⟩) bytes = .ok true
  := (partial_checksum_completes_iff rfl (by decide)).2

end Helios
