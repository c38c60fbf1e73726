import Helios.Library.BigEndian

/-!
# Little-endian numbers in byte strings

Numbers written with the least significant byte first.
-/

namespace LittleEndian

/-- The last `width` bytes of a number, least significant first. -/
def encode (width n : Nat) : List UInt8 :=
  (BigEndian.encode width n).reverse

/-- The number that a byte string spells. -/
def decode (bytes : List UInt8) : Nat :=
  BigEndian.decode bytes.reverse

@[simp]
theorem length_encode (width n : Nat) :
  (encode width n).length = width
  := by
  rw [encode, List.length_reverse, BigEndian.length_encode]

theorem decode_encode {width n : Nat} (h : n < 256 ^ width) :
  decode (encode width n) = n
  := by
  rw [decode, encode, List.reverse_reverse, BigEndian.decode_encode h]

end LittleEndian
