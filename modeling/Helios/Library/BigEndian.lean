import Mathlib.Data.Nat.ModEq
import Mathlib.Tactic.Ring

/-!
# Big-endian numbers in byte strings

Numbers written with the most significant byte first, and byte strings that are
overwritten in place.
-/

namespace BigEndian

/-- The last `width` bytes of a number, most significant first. -/
def encode : Nat → Nat → List UInt8
  | 0, _ => []
  | width + 1, n => UInt8.ofNat (n / 256 ^ width) :: encode width n

/-- The number that a byte string spells. -/
def decode : List UInt8 → Nat
  | [] => 0
  | byte :: bytes => byte.toNat * 256 ^ bytes.length + decode bytes

@[simp]
theorem length_encode (width n : Nat) :
  (encode width n).length = width
  := by
  induction width with
  | zero => rfl
  | succ width ih => simp [encode, ih]

theorem decode_encode_mod (width n : Nat) :
  decode (encode width n) = n % 256 ^ width
  := by
  induction width with
  | zero => simp [encode, decode, Nat.mod_one]
  | succ width ih =>
    have hbyte : (UInt8.ofNat (n / 256 ^ width)).toNat = n / 256 ^ width % 256 := by simp
    rw [encode, decode, length_encode, ih, hbyte, Nat.pow_succ, Nat.mod_mul]
    ring

theorem decode_encode {width n : Nat} (h : n < 256 ^ width) :
  decode (encode width n) = n
  := by
  rw [decode_encode_mod, Nat.mod_eq_of_lt h]

/-- Replaces the bytes from `offset` on by the given ones. -/
def overwrite (buffer : List UInt8) (offset : Nat) (bytes : List UInt8) : List UInt8 :=
  buffer.take offset ++ bytes ++ buffer.drop (offset + bytes.length)

/-- Overwriting a part of a buffer that is split at the right places. -/
theorem overwrite_append {before old after bytes : List UInt8} {offset : Nat}
    (hoffset : before.length = offset) (hlength : old.length = bytes.length) :
  overwrite (before ++ old ++ after) offset bytes = before ++ bytes ++ after
  := by
  subst hoffset
  have htake : (before ++ old ++ after).take before.length = before := by
    rw [List.append_assoc, List.take_left]
  have hdrop : (before ++ old ++ after).drop (before.length + bytes.length) = after := by
    rw [← hlength, ← List.length_append, List.drop_left]
  rw [overwrite, htake, hdrop]

end BigEndian
