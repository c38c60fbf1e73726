import Mathlib.Tactic.Ring

/-!
# The Internet checksum

A byte string is read as a sequence of 16-bit words, the last one padded with a zero
byte, and the words are added.  Folding adds the carries back until 16 bits are left:
one's-complement addition, that is, addition modulo 65535 in which only the empty sum
is zero.  The complement of the folded sum, added to the sum, folds to all ones.
-/

namespace Checksum

variable {sum : Nat}

/-- The sum of the 16-bit words of a byte string. -/
def wordSum : List UInt8 → Nat
  | [] => 0
  | [last] => last.toNat * 256
  | high :: low :: rest => high.toNat * 256 + low.toNat + wordSum rest

/-- Adds the carries above 16 bits back in until there is none. -/
def fold (sum : Nat) : Nat :=
  if h : sum < 65536 then sum else fold (sum % 65536 + sum / 65536)
termination_by sum
decreasing_by omega

/-- A part of even length contributes its own sum. -/
theorem wordSum_append {a b : List UInt8} (h : a.length % 2 = 0) :
  wordSum (a ++ b) = wordSum a + wordSum b
  := by
  induction a using wordSum.induct with
  | case1 => simp [wordSum]
  | case2 => simp at h
  | case3 high low rest ih =>
    have hrest : rest.length % 2 = 0 := by
      simp only [List.length_cons] at h
      omega
    simp only [List.cons_append, wordSum, ih hrest]
    ring

theorem wordSum_le (bytes : List UInt8) :
  wordSum bytes ≤ 65535 * ((bytes.length + 1) / 2)
  := by
  fun_induction wordSum bytes with
  | case1 => simp
  | case2 last =>
    have := last.toNat_lt
    simp only [List.length_singleton]
    omega
  | case3 high low rest ih =>
    have := high.toNat_lt
    have := low.toNat_lt
    simp only [List.length_cons]
    omega

theorem fold_of_lt (h : sum < 65536) :
  fold sum = sum
  := by
  rw [fold]
  exact dif_pos h

theorem fold_lt (sum : Nat) :
  fold sum < 65536
  := by
  fun_induction fold sum with
  | case1 sum h => exact h
  | case2 sum h ih => exact ih

/-- Folding keeps the residue modulo 65535. -/
theorem fold_mod (sum : Nat) :
  fold sum % 65535 = sum % 65535
  := by
  fun_induction fold sum with
  | case1 sum h => rfl
  | case2 sum h ih => omega

theorem fold_pos (h : 0 < sum) :
  0 < fold sum
  := by
  fun_induction fold sum with
  | case1 sum hlt => exact h
  | case2 sum hge ih => exact ih (by omega)

/-- A sum folds to all ones exactly when it is a positive multiple of 65535. -/
theorem fold_eq_ones :
  fold sum = 65535 ↔ 0 < sum ∧ sum % 65535 = 0
  := by
  have hlt := fold_lt sum
  have hmod := fold_mod sum
  constructor
  · intro h
    constructor
    · by_contra hzero
      rw [fold_of_lt (by omega)] at h
      omega
    · omega
  · rintro ⟨hpos, hzero⟩
    have := fold_pos hpos
    omega

/-- The complement completes a sum to all ones. -/
theorem fold_add_complement (sum : Nat) :
  fold (sum + (65535 - fold sum)) = 65535
  := by
  have hlt := fold_lt sum
  have hmod := fold_mod sum
  rw [fold_eq_ones]
  constructor
  · by_contra hzero
    rw [fold_of_lt (by omega)] at hzero
    omega
  · omega

/-- In 32-bit arithmetic the complement completes a sum exactly when adding it does not
wrap around. -/
theorem fold_wrapped_eq_ones (h : sum < 2 ^ 32) :
  fold ((sum + (65535 - fold sum)) % 2 ^ 32) = 65535 ↔ sum + (65535 - fold sum) < 2 ^ 32
  := by
  constructor
  · intro hones
    by_contra hwrap
    have hsub : (sum + (65535 - fold sum)) % 2 ^ 32 = sum + (65535 - fold sum) - 2 ^ 32 := by
      omega
    rw [fold_eq_ones] at hones
    omega
  · intro hfits
    rw [Nat.mod_eq_of_lt hfits]
    exact fold_add_complement sum

end Checksum
