import Mathlib.Tactic.NormNum

/-!
# Saturating machine arithmetic

Unsigned machine words of width `w`, represented by natural numbers, under addition
and multiplication that stop at the largest word instead of wrapping.  Saturating
subtraction is truncated subtraction of natural numbers.
-/

namespace Machine

/-- The largest word of width `w`. -/
def maxWord (w : Nat) : Nat :=
  2 ^ w - 1

/-- Saturating addition of words of width `w`. -/
def satAdd (w a b : Nat) : Nat :=
  min (a + b) (maxWord w)

/-- Saturating multiplication of words of width `w`. -/
def satMul (w a b : Nat) : Nat :=
  min (a * b) (maxWord w)

/-- Conversion to a word of width `w`, with the largest word for what does not fit. -/
def satCast (w a : Nat) : Nat :=
  min a (maxWord w)

theorem satAdd_eq {w a b : Nat} (h : a + b ≤ maxWord w) :
  satAdd w a b = a + b
  := Nat.min_eq_left h

theorem satCast_eq {w a : Nat} (h : a ≤ maxWord w) :
  satCast w a = a
  := Nat.min_eq_left h

end Machine
