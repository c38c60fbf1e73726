import Mathlib.Data.Nat.Bitwise
import Mathlib.Tactic.Ring

/-!
# Positions in a ring

Entries of a ring are counted from the start, and stand at the remainder of their count.  Two
entries less than a lap apart stand at different positions, and a counter that wraps at a
larger power of two still tells how far apart they are.  The parity of the lap an entry is in
is what tells it from the entry a lap before.
-/

namespace RingIndex

open Function List Nat

variable {other : Nat}

variable {size count : Nat} {α : Type*}

/-- Counts less than a lap apart have different positions. -/
theorem mod_ne {a b : Nat} (hlt : a < b) (hlap : b < a + size) :
  a % size ≠ b % size
  := by
  intro h
  have hzero := sub_mod_eq_zero_of_mod_eq h.symm
  rw [mod_eq_of_lt (by omega)] at hzero
  omega

/-! ### Laps -/

/-- The parity of the lap that a count is in. -/
def lap (size count : Nat) : Bool := (count / size) % 2 == 0

theorem lap_of_lt (h : count < size) :
  lap size count = true
  := by
  simp [lap, div_eq_of_lt h]

/-- A lap later the parity is the other. -/
theorem lap_add_size (hsize : 0 < size) (count : Nat) :
  lap size (count + size) = !lap size count
  := by
  rw [lap, lap, add_div_right count hsize]
  rcases Nat.mod_two_eq_zero_or_one (count / size) with h | h <;> simp [Nat.succ_mod_two_eq_zero_iff, h]

/-- The next position, and the parity that goes with it. -/
theorem succ_eq (hsize : 0 < size) (count : Nat) :
  (if count % size + 1 ≥ size then (0, !lap size count) else (count % size + 1, lap size count)) =
    ((count + 1) % size, lap size (count + 1))
  := by
  have hlt := mod_lt count hsize
  have hdiv := div_add_mod count size
  split
  · have hcount : count + 1 = size * (count / size + 1) := by
      rw [mul_add]
      omega
    rw [hcount]
    rw [lap, lap, Nat.mul_div_cancel_left _ hsize]
    rcases Nat.mod_two_eq_zero_or_one (count / size) with h | h <;>
      simp [Nat.succ_mod_two_eq_zero_iff, h]
  · have hcount : count + 1 = count % size + 1 + size * (count / size) := by omega
    have hmod : (count + 1) % size = count % size + 1 := by
      rw [hcount, add_mul_mod_self_left, mod_eq_of_lt (by omega)]
    have hquot : (count + 1) / size = count / size := by
      rw [hcount, add_mul_div_left _ _ hsize, div_eq_of_lt (by omega), zero_add]
    rw [hmod, lap, lap, hquot]

/-- Where a count is in the ring, with the parity of its lap. -/
def cursor (size count : Nat) : Nat × Bool := (count % size, lap size count)

/-! ### Memory -/

variable {memory : Nat → α}

/-- A write at one count is not seen at another less than a lap away. -/
theorem update_of_near {value : α} (hne : other ≠ count) (hbefore : count < other + size)
    (hafter : other < count + size) :
  update memory (count % size) value (other % size) = memory (other % size)
  := by
  apply update_of_ne
  rcases lt_or_gt_of_ne hne with hlt | hgt
  · exact mod_ne hlt hbefore
  · exact (mod_ne hgt hafter).symm

/-- What the memory holds from a count on. -/
def window {α : Type*} (size : Nat) (memory : Nat → α) (start len : Nat) : List α :=
  (range len).map fun index => memory ((start + index) % size)

section

variable (size) (memory) (start len : Nat)

@[simp] theorem length_window :
  (window size memory start len).length = len
  := by
  rw [window, length_map, length_range]

theorem window_mod :
  window size memory (start % size) len = window size memory start len
  := by
  simp only [window, mod_add_mod]

theorem window_add (start len more : Nat) :
  window size memory start (len + more) =
    window size memory start len ++ window size memory (start + len) more
  := by
  simp only [window, range_add, map_append, map_map, comp_def, add_assoc]

end

/-- Writes values one after another from a count on. -/
def fill {α : Type*} (size : Nat) : List α → Nat → (Nat → α) → Nat → α
  | [], _, memory => memory
  | value :: values, count, memory =>
    fill size values (count + 1) (update memory (count % size) value)

variable {values : List α}

/-- What was written less than a lap before is kept. -/
theorem fill_of_near (hbefore : other < count) (hlap : count + values.length ≤ other + size) :
  fill size values count memory (other % size) = memory (other % size)
  := by
  induction values generalizing count memory with
  | nil => rfl
  | cons value values ih =>
    rw [length_cons] at hlap
    rw [fill, ih (by omega) (by omega)]
    apply update_of_near <;> omega

theorem window_fill_of_near {start len : Nat} (hbefore : start + len ≤ count)
    (hlap : count + values.length ≤ start + size) :
  window size (fill size values count memory) start len = window size memory start len
  := by
  apply map_congr_left
  intro index hindex
  rw [mem_range] at hindex
  apply fill_of_near <;> omega

/-- What is written in less than a lap can be read. -/
theorem window_fill (hlap : values.length ≤ size) :
  window size (fill size values count memory) count values.length = values
  := by
  induction values generalizing count memory with
  | nil => rfl
  | cons value values ih =>
    rw [length_cons] at hlap
    have hrest := @ih (count + 1) (update memory (count % size) value) (by omega)
    rw [length_cons, add_comm, window_add, fill, hrest]
    simp only [window, range_one, map_cons, add_zero, map_nil, singleton_append]
    rw [fill_of_near (lt_succ_self count) (by omega), update_self]

end RingIndex
