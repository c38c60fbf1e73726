import Mathlib.Data.BitVec
import Mathlib.Tactic.Ring
import Mathlib.Tactic.NormNum

/-!
# Serial numbers

Numbers that wrap around modulo `2 ^ w`, compared by the sign of their difference:
`a` is at or before `b` when `b - a` lies in the lower half of the circle.  The
relation is invariant under translation, and it is the usual order on every arc
`a, a + 1, …, a + k` shorter than half of the circle.  Two antipodal numbers, whose
difference is exactly `2 ^ (w - 1)`, are not ordered either way.
-/

namespace Serial

variable {i j : Nat}

variable {w : Nat}

/-- The serial number `k` steps after `a`. -/
def advance (a : BitVec w) (k : Nat) : BitVec w :=
  a + BitVec.ofNat w k

/-- The number of steps from `a` forward to `b`. -/
def distance (a b : BitVec w) : Nat :=
  (b - a).toNat

/-- `a` is at or before `b`. -/
def le (a b : BitVec w) : Bool :=
  decide (distance a b < 2 ^ (w - 1))

/-- `a` is strictly before `b`. -/
def lt (a b : BitVec w) : Bool :=
  a != b && le a b

/-! ### Advancing and measuring -/

@[simp]
theorem advance_zero (a : BitVec w) :
  advance a 0 = a
  := by
  simp [advance]

theorem advance_advance (a : BitVec w) (i j : Nat) :
  advance (advance a i) j = advance a (i + j)
  := by
  simp [advance, BitVec.ofNat_add, BitVec.add_assoc]

variable {a b : BitVec w}

theorem advance_left_injective {k : Nat} (h : advance a k = advance b k) :
  a = b
  := by
  simpa [advance] using h

theorem distance_lt (a b : BitVec w) :
  distance a b < 2 ^ w
  := (b - a).isLt

/-- Every serial number is reached from `a` by advancing its distance from `a`. -/
theorem advance_distance (a b : BitVec w) :
  advance a (distance a b) = b
  := by
  simp only [advance, distance, BitVec.ofNat_toNat, BitVec.setWidth_eq]
  ring

@[simp]
theorem distance_self (a : BitVec w) :
  distance a a = 0
  := by
  simp [distance]

/-- Distances from a common origin determine the distance between two numbers. -/
theorem distance_advance_advance (a : BitVec w) (i j : Nat) :
  distance (advance a i) (advance a j) = (2 ^ w - i % 2 ^ w + j) % 2 ^ w
  := by
  have hcancel : advance a j - advance a i = BitVec.ofNat w j - BitVec.ofNat w i := by
    simp only [advance]
    ring
  simp only [distance, hcancel, BitVec.toNat_sub, BitVec.toNat_ofNat, Nat.add_mod_mod]

/-- Advancing by fewer than `2 ^ w` steps is measured exactly. -/
theorem distance_advance (a : BitVec w) {k : Nat} (hk : k < 2 ^ w) :
  distance a (advance a k) = k
  := by
  have h := distance_advance_advance a 0 k
  simp only [advance_zero, Nat.zero_mod, Nat.sub_zero] at h
  rw [h, Nat.add_mod_left, Nat.mod_eq_of_lt hk]

/-- Two offsets less than the whole circle apart lead to different numbers. -/
theorem advance_injective (a : BitVec w) (hi : i < j + 2 ^ w) (hj : j < i + 2 ^ w)
    (h : advance a i = advance a j) :
  i = j
  := by
  wlog hle : i ≤ j generalizing i j
  · exact (this hj hi h.symm (Nat.le_of_not_le hle)).symm
  obtain ⟨k, rfl⟩ := Nat.exists_eq_add_of_le hle
  have hk := distance_advance (advance a i) (k := k) (by omega)
  rw [advance_advance, ← h, distance_self] at hk
  omega

theorem advance_bne (a : BitVec w) (hi : i < j + 2 ^ w) (hj : j < i + 2 ^ w) :
  (advance a i != advance a j) = true ↔ i ≠ j
  := by
  rw [bne_iff_ne, not_iff_not]
  exact ⟨advance_injective a hi hj, congrArg _⟩

theorem le_iff :
  le a b = true ↔ distance a b < 2 ^ (w - 1)
  := decide_eq_true_iff

theorem lt_iff :
  lt a b = true ↔ 0 < distance a b ∧ distance a b < 2 ^ (w - 1)
  := by
  have hne : a ≠ b ↔ 0 < distance a b := by
    rw [Nat.pos_iff_ne_zero, not_iff_not]
    constructor
    · rintro rfl
      apply distance_self
    · intro h
      rw [← advance_distance a b, h, advance_zero]
  rw [lt, Bool.and_eq_true, bne_iff_ne, hne, le_iff]

/-! ### Translation -/

@[simp]
theorem le_refl (a : BitVec w) :
  le a a = true
  := by
  simp [le]

@[simp]
theorem lt_irrefl (a : BitVec w) :
  lt a a = false
  := by
  simp [lt]

/-! ### The order on an arc -/

section Arc

variable [NeZero w]

theorem two_pow_eq :
  2 ^ w = 2 * 2 ^ (w - 1)
  := by
  obtain ⟨n, rfl⟩ := Nat.exists_eq_succ_of_ne_zero (NeZero.ne w)
  simp [Nat.pow_succ, Nat.mul_comm]

section

variable (a)

/-- Two numbers at known distances from `a` compare by the difference of the
distances. -/
theorem le_advance_iff (hi : i < 2 ^ w) (hj : j < 2 ^ w) :
  le (advance a i) (advance a j) = true ↔
    i ≤ j ∧ j - i < 2 ^ (w - 1) ∨ j < i ∧ 2 ^ (w - 1) < i - j
  := by
  have hw := two_pow_eq (w := w)
  rw [le_iff, distance_advance_advance, Nat.mod_eq_of_lt hi]
  obtain hij | hij := Nat.lt_or_ge j i
  · rw [Nat.mod_eq_of_lt (by omega)]
    omega
  · have hsplit : 2 ^ w - i + j = 2 ^ w + (j - i) := by omega
    rw [hsplit, Nat.add_mod_left, Nat.mod_eq_of_lt (by omega)]
    omega

theorem lt_advance_iff (hi : i < 2 ^ w) (hj : j < 2 ^ w) :
  lt (advance a i) (advance a j) = true ↔
    i < j ∧ j - i < 2 ^ (w - 1) ∨ j < i ∧ 2 ^ (w - 1) < i - j
  := by
  rw [lt, Bool.and_eq_true, advance_bne a (by omega) (by omega), le_advance_iff a hi hj]
  omega

/-- Two numbers less than half the circle apart compare by their distances from any
origin, however far away it is. -/
theorem le_near (hi : 2 * i < 2 * j + 2 ^ w) (hj : 2 * j < 2 * i + 2 ^ w) :
  le (advance a i) (advance a j) = true ↔ i ≤ j
  := by
  have hw := two_pow_eq (w := w)
  obtain hij | hij := Nat.le_total j i
  · obtain ⟨k, rfl⟩ := Nat.exists_eq_add_of_le hij
    have hle := le_advance_iff (advance a j) (i := k) (j := 0) (by omega) (by omega)
    rw [advance_advance, advance_zero] at hle
    rw [hle]
    omega
  · obtain ⟨k, rfl⟩ := Nat.exists_eq_add_of_le hij
    have hle := le_advance_iff (advance a i) (i := 0) (j := k) (by omega) (by omega)
    rw [advance_zero, advance_advance] at hle
    rw [hle]
    omega

theorem lt_near (hi : 2 * i < 2 * j + 2 ^ w) (hj : 2 * j < 2 * i + 2 ^ w) :
  lt (advance a i) (advance a j) = true ↔ i < j
  := by
  rw [lt, Bool.and_eq_true, advance_bne a (by omega) (by omega), le_near a hi hj]
  omega

/-- On an arc of at most half the circle the serial order is the order of the
distances from its origin. -/
theorem le_arc (hi : i < 2 ^ (w - 1)) (hj : j < 2 ^ (w - 1)) :
  le (advance a i) (advance a j) = true ↔ i ≤ j
  := by
  have hw := two_pow_eq (w := w)
  apply le_near a (by omega) (by omega)

theorem lt_arc (hi : i < 2 ^ (w - 1)) (hj : j < 2 ^ (w - 1)) :
  lt (advance a i) (advance a j) = true ↔ i < j
  := by
  have hw := two_pow_eq (w := w)
  apply lt_near a (by omega) (by omega)

end

/-- `b` is not at or before `a` when it is ahead of `a` or antipodal to it. -/
theorem le_eq_false_iff :
  le b a = false ↔ 0 < distance a b ∧ distance a b ≤ 2 ^ (w - 1)
  := by
  have hw := two_pow_eq (w := w)
  have hlt := distance_lt a b
  have hle := le_advance_iff a (i := distance a b) (j := 0) hlt (by omega)
  rw [advance_distance, advance_zero] at hle
  rw [Bool.eq_false_iff, ne_eq, hle]
  omega

end Arc

end Serial
