import Mathlib.Tactic.Ring
import Mathlib.Data.Nat.Bitwise

/-!
# Buddy tilings

The blocks of a level are the aligned intervals of `unit * 2 ^ level` points.  Two aligned
blocks that meet are nested, so the blocks of a tiling split into halves and merge with their
buddies without disturbing the others.  A tiling is given by what holds each of its blocks.
When no free block below the top level has a free buddy, an aligned run of free points lies in
one free block.
-/

namespace Buddy

open Function

/-- An interval of `unit * 2 ^ level` points. -/
structure Block where
  start : Nat
  level : Nat
deriving DecidableEq, Repr

/-- How many points a block of the level has. -/
def size (unit level : Nat) : Nat :=
  unit * 2 ^ level

theorem size_succ (unit level : Nat) :
  size unit (level + 1) = 2 * size unit level
  := by
  unfold size
  ring

theorem size_pos (unit level : Nat) [NeZero unit] :
  0 < size unit level
  := Nat.mul_pos (Nat.pos_of_neZero unit) (Nat.two_pow_pos level)

theorem size_dvd_size {unit j k : Nat} (h : j ≤ k) :
  size unit j ∣ size unit k
  := Nat.mul_dvd_mul_left _ (Nat.pow_dvd_pow 2 h)

namespace Block

variable {unit : Nat} {b c : Block} {x : Nat}

section

variable (unit) (b)

/-- The block starts at a multiple of its size. -/
def Aligned : Prop :=
  size unit b.level ∣ b.start

/-- The point lies in the block. -/
def Covers (x : Nat) : Prop :=
  b.start ≤ x ∧ x < b.start + size unit b.level

/-- The other half of the block this one is a half of. -/
def buddy : Block :=
  ⟨(b.start / size unit b.level ^^^ 1) * size unit b.level, b.level⟩

/-- The block this one is a half of. -/
def merged : Block :=
  ⟨min b.start (b.buddy unit).start, b.level + 1⟩

end

theorem covers_start [NeZero unit] (b : Block) :
  b.Covers unit b.start
  := ⟨le_rfl, Nat.lt_add_of_pos_right (size_pos unit _)⟩

/-- An interval of whole blocks contains an aligned block that it meets. -/
theorem Aligned.inside {start len : Nat} (hb : b.Aligned unit) (hbx : b.Covers unit x)
    (hstart : size unit b.level ∣ start) (hlen : size unit b.level ∣ len) (hlow : start ≤ x)
    (hhigh : x < start + len) :
  start ≤ b.start ∧ b.start + size unit b.level ≤ start + len
  := by
  obtain ⟨q, hq⟩ := hb
  obtain ⟨m, rfl⟩ := hstart
  obtain ⟨n, rfl⟩ := hlen
  obtain ⟨hqx, hxq⟩ := hbx
  rw [hq] at hqx hxq ⊢
  rw [← Nat.mul_succ] at hxq ⊢
  rw [← Nat.mul_add] at hhigh ⊢
  have hmq := Nat.lt_of_mul_lt_mul_left (hlow.trans_lt hxq)
  have hqn := Nat.lt_of_mul_lt_mul_left (hqx.trans_lt hhigh)
  constructor
  · exact Nat.mul_le_mul_left _ (Nat.lt_succ_iff.mp hmq)
  · exact Nat.mul_le_mul_left _ hqn

section

variable (hb : b.Aligned unit) (hc : c.Aligned unit) (hlevel : b.level ≤ c.level)
  (hbx : b.Covers unit x) (hcx : c.Covers unit x)

include hb hc hlevel hbx hcx

/-- Two aligned blocks that meet are nested. -/
theorem Aligned.nested :
  c.start ≤ b.start ∧ b.start + size unit b.level ≤ c.start + size unit c.level
  := by
  have hdvd := @size_dvd_size unit _ _ hlevel
  exact hb.inside hbx (hdvd.trans hc) hdvd hcx.1 hcx.2

theorem Aligned.covers_of_nested {y : Nat} (hy : b.Covers unit y) :
  c.Covers unit y
  := by
  obtain ⟨hlow, hhigh⟩ := hb.nested hc hlevel hbx hcx
  exact ⟨hlow.trans hy.1, lt_of_lt_of_le hy.2 hhigh⟩

end

/-- Aligned blocks of one level that meet are equal. -/
theorem Aligned.eq_of_level (hb : b.Aligned unit) (hc : c.Aligned unit)
    (hlevel : b.level = c.level) (hbx : b.Covers unit x) (hcx : c.Covers unit x) :
  b = c
  := by
  have h₁ := (hb.nested hc hlevel.le hbx hcx).1
  have h₂ := (hc.nested hb hlevel.ge hcx hbx).1
  cases b
  cases c
  simp only [mk.injEq]
  exact ⟨le_antisymm h₂ h₁, hlevel⟩

/-! ### Buddies -/

@[simp]
theorem buddy_level (b : Block) :
  (b.buddy unit).level = b.level
  := rfl

@[simp]
theorem merged_level (b : Block) :
  (b.merged unit).level = b.level + 1
  := rfl

theorem xor_one (q : Nat) :
  q ^^^ 1 = if q % 2 = 0 then q + 1 else q - 1
  := by
  split
  · rename_i h
    exact Nat.xor_one_of_even (Nat.even_iff.mpr h)
  · exact Nat.xor_one_of_odd (Nat.odd_iff.mpr (by omega))

/-- A block and its buddy are the lower and the upper half of the merged block. -/
theorem Aligned.halves [NeZero unit] (hb : b.Aligned unit) :
  size unit (b.level + 1) ∣ (b.merged unit).start
    ∧ ((b.start = (b.merged unit).start
          ∧ (b.buddy unit).start = (b.merged unit).start + size unit b.level)
      ∨ (b.start = (b.merged unit).start + size unit b.level
          ∧ (b.buddy unit).start = (b.merged unit).start))
  := by
  obtain ⟨q, hq⟩ := hb
  have hpos := size_pos unit b.level
  have hdiv : b.start / size unit b.level = q := by
    rw [hq, Nat.mul_div_cancel_left _ hpos]
  have hbuddy : (b.buddy unit).start = (q ^^^ 1) * size unit b.level := by
    rw [buddy, hdiv]
  simp only [merged, hbuddy, hq, size_succ]
  generalize size unit b.level = s at *
  rw [xor_one]
  rcases Nat.even_or_odd' q with ⟨p, hp | hp⟩
  · subst hp
    rw [if_pos (by omega)]
    have hsum : (2 * p + 1) * s = s * (2 * p) + s := by ring
    rw [hsum, Nat.min_eq_left (Nat.le_add_right _ _)]
    exact ⟨⟨p, by ring⟩, Or.inl ⟨rfl, rfl⟩⟩
  · subst hp
    rw [if_neg (by omega), Nat.add_sub_cancel]
    have hsum : s * (2 * p + 1) = 2 * p * s + s := by ring
    rw [hsum, Nat.min_eq_right (Nat.le_add_right _ _)]
    exact ⟨⟨p, by ring⟩, Or.inr ⟨rfl, rfl⟩⟩

theorem Aligned.merged [NeZero unit] (hb : b.Aligned unit) :
  (b.merged unit).Aligned unit
  := hb.halves.1

theorem buddy_aligned (b : Block) :
  (b.buddy unit).Aligned unit
  := Dvd.intro_left _ rfl

section

variable [NeZero unit] (hb : b.Aligned unit)

include hb

theorem Aligned.merged_covers :
  (b.merged unit).Covers unit x ↔ b.Covers unit x ∨ (b.buddy unit).Covers unit x
  := by
  have hsize := size_succ unit b.level
  simp only [Covers, buddy_level, merged_level]
  rcases hb.halves.2 with ⟨h₁, h₂⟩ | ⟨h₁, h₂⟩ <;> omega

theorem Aligned.buddy_ne :
  b.buddy unit ≠ b
  := by
  intro h
  have hpos := size_pos unit b.level
  have hstart := congrArg start h
  rcases hb.halves.2 with ⟨h₁, h₂⟩ | ⟨h₁, h₂⟩ <;> omega

/-- The buddy of the buddy is the block. -/
theorem Aligned.buddy_buddy :
  (b.buddy unit).buddy unit = b
  := by
  obtain ⟨q, hq⟩ := hb
  have hpos := size_pos unit b.level
  cases b with
  | mk start level =>
    simp only at hq hpos
    simp only [Block.buddy]
    rw [hq, Nat.mul_div_cancel_left _ hpos, Nat.mul_div_cancel _ hpos, Nat.xor_assoc,
      Nat.xor_self, Nat.xor_zero, Nat.mul_comm]

end

/-- The lower half of a block. -/
def lower (b : Block) : Block :=
  ⟨b.start, b.level - 1⟩

/-- The upper half of a block. -/
def upper (unit : Nat) (b : Block) : Block :=
  ⟨b.start + size unit (b.level - 1), b.level - 1⟩

theorem Aligned.lower (hb : b.Aligned unit) :
  b.lower.Aligned unit
  := dvd_trans (size_dvd_size (Nat.sub_le _ _)) hb

theorem Aligned.upper (hb : b.Aligned unit) :
  (b.upper unit).Aligned unit
  := Nat.dvd_add hb.lower dvd_rfl

theorem covers_halves (hlevel : 0 < b.level) :
  b.Covers unit x ↔ b.lower.Covers unit x ∨ (b.upper unit).Covers unit x
  := by
  have hsize := size_succ unit (b.level - 1)
  rw [Nat.sub_add_cancel hlevel] at hsize
  simp only [Covers, Block.lower, Block.upper]
  omega

theorem not_covers_both :
  ¬ (b.lower.Covers unit x ∧ (b.upper unit).Covers unit x)
  := by
  simp only [Covers, Block.lower, Block.upper]
  omega

/-- The halves of a block are each other's buddies. -/
theorem Aligned.upper_buddy [NeZero unit] (hb : b.Aligned unit) (hlevel : 0 < b.level) :
  (b.upper unit).buddy unit = b.lower
  := by
  obtain ⟨q, hq⟩ := hb
  have hpos := size_pos unit (b.level - 1)
  have hsize := size_succ unit (b.level - 1)
  rw [Nat.sub_add_cancel hlevel] at hsize
  simp only [Block.buddy, Block.upper, Block.lower]
  rw [hq, hsize]
  generalize size unit (b.level - 1) = s at *
  have hsum : 2 * s * q + s = s * (2 * q + 1) := by ring
  rw [hsum, Nat.mul_div_cancel_left _ hpos, xor_one, if_neg (by omega), Nat.add_sub_cancel]
  ring_nf

end Block

open Block

/-! ### Tilings -/

section Tilings

variable {c : Block}

variable {ρ : Type} {unit extent : Nat} {holder holder' : Block → Option ρ}

/-- The blocks that something holds are aligned, and every point lies in exactly one of
them. -/
structure Tiling (unit extent : Nat) (holder : Block → Option ρ) : Prop where
  aligned : ∀ b, holder b ≠ none → b.Aligned unit
  inside : ∀ b, holder b ≠ none → b.start + size unit b.level ≤ extent
  covered : ∀ x, x < extent → ∃ b, holder b ≠ none ∧ b.Covers unit x
  unique : ∀ b c x, holder b ≠ none → holder c ≠ none → b.Covers unit x → c.Covers unit x → b = c

/-- Some blocks are exchanged for others that cover the same points. -/
theorem Tiling.exchange {olds news : Block → Prop} (h : Tiling unit extent holder)
    (holds : ∀ b, olds b → holder b ≠ none)
    (hheld : ∀ b, holder' b ≠ none ↔ news b ∨ (¬ olds b ∧ holder b ≠ none))
    (hsame : ∀ x, (∃ b, news b ∧ b.Covers unit x) ↔ ∃ b, olds b ∧ b.Covers unit x)
    (haligned : ∀ b, news b → b.Aligned unit)
    (hinside : ∀ b, news b → b.start + size unit b.level ≤ extent)
    (hunique : ∀ b c x, news b → news c → b.Covers unit x → c.Covers unit x → b = c) :
  Tiling unit extent holder'
  := by
  -- a block that was not exchanged does not meet a new one
  have hclash : ∀ b c x, news b → ¬ olds c → holder c ≠ none → b.Covers unit x →
      c.Covers unit x → False := by
    intro b c x hb hold hc hbx hcx
    obtain ⟨d, hd, hdx⟩ := (hsame x).mp ⟨b, hb, hbx⟩
    apply hold
    rwa [h.unique c d x hc (holds d hd) hcx hdx]
  constructor
  · intro b hb
    rcases (hheld b).mp hb with hb | ⟨_, hb⟩
    · exact haligned b hb
    · exact h.aligned b hb
  · intro b hb
    rcases (hheld b).mp hb with hb | ⟨_, hb⟩
    · exact hinside b hb
    · exact h.inside b hb
  · intro x hx
    obtain ⟨b, hb, hbx⟩ := h.covered x hx
    by_cases hold : olds b
    · obtain ⟨c, hc, hcx⟩ := (hsame x).mpr ⟨b, hold, hbx⟩
      exact ⟨c, (hheld c).mpr (Or.inl hc), hcx⟩
    · exact ⟨b, (hheld b).mpr (Or.inr ⟨hold, hb⟩), hbx⟩
  · intro b c x hb hc hbx hcx
    rcases (hheld b).mp hb with hb | ⟨hbold, hb⟩ <;> rcases (hheld c).mp hc with hc | ⟨hcold, hc⟩
    · exact hunique b c x hb hc hbx hcx
    · exact (hclash b c x hb hcold hc hbx hcx).elim
    · exact (hclash c b x hc hbold hb hcx hbx).elim
    · exact h.unique b c x hb hc hbx hcx

/-- A tiling is one whoever holds its blocks. -/
theorem Tiling.congr (h : Tiling unit extent holder)
    (hsame : ∀ b, holder' b ≠ none ↔ holder b ≠ none) :
  Tiling unit extent holder'
  := by
  apply @Tiling.exchange _ _ _ _ _ (fun _ => False) (fun _ => False) h
  · nofun
  · simpa using hsame
  · simp
  · nofun
  · nofun
  · nofun

/-- A block changes hands. -/
theorem Tiling.assign (h : Tiling unit extent holder) {b : Block} (hb : holder b ≠ none)
    (r : ρ) :
  Tiling unit extent (update holder b (some r))
  := by
  apply h.congr
  intro c
  by_cases heq : c = b
  · subst heq
    simp [hb]
  · rw [update_of_ne heq]

section

variable (unit) (holder) (b : Block)

/-- Splits a block into its halves, the lower one held by `r` and the upper one by `r'`. -/
def split (r r' : ρ) : Block → Option ρ :=
  update (update (update holder b none) b.lower (some r))
    (b.upper unit) (some r')

/-- Merges a block with its buddy into a block held by `r`. -/
def merge (r : ρ) : Block → Option ρ :=
  update (update (update holder b none) (b.buddy unit) none)
    (b.merged unit) (some r)

end

variable {b : Block} {r r' : ρ}

theorem split_of_ne (hb : c ≠ b) (hlower : c ≠ b.lower) (hupper : c ≠ b.upper unit) :
  split unit holder b r r' c = holder c
  := by
  simp [split, hb, hlower, hupper]

@[simp]
theorem split_upper :
  split unit holder b r r' (b.upper unit) = some r'
  := by
  simp [split]

theorem lower_ne_upper [NeZero unit] :
  b.lower ≠ b.upper unit
  := by
  intro h
  have hpos := size_pos unit (b.level - 1)
  have hstart := congrArg start h
  simp only [Block.lower, Block.upper] at hstart
  omega

theorem split_lower [NeZero unit] :
  split unit holder b r r' b.lower = some r
  := by
  simp [split, lower_ne_upper]

theorem split_self (hlevel : 0 < b.level) :
  split unit holder b r r' b = none
  := by
  have hne {c : Block} (hc : c.level = b.level - 1) : b ≠ c := by
    rintro rfl
    omega
  have hlower : b ≠ b.lower := hne rfl
  have hupper : b ≠ b.upper unit := hne rfl
  simp [split, hlower, hupper]

theorem split_ne_none [NeZero unit] (hlevel : 0 < b.level) (c : Block) :
  split unit holder b r r' c ≠ none
    ↔ (c = b.lower ∨ c = b.upper unit) ∨ (¬ c = b ∧ holder c ≠ none)
  := by
  by_cases hlower : c = b.lower
  · simp [hlower, split_lower]
  · by_cases hupper : c = b.upper unit
    · simp [hupper]
    · by_cases hb : c = b
      · subst hb
        simp [split_self hlevel, hlower, hupper]
      · simp [split_of_ne hb hlower hupper, hlower, hupper, hb]

section

variable (h : Tiling unit extent holder) [NeZero unit]

include h

theorem Tiling.split (hb : holder b ≠ none) (hlevel : 0 < b.level) (r r' : ρ) :
  Tiling unit extent (split unit holder b r r')
  := by
  have haligned := h.aligned b hb
  have hsize := size_succ unit (b.level - 1)
  rw [Nat.sub_add_cancel hlevel] at hsize
  have hinside := h.inside b hb
  apply @Tiling.exchange _ _ _ _ _ (· = b) (fun c => c = b.lower ∨ c = b.upper unit) h
  · rintro c rfl
    exact hb
  · intro c
    apply split_ne_none hlevel
  · intro x
    simp only [exists_eq_left, or_and_right, exists_or]
    exact (covers_halves hlevel).symm
  · rintro c (rfl | rfl)
    · exact haligned.lower
    · exact haligned.upper
  · rintro c (rfl | rfl) <;> simp only [Block.lower, Block.upper] <;> omega
  · rintro c d x (rfl | rfl) (rfl | rfl) hc hd
    · rfl
    · exact (not_covers_both ⟨hc, hd⟩).elim
    · exact (not_covers_both ⟨hd, hc⟩).elim
    · rfl

/-- The halves of a block of the tiling are not blocks of it. -/
theorem Tiling.not_half (hb : holder b ≠ none) (hlevel : 0 < b.level) :
  holder b.lower = none ∧ holder (b.upper unit) = none
  := by
  have hnot : ∀ c : Block, c.level ≠ b.level → b.Covers unit c.start → holder c = none := by
    intro c hc hcover
    by_contra hheld
    apply hc
    rw [h.unique c b c.start hheld hb (covers_start c) hcover]
  constructor
  · apply hnot
    · simp only [Block.lower]
      omega
    · exact covers_start b
  · apply hnot
    · simp only [Block.upper]
      omega
    · exact (covers_halves hlevel).mpr (Or.inr (covers_start _))

/-- Splitting a block changes nothing for other holders. -/
theorem Tiling.split_eq_some {x y : ρ} (hb : holder b = some x) (hlevel : 0 < b.level) (hx : y ≠ x)
    (hr : y ≠ r) (hr' : y ≠ r') (c : Block) :
  Buddy.split unit holder b r r' c = some y ↔ holder c = some y
  := by
  obtain ⟨hlower, hupper⟩ := h.not_half (by simp [hb]) hlevel
  by_cases hcl : c = b.lower
  · subst hcl
    rw [split_lower, hlower]
    simp [hr.symm]
  · by_cases hcu : c = b.upper unit
    · subst hcu
      rw [hupper]
      simp [hr'.symm]
    · by_cases hcb : c = b
      · subst hcb
        rw [split_self hlevel, hb]
        simp [hx.symm]
      · rw [split_of_ne hcb hcl hcu]

end

theorem merge_of_ne (hb : c ≠ b) (hbuddy : c ≠ b.buddy unit) (hmerged : c ≠ b.merged unit) :
  merge unit holder b r c = holder c
  := by
  simp [merge, hb, hbuddy, hmerged]

@[simp]
theorem merge_merged :
  merge unit holder b r (b.merged unit) = some r
  := by
  simp [merge]

theorem ne_merged_of_level (hlevel : c.level = b.level) :
  c ≠ b.merged unit
  := by
  rintro rfl
  simp at hlevel

theorem merge_self :
  merge unit holder b r b = none
  := by
  simp only [merge]
  rw [update_of_ne (ne_merged_of_level rfl), update_apply]
  split
  · rfl
  · rw [update_self]

theorem merge_buddy :
  merge unit holder b r (b.buddy unit) = none
  := by
  have hne : b.buddy unit ≠ b.merged unit := ne_merged_of_level rfl
  simp only [merge]
  rw [update_of_ne hne, update_self]

theorem merge_ne_none (c : Block) :
  merge unit holder b r c ≠ none
    ↔ c = b.merged unit ∨ (¬ (c = b ∨ c = b.buddy unit) ∧ holder c ≠ none)
  := by
  by_cases hmerged : c = b.merged unit
  · simp [hmerged]
  · by_cases hb : c = b
    · simp only [hb, merge_self, ne_eq, not_true_eq_false, true_or, false_and, or_false, false_iff]
      exact ne_merged_of_level rfl
    · by_cases hbuddy : c = b.buddy unit
      · simp only [hbuddy, merge_buddy, ne_eq, not_true_eq_false, or_true, false_and, or_false,
          false_iff]
        exact ne_merged_of_level rfl
      · simp [merge_of_ne hb hbuddy hmerged, hmerged, hb, hbuddy]

variable (h : Tiling unit extent holder) [NeZero unit]

include h

theorem Tiling.merge (hb : holder b ≠ none) (hbuddy : holder (b.buddy unit) ≠ none) (r : ρ) :
  Tiling unit extent (merge unit holder b r)
  := by
  have haligned := h.aligned b hb
  apply @Tiling.exchange _ _ _ _ _ (fun c => c = b ∨ c = b.buddy unit) (· = b.merged unit) h
  · rintro c (rfl | rfl)
    · exact hb
    · exact hbuddy
  · exact merge_ne_none
  · intro x
    simp only [exists_eq_left, or_and_right, exists_or]
    exact haligned.merged_covers
  · rintro c rfl
    exact haligned.merged
  · rintro c rfl
    have hsize := size_succ unit b.level
    have hinside := h.inside b hb
    have hinside' := h.inside _ hbuddy
    simp only [buddy_level, merged_level] at *
    rcases haligned.halves.2 with ⟨h₁, h₂⟩ | ⟨h₁, h₂⟩ <;> omega
  · rintro c d x rfl rfl _ _
    rfl

/-- Merging a block changes nothing for other holders. -/
theorem Tiling.merge_eq_some {x x' y : ρ} (hb : holder b = some x)
    (hbuddy : holder (b.buddy unit) = some x') (hx : y ≠ x) (hx' : y ≠ x') (hr : y ≠ r)
    (c : Block) :
  Buddy.merge unit holder b r c = some y ↔ holder c = some y
  := by
  by_cases hcm : c = b.merged unit
  · subst hcm
    have hnot : holder (b.merged unit) = none := by
      by_contra hheld
      have haligned := h.aligned b (by simp [hb])
      have hcover := haligned.merged_covers.mpr (Or.inl (covers_start b))
      have heq := h.unique _ b b.start hheld (by simp [hb]) hcover (covers_start b)
      have hlevel := congrArg level heq
      simp at hlevel
    rw [hnot]
    simp [hr.symm]
  · by_cases hcb : c = b
    · subst hcb
      rw [merge_self, hb]
      simp [hx.symm]
    · by_cases hcbuddy : c = b.buddy unit
      · subst hcbuddy
        rw [merge_buddy, hbuddy]
        simp [hx'.symm]
      · rw [merge_of_ne hcb hcbuddy hcm]

/-- When no free block below the top level has a free buddy, an aligned run of free points lies
in one free block. -/
theorem Tiling.exists_of_run {free : ρ} {top : Nat}
    (happart : ∀ b, b.level < top → holder b = some free → holder (b.buddy unit) ≠ some free)
    {target : Block} (htarget : target.Aligned unit) (hlevel : target.level ≤ top)
    (hrun : ∀ x, target.Covers unit x → ∃ b, holder b = some free ∧ b.Covers unit x) :
  ∃ b, holder b = some free ∧ target.level ≤ b.level ∧ b.Covers unit target.start
  := by
  classical
  have hheld : ∀ b, holder b = some free → holder b ≠ none := fun b hb => by simp [hb]
  -- the smallest free block that meets the run
  have hmeets : ∃ k b x, holder b = some free ∧ target.Covers unit x ∧ b.Covers unit x
      ∧ b.level = k := by
    obtain ⟨b, hb, hbx⟩ := hrun _ (covers_start target)
    exact ⟨b.level, b, _, hb, covers_start target, hbx, rfl⟩
  obtain ⟨b, x, hb, htx, hbx, hk⟩ := Nat.find_spec hmeets
  have hleast : ∀ c y, holder c = some free → target.Covers unit y → c.Covers unit y →
      b.level ≤ c.level := by
    intro c y hc hty hcy
    rw [hk]
    exact Nat.find_min' hmeets ⟨c, y, hc, hty, hcy, rfl⟩
  have hbaligned := h.aligned b (hheld b hb)
  rcases le_or_gt target.level b.level with hle | hlt
  · exact ⟨b, hb, hle, htarget.covers_of_nested hbaligned hle htx hbx (covers_start target)⟩
  -- it is smaller than the run, so its buddy lies in the run too
  exfalso
  have hmergedx : (b.merged unit).Covers unit x := hbaligned.merged_covers.mpr (Or.inl hbx)
  have hbuddy : (b.merged unit).Covers unit (b.buddy unit).start :=
    hbaligned.merged_covers.mpr (Or.inr (covers_start _))
  have hty : target.Covers unit (b.buddy unit).start :=
    hbaligned.merged.covers_of_nested htarget hlt hmergedx htx hbuddy
  obtain ⟨c, hc, hcy⟩ := hrun _ hty
  have hcaligned := h.aligned c (hheld c hc)
  rcases (hleast c _ hc hty hcy).eq_or_lt with heq | hgt
  · -- a free block of the same size there is the buddy
    have hcb : b.buddy unit = c :=
      (buddy_aligned b).eq_of_level hcaligned heq (covers_start _) hcy
    rw [← hcb] at hc
    exact happart b (lt_of_lt_of_le hlt hlevel) hb hc
  · -- a larger one reaches over the block itself
    have hcx : c.Covers unit x :=
      hbaligned.merged.covers_of_nested hcaligned hgt hbuddy hcy hmergedx
    have hcb := h.unique b c x (hheld b hb) (hheld c hc) hbx hcx
    rw [hcb] at hgt
    exact lt_irrefl _ hgt

end Tilings

end Buddy
