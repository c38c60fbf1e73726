import Helios.Library.Transition
import Helios.Library.VecScan
import Mathlib.Data.List.MinMax

/-!
# What changed since the last frame

The compositor collects the rectangles that changed and draws each of them once.  A rectangle
that is added absorbs every one that it adjoins, again and again, so nothing overlaps.  When
that leaves one too many, the two whose union wastes least become one, and this union is not
compared with the others: a frame can draw a pixel twice.
-/

namespace Helios.Compositor

open Transition VecScan List

/-- A rectangle of pixels; no edge of a rectangle overflows. -/
structure Region where
  x : Nat
  y : Nat
  width : Nat
  height : Nat

namespace Region

variable (self other : Region)

def right : Nat := self.x + self.width

def bottom : Nat := self.y + self.height

def isEmpty : Bool := self.width = 0 ∨ self.height = 0

def area : Nat := self.width * self.height

/-- The smallest rectangle covering both; an empty one contributes nothing. -/
def union : Region :=
  if self.isEmpty then other
  else if other.isEmpty then self
  else
    let x := min self.x other.x
    let y := min self.y other.y
    ⟨x, y, max self.right other.right - x, max self.bottom other.bottom - y⟩

def intersection : Region :=
  let x := max self.x other.x
  let y := max self.y other.y
  let right := min self.right other.right
  let bottom := min self.bottom other.bottom
  if right ≤ x ∨ bottom ≤ y then ⟨x, y, 0, 0⟩ else ⟨x, y, right - x, bottom - y⟩

/-- The two share a pixel or touch. -/
def adjoins : Bool :=
  self.x ≤ other.right ∧ other.x ≤ self.right ∧ self.y ≤ other.bottom ∧ other.y ≤ self.bottom

def Covers (x y : Nat) : Prop :=
  self.x ≤ x ∧ x < self.right ∧ self.y ≤ y ∧ y < self.bottom

instance (x y : Nat) : Decidable (self.Covers x y) := inferInstanceAs (Decidable (_ ∧ _))

def Inside : Prop :=
  other.x ≤ self.x ∧ self.right ≤ other.right ∧ other.y ≤ self.y ∧ self.bottom ≤ other.bottom

/-- No pixel is in both. -/
def Apart : Prop := ∀ x y, self.Covers x y → ¬ other.Covers x y

variable {self other} {bounds : Region} {x y : Nat}

theorem covers_union (h : self.Covers x y ∨ other.Covers x y) :
  (self.union other).Covers x y
  := by
  rw [union]
  split_ifs <;> simp only [isEmpty, Covers, right, bottom, decide_eq_true_eq] at * <;> omega

theorem Inside.union (h : self.Inside bounds) (hother : other.Inside bounds) :
  (self.union other).Inside bounds
  := by
  rw [Region.union]
  split_ifs <;> simp only [isEmpty, Inside, right, bottom, decide_eq_true_eq] at * <;> omega

theorem covers_intersection (h : self.Covers x y) (hother : other.Covers x y) :
  (self.intersection other).Covers x y
  := by
  rw [intersection]
  split_ifs <;> simp only [Covers, right, bottom] at * <;> omega

theorem inside_intersection (h : (self.intersection bounds).isEmpty = false) :
  (self.intersection bounds).Inside bounds
  := by
  rw [intersection] at *
  split_ifs at h ⊢
  · cases h
  · simp only [Inside, right, bottom] at *
    omega

theorem Apart.symm (h : self.Apart other) :
  other.Apart self
  := fun x y hother hself => h x y hself hother

theorem apart_of_adjoins (h : self.adjoins other = false) :
  self.Apart other
  := by
  intro x y hself hother
  simp only [adjoins, Covers, decide_eq_false_iff_not] at *
  omega

end Region

open Region

/-! ### Absorbing -/

/-- The two loops of `add`, from an index of the pass on: a region that adjoins the new one is
taken out and united with it, and a pass that took one out is followed by another. -/
def absorb (regions : List Region) (region : Region) (index : Nat) (merged : Bool) :
    List Region × Region :=
  if h : index < regions.length then
    if regions[index].adjoins region then
      absorb (swapRemove regions index) (region.union regions[index]) index true
    else absorb regions region (index + 1) merged
  else if merged then absorb regions region 0 false
  else (regions, region)
termination_by
  regions.length * (regions.length + 2) + merged.toNat * (regions.length + 1) +
    (regions.length - index)
decreasing_by
  · rw [← length_swapRemove h]
    simp only [Nat.mul_add, Nat.add_mul, Bool.toNat_true]
    omega
  · omega
  · simp [*]
    omega

/-! ### The regions that are held -/

def maxRegions : Nat := 8

structure Damage where
  bounds : Region
  regions : List Region

/-- The region at an index that is in range. -/
def heldAt (regions : List Region) (index : Nat) : Region := regions.getD index ⟨0, 0, 0, 0⟩

/-- The pixels that one rectangle has more than two. -/
def waste (left right : Region) : Nat := (left.union right).area - (left.area + right.area)

def pairs (len : Nat) : List (Nat × Nat) :=
  (range len).flatMap fun left => (range' (left + 1) (len - (left + 1))).map (left, ·)

/-- The first of the pairs that waste least. -/
def cheapestPair (regions : List Region) : Option (Nat × Nat) :=
  (pairs regions.length).argmin fun (left, right) =>
    waste (heldAt regions left) (heldAt regions right)

def mergeCheapestPair (regions : List Region) : List Region :=
  match cheapestPair regions with
  | none => regions
  | some (left, right) =>
    let rest := swapRemove regions right
    rest.set left ((heldAt rest left).union (heldAt regions right))

namespace Damage

def new (bounds : Region) : Damage := ⟨bounds, []⟩

def add (self : Damage) (region : Region) : Damage :=
  let region := region.intersection self.bounds
  if region.isEmpty then self
  else
    let (regions, region) := absorb self.regions region 0 false
    let regions := regions ++ [region]
    { self with
      regions := if maxRegions < regions.length then mergeCheapestPair regions else regions }

def addAll (self : Damage) : Damage := { self with regions := [self.bounds] }

def take (self : Damage) : Damage × List Region := ({ self with regions := [] }, self.regions)

inductive Op where
  | add (region : Region)
  | addAll
  | take

/-- A step with the regions it hands over; none aborts. -/
def step (self : Damage) : Op → Except Empty (Damage × List Region)
  | .add region => .ok (self.add region, [])
  | .addAll => .ok (self.addAll, [])
  | .take => .ok self.take

/-- The regions recorded since the last were taken. -/
def note (marked : List Region) (self : Damage) (op : Op) (_ : List Region) : List Region :=
  match op with
  | .add region => region :: marked
  | .addAll => self.bounds :: marked
  | .take => []

/-- When a region that adjoins none of eight is added, the union of the cheapest pair of the nine
shares no pixel with a third. -/
def MergesApart (self : Damage) : Op → Prop
  | .add region =>
    let clipped := region.intersection self.bounds
    let nine := self.regions ++ [clipped]
    clipped.isEmpty = false → self.regions.length = maxRegions →
      (∀ held ∈ self.regions, held.adjoins clipped = false) →
      ∀ left right others, cheapestPair nine = some (left, right) →
        nine.Perm (heldAt nine left :: heldAt nine right :: others) →
        ∀ third ∈ others, ((heldAt nine left).union (heldAt nine right)).Apart third
  | .addAll | .take => True

end Damage

/-! ### Uniting -/

variable {regions regions' rest marked : List Region} {region bounds : Region} {index : Nat}
  {merged : Bool}

/-- What absorbing leaves adjoins nothing. -/
theorem absorb_adjoins
    (h : merged = false → ∀ held ∈ regions.take index, held.adjoins region = false) :
  ∀ held ∈ (absorb regions region index merged).1,
    held.adjoins (absorb regions region index merged).2 = false
  := by
  fun_induction absorb with
  | case1 regions region index merged hlt hadjoins ih => exact ih nofun
  | case2 regions region index merged hlt hadjoins ih =>
    apply ih
    intro hmerged
    rw [take_succ_eq_append_getElem hlt, forall_mem_append]
    exact ⟨h hmerged, by simpa using hadjoins⟩
  | case3 regions region index hlt ih => exact ih (by simp)
  | case4 regions region index merged hlt hmerged =>
    rw [take_of_length_le (not_lt.mp hlt)] at h
    exact h (Bool.eq_false_of_not_eq_true hmerged)

/-- The regions are within the bounds and cover what was recorded within them. -/
structure Draws (bounds : Region) (marked regions : List Region) : Prop where
  inside : ∀ held ∈ regions, held.Inside bounds
  covers : ∀ region ∈ marked, ∀ x y, region.Covers x y → bounds.Covers x y →
    ∃ held ∈ regions, held.Covers x y

/-- The union of two regions takes their place. -/
theorem Draws.union {first second : Region} (h : Draws bounds marked regions)
    (hperm : regions.Perm (first :: second :: rest))
    (hperm' : regions'.Perm (first.union second :: rest)) :
  Draws bounds marked regions'
  := by
  obtain ⟨hinside, hcovers⟩ := h
  constructor <;> simp only [hperm.mem_iff, hperm'.mem_iff, forall_mem_cons, exists_mem_cons_iff,
    ← or_assoc] at *
  · exact ⟨hinside.1.union hinside.2.1, hinside.2.2⟩
  · intro region hregion x y hregion' hbounds
    exact (hcovers region hregion x y hregion' hbounds).imp_left covers_union

/-- What absorbing leaves draws the same; it is less, or nothing was absorbed. -/
theorem absorb_draws (h : Draws bounds marked (regions ++ [region])) :
  let result := absorb regions region index merged
  Draws bounds marked (result.1 ++ [result.2]) ∧ result.1.Subperm regions ∧
    (result.1.length < regions.length ∨ result = (regions, region))
  := by
  fun_induction absorb with
  | case1 regions region index merged hlt hadjoins ih =>
    have hperm := perm_swapRemove (getElem?_eq_getElem hlt)
    obtain ⟨hdraws, hkept, -⟩ := ih (h.union ((perm_append_singleton _ _).trans (hperm.cons _))
      (perm_append_singleton _ _))
    have := hkept.length_le
    have := length_swapRemove hlt
    refine ⟨hdraws, ?_, .inl (by omega)⟩
    exact hkept.trans ((sublist_cons_self _ _).subperm.trans hperm.symm.subperm)
  | case2 _ _ _ _ _ _ ih | case3 _ _ _ _ ih => exact ih h
  | case4 => exact ⟨h, Subperm.refl _, .inr rfl⟩

theorem lt_of_mem_pairs {len left right : Nat} (h : (left, right) ∈ pairs len) :
  left < right ∧ right < len
  := by
  simp only [pairs, mem_flatMap, mem_map, mem_range'_1, Prod.mk.injEq] at h
  omega

theorem mergeCheapestPair_perm (h : 1 < regions.length) :
  ∃ left right others, cheapestPair regions = some (left, right) ∧
    regions.Perm (heldAt regions left :: heldAt regions right :: others) ∧
    (mergeCheapestPair regions).Perm
      ((heldAt regions left).union (heldAt regions right) :: others)
  := by
  obtain ⟨⟨left, right⟩, hpair⟩ : ∃ pair, cheapestPair regions = some pair := by
    rw [← Option.ne_none_iff_exists', cheapestPair, ne_eq, argmin_eq_none]
    apply ne_nil_of_mem (a := (0, 1))
    simp only [pairs, mem_flatMap, mem_range, mem_map, mem_range'_1, Prod.mk.injEq]
    exact ⟨0, by omega, 1, by omega, rfl, rfl⟩
  obtain ⟨hlt, hright⟩ := lt_of_mem_pairs (argmin_mem hpair)
  have hlength := length_swapRemove hright
  have hleft : left < (swapRemove regions right).length := by omega
  -- the left one is before the place that changes
  have hfirst : heldAt (swapRemove regions right) left = heldAt regions left := by
    have htake := congrArg (·.getD left ⟨0, 0, 0, 0⟩) (take_swapRemove hright)
    simpa [heldAt, getElem?_take, hlt] using htake
  refine ⟨left, right, (swapRemove regions right).eraseIdx left, hpair, ?_, ?_⟩
  · have hsecond := @perm_swapRemove right _ regions (heldAt regions right) (by
      simp [heldAt, hright])
    have hrest := getElem_cons_eraseIdx_perm hleft
    have helem : (swapRemove regions right)[left] = heldAt regions left := by
      simpa [heldAt, hleft] using hfirst
    rw [helem] at hrest
    exact hsecond.trans ((hrest.symm.cons _).trans (.swap _ _ _))
  · simp only [mergeCheapestPair, hpair, hfirst]
    exact set_perm_cons_eraseIdx hleft _

/-! ### Runs -/

namespace Damage

variable {self : Damage}

/-- The regions draw what was recorded, are few and share no pixel. -/
structure Sound (damage : Damage) (marked : List Region) : Prop extends
    Draws damage.bounds marked damage.regions where
  few : damage.regions.length ≤ maxRegions
  apart : damage.regions.Pairwise Apart

theorem Sound.add (h : self.Sound marked) (hmerges : self.MergesApart (.add region)) :
  (self.add region).Sound (region :: marked)
  := by
  fun_cases Damage.add self region with
  | case1 clipped hempty =>
    refine { h with covers := forall_mem_cons.mpr ⟨?_, h.covers⟩ }
    intro x y hcovers hbounds
    have hnone := covers_intersection hcovers hbounds
    simp only [clipped, Region.isEmpty, Covers, right, bottom, decide_eq_true_eq] at hempty hnone
    omega
  | case2 clipped hclip rest region' habsorb nine =>
    rw [Bool.not_eq_true] at hclip
    have hpushed : Draws self.bounds (region :: marked) (self.regions ++ [clipped]) := by
      constructor
      · exact forall_mem_append.mpr ⟨h.inside, by simpa using inside_intersection hclip⟩
      · intro other hother x y hcovers hbounds
        simp only [mem_append, mem_singleton]
        rcases mem_cons.mp hother with rfl | hother
        · exact ⟨_, .inr rfl, covers_intersection hcovers hbounds⟩
        · exact (h.covers other hother x y hcovers hbounds).imp fun _ => .imp_left .inl
    have hdraws := @absorb_draws _ _ _ _ 0 false hpushed
    have hadjoins := @absorb_adjoins self.regions clipped 0 false (by simp)
    rw [habsorb] at hdraws hadjoins
    obtain ⟨hdraws, ⟨kept, hperm, hsub⟩, hless⟩ := hdraws
    have hapart : nine.Pairwise Apart := by
      rw [pairwise_append]
      refine ⟨(hperm.pairwise_iff Apart.symm).mp (h.apart.sublist hsub), pairwise_singleton _ _, ?_⟩
      intro held hheld
      simpa using apart_of_adjoins (hadjoins held hheld)
    split
    · rename_i hmany
      have hfew := h.few
      rw [length_append, length_singleton] at hmany
      -- nothing was absorbed
      cases hless.resolve_left (by dsimp only; omega)
      have hlength : self.regions.length = maxRegions := by omega
      obtain ⟨left, right, others, hpair, hperm, hmerged⟩ := @mergeCheapestPair_perm nine (by
        rw [length_append, length_singleton, hlength]
        decide)
      rw [hperm.pairwise_iff Apart.symm, pairwise_cons, pairwise_cons] at hapart
      refine ⟨hpushed.union hperm hmerged, ?_, ?_⟩
      · have hnine := hperm.length_eq
        simp only [nine, length_append, length_cons, length_nil] at hnine
        rw [hmerged.length_eq, length_cons]
        omega
      · rw [hmerged.pairwise_iff Apart.symm, pairwise_cons]
        exact ⟨hmerges hclip hlength hadjoins left right others hpair hperm, hapart.2.2⟩
    · rename_i hfew
      exact ⟨hdraws, not_lt.mp hfew, hapart⟩

/-- The damage that is reached, with what was recorded, when every step is allowed. -/
abbrev Reaches (allowed : Damage → Op → Prop) : Damage × List Region → Prop :=
  Reachable (instrument step note) (fun state => ∃ bounds, state = (new bounds, [])) fun state op =>
    allowed state.1 op

end Damage

end Helios.Compositor
