import Mathlib.Data.List.Perm.Basic

/-!
# Families of stacks

A family of buckets, each a growable array used as a stack.  An element is pushed onto
one bucket or popped off one, and the elements held by a list of buckets change by that
element, up to order.
-/

namespace Buckets

open Function List

variable {ι α : Type} [DecidableEq ι]

section

variable (positions : List ι) (buckets : ι → List α)

/-- The elements of the buckets at some positions, bucket after bucket. -/
def held : List α :=
  positions.flatMap buckets

/-- Adds an element at the end of a bucket. -/
def push (i : ι) (a : α) : ι → List α :=
  update buckets i (buckets i ++ [a])

/-- Removes the element at the end of a bucket. -/
def pop (i : ι) : Option ((ι → List α) × α) :=
  match (buckets i).getLast? with
  | none => none
  | some a => some (update buckets i (buckets i).dropLast, a)

end

variable {buckets rest : ι → List α} {i j : ι} {a x : α} {positions : List ι}

theorem push_self :
  push buckets i a i = buckets i ++ [a]
  := update_self ..

theorem push_of_ne (h : j ≠ i) :
  push buckets i a j = buckets j
  := update_of_ne h ..

/-- A bucket holds what it held, and the element if that was pushed onto it. -/
theorem mem_push :
  x ∈ push buckets i a j ↔ x ∈ buckets j ∨ j = i ∧ x = a
  := by
  by_cases h : j = i
  · subst h
    rw [push_self]
    simp
  · rw [push_of_ne h]
    simp [h]

/-- Nothing is popped off exactly the empty bucket. -/
theorem pop_eq_none :
  pop buckets i = none ↔ buckets i = []
  := by
  rw [pop]
  split
  · rename_i h
    simpa using h
  · rename_i h
    simp only [reduceCtorEq, false_iff]
    intro hnil
    rw [hnil] at h
    cases h

/-- Popping is the inverse of pushing. -/
theorem eq_push_of_pop (h : pop buckets i = some (rest, a)) :
  buckets = push rest i a
  := by
  rw [pop] at h
  split at h <;> cases h
  rename_i hlast
  funext j
  by_cases hj : j = i
  · subst hj
    rw [push_self, update_self]
    exact (dropLast_append_getLast? _ hlast).symm
  · rw [push_of_ne hj, update_of_ne hj]

/-- A pushed element is held besides what was held. -/
theorem held_push (hnodup : positions.Nodup) (hi : i ∈ positions) :
  (held positions (push buckets i a)).Perm (a :: held positions buckets)
  := by
  induction positions with
  | nil => cases hi
  | cons p positions ih =>
    rw [nodup_cons] at hnodup
    simp only [held, flatMap_cons] at ih ⊢
    by_cases hp : p = i
    · subst hp
      have hrest : positions.flatMap (push buckets p a) = positions.flatMap buckets := by
        apply flatMap_congr
        intro q hq
        apply push_of_ne
        rintro rfl
        exact hnodup.1 hq
      rw [hrest, push_self, append_assoc]
      apply perm_middle
    · have hmem : i ∈ positions := (mem_cons.mp hi).resolve_left fun h => hp h.symm
      rw [push_of_ne hp]
      apply List.Perm.trans ((ih hnodup.2 hmem).append_left _)
      apply perm_middle

/-- What is held is what was popped and what is held then. -/
theorem held_pop (hnodup : positions.Nodup) (hi : i ∈ positions)
    (h : pop buckets i = some (rest, a)) :
  (held positions buckets).Perm (a :: held positions rest)
  := by
  rw [eq_push_of_pop h]
  exact held_push hnodup hi

end Buckets
