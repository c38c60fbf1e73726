import Mathlib.Data.List.Perm.Basic
import Mathlib.Data.List.Pairwise

/-!
# Editing a vector while scanning it

A growable array from which an element is removed by moving the last one into its place,
scanned by an index while elements that are hit are removed and replaced by pieces pushed at
the end.  The scan ends when no piece is hit again, and it leaves, up to order, every element
that is not hit and the pieces of every other.
-/

namespace VecScan

open List

variable {index : Nat}

variable {α : Type}

variable {l : List α} {a : α}

/-- Different elements of a list are in every symmetric relation that its elements are in
pairwise. -/
theorem rel_of_pairwise {rel : α → α → Prop} (hsymm : ∀ a b, rel a b → rel b a)
    (h : l.Pairwise rel) {b : α} (ha : a ∈ l) (hb : b ∈ l) (hne : a ≠ b) :
  rel a b
  := by
  have : Std.Symm rel := ⟨hsymm⟩
  exact h.forall ha hb hne

/-- The first element with a property, and its position. -/
theorem exists_split_of_find {p : α → Bool} (h : l.find? p = some a) :
  ∃ before rest, l = before ++ a :: rest ∧ l.findIdx p = before.length
  := by
  obtain ⟨ha, before, rest, heq, hbefore⟩ := find?_eq_some_iff_append.mp h
  refine ⟨before, rest, heq, ?_⟩
  have hnone : before.findIdx p = before.length := by
    rw [findIdx_eq_length]
    intro b hb
    simpa using hbefore b hb
  rw [heq, findIdx_append, findIdx_cons, ha]
  simp [hnone]

/-- Removes the element at an index and puts the last element in its place. -/
def swapRemove (l : List α) (index : Nat) : List α :=
  match l.getLast? with
  | none => []
  | some last => (l.set index last).dropLast

/-- What is removed, and what remains, are the elements. -/
theorem perm_swapRemove (h : l[index]? = some a) :
  l.Perm (a :: swapRemove l index)
  := by
  obtain ⟨hlt, heq⟩ := List.getElem?_eq_some_iff.mp h
  rcases eq_nil_or_concat' l with rfl | ⟨init, last, rfl⟩
  · cases h
  · rw [swapRemove, getLast?_concat]
    simp only
    rcases Nat.lt_or_ge index init.length with hinit | hinit
    · rw [set_append_left _ _ hinit, dropLast_concat]
      have helem : init[index] = a := by
        rw [← heq, getElem_append_left hinit]
      apply List.Perm.trans (perm_append_singleton last init)
      apply List.Perm.trans ((getElem_cons_eraseIdx_perm hinit).symm.cons last)
      rw [helem]
      apply List.Perm.trans (List.Perm.swap a last _)
      exact (set_perm_cons_eraseIdx hinit last).symm.cons a
    · have hindex : index = init.length := by
        rw [length_append, length_singleton] at hlt
        omega
      subst hindex
      have helem : a = last := by
        rw [← heq]
        simp
      subst helem
      rw [set_append_right _ _ (Nat.le_refl _)]
      simp only [Nat.sub_self, set_cons_zero, dropLast_concat]
      exact perm_append_singleton a init

theorem length_swapRemove (h : index < l.length) :
  (swapRemove l index).length + 1 = l.length
  := by
  have hperm := perm_swapRemove (List.getElem?_eq_getElem h)
  rw [hperm.length_eq, length_cons]

/-- The elements before the index stay where they are. -/
theorem take_swapRemove (h : index < l.length) :
  (swapRemove l index).take index = l.take index
  := by
  rcases eq_nil_or_concat' l with rfl | ⟨init, last, rfl⟩
  · simp [swapRemove]
  · rw [length_append, length_singleton] at h
    rw [swapRemove, getLast?_concat]
    simp only
    rcases Nat.lt_or_ge index init.length with hinit | hinit
    · rw [set_append_left _ _ hinit, dropLast_concat, take_set_of_le (Nat.le_refl _),
        take_append_of_le_length (Nat.le_of_lt hinit)]
    · have hindex : index = init.length := by omega
      subst hindex
      simp

variable {hit : α → Bool} {pieces : α → List α}

theorem countP_step (hpieces : ∀ a, ∀ b ∈ pieces a, hit b = false) (h : index < l.length)
    (hhit : hit l[index] = true) :
  (swapRemove l index ++ pieces l[index]).countP hit < l.countP hit
  := by
  have hperm := perm_swapRemove (List.getElem?_eq_getElem h)
  have hnone : (pieces l[index]).countP hit = 0 := by
    apply countP_eq_zero.mpr
    intro b hb
    simp [hpieces _ b hb]
  rw [hperm.countP_eq, countP_append, countP_cons, if_pos hhit]
  omega

/-- The scan from an index on. -/
def replaceFrom (hit : α → Bool) (pieces : α → List α)
    (hpieces : ∀ a, ∀ b ∈ pieces a, hit b = false) (l : List α) (index : Nat) : List α :=
  if h : index < l.length then
    if hit l[index] then
      replaceFrom hit pieces hpieces (swapRemove l index ++ pieces l[index]) index
    else
      replaceFrom hit pieces hpieces l (index + 1)
  else
    l
termination_by (l.countP hit, l.length - index)
decreasing_by
  · rename_i hhit
    exact Prod.Lex.left _ _ (countP_step hpieces h hhit)
  · apply Prod.Lex.right
    omega

/-- The elements that are not hit, and the pieces of those that are. -/
def replaced (hit : α → Bool) (pieces : α → List α) (l : List α) : List α :=
  l.flatMap fun a => if hit a then pieces a else [a]

theorem replaced_of_miss {l : List α} (h : ∀ a ∈ l, hit a = false) :
  replaced hit pieces l = l
  := by
  induction l with
  | nil => rfl
  | cons a l ih =>
    rw [forall_mem_cons] at h
    have hrest := ih h.2
    rw [replaced] at hrest ⊢
    rw [flatMap_cons, hrest, h.1]
    rfl

/-- The scan replaces every element that is hit. -/
theorem replaceFrom_perm (hpieces : ∀ a, ∀ b ∈ pieces a, hit b = false) (l : List α) (index : Nat)
    (hdone : ∀ a ∈ l.take index, hit a = false) :
  (replaceFrom hit pieces hpieces l index).Perm (replaced hit pieces l)
  := by
  fun_induction replaceFrom hit pieces hpieces l index with
  | case1 l index h hhit ih =>
    have htake : ∀ a ∈ (swapRemove l index ++ pieces l[index]).take index, hit a = false := by
      have hlength := length_swapRemove h
      rw [take_append_of_le_length (by omega), take_swapRemove h]
      exact hdone
    apply (ih htake).trans
    have hperm := perm_swapRemove (List.getElem?_eq_getElem h)
    apply List.Perm.trans _ (hperm.flatMap_right _).symm
    rw [replaced, flatMap_append, flatMap_cons, if_pos hhit]
    have hmiss := @replaced_of_miss α hit pieces _ (hpieces l[index])
    rw [replaced] at hmiss
    rw [hmiss]
    exact perm_append_comm
  | case2 l index h hmiss ih =>
    apply ih
    rw [take_succ_eq_append_getElem h, forall_mem_append]
    exact ⟨hdone, by simpa using hmiss⟩
  | case3 l index h =>
    rw [take_of_length_le (by omega)] at hdone
    rw [replaced_of_miss hdone]

end VecScan
