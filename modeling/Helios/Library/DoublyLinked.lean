import Mathlib.Data.List.Nodup

/-!
# Doubly linked lists

Two link maps hold a list when each element's links name its neighbours, the first and the
last element linking to given ends.  Reading the links of an element gives its neighbours;
putting an element in front of the list, or taking one out of its middle, changes the links of
the neighbours only.
-/

variable {α : Type}

/-- The links hold the list, between the end before it and the end after it. -/
def DoublyLinked (next prev : α → α) (before after : α) : List α → Prop
  | [] => True
  | a :: l => prev a = before ∧ next a = l.headD after ∧ DoublyLinked next prev a after l

namespace DoublyLinked

open List

variable {next prev next' prev' : α → α} {before after a : α} {l l₁ l₂ : List α}

theorem congr (h : DoublyLinked next prev before after l) (hnext : ∀ x ∈ l, next' x = next x)
    (hprev : ∀ x ∈ l, prev' x = prev x) :
  DoublyLinked next' prev' before after l
  := by
  induction l generalizing before with
  | nil => exact trivial
  | cons a l ih =>
    rw [forall_mem_cons] at hnext hprev
    refine ⟨hprev.1.trans h.1, hnext.1.trans h.2.1, ?_⟩
    apply ih h.2.2 hnext.2 hprev.2

/-- The links of an element name its neighbours. -/
theorem neighbours (h : DoublyLinked next prev before after (l₁ ++ a :: l₂)) :
  prev a = l₁.getLastD before ∧ next a = l₂.headD after
  := by
  induction l₁ generalizing before with
  | nil => exact ⟨h.1, h.2.1⟩
  | cons b l₁ ih =>
    rw [getLastD_cons]
    apply ih h.2.2

/-- An element is put in front of the list. -/
theorem push (h : DoublyLinked next prev before after l) (hnodup : l.Nodup)
    (hnext : next' a = l.headD after) (hprev : prev' a = before)
    (hnexts : ∀ x ∈ l, next' x = next x)
    (hprevs : ∀ x ∈ l, x ≠ l.headD after → prev' x = prev x)
    (hhead : ∀ x ∈ l, x = l.headD after → prev' x = a) :
  DoublyLinked next' prev' before after (a :: l)
  := by
  refine ⟨hprev, hnext, ?_⟩
  cases l with
  | nil => exact trivial
  | cons b l =>
    rw [nodup_cons] at hnodup
    refine ⟨hhead b mem_cons_self rfl, (hnexts b mem_cons_self).trans h.2.1, ?_⟩
    apply h.2.2.congr
    · intro x hx
      apply hnexts x (mem_cons_of_mem _ hx)
    · intro x hx
      apply hprevs x (mem_cons_of_mem _ hx)
      rintro rfl
      exact hnodup.1 hx

/-- The neighbours of an element are linked with each other, which takes it out. -/
theorem remove (h : DoublyLinked next prev before after (l₁ ++ a :: l₂))
    (hnodup : (l₁ ++ a :: l₂).Nodup) (hbefore : before ∉ l₁ ++ a :: l₂)
    (hafter : after ∉ l₁ ++ a :: l₂)
    (hnexts : ∀ x ∈ l₁ ++ l₂, x ≠ prev a → next' x = next x)
    (hnext : ∀ x ∈ l₁ ++ l₂, x = prev a → next' x = next a)
    (hprevs : ∀ x ∈ l₁ ++ l₂, x ≠ next a → prev' x = prev x)
    (hprev : ∀ x ∈ l₁ ++ l₂, x = next a → prev' x = prev a) :
  DoublyLinked next' prev' before after (l₁ ++ l₂)
  := by
  induction l₁ generalizing before with
  | nil =>
    obtain ⟨hpa, hna, h⟩ := h
    cases l₂ with
    | nil => exact trivial
    | cons c l =>
      simp only [nil_append, nodup_cons, mem_cons, forall_eq_or_imp] at *
      have hstay : ∀ x, x = c ∨ x ∈ l → x ≠ prev a := by
        rintro x hx rfl
        rw [hpa] at hx
        exact hbefore (Or.inr hx)
      refine ⟨(hprev.1 hna.symm).trans hpa, (hnexts.1 (hstay c (Or.inl rfl))).trans h.2.1, ?_⟩
      · apply h.2.2.congr
        · intro x hx
          apply hnexts.2 x hx (hstay x (Or.inr hx))
        · intro x hx
          apply hprevs.2 x hx
          rintro rfl
          rw [hna] at hx
          exact hnodup.2.1 hx
  | cons d l₁ ih =>
    obtain ⟨hpa, hna⟩ := neighbours h
    obtain ⟨hpd, hnd, h⟩ := h
    simp only [cons_append, nodup_cons, mem_cons, not_or, forall_eq_or_imp] at *
    have hd : d ∉ l₁ ++ l₂ := by
      intro hd
      apply hnodup.1
      rw [mem_append] at hd ⊢
      exact hd.imp_right (mem_cons_of_mem _)
    refine ⟨?_, ?_, ?_⟩
    · rw [hprevs.1, hpd]
      rintro rfl
      cases l₂ with
      | nil => exact hafter.1 hna.symm
      | cons c l =>
        apply hd
        rw [hna]
        simp
    · cases l₁ with
      | nil =>
        rw [hnext.1 hpa.symm, hna]
        rfl
      | cons c l =>
        rw [hnexts.1, hnd]
        · rfl
        · rintro rfl
          apply hnodup.1
          rw [hpa, getLastD_cons, getLastD_cons]
          apply mem_append_left
          cases hl : l.getLast? with
          | none =>
            rw [getLastD_eq_getLast?, hl]
            exact mem_cons_self
          | some z =>
            rw [getLastD_eq_getLast?, hl]
            exact mem_cons_of_mem _ (mem_of_getLast? hl)
    · exact ih h hnodup.2 hnodup.1 hafter.2 hnexts.2 hnext.2 hprevs.2 hprev.2

end DoublyLinked
