import Mathlib.Data.List.Basic

/-!
# Parts of a list at offsets

Where a part lies in a list: inside an appended list, in a row of parts of one width, and in a
part of a part.
-/

namespace Layout

open List

variable {α : Type*} {whole part first second small : List α} {offset inner : Nat}

/-- The part lies in the whole at the offset. -/
def At (whole : List α) (offset : Nat) (part : List α) : Prop :=
  ∃ before after, whole = before ++ (part ++ after) ∧ before.length = offset

theorem At.le (h : At whole offset part) :
  offset + part.length ≤ whole.length
  := by
  obtain ⟨before, after, rfl, rfl⟩ := h
  simp only [length_append]
  omega

theorem At.take_drop (h : At whole offset part) :
  (whole.drop offset).take part.length = part
  := by
  obtain ⟨before, after, rfl, rfl⟩ := h
  rw [drop_left, take_left]

/-- What is cut out of a list lies where it was cut out. -/
theorem at_take_drop {len : Nat} (h : offset + len ≤ whole.length) :
  At whole offset ((whole.drop offset).take len)
  := by
  refine ⟨whole.take offset, (whole.drop offset).drop len, ?_, ?_⟩
  · rw [take_append_drop, take_append_drop]
  · rw [length_take]
    omega

theorem At.append (h : At whole offset (first ++ second)) :
  At whole offset first ∧ At whole (offset + first.length) second
  := by
  obtain ⟨before, after, rfl, rfl⟩ := h
  constructor
  · exact ⟨before, second ++ after, by simp, rfl⟩
  · exact ⟨before ++ first, after, by simp, by simp⟩

theorem At.append_right (h : At whole offset part) (more : List α) :
  At (whole ++ more) offset part
  := by
  obtain ⟨before, after, rfl, rfl⟩ := h
  exact ⟨before, after ++ more, by simp, rfl⟩

theorem At.trans (h : At whole offset part) (hsmall : At part inner small) :
  At whole (offset + inner) small
  := by
  obtain ⟨before, after, rfl, rfl⟩ := h
  obtain ⟨before', after', rfl, rfl⟩ := hsmall
  exact ⟨before ++ before', after' ++ after, by simp, by simp⟩

/-- The parts of a row have their width times their index before them. -/
theorem At.flatten {parts : List (List α)} {width index : Nat}
    (hwidth : ∀ part ∈ parts, part.length = width) (h : At whole offset parts.flatten)
    (hpart : parts[index]? = some part) :
  At whole (offset + index * width) part
  := by
  induction parts generalizing offset index with
  | nil => cases hpart
  | cons head parts ih =>
    obtain ⟨hhead, htail⟩ := forall_mem_cons.mp hwidth
    cases index with
    | zero =>
      cases hpart
      rw [Nat.zero_mul]
      exact h.append.1
    | succ index =>
      have hrest := ih htail h.append.2 hpart
      rw [hhead, Nat.add_assoc, Nat.add_comm width, ← Nat.succ_mul] at hrest
      exact hrest

end Layout
