import Mathlib.Data.List.Basic

/-!
# Texts in segments

A text made of segments with a separator before each, and what a split at the separator gives
back.  A text is under another when it is that text, or goes on from it with a separator.
-/

namespace Segments

open List

variable {α : Type*}

/-! ### Joining and splitting -/

/-- The segments one after another, each with the separator before it. -/
def joined (separator : α) (segments : List (List α)) : List α :=
  segments.flatMap (separator :: ·)

@[simp]
theorem joined_nil (separator : α) :
  joined separator [] = []
  := rfl

@[simp]
theorem joined_cons (separator : α) (segment : List α) (segments : List (List α)) :
  joined separator (segment :: segments) = separator :: segment ++ joined separator segments
  := by
  simp [joined]

theorem intercalate_nil_cons (separator : α) (segments : List (List α)) :
  [separator].intercalate ([] :: segments) = joined separator segments
  := by
  induction segments with
  | nil => rfl
  | cons segment segments ih =>
    rw [joined_cons, ← ih]
    cases segments with
    | nil | cons next segments => simp [intercalate]

variable [BEq α] [LawfulBEq α] {separator : α}

/-- Splitting gives back segments that do not hold the separator. -/
theorem splitOn_joined {segments : List (List α)} (h : ∀ segment ∈ segments, separator ∉ segment) :
  (joined separator segments).splitOn separator = [] :: segments
  := by
  rw [← intercalate_nil_cons]
  apply splitOn_intercalate
  · exact forall_mem_cons.mpr ⟨not_mem_nil, h⟩
  · exact cons_ne_nil _ _

/-- No part of a split holds the separator. -/
theorem not_mem_of_mem_splitOn {text segment : List α} (h : segment ∈ text.splitOn separator) :
  separator ∉ segment
  := by
  induction text generalizing segment with
  | nil =>
    rw [splitOn_nil, mem_singleton] at h
    rw [h]
    exact not_mem_nil
  | cons first text ih =>
    rw [splitOn, splitOnP_cons_eq_if_modifyHead, ← splitOn] at h
    split at h
    · rcases mem_cons.mp h with rfl | h
      · exact not_mem_nil
      · exact ih h
    · rename_i hne
      cases hsplit : text.splitOn separator with
      | nil =>
        rw [hsplit] at h
        exact absurd h not_mem_nil
      | cons head rest =>
        rw [hsplit] at h ih
        rcases mem_cons.mp h with rfl | h
        · rw [mem_cons]
          rintro (rfl | hmem)
          · exact hne (beq_self_eq_true _)
          · exact ih (mem_cons_self ..) hmem
        · exact ih (mem_cons_of_mem _ h)

/-! ### Below a text -/

omit [BEq α] [LawfulBEq α]

/-- A text is another or goes on from it with a separator. -/
def Under (separator : α) (directory path : List α) : Prop :=
  path = directory ∨ ∃ rest, path = directory ++ separator :: rest

theorem Under.refl (separator : α) (path : List α) :
  Under separator path path
  := Or.inl rfl

theorem Under.trans {first second third : List α} (h : Under separator first second)
    (h' : Under separator second third) :
  Under separator first third
  := by
  rcases h' with rfl | ⟨rest, rfl⟩
  · exact h
  · right
    rcases h with rfl | ⟨middle, rfl⟩
    · exact ⟨rest, rfl⟩
    · use middle ++ separator :: rest
      rw [append_assoc, cons_append]

end Segments
