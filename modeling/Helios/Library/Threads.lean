import Mathlib.Data.List.Basic

/-!
# Lists threaded through an array

A list is threaded when following a link from each element gives the next one, and from the
last none.  Changing links elsewhere leaves a list threaded, and linking the last element to a
new one appends it.
-/

variable {α : Type}

/-- Following the links from element to element goes through the list. -/
def Threads (follow : α → Option α) : List α → Prop
  | [] => True
  | a :: l => follow a = l.head? ∧ Threads follow l

namespace Threads

variable {follow follow' : α → Option α} {l : List α}

theorem congr (h : Threads follow l) (hsame : ∀ a ∈ l, follow' a = follow a) :
  Threads follow' l
  := by
  induction l with
  | nil => exact trivial
  | cons a l ih =>
    rw [List.forall_mem_cons] at hsame
    constructor
    · rw [hsame.1]
      exact h.1
    · exact ih h.2 hsame.2

/-- Linking the last element to a new one appends it. -/
theorem concat {last b : α} (h : Threads follow (l ++ [last]))
    (hsame : ∀ a ∈ l, follow' a = follow a) (hlast : follow' last = some b)
    (hb : follow' b = none) :
  Threads follow' (l ++ [last] ++ [b])
  := by
  induction l with
  | nil => exact ⟨hlast, hb, trivial⟩
  | cons a l ih =>
    rw [List.forall_mem_cons] at hsame
    constructor
    · have hhead : (l ++ [last] ++ [b]).head? = (l ++ [last]).head? := by
        cases l <;> rfl
      show follow' a = (l ++ [last] ++ [b]).head?
      rw [hhead, hsame.1]
      exact h.1
    · exact ih h.2 hsame.2

end Threads
