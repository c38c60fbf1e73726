import Mathlib.Logic.Function.Basic

/-!
# One value of a function changes

What the values of a function are, and what they show, when one of them changes.
-/

namespace Updates

open Function

variable {α β γ : Type*} [DecidableEq α] {f : α → β} {g : α → Option β} {a x : α} {b y : β}

/-- A view that the new value does not change is the same everywhere. -/
theorem view (view : β → γ) (h : view b = view (f a)) (x : α) :
  view (update f a b x) = view (f x)
  := by
  by_cases hx : x = a
  · rw [hx, update_self, h]
  · rw [update_of_ne hx]

/-- An entry of a table after one was put in. -/
theorem put (h : update g a (some b) x = some y) :
  x = a ∧ y = b ∨ x ≠ a ∧ g x = some y
  := by
  by_cases hx : x = a
  · rw [hx, update_self] at h
    exact Or.inl ⟨hx, (Option.some.inj h).symm⟩
  · rw [update_of_ne hx] at h
    exact Or.inr ⟨hx, h⟩

/-- A value that is not the new one. -/
theorem old (h : update f a b x = y) (hne : b ≠ y) :
  x ≠ a ∧ f x = y
  := by
  by_cases hx : x = a
  · rw [hx, update_self] at h
    exact absurd h hne
  · rw [update_of_ne hx] at h
    exact ⟨hx, h⟩

/-- An entry of a table after one was taken out. -/
theorem take (h : update g a none x = some y) :
  x ≠ a ∧ g x = some y
  := old h nofun

end Updates
