import Helios.Library.Transition
import Mathlib.Algebra.BigOperators.Pi

/-!
# The memory of an instance

An instance records one number of user-pool bytes for the linear memories of all its stores.  A
grow is admitted before it happens, and the admission records the desired size of the one memory:
the record stays what the instance holds exactly when the others are empty and the grow succeeds.
-/

namespace Helios.InstanceMemory

structure ProgramOutOfMemory where
  requestedBytes : Nat
  availableBytes : Nat
  poolBytes : Nat
  reservedBytes : Nat

/-- The record of an instance, and the sizes of its linear memories. -/
structure Instance (Memory : Type) where
  memoryBytes : Nat
  sizes : Memory → Nat

/-- A grow of a memory, with the limit of the device, what the pools lack for it, and whether the
runtime succeeds once it is admitted. -/
structure Growth (Memory : Type) where
  memory : Memory
  desired : Nat
  maximum : Option Nat
  growthLimit : Option Nat
  shortage : Option ProgramOutOfMemory
  succeeds : Bool

variable {Memory : Type} (self : Instance Memory) (growth : Growth Memory)

def allowInstanceResourceGrowth (desired : Nat) (maximum : Option Nat) : Bool × Instance Memory :=
  if maximum.all (desired ≤ ·) then (true, { self with memoryBytes := desired }) else (false, self)

def memoryGrowing : Except ProgramOutOfMemory Bool × Instance Memory :=
  if growth.maximum.any (growth.desired > ·) then (.error ⟨growth.desired, 0, 0, 0⟩, self)
  else if growth.growthLimit.any (growth.desired > ·) then (.ok false, self)
  else
    match growth.shortage with
    | some error => (.error error, self)
    | none =>
      let (allowed, self) := allowInstanceResourceGrowth self growth.desired growth.maximum
      (.ok allowed, self)

theorem memoryGrowing_cases :
  memoryGrowing self growth = (.ok true, { self with memoryBytes := growth.desired }) ∨
    ∃ answer, memoryGrowing self growth = (answer, self) ∧ answer ≠ .ok true
  := by
  unfold memoryGrowing
  split
  · exact .inr ⟨_, rfl, nofun⟩
  split
  · exact .inr ⟨_, rfl, nofun⟩
  split
  · exact .inr ⟨_, rfl, nofun⟩
  rw [allowInstanceResourceGrowth]
  by_cases hmaximum : growth.maximum.all (growth.desired ≤ ·)
  · apply Or.inl
    simp only [if_pos hmaximum]
  · refine .inr ⟨.ok false, ?_, nofun⟩
    simp only [if_neg hmaximum]

variable [DecidableEq Memory] [Fintype Memory]

def Instance.held : Nat := ∑ memory, self.sizes memory

/-- A grow by the runtime; `memory_grow_failed` only hands its error on. -/
def grow (self : Instance Memory) (growth : Growth Memory) :
    Except Empty (Instance Memory × Bool) :=
  match memoryGrowing self growth with
  | (.ok true, self) =>
    if growth.succeeds then
      .ok ({ self with sizes := Function.update self.sizes growth.memory growth.desired }, true)
    else .ok (self, false)
  | (_, self) => .ok (self, false)

/-- If the grow is admitted, it succeeds and no other memory holds a byte, or it fails and asked
for what the instance holds. -/
def Exact (self : Instance Memory) (growth : Growth Memory) : Prop :=
  (memoryGrowing self growth).1 = .ok true →
    if growth.succeeds then ∀ other ≠ growth.memory, self.sizes other = 0
    else growth.desired = self.held

theorem held_update (memory : Memory) (desired : Nat) :
  (Instance.mk desired (Function.update self.sizes memory desired)).held =
    desired + ∑ other ∈ Finset.univ \ {memory}, self.sizes other
  := Finset.sum_update_of_mem (Finset.mem_univ memory) self.sizes desired

variable {self growth} {next : Instance Memory} {grown : Bool}

theorem grow_accounts (h : self.memoryBytes = self.held)
    (hgrow : grow self growth = .ok (next, grown)) :
  next.memoryBytes = next.held ↔ Exact self growth
  := by
  obtain heq | ⟨answer, heq, hanswer⟩ := memoryGrowing_cases self growth
  · simp only [grow, heq] at hgrow
    simp only [Exact, heq, true_imp_iff]
    split at hgrow <;> cases hgrow
    · rw [if_pos ‹_›, held_update, left_eq_add]
      simp
    · rw [if_neg ‹_›]
      rfl
  · have hnext : next = self := by
      simp only [grow, heq] at hgrow
      cases hgrow
      rfl
    simp only [Exact, heq, hanswer, hnext, h, false_imp_iff]

end Helios.InstanceMemory
