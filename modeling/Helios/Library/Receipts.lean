import Helios.Library.Updates
import Mathlib.Data.List.Nodup

/-!
# Receipts

Callers make calls, one at a time each.  A call may do one thing, of which its caller is told when
the call returns.  Then nothing is done twice, what callers are told of was done, and what was
done either was told or is owed by a call that has not returned.
-/

/-- One call of a caller: the caller, and how many calls it made before. -/
structure Ticket (ι : Type) where
  caller : ι
  calls : Nat
  deriving DecidableEq, Repr

/-- Where a caller is: between calls, in a call that has done nothing, or in one that is to tell
what it did. -/
inductive Phase (α : Type) where
  | idle
  | fresh
  | owes (value : α)

namespace Receipts

open Function List

variable {ι α : Type}

/-- The call that a caller is in. -/
def ticket (calls : ι → Nat) (caller : ι) : Ticket ι := ⟨caller, calls caller⟩

/-- What was done and what was told agree with where the callers are. -/
structure Agree (calls : ι → Nat) (phase : ι → Phase α) (done told : List (Ticket ι × α)) : Prop where
  bound : ∀ entry ∈ done, entry.1.calls ≤ calls entry.1.caller
  nodup_done : (done.map Prod.fst).Nodup
  nodup_told : (told.map Prod.fst).Nodup
  sound : ∀ entry ∈ told, entry ∈ done
  fresh : ∀ caller, phase caller = .fresh → ticket calls caller ∉ done.map Prod.fst
  owes : ∀ caller value, phase caller = .owes value →
    (ticket calls caller, value) ∈ done ∧ ticket calls caller ∉ told.map Prod.fst
  settled : ∀ entry ∈ done, entry ∈ told ∨
    (entry.1 = ticket calls entry.1.caller ∧ phase entry.1.caller = .owes entry.2)

namespace Agree

variable {caller : ι}

variable {calls : ι → Nat} {phase phase' : ι → Phase α} {done told : List (Ticket ι × α)}

theorem empty :
  Agree (fun _ : ι => 0) (fun _ => (.idle : Phase α)) [] []
  := by
  constructor
  · nofun
  · exact nodup_nil
  · exact nodup_nil
  · nofun
  · nofun
  · nofun
  · nofun

section

variable (h : Agree calls phase done told)
include h

/-- A caller goes on without doing anything, or returns without having done anything. -/
theorem move (hmove : ∀ caller, phase' caller = phase caller ∨ (phase caller = .fresh ∧ phase'
      caller = .idle)) :
  Agree calls phase' done told
  := by
  refine { h with fresh := ?_, owes := ?_, settled := ?_ }
  · intro caller hfresh
    rcases hmove caller with heq | ⟨_, hidle⟩
    · exact h.fresh caller (heq ▸ hfresh)
    · rw [hidle] at hfresh
      cases hfresh
  · intro caller value howes
    rcases hmove caller with heq | ⟨_, hidle⟩
    · exact h.owes caller value (heq ▸ howes)
    · rw [hidle] at howes
      cases howes
  · intro entry hentry
    rcases h.settled entry hentry with htold | ⟨hticket, howes⟩
    · exact Or.inl htold
    · right
      refine ⟨hticket, ?_⟩
      rcases hmove entry.1.caller with heq | ⟨hfresh, _⟩
      · rw [heq]
        exact howes
      · rw [hfresh] at howes
        cases howes

variable [DecidableEq ι]

/-- A caller begins a call. -/
theorem call (hidle : phase caller = .idle)
    (hphase : phase' = update phase caller .fresh) :
  Agree (update calls caller (calls caller + 1)) phase' done told
  := by
  have hcalls : ∀ other, calls other ≤ update calls caller (calls caller + 1) other :=
    (forall_update_iff calls fun other count => calls other ≤ count).mpr
      ⟨Nat.le_succ _, fun _ _ => Nat.le_refl _⟩
  have hsame : ∀ other, other ≠ caller →
      ticket (update calls caller (calls caller + 1)) other = ticket calls other := by
    intro other hother
    rw [ticket, ticket, update_of_ne hother]
  subst hphase
  refine { h with bound := ?_, fresh := ?_, owes := ?_, settled := ?_ }
  · intro entry hentry
    exact Nat.le_trans (h.bound entry hentry) (hcalls _)
  · intro other hfresh
    by_cases hother : other = caller
    · subst hother
      intro hmem
      obtain ⟨entry, hentry, hticket⟩ := mem_map.mp hmem
      have hbound := h.bound entry hentry
      rw [hticket, ticket, update_self] at hbound
      exact absurd hbound (Nat.not_succ_le_self _)
    · rw [hsame other hother]
      rw [update_of_ne hother] at hfresh
      exact h.fresh other hfresh
  · intro other value howes
    obtain ⟨hother, howes⟩ := Updates.old howes nofun
    rw [hsame other hother]
    exact h.owes other value howes
  · intro entry hentry
    rcases h.settled entry hentry with htold | ⟨hticket, howes⟩
    · exact Or.inl htold
    · right
      have hother : entry.1.caller ≠ caller := by
        intro heq
        rw [heq, hidle] at howes
        cases howes
      rw [hsame _ hother, update_of_ne hother]
      exact ⟨hticket, howes⟩

/-- A call does something. -/
theorem act {value : α} (hfresh : phase caller = .fresh)
    (hphase : phase' = update phase caller (.owes value)) :
  Agree calls phase' (done ++ [(ticket calls caller, value)]) told
  := by
  have hnew := h.fresh caller hfresh
  subst hphase
  constructor
  · exact forall_mem_append.mpr ⟨h.bound, forall_mem_singleton.mpr (Nat.le_refl _)⟩
  · rw [map_append, map_singleton, ← concat_eq_append]
    exact .concat hnew h.nodup_done
  · exact h.nodup_told
  · intro entry hentry
    exact mem_append_left _ (h.sound entry hentry)
  · intro other hother
    obtain ⟨hne, hother⟩ := Updates.old hother nofun
    rw [map_append, mem_append, not_or]
    refine ⟨h.fresh other hother, ?_⟩
    rw [map_singleton, mem_singleton]
    intro heq
    exact hne (Ticket.mk.inj heq).1
  · intro other other' howes
    by_cases hother : other = caller
    · subst hother
      rw [update_self] at howes
      cases howes
      refine ⟨mem_append_right _ (mem_singleton.mpr rfl), ?_⟩
      intro htold
      obtain ⟨entry, hentry, hticket⟩ := mem_map.mp htold
      apply hnew
      rw [← hticket]
      exact mem_map_of_mem (h.sound entry hentry)
    · rw [update_of_ne hother] at howes
      obtain ⟨hdone, htold⟩ := h.owes other other' howes
      exact ⟨mem_append_left _ hdone, htold⟩
  · intro entry hentry
    rcases mem_append.mp hentry with hold | hadded
    · rcases h.settled entry hold with htold | ⟨hticket, howes⟩
      · exact Or.inl htold
      · right
        have hne : entry.1.caller ≠ caller := by
          intro heq
          rw [heq, hfresh] at howes
          cases howes
        rw [update_of_ne hne]
        exact ⟨hticket, howes⟩
    · right
      rw [mem_singleton.mp hadded]
      exact ⟨rfl, update_self ..⟩

/-- A call returns what it did. -/
theorem tell {value : α} (howes : phase caller = .owes value)
    (hphase : phase' = update phase caller .idle) :
  Agree calls phase' done (told ++ [(ticket calls caller, value)])
  := by
  obtain ⟨hdone, hnew⟩ := h.owes caller value howes
  subst hphase
  refine { h with nodup_told := ?_, sound := ?_, fresh := ?_, owes := ?_, settled := ?_ }
  · rw [map_append, map_singleton, ← concat_eq_append]
    exact .concat hnew h.nodup_told
  · exact forall_mem_append.mpr ⟨h.sound, forall_mem_singleton.mpr hdone⟩
  · intro other hfresh
    exact h.fresh other (Updates.old hfresh nofun).2
  · intro other other' howes'
    obtain ⟨hne, howes'⟩ := Updates.old howes' nofun
    obtain ⟨hdone', htold'⟩ := h.owes other other' howes'
    refine ⟨hdone', ?_⟩
    rw [map_append, mem_append, not_or]
    refine ⟨htold', ?_⟩
    rw [map_singleton, mem_singleton]
    intro heq
    exact hne (Ticket.mk.inj heq).1
  · intro entry hentry
    rcases h.settled entry hentry with htold | ⟨hticket, howes'⟩
    · exact Or.inl (mem_append_left _ htold)
    · by_cases hcaller : entry.1.caller = caller
      · left
        apply mem_append_right
        rw [mem_singleton]
        rw [hcaller] at hticket howes'
        rw [howes] at howes'
        cases howes'
        exact Prod.ext hticket rfl
      · right
        rw [update_of_ne hcaller]
        exact ⟨hticket, howes'⟩

end

end Agree

end Receipts
