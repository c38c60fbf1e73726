import Helios.Kernel.Notify
import Mathlib.Data.List.Perm.Basic

/-!
# The accesses to a notification

The accesses to a `Notify` by the branches they take, and what replacing one wait and
notifying the event do to the waits.
-/

namespace Helios

open List

namespace Notify

/-! ### The accesses by cases -/

/-- What an access does, by the branch it takes. -/
inductive Stepped (notify : Notify) : Op → Notify → Option Poll → Prop where
  | waiter : Stepped notify .waiter
      { notify with waiters := notify.waiters ++ [⟨notify.generation, none, .idle⟩] } none
  | poll {w waiter} : notify.waiters[w]? = some waiter → waiter.stage = .idle →
      Stepped notify (.poll w) (notify.set w { waiter with stage := .load }) none
  | loadNew {w waiter} : notify.waiters[w]? = some waiter → waiter.stage = .load →
      notify.generation ≠ waiter.observed → Stepped notify (.load w)
        (notify.set w { waiter with stage := .rearm notify.generation .broadcast }) none
  | loadSame {w waiter} : notify.waiters[w]? = some waiter → waiter.stage = .load →
      notify.generation = waiter.observed →
      Stepped notify (.load w) (notify.set w { waiter with stage := .claim }) none
  | claimNone {w waiter} : notify.waiters[w]? = some waiter → waiter.stage = .claim →
      notify.permits = 0 →
      Stepped notify (.claim w) (notify.set w { waiter with stage := .park }) none
  | claim {w waiter} : notify.waiters[w]? = some waiter → waiter.stage = .claim →
      notify.permits ≠ 0 → Stepped notify (.claim w)
        ({ notify with permits := notify.permits - 1 }.set w
          { waiter with stage := .rearm waiter.observed .permit }) none
  | listen {w waiter} : notify.waiters[w]? = some waiter → waiter.stage = .park →
      waiter.listener = none → Stepped notify (.park w)
        (notify.set w { waiter with listener := some .waiting, stage := .load }) none
  | consume {w waiter} : notify.waiters[w]? = some waiter → waiter.stage = .park →
      waiter.listener = some .notified → Stepped notify (.park w)
        (notify.set w { waiter with listener := none, stage := .load }) none
  | pend {w waiter} : notify.waiters[w]? = some waiter → waiter.stage = .park →
      waiter.listener = some .waiting →
      Stepped notify (.park w) (notify.set w { waiter with stage := .idle }) (some .pending)
  | rearm {w waiter generation completion woken} : notify.waiters[w]? = some waiter →
      waiter.stage = .rearm generation completion → Stepped notify (.rearm w woken)
        (notify.unlisten w waiter.listener ⟨generation, none, .idle⟩ woken)
        (some (.ready completion))
  | drop {w waiter woken} : notify.waiters[w]? = some waiter → waiter.stage = .idle →
      Stepped notify (.drop w woken)
        (notify.unlisten w waiter.listener ⟨waiter.observed, none, .dropped⟩ woken) none
  | notifyNone : Stepped notify (.notifyCount 0) notify none
  | notifyCount {count} : count ≠ 0 → Stepped notify (.notifyCount count)
      { notify with
        permits := Machine.satAdd 64 notify.permits count
        unraised := notify.unraised ++ [count] } none
  | coalesced : notify.permits = 0 → Stepped notify .notifyOneCoalesced
      { notify with permits := 1, unraised := notify.unraised ++ [1] } none
  | coalescedNone : notify.permits ≠ 0 → Stepped notify .notifyOneCoalesced notify none
  | notifyAll : Stepped notify .notifyAll
      { notify with
        generation := (notify.generation + 1) % 2 ^ 64
        unraised := notify.unraised ++ [Machine.maxWord 64] } none
  | raise {i count woken} : notify.unraised[i]? = some count → Stepped notify (.raise i woken)
      ({ notify with unraised := notify.unraised.eraseIdx i }.wake woken) none

variable {notify notify' : Notify} {op : Op} {out : Option Poll} {w : Nat}
  {waiter waiter' : NotifyWaiter}

theorem stepped_of_stepWaiter (hget : notify.waiters[w]? = some waiter)
    (hw : op.waiter? = some w) (h : notify.stepWaiter w waiter op = .ok (notify', out)) :
  Stepped notify op notify' out
  := by
  cases op <;> cases hw <;> rw [stepWaiter] at h <;> repeat' split at h
  all_goals cases h
  · exact .poll hget ‹_›
  · exact .loadNew hget ‹_› ‹_›
  · exact .loadSame hget ‹_› (not_not.mp ‹_›)
  · exact .claimNone hget ‹_› ‹_›
  · exact .claim hget ‹_› ‹_›
  · exact .listen hget ‹_› ‹_›
  · exact .consume hget ‹_› ‹_›
  · exact .pend hget ‹_› ‹_›
  · exact .rearm hget ‹_›
  · exact .drop hget ‹_›

theorem stepped_of_step (h : notify.step op = .ok (notify', out)) :
  Stepped notify op notify' out
  := by
  rw [step.eq_def] at h
  repeat' split at h
  any_goals cases h
  · exact .waiter
  · rename_i hzero
    subst hzero
    exact .notifyNone
  · exact .notifyCount ‹_›
  · exact .coalesced ‹_›
  · exact .coalescedNone ‹_›
  · exact .notifyAll
  · exact .raise (List.getElem?_eq_getElem ‹_›)
  · exact stepped_of_stepWaiter ‹_› ‹_› h

/-! ### Updates of one wait and notifications -/

theorem perm_set (hget : notify.waiters[w]? = some waiter) (waiter' : NotifyWaiter) :
  notify.waiters.Perm (waiter :: notify.waiters.eraseIdx w) ∧
    (notify.set w waiter').waiters.Perm (waiter' :: notify.waiters.eraseIdx w)
  := by
  obtain ⟨hlt, heq⟩ := List.getElem?_eq_some_iff.mp hget
  constructor
  · rw [← heq]
    exact (getElem_cons_eraseIdx_perm hlt).symm
  · exact set_perm_cons_eraseIdx hlt waiter'

theorem getElem?_set (hget : notify.waiters[w]? = some waiter) (waiter' : NotifyWaiter) (v : Nat) :
  (notify.set w waiter').waiters[v]? = if v = w then some waiter' else notify.waiters[v]?
  := by
  obtain ⟨hlt, _⟩ := List.getElem?_eq_some_iff.mp hget
  rw [set, List.getElem?_set]
  by_cases h : w = v
  · subst h
    simp [hlt]
  · rw [if_neg h, if_neg (Ne.symm h)]

section

variable (notify) (w) (waiter)

@[simp] theorem set_permits :
  (notify.set w waiter).permits = notify.permits
  := rfl

@[simp] theorem set_generation :
  (notify.set w waiter).generation = notify.generation
  := rfl

@[simp] theorem wake_stage :
  waiter.wake.stage = waiter.stage
  := by
  rw [NotifyWaiter.wake]
  split <;> rfl

@[simp] theorem wake_observed :
  waiter.wake.observed = waiter.observed
  := by
  rw [NotifyWaiter.wake]
  split <;> rfl

theorem wake_listener :
  waiter.wake.listener =
    if waiter.listener = some .waiting then some .notified else waiter.listener
  := by
  rw [NotifyWaiter.wake]
  split <;> rfl

/-- A wait after a notification of the event is as before, or its listener is notified. -/
theorem getElem?_wake (woken : List Nat) (v : Nat) :
  (notify.wake woken).waiters[v]? = notify.waiters[v]? ∨
    (notify.wake woken).waiters[v]? = notify.waiters[v]?.map NotifyWaiter.wake
  := by
  rw [wake]
  by_cases h : v ∈ woken
  · simp [h]
  · simp [h]

end

/-- A property of waits that a notification does not touch is counted as before. -/
theorem countP_wake (notify : Notify) (woken : List Nat) {p : NotifyWaiter → Bool}
    (hp : ∀ waiter : NotifyWaiter, p waiter.wake = p waiter) :
  (notify.wake woken).waiters.countP p = notify.waiters.countP p
  := by
  have hmap : (notify.wake woken).waiters.map p = notify.waiters.map p := by
    apply ext_getElem?
    intro v
    rw [List.getElem?_map, List.getElem?_map]
    rcases getElem?_wake notify woken v with heq | heq
    · rw [heq]
    · rw [heq, Option.map_map]
      congr 1
      funext waiter
      exact hp waiter
  have hcount : ∀ waiters : List NotifyWaiter, waiters.countP p = (waiters.map p).countP id := by
    intro waiters
    rw [countP_map]
    rfl
  rw [hcount, hmap, ← hcount]

theorem active_wake (notify : Notify) (woken : List Nat) :
  (notify.wake woken).active = notify.active
  := by
  apply countP_wake
  intro waiter
  rw [wake_listener]
  split
  · rename_i hwaiting
    rw [hwaiting]
    rfl
  · rfl

/-- What the event does depends on the listeners only. -/
theorem EventNotifies.set {count : Nat} {woken : List Nat}
    (hget : notify.waiters[w]? = some waiter) {waiter₁ waiter₂ : NotifyWaiter}
    (hlistener : waiter₁.listener = waiter₂.listener)
    (h : (notify.set w waiter₁).EventNotifies count woken) :
  (notify.set w waiter₂).EventNotifies count woken
  := by
  have hactive : (notify.set w waiter₂).active = (notify.set w waiter₁).active := by
    rw [active, active, ((perm_set hget waiter₁).2).countP_eq,
      ((perm_set hget waiter₂).2).countP_eq, countP_cons, countP_cons, hlistener]
  have hnotified : ((notify.set w waiter₂).wake woken).waiters.map NotifyWaiter.listener =
      ((notify.set w waiter₁).wake woken).waiters.map NotifyWaiter.listener := by
    apply ext_getElem?
    intro v
    simp only [wake, List.getElem?_map, List.getElem?_mapIdx, getElem?_set hget]
    by_cases hv : v = w
    · simp only [if_pos hv, Option.map_some]
      split
      · rw [wake_listener, wake_listener, hlistener]
      · rw [hlistener]
    · simp only [if_neg hv]
  have hcount : ∀ waiters : List NotifyWaiter,
      (waiters.countP fun waiter => waiter.listener = some .notified) =
        (waiters.map NotifyWaiter.listener).countP fun listener => listener = some .notified := by
    intro waiters
    rw [countP_map]
    rfl
  rw [EventNotifies, hactive, notified, hcount, hnotified, ← hcount]
  exact h

end Notify

end Helios
