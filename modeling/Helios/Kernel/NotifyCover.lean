import Helios.Kernel.NotifySteps

/-!
# Covered permits

While a permit is there and a wait sleeps, something is on its way to wake a wait: a listener
is notified, a notification is still to be raised, or polls under way will claim the permits.
Every access keeps this but one.  A poll that finds its listener notified uses the
notification up, and when more permits have come meanwhile than polls that will test them,
nothing is left to wake the other waits.
-/

namespace Helios

open List

namespace Notify

variable {notify notify' : Notify} {op : Op} {out : Option Poll} {w : Nat}
  {waiter waiter' : NotifyWaiter}

/-! ### Permits and sleeping waits -/

/-- The wait sleeps, or goes to sleep without testing the permits again. -/
def Sleeps (waiter : NotifyWaiter) : Bool :=
  waiter.listener = some .waiting && (waiter.stage = .idle || waiter.stage = .park)

/-- The wait is being polled and will test the permits, unless a broadcast comes. -/
def Tests (generation : Nat) (waiter : NotifyWaiter) : Bool :=
  waiter.stage = .claim || (waiter.observed = generation &&
    (waiter.stage = .load || (waiter.stage = .park && waiter.listener = none)))

def IsNotified (waiter : NotifyWaiter) : Bool :=
  waiter.listener = some .notified

/-- While there is a permit and a wait that sleeps, a notification is on its way, or polls
under way will claim all permits. -/
def Covered (notify : Notify) : Prop :=
  0 < notify.permits → notify.waiters.any Sleeps → notify.waiters.any IsNotified ∨
    notify.unraised ≠ [] ∨ notify.permits ≤ notify.waiters.countP (Tests notify.generation)

/-- A change to one wait that takes away neither its notification nor its test. -/
theorem Covered.set (h : notify.Covered) (hget : notify.waiters[w]? = some waiter)
    (hsleeps : Sleeps waiter' → Sleeps waiter) (hnotified : IsNotified waiter → IsNotified waiter')
    (htests : Tests notify.generation waiter → Tests notify.generation waiter') :
  (notify.set w waiter').Covered
  := by
  obtain ⟨hold, hnew⟩ := perm_set hget waiter'
  rw [Covered, hold.any_eq, hold.any_eq, hold.countP_eq] at h
  rw [Covered, hnew.any_eq, hnew.any_eq, hnew.countP_eq, set_permits, set_generation]
  intro hpermits hany
  simp only [any_cons, Bool.or_eq_true, countP_cons] at h hany ⊢
  rcases h hpermits (hany.imp_left hsleeps) with (hfound | hfound) | hfound | hfound
  · exact .inl (.inl (hnotified hfound))
  · exact .inl (.inr hfound)
  · exact .inr (.inl hfound)
  · right
    right
    by_cases ht : Tests notify.generation waiter = true
    · rw [if_pos ht] at hfound
      rw [if_pos (htests ht)]
      exact hfound
    · rw [if_neg ht] at hfound
      omega

/-- A notification of the event leaves every permit covered. -/
theorem covered_wake {count : Nat} {woken : List Nat} (hcount : 0 < count)
    (h : notify.EventNotifies count woken) :
  (notify.wake woken).Covered
  := by
  intro _ hany
  left
  obtain ⟨waiter, hmem, hsleeps⟩ := any_eq_true.mp hany
  have hactive : 0 < (notify.wake woken).active := by
    apply countP_pos_iff.mpr
    use waiter, hmem
    simp only [Sleeps, Bool.and_eq_true, decide_eq_true_eq] at hsleeps
    rw [hsleeps.1]
    rfl
  rw [active_wake] at hactive
  have hnotified : 0 < (notify.wake woken).notified := by
    rw [EventNotifies] at h
    omega
  obtain ⟨found, hfound, hlistener⟩ := countP_pos_iff.mp hnotified
  exact any_eq_true.mpr ⟨found, hfound, hlistener⟩

/-- Dropping the listener of a wait that does not test the permits. -/
theorem Covered.unlisten (h : notify.Covered) (hget : notify.waiters[w]? = some waiter)
    {woken : List Nat} (hnone : waiter'.listener = none)
    (htests : Tests notify.generation waiter = false)
    (hevent : waiter.listener = some .notified →
      (notify.set w { waiter with listener := none }).EventNotifies 1 woken) :
  (notify.unlisten w waiter.listener waiter' woken).Covered
  := by
  rw [Notify.unlisten]
  split_ifs with hlistener
  · apply covered_wake Nat.one_pos
    exact (hevent hlistener).set hget hnone.symm
  · apply h.set hget
    · simp [Sleeps, hnone]
    · simp [IsNotified, hlistener]
    · simp [htests]

/-- The polls that will test the permits take them all, or something still wakes the other
waits, when a wait uses its notification up. -/
def SafeToConsume (notify : Notify) (w : Nat) (waiter : NotifyWaiter) : Prop :=
  0 < notify.permits → (notify.waiters.eraseIdx w).any Sleeps →
    (notify.waiters.eraseIdx w).any IsNotified ∨ notify.unraised ≠ [] ∨
    notify.permits ≤ (notify.waiters.eraseIdx w).countP (Tests notify.generation) +
      if waiter.observed = notify.generation then 1 else 0

theorem covered_consume (hget : notify.waiters[w]? = some waiter)
    (hsafe : notify.SafeToConsume w waiter) :
  (notify.set w { waiter with listener := none, stage := .load }).Covered
  := by
  obtain ⟨_, hnew⟩ := perm_set hget { waiter with listener := none, stage := .load }
  rw [Covered, hnew.any_eq, hnew.any_eq, hnew.countP_eq, set_permits, set_generation]
  intro hpermits hany
  simp only [any_cons, Bool.or_eq_true, countP_cons] at hany ⊢
  have hothers : (notify.waiters.eraseIdx w).any Sleeps = true := by
    rcases hany with hany | hany
    · simp [Sleeps] at hany
    · exact hany
  rcases hsafe hpermits hothers with hfound | hfound | hfound
  · exact .inl (.inr hfound)
  · exact .inr (.inl hfound)
  · right
    right
    by_cases hobserved : waiter.observed = notify.generation
    · rw [if_pos hobserved] at hfound
      rw [if_pos (by simp [Tests, hobserved])]
      exact hfound
    · rw [if_neg hobserved] at hfound
      omega

/-! ### The accesses considered -/

/-- The generations a wait holds: the one it observed, and one it has loaded. -/
def NotifyWaiter.generations (waiter : NotifyWaiter) : List Nat :=
  match waiter.stage with
  | .rearm generation _ => [waiter.observed, generation]
  | .dropped => []
  | _ => [waiter.observed]

/-- The accesses that use up no notification that is still needed, and bring back no
generation that a wait holds. -/
def Harmless (notify : Notify) : Op → Prop
  | .park w => ∀ waiter ∈ notify.waiters[w]?, waiter.stage = .park →
      waiter.listener = some .notified → notify.SafeToConsume w waiter
  | .notifyAll => ∀ waiter ∈ notify.waiters, ∀ held ∈ NotifyWaiter.generations waiter,
      held ≠ (notify.generation + 1) % 2 ^ 64
  | _ => True

instance (notify : Notify) (w : Nat) (waiter : NotifyWaiter) :
    Decidable (notify.SafeToConsume w waiter) :=
  inferInstanceAs (Decidable (_ → _ → _ ∨ _ ∨ _))

instance (notify : Notify) : (op : Op) → Decidable (notify.Harmless op)
  | .park w => inferInstanceAs (Decidable (∀ waiter ∈ notify.waiters[w]?, waiter.stage = .park →
      waiter.listener = some .notified → notify.SafeToConsume w waiter))
  | .notifyAll => inferInstanceAs (Decidable (∀ waiter ∈ notify.waiters,
      ∀ held ∈ NotifyWaiter.generations waiter, held ≠ (notify.generation + 1) % 2 ^ 64))
  | .waiter | .poll _ | .load _ | .claim _ | .rearm _ _ | .drop _ _ | .notifyCount _
  | .notifyOneCoalesced | .raise _ _ => inferInstanceAs (Decidable True)

/-- The accesses considered: the event behaves, and the access is harmless. -/
def Allowed (notify : Notify) (op : Op) : Prop :=
  notify.Behaves op ∧ notify.Harmless op

instance (notify : Notify) (op : Op) : Decidable (notify.Allowed op) :=
  inferInstanceAs (Decidable (_ ∧ _))

/-- A permit stored, or a broadcast, is covered by the notification still to be raised. -/
theorem covered_unraised {permits generation count : Nat} {waiters : List NotifyWaiter}
    {unraised : List Nat} :
  Covered ⟨permits, generation, waiters, unraised ++ [count]⟩
  := by
  intro _ _
  simp

/-- Every allowed access leaves the permits covered. -/
theorem Covered.step (h : notify.Covered) (hpositive : ∀ count ∈ notify.unraised, 0 < count)
    (hallowed : notify.Allowed op) (hstep : Stepped notify op notify' out) :
  notify'.Covered
  := by
  cases hstep with
  | waiter =>
    intro hpermits hany
    have hsleeps : notify.waiters.any Sleeps = true := by simpa [Sleeps] using hany
    rcases h hpermits hsleeps with hfound | hfound | hfound
    · simp [hfound]
    · exact .inr (.inl hfound)
    · simp only [countP_append]
      omega
  | poll hget hstage | loadSame hget hstage _ =>
    apply h.set hget
    · simp [Sleeps]
    · simp [IsNotified]
    · simp [Tests, hstage]
  | loadNew hget hstage hnew =>
    apply h.set hget
    · simp [Sleeps]
    · simp [IsNotified]
    · simp [Tests, hstage, hnew.symm]
  | claimNone hget hstage hnone =>
    intro hpermits
    rw [set_permits] at hpermits
    omega
  | claim hget hstage hpermits =>
    rename_i w waiter
    -- The permit goes together with the test that the wait has made.
    obtain ⟨hold, hnew⟩ := perm_set hget { waiter with stage := .rearm waiter.observed .permit }
    rw [Covered, hold.any_eq, hold.any_eq, hold.countP_eq] at h
    have hwaiters : ({ notify with permits := notify.permits - 1 }.set w
        { waiter with stage := .rearm waiter.observed .permit }).waiters =
          (notify.set w { waiter with stage := .rearm waiter.observed .permit }).waiters := rfl
    rw [Covered, hwaiters, hnew.any_eq, hnew.any_eq, hnew.countP_eq, set_permits, set_generation]
    intro hleft hany
    simp only [any_cons, countP_cons, Bool.or_eq_true] at h hany ⊢
    have hothers : (notify.waiters.eraseIdx w).any Sleeps = true := by
      rcases hany with hany | hany
      · simp [Sleeps] at hany
      · exact hany
    rcases h (by omega) (.inr hothers) with (hfound | hfound) | hfound | hfound
    · exact .inl (.inl hfound)
    · exact .inl (.inr hfound)
    · exact .inr (.inl hfound)
    · rw [if_pos (by simp [Tests, hstage])] at hfound
      omega
  | listen hget hstage hlistener | pend hget hstage hlistener =>
    apply h.set hget
    · simp [Sleeps, hstage]
    · simp [IsNotified, hlistener]
    · simp [Tests, hstage, hlistener]
  | consume hget hstage hlistener =>
    exact covered_consume hget (hallowed.2 _ hget hstage hlistener)
  | rearm hget hstage | drop hget hstage =>
    apply h.unlisten hget rfl
    · simp [Tests, hstage]
    · exact hallowed.1 _ hget
  | notifyNone | coalescedNone _ => exact h
  | notifyCount _ | coalesced _ | notifyAll => exact covered_unraised
  | raise hcount =>
    apply covered_wake (hpositive _ (mem_of_getElem? hcount))
    exact hallowed.1 _ hcount

end Notify

end Helios
