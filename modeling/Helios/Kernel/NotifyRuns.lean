import Helios.Kernel.NotifyCover

/-!
# What notifications owe

Over all interleavings of the accesses to a `Notify`: permits are neither lost nor spent
twice, a broadcast completes every wait armed before it, and a permit that is not claimed
leaves no wait asleep, as long as no notification is used up that is still needed.
-/

namespace Helios

open Function Transition List

namespace Notify

variable {notify notify' : Notify} {op : Op} {out : Option Poll} {w : Nat}
  {waiter waiter' : NotifyWaiter}

/-! ### What is recorded of a run -/

/-- The broadcasts raised, the permits stored and the waits completed by a permit so far, and
the number of broadcasts at which each wait was armed and last loaded the generation. -/
structure History where
  broadcasts : Nat
  stored : Nat
  byPermit : Nat
  armedAt : Nat → Nat
  loadedAt : Nat → Nat

def History.start : History := ⟨0, 0, 0, fun _ => 0, fun _ => 0⟩

def observe (history : History) (notify : Notify) (op : Op) (out : Option Poll) : History :=
  match op with
  | .waiter =>
    { history with
      armedAt := update history.armedAt notify.waiters.length history.broadcasts }
  | .load w =>
    { history with loadedAt := update history.loadedAt w history.broadcasts }
  | .rearm w _ =>
    { history with
      armedAt := update history.armedAt w (history.loadedAt w)
      byPermit := history.byPermit + if out = some (.ready .permit) then 1 else 0 }
  | .notifyCount count =>
    { history with
      stored := history.stored + (Machine.satAdd 64 notify.permits count - notify.permits) }
  | .notifyOneCoalesced =>
    { history with stored := history.stored + if notify.permits = 0 then 1 else 0 }
  | .notifyAll => { history with broadcasts := history.broadcasts + 1 }
  | .poll _ => history
  | .claim _ => history
  | .park _ => history
  | .drop _ _ => history
  | .raise _ _ => history

variable {history : History}

/-! ### Permits -/

def CompletesBy (completion : Completion) (waiter : NotifyWaiter) : Bool :=
  match waiter.stage with
  | .rearm _ by_ => by_ = completion
  | _ => false

/-- A stored permit is still there, or has completed a wait, or is about to. -/
structure Accounts (notify : Notify) (stored byPermit : Nat) : Prop where
  bounded : notify.permits ≤ Machine.maxWord 64
  balance : stored = notify.permits + byPermit + notify.waiters.countP (CompletesBy .permit)

variable {stored byPermit : Nat}

section

variable (h : notify.Accounts stored byPermit)
include h

/-- A change to one wait that neither claims a permit nor completes by one. -/
theorem Accounts.set (hget : notify.waiters[w]? = some waiter)
    (hsame : CompletesBy .permit waiter' = CompletesBy .permit waiter) :
  (notify.set w waiter').Accounts stored byPermit
  := by
  obtain ⟨hold, hnew⟩ := perm_set hget waiter'
  constructor
  · exact h.bounded
  · rw [h.balance, hold.countP_eq, hnew.countP_eq, countP_cons, countP_cons, hsame,
      set_permits]

theorem Accounts.wake (woken : List Nat) :
  (notify.wake woken).Accounts stored byPermit
  := by
  constructor
  · exact h.bounded
  · rw [h.balance, countP_wake notify woken]
    · rfl
    · intro waiter
      rw [CompletesBy, wake_stage, CompletesBy]

theorem Accounts.claim (hget : notify.waiters[w]? = some waiter) (hstage : waiter.stage = .claim)
    (hpermits : notify.permits ≠ 0) :
  ({ notify with permits := notify.permits - 1 }.set w
    { waiter with stage := .rearm waiter.observed .permit }).Accounts stored byPermit
  := by
  obtain ⟨hold, hnew⟩ := perm_set hget { waiter with stage := .rearm waiter.observed .permit }
  have hbalance := h.balance
  rw [hold.countP_eq] at hbalance
  constructor
  · exact Nat.le_trans (Nat.sub_le _ _) h.bounded
  · have hwaiters : ({ notify with permits := notify.permits - 1 }.set w
        { waiter with stage := .rearm waiter.observed .permit }).waiters =
          (notify.set w { waiter with stage := .rearm waiter.observed .permit }).waiters := rfl
    rw [hwaiters, hnew.countP_eq]
    simp [CompletesBy, hstage] at hbalance ⊢
    omega

/-- The wait that claimed a permit completes. -/
theorem Accounts.rearm (hget : notify.waiters[w]? = some waiter) {generation : Nat}
    {completion : Completion} (hstage : waiter.stage = .rearm generation completion) :
  (notify.set w ⟨generation, none, .idle⟩).Accounts stored
    (byPermit + if some (Poll.ready completion) = some (.ready .permit) then 1 else 0)
  := by
  obtain ⟨hold, hnew⟩ := perm_set hget ⟨generation, none, .idle⟩
  have hbalance := h.balance
  rw [hold.countP_eq] at hbalance
  constructor
  · exact h.bounded
  · rw [hnew.countP_eq]
    cases completion <;> simp [CompletesBy, hstage] at hbalance ⊢ <;> omega

end

/-- Every access keeps the account of the permits. -/
theorem Accounts.step (h : notify.Accounts history.stored history.byPermit)
    (hstep : Stepped notify op notify' out) :
  notify'.Accounts (observe history notify op out).stored (observe history notify op out).byPermit
  := by
  cases hstep with
  | waiter =>
    constructor
    · exact h.bounded
    · simpa [observe, CompletesBy] using h.balance
  | poll hget hstage | loadNew hget hstage _ | loadSame hget hstage _ | claimNone hget hstage _
  | listen hget hstage _ | consume hget hstage _ | pend hget hstage _ =>
    exact h.set hget (by simp [CompletesBy, hstage])
  | claim hget hstage hpermits => exact h.claim hget hstage hpermits
  | rearm hget hstage =>
    have hset := h.rearm hget hstage
    rw [unlisten]
    split
    · exact hset.wake _
    · exact hset
  | drop hget hstage =>
    rw [unlisten]
    split
    · apply Accounts.wake
      exact h.set hget (by simp [CompletesBy, hstage])
    · exact h.set hget (by simp [CompletesBy, hstage])
  | notifyNone =>
    constructor
    · exact h.bounded
    · have hbalance := h.balance
      simp only [observe, Machine.satAdd]
      omega
  | notifyCount hcount =>
    have hbalance := h.balance
    have hbounded := h.bounded
    constructor
    · exact Nat.min_le_right _ _
    · simp only [observe, Machine.satAdd]
      omega
  | coalesced hzero =>
    constructor
    · exact Nat.le_of_ble_eq_true rfl
    · have hbalance := h.balance
      simp only [observe, hzero, if_pos] at hbalance ⊢
      omega
  | coalescedNone hpos =>
    constructor
    · exact h.bounded
    · simpa [observe, hpos] using h.balance
  | notifyAll => exact ⟨h.bounded, h.balance⟩
  | raise _ =>
    apply Accounts.wake
    exact ⟨h.bounded, h.balance⟩

/-! ### Broadcasts -/

/-- How a wait was armed after `armedAt` of the broadcasts, and last loaded the generation
after `loadedAt` of them: a generation it holds is the current one only if no broadcast came
since. -/
structure ArmedAt (generation broadcasts armedAt loadedAt : Nat) (waiter : NotifyWaiter) :
    Prop where
  armed_le : armedAt ≤ broadcasts
  observed : waiter.observed = armedAt % 2 ^ 64
  missed : armedAt < broadcasts → waiter.observed ≠ generation
  claim : waiter.stage = .claim → loadedAt = armedAt
  rearm : ∀ loaded completion, waiter.stage = .rearm loaded completion →
    loadedAt ≤ broadcasts ∧ loaded = loadedAt % 2 ^ 64 ∧
      (loadedAt < broadcasts → loaded ≠ generation) ∧
      (completion = .broadcast → armedAt < loadedAt)

variable {generation broadcasts armedAt loadedAt : Nat}

section

variable (h : ArmedAt generation broadcasts armedAt loadedAt waiter)

include h

theorem ArmedAt.wake :
  ArmedAt generation broadcasts armedAt loadedAt waiter.wake
  := by
  constructor
  · exact h.armed_le
  · rw [wake_observed]
    exact h.observed
  · rw [wake_observed]
    exact h.missed
  · rw [wake_stage]
    exact h.claim
  · rw [wake_stage]
    exact h.rearm

theorem ArmedAt.of_stage (hobserved : waiter'.observed = waiter.observed)
    (hclaim : waiter'.stage ≠ .claim)
    (hrearm : ∀ loaded completion, waiter'.stage ≠ .rearm loaded completion) :
  ArmedAt generation broadcasts armedAt loadedAt waiter'
  := by
  constructor
  · exact h.armed_le
  · rw [hobserved]
    exact h.observed
  · rw [hobserved]
    exact h.missed
  · intro hstage
    exact (hclaim hstage).elim
  · intro loaded completion hstage
    exact (hrearm loaded completion hstage).elim

end

/-- The generation counts the broadcasts, and every wait is armed after some of them. -/
structure Armed (notify : Notify) (history : History) : Prop where
  generation : notify.generation = history.broadcasts % 2 ^ 64
  waiters : ∀ w waiter, notify.waiters[w]? = some waiter → waiter.stage ≠ .dropped →
    ArmedAt notify.generation history.broadcasts (history.armedAt w) (history.loadedAt w) waiter

section

variable (h : notify.Armed history)
include h

/-- A change to one wait. -/
theorem Armed.set (hget : notify.waiters[w]? = some waiter) {history' : History}
    (hbroadcasts : history'.broadcasts = history.broadcasts) (hothers : ∀ v, v ≠ w →
      history'.armedAt v = history.armedAt v ∧ history'.loadedAt v = history.loadedAt v) (hw :
      waiter'.stage ≠ .dropped → ArmedAt notify.generation history.broadcasts (history'.armedAt w)
      (history'.loadedAt w) waiter') :
  (notify.set w waiter').Armed history'
  := by
  constructor
  · rw [hbroadcasts]
    exact h.generation
  · intro v other hother hstage
    rw [getElem?_set hget] at hother
    rw [hbroadcasts]
    split_ifs at hother with hv
    · subst hv
      cases hother
      exact hw hstage
    · obtain ⟨harmed, hloaded⟩ := hothers v hv
      rw [harmed, hloaded]
      exact h.waiters v other hother hstage

theorem Armed.wake (woken : List Nat) :
  (notify.wake woken).Armed history
  := by
  constructor
  · exact h.generation
  · intro v waiter hget hstage
    rcases getElem?_wake notify woken v with heq | heq
    · rw [heq] at hget
      exact h.waiters v waiter hget hstage
    · rw [heq, Option.map_eq_some_iff] at hget
      obtain ⟨before, hbefore, rfl⟩ := hget
      rw [wake_stage] at hstage
      exact (h.waiters v before hbefore hstage).wake

section

variable (hget : notify.waiters[w]? = some waiter)
include hget

/-- A change to one wait that is neither about to claim nor about to complete after it. -/
theorem Armed.set_stage (halive : waiter.stage ≠ .dropped)
    (hobserved : waiter'.observed = waiter.observed) (hclaim : waiter'.stage ≠ .claim)
    (hrearm : ∀ loaded completion, waiter'.stage ≠ .rearm loaded completion) :
  (notify.set w waiter').Armed history
  := by
  apply h.set hget rfl (fun _ _ => ⟨rfl, rfl⟩)
  intro _
  exact (h.waiters w waiter hget halive).of_stage hobserved hclaim hrearm

/-- The load of the generation. -/
theorem Armed.load (hstage : waiter.stage = .load) :
  (notify.generation ≠ waiter.observed →
    (notify.set w { waiter with stage := .rearm notify.generation .broadcast }).Armed
      { history with loadedAt := update history.loadedAt w history.broadcasts }) ∧
  (notify.generation = waiter.observed →
    (notify.set w { waiter with stage := .claim }).Armed
      { history with loadedAt := update history.loadedAt w history.broadcasts })
  := by
  have hwaiter := h.waiters w waiter hget (by simp [hstage])
  have hothers : ∀ v, v ≠ w → history.armedAt v = history.armedAt v ∧
      update history.loadedAt w history.broadcasts v = history.loadedAt v := by
    intro v hv
    exact ⟨rfl, update_of_ne hv ..⟩
  constructor
  · intro hnew
    apply h.set hget
    · rfl
    · exact hothers
    intro _
    simp only [update_self]
    refine { hwaiter with claim := ?_, rearm := ?_ }
    · nofun
    · intro loaded completion hrearm
      cases hrearm
      refine ⟨Nat.le_refl _, h.generation, fun hlt => (Nat.lt_irrefl _ hlt).elim, ?_⟩
      -- A wait armed after all broadcasts has observed the current generation.
      intro _
      apply Nat.lt_of_le_of_ne hwaiter.armed_le
      intro heq
      apply hnew
      rw [h.generation, hwaiter.observed, heq]
  · intro hsame
    apply h.set hget
    · rfl
    · exact hothers
    intro _
    simp only [update_self]
    refine { hwaiter with claim := ?_, rearm := ?_ }
    · intro _
      apply Nat.le_antisymm _ hwaiter.armed_le
      by_contra hlt
      exact hwaiter.missed (Nat.not_le.mp hlt) hsame.symm
    · nofun

theorem Armed.claim (hstage : waiter.stage = .claim) :
  (notify.set w { waiter with stage := .rearm waiter.observed .permit }).Armed history
  := by
  have hwaiter := h.waiters w waiter hget (by simp [hstage])
  have hloaded := hwaiter.claim hstage
  apply h.set hget rfl (fun _ _ => ⟨rfl, rfl⟩)
  intro _
  refine { hwaiter with claim := ?_, rearm := ?_ }
  · nofun
  · intro loaded completion hrearm
    cases hrearm
    rw [hloaded]
    refine ⟨hwaiter.armed_le, hwaiter.observed, hwaiter.missed, ?_⟩
    nofun

/-- A completed wait is armed at the generation it had loaded. -/
theorem Armed.rearm {loaded byPermit : Nat} {completion : Completion}
    (hstage : waiter.stage = .rearm loaded completion) :
  (notify.set w ⟨loaded, none, .idle⟩).Armed
    { history with
      armedAt := update history.armedAt w (history.loadedAt w), byPermit }
  := by
  have hwaiter := h.waiters w waiter hget (by simp [hstage])
  obtain ⟨hle, hloaded, hmissed, _⟩ := hwaiter.rearm loaded completion hstage
  apply h.set hget
  · rfl
  · intro v hv
    exact ⟨update_of_ne hv .., rfl⟩
  · intro _
    simp only [update_self]
    constructor
    · exact hle
    · exact hloaded
    · exact hmissed
    · nofun
    · nofun

end

/-- A broadcast is missed by every wait, unless it brings back a generation a wait holds. -/
theorem Armed.notifyAll {unraised : List Nat} (hfresh : ∀ waiter ∈ notify.waiters, ∀ held ∈
      NotifyWaiter.generations waiter, held ≠ (notify.generation + 1) % 2 ^ 64) :
  Armed { notify with generation := (notify.generation + 1) % 2 ^ 64, unraised }
    { history with broadcasts := history.broadcasts + 1 }
  := by
  constructor
  · simp only
    rw [h.generation]
    omega
  · intro w waiter hget hstage
    have hwaiter := h.waiters w waiter hget hstage
    have hheld := hfresh waiter (mem_of_getElem? hget)
    constructor
    · exact Nat.le_succ_of_le hwaiter.armed_le
    · exact hwaiter.observed
    · intro _
      apply hheld
      rw [NotifyWaiter.generations]
      split <;> simp_all
    · exact hwaiter.claim
    · intro loaded completion hrearm
      obtain ⟨hle, hloaded, _, hbroadcast⟩ := hwaiter.rearm loaded completion hrearm
      refine ⟨Nat.le_succ_of_le hle, hloaded, ?_, hbroadcast⟩
      intro _
      apply hheld
      rw [NotifyWaiter.generations, hrearm]
      simp

/-! ### Runs -/

/-- Every allowed access keeps the waits armed. -/
theorem Armed.step (hallowed : notify.Allowed op) (hstep : Stepped notify op notify' out) :
  notify'.Armed (observe history notify op out)
  := by
  cases hstep with
  | waiter =>
    constructor
    · exact h.generation
    · intro v other hother hstage
      simp only [observe]
      rw [List.getElem?_append, List.getElem?_singleton] at hother
      split_ifs at hother with hlt hlast
      · rw [update_of_ne (Nat.ne_of_lt hlt)]
        exact h.waiters v other hother hstage
      · cases hother
        obtain rfl : v = notify.waiters.length := by omega
        rw [update_self]
        constructor
        · exact Nat.le_refl _
        · exact h.generation
        · intro hlt
          exact (Nat.lt_irrefl _ hlt).elim
        · nofun
        · nofun
  | poll hget hstage | claimNone hget hstage _ | listen hget hstage _ | consume hget hstage _
  | pend hget hstage _ => apply h.set_stage hget <;> simp [hstage]
  | loadNew hget hstage hnew => exact (h.load hget hstage).1 hnew
  | loadSame hget hstage hsame => exact (h.load hget hstage).2 hsame
  | claim hget hstage _ =>
    have hclaim := h.claim hget hstage
    exact ⟨hclaim.generation, hclaim.waiters⟩
  | rearm hget hstage =>
    rw [unlisten]
    split
    · apply Armed.wake
      exact h.rearm hget hstage
    · exact h.rearm hget hstage
  | drop hget hstage =>
    rename_i w waiter woken
    have hset : (notify.set w ⟨waiter.observed, none, .dropped⟩).Armed history := by
      apply h.set hget rfl (fun _ _ => ⟨rfl, rfl⟩)
      intro hdropped
      exact (hdropped rfl).elim
    rw [unlisten]
    split
    · exact hset.wake woken
    · exact hset
  | notifyNone | notifyCount _ | coalesced _ | coalescedNone _ => exact ⟨h.generation, h.waiters⟩
  | notifyAll => exact h.notifyAll hallowed.2
  | raise _ =>
    apply Armed.wake
    exact ⟨h.generation, h.waiters⟩

end

/-- Nothing has happened. -/
def Start (state : Notify × History) : Prop :=
  state = (new, History.start)

/-- What holds after every run of allowed accesses. -/
structure Wf (notify : Notify) (history : History) : Prop where
  accounts : notify.Accounts history.stored history.byPermit
  armed : notify.Armed history
  covered : notify.Covered
  positive : ∀ count ∈ notify.unraised, 0 < count
  dropped : ∀ waiter ∈ notify.waiters, waiter.stage = .dropped → waiter.listener = none

theorem unlisten_unraised (notify : Notify) (w : Nat) (listener : Option EventListener)
    (waiter : NotifyWaiter) (woken : List Nat) :
  (notify.unlisten w listener waiter woken).unraised = notify.unraised
  := by
  rw [unlisten]
  split <;> rfl

theorem positive_step (h : ∀ count ∈ notify.unraised, 0 < count)
    (hstep : Stepped notify op notify' out) :
  ∀ count ∈ notify'.unraised, 0 < count
  := by
  have hadd : ∀ new, 0 < new → ∀ count ∈ notify.unraised ++ [new], 0 < count := by
    intro new hnew
    rw [forall_mem_append, forall_mem_singleton]
    exact ⟨h, hnew⟩
  cases hstep with
  | notifyCount hcount => exact hadd _ (Nat.pos_of_ne_zero hcount)
  | coalesced _ => exact hadd 1 Nat.one_pos
  | notifyAll => exact hadd _ (Nat.lt_of_sub_eq_succ rfl)
  | raise _ =>
    intro count hmem
    exact h count (mem_of_mem_eraseIdx hmem)
  | rearm _ _ | drop _ _ =>
    rw [unlisten_unraised]
    exact h
  | _ => exact h

section

variable (h : ∀ waiter ∈ notify.waiters, waiter.stage = .dropped → waiter.listener = none)
include h

theorem dropped_set (hw : waiter'.stage = .dropped → waiter'.listener = none) :
  ∀ waiter ∈ (notify.set w waiter').waiters, waiter.stage = .dropped → waiter.listener = none
  := by
  intro waiter hmem
  rcases mem_or_eq_of_mem_set hmem with hmem | rfl
  · exact h waiter hmem
  · exact hw

theorem dropped_wake (woken : List Nat) :
  ∀ waiter ∈ (notify.wake woken).waiters, waiter.stage = .dropped → waiter.listener = none
  := by
  intro waiter hmem hstage
  obtain ⟨v, hlt, hget⟩ := getElem_of_mem hmem
  have hget := List.getElem?_eq_some_iff.mpr ⟨hlt, hget⟩
  rcases getElem?_wake notify woken v with heq | heq
  · rw [heq] at hget
    exact h waiter (mem_of_getElem? hget) hstage
  · rw [heq, Option.map_eq_some_iff] at hget
    obtain ⟨before, hbefore, rfl⟩ := hget
    rw [wake_stage] at hstage
    rw [wake_listener, h before (mem_of_getElem? hbefore) hstage]
    rfl

theorem dropped_step (hstep : Stepped notify op notify' out) :
  ∀ waiter ∈ notify'.waiters, waiter.stage = .dropped → waiter.listener = none
  := by
  cases hstep with
  | waiter =>
    refine forall_mem_append.mpr ⟨h, ?_⟩
    simp
  | poll _ _ | loadNew _ _ _ | loadSame _ _ _ | claimNone _ _ _ | claim _ _ _ | listen _ _ _
  | consume _ _ _ | pend _ _ _ => exact dropped_set h (by simp)
  | rearm _ _ | drop _ _ =>
    rw [unlisten]
    split
    · exact dropped_wake (dropped_set h (by simp)) _
    · exact dropped_set h (by simp)
  | raise _ => exact dropped_wake h _
  | _ => exact h

end

theorem wf_of_reachable
    (h : Reachable (instrument step observe)
      Start (fun state op => state.1.Allowed op) (notify, history)) :
  notify.Wf history
  := by
  apply @Reachable.invariant _ _ _ _ _ _ _ (fun state => state.1.Wf state.2) _ _ _ h
  · rintro _ rfl
    constructor
    · exact ⟨Nat.zero_le _, rfl⟩
    · constructor
      · rfl
      · nofun
    · nofun
    · nofun
    · nofun
  · rintro ⟨notify, history⟩ op ⟨notify', history'⟩ out hwf hallowed hok
    obtain ⟨hstep, rfl⟩ := instrument_eq_ok hok
    have hstepped := stepped_of_step hstep
    constructor
    · exact hwf.accounts.step hstepped
    · exact hwf.armed.step hallowed hstepped
    · exact hwf.covered.step hwf.positive hallowed hstepped
    · exact positive_step hwf.positive hstepped
    · exact dropped_step hwf.dropped hstepped

/-- No poll and no notification is under way. -/
def Quiet (notify : Notify) : Prop :=
  notify.unraised = [] ∧
    ∀ waiter ∈ notify.waiters, waiter.stage = .idle ∨ waiter.stage = .dropped

/-- The wait returned pending from its last poll and has not been polled since. -/
def Parked (waiter : NotifyWaiter) : Prop :=
  waiter.stage = .idle ∧ waiter.listener ≠ none

/-- In every run of allowed accesses: a stored permit is still there or completes one wait; a
wait armed before a broadcast completes at the first access of its next poll, and only such a
wait completes by a broadcast; and when nothing is under way, an unclaimed permit and a
parked wait leave some parked wait notified. -/
theorem wakes_what_it_owes
    (h : Reachable (instrument step observe)
      Start (fun state op => state.1.Allowed op) (notify, history)) :
  (history.stored = notify.permits + history.byPermit +
    notify.waiters.countP (CompletesBy .permit)) ∧
  (∀ w waiter, notify.waiters[w]? = some waiter → waiter.stage = .load →
    history.armedAt w < history.broadcasts →
    notify.step (.load w) = .ok (notify.set w
      { waiter with stage := .rearm notify.generation .broadcast }, none)) ∧
  (∀ w waiter, notify.waiters[w]? = some waiter → CompletesBy .broadcast waiter →
    history.armedAt w < history.broadcasts) ∧
  (notify.Quiet → 0 < notify.permits → (∃ waiter ∈ notify.waiters, Parked waiter) →
    ∃ waiter ∈ notify.waiters, Parked waiter ∧ waiter.listener = some .notified)
  := by
  have hwf := wf_of_reachable h
  refine ⟨hwf.accounts.balance, ?_, ?_, ?_⟩
  · intro w waiter hget hstage hmissed
    have harmed := hwf.armed.waiters w waiter hget (by simp [hstage])
    have hnew : notify.generation ≠ waiter.observed := (harmed.missed hmissed).symm
    simp [step, Op.waiter?, hget, stepWaiter, hstage, hnew]
  · intro w waiter hget hcompletes
    rw [CompletesBy] at hcompletes
    split at hcompletes
    · rename_i loaded completion hstage
      have harmed := hwf.armed.waiters w waiter hget (by simp [hstage])
      obtain ⟨hle, _, _, hbroadcast⟩ := harmed.rearm loaded completion hstage
      exact Nat.lt_of_lt_of_le (hbroadcast (of_decide_eq_true hcompletes)) hle
    · cases hcompletes
  · rintro ⟨hraised, hidle⟩ hpermits ⟨waiter, hmem, hstage, hlistener⟩
    cases hcase : waiter.listener with
    | none => exact (hlistener hcase).elim
    | some listener =>
      cases listener with
      | notified => exact ⟨waiter, hmem, ⟨hstage, hlistener⟩, hcase⟩
      | waiting =>
        have hsleeps : notify.waiters.any Sleeps := by
          apply any_eq_true.mpr
          exact ⟨waiter, hmem, by simp [Sleeps, hcase, hstage]⟩
        rcases hwf.covered hpermits hsleeps with hfound | hfound | hfound
        · obtain ⟨found, hfound, hnotified⟩ := any_eq_true.mp hfound
          have hlistening : found.listener = some .notified := of_decide_eq_true hnotified
          rcases hidle found hfound with hfoundIdle | hdropped
          · exact ⟨found, hfound, ⟨hfoundIdle, by simp [hlistening]⟩, hlistening⟩
          · rw [hwf.dropped found hfound hdropped] at hlistening
            cases hlistening
        · exact (hfound hraised).elim
        · -- No poll is under way, so none tests the permits.
          have hnone : notify.waiters.countP (Tests notify.generation) = 0 := by
            apply countP_eq_zero.mpr
            intro other hother
            rcases hidle other hother with hother | hother <;> simp [Tests, hother]
          omega

/-- A poll of a wait that finds nothing and parks. -/
def parks (w : Nat) : List Op :=
  [.poll w, .load w, .claim w, .park w, .load w, .claim w, .park w]

/-- Two waits park, and a permit wakes the first. -/
theorem wakes_what_it_owes_sample :
  ∃ notify : Notify, notify.permits = 1 ∧ (∃ waiter ∈ notify.waiters, Parked waiter) ∧
    ∃ waiter ∈ notify.waiters, Parked waiter ∧ waiter.listener = some .notified
  := by
  have hrun : (runAllowed (instrument step observe)
      (fun state op => state.1.Allowed op) (new, History.start)
      ([.waiter, .waiter] ++ parks 0 ++ parks 1 ++ [.notifyCount 1, .raise 0 [0]])).map Prod.fst =
        some ⟨1, 0, [⟨0, some .notified, .idle⟩, ⟨0, some .waiting, .idle⟩], []⟩ := by
    decide +kernel
  obtain ⟨⟨notify, history⟩, hallowed, rfl⟩ := Option.map_eq_some_iff.mp hrun
  have hstart : Reachable (instrument step observe) Start
      (fun state op => state.1.Allowed op) (new, History.start) := .start rfl
  have hreach := Reachable.of_runAllowed hstart hallowed
  have hparked : ∃ waiter ∈ [(⟨0, some .notified, .idle⟩ : NotifyWaiter),
      ⟨0, some .waiting, .idle⟩], Parked waiter := by
    exact ⟨_, mem_cons_self, rfl, by simp⟩
  refine ⟨⟨1, 0, [⟨0, some .notified, .idle⟩, ⟨0, some .waiting, .idle⟩], []⟩, rfl, hparked, ?_⟩
  apply (wakes_what_it_owes hreach).2.2.2 _ Nat.one_pos hparked
  constructor
  · rfl
  · simp

/-- A notified wait finds its permit taken by another.  Before it polls its listener, two
more permits come, whose notifications find it notified already.  It uses its notification up
and takes one of the permits; the other wait stays parked beside the last. -/
theorem notification_used_up :
  ∃ notify : Notify, (∃ ops, runAllowed step Behaves new ops = some notify) ∧
    notify.Quiet ∧ 0 < notify.permits ∧ (∃ waiter ∈ notify.waiters, Parked waiter) ∧
    ∀ waiter ∈ notify.waiters, waiter.listener ≠ some .notified
  := by
  refine ⟨⟨1, 0, [⟨0, none, .idle⟩, ⟨0, some .waiting, .idle⟩, ⟨0, none, .idle⟩], []⟩,
    ⟨[.waiter, .waiter, .waiter] ++ parks 0 ++ parks 1 ++
      [.notifyCount 1, .raise 0 [0], .poll 2, .load 2, .claim 2, .rearm 2 [],
        .poll 0, .load 0, .claim 0, .notifyCount 1, .raise 0 [], .notifyCount 1, .raise 0 [],
        .park 0, .load 0, .claim 0, .rearm 0 []], ?_⟩, ?_, Nat.one_pos, ?_, ?_⟩
  · decide +kernel
  · constructor
    · rfl
    · simp
  · exact ⟨⟨0, some .waiting, .idle⟩, by simp, rfl, by simp⟩
  · simp

end Notify

end Helios
