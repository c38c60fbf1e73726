import Helios.Kernel.WheelDrain
import Helios.Library.Transition

/-!
# Runs of the timing wheel

The wheel and the pool of its sleep states, under insertions, drains and the operations of
the pool.  The sleeps that are owed a wake form a list that knows nothing of the wheel:
an insertion adds a live sleep, the last release of a sleep state removes the sleeps that
hold it, and a drain removes those due.  Every drain hands out exactly the sleeps owed and
due, as long as it meets neither of the two obstacles.
-/

namespace Helios

open Function Transition List TimingWheel Nat

structure WheelTimer where
  wheel : TimingWheel
  pool : SleepStatePool

namespace WheelTimer

variable {entry : TimerEntry}

variable {idx : Nat}

inductive Op where
  | insert (entry : TimerEntry)
  | drainExpired (nowTick fuel : Nat)
  | acquire
  | retain (idx : Nat)
  | release (idx : Nat)

def new (currentTick capacity : Nat) : WheelTimer :=
  ⟨TimingWheel.new currentTick, SleepStatePool.new capacity⟩

/-- A step outputs the entries it hands out. -/
def step (timer : WheelTimer) : Op → Except TimerStop (WheelTimer × List TimerEntry)
  | .insert entry => .ok ({ timer with wheel := timer.wheel.insert timer.pool entry }, [])
  | .drainExpired nowTick fuel =>
    match timer.wheel.drainExpired timer.pool nowTick fuel [] with
    | none => .error .outOfFuel
    | some (wheel, ready) => .ok ({ timer with wheel }, ready)
  | .acquire => timer.pool.acquire.map fun (pool, _) => ({ timer with pool }, [])
  | .retain idx => .ok ({ timer with pool := timer.pool.retain idx }, [])
  | .release idx => (timer.pool.release idx).map fun pool => ({ timer with pool }, [])

/-- The sleeps owed a wake, over a run. -/
def owed (pending : List TimerEntry) (timer : WheelTimer) (op : Op) (_ : List TimerEntry) :
    List TimerEntry :=
  match op with
  | .insert entry => if entry.isDead timer.pool then pending else entry :: pending
  | .drainExpired nowTick _ => pending.filter fun entry => nowTick < entry.deadlineTick
  | .acquire => pending
  | .retain _ => pending
  | .release idx =>
    if (timer.pool.slots idx).refcount = 1 then
      pending.filter fun entry => entry.state.idx ≠ idx
    else
      pending

/-- A drain to a tick meets neither obstacle. -/
def Drainable (timer : WheelTimer) (now : Nat) : Prop :=
  timer.wheel.Near timer.pool now ∧ timer.wheel.Prompt timer.pool now

/-- Drains follow a clock that does not go back and meet no obstacle.  The generation of a
slot does not come round to that of an entry still in the wheel. -/
def Allowed (timer : WheelTimer) : Op → Prop
  | .drainExpired now _ => timer.wheel.currentTick ≤ now ∧ now < 2 ^ 64 ∧ timer.Drainable now
  | .release idx => (timer.pool.slots idx).refcount = 1 → ∀ entry ∈ timer.wheel.entries,
      entry.state ≠ ⟨idx, ((timer.pool.slots idx).generation + 1) % 2 ^ 64⟩
  | _ => True

/-! ### Live sleeps -/

theorem isDead_eq_false {pool : SleepStatePool} :
  entry.isDead pool = false ↔ (pool.slots entry.state.idx).refcount ≠ 0 ∧
    (pool.slots entry.state.idx).generation = entry.state.generation
  := by
  simp [TimerEntry.isDead, SleepHandle.isDead]

/-- What holds between the operations: the wheel is at rest, a slot with the generation of an
entry is in use, and the live entries are the sleeps owed. -/
structure Wf (timer : WheelTimer) (pending : List TimerEntry) : Prop where
  rest : timer.wheel.AtRest timer.pool
  minted : ∀ entry ∈ timer.wheel.entries,
    (timer.pool.slots entry.state.idx).generation = entry.state.generation →
    (timer.pool.slots entry.state.idx).refcount ≠ 0
  owed : pending.Perm (timer.wheel.entries.filter fun entry => !entry.isDead timer.pool)

variable {timer timer' : WheelTimer} {pending : List TimerEntry}

theorem entries_new (currentTick : Nat) :
  (TimingWheel.new currentTick).entries = []
  := by
  simp [TimingWheel.entries, Buckets.held, TimingWheel.new]

theorem wf_new (currentTick capacity : Nat) :
  (new currentTick capacity).Wf []
  := by
  constructor
  · exact atRest_new _ _
  · intro entry hmem
    rw [new, entries_new] at hmem
    cases hmem
  · rw [new, entries_new]
    exact Perm.refl _

section

variable {pool' : SleepStatePool} {now fuel : Nat} {ready : List TimerEntry}

variable (h : timer.Wf pending)
include h

theorem Wf.insert (entry : TimerEntry) :
  Wf { timer with wheel := timer.wheel.insert timer.pool entry }
    (if entry.isDead timer.pool then pending else entry :: pending)
  := by
  cases hdead : entry.isDead timer.pool with
  | true =>
    rw [insert_dead hdead]
    exact h
  | false =>
    have hperm := @TimingWheel.entries_insert timer.wheel timer.pool entry hdead
    constructor
    · exact h.rest.insert entry
    · intro e hmem hgeneration
      rcases mem_cons.mp (hperm.mem_iff.mp hmem) with rfl | hmem
      · exact (isDead_eq_false.mp hdead).1
      · exact h.minted e hmem hgeneration
    · apply Perm.trans _ (hperm.filter _).symm
      rw [filter_cons_of_pos (by simp [hdead])]
      exact h.owed.cons entry

/-! ### The pool -/

/-- The invariant does not notice a reference count change that does not take a slot out of
use. -/
theorem Wf.setRefcount {refcount : Nat}
    (hslots : pool'.slots = update timer.pool.slots idx { timer.pool.slots idx with refcount })
    (hused : (timer.pool.slots idx).refcount ≠ 0 → refcount ≠ 0) :
  Wf { timer with pool := pool' } pending
  := by
  have hslot : ∀ j, (pool'.slots j).generation = (timer.pool.slots j).generation ∧
      ((timer.pool.slots j).refcount ≠ 0 → (pool'.slots j).refcount ≠ 0) := by
    intro j
    rw [hslots]
    by_cases hj : j = idx
    · subst hj
      simpa using hused
    · simp [update_of_ne hj]
  have hsame : ∀ entry ∈ timer.wheel.entries, entry.isDead pool' = entry.isDead timer.pool := by
    intro entry hmem
    rw [Bool.eq_iff_iff, ← not_iff_not, Bool.not_eq_true, Bool.not_eq_true, isDead_eq_false,
      isDead_eq_false, (hslot _).1]
    constructor
    · rintro ⟨_, hcurrent⟩
      exact ⟨h.minted entry hmem hcurrent, hcurrent⟩
    · rintro ⟨hinuse, hcurrent⟩
      exact ⟨(hslot _).2 hinuse, hcurrent⟩
  constructor
  · apply h.rest.of_live
    intro entry hmem hlive
    rw [← hsame entry hmem]
    exact hlive
  · intro entry hmem hcurrent
    apply (hslot _).2
    apply h.minted entry hmem
    rw [← (hslot _).1]
    exact hcurrent
  · have hfilter : (timer.wheel.entries.filter fun entry => !entry.isDead pool') =
        timer.wheel.entries.filter fun entry => !entry.isDead timer.pool := by
      apply filter_congr
      intro entry hmem
      rw [hsame entry hmem]
    rw [hfilter]
    exact h.owed

theorem Wf.acquire (hok : timer.pool.acquire = .ok (pool', idx)) :
  Wf { timer with pool := pool' } pending
  := by
  rw [SleepStatePool.acquire] at hok
  split at hok <;> cases hok
  exact h.setRefcount rfl (by simp)

theorem Wf.retain (idx : Nat) :
  Wf { timer with pool := timer.pool.retain idx } pending
  := by
  rw [SleepStatePool.retain]
  split
  · exact h
  · exact h.setRefcount rfl (by simp)

/-- The last release of a slot cancels the sleeps that hold it. -/
theorem Wf.lastRelease {generation : Nat}
    (hfresh : ∀ entry ∈ timer.wheel.entries, entry.state ≠ ⟨idx, generation⟩)
    (hslots : pool'.slots = update timer.pool.slots idx ⟨0, generation⟩) :
  Wf { timer with pool := pool' } (pending.filter fun entry => entry.state.idx ≠ idx)
  := by
  have hother : ∀ j, j ≠ idx → pool'.slots j = timer.pool.slots j := by
    intro j hj
    rw [hslots, update_of_ne hj]
  have hself : pool'.slots idx = ⟨0, generation⟩ := by
    rw [hslots, update_self]
  have hdead : ∀ entry : TimerEntry, (!entry.isDead pool') =
      (!entry.isDead timer.pool && decide (entry.state.idx ≠ idx)) := by
    intro entry
    by_cases hidx : entry.state.idx = idx
    · simp [TimerEntry.isDead, SleepHandle.isDead, hidx, hself]
    · simp [TimerEntry.isDead, SleepHandle.isDead, hidx, hother _ hidx]
  constructor
  · apply h.rest.of_live
    intro entry _ hlive
    have := hdead entry
    rw [hlive, Bool.not_false, eq_comm, Bool.and_eq_true, Bool.not_eq_true'] at this
    exact this.1
  · intro entry hmem hcurrent
    by_cases hidx : entry.state.idx = idx
    · -- The new generation is no entry's.
      exfalso
      apply hfresh entry hmem
      rw [hidx, hself] at hcurrent
      have hstate : entry.state = ⟨entry.state.idx, entry.state.generation⟩ := rfl
      rw [hstate, hidx, ← hcurrent]
    · rw [hother _ hidx] at hcurrent ⊢
      exact h.minted entry hmem hcurrent
  · simp only [hdead]
    have hperm := h.owed.filter fun entry => decide (entry.state.idx ≠ idx)
    rw [filter_filter] at hperm
    apply hperm.trans
    apply Perm.of_eq
    apply filter_congr
    intro entry _
    rw [Bool.and_comm]

theorem Wf.release (hfresh : (timer.pool.slots idx).refcount = 1 → ∀ entry ∈ timer.wheel.entries,
      entry.state ≠ ⟨idx, ((timer.pool.slots idx).generation + 1) % 2 ^ 64⟩)
    (hok : timer.pool.release idx = .ok pool') :
  Wf { timer with pool := pool' }
    (if (timer.pool.slots idx).refcount = 1 then
      pending.filter fun entry => entry.state.idx ≠ idx else pending)
  := by
  rw [SleepStatePool.release] at hok
  split at hok
  · rename_i hmore
    rw [if_neg hmore]
    cases hok
    apply h.setRefcount rfl
    omega
  · rename_i hlast
    rw [not_not] at hlast
    rw [if_pos hlast]
    split at hok <;> cases hok
    exact h.lastRelease (hfresh hlast) rfl

/-! ### Drains -/

/-- A drain without obstacles returns and hands out the sleeps owed that are due. -/
theorem Wf.drainExpired {now : Nat} (hnow : timer.wheel.currentTick ≤ now) (hword : now < 2 ^ 64)
    (hdrain : timer.Drainable now) (ready : List TimerEntry) :
  ∃ wheel' moved, (∃ enough, ∀ fuel, enough ≤ fuel →
      timer.wheel.drainExpired timer.pool now fuel ready = some (wheel', ready ++ moved)) ∧
    moved.Perm (pending.filter fun entry => entry.deadlineTick ≤ now) ∧
    Wf { timer with wheel := wheel' } (pending.filter fun entry => now < entry.deadlineTick)
  := by
  obtain ⟨wheel', moved, hok, hrest, _, hsheds, hdue, hlater⟩ :=
    @TimingWheel.AtRest.drainExpired timer.pool timer.wheel now
      (timer.wheel.entries.length + (now - timer.wheel.currentTick) + 1) ready h.rest hnow hword
      hdrain.1 hdrain.2 (by omega) (by omega)
  have hsplit : pending.Perm
      ((wheel'.entries.filter fun entry => !entry.isDead timer.pool) ++ moved) := by
    apply h.owed.trans
    apply hsheds.filter.trans
    rw [filter_append]
    apply Perm.of_eq
    congr 1
    apply filter_eq_self.mpr
    intro entry hmem
    simp [(hdue entry hmem).1]
  have hleft : ∀ entry ∈ wheel'.entries.filter fun entry => !entry.isDead timer.pool,
      now < entry.deadlineTick := by
    intro entry hmem
    rw [mem_filter, Bool.not_eq_true'] at hmem
    exact hlater entry hmem.1 hmem.2
  use wheel', moved
  constructor
  · use timer.wheel.entries.length + (now - timer.wheel.currentTick) + 1
    intro fuel hfuel
    exact turn_mono hfuel hok hfuel
  constructor
  · apply Perm.symm
    apply (hsplit.filter _).trans
    rw [filter_append, filter_eq_nil_iff.mpr, filter_eq_self.mpr, nil_append]
    · intro entry hmem
      simpa using (hdue entry hmem).2
    · intro entry hmem
      simpa using hleft entry hmem
  · constructor
    · exact hrest
    · intro entry hmem
      exact h.minted entry (hsheds.subset (mem_append_left moved hmem))
    · apply (hsplit.filter _).trans
      rw [filter_append, (filter_eq_nil_iff (l := moved)).mpr, append_nil, filter_eq_self.mpr]
      · intro entry hmem
        simpa using hleft entry hmem
      · intro entry hmem
        simpa using (hdue entry hmem).2

theorem Wf.near_of_returns {result : TimingWheel × List TimerEntry} (hword : now < 2 ^ 64)
    (hok : timer.wheel.drainExpired timer.pool now fuel ready = some result) :
  timer.wheel.Near timer.pool now
  := by
  intro entry hmem hlive tick hafter hle halign hslot
  by_contra hfar
  rw [not_lt] at hfar
  have hlevel := h.rest.far_level hlive hmem (by omega)
  have hnone : TimingWheel.drainExpired.turn timer.pool now fuel fuel timer.wheel ready = none :=
    turn_diverges hword hlive hlevel hafter hle halign hslot hfar
  rw [TimingWheel.drainExpired, hnone] at hok
  cases hok

/-- A drain that hands out all sleeps owed and due reaches the slot of every one. -/
theorem Wf.prompt_of_exact {moved : List TimerEntry} {wheel' : TimingWheel} (hword : now < 2 ^ 64)
    (hok : timer.wheel.drainExpired timer.pool now fuel ready = some (wheel', ready ++ moved))
    (hmoved : moved.Perm (pending.filter fun entry => entry.deadlineTick ≤ now)) :
  timer.wheel.Prompt timer.pool now
  := by
  intro hlt hnear entry hmem hlive
  by_contra hlate
  rw [not_lt] at hlate
  obtain ⟨⟨moved', hready, hsheds⟩, hkept⟩ := turn_kept hword (by omega) hok
  cases append_cancel_left hready
  -- The entry stays in the slot of the tick the drain started from.
  have hslot : ∀ tick, timer.wheel.currentTick < tick → tick ≤ now →
      wheelSlot tick 0 ≠ wheelSlot timer.wheel.currentTick 0 := by
    intro tick hafter hle
    rw [wheelSlot_eq, wheelSlot_eq]
    omega
  have hleft := hkept _ hslot (fun heq => by omega) entry (h.rest.late_slot hlive hmem hlate)
  have hentries : entry ∈ wheel'.entries :=
    mem_flatMap.mpr ⟨_, slot_mem_positions (by decide) _, hleft⟩
  -- So it is both in the wheel and handed out, though it was there once.
  have hcount := (h.owed.trans hsheds.filter).count_eq entry
  have hout := hmoved.count_eq entry
  rw [count_filter (by simp; omega)] at hout
  rw [filter_append, count_append, count_filter (by simp [hlive]),
    count_filter (by simp [hlive])] at hcount
  have hpositive := count_pos_iff.mpr hentries
  omega

/-! ### Runs -/

/-- The wheel and the pool as a timer creates them. -/
def Start (state : WheelTimer × List TimerEntry) : Prop :=
  ∃ currentTick capacity, state = (new currentTick capacity, [])

theorem Wf.step {op : Op} {out : List TimerEntry} (hallowed : timer.Allowed op)
    (hok : timer.step op = .ok (timer', out)) :
  timer'.Wf (WheelTimer.owed pending timer op out)
  := by
  cases op with
  | insert entry =>
    cases hok
    exact h.insert entry
  | drainExpired now fuel =>
    obtain ⟨hnow, hword, hdrain⟩ := hallowed
    obtain ⟨wheel', moved, ⟨enough, hreturns⟩, _, hwf⟩ := h.drainExpired hnow hword hdrain []
    rw [WheelTimer.step] at hok
    split at hok <;> cases hok
    rename_i hdrained
    have hmore := turn_mono (le_max_left fuel enough) hdrained
      (le_max_left fuel enough)
    rw [← TimingWheel.drainExpired, hreturns _ (le_max_right fuel enough)] at hmore
    cases hmore
    exact hwf
  | acquire =>
    obtain ⟨⟨pool, idx⟩, hacquire, heq⟩ := map_eq_ok hok
    cases heq
    exact h.acquire hacquire
  | retain idx =>
    cases hok
    exact h.retain idx
  | release idx =>
    obtain ⟨pool, hrelease, heq⟩ := map_eq_ok hok
    cases heq
    exact h.release hallowed hrelease

end

theorem wf_of_reachable
    (h : Reachable (instrument step owed) Start
      (fun state op => state.1.Allowed op) (timer, pending)) :
  timer.Wf pending
  := by
  apply @Reachable.invariant _ _ _ _ _ _ _ (fun state => state.1.Wf state.2) _ _ _ h
  · rintro _ ⟨currentTick, capacity, rfl⟩
    exact wf_new currentTick capacity
  · rintro ⟨timer, pending⟩ op ⟨timer', pending'⟩ out hwf hallowed hok
    obtain ⟨hstep, rfl⟩ := instrument_eq_ok hok
    exact hwf.step hallowed hstep

/-- In every run of drains without obstacles, the next drain returns and hands out exactly
the sleeps owed and due, each once, if and only if it meets no obstacle either. -/
theorem drainExpired_exact_iff
    (h : Reachable (instrument step owed) Start
      (fun state op => state.1.Allowed op) (timer, pending))
    {now : Nat} (hnow : timer.wheel.currentTick ≤ now) (hword : now < 2 ^ 64)
    (ready : List TimerEntry) :
  (∃ wheel' moved, (∃ enough, ∀ fuel, enough ≤ fuel →
      timer.wheel.drainExpired timer.pool now fuel ready = some (wheel', ready ++ moved)) ∧
    moved.Perm (pending.filter fun entry => entry.deadlineTick ≤ now)) ↔
  timer.Drainable now
  := by
  have hwf := wf_of_reachable h
  constructor
  · rintro ⟨wheel', moved, ⟨enough, hreturns⟩, hmoved⟩
    have hok := hreturns enough (le_refl _)
    exact ⟨hwf.near_of_returns hword hok, hwf.prompt_of_exact hword hok hmoved⟩
  · intro hdrain
    obtain ⟨wheel', moved, hreturns, hmoved, _⟩ := hwf.drainExpired hnow hword hdrain ready
    exact ⟨wheel', moved, hreturns, hmoved⟩

def samplePool : SleepStatePool where
  capacity := 1
  slots := update (fun _ => ⟨0, 0⟩) 0 ⟨1, 0⟩
  freeIndices := []

def sampleTimer (currentTick : Nat) (entry : TimerEntry) : WheelTimer where
  wheel := (TimingWheel.new currentTick).insert samplePool entry
  pool := samplePool

theorem run_sample (currentTick : Nat) (entry : TimerEntry) :
  run step (new currentTick 1) [.acquire, .insert entry] =
    .ok (sampleTimer currentTick entry, [[], []])
  := rfl

theorem reachable_sample (currentTick : Nat) (hlive : entry.isDead samplePool = false) :
  Reachable (instrument step owed) Start
    (fun state op => state.1.Allowed op) (sampleTimer currentTick entry, [entry])
  := by
  have hacquire : instrument step owed (new currentTick 1, []) .acquire =
      .ok ((⟨TimingWheel.new currentTick, samplePool⟩, []), []) := rfl
  have hinsert : instrument step owed
      (⟨TimingWheel.new currentTick, samplePool⟩, []) (.insert entry) =
        .ok ((sampleTimer currentTick entry, [entry]), []) := by
    simp [instrument, step, owed, hlive, sampleTimer]
  apply Reachable.next _ _ hinsert
  · apply Reachable.next _ _ hacquire
    · exact .start ⟨currentTick, 1, rfl⟩
    · trivial
  · trivial

theorem drainExpired_exact_sample :
  ∃ wheel', (∃ enough, ∀ fuel, enough ≤ fuel →
    (sampleTimer 0 ⟨150000, 3, ⟨0, 0⟩⟩).wheel.drainExpired samplePool 3 fuel [] =
      some (wheel', [⟨150000, 3, ⟨0, 0⟩⟩]))
  := by
  have hentry : ∀ entry ∈ (sampleTimer 0 ⟨150000, 3, ⟨0, 0⟩⟩).wheel.entries,
      entry = ⟨150000, 3, ⟨0, 0⟩⟩ := by
    intro entry hmem
    have hperm := @TimingWheel.entries_insert (TimingWheel.new 0) samplePool
      ⟨150000, 3, ⟨0, 0⟩⟩ (by decide)
    rw [entries_new] at hperm
    exact mem_singleton.mp (hperm.mem_iff.mp hmem)
  have hdrain : (sampleTimer 0 ⟨150000, 3, ⟨0, 0⟩⟩).Drainable 3 := by
    constructor
    · intro entry hmem _ tick hafter hle halign
      omega
    · intro _ _ entry hmem _
      rw [hentry entry hmem]
      decide
  obtain ⟨wheel', moved, hreturns, hmoved⟩ :=
    (drainExpired_exact_iff (reachable_sample 0 (by decide)) (by decide) (by decide) []).mpr hdrain
  have hmoved : moved = [⟨150000, 3, ⟨0, 0⟩⟩] := perm_singleton.mp hmoved
  rw [hmoved] at hreturns
  exact ⟨wheel', hreturns⟩

/-- The entry of an infinite guest timeout, `u64::MAX` nanoseconds, on a timebase of 1 GHz
with a quantum of 50 microseconds. -/
def infiniteTimeout : TimerEntry :=
  TimerEntry.enqueued (Machine.satAdd 64 1000000 (durationToTicks 1000000000 18446744073 709551615))
    50000 ⟨0, 0⟩

/-- The turn to the first tick that visits the coarsest slot of an infinite timeout never
returns, and an entry that was due when it was inserted is not handed out by the next
drain. -/
theorem drainExpired_diverges_and_misses :
  (∃ timer outs, run step (new (88 * 2 ^ 24 - 1) 1)
      [.acquire, .insert infiniteTimeout] = .ok (timer, outs) ∧
      ∀ fuel, timer.step (.drainExpired (88 * 2 ^ 24) fuel) = .error .outOfFuel) ∧
    (run step (new 7 1)
      [.acquire, .insert ⟨350000, 7, ⟨0, 0⟩⟩, .drainExpired 8 9]).map Prod.snd =
        .ok [[], [], []]
  := by
  constructor
  · refine ⟨_, _, run_sample _ _, ?_⟩
    intro fuel
    have hnone : (sampleTimer (88 * 2 ^ 24 - 1) infiniteTimeout).wheel.drainExpired
        samplePool (88 * 2 ^ 24) fuel [] = none := by
      apply @TimingWheel.turn_diverges _ _ _ _ _ infiniteTimeout _ _ (88 * 2 ^ 24)
        <;> decide +kernel
    have hpool : (sampleTimer (88 * 2 ^ 24 - 1) infiniteTimeout).pool = samplePool := rfl
    rw [step, hpool, hnone]
  · rfl

end WheelTimer

end Helios
