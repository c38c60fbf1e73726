import Helios.Kernel.WheelLoops

/-!
# Turning the wheel

An entry waits for one visit of its slot.  At the finest level the visit is at its
deadline; at a coarser level it is at the deadline rounded down to the level's span, early
enough to move the entry to a finer level.  One turn of the wheel visits one slot of each
level whose span divides the tick, and keeps every entry waiting for a visit to come.
-/

namespace Helios

open Nat List

namespace TimingWheel

/-! ### Visits -/

/-- An entry at a position is visited at a tick from `lo` on, within one revolution of its
level after `top`.  The visit is its deadline rounded down to the span of its level.  At the
finest level an entry may also be late, with a visit by `now`. -/
def Waits (now lo top : Nat) (p : Nat × Nat) (entry : TimerEntry) : Prop :=
  ∃ visit, p.2 = visit / 256 ^ p.1 % 256 ∧ visit % 256 ^ p.1 = 0 ∧ lo ≤ visit ∧
    (p.1 < 3 → visit < top + 256 ^ p.1 * 256) ∧
    (visit = entry.deadlineTick / 256 ^ p.1 * 256 ^ p.1 ∨
      p.1 = 0 ∧ entry.deadlineTick < visit ∧ visit ≤ now)

variable {now lo top : Nat} {p : Nat × Nat} {entry : TimerEntry}

theorem Waits.weaken {lo' top' : Nat} (h : Waits now lo top p entry) (hlo : lo' ≤ lo)
    (htop : top ≤ top') :
  Waits now lo' top' p entry
  := by
  obtain ⟨visit, hslot, halign, hfrom, hto, hvisit⟩ := h
  refine ⟨visit, hslot, halign, by omega, ?_, hvisit⟩
  intro hlevel
  omega

/-- Two multiples of a span less than a revolution apart have different slots. -/
theorem eq_of_same_slot {span tick visit : Nat} (htick : tick % span = 0)
    (hvisit : visit % span = 0) (hle : tick ≤ visit) (hlt : visit < tick + span * 256)
    (hslot : tick / span % 256 = visit / span % 256) :
  visit = tick
  := by
  obtain ⟨u, rfl⟩ := Nat.dvd_of_mod_eq_zero htick
  obtain ⟨v, rfl⟩ := Nat.dvd_of_mod_eq_zero hvisit
  rcases Nat.eq_zero_or_pos span with rfl | hspan
  · simp
  rw [Nat.mul_div_cancel_left _ hspan, Nat.mul_div_cancel_left _ hspan] at hslot
  have huv : u ≤ v := le_of_mul_le_mul_left hle hspan
  rw [← Nat.mul_add] at hlt
  have hvu : v < u + 256 := Nat.lt_of_mul_lt_mul_left hlt
  have heq : v = u := by omega
  rw [heq]

/-- What waits in the slot visited now waits for this visit, unless its deadline lies a
revolution of the coarsest level ahead. -/
theorem Waits.visited {level tick : Nat}
    (h : Waits now tick tick (level, wheelSlot tick level) entry) (hlevel : level < 4)
    (halign : tick % 256 ^ level = 0)
    (hnear : level = 3 → entry.deadlineTick < tick + 2 ^ 32) :
  entry.deadlineTick < tick + 256 ^ level ∧ (0 < level → tick ≤ entry.deadlineTick)
  := by
  obtain ⟨visit, hslot, hvisit, hfrom, hto, hdeadline⟩ := h
  simp only at hslot hvisit hto hdeadline
  have hround := Nat.div_add_mod entry.deadlineTick (256 ^ level)
  rw [mul_comm] at hround
  have hlt : visit < tick + 256 ^ level * 256 := by
    by_cases hthree : level = 3
    · subst hthree
      rcases hdeadline with hdeadline | ⟨hzero, _⟩
      · omega
      · cases hzero
    · exact hto (by omega)
  rw [wheelSlot_eq] at hslot
  have heq := eq_of_same_slot halign hvisit hfrom hlt hslot
  rcases hdeadline with hdeadline | ⟨rfl, hlate, _⟩
  · constructor
    · omega
    · omega
  · constructor
    · omega
    · nofun

/-- What does not wait in the slot visited now waits for a later visit. -/
theorem Waits.next {tick : Nat} (h : Waits now tick top p entry)
    (hother : tick % 256 ^ p.1 = 0 → p.2 ≠ wheelSlot tick p.1) :
  Waits now (tick + 1) top p entry
  := by
  obtain ⟨visit, hslot, hvisit, hfrom, hrest⟩ := h
  refine ⟨visit, hslot, hvisit, ?_, hrest⟩
  have hne : visit ≠ tick := by
    rintro rfl
    apply hother hvisit
    rw [wheelSlot_eq]
    exact hslot
  omega

/-- One for the levels from `done` on, which a turn has already visited. -/
def visited (done level : Nat) : Nat :=
  if done ≤ level then 1 else 0

theorem visited_of_le {done level : Nat} (h : done ≤ level) :
  visited done level = 1
  := if_pos h

theorem visited_le {done done' level : Nat} (h : done' ≤ level → done ≤ level) :
  visited done' level ≤ visited done level
  := by
  rw [visited, visited]
  split_ifs <;> omega

theorem visited_of_lt {done level : Nat} (h : level < done) :
  visited done level = 0
  := if_neg (by omega)

/-- An entry is put where it waits for a visit: at the current tick, if it is put at the
finest level, and later otherwise. -/
theorem waits_position (tick : Nat) (entry : TimerEntry) (hnow : tick ≤ now) :
  Waits now (tick + visited 1 (position tick entry).1) tick (position tick entry) entry
  := by
  obtain ⟨_, hlow, hhigh⟩ := wheelLevel_spec (max entry.deadlineTick tick - tick)
  simp only [position]
  generalize hlevel : wheelLevel (max entry.deadlineTick tick - tick) = level at hlow hhigh
  rcases Nat.eq_zero_or_pos level with rfl | hpos
  · use max entry.deadlineTick tick
    refine ⟨wheelSlot_eq _ _, Nat.mod_one _, by simp [visited], ?_, ?_⟩
    · simp only [pow_zero]
      omega
    · simp only [true_and]
      omega
  · -- A coarser level is chosen for a deadline at least one span ahead.
    have hspan : 0 < 256 ^ level := Nat.pow_pos (by decide)
    have hahead := hlow hpos
    have hmax : max entry.deadlineTick tick = entry.deadlineTick := by omega
    rw [hmax] at hahead hhigh ⊢
    have hround := Nat.div_add_mod entry.deadlineTick (256 ^ level)
    rw [mul_comm] at hround
    use entry.deadlineTick / 256 ^ level * 256 ^ level
    refine ⟨?_, mul_mod_left _ _, ?_, ?_, .inl rfl⟩
    · rw [wheelSlot_eq, Nat.mul_div_cancel _ hspan]
    · rw [visited_of_le hpos]
      omega
    · simp only
      omega

/-! ### One turn -/

/-- Every live entry waits for a visit: after the current tick at the levels from `done` on,
from the current tick on at the others. -/
def Settled (pool : SleepStatePool) (now done : Nat) (wheel : TimingWheel) : Prop :=
  ∀ p, ∀ entry ∈ wheel.buckets p, entry.isDead pool = false →
    Waits now (wheel.currentTick + visited done p.1) wheel.currentTick p entry

variable {pool : SleepStatePool} {wheel wheel' : TimingWheel} {level done fuel : Nat}
  {moved ready : List TimerEntry}

theorem Settled.weaken {done' : Nat} (h : wheel.Settled pool now done) (hdone : done ≤ done') :
  wheel.Settled pool now done'
  := by
  intro p e hmem hlive
  exact (h p e hmem hlive).weaken (Nat.add_le_add_left (visited_le (by omega)) _) (le_refl _)

/-- The live entries of the slot visited now move to finer levels, or are due. -/
def Visitable (pool : SleepStatePool) (level : Nat) (wheel : TimingWheel) : Prop :=
  ∀ entry ∈ wheel.buckets (wheel.cursor level), entry.isDead pool = false →
    entry.deadlineTick < wheel.currentTick + 256 ^ level ∧
      (0 < level → wheel.currentTick ≤ entry.deadlineTick)

theorem Settled.visitable (h : wheel.Settled pool now (level + 1)) (hlevel : level < 4)
    (halign : wheel.currentTick % 256 ^ level = 0)
    (hnear : level = 3 → ∀ entry ∈ wheel.buckets (wheel.cursor level),
      entry.isDead pool = false → entry.deadlineTick < wheel.currentTick + 2 ^ 32) :
  wheel.Visitable pool level
  := by
  intro entry hmem hlive
  have hwaits := h _ entry hmem hlive
  rw [visited_of_lt (lt_succ_self level)] at hwaits
  apply hwaits.visited hlevel halign
  intro hthree
  exact hnear hthree entry hmem hlive

/-- Emptying the slot of a level visits the level. -/
theorem Moves.settled
    (hmoves : Moves pool (wheel.cursor level) wheel moved wheel')
    (hempty : wheel'.buckets (wheel.cursor level) = [])
    (h : wheel.Settled pool now (level + 1)) (hnow : wheel.currentTick ≤ now)
    (hdue : wheel.Visitable pool level) :
  wheel'.Settled pool now level
  := by
  intro p e hmem hlive
  rw [hmoves.tick]
  have hp : p ≠ wheel.cursor level := by
    rintro rfl
    rw [hempty] at hmem
    cases hmem
  rcases hmoves.origin p e hmem with hmem | ⟨hsource, _, hposition⟩
  · have hwaits := h p e hmem hlive
    by_cases hlevel : p.1 = level
    · rw [visited_of_lt (by omega), add_zero] at hwaits
      rw [visited_of_le (by omega)]
      apply hwaits.next
      intro _ hslot
      apply hp
      rw [← hlevel, cursor, ← hslot]
    · exact hwaits.weaken (Nat.add_le_add_left (visited_le (by omega)) _) (le_refl _)
  · -- A reinserted entry goes to a finer level; at the finest level there is none.
    obtain ⟨hnear, hahead⟩ := hdue e hsource hlive
    rcases Nat.eq_zero_or_pos level with rfl | hpos
    · exfalso
      apply hp
      have hmax : max e.deadlineTick wheel.currentTick = wheel.currentTick := by omega
      rw [hposition, position]
      simp [hmax, wheelLevel, timerWheelSlots]
    · have hfiner : (position wheel.currentTick e).1 < level := by
        apply wheelLevel_lt hpos
        omega
      rw [hposition]
      apply (waits_position wheel.currentTick e hnow).weaken _ (le_refl _)
      rw [visited_of_lt hfiner]
      omega

/-- A wheel between the visits of a turn to its current tick: entries are where they are
scanned and wait for their visits, and there is fuel for every slot. -/
structure Turning (pool : SleepStatePool) (now done fuel : Nat) (wheel : TimingWheel) : Prop where
  inRange : wheel.InRange
  settled : wheel.Settled pool now done
  tick_le : wheel.currentTick ≤ now
  fuel : wheel.entries.length < fuel

/-- Emptying the slot of a level keeps the wheel turning. -/
theorem Turning.moves (h : wheel.Turning pool now (level + 1) fuel)
    (hmoves : Moves pool (wheel.cursor level) wheel moved wheel')
    (hempty : wheel'.buckets (wheel.cursor level) = [])
    (hdue : wheel.Visitable pool level) :
  wheel'.Turning pool now level fuel
  := by
  constructor
  · exact hmoves.inRange h.inRange
  · exact hmoves.settled hempty h.settled h.tick_le hdue
  · rw [hmoves.tick]
    exact h.tick_le
  · have hlength := hmoves.sheds.length_le
    rw [length_append] at hlength
    have hfuel := h.fuel
    omega

/-- No live entry, found in the slot of the coarsest level visited now, has a deadline a
revolution of that level or more ahead. -/
def NearAt (pool : SleepStatePool) (wheel : TimingWheel) : Prop :=
  wheel.currentTick % 256 ^ 3 = 0 → ∀ entry ∈ wheel.entries, entry.isDead pool = false →
    wheelSlot entry.deadlineTick 3 = wheelSlot wheel.currentTick 3 →
    entry.deadlineTick < wheel.currentTick + 2 ^ 32

theorem Settled.slot_three (h : wheel.Settled pool now done) {slot : Nat}
    (hmem : entry ∈ wheel.buckets (3, slot)) (hlive : entry.isDead pool = false) :
  wheelSlot entry.deadlineTick 3 = slot
  := by
  obtain ⟨visit, hslot, _, _, _, hvisit | ⟨hzero, _⟩⟩ := h _ entry hmem hlive
  · simp only at hslot hvisit
    rw [wheelSlot_eq, hslot, hvisit, Nat.mul_div_cancel _ (by decide)]
  · cases hzero

theorem cascadeAt_turning (h : wheel.Turning pool now (level + 1) fuel) (hpos : 0 < level)
    (hlevel : level < 4) (hnear : level = 3 → wheel.NearAt pool) :
  ∃ wheel', cascadeAt pool fuel wheel level = some wheel' ∧ wheel'.Turning pool now level fuel ∧
    wheel'.currentTick = wheel.currentTick ∧ Sheds pool wheel.entries wheel'.entries
  := by
  by_cases halign : wheel.currentTick % 256 ^ level = 0
  · have hdue : wheel.Visitable pool level := by
      apply h.settled.visitable hlevel halign
      rintro rfl e' hmem' hlive'
      apply hnear rfl halign e' _ hlive' (h.settled.slot_three hmem' hlive')
      exact (mem_entries h.inRange).mpr ⟨_, hmem'⟩
    have hleave : ∀ entry ∈ wheel.buckets (wheel.cursor level),
        entry.isDead pool = false →
        position wheel.currentTick entry ≠ wheel.cursor level := by
      intro e hmem hlive hposition
      obtain ⟨hbelow, hahead⟩ := hdue e hmem hlive
      have hfiner : (position wheel.currentTick e).1 < level := by
        apply wheelLevel_lt hpos
        omega
      rw [hposition] at hfiner
      exact lt_irrefl _ hfiner
    have hfuel : (wheel.buckets (wheel.cursor level)).length < fuel :=
      Nat.lt_of_le_of_lt (length_bucket_le wheel (slot_mem_positions hlevel _)) h.fuel
    obtain ⟨wheel', hok⟩ := cascadeLevel_returns hleave hfuel
    obtain ⟨hmoves, hempty⟩ := cascadeLevel_moves hlevel hok
    use wheel'
    refine ⟨?_, h.moves hmoves hempty hdue, hmoves.tick, ?_⟩
    · rw [cascadeAt, and_lowerMask, if_pos halign, hok]
    · simpa using hmoves.sheds
  · use wheel
    refine ⟨?_, { h with settled := ?_ }, rfl, Sheds.of_perm (List.Perm.refl _)⟩
    · rw [cascadeAt, and_lowerMask, if_neg halign]
    · -- No slot of the level is visited at a tick that its span does not divide.
      intro p e hmem hlive
      have hwaits := h.settled p e hmem hlive
      by_cases hp : p.1 = level
      · rw [visited_of_lt (by omega)] at hwaits
        rw [visited_of_le (by omega)]
        apply hwaits.next
        rw [hp]
        intro hzero
        exact (halign hzero).elim
      · exact hwaits.weaken (Nat.add_le_add_left (visited_le (by omega)) _) (le_refl _)

theorem cascade_eq (pool : SleepStatePool) (fuel : Nat) (wheel : TimingWheel) :
  wheel.cascade pool fuel =
    (cascadeAt pool fuel wheel 3).bind fun wheel =>
      (cascadeAt pool fuel wheel 2).bind fun wheel => cascadeAt pool fuel wheel 1
  := by
  have hlevels : (range' 1 (timerWheelLevels - 1)).reverse = [3, 2, 1] := by decide
  rw [cascade, hlevels]
  simp [bind]

/-- The cascade at a tick returns, unless the coarsest slot visited holds a deadline too far
ahead. -/
theorem cascade_turning (h : wheel.Turning pool now 4 fuel) (hnear : wheel.NearAt pool) :
  ∃ wheel', wheel.cascade pool fuel = some wheel' ∧ wheel'.Turning pool now 1 fuel ∧
    wheel'.currentTick = wheel.currentTick ∧ Sheds pool wheel.entries wheel'.entries
  := by
  obtain ⟨wheel₃, hok₃, hturning₃, htick₃, hsheds₃⟩ :=
    cascadeAt_turning h (by decide) (by decide) fun _ => hnear
  obtain ⟨wheel₂, hok₂, hturning₂, htick₂, hsheds₂⟩ :=
    cascadeAt_turning hturning₃ (by decide) (by decide) (by simp)
  obtain ⟨wheel₁, hok₁, hturning₁, htick₁, hsheds₁⟩ :=
    cascadeAt_turning hturning₂ (by decide) (by decide) (by simp)
  use wheel₁
  refine ⟨?_, hturning₁, by rw [htick₁, htick₂, htick₃], (hsheds₃.trans hsheds₂).trans hsheds₁⟩
  rw [cascade_eq, hok₃, Option.bind_some, hok₂, Option.bind_some, hok₁]

theorem drainCurrentSlot_turning (h : wheel.Turning pool now 1 fuel) :
  ∃ wheel' moved, drainCurrentSlot pool fuel wheel ready = some (wheel', ready ++ moved) ∧
    wheel'.Turning pool now 0 fuel ∧ wheel'.currentTick = wheel.currentTick ∧
    Sheds pool wheel.entries (wheel'.entries ++ moved) ∧
    ∀ entry ∈ moved, entry.isDead pool = false ∧ entry.deadlineTick ≤ wheel.currentTick
  := by
  have hdue : wheel.Visitable pool 0 :=
    h.settled.visitable (by decide) (Nat.mod_one _) (by simp)
  have hle : ∀ entry ∈ wheel.buckets (wheel.cursor 0),
      entry.isDead pool = false → entry.deadlineTick ≤ wheel.currentTick := by
    intro e hmem hlive
    exact Nat.lt_succ_iff.mp (hdue e hmem hlive).1
  have hfuel : (wheel.buckets (wheel.cursor 0)).length < fuel :=
    Nat.lt_of_le_of_lt (length_bucket_le wheel (slot_mem_positions (by decide) _)) h.fuel
  obtain ⟨wheel', ready', hok⟩ := @drainCurrentSlot_returns pool wheel fuel ready hle hfuel
  obtain ⟨moved, rfl, hmoves, hempty⟩ := drainCurrentSlot_moves hok
  exact ⟨wheel', moved, hok, h.moves hmoves hempty hdue, hmoves.tick, hmoves.sheds, hmoves.due⟩

/-! ### Turning to a tick -/

/-- The wheel one tick on, before its cascade. -/
def advance (wheel : TimingWheel) : TimingWheel :=
  { wheel with currentTick := wheel.currentTick + 1 }

@[simp] theorem advance_currentTick (wheel : TimingWheel) :
  wheel.advance.currentTick = wheel.currentTick + 1
  := rfl

theorem satAdd_advance (hlt : wheel.currentTick < now) (hword : now < 2 ^ 64) :
  { wheel with currentTick := Machine.satAdd 64 wheel.currentTick 1 } = wheel.advance
  := by
  rw [Machine.satAdd_eq (by rw [Machine.maxWord]; omega)]
  rfl

/-- A wheel that has visited its tick is ready for the next. -/
theorem Turning.advance (h : wheel.Turning pool now 0 fuel) (hlt : wheel.currentTick < now) :
  wheel.advance.Turning pool now 4 fuel
  := by
  constructor
  · exact h.inRange
  · intro p e hmem hlive
    have hp := (mem_positions.mp (h.inRange p e hmem)).1
    apply (h.settled p e hmem hlive).weaken
    · rw [visited_of_lt hp]
      exact le_refl _
    · exact le_succ _
  · exact hlt
  · exact h.fuel

/-- After the visits of its tick, a wheel holds no live entry due by then. -/
theorem Turning.not_due (h : wheel.Turning pool now 0 fuel) (htick : wheel.currentTick = now)
    (hmem : entry ∈ wheel.entries) (hlive : entry.isDead pool = false) :
  now < entry.deadlineTick
  := by
  obtain ⟨p, hmem⟩ := (mem_entries h.inRange).mp hmem
  obtain ⟨visit, _, _, hfrom, _, hvisit⟩ := h.settled p entry hmem hlive
  rw [visited_of_le (zero_le _)] at hfrom
  have hfloor := div_mul_le_self entry.deadlineTick (256 ^ p.1)
  rcases hvisit with hvisit | ⟨_, _, hlate⟩
  · omega
  · omega

/-- No turn up to `now` meets, in the coarsest slot it visits, a live entry with a deadline a
revolution of the coarsest level or more ahead. -/
def Near (pool : SleepStatePool) (now : Nat) (wheel : TimingWheel) : Prop :=
  ∀ entry ∈ wheel.entries, entry.isDead pool = false → ∀ tick, wheel.currentTick < tick →
    tick ≤ now → tick % 256 ^ 3 = 0 → wheelSlot entry.deadlineTick 3 = wheelSlot tick 3 →
    entry.deadlineTick < tick + 2 ^ 32

/-- The loop over the ticks returns, hands out due entries only, and leaves none. -/
theorem turn_returns (hword : now < 2 ^ 64) {n steps : Nat}
    (hn : wheel.currentTick + n = now) (hsteps : n < steps)
    (hsettled : if n = 0 then wheel.Turning pool now 1 fuel
      else wheel.advance.Turning pool now 4 fuel)
    (hnear : wheel.Near pool now) :
  ∃ wheel' moved, drainExpired.turn pool now fuel steps wheel ready =
      some (wheel', ready ++ moved) ∧
    wheel'.Turning pool now 0 fuel ∧ wheel'.currentTick = now ∧
    Sheds pool wheel.entries (wheel'.entries ++ moved) ∧
    ∀ entry ∈ moved, entry.isDead pool = false ∧ entry.deadlineTick ≤ now
  := by
  induction n generalizing wheel ready steps with
  | zero =>
    obtain ⟨steps, rfl⟩ : ∃ k, steps = k + 1 := ⟨steps - 1, by omega⟩
    obtain ⟨wheel', moved, hok, hturning, htick, hsheds, hdue⟩ :=
      @drainCurrentSlot_turning now pool wheel fuel ready hsettled
    refine ⟨wheel', moved, ?_, hturning, by omega, hsheds, ?_⟩
    · rw [drainExpired.turn, if_neg (by omega), hok]
    · intro e hmem
      rw [← hn]
      exact hdue e hmem
  | succ n ih =>
    obtain ⟨steps, rfl⟩ : ∃ k, steps = k + 1 := ⟨steps - 1, by omega⟩
    have hnearAt : wheel.advance.NearAt pool := by
      intro halign e hmem hlive
      exact hnear e hmem hlive _ (lt_succ_self _) (by rw [advance_currentTick]; omega) halign
    obtain ⟨wheel₁, hok₁, hturning₁, htick₁, hsheds₁⟩ := cascade_turning hsettled hnearAt
    obtain ⟨wheel₂, moved₂, hok₂, hturning₂, htick₂, hsheds₂, hdue₂⟩ :=
      @drainCurrentSlot_turning now pool wheel₁ fuel ready hturning₁
    have htick : wheel₂.currentTick = wheel.currentTick + 1 := by
      rw [htick₂, htick₁]
      rfl
    have hnear₂ : wheel₂.Near pool now := by
      intro e hmem hlive tick hlt
      have hmem₁ := hsheds₂.subset (mem_append_left moved₂ hmem)
      exact hnear e (hsheds₁.subset hmem₁) hlive tick (by omega)
    have hsettled₂ : if n = 0 then wheel₂.Turning pool now 1 fuel
        else wheel₂.advance.Turning pool now 4 fuel := by
      split
      · exact ⟨hturning₂.inRange, hturning₂.settled.weaken (by decide), hturning₂.tick_le,
          hturning₂.fuel⟩
      · exact hturning₂.advance (by omega)
    obtain ⟨wheel', moved, hok, hturning, hnow, hsheds, hdue⟩ :=
      @ih wheel₂ (ready ++ moved₂) steps (by omega) (by omega) hsettled₂ hnear₂
    use wheel', moved₂ ++ moved
    refine ⟨?_, hturning, hnow, ?_, ?_⟩
    · rw [drainExpired.turn, if_pos (by omega)]
      simp only [satAdd_advance (by omega : wheel.currentTick < now) hword, bind]
      rw [hok₁, Option.bind_some, hok₂, Option.bind_some, hok, append_assoc]
    · exact (hsheds₁.trans hsheds₂).append_trans hsheds
    · refine forall_mem_append.mpr ⟨fun e hmem => ?_, hdue⟩
      obtain ⟨hlive, hle⟩ := hdue₂ e hmem
      exact ⟨hlive, by omega⟩

end TimingWheel

end Helios
