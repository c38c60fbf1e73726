import Helios.Kernel.WheelTurns

/-!
# Draining the wheel

Turning the wheel to a tick hands out exactly the live entries due by then, and returns, if
and only if two things do not happen.  A turn that meets a deadline a revolution of the
coarsest level ahead in the slot it visits puts the entry back into that slot for ever.  And
an entry that was due when it was inserted waits in the slot of the current tick, which the
turns to the following ticks pass by until the finest level has gone round.
-/

namespace Helios

open Nat Option

namespace TimingWheel

variable {fuel' : Nat}

variable {pool : SleepStatePool} {wheel wheel' wheel₁ wheel₂ : TimingWheel}
  {now level fuel steps : Nat} {entry : TimerEntry} {moved ready ready' ready₂ : List TimerEntry}

/-! ### The wheel between its operations -/

/-- Between operations a live entry waits for a visit after the current tick or, at the
finest level, for a second visit at it. -/
structure AtRest (pool : SleepStatePool) (wheel : TimingWheel) : Prop where
  inRange : wheel.InRange
  settled : wheel.Settled pool wheel.currentTick 1

theorem atRest_new (pool : SleepStatePool) (currentTick : Nat) :
  (new currentTick).AtRest pool
  := by
  constructor
  · nofun
  · nofun

section

variable (h : wheel.AtRest pool)

include h

theorem AtRest.insert (entry : TimerEntry) :
  (wheel.insert pool entry).AtRest pool
  := by
  constructor
  · exact insert_inRange h.inRange pool entry
  · cases hdead : entry.isDead pool with
    | true =>
      rw [insert_dead hdead]
      exact h.settled
    | false =>
      intro p e hmem hlive
      rw [insert_currentTick]
      rw [insert_buckets hdead, Buckets.mem_push] at hmem
      rcases hmem with hmem | ⟨rfl, rfl⟩
      · exact h.settled p e hmem hlive
      · exact waits_position _ _ (le_refl _)

theorem AtRest.of_live {pool' : SleepStatePool}
    (hlive : ∀ entry ∈ wheel.entries, entry.isDead pool' = false → entry.isDead pool = false) :
  wheel.AtRest pool'
  := by
  constructor
  · exact h.inRange
  · intro p e hmem hlive'
    exact h.settled p e hmem (hlive e ((mem_entries h.inRange).mpr ⟨p, hmem⟩) hlive')

/-- A late entry is due at every further drain, so a turn to `now` must reach its slot. -/
def Prompt (pool : SleepStatePool) (now : Nat) (wheel : TimingWheel) : Prop :=
  wheel.currentTick < now → now < wheel.currentTick + 256 →
    ∀ entry ∈ wheel.entries, entry.isDead pool = false → wheel.currentTick < entry.deadlineTick

/-- Entering the first turn, a late entry waits for the second visit of its slot. -/
theorem AtRest.advance (hlt : wheel.currentTick < now) (hprompt : wheel.Prompt pool now)
    (hfuel : wheel.entries.length < fuel) :
  wheel.advance.Turning pool now 4 fuel
  := by
  constructor
  · exact h.inRange
  · intro p e hmem hlive
    have hp := (mem_positions.mp (h.inRange p e hmem)).1
    rw [visited_of_lt hp]
    have hwaits := h.settled p e hmem hlive
    obtain ⟨visit, hslot, halign, hfrom, hto, hvisit⟩ := hwaits
    rw [advance_currentTick]
    rcases lt_or_ge wheel.currentTick visit with hlater | hcurrent
    · refine ⟨visit, hslot, halign, hlater, ?_, ?_⟩
      · omega
      · rcases hvisit with hvisit | ⟨hzero, hlate, hle⟩
        · exact .inl hvisit
        · exact .inr ⟨hzero, hlate, by omega⟩
    · -- The visit is at the current tick, so the level is the finest.
      have hzero : p.1 = 0 := by
        by_contra hpos
        rw [visited_of_le (by omega)] at hfrom
        omega
      have hdue : e.deadlineTick ≤ wheel.currentTick := by
        rw [hzero] at hvisit
        omega
      have hfar : wheel.currentTick + 256 ≤ now := by
        by_contra hnear
        have := hprompt hlt (by omega) e ((mem_entries h.inRange).mpr ⟨p, hmem⟩) hlive
        omega
      use wheel.currentTick + 256
      rw [hzero] at hslot ⊢
      simp only [Nat.pow_zero] at hslot ⊢
      refine ⟨by omega, mod_one _, by omega, by omega, .inr ⟨trivial, by omega, hfar⟩⟩
  · exact hlt
  · exact hfuel

/-- A drain that meets neither obstacle returns, hands out due entries only and leaves none
of them. -/
theorem AtRest.drainExpired (hnow : wheel.currentTick ≤ now) (hword : now < 2 ^ 64)
    (hnear : wheel.Near pool now) (hprompt : wheel.Prompt pool now)
    (hentries : wheel.entries.length < fuel) (hticks : now - wheel.currentTick < fuel) :
  ∃ wheel' moved, drainExpired pool now fuel wheel ready = some (wheel', ready ++ moved) ∧
    wheel'.AtRest pool ∧ wheel'.currentTick = now ∧
    Sheds pool wheel.entries (wheel'.entries ++ moved) ∧
    (∀ entry ∈ moved, entry.isDead pool = false ∧ entry.deadlineTick ≤ now) ∧
    ∀ entry ∈ wheel'.entries, entry.isDead pool = false → now < entry.deadlineTick
  := by
  have hstart : if now - wheel.currentTick = 0 then wheel.Turning pool now 1 fuel
      else wheel.advance.Turning pool now 4 fuel := by
    split
    · have heq : wheel.currentTick = now := by omega
      have hsettled := h.settled
      rw [heq] at hsettled
      exact ⟨h.inRange, hsettled, hnow, hentries⟩
    · exact h.advance (by omega) hprompt hentries
  obtain ⟨wheel', moved, hok, hturning, htick, hsheds, hdue⟩ :=
    @turn_returns now pool wheel fuel ready hword _ fuel (by omega) hticks hstart hnear
  refine ⟨wheel', moved, hok, ⟨hturning.inRange, ?_⟩, htick, hsheds, hdue, ?_⟩
  · rw [htick]
    exact hturning.settled.weaken (by decide)
  · intro e
    exact hturning.not_due htick

end

/-! ### What any drain does -/

theorem cascadeAt_moves (hlevel : level < 4)
    (h : cascadeAt pool fuel wheel level = some wheel') :
  Moves pool (wheel.cursor level) wheel [] wheel'
  := by
  rw [cascadeAt] at h
  split at h
  · exact (cascadeLevel_moves hlevel h).1
  · cases h
    exact Moves.refl

theorem cascade_eq_some (h : wheel.cascade pool fuel = some wheel') :
  ∃ wheel₃ wheel₂, cascadeAt pool fuel wheel 3 = some wheel₃ ∧
    cascadeAt pool fuel wheel₃ 2 = some wheel₂ ∧ cascadeAt pool fuel wheel₂ 1 = some wheel'
  := by
  rw [cascade_eq, bind_eq_some_iff] at h
  obtain ⟨wheel₃, h₃, h⟩ := h
  rw [bind_eq_some_iff] at h
  obtain ⟨wheel₂, h₂, h₁⟩ := h
  exact ⟨wheel₃, wheel₂, h₃, h₂, h₁⟩

/-- The visits of a tick lose no live entry and leave the slots they do not visit alone. -/
theorem visits_kept (hcascade : wheel.cascade pool fuel = some wheel₁)
    (hdrain : drainCurrentSlot pool fuel wheel₁ ready = some (wheel₂, ready₂)) :
  wheel₂.currentTick = wheel.currentTick ∧
    (∃ moved, ready₂ = ready ++ moved ∧ Sheds pool wheel.entries (wheel₂.entries ++ moved)) ∧
    ∀ p, p ≠ (p.1, wheelSlot wheel.currentTick p.1) → ∀ entry ∈ wheel.buckets p,
      entry ∈ wheel₂.buckets p
  := by
  obtain ⟨wheel₃, wheel₂', h₃, h₂, h₁⟩ := cascade_eq_some hcascade
  obtain ⟨moved, hready, hmoves, _⟩ := drainCurrentSlot_moves hdrain
  have hmoves₃ := cascadeAt_moves (by decide) h₃
  have hmoves₂ := cascadeAt_moves (by decide) h₂
  have hmoves₁ := cascadeAt_moves (by decide) h₁
  have htick₂ : wheel₂'.currentTick = wheel.currentTick := hmoves₂.tick.trans hmoves₃.tick
  have htick₁ : wheel₁.currentTick = wheel.currentTick := hmoves₁.tick.trans htick₂
  rw [cursor, hmoves₃.tick] at hmoves₂
  rw [cursor, htick₂] at hmoves₁
  rw [cursor, htick₁] at hmoves
  constructor
  · rw [hmoves.tick, htick₁]
  constructor
  · use moved, hready
    have hsheds₃ := hmoves₃.sheds
    have hsheds₂ := hmoves₂.sheds
    have hsheds₁ := hmoves₁.sheds
    rw [List.append_nil] at hsheds₃ hsheds₂ hsheds₁
    exact ((hsheds₃.trans hsheds₂).trans hsheds₁).trans hmoves.sheds
  · intro p hp e hmem
    have hne : ∀ level, p ≠ wheel.cursor level := by
      rintro level rfl
      exact hp rfl
    apply hmoves.kept p (hne 0)
    apply hmoves₁.kept p (hne 1)
    apply hmoves₂.kept p (hne 2)
    exact hmoves₃.kept p (hne 3) e hmem

theorem turn_eq_some (hlt : wheel.currentTick < now) (hword : now < 2 ^ 64)
    (h : drainExpired.turn pool now fuel (steps + 1) wheel ready = some (wheel', ready')) :
  ∃ wheel₁ wheel₂ ready₂, wheel.advance.cascade pool fuel = some wheel₁ ∧
    drainCurrentSlot pool fuel wheel₁ ready = some (wheel₂, ready₂) ∧
    drainExpired.turn pool now fuel steps wheel₂ ready₂ = some (wheel', ready')
  := by
  rw [drainExpired.turn, if_pos hlt] at h
  simp only [satAdd_advance hlt hword, bind] at h
  rw [bind_eq_some_iff] at h
  obtain ⟨wheel₁, hcascade, h⟩ := h
  rw [bind_eq_some_iff] at h
  obtain ⟨⟨wheel₂, ready₂⟩, hdrain, h⟩ := h
  exact ⟨wheel₁, wheel₂, ready₂, hcascade, hdrain, h⟩

/-- A drain that returns has lost no live entry, and has left the slots of the finest level
that it does not visit alone. -/
theorem turn_kept (hword : now < 2 ^ 64) (hnow : wheel.currentTick ≤ now)
    (h : drainExpired.turn pool now fuel steps wheel ready = some (wheel', ready')) :
  (∃ moved, ready' = ready ++ moved ∧ Sheds pool wheel.entries (wheel'.entries ++ moved)) ∧
    ∀ slot, (∀ tick, wheel.currentTick < tick → tick ≤ now → wheelSlot tick 0 ≠ slot) →
      (wheel.currentTick = now → wheelSlot now 0 ≠ slot) →
      ∀ entry ∈ wheel.buckets (0, slot), entry ∈ wheel'.buckets (0, slot)
  := by
  induction steps generalizing wheel ready with
  | zero => cases h
  | succ steps ih =>
    by_cases hlt : wheel.currentTick < now
    · obtain ⟨wheel₁, wheel₂, ready₂, hcascade, hdrain, h⟩ := turn_eq_some hlt hword h
      obtain ⟨htick, ⟨moved₂, rfl, hsheds₂⟩, hkept₂⟩ := visits_kept hcascade hdrain
      have htick : wheel₂.currentTick = wheel.currentTick + 1 := htick
      obtain ⟨⟨moved, rfl, hsheds⟩, hkept⟩ := ih (by omega) h
      constructor
      · use moved₂ ++ moved
        constructor
        · rw [List.append_assoc]
        · exact hsheds₂.append_trans hsheds
      · intro slot hother _ e hmem
        apply hkept slot
        · intro tick hafter
          exact hother tick (by omega)
        · intro _
          exact hother now hlt (le_refl _)
        · apply hkept₂ _ _ e hmem
          intro hslot
          apply hother (wheel.currentTick + 1) (by omega) (by omega)
          exact (Prod.mk.inj hslot).2.symm
    · rw [drainExpired.turn, if_neg hlt] at h
      obtain ⟨moved, hready, hmoves, _⟩ := drainCurrentSlot_moves h
      have heq : wheel.currentTick = now := by omega
      refine ⟨⟨moved, hready, hmoves.sheds⟩, ?_⟩
      intro slot _ hfinal e hmem
      apply hmoves.kept _ _ e hmem
      intro hslot
      apply hfinal heq
      rw [cursor, heq] at hslot
      exact (Prod.mk.inj hslot).2.symm

/-! ### More fuel -/

section

variable (hle : fuel ≤ fuel')
include hle

theorem cascadeLevel_mono (h : cascadeLevel pool level fuel wheel = some wheel') :
  cascadeLevel pool level fuel' wheel = some wheel'
  := by
  induction fuel generalizing wheel fuel' with
  | zero => cases h
  | succ fuel ih =>
    obtain ⟨fuel', rfl⟩ : ∃ k, fuel' = k + 1 := ⟨fuel' - 1, by omega⟩
    have hfuel : fuel ≤ fuel' := le_of_succ_le_succ hle
    rw [cascadeLevel] at h ⊢
    split at h
    · exact h
    · split_ifs at h ⊢ <;> exact ih hfuel h

theorem drainCurrentSlot_mono (h : drainCurrentSlot pool fuel wheel ready = some (wheel', ready')) :
  drainCurrentSlot pool fuel' wheel ready = some (wheel', ready')
  := by
  induction fuel generalizing wheel ready fuel' with
  | zero => cases h
  | succ fuel ih =>
    obtain ⟨fuel', rfl⟩ : ∃ k, fuel' = k + 1 := ⟨fuel' - 1, by omega⟩
    have hfuel : fuel ≤ fuel' := le_of_succ_le_succ hle
    rw [drainCurrentSlot] at h ⊢
    split at h
    · exact h
    · simp only at h ⊢
      split_ifs at h ⊢ <;> exact ih hfuel h

theorem cascadeAt_mono (h : cascadeAt pool fuel wheel level = some wheel') :
  cascadeAt pool fuel' wheel level = some wheel'
  := by
  rw [cascadeAt] at h ⊢
  split_ifs at h ⊢
  · exact cascadeLevel_mono hle h
  · exact h

theorem cascade_mono (h : wheel.cascade pool fuel = some wheel') :
  wheel.cascade pool fuel' = some wheel'
  := by
  obtain ⟨wheel₃, wheel₂, h₃, h₂, h₁⟩ := cascade_eq_some h
  rw [cascade_eq, cascadeAt_mono hle h₃, bind_some, cascadeAt_mono hle h₂,
    bind_some, cascadeAt_mono hle h₁]

theorem turn_mono {steps' : Nat}
    (h : drainExpired.turn pool now fuel steps wheel ready = some (wheel', ready'))
    (hsteps : steps ≤ steps') :
  drainExpired.turn pool now fuel' steps' wheel ready = some (wheel', ready')
  := by
  induction steps generalizing wheel ready steps' with
  | zero => cases h
  | succ steps ih =>
    obtain ⟨steps', rfl⟩ : ∃ k, steps' = k + 1 := ⟨steps' - 1, by omega⟩
    rw [drainExpired.turn] at h ⊢
    split_ifs at h ⊢
    · simp only [bind, bind_eq_some_iff] at h ⊢
      obtain ⟨wheel₁, hcascade, ⟨wheel₂, ready₂⟩, hdrain, h⟩ := h
      exact ⟨wheel₁, cascade_mono hle hcascade, ⟨wheel₂, ready₂⟩,
        drainCurrentSlot_mono hle hdrain, ih h (le_of_succ_le_succ hsteps)⟩
    · exact drainCurrentSlot_mono hle h

end

/-! ### The two obstacles -/

/-- A deadline a revolution of the coarsest level ahead is put back into the coarsest
slot. -/
theorem position_far {tick : Nat} (h : tick + 2 ^ 32 ≤ entry.deadlineTick) :
  position tick entry = (3, wheelSlot entry.deadlineTick 3)
  := by
  have hmax : max entry.deadlineTick tick = entry.deadlineTick := by omega
  have hlevel : wheelLevel (entry.deadlineTick - tick) = 3 := by
    rw [wheelLevel, timerWheelSlots, if_neg (by omega), if_neg (by omega), if_neg (by omega)]
  rw [position]
  simp only [hmax, hlevel]

/-- A drain that meets such a deadline does not return. -/
theorem turn_diverges (hword : now < 2 ^ 64) {tick : Nat} (hlive : entry.isDead pool = false)
    (hmem : entry ∈ wheel.buckets (3, wheelSlot entry.deadlineTick 3))
    (hafter : wheel.currentTick < tick) (hle : tick ≤ now) (halign : tick % 256 ^ 3 = 0)
    (hslot : wheelSlot entry.deadlineTick 3 = wheelSlot tick 3)
    (hfar : tick + 2 ^ 32 ≤ entry.deadlineTick) :
  drainExpired.turn pool now fuel steps wheel ready = none
  := by
  induction steps generalizing wheel ready with
  | zero => rfl
  | succ steps ih =>
    rw [eq_none_iff_forall_ne_some]
    rintro ⟨wheel', ready'⟩ h
    obtain ⟨wheel₁, wheel₂, ready₂, hcascade, hdrain, h⟩ := turn_eq_some (by omega) hword h
    by_cases hvisit : wheelSlot entry.deadlineTick 3 = wheelSlot (wheel.currentTick + 1) 3 ∧
        (wheel.currentTick + 1) % 256 ^ 3 = 0
    · -- The coarsest cascade of this tick never returns.
      obtain ⟨wheel₃, _, h₃, _, _⟩ := cascade_eq_some hcascade
      have hposition := @position_far entry (wheel.currentTick + 1) (by omega)
      have hnone : cascadeLevel pool 3 fuel wheel.advance = none := by
        apply cascadeLevel_diverges
        use entry
        rw [hvisit.1] at hmem hposition
        exact ⟨hmem, hlive, hposition⟩
      rw [cascadeAt, and_lowerMask, advance_currentTick, if_pos hvisit.2, hnone] at h₃
      cases h₃
    · obtain ⟨htick, _, hkept⟩ := visits_kept hcascade hdrain
      have htick : wheel₂.currentTick = wheel.currentTick + 1 := htick
      have hbefore : wheel₂.currentTick < tick := by
        have hne : tick ≠ wheel.currentTick + 1 := by
          rintro rfl
          exact hvisit ⟨hslot, halign⟩
        omega
      have hmem₂ : entry ∈ wheel₂.buckets (3, wheelSlot entry.deadlineTick 3) := by
        obtain ⟨wheel₃, wheel₂', h₃, h₂, h₁⟩ := cascade_eq_some hcascade
        obtain ⟨_, _, hmoves, _⟩ := drainCurrentSlot_moves hdrain
        apply hmoves.kept _ (by simp)
        apply (cascadeAt_moves (by decide) h₁).kept _ (by simp)
        apply (cascadeAt_moves (by decide) h₂).kept _ (by simp)
        by_cases haligned : (wheel.currentTick + 1) % 256 ^ 3 = 0
        · apply (cascadeAt_moves (by decide) h₃).kept _ _ _ hmem
          intro heq
          exact hvisit ⟨(Prod.mk.inj heq).2, haligned⟩
        · rw [cascadeAt, and_lowerMask, advance_currentTick, if_neg haligned] at h₃
          cases h₃
          exact hmem
      rw [ih hmem₂ hbefore] at h
      cases h

variable (h : wheel.AtRest pool) (hlive : entry.isDead pool = false) (hmem : entry ∈ wheel.entries)

include h hlive hmem

theorem AtRest.far_level (hfar : wheel.currentTick + 2 ^ 32 ≤ entry.deadlineTick) :
  entry ∈ wheel.buckets (3, wheelSlot entry.deadlineTick 3)
  := by
  obtain ⟨p, hmem⟩ := (mem_entries h.inRange).mp hmem
  have hp := (mem_positions.mp (h.inRange p entry hmem)).1
  obtain ⟨visit, hslot, _, _, hto, hvisit⟩ := h.settled p entry hmem hlive
  have hthree : p.1 = 3 := by
    by_contra hne
    have hspan : 256 ^ p.1 ≤ 256 ^ 2 := Nat.pow_le_pow_right (by decide) (by omega)
    have hround := Nat.div_add_mod entry.deadlineTick (256 ^ p.1)
    rw [Nat.mul_comm] at hround
    rcases hvisit with hvisit | ⟨_, hlate, hle⟩
    · omega
    · omega
  obtain ⟨level, slot⟩ := p
  subst hthree
  rwa [h.settled.slot_three hmem hlive]

/-- An entry that is due at rest waits in the slot of the current tick. -/
theorem AtRest.late_slot (hlate : entry.deadlineTick ≤ wheel.currentTick) :
  entry ∈ wheel.buckets (wheel.cursor 0)
  := by
  obtain ⟨p, hmem⟩ := (mem_entries h.inRange).mp hmem
  obtain ⟨visit, hslot, _, hfrom, _, hvisit⟩ := h.settled p entry hmem hlive
  have hfloor := div_mul_le_self entry.deadlineTick (256 ^ p.1)
  have hzero : p.1 = 0 := by
    by_contra hne
    rw [visited_of_le (by omega)] at hfrom
    omega
  have heq : visit = wheel.currentTick := by omega
  obtain ⟨level, slot⟩ := p
  simp only at hzero hslot
  subst hzero
  rwa [hslot, heq, ← wheelSlot_eq] at hmem

end TimingWheel

end Helios
