import Helios.Kernel.TimingWheel
import Mathlib.Data.List.ProdSigma
import Mathlib.Data.List.Nodup

/-!
# The loops of the timing wheel

What the loops of the wheel do when they return, whatever the state they start from: no
live entry is lost or copied, the slot they work on is empty, the other slots keep what
they hold, and an entry that moved was put where an insertion at the current tick puts it.
-/

namespace Helios

open Buckets List

/-! ### Slots as digits -/

theorem wheelSlot_eq (tick level : Nat) :
  wheelSlot tick level = tick / 256 ^ level % 256
  := by
  have hpow : 2 ^ (level * 8) = 256 ^ level := by
    rw [Nat.mul_comm, Nat.pow_mul]
  rw [wheelSlot, Nat.shiftRight_eq_div_pow, hpow]
  exact Nat.and_two_pow_sub_one_eq_mod _ 8

/-- The mask of the digits below a level is empty at the multiples of the level's span. -/
theorem and_lowerMask (tick level : Nat) :
  tick &&& ((1 <<< (level * 8)) - 1) = tick % 256 ^ level
  := by
  have hpow : 2 ^ (level * 8) = 256 ^ level := by
    rw [Nat.mul_comm, Nat.pow_mul]
  rw [Nat.one_shiftLeft, Nat.and_two_pow_sub_one_eq_mod, hpow]

theorem wheelLevel_spec (delay : Nat) :
  wheelLevel delay < 4 ∧ (0 < wheelLevel delay → 256 ^ wheelLevel delay ≤ delay) ∧
    (wheelLevel delay < 3 → delay < 256 ^ (wheelLevel delay + 1))
  := by
  rw [wheelLevel, timerWheelSlots]
  split_ifs <;> omega

theorem wheelLevel_lt {delay level : Nat} (hlevel : 0 < level) (h : delay < 256 ^ level) :
  wheelLevel delay < level
  := by
  obtain ⟨_, hlow, _⟩ := wheelLevel_spec delay
  by_contra hge
  have hle : 256 ^ level ≤ 256 ^ wheelLevel delay := Nat.pow_le_pow_right (by decide) (by omega)
  omega

namespace TimingWheel

variable {before after : List TimerEntry} {p : Nat × Nat} {wheel : TimingWheel}
  {pool : SleepStatePool} {entry : TimerEntry}

/-! ### Entries -/

/-- Where an entry is put at a tick. -/
def position (tick : Nat) (entry : TimerEntry) : Nat × Nat :=
  let targetTick := max entry.deadlineTick tick
  let level := wheelLevel (targetTick - tick)
  (level, wheelSlot targetTick level)

theorem mem_positions :
  p ∈ positions ↔ p.1 < 4 ∧ p.2 < 256
  := by
  obtain ⟨level, slot⟩ := p
  simp [positions, timerWheelLevels, timerWheelSlots]

theorem nodup_positions : positions.Nodup :=
  nodup_range.product nodup_range

theorem position_mem (tick : Nat) (entry : TimerEntry) :
  position tick entry ∈ positions
  := by
  rw [mem_positions, position, wheelSlot_eq]
  exact ⟨(wheelLevel_spec _).1, Nat.mod_lt _ (by decide)⟩

def InRange (wheel : TimingWheel) : Prop :=
  ∀ p entry, entry ∈ wheel.buckets p → p ∈ positions

theorem mem_entries (hrange : wheel.InRange) :
  entry ∈ wheel.entries ↔ ∃ p, entry ∈ wheel.buckets p
  := by
  simp only [entries, held, mem_flatMap]
  constructor
  · rintro ⟨p, _, hp⟩
    exact ⟨p, hp⟩
  · rintro ⟨p, hp⟩
    exact ⟨p, hrange p entry hp, hp⟩

theorem length_bucket_le (wheel : TimingWheel) (hp : p ∈ positions) :
  (wheel.buckets p).length ≤ wheel.entries.length
  := by
  obtain ⟨before, after, hsplit⟩ := append_of_mem hp
  simp only [entries, held, hsplit, flatMap_append, flatMap_cons, length_append]
  omega

/-! ### Insertion -/

section

variable (wheel) (deadline deadlineTick : Nat)

@[simp] theorem observeDeadline_buckets :
  (wheel.observeDeadline deadline deadlineTick).buckets = wheel.buckets
  := by
  rw [observeDeadline]
  split <;> rfl

@[simp] theorem observeDeadline_currentTick :
  (wheel.observeDeadline deadline deadlineTick).currentTick = wheel.currentTick
  := by
  rw [observeDeadline]
  split <;> rfl

@[simp] theorem insert_currentTick (pool : SleepStatePool) (entry : TimerEntry) :
  (wheel.insert pool entry).currentTick = wheel.currentTick
  := by
  rw [insert]
  split
  · rfl
  · exact observeDeadline_currentTick ..

end

theorem insert_dead (h : entry.isDead pool = true) :
  wheel.insert pool entry = wheel
  := if_pos h

theorem insert_buckets (h : entry.isDead pool = false) :
  (wheel.insert pool entry).buckets =
    push wheel.buckets (position wheel.currentTick entry) entry
  := by
  rw [insert, if_neg (by simp [h])]
  simp [position]

theorem entries_insert (h : entry.isDead pool = false) :
  (wheel.insert pool entry).entries.Perm (entry :: wheel.entries)
  := by
  rw [entries, insert_buckets h]
  exact held_push nodup_positions (position_mem _ _)

theorem insert_inRange (hrange : wheel.InRange) (pool : SleepStatePool) (entry : TimerEntry) :
  (wheel.insert pool entry).InRange
  := by
  cases hdead : entry.isDead pool with
  | true => rwa [insert_dead hdead]
  | false =>
    intro p e he
    rw [insert_buckets hdead, mem_push] at he
    rcases he with he | ⟨rfl, _⟩
    · exact hrange p e he
    · exact position_mem _ _

/-! ### Losing dead entries only -/

/-- The second list is the first without some dead entries, up to order. -/
def Sheds (pool : SleepStatePool) (before after : List TimerEntry) : Prop :=
  ∃ dead, before.Perm (after ++ dead) ∧ ∀ entry ∈ dead, entry.isDead pool = true

variable {pool : SleepStatePool}

theorem Sheds.of_perm (h : before.Perm after) :
  Sheds pool before after
  := by
  use []
  simpa using h

theorem Sheds.trans {middle : List TimerEntry} (h₁ : Sheds pool before middle)
    (h₂ : Sheds pool middle after) :
  Sheds pool before after
  := by
  obtain ⟨dead₁, hperm₁, hdead₁⟩ := h₁
  obtain ⟨dead₂, hperm₂, hdead₂⟩ := h₂
  use dead₂ ++ dead₁
  constructor
  · apply hperm₁.trans
    rw [← append_assoc]
    exact hperm₂.append_right dead₁
  · exact forall_mem_append.mpr ⟨hdead₂, hdead₁⟩

section

variable (h : Sheds pool before after)

include h

theorem Sheds.append_right (more : List TimerEntry) :
  Sheds pool (before ++ more) (after ++ more)
  := by
  obtain ⟨dead, hperm, hdead⟩ := h
  use dead
  constructor
  · apply (hperm.append_right more).trans
    rw [append_assoc, append_assoc]
    exact perm_append_comm.append_left after
  · exact hdead

/-- The live entries are the same, up to order. -/
theorem Sheds.filter :
  (before.filter fun entry => !entry.isDead pool).Perm
    (after.filter fun entry => !entry.isDead pool)
  := by
  obtain ⟨dead, hperm, hdead⟩ := h
  have hnil : dead.filter (fun entry => !entry.isDead pool) = [] := by
    apply filter_eq_nil_iff.mpr
    intro entry hmem
    simp [hdead entry hmem]
  have hfilter := hperm.filter fun entry => !entry.isDead pool
  rwa [filter_append, hnil, append_nil] at hfilter

theorem Sheds.length_le :
  after.length ≤ before.length
  := by
  obtain ⟨dead, hperm, _⟩ := h
  rw [hperm.length_eq, length_append]
  omega

theorem Sheds.subset (hmem : entry ∈ after) :
  entry ∈ before
  := by
  obtain ⟨dead, hperm, _⟩ := h
  exact hperm.mem_iff.mpr (mem_append_left dead hmem)

end

/-- Entries that leave one after the other. -/
theorem Sheds.append_trans {middle moved moved' : List TimerEntry}
    (h₁ : Sheds pool before (middle ++ moved)) (h₂ : Sheds pool middle (after ++ moved')) :
  Sheds pool before (after ++ (moved ++ moved'))
  := by
  apply (h₁.trans (h₂.append_right moved)).trans
  apply Sheds.of_perm
  rw [append_assoc]
  exact perm_append_comm.append_left _

/-! ### Emptying a slot -/

/-- Some entries leave a slot: the `moved` ones leave the wheel, due at the current tick,
dead ones are dropped, and others are put at their position for the current tick. -/
structure Moves (pool : SleepStatePool) (source : Nat × Nat) (wheel : TimingWheel)
    (moved : List TimerEntry) (wheel' : TimingWheel) : Prop where
  tick : wheel'.currentTick = wheel.currentTick
  sheds : Sheds pool wheel.entries (wheel'.entries ++ moved)
  kept : ∀ p, p ≠ source → ∀ entry ∈ wheel.buckets p, entry ∈ wheel'.buckets p
  origin : ∀ p entry, entry ∈ wheel'.buckets p → entry ∈ wheel.buckets p ∨
    entry ∈ wheel.buckets source ∧ entry.isDead pool = false ∧
      p = position wheel.currentTick entry
  due : ∀ entry ∈ moved, entry.isDead pool = false ∧ entry.deadlineTick ≤ wheel.currentTick

variable {source : Nat × Nat} {wheel wheel' wheel'' : TimingWheel}
  {moved moved' : List TimerEntry}

theorem Moves.refl : Moves pool source wheel [] wheel where
  tick := rfl
  sheds := Sheds.of_perm (by simp)
  kept := fun _ _ _ hmem => hmem
  origin := fun _ _ hmem => .inl hmem
  due := by simp

theorem Moves.trans (h₁ : Moves pool source wheel moved wheel')
    (h₂ : Moves pool source wheel' moved' wheel'') :
  Moves pool source wheel (moved ++ moved') wheel''
  := by
  constructor
  · rw [h₂.tick, h₁.tick]
  · exact h₁.sheds.append_trans h₂.sheds
  · intro p hp entry hmem
    exact h₂.kept p hp entry (h₁.kept p hp entry hmem)
  · intro p entry hmem
    rcases h₂.origin p entry hmem with hmem | ⟨hsource, hlive, hp⟩
    · exact h₁.origin p entry hmem
    · rw [h₁.tick] at hp
      rcases h₁.origin source entry hsource with hsource | ⟨hsource, _, _⟩
      · exact .inr ⟨hsource, hlive, hp⟩
      · exact .inr ⟨hsource, hlive, hp⟩
  · refine forall_mem_append.mpr ⟨h₁.due, ?_⟩
    rw [← h₁.tick]
    exact h₂.due

/-- The wheel after an entry was popped off a slot. -/
def popped (wheel : TimingWheel) (buckets : Nat × Nat → List TimerEntry) : TimingWheel :=
  { wheel with buckets, nextDeadlineDirty := true }

variable {buckets : Nat × Nat → List TimerEntry} {entry : TimerEntry}

section

variable (hpop : pop wheel.buckets source = some (buckets, entry)) {e : TimerEntry}
include hpop

theorem mem_source :
  entry ∈ wheel.buckets source
  := by
  rw [eq_push_of_pop hpop, mem_push]
  exact .inr ⟨rfl, rfl⟩

theorem mem_popped (hmem : e ∈ buckets p) :
  e ∈ wheel.buckets p
  := by
  rw [eq_push_of_pop hpop, mem_push]
  exact .inl hmem

theorem mem_popped_of_ne (hp : p ≠ source) (hmem : e ∈ wheel.buckets p) :
  e ∈ buckets p
  := by
  rw [eq_push_of_pop hpop, push_of_ne hp] at hmem
  exact hmem

end

section

variable (hsource : source ∈ positions)

include hsource

variable (hpop : pop wheel.buckets source = some (buckets, entry))

include hpop

theorem entries_popped :
  wheel.entries.Perm (entry :: (wheel.popped buckets).entries)
  := held_pop nodup_positions hsource hpop

theorem moves_dead (hdead : entry.isDead pool = true) :
  Moves pool source wheel [] (wheel.popped buckets)
  := by
  constructor
  · rfl
  · use [entry]
    constructor
    · rw [append_nil]
      exact (entries_popped hsource hpop).trans (perm_append_singleton _ _).symm
    · simpa using hdead
  · intro p hp e
    exact mem_popped_of_ne hpop hp
  · intro p e hmem
    exact .inl (mem_popped hpop hmem)
  · simp

theorem moves_insert (hlive : entry.isDead pool = false) :
  Moves pool source wheel [] ((wheel.popped buckets).insert pool entry)
  := by
  constructor
  · exact insert_currentTick ..
  · apply Sheds.of_perm
    rw [append_nil]
    exact (entries_popped hsource hpop).trans (entries_insert hlive).symm
  · intro p hp e hmem
    rw [insert_buckets hlive, mem_push]
    exact .inl (mem_popped_of_ne hpop hp hmem)
  · intro p e hmem
    rw [insert_buckets hlive, mem_push] at hmem
    rcases hmem with hmem | ⟨rfl, rfl⟩
    · exact .inl (mem_popped hpop hmem)
    · exact .inr ⟨mem_source hpop, hlive, rfl⟩
  · simp

theorem moves_ready (hlive : entry.isDead pool = false)
    (hdue : entry.deadlineTick ≤ wheel.currentTick) :
  Moves pool source wheel [entry] (wheel.popped buckets)
  := by
  constructor
  · rfl
  · apply Sheds.of_perm
    exact (entries_popped hsource hpop).trans (perm_append_singleton _ _).symm
  · intro p hp e
    exact mem_popped_of_ne hpop hp
  · intro p e hmem
    exact .inl (mem_popped hpop hmem)
  · simp [hlive, hdue]

end

theorem Moves.inRange (h : Moves pool source wheel moved wheel') (hrange : wheel.InRange) :
  wheel'.InRange
  := by
  intro p e hmem
  rcases h.origin p e hmem with hmem | ⟨_, _, rfl⟩
  · exact hrange p e hmem
  · exact position_mem _ _

/-! ### The loops -/

/-- The current slot of a level. -/
abbrev cursor (wheel : TimingWheel) (level : Nat) : Nat × Nat :=
  (level, wheelSlot wheel.currentTick level)

variable {level fuel : Nat} {ready ready' : List TimerEntry}

theorem slot_mem_positions (hlevel : level < 4) (tick : Nat) :
  (level, wheelSlot tick level) ∈ positions
  := by
  rw [mem_positions, wheelSlot_eq]
  exact ⟨hlevel, Nat.mod_lt _ (by decide)⟩

/-- A cascade of a level that returns has emptied the current slot of the level. -/
theorem cascadeLevel_moves (hlevel : level < 4)
    (h : cascadeLevel pool level fuel wheel = some wheel') :
  Moves pool (wheel.cursor level) wheel [] wheel' ∧
    wheel'.buckets (wheel.cursor level) = []
  := by
  fun_induction cascadeLevel pool level fuel wheel with
  | case1 => cases h
  | case2 fuel wheel hpop =>
    cases h
    exact ⟨Moves.refl, pop_eq_none.mp hpop⟩
  | case3 fuel wheel buckets entry hpop next hdead ih =>
    obtain ⟨hmoves, hempty⟩ := ih h
    have hsource := slot_mem_positions hlevel wheel.currentTick
    exact ⟨(moves_dead hsource hpop hdead).trans hmoves, hempty⟩
  | case4 fuel wheel buckets entry hpop next hlive ih =>
    rw [Bool.not_eq_true] at hlive
    obtain ⟨hmoves, hempty⟩ := ih h
    rw [cursor, insert_currentTick] at hmoves hempty
    have hsource := slot_mem_positions hlevel wheel.currentTick
    exact ⟨(moves_insert hsource hpop hlive).trans hmoves, hempty⟩

/-- A cascade of a level returns when insertion puts the live entries of the slot
elsewhere. -/
theorem cascadeLevel_returns
    (hleave : ∀ entry ∈ wheel.buckets (wheel.cursor level),
      entry.isDead pool = false →
      position wheel.currentTick entry ≠ wheel.cursor level)
    (hfuel : (wheel.buckets (wheel.cursor level)).length < fuel) :
  ∃ wheel', cascadeLevel pool level fuel wheel = some wheel'
  := by
  fun_induction cascadeLevel pool level fuel wheel with
  | case1 => cases hfuel
  | case2 fuel wheel hpop => exact ⟨wheel, rfl⟩
  | case3 fuel wheel buckets entry hpop next hdead ih =>
    apply ih
    · exact fun e hmem => hleave e (mem_popped hpop hmem)
    · rw [eq_push_of_pop hpop, push_self] at hfuel
      simpa using hfuel
  | case4 fuel wheel buckets entry hpop next hlive ih =>
    rw [Bool.not_eq_true] at hlive
    have hbucket : (next.insert pool entry).buckets (wheel.cursor level) =
        buckets (wheel.cursor level) := by
      rw [insert_buckets hlive]
      exact push_of_ne (hleave entry (mem_source hpop) hlive).symm
    apply ih
    · rw [cursor, insert_currentTick]
      intro e hmem
      rw [hbucket] at hmem
      exact hleave e (mem_popped hpop hmem)
    · rw [cursor, insert_currentTick]
      rw [hbucket]
      rw [eq_push_of_pop hpop, push_self] at hfuel
      simpa using hfuel

/-- A cascade of a level does not return while a live entry of the slot is put back into
it. -/
theorem cascadeLevel_diverges
    (hstuck : ∃ entry ∈ wheel.buckets (wheel.cursor level),
      entry.isDead pool = false ∧
      position wheel.currentTick entry = wheel.cursor level) :
  cascadeLevel pool level fuel wheel = none
  := by
  fun_induction cascadeLevel pool level fuel wheel with
  | case1 => rfl
  | case2 fuel wheel hpop =>
    obtain ⟨stuck, hmem, _⟩ := hstuck
    rw [pop_eq_none.mp hpop] at hmem
    cases hmem
  | case3 fuel wheel buckets entry hpop next hdead ih =>
    obtain ⟨stuck, hmem, hlive, hposition⟩ := hstuck
    rw [eq_push_of_pop hpop, mem_push] at hmem
    apply ih
    use stuck
    rcases hmem with hmem | ⟨_, rfl⟩
    · exact ⟨hmem, hlive, hposition⟩
    · rw [hlive] at hdead
      cases hdead
  | case4 fuel wheel buckets entry hpop next hdead ih =>
    obtain ⟨stuck, hmem, hlive, hposition⟩ := hstuck
    rw [eq_push_of_pop hpop, mem_push] at hmem
    apply ih
    use stuck
    rw [cursor, insert_currentTick]
    refine ⟨?_, hlive, hposition⟩
    rw [insert_buckets (Bool.eq_false_of_not_eq_true hdead), mem_push]
    -- The entry is still in the slot, or it was popped and is pushed back.
    rcases hmem with hmem | ⟨_, rfl⟩
    · exact .inl hmem
    · exact .inr ⟨hposition.symm, rfl⟩

theorem drainCurrentSlot_moves
    (h : drainCurrentSlot pool fuel wheel ready = some (wheel', ready')) :
  ∃ moved, ready' = ready ++ moved ∧
    Moves pool (wheel.cursor 0) wheel moved wheel' ∧
    wheel'.buckets (wheel.cursor 0) = []
  := by
  have hsource := slot_mem_positions (by decide : 0 < 4)
  fun_induction drainCurrentSlot pool fuel wheel ready with
  | case1 => cases h
  | case2 fuel wheel ready hpop =>
    cases h
    exact ⟨[], by simp, Moves.refl, pop_eq_none.mp hpop⟩
  | case3 fuel wheel ready buckets entry hpop next hdead ih =>
    obtain ⟨moved, hready, hmoves, hempty⟩ := ih h
    exact ⟨moved, hready, (moves_dead (hsource _) hpop hdead).trans hmoves, hempty⟩
  | case4 fuel wheel ready buckets entry hpop next hlive hdue ih =>
    rw [Bool.not_eq_true] at hlive
    obtain ⟨moved, hready, hmoves, hempty⟩ := ih h
    exact ⟨entry :: moved, by simp [hready],
      (moves_ready (hsource _) hpop hlive hdue).trans hmoves, hempty⟩
  | case5 fuel wheel ready buckets entry hpop next hlive _ ih =>
    rw [Bool.not_eq_true] at hlive
    obtain ⟨moved, hready, hmoves, hempty⟩ := ih h
    rw [cursor, insert_currentTick] at hmoves hempty
    exact ⟨moved, hready, (moves_insert (hsource _) hpop hlive).trans hmoves, hempty⟩

/-- A drain of the current slot returns when the live entries of the slot are due. -/
theorem drainCurrentSlot_returns
    (hdue : ∀ entry ∈ wheel.buckets (wheel.cursor 0),
      entry.isDead pool = false → entry.deadlineTick ≤ wheel.currentTick)
    (hfuel : (wheel.buckets (wheel.cursor 0)).length < fuel) :
  ∃ wheel' ready', drainCurrentSlot pool fuel wheel ready = some (wheel', ready')
  := by
  fun_induction drainCurrentSlot pool fuel wheel ready with
  | case1 => cases hfuel
  | case2 fuel wheel ready hpop => exact ⟨wheel, ready, rfl⟩
  | case3 fuel wheel ready buckets entry hpop next hdead ih
  | case4 fuel wheel ready buckets entry hpop next hlive hnow ih =>
    apply ih
    · exact fun e hmem => hdue e (mem_popped hpop hmem)
    · rw [eq_push_of_pop hpop, push_self] at hfuel
      simpa using hfuel
  | case5 fuel wheel ready buckets entry hpop next hlive hlater ih =>
    rw [Bool.not_eq_true] at hlive
    exact absurd (hdue entry (mem_source hpop) hlive) hlater

end TimingWheel

end Helios
