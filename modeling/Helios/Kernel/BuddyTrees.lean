import Helios.Kernel.BuddyRegions

/-!
# Freeing and allocating

A tree that is given a block merges it upwards and frees the result; a tree asked for a block
splits the smallest free block that can hold one.  Both keep the tiling, and the tree refuses
only when none of its free blocks is large enough.
-/

namespace Helios.Arena

open Buddy Function Block

namespace BuddyRegion

variable {memory memory' memory'' : Memory} {region region' region'' : BuddyRegion}
  {holding holding' holding'' : Holding} {total offset cls : Nat} {hand : Option Block}

/-- The tree went from one tiling to another, with the block left in hand. -/
structure Turns (total : Nat) (memory : Memory) (region : BuddyRegion) (holding : Holding)
    (memory' : Memory) (region' : BuddyRegion) (holding' : Holding) (hand : Option Block) :
    Prop where
  stands : region'.Stands total memory' holding'
  keeps : Keeps region.Has memory holding memory' holding'
  hands : Hands holding' hand
  start : region'.start = region.start
  len : region'.len = region.len

theorem has_congr (hstart : region'.start = region.start) (hlen : region'.len = region.len) :
  region'.Has = region.Has
  := by
  unfold Has
  rw [hstart, hlen]

theorem Turns.after (h : Turns total memory' region' holding' memory'' region'' holding'' hand)
    (hkeeps : Keeps region.Has memory holding memory' holding')
    (hstart : region'.start = region.start) (hlen : region'.len = region.len) :
  Turns total memory region holding memory'' region'' holding'' hand
  := by
  refine ⟨h.stands, hkeeps.trans ?_, h.hands, h.start.trans hstart, h.len.trans hlen⟩
  rw [← has_congr hstart hlen]
  exact h.keeps

theorem removeFree_span :
  (removeFree memory region offset cls).2.start = region.start
    ∧ (removeFree memory region offset cls).2.len = region.len
  := by
  simp only [removeFree]
  split <;> exact ⟨rfl, rfl⟩

/-! ### Freeing -/

/-- The block in hand is merged with its buddy for as long as that is free. -/
theorem Stands.mergeUp {above : Nat} (h : region.Stands total memory holding)
    (hhands : Hands holding (some ⟨offset, cls⟩)) (hhas : region.Has offset)
    (habove : cls + above + 1 = taskArenaClassCount) :
  ∃ offset' cls' memory' region' holding',
    mergeUp memory region offset cls above = ((offset', cls'), memory', region')
    ∧ Turns total memory region holding memory' region' holding' (some ⟨offset', cls'⟩)
    ∧ region.Has offset' ∧ cls' < taskArenaClassCount
    ∧ (cls' + 1 < taskArenaClassCount →
        holding' (buddy taskArenaAlign ⟨offset', cls'⟩) ≠ some .free)
  := by
  induction above generalizing memory region holding offset cls with
  | zero =>
    refine ⟨offset, cls, memory, region, holding, rfl,
      ⟨h, Keeps.refl _ _ _, hhands, rfl, rfl⟩, hhas, by omega, ?_⟩
    intro hlt
    omega
  | succ above ih =>
    have hlevel : cls + 1 < taskArenaClassCount := by omega
    have hheld : holding ⟨offset, cls⟩ ≠ none := by simp [hhands.held]
    have haligned := h.tiled.tiling.aligned _ hheld
    have hmerged := fun x => @Aligned.merged_covers _ _ x _ haligned
    -- the buddy lies in the span, and the tree finds it
    have hspan : region.Has (buddy taskArenaAlign ⟨offset, cls⟩).start := by
      apply h.laid.has_of_covers haligned.merged hlevel
        ((hmerged _).mpr (Or.inl (covers_start _)))
        ((hmerged _).mpr (Or.inr (covers_start _))) hhas
    have hbuddy := h.laid.buddyOf_eq hlevel haligned hhas.1
    obtain ⟨lists, hshows⟩ := h.shows
    have hbits := hshows.bits (buddy taskArenaAlign ⟨offset, cls⟩)
      (show cls < taskArenaClassCount by omega) (buddy_aligned _) hspan
    simp only [BuddyRegion.mergeUp, hbuddy]
    split
    · rename_i hfree
      have hfree := hbits.mp hfree
      obtain ⟨hstands₁, hkeeps₁⟩ := @Stands.removeFree _ _ _ _
        (buddy taskArenaAlign ⟨offset, cls⟩).start cls h (by omega) hfree hspan
      have hhands₁ : ∀ c, update holding (buddy taskArenaAlign ⟨offset, cls⟩)
          (some .hand) c = some .hand
          ↔ c = ⟨offset, cls⟩ ∨ c = buddy taskArenaAlign ⟨offset, cls⟩ := by
        intro c
        rw [update_apply]
        split_ifs with heq <;> simp [heq, hhands c, eq_comm]
      have hhas₁ := has_congr (@removeFree_span memory region
        (buddy taskArenaAlign ⟨offset, cls⟩).start cls).1 removeFree_span.2
      obtain ⟨hstands₂, hkeeps₂, hhands₂, hhas₂⟩ := hstands₁.merge hhands₁
        (by rw [hhas₁]; exact hhas) hlevel
      have habove' : cls + 1 + above + 1 = taskArenaClassCount := by omega
      obtain ⟨o, c, m, r, hold, hrun, hturns, hrhas, hrest⟩ := ih hstands₂ hhands₂ hhas₂ habove'
      refine ⟨o, c, m, r, hold, hrun, ?_, ?_, hrest⟩
      · rw [hhas₁] at hkeeps₂
        exact hturns.after (hkeeps₁.trans hkeeps₂) removeFree_span.1 removeFree_span.2
      · rw [hhas₁] at hrhas
        exact hrhas
    · rename_i hnot
      refine ⟨offset, cls, memory, region, holding, rfl,
        ⟨h, Keeps.refl _ _ _, hhands, rfl, rfl⟩, hhas, by omega, ?_⟩
      intro _ hfree
      exact hnot (hbits.mpr hfree)

/-- The block in hand is freed. -/
theorem Stands.free (h : region.Stands total memory holding)
    (hhands : Hands holding (some ⟨offset, cls⟩)) (hhas : region.Has offset) :
  ∃ memory' region' holding', free memory region offset cls = .ok (memory', region')
    ∧ Turns total memory region holding memory' region' holding' none
  := by
  have hheld : holding ⟨offset, cls⟩ ≠ none := by simp [hhands.held]
  have haligned := h.tiled.tiling.aligned _ hheld
  have hcls : cls < taskArenaClassCount := h.tiled.levels _ hheld
  have hinside := h.laid.inside haligned hcls (covers_start _) hhas
  have hrelative : (offset - region.start) % classBytes cls = 0 := by
    apply Nat.mod_eq_zero_of_dvd
    rw [classBytes_eq]
    exact Nat.dvd_sub haligned (dvd_trans (size_dvd_top hcls) h.laid.start)
  rw [← classBytes_eq] at hinside
  obtain ⟨o, c, m, r, hold, hrun, hturns, hohas, hclt, hbuddy⟩ :=
    @Stands.mergeUp _ _ _ _ _ _ (taskArenaClassCount - 1 - cls) h hhands hhas (by omega)
  have hrhas : r.Has o := by
    rw [has_congr hturns.start hturns.len]
    exact hohas
  obtain ⟨hstands, hkeeps⟩ := hturns.stands.pushFree hclt hturns.hands.held hrhas hbuddy
  refine ⟨_, _, _, ?_, hstands, ?_, ?_, hturns.start, hturns.len⟩
  · rw [BuddyRegion.free, if_pos hcls, if_pos ⟨hinside.1, hinside.2, hrelative⟩, hrun]
  · rw [has_congr hturns.start hturns.len] at hkeeps
    exact hturns.keeps.trans hkeeps
  · intro b
    by_cases heq : b = ⟨o, c⟩
    · simp [heq]
    · rw [update_of_ne heq, hturns.hands b]
      simp [Ne.symm heq]

/-! ### Allocating -/

/-- The block in hand is split down to the class, the upper halves freed. -/
theorem Stands.splitDown {n : Nat} (h : region.Stands total memory holding)
    (hhands : Hands holding (some ⟨offset, cls + n⟩)) (hhas : region.Has offset) :
  ∃ memory' region' holding', splitDown memory region offset cls n = (memory', region')
    ∧ Turns total memory region holding memory' region' holding' (some ⟨offset, cls⟩)
  := by
  induction n generalizing memory region holding with
  | zero => exact ⟨memory, region, holding, rfl, h, Keeps.refl _ _ _, hhands, rfl, rfl⟩
  | succ n ih =>
    have hheld : holding ⟨offset, cls + (n + 1)⟩ ≠ none := by simp [hhands.held]
    have haligned := h.tiled.tiling.aligned _ hheld
    have hlevel : cls + (n + 1) < taskArenaClassCount := h.tiled.levels _ hheld
    have hpos : 0 < (⟨offset, cls + (n + 1)⟩ : Block).level := Nat.succ_pos _
    obtain ⟨hstands₁, hkeeps₁, hhands₁⟩ := h.split hhands hhas hpos
    have hlower : (⟨offset, cls + (n + 1)⟩ : Block).lower = ⟨offset, cls + n⟩ := rfl
    have hupper : (⟨offset, cls + (n + 1)⟩ : Block).upper taskArenaAlign
        = ⟨offset + classBytes (cls + n), cls + n⟩ := by
      rw [classBytes_eq]
      rfl
    have hbuddy := haligned.upper_buddy hpos
    have hspan := h.laid.has_of_covers haligned hlevel (covers_start _)
      ((covers_halves hpos).mpr (Or.inr (covers_start _))) hhas
    have hne := @lower_ne_upper taskArenaAlign ⟨offset, cls + (n + 1)⟩ _
    rw [hupper, hlower] at hbuddy hhands₁ hne
    rw [hupper] at hspan
    have hcls : cls + n < taskArenaClassCount := by omega
    obtain ⟨hstands₂, hkeeps₂⟩ := hstands₁.pushFree hcls
      ((hhands₁ _).mpr (Or.inr rfl)) hspan (by
        intro _
        rw [hbuddy, (hhands₁ _).mpr (Or.inl rfl)]
        nofun)
    obtain ⟨m, r, hold, hrun, hturns⟩ := ih hstands₂ (by
      intro c
      rw [update_apply]
      split_ifs with heq
      · simpa [heq] using hne
      · simp [hhands₁, heq, eq_comm]) hhas
    exact ⟨m, r, hold, hrun, hturns.after (hkeeps₁.trans hkeeps₂) rfl rfl⟩

theorem source_cases (cls : Nat) :
  (region.source cls = none ∧ ∀ c, cls ≤ c → c < taskArenaClassCount →
      region.freeHeads c = taskArenaBlockNull)
    ∨ ∃ c, region.source cls = some c ∧ cls ≤ c ∧ c < taskArenaClassCount
        ∧ region.freeHeads c ≠ taskArenaBlockNull
  := by
  cases hsource : region.source cls with
  | none =>
    left
    refine ⟨rfl, ?_⟩
    intro c hle hlt
    have hnone := List.find?_eq_none.mp hsource c (by
      rw [List.mem_range'_1]
      omega)
    simpa using hnone
  | some c =>
    right
    have hmem := List.mem_of_find?_eq_some hsource
    have hhead := List.find?_some hsource
    rw [List.mem_range'_1] at hmem
    refine ⟨c, rfl, hmem.1, by omega, ?_⟩
    simpa using hhead

/-- The tree gives a block of the class, or has no free block that can hold one. -/
theorem Stands.allocate (h : region.Stands total memory holding) (hhands : Hands holding none)
    (cls : Nat) :
  (allocate memory region cls = .ok (none, memory, region)
      ∧ ∀ b, holding b = some .free → region.Has b.start → b.level < cls)
    ∨ ∃ offset memory' region' holding',
        allocate memory region cls = .ok (some offset, memory', region')
        ∧ Turns total memory region holding memory' region' holding' (some ⟨offset, cls⟩)
        ∧ region.Has offset
  := by
  obtain ⟨lists, hshows⟩ := h.shows
  rcases @source_cases region cls with ⟨hsource, hempty⟩ | ⟨c, hsource, hle, hlt, hhead⟩
  · left
    constructor
    · rw [BuddyRegion.allocate, hsource]
    · intro b hb hhas
      by_contra hlevel
      have hblevel := h.tiled.levels b (by simp [hb])
      have hnil := (hshows.head_eq_null h.laid hblevel).mp
        (hempty b.level (Nat.le_of_not_lt hlevel) hblevel)
      have hmem := (hshows.mem b.level hblevel b.start).mpr ⟨hb, hhas⟩
      rw [hnil] at hmem
      exact List.not_mem_nil hmem
  · right
    obtain ⟨hfree, hhas⟩ := (hshows.mem c hlt _).mp (hshows.head_mem hlt hhead)
    obtain ⟨hstands₁, hkeeps₁⟩ := h.removeFree hlt hfree hhas
    have hspan := @removeFree_span memory region (region.freeHeads c) c
    have hhas₁ := has_congr hspan.1 hspan.2
    have hclass : cls + (c - cls) = c := Nat.add_sub_cancel' hle
    have hhands₁ : Hands (update holding ⟨region.freeHeads c, c⟩ (some .hand))
        (some ⟨region.freeHeads c, cls + (c - cls)⟩) := by
      rw [hclass]
      intro b
      by_cases heq : b = ⟨region.freeHeads c, c⟩
      · simp [heq]
      · rw [update_of_ne heq, hhands b]
        simp [Ne.symm heq]
    obtain ⟨m, r, hold, hrun, hturns⟩ := hstands₁.splitDown hhands₁ (by
      rw [hhas₁]
      exact hhas)
    refine ⟨region.freeHeads c, m, r, hold, ?_, hturns.after hkeeps₁ hspan.1 hspan.2, hhas⟩
    rw [BuddyRegion.allocate, hsource]
    simp only [BuddyRegion.popFree, if_neg hhead]
    rw [hrun]

end BuddyRegion

end Helios.Arena
