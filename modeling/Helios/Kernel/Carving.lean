import Helios.Kernel.PageMap

/-!
# Carving regions

What the operations on ranges and the loops over regions do, address by address: removing a
range from the regions leaves every other address in the region it was in, the coverage test
looks at every address of a range, and the two lists of a plan are the addresses inside and
outside the regions.
-/

namespace Helios

open VirtRange List Nat

variable {range a b c : VirtRange} {addr stop cursor : Nat} {regions : List CommittedRegion}
  {region rest : CommittedRegion}

/-! ### Addresses of a range -/

namespace VirtRange

theorem endAddr_le (range : VirtRange) :
  range.endAddr ≤ 2 ^ 64 - 1
  := min_le_right _ _

theorem endAddr_mk {start : Nat} (h : start ≤ stop) (hstop : stop ≤ 2 ^ 64 - 1) :
  (⟨start, stop - start⟩ : VirtRange).endAddr = stop
  := by
  simp only [endAddr, Machine.satAdd, Machine.maxWord]
  omega

theorem contains_iff :
  range.contains addr = true ↔ range.start ≤ addr ∧ addr < range.endAddr
  := by
  simp [contains]

theorem contains_eq_false :
  range.contains addr = false ↔ ¬ (range.start ≤ addr ∧ addr < range.endAddr)
  := by
  rw [← contains_iff, Bool.not_eq_true]

theorem lt_of_contains (h : range.contains addr = true) :
  addr < 2 ^ 64 - 1
  := lt_of_lt_of_le (contains_iff.mp h).2 range.endAddr_le

theorem contains_start (h : range.Paged) :
  range.contains range.start = true
  := contains_iff.mpr ⟨le_refl _, h.nonempty⟩

theorem Apart.symm (h : a.Apart b) :
  b.Apart a
  := by
  intro addr hb
  cases ha : a.contains addr with
  | false => rfl
  | true => rw [h addr ha] at hb; contradiction

/-- Ranges inside ranges that are apart are apart. -/
theorem Apart.mono {a' b' : VirtRange} (h : a.Apart b)
    (ha : ∀ addr, a'.contains addr = true → a.contains addr = true)
    (hb : ∀ addr, b'.contains addr = true → b.contains addr = true) :
  a'.Apart b'
  := by
  intro addr ha'
  have hnot := h addr (ha addr ha')
  cases hb' : b'.contains addr with
  | false => rfl
  | true => rw [hb addr hb'] at hnot; contradiction

end VirtRange

theorem rangesOverlap_iff :
  rangesOverlap a b = true ↔ a.start < b.endAddr ∧ b.start < a.endAddr
  := by
  simp [rangesOverlap]

theorem rangeContains_iff :
  rangeContains a b = true ↔ a.start ≤ b.start ∧ b.endAddr ≤ a.endAddr
  := by
  simp [rangeContains]

theorem contains_of_rangeContains (h : rangeContains a b = true) (haddr : b.contains addr = true) :
  a.contains addr = true
  := by
  rw [contains_iff] at haddr ⊢
  rw [rangeContains_iff] at h
  omega

theorem apart_of_not_overlap (h : rangesOverlap a b = false) :
  a.Apart b
  := by
  intro addr ha
  rw [contains_iff] at ha
  rw [contains_eq_false]
  rw [← Bool.not_eq_true, rangesOverlap_iff] at h
  omega

theorem not_apart_of_overlap (ha : a.Paged) (hb : b.Paged) (h : rangesOverlap a b = true) :
  ¬ a.Apart b
  := by
  intro hapart
  rw [rangesOverlap_iff] at h
  have hna := ha.nonempty
  have hnb := hb.nonempty
  have hin : a.contains (max a.start b.start) = true := by
    rw [contains_iff]
    omega
  have hout := hapart _ hin
  rw [contains_eq_false] at hout
  omega

theorem rangeIntersection_eq_some (h : rangeIntersection a b = some c) :
  c.start = max a.start b.start ∧ c.endAddr = min a.endAddr b.endAddr ∧ c.start < c.endAddr
  := by
  simp only [rangeIntersection] at h
  split at h <;> cases h
  rename_i hlt
  have hend := a.endAddr_le
  rw [endAddr_mk (by omega) (by omega)]
  exact ⟨rfl, rfl, hlt⟩

theorem contains_rangeIntersection (h : rangeIntersection a b = some c) :
  c.contains addr = true ↔ a.contains addr = true ∧ b.contains addr = true
  := by
  obtain ⟨hstart, hend, _⟩ := rangeIntersection_eq_some h
  simp only [contains_iff]
  omega

theorem exists_rangeIntersection (ha : a.contains addr = true) (hb : b.contains addr = true) :
  ∃ c, rangeIntersection a b = some c
  := by
  rw [contains_iff] at ha hb
  simp only [rangeIntersection]
  rw [if_pos (by omega)]
  exact ⟨_, rfl⟩

/-! ### Ranges of whole pages -/

/-- A range that the validation accepts is made of whole pages. -/
theorem ReservationTracker.Usable.paged (h : ReservationTracker.Usable range) :
  range.Paged
  := by
  obtain ⟨hstart, _, hvalid⟩ := h
  rw [validateRange] at hvalid
  split at hvalid
  · cases hvalid
  · split at hvalid
    · cases hvalid
    · rename_i hlen haligned
      have hpage : range.start % pageSize = 0 ∧ range.byteLen % pageSize = 0 := by
        simpa [isPageAligned] using haligned
      simp only [pageSize] at hpage
      constructor
      · exact hpage.1
      all_goals
        simp only [endAddr, Machine.satAdd, Machine.maxWord, pageSize]
        omega

/-- A range of whole pages contains an address when it contains the page. -/
theorem VirtRange.Paged.contains_pageBase (h : range.Paged) (haddr : addr < 2 ^ 64 - 1) :
  range.contains (pageBase addr) = range.contains addr
  := by
  have hstart := h.start
  have hend := h.endAddr
  rw [Bool.eq_iff_iff, contains_iff, contains_iff]
  simp only [pageSize, pageBase] at *
  omega

theorem isPage_pageBase (addr : Nat) :
  IsPage (pageBase addr)
  := by
  simp only [IsPage, pageBase, pageSize]
  omega

theorem contains_page_iff {other : Nat} (h : (⟨addr, pageSize⟩ : VirtRange).Paged)
    (hother : IsPage other) :
  (⟨addr, pageSize⟩ : VirtRange).contains other = true ↔ other = addr
  := by
  have hstart := h.start
  have hend := h.nonempty
  rw [contains_iff]
  simp only [endAddr, Machine.satAdd, pageSize, IsPage] at *
  omega

theorem VirtRange.Paged.intersection (ha : a.Paged) (hb : b.Paged)
    (h : rangeIntersection a b = some c) :
  c.Paged
  := by
  obtain ⟨hstart, hend, hlt⟩ := rangeIntersection_eq_some h
  constructor
  · rcases le_total a.start b.start with hle | hle
    · rw [hstart, max_eq_right hle]
      exact hb.start
    · rw [hstart, max_eq_left hle]
      exact ha.start
  · rcases le_total a.endAddr b.endAddr with hle | hle
    · rw [hend, min_eq_left hle]
      exact ha.endAddr
    · rw [hend, min_eq_right hle]
      exact hb.endAddr
  · exact hlt

/-! ### Removing a range from regions -/

/-- What becomes of a region when a range is removed. -/
def kept (range : VirtRange) (region : CommittedRegion) : List CommittedRegion :=
  if rangesOverlap region.range range then leftover range region else [region]

theorem removeCommittedRange_perm (regions : List CommittedRegion) (range : VirtRange) :
  (removeCommittedRange regions range).Perm (regions.flatMap (kept range))
  := by
  apply VecScan.replaceFrom_perm
  nofun

theorem mem_removeCommittedRange :
  rest ∈ removeCommittedRange regions range ↔ ∃ region ∈ regions, rest ∈ kept range region
  := by
  rw [(removeCommittedRange_perm regions range).mem_iff, mem_flatMap]

/-- What is kept is the region itself, or what is left of it on one side of the range. -/
theorem mem_kept (h : rest ∈ kept range region) :
  rest.flags = region.flags ∧ rest.owner = region.owner ∧
    (rest.range = region.range ∧ rangesOverlap region.range range = false ∨
      rangesOverlap region.range range = true ∧
        ((region.range.start < range.start ∧ rest.range.start = region.range.start ∧
            rest.range.endAddr = range.start) ∨
          (range.endAddr < region.range.endAddr ∧ rest.range.start = range.endAddr ∧
            rest.range.endAddr = region.range.endAddr)))
  := by
  have hend := region.range.endAddr_le
  rw [kept] at h
  split at h
  · rename_i hover
    have hlts := rangesOverlap_iff.mp hover
    rcases mem_append.mp h with h | h
    all_goals
      split at h <;> simp only [mem_singleton, not_mem_nil] at h
      subst h
      rename_i hlt
      have hstop := endAddr_mk (le_of_lt hlt) (by omega)
    · exact ⟨rfl, rfl, .inr ⟨hover, .inl ⟨hlt, rfl, hstop⟩⟩⟩
    · exact ⟨rfl, rfl, .inr ⟨hover, .inr ⟨hlt, rfl, hstop⟩⟩⟩
  · rw [mem_singleton.mp h]
    exact ⟨rfl, rfl, .inl ⟨rfl, Bool.not_eq_true _ ▸ ‹_›⟩⟩

theorem contains_of_mem_kept (h : rest ∈ kept range region)
    (haddr : rest.range.contains addr = true) :
  region.range.contains addr = true ∧ range.contains addr = false
  := by
  obtain ⟨_, _, ⟨heq, hover⟩ | ⟨hover, hends⟩⟩ := mem_kept h
  · rw [heq] at haddr
    exact ⟨haddr, apart_of_not_overlap hover addr haddr⟩
  · rw [rangesOverlap_iff] at hover
    rw [contains_iff] at haddr ⊢
    rw [contains_eq_false]
    omega

theorem exists_mem_kept (hin : region.range.contains addr = true)
    (hout : range.contains addr = false) :
  ∃ rest ∈ kept range region, rest.range.contains addr = true
  := by
  rw [kept]
  split
  · rename_i hover
    rw [contains_iff] at hin
    rw [contains_eq_false] at hout
    rw [rangesOverlap_iff] at hover
    have hend := region.range.endAddr_le
    rcases lt_or_ge addr range.start with hlt | hge
    · have hpiece : region.range.start < range.start := by omega
      use { region with range := ⟨region.range.start, range.start - region.range.start⟩ }
      constructor
      · simp [leftover, hpiece]
      · rw [contains_iff, endAddr_mk (by omega) (by omega)]
        exact ⟨hin.1, hlt⟩
    · have hpiece : range.endAddr < region.range.endAddr := by omega
      use { region with range := ⟨range.endAddr, region.range.endAddr - range.endAddr⟩ }
      constructor
      · simp [leftover, hpiece]
      · rw [contains_iff, endAddr_mk (by omega) (by omega)]
        simp only
        omega
  · exact ⟨region, mem_singleton_self _, hin⟩

/-- An address with a property of its flags and its owner is in a region after a removal when it
was before and is outside the range. -/
theorem exists_removeCommittedRange {regions : List CommittedRegion} {range : VirtRange}
    {addr : Nat} {holds : PageFlags → MemoryOwner → Prop} :
  (∃ rest ∈ removeCommittedRange regions range,
      rest.range.contains addr = true ∧ holds rest.flags rest.owner) ↔
    range.contains addr = false ∧
      ∃ region ∈ regions, region.range.contains addr = true ∧ holds region.flags region.owner
  := by
  constructor
  · rintro ⟨rest, hrest, haddr, hholds⟩
    obtain ⟨region, hmem, hkept⟩ := mem_removeCommittedRange.mp hrest
    obtain ⟨hin, hout⟩ := contains_of_mem_kept hkept haddr
    rw [(mem_kept hkept).1, (mem_kept hkept).2.1] at hholds
    exact ⟨hout, region, hmem, hin, hholds⟩
  · rintro ⟨hout, region, hmem, hin, hholds⟩
    obtain ⟨rest, hkept, haddr⟩ := exists_mem_kept hin hout
    rw [← (mem_kept hkept).1, ← (mem_kept hkept).2.1] at hholds
    exact ⟨rest, mem_removeCommittedRange.mpr ⟨region, hmem, hkept⟩, haddr, hholds⟩

theorem kept_paged (hrange : range.Paged) (hregion : region.range.Paged)
    (h : rest ∈ kept range region) :
  rest.range.Paged
  := by
  obtain ⟨_, _, ⟨heq, _⟩ | ⟨_, ⟨hlt, hstart, hend⟩ | ⟨hlt, hstart, hend⟩⟩⟩ := mem_kept h
  · rwa [heq]
  · constructor
    · rw [hstart]
      exact hregion.start
    · rw [hend]
      exact .inl hrange.start
    · rwa [hstart, hend]
  · have hle := region.range.endAddr_le
    constructor
    · rw [hstart]
      rcases hrange.endAddr with hpage | hmax
      · exact hpage
      · omega
    · rw [hend]
      exact hregion.endAddr
    · rwa [hstart, hend]

theorem rangeContains_kept {outer : VirtRange} (hinside : rangeContains outer region.range = true)
    (h : rest ∈ kept range region) :
  rangeContains outer rest.range = true
  := by
  obtain ⟨_, _, ⟨heq, _⟩ | ⟨hover, hends⟩⟩ := mem_kept h
  · rwa [heq]
  · rw [rangesOverlap_iff] at hover
    rw [rangeContains_iff] at hinside ⊢
    omega

theorem kept_apart (region : CommittedRegion) (hrange : range.Paged) :
  (kept range region).Pairwise fun a b => a.range.Apart b.range
  := by
  have hlt := hrange.nonempty
  rw [kept]
  split
  · rw [leftover, pairwise_append]
    constructor
    · split <;> simp
    constructor
    · split <;> simp
    · intro a ha b hb addr haddr
      split at ha
      · split at hb
        · rw [mem_singleton.mp ha] at haddr
          rw [mem_singleton.mp hb]
          have hend := region.range.endAddr_le
          rw [contains_iff, endAddr_mk (by omega) (by omega)] at haddr
          rw [contains_eq_false]
          simp only
          omega
        · cases hb
      · cases ha
  · exact pairwise_singleton _ _

theorem removeCommittedRange_apart (hrange : range.Paged)
    (h : regions.Pairwise fun a b => a.range.Apart b.range) :
  (removeCommittedRange regions range).Pairwise fun a b => a.range.Apart b.range
  := by
  have hperm := removeCommittedRange_perm regions range
  rw [hperm.pairwise_iff fun hab => hab.symm, pairwise_flatMap]
  constructor
  · intro region _
    exact kept_apart region hrange
  · apply h.imp
    intro a b hab rest hrest rest' hrest'
    apply hab.mono
    · intro addr haddr
      exact (contains_of_mem_kept hrest haddr).1
    · intro addr haddr
      exact (contains_of_mem_kept hrest' haddr).1

/-! ### Following regions -/

/-- An address is in one of the regions. -/
def Covered (regions : List CommittedRegion) (addr : Nat) : Prop :=
  ∃ region ∈ regions, region.range.contains addr = true

theorem findRegion_eq_some (h : findRegion regions addr = some region) :
  region ∈ regions ∧ region.range.contains addr = true
  := by
  constructor
  · exact mem_of_find?_eq_some h
  · have hcontains := find?_some h
    exact hcontains

theorem not_covered_of_findRegion (h : findRegion regions addr = none) :
  ¬ Covered regions addr
  := by
  rintro ⟨region, hmem, haddr⟩
  have hnone := find?_eq_none.mp h region hmem
  exact hnone haddr

theorem coversFrom_iff (regions : List CommittedRegion) (stop cursor : Nat) :
  coversFrom regions stop cursor = true ↔ ∀ addr, cursor ≤ addr → addr < stop → Covered regions addr
  := by
  fun_induction coversFrom regions stop cursor with
  | case1 cursor hlt hnone =>
    simp only [Bool.false_eq_true, false_iff, not_forall]
    exact ⟨cursor, le_refl _, hlt, not_covered_of_findRegion hnone⟩
  | case2 cursor hlt region hsome ih =>
    rw [ih]
    obtain ⟨hmem, haddr⟩ := findRegion_eq_some hsome
    rw [contains_iff] at haddr
    constructor
    · intro h addr hge hstop
      rcases lt_or_ge addr region.range.endAddr with hin | hout
      · exact ⟨region, hmem, contains_iff.mpr ⟨by omega, hin⟩⟩
      · exact h addr (by omega) hstop
    · intro h addr hge
      exact h addr (by omega)
  | case3 cursor hge =>
    simp only [true_iff]
    omega

theorem committedRegionsCover_iff :
  committedRegionsCover regions range = true ↔
    ∀ addr, range.contains addr = true → Covered regions addr
  := by
  rw [committedRegionsCover, coversFrom_iff]
  simp only [contains_iff, and_imp]

/-- Between an address in no region and the next start there is no region. -/
theorem not_covered_before_next (hcursor : ¬ Covered regions cursor) (hge : cursor ≤ addr)
    (hlt : addr < nextCommittedStart regions cursor stop) (hstop : addr < stop) :
  ¬ Covered regions addr
  := by
  rintro ⟨region, hmem, haddr⟩
  rw [contains_iff] at haddr
  have hstart : cursor < region.range.start := by
    rcases lt_or_ge cursor region.range.start with h | h
    · exact h
    · exact absurd ⟨region, hmem, contains_iff.mpr ⟨h, by omega⟩⟩ hcursor
  have hnext : nextCommittedStart regions cursor stop ≤ region.range.start := by
    rw [nextCommittedStart]
    have hin : region.range.start ∈ regions.filterMap fun region =>
        if cursor < region.range.start ∧ region.range.start < stop then some region.range.start
        else none := by
      rw [mem_filterMap]
      exact ⟨region, hmem, if_pos ⟨hstart, by omega⟩⟩
    cases hmin : (regions.filterMap fun region =>
        if cursor < region.range.start ∧ region.range.start < stop then some region.range.start
        else none).min? with
    | none =>
      rw [min?_eq_none_iff.mp hmin] at hin
      cases hin
    | some least => exact (min?_eq_some_iff.mp hmin).2 _ hin
  omega

/-- An address that a range of whole pages may end at. -/
def Edge (addr : Nat) : Prop := addr % pageSize = 0 ∨ addr = 2 ^ 64 - 1

/-- What the loop from a cursor puts into a list: ascending ranges between the cursor and the
end, of whole pages, and exactly the addresses there with a property. -/
structure Stretches (ranges : List VirtRange) (cursor stop : Nat) (holds : Nat → Prop) : Prop where
  paged : ∀ range ∈ ranges, range.Paged
  ascending : ranges.Pairwise fun a b => a.endAddr ≤ b.start
  mem : ∀ addr, (∃ range ∈ ranges, range.contains addr = true) ↔
    cursor ≤ addr ∧ addr < stop ∧ holds addr

variable {holds : Nat → Prop}

theorem Stretches.nil {cursor stop : Nat} (h : stop ≤ cursor) :
  Stretches [] cursor stop holds
  := by
  constructor
  · nofun
  · exact Pairwise.nil
  · intro addr
    constructor
    · rintro ⟨range, hmem, _⟩
      cases hmem
    · omega

variable {ranges : List VirtRange}

/-- A stretch of addresses with the property goes in front. -/
theorem Stretches.cons {cursor next stop : Nat} (h : Stretches ranges next stop holds)
    (hstart : cursor % pageSize = 0) (hedge : Edge next) (hlt : cursor < next) (hle : next ≤ stop)
    (hstop : stop ≤ 2 ^ 64 - 1) (hin : ∀ addr, cursor ≤ addr → addr < next → holds addr) :
  Stretches (⟨cursor, next - cursor⟩ :: ranges) cursor stop holds
  := by
  have hend := endAddr_mk (le_of_lt hlt) (le_trans hle hstop)
  constructor
  · rw [forall_mem_cons]
    exact ⟨⟨hstart, by rwa [hend], by rwa [hend]⟩, h.paged⟩
  · constructor
    · intro range hmem
      have hfirst := contains_start (h.paged range hmem)
      have hbound := (h.mem range.start).mp ⟨range, hmem, hfirst⟩
      rw [hend]
      exact hbound.1
    · exact h.ascending
  · intro addr
    rw [exists_mem_cons_iff, h.mem addr, contains_iff, hend]
    constructor
    · rintro (⟨hge, hnext⟩ | ⟨hge, hlast, hholds⟩)
      · exact ⟨hge, by omega, hin addr hge hnext⟩
      · exact ⟨by omega, hlast, hholds⟩
    · rintro ⟨hge, hlast, hholds⟩
      rcases lt_or_ge addr next with hnext | hnext
      · exact .inl ⟨hge, hnext⟩
      · exact .inr ⟨hnext, hlast, hholds⟩

/-- A stretch of addresses without the property is passed over. -/
theorem Stretches.skip {cursor next stop : Nat} (h : Stretches ranges next stop holds)
    (hle : cursor ≤ next) (hout : ∀ addr, cursor ≤ addr → addr < next → ¬ holds addr) :
  Stretches ranges cursor stop holds
  := by
  refine { h with mem := ?_ }
  · intro addr
    rw [h.mem addr]
    constructor
    · rintro ⟨hge, hlast, hholds⟩
      exact ⟨by omega, hlast, hholds⟩
    · rintro ⟨hge, hlast, hholds⟩
      rcases lt_or_ge addr next with hnext | hnext
      · exact absurd hholds (hout addr hge hnext)
      · exact ⟨hnext, hlast, hholds⟩

theorem Stretches.apart {cursor stop : Nat} (h : Stretches ranges cursor stop holds) :
  ranges.Pairwise Apart
  := by
  apply h.ascending.imp
  intro a b hab addr haddr
  rw [contains_iff] at haddr
  rw [contains_eq_false]
  omega

theorem nextCommittedStart_edge {regions : List CommittedRegion} {cursor stop : Nat}
    (hregions : ∀ region ∈ regions, region.range.Paged) (hstop : Edge stop) :
  Edge (nextCommittedStart regions cursor stop)
  := by
  rw [nextCommittedStart]
  cases hmin : (regions.filterMap fun region =>
      if cursor < region.range.start ∧ region.range.start < stop then some region.range.start
      else none).min? with
  | none => exact hstop
  | some start =>
    have hmem := min?_mem hmin
    rw [mem_filterMap] at hmem
    obtain ⟨region, hregion, hstart⟩ := hmem
    split at hstart <;> cases hstart
    exact .inl (hregions region hregion).start

/-- The two lists of the loop: the addresses in regions, and those in none. -/
theorem planFrom_stretches {regions : List CommittedRegion} {stop cursor : Nat}
    (hregions : ∀ region ∈ regions, region.range.Paged) (hstop : stop ≤ 2 ^ 64 - 1)
    (hedge : Edge stop) (hcursor : cursor < stop → cursor % pageSize = 0) :
  Stretches (planFrom regions stop cursor).protect cursor stop (Covered regions) ∧
    Stretches (planFrom regions stop cursor).commit cursor stop (fun addr => ¬ Covered regions addr)
  := by
  fun_induction planFrom regions stop cursor with
  | case1 cursor hlt region hsome next plan ih =>
    obtain ⟨hmem, haddr⟩ := findRegion_eq_some hsome
    rw [contains_iff] at haddr
    have hnext : cursor < min region.range.endAddr stop := by omega
    have hle : min region.range.endAddr stop ≤ stop := min_le_right _ _
    have hnextEdge : Edge (min region.range.endAddr stop) :=
      min_rec' Edge (hregions region hmem).endAddr hedge
    have hin : ∀ addr, cursor ≤ addr → addr < min region.range.endAddr stop →
        Covered regions addr := by
      intro addr hge hlt
      exact ⟨region, hmem, contains_iff.mpr ⟨by omega, by omega⟩⟩
    obtain ⟨hprotect, hcommit⟩ := ih fun hlt => hnextEdge.resolve_right (by omega)
    constructor
    · exact hprotect.cons (hcursor hlt) hnextEdge hnext hle hstop hin
    · apply hcommit.skip (le_of_lt hnext)
      intro addr hge hlt
      exact not_not_intro (hin addr hge hlt)
  | case2 cursor hlt hnone next plan ih =>
    obtain ⟨hnext, hle⟩ := lt_nextCommittedStart regions hlt
    have hnextEdge := @nextCommittedStart_edge regions cursor stop hregions hedge
    have hout : ∀ addr, cursor ≤ addr → addr < nextCommittedStart regions cursor stop →
        ¬ Covered regions addr := by
      intro addr hge hlt
      exact not_covered_before_next (not_covered_of_findRegion hnone) hge hlt (by omega)
    obtain ⟨hprotect, hcommit⟩ := ih fun hlt => hnextEdge.resolve_right (by omega)
    constructor
    · exact hprotect.skip (le_of_lt hnext) hout
    · exact hcommit.cons (hcursor hlt) hnextEdge hnext hle hstop hout
  | case3 cursor hge =>
    exact ⟨.nil (by omega), .nil (by omega)⟩

end Helios
