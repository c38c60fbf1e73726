import Helios.Kernel.UserAddressSpace

/-!
# Swapping a page out under an operation

Whether it makes a difference to the operations on a range that a committed page inside it has
been swapped out.  It does: the page counts as committed no more, so a range with it is neither
decommitted nor protected, and making the range accessible maps a new page over it.  Only where
the range is in no reservation, and every operation fails anyway, is there no difference.
-/

namespace Helios

open ReservationTracker ReservationTracker VirtRange UserAddressSpace

/-! ### Filling ranges -/

variable {ranges : List VirtRange}

namespace PageMap

variable {addr : Nat} {flags : PageFlags}

/-- Commits every page of some ranges. -/
def fill (map : PageMap) (flags : PageFlags) (ranges : List VirtRange) : PageMap :=
  ranges.foldl (fun map range => map.change range fun _ => .committed flags) map

theorem fill_live (map : PageMap) (flags : PageFlags) (ranges : List VirtRange) :
  (map.fill flags ranges).live = map.live
  := by
  induction ranges generalizing map with
  | nil => rfl
  | cons range ranges ih =>
    rw [fill, List.foldl_cons, ← fill, ih]
    rfl

theorem fill_page_of_mem {map : PageMap}
    (h : map.page addr = .committed flags ∨ ∃ range ∈ ranges, range.contains addr = true) :
  (map.fill flags ranges).page addr = .committed flags
  := by
  induction ranges generalizing map with
  | nil =>
    rcases h with h | ⟨range, hmem, _⟩
    · exact h
    · cases hmem
  | cons range ranges ih =>
    apply ih
    rw [List.exists_mem_cons_iff] at h
    simp only [change]
    split
    · exact .inl rfl
    · rename_i hout
      rcases h with h | h | h
      · exact .inl h
      · exact absurd h hout
      · exact .inr h

theorem fill_page_of_not_mem {map : PageMap} (h : ¬ ∃ range ∈ ranges, range.contains addr = true) :
  (map.fill flags ranges).page addr = map.page addr
  := by
  induction ranges generalizing map with
  | nil => rfl
  | cons range ranges ih =>
    rw [List.exists_mem_cons_iff, not_or] at h
    rw [fill, List.foldl_cons, ← fill, ih h.2]
    simp only [change, if_neg h.1]

/-- A range inside a reservation with every page committed. -/
structure Protectable (map : PageMap) (virt : VirtRange) : Prop where
  paged : virt.Paged
  inside : map.Inside virt
  pages : map.AllCommitted virt

/-- A range inside a reservation with no page committed. -/
structure Committable (map : PageMap) (virt : VirtRange) : Prop where
  paged : virt.Paged
  inside : map.Inside virt
  pages : ∀ addr, IsPage addr → virt.contains addr = true →
    ¬ ∃ flags, map.page addr = .committed flags

variable {map : PageMap} {range other : VirtRange}

theorem change_page_of_apart {f : PageState → PageState} (h : range.Apart other)
    (hin : other.contains addr = true) :
  (map.change range f).page addr = map.page addr
  := by
  simp [change, h.symm addr hin]

theorem Protectable.change (h : map.Protectable other) (hapart : range.Apart other)
    (f : PageState → PageState) :
  (map.change range f).Protectable other
  := by
  refine ⟨h.paged, h.inside, ?_⟩
  intro addr hpage hin
  rw [change_page_of_apart hapart hin]
  exact h.pages addr hpage hin

theorem Committable.change (h : map.Committable other) (hapart : range.Apart other)
    (f : PageState → PageState) :
  (map.change range f).Committable other
  := by
  refine ⟨h.paged, h.inside, ?_⟩
  intro addr hpage hin
  rw [change_page_of_apart hapart hin]
  exact h.pages addr hpage hin

end PageMap

/-! ### Making a range accessible -/

namespace UserAddressSpace

variable {virt range sub : VirtRange}

variable {tables : PageTables} {owner : MemoryOwner} {space : UserAddressSpace} {map : PageMap}
variable {flags : PageFlags}

/-- A protection of committed pages succeeds when the page tables allow it. -/
theorem protectLocked_agrees (h : space.tracker.Agrees map) (hflags : flags.bits ≠ 0)
    (htables : tables.protect virt = .ok ()) (hready : map.Protectable virt) :
  ∃ next, space.protectLocked tables virt flags = (.ok (), next) ∧
    next.tracker.Agrees (map.change virt fun _ => .committed flags)
  := by
  obtain ⟨hvirt, hinside, hall⟩ := hready
  obtain ⟨reservation, hfind⟩ := h.find_ok hinside
  have hcover := (h.cover_iff hvirt hfind).mpr hall
  have hcheck : space.tracker.ensureCommitted virt = .ok () := by
    rw [ensureCommitted_eq hfind, if_pos hcover]
  have hunswapped := unswapped_of_cover (h.wf.reservations _ (find_eq_ok hfind).1) hcover
  have hrecord := recordProtect_eq hfind flags hunswapped
  have hnext := @Agrees.recordProtect _ _ _ flags h hvirt hcheck
  rw [PageMap.after, if_pos hinside, after, hrecord] at hnext
  rw [protectLocked, pageFlagsToPte, if_neg hflags, hcheck, htables, hrecord]
  exact ⟨_, rfl, hnext⟩

theorem precheckCommit_eq {tracker : ReservationTracker} (h : tracker.Agrees map)
    (hready : map.Committable virt) :
  tracker.precheckCommit virt = .ok ()
  := by
  obtain ⟨hvirt, hinside, hnone⟩ := hready
  obtain ⟨reservation, hfind⟩ := h.find_ok hinside
  obtain ⟨hmem, hcontains, hwf⟩ := h.found hfind
  have hapart : ¬ (reservation.committed.any fun region => rangesOverlap region.range virt) := by
    intro hany
    obtain ⟨region, hregion, hover⟩ := List.any_eq_true.mp hany
    apply not_apart_of_overlap (hwf.regions region hregion) hvirt hover
    intro addr hin
    cases hvirtAddr : virt.contains addr with
    | false => rfl
    | true =>
      have hlt := lt_of_contains hin
      have hcovered := (hwf.covered_pageBase hlt).mpr ⟨region, hregion, hin⟩
      rw [← hvirt.contains_pageBase hlt] at hvirtAddr
      have hpage := isPage_pageBase addr
      rw [← h.committed_iff hmem hpage (contains_of_rangeContains hcontains hvirtAddr)] at hcovered
      exact absurd hcovered (hnone _ hpage hvirtAddr)
  rw [precheckCommit, hfind]
  simp only [bind, Except.bind]
  rw [if_neg hapart]

/-- A commit of pages that are not committed succeeds when the page tables allow it. -/
theorem commitLocked_agrees (h : space.tracker.Agrees map) {virt : VirtRange}
    (hflags : flags.bits ≠ 0) (htables : tables.map virt = .ok ())
    (hready : map.Committable virt) :
  ∃ next, space.commitLocked tables owner virt flags = (.ok (), next) ∧
    next.tracker.Agrees (map.change virt fun _ => .committed flags)
  := by
  have hcheck := precheckCommit_eq h hready
  obtain ⟨hvirt, hinside, hnone⟩ := hready
  -- The swapped pages of the range go first, and what is left is committed.
  have htaken := @Agrees.takeSwapEntriesIn _ _ virt h
  rw [PageMap.after, if_pos hinside, after] at htaken
  have hinside' : (map.change virt PageMap.dropSwapped).Inside virt := hinside
  have hready' : (map.change virt PageMap.dropSwapped).Committable virt := by
    refine ⟨hvirt, hinside', ?_⟩
    rintro addr hpage hin ⟨flags, hstate⟩
    simp only [PageMap.change, if_pos hin] at hstate
    cases hbefore : map.page addr with
    | committed flags' => exact hnone addr hpage hin ⟨flags', hbefore⟩
    | unreserved | reserved | swapped token flags' => rw [hbefore] at hstate; cases hstate
  have hcheck' := precheckCommit_eq htaken hready'
  obtain ⟨reservation, hfind⟩ := htaken.find_ok hinside'
  have hrecord := recordCommit_eq hfind flags owner
  have hnext := @Agrees.recordCommit _ _ _ flags htaken owner hvirt hcheck'
  rw [PageMap.after, if_pos hinside', after, hrecord] at hnext
  have hmap : ((map.change virt PageMap.dropSwapped).change virt fun _ => .committed flags) =
      map.change virt fun _ => .committed flags := by
    simp only [PageMap.change, PageMap.mk.injEq, true_and]
    funext addr
    split <;> rfl
  rw [hmap] at hnext
  rw [commitLocked, pageFlagsToPte, if_neg hflags, hcheck, htables]
  simp only [orphan, hrecord]
  exact ⟨_, rfl, hnext⟩

/-- Taking ranges in turn fills them, when each step does and leaves the later ones as they
should be. -/
theorem forEach_agrees
    {f : UserAddressSpace → VirtRange → Except AddressSpaceError Unit × UserAddressSpace}
    {ready : PageMap → VirtRange → Prop}
    (hstep : ∀ space map range, space.tracker.Agrees map → ready map range →
      ∃ next, f space range = (.ok (), next) ∧
        next.tracker.Agrees (map.change range fun _ => .committed flags))
    (hlater : ∀ map range other, range.Apart other → ready map other →
      ready (map.change range fun _ => .committed flags) other) (hapart : ranges.Pairwise Apart)
    {space : UserAddressSpace} {map : PageMap} (h : space.tracker.Agrees map)
    (hready : ∀ range ∈ ranges, ready map range) :
  ∃ next, forEach f space ranges = (.ok (), next) ∧ next.tracker.Agrees (map.fill flags ranges)
  := by
  induction ranges generalizing space map with
  | nil => exact ⟨space, rfl, h⟩
  | cons range ranges ih =>
    rw [List.forall_mem_cons] at hready
    rw [List.pairwise_cons] at hapart
    obtain ⟨next, heq, hagrees⟩ := hstep space map range h hready.1
    rw [forEach, heq]
    apply ih hapart.2 hagrees
    intro other hother
    exact hlater map range other (hapart.1 other hother) (hready.2 other hother)

theorem rangeContains_of_pages (hrange : range.Paged) (hsub : sub.Paged) (h : ∀ addr, IsPage addr
      → sub.contains addr = true → range.contains addr = true) :
  rangeContains range sub = true
  := by
  have hlt := hsub.nonempty
  have hend := sub.endAddr_le
  have hfirst := contains_iff.mp (h _ hsub.start (contains_start hsub))
  have hin : sub.contains (sub.endAddr - 1) = true := by
    rw [contains_iff]
    omega
  have hlast : range.contains (sub.endAddr - 1) = true := by
    rw [← hsub.contains_pageBase (by omega)] at hin
    rw [← hrange.contains_pageBase (by omega)]
    exact h _ (isPage_pageBase _) hin
  rw [contains_iff] at hlast
  rw [rangeContains_iff]
  omega

theorem inside_of_pages (hrange : range.Paged) (hsub : sub.Paged) (hinside : map.Inside range) (h
      : ∀ addr, IsPage addr → sub.contains addr = true → range.contains addr = true) :
  map.Inside sub
  := by
  obtain ⟨live, hlive, hcontains⟩ := hinside
  refine ⟨live, hlive, ?_⟩
  have hsubContains := rangeContains_of_pages hrange hsub h
  rw [rangeContains_iff] at hcontains hsubContains ⊢
  omega

/-- Making a range inside a reservation accessible commits all its pages, when the page tables
allow it. -/
theorem ensureAccessibleSubranges_agrees (h : space.tracker.Agrees map) {range : VirtRange}
    (hflags : flags.bits ≠ 0) (hmaps : ∀ virt, tables.map virt = .ok ())
    (hprotects : ∀ virt, tables.protect virt = .ok ()) (hrange : Usable range)
    (hinside : map.Inside range) :
  ∃ next map', space.ensureAccessibleSubranges tables owner range flags = (.ok (), next) ∧
    next.tracker.Agrees map' ∧
    ∀ addr, IsPage addr → range.contains addr = true → map'.page addr = .committed flags
  := by
  obtain ⟨reservation, hfind⟩ := h.find_ok hinside
  obtain ⟨plan, hplan, hprotect, hcommit⟩ := h.accessibilityPlan hrange.paged hfind
  have hprotectable : ∀ virt ∈ plan.protect, map.Protectable virt := by
    intro virt hmem
    have hpages := fun addr hpage hin => (hprotect.mem addr hpage).mp ⟨virt, hmem, hin⟩
    have hpaged := hprotect.paged virt hmem
    refine ⟨hpaged, ?_, fun addr hpage hin => (hpages addr hpage hin).2⟩
    exact inside_of_pages hrange.paged hpaged hinside
      fun addr hpage hin => (hpages addr hpage hin).1
  have hcommittable : ∀ virt ∈ plan.commit, (map.fill flags plan.protect).Committable virt := by
    intro virt hmem
    have hpages := fun addr hpage hin => (hcommit.mem addr hpage).mp ⟨virt, hmem, hin⟩
    have hpaged := hcommit.paged virt hmem
    refine ⟨hpaged, ?_, ?_⟩
    · rw [PageMap.Inside, PageMap.fill_live]
      exact inside_of_pages hrange.paged hpaged hinside
        fun addr hpage hin => (hpages addr hpage hin).1
    · intro addr hpage hin
      have hnot := (hpages addr hpage hin).2
      rw [PageMap.fill_page_of_not_mem]
      · exact hnot
      · intro hprotected
        exact hnot ((hprotect.mem addr hpage).mp hprotected).2
  obtain ⟨middle, hfirst, hmiddle⟩ := forEach_agrees
    (fun _ _ virt hagrees hready => protectLocked_agrees hagrees hflags (hprotects virt) hready)
    (fun _ _ _ hapart hready => hready.change hapart _) hprotect.apart h hprotectable
  obtain ⟨last, hsecond, hlast⟩ := forEach_agrees
    (fun _ _ virt hagrees hready => @commitLocked_agrees _ owner _ _ _ hagrees _ hflags (hmaps virt) hready)
    (fun _ _ _ hapart hready => hready.change hapart _) hcommit.apart hmiddle hcommittable
  refine ⟨last, (map.fill flags plan.protect).fill flags plan.commit, ?_, hlast, ?_⟩
  · rw [ensureAccessibleSubranges, hrange.2.2]
    simp only [hplan, hfirst]
    exact hsecond
  · intro addr hpage hin
    apply PageMap.fill_page_of_mem
    by_cases hcommitted : ∃ flags, map.page addr = .committed flags
    · apply Or.inl
      apply PageMap.fill_page_of_mem
      exact .inr ((hprotect.mem addr hpage).mpr ⟨hin, hcommitted⟩)
    · exact .inr ((hcommit.mem addr hpage).mpr ⟨hin, hcommitted⟩)

end UserAddressSpace

/-! ### Transparency -/

namespace ReservationTracker

variable {token : SwapToken}

/-- That a page is swapped out makes no difference to the operations on a range: they succeed
when they would have, a decommit returns the token, and making the range accessible leaves the
page swapped out under its token, whatever the page tables do. -/
structure Transparent (tracker : ReservationTracker) (page : Nat) (token : SwapToken)
    (range : VirtRange) : Prop where
  ensureCommitted :
    (tracker.after (.recordSwapOut page token)).ensureCommitted range = .ok () ↔
      tracker.ensureCommitted range = .ok ()
  recordProtect : ∀ flags,
    (∃ next, (tracker.after (.recordSwapOut page token)).recordProtect range flags = .ok next) ↔
      ∃ next, tracker.recordProtect range flags = .ok next
  recordDecommit :
    (∃ answer, (tracker.after (.recordSwapOut page token)).recordDecommit range = .ok answer) ↔
      ∃ answer, tracker.recordDecommit range = .ok answer
  returned : ∀ entries next,
    (tracker.after (.recordSwapOut page token)).recordDecommit range = .ok (entries, next) →
      ∃ entry ∈ entries, entry.addr = page ∧ entry.token = token
  kept : ∀ tables owner flags orphans,
    ∃ entry, (ensureAccessibleSubranges tables owner
      ⟨tracker.after (.recordSwapOut page token), orphans⟩ range flags).2.tracker.swapEntry page =
        some entry ∧ entry.token = token

variable {tracker : ReservationTracker} {map : PageMap} {page : Nat} {region : CommittedRegion}
variable {range : VirtRange}

theorem lookup_eq_committed {addr : Nat} (h : tracker.lookup addr = .committed region) :
  ∃ reservation ∈ tracker.reservations, reservation.range.contains addr = true ∧
    region ∈ reservation.committed ∧ region.range.contains addr = true
  := by
  rw [lookup] at h
  split at h
  · cases h
  · rename_i reservation hfind
    have hin := List.find?_some hfind
    split at h <;> cases h
    rename_i found hregion
    exact ⟨reservation, List.mem_of_find?_eq_some hfind, hin, findRegion_eq_some hregion⟩

theorem paged_page (hpage : IsPage page) (hlt : page < 2 ^ 64 - 1) :
  (⟨page, pageSize⟩ : VirtRange).Paged
  := by
  constructor
  · exact hpage
  all_goals
    simp only [endAddr, Machine.satAdd, Machine.maxWord, pageSize, IsPage] at *
    omega

section

variable (h : Runs tracker map)

include h

theorem Runs.page_committed (hpage : IsPage page)
    (hlookup : tracker.lookup page = .committed region) :
  map.page page = .committed region.flags ∧ map.Inside ⟨page, pageSize⟩ ∧
    (⟨page, pageSize⟩ : VirtRange).Paged
  := by
  obtain ⟨reservation, hmem, hin, hregion, hregionIn⟩ := lookup_eq_committed hlookup
  have hagrees := h.agrees
  refine ⟨?_, ?_, paged_page hpage (lt_of_contains hin)⟩
  · exact hagrees.page_eq hmem hpage hin ⟨region, hregion, hregionIn, rfl⟩
  · refine ⟨reservation.range, (hagrees.live _).mpr ⟨reservation, hmem, rfl⟩, ?_⟩
    exact rangeContains_page (hagrees.wf.reservations reservation hmem).paged hpage hin

/-- The map after the page is swapped out. -/
theorem Runs.swapped (hpage : IsPage page) (token : SwapToken)
    (hlookup : tracker.lookup page = .committed region) :
  ∃ map', (tracker.after (.recordSwapOut page token)).Agrees map' ∧
    (∀ range, map'.Inside range ↔ map.Inside range) ∧ map'.page page = .swapped token region.flags
  := by
  obtain ⟨hstate, hinside, hpaged⟩ := h.page_committed hpage hlookup
  have hagrees := @Agrees.recordSwapOut _ _ h.agrees page token hpaged
  rw [PageMap.after, if_pos hinside] at hagrees
  refine ⟨_, hagrees, fun _ => Iff.rfl, ?_⟩
  simp only [PageMap.change, if_pos (contains_start hpaged), hstate]
  rfl

section

variable (hpage : IsPage page) (hlookup : tracker.lookup page = .committed region)
  (hrange : Usable range)

include hpage hlookup hrange

theorem not_transparent_of_inside (hin : range.contains page = true) (hinside : map.Inside range) :
  ¬ Transparent tracker page token range
  := by
  intro htransparent
  obtain ⟨map', hagrees, hsame, _⟩ := h.swapped hpage token hlookup
  obtain ⟨next, map'', heq, hnext, hcommitted⟩ :=
    @ensureAccessibleSubranges_agrees ⟨fun _ => .ok (), fun _ => .ok ()⟩ ⟨0⟩
      ⟨tracker.after (.recordSwapOut page token), []⟩ map' ⟨1⟩ hagrees range (by decide)
      (fun _ => rfl) (fun _ => rfl) hrange ((hsame range).mpr hinside)
  obtain ⟨entry, hentry, _⟩ := htransparent.kept ⟨fun _ => .ok (), fun _ => .ok ()⟩ ⟨0⟩ ⟨1⟩ []
  have hnone := hnext.swapEntry hpage
  rw [heq] at hentry
  rw [hcommitted page hpage hin, hentry] at hnone
  cases hnone

theorem transparent_of_not_inside (hinside : ¬ map.Inside range) :
  Transparent tracker page token range
  := by
  obtain ⟨map', hagrees, hsame, hstate⟩ := h.swapped hpage token hlookup
  have hbefore := h.agrees.find_error hinside
  rw [← hsame] at hinside
  have hafter := hagrees.find_error hinside
  constructor
  · rw [ensureCommitted, ensureCommitted, hbefore, hafter]
  · intro flags
    rw [recordProtect, recordProtect, hbefore, hafter]
    constructor <;> rintro ⟨next, hok⟩ <;> cases hok
  · rw [recordDecommit, recordDecommit, ensureCommitted, ensureCommitted, hbefore, hafter]
    constructor <;> rintro ⟨answer, hok⟩ <;> cases hok
  · intro entries next hok
    rw [recordDecommit, ensureCommitted, hafter] at hok
    cases hok
  · intro tables owner flags orphans
    have hentry := hagrees.swapEntry hpage
    rw [hstate] at hentry
    obtain ⟨entry, hsome, htoken⟩ := Option.map_eq_some_iff.mp hentry
    rw [ensureAccessibleSubranges, hrange.2.2]
    simp only [accessibilityPlan, hafter]
    exact ⟨entry, hsome, congrArg Prod.fst htoken⟩

end

/-- Swapping out a committed page is transparent to the operations on a range with it exactly
when the range lies in no reservation. -/
theorem transparent_iff_not_reserved (hpage : IsPage page)
    (hlookup : tracker.lookup page = .committed region) (token : SwapToken) (hrange : Usable range)
    (hin : range.contains page = true) :
  Transparent tracker page token range ↔ tracker.reservationRange range = .error .notReserved
  := by
  constructor
  · intro htransparent
    by_cases hinside : map.Inside range
    · exact absurd htransparent (not_transparent_of_inside h hpage hlookup hrange hin hinside)
    · rw [reservationRange, h.agrees.find_error hinside]
      rfl
  · intro herror
    apply transparent_of_not_inside h hpage hlookup hrange
    intro hinside
    obtain ⟨reservation, hfind⟩ := h.agrees.find_ok hinside
    rw [reservationRange, hfind] at herror
    cases herror

end

def onePage : ReservationTracker :=
  ⟨[⟨⟨65536, 4096⟩, [⟨⟨65536, 4096⟩, ⟨3⟩, ⟨1⟩⟩], []⟩], []⟩

theorem onePage_runs :
  ∃ map, Runs onePage map
  := by
  have hreserve : new.Allowed (.reserve ⟨65536, 4096⟩) := by
    refine ⟨⟨by decide, by decide, by decide⟩, ?_⟩
    nofun
  have hcommit : (new.after (.reserve ⟨65536, 4096⟩)).Allowed
      (.recordCommit ⟨65536, 4096⟩ ⟨3⟩ ⟨1⟩) :=
    ⟨⟨by decide, by decide, by decide⟩, by decide⟩
  exact ⟨_, (Runs.new.after hreserve).after hcommit⟩

/-- The page and the one before it, which is not reserved: nothing is done to the range of both,
whether the page is swapped out or not. -/
theorem transparent_iff_not_reserved_sample :
  (∃ map, Runs onePage map) ∧ Transparent onePage 65536 ⟨7⟩ ⟨61440, 8192⟩
  := by
  obtain ⟨map, hruns⟩ := onePage_runs
  refine ⟨⟨map, hruns⟩, ?_⟩
  apply (@transparent_iff_not_reserved _ _ 65536 ⟨⟨65536, 4096⟩, ⟨3⟩, ⟨1⟩⟩ _ hruns rfl (by decide) ⟨7⟩
    ⟨by decide, by decide, by decide⟩ (by decide)).mpr
  decide

/-- The range of the page is committed before the page is swapped out and not after.  When it is
made accessible, a new page is mapped and the token orphaned. -/
theorem swapped_page_dropped :
  (∃ map, Runs onePage map) ∧
    onePage.lookup 65536 = .committed ⟨⟨65536, 4096⟩, ⟨3⟩, ⟨1⟩⟩ ∧
    onePage.ensureCommitted ⟨65536, 4096⟩ = .ok () ∧
    (onePage.after (.recordSwapOut 65536 ⟨7⟩)).ensureCommitted ⟨65536, 4096⟩ =
      .error .notCommitted ∧
    (onePage.after (.recordSwapOut 65536 ⟨7⟩)).recordDecommit ⟨65536, 4096⟩ =
      .error .notCommitted ∧
    ensureAccessibleSubranges ⟨fun _ => .ok (), fun _ => .ok ()⟩ ⟨1⟩
        ⟨onePage.after (.recordSwapOut 65536 ⟨7⟩), []⟩ ⟨65536, 4096⟩ ⟨1⟩ =
      (.ok (), ⟨⟨[⟨⟨65536, 4096⟩, [⟨⟨65536, 4096⟩, ⟨1⟩, ⟨1⟩⟩], []⟩], []⟩, [⟨7⟩]⟩)
  := by
  have hremove : removeCommittedRange [⟨⟨65536, 4096⟩, ⟨3⟩, ⟨1⟩⟩] ⟨65536, 4096⟩ = [] := by
    apply List.perm_nil.mp
    exact removeCommittedRange_perm _ _
  have hswap : onePage.after (.recordSwapOut 65536 ⟨7⟩) =
      ⟨[⟨⟨65536, 4096⟩, [], [⟨65536, ⟨7⟩, ⟨3⟩, ⟨1⟩⟩]⟩], []⟩ := by
    rw [after, @recordSwapOut_eq onePage _ 65536 _ rfl ⟨7⟩ rfl, Reservation.drop]
    simp only [pageSize, hremove]
    rfl
  refine ⟨onePage_runs, by decide, by decide +kernel, ?_⟩
  rw [hswap]
  decide +kernel

end ReservationTracker

end Helios
