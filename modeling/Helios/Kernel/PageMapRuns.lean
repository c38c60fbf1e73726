import Helios.Kernel.PageMapRefinement

/-!
# Runs of the tracker and of the page map

In every run of the operations of a tracker, next to a page map that is updated page by page,
the tracker stays well formed and answers as the map would.  Only the largest address, which
no range contains, is looked up differently.
-/

namespace Helios

open VirtRange List

namespace ReservationTracker

variable {addr : Nat}

variable {tracker : ReservationTracker} {map : PageMap}

/-- The page map follows every operation. -/
theorem Agrees.after (h : tracker.Agrees map) {op : Op} (hallowed : tracker.Allowed op) :
  (tracker.after op).Agrees (map.after op)
  := by
  cases op with
  | reserve range => exact h.reserve hallowed.1.paged hallowed.2
  | release range =>
    rw [PageMap.after, ReservationTracker.after, ReservationTracker.release]
    cases hfind : tracker.reservations.find? fun r => r.range = range with
    | none =>
      have hdead : range ∉ map.live := by
        rw [h.live]
        rintro ⟨reservation, hmem, hrange⟩
        exact find?_eq_none.mp hfind reservation hmem (decide_eq_true hrange)
      rw [if_neg hdead]
      exact h
    | some reservation =>
      obtain ⟨rfl, hperm⟩ := exists_release hfind
      have hlive := (h.live reservation.range).mpr ⟨reservation, mem_of_find?_eq_some hfind, rfl⟩
      rw [if_pos hlive]
      exact h.release hperm
  | recordCommit virt flags owner => exact h.recordCommit hallowed.1.paged hallowed.2
  | recordDecommit virt => exact h.recordDecommit (Usable.paged hallowed)
  | recordProtect virt flags => exact h.recordProtect hallowed.1.paged hallowed.2
  | takeSwapEntriesIn virt => exact h.takeSwapEntriesIn
  | takeCommittedIntersections virt =>
    exact h.takeCommittedIntersections (Usable.paged hallowed)
  | reuseFreeRange byteLen =>
    apply h.of_reservations
    rw [ReservationTracker.after, ReservationTracker.reuseFreeRange]
    split
    · rfl
    · split <;> rfl
  | pushFreeRange range => exact h.of_reservations rfl
  | recordSwapOut addr token => exact h.recordSwapOut (Usable.paged hallowed)
  | takeSwapEntry addr => exact h.takeSwapEntry (Usable.paged hallowed)

/-! ### Answers -/

theorem Agrees.lookup (h : tracker.Agrees map) (haddr : addr < 2 ^ 64 - 1) :
  map.LooksUp addr (tracker.lookup addr) (map.page (pageBase addr))
  := by
  have hpage := isPage_pageBase addr
  rw [ReservationTracker.lookup]
  cases hfind : tracker.reservations.find? fun r => r.range.contains addr with
  | none =>
    rcases h.page _ hpage with ⟨hstate, _⟩ | ⟨reservation, hmem, hin, _⟩
    · rw [hstate]
      trivial
    · rw [(h.wf.reservations reservation hmem).paged.contains_pageBase haddr] at hin
      exact absurd hin (find?_eq_none.mp hfind reservation hmem)
  | some reservation =>
    have hmem := mem_of_find?_eq_some hfind
    have hwf := h.wf.reservations reservation hmem
    have hin := find?_some hfind
    rw [← hwf.paged.contains_pageBase haddr] at hin
    cases hregion : findRegion reservation.committed addr with
    | some region =>
      obtain ⟨hregionMem, hregionAddr⟩ := findRegion_eq_some hregion
      have hpages : ∀ other, IsPage other → region.range.contains other = true →
          map.page other = .committed region.flags := by
        intro other hother hcontains
        have hinside := contains_of_rangeContains (hwf.inside region hregionMem) hcontains
        exact h.page_eq hmem hother hinside ⟨region, hregionMem, hcontains, rfl⟩
      have hbase := hregionAddr
      rw [← (hwf.regions region hregionMem).contains_pageBase haddr] at hbase
      rw [hpages _ hpage hbase]
      simp only [hregion]
      exact ⟨rfl, hregionAddr, hpages⟩
    | none =>
      have huncovered := mt (hwf.covered_pageBase haddr).mp (not_covered_of_findRegion hregion)
      have hholds := h.holds hmem hpage hin
      simp only [hregion]
      generalize map.page (pageBase addr) = state at *
      cases state with
      | unreserved => cases hholds
      | committed flags => exact absurd hholds.covered huncovered
      | reserved | swapped token flags => trivial

section Ranges

variable {virt : VirtRange} {reservation : Reservation}

section

variable (h : tracker.Agrees map) (hvirt : virt.Paged) (hfind : tracker.find virt = .ok reservation)

include h hvirt hfind

/-- The common parts of the regions and a range are the committed pages of the range. -/
theorem Agrees.exactly_overlaps :
  PageMap.Exactly (overlaps reservation virt) fun addr =>
    virt.contains addr = true ∧ ∃ flags, map.page addr = .committed flags
  := by
  obtain ⟨hmem, hcontains, hwf⟩ := h.found hfind
  constructor
  · exact overlaps_paged hwf hvirt
  · apply Pairwise.filterMap _ _ hwf.apart
    intro a b hab cut hcut cut' hcut'
    apply hab.mono
    · intro addr hin
      exact ((contains_rangeIntersection hcut).mp hin).1
    · intro addr hin
      exact ((contains_rangeIntersection hcut').mp hin).1
  · intro addr hpage
    rw [exists_overlaps_iff]
    apply and_congr_right
    intro hin
    rw [h.committed_iff hmem hpage (contains_of_rangeContains hcontains hin)]

theorem Agrees.committedIntersections :
  ∃ regions, tracker.committedIntersections virt = .ok regions ∧ map.Regions virt regions
  := by
  obtain ⟨hmem, hcontains⟩ := find_eq_ok hfind
  rw [ReservationTracker.committedIntersections, hfind]
  refine ⟨_, rfl, ?_, ?_⟩
  · have hranges : (reservation.committed.filterMap fun region =>
        (rangeIntersection region.range virt).map fun range => { region with range }).map
          CommittedRegion.range = overlaps reservation virt := by
      rw [map_filterMap]
      apply congrFun (congrArg _ (funext fun region => ?_))
      rw [Option.map_map]
      exact Option.map_id'
    rw [hranges]
    exact h.exactly_overlaps hvirt hfind
  · intro clipped hclipped addr hpage hin
    obtain ⟨region, hregion, hcut⟩ := mem_filterMap.mp hclipped
    obtain ⟨range, hrange, rfl⟩ := Option.map_eq_some_iff.mp hcut
    obtain ⟨hregionAddr, hvirtAddr⟩ := (contains_rangeIntersection hrange).mp hin
    exact h.page_eq hmem hpage (contains_of_rangeContains hcontains hvirtAddr)
      ⟨region, hregion, hregionAddr, rfl⟩

end

/-- A list of stretches of a range is of exactly the pages that it should be. -/
theorem exactly_of_stretches {ranges : List VirtRange} {holds holds' : Nat → Prop}
    (h : Stretches ranges virt.start virt.endAddr holds)
    (hsame : ∀ addr, IsPage addr → virt.contains addr = true → (holds addr ↔ holds' addr)) :
  PageMap.Exactly ranges fun addr => virt.contains addr = true ∧ holds' addr
  := by
  constructor
  · exact h.paged
  · exact h.apart
  · intro addr hpage
    rw [h.mem addr, ← and_assoc, ← contains_iff]
    apply and_congr_right
    exact hsame addr hpage

theorem Agrees.accessibilityPlan (h : tracker.Agrees map) (hvirt : virt.Paged)
    (hfind : tracker.find virt = .ok reservation) :
  ∃ plan, tracker.accessibilityPlan virt = .ok plan ∧
    (PageMap.Exactly plan.protect fun addr =>
      virt.contains addr = true ∧ ∃ flags, map.page addr = .committed flags) ∧
    (PageMap.Exactly plan.commit fun addr =>
      virt.contains addr = true ∧ ¬ ∃ flags, map.page addr = .committed flags)
  := by
  obtain ⟨hmem, hcontains, hwf⟩ := h.found hfind
  rw [ReservationTracker.accessibilityPlan, hfind]
  refine ⟨_, rfl, ?_⟩
  obtain ⟨hprotect, hcommit⟩ := planFrom_stretches hwf.regions virt.endAddr_le hvirt.endAddr
    (fun _ => hvirt.start)
  have hsame : ∀ addr, IsPage addr → virt.contains addr = true →
      (Covered reservation.committed addr ↔ ∃ flags, map.page addr = .committed flags) := by
    intro addr hpage hin
    rw [h.committed_iff hmem hpage (contains_of_rangeContains hcontains hin)]
  constructor
  · exact exactly_of_stretches hprotect hsame
  · apply exactly_of_stretches hcommit
    intro addr hpage hin
    exact not_congr (hsame addr hpage hin)

/-- A reservation holds the committed and the swapped pages of its range. -/
theorem Agrees.released (h : tracker.Agrees map) (hmem : reservation ∈ tracker.reservations) :
  map.Regions reservation.range reservation.committed ∧
    map.Entries reservation.range reservation.swapped
  := by
  have hwf := h.wf.reservations reservation hmem
  constructor
  · constructor
    · constructor
      · exact forall_mem_map.mpr hwf.regions
      · rw [pairwise_map]
        exact hwf.apart
      · intro addr hpage
        constructor
        · rintro ⟨range, hrange, hin⟩
          obtain ⟨region, hregion, rfl⟩ := mem_map.mp hrange
          have hinside := contains_of_rangeContains (hwf.inside region hregion) hin
          exact ⟨hinside, (h.committed_iff hmem hpage hinside).mpr ⟨region, hregion, hin⟩⟩
        · rintro ⟨hinside, hcommitted⟩
          obtain ⟨region, hregion, hin⟩ := (h.committed_iff hmem hpage hinside).mp hcommitted
          exact ⟨region.range, mem_map_of_mem hregion, hin⟩
    · intro region hregion addr hpage hin
      have hinside := contains_of_rangeContains (hwf.inside region hregion) hin
      exact h.page_eq hmem hpage hinside ⟨region, hregion, hin, rfl⟩
  · constructor
    · exact hwf.sorted
    · intro addr token flags
      constructor
      · rintro ⟨entry, hentry, rfl, rfl, rfl⟩
        obtain ⟨hpage, hin⟩ := hwf.entries entry hentry
        exact ⟨hpage, hin, h.page_eq hmem hpage hin ⟨entry, hentry, rfl, rfl, rfl⟩⟩
      · rintro ⟨hpage, hin, hstate⟩
        have hholds := h.holds hmem hpage hin
        rw [hstate] at hholds
        exact hholds

end Ranges

/-- The range of a page lies inside a range of whole pages that contains the page. -/
theorem rangeContains_page {range : VirtRange} (h : range.Paged) (hpage : IsPage addr)
    (hin : range.contains addr = true) :
  rangeContains range ⟨addr, pageSize⟩ = true
  := by
  have hend := h.endAddr
  rw [contains_iff] at hin
  rw [rangeContains_iff]
  simp only [endAddr, Machine.satAdd, Machine.maxWord, pageSize, IsPage] at *
  omega

theorem Agrees.swapEntry (h : tracker.Agrees map) (hpage : IsPage addr) :
  (tracker.swapEntry addr).map (fun entry => (entry.token, entry.flags)) =
    PageMap.swappedPage (map.page addr)
  := by
  cases hentry : tracker.swapEntry addr with
  | some entry =>
    rw [ReservationTracker.swapEntry] at hentry
    split at hentry
    · rename_i reservation hfind
      have hmem := (find_eq_ok hfind).1
      have hentryMem := mem_of_find?_eq_some hentry
      have hentryAddr := find?_some hentry
      rw [decide_eq_true_eq] at hentryAddr
      have hin := ((h.wf.reservations reservation hmem).entries entry hentryMem).2
      rw [hentryAddr] at hin
      have hholds : reservation.Holds addr (.swapped entry.token entry.flags) :=
        ⟨entry, hentryMem, hentryAddr, rfl, rfl⟩
      rw [h.page_eq hmem hpage hin hholds]
      rfl
    · cases hentry
  | none =>
    cases hstate : map.page addr with
    | unreserved | reserved | committed flags => rfl
    | swapped token flags =>
      -- The page lies inside the reservation that holds it, so the entry would be found.
      have hholds := h.page addr hpage
      rw [hstate] at hholds
      obtain ⟨reservation, hmem, hin, entry, hentryMem, hentryAddr, _⟩ :=
        hholds.resolve_left fun hnone => nomatch hnone.1
      have hinside : map.Inside ⟨addr, pageSize⟩ :=
        ⟨reservation.range, (h.live _).mpr ⟨reservation, hmem, rfl⟩,
          rangeContains_page (h.wf.reservations reservation hmem).paged hpage hin⟩
      obtain ⟨found, hfind⟩ := h.find_ok hinside
      obtain ⟨hfoundMem, hfoundContains⟩ := find_eq_ok hfind
      have hpaged : (⟨addr, pageSize⟩ : VirtRange).contains addr = true := by
        have hlt := lt_of_contains hin
        rw [contains_iff]
        simp only [endAddr, Machine.satAdd, Machine.maxWord, pageSize]
        omega
      have hsame := h.wf.reservation_unique hmem hfoundMem hin
        (contains_of_rangeContains hfoundContains hpaged)
      rw [ReservationTracker.swapEntry, hfind, ← hsame] at hentry
      exact absurd (decide_eq_true hentryAddr) (find?_eq_none.mp hentry entry hentryMem)

theorem Agrees.answers (h : tracker.Agrees map) :
  map.Answers tracker
  := by
  constructor
  · intro addr
    exact h.lookup
  · intro virt hvirt
    split_ifs with hinside
    · obtain ⟨reservation, hfind⟩ := h.find_ok hinside
      exact h.committedIntersections hvirt.paged hfind
    · rw [ReservationTracker.committedIntersections, h.find_error hinside]
      rfl
  · intro virt hvirt
    split_ifs with hinside
    · obtain ⟨reservation, hfind⟩ := h.find_ok hinside
      exact ⟨_, _, takeCommittedIntersections_eq hfind, h.exactly_overlaps hvirt.paged hfind⟩
    · rw [ReservationTracker.takeCommittedIntersections, h.find_error hinside]
      rfl
  · intro virt hvirt
    split_ifs with hinside
    · obtain ⟨reservation, hfind⟩ := h.find_ok hinside
      exact h.accessibilityPlan hvirt.paged hfind
    · rw [ReservationTracker.accessibilityPlan, h.find_error hinside]
      rfl
  · intro range _
    rw [ReservationTracker.release]
    split_ifs with hlive
    · obtain ⟨reservation, hmem, hrange⟩ := (h.live range).mp hlive
      cases hfind : tracker.reservations.find? fun r => r.range = range with
      | none => exact absurd (decide_eq_true hrange) (find?_eq_none.mp hfind reservation hmem)
      | some found =>
        obtain ⟨rfl, _⟩ := exists_release hfind
        exact ⟨_, _, rfl, h.released (mem_of_find?_eq_some hfind)⟩
    · cases hfind : tracker.reservations.find? fun r => r.range = range with
      | none => rfl
      | some found =>
        obtain ⟨rfl, _⟩ := exists_release hfind
        exact absurd ((h.live _).mpr ⟨found, mem_of_find?_eq_some hfind, rfl⟩) hlive
  · intro addr
    exact h.swapEntry

/-! ### Runs -/

/-- The page map next to a run, which only the operations made are told to. -/
noncomputable def observe (map : PageMap) (_ : ReservationTracker) (op : Op) (_ : Unit) : PageMap :=
  map.after op

/-- A tracker and a page map reached from the empty ones by the same operations. -/
def Runs (tracker : ReservationTracker) (map : PageMap) : Prop :=
  Transition.Reachable (Transition.instrument step observe)
    (fun state => state = (ReservationTracker.new, PageMap.empty))
    (fun state op => state.1.Allowed op) (tracker, map)

theorem Runs.new :
  Runs ReservationTracker.new PageMap.empty
  := .start rfl

theorem Runs.after (h : Runs tracker map) {op : Op} (hallowed : tracker.Allowed op) :
  Runs (tracker.after op) (map.after op)
  := Transition.Reachable.next h hallowed rfl

theorem Runs.agrees (h : Runs tracker map) :
  tracker.Agrees map
  := by
  apply @Transition.Reachable.invariant _ _ _ _ _ _ _ (fun state => state.1.Agrees state.2) _ _ _ h
  · rintro _ rfl
    exact Agrees.new
  · rintro ⟨tracker, map⟩ op ⟨tracker', map'⟩ out hagrees hallowed hstep
    cases hstep
    exact hagrees.after hallowed

/-- In every run the tracker is well formed and answers as the page map would. -/
theorem refines_pageMap (h : Runs tracker map) :
  tracker.Wf ∧ map.Answers tracker
  := ⟨h.agrees.wf, h.agrees.answers⟩

/-- Four pages are reserved, the first three committed, and the second swapped out. -/
theorem refines_pageMap_sample :
  ∃ tracker map, Runs tracker map ∧
    tracker = (((new.after (.reserve ⟨65536, 16384⟩)).after
      (.recordCommit ⟨65536, 12288⟩ ⟨3⟩ ⟨1⟩)).after (.recordSwapOut 69632 ⟨1⟩)) ∧
    tracker.Wf ∧ map.Answers tracker
  := by
  have hreserve : new.Allowed (.reserve ⟨65536, 16384⟩) := by
    refine ⟨⟨by decide, by decide, by decide⟩, ?_⟩
    nofun
  have hcommit : (new.after (.reserve ⟨65536, 16384⟩)).Allowed
      (.recordCommit ⟨65536, 12288⟩ ⟨3⟩ ⟨1⟩) :=
    ⟨⟨by decide, by decide, by decide⟩, by decide⟩
  have hswap : ((new.after (.reserve ⟨65536, 16384⟩)).after
      (.recordCommit ⟨65536, 12288⟩ ⟨3⟩ ⟨1⟩)).Allowed (.recordSwapOut 69632 ⟨1⟩) :=
    ⟨by decide, by decide, by decide⟩
  have hruns := ((Runs.new.after hreserve).after hcommit).after hswap
  exact ⟨_, _, hruns, rfl, refines_pageMap hruns⟩

/-- The last page is reserved, and its last address is looked up as if it were not. -/
theorem lookup_of_largest_address :
  ∃ tracker map, Runs tracker map ∧ map.page (pageBase (2 ^ 64 - 1)) = .reserved ∧
    tracker.lookup (2 ^ 64 - 1) = .unreserved
  := by
  have hreserve : new.Allowed (.reserve ⟨2 ^ 64 - 4096, 4096⟩) := by
    refine ⟨⟨by decide, by decide, by decide⟩, ?_⟩
    nofun
  refine ⟨_, _, Runs.new.after hreserve, ?_, by decide⟩
  rw [PageMap.after]
  simp only [PageMap.change]
  rw [if_pos (by decide)]

end ReservationTracker

end Helios
