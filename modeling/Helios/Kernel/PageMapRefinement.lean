import Helios.Kernel.ReservationChanges
import Helios.Library.Transition

/-!
# The tracker refines a page map

A tracker agrees with a page map when its reservations are the reserved ranges and say of
every page what the map says.  Every operation that its caller may make keeps the two in
agreement, and a tracker in agreement with a map answers as the map would.
-/

namespace Helios

open Reservation VirtRange List

namespace ReservationTracker

variable {reservation : Reservation} {virt range : VirtRange} {addr : Nat}

/-- The invariant of a tracker. -/
structure Wf (tracker : ReservationTracker) : Prop where
  reservations : ∀ reservation ∈ tracker.reservations, reservation.Wf
  apart : tracker.reservations.Pairwise fun a b => a.range.Apart b.range

/-- What a tracker says of an address. -/
def Holds (tracker : ReservationTracker) (addr : Nat) (state : PageState) : Prop :=
  (state = .unreserved ∧
    ∀ reservation ∈ tracker.reservations, reservation.range.contains addr = false) ∨
  ∃ reservation ∈ tracker.reservations,
    reservation.range.contains addr = true ∧ reservation.Holds addr state

/-- A tracker and a page map that say the same. -/
structure Agrees (tracker : ReservationTracker) (map : PageMap) : Prop where
  wf : tracker.Wf
  live : ∀ range, range ∈ map.live ↔ ∃ reservation ∈ tracker.reservations, reservation.range = range
  page : ∀ addr, IsPage addr → tracker.Holds addr (map.page addr)

variable {tracker : ReservationTracker} {map : PageMap} {f : PageState → PageState}
  {state : PageState}

/-! ### Finding a reservation -/

theorem Wf.reservation_unique (h : tracker.Wf) {a b : Reservation} (ha : a ∈ tracker.reservations)
    (hb : b ∈ tracker.reservations) (haddr : a.range.contains addr = true)
    (hbaddr : b.range.contains addr = true) :
  a = b
  := by
  by_contra hne
  have hapart := VecScan.rel_of_pairwise (fun _ _ hab => hab.symm) h.apart ha hb hne
  rw [hapart addr haddr] at hbaddr
  contradiction

theorem find_eq_ok (h : tracker.find virt = .ok reservation) :
  reservation ∈ tracker.reservations ∧ rangeContains reservation.range virt = true
  := by
  rw [find] at h
  split at h <;> cases h
  have hcontains := find?_some ‹_›
  exact ⟨mem_of_find?_eq_some ‹_›, hcontains⟩

section

variable (h : tracker.Agrees map)
include h

theorem Agrees.find_ok (hinside : map.Inside virt) :
  ∃ reservation, tracker.find virt = .ok reservation
  := by
  obtain ⟨range, hlive, hcontains⟩ := hinside
  obtain ⟨reservation, hmem, rfl⟩ := (h.live range).mp hlive
  rw [find]
  cases hfind : tracker.reservations.find? fun r => rangeContains r.range virt with
  | some found => exact ⟨found, rfl⟩
  | none =>
    have hnone := find?_eq_none.mp hfind reservation hmem
    exact absurd hcontains hnone

theorem Agrees.found (hfind : tracker.find virt = .ok reservation) :
  reservation ∈ tracker.reservations ∧ rangeContains reservation.range virt = true ∧ reservation.Wf
  := by
  obtain ⟨hmem, hcontains⟩ := find_eq_ok hfind
  exact ⟨hmem, hcontains, h.wf.reservations reservation hmem⟩

theorem Agrees.inside (hfind : tracker.find virt = .ok reservation) :
  map.Inside virt
  := by
  obtain ⟨hmem, hcontains⟩ := find_eq_ok hfind
  exact ⟨reservation.range, (h.live _).mpr ⟨reservation, hmem, rfl⟩, hcontains⟩

theorem Agrees.find_error (hinside : ¬ map.Inside virt) :
  tracker.find virt = .error .notReserved
  := by
  cases hfind : tracker.find virt with
  | ok reservation => exact absurd (h.inside hfind) hinside
  | error error =>
    rw [find] at hfind
    split at hfind <;> cases hfind
    rfl

variable (hmem : reservation ∈ tracker.reservations) (hpage : IsPage addr)
  (haddr : reservation.range.contains addr = true)

include hmem hpage haddr

/-- The map says of a page inside a reservation what the reservation does. -/
theorem Agrees.holds :
  reservation.Holds addr (map.page addr)
  := by
  rcases h.page addr hpage with ⟨_, hnone⟩ | ⟨other, hother, hotherAddr, hholds⟩
  · rw [hnone reservation hmem] at haddr
    contradiction
  · rw [h.wf.reservation_unique hmem hother haddr hotherAddr]
    exact hholds

theorem Agrees.page_eq (hholds : reservation.Holds addr state) :
  map.page addr = state
  := Holds.unique (h.wf.reservations reservation hmem)
    (h.holds hmem hpage haddr) hholds

end

/-! ### Writing a reservation back -/

theorem put_reservations {virt : VirtRange} {reservation next : Reservation}
    (h : tracker.find virt = .ok reservation) :
  ∃ before rest, tracker.reservations = before ++ reservation :: rest ∧
    (tracker.put virt next).reservations = before ++ next :: rest
  := by
  rw [find] at h
  split at h <;> cases h
  rename_i found hfind
  obtain ⟨before, rest, heq, hindex⟩ := VecScan.exists_split_of_find hfind
  refine ⟨before, rest, heq, ?_⟩
  simp only [put, hindex]
  rw [heq]
  simp

/-- A change to a reservation that changes the pages of the range in it changes the map
so. -/
theorem Agrees.put (h : tracker.Agrees map) {next : Reservation}
    (hfind : tracker.find virt = .ok reservation) (hrange : next.range = reservation.range)
    (hwf : next.Wf)
    (hholds : ∀ addr state, IsPage addr → reservation.Holds addr state →
      next.Holds addr (if virt.contains addr then f state else state)) :
  (tracker.put virt next).Agrees (map.change virt f)
  := by
  obtain ⟨hmem, hcontains⟩ := find_eq_ok hfind
  obtain ⟨before, rest, heq, hput⟩ := @put_reservations tracker virt reservation next hfind
  have hkeeps : ∀ other, other ∈ (tracker.put virt next).reservations →
      other = next ∨ other ∈ tracker.reservations := by
    intro other hother
    rw [hput, mem_append, mem_cons] at hother
    rw [heq, mem_append]
    tauto
  have hranges : (tracker.put virt next).reservations.map Reservation.range =
      tracker.reservations.map Reservation.range := by
    rw [hput, heq, map_append, map_append, map_cons, map_cons, hrange]
  constructor
  · constructor
    · intro other hother
      rcases hkeeps other hother with rfl | hother
      · exact hwf
      · exact h.wf.reservations other hother
    · have hapart := pairwise_map.mpr h.wf.apart
      rw [← hranges] at hapart
      exact pairwise_map.mp hapart
  · intro range
    rw [← mem_map, hranges, mem_map]
    exact h.live range
  · intro addr hpage
    have hnext : next ∈ (tracker.put virt next).reservations := by simp [hput]
    cases hin : reservation.range.contains addr with
    | true =>
      apply Or.inr
      refine ⟨next, hnext, by rw [hrange, hin], ?_⟩
      exact hholds addr _ hpage (h.holds hmem hpage hin)
    | false =>
      -- The range is inside the reservation, so the page is as it was.
      have hvirt : virt.contains addr = false := by
        rw [Bool.eq_false_iff]
        intro hv
        rw [contains_of_rangeContains hcontains hv] at hin
        contradiction
      have hsame : (map.change virt f).page addr = map.page addr := by
        simp [PageMap.change, hvirt]
      rw [hsame]
      rcases h.page addr hpage with ⟨hstate, hnone⟩ | ⟨other, hother, haddr, hstate⟩
      · refine .inl ⟨hstate, ?_⟩
        intro other hother
        rcases hkeeps other hother with rfl | hother
        · rw [hrange, hin]
        · exact hnone other hother
      · refine .inr ⟨other, ?_, haddr, hstate⟩
        rw [heq, mem_append, mem_cons] at hother
        rw [hput, mem_append, mem_cons]
        apply hother.imp_right (Or.imp_left _)
        rintro rfl
        rw [hin] at haddr
        contradiction

/-! ### Coverage by pages -/

theorem covered_of_pages (hwf : reservation.Wf) (hvirt : virt.Paged) (h : ∀ addr, IsPage addr →
      virt.contains addr = true → Covered reservation.committed addr)
    (haddr : virt.contains addr = true) :
  Covered reservation.committed addr
  := by
  have hlt := lt_of_contains haddr
  rw [← hvirt.contains_pageBase hlt] at haddr
  rw [← hwf.covered_pageBase hlt]
  exact h _ (isPage_pageBase addr) haddr

/-- A page of a reservation is committed in the map when a region covers it. -/
theorem Agrees.committed_iff (h : tracker.Agrees map) (hmem : reservation ∈ tracker.reservations)
    (hpage : IsPage addr) (haddr : reservation.range.contains addr = true) :
  (∃ flags, map.page addr = .committed flags) ↔ Covered reservation.committed addr
  := by
  constructor
  · rintro ⟨flags, hstate⟩
    have hholds := h.holds hmem hpage haddr
    rw [hstate] at hholds
    exact hholds.covered
  · rintro ⟨region, hregion, hin⟩
    exact ⟨region.flags, h.page_eq hmem hpage haddr ⟨region, hregion, hin, rfl⟩⟩

theorem Agrees.cover_iff (h : tracker.Agrees map) (hvirt : virt.Paged)
    (hfind : tracker.find virt = .ok reservation) :
  committedRegionsCover reservation.committed virt = true ↔ map.AllCommitted virt
  := by
  obtain ⟨hmem, hcontains⟩ := find_eq_ok hfind
  rw [committedRegionsCover_iff]
  constructor
  · intro hcover addr hpage haddr
    rw [h.committed_iff hmem hpage (contains_of_rangeContains hcontains haddr)]
    exact hcover addr haddr
  · intro hall addr haddr
    apply covered_of_pages (h.wf.reservations reservation hmem) hvirt _ haddr
    intro page hpage hin
    rw [← h.committed_iff hmem hpage (contains_of_rangeContains hcontains hin)]
    exact hall page hpage hin

theorem unswapped_of_cover (hwf : reservation.Wf)
    (h : committedRegionsCover reservation.committed virt = true) :
  ∀ entry ∈ reservation.swapped, virt.contains entry.addr = false
  := by
  intro entry hmem
  cases hin : virt.contains entry.addr with
  | false => rfl
  | true => exact absurd (committedRegionsCover_iff.mp h _ hin) (hwf.uncovered entry hmem)

/-! ### Steps -/

theorem Agrees.new :
  ReservationTracker.new.Agrees PageMap.empty
  := by
  constructor
  · constructor
    · nofun
    · exact Pairwise.nil
  · intro range
    constructor
    · nofun
    · rintro ⟨reservation, hmem, _⟩
      cases hmem
  · intro addr _
    refine .inl ⟨rfl, ?_⟩
    nofun

theorem Agrees.of_reservations (h : tracker.Agrees map) {next : ReservationTracker}
    (hsame : next.reservations = tracker.reservations) :
  next.Agrees map
  := by
  obtain ⟨left, freeList⟩ := next
  subst hsame
  exact ⟨{ h.wf with }, h.live, h.page⟩

theorem Agrees.reserve (h : tracker.Agrees map) (hrange : range.Paged) (hapart : ∀ reservation ∈
      tracker.reservations, rangesOverlap reservation.range range = false) :
  (tracker.reserve range).Agrees
    { map.change range (fun _ => .reserved) with live := insert range map.live }
  := by
  constructor
  · constructor
    · refine forall_mem_append.mpr ⟨h.wf.reservations, forall_mem_singleton.mpr ?_⟩
      constructor <;> simp [hrange]
    · apply pairwise_append.mpr
      refine ⟨h.wf.apart, pairwise_singleton _ _, ?_⟩
      intro other hother reservation hmem
      rw [mem_singleton.mp hmem]
      exact apart_of_not_overlap (hapart other hother)
  · intro other
    simp only [Set.mem_insert_iff, h.live, ReservationTracker.reserve, mem_append, mem_singleton]
    constructor
    · rintro (rfl | ⟨reservation, hmem, rfl⟩)
      · exact ⟨_, .inr rfl, rfl⟩
      · exact ⟨reservation, .inl hmem, rfl⟩
    · rintro ⟨reservation, hmem | rfl, rfl⟩
      · exact .inr ⟨reservation, hmem, rfl⟩
      · exact .inl rfl
  · intro addr hpage
    simp only [PageMap.change]
    split_ifs with hin
    · refine .inr ⟨⟨range, [], []⟩, mem_append_right _ (mem_singleton_self _), hin, ?_⟩
      constructor
      · rintro ⟨region, hmem, _⟩
        cases hmem
      · nofun
    · rcases h.page addr hpage with ⟨hstate, hnone⟩ | ⟨other, hother, haddr, hstate⟩
      · refine .inl ⟨hstate, ?_⟩
        refine forall_mem_append.mpr ⟨hnone, forall_mem_singleton.mpr ?_⟩
        exact Bool.not_eq_true _ ▸ hin
      · exact .inr ⟨other, mem_append_left _ hother, haddr, hstate⟩

/-- A tracker without one of the reservations agrees with the map without its range. -/
theorem Agrees.release (h : tracker.Agrees map) {left : List Reservation}
    (hperm : tracker.reservations.Perm (reservation :: left)) :
  (ReservationTracker.mk left tracker.freeList).Agrees
    { map.change reservation.range (fun _ => .unreserved) with
      live := map.live \ {reservation.range} }
  := by
  have hapart := (hperm.pairwise_iff fun hab => Apart.symm hab).mp h.wf.apart
  rw [pairwise_cons] at hapart
  have hother : ∀ other ∈ left, other ∈ tracker.reservations := by
    intro other hother
    exact hperm.mem_iff.mpr (mem_cons_of_mem _ hother)
  constructor
  · constructor
    · intro other hmem
      exact h.wf.reservations other (hother other hmem)
    · exact hapart.2
  · intro other
    simp only [Set.mem_sdiff, h.live]
    constructor
    · rintro ⟨⟨held, hheld, rfl⟩, hne⟩
      rcases mem_cons.mp (hperm.mem_iff.mp hheld) with rfl | hheld
      · exact absurd rfl hne
      · exact ⟨held, hheld, rfl⟩
    · rintro ⟨held, hheld, rfl⟩
      refine ⟨⟨held, hother held hheld, rfl⟩, ?_⟩
      intro hsame
      have hstart := contains_start (h.wf.reservations held (hother held hheld)).paged
      have hout := hapart.1 held hheld held.range.start (by rw [← hsame, hstart])
      rw [hstart] at hout
      contradiction
  · intro addr hpage
    simp only [PageMap.change]
    split_ifs with hin
    · refine .inl ⟨rfl, ?_⟩
      intro other hleft
      exact hapart.1 other hleft addr hin
    · rcases h.page addr hpage with ⟨hstate, hnone⟩ | ⟨other, hmem, haddr, hstate⟩
      · exact .inl ⟨hstate, fun other hleft => hnone other (hother other hleft)⟩
      · rcases mem_cons.mp (hperm.mem_iff.mp hmem) with rfl | hmem
        · exact absurd haddr hin
        · exact .inr ⟨other, hmem, haddr, hstate⟩

theorem exists_release
    (h : (tracker.reservations.find? fun r => r.range = range) = some reservation) :
  reservation.range = range ∧ tracker.reservations.Perm
    (reservation :: VecScan.swapRemove tracker.reservations
      (tracker.reservations.findIdx fun r => r.range = range))
  := by
  have hrange := find?_some h
  obtain ⟨before, rest, heq, hindex⟩ := VecScan.exists_split_of_find h
  refine ⟨of_decide_eq_true hrange, VecScan.perm_swapRemove ?_⟩
  rw [hindex, heq]
  simp

/-! ### Operations on the reservation that is found -/

section Found

variable {virt : VirtRange} {reservation : Reservation}

section

variable (h : tracker.find virt = .ok reservation)
include h

theorem recordCommit_eq (flags : PageFlags) (owner : MemoryOwner) :
  tracker.recordCommit virt flags owner =
    .ok ((takeSwappedRange reservation.swapped virt).2,
      tracker.put virt ((reservation.forget virt).grant ⟨virt, flags, owner⟩))
  := by
  rw [recordCommit, h]
  rfl

theorem ensureCommitted_eq :
  tracker.ensureCommitted virt =
    if committedRegionsCover reservation.committed virt then .ok () else .error .notCommitted
  := by
  rw [ensureCommitted, h]
  rfl

theorem recordDecommit_eq :
  tracker.recordDecommit virt =
    if committedRegionsCover reservation.committed virt then
      .ok ((takeSwappedRange reservation.swapped virt).2,
        tracker.put virt ((reservation.drop virt).forget virt))
    else .error .notCommitted
  := by
  rw [recordDecommit, ensureCommitted_eq h, h]
  split
  · rfl
  · rfl

def protectOwner (reservation : Reservation) (virt : VirtRange) : MemoryOwner :=
  ((reservation.committed.find? fun region =>
    rangesOverlap region.range virt).map CommittedRegion.owner).getD MemoryOwner.none

/-- A protection changes no swapped page when nothing in the range is swapped out. -/
theorem recordProtect_eq (flags : PageFlags)
    (hunswapped : ∀ entry ∈ reservation.swapped, virt.contains entry.addr = false) :
  tracker.recordProtect virt flags =
    .ok (tracker.put virt
      ((reservation.drop virt).grant ⟨virt, flags, protectOwner reservation virt⟩))
  := by
  have hsame : (reservation.swapped.map fun entry =>
      if virt.contains entry.addr then { entry with flags } else entry) =
        reservation.swapped := by
    conv_rhs => rw [← map_id reservation.swapped]
    apply map_congr_left
    intro entry hmem
    rw [hunswapped entry hmem]
    rfl
  rw [recordProtect, h]
  simp only [bind, Except.bind, hsame]
  rfl

theorem takeSwapEntriesIn_eq :
  tracker.takeSwapEntriesIn virt =
    ((takeSwappedRange reservation.swapped virt).2, tracker.put virt (reservation.forget virt))
  := by
  rw [takeSwapEntriesIn, h]
  rfl

/-- The common parts of the regions and a range. -/
def overlaps (reservation : Reservation) (virt : VirtRange) : List VirtRange :=
  reservation.committed.filterMap fun region => rangeIntersection region.range virt

theorem takeCommittedIntersections_eq :
  tracker.takeCommittedIntersections virt =
    .ok (overlaps reservation virt,
      tracker.put virt ((overlaps reservation virt).foldl drop reservation))
  := by
  rw [takeCommittedIntersections, h]
  apply congrArg fun r => Except.ok (overlaps reservation virt, tracker.put virt r)
  symm
  apply foldl_hom (Reservation.mk reservation.range · reservation.swapped)
  intro _ _
  rfl

end

theorem recordSwapOut_eq {addr : Nat} {region : CommittedRegion}
    (h : tracker.find ⟨addr, pageSize⟩ = .ok reservation) (token : SwapToken)
    (hregion : findRegion reservation.committed addr = some region) :
  tracker.recordSwapOut addr token =
    .ok (region.flags, tracker.put ⟨addr, pageSize⟩
      ((reservation.drop ⟨addr, pageSize⟩).park ⟨addr, token, region.flags, region.owner⟩))
  := by
  rw [recordSwapOut, h]
  simp only [bind, Except.bind, hregion]
  rfl

theorem takeSwapEntry_eq {entry : SwapEntry} (hwf : reservation.Wf)
    (hpage : (⟨addr, pageSize⟩ : VirtRange).Paged)
    (h : tracker.find ⟨addr, pageSize⟩ = .ok reservation) (hentry : (reservation.swapped.find? fun
      entry => entry.addr = addr) = some entry) :
  tracker.takeSwapEntry addr =
    .ok (entry, tracker.put ⟨addr, pageSize⟩
      ((reservation.forget ⟨addr, pageSize⟩).grant ⟨⟨addr, pageSize⟩, entry.flags, entry.owner⟩))
  := by
  rw [takeSwapEntry, h]
  simp only [bind, Except.bind, hentry]
  rw [← hwf.fetch_eq hpage]
  rfl

end Found

/-! ### The page map follows every operation -/

theorem precheckCommit_eq_ok (h : tracker.precheckCommit virt = .ok ()) :
  ∃ reservation, tracker.find virt = .ok reservation ∧
    ∀ addr, virt.contains addr = true → ¬ Covered reservation.committed addr
  := by
  obtain ⟨reservation, hfind, h⟩ := Transition.bind_eq_ok h
  refine ⟨reservation, hfind, ?_⟩
  split at h
  · cases h
  · rename_i hany
    rintro addr haddr ⟨region, hmem, hin⟩
    have hover : rangesOverlap region.range virt = false := by
      cases hover : rangesOverlap region.range virt with
      | false => rfl
      | true => exact absurd (any_eq_true.mpr ⟨region, hmem, hover⟩) hany
    rw [apart_of_not_overlap hover addr hin] at haddr
    contradiction

theorem ensureCommitted_eq_ok (h : tracker.ensureCommitted virt = .ok ()) :
  ∃ reservation, tracker.find virt = .ok reservation ∧
    committedRegionsCover reservation.committed virt = true
  := by
  obtain ⟨reservation, hfind, h⟩ := Transition.bind_eq_ok h
  split at h
  · rename_i hcover
    exact ⟨reservation, hfind, hcover⟩
  · cases h

section Steps

variable {virt : VirtRange} {flags : PageFlags}

theorem Agrees.recordCommit (h : tracker.Agrees map) {owner : MemoryOwner} (hvirt : virt.Paged)
    (hcheck : tracker.precheckCommit virt = .ok ()) :
  (tracker.after (.recordCommit virt flags owner)).Agrees (map.after (.recordCommit virt flags owner))
  := by
  obtain ⟨reservation, hfind, huncovered⟩ := precheckCommit_eq_ok hcheck
  obtain ⟨hmem, hcontains, hwf⟩ := h.found hfind
  rw [PageMap.after, if_pos (h.inside hfind), ReservationTracker.after, recordCommit_eq hfind]
  apply h.put hfind
  · rfl
  · exact (hwf.forget virt).grant hvirt hcontains (vacant_forget huncovered)
  · intro addr state _ hholds
    have hgrant := (hholds.forget hwf virt).grant ⟨virt, flags, owner⟩
    split_ifs at hgrant ⊢ <;> exact hgrant

theorem committed_of_cover (hwf : reservation.Wf)
    (hcover : committedRegionsCover reservation.committed virt = true)
    (hin : virt.contains addr = true) (hholds : reservation.Holds addr state) :
  ∃ flags, state = .committed flags
  := by
  obtain ⟨region, hmem, haddr⟩ := committedRegionsCover_iff.mp hcover addr hin
  exact ⟨region.flags, hholds.unique hwf ⟨region, hmem, haddr, rfl⟩⟩

theorem Agrees.recordDecommit (h : tracker.Agrees map) (hvirt : virt.Paged) :
  (tracker.after (.recordDecommit virt)).Agrees (map.after (.recordDecommit virt))
  := by
  rw [PageMap.after, ReservationTracker.after]
  by_cases hinside : map.Inside virt
  · obtain ⟨reservation, hfind⟩ := h.find_ok hinside
    have hwf := (h.found hfind).2.2
    rw [recordDecommit_eq hfind]
    by_cases hcover : committedRegionsCover reservation.committed virt = true
    · rw [if_pos hcover, if_pos ⟨hinside, (h.cover_iff hvirt hfind).mp hcover⟩]
      apply h.put hfind
      · rfl
      · exact (hwf.drop hvirt).forget virt
      · intro addr state _ hholds
        have hforget := (hholds.drop hwf virt).forget (hwf.drop hvirt) virt
        split_ifs at hforget ⊢ with hin
        · obtain ⟨flags, rfl⟩ := committed_of_cover hwf hcover hin hholds
          exact hforget
        · exact hforget
    · rw [if_neg hcover, if_neg (fun hboth => hcover ((h.cover_iff hvirt hfind).mpr hboth.2))]
      exact h
  · rw [if_neg (fun hboth => hinside hboth.1), ReservationTracker.recordDecommit, ensureCommitted,
      h.find_error hinside]
    exact h

theorem Agrees.recordProtect (h : tracker.Agrees map) (hvirt : virt.Paged)
    (hcheck : tracker.ensureCommitted virt = .ok ()) :
  (tracker.after (.recordProtect virt flags)).Agrees (map.after (.recordProtect virt flags))
  := by
  obtain ⟨reservation, hfind, hcover⟩ := ensureCommitted_eq_ok hcheck
  obtain ⟨hmem, hcontains, hwf⟩ := h.found hfind
  have hunswapped := unswapped_of_cover hwf hcover
  rw [PageMap.after, if_pos (h.inside hfind), ReservationTracker.after, recordProtect_eq hfind flags
    hunswapped]
  apply h.put hfind
  · rfl
  · apply (hwf.drop hvirt).grant
    · exact hvirt
    · exact hcontains
    · constructor
      · intro addr hin hcovered
        rw [(covered_drop.mp hcovered).1] at hin
        contradiction
      · exact hunswapped
  · intro addr state _ hholds
    have hgrant := (hholds.drop hwf virt).grant ⟨virt, flags, protectOwner reservation virt⟩
    split_ifs at hgrant ⊢ <;> exact hgrant

theorem Agrees.takeSwapEntriesIn (h : tracker.Agrees map) :
  (tracker.after (.takeSwapEntriesIn virt)).Agrees (map.after (.takeSwapEntriesIn virt))
  := by
  rw [PageMap.after, ReservationTracker.after]
  split_ifs with hinside
  · obtain ⟨reservation, hfind⟩ := h.find_ok hinside
    have hwf := (h.found hfind).2.2
    rw [takeSwapEntriesIn_eq hfind]
    apply h.put hfind
    · rfl
    · exact hwf.forget virt
    · intro addr state _ hholds
      exact hholds.forget hwf virt
  · rw [ReservationTracker.takeSwapEntriesIn, h.find_error hinside]
    exact h

/-- Dropping ranges one after another drops the pages inside any of them. -/
theorem holds_foldl_drop (ranges : List VirtRange) (hwf : reservation.Wf)
    (hpaged : ∀ range ∈ ranges, range.Paged) :
  (ranges.foldl drop reservation).Wf ∧
    (ranges.foldl drop reservation).range = reservation.range ∧
    ∀ addr state, reservation.Holds addr state → (ranges.foldl drop reservation).Holds addr
      (if ∃ range ∈ ranges, range.contains addr = true then PageMap.dropCommitted state else state)
  := by
  induction ranges generalizing reservation with
  | nil => exact ⟨hwf, rfl, fun addr state hholds => by simpa using hholds⟩
  | cons range ranges ih =>
    rw [forall_mem_cons] at hpaged
    obtain ⟨hnext, hrange, hdrop⟩ := ih (hwf.drop hpaged.1) hpaged.2
    refine ⟨hnext, hrange, ?_⟩
    intro addr state hholds
    have hstate := hdrop addr _ (hholds.drop hwf range)
    simp only [exists_mem_cons_iff]
    by_cases hin : range.contains addr = true <;>
      by_cases hrest : ∃ range ∈ ranges, range.contains addr = true <;>
      simp only [hin, hrest] at hstate ⊢
    · cases state <;> exact hstate
    all_goals exact hstate

theorem mem_overlaps (h : range ∈ overlaps reservation virt) :
  ∃ region ∈ reservation.committed, rangeIntersection region.range virt = some range
  := mem_filterMap.mp h

theorem exists_overlaps_iff :
  (∃ range ∈ overlaps reservation virt, range.contains addr = true) ↔
    virt.contains addr = true ∧ Covered reservation.committed addr
  := by
  constructor
  · rintro ⟨range, hrange, hin⟩
    obtain ⟨region, hmem, hcut⟩ := mem_overlaps hrange
    obtain ⟨hregion, hvirt⟩ := (contains_rangeIntersection hcut).mp hin
    exact ⟨hvirt, region, hmem, hregion⟩
  · rintro ⟨hvirt, region, hmem, hregion⟩
    obtain ⟨range, hcut⟩ := exists_rangeIntersection hregion hvirt
    exact ⟨range, mem_filterMap.mpr ⟨region, hmem, hcut⟩,
      (contains_rangeIntersection hcut).mpr ⟨hregion, hvirt⟩⟩

theorem overlaps_paged (hwf : reservation.Wf) (hvirt : virt.Paged) :
  ∀ range ∈ overlaps reservation virt, range.Paged
  := by
  intro range hrange
  obtain ⟨region, hmem, hcut⟩ := mem_overlaps hrange
  exact (hwf.regions region hmem).intersection hvirt hcut

section

variable (h : tracker.Agrees map)

include h

theorem Agrees.takeCommittedIntersections (hvirt : virt.Paged) :
  (tracker.after (.takeCommittedIntersections virt)).Agrees
    (map.after (.takeCommittedIntersections virt))
  := by
  rw [PageMap.after, ReservationTracker.after]
  split_ifs with hinside
  · obtain ⟨reservation, hfind⟩ := h.find_ok hinside
    have hwf := (h.found hfind).2.2
    obtain ⟨hnext, hrange, hdrop⟩ := holds_foldl_drop _ hwf (overlaps_paged hwf hvirt)
    rw [takeCommittedIntersections_eq hfind]
    apply h.put hfind hrange hnext
    intro addr state _ hholds
    have hstate := hdrop addr state hholds
    split_ifs at hstate ⊢ with hin hcut hcut
    · exact hstate
    · cases state with
      | committed flags => exact absurd (exists_overlaps_iff.mpr ⟨hin, hholds.covered⟩) hcut
      | unreserved | reserved | swapped token flags => exact hstate
    · exact absurd (exists_overlaps_iff.mp hcut).1 hin
    · exact hstate
  · rw [ReservationTracker.takeCommittedIntersections, h.find_error hinside]
    exact h

/-- A change that changes no page of the range leaves the map as it is. -/
theorem Agrees.unchanged
    (hsame : ∀ addr, IsPage addr → virt.contains addr = true → f (map.page addr) = map.page addr) :
  tracker.Agrees (map.change virt f)
  := by
  refine { h with page := ?_ }
  · intro addr hpage
    simp only [PageMap.change]
    split
    · rename_i hin
      rw [hsame addr hpage hin]
      exact h.page addr hpage
    · exact h.page addr hpage

theorem Agrees.recordSwapOut {addr : Nat} {token : SwapToken}
    (hpage : (⟨addr, pageSize⟩ : VirtRange).Paged) :
  (tracker.after (.recordSwapOut addr token)).Agrees (map.after (.recordSwapOut addr token))
  := by
  have haddr : IsPage addr := hpage.start
  rw [PageMap.after, ReservationTracker.after]
  split_ifs with hinside
  · obtain ⟨reservation, hfind⟩ := h.find_ok hinside
    obtain ⟨hmem, hcontains, hwf⟩ := h.found hfind
    have hin : reservation.range.contains addr = true :=
      contains_of_rangeContains hcontains (contains_start hpage)
    cases hregion : findRegion reservation.committed addr with
    | none =>
      rw [ReservationTracker.recordSwapOut, hfind]
      simp only [bind, Except.bind, hregion]
      apply h.unchanged
      intro other hother hsame
      rw [contains_page_iff hpage hother] at hsame
      subst hsame
      have hnot := mt (h.committed_iff hmem hother hin).mp (not_covered_of_findRegion hregion)
      cases hstate : map.page other with
      | committed flags => exact absurd ⟨flags, hstate⟩ hnot
      | unreserved | reserved | swapped token flags => rfl
    | some region =>
      obtain ⟨hregionMem, hregionAddr⟩ := findRegion_eq_some hregion
      have hcommitted : reservation.Holds addr (.committed region.flags) :=
        ⟨region, hregionMem, hregionAddr, rfl⟩
      have hdropped := hcommitted.drop hwf ⟨addr, pageSize⟩
      rw [if_pos (contains_start hpage)] at hdropped
      rw [recordSwapOut_eq hfind token hregion]
      apply h.put hfind
      · rfl
      · apply (hwf.drop hpage).park
        · exact haddr
        · exact hin
        · exact hdropped
      · intro other state hother hholds
        have hpark := (hholds.drop hwf ⟨addr, pageSize⟩).park
          ⟨addr, token, region.flags, region.owner⟩
        simp only [contains_page_iff hpage hother] at hpark ⊢
        split_ifs at hpark ⊢ with hsame
        · subst hsame
          rw [hholds.unique hwf hcommitted]
          exact hpark
        · exact hpark
  · rw [ReservationTracker.recordSwapOut, h.find_error hinside]
    exact h

theorem Agrees.takeSwapEntry (hpage : (⟨addr, pageSize⟩ : VirtRange).Paged) :
  (tracker.after (.takeSwapEntry addr)).Agrees (map.after (.takeSwapEntry addr))
  := by
  rw [PageMap.after, ReservationTracker.after]
  split
  · rename_i hinside
    obtain ⟨reservation, hfind⟩ := h.find_ok hinside
    obtain ⟨hmem, hcontains, hwf⟩ := h.found hfind
    have hin : reservation.range.contains addr = true :=
      contains_of_rangeContains hcontains (contains_start hpage)
    cases hentry : reservation.swapped.find? fun entry => entry.addr = addr with
    | none =>
      rw [ReservationTracker.takeSwapEntry, hfind]
      simp only [bind, Except.bind, hentry]
      apply h.unchanged
      intro other hother hsame
      rw [contains_page_iff hpage hother] at hsame
      subst hsame
      have hholds := h.holds hmem hother hin
      generalize map.page other = state at *
      cases state with
      | swapped token flags =>
        obtain ⟨entry, hentryMem, haddr, _⟩ := hholds
        have hnone := find?_eq_none.mp hentry entry hentryMem
        exact absurd (decide_eq_true haddr) hnone
      | unreserved | reserved | committed flags => rfl
    | some entry =>
      have hentryMem := mem_of_find?_eq_some hentry
      have hentryAddr := find?_some hentry
      rw [decide_eq_true_eq] at hentryAddr
      have hswapped : reservation.Holds addr (.swapped entry.token entry.flags) :=
        ⟨entry, hentryMem, hentryAddr, rfl, rfl⟩
      rw [takeSwapEntry_eq hwf hpage hfind hentry]
      apply h.put hfind
      · rfl
      · apply (hwf.forget _).grant
        · exact hpage
        · exact hcontains
        · apply vacant_forget
          intro other hother hcovered
          have hlt := lt_of_contains hother
          rw [← hwf.covered_pageBase hlt] at hcovered
          rw [← hpage.contains_pageBase hlt, contains_page_iff hpage (isPage_pageBase other)] at hother
          rw [hother, ← hentryAddr] at hcovered
          exact hwf.uncovered entry hentryMem hcovered
      · intro other state hother hholds
        have hgrant := (hholds.forget hwf ⟨addr, pageSize⟩).grant
          ⟨⟨addr, pageSize⟩, entry.flags, entry.owner⟩
        simp only [contains_page_iff hpage hother] at hgrant ⊢
        split_ifs at hgrant ⊢ with hsame
        · subst hsame
          rw [hholds.unique hwf hswapped]
          exact hgrant
        · exact hgrant
  · rename_i hinside
    rw [ReservationTracker.takeSwapEntry, h.find_error hinside]
    exact h

end

end Steps

end ReservationTracker

end Helios
