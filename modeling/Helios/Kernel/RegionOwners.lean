import Helios.Kernel.PageMapRuns
import Mathlib.Data.List.Nodup

/-!
# Owners of committed pages

A committed region carries the instance it was committed for.  A protection rewrites its range as
one region, for the owner of the first region that it overlaps: every page keeps its owner, and
every owner the bytes that are charged to it, exactly when the regions that the range overlaps
have one owner.
-/

namespace Helios.ReservationTracker

open Reservation VirtRange List

variable {tracker next : ReservationTracker} {map : PageMap} {reservation : Reservation}
  {virt : VirtRange} {region : CommittedRegion} {regions left right : List CommittedRegion}
  {owner : MemoryOwner} {addr : Nat} {flags : PageFlags}

section

variable (tracker)

/-- The regions of all reservations. -/
def committed : List CommittedRegion :=
  tracker.reservations.flatMap Reservation.committed

variable (owner)

/-- The bytes of the regions of an owner. -/
def bytesOf (regions : List CommittedRegion) : Nat :=
  ((regions.filter (·.owner = owner)).map (·.range.byteLen)).sum

def ownedResidentBytes : Nat :=
  bytesOf owner tracker.committed

end

/-- An address is in a region of an owner. -/
def OwnsIn (regions : List CommittedRegion) (addr : Nat) (owner : MemoryOwner) : Prop :=
  ∃ region ∈ regions, region.range.contains addr = true ∧ region.owner = owner

/-- Every page keeps its owner, and every owner its bytes. -/
structure KeepsOwners (tracker next : ReservationTracker) : Prop where
  owns : ∀ addr owner, OwnsIn next.committed addr owner ↔ OwnsIn tracker.committed addr owner
  bytes : ∀ owner, next.ownedResidentBytes owner = tracker.ownedResidentBytes owner

/-- The end of the highest window that reservations are carved from. -/
def userVaEnd : Nat := 0xFFFFE00000000000

def InWindow (tracker : ReservationTracker) : Prop :=
  ∀ reservation ∈ tracker.reservations, reservation.range.endAddr ≤ userVaEnd

/-- The regions that a range overlaps have the owner of the first. -/
def OneOwner (reservation : Reservation) (virt : VirtRange) : Prop :=
  ∀ region ∈ reservation.committed, rangesOverlap region.range virt = true →
    region.owner = protectOwner reservation virt

/-! ### Bytes are addresses -/

/-- The addresses of the regions of an owner. -/
def addressesOf (owner : MemoryOwner) (regions : List CommittedRegion) : List Nat :=
  (regions.filter (·.owner = owner)).flatMap fun region =>
    range' region.range.start region.range.byteLen

theorem length_addressesOf :
  (addressesOf owner regions).length = bytesOf owner regions
  := by
  simp only [addressesOf, bytesOf, length_flatMap, length_range']

section

variable (h : tracker.Wf) (hwindow : tracker.InWindow)

include h hwindow

/-- A region does not end where the end of its range saturates. -/
theorem Wf.mem_region (hregion : region ∈ tracker.committed) :
  addr ∈ range' region.range.start region.range.byteLen ↔ region.range.contains addr = true
  := by
  obtain ⟨reservation, hmem, hregion⟩ := mem_flatMap.mp hregion
  have hend := hwindow reservation hmem
  have hinside := (rangeContains_iff.mp ((h.reservations reservation hmem).inside region hregion)).2
  rw [contains_iff, mem_range'_1]
  simp only [userVaEnd, endAddr, Machine.satAdd, Machine.maxWord] at *
  omega

theorem Wf.mem_addressesOf :
  addr ∈ addressesOf owner tracker.committed ↔ OwnsIn tracker.committed addr owner
  := by
  simp only [addressesOf, mem_flatMap, mem_filter, decide_eq_true_eq, and_assoc]
  refine exists_congr fun region => and_congr_right fun hregion => ?_
  rw [h.mem_region hwindow hregion, and_comm]

theorem Wf.nodup_addressesOf :
  (addressesOf owner tracker.committed).Nodup
  := by
  have hapart : tracker.committed.Pairwise fun a b => a.range.Apart b.range := by
    apply pairwise_flatMap.mpr
    refine ⟨fun reservation hmem => (h.reservations reservation hmem).apart, ?_⟩
    refine h.apart.imp_of_mem fun {a b} ha hb hab x hx y hy => ?_
    apply hab.mono
    · exact fun addr => contains_of_rangeContains ((h.reservations a ha).inside x hx)
    · exact fun addr => contains_of_rangeContains ((h.reservations b hb).inside y hy)
  refine nodup_flatMap.mpr ⟨fun region _ => nodup_range', ?_⟩
  refine (hapart.imp_of_mem fun {a b} ha hb hab addr hin hother => ?_).filter _
  rw [h.mem_region hwindow ha] at hin
  rw [h.mem_region hwindow hb, hab addr hin] at hother
  cases hother

theorem Wf.bytes_eq_of_owns (hnext : next.Wf) (hwindowNext : next.InWindow)
    (howns : ∀ addr, OwnsIn next.committed addr owner ↔ OwnsIn tracker.committed addr owner) :
  next.ownedResidentBytes owner = tracker.ownedResidentBytes owner
  := by
  rw [ownedResidentBytes, ownedResidentBytes, ← length_addressesOf, ← length_addressesOf]
  apply Perm.length_eq
  rw [perm_ext_iff_of_nodup (hnext.nodup_addressesOf hwindowNext) (h.nodup_addressesOf hwindow)]
  intro addr
  rw [hnext.mem_addressesOf hwindowNext, h.mem_addressesOf hwindow, howns]

end

/-! ### Protections -/

theorem ownsIn_append :
  OwnsIn (left ++ right) addr owner ↔ OwnsIn left addr owner ∨ OwnsIn right addr owner
  := by
  simp only [OwnsIn, mem_append, or_and_right, exists_or]

/-- The regions of a reservation after a protection. -/
def reprotected (reservation : Reservation) (virt : VirtRange) (flags : PageFlags) :
    List CommittedRegion :=
  removeCommittedRange reservation.committed virt ++ [⟨virt, flags, protectOwner reservation virt⟩]

theorem ownsIn_reprotected :
  OwnsIn (reprotected reservation virt flags) addr owner ↔
    (virt.contains addr = false ∧ OwnsIn reservation.committed addr owner) ∨
      (virt.contains addr = true ∧ protectOwner reservation virt = owner)
  := by
  have hrest := @exists_removeCommittedRange reservation.committed virt addr fun _ o => o = owner
  rw [reprotected, ownsIn_append]
  apply or_congr hrest
  simp [OwnsIn]

theorem OneOwner.ownsIn (h : OneOwner reservation virt)
    (hcover : ∀ addr, virt.contains addr = true → Covered reservation.committed addr) :
  OwnsIn (reprotected reservation virt flags) addr owner ↔ OwnsIn reservation.committed addr owner
  := by
  rw [ownsIn_reprotected]
  cases hin : virt.contains addr with
  | false => simp
  | true =>
    have hfirst : ∀ region ∈ reservation.committed, region.range.contains addr = true →
        region.owner = protectOwner reservation virt := by
      intro region hregion haddr
      apply h region hregion
      rw [rangesOverlap_iff]
      rw [contains_iff] at hin haddr
      omega
    constructor
    · rintro (⟨hout, _⟩ | ⟨_, rfl⟩)
      · cases hout
      · obtain ⟨region, hregion, haddr⟩ := hcover addr hin
        exact ⟨region, hregion, haddr, hfirst region hregion haddr⟩
    · rintro ⟨region, hregion, haddr, rfl⟩
      exact .inr ⟨rfl, (hfirst region hregion haddr).symm⟩

/-- Where every address of a range has the owner of the first region, so has every region. -/
theorem oneOwner_of_owns (h : tracker.Wf) (hvirt : virt.Paged)
    (hmem : reservation ∈ tracker.reservations)
    (howns : ∀ addr, virt.contains addr = true →
      OwnsIn tracker.committed addr (protectOwner reservation virt)) :
  OneOwner reservation virt
  := by
  intro region hregion hover
  have hwf := h.reservations reservation hmem
  have hlt := (hwf.regions region hregion).nonempty
  have hltVirt := hvirt.nonempty
  rw [rangesOverlap_iff] at hover
  have hin : region.range.contains (max region.range.start virt.start) = true := by
    rw [contains_iff]
    omega
  have hshares : virt.contains (max region.range.start virt.start) = true := by
    rw [contains_iff]
    omega
  obtain ⟨other, hother, haddr, howner⟩ := howns _ hshares
  obtain ⟨second, hsecond, hother⟩ := mem_flatMap.mp hother
  have hfirst := contains_of_rangeContains (hwf.inside region hregion) hin
  have hwfSecond := h.reservations second hsecond
  have hsame := contains_of_rangeContains (hwfSecond.inside other hother) haddr
  cases h.reservation_unique hmem hsecond hfirst hsame
  rw [hwf.region_unique hregion hother hin haddr]
  exact howner

/-- A protection keeps the owners exactly when its range has one. -/
theorem recordProtect_keeps_owners_iff (h : Runs tracker map) (hwindow : tracker.InWindow)
    (hallowed : tracker.Allowed (.recordProtect virt flags)) :
  ∃ reservation next, tracker.find virt = .ok reservation ∧
    tracker.recordProtect virt flags = .ok next ∧
    (KeepsOwners tracker next ↔ OneOwner reservation virt)
  := by
  obtain ⟨reservation, hfind, hcover⟩ := ensureCommitted_eq_ok hallowed.2
  have hwf := h.agrees.wf
  have hmem := (find_eq_ok hfind).1
  have hprotect := recordProtect_eq hfind flags
    (unswapped_of_cover (hwf.reservations reservation hmem) hcover)
  rw [committedRegionsCover_iff] at hcover
  have hnext := (h.after hallowed).agrees.wf
  rw [after, hprotect] at hnext
  generalize heq : (reservation.drop virt).grant ⟨virt, flags, protectOwner reservation virt⟩ =
    changed at hprotect hnext
  obtain ⟨before, rest, hold, hput⟩ := @put_reservations tracker virt reservation changed hfind
  refine ⟨reservation, _, hfind, hprotect, ?_⟩
  constructor
  · intro hkeeps
    apply oneOwner_of_owns hwf hallowed.1.paged hmem
    intro addr haddr
    rw [← hkeeps.owns, committed, hput, flatMap_append, flatMap_cons, ownsIn_append, ownsIn_append,
      ← heq]
    exact .inr (.inl (ownsIn_reprotected.mpr (.inr ⟨haddr, rfl⟩)))
  · intro hone
    have howns : ∀ addr owner, OwnsIn (tracker.put virt changed).committed addr owner ↔
        OwnsIn tracker.committed addr owner := by
      intro addr owner
      simp only [committed, hput, hold, flatMap_append, flatMap_cons, ownsIn_append]
      rw [← heq]
      exact or_congr Iff.rfl (or_congr (hone.ownsIn hcover) Iff.rfl)
    refine ⟨howns, fun owner => hwf.bytes_eq_of_owns hwindow hnext ?_ fun addr => howns addr owner⟩
    intro other hother
    rw [hput, mem_append, mem_cons] at hother
    rcases hother with hother | rfl | hother
    · exact hwindow other (by simp [hold, hother])
    · rw [← heq]
      exact hwindow reservation hmem
    · exact hwindow other (by simp [hold, hother])

/-- Two pages are committed, one for either of two owners. -/
def neighbours : ReservationTracker :=
  ((new.after (.reserve ⟨65536, 8192⟩)).after (.recordCommit ⟨65536, 4096⟩ ⟨1⟩ ⟨1⟩)).after
    (.recordCommit ⟨69632, 4096⟩ ⟨1⟩ ⟨2⟩)

theorem runs_neighbours :
  ∃ map, Runs neighbours map
  := by
  have hreserve : new.Allowed (.reserve ⟨65536, 8192⟩) := by
    refine ⟨⟨by decide, by decide, by decide⟩, ?_⟩
    nofun
  have hfirst : (new.after (.reserve ⟨65536, 8192⟩)).Allowed
      (.recordCommit ⟨65536, 4096⟩ ⟨1⟩ ⟨1⟩) :=
    ⟨⟨by decide, by decide, by decide⟩, by decide⟩
  have hsecond : ((new.after (.reserve ⟨65536, 8192⟩)).after
      (.recordCommit ⟨65536, 4096⟩ ⟨1⟩ ⟨1⟩)).Allowed (.recordCommit ⟨69632, 4096⟩ ⟨1⟩ ⟨2⟩) :=
    ⟨⟨by decide, by decide, by decide⟩, by decide⟩
  exact ⟨_, ((Runs.new.after hreserve).after hfirst).after hsecond⟩

theorem inWindow_neighbours :
  neighbours.InWindow
  := by
  unfold InWindow
  decide

theorem allowed_neighbours :
  neighbours.Allowed (.recordProtect ⟨65536, 8192⟩ ⟨3⟩)
  := ⟨⟨by decide, by decide, by decide⟩, by decide +kernel⟩

theorem recordProtect_keeps_owners_neighbours :
  ∃ map reservation next, Runs neighbours map ∧
    neighbours.recordProtect ⟨65536, 8192⟩ ⟨3⟩ = .ok next ∧
    (KeepsOwners neighbours next ↔ OneOwner reservation ⟨65536, 8192⟩)
  := by
  obtain ⟨map, hruns⟩ := runs_neighbours
  obtain ⟨reservation, next, _, hprotect, hkeeps⟩ :=
    recordProtect_keeps_owners_iff hruns inWindow_neighbours allowed_neighbours
  exact ⟨map, reservation, next, hruns, hprotect, hkeeps⟩

/-- A protection of both pages takes the second from its owner. -/
theorem protection_moves_page :
  ∃ tracker map, Runs tracker map ∧ tracker.InWindow ∧
    tracker.Allowed (.recordProtect ⟨65536, 8192⟩ ⟨3⟩) ∧ OwnsIn tracker.committed 69632 ⟨2⟩ ∧
    ¬ OwnsIn (tracker.after (.recordProtect ⟨65536, 8192⟩ ⟨3⟩)).committed 69632 ⟨2⟩
  := by
  obtain ⟨map, hruns⟩ := runs_neighbours
  refine ⟨neighbours, map, hruns, inWindow_neighbours, allowed_neighbours, ?_, ?_⟩
  · exact ⟨⟨⟨69632, 4096⟩, ⟨1⟩, ⟨2⟩⟩, by decide, by decide, rfl⟩
  · change ¬ OwnsIn (reprotected (neighbours.reservations.head (by decide)) ⟨65536, 8192⟩ ⟨3⟩ ++ [])
      69632 ⟨2⟩
    rw [append_nil, ownsIn_reprotected]
    rintro (⟨hout, _⟩ | ⟨_, howner⟩)
    · exact absurd hout (by decide)
    · exact absurd howner (by decide)

end Helios.ReservationTracker
