import Helios.Kernel.Carving
import Mathlib.Data.List.Sort

/-!
# Changes to one reservation

A reservation is well formed when its regions are apart and inside it, and its swapped pages
are sorted and in no region.  The operations change a reservation by a few small steps:
dropping a range from its regions, granting a region, forgetting the swapped pages of a range,
parking a page and fetching it back.  Each step keeps the reservation well formed and changes
what it holds page by page.
-/

namespace Helios

open List

namespace Reservation

variable {addr : Nat} {range : VirtRange} {entry : SwapEntry} {entries : List SwapEntry}

/-- The invariant of a reservation. -/
structure Wf (reservation : Reservation) : Prop where
  paged : reservation.range.Paged
  regions : ∀ region ∈ reservation.committed, region.range.Paged
  inside : ∀ region ∈ reservation.committed, rangeContains reservation.range region.range = true
  apart : reservation.committed.Pairwise fun a b => a.range.Apart b.range
  sorted : reservation.swapped.Pairwise fun a b => a.addr < b.addr
  entries : ∀ entry ∈ reservation.swapped,
    IsPage entry.addr ∧ reservation.range.contains entry.addr = true
  uncovered : ∀ entry ∈ reservation.swapped, ¬ Covered reservation.committed entry.addr

/-- What a reservation says of an address inside it. -/
def Holds (reservation : Reservation) (addr : Nat) : PageState → Prop
  | .unreserved => False
  | .reserved =>
    ¬ Covered reservation.committed addr ∧ ∀ entry ∈ reservation.swapped, entry.addr ≠ addr
  | .committed flags =>
    ∃ region ∈ reservation.committed, region.range.contains addr = true ∧ region.flags = flags
  | .swapped token flags =>
    ∃ entry ∈ reservation.swapped, entry.addr = addr ∧ entry.token = token ∧ entry.flags = flags

variable {reservation : Reservation}

theorem Holds.covered {flags : PageFlags} (h : reservation.Holds addr (.committed flags)) :
  Covered reservation.committed addr
  := by
  obtain ⟨region, hmem, haddr, _⟩ := h
  exact ⟨region, hmem, haddr⟩

theorem Wf.region_unique (h : reservation.Wf) {a b : CommittedRegion}
    (ha : a ∈ reservation.committed) (hb : b ∈ reservation.committed)
    (haddr : a.range.contains addr = true) (hbaddr : b.range.contains addr = true) :
  a = b
  := by
  by_contra hne
  have hapart := VecScan.rel_of_pairwise (fun _ _ hab => hab.symm) h.apart ha hb hne
  rw [hapart addr haddr] at hbaddr
  contradiction

theorem Wf.covered_pageBase (h : reservation.Wf) (hlt : addr < 2 ^ 64 - 1) :
  Covered reservation.committed (pageBase addr) ↔ Covered reservation.committed addr
  := by
  constructor
  · rintro ⟨region, hmem, hin⟩
    rw [(h.regions region hmem).contains_pageBase hlt] at hin
    exact ⟨region, hmem, hin⟩
  · rintro ⟨region, hmem, hin⟩
    rw [← (h.regions region hmem).contains_pageBase hlt] at hin
    exact ⟨region, hmem, hin⟩

theorem Wf.entry_unique (h : reservation.Wf) {a b : SwapEntry} (ha : a ∈ reservation.swapped)
    (hb : b ∈ reservation.swapped) (haddr : a.addr = b.addr) :
  a = b
  := by
  by_contra hne
  have hdistinct : reservation.swapped.Pairwise fun a b => a.addr ≠ b.addr :=
    h.sorted.imp fun hlt => Nat.ne_of_lt hlt
  exact VecScan.rel_of_pairwise (fun _ _ hab => hab.symm) hdistinct ha hb hne haddr

/-- A reservation says one thing of an address. -/
theorem Holds.unique (hwf : reservation.Wf) {a b : PageState} (ha : reservation.Holds addr a)
    (hb : reservation.Holds addr b) :
  a = b
  := by
  cases a with
  | unreserved => cases ha
  | reserved =>
    cases b with
    | unreserved => cases hb
    | reserved => rfl
    | committed flags => exact absurd hb.covered ha.1
    | swapped token flags =>
      obtain ⟨entry, hmem, haddr, _⟩ := hb
      exact absurd haddr (ha.2 entry hmem)
  | committed flags =>
    cases b with
    | unreserved => cases hb
    | reserved => exact absurd ha.covered hb.1
    | committed flags' =>
      obtain ⟨region, hmem, haddr, rfl⟩ := ha
      obtain ⟨region', hmem', haddr', rfl⟩ := hb
      rw [hwf.region_unique hmem hmem' haddr haddr']
    | swapped token flags' =>
      obtain ⟨entry, hmem, rfl, _⟩ := hb
      exact absurd ha.covered (hwf.uncovered entry hmem)
  | swapped token flags =>
    obtain ⟨entry, hmem, rfl, rfl, rfl⟩ := ha
    cases b with
    | unreserved => cases hb
    | reserved => exact absurd rfl (hb.2 entry hmem)
    | committed flags' => exact absurd hb.covered (hwf.uncovered entry hmem)
    | swapped token' flags' =>
      obtain ⟨entry', hmem', haddr', rfl, rfl⟩ := hb
      rw [hwf.entry_unique hmem hmem' haddr'.symm]

/-! ### Dropping a range from the regions -/

def drop (reservation : Reservation) (range : VirtRange) : Reservation :=
  { reservation with committed := removeCommittedRange reservation.committed range }

theorem covered_drop :
  Covered (reservation.drop range).committed addr ↔
    range.contains addr = false ∧ Covered reservation.committed addr
  := by
  have h := @exists_removeCommittedRange reservation.committed range addr fun _ _ => True
  simp only [and_true] at h
  exact h

theorem Wf.drop (h : reservation.Wf) {range : VirtRange} (hrange : range.Paged) :
  (reservation.drop range).Wf
  := by
  constructor
  · exact h.paged
  · intro rest hrest
    obtain ⟨region, hmem, hkept⟩ := mem_removeCommittedRange.mp hrest
    exact kept_paged hrange (h.regions region hmem) hkept
  · intro rest hrest
    obtain ⟨region, hmem, hkept⟩ := mem_removeCommittedRange.mp hrest
    exact rangeContains_kept (h.inside region hmem) hkept
  · exact removeCommittedRange_apart hrange h.apart
  · exact h.sorted
  · exact h.entries
  · intro entry hmem hcovered
    exact h.uncovered entry hmem (covered_drop.mp hcovered).2

variable {state : PageState}

theorem Holds.drop (h : reservation.Holds addr state) (hwf : reservation.Wf) (range : VirtRange) :
  (reservation.drop range).Holds addr
    (if range.contains addr then PageMap.dropCommitted state else state)
  := by
  cases state with
  | unreserved => cases h
  | reserved =>
    have hkeeps : (reservation.drop range).Holds addr .reserved := by
      constructor
      · intro hcovered
        exact h.1 (covered_drop.mp hcovered).2
      · exact h.2
    split <;> exact hkeeps
  | committed flags =>
    split
    · rename_i hin
      constructor
      · intro hcovered
        rw [(covered_drop.mp hcovered).1] at hin
        contradiction
      · intro entry hmem haddr
        subst haddr
        exact hwf.uncovered entry hmem h.covered
    · rename_i hout
      have hmem := @exists_removeCommittedRange reservation.committed range addr fun f _ => f = flags
      exact hmem.mpr ⟨Bool.not_eq_true _ ▸ hout, h⟩
  | swapped token flags =>
    split <;> exact h

/-! ### Granting a region -/

def grant (reservation : Reservation) (region : CommittedRegion) : Reservation :=
  { reservation with committed := reservation.committed ++ [region] }

variable {region : CommittedRegion}

theorem covered_grant :
  Covered (reservation.grant region).committed addr ↔
    Covered reservation.committed addr ∨ region.range.contains addr = true
  := by
  simp only [Covered, grant, mem_append, mem_singleton]
  constructor
  · rintro ⟨other, hmem | rfl, haddr⟩
    · exact .inl ⟨other, hmem, haddr⟩
    · exact .inr haddr
  · rintro (⟨other, hmem, haddr⟩ | haddr)
    · exact ⟨other, .inl hmem, haddr⟩
    · exact ⟨region, .inr rfl, haddr⟩

/-- A range in which nothing is committed or swapped out. -/
structure Vacant (reservation : Reservation) (range : VirtRange) : Prop where
  uncommitted : ∀ addr, range.contains addr = true → ¬ Covered reservation.committed addr
  unswapped : ∀ entry ∈ reservation.swapped, range.contains entry.addr = false

theorem Wf.grant (h : reservation.Wf) (hpaged : region.range.Paged)
    (hinside : rangeContains reservation.range region.range = true)
    (hvacant : reservation.Vacant region.range) :
  (reservation.grant region).Wf
  := by
  constructor
  · exact h.paged
  · exact forall_mem_append.mpr ⟨h.regions, forall_mem_singleton.mpr hpaged⟩
  · exact forall_mem_append.mpr ⟨h.inside, forall_mem_singleton.mpr hinside⟩
  · apply pairwise_append.mpr
    refine ⟨h.apart, pairwise_singleton _ _, ?_⟩
    intro other hmem region' hregion addr haddr
    rw [mem_singleton.mp hregion]
    cases hin : region.range.contains addr with
    | false => rfl
    | true => exact absurd ⟨other, hmem, haddr⟩ (hvacant.uncommitted addr hin)
  · exact h.sorted
  · exact h.entries
  · intro entry hmem hcovered
    rcases covered_grant.mp hcovered with hcovered | hin
    · exact h.uncovered entry hmem hcovered
    · rw [hvacant.unswapped entry hmem] at hin
      contradiction

theorem Holds.grant (h : reservation.Holds addr state) (region : CommittedRegion) :
  (reservation.grant region).Holds addr
    (if region.range.contains addr then .committed region.flags else state)
  := by
  split
  · rename_i hin
    exact ⟨region, mem_append_right _ (mem_singleton_self _), hin, rfl⟩
  · rename_i hout
    cases state with
    | unreserved => cases h
    | reserved =>
      constructor
      · intro hcovered
        rcases covered_grant.mp hcovered with hcovered | hin
        · exact h.1 hcovered
        · exact hout hin
      · exact h.2
    | committed flags =>
      obtain ⟨other, hmem, haddr, hflags⟩ := h
      exact ⟨other, mem_append_left _ hmem, haddr, hflags⟩
    | swapped token flags => exact h

/-! ### Forgetting the swapped pages of a range -/

def forget (reservation : Reservation) (range : VirtRange) : Reservation :=
  { reservation with swapped := (takeSwappedRange reservation.swapped range).1 }

theorem mem_forget :
  entry ∈ (reservation.forget range).swapped ↔
    entry ∈ reservation.swapped ∧ range.contains entry.addr = false
  := by
  simp [forget, takeSwappedRange]

theorem Wf.forget (h : reservation.Wf) (range : VirtRange) :
  (reservation.forget range).Wf
  := by
  refine { h with sorted := ?_, entries := ?_, uncovered := ?_ }
  · exact h.sorted.filter _
  · intro entry hmem
    exact h.entries entry (mem_forget.mp hmem).1
  · intro entry hmem
    exact h.uncovered entry (mem_forget.mp hmem).1

theorem Holds.forget (h : reservation.Holds addr state) (hwf : reservation.Wf) (range : VirtRange) :
  (reservation.forget range).Holds addr
    (if range.contains addr then PageMap.dropSwapped state else state)
  := by
  cases state with
  | unreserved => cases h
  | reserved =>
    have hkeeps : (reservation.forget range).Holds addr .reserved := by
      refine ⟨h.1, ?_⟩
      intro entry hmem
      exact h.2 entry (mem_forget.mp hmem).1
    split <;> exact hkeeps
  | committed flags => split <;> exact h
  | swapped token flags =>
    obtain ⟨entry, hmem, rfl, rfl, rfl⟩ := h
    split_ifs with hin
    · refine ⟨hwf.uncovered entry hmem, ?_⟩
      intro other hother haddr
      have hout := (mem_forget.mp hother).2
      rw [haddr, hin] at hout
      contradiction
    · exact ⟨entry, mem_forget.mpr ⟨hmem, Bool.not_eq_true _ ▸ hin⟩, rfl, rfl, rfl⟩

theorem vacant_forget
    (h : ∀ addr, range.contains addr = true → ¬ Covered reservation.committed addr) :
  (reservation.forget range).Vacant range
  := by
  constructor
  · exact h
  · intro entry hmem
    exact (mem_forget.mp hmem).2

/-! ### Parking a page and fetching it back -/

theorem insertSwapped_eq (entries : List SwapEntry) (entry : SwapEntry) :
  insertSwapped entries entry = entries.orderedInsert (Order.Preimage SwapEntry.addr (· ≤ ·)) entry
  := by
  induction entries with
  | nil => rfl
  | cons first entries ih =>
    simp only [insertSwapped] at ih ⊢
    by_cases hlt : first.addr < entry.addr
    · rw [takeWhile_cons_of_pos (by simpa using hlt), length_cons, insertIdx_succ_cons, ih,
        orderedInsert_of_not_le]
      exact not_le_of_gt hlt
    · rw [takeWhile_cons_of_neg (by simpa using hlt), orderedInsert_cons_of_le]
      · rfl
      · exact le_of_not_gt hlt

theorem mem_insertSwapped {other : SwapEntry} :
  other ∈ insertSwapped entries entry ↔ other = entry ∨ other ∈ entries
  := by
  rw [insertSwapped_eq, mem_orderedInsert]

theorem sorted_insertSwapped (h : entries.Pairwise fun a b => a.addr < b.addr)
    (hnew : ∀ other ∈ entries, other.addr ≠ entry.addr) :
  (insertSwapped entries entry).Pairwise fun a b => a.addr < b.addr
  := by
  rw [insertSwapped_eq]
  have hle := (h.imp Nat.le_of_lt).orderedInsert (r := Order.Preimage SwapEntry.addr (· ≤ ·)) entry
  have hne := (perm_orderedInsert (Order.Preimage SwapEntry.addr (· ≤ ·)) entry entries).symm.pairwise
    (pairwise_cons.mpr ⟨fun other hmem => (hnew other hmem).symm, h.imp Nat.ne_of_lt⟩) Ne.symm
  exact hle.imp₂ (fun _ _ => Nat.lt_of_le_of_ne) hne

def park (reservation : Reservation) (entry : SwapEntry) : Reservation :=
  { reservation with swapped := insertSwapped reservation.swapped entry }

theorem Wf.park (h : reservation.Wf) {entry : SwapEntry} (hpage : IsPage entry.addr)
    (hinside : reservation.range.contains entry.addr = true)
    (hholds : reservation.Holds entry.addr .reserved) :
  (reservation.park entry).Wf
  := by
  refine { h with sorted := ?_, entries := ?_, uncovered := ?_ }
  · exact sorted_insertSwapped h.sorted hholds.2
  · intro other hmem
    rcases mem_insertSwapped.mp hmem with rfl | hmem
    · exact ⟨hpage, hinside⟩
    · exact h.entries other hmem
  · intro other hmem
    rcases mem_insertSwapped.mp hmem with rfl | hmem
    · exact hholds.1
    · exact h.uncovered other hmem

theorem Holds.park (h : reservation.Holds addr state) (entry : SwapEntry) :
  (reservation.park entry).Holds addr
    (if addr = entry.addr then .swapped entry.token entry.flags else state)
  := by
  split
  · rename_i heq
    exact ⟨entry, mem_insertSwapped.mpr (.inl rfl), heq.symm, rfl, rfl⟩
  · rename_i hne
    cases state with
    | unreserved => cases h
    | reserved =>
      refine ⟨h.1, ?_⟩
      intro other hmem
      rcases mem_insertSwapped.mp hmem with rfl | hmem
      · exact fun heq => hne heq.symm
      · exact h.2 other hmem
    | committed flags => exact h
    | swapped token flags =>
      obtain ⟨other, hmem, hsame⟩ := h
      exact ⟨other, mem_insertSwapped.mpr (.inr hmem), hsame⟩

theorem eraseP_eq_filter (h : entries.Pairwise fun a b => a.addr < b.addr) :
  (entries.eraseP fun entry => entry.addr = addr) =
    entries.filter fun entry => !decide (entry.addr = addr)
  := by
  induction entries with
  | nil => rfl
  | cons first entries ih =>
    rw [pairwise_cons] at h
    by_cases hfirst : first.addr = addr
    · rw [eraseP_cons_of_pos (by simpa using hfirst), filter_cons_of_neg (by simpa using hfirst)]
      apply Eq.symm
      rw [filter_eq_self]
      intro entry hmem
      have := h.1 entry hmem
      simp only [Bool.not_eq_true', decide_eq_false_iff_not]
      omega
    · rw [eraseP_cons_of_neg (by simpa using hfirst), filter_cons_of_pos (by simpa using hfirst),
        ih h.2]

/-- Fetching a page back forgets the swapped pages of its range, of which it is the only
one. -/
theorem Wf.fetch_eq (h : reservation.Wf) (hpage : (⟨addr, pageSize⟩ : VirtRange).Paged) :
  { reservation with swapped := reservation.swapped.eraseP fun entry => entry.addr = addr } =
    reservation.forget ⟨addr, pageSize⟩
  := by
  rw [eraseP_eq_filter h.sorted]
  congr 1
  apply filter_congr
  intro entry hmem
  have hiff := contains_page_iff hpage (h.entries entry hmem).1
  rw [Bool.not_inj_iff, Bool.eq_iff_iff, decide_eq_true_iff, hiff]

end Reservation

end Helios
