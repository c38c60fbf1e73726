import Helios.Library.Machine
import Helios.Library.VecScan

/-!
# Reservations

The bookkeeping of an address space: reservations, the committed regions inside them with
the flags they were granted, and the pages inside them whose contents are swapped out.
Regions are kept in no order, in a vector that is edited while it is scanned; swapped pages
are kept by ascending address.  Addresses are 64-bit words, and the end of a range stops at
the largest of them.
-/

namespace Helios

/-! ### Ranges -/

/-- The size of a page, which is that of a physical frame. -/
def pageSize : Nat := 4096

/-- The addresses from `start` on and before `start + byteLen`. -/
structure VirtRange where
  start : Nat
  byteLen : Nat
  deriving DecidableEq, Repr

namespace VirtRange

variable (range : VirtRange)

def endAddr : Nat :=
  Machine.satAdd 64 range.start range.byteLen

def contains (addr : Nat) : Bool :=
  addr ≥ range.start && addr < range.endAddr

def isPageAligned : Bool :=
  range.start % pageSize = 0 && range.byteLen % pageSize = 0

end VirtRange

def rangeContains (outer inner : VirtRange) : Bool :=
  outer.start ≤ inner.start && inner.endAddr ≤ outer.endAddr

def rangesOverlap (a b : VirtRange) : Bool :=
  a.start < b.endAddr && b.start < a.endAddr

def rangeIntersection (a b : VirtRange) : Option VirtRange :=
  let start := max a.start b.start
  let stop := min a.endAddr b.endAddr
  if start < stop then some ⟨start, stop - start⟩ else none

/-! ### Regions and swapped pages -/

inductive AddressSpaceError where
  | misaligned
  | emptyRange
  | overlap
  | notReserved
  | notCommitted
  | outOfFrames
  | pageTableExhausted
  | invalidFlags
  | notSwapped
  | badPageBuffer
  deriving DecidableEq, Repr

structure PageFlags where
  bits : Nat
  deriving DecidableEq, Repr

structure MemoryOwner where
  raw : Nat
  deriving DecidableEq, Repr

def MemoryOwner.none : MemoryOwner := ⟨0⟩

/-- The index of a swapped page in the swap map, which is not zero. -/
structure SwapToken where
  raw : Nat
  deriving DecidableEq, Repr

structure CommittedRegion where
  range : VirtRange
  flags : PageFlags
  owner : MemoryOwner
  deriving DecidableEq, Repr

/-- A page whose contents are swapped out, with the flags to restore. -/
structure SwapEntry where
  addr : Nat
  token : SwapToken
  flags : PageFlags
  owner : MemoryOwner
  deriving DecidableEq, Repr

structure Reservation where
  range : VirtRange
  committed : List CommittedRegion
  swapped : List SwapEntry
  deriving DecidableEq, Repr

inductive ReservationLookup where
  | unreserved
  | reserved
  | committed (region : CommittedRegion)
  deriving DecidableEq, Repr

structure ReleasedReservation where
  committed : List CommittedRegion
  swapped : List SwapEntry
  deriving DecidableEq, Repr

structure AccessibilityPlan where
  protect : List VirtRange
  commit : List VirtRange
  deriving DecidableEq, Repr

structure ReservationTracker where
  reservations : List Reservation
  freeList : List VirtRange
  deriving DecidableEq, Repr

def validateRange (virt : VirtRange) : Except AddressSpaceError Unit :=
  if virt.byteLen = 0 then .error .emptyRange
  else if !virt.isPageAligned then .error .misaligned
  else .ok ()

/-! ### Loops over regions -/

/-- What is left of a region when a range is removed from it. -/
def leftover (range : VirtRange) (region : CommittedRegion) : List CommittedRegion :=
  (if region.range.start < range.start then
    [{ region with range := ⟨region.range.start, range.start - region.range.start⟩ }]
  else []) ++
  (if range.endAddr < region.range.endAddr then
    [{ region with range := ⟨range.endAddr, region.range.endAddr - range.endAddr⟩ }]
  else [])

theorem leftover_apart (range : VirtRange) (region : CommittedRegion) :
  ∀ rest ∈ leftover range region, rangesOverlap rest.range range = false
  := by
  intro rest hmem
  rcases List.mem_append.mp hmem with hmem | hmem
  · split at hmem
    · rw [List.mem_singleton.mp hmem]
      have hend : (⟨region.range.start, range.start - region.range.start⟩ : VirtRange).endAddr ≤
          range.start := by
        apply Nat.le_trans (Nat.min_le_left _ _)
        simp only
        omega
      simp only [rangesOverlap, Bool.and_eq_false_iff, decide_eq_false_iff_not]
      omega
    · cases hmem
  · split at hmem
    · rw [List.mem_singleton.mp hmem]
      simp [rangesOverlap]
    · cases hmem

variable (regions : List CommittedRegion)

/-- Removes a range from the regions: scans them and replaces every region that overlaps it,
by `swap_remove`, by what is left of it. -/
def removeCommittedRange (range : VirtRange) :
    List CommittedRegion :=
  VecScan.replaceFrom (fun region => rangesOverlap region.range range) (leftover range)
    (leftover_apart range) regions 0

def findRegion (addr : Nat) : Option CommittedRegion :=
  regions.find? fun region => region.range.contains addr

theorem lt_of_findRegion {regions : List CommittedRegion} {addr : Nat} {region : CommittedRegion}
    (h : findRegion regions addr = some region) :
  addr < region.range.endAddr
  := by
  have hcontains := List.find?_some h
  simp only [VirtRange.contains, Bool.and_eq_true, decide_eq_true_eq] at hcontains
  exact hcontains.2

/-- The loop that follows regions from an address to the end of a range. -/
def coversFrom (regions : List CommittedRegion) (stop cursor : Nat) : Bool :=
  if cursor < stop then
    match _hfind : findRegion regions cursor with
    | none => false
    | some region => coversFrom regions stop (min region.range.endAddr stop)
  else
    true
termination_by stop - cursor
decreasing_by
  have := lt_of_findRegion _hfind
  omega

def committedRegionsCover (range : VirtRange) : Bool :=
  coversFrom regions range.endAddr range.start

/-- The first start of a region after an address and before another. -/
def nextCommittedStart (cursor stop : Nat) : Nat :=
  ((regions.filterMap fun region =>
    if cursor < region.range.start ∧ region.range.start < stop then some region.range.start
    else none).min?).getD stop

theorem lt_nextCommittedStart {cursor stop : Nat}
    (h : cursor < stop) :
  cursor < nextCommittedStart regions cursor stop ∧ nextCommittedStart regions cursor stop ≤ stop
  := by
  rw [nextCommittedStart]
  cases hmin : (regions.filterMap fun region =>
      if cursor < region.range.start ∧ region.range.start < stop then some region.range.start
      else none).min? with
  | none => exact ⟨h, Nat.le_refl _⟩
  | some start =>
    have hmem := List.min?_mem hmin
    rw [List.mem_filterMap] at hmem
    obtain ⟨region, _, hstart⟩ := hmem
    split at hstart <;> cases hstart
    rename_i hbetween
    exact ⟨hbetween.1, Nat.le_of_lt hbetween.2⟩

/-- The loop that splits the stretch from an address to the end of a range. -/
def planFrom (regions : List CommittedRegion) (stop cursor : Nat) : AccessibilityPlan :=
  if _hlt : cursor < stop then
    match _hfind : findRegion regions cursor with
    | some region =>
      let next := min region.range.endAddr stop
      let plan := planFrom regions stop next
      { plan with protect := ⟨cursor, next - cursor⟩ :: plan.protect }
    | none =>
      let next := nextCommittedStart regions cursor stop
      let plan := planFrom regions stop next
      { plan with commit := ⟨cursor, next - cursor⟩ :: plan.commit }
  else
    ⟨[], []⟩
termination_by stop - cursor
decreasing_by
  · have := lt_of_findRegion _hfind
    omega
  · have := lt_nextCommittedStart regions _hlt
    omega

/-- Removes and returns the swapped pages inside a range. -/
def takeSwappedRange (entries : List SwapEntry) (range : VirtRange) :
    List SwapEntry × List SwapEntry :=
  (entries.filter fun entry => !range.contains entry.addr,
    entries.filter fun entry => range.contains entry.addr)

/-- Inserts an entry before the first that has no lower address. -/
def insertSwapped (entries : List SwapEntry) (entry : SwapEntry) : List SwapEntry :=
  let position := (entries.takeWhile fun existing => existing.addr < entry.addr).length
  entries.insertIdx position entry

/-! ### Operations -/

namespace ReservationTracker

variable (tracker : ReservationTracker)

def new : ReservationTracker := ⟨[], []⟩

section

variable (virt : VirtRange)

/-- The first reservation that a range lies inside. -/
def find : Except AddressSpaceError Reservation :=
  match tracker.reservations.find? fun reservation => rangeContains reservation.range virt with
  | some reservation => .ok reservation
  | none => .error .notReserved

/-- Writes the reservation back that `find` returned for a range. -/
def put (reservation : Reservation) : ReservationTracker :=
  let index := tracker.reservations.findIdx fun reservation => rangeContains reservation.range virt
  { tracker with reservations := tracker.reservations.set index reservation }

/-- The caller chooses the addresses. -/
def reserve (range : VirtRange) : ReservationTracker :=
  { tracker with reservations := tracker.reservations ++ [⟨range, [], []⟩] }

/-- Removes the reservation of exactly this range and returns what it held. -/
def release (range : VirtRange) :
    Except AddressSpaceError (ReleasedReservation × ReservationTracker) :=
  match tracker.reservations.find? fun reservation => reservation.range = range with
  | none => .error .notReserved
  | some reservation =>
    let index := tracker.reservations.findIdx fun reservation => reservation.range = range
    .ok (⟨reservation.committed, reservation.swapped⟩,
      { tracker with reservations := VecScan.swapRemove tracker.reservations index })

def precheckCommit : Except AddressSpaceError Unit := do
  let reservation ← tracker.find virt
  if reservation.committed.any fun region => rangesOverlap region.range virt then
    .error .overlap
  else
    .ok ()

/-- Records a region after it was mapped, and returns the swapped pages it was mapped over. -/
def recordCommit (flags : PageFlags) (owner : MemoryOwner) : Except AddressSpaceError (List SwapEntry × ReservationTracker) := do
  let reservation ← tracker.find virt
  let taken := takeSwappedRange reservation.swapped virt
  .ok (taken.2, tracker.put virt
    { reservation with
      committed := reservation.committed ++ [⟨virt, flags, owner⟩]
      swapped := taken.1 })

def ensureCommitted : Except AddressSpaceError Unit := do
  let reservation ← tracker.find virt
  if committedRegionsCover reservation.committed virt then .ok () else .error .notCommitted

def recordDecommit : Except AddressSpaceError (List SwapEntry × ReservationTracker) := do
  tracker.ensureCommitted virt
  let reservation ← tracker.find virt
  let taken := takeSwappedRange reservation.swapped virt
  .ok (taken.2, tracker.put virt
    { reservation with
      committed := removeCommittedRange reservation.committed virt
      swapped := taken.1 })

/-- Replaces the flags of a range, for the owner of the first region that overlaps it. -/
def recordProtect (flags : PageFlags) : Except AddressSpaceError ReservationTracker := do
  let reservation ← tracker.find virt
  let owner := ((reservation.committed.find? fun region =>
    rangesOverlap region.range virt).map CommittedRegion.owner).getD MemoryOwner.none
  .ok (tracker.put virt
    { reservation with
      committed := removeCommittedRange reservation.committed virt ++ [⟨virt, flags, owner⟩]
      swapped := reservation.swapped.map fun entry =>
        if virt.contains entry.addr then { entry with flags } else entry })

def reservationRange : Except AddressSpaceError VirtRange := do
  let reservation ← tracker.find virt
  .ok reservation.range

def lookup (addr : Nat) : ReservationLookup :=
  match tracker.reservations.find? fun reservation => reservation.range.contains addr with
  | none => .unreserved
  | some reservation =>
    match findRegion reservation.committed addr with
    | some region => .committed region
    | none => .reserved

/-- The committed regions that meet a range, clipped to it. -/
def committedIntersections : Except AddressSpaceError (List CommittedRegion) := do
  let reservation ← tracker.find virt
  .ok (reservation.committed.filterMap fun region =>
    (rangeIntersection region.range virt).map fun range => { region with range })

def takeSwapEntriesIn : List SwapEntry × ReservationTracker :=
  match tracker.find virt with
  | .ok reservation =>
    let taken := takeSwappedRange reservation.swapped virt
    (taken.2, tracker.put virt { reservation with swapped := taken.1 })
  | .error _ => ([], tracker)

def takeCommittedIntersections :
    Except AddressSpaceError (List VirtRange × ReservationTracker) := do
  let reservation ← tracker.find virt
  let overlaps := reservation.committed.filterMap fun region =>
    rangeIntersection region.range virt
  .ok (overlaps, tracker.put virt
    { reservation with committed := overlaps.foldl removeCommittedRange reservation.committed })

def accessibilityPlan : Except AddressSpaceError AccessibilityPlan := do
  let reservation ← tracker.find virt
  .ok (planFrom reservation.committed virt.endAddr virt.start)

end

/-- Takes a released range of at least a length, and gives back what is not needed of it. -/
def reuseFreeRange (byteLen : Nat) :
    Option (VirtRange × ReservationTracker) :=
  match tracker.freeList.find? fun range => range.byteLen ≥ byteLen with
  | none => none
  | some reused =>
    let index := tracker.freeList.findIdx fun range => range.byteLen ≥ byteLen
    let rest := VecScan.swapRemove tracker.freeList index
    if reused.byteLen > byteLen then
      some (⟨reused.start, byteLen⟩,
        { tracker with freeList := rest ++ [⟨reused.start + byteLen, reused.byteLen - byteLen⟩] })
    else
      some (reused, { tracker with freeList := rest })

def pushFreeRange (range : VirtRange) : ReservationTracker :=
  { tracker with freeList := tracker.freeList ++ [range] }

/-- Moves a committed page into the swapped set and returns the flags it had. -/
def recordSwapOut (addr : Nat) (token : SwapToken) :
    Except AddressSpaceError (PageFlags × ReservationTracker) := do
  let page : VirtRange := ⟨addr, pageSize⟩
  let reservation ← tracker.find page
  match findRegion reservation.committed addr with
  | none => .error .notCommitted
  | some region =>
    .ok (region.flags, tracker.put page
      { reservation with
        committed := removeCommittedRange reservation.committed page
        swapped := insertSwapped reservation.swapped ⟨addr, token, region.flags, region.owner⟩ })

def takeSwapEntry (addr : Nat) :
    Except AddressSpaceError (SwapEntry × ReservationTracker) := do
  let page : VirtRange := ⟨addr, pageSize⟩
  let reservation ← tracker.find page
  match reservation.swapped.find? fun entry => entry.addr = addr with
  | none => .error .notSwapped
  | some entry =>
    .ok (entry, tracker.put page
      { reservation with
        committed := reservation.committed ++ [⟨page, entry.flags, entry.owner⟩]
        swapped := reservation.swapped.eraseP fun entry => entry.addr = addr })

def swapEntry (addr : Nat) : Option SwapEntry :=
  match tracker.find ⟨addr, pageSize⟩ with
  | .ok reservation => reservation.swapped.find? fun entry => entry.addr = addr
  | .error _ => none

/-! ### Sequences of operations -/

/-- The operations that change a tracker. -/
inductive Op where
  | reserve (range : VirtRange)
  | release (range : VirtRange)
  | recordCommit (virt : VirtRange) (flags : PageFlags) (owner : MemoryOwner)
  | recordDecommit (virt : VirtRange)
  | recordProtect (virt : VirtRange) (flags : PageFlags)
  | takeSwapEntriesIn (virt : VirtRange)
  | takeCommittedIntersections (virt : VirtRange)
  | reuseFreeRange (byteLen : Nat)
  | pushFreeRange (range : VirtRange)
  | recordSwapOut (addr : Nat) (token : SwapToken)
  | takeSwapEntry (addr : Nat)
  deriving DecidableEq, Repr

def orElse {α : Type} (tracker : ReservationTracker) :
    Except AddressSpaceError (α × ReservationTracker) → ReservationTracker
  | .ok (_, next) => next
  | .error _ => tracker

/-- The tracker after an operation. -/
def after : Op → ReservationTracker
  | .reserve range => tracker.reserve range
  | .release range => tracker.orElse (tracker.release range)
  | .recordCommit virt flags owner => tracker.orElse (tracker.recordCommit virt flags owner)
  | .recordDecommit virt => tracker.orElse (tracker.recordDecommit virt)
  | .recordProtect virt flags =>
    tracker.orElse ((tracker.recordProtect virt flags).map fun next => ((), next))
  | .takeSwapEntriesIn virt => (tracker.takeSwapEntriesIn virt).2
  | .takeCommittedIntersections virt => tracker.orElse (tracker.takeCommittedIntersections virt)
  | .reuseFreeRange byteLen => ((tracker.reuseFreeRange byteLen).map Prod.snd).getD tracker
  | .pushFreeRange range => tracker.pushFreeRange range
  | .recordSwapOut addr token => tracker.orElse (tracker.recordSwapOut addr token)
  | .takeSwapEntry addr => tracker.orElse (tracker.takeSwapEntry addr)

/-- No operation aborts. -/
def step (op : Op) : Except Empty (ReservationTracker × Unit) :=
  .ok (tracker.after op, ())

/-- A range of machine words that the validation accepts. -/
def Usable (range : VirtRange) : Prop :=
  range.start < 2 ^ 64 ∧ range.byteLen < 2 ^ 64 ∧ validateRange range = .ok ()

/-- What the callers of an operation keep to: ranges are page-aligned and not empty, a new
reservation is apart from the live ones, a commit is recorded where its check passes, and a
protection where all is committed. -/
def Allowed : Op → Prop
  | .reserve range =>
    Usable range ∧
      ∀ reservation ∈ tracker.reservations, rangesOverlap reservation.range range = false
  | .recordCommit virt _ _ => Usable virt ∧ tracker.precheckCommit virt = .ok ()
  | .recordProtect virt _ => Usable virt ∧ tracker.ensureCommitted virt = .ok ()
  | .release range => Usable range
  | .recordDecommit virt => Usable virt
  | .takeSwapEntriesIn virt => Usable virt
  | .takeCommittedIntersections virt => Usable virt
  | .reuseFreeRange _ => True
  | .pushFreeRange range => Usable range
  | .recordSwapOut addr _ => Usable ⟨addr, pageSize⟩
  | .takeSwapEntry addr => Usable ⟨addr, pageSize⟩

end ReservationTracker

end Helios
