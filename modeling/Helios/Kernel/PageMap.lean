import Helios.Kernel.Reservations

/-!
# Page maps

What the bookkeeping of an address space is for: it says of every page whether it is
reserved, committed with some flags, or swapped out under a token.  A page map says so page
by page, and next to it keeps only which ranges are reserved.  Its operations change one page
at a time, each by what was known of that page alone.
-/

namespace Helios

open ReservationTracker

/-! ### Pages -/

def IsPage (addr : Nat) : Prop := addr % pageSize = 0

def pageBase (addr : Nat) : Nat := addr - addr % pageSize

/-- A range that is not empty and is made of whole pages.  One that reaches the largest
address ends there, one byte short of a page. -/
structure VirtRange.Paged (range : VirtRange) : Prop where
  start : range.start % pageSize = 0
  endAddr : range.endAddr % pageSize = 0 ∨ range.endAddr = 2 ^ 64 - 1
  nonempty : range.start < range.endAddr

/-- Two ranges without a common address. -/
def VirtRange.Apart (a b : VirtRange) : Prop :=
  ∀ addr, a.contains addr = true → b.contains addr = false

inductive PageState where
  | unreserved
  | reserved
  | committed (flags : PageFlags)
  | swapped (token : SwapToken) (flags : PageFlags)
  deriving DecidableEq, Repr

/-- The reserved ranges, and what is known of every page. -/
structure PageMap where
  live : Set VirtRange
  page : Nat → PageState

namespace PageMap

variable (map : PageMap)

def empty : PageMap := ⟨∅, fun _ => .unreserved⟩

/-- A range lies inside one of the reserved ranges. -/
def Inside (virt : VirtRange) : Prop :=
  ∃ range ∈ map.live, rangeContains range virt = true

/-- Changes the pages inside a range, each by what is known of it. -/
def change (virt : VirtRange) (f : PageState → PageState) : PageMap :=
  { map with page := fun addr => if virt.contains addr then f (map.page addr) else map.page addr }

def AllCommitted (virt : VirtRange) : Prop :=
  ∀ addr, IsPage addr → virt.contains addr = true → ∃ flags, map.page addr = .committed flags

/-! ### The effect of an operation on one page -/

def dropSwapped : PageState → PageState
  | .swapped _ _ => .reserved
  | state => state

def dropCommitted : PageState → PageState
  | .committed _ => .reserved
  | state => state

def swapOut (token : SwapToken) : PageState → PageState
  | .committed flags => .swapped token flags
  | state => state

def swapIn : PageState → PageState
  | .swapped _ flags => .committed flags
  | state => state

open Classical in
/-- The page map after an operation. -/
noncomputable def after : Op → PageMap
  | .reserve range => { map.change range fun _ => .reserved with live := insert range map.live }
  | .release range =>
    if range ∈ map.live then
      { map.change range fun _ => .unreserved with live := map.live \ {range} }
    else map
  | .recordCommit virt flags _ =>
    if map.Inside virt then map.change virt fun _ => .committed flags else map
  | .recordDecommit virt =>
    if map.Inside virt ∧ map.AllCommitted virt then map.change virt fun _ => .reserved else map
  | .recordProtect virt flags =>
    if map.Inside virt then map.change virt fun _ => .committed flags else map
  | .takeSwapEntriesIn virt => if map.Inside virt then map.change virt dropSwapped else map
  | .takeCommittedIntersections virt =>
    if map.Inside virt then map.change virt dropCommitted else map
  | .reuseFreeRange _ => map
  | .pushFreeRange _ => map
  | .recordSwapOut addr token =>
    if map.Inside ⟨addr, pageSize⟩ then map.change ⟨addr, pageSize⟩ (swapOut token) else map
  | .takeSwapEntry addr =>
    if map.Inside ⟨addr, pageSize⟩ then map.change ⟨addr, pageSize⟩ swapIn else map

/-! ### The answers of a page map -/

/-- Ranges of whole pages without a common address, of exactly the pages with a property. -/
structure Exactly (ranges : List VirtRange) (holds : Nat → Prop) : Prop where
  paged : ∀ range ∈ ranges, range.Paged
  apart : ranges.Pairwise VirtRange.Apart
  mem : ∀ addr, IsPage addr → ((∃ range ∈ ranges, range.contains addr = true) ↔ holds addr)

/-- Regions of exactly the committed pages of a range, with the flags these have. -/
structure Regions (map : PageMap) (virt : VirtRange) (regions : List CommittedRegion) : Prop where
  exactly : Exactly (regions.map CommittedRegion.range) fun addr =>
    virt.contains addr = true ∧ ∃ flags, map.page addr = .committed flags
  flags : ∀ region ∈ regions, ∀ addr, IsPage addr → region.range.contains addr = true →
    map.page addr = .committed region.flags

/-- Entries of exactly the swapped pages of a range, by ascending address. -/
structure Entries (map : PageMap) (virt : VirtRange) (entries : List SwapEntry) : Prop where
  sorted : entries.Pairwise fun a b => a.addr < b.addr
  mem : ∀ addr token flags,
    (∃ entry ∈ entries, entry.addr = addr ∧ entry.token = token ∧ entry.flags = flags) ↔
      IsPage addr ∧ virt.contains addr = true ∧ map.page addr = .swapped token flags

/-- The answer to a lookup of an address, from what is known of its page. -/
def LooksUp (addr : Nat) : ReservationLookup → PageState → Prop
  | .unreserved, .unreserved => True
  | .reserved, .reserved => True
  | .reserved, .swapped _ _ => True
  | .committed region, .committed flags =>
    region.flags = flags ∧ region.range.contains addr = true ∧
      ∀ other, IsPage other → region.range.contains other = true →
        map.page other = .committed flags
  | _, _ => False

def swappedPage : PageState → Option (SwapToken × PageFlags)
  | .swapped token flags => some (token, flags)
  | _ => none

open Classical in
/-- A tracker answers as the page map would. -/
structure Answers (map : PageMap) (tracker : ReservationTracker) : Prop where
  lookup : ∀ addr, addr < 2 ^ 64 - 1 →
    map.LooksUp addr (tracker.lookup addr) (map.page (pageBase addr))
  committedIntersections : ∀ virt, Usable virt →
    if map.Inside virt then
      ∃ regions, tracker.committedIntersections virt = .ok regions ∧ map.Regions virt regions
    else tracker.committedIntersections virt = .error .notReserved
  takeCommittedIntersections : ∀ virt, Usable virt →
    if map.Inside virt then
      ∃ ranges next, tracker.takeCommittedIntersections virt = .ok (ranges, next) ∧
        Exactly ranges fun addr =>
          virt.contains addr = true ∧ ∃ flags, map.page addr = .committed flags
    else tracker.takeCommittedIntersections virt = .error .notReserved
  accessibilityPlan : ∀ virt, Usable virt →
    if map.Inside virt then
      ∃ plan, tracker.accessibilityPlan virt = .ok plan ∧
        (Exactly plan.protect fun addr =>
          virt.contains addr = true ∧ ∃ flags, map.page addr = .committed flags) ∧
        (Exactly plan.commit fun addr =>
          virt.contains addr = true ∧ ¬ ∃ flags, map.page addr = .committed flags)
    else tracker.accessibilityPlan virt = .error .notReserved
  release : ∀ range, Usable range →
    if range ∈ map.live then
      ∃ released next, tracker.release range = .ok (released, next) ∧
        map.Regions range released.committed ∧ map.Entries range released.swapped
    else tracker.release range = .error .notReserved
  swapEntry : ∀ addr, IsPage addr →
    (tracker.swapEntry addr).map (fun entry => (entry.token, entry.flags)) =
      swappedPage (map.page addr)

end PageMap

end Helios
