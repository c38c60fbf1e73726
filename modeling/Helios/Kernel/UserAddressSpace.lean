import Helios.Kernel.PageMapRuns

/-!
# The user address space

The operations of the backend on the tracker it locks: each checks, changes the page tables
and records.  The page tables are a parameter, which says for each range whether its pages
could be mapped or protected.  Swapped pages that are mapped over are dropped, and their
tokens put on the list of orphans.
-/

namespace Helios

/-- Whether the page tables could be changed for a range. -/
structure PageTables where
  map : VirtRange → Except AddressSpaceError Unit
  protect : VirtRange → Except AddressSpaceError Unit

structure UserAddressSpace where
  tracker : ReservationTracker
  orphans : List SwapToken
  deriving DecidableEq, Repr

def pageFlagsToPte (flags : PageFlags) : Except AddressSpaceError Unit :=
  if flags.bits = 0 then .error .invalidFlags else .ok ()

namespace UserAddressSpace

def orphan (space : UserAddressSpace) (entries : List SwapEntry) : UserAddressSpace :=
  { space with orphans := space.orphans ++ entries.map SwapEntry.token }

section

variable (tables : PageTables) (owner : MemoryOwner) (space : UserAddressSpace) (virt : VirtRange)
  (flags : PageFlags)

/-- Maps and records a range.  The swapped pages inside it are dropped before the frames are
allocated, and stay so when the mapping fails. -/
def commitLocked : Except AddressSpaceError Unit × UserAddressSpace :=
  match pageFlagsToPte flags with
  | .error error => (.error error, space)
  | .ok () =>
    match space.tracker.precheckCommit virt with
    | .error error => (.error error, space)
    | .ok () =>
      let taken := space.tracker.takeSwapEntriesIn virt
      let space := { space with tracker := taken.2 }.orphan taken.1
      match tables.map virt with
      | .error error => (.error error, space)
      | .ok () =>
        match space.tracker.recordCommit virt flags owner with
        | .error error => (.error error, space)
        | .ok (orphaned, tracker) => (.ok (), { space with tracker }.orphan orphaned)

def protectLocked : Except AddressSpaceError Unit × UserAddressSpace :=
  match pageFlagsToPte flags with
  | .error error => (.error error, space)
  | .ok () =>
    match space.tracker.ensureCommitted virt with
    | .error error => (.error error, space)
    | .ok () =>
      match tables.protect virt with
      | .error error => (.error error, space)
      | .ok () =>
        match space.tracker.recordProtect virt flags with
        | .error error => (.error error, space)
        | .ok tracker => (.ok (), { space with tracker })

end

def forEach (f : UserAddressSpace → VirtRange → Except AddressSpaceError Unit × UserAddressSpace) :
    UserAddressSpace → List VirtRange → Except AddressSpaceError Unit × UserAddressSpace
  | space, [] => (.ok (), space)
  | space, range :: ranges =>
    match f space range with
    | (.error error, space) => (.error error, space)
    | (.ok (), space) => forEach f space ranges

/-- What a change of protection by the runtime does: the committed parts of the range are
protected, and the rest is committed. -/
def ensureAccessibleSubranges (tables : PageTables) (owner : MemoryOwner)
    (space : UserAddressSpace) (range : VirtRange) (flags : PageFlags) :
    Except AddressSpaceError Unit × UserAddressSpace :=
  match validateRange range with
  | .error error => (.error error, space)
  | .ok () =>
    match space.tracker.accessibilityPlan range with
    | .error error => (.error error, space)
    | .ok plan =>
      match forEach (fun space sub => space.protectLocked tables sub flags) space plan.protect with
      | (.error error, space) => (.error error, space)
      | (.ok (), space) =>
        forEach (fun space sub => space.commitLocked tables owner sub flags) space plan.commit

end UserAddressSpace

end Helios
