import Helios.Virtio.Queue

/-!
# The split ring

A table of descriptors, a ring of available heads that the driver writes and a ring of used
heads that the device writes.  An identifier is an index into the table, so a chain takes one
for each buffer unless it goes through an indirect table.  Both rings are indexed by counters
that run freely and wrap at 16 bits.
-/

namespace Helios.Virtio

open Function

/-- A descriptor of the split layout; bit 0 of the flags is set when there is a next one. -/
structure Descriptor where
  addr : Nat
  len : Nat
  flags : Nat
  next : Nat
  deriving DecidableEq, Repr

def descFlagNext : Nat := 1
def descFlagWrite : Nat := 2
def descFlagIndirect : Nat := 4
def usedFlagNoNotify : Nat := 1

structure UsedElem where
  id : Nat
  len : Nat
  deriving DecidableEq, Repr

def entryFlags (writable hasNext : Bool) : Nat :=
  (if writable then descFlagWrite else 0) ||| (if hasNext then descFlagNext else 0)

/-- The driver's state and the memory that it shares with the device: `descriptors`,
`availRing`, `availIndex` and `usedEvent` are the driver's to write, `usedRing`, `usedIndex`,
`usedFlags` and `availEvent` the device's. -/
structure SplitRing where
  core : RingCore
  descriptors : Nat → Descriptor
  tables : Nat → Nat → Descriptor
  availRing : Nat → Nat
  availIndex : Nat
  usedEvent : Nat
  usedRing : Nat → UsedElem
  usedIndex : Nat
  usedFlags : Nat
  availEvent : Nat
  descShadow : Nat → Descriptor
  availIdx : Nat
  lastUsedIdx : Nat

namespace SplitRing

variable (ring : SplitRing)

def new (size chainLimit : Nat) (features : Features) (tables : Nat) : SplitRing where
  core := RingCore.new size chainLimit features tables
  descriptors := fun _ => ⟨0, 0, 0, 0⟩
  tables := fun _ _ => ⟨0, 0, 0, 0⟩
  availRing := fun _ => 0
  availIndex := 0
  usedEvent := 0
  usedRing := fun _ => ⟨0, 0⟩
  usedIndex := 0
  usedFlags := 0
  availEvent := 0
  descShadow := fun _ => ⟨0, 0, 0, 0⟩
  availIdx := 0
  lastUsedIdx := 0

/-- Writes the descriptors of a chain at its identifiers, each linked to the next. -/
def linkChain : List Nat → List ChainEntry → (Nat → Descriptor) → Nat → Descriptor
  | id :: ids, entry :: chain, table =>
    linkChain ids chain (update table id
      ⟨entry.addr, entry.len, entryFlags entry.writable (!chain.isEmpty), ids.headD 0⟩)
  | _, _, table => table

section

variable (chain : List ChainEntry)

def writeIndirectChain : Except QueuePanic (Nat × SplitRing) := do
  match ← ring.core.ids.allocate with
  | none => .error .capacityChecked
  | some (head, ids) =>
    let addr ← ring.core.tableAddr head chain
    let table := linkChain (List.range chain.length) chain (ring.tables head)
    let descriptor : Descriptor := ⟨addr, chain.length * descriptorBytes, descFlagIndirect, 0⟩
    .ok (head, { ring with
      core := { ring.core with ids }
      tables := update ring.tables head table
      descShadow := update ring.descShadow head descriptor
      descriptors := update ring.descriptors head descriptor })

def writeLinkedChain : Except QueuePanic (Nat × SplitRing) := do
  let (ids, pool) ← ring.core.ids.allocateMany chain.length
  .ok (ids.headD 0, { ring with
    core := { ring.core with ids := pool }
    descShadow := linkChain ids chain ring.descShadow
    descriptors := linkChain ids chain ring.descriptors })

/-- Makes every chain submitted so far visible to the device. -/
def publish : SplitRing :=
  { ring with availIndex := ring.availIdx }

def submit (publish : Bool) : Except QueuePanic (Except VirtqueueError Nat × SplitRing) :=
  match ring.core.checkChain chain with
  | .error error => .ok (.error error, ring)
  | .ok () =>
    let needed := ring.core.descriptorsNeeded chain.length
    if ring.core.ids.free < needed then .ok (.error (.full needed), ring)
    else do
      let (head, ring) ←
        if ring.core.useIndirect chain.length then ring.writeIndirectChain chain
        else ring.writeLinkedChain chain
      let core ← ring.core.recordChain head chain
      let slot := ring.availIdx &&& (core.size - 1)
      let ring := { ring with
        core := { core with numAdded := wrappingAdd core.numAdded 1 }
        availRing := update ring.availRing slot head
        availIdx := wrappingAdd ring.availIdx 1 }
      .ok (.ok head, if publish then ring.publish else ring)

end

/-- Returns the descriptors of a chain to the pool, following the links.  A chain is no longer
than the ring, which bounds the loop. -/
def releaseChain (ring : SplitRing) : Nat → Nat → Except QueuePanic SplitRing
  | 0, _ => .error .endlessChain
  | fuel + 1, cursor =>
    if cursor < ring.core.size then do
      let descriptor := ring.descShadow cursor
      let ids ← ring.core.ids.release cursor
      let ring := { ring with core := { ring.core with ids } }
      if descriptor.flags &&& descFlagNext = 0 then .ok ring
      else ring.releaseChain fuel descriptor.next
    else .error .indexOutOfBounds

def finishCompletion (head : Nat) : Except QueuePanic SplitRing :=
  let last := wrappingAdd ring.lastUsedIdx 1
  let ring := { ring with
    lastUsedIdx := last
    usedEvent := if ring.core.features.eventIdx then last else ring.usedEvent }
  ring.releaseChain ring.core.size head

def popUsedUnordered : Except QueuePanic (Option (Nat × Nat) × SplitRing) :=
  if ring.usedIndex = ring.lastUsedIdx then .ok (none, ring)
  else do
    let elem := ring.usedRing (ring.lastUsedIdx &&& (ring.core.size - 1))
    let head := elem.id % 2 ^ 16
    let ring ← ring.finishCompletion head
    .ok (some (head, elem.len), ring)

/-- Opens a batch from what the device has published: the entry at the driver's own position
counts when it names the first chain in flight, and otherwise the last one published. -/
def openBatch : Except QueuePanic RingCore :=
  let mask := ring.core.size - 1
  match ring.core.order.front with
  | none => .error .nothingInFlight
  | some front =>
    let here := ring.usedRing (ring.lastUsedIdx &&& mask)
    if here.id % 2 ^ 16 = front then ring.core.beginInOrderBatch front here.len
    else
      let tail := ring.usedRing (wrappingSub ring.usedIndex 1 &&& mask)
      ring.core.beginInOrderBatch (tail.id % 2 ^ 16) tail.len

def popUsedInOrder : Except QueuePanic (Option (Nat × Nat) × SplitRing) :=
  if ring.core.batch.remaining = 0 ∧ ring.usedIndex = ring.lastUsedIdx then .ok (none, ring)
  else do
    let core ← if ring.core.batch.remaining = 0 then ring.openBatch else .ok ring.core
    let (completion, core) ← core.nextInOrderCompletion
    let ring ← { ring with core }.finishCompletion completion.1
    .ok (some completion, ring)

def popUsed : Except QueuePanic (Option (Nat × Nat) × SplitRing) :=
  if ring.core.features.inOrder then ring.popUsedInOrder else ring.popUsedUnordered

def hasPendingUsed : Bool := ring.usedIndex != ring.lastUsedIdx

def shouldNotify : Bool :=
  if ring.core.features.eventIdx then
    needEvent ring.availEvent ring.availIdx (wrappingSub ring.availIdx ring.core.numAdded)
  else ring.usedFlags &&& usedFlagNoNotify == 0

def clearAdded : SplitRing :=
  { ring with core := { ring.core with numAdded := 0 } }

def available : Nat := ring.core.ids.free

def hasRoomFor (buffers : Nat) : Bool :=
  ring.core.ids.free ≥ ring.core.descriptorsNeeded buffers

def nextId : Nat := ring.core.ids.peek

end SplitRing

/-! ### The device -/

/-- A device on a split ring: how far it has read the available ring, and the heads of the
chains that it has taken and not used yet. -/
structure SplitDevice where
  lastAvail : Nat
  taken : List Nat
  deriving DecidableEq, Repr

namespace SplitDevice

def new : SplitDevice := ⟨0, []⟩

variable (device : SplitDevice) (ring : SplitRing)

/-- Takes the next published chain, if there is one. -/
def fetch : SplitDevice :=
  if ring.availIndex = device.lastAvail then device
  else
    let head := ring.availRing (device.lastAvail &&& (ring.core.size - 1))
    ⟨wrappingAdd device.lastAvail 1, device.taken ++ [head]⟩

/-- Uses one of the chains it has taken: writes its head and the length to the used ring and
moves the used index. -/
def use (index len : Nat) : Option (Nat × SplitDevice × SplitRing) :=
  match device.taken[index]? with
  | none => none
  | some id =>
    let slot := ring.usedIndex &&& (ring.core.size - 1)
    some (id, { device with taken := device.taken.eraseIdx index },
      { ring with
        usedRing := update ring.usedRing slot ⟨id, len⟩
        usedIndex := wrappingAdd ring.usedIndex 1 })

end SplitDevice

end Helios.Virtio
