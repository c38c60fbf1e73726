import Helios.Virtio.Queue

/-!
# The packed ring

One ring of descriptors for both directions.  The driver marks a descriptor available by a pair
of flags that follows its wrap counter, and the device marks it used by writing both flags to
its own.  A chain is named by an identifier and takes one position for each buffer, or one in
all when it goes through an indirect table.
-/

namespace Helios.Virtio

structure PackedDescriptor where
  addr : Nat
  len : Nat
  id : Nat
  flags : Nat
  deriving DecidableEq, Repr

def descFNext : Nat := 1
def descFWrite : Nat := 2
def descFIndirect : Nat := 4
def descFAvail : Nat := 128
def descFUsed : Nat := 32768

def eventFlagEnable : Nat := 0
def eventFlagDisable : Nat := 1
def eventFlagDesc : Nat := 2

/-- The flags that a driver writes for its wrap counter. -/
def availability (wrap : Bool) : Nat := if wrap then descFAvail else descFUsed

def isUsed (flags : Nat) (usedWrap : Bool) : Bool :=
  let avail := flags &&& descFAvail != 0
  let used := flags &&& descFUsed != 0
  avail == used && used == usedWrap

/-- The driver's state and the memory that it shares with the device. -/
structure PackedRing where
  core : RingCore
  descriptors : Nat → PackedDescriptor
  tables : Nat → Nat → PackedDescriptor
  driverEvent : Nat × Nat
  deviceEvent : Nat × Nat
  /-- The positions each chain in flight takes, by identifier; zero when it is not in flight. -/
  slots : Nat → Nat
  nextAvail : Nat
  availWrap : Bool
  nextUsed : Nat
  usedWrap : Bool
  freeSlots : Nat

namespace PackedRing

variable (ring : PackedRing)

/-- Where the driver is in the used entries, as the device is told. -/
def usedEvent : Nat × Nat :=
  if ring.core.features.eventIdx then
    ((ring.nextUsed &&& (2 ^ 15 - 1)) ||| (if ring.usedWrap then 2 ^ 15 else 0), eventFlagDesc)
  else (0, eventFlagEnable)

def new (size chainLimit : Nat) (features : Features) (tables : Nat) : PackedRing :=
  let ring : PackedRing := {
    core := RingCore.new size chainLimit features tables
    descriptors := fun _ => ⟨0, 0, 0, 0⟩
    tables := fun _ _ => ⟨0, 0, 0, 0⟩
    driverEvent := (0, 0)
    deviceEvent := (0, 0)
    slots := fun _ => 0
    nextAvail := 0
    availWrap := true
    nextUsed := 0
    usedWrap := true
    freeSlots := size }
  { ring with driverEvent := ring.usedEvent }

/-- The next position, with the wrap counter that goes with it. -/
def advance (size : Nat) (cursor : Nat × Bool) : Nat × Bool :=
  if cursor.1 + 1 ≥ size then (0, !cursor.2) else (cursor.1 + 1, cursor.2)

/-- Writes the descriptors of a chain from a cursor on, the flags that hand each over
included. -/
def writeChain (size id : Nat) : List ChainEntry → (Nat × Bool) → (Nat → PackedDescriptor) →
    Except QueuePanic ((Nat × Bool) × (Nat → PackedDescriptor))
  | [], cursor, descriptors => .ok (cursor, descriptors)
  | entry :: chain, cursor, descriptors =>
    if cursor.1 < size then
      let flags := availability cursor.2 ||| (if entry.writable then descFWrite else 0) |||
        (if chain.isEmpty then 0 else descFNext)
      writeChain size id chain (advance size cursor)
        (Function.update descriptors cursor.1 ⟨entry.addr, entry.len, id, flags⟩)
    else .error (.outsideRing cursor.1)

/-- Writes the one descriptor of a chain in an indirect table. -/
def writeIndirect (id : Nat) (chain : List ChainEntry) :
    Except QueuePanic ((Nat × Bool) × PackedRing) := do
  let addr ← ring.core.tableAddr id chain
  if ring.nextAvail < ring.core.size then
    let table := fun index => match chain[index]? with
      | some entry => ⟨entry.addr, entry.len, 0, if entry.writable then descFWrite else 0⟩
      | none => ring.tables id index
    let flags := descFIndirect ||| availability ring.availWrap
    .ok (advance ring.core.size (ring.nextAvail, ring.availWrap),
      { ring with
        tables := Function.update ring.tables id table
        descriptors := Function.update ring.descriptors ring.nextAvail
          ⟨addr, chain.length * descriptorBytes, id, flags⟩ })
  else .error (.outsideRing ring.nextAvail)

/-- Writes a chain into the ring, where the device sees it at once. -/
def submit (chain : List ChainEntry) :
    Except QueuePanic (Except VirtqueueError Nat × PackedRing) :=
  match ring.core.checkChain chain with
  | .error error => .ok (.error error, ring)
  | .ok () =>
    let needed := ring.core.descriptorsNeeded chain.length
    if ring.freeSlots < needed ∨ ring.core.ids.free = 0 then .ok (.error (.full needed), ring)
    else do
      match ← ring.core.ids.allocate with
      | none => .error .capacityChecked
      | some (id, ids) =>
        let ring := { ring with core := { ring.core with ids } }
        let (cursor, ring) ←
          if ring.core.useIndirect chain.length then ring.writeIndirect id chain
          else do
            let (cursor, descriptors) ← writeChain ring.core.size id chain
              (ring.nextAvail, ring.availWrap) ring.descriptors
            .ok (cursor, { ring with descriptors })
        if id < ring.core.size then
          let core ← { ring.core with numAdded := wrappingAdd ring.core.numAdded needed }.recordChain
            id chain
          .ok (.ok id, { ring with
            core
            nextAvail := cursor.1
            availWrap := cursor.2
            slots := Function.update ring.slots id needed
            freeSlots := ring.freeSlots - needed })
        else .error .indexOutOfBounds

/-- Passes over the positions of a completed chain and returns its identifier. -/
def finishCompletion (id : Nat) : Except QueuePanic PackedRing :=
  if id < ring.core.size then
    let occupied := ring.slots id
    if occupied = 0 then .error (.notInFlight id)
    else do
      let cursor := (advance ring.core.size)^[occupied] (ring.nextUsed, ring.usedWrap)
      let ids ← ring.core.ids.release id
      let ring := { ring with
        core := { ring.core with ids }
        slots := Function.update ring.slots id 0
        freeSlots := ring.freeSlots + occupied
        nextUsed := cursor.1
        usedWrap := cursor.2 }
      .ok { ring with
        driverEvent := if ring.core.features.eventIdx then ring.usedEvent else ring.driverEvent }
  else .error (.notInFlight id)

def popUsedUnordered : Except QueuePanic (Option (Nat × Nat) × PackedRing) :=
  if ring.nextUsed < ring.core.size then
    let descriptor := ring.descriptors ring.nextUsed
    if isUsed descriptor.flags ring.usedWrap then do
      let ring ← ring.finishCompletion descriptor.id
      .ok (some (descriptor.id, descriptor.len), ring)
    else .ok (none, ring)
  else .error (.outsideRing ring.nextUsed)

def popUsedInOrder : Except QueuePanic (Option (Nat × Nat) × PackedRing) :=
  if ring.nextUsed < ring.core.size then
    let descriptor := ring.descriptors ring.nextUsed
    if ring.core.batch.remaining = 0 ∧ isUsed descriptor.flags ring.usedWrap = false then
      .ok (none, ring)
    else do
      let core ←
        if ring.core.batch.remaining = 0 then
          ring.core.beginInOrderBatch descriptor.id descriptor.len
        else .ok ring.core
      let (completion, core) ← core.nextInOrderCompletion
      let ring ← { ring with core }.finishCompletion completion.1
      .ok (some completion, ring)
  else .error (.outsideRing ring.nextUsed)

def popUsed : Except QueuePanic (Option (Nat × Nat) × PackedRing) :=
  if ring.core.features.inOrder then ring.popUsedInOrder else ring.popUsedUnordered

def hasPendingUsed : Bool :=
  isUsed (ring.descriptors ring.nextUsed).flags ring.usedWrap

def shouldNotify : Bool :=
  let (offWrap, flags) := ring.deviceEvent
  if flags ≠ eventFlagDesc then flags != eventFlagDisable
  else
    let eventWrap := offWrap / 2 ^ 15 != 0
    let event := offWrap &&& (2 ^ 15 - 1)
    let event := if eventWrap != ring.availWrap then wrappingSub event ring.core.size else event
    needEvent event ring.nextAvail (wrappingSub ring.nextAvail ring.core.numAdded)

def clearAdded : PackedRing :=
  { ring with core := { ring.core with numAdded := 0 } }

def available : Nat := min ring.freeSlots ring.core.ids.free

def hasRoomFor (buffers : Nat) : Bool :=
  ring.freeSlots ≥ ring.core.descriptorsNeeded buffers && ring.core.ids.free != 0

def nextId : Nat := ring.core.ids.peek

end PackedRing

/-! ### The device -/

/-- A device on a packed ring: its cursors and wrap counters, and the identifiers and the
number of positions of the chains that it has taken and not used yet. -/
structure PackedDevice where
  avail : Nat × Bool
  used : Nat × Bool
  taken : List (Nat × Nat)
  deriving DecidableEq, Repr

namespace PackedDevice

def new : PackedDevice := ⟨(0, true), (0, true), []⟩

/-- The descriptor at a cursor is the driver's to hand over and has been. -/
def isAvailable (flags : Nat) (wrap : Bool) : Bool :=
  (flags &&& descFAvail != 0) == wrap && (flags &&& descFUsed != 0) != wrap

/-- Reads a chain from a cursor on: its number of descriptors and the identifier, which is that
of the last.  A chain is no longer than the ring. -/
def readChain (descriptors : Nat → PackedDescriptor) (size : Nat) :
    Nat → (Nat × Bool) → Nat × Nat
  | 0, cursor => ((descriptors cursor.1).id, 1)
  | fuel + 1, cursor =>
    if (descriptors cursor.1).flags &&& descFNext = 0 then ((descriptors cursor.1).id, 1)
    else
      let rest := readChain descriptors size fuel (PackedRing.advance size cursor)
      (rest.1, rest.2 + 1)

/-- Takes the next chain that the driver has made available, if there is one. -/
def fetch (device : PackedDevice) (ring : PackedRing) : PackedDevice :=
  if isAvailable (ring.descriptors device.avail.1).flags device.avail.2 then
    let chain := readChain ring.descriptors ring.core.size ring.core.size device.avail
    { device with
      avail := (PackedRing.advance ring.core.size)^[chain.2] device.avail
      taken := device.taken ++ [chain] }
  else device

/-- The flags by which a device marks a descriptor used. -/
def Conforms (flags : Nat) (wrap : Bool) : Prop :=
  (flags &&& descFAvail != 0) = wrap ∧ (flags &&& descFUsed != 0) = wrap

instance (flags : Nat) (wrap : Bool) : Decidable (Conforms flags wrap) :=
  inferInstanceAs (Decidable (_ ∧ _))

/-- Uses one of the chains it has taken: writes its identifier and the length at the used
cursor, and moves the cursor over as many positions as the chain had. -/
def use (device : PackedDevice) (ring : PackedRing) (index len flags : Nat) :
    Option (Nat × PackedDevice × PackedRing) :=
  match device.taken[index]? with
  | none => none
  | some (id, occupied) =>
    let descriptor := ring.descriptors device.used.1
    some (id,
      { device with
        used := (PackedRing.advance ring.core.size)^[occupied] device.used
        taken := device.taken.eraseIdx index },
      { ring with descriptors :=
          Function.update ring.descriptors device.used.1 ⟨descriptor.addr, len, id, flags⟩ })

end PackedDevice

end Helios.Virtio
