import Mathlib.Algebra.Group.Nat.Defs
import Mathlib.Data.Nat.Log

/-!
# The buddy arena for task futures

A processor's task arena is one allocation, cut into two buddy trees: the share that any task
may hold, and the kernel reserve.  A tree keeps a free list for each of its block classes,
doubly linked through the free blocks themselves, and a bit for each block of each class.  A
task that ends, on any processor, publishes its block on a stack threaded through the dropped
blocks; the owning processor drains the stack when it next allocates.

Addresses are offsets into the arena.  Its bytes are modelled by the two words at the start of
each granule, which is all the arena reads or writes; a live task writes its own block as it
likes.
-/

namespace Helios.Arena

open Function

def taskArenaAlign : Nat := 64

def taskArenaClassCount : Nat := 13

def taskArenaTopBytes : Nat :=
  taskArenaAlign <<< (taskArenaClassCount - 1)

def taskArenaKernelReserveBytes : Nat := taskArenaTopBytes

def taskArenaBlockNull : Nat := 2 ^ 64 - 1

/-- Why the kernel stops. -/
inductive Panic where
  | noLayout (len : Nat)
  | noReserve (arenaBytes : Nat)
  | notTopBlocks (len : Nat)
  | noSuchClass (cls : Nat)
  | notABlock (offset cls : Nat)
  | poppedEmpty (cls : Nat)
  | exceedsLargest (size : Nat)
  | exceedsAlignment
  | exhausted (live : Nat)
  | instanceUnderflow
  | activeUnderflow
deriving DecidableEq, Repr

/-! ### Bytes -/

/-- The two words at the start of a granule. -/
structure Words where
  first : Nat
  second : Nat
deriving DecidableEq, Repr

/-- The arena's bytes, by offset. -/
abbrev Memory := Nat → Words

structure FreeNode where
  next : Nat
  prev : Nat
deriving DecidableEq, Repr

/-- The header of a block on the stack of dropped blocks. -/
structure RemoteFreeNode where
  next : Nat
  cls : Nat
deriving DecidableEq, Repr

variable (memory : Memory)

/-- The header read as that of a free block. -/
def Memory.node (offset : Nat) : FreeNode :=
  ⟨(memory offset).first, (memory offset).second⟩

def Memory.writeNode (offset : Nat) (node : FreeNode) : Memory :=
  update memory offset ⟨node.next, node.prev⟩

def Memory.setNext (offset next : Nat) : Memory :=
  memory.writeNode offset { memory.node offset with next }

def Memory.setPrev (offset prev : Nat) : Memory :=
  memory.writeNode offset { memory.node offset with prev }

def Memory.remoteNode (offset : Nat) : RemoteFreeNode :=
  ⟨(memory offset).first, (memory offset).second⟩

def Memory.writeRemoteNode (offset : Nat) (node : RemoteFreeNode) : Memory :=
  update memory offset ⟨node.next, node.cls⟩

/-! ### Block classes -/

def classBytes (cls : Nat) : Nat :=
  taskArenaAlign <<< cls

/-- The smallest class whose blocks hold a future of the size. -/
def blockClass (size : Nat) : Except Panic Nat :=
  let block := max (Nat.nextPowerOfTwo (max size 1)) taskArenaAlign
  let cls := Nat.log2 block - Nat.log2 taskArenaAlign
  if cls < taskArenaClassCount then
    .ok cls
  else
    .error (.exceedsLargest size)

/-! ### Buddy trees -/

structure BuddyRegion where
  start : Nat
  len : Nat
  freeHeads : Nat → Nat
  freeBits : Nat → Bool
  classBitBase : Nat → Nat

namespace BuddyRegion

variable (memory : Memory) (region : BuddyRegion)

section

variable (offset cls : Nat)

def buddyOf : Nat :=
  region.start + ((offset - region.start) / classBytes cls ^^^ 1) * classBytes cls

def bitIndex : Nat :=
  region.classBitBase cls + (offset - region.start) / classBytes cls

def isFree : Bool :=
  region.freeBits (region.bitIndex offset cls)

def setFree (free : Bool) : BuddyRegion :=
  { region with
    freeBits := update region.freeBits (region.bitIndex offset cls) free }

def pushFree : Memory × BuddyRegion :=
  let head := region.freeHeads cls
  let memory := memory.writeNode offset ⟨head, taskArenaBlockNull⟩
  let memory := if head = taskArenaBlockNull then memory else memory.setPrev head offset
  let region := { region with freeHeads := update region.freeHeads cls offset }
  (memory, region.setFree offset cls true)

def removeFree : Memory × BuddyRegion :=
  let node := memory.node offset
  let region :=
    if node.prev = taskArenaBlockNull then
      { region with freeHeads := update region.freeHeads cls node.next }
    else
      region
  let memory :=
    if node.prev = taskArenaBlockNull then memory else memory.setNext node.prev node.next
  let memory :=
    if node.next = taskArenaBlockNull then memory else memory.setPrev node.next node.prev
  (memory, region.setFree offset cls false)

end

def popFree (cls : Nat) : Except Panic (Nat × Memory × BuddyRegion) :=
  let offset := region.freeHeads cls
  if offset = taskArenaBlockNull then
    .error (.poppedEmpty cls)
  else
    .ok (offset, removeFree memory region offset cls)

/-- The bits before those of the class: one for each block of each lower class. -/
def bitsBelow (len : Nat) : Nat → Nat
  | 0 => 0
  | cls + 1 => bitsBelow len cls + len / classBytes cls

/-- Frees the top blocks from the offset on, `n` of them. -/
def pushTops (memory : Memory) (region : BuddyRegion) (offset : Nat) : Nat → Memory × BuddyRegion
  | 0 => (memory, region)
  | n + 1 =>
    let (memory, region) := pushFree memory region offset (taskArenaClassCount - 1)
    pushTops memory region (offset + taskArenaTopBytes) n

/-- A tree over the span, all its top blocks free. -/
def new (memory : Memory) (start len : Nat) : Except Panic (Memory × BuddyRegion) :=
  if len ≠ 0 ∧ len % taskArenaTopBytes = 0 then
    let region :=
      { start, len, freeHeads := fun _ => taskArenaBlockNull, freeBits := fun _ => false,
        classBitBase := bitsBelow len }
    .ok (pushTops memory region start (len / taskArenaTopBytes))
  else
    .error (.notTopBlocks len)

/-- The smallest class with a free block, from the given one on. -/
def source (cls : Nat) : Option Nat :=
  (List.range' cls (taskArenaClassCount - cls)).find? fun candidate =>
    region.freeHeads candidate != taskArenaBlockNull

/-- Splits a block of class `cls + n` down to the class, freeing the upper halves. -/
def splitDown (memory : Memory) (region : BuddyRegion) (offset cls : Nat) :
    Nat → Memory × BuddyRegion
  | 0 => (memory, region)
  | n + 1 =>
    let (memory, region) := pushFree memory region (offset + classBytes (cls + n)) (cls + n)
    splitDown memory region offset cls n

/-- A block of the class, split out of the smallest free block that can hold one. -/
def allocate (cls : Nat) : Except Panic (Option Nat × Memory × BuddyRegion) :=
  match region.source cls with
  | none => .ok (none, memory, region)
  | some source =>
    match popFree memory region source with
    | .error panic => .error panic
    | .ok (offset, memory, region) =>
      .ok (some offset, splitDown memory region offset cls (source - cls))

/-- Merges a block with its buddy while that is free.  The argument is how many classes there
are above the block's. -/
def mergeUp (memory : Memory) (region : BuddyRegion) (offset cls : Nat) :
    Nat → (Nat × Nat) × Memory × BuddyRegion
  | 0 => ((offset, cls), memory, region)
  | above + 1 =>
    let buddy := region.buddyOf offset cls
    if region.isFree buddy cls then
      let (memory, region) := removeFree memory region buddy cls
      mergeUp memory region (min offset buddy) (cls + 1) above
    else
      ((offset, cls), memory, region)

/-- Returns a block, merged with its buddy for as long as that is free. -/
def free (offset cls : Nat) : Except Panic (Memory × BuddyRegion) :=
  if cls < taskArenaClassCount then
    if region.start ≤ offset ∧ offset + classBytes cls ≤ region.start + region.len
        ∧ (offset - region.start) % classBytes cls = 0 then
      let ((offset, cls), memory, region) :=
        mergeUp memory region offset cls (taskArenaClassCount - 1 - cls)
      .ok (pushFree memory region offset cls)
    else
      .error (.notABlock offset cls)
  else
    .error (.noSuchClass cls)

end BuddyRegion

/-! ### The arena -/

inductive TaskFunding where
  | kernel
  | instance_
deriving DecidableEq, Repr

inductive BlockRegion where
  | instance_
  | kernelReserve
deriving DecidableEq, Repr

structure TaskCapacityError where
  requestedBytes : Nat
  liveInstanceTasks : Nat
  shareBytes : Nat
deriving DecidableEq, Repr

structure TaskArena where
  memory : Memory
  totalBytes : Nat
  shareBytes : Nat
  regions : BlockRegion → BuddyRegion
  remoteFree : Nat
  active : Nat
  instanceActive : Nat

namespace TaskArena

/-- An arena of the size, rounded down to whole top blocks.  Its bytes come from the heap as they
are; an allocation of more than `isize::MAX` bytes, rounded up to the alignment, has no
layout. -/
def newShared (memory : Memory) (arenaBytes : Nat) : Except Panic TaskArena := do
  let totalBytes := arenaBytes / taskArenaTopBytes * taskArenaTopBytes
  if totalBytes < taskArenaKernelReserveBytes + taskArenaTopBytes then
    throw (.noReserve arenaBytes)
  let shareBytes := totalBytes - taskArenaKernelReserveBytes
  if totalBytes > 2 ^ 63 - taskArenaAlign then
    throw (.noLayout totalBytes)
  let (memory, share) ← BuddyRegion.new memory 0 shareBytes
  let (memory, reserve) ← BuddyRegion.new memory shareBytes taskArenaKernelReserveBytes
  return {
    memory, totalBytes, shareBytes
    regions := fun
      | .instance_ => share
      | .kernelReserve => reserve
    remoteFree := taskArenaBlockNull
    active := 0
    instanceActive := 0 }

variable (arena : TaskArena)

def regionOf (offset : Nat) : BlockRegion :=
  if offset < arena.shareBytes then .instance_ else .kernelReserve

def setRegion (which : BlockRegion) (state : Memory × BuddyRegion) : TaskArena :=
  { arena with memory := state.1, regions := update arena.regions which state.2 }

def allocateFrom (which : BlockRegion) (cls : Nat) : Except Panic (Option Nat × TaskArena) :=
  match (arena.regions which).allocate arena.memory cls with
  | .error panic => .error panic
  | .ok (offset, state) => .ok (offset, arena.setRegion which state)

/-- Finds a block of the class that the funding may hold, once the dropped blocks are drained:
the rest of `take_block`. -/
def takeBlock (cls : Nat) : TaskFunding → Except Panic (Option Nat × TaskArena)
  | .instance_ => arena.allocateFrom .instance_ cls
  | .kernel =>
    match arena.allocateFrom .instance_ cls with
    | .error panic => .error panic
    | .ok (some offset, arena) => .ok (some offset, arena)
    | .ok (none, arena) => arena.allocateFrom .kernelReserve cls

/-- Merges one dropped block back: a turn of the loop of `drain_remote_frees`, which returns the
block it goes on with. -/
def drainOne (cursor : Nat) : Except Panic (Nat × TaskArena) :=
  let node := arena.memory.remoteNode cursor
  let which := arena.regionOf cursor
  match (arena.regions which).free arena.memory cursor node.cls with
  | .error panic => .error panic
  | .ok state => .ok (node.next, arena.setRegion which state)

def countPlaced (funding : TaskFunding) : TaskArena :=
  { arena with
    active := arena.active + 1
    instanceActive :=
      if funding = .instance_ then arena.instanceActive + 1 else arena.instanceActive }

def countDropped (funding : TaskFunding) : Except Panic TaskArena :=
  if funding = .instance_ ∧ arena.instanceActive = 0 then
    .error .instanceUnderflow
  else if arena.active = 0 then
    .error .activeUnderflow
  else
    .ok { arena with
      active := arena.active - 1
      instanceActive :=
        if funding = .instance_ then arena.instanceActive - 1 else arena.instanceActive }

end TaskArena

/-! ### The arena among its processors -/

inductive TaskPc where
  /-- Not spawned. -/
  | absent
  /-- Refused by the arena. -/
  | refused (error : TaskCapacityError)
  /-- Placed in a block. -/
  | live (offset cls : Nat) (funding : TaskFunding)
  /-- Dropped, with the top of the stack as `release` last saw it. -/
  | releasing (offset cls : Nat) (funding : TaskFunding) (head : Nat)
  /-- Its block is on the stack; the counts are still to be taken back. -/
  | counting (funding : TaskFunding)
  | released
deriving DecidableEq, Repr

inductive OwnerPc where
  | idle
  /-- Placing a task: merging the chain of dropped blocks it took, which goes on at the cursor,
  before it looks for a block. -/
  | draining (task cls : Nat) (funding : TaskFunding) (cursor : Nat)
deriving DecidableEq, Repr

/-- An arena, its owner and the tasks. -/
structure System where
  arena : TaskArena
  owner : OwnerPc
  tasks : Nat → TaskPc

/-- What the processors do. -/
inductive Op where
  /-- The owner starts to place a task whose future has the size and alignment. -/
  | spawn (task size align : Nat) (funding : TaskFunding)
  /-- The owner goes on. -/
  | owner
  /-- A live task writes a granule of its block. -/
  | write (task granule : Nat) (words : Words)
  /-- A task is dropped, on any processor. -/
  | drop (task : Nat)
  /-- Its release tries to publish the block; the exchange may fail for no reason. -/
  | publish (task : Nat) (spurious : Bool)
  /-- Its release takes back the counts. -/
  | count (task : Nat)
deriving DecidableEq, Repr

/-- Why a step is not taken. -/
inductive Fault where
  | panic (reason : Panic)
  /-- The operation is not what its processor does next. -/
  | disabled
deriving DecidableEq, Repr

namespace System

variable (task : Nat)

variable (system : System)

def setTask (pc : TaskPc) : System :=
  { system with tasks := update system.tasks task pc }

/-- The owner starts an allocation: the assertions, the class, and the exchange that takes the
whole stack. -/
def spawn (task size align : Nat) (funding : TaskFunding) : Except Fault System :=
  if system.owner = .idle ∧ system.tasks task = .absent then
    if max align 1 ≤ taskArenaAlign then
      match blockClass size with
      | .error panic => .error (.panic panic)
      | .ok cls =>
        .ok { system with
          arena := { system.arena with remoteFree := taskArenaBlockNull }
          owner := .draining task cls funding system.arena.remoteFree }
    else
      .error (.panic .exceedsAlignment)
  else
    .error .disabled

/-- The end of an allocation: the block is found, or the task refused.  A kernel-funded task
that finds no block stops the kernel. -/
def place (task cls : Nat) (funding : TaskFunding) : Except Fault System :=
  match system.arena.takeBlock cls funding with
  | .error panic => .error (.panic panic)
  | .ok (some offset, arena) =>
    .ok { arena := arena.countPlaced funding
          owner := .idle
          tasks := update system.tasks task (.live offset cls funding) }
  | .ok (none, arena) =>
    match funding with
    | .kernel => .error (.panic (.exhausted arena.active))
    | .instance_ =>
      .ok { arena
            owner := .idle
            tasks := update system.tasks task
              (.refused ⟨classBytes cls, arena.instanceActive, arena.shareBytes⟩) }

def stepOwner : Except Fault System :=
  match system.owner with
  | .idle => .error .disabled
  | .draining task cls funding cursor =>
    if cursor = taskArenaBlockNull then
      system.place task cls funding
    else
      match system.arena.drainOne cursor with
      | .error panic => .error (.panic panic)
      | .ok (next, arena) =>
        .ok { system with arena, owner := .draining task cls funding next }

/-- A live task writes its own bytes. -/
def write (task granule : Nat) (words : Words) : Except Fault System :=
  match system.tasks task with
  | .live offset cls _ =>
    if granule * taskArenaAlign < classBytes cls then
      let memory :=
        update system.arena.memory (offset + granule * taskArenaAlign) words
      .ok { system with arena := { system.arena with memory } }
    else
      .error .disabled
  | _ => .error .disabled

/-- A task is dropped: its release reads the top of the stack. -/
def drop : Except Fault System :=
  match system.tasks task with
  | .live offset cls funding =>
    .ok (system.setTask task (.releasing offset cls funding system.arena.remoteFree))
  | _ => .error .disabled

/-- A turn of the loop of `release`: it writes the header into the block and tries to make the
block the top of the stack. -/
def publish (spurious : Bool) : Except Fault System :=
  match system.tasks task with
  | .releasing offset cls funding head =>
    let memory := system.arena.memory.writeRemoteNode offset ⟨head, cls⟩
    if system.arena.remoteFree = head ∧ spurious = false then
      .ok { system with
        arena := { system.arena with memory, remoteFree := offset }
        tasks := update system.tasks task (.counting funding) }
    else
      .ok { system with
        arena := { system.arena with memory }
        tasks := update system.tasks task
          (.releasing offset cls funding system.arena.remoteFree) }
  | _ => .error .disabled

/-- The end of `release`. -/
def count : Except Fault System :=
  match system.tasks task with
  | .counting funding =>
    match system.arena.countDropped funding with
    | .error panic => .error (.panic panic)
    | .ok arena => .ok { system with arena, tasks := update system.tasks task .released }
  | _ => .error .disabled

/-- A step of one of the processors. -/
def step : Op → Except Fault (System × Unit)
  | .spawn task size align funding => (system.spawn task size align funding).map (·, ())
  | .owner => system.stepOwner.map (·, ())
  | .write task granule words => (system.write task granule words).map (·, ())
  | .drop task => (system.drop task).map (·, ())
  | .publish task spurious => (system.publish task spurious).map (·, ())
  | .count task => (system.count task).map (·, ())

/-- A new arena, with no task. -/
def Fresh (system : System) : Prop :=
  ∃ memory arenaBytes, TaskArena.newShared memory arenaBytes = .ok system.arena
    ∧ system.owner = .idle ∧ ∀ task, system.tasks task = .absent

end System

end Helios.Arena
