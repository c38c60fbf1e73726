import Mathlib.Data.Nat.Bitwise

/-!
# Virtqueues

What the two ring layouts of a virtqueue share: chains of buffers, the pool of descriptor
identifiers, the order of submission that is kept for devices that complete in order, and the
checks before a submission.  An index out of bounds, a failed assertion and an `expect` of
nothing are panics.  Counters of 16 bits are numbers that wrap.
-/

namespace Helios.Virtio

open Function

def descriptorBytes : Nat := 16

/-- The shortest chain that goes through an indirect table. -/
def indirectMinChain : Nat := 2

def maxChainBuffers : Nat := 16

/-- The mark for no identifier, which is the largest 16-bit word. -/
def noId : Nat := 65535

def wrappingAdd (a b : Nat) : Nat := (a + b) % 2 ^ 16

def wrappingSub (a b : Nat) : Nat := (a + 2 ^ 16 - b % 2 ^ 16) % 2 ^ 16

inductive VirtqueueError where
  | invalidSize (size : Nat)
  | invalidChainLimit (limit : Nat)
  | emptyChain
  | chainTooLong (actual limit : Nat)
  | full (needed : Nat)
  | ringAllocation
  deriving DecidableEq, Repr

inductive QueuePanic where
  | outsidePool (id : Nat)
  | indexOutOfBounds
  | capacityChecked
  | indirectTable
  | orderOverflow
  | notInFlight (id : Nat)
  | nothingInFlight
  | outsideRing (position : Nat)
  | endlessChain
  deriving DecidableEq, Repr

structure ChainEntry where
  addr : Nat
  len : Nat
  writable : Bool
  deriving DecidableEq, Repr

/-- The negotiated features that the rings look at. -/
structure Features where
  indirect : Bool
  inOrder : Bool
  eventIdx : Bool
  deriving DecidableEq, Repr

/-! ### The pool of identifiers -/

/-- Free identifiers, first in first out, threaded through an array of `size` links. -/
structure IdPool where
  size : Nat
  next : Nat → Nat
  head : Nat
  tail : Nat
  free : Nat

namespace IdPool

def new (size : Nat) : IdPool where
  size := size
  next := fun index => if index = size - 1 then noId else index + 1
  head := 0
  tail := size - 1
  free := size

/-- The identifier that is handed out next. -/
def peek (pool : IdPool) : Nat := pool.head

def allocate (pool : IdPool) : Except QueuePanic (Option (Nat × IdPool)) :=
  if pool.free = 0 then .ok none
  else if pool.head < pool.size then
    let id := pool.head
    let head := pool.next id
    .ok (some (id, { pool with
      head
      tail := if head = noId then noId else pool.tail
      free := pool.free - 1 }))
  else .error .indexOutOfBounds

def release (pool : IdPool) (id : Nat) : Except QueuePanic IdPool :=
  if id < pool.size then
    let next := update pool.next id noId
    if pool.tail = noId then
      .ok { pool with next, head := id, tail := id, free := pool.free + 1 }
    else if pool.tail < pool.size then
      .ok { pool with
        next := update next pool.tail id
        tail := id
        free := pool.free + 1 }
    else .error .indexOutOfBounds
  else .error (.outsidePool id)

/-- Takes several identifiers, which the caller knows to be there. -/
def allocateMany (pool : IdPool) : Nat → Except QueuePanic (List Nat × IdPool)
  | 0 => .ok ([], pool)
  | count + 1 => do
    match ← pool.allocate with
    | none => .error .capacityChecked
    | some (id, pool) =>
      let (ids, pool) ← pool.allocateMany count
      .ok (id :: ids, pool)

end IdPool

/-! ### The order of submission -/

/-- Identifiers in flight in the order of their submission, in a ring of `capacity`. -/
structure OrderFifo where
  capacity : Nat
  ids : Nat → Nat
  head : Nat
  len : Nat

namespace OrderFifo

variable (fifo : OrderFifo)

def new (capacity : Nat) : OrderFifo := ⟨capacity, fun _ => 0, 0, 0⟩

def push (id : Nat) : Except QueuePanic OrderFifo :=
  if fifo.len < fifo.capacity then
    let slot := (fifo.head + fifo.len) % fifo.capacity
    .ok { fifo with ids := update fifo.ids slot id, len := fifo.len + 1 }
  else .error .orderOverflow

def front : Option Nat :=
  if fifo.len = 0 then none else some (fifo.ids fifo.head)

def popFront : Option (Nat × OrderFifo) :=
  if fifo.len = 0 then none
  else some (fifo.ids fifo.head,
    { fifo with head := (fifo.head + 1) % fifo.capacity, len := fifo.len - 1 })

/-- How far an identifier is from the front. -/
def position (id : Nat) : Option Nat :=
  (List.range fifo.len).find? fun offset => fifo.ids ((fifo.head + offset) % fifo.capacity) == id

end OrderFifo

/-! ### The state both layouts share -/

/-- A batch of completions that is handed out one chain at a time. -/
structure InOrderBatch where
  remaining : Nat
  finalLen : Nat
  deriving DecidableEq, Repr

structure RingCore where
  size : Nat
  chainLimit : Nat
  features : Features
  ids : IdPool
  writableLen : Nat → Nat
  order : OrderFifo
  batch : InOrderBatch
  /-- The address of the indirect tables, one for each identifier, if there are any. -/
  indirect : Option Nat
  numAdded : Nat

namespace RingCore

variable (core : RingCore)

/-- The tables are allocated at `tables` when they are needed. -/
def new (size chainLimit : Nat) (features : Features) (tables : Nat) : RingCore where
  size := size
  chainLimit := chainLimit
  features := features
  ids := IdPool.new size
  writableLen := fun _ => 0
  order := OrderFifo.new (if features.inOrder then size else 0)
  batch := ⟨0, 0⟩
  indirect :=
    if features.indirect && decide (chainLimit ≥ indirectMinChain) then some tables else none
  numAdded := 0

def useIndirect (buffers : Nat) : Bool :=
  core.indirect.isSome && decide (buffers ≥ indirectMinChain)

def descriptorsNeeded (buffers : Nat) : Nat :=
  if core.useIndirect buffers then 1 else buffers

def checkChain (chain : List ChainEntry) : Except VirtqueueError Unit :=
  if chain.isEmpty then .error .emptyChain
  else if chain.length > core.chainLimit then
    .error (.chainTooLong chain.length core.chainLimit)
  else .ok ()

/-- The address of the indirect table of an identifier, for a chain that fits into it. -/
def tableAddr (id : Nat) (chain : List ChainEntry) : Except QueuePanic Nat :=
  let stride := core.chainLimit * descriptorBytes
  match core.indirect with
  | none => .error .indirectTable
  | some tables =>
    if chain.length ≤ core.chainLimit ∧ id * stride + stride ≤ stride * core.size then
      .ok (tables + id * stride)
    else .error .indirectTable

/-- Notes the writable bytes and the order of a chain, for devices that complete in order. -/
def recordChain (id : Nat) (chain : List ChainEntry) :
    Except QueuePanic RingCore :=
  if !core.features.inOrder then .ok core
  else if id < core.size then do
    let writable := (chain.filter ChainEntry.writable).foldl
      (fun sum entry => min (sum + entry.len) (2 ^ 32 - 1)) 0
    let order ← core.order.push id
    .ok { core with writableLen := update core.writableLen id writable, order }
  else .error .indexOutOfBounds

def beginInOrderBatch (finalId finalLen : Nat) : Except QueuePanic RingCore :=
  match core.order.position finalId with
  | none => .error (.notInFlight finalId)
  | some chains => .ok { core with batch := ⟨chains + 1, finalLen⟩ }

def nextInOrderCompletion : Except QueuePanic ((Nat × Nat) × RingCore) :=
  match core.order.popFront with
  | none => .error .nothingInFlight
  | some (id, order) =>
    let remaining := core.batch.remaining - 1
    let core := { core with order, batch := { core.batch with remaining } }
    .ok ((id, if remaining = 0 then core.batch.finalLen else core.writableLen id), core)

end RingCore

/-- Whether the event index lies among the entries published since the last decision. -/
def needEvent (event new old : Nat) : Bool :=
  wrappingSub (wrappingSub new event) 1 < wrappingSub new old

end Helios.Virtio
