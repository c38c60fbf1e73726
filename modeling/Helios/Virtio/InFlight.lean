import Helios.Virtio.Queue
import Helios.Library.Transition

/-!
# Requests in flight

Tasks share one queue and one table of completion slots.  A task places its chain under the lock
of the queue and claims the slot of the chain's identifier before it lets go of the lock; then it
waits for the slot.  Whoever has the lock of the queue and nothing to place, or waits and gets the
lock, pops what the device has used and records each completion in its slot.  The lock of the
table is taken for each access to it, so between two accesses any other task may run.
-/

namespace Helios.Virtio

def Waker : Type := Nat
  deriving DecidableEq, Repr

/-! ### The table -/

/-- The state of one identifier. -/
inductive Slot where
  | idle
  | pending (waker : Option Waker)
  | complete (len : Nat)
  deriving DecidableEq, Repr

inductive InFlightPanic where
  | outsideTable (token : Nat)
  | stillInFlight (token : Nat)
  | noRequest (token : Nat)
  | notInFlight (token : Nat)
  | queue (panic : QueuePanic)
  deriving DecidableEq, Repr

structure InFlight where
  capacity : Nat
  slots : Nat → Slot

namespace InFlight

variable (table : InFlight)

def new (capacity : Nat) : InFlight := ⟨capacity, fun _ => .idle⟩

variable (token : Nat)

def slot : Except InFlightPanic Slot :=
  if token < table.capacity then .ok (table.slots token) else .error (.outsideTable token)

def set (slot : Slot) : InFlight :=
  { table with slots := Function.update table.slots token slot }

/-- Whether an identifier can be handed to a new request. -/
def isIdle : Except InFlightPanic Bool := do
  match ← table.slot token with
  | .idle => .ok true
  | .pending _ | .complete _ => .ok false

def register : Except InFlightPanic InFlight := do
  match ← table.slot token with
  | .idle => .ok (table.set token (.pending none))
  | .pending _ | .complete _ => .error (.stillInFlight token)

/-- Records a completion, and returns the waker that is to be called. -/
def complete (token len : Nat) :
    Except InFlightPanic (Option Waker × InFlight) := do
  match ← table.slot token with
  | .pending waker => .ok (waker, table.set token (.complete len))
  | .idle | .complete _ => .error (.noRequest token)

def take : Except InFlightPanic (Option Nat × InFlight) := do
  match ← table.slot token with
  | .complete len => .ok (some len, table.set token .idle)
  | .idle | .pending _ => .ok (none, table)

/-- Parks a waker, and tells whether the completion is there already. -/
def arm (waker : Waker) :
    Except InFlightPanic (Bool × InFlight) := do
  match ← table.slot token with
  | .complete _ => .ok (true, table)
  | .pending parked =>
    .ok (false, if parked = some waker then table else table.set token (.pending (some waker)))
  | .idle => .error (.notInFlight token)

end InFlight

/-! ### Requests -/

/-- A buffer of the driver's. -/
structure Buffer where
  ptr : Nat
  len : Nat
  deriving DecidableEq, Repr

structure PhysicalRange where
  start : Nat
  bytes : Nat
  deriving DecidableEq, Repr

/-- How the bus translates addresses. -/
structure Dma where
  dmaAddr : Nat → Option Nat
  deviceRange : Nat → Nat → Option Nat

structure Request where
  inputs : List Buffer
  payload : Option PhysicalRange
  outputs : List Buffer
  deriving DecidableEq, Repr

def Request.buffers (request : Request) : Nat :=
  request.inputs.length + (if request.payload.isSome then 1 else 0) + request.outputs.length

def entryLen (len : Nat) : Except VirtqueueError Nat :=
  if len < 2 ^ 32 then .ok len else .error (.chainTooLong len (2 ^ 32 - 1))

def Dma.entry (dma : Dma) (buffer : Buffer) (writable : Bool) : Except VirtqueueError ChainEntry :=
  if buffer.len = 0 then .error .emptyChain
  else
    match dma.dmaAddr buffer.ptr with
    | none => .error .ringAllocation
    | some addr => do
      let len ← entryLen buffer.len
      .ok ⟨addr, len, writable⟩

/-- An entry for memory that the driver has no pointer to. -/
def Dma.foreignEntry (dma : Dma) (payload : PhysicalRange) : Except VirtqueueError ChainEntry :=
  if payload.bytes = 0 then .error .emptyChain
  else do
    let len ← entryLen payload.bytes
    match dma.deviceRange payload.start payload.bytes with
    | none => .error .ringAllocation
    | some addr => .ok ⟨addr, len, false⟩

def buildChain (dma : Dma) (request : Request) : Except VirtqueueError (List ChainEntry) :=
  if request.buffers = 0 then .error .emptyChain
  else if request.buffers > maxChainBuffers then
    .error (.chainTooLong request.buffers maxChainBuffers)
  else do
    let inputs ← request.inputs.mapM fun buffer => dma.entry buffer false
    let payload ← request.payload.toList.mapM dma.foreignEntry
    let outputs ← request.outputs.mapM fun buffer => dma.entry buffer true
    .ok (inputs ++ payload ++ outputs)

/-! ### Queues -/

inductive DeviceStep where
  | fetch
  | use (index len flags : Nat)
  deriving DecidableEq, Repr

/-- A virtqueue with its device.  A step of the device that does not conform is not taken. -/
structure VirtQueue (Q : Type) where
  start : Q
  submit : Q → List ChainEntry → Except QueuePanic (Except VirtqueueError Nat × Q)
  popUsed : Q → Except QueuePanic (Option (Nat × Nat) × Q)
  notify : Q → Bool × Q
  hasRoomFor : Q → Nat → Bool
  nextFreeDescriptor : Q → Nat
  device : Q → DeviceStep → Option Q

/-! ### Tasks -/

/-- What a task goes on with when it has drained the queue. -/
inductive Goal where
  | submit (request : Request)
  | wait (token : Nat)
  deriving DecidableEq, Repr

/-- Where a task is.  From `test` to `register`, in `drain` and in `record` it has the lock of the
queue. -/
inductive TaskPc where
  | idle
  | submit (request : Request)
  | test (request : Request)
  | place (request : Request)
  | kick (token : Nat)
  | register (token : Nat)
  | wait (token : Nat)
  | reap (token : Nat)
  | drain (drained : Nat) (goal : Goal)
  | record (token len drained : Nat) (goal : Goal)
  | arm (token : Nat)
  deriving DecidableEq, Repr

structure System (Q : Type) where
  queue : Q
  holder : Option Nat
  table : InFlight
  tasks : Nat → TaskPc

/-- A call begins a request.  A task steps with the waker it is polled with, and with whether what
it waits for besides its slot has happened. -/
inductive SystemOp where
  | call (task : Nat) (request : Request)
  | step (task : Nat) (waker : Waker) (fired : Bool)
  | device (step : DeviceStep)
  deriving DecidableEq, Repr

/-- What can be seen of a step. -/
inductive Event where
  | quiet
  | refused (error : VirtqueueError)
  | submitted (token : Nat)
  | popped (token len : Nat)
  | taken (token len : Nat)
  deriving DecidableEq

inductive Fault where
  | notEnabled
  | panic (panic : InFlightPanic)
  deriving DecidableEq, Repr

namespace System

variable {Q : Type}

def new (virtQueue : VirtQueue Q) (capacity : Nat) : System Q :=
  ⟨virtQueue.start, none, .new capacity, fun _ => .idle⟩

def goto (system : System Q) (task : Nat) (pc : TaskPc) : System Q :=
  { system with tasks := Function.update system.tasks task pc }

/-- Where a task goes when it has drained the queue and let go of the lock. -/
def afterDrain (drained : Nat) : Goal → TaskPc
  | .submit request => .submit request
  | .wait token => if drained = 0 then .arm token else .wait token

def lift {α : Type} : Except InFlightPanic α → Except Fault α
  | .ok a => .ok a
  | .error panic => .error (.panic panic)

def liftQueue {α : Type} : Except QueuePanic α → Except Fault α
  | .ok a => .ok a
  | .error panic => .error (.panic (.queue panic))

def stepTask (virtQueue : VirtQueue Q) (dma : Dma) (system : System Q) (task : Nat) (waker : Waker)
    (fired : Bool) : Except Fault (System Q × Event) :=
  match system.tasks task with
  | .idle => .error .notEnabled
  | .submit request =>
    if system.holder = none then
      .ok ({ system with holder := some task }.goto task (.test request), .quiet)
    else .error .notEnabled
  | .test request =>
    if virtQueue.hasRoomFor system.queue request.buffers then do
      let idle ← lift (system.table.isIdle (virtQueue.nextFreeDescriptor system.queue))
      .ok (system.goto task (if idle then .place request else .drain 0 (.submit request)), .quiet)
    else .ok (system.goto task (.drain 0 (.submit request)), .quiet)
  | .place request =>
    match buildChain dma request with
    | .error error => .ok ({ system with holder := none }.goto task .idle, .refused error)
    | .ok chain => do
      let (result, queue) ← liftQueue (virtQueue.submit system.queue chain)
      match result with
      | .ok token => .ok ({ system with queue }.goto task (.kick token), .quiet)
      | .error error =>
        .ok ({ system with queue, holder := none }.goto task .idle, .refused error)
  | .kick token =>
    .ok ({ system with queue := (virtQueue.notify system.queue).2 }.goto task (.register token),
      .quiet)
  | .register token => do
    let table ← lift (system.table.register token)
    .ok ({ system with table, holder := none }.goto task (.wait token), .submitted token)
  | .wait token => do
    let (len, table) ← lift (system.table.take token)
    match len with
    | some len => .ok ({ system with table }.goto task .idle, .taken token len)
    | none => .ok ({ system with table }.goto task (.reap token), .quiet)
  | .reap token =>
    if system.holder = none then
      .ok ({ system with holder := some task }.goto task (.drain 0 (.wait token)), .quiet)
    else .ok (system.goto task (.arm token), .quiet)
  | .drain drained goal => do
    let (completion, queue) ← liftQueue (virtQueue.popUsed system.queue)
    match completion with
    | some (token, len) =>
      .ok ({ system with queue }.goto task (.record token len drained goal),
        .popped token len)
    | none =>
      .ok ({ system with queue, holder := none }.goto task (afterDrain drained goal),
        .quiet)
  | .record token len drained goal => do
    let (_, table) ← lift (system.table.complete token len)
    .ok ({ system with table }.goto task (.drain (drained + 1) goal), .quiet)
  | .arm token => do
    let (ready, table) ← lift (system.table.arm token waker)
    .ok ({ system with table }.goto task
      (if ready || fired then .wait token else .arm token), .quiet)

def step (virtQueue : VirtQueue Q) (dma : Dma) (system : System Q) :
    SystemOp → Except Fault (System Q × Event)
  | .call task request =>
    if system.tasks task = .idle then .ok (system.goto task (.submit request), .quiet)
    else .error .notEnabled
  | .step task waker fired => system.stepTask virtQueue dma task waker fired
  | .device step =>
    match virtQueue.device system.queue step with
    | none => .error .notEnabled
    | some queue => .ok ({ system with queue }, .quiet)

end System

end Helios.Virtio
