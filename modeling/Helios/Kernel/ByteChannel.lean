import Helios.Kernel.ByteQueue

/-!
# The byte channel

A channel of byte chunks between cloned writers and cloned readers.  The queue and the two waker
sets are each behind a lock, and the close flags, the permits, the waiter counts and the handle
counts are atomics, so a call is a sequence of accesses: each is one step, and the steps of
different calls interleave.  A call that finds nothing to do claims the permit of its signal,
registers its waker, claims the permit again and parks; a call that changes the channel ends by
publishing permits and waking.
-/

namespace Helios.Child

/-- The two signals of a channel: readers wait for one, writers for the other. -/
inductive Side where
  | readable
  | writable
  deriving DecidableEq, Repr

structure ByteSignal where
  permit : Bool
  waiters : Nat
  wakers : WakerSet

def ByteSignal.new : ByteSignal := ⟨false, 0, .new⟩

/-- What the code asserts, and what its types rule out. -/
inductive Panic where
  | clonedAfterLiveness
  | handleUnderflow
  | notRunning
  deriving DecidableEq, Repr

structure ByteChannel where
  queue : ByteChunks
  readable : ByteSignal
  writable : ByteSignal
  writerClosed : Bool
  readerClosed : Bool
  writerHandles : Nat
  readerHandles : Nat

/-- The calls on the handles.  The polls and the asynchronous calls may park. -/
inductive Call where
  | tryWrite (bytes : Bytes)
  | pollWrite (bytes : Bytes)
  | isWritable
  | pollWritable
  | readerClosed
  | isReadable
  | pollReadable
  | tryRead
  | pollRead
  | read
  | closeWriter
  | dropWriter
  | cloneWriter
  | closeReader
  | dropReader
  | cloneReader
  deriving DecidableEq, Repr

/-- The signal that the waits of a call are for. -/
def Call.side : Call → Side
  | .tryWrite _ | .pollWrite _ | .isWritable | .pollWritable | .readerClosed | .closeWriter
  | .dropWriter | .cloneWriter => .writable
  | .isReadable | .pollReadable | .tryRead | .pollRead | .read | .closeReader | .dropReader
  | .cloneReader => .readable

inductive Result where
  | written
  | full (bytes : Bytes)
  | closed
  | ready
  | notReady
  | chunk (bytes : Option Bytes)
  | eof
  | pending
  | done
  deriving DecidableEq, Repr

/-- What follows an access of a call: the next one, a wait, or the end, with the signals that are
still to be notified. -/
inductive Outcome where
  | next (access : Nat)
  | blocked
  | finish (result : Result) (notices : List Side)
  deriving DecidableEq, Repr

namespace ByteChannel

variable (channel : ByteChannel)

def new : ByteChannel := ⟨.new, .new, .new, false, false, 1, 1⟩

def signal : Side → ByteSignal
  | .readable => channel.readable
  | .writable => channel.writable

def setSignal (side : Side) (signal : ByteSignal) : ByteChannel :=
  match side with
  | .readable => { channel with readable := signal }
  | .writable => { channel with writable := signal }

/-! ### Accesses -/

/-- Pushes under the lock of the queue, unless a side is closed. -/
def push (bytes : Bytes) : Option QueuePush × ByteChannel :=
  if channel.readerClosed || channel.writerClosed then (none, channel)
  else
    let (result, queue) := channel.queue.push bytes
    (some result, { channel with queue })

/-- Pops under the lock of the queue.  The writers are notified when the queue was full. -/
def pop : Option Bytes × List Side × ByteChannel :=
  let wasFull := channel.queue.isFull
  let (bytes, queue) := channel.queue.pop
  (bytes, if wasFull && bytes.isSome then [.writable] else [], { channel with queue })

/-- The accesses of a write: the two flags, and the push. -/
def accessWrite (bytes : Bytes) (whenFull : Bytes → Outcome) :
    Nat → ByteChannel × Outcome
  | 0 => (channel, if channel.readerClosed then .finish .closed [] else .next 1)
  | 1 =>
    (channel,
      if channel.writerClosed then .finish .closed []
      else if bytes = [] then .finish .written []
      else .next 2)
  | _ + 2 =>
    match channel.push bytes with
    | (none, channel) => (channel, .finish .closed [])
    | (some .pushed, channel) => (channel, .finish .written [.readable])
    | (some (.full bytes), channel) => (channel, whenFull bytes)

/-- The accesses of a test for room: the two flags, and the queue. -/
def accessWritable (whenFull : Outcome) : Nat → Outcome
  | 0 => if channel.readerClosed then .finish .ready [] else .next 1
  | 1 => if channel.writerClosed then .finish .ready [] else .next 2
  | _ + 2 => if !channel.queue.isFull then .finish .ready [] else whenFull

/-- The accesses of a test for data: the queue, and the two flags. -/
def accessReadable (whenEmpty : Outcome) : Nat → Outcome
  | 0 => if !channel.queue.isEmpty then .finish .ready [] else .next 1
  | 1 => if channel.writerClosed then .finish .ready [] else .next 2
  | _ + 2 => if channel.readerClosed then .finish .ready [] else whenEmpty

/-- The accesses of a read: a pop, the two flags, and a second pop once a side is closed. -/
def accessRead : Nat → ByteChannel × Outcome
  | 0 =>
    match channel.pop with
    | (some bytes, notices, channel) => (channel, .finish (.chunk (some bytes)) notices)
    | (none, _, channel) => (channel, .next 1)
  | 1 => (channel, if channel.writerClosed then .next 3 else .next 2)
  | 2 => (channel, if channel.readerClosed then .next 3 else .blocked)
  | _ + 3 =>
    let (bytes, notices, channel) := channel.pop
    (channel, .finish (.chunk bytes) notices)

/-- The accesses of a read that does not wait.  It has no second pop. -/
def accessTryRead : Nat → ByteChannel × Outcome
  | 0 =>
    match channel.pop with
    | (some bytes, notices, channel) => (channel, .finish (.chunk (some bytes)) notices)
    | (none, _, channel) => (channel, .next 1)
  | 1 => (channel, if channel.writerClosed then .finish .eof [] else .next 2)
  | _ + 2 => (channel, if channel.readerClosed then .finish .eof [] else .finish .notReady [])

def closeReader : ByteChannel × Outcome :=
  ({ channel with readerClosed := true, queue := channel.queue.clear },
    .finish .done [.readable, .writable])

def access (channel : ByteChannel) (call : Call) (access : Nat) :
    Except Panic (ByteChannel × Outcome) :=
  match call with
  | .tryWrite bytes => .ok (channel.accessWrite bytes (fun bytes => .finish (.full bytes) []) access)
  | .pollWrite bytes => .ok (channel.accessWrite bytes (fun _ => .blocked) access)
  | .isWritable => .ok (channel, channel.accessWritable (.finish .notReady []) access)
  | .pollWritable => .ok (channel, channel.accessWritable .blocked access)
  | .readerClosed =>
    .ok (channel, if channel.readerClosed then .finish .ready [] else .blocked)
  | .isReadable => .ok (channel, channel.accessReadable (.finish .notReady []) access)
  | .pollReadable => .ok (channel, channel.accessReadable .blocked access)
  | .tryRead => .ok (channel.accessTryRead access)
  | .pollRead | .read => .ok (channel.accessRead access)
  | .closeWriter => .ok ({ channel with writerClosed := true }, .finish .done [.readable, .writable])
  | .dropWriter =>
    match access with
    | 0 =>
      if channel.writerHandles = 0 then .error .handleUnderflow
      else .ok ({ channel with writerHandles := channel.writerHandles - 1 },
        if channel.writerHandles = 1 then .next 1 else .finish .done [])
    | _ => .ok ({ channel with writerClosed := true }, .finish .done [.readable])
  | .cloneWriter =>
    if channel.writerHandles = 0 then .error .clonedAfterLiveness
    else .ok ({ channel with writerHandles := channel.writerHandles + 1 }, .finish .done [])
  | .closeReader => .ok channel.closeReader
  | .dropReader =>
    match access with
    | 0 =>
      if channel.readerHandles = 0 then .error .handleUnderflow
      else .ok ({ channel with readerHandles := channel.readerHandles - 1 },
        if channel.readerHandles = 1 then .next 1 else .finish .done [])
    | _ => .ok channel.closeReader
  | .cloneReader =>
    if channel.readerHandles = 0 then .error .clonedAfterLiveness
    else .ok ({ channel with readerHandles := channel.readerHandles + 1 }, .finish .done [])

end ByteChannel

/-! ### Signals -/

namespace ByteSignal

variable (signal : ByteSignal)

def tryClaimPermit : Bool × ByteSignal :=
  (signal.permit, { signal with permit := false })

def publishPermit : ByteSignal := { signal with permit := true }

def withWakers (wakers : WakerSet) : ByteSignal :=
  { signal with wakers, waiters := wakers.len }

def takeWaker : Option Waker × ByteSignal :=
  let (waker, wakers) := signal.wakers.pop
  (waker, signal.withWakers wakers)

/-- Replaces what the wait registered before, or adds the waker. -/
def registerWaker (registered : Option Waker) (waker : Waker) : ByteSignal :=
  match registered.bind fun registered => signal.wakers.replace registered waker with
  | some wakers => { signal with wakers }
  | none => signal.withWakers (signal.wakers.push waker)

def removeRegisteredWaker (registered : Option Waker) : ByteSignal :=
  match registered with
  | none => signal
  | some waker => signal.withWakers (signal.wakers.remove waker)

end ByteSignal

/-! ### Tasks -/

/-- How far a notification has come. -/
inductive Progress where
  | publish
  | count
  | take
  | wake (waker : Waker)
  deriving DecidableEq, Repr

/-- Where a task is in its call. -/
inductive Pc where
  | idle
  | access (access : Nat)
  | claim
  | register
  | claimAgain
  | remove
  | suspended
  | notify (side : Side) (progress : Progress) (rest : List Side) (result : Result)
  deriving DecidableEq, Repr

/-- A wait and the call that is made with it.  The waker of a wait was called when it was since
the wait registered it. -/
structure Task where
  call : Call
  waker : Waker
  registered : Option Waker
  called : Bool
  pc : Pc

def Task.new : Task := ⟨.tryRead, 0, none, false, .idle⟩

/-- Begins a call, or polls it again.  A wait serves one side, and a suspended `read` goes on
where it waited. -/
def Task.poll (task : Task) (call : Call) (waker : Waker) : Option Task :=
  if task.registered ≠ none ∧ call.side ≠ task.call.side then none
  else
    match task.pc with
    | .idle => some { task with call, waker, pc := .access 0 }
    | .suspended =>
      if task.call = .read then
        if call = .read then some { task with waker, pc := .claim } else none
      else some { task with call, waker, pc := .access 0 }
    | _ => none

structure State where
  channel : ByteChannel
  tasks : Nat → Task

inductive Op where
  | poll (task : Nat) (call : Call) (waker : Waker)
  | step (task : Nat)
  | dropWait (task : Nat)
  deriving DecidableEq, Repr

namespace State

variable (state : State)

def new : State := ⟨.new, fun _ => .new⟩

variable (index : Nat)

def setTask (task : Task) : State :=
  { state with tasks := Function.update state.tasks index task }

def setSignal (side : Side) (signal : ByteSignal) : State :=
  { state with channel := state.channel.setSignal side signal }

def nextNotice (result : Result) : List Side → State × Option Result
  | [] => (state.setTask index { state.tasks index with pc := .idle }, some result)
  | side :: rest =>
    (state.setTask index { state.tasks index with pc := .notify side .publish rest result }, none)

/-- What follows an access. -/
def follow : Outcome → State × Option Result
  | .next access => (state.setTask index { state.tasks index with pc := .access access }, none)
  | .blocked => (state.setTask index { state.tasks index with pc := .claim }, none)
  | .finish result notices => state.nextNotice index result notices

/-- A waker is called: every wait that registered it is to be polled again. -/
def wake (waker : Waker) : State :=
  { state with tasks := fun index =>
      if (state.tasks index).waker = waker then { state.tasks index with called := true }
      else state.tasks index }

def stepNotify (side : Side) (progress : Progress)
    (rest : List Side) (result : Result) : State × Option Result :=
  let signal := state.channel.signal side
  let goto := fun (state : State) progress =>
    (state.setTask index { state.tasks index with pc := .notify side progress rest result }, none)
  match progress with
  | .publish => goto (state.setSignal side signal.publishPermit) .count
  | .count =>
    if signal.waiters ≠ 0 then goto state .take else state.nextNotice index result rest
  | .take =>
    match signal.takeWaker with
    | (some waker, signal) => goto (state.setSignal side signal) (.wake waker)
    | (none, signal) => (state.setSignal side signal).nextNotice index result rest
  | .wake waker =>
    -- The writable signal wakes them all, the readable one only one.
    if side = .writable then goto (state.wake waker) .take
    else (state.wake waker).nextNotice index result rest

def stepTask : Except Panic (State × Option Result) :=
  let task := state.tasks index
  let signal := state.channel.signal task.call.side
  let goto := fun (state : State) pc => (state.setTask index { state.tasks index with pc }, none)
  match task.pc with
  | .idle | .suspended => .error .notRunning
  | .access access =>
    match state.channel.access task.call access with
    | .error panic => .error panic
    | .ok (channel, outcome) => .ok ({ state with channel }.follow index outcome)
  | .claim =>
    let (claimed, signal) := signal.tryClaimPermit
    .ok (goto (state.setSignal task.call.side signal) (if claimed then .remove else .register))
  | .register =>
    let state := state.setSignal task.call.side (signal.registerWaker task.registered task.waker)
    .ok (state.setTask index { task with
      registered := some task.waker, called := false, pc := .claimAgain }, none)
  | .claimAgain =>
    let (claimed, signal) := signal.tryClaimPermit
    let state := state.setSignal task.call.side signal
    if claimed then .ok (goto state .remove)
    else .ok (state.setTask index { task with pc := .suspended }, some .pending)
  | .remove =>
    let state := state.setSignal task.call.side (signal.removeRegisteredWaker task.registered)
    .ok (state.setTask index { task with registered := none, pc := .access 0 }, none)
  | .notify side progress rest result => .ok (state.stepNotify index side progress rest result)

def step : Op → Except Panic (State × Option Result)
  | .poll index call waker =>
    match (state.tasks index).poll call waker with
    | none => .error .notRunning
    | some task => .ok (state.setTask index task, none)
  | .step index => state.stepTask index
  | .dropWait index =>
    let task := state.tasks index
    if task.pc = .idle ∨ task.pc = .suspended then
      let signal := state.channel.signal task.call.side
      .ok ((state.setSignal task.call.side (signal.removeRegisteredWaker task.registered)).setTask
        index { task with registered := none, pc := .idle }, none)
    else .error .notRunning

end State

end Helios.Child
