import Helios.Library.Buckets
import Helios.Library.Machine

/-!
# The timing wheel

The timer of one processor keeps its sleeps in a wheel of four levels of 256 slots.  An
entry waits in a slot chosen from its distance at insertion and moves to finer levels as
the wheel turns, one tick at a time.  Entries hold weak handles to the pool of sleep
states: a slot of the pool that was released, or handed out again, makes its old handles
dead.

The loops of the wheel pop a slot that they may push to, so whether they end is not
evident; they take a bound on their number of steps and return nothing when it runs out.
-/

namespace Helios

open Function

/-! ### The pool of sleep states -/

/-- The header of a slot of the pool.  Its generation is a 64-bit word. -/
structure SleepStateSlot where
  refcount : Nat
  generation : Nat
  deriving DecidableEq, Repr

/-- The slots, and the queue of the indices of the free ones. -/
structure SleepStatePool where
  capacity : Nat
  slots : Nat → SleepStateSlot
  freeIndices : List Nat

/-- A weak handle, valid as long as its slot has its generation. -/
structure SleepHandle where
  idx : Nat
  generation : Nat
  deriving DecidableEq, Repr

inductive TimerStop where
  | sleepPoolExhausted
  | sleepFreelistOverflow
  | outOfFuel
  deriving DecidableEq, Repr

namespace SleepStatePool

def new (capacity : Nat) : SleepStatePool where
  capacity := capacity
  slots := fun _ => ⟨0, 0⟩
  freeIndices := List.range capacity

variable (pool : SleepStatePool)

def acquire : Except TimerStop (SleepStatePool × Nat) :=
  match pool.freeIndices with
  | [] => .error .sleepPoolExhausted
  | idx :: freeIndices =>
    .ok ({ pool with
      slots := update pool.slots idx { pool.slots idx with refcount := 1 }
      freeIndices }, idx)

/-- The reference that firing a sleep takes for its duration. -/
def retain (idx : Nat) : SleepStatePool :=
  let slot := pool.slots idx
  if slot.refcount = 0 then
    pool
  else
    { pool with slots := update pool.slots idx { slot with refcount := slot.refcount + 1 } }

def release (idx : Nat) : Except TimerStop SleepStatePool :=
  let slot := pool.slots idx
  if slot.refcount ≠ 1 then
    .ok { pool with
      slots := update pool.slots idx { slot with refcount := slot.refcount - 1 } }
  else if pool.freeIndices.length < pool.capacity then
    .ok { pool with
      slots := update pool.slots idx ⟨0, (slot.generation + 1) % 2 ^ 64⟩
      freeIndices := pool.freeIndices ++ [idx] }
  else
    .error .sleepFreelistOverflow

end SleepStatePool

def SleepHandle.isDead (handle : SleepHandle) (pool : SleepStatePool) : Bool :=
  let slot := pool.slots handle.idx
  slot.refcount == 0 || slot.generation != handle.generation

/-! ### Entries and slots -/

/-- A registered sleep: its deadline in timer ticks and in ticks of the wheel. -/
structure TimerEntry where
  deadline : Nat
  deadlineTick : Nat
  state : SleepHandle
  deriving DecidableEq, Repr

def TimerEntry.isDead (entry : TimerEntry) (pool : SleepStatePool) : Bool :=
  entry.state.isDead pool

def timerWheelLevels : Nat := 4

def timerWheelSlots : Nat := 256

def wheelLevel (delay : Nat) : Nat :=
  if delay < timerWheelSlots then 0
  else if delay < timerWheelSlots ^ 2 then 1
  else if delay < timerWheelSlots ^ 3 then 2
  else 3

def wheelSlot (tick level : Nat) : Nat :=
  (tick >>> (level * 8)) &&& (timerWheelSlots - 1)

section

variable (deadline quantumTicks : Nat)

def wheelTickFloor : Nat :=
  deadline / quantumTicks

def wheelTickCeil : Nat :=
  Machine.satAdd 64 deadline (quantumTicks - 1) / quantumTicks

/-- The ticks of a timebase in a duration, given in seconds and nanoseconds. -/
def durationToTicks (frequency secs subsecNanos : Nat) : Nat :=
  Machine.satAdd 64 (Machine.satMul 64 secs frequency) (subsecNanos * frequency / 1000000000)

/-- The entry that a sleep until a deadline registers. -/
def TimerEntry.enqueued (state : SleepHandle) : TimerEntry where
  deadline := deadline
  deadlineTick := wheelTickCeil deadline quantumTicks
  state := state

end

/-! ### The wheel -/

/-- The wheel.  A bucket is found by its level and its slot. -/
structure TimingWheel where
  buckets : Nat × Nat → List TimerEntry
  currentTick : Nat
  nextDeadline : Option Nat
  nextDeadlineTick : Option Nat
  nextDeadlineDirty : Bool

namespace TimingWheel

variable (wheel : TimingWheel)

def new (currentTick : Nat) : TimingWheel where
  buckets := fun _ => []
  currentTick := currentTick
  nextDeadline := none
  nextDeadlineTick := none
  nextDeadlineDirty := false

def observeDeadline (deadline deadlineTick : Nat) : TimingWheel :=
  if wheel.nextDeadline.all (fun currentDeadline => deadline < currentDeadline) then
    { wheel with nextDeadline := some deadline, nextDeadlineTick := some deadlineTick }
  else
    wheel

variable (pool : SleepStatePool)

def insert (entry : TimerEntry) : TimingWheel :=
  if entry.isDead pool then
    wheel
  else
    let wheel := wheel.observeDeadline entry.deadline entry.deadlineTick
    let targetTick := max entry.deadlineTick wheel.currentTick
    let delay := targetTick - wheel.currentTick
    let level := wheelLevel delay
    let slot := wheelSlot targetTick level
    { wheel with buckets := Buckets.push wheel.buckets (level, slot) entry }

/-- The levels and slots, in the order in which they are scanned. -/
def positions : List (Nat × Nat) :=
  List.range timerWheelLevels ×ˢ List.range timerWheelSlots

/-- All entries, in the order in which they are scanned. -/
def entries : List TimerEntry :=
  Buckets.held positions wheel.buckets

def minByDeadline : List TimerEntry → Option TimerEntry
  | [] => none
  | entry :: rest =>
    match minByDeadline rest with
    | none => some entry
    | some best => if best.deadline < entry.deadline then some best else some entry

def rebuildNextDeadline : TimingWheel :=
  let next := minByDeadline (wheel.entries.filter fun entry => !entry.isDead pool)
  { wheel with
    nextDeadline := next.map TimerEntry.deadline
    nextDeadlineTick := next.map TimerEntry.deadlineTick
    nextDeadlineDirty := false }

def nextLiveDeadline : TimingWheel × Option Nat :=
  let wheel :=
    if wheel.nextDeadlineDirty ||
        wheel.nextDeadlineTick.any (fun deadlineTick => deadlineTick ≤ wheel.currentTick) then
      wheel.rebuildNextDeadline pool
    else
      wheel
  (wheel, wheel.nextDeadline)

/-- The loop of a cascade of one level, which empties the current slot of the level. -/
def cascadeLevel (pool : SleepStatePool) (level : Nat) : Nat → TimingWheel → Option TimingWheel
  | 0, _ => none
  | fuel + 1, wheel =>
    match Buckets.pop wheel.buckets (level, wheelSlot wheel.currentTick level) with
    | none => some wheel
    | some (buckets, entry) =>
      let wheel := { wheel with buckets, nextDeadlineDirty := true }
      if entry.isDead pool then
        cascadeLevel pool level fuel wheel
      else
        cascadeLevel pool level fuel (wheel.insert pool entry)

/-- The cascade of a level at a tick that is a multiple of the level's span. -/
def cascadeAt (fuel : Nat) (wheel : TimingWheel) (level : Nat) :
    Option TimingWheel :=
  let lowerMask := (1 <<< (level * 8)) - 1
  if wheel.currentTick &&& lowerMask = 0 then
    cascadeLevel pool level fuel wheel
  else
    some wheel

def cascade (fuel : Nat) (wheel : TimingWheel) : Option TimingWheel :=
  ((List.range' 1 (timerWheelLevels - 1)).reverse).foldlM (cascadeAt pool fuel) wheel

/-- The loop that empties the current slot of the finest level. -/
def drainCurrentSlot (pool : SleepStatePool) :
    Nat → TimingWheel → List TimerEntry → Option (TimingWheel × List TimerEntry)
  | 0, _, _ => none
  | fuel + 1, wheel, ready =>
    match Buckets.pop wheel.buckets (0, wheelSlot wheel.currentTick 0) with
    | none => some (wheel, ready)
    | some (buckets, entry) =>
      let wheel := { wheel with buckets, nextDeadlineDirty := true }
      if entry.isDead pool then
        drainCurrentSlot pool fuel wheel ready
      else if entry.deadlineTick ≤ wheel.currentTick then
        drainCurrentSlot pool fuel wheel (ready ++ [entry])
      else
        drainCurrentSlot pool fuel (wheel.insert pool entry) ready

/-- Turns the wheel to a tick.  Every loop, the inner ones included, may take `fuel`
steps. -/
def drainExpired (nowTick fuel : Nat) (wheel : TimingWheel)
    (ready : List TimerEntry) : Option (TimingWheel × List TimerEntry) :=
  turn fuel wheel ready
where
  turn : Nat → TimingWheel → List TimerEntry → Option (TimingWheel × List TimerEntry)
    | 0, _, _ => none
    | n + 1, wheel, ready =>
      if wheel.currentTick < nowTick then do
        let wheel := { wheel with currentTick := Machine.satAdd 64 wheel.currentTick 1 }
        let wheel ← wheel.cascade pool fuel
        let (wheel, ready) ← drainCurrentSlot pool fuel wheel ready
        turn n wheel ready
      else
        drainCurrentSlot pool fuel wheel ready

end TimingWheel

end Helios
