import Helios.Library.Machine
import Helios.Library.Transition

/-!
# Notifications

A `Notify` keeps a count of permits and a generation, and an event that parked waits listen
to.  Any number of waits are polled and any number of notifications are raised at once; a
step is one access to the permits, to the generation or to the event.

The event is not part of the kernel.  A step that notifies listeners names the waits whose
listeners it wakes, and `EventNotifies` says what the event is trusted to do: a notification
of `n` listeners leaves at least `n` of them notified, or all, counting those that were
notified before, and a notified listener that is dropped notifies another one.
-/

namespace Helios

inductive EventListener where
  | waiting
  | notified
  deriving DecidableEq, Repr

/-- What a wait completes by. -/
inductive Completion where
  | permit
  | broadcast
  deriving DecidableEq, Repr

/-- How far the current call of `poll_notified` on a wait has come: it is about to load the
generation, to claim a permit, to listen or poll its listener, or to re-arm the wait at a
loaded generation and return. -/
inductive PollStage where
  | idle
  | load
  | claim
  | park
  | rearm (generation : Nat) (completion : Completion)
  | dropped
  deriving DecidableEq, Repr

structure NotifyWaiter where
  observed : Nat
  listener : Option EventListener
  stage : PollStage
  deriving DecidableEq, Repr

/-- A notification reaches the listener of a wait, if it is waiting for one. -/
def NotifyWaiter.wake (waiter : NotifyWaiter) : NotifyWaiter :=
  if waiter.listener = some .waiting then { waiter with listener := some .notified } else waiter

/-- The notifications whose event is still to be raised are listed by their counts. -/
structure Notify where
  permits : Nat
  generation : Nat
  waiters : List NotifyWaiter
  unraised : List Nat
  deriving DecidableEq, Repr

namespace Notify

variable (notify : Notify)

inductive Poll where
  | ready (completion : Completion)
  | pending
  deriving DecidableEq, Repr

/-- The accesses.  `load`, `claim`, `park` and `rearm` are those of `poll_notified`;
`notifyCount`, `notifyOneCoalesced` and `notifyAll` are the first access of the notification,
and `raise` is its notification of the event. -/
inductive Op where
  | waiter
  | poll (w : Nat)
  | load (w : Nat)
  | claim (w : Nat)
  | park (w : Nat)
  | rearm (w : Nat) (woken : List Nat)
  | drop (w : Nat) (woken : List Nat)
  | notifyCount (count : Nat)
  | notifyOneCoalesced
  | notifyAll
  | raise (i : Nat) (woken : List Nat)
  deriving DecidableEq, Repr

def new : Notify := ⟨0, 0, [], []⟩

/-! ### The event -/

/-- Notifies the listeners of some waits. -/
def wake (woken : List Nat) : Notify :=
  { notify with
    waiters := notify.waiters.mapIdx fun i waiter =>
      if i ∈ woken then waiter.wake else waiter }

/-- The number of listeners, and of those that are notified. -/
def active : Nat :=
  notify.waiters.countP fun waiter => waiter.listener.isSome

def notified : Nat :=
  notify.waiters.countP fun waiter => waiter.listener = some .notified

/-- What the event is trusted to do when `count` listeners are to be notified. -/
def EventNotifies (count : Nat) (woken : List Nat) : Prop :=
  min count notify.active ≤ (notify.wake woken).notified

instance (notify : Notify) (count : Nat) (woken : List Nat) :
    Decidable (notify.EventNotifies count woken) :=
  inferInstanceAs (Decidable (_ ≤ _))

/-! ### The accesses -/

def set (w : Nat) (waiter : NotifyWaiter) : Notify :=
  { notify with waiters := notify.waiters.set w waiter }

/-- Drops the listener of a wait, which is replaced by `waiter`.  A notified listener passes
its notification on. -/
def unlisten (w : Nat) (listener : Option EventListener)
    (waiter : NotifyWaiter) (woken : List Nat) : Notify :=
  if listener = some .notified then (notify.set w waiter).wake woken else notify.set w waiter

/-- One access by `poll_notified` on a wait, or by dropping it. -/
def stepWaiter (w : Nat) (waiter : NotifyWaiter) :
    Op → Except Unit (Notify × Option Poll)
  | .poll _ =>
    if waiter.stage = .idle then .ok (notify.set w { waiter with stage := .load }, none)
    else .error ()
  | .load _ =>
    if waiter.stage = .load then
      if notify.generation ≠ waiter.observed then
        .ok (notify.set w { waiter with stage := .rearm notify.generation .broadcast }, none)
      else
        .ok (notify.set w { waiter with stage := .claim }, none)
    else .error ()
  | .claim _ =>
    if waiter.stage = .claim then
      if notify.permits = 0 then
        .ok (notify.set w { waiter with stage := .park }, none)
      else
        .ok ({ notify with permits := notify.permits - 1 }.set w
          { waiter with stage := .rearm waiter.observed .permit }, none)
    else .error ()
  | .park _ =>
    if waiter.stage = .park then
      match waiter.listener with
      | none =>
        .ok (notify.set w { waiter with listener := some .waiting, stage := .load }, none)
      | some .notified =>
        .ok (notify.set w { waiter with listener := none, stage := .load }, none)
      | some .waiting => .ok (notify.set w { waiter with stage := .idle }, some .pending)
    else .error ()
  | .rearm _ woken =>
    match waiter.stage with
    | .rearm generation completion =>
      .ok (notify.unlisten w waiter.listener ⟨generation, none, .idle⟩ woken,
        some (.ready completion))
    | _ => .error ()
  | .drop _ woken =>
    if waiter.stage = .idle then
      .ok (notify.unlisten w waiter.listener ⟨waiter.observed, none, .dropped⟩ woken, none)
    else .error ()
  | _ => .error ()

/-- The wait that an access is about. -/
def Op.waiter? : Op → Option Nat
  | .poll w => some w
  | .load w => some w
  | .claim w => some w
  | .park w => some w
  | .rearm w _ => some w
  | .drop w _ => some w
  | _ => none

def step (op : Op) : Except Unit (Notify × Option Poll) :=
  match op with
  | .waiter =>
    .ok ({ notify with waiters := notify.waiters ++ [⟨notify.generation, none, .idle⟩] }, none)
  | .notifyCount count =>
    if count = 0 then
      .ok (notify, none)
    else
      .ok ({ notify with
        permits := Machine.satAdd 64 notify.permits count
        unraised := notify.unraised ++ [count] }, none)
  | .notifyOneCoalesced =>
    if notify.permits = 0 then
      .ok ({ notify with permits := 1, unraised := notify.unraised ++ [1] }, none)
    else
      .ok (notify, none)
  | .notifyAll =>
    .ok ({ notify with
      generation := (notify.generation + 1) % 2 ^ 64
      unraised := notify.unraised ++ [Machine.maxWord 64] }, none)
  | .raise i woken =>
    if i < notify.unraised.length then
      .ok ({ notify with unraised := notify.unraised.eraseIdx i }.wake woken, none)
    else .error ()
  | op =>
    match op.waiter? with
    | none => .error ()
    | some w =>
      match notify.waiters[w]? with
      | none => .error ()
      | some waiter => notify.stepWaiter w waiter op

/-- The accesses in which the event does what it is trusted to do. -/
def Behaves : Op → Prop
  | .raise i woken => ∀ count ∈ notify.unraised[i]?, notify.EventNotifies count woken
  | .rearm w woken => ∀ waiter ∈ notify.waiters[w]?, waiter.listener = some .notified →
      (notify.set w { waiter with listener := none }).EventNotifies 1 woken
  | .drop w woken => ∀ waiter ∈ notify.waiters[w]?, waiter.listener = some .notified →
      (notify.set w { waiter with listener := none }).EventNotifies 1 woken
  | _ => True

instance (notify : Notify) : (op : Op) → Decidable (notify.Behaves op)
  | .raise i woken => inferInstanceAs
      (Decidable (∀ count ∈ notify.unraised[i]?, notify.EventNotifies count woken))
  | .rearm w woken | .drop w woken => inferInstanceAs
      (Decidable (∀ waiter ∈ notify.waiters[w]?, waiter.listener = some .notified →
        (notify.set w { waiter with listener := none }).EventNotifies 1 woken))
  | .waiter | .poll _ | .load _ | .claim _ | .park _ | .notifyCount _ | .notifyOneCoalesced
  | .notifyAll => inferInstanceAs (Decidable True)

end Notify

end Helios
