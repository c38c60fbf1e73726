import Helios.Virtio.Queue
import Helios.Library.Transition
import Mathlib.Data.List.Nodup
import Mathlib.Algebra.BigOperators.Group.List.Basic

/-!
# The queue that a virtqueue is

A virtqueue moves chains from the driver to the device and back.  A chain that was submitted
waits until it is published; then the device takes it, uses it with a length, and the driver
pops it, in the order of use.  A submission is refused when the chain is empty or too long, or
when there are not enough free descriptors, and gets an identifier that no chain in flight has
otherwise.  A ring implements the queue when every step it takes is a step of the queue with
the same answer.
-/

namespace Helios.Virtio

open List

/-- A chain in flight: its identifier, and how many descriptors it holds. -/
structure Chain where
  id : Nat
  cost : Nat
  deriving DecidableEq, Repr

/-- What a driver and a device do with a queue. -/
inductive Op where
  | submit (chain : List ChainEntry) (publish : Bool)
  | publish
  | popUsed
  | fetch
  | use (index len flags : Nat)
  deriving DecidableEq, Repr

inductive Answer where
  | submitted (result : Except VirtqueueError Nat)
  | done
  | popped (completion : Option (Nat × Nat))
  | used (id len : Nat)
  deriving DecidableEq

/-- The size of the ring, the longest chain, and whether long chains take one descriptor. -/
structure QueueConfig where
  size : Nat
  chainLimit : Nat
  indirect : Bool
  deriving DecidableEq, Repr

/-- How many descriptors a chain of some buffers takes. -/
def QueueConfig.needed (config : QueueConfig) (buffers : Nat) : Nat :=
  if config.indirect && decide (buffers ≥ indirectMinChain) then 1 else buffers

structure AbstractQueue where
  waiting : List Chain
  ready : List Chain
  taken : List Chain
  used : List (Chain × Nat)
  deriving DecidableEq, Repr

variable {trace : List (Op × Answer)}

namespace AbstractQueue

variable {config : QueueConfig} {chain : Chain}

def empty : AbstractQueue := ⟨[], [], [], []⟩

section

variable (queue : AbstractQueue)

/-- The chains in flight. -/
def chains : List Chain :=
  queue.waiting ++ queue.ready ++ queue.taken ++ queue.used.map Prod.fst

/-- The descriptors that chains in flight hold. -/
def held : Nat := (queue.chains.map Chain.cost).sum

/-- Why a submission is refused. -/
def refusal (config : QueueConfig) (queue : AbstractQueue) (chain : List ChainEntry) :
    Option VirtqueueError :=
  if chain.isEmpty then some .emptyChain
  else if chain.length > config.chainLimit then
    some (.chainTooLong chain.length config.chainLimit)
  else if config.size < queue.held + config.needed chain.length then
    some (.full (config.needed chain.length))
  else none

def publish : AbstractQueue :=
  { queue with ready := queue.ready ++ queue.waiting, waiting := [] }

def put (chain : Chain) (visible : Bool) : AbstractQueue :=
  let queue := { queue with waiting := queue.waiting ++ [chain] }
  if visible then queue.publish else queue

end

/-- One step of the queue.  A chain that is not published may be visible to the device all the
same. -/
inductive Step (config : QueueConfig) : AbstractQueue → Op → Answer → AbstractQueue → Prop where
  | refused {queue chain publish error} :
      queue.refusal config chain = some error →
      Step config queue (.submit chain publish) (.submitted (.error error)) queue
  | accepted {queue chain publish id} (early : Bool) :
      queue.refusal config chain = none → id < config.size → id ∉ queue.chains.map Chain.id →
      Step config queue (.submit chain publish) (.submitted (.ok id))
        (queue.put ⟨id, config.needed chain.length⟩ (publish || early))
  | publish {queue} : Step config queue .publish .done queue.publish
  | popNone {queue} : queue.used = [] → Step config queue .popUsed (.popped none) queue
  | pop {queue chain len rest} : queue.used = (chain, len) :: rest →
      Step config queue .popUsed (.popped (some (chain.id, len))) { queue with used := rest }
  | fetchNone {queue} : queue.ready = [] → Step config queue .fetch .done queue
  | fetch {queue chain rest} : queue.ready = chain :: rest →
      Step config queue .fetch .done
        { queue with ready := rest, taken := queue.taken ++ [chain] }
  | use {queue chain index len flags} : queue.taken[index]? = some chain →
      Step config queue (.use index len flags) (.used chain.id len)
        { queue with
          taken := queue.taken.eraseIdx index
          used := queue.used ++ [(chain, len)] }

/-- The queue after a trace of operations and answers. -/
inductive Runs (config : QueueConfig) : List (Op × Answer) → AbstractQueue → Prop where
  | start : Runs config [] empty
  | step {trace queue op answer next} : Runs config trace queue →
      Step config queue op answer next → Runs config (trace ++ [(op, answer)]) next

/-! ### Completions -/

section

variable (trace)

/-- The chains that the device has used, with their lengths, in order. -/
def usedOf : List (Nat × Nat) :=
  trace.filterMap fun event => match event.2 with
    | .used id len => some (id, len)
    | _ => none

/-- The completions that the driver has popped, in order. -/
def poppedOf : List (Nat × Nat) :=
  trace.filterMap fun event => match event.2 with
    | .popped completion => completion
    | _ => none

end

/-- The completions that the driver has still to pop. -/
def pending (queue : AbstractQueue) : List (Nat × Nat) :=
  queue.used.map fun entry => (entry.1.id, entry.2)

variable {queue : AbstractQueue}

theorem Step.pending {next : AbstractQueue} {op : Op} {answer : Answer}
    (h : Step config queue op answer next) :
  queue.pending ++ usedOf [(op, answer)] = poppedOf [(op, answer)] ++ next.pending
  := by
  cases h with
  | refused h | popNone h | fetchNone h => simp [usedOf, poppedOf]
  | accepted early _ _ _ =>
    rw [put]
    split <;> simp [usedOf, poppedOf, AbstractQueue.pending, AbstractQueue.publish]
  | publish => simp [usedOf, poppedOf, AbstractQueue.pending, AbstractQueue.publish]
  | pop h => simp [usedOf, poppedOf, AbstractQueue.pending, h]
  | fetch h | use h => simp [usedOf, poppedOf, AbstractQueue.pending]

/-- What has been used is what has been popped, and what has still to be. -/
theorem Runs.usedOf_eq (h : Runs config trace queue) :
  usedOf trace = poppedOf trace ++ queue.pending
  := by
  induction h with
  | start => rfl
  | step hrun hstep ih =>
    have hpending := hstep.pending
    rw [usedOf, filterMap_append, ← usedOf, ← usedOf, ih, append_assoc, hpending]
    rw [poppedOf, poppedOf, poppedOf, filterMap_append, append_assoc]

/-! ### Chains in flight -/

theorem chains_publish (queue : AbstractQueue) :
  queue.publish.chains.Perm queue.chains
  := by
  rw [chains, AbstractQueue.publish]
  simp only [nil_append]
  apply List.Perm.append_right
  apply List.Perm.append_right
  exact perm_append_comm

theorem chains_put (queue : AbstractQueue) (chain : Chain) (visible : Bool) :
  (queue.put chain visible).chains.Perm (chain :: queue.chains)
  := by
  have hput : ({ queue with waiting := queue.waiting ++ [chain] } : AbstractQueue).chains.Perm
      (chain :: queue.chains) := by
    simp only [chains, append_assoc]
    exact perm_middle
  rw [put]
  split
  · exact (chains_publish _).trans hput
  · exact hput

theorem chains_pop {len : Nat} {rest : List (Chain × Nat)} (h : queue.used = (chain, len) :: rest) :
  queue.chains.Perm (chain :: { queue with used := rest : AbstractQueue }.chains)
  := by
  simp only [chains, h]
  exact perm_middle

theorem chains_fetch {rest : List Chain} (h : queue.ready = chain :: rest) :
  ({ queue with ready := rest, taken := queue.taken ++ [chain] } : AbstractQueue).chains.Perm
    queue.chains
  := by
  simp only [chains, h, append_assoc]
  apply List.Perm.append_left
  have hmiddle := @List.perm_middle _ chain (rest ++ queue.taken) (queue.used.map Prod.fst)
  rw [append_assoc, append_assoc] at hmiddle
  exact hmiddle

theorem chains_use {chain : Chain} {index len : Nat} (h : queue.taken[index]? = some chain) :
  ({ queue with
      taken := queue.taken.eraseIdx index
      used := queue.used ++ [(chain, len)] } : AbstractQueue).chains.Perm queue.chains
  := by
  obtain ⟨hlt, rfl⟩ := List.getElem?_eq_some_iff.mp h
  have hperm := getElem_cons_eraseIdx_perm hlt
  simp only [chains, append_assoc, map_append]
  apply List.Perm.append_left
  apply List.Perm.append_left
  apply List.Perm.trans _ (hperm.append_right _)
  rw [← append_assoc]
  exact (perm_append_singleton _ _)

end AbstractQueue

/-! ### Rings of a configuration -/

/-- The part of a ring that stays as it is, for a ring without completions in order. -/
structure RingCore.Fits (core : RingCore) (config : QueueConfig) (bits : Nat) : Prop where
  bitsLe : bits ≤ 15
  size : core.size = 2 ^ bits
  configSize : config.size = 2 ^ bits
  limit : config.chainLimit = core.chainLimit
  indirect : config.indirect = core.indirect.isSome
  inOrder : core.features.inOrder = false
  poolSize : core.ids.size = 2 ^ bits

namespace RingCore.Fits

variable {core : RingCore} {config : QueueConfig} {bits : Nat}

section

variable (h : core.Fits config bits)
include h

theorem pow_le :
  2 ^ bits ≤ 2 ^ 15
  := Nat.pow_le_pow_right (by decide) h.bitsLe

theorem of_ids {ids : IdPool} {numAdded : Nat} (hids : ids.size = 2 ^ bits) :
  ({ core with ids, numAdded } : RingCore).Fits config bits
  := { h with poolSize := hids }

theorem needed_eq (buffers : Nat) :
  core.descriptorsNeeded buffers = config.needed buffers
  := by
  rw [descriptorsNeeded, useIndirect, QueueConfig.needed, h.indirect]

/-- The checks before a submission, with the descriptors that are free. -/
theorem refusal_eq {queue : AbstractQueue} {free : Nat}
    (hconserves : free + queue.held = 2 ^ bits) (chain : List ChainEntry) :
  queue.refusal config chain =
    match core.checkChain chain with
    | .error error => some error
    | .ok () =>
      if free < config.needed chain.length then some (.full (config.needed chain.length)) else none
  := by
  rw [AbstractQueue.refusal, checkChain, ← h.limit, h.configSize]
  split
  · rfl
  · split
    · rfl
    · have hiff : 2 ^ bits < queue.held + config.needed chain.length ↔
          free < config.needed chain.length := by omega
      simp only [hiff]

theorem slot_eq (count : Nat) :
  (count % 2 ^ 16) &&& (core.size - 1) = count % 2 ^ bits
  := by
  rw [h.size, Nat.and_two_pow_sub_one_eq_mod]
  exact Nat.mod_mod_of_dvd count (Nat.pow_dvd_pow 2 (Nat.le_trans h.bitsLe (by decide)))

end

end RingCore.Fits

theorem RingCore.fits_new {bits chainLimit : Nat} {features : Features} (tables : Nat)
    (hbits : bits ≤ 15) (hinOrder : features.inOrder = false) :
  (RingCore.new (2 ^ bits) chainLimit features tables).Fits
    ⟨2 ^ bits, chainLimit, features.indirect && decide (chainLimit ≥ indirectMinChain)⟩ bits
  := by
  refine ⟨hbits, rfl, rfl, rfl, ?_, hinOrder, rfl⟩
  simp only [RingCore.new]
  split_ifs with hindirect
  · rw [hindirect]
    rfl
  · rw [Bool.not_eq_true] at hindirect
    rw [hindirect]
    rfl

/-! ### Implementations -/

/-- A ring with its device: the operations it takes, and its free descriptors. -/
structure RingMachine (State : Type) where
  start : State
  step : State → Op → Except QueuePanic (State × Answer)
  allowed : State → Op → Prop
  free : State → Nat

namespace RingMachine

variable {config : QueueConfig}

variable {State : Type}

/-- A state of a ring and the trace of what was done to it. -/
def Reached (machine : RingMachine State) (state : State) (trace : List (Op × Answer)) : Prop :=
  Transition.Reachable
    (Transition.instrument machine.step fun trace _ op answer => trace ++ [(op, answer)])
    (fun state => state = (machine.start, []))
    (fun state op => machine.allowed state.1 op) (state, trace)

/-- A ring implements the queue: its traces are traces of the queue, the identifiers of the
chains in flight are distinct, and the free descriptors and those that chains hold make up the
ring.  The completions popped are the first of those the device made, and the next pop returns
the next of them.  No operation panics, and a refused submission changes nothing. -/
structure Implements (machine : RingMachine State) (config : QueueConfig) : Prop where
  refines : ∀ state trace, machine.Reached state trace →
    ∃ queue, AbstractQueue.Runs config trace queue ∧ (queue.chains.map Chain.id).Nodup ∧
      machine.free state + queue.held = config.size
  completes : ∀ state trace, machine.Reached state trace →
    ∃ pending next, AbstractQueue.usedOf trace = AbstractQueue.poppedOf trace ++ pending ∧
      machine.step state .popUsed = .ok (next, .popped pending.head?)
  returns : ∀ state trace op, machine.Reached state trace → machine.allowed state op →
    ∃ next answer, machine.step state op = .ok (next, answer)
  refuses : ∀ state trace chain publish next error, machine.Reached state trace →
    machine.step state (.submit chain publish) = .ok (next, .submitted (.error error)) →
    next = state

/-- A relation between the states of a ring and of the queue that every step keeps. -/
structure Simulation (machine : RingMachine State) (config : QueueConfig)
    (shows : State → AbstractQueue → Prop) : Prop where
  start : shows machine.start .empty
  step : ∀ state queue op, shows state queue → machine.allowed state op →
    ∃ next answer queue', machine.step state op = .ok (next, answer) ∧
      AbstractQueue.Step config queue op answer queue' ∧ shows next queue'
  distinct : ∀ state queue, shows state queue → (queue.chains.map Chain.id).Nodup
  conserves : ∀ state queue, shows state queue → machine.free state + queue.held = config.size
  pops : ∀ state, machine.allowed state .popUsed
  refuses : ∀ state chain publish next error,
    machine.step state (.submit chain publish) = .ok (next, .submitted (.error error)) →
    next = state

variable {machine : RingMachine State} {shows : State → AbstractQueue → Prop}

theorem Simulation.reached (h : machine.Simulation config shows) {state : State}
    (hreached : machine.Reached state trace) :
  ∃ queue, AbstractQueue.Runs config trace queue ∧ shows state queue
  := by
  apply @Transition.Reachable.invariant _ _ _ _ _ _ _
    (fun state => ∃ queue, AbstractQueue.Runs config state.2 queue ∧ shows state.1 queue) _ _ _ hreached
  · rintro _ rfl
    exact ⟨.empty, .start, h.start⟩
  · rintro ⟨state, trace⟩ op ⟨next, trace'⟩ answer ⟨queue, hruns, hshows⟩ hallowed hstep
    obtain ⟨htaken, rfl⟩ := Transition.instrument_eq_ok hstep
    obtain ⟨next', answer', queue', hstep', hqueue, hshows'⟩ := h.step state queue op hshows hallowed
    rw [htaken] at hstep'
    cases hstep'
    exact ⟨queue', .step hruns hqueue, hshows'⟩

/-- A ring with a simulation implements the queue. -/
theorem Simulation.implements (h : machine.Simulation config shows) :
  machine.Implements config
  := by
  constructor
  · intro state trace hreached
    obtain ⟨queue, hruns, hshows⟩ := h.reached hreached
    exact ⟨queue, hruns, h.distinct state queue hshows, h.conserves state queue hshows⟩
  · intro state trace hreached
    obtain ⟨queue, hruns, hshows⟩ := h.reached hreached
    obtain ⟨next, answer, queue', hstep, hqueue, _⟩ := h.step state queue .popUsed hshows (h.pops state)
    refine ⟨queue.pending, next, hruns.usedOf_eq, ?_⟩
    rw [hstep]
    cases hqueue with
    | popNone hused | pop hused => simp [AbstractQueue.pending, hused]
  · intro state trace op hreached hallowed
    obtain ⟨queue, _, hshows⟩ := h.reached hreached
    obtain ⟨next, answer, _, hstep, _⟩ := h.step state queue op hshows hallowed
    exact ⟨next, answer, hstep⟩
  · intro state trace chain publish next error _
    exact h.refuses state chain publish next error

end RingMachine

end Helios.Virtio
