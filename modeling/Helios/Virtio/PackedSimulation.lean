import Helios.Library.RingIndex
import Helios.Virtio.PackedRing
import Helios.Virtio.AbstractQueue
import Helios.Virtio.IdPool

/-!
# The packed ring implements the queue

Positions are counted from the start.  The completions still to pop begin at the driver's used
cursor; after them come the chains that the device has taken, then those it has still to take,
up to the driver's available cursor.  From the device's used cursor on, a position that has been
handed over carries the flags of its own lap, and a position that has not carries an available
flag of the lap before, so neither side takes it for a new one.
-/

namespace Helios.Virtio

open PackedRing Nat List

variable {size len : Nat} {ring : PackedRing} {ids : IdPool} {queue : AbstractQueue}

variable {chain : Chain} {id : Nat}

open RingIndex Function AbstractQueue PackedDescriptor RingCore

/-! ### Cursors -/

theorem PackedRing.advance_cursor (hsize : 0 < size) (count : Nat) :
  advance size (cursor size count) = cursor size (count + 1)
  := succ_eq hsize count

theorem PackedRing.iterate_advance_cursor (hsize : 0 < size) (steps count : Nat) :
  (advance size)^[steps] (cursor size count) = cursor size (count + steps)
  := by
  induction steps generalizing count with
  | zero => rfl
  | succ steps ih =>
    rw [iterate_succ_apply, advance_cursor hsize, ih]
    congr 1
    omega

/-! ### What the descriptors say -/

namespace PackedDescriptor

/-- The flags of a descriptor that the driver has handed over in a lap. -/
def Handed (descriptor : PackedDescriptor) (wrap : Bool) : Prop :=
  (descriptor.flags &&& descFAvail != 0) = wrap ∧ (descriptor.flags &&& descFUsed != 0) = !wrap

/-- The available flag is that of the lap before. -/
def Stale (descriptor : PackedDescriptor) (wrap : Bool) : Prop :=
  (descriptor.flags &&& descFAvail != 0) = !wrap

variable {descriptor : PackedDescriptor} {wrap : Bool}

theorem Handed.isAvailable (h : descriptor.Handed wrap) :
  PackedDevice.isAvailable descriptor.flags wrap = true
  := by
  rw [PackedDevice.isAvailable, h.1, h.2]
  cases wrap <;> rfl

theorem Handed.not_isUsed (h : descriptor.Handed wrap) (usedWrap : Bool) :
  isUsed descriptor.flags usedWrap = false
  := by
  rw [isUsed, h.1, h.2]
  cases wrap <;> rfl

/-- A lap later a descriptor that was handed over is out of date. -/
theorem Handed.stale (h : descriptor.Handed wrap) :
  descriptor.Stale !wrap
  := by
  rw [Stale, h.1, Bool.not_not]

theorem Stale.not_isAvailable (h : descriptor.Stale wrap) :
  PackedDevice.isAvailable descriptor.flags wrap = false
  := by
  rw [PackedDevice.isAvailable, h]
  cases wrap <;> rfl

theorem Stale.not_isUsed (h : descriptor.Stale wrap) :
  isUsed descriptor.flags wrap = false
  := by
  rw [isUsed, h]
  cases wrap <;> cases (descriptor.flags &&& descFUsed != 0) <;> rfl

end PackedDescriptor

theorem PackedDevice.Conforms.isUsed {flags : Nat} {wrap : Bool} (h : Conforms flags wrap) :
  isUsed flags wrap = true
  := by
  rw [Virtio.isUsed, h.1, h.2]
  cases wrap <;> rfl

/-- The flags of the positions from the device's used cursor on, up to the driver's available
cursor and after it. -/
structure Marks (size : Nat) (memory : Nat → PackedDescriptor) (used avail : Nat) : Prop where
  handed : ∀ count, used ≤ count → count < avail →
    (memory (count % size)).Handed (lap size count)
  stale : ∀ count, avail ≤ count → count < used + size →
    (memory (count % size)).Stale (lap size count)

/-- The descriptors of a chain, from a count on: each has the identifier, and all but the last
are continued. -/
def ChainAt (size : Nat) (memory : Nat → PackedDescriptor) (start : Nat) (chain : Chain) : Prop :=
  ∀ index < chain.cost,
    (memory ((start + index) % size)).id = chain.id ∧
    ((memory ((start + index) % size)).flags &&& descFNext = 0 ↔ index + 1 = chain.cost)

/-- The chains that the device has still to take, one after another. -/
def ReadyAt (size : Nat) (memory : Nat → PackedDescriptor) : Nat → List Chain → Prop
  | _, [] => True
  | start, chain :: ready =>
    ChainAt size memory start chain ∧ ReadyAt size memory (start + chain.cost) ready

/-- The completions that the driver has still to pop, each at the first position of as many as
the chain had. -/
def UsedAt (size : Nat) (memory : Nat → PackedDescriptor) : Nat → List (Chain × Nat) → Prop
  | _, [] => True
  | start, (chain, len) :: used =>
    ((memory (start % size)).id = chain.id ∧ (memory (start % size)).len = len ∧
      PackedDevice.Conforms (memory (start % size)).flags (lap size start)) ∧
    UsedAt size memory (start + chain.cost) used

def slotsOf (chains : List Chain) : Nat := (chains.map Chain.cost).sum

section Memory

variable {ready : List Chain}

variable {start used avail : Nat}

variable {size : Nat} {memory after : Nat → PackedDescriptor}

theorem ChainAt.congr (h : ChainAt size memory start chain) (hsame : ∀ count, start ≤ count →
      count < start + chain.cost → after (count % size) = memory (count % size)) :
  ChainAt size after start chain
  := by
  intro index hindex
  rw [hsame (start + index) (by omega) (by omega)]
  exact h index hindex

theorem ReadyAt.congr (h : ReadyAt size memory start ready) (hsame : ∀ count, start ≤ count →
      count < start + slotsOf ready → after (count % size) = memory (count % size)) :
  ReadyAt size after start ready
  := by
  induction ready generalizing start with
  | nil => trivial
  | cons chain ready ih =>
    simp only [slotsOf, List.map_cons, List.sum_cons] at hsame ih
    constructor
    · exact h.1.congr fun count hle hlt => hsame count hle (by omega)
    · exact ih h.2 fun count hle hlt => hsame count (by omega) (by omega)

theorem UsedAt.congr {used : List (Chain × Nat)} (h : UsedAt size memory start used)
    (hpos : ∀ entry ∈ used, 0 < entry.1.cost) (hsame : ∀ count, start ≤ count → count < start +
      slotsOf (used.map Prod.fst) → after (count % size) = memory (count % size)) :
  UsedAt size after start used
  := by
  induction used generalizing start with
  | nil => trivial
  | cons entry used ih =>
    obtain ⟨chain, len⟩ := entry
    simp only [slotsOf, List.map_cons, List.sum_cons] at hsame ih
    obtain ⟨hchain : 0 < chain.cost, hrest⟩ := forall_mem_cons.mp hpos
    constructor
    · rw [hsame start (le_refl _) (by omega)]
      exact h.1
    · apply ih h.2 hrest
      intro count hle hlt
      exact hsame count (by omega) (by omega)

theorem ReadyAt.concat (h : ReadyAt size memory start ready)
    (hchain : ChainAt size memory (start + slotsOf ready) chain) :
  ReadyAt size memory start (ready ++ [chain])
  := by
  induction ready generalizing start with
  | nil => exact ⟨hchain, trivial⟩
  | cons first ready ih =>
    constructor
    · exact h.1
    · apply ih h.2
      rw [add_assoc]
      exact hchain

theorem UsedAt.concat {used : List (Chain × Nat)} (h : UsedAt size memory start used) (hchain :
      UsedAt size memory (start + slotsOf (used.map Prod.fst)) [(chain, len)]) :
  UsedAt size memory start (used ++ [(chain, len)])
  := by
  induction used generalizing start with
  | nil => exact hchain
  | cons entry used ih =>
    constructor
    · exact h.1
    · apply ih h.2
      rw [add_assoc]
      exact hchain

/-- A chain is read back as it was written. -/
theorem ChainAt.readChain {cost : Nat} (hsize : 0 < size)
    (h : ChainAt size memory start ⟨id, cost + 1⟩) {fuel : Nat} (hfuel : cost ≤ fuel) :
  PackedDevice.readChain memory size fuel (cursor size start) = (id, cost + 1)
  := by
  induction cost generalizing start fuel with
  | zero =>
    obtain ⟨hid, hlast⟩ := h 0 (by simp)
    have hend := hlast.mpr rfl
    cases fuel with
    | zero => exact Prod.ext hid rfl
    | succ fuel =>
      rw [PackedDevice.readChain, cursor]
      simp only [add_zero] at hend hid
      rw [if_pos hend, hid]
  | succ cost ih =>
    obtain ⟨fuel, rfl⟩ : ∃ rest, fuel = rest + 1 := ⟨fuel - 1, by omega⟩
    obtain ⟨_, hlast⟩ := h 0 (by simp)
    have hmore : ¬ (memory (start % size)).flags &&& descFNext = 0 := by
      intro hzero
      have hend := hlast.mp hzero
      simp only [zero_add] at hend
      omega
    have htail : ChainAt size memory (start + 1) ⟨id, cost + 1⟩ := by
      intro index hindex
      have hat := h (index + 1) (by simp only at hindex ⊢; omega)
      rw [add_assoc, add_comm 1 index]
      simp only [add_right_cancel_iff] at hat ⊢
      exact hat
    have hrest := ih htail (le_of_succ_le_succ hfuel)
    rw [PackedDevice.readChain, advance_cursor hsize, hrest]
    rw [cursor, if_neg hmore]

theorem Marks.stale_avail (h : Marks size memory used avail) (hsize : 0 < size)
    (hlap : avail ≤ used + size) :
  (memory (avail % size)).Stale (lap size avail)
  := by
  rcases eq_or_lt_of_le hlap with heq | hlt
  · have hhanded := h.handed used (le_refl _) (by omega)
    rw [heq, add_mod_right, lap_add_size hsize]
    exact hhanded.stale
  · exact h.stale avail (le_refl _) hlt

theorem Marks.not_isUsed (h : Marks size memory used avail) (hsize : 0 < size)
    (hle : used ≤ avail) :
  isUsed (memory (used % size)).flags (lap size used) = false
  := by
  rcases eq_or_lt_of_le hle with heq | hlt
  · exact (h.stale used (by omega) (by omega)).not_isUsed
  · exact (h.handed used (le_refl _) hlt).not_isUsed _

/-- The device marks the first position of a chain used and passes over the others. -/
theorem Marks.use {used avail cost addr len id flags : Nat} (h : Marks size memory used avail)
    (hpos : 0 < cost) (hcost : used + cost ≤ avail) (hlap : avail ≤ used + size)
    (hflags : PackedDevice.Conforms flags (lap size used)) :
  Marks size (update memory (used % size) ⟨addr, len, id, flags⟩) (used + cost) avail
  := by
  constructor
  · intro count hle hlt
    rw [update_of_near (by omega) (by omega) (by omega)]
    exact h.handed count (by omega) hlt
  · intro count hle hlt
    by_cases hold : count < used + size
    · rw [update_of_near (by omega) (by omega) (by omega)]
      exact h.stale count hle hold
    · -- A lap after a position of the chain.
      obtain ⟨index, rfl⟩ : ∃ index, count = used + index + size := ⟨count - used - size, by omega⟩
      rw [add_mod_right, lap_add_size (by omega)]
      cases index with
      | zero =>
        rw [add_zero, update_self, Stale, hflags.1, Bool.not_not]
      | succ index =>
        rw [update_of_near (by omega) (by omega) (by omega)]
        exact (h.handed (used + (index + 1)) (by omega) (by omega)).stale

/-! ### Writing a chain -/

/-- The descriptors after a chain was written from a count on. -/
structure WroteChain (size : Nat) (memory after : Nat → PackedDescriptor) (start : Nat)
    (chain : Chain) : Prop where
  kept : ∀ position, (∀ count, start ≤ count → count < start + chain.cost →
    position ≠ count % size) → after position = memory position
  handed : ∀ count, start ≤ count → count < start + chain.cost →
    (after (count % size)).Handed (lap size count)
  chainAt : ChainAt size after start chain

/-- A count outside a chain, less than a lap from every part of it, is not touched. -/
theorem WroteChain.of_near {count : Nat} (h : WroteChain size memory after start chain)
    (hout : count < start ∨ start + chain.cost ≤ count)
    (hbefore : start + chain.cost ≤ count + size) (hafter : count < start + size) :
  after (count % size) = memory (count % size)
  := by
  apply h.kept
  intro other hle hlt
  rcases hout with hout | hout
  · exact mod_ne (by omega) (by omega)
  · exact (mod_ne (by omega) (by omega)).symm

theorem Marks.write (h : Marks size memory used avail)
    (hwrote : WroteChain size memory after avail chain) (hle : used ≤ avail)
    (hlap : avail + chain.cost ≤ used + size) :
  Marks size after used (avail + chain.cost)
  := by
  constructor
  · intro count hfrom hlt
    by_cases hold : count < avail
    · rw [hwrote.of_near (Or.inl hold) (by omega) (by omega)]
      exact h.handed count hfrom hold
    · exact hwrote.handed count (by omega) hlt
  · intro count hfrom hlt
    rw [hwrote.of_near (Or.inr hfrom) (by omega) (by omega)]
    exact h.stale count (by omega) hlt

/-- The flags the driver writes hand the descriptor over, and say whether it is continued. -/
theorem handed_flags (wrap writable last : Bool) (addr len id : Nat) :
  Handed ⟨addr, len, id, availability wrap ||| (if writable then descFWrite else 0) |||
      (if last then 0 else descFNext)⟩ wrap ∧
    ((availability wrap ||| (if writable then descFWrite else 0) |||
      (if last then 0 else descFNext)) &&& descFNext = 0 ↔ last = true)
  := by
  simp only [Handed]
  revert wrap writable last
  decide

theorem handed_indirect (wrap : Bool) (addr len id : Nat) :
  Handed ⟨addr, len, id, descFIndirect ||| availability wrap⟩ wrap ∧
    (descFIndirect ||| availability wrap) &&& descFNext = 0
  := by
  simp only [Handed]
  revert wrap
  decide

theorem writeChain_wrote (hsize : 0 < size) (id : Nat) (chain : List ChainEntry) (start : Nat)
    (hlength : chain.length ≤ size) :
  ∃ after, PackedRing.writeChain size id chain (cursor size start) memory =
      .ok (cursor size (start + chain.length), after) ∧
    WroteChain size memory after start ⟨id, chain.length⟩
  := by
  induction chain generalizing start memory with
  | nil =>
    refine ⟨memory, rfl, fun _ _ => rfl, ?_, ?_⟩
    · intro count hle hlt
      simp only [length_nil] at hlt
      omega
    · intro index hindex
      exact absurd hindex (not_lt_zero _)
  | cons entry chain ih =>
    rw [List.length_cons] at hlength
    have hflags := handed_flags (lap size start) entry.writable chain.isEmpty entry.addr entry.len id
    rw [PackedRing.writeChain, advance_cursor hsize]
    rw [cursor, if_pos (mod_lt _ hsize)]
    simp only
    generalize hfirst : (mk entry.addr entry.len id (availability (lap size start) |||
      (if entry.writable then descFWrite else 0) ||| (if chain.isEmpty then 0 else descFNext))) = first
      at hflags ⊢
    have hid : first.id = id := by rw [← hfirst]
    have hnext : first.flags &&& descFNext = 0 ↔ chain.isEmpty = true := by
      rw [← hfirst]
      exact hflags.2
    obtain ⟨after, hwrite, hwrote⟩ := @ih (update memory (start % size) first) (start + 1)
      (by omega)
    have hstart : after (start % size) = first := by
      rw [hwrote.of_near (Or.inl (by omega)) (by simp only; omega) (by omega)]
      exact update_self ..
    refine ⟨after, ?_, ?_, ?_, ?_⟩
    · rw [hwrite, List.length_cons, add_assoc, add_comm 1]
    · intro position hposition
      rw [hwrote.kept position]
      · apply update_of_ne
        exact hposition start (le_refl _) (by simp)
      · intro count hle hlt
        simp only [List.length_cons] at hposition hlt
        exact hposition count (by omega) (by omega)
    · intro count hle hlt
      rcases eq_or_lt_of_le hle with rfl | hgt
      · rw [hstart]
        exact hflags.1
      · simp only [List.length_cons] at hlt
        exact hwrote.handed count hgt (by simp only; omega)
    · intro index hindex
      cases index with
      | zero =>
        rw [add_zero, hstart]
        refine ⟨hid, hnext.trans ?_⟩
        simp only [List.isEmpty_iff, List.length_cons]
        rw [← List.length_eq_zero_iff]
        omega
      | succ index =>
        simp only [List.length_cons] at hindex ⊢
        have hat := hwrote.chainAt index (by simp only; omega)
        rw [add_assoc, add_comm 1 index] at hat
        simp only [add_right_cancel_iff] at hat ⊢
        exact hat

end Memory

/-! ### The machine -/

def packedStep : PackedRing × PackedDevice → Op →
    Except QueuePanic ((PackedRing × PackedDevice) × Answer)
  | (ring, device), .submit chain _ => do
    let (result, ring) ← ring.submit chain
    .ok ((ring, device), .submitted result)
  | (ring, device), .publish => .ok ((ring, device), .done)
  | (ring, device), .popUsed => do
    let (completion, ring) ← ring.popUsed
    .ok ((ring, device), .popped completion)
  | (ring, device), .fetch => .ok ((ring, device.fetch ring), .done)
  | (ring, device), .use index len flags =>
    match device.use ring index len flags with
    | none => .ok ((ring, device), .done)
    | some (id, device, ring) => .ok ((ring, device), .used id len)

/-- A device uses only what it has taken, and marks it with its own wrap counter. -/
def packedAllowed (state : PackedRing × PackedDevice) : Op → Prop
  | .use index _ flags =>
    index < state.2.taken.length ∧ PackedDevice.Conforms flags state.2.used.2
  | _ => True

/-- A packed ring of a size, with the features that were negotiated, and its device. -/
def packedMachine (size chainLimit : Nat) (features : Features) (tables : Nat) :
    RingMachine (PackedRing × PackedDevice) where
  start := (PackedRing.new size chainLimit features tables, PackedDevice.new)
  step := packedStep
  allowed := packedAllowed
  free := fun state => state.1.freeSlots

/-- A ring with the descriptors of a chain written, before the chain is recorded. -/
def PackedRing.writeBuffers (ring : PackedRing) (id : Nat) (chain : List ChainEntry) :
    Except QueuePanic ((Nat × Bool) × PackedRing) :=
  if ring.core.useIndirect chain.length then ring.writeIndirect id chain
  else do
    let (cursor, descriptors) ← writeChain ring.core.size id chain
      (ring.nextAvail, ring.availWrap) ring.descriptors
    .ok (cursor, { ring with descriptors })

theorem PackedRing.submit_eq {next : PackedRing} {chain : List ChainEntry} {cursor : Nat × Bool}
    (hcheck : ring.core.checkChain chain = .ok ()) (hroom : ¬ (ring.freeSlots <
      ring.core.descriptorsNeeded chain.length ∨ ring.core.ids.free = 0))
    (halloc : ring.core.ids.allocate = .ok (some (id, ids))) (hwrite : { ring with core := {
      ring.core with ids } }.writeBuffers id chain = .ok (cursor, next))
    (hid : id < next.core.size) (hinOrder : next.core.features.inOrder = false) :
  ring.submit chain =
    .ok (.ok id, { next with
      core := { next.core with
        numAdded := wrappingAdd next.core.numAdded (ring.core.descriptorsNeeded chain.length) }
      nextAvail := cursor.1
      availWrap := cursor.2
      slots := update next.slots id (ring.core.descriptorsNeeded chain.length)
      freeSlots := next.freeSlots - ring.core.descriptorsNeeded chain.length })
  := by
  rw [PackedRing.submit, hcheck]
  simp only [if_neg hroom, halloc, bind, Except.bind]
  rw [writeBuffers] at hwrite
  split_ifs at hwrite with hindirect
  · simp only [if_pos hindirect, hwrite, if_pos hid, recordChain, hinOrder]
    rfl
  · simp only [bind, Except.bind] at hwrite
    split at hwrite <;> cases hwrite
    simp only at hid hinOrder
    simp only [if_neg hindirect, if_pos hid, recordChain, hinOrder]
    rfl

theorem PackedRing.submit_error {ring' : PackedRing} {chain : List ChainEntry}
    {error : VirtqueueError} (h : ring.submit chain = .ok (.error error, ring')) :
  ring' = ring
  := by
  rw [PackedRing.submit] at h
  simp only [bind, Except.bind] at h
  repeat' split at h
  all_goals cases h
  all_goals rfl

section

variable (queue) (popped : Nat)

/-- The device's used cursor, its available cursor and the driver's, counted from the start. -/
def AbstractQueue.usedEnd : Nat :=
  popped + slotsOf (queue.used.map Prod.fst)

def AbstractQueue.takenEnd : Nat :=
  queue.usedEnd popped + slotsOf queue.taken

def AbstractQueue.readyEnd : Nat :=
  queue.takenEnd popped + slotsOf queue.ready

end

theorem AbstractQueue.ends_put (hwaiting : queue.waiting = []) (chain : Chain) (popped : Nat) :
  (queue.put chain true).ready = queue.ready ++ [chain] ∧ (queue.put chain true).waiting = [] ∧
    (queue.put chain true).usedEnd popped = queue.usedEnd popped ∧
    (queue.put chain true).takenEnd popped = queue.takenEnd popped ∧
    (queue.put chain true).readyEnd popped = queue.readyEnd popped + chain.cost
  := by
  have hready : (queue.put chain true).ready = queue.ready ++ [chain] := by
    simp [put, publish, hwaiting]
  refine ⟨hready, rfl, rfl, rfl, ?_⟩
  rw [readyEnd, hready, slotsOf, map_append, List.sum_append, readyEnd, add_assoc]
  rfl

theorem AbstractQueue.ends_use {queue : AbstractQueue} {chain : Chain} {index : Nat}
    (h : queue.taken[index]? = some chain) (len popped : Nat) {next : AbstractQueue}
    (hnext : next = { queue with
      taken := queue.taken.eraseIdx index
      used := queue.used ++ [(chain, len)] }) :
  next.usedEnd popped = queue.usedEnd popped + chain.cost ∧
    next.takenEnd popped = queue.takenEnd popped ∧ next.readyEnd popped = queue.readyEnd popped
  := by
  obtain ⟨hlt, rfl⟩ := List.getElem?_eq_some_iff.mp h
  have hcost := ((List.getElem_cons_eraseIdx_perm hlt).map Chain.cost).sum_eq
  rw [List.map_cons, List.sum_cons] at hcost
  simp only [readyEnd, takenEnd, usedEnd, slotsOf, hnext, map_append, List.sum_append,
    List.map_cons, map_nil, List.sum_cons, sum_nil]
  omega

/-- A chain that is taken moves the device's available cursor over its positions. -/
theorem AbstractQueue.ends_fetch {rest : List Chain} (h : queue.ready = chain :: rest)
    (popped : Nat) {next : AbstractQueue}
    (hnext : next = { queue with ready := rest, taken := queue.taken ++ [chain] }) :
  next.takenEnd popped = queue.takenEnd popped + chain.cost ∧
    next.readyEnd popped = queue.readyEnd popped
  := by
  simp only [readyEnd, takenEnd, usedEnd, slotsOf, hnext, h, map_append, List.sum_append,
    List.map_cons, map_nil, List.sum_cons, sum_nil]
  omega

/-- A chain that is popped moves the driver's used cursor over its positions. -/
theorem AbstractQueue.ends_pop {rest : List (Chain × Nat)} (h : queue.used = (chain, len) :: rest)
    (popped : Nat) {next : AbstractQueue} (hnext : next = { queue with used := rest }) :
  next.usedEnd (popped + chain.cost) = queue.usedEnd popped ∧
    next.takenEnd (popped + chain.cost) = queue.takenEnd popped ∧
    next.readyEnd (popped + chain.cost) = queue.readyEnd popped
  := by
  simp only [readyEnd, takenEnd, usedEnd, slotsOf, hnext, h, List.map_cons, List.sum_cons]
  omega

/-- A packed ring and its device hold the chains of a queue, after the positions of some
completions have been passed. -/
structure PackedShows (config : QueueConfig) (bits popped : Nat) (free : List Nat)
    (ring : PackedRing) (device : PackedDevice) (queue : AbstractQueue) : Prop where
  fits : ring.core.Fits config bits
  pool : ring.core.ids.Holds free
  parts : (free ++ queue.chains.map Chain.id).Perm (List.range (2 ^ bits))
  waiting : queue.waiting = []
  conserves : ring.freeSlots + queue.held = 2 ^ bits
  slots : ∀ chain ∈ queue.chains, ring.slots chain.id = chain.cost ∧ 0 < chain.cost
  nextAvail : (ring.nextAvail, ring.availWrap) = cursor (2 ^ bits) (queue.readyEnd popped)
  nextUsed : (ring.nextUsed, ring.usedWrap) = cursor (2 ^ bits) popped
  avail : device.avail = cursor (2 ^ bits) (queue.takenEnd popped)
  used : device.used = cursor (2 ^ bits) (queue.usedEnd popped)
  taken : device.taken = queue.taken.map fun chain => (chain.id, chain.cost)
  marks : Marks (2 ^ bits) ring.descriptors (queue.usedEnd popped) (queue.readyEnd popped)
  usedAt : UsedAt (2 ^ bits) ring.descriptors popped queue.used
  readyAt : ReadyAt (2 ^ bits) ring.descriptors (queue.takenEnd popped) queue.ready

namespace PackedShows

variable {config : QueueConfig} {bits popped : Nat} {free : List Nat} {ring : PackedRing}
  {device : PackedDevice} {queue : AbstractQueue}

section

variable (h : PackedShows config bits popped free ring device queue)
include h

/-- The positions that chains in flight take are those from the driver's used cursor to its
available cursor. -/
theorem readyEnd_eq :
  queue.readyEnd popped = popped + queue.held
  := by
  simp only [readyEnd, takenEnd, usedEnd, held, AbstractQueue.chains, slotsOf, h.waiting,
    nil_append, map_append, List.sum_append]
  omega

theorem distinct :
  (queue.chains.map Chain.id).Nodup
  := by
  have hnodup := h.parts.nodup_iff.mpr nodup_range
  exact hnodup.of_append_right

theorem bound (hchain : chain ∈ queue.chains) :
  chain.id < 2 ^ bits
  := by
  apply mem_range.mp
  apply h.parts.subset
  exact mem_append_right _ (mem_map_of_mem hchain)

theorem not_free (hid : id ∈ free) :
  id ∉ queue.chains.map Chain.id
  := by
  have hnodup := h.parts.nodup_iff.mpr nodup_range
  exact fun hmem => (disjoint_of_nodup_append hnodup) hid hmem

/-- Each chain takes a position, so there are as many identifiers as free positions. -/
theorem freeSlots_le :
  ring.freeSlots ≤ free.length
  := by
  have hcount := h.parts.length_eq
  rw [length_append, length_map, length_range] at hcount
  have hcosts : queue.chains.length ≤ queue.held := by
    have hle := length_le_sum_of_one_le (queue.chains.map Chain.cost)
      (forall_mem_map.mpr fun chain hchain => (h.slots chain hchain).2)
    rwa [length_map] at hle
  have hconserves := h.conserves
  omega

/-- The positions of the completions still to pop, then of the chains taken, are in order. -/
theorem ends_le :
  popped ≤ queue.usedEnd popped ∧ queue.usedEnd popped ≤ queue.takenEnd popped ∧
    queue.takenEnd popped ≤ queue.readyEnd popped ∧ queue.readyEnd popped ≤ popped + 2 ^ bits
  := by
  have hend := h.readyEnd_eq
  have hconserves := h.conserves
  rw [readyEnd] at hend ⊢
  rw [takenEnd] at hend ⊢
  rw [usedEnd] at hend ⊢
  omega

theorem fetch :
  ∃ queue', Step config queue .fetch .done queue' ∧
    PackedShows config bits popped free ring (device.fetch ring) queue'
  := by
  have hsize := Nat.two_pow_pos bits
  obtain ⟨hused, htaken, hle, hlap⟩ := h.ends_le
  cases hready : queue.ready with
  | nil =>
    have hend : queue.takenEnd popped = queue.readyEnd popped := by
      rw [readyEnd, hready]
      rfl
    have hstale := h.marks.stale_avail hsize (by omega)
    have hsame : device.fetch ring = device := by
      rw [PackedDevice.fetch, h.avail, hend, cursor, if_neg]
      rw [hstale.not_isAvailable]
      exact Bool.false_ne_true
    rw [hsame]
    exact ⟨queue, .fetchNone hready, h⟩
  | cons chain rest =>
    have hmem : chain ∈ queue.chains := by
      simp [AbstractQueue.chains, hready]
    have hpos := (h.slots chain hmem).2
    have hreadyAt := h.readyAt
    rw [hready] at hreadyAt
    obtain ⟨htakenEnd, hreadyEnd⟩ := ends_fetch hready popped rfl
    have htotal : queue.takenEnd popped + chain.cost ≤ queue.readyEnd popped := by
      rw [← hreadyEnd, readyEnd]
      omega
    have hhanded := h.marks.handed (queue.takenEnd popped) htaken (by omega)
    have hread : PackedDevice.readChain ring.descriptors ring.core.size ring.core.size device.avail =
        (chain.id, chain.cost) := by
      obtain ⟨cost, hcost⟩ : ∃ cost, chain.cost = cost + 1 := ⟨chain.cost - 1, by omega⟩
      have hat := hreadyAt.1
      rw [show chain = ⟨chain.id, cost + 1⟩ by rw [← hcost]] at hat
      rw [h.fits.size, h.avail, hcost]
      apply hat.readChain hsize
      omega
    have hfetch : device.fetch ring =
        { device with
          avail := cursor (2 ^ bits) (queue.takenEnd popped + chain.cost)
          taken := device.taken ++ [(chain.id, chain.cost)] } := by
      rw [PackedDevice.fetch, hread, h.avail, cursor, if_pos hhanded.isAvailable]
      simp only
      rw [h.fits.size, ← cursor, iterate_advance_cursor hsize]
    have hperm := chains_fetch hready
    refine ⟨_, .fetch hready, ?_⟩
    rw [hfetch]
    constructor
    · exact h.fits
    · exact h.pool
    · exact ((hperm.map _).append_left _).trans h.parts
    · exact h.waiting
    · rw [held, (hperm.map _).sum_eq]
      exact h.conserves
    · intro other hother
      exact h.slots other (hperm.subset hother)
    · rw [hreadyEnd]
      exact h.nextAvail
    · exact h.nextUsed
    · rw [htakenEnd]
    · exact h.used
    · simp only [h.taken, map_append]
      rfl
    · rw [hreadyEnd]
      exact h.marks
    · exact h.usedAt
    · rw [htakenEnd]
      exact hreadyAt.2

theorem used_pos :
  ∀ entry ∈ queue.used, 0 < entry.1.cost
  := by
  intro entry hentry
  apply (h.slots entry.1 _).2
  exact mem_append_right _ (mem_map_of_mem hentry)

theorem use {index len flags : Nat} (hindex : index < device.taken.length)
    (hflags : PackedDevice.Conforms flags device.used.2) :
  ∃ id device' ring' queue', device.use ring index len flags = some (id, device', ring') ∧
    Step config queue (.use index len flags) (.used id len) queue' ∧
    PackedShows config bits popped free ring' device' queue'
  := by
  have hsize := Nat.two_pow_pos bits
  obtain ⟨hused, htaken, hready, hlap⟩ := h.ends_le
  rw [h.taken, length_map] at hindex
  have hchain : queue.taken[index]? = some queue.taken[index] := List.getElem?_eq_getElem hindex
  generalize queue.taken[index] = chain at hchain
  have hmem : chain ∈ queue.chains := by
    have htakenMem := mem_of_getElem? hchain
    simp [AbstractQueue.chains, htakenMem]
  have hpos := (h.slots chain hmem).2
  have hentry : device.taken[index]? = some (chain.id, chain.cost) := by
    rw [h.taken, List.getElem?_map, hchain]
    rfl
  have hperm := @chains_use _ _ _ len hchain
  have hstep := @Step.use config _ _ _ len flags hchain
  obtain ⟨next, hnext⟩ : ∃ next : AbstractQueue, next = { queue with
      taken := queue.taken.eraseIdx index
      used := queue.used ++ [(chain, len)] } := ⟨_, rfl⟩
  obtain ⟨husedEnd, htakenEnd, hreadyEnd⟩ := ends_use hchain len popped hnext
  rw [← hnext] at hperm hstep
  have hstart : queue.usedEnd popped + chain.cost ≤ queue.takenEnd popped := by
    rw [← htakenEnd, takenEnd]
    omega
  have hposition : device.used.1 = queue.usedEnd popped % 2 ^ bits := by
    rw [h.used]
    rfl
  rw [h.used] at hflags
  refine ⟨chain.id, _, _, next, by rw [PackedDevice.use, hentry, hposition], hstep, ?_⟩
  generalize (ring.descriptors (queue.usedEnd popped % 2 ^ bits)).addr = addr
  have hmarks := @Marks.use _ _ _ _ chain.cost addr len chain.id flags h.marks hpos (by omega)
    (by omega) hflags
  constructor
  · exact h.fits
  · exact h.pool
  · exact ((hperm.map _).append_left _).trans h.parts
  · rw [hnext]
    exact h.waiting
  · rw [held, (hperm.map _).sum_eq]
    exact h.conserves
  · intro other hother
    exact h.slots other (hperm.subset hother)
  · rw [hreadyEnd]
    exact h.nextAvail
  · exact h.nextUsed
  · rw [htakenEnd]
    exact h.avail
  · rw [husedEnd, ← iterate_advance_cursor hsize, ← h.used, ← h.fits.size]
  · rw [h.taken, eraseIdx_map, hnext]
  · rw [husedEnd, hreadyEnd]
    exact hmarks
  · rw [hnext]
    apply UsedAt.concat
    · apply h.usedAt.congr h.used_pos
      intro count hle hlt
      rw [← usedEnd] at hlt
      exact update_of_near (by omega) (by omega) (by omega)
    · rw [← usedEnd]
      simp only [UsedAt, update_self, and_true, true_and]
      exact hflags
  · rw [htakenEnd, hnext]
    apply h.readyAt.congr
    intro count hle hlt
    rw [← readyEnd] at hlt
    exact update_of_near (by omega) (by omega) (by omega)

/-- The completion of a chain in flight is finished. -/
theorem finishCompletion (hchain : chain ∈ queue.chains) :
  ∃ ring', ring.finishCompletion chain.id = .ok ring' ∧ ring'.core.Fits config bits ∧
    ring'.core.ids.Holds (free ++ [chain.id]) ∧
    ring'.slots = update ring.slots chain.id 0 ∧
    ring'.freeSlots = ring.freeSlots + chain.cost ∧ ring'.descriptors = ring.descriptors ∧
    (ring'.nextAvail, ring'.availWrap) = (ring.nextAvail, ring.availWrap) ∧
    (ring'.nextUsed, ring'.usedWrap) = cursor (2 ^ bits) (popped + chain.cost)
  := by
  obtain ⟨hslots, hpos⟩ := h.slots chain hchain
  have hbound := h.bound hchain
  have hfresh : chain.id ∉ free := fun hfree => h.not_free hfree (mem_map_of_mem hchain)
  obtain ⟨ids, hrelease, hholds, hids⟩ := h.pool.release (h.fits.poolSize.symm ▸ hbound) hfresh
  rw [PackedRing.finishCompletion, h.fits.size, if_pos hbound, hslots]
  rw [if_neg (by omega), hrelease, h.nextUsed,
    iterate_advance_cursor (Nat.two_pow_pos bits)]
  refine ⟨_, rfl, ?_, hholds, rfl, rfl, rfl, rfl, rfl⟩
  exact h.fits.of_ids (hids.trans h.fits.poolSize)

theorem popUsed :
  ∃ completion ring' queue' popped' free', ring.popUsed = .ok (completion, ring') ∧
    Step config queue .popUsed (.popped completion) queue' ∧
    PackedShows config bits popped' free' ring' device queue'
  := by
  have hsize := Nat.two_pow_pos bits
  obtain ⟨hused, htaken, hready, hlap⟩ := h.ends_le
  obtain ⟨hposition, hwrap⟩ := Prod.mk.inj h.nextUsed
  have hinside : ring.nextUsed < ring.core.size := by
    rw [hposition, h.fits.size]
    exact mod_lt _ hsize
  rw [PackedRing.popUsed, h.fits.inOrder]
  rw [PackedRing.popUsedUnordered, if_pos hinside]
  simp only
  cases hqueue : queue.used with
  | nil =>
    have hnone : isUsed (ring.descriptors ring.nextUsed).flags ring.usedWrap = false := by
      have hsame : queue.usedEnd popped = popped := by
        rw [usedEnd, hqueue]
        rfl
      have hmarks := h.marks.not_isUsed hsize (by omega)
      rw [hsame] at hmarks
      rw [hposition, hwrap]
      exact hmarks
    rw [hnone]
    exact ⟨none, ring, queue, popped, free, rfl, .popNone hqueue, h⟩
  | cons entry rest =>
    obtain ⟨chain, len⟩ := entry
    have husedAt := h.usedAt
    rw [hqueue] at husedAt
    obtain ⟨⟨hid, hlen, hconforms⟩, hrest⟩ := husedAt
    rw [← hposition] at hid hlen hconforms
    have hmem : chain ∈ queue.chains := by
      simp [AbstractQueue.chains, hqueue]
    have hfound : isUsed (ring.descriptors ring.nextUsed).flags ring.usedWrap = true := by
      rw [hwrap]
      exact hconforms.isUsed
    obtain ⟨ring', hfinish, hfits, hholds, hslots, hfree, hmemory, havail, hnextUsed⟩ :=
      h.finishCompletion hmem
    have hperm := chains_pop hqueue
    have hstep := @Step.pop config _ _ _ _ hqueue
    obtain ⟨next, hnext⟩ : ∃ next : AbstractQueue, next = { queue with used := rest } := ⟨_, rfl⟩
    obtain ⟨husedEnd, htakenEnd, hreadyEnd⟩ := ends_pop hqueue popped hnext
    rw [← hnext] at hperm hstep
    have hheld : queue.held = chain.cost + next.held := (hperm.map Chain.cost).sum_eq
    have hconserves := h.conserves
    have hdistinct := (hperm.map Chain.id).nodup_iff.mp h.distinct
    rw [List.map_cons, nodup_cons] at hdistinct
    rw [hfound, hid, hlen, hfinish]
    refine ⟨_, ring', next, popped + chain.cost, free ++ [chain.id], rfl, hstep, ?_⟩
    constructor
    · exact hfits
    · exact hholds
    · rw [append_assoc]
      exact ((hperm.map Chain.id).symm.append_left free).trans h.parts
    · rw [hnext]
      exact h.waiting
    · omega
    · intro other hother
      have hne : other.id ≠ chain.id := by
        intro heq
        exact hdistinct.1 (heq ▸ mem_map_of_mem hother)
      rw [hslots, update_of_ne hne]
      exact h.slots other (hperm.symm.subset (mem_cons_of_mem _ hother))
    · rw [havail, hreadyEnd]
      exact h.nextAvail
    · exact hnextUsed
    · rw [htakenEnd]
      exact h.avail
    · rw [husedEnd]
      exact h.used
    · rw [hnext]
      exact h.taken
    · rw [hmemory, husedEnd, hreadyEnd]
      exact h.marks
    · rw [hmemory, hnext]
      exact hrest
    · rw [hmemory, htakenEnd, hnext]
      exact h.readyAt

/-- A chain that passes the checks is written, in the way it is written. -/
theorem exists_wrote {chain : List ChainEntry} (hcheck : ring.core.checkChain chain = .ok ())
    (hid : id < 2 ^ bits) (ids : IdPool) (hroom : config.needed chain.length ≤ 2 ^ bits) :
  ∃ descriptors tables,
    { ring with core := { ring.core with ids } }.writeBuffers id chain =
      .ok (cursor (2 ^ bits) (queue.readyEnd popped + config.needed chain.length),
        { ring with
          core := { ring.core with ids }
          descriptors
          tables }) ∧
    WroteChain (2 ^ bits) ring.descriptors descriptors (queue.readyEnd popped)
      ⟨id, config.needed chain.length⟩
  := by
  have hsize := Nat.two_pow_pos bits
  have hlimit := (checkChain_ok hcheck).2
  have hinside : ring.nextAvail < ring.core.size := by
    rw [(Prod.mk.inj h.nextAvail).1, h.fits.size]
    exact mod_lt _ hsize
  obtain ⟨hposition, hwrap⟩ := Prod.mk.inj h.nextAvail
  rw [← h.fits.needed_eq, descriptorsNeeded] at hroom ⊢
  rw [PackedRing.writeBuffers, useIndirect]
  rw [useIndirect] at hroom ⊢
  by_cases hindirect : (ring.core.indirect.isSome && decide (chain.length ≥ indirectMinChain)) = true
  · simp only [hindirect, if_true]
    rw [Bool.and_eq_true] at hindirect
    obtain ⟨addr, haddr⟩ := @tableAddr_ok { ring.core with ids } id chain
      hindirect.1 hlimit (h.fits.size ▸ hid)
    rw [PackedRing.writeIndirect, haddr]
    simp only [if_pos hinside, h.nextAvail]
    rw [h.fits.size, advance_cursor hsize]
    refine ⟨_, _, rfl, ?_, ?_, ?_⟩
    · intro position hother
      rw [hposition]
      apply update_of_ne
      exact hother _ (le_refl _) (by simp)
    · intro count hle hlt
      obtain rfl : count = queue.readyEnd popped := by
        simp only at hlt
        omega
      rw [hposition, update_self, hwrap]
      exact (handed_indirect _ _ _ _).1
    · intro index hindex
      obtain rfl : index = 0 := by
        simp only at hindex
        omega
      rw [hposition, hwrap]
      simp [(handed_indirect (lap (2 ^ bits) (queue.readyEnd popped)) 0 0 0).2]
  · simp only [hindirect] at hroom ⊢
    obtain ⟨after, hwrite, hwrote⟩ := @writeChain_wrote (2 ^ bits) ring.descriptors hsize id chain
      (queue.readyEnd popped) hroom
    rw [h.fits.size, h.nextAvail, hwrite]
    exact ⟨after, ring.tables, rfl, hwrote⟩

/-- A chain that was written and recorded is in the queue. -/
theorem put {cost : Nat} {rest : List Nat} (hfree : free = id :: rest) (hpos : 0 < cost)
    (hroom : cost ≤ ring.freeSlots) (hholds : ids.Holds rest) (hids : ids.size = 2 ^ bits)
    {descriptors : Nat → PackedDescriptor} {tables : Nat → Nat → PackedDescriptor} (hwrote :
      WroteChain (2 ^ bits) ring.descriptors descriptors (queue.readyEnd popped) ⟨id, cost⟩)
    (numAdded : Nat) :
  PackedShows config bits popped rest
    { ring with
      core := { ring.core with ids, numAdded }
      descriptors
      tables
      nextAvail := (cursor (2 ^ bits) (queue.readyEnd popped + cost)).1
      availWrap := (cursor (2 ^ bits) (queue.readyEnd popped + cost)).2
      slots := update ring.slots id cost
      freeSlots := ring.freeSlots - cost } device (queue.put ⟨id, cost⟩ true)
  := by
  obtain ⟨hused, htaken, hready, hlap⟩ := h.ends_le
  have hend := h.readyEnd_eq
  have hconserves := h.conserves
  have hperm := chains_put queue ⟨id, cost⟩ true
  obtain ⟨hputReady, hputWaiting, hputUsed, hputTaken, hputEnd⟩ :=
    ends_put h.waiting ⟨id, cost⟩ popped
  have hheld : (queue.put ⟨id, cost⟩ true).held = cost + queue.held := (hperm.map Chain.cost).sum_eq
  have hfresh : id ∉ queue.chains.map Chain.id := by
    apply h.not_free
    rw [hfree]
    exact mem_cons_self ..
  have hkept : ∀ count, popped ≤ count → count < queue.readyEnd popped →
      descriptors (count % 2 ^ bits) = ring.descriptors (count % 2 ^ bits) := by
    intro count hle hlt
    exact hwrote.of_near (Or.inl hlt) (by simp only; omega) (by omega)
  constructor
  · exact h.fits.of_ids hids
  · exact hholds
  · have hparts := h.parts
    rw [hfree] at hparts
    apply List.Perm.trans _ hparts
    apply ((hperm.map Chain.id).append_left rest).trans
    exact perm_middle
  · exact hputWaiting
  · simp only
    omega
  · intro chain hchain
    rcases mem_cons.mp (hperm.subset hchain) with rfl | hold
    · exact ⟨update_self .., hpos⟩
    · have hne : chain.id ≠ id := by
        rintro rfl
        exact hfresh (mem_map_of_mem hold)
      simp only [update_of_ne hne]
      exact h.slots chain hold
  · rw [hputEnd]
  · exact h.nextUsed
  · exact h.avail
  · exact h.used
  · exact h.taken
  · rw [hputEnd]
    apply h.marks.write hwrote (by omega)
    simp only
    omega
  · apply h.usedAt.congr h.used_pos
    intro count hle hlt
    rw [← usedEnd] at hlt
    exact hkept count hle (by omega)
  · rw [hputReady]
    apply ReadyAt.concat
    · apply h.readyAt.congr
      intro count hle
      exact hkept count (by omega)
    · exact hwrote.chainAt

theorem submit (chain : List ChainEntry) (publish : Bool) :
  ∃ result ring' queue' free', ring.submit chain = .ok (result, ring') ∧
    (∀ id, result = .ok id → id = ring.nextId) ∧
    Step config queue (.submit chain publish) (.submitted result) queue' ∧
    PackedShows config bits popped free' ring' device queue'
  := by
  have hrefusal := h.fits.refusal_eq h.conserves chain
  cases hcheck : ring.core.checkChain chain with
  | error error =>
    rw [hcheck] at hrefusal
    rw [PackedRing.submit, hcheck]
    exact ⟨.error error, ring, queue, free, rfl, by rintro _ ⟨⟩, .refused hrefusal, h⟩
  | ok _ =>
    rw [hcheck] at hrefusal
    have hneeded : 0 < config.needed chain.length := by
      have hpos := length_pos_iff.mpr (checkChain_ok hcheck).1
      rw [QueueConfig.needed]
      split
      · exact one_pos
      · exact hpos
    have hfreeSlots := h.freeSlots_le
    have hids := h.pool.free
    by_cases hroom : ring.freeSlots < config.needed chain.length
    · rw [if_pos hroom] at hrefusal
      rw [PackedRing.submit, hcheck]
      simp only [h.fits.needed_eq]
      rw [if_pos (Or.inl hroom)]
      exact ⟨.error _, ring, queue, free, rfl, by rintro _ ⟨⟩, .refused hrefusal, h⟩
    · rw [if_neg hroom] at hrefusal
      cases hfree : free with
      | nil =>
        rw [hfree, length_nil] at hfreeSlots
        omega
      | cons id rest =>
        have hfreeId : id ∈ free := by
          rw [hfree]
          exact mem_cons_self ..
        have hbound : id < 2 ^ bits := by
          rw [← h.fits.poolSize]
          exact h.pool.bound id hfreeId
        have hfresh := h.not_free hfreeId
        have hpool := h.pool
        rw [hfree] at hpool hids
        obtain ⟨ids, halloc, hholds, hidsSize⟩ := hpool.allocate
        have hconserves := h.conserves
        obtain ⟨descriptors, tables, hwrite, hwrote⟩ := h.exists_wrote hcheck hbound ids (by omega)
        have hsubmit := submit_eq hcheck
          (by rw [h.fits.needed_eq, hids, List.length_cons]; omega) halloc hwrite
          (h.fits.size ▸ hbound) h.fits.inOrder
        rw [h.fits.needed_eq] at hsubmit
        have haccept := @Step.accepted config queue chain publish id true hrefusal
          (h.fits.configSize ▸ hbound) hfresh
        rw [Bool.or_true] at haccept
        refine ⟨.ok id, _, _, rest, hsubmit, ?_, haccept, ?_⟩
        · rintro _ ⟨⟩
          rw [nextId, IdPool.peek, hpool.head]
          rfl
        · exact h.put hfree hneeded (by omega) hholds (hidsSize.trans h.fits.poolSize) hwrote _

end

end PackedShows

theorem packedMachine_simulation {bits chainLimit : Nat} {features : Features} (tables : Nat)
    (hbits : bits ≤ 15) (hinOrder : features.inOrder = false) :
  (packedMachine (2 ^ bits) chainLimit features tables).Simulation
    ⟨2 ^ bits, chainLimit, features.indirect && decide (chainLimit ≥ indirectMinChain)⟩
    (fun state queue => ∃ popped free, PackedShows
      ⟨2 ^ bits, chainLimit, features.indirect && decide (chainLimit ≥ indirectMinChain)⟩
      bits popped free state.1 state.2 queue)
  := by
  have hsize : 2 ^ bits ≤ 2 ^ 15 := Nat.pow_le_pow_right (by decide) hbits
  have hpos := Nat.two_pow_pos bits
  have hcursor : cursor (2 ^ bits) 0 = (0, true) := by
    rw [cursor, lap_of_lt hpos]
    rfl
  constructor
  · refine ⟨0, range (2 ^ bits), ?_⟩
    constructor
    · exact fits_new tables hbits hinOrder
    · exact IdPool.holds_new hpos hsize
    · simp [empty, AbstractQueue.chains]
    · rfl
    · rfl
    · rintro _ ⟨⟩
    · exact hcursor.symm
    · exact hcursor.symm
    · exact hcursor.symm
    · exact hcursor.symm
    · rfl
    · constructor
      · intro count hle hlt
        exact absurd hlt (not_lt_zero _)
      · intro count hle hlt
        have hlt : count < 2 ^ bits := by
          simpa [usedEnd, empty, slotsOf] using hlt
        rw [lap_of_lt hlt]
        simp [Stale, packedMachine, PackedRing.new]
    · trivial
    · trivial
  · rintro ⟨ring, device⟩ queue op ⟨popped, free, h⟩ hallowed
    cases op with
    | submit chain publish =>
      obtain ⟨result, ring', queue', free', heq, _, hstep, hshows⟩ := h.submit chain publish
      refine ⟨(ring', device), .submitted result, queue', ?_, hstep, popped, free', hshows⟩
      simp only [packedMachine, packedStep, heq, bind, Except.bind]
    | publish =>
      refine ⟨(ring, device), .done, queue.publish, rfl, .publish, popped, free, ?_⟩
      have hsame : queue.publish = queue := by
        rw [publish, h.waiting, append_nil, ← h.waiting]
      rw [hsame]
      exact h
    | popUsed =>
      obtain ⟨completion, ring', queue', popped', free', heq, hstep, hshows⟩ := h.popUsed
      refine ⟨(ring', device), .popped completion, queue', ?_, hstep, popped', free', hshows⟩
      simp only [packedMachine, packedStep, heq, bind, Except.bind]
    | fetch =>
      obtain ⟨queue', hstep, hshows⟩ := h.fetch
      exact ⟨_, _, queue', rfl, hstep, popped, free, hshows⟩
    | use index len flags =>
      obtain ⟨id, device', ring', queue', heq, hstep, hshows⟩ := h.use hallowed.1 hallowed.2
      refine ⟨(ring', device'), .used id len, queue', ?_, hstep, popped, free, hshows⟩
      simp only [packedMachine, packedStep, heq]
  · rintro ⟨ring, device⟩ queue ⟨popped, free, h⟩
    exact h.distinct
  · rintro ⟨ring, device⟩ queue ⟨popped, free, h⟩
    exact h.conserves
  · intro state
    trivial
  · rintro ⟨ring, device⟩ chain publish ⟨ring', device'⟩ error hstep
    obtain ⟨⟨result, ring''⟩, hsubmit, hstep⟩ := Transition.bind_eq_ok hstep
    cases hstep
    rw [submit_error hsubmit]

end Helios.Virtio
