import Helios.Virtio.SplitSimulation
import Helios.Virtio.PackedSimulation
import Helios.Virtio.InFlight
import Mathlib.Data.Finset.Basic

/-!
# What a virtqueue promises

Seen from the tasks that share it, a queue owes them the identifiers of the chains in flight and
the completions that are to be popped next.  A submission gets the identifier that was announced
as the next free one, and no chain in flight has it; a pop returns the next completion and gives
its identifier back; the device only adds completions.  Both layouts keep this.
-/

namespace Helios.Virtio

open PackedRing List

variable {queue next : AbstractQueue} {config : QueueConfig} {id : Nat} {pool : IdPool}

/-- The identifiers in flight, and the completions among them that the device has made. -/
@[ext]
structure Owed where
  flight : Finset Nat
  done : List (Nat × Nat)

namespace Owed

def put (owed : Owed) (id : Nat) : Owed := { owed with flight := insert id owed.flight }

def pop (owed : Owed) : Owed :=
  match owed.done with
  | [] => owed
  | (id, _) :: rest => ⟨owed.flight.erase id, rest⟩

end Owed

namespace VirtQueue

variable {Q : Type}

/-- A queue of at most `size` descriptors with a conforming device. -/
structure Conforms (virtQueue : VirtQueue Q) (size : Nat) (shows : Q → Owed → Prop) : Prop where
  start : shows virtQueue.start ⟨∅, []⟩
  done : ∀ queue owed, shows queue owed → ∀ entry ∈ owed.done, entry.1 ∈ owed.flight
  accepts : ∀ queue owed chain token queue', shows queue owed →
    virtQueue.submit queue chain = .ok (.ok token, queue') →
    token = virtQueue.nextFreeDescriptor queue ∧ token < size ∧ token ∉ owed.flight ∧
      shows queue' (owed.put token)
  refuses : ∀ queue chain error queue',
    virtQueue.submit queue chain = .ok (.error error, queue') → queue' = queue
  submits : ∀ queue owed chain, shows queue owed →
    ∃ result queue', virtQueue.submit queue chain = .ok (result, queue')
  pops : ∀ queue owed, shows queue owed →
    ∃ queue', virtQueue.popUsed queue = .ok (owed.done.head?, queue') ∧ shows queue' owed.pop
  notify : ∀ queue owed, shows queue owed → shows (virtQueue.notify queue).2 owed
  room : ∀ queue owed buffers, shows queue owed → virtQueue.hasRoomFor queue buffers →
    buffers ≠ 0 → virtQueue.nextFreeDescriptor queue < size
  device : ∀ queue owed step queue', shows queue owed → virtQueue.device queue step = some queue' →
    virtQueue.nextFreeDescriptor queue' = virtQueue.nextFreeDescriptor queue ∧
      ∃ more, shows queue' { owed with done := owed.done ++ more }

end VirtQueue

/-! ### Abstract queues -/

namespace AbstractQueue

def owed (queue : AbstractQueue) : Owed :=
  ⟨(queue.chains.map Chain.id).toFinset, queue.pending⟩

theorem mem_flight :
  id ∈ queue.owed.flight ↔ id ∈ queue.chains.map Chain.id
  := mem_toFinset

theorem flight_of_perm {queue' : AbstractQueue} (h : queue'.chains.Perm queue.chains) :
  queue'.owed.flight = queue.owed.flight
  := toFinset_eq_of_perm _ _ (h.map _)

theorem done_mem (queue : AbstractQueue) :
  ∀ entry ∈ queue.owed.done, entry.1 ∈ queue.owed.flight
  := by
  intro entry hentry
  obtain ⟨used, hused, rfl⟩ := mem_map.mp hentry
  apply mem_flight.mpr
  apply mem_map_of_mem
  exact mem_append_right _ (mem_map_of_mem hused)

theorem owed_put (queue : AbstractQueue) (chain : Chain) (visible : Bool) :
  (queue.put chain visible).owed = queue.owed.put chain.id
  := by
  have hflight : (queue.put chain visible).owed.flight = insert chain.id queue.owed.flight := by
    rw [owed, toFinset_eq_of_perm _ _ ((chains_put queue chain visible).map Chain.id),
      map_cons, toFinset_cons]
    rfl
  have hdone : (queue.put chain visible).owed.done = queue.owed.done := by
    rw [put]
    split <;> rfl
  exact Owed.ext hflight hdone

theorem owed_pop {chain : Chain} {len : Nat} {rest : List (Chain × Nat)}
    (hdistinct : (queue.chains.map Chain.id).Nodup) (h : queue.used = (chain, len) :: rest) :
  { queue with used := rest : AbstractQueue }.owed = queue.owed.pop
  := by
  have hperm := (chains_pop h).map Chain.id
  rw [map_cons] at hperm
  have hnodup := hperm.nodup_iff.mp hdistinct
  have hdone : queue.owed.done = (chain.id, len) :: rest.map fun entry => (entry.1.id, entry.2) := by
    simp only [owed, pending, h, map_cons]
  rw [Owed.pop, hdone]
  apply Owed.ext
  · simp only [owed, toFinset_eq_of_perm _ _ hperm, toFinset_cons]
    rw [Finset.erase_insert]
    exact mt mem_toFinset.mp (nodup_cons.mp hnodup).1
  · rfl

theorem Step.owed_device {op : Op} {answer : Answer} (h : Step config queue op answer next)
    (hop : op = .fetch ∨ ∃ index len flags, op = .use index len flags) :
  ∃ more, next.owed = { queue.owed with done := queue.owed.done ++ more }
  := by
  cases h with
  | refused | accepted | publish | popNone | pop => simp at hop
  | fetchNone =>
    use []
    rw [append_nil]
  | fetch hready =>
    use []
    apply Owed.ext
    · exact flight_of_perm (chains_fetch hready)
    · exact (append_nil _).symm
  | @use chain index len flags htaken =>
    use [(chain.id, len)]
    apply Owed.ext
    · exact flight_of_perm (chains_use htaken)
    · exact map_append

end AbstractQueue

/-! ### The announced identifier -/

theorem IdPool.Holds.peek_lt {ids : List Nat} (h : pool.Holds ids) (hfree : pool.free ≠ 0) :
  pool.peek < pool.size
  := by
  cases ids with
  | nil => exact absurd h.free hfree
  | cons id ids =>
    rw [peek, h.head]
    exact h.bound id mem_cons_self

theorem RingCore.descriptorsNeeded_pos (core : RingCore) {buffers : Nat} (h : buffers ≠ 0) :
  core.descriptorsNeeded buffers ≠ 0
  := by
  rw [descriptorsNeeded]
  split
  · exact Nat.one_ne_zero
  · exact h

/-! ### The two layouts -/

section

variable (size chainLimit : Nat) (features : Features) (tables : Nat)

def splitQueue : VirtQueue (SplitRing × SplitDevice) where
  start := (SplitRing.new size chainLimit features tables, SplitDevice.new)
  submit := fun (ring, device) chain => do
    let (result, ring) ← ring.submit chain true
    .ok (result, ring, device)
  popUsed := fun (ring, device) => do
    let (completion, ring) ← ring.popUsed
    .ok (completion, ring, device)
  notify := fun (ring, device) => (ring.shouldNotify, ring.clearAdded, device)
  hasRoomFor := fun (ring, _) buffers => ring.hasRoomFor buffers
  nextFreeDescriptor := fun (ring, _) => ring.nextId
  device := fun (ring, device) step =>
    match step with
    | .fetch => some (ring, device.fetch ring)
    | .use index len _ => (device.use ring index len).map fun (_, device, ring) => (ring, device)

/-- A queue on a packed ring, with its device, which marks what it uses with its wrap counter. -/
def packedQueue : VirtQueue (PackedRing × PackedDevice) where
  start := (new size chainLimit features tables, PackedDevice.new)
  submit := fun (ring, device) chain => do
    let (result, ring) ← ring.submit chain
    .ok (result, ring, device)
  popUsed := fun (ring, device) => do
    let (completion, ring) ← ring.popUsed
    .ok (completion, ring, device)
  notify := fun (ring, device) => (ring.shouldNotify, ring.clearAdded, device)
  hasRoomFor := fun (ring, _) buffers => ring.hasRoomFor buffers
  nextFreeDescriptor := fun (ring, _) => ring.nextId
  device := fun (ring, device) step =>
    match step with
    | .fetch => some (ring, device.fetch ring)
    | .use index len flags =>
      if PackedDevice.Conforms flags device.used.2 then
        (device.use ring index len flags).map fun (_, device, ring) => (ring, device)
      else none

end

/-- The completion that a step of the queue pops is the next that is owed. -/
theorem AbstractQueue.Step.owed_popUsed {completion : Option (Nat × Nat)}
    (h : Step config queue .popUsed (.popped completion) next)
    (hdistinct : (queue.chains.map Chain.id).Nodup) :
  completion = queue.owed.done.head? ∧ next.owed = queue.owed.pop
  := by
  cases h with
  | popNone hused =>
    have hdone : queue.owed.done = [] := by
      rw [owed, AbstractQueue.pending, hused, map_nil]
    rw [Owed.pop, hdone]
    exact ⟨rfl, rfl⟩
  | pop hused =>
    rw [← owed_pop hdistinct hused]
    simp only [owed, AbstractQueue.pending, hused, map_cons, List.head?_cons, and_self]

section

variable {bits chainLimit popped : Nat} {features : Features} {free : List Nat}

def splitShows (bits chainLimit : Nat) (features : Features) (state : SplitRing × SplitDevice)
    (owed : Owed) : Prop :=
  ∃ queue popped free cells, SplitShows
    ⟨2 ^ bits, chainLimit, features.indirect && decide (chainLimit ≥ indirectMinChain)⟩
    bits popped free cells state.1 state.2 queue ∧ owed = queue.owed

theorem SplitRing.clearAdded_shows {cells : Nat → List Nat} {ring : SplitRing}
    {device : SplitDevice} (h : SplitShows config bits popped free cells ring device queue) :
  SplitShows config bits popped free cells ring.clearAdded device queue
  := { h with fits := h.fits.of_ids h.fits.poolSize }

theorem splitQueue_conforms (tables : Nat) (hbits : bits ≤ 15)
    (hinOrder : features.inOrder = false) :
  (splitQueue (2 ^ bits) chainLimit features tables).Conforms (2 ^ bits)
    (splitShows bits chainLimit features)
  := by
  have hstart := (@splitMachine_simulation bits chainLimit features tables hbits hinOrder).start
  constructor
  · obtain ⟨popped, free, cells, h⟩ := hstart
    exact ⟨.empty, popped, free, cells, h, rfl⟩
  · rintro ⟨ring, device⟩ owed ⟨queue, popped, free, cells, h, rfl⟩
    exact queue.done_mem
  · rintro ⟨ring, device⟩ owed chain token state' ⟨queue, popped, free, cells, h, rfl⟩ hsubmit
    obtain ⟨result, ring', queue', free', cells', heq, hnext, hstep, hshows⟩ := h.submit chain true
    simp only [splitQueue, heq] at hsubmit
    cases hsubmit
    cases hstep with
    | accepted early hrefusal hbound hfresh =>
      refine ⟨hnext _ rfl, hbound, ?_, _, popped, free', cells', hshows, ?_⟩
      · rw [AbstractQueue.mem_flight]
        exact hfresh
      · rw [AbstractQueue.owed_put]
  · rintro ⟨ring, device⟩ chain error ⟨ring', device'⟩ hsubmit
    obtain ⟨⟨result, ring''⟩, heq, hsubmit⟩ := Transition.bind_eq_ok hsubmit
    cases hsubmit
    rw [SplitRing.submit_error heq]
  · rintro ⟨ring, device⟩ owed chain ⟨queue, popped, free, cells, h, rfl⟩
    obtain ⟨result, ring', queue', free', cells', heq, _⟩ := h.submit chain true
    refine ⟨result, (ring', device), ?_⟩
    simp only [splitQueue, heq, bind, Except.bind]
  · rintro ⟨ring, device⟩ owed ⟨queue, popped, free, cells, h, rfl⟩
    obtain ⟨completion, ring', queue', popped', free', heq, hstep, hshows⟩ := h.popUsed
    obtain ⟨rfl, howed⟩ := hstep.owed_popUsed h.linked.distinct
    refine ⟨(ring', device), ?_, queue', popped', free', cells, hshows, howed.symm⟩
    simp only [splitQueue, heq, bind, Except.bind]
  · rintro ⟨ring, device⟩ owed ⟨queue, popped, free, cells, h, rfl⟩
    exact ⟨queue, popped, free, cells, SplitRing.clearAdded_shows h, rfl⟩
  · rintro ⟨ring, device⟩ owed buffers ⟨queue, popped, free, cells, h, rfl⟩ hroom hbuffers
    have hneeded := ring.core.descriptorsNeeded_pos hbuffers
    simp only [splitQueue, SplitRing.hasRoomFor, decide_eq_true_eq] at hroom
    have hfree : ring.core.ids.free ≠ 0 := by omega
    have hlt := h.pool.peek_lt hfree
    rw [h.fits.poolSize] at hlt
    exact hlt
  · rintro ⟨ring, device⟩ owed step state' ⟨queue, popped, free, cells, h, rfl⟩ hdevice
    cases step with
    | fetch =>
      cases hdevice
      obtain ⟨queue', hstep, hshows⟩ := h.fetch
      obtain ⟨more, howed⟩ := hstep.owed_device (Or.inl rfl)
      exact ⟨rfl, more, queue', popped, free, cells, hshows, howed.symm⟩
    | use index len flags =>
      simp only [splitQueue, Option.map_eq_some_iff] at hdevice
      obtain ⟨⟨id, device', ring'⟩, huse, rfl⟩ := hdevice
      have hsame : index < device.taken.length ∧ ring'.nextId = ring.nextId := by
        rw [SplitDevice.use] at huse
        split at huse <;> cases huse
        rename_i hget
        exact ⟨(List.getElem?_eq_some_iff.mp hget).1, rfl⟩
      obtain ⟨id', device'', ring'', queue', heq, hstep, hshows⟩ := h.use len flags hsame.1
      cases huse.symm.trans heq
      obtain ⟨more, howed⟩ := hstep.owed_device (Or.inr ⟨index, len, flags, rfl⟩)
      exact ⟨hsame.2, more, queue', popped, free, cells, hshows, howed.symm⟩

def packedShows (bits chainLimit : Nat) (features : Features) (state : PackedRing × PackedDevice)
    (owed : Owed) : Prop :=
  ∃ queue popped free, PackedShows
    ⟨2 ^ bits, chainLimit, features.indirect && decide (chainLimit ≥ indirectMinChain)⟩
    bits popped free state.1 state.2 queue ∧ owed = queue.owed

theorem PackedRing.clearAdded_shows {ring : PackedRing} {device : PackedDevice}
    (h : PackedShows config bits popped free ring device queue) :
  PackedShows config bits popped free ring.clearAdded device queue
  := { h with fits := h.fits.of_ids h.fits.poolSize }

theorem packedQueue_conforms (tables : Nat) (hbits : bits ≤ 15)
    (hinOrder : features.inOrder = false) :
  (packedQueue (2 ^ bits) chainLimit features tables).Conforms (2 ^ bits)
    (packedShows bits chainLimit features)
  := by
  have hstart := (@packedMachine_simulation bits chainLimit features tables hbits hinOrder).start
  constructor
  · obtain ⟨popped, free, h⟩ := hstart
    exact ⟨.empty, popped, free, h, rfl⟩
  · rintro ⟨ring, device⟩ owed ⟨queue, popped, free, h, rfl⟩
    exact queue.done_mem
  · rintro ⟨ring, device⟩ owed chain token state' ⟨queue, popped, free, h, rfl⟩ hsubmit
    obtain ⟨result, ring', queue', free', heq, hnext, hstep, hshows⟩ := h.submit chain true
    simp only [packedQueue, heq] at hsubmit
    cases hsubmit
    cases hstep with
    | accepted early hrefusal hbound hfresh =>
      refine ⟨hnext _ rfl, hbound, ?_, _, popped, free', hshows, ?_⟩
      · rw [AbstractQueue.mem_flight]
        exact hfresh
      · rw [AbstractQueue.owed_put]
  · rintro ⟨ring, device⟩ chain error ⟨ring', device'⟩ hsubmit
    obtain ⟨⟨result, ring''⟩, heq, hsubmit⟩ := Transition.bind_eq_ok hsubmit
    cases hsubmit
    rw [submit_error heq]
  · rintro ⟨ring, device⟩ owed chain ⟨queue, popped, free, h, rfl⟩
    obtain ⟨result, ring', queue', free', heq, _⟩ := h.submit chain true
    refine ⟨result, (ring', device), ?_⟩
    simp only [packedQueue, heq, bind, Except.bind]
  · rintro ⟨ring, device⟩ owed ⟨queue, popped, free, h, rfl⟩
    obtain ⟨completion, ring', queue', popped', free', heq, hstep, hshows⟩ := h.popUsed
    obtain ⟨rfl, howed⟩ := hstep.owed_popUsed h.distinct
    refine ⟨(ring', device), ?_, queue', popped', free', hshows, howed.symm⟩
    simp only [packedQueue, heq, bind, Except.bind]
  · rintro ⟨ring, device⟩ owed ⟨queue, popped, free, h, rfl⟩
    exact ⟨queue, popped, free, clearAdded_shows h, rfl⟩
  · rintro ⟨ring, device⟩ owed buffers ⟨queue, popped, free, h, rfl⟩ hroom _
    simp only [packedQueue, hasRoomFor, Bool.and_eq_true, bne_iff_ne] at hroom
    have hlt := h.pool.peek_lt hroom.2
    rw [h.fits.poolSize] at hlt
    exact hlt
  · rintro ⟨ring, device⟩ owed step state' ⟨queue, popped, free, h, rfl⟩ hdevice
    cases step with
    | fetch =>
      cases hdevice
      obtain ⟨queue', hstep, hshows⟩ := h.fetch
      obtain ⟨more, howed⟩ := hstep.owed_device (Or.inl rfl)
      exact ⟨rfl, more, queue', popped, free, hshows, howed.symm⟩
    | use index len flags =>
      simp only [packedQueue] at hdevice
      split at hdevice
      · rename_i hflags
        simp only [Option.map_eq_some_iff] at hdevice
        obtain ⟨⟨id, device', ring'⟩, huse, rfl⟩ := hdevice
        have hsame : index < device.taken.length ∧ ring'.nextId = ring.nextId := by
          rw [PackedDevice.use] at huse
          split at huse <;> cases huse
          rename_i hget
          exact ⟨(List.getElem?_eq_some_iff.mp hget).1, rfl⟩
        obtain ⟨id', device'', ring'', queue', heq, hstep, hshows⟩ :=
          @PackedShows.use _ _ _ _ _ _ _ h index len flags hsame.1 hflags
        cases huse.symm.trans heq
        obtain ⟨more, howed⟩ := hstep.owed_device (Or.inr ⟨index, len, flags, rfl⟩)
        exact ⟨hsame.2, more, queue', popped, free, hshows, howed.symm⟩
      · cases hdevice

end

end Helios.Virtio
