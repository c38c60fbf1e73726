import Helios.Virtio.SplitRing
import Helios.Virtio.IdPool
import Helios.Virtio.AbstractQueue
import Helios.Library.RingIndex

/-!
# The split ring implements the queue

The two rings hold the chains of the queue at the positions of their counts, and the
descriptors of every chain in flight are linked in the shadow of the table.  The free
identifiers and the descriptors of the chains make up the table.
-/

namespace Helios.Virtio

open Function RingCore List AbstractQueue Nat

variable {next : SplitRing} {head : Nat}

variable {chain : List ChainEntry} {ring : SplitRing}

namespace SplitRing

variable {ids free : List Nat} {table : Nat → Descriptor}

variable {id : Nat}

/-- The descriptor that another is linked to, if there is one. -/
def follow (table : Nat → Descriptor) (id : Nat) : Option Nat :=
  if (table id).flags &&& descFlagNext = 0 then none else some (table id).next

theorem entryFlags_next (writable hasNext : Bool) :
  entryFlags writable hasNext &&& descFlagNext = if hasNext then 1 else 0
  := by
  cases writable <;> cases hasNext <;> rfl

/-! ### Writing a chain -/

theorem linkChain_of_not_mem (h : id ∉ ids) :
  linkChain ids chain table id = table id
  := by
  induction ids generalizing chain table with
  | nil => cases chain <;> rfl
  | cons first ids ih =>
    rw [mem_cons, not_or] at h
    cases chain with
    | nil => rfl
    | cons entry chain => rw [linkChain, ih h.2, update_of_ne h.1]

theorem linkChain_threads (hlength : ids.length = chain.length) (hnodup : ids.Nodup) :
  Threads (follow (linkChain ids chain table)) ids
  := by
  induction ids generalizing chain table with
  | nil => exact trivial
  | cons id ids ih =>
    cases chain with
    | nil => cases hlength
    | cons entry chain =>
      rw [nodup_cons] at hnodup
      rw [length_cons, length_cons, add_right_cancel_iff] at hlength
      rw [linkChain]
      refine ⟨?_, ih hlength hnodup.2⟩
      rw [follow, linkChain_of_not_mem hnodup.1, update_self]
      simp only [entryFlags_next]
      cases ids with
      | nil =>
        rw [length_eq_zero_iff.mp hlength.symm]
        rfl
      | cons next ids =>
        cases chain with
        | nil => cases hlength
        | cons entry' chain => rfl

/-- What writing a chain does: identifiers go from the pool to the chain, which is linked, and
everything else that the simulation looks at stays. -/
structure Wrote (ring : SplitRing) (free : List Nat) (needed head : Nat) (next : SplitRing)
    (ids rest : List Nat) : Prop where
  split : free = ids ++ rest
  length : ids.length = needed
  head : ids.head? = some head
  pool : next.core.ids.Holds rest
  core : next.core = { ring.core with ids := next.core.ids }
  poolSize : next.core.ids.size = ring.core.ids.size
  threads : Threads (follow next.descShadow) ids
  shadow : ∀ id, id ∉ ids → next.descShadow id = ring.descShadow id
  availRing : next.availRing = ring.availRing
  availIndex : next.availIndex = ring.availIndex
  availIdx : next.availIdx = ring.availIdx
  usedRing : next.usedRing = ring.usedRing
  usedIndex : next.usedIndex = ring.usedIndex
  lastUsedIdx : next.lastUsedIdx = ring.lastUsedIdx

theorem writeLinkedChain_wrote (hpool : ring.core.ids.Holds free) (hchain : chain ≠ [])
    (hroom : chain.length ≤ free.length) :
  ∃ head next ids rest, ring.writeLinkedChain chain = .ok (head, next) ∧
    ring.Wrote free chain.length head next ids rest
  := by
  have hsplit : free = free.take chain.length ++ free.drop chain.length :=
    (take_append_drop _ _).symm
  have hlength : (free.take chain.length).length = chain.length := by
    rw [length_take]
    omega
  have hnodup : (free.take chain.length).Nodup := hpool.nodup.sublist (take_sublist _ _)
  generalize free.take chain.length = ids at hsplit hlength hnodup
  generalize free.drop chain.length = rest at hsplit
  subst hsplit
  obtain ⟨pool, halloc, hrest, hsize⟩ := hpool.allocateMany
  rw [hlength] at halloc
  have hhead : ids.head? = some (ids.headD 0) := by
    cases ids with
    | nil => exact absurd (length_eq_zero_iff.mp hlength.symm) hchain
    | cons id ids => rfl
  rw [writeLinkedChain, halloc]
  refine ⟨_, _, ids, rest, rfl, ?_⟩
  exact {
    split := rfl
    length := hlength
    head := hhead
    pool := hrest
    core := rfl
    poolSize := hsize
    threads := linkChain_threads hlength hnodup
    shadow := fun id hid => linkChain_of_not_mem hid
    availRing := rfl
    availIndex := rfl
    availIdx := rfl
    usedRing := rfl
    usedIndex := rfl
    lastUsedIdx := rfl }

theorem writeIndirectChain_wrote (hpool : ring.core.ids.Holds free)
    (hsize : ring.core.ids.size = ring.core.size) (htables : ring.core.indirect.isSome)
    (hlimit : chain.length ≤ ring.core.chainLimit) (hroom : 1 ≤ free.length) :
  ∃ head next ids rest, ring.writeIndirectChain chain = .ok (head, next) ∧
    ring.Wrote free 1 head next ids rest
  := by
  cases free with
  | nil => cases hroom
  | cons head rest =>
    obtain ⟨pool, halloc, hrest, hpoolSize⟩ := hpool.allocate
    have hhead := hpool.bound head (mem_cons_self ..)
    rw [hsize] at hhead
    obtain ⟨addr, haddr⟩ := tableAddr_ok htables hlimit hhead
    rw [writeIndirectChain, halloc]
    simp only [bind, Except.bind, haddr]
    refine ⟨_, _, [head], rest, rfl, ?_⟩
    exact {
      split := rfl
      length := rfl
      head := rfl
      pool := hrest
      core := rfl
      poolSize := hpoolSize
      threads := by
        refine ⟨?_, trivial⟩
        rw [follow]
        simp [descFlagIndirect, descFlagNext]
      shadow := fun id hid => update_of_ne (by simpa using hid) _ _
      availRing := rfl
      availIndex := rfl
      availIdx := rfl
      usedRing := rfl
      usedIndex := rfl
      lastUsedIdx := rfl }

/-! ### The descriptors of the chains in flight -/

/-- The free identifiers and the descriptors of each chain, which are linked from its head on,
make up the table. -/
structure Cells (size : Nat) (shadow : Nat → Descriptor) (free : List Nat) (chains : List Chain)
    (cells : Nat → List Nat) : Prop where
  parts : (free ++ (chains.map Chain.id).flatMap cells).Perm (List.range size)
  head : ∀ chain ∈ chains, (cells chain.id).head? = some chain.id
  length : ∀ chain ∈ chains, (cells chain.id).length = chain.cost
  threads : ∀ chain ∈ chains, Threads (follow shadow) (cells chain.id)

namespace Cells

variable {size : Nat} {shadow : Nat → Descriptor} {free : List Nat} {chains : List Chain}
variable {cells : Nat → List Nat}

section

variable (h : Cells size shadow free chains cells)
include h

theorem perm {chains' : List Chain} (hperm : chains'.Perm chains) :
  Cells size shadow free chains' cells
  := by
  constructor
  · apply List.Perm.trans _ h.parts
    exact ((hperm.map _).flatMap_right _).append_left _
  · intro chain hchain
    exact h.head chain (hperm.mem_iff.mp hchain)
  · intro chain hchain
    exact h.length chain (hperm.mem_iff.mp hchain)
  · intro chain hchain
    exact h.threads chain (hperm.mem_iff.mp hchain)

theorem nodup :
  (free ++ (chains.map Chain.id).flatMap cells).Nodup
  := h.parts.nodup_iff.mpr nodup_range

theorem mem_cells {chain : Chain} (hchain : chain ∈ chains) :
  chain.id ∈ cells chain.id
  := mem_of_mem_head? (h.head chain hchain)

/-- The identifiers of chains in flight are distinct. -/
theorem distinct :
  (chains.map Chain.id).Nodup
  := by
  have hflat := h.nodup.of_append_right
  rw [nodup_flatMap] at hflat
  have hmem : ∀ id ∈ chains.map Chain.id, id ∈ cells id := by
    intro id hid
    obtain ⟨chain, hchain, rfl⟩ := mem_map.mp hid
    exact h.mem_cells hchain
  apply hflat.2.imp_of_mem
  intro a b ha hb hdisjoint heq
  subst heq
  exact hdisjoint (hmem a ha) (hmem a hb)

theorem nodup_cells {chain : Chain} (hchain : chain ∈ chains) :
  (cells chain.id).Nodup
  := by
  have hflat := h.nodup.of_append_right
  rw [nodup_flatMap] at hflat
  exact hflat.1 chain.id (mem_map_of_mem hchain)

theorem bound {chain : Chain} (hchain : chain ∈ chains) (hid : id ∈ cells chain.id) :
  id < size ∧ id ∉ free
  := by
  have hflat : id ∈ (chains.map Chain.id).flatMap cells :=
    mem_flatMap.mpr ⟨chain.id, mem_map_of_mem hchain, hid⟩
  constructor
  · exact mem_range.mp (h.parts.mem_iff.mp (mem_append_right _ hflat))
  · intro hfree
    exact (nodup_append.mp h.nodup).2.2 _ hfree _ hflat rfl

theorem not_free (hid : id ∈ free) :
  id ∉ chains.map Chain.id
  := by
  intro hmem
  obtain ⟨chain, hchain, rfl⟩ := mem_map.mp hmem
  exact (h.bound hchain (h.mem_cells hchain)).2 hid

/-- The free descriptors and those that chains hold make up the ring. -/
theorem conserves :
  free.length + (chains.map Chain.cost).sum = size
  := by
  have hlength := h.parts.length_eq
  rw [length_append, length_range, length_flatMap, map_map] at hlength
  have hsame : chains.map (List.length ∘ cells ∘ Chain.id) = chains.map Chain.cost := by
    apply map_congr_left
    exact h.length
  have hsum : (chains.map ((fun id => (cells id).length) ∘ Chain.id)).sum =
      (chains.map Chain.cost).sum := congrArg sum hsame
  rw [← hsum]
  exact hlength

theorem length_le :
  chains.length ≤ (chains.map Chain.cost).sum
  := by
  have hle := length_le_sum_of_one_le (chains.map Chain.cost) (by
    rw [forall_mem_map]
    intro chain hchain
    rw [← h.length chain hchain]
    exact length_pos_of_mem (h.mem_cells hchain))
  rwa [length_map] at hle

end

/-- Identifiers that were free become the descriptors of a new chain. -/
theorem grant {ids rest : List Nat} {head : Nat} {shadow' : Nat → Descriptor}
    (h : Cells size shadow (ids ++ rest) chains cells) (hhead : ids.head? = some head)
    (hthreads : Threads (follow shadow') ids) (hshadow : ∀ id, id ∉ ids → shadow' id = shadow id) :
  Cells size shadow' rest (⟨head, ids.length⟩ :: chains) (update cells head ids)
  := by
  have hmem : head ∈ ids := mem_of_mem_head? hhead
  have hnew : head ∉ chains.map Chain.id := h.not_free (mem_append_left _ hmem)
  have hsame : ∀ chain ∈ chains, update cells head ids chain.id = cells chain.id := by
    intro chain hchain
    apply update_of_ne
    rintro rfl
    exact hnew (mem_map_of_mem hchain)
  constructor
  · have hrest : (chains.map Chain.id).flatMap (update cells head ids) =
        (chains.map Chain.id).flatMap cells := by
      apply flatMap_congr
      intro id hid
      obtain ⟨chain, hchain, rfl⟩ := mem_map.mp hid
      exact hsame chain hchain
    rw [map_cons, flatMap_cons, hrest]
    simp only [update_self]
    apply List.Perm.trans _ h.parts
    rw [← append_assoc]
    exact perm_append_comm.append_right _
  · rw [forall_mem_cons]
    refine ⟨by simpa using hhead, ?_⟩
    intro chain hchain
    rw [hsame chain hchain]
    exact h.head chain hchain
  · rw [forall_mem_cons]
    refine ⟨by simp, ?_⟩
    intro chain hchain
    rw [hsame chain hchain]
    exact h.length chain hchain
  · rw [forall_mem_cons]
    refine ⟨by simpa using hthreads, ?_⟩
    intro chain hchain
    rw [hsame chain hchain]
    apply (h.threads chain hchain).congr
    intro id hid
    have hout : id ∉ ids := fun hin => (h.bound hchain hid).2 (mem_append_left _ hin)
    rw [follow, follow, hshadow id hout]

/-- The descriptors of a chain become free. -/
theorem release {chain : Chain} (h : Cells size shadow free (chain :: chains) cells) :
  Cells size shadow (free ++ cells chain.id) chains cells
  := by
  constructor
  · have hparts := h.parts
    rw [map_cons, flatMap_cons, ← append_assoc] at hparts
    exact hparts
  · exact (forall_mem_cons.mp h.head).2
  · exact (forall_mem_cons.mp h.length).2
  · exact (forall_mem_cons.mp h.threads).2

end Cells

theorem releaseChain_ok {ring : SplitRing} {free ids : List Nat} {cursor fuel : Nat}
    (hpool : ring.core.ids.Holds free) (hsize : ring.core.ids.size = ring.core.size)
    (hthreads : Threads (follow ring.descShadow) ids) (hhead : ids.head? = some cursor)
    (hfuel : ids.length ≤ fuel) (hbound : ∀ id ∈ ids, id < ring.core.size ∧ id ∉ free)
    (hnodup : ids.Nodup) :
  ∃ pool, ring.releaseChain fuel cursor = .ok { ring with core := { ring.core with ids := pool } } ∧
    pool.Holds (free ++ ids) ∧ pool.size = ring.core.size
  := by
  induction ids generalizing ring free cursor fuel with
  | nil => cases hhead
  | cons id ids ih =>
    cases hhead
    rw [forall_mem_cons] at hbound
    rw [nodup_cons] at hnodup
    cases fuel with
    | zero => cases hfuel
    | succ fuel =>
      obtain ⟨pool, hrelease, hholds, hpoolSize⟩ :=
        hpool.release (by rw [hsize]; exact hbound.1.1) hbound.1.2
      rw [releaseChain, if_pos hbound.1.1, hrelease]
      simp only [bind, Except.bind]
      have hfollow := hthreads.1
      rw [follow] at hfollow
      split at hfollow
      · rename_i hlast
        have hnil : ids = [] := head?_eq_none_iff.mp hfollow.symm
        subst hnil
        rw [if_pos hlast]
        exact ⟨pool, rfl, hholds, hpoolSize.trans hsize⟩
      · rename_i hnext
        rw [if_neg hnext]
        obtain ⟨pool', heq, hholds', hpoolSize'⟩ := @ih
          { ring with core := { ring.core with ids := pool } } (free ++ [id]) (ring.descShadow id).next
          fuel hholds (hpoolSize.trans hsize) hthreads.2 hfollow.symm
          (by rw [length_cons] at hfuel; omega)
          (by
            intro other hother
            refine ⟨(hbound.2 other hother).1, ?_⟩
            rw [mem_append, mem_singleton, not_or]
            refine ⟨(hbound.2 other hother).2, ?_⟩
            rintro rfl
            exact hnodup.1 hother)
          hnodup.2
        refine ⟨pool', heq, ?_, hpoolSize'⟩
        rw [append_assoc] at hholds'
        exact hholds'

end SplitRing

/-! ### The ring with its device -/

def splitStep : SplitRing × SplitDevice → Op →
    Except QueuePanic ((SplitRing × SplitDevice) × Answer)
  | (ring, device), .submit chain publish => do
    let (result, ring) ← ring.submit chain publish
    .ok ((ring, device), .submitted result)
  | (ring, device), .publish => .ok ((ring.publish, device), .done)
  | (ring, device), .popUsed => do
    let (completion, ring) ← ring.popUsed
    .ok ((ring, device), .popped completion)
  | (ring, device), .fetch => .ok ((ring, device.fetch ring), .done)
  | (ring, device), .use index len _ =>
    match device.use ring index len with
    | none => .ok ((ring, device), .done)
    | some (id, device, ring) => .ok ((ring, device), .used id len)

def splitAllowed (state : SplitRing × SplitDevice) : Op → Prop
  | .use index _ _ => index < state.2.taken.length
  | _ => True

/-- A split ring of a size, with the features that were negotiated, and its device. -/
def splitMachine (size chainLimit : Nat) (features : Features) (tables : Nat) :
    RingMachine (SplitRing × SplitDevice) where
  start := (SplitRing.new size chainLimit features tables, SplitDevice.new)
  step := splitStep
  allowed := splitAllowed
  free := fun state => state.1.core.ids.free

/-- How many chains the device has taken since the start. -/
def AbstractQueue.fetched (queue : AbstractQueue) (popped : Nat) : Nat :=
  popped + queue.used.length + queue.taken.length

def SplitRing.putAvailable (ring : SplitRing) (head : Nat) : SplitRing :=
  { ring with
    core := { ring.core with numAdded := wrappingAdd ring.core.numAdded 1 }
    availRing := update ring.availRing (ring.availIdx &&& (ring.core.size - 1)) head
    availIdx := wrappingAdd ring.availIdx 1 }

theorem SplitRing.submit_eq {publish : Bool} (hcheck : ring.core.checkChain chain = .ok ())
    (hroom : ¬ ring.core.ids.free < ring.core.descriptorsNeeded chain.length) (hwrite : (if
      ring.core.useIndirect chain.length then ring.writeIndirectChain chain else
      ring.writeLinkedChain chain) = .ok (head, next))
    (hrecord : next.core.recordChain head chain = .ok next.core) :
  ring.submit chain publish =
    .ok (.ok head, if publish then (next.putAvailable head).publish else next.putAvailable head)
  := by
  rw [SplitRing.submit, hcheck]
  simp only [if_neg hroom]
  split_ifs at hwrite ⊢ with hindirect
  all_goals
    simp only [hwrite, bind, Except.bind, hrecord]
    rfl

theorem SplitRing.submit_error {ring' : SplitRing} {publish : Bool} {error : VirtqueueError}
    (h : ring.submit chain publish = .ok (.error error, ring')) :
  ring' = ring
  := by
  rw [SplitRing.submit] at h
  simp only [bind, Except.bind] at h
  repeat' split at h
  all_goals cases h
  all_goals rfl

/-- A split ring and its device hold the chains of a queue, after some completions have been
popped. -/
structure SplitShows (config : QueueConfig) (bits popped : Nat) (free : List Nat)
    (cells : Nat → List Nat) (ring : SplitRing) (device : SplitDevice) (queue : AbstractQueue) :
    Prop where
  fits : ring.core.Fits config bits
  pool : ring.core.ids.Holds free
  linked : SplitRing.Cells (2 ^ bits) ring.descShadow free queue.chains cells
  lastUsedIdx : ring.lastUsedIdx = popped % 2 ^ 16
  usedIndex : ring.usedIndex = (popped + queue.used.length) % 2 ^ 16
  usedRing : ∀ index chain len, queue.used[index]? = some (chain, len) →
    ring.usedRing ((popped + index) % 2 ^ bits) = ⟨chain.id, len⟩
  lastAvail : device.lastAvail = queue.fetched popped % 2 ^ 16
  taken : device.taken = queue.taken.map Chain.id
  availIndex : ring.availIndex = (queue.fetched popped + queue.ready.length) % 2 ^ 16
  availIdx : ring.availIdx =
    (queue.fetched popped + (queue.ready ++ queue.waiting).length) % 2 ^ 16
  availRing : ∀ index chain, (queue.ready ++ queue.waiting)[index]? = some chain →
    ring.availRing ((queue.fetched popped + index) % 2 ^ bits) = chain.id

namespace SplitShows

variable {config : QueueConfig} {bits popped : Nat} {free : List Nat} {cells : Nat → List Nat}
variable {ring : SplitRing} {device : SplitDevice} {queue : AbstractQueue}

section

variable (h : SplitShows config bits popped free cells ring device queue)
include h

theorem conserves :
  ring.core.ids.free + queue.held = 2 ^ bits
  := by
  rw [h.pool.free]
  exact h.linked.conserves

theorem count_le :
  queue.waiting.length + queue.ready.length + queue.taken.length + queue.used.length ≤ queue.held
  := by
  have hle := h.linked.length_le
  rw [AbstractQueue.chains] at hle
  simp only [length_append, length_map] at hle
  exact hle

theorem publish :
  SplitShows config bits popped free cells ring.publish device queue.publish
  := by
  refine { h with
    linked := h.linked.perm (chains_publish queue)
    availIndex := h.availIdx
    availIdx := ?_
    availRing := ?_ }
  · simp only [AbstractQueue.publish, append_nil]
    exact h.availIdx
  · simp only [AbstractQueue.publish, append_nil]
    exact h.availRing

theorem fetch :
  ∃ queue', AbstractQueue.Step config queue .fetch .done queue' ∧
    SplitShows config bits popped free cells ring (device.fetch ring) queue'
  := by
  have hcount := h.count_le
  have hconserves := h.conserves
  have hsize := h.fits.pow_le
  cases hready : queue.ready with
  | nil =>
    refine ⟨queue, .fetchNone hready, ?_⟩
    have hsame : ring.availIndex = device.lastAvail := by
      rw [h.availIndex, h.lastAvail, hready]
      rfl
    rw [SplitDevice.fetch, if_pos hsame]
    exact h
  | cons chain rest =>
    refine ⟨_, .fetch hready, ?_⟩
    rw [hready, length_cons] at hcount
    have hne : ring.availIndex ≠ device.lastAvail := by
      rw [h.availIndex, h.lastAvail, hready, length_cons]
      exact (RingIndex.mod_ne (by omega) (by omega)).symm
    have hslot : device.lastAvail &&& (ring.core.size - 1) = queue.fetched popped % 2 ^ bits := by
      rw [h.lastAvail]
      exact h.fits.slot_eq _
    have hfetched : ({ queue with ready := rest, taken := queue.taken ++ [chain] } :
        AbstractQueue).fetched popped = queue.fetched popped + 1 := by
      simp [AbstractQueue.fetched, add_assoc]
    have hhead := h.availRing 0 chain (by rw [hready]; rfl)
    rw [SplitDevice.fetch, if_neg hne, hslot]
    rw [add_zero] at hhead
    rw [hhead]
    refine { h with
      linked := h.linked.perm (chains_fetch hready)
      lastAvail := ?_
      taken := ?_
      availIndex := ?_
      availIdx := ?_
      availRing := ?_ }
    · rw [hfetched, h.lastAvail]
      simp [wrappingAdd]
    · simp [h.taken]
    · rw [h.availIndex, hready, length_cons]
      simp only
      omega
    · rw [h.availIdx, hready, cons_append, length_cons]
      simp only
      omega
    · intro index chain' hget
      have hnext := h.availRing (index + 1) chain' (by rw [hready]; exact hget)
      rw [← hnext]
      congr 2
      omega

theorem use {index : Nat} (len flags : Nat) (hindex : index < device.taken.length) :
  ∃ id device' ring' queue', device.use ring index len = some (id, device', ring') ∧
    AbstractQueue.Step config queue (.use index len flags) (.used id len) queue' ∧
    SplitShows config bits popped free cells ring' device' queue'
  := by
  have hcount := h.count_le
  have hconserves := h.conserves
  rw [h.taken, length_map] at hindex
  have hchain : queue.taken[index]? = some queue.taken[index] := List.getElem?_eq_getElem hindex
  generalize queue.taken[index] = chain at hchain
  have hid : device.taken[index]? = some chain.id := by
    rw [h.taken, List.getElem?_map, hchain]
    rfl
  have hslot : ring.usedIndex &&& (ring.core.size - 1) =
      (popped + queue.used.length) % 2 ^ bits := by
    rw [h.usedIndex]
    exact h.fits.slot_eq _
  have hfetched : ({ queue with
      taken := queue.taken.eraseIdx index
      used := queue.used ++ [(chain, len)] } : AbstractQueue).fetched popped =
        queue.fetched popped := by
    simp only [AbstractQueue.fetched, length_append, length_singleton,
      length_eraseIdx, if_pos hindex]
    omega
  rw [SplitDevice.use, hid]
  simp only [hslot]
  refine ⟨_, _, _, _, rfl, .use hchain, ?_⟩
  constructor
  · exact h.fits
  · exact h.pool
  · exact h.linked.perm (chains_use hchain)
  · exact h.lastUsedIdx
  · simp only [h.usedIndex, wrappingAdd, length_append, length_singleton]
    rw [mod_add_mod, add_assoc]
  · intro position chain' len' hget
    simp only at hget ⊢
    rw [List.getElem?_append, List.getElem?_singleton] at hget
    split_ifs at hget with hold hlast
    · rw [update_of_ne]
      · exact h.usedRing position chain' len' hget
      · exact RingIndex.mod_ne (by omega) (by omega)
    · cases hget
      obtain rfl : position = queue.used.length := by omega
      rw [update_self]
  · rw [hfetched]
    exact h.lastAvail
  · simp only [h.taken, eraseIdx_map]
  · rw [hfetched]
    exact h.availIndex
  · rw [hfetched]
    exact h.availIdx
  · rw [hfetched]
    exact h.availRing

theorem popUsed :
  ∃ completion ring' queue' popped' free', ring.popUsed = .ok (completion, ring') ∧
    AbstractQueue.Step config queue .popUsed (.popped completion) queue' ∧
    SplitShows config bits popped' free' cells ring' device queue'
  := by
  have hcount := h.count_le
  have hconserves := h.conserves
  have hsize := h.fits.pow_le
  rw [SplitRing.popUsed, h.fits.inOrder]
  rw [SplitRing.popUsedUnordered]
  cases hused : queue.used with
  | nil =>
    have hsame : ring.usedIndex = ring.lastUsedIdx := by
      rw [h.usedIndex, h.lastUsedIdx, hused]
      rfl
    rw [if_pos hsame]
    exact ⟨none, ring, queue, popped, free, rfl, .popNone hused, h⟩
  | cons first rest =>
    obtain ⟨chain, len⟩ := first
    rw [hused, length_cons] at hcount
    have hne : ring.usedIndex ≠ ring.lastUsedIdx := by
      rw [h.usedIndex, h.lastUsedIdx, hused, length_cons]
      exact (RingIndex.mod_ne (by omega) (by omega)).symm
    have hperm := chains_pop hused
    have hmem : chain ∈ queue.chains := hperm.mem_iff.mpr (mem_cons_self ..)
    have hcells := h.linked.perm hperm.symm
    have hslot : ring.lastUsedIdx &&& (ring.core.size - 1) = popped % 2 ^ bits := by
      rw [h.lastUsedIdx]
      exact h.fits.slot_eq _
    have helem := h.usedRing 0 chain len (by rw [hused]; rfl)
    rw [add_zero] at helem
    have hid := (h.linked.bound hmem (h.linked.mem_cells hmem)).1
    have hword : chain.id % 2 ^ 16 = chain.id := mod_eq_of_lt (by omega)
    rw [if_neg hne, hslot, helem]
    simp only [hword, SplitRing.finishCompletion]
    obtain ⟨pool, hrelease, hpool, hpoolSize⟩ := @SplitRing.releaseChain_ok
      { ring with
        lastUsedIdx := wrappingAdd ring.lastUsedIdx 1
        usedEvent := if ring.core.features.eventIdx then wrappingAdd ring.lastUsedIdx 1
          else ring.usedEvent }
      free (cells chain.id) chain.id ring.core.size h.pool
      (h.fits.poolSize.trans h.fits.size.symm) (h.linked.threads chain hmem)
      (h.linked.head chain hmem)
      (by
        rw [h.linked.length chain hmem, h.fits.size]
        have hparts := hcells.conserves
        rw [map_cons, sum_cons] at hparts
        omega)
      (by
        intro id hid
        rw [h.fits.size]
        exact h.linked.bound hmem hid)
      (h.linked.nodup_cells hmem)
    rw [hrelease]
    refine ⟨some (chain.id, len), _, _, popped + 1, free ++ cells chain.id, rfl, .pop hused, ?_⟩
    have hfetched : ({ queue with used := rest } : AbstractQueue).fetched (popped + 1) =
        queue.fetched popped := by
      simp only [AbstractQueue.fetched, hused, length_cons]
      omega
    constructor
    · exact h.fits.of_ids (hpoolSize.trans h.fits.size)
    · exact hpool
    · exact hcells.release
    · simp only [h.lastUsedIdx, wrappingAdd]
      rw [mod_add_mod]
    · simp only [h.usedIndex, hused, length_cons]
      omega
    · intro index chain' len' hget
      have hnext := h.usedRing (index + 1) chain' len' (by rw [hused]; exact hget)
      rw [← hnext]
      simp only
      congr 2
      omega
    · rw [hfetched]
      exact h.lastAvail
    · exact h.taken
    · rw [hfetched]
      exact h.availIndex
    · rw [hfetched]
      exact h.availIdx
    · rw [hfetched]
      exact h.availRing

/-- A chain that passes the checks is written, in the way it is written. -/
theorem exists_wrote (hcheck : ring.core.checkChain chain = .ok ())
    (hroom : config.needed chain.length ≤ ring.core.ids.free) :
  ∃ head next ids rest,
    (if ring.core.useIndirect chain.length then ring.writeIndirectChain chain
      else ring.writeLinkedChain chain) = .ok (head, next) ∧
    ring.Wrote free (config.needed chain.length) head next ids rest
  := by
  rw [h.pool.free, ← h.fits.needed_eq, descriptorsNeeded] at hroom
  obtain ⟨hsome, hlimit⟩ := checkChain_ok hcheck
  rw [← h.fits.needed_eq, descriptorsNeeded]
  split_ifs at hroom ⊢ with hindirect
  · rw [useIndirect, Bool.and_eq_true] at hindirect
    exact SplitRing.writeIndirectChain_wrote h.pool (h.fits.poolSize.trans h.fits.size.symm)
      hindirect.1 hlimit hroom
  · exact SplitRing.writeLinkedChain_wrote h.pool hsome hroom

/-- A chain that was written and put into the available ring waits to be published. -/
theorem put {needed : Nat} {ids rest : List Nat}
    (hwrote : ring.Wrote free needed head next ids rest) :
  SplitShows config bits popped rest (update cells head ids) (next.putAvailable head)
    device (queue.put ⟨head, needed⟩ false)
  := by
  have hcount := h.count_le
  have hconserves := h.conserves
  have hlength := hwrote.length
  have hheadMem := mem_of_mem_head? hwrote.head
  have hpos := length_pos_of_mem hheadMem
  have hfree := h.pool.free
  rw [hwrote.split, length_append] at hfree
  have hcore : next.core.Fits config bits := by
    rw [hwrote.core]
    exact @Fits.of_ids _ _ _ h.fits next.core.ids ring.core.numAdded
      (hwrote.poolSize.trans h.fits.poolSize)
  have hslot : next.availIdx &&& (next.core.size - 1) =
      (queue.fetched popped + (queue.ready ++ queue.waiting).length) % 2 ^ bits := by
    rw [hwrote.availIdx, h.availIdx]
    exact hcore.slot_eq _
  constructor
  · exact hcore.of_ids hcore.poolSize
  · exact hwrote.pool
  · have hlinked := h.linked
    rw [hwrote.split] at hlinked
    have hgrant := hlinked.grant hwrote.head hwrote.threads hwrote.shadow
    rw [hlength] at hgrant
    exact hgrant.perm (chains_put queue _ _)
  · exact hwrote.lastUsedIdx.trans h.lastUsedIdx
  · exact hwrote.usedIndex.trans h.usedIndex
  · simp only [SplitRing.putAvailable, hwrote.usedRing]
    exact h.usedRing
  · exact h.lastAvail
  · exact h.taken
  · exact hwrote.availIndex.trans h.availIndex
  · simp only [SplitRing.putAvailable, AbstractQueue.put, wrappingAdd, hwrote.availIdx, h.availIdx,
      Bool.false_eq_true, if_false, length_append]
    rw [mod_add_mod]
    congr 1
  · intro index chain hget
    simp only [SplitRing.putAvailable, hwrote.availRing, hslot]
    simp only [AbstractQueue.put, Bool.false_eq_true, if_false] at hget ⊢
    rw [← append_assoc, List.getElem?_append, List.getElem?_singleton] at hget
    split_ifs at hget with hold hlast
    · rw [update_of_ne]
      · exact h.availRing index chain hget
      · rw [length_append] at hold ⊢
        simp only [AbstractQueue.fetched]
        exact RingIndex.mod_ne (by omega) (by omega)
    · cases hget
      obtain rfl : index = (queue.ready ++ queue.waiting).length := by omega
      exact update_self ..

theorem submit (chain : List ChainEntry) (publish : Bool) :
  ∃ result ring' queue' free' cells', ring.submit chain publish = .ok (result, ring') ∧
    (∀ head, result = .ok head → head = ring.nextId) ∧
    AbstractQueue.Step config queue (.submit chain publish) (.submitted result) queue' ∧
    SplitShows config bits popped free' cells' ring' device queue'
  := by
  have hrefusal := h.fits.refusal_eq h.conserves chain
  cases hcheck : ring.core.checkChain chain with
  | error error =>
    rw [hcheck] at hrefusal
    rw [SplitRing.submit, hcheck]
    exact ⟨.error error, ring, queue, free, cells, rfl, nofun, .refused hrefusal, h⟩
  | ok _ =>
    rw [hcheck] at hrefusal
    by_cases hroom : ring.core.ids.free < config.needed chain.length
    · rw [if_pos hroom] at hrefusal
      rw [SplitRing.submit, hcheck]
      simp only [h.fits.needed_eq, if_pos hroom]
      exact ⟨.error _, ring, queue, free, cells, rfl, nofun, .refused hrefusal, h⟩
    · rw [if_neg hroom] at hrefusal
      obtain ⟨head, next, ids, rest, hwrite, hwrote⟩ := h.exists_wrote hcheck (by omega)
      have hhead : head ∈ free := by
        rw [hwrote.split]
        exact mem_append_left _ (mem_of_mem_head? hwrote.head)
      have hinOrder : next.core.features.inOrder = false := by
        rw [hwrote.core]
        exact h.fits.inOrder
      have hrecord : next.core.recordChain head chain = .ok next.core := by
        rw [recordChain, hinOrder]
        rfl
      have hbound : head < config.size := by
        rw [h.fits.configSize, ← h.fits.poolSize]
        exact h.pool.bound head hhead
      refine ⟨.ok head, if publish then (next.putAvailable head).publish else next.putAvailable
        head, _, rest, update cells head ids, SplitRing.submit_eq hcheck (h.fits.needed_eq _ ▸
        hroom) hwrite hrecord, ?_, .accepted false hrefusal hbound (h.linked.not_free hhead), ?_⟩
      · rintro _ ⟨⟩
        obtain ⟨tail, hids⟩ := head?_eq_some_iff.mp hwrote.head
        rw [SplitRing.nextId, IdPool.peek, h.pool.head, hwrote.split, hids]
        rfl
      · cases publish with
        | false => exact h.put hwrote
        | true => exact (h.put hwrote).publish

end

end SplitShows

theorem splitMachine_simulation {bits chainLimit : Nat} {features : Features} (tables : Nat)
    (hbits : bits ≤ 15) (hinOrder : features.inOrder = false) :
  (splitMachine (2 ^ bits) chainLimit features tables).Simulation
    ⟨2 ^ bits, chainLimit, features.indirect && decide (chainLimit ≥ indirectMinChain)⟩
    (fun state queue => ∃ popped free cells, SplitShows
      ⟨2 ^ bits, chainLimit, features.indirect && decide (chainLimit ≥ indirectMinChain)⟩
      bits popped free cells state.1 state.2 queue)
  := by
  have hsize : 2 ^ bits ≤ 2 ^ 15 := Nat.pow_le_pow_right (by decide) hbits
  constructor
  · refine ⟨0, range (2 ^ bits), fun _ => [], ?_⟩
    constructor
    · exact fits_new tables hbits hinOrder
    · exact IdPool.holds_new (Nat.two_pow_pos bits) hsize
    · constructor
      · simp [AbstractQueue.empty, AbstractQueue.chains]
      all_goals
        rintro _ ⟨⟩
    all_goals first | rfl | (intro index; intros; simp_all [AbstractQueue.empty])
  · rintro ⟨ring, device⟩ queue op ⟨popped, free, cells, h⟩ hallowed
    cases op with
    | submit chain publish =>
      obtain ⟨result, ring', queue', free', cells', heq, _, hstep, hshows⟩ := h.submit chain publish
      refine ⟨(ring', device), .submitted result, queue', ?_, hstep, popped, free', cells', hshows⟩
      simp only [splitMachine, splitStep, heq, bind, Except.bind]
    | publish => exact ⟨_, _, _, rfl, .publish, popped, free, cells, h.publish⟩
    | popUsed =>
      obtain ⟨completion, ring', queue', popped', free', heq, hstep, hshows⟩ := h.popUsed
      refine ⟨(ring', device), .popped completion, queue', ?_, hstep, popped', free', cells, hshows⟩
      simp only [splitMachine, splitStep, heq, bind, Except.bind]
    | fetch =>
      obtain ⟨queue', hstep, hshows⟩ := h.fetch
      exact ⟨_, _, queue', rfl, hstep, popped, free, cells, hshows⟩
    | use index len flags =>
      obtain ⟨id, device', ring', queue', heq, hstep, hshows⟩ := h.use len flags hallowed
      refine ⟨(ring', device'), .used id len, queue', ?_, hstep, popped, free, cells, hshows⟩
      simp only [splitMachine, splitStep, heq]
  · rintro ⟨ring, device⟩ queue ⟨popped, free, cells, h⟩
    exact h.linked.distinct
  · rintro ⟨ring, device⟩ queue ⟨popped, free, cells, h⟩
    exact h.conserves
  · intro state
    trivial
  · rintro ⟨ring, device⟩ chain publish ⟨ring', device'⟩ error hstep
    obtain ⟨⟨result, ring''⟩, hsubmit, hstep⟩ := Transition.bind_eq_ok hstep
    cases hstep
    rw [SplitRing.submit_error hsubmit]

end Helios.Virtio
