import Helios.Library.VecScan
import Helios.Netstack.UdpSockets
import Mathlib.Data.Fintype.Card

/-!
# What the UDP socket slab keeps

The free list and the list of slots in use partition the slots, the binding index holds
exactly the bindings of the sockets in use, and no two of these bindings overlap.
-/

namespace Helios

open OpenAddressing Function UdpSocketBinding List Option

/-! ### Overlapping bindings -/

theorem ipAddressUnspecifiedOverlap_comm (a b : IpAddress) :
  ipAddressUnspecifiedOverlap a b = ipAddressUnspecifiedOverlap b a
  := by
  rcases a with a | a <;> rcases b with b | b <;> simp [ipAddressUnspecifiedOverlap, Bool.or_comm]

namespace UdpSocketBinding

theorem overlaps_comm (a b : UdpSocketBinding) :
  a.overlaps b = b.overlaps a
  := by
  obtain ⟨la, pa, ra⟩ := a
  obtain ⟨lb, pb, rb⟩ := b
  have hport : (pa == pb) = (pb == pa) := Bool.beq_comm
  have haddress : optionalIpAddressesOverlap la lb = optionalIpAddressesOverlap lb la := by
    rcases la with _ | la <;> rcases lb with _ | lb <;> try rfl
    simp [optionalIpAddressesOverlap, ipAddressUnspecifiedOverlap_comm la lb,
      Bool.beq_comm (a := la)]
  have hremote : optionalUdpRemotesOverlap ra rb = optionalUdpRemotesOverlap rb ra := by
    rcases ra with _ | ra <;> rcases rb with _ | rb <;> try rfl
    simp [optionalUdpRemotesOverlap, ipAddressUnspecifiedOverlap_comm ra.address rb.address,
      Bool.beq_comm (a := ra.port), Bool.beq_comm (a := ra.address)]
  simp [overlaps, hport, haddress, hremote]

theorem overlaps_self (a : UdpSocketBinding) :
  a.overlaps a = true
  := by
  obtain ⟨l, p, r⟩ := a
  rcases l with _ | l <;> rcases r with _ | r <;>
    simp [overlaps, optionalIpAddressesOverlap, optionalUdpRemotesOverlap]

end UdpSocketBinding

namespace UdpSocketSlab

/-- The invariant of the UDP socket slab. -/
structure Wf (slab : UdpSocketSlab) : Prop where
  slot_lt : ∀ i, (slab.get i).isSome → i < maxUdpSockets
  mem_active : ∀ i, i ∈ slab.active ↔ (slab.get i).isSome
  positions : ∀ p i, slab.active[p]? = some i → slab.activePositions i = p
  free_nodup : slab.free.Nodup
  mem_free : ∀ i, i ∈ slab.free ↔ i < maxUdpSockets ∧ slab.get i = none
  apart : ∀ i j a b, slab.get i = some a → slab.get j = some b → i ≠ j →
    a.binding.overlaps b.binding = false
  index_sound : Sound hash udpBindingIndexSlots slab.bindingIndex
  index_holds : ∀ key i, Holds udpBindingIndexSlots slab.bindingIndex key i ↔
    ∃ a, slab.get i = some a ∧ a.binding = key

theorem wf_new : UdpSocketSlab.new.Wf := by
  constructor
  · simp [new, get]
  · simp [new, get]
  · simp [new]
  · exact nodup_range
  · simp [new, get]
  · simp [new, get]
  · constructor
    · intro i _ j _ e e' he
      simp [new] at he
    · intro i _ e he
      simp [new] at he
  · simp [new, get, Holds]

section

variable {index : Nat} {binding : UdpSocketBinding} {table : UdpBindingIndex} {active : List Nat}
  {positions : Nat → Nat}

variable {self self' : UdpSocketSlab}

theorem Wf.binding_ne (h : self.Wf) {i j : Nat} {a b : UdpSocketState}
    (ha : self.get i = some a) (hb : self.get j = some b) (hij : i ≠ j) :
  a.binding ≠ b.binding
  := by
  intro heq
  have hapart := h.apart i j a b ha hb hij
  rw [heq, overlaps_self] at hapart
  exact absurd hapart (by simp)

/-- An index of bindings of sockets in use has an empty slot: it has twice as many slots
as there are sockets. -/
theorem Wf.exists_empty (h : self.Wf) (hdistinct : KeysDistinct udpBindingIndexSlots table) (hheld
      : ∀ k v, Holds udpBindingIndexSlots table k v → ∃ a, self.get v = some a ∧ a.binding = k) :
  ∃ slot < udpBindingIndexSlots, table slot = none
  := by
  apply OpenAddressing.exists_empty ((range maxUdpSockets).filterMap fun i => (self.get i).map
    UdpSocketState.binding) hdistinct
  · intro k v hholds
    obtain ⟨a, ha, rfl⟩ := hheld k v hholds
    exact mem_filterMap.mpr ⟨v, mem_range.mpr (h.slot_lt v (by simp [ha])), by simp [ha]⟩
  · apply lt_of_le_of_lt (length_filterMap_le _ _)
    simp [udpBindingIndexSlots, maxUdpSockets]

/-- The check for overlapping sockets finds one exactly when there is one. -/
theorem bindingOverlapsIn_eq {slots : List Nat} {found : Bool}
    (h : self.bindingOverlapsIn binding slots = .ok found) :
  found = true ↔ ∃ i ∈ slots, ∃ a, self.get i = some a ∧ a.binding.overlaps binding = true
  := by
  fun_induction self.bindingOverlapsIn binding slots with
  | case1 =>
    cases h
    simp
  | case2 => contradiction
  | case3 i rest a ha hoverlaps =>
    cases h
    simp only [true_iff]
    exact ⟨i, by simp, a, ha, hoverlaps⟩
  | case4 i rest a ha hoverlaps ih =>
    rw [ih h]
    simp [ha, hoverlaps]

theorem Wf.bindingOverlapsExcept_eq (hwf : self.Wf) {exceptIndex : Nat} {found : Bool}
    (h : self.bindingOverlapsExcept binding exceptIndex = .ok found) :
  found = true ↔ ∃ i, i ≠ exceptIndex ∧ ∃ a, self.get i = some a ∧
    a.binding.overlaps binding = true
  := by
  rw [bindingOverlapsIn_eq h]
  constructor
  · rintro ⟨i, hi, a, ha, hoverlaps⟩
    simp only [mem_filter, bne_iff_ne] at hi
    exact ⟨i, hi.2, a, ha, hoverlaps⟩
  · rintro ⟨i, hi, a, ha, hoverlaps⟩
    refine ⟨i, ?_, a, ha, hoverlaps⟩
    simp only [mem_filter, bne_iff_ne]
    exact ⟨(hwf.mem_active i).mpr (by simp [ha]), hi⟩

/-! ### The binding index -/

/-- A new binding is added to an index of bindings of sockets in use, alone. -/
theorem Wf.index_insert (hwf : self.Wf) {table' : UdpBindingIndex}
    (hsound : Sound hash udpBindingIndexSlots table) (hheld : ∀ k v, Holds
      udpBindingIndexSlots table k v → ∃ a, self.get v = some a ∧ a.binding = k)
    (hnew : ∀ v, ¬ Holds udpBindingIndexSlots table binding v)
    (h : table.insert binding index = .ok table') :
  Sound hash udpBindingIndexSlots table' ∧
    ∀ k v, Holds udpBindingIndexSlots table' k v ↔
      (k = binding ∧ v = index) ∨ Holds udpBindingIndexSlots table k v
  := by
  obtain ⟨slot, hslot, hempty⟩ := hwf.exists_empty hsound.distinct hheld
  obtain ⟨table₁, hok, hsound', hholds⟩ := insert_sound hsound hslot hempty hnew
  rw [UdpBindingIndex.insert, hok] at h
  cases h
  exact ⟨hsound', hholds⟩

theorem Wf.index_remove (hwf : self.Wf) (h : self.bindingIndex.remove binding = .ok table) :
  Sound hash udpBindingIndexSlots table ∧
    ∀ k v, Holds udpBindingIndexSlots table k v ↔
      k ≠ binding ∧ Holds udpBindingIndexSlots self.bindingIndex k v
  := by
  obtain ⟨slot, hslot, hempty⟩ :=
    hwf.exists_empty hwf.index_sound.distinct fun k v => (hwf.index_holds k v).mp
  obtain ⟨table₁, hok, hsound, hholds⟩ := remove_sound hwf.index_sound hslot hempty
  rw [UdpBindingIndex.remove, hok] at h
  cases h
  exact ⟨hsound, hholds⟩

/-! ### Operations -/

theorem insertActive_eq (h : self.insertActive index = .ok self') :
  self' = { self with
    activePositions := update self.activePositions index self.active.length
    active := self.active ++ [index] }
  := by
  unfold insertActive at h
  split at h
  · exact (Except.ok.inj h).symm
  · contradiction

/-- A slot that was appended to the slots in use is at the recorded position. -/
theorem positions_append (hnew : index ∉ active)
    (h : ∀ p i, active[p]? = some i → positions i = p) :
  ∀ p i, (active ++ [index])[p]? = some i →
    update positions index active.length i = p
  := by
  intro p i hp
  rw [List.getElem?_append, List.getElem?_singleton] at hp
  split_ifs at hp with hlt hlast
  · have hne : i ≠ index := by
      rintro rfl
      exact hnew (mem_of_getElem? hp)
    rw [update_of_ne hne]
    exact h p i hp
  · cases hp
    rw [update_self]
    omega

theorem get_update {i : Nat} {state : Option UdpSocketState}
    (h : self'.sockets = update self.sockets index state) :
  self'.get i = if i = index then state else self.get i
  := by
  simp only [get, h, update_apply]

/-- The invariant after a socket with a fresh binding was put into a free slot. -/
theorem Wf.opened (hwf : self.Wf) {free : List Nat} (hfree : self.free = index :: free)
    (hfresh : ∀ i a, self.get i = some a → a.binding.overlaps binding = false)
    (hsound : Sound hash udpBindingIndexSlots table) (hholds : ∀ k v, Holds
      udpBindingIndexSlots table k v ↔ (k = binding ∧ v = index) ∨ Holds udpBindingIndexSlots
      self.bindingIndex k v) (hsockets : self'.sockets = update self.sockets index (some
      (UdpSocketState.new binding))) (hfree' : self'.free = free)
    (hactive : self'.active = self.active ++ [index]) (hpositions : self'.activePositions =
      update self.activePositions index self.active.length)
    (hindex : self'.bindingIndex = table) :
  self'.Wf
  := by
  have hmem : index ∈ self.free := by simp [hfree]
  obtain ⟨hlt, hnone⟩ := (hwf.mem_free index).mp hmem
  have hnew : index ∉ self.active := by simp [hwf.mem_active, hnone]
  have hget : ∀ i, self'.get i =
      if i = index then some (UdpSocketState.new binding) else self.get i :=
    fun i => get_update hsockets
  obtain ⟨hnotin, hnodup⟩ := nodup_cons.mp (hfree ▸ hwf.free_nodup)
  constructor
  · intro i hi
    rw [hget] at hi
    split at hi
    · rename_i heq
      rwa [heq]
    · exact hwf.slot_lt i hi
  · intro i
    rw [hget]
    split
    · simp [*]
    · simp [*, hwf.mem_active]
  · rw [hactive, hpositions]
    exact positions_append hnew hwf.positions
  · rwa [hfree']
  · intro i
    have hold := hwf.mem_free i
    rw [hfree] at hold
    rw [hfree', hget]
    split_ifs with heq
    · simp [heq, hnotin]
    · simpa [heq] using hold
  · intro i j a b ha hb hij
    rw [hget] at ha hb
    split_ifs at ha hb
    · omega
    · cases ha
      rw [overlaps_comm]
      exact hfresh j b hb
    · cases hb
      exact hfresh i a ha
    · exact hwf.apart i j a b ha hb hij
  · rwa [hindex]
  · intro key i
    rw [hindex, hholds, hwf.index_holds, hget]
    split
    · rename_i heq
      subst heq
      simp [hnone, UdpSocketState.new, eq_comm]
    · simp [*]

/-- Opening a socket: the binding is taken, or a free slot is used for it. -/
theorem Wf.insert_eq (hwf : self.Wf) {result : Except StackError UdpSocketId}
    (h : self.insert binding = .ok (self', result)) :
  (self' = self ∧ result = .error .addressInUse) ∨
    ∃ index, result = .ok (udpSocketId index) ∧ self.get index = none ∧ self'.Wf ∧
      self'.sockets = update self.sockets index (some (UdpSocketState.new binding))
  := by
  unfold insert at h
  simp only [bind, Except.bind] at h
  repeat' split at h
  all_goals cases h
  · exact .inl ⟨rfl, rfl⟩
  · contradiction
  rename_i found hfound hnotfound _ index free hfree hnone _ bindingIndex hindex _ hactive
  right
  have hslab := insertActive_eq hactive
  have hget : self.get index = none := by simpa [get] using hnone
  have hfresh : ∀ i a, self.get i = some a → a.binding.overlaps binding = false := by
    intro i a ha
    have hi : i < maxUdpSockets := hwf.slot_lt i (by simp [ha])
    by_contra hoverlaps
    apply hnotfound
    rw [hwf.bindingOverlapsExcept_eq hfound]
    refine ⟨i, ?_, a, ha, by simpa using hoverlaps⟩
    have : maxUdpSockets ≤ Machine.maxWord 64 := by simp [maxUdpSockets, Machine.maxWord]
    omega
  have hkey : ∀ v, ¬ Holds udpBindingIndexSlots self.bindingIndex binding v := by
    intro v hv
    obtain ⟨a, ha, rfl⟩ := (hwf.index_holds binding v).mp hv
    simpa [overlaps_self] using hfresh v a ha
  obtain ⟨hsound, hholds⟩ :=
    hwf.index_insert hwf.index_sound (fun k v => (hwf.index_holds k v).mp) hkey hindex
  use index, rfl, hget
  rw [hslab]
  constructor
  · exact hwf.opened hfree hfresh hsound hholds rfl rfl rfl rfl rfl
  · rfl

/-- The invariant after the socket of a slot was given a fresh binding. -/
theorem Wf.rebound (hwf : self.Wf) {state state' : UdpSocketState}
    (hstate : self.get index = some state) (hfresh : ∀ i a, i ≠ index → self.get i = some a →
      a.binding.overlaps state'.binding = false)
    (hsound : Sound hash udpBindingIndexSlots table) (hholds : ∀ k v, Holds
      udpBindingIndexSlots table k v ↔ (k = state'.binding ∧ v = index) ∨ (k ≠ state.binding ∧
      Holds udpBindingIndexSlots self.bindingIndex k v)) :
  Wf { self with
    sockets := update self.sockets index (some state'), bindingIndex := table }
  := by
  have hget : ∀ i, UdpSocketSlab.get { self with
      sockets := update self.sockets index (some state'), bindingIndex := table } i =
      if i = index then some state' else self.get i :=
    fun i => get_update rfl
  have hsome : ∀ i, (UdpSocketSlab.get { self with
      sockets := update self.sockets index (some state'),
      bindingIndex := table } i).isSome = (self.get i).isSome := by
    intro i
    rw [hget]
    split
    · simp [*]
    · rfl
  constructor
  · intro i hi
    exact hwf.slot_lt i (hsome i ▸ hi)
  · intro i
    rw [hsome]
    exact hwf.mem_active i
  · exact hwf.positions
  · exact hwf.free_nodup
  · intro i
    rw [← not_isSome_iff_eq_none, hsome, not_isSome_iff_eq_none]
    exact hwf.mem_free i
  · intro i j a b ha hb hij
    rw [hget] at ha hb
    split_ifs at ha hb with hi hj hj
    · omega
    · cases ha
      rw [overlaps_comm]
      exact hfresh j b hj hb
    · cases hb
      exact hfresh i a hi ha
    · exact hwf.apart i j a b ha hb hij
  · exact hsound
  · intro key i
    rw [hholds, hwf.index_holds, hget]
    split
    · rename_i heq
      grind
    · rename_i hne
      constructor
      · rintro (⟨-, heq⟩ | ⟨-, h⟩)
        · exact absurd heq hne
        · exact h
      · rintro ⟨a, ha, rfl⟩
        right
        exact ⟨hwf.binding_ne ha hstate hne, a, ha, rfl⟩

/-- Rebinding a socket: nothing changes, or the socket gets the binding. -/
theorem Wf.rebind_eq (hwf : self.Wf) {socket : UdpSocketId} {result : Except StackError Unit}
    (h : self.rebind socket binding = .ok (self', result)) :
  self' = self ∨ ∃ state, self'.Wf ∧
    self'.sockets = update self.sockets (udpSocketIndex socket) (some state)
  := by
  unfold rebind at h
  simp only [bind, Except.bind] at h
  repeat' split at h
  all_goals cases h
  any_goals exact .inl rfl
  rename_i state hstate hne _ found hfound hnotfound _ removed hremoved _ table htable
  right
  have hfresh : ∀ i a, i ≠ udpSocketIndex socket → self.get i = some a →
      a.binding.overlaps binding = false := by
    intro i a hi ha
    by_contra hoverlaps
    apply hnotfound
    rw [hwf.bindingOverlapsExcept_eq hfound]
    exact ⟨i, hi, a, ha, by simpa using hoverlaps⟩
  obtain ⟨hsound₁, hholds₁⟩ := hwf.index_remove hremoved
  have hheld : ∀ k v, Holds udpBindingIndexSlots removed k v →
      ∃ a, self.get v = some a ∧ a.binding = k :=
    fun k v hv => (hwf.index_holds k v).mp ((hholds₁ k v).mp hv).2
  have hnew : ∀ v, ¬ Holds udpBindingIndexSlots removed binding v := by
    intro v hv
    obtain ⟨a, ha, hkey⟩ := hheld binding v hv
    by_cases hv : v = udpSocketIndex socket
    · rw [hv, hstate, some.injEq] at ha
      exact hne (by rw [ha, hkey])
    · have := hfresh v a hv ha
      rw [hkey, overlaps_self] at this
      exact absurd this (by simp)
  obtain ⟨hsound, hholds⟩ := hwf.index_insert hsound₁ hheld hnew htable
  use { state with binding, pendingError := none }
  constructor
  · apply hwf.rebound hstate hfresh hsound
    intro k v
    rw [hholds, hholds₁]
  · rfl

/-- Taking the slot at one position out of the slots in use, with the last one moved
into its place. -/
theorem mem_swapRemove {moved position : Nat}
    (hpositions : ∀ p i, active[p]? = some i → positions i = p)
    (hlast : active.getLast? = some moved) (hindex : active[position]? = some index) (i : Nat) :
  i ∈ (active.set position moved).dropLast ↔ i ∈ active ∧ i ≠ index
  := by
  have hswap : (active.set position moved).dropLast = VecScan.swapRemove active position := by
    rw [VecScan.swapRemove, hlast]
  have hperm := VecScan.perm_swapRemove hindex
  have hnodup : active.Nodup := by
    rw [nodup_iff_getElem?_ne_getElem?]
    intro p q hlt hq heq
    have h₁ := hpositions q active[q] (List.getElem?_eq_getElem hq)
    have h₂ := hpositions p active[q] (heq.trans (List.getElem?_eq_getElem hq))
    omega
  rw [hperm.nodup_iff, nodup_cons] at hnodup
  rw [hswap, hperm.mem_iff, mem_cons]
  constructor
  · intro hmem
    refine ⟨Or.inr hmem, ?_⟩
    rintro rfl
    exact hnodup.1 hmem
  · rintro ⟨heq | hmem, hne⟩
    · exact absurd heq hne
    · exact hmem

theorem positions_swapRemove {moved position : Nat}
    (hpositions : ∀ p i, active[p]? = some i → positions i = p)
    (hlast : active.getLast? = some moved) (hindex : active[position]? = some index) (p i : Nat)
    (hp : (active.set position moved).dropLast[p]? = some i) :
  update positions moved position i = p
  := by
  have hlast' : active[active.length - 1]? = some moved := by
    rw [← hlast, List.getLast?_eq_getElem?]
  have hlt : position < active.length := (List.getElem?_eq_some_iff.mp hindex).1
  rw [dropLast_eq_take, length_set, List.getElem?_take] at hp
  split at hp
  · rw [List.getElem?_set] at hp
    split at hp
    · rename_i heq
      simp only [some.injEq] at hp
      subst hp
      simp [heq]
    · have hpos := hpositions p i hp
      have hne : i ≠ moved := by
        rintro rfl
        have := hpositions _ _ hlast'
        omega
      rw [update_of_ne hne]
      exact hpos
  · simp at hp

theorem removeActive_eq (h : self.removeActive index = .ok self') :
  ∃ moved position, self.active.getLast? = some moved ∧ self.active[position]? = some index ∧
    self' = { self with
      active := (self.active.set position moved).dropLast
      activePositions := update self.activePositions moved position }
  := by
  unfold removeActive at h
  split at h
  · cases h
  · rename_i moved hmoved
    simp only at h
    split at h <;> cases h
    rename_i hposition
    exact ⟨moved, _, hmoved, hposition, rfl⟩

/-- Removing the socket of a slot: there is none, or the slot becomes free. -/
theorem Wf.remove_eq (hwf : self.Wf) {removed : Option UdpSocketState}
    (h : self.remove index = .ok (self', removed)) :
  self' = self ∨ self'.Wf ∧ self'.sockets = update self.sockets index none
  := by
  unfold remove at h
  simp only [bind, Except.bind] at h
  repeat' split at h
  all_goals cases h
  · exact .inl rfl
  rename_i state hstate _ table htable _ slab hactive
  obtain ⟨moved, position, hlast, hposition, hslab⟩ := removeActive_eq hactive
  subst hslab
  right
  refine ⟨?_, rfl⟩
  obtain ⟨hsound, hholds⟩ := hwf.index_remove htable
  have hget : ∀ i, UdpSocketSlab.get
      { sockets := update self.sockets index none, free := index :: self.free
        active := (self.active.set position moved).dropLast
        activePositions := update self.activePositions moved position
        bindingIndex := table } i = if i = index then none else self.get i :=
    fun i => get_update rfl
  constructor
  · intro i hi
    rw [hget] at hi
    split at hi
    · simp at hi
    · exact hwf.slot_lt i hi
  · intro i
    rw [hget, mem_swapRemove hwf.positions hlast hposition, hwf.mem_active]
    split <;> simp [*]
  · exact positions_swapRemove hwf.positions hlast hposition
  · apply nodup_cons.mpr
    refine ⟨?_, hwf.free_nodup⟩
    rw [hwf.mem_free]
    simp [hstate]
  · intro i
    have hlt : index < maxUdpSockets := hwf.slot_lt index (by simp [hstate])
    rw [hget, mem_cons, hwf.mem_free]
    split
    · simp [*]
    · simp [*]
  · intro i j a b ha hb hij
    rw [hget] at ha hb
    split at ha
    · cases ha
    · split at hb
      · cases hb
      · exact hwf.apart i j a b ha hb hij
  · exact hsound
  · intro key i
    rw [hholds, hwf.index_holds, hget]
    split_ifs with heq
    · subst heq
      simp only [hstate, some.injEq, exists_eq_left', false_and, exists_false,
        iff_false, not_and]
      exact fun hne heq => hne heq.symm
    · constructor
      · exact fun h => h.2
      · rintro ⟨a, ha, rfl⟩
        exact ⟨hwf.binding_ne ha hstate heq, a, ha, rfl⟩

/-- Collecting a pending error changes no binding. -/
theorem Wf.takePendingError (hwf : self.Wf) (socket : UdpSocketId) :
  (self.takePendingError socket).1.Wf ∧
    ∀ i, ((self.takePendingError socket).1.get i).isSome = (self.get i).isSome
  := by
  unfold UdpSocketSlab.takePendingError
  simp only
  split
  · exact ⟨hwf, fun _ => rfl⟩
  · rename_i state hstate
    constructor
    · apply hwf.rebound hstate
      · intro i a hi ha
        exact hwf.apart i _ a state ha hstate hi
      · exact hwf.index_sound
      · intro k v
        constructor
        · intro hv
          by_cases hk : k = state.binding
          · left
            obtain ⟨a, ha, rfl⟩ := (hwf.index_holds k v).mp hv
            refine ⟨hk, ?_⟩
            by_contra hne
            exact hwf.binding_ne ha hstate hne hk
          · exact .inr ⟨hk, hv⟩
        · rintro (⟨rfl, rfl⟩ | ⟨-, hv⟩)
          · exact (hwf.index_holds _ _).mpr ⟨state, hstate, rfl⟩
          · exact hv
    · intro i
      rw [get_update rfl]
      split
      · simp [*]
      · rfl

end
end UdpSocketSlab
end Helios
