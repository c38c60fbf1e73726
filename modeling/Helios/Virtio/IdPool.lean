import Helios.Virtio.Queue
import Helios.Library.Threads
import Mathlib.Data.List.Nodup

/-!
# The pool hands out identifiers first in first out

A pool holds a list of identifiers: its head and tail are the ends of the list, and the links
run through it.  Allocation takes the first of the list, and release appends to it.
-/

namespace Helios.Virtio

open List

namespace IdPool

variable {id : Nat}

/-- The link from an identifier, if there is one. -/
def follow (next : Nat → Nat) (id : Nat) : Option Nat :=
  if next id = noId then none else some (next id)

/-- The identifiers that a pool holds, in the order they are handed out. -/
structure Holds (pool : IdPool) (ids : List Nat) : Prop where
  size : pool.size ≤ 2 ^ 15
  free : pool.free = ids.length
  bound : ∀ id ∈ ids, id < pool.size
  nodup : ids.Nodup
  head : pool.head = ids.headD noId
  tail : pool.tail = ids.getLastD noId
  links : Threads (follow pool.next) ids

theorem follow_eq_some {next : Nat → Nat} {other : Nat} (h : follow next id = some other) :
  next id = other
  := by
  rw [follow] at h
  split at h
  · cases h
  · exact Option.some.inj h

theorem follow_eq_none {next : Nat → Nat} (h : follow next id = none) :
  next id = noId
  := by
  rw [follow] at h
  split at h
  · rename_i heq
    exact heq
  · cases h

variable {pool : IdPool} {ids : List Nat}

theorem Holds.ne_noId (h : pool.Holds ids) (hid : id < pool.size) :
  id ≠ noId
  := by
  have hsize := h.size
  rw [noId]
  omega

/-- Allocation takes the first identifier. -/
theorem Holds.allocate (h : pool.Holds (id :: ids)) :
  ∃ next, pool.allocate = .ok (some (id, next)) ∧ next.Holds ids ∧ next.size = pool.size
  := by
  have hid := h.bound id (mem_cons_self ..)
  have hfree : pool.free ≠ 0 := by
    rw [h.free]
    exact Nat.succ_ne_zero _
  have hhead : pool.head = id := h.head
  have hlink : pool.next id = ids.headD noId := by
    have hfollow := h.links.1
    cases ids with
    | nil => exact follow_eq_none hfollow
    | cons other ids => exact follow_eq_some hfollow
  rw [IdPool.allocate, if_neg hfree, hhead, if_pos hid]
  refine ⟨_, rfl, ?_, rfl⟩
  constructor
  · exact h.size
  · simp only [h.free, length_cons]
    omega
  · intro other hother
    exact h.bound other (mem_cons_of_mem _ hother)
  · exact (nodup_cons.mp h.nodup).2
  · exact hlink
  · simp only [hlink]
    cases ids with
    | nil => rfl
    | cons other ids =>
      have hne := h.ne_noId (h.bound other (by simp))
      rw [headD_cons, if_neg hne, h.tail]
      rfl
  · exact h.links.2

/-- Several allocations take the first identifiers. -/
theorem Holds.allocateMany {taken : List Nat} (h : pool.Holds (taken ++ ids)) :
  ∃ next, pool.allocateMany taken.length = .ok (taken, next) ∧ next.Holds ids ∧
    next.size = pool.size
  := by
  induction taken generalizing pool with
  | nil => exact ⟨pool, rfl, h, rfl⟩
  | cons id taken ih =>
    obtain ⟨middle, halloc, hmiddle, hsize⟩ := h.allocate
    obtain ⟨next, hrest, hnext, hnextSize⟩ := ih hmiddle
    refine ⟨next, ?_, hnext, hnextSize.trans hsize⟩
    rw [length_cons, IdPool.allocateMany, halloc]
    simp only [bind, Except.bind, hrest]

/-- A released identifier goes to the end. -/
theorem Holds.release (h : pool.Holds ids) (hid : id < pool.size) (hnew : id ∉ ids) :
  ∃ next, pool.release id = .ok next ∧ next.Holds (ids ++ [id]) ∧ next.size = pool.size
  := by
  have hne := h.ne_noId hid
  have hbound : ∀ other ∈ ids ++ [id], other < pool.size := by
    rw [forall_mem_append, forall_mem_singleton]
    exact ⟨h.bound, hid⟩
  have hnodup : (ids ++ [id]).Nodup := by
    rw [← concat_eq_append]
    exact .concat hnew h.nodup
  rw [IdPool.release, if_pos hid]
  rcases eq_nil_or_concat' ids with rfl | ⟨init, last, rfl⟩
  · have htail : pool.tail = noId := h.tail
    simp only [if_pos htail]
    refine ⟨_, rfl, ?_, rfl⟩
    constructor
    · exact h.size
    · simp [h.free]
    · exact hbound
    · exact hnodup
    · rfl
    · rfl
    · refine ⟨?_, trivial⟩
      simp [follow]
  · have htail : pool.tail = last := by
      rw [h.tail]
      simp
    have hlast := h.bound last (by simp)
    have hlastNe := h.ne_noId hlast
    simp only [htail, if_neg hlastNe, if_pos hlast]
    refine ⟨_, rfl, ?_, rfl⟩
    have hdistinct : last ≠ id := by
      rintro rfl
      exact hnew (by simp)
    constructor
    · exact h.size
    · simp [h.free]
    · exact hbound
    · exact hnodup
    · have hhead := h.head
      cases init <;> exact hhead
    · simp
    · apply h.links.concat
      · intro a ha
        have hmem : a ∈ init ++ [last] := mem_append_left _ ha
        have halast : a ≠ last := by
          rintro rfl
          have hdisjoint := (nodup_append.mp h.nodup).2.2
          exact hdisjoint a ha a (mem_singleton_self a) rfl
        have haid : a ≠ id := by
          rintro rfl
          exact hnew hmem
        simp [follow, Function.update_of_ne halast, Function.update_of_ne haid]
      · simp [follow, hne]
      · simp [follow, Function.update_of_ne hdistinct.symm]

theorem holds_new {size : Nat} (hpos : 0 < size) (hsize : size ≤ 2 ^ 15) :
  (IdPool.new size).Holds (range size)
  := by
  constructor
  · exact hsize
  · exact length_range.symm
  · intro id
    exact mem_range.mp
  · exact nodup_range
  · cases size with
    | zero => omega
    | succ size => simp [IdPool.new, range_succ_eq_map]
  · cases size with
    | zero => omega
    | succ size => simp [IdPool.new, range_succ]
  · have hlinks : ∀ count start, start + count = size → 0 < count →
        Threads (follow (IdPool.new size).next) (range' start count) := by
      intro count
      induction count with
      | zero => intro start _ hpos; omega
      | succ count ih =>
        intro start hstart _
        rcases Nat.eq_zero_or_pos count with rfl | hcount
        · refine ⟨?_, trivial⟩
          have hlast : start = size - 1 := by omega
          simp [follow, IdPool.new, hlast]
        · refine ⟨?_, ih (start + 1) (by omega) hcount⟩
          have hnot : start ≠ size - 1 := by omega
          have hne : start + 1 ≠ noId := by
            rw [noId]
            omega
          cases count with
          | zero => omega
          | succ count =>
            simp [follow, IdPool.new, hnot, hne, range'_succ]
    rw [range_eq_range']
    exact hlinks size 0 (by omega) hpos

end IdPool

variable {core : RingCore} {id : Nat} {chain : List ChainEntry}

theorem RingCore.checkChain_ok (h : core.checkChain chain = .ok ()) :
  chain ≠ [] ∧ chain.length ≤ core.chainLimit
  := by
  rw [checkChain] at h
  split_ifs at h with hempty hlong
  exact ⟨fun hnil => hempty (hnil ▸ rfl), Nat.not_lt.mp hlong⟩

/-- Every identifier of the ring has a table that the longest chain fits into. -/
theorem RingCore.tableAddr_ok (htables : core.indirect.isSome)
    (hlimit : chain.length ≤ core.chainLimit) (hid : id < core.size) :
  ∃ addr, core.tableAddr id chain = .ok addr
  := by
  obtain ⟨tables, htables⟩ := Option.isSome_iff_exists.mp htables
  have hfits : id * (core.chainLimit * descriptorBytes) + core.chainLimit * descriptorBytes ≤
      core.chainLimit * descriptorBytes * core.size := by
    rw [Nat.mul_comm]
    exact Nat.mul_le_mul_left _ hid
  rw [RingCore.tableAddr, htables]
  simp only [if_pos (And.intro hlimit hfits)]
  exact ⟨_, rfl⟩

end Helios.Virtio
