import Helios.Library.VecScan

/-!
# The queue and the waker sets of a byte channel

A bounded queue of chunks, and the set of parked wakers of one direction of a channel.  Each has
an inline part of fixed capacity and spills into an overflow when it is exhausted.  The queue is
first in, first out; the set is popped from its end, and removing swaps the last one in.
-/

namespace Helios.Child

open List Option

def byteChannelChunkCapacity : Nat := 256
def byteChannelInlineChunks : Nat := 16
def byteChannelWakerCapacity : Nat := 8

/-- What a part and its spill hold. -/
def spilled {α : Type} (inline : List α) (overflow : Option (List α)) : List α :=
  inline ++ overflow.getD []

/-- An overflow that is drained is given up. -/
def trimmed {α : Type} (overflow : List α) : Option (List α) :=
  if overflow.isEmpty then none else some overflow

@[simp] theorem spilled_trimmed {α : Type} (inline overflow : List α) :
  spilled inline (trimmed overflow) = inline ++ overflow
  := by
  cases overflow with
  | nil | cons a overflow => rfl

/-! ### Chunks -/

abbrev Bytes := List UInt8

structure ByteChunks where
  inline : List Bytes
  overflow : Option (List Bytes)
  len : Nat
  counted : len = (spilled inline overflow).length
  bounded : len ≤ byteChannelChunkCapacity

inductive QueuePush where
  | pushed
  | full (bytes : Bytes)
  deriving DecidableEq, Repr

namespace ByteChunks

variable (chunks : ByteChunks)

def new : ByteChunks := ⟨[], none, 0, rfl, Nat.zero_le _⟩

def isEmpty : Bool := chunks.len == 0

def isFull : Bool := decide (byteChannelChunkCapacity ≤ chunks.len)

/-- The chunks in the order in which they were pushed. -/
def contents : List Bytes := spilled chunks.inline chunks.overflow

theorem lt_of_not_isFull {chunks : ByteChunks} (h : ¬ chunks.isFull) :
  chunks.len < byteChannelChunkCapacity
  := by
  rw [isFull, decide_eq_true_eq] at h
  omega

def push (bytes : Bytes) : QueuePush × ByteChunks :=
  if hfull : chunks.isFull then (.full bytes, chunks)
  else
    match hoverflow : chunks.overflow with
    | some overflow =>
      (.pushed, ⟨chunks.inline, some (overflow ++ [bytes]), chunks.len + 1,
        by simp [chunks.counted, spilled, hoverflow]; omega, lt_of_not_isFull hfull⟩)
    | none =>
      if chunks.inline.length < byteChannelInlineChunks then
        (.pushed, ⟨chunks.inline ++ [bytes], none, chunks.len + 1,
          by simp [chunks.counted, spilled, hoverflow], lt_of_not_isFull hfull⟩)
      else
        (.pushed, ⟨chunks.inline, some [bytes], chunks.len + 1,
          by simp [chunks.counted, spilled, hoverflow], lt_of_not_isFull hfull⟩)

def pop : Option Bytes × ByteChunks :=
  match hinline : chunks.inline with
  | bytes :: inline =>
    (some bytes, ⟨inline, chunks.overflow, chunks.len - 1,
      by simp [chunks.counted, spilled, hinline], Nat.le_trans (Nat.sub_le _ _) chunks.bounded⟩)
  | [] =>
    match hoverflow : chunks.overflow with
    | none => (none, chunks)
    | some [] =>
      (none, ⟨[], none, chunks.len, by simp [chunks.counted, spilled, hinline, hoverflow],
        chunks.bounded⟩)
    | some (bytes :: overflow) =>
      (some bytes, ⟨[], trimmed overflow, chunks.len - 1,
        by rw [spilled_trimmed]; simp [chunks.counted, spilled, hinline, hoverflow],
        Nat.le_trans (Nat.sub_le _ _) chunks.bounded⟩)

def clear (_ : ByteChunks) : ByteChunks := new

theorem length_contents :
  chunks.contents.length = chunks.len
  := chunks.counted.symm

theorem isEmpty_iff :
  chunks.isEmpty ↔ chunks.contents = []
  := by
  rw [isEmpty, beq_iff_eq, ← length_contents, length_eq_zero_iff]

theorem isFull_iff :
  chunks.isFull ↔ byteChannelChunkCapacity ≤ chunks.contents.length
  := by
  rw [isFull, decide_eq_true_eq, length_contents]

theorem push_cases (bytes : Bytes) :
  (chunks.isFull ∧ chunks.push bytes = (.full bytes, chunks)) ∨
  (¬ chunks.isFull ∧ (chunks.push bytes).1 = .pushed ∧
    (chunks.push bytes).2.contents = chunks.contents ++ [bytes])
  := by
  fun_cases push with
  | case1 hfull => exact .inl ⟨hfull, rfl⟩
  | case2 hfull overflow hoverflow | case3 hfull hoverflow _ | case4 hfull hoverflow _ =>
    simp [hfull, contents, spilled, hoverflow]

theorem pop_cases :
  (chunks.contents = [] ∧ chunks.pop.1 = none ∧ chunks.pop.2.contents = []) ∨
  ∃ bytes, chunks.pop.1 = some bytes ∧ chunks.contents = bytes :: chunks.pop.2.contents
  := by
  fun_cases pop with
  | case1 bytes inline hinline =>
    right
    simp [contents, spilled, hinline]
  | case2 hinline hoverflow | case3 hinline hoverflow =>
    simp [contents, spilled, hinline, hoverflow]
  | case4 hinline bytes overflow hoverflow =>
    right
    rw [contents, contents, spilled_trimmed]
    simp [spilled, hinline, hoverflow]

end ByteChunks

/-! ### Wakers -/

/-- What wakes a task.  Two wakers are the same when they wake the same task. -/
abbrev Waker := Nat

/-- Takes the first of some out of a list and puts the last in its place. -/
def swapRemove (wakers : List Waker) (waker : Waker) : List Waker :=
  match wakers.getLast? with
  | none => []
  | some last => (wakers.set (wakers.idxOf waker) last).dropLast

variable {waker : Waker}

theorem swapRemove_perm {wakers : List Waker} (h : waker ∈ wakers) :
  (swapRemove wakers waker).Perm (wakers.erase waker)
  := by
  have hget : wakers[wakers.idxOf waker]? = some waker := getElem?_idxOf h
  have hperm := VecScan.perm_swapRemove hget
  have hswap : swapRemove wakers waker = VecScan.swapRemove wakers (wakers.idxOf waker) := by
    rw [swapRemove, VecScan.swapRemove]
    cases wakers.getLast? <;> rfl
  rw [hswap]
  exact (perm_cons waker).mp (hperm.symm.trans (perm_cons_erase h))

structure WakerSet where
  inline : List Waker
  overflow : Option (List Waker)
  len : Nat
  counted : len = (spilled inline overflow).length

namespace WakerSet

variable {set : WakerSet}

def new : WakerSet := ⟨[], none, 0, rfl⟩

section

variable (set)

/-- The wakers in the set; their order tells which is popped next. -/
def wakers : List Waker := spilled set.inline set.overflow

theorem length_wakers :
  set.wakers.length = set.len
  := set.counted.symm

def push (waker : Waker) : WakerSet :=
  match hoverflow : set.overflow with
  | some overflow =>
    ⟨set.inline, some (overflow ++ [waker]), set.len + 1,
      by simp [set.counted, spilled, hoverflow]; omega⟩
  | none =>
    if set.inline.length < byteChannelWakerCapacity then
      ⟨set.inline ++ [waker], none, set.len + 1, by simp [set.counted, spilled, hoverflow]⟩
    else
      ⟨set.inline, some [waker], set.len + 1, by simp [set.counted, spilled, hoverflow]⟩

def popInline (hoverflow : set.overflow.getD [] = []) : Option Waker × WakerSet :=
  match hlast : set.inline.getLast? with
  | none => (none, ⟨set.inline, none, set.len, by simp [set.counted, spilled, hoverflow]⟩)
  | some waker =>
    (some waker, ⟨set.inline.dropLast, none, set.len - 1,
      by simp [set.counted, spilled, hoverflow]⟩)

def pop : Option Waker × WakerSet :=
  match hlast : (set.overflow.getD []).getLast? with
  | none => set.popInline (getLast?_eq_none_iff.mp hlast)
  | some waker =>
    (some waker, ⟨set.inline, trimmed (set.overflow.getD []).dropLast, set.len - 1, by
      have hne : set.overflow.getD [] ≠ [] := by
        intro hnil
        rw [hnil] at hlast
        cases hlast
      have hpos := length_pos_iff.mpr hne
      rw [spilled_trimmed, set.counted, spilled, length_append, length_append, length_dropLast]
      omega⟩)

/-- Puts a waker in the place of one that was registered before. -/
def replace (registered waker : Waker) : Option WakerSet :=
  if registered ∈ set.overflow.getD [] then
    some ⟨set.inline, set.overflow.map fun overflow => overflow.replace registered waker, set.len,
      by cases h : set.overflow <;> simp [set.counted, spilled, h]⟩
  else if registered ∈ set.inline then
    some ⟨set.inline.replace registered waker, set.overflow, set.len,
      by simp [set.counted, spilled]⟩
  else none

def remove (waker : Waker) : WakerSet :=
  if h : waker ∈ set.overflow.getD [] then
    ⟨set.inline, trimmed (swapRemove (set.overflow.getD []) waker), set.len - 1, by
      have hpos := length_pos_of_mem h
      rw [spilled_trimmed, set.counted, spilled, length_append, length_append,
        (swapRemove_perm h).length_eq, length_erase_of_mem h]
      omega⟩
  else if h : waker ∈ set.inline then
    ⟨swapRemove set.inline waker, set.overflow, set.len - 1, by
      have hpos := length_pos_of_mem h
      rw [spilled, set.counted, spilled, length_append, length_append,
        (swapRemove_perm h).length_eq, length_erase_of_mem h]
      omega⟩
  else set

/-! #### The wakers in the set -/

theorem push_perm (waker : Waker) :
  (set.push waker).wakers.Perm (waker :: set.wakers)
  := by
  have hconcat : ∀ l : List Waker, (l ++ [waker]).Perm (waker :: l) :=
    fun l => perm_append_singleton waker l
  fun_cases push with
  | case1 overflow hoverflow =>
    simp only [wakers, spilled, hoverflow, getD_some, ← append_assoc]
    exact hconcat _
  | case2 hoverflow _ | case3 hoverflow _ =>
    simp only [wakers, spilled, hoverflow, getD_none, append_nil]
    exact hconcat _

theorem popInline_cases (hoverflow : set.overflow.getD [] = []) :
  (set.wakers = [] ∧ (set.popInline hoverflow).1 = none ∧
    (set.popInline hoverflow).2.wakers = []) ∨
  ∃ waker, (set.popInline hoverflow).1 = some waker ∧
    set.wakers.Perm (waker :: (set.popInline hoverflow).2.wakers)
  := by
  have hwakers : set.wakers = set.inline := by
    rw [wakers, spilled, hoverflow, append_nil]
  rw [popInline, hwakers]
  split
  · rename_i hlast
    rw [getLast?_eq_none_iff] at hlast
    simp [hlast, wakers, spilled]
  · rename_i waker hlast
    right
    refine ⟨waker, rfl, ?_⟩
    simp only [wakers, spilled, getD_none, append_nil]
    obtain ⟨rest, hinline⟩ := getLast?_eq_some_iff.mp hlast
    rw [hinline, dropLast_concat]
    exact perm_append_singleton waker rest

theorem pop_cases :
  (set.wakers = [] ∧ set.pop.1 = none ∧ set.pop.2.wakers = []) ∨
  ∃ waker, set.pop.1 = some waker ∧ set.wakers.Perm (waker :: set.pop.2.wakers)
  := by
  rw [pop]
  split
  · rename_i hlast
    exact set.popInline_cases (getLast?_eq_none_iff.mp hlast)
  · rename_i waker hlast
    right
    refine ⟨waker, rfl, ?_⟩
    obtain ⟨rest, hoverflow⟩ := getLast?_eq_some_iff.mp hlast
    simp only [wakers, spilled_trimmed]
    rw [spilled, hoverflow, dropLast_concat, ← append_assoc]
    exact perm_append_singleton waker _

end

theorem replace_perm {l : List Waker} {registered waker : Waker} (h : registered ∈ l) :
  (l.replace registered waker).Perm (waker :: l.erase registered)
  := by
  induction l with
  | nil => cases h
  | cons a l ih =>
    by_cases hhead : a = registered
    · subst hhead
      simp
    · have htail := (mem_cons.mp h).resolve_left (Ne.symm hhead)
      have hne : (registered == a) = false := beq_eq_false_iff_ne.mpr (Ne.symm hhead)
      rw [replace_cons, hne, erase_cons_tail (by simpa using hhead)]
      exact ((ih htail).cons a).trans (Perm.swap waker a _)

theorem erase_append_perm (inline : List Waker) {overflow : List Waker} (h : waker ∈ overflow) :
  (inline ++ overflow.erase waker).Perm ((inline ++ overflow).erase waker)
  := by
  have hswap : (inline ++ overflow).Perm (overflow ++ inline) := perm_append_comm
  have herase := hswap.erase waker
  rw [erase_append_left _ h] at herase
  exact perm_append_comm.trans herase.symm

theorem replace_eq_some {set' : WakerSet} {registered : Waker}
    (h : set.replace registered waker = some set') :
  registered ∈ set.wakers ∧ set'.wakers.Perm (waker :: set.wakers.erase registered)
  := by
  rw [replace] at h
  split at h
  · rename_i hmem
    cases h
    obtain ⟨overflow, hoverflow⟩ : ∃ overflow, set.overflow = some overflow := by
      cases hoverflow : set.overflow with
      | none =>
        rw [hoverflow] at hmem
        cases hmem
      | some overflow => exact ⟨overflow, rfl⟩
    simp only [wakers, hoverflow] at hmem ⊢
    refine ⟨mem_append_right _ hmem, ?_⟩
    have hreplace := (@replace_perm _ _ waker hmem).append_left set.inline
    have hmiddle : (set.inline ++ waker :: overflow.erase registered).Perm
        (waker :: (set.inline ++ overflow.erase registered)) := perm_middle
    exact (hreplace.trans hmiddle).trans ((erase_append_perm set.inline hmem).cons waker)
  · split at h <;> cases h
    rename_i hmem
    simp only [wakers, spilled]
    refine ⟨mem_append_left _ hmem, ?_⟩
    rw [erase_append_left _ hmem]
    exact (replace_perm hmem).append_right _

theorem remove_perm (h : waker ∈ set.wakers) :
  (set.remove waker).wakers.Perm (set.wakers.erase waker)
  := by
  rw [remove]
  split
  · rename_i hoverflow
    simp only [wakers, spilled_trimmed]
    exact ((swapRemove_perm hoverflow).append_left set.inline).trans
      (erase_append_perm set.inline hoverflow)
  · rename_i hoverflow
    split_ifs with hinline
    · simp only [wakers, spilled]
      rw [erase_append_left _ hinline]
      exact (swapRemove_perm hinline).append_right _
    · rw [wakers, spilled, mem_append] at h
      exact absurd h (not_or.mpr ⟨hinline, hoverflow⟩)

theorem remove_of_notMem (h : waker ∉ set.wakers) :
  set.remove waker = set
  := by
  rw [wakers, spilled, mem_append, not_or] at h
  rw [remove, dif_neg h.2, dif_neg h.1]

end WakerSet

end Helios.Child
