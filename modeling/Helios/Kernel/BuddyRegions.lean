import Helios.Kernel.TaskArena
import Helios.Library.Buddy
import Helios.Library.DoublyLinked

/-!
# Buddy trees keep a tiling

The blocks of an arena tile it, each held by somebody: it is free, it is a task's, it waits on
the stack of dropped blocks, or the owning processor has it in hand.  A tree shows the tiling
when its lists and its bits are those of the free blocks of its span.  Freeing a block and
allocating one keep this, touch no block that somebody else holds, and leave no two free
buddies.
-/

namespace Helios.Arena

open Memory Option

variable {b c : Block} {cls x : Nat} {span : Nat → Prop}

open Buddy Function List

/-- Who holds a block. -/
inductive Holder where
  | free
  /-- The owning processor, on the way from one of the others to another. -/
  | hand
  | task (task : Nat)
  /-- The stack of dropped blocks. -/
  | stacked
  /-- The chain of dropped blocks that the owning processor took. -/
  | drained
deriving DecidableEq

/-- Who holds each block; nobody holds what is not a block now. -/
abbrev Holding := Block → Option Holder

theorem classBytes_eq (cls : Nat) :
  classBytes cls = size taskArenaAlign cls
  := Nat.shiftLeft_eq _ _

theorem topBytes_eq :
  taskArenaTopBytes = size taskArenaAlign (taskArenaClassCount - 1)
  := Nat.shiftLeft_eq _ _

instance : NeZero taskArenaAlign :=
  ⟨by decide⟩

theorem size_dvd_top (hcls : cls < taskArenaClassCount) :
  size taskArenaAlign cls ∣ taskArenaTopBytes
  := by
  rw [topBytes_eq]
  apply size_dvd_size
  omega

/-! ### Spans -/

namespace BuddyRegion

variable {region : BuddyRegion} {offset : Nat}

/-- The offset lies in the span of the tree. -/
def Has (region : BuddyRegion) (offset : Nat) : Prop :=
  region.start ≤ offset ∧ offset < region.start + region.len

/-- What `new` fixes: a span of whole top blocks, and where the bits of each class are. -/
structure Laid (region : BuddyRegion) : Prop where
  start : taskArenaTopBytes ∣ region.start
  len : taskArenaTopBytes ∣ region.len
  bits : region.classBitBase = bitsBelow region.len
  bound : region.start + region.len < taskArenaBlockNull

section

variable (hlaid : region.Laid) (hb : b.Aligned taskArenaAlign)
  (hlevel : b.level < taskArenaClassCount) (hx : b.Covers taskArenaAlign x)

include hlaid hb hlevel hx

/-- A block that meets the span lies in it. -/
theorem Laid.inside (hhas : region.Has x) :
  region.start ≤ b.start ∧ b.start + size taskArenaAlign b.level ≤ region.start + region.len
  := by
  have hdvd := size_dvd_top hlevel
  exact hb.inside hx (hdvd.trans hlaid.start) (hdvd.trans hlaid.len) hhas.1 hhas.2

theorem Laid.has_of_covers {y : Nat} (hy : b.Covers taskArenaAlign y) (hhas : region.Has x) :
  region.Has y
  := by
  obtain ⟨hlow, hhigh⟩ := hlaid.inside hb hlevel hx hhas
  exact ⟨hlow.trans hy.1, lt_of_lt_of_le hy.2 hhigh⟩

end

/-- The tree computes the buddy from the start of its span, which is the same block. -/
theorem Laid.buddyOf_eq (hlaid : region.Laid) (hcls : cls + 1 < taskArenaClassCount)
    (hb : Block.Aligned taskArenaAlign ⟨offset, cls⟩) (hlow : region.start ≤ offset) :
  region.buddyOf offset cls = (Block.buddy taskArenaAlign ⟨offset, cls⟩).start
  := by
  obtain ⟨m, hm⟩ := dvd_trans (size_dvd_top hcls) hlaid.start
  obtain ⟨q, hq⟩ := hb
  have hpos := size_pos taskArenaAlign cls
  rw [size_succ] at hm
  simp only [buddyOf, Block.buddy, classBytes_eq]
  simp only at hq
  subst hq
  rw [hm] at hlow ⊢
  generalize size taskArenaAlign cls = s at *
  have hstart : 2 * s * m = s * (2 * m) := by ring
  rw [hstart] at hlow ⊢
  have hmq := Nat.le_of_mul_le_mul_left hlow hpos
  rw [← Nat.mul_sub, Nat.mul_div_cancel_left _ hpos, Nat.mul_div_cancel_left _ hpos,
    Block.xor_one, Block.xor_one]
  by_cases heven : q % 2 = 0
  · rw [if_pos heven, if_pos (by omega)]
    calc s * (2 * m) + (q - 2 * m + 1) * s = s * (2 * m + (q - 2 * m) + 1) := by ring
      _ = (q + 1) * s := by rw [Nat.add_sub_cancel' hmq, Nat.mul_comm]
  · rw [if_neg heven, if_neg (by omega)]
    calc s * (2 * m) + (q - 2 * m - 1) * s = (2 * m + (q - 2 * m - 1)) * s := by ring
      _ = (q - 1) * s := by
        congr 1
        omega

/-! ### Bits -/

theorem bitsBelow_le {len cls cls' : Nat} (h : cls < cls') :
  bitsBelow len cls + len / classBytes cls ≤ bitsBelow len cls'
  := by
  induction cls' with
  | zero => exact absurd h (Nat.not_lt_zero _)
  | succ cls' ih =>
    rcases Nat.lt_succ_iff_lt_or_eq.mp h with hlt | rfl
    · exact (ih hlt).trans (Nat.le_add_right _ _)
    · exact le_rfl

theorem Laid.bitIndex_lt (hlaid : region.Laid) (hcls : cls < taskArenaClassCount)
    (hhas : region.Has offset) :
  region.bitIndex offset cls < bitsBelow region.len (cls + 1)
  := by
  have hpos : 0 < classBytes cls := by
    rw [classBytes_eq]
    exact size_pos taskArenaAlign cls
  have hdvd : classBytes cls ∣ region.len := by
    rw [classBytes_eq]
    exact dvd_trans (size_dvd_top hcls) hlaid.len
  rw [bitIndex, hlaid.bits]
  apply Nat.add_lt_add_left
  rw [Nat.div_lt_iff_lt_mul hpos, Nat.div_mul_cancel hdvd]
  obtain ⟨hlow, hhigh⟩ := hhas
  omega

theorem Laid.bitIndex_inj (hlaid : region.Laid) (hb : b.Aligned taskArenaAlign)
    (hc : c.Aligned taskArenaAlign) (hblevel : b.level < taskArenaClassCount)
    (hclevel : c.level < taskArenaClassCount) (hbhas : region.Has b.start)
    (hchas : region.Has c.start)
    (hbits : region.bitIndex b.start b.level = region.bitIndex c.start c.level) :
  b = c
  := by
  have hlt : ∀ b c : Block, b.level < taskArenaClassCount → region.Has b.start →
      b.level < c.level → region.bitIndex b.start b.level < region.bitIndex c.start c.level := by
    intro b c hlevel hhas hlt
    apply lt_of_lt_of_le (hlaid.bitIndex_lt hlevel hhas)
    apply (bitsBelow_le hlt).trans
    rw [bitIndex, hlaid.bits]
    exact Nat.le_add_right _ _
  have hlevel : b.level = c.level := by
    rcases lt_trichotomy b.level c.level with hbc | heq | hcb
    · exact absurd hbits (hlt b c hblevel hbhas hbc).ne
    · exact heq
    · exact absurd hbits (hlt c b hclevel hchas hcb).ne'
  obtain ⟨o, k⟩ := b
  obtain ⟨o', k'⟩ := c
  subst hlevel
  simp only [bitIndex] at hbits
  have hpos := size_pos taskArenaAlign k
  obtain ⟨m, hm⟩ := dvd_trans (size_dvd_top hblevel) hlaid.start
  obtain ⟨q, hq⟩ := hb
  obtain ⟨q', hq'⟩ := hc
  simp only at hm hq hq'
  rw [classBytes_eq, hq, hq', hm, ← Nat.mul_sub, ← Nat.mul_sub,
    Nat.mul_div_cancel_left _ hpos, Nat.mul_div_cancel_left _ hpos] at hbits
  have hmq : m ≤ q := Nat.le_of_mul_le_mul_left (hm ▸ hq ▸ hbhas.1) hpos
  have hmq' : m ≤ q' := Nat.le_of_mul_le_mul_left (hm ▸ hq' ▸ hchas.1) hpos
  have heq : q = q' := by omega
  rw [hq, hq', heq]

end BuddyRegion

/-! ### Headers -/

namespace Memory

variable {memory : Memory} {offset x : Nat}

theorem writeNode_of_ne (node : FreeNode) (h : x ≠ offset) :
  memory.writeNode offset node x = memory x
  := update_of_ne h _ _

theorem node_writeNode (node : FreeNode) (x : Nat) :
  (memory.writeNode offset node).node x = if x = offset then node else memory.node x
  := by
  split_ifs with h
  · simp [h, writeNode, Memory.node]
  · rw [Memory.node, Memory.node, writeNode_of_ne node h]

theorem node_setPrev (prev x : Nat) :
  (memory.setPrev offset prev).node x
    = if x = offset then ⟨(memory.node x).next, prev⟩ else memory.node x
  := by
  rw [setPrev, node_writeNode]
  split
  · rename_i h
    rw [h]
  · rfl

theorem node_setNext (next x : Nat) :
  (memory.setNext offset next).node x
    = if x = offset then ⟨next, (memory.node x).prev⟩ else memory.node x
  := by
  rw [setNext, node_writeNode]
  split
  · rename_i h
    rw [h]
  · rfl

theorem setPrev_of_ne {prev : Nat} (h : x ≠ offset) :
  memory.setPrev offset prev x = memory x
  := writeNode_of_ne _ h

theorem setNext_of_ne {next : Nat} (h : x ≠ offset) :
  memory.setNext offset next x = memory x
  := writeNode_of_ne _ h

end Memory

/-! ### Trees and the tiling -/

/-- The blocks held tile the arena, and no two free buddies below the top class are both
free. -/
structure Tiled (total : Nat) (holding : Holding) : Prop where
  tiling : Tiling taskArenaAlign total holding
  levels : ∀ b, holding b ≠ none → b.level < taskArenaClassCount
  apart : ∀ b, b.level + 1 < taskArenaClassCount → holding b = some .free →
    holding (b.buddy taskArenaAlign) ≠ some .free

/-- The lists and the bits of the tree are those of the free blocks in its span. -/
structure BuddyRegion.Shows (memory : Memory) (region : BuddyRegion) (holding : Holding)
    (lists : Nat → List Nat) : Prop where
  heads : ∀ cls < taskArenaClassCount,
    region.freeHeads cls = (lists cls).headD taskArenaBlockNull
  linked : ∀ cls < taskArenaClassCount,
    DoublyLinked (fun x => (memory.node x).next) (fun x => (memory.node x).prev)
      taskArenaBlockNull taskArenaBlockNull (lists cls)
  nodup : ∀ cls < taskArenaClassCount, (lists cls).Nodup
  mem : ∀ cls < taskArenaClassCount, ∀ offset,
    offset ∈ lists cls ↔ holding ⟨offset, cls⟩ = some .free ∧ region.Has offset
  bits : ∀ b : Block, b.level < taskArenaClassCount → b.Aligned taskArenaAlign →
    region.Has b.start → (region.isFree b.start b.level = true ↔ holding b = some .free)

/-- The holder is not one that a tree over the span may take a block from. -/
def Settled (span : Nat → Prop) (b : Block) (x : Holder) : Prop :=
  span b.start → x ≠ .free ∧ x ≠ .hand

/-- The blocks of settled holders stay as they are, with their bytes. -/
structure Keeps (span : Nat → Prop) (memory : Memory) (holding : Holding) (memory' : Memory)
    (holding' : Holding) : Prop where
  held : ∀ b x, Settled span b x → holding b = some x → holding' b = some x
  back : ∀ b x, Settled span b x → holding' b = some x → holding b = some x
  bytes : ∀ b x, Settled span b x → holding b = some x →
    ∀ a, b.Covers taskArenaAlign a → memory' a = memory a

theorem Keeps.refl (span : Nat → Prop) (memory : Memory) (holding : Holding) :
  Keeps span memory holding memory holding
  := ⟨fun _ _ _ h => h, fun _ _ _ h => h, fun _ _ _ _ _ _ => rfl⟩

variable {holding holding' : Holding} {memory : Memory} {region : BuddyRegion}
  {total offset cls : Nat}

theorem Keeps.trans {memory memory' memory'' : Memory} {holding'' : Holding}
    (h : Keeps span memory holding memory' holding')
    (h' : Keeps span memory' holding' memory'' holding'') :
  Keeps span memory holding memory'' holding''
  := by
  constructor
  · intro b x hx hb
    exact h'.held b x hx (h.held b x hx hb)
  · intro b x hx hb
    exact h.back b x hx (h'.back b x hx hb)
  · intro b x hx hb a ha
    rw [h'.bytes b x hx (h.held b x hx hb) a ha, h.bytes b x hx hb a ha]

/-- The holders that are not the tree keep their blocks. -/
theorem Keeps.same {memory' : Memory} (h : Keeps span memory holding memory' holding') (b : Block)
    (x : Holder) (hx : x ≠ .free) (hx' : x ≠ .hand) :
  holding' b = some x ↔ holding b = some x
  := ⟨h.back b x fun _ => ⟨hx, hx'⟩, h.held b x fun _ => ⟨hx, hx'⟩⟩

namespace BuddyRegion.Shows

variable {memory' : Memory} {lists : Nat → List Nat}

/-- A tree shows a tiling with the same free blocks in its span. -/
theorem congr (h : Shows memory region holding lists)
    (hfree : ∀ b : Block, region.Has b.start →
      (holding' b = some .free ↔ holding b = some .free))
    (hnode : ∀ b : Block, region.Has b.start → holding b = some .free →
      memory' b.start = memory b.start) :
  Shows memory' region holding' lists
  := by
  constructor
  · exact h.heads
  · intro cls hcls
    apply (h.linked cls hcls).congr
    all_goals
      intro x hx
      rw [h.mem cls hcls] at hx
      simp only [Memory.node]
      rw [hnode ⟨x, cls⟩ hx.2 hx.1]
  · exact h.nodup
  · intro cls hcls x
    rw [h.mem cls hcls]
    exact and_congr_left fun hhas => (hfree _ hhas).symm
  · intro b hlevel haligned hhas
    rw [h.bits b hlevel haligned hhas, hfree b hhas]

/-- A tree over another span shows the tiling still. -/
theorem keep (h : Shows memory region holding lists)
    (hkeeps : Keeps span memory holding memory' holding') (hother : ∀ x, region.Has x → ¬ span x) :
  Shows memory' region holding' lists
  := by
  have hsettled : ∀ b : Block, region.Has b.start → Settled span b .free :=
    fun b hhas hspan => absurd hspan (hother _ hhas)
  apply h.congr
  · intro b hhas
    exact ⟨hkeeps.back b _ (hsettled b hhas), hkeeps.held b _ (hsettled b hhas)⟩
  · intro b hhas hb
    exact hkeeps.bytes b _ (hsettled b hhas) hb _ (Block.covers_start b)

theorem start_inj (htiled : Tiled total holding) (hb : holding b ≠ none) (hc : holding c ≠ none)
    (hstart : b.start = c.start) :
  b = c
  := by
  apply htiled.tiling.unique b c b.start hb hc (Block.covers_start b)
  rw [hstart]
  exact Block.covers_start c

theorem lt_null (hlaid : region.Laid) (hhas : region.Has x) :
  x ≠ taskArenaBlockNull
  := by
  have hbound := hlaid.bound
  obtain ⟨_, hhigh⟩ := hhas
  omega

section

variable (h : Shows memory region holding lists) (hlaid : region.Laid)
  (hcls : cls < taskArenaClassCount)

include h hlaid hcls

theorem null_notMem :
  taskArenaBlockNull ∉ lists cls
  := by
  intro hmem
  exact lt_null hlaid ((h.mem cls hcls _).mp hmem).2 rfl

/-- The first block of a class is null exactly when the class has no free block. -/
theorem head_eq_null :
  region.freeHeads cls = taskArenaBlockNull ↔ lists cls = []
  := by
  have hnull := h.null_notMem hlaid hcls
  rw [h.heads cls hcls]
  cases hlist : lists cls with
  | nil => simp
  | cons o l =>
    rw [hlist] at hnull
    simp only [reduceCtorEq, iff_false]
    rintro rfl
    exact hnull mem_cons_self

end

/-! ### Freeing a block -/

theorem pushFree_node (hhead : region.freeHeads cls ≠ offset) (x : Nat) :
  (pushFree memory region offset cls).1.node x
    = if x = offset then ⟨region.freeHeads cls, taskArenaBlockNull⟩
      else if x = region.freeHeads cls ∧ region.freeHeads cls ≠ taskArenaBlockNull then
        ⟨(memory.node x).next, offset⟩
      else memory.node x
  := by
  simp only [pushFree]
  by_cases hnull : region.freeHeads cls = taskArenaBlockNull
  · rw [if_pos hnull, node_writeNode]
    simp [hnull]
  · rw [if_neg hnull, node_setPrev, node_writeNode]
    by_cases hx : x = offset
    · rw [if_neg (fun h => hhead (h.symm.trans hx)), if_pos hx, if_pos hx]
    · simp [hx, hnull]

theorem pushFree_of_ne (hx : x ≠ offset)
    (hhead : x = region.freeHeads cls → region.freeHeads cls = taskArenaBlockNull) :
  (pushFree memory region offset cls).1 x = memory x
  := by
  simp only [pushFree]
  split
  · exact writeNode_of_ne _ hx
  · rename_i hnull
    rw [setPrev_of_ne (fun h => hnull (hhead h))]
    exact writeNode_of_ne _ hx

theorem isFree_setFree (hlaid : region.Laid) (hb : b.Aligned taskArenaAlign)
    (hc : c.Aligned taskArenaAlign) (hblevel : b.level < taskArenaClassCount)
    (hclevel : c.level < taskArenaClassCount) (hbhas : region.Has b.start)
    (hchas : region.Has c.start) (free : Bool) :
  (region.setFree b.start b.level free).isFree c.start c.level
    = if c = b then free else region.isFree c.start c.level
  := by
  have hindex : (region.setFree b.start b.level free).isFree c.start c.level
      = update region.freeBits (region.bitIndex b.start b.level) free
          (region.bitIndex c.start c.level) := rfl
  rw [hindex]
  by_cases heq : c = b
  · rw [if_pos heq, heq, update_self]
  · rw [if_neg heq, update_of_ne, isFree]
    intro hbits
    exact heq (hlaid.bitIndex_inj hc hb hclevel hblevel hchas hbhas hbits)

section

variable (h : Shows memory region holding lists)

include h

theorem head_mem (hcls : cls < taskArenaClassCount)
    (hnull : region.freeHeads cls ≠ taskArenaBlockNull) :
  region.freeHeads cls ∈ lists cls
  := by
  rw [h.heads cls hcls] at hnull ⊢
  cases hlist : lists cls with
  | nil =>
    rw [hlist] at hnull
    exact absurd rfl hnull
  | cons o l => exact mem_cons_self

/-- A block is on the list of one class at most. -/
theorem class_unique (htiled : Tiled total holding) {cls' : Nat} (hcls : cls < taskArenaClassCount)
    (hcls' : cls' < taskArenaClassCount) (hx : x ∈ lists cls) (hx' : x ∈ lists cls') :
  cls' = cls
  := by
  have h₁ := ((h.mem cls hcls x).mp hx).1
  have h₂ := ((h.mem cls' hcls' x).mp hx').1
  have hblock := start_inj htiled (by simp [h₂] : holding ⟨x, cls'⟩ ≠ none)
    (by simp [h₁] : holding ⟨x, cls⟩ ≠ none) rfl
  exact congrArg Block.level hblock

variable (hlaid : region.Laid) (htiled : Tiled total holding) (hcls : cls < taskArenaClassCount)

include hlaid htiled hcls

/-- One block changes hands, and the list of its class and its bit follow. -/
theorem relist {region' : BuddyRegion} {list : List Nat} {holder : Holder}
    (hheld : holding ⟨offset, cls⟩ ≠ none) (hhas : region.Has offset)
    (hspan : ∀ x, region'.Has x ↔ region.Has x)
    (hhead : region'.freeHeads cls = list.headD taskArenaBlockNull)
    (hheads : ∀ cls', cls' ≠ cls → region'.freeHeads cls' = region.freeHeads cls')
    (hlinked : DoublyLinked (fun x => (memory'.node x).next) (fun x => (memory'.node x).prev)
      taskArenaBlockNull taskArenaBlockNull list)
    (hothers : ∀ cls' < taskArenaClassCount, cls' ≠ cls → ∀ x ∈ lists cls', memory'.node x =
      memory.node x) (hnodup : list.Nodup) (hself : offset ∈ list ↔ holder = .free)
    (hmem : ∀ x, x ≠ offset → (x ∈ list ↔ x ∈ lists cls))
    (hbits : ∀ b : Block, region'.isFree b.start b.level = (region.setFree offset cls (decide
      (holder = .free))).isFree b.start b.level) :
  Shows memory' region' (update holding ⟨offset, cls⟩ (some holder)) (update lists cls list)
  := by
  constructor
  · intro cls' hcls'
    rcases eq_or_ne cls' cls with rfl | heq
    · rwa [update_self]
    · rw [update_of_ne heq, hheads cls' heq, h.heads cls' hcls']
  · intro cls' hcls'
    rcases eq_or_ne cls' cls with rfl | heq
    · rwa [update_self]
    · rw [update_of_ne heq]
      apply (h.linked cls' hcls').congr
      all_goals
        intro x hx
        simp only [hothers cls' hcls' heq x hx]
  · intro cls' hcls'
    rcases eq_or_ne cls' cls with rfl | heq
    · rwa [update_self]
    · rw [update_of_ne heq]
      exact h.nodup cls' hcls'
  · intro cls' hcls' x
    rw [hspan]
    have hlisted := h.mem cls' hcls' x
    by_cases heq : cls' = cls
    · subst heq
      by_cases hx : x = offset
      · simp [hx, hself, hhas]
      · simp [hx, hmem x hx, hlisted]
    · simp [heq, hlisted]
  · intro b hlevel haligned hbhas
    rw [hspan] at hbhas
    rw [hbits, isFree_setFree hlaid (htiled.tiling.aligned _ hheld) haligned hcls hlevel hhas hbhas]
    rw [update_apply]
    split_ifs
    · simp
    · exact h.bits b hlevel haligned hbhas

/-- A block in hand is put on the list of its class. -/
theorem pushFree (hhand : holding ⟨offset, cls⟩ = some .hand) (hhas : region.Has offset) :
  Shows (pushFree memory region offset cls).1 (pushFree memory region offset cls).2
    (update holding ⟨offset, cls⟩ (some .free))
    (update lists cls (offset :: lists cls))
  := by
  have hheld : holding ⟨offset, cls⟩ ≠ none := by simp [hhand]
  -- the block is on no list
  have hapart : ∀ cls' < taskArenaClassCount, offset ∉ lists cls' := by
    intro cls' hcls' hmem
    have hfree := ((h.mem cls' hcls' offset).mp hmem).1
    have heq := start_inj htiled hheld (by simp [hfree] : holding ⟨offset, cls'⟩ ≠ none) rfl
    rw [← heq, hhand] at hfree
    cases hfree
  have hhead : region.freeHeads cls ≠ offset := by
    intro heq
    have hnull : region.freeHeads cls ≠ taskArenaBlockNull := by
      rw [heq]
      exact lt_null hlaid hhas
    apply hapart cls hcls
    rw [← heq]
    exact h.head_mem hcls hnull
  have hne : ∀ x ∈ lists cls, x ≠ offset := fun x hx heq => hapart cls hcls (heq ▸ hx)
  apply h.relist hlaid htiled hcls hheld hhas
  · exact fun _ => Iff.rfl
  · simp [BuddyRegion.pushFree, setFree]
  · intro cls' heq
    exact update_of_ne heq _ _
  · have hheads := h.heads cls hcls
    apply (h.linked cls hcls).push (h.nodup cls hcls)
    · rw [pushFree_node hhead, if_pos rfl]
      exact hheads
    · rw [pushFree_node hhead, if_pos rfl]
    · intro x hx
      rw [pushFree_node hhead, if_neg (hne x hx)]
      split <;> rfl
    · intro x hx hxhead
      rw [← hheads] at hxhead
      rw [pushFree_node hhead, if_neg (hne x hx), if_neg (fun h => hxhead h.1)]
    · intro x hx hxhead
      rw [← hheads] at hxhead
      have hnull : region.freeHeads cls ≠ taskArenaBlockNull := by
        rw [← hxhead]
        exact lt_null hlaid ((h.mem cls hcls x).mp hx).2
      rw [pushFree_node hhead, if_neg (hne x hx), if_pos ⟨hxhead, hnull⟩]
  · intro cls' hcls' heq x hx
    have hxoffset : x ≠ offset := fun hxeq => hapart cls' hcls' (hxeq ▸ hx)
    rw [pushFree_node hhead, if_neg hxoffset, if_neg]
    rintro ⟨hxhead, hnull⟩
    have hmem := h.head_mem hcls hnull
    rw [← hxhead] at hmem
    exact heq (h.class_unique htiled hcls hcls' hmem hx)
  · exact nodup_cons.mpr ⟨hapart cls hcls, h.nodup cls hcls⟩
  · simp
  · intro x hx
    simp [hx]
  · exact fun _ => rfl

end

/-! ### Taking a free block -/

theorem removeFree_node (x : Nat) :
  (removeFree memory region offset cls).1.node x
    = ⟨if x = (memory.node offset).prev ∧ (memory.node offset).prev ≠ taskArenaBlockNull then
          (memory.node offset).next else (memory.node x).next,
        if x = (memory.node offset).next ∧ (memory.node offset).next ≠ taskArenaBlockNull then
          (memory.node offset).prev else (memory.node x).prev⟩
  := by
  simp only [removeFree]
  generalize (memory.node offset).next = next
  generalize (memory.node offset).prev = prev
  by_cases hprev : prev = taskArenaBlockNull <;> by_cases hnext : next = taskArenaBlockNull <;>
    simp only [hprev, hnext, node_setPrev, node_setNext, if_true, if_false, ne_eq, not_true,
      not_false_iff, and_true, and_false]
  all_goals split_ifs <;> rfl

theorem removeFree_of_ne
    (hne : x = (memory.node offset).prev ∨ x = (memory.node offset).next → x = taskArenaBlockNull) :
  (removeFree memory region offset cls).1 x = memory x
  := by
  simp only [removeFree]
  generalize (memory.node offset).next = next at *
  generalize (memory.node offset).prev = prev at *
  have hfirst : (if prev = taskArenaBlockNull then memory else memory.setNext prev next) x
      = memory x := by
    split
    · rfl
    · rename_i hnull
      apply setNext_of_ne
      intro hx
      exact hnull (hx.symm.trans (hne (.inl hx)))
  split
  · exact hfirst
  · rename_i hnull
    rw [setPrev_of_ne, hfirst]
    intro hx
    exact hnull (hx.symm.trans (hne (.inr hx)))

/-- The neighbours of a free block on its list are free blocks too. -/
theorem neighbours (h : Shows memory region holding lists) (hcls : cls < taskArenaClassCount)
    (hmem : offset ∈ lists cls)
    (hx : x = (memory.node offset).prev ∨ x = (memory.node offset).next) :
  x = taskArenaBlockNull ∨ x ∈ lists cls
  := by
  obtain ⟨l₁, l₂, hlist⟩ := append_of_mem hmem
  have hlinked := h.linked cls hcls
  rw [hlist] at hlinked ⊢
  obtain ⟨hprev, hnext⟩ := hlinked.neighbours
  rw [hprev, hnext] at hx
  rcases hx with rfl | rfl
  · rcases eq_nil_or_concat l₁ with rfl | ⟨l, p, rfl⟩
    · exact .inl rfl
    · simp
  · cases l₂ with
    | nil => exact .inl rfl
    | cons n l => simp

/-- A free block is taken off the list of its class. -/
theorem removeFree (h : Shows memory region holding lists) (hlaid : region.Laid)
    (htiled : Tiled total holding) (hcls : cls < taskArenaClassCount)
    (hfree : holding ⟨offset, cls⟩ = some .free) (hhas : region.Has offset) :
  ∃ lists', Shows (removeFree memory region offset cls).1
    (removeFree memory region offset cls).2
    (update holding ⟨offset, cls⟩ (some .hand)) lists'
  := by
  have hheld : holding ⟨offset, cls⟩ ≠ none := by simp [hfree]
  have hmem := (h.mem cls hcls offset).mpr ⟨hfree, hhas⟩
  have hnull := h.null_notMem hlaid hcls
  have hnodup := h.nodup cls hcls
  have hlinked := h.linked cls hcls
  have hheads := h.heads cls hcls
  obtain ⟨l₁, l₂, hlist⟩ := append_of_mem hmem
  use update lists cls (l₁ ++ l₂)
  rw [hlist] at hnull hnodup hlinked hheads
  obtain ⟨hprev, hnext⟩ := hlinked.neighbours
  have hsub : ∀ x ∈ l₁ ++ l₂, x ∈ l₁ ++ offset :: l₂ := by
    intro x hx
    rw [mem_append] at hx ⊢
    exact hx.imp_right (mem_cons_of_mem _)
  have hnotMem : offset ∉ l₁ ++ l₂ := (nodup_middle.mp hnodup).notMem
  apply h.relist hlaid htiled hcls hheld hhas
  · intro x
    simp only [BuddyRegion.removeFree]
    split <;> rfl
  · rcases eq_nil_or_concat l₁ with rfl | ⟨l, p, rfl⟩
    · have hfirst : (memory.node offset).prev = taskArenaBlockNull := hprev
      simp only [BuddyRegion.removeFree, hfirst, if_true, setFree, update_self]
      exact hnext
    · have hother : (memory.node offset).prev ≠ taskArenaBlockNull := by
        rw [hprev]
        intro hp
        apply hnull
        rw [← hp]
        simp
      simp only [BuddyRegion.removeFree, if_neg hother, setFree]
      rw [hheads]
      cases l <;> rfl
  · intro cls' heq
    simp only [BuddyRegion.removeFree]
    split
    · exact update_of_ne heq _ _
    · rfl
  · have hne : ∀ x ∈ l₁ ++ l₂, x ≠ taskArenaBlockNull := fun x hx hxnull =>
      hnull (hxnull ▸ hsub x hx)
    apply hlinked.remove hnodup hnull hnull
    all_goals
      intro x hxmem hx
      simp only [removeFree_node]
      first
      | rw [if_neg (fun hp => hx hp.1)]
      | rw [if_pos ⟨hx, hx ▸ hne x hxmem⟩]
  · intro cls' hcls' heq x hx
    have hother : x ∉ lists cls := fun hx' => heq (h.class_unique htiled hcls hcls' hx' hx)
    rw [Memory.node, Memory.node, removeFree_of_ne]
    exact fun hnext => (h.neighbours hcls hmem hnext).resolve_right hother
  · exact (nodup_middle.mp hnodup).of_cons
  · simp [hnotMem]
  · intro x hx
    simp [hlist, hx]
  · intro b
    simp only [BuddyRegion.removeFree]
    split <;> rfl

end BuddyRegion.Shows

/-! ### Trees at work -/

/-- The tree is laid out, the blocks tile the arena, and the tree shows the free ones. -/
structure BuddyRegion.Stands (total : Nat) (memory : Memory) (region : BuddyRegion)
    (holding : Holding) : Prop where
  laid : region.Laid
  tiled : Tiled total holding
  shows : ∃ lists, region.Shows memory holding lists

/-- The one block in hand, if any. -/
def Hands (holding : Holding) (hand : Option Block) : Prop :=
  ∀ b, holding b = some .hand ↔ hand = some b

variable {x : Holder}

/-- A block passes from one holder to another. -/
theorem Tiled.assign {total : Nat} (h : Tiled total holding) (hb : holding b ≠ none) (hbuddy : x =
      .free → b.level + 1 < taskArenaClassCount → holding (b.buddy taskArenaAlign) ≠ some .free) :
  Tiled total (update holding b (some x))
  := by
  have hlevels : ∀ c, update holding b (some x) c ≠ none → holding c ≠ none := by
    intro c hc
    by_cases heq : c = b
    · rw [heq]
      exact hb
    · rwa [update_of_ne heq] at hc
  constructor
  · exact h.tiling.assign hb x
  · intro c hc
    exact h.levels c (hlevels c hc)
  · intro c hlevel hc hcbuddy
    have haligned := h.tiling.aligned c (hlevels c (by simp [hc]))
    by_cases heq : c = b
    · subst heq
      rw [update_self] at hc
      rw [update_of_ne haligned.buddy_ne] at hcbuddy
      exact hbuddy (some.inj hc) hlevel hcbuddy
    · rw [update_of_ne heq] at hc
      by_cases heq' : c.buddy taskArenaAlign = b
      · rw [heq', update_self] at hcbuddy
        have hback : b.buddy taskArenaAlign = c := by
          rw [← heq']
          exact haligned.buddy_buddy
        have hblevel : b.level + 1 < taskArenaClassCount := by
          rw [← heq']
          exact hlevel
        apply hbuddy (some.inj hcbuddy) hblevel
        rw [hback]
        exact hc
      · rw [update_of_ne heq'] at hcbuddy
        exact h.apart c hlevel hc hcbuddy

namespace BuddyRegion.Stands

theorem not_settled {span : Nat → Prop} (hx : x = .free ∨ x = .hand) (hspan : span b.start) :
  ¬ Settled span b x
  := fun hsettled => hx.elim (hsettled hspan).1 (hsettled hspan).2

/-- A change of hands inside the span, of a block that a tree may take, keeps the rest. -/
theorem keeps_assign {memory' : Memory} {y : Holder} (hb : holding b = some x)
    (hx : x = .free ∨ x = .hand) (hy : y = .free ∨ y = .hand) (hhas : region.Has b.start) (hbytes
      : ∀ c z, Settled region.Has c z → holding c = some z → ∀ a, c.Covers taskArenaAlign a →
      memory' a = memory a) :
  Keeps region.Has memory holding memory' (update holding b (some y))
  := by
  have hne : ∀ c z, Settled region.Has c z → holding c = some z → c ≠ b := by
    rintro c z hz hc rfl
    cases hb.symm.trans hc
    exact not_settled hx hhas hz
  constructor
  · intro c z hz hc
    rw [update_of_ne (hne c z hz hc)]
    exact hc
  · intro c z hz hc
    by_cases heq : c = b
    · subst heq
      rw [update_self] at hc
      cases hc
      exact absurd hz (not_settled hy hhas)
    · rwa [update_of_ne heq] at hc
  · exact hbytes

theorem apart_of_settled (htiled : Tiled total holding) {z : Holder} (hb : holding b = some x)
    (hx : x = .free ∨ x = .hand) (hhas : region.Has b.start) (hz : Settled region.Has c z)
    (hc : holding c = some z) {a : Nat} (ha : c.Covers taskArenaAlign a) :
  a ≠ b.start
  := by
  rintro rfl
  have heq := htiled.tiling.unique b c b.start (by simp [hb]) (by simp [hc])
    (Block.covers_start b) ha
  subst heq
  cases hb.symm.trans hc
  exact not_settled hx hhas hz

variable (h : region.Stands total memory holding) (hcls : cls < taskArenaClassCount)

include h hcls

theorem pushFree (hhand : holding ⟨offset, cls⟩ = some .hand) (hhas : region.Has offset)
    (hbuddy : cls + 1 < taskArenaClassCount →
      holding (Block.buddy taskArenaAlign ⟨offset, cls⟩) ≠ some .free) :
  (BuddyRegion.pushFree memory region offset cls).2.Stands total
      (BuddyRegion.pushFree memory region offset cls).1
      (update holding ⟨offset, cls⟩ (some .free))
    ∧ Keeps region.Has memory holding (BuddyRegion.pushFree memory region offset cls).1
        (update holding ⟨offset, cls⟩ (some .free))
  := by
  obtain ⟨lists, hshows⟩ := h.shows
  constructor
  · constructor
    · exact { h.laid with }
    · apply h.tiled.assign (by simp [hhand])
      intro _
      exact hbuddy
    · exact ⟨_, hshows.pushFree h.laid h.tiled hcls hhand hhas⟩
  · apply keeps_assign hhand (.inr rfl) (.inl rfl) hhas
    intro c z hz hc a ha
    apply Shows.pushFree_of_ne
    · exact apart_of_settled h.tiled hhand (.inr rfl) hhas hz hc ha
    · intro hhead
      by_contra hnull
      obtain ⟨hfree, hin⟩ := (hshows.mem cls hcls _).mp (hshows.head_mem hcls hnull)
      exact apart_of_settled h.tiled hfree (.inl rfl) hin hz hc ha hhead

theorem removeFree (hfree : holding ⟨offset, cls⟩ = some .free) (hhas : region.Has offset) :
  (BuddyRegion.removeFree memory region offset cls).2.Stands total
      (BuddyRegion.removeFree memory region offset cls).1
      (update holding ⟨offset, cls⟩ (some .hand))
    ∧ Keeps region.Has memory holding (BuddyRegion.removeFree memory region offset cls).1
        (update holding ⟨offset, cls⟩ (some .hand))
  := by
  obtain ⟨lists, hshows⟩ := h.shows
  constructor
  · constructor
    · simp only [BuddyRegion.removeFree]
      split <;> exact { h.laid with }
    · apply h.tiled.assign (by simp [hfree])
      rintro ⟨⟩
    · exact hshows.removeFree h.laid h.tiled hcls hfree hhas
  · apply keeps_assign hfree (.inl rfl) (.inr rfl) hhas
    intro c z hz hc a ha
    apply Shows.removeFree_of_ne
    intro hnext
    -- what it writes are its neighbours on the list, which are free too
    have hmem := (hshows.mem cls hcls _).mpr ⟨hfree, hhas⟩
    apply (hshows.neighbours hcls hmem hnext).resolve_right
    intro hin
    obtain ⟨hafree, hahas⟩ := (hshows.mem cls hcls a).mp hin
    exact apart_of_settled h.tiled hafree (.inl rfl) hahas hz hc ha rfl

end BuddyRegion.Stands

/-! ### Splitting and merging in hand -/

/-- A change of the tiling inside the span, among the blocks in hand, keeps the rest. -/
theorem Keeps.of_holding {memory : Memory}
    (hin : ∀ b x, x ≠ .hand → (holding' b = some x ↔ holding b = some x))
    (hout : ∀ b, ¬ span b.start → holding' b = holding b) :
  Keeps span memory holding memory holding'
  := by
  have hsame : ∀ b x, Settled span b x → (holding' b = some x ↔ holding b = some x) := by
    intro b x hx
    by_cases hspan : span b.start
    · exact hin b x (hx hspan).2
    · rw [hout b hspan]
  exact ⟨fun b x hx => (hsame b x hx).mpr, fun b x hx => (hsame b x hx).mp, fun _ _ _ _ _ _ => rfl⟩

section Hand

theorem Hands.held (h : Hands holding (some b)) :
  holding b = some .hand
  := (h b).mpr rfl

section

variable (h : region.Stands total memory holding)

include h

/-- A tiling with the same free blocks stands under the same tree. -/
theorem BuddyRegion.Stands.retile (htiling : Tiling taskArenaAlign total holding')
    (hlevels : ∀ b, holding' b ≠ none → b.level < taskArenaClassCount)
    (hfree : ∀ b, holding' b = some .free ↔ holding b = some .free) :
  region.Stands total memory holding'
  := by
  obtain ⟨lists, hshows⟩ := h.shows
  constructor
  · exact h.laid
  · constructor
    · exact htiling
    · exact hlevels
    · intro c hlevel hc hbuddy
      rw [hfree] at hc hbuddy
      exact h.tiled.apart c hlevel hc hbuddy
  · use lists
    apply hshows.congr
    · intro c _
      exact hfree c
    · intro c _ _
      rfl

/-- The block in hand is split, both halves in hand. -/
theorem BuddyRegion.Stands.split (hhands : Hands holding (some b)) (hhas : region.Has b.start)
    (hlevel : 0 < b.level) :
  region.Stands total memory (split taskArenaAlign holding b .hand .hand)
    ∧ Keeps region.Has memory holding memory (split taskArenaAlign holding b .hand .hand)
    ∧ ∀ c, split taskArenaAlign holding b .hand .hand c = some .hand
        ↔ c = b.lower ∨ c = b.upper taskArenaAlign
  := by
  have hb := hhands.held
  have hheld : holding b ≠ none := by simp [hb]
  have haligned := h.tiled.tiling.aligned b hheld
  have hblevel := h.tiled.levels b hheld
  have hsame : ∀ c x, x ≠ Holder.hand →
      (Buddy.split taskArenaAlign holding b .hand .hand c = some x ↔ holding c = some x) :=
    fun c x hx => h.tiled.tiling.split_eq_some hb hlevel hx hx hx c
  have hne := @split_ne_none _ taskArenaAlign holding b .hand .hand _ hlevel
  refine ⟨?_, ?_, ?_⟩
  · apply h.retile
    · exact h.tiled.tiling.split hheld hlevel _ _
    · intro c hc
      rcases (hne c).mp hc with (rfl | rfl) | ⟨_, hc⟩
      · exact lt_of_le_of_lt (Nat.sub_le _ _) hblevel
      · exact lt_of_le_of_lt (Nat.sub_le _ _) hblevel
      · exact h.tiled.levels c hc
    · intro c
      exact hsame c .free nofun
  · apply Keeps.of_holding hsame
    intro c hc
    have hspan : ∀ d : Block, b.Covers taskArenaAlign d.start → c ≠ d := by
      rintro d hd rfl
      exact hc (h.laid.has_of_covers haligned hblevel (Block.covers_start b) hd hhas)
    apply split_of_ne
    · exact hspan b (Block.covers_start b)
    · exact hspan b.lower (Block.covers_start b)
    · exact hspan (b.upper _)
        ((Block.covers_halves hlevel).mpr (.inr (Block.covers_start _)))
  · intro c
    constructor
    · intro hc
      have hheld : Buddy.split taskArenaAlign holding b .hand .hand c ≠ none := by simp [hc]
      rcases (hne c).mp hheld with hhalf | ⟨hcb, _⟩
      · exact hhalf
      · by_contra hhalf
        rw [not_or] at hhalf
        rw [split_of_ne hcb hhalf.1 hhalf.2, hhands c] at hc
        exact hcb (some.inj hc).symm
    · rintro (rfl | rfl)
      · exact split_lower
      · exact split_upper

/-- The block in hand is merged with its free buddy, which is taken off its list. -/
theorem BuddyRegion.Stands.merge
    (hhands : ∀ c, holding c = some .hand ↔ c = b ∨ c = b.buddy taskArenaAlign)
    (hhas : region.Has b.start) (hlevel : b.level + 1 < taskArenaClassCount) :
  region.Stands total memory (merge taskArenaAlign holding b .hand)
    ∧ Keeps region.Has memory holding memory (merge taskArenaAlign holding b .hand)
    ∧ Hands (merge taskArenaAlign holding b .hand) (some (b.merged taskArenaAlign))
    ∧ region.Has (b.merged taskArenaAlign).start
  := by
  have hb : holding b = some .hand := (hhands b).mpr (.inl rfl)
  have hbuddy : holding (b.buddy taskArenaAlign) = some .hand := (hhands _).mpr (.inr rfl)
  have hheld : holding b ≠ none := by simp [hb]
  have haligned := h.tiled.tiling.aligned b hheld
  have hsame : ∀ c x, x ≠ Holder.hand →
      (Buddy.merge taskArenaAlign holding b .hand c = some x ↔ holding c = some x) :=
    fun c x hx => h.tiled.tiling.merge_eq_some hb hbuddy hx hx hx c
  have hspan : ∀ x, (b.merged taskArenaAlign).Covers taskArenaAlign x → region.Has x := by
    intro x hx
    have hcover := haligned.merged_covers.mpr (.inl (Block.covers_start b))
    exact h.laid.has_of_covers haligned.merged hlevel hcover hx hhas
  refine ⟨?_, ?_, ?_, hspan _ (Block.covers_start _)⟩
  · apply h.retile
    · exact h.tiled.tiling.merge hheld (by simp [hbuddy]) _
    · intro c hc
      rcases (merge_ne_none c).mp hc with rfl | ⟨_, hc⟩
      · exact hlevel
      · exact h.tiled.levels c hc
    · intro c
      exact hsame c .free nofun
  · apply Keeps.of_holding hsame
    intro c hc
    apply merge_of_ne
    · rintro rfl
      exact hc hhas
    · rintro rfl
      exact hc (hspan _ (haligned.merged_covers.mpr
        (.inr (Block.covers_start _))))
    · rintro rfl
      exact hc (hspan _ (Block.covers_start _))
  · intro c
    constructor
    · intro hc
      have hne : Buddy.merge taskArenaAlign holding b .hand c ≠ none := by simp [hc]
      rcases (merge_ne_none c).mp hne with rfl | ⟨hold, _⟩
      · rfl
      · by_contra hmerged
        rw [merge_of_ne (fun h => hold (.inl h)) (fun h => hold (.inr h))
          (fun h => hmerged (congrArg some h.symm)), hhands] at hc
        exact hold hc
    · intro hc
      rw [← some.inj hc]
      exact merge_merged

end

end Hand

end Helios.Arena
