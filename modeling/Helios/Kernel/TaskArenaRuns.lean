import Helios.Kernel.TaskArenaSteps

/-!
# The task arena is an exact buddy allocator

Every run of the processors keeps the tiling, from the new arena on, and none of the arena's
own assertions fails.  What can be seen in the arena follows: the blocks of the tasks are
disjoint, every byte is in exactly one block, a request fails only when no aligned run of its
size is free, and the top blocks come back when every task has gone.
-/

namespace Helios.Arena

variable {size : Nat} {system : System} {holding : Holding}

open Buddy Function BuddyRegion Transition TaskArena List Nat Option

/-! ### The new arena -/

/-- The top blocks below the offset are free, the others in hand. -/
def topsFrom (total offset : Nat) : Holding := fun b =>
  if b.level = taskArenaClassCount - 1 ∧ taskArenaTopBytes ∣ b.start
      ∧ b.start + taskArenaTopBytes ≤ total then
    some (if b.start < offset then .free else .hand)
  else
    none

section New

variable {memory : Memory} {arenaBytes : Nat} {arena : TaskArena}

variable {total offset : Nat}

theorem topsFrom_ne_none (b : Block) :
  topsFrom total offset b ≠ none
    ↔ b.level = taskArenaClassCount - 1 ∧ taskArenaTopBytes ∣ b.start
      ∧ b.start + taskArenaTopBytes ≤ total
  := by
  rw [topsFrom]
  split <;> simp_all

theorem topsFrom_eq_free (b : Block) :
  topsFrom total offset b = some .free
    ↔ (b.level = taskArenaClassCount - 1 ∧ taskArenaTopBytes ∣ b.start
      ∧ b.start + taskArenaTopBytes ≤ total) ∧ b.start < offset
  := by
  rw [topsFrom]
  split_ifs <;> simp_all

theorem topsFrom_eq_hand (b : Block) :
  topsFrom total offset b = some .hand
    ↔ (b.level = taskArenaClassCount - 1 ∧ taskArenaTopBytes ∣ b.start
      ∧ b.start + taskArenaTopBytes ≤ total) ∧ offset ≤ b.start
  := by
  rw [topsFrom]
  split_ifs <;> simp_all

/-- The top block around a byte of whole top blocks ends inside them. -/
theorem topEnd_le (htotal : taskArenaTopBytes ∣ total) {x : Nat} (hx : x < total) :
  x / taskArenaTopBytes * taskArenaTopBytes + taskArenaTopBytes ≤ total
  := by
  obtain ⟨n, rfl⟩ := htotal
  rw [← succ_mul, mul_comm]
  exact mul_le_mul_left _ (Nat.div_lt_of_lt_mul hx)

theorem topsFrom_tiled (htotal : taskArenaTopBytes ∣ total) (offset : Nat) :
  Tiled total (topsFrom total offset)
  := by
  have hpos : 0 < taskArenaTopBytes := by decide
  have hlevel : ∀ b, topsFrom total offset b ≠ none →
      size taskArenaAlign b.level = taskArenaTopBytes := by
    intro b hb
    rw [((topsFrom_ne_none b).mp hb).1, topBytes_eq]
  have haligned : ∀ b, topsFrom total offset b ≠ none → b.Aligned taskArenaAlign := by
    intro b hb
    rw [Block.Aligned, hlevel b hb]
    exact ((topsFrom_ne_none b).mp hb).2.1
  constructor
  · constructor
    · exact haligned
    · intro b hb
      rw [hlevel b hb]
      exact ((topsFrom_ne_none b).mp hb).2.2
    · intro x hx
      have hdiv := div_mul_le_self x taskArenaTopBytes
      have hlt := lt_div_mul_add hpos (a := x)
      have hheld : topsFrom total offset
          ⟨x / taskArenaTopBytes * taskArenaTopBytes, taskArenaClassCount - 1⟩ ≠ none := by
        rw [topsFrom_ne_none]
        exact ⟨rfl, dvd_mul_left _ _, topEnd_le htotal hx⟩
      refine ⟨_, hheld, hdiv, ?_⟩
      rw [hlevel _ hheld]
      exact hlt
    · intro b c x hb hc hbx hcx
      have hlevels : b.level = c.level :=
        ((topsFrom_ne_none b).mp hb).1.trans ((topsFrom_ne_none c).mp hc).1.symm
      exact (haligned b hb).eq_of_level (haligned c hc) hlevels hbx hcx
  · intro b hb
    rw [((topsFrom_ne_none b).mp hb).1]
    decide
  · intro b hlevel hb
    rw [((topsFrom_eq_free b).mp hb).1.1] at hlevel
    exact absurd hlevel (by decide)

theorem topsFrom_succ (hoffset : taskArenaTopBytes ∣ offset)
    (hinside : offset + taskArenaTopBytes ≤ total) :
  update (topsFrom total offset) ⟨offset, taskArenaClassCount - 1⟩ (some .free)
    = topsFrom total (offset + taskArenaTopBytes)
  := by
  have hpos : 0 < taskArenaTopBytes := by decide
  funext b
  rw [update_apply]
  split_ifs with heq
  · rw [heq, eq_comm, topsFrom_eq_free]
    exact ⟨⟨rfl, hoffset, hinside⟩, Nat.lt_add_of_pos_right hpos⟩
  · rw [topsFrom, topsFrom]
    split
    · rename_i htop
      have hne : b.start ≠ offset := by
        intro hstart
        apply heq
        exact congrArg₂ Block.mk hstart htop.1
      -- between the two offsets no top block starts
      have hiff : b.start < offset ↔ b.start < offset + taskArenaTopBytes := by
        constructor
        · omega
        · intro hlt
          by_contra hle
          have hzero := eq_zero_of_dvd_of_lt (Nat.dvd_sub htop.2.1 hoffset)
            (show b.start - offset < taskArenaTopBytes by omega)
          omega
      simp only [hiff]
    · rfl

/-- A new tree frees its top blocks in turn. -/
theorem BuddyRegion.Stands.pushTops {region : BuddyRegion} {memory : Memory} {n : Nat}
    (h : region.Stands total memory (topsFrom total offset))
    (hoffset : taskArenaTopBytes ∣ offset) (hinside : offset + n * taskArenaTopBytes ≤ total)
    (hhas : ∀ x, offset ≤ x → x < offset + n * taskArenaTopBytes → region.Has x) :
  ∃ memory' region', pushTops memory region offset n = (memory', region')
    ∧ region'.Stands total memory' (topsFrom total (offset + n * taskArenaTopBytes))
    ∧ Keeps region.Has memory (topsFrom total offset) memory'
        (topsFrom total (offset + n * taskArenaTopBytes))
    ∧ region'.start = region.start ∧ region'.len = region.len
  := by
  induction n generalizing memory region offset with
  | zero =>
    refine ⟨memory, region, rfl, ?_, ?_, rfl, rfl⟩
    · exact h
    · exact Keeps.refl _ _ _
  | succ n ih =>
    have hpos : 0 < taskArenaTopBytes := by decide
    have hsucc : offset + (n + 1) * taskArenaTopBytes
        = offset + taskArenaTopBytes + n * taskArenaTopBytes := by ring
    rw [hsucc] at hinside hhas ⊢
    have hfirst : offset + taskArenaTopBytes ≤ total := by omega
    have hhand : topsFrom total offset ⟨offset, taskArenaClassCount - 1⟩ = some .hand := by
      rw [topsFrom_eq_hand]
      exact ⟨⟨rfl, hoffset, hfirst⟩, le_rfl⟩
    have hin : region.Has offset := hhas offset le_rfl (by omega)
    obtain ⟨hstands, hkeeps⟩ := @Stands.pushFree _ _ _ _ offset
      (taskArenaClassCount - 1) h (by decide) hhand hin (fun hlt => absurd hlt (by decide))
    rw [topsFrom_succ hoffset hfirst] at hstands hkeeps
    obtain ⟨memory', region', hrun, hstands', hkeeps', hstart, hlen⟩ := ih hstands
      (Nat.dvd_add hoffset dvd_rfl) hinside (fun x hlow hhigh => hhas x (by omega) hhigh)
    exact ⟨memory', region', hrun, hstands', hkeeps.trans hkeeps', hstart, hlen⟩

theorem empty_stands {start len : Nat} {memory : Memory} (htotal : taskArenaTopBytes ∣ total)
    (hstart : taskArenaTopBytes ∣ start) (hlen : taskArenaTopBytes ∣ len)
    (hbound : start + len < taskArenaBlockNull) :
  Stands total memory
    { start, len, freeHeads := fun _ => taskArenaBlockNull, freeBits := fun _ => false,
      classBitBase := bitsBelow len }
    (topsFrom total start)
  := by
  have hnone : ∀ b : Block, topsFrom total start b = some .free → ¬ start ≤ b.start := by
    intro b hb hle
    have hlt := ((topsFrom_eq_free b).mp hb).2
    omega
  refine ⟨⟨hstart, hlen, rfl, hbound⟩, topsFrom_tiled htotal start, fun _ => [], ?_⟩
  constructor
  · intro cls _
    rfl
  · intro cls _
    trivial
  · intro cls _
    exact nodup_nil
  · intro cls _ x
    simp only [not_mem_nil, false_iff, not_and]
    intro hx hhas
    exact hnone _ hx hhas.1
  · intro b _ _ hhas
    simp only [isFree, Bool.false_eq_true, false_iff]
    intro hb
    exact hnone b hb hhas.1

theorem new_stands {start len : Nat} (memory : Memory) (htotal : taskArenaTopBytes ∣ total)
    (hstart : taskArenaTopBytes ∣ start) (hlen : taskArenaTopBytes ∣ len) (hne : len ≠ 0)
    (hinside : start + len ≤ total) (hbound : total < taskArenaBlockNull) :
  ∃ memory' region', new memory start len = .ok (memory', region')
    ∧ region'.Stands total memory' (topsFrom total (start + len))
    ∧ Keeps (fun x => start ≤ x ∧ x < start + len) memory (topsFrom total start) memory'
        (topsFrom total (start + len))
    ∧ region'.start = start ∧ region'.len = len
  := by
  have hcount : len / taskArenaTopBytes * taskArenaTopBytes = len := Nat.div_mul_cancel hlen
  have hempty := @empty_stands total start len memory htotal hstart hlen (by omega)
  obtain ⟨memory', region', hrun, hstands, hkeeps, hstart', hlen'⟩ :=
    @Stands.pushTops _ _ _ _ (len / taskArenaTopBytes) hempty hstart
      (by rw [hcount]; exact hinside) (by
        rw [hcount]
        intro x hlow hhigh
        exact ⟨hlow, hhigh⟩)
  rw [hcount] at hstands hkeeps
  refine ⟨memory', region', ?_, hstands, hkeeps, hstart', hlen'⟩
  simp only [new]
  rw [if_pos ⟨hne, mod_eq_zero_of_dvd hlen⟩, hrun]

variable (hnew : newShared memory arenaBytes = .ok arena)

include hnew

theorem newShared_eq :
  ∃ total share, total = share + taskArenaKernelReserveBytes ∧ taskArenaTopBytes ∣ total
    ∧ taskArenaTopBytes ∣ share ∧ share ≠ 0 ∧ total < taskArenaBlockNull
    ∧ ∃ memory₁ share' memory₂ reserve', new memory 0 share = .ok (memory₁, share')
    ∧ new memory₁ share taskArenaKernelReserveBytes = .ok (memory₂, reserve')
    ∧ arena = {
        memory := memory₂, totalBytes := total, shareBytes := share
        regions := fun
          | .instance_ => share'
          | .kernelReserve => reserve'
        remoteFree := taskArenaBlockNull
        active := 0
        instanceActive := 0 }
  := by
  have hpos : 0 < taskArenaTopBytes := by decide
  have hnull : 2 ^ 63 - taskArenaAlign < taskArenaBlockNull := by decide
  have hkernel : taskArenaTopBytes ∣ taskArenaKernelReserveBytes := dvd_rfl
  simp only [newShared] at hnew
  split at hnew
  · cases hnew
  split at hnew
  · cases hnew
  have hdvd : taskArenaTopBytes ∣ arenaBytes / taskArenaTopBytes * taskArenaTopBytes :=
    dvd_mul_left _ _
  generalize arenaBytes / taskArenaTopBytes * taskArenaTopBytes = total at *
  generalize hsplit : total - taskArenaKernelReserveBytes = share at *
  have hshare : taskArenaTopBytes ∣ share := by
    rw [← hsplit]
    exact Nat.dvd_sub hdvd hkernel
  refine ⟨total, share, by omega, hdvd, hshare, by omega, by omega, ?_⟩
  obtain ⟨⟨memory₁, share'⟩, hnew₁, hnew⟩ := bind_eq_ok hnew
  obtain ⟨⟨memory₂, reserve'⟩, hnew₂, hnew⟩ := bind_eq_ok hnew
  exact ⟨memory₁, share', memory₂, reserve', hnew₁, hnew₂, (Except.ok.inj hnew).symm⟩

theorem newShared_holds {tasks : Nat → TaskPc} (htasks : ∀ task, tasks task = .absent) :
  ∃ holding, System.Holds ⟨arena, .idle, tasks⟩ holding
  := by
  have hpos : 0 < taskArenaTopBytes := by decide
  obtain ⟨total, share, hsum, hdvd, hshare, hne, hbound, memory₁, share', memory₂, reserve',
    hnew₁, hnew₂, harena⟩ := newShared_eq hnew
  obtain ⟨_, _, hrun₁, hstands₁, _, hstart₁, hlen₁⟩ :=
    new_stands memory hdvd (dvd_zero _) hshare hne (by omega) hbound
  rw [hnew₁] at hrun₁
  cases hrun₁
  obtain ⟨_, _, hrun₂, hstands₂, hkeeps₂, hstart₂, hlen₂⟩ :=
    @new_stands _ share taskArenaKernelReserveBytes memory₁ hdvd hshare dvd_rfl (by decide)
      (by omega) hbound
  rw [hnew₂] at hrun₂
  cases hrun₂
  rw [zero_add] at hstands₁
  rw [← hsum] at hstands₂ hkeeps₂
  subst harena
  use topsFrom total total
  have hfree : ∀ x, x ≠ .free → ∀ b, topsFrom total total b ≠ some x := by
    intro x hx b hb
    have hheld := (topsFrom_ne_none b).mp (by rw [hb]; nofun)
    have hlt : b.start < total := lt_of_lt_of_le (Nat.lt_add_of_pos_right hpos) hheld.2.2
    have hbfree := (topsFrom_eq_free b).mpr ⟨hheld, hlt⟩
    rw [hb] at hbfree
    exact hx (some.inj hbfree)
  constructor
  · exact ⟨hsum, hstart₁, hlen₁, hstart₂, hlen₂⟩
  · rintro (_ | _)
    · obtain ⟨lists, hshows⟩ := hstands₁.shows
      refine ⟨hstands₁.laid, hstands₂.tiled, lists, hshows.keep hkeeps₂ ?_⟩
      intro x hx hx'
      have hhigh := hx.2
      omega
    · exact hstands₂
  · intro b
    simp [hfree .hand nofun b]
  · refine ⟨[], rfl, nodup_nil, ?_⟩
    simp [hfree .stacked nofun]
  · refine ⟨[], rfl, nodup_nil, ?_⟩
    simp [hfree .drained nofun]
  · intro task b
    dsimp only
    rw [htasks]
    exact ⟨fun hb => absurd hb (hfree (.task task) nofun b), nofun⟩
  · intro task b hb
    dsimp only at hb
    rw [htasks] at hb
    cases hb
  · nofun
  · refine ⟨[], nodup_nil, ?_, rfl, rfl⟩
    simp [htasks, TaskPc.counted]

end New

/-! ### Steps and runs -/

/-- The assertions that a request can fail: they are about its future, or about a kernel out of
memory. -/
def Panic.OfRequest : Panic → Prop
  | .exceedsLargest _ => True
  | .exceedsAlignment => True
  | .exhausted _ => True
  | _ => False

/-- What a step of a processor may come to. -/
def System.Goes (result : Except Fault System) : Prop :=
  match result with
  | .ok system' => ∃ holding', system'.Holds holding'
  | .error (.panic panic) => panic.OfRequest
  | .error .disabled => True

theorem blockClass_lt {cls : Nat} (h : blockClass size = .ok cls) :
  cls < taskArenaClassCount
  := by
  simp only [blockClass] at h
  split at h <;> cases h
  rename_i hlt
  exact hlt

theorem blockClass_error {panic : Panic} (h : blockClass size = .error panic) :
  panic.OfRequest
  := by
  simp only [blockClass] at h
  split at h <;> cases h
  trivial

namespace System.Holds

section

variable (h : system.Holds holding)
include h

theorem spawn_goes (task size align : Nat) (funding : TaskFunding) :
  System.Goes (system.spawn task size align funding)
  := by
  rw [System.spawn]
  split
  · rename_i hready
    split
    · cases hclass : blockClass size with
      | error panic => exact blockClass_error hclass
      | ok cls => exact ⟨_, h.spawn hready.1 hready.2 (blockClass_lt hclass)⟩
    · trivial
  · trivial

theorem owner_goes :
  System.Goes system.stepOwner
  := by
  rw [stepOwner]
  cases howner : system.owner with
  | idle => trivial
  | draining task cls funding cursor =>
    dsimp only
    split_ifs with hcursor
    · rw [System.place]
      rcases takeBlock_cases h.stands h.hands cls funding with
        ⟨hnone, _⟩ | ⟨which, huse, offset, memory', region', holding', hsome, hturns, hhas⟩
      · rw [hnone]
        cases funding with
        | kernel => trivial
        | instance_ => exact ⟨_, h.refuse howner hcursor _⟩
      · rw [hsome]
        exact ⟨_, h.place howner hcursor huse hturns hhas⟩
    · obtain ⟨l, hchain⟩ := h.chain
      rw [howner] at hchain
      cases l with
      | nil => exact absurd hchain.chains hcursor
      | cons b l =>
        obtain ⟨next, arena', holding', hdrain, _, _, hholds⟩ := h.drain howner hchain
        rw [hdrain]
        exact ⟨holding', hholds⟩

theorem write_goes (task granule : Nat) (words : Words) :
  System.Goes (system.write task granule words)
  := by
  rw [System.write]
  split
  · rename_i offset cls funding htask
    split
    · rename_i hinside
      have hblock : (system.tasks task).block = some ⟨offset, cls⟩ := by rw [htask]; rfl
      refine ⟨holding, h.rewrite hblock ?_⟩
      intro x hx
      apply update_of_ne
      rintro rfl
      apply hx
      rw [classBytes_eq] at hinside
      exact ⟨Nat.le_add_right _ _, Nat.add_lt_add_left hinside _⟩
    · trivial
  · trivial

theorem drop_goes (task : Nat) :
  System.Goes (system.drop task)
  := by
  rw [System.drop]
  split
  · rename_i offset cls funding htask
    exact ⟨holding, h.retask htask rfl rfl rfl rfl (h.waiting_ne (by rw [htask]; nofun))⟩
  · trivial

theorem publish_goes (task : Nat) (spurious : Bool) :
  System.Goes (system.publish task spurious)
  := by
  rw [System.publish]
  split
  · rename_i offset cls funding head htask
    -- either way the header is written into the task's own block
    have hblock : (system.tasks task).block = some ⟨offset, cls⟩ := by rw [htask]; rfl
    have hbytes : ∀ x, ¬ Block.Covers taskArenaAlign ⟨offset, cls⟩ x →
        system.arena.memory.writeRemoteNode offset ⟨head, cls⟩ x = system.arena.memory x := by
      intro x hx
      apply update_of_ne
      rintro rfl
      exact hx (Block.covers_start _)
    have hwritten := h.rewrite hblock hbytes
    split
    · rename_i hhead
      refine ⟨_, hwritten.publish htask hhead.1 ?_⟩
      simp [Memory.remoteNode, Memory.writeRemoteNode]
    · refine ⟨holding, hwritten.retask htask rfl rfl rfl rfl (hwritten.waiting_ne ?_)⟩
      rw [htask]
      rintro ⟨⟩
  · trivial

theorem count_goes (task : Nat) :
  System.Goes (system.count task)
  := by
  rw [System.count]
  split
  · rename_i funding htask
    obtain ⟨arena', hcount, hholds⟩ := h.count htask
    rw [hcount]
    exact ⟨holding, hholds⟩
  · trivial

end

end System.Holds

/-- The result of the step of the operation, without its output. -/
def System.result (system : System) : Op → Except Fault System
  | .spawn task size align funding => system.spawn task size align funding
  | .owner => system.stepOwner
  | .write task granule words => system.write task granule words
  | .drop task => system.drop task
  | .publish task spurious => system.publish task spurious
  | .count task => system.count task

theorem System.step_eq (system : System) (op : Op) :
  system.step op = (system.result op).map (·, ())
  := by
  cases op <;> rfl

/-- Every step keeps the tiling, and no assertion of the arena fails. -/
theorem System.Holds.goes {holding : Holding} (h : system.Holds holding) (op : Op) :
  System.Goes (system.result op)
  := by
  cases op with
  | spawn task size align funding => apply h.spawn_goes
  | owner => apply h.owner_goes
  | write task granule words => apply h.write_goes
  | drop task => apply h.drop_goes
  | publish task spurious => apply h.publish_goes
  | count task => apply h.count_goes

/-- The tiling is kept in every run. -/
theorem holds_of_reachable
    (h : Reachable System.step System.Fresh (fun _ _ => True) system) :
  ∃ holding, system.Holds holding
  := by
  apply @Reachable.invariant _ _ _ _ _ _ _ (fun s => ∃ holding, System.Holds s holding)
    _ _ _ h
  · rintro ⟨arena, owner, tasks⟩ ⟨memory, arenaBytes, hnew, howner, htasks⟩
    subst howner
    exact newShared_holds hnew htasks
  · rintro s op s' out ⟨holding, hholds⟩ _ hstep
    rw [System.step_eq] at hstep
    obtain ⟨s₁, hresult, heq⟩ := map_eq_ok hstep
    have hgoes := hholds.goes op
    rw [hresult] at hgoes
    cases heq
    exact hgoes

/-! ### What can be seen in the arena -/

/-- The offset is met when the links are followed from the head. -/
inductive OnList (memory : Memory) : Nat → Nat → Prop where
  | here {head : Nat} : head ≠ taskArenaBlockNull → OnList memory head head
  | next {head x : Nat} : head ≠ taskArenaBlockNull → OnList memory (memory head).first x →
      OnList memory head x

/-- Where a block is. -/
inductive Place where
  /-- It is a task's that has not yet given it back. -/
  | live (task : Nat)
  /-- It is on the free list of its class. -/
  | free
  /-- It is on the stack of dropped blocks, or still on the chain that the owner took from
  there. -/
  | dropped

/-- Where the holder has its blocks. -/
def Holder.place : Holder → Option Place
  | .free => some .free
  | .hand => none
  | .task owner => some (.live owner)
  | .stacked | .drained => some .dropped

/-- The block is at the place. -/
def System.At (system : System) : Place → Block → Prop
  | .live task, b => (system.tasks task).block = some b
  | .free, b => b.level < taskArenaClassCount
      ∧ ∃ which, OnList system.arena.memory ((system.arena.regions which).freeHeads b.level)
          b.start
  | .dropped, b => (OnList system.arena.memory system.arena.remoteFree b.start
      ∨ OnList system.arena.memory system.owner.cursor b.start)
      ∧ (system.arena.memory.remoteNode b.start).cls = b.level

section Views

variable {cursor : Nat} {l : List Block}

variable {memory : Memory}

theorem onList_null (x : Nat) :
  ¬ OnList memory taskArenaBlockNull x
  := by
  rintro (⟨hne⟩ | ⟨hne, _⟩)
  · exact hne rfl
  · exact hne rfl

theorem onList_of_ne {head x : Nat} (hne : head ≠ taskArenaBlockNull) :
  OnList memory head x ↔ x = head ∨ OnList memory (memory head).first x
  := by
  constructor
  · rintro (⟨_⟩ | ⟨_, h⟩)
    · exact Or.inl rfl
    · exact Or.inr h
  · rintro (rfl | h)
    · exact .here hne
    · exact .next hne h

theorem onList_linked {before : Nat} {l : List Nat}
    (h : DoublyLinked (fun x => (memory.node x).next) (fun x => (memory.node x).prev) before
      taskArenaBlockNull l)
    (hnull : taskArenaBlockNull ∉ l) (x : Nat) :
  OnList memory (l.headD taskArenaBlockNull) x ↔ x ∈ l
  := by
  induction l generalizing before with
  | nil =>
    simp only [not_mem_nil, iff_false]
    exact onList_null x
  | cons a l ih =>
    rw [mem_cons, not_or] at hnull
    have hnext : (memory a).first = l.headD taskArenaBlockNull := h.2.1
    rw [headD_cons, onList_of_ne (Ne.symm hnull.1), hnext, ih h.2.2 hnull.2, mem_cons]

theorem onList_chains (h : Chains memory cursor l) (hnull : ∀ b ∈ l, b.start ≠ taskArenaBlockNull)
    (x : Nat) :
  OnList memory cursor x ↔ ∃ b ∈ l, b.start = x
  := by
  induction l generalizing cursor with
  | nil =>
    have hcursor : cursor = taskArenaBlockNull := h
    rw [hcursor]
    simp only [not_mem_nil, false_and, exists_false, iff_false]
    exact onList_null x
  | cons b l ih =>
    rw [forall_mem_cons] at hnull
    obtain ⟨hcursor, _, hnext⟩ := h
    rw [hcursor, onList_of_ne hnull.1, exists_mem_cons_iff, ← ih hnext hnull.2, eq_comm]
    rfl

theorem Chains.cls (h : Chains memory cursor l) {b : Block} (hb : b ∈ l) :
  (memory.remoteNode b.start).cls = b.level
  := by
  induction l generalizing cursor with
  | nil => exact absurd hb not_mem_nil
  | cons c l ih =>
    rcases mem_cons.mp hb with rfl | hb
    · exact h.2.1
    · exact ih h.2.2 hb

end Views

namespace System.Holds

variable {b : Block} {place : Place}

section

variable (h : system.Holds holding)
include h

/-- The free lists have exactly the free blocks. -/
theorem at_free (b : Block) :
  system.At .free b ↔ holding b = some .free
  := by
  have hlists : ∀ which cls, cls < taskArenaClassCount → ∀ x,
      OnList system.arena.memory ((system.arena.regions which).freeHeads cls) x
        ↔ holding ⟨x, cls⟩ = some .free ∧ (system.arena.regions which).Has x := by
    intro which cls hcls x
    obtain ⟨lists, hshows⟩ := (h.stands which).shows
    rw [hshows.heads cls hcls, onList_linked (hshows.linked cls hcls)
      (hshows.null_notMem (h.stands which).laid hcls), hshows.mem cls hcls]
  constructor
  · rintro ⟨hlevel, which, hon⟩
    exact ((hlists which _ hlevel _).mp hon).1
  · intro hb
    have hheld : holding b ≠ none := by simp [hb]
    have hlevel := h.tiled.levels b hheld
    exact ⟨hlevel, _, (hlists _ _ hlevel _).mpr ⟨hb, h.has_regionOf hheld⟩⟩

/-- The stack and the chain have exactly the dropped blocks. -/
theorem at_dropped (b : Block) :
  system.At .dropped b ↔ holding b = some .stacked ∨ holding b = some .drained
  := by
  obtain ⟨stack, hstack⟩ := h.stack
  obtain ⟨chain, hchain⟩ := h.chain
  have hview : ∀ {holder cursor l}, Chained system.arena.memory holding holder cursor l → ∀ x,
      (OnList system.arena.memory cursor x ↔ ∃ c, holding c = some holder ∧ c.start = x) := by
    intro holder cursor l hl x
    rw [onList_chains hl.chains]
    · simp only [hl.mem]
    · intro c hc
      apply h.start_ne_null
      rw [(hl.mem c).mp hc]
      nofun
  have hcls : ∀ {holder cursor l}, Chained system.arena.memory holding holder cursor l → ∀ c,
      holding c = some holder → (system.arena.memory.remoteNode c.start).cls = c.level :=
    fun hl c hc => hl.chains.cls ((hl.mem c).mpr hc)
  -- the header names the block that starts there
  have hsame : ∀ {holder cursor l}, Chained system.arena.memory holding holder cursor l → ∀ c,
      holding c = some holder → c.start = b.start →
      (system.arena.memory.remoteNode b.start).cls = b.level → holding b = some holder := by
    intro holder cursor l hl c hc hstart hnode
    have hlevel := hcls hl c hc
    rw [hstart, hnode] at hlevel
    have heq : b = c := congrArg₂ Block.mk hstart.symm hlevel
    rw [heq]
    exact hc
  constructor
  · rintro ⟨hon | hon, hnode⟩
    · obtain ⟨c, hc, hstart⟩ := (hview hstack _).mp hon
      exact Or.inl (hsame hstack c hc hstart hnode)
    · obtain ⟨c, hc, hstart⟩ := (hview hchain _).mp hon
      exact Or.inr (hsame hchain c hc hstart hnode)
  · rintro (hb | hb)
    · exact ⟨Or.inl ((hview hstack _).mpr ⟨b, hb, rfl⟩), hcls hstack b hb⟩
    · exact ⟨Or.inr ((hview hchain _).mpr ⟨b, hb, rfl⟩), hcls hchain b hb⟩

/-- A block is where its holder has its blocks. -/
theorem at_iff :
  system.At place b ↔ ∃ x, holding b = some x ∧ x.place = some place
  := by
  cases place with
  | live task =>
    rw [System.At, ← h.tasks]
    constructor
    · exact fun hb => ⟨_, hb, rfl⟩
    · rintro ⟨_ | _ | _, hb, ⟨⟩⟩
      exact hb
  | free =>
    rw [h.at_free]
    constructor
    · exact fun hb => ⟨_, hb, rfl⟩
    · rintro ⟨_ | _, hb, ⟨⟩⟩
      exact hb
  | dropped =>
    rw [h.at_dropped]
    constructor
    · rintro (hb | hb) <;> exact ⟨_, hb, rfl⟩
    · rintro ⟨_ | _ | _ | _ | _, hb, ⟨⟩⟩
      · exact .inl hb
      · exact .inr hb

/-- Every block of the tiling is at one place. -/
theorem exists_at (hb : holding b ≠ none) :
  ∃ place, system.At place b
  := by
  obtain ⟨x, hx⟩ := ne_none_iff_exists'.mp hb
  cases hplace : x.place with
  | none =>
    cases x with
    | hand => cases (h.hands b).mp hx
    | free | task | stacked | drained => cases hplace
  | some place => exact ⟨place, h.at_iff.mpr ⟨x, hx, hplace⟩⟩

theorem held_of_at (hat : system.At place b) :
  holding b ≠ none
  := by
  obtain ⟨x, hx, _⟩ := h.at_iff.mp hat
  simp [hx]

theorem place_unique {place' : Place} (hat : system.At place b) (hat' : system.At place' b) :
  place = place'
  := by
  obtain ⟨x, hx, hplace⟩ := h.at_iff.mp hat
  obtain ⟨x', hx', hplace'⟩ := h.at_iff.mp hat'
  cases hx.symm.trans hx'
  exact some.inj (hplace.symm.trans hplace')

end

end System.Holds

/-! ### Exactness -/

/-- The arena is an exact buddy allocator in the state. -/
structure System.Exact (system : System) : Prop where
  /-- The block of a task is aligned to its class and inside one tree. -/
  aligned : ∀ task b, system.At (.live task) b →
    b.level < taskArenaClassCount ∧ classBytes b.level ∣ b.start
      ∧ ∃ which, (system.arena.regions which).start ≤ b.start
          ∧ b.start + classBytes b.level
              ≤ (system.arena.regions which).start + (system.arena.regions which).len
  /-- The blocks of different tasks are disjoint. -/
  disjoint : ∀ task task' b b', task ≠ task' → system.At (.live task) b →
    system.At (.live task') b' →
    b.start + classBytes b.level ≤ b'.start ∨ b'.start + classBytes b'.level ≤ b.start
  /-- Every byte is in exactly one block, at one place. -/
  granules : ∀ x, x < system.arena.totalBytes →
    ∃! p : Place × Block, system.At p.1 p.2 ∧ p.2.Covers taskArenaAlign x
  /-- Instance-funded tasks stay out of the kernel reserve. -/
  reserve : ∀ task b, system.At (.live task) b →
    (system.tasks task).paid = some .instance_ →
    b.start + classBytes b.level ≤ system.arena.shareBytes
  /-- No two free buddies below the top class are both free. -/
  apart : ∀ b : Block, b.level + 1 < taskArenaClassCount → system.At .free b →
    ¬ system.At .free (b.buddy taskArenaAlign)
  /-- A request fails only if no aligned run of its size is free where it may take one. -/
  refusal : ∀ cls funding arena', cls < taskArenaClassCount →
    system.arena.takeBlock cls funding = .ok (none, arena') →
    ∀ which, funding.MayUse which → ∀ offset, classBytes cls ∣ offset →
      (system.arena.regions which).start ≤ offset →
      offset + classBytes cls
        ≤ (system.arena.regions which).start + (system.arena.regions which).len →
      ∃ x, offset ≤ x ∧ x < offset + classBytes cls
        ∧ ∀ b : Block, system.At .free b → ¬ b.Covers taskArenaAlign x
  /-- A drain that starts when every task has given back its block ends, with all top blocks
  free and no other free block. -/
  restores : ∀ task cls funding cursor, system.owner = .draining task cls funding cursor →
    (∀ task', (system.tasks task').block = none) →
    system.arena.remoteFree = taskArenaBlockNull →
    ∃ n system' outs, run System.step system (replicate n .owner)
        = .ok (system', outs)
      ∧ system'.owner = .draining task cls funding taskArenaBlockNull
      ∧ ∀ b : Block, system'.At .free b ↔ b.level = taskArenaClassCount - 1
          ∧ taskArenaTopBytes ∣ b.start
          ∧ b.start + taskArenaTopBytes ≤ system'.arena.totalBytes
  /-- No assertion of the arena fails but those about the request itself. -/
  asserts : ∀ op panic, system.step op = .error (.panic panic) → panic.OfRequest

namespace System.Holds

variable {funding : TaskFunding}

variable (h : system.Holds holding)

include h

/-- Aligned runs of free bytes lie in one free block, which a request would have found. -/
theorem refusal {cls : Nat} {arena' : TaskArena} (hcls : cls < taskArenaClassCount)
    (hnone : system.arena.takeBlock cls funding = .ok (none, arena')) {which : BlockRegion}
    (huse : funding.MayUse which) {offset : Nat} (haligned : classBytes cls ∣ offset)
    (hlow : (system.arena.regions which).start ≤ offset)
    (hhigh : offset + classBytes cls ≤
      (system.arena.regions which).start + (system.arena.regions which).len) :
  ∃ x, offset ≤ x ∧ x < offset + classBytes cls
    ∧ ∀ b : Block, system.At .free b → ¬ b.Covers taskArenaAlign x
  := by
  rcases takeBlock_cases h.stands h.hands cls funding with
    ⟨_, hsmall⟩ | ⟨which', _, offset', memory', region', holding', hsome, _⟩
  · by_contra hrun
    push Not at hrun
    rw [classBytes_eq] at haligned hhigh hrun
    have hfree : ∀ x, Block.Covers taskArenaAlign ⟨offset, cls⟩ x →
        ∃ b, holding b = some .free ∧ b.Covers taskArenaAlign x := by
      intro x hx
      obtain ⟨b, hb, hbx⟩ := hrun x hx.1 hx.2
      exact ⟨b, (h.at_free b).mp hb, hbx⟩
    obtain ⟨b, hb, hlevel, hcover⟩ := @Tiling.exists_of_run _ _ _ _ h.tiled.tiling _ .free
      (taskArenaClassCount - 1) (fun c hc => h.tiled.apart c (by omega)) ⟨offset, cls⟩ haligned
      (show cls ≤ taskArenaClassCount - 1 by omega) hfree
    have hheld : holding b ≠ none := by simp [hb]
    have hpos := size_pos taskArenaAlign cls
    have hin : (system.arena.regions which).Has offset := ⟨hlow, by omega⟩
    have hhas := (h.stands which).laid.has_of_covers (h.tiled.tiling.aligned b hheld)
      (h.tiled.levels b hheld) hcover (Block.covers_start b) hin
    exact absurd (hsmall which huse b hb hhas) (not_lt.mpr hlevel)
  · rw [hsome] at hnone
    cases hnone

/-- With every block free, the free blocks are the top blocks. -/
theorem restored (htasks : ∀ task, (system.tasks task).block = none)
    (hstack : system.arena.remoteFree = taskArenaBlockNull)
    (hcursor : system.owner.cursor = taskArenaBlockNull) (b : Block) :
  system.At .free b ↔ b.level = taskArenaClassCount - 1 ∧ taskArenaTopBytes ∣ b.start
    ∧ b.start + taskArenaTopBytes ≤ system.arena.totalBytes
  := by
  -- every block of the tiling is free
  obtain ⟨stack, hstacked⟩ := h.stack
  have hall : ∀ c, holding c ≠ none → holding c = some .free := by
    intro c hc
    obtain ⟨place, hat⟩ := h.exists_at hc
    cases place with
    | live task =>
      have hblock : (system.tasks task).block = some c := hat
      rw [htasks] at hblock
      cases hblock
    | free => exact (h.at_free c).mp hat
    | dropped =>
      rcases (h.at_dropped c).mp hat with hdropped | hdropped
      · exact absurd hdropped (h.not_held hstacked hstack c)
      · exact absurd hdropped (h.not_drained hcursor c)
  -- so a top block, being an aligned run of free bytes, is one of them
  have htop : ∀ c : Block, c.level = taskArenaClassCount - 1 → c.Aligned taskArenaAlign →
      c.start + taskArenaTopBytes ≤ system.arena.totalBytes → holding c = some .free := by
    intro c hlevel haligned hinside
    have hsize : size taskArenaAlign c.level = taskArenaTopBytes := by rw [hlevel, topBytes_eq]
    obtain ⟨d, hd, hle, hcover⟩ := @Tiling.exists_of_run _ _ _ _ h.tiled.tiling _ .free
      (taskArenaClassCount - 1) (fun e he => h.tiled.apart e (by omega)) c haligned
      (le_of_eq hlevel) (by
        intro x hx
        have hlt := hx.2
        rw [hsize] at hlt
        obtain ⟨e, he, hex⟩ := h.tiled.tiling.covered x (by omega)
        exact ⟨e, hall e he, hex⟩)
    have hheld : holding d ≠ none := by simp [hd]
    have hdlevel := h.tiled.levels d hheld
    have heq := haligned.eq_of_level (h.tiled.tiling.aligned d hheld) (by omega)
      (Block.covers_start c) hcover
    rw [heq]
    exact hd
  rw [h.at_free]
  constructor
  · intro hb
    have hheld : holding b ≠ none := by simp [hb]
    -- the top block at the start of the block is free too, and they meet
    have hpos : 0 < taskArenaTopBytes := by decide
    have hdvd : taskArenaTopBytes ∣ system.arena.totalBytes := by
      rw [h.laid.total]
      have hshare := (h.stands .instance_).laid.len
      rw [h.laid.shareLen] at hshare
      exact Nat.dvd_add hshare dvd_rfl
    have hend := topEnd_le hdvd (h.start_lt hheld)
    have hfree := htop ⟨b.start / taskArenaTopBytes * taskArenaTopBytes, taskArenaClassCount - 1⟩
      rfl (by
        rw [Block.Aligned, ← topBytes_eq]
        exact dvd_mul_left _ _) hend
    have heq := h.tiled.tiling.unique b _ b.start hheld
      (show holding ⟨b.start / taskArenaTopBytes * taskArenaTopBytes, taskArenaClassCount - 1⟩
        ≠ none by simp [hfree])
      (Block.covers_start b) (by
        refine ⟨div_mul_le_self _ _, ?_⟩
        rw [← topBytes_eq]
        exact lt_div_mul_add hpos)
    have hstart := congrArg Block.start heq
    dsimp only at hstart
    refine ⟨congrArg Block.level heq, ⟨_, hstart.trans (mul_comm _ _)⟩, ?_⟩
    rw [hstart]
    exact hend
  · rintro ⟨hlevel, hdvd, hinside⟩
    apply htop b hlevel _ hinside
    rw [Block.Aligned, hlevel]
    exact hdvd

/-- The drain of a chain ends. -/
theorem drains {task cls cursor : Nat} (howner : system.owner = .draining task cls funding cursor)
    {l : List Block} (hchain : Chained system.arena.memory holding .drained cursor l) :
  ∃ n system' outs holding', run System.step system (replicate n .owner)
      = .ok (system', outs)
    ∧ system'.owner = .draining task cls funding taskArenaBlockNull
    ∧ system'.tasks = system.tasks ∧ system'.arena.remoteFree = system.arena.remoteFree
    ∧ system'.Holds holding'
  := by
  induction l generalizing system holding cursor with
  | nil =>
    have hcursor : cursor = taskArenaBlockNull := hchain.chains
    exact ⟨0, system, [], holding, rfl, hcursor ▸ howner, rfl, rfl, h⟩
  | cons b l ih =>
    obtain ⟨next, arena', holding', hdrain, hfree, hchain', hholds⟩ := h.drain howner hchain
    have hcursor : cursor ≠ taskArenaBlockNull := by
      have hstart : cursor = b.start := hchain.chains.1
      rw [hstart]
      apply h.start_ne_null
      rw [(hchain.mem b).mp mem_cons_self]
      nofun
    have hstep : system.step .owner
        = .ok ({ system with arena := arena', owner := .draining task cls funding next }, ()) := by
      rw [System.step, System.stepOwner, howner]
      simp only [if_neg hcursor, hdrain]
      rfl
    obtain ⟨n, system', outs, holding'', hrun, howner', htasks, hremote, hholds'⟩ :=
      ih hholds rfl hchain'
    refine ⟨n + 1, system', () :: outs, holding'', ?_, howner', htasks, hremote.trans hfree,
      hholds'⟩
    rw [replicate_succ, run, hstep]
    dsimp only
    rw [hrun]

end System.Holds

/-- In every run of allocations on the owning processor, writes of the tasks, and releases on any
processors, the arena is an exact buddy allocator in every state. -/
theorem arena_exact {system : System}
    (h : Reachable System.step System.Fresh (fun _ _ => True) system) :
  system.Exact
  := by
  obtain ⟨holding, hholds⟩ := holds_of_reachable h
  have htiling := hholds.tiled.tiling
  constructor
  · intro task b hat
    have hheld := hholds.held_of_at hat
    have haligned := htiling.aligned b hheld
    have hlevel := hholds.tiled.levels b hheld
    rw [classBytes_eq]
    exact ⟨hlevel, haligned, _, (hholds.stands _).laid.inside haligned hlevel
      (Block.covers_start b) (hholds.has_regionOf hheld)⟩
  · intro task task' b b' hne hat hat'
    have hheld := hholds.held_of_at hat
    have hheld' := hholds.held_of_at hat'
    rw [classBytes_eq, classBytes_eq]
    by_contra hmeet
    -- the later of the two starts would be in both blocks
    have heq : b = b' := by
      apply htiling.unique b b' (max b.start b'.start) hheld hheld'
      · have hpos := size_pos taskArenaAlign b.level
        constructor <;> omega
      · have hpos := size_pos taskArenaAlign b'.level
        constructor <;> omega
    subst heq
    have hplace := hholds.place_unique hat hat'
    exact hne (Place.live.inj hplace)
  · intro x hx
    obtain ⟨b, hheld, hcover⟩ := htiling.covered x hx
    obtain ⟨place, hat⟩ := hholds.exists_at hheld
    refine ⟨(place, b), ⟨hat, hcover⟩, ?_⟩
    rintro ⟨place', b'⟩ ⟨hat', hcover'⟩
    have heq : b' = b := htiling.unique b' b x (hholds.held_of_at hat') hheld hcover' hcover
    subst heq
    have hplace : place' = place := hholds.place_unique hat' hat
    rw [hplace]
  · intro task b hat hpaid
    have hheld := hholds.held_of_at hat
    have hlow := hholds.funded task b hat hpaid
    have hhas : (system.arena.regions .instance_).Has b.start := by
      rw [Has, hholds.laid.shareStart, hholds.laid.shareLen]
      omega
    have hinside := (hholds.stands .instance_).laid.inside (htiling.aligned b hheld)
      (hholds.tiled.levels b hheld) (Block.covers_start b) hhas
    rw [hholds.laid.shareStart, hholds.laid.shareLen, zero_add] at hinside
    rw [classBytes_eq]
    exact hinside.2
  · intro b hlevel hat hat'
    exact hholds.tiled.apart b hlevel ((hholds.at_free b).mp hat) ((hholds.at_free _).mp hat')
  · intro cls funding arena' hcls hnone which huse offset
    exact hholds.refusal hcls hnone huse
  · intro task cls funding cursor howner htasks hremote
    obtain ⟨l, hchain⟩ := hholds.chain
    rw [howner] at hchain
    obtain ⟨n, system', outs, holding', hrun, howner', htasks', hremote', hholds'⟩ :=
      hholds.drains howner hchain
    refine ⟨n, system', outs, hrun, howner', hholds'.restored ?_ (hremote'.trans hremote) ?_⟩
    · intro task'
      rw [htasks']
      exact htasks task'
    · rw [howner']
      rfl
  · intro op panic hstep
    have hgoes := hholds.goes op
    rw [System.step_eq] at hstep
    generalize system.result op = result at hstep hgoes
    cases result with
    | ok system' => cases hstep
    | error fault =>
      cases hstep
      exact hgoes

/-- A new arena of two top blocks places three tasks; two end, one of them while the owner
places a fourth. -/
def sampleOps : List Op :=
  [.spawn 0 100 8 .instance_, .owner, .spawn 1 4000 16 .instance_, .owner,
    .spawn 2 200000 8 .kernel, .owner, .write 0 1 ⟨7, 7⟩, .drop 0, .publish 0 true, .drop 1,
    .publish 1 false, .publish 0 false, .publish 0 false, .spawn 3 64 64 .instance_, .owner,
    .count 0, .owner, .owner, .drop 3, .publish 3 false, .count 1]

theorem arena_exact_sample :
  ∃ system, System.Exact system ∧ system.tasks 2 = .live 262144 12 .kernel
    ∧ system.tasks 3 = .counting .instance_
  := by
  have hnew : (newShared (fun _ => ⟨0, 0⟩) 600000).toOption.isSome = true := by
    decide +kernel
  have hrun : ((newShared (fun _ => ⟨0, 0⟩) 600000).toOption.bind fun arena =>
      (run System.step ⟨arena, .idle, fun _ => .absent⟩ sampleOps).toOption.map
        fun result => (result.1.tasks 2, result.1.tasks 3))
      = some (.live 262144 12 .kernel, .counting .instance_) := by
    decide +kernel
  cases harena : newShared (fun _ => ⟨0, 0⟩) 600000 with
  | error panic =>
    rw [harena] at hnew
    cases hnew
  | ok arena =>
    rw [harena] at hrun
    cases hsystem : run System.step ⟨arena, .idle, fun _ => .absent⟩ sampleOps with
    | error fault =>
      simp [Except.toOption, hsystem] at hrun
    | ok result =>
      simp only [Except.toOption, hsystem, bind_some, map_some, some.injEq, Prod.mk.injEq] at hrun
      have hfresh : System.Fresh ⟨arena, .idle, fun _ => .absent⟩ :=
        ⟨fun _ => ⟨0, 0⟩, 600000, harena, rfl, fun _ => rfl⟩
      have hreach := Reachable.of_run (.start hfresh) hsystem
      exact ⟨result.1, arena_exact hreach, hrun⟩

end Helios.Arena
