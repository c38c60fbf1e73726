import Helios.Kernel.BuddyTrees
import Helios.Library.Transition
import Helios.Library.Updates

/-!
# The arena keeps its tiling

Every step of every processor keeps a tiling of the arena: the blocks of the tasks, the free
blocks of the two trees, the stack of dropped blocks and the chain that the owner took from it.
-/

namespace Helios.Arena

variable {region' region : BuddyRegion} {total : Nat} {x : Holder}

variable {b : Block} {memory' memory : Memory} {holding holding' : Holding} {l : List Block}
  {which : BlockRegion} {y : Holder}

open Buddy Function TaskArena TaskPc BuddyRegion List

/-! ### Chains of dropped blocks -/

/-- The headers of the blocks thread them, from the cursor on. -/
def Chains (memory : Memory) : Nat → List Block → Prop
  | cursor, [] => cursor = taskArenaBlockNull
  | cursor, b :: l =>
    cursor = b.start ∧ (memory.remoteNode b.start).cls = b.level
      ∧ Chains memory (memory.remoteNode b.start).next l

theorem Chains.congr {cursor : Nat} (h : Chains memory cursor l)
    (hsame : ∀ b ∈ l, memory' b.start = memory b.start) :
  Chains memory' cursor l
  := by
  induction l generalizing cursor with
  | nil => exact h
  | cons b l ih =>
    rw [forall_mem_cons] at hsame
    obtain ⟨hcursor, hcls, hnext⟩ := h
    have hnode : memory'.remoteNode b.start = memory.remoteNode b.start := by
      rw [Memory.remoteNode, Memory.remoteNode, hsame.1]
    refine ⟨hcursor, by rw [hnode, hcls], ?_⟩
    rw [hnode]
    exact ih hnext hsame.2

/-- The chain from the cursor on is that of the holder's blocks. -/
structure Chained (memory : Memory) (holding : Holding) (holder : Holder) (cursor : Nat)
    (l : List Block) : Prop where
  chains : Chains memory cursor l
  nodup : l.Nodup
  mem : ∀ b, b ∈ l ↔ holding b = some holder

/-- The chain stays when its holder's blocks do, with their headers. -/
theorem Chained.keep {holder : Holder} {cursor : Nat} (h : Chained memory holding holder cursor l)
    (hsame : ∀ b, holding' b = some holder ↔ holding b = some holder)
    (hnode : ∀ b, holding b = some holder → memory' b.start = memory b.start) :
  Chained memory' holding' holder cursor l
  := by
  constructor
  · apply h.chains.congr
    intro b hb
    exact hnode b ((h.mem b).mp hb)
  · exact h.nodup
  · intro b
    rw [h.mem, hsame]

/-! ### The invariant -/

/-- What `new_shared` fixes. -/
structure TaskArena.Laid (arena : TaskArena) : Prop where
  total : arena.totalBytes = arena.shareBytes + taskArenaKernelReserveBytes
  shareStart : (arena.regions .instance_).start = 0
  shareLen : (arena.regions .instance_).len = arena.shareBytes
  reserveStart : (arena.regions .kernelReserve).start = arena.shareBytes
  reserveLen : (arena.regions .kernelReserve).len = taskArenaKernelReserveBytes

/-- The block a task has not given back. -/
def TaskPc.block : TaskPc → Option Block
  | .live offset cls _ => some ⟨offset, cls⟩
  | .releasing offset cls _ _ => some ⟨offset, cls⟩
  | _ => none

/-- Who pays for a task that has a block. -/
def TaskPc.paid : TaskPc → Option TaskFunding
  | .live _ _ funding => some funding
  | .releasing _ _ funding _ => some funding
  | _ => none

/-- Who pays for a task that is counted as active. -/
def TaskPc.counted : TaskPc → Option TaskFunding
  | .live _ _ funding => some funding
  | .releasing _ _ funding _ => some funding
  | .counting funding => some funding
  | _ => none

/-- The rest of the chain that the owner is merging. -/
def OwnerPc.cursor : OwnerPc → Nat
  | .idle => taskArenaBlockNull
  | .draining _ _ _ cursor => cursor

/-- The arena's blocks are held as stated. -/
structure System.Holds (system : System) (holding : Holding) : Prop where
  laid : system.arena.Laid
  stands : ∀ which, (system.arena.regions which).Stands system.arena.totalBytes
    system.arena.memory holding
  hands : Hands holding none
  stack : ∃ l, Chained system.arena.memory holding .stacked system.arena.remoteFree l
  chain : ∃ l, Chained system.arena.memory holding .drained system.owner.cursor l
  tasks : ∀ task b, holding b = some (.task task) ↔ (system.tasks task).block = some b
  funded : ∀ task b, (system.tasks task).block = some b →
    (system.tasks task).paid = some .instance_ → b.start < system.arena.shareBytes
  waiting : ∀ task cls funding cursor, system.owner = .draining task cls funding cursor →
    system.tasks task = .absent ∧ cls < taskArenaClassCount
  counts : ∃ l : List Nat, l.Nodup ∧ (∀ task, task ∈ l ↔ (system.tasks task).counted ≠ none)
    ∧ system.arena.active = l.length
    ∧ system.arena.instanceActive
        = l.countP fun task => (system.tasks task).counted = some .instance_

/-! ### Spans of the two trees -/

namespace TaskArena.Laid

variable {arena : TaskArena} {x : Nat}

theorem has_iff (h : arena.Laid) (which : BlockRegion) :
  (arena.regions which).Has x ↔ x < arena.totalBytes ∧ arena.regionOf x = which
  := by
  have htotal := h.total
  cases which with
  | instance_ =>
    rw [Has, h.shareStart, h.shareLen, regionOf]
    split <;> simp <;> omega
  | kernelReserve =>
    rw [Has, h.reserveStart, h.reserveLen, regionOf]
    split <;> simp <;> omega

theorem apart (h : arena.Laid) {which' : BlockRegion} (hne : which' ≠ which)
    (hhas : (arena.regions which').Has x) :
  ¬ (arena.regions which).Has x
  := by
  rw [h.has_iff] at hhas ⊢
  rintro ⟨_, heq⟩
  exact hne (hhas.2.symm.trans heq)

end TaskArena.Laid

theorem stands_setRegion {arena : TaskArena} (hlaid : arena.Laid) (hstands : ∀ which,
      (arena.regions which).Stands arena.totalBytes arena.memory holding) {hand : Option Block}
    (hturns : Turns arena.totalBytes arena.memory (arena.regions which) holding
      memory' region' holding' hand) :
  (arena.setRegion which (memory', region')).Laid
    ∧ ∀ which', ((arena.setRegion which (memory', region')).regions which').Stands
        arena.totalBytes memory' holding'
  := by
  constructor
  · have hstart := Updates.view start hturns.start
    have hlen := Updates.view len hturns.len
    exact ⟨hlaid.total, (hstart _).trans hlaid.shareStart, (hlen _).trans hlaid.shareLen,
      (hstart _).trans hlaid.reserveStart, (hlen _).trans hlaid.reserveLen⟩
  · intro which'
    simp only [setRegion]
    by_cases heq : which' = which
    · rw [heq, update_self]
      exact hturns.stands
    · rw [update_of_ne heq]
      obtain ⟨lists, hshows⟩ := (hstands which').shows
      refine ⟨(hstands which').laid, hturns.stands.tiled, lists, ?_⟩
      exact hshows.keep hturns.keeps fun x hx => hlaid.apart heq hx

/-- A tree stands when the same blocks are held, the same ones free, with the same headers. -/
theorem BuddyRegion.Stands.rehold (h : region.Stands total memory holding)
    (hheld : ∀ b, holding' b ≠ none ↔ holding b ≠ none)
    (hfree : ∀ b, holding' b = some .free ↔ holding b = some .free)
    (hnode : ∀ b, holding b = some .free → memory' b.start = memory b.start) :
  region.Stands total memory' holding'
  := by
  have hretiled := h.retile (h.tiled.tiling.congr hheld)
    (fun b hb => h.tiled.levels b ((hheld b).mp hb)) hfree
  obtain ⟨lists, hshows⟩ := hretiled.shows
  refine ⟨hretiled.laid, hretiled.tiled, lists, ?_⟩
  apply hshows.congr
  · intro b _
    rfl
  · intro b _ hb
    exact hnode b ((hfree b).mp hb)

/-- The blocks of the other holders stay when a block passes from one to another. -/
theorem pass_eq_some {z : Holder} (hb : holding b = some x) (hx : z ≠ x) (hy : z ≠ y) (c : Block) :
  update holding b (some y) c = some z ↔ holding c = some z
  := by
  rw [update_apply]
  split_ifs with heq <;> simp [heq, hb, hx.symm, hy.symm]

/-- A tree stands when a block passes between holders that are not the tree. -/
theorem BuddyRegion.Stands.pass (h : region.Stands total memory holding) (hb : holding b = some x)
    (hx : x ≠ .free) (hy : y ≠ .free) :
  region.Stands total memory (update holding b (some y))
  := by
  apply h.rehold
  · intro c
    rw [update_apply]
    split_ifs with heq <;> simp [heq, hb]
  · exact pass_eq_some hb hx.symm hy.symm
  · exact fun _ _ => rfl

/-- A list of the holder's blocks with the block that passes to it in front. -/
theorem mem_pass (hl : ∀ c, c ∈ l ↔ holding c = some y) (c : Block) :
  c ∈ b :: l ↔ update holding b (some y) c = some y
  := by
  rw [mem_cons, hl, update_apply]
  split_ifs with heq <;> simp [heq]

namespace System.Holds

variable {system : System}

section

variable {task cls : Nat} {funding : TaskFunding}

variable (h : system.Holds holding)
include h

theorem tiled :
  Tiled system.arena.totalBytes holding
  := (h.stands .instance_).tiled

theorem start_lt (hb : holding b ≠ none) :
  b.start < system.arena.totalBytes
  := by
  have hinside := h.tiled.tiling.inside b hb
  have hpos := size_pos taskArenaAlign b.level
  omega

theorem start_ne_null (hb : holding b ≠ none) :
  b.start ≠ taskArenaBlockNull
  := by
  have hlt := h.start_lt hb
  have hbound := (h.stands .kernelReserve).laid.bound
  rw [h.laid.reserveStart, h.laid.reserveLen, ← h.laid.total] at hbound
  omega

theorem has_regionOf (hb : holding b ≠ none) :
  (system.arena.regions (system.arena.regionOf b.start)).Has b.start
  := (h.laid.has_iff _).mpr ⟨h.start_lt hb, rfl⟩

/-- Nobody holds a block by a chain that has ended. -/
theorem not_held {holder : Holder} {cursor : Nat}
    (hchain : Chained system.arena.memory holding holder cursor l)
    (hcursor : cursor = taskArenaBlockNull) (b : Block) :
  holding b ≠ some holder
  := by
  intro hb
  have hmem := (hchain.mem b).mpr hb
  have hchains := hchain.chains
  cases l with
  | nil => exact not_mem_nil hmem
  | cons c l =>
    have hc : holding c ≠ none := by simp [(hchain.mem c).mp mem_cons_self]
    exact h.start_ne_null hc (hchains.1.symm.trans hcursor)

theorem not_drained (hcursor : system.owner.cursor = taskArenaBlockNull) (b : Block) :
  holding b ≠ some .drained
  := by
  obtain ⟨l, hchain⟩ := h.chain
  exact h.not_held hchain hcursor b

/-! ### The owner takes the stack -/

theorem spawn (hidle : system.owner = .idle) (habsent : system.tasks task = .absent)
    (hcls : cls < taskArenaClassCount) :
  System.Holds
    { system with
      arena := { system.arena with remoteFree := taskArenaBlockNull }
      owner := .draining task cls funding system.arena.remoteFree }
    (fun b => if holding b = some .stacked then some .drained else holding b)
  := by
  have hdrained := h.not_drained (show system.owner.cursor = _ by rw [hidle]; rfl)
  -- only the dropped blocks change hands
  have hsame : ∀ b x, x ≠ .stacked → x ≠ .drained →
      ((if holding b = some .stacked then some .drained else holding b) = some x
        ↔ holding b = some x) := by
    intro b x hx hx'
    split_ifs with hb <;> simp [hb, hx.symm, hx'.symm]
  constructor
  · exact { h.laid with }
  · intro which
    apply (h.stands which).rehold
    · intro b
      split_ifs with hb <;> simp [hb]
    · exact fun b => hsame b .free nofun nofun
    · intro b _
      rfl
  · intro b
    rw [hsame b .hand nofun nofun]
    exact h.hands b
  · refine ⟨[], rfl, nodup_nil, ?_⟩
    intro b
    split_ifs with hb <;> simp [hb]
  · obtain ⟨l, hstack⟩ := h.stack
    refine ⟨l, hstack.chains, hstack.nodup, ?_⟩
    intro b
    rw [hstack.mem]
    split_ifs with hb <;> simp [hb, hdrained b]
  · intro task' b
    rw [hsame b (.task task') nofun nofun]
    exact h.tasks task' b
  · exact h.funded
  · intro task' cls' funding' cursor' howner
    cases howner
    exact ⟨habsent, hcls⟩
  · exact h.counts

/-! ### The owner merges a dropped block -/

theorem drain {cursor : Nat} (howner : system.owner = .draining task cls funding cursor)
    (hchain : Chained system.arena.memory holding .drained cursor (b :: l)) :
  ∃ next arena' holding', system.arena.drainOne cursor = .ok (next, arena')
    ∧ arena'.remoteFree = system.arena.remoteFree
    ∧ Chained arena'.memory holding' .drained next l
    ∧ System.Holds
        { system with arena := arena', owner := .draining task cls funding next } holding'
  := by
  obtain ⟨hstart, hnode, hnext⟩ := hchain.chains
  have hdrained : holding b = some .drained := (hchain.mem b).mp mem_cons_self
  have hheld : holding b ≠ none := by simp [hdrained]
  have hhas := h.has_regionOf hheld
  -- the block is taken in hand
  have hstands₁ : ∀ which, (system.arena.regions which).Stands system.arena.totalBytes
      system.arena.memory (update holding b (some .hand)) :=
    fun which => (h.stands which).pass hdrained nofun nofun
  have hhands₁ : Hands (update holding b (some .hand)) (some ⟨b.start, b.level⟩) := by
    intro c
    rw [update_apply]
    split_ifs with heq <;> simp [heq, h.hands c, eq_comm]
  obtain ⟨memory', region', holding', hfree, hturns⟩ := (hstands₁ _).free hhands₁ hhas
  obtain ⟨hlaid', hstands'⟩ := stands_setRegion h.laid hstands₁ hturns
  -- and everything but that block and the free ones stays
  have hsame := hturns.keeps.same
  have hbytes : ∀ c x, x ≠ .free → x ≠ .hand → c ≠ b → holding c = some x →
      memory' c.start = system.arena.memory c.start := by
    intro c x hx hx' hcb hc
    apply hturns.keeps.bytes c x (fun _ => ⟨hx, hx'⟩) _ _ (Block.covers_start c)
    rw [update_of_ne hcb]
    exact hc
  have hothers : ∀ c x, x ≠ .free → x ≠ .hand → x ≠ .drained →
      (holding' c = some x ↔ holding c = some x) := by
    intro c x hx hx' hxd
    rw [hsame c x hx hx', pass_eq_some hdrained hxd hx']
  have hnodup := nodup_cons.mp hchain.nodup
  have hchain' : Chained memory' holding' .drained
      (system.arena.memory.remoteNode b.start).next l := by
    refine ⟨?_, hnodup.2, ?_⟩
    · apply hnext.congr
      intro c hc
      apply hbytes c .drained nofun nofun
      · rintro rfl
        exact hnodup.1 hc
      · exact (hchain.mem c).mp (mem_cons_of_mem _ hc)
    · intro c
      rw [hsame c .drained nofun nofun]
      rw [update_apply]
      split_ifs with heq <;> simp [heq, hnodup.1, ← hchain.mem]
  refine ⟨(system.arena.memory.remoteNode b.start).next, system.arena.setRegion
    (system.arena.regionOf b.start) (memory', region'), holding', ?_, rfl, hchain', ?_⟩
  · rw [drainOne, hstart, hnode]
    simp only [hfree]
  · constructor
    · exact hlaid'
    · exact hstands'
    · exact hturns.hands
    · obtain ⟨stack, hstack⟩ := h.stack
      refine ⟨stack, hstack.keep (fun c => hothers c .stacked nofun nofun nofun) ?_⟩
      intro c hc
      apply hbytes c .stacked nofun nofun _ hc
      rintro rfl
      rw [hdrained] at hc
      cases hc
    · exact ⟨l, hchain'⟩
    · intro task' c
      rw [hothers c (.task task') nofun nofun nofun]
      exact h.tasks task' c
    · exact h.funded
    · intro task' cls' funding' cursor' howner'
      cases howner'
      exact h.waiting task cls funding cursor howner
    · exact h.counts

end

end System.Holds

/-! ### The owner finds a block -/

/-- The trees that tasks of the funding may take blocks from. -/
def TaskFunding.MayUse : TaskFunding → BlockRegion → Prop
  | .instance_, which => which = .instance_
  | .kernel, _ => True

section Finding

variable {arena : TaskArena}

theorem setRegion_self (which : BlockRegion) :
  arena.setRegion which (arena.memory, arena.regions which) = arena
  := by
  rw [setRegion, update_eq_self]

theorem allocateFrom_cases
    (hstands : ∀ which, (arena.regions which).Stands arena.totalBytes arena.memory holding)
    (hhands : Hands holding none) (which : BlockRegion) (cls : Nat) :
  (arena.allocateFrom which cls = .ok (none, arena)
      ∧ ∀ b, holding b = some .free → (arena.regions which).Has b.start → b.level < cls)
    ∨ ∃ offset memory' region' holding',
        arena.allocateFrom which cls = .ok (some offset, arena.setRegion which (memory', region'))
        ∧ Turns arena.totalBytes arena.memory (arena.regions which) holding memory'
            region' holding' (some ⟨offset, cls⟩)
        ∧ (arena.regions which).Has offset
  := by
  rcases (hstands which).allocate hhands cls with
    ⟨hnone, hsmall⟩ | ⟨offset, memory', region', holding', hsome, hturns, hhas⟩
  · left
    refine ⟨?_, hsmall⟩
    rw [allocateFrom, hnone]
    simp only [setRegion_self]
  · right
    refine ⟨offset, memory', region', holding', ?_, hturns, hhas⟩
    rw [allocateFrom, hsome]

/-- The arena gives a block from a tree that the funding may use, or none of those has a free
block that can hold one. -/
theorem takeBlock_cases
    (hstands : ∀ which, (arena.regions which).Stands arena.totalBytes arena.memory holding)
    (hhands : Hands holding none) (cls : Nat) (funding : TaskFunding) :
  (arena.takeBlock cls funding = .ok (none, arena)
      ∧ ∀ which, funding.MayUse which →
          ∀ b, holding b = some .free → (arena.regions which).Has b.start → b.level < cls)
    ∨ ∃ which, funding.MayUse which ∧ ∃ offset memory' region' holding',
        arena.takeBlock cls funding = .ok (some offset, arena.setRegion which (memory', region'))
        ∧ Turns arena.totalBytes arena.memory (arena.regions which) holding memory'
            region' holding' (some ⟨offset, cls⟩)
        ∧ (arena.regions which).Has offset
  := by
  rcases allocateFrom_cases hstands hhands .instance_ cls with
    ⟨hshare, hsmall⟩ | ⟨offset, memory', region', holding', hshare, hrest⟩
  · cases funding with
    | instance_ =>
      left
      refine ⟨hshare, ?_⟩
      rintro which rfl
      exact hsmall
    | kernel =>
      rcases allocateFrom_cases hstands hhands .kernelReserve cls with
        ⟨hreserve, hsmall'⟩ | ⟨offset, memory', region', holding', hreserve, hrest⟩
      · left
        constructor
        · simp only [takeBlock, hshare, hreserve]
        · rintro (_ | _) _
          · exact hsmall
          · exact hsmall'
      · right
        refine ⟨.kernelReserve, trivial, offset, memory', region', holding', ?_, hrest⟩
        simp only [takeBlock, hshare, hreserve]
  · right
    refine ⟨.instance_, ?_, offset, memory', region', holding', ?_, hrest⟩
    · cases funding with
      | instance_ => rfl
      | kernel => trivial
    · cases funding with
      | instance_ => exact hshare
      | kernel => simp only [takeBlock, hshare]

end Finding

namespace System.Holds

variable {task cls : Nat} {funding : TaskFunding} {pc : TaskPc} {system : System} {offset : Nat}

section

variable (h : system.Holds holding) {cursor : Nat}
include h

/-- A found block becomes the task's. -/
theorem place (howner : system.owner = .draining task cls funding cursor)
    (hcursor : cursor = taskArenaBlockNull) (huse : funding.MayUse which)
    (hturns :
      Turns system.arena.totalBytes system.arena.memory (system.arena.regions which)
      holding memory' region' holding' (some ⟨offset, cls⟩))
    (hhas : (system.arena.regions which).Has offset) :
  System.Holds
    { arena := (system.arena.setRegion which (memory', region')).countPlaced funding
      owner := .idle
      tasks := update system.tasks task (.live offset cls funding) }
    (update holding' ⟨offset, cls⟩ (some (.task task)))
  := by
  obtain ⟨hlaid', hstands'⟩ := stands_setRegion h.laid h.stands hturns
  have habsent := (h.waiting task cls funding cursor howner).1
  have hhand : holding' ⟨offset, cls⟩ = some .hand := hturns.hands.held
  have hsame := hturns.keeps.same
  have hbytes : ∀ b x, x ≠ .free → x ≠ .hand → holding b = some x →
      memory' b.start = system.arena.memory b.start := by
    intro b x hx hx' hb
    exact hturns.keeps.bytes b x (fun _ => ⟨hx, hx'⟩) hb _ (Block.covers_start b)
  have hothers : ∀ b x, x ≠ .free → x ≠ .hand → x ≠ .task task →
      (update holding' ⟨offset, cls⟩ (some (.task task)) b = some x
        ↔ holding b = some x) := by
    intro b x hx hx' hxtask
    rw [pass_eq_some hhand hx' hxtask, hsame b x hx hx']
  constructor
  · exact { hlaid' with }
  · exact fun which' => (hstands' which').pass hhand nofun nofun
  · intro b
    rw [update_apply]
    split_ifs with heq <;> simp [heq, hturns.hands b, eq_comm]
  · obtain ⟨l, hstack⟩ := h.stack
    exact ⟨l, hstack.keep (fun b => hothers b .stacked nofun nofun nofun)
      (fun b => hbytes b .stacked nofun nofun)⟩
  · obtain ⟨l, hchain⟩ := h.chain
    rw [howner] at hchain
    refine ⟨l, ?_⟩
    have hkeep := hchain.keep (fun b => hothers b .drained nofun nofun nofun)
      (fun b => hbytes b .drained nofun nofun)
    have hsamecursor : (OwnerPc.draining task cls funding cursor).cursor = OwnerPc.idle.cursor :=
      hcursor
    rw [hsamecursor] at hkeep
    exact hkeep
  · intro task' b
    dsimp only
    by_cases htask : task' = task
    · subst htask
      have hnone : holding b ≠ some (.task task') := by
        rw [Ne, h.tasks task' b, habsent]
        nofun
      by_cases heq : b = ⟨offset, cls⟩
      · simp [heq, block]
      · simp [heq, Ne.symm heq, hsame b (.task task') nofun nofun, hnone, block]
    · rw [update_of_ne htask, hothers b (.task task') nofun nofun
        (by simp [htask])]
      exact h.tasks task' b
  · intro task' b hblock hpaid
    by_cases htask : task' = task
    · subst htask
      simp only [update_self, block, paid, Option.some.injEq] at hblock hpaid
      subst hblock hpaid
      have hwhich : which = .instance_ := huse
      rw [hwhich, Has, h.laid.shareStart, h.laid.shareLen] at hhas
      simp only [countPlaced, setRegion]
      omega
    · simp only [update_of_ne htask] at hblock hpaid
      exact h.funded task' b hblock hpaid
  · nofun
  · obtain ⟨l, hnodup, hmem, hactive, hinstance⟩ := h.counts
    have hnot : task ∉ l := by
      rw [hmem, habsent]
      simp [counted]
    have hcount : (l.countP fun task' => (update system.tasks task
        (.live offset cls funding) task').counted = some .instance_)
        = l.countP fun task' => (system.tasks task').counted = some .instance_ := by
      apply countP_congr
      intro task' htask'
      have hne : task' ≠ task := fun heq => hnot (heq ▸ htask')
      rw [update_of_ne hne]
    refine ⟨task :: l, nodup_cons.mpr ⟨hnot, hnodup⟩, ?_, ?_, ?_⟩
    · intro task'
      simp only [mem_cons, hmem, update_apply]
      split_ifs with heq <;> simp [heq, counted]
    · simp only [countPlaced, setRegion, hactive, length_cons]
    · rw [countP_cons, hcount]
      simp only [countPlaced, setRegion, counted, hinstance]
      cases funding <;> simp

/-- A task moves on, without its block or what it counts for. -/
theorem retask {owner : OwnerPc} {old : TaskPc} (htask : system.tasks task = old)
    (hblock : pc.block = old.block) (hpaid : pc.paid = old.paid)
    (hcounted : pc.counted = old.counted) (hcursor : owner.cursor = system.owner.cursor) (hwaiting : ∀ task' cls funding cursor, owner =
      .draining task' cls funding cursor → task' ≠ task ∧ system.owner = owner) :
  System.Holds { system with owner, tasks := update system.tasks task pc } holding
  := by
  subst htask
  have hblocks := Updates.view block hblock
  have hpaids := Updates.view paid hpaid
  have hcounteds := Updates.view counted hcounted
  refine { h with chain := ?_, tasks := ?_, funded := ?_, waiting := ?_, counts := ?_ }
  · simp only [hcursor]
    exact h.chain
  · intro task' b
    rw [hblocks]
    exact h.tasks task' b
  · intro task' b
    rw [hblocks, hpaids]
    exact h.funded task' b
  · intro task' cls funding cursor howner
    obtain ⟨hne, hsame⟩ := hwaiting task' cls funding cursor howner
    dsimp only
    rw [update_of_ne hne]
    exact h.waiting task' cls funding cursor (hsame.trans howner)
  · simp only [hcounteds]
    exact h.counts

/-- The owner gives up. -/
theorem refuse (howner : system.owner = .draining task cls funding cursor)
    (hcursor : cursor = taskArenaBlockNull) (error : TaskCapacityError) :
  System.Holds
    { system with owner := .idle, tasks := update system.tasks task (.refused error) }
    holding
  := by
  have habsent := (h.waiting task cls funding cursor howner).1
  refine h.retask habsent rfl rfl rfl ?_ nofun
  rw [howner]
  exact hcursor.symm

theorem waiting_ne (hstarted : system.tasks task ≠ .absent) (task' cls : Nat)
    (funding : TaskFunding) (cursor : Nat)
    (howner : system.owner = .draining task' cls funding cursor) :
  task' ≠ task ∧ system.owner = system.owner
  := by
  refine ⟨?_, rfl⟩
  rintro rfl
  exact hstarted (h.waiting task' cls funding cursor howner).1

theorem waiting_update (hstarted : system.tasks task ≠ .absent) (task' cls : Nat)
    (funding : TaskFunding) (cursor : Nat)
    (howner : system.owner = .draining task' cls funding cursor) :
  update system.tasks task pc task' = .absent ∧ cls < taskArenaClassCount
  := by
  rw [update_of_ne (h.waiting_ne hstarted task' cls funding cursor howner).1]
  exact h.waiting task' cls funding cursor howner

theorem funded_update (hnone : pc.block = none) (task' : Nat) (b : Block)
    (hb : (update system.tasks task pc task').block = some b)
    (hpaid : (update system.tasks task pc task').paid = some .instance_) :
  b.start < system.arena.shareBytes
  := by
  by_cases heq : task' = task
  · rw [heq, update_self, hnone] at hb
    cases hb
  · rw [update_of_ne heq] at hb hpaid
    exact h.funded task' b hb hpaid

/-- A task writes inside its own block. -/
theorem rewrite (hb : (system.tasks task).block = some b)
    (hbytes : ∀ x, ¬ b.Covers taskArenaAlign x → memory' x = system.arena.memory x) :
  System.Holds { system with arena := { system.arena with memory := memory' } } holding
  := by
  have hholder : holding b = some (.task task) := (h.tasks task b).mpr hb
  have hnode : ∀ c x, x ≠ .task task → holding c = some x →
      memory' c.start = system.arena.memory c.start := by
    intro c x hx hc
    apply hbytes
    intro hcover
    have heq := h.tiled.tiling.unique c b c.start (by simp [hc]) (by simp [hholder])
      (Block.covers_start c) hcover
    rw [heq, hholder, Option.some.injEq] at hc
    exact hx hc.symm
  refine { h with laid := ?_, stands := ?_, stack := ?_, chain := ?_ }
  · exact { h.laid with }
  · intro which
    apply (h.stands which).rehold
    · intro c
      rfl
    · intro c
      rfl
    · intro c
      exact hnode c .free nofun
  · obtain ⟨l, hstack⟩ := h.stack
    exact ⟨l, hstack.keep (fun _ => Iff.rfl) (fun c => hnode c .stacked nofun)⟩
  · obtain ⟨l, hchain⟩ := h.chain
    exact ⟨l, hchain.keep (fun _ => Iff.rfl) (fun c => hnode c .drained nofun)⟩

/-- The block of a dropped task becomes the top of the stack. -/
theorem publish {head : Nat} (htask : system.tasks task = .releasing offset cls funding head)
    (hhead : system.arena.remoteFree = head)
    (hnode : system.arena.memory.remoteNode offset = ⟨head, cls⟩) :
  System.Holds
    { system with
      arena := { system.arena with remoteFree := offset }
      tasks := update system.tasks task (.counting funding) }
    (update holding ⟨offset, cls⟩ (some .stacked))
  := by
  have hblock : (system.tasks task).block = some ⟨offset, cls⟩ := by rw [htask]; rfl
  have hholder : holding ⟨offset, cls⟩ = some (.task task) := (h.tasks task _).mpr hblock
  have hothers : ∀ b x, x ≠ .stacked → x ≠ .task task →
      (update holding ⟨offset, cls⟩ (some .stacked) b = some x ↔ holding b = some x) :=
    fun b x hx hx' => pass_eq_some hholder hx' hx b
  have hcounteds := Updates.view counted
    (show (counting funding).counted = (system.tasks task).counted by rw [htask]; rfl)
  constructor
  · exact { h.laid with }
  · exact fun which => (h.stands which).pass hholder nofun nofun
  · intro b
    rw [hothers b .hand nofun nofun]
    exact h.hands b
  · obtain ⟨l, hstack⟩ := h.stack
    refine ⟨⟨offset, cls⟩ :: l, ⟨rfl, ?_, ?_⟩, ?_, ?_⟩
    · rw [hnode]
    · rw [hnode, ← hhead]
      exact hstack.chains
    · apply nodup_cons.mpr ⟨?_, hstack.nodup⟩
      rw [hstack.mem, hholder]
      nofun
    · exact mem_pass hstack.mem
  · obtain ⟨l, hchain⟩ := h.chain
    exact ⟨l, hchain.keep (fun b => hothers b .drained nofun nofun) (fun _ _ => rfl)⟩
  · intro task' b
    dsimp only
    by_cases heq : task' = task
    · subst heq
      by_cases hb : b = ⟨offset, cls⟩
      · simp [hb, block]
      · simp [hb, Ne.symm hb, h.tasks task' b, htask, block]
    · rw [update_of_ne heq, hothers b (.task task') nofun (by simp [heq])]
      exact h.tasks task' b
  · exact h.funded_update rfl
  · exact h.waiting_update (by rw [htask]; nofun)
  · simp only [hcounteds]
    exact h.counts

/-- A dropped task goes off the counts, which do not underflow. -/
theorem count (htask : system.tasks task = .counting funding) :
  ∃ arena', system.arena.countDropped funding = .ok arena'
    ∧ System.Holds
        { system with arena := arena', tasks := update system.tasks task .released }
        holding
  := by
  obtain ⟨l, hnodup, hmem, hactive, hinstance⟩ := h.counts
  have hcounted : (system.tasks task).counted = some funding := by rw [htask]; rfl
  have hin : task ∈ l := by
    rw [hmem, hcounted]
    nofun
  -- the others keep their place in the counts
  have hsplit : l.countP (fun task' => (system.tasks task').counted = some .instance_)
      = (l.erase task).countP (fun task' => (update system.tasks task .released
          task').counted = some .instance_) + if funding = .instance_ then 1 else 0 := by
    rw [(perm_cons_erase hin).countP_eq, countP_cons, hcounted]
    congr 1
    · apply countP_congr
      intro task' htask'
      rw [update_of_ne (hnodup.mem_erase_iff.mp htask').1]
    · simp
  have hpos : 0 < l.length := length_pos_of_mem hin
  have hno : ¬ (funding = .instance_ ∧ system.arena.instanceActive = 0) := by
    rintro ⟨hfunding, hzero⟩
    rw [hinstance, hsplit, if_pos hfunding] at hzero
    omega
  have hactive' : system.arena.active ≠ 0 := by omega
  refine ⟨_, by rw [countDropped, if_neg hno, if_neg hactive'], ?_⟩
  have hblocks := Updates.view block
    (show released.block = (system.tasks task).block by rw [htask]; rfl)
  refine { h with laid := { h.laid with }, tasks := ?_, funded := ?_, waiting := ?_, counts := ?_ }
  · intro task' b
    rw [hblocks]
    exact h.tasks task' b
  · exact h.funded_update rfl
  · exact h.waiting_update (by rw [htask]; nofun)
  · refine ⟨l.erase task, hnodup.erase task, ?_, ?_, ?_⟩
    · intro task'
      simp only [hnodup.mem_erase_iff, hmem, update_apply]
      split_ifs with heq <;> simp [heq, counted]
    · rw [length_erase_of_mem hin, ← hactive]
    · rw [hinstance, hsplit]
      split <;> simp

end

end System.Holds

end Helios.Arena
