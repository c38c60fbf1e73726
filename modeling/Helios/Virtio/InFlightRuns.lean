import Helios.Library.Updates
import Helios.Virtio.QueueContract

/-!
# Completions are collected by their submitters

Each identifier goes through stages: free, placed in the queue but not registered, in flight with a
task that waits, popped but not recorded, and ready for that task.  The stage says what the slot,
the queue and the tasks know of the identifier, and every step of a task or of the device moves at
most one identifier to the next stage.
-/

namespace Helios.Virtio

open Function InFlight Transition List Virtio.System Nat Option

variable {task : Nat} {pc : TaskPc}

/-! ### Stages -/

/-- How far a chain with some identifier has come, with the task that submitted it. -/
inductive Stage where
  | free
  | placed (task : Nat)
  | flying (task : Nat)
  | popped (task drainer len : Nat)
  | ready (task len : Nat)
  deriving DecidableEq, Repr

namespace Stage

/-- The task that waits for the chain. -/
def owner : Stage → Option Nat
  | .free | .placed _ => none
  | .flying task | .popped task _ _ | .ready task _ => some task

/-- The length that was popped for the chain. -/
def length : Stage → Option Nat
  | .free | .placed _ | .flying _ => none
  | .popped _ _ len | .ready _ len => some len

/-- The queue has the chain. -/
def queued : Stage → Bool
  | .placed _ | .flying _ => true
  | .free | .popped _ _ _ | .ready _ _ => false

/-- What the slot of the identifier holds. -/
def Fills : Stage → Slot → Prop
  | .free, slot | .placed _, slot => slot = .idle
  | .flying _, slot | .popped _ _ _, slot => ∃ waker, slot = .pending waker
  | .ready _ len, slot => slot = .complete len

end Stage

namespace TaskPc

/-- The task has the lock of the queue. -/
def holds : TaskPc → Bool
  | .test _ | .place _ | .kick _ | .register _ | .drain _ _ | .record _ _ _ _ => true
  | .idle | .submit _ | .wait _ | .reap _ | .arm _ => false

/-- The task has found room and is about to place its chain. -/
def places : TaskPc → Bool
  | .place _ => true
  | _ => false

/-- The identifier that is placed and is still to be registered. -/
def placing : TaskPc → Option Nat
  | .kick token | .register token => some token
  | _ => none

/-- The identifier that the task waits for. -/
def awaited : TaskPc → Option Nat
  | .wait token | .reap token | .arm token | .drain _ (.wait token) | .record _ _ _ (.wait token) =>
    some token
  | _ => none

/-- The completion that is popped and is still to be recorded. -/
def recording : TaskPc → Option (Nat × Nat)
  | .record token len _ _ => some (token, len)
  | _ => none

/-- What a task knows of identifiers. -/
def view (pc : TaskPc) : Option Nat × Option Nat × Option (Nat × Nat) :=
  (pc.placing, pc.awaited, pc.recording)

end TaskPc

/-- One task and one identifier change, in what the tasks and the stages know of each other: either
nothing of it changes, or only what this task and this identifier have to do with each other. -/
def Shifts (A : TaskPc → Nat → Prop) (B : Stage → Nat → Prop) (task token : Nat)
    (before after : TaskPc) (stage next : Stage) : Prop :=
  (∀ other, A after other ↔ A before other) ∧ (∀ other, B next other ↔ B stage other) ∨
  (∀ other, other ≠ token → (A after other ↔ A before other)) ∧
    (∀ other, other ≠ task → (B next other ↔ B stage other)) ∧ (A after token ↔ B next task)

variable {next : Stage}

variable {stage : Nat → Stage}

theorem Shifts.update {tasks : Nat → TaskPc} {A : TaskPc → Nat → Prop} {B : Stage → Nat → Prop}
    (h : ∀ task token, A (tasks task) token ↔ B (stage token) task) {token : Nat}
    (hshifts : Shifts A B task token (tasks task) pc (stage token) next) :
  ∀ task' token', A (update tasks task pc task') token' ↔
    B (update stage token next token') task'
  := by
  have hparts : (∀ other, other ≠ token → (A pc other ↔ A (tasks task) other)) ∧
      (∀ other, other ≠ task → (B next other ↔ B (stage token) other)) ∧
      (A pc token ↔ B next task) := by
    rcases hshifts with ⟨hpc, hnext⟩ | hparts
    · exact ⟨fun other _ => hpc other, fun other _ => hnext other,
        (hpc token).trans ((h task token).trans (hnext task).symm)⟩
    · exact hparts
  obtain ⟨hpc, hnext, hboth⟩ := hparts
  intro task' token'
  rw [update_apply, update_apply]
  split_ifs with htask htoken htoken
  · rw [htask, htoken]
    exact hboth
  · rw [hpc token' htoken, htask]
    exact h task token'
  · rw [hnext task' htask, htoken]
    exact h task' token
  · exact h task' token'

/-! ### The table -/

namespace InFlight

variable {table : InFlight} {token : Nat}

section

variable {waker : Option Waker} {len : Nat}

variable (h : token < table.capacity)
include h

theorem isIdle_eq :
  table.isIdle token = .ok (decide (table.slots token = .idle))
  := by
  rw [isIdle, slot, if_pos h]
  cases table.slots token <;> rfl

theorem register_eq (hslot : table.slots token = .idle) :
  table.register token = .ok (table.set token (.pending none))
  := by
  rw [register, slot, if_pos h, hslot]
  rfl

theorem complete_eq (hslot : table.slots token = .pending waker) (len : Nat) :
  table.complete token len = .ok (waker, table.set token (.complete len))
  := by
  rw [complete, slot, if_pos h, hslot]
  rfl

theorem take_complete (hslot : table.slots token = .complete len) :
  table.take token = .ok (some len, table.set token .idle)
  := by
  rw [take, slot, if_pos h, hslot]
  rfl

theorem take_pending (hslot : table.slots token = .pending waker) :
  table.take token = .ok (none, table)
  := by
  rw [take, slot, if_pos h, hslot]
  rfl

theorem arm_complete (hslot : table.slots token = .complete len) (waker : Waker) :
  table.arm token waker = .ok (true, table)
  := by
  rw [arm, slot, if_pos h, hslot]
  rfl

theorem arm_pending {parked : Option Waker} (hslot : table.slots token = .pending parked)
    (waker : Waker) :
  ∃ table', table.arm token waker = .ok (false, table') ∧ table'.capacity = table.capacity ∧
    (∃ parked', table'.slots token = .pending parked') ∧
    ∀ other, other ≠ token → table'.slots other = table.slots other
  := by
  rw [arm, slot, if_pos h, hslot]
  refine ⟨_, rfl, ?_⟩
  split
  · exact ⟨rfl, ⟨parked, hslot⟩, fun _ _ => rfl⟩
  · exact ⟨rfl, ⟨some waker, update_self ..⟩, fun _ hne => update_of_ne hne ..⟩

end

variable (table) (token) (slot : Slot)

@[simp] theorem set_slots_self :
  (table.set token slot).slots token = slot
  := update_self ..

theorem set_slots_of_ne {token other : Nat} (h : other ≠ token) :
  (table.set token slot).slots other = table.slots other
  := update_of_ne h ..

end InFlight

/-! ### The invariant -/

section

variable {Q : Type} {queue : Q} {event : Event} {virtQueue : VirtQueue Q} {size : Nat}
  {shows : Q → Owed → Prop} {system : System Q} {owed : Owed} {dma : Dma} {len : Nat}

/-- The stages of the identifiers are what the queue, the table and the tasks know of them. -/
structure Tracks (virtQueue : VirtQueue Q) (size : Nat) (shows : Q → Owed → Prop)
    (system : System Q) (owed : Owed) (stage : Nat → Stage) : Prop where
  shown : shows system.queue owed
  capacity : size ≤ system.table.capacity
  flight : ∀ token, token ∈ owed.flight ↔ (stage token).queued = true
  bound : ∀ token, stage token ≠ .free → token < size
  slots : ∀ token, (stage token).Fills (system.table.slots token)
  placing : ∀ task token, (system.tasks task).placing = some token ↔ stage token = .placed task
  awaited : ∀ task token, (system.tasks task).awaited = some token ↔
    (stage token).owner = some task
  recording : ∀ len task token, (system.tasks task).recording = some (token, len) ↔
    ∃ owner, stage token = .popped owner task len
  holder : ∀ task, (system.tasks task).holds = true ↔ system.holder = some task
  tested : ∀ task request, system.tasks task = .place request →
    system.table.slots (virtQueue.nextFreeDescriptor system.queue) = .idle

namespace Tracks

variable {holder : Option Nat} {table : InFlight} {old : TaskPc}

/-- How the lock of the queue may change hands in a step of a task. -/
def Passes (system : System Q) (task : Nat) (holder : Option Nat) (pc : TaskPc) : Prop :=
  holder = system.holder ∧ pc.holds = (system.tasks task).holds ∨
    holder = some task ∧ system.holder = none ∧ pc.holds = true ∨
    holder = none ∧ system.holder = some task ∧ pc.holds = false

theorem Passes.keep (hpc : system.tasks task = old) (hholds : pc.holds = old.holds) :
  Passes system task system.holder pc
  := .inl ⟨rfl, hpc ▸ hholds⟩

section

variable (h : Tracks virtQueue size shows system owed stage)
include h

theorem holder_unique (hholds : (system.tasks task).holds = true) {other : Nat}
    (hother : (system.tasks other).holds = true) :
  other = task
  := by
  have htask := (h.holder task).mp hholds
  have hother := (h.holder other).mp hother
  exact some.inj (hother.symm.trans htask)

/-- The lock of the queue is where the tasks say it is, when one task moves. -/
theorem holder_update (hpasses : Passes system task holder pc) :
  ∀ other, (update system.tasks task pc other).holds = true ↔ holder = some other
  := by
  intro other
  by_cases heq : other = task
  · subst heq
    rw [update_self]
    rcases hpasses with ⟨rfl, hpc⟩ | ⟨rfl, _, hpc⟩ | ⟨rfl, _, hpc⟩
    · rw [hpc]
      exact h.holder other
    · simp only [hpc]
    · simp only [hpc, reduceCtorEq]
  · rw [update_of_ne heq, h.holder other]
    rcases hpasses with ⟨rfl, _⟩ | ⟨rfl, hbefore, _⟩ | ⟨rfl, hbefore, _⟩
    · exact Iff.rfl
    · simp [hbefore, Ne.symm heq]
    · simp [hbefore, Ne.symm heq]

theorem lt_size {token : Nat} {now : Stage} (hnow : stage token = now) (hne : now ≠ .free) :
  token < size
  := h.bound token (hnow ▸ hne)

/-- A step that moves no identifier. -/
theorem move (hshown : shows queue owed) (hpasses : Passes system task holder pc)
    (hcapacity : table.capacity = system.table.capacity)
    (hslots : ∀ token, (stage token).Fills (table.slots token))
    (hpc : system.tasks task = old) (hview : pc.view = old.view)
    (htested : ∀ other request, update system.tasks task pc other = .place request → table.slots
      (virtQueue.nextFreeDescriptor queue) = .idle) :
  Tracks virtQueue size shows ⟨queue, holder, table, update system.tasks task pc⟩ owed stage
  := by
  subst hpc
  obtain ⟨hplacing, hrest⟩ := Prod.mk.inj hview
  obtain ⟨hawaited, hrecording⟩ := Prod.mk.inj hrest
  constructor
  · exact hshown
  · exact hcapacity ▸ h.capacity
  · exact h.flight
  · exact h.bound
  · exact hslots
  · intro other token
    rw [Updates.view TaskPc.placing hplacing]
    exact h.placing other token
  · intro other token
    rw [Updates.view TaskPc.awaited hawaited]
    exact h.awaited other token
  · intro len other token
    rw [Updates.view TaskPc.recording hrecording]
    exact h.recording len other token
  · exact h.holder_update hpasses
  · exact htested

/-- A step that moves one identifier to its next stage. -/
theorem advance {owed' : Owed} {token : Nat} {now : Stage} (hpc : system.tasks task = old)
    (hnow : stage token = now) (hshown : shows queue owed')
    (hpasses : Passes system task holder pc) (hcapacity : table.capacity = system.table.capacity)
    (hflight : ∀ other, other ∈ owed'.flight ↔ (update stage token next other).queued = true)
    (hbound : token < size) (hslot : next.Fills (table.slots token))
    (hslots : ∀ other, other ≠ token → table.slots other = system.table.slots other)
    (hplacing : Shifts (fun pc token => pc.placing = some token) (fun stage task => stage = .placed
      task) task token old pc now next)
    (hawaited : Shifts (fun pc token => pc.awaited = some token) (fun stage task => stage.owner =
      some task) task token old pc now next)
    (hrecording : ∀ len, Shifts (fun pc token => pc.recording = some (token, len)) (fun stage task
      => ∃ owner, stage = .popped owner task len) task token old pc now next)
    (htested : ∀ other request, update system.tasks task pc other = .place request → table.slots
      (virtQueue.nextFreeDescriptor queue) = .idle) :
  Tracks virtQueue size shows ⟨queue, holder, table, update system.tasks task pc⟩ owed'
    (update stage token next)
  := by
  subst hpc hnow
  constructor
  · exact hshown
  · exact hcapacity ▸ h.capacity
  · exact hflight
  · apply (forall_update_iff stage fun other stage => stage ≠ .free → other < size).mpr
    exact ⟨fun _ => hbound, fun other _ => h.bound other⟩
  · apply (forall_update_iff stage fun other stage => stage.Fills (table.slots other)).mpr
    exact ⟨hslot, fun other hne => hslots other hne ▸ h.slots other⟩
  · exact hplacing.update h.placing
  · exact hawaited.update h.awaited
  · exact fun len => (hrecording len).update (h.recording len)
  · exact h.holder_update hpasses
  · exact htested

theorem none_places (hpc : system.tasks task = old) (hholds : old.holds = true)
    (hplaces : pc.places = false) {P : Prop} :
  ∀ other request, update system.tasks task pc other = .place request → P
  := by
  intro other request hplace
  obtain ⟨hne, hplace⟩ := Updates.old hplace (by rintro rfl; cases hplaces)
  have hother : (system.tasks other).holds = true := by
    rw [hplace]
    rfl
  exact absurd (h.holder_unique (hpc ▸ hholds) hother) hne

theorem releases (hpc : system.tasks task = old) (hholds : old.holds = true)
    (hreleased : pc.holds = false) :
  Passes system task none pc
  := .inr (.inr ⟨rfl, (h.holder task).mp (hpc ▸ hholds), hreleased⟩)

/-- The test of a task that is about to place a chain still holds when another task does not make
the slot busy. -/
theorem still_tested (hpc : pc.places = false)
    (hidle : ∀ token, system.table.slots token = .idle → table.slots token = .idle) :
  ∀ other request, update system.tasks task pc other = .place request →
    table.slots (virtQueue.nextFreeDescriptor system.queue) = .idle
  := by
  intro other request hplace
  obtain ⟨_, hplace⟩ := Updates.old hplace (by rintro rfl; cases hpc)
  exact hidle _ (h.tested other request hplace)

/-- A task goes on, and neither the queue nor the table changes. -/
theorem turn (hpc : system.tasks task = old) (hpasses : Passes system task holder pc)
    (hview : pc.view = old.view) (hplaces : pc.places = false) :
  Tracks virtQueue size shows { system with holder, tasks := update system.tasks task pc }
    owed stage
  := by
  apply h.move h.shown hpasses rfl h.slots hpc hview
  exact h.still_tested hplaces (fun _ => id)

end

end Tracks

/-! ### Steps -/

/-- How a step moves the identifiers, and what can be seen of it. -/
inductive Moves (stage : Nat → Stage) (task : Nat) : Event → (Nat → Stage) → Prop where
  | quiet {stage'} (howner : ∀ token, (stage' token).owner = (stage token).owner)
      (hlength : ∀ token, (stage' token).length = (stage token).length) :
      Moves stage task .quiet stage'
  | refused {error} : Moves stage task (.refused error) stage
  | submitted {token} (hplaced : stage token = .placed task) :
      Moves stage task (.submitted token) (update stage token (.flying task))
  | popped {token len owner} (hflying : stage token = .flying owner) :
      Moves stage task (.popped token len) (update stage token (.popped owner task len))
  | taken {token len} (hready : stage token = .ready task len) :
      Moves stage task (.taken token len) (update stage token .free)

/-- A step is taken, and moves the identifiers. -/
def Goes (virtQueue : VirtQueue Q) (size : Nat) (shows : Q → Owed → Prop) (stage : Nat → Stage)
    (task : Nat) (result : Except Fault (System Q × Event)) : Prop :=
  ∃ system event owed stage', result = .ok (system, event) ∧
    Tracks virtQueue size shows system owed stage' ∧ Moves stage task event stage'

namespace Tracks

variable {request : Request} {goal : Goal} {waker : Waker} {fired : Bool} {token : Nat}

section

variable (h : Tracks virtQueue size shows system owed stage)
include h

theorem quiet :
  Goes virtQueue size shows stage task (.ok (system, .quiet))
  := ⟨system, .quiet, owed, stage, rfl, h, .quiet (fun _ => rfl) (fun _ => rfl)⟩

theorem stepSubmit (hpc : system.tasks task = .submit request) (hfree : system.holder = none) :
  Goes virtQueue size shows stage task (system.stepTask virtQueue dma task waker fired)
  := by
  rw [System.stepTask, hpc]
  simp only [if_pos hfree]
  apply quiet
  exact h.turn hpc (.inr (.inl ⟨rfl, hfree, rfl⟩)) rfl rfl

theorem stepTest (hpc : system.tasks task = .test request)
    (hnext : virtQueue.hasRoomFor system.queue request.buffers → virtQueue.nextFreeDescriptor
      system.queue < system.table.capacity) :
  Goes virtQueue size shows stage task (system.stepTask virtQueue dma task waker fired)
  := by
  have hdrain : Tracks virtQueue size shows (system.goto task (.drain 0 (.submit request))) owed
      stage := h.turn hpc (.keep hpc rfl) rfl rfl
  rw [System.stepTask, hpc]
  simp only
  split
  · rename_i hroom
    rw [isIdle_eq (hnext hroom)]
    by_cases hidle : system.table.slots (virtQueue.nextFreeDescriptor system.queue) = .idle
    · simp only [hidle]
      apply quiet
      apply h.move h.shown
      · exact .keep hpc rfl
      · rfl
      · exact h.slots
      · exact hpc
      · rfl
      · exact fun _ _ _ => hidle
    · simp only [hidle]
      exact hdrain.quiet
  · exact hdrain.quiet

/-- The queue gives the identifier that was found idle, so it was free. -/
theorem free_of_idle (hidle : system.table.slots token = .idle)
    (hfresh : token ∉ owed.flight) :
  stage token = .free
  := by
  have hfills := h.slots token
  have hqueued := mt (h.flight token).mpr hfresh
  rw [hidle] at hfills
  generalize stage token = now at *
  cases now with
  | free => rfl
  | placed | flying => exact absurd rfl hqueued
  | popped =>
    obtain ⟨_, hslot⟩ := hfills
    cases hslot
  | ready => cases hfills

theorem refuse (hpc : system.tasks task = .place request) (error : VirtqueueError) :
  Goes virtQueue size shows stage task
    (.ok ({ system with holder := none }.goto task .idle, .refused error))
  := by
  refine ⟨_, _, owed, stage, rfl, ?_, .refused⟩
  exact h.turn hpc (h.releases hpc rfl rfl) rfl rfl

theorem stepPlace (hconforms : virtQueue.Conforms size shows)
    (hpc : system.tasks task = .place request) :
  Goes virtQueue size shows stage task (system.stepTask virtQueue dma task waker fired)
  := by
  rw [System.stepTask, hpc]
  simp only
  split
  · rename_i error _
    exact h.refuse hpc error
  · rename_i chain _
    obtain ⟨result, queue', hsubmit⟩ := hconforms.submits system.queue owed chain h.shown
    rw [hsubmit]
    cases result with
    | error error =>
      rw [hconforms.refuses _ _ _ _ hsubmit]
      exact h.refuse hpc error
    | ok token =>
      obtain ⟨hnext, hbound, hfresh, hshown⟩ := hconforms.accepts _ _ _ _ _ h.shown hsubmit
      have hidle := h.tested task request hpc
      rw [← hnext] at hidle
      have hfree := h.free_of_idle hidle hfresh
      refine ⟨_, _, owed.put token, update stage token (.placed task), rfl, ?_, ?_⟩
      · apply h.advance hpc hfree hshown
        · exact .keep hpc rfl
        · rfl
        · intro other
          rw [Owed.put, Finset.mem_insert]
          by_cases heq : other = token
          · rw [heq, update_self]
            exact iff_of_true (.inl rfl) rfl
          · rw [update_of_ne heq, or_iff_right heq]
            exact h.flight other
        · exact hbound
        · exact hidle
        · exact fun _ _ => rfl
        · refine .inr ⟨?_, ?_, ?_⟩ <;> simp +contextual [TaskPc.placing, eq_comm]
        · exact .inl ⟨fun _ => Iff.rfl, fun _ => Iff.rfl⟩
        · exact fun _ => .inl ⟨fun _ => Iff.rfl, by simp⟩
        · exact h.none_places hpc rfl rfl
      · apply Moves.quiet
        · apply Updates.view Stage.owner
          rw [hfree]
          rfl
        · apply Updates.view Stage.length
          rw [hfree]
          rfl

theorem stepKick (hconforms : virtQueue.Conforms size shows)
    (hpc : system.tasks task = .kick token) :
  Goes virtQueue size shows stage task (system.stepTask virtQueue dma task waker fired)
  := by
  rw [System.stepTask, hpc]
  apply quiet
  apply h.move (hconforms.notify _ _ h.shown)
  · exact .keep hpc rfl
  · rfl
  · exact h.slots
  · exact hpc
  · rfl
  · exact h.none_places hpc rfl rfl

/-- The stages that are queued stay so, when an identifier goes from one such to another. -/
theorem flight_update {now : Stage} (hnow : stage token = now) (hsame : next.queued = now.queued)
    (other : Nat) :
  other ∈ owed.flight ↔ (update stage token next other).queued = true
  := by
  rw [h.flight other, Updates.view Stage.queued (hnow ▸ hsame)]

theorem stepRegister (hpc : system.tasks task = .register token) :
  Goes virtQueue size shows stage task (system.stepTask virtQueue dma task waker fired)
  := by
  have hplaced : stage token = .placed task := by
    apply (h.placing task token).mp
    rw [hpc]
    rfl
  have hbound := h.lt_size hplaced nofun
  have hidle : system.table.slots token = .idle := by
    have hfills := h.slots token
    rw [hplaced] at hfills
    exact hfills
  rw [System.stepTask, hpc]
  simp only
  rw [register_eq (lt_of_lt_of_le hbound h.capacity) hidle]
  refine ⟨_, _, owed, _, rfl, ?_, .submitted hplaced⟩
  apply h.advance hpc hplaced h.shown
  · exact h.releases hpc rfl rfl
  · rfl
  · exact h.flight_update hplaced rfl
  · exact hbound
  · rw [set_slots_self]
    exact ⟨none, rfl⟩
  · exact fun _ hne => set_slots_of_ne _ _ hne
  · refine .inr ⟨?_, ?_, ?_⟩ <;> simp +contextual [TaskPc.placing, eq_comm]
  · refine .inr ⟨?_, ?_, ?_⟩ <;> simp +contextual [TaskPc.awaited, Stage.owner, eq_comm]
  · exact fun _ => .inl ⟨fun _ => Iff.rfl, by simp⟩
  · exact h.none_places hpc rfl rfl

theorem awaited_cases (hawaited : (system.tasks task).awaited = some token) :
  token < size ∧ ((∃ parked, system.table.slots token = .pending parked) ∨
    ∃ len, stage token = .ready task len ∧ system.table.slots token = .complete len)
  := by
  have howner := (h.awaited task token).mp hawaited
  have hfills := h.slots token
  have hbound : token < size := by
    apply h.bound
    intro hfree
    rw [hfree] at howner
    cases howner
  refine ⟨hbound, ?_⟩
  generalize stage token = now at *
  cases now with
  | free | placed => cases howner
  | flying | popped => exact .inl hfills
  | ready owner len =>
    cases howner
    exact .inr ⟨len, rfl, hfills⟩

theorem take (hpc : system.tasks task = .wait token)
    (hready : stage token = .ready task len) :
  Goes virtQueue size shows stage task
    (.ok ({ system with table := system.table.set token .idle }.goto task .idle, .taken token len))
  := by
  have hbound := h.lt_size hready nofun
  refine ⟨_, _, owed, _, rfl, ?_, .taken hready⟩
  apply h.advance hpc hready h.shown
  · exact .keep hpc rfl
  · rfl
  · exact h.flight_update hready rfl
  · exact hbound
  · rw [set_slots_self]
    rfl
  · exact fun _ hne => set_slots_of_ne _ _ hne
  · exact .inl ⟨fun _ => Iff.rfl, by simp⟩
  · refine .inr ⟨?_, ?_, ?_⟩ <;> simp +contextual [TaskPc.awaited, Stage.owner, eq_comm]
  · exact fun _ => .inl ⟨fun _ => Iff.rfl, by simp⟩
  · apply h.still_tested rfl
    intro other hidle
    by_cases heq : other = token
    · rw [heq, set_slots_self]
    · rw [set_slots_of_ne _ _ heq]
      exact hidle

/-- A task that does not find its completion goes on to drain the queue. -/
theorem looks (hpc : system.tasks task = .wait token) :
  Tracks virtQueue size shows (system.goto task (.reap token)) owed stage
  := h.turn hpc (.keep hpc rfl) rfl rfl

theorem locks (hpc : system.tasks task = .reap token) (hfree : system.holder = none) :
  Tracks virtQueue size shows
    ({ system with holder := some task }.goto task (.drain 0 (.wait token))) owed stage
  := h.turn hpc (.inr (.inl ⟨rfl, hfree, rfl⟩)) rfl rfl

theorem stepWait (hpc : system.tasks task = .wait token) :
  Goes virtQueue size shows stage task (system.stepTask virtQueue dma task waker fired)
  := by
  obtain ⟨hbound, hslot⟩ := h.awaited_cases (congrArg TaskPc.awaited hpc)
  have hcapacity := lt_of_lt_of_le hbound h.capacity
  rw [System.stepTask, hpc]
  simp only
  rcases hslot with ⟨parked, hpending⟩ | ⟨len, hready, hcomplete⟩
  · rw [take_pending hcapacity hpending]
    exact (h.looks hpc).quiet
  · rw [take_complete hcapacity hcomplete]
    exact h.take hpc hready

theorem stepReap (hpc : system.tasks task = .reap token) :
  Goes virtQueue size shows stage task (system.stepTask virtQueue dma task waker fired)
  := by
  rw [System.stepTask, hpc]
  simp only
  split
  · rename_i hfree
    exact (h.locks hpc hfree).quiet
  · apply quiet
    exact h.turn hpc (.keep hpc rfl) rfl rfl

theorem stepArm (hpc : system.tasks task = .arm token) :
  Goes virtQueue size shows stage task (system.stepTask virtQueue dma task waker fired)
  := by
  obtain ⟨hbound, hslot⟩ := h.awaited_cases (congrArg TaskPc.awaited hpc)
  have hcapacity := lt_of_lt_of_le hbound h.capacity
  have hgoes : ∀ table : InFlight, table.capacity = system.table.capacity →
      (∀ token, (stage token).Fills (table.slots token)) →
      (∀ token, system.table.slots token = .idle → table.slots token = .idle) → ∀ ready : Bool,
      Goes virtQueue size shows stage task (.ok ({ system with table }.goto task
        (if ready || fired then .wait token else .arm token), .quiet)) := by
    intro table hsame hslots hidle ready
    apply quiet
    apply h.move h.shown
    · apply Passes.keep hpc
      split <;> rfl
    · exact hsame
    · exact hslots
    · exact hpc
    · split <;> rfl
    · apply h.still_tested _ hidle
      split <;> rfl
  rw [System.stepTask, hpc]
  simp only
  rcases hslot with ⟨parked, hpending⟩ | ⟨len, hready, hcomplete⟩
  · obtain ⟨table, harm, hsame, ⟨parked', hparked⟩, hothers⟩ :=
      arm_pending hcapacity hpending waker
    rw [harm]
    apply hgoes table hsame
    · intro other
      have hfills := h.slots other
      by_cases heq : other = token
      · subst heq
        rw [hpending] at hfills
        rw [hparked]
        generalize stage other = now at *
        cases now with
        | flying | popped => exact ⟨parked', rfl⟩
        | free | placed | ready => cases hfills
      · rw [hothers other heq]
        exact hfills
    · intro other hidle
      have hne : other ≠ token := by
        rintro rfl
        rw [hpending] at hidle
        cases hidle
      rw [hothers other hne]
      exact hidle
  · rw [arm_complete hcapacity hcomplete]
    exact hgoes system.table rfl h.slots (fun _ => id) true

/-- A chain in the queue is registered, unless a task that has the lock is about to. -/
theorem flying_of_mem (hpc : system.tasks task = old) (hholds : old.holds = true)
    (hplacing : old.placing = none) (hmem : token ∈ owed.flight) :
  ∃ owner, stage token = .flying owner
  := by
  have hqueued := (h.flight token).mp hmem
  cases hstage : stage token with
  | flying owner => exact ⟨owner, rfl⟩
  | placed other =>
    have hother := (h.placing other token).mpr hstage
    have hholdsOther : (system.tasks other).holds = true := by
      cases hpc : system.tasks other with
      | kick | register => rfl
      | _ =>
        rw [hpc] at hother
        cases hother
    rw [h.holder_unique (hpc ▸ hholds) hholdsOther, hpc, hplacing] at hother
    cases hother
  | free | popped | ready =>
    rw [hstage] at hqueued
    cases hqueued

end

theorem awaited_drain {drained drained' token len : Nat} (other : Nat) :
  (TaskPc.record token len drained goal).awaited = some other ↔
    (TaskPc.drain drained' goal).awaited = some other
  := by
  cases goal with
  | submit request | wait token => rfl

section

variable (h : Tracks virtQueue size shows system owed stage)
include h

section

variable (hconforms : virtQueue.Conforms size shows)

include hconforms

theorem popped {drained token len : Nat} {goal : Goal} {rest : List (Nat × Nat)}
    (hpc : system.tasks task = .drain drained goal) (hdone : owed.done = (token, len) :: rest) :
  ∃ queue owner, virtQueue.popUsed system.queue = .ok (some (token, len), queue) ∧
    stage token = .flying owner ∧ Tracks virtQueue size shows
      ({ system with queue }.goto task (.record token len drained goal))
      ⟨owed.flight.erase token, rest⟩ (update stage token (.popped owner task len))
  := by
  have hmem : token ∈ owed.flight := by
    apply hconforms.done _ _ h.shown (token, len)
    rw [hdone]
    exact mem_cons_self
  obtain ⟨owner, hflying⟩ := h.flying_of_mem hpc rfl rfl hmem
  obtain ⟨queue, hpop, hshown⟩ := hconforms.pops _ _ h.shown
  have howed : owed.pop = ⟨owed.flight.erase token, rest⟩ := by
    rw [Owed.pop, hdone]
  rw [howed] at hshown
  rw [hdone] at hpop
  have hfills := h.slots token
  rw [hflying] at hfills
  refine ⟨queue, owner, hpop, hflying, ?_⟩
  apply h.advance hpc hflying hshown
  · exact .keep hpc rfl
  · rfl
  · intro other
    rw [Finset.mem_erase]
    by_cases heq : other = token
    · rw [heq]
      simp [Stage.queued]
    · rw [update_of_ne heq, and_iff_right heq]
      exact h.flight other
  · exact h.lt_size hflying (by rintro ⟨⟩)
  · exact hfills
  · exact fun _ _ => rfl
  · exact .inl ⟨fun _ => Iff.rfl, by simp⟩
  · exact .inl ⟨awaited_drain, fun _ => Iff.rfl⟩
  · intro len'
    refine .inr ⟨?_, ?_, ?_⟩ <;> simp +contextual [TaskPc.recording, eq_comm]
  · exact h.none_places hpc rfl rfl

theorem drained {drained : Nat} (hpc : system.tasks task = .drain drained goal)
    (hdone : owed.done = []) :
  ∃ queue, virtQueue.popUsed system.queue = .ok (none, queue) ∧ Tracks virtQueue size shows
    ({ system with queue, holder := none }.goto task (System.afterDrain drained goal))
    owed stage
  := by
  have hafter : (System.afterDrain drained goal).holds = false ∧
      (System.afterDrain drained goal).places = false ∧
      (System.afterDrain drained goal).view = (TaskPc.drain drained goal).view := by
    cases goal with
    | submit request => exact ⟨rfl, rfl, rfl⟩
    | wait token =>
      rw [System.afterDrain]
      split <;> exact ⟨rfl, rfl, rfl⟩
  obtain ⟨queue, hpop, hshown⟩ := hconforms.pops _ _ h.shown
  have howed : owed.pop = owed := by
    rw [Owed.pop, hdone]
  rw [howed] at hshown
  rw [hdone] at hpop
  refine ⟨queue, hpop, ?_⟩
  apply h.move hshown
  · exact h.releases hpc rfl hafter.1
  · rfl
  · exact h.slots
  · exact hpc
  · exact hafter.2.2
  · exact h.none_places hpc rfl hafter.2.1

theorem stepDrain {drained : Nat} (hpc : system.tasks task = .drain drained goal) :
  Goes virtQueue size shows stage task (system.stepTask virtQueue dma task waker fired)
  := by
  rw [System.stepTask, hpc]
  cases hdone : owed.done with
  | nil =>
    obtain ⟨queue, hpop, h'⟩ := h.drained hconforms hpc hdone
    rw [hpop]
    exact h'.quiet
  | cons completion rest =>
    obtain ⟨queue, owner, hpop, hflying, h'⟩ := h.popped hconforms hpc hdone
    rw [hpop]
    exact ⟨_, _, _, _, rfl, h', .popped hflying⟩

end

theorem recorded {token drained : Nat} (hpc : system.tasks task = .record token len drained goal) :
  ∃ parked owner, system.table.complete token len =
      .ok (parked, system.table.set token (.complete len)) ∧
    stage token = .popped owner task len ∧ Tracks virtQueue size shows
      ({ system with table := system.table.set token (.complete len) }.goto task
        (.drain (drained + 1) goal))
      owed (update stage token (.ready owner len))
  := by
  obtain ⟨owner, hpopped⟩ := (h.recording len task token).mp (by
    rw [hpc]
    rfl)
  have hbound := h.lt_size hpopped nofun
  have hfills := h.slots token
  rw [hpopped] at hfills
  obtain ⟨parked, hpending⟩ := hfills
  refine ⟨parked, owner, complete_eq (lt_of_lt_of_le hbound h.capacity) hpending len, hpopped, ?_⟩
  apply h.advance hpc hpopped h.shown
  · exact .keep hpc rfl
  · rfl
  · exact h.flight_update hpopped rfl
  · exact hbound
  · rw [set_slots_self]
    rfl
  · exact fun _ hne => set_slots_of_ne _ _ hne
  · exact .inl ⟨fun _ => Iff.rfl, by simp⟩
  · exact .inl ⟨fun other => (awaited_drain other).symm, fun _ => Iff.rfl⟩
  · intro len'
    refine .inr ⟨?_, ?_, ?_⟩ <;> simp +contextual [TaskPc.recording, eq_comm]
  · exact h.none_places hpc rfl rfl

theorem stepRecord {token drained : Nat}
    (hpc : system.tasks task = .record token len drained goal) :
  Goes virtQueue size shows stage task (system.stepTask virtQueue dma task waker fired)
  := by
  obtain ⟨parked, owner, hcomplete, hpopped, h'⟩ := h.recorded hpc
  rw [System.stepTask, hpc]
  simp only
  rw [hcomplete]
  refine ⟨_, _, owed, _, rfl, h', ?_⟩
  apply Moves.quiet
  · apply Updates.view Stage.owner
    rw [hpopped]
    rfl
  · apply Updates.view Stage.length
    rw [hpopped]
    rfl

/-- A task can step: it has something to do, the lock of the queue is free if it wants it, and the
identifier that it is about to test is in the table. -/
structure Enabled (virtQueue : VirtQueue Q) (system : System Q) (task : Nat) : Prop where
  busy : system.tasks task ≠ .idle
  free : ∀ request, system.tasks task = .submit request → system.holder = none
  next : ∀ request, system.tasks task = .test request →
    virtQueue.hasRoomFor system.queue request.buffers →
    virtQueue.nextFreeDescriptor system.queue < system.table.capacity

theorem stepTask (hconforms : virtQueue.Conforms size shows)
    (henabled : Enabled virtQueue system task) :
  Goes virtQueue size shows stage task (system.stepTask virtQueue dma task waker fired)
  := by
  cases hpc : system.tasks task with
  | idle => exact absurd hpc henabled.busy
  | submit request => exact h.stepSubmit hpc (henabled.free request hpc)
  | test request => exact h.stepTest hpc (henabled.next request hpc)
  | place request => exact h.stepPlace hconforms hpc
  | kick token => exact h.stepKick hconforms hpc
  | register token => exact h.stepRegister hpc
  | wait token => exact h.stepWait hpc
  | reap token => exact h.stepReap hpc
  | drain drained goal => exact h.stepDrain hconforms hpc
  | record token len drained goal => exact h.stepRecord hpc
  | arm token => exact h.stepArm hpc

end

theorem enabled_of_eq {result : Except Fault (System Q × Event)}
    (h : system.stepTask virtQueue dma task waker fired = result) (hne : result ≠ .error .notEnabled)
    (hnext : ∀ request, system.tasks task = .test request →
      virtQueue.hasRoomFor system.queue request.buffers →
      virtQueue.nextFreeDescriptor system.queue < system.table.capacity) :
  Enabled virtQueue system task
  := by
  subst h
  refine ⟨?_, ?_, hnext⟩
  · intro hpc
    rw [System.stepTask, hpc] at hne
    exact hne rfl
  · intro request hpc
    by_contra hheld
    rw [System.stepTask, hpc] at hne
    exact hne (if_neg hheld)

theorem enabled_of_ok {system' : System Q}
    (h : system.stepTask virtQueue dma task waker fired = .ok (system', event)) :
  Enabled virtQueue system task
  := by
  apply enabled_of_eq h nofun
  intro request hpc hroom
  rw [System.stepTask, hpc] at h
  simp only [if_pos hroom] at h
  by_contra hlt
  rw [isIdle, slot, if_neg hlt] at h
  cases h

section

variable (h : Tracks virtQueue size shows system owed stage)
include h

/-- The only step that may panic is the test of a request without buffers. -/
theorem panic_of_empty (hconforms : virtQueue.Conforms size shows) {panic : InFlightPanic}
    (hpanic : system.stepTask virtQueue dma task waker fired = .error (.panic panic)) :
  ∃ request, system.tasks task = .test request ∧ request.buffers = 0
  := by
  by_contra hnone
  have henabled : Enabled virtQueue system task := by
    apply enabled_of_eq hpanic nofun
    intro request hpc hroom
    apply lt_of_lt_of_le _ h.capacity
    apply hconforms.room _ _ _ h.shown hroom
    exact fun hempty => hnone ⟨request, hpc, hempty⟩
  obtain ⟨system', event, owed', stage', heq, _⟩ :=
    @stepTask _ _ _ _ _ _ _ _ dma waker fired h hconforms henabled
  rw [heq] at hpanic
  cases hpanic

theorem call (hpc : system.tasks task = .idle) (request : Request) :
  Tracks virtQueue size shows (system.goto task (.submit request)) owed stage
  := h.turn hpc (.keep hpc rfl) rfl rfl

theorem device (hconforms : virtQueue.Conforms size shows) {step : DeviceStep}
    (hdevice : virtQueue.device system.queue step = some queue) :
  ∃ owed', Tracks virtQueue size shows { system with queue } owed' stage
  := by
  obtain ⟨hnext, more, hshown⟩ := hconforms.device _ _ _ _ h.shown hdevice
  refine ⟨_, { h with shown := hshown, tested := ?_ }⟩
  simp only [hnext]
  exact h.tested

end

end Tracks

/-! ### The ledger -/

/-- What was submitted, with the task; what was popped, with the length; and what was taken, with
both. -/
structure Ledger where
  submitted : List (Nat × Nat)
  popped : List (Nat × Nat)
  taken : List (Nat × Nat × Nat)

namespace Ledger

variable (ledger : Ledger)

variable {α : Type}

def empty : Ledger := ⟨[], [], []⟩

def enter (task : Nat) : Event → Ledger
  | .submitted token => { ledger with submitted := ledger.submitted ++ [(token, task)] }
  | .popped token len => { ledger with popped := ledger.popped ++ [(token, len)] }
  | .taken token len => { ledger with taken := ledger.taken ++ [(token, task, len)] }
  | .quiet | .refused _ => ledger

def note (_ : System Q) (op : SystemOp) (event : Event) : Ledger :=
  match op with
  | .step task _ _ => ledger.enter task event
  | .call _ _ | .device _ => ledger

/-- The entries of a list for an identifier, in order. -/
def entries {α : Type} (list : List (Nat × α)) (token : Nat) : List α :=
  (list.filter fun entry => entry.1 == token).map Prod.snd

@[simp] theorem entries_concat_self (list : List (Nat × α)) (token : Nat) (a : α) :
  entries (list ++ [(token, a)]) token = entries list token ++ [a]
  := by
  simp [entries, filter_append]

theorem entries_concat_of_ne (list : List (Nat × α)) {token other : Nat} (a : α)
    (h : other ≠ token) :
  entries (list ++ [(token, a)]) other = entries list other
  := by
  simp [entries, h.symm]

/-- The tasks that submitted chains with an identifier. -/
def submitters : Nat → List Nat := entries ledger.submitted

/-- The lengths that were popped for an identifier. -/
def lengths : Nat → List Nat := entries ledger.popped

/-- Who took the completions of an identifier, and what lengths. -/
def takers : Nat → List (Nat × Nat) := entries ledger.taken

/-- What was submitted was taken or is waited for, and what was popped was taken or is there. -/
structure Balances (ledger : Ledger) (stage : Nat → Stage) : Prop where
  submitters : ∀ token, ledger.submitters token =
    (ledger.takers token).map Prod.fst ++ (stage token).owner.toList
  lengths : ∀ token, ledger.lengths token =
    (ledger.takers token).map Prod.snd ++ (stage token).length.toList

theorem Balances.enter {ledger : Ledger} {stage' : Nat → Stage} (h : ledger.Balances stage)
    (hmoves : Moves stage task event stage') :
  (ledger.enter task event).Balances stage'
  := by
  cases hmoves with
  | quiet howner hlength =>
    constructor
    · intro token
      rw [howner]
      exact h.submitters token
    · intro token
      rw [hlength]
      exact h.lengths token
  | refused => exact h
  | @submitted token hplaced =>
    constructor
    · intro other
      have hbefore := h.submitters other
      by_cases heq : other = token
      · simp_all [Ledger.submitters, Ledger.takers, Ledger.enter, Stage.owner]
      · rw [update_of_ne heq, Ledger.submitters, Ledger.enter, entries_concat_of_ne _ _ heq]
        exact hbefore
    · intro other
      rw [Updates.view Stage.length (by rw [hplaced]; rfl)]
      exact h.lengths other
  | @popped token len owner hflying =>
    constructor
    · intro other
      rw [Updates.view Stage.owner (by rw [hflying]; rfl)]
      exact h.submitters other
    · intro other
      have hbefore := h.lengths other
      by_cases heq : other = token
      · simp_all [Ledger.lengths, Ledger.takers, Ledger.enter, Stage.length]
      · rw [update_of_ne heq, Ledger.lengths, Ledger.enter, entries_concat_of_ne _ _ heq]
        exact hbefore
  | @taken token len hready =>
    constructor
    · intro other
      have hbefore := h.submitters other
      by_cases heq : other = token
      · simp_all [Ledger.submitters, Ledger.takers, Ledger.enter, Stage.owner]
      · rw [update_of_ne heq, Ledger.takers, Ledger.enter, entries_concat_of_ne _ _ heq]
        exact hbefore
    · intro other
      have hbefore := h.lengths other
      by_cases heq : other = token
      · simp_all [Ledger.lengths, Ledger.takers, Ledger.enter, Stage.length]
      · rw [update_of_ne heq, Ledger.takers, Ledger.enter, entries_concat_of_ne _ _ heq]
        exact hbefore

end Ledger

/-- The states that a system reaches, with their ledgers. -/
def Reached (virtQueue : VirtQueue Q) (dma : Dma) (capacity : Nat) (system : System Q)
    (ledger : Ledger) : Prop :=
  Reachable (instrument (System.step virtQueue dma) Ledger.note)
    (fun state => state = (System.new virtQueue capacity, Ledger.empty)) (fun _ _ => True)
    (system, ledger)

section

variable {capacity token : Nat} {waker : Waker} {ledger : Ledger} {system' : System Q}

theorem Tracks.step (h : Tracks virtQueue size shows system owed stage)
    (hbalances : ledger.Balances stage) (hconforms : virtQueue.Conforms size shows)
    {op : SystemOp} (hstep : system.step virtQueue dma op = .ok (system', event)) :
  ∃ owed' stage', Tracks virtQueue size shows system' owed' stage' ∧
    (ledger.note system op event).Balances stage'
  := by
  cases op with
  | call task request =>
    simp only [System.step] at hstep
    split at hstep <;> cases hstep
    rename_i hpc
    exact ⟨owed, stage, h.call hpc request, hbalances⟩
  | device step =>
    simp only [System.step] at hstep
    split at hstep <;> cases hstep
    rename_i hdevice
    obtain ⟨owed', h'⟩ := h.device hconforms hdevice
    exact ⟨owed', stage, h', hbalances⟩
  | step task waker fired =>
    obtain ⟨system'', event', owed', stage', heq, h', hmoves⟩ :=
      @Tracks.stepTask _ _ _ _ _ _ _ _ dma waker fired h hconforms (Tracks.enabled_of_ok hstep)
    rw [System.step, heq] at hstep
    cases hstep
    exact ⟨owed', stage', h', hbalances.enter hmoves⟩

theorem tracks_new (hconforms : virtQueue.Conforms size shows) (hsize : size ≤ capacity) :
  Tracks virtQueue size shows (System.new virtQueue capacity) ⟨∅, []⟩ (fun _ => .free)
  := by
  constructor
  · exact hconforms.start
  · exact hsize
  · simp [Stage.queued]
  · exact fun _ hne => absurd rfl hne
  · exact fun _ => rfl
  · simp [System.new, TaskPc.placing]
  · simp [System.new, TaskPc.awaited, Stage.owner]
  · simp [System.new, TaskPc.recording]
  · simp [System.new, TaskPc.holds]
  · exact fun _ _ hplace => by cases hplace

theorem Reached.tracks (hconforms : virtQueue.Conforms size shows) (hsize : size ≤ capacity)
    (h : Reached virtQueue dma capacity system ledger) :
  ∃ owed stage, Tracks virtQueue size shows system owed stage ∧ ledger.Balances stage
  := by
  apply @Reachable.invariant _ _ _ _ _ _ _ (fun state => ∃ owed stage,
    Tracks virtQueue size shows state.1 owed stage ∧ state.2.Balances stage) _ _ _ h
  · rintro _ rfl
    exact ⟨_, _, tracks_new hconforms hsize, fun _ => rfl, fun _ => rfl⟩
  · rintro ⟨system, ledger⟩ op ⟨system', ledger'⟩ event ⟨owed, stage, htracks, hbalances⟩ _ hstep
    obtain ⟨htaken, rfl⟩ := instrument_eq_ok hstep
    exact htracks.step hbalances hconforms htaken

/-! ### Progress -/

theorem System.goto_tasks (system : System Q) (task : Nat) (pc : TaskPc) :
  (system.goto task pc).tasks task = pc
  := update_self ..

/-- A task that runs on its own takes a completion. -/
def Collected (virtQueue : VirtQueue Q) (dma : Dma) (system : System Q) (task token len : Nat)
    (waker : Waker) : Prop :=
  ∃ count system' events, run (System.step virtQueue dma) system
    (replicate count (.step task waker false)) = .ok (system', events ++ [.taken token len])

theorem Collected.of_step
    (hstep : system.stepTask virtQueue dma task waker false = .ok (system', event))
    (h : Collected virtQueue dma system' task token len waker) :
  Collected virtQueue dma system task token len waker
  := by
  obtain ⟨count, system'', events, hrun⟩ := h
  refine ⟨count + 1, system'', event :: events, ?_⟩
  rw [replicate_succ, run, System.step, hstep]
  simp only
  rw [hrun]
  rfl

theorem Tracks.collected_of_complete (h : Tracks virtQueue size shows system owed stage)
    (hpc : system.tasks task = .wait token)
    (hcomplete : system.table.slots token = .complete len) :
  Collected virtQueue dma system task token len waker
  := by
  obtain ⟨hbound, _⟩ := h.awaited_cases (congrArg TaskPc.awaited hpc)
  refine ⟨1, { system with table := system.table.set token .idle }.goto task .idle, [], ?_⟩
  rw [replicate_one, run, System.step, System.stepTask, hpc]
  simp only
  rw [take_complete (lt_of_lt_of_le hbound h.capacity) hcomplete]
  rfl

/-- A task that drains the queue records what it waits for, and takes it then. -/
theorem Tracks.collected_of_drain (hconforms : virtQueue.Conforms size shows)
    {done : List (Nat × Nat)} {system : System Q} {flight : Finset Nat} {stage : Nat → Stage}
    {drained : Nat} (h : Tracks virtQueue size shows system ⟨flight, done⟩ stage)
    (hpc : system.tasks task = .drain drained (.wait token)) (hdone : (token, len) ∈ done ∨ 0 <
      drained ∧ system.table.slots token = .complete len) :
  Collected virtQueue dma system task token len waker
  := by
  -- On the completions that are still to be popped.
  induction done generalizing system flight stage drained with
  | nil =>
    obtain ⟨hdrained, hcomplete⟩ := hdone.resolve_left (not_mem_nil)
    obtain ⟨queue, hpop, h'⟩ := h.drained hconforms hpc rfl
    have hafter : System.afterDrain drained (.wait token) = .wait token := by
      rw [System.afterDrain, if_neg (ne_of_gt hdrained)]
    rw [hafter] at h'
    have hstep : system.stepTask virtQueue dma task waker false =
        .ok ({ system with queue, holder := none }.goto task (.wait token), .quiet) := by
      rw [System.stepTask, hpc]
      simp only
      rw [hpop, hafter]
      rfl
    apply Collected.of_step hstep
    apply h'.collected_of_complete
    · exact goto_tasks ..
    · exact hcomplete
  | cons completion rest ih =>
    obtain ⟨token', len'⟩ := completion
    obtain ⟨queue, owner, hpop, hflying, h'⟩ := h.popped hconforms hpc rfl
    obtain ⟨parked, owner', hcompleted, hpopped, h''⟩ := h'.recorded (goto_tasks ..)
    have hstep : system.stepTask virtQueue dma task waker false =
        .ok ({ system with queue }.goto task (.record token' len' drained (.wait token)),
          .popped token' len') := by
      rw [System.stepTask, hpc]
      rw [hpop]
      rfl
    have hrecord : ({ system with queue }.goto task
        (.record token' len' drained (.wait token))).stepTask virtQueue dma task waker false =
        .ok ({ { system with queue }.goto task
            (.record token' len' drained (.wait token)) with
            table := system.table.set token' (.complete len') }.goto task
            (.drain (drained + 1) (.wait token)), .quiet) := by
      rw [System.stepTask, goto_tasks]
      simp only
      rw [hcompleted]
      rfl
    apply Collected.of_step hstep
    apply Collected.of_step hrecord
    apply ih h'' (goto_tasks ..)
    rcases hdone with hmem | ⟨_, hcomplete⟩
    · rcases mem_cons.mp hmem with heq | hrest
      · cases heq
        exact .inr ⟨succ_pos _, set_slots_self ..⟩
      · exact .inl hrest
    · have hne : token ≠ token' := by
        rintro rfl
        have hfills := h.slots token
        rw [hflying, hcomplete] at hfills
        obtain ⟨_, hslot⟩ := hfills
        cases hslot
      exact .inr ⟨succ_pos _, (set_slots_of_ne _ _ hne).trans hcomplete⟩

/-- A task that looks for its completion while the lock of the queue is free drains the queue, if
the completion is not recorded yet. -/
theorem Tracks.collected (h : Tracks virtQueue size shows system owed stage)
    (hconforms : virtQueue.Conforms size shows)
    (hpc : system.tasks task = .wait token) (hfree : system.holder = none)
    (hdone : (token, len) ∈ owed.done ∨ system.table.slots token = .complete len) :
  Collected virtQueue dma system task token len waker
  := by
  rcases hdone with hdone | hcomplete
  · obtain ⟨hbound, hslot⟩ := h.awaited_cases (congrArg TaskPc.awaited hpc)
    have hmem := hconforms.done _ _ h.shown _ hdone
    obtain ⟨parked, hpending⟩ : ∃ parked, system.table.slots token = .pending parked := by
      rcases hslot with hpending | ⟨len', hready, _⟩
      · exact hpending
      · have hqueued := (h.flight token).mp hmem
        rw [hready] at hqueued
        cases hqueued
    have hlook : system.stepTask virtQueue dma task waker false =
        .ok (system.goto task (.reap token), .quiet) := by
      rw [System.stepTask, hpc]
      simp only
      rw [take_pending (lt_of_lt_of_le hbound h.capacity) hpending]
      rfl
    have hlock : (system.goto task (.reap token)).stepTask virtQueue dma task waker false =
        .ok ({ system.goto task (.reap token) with holder := some task }.goto task
          (.drain 0 (.wait token)), .quiet) := by
      rw [System.stepTask, goto_tasks]
      simp only
      rw [if_pos (show (system.goto task (.reap token)).holder = none from hfree)]
    apply Collected.of_step hlook
    apply Collected.of_step hlock
    apply ((h.looks hpc).locks (goto_tasks ..) hfree).collected_of_drain hconforms
    · exact goto_tasks ..
    · exact .inl hdone
  · exact h.collected_of_complete hpc hcomplete

end

/-! ### The protocol -/

/-- The completions of a system are collected by their submitters. -/
structure Collects (virtQueue : VirtQueue Q) (dma : Dma) (shows : Q → Owed → Prop)
    (system : System Q) (ledger : Ledger) : Prop where
  /-- Only the test of a request without buffers may panic. -/
  panics : ∀ op panic, system.step virtQueue dma op = .error (.panic panic) →
    ∃ task request waker fired, op = .step task waker fired ∧
      system.tasks task = .test request ∧ request.buffers = 0
  /-- Every earlier completion of an identifier is collected when it is registered. -/
  registers : ∀ task token, system.tasks task = .register token →
    ledger.submitters token = (ledger.takers token).map Prod.fst ∧
      ledger.lengths token = (ledger.takers token).map Prod.snd
  /-- The chains with an identifier were taken by those who submitted them, in this order, but for
  the last, if its task still waits for it. -/
  submitters : ∀ token, ledger.submitters token = (ledger.takers token).map Prod.fst ∨
    ∃ task, (system.tasks task).awaited = some token ∧
      ledger.submitters token = (ledger.takers token).map Prod.fst ++ [task]
  /-- The lengths that were popped were taken, in this order, but for the last, if its task still
  waits for it. -/
  lengths : ∀ token, ledger.lengths token = (ledger.takers token).map Prod.snd ∨
    ∃ task len, (system.tasks task).awaited = some token ∧
      ledger.lengths token = (ledger.takers token).map Prod.snd ++ [len]
  /-- A task that looks for a completion that was made takes it. -/
  collected : ∃ owed, shows system.queue owed ∧ ∀ task token len waker,
    system.tasks task = .wait token → system.holder = none →
    (token, len) ∈ owed.done ∨ system.table.slots token = .complete len →
    Collected virtQueue dma system task token len waker

/-- In every interleaving of tasks that submit, drain and wait, on a queue that fits the table, no
access to the table panics and each completion is taken once, by the task that submitted it. -/
theorem completions_collected {virtQueue : VirtQueue Q} {size capacity : Nat}
    {shows : Q → Owed → Prop} (hconforms : virtQueue.Conforms size shows) (hsize : size ≤ capacity)
    (dma : Dma) {system : System Q} {ledger : Ledger}
    (h : Reached virtQueue dma capacity system ledger) :
  Collects virtQueue dma shows system ledger
  := by
  obtain ⟨owed, stage, htracks, hbalances⟩ := h.tracks hconforms hsize
  constructor
  · intro op panic hpanic
    cases op with
    | call task request | device step =>
      simp only [System.step] at hpanic
      split at hpanic
      · cases hpanic
      · cases hpanic
    | step task waker fired =>
      obtain ⟨request, hpc, hempty⟩ := htracks.panic_of_empty hconforms hpanic
      exact ⟨task, request, waker, fired, rfl, hpc, hempty⟩
  · intro task token hpc
    have hplaced : stage token = .placed task := by
      apply (htracks.placing task token).mp
      rw [hpc]
      rfl
    have hsubmitters := hbalances.submitters token
    have hlengths := hbalances.lengths token
    rw [hplaced, Stage.owner, toList_none, append_nil] at hsubmitters
    rw [hplaced, Stage.length, toList_none, append_nil] at hlengths
    exact ⟨hsubmitters, hlengths⟩
  · intro token
    have hsubmitters := hbalances.submitters token
    cases howner : (stage token).owner with
    | none =>
      rw [howner, toList_none, append_nil] at hsubmitters
      exact .inl hsubmitters
    | some task =>
      rw [howner] at hsubmitters
      exact .inr ⟨task, (htracks.awaited task token).mpr howner, hsubmitters⟩
  · intro token
    have hlengths := hbalances.lengths token
    cases hstage : stage token with
    | free | placed | flying =>
      rw [hstage, Stage.length, toList_none, append_nil] at hlengths
      exact .inl hlengths
    | popped task drainer len | ready task len =>
      rw [hstage] at hlengths
      right
      refine ⟨task, len, (htracks.awaited task token).mpr ?_, hlengths⟩
      rw [hstage]
      rfl
  · refine ⟨owed, htracks.shown, ?_⟩
    intro task token len waker
    exact htracks.collected hconforms

end

/-- Two tasks submit, the device uses the second chain first, and the second task drains both
completions and takes its own before the first takes the other. -/
def twoRequests (flags : Nat) : List SystemOp :=
  let request : Request := ⟨[⟨4096, 16⟩], none, [⟨8192, 32⟩]⟩
  let waker : Waker := (0 : Nat)
  .call 0 request :: replicate 5 (.step 0 waker false) ++
    .call 1 request :: replicate 5 (.step 1 waker false) ++
    [.device .fetch, .device .fetch, .device (.use 1 7 flags), .device (.use 0 9 flags)] ++
    replicate 8 (.step 1 waker false) ++ [.step 0 waker false]

def identityDma : Dma := ⟨some, fun start _ => some start⟩

theorem Reached.of_run (virtQueue : VirtQueue Q) (ops : List SystemOp)
    (taken : List (Nat × Nat × Nat))
    (h : (runAllowed (instrument (System.step virtQueue identityDma) Ledger.note) (fun _ _ => True)
      (System.new virtQueue 8, .empty) ops).map (·.2.taken) = some taken) :
  ∃ system ledger, Reached virtQueue identityDma 8 system ledger ∧ ledger.taken = taken
  := by
  obtain ⟨⟨system, ledger⟩, hstate, htaken⟩ := map_eq_some_iff.mp h
  exact ⟨system, ledger, Reachable.of_runAllowed (.start rfl) hstate, htaken⟩

theorem completions_collected_sample :
  (∃ system ledger, Reached (splitQueue 4 4 ⟨false, false, false⟩ 0) identityDma 8 system ledger ∧
    ledger.taken = [(2, 1, 7), (0, 0, 9)] ∧ Collects (splitQueue 4 4 ⟨false, false, false⟩ 0)
      identityDma (splitShows 2 4 ⟨false, false, false⟩) system ledger) ∧
  (∃ system ledger, Reached (packedQueue 4 4 ⟨false, false, false⟩ 0) identityDma 8 system ledger ∧
    ledger.taken = [(1, 1, 7), (0, 0, 9)] ∧ Collects (packedQueue 4 4 ⟨false, false, false⟩ 0)
      identityDma (packedShows 2 4 ⟨false, false, false⟩) system ledger)
  := by
  constructor
  · obtain ⟨system, ledger, hreached, htaken⟩ :=
      Reached.of_run (splitQueue 4 4 ⟨false, false, false⟩ 0) (twoRequests 0) [(2, 1, 7), (0, 0, 9)]
        (by decide +kernel)
    have hconforms := @splitQueue_conforms 2 4 ⟨false, false, false⟩ 0 (by decide) rfl
    exact ⟨system, ledger, hreached, htaken,
      completions_collected hconforms (by decide) identityDma hreached⟩
  · obtain ⟨system, ledger, hreached, htaken⟩ :=
      Reached.of_run (packedQueue 4 4 ⟨false, false, false⟩ 0) (twoRequests 32896)
        [(1, 1, 7), (0, 0, 9)] (by decide +kernel)
    have hconforms := @packedQueue_conforms 2 4 ⟨false, false, false⟩ 0 (by decide) rfl
    exact ⟨system, ledger, hreached, htaken,
      completions_collected hconforms (by decide) identityDma hreached⟩

end Helios.Virtio
