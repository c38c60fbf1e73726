import Helios.Kernel.ByteWaiters

/-!
# Parking

Each step of a call keeps what guards every waiter: the steps of a wait by what they leave of the
permit and of the waker set, the steps of a notification by handing on what is on the way from the
publication to the wake.  So when no call is in the middle of its steps, nothing is on the way
any more, and a parked waiter has nothing to do.
-/

namespace Helios.Child

open Task ByteSignal Transition WakerSet Outcome List State Option

variable {side : Side} {waker : Waker} {other : Nat} {signal : ByteSignal} {state : State}
  {channel : ByteChannel} {op : Op} {answer : Option Result} {bound : Nat} {side' : Side}

/-! ### Signals -/

theorem ByteChannel.signal_setSignal (channel : ByteChannel) (side : Side) (signal : ByteSignal) :
  (channel.setSignal side signal).signal side = signal
  := by
  cases side with
  | readable | writable => rfl

theorem ByteChannel.signal_setSignal_of_ne (channel : ByteChannel) (signal : ByteSignal)
    (h : side' ≠ side) :
  (channel.setSignal side signal).signal side' = channel.signal side'
  := by
  cases side <;> cases side' <;> first | rfl | exact absurd rfl h

theorem ByteChannel.forall_signal {P : Side → ByteSignal → Prop} (hself : P side signal)
    (hother : ∀ side, P side (channel.signal side)) (side' : Side) :
  P side' ((channel.setSignal side signal).signal side')
  := by
  by_cases h : side' = side
  · rw [h, signal_setSignal]
    exact hself
  · rw [signal_setSignal_of_ne _ _ h]
    exact hother side'

theorem mem_erase_of_spared {wakers : List Waker} {registered : Waker} (h : waker ∈ wakers)
    (hspared : wakers.count registered = 1 → waker ≠ registered) :
  waker ∈ wakers.erase registered
  := by
  by_cases heq : waker = registered
  · subst heq
    apply count_pos_iff.mp
    have hpos := count_pos_iff.mpr h
    have hmany : wakers.count waker ≠ 1 := fun hone => hspared hone rfl
    rw [count_erase_self]
    omega
  · exact (mem_erase_of_ne heq).mpr h

namespace ByteSignal

theorem mem_registerWaker (signal : ByteSignal) (registered : Option Waker) (waker : Waker) :
  waker ∈ (signal.registerWaker registered waker).wakers.wakers
  := by
  rw [registerWaker]
  split
  · rename_i hset
    obtain ⟨before, rfl, hreplace⟩ := bind_eq_some_iff.mp hset
    exact (replace_eq_some hreplace).2.mem_iff.mpr mem_cons_self
  · exact (push_perm _ _).mem_iff.mpr mem_cons_self

variable {registered : Option Waker}

theorem mem_registerWaker_of_mem {other : Waker} (h : other ∈ signal.wakers.wakers)
    (hspared : registered = some waker ∨ ∀ before, registered =
      some before → signal.wakers.wakers.count before = 1 → other ≠ before) :
  other ∈ (signal.registerWaker registered waker).wakers.wakers
  := by
  rw [registerWaker]
  split
  · rename_i hset
    obtain ⟨before, rfl, hreplace⟩ := bind_eq_some_iff.mp hset
    apply (replace_eq_some hreplace).2.mem_iff.mpr
    by_cases heq : other = waker
    · rw [heq]
      exact mem_cons_self
    · apply mem_cons_of_mem
      apply mem_erase_of_spared h
      rcases hspared with hown | hspared
      · rw [some.inj hown]
        exact fun _ => heq
      · exact hspared before rfl
  · exact (push_perm _ _).mem_iff.mpr (mem_cons_of_mem _ h)

theorem mem_removeRegisteredWaker_of_mem {other : Waker} (h : other ∈ signal.wakers.wakers)
    (hspared : ∀ before, registered = some before →
      signal.wakers.wakers.count before = 1 → other ≠ before) :
  other ∈ (signal.removeRegisteredWaker registered).wakers.wakers
  := by
  cases registered with
  | none => exact h
  | some before =>
    by_cases hmem : before ∈ signal.wakers.wakers
    · apply (remove_perm hmem).mem_iff.mpr
      exact mem_erase_of_spared h (hspared before rfl)
    · rw [removeRegisteredWaker, remove_of_notMem hmem]
      exact h

/-- The count of the waiters is the size of the set. -/
def Counted (signal : ByteSignal) : Prop := signal.waiters = signal.wakers.len

theorem counted_withWakers (signal : ByteSignal) (wakers : WakerSet) :
  (signal.withWakers wakers).Counted
  := rfl

theorem counted_registerWaker (h : signal.Counted) (registered : Option Waker) (waker : Waker) :
  (signal.registerWaker registered waker).Counted
  := by
  rw [registerWaker]
  split
  · rename_i hset
    obtain ⟨before, rfl, hreplace⟩ := bind_eq_some_iff.mp hset
    obtain ⟨hmem, hperm⟩ := replace_eq_some hreplace
    have hlength := hperm.length_eq
    have hpos := length_pos_of_mem hmem
    rw [length_cons, length_erase_of_mem hmem, length_wakers, length_wakers] at hlength
    rw [length_wakers] at hpos
    rw [Counted] at h ⊢
    simp only [h]
    omega
  · exact counted_withWakers _ _

theorem counted_removeRegisteredWaker (h : signal.Counted) (registered : Option Waker) :
  (signal.removeRegisteredWaker registered).Counted
  := by
  cases registered with
  | none => exact h
  | some waker => exact counted_withWakers _ _

variable (signal) (registered)

@[simp] theorem permit_registerWaker (waker : Waker) :
  (signal.registerWaker registered waker).permit = signal.permit
  := by
  rw [registerWaker]
  split <;> rfl

@[simp] theorem permit_removeRegisteredWaker :
  (signal.removeRegisteredWaker registered).permit = signal.permit
  := by
  cases registered with
  | none | some => rfl

end ByteSignal

/-! ### What is on the way -/

/-- A place from which nothing is on the way. -/
def Pc.silent : Pc → Bool
  | .notify _ _ _ _ => false
  | _ => true

section

variable {task : Task}

variable {state state' : State} {index : Nat} {part : Part} {channel' : ByteChannel}
  {progress : Progress} {outcome : Outcome} {rest : List Side} {P : Pc → Prop} {result : Result}

/-- What is on the way from some task still is, unless it was on the way from the one that
steps. -/
theorem exists_pc_of_others
    (hothers : ∀ other, other ≠ index → (state'.tasks other).pc = (state.tasks other).pc)
    (hself : P (state.tasks index).pc → P (state'.tasks index).pc)
    (h : ∃ other, P (state.tasks other).pc) :
  ∃ other, P (state'.tasks other).pc
  := by
  obtain ⟨other, hother⟩ := h
  by_cases heq : other = index
  · subst heq
    exact ⟨other, hself hother⟩
  · use other
    rw [hothers other heq]
    exact hother

/-- A step of a task from which nothing is on the way. -/
structure Silent (state state' : State) (index : Nat) : Prop where
  silent : (state.tasks index).pc.silent
  others : ∀ other, other ≠ index → state'.tasks other = state.tasks other

section

variable (h : Silent state state' index)

include h

theorem Silent.pc_others (other : Nat) (hne : other ≠ index) :
  (state'.tasks other).pc = (state.tasks other).pc
  := by
  rw [h.others other hne]

theorem Silent.carries (hquiet : ∀ pc : Pc, pc.silent → ¬ P pc)
    (hon : ∃ other, P (state.tasks other).pc) :
  ∃ other, P (state'.tasks other).pc
  := by
  apply exists_pc_of_others h.pc_others _ hon
  intro hpc
  exact absurd hpc (hquiet _ h.silent)

theorem Silent.publishes :
  state.Publishes side → state'.Publishes side
  := h.carries (by rintro ⟨⟩ <;> nofun)

theorem Silent.comes :
  state.Comes side → state'.Comes side
  := h.carries (by rintro ⟨⟩ <;> nofun)

theorem Silent.wakes :
  state.Wakes waker → state'.Wakes waker
  := h.carries (by rintro ⟨⟩ <;> nofun)

end

/-! ### The steps of a wait -/

theorem Call.found_initial (call : Call) (access : Nat) :
  call.found access <+: call.awaits
  := by
  fun_cases call.found access <;> exact ⟨_, rfl⟩

theorem Task.tested_awaits (h : part ∈ task.tested) :
  part ∈ task.call.awaits
  := by
  rw [tested] at h
  split at h
  · exact (Call.found_initial _ _).subset h
  all_goals first | exact h | cases h

/-- What a step of a wait must leave: what makes something hold notifies it, a permit that another
call relies on stays, and so does the entry of another wait. -/
structure Frames (state state' : State) (index : Nat) : Prop extends Silent state state' index where
  counted : ∀ side, (state'.channel.signal side).Counted
  closed : state.channel.writerClosed = true → state'.channel.writerClosed = true
  gone : state.channel.writerHandles = 0 → state'.channel.writerHandles = 0
  raises : ∀ waiter part, part ∈ Call.awaits waiter → part.Holds state'.channel →
    part.Holds state.channel ∨ state'.Publishes waiter.side ∨
      (waiter.side = .writable ∧ state'.channel.writerHandles = 0)
  permit : ∀ other, other ≠ index → (state.tasks other).Relies →
    state'.Live (state.tasks other).call.side → (state.tasks other).Due state'.channel →
    (state.channel.signal (state.tasks other).call.side).permit = true →
    (state'.channel.signal (state.tasks other).call.side).permit = true ∨
      state'.Publishes (state.tasks other).call.side
  listed : ∀ other, other ≠ index → (state.tasks other).Settled →
    (state.tasks other).waker ∈
      (state.channel.signal (state.tasks other).call.side).wakers.wakers →
    (state.tasks other).waker ∈
      (state'.channel.signal (state.tasks other).call.side).wakers.wakers

section

variable (h : Frames state state' index)

include h

theorem Frames.live (hlive : state'.Live side) :
  state.Live side
  := by
  intro hside hnone
  exact hlive hside (h.gone hnone)

theorem Frames.due (hlive : state'.Live task.call.side) (hdue : task.Due state'.channel) :
  task.Due state.channel ∨ state'.Publishes task.call.side
  := by
  obtain ⟨part, htested, hholds⟩ := hdue
  rcases h.raises task.call part (tested_awaits htested) hholds with hbefore | hpublishes |
    ⟨hside, hnone⟩
  · exact .inl ⟨part, htested, hbefore⟩
  · exact .inr hpublishes
  · exact absurd hnone (hlive hside)

/-- A wait that relied on the permit before a step relies on it, or on a publication. -/
theorem Frames.relied (hguarded : Guarded state) (hrelies : (state.tasks index).Relies)
    (hlive : state'.Live (state.tasks index).call.side)
    (hpart : part ∈ (state.tasks index).tested) (hholds : part.Holds state.channel) :
  (state.channel.signal (state.tasks index).call.side).permit = true ∨
    state'.Publishes (state.tasks index).call.side
  := by
  have hrelied := (hguarded.guard index).relies hrelies (h.live hlive) ⟨part, hpart, hholds⟩
  exact hrelied.imp_right h.publishes

theorem Frames.guard (hne : other ≠ index) (hguard : Guard state (state.tasks other)) :
  Guard state' (state.tasks other)
  := by
  apply hguard.frame h.live h.due
  · exact fun hpublishes => .inl (h.publishes hpublishes)
  · exact h.permit other hne
  · exact fun hsettled hmem => .inl (h.listed other hne hsettled hmem)
  · exact fun _ => h.wakes
  · exact fun _ _ _ hcomes => .inr (.inl (h.comes hcomes))

/-- A step of a wait keeps the guard, if it does for the wait itself. -/
theorem Frames.guarded (hguarded : Guarded state)
    (hdropping : ∀ access, (state'.tasks index).pc = .access (access + 1) → (state'.tasks
      index).call = .dropWriter → state'.channel.writerHandles = 0)
    (hgoing : state'.channel.writerHandles = 0 → state.channel.writerHandles = 0 ∨ ∃ access,
      (state'.tasks index).pc = .access (access + 1) ∧ (state'.tasks index).call = .dropWriter)
    (hcloses : ∀ access, (state.tasks index).pc = .access (access + 1) → (state.tasks index).call =
      .dropWriter → state'.channel.writerClosed = true)
    (hself : Guard state' (state'.tasks index)) :
  Guarded state'
  := by
  constructor
  · exact h.counted
  · intro other access hpc hcall
    by_cases heq : other = index
    · subst heq
      exact hdropping access hpc hcall
    · rw [h.others other heq] at hpc hcall
      exact h.gone (hguarded.dropping other access hpc hcall)
  · intro hnone
    rcases hgoing hnone with hbefore | hnow
    · rcases hguarded.gone hbefore with hclosed | ⟨other, access, hpc, hcall⟩
      · exact .inl (h.closed hclosed)
      · by_cases heq : other = index
        · subst heq
          exact .inl (hcloses access hpc hcall)
        · right
          use other, access
          rw [h.others other heq]
          exact ⟨hpc, hcall⟩
    · exact .inr ⟨index, hnow⟩
  · intro other
    by_cases heq : other = index
    · rw [heq]
      exact hself
    · rw [h.others other heq]
      exact h.guard heq (hguarded.guard other)

theorem Frames.guarded_of_wait (hguarded : Guarded state)
    (hhandles : state'.channel.writerHandles = state.channel.writerHandles)
    (hbefore : ∀ access, (state.tasks index).pc ≠ .access access)
    (hafter : ∀ access, (state'.tasks index).pc ≠ .access (access + 1))
    (hself : Guard state' (state'.tasks index)) :
  Guarded state'
  := by
  apply h.guarded hguarded
  · exact fun access hpc => absurd hpc (hafter access)
  · exact fun hnone => .inl (hhandles.symm.trans hnone)
  · exact fun access hpc => absurd hpc (hbefore _)
  · exact hself

end

/-- A wait that has found nothing yet, or is not under way, has nothing to be guarded. -/
theorem guard_of_untested (hsettled : ¬ task.Settled) (htested : task.tested = []) :
  Guard state task
  := by
  have hdue : ¬ task.Due state.channel := by
    rintro ⟨part, hpart, _⟩
    rw [htested] at hpart
    cases hpart
  constructor
  · exact fun h => absurd h hsettled
  · exact fun _ _ h => absurd h hdue
  · exact fun _ _ h => absurd h hdue

theorem guard_of_unsettled (hsettled : ¬ task.Settled) (hrelies : state.Live task.call.side →
      task.Due state.channel → (state.channel.signal task.call.side).permit = true ∨
      state.Publishes task.call.side) :
  Guard state task
  := by
  constructor
  · exact fun h => absurd h hsettled
  · exact fun _ => hrelies
  · exact fun h => absurd ⟨.inr h.1, h.2⟩ hsettled

theorem Task.not_settled (hagain : task.pc ≠ .claimAgain) (hsuspended : task.pc ≠ .suspended) :
  ¬ task.Settled
  := by
  rintro ⟨hpc | hpc, _⟩
  · exact hagain hpc
  · exact hsuspended hpc

theorem frames_poll (h : Guarded state) (hpc : (state.tasks index).pc.silent) :
  Frames state (state.setTask index task) index
  := by
  constructor
  · constructor
    · exact hpc
    · exact fun other hne => setTask_of_ne _ _ hne
  · exact h.counted
  · exact id
  · exact id
  · exact fun _ _ _ hholds => .inl hholds
  · exact fun _ _ _ _ _ hpermit => .inl hpermit
  · exact fun _ _ _ hmem => hmem

theorem Guarded.poll (h : Guarded state) {call : Call}
    (hpoll : (state.tasks index).poll call waker = some task) :
  Guarded (state.setTask index task)
  := by
  rcases poll_cases hpoll with ⟨hpc, rfl⟩ | ⟨hpc, hread, rfl⟩
  · apply (frames_poll h _).guarded_of_wait h
    · rfl
    · rcases hpc with hpc | hpc <;> rw [hpc] <;> nofun
    · rw [setTask_self]
      nofun
    · rw [setTask_self]
      apply guard_of_untested
      · exact not_settled nofun nofun
      · cases call <;> rfl
    · rcases hpc with hpc | hpc <;> rw [hpc] <;> rfl
  · have hframes : Frames state (state.setTask index
        { state.tasks index with waker, pc := .claim }) index := by
      apply frames_poll h
      rw [hpc]
      rfl
    apply hframes.guarded_of_wait h
    · rfl
    · rw [hpc]
      nofun
    · rw [setTask_self]
      nofun
    · rw [setTask_self]
      apply guard_of_unsettled
      · exact not_settled nofun nofun
      -- A suspended `read` has tested the same, and relied on the permit as well.
      · rintro hlive ⟨part, hpart, hholds⟩
        apply hframes.relied h _ hlive _ hholds
        · rw [Relies, hpc]
          exact hread
        · rw [tested, hpc]
          exact hpart

/-! #### Accesses -/

theorem Outcome.lands_publishes {notices : List Side} (h : side ∈ notices) (result : Result) :
  (finish result notices).lands.1.Publishes side
  := by
  cases notices with
  | nil => cases h
  | cons first rest =>
    rcases mem_cons.mp h with rfl | hrest
    · exact .inl ⟨rfl, rfl⟩
    · exact .inr hrest

theorem Outcome.tested_lands (outcome : Outcome) (task : Task) :
  { task with pc := outcome.lands.1 }.tested = outcome.found task.call
  := by
  rcases outcome with _ | _ | ⟨_, _ | _⟩ <;> rfl

theorem Outcome.lands_ne (outcome : Outcome) :
  outcome.lands.1 ≠ .claimAgain ∧ outcome.lands.1 ≠ .suspended
  := by
  rcases outcome with _ | _ | ⟨_, _ | _⟩ <;> exact ⟨nofun, nofun⟩

theorem Outcome.next_of_lands {access : Nat} (h : outcome.lands.1 = .access access) :
  outcome = .next access
  := by
  rcases outcome with _ | _ | ⟨_, _ | _⟩ <;> cases h
  rfl

theorem Guarded.access (h : Guarded state) {access : Nat} {channel : ByteChannel}
    (hpc : (state.tasks index).pc = .access access)
    (haccess : state.channel.access (state.tasks index).call access = .ok (channel, outcome)) :
  Guarded ({ state with channel }.follow index outcome).1
  := by
  have hquiet := ByteChannel.access_quiet haccess
  have hsignal : ∀ side, channel.signal side = state.channel.signal side := by
    intro side
    cases side with
    | readable => exact hquiet.readable
    | writable => exact hquiet.writable
  rw [follow_eq]
  have hframes : Frames state (State.setTask { state with channel } index
      { state.tasks index with pc := outcome.lands.1 }) index := by
    constructor
    · constructor
      · rw [hpc]
        rfl
      · exact fun other hne => setTask_of_ne _ _ hne
    · intro side
      rw [setTask_channel, hsignal]
      exact h.counted side
    · exact hquiet.closed
    · exact hquiet.gone
    · intro waiter part hpart hholds
      have hraises := ByteChannel.access_raises haccess (by
        rintro before rfl hcall
        exact h.dropping index before hpc hcall)
      rcases hraises waiter part hpart hholds with hbefore | ⟨result, notices, rfl, hnotice⟩ | hnone
      · exact .inl hbefore
      · right
        left
        use index
        rw [setTask_self]
        exact lands_publishes hnotice result
      · exact .inr (.inr hnone)
    · intro other _ _ _ _ hpermit
      rw [setTask_channel, hsignal]
      exact .inl hpermit
    · intro other _ _ hmem
      rw [setTask_channel, hsignal]
      exact hmem
  apply hframes.guarded h
  · rw [setTask_self]
    intro next hnext hcall
    rw [hcall, next_of_lands hnext] at haccess
    exact ByteChannel.dropWriter_next haccess
  · rw [setTask_self]
    intro hnone
    rcases hquiet.going hnone with hbefore | ⟨hcall, rfl⟩
    · exact .inl hbefore
    · exact .inr ⟨0, rfl, hcall⟩
  · intro before hbefore hcall
    cases hpc.symm.trans hbefore
    rw [hcall] at haccess
    exact ByteChannel.dropWriter_closes haccess
  · rw [setTask_self]
    apply guard_of_unsettled
    · exact not_settled outcome.lands_ne.1 outcome.lands_ne.2
    · rintro hlive ⟨part, hpart, hholds⟩
      rw [tested_lands] at hpart
      obtain ⟨hfound, hbefore⟩ := ByteChannel.access_finds haccess part hpart hholds
      rw [setTask_channel, hsignal]
      apply hframes.relied h _ hlive _ hbefore
      · rw [Relies, hpc]
        exact trivial
      · rw [tested, hpc]
        exact hfound

/-! #### Waits -/

theorem Part.holds_of_same (h : SameQueue channel channel') (part : Part) :
  part.Holds channel' ↔ part.Holds channel
  := by
  cases part with
  | readerClosed => rw [Holds, Holds, h.readerClosed]
  | writerClosed => rw [Holds, Holds, h.writerClosed]
  | room | data => rw [Holds, Holds, h.queue]

theorem Task.due_of_same (h : SameQueue channel channel') (task : Task) :
  task.Due channel' ↔ task.Due channel
  := by
  simp only [Due, Part.holds_of_same h]

theorem State.live_of_same (h : SameQueue state.channel state'.channel) (side : Side) :
  state'.Live side ↔ state.Live side
  := by
  rw [Live, Live, h.writerHandles]

section

variable (state) (index)

/-- The signal that a call waits for. -/
abbrev State.awaited : ByteSignal :=
  state.channel.signal (state.tasks index).call.side

/-- A wait replaces its signal and goes on as a task. -/
abbrev State.waits (signal : ByteSignal) (task : Task) : State :=
  (state.setSignal (state.tasks index).call.side signal).setTask index task

theorem sameQueue_waits (signal : ByteSignal) (task : Task) :
  SameQueue state.channel (state.waits index signal task).channel
  := sameQueue_setSignal state.channel (state.tasks index).call.side signal

theorem State.signal_waits (signal : ByteSignal) (task : Task) :
  (state.waits index signal task).channel.signal (state.tasks index).call.side = signal
  := ByteChannel.signal_setSignal state.channel (state.tasks index).call.side signal

end

section

variable (h : Guarded state)

include h

theorem frames_wait (hpc : (state.tasks index).pc.silent) (hcounted : signal.Counted)
    (hpermit : ∀ other, other ≠ index → (state.tasks other).call.side =
      (state.tasks index).call.side → (state.tasks other).Relies → state.Live
      (state.tasks index).call.side → (state.tasks other).Due state.channel →
      (state.awaited index).permit = true → signal.permit = true ∨
      state.Publishes (state.tasks index).call.side)
    (hlisted : ∀ other, other ≠ index → (state.tasks other).call.side =
      (state.tasks index).call.side → (state.tasks other).Settled → (state.tasks other).waker ∈
      (state.awaited index).wakers.wakers → (state.tasks other).waker ∈ signal.wakers.wakers) :
  Frames state (state.waits index signal task) index
  := by
  have hsame := sameQueue_waits state index signal task
  have hsilent : Silent state (state.waits index signal task) index :=
    ⟨hpc, fun other hne => setTask_of_ne _ _ hne⟩
  constructor
  · exact hsilent
  · exact ByteChannel.forall_signal hcounted h.counted
  · exact fun hclosed => hsame.writerClosed.trans hclosed
  · exact fun hnone => hsame.writerHandles.trans hnone
  · exact fun _ part _ hholds => .inl ((Part.holds_of_same hsame part).mp hholds)
  · intro other hne hrelies hlive hdue
    rw [due_of_same hsame] at hdue
    rw [live_of_same hsame] at hlive
    by_cases hside : (state.tasks other).call.side = (state.tasks index).call.side
    · rw [hside] at hlive ⊢
      rw [signal_waits]
      intro hbefore
      exact (hpermit other hne hside hrelies hlive hdue hbefore).imp_right hsilent.publishes
    · rw [setTask_channel, State.setSignal, ByteChannel.signal_setSignal_of_ne _ _ hside]
      exact .inl
  · intro other hne hsettled
    by_cases hside : (state.tasks other).call.side = (state.tasks index).call.side
    · rw [hside, signal_waits]
      exact hlisted other hne hside hsettled
    · rw [setTask_channel, State.setSignal, ByteChannel.signal_setSignal_of_ne _ _ hside]
      exact id

theorem frames_claim {task : Task} (hpc : (state.tasks index).pc.silent)
    (hunclaimed : state.Unclaimed index) :
  Frames state (state.waits index (state.awaited index).tryClaimPermit.2 task) index
  := by
  apply frames_wait h hpc
  · exact h.counted _
  · intro other hne hside hrelies hlive hdue hpermit
    exact .inr (hunclaimed hpermit hlive other hne hside hrelies hdue)
  · exact fun _ _ _ _ hmem => hmem

theorem frames_wakers {signal : ByteSignal} {task : Task} (hpc : (state.tasks index).pc.silent)
    (hcounted : signal.Counted) (hpermit : signal.permit = (state.awaited index).permit)
    (hlisted : ∀ other, other ≠ index → (state.tasks other).call.side =
      (state.tasks index).call.side → (state.tasks other).Settled → (state.tasks other).waker ∈
      (state.awaited index).wakers.wakers → (state.tasks other).waker ∈ signal.wakers.wakers) :
  Frames state (state.waits index signal task) index
  := by
  apply frames_wait h hpc hcounted
  · intro _ _ _ _ _ _ hbefore
    rw [hpermit]
    exact .inl hbefore
  · exact hlisted

variable (hframes : Frames state (state.waits index signal task) index)

include hframes

theorem Guarded.waits (hbefore : ∀ access, (state.tasks index).pc ≠ .access access)
    (hafter : ∀ access, task.pc ≠ .access (access + 1))
    (hself : Guard (state.waits index signal task) task) :
  Guarded (state.waits index signal task)
  := by
  apply hframes.guarded_of_wait h
  · exact (sameQueue_waits ..).writerHandles
  · exact hbefore
  · rw [setTask_self]
    exact hafter
  · rw [setTask_self]
    exact hself

/-- A wait that finds no permit has nothing due, unless one is still to be published. -/
theorem Guarded.publishes_of_unclaimed
    (hpc : (state.tasks index).pc = .claim ∨ (state.tasks index).pc = .claimAgain)
    (hpermit : (state.awaited index).permit = false)
    (hlive : (state.waits index signal task).Live (state.tasks index).call.side)
    (hpart : part ∈ (state.tasks index).call.awaits)
    (hholds : part.Holds (state.waits index signal task).channel) :
  (state.waits index signal task).Publishes (state.tasks index).call.side
  := by
  have hrelies : (state.tasks index).Relies := by
    rw [Relies]
    rcases hpc with hpc | hpc <;> rw [hpc] <;> exact trivial
  have htested : part ∈ (state.tasks index).tested := by
    rw [tested]
    rcases hpc with hpc | hpc <;> rw [hpc] <;> exact hpart
  rw [Part.holds_of_same (sameQueue_waits ..)] at hholds
  apply (hframes.relied h hrelies hlive htested hholds).resolve_left
  rw [hpermit]
  nofun

omit hframes

/-- A wait takes the permit. -/
theorem Guarded.claimed
    (hpc : (state.tasks index).pc = .claim ∨ (state.tasks index).pc = .claimAgain)
    (hunclaimed : state.Unclaimed index) :
  Guarded (state.waits index (state.awaited index).tryClaimPermit.2
    { state.tasks index with pc := .remove })
  := by
  have hsilent : (state.tasks index).pc.silent := by
    rcases hpc with hpc | hpc <;> rw [hpc] <;> rfl
  apply h.waits (frames_claim h hsilent hunclaimed)
  · rcases hpc with hpc | hpc <;> rw [hpc] <;> nofun
  · nofun
  · exact guard_of_untested (not_settled nofun nofun) rfl

theorem Guarded.unclaimed (hpc : (state.tasks index).pc = .claim)
    (hpermit : (state.awaited index).permit = false) (hunclaimed : state.Unclaimed index) :
  Guarded (state.waits index (state.awaited index).tryClaimPermit.2
    { state.tasks index with pc := .register })
  := by
  have hframes := @frames_claim state index h { state.tasks index with pc := .register }
    (by rw [hpc]; rfl) hunclaimed
  apply h.waits hframes
  · rw [hpc]
    nofun
  · nofun
  · apply guard_of_unsettled
    · exact not_settled nofun nofun
    · rintro hlive ⟨part, hpart, hholds⟩
      exact .inr (h.publishes_of_unclaimed hframes (.inl hpc) hpermit hlive hpart hholds)

theorem Guarded.register (hpc : (state.tasks index).pc = .register)
    (hspares : (state.tasks index).registered = some (state.tasks index).waker ∨
      state.Spares index) :
  Guarded (state.waits index ((state.awaited index).registerWaker (state.tasks index).registered
    (state.tasks index).waker) { state.tasks index with
      registered := some (state.tasks index).waker, called := false, pc := .claimAgain })
  := by
  have hframes := @frames_wakers state index h
    ((state.awaited index).registerWaker (state.tasks index).registered (state.tasks index).waker)
    { state.tasks index with
      registered := some (state.tasks index).waker, called := false, pc := .claimAgain }
    (by rw [hpc]; rfl) (counted_registerWaker (h.counted _) _ _)
    (permit_registerWaker _ _ _) (by
      intro other hne hside hsettled hmem
      apply mem_registerWaker_of_mem hmem
      apply hspares.imp_right
      intro hspares before hbefore hone
      exact hspares before hbefore hone other hne hsettled hside)
  apply h.waits hframes
  · rw [hpc]
    nofun
  · nofun
  · constructor
    · intro _
      left
      rw [signal_waits]
      exact mem_registerWaker _ _ _
    · rintro _ hlive ⟨part, hpart, hholds⟩
      rw [Part.holds_of_same (sameQueue_waits ..)] at hholds
      rw [signal_waits, permit_registerWaker]
      apply hframes.relied h _ hlive _ hholds
      · rw [Relies, hpc]
        exact trivial
      · rw [tested, hpc]
        exact hpart
    · intro hparked
      cases hparked.1

/-- A wait parks with its waker in the set, and with nothing due that is not announced. -/
theorem Guarded.park (hpc : (state.tasks index).pc = .claimAgain)
    (hpermit : (state.awaited index).permit = false) (hunclaimed : state.Unclaimed index) :
  Guarded (state.waits index (state.awaited index).tryClaimPermit.2
    { state.tasks index with pc := .suspended })
  := by
  have hframes := @frames_claim state index h { state.tasks index with pc := .suspended }
    (by rw [hpc]; rfl) hunclaimed
  apply h.waits hframes
  · rw [hpc]
    nofun
  · nofun
  · constructor
    · intro hsettled
      rcases (h.guard index).listed ⟨.inl hpc, hsettled.2⟩ with hmem | hwakes
      · left
        rw [signal_waits]
        exact hmem
      · exact .inr (hframes.wakes hwakes)
    · rintro _ hlive ⟨part, hpart, hholds⟩
      exact .inr (h.publishes_of_unclaimed hframes (.inr hpc) hpermit hlive hpart hholds)
    · rintro _ hlive ⟨part, hpart, hholds⟩
      exact .inl (h.publishes_of_unclaimed hframes (.inr hpc) hpermit hlive hpart hholds)

/-- A wait takes out its entry. -/
theorem Guarded.remove {pc : Pc} (hsilent : (state.tasks index).pc.silent)
    (hbefore : ∀ access, (state.tasks index).pc ≠ .access access)
    (hafter : pc = .idle ∨ pc = .access 0) (hspares : state.Spares index) :
  Guarded (state.waits index
    ((state.awaited index).removeRegisteredWaker (state.tasks index).registered)
    { state.tasks index with registered := none, pc })
  := by
  have hframes := @frames_wakers state index h
    ((state.awaited index).removeRegisteredWaker (state.tasks index).registered)
    { state.tasks index with registered := none, pc } hsilent
    (counted_removeRegisteredWaker (h.counted _) _)
    (permit_removeRegisteredWaker _ _) (by
      intro other hne hside hsettled hmem
      apply mem_removeRegisteredWaker_of_mem hmem
      intro before hregistered hone
      exact hspares before hregistered hone other hne hsettled hside)
  apply h.waits hframes
  · exact hbefore
  · rcases hafter with rfl | rfl <;> nofun
  · rcases hafter with rfl | rfl
    · exact guard_of_untested (not_settled nofun nofun) rfl
    · apply guard_of_untested
      · exact not_settled nofun nofun
      · obtain ⟨call, waker, registered, called, pc⟩ := state.tasks index
        cases call <;> rfl

end

/-! ### The steps of a notification -/

/-- What a step of a notification must leave to the other tasks. -/
structure Hands (state state' : State) (task : Task) : Prop where
  publishes : state.Publishes task.call.side → state'.Publishes task.call.side ∨
    ((state'.channel.signal task.call.side).permit = true ∧ state'.Comes task.call.side)
  permit : (state.channel.signal task.call.side).permit = true →
    (state'.channel.signal task.call.side).permit = true
  listed : task.Settled → task.waker ∈ (state.channel.signal task.call.side).wakers.wakers →
    task.waker ∈ (state'.channel.signal task.call.side).wakers.wakers ∨ state'.Wakes task.waker
  wakes : task.Settled → state.Wakes task.waker → state'.Wakes task.waker
  comes : task.Parked → task.Due state.channel → state.Comes task.call.side →
    state'.Publishes task.call.side ∨ state'.Comes task.call.side ∨ state'.Wakes task.waker

theorem Hands.guard (h : Hands state state' task) (hguard : Guard state task)
    (hsame : SameQueue state.channel state'.channel) :
  Guard state' task
  := by
  apply hguard.frame
  · exact (live_of_same hsame _).mp
  · exact fun _ hdue => .inl ((due_of_same hsame task).mp hdue)
  · exact h.publishes
  · exact fun _ _ _ hpermit => .inl (h.permit hpermit)
  · exact h.listed
  · exact h.wakes
  · exact fun hparked _ hdue => h.comes hparked ((due_of_same hsame task).mp hdue)

/-- A notification leaves everything guarded that it hands on. -/
theorem Guarded.notify (h : Guarded state) {side : Side}
    (hpc : (state.tasks index).pc = .notify side progress rest result)
    (hcounted : ∀ side, (state'.channel.signal side).Counted)
    (hsame : SameQueue state.channel state'.channel)
    (hothers : ∀ other, other ≠ index → State.Keeps (state.tasks other) (state'.tasks other))
    (hafter : (state'.tasks index).pc = .idle ∨
      ∃ side progress rest, (state'.tasks index).pc = .notify side progress rest result)
    (hguard : ∀ other, other ≠ index → Guard state' (state'.tasks other)) :
  Guarded state'
  := by
  have hnone : ∀ access, (state'.tasks index).pc ≠ .access access := by
    rcases hafter with hafter | ⟨side, progress, rest, hafter⟩ <;> rw [hafter] <;> nofun
  constructor
  · exact hcounted
  · intro other access hother hcall
    by_cases heq : other = index
    · subst heq
      exact absurd hother (hnone _)
    · rw [(hothers other heq).pc] at hother
      rw [(hothers other heq).call] at hcall
      exact hsame.writerHandles.trans (h.dropping other access hother hcall)
  · intro hgone
    rcases h.gone (hsame.writerHandles.symm.trans hgone) with hclosed | ⟨other, access, hother, hcall⟩
    · exact .inl (hsame.writerClosed.trans hclosed)
    · right
      have hne : other ≠ index := by
        rintro rfl
        cases hpc.symm.trans hother
      use other, access
      rw [(hothers other hne).pc, (hothers other hne).call]
      exact ⟨hother, hcall⟩
  · intro other
    by_cases heq : other = index
    · subst heq
      apply guard_of_untested
      · rcases hafter with hafter | ⟨side, progress, rest, hafter⟩ <;>
          exact not_settled (by rw [hafter]; nofun) (by rw [hafter]; nofun)
      · rw [tested]
        rcases hafter with hafter | ⟨side, progress, rest, hafter⟩ <;> rw [hafter]
    · exact hguard other heq

section

variable {pc : Pc}

theorem ByteChannel.setSignal_signal (channel : ByteChannel) (side : Side) :
  channel.setSignal side (channel.signal side) = channel
  := by
  cases side with
  | readable | writable => rfl

theorem pc_others_setTask (task : Task) (other : Nat) (hne : other ≠ index) :
  (((state.setSignal side signal).setTask index task).tasks other).pc = (state.tasks other).pc
  := by
  rw [setTask_of_ne _ _ hne]
  rfl

/-- A notification replaces its signal and goes on. -/
abbrev State.passes (state : State) (index : Nat) (side : Side) (signal : ByteSignal) (pc : Pc) :
    State :=
  (state.setSignal side signal).setTask index { state.tasks index with pc }

/-- A step that changes at most the signal that is notified, and goes on. -/
theorem hands_of_signal (hpc : (state.tasks index).pc = .notify side progress rest result)
    (hpublishes : ∀ side', (Pc.notify side progress rest result).Publishes side' → pc.Publishes
      side' ∨ (side' = side ∧ signal.permit = true ∧ pc.Comes side))
    (hpermit : (state.channel.signal side).permit = true → signal.permit = true) (hlisted :
      (state.tasks other).call.side = side → (state.tasks other).Settled → (state.tasks
      other).waker ∈ (state.channel.signal side).wakers.wakers → (state.tasks other).waker ∈
      signal.wakers.wakers ∨ pc.Wakes (state.tasks other).waker)
    (hprogress : ∀ waker, progress ≠ .wake waker) (hcomes : (state.tasks other).call.side = side →
      (state.tasks other).Parked → (state.tasks other).Due state.channel → pc.Comes side ∨
      pc.Wakes (state.tasks other).waker ∨ state.Wakes (state.tasks other).waker ∨ state.Publishes
      side) :
  Hands state (state.passes index side signal pc) (state.tasks other)
  := by
  have hself : ∀ {P : Pc → Prop}, P pc →
      ∃ other, P ((state.passes index side signal pc).tasks other).pc := by
    intro P h
    use index
    rw [setTask_self]
    exact h
  have hpublishesAll : ∀ side', state.Publishes side' →
      (state.passes index side signal pc).Publishes side' ∨
        (side' = side ∧ signal.permit = true ∧ pc.Comes side) := by
    rintro side' ⟨other, hother⟩
    by_cases heq : other = index
    · subst heq
      rw [hpc] at hother
      exact (hpublishes side' hother).imp_left hself
    · left
      use other
      rw [pc_others_setTask _ _ heq]
      exact hother
  have hwakesAll : ∀ waker, state.Wakes waker →
      (state.passes index side signal pc).Wakes waker := by
    intro waker
    apply exists_pc_of_others (pc_others_setTask _)
    rw [hpc]
    intro hwakes
    cases progress with
    | wake waker => exact absurd rfl (hprogress waker)
    | publish | count | take => cases hwakes
  constructor
  · intro hbefore
    rcases hpublishesAll _ hbefore with hpublishes | ⟨hside, hpermit, hcomes⟩
    · exact .inl hpublishes
    · right
      rw [hside, setTask_channel, State.setSignal, ByteChannel.signal_setSignal]
      exact ⟨hpermit, hself hcomes⟩
  · rw [setTask_channel, State.setSignal]
    by_cases hside : (state.tasks other).call.side = side
    · rw [hside, ByteChannel.signal_setSignal]
      exact hpermit
    · rw [ByteChannel.signal_setSignal_of_ne _ _ hside]
      exact id
  · intro hsettled
    rw [setTask_channel, State.setSignal]
    by_cases hside : (state.tasks other).call.side = side
    · rw [hside, ByteChannel.signal_setSignal]
      exact fun hmem => (hlisted hside hsettled hmem).imp_right hself
    · rw [ByteChannel.signal_setSignal_of_ne _ _ hside]
      exact .inl
  · exact fun _ => hwakesAll _
  · intro hparked hdue hbefore
    by_cases hside : (state.tasks other).call.side = side
    · rw [hside]
      rcases hcomes hside hparked hdue with hcomes | hwakes | hwakes | hpublishes
      · exact .inr (.inl (hself hcomes))
      · exact .inr (.inr (hself hwakes))
      · exact .inr (.inr (hwakesAll _ hwakes))
      · rcases hpublishesAll _ hpublishes with hpublishes | ⟨_, _, hcomes⟩
        · exact .inl hpublishes
        · exact .inr (.inl (hself hcomes))
    · right
      left
      apply exists_pc_of_others (pc_others_setTask _) _ hbefore
      rw [hpc]
      intro hcomes
      exact absurd hcomes.1.symm hside

/-- A notification in progress that has been published keeps what it has still to publish. -/
theorem publishes_of_published (hprogress : progress ≠ .publish)
    (hrest : ∀ side ∈ rest, pc.Publishes side)
    (h : (Pc.notify side progress rest result).Publishes side') :
  pc.Publishes side'
  := by
  rcases h with ⟨_, hpublish⟩ | hmem
  · exact absurd hpublish hprogress
  · exact hrest side' hmem

theorem guarded_of_signal (h : Guarded state)
    (hpc : (state.tasks index).pc = .notify side progress rest result)
    (hafter : pc = .idle ∨ ∃ side progress rest, pc = .notify side progress rest result)
    (hcounted : signal.Counted)
    (hhands : ∀ other, Hands state (state.passes index side signal pc) (state.tasks other)) :
  Guarded (state.passes index side signal pc)
  := by
  apply h.notify hpc
  · exact ByteChannel.forall_signal hcounted h.counted
  · exact sameQueue_setSignal state.channel side signal
  · exact others_setTask fun _ => State.Keeps.refl _
  · rw [setTask_self]
    exact hafter
  · intro other hne
    rw [setTask_of_ne _ _ hne]
    exact (hhands other).guard (h.guard other) (sameQueue_setSignal state.channel side signal)

theorem Guarded.publish (h : Guarded state)
    (hpc : (state.tasks index).pc = .notify side .publish rest result) :
  Guarded (state.passes index side (state.channel.signal side).publishPermit
    (.notify side .count rest result))
  := by
  apply guarded_of_signal h hpc
  · exact .inr ⟨side, .count, rest, rfl⟩
  · exact h.counted side
  · intro other
    apply hands_of_signal hpc
    · rintro side' (⟨rfl, _⟩ | hmem)
      · exact .inr ⟨rfl, rfl, rfl, .inl rfl⟩
      · exact .inl (.inr hmem)
    · exact fun _ => rfl
    · exact fun _ _ hmem => .inl hmem
    · nofun
    · exact fun _ _ _ => .inl ⟨rfl, .inl rfl⟩

theorem State.setSignal_signal (state : State) (side : Side) :
  state.setSignal side (state.channel.signal side) = state
  := by
  rw [setSignal, ByteChannel.setSignal_signal]

theorem Guarded.count (h : Guarded state)
    (hpc : (state.tasks index).pc = .notify side .count rest result) :
  Guarded (state.setTask index { state.tasks index with pc := .notify side .take rest result })
  := by
  have hguarded : Guarded (state.passes index side (state.channel.signal side)
      (.notify side .take rest result)) := by
    apply guarded_of_signal h hpc
    · exact .inr ⟨side, .take, rest, rfl⟩
    · exact h.counted side
    · intro other
      apply hands_of_signal hpc
      · intro _ hbefore
        left
        apply publishes_of_published _ _ hbefore
        · nofun
        · exact fun _ => .inr
      · exact id
      · exact fun _ _ hmem => .inl hmem
      · nofun
      · exact fun _ _ _ => .inl ⟨rfl, .inr (.inl rfl)⟩
  rw [passes, setSignal_signal] at hguarded
  exact hguarded

theorem Guarded.wakes_of_empty (h : Guarded state) (hparked : (state.tasks other).Parked) (hempty
      : (state.channel.signal (state.tasks other).call.side).wakers.wakers = []) :
  state.Wakes (state.tasks other).waker
  := by
  rcases (h.guard other).listed ⟨.inr hparked.1, hparked.2⟩ with hmem | hwakes
  · rw [hempty] at hmem
    cases hmem
  · exact hwakes

theorem Outcome.finish_lands (result : Result) (rest : List Side) :
  (finish result rest).lands.1 = .idle ∨
    ∃ side progress rest', (finish result rest).lands.1 = .notify side progress rest' result
  := by
  cases rest with
  | nil => exact .inl rfl
  | cons side rest => exact .inr ⟨side, .publish, rest, rfl⟩

/-- A signal without wakers has been notified. -/
theorem Guarded.notified (h : Guarded state)
    (hpc : (state.tasks index).pc = .notify side progress rest result)
    (hprogress : progress = .count ∨ progress = .take)
    (hempty : (state.channel.signal side).wakers.wakers = []) (hcounted : signal.Counted)
    (hpermit : signal.permit = (state.channel.signal side).permit) :
  Guarded (((state.setSignal side signal).nextNotice index result rest).1)
  := by
  have hnext : ((state.setSignal side signal).nextNotice index result rest).1 =
      state.passes index side signal (finish result rest).lands.1 :=
    congrArg Prod.fst ((state.setSignal side signal).follow_eq index (.finish result rest))
  rw [hnext]
  apply guarded_of_signal h hpc
  · exact finish_lands result rest
  · exact hcounted
  · intro other
    apply hands_of_signal hpc
    · intro side' hbefore
      left
      apply publishes_of_published _ _ hbefore
      · rcases hprogress with rfl | rfl <;> nofun
      · exact fun _ hmem => lands_publishes hmem result
    · exact fun hbefore => hpermit.trans hbefore
    · intro _ _ hmem
      rw [hempty] at hmem
      cases hmem
    · rcases hprogress with rfl | rfl <;> nofun
    · rintro rfl hparked _
      exact .inr (.inr (.inl (h.wakes_of_empty hparked hempty)))

theorem Guarded.take (h : Guarded state)
    (hpc : (state.tasks index).pc = .notify side .take rest result)
    (hwaker : (state.channel.signal side).wakers.pop.1 = some waker)
    (htakes : side = .readable → state.TakesAll) :
  Guarded (state.passes index side ((state.channel.signal side).withWakers
    (state.channel.signal side).wakers.pop.2) (.notify side (.wake waker) rest result))
  := by
  have hperm : (state.channel.signal side).wakers.wakers.Perm
      (waker :: (state.channel.signal side).wakers.pop.2.wakers) := by
    rcases pop_cases (state.channel.signal side).wakers with ⟨_, hnone, _⟩ |
      ⟨waker', hsome, hperm⟩
    · rw [hnone] at hwaker
      cases hwaker
    · cases hsome.symm.trans hwaker
      exact hperm
  apply guarded_of_signal h hpc
  · exact .inr ⟨side, .wake waker, rest, rfl⟩
  · exact counted_withWakers _ _
  · intro other
    apply hands_of_signal hpc
    · intro _ hbefore
      left
      apply publishes_of_published _ _ hbefore
      · nofun
      · exact fun _ => .inr
    · exact id
    · intro _ _ hmem
      rcases mem_cons.mp (hperm.mem_iff.mp hmem) with heq | hrest
      · exact .inr heq.symm
      · exact .inl hrest
    · nofun
    · intro hside hparked hdue
      cases side with
      | writable => exact .inl ⟨rfl, .inr (.inr ⟨rfl, waker, rfl⟩)⟩
      | readable =>
        rcases htakes rfl other hparked hside hdue with htaken | hpublishes
        · exact .inr (.inl (some.inj (hwaker.symm.trans htaken)))
        · exact .inr (.inr (.inr hpublishes))

theorem State.wake_of_eq (h : (state.tasks other).waker = waker) :
  (state.wake waker).tasks other = { state.tasks other with called := true }
  := if_pos h

theorem State.wake_of_ne (h : (state.tasks other).waker ≠ waker) :
  (state.wake waker).tasks other = state.tasks other
  := if_neg h

/-- A notification calls a waker and goes on. -/
abbrev State.calls (state : State) (index : Nat) (waker : Waker) (pc : Pc) : State :=
  (state.wake waker).setTask index { (state.wake waker).tasks index with pc }

theorem Guarded.wake (h : Guarded state)
    (hpc : (state.tasks index).pc = .notify side (.wake waker) rest result) (hafter : pc = .idle ∨
      ∃ side progress rest, pc = .notify side progress rest result)
    (hrest : ∀ side ∈ rest, pc.Publishes side) (hcomes : side = .writable → pc.Comes .writable) :
  Guarded (state.calls index waker pc)
  := by
  have hkeeps : ∀ other, other ≠ index → State.Keeps (state.tasks other)
      ((state.calls index waker pc).tasks other) := others_setTask (wake_keeps state waker)
  have hsame : SameQueue state.channel (state.calls index waker pc).channel := ⟨rfl, rfl, rfl, rfl⟩
  have hpublishes : ∀ side', state.Publishes side' →
      (state.calls index waker pc).Publishes side' := by
    intro side'
    apply exists_pc_of_others (fun other hne => (hkeeps other hne).pc)
    rw [hpc, setTask_self]
    apply publishes_of_published
    · nofun
    · exact hrest
  apply h.notify hpc
  · exact h.counted
  · exact hsame
  · exact hkeeps
  · rw [setTask_self]
    exact hafter
  · intro other hne
    rw [setTask_of_ne _ _ hne]
    by_cases hwaker : (state.tasks other).waker = waker
    · rw [wake_of_eq hwaker]
      -- Its waker has been called, so that it is not parked, but it may rely on the permit.
      constructor
      · intro hsettled
        cases hsettled.2
      · intro hrelies hlive hdue
        exact ((h.guard other).relies hrelies hlive hdue).imp_right (hpublishes _)
      · intro hparked
        cases hparked.2
    · rw [wake_of_ne hwaker]
      apply Hands.guard _ (h.guard other) hsame
      constructor
      · exact fun hbefore => .inl (hpublishes _ hbefore)
      · exact id
      · exact fun _ hmem => .inl hmem
      · intro _
        apply exists_pc_of_others (fun other hne => (hkeeps other hne).pc)
        rw [hpc]
        exact fun heq => absurd heq.symm hwaker
      · intro _ _ hbefore
        right
        left
        apply exists_pc_of_others (fun other hne => (hkeeps other hne).pc) _ hbefore
        rw [hpc, setTask_self]
        rintro ⟨hside, hcount | htake | ⟨hwritable, _⟩⟩
        · cases hcount
        · cases htake
        · rw [hwritable] at hside ⊢
          exact hcomes hside

end

theorem Guarded.stepNotify (h : Guarded state)
    (hpc : (state.tasks index).pc = .notify side progress rest result)
    (htakes : progress = .take → side = .readable → state.TakesAll) :
  Guarded (state.stepNotify index side progress rest result).1
  := by
  cases progress with
  | publish => exact h.publish hpc
  | count =>
    rw [State.stepNotify]
    split
    · exact h.count hpc
    · rename_i hnone
      rw [Decidable.not_not, h.counted, ← length_wakers, length_eq_zero_iff] at hnone
      have hnotified := h.notified hpc (.inl rfl) hnone (h.counted side) rfl
      rw [setSignal_signal] at hnotified
      exact hnotified
  | take =>
    rw [State.stepNotify]
    split
    · rename_i htaken
      obtain ⟨hwaker, rfl⟩ := Prod.mk.inj htaken
      exact h.take hpc hwaker (htakes rfl)
    · rename_i htaken
      obtain ⟨hnone, rfl⟩ := Prod.mk.inj htaken
      apply h.notified hpc (.inr rfl)
      · rcases pop_cases (state.channel.signal side).wakers with ⟨hempty, _⟩ |
          ⟨waker, hsome, _⟩
        · exact hempty
        · cases hnone.symm.trans hsome
      · exact counted_withWakers _ _
      · rfl
  | wake waker =>
    rw [State.stepNotify]
    split_ifs with hside
    · apply h.wake hpc
      · exact .inr ⟨side, .take, rest, rfl⟩
      · exact fun _ => .inr
      · exact fun _ => ⟨hside, .inr (.inl rfl)⟩
    · have hnext : ((state.wake waker).nextNotice index result rest).1 =
          state.calls index waker (finish result rest).lands.1 :=
        congrArg Prod.fst ((state.wake waker).follow_eq index (.finish result rest))
      rw [hnext]
      apply h.wake hpc
      · exact finish_lands result rest
      · exact fun _ hmem => lands_publishes hmem result
      · exact fun hwritable => absurd hwritable hside

theorem Guarded.stepTask (h : Guarded state) (hstep : state.stepTask index = .ok (state', answer))
    (hstrandless : state.Strandless (.step index)) :
  Guarded state'
  := by
  rw [State.stepTask] at hstep
  rw [State.Strandless] at hstrandless
  cases hpc : (state.tasks index).pc with
  | idle | suspended =>
    rw [hpc] at hstep
    cases hstep
  | access access =>
    simp only [hpc] at hstep
    split at hstep
    · cases hstep
    · rename_i haccess
      have hguarded := h.access hpc haccess
      rw [Except.ok.inj hstep] at hguarded
      exact hguarded
  | claim =>
    simp only [hpc] at hstep hstrandless
    cases hstep
    rw [tryClaimPermit]
    cases hpermit : (state.channel.signal (state.tasks index).call.side).permit with
    | true => exact h.claimed (.inl hpc) hstrandless
    | false => exact h.unclaimed hpc hpermit hstrandless
  | register =>
    simp only [hpc] at hstep hstrandless
    cases hstep
    exact h.register hpc hstrandless
  | claimAgain =>
    simp only [hpc] at hstep hstrandless
    split at hstep
    · cases hstep
      exact h.claimed (.inr hpc) hstrandless
    · rename_i hpermit
      cases hstep
      rw [Bool.not_eq_true] at hpermit
      exact h.park hpc hpermit hstrandless
  | remove =>
    simp only [hpc] at hstep hstrandless
    cases hstep
    apply h.remove
    · rw [hpc]
      rfl
    · rw [hpc]
      rintro _ ⟨⟩
    · exact .inr rfl
    · exact hstrandless
  | notify side progress rest result =>
    simp only [hpc] at hstep hstrandless
    have hguarded := h.stepNotify hpc (by
      rintro rfl rfl
      exact hstrandless)
    rw [Except.ok.inj hstep] at hguarded
    exact hguarded

theorem Guarded.step (h : Guarded state) (hstep : state.step op = .ok (state', answer))
    (hstrandless : state.Strandless op) :
  Guarded state'
  := by
  cases op with
  | poll index call waker =>
    rw [State.step] at hstep
    split at hstep <;> cases hstep
    exact h.poll ‹_›
  | step index => exact h.stepTask hstep hstrandless
  | dropWait index =>
    simp only [State.step] at hstep
    split at hstep <;> cases hstep
    rename_i hpc
    apply h.remove
    · rcases hpc with hpc | hpc <;> rw [hpc] <;> rfl
    · rcases hpc with hpc | hpc <;> rw [hpc] <;> rintro _ ⟨⟩
    · exact .inl rfl
    · exact hstrandless

end

/-! ### Runs -/

theorem guarded_new : Guarded .new := by
  constructor
  · intro side
    cases side with
    | readable | writable => rfl
  · nofun
  · exact fun hnone => by cases hnone
  · intro index
    exact guard_of_untested (not_settled nofun nofun) rfl

/-- No call is in the middle of its steps. -/
def State.Still (state : State) : Prop :=
  ∀ index, (state.tasks index).pc = .idle ∨ (state.tasks index).pc = .suspended

/-- What a parked call waits for does not hold.  A call on a writer holds one of its handles. -/
structure NoneStranded (state : State) : Prop where
  writer : ∀ index, (state.tasks index).Parked →
    (∃ bytes, (state.tasks index).call = .pollWrite bytes) ∨
      (state.tasks index).call = .pollWritable →
    state.channel.writerHandles ≠ 0 →
    state.channel.queue.isFull = true ∧ state.channel.readerClosed = false ∧
      state.channel.writerClosed = false
  readerClosed : ∀ index, (state.tasks index).Parked → (state.tasks index).call = .readerClosed →
    state.channel.writerHandles ≠ 0 → state.channel.readerClosed = false
  reader : ∀ index, (state.tasks index).Parked →
    (state.tasks index).call ∈ [Call.pollReadable, .pollRead, .read] →
    state.channel.queue.isEmpty = true ∧ state.channel.writerClosed = false ∧
      state.channel.writerHandles ≠ 0

/-- When nothing is on the way, nothing that a parked call waits for holds. -/
theorem Guarded.not_holds {state : State} (h : Guarded state) (hstill : state.Still) {index : Nat}
    (hparked : (state.tasks index).Parked) (hlive : state.Live (state.tasks index).call.side)
    {part : Part} (hpart : part ∈ (state.tasks index).call.awaits) :
  ¬ part.Holds state.channel
  := by
  intro hholds
  have hdue : (state.tasks index).Due state.channel := by
    refine ⟨part, ?_, hholds⟩
    rw [tested, hparked.1]
    exact hpart
  rcases (h.guard index).parked hparked hlive hdue with ⟨other, hother⟩ | ⟨other, hother⟩ |
    ⟨other, hother⟩
  all_goals
    rcases hstill other with hpc | hpc <;> rw [hpc] at hother <;> cases hother

def Op.task : Op → Nat
  | .poll index _ _ | .step index | .dropWait index => index

theorem State.step_other {state' : State} (h : state.step op = .ok (state', answer))
    (hne : other ≠ op.task) :
  (state'.tasks other).pc = (state.tasks other).pc
  := by
  cases op with
  | poll index call waker =>
    rw [step] at h
    split at h <;> cases h
    rw [setTask_of_ne _ _ (by exact hne)]
  | step index => exact ((stepTask_steps h).others other hne).pc
  | dropWait index =>
    simp only [step] at h
    split at h <;> cases h
    rw [setTask_of_ne _ _ (by exact hne)]
    rfl

def FewTasks (bound : Nat) : State → Prop :=
  Reachable State.step (· = .new) (fun _ op => op.task < bound)

theorem FewTasks.idle (h : FewTasks bound state) (hother : bound ≤ other) :
  (state.tasks other).pc = .idle
  := by
  apply @Reachable.invariant _ _ _ _ _ _ _ (fun state => (state.tasks other).pc = .idle)
    _ _ _ h
  · rintro _ rfl
    rfl
  · intro state op state' answer hidle htask hstep
    rw [step_other hstep (by omega)]
    exact hidle

theorem FewTasks.still (h : FewTasks bound state)
    (hfew : ∀ index < bound, (state.tasks index).pc = .idle ∨ (state.tasks index).pc = .suspended) :
  state.Still
  := by
  intro index
  by_cases hindex : index < bound
  · exact hfew index hindex
  · exact .inl (h.idle (Nat.le_of_not_lt hindex))

theorem State.strandless_of_idle (h : ∀ other, other ≠ op.task → (state.tasks other).pc = .idle) :
  state.Strandless op
  := by
  have hsettled : ∀ other, other ≠ op.task → ¬ (state.tasks other).Settled := by
    intro other hne
    apply not_settled <;> rw [h other hne] <;> nofun
  have hspares : state.Spares op.task := by
    intro _ _ _ other hne hother
    exact absurd hother (hsettled other hne)
  have hunclaimed : state.Unclaimed op.task := by
    intro _ _ other hne _ hrelies
    rw [Relies, h other hne] at hrelies
    cases hrelies
  cases op with
  | poll index call waker => exact trivial
  | dropWait index => exact hspares
  | step index =>
    rw [Strandless]
    split
    · exact hunclaimed
    · exact hunclaimed
    · exact .inr hspares
    · exact hspares
    · rename_i hpc
      intro other hparked
      by_cases heq : other = index
      · subst heq
        cases hpc.symm.trans hparked.1
      · exact absurd ⟨.inr hparked.1, hparked.2⟩ (hsettled other heq)
    · trivial

theorem FewTasks.strandless (h : FewTasks 1 state) :
  Reachable State.step (· = .new) State.Strandless state
  := by
  induction h with
  | start h => exact .start h
  | next h htask hstep ih =>
    apply ih.next _ hstep
    apply strandless_of_idle
    intro other hne
    exact FewTasks.idle h (by omega)

theorem FewTasks.exists_of_run {P : State → Prop} [DecidablePred P] {ops : List Op}
    (h : (runAllowed State.step (fun _ op => op.task < bound) .new ops).any
      (fun state => decide (P state)) = true) :
  ∃ state, FewTasks bound state ∧ P state
  := by
  cases hrun : runAllowed State.step (fun _ op => op.task < bound) .new ops with
  | none =>
    rw [hrun] at h
    cases h
  | some state =>
    rw [hrun] at h
    exact ⟨state, Reachable.of_runAllowed (.start rfl) hrun, of_decide_eq_true h⟩

/-- The steps of a call that is polled with a waker of its own. -/
def polls (task : Nat) (call : Call) (steps : Nat) : List Op :=
  .poll task call task :: replicate steps (.step task)

def steps (task : Nat) (steps : Nat) : List Op := replicate steps (.step task)

instance (task : Task) : Decidable task.Parked := inferInstanceAs (Decidable (_ ∧ _))

theorem FewTasks.rests {P : State → Prop} [DecidablePred P] (ops : List Op)
    (h : (runAllowed State.step (fun _ op => op.task < 3) .new ops).any (fun state =>
      decide ((∀ index : Nat, index < 3 → (state.tasks index).pc = .idle ∨
        (state.tasks index).pc = .suspended) ∧ P state)) = true) :
  ∃ state, Reachable State.step (· = .new) (fun _ _ => True) state ∧ state.Still ∧ P state
  := by
  obtain ⟨state, hfew, hpcs, hrest⟩ := FewTasks.exists_of_run h
  exact ⟨state, hfew.mono (fun _ _ _ => trivial), hfew.still hpcs, hrest⟩

end Helios.Child
