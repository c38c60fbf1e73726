import Helios.Kernel.ByteDelivery

/-!
# Waiters

A call that parks has found that nothing it waits for holds.  Whoever makes one of them hold
publishes the permit of the signal and then wakes.  So a waiter is stranded only when another
call takes the permit that was meant for it, when the readable signal wakes another waiter than
it, or when its waker is taken out of the set by a wait of the same task.  In every run without
these three, a parked waiter has nothing to do.
-/

namespace Helios.Child

variable (task : Task)

variable (channel : ByteChannel)

open List

/-! ### What a call waits for -/

inductive Part where
  | readerClosed
  | writerClosed
  | room
  | data
  deriving DecidableEq, Repr

def Part.Holds : Part → Prop
  | .readerClosed => channel.readerClosed = true
  | .writerClosed => channel.writerClosed = true
  | .room => channel.queue.isFull = false
  | .data => channel.queue.isEmpty = false

/-- What a call that parks waits for. -/
def Call.awaits : Call → List Part
  | .pollWrite _ | .pollWritable => [.readerClosed, .writerClosed, .room]
  | .readerClosed => [.readerClosed]
  | .pollReadable | .pollRead | .read => [.data, .writerClosed, .readerClosed]
  | _ => []

/-- What the accesses of a call have found not to hold. -/
def Call.found : Call → Nat → List Part
  | .pollWritable, 1 => [.readerClosed]
  | .pollWritable, _ + 2 => [.readerClosed, .writerClosed]
  | .pollReadable, 1 | .pollRead, 1 | .read, 1 => [.data]
  | .pollReadable, _ + 2 | .pollRead, 2 | .read, 2 => [.data, .writerClosed]
  | _, _ => []

/-- What a call has found not to hold when an access is done. -/
def Outcome.found (call : Call) : Outcome → List Part
  | .next access => call.found access
  | .blocked => call.awaits
  | .finish _ _ => []

/-- What a call has found not to hold since it last began to test. -/
def Task.tested : List Part :=
  match task.pc with
  | .access access => task.call.found access
  | .claim | .register | .claimAgain | .suspended => task.call.awaits
  | .idle | .remove | .notify _ _ _ _ => []

/-- Something holds now that a call has found not to hold. -/
def Task.Due (task : Task) : Prop :=
  ∃ part ∈ task.tested, part.Holds channel

/-- A call that will still take the permit if there is one, before it parks or when it is polled
again. -/
def Task.Relies : Prop :=
  match task.pc with
  | .access _ | .claim | .register | .claimAgain => True
  | .suspended => task.call = .read
  | .idle | .remove | .notify _ _ _ _ => False

/-- A wait that has registered its waker and is about to park, or is parked. -/
def Task.Settled : Prop :=
  (task.pc = .claimAgain ∨ task.pc = .suspended) ∧ task.called = false

/-- A wait that is parked: its poll returned, and its waker was not called. -/
def Task.Parked : Prop :=
  task.pc = .suspended ∧ task.called = false

/-! ### Notifications -/

/-- The permit of a signal is still to be published. -/
def Pc.Publishes (side : Side) : Pc → Prop
  | .notify side' progress rest _ => (side' = side ∧ progress = .publish) ∨ side ∈ rest
  | _ => False

/-- Wakers of a signal are still to be taken. -/
def Pc.Comes (side : Side) : Pc → Prop
  | .notify side' progress _ _ => side' = side ∧
      (progress = .count ∨ progress = .take ∨ (side = .writable ∧ ∃ waker, progress = .wake waker))
  | _ => False

/-- A waker is about to be called. -/
def Pc.Wakes (waker : Waker) : Pc → Prop
  | .notify _ (.wake waker') _ _ => waker' = waker
  | _ => False

namespace State

variable (state : State)

def Publishes (side : Side) : Prop :=
  ∃ index, (state.tasks index).pc.Publishes side

def Comes (side : Side) : Prop :=
  ∃ index, (state.tasks index).pc.Comes side

def Wakes (waker : Waker) : Prop :=
  ∃ index, (state.tasks index).pc.Wakes waker

/-- There are writers, as far as the writers' signal is concerned. -/
def Live (side : Side) : Prop :=
  side = .writable → state.channel.writerHandles ≠ 0

/-- No other wait that is about to park or parked is woken by the only entry of the waker that a
wait has registered. -/
def Spares (index : Nat) : Prop :=
  ∀ waker, (state.tasks index).registered = some waker →
    (state.channel.signal (state.tasks index).call.side).wakers.wakers.count waker = 1 →
    ∀ other, other ≠ index → (state.tasks other).Settled →
      (state.tasks other).call.side = (state.tasks index).call.side →
      (state.tasks other).waker ≠ waker

/-- The permit is not what another call relies on. -/
def Unclaimed (index : Nat) : Prop :=
  let side := (state.tasks index).call.side
  (state.channel.signal side).permit = true → state.Live side →
    ∀ other, other ≠ index → (state.tasks other).call.side = side → (state.tasks other).Relies →
      (state.tasks other).Due state.channel → state.Publishes side

/-- The waker that is taken next is that of every parked reader with something to do. -/
def TakesAll : Prop :=
  ∀ other, (state.tasks other).Parked → (state.tasks other).call.side = .readable →
    (state.tasks other).Due state.channel →
    state.channel.readable.wakers.pop.1 = some (state.tasks other).waker ∨
      state.Publishes .readable

/-- A step strands no waiter. -/
def Strandless : Op → Prop
  | .poll _ _ _ => True
  | .step index =>
    match (state.tasks index).pc with
    | .claim | .claimAgain => state.Unclaimed index
    | .register =>
      (state.tasks index).registered = some (state.tasks index).waker ∨ state.Spares index
    | .remove => state.Spares index
    | .notify .readable .take _ _ => state.TakesAll
    | _ => True
  | .dropWait index => state.Spares index

end State

/-! ### The invariant -/

/-- Nothing is lost on a task: if something it waits for holds, a permit or a wake is on the way. -/
structure Guard (state : State) (task : Task) : Prop where
  listed : task.Settled →
    task.waker ∈ (state.channel.signal task.call.side).wakers.wakers ∨ state.Wakes task.waker
  relies : task.Relies → state.Live task.call.side → task.Due state.channel →
    (state.channel.signal task.call.side).permit = true ∨ state.Publishes task.call.side
  parked : task.Parked → state.Live task.call.side → task.Due state.channel →
    state.Publishes task.call.side ∨ state.Comes task.call.side ∨ state.Wakes task.waker

structure Guarded (state : State) : Prop where
  counted : ∀ side, (state.channel.signal side).waiters = (state.channel.signal side).wakers.len
  dropping : ∀ index access, (state.tasks index).pc = .access (access + 1) →
    (state.tasks index).call = .dropWriter → state.channel.writerHandles = 0
  gone : state.channel.writerHandles = 0 → state.channel.writerClosed = true ∨
    ∃ index access, (state.tasks index).pc = .access (access + 1) ∧
      (state.tasks index).call = .dropWriter
  guard : ∀ index, Guard state (state.tasks index)

/-- What a step leaves on the way to a task that it does not change. -/
theorem Guard.frame {state state' : State} {task : Task} (h : Guard state task)
    (hlive : state'.Live task.call.side → state.Live task.call.side)
    (hdue : state'.Live task.call.side → task.Due state'.channel →
      task.Due state.channel ∨ state'.Publishes task.call.side)
    (hpublishes : state.Publishes task.call.side → state'.Publishes task.call.side ∨
      ((state'.channel.signal task.call.side).permit = true ∧ state'.Comes task.call.side))
    (hpermit : task.Relies → state'.Live task.call.side → task.Due state'.channel →
      (state.channel.signal task.call.side).permit = true →
      (state'.channel.signal task.call.side).permit = true ∨ state'.Publishes task.call.side)
    (hlisted : task.Settled → task.waker ∈ (state.channel.signal task.call.side).wakers.wakers →
      task.waker ∈ (state'.channel.signal task.call.side).wakers.wakers ∨ state'.Wakes task.waker)
    (hwakes : task.Settled → state.Wakes task.waker → state'.Wakes task.waker)
    (hcomes : task.Parked → state'.Live task.call.side → task.Due state'.channel →
      state.Comes task.call.side → state'.Publishes task.call.side ∨
        state'.Comes task.call.side ∨ state'.Wakes task.waker) :
  Guard state' task
  := by
  constructor
  · intro hsettled
    rcases h.listed hsettled with hmem | hwake
    · exact hlisted hsettled hmem
    · exact .inr (hwakes hsettled hwake)
  · intro hrelies hlive' hdue'
    rcases hdue hlive' hdue' with hdue | hpublish
    · rcases h.relies hrelies (hlive hlive') hdue with hpermit' | hpublish
      · exact hpermit hrelies hlive' hdue' hpermit'
      · rcases hpublishes hpublish with hpublish' | ⟨hpermit', _⟩
        · exact .inr hpublish'
        · exact .inl hpermit'
    · exact .inr hpublish
  · intro hparked hlive' hdue'
    rcases hdue hlive' hdue' with hdue | hpublish
    · rcases h.parked hparked (hlive hlive') hdue with hpublish | hcome | hwake
      · rcases hpublishes hpublish with hpublish' | ⟨_, hcome'⟩
        · exact .inl hpublish'
        · exact .inr (.inl hcome')
      · exact hcomes hparked hlive' hdue' hcome
      · exact .inr (.inr (hwakes ⟨.inr hparked.1, hparked.2⟩ hwake))
    · exact .inl hpublish

/-! ### Accesses -/

theorem Call.awaits_side {waiter : Call} {part : Part} (h : part ∈ waiter.awaits) :
  (part = .data → waiter.side = .readable) ∧ (part = .room → waiter.side = .writable)
  := by
  cases waiter with
  | pollWrite | pollWritable =>
    simp only [awaits, mem_cons, not_mem_nil, or_false] at h
    rcases h with rfl | rfl | rfl <;> exact ⟨nofun, fun _ => rfl⟩
  | readerClosed =>
    cases mem_singleton.mp h
    exact ⟨nofun, fun _ => rfl⟩
  | pollReadable | pollRead | read =>
    simp only [awaits, mem_cons, not_mem_nil, or_false] at h
    rcases h with rfl | rfl | rfl <;> exact ⟨fun _ => rfl, nofun⟩
  | tryWrite | isWritable | isReadable | tryRead | closeWriter | dropWriter | cloneWriter
  | closeReader | dropReader | cloneReader => cases h

theorem Part.holds_room :
  Part.room.Holds channel ↔ channel.queue.contents.length < byteChannelChunkCapacity
  := by
  rw [Holds, ← Bool.not_eq_true, ByteChunks.isFull_iff, Nat.not_le]

theorem Part.holds_data :
  Part.data.Holds channel ↔ channel.queue.contents ≠ []
  := by
  rw [Holds, ← Bool.not_eq_true, ByteChunks.isEmpty_iff]

/-- What holds after an access held before, or its waiters are then notified. -/
def Raises (channel channel' : ByteChannel) (outcome : Outcome) : Prop :=
  ∀ waiter part, part ∈ Call.awaits waiter → part.Holds channel' →
    part.Holds channel ∨ (∃ result notices, outcome = .finish result notices ∧ waiter.side ∈ notices) ∨
      (waiter.side = .writable ∧ channel'.writerHandles = 0)

namespace ByteChannel

variable {channel channel' : ByteChannel} {outcome : Outcome} {access : Nat} {call : Call}
  {result : Result} {queue : ByteChunks} {bytes : Bytes}

theorem raises_of_same (hcontents : channel'.queue.contents = channel.queue.contents)
    (hwriter : channel'.writerClosed = channel.writerClosed)
    (hreader : channel'.readerClosed = channel.readerClosed) :
  Raises channel channel' outcome
  := by
  intro waiter part _ hholds
  left
  cases part with
  | readerClosed => exact hreader.symm.trans hholds
  | writerClosed => exact hwriter.symm.trans hholds
  | room =>
    rw [Part.holds_room] at hholds ⊢
    exact hcontents ▸ hholds
  | data =>
    rw [Part.holds_data] at hholds ⊢
    exact hcontents ▸ hholds

theorem push_raises (hcontents : queue.contents = channel.queue.contents ++ [bytes]) :
  Raises channel { channel with queue } (.finish result [.readable])
  := by
  intro waiter part hpart hholds
  cases part with
  | readerClosed | writerClosed => exact .inl hholds
  | room =>
    rw [Part.holds_room] at hholds
    rw [Part.holds_room]
    rw [hcontents, length_append] at hholds
    omega
  | data =>
    right
    left
    refine ⟨result, [.readable], rfl, ?_⟩
    rw [(Call.awaits_side hpart).1 rfl]
    exact mem_singleton.mpr rfl

theorem pop_raises (hcontents : channel.queue.contents = bytes :: queue.contents) :
  Raises channel { channel with queue }
    (.finish result (if channel.queue.isFull then [.writable] else []))
  := by
  intro waiter part hpart hholds
  cases part with
  | readerClosed | writerClosed => exact .inl hholds
  | room =>
    by_cases hfull : channel.queue.isFull
    · right
      left
      refine ⟨result, [.writable], by rw [if_pos hfull], ?_⟩
      rw [(Call.awaits_side hpart).2 rfl]
      exact mem_singleton.mpr rfl
    · rw [Bool.not_eq_true] at hfull
      exact .inl hfull
  | data =>
    left
    rw [Part.holds_data, hcontents]
    exact cons_ne_nil _ _

theorem both_raises :
  Raises channel channel' (.finish result [.readable, .writable])
  := by
  intro waiter part _ _
  right
  left
  refine ⟨result, [.readable, .writable], rfl, ?_⟩
  cases waiter.side with
  | readable => exact mem_cons_self
  | writable => exact mem_cons_of_mem _ mem_cons_self

/-- An access makes something hold only if its waiters are then notified, or if it was the last
writer that went. -/
theorem access_raises (h : channel.access call access = .ok (channel', outcome)) (hdropping : ∀
      before, access = before + 1 → call = .dropWriter → channel.writerHandles = 0) :
  Raises channel channel' outcome
  := by
  cases access_touches h with
  | pushed _ _ _ _ hcontents => exact push_raises hcontents
  | popped _ _ hcontents => exact pop_raises hcontents
  | empty _ _ hcontents hcontents' => exact raises_of_same (hcontents'.trans hcontents.symm) rfl rfl
  | cleared => exact both_raises
  | ended _ _ hnotices =>
    rcases hnotices with rfl | ⟨rfl, hcall, before, rfl⟩
    · exact both_raises
    · intro waiter part _ _
      right
      cases hside : waiter.side with
      | readable => exact .inl ⟨.done, [.readable], rfl, mem_cons_self⟩
      | writable => exact .inr ⟨rfl, hdropping before rfl hcall⟩
  | kept => exact raises_of_same rfl rfl rfl

/-- An access leaves the signals as they are and brings no writer back; the last writer to go
goes on to close the writer side. -/
structure Quiet (channel channel' : ByteChannel) (call : Call) (outcome : Outcome) : Prop where
  readable : channel'.readable = channel.readable
  writable : channel'.writable = channel.writable
  closed : channel.writerClosed = true → channel'.writerClosed = true
  gone : channel.writerHandles = 0 → channel'.writerHandles = 0
  going : channel'.writerHandles = 0 →
    channel.writerHandles = 0 ∨ (call = .dropWriter ∧ outcome = .next 1)

theorem access_quiet (h : channel.access call access = .ok (channel', outcome)) :
  Quiet channel channel' call outcome
  := by
  cases access_touches h with
  | pushed | popped | empty | cleared => exact ⟨rfl, rfl, id, id, .inl⟩
  | ended => exact ⟨rfl, rfl, fun _ => rfl, id, .inl⟩
  | kept _ _ _ hgone hgoing => exact ⟨rfl, rfl, id, hgone, hgoing⟩

theorem dropWriter_closes (h : channel.access .dropWriter (access + 1) = .ok (channel', outcome)) :
  channel'.writerClosed = true
  := by
  cases h
  rfl

theorem dropWriter_next {access' : Nat}
    (h : channel.access .dropWriter access = .ok (channel', .next access')) :
  channel'.writerHandles = 0
  := by
  cases access with
  | zero =>
    simp only [ByteChannel.access] at h
    split at h
    · cases h
    · obtain ⟨rfl, hnext⟩ := Prod.mk.inj (Except.ok.inj h)
      split at hnext
      · rename_i hone
        rw [hone]
      · cases hnext
  | succ access => cases h

/-- What a call has found not to hold, it has just found, or had found before. -/
def Finds (channel channel' : ByteChannel) (call : Call) (access : Nat) (outcome : Outcome) : Prop :=
  ∀ part ∈ outcome.found call, part.Holds channel' → part ∈ call.found access ∧ part.Holds channel

theorem finds_of_nil (h : outcome.found call = []) :
  Finds channel channel' call access outcome
  := by
  intro part hpart
  rw [h] at hpart
  cases hpart

/-- A test that fails is found besides what was found before. -/
theorem finds_of_test (hfound : outcome.found call = call.found access ++ [part])
    (hfails : ¬ part.Holds channel) :
  Finds channel channel call access outcome
  := by
  intro other hother hholds
  rw [hfound, mem_append, mem_singleton] at hother
  rcases hother with hother | rfl
  · exact ⟨hother, hholds⟩
  · exact absurd hholds hfails

/-- A test that ends the call when it holds. -/
theorem finds_of_if {test : Prop} [Decidable test] {ended : Outcome}
    (hended : ended.found call = [])
    (hfound : outcome.found call = call.found access ++ [part])
    (htest : part.Holds channel ↔ test) :
  Finds channel channel call access (if test then ended else outcome)
  := by
  split
  · exact finds_of_nil hended
  · rename_i hfails
    exact finds_of_test hfound (mt htest.mp hfails)

theorem pollWrite_finds {bytes : Bytes}
    (h : channel.accessWrite bytes (fun _ => .blocked) access = (channel', outcome)) :
  Finds channel channel' (.pollWrite bytes) access outcome
  := by
  match access with
  | 0 =>
    cases h
    apply finds_of_nil
    split <;> rfl
  | 1 =>
    cases h
    apply finds_of_nil
    split
    · rfl
    · split <;> rfl
  | access + 2 =>
    rw [accessWrite] at h
    rcases channel.push_cases bytes with hrefused | ⟨hreader, hwriter, hfull, hpush⟩ |
      ⟨_, _, queue, hpush, _⟩
    · rw [hrefused] at h
      cases h
      exact finds_of_nil rfl
    · rw [hpush] at h
      cases h
      intro part hpart hholds
      simp only [Outcome.found, Call.awaits, mem_cons, not_mem_nil, or_false] at hpart
      rcases hpart with rfl | rfl | rfl
      · cases hreader.symm.trans hholds
      · cases hwriter.symm.trans hholds
      · cases hfull.symm.trans hholds
    · rw [hpush] at h
      cases h
      exact finds_of_nil rfl

section

variable (channel) (access)

theorem pollWritable_finds :
  Finds channel channel .pollWritable access (channel.accessWritable .blocked access)
  := by
  match access with
  | 0 | 1 => exact finds_of_if rfl rfl Iff.rfl
  | access + 2 => exact finds_of_if rfl rfl (.of_eq (Bool.not_eq_true' _).symm)

theorem pollReadable_finds :
  Finds channel channel .pollReadable access (channel.accessReadable .blocked access)
  := by
  match access with
  | 0 => exact finds_of_if rfl rfl (.of_eq (Bool.not_eq_true' _).symm)
  | 1 | access + 2 => exact finds_of_if rfl rfl Iff.rfl

end

theorem accessRead_finds (h : channel.accessRead access = (channel', outcome))
    (hcall : call = .pollRead ∨ call = .read) :
  Finds channel channel' call access outcome
  := by
  have hone : call.found 1 = [.data] := by
    rcases hcall with rfl | rfl <;> rfl
  have htwo : call.found 2 = [.data, .writerClosed] := by
    rcases hcall with rfl | rfl <;> rfl
  have hthree : call.found 3 = [] := by
    rcases hcall with rfl | rfl <;> rfl
  have hawaits : call.awaits = [.data, .writerClosed, .readerClosed] := by
    rcases hcall with rfl | rfl <;> rfl
  match access with
  | 0 =>
    rw [accessRead] at h
    rcases channel.pop_cases with ⟨_, queue, hpop, hempty'⟩ | ⟨bytes, queue, hpop, _⟩
    · rw [hpop] at h
      cases h
      intro part hpart hholds
      simp only [Outcome.found, hone] at hpart
      cases mem_singleton.mp hpart
      rw [Part.holds_data] at hholds
      exact absurd hempty' hholds
    · rw [hpop] at h
      cases h
      exact finds_of_nil rfl
  | 1 =>
    cases h
    have hfound : call.found 2 = call.found 1 ++ [.writerClosed] := by
      rw [hone]
      exact htwo
    exact finds_of_if hthree hfound Iff.rfl
  | 2 =>
    cases h
    have hfound : call.awaits = call.found 2 ++ [.readerClosed] := by
      rw [htwo]
      exact hawaits
    exact finds_of_if hthree hfound Iff.rfl
  | access + 3 =>
    cases h
    exact finds_of_nil rfl

theorem access_finds (h : channel.access call access = .ok (channel', outcome)) :
  Finds channel channel' call access outcome
  := by
  cases call with
  | pollWrite bytes => exact pollWrite_finds (Except.ok.inj h)
  | pollWritable =>
    cases h
    exact channel.pollWritable_finds access
  | readerClosed =>
    cases h
    exact finds_of_if rfl rfl Iff.rfl
  | pollReadable =>
    cases h
    exact channel.pollReadable_finds access
  | pollRead => exact accessRead_finds (Except.ok.inj h) (.inl rfl)
  | read => exact accessRead_finds (Except.ok.inj h) (.inr rfl)
  | tryWrite | isWritable | isReadable | tryRead | closeWriter | dropWriter | cloneWriter
  | closeReader | dropReader | cloneReader =>
    apply finds_of_nil
    cases outcome with
    | next access | blocked | finish result notices => rfl

end ByteChannel

end Helios.Child
