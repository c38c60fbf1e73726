import Helios.Kernel.ByteChannel
import Helios.Library.Receipts
import Helios.Library.Transition
import Mathlib.Data.List.Infix

/-!
# Delivery

The chunks that are pushed are popped in the order in which they were pushed, each once, until
the reader side is closed.  A call is told that its chunk was written exactly when it pushed the
chunk, and is given exactly the chunk that it popped.  A read that waits reports the end of the
stream only when nothing is left to deliver.
-/

namespace Helios.Child

open Function Task Receipts Outcome Transition List State Option Except

variable {call : Call} {channel channel' : ByteChannel} {task : Task} {state : State}
  {waker : Waker} {task' : Task}

/-! ### What a step does -/

/-- The part of a channel that the signals have nothing to do with. -/
structure SameQueue (channel channel' : ByteChannel) : Prop where
  queue : channel'.queue = channel.queue
  writerClosed : channel'.writerClosed = channel.writerClosed
  readerClosed : channel'.readerClosed = channel.readerClosed
  writerHandles : channel'.writerHandles = channel.writerHandles

theorem sameQueue_setSignal (channel : ByteChannel) (side : Side) (signal : ByteSignal) :
  SameQueue channel (channel.setSignal side signal)
  := by
  cases side with
  | readable | writable => exact ⟨rfl, rfl, rfl, rfl⟩

/-- Where a call is after an access, and what it returns. -/
def Outcome.lands : Outcome → Pc × Option Result
  | .next access => (.access access, none)
  | .blocked => (.claim, none)
  | .finish result [] => (.idle, some result)
  | .finish result (side :: rest) => (.notify side .publish rest result, none)

/-- What a step of a call does to the queue and to where the call is. -/
inductive Advances (state state' : State) (index : Nat) : Pc → Pc → Option Result → Prop where
  | access {access outcome} (haccess : state.channel.access (state.tasks index).call access =
      .ok (state'.channel, outcome)) :
      Advances state state' index (.access access) outcome.lands.1 outcome.lands.2
  | notify {side progress rest result side' progress' rest'}
      (hqueue : SameQueue state.channel state'.channel) :
      Advances state state' index (.notify side progress rest result)
        (.notify side' progress' rest' result) none
  | returned {side progress rest result} (hqueue : SameQueue state.channel state'.channel) :
      Advances state state' index (.notify side progress rest result) .idle (some result)
  | wait {pc pc' answer} (hqueue : SameQueue state.channel state'.channel)
      (hpc : pc ∈ [Pc.claim, .register, .claimAgain, .remove])
      (hpc' : pc' ∈ [Pc.remove, .register, .claimAgain, .suspended, .access 0])
      (hanswer : answer = none ∨ answer = some .pending) :
      Advances state state' index pc pc' answer

namespace State

section

variable (state) (index : Nat) (task)

@[simp] theorem setTask_channel :
  (state.setTask index task).channel = state.channel
  := rfl

@[simp] theorem setTask_self :
  (state.setTask index task).tasks index = task
  := update_self ..

theorem setTask_of_ne {index other : Nat} (h : other ≠ index) :
  (state.setTask index task).tasks other = state.tasks other
  := update_of_ne h ..

end

/-- A task in a state keeps its call, its waker and its place. -/
structure Keeps (task task' : Task) : Prop where
  call : task'.call = task.call
  waker : task'.waker = task.waker
  registered : task'.registered = task.registered
  pc : task'.pc = task.pc

theorem Keeps.refl (task : Task) : Keeps task task := ⟨rfl, rfl, rfl, rfl⟩

theorem wake_keeps (state : State) (waker : Waker) (index : Nat) :
  Keeps (state.tasks index) ((state.wake waker).tasks index)
  := by
  rw [wake]
  simp only
  split
  · exact ⟨rfl, rfl, rfl, rfl⟩
  · exact Keeps.refl _

end State

theorem State.others_setTask {before : State} {index : Nat}
    (hkeeps : ∀ other, Keeps (before.tasks other) (state.tasks other)) (other : Nat)
    (hne : other ≠ index) :
  Keeps (before.tasks other) ((state.setTask index task).tasks other)
  := by
  rw [setTask_of_ne _ _ hne]
  exact hkeeps other

theorem Task.poll_cases (h : task.poll call waker = some task') :
  ((task.pc = .idle ∨ task.pc = .suspended) ∧
    task' = { task with call, waker, pc := .access 0 }) ∨
  (task.pc = .suspended ∧ task.call = .read ∧ task' = { task with waker, pc := .claim })
  := by
  rw [poll] at h
  repeat' split at h
  all_goals cases h
  · exact .inl ⟨.inl ‹_›, rfl⟩
  · exact .inr ⟨‹_›, ‹_›, rfl⟩
  · exact .inl ⟨.inr ‹_›, rfl⟩

/-- A step of a call, seen from the call and from the others. -/
structure Steps (state state' : State) (index : Nat) (answer : Option Result) : Prop where
  advances : Advances state state' index (state.tasks index).pc (state'.tasks index).pc answer
  call : (state'.tasks index).call = (state.tasks index).call
  others : ∀ other, other ≠ index → State.Keeps (state.tasks other) (state'.tasks other)

namespace State

variable {index : Nat} {side : Side} {progress : Progress} {rest : List Side} {result : Result}
  {answer : Option Result} {rest' : List Side} {before : State}

/-- A call at some place of a notification goes on to another, with what it does besides. -/
theorem steps_of_notify {side' : Side} {progress' : Progress}
    (hpc : (before.tasks index).pc = .notify side progress rest result)
    (hqueue : SameQueue before.channel state.channel)
    (hkeeps : ∀ other, Keeps (before.tasks other) (state.tasks other)) :
  Steps before (state.setTask index
    { state.tasks index with pc := .notify side' progress' rest' result }) index none
  := by
  constructor
  · rw [hpc, setTask_self]
    exact .notify hqueue
  · rw [setTask_self]
    exact (hkeeps index).call
  · exact others_setTask hkeeps

theorem nextNotice_steps (hpc : (before.tasks index).pc = .notify side progress rest result)
    (hqueue : SameQueue before.channel state.channel)
    (hkeeps : ∀ other, Keeps (before.tasks other) (state.tasks other)) :
  Steps before (state.nextNotice index result rest').1 index
    (state.nextNotice index result rest').2
  := by
  cases rest' with
  | nil =>
    constructor
    · rw [hpc, nextNotice, setTask_self]
      exact .returned hqueue
    · rw [nextNotice, setTask_self]
      exact (hkeeps index).call
    · exact others_setTask hkeeps
  | cons side' rest' => exact steps_of_notify hpc hqueue hkeeps

theorem stepNotify_steps (hpc : (state.tasks index).pc = .notify side progress rest result) :
  Steps state (state.stepNotify index side progress rest result).1 index
    (state.stepNotify index side progress rest result).2
  := by
  have hsame := fun signal => sameQueue_setSignal state.channel side signal
  have hrefl : SameQueue state.channel state.channel := ⟨rfl, rfl, rfl, rfl⟩
  have hkeeps : ∀ other, Keeps (state.tasks other) (state.tasks other) := fun _ => Keeps.refl _
  cases progress with
  | publish => exact steps_of_notify hpc (hsame _) hkeeps
  | count =>
    rw [stepNotify]
    split
    · exact steps_of_notify hpc hrefl hkeeps
    · exact nextNotice_steps hpc hrefl hkeeps
  | take =>
    rw [stepNotify]
    split
    · exact steps_of_notify hpc (hsame _) hkeeps
    · exact nextNotice_steps hpc (hsame _) hkeeps
  | wake waker =>
    rw [stepNotify]
    split
    · exact steps_of_notify hpc hrefl (wake_keeps state waker)
    · exact nextNotice_steps hpc hrefl (wake_keeps state waker)

theorem steps_of_wait {signal : ByteSignal}
    (hpc : (state.tasks index).pc ∈ [Pc.claim, .register, .claimAgain, .remove])
    (hpc' : task.pc ∈ [Pc.remove, .register, .claimAgain, .suspended, .access 0])
    (hcall : task.call = (state.tasks index).call)
    (hanswer : answer = none ∨ answer = some .pending) :
  Steps state ((state.setSignal side signal).setTask index task) index answer
  := by
  constructor
  · rw [setTask_self]
    exact .wait (sameQueue_setSignal state.channel side signal) hpc hpc' hanswer
  · rw [setTask_self]
    exact hcall
  · exact others_setTask fun _ => Keeps.refl _

theorem follow_eq (state : State) (index : Nat) (outcome : Outcome) :
  state.follow index outcome =
    (state.setTask index { state.tasks index with pc := outcome.lands.1 }, outcome.lands.2)
  := by
  cases outcome with
  | next access | blocked => rfl
  | finish result notices =>
    cases notices with
    | nil | cons side rest => rfl

theorem follow_steps {access : Nat} {outcome : Outcome}
    (hpc : (state.tasks index).pc = .access access) (haccess : state.channel.access (state.tasks
      index).call access = .ok (channel, outcome)) :
  Steps state ({ state with channel }.follow index outcome).1 index
    ({ state with channel }.follow index outcome).2
  := by
  rw [follow_eq]
  constructor
  · rw [hpc, setTask_self]
    exact .access haccess
  · rw [setTask_self]
  · exact others_setTask fun _ => Keeps.refl _

theorem stepTask_steps {state' : State} (h : state.stepTask index = .ok (state', answer)) :
  Steps state state' index answer
  := by
  rw [stepTask] at h
  cases hpc : (state.tasks index).pc with
  | idle | suspended =>
    rw [hpc] at h
    cases h
  | access access =>
    simp only [hpc] at h
    split at h
    · cases h
    · rename_i haccess
      have hsteps := follow_steps hpc haccess
      rw [ok.inj h] at hsteps
      exact hsteps
  | claim =>
    simp only [hpc] at h
    cases h
    apply steps_of_wait
    · rw [hpc]
      decide
    · simp only
      split <;> decide
    · rfl
    · exact .inl rfl
  | register | remove | claimAgain =>
    simp only [hpc] at h
    repeat' split at h
    all_goals
      cases h
      apply steps_of_wait
      · rw [hpc]
        decide
      · simp
      · rfl
      · simp
  | notify side progress rest result =>
    simp only [hpc] at h
    have hsteps := stepNotify_steps hpc
    rw [ok.inj h] at hsteps
    exact hsteps

end State

/-! ### What an access does to the queue -/

/-- The chunk that a call writes. -/
def Call.chunk? : Call → Option Bytes
  | .tryWrite bytes | .pollWrite bytes => some bytes
  | _ => none

namespace ByteChannel

/-- The chunk that an access of a call pushes. -/
def pushes (channel : ByteChannel) : Call → Nat → Option Bytes
  | .tryWrite bytes, _ + 2 | .pollWrite bytes, _ + 2 =>
    if (channel.push bytes).1 = some .pushed then some bytes else none
  | _, _ => none

/-- The chunk that an access of a call pops. -/
def pops (channel : ByteChannel) : Call → Nat → Option Bytes
  | .tryRead, 0 | .pollRead, 0 | .read, 0 | .pollRead, _ + 3 | .read, _ + 3 => channel.pop.1
  | _, _ => none

end ByteChannel

/-- What an access does to the queue, and what follows it. -/
inductive Effect (channel : ByteChannel) (call : Call) (access : Nat) (channel' : ByteChannel) :
    Outcome → Prop where
  | pushed {bytes} (hcall : call.chunk? = some bytes)
      (hpushes : channel.pushes call access = some bytes) (hpops : channel.pops call access = none)
      (hopen : channel.readerClosed = false) (hopen' : channel'.readerClosed = false)
      (hcontents : channel'.queue.contents = channel.queue.contents ++ [bytes]) :
      Effect channel call access channel' (.finish .written [.readable])
  | popped {bytes notices} (hpushes : channel.pushes call access = none)
      (hpops : channel.pops call access = some bytes)
      (hsame : channel'.readerClosed = channel.readerClosed)
      (hcontents : channel.queue.contents = bytes :: channel'.queue.contents) :
      Effect channel call access channel' (.finish (.chunk (some bytes)) notices)
  | drained (hpushes : channel.pushes call access = none)
      (hpops : channel.pops call access = none)
      (hsame : channel'.readerClosed = channel.readerClosed)
      (hcontents : channel.queue.contents = []) (hcontents' : channel'.queue.contents = []) :
      Effect channel call access channel' (.finish (.chunk none) [])
  | cleared {notices} (hpushes : channel.pushes call access = none)
      (hpops : channel.pops call access = none) (hclosed : channel'.readerClosed = true)
      (hcontents : channel'.queue.contents = []) :
      Effect channel call access channel' (.finish .done notices)
  | quiet {outcome} (hpushes : channel.pushes call access = none)
      (hpops : channel.pops call access = none)
      (hsame : channel'.readerClosed = channel.readerClosed)
      (hcontents : channel'.queue.contents = channel.queue.contents)
      (hchunk : ∀ bytes notices, outcome ≠ .finish (.chunk bytes) notices)
      (hwritten : ∀ notices, outcome = .finish .written notices →
        call.chunk? = some [] ∧ notices = [])
      (hfull : ∀ bytes notices, outcome = .finish (.full bytes) notices → call = .tryWrite bytes)
      (hnotices : ∀ result side rest, outcome = .finish result (side :: rest) → result = .done) :
      Effect channel call access channel' outcome

namespace ByteChannel

theorem push_cases (channel : ByteChannel) (bytes : Bytes) :
  channel.push bytes = (none, channel) ∨
  (channel.readerClosed = false ∧ channel.writerClosed = false ∧ channel.queue.isFull ∧
    channel.push bytes = (some (.full bytes), channel)) ∨
  (channel.readerClosed = false ∧ channel.writerClosed = false ∧
    ∃ queue, channel.push bytes = (some .pushed, { channel with queue }) ∧
      queue.contents = channel.queue.contents ++ [bytes])
  := by
  rw [push]
  split
  · exact .inl rfl
  · rename_i hopen
    rw [Bool.or_eq_true, not_or, Bool.not_eq_true, Bool.not_eq_true] at hopen
    right
    rcases channel.queue.push_cases bytes with ⟨hfull, hpush⟩ | ⟨_, hpushed, hcontents⟩
    · left
      rw [hpush]
      exact ⟨hopen.1, hopen.2, hfull, rfl⟩
    · right
      refine ⟨hopen.1, hopen.2, (channel.queue.push bytes).2, ?_, hcontents⟩
      rw [← hpushed]

theorem pop_cases (channel : ByteChannel) :
  (channel.queue.contents = [] ∧ ∃ queue, channel.pop = (none, [], { channel with queue }) ∧
    queue.contents = []) ∨
  ∃ bytes queue, channel.pop = (some bytes, if channel.queue.isFull then [.writable] else [],
      { channel with queue }) ∧ channel.queue.contents = bytes :: queue.contents
  := by
  rcases channel.queue.pop_cases with ⟨hempty, hnone, hempty'⟩ | ⟨bytes, hsome, hcontents⟩
  · left
    refine ⟨hempty, channel.queue.pop.2, ?_, hempty'⟩
    simp only [pop, hnone, isSome_none, Bool.and_false, Bool.false_eq_true, if_false]
  · right
    refine ⟨bytes, channel.queue.pop.2, ?_, hcontents⟩
    simp only [pop, hsome, isSome_some, Bool.and_true]

/-- An outcome that is about no chunk. -/
def plain : Outcome → Bool
  | .next _ | .blocked | .finish .done _ => true
  | .finish .written _ | .finish (.full _) _ | .finish (.chunk _) _ => false
  | .finish _ notices => notices.isEmpty

/-- An outcome of a call that leaves the queue as it is. -/
structure Idles (call : Call) (outcome : Outcome) : Prop where
  chunk : ∀ bytes notices, outcome ≠ .finish (.chunk bytes) notices
  written : ∀ notices, outcome = .finish .written notices → call.chunk? = some [] ∧ notices = []
  full : ∀ bytes notices, outcome = .finish (.full bytes) notices → call = .tryWrite bytes
  notices : ∀ result side rest, outcome = .finish result (side :: rest) → result = .done

variable {outcome : Outcome} {access : Nat}

theorem idles_of_plain (hplain : plain outcome) :
  Idles call outcome
  := by
  constructor
  · rintro bytes notices rfl
    cases hplain
  · rintro notices rfl
    cases hplain
  · rintro bytes notices rfl
    cases hplain
  · rintro result side rest rfl
    cases result with
    | done => rfl
    | written | full | chunk | closed | ready | notReady | eof | pending => cases hplain

/-- What an access does to the channel, and what follows it. -/
inductive Touches (channel : ByteChannel) (call : Call) (access : Nat) :
    ByteChannel → Outcome → Prop where
  | pushed {bytes queue} (hcall : call.chunk? = some bytes)
      (hpushes : channel.pushes call access = some bytes) (hpops : channel.pops call access = none)
      (hopen : channel.readerClosed = false)
      (hcontents : queue.contents = channel.queue.contents ++ [bytes]) :
      Touches channel call access { channel with queue } (.finish .written [.readable])
  | popped {bytes queue} (hpushes : channel.pushes call access = none)
      (hpops : channel.pops call access = some bytes)
      (hcontents : channel.queue.contents = bytes :: queue.contents) :
      Touches channel call access { channel with queue }
        (.finish (.chunk (some bytes)) (if channel.queue.isFull then [.writable] else []))
  | empty {queue outcome} (hpushes : channel.pushes call access = none)
      (hpops : channel.pops call access = none) (hcontents : channel.queue.contents = [])
      (hcontents' : queue.contents = [])
      (houtcome : outcome = .next 1 ∨ outcome = .finish (.chunk none) []) :
      Touches channel call access { channel with queue } outcome
  | cleared (hpushes : channel.pushes call access = none)
      (hpops : channel.pops call access = none) :
      Touches channel call access channel.closeReader.1 channel.closeReader.2
  | ended {notices} (hpushes : channel.pushes call access = none)
      (hpops : channel.pops call access = none)
      (hnotices : notices = [.readable, .writable] ∨
        notices = [.readable] ∧ call = .dropWriter ∧ ∃ before, access = before + 1) :
      Touches channel call access { channel with writerClosed := true } (.finish .done notices)
  | kept {writers readers outcome} (hpushes : channel.pushes call access = none)
      (hpops : channel.pops call access = none) (hidles : Idles call outcome)
      (hgone : channel.writerHandles = 0 → writers = 0)
      (hgoing : writers = 0 →
        channel.writerHandles = 0 ∨ (call = .dropWriter ∧ outcome = .next 1)) :
      Touches channel call access
        { channel with writerHandles := writers, readerHandles := readers } outcome

section

variable (hpushes : channel.pushes call access = none) (hpops : channel.pops call access = none)

include hpushes hpops

theorem touches_of_idles (hidles : Idles call outcome) :
  Touches channel call access channel outcome
  := .kept hpushes hpops hidles id .inl

theorem touches_of_plain (hplain : plain outcome) :
  Touches channel call access channel outcome
  := touches_of_idles hpushes hpops (idles_of_plain hplain)

end

theorem accessWrite_touches {bytes : Bytes} {whenFull : Bytes → Outcome}
    (h : channel.accessWrite bytes whenFull access = (channel', outcome))
    (hcall : (call = .tryWrite bytes ∧ whenFull = fun bytes => .finish (.full bytes) []) ∨
      (call = .pollWrite bytes ∧ whenFull = fun _ => .blocked)) :
  Touches channel call access channel' outcome
  := by
  have hchunk : call.chunk? = some bytes := by
    rcases hcall with ⟨rfl, _⟩ | ⟨rfl, _⟩
    · rfl
    · rfl
  have hpops : channel.pops call access = none := by
    rcases hcall with ⟨rfl, _⟩ | ⟨rfl, _⟩
    · rfl
    · rfl
  have hpushes : ∀ first, first < 2 → channel.pushes call first = none := by
    intro first hfirst
    have hcases : first = 0 ∨ first = 1 := by omega
    rcases hcall with ⟨rfl, _⟩ | ⟨rfl, _⟩ <;> rcases hcases with rfl | rfl <;> rfl
  match access with
  | 0 =>
    cases h
    apply touches_of_plain (hpushes 0 (by decide)) hpops
    split <;> rfl
  | 1 =>
    cases h
    apply touches_of_idles (hpushes 1 (by decide)) hpops
    split
    · exact idles_of_plain rfl
    · split
      · rename_i hempty
        rw [hempty] at hchunk
        refine ⟨nofun, ?_, nofun, nofun⟩
        intro notices hfinish
        cases hfinish
        exact ⟨hchunk, rfl⟩
      · exact idles_of_plain rfl
  | access + 2 =>
    have hpushes' : channel.pushes call (access + 2) =
        if (channel.push bytes).1 = some .pushed then some bytes else none := by
      rcases hcall with ⟨rfl, _⟩ | ⟨rfl, _⟩
      · rfl
      · rfl
    rw [accessWrite] at h
    rcases channel.push_cases bytes with hrefused | ⟨_, _, _, hfull⟩ |
      ⟨hopen, _, queue, hpush, hcontents⟩
    · rw [hrefused] at h hpushes'
      cases h
      exact touches_of_plain hpushes' hpops rfl
    · rw [hfull] at h hpushes'
      cases h
      apply touches_of_idles hpushes' hpops
      rcases hcall with ⟨rfl, rfl⟩ | ⟨rfl, rfl⟩
      · refine ⟨nofun, nofun, ?_, nofun⟩
        intro other notices hfinish
        cases hfinish
        rfl
      · exact idles_of_plain rfl
    · rw [hpush] at h hpushes'
      cases h
      exact .pushed hchunk hpushes' hpops hopen hcontents

theorem firstPop_touches (hpushes : channel.pushes call 0 = none) (hpops : channel.pops call 0 = channel.pop.1)
    (h : (match channel.pop with
      | (some bytes, notices, channel) => (channel, finish (.chunk (some bytes)) notices)
      | (none, _, channel) => (channel, .next 1)) = (channel', outcome)) :
  Touches channel call 0 channel' outcome
  := by
  rcases channel.pop_cases with ⟨hempty, queue, hpop, hempty'⟩ | ⟨bytes, queue, hpop, hcontents⟩
  · rw [hpop] at h hpops
    cases h
    exact .empty hpushes hpops hempty hempty' (.inl rfl)
  · rw [hpop] at h hpops
    cases h
    exact .popped hpushes hpops hcontents

theorem accessRead_touches (h : channel.accessRead access = (channel', outcome))
    (hcall : call = .pollRead ∨ call = .read) :
  Touches channel call access channel' outcome
  := by
  have hpushes : channel.pushes call access = none := by
    rcases hcall with rfl | rfl <;> rfl
  match access with
  | 0 =>
    apply firstPop_touches hpushes _ h
    rcases hcall with rfl | rfl <;> rfl
  | 1 | 2 =>
    cases h
    apply touches_of_plain hpushes
    · rcases hcall with rfl | rfl <;> rfl
    · split <;> rfl
  | access + 3 =>
    have hpops : channel.pops call (access + 3) = channel.pop.1 := by
      rcases hcall with rfl | rfl <;> rfl
    rw [accessRead] at h
    rcases channel.pop_cases with ⟨hempty, queue, hpop, hempty'⟩ | ⟨bytes, queue, hpop, hcontents⟩
    · rw [hpop] at h hpops
      cases h
      exact .empty hpushes hpops hempty hempty' (.inr rfl)
    · rw [hpop] at h hpops
      cases h
      exact .popped hpushes hpops hcontents

theorem accessTryRead_touches (h : channel.accessTryRead access = (channel', outcome)) :
  Touches channel .tryRead access channel' outcome
  := by
  match access with
  | 0 => exact firstPop_touches rfl rfl h
  | 1 | access + 2 =>
    cases h
    apply touches_of_plain rfl rfl
    split <;> rfl

theorem accessWritable_plain (channel : ByteChannel) {whenFull : Outcome} (hplain : plain whenFull)
    (access : Nat) :
  plain (channel.accessWritable whenFull access)
  := by
  fun_cases channel.accessWritable whenFull access <;> first | rfl | exact hplain

theorem accessReadable_plain (channel : ByteChannel) {whenEmpty : Outcome}
    (hplain : plain whenEmpty) (access : Nat) :
  plain (channel.accessReadable whenEmpty access)
  := by
  fun_cases channel.accessReadable whenEmpty access <;> first | rfl | exact hplain

variable (h : channel.access call access = .ok (channel', outcome))

include h

theorem access_touches :
  Touches channel call access channel' outcome
  := by
  cases call with
  | tryWrite bytes => exact accessWrite_touches (ok.inj h) (.inl ⟨rfl, rfl⟩)
  | pollWrite bytes => exact accessWrite_touches (ok.inj h) (.inr ⟨rfl, rfl⟩)
  | isWritable | pollWritable =>
    cases h
    exact touches_of_plain rfl rfl (channel.accessWritable_plain rfl access)
  | readerClosed =>
    cases h
    apply touches_of_plain rfl rfl
    split <;> rfl
  | isReadable | pollReadable =>
    cases h
    exact touches_of_plain rfl rfl (channel.accessReadable_plain rfl access)
  | tryRead => exact accessTryRead_touches (ok.inj h)
  | pollRead => exact accessRead_touches (ok.inj h) (.inl rfl)
  | read => exact accessRead_touches (ok.inj h) (.inr rfl)
  | closeWriter =>
    cases h
    exact .ended rfl rfl (.inl rfl)
  | dropWriter =>
    cases access with
    | zero =>
      simp only [ByteChannel.access] at h
      split at h <;> cases h
      rename_i hsome
      apply Touches.kept rfl rfl
      · apply idles_of_plain
        split <;> rfl
      · exact fun hnone => absurd hnone hsome
      · intro hnone
        have hone : channel.writerHandles = 1 := by omega
        exact .inr ⟨rfl, if_pos hone⟩
    | succ access =>
      cases h
      exact .ended rfl rfl (.inr ⟨rfl, rfl, access, rfl⟩)
  | cloneWriter =>
    rw [ByteChannel.access] at h
    split at h <;> cases h
    rename_i hsome
    exact .kept rfl rfl (idles_of_plain rfl) (fun hnone => absurd hnone hsome) nofun
  | closeReader =>
    cases h
    exact .cleared rfl rfl
  | dropReader =>
    cases access with
    | zero =>
      simp only [ByteChannel.access] at h
      split at h <;> cases h
      apply Touches.kept rfl rfl _ id .inl
      apply idles_of_plain
      split <;> rfl
    | succ access =>
      cases h
      exact .cleared rfl rfl
  | cloneReader =>
    rw [ByteChannel.access] at h
    split at h <;> cases h
    exact .kept rfl rfl (idles_of_plain rfl) id .inl

theorem access_effect :
  Effect channel call access channel' outcome
  := by
  cases access_touches h with
  | pushed hcall hpushes hpops hopen hcontents => exact .pushed hcall hpushes hpops hopen hopen hcontents
  | popped hpushes hpops hcontents => exact .popped hpushes hpops rfl hcontents
  | empty hpushes hpops hcontents hcontents' houtcome =>
    rcases houtcome with rfl | rfl
    · have hidles : Idles call (.next 1) := idles_of_plain rfl
      exact .quiet hpushes hpops rfl (hcontents'.trans hcontents.symm) hidles.chunk hidles.written
        hidles.full hidles.notices
    · exact .drained hpushes hpops rfl hcontents hcontents'
  | cleared hpushes hpops => exact .cleared hpushes hpops rfl rfl
  | @ended notices hpushes hpops =>
    have hidles : Idles call (.finish .done notices) := idles_of_plain rfl
    exact .quiet hpushes hpops rfl rfl hidles.chunk hidles.written hidles.full hidles.notices
  | kept hpushes hpops hidles =>
    exact .quiet hpushes hpops rfl rfl hidles.chunk hidles.written hidles.full hidles.notices

end ByteChannel

theorem ByteChannel.access_of_pushes {access : Nat} {bytes : Bytes}
    (h : channel.pushes call access = some bytes) :
  ∃ before, access = before + 2
  := by
  rw [pushes.eq_def] at h
  split at h
  · exact ⟨_, rfl⟩
  · exact ⟨_, rfl⟩
  · cases h

theorem ByteChannel.chunk_of_next {access access' : Nat}
    (h : channel.access call access = .ok (channel', .next (access' + 2))) :
  call.chunk? ≠ some []
  := by
  have hwrite : ∀ bytes whenFull,
      (channel.accessWrite bytes whenFull access).2 = .next (access' + 2) →
      (∀ bytes, whenFull bytes ≠ .next (access' + 2)) → bytes ≠ [] := by
    intro bytes whenFull hnext hfull
    rw [accessWrite.eq_def] at hnext
    repeat' split at hnext
    all_goals first | assumption | exact absurd hnext (hfull _) | cases hnext
  cases call with
  | tryWrite bytes | pollWrite bytes =>
    have hnext := congrArg Prod.snd (ok.inj h)
    have hbytes := hwrite bytes _ hnext (fun _ => nofun)
    exact fun hchunk => hbytes (some.inj hchunk)
  | isWritable | pollWritable | readerClosed | isReadable | pollReadable | tryRead | pollRead
  | read | closeWriter | dropWriter | cloneWriter | closeReader | dropReader | cloneReader =>
    nofun

/-! ### Logs -/

/-- What was pushed and popped, in that order, and what the calls were told. -/
structure Log where
  calls : Nat → Nat
  pushed : List (Ticket Nat × Bytes)
  popped : List (Ticket Nat × Bytes)
  written : List (Ticket Nat × Bytes)
  obtained : List (Ticket Nat × Bytes)

namespace Log

def start : Log := ⟨fun _ => 0, [], [], [], []⟩

def noteAccess (log : Log) (channel : ByteChannel) (task : Task) (index : Nat) : Log :=
  match task.pc with
  | .access access =>
    { log with
      pushed := log.pushed ++
        ((channel.pushes task.call access).map (Prod.mk (ticket log.calls index))).toList
      popped := log.popped ++
        ((channel.pops task.call access).map (Prod.mk (ticket log.calls index))).toList }
  | _ => log

/-- What a call returns.  That an empty chunk was written is not recorded. -/
def noteAnswer (log : Log) (task : Task) (index : Nat) : Option Result → Log
  | some .written =>
    match task.call.chunk? with
    | some (byte :: bytes) =>
      { log with
        written := log.written ++ [(ticket log.calls index, byte :: bytes)] }
    | _ => log
  | some (.chunk (some bytes)) =>
    { log with obtained := log.obtained ++ [(ticket log.calls index, bytes)] }
  | _ => log

def note (log : Log) (state : State) (op : Op) (answer : Option Result) : Log :=
  match op with
  | .poll index _ _ => { log with calls := update log.calls index (log.calls index + 1) }
  | .step index =>
    (log.noteAccess state.channel (state.tasks index) index).noteAnswer (state.tasks index) index
      answer
  | .dropWait _ => log

end Log

/-- A state and its log after a run from a new channel. -/
def Logged (state : State) (log : Log) : Prop :=
  Reachable (instrument State.step Log.note)
    (fun start => start = (.new, .start)) (fun _ _ => True) (state, log)

/-- What a call that is to return something has pushed. -/
def Result.pushed (call : Call) : Result → Phase Bytes
  | .written =>
    match call.chunk? with
    | some bytes => .owes bytes
    | none => .idle
  | _ => .idle

/-- What a call that is to return something has popped. -/
def Result.popped : Result → Phase Bytes
  | .chunk (some bytes) => .owes bytes
  | _ => .idle

/-- A call that has pushed a chunk returns that it was written. -/
def Task.pushPhase (task : Task) : Phase Bytes :=
  match task.pc with
  | .idle | .suspended => .idle
  | .notify _ _ _ result => result.pushed task.call
  | .access _ | .claim | .register | .claimAgain | .remove => .fresh

def Task.popPhase (task : Task) : Phase Bytes :=
  match task.pc with
  | .idle | .suspended => .idle
  | .notify _ _ _ result => result.popped
  | .access _ | .claim | .register | .claimAgain | .remove => .fresh

/-- A call notifies when it has pushed a chunk, popped one or closed a side. -/
def Result.Notified (call : Call) : Result → Prop
  | .written => call.chunk? ≠ some []
  | .chunk (some _) | .done => True
  | _ => False

/-- A call pushes no empty chunk. -/
def Task.Sound (task : Task) : Prop :=
  match task.pc with
  | .access (_ + 2) => task.call.chunk? ≠ some []
  | .notify _ _ _ result => result.Notified task.call
  | _ => True

/-- The log agrees with the queue and with where the calls are. -/
structure Log.Agrees (log : Log) (state : State) : Prop where
  pushes : Agree log.calls (fun index => (state.tasks index).pushPhase) log.pushed log.written
  pops : Agree log.calls (fun index => (state.tasks index).popPhase) log.popped log.obtained
  sound : ∀ index, (state.tasks index).Sound
  order : state.channel.readerClosed = false →
    log.popped.map Prod.snd ++ state.channel.queue.contents = log.pushed.map Prod.snd
  first : log.popped.map Prod.snd <+: log.pushed.map Prod.snd
  closed : state.channel.readerClosed = true → state.channel.queue.contents = []

/-! ### Steps -/

/-- The queue is as it was, or was cleared. -/
def Unmoved (channel channel' : ByteChannel) : Prop :=
  (channel'.readerClosed = true ∧ channel'.queue.contents = []) ∨
    (channel'.readerClosed = channel.readerClosed ∧
      channel'.queue.contents = channel.queue.contents)

namespace Log.Agrees

variable {log : Log} {state state' : State} {index : Nat} {answer : Option Result}
  {outcome : Outcome} {phase : Task → Phase Bytes}

theorem pushPhase_keeps (task task' : Task) (h : State.Keeps task task') :
  task'.pushPhase = task.pushPhase
  := by
  rw [pushPhase, pushPhase, h.pc, h.call]

theorem popPhase_keeps (task task' : Task) (h : State.Keeps task task') :
  task'.popPhase = task.popPhase
  := by
  rw [popPhase, popPhase, h.pc]

section

variable (hothers : ∀ other, other ≠ index → State.Keeps (state.tasks other) (state'.tasks other))
include hothers

theorem phase_eq (hsame : ∀ task task', State.Keeps task task' → phase task' = phase task) :
  (fun index => phase (state'.tasks index)) =
    update (fun index => phase (state.tasks index)) index (phase (state'.tasks index))
  := eq_update_iff.mpr ⟨rfl, fun other hother => hsame _ _ (hothers other hother)⟩

theorem move_one {done told : List (Ticket Nat × Bytes)}
    (h : Agree log.calls (fun index => phase (state.tasks index)) done told)
    (hsame : ∀ task task', State.Keeps task task' → phase task' = phase task)
    (hmove : phase (state'.tasks index) = phase (state.tasks index) ∨
      (phase (state.tasks index) = .fresh ∧ phase (state'.tasks index) = .idle)) :
  Agree log.calls (fun index => phase (state'.tasks index)) done told
  := by
  apply h.move
  intro caller
  by_cases hcaller : caller = index
  · subst hcaller
    exact hmove
  · exact .inl (hsame _ _ (hothers caller hcaller))

theorem sound_others (h : log.Agrees state) (hself : (state'.tasks index).Sound) (other : Nat) :
  (state'.tasks other).Sound
  := by
  by_cases hother : other = index
  · subst hother
    exact hself
  · have hkeeps := hothers other hother
    have hsound := h.sound other
    rw [Sound, hkeeps.pc, hkeeps.call]
    exact hsound

/-- A step that neither pushes nor pops and is no answer about a chunk. -/
theorem quiet (h : log.Agrees state)
    (hpush : (state'.tasks index).pushPhase = (state.tasks index).pushPhase ∨
      ((state.tasks index).pushPhase = .fresh ∧ (state'.tasks index).pushPhase = .idle))
    (hpop : (state'.tasks index).popPhase = (state.tasks index).popPhase ∨
      ((state.tasks index).popPhase = .fresh ∧ (state'.tasks index).popPhase = .idle))
    (hsound : (state'.tasks index).Sound)
    (hqueue : Unmoved state.channel state'.channel) :
  log.Agrees state'
  := by
  constructor
  · exact move_one hothers h.pushes pushPhase_keeps hpush
  · exact move_one hothers h.pops popPhase_keeps hpop
  · exact h.sound_others hothers hsound
  · intro hopen
    rcases hqueue with ⟨hclosed, _⟩ | ⟨hsame, hcontents⟩
    · rw [hopen] at hclosed
      cases hclosed
    · rw [hcontents]
      exact h.order (hsame ▸ hopen)
  · exact h.first
  · intro hclosed
    rcases hqueue with ⟨_, hempty⟩ | ⟨hsame, hcontents⟩
    · exact hempty
    · rw [hcontents]
      exact h.closed (hsame ▸ hclosed)

/-- A step of a call that has neither pushed nor popped. -/
theorem quiet_of_fresh (h : log.Agrees state)
    (hfresh : (state.tasks index).pushPhase = .fresh ∧ (state.tasks index).popPhase = .fresh)
    (hphases : ((state'.tasks index).pushPhase = .fresh ∨ (state'.tasks index).pushPhase = .idle) ∧
      ((state'.tasks index).popPhase = .fresh ∨ (state'.tasks index).popPhase = .idle))
    (hsound : (state'.tasks index).Sound)
    (hqueue : Unmoved state.channel state'.channel) :
  log.Agrees state'
  := by
  apply h.quiet hothers _ _ hsound hqueue
  · rw [hfresh.1]
    exact hphases.1.imp_right fun hidle => ⟨rfl, hidle⟩
  · rw [hfresh.2]
    exact hphases.2.imp_right fun hidle => ⟨rfl, hidle⟩

end

/-- A call is in neither phase once it notifies of something else than a chunk, or returns. -/
theorem phases_of_lands (hpc : task.pc = outcome.lands.1)
    (hchunk : ∀ bytes notices, outcome ≠ .finish (.chunk (some bytes)) notices)
    (hwritten : ∀ side rest, outcome ≠ .finish .written (side :: rest)) :
  (task.pushPhase = .fresh ∨ task.pushPhase = .idle) ∧
    (task.popPhase = .fresh ∨ task.popPhase = .idle)
  := by
  cases outcome with
  | next access | blocked =>
    simp only [lands] at hpc
    simp [pushPhase, popPhase, hpc]
  | finish result notices =>
    cases notices with
    | nil =>
      simp only [lands] at hpc
      simp [pushPhase, popPhase, hpc]
    | cons side rest =>
      simp only [pushPhase, popPhase, hpc]
      cases result with
      | written => exact absurd rfl (hwritten side rest)
      | chunk bytes =>
        cases bytes with
        | none => exact ⟨.inr rfl, .inr rfl⟩
        | some bytes => exact absurd rfl (hchunk bytes (side :: rest))
      | full | closed | ready | notReady | eof | pending | done =>
        exact ⟨.inr rfl, .inr rfl⟩

theorem fresh_of_access {access : Nat} (hpc : task.pc = .access access) :
  task.pushPhase = .fresh ∧ task.popPhase = .fresh
  := by
  simp [pushPhase, popPhase, hpc]

theorem noteAnswer_eq (hchunk : ∀ bytes, answer ≠ some (.chunk (some bytes))) (hwritten : answer =
      some .written → ∀ bytes, task.call.chunk? = some bytes → bytes = []) :
  log.noteAnswer task index answer = log
  := by
  rw [Log.noteAnswer.eq_def]
  split
  · split
    · rename_i hbytes
      exact absurd (hwritten rfl _ hbytes) (cons_ne_nil _ _)
    · rfl
  · rename_i bytes
    exact absurd rfl (hchunk bytes)
  · rfl

theorem lands_answer {result : Result} (h : outcome.lands.2 = some result) :
  outcome = .finish result []
  := by
  cases outcome with
  | next access | blocked => cases h
  | finish result' notices =>
    cases notices with
    | nil =>
      cases h
      rfl
    | cons side rest => cases h

theorem sound_of_lands {access : Nat}
    (haccess : channel.access task.call access = .ok (channel', outcome))
    (hpc : task'.pc = outcome.lands.1) (hcall : task'.call = task.call)
    (hnotices : ∀ result side rest, outcome = .finish result (side :: rest) → result = .done) :
  task'.Sound
  := by
  rw [Sound, hpc]
  cases outcome with
  | next access' =>
    match access' with
    | 0 | 1 => exact trivial
    | access' + 2 =>
      rw [hcall]
      exact ByteChannel.chunk_of_next haccess
  | blocked => exact trivial
  | finish result notices =>
    cases notices with
    | nil => exact trivial
    | cons side rest =>
      cases hnotices result side rest rfl
      exact trivial

theorem access {access : Nat} (h : log.Agrees state) (hpc : (state.tasks index).pc = .access access)
    (haccess : state.channel.access (state.tasks index).call access = .ok (state'.channel, outcome))
    (hpc' : (state'.tasks index).pc = outcome.lands.1)
    (hcall : (state'.tasks index).call = (state.tasks index).call)
    (hothers : ∀ other, other ≠ index → State.Keeps (state.tasks other) (state'.tasks other)) :
  (log.note state (.step index) outcome.lands.2).Agrees state'
  := by
  have hnote : log.note state (.step index) outcome.lands.2 =
      Log.noteAnswer { log with
        pushed := log.pushed ++ ((state.channel.pushes (state.tasks index).call access).map
          (Prod.mk (ticket log.calls index))).toList
        popped := log.popped ++ ((state.channel.pops (state.tasks index).call access).map
          (Prod.mk (ticket log.calls index))).toList }
        (state.tasks index) index outcome.lands.2 := by
    simp only [Log.note, Log.noteAccess, hpc]
  have hfresh := fresh_of_access hpc
  have hpushEq := phase_eq hothers pushPhase_keeps
  have hpopEq := phase_eq hothers popPhase_keeps
  have heffect := ByteChannel.access_effect haccess
  have hquiet (hchunk : ∀ bytes notices, outcome ≠ .finish (.chunk (some bytes)) notices)
      (hnotices : ∀ result side rest, outcome = .finish result (side :: rest) → result = .done) :=
    h.quiet_of_fresh hothers hfresh
      (phases_of_lands hpc' hchunk fun side rest houtcome => nomatch hnotices _ side rest houtcome)
      (sound_of_lands haccess hpc' hcall hnotices)
  rw [hnote]
  cases heffect with
  | @pushed bytes hchunk hpushes hpops hopen hopen' hcontents =>
    simp only [hpushes, hpops, map_none, toList_none, append_nil, lands, Log.noteAnswer]
    have howes : (state'.tasks index).pushPhase = .owes bytes := by
      simp [pushPhase, hpc', lands, hcall, Result.pushed, hchunk]
    have hidle : (state'.tasks index).popPhase = .idle := by
      simp [popPhase, hpc', lands, Result.popped]
    rw [howes] at hpushEq
    constructor
    · exact h.pushes.act hfresh.1 hpushEq
    · exact move_one hothers h.pops popPhase_keeps (.inr ⟨hfresh.2, hidle⟩)
    · apply h.sound_others hothers
      obtain ⟨before, rfl⟩ := ByteChannel.access_of_pushes hpushes
      have hsound := h.sound index
      simp only [Sound, hpc] at hsound
      simp only [Sound, hpc', hcall]
      exact hsound
    · intro _
      rw [map_append, ← h.order hopen, hcontents, append_assoc]
      rfl
    · rw [map_append]
      exact h.first.trans (prefix_append _ _)
    · intro hclosed
      rw [hopen'] at hclosed
      cases hclosed
  | @popped bytes notices hpushes hpops hsame hcontents =>
    have hopen : state.channel.readerClosed = false := by
      rw [← Bool.not_eq_true]
      intro hclosed
      rw [h.closed hclosed] at hcontents
      cases hcontents
    have horder := h.order hopen
    rw [hcontents] at horder
    have hidle : (state'.tasks index).pushPhase = .idle := by
      cases notices <;> simp [pushPhase, hpc', lands, Result.pushed]
    have hpush := move_one hothers h.pushes pushPhase_keeps (.inr ⟨hfresh.1, hidle⟩)
    have hact := h.pops.act hfresh.2 (@rfl _ (update
      (fun index => (state.tasks index).popPhase) index (.owes bytes)))
    have hrest : ∀ obtained, Agree log.calls
        (fun index => (state'.tasks index).popPhase)
        (log.popped ++ [(ticket log.calls index, bytes)]) obtained →
        Log.Agrees { log with
          popped := log.popped ++ [(ticket log.calls index, bytes)]
          obtained } state' := by
      intro obtained hpops'
      constructor
      · exact hpush
      · exact hpops'
      · apply h.sound_others hothers
        cases notices <;> simp [Sound, hpc', lands, Result.Notified]
      · intro _
        rw [map_append, ← horder, append_assoc]
        rfl
      · rw [← horder]
        exact ⟨state'.channel.queue.contents, by simp⟩
      · intro hclosed
        rw [hsame, hopen] at hclosed
        cases hclosed
    simp only [hpushes, hpops, map_none, toList_none, append_nil]
    cases notices with
    | nil =>
      apply hrest
      apply hact.tell (update_self ..)
      rw [hpopEq]
      simp [popPhase, hpc', lands]
    | cons side rest =>
      apply hrest
      have howes : (state'.tasks index).popPhase = .owes bytes := by
        simp [popPhase, hpc', lands, Result.popped]
      rw [hpopEq, howes]
      exact hact
  | drained hpushes hpops hsame hcontents hcontents' =>
    simp only [hpushes, hpops, map_none, toList_none, append_nil]
    exact hquiet nofun nofun (.inr ⟨hsame, hcontents'.trans hcontents.symm⟩)
  | @cleared notices hpushes hpops hclosed hcontents =>
    simp only [hpushes, hpops, map_none, toList_none, append_nil]
    rw [noteAnswer_eq]
    · apply hquiet nofun _ (.inl ⟨hclosed, hcontents⟩)
      rintro _ _ _ ⟨⟩
      rfl
    · intro bytes hanswer
      cases lands_answer hanswer
    · intro hanswer
      cases lands_answer hanswer
  | quiet hpushes hpops hsame hcontents hchunk hwritten hfull hnotices =>
    simp only [hpushes, hpops, map_none, toList_none, append_nil]
    rw [noteAnswer_eq]
    · exact hquiet (fun bytes => hchunk (some bytes)) hnotices (.inr ⟨hsame, hcontents⟩)
    · intro bytes hanswer
      exact hchunk _ _ (lands_answer hanswer)
    · intro hanswer bytes hbytes
      rw [(hwritten _ (lands_answer hanswer)).1] at hbytes
      cases hbytes
      rfl

theorem same_queue (h : SameQueue channel channel') :
  Unmoved channel channel'
  := .inr ⟨h.readerClosed, by rw [h.queue]⟩

theorem stepTask (h : log.Agrees state) (hsteps : Steps state state' index answer) :
  (log.note state (.step index) answer).Agrees state'
  := by
  obtain ⟨hadvances, hcall, hothers⟩ := hsteps
  have hpushEq := phase_eq hothers pushPhase_keeps
  have hpopEq := phase_eq hothers popPhase_keeps
  generalize hpc : (state.tasks index).pc = pc at hadvances
  generalize hpc' : (state'.tasks index).pc = pc' at hadvances
  cases hadvances with
  | access haccess => exact h.access hpc haccess hpc' hcall hothers
  | @notify side progress rest result side' progress' rest' hqueue =>
    have hnote : log.note state (.step index) none = log := by
      simp only [Log.note, Log.noteAccess, hpc, Log.noteAnswer]
    rw [hnote]
    apply h.quiet hothers
    · left
      simp only [pushPhase, hpc, hpc', hcall]
    · left
      simp only [popPhase, hpc, hpc']
    · have hsound := h.sound index
      simp only [Sound, hpc] at hsound
      simp only [Sound, hpc', hcall]
      exact hsound
    · exact same_queue hqueue
  | @returned side progress rest result hqueue =>
    have hpushIdle : (state'.tasks index).pushPhase = .idle := by
      simp [pushPhase, hpc']
    have hpopIdle : (state'.tasks index).popPhase = .idle := by
      simp [popPhase, hpc']
    have hsound : (state'.tasks index).Sound := by
      simp only [Sound, hpc']
    have hnote : log.note state (.step index) (some result) =
        log.noteAnswer (state.tasks index) index (some result) := by
      simp only [Log.note, Log.noteAccess, hpc]
    have hpush : (state.tasks index).pushPhase = result.pushed (state.tasks index).call := by
      simp only [pushPhase, hpc]
    have hpop : (state.tasks index).popPhase = result.popped := by
      simp only [popPhase, hpc]
    have hrest : ∀ written obtained,
        Agree log.calls (fun index => (state'.tasks index).pushPhase) log.pushed written →
        Agree log.calls (fun index => (state'.tasks index).popPhase) log.popped obtained →
        Log.Agrees { log with written, obtained } state' := by
      intro written obtained hpushes hpops
      refine ⟨hpushes, hpops, h.sound_others hothers hsound, ?_, h.first, ?_⟩
      · rw [hqueue.readerClosed, hqueue.queue]
        exact h.order
      · rw [hqueue.readerClosed, hqueue.queue]
        exact h.closed
    have hpushes : result.pushed (state.tasks index).call = .idle → Agree log.calls
        (fun index => (state'.tasks index).pushPhase) log.pushed log.written := by
      intro hidle
      apply move_one hothers h.pushes pushPhase_keeps
      exact .inl (by rw [hpushIdle, hpush, hidle])
    have hpops : result.popped = .idle → Agree log.calls
        (fun index => (state'.tasks index).popPhase) log.popped log.obtained := by
      intro hidle
      apply move_one hothers h.pops popPhase_keeps
      exact .inl (by rw [hpopIdle, hpop, hidle])
    rw [hnote]
    cases result with
    | written =>
      cases hchunk : (state.tasks index).call.chunk? with
      | none =>
        rw [noteAnswer_eq (fun bytes hanswer => by cases hanswer)
          (fun _ bytes hbytes => by rw [hchunk] at hbytes; cases hbytes)]
        exact hrest _ _ (hpushes (by rw [Result.pushed, hchunk])) (hpops rfl)
      | some bytes =>
        have hnonempty := h.sound index
        simp only [Sound, hpc] at hnonempty
        cases bytes with
        | nil => exact absurd hchunk hnonempty
        | cons byte bytes =>
          simp only [Log.noteAnswer, hchunk]
          apply hrest _ _ _ (hpops rfl)
          apply h.pushes.tell
          · rw [hpush, Result.pushed, hchunk]
          · rw [hpushEq, hpushIdle]
    | chunk bytes =>
      cases bytes with
      | none => exact hrest _ _ (hpushes rfl) (hpops rfl)
      | some bytes =>
        apply hrest _ _ (hpushes rfl)
        apply h.pops.tell hpop
        rw [hpopEq, hpopIdle]
    | full | closed | ready | notReady | eof | pending | done =>
      exact hrest _ _ (hpushes rfl) (hpops rfl)
  | @wait _ _ _ hqueue hbefore hafter hanswer =>
    have hnote : log.note state (.step index) answer = log := by
      have haccess : log.noteAccess state.channel (state.tasks index) index = log := by
        simp only [mem_cons, not_mem_nil, or_false] at hbefore
        rcases hbefore with rfl | rfl | rfl | rfl <;> simp only [Log.noteAccess, hpc]
      rw [Log.note, haccess]
      rcases hanswer with rfl | rfl <;> rfl
    have hfresh : (state.tasks index).pushPhase = .fresh ∧ (state.tasks index).popPhase = .fresh := by
      simp only [mem_cons, not_mem_nil, or_false] at hbefore
      rcases hbefore with rfl | rfl | rfl | rfl <;> simp [pushPhase, popPhase, hpc]
    rw [hnote]
    simp only [mem_cons, not_mem_nil, or_false] at hafter
    apply h.quiet_of_fresh hothers hfresh _ _ (same_queue hqueue)
    · rcases hafter with rfl | rfl | rfl | rfl | rfl <;> simp [pushPhase, popPhase, hpc']
    · rcases hafter with rfl | rfl | rfl | rfl | rfl <;> simp [Sound, hpc']

/-- A task that is polled begins a call. -/
theorem poll (h : log.Agrees state) (hpoll : (state.tasks index).poll call waker = some task) :
  (log.note state (.poll index call waker) none).Agrees (state.setTask index task)
  := by
  have hcases : ((state.tasks index).pc = .idle ∨ (state.tasks index).pc = .suspended) ∧
      (task.pc = .access 0 ∨ task.pc = .claim) := by
    rcases poll_cases hpoll with ⟨hpc, rfl⟩ | ⟨hpc, _, rfl⟩
    · exact ⟨hpc, .inl rfl⟩
    · exact ⟨.inr hpc, .inr rfl⟩
  obtain ⟨hbefore, hafter⟩ := hcases
  have hothers : ∀ other, other ≠ index →
      State.Keeps (state.tasks other) ((state.setTask index task).tasks other) :=
    others_setTask fun _ => State.Keeps.refl _
  have hpushEq := phase_eq hothers pushPhase_keeps
  have hpopEq := phase_eq hothers popPhase_keeps
  have hidle : (state.tasks index).pushPhase = .idle ∧ (state.tasks index).popPhase = .idle := by
    rcases hbefore with hpc | hpc <;> simp [pushPhase, popPhase, hpc]
  have hfresh : task.pushPhase = .fresh ∧ task.popPhase = .fresh := by
    rcases hafter with hpc | hpc <;> simp [pushPhase, popPhase, hpc]
  rw [setTask_self, hfresh.1] at hpushEq
  rw [setTask_self, hfresh.2] at hpopEq
  refine ⟨h.pushes.call hidle.1 hpushEq, h.pops.call hidle.2 hpopEq,
    h.sound_others hothers ?_, h.order, h.first, h.closed⟩
  rcases hafter with hpc | hpc <;> simp [Sound, hpc]

theorem step {op : Op} (h : log.Agrees state) (hstep : state.step op = .ok (state', answer)) :
  (log.note state op answer).Agrees state'
  := by
  cases op with
  | poll index call waker =>
    rw [State.step] at hstep
    split at hstep <;> cases hstep
    rename_i hpoll
    exact h.poll hpoll
  | step index => exact h.stepTask (stepTask_steps hstep)
  | dropWait index =>
    simp only [State.step] at hstep
    split at hstep <;> cases hstep
    rename_i hpc
    have hidle : (state.tasks index).pushPhase = .idle ∧
        (state.tasks index).popPhase = .idle := by
      rcases hpc with hpc | hpc <;> simp [pushPhase, popPhase, hpc]
    refine @quiet log state _ index ?_ h ?_ ?_ ?_ ?_
    · exact others_setTask fun _ => State.Keeps.refl _
    · rw [setTask_self, hidle.1]
      exact .inl rfl
    · rw [setTask_self, hidle.2]
      exact .inl rfl
    · rw [setTask_self]
      exact trivial
    · exact same_queue (sameQueue_setSignal ..)

end Log.Agrees

/-! ### Runs -/

theorem Logged.agrees {log : Log} (h : Logged state log) :
  log.Agrees state
  := by
  apply @Reachable.invariant _ _ _ _ _ _ _ (fun state => state.2.Agrees state.1) _ _ _ h
  · rintro _ rfl
    exact ⟨.empty, .empty, fun _ => trivial, fun _ => rfl, prefix_refl _, fun _ => rfl⟩
  · rintro ⟨state, log⟩ op ⟨state', log'⟩ answer hagrees _ hstep
    obtain ⟨htaken, rfl⟩ := instrument_eq_ok hstep
    exact hagrees.step htaken

/-- The chunks of a channel, with what the calls were told of them. -/
structure Delivers (state : State) (log : Log) : Prop where
  /-- The chunks popped and those in the queue are the chunks pushed, in that order. -/
  order : state.channel.readerClosed = false →
    log.popped.map Prod.snd ++ state.channel.queue.contents = log.pushed.map Prod.snd
  /-- The chunks popped are the first of those pushed, also once the reader side is closed. -/
  first : log.popped.map Prod.snd <+: log.pushed.map Prod.snd
  /-- A call pushes at most one chunk and is told of it at most once. -/
  once : (log.pushed.map Prod.fst).Nodup ∧ (log.written.map Prod.fst).Nodup ∧
    (log.popped.map Prod.fst).Nodup ∧ (log.obtained.map Prod.fst).Nodup
  /-- A call that was told that its chunk was written has pushed it, and one that has pushed its
  chunk was told so, or will be when it returns. -/
  written : (∀ entry ∈ log.written, entry ∈ log.pushed) ∧ ∀ entry ∈ log.pushed,
    entry ∈ log.written ∨ (state.tasks entry.1.caller).pushPhase = .owes entry.2
  /-- A call has popped the chunk that it was given, and one that has popped a chunk was given it,
  or will be when it returns. -/
  obtained : (∀ entry ∈ log.obtained, entry ∈ log.popped) ∧ ∀ entry ∈ log.popped,
    entry ∈ log.obtained ∨ (state.tasks entry.1.caller).popPhase = .owes entry.2
  /-- A full queue hands the chunk back. -/
  full : ∀ index bytes state', state.step (.step index) = .ok (state', some (.full bytes)) →
    (state.tasks index).call = .tryWrite bytes
  /-- A read that waits reports the end when all was delivered or the reader side is closed. -/
  ended : ∀ index state', state.step (.step index) = .ok (state', some (.chunk none)) →
    state.channel.readerClosed = true ∨ log.popped.map Prod.snd = log.pushed.map Prod.snd

theorem chunks_delivered {state : State} {log : Log} (h : Logged state log) :
  Delivers state log
  := by
  have hagrees := h.agrees
  -- What is returned at an access, since a notification returns neither of the two.
  have hreturned : ∀ index state' result, state.step (.step index) = .ok (state', some result) →
      ¬ result.Notified (state.tasks index).call → result ≠ .pending →
      ∃ access, Effect state.channel (state.tasks index).call access state'.channel
        (.finish result []) := by
    intro index state' result hstep hnotified hpending
    have hadvances := (stepTask_steps hstep).advances
    generalize hpc : (state.tasks index).pc = pc at hadvances
    generalize (state'.tasks index).pc = pc' at hadvances
    generalize hanswer : some result = answer at hadvances
    cases hadvances with
    | @access access outcome haccess =>
      rw [Log.Agrees.lands_answer hanswer.symm] at haccess
      exact ⟨access, ByteChannel.access_effect haccess⟩
    | notify hqueue => cases hanswer
    | returned hqueue =>
      cases hanswer
      have hsound := hagrees.sound index
      simp only [Sound, hpc] at hsound
      exact absurd hsound hnotified
    | wait hqueue hbefore hafter hwait =>
      rcases hwait with rfl | rfl
      · cases hanswer
      · cases hanswer
        exact absurd rfl hpending
  refine ⟨hagrees.order, hagrees.first, ⟨hagrees.pushes.nodup_done, hagrees.pushes.nodup_told,
    hagrees.pops.nodup_done, hagrees.pops.nodup_told⟩, ⟨hagrees.pushes.sound, ?_⟩,
    ⟨hagrees.pops.sound, ?_⟩, ?_, ?_⟩
  · intro entry hentry
    exact (hagrees.pushes.settled entry hentry).imp_right And.right
  · intro entry hentry
    exact (hagrees.pops.settled entry hentry).imp_right And.right
  · intro index bytes state' hstep
    obtain ⟨access, heffect⟩ := hreturned index state' _ hstep id nofun
    cases heffect with
    | quiet hpushes hpops hsame hcontents hchunk hwritten hfull => exact hfull bytes [] rfl
  · intro index state' hstep
    obtain ⟨access, heffect⟩ := hreturned index state' _ hstep id nofun
    cases heffect with
    | drained hpushes hpops hsame hcontents hcontents' =>
      cases hclosed : state.channel.readerClosed with
      | true => exact .inl rfl
      | false =>
        right
        have horder := hagrees.order hclosed
        rw [hcontents, append_nil] at horder
        exact horder
    | quiet hpushes hpops hsame hcontents hchunk => exact absurd rfl (hchunk none [])

/-- The steps of a call that is made once. -/
def performs (task : Nat) (call : Call) (steps : Nat) : List Op :=
  .poll task call 0 :: replicate steps (.step task)

/-- A chunk is written and read, and the end is reported once the writer is gone. -/
theorem chunks_delivered_sample :
  ∃ state log, Logged state log ∧ log.written.map Prod.snd = [[7]] ∧
    log.obtained.map Prod.snd = [[7]] ∧ state.channel.writerClosed = true ∧ Delivers state log
  := by
  have hrun : (runAllowed (instrument State.step Log.note) (fun _ _ => True)
      (.new, .start) (performs 0 (.tryWrite [7]) 5 ++ performs 1 .pollRead 1 ++
        performs 0 .dropWriter 4 ++ performs 1 .pollRead 3)).map
        (fun state => (state.2.written.map Prod.snd, state.2.obtained.map Prod.snd,
          state.1.channel.writerClosed)) = some ([[7]], [[7]], true) := by
    decide +kernel
  obtain ⟨⟨state, log⟩, hstate, hlog⟩ := map_eq_some_iff.mp hrun
  obtain ⟨hwritten, hrest⟩ := Prod.mk.inj hlog
  obtain ⟨hobtained, hclosed⟩ := Prod.mk.inj hrest
  have hstart : Logged .new .start := .start rfl
  have hlogged : Logged state log := Reachable.of_runAllowed hstart hstate
  exact ⟨state, log, hlogged, hwritten, hobtained, hclosed, chunks_delivered hlogged⟩

/-- An empty chunk is said to be written and is never delivered.  A read that does not wait finds
the queue empty; then a chunk is written and the writer side closed, and the read finds the flag
and reports the end. -/
theorem delivery_exceptions :
  (run State.step .new (performs 0 (.tryWrite []) 2)).toOption.map
    (fun run => (run.2, run.1.channel.queue.contents)) =
      some ([none, none, some .written], []) ∧
  (run State.step .new ([.poll 1 .tryRead 0, .step 1] ++
    performs 0 (.tryWrite [7]) 5 ++ performs 0 .closeWriter 5 ++ [.step 1])).toOption.map
    (fun run => (run.2.filterMap id, run.1.channel.queue.contents,
      run.1.channel.readerClosed)) =
      some ([.written, .done, .eof], [[7]], false)
  := by
  constructor
  · decide +kernel
  · decide +kernel

end Helios.Child
