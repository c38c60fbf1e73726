import Helios.Library.Transition
import Mathlib.Algebra.Group.Nat.Defs
import Mathlib.Data.List.Basic

/-!
# The end of a WASIX process

The threads of a process share a table.  A spawned thread may end the whole process: it
records the end under the lock of the table and then raises the mailboxes, that of the main
thread first.  When the call of the main thread has ended, the process closes the table,
raises what it still holds and waits for every thread to publish its exit.

The end that is reported is the recorded one, unless the call of the main thread ends by
itself between the record and the raise.  Whatever happens, no thread outlives the process.
-/

namespace Helios.Wasix

open Function Transition

/-- How a process ends: with a status, with the image it runs next, or with a failure. -/
inductive WasixProcessEnd (Image Failure : Type) where
  | exit (code : UInt32)
  | exec (image : Image)
  | fail (failure : Failure)
  deriving DecidableEq

variable {E : Type}

/-- The table of a process, with how a spawned thread ended the process.  A thread stands in
it by its number, and the order of the threads does not matter. -/
structure WasixThreadTable (E : Type) where
  nextTid : Nat
  threads : List Nat
  ended : Bool
  processEnd : Option E

namespace WasixThreadTable

variable (self : WasixThreadTable E)

/-- A process that has ended admits nothing, and a number has to fit an `i32`. -/
def admitThread : Option (Nat × WasixThreadTable E) :=
  if self.ended || decide (2 ^ 31 ≤ self.nextTid) then
    none
  else
    some (self.nextTid,
      { self with nextTid := self.nextTid + 1, threads := self.threads ++ [self.nextTid] })

def withdraw (tid : Nat) : WasixThreadTable E :=
  { self with threads := self.threads.filter (· ≠ tid) }

/-- The first end wins.  The mailboxes of the main thread, which is thread 0, and of the
others are still to be raised. -/
def endFromThread (tid : Nat) (processEnd : E) : WasixThreadTable E × List Nat :=
  if self.ended then
    (self, [])
  else
    ({ self with ended := true, processEnd := some processEnd },
      0 :: self.threads.filter (· ≠ tid))

end WasixThreadTable

/-- Where a spawned thread stands: its spawner has admitted it and not started it, or was
refused and has withdrawn it; it runs; its call has ended and it has mailboxes to raise; its
exit is published. -/
inductive Phase where
  | absent
  | starting (caller : Nat) (refused : Bool)
  | running
  | ending (raises : List Nat)
  | published
  deriving DecidableEq

/-- Where the main thread stands: in its call, stopped by its mailbox, with its completion
decided, or raising mailboxes, waiting for the threads, and done. -/
inductive Main where
  | running
  | stopped
  | completed
  | ending (raises : List Nat)
  | ended
  deriving DecidableEq

/-- A process, whose mailboxes are reduced to the end of their thread.  `recorded` keeps what
was recorded in all, `owed` what was when the call of the main thread ended; no step reads
them. -/
structure Process (E : Type) where
  table : WasixThreadTable E
  raised : Nat → Bool
  phase : Nat → Phase
  spawning : Nat → Option Nat
  main : Main
  taken : List Nat
  completion : Option E
  recorded : List E
  owed : Option E

/-- The accesses of the threads, of which 0 is the main one. -/
inductive Op (E : Type) where
  | admitThread (caller : Nat)
  | start (caller : Nat) (accepted : Bool)
  | refuse (caller : Nat)
  | join (tid : Nat)
  | leave (tid : Nat)
  | endProcess (tid : Nat) (processEnd : E)
  | raise (tid : Nat)
  | publish (tid : Nat)
  | complete (completion : E)
  | stop
  | takeProcessEnd
  | close
  | raiseTaken
  | await

def Op.completion? : Op E → Option E
  | .complete completion => some completion
  | _ => none

inductive Fault where
  | processEndMissing

namespace Process

def initial : Process E :=
  ⟨⟨1, [], false, none⟩, fun _ => false, fun _ => .absent, fun _ => none, .running, [], none, [],
    none⟩

variable (self : Process E)

/-- The thread is in its call, and not in the middle of spawning another. -/
def calls (tid : Nat) : Bool :=
  decide (self.spawning tid = none) &&
    if tid = 0 then decide (self.main = .running) else decide (self.phase tid = .running)

/-- The thread that the call of a thread is spawning, if it stands where the next step of
the spawn expects it. -/
def spawned (caller : Nat) (refused : Bool) : Option Nat :=
  (self.spawning caller).filter fun tid => self.phase tid = .starting caller refused

/-- An access, which changes nothing when it is not the next one of its thread. -/
def access : Op E → Process E
  | .admitThread caller =>
    match self.table.admitThread with
    | some (tid, table) =>
      if self.calls caller then
        { self with
          table
          phase := update self.phase tid (.starting caller false)
          spawning := update self.spawning caller (some tid) }
      else self
    | none => self
  | .start caller accepted =>
    match self.spawned caller false with
    | some tid =>
      if accepted then
        { self with
          phase := update self.phase tid .running
          spawning := update self.spawning caller none }
      else
        { self with
          table := self.table.withdraw tid
          phase := update self.phase tid (.starting caller true) }
    | none => self
  | .refuse caller =>
    match self.spawned caller true with
    | some tid =>
      { self with
        phase := update self.phase tid .published
        spawning := update self.spawning caller none }
    | none => self
  | .join tid =>
    if self.phase tid = .published then { self with table := self.table.withdraw tid } else self
  | .leave tid =>
    if tid ≠ 0 ∧ self.calls tid then
      { self with phase := update self.phase tid (.ending []) }
    else self
  | .endProcess tid processEnd =>
    if tid ≠ 0 ∧ self.calls tid then
      { self with
        table := (self.table.endFromThread tid processEnd).1
        phase := update self.phase tid (.ending (self.table.endFromThread tid processEnd).2)
        recorded := if self.table.ended then self.recorded else processEnd :: self.recorded }
    else self
  | .raise tid =>
    match self.phase tid with
    | .ending (other :: raises) =>
      { self with
        raised := update self.raised other true
        phase := update self.phase tid (.ending raises) }
    | _ => self
  | .publish tid =>
    if self.phase tid = .ending [] then
      { self with phase := update self.phase tid .published }
    else self
  | .complete completion =>
    if self.calls 0 then
      { self with
        main := .completed
        completion := some completion
        owed := self.recorded.head? }
    else self
  | .stop =>
    if self.calls 0 ∧ self.raised 0 then
      { self with main := .stopped, owed := self.recorded.head? }
    else self
  | .takeProcessEnd =>
    if self.main = .stopped then
      { self with
        table := { self.table with processEnd := none }
        main := .completed
        completion := self.table.processEnd }
    else self
  | .close =>
    if self.main = .completed then
      { self with
        table := { self.table with ended := true, threads := [] }
        main := .ending self.table.threads
        taken := self.table.threads }
    else self
  | .raiseTaken =>
    match self.main with
    | .ending (other :: raises) =>
      { self with raised := update self.raised other true, main := .ending raises }
    | _ => self
  | .await =>
    if self.main = .ending [] ∧ ∀ tid ∈ self.taken, self.phase tid = .published then
      { self with main := .ended }
    else self

/-- A main thread that was stopped expects a recorded end. -/
def step : Op E → Except Fault (Process E × Unit)
  | .takeProcessEnd =>
    if self.main = .stopped ∧ self.table.processEnd = none then
      .error .processEndMissing
    else
      .ok (self.access .takeProcessEnd, ())
  | op => .ok (self.access op, ())

end Process

variable {process : Process E}

theorem Process.spawned_eq_some {caller tid : Nat} {refused : Bool}
    (h : process.spawned caller refused = some tid) :
  process.spawning caller = some tid ∧ process.phase tid = .starting caller refused
  := by
  simpa [Process.spawned, Option.filter_eq_some_iff] using h

theorem Process.main_of_calls (h : process.calls 0 = true) :
  process.main = .running
  := by
  grind [Process.calls]

/-- The call of the main thread does not end by itself with another end than the recorded
one. -/
abbrev Process.Kept (process : Process E) (op : Op E) : Prop :=
  process.calls 0 = true → ∀ completion ∈ op.completion?, ∀ processEnd ∈ process.table.processEnd,
    completion = processEnd

/-- What is reported is the end that had been recorded. -/
def Process.Reports (process : Process E) : Prop :=
  ∀ processEnd ∈ process.owed, ∀ completion ∈ process.completion, completion = processEnd

/-- What holds of a process between any two accesses. -/
structure Inv (process : Process E) : Prop where
  once : process.recorded.length ≤ 1 ∧ (process.table.ended = false → process.recorded = [])
  held : process.main = .running ∨ process.main = .stopped →
    process.table.processEnd = process.recorded.head?
  stopped : process.main = .stopped → process.table.processEnd ≠ none
  owed : process.main = .stopped → process.owed = process.table.processEnd
  undecided : process.main = .running ∨ process.main = .stopped → process.completion = none
  flag : process.main = .running → process.table.processEnd = none →
    process.raised 0 = false ∧ ∀ tid raises, process.phase tid = .ending raises → 0 ∉ raises
  absent : 0 < process.table.nextTid ∧
    ∀ tid, process.phase tid = .absent ↔ tid = 0 ∨ process.table.nextTid ≤ tid
  main : 0 ∉ process.table.threads
  spawning : ∀ caller tid, process.spawning caller = some tid →
    (process.phase tid = .starting caller false ∨ process.phase tid = .starting caller true) ∧
    if caller = 0 then process.main = .running else process.phase caller = .running
  starting : ∀ tid caller refused, process.phase tid = .starting caller refused →
    process.spawning caller = some tid
  listed : ∀ tid, process.phase tid ≠ .absent → process.phase tid ≠ .published →
    (∀ caller, process.phase tid ≠ .starting caller true) →
    tid ∈ process.table.threads ∨ tid ∈ process.taken
  early : process.main = .running ∨ process.main = .stopped ∨ process.main = .completed →
    process.taken = []
  closed : (∃ raises, process.main = .ending raises) ∨ process.main = .ended →
    process.table.ended = true ∧ process.table.threads = []
  done : process.main = .ended → ∀ tid ∈ process.taken, process.phase tid = .published

theorem Inv.access {op : Op E} (h : Inv process) :
  Inv (process.access op)
  := by
  have ⟨once, held, stopped, owed, undecided, flag, absent, main, spawning, starting, listed,
    early, closed, done⟩ := h
  -- An access that is not the next one of its thread leaves the process as it was, and what
  -- an access does not touch holds by assumption.
  cases op with simp only [Process.access] <;> split <;> try exact h
  | admitThread caller =>
    split
    · constructor <;> first
      | assumption
      | grind -linarith [WasixThreadTable.admitThread, Process.calls]
    · exact h
  | start caller accepted =>
    have := Process.spawned_eq_some (by assumption)
    split
    · constructor <;> first | assumption | grind -linarith
    · constructor <;> first | assumption | grind -linarith [WasixThreadTable.withdraw]
  | refuse caller =>
    have := Process.spawned_eq_some (by assumption)
    constructor <;> first | assumption | grind -linarith
  | join tid => constructor <;> first | assumption | grind -linarith [WasixThreadTable.withdraw]
  | endProcess tid processEnd =>
    -- The first end makes the main thread's mailbox due, a later one changes no table.
    constructor <;> first
    | assumption
    | grind -linarith [Process.calls, WasixThreadTable.endFromThread]
  | leave | complete | stop => constructor <;> first | assumption | grind -linarith [Process.calls]
  | raise | publish | takeProcessEnd | close | raiseTaken | await =>
    constructor <;> first | assumption | grind -linarith

theorem access_owed {op : Op E} (h : Inv process) (hkept : process.Kept op)
    (howed : process.Reports) :
  (process.access op).Reports
  := by
  cases op with simp only [Process.access] <;> split <;> try exact howed
  | admitThread | start => split <;> exact howed
  | complete completion =>
    rename_i hcalls
    rintro processEnd howes _ ⟨⟩
    apply hkept hcalls completion rfl
    rwa [h.held (.inl (Process.main_of_calls hcalls))]
  | stop =>
    rename_i hstops
    rw [h.undecided (.inl (Process.main_of_calls hstops.1))]
    nofun
  | takeProcessEnd =>
    rename_i hstopped
    rw [h.owed hstopped]
    intro processEnd howes completion hcompletion
    exact Option.some.inj (hcompletion.symm.trans howes)

/-- The main thread finds an end when it meets the end of its mailbox, and nothing else of
the process is left when its completion is reported. -/
structure EndsOnce (process : Process E) : Prop where
  once : process.recorded.length ≤ 1
  reports : process.Reports
  found : ∀ op, ∃ next, process.step op = .ok (next, ())
  alone : process.main = .ended → process.table.admitThread = none ∧
    ∀ tid, 0 < tid → tid < process.table.nextTid → process.phase tid = .published

theorem Inv.ended (h : Inv process) (hmain : process.main = .ended) {tid : Nat} (htid : 0 < tid)
    (hnext : tid < process.table.nextTid) :
  process.phase tid = .published
  := by
  have ⟨once, held, stopped, owed, undecided, flag, absent, main, spawning, starting, listed,
    early, closed, done⟩ := h
  match hphase : process.phase tid with
  | .starting caller true => grind -linarith
  | .absent | .starting _ false | .running | .ending _ | .published => grind -linarith

theorem process_ends_once {process : Process E}
    (h : Reachable Process.step (· = .initial) Process.Kept process) :
  EndsOnce process
  := by
  have hinv : Inv process ∧ process.Reports := by
    apply h.invariant
    · rintro _ rfl
      refine ⟨?_, by rintro _ ⟨⟩⟩
      constructor <;> simp [Process.initial] <;> omega
    · rintro process op process' ⟨⟩ ⟨hinv, howed⟩ hkept hstep
      have haccess : process.access op = process' := by
        cases op with
        | takeProcessEnd =>
          rw [Process.step] at hstep
          split at hstep
          · cases hstep
          · exact congrArg Prod.fst (Except.ok.inj hstep)
        | _ => exact congrArg Prod.fst (Except.ok.inj hstep)
      rw [← haccess]
      exact ⟨hinv.access, access_owed hinv hkept howed⟩
  obtain ⟨hinv, howed⟩ := hinv
  refine ⟨hinv.once.1, howed, ?_, ?_⟩
  · intro op
    cases op with
    | takeProcessEnd =>
      rw [Process.step, if_neg fun h => hinv.stopped h.1 h.2]
      exact ⟨_, rfl⟩
    | _ => exact ⟨_, rfl⟩
  · intro hmain
    refine ⟨?_, fun tid htid hnext => hinv.ended hmain htid hnext⟩
    simp [WasixThreadTable.admitThread, hinv.closed (.inr hmain)]

/-- A spawned thread exits with 7, and the call of the main thread returns before its mailbox
is raised. -/
theorem recorded_end_lost :
  ∃ process, run Process.step (.initial : Process (WasixProcessEnd Unit Unit))
    [.admitThread 0, .start 0 true, .endProcess 1 (.exit 7), .complete (.exit 0)] =
      .ok (process, [(), (), (), ()]) ∧
    process.owed = some (.exit 7) ∧ process.completion = some (.exit 0)
  := ⟨_, rfl, rfl, rfl⟩

def stoppedOps : List (Op (WasixProcessEnd Unit Unit)) :=
  [.admitThread 0, .start 0 true, .endProcess 1 (.exit 7), .raise 1, .stop, .takeProcessEnd, .close,
    .raiseTaken, .publish 1, .await]

/-- The main thread is stopped by the thread that exits, and then waits for it. -/
theorem process_ends_once_stopped :
  ∃ process, runAllowed Process.step Process.Kept .initial stoppedOps = some process ∧
    process.main = .ended ∧ process.completion = some (.exit 7) ∧ EndsOnce process
  := by
  have hrun : ∃ process, runAllowed Process.step Process.Kept .initial stoppedOps = some process ∧
      process.main = .ended ∧ process.completion = some (.exit 7) := ⟨_, rfl, rfl, rfl⟩
  obtain ⟨process, hrun, hmain, hcompletion⟩ := hrun
  exact ⟨process, hrun, hmain, hcompletion, process_ends_once (.of_runAllowed (.start rfl) hrun)⟩

end Helios.Wasix
