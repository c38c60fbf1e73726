import Helios.Library.Transition
import Helios.Library.Updates
import Mathlib.Data.List.Basic

/-!
# The debug console

Every byte on the debug port goes through the console.  A call that takes the port writes
what is queued and its own segment; a record that finds the port taken is queued, and
either its own call or the one that has the port writes it.

What was written, followed by what is queued, is a list to which segments are only ever
added at the end.  So each is written once and in that order, and none stays queued when
the last call returns.
-/

namespace Helios.Console

open Function List Transition Option

def handoffSegments : Nat := 1024

/-- What a call wants written, with the number of the call. -/
structure Segment where
  id : Nat
  bytes : List UInt8

inductive Fault where
  | handoffCapacityExhausted

/-- The console, with the writes to its port in the order in which they began.  The hand-off
queue is built when it is first needed. -/
structure DebugConsole where
  transmitting : Bool
  handoff : Option (List Segment)
  port : List Segment

/-- A record of the kernel, or a segment of a guest. -/
inductive Kind where
  | emit
  | tryWrite

/-- Where a call is.  It drains the queue and writes with the port taken, and `last` says
that its own segment needs no more writing. -/
inductive Pc where
  | take
  | drain (last : Bool)
  | write (last : Bool)
  | release
  | handOver
  | pump
  | retake
  | done (written : Bool)
  deriving DecidableEq

structure Call where
  kind : Kind
  bytes : List UInt8
  /-- The calls whose segments were queued when this one started; no step reads it. -/
  ahead : List Nat
  pc : Pc

namespace DebugConsole

variable (self : DebugConsole)

def queue : List Segment :=
  self.handoff.getD []

/-- The next access of a call with the given segment to the transmit role, to the queue or
to the port, where a write begins with one access and ends with another. -/
def access (segment : Segment) (kind : Kind) : Pc → Except Fault (DebugConsole × Pc)
  | .take =>
    if self.transmitting then
      .ok (self, match kind with | .emit => .handOver | .tryWrite => .done false)
    else
      .ok ({ self with transmitting := true }, .drain false)
  | .drain last =>
    match self.queue with
    | queued :: rest =>
      .ok ({ self with handoff := some rest, port := self.port ++ [queued] }, .write last)
    | [] =>
      if last then
        .ok (self, .release)
      else
        .ok ({ self with port := self.port ++ [segment] }, .write true)
  | .write last => .ok (self, .drain last)
  | .release => .ok ({ self with transmitting := false }, .pump)
  | .handOver =>
    match self.handoff with
    | none => .ok ({ self with handoff := some [] }, .handOver)
    | some queue =>
      if queue.length < handoffSegments then
        .ok ({ self with handoff := some (queue ++ [segment]) }, .pump)
      else
        .error .handoffCapacityExhausted
  | .pump => .ok (self, if self.queue.isEmpty then .done true else .retake)
  | .retake =>
    if self.transmitting then
      .ok (self, .done true)
    else
      .ok ({ self with transmitting := true }, .drain true)
  | .done written => .ok (self, .done written)

/-- The segments in the order in which they are written. -/
def order : List Segment :=
  self.port ++ self.queue

end DebugConsole

/-- The console with every call, by its number, and the calls in progress on each processor,
of which only the innermost runs.  A number not yet given to a call has one that returned
without having written. -/
structure System where
  console : DebugConsole
  started : Nat
  calls : Nat → Call
  nested : Nat → List Nat

def System.initial : System :=
  ⟨⟨false, none, []⟩, 0, fun _ => ⟨.tryWrite, [], [], .done false⟩, fun _ => []⟩

/-- A processor begins a call, which interrupts what it does, or goes on with its innermost
call. -/
inductive Op where
  | call (processor : Nat) (kind : Kind) (bytes : List UInt8)
  | go (processor : Nat)

def System.step (self : System) : Op → Except Fault (System × Unit)
  | .call processor kind bytes =>
    let call := ⟨kind, bytes, self.console.queue.map Segment.id, .take⟩
    .ok (⟨self.console, self.started + 1, update self.calls self.started call,
      update self.nested processor (self.started :: self.nested processor)⟩, ())
  | .go processor =>
    match self.nested processor with
    | [] => .ok (self, ())
    | id :: rest =>
      let call := self.calls id
      match self.console.access ⟨id, call.bytes⟩ call.kind call.pc with
      | .error fault => .error fault
      | .ok (console, pc) =>
        .ok (⟨console, self.started, update self.calls id { call with pc },
          match pc with
          | .done _ => update self.nested processor rest
          | _ => self.nested⟩, ())

/-- The numbers of the calls whose segments these are. -/
abbrev ids (segments : List Segment) : List Nat :=
  segments.map Segment.id

/-! ### One access -/

namespace Pc

/-- The call has the port. -/
def owns : Pc → Bool
  | .drain _ | .write _ | .release => true
  | _ => false

/-- The segment of the call has been written or queued. -/
def entered : Pc → Bool
  | .take | .handOver => false
  | .drain last | .write last => last
  | .release | .pump | .retake => true
  | .done written => written

/-- The call has still to look at the queue. -/
def watches : Pc → Bool
  | .take | .handOver | .done _ => false
  | _ => true

end Pc

variable {console console' : DebugConsole} {owner : Option Nat} {id : Nat}
variable {pc pc' : Pc} {segment : Segment} {kind : Kind}

section

variable (h : console.access segment kind pc = .ok (console', pc'))
include h

/-- A call adds its segment to the order when it enters, and nothing else changes the order. -/
theorem access_order :
  console'.order = console.order ∧ pc'.entered = pc.entered ∨
    console'.order = console.order ++ [segment] ∧ pc.entered = false ∧ pc'.entered = true
  := by
  simp only [DebugConsole.order, DebugConsole.queue] at *
  cases pc <;> simp only [DebugConsole.access, DebugConsole.queue] at h <;> grind [Pc.entered]

/-- A segment of a guest is written by its own call. -/
theorem access_written (hkind : kind = .tryWrite → pc ≠ .handOver ∧
      (pc.entered = true → segment ∈ console.port)) :
  (∀ other ∈ console.port, other ∈ console'.port) ∧ (kind = .tryWrite → pc' ≠ .handOver ∧
    (pc'.entered = true → segment ∈ console'.port))
  := by
  cases pc <;> simp only [DebugConsole.access] at h <;> grind [Pc.entered]

variable (hrole : console.transmitting = owner.isSome) (howns : pc.owns = true ↔ owner = some id)

include hrole howns

/-- The port passes between a call that takes or releases it and nobody. -/
theorem access_role :
  ∃ owner', console'.transmitting = owner'.isSome ∧ (pc'.owns = true ↔ owner' = some id) ∧
    ∀ other, other ≠ id → (owner' = some other ↔ owner = some other)
  := by
  use if pc'.owns then some id else if pc.owns then none else owner
  cases pc <;> simp only [DebugConsole.access] at h <;> grind [Pc.owns]

/-- A call leaves something queued only if somebody has still to look at the queue. -/
theorem access_watched (hqueue : console'.queue ≠ []) :
  pc'.watches = true ∨ console.queue ≠ [] ∧ pc.watches = false ∨
    ∃ other, other ≠ id ∧ owner = some other
  := by
  cases pc <;> simp only [DebugConsole.access] at h <;>
    grind [Pc.owns, Pc.watches, DebugConsole.queue, isSome_iff_exists]

end

/-! ### Runs -/

/-- What comes first still does when the list grows. -/
theorem idxOf_lt_append {l : List Nat} {a b : Nat} (added : List Nat) (h : l.idxOf a < l.idxOf b) :
  (l ++ added).idxOf a < (l ++ added).idxOf b
  := by
  have ha : a ∈ l := idxOf_lt_length_iff.mp (Nat.lt_of_lt_of_le h idxOf_le_length)
  rw [idxOf_append_of_mem ha]
  by_cases hb : b ∈ l
  · rwa [idxOf_append_of_mem hb]
  · rw [idxOf_append_of_notMem hb]
    have := idxOf_lt_length_iff.mpr ha
    omega

/-- The order lists the segments of the calls that have entered, and a call comes after those
it found queued.  A number that is not in the order counts as coming last. -/
structure Ordered (order : List Segment) (calls : Nat → Call) : Prop where
  entered : ∀ id, (calls id).pc.entered = true ↔ id ∈ ids order
  nodup : (ids order).Nodup
  bytes : ∀ segment ∈ order, segment.bytes = (calls segment.id).bytes
  ahead : ∀ id, ∀ other ∈ (calls id).ahead,
    (ids order).idxOf other < (ids order).idxOf id

namespace Ordered

variable {order : List Segment} {calls : Nat → Call}

/-- A call that does not enter changes nothing. -/
theorem keep {call : Call} (h : Ordered order calls) (hpc : call.pc.entered = (calls id).pc.entered)
    (hbytes : call.pc.entered = true → call.bytes = (calls id).bytes)
    (hahead : ∀ other ∈ call.ahead,
      (ids order).idxOf other < (ids order).idxOf id) :
  Ordered order (update calls id call)
  := by
  refine ⟨?_, h.nodup, ?_, ?_⟩
  · rw [forall_update_iff calls fun id call => call.pc.entered = true ↔ id ∈ ids order]
    exact ⟨hpc ▸ h.entered id, fun other _ => h.entered other⟩
  · intro segment hsegment
    rw [h.bytes segment hsegment]
    by_cases hid : segment.id = id
    · rw [hid, update_self, hbytes]
      rw [hpc, h.entered, ← hid]
      exact mem_map_of_mem hsegment
    · rw [update_of_ne hid]
  · rw [forall_update_iff calls fun id call => ∀ other ∈ call.ahead,
      (ids order).idxOf other < (ids order).idxOf id]
    exact ⟨hahead, fun other _ => h.ahead other⟩

/-- A call that enters comes last. -/
theorem add (h : Ordered order calls) (hbefore : (calls id).pc.entered = false)
    (hpc : pc.entered = true) :
  Ordered (order ++ [⟨id, (calls id).bytes⟩]) (update calls id { calls id with pc })
  := by
  have hnew : id ∉ ids order := by
    rw [← h.entered, hbefore]
    exact Bool.false_ne_true
  constructor
  · grind [h.entered]
  · grind [h.nodup]
  · grind [h.bytes]
  · intro other earlier hearlier
    rw [ids, map_append]
    apply idxOf_lt_append _ (h.ahead other earlier _)
    rwa [Updates.view Call.ahead] at hearlier
    rfl

end Ordered

structure Holds (system : System) (owner : Option Nat) : Prop where
  role : system.console.transmitting = owner.isSome
  owns : ∀ id, (system.calls id).pc.owns = true ↔ owner = some id
  watched : system.console.queue ≠ [] → ∃ id, (system.calls id).pc.watches = true
  unused : ∀ id, system.started ≤ id → (system.calls id).pc = .done false
  ordered : Ordered system.console.order system.calls
  written : ∀ id, (system.calls id).kind = .tryWrite → (system.calls id).pc ≠ .handOver ∧
    ((system.calls id).pc.entered = true → ⟨id, (system.calls id).bytes⟩ ∈ system.console.port)

variable {system system' : System}

theorem watches_of_owns (h : pc.owns = true) :
  pc.watches = true
  := by
  cases pc <;> first | rfl | cases h

namespace Holds

variable (h : Holds system owner)

include h

/-- A new call has not the port, has not entered and looks at nothing yet. -/
theorem call {processor : Nat} {bytes : List UInt8}
    (hstep : system.step (.call processor kind bytes) = .ok (system', ())) :
  Holds system' owner
  := by
  cases hstep
  have hpc := h.unused system.started (Nat.le_refl _)
  have hentered := h.ordered.entered system.started
  rw [hpc] at hentered
  refine ⟨h.role, ?_, ?_, ?_, h.ordered.keep ?_ ?_ ?_, ?_⟩
  · have howns := h.owns system.started
    grind [Pc.owns, h.owns]
  · intro hqueue
    obtain ⟨id, hwatches⟩ := h.watched hqueue
    use id
    grind [Pc.watches]
  · grind [h.unused]
  · rw [hpc]
    rfl
  · exact fun h => absurd h Bool.false_ne_true
  · intro other hother
    rw [idxOf_eq_length_iff.mpr fun hmem => absurd (hentered.mpr hmem) Bool.false_ne_true,
      idxOf_lt_length_iff, DebugConsole.order, ids, map_append, mem_append]
    exact .inr hother
  · grind [Pc.entered, h.written]

/-- A call goes on. -/
theorem go {nested : Nat → List Nat}
    (haccess : system.console.access ⟨id, (system.calls id).bytes⟩ (system.calls id).kind
      (system.calls id).pc = .ok (console', pc')) :
  ∃ owner', Holds ⟨console', system.started,
    update system.calls id { system.calls id with pc := pc' }, nested⟩ owner'
  := by
  obtain ⟨owner', hrole, hself, hothers⟩ := access_role haccess h.role (h.owns id)
  obtain ⟨hport, hwritten⟩ := access_written haccess (h.written id)
  refine ⟨owner', hrole, ?_, ?_, ?_, ?_, ?_⟩
  · rw [forall_update_iff system.calls fun other call => call.pc.owns = true ↔ owner' = some other]
    exact ⟨hself, fun other hother => (h.owns other).trans (hothers other hother).symm⟩
  · intro hqueue
    obtain hpc | ⟨hqueue, hpc⟩ | ⟨other, hother, howner⟩ :=
      access_watched haccess h.role (h.owns id) hqueue
    · exact ⟨id, by simpa using hpc⟩
    · obtain ⟨other, hwatches⟩ := h.watched hqueue
      use other
      grind
    · use other
      simpa [hother] using watches_of_owns ((h.owns other).mpr howner)
  · intro other hother
    have := h.unused other hother
    grind [DebugConsole.access]
  · obtain ⟨heq, hpc⟩ | ⟨heq, hbefore, hpc⟩ := access_order haccess
    · rw [heq]
      exact h.ordered.keep hpc (fun _ => rfl) (h.ordered.ahead id)
    · rw [heq]
      exact h.ordered.add hbefore hpc
  · grind [h.written]

theorem step {op : Op} (hstep : system.step op = .ok (system', ())) :
  ∃ owner', Holds system' owner'
  := by
  cases op with
  | call processor kind bytes => exact ⟨owner, h.call hstep⟩
  | go processor =>
    simp only [System.step] at hstep
    split at hstep
    · cases hstep
      exact ⟨owner, h⟩
    · split at hstep <;> cases hstep
      rename_i haccess
      exact h.go haccess

end Holds

/-- What a console should do with its segments. -/
structure Sound (system : System) : Prop where
  exclusive : ∀ id id' last last', (system.calls id).pc = .write last →
    (system.calls id').pc = .write last' → id = id'
  once : (ids system.console.order).Nodup
  whole : ∀ segment ∈ system.console.order, segment.bytes = (system.calls segment.id).bytes
  returned : ∀ id written, (system.calls id).pc = .done written →
    (written = true ↔ id ∈ ids system.console.order)
  guest : ∀ id, (system.calls id).kind = .tryWrite → (system.calls id).pc = .done true →
    ⟨id, (system.calls id).bytes⟩ ∈ system.console.port
  fifo : ∀ id, ∀ other ∈ (system.calls id).ahead, (ids system.console.order).idxOf other
    < (ids system.console.order).idxOf id
  quiet : (∀ id, ∃ written, (system.calls id).pc = .done written) →
    system.console.queue = [] ∧ system.console.transmitting = false

/-- In every run the writes do not overlap; every segment handed in is written or queued once,
with its bytes, after those that were queued when its call began; one that was refused is
neither; and when no call is in progress nothing is queued and the port is free. -/
theorem console_sound
    (h : Reachable System.step (fun system => system = .initial) (fun _ _ => True) system) :
  Sound system
  := by
  have hinv : ∃ owner, Holds system owner := by
    apply h.invariant
    · rintro _ rfl
      refine ⟨none, rfl, ?_, ?_, ?_, ⟨?_, ?_, ?_, ?_⟩, ?_⟩ <;>
        simp [System.initial, Pc.owns, Pc.entered, DebugConsole.order, DebugConsole.queue]
    · rintro system op system' ⟨⟩ ⟨owner, h⟩ - hstep
      exact h.step hstep
  obtain ⟨owner, h⟩ := hinv
  refine ⟨?_, h.ordered.nodup, h.ordered.bytes, ?_, ?_, h.ordered.ahead, ?_⟩
  · intro id id' last last' hpc hpc'
    have hid := (h.owns id).mp (by rw [hpc]; rfl)
    have hid' := (h.owns id').mp (by rw [hpc']; rfl)
    exact some.inj (hid.symm.trans hid')
  · intro id written hpc
    rw [← h.ordered.entered, hpc]
    rfl
  · intro id hkind hpc
    exact (h.written id hkind).2 (by rw [hpc]; rfl)
  · intro hquiet
    constructor
    · by_contra hqueue
      obtain ⟨id, hwatches⟩ := h.watched hqueue
      obtain ⟨written, hpc⟩ := hquiet id
      rw [hpc] at hwatches
      cases hwatches
    · rw [h.role, isSome_eq_false_iff, isNone_iff_eq_none, eq_none_iff_forall_ne_some]
      intro id howner
      obtain ⟨written, hpc⟩ := hquiet id
      have := (h.owns id).mpr howner
      rw [hpc] at this
      cases this

/-- A processor is interrupted while it has the port, and the interrupt queues a record. -/
theorem console_sound_interrupt :
  ∃ system outs, run System.step .initial [.call 0 .emit [1], .go 0, .call 0 .emit [2], .go 0,
    .go 0, .go 0] = .ok (system, outs) ∧ system.console.queue.length = 1 ∧ Sound system
  := by
  have hrun : ∃ system outs, run System.step .initial [.call 0 .emit [1], .go 0,
      .call 0 .emit [2], .go 0, .go 0, .go 0] = .ok (system, outs) ∧
      system.console.queue.length = 1 := ⟨_, _, rfl, rfl⟩
  obtain ⟨system, outs, hrun, hqueue⟩ := hrun
  exact ⟨system, outs, hrun, hqueue, console_sound (.of_run (.start rfl) hrun)⟩

end Helios.Console
