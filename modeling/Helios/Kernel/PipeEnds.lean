import Helios.Kernel.ByteQueue
import Helios.Library.Transition

/-!
# The read ends of a pipe

The bytes of a pipe, or of a socket pair, stand in a queue of chunks that its read ends share.  A
read takes a whole chunk off the queue, and parks what it does not return in the descriptor.  A
copy of the descriptor has a copy of these bytes.  The bytes are read once and in order as long as
no bytes are parked in a descriptor when it is copied or closed, or when another one is read.
-/

namespace Helios.Preview1

open Function List Option Child Transition

structure DescriptorEntry where
  carry : Bytes
  closeOnExec : Bool

/-- A pipe: the chunks of its queue, the oldest first, and the descriptors of its read end, by
table and number. -/
structure Pipe where
  chunks : List Bytes
  writerClosed : Bool
  readerClosed : Bool
  entries : Nat × Nat → Option DescriptorEntry

inductive Op where
  | tryWrite (bytes : Bytes)
  | closeWriter
  | readPipe (fd : Nat × Nat) (maxBytes : Nat)
  | readSocketPair (fd : Nat × Nat) (maxBytes : Nat)
  | tryReadSocketPair (fd : Nat × Nat) (maxBytes : Nat)
  | dup (table fd slot : Nat)
  | dupTo (table fd toFd : Nat) (closeOnExec : Bool)
  | clone (table copy : Nat)
  | cloneForExec (table copy : Nat)
  | close (fd : Nat × Nat)
  | closeReader

inductive Answer where
  | written (bytes : Bytes)
  | read (bytes : Bytes)
  | pending
  | refused
  | done

def takePreview1Carry (carry : Bytes) (maxBytes : Nat) : Bytes × Bytes :=
  if carry.length ≤ maxBytes then (carry, []) else (carry.take maxBytes, carry.drop maxBytes)

theorem takePreview1Carry_append {carry : Bytes} {maxBytes : Nat} (hmax : 0 < maxBytes)
    (hcarry : carry ≠ []) :
  (takePreview1Carry carry maxBytes).1 ++ (takePreview1Carry carry maxBytes).2 = carry ∧
  (takePreview1Carry carry maxBytes).1 ≠ []
  := by
  rw [takePreview1Carry]
  split_ifs <;> simp [hcarry, Nat.ne_of_gt hmax]

namespace Pipe

variable (pipe : Pipe)

/-- A pipe with one descriptor for its read end. -/
def new : Pipe where
  chunks := []
  writerClosed := false
  readerClosed := false
  entries := update (fun _ => none) (0, 0) (some ⟨[], false⟩)

def tryWrite (bytes : Bytes) : Pipe × Answer :=
  if pipe.readerClosed || pipe.writerClosed then (pipe, .refused)
  else if bytes = [] then (pipe, .written [])
  else if byteChannelChunkCapacity ≤ pipe.chunks.length then (pipe, .pending)
  else ({ pipe with chunks := pipe.chunks ++ [bytes] }, .written bytes)

/-- Returns some of the bytes that a descriptor has, and parks the others there. -/
def takeFrom (fd : Nat × Nat) (entry : DescriptorEntry) (carry : Bytes) (maxBytes : Nat) :
    Pipe × Answer :=
  let taken := takePreview1Carry carry maxBytes
  ({ pipe with entries := update pipe.entries fd (some { entry with carry := taken.2 }) },
    .read taken.1)

/-- A read that has to wait changes nothing, and is made again. -/
def readPipe (fd : Nat × Nat) (maxBytes : Nat) : Pipe × Answer :=
  match pipe.entries fd with
  | none => (pipe, .refused)
  | some entry =>
    if entry.carry ≠ [] then pipe.takeFrom fd entry entry.carry maxBytes
    else
      match pipe.chunks with
      | bytes :: chunks => { pipe with chunks }.takeFrom fd entry bytes maxBytes
      | [] => (pipe, if pipe.writerClosed || pipe.readerClosed then .read [] else .pending)

def readSocketPair : Nat × Nat → Nat → Pipe × Answer := pipe.readPipe

def tryReadSocketPair : Nat × Nat → Nat → Pipe × Answer := pipe.readPipe

def copyTo (table fd toFd : Nat) (closeOnExec : Bool) : Pipe × Answer :=
  match pipe.entries (table, fd) with
  | none => (pipe, .refused)
  | some entry =>
    ({ pipe with entries := update pipe.entries (table, toFd) (some { entry with closeOnExec }) },
      .done)

/-- Copies a descriptor into the slot that was allocated. -/
def dup (table fd slot : Nat) : Pipe × Answer := pipe.copyTo table fd slot false

def dupTo (table fd toFd : Nat) (closeOnExec : Bool) : Pipe × Answer :=
  pipe.copyTo table fd toFd closeOnExec

def cloneTable (keeps : DescriptorEntry → Bool) (table copy : Nat) : Pipe :=
  { pipe with
    entries := fun fd =>
      if fd.1 = copy then (pipe.entries (table, fd.2)).filter keeps else pipe.entries fd }

def clone : Nat → Nat → Pipe := pipe.cloneTable fun _ => true

def cloneForExec : Nat → Nat → Pipe := pipe.cloneTable (!·.closeOnExec)

def close (fd : Nat × Nat) : Pipe := { pipe with entries := update pipe.entries fd none }

/-- The last reader of the channel is dropped. -/
def closeReader : Pipe := { pipe with readerClosed := true, chunks := [] }

def step (pipe : Pipe) : Op → Pipe × Answer
  | .tryWrite bytes => pipe.tryWrite bytes
  | .closeWriter => ({ pipe with writerClosed := true }, .done)
  | .readPipe fd maxBytes => pipe.readPipe fd maxBytes
  | .readSocketPair fd maxBytes => pipe.readSocketPair fd maxBytes
  | .tryReadSocketPair fd maxBytes => pipe.tryReadSocketPair fd maxBytes
  | .dup table fd slot => pipe.dup table fd slot
  | .dupTo table fd toFd closeOnExec => pipe.dupTo table fd toFd closeOnExec
  | .clone table copy => (pipe.clone table copy, .done)
  | .cloneForExec table copy => (pipe.cloneForExec table copy, .done)
  | .close fd => (pipe.close fd, .done)
  | .closeReader => (pipe.closeReader, .done)

/-- The bytes that are parked in a descriptor. -/
def carry (fd : Nat × Nat) : Bytes := (pipe.entries fd).elim [] (·.carry)

/-- What the callers see to: a read asks for bytes, a copy goes to a free slot or to a new table,
and the channel loses its reader with the last descriptor. -/
def Usable : Op → Prop
  | .readPipe _ max | .readSocketPair _ max | .tryReadSocketPair _ max => 0 < max
  | .dup table _ slot => pipe.entries (table, slot) = none
  | .clone _ copy | .cloneForExec _ copy => ∀ fd, pipe.entries (copy, fd) = none
  | .closeReader => ∀ fd, pipe.entries fd = none
  | _ => True

/-- No bytes are parked in a descriptor that is copied, or closed while there are others, nor in
another one when a descriptor takes a chunk or meets the end. -/
def Calm : Op → Prop
  | .readPipe fd _ | .readSocketPair fd _ | .tryReadSocketPair fd _ =>
    pipe.entries fd ≠ none → pipe.carry fd = [] →
      (pipe.chunks = [] → pipe.writerClosed || pipe.readerClosed) →
      ∀ other, other ≠ fd → pipe.carry other = []
  | .dup table fd _ => pipe.carry (table, fd) = []
  | .dupTo table fd toFd _ => pipe.entries (table, fd) ≠ none → toFd ≠ fd →
    pipe.carry (table, fd) = [] ∧ pipe.carry (table, toFd) = []
  | .clone table _ => ∀ fd, pipe.carry (table, fd) = []
  | .cloneForExec table _ => ∀ fd, ∀ entry ∈ pipe.entries (table, fd), !entry.closeOnExec →
    entry.carry = []
  | .close fd => pipe.carry fd = [] ∨ ∀ other, other ≠ fd → pipe.entries other = none
  | _ => True

theorem carry_new (fd : Nat × Nat) :
  new.carry fd = []
  := by
  by_cases hfd : fd = (0, 0) <;> simp [carry, new, hfd]

theorem carry_update {fd other : Nat × Nat} (entry : Option DescriptorEntry) :
  { pipe with entries := update pipe.entries fd entry }.carry other =
    if other = fd then entry.elim [] (·.carry) else pipe.carry other
  := by
  simp only [carry, update_apply]
  split <;> rfl

end Pipe

/-- The bytes that were written and those that reads returned, and whether one met the end. -/
structure Log where
  written : Bytes
  returned : Bytes
  ended : Bool

def Log.empty : Log := ⟨[], [], false⟩

def Log.note (log : Log) (_ : Pipe) (_ : Op) : Answer → Log
  | .written bytes => { log with written := log.written ++ bytes }
  | .read bytes =>
    { log with returned := log.returned ++ bytes, ended := log.ended || bytes.isEmpty }
  | _ => log

/-- A step of the pipe with its log; none aborts. -/
def logged : Pipe × Log → Op → Except Empty ((Pipe × Log) × Answer) :=
  instrument (fun pipe op => .ok (pipe.step op)) Log.note

/-- The bytes that were written are those that were returned, those that are parked, in one
descriptor at most, and those of the chunks, unless there is no descriptor left. -/
structure Accounts (pipe : Pipe) (log : Log) : Prop where
  chunks : [] ∉ pipe.chunks
  ended : log.ended → pipe.writerClosed ∧ log.returned = log.written
  bytes : ((∀ fd, pipe.entries fd = none) ∧ log.returned <+: log.written) ∨
    (pipe.readerClosed = false ∧ ∃ owner, (∀ fd, fd ≠ owner → pipe.carry fd = []) ∧
      log.returned ++ pipe.carry owner ++ pipe.chunks.flatten = log.written)

namespace Accounts

variable {pipe : Pipe} {log : Log} {fd other : Nat × Nat} {entry : DescriptorEntry}
  {maxBytes : Nat}

theorem prefix_written (h : Accounts pipe log) :
  log.returned <+: log.written
  := by
  obtain ⟨-, h⟩ | ⟨-, owner, -, h⟩ := h.bytes
  · exact h
  · rw [← h, append_assoc]
    apply prefix_append

/-- A step on the descriptors that changes nothing that is parked. -/
theorem of_carry (h : Accounts pipe log) {entries : Nat × Nat → Option DescriptorEntry}
    (hcarry : ∀ fd, { pipe with entries }.carry fd = pipe.carry fd)
    (hnone : (∀ fd, pipe.entries fd = none) → ∀ fd, entries fd = none) :
  Accounts { pipe with entries } log
  := by
  refine { h with bytes := h.bytes.imp (.imp_left hnone) ?_ }
  simp only [hcarry]
  apply id

/-- A slot that gets what was parked there. -/
theorem update (h : Accounts pipe log) {entry : Option DescriptorEntry}
    (hcarry : entry.elim [] (·.carry) = pipe.carry fd)
    (hnone : (∀ fd, pipe.entries fd = none) → entry = none) :
  Accounts { pipe with entries := Function.update pipe.entries fd entry } log
  := by
  refine h.of_carry (fun other => ?_) (fun hentries => ?_)
  · rw [pipe.carry_update]
    split_ifs with hother
    · rw [hother, hcarry]
    · rfl
  · simp [hnone hentries, hentries, update_apply]

theorem tryWrite (h : Accounts pipe log) {bytes : Bytes} {op : Op} :
  Accounts (pipe.tryWrite bytes).1 (log.note pipe op (pipe.tryWrite bytes).2)
  := by
  fun_cases Pipe.tryWrite with
  | case1 | case3 => exact h
  | case2 =>
    rw [Log.note, append_nil]
    exact h
  | case4 hopen hne =>
    refine ⟨?_, fun hended => ?_, h.bytes.imp (.imp_right fun hprefix => ?_) fun hbytes => ?_⟩
    · simpa [Ne.symm hne] using h.chunks
    · simp [h.ended hended] at hopen
    · exact hprefix.trans (prefix_append _ _)
    · simpa [Log.note, Pipe.carry, ← append_assoc] using hbytes

theorem copyTo (h : Accounts pipe log) {table fd toFd : Nat} {closeOnExec : Bool} {op : Op}
    (hcarry : pipe.entries (table, fd) ≠ none → toFd ≠ fd →
      pipe.carry (table, fd) = [] ∧ pipe.carry (table, toFd) = []) :
  Accounts (pipe.copyTo table fd toFd closeOnExec).1
    (log.note pipe op (pipe.copyTo table fd toFd closeOnExec).2)
  := by
  fun_cases Pipe.copyTo with
  | case1 => exact h
  | case2 entry hentry =>
    refine h.update ?_ fun hnone => by simp [hnone] at hentry
    by_cases hfd : toFd = fd
    · simp [Pipe.carry, hfd, hentry]
    · simp_all [Pipe.carry]

theorem cloneTable (h : Accounts pipe log) {keeps : DescriptorEntry → Bool}
    {table copy : Nat} (hcopy : ∀ fd, pipe.entries (copy, fd) = none)
    (hcarry : ∀ fd, ∀ entry ∈ pipe.entries (table, fd), keeps entry → entry.carry = []) :
  Accounts (pipe.cloneTable keeps table copy) log
  := by
  refine h.of_carry (fun fd => ?_) (fun hnone => ?_)
  · obtain ⟨table', fd⟩ := fd
    simp only [Pipe.carry]
    split_ifs with htable
    · subst htable
      rw [hcopy]
      cases hentry : pipe.entries (table, fd) with
      | none => rfl
      | some entry =>
        rw [filter_some]
        split_ifs with hkeeps
        · exact hcarry fd entry hentry hkeeps
        · rfl
    · rfl
  · simp [hnone]

theorem close (h : Accounts pipe log)
    (hcarry : pipe.carry fd = [] ∨ ∀ other, other ≠ fd → pipe.entries other = none) :
  Accounts (pipe.close fd) log
  := by
  obtain hcarry | hlast := hcarry
  · exact h.update hcarry.symm fun _ => rfl
  · refine { h with bytes := .inl ⟨fun other => ?_, h.prefix_written⟩ }
    by_cases hother : other = fd <;> simp_all [Pipe.close]

/-- Returning from what is parked in the only descriptor that has anything. -/
theorem takeFrom (h : Accounts pipe log) {chunks : List Bytes} {carry : Bytes} {op : Op}
    (hmax : 0 < maxBytes) (hopen : pipe.readerClosed = false)
    (hothers : ∀ other, other ≠ fd → pipe.carry other = []) (hcarry : carry ≠ [])
    (hchunks : [] ∉ chunks)
    (hbytes : log.returned ++ carry ++ chunks.flatten = log.written) :
  Accounts ({ pipe with chunks }.takeFrom fd entry carry maxBytes).1
    (log.note pipe op ({ pipe with chunks }.takeFrom fd entry carry maxBytes).2)
  := by
  have hended : log.ended = false := by
    by_contra hended
    have := (h.ended (by simpa using hended)).2
    simp_all
  obtain ⟨hcarried, htaken⟩ := takePreview1Carry_append hmax hcarry
  refine ⟨hchunks, ?_, .inr ⟨hopen, fd, ?_, ?_⟩⟩
  · simp [Log.note, Pipe.takeFrom, hended, htaken]
  · intro other hother
    rw [Pipe.takeFrom, Pipe.carry_update, if_neg hother]
    exact hothers other hother
  · rw [Pipe.takeFrom, Pipe.carry_update, if_pos rfl]
    simp only [Log.note, Option.elim]
    rw [append_assoc log.returned, hcarried, hbytes]

/-- What is parked is parked in the descriptor that is read. -/
theorem parked (h : Accounts pipe log) (hentry : pipe.entries fd = some entry)
    (hcalm : entry.carry = [] → ∀ other, other ≠ fd → pipe.carry other = []) :
  pipe.readerClosed = false ∧ (∀ other, other ≠ fd → pipe.carry other = []) ∧
  log.returned ++ entry.carry ++ pipe.chunks.flatten = log.written
  := by
  have hcarry : pipe.carry fd = entry.carry := by rw [Pipe.carry, hentry, Option.elim]
  obtain ⟨hnone, -⟩ | ⟨hopen, owner, hothers, hbytes⟩ := h.bytes
  · simp [hnone] at hentry
  · by_cases howner : fd = owner
    · subst howner
      exact ⟨hopen, hothers, hcarry ▸ hbytes⟩
    · have hnil := hcarry ▸ hothers fd howner
      refine ⟨hopen, hcalm hnil, ?_⟩
      rwa [hcalm hnil owner (Ne.symm howner), ← hnil] at hbytes

theorem readPipe (h : Accounts pipe log) {op : Op} (hmax : 0 < maxBytes)
    (hcalm : pipe.Calm (.readPipe fd maxBytes)) :
  Accounts (pipe.readPipe fd maxBytes).1 (log.note pipe op (pipe.readPipe fd maxBytes).2)
  := by
  fun_cases Pipe.readPipe with
  | case1 => exact h
  | case2 entry hentry hcarry =>
    obtain ⟨hopen, hothers, hbytes⟩ := h.parked hentry (absurd · hcarry)
    exact h.takeFrom hmax hopen hothers hcarry h.chunks hbytes
  | case3 entry hentry hcarry bytes chunks hpop =>
    obtain ⟨hopen, hothers, hbytes⟩ := h.parked hentry
      fun hnil => hcalm (by simp [hentry]) (by simpa [Pipe.carry, hentry]) (by simp [hpop])
    have hchunks := h.chunks
    rw [hpop, mem_cons, not_or] at hchunks
    refine h.takeFrom hmax hopen hothers (Ne.symm hchunks.1) hchunks.2 ?_
    simpa [hpop, not_not.mp hcarry] using hbytes
  | case4 entry hentry hcarry hpop =>
    split_ifs with hclosed
    · obtain ⟨hopen, hothers, hbytes⟩ := h.parked hentry
        fun hnil => hcalm (by simp [hentry]) (by simpa [Pipe.carry, hentry]) fun _ => hclosed
      have hall : log.returned = log.written := by simpa [hpop, not_not.mp hcarry] using hbytes
      refine ⟨h.chunks, fun _ => ⟨by simpa [hopen] using hclosed, ?_⟩, ?_⟩
      · simpa [Log.note] using hall
      · simpa [Log.note] using h.bytes
    · exact h

theorem step (h : Accounts pipe log) {op : Op} (husable : pipe.Usable op) (hcalm : pipe.Calm op) :
  Accounts (pipe.step op).1 (log.note pipe op (pipe.step op).2)
  := by
  cases op with
  | tryWrite bytes => apply h.tryWrite
  | closeWriter => exact { h with ended := fun hended => ⟨rfl, (h.ended hended).2⟩ }
  | readPipe fd maxBytes | readSocketPair fd maxBytes | tryReadSocketPair fd maxBytes =>
    apply h.readPipe husable hcalm
  | dup table fd slot =>
    refine h.copyTo fun _ _ => ⟨hcalm, ?_⟩
    rw [Pipe.carry, husable]
    rfl
  | dupTo table fd toFd closeOnExec => apply h.copyTo hcalm
  | clone table copy =>
    refine h.cloneTable husable fun fd entry hentry _ => ?_
    simpa [Pipe.carry, Option.mem_def.mp hentry] using hcalm fd
  | cloneForExec table copy => apply h.cloneTable husable hcalm
  | close fd => apply h.close hcalm
  | closeReader => exact { h with chunks := not_mem_nil, bytes := .inl ⟨husable, h.prefix_written⟩ }

end Accounts

end Helios.Preview1
