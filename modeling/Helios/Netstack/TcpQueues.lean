import Helios.Netstack.Segment

/-!
# The byte queues of a TCP connection

The transmit queue holds what the application wrote and the connection has not yet
sent; the receive queue holds what arrived in order and the application has not yet
read.  Both keep their first chunks inline and spill the rest, and both count what they
hold.  Each is described by the list of its chunks, front first, and its operations are
operations on that list.
-/

namespace Helios

open List

variable {chunks' : List Bytes}

def tcpReceiveSegmentBytes : Nat := 1460

def tcpReceiveWindowBytes : Nat := 1024 * 1024

/-- `TCP_RECEIVE_WINDOW_BYTES.div_ceil(TCP_RECEIVE_SEGMENT_BYTES)` -/
def maxTcpReceiveSegments : Nat :=
  (tcpReceiveWindowBytes + tcpReceiveSegmentBytes - 1) / tcpReceiveSegmentBytes

def maxTcpQueuedSegments : Nat := 32

def tcpTransmitBufferBytes : Nat := tcpReceiveWindowBytes

def tcpReceiveInlineSegments : Nat := 4

def totalBytes (chunks : List Bytes) : Nat :=
  (chunks.map length).sum

@[simp]
theorem totalBytes_cons (chunk : Bytes) (chunks : List Bytes) :
  totalBytes (chunk :: chunks) = chunk.length + totalBytes chunks
  := by
  simp [totalBytes]

theorem length_flatten_eq_totalBytes (chunks : List Bytes) :
  chunks.flatten.length = totalBytes chunks
  := by
  simp [totalBytes]

/-- Every slice `bytes[start..end]` is in bounds or aborts. -/
def sliceBytes (bytes : Bytes) (start stop : Nat) : Except Panic Bytes :=
  if start ≤ stop ∧ stop ≤ bytes.length then
    .ok ((bytes.drop start).take (stop - start))
  else
    .error .sliceOutOfBounds

/-! ### The transmit queue -/

namespace TcpTransmitQueue

def chunksOf (front : Option Bytes) (overflow : Option (List Bytes)) : List Bytes :=
  front.toList ++ overflow.getD []

/-- The counters of a transmit queue describe its chunks, and its bounds hold. -/
structure Wf (chunks : List Bytes) (len queuedBytes : Nat) : Prop where
  len_eq : len = chunks.length
  queuedBytes_eq : queuedBytes = totalBytes chunks
  chunk_ne_nil : ∀ chunk ∈ chunks, chunk ≠ []
  len_le : len ≤ maxTcpQueuedSegments
  queuedBytes_le : queuedBytes ≤ tcpTransmitBufferBytes

end TcpTransmitQueue

/-- What the application wrote and the connection has not yet sent.  The first chunk is
kept inline; there is an overflow only behind it. -/
structure TcpTransmitQueue where
  front : Option Bytes
  overflow : Option (List Bytes)
  len : Nat
  queuedBytes : Nat
  overflow_eq_none : front = none → overflow = none
  wf : TcpTransmitQueue.Wf (TcpTransmitQueue.chunksOf front overflow) len queuedBytes

namespace TcpTransmitQueue

variable {self : TcpTransmitQueue} {len queuedBytes : Nat} {chunk : Bytes}

section

variable (self)

/-- The chunks of the queue, front first. -/
def chunks : List Bytes :=
  chunksOf self.front self.overflow

/-- The bytes of the queue in the order in which they will be sent. -/
def bytes : Bytes :=
  self.chunks.flatten

def new : TcpTransmitQueue :=
  { front := none
    overflow := none
    len := 0
    queuedBytes := 0
    overflow_eq_none := fun _ => rfl
    wf := ⟨rfl, rfl, by simp [chunksOf], by decide, by decide⟩ }

def isEmpty : Bool :=
  self.len == 0

def isFull : Bool :=
  decide (self.len ≥ maxTcpQueuedSegments) || decide (self.queuedBytes ≥ tcpTransmitBufferBytes)

def remainingBytesCapacity : Nat :=
  if self.len ≥ maxTcpQueuedSegments then 0 else tcpTransmitBufferBytes - self.queuedBytes

/-- The queue has room for one more chunk of `len` bytes. -/
def accepts (len : Nat) : Bool :=
  !(self.isFull || decide (len > self.remainingBytesCapacity))

end

theorem lt_of_accepts (h : self.accepts len = true) :
  self.len < maxTcpQueuedSegments ∧ self.queuedBytes + len ≤ tcpTransmitBufferBytes
  := by
  simp only [accepts, isFull, Bool.not_eq_true', Bool.or_eq_false_iff, decide_eq_false_iff_not] at h
  obtain ⟨⟨hlen, hbytes⟩, hcap⟩ := h
  rw [remainingBytesCapacity, if_neg hlen] at hcap
  omega

/-- The counters still describe the chunks after one is added at either end. -/
theorem Wf.insert {chunks : List Bytes} {bytes : Bytes} (hwf : Wf chunks len queuedBytes)
    (hperm : chunks'.Perm (bytes :: chunks)) (hne : bytes ≠ []) (hlen : len < maxTcpQueuedSegments)
    (hbytes : queuedBytes + bytes.length ≤ tcpTransmitBufferBytes) :
  Wf chunks' (len + 1) (queuedBytes + bytes.length)
  := by
  constructor
  · rw [hperm.length_eq, length_cons, hwf.len_eq]
  · rw [totalBytes, (hperm.map length).sum_eq, hwf.queuedBytes_eq, map_cons,
      sum_cons, Nat.add_comm, totalBytes]
  · intro chunk hchunk
    obtain rfl | h := mem_cons.mp (hperm.mem_iff.mp hchunk)
    · apply hne
    · apply hwf.chunk_ne_nil chunk h
  · omega
  · apply hbytes

/-- The counters still describe the chunks after the first one is removed. -/
theorem Wf.tail_eq {chunks : List Bytes} (hwf : Wf (chunk :: chunks) len queuedBytes)
    (heq : chunks' = chunks) :
  Wf chunks' (len - 1) (queuedBytes - chunk.length)
  := by
  subst heq
  obtain ⟨hlen, hbytes, hne, hle, hble⟩ := hwf
  simp only [length_cons, totalBytes_cons] at hlen hbytes
  constructor
  · omega
  · omega
  · intro chunk' h
    apply hne chunk' (mem_cons_of_mem chunk h)
  · omega
  · omega

theorem wf_of_front {bytes : Bytes} (h : self.front = some bytes) :
  Wf (bytes :: self.overflow.getD []) self.len self.queuedBytes
  := by
  have hwf := self.wf
  rwa [h] at hwf

section

variable (self)

/-- Appends a chunk, or `none` when the queue has no room for it. -/
def pushBack (bytes : Bytes) : Except Panic (Option TcpTransmitQueue) :=
  if hne : bytes = [] then
    .error .transmitQueueEmptyBytes
  else if hroom : self.accepts bytes.length = true then
    .ok (some (
      match hfront : self.front with
      | none =>
        { front := some bytes
          overflow := self.overflow
          len := self.len + 1
          queuedBytes := self.queuedBytes + bytes.length
          overflow_eq_none := by simp
          wf := self.wf.insert (by simp [chunksOf, hfront]) hne
            (lt_of_accepts hroom).1 (lt_of_accepts hroom).2 }
      | some front =>
        { front := some front
          overflow := some (self.overflow.getD [] ++ [bytes])
          len := self.len + 1
          queuedBytes := self.queuedBytes + bytes.length
          overflow_eq_none := by simp
          wf := self.wf.insert
            (by
              simp only [chunksOf, hfront, Option.getD_some, ← append_assoc]
              apply perm_append_singleton)
            hne (lt_of_accepts hroom).1 (lt_of_accepts hroom).2 }))
  else
    .ok none

/-- Prepends a chunk, or `none` when the queue has no room for it. -/
def pushFront (bytes : Bytes) : Except Panic (Option TcpTransmitQueue) :=
  if hne : bytes = [] then
    .error .transmitQueueEmptyBytes
  else if hroom : self.accepts bytes.length = true then
    .ok (some (
      match hfront : self.front with
      | none =>
        { front := some bytes
          overflow := self.overflow
          len := self.len + 1
          queuedBytes := self.queuedBytes + bytes.length
          overflow_eq_none := by simp
          wf := self.wf.insert (by simp [chunksOf, hfront]) hne
            (lt_of_accepts hroom).1 (lt_of_accepts hroom).2 }
      | some front =>
        { front := some bytes
          overflow := some (front :: self.overflow.getD [])
          len := self.len + 1
          queuedBytes := self.queuedBytes + bytes.length
          overflow_eq_none := by simp
          wf := self.wf.insert (by simp [chunksOf, hfront]) hne
            (lt_of_accepts hroom).1 (lt_of_accepts hroom).2 }))
  else
    .ok none

/-- Removes the first chunk.  The assertion on the byte counter holds by `wf`. -/
def popFront : Option (Bytes × TcpTransmitQueue) :=
  match hfront : self.front with
  | none => none
  | some bytes =>
    some (bytes,
      match hover : self.overflow.getD [] with
      | [] =>
        { front := none
          overflow := none
          len := self.len - 1
          queuedBytes := self.queuedBytes - bytes.length
          overflow_eq_none := fun _ => rfl
          wf := (wf_of_front hfront).tail_eq (by simp [chunksOf, hover]) }
      | [front] =>
        { front := some front
          overflow := none
          len := self.len - 1
          queuedBytes := self.queuedBytes - bytes.length
          overflow_eq_none := by simp
          wf := (wf_of_front hfront).tail_eq (by simp [chunksOf, hover]) }
      | front :: next :: rest =>
        { front := some front
          overflow := some (next :: rest)
          len := self.len - 1
          queuedBytes := self.queuedBytes - bytes.length
          overflow_eq_none := by simp
          wf := (wf_of_front hfront).tail_eq (by simp [chunksOf, hover]) })

end

/-- The loop of `discard_front_bytes`.  The fuel is the number of chunks: when it runs
out the queue is empty, and the source aborts as well. -/
def discardLoop : Nat → TcpTransmitQueue → Nat → Except Panic TcpTransmitQueue
  | _, self, 0 => .ok self
  | 0, _, _ + 1 => .error .transmitQueueLostProbedBytes
  | fuel + 1, self, remaining + 1 =>
    match self.popFront with
    | none => .error .transmitQueueLostProbedBytes
    | some (front, self) =>
      if front.length > remaining + 1 then
        match self.pushFront (front.drop (remaining + 1)) with
        | .error panic => .error panic
        | .ok none => .error .transmitQueueLostCapacityDiscarding
        | .ok (some self) => .ok self
      else
        discardLoop fuel self (remaining + 1 - front.length)

section

variable (self)

def discardFrontBytes (bytes : Nat) : Except Panic TcpTransmitQueue :=
  if bytes = 0 then
    .error .transmitQueueDiscardsNothing
  else
    discardLoop self.len self bytes

/-! ### The transmit queue as a list of chunks -/

theorem len_eq_length :
  self.len = self.chunks.length
  := self.wf.len_eq

theorem queuedBytes_eq_length :
  self.queuedBytes = self.bytes.length
  := by
  rw [self.wf.queuedBytes_eq, bytes, length_flatten_eq_totalBytes, chunks]

end

theorem ne_nil_of_mem (h : chunk ∈ self.chunks) :
  chunk ≠ []
  := self.wf.chunk_ne_nil chunk h

section

variable (self : TcpTransmitQueue) {bytes : Bytes}

theorem bytes_length_le :
  self.bytes.length ≤ tcpTransmitBufferBytes
  := by
  rw [← queuedBytes_eq_length]
  apply self.wf.queuedBytes_le

theorem isEmpty_iff :
  self.isEmpty = true ↔ self.chunks = []
  := by
  rw [isEmpty, beq_iff_eq, len_eq_length, length_eq_zero_iff]

/-- A transmit queue is empty exactly when it holds no byte, since it never stores an
empty chunk. -/
theorem isEmpty_iff_bytes :
  self.isEmpty = true ↔ self.bytes = []
  := by
  rw [isEmpty_iff, bytes, flatten_eq_nil_iff]
  constructor
  · intro h
    simp [h]
  · intro h
    apply eq_nil_iff_forall_not_mem.mpr
    intro chunk hchunk
    apply ne_nil_of_mem hchunk (h chunk hchunk)

theorem front_eq_head :
  self.front = self.chunks.head?
  := by
  rw [chunks, chunksOf]
  cases hfront : self.front with
  | none => simp [self.overflow_eq_none hfront]
  | some front => simp

/-- What appending does: it aborts on an empty chunk, refuses when there is no room, and
otherwise adds the chunk at the back. -/
theorem pushBack_eq (hne : bytes ≠ []) :
  (self.accepts bytes.length = false ∧ self.pushBack bytes = .ok none) ∨
    ∃ self', self.pushBack bytes = .ok (some self') ∧ self'.chunks = self.chunks ++ [bytes]
  := by
  rw [pushBack, dif_neg hne]
  by_cases hroom : self.accepts bytes.length = true
  · right
    rw [dif_pos hroom]
    split
    · simp [chunks, chunksOf, *, self.overflow_eq_none]
    · simp [chunks, chunksOf, *]
  · simp [hroom]

theorem pushFront_eq (hne : bytes ≠ []) :
  (self.accepts bytes.length = false ∧ self.pushFront bytes = .ok none) ∨
    ∃ self', self.pushFront bytes = .ok (some self') ∧ self'.chunks = bytes :: self.chunks
  := by
  rw [pushFront, dif_neg hne]
  by_cases hroom : self.accepts bytes.length = true
  · right
    rw [dif_pos hroom]
    split
    · simp [chunks, chunksOf, *]
    · simp [chunks, chunksOf, *]
  · simp [hroom]

theorem popFront_eq :
  (self.chunks = [] ∧ self.popFront = none) ∨
    ∃ chunk self', self.popFront = some (chunk, self') ∧ self.chunks = chunk :: self'.chunks
  := by
  rw [popFront]
  split
  · simp [chunks, chunksOf, *, self.overflow_eq_none]
  · right
    split <;> simp [chunks, chunksOf, *]

end

theorem accepts_of_popFront {self' : TcpTransmitQueue} (h : self.chunks = chunk :: self'.chunks)
    (hpos : 0 < len) (hlen : len ≤ chunk.length) :
  self'.accepts len = true
  := by
  have hlen_le := self.wf.len_le
  have hbytes_le := self.bytes_length_le
  rw [len_eq_length, h, length_cons, ← len_eq_length] at hlen_le
  rw [bytes, h, flatten_cons, length_append, ← bytes, ← queuedBytes_eq_length] at hbytes_le
  have hcap : self'.remainingBytesCapacity = tcpTransmitBufferBytes - self'.queuedBytes := by
    rw [remainingBytesCapacity, if_neg (by omega)]
  simp only [accepts, isFull, Bool.not_eq_true', Bool.or_eq_false_iff, decide_eq_false_iff_not]
  omega

theorem discardLoop_eq {fuel : Nat} {remaining : Nat} (hfuel : self.chunks.length ≤ fuel)
    (h : remaining ≤ self.bytes.length) :
  ∃ self', discardLoop fuel self remaining = .ok self' ∧
    self'.bytes = self.bytes.drop remaining
  := by
  induction fuel generalizing self remaining with
  | zero =>
    have hnil : self.chunks = [] := by simpa using hfuel
    simp only [bytes, hnil, flatten_nil, length_nil, Nat.le_zero] at h
    subst h
    use self, rfl
    simp
  | succ fuel ih =>
    cases remaining with
    | zero =>
      use self, rfl
      simp
    | succ remaining =>
      obtain ⟨hnil, -⟩ | ⟨chunk, self', hpop, hchunks⟩ := popFront_eq self
      · simp [bytes, hnil] at h
      · have hbytes : self.bytes = chunk ++ self'.bytes := by
          simp [bytes, hchunks]
        rw [hbytes, length_append] at h
        simp only [discardLoop, hpop]
        split
        · -- only a part of the first chunk goes, the rest of it is put back
          rename_i hlt
          have hne : chunk.drop (remaining + 1) ≠ [] := by
            simpa using hlt
          obtain ⟨hroom, -⟩ | ⟨self'', hpush, hchunks'⟩ := pushFront_eq self' hne
          · rw [accepts_of_popFront hchunks (by simp; omega) (by simp)] at hroom
            contradiction
          · simp only [hpush]
            rw [hbytes, drop_append_of_le_length (by omega)]
            simp [bytes, hchunks']
        · rw [hchunks] at hfuel
          have hrest : remaining + 1 - chunk.length ≤ self'.bytes.length := by omega
          obtain ⟨self'', hloop, hdrop⟩ := ih (Nat.le_of_succ_le_succ hfuel) hrest
          refine ⟨self'', hloop, ?_⟩
          have hnil : chunk.drop (remaining + 1) = [] := drop_of_length_le (by omega)
          rw [hdrop, hbytes, drop_append, hnil, nil_append]

theorem discardFrontBytes_eq {n : Nat} (hpos : 0 < n) (h : n ≤ self.bytes.length) :
  ∃ self', self.discardFrontBytes n = .ok self' ∧ self'.bytes = self.bytes.drop n
  := by
  rw [discardFrontBytes, if_neg (by omega)]
  apply discardLoop_eq _ h
  rw [len_eq_length]

end TcpTransmitQueue

/-! ### The receive queue -/

/-- What arrived in order and the application has not yet read.  The first chunks are
kept inline, the rest in an overflow that exists only while it is not empty. -/
structure TcpReceiveQueue where
  inlineSegments : List Bytes
  overflow : Option (List Bytes)
  len : Nat
  inline_le : inlineSegments.length ≤ tcpReceiveInlineSegments
  overflow_ne_nil : overflow ≠ some []
  len_eq : len = (inlineSegments ++ overflow.getD []).length
  len_le : len ≤ maxTcpReceiveSegments

def extendLast (bytes : Bytes) : List Bytes → List Bytes
  | [] => []
  | [chunk] => [chunk ++ bytes]
  | chunk :: next :: rest => chunk :: extendLast bytes (next :: rest)

@[simp]
theorem length_extendLast (bytes : Bytes) (chunks : List Bytes) :
  (extendLast bytes chunks).length = chunks.length
  := by
  fun_induction extendLast with
  | case1 => rfl
  | case2 => rfl
  | case3 chunk next rest ih => simp [ih]

theorem extendLast_ne_nil {bytes : Bytes} {chunks : List Bytes} (h : chunks ≠ []) :
  extendLast bytes chunks ≠ []
  := by
  rw [← length_pos_iff, length_extendLast, length_pos_iff]
  apply h

theorem extendLast_append (bytes : Bytes) (chunks : List Bytes) (h : chunks' ≠ []) :
  extendLast bytes (chunks ++ chunks') = chunks ++ extendLast bytes chunks'
  := by
  induction chunks with
  | nil => rfl
  | cons chunk rest ih =>
    obtain ⟨next, rest', hrest⟩ := exists_cons_of_ne_nil (l := rest ++ chunks') (by simp [h])
    rw [cons_append, hrest, extendLast, ← hrest, ih, cons_append]

theorem flatten_extendLast (bytes : Bytes) {chunks : List Bytes} (h : chunks ≠ []) :
  (extendLast bytes chunks).flatten = chunks.flatten ++ bytes
  := by
  fun_induction extendLast with
  | case1 => contradiction
  | case2 chunk => simp
  | case3 chunk next rest ih =>
    rw [flatten_cons, ih (cons_ne_nil next rest)]
    simp

namespace TcpReceiveQueue

variable (self : TcpReceiveQueue)

/-- The chunks of the queue, front first. -/
def segments : List Bytes :=
  self.inlineSegments ++ self.overflow.getD []

/-- The bytes of the queue in stream order. -/
def bytes : Bytes :=
  self.segments.flatten

def new : TcpReceiveQueue :=
  { inlineSegments := []
    overflow := none
    len := 0
    inline_le := by decide
    overflow_ne_nil := by simp
    len_eq := length_nil.symm
    len_le := by decide }

def isEmpty : Bool :=
  self.len == 0

def isFull : Bool :=
  decide (self.len ≥ maxTcpReceiveSegments)

/-- The last chunk, which `back_mut` lends out. -/
def back (self : TcpReceiveQueue) : Option Bytes :=
  match self.overflow.bind getLast? with
  | some back => some back
  | none => self.inlineSegments.getLast?

def extendBack (bytes : Bytes) : TcpReceiveQueue :=
  match hover : self.overflow with
  | some overflow =>
    { self with
      overflow := some (extendLast bytes overflow)
      overflow_ne_nil := by
        have hne := self.overflow_ne_nil
        rw [hover] at hne
        simp only [ne_eq, Option.some.injEq] at hne ⊢
        apply extendLast_ne_nil hne
      len_eq := by simpa [hover] using self.len_eq }
  | none =>
    { self with
      inlineSegments := extendLast bytes self.inlineSegments
      overflow := none
      inline_le := by simpa using self.inline_le
      overflow_ne_nil := by simp
      len_eq := by simpa [hover] using self.len_eq }

def pushBack (bytes : Bytes) : Option TcpReceiveQueue :=
  if hfull : self.len ≥ maxTcpReceiveSegments then
    none
  else
    some (
      match hover : self.overflow with
      | some overflow =>
        { self with
          overflow := some (overflow ++ [bytes])
          len := self.len + 1
          overflow_ne_nil := by simp
          len_eq := by simp [self.len_eq, hover]; omega
          len_le := by omega }
      | none =>
        if hinline : self.inlineSegments.length < tcpReceiveInlineSegments then
          { self with
            inlineSegments := self.inlineSegments ++ [bytes]
            overflow := none
            len := self.len + 1
            inline_le := by simp only [length_append, length_singleton]; omega
            overflow_ne_nil := by simp
            len_eq := by simp [self.len_eq, hover]
            len_le := by omega }
        else
          { self with
            overflow := some [bytes]
            len := self.len + 1
            overflow_ne_nil := by simp
            len_eq := by simp [self.len_eq, hover]
            len_le := by omega })

/-- Prepends a chunk, or `none` when the queue is full.  A full inline part moves its
last chunk to the front of the overflow. -/
def pushFront (bytes : Bytes) : Option TcpReceiveQueue :=
  if hfull : self.len ≥ maxTcpReceiveSegments then
    none
  else if hinline : self.inlineSegments.length < tcpReceiveInlineSegments then
    some
      { self with
        inlineSegments := bytes :: self.inlineSegments
        len := self.len + 1
        inline_le := by simp only [length_cons]; omega
        len_eq := by simp [self.len_eq]
        len_le := by omega }
  else
    have hpos : 0 < self.inlineSegments.length := Nat.lt_of_lt_of_le (by decide) (not_lt.mp hinline)
    some
      { self with
        inlineSegments := bytes :: self.inlineSegments.dropLast
        overflow := some
          (self.inlineSegments.getLast (length_pos_iff.mp hpos) :: self.overflow.getD [])
        len := self.len + 1
        inline_le := by
          have hle := self.inline_le
          simp only [length_cons, length_dropLast]
          omega
        overflow_ne_nil := by simp
        len_eq := by
          simp [self.len_eq]
          omega
        len_le := by omega }

def popFront : Option (Bytes × TcpReceiveQueue) :=
  match hinline : self.inlineSegments with
  | bytes :: rest =>
    some (bytes,
      { self with
        inlineSegments := rest
        len := self.len - 1
        inline_le := by
          have hle := self.inline_le
          rw [hinline, length_cons] at hle
          omega
        len_eq := by simp [self.len_eq, hinline]
        len_le := by have hle := self.len_le; omega })
  | [] =>
    match hover : self.overflow with
    | none => none
    | some [] => none
    | some [bytes] =>
      some (bytes,
        { self with
          inlineSegments := []
          overflow := none
          len := self.len - 1
          inline_le := by simp
          overflow_ne_nil := by simp
          len_eq := by simp [self.len_eq, hinline, hover]
          len_le := by have hle := self.len_le; omega })
    | some (bytes :: next :: rest) =>
      some (bytes,
        { self with
          inlineSegments := []
          overflow := some (next :: rest)
          len := self.len - 1
          inline_le := by simp
          overflow_ne_nil := by simp
          len_eq := by simp [self.len_eq, hinline, hover]
          len_le := by have hle := self.len_le; omega })

/-! ### The receive queue as a list of chunks -/

section

variable (self : TcpReceiveQueue)

theorem len_eq_length :
  self.len = self.segments.length
  := self.len_eq

theorem isFull_iff :
  self.isFull = true ↔ maxTcpReceiveSegments ≤ self.segments.length
  := by
  rw [isFull, decide_eq_true_iff, len_eq_length]

theorem segments_length_le :
  self.segments.length ≤ maxTcpReceiveSegments
  := by
  rw [← len_eq_length]
  apply self.len_le

theorem back_eq :
  self.back = self.segments.getLast?
  := by
  have hne := self.overflow_ne_nil
  cases hover : self.overflow with
  | none => simp [back, segments, hover]
  | some overflow =>
    rw [hover] at hne
    have hlast := getLast?_eq_some_getLast (l := overflow) (by simpa using hne)
    simp [back, segments, hover, hlast]

theorem segments_extendBack (bytes : Bytes) :
  (self.extendBack bytes).segments = extendLast bytes self.segments
  := by
  have hne := self.overflow_ne_nil
  rw [extendBack]
  split
  · rename_i overflow hover
    rw [hover] at hne
    simp only [segments, hover, Option.getD_some]
    rw [extendLast_append]
    simpa using hne
  · rename_i hover
    simp [segments, hover]

/-- What appending does: it refuses when the queue is full, and otherwise adds the chunk
at the back. -/
theorem pushBack_eq (bytes : Bytes) :
  (self.isFull = true ∧ self.pushBack bytes = none) ∨
    self.isFull = false ∧
      ∃ self', self.pushBack bytes = some self' ∧ self'.segments = self.segments ++ [bytes]
  := by
  by_cases hfull : self.len ≥ maxTcpReceiveSegments
  · simp [isFull, pushBack, hfull]
  · right
    rw [pushBack, dif_neg hfull]
    refine ⟨by simpa [isFull] using hfull, _, rfl, ?_⟩
    split
    · simp [segments, *]
    · split <;> simp [segments, *]

theorem pushFront_eq (bytes : Bytes) :
  (self.isFull = true ∧ self.pushFront bytes = none) ∨
    self.isFull = false ∧
      ∃ self', self.pushFront bytes = some self' ∧ self'.segments = bytes :: self.segments
  := by
  by_cases hfull : self.len ≥ maxTcpReceiveSegments
  · simp [isFull, pushFront, hfull]
  · right
    refine ⟨by simpa [isFull] using hfull, ?_⟩
    rw [pushFront, dif_neg hfull]
    split
    · simp [segments]
    · refine ⟨_, rfl, ?_⟩
      simp only [segments, Option.getD_some, cons_append]
      rw [append_cons, dropLast_append_getLast]

theorem popFront_eq :
  (self.segments = [] ∧ self.popFront = none) ∨
    ∃ chunk self', self.popFront = some (chunk, self') ∧
      self.segments = chunk :: self'.segments
  := by
  have hne := self.overflow_ne_nil
  rw [popFront]
  split
  · right
    simp [segments, *]
  · split
    · simp [segments, *]
    · contradiction
    · simp [segments, *]
    · right
      simp [segments, *]

end

end TcpReceiveQueue

end Helios
