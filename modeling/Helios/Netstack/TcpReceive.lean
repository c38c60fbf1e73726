import Helios.Netstack.TcpQueues

/-!
# The receiving half of a TCP connection

The fields of a connection that describe what its peer sends: the next sequence number
expected, the window advertised to the peer, the in-order queue a reader drains, the
segments held aside behind a hole, and the acknowledgements owed.  The source keeps
these fields flat in one record with the sending half; here they form a record of their
own, so that what the receiving half does cannot touch the sending half.
-/

namespace Helios

open Machine

def maxTcpOutOfOrderSegments : Nat := 32

def tcpReceiveCoalesceBytes : Nat := 128 * 1024

def tcpReceiveBytes : Nat := maxTcpReceiveSegments * tcpReceiveSegmentBytes

def tcpReceiveBackpressureSegments : Nat := maxTcpReceiveSegments - 4

def tcpReceiveBackpressureBytes : Nat :=
  tcpReceiveBackpressureSegments * tcpReceiveSegmentBytes

def tcpDelayedAckSegments : Nat := 2

def tcpQuickackSegments : Nat := 16

def tcpWindowUpdateBytes : Nat := tcpReceiveSegmentBytes * 4

def tcpMaxQueuedAcks : Nat := 5

def tcpLocalWindowScale : Nat := 4

def tcpDelayedAckNanos : Nat := 40000000

/-- A segment held aside until the hole in front of it is filled. -/
structure TcpOutOfOrderSegment where
  sequence : SequenceNumber
  payload : Bytes
  deriving DecidableEq, Repr

/-- The sequence number just after an out-of-order segment. -/
def TcpOutOfOrderSegment.endSequence (segment : TcpOutOfOrderSegment) : SequenceNumber :=
  segmentEndFromParts segment.sequence segment.payload.length

structure TcpReceiveCounters where
  peerRetransmitsReceived : Nat
  duplicateAcksRequested : Nat
  deriving DecidableEq, Repr

structure TcpAckSnapshot where
  acknowledgement : SequenceNumber
  windowBytes : Nat
  deriving DecidableEq, Repr

structure TcpSegmentSnapshot where
  sequence : SequenceNumber
  payloadLen : Nat
  deriving DecidableEq, Repr

structure ReceiveSide where
  receiveNext : SequenceNumber
  advertisedWindow : Nat
  receiveWindowRightEdge : SequenceNumber
  localWindowScale : Nat
  peerSackPermitted : Bool
  receiveQueue : TcpReceiveQueue
  receiveQueuedBytes : Nat
  receiveFinSequence : Option SequenceNumber
  outOfOrder : List TcpOutOfOrderSegment
  outOfOrderQueuedBytes : Nat
  receiveCounters : TcpReceiveCounters
  lastAckSent : Option TcpAckSnapshot
  lastSegmentReceived : Option TcpSegmentSnapshot
  pendingAcks : Nat
  delayedAckDeadlineNanos : Option Nat
  unackedReceiveSegments : Nat
  quickackSegmentsRemaining : Nat
  pendingWindowUpdateBytes : Nat
  pendingAckReopensWindow : Bool

/-- The receive window for a given amount of buffered data, in the scaled units of the
header. -/
def receiveWindowSize (queuedBytes scale : Nat) : Nat :=
  min ((tcpReceiveBytes - queuedBytes) >>> scale) (maxWord 16)

namespace ReceiveSide

variable (self : ReceiveSide)

/-- The receiving half of a connection that has heard nothing. -/
def closed : ReceiveSide :=
  { receiveNext := 0
    advertisedWindow := receiveWindowSize 0 0
    receiveWindowRightEdge := 0
    localWindowScale := 0
    peerSackPermitted := false
    receiveQueue := .new
    receiveQueuedBytes := 0
    receiveFinSequence := none
    outOfOrder := []
    outOfOrderQueuedBytes := 0
    receiveCounters := ⟨0, 0⟩
    lastAckSent := none
    lastSegmentReceived := none
    pendingAcks := 0
    delayedAckDeadlineNanos := none
    unackedReceiveSegments := 0
    quickackSegmentsRemaining := tcpQuickackSegments
    pendingWindowUpdateBytes := 0
    pendingAckReopensWindow := false }

/-- What `abort` clears. -/
def abort : ReceiveSide :=
  { self with
    receiveQueue := .new
    receiveQueuedBytes := 0
    receiveFinSequence := none
    outOfOrder := []
    outOfOrderQueuedBytes := 0
    pendingAcks := 0
    delayedAckDeadlineNanos := none
    unackedReceiveSegments := 0
    quickackSegmentsRemaining := tcpQuickackSegments
    pendingWindowUpdateBytes := 0
    pendingAckReopensWindow := false }

def receiveBufferedBytes : Nat :=
  self.receiveQueuedBytes + self.outOfOrderQueuedBytes

def receiveBackpressured : Bool :=
  decide (self.receiveBufferedBytes ≥ tcpReceiveBackpressureBytes)

def localReceiveWindowBytes : Nat :=
  self.advertisedWindow <<< self.localWindowScale

/-! ### The advertised window -/

/-- The window to advertise: the free space, but never less than what is still open at
the right edge the peer was last told. -/
def refreshedWindow : Nat :=
  let free := receiveWindowSize self.receiveBufferedBytes self.localWindowScale
  if sequenceLt self.receiveNext self.receiveWindowRightEdge then
    let remaining :=
      (self.receiveWindowRightEdge - self.receiveNext).toNat >>> self.localWindowScale
    max free (satCast 16 remaining)
  else
    free

def refreshAdvertisedWindow : ReceiveSide :=
  { self with
    advertisedWindow := self.refreshedWindow
    receiveWindowRightEdge :=
      self.receiveNext + BitVec.ofNat 32 (self.refreshedWindow <<< self.localWindowScale) }

/-- Anchors the receive window on the sequence number of the peer's SYN. -/
def setReceiveBase (receiveNext : SequenceNumber) : ReceiveSide :=
  refreshAdvertisedWindow
    { self with receiveNext, receiveWindowRightEdge := receiveNext }

variable (sequence : SequenceNumber)

def sequenceInReceiveWindow (window : Nat) :
    Bool :=
  sequenceLeq self.receiveNext sequence &&
    sequenceLt sequence (self.receiveNext + BitVec.ofNat 32 window)

/-- The acceptability test for a segment that occupies `len` sequence numbers. -/
def receiveSequenceAcceptable (len : Nat) :
    Bool :=
  let window := self.localReceiveWindowBytes
  if len = 0 then
    if window = 0 then sequence == self.receiveNext
    else self.sequenceInReceiveWindow sequence window
  else if window = 0 then
    false
  else
    self.sequenceInReceiveWindow sequence window ||
      self.sequenceInReceiveWindow (sequence + BitVec.ofNat 32 (len - 1)) window

/-! ### Acknowledgements owed -/

def noteAckEmitted : ReceiveSide :=
  { self with
    pendingAcks := self.pendingAcks - 1
    delayedAckDeadlineNanos := none
    unackedReceiveSegments := 0
    lastAckSent := some ⟨self.receiveNext, self.localReceiveWindowBytes⟩ }

def requestAck : ReceiveSide :=
  { self with
    pendingAcks := max self.pendingAcks 1
    delayedAckDeadlineNanos := none
    unackedReceiveSegments := 0
    pendingWindowUpdateBytes := 0 }

def requestDuplicateAck : ReceiveSide :=
  { self with
    receiveCounters :=
      { self.receiveCounters with
        duplicateAcksRequested := satAdd 64 self.receiveCounters.duplicateAcksRequested 1 }
    pendingAcks := min (satAdd 8 self.pendingAcks 1) tcpMaxQueuedAcks
    delayedAckDeadlineNanos := none
    unackedReceiveSegments := 0
    pendingWindowUpdateBytes := 0 }

def noteInboundPayload (nowNanos : Nat) : ReceiveSide :=
  let quickack := self.quickackSegmentsRemaining ≠ 0
  let self :=
    { self with
      unackedReceiveSegments := satAdd 8 self.unackedReceiveSegments 1
      quickackSegmentsRemaining := self.quickackSegmentsRemaining - 1 }
  if quickack ∨ self.unackedReceiveSegments ≥ tcpDelayedAckSegments then
    self.requestAck
  else if self.delayedAckDeadlineNanos.isNone then
    { self with delayedAckDeadlineNanos := some (satAdd 64 nowNanos tcpDelayedAckNanos) }
  else
    self

/-- Whether the window grew enough to tell the peer.  The growth is accumulated in
bytes until it is. -/
def shouldAdvertiseWindowUpdate (previousWindow : Nat) :
    ReceiveSide × Bool :=
  if self.advertisedWindow ≤ previousWindow then
    (self, false)
  else if previousWindow = 0 then
    (self, true)
  else
    let deltaBytes := (self.advertisedWindow - previousWindow) <<< self.localWindowScale
    let self :=
      { self with
        pendingWindowUpdateBytes := satAdd 32 self.pendingWindowUpdateBytes deltaBytes }
    (self, decide (self.pendingWindowUpdateBytes ≥ tcpWindowUpdateBytes))

/-! ### The in-order queue -/

/-- `push_receive_segment_owned`: `none` when the queue is full. -/
def pushReceiveSegmentOwned (bytes : Bytes) : Option ReceiveSide :=
  match self.receiveQueue.pushBack bytes with
  | none => none
  | some queue =>
    some
      { self with
        receiveQueue := queue
        receiveQueuedBytes := self.receiveQueuedBytes + bytes.length }

/-- Appends in-order data, coalescing it into the last chunk while that stays small. -/
def pushReceivePayload (payload : Bytes) : Option ReceiveSide :=
  if payload = [] then
    some self
  else
    match self.receiveQueue.back with
    | some back =>
      if back.length + payload.length ≤ tcpReceiveCoalesceBytes then
        some
          { self with
            receiveQueue := self.receiveQueue.extendBack payload
            receiveQueuedBytes := self.receiveQueuedBytes + payload.length }
      else
        self.pushReceiveSegmentOwned payload
    | none => self.pushReceiveSegmentOwned payload

def pushFrontReceiveSegment (bytes : Bytes) : Except Panic ReceiveSide :=
  match self.receiveQueue.pushFront bytes with
  | none => .error .receiveQueueLostCapacitySplitting
  | some queue =>
    .ok
      { self with
        receiveQueue := queue
        receiveQueuedBytes := self.receiveQueuedBytes + bytes.length }

def popReceiveSegment : Except Panic (Option (Bytes × ReceiveSide)) :=
  match self.receiveQueue.popFront with
  | none => .ok none
  | some (bytes, queue) =>
    if self.receiveQueuedBytes ≥ bytes.length then
      .ok (some (bytes,
        { self with
          receiveQueue := queue
          receiveQueuedBytes := self.receiveQueuedBytes - bytes.length }))
    else
      .error .receiveQueuedBytesCorrupt

/-! ### Reassembly -/

def recordOldPayload (payloadLen : Nat) :
    ReceiveSide :=
  let payloadLen := satCast 32 payloadLen
  if payloadLen = 0 then
    self
  else if sequenceLeq (sequence + BitVec.ofNat 32 payloadLen) self.receiveNext then
    { self with
      receiveCounters :=
        { self.receiveCounters with
          peerRetransmitsReceived := satAdd 64 self.receiveCounters.peerRetransmitsReceived 1 } }
  else
    self

def takeOutOfOrderBytes (len : Nat) : Except Panic ReceiveSide :=
  if len ≤ self.outOfOrderQueuedBytes then
    .ok { self with outOfOrderQueuedBytes := self.outOfOrderQueuedBytes - len }
  else
    .error .outOfOrderBytesUnderflowed

/-- The part of an out-of-order segment that lies at or after `receive_next`. -/
def untrimmedPayload (segment : TcpOutOfOrderSegment) :
    Except Panic Bytes :=
  if sequenceLt segment.sequence self.receiveNext then
    let trim := (self.receiveNext - segment.sequence).toNat
    sliceBytes segment.payload trim segment.payload.length
  else
    .ok segment.payload

/-- The loop of `drain_contiguous_out_of_order` over the segments held aside, first one
first, counting those moved to the in-order queue. -/
def drainLoop : List TcpOutOfOrderSegment → ReceiveSide → Nat → Except Panic (ReceiveSide × Nat)
  | [], self, drained => .ok ({ self with outOfOrder := [] }, drained)
  | segment :: rest, self, drained =>
    if sequenceLt self.receiveNext segment.sequence then
      .ok ({ self with outOfOrder := segment :: rest }, drained)
    else if sequenceLeq segment.endSequence self.receiveNext then
      -- entirely old: dropped without touching the in-order queue
      match self.takeOutOfOrderBytes segment.payload.length with
      | .error panic => .error panic
      | .ok self => drainLoop rest self drained
    else if self.receiveQueue.isFull then
      .ok ({ self with outOfOrder := segment :: rest }, drained)
    else
      match self.takeOutOfOrderBytes segment.payload.length with
      | .error panic => .error panic
      | .ok self =>
        match self.untrimmedPayload segment with
        | .error panic => .error panic
        | .ok payload =>
          match self.pushReceivePayload payload with
          | none => .error .receiveQueueFullAfterCheck
          | some self =>
            drainLoop rest
              { self with
                receiveNext := self.receiveNext + BitVec.ofNat 32 (satCast 32 payload.length) }
              (drained + 1)

def drainContiguousOutOfOrder : Except Panic (ReceiveSide × Nat) :=
  drainLoop self.outOfOrder self 0

/-- Queues data that starts at `receive_next`; `none` for the error of a full queue. -/
def pushContiguousPayload (payload : Bytes) (nowNanos : Nat) :
    Except Panic (ReceiveSide × Option Bool) :=
  match self.pushReceivePayload payload with
  | none => .ok (self, none)
  | some pushed =>
    match drainContiguousOutOfOrder
        { pushed with
          receiveNext :=
            pushed.receiveNext + BitVec.ofNat 32 (satCast 32 payload.length) } with
    | .error panic => .error panic
    | .ok (drained, drainedSegments) =>
      let refreshed := drained.refreshAdvertisedWindow
      let answered :=
        if drainedSegments = 0 then refreshed.noteInboundPayload nowNanos
        else refreshed.requestAck
      .ok (answered, some (decide (payload.length ≠ 0) || decide (drainedSegments ≠ 0)))

/-- Moves a new segment forward past those it precedes, from the back of the queue.  The
queue is given back to front. -/
def sinkBack (segment : TcpOutOfOrderSegment) :
    List TcpOutOfOrderSegment → List TcpOutOfOrderSegment
  | [] => [segment]
  | last :: earlier =>
    if sequenceLt segment.sequence last.sequence then
      last :: sinkBack segment earlier
    else
      segment :: last :: earlier

/-- Holds a fragment aside in sequence order; the flag is false when there is no room. -/
def insertOutOfOrderFragment
    (payload : Bytes) : ReceiveSide × Bool :=
  if payload = [] then
    (self, true)
  else if self.outOfOrder.length ≥ maxTcpOutOfOrderSegments then
    (self, false)
  else
    ({ self with
        outOfOrder := (sinkBack ⟨sequence, payload⟩ self.outOfOrder.reverse).reverse
        outOfOrderQueuedBytes := self.outOfOrderQueuedBytes + payload.length }, true)

/-- A part of an arriving payload that no segment held aside covers. -/
structure Fragment where
  sequence : SequenceNumber
  start : Nat
  stop : Nat
  deriving DecidableEq, Repr

/-- `fragments.push`: `none` when the fixed-capacity list is full. -/
def pushFragment (fragments : List Fragment) (fragment : Fragment) : Option (List Fragment) :=
  if fragments.length < maxTcpOutOfOrderSegments then
    some (fragments ++ [fragment])
  else
    none

/-- Where the splitting of an arriving payload stands: everything before the cursor is
covered by a fragment or by a segment already held. -/
structure SplitCursor where
  sequence : SequenceNumber
  offset : Nat
  fragments : List Fragment

/-- The loop of `insert_out_of_order_payload` over the segments already held: it cuts
the arriving payload, which ends at `stop`, around them. -/
def splitLoop (stop : SequenceNumber) (payloadLen : Nat) :
    List TcpOutOfOrderSegment → SplitCursor → Option SplitCursor
  | [], cursor => some cursor
  | existing :: rest, cursor =>
    if sequenceLeq existing.endSequence cursor.sequence then
      splitLoop stop payloadLen rest cursor
    else if sequenceLeq stop existing.sequence then
      some cursor
    else
      let fragments :=
        if sequenceLt cursor.sequence existing.sequence then
          let fragmentLen := (existing.sequence - cursor.sequence).toNat
          pushFragment cursor.fragments
            ⟨cursor.sequence, cursor.offset, cursor.offset + fragmentLen⟩
        else
          some cursor.fragments
      match fragments with
      | none => none
      | some fragments =>
        if sequenceLeq stop existing.endSequence then
          some ⟨stop, payloadLen, fragments⟩
        else
          let skip := (existing.endSequence - cursor.sequence).toNat
          splitLoop stop payloadLen rest
            ⟨existing.endSequence, cursor.offset + skip, fragments⟩

/-- The fragments of an arriving payload that no segment held aside covers. -/
def splitPayload (held : List TcpOutOfOrderSegment) (sequence : SequenceNumber)
    (payload : Bytes) : Option (List Fragment) :=
  let stop := segmentEndFromParts sequence payload.length
  match splitLoop stop payload.length held ⟨sequence, 0, []⟩ with
  | none => none
  | some cursor =>
    if sequenceLt cursor.sequence stop then
      pushFragment cursor.fragments ⟨cursor.sequence, cursor.offset, payload.length⟩
    else
      some cursor.fragments

/-- Inserts the fragments one by one, stopping at the first there is no room for. -/
def insertFragments (payload : Bytes) :
    List Fragment → ReceiveSide → Except Panic (ReceiveSide × Bool)
  | [], self => .ok (self, true)
  | fragment :: rest, self =>
    match sliceBytes payload fragment.start fragment.stop with
    | .error panic => .error panic
    | .ok bytes =>
      match self.insertOutOfOrderFragment fragment.sequence bytes with
      | (self, false) => .ok (self, false)
      | (self, true) => insertFragments payload rest self

variable (payload : Bytes)

/-- Holds the new parts of a payload aside; the flag is false when a queue is full. -/
def insertOutOfOrderPayload : Except Panic (ReceiveSide × Bool) :=
  match splitPayload self.outOfOrder sequence payload with
  | none => .ok (self, false)
  | some fragments => insertFragments payload fragments self

/-- `receive_payload` for a payload that does not start before `receive_next`. -/
def receiveAligned (nowNanos : Nat) : Except Panic (ReceiveSide × Option Bool) :=
  if sequenceLeq (sequence + BitVec.ofNat 32 (satCast 32 payload.length)) self.receiveNext then
    .ok ((self.recordOldPayload sequence payload.length).requestDuplicateAck, some false)
  else if sequence = self.receiveNext then
    self.pushContiguousPayload payload nowNanos
  else
    match self.insertOutOfOrderPayload sequence payload with
    | .error panic => .error panic
    | .ok (self, false) => .ok (self, none)
    | .ok (self, true) =>
      .ok (self.refreshAdvertisedWindow.requestDuplicateAck, some false)

/-- Takes in a payload: `some readable`, or `none` when a queue had no room for it.  The
source trims what is old and calls itself on the rest, which starts at `receive_next`. -/
def receivePayload (nowNanos : Nat) : Except Panic (ReceiveSide × Option Bool) :=
  if sequenceLeq (sequence + BitVec.ofNat 32 (satCast 32 payload.length)) self.receiveNext then
    .ok ((self.recordOldPayload sequence payload.length).requestDuplicateAck, some false)
  else if sequenceLt sequence self.receiveNext then
    let trim := (self.receiveNext - sequence).toNat
    match sliceBytes payload trim payload.length with
    | .error panic => .error panic
    | .ok rest => self.receiveAligned self.receiveNext rest nowNanos
  else
    self.receiveAligned sequence payload nowNanos

end ReceiveSide

end Helios
