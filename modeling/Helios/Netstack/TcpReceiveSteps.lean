import Helios.Netstack.Receiver
import Helios.Netstack.TcpRun

/-!
# What the receiving half does

One lemma for each function of the receiving half: it does not abort, it keeps the byte
counts equal to what the queues hold, and what it does to the stream is one of a few
things.  Bytes go from an arriving segment to the in-order queue or aside; segments held
aside are dropped or released to the in-order queue; bytes leave that queue to a reader.
-/

namespace Helios

open Machine Serial Inbound TcpReceiveBuffer TcpSocket List Nat

namespace ReceiveSide

variable {receiveQueue : TcpReceiveQueue} {bytes : Bytes}

variable {r r' : ReceiveSide}

/-- The stream a receiving half holds. -/
def inbound (r : ReceiveSide) : Inbound :=
  { next := r.receiveNext
    queue := r.receiveQueue.bytes
    held := r.outOfOrder
    fin := r.receiveFinSequence }

/-- The byte counts are those of the in-order queue and of the given segments, and the
advertised window is a header field. -/
structure WfHolding (held : List TcpOutOfOrderSegment) (r : ReceiveSide) : Prop where
  queued_eq : r.receiveQueuedBytes = r.receiveQueue.bytes.length
  held_eq : r.outOfOrderQueuedBytes = (held.map fun segment => segment.payload.length).sum
  held_lt : ∀ segment ∈ held, segment.payload.length < maxTcpPayloadBytes
  window_le : r.advertisedWindow ≤ maxWord 16
  scale_le : r.localWindowScale ≤ tcpLocalWindowScale

/-- The byte counts are those of the queues. -/
def Wf (r : ReceiveSide) : Prop :=
  r.WfHolding r.outOfOrder

/-- A change of the receiving half that leaves the stream alone. -/
structure Keeps (r r' : ReceiveSide) : Prop where
  inbound_eq : r'.inbound = r.inbound
  wf : r.Wf → r'.Wf

theorem Keeps.refl (r : ReceiveSide) :
  Keeps r r
  := ⟨rfl, id⟩

theorem Keeps.trans {r'' : ReceiveSide} (h : Keeps r r') (h' : Keeps r' r'') :
  Keeps r r''
  := ⟨h'.inbound_eq.trans h.inbound_eq, fun hwf => h'.wf (h.wf hwf)⟩

theorem Keeps.of_acks {receiveCounters : TcpReceiveCounters} {lastAckSent : Option TcpAckSnapshot}
    {lastSegmentReceived : Option TcpSegmentSnapshot} {delayedAckDeadlineNanos : Option Nat}
    {pendingAcks unackedReceiveSegments quickackSegmentsRemaining pendingWindowUpdateBytes : Nat}
    {pendingAckReopensWindow : Bool} (h : Keeps r r') :
  Keeps r
    { r' with
      receiveCounters, lastAckSent, lastSegmentReceived, pendingAcks, delayedAckDeadlineNanos
      unackedReceiveSegments, quickackSegmentsRemaining, pendingWindowUpdateBytes
      pendingAckReopensWindow }
  := by
  refine ⟨h.inbound_eq, fun hwf => ?_⟩
  obtain ⟨hqueued, hheld, hlt, hwindow, hscale⟩ := h.wf hwf
  refine ⟨hqueued, hheld, hlt, hwindow, hscale⟩

section

variable (r : ReceiveSide)

theorem requestAck_keeps :
  Keeps r r.requestAck
  := .of_acks (.refl r)

theorem requestDuplicateAck_keeps :
  Keeps r r.requestDuplicateAck
  := .of_acks (.refl r)

theorem noteInboundPayload_keeps (nowNanos : Nat) :
  Keeps r (r.noteInboundPayload nowNanos)
  := by
  rw [noteInboundPayload]
  split
  · apply Keeps.of_acks (.refl r)
  · split <;> apply Keeps.of_acks (.refl r)

theorem recordOldPayload_keeps (sequence : SequenceNumber) (payloadLen : Nat) :
  Keeps r (r.recordOldPayload sequence payloadLen)
  := by
  rw [recordOldPayload]
  split
  · apply Keeps.refl
  · split
    · apply Keeps.of_acks (.refl r)
    · apply Keeps.refl

theorem refreshedWindow_le :
  r.refreshedWindow ≤ maxWord 16
  := by
  rw [refreshedWindow]
  split
  · apply Nat.max_le.mpr
    apply And.intro (Nat.min_le_right _ _) (Nat.min_le_right _ _)
  · apply Nat.min_le_right

theorem refreshAdvertisedWindow_keeps :
  Keeps r r.refreshAdvertisedWindow
  := by
  refine ⟨rfl, fun hwf => ?_⟩
  refine { hwf with window_le := r.refreshedWindow_le }

theorem shouldAdvertiseWindowUpdate_keeps (previousWindow : Nat) :
  Keeps r (r.shouldAdvertiseWindowUpdate previousWindow).1
  := by
  rw [shouldAdvertiseWindowUpdate]
  split
  · apply Keeps.refl
  · split
    · apply Keeps.refl
    · apply Keeps.of_acks (.refl r)

end

/-! ### The in-order queue -/

theorem WfHolding.with_queue {held : List TcpOutOfOrderSegment} {receiveQueuedBytes : Nat}
    (h : r.WfHolding held) (heq : receiveQueuedBytes = receiveQueue.bytes.length) :
  WfHolding held { r with receiveQueue, receiveQueuedBytes }
  := { h with queued_eq := heq }

/-- In-order data joins the queue, and nothing else of the stream changes. -/
structure Appends (r : ReceiveSide) (payload : Bytes) (r' : ReceiveSide) : Prop where
  inbound_eq : r'.inbound = { r.inbound with queue := r.inbound.queue ++ payload }
  wf : ∀ held, r.WfHolding held → r'.WfHolding held

theorem Appends.of_queue {payload : Bytes}
    (h : receiveQueue.bytes = r.receiveQueue.bytes ++ payload) :
  Appends r payload
    { r with receiveQueue, receiveQueuedBytes := r.receiveQueuedBytes + payload.length }
  := by
  constructor
  · simp only [inbound, h]
  · intro held hwf
    apply hwf.with_queue
    rw [h, length_append, hwf.queued_eq]

section

variable (r) (payload : Bytes)

theorem pushReceiveSegmentOwned_eq :
  r.receiveQueue.isFull = true ∧ r.pushReceiveSegmentOwned payload = none ∨
    ∃ r', r.pushReceiveSegmentOwned payload = some r' ∧ Appends r payload r'
  := by
  rw [pushReceiveSegmentOwned]
  obtain ⟨hfull, heq⟩ | ⟨-, queue, heq, hsegments⟩ := r.receiveQueue.pushBack_eq payload
  · left
    rw [heq]
    apply And.intro hfull rfl
  · right
    rw [heq]
    refine ⟨_, rfl, .of_queue ?_⟩
    simp [TcpReceiveQueue.bytes, hsegments]

theorem pushReceivePayload_eq :
  r.receiveQueue.isFull = true ∧ r.pushReceivePayload payload = none ∨
    ∃ r', r.pushReceivePayload payload = some r' ∧ Appends r payload r'
  := by
  rw [pushReceivePayload]
  split
  · rename_i hnil
    right
    refine ⟨_, rfl, ?_, fun _ hwf => hwf⟩
    rw [hnil, append_nil]
  · split
    · rename_i back hback
      split
      · right
        have hne : r.receiveQueue.segments ≠ [] := by
          intro hnil
          rw [TcpReceiveQueue.back_eq, hnil] at hback
          contradiction
        refine ⟨_, rfl, .of_queue ?_⟩
        rw [TcpReceiveQueue.bytes, TcpReceiveQueue.segments_extendBack,
          flatten_extendLast _ hne, TcpReceiveQueue.bytes]
      · apply r.pushReceiveSegmentOwned_eq payload
    · apply r.pushReceiveSegmentOwned_eq payload

end

/-- A read: the bytes leave the front of the in-order queue, and nothing else changes. -/
structure Reads (r : ReceiveSide) (bytes : Bytes) (r' : ReceiveSide) : Prop where
  frame : ∃ receiveQueue receiveQueuedBytes, r' = { r with receiveQueue, receiveQueuedBytes }
  queue_eq : r.receiveQueue.bytes = bytes ++ r'.receiveQueue.bytes
  wf : r'.Wf

namespace Reads

variable {r'' : ReceiveSide} {bytes bytes' : Bytes}

theorem nil (h : r.Wf) :
  Reads r [] r
  := ⟨⟨_, _, rfl⟩, rfl, h⟩

theorem trans (h : Reads r bytes r') (h' : Reads r' bytes' r'') :
  Reads r (bytes ++ bytes') r''
  := by
  obtain ⟨queue, queued, rfl⟩ := h.frame
  obtain ⟨queue', queued', rfl⟩ := h'.frame
  refine ⟨⟨queue', queued', rfl⟩, ?_, h'.wf⟩
  rw [h.queue_eq, h'.queue_eq, append_assoc]

theorem inbound_eq (h : Reads r bytes r') :
  r'.inbound = { r.inbound with queue := r'.receiveQueue.bytes }
  := by
  obtain ⟨queue, queued, rfl⟩ := h.frame
  rfl

end Reads

theorem popReceiveSegment_eq (h : r.Wf) :
  r.receiveQueue.segments = [] ∧ r.popReceiveSegment = .ok none ∨
    ∃ bytes r', r.popReceiveSegment = .ok (some (bytes, r')) ∧ Reads r bytes r' ∧
      r'.receiveQueue.isFull = false
  := by
  rw [popReceiveSegment]
  obtain ⟨hnil, heq⟩ | ⟨bytes, queue, heq, hsegments⟩ := r.receiveQueue.popFront_eq
  · left
    rw [heq]
    apply And.intro hnil rfl
  · right
    have hbytes : r.receiveQueue.bytes = bytes ++ queue.bytes := by
      simp [TcpReceiveQueue.bytes, hsegments]
    have hlength := congrArg length hbytes
    rw [length_append, ← h.queued_eq] at hlength
    have hle := r.receiveQueue.segments_length_le
    rw [hsegments, length_cons] at hle
    have hroom : queue.isFull = false := by
      rw [Bool.eq_false_iff, ne_eq, TcpReceiveQueue.isFull_iff]
      omega
    rw [heq]
    dsimp only
    rw [if_pos (by omega)]
    refine ⟨bytes, _, rfl, ⟨⟨_, _, rfl⟩, hbytes, h.with_queue (by omega)⟩, hroom⟩

theorem pushFrontReceiveSegment_eq {rest : Bytes} (h : Reads r (bytes ++ rest) r')
    (hroom : r'.receiveQueue.isFull = false) :
  ∃ r'', r'.pushFrontReceiveSegment rest = .ok r'' ∧ Reads r bytes r''
  := by
  rw [pushFrontReceiveSegment]
  obtain ⟨hfull, -⟩ | ⟨-, queue, heq, hsegments⟩ := r'.receiveQueue.pushFront_eq rest
  · rw [hfull] at hroom
    contradiction
  · rw [heq]
    have hbytes : queue.bytes = rest ++ r'.receiveQueue.bytes := by
      simp [TcpReceiveQueue.bytes, hsegments]
    obtain ⟨queue', queued', hframe⟩ := h.frame
    refine ⟨_, rfl, ⟨queue, _, by rw [hframe]⟩, ?_, h.wf.with_queue ?_⟩
    · rw [h.queue_eq, append_assoc, hbytes]
    · rw [hbytes, length_append, h.wf.queued_eq, add_comm]

theorem mergeLoop_eq (mergeLen fuel : Nat) (h : Reads r bytes r') :
  ∃ r'' bytes', mergeLoop mergeLen fuel r' bytes = .ok (r'', bytes') ∧
    Reads r bytes' r''
  := by
  induction fuel generalizing r' bytes with
  | zero => refine ⟨r', bytes, rfl, h⟩
  | succ fuel ih =>
    rw [mergeLoop]
    split
    · obtain ⟨-, heq⟩ | ⟨next, r₁, heq, hnext, hroom⟩ := popReceiveSegment_eq h.wf
      · rw [heq]
        refine ⟨r', bytes, rfl, h⟩
      · rw [heq]
        dsimp only
        split
        · have hsplit : Reads r ((bytes ++ next.take (mergeLen - bytes.length)) ++
              next.drop (mergeLen - bytes.length)) r₁ := by
            rw [append_assoc, take_append_drop]
            apply h.trans hnext
          obtain ⟨r₂, heq₂, hreads⟩ := pushFrontReceiveSegment_eq hsplit hroom
          rw [heq₂]
          refine ⟨r₂, _, rfl, hreads⟩
        · apply ih (h.trans hnext)
    · refine ⟨r', bytes, rfl, h⟩

theorem readQueue_eq (h : r.Wf) (maxBytes : Nat) :
  readQueue r maxBytes = .ok none ∨
    ∃ r' bytes, readQueue r maxBytes = .ok (some (r', bytes)) ∧ Reads r bytes r'
  := by
  rw [readQueue]
  obtain ⟨-, heq⟩ | ⟨bytes, r₁, heq, hreads, hroom⟩ := popReceiveSegment_eq h
  · left
    rw [heq]
  · right
    rw [heq]
    dsimp only
    split
    · split
      · rw [← take_append_drop maxBytes bytes] at hreads
        obtain ⟨r₂, heq₂, hreads₂⟩ := pushFrontReceiveSegment_eq hreads hroom
        rw [heq₂]
        refine ⟨r₂, _, rfl, hreads₂⟩
      · refine ⟨r₁, bytes, rfl, hreads⟩
    · split
      · refine ⟨r₁, bytes, rfl, hreads⟩
      · obtain ⟨r₂, bytes', heq₂, hreads₂⟩ := mergeLoop_eq
          (min (satAdd 64 bytes.length r₁.receiveQueuedBytes) maxBytes) r₁.receiveQueue.len hreads
        rw [heq₂]
        refine ⟨r₂, bytes', rfl, hreads₂⟩

end ReceiveSide

/-- A buffer that takes no more than it is given, and something of it while it has
room. -/
class LawfulReceiveBuffer (S : Type) [TcpReceiveBuffer S] : Prop where
  written_le (buffer : S) (bytes : Bytes) :
    (writeFrom buffer bytes).2 ≤ bytes.length
  written_pos (buffer : S) (bytes : Bytes) :
    remainingCapacity buffer ≠ 0 → bytes ≠ [] →
      (writeFrom buffer bytes).2 ≠ 0

instance : LawfulReceiveBuffer RegisteredTcpReadBuffer where
  written_le _ _ := Nat.min_le_left _ _
  written_pos buffer bytes hroom hne := by
    have hlength := length_pos_iff.mpr hne
    simp only [remainingCapacity, writeFrom] at hroom ⊢
    omega

namespace ReceiveSide

variable {r r' : ReceiveSide}

theorem sinkLoop_eq {S : Type} [TcpReceiveBuffer S] [LawfulReceiveBuffer S] (fuel : Nat)
    {progress : SinkProgress S} (h : Reads r progress.delivered progress.recv) :
  ∃ progress' found, sinkLoop fuel progress = .ok (progress', found) ∧
    Reads r progress'.delivered progress'.recv ∧ (found = false → progress'.delivered = [])
  := by
  induction fuel generalizing progress with
  | zero => refine ⟨progress, _, rfl, h, by simp⟩
  | succ fuel ih =>
    rw [sinkLoop]
    obtain ⟨-, heq⟩ | ⟨bytes, r₁, heq, hnext, hroom⟩ := popReceiveSegment_eq h.wf
    · rw [heq]
      refine ⟨progress, _, rfl, h, by simp⟩
    · rw [heq]
      have hle := LawfulReceiveBuffer.written_le progress.buffer bytes
      have hpos := LawfulReceiveBuffer.written_pos progress.buffer bytes
      have hsplit : Reads r ((progress.delivered ++
          bytes.take (writeFrom progress.buffer bytes).2) ++
            bytes.drop (writeFrom progress.buffer bytes).2) r₁ := by
        rw [append_assoc, take_append_drop]
        apply h.trans hnext
      dsimp only
      rw [if_neg (by omega), if_neg (by tauto)]
      split
      · obtain ⟨r₂, heq₂, hreads⟩ := pushFrontReceiveSegment_eq hsplit hroom
        rw [heq₂]
        refine ⟨_, _, rfl, hreads, by simp⟩
      · rw [drop_of_length_le (by omega), append_nil] at hsplit
        split
        · refine ⟨_, _, rfl, hsplit, by simp⟩
        · apply ih hsplit

end ReceiveSide

/-! ### Releasing what was held aside -/

namespace ReceiveSide

variable {held : List TcpOutOfOrderSegment} {segment : TcpOutOfOrderSegment}

variable {payload : Bytes} {sequence : SequenceNumber}

variable {r r' : ReceiveSide}

theorem satCast_length (h : payload.length < maxTcpPayloadBytes) :
  satCast 32 payload.length = payload.length
  := by
  apply satCast_eq
  apply le_of_lt (lt_trans h (by decide))

theorem takeOutOfOrderBytes_eq {rest : List TcpOutOfOrderSegment}
    (h : r.WfHolding (segment :: rest)) :
  ∃ r', r.takeOutOfOrderBytes segment.payload.length = .ok r' ∧ r'.inbound = r.inbound ∧
    r'.receiveQueue = r.receiveQueue ∧ r'.WfHolding rest
  := by
  have hsum := h.held_eq
  simp only [map_cons, sum_cons] at hsum
  rw [takeOutOfOrderBytes, if_pos (by omega)]
  refine ⟨_, rfl, rfl, rfl, h.queued_eq, ?_,
    fun held hmem => h.held_lt held (mem_cons_of_mem _ hmem), h.window_le, h.scale_le⟩
  simp only
  omega

theorem untrimmedPayload_eq (hlen : segment.payload.length < maxTcpPayloadBytes)
    (h : sequenceLeq segment.endSequence r.receiveNext = false) :
  r.untrimmedPayload segment =
    .ok (segment.payload.drop (staleLen r.receiveNext segment.sequence))
  := by
  have hmax : maxTcpPayloadBytes = 2 ^ 16 := rfl
  rw [TcpOutOfOrderSegment.endSequence, segmentEndFromParts_eq _ (by omega)] at h
  rw [untrimmedPayload, staleLen]
  split
  · rename_i hlt
    have hpos : 0 < segment.payload.length := by
      rw [sequenceLt_eq, lt_iff, ← le_iff] at hlt
      apply pos_of_ne_zero
      intro hzero
      rw [hzero, advance_zero, sequenceLeq_eq, hlt.2] at h
      contradiction
    have hstale := staleLen_lt hpos hlen h
    rw [staleLen, if_pos hlt] at hstale
    have hle : (r.receiveNext - segment.sequence).toNat ≤ segment.payload.length :=
      le_of_lt hstale
    rw [sliceBytes, if_pos ⟨hle, le_refl _⟩, take_of_length_le (by simp)]
    rfl
  · rw [drop_zero]

theorem WfHolding.with_next {receiveNext : SequenceNumber} (h : r.WfHolding held) :
  WfHolding held { r with receiveNext }
  := { h with }

theorem WfHolding.wf (h : r.WfHolding held) :
  Wf { r with outOfOrder := held }
  := { h with }

theorem drainLoop_eq {segments : List TcpOutOfOrderSegment} (drained : Nat)
    (h : r.WfHolding segments) :
  ∃ r' drained', drainLoop segments r drained = .ok (r', drained') ∧
    Drains { r.inbound with held := segments } r'.inbound ∧ r'.Wf
  := by
  induction segments generalizing r drained with
  | nil =>
    refine ⟨_, drained, rfl, .done ?_, h.wf⟩
    nofun
  | cons segment rest ih =>
    rw [drainLoop]
    split
    · rename_i hahead
      refine ⟨_, drained, rfl, .done ?_, h.wf⟩
      rintro _ _ ⟨⟩
      left
      apply hahead
    · rename_i hreached
      rw [Bool.not_eq_true] at hreached
      obtain ⟨r₁, htake, hinbound, hqueue, hwf₁⟩ := takeOutOfOrderBytes_eq h
      have hnext : r₁.receiveNext = r.receiveNext := congrArg next hinbound
      split
      · rename_i hold
        rw [htake]
        obtain ⟨r', drained', heq, hdrains, hwf⟩ := ih drained hwf₁
        refine ⟨r', drained', heq, ?_, hwf⟩
        rw [hinbound] at hdrains
        refine Drains.drop rfl hreached hold ?_
        apply hdrains
      · rename_i hnew
        rw [Bool.not_eq_true] at hnew
        split
        · refine ⟨_, drained, rfl, .done ?_, h.wf⟩
          rintro _ _ ⟨⟩
          right
          apply hnew
        · have hlen := h.held_lt segment mem_cons_self
          have hpayload := untrimmedPayload_eq (r := r₁) hlen (by rw [hnext]; apply hnew)
          rw [hnext] at hpayload
          rw [htake]
          dsimp only
          rw [hpayload]
          dsimp only
          obtain ⟨hfull, -⟩ | ⟨r₂, heq, happends⟩ := r₁.pushReceivePayload_eq
            (segment.payload.drop (staleLen r.receiveNext segment.sequence))
          · rw [hqueue] at hfull
            contradiction
          · rw [heq]
            obtain ⟨r', drained', heq', hdrains, hwf⟩ :=
              ih (drained + 1) (happends.wf rest hwf₁).with_next
            refine ⟨r', drained', heq', ?_, hwf⟩
            refine Drains.release rfl hreached hnew rfl ?_
            rw [satCast_length (by rw [length_drop]; omega)] at hdrains
            change Drains { r₂.inbound with next := advance r₂.inbound.next _, held := rest } _
              at hdrains
            rw [happends.inbound_eq, hinbound] at hdrains
            apply hdrains

theorem drainContiguousOutOfOrder_eq (h : r.Wf) :
  ∃ r' drained, r.drainContiguousOutOfOrder = .ok (r', drained) ∧
    Drains r.inbound r'.inbound ∧ r'.Wf
  := drainLoop_eq 0 h

/-- Data that starts at `receive_next` joins the in-order queue, with what it releases,
unless the queue is full. -/
theorem pushContiguousPayload_eq (payload : Bytes) (nowNanos : Nat) (h : r.Wf)
    (hlen : payload.length < maxTcpPayloadBytes) :
  ∃ r' readable, r.pushContiguousPayload payload nowNanos = .ok (r', readable) ∧ r'.Wf ∧
    (r'.inbound = r.inbound ∨
      Drains
        { r.inbound with
          next := advance r.receiveNext payload.length, queue := r.inbound.queue ++ payload }
        r'.inbound)
  := by
  rw [pushContiguousPayload]
  obtain ⟨-, heq⟩ | ⟨r₁, heq, happends⟩ := r.pushReceivePayload_eq payload
  · rw [heq]
    refine ⟨r, none, rfl, h, .inl rfl⟩
  · rw [heq]
    have hheld : r₁.outOfOrder = r.outOfOrder := congrArg held happends.inbound_eq
    have hwf₁ : WfHolding r₁.outOfOrder r₁ := by
      rw [hheld]
      apply happends.wf _ h
    dsimp only
    rw [satCast_length hlen]
    have hwf₁' : Wf { r₁ with
        receiveNext := r₁.receiveNext + BitVec.ofNat 32 payload.length } := hwf₁.with_next
    obtain ⟨r₂, drained, heq₂, hdrains, hwf₂⟩ := drainContiguousOutOfOrder_eq hwf₁'
    rw [heq₂]
    have hkeeps : Keeps r₂ (if drained = 0 then r₂.refreshAdvertisedWindow.noteInboundPayload nowNanos
        else r₂.refreshAdvertisedWindow.requestAck) := by
      split
      · apply r₂.refreshAdvertisedWindow_keeps.trans (noteInboundPayload_keeps _ nowNanos)
      · apply r₂.refreshAdvertisedWindow_keeps.trans (requestAck_keeps _)
    refine ⟨_, _, rfl, hkeeps.wf hwf₂, ?_⟩
    right
    rw [hkeeps.inbound_eq]
    change Drains { r₁.inbound with next := advance r₁.inbound.next payload.length } _ at hdrains
    rw [happends.inbound_eq] at hdrains
    apply hdrains

/-! ### Holding a segment aside -/

section

variable (hlen : payload.length < maxTcpPayloadBytes)
include hlen

theorem insertOutOfOrderFragment_eq {fragment : Fragment} (h : r.Wf)
    (hwithin : fragment.Within sequence payload.length) :
  r.insertOutOfOrderFragment fragment.sequence
      ((payload.drop fragment.start).take (fragment.stop - fragment.start)) = (r, false) ∨
    ∃ r', r.insertOutOfOrderFragment fragment.sequence
        ((payload.drop fragment.start).take (fragment.stop - fragment.start)) = (r', true) ∧
      r'.Wf ∧ r'.inbound =
        { r.inbound with held := holdFragment payload r.outOfOrder fragment }
  := by
  have hstart := hwithin.start_lt
  have hstop := hwithin.stop_le
  have hlength : ((payload.drop fragment.start).take (fragment.stop - fragment.start)).length =
      fragment.stop - fragment.start := by
    rw [length_take, length_drop]
    omega
  rw [insertOutOfOrderFragment, if_neg (by
    intro hnil
    rw [hnil, length_nil] at hlength
    omega)]
  split
  · left
    rfl
  · right
    refine ⟨_, rfl, ?_, rfl⟩
    have hperm := holdFragment_perm payload r.outOfOrder fragment
    refine { h with held_eq := ?_, held_lt := fun segment hmem => ?_ }
    · have hsum := (hperm.map fun segment => segment.payload.length).sum_eq
      simp only [map_cons, sum_cons] at hsum
      rw [← h.held_eq, add_comm] at hsum
      apply hsum.symm
    · obtain rfl | hmem := mem_cons.mp (hperm.mem_iff.mp hmem)
      · simp only [hlength]
        omega
      · apply h.held_lt segment hmem

theorem insertFragments_eq {fragments : List Fragment} (h : r.Wf)
    (hwithin : ∀ fragment ∈ fragments, fragment.Within sequence payload.length) :
  ∃ r' all k, insertFragments payload fragments r = .ok (r', all) ∧ r'.Wf ∧
    r'.inbound =
      { r.inbound with held := (fragments.take k).foldl (holdFragment payload) r.outOfOrder }
  := by
  induction fragments generalizing r with
  | nil => refine ⟨r, true, 0, rfl, h, rfl⟩
  | cons fragment rest ih =>
    obtain ⟨hfragment, hrest⟩ := forall_mem_cons.mp hwithin
    have hslice : sliceBytes payload fragment.start fragment.stop =
        .ok ((payload.drop fragment.start).take (fragment.stop - fragment.start)) := by
      rw [sliceBytes, if_pos ⟨le_of_lt hfragment.start_lt, hfragment.stop_le⟩]
    rw [insertFragments, hslice]
    dsimp only
    obtain heq | ⟨r₁, heq, hwf₁, hinbound₁⟩ := insertOutOfOrderFragment_eq hlen h hfragment
    · rw [heq]
      refine ⟨r, false, 0, rfl, h, rfl⟩
    · rw [heq]
      obtain ⟨r₂, all, k, heq₂, hwf₂, hinbound₂⟩ := ih hwf₁ hrest
      refine ⟨r₂, all, k + 1, heq₂, hwf₂, ?_⟩
      have hheld : r₁.outOfOrder = _ := congrArg held hinbound₁
      rw [hinbound₂, hinbound₁, hheld]
      rfl

/-! ### The arrival of a payload -/

theorem receiveAligned_next_eq (r : ReceiveSide) {nowNanos : Nat} (hpos : 0 < payload.length) :
  r.receiveAligned r.receiveNext payload nowNanos = r.pushContiguousPayload payload nowNanos
  := by
  have hmax : maxTcpPayloadBytes = 2 ^ 16 := rfl
  have hnew : sequenceLeq (advance r.receiveNext payload.length) r.receiveNext = false := by
    rw [sequenceLeq_eq, le_eq_false_iff, distance_advance _ (by omega)]
    omega
  rw [receiveAligned, satCast_length hlen, if_neg (by
    rw [Bool.not_eq_true]
    apply hnew), if_pos rfl]

theorem receivePayload_eq (sequence : SequenceNumber) (nowNanos : Nat) (h : r.Wf)
    (hpos : 0 < payload.length) :
  ∃ r' readable, r.receivePayload sequence payload nowNanos = .ok (r', readable) ∧ r'.Wf ∧
    (r'.inbound = r.inbound ∨ r.inbound.Arrives sequence payload r'.inbound)
  := by
  have hold := (r.recordOldPayload_keeps sequence payload.length).trans (requestDuplicateAck_keeps _)
  rw [receivePayload, satCast_length hlen]
  split
  · refine ⟨_, _, rfl, hold.wf h, .inl hold.inbound_eq⟩
  · rename_i hnew
    rw [Bool.not_eq_true] at hnew
    have hstale := staleLen_lt hpos hlen hnew
    split
    · -- the part before `receive_next` is cut off
      rename_i hbehind
      rw [staleLen, if_pos hbehind] at hstale
      have hslice : sliceBytes payload (r.receiveNext - sequence).toNat payload.length =
          .ok (payload.drop (distance sequence r.receiveNext)) := by
        rw [sliceBytes, if_pos ⟨le_of_lt hstale, le_refl _⟩,
          take_of_length_le (by simp)]
        rfl
      dsimp only
      rw [hslice]
      have hrest : (payload.drop (distance sequence r.receiveNext)).length =
          payload.length - distance sequence r.receiveNext := length_drop
      dsimp only
      rw [receiveAligned_next_eq (by omega) r (by omega)]
      obtain ⟨r', readable, heq, hwf, harrives⟩ := pushContiguousPayload_eq
        (payload.drop (distance sequence r.receiveNext)) nowNanos h (by omega)
      refine ⟨r', readable, heq, hwf, ?_⟩
      apply harrives.imp_right (Arrives.extended (advance_distance _ _) hstale)
    · rename_i hahead
      rw [Bool.not_eq_true] at hahead
      by_cases hnext : sequence = r.receiveNext
      · subst hnext
        rw [receiveAligned_next_eq hlen r hpos]
        obtain ⟨r', readable, heq, hwf, harrives⟩ := pushContiguousPayload_eq payload
          nowNanos h hlen
        refine ⟨r', readable, heq, hwf, ?_⟩
        obtain hsame | hdrains := harrives
        · left
          apply hsame
        · right
          refine Arrives.extended (n := 0) (advance_zero _) hpos ?_
          apply hdrains
      · rw [receiveAligned, satCast_length hlen, if_neg (by rw [Bool.not_eq_true]; apply hnew),
          if_neg hnext, insertOutOfOrderPayload]
        cases hsplit : splitPayload r.outOfOrder sequence payload with
        | none => refine ⟨r, none, rfl, h, .inl rfl⟩
        | some fragments =>
          obtain ⟨r', all, k, heq, hwf, hinbound⟩ := insertFragments_eq hlen h
            (splitPayload_within hpos hlen hsplit)
          dsimp only
          rw [heq]
          have harrives : r.inbound.Arrives sequence payload r'.inbound := by
            rw [hinbound]
            apply Arrives.aside hnext hahead hsplit
          cases all with
          | false => refine ⟨r', none, rfl, hwf, .inr harrives⟩
          | true =>
            have hkeeps := r'.refreshAdvertisedWindow_keeps.trans (requestDuplicateAck_keeps _)
            refine ⟨_, _, rfl, hkeeps.wf hwf, ?_⟩
            right
            apply harrives

end

/-- An acceptable segment that occupies sequence numbers has its first or its last one in
the window. -/
theorem inWindow_of_acceptable {len : Nat} (h : r.Wf) (hpos : 0 < len)
    (hacceptable : r.receiveSequenceAcceptable sequence len = true) :
  InWindow r.receiveNext sequence len
  := by
  have hwindow : r.localReceiveWindowBytes < 2 ^ 20 := by
    have hle := h.window_le
    have hscale := h.scale_le
    rw [localReceiveWindowBytes, shiftLeft_eq]
    calc r.advertisedWindow * 2 ^ r.localWindowScale
        ≤ maxWord 16 * 2 ^ tcpLocalWindowScale :=
          Nat.mul_le_mul hle (Nat.pow_le_pow_right (by decide) hscale)
      _ < 2 ^ 20 := by decide
  have hin (point : SequenceNumber)
      (hin : r.sequenceInReceiveWindow point r.localReceiveWindowBytes = true) :
      distance r.receiveNext point < 2 ^ 20 := by
    rw [sequenceInReceiveWindow, Bool.and_eq_true, sequenceLeq_eq, sequenceLt_eq, le_iff] at hin
    obtain ⟨hhalf, hlt⟩ := hin
    rw [← advance_distance r.receiveNext point] at hlt
    rw [show r.receiveNext + BitVec.ofNat 32 r.localReceiveWindowBytes =
      advance r.receiveNext r.localReceiveWindowBytes from rfl, lt_arc _ hhalf (by
        omega)] at hlt
    omega
  rw [receiveSequenceAcceptable, if_neg (by omega)] at hacceptable
  refine ⟨hpos, ?_⟩
  split at hacceptable
  · contradiction
  · apply ((Bool.or_eq_true _ _).mp hacceptable).imp (hin _) (hin _)

end ReceiveSide

end Helios
