import Helios.Netstack.SenderRuns
import Helios.Netstack.TcpRun

/-!
# The sending half of a socket is a sender

Every operation on a TCP socket takes its sending half through a few steps of a sender.
This module relates the two operation by operation; it also shows that the sending half
never aborts, as long as the acknowledgements it takes are safe.
-/

namespace Helios

open Machine Serial TcpTransmitQueue List

/-! ### The sender of a socket -/

/-- A segment in flight, by the part of the stream it carries. -/
def TcpInFlightSegment.flight (segment : TcpInFlightSegment) : Flight :=
  { sequence := segment.header.sequence
    payload := segment.payload
    len := segment.sequenceLen }

def TcpState.sendPhase : TcpState → SendPhase
  | .synSent | .synReceived => .opening
  | .established | .closeWait => .writable
  | _ => .finishing

/-- The sending half of a connection in the given phase, by what it holds. -/
def SendSide.sender {C : Type} (self : SendSide C) (phase : SendPhase) : Sender :=
  { phase
    next := self.sendNext
    unacknowledged := self.sendUnacknowledged
    flights := self.inFlight.map TcpInFlightSegment.flight
    queue := self.transmitQueue.bytes
    counted := self.bytesInFlight
    finSent := self.finQueued
    probe := self.persistProbe }

def TcpSocket.sender {C : Type} (self : TcpSocket C) : Sender :=
  self.send.sender self.state.sendPhase

namespace SendSide

variable {acknowledgement : SequenceNumber}

variable {C : Type} {send : SendSide C} {phase : SendPhase} {first : SequenceNumber}

theorem stop_flight (segment : TcpInFlightSegment) :
  segment.flight.stop = segmentEnd segment
  := rfl

theorem pushInFlight_eq (segment : TcpInFlightSegment)
    (h : send.inFlight.length < maxTcpInFlightSegments) :
  send.pushInFlight segment = .ok { send with inFlight := send.inFlight ++ [segment] }
  := by
  rw [pushInFlight, inFlightIsFull]
  simpa using h

/-! ### Acknowledgements -/

theorem trimAcked_eq {segment : TcpInFlightSegment} (hwf : segment.flight.Wf)
    (hstop : le segment.flight.stop acknowledgement = false)
    (hstart : lt segment.flight.sequence acknowledgement = true) :
  ∃ trimmed, trimAcked segment acknowledgement = .ok trimmed ∧
    trimmed.flight = segment.flight.trim acknowledgement
  := by
  obtain ⟨-, hlt⟩ := Flight.distance_lt_of_partial hwf hstop hstart
  have hlen := hwf.len_eq
  have hne := (Flight.trim_wf hwf hstop hstart).2
  rw [if_neg hne] at hlen
  have hle : (acknowledgement - segment.header.sequence).toNat ≤ segment.payload.length := by
    rw [hlen] at hlt
    apply Nat.le_of_lt hlt
  rw [trimAcked, if_neg (by apply hne), if_pos hle]
  refine ⟨_, rfl, rfl⟩

theorem discardAckedLoop_eq {segments : List TcpInFlightSegment}
    (acknowledgement : SequenceNumber)
    (hwf : ∀ flight ∈ segments.map TcpInFlightSegment.flight, flight.Wf) :
  ∃ rest, discardAckedLoop acknowledgement segments = .ok rest ∧
    rest.map TcpInFlightSegment.flight =
      Flight.discard acknowledgement (segments.map TcpInFlightSegment.flight)
  := by
  induction segments with
  | nil => refine ⟨[], rfl, rfl⟩
  | cons segment segments ih =>
    rw [map_cons, forall_mem_cons] at hwf
    rw [map_cons, discardAckedLoop, Flight.discard, sequenceLeq_eq, sequenceLt_eq, stop_flight]
    split
    · apply ih hwf.2
    · rename_i hstop
      split
      · rename_i hstart
        obtain ⟨trimmed, heq, hflight⟩ :=
          trimAcked_eq hwf.1 (by simpa [stop_flight] using hstop) hstart
        simp only [heq]
        refine ⟨_, rfl, ?_⟩
        rw [map_cons, hflight, if_pos (by apply hstart)]
      · rename_i hstart
        rw [if_neg (by apply hstart)]
        refine ⟨_, rfl, rfl⟩

/-- Settling the probe does what it does to the sender, and touches nothing else. -/
theorem discardAckedPersistProbe_eq (phase : SendPhase) (hprobe : ∀ probe, send.persistProbe =
      some probe → probe.fin = false → lt probe.sequence acknowledgement = true →
      probe.sequenceLen = 1 ∧ send.transmitQueue.bytes ≠ []) :
  ∃ sendNext transmitQueue finQueued persistProbe acked,
    send.discardAckedPersistProbe acknowledgement =
      .ok ({ send with sendNext, transmitQueue, finQueued, persistProbe }, acked) ∧
    { send with sendNext, transmitQueue, finQueued, persistProbe }.sender phase =
      (send.sender phase).settleProbe acknowledgement
  := by
  rw [discardAckedPersistProbe, Sender.settleProbe]
  cases hsome : send.persistProbe with
  | none =>
    simp only [sender, hsome]
    refine ⟨send.sendNext, send.transmitQueue, send.finQueued, none, 0, ?_, rfl⟩
    rw [← hsome]
  | some probe =>
    simp only [sender, hsome]
    rw [sequenceLt_eq]
    cases hlt : lt probe.sequence acknowledgement with
    | false =>
      simp only [Bool.false_eq_true, if_false]
      refine ⟨send.sendNext, send.transmitQueue, send.finQueued, some probe, 0, ?_, rfl⟩
      rw [← hsome]
    | true =>
      cases hfin : probe.fin with
      | true =>
        cases hsent : send.finQueued with
        | true => refine ⟨send.sendNext, send.transmitQueue, true, none, _, rfl, rfl⟩
        | false => refine ⟨send.sendNext + 1, send.transmitQueue, true, none, _, rfl, rfl⟩
      | false =>
        obtain ⟨hlen, hqueue⟩ := hprobe probe hsome hfin hlt
        rw [lt_iff] at hlt
        have hacked : min (acknowledgement - probe.sequence).toNat probe.sequenceLen = 1 := by
          have hpos : 0 < (acknowledgement - probe.sequence).toNat := hlt.1
          omega
        obtain ⟨transmitQueue, hdiscard, hbytes⟩ :=
          discardFrontBytes_eq Nat.one_pos (length_pos_iff.mpr hqueue)
        simp only [hacked, hdiscard]
        refine ⟨_, transmitQueue, send.finQueued, none, 1, rfl, ?_⟩
        have hacked' : min (distance probe.sequence acknowledgement) probe.sequenceLen = 1 := hacked
        simp only [hbytes, hacked']
        rfl

theorem ackedBytes_eq (phase : SendPhase) (acknowledgement : SequenceNumber) :
  send.ackedBytes acknowledgement = (send.sender phase).ackedBytes acknowledgement
  := by
  simp only [ackedBytes, sequenceLeq_eq]
  rfl

/-- An acknowledgement that advances does to the sending half what it does to the
sender. -/
theorem settleAck_eq (rttNanos : Nat) (hinv : Sender.Inv first (send.sender phase))
    (hsafe : (send.sender phase).AckSafe acknowledgement) :
  ∃ send', send.settleAck acknowledgement rttNanos = .ok send' ∧
    send'.sender (if phase = .opening then .writable else phase) =
      (send.sender phase).settle acknowledgement ∧
    send'.peerMaxSegmentSize = send.peerMaxSegmentSize
  := by
  rw [settleAck]
  have hprobe : ∀ probe, (send.noteAdvance acknowledgement rttNanos).persistProbe = some probe →
      probe.fin = false → lt probe.sequence acknowledgement = true →
      probe.sequenceLen = 1 ∧ send.transmitQueue.bytes ≠ [] := by
    intro probe hsome hfin hlt
    apply And.intro (hinv.probe probe hsome).sequenceLen_eq
    apply hinv.queue_ne_nil hsafe hsome hfin hlt
  obtain ⟨sendNext, transmitQueue, finQueued, persistProbe, acked, heq, hsender⟩ :=
    discardAckedPersistProbe_eq phase hprobe
  obtain ⟨inFlight, hdiscard, hflights⟩ := discardAckedLoop_eq acknowledgement hinv.wf
  simp only [heq, discardAckedSegments]
  rw [show (send.noteAdvance acknowledgement rttNanos).inFlight = send.inFlight from rfl, hdiscard]
  refine ⟨_, rfl, ?_, rfl⟩
  -- the probe is settled after the acknowledgement point moved, which it does not read
  have hsettled := Sender.settleProbe_unacknowledged (send.sender phase) acknowledgement
    acknowledgement
  have hsender' := hsender.trans hsettled
  simp only [Sender.settle, sender, Sender.mk.injEq, hflights, ackedBytes_eq phase, true_and]
  simp only [sender, Sender.mk.injEq] at hsender'
  obtain ⟨-, hnext, -, -, hqueue, -, hfin, hprobe'⟩ := hsender'
  refine ⟨rfl, hnext, rfl, hqueue, rfl, hfin, hprobe'⟩

/-! ### Sending -/

variable [CongestionControl C]

theorem noteInFlight_bytesInFlight {len : Nat} (nowNanos : Nat)
    (h : send.bytesInFlight + len ≤ maxWord 32) :
  (send.noteInFlight len nowNanos).bytesInFlight = send.bytesInFlight + len
  := satAdd_eq h

/-- What recording a burst does: the segments it is cut into go in flight behind the
others, `send_next` moves past them, and the count of bytes in flight grows by its
length. -/
theorem recordBurst_eq (send : SendSide C) (header : TcpHeader) (options : TcpHeaderOptions)
    (nowNanos : Nat) (sequence : SequenceNumber) {maximumSegment fuel : Nat} {payload : Bytes}
    (hmax : 0 < maximumSegment)
    (hle : maximumSegment ≤ tcpReceiveSegmentBytes) (hfuel : payload.length ≤ fuel)
    (hroom : payload.length ≤ maximumSegment * (maxTcpInFlightSegments - send.inFlight.length)) :
  ∃ congestion bytesInFlight segments,
    send.recordBurst header options maximumSegment nowNanos fuel payload sequence =
      .ok { send with
        sendNext := advance send.sendNext payload.length
        bytesInFlight
        congestion
        inFlight := send.inFlight ++ segments } ∧
    Sender.BurstOf sequence payload (segments.map TcpInFlightSegment.flight) ∧
    segments.length ≤ maxTcpInFlightSegments - send.inFlight.length ∧
    (send.bytesInFlight + payload.length ≤ maxWord 32 →
      bytesInFlight = send.bytesInFlight + payload.length)
  := by
  induction fuel generalizing payload sequence send with
  | zero =>
    have hnil : payload = [] := by simpa using hfuel
    subst hnil
    refine ⟨send.congestion, send.bytesInFlight, [], ?_, .nil sequence, by simp, by simp⟩
    simp [recordBurst]
  | succ fuel ih =>
    by_cases hnil : payload = []
    · subst hnil
      refine ⟨send.congestion, send.bytesInFlight, [], ?_, .nil sequence, by simp, by simp⟩
      simp [recordBurst]
    · have hpos : 0 < payload.length := length_pos_iff.mpr hnil
      have hnotFull : send.inFlight.length < maxTcpInFlightSegments := by
        by_contra hfull
        rw [Nat.sub_eq_zero_of_le (by omega)] at hroom
        omega
      rw [recordBurst, if_neg hnil]
      generalize hchunk : min maximumSegment payload.length = chunkLen
      have hchunk_pos : 0 < chunkLen := by omega
      simp only
      rw [pushInFlight_eq _
        (show (send.noteSent chunkLen nowNanos).inFlight.length < _ from hnotFull)]
      simp only
      generalize hsent : TcpInFlightSegment.sent { header with sequence } options
        (payload.take chunkLen) chunkLen nowNanos = sent
      obtain ⟨congestion, bytesInFlight, segments, heq, hburst, hlength, hbytes⟩ :=
        @ih { send.noteSent chunkLen nowNanos with inFlight := send.inFlight ++ [sent] }
          (sequence + BitVec.ofNat 32 chunkLen) (payload.drop chunkLen)
          (by rw [length_drop]; omega)
          (by
            simp only [length_drop, length_append, length_singleton]
            obtain hchunk' | hchunk' := Nat.le_total maximumSegment payload.length
            · have hsub : maxTcpInFlightSegments - (send.inFlight.length + 1) + 1 =
                  maxTcpInFlightSegments - send.inFlight.length := by omega
              rw [← hsub, Nat.mul_succ] at hroom
              omega
            · have hzero : payload.length - chunkLen = 0 := by omega
              rw [hzero]
              apply Nat.zero_le)
      simp only [length_append, length_singleton] at hlength
      refine ⟨congestion, bytesInFlight, sent :: segments, ?_, ?_, ?_, ?_⟩
      · rw [show (send.noteSent chunkLen nowNanos).inFlight = send.inFlight from rfl, heq]
        simp only [noteSent, noteInFlight, advance, length_drop, append_assoc,
          singleton_append, Except.ok.injEq, SendSide.mk.injEq, true_and, and_true]
        rw [BitVec.add_assoc, ← BitVec.ofNat_add]
        congr 2
        omega
      · subst hsent
        apply hburst.cons hchunk_pos (by omega) (by omega)
      · simp only [length_cons]
        omega
      · intro hsum
        have hsent_bytes : (send.noteSent chunkLen nowNanos).bytesInFlight =
            send.bytesInFlight + chunkLen := noteInFlight_bytesInFlight nowNanos (by omega)
        simp only [length_drop] at hbytes
        omega

omit [CongestionControl C] in
/-- What taking from the front of the transmit queue does: it returns a piece of at most
`limit` bytes and leaves the rest, or nothing when the queue is empty. -/
theorem takeFront_eq (send : SendSide C) {limit : Nat} (hlimit : 0 < limit) :
  (send.transmitQueue.bytes = [] ∧ send.takeFront limit = .ok none) ∨
    ∃ payload transmitQueue,
      send.takeFront limit = .ok (some (payload, { send with transmitQueue })) ∧
      payload ≠ [] ∧ payload.length ≤ limit ∧
      send.transmitQueue.bytes = payload ++ transmitQueue.bytes
  := by
  rw [takeFront]
  obtain ⟨hnil, hpop⟩ | ⟨chunk, queue, hpop, hchunks⟩ := send.transmitQueue.popFront_eq
  · simp [hpop, bytes, hnil]
  · right
    have hchunk : chunk ≠ [] := by
      apply send.transmitQueue.wf.chunk_ne_nil
      change chunk ∈ send.transmitQueue.chunks
      simp [hchunks]
    simp only [hpop]
    split
    · rename_i hlong
      have hne : chunk.drop limit ≠ [] := by simpa using hlong
      obtain ⟨hroom, -⟩ | ⟨queue', hpush, hchunks'⟩ := queue.pushFront_eq hne
      · rw [accepts_of_popFront hchunks (by simp; omega) (by simp)] at hroom
        contradiction
      · simp only [hpush]
        refine ⟨_, _, rfl, ?_, by simp, ?_⟩
        · simp only [ne_eq, take_eq_nil_iff, not_or]
          apply And.intro (by omega) hchunk
        · simp [bytes, hchunks, hchunks', ← append_assoc]
    · refine ⟨_, _, rfl, hchunk, by omega, ?_⟩
      simp [bytes, hchunks]

end SendSide

end Helios
