import Helios.Netstack.TcpSendSteps

/-!
# What a socket sends is what its sender sends

Taking the next segment to transmit, retransmitting, writing, and the segments of the
handshake, as steps of the sender.
-/

namespace Helios

open Machine Serial TcpInFlightSegment Sender List TcpTransmitQueue

namespace TcpSocket

variable {tcpSegmentMtu : Nat}

variable {nowNanos available : Nat} {budget : TcpSegmentBudget}

variable {C : Type} {s : TcpSocket C} {first : SequenceNumber}

/-- What else the sending half of a socket keeps: a usable segment size, and nothing in
flight before the SYN is sent. -/
structure SendWf (s : TcpSocket C) : Prop where
  mss_pos : 0 < s.send.peerMaxSegmentSize
  mss_le : s.send.peerMaxSegmentSize ≤ tcpReceiveSegmentBytes
  syn_unsent : s.state = .synSent → s.send.synQueued = false → s.send.inFlight = []
  synAck_unsent : s.state = .synReceived → s.send.synAckQueued = false → s.send.inFlight = []

variable {s' : TcpSocket C}

theorem SendWf.of_not_opening (h : s.SendWf) (hstate : s'.state.sendPhase ≠ .opening)
    (hmss : s'.send.peerMaxSegmentSize = s.send.peerMaxSegmentSize) :
  s'.SendWf
  := by
  constructor
  · rw [hmss]
    apply h.mss_pos
  · rw [hmss]
    apply h.mss_le
  · intro hsynSent
    simp [hsynSent, TcpState.sendPhase] at hstate
  · intro hsynReceived
    simp [hsynReceived, TcpState.sendPhase] at hstate

/-! ### Writing -/

/-- Writing appends what was accepted, and only a socket that is open for sending accepts
anything. -/
theorem queueSendBytes_eq (s : TcpSocket C) (bytes : Bytes) :
  s.queueSendBytes bytes = .ok (s, 0) ∨
    ∃ transmitQueue n, s.queueSendBytes bytes =
        .ok ({ s with send := { s.send with transmitQueue } }, n) ∧
      n ≤ bytes.length ∧ s.state.sendPhase = .writable ∧
      transmitQueue.bytes = s.send.transmitQueue.bytes ++ bytes.take n
  := by
  rw [queueSendBytes]
  split
  · left
    rfl
  · simp only
    split
    · left
      rfl
    · right
      generalize hn : min bytes.length s.send.transmitQueue.remainingBytesCapacity = n at *
      have hlength : (bytes.take n).length = n := by
        rw [length_take]
        omega
      have hne : bytes.take n ≠ [] := by
        rw [← length_pos_iff]
        omega
      have hphase : s.state.sendPhase = .writable := by
        cases hs : s.state <;> simp_all [TcpState.sendPhase]
      obtain ⟨hroom, -⟩ | ⟨transmitQueue, hpush, hchunks⟩ :=
        s.send.transmitQueue.pushBack_eq hne
      · -- the remaining capacity is positive only while the queue is not full
        rw [TcpTransmitQueue.accepts, TcpTransmitQueue.isFull] at hroom
        simp only [TcpTransmitQueue.remainingBytesCapacity] at hn hroom
        split at hn
        · omega
        · rename_i hnotFull
          simp only [hnotFull, decide_false, Bool.false_or, if_false, Bool.not_eq_false',
            Bool.or_eq_true, decide_eq_true_eq] at hroom
          omega
      · simp only [hpush]
        refine ⟨transmitQueue, n, rfl, by omega, hphase, ?_⟩
        simp [TcpTransmitQueue.bytes, hchunks]

/-! ### The persist timer -/

theorem armPersistTimerIfNeeded_eq (s : TcpSocket C) (nowNanos : Nat) :
  ∃ persistTimer, s.armPersistTimerIfNeeded nowNanos =
    { s with send := { s.send with persistTimer } }
  := by
  rw [armPersistTimerIfNeeded]
  split
  · refine ⟨_, rfl⟩
  · split
    · refine ⟨_, rfl⟩
    · use s.send.persistTimer

/-- The probe that is due asks about the first queued byte, or carries the FIN behind an
empty queue. -/
theorem pendingPersistProbe_eq {probe : TcpPersistProbe}
    (h : s.pendingPersistProbe nowNanos = some probe) :
  s.send.transmitQueue.isEmpty = false ∧ probe = ⟨s.send.sendNext, 1, false⟩ ∨
    s.send.transmitQueue.isEmpty = true ∧ probe = ⟨s.send.sendNext, 1, true⟩
  := by
  rw [pendingPersistProbe] at h
  repeat' split at h
  all_goals cases h
  · apply Or.inl ⟨‹_›, rfl⟩
  · rename_i hqueue _
    apply Or.inr ⟨by simpa using hqueue, rfl⟩

/-- After an acknowledgement the probe is forgotten when the window is open, and
otherwise at most the timer changes. -/
theorem refreshPersistAfterAck_eq (s : TcpSocket C) (nowNanos : Nat) :
  (∃ persistTimer, s.refreshPersistAfterAck nowNanos =
      { s with send := { s.send with persistTimer, persistProbe := none } }) ∨
    ∃ persistTimer, s.refreshPersistAfterAck nowNanos =
      { s with send := { s.send with persistTimer } }
  := by
  rw [refreshPersistAfterAck]
  split
  · left
    use none
  · right
    apply armPersistTimerIfNeeded_eq

/-! ### Taking a segment -/

/-- What taking a segment may do: nothing that the sender sees, or one step that emits
it. -/
structure Sends (s s' : TcpSocket C) (segment : Option TcpTransmitSegment) : Prop where
  state_eq : s'.state = s.state
  sendWf : s.SendWf → s'.SendWf
  sender : segment = none ∧ s'.sender = s.sender ∨
    ∃ sent, segment = some sent ∧ ∀ safe, Step safe s.sender
      (.emitted sent.header.sequence sent.payload) s'.sender

/-- A socket whose sending half changed only in its persist timer sent nothing. -/
theorem Sends.none_of_timer (persistTimer : Option TcpPersistTimer) :
  Sends s { s with send := { s.send with persistTimer } } none
  := by
  constructor
  · rfl
  · intro h
    refine { h with }
  · left
    apply And.intro rfl rfl

/-- The limits of a segment taken from the queue: it is never empty, never longer than
the peer's segment size, and a burst fits into the room in flight. -/
theorem segmentLimits_eq {maximumSegment burstLimit tcpHeaderLen : Nat} {isPersistProbe : Bool}
    (hwf : s.SendWf) (havailable : available ≠ 0) (h : s.segmentLimits available budget
      isPersistProbe tcpHeaderLen = some (maximumSegment, burstLimit)) :
  0 < maximumSegment ∧ maximumSegment ≤ tcpReceiveSegmentBytes ∧ 0 < burstLimit ∧
    (s.send.inFlight.length < maxTcpInFlightSegments →
      burstLimit ≤ maximumSegment * (maxTcpInFlightSegments - s.send.inFlight.length))
  := by
  have hpos := hwf.mss_pos
  have hle := hwf.mss_le
  rw [segmentLimits] at h
  split at h
  · contradiction
  · simp only at h
    generalize hmax : min (min available s.send.peerMaxSegmentSize)
      (budget.wireSegment - tcpHeaderLen) = maximum at h
    have hmax_pos : 0 < maximum := by omega
    have hroom (hnotFull : s.send.inFlight.length < maxTcpInFlightSegments) :
        maximum ≤ maximum * (maxTcpInFlightSegments - s.send.inFlight.length) :=
      Nat.le_mul_of_pos_right _ (by omega)
    have hsat : satMul 64 maximum (maxTcpInFlightSegments - s.send.inFlight.length) ≤
        maximum * (maxTcpInFlightSegments - s.send.inFlight.length) := Nat.min_le_left _ _
    split at h
    all_goals
      split at h
      · contradiction
      · rename_i hburst
        obtain ⟨rfl, rfl⟩ := Prod.mk.inj (Option.some.inj h)
        omega

section Take

variable {persistProbe : Option TcpPersistProbe}

variable [CongestionControl C] {localEndpoint remoteEndpoint : TcpEndpoint}
  {maximumSegment burstLimit nowNanos : Nat}

omit [CongestionControl C] in
theorem takeProbeSegment_eq (hqueue : s.send.transmitQueue.isEmpty = false) :
  ∃ s' sent, s.takeProbeSegment localEndpoint remoteEndpoint ⟨s.send.sendNext, 1, false⟩
      maximumSegment nowNanos = some (s', sent) ∧ Sends s s' (some sent)
  := by
  have hbytes : s.send.transmitQueue.bytes ≠ [] := by
    intro hnil
    rw [← isEmpty_iff_bytes, hqueue] at hnil
    contradiction
  rw [takeProbeSegment]
  cases hfront : s.send.transmitQueue.front with
  | none =>
    rw [front_eq_head] at hfront
    simp [TcpTransmitQueue.bytes, head?_eq_none_iff.mp hfront] at hbytes
  | some chunk =>
    rw [front_eq_head] at hfront
    obtain ⟨rest, hchunks⟩ := head?_eq_some_iff.mp hfront
    have hchunk : chunk ≠ [] := by
      apply s.send.transmitQueue.wf.chunk_ne_nil
      change chunk ∈ s.send.transmitQueue.chunks
      simp [hchunks]
    have hpos := length_pos_iff.mpr hchunk
    -- the probe carries the first byte of the queue
    have htake : chunk.take 1 = s.send.transmitQueue.bytes.take 1 := by
      rw [TcpTransmitQueue.bytes, hchunks, flatten_cons,
        take_append_of_le_length (by omega)]
    have hlen : satCast 32 (chunk.take 1).length = 1 := by
      rw [length_take, Nat.min_eq_left (by omega)]
      rfl
    simp only [dataSegment, hlen]
    refine ⟨_, _, rfl, rfl, ?_, ?_⟩
    · intro h
      refine { h with }
    · right
      refine ⟨_, rfl, fun safe => ?_⟩
      simp only [htake]
      apply Step.probeData hbytes

/-- A burst from the front of the queue, or nothing when the queue is empty. -/
theorem takeQueuedSegment_eq (hmax : 0 < maximumSegment)
    (hle : maximumSegment ≤ tcpReceiveSegmentBytes) (hburst : 0 < burstLimit)
    (hfin : s.send.finQueued = false) (hphase : s.state.sendPhase ≠ .opening)
    (hroom : s.send.transmitQueue.bytes ≠ [] →
      s.send.inFlight.length < maxTcpInFlightSegments ∧
        burstLimit ≤ maximumSegment * (maxTcpInFlightSegments - s.send.inFlight.length)) :
  s.takeQueuedSegment localEndpoint remoteEndpoint maximumSegment burstLimit nowNanos = .ok none ∨
    ∃ s' sent, s.takeQueuedSegment localEndpoint remoteEndpoint maximumSegment burstLimit
        nowNanos = .ok (some (s', sent)) ∧ Sends s s' (some sent)
  := by
  rw [takeQueuedSegment]
  obtain ⟨-, htake⟩ | ⟨payload, transmitQueue, htake, hne, hlength, hbytes⟩ :=
    s.send.takeFront_eq hburst
  · left
    simp only [htake]
  · right
    obtain ⟨hnotFull, hroom⟩ := hroom (by simp [hbytes, hne])
    simp only [htake]
    generalize hsegment : s.dataSegment localEndpoint remoteEndpoint s.send.sendNext payload
      maximumSegment nowNanos = segment
    obtain ⟨congestion, bytesInFlight, segments, heq, hburst, hsegments, hcounted⟩ :=
      SendSide.recordBurst_eq { s.send with transmitQueue } segment.header segment.options nowNanos
        s.send.sendNext hmax hle (Nat.le_refl payload.length) (Nat.le_trans hlength hroom)
    simp only [heq]
    refine ⟨_, _, rfl, rfl, ?_, ?_⟩
    · intro h
      refine h.of_not_opening hphase rfl
    · right
      refine ⟨_, rfl, fun safe => ?_⟩
      subst hsegment
      simp only [sender, SendSide.sender, SendSide.scheduleNextPacingSend, map_append]
      apply Step.sendData hfin hne hbytes hburst _ hcounted
      have hsegments' : segments.length ≤ maxTcpInFlightSegments - s.send.inFlight.length :=
        hsegments
      simp only [length_map]
      omega

theorem takeDataSegment_eq (hwf : s.SendWf) (havailable : available ≠ 0)
    (hfin : s.send.finQueued = false) (hphase : s.state.sendPhase ≠ .opening) (hprobe : ∀ probe,
      persistProbe = some probe → s.send.transmitQueue.isEmpty = false ∧ probe = ⟨s.send.sendNext,
      1, false⟩ ∨ s.send.transmitQueue.isEmpty = true ∧ probe = ⟨s.send.sendNext, 1, true⟩)
    (hroom : persistProbe = none → s.send.inFlight.length < maxTcpInFlightSegments) :
  s.takeDataSegment localEndpoint remoteEndpoint available budget nowNanos persistProbe =
      .ok none ∨
    ∃ s' sent, s.takeDataSegment localEndpoint remoteEndpoint available budget nowNanos
      persistProbe = .ok (some (s', sent)) ∧ Sends s s' (some sent)
  := by
  rw [takeDataSegment]
  simp only
  split
  · left
    rfl
  · split
    · left
      rfl
    · rename_i maximumSegment burstLimit hlimits
      obtain ⟨hmax, hle, hburst, hlimit⟩ := segmentLimits_eq hwf havailable hlimits
      split
      · rename_i probe hfilter
        obtain ⟨hsome, hnotFin⟩ := Option.filter_eq_some_iff.mp hfilter
        right
        obtain ⟨hqueue, rfl⟩ | ⟨-, rfl⟩ := hprobe probe hsome
        · obtain ⟨s', sent, heq, hsends⟩ := takeProbeSegment_eq (s := s) hqueue
          refine ⟨s', sent, ?_, hsends⟩
          rw [heq]
        · simp at hnotFin
      · rename_i hfilter
        obtain heq | ⟨s', sent, heq, hsends⟩ :=
          takeQueuedSegment_eq (s := s) hmax hle hburst hfin hphase fun hne => by
            -- without a probe there is room; a FIN probe is due only behind an empty queue
            have hnone : persistProbe = none := by
              cases hsome : persistProbe with
              | none => rfl
              | some probe =>
                obtain ⟨-, rfl⟩ | ⟨hempty, -⟩ := hprobe probe hsome
                · simp [hsome] at hfilter
                · rw [isEmpty_iff_bytes] at hempty
                  contradiction
            apply And.intro (hroom hnone) (hlimit (hroom hnone))
        · left
          apply heq
        · right
          refine ⟨s', sent, heq, hsends⟩

theorem takeFinSegment_eq (hphase : s.state.sendPhase = .finishing)
    (hfin : s.send.finQueued = false) (hqueue : s.send.transmitQueue.bytes = [])
    (hroom : s.send.inFlight.length < maxTcpInFlightSegments) :
  ∃ s' sent, s.takeFinSegment localEndpoint remoteEndpoint nowNanos false s.send.sendNext =
      .ok (s', sent) ∧ Sends s s' (some sent)
  := by
  rw [takeFinSegment]
  simp only [recordFin]
  rw [SendSide.pushInFlight_eq _ (by apply hroom)]
  refine ⟨_, _, rfl, rfl, ?_, ?_⟩
  · intro h
    refine h.of_not_opening (by simp [hphase]) rfl
  · right
    refine ⟨_, rfl, fun safe => ?_⟩
    simp only [sender, SendSide.sender, map_append]
    apply Step.sendFin hphase hfin hqueue
    simpa using hroom

omit [CongestionControl C] in
theorem finPending_iff :
  s.finPending = true ↔
    (s.state = .finWait1 ∨ s.state = .lastAck) ∧ s.send.finQueued = false
  := by
  simp [finPending]

theorem takeFinIfDue_eq (hprobe : ∀ probe, persistProbe = some probe →
      s.send.transmitQueue.isEmpty = false ∨ probe = ⟨s.send.sendNext, 1, true⟩)
    (hroom : persistProbe = none → s.send.inFlight.length < maxTcpInFlightSegments) :
  ∃ s' segment, s.takeFinIfDue localEndpoint remoteEndpoint nowNanos persistProbe =
    .ok (s', segment) ∧ Sends s s' segment
  := by
  rw [takeFinIfDue]
  split
  · refine ⟨s, none, rfl, Sends.none_of_timer s.send.persistTimer⟩
  · rename_i hdue
    obtain ⟨hempty, hpending⟩ := not_or.mp hdue
    rw [Bool.not_eq_false] at hempty hpending
    have hqueue := (isEmpty_iff_bytes _).mp hempty
    obtain ⟨hstate, hfin⟩ := finPending_iff.mp hpending
    have hphase : s.state.sendPhase = .finishing := by
      obtain hstate | hstate := hstate <;> rw [hstate] <;> rfl
    split
    · rename_i probe hfilter
      obtain ⟨hsome, -⟩ := Option.filter_eq_some_iff.mp hfilter
      obtain hnotEmpty | rfl := hprobe probe hsome
      · rw [hempty] at hnotEmpty
        contradiction
      · refine ⟨_, _, rfl, rfl, ?_, ?_⟩
        · intro h
          refine h.of_not_opening (by simp [hphase]) rfl
        · right
          refine ⟨_, rfl, fun safe => ?_⟩
          apply Step.probeFin hphase hfin hqueue
    · rename_i hfilter
      split
      · obtain ⟨persistTimer, heq⟩ := s.armPersistTimerIfNeeded_eq nowNanos
        refine ⟨_, none, rfl, ?_⟩
        rw [heq]
        apply Sends.none_of_timer
      · have hnone : persistProbe = none := by
          cases hsome : persistProbe with
          | none => rfl
          | some probe =>
            obtain hnotEmpty | rfl := hprobe probe hsome
            · rw [hempty] at hnotEmpty
              contradiction
            · simp [hsome] at hfilter
        obtain ⟨s', sent, heq, hsends⟩ := takeFinSegment_eq (s := s) hphase hfin hqueue (hroom hnone)
        refine ⟨s', some sent, ?_, hsends⟩
        rw [heq]
        rfl

theorem takeDataOrFin_eq (hwf : s.SendWf) (havailable : available ≠ 0) (hroom :
      s.pendingPersistProbe nowNanos = none → s.send.inFlight.length < maxTcpInFlightSegments) :
  ∃ s' segment, s.takeDataOrFin localEndpoint remoteEndpoint available budget nowNanos
    (s.pendingPersistProbe nowNanos) = .ok (s', segment) ∧ Sends s s' segment
  := by
  have hdue : ∃ s' segment, s.takeFinIfDue localEndpoint remoteEndpoint nowNanos
      (s.pendingPersistProbe nowNanos) = .ok (s', segment) ∧ Sends s s' segment := by
    apply takeFinIfDue_eq _ hroom
    intro probe hsome
    apply (pendingPersistProbe_eq hsome).imp And.left And.right
  rw [takeDataOrFin]
  split
  · rename_i hsends
    obtain ⟨hstate, hfin⟩ := hsends
    have hphase : s.state.sendPhase ≠ .opening := by
      cases hs : s.state <;> simp_all [TcpState.sendPhase, sendsData]
    obtain heq | ⟨s', sent, heq, hsends⟩ :=
      takeDataSegment_eq (s := s) hwf havailable hfin hphase (fun _ => pendingPersistProbe_eq) hroom
    · rw [heq]
      apply hdue
    · rw [heq]
      refine ⟨s', some sent, rfl, hsends⟩
  · apply hdue

theorem takeTransmitSegment_eq (hwf : s.SendWf) :
  ∃ s' segment, s.takeTransmitSegment nowNanos budget = .ok (s', segment) ∧
    Sends s s' segment
  := by
  -- arming the timer sends nothing, so the rest is about the armed socket
  have hsends : Sends s (s.armPersistTimerIfNeeded nowNanos) none := by
    obtain ⟨persistTimer, heq⟩ := s.armPersistTimerIfNeeded_eq nowNanos
    rw [heq]
    apply Sends.none_of_timer
  have hsender : (s.armPersistTimerIfNeeded nowNanos).sender = s.sender := by
    obtain ⟨-, hsender⟩ | ⟨_, hnone, -⟩ := hsends.sender
    · apply hsender
    · contradiction
  rw [takeTransmitSegment]
  generalize s.armPersistTimerIfNeeded nowNanos = armed at *
  dsimp only
  generalize (if (armed.pendingPersistProbe nowNanos).isSome = true then 1
    else armed.send.availableSendWindow) = available
  split
  · split
    · refine ⟨armed, none, rfl, hsends⟩
    · rename_i hready
      obtain ⟨havailable, hnotFull⟩ := not_or.mp hready
      obtain ⟨s', segment, heq', hsends'⟩ := takeDataOrFin_eq (s := armed)
        (hsends.sendWf hwf) havailable
        (by simpa [SendSide.inFlightIsFull] using hnotFull)
      refine ⟨s', segment, heq', hsends'.state_eq.trans hsends.state_eq,
        fun h => hsends'.sendWf (hsends.sendWf h), ?_⟩
      rw [← hsender]
      apply hsends'.sender
  · refine ⟨armed, none, rfl, hsends⟩

end Take

/-! ### Retransmission -/

theorem mem_of_retransmissionCandidate {segment : TcpInFlightSegment}
    (h : s.retransmissionCandidate nowNanos = some segment) :
  segment ∈ s.send.inFlight
  := by
  rw [retransmissionCandidate] at h
  split at h
  · apply mem_of_find?_eq_some h
  · split at h
    · apply mem_of_find?_eq_some h
    · apply mem_of_mem_head? (Option.filter_eq_some_iff.mp h).1

theorem pendingRetransmissionWithMtu_eq {sent : TcpTransmitSegment}
    (h : s.pendingRetransmissionWithMtu nowNanos tcpSegmentMtu = some sent) :
  ∃ segment ∈ s.send.inFlight, ∃ n, sent.header = segment.header ∧
    sent.payload = segment.payload.take n
  := by
  simp only [pendingRetransmissionWithMtu] at h
  repeat' split at h
  all_goals cases h
  all_goals refine ⟨_, mem_of_retransmissionCandidate ‹_›, _, rfl, rfl⟩

/-- Counting a retransmission changes nothing of the stream a segment carries. -/
theorem flight_noteRetransmission (sequence : SequenceNumber) (nowNanos : Nat)
    (segments : List TcpInFlightSegment) :
  (noteRetransmission sequence nowNanos segments).map flight =
    segments.map flight
  := by
  fun_induction noteRetransmission sequence nowNanos segments with
  | case1 | case2 => rfl
  | case3 segment rest hne ih => rw [map_cons, ih, map_cons]

section Retransmit

variable [CongestionControl C]

theorem markRetransmissionQueued_eq {sequence : SequenceNumber} (nowNanos : Nat)
    (hlimit : ∀ segment ∈ s.send.inFlight, segment.header.sequence = sequence →
      segment.retransmissions < tcpMaxRetransmissions) :
  (s.markRetransmissionQueued sequence nowNanos).sender = s.sender ∧
    (s.markRetransmissionQueued sequence nowNanos).state = s.state ∧
    (s.SendWf → (s.markRetransmissionQueued sequence nowNanos).SendWf)
  := by
  rw [markRetransmissionQueued]
  split
  · refine ⟨rfl, rfl, fun h => { h with }⟩
  · rename_i segment hfind
    have hempty (hnil : s.send.inFlight = []) : False := by
      rw [hnil] at hfind
      contradiction
    have hretransmissions : ¬ satAdd 8 segment.retransmissions 1 > tcpMaxRetransmissions := by
      have hsequence := find?_some hfind
      have hlt := hlimit segment (mem_of_find?_eq_some hfind) (by simpa using hsequence)
      have hle : satAdd 8 segment.retransmissions 1 ≤ segment.retransmissions + 1 :=
        Nat.min_le_left _ _
      omega
    rw [if_neg hretransmissions]
    split
    all_goals
      refine ⟨?_, rfl, fun h => { h with
        syn_unsent := fun hs hq => (hempty (h.syn_unsent hs hq)).elim
        synAck_unsent := fun hs hq => (hempty (h.synAck_unsent hs hq)).elim }⟩
    · simp only [sender, SendSide.sender, SendSide.onRetransmissionTimeout, map_map]
      rw [← flight_noteRetransmission sequence nowNanos s.send.inFlight]
      rfl
    · simp only [sender, SendSide.sender, flight_noteRetransmission]

theorem retransmit_eq (hlimit : ∀ sent, s.pendingRetransmissionWithMtu nowNanos tcpSegmentMtu =
      some sent → ∀ segment ∈ s.send.inFlight, segment.header.sequence = sent.header.sequence →
      segment.retransmissions < tcpMaxRetransmissions) :
  Sends s (s.retransmit nowNanos tcpSegmentMtu).1 (s.retransmit nowNanos tcpSegmentMtu).2
  := by
  rw [retransmit]
  split
  · apply Sends.none_of_timer s.send.persistTimer
  · rename_i sent hsome
    obtain ⟨hsender, hstate, hwf⟩ := markRetransmissionQueued_eq nowNanos (hlimit sent hsome)
    obtain ⟨segment, hmem, n, hheader, hpayload⟩ := pendingRetransmissionWithMtu_eq hsome
    refine ⟨hstate, hwf, ?_⟩
    right
    refine ⟨sent, rfl, fun safe => ?_⟩
    have hflight : segment.flight ∈ s.sender.flights := mem_map_of_mem hmem
    rw [hsender, hheader, hpayload]
    refine Step.resend hflight

end Retransmit

/-! ### The handshake -/

section Handshake

variable {header : TcpHeader}

variable [CongestionControl C]

theorem recordHandshake_eq (options : TcpHeaderOptions) (nowNanos : Nat) {send : SendSide C}
    (hinFlight : send.inFlight = []) :
  recordHandshake send header options nowNanos =
    .ok { send.noteInFlight 1 nowNanos with
      inFlight := [.sent header options [] 1 nowNanos] }
  := by
  have hinFlight' : (send.noteInFlight 1 nowNanos).inFlight = [] := hinFlight
  rw [recordHandshake, SendSide.pushInFlight_eq _ (by rw [hinFlight']; decide), hinFlight',
    nil_append]

omit [CongestionControl C] in
/-- The header of a handshake is the only segment in flight. -/
theorem handshake_step {acknowledgement : SequenceNumber} {flags : TcpFlags} {windowSize : Nat}
    {options : TcpHeaderOptions} (hphase : s.state.sendPhase = .opening)
    (hinFlight : s.send.inFlight = [])
    (h : s.headerWith s.send.sendUnacknowledged acknowledgement flags windowSize = some header)
    (safe : Sender → SequenceNumber → Prop) :
  Step safe s.sender (.emitted s.send.sendUnacknowledged [])
    { s.sender with
      flights := [(sent header options [] 1 nowNanos).flight]
      counted := satAdd 32 s.sender.counted 1 }
  := by
  have hflights : s.sender.flights = [] := by
    simp only [sender, SendSide.sender, hinFlight, map_nil]
  rw [headerWith] at h
  split at h
  · cases h
    apply Step.sendHandshake hphase hflights
  · contradiction

/-- What sending the SYN or the SYN-ACK may do. -/
structure Opens (s s' : TcpSocket C) (header : Option (TcpHeader × TcpHeaderOptions)) :
    Prop where
  state_eq : s'.state = s.state
  sendWf : s.SendWf → s'.SendWf
  sender : header = none ∧ s'.sender = s.sender ∨
    header ≠ none ∧ s.state.sendPhase = .opening ∧ ∀ safe,
      Step safe s.sender (.emitted s.send.sendUnacknowledged []) s'.sender

theorem sendSyn_eq (hwf : s.SendWf) (nowNanos : Nat) :
  ∃ s' header, s.sendSyn nowNanos = .ok (s', header) ∧ Opens s s' header
  := by
  rw [sendSyn]
  cases hpending : s.pendingSyn with
  | none =>
    refine ⟨s, none, rfl, rfl, fun h => h, ?_⟩
    left
    apply And.intro rfl rfl
  | some header =>
    have hpending' := hpending
    rw [pendingSyn] at hpending'
    split at hpending'
    · contradiction
    · rename_i hready
      obtain ⟨hstate, hunsent⟩ := not_or.mp hready
      rw [not_not] at hstate
      have hinFlight := hwf.syn_unsent hstate (by simpa using hunsent)
      have hphase : s.state.sendPhase = .opening := by rw [hstate]; rfl
      rw [markSynQueued, if_neg (by simpa using hstate), hpending]
      dsimp only
      rw [recordHandshake_eq _ _ (by apply hinFlight)]
      refine ⟨_, _, rfl, rfl, fun h => ?_, ?_⟩
      · refine ⟨h.mss_pos, h.mss_le, fun _ hnot => ?_, fun hnot => ?_⟩
        · contradiction
        · apply absurd (hstate.symm.trans hnot) (by decide)
      · right
        refine ⟨by simp, hphase, handshake_step hphase hinFlight hpending'⟩

theorem sendSynAck_eq (hwf : s.SendWf) (nowNanos : Nat) :
  ∃ s' header, s.sendSynAck nowNanos = .ok (s', header) ∧ Opens s s' header
  := by
  rw [sendSynAck]
  cases hpending : s.pendingSynAck with
  | none =>
    refine ⟨s, none, rfl, rfl, fun h => h, ?_⟩
    left
    apply And.intro rfl rfl
  | some header =>
    have hpending' := hpending
    rw [pendingSynAck] at hpending'
    split at hpending'
    · contradiction
    · rename_i hready
      obtain ⟨hstate, hunsent⟩ := not_or.mp hready
      rw [not_not] at hstate
      have hinFlight := hwf.synAck_unsent hstate (by simpa using hunsent)
      have hphase : s.state.sendPhase = .opening := by rw [hstate]; rfl
      rw [markSynAckQueued, if_neg (by simpa using hstate), hpending]
      dsimp only
      rw [recordHandshake_eq _ _ (by apply hinFlight)]
      refine ⟨_, _, rfl, rfl, fun h => ?_, ?_⟩
      · refine ⟨h.mss_pos, h.mss_le, fun hnot => ?_, fun _ hnot => ?_⟩
        · apply absurd (hstate.symm.trans hnot) (by decide)
        · contradiction
      · right
        refine ⟨by simp, hphase, handshake_step hphase hinFlight hpending'⟩

end Handshake

end TcpSocket

end Helios
