import Helios.Netstack.TcpArrivalSteps

/-!
# Every operation on a socket is a few steps of its sender

The operations of a run, one by one, with what an observer of the sender sees of them.
-/

namespace Helios

open Machine Serial Sender

namespace TcpSocket

variable {initialSequence : SequenceNumber}

variable {C : Type} [CongestionControl C] {S : Type} {first : SequenceNumber}
  {s s' : TcpSocket C} {op : SocketOp S} {output : SocketOutput S}
  {safe : Sender → SequenceNumber → Prop}

/-! ### The start -/

/-- A connection as it is opened, actively or passively, with the given initial sequence
number. -/
inductive JustOpened (initialSequence : SequenceNumber) : TcpSocket C → Prop where
  | connect (localEndpoint remoteEndpoint : TcpEndpoint) (congestion : C) :
      JustOpened initialSequence (connect localEndpoint remoteEndpoint initialSequence congestion)
  | accept (localEndpoint remoteEndpoint : TcpEndpoint) (receiveNext : SequenceNumber)
      (congestion : C) :
      JustOpened initialSequence
        (accept localEndpoint remoteEndpoint receiveNext initialSequence congestion)

omit [CongestionControl C] in
section

variable (h : JustOpened initialSequence s)
include h

theorem JustOpened.send_eq :
  s.state.sendPhase = .opening ∧ ∃ congestion, s.send = openSend congestion initialSequence
  := by
  cases h with
  | connect _ _ congestion | accept _ _ _ congestion => refine ⟨rfl, congestion, rfl⟩

omit [CongestionControl C] in
theorem JustOpened.sendWf :
  s.SendWf
  := by
  obtain ⟨-, congestion, heq⟩ := h.send_eq
  constructor <;> rw [heq]
  · show 0 < tcpReceiveSegmentBytes
    decide
  · apply Nat.le_refl
  · intro _ _
    rfl
  · intro _ _
    rfl

omit [CongestionControl C] in
theorem JustOpened.sender_eq :
  s.sender =
    { phase := .opening
      next := advance initialSequence 1
      unacknowledged := initialSequence
      flights := []
      queue := []
      counted := 0
      finSent := false
      probe := none }
  := by
  obtain ⟨hphase, congestion, heq⟩ := h.send_eq
  rw [sender, heq, hphase]
  rfl

omit [CongestionControl C] in
theorem JustOpened.inv :
  Inv s.sender.next s.sender
  := by
  rw [h.sender_eq]
  constructor
  · rfl
  · simp
  · apply Nat.zero_le
  · apply Nat.zero_le
  · simp
  · intro _
    refine ⟨rfl, rfl, rfl⟩
  · simp

end

/-! ### Operations -/

/-- The operations under which the sending half of a socket is a sender: the socket is
not aborted, no segment is sent once too often, and every acknowledgement is one the
sender may take. -/
def SendAllowed (safe : Sender → SequenceNumber → Prop) (s : TcpSocket C) :
    SocketOp S → Prop
  | .onSegment packet _ => AckAllowed safe s packet
  | .retransmit nowNanos tcpSegmentMtu =>
    ∀ sent, s.pendingRetransmissionWithMtu nowNanos tcpSegmentMtu = some sent →
      ∀ segment ∈ s.send.inFlight, segment.header.sequence = sent.header.sequence →
        segment.retransmissions < tcpMaxRetransmissions
  | .abort => False
  | _ => True

/-- What an observer of the sender sees of an operation and its output. -/
inductive Observed : SocketOp S → SocketOutput S → List SendEvent → Prop where
  | wrote {bytes : Bytes} {n : Nat} :
      n ≤ bytes.length → Observed (.queueSendBytes bytes) (.accepted n) [.wrote (bytes.take n)]
  | refused {bytes : Bytes} : Observed (.queueSendBytes bytes) (.accepted 0) []
  | emitted {op : SocketOp S} {sent : TcpTransmitSegment} :
      Observed op (.segment (some sent)) [.emitted sent.header.sequence sent.payload]
  | opened {op : SocketOp S} {header : Option (TcpHeader × TcpHeaderOptions)}
      {sequence : SequenceNumber} : Observed op (.header header) [.emitted sequence []]
  | acked {packet : TcpPacket} {nowNanos : Nat} {outcome : TcpSegmentOutcome}
      {rest : List SendEvent} :
      packet.flags.contains .ack = true → (∀ event ∈ rest, event = .quiet) →
      Observed (.onSegment packet nowNanos) (.outcome outcome)
        (.acked packet.acknowledgement :: rest)
  | quiet {op : SocketOp S} {output : SocketOutput S} {events : List SendEvent} :
      (∀ bytes, op ≠ .queueSendBytes bytes) → (∀ sent, output ≠ .segment (some sent)) →
      (∀ event ∈ events, event = .quiet) → Observed op output events

/-- An operation as steps of the sender. -/
structure Refines (safe : Sender → SequenceNumber → Prop) (s : TcpSocket C) (op : SocketOp S)
    (s' : TcpSocket C) (output : SocketOutput S) : Prop where
  sendWf : s'.SendWf
  steps : ∃ events, Steps safe s.sender events s'.sender ∧ Observed op output events

omit [CongestionControl C] in
theorem Refines.of_sameSend (h : SameSend s s') (hwf : s.SendWf)
    (hop : ∀ bytes, op ≠ .queueSendBytes bytes) (hout : ∀ sent, output ≠ .segment (some sent)) :
  Refines safe s op s' output
  := by
  refine ⟨h.sendWf hwf, [], ?_, .quiet hop hout (by simp)⟩
  rw [h.sender_eq]
  apply Steps.nil

omit [CongestionControl C] in
theorem Refines.of_sends {segment : Option TcpTransmitSegment} (h : Sends s s' segment)
    (hwf : s.SendWf) (hop : ∀ bytes, op ≠ .queueSendBytes bytes) :
  Refines safe s op s' (.segment segment)
  := by
  refine ⟨h.sendWf hwf, ?_⟩
  obtain ⟨rfl, hsender⟩ | ⟨sent, rfl, hstep⟩ := h.sender
  · refine ⟨[], ?_, .quiet hop (by simp) (by simp)⟩
    rw [hsender]
    apply Steps.nil
  · refine ⟨_, .single (hstep safe), .emitted⟩

omit [CongestionControl C] in
theorem Refines.of_opens {header : Option (TcpHeader × TcpHeaderOptions)} (h : Opens s s' header)
    (hwf : s.SendWf) (hop : ∀ bytes, op ≠ .queueSendBytes bytes) :
  Refines safe s op s' (.header header)
  := by
  refine ⟨h.sendWf hwf, ?_⟩
  obtain ⟨rfl, hsender⟩ | ⟨-, -, hstep⟩ := h.sender
  · refine ⟨[], ?_, .quiet hop (by simp) (by simp)⟩
    rw [hsender]
    apply Steps.nil
  · refine ⟨_, .single (hstep safe), .opened⟩

omit [CongestionControl C] in
theorem Refines.of_finish (hsend : s'.send = s.send) (hphase : s'.state.sendPhase = .finishing)
    (hwf : s.SendWf) (hop : ∀ bytes, op ≠ .queueSendBytes bytes)
    (hout : ∀ sent, output ≠ .segment (some sent)) :
  Refines safe s op s' output
  := by
  refine ⟨hwf.of_not_opening (by simp [hphase]) (by rw [hsend]), [.quiet], ?_,
    .quiet hop hout (by simp)⟩
  have hsender : s'.sender = { s.sender with phase := .finishing } := by
    rw [sender, hphase, hsend]
    rfl
  rw [hsender]
  apply Steps.single .finish

omit [CongestionControl C] in
theorem expireTimers_refines (s : TcpSocket C) (nowNanos : Nat) (hwf : s.SendWf) :
  Refines safe s (.expireTimers nowNanos : SocketOp S) (s.expireTimers nowNanos) .done
  := by
  obtain hsame | ⟨-, hstate, hsend⟩ := s.expireTimers_eq nowNanos
  · apply Refines.of_sameSend hsame hwf (by simp) (by simp)
  · apply Refines.of_finish hsend (by rw [hstate]; rfl) hwf (by simp) (by simp)

variable [TcpReceiveBuffer S]

theorem step_opens (hwf : s.SendWf) (nowNanos : Nat)
    (hop : op = .sendSyn nowNanos ∨ op = .sendSynAck nowNanos) (h : s.step op = .ok (s', output)) :
  ∃ header, output = .header header ∧ Opens s s' header
  := by
  obtain rfl | rfl := hop
  · obtain ⟨s₁, header, heq, hopens⟩ := sendSyn_eq hwf nowNanos
    rw [step, heq] at h
    cases h
    refine ⟨header, rfl, hopens⟩
  · obtain ⟨s₁, header, heq, hopens⟩ := sendSynAck_eq hwf nowNanos
    rw [step, heq] at h
    cases h
    refine ⟨header, rfl, hopens⟩

/-- Every operation of a run takes the sending half through steps of a sender. -/
theorem step_refines (hinv : Inv first s.sender) (hwf : s.SendWf)
    (hallowed : SendAllowed safe s op) (h : s.step op = .ok (s', output)) :
  Refines safe s op s' output
  := by
  cases op with
  | queueSendBytes bytes =>
    obtain heq | ⟨transmitQueue, n, heq, hn, hphase, hbytes⟩ := s.queueSendBytes_eq bytes
    · rw [step, heq] at h
      cases h
      refine ⟨hwf, [], .nil, .refused⟩
    · rw [step, heq] at h
      cases h
      refine ⟨{ hwf with }, _, .single ?_, .wrote hn⟩
      simp only [sender, SendSide.sender, hbytes]
      refine Step.write hphase ?_
      have hle := transmitQueue.bytes_length_le
      rw [hbytes] at hle
      apply hle
  | takeTransmitSegment nowNanos budget =>
    obtain ⟨s₁, segment, heq, hsends⟩ := takeTransmitSegment_eq (s := s) hwf
    rw [step, heq] at h
    cases h
    apply Refines.of_sends hsends hwf (by simp)
  | retransmit nowNanos tcpSegmentMtu =>
    have hsends := retransmit_eq hallowed
    cases h
    apply Refines.of_sends hsends hwf (by simp)
  | markPathMtuReduced sequence =>
    cases h
    obtain ⟨pending, heq⟩ : ∃ pending, s.send.markPathMtuReduced sequence =
        { s.send with pendingPmtuRetransmitSequence := pending } := by
      rw [SendSide.markPathMtuReduced]
      split <;> refine ⟨_, rfl⟩
    rw [heq]
    refine ⟨{ hwf with }, [], .nil, .quiet (by simp) (by simp) (by simp)⟩
  | sendSyn nowNanos | sendSynAck nowNanos =>
    obtain ⟨header, rfl, hopens⟩ := step_opens hwf nowNanos (by simp) h
    apply Refines.of_opens hopens hwf (by simp)
  | sendAck nowNanos =>
    rw [step] at h
    split at h <;> cases h
    · apply Refines.of_sameSend (.refl s) hwf (by simp) (by simp)
    · apply Refines.of_sameSend (.of_recv _ (.refl s)) hwf (by simp) (by simp)
  | expireTimers nowNanos =>
    cases h
    apply s.expireTimers_refines nowNanos hwf
  | receive maxBytes nowNanos =>
    obtain ⟨⟨s₁, bytes⟩, heq, hmap⟩ := Transition.map_eq_ok h
    cases hmap
    apply Refines.of_sameSend (receive_sameSend heq) hwf (by simp) (by simp)
  | receiveInto buffer nowNanos =>
    obtain ⟨⟨s₁, buffer', bytes⟩, heq, hmap⟩ := Transition.map_eq_ok h
    cases hmap
    apply Refines.of_sameSend (receiveInto_sameSend heq) hwf (by simp) (by simp)
  | onSegment packet nowNanos =>
    obtain ⟨⟨s₁, outcome⟩, heq, hmap⟩ := Transition.map_eq_ok h
    cases hmap
    obtain ⟨hwf', events, hsteps, hevents⟩ := onSegment_reacts hinv hwf hallowed heq
    refine ⟨hwf' hwf, events, hsteps, ?_⟩
    obtain hquiet | ⟨hack, rest, rfl, hquiet⟩ := hevents
    · apply Observed.quiet (by simp) (by simp) hquiet
    · apply Observed.acked hack hquiet
  | closeSend =>
    cases h
    cases hstate : s.state with
    | established | closeWait =>
      rw [closeSend, hstate]
      apply Refines.of_finish _ _ hwf <;> simp [TcpState.sendPhase]
    | _ =>
      rw [closeSend, hstate]
      apply Refines.of_sameSend (.refl s) hwf (by simp) (by simp)
  | abort => contradiction

end TcpSocket

end Helios
