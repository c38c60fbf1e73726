import Helios.Netstack.TcpArrivalSteps
import Helios.Netstack.TcpReceiveSteps

/-!
# Every operation on a socket is a few steps of its receiver

What transmission, acknowledgement, the handshake and the timers do leaves the peer's
stream alone; a read, a drain, an arriving payload and a FIN are steps of the receiver.
None of them aborts.
-/

namespace Helios

open Machine Serial ReceiveSide Receiver Transition List

/-- What the state of a socket says of its peer's stream. -/
def TcpState.receivePhase : TcpState → ReceivePhase
  | .synSent | .listen => .unknown
  | .synReceived => .opening
  | .established | .finWait1 | .finWait2 => .receiving
  | .closeWait | .closing | .lastAck | .timeWait => .finished
  | .closed => .gone

namespace TcpSocket

variable {packet : TcpPacket} {recv : ReceiveSide} {bytes : Bytes}

variable {C : Type} {s s' s'' : TcpSocket C}

/-- A socket as a receiver. -/
def receiver (s : TcpSocket C) : Receiver :=
  ⟨s.state.receivePhase, s.recv.inbound⟩

theorem receivesData_iff (s : TcpSocket C) :
  s.receivesData = true ↔ s.state.receivePhase = .receiving
  := by
  cases hstate : s.state <;> simp [receivesData, TcpState.receivePhase, hstate]

/-! ### What leaves the peer's stream alone -/

/-- A change that the peer's stream does not see, other than that the connection may be
closed. -/
structure SameRecv (s s' : TcpSocket C) : Prop where
  keeps : s.recv.Keeps s'.recv
  phase : s'.state.receivePhase = s.state.receivePhase ∨ s'.state.receivePhase = .gone

namespace SameRecv

theorem refl (s : TcpSocket C) :
  SameRecv s s
  := ⟨.refl _, .inl rfl⟩

theorem trans (h : SameRecv s s') (h' : SameRecv s' s'') :
  SameRecv s s''
  := by
  refine ⟨h.keeps.trans h'.keeps, ?_⟩
  obtain hphase | hphase := h'.phase
  · rw [hphase]
    apply h.phase
  · right
    apply hphase

theorem of_send (send : SendSide C) (h : SameRecv s s') :
  SameRecv s { s' with send }
  := ⟨h.keeps, h.phase⟩

theorem of_recv (h : SameRecv s s') (hkeeps : s'.recv.Keeps recv) :
  SameRecv s { s' with recv }
  := ⟨h.keeps.trans hkeeps, h.phase⟩

theorem of_halves (send : SendSide C) (h : s.recv.Keeps recv) :
  SameRecv s { s with send, recv }
  := ⟨h, .inl rfl⟩

theorem of_setState {next : TcpState} (reason : TcpStateChangeReason)
    (h : next.receivePhase = s.state.receivePhase ∨ next.receivePhase = .gone) :
  SameRecv s (s.setState next reason)
  := by
  refine ⟨?_, ?_⟩
  · rw [recv_setState]
    apply Keeps.refl
  · rw [state_setState]
    apply h

/-- What was not seen is no step, or the step that closes. -/
theorem steps (h : SameRecv s s') :
  ∃ events, Steps s.receiver events s'.receiver ∧ ∀ event ∈ events, event = .quiet
  := by
  obtain hphase | hphase := h.phase
  · refine ⟨[], ?_, by simp⟩
    rw [receiver, receiver, hphase, h.keeps.inbound_eq]
    apply Steps.nil
  · refine ⟨[.quiet], ?_, by simp⟩
    rw [receiver, receiver, hphase, h.keeps.inbound_eq]
    apply Steps.single .close

end SameRecv

theorem noteAckEmitted_keeps (r : ReceiveSide) :
  r.Keeps r.noteAckEmitted
  := .of_acks (.refl r)

theorem armPersistTimerIfNeeded_sameRecv (s : TcpSocket C) (nowNanos : Nat) :
  SameRecv s (s.armPersistTimerIfNeeded nowNanos)
  := by
  rw [armPersistTimerIfNeeded]
  split
  · apply SameRecv.of_send _ (.refl s)
  · split
    · apply SameRecv.of_send _ (.refl s)
    · apply SameRecv.refl

theorem queueSendBytes_sameRecv {count : Nat} (h : s.queueSendBytes bytes = .ok (s', count)) :
  SameRecv s s'
  := by
  simp only [queueSendBytes] at h
  repeat' split at h
  all_goals cases h
  · apply SameRecv.refl
  · apply SameRecv.refl
  · apply SameRecv.of_send _ (.refl s)

section Transmit

variable {header : Option (TcpHeader × TcpHeaderOptions)}

variable {budget : TcpSegmentBudget} {persistProbe : Option TcpPersistProbe}

variable [CongestionControl C] {localEndpoint remoteEndpoint : TcpEndpoint}
  {segment : TcpTransmitSegment} {nowNanos : Nat} {available : Nat}

theorem takeDataSegment_sameRecv
    (h : s.takeDataSegment localEndpoint
      remoteEndpoint available budget nowNanos persistProbe = .ok (some (s', segment))) :
  SameRecv s s'
  := by
  simp only [takeDataSegment, takeProbeSegment, takeQueuedSegment] at h
  repeat' split at h
  all_goals cases h
  all_goals apply SameRecv.of_halves _ (noteAckEmitted_keeps _)

theorem takeFinSegment_sameRecv {persistProbe : Bool} {sequence : SequenceNumber}
    (h : s.takeFinSegment localEndpoint remoteEndpoint nowNanos persistProbe sequence =
      .ok (s', segment)) :
  SameRecv s s'
  := by
  rw [takeFinSegment] at h
  repeat' split at h
  all_goals cases h
  all_goals apply SameRecv.of_halves _ (noteAckEmitted_keeps _)

theorem takeFinIfDue_sameRecv {segment : Option TcpTransmitSegment} (h : s.takeFinIfDue
      localEndpoint remoteEndpoint nowNanos persistProbe = .ok (s', segment)) :
  SameRecv s s'
  := by
  revert h
  fun_cases takeFinIfDue s localEndpoint remoteEndpoint nowNanos persistProbe with
  | case1 =>
    rintro ⟨⟩
    apply SameRecv.refl
  | case3 =>
    rintro ⟨⟩
    apply armPersistTimerIfNeeded_sameRecv
  | case2 | case4 =>
    intro h
    obtain ⟨⟨s₁, sent⟩, heq, hmap⟩ := map_eq_ok h
    cases hmap
    apply takeFinSegment_sameRecv heq

theorem takeDataOrFin_sameRecv {segment : Option TcpTransmitSegment}
    (h :
      s.takeDataOrFin localEndpoint remoteEndpoint available budget nowNanos persistProbe = .ok
      (s', segment)) :
  SameRecv s s'
  := by
  rw [takeDataOrFin] at h
  split at h
  · split at h
    · cases h
    · rename_i heq
      cases h
      apply takeDataSegment_sameRecv heq
    · apply takeFinIfDue_sameRecv h
  · apply takeFinIfDue_sameRecv h

theorem takeTransmitSegment_sameRecv {segment : Option TcpTransmitSegment}
    (h : s.takeTransmitSegment nowNanos budget = .ok (s', segment)) :
  SameRecv s s'
  := by
  have harm := s.armPersistTimerIfNeeded_sameRecv nowNanos
  rw [takeTransmitSegment] at h
  generalize s.armPersistTimerIfNeeded nowNanos = s₁ at h harm
  dsimp only at h
  generalize (if (s₁.pendingPersistProbe nowNanos).isSome = true then 1
    else s₁.send.availableSendWindow) = available at h
  split at h
  · split at h
    · cases h
      apply harm
    · apply harm.trans (takeDataOrFin_sameRecv h)
  · cases h
    apply harm

theorem retransmit_sameRecv (s : TcpSocket C) (nowNanos tcpSegmentMtu : Nat) :
  SameRecv s (s.retransmit nowNanos tcpSegmentMtu).1
  := by
  rw [retransmit]
  split
  · apply SameRecv.refl
  · rw [markRetransmissionQueued]
    dsimp only
    split
    · apply SameRecv.of_send _ (.refl s)
    · split
      · apply SameRecv.of_send
        apply SameRecv.of_setState _ (.inr rfl)
      · split <;> apply SameRecv.of_send _ (.refl s)

theorem sendHandshake_sameRecv
    (h : s.sendSyn nowNanos = .ok (s', header) ∨ s.sendSynAck nowNanos = .ok (s', header)) :
  SameRecv s s'
  := by
  simp only [sendSyn, sendSynAck] at h
  obtain h | h := h
  all_goals
    split at h
    · cases h
      apply SameRecv.refl
    · obtain ⟨s₁, heq, hmap⟩ := map_eq_ok h
      cases hmap
      simp only [markSynQueued, markSynAckQueued] at heq
      repeat' split at heq
      all_goals cases heq
      apply SameRecv.of_send _ (.refl s)

end Transmit

theorem expireTimers_sameRecv (s : TcpSocket C) (nowNanos : Nat) :
  SameRecv s (s.expireTimers nowNanos)
  := by
  have hack : SameRecv s (s.expireDelayedAck nowNanos) := by
    rw [expireDelayedAck]
    split
    · apply SameRecv.of_recv (.refl s) (requestAck_keeps _)
    · apply SameRecv.refl
  rw [expireTimers]
  split
  · apply hack.trans
    refine ⟨?_, .inr ?_⟩
    · rw [recv_setState]
      apply Keeps.refl
    · rw [state_setState]
      rfl
  · apply hack

theorem closeSend_sameRecv (s : TcpSocket C) :
  SameRecv s s.closeSend
  := by
  rw [closeSend]
  cases hstate : s.state with
  | established | closeWait => apply SameRecv.of_setState _ (.inl (by rw [hstate]; rfl))
  | _ => apply SameRecv.refl

/-! ### The FIN and the reads -/

/-- The receiving half keeps its counts, and no FIN is known before the handshake is
over. -/
structure RecvWf (s : TcpSocket C) : Prop where
  wf : s.recv.Wf
  fin : s.state.receivePhase.early = true → s.recv.receiveFinSequence = none

/-- A few steps of the receiver of which nothing is seen. -/
structure QuietSteps (s s' : TcpSocket C) : Prop where
  recvWf : s'.RecvWf
  steps : ∃ events, Steps s.receiver events s'.receiver ∧ ∀ event ∈ events, event = .quiet

theorem SameRecv.quietSteps (h : SameRecv s s') (hwf : s.RecvWf) :
  QuietSteps s s'
  := by
  refine ⟨⟨h.keeps.wf hwf.wf, fun hopening => ?_⟩, h.steps⟩
  have hfin : s'.recv.receiveFinSequence = s.recv.receiveFinSequence :=
    congrArg Inbound.fin h.keeps.inbound_eq
  rw [hfin]
  apply hwf.fin
  obtain hphase | hphase := h.phase
  · rw [← hphase, hopening]
  · rw [hphase] at hopening
    contradiction

theorem QuietSteps.trans (h : QuietSteps s s') (h' : QuietSteps s' s'') :
  QuietSteps s s''
  := by
  obtain ⟨events, hsteps, hquiet⟩ := h.steps
  obtain ⟨events', hsteps', hquiet'⟩ := h'.steps
  refine ⟨h'.recvWf, events ++ events', hsteps.append hsteps', ?_⟩
  apply forall_mem_append.mpr ⟨hquiet, hquiet'⟩

theorem QuietSteps.single (hwf : s'.RecvWf) (h : Step s.receiver .quiet s'.receiver) :
  QuietSteps s s'
  := ⟨hwf, [.quiet], .single h, by simp⟩

theorem receivePhase_notePeerFin (s : TcpSocket C) (nowNanos : Nat)
    (h : s.state.receivePhase.early = false) :
  (s.notePeerFin nowNanos).state.receivePhase = s.state.receivePhase.afterFin
  := by
  rw [notePeerFin]
  cases hstate : s.state <;> simp_all [TcpState.receivePhase, ReceivePhase.early, ReceivePhase.afterFin]

theorem consumePendingReceiveFin_quiet (hwf : s.RecvWf) (nowNanos : Nat) :
  QuietSteps s (s.consumePendingReceiveFin nowNanos).1
  := by
  rw [consumePendingReceiveFin]
  split
  · apply (SameRecv.refl s).quietSteps hwf
  · rename_i hfin
    rw [not_not] at hfin
    have hphase : s.state.receivePhase.early = false := by
      rw [Bool.eq_false_iff]
      intro hopening
      rw [hwf.fin hopening] at hfin
      contradiction
    have hfinished := s.receivePhase_notePeerFin nowNanos hphase
    have hwf' : Wf { s.recv with
        receiveFinSequence := none, receiveNext := s.recv.receiveNext + 1 } :=
      { hwf.wf with }
    have hkeeps := requestAck_keeps { s.recv with
        receiveFinSequence := none, receiveNext := s.recv.receiveNext + 1 }
    apply QuietSteps.single
    · refine ⟨hkeeps.wf hwf', fun hopening => ?_⟩
      simp only [hfinished] at hopening
      cases hs : s.state.receivePhase <;> rw [hs] at hopening <;> contradiction
    · simp only [receiver, hfinished]
      apply Step.consumeFin hfin

theorem completeReceiveDrain_eq (hwf : s.RecvWf) (previousWindow nowNanos : Nat) :
  ∃ s', s.completeReceiveDrain previousWindow nowNanos = .ok s' ∧ QuietSteps s s'
  := by
  rw [completeReceiveDrain]
  obtain ⟨recv, drained, heq, hdrains, hwf₁⟩ := drainContiguousOutOfOrder_eq hwf.wf
  rw [heq]
  dsimp only
  have hfin : recv.receiveFinSequence = s.recv.receiveFinSequence := hdrains.fin_eq
  have hdrain : QuietSteps s { s with recv } := by
    refine .single ⟨hwf₁, fun hopening => hfin.trans (hwf.fin hopening)⟩ ?_
    apply Step.drain hdrains
  have hconsume := hdrain.trans (consumePendingReceiveFin_quiet hdrain.recvWf nowNanos)
  generalize ({ s with recv }.consumePendingReceiveFin nowNanos).1 = s₂ at hconsume ⊢
  have hkeeps := s₂.recv.refreshAdvertisedWindow_keeps.trans
    (shouldAdvertiseWindowUpdate_keeps _ previousWindow)
  split
  · refine ⟨_, rfl, hconsume.trans (SameRecv.quietSteps ?_ hconsume.recvWf)⟩
    apply SameRecv.of_recv (.refl s₂)
    apply Keeps.of_acks hkeeps
  · refine ⟨_, rfl, hconsume.trans (SameRecv.quietSteps ?_ hconsume.recvWf)⟩
    apply SameRecv.of_recv (.refl s₂) hkeeps

/-- A few steps of the receiver that deliver the given bytes and take in nothing. -/
structure ReadSteps (s : TcpSocket C) (bytes : Bytes) (s' : TcpSocket C) : Prop where
  recvWf : s'.RecvWf
  steps : ∃ events, Steps s.receiver events s'.receiver ∧
    events.flatMap ReceiveEvent.delivered = bytes ∧
    ∀ event ∈ events, event = .quiet ∨ event = .read event.delivered

theorem QuietSteps.readSteps (h : QuietSteps s s') :
  ReadSteps s [] s'
  := by
  obtain ⟨events, hsteps, hquiet⟩ := h.steps
  refine ⟨h.recvWf, events, hsteps, ?_, fun event hmem => .inl (hquiet event hmem)⟩
  rw [flatMap_eq_nil_iff]
  intro event hmem
  rw [hquiet event hmem]
  rfl

theorem ReadSteps.trans {bytes' : Bytes} (h : ReadSteps s bytes s') (h' : ReadSteps s' bytes' s'') :
  ReadSteps s (bytes ++ bytes') s''
  := by
  obtain ⟨events, hsteps, rfl, hread⟩ := h.steps
  obtain ⟨events', hsteps', rfl, hread'⟩ := h'.steps
  refine ⟨h'.recvWf, events ++ events', hsteps.append hsteps', flatMap_append, ?_⟩
  apply forall_mem_append.mpr ⟨hread, hread'⟩

theorem readSteps_of_reads (hwf : s.RecvWf) (h : s.recv.Reads bytes recv) :
  ReadSteps s bytes { s with recv }
  := by
  have hinbound := h.inbound_eq
  have hfin : recv.receiveFinSequence = s.recv.receiveFinSequence := congrArg Inbound.fin hinbound
  refine ⟨⟨h.wf, fun hopening => hfin.trans (hwf.fin hopening)⟩, [.read bytes], .single ?_,
    by simp [ReceiveEvent.delivered], by simp [ReceiveEvent.delivered]⟩
  simp only [receiver, hinbound]
  apply Step.read h.queue_eq

theorem receive_eq (hwf : s.RecvWf) (maxBytes nowNanos : Nat) :
  ∃ s' bytes, s.receive maxBytes nowNanos = .ok (s', bytes) ∧ ReadSteps s (bytes.getD []) s'
  := by
  rw [receive]
  split
  · refine ⟨s, _, rfl, ?_⟩
    have hnone := ((SameRecv.refl s).quietSteps hwf).readSteps
    split <;> apply hnone
  · have hconsume := consumePendingReceiveFin_quiet hwf nowNanos
    generalize (s.consumePendingReceiveFin nowNanos).1 = s₁ at hconsume ⊢
    dsimp only
    obtain heq | ⟨recv, bytes, heq, hreads⟩ := readQueue_eq hconsume.recvWf.wf maxBytes
    · rw [heq]
      refine ⟨s₁, none, rfl, hconsume.readSteps⟩
    · rw [heq]
      dsimp only
      have hread := hconsume.readSteps.trans (readSteps_of_reads hconsume.recvWf hreads)
      obtain ⟨s₂, heq₂, hdrain⟩ := completeReceiveDrain_eq hread.recvWf
        s₁.recv.advertisedWindow nowNanos
      rw [heq₂]
      refine ⟨s₂, some bytes, rfl, ?_⟩
      have hall := hread.trans hdrain.readSteps
      rw [append_nil] at hall
      apply hall

theorem receiveInto_eq {S : Type} [TcpReceiveBuffer S] [LawfulReceiveBuffer S] (hwf : s.RecvWf)
    (buffer : S) (nowNanos : Nat) :
  ∃ s' buffer' bytes, s.receiveInto buffer nowNanos = .ok (s', buffer', bytes) ∧
    ReadSteps s (bytes.getD []) s'
  := by
  rw [receiveInto]
  split
  · refine ⟨s, buffer, _, rfl, ?_⟩
    have hnone := ((SameRecv.refl s).quietSteps hwf).readSteps
    split <;> apply hnone
  · have hconsume := consumePendingReceiveFin_quiet hwf nowNanos
    generalize (s.consumePendingReceiveFin nowNanos).1 = s₁ at hconsume ⊢
    dsimp only
    obtain ⟨progress, found, heq, hreads, hnone⟩ := sinkLoop_eq
      s₁.recv.receiveQueue.len (show Reads s₁.recv
        (SinkProgress.mk s₁.recv buffer []).delivered _ from .nil hconsume.recvWf.wf)
    rw [heq]
    have hread := hconsume.readSteps.trans (readSteps_of_reads hconsume.recvWf hreads)
    cases found with
    | false =>
      rw [hnone rfl] at hread
      refine ⟨_, _, none, rfl, hread⟩
    | true =>
      dsimp only
      obtain ⟨s₂, heq₂, hdrain⟩ := completeReceiveDrain_eq hread.recvWf
        s₁.recv.advertisedWindow nowNanos
      rw [heq₂]
      refine ⟨s₂, _, some progress.delivered, rfl, ?_⟩
      have hall := hread.trans hdrain.readSteps
      rw [append_nil] at hall
      apply hall

/-! ### The arrival of a segment -/

/-- The sequence space of a received segment is its payload and its FIN. -/
theorem receiveSequenceLen_eq (packet : TcpPacket) :
  receiveSequenceLen packet =
    packet.payload.length + (if packet.flags.contains .fin then 1 else 0)
  := by
  have hlen := packet.payload_lt
  have hmax : maxTcpPayloadBytes = 2 ^ 16 := rfl
  have hword : maxWord 32 = 2 ^ 32 - 1 := rfl
  rw [receiveSequenceLen, satCast_eq (by omega), satAdd_eq]
  split <;> omega

/-- The segment lies in the window of the socket. -/
def Admits (s : TcpSocket C) (packet : TcpPacket) : Prop :=
  InWindow s.recv.receiveNext packet.sequence (receiveSequenceLen packet)

/-- What a segment does to the receiver: its payload may arrive, then its FIN may be
noted, and nothing else is seen. -/
structure Absorbs (packet : TcpPacket) (s s' : TcpSocket C) : Prop where
  recvWf : s'.RecvWf
  steps : ∃ ρ₁ ρ₂ events,
    (ρ₁ = s.receiver ∨
      s.Admits packet ∧
        Step s.receiver (.arrived packet.sequence packet.payload) ρ₁) ∧
    (ρ₂ = ρ₁ ∨
      s.Admits packet ∧ packet.flags.contains .fin = true ∧
        Step ρ₁ (.fin (advance packet.sequence packet.payload.length)) ρ₂) ∧
    Steps ρ₂ events s'.receiver ∧ ∀ event ∈ events, event = .quiet

theorem Absorbs.receivePhase_ne_unknown (h : Absorbs packet s s')
    (hknown : s.state.receivePhase ≠ .unknown) :
  s'.state.receivePhase ≠ .unknown
  := by
  obtain ⟨ρ₁, ρ₂, events, harrive, hnote, hsteps, -⟩ := h.steps
  apply hsteps.phase_ne_unknown
  have h₁ : ρ₁.phase ≠ .unknown := by
    obtain rfl | ⟨-, hstep⟩ := harrive
    · apply hknown
    · apply (Steps.single hstep).phase_ne_unknown hknown
  obtain rfl | ⟨-, -, hstep⟩ := hnote
  · apply h₁
  · apply (Steps.single hstep).phase_ne_unknown h₁

variable {s₁ : TcpSocket C}

theorem Absorbs.of_gone (h : Absorbs packet s₁ s') (hphase : s.state.receivePhase.early = false)
    (hgone : s₁.state.receivePhase = .gone) (hrecv : s₁.recv = s.recv) :
  Absorbs packet s s'
  := by
  obtain ⟨hwf, ρ₁, ρ₂, events, harrive, hnote, hsteps, hquiet⟩ := h
  have hquiet' : ∀ event ∈ ReceiveEvent.quiet :: events, event = .quiet := by
    simpa using hquiet
  have hreceiver : s₁.receiver = ⟨.gone, s.receiver.inbound⟩ := by
    rw [receiver, hgone, hrecv, receiver]
  rw [hreceiver] at harrive
  rw [Admits, hrecv] at hnote
  obtain rfl | ⟨-, hstep⟩ := harrive
  · obtain rfl | ⟨hadmits, hflag, hstep⟩ := hnote
    · refine ⟨hwf, _, _, .quiet :: events, .inl rfl, .inl rfl, .cons .close hsteps, hquiet'⟩
    · cases hstep with
      | noteFin _ hahead =>
        have hnote := Step.noteFin (i := s.receiver.inbound) hphase hahead
        refine ⟨hwf, _, _, .quiet :: events, .inl rfl, .inr ⟨hadmits, hflag, hnote⟩,
          .cons .close hsteps, hquiet'⟩
  · cases hstep

theorem QuietSteps.absorbs (packet : TcpPacket) (h : QuietSteps s s') :
  Absorbs packet s s'
  := by
  obtain ⟨events, hsteps, hquiet⟩ := h.steps
  refine ⟨h.recvWf, _, _, events, .inl rfl, .inl rfl, hsteps, hquiet⟩

theorem Absorbs.trans_quiet (h : Absorbs packet s s') (h' : QuietSteps s' s'') :
  Absorbs packet s s''
  := by
  obtain ⟨ρ₁, ρ₂, events, harrive, hfin, hsteps, hquiet⟩ := h.steps
  obtain ⟨events', hsteps', hquiet'⟩ := h'.steps
  refine ⟨h'.recvWf, ρ₁, ρ₂, events ++ events', harrive, hfin, hsteps.append hsteps', ?_⟩
  apply forall_mem_append.mpr ⟨hquiet, hquiet'⟩

theorem noteReceiveFin_steps (hwf : s.RecvWf) (hphase : s.state.receivePhase.early = false)
    (sequence : SequenceNumber) {payloadLen : Nat} (hlen : payloadLen < maxTcpPayloadBytes)
    (nowNanos : Nat) :
  (s.noteReceiveFin sequence payloadLen nowNanos).1.RecvWf ∧
    ∃ ρ events,
      (ρ = s.receiver ∨ Step s.receiver (.fin (advance sequence payloadLen)) ρ) ∧
      Steps ρ events (s.noteReceiveFin sequence payloadLen nowNanos).1.receiver ∧
      ∀ event ∈ events, event = .quiet
  := by
  have hmax : maxTcpPayloadBytes = 2 ^ 16 := rfl
  rw [noteReceiveFin, segmentEndFromParts_eq _ (by omega)]
  split
  · have hquiet := SameRecv.quietSteps
      (.of_recv (.refl s) (requestAck_keeps s.recv)) hwf
    obtain ⟨events, hsteps, hall⟩ := hquiet.steps
    refine ⟨hquiet.recvWf, s.receiver, events, .inl rfl, hsteps, hall⟩
  · rename_i hahead
    rw [Bool.not_eq_true] at hahead
    -- the FIN is noted, and consumed at once if nothing is missing before it
    have hnoted : RecvWf { s with recv := { s.recv with
        receiveFinSequence := some (advance sequence payloadLen) } } := by
      refine ⟨{ hwf.wf with }, fun hopening => ?_⟩
      rw [show _ = false from hphase] at hopening
      contradiction
    have hstep : Step s.receiver (.fin (advance sequence payloadLen))
        (receiver { s with recv := { s.recv with
          receiveFinSequence := some (advance sequence payloadLen) } }) :=
      .noteFin hphase hahead
    have hconsume := consumePendingReceiveFin_quiet hnoted nowNanos
    split
    · rename_i s₁ heq
      rw [heq] at hconsume
      obtain ⟨events, hsteps, hall⟩ := hconsume.steps
      refine ⟨hconsume.recvWf, _, events, .inr hstep, hsteps, hall⟩
    · rename_i s₁ heq
      rw [heq] at hconsume
      have hquiet := hconsume.trans (SameRecv.quietSteps
        (.of_recv (.refl s₁) (requestAck_keeps s₁.recv)) hconsume.recvWf)
      obtain ⟨events, hsteps, hall⟩ := hquiet.steps
      refine ⟨hquiet.recvWf, _, events, .inr hstep, hsteps, hall⟩

theorem processFin_absorbs (hadmits : packet.flags.contains .fin = true → s.Admits packet)
    (hwf : s'.RecvWf) (hphase : s'.state.receivePhase.early = false) (harrive : s'.receiver =
      s.receiver ∨ s.Admits packet ∧ Step s.receiver (.arrived packet.sequence
      packet.payload) s'.receiver) (nowNanos : Nat) :
  Absorbs packet s (s'.processFin packet nowNanos).1
  := by
  rw [processFin]
  split
  · rename_i hfin
    obtain ⟨hwf', ρ, events, hstep, hsteps, hquiet⟩ :=
      noteReceiveFin_steps hwf hphase packet.sequence packet.payload_lt nowNanos
    refine ⟨hwf', _, ρ, events, harrive, ?_, hsteps, hquiet⟩
    obtain hsame | hstep := hstep
    · left
      apply hsame
    · right
      refine ⟨hadmits hfin, hfin, hstep⟩
  · refine ⟨hwf, _, _, [], harrive, .inl rfl, .nil, by simp⟩

theorem processText_eq (action : Option RecoveryAction) (nowNanos : Nat) (hwf : s.RecvWf)
    (hphase : s.state.receivePhase.early = false) (hacceptable : s.recv.receiveSequenceAcceptable
      packet.sequence (receiveSequenceLen packet) = true) :
  ∃ s' outcome, s.processText packet action nowNanos = .ok (s', outcome) ∧ Absorbs packet s s'
  := by
  have hlen := receiveSequenceLen_eq packet
  have hfin (hfin : packet.flags.contains .fin = true) : s.Admits packet := by
    apply inWindow_of_acceptable hwf.wf _ hacceptable
    rw [hlen, if_pos hfin]
    omega
  rw [processText]
  split
  · rename_i hreceives
    obtain ⟨hne, hreceives⟩ := hreceives
    rw [receivesData_iff] at hreceives
    have hpos := length_pos_iff.mpr hne
    have hadmits : s.Admits packet := by
      apply inWindow_of_acceptable hwf.wf _ hacceptable
      omega
    obtain ⟨recv, readable, heq, hwf₁, harrives⟩ :=
      receivePayload_eq packet.payload_lt packet.sequence nowNanos hwf.wf hpos
    rw [heq]
    have hwf₁' : RecvWf { s with recv } := ⟨hwf₁, fun hopening => absurd hopening (by simp [hphase])⟩
    have harrive : receiver { s with recv } = s.receiver ∨
        s.Admits packet ∧ Step s.receiver (.arrived packet.sequence packet.payload)
          (receiver { s with recv }) := by
      simp only [receiver, hreceives]
      obtain hsame | harrives := harrives
      · left
        rw [hsame]
      · right
        apply And.intro hadmits (.arrive hne packet.payload_lt harrives)
    cases readable with
    | none =>
      have hkeeps := recv.refreshAdvertisedWindow_keeps.trans
        (requestDuplicateAck_keeps _)
      refine ⟨_, _, rfl, ?_⟩
      have habsorbs : Absorbs packet s { s with recv } :=
        ⟨hwf₁', _, _, [], harrive, .inl rfl, .nil, by simp⟩
      apply habsorbs.trans_quiet (SameRecv.quietSteps _ hwf₁')
      apply SameRecv.of_recv (.refl _) hkeeps
    | some readable =>
      refine ⟨_, _, rfl, ?_⟩
      apply processFin_absorbs hfin hwf₁' hphase harrive
  · refine ⟨_, _, rfl, ?_⟩
    apply processFin_absorbs hfin hwf hphase (.inl rfl)

section Arrival

variable {action : Option RecoveryAction}

variable [CongestionControl C] {packet : TcpPacket} {nowNanos : Nat} {outcome : TcpSegmentOutcome}

theorem acknowledgeSent_recv {acknowledgement : SequenceNumber} {appLimited eligible : Bool}
    {timestamp : Option TcpTimestampOption} (h : s.acknowledgeSent acknowledgement nowNanos
      appLimited timestamp eligible = .ok (s', action)) :
  s'.recv = s.recv ∧
    (s'.state.receivePhase = s.state.receivePhase ∨ s'.state.receivePhase = .gone)
  := by
  rw [acknowledgeSent] at h
  split at h
  · split at h <;> cases h <;> apply And.intro rfl (.inl rfl)
  · obtain ⟨⟨s₁, action₁⟩, heq, hmap⟩ := map_eq_ok h
    cases hmap
    rw [advanceSent] at heq
    split at heq <;> cases heq
    rename_i send hsettle
    have hfin : (noteFinAcknowledged { s with send } acknowledgement nowNanos).recv = s.recv ∧
        ((noteFinAcknowledged { s with send } acknowledgement nowNanos).state.receivePhase =
          s.state.receivePhase ∨
        (noteFinAcknowledged { s with send } acknowledgement nowNanos).state.receivePhase =
          .gone) := by
      rw [noteFinAcknowledged]
      split
      · cases hstate : s.state <;> simp [TcpState.receivePhase]
      · apply And.intro rfl (.inl rfl)
    generalize noteFinAcknowledged { s with send } acknowledgement nowNanos = s₁ at hfin ⊢
    have hrefresh : (s₁.refreshPersistAfterAck nowNanos).recv = s₁.recv ∧
        (s₁.refreshPersistAfterAck nowNanos).state = s₁.state := by
      rw [refreshPersistAfterAck]
      split
      · apply And.intro rfl rfl
      · rw [armPersistTimerIfNeeded]
        repeat' split
        all_goals apply And.intro rfl rfl
    simp only [hrefresh]
    apply hfin

theorem processAck_recv (h : s.processAck packet nowNanos = .ok (s', action)) :
  s'.recv = s.recv ∧
    (s'.state.receivePhase = s.state.receivePhase ∨ s'.state.receivePhase = .gone)
  := by
  rw [processAck] at h
  dsimp only at h
  split at h
  · cases h
    apply And.intro rfl (.inl rfl)
  · obtain ⟨peerTimestamp, heq⟩ := recordPeerTimestamp_eq
      { s with send := s.send.updatePeerReceiveWindow packet.windowSize } packet.options.timestamp
    rw [heq] at h
    apply acknowledgeSent_recv h

theorem closeWithTimeout_sameRecv (s : TcpSocket C) (reason : TcpStateChangeReason)
    (nowNanos : Nat) :
  SameRecv s (s.closeWithTimeout reason nowNanos).1
  := by
  apply SameRecv.of_send
  apply SameRecv.of_setState _ (.inr rfl)

section

variable (hwf : s.RecvWf) (hphase : s.state.receivePhase.early = false)

include hwf hphase

/-- What the text of a segment does to a socket that processed its acknowledgement. -/
theorem processAck_absorbs
    (hacceptable : s.recv.receiveSequenceAcceptable packet.sequence (receiveSequenceLen packet) =
      true) (h : s.processAck packet nowNanos = .ok (s₁, action)) :
  ∃ s' outcome, s₁.processText packet action nowNanos = .ok (s', outcome) ∧
    Absorbs packet s s'
  := by
  obtain ⟨hrecv, hstate⟩ := processAck_recv h
  have hphase₁ : s₁.state.receivePhase.early = false := by
    obtain hstate | hstate := hstate <;> rw [hstate]
    · apply hphase
    · rfl
  have hwf₁ : s₁.RecvWf := by
    constructor
    · rw [hrecv]
      apply hwf.wf
    · rw [hphase₁]
      nofun
  obtain ⟨s', outcome, heq, habsorbs⟩ := processText_eq action nowNanos hwf₁ hphase₁
    (by rw [hrecv]; apply hacceptable)
  refine ⟨s', outcome, heq, ?_⟩
  obtain hstate | hgone := hstate
  · have hreceiver : s₁.receiver = s.receiver := by
      rw [receiver, receiver, hrecv, hstate]
    refine ⟨habsorbs.recvWf, ?_⟩
    have hsteps := habsorbs.steps
    rw [hreceiver, Admits, hrecv] at hsteps
    apply hsteps
  · apply habsorbs.of_gone hphase hgone hrecv

theorem examineSegment_absorbs (h : s.examineSegment packet nowNanos = .ok (s', outcome)) :
  Absorbs packet s s'
  := by
  have hquiet (hsame : SameRecv s s') : Absorbs packet s s' := (hsame.quietSteps hwf).absorbs packet
  revert h
  fun_cases examineSegment s packet nowNanos with
  | case1 | case6 =>
    rintro ⟨⟩
    apply hquiet (s.closeWithTimeout_sameRecv _ nowNanos)
  | case2 | case3 =>
    rintro ⟨⟩
    apply hquiet (.refl s)
  | case4 =>
    rintro ⟨⟩
    apply hquiet (.of_recv (.refl s) (requestAck_keeps _))
  | case5 =>
    rintro ⟨⟩
    apply hquiet (.of_recv (.refl s) _)
    apply (recordOldPayload_keeps _ _ _).trans (requestDuplicateAck_keeps _)
  | case7 => rintro ⟨⟩
  | case8 acceptable _ _ _ hacceptable _ s₁ action hack =>
    intro h
    obtain ⟨s₂, outcome₂, heq, habsorbs⟩ := processAck_absorbs hwf hphase
      (by simpa [acceptable] using hacceptable) hack
    cases h.symm.trans heq
    apply habsorbs

theorem onSegmentSynchronised_absorbs
    (h : s.onSegmentSynchronised packet nowNanos = .ok (s', outcome)) :
  Absorbs packet s s'
  := by
  have hsame : SameRecv s (s.noteSegmentReceived packet) :=
    .of_recv (.refl s) (.of_acks (.refl _))
  obtain ⟨hwf', hsteps⟩ := examineSegment_absorbs (s := s.noteSegmentReceived packet)
    (hsame.quietSteps hwf).recvWf hphase h
  refine ⟨hwf', hsteps⟩

end

theorem onSegmentSynReceived_quiet (hwf : s.RecvWf) (hstate : s.state = .synReceived)
    (h : s.onSegmentSynReceived packet nowNanos = .ok (s', outcome)) :
  QuietSteps s s'
  := by
  obtain ⟨peerTimestamp, htimestamp⟩ := recordPeerTimestamp_eq
    { s with send := s.send.updatePeerReceiveWindow packet.windowSize } packet.options.timestamp
  simp only [onSegmentSynReceived, htimestamp] at h
  repeat' split at h
  all_goals cases h
  · apply (SameRecv.of_setState _ (.inr rfl)).quietSteps hwf
  · apply (SameRecv.refl s).quietSteps hwf
  · apply (SameRecv.refl s).quietSteps hwf
  · rename_i s₁ action heq
    obtain ⟨hrecv, -⟩ := acknowledgeSent_recv heq
    have hphase : s.state.receivePhase = .opening := by
      rw [hstate]
      rfl
    apply QuietSteps.single
    · refine ⟨?_, fun hopening => ?_⟩
      · rw [recv_setState, hrecv]
        apply hwf.wf
      · rw [state_setState] at hopening
        contradiction
    · rw [receiver, receiver, hphase, state_setState, recv_setState, hrecv]
      apply Step.establish
  · apply (SameRecv.refl s).quietSteps hwf

omit [CongestionControl C] in
theorem recv_recordPeerOptions (s : TcpSocket C) (packet : TcpPacket) :
  (s.recordPeerOptions packet).recv = s.recv.recordPeerOptions packet
  := by
  rw [recordPeerOptions]
  obtain ⟨peerTimestamp, heq⟩ := recordPeerTimestamp_eq
    { s with
      send := s.send.recordPeerOptions packet
      recv := s.recv.recordPeerOptions packet } packet.options.timestamp
  rw [heq]

omit [CongestionControl C] in
theorem wf_setReceiveBase (h : s.recv.Wf) (packet : TcpPacket) :
  ((s.recordPeerOptions packet).recv.setReceiveBase (packet.sequence + 1)).Wf
  := by
  rw [recv_recordPeerOptions]
  refine { h with window_le := refreshedWindow_le _, scale_le := ?_ }
  show (if packet.options.windowScale.isSome then tcpLocalWindowScale else 0) ≤ tcpLocalWindowScale
  split
  · apply Nat.le_refl
  · apply Nat.zero_le

theorem establishSynSent_recv (hwf : s.recv.Wf)
    (h : s.establishSynSent packet nowNanos = .ok (s', outcome)) :
  s'.state = .established ∧ s'.recv.Wf
  := by
  have hbase := wf_setReceiveBase (s := s) hwf packet
  rw [establishSynSent] at h
  split at h <;> cases h
  rename_i s₂ action heq
  obtain ⟨hrecv, -⟩ := acknowledgeSent_recv heq
  refine ⟨state_setState _ _ _, ?_⟩
  rw [recv_setState, hrecv]
  apply (Keeps.of_acks (.refl _)).wf hbase

/-- What a segment does to the receiver of a socket that knows its peer's sequence
numbers. -/
theorem onSegment_absorbs (hwf : s.RecvWf) (hstate : s.state ≠ .synSent)
    (h : s.onSegment packet nowNanos = .ok (s', outcome)) :
  Absorbs packet s s'
  := by
  have hquiet (hsame : SameRecv s s') : Absorbs packet s s' := (hsame.quietSteps hwf).absorbs packet
  rw [onSegment] at h
  cases hs : s.state <;> simp only [hs] at h
  case closed | listen =>
    cases h
    apply hquiet (.refl s)
  case synSent => contradiction
  case synReceived => apply (onSegmentSynReceived_quiet hwf hs h).absorbs packet
  case timeWait =>
    rw [onSegmentTimeWait] at h
    split at h <;> cases h
    · apply hquiet
      refine ⟨?_, .inl ?_⟩
      · rw [recv_enterTimeWait]
        apply requestAck_keeps
      · simp [hs]
    · apply hquiet (.refl s)
  all_goals
    apply onSegmentSynchronised_absorbs hwf _ h
    rw [hs]
    rfl

end Arrival

/-! ### Operations -/

variable {S : Type} [TcpReceiveBuffer S] [LawfulReceiveBuffer S] [CongestionControl C]
  {op : SocketOp S} {output : SocketOutput S}

/-- The bytes an operation hands to the application. -/
def delivered (output : SocketOutput S) : Bytes :=
  match output with
  | .bytes bytes => bytes.getD []
  | .buffer _ bytes => bytes.getD []
  | _ => []

theorem step_readSteps (hwf : s.RecvWf) (hsegment : ∀ packet nowNanos, op ≠ .onSegment packet nowNanos)
    (habort : op ≠ .abort) (h : s.step op = .ok (s', output)) :
  ReadSteps s (delivered output) s'
  := by
  have hquiet (hsame : SameRecv s s') : ReadSteps s [] s' := (hsame.quietSteps hwf).readSteps
  cases op with
  | queueSendBytes bytes =>
    obtain ⟨⟨s₁, count⟩, heq, hmap⟩ := map_eq_ok h
    cases hmap
    apply hquiet (queueSendBytes_sameRecv heq)
  | takeTransmitSegment nowNanos budget =>
    obtain ⟨⟨s₁, segment⟩, heq, hmap⟩ := map_eq_ok h
    cases hmap
    apply hquiet (takeTransmitSegment_sameRecv heq)
  | retransmit nowNanos tcpSegmentMtu =>
    cases h
    apply hquiet (s.retransmit_sameRecv nowNanos tcpSegmentMtu)
  | markPathMtuReduced sequence =>
    cases h
    apply hquiet (.of_send _ (.refl s))
  | sendSyn nowNanos =>
    obtain ⟨⟨s₁, header⟩, heq, hmap⟩ := map_eq_ok h
    cases hmap
    apply hquiet (sendHandshake_sameRecv (.inl heq))
  | sendSynAck nowNanos =>
    obtain ⟨⟨s₁, header⟩, heq, hmap⟩ := map_eq_ok h
    cases hmap
    apply hquiet (sendHandshake_sameRecv (.inr heq))
  | sendAck nowNanos =>
    rw [step] at h
    split at h <;> cases h
    · apply hquiet (.refl s)
    · apply hquiet (.of_recv (.refl s) (.of_acks (noteAckEmitted_keeps _)))
  | expireTimers nowNanos =>
    cases h
    apply hquiet (s.expireTimers_sameRecv nowNanos)
  | receive maxBytes nowNanos =>
    obtain ⟨s₁, bytes, heq, hread⟩ := receive_eq hwf maxBytes nowNanos
    rw [step, heq] at h
    cases h
    apply hread
  | receiveInto buffer nowNanos =>
    obtain ⟨s₁, buffer', bytes, heq, hread⟩ := receiveInto_eq hwf buffer nowNanos
    rw [step, heq] at h
    cases h
    apply hread
  | onSegment packet nowNanos => apply absurd rfl (hsegment packet nowNanos)
  | closeSend =>
    cases h
    apply hquiet s.closeSend_sameRecv
  | abort => contradiction

end TcpSocket

end Helios
