import Helios.Netstack.TcpTransmitSteps

/-!
# What a socket does with a segment is what its sender does

The arrival of a segment, the reads and the timers, as steps of the sender: an
acknowledgement that advances is one step, and everything that concerns the receiving
half leaves the sender alone.
-/

namespace Helios

open Machine Serial Sender TcpState TcpInFlightSegment

namespace TcpSocket

variable {nowNanos : Nat}

variable {C : Type} {s s' : TcpSocket C} {first : SequenceNumber}
  {timestamp : Option TcpTimestampOption} {action : Option RecoveryAction} {bytes : Option Bytes}
  {s'' : TcpSocket C}

/-! ### Changes of state -/

@[simp]
theorem state_setState (s : TcpSocket C) (next : TcpState) (reason : TcpStateChangeReason) :
  (s.setState next reason).state = next
  := by
  rw [setState]
  split
  · assumption
  · rfl

@[simp]
theorem send_setState (s : TcpSocket C) (next : TcpState) (reason : TcpStateChangeReason) :
  (s.setState next reason).send = s.send
  := by
  rw [setState]
  split <;> rfl

@[simp]
theorem recv_setState (s : TcpSocket C) (next : TcpState) (reason : TcpStateChangeReason) :
  (s.setState next reason).recv = s.recv
  := by
  rw [setState]
  split <;> rfl

@[simp]
theorem state_enterTimeWait (s : TcpSocket C) (nowNanos : Nat) :
  (s.enterTimeWait nowNanos).state = .timeWait
  := by
  simp [enterTimeWait]

@[simp]
theorem send_enterTimeWait (s : TcpSocket C) (nowNanos : Nat) :
  (s.enterTimeWait nowNanos).send = s.send
  := by
  simp [enterTimeWait]

@[simp]
theorem recv_enterTimeWait (s : TcpSocket C) (nowNanos : Nat) :
  (s.enterTimeWait nowNanos).recv = s.recv
  := by
  simp [enterTimeWait]

/-- A change that the sending half does not see: its record stays, and the state stays
or moves within its phase.  A closed socket stays closed. -/
structure SameSend (s s' : TcpSocket C) : Prop where
  send_eq : s'.send = s.send
  state : s'.state = s.state ∨
    s'.state.sendPhase = s.state.sendPhase ∧ s.state.sendPhase ≠ .opening ∧ s.state ≠ .closed

namespace SameSend

theorem refl (s : TcpSocket C) :
  SameSend s s
  := ⟨rfl, .inl rfl⟩

section

variable (h : SameSend s s')

include h

theorem sendPhase_eq :
  s'.state.sendPhase = s.state.sendPhase
  := by
  obtain hstate | ⟨hphase, -⟩ := h.state
  · rw [hstate]
  · apply hphase

theorem trans (h' : SameSend s' s'') :
  SameSend s s''
  := by
  constructor
  · rw [h'.send_eq, h.send_eq]
  · obtain hstate | ⟨hphase, hnot⟩ := h'.state
    · rw [hstate]
      apply h.state
    · right
      obtain ⟨hnot, hclosed⟩ := hnot
      rw [h.sendPhase_eq] at hphase hnot
      refine ⟨hphase, hnot, fun hs => ?_⟩
      obtain hstate | ⟨-, -, hopen⟩ := h.state
      · apply hclosed (by rw [hstate, hs])
      · contradiction

theorem closed (hclosed : s.state = .closed) :
  s'.state = .closed
  := by
  obtain hstate | ⟨-, -, hopen⟩ := h.state
  · rw [hstate, hclosed]
  · contradiction

theorem sender_eq :
  s'.sender = s.sender
  := by
  rw [sender, sender, h.send_eq, h.sendPhase_eq]

theorem sendWf (hwf : s.SendWf) :
  s'.SendWf
  := by
  obtain hstate | ⟨hphase, hnot, -⟩ := h.state
  · constructor <;> rw [h.send_eq]
    · apply hwf.mss_pos
    · apply hwf.mss_le
    · rw [hstate]
      apply hwf.syn_unsent
    · rw [hstate]
      apply hwf.synAck_unsent
  · rw [← hphase] at hnot
    apply hwf.of_not_opening hnot
    rw [h.send_eq]

end

end SameSend

/-! ### The receiving half -/

theorem notePeerFin_sameSend (s : TcpSocket C) (nowNanos : Nat) :
  SameSend s (s.notePeerFin nowNanos)
  := by
  rw [notePeerFin]
  cases hstate : s.state <;> simp only
  case established | finWait1 | finWait2 => refine ⟨by simp, .inr ?_⟩; simp [hstate, sendPhase]
  all_goals apply SameSend.refl

theorem SameSend.of_recv (recv : ReceiveSide) (h : SameSend s s') :
  SameSend s { s' with recv }
  := ⟨h.send_eq, h.state⟩

theorem consumePendingReceiveFin_sameSend (s : TcpSocket C) (nowNanos : Nat) :
  SameSend s (s.consumePendingReceiveFin nowNanos).1
  := by
  rw [consumePendingReceiveFin]
  split
  · apply SameSend.refl
  · apply SameSend.of_recv
    apply notePeerFin_sameSend

theorem noteReceiveFin_sameSend (s : TcpSocket C) (sequence : SequenceNumber)
    (payloadLen nowNanos : Nat) :
  SameSend s (s.noteReceiveFin sequence payloadLen nowNanos).1
  := by
  rw [noteReceiveFin]
  split
  · apply SameSend.of_recv _ (.refl s)
  · have hconsume := consumePendingReceiveFin_sameSend { s with
      recv := { s.recv with
        receiveFinSequence := some (segmentEndFromParts sequence payloadLen) } } nowNanos
    split
    · rename_i heq
      rw [heq] at hconsume
      apply SameSend.trans (.of_recv _ (.refl s)) hconsume
    · rename_i heq
      rw [heq] at hconsume
      apply SameSend.of_recv
      apply SameSend.trans (.of_recv _ (.refl s)) hconsume

theorem processFin_sameSend (s : TcpSocket C) (packet : TcpPacket) (nowNanos : Nat) :
  SameSend s (s.processFin packet nowNanos).1
  := by
  rw [processFin]
  split
  · apply noteReceiveFin_sameSend
  · apply SameSend.refl

theorem processText_sameSend {packet : TcpPacket} {outcome : TcpSegmentOutcome}
    (h : s.processText packet action nowNanos = .ok (s', outcome)) :
  SameSend s s'
  := by
  rw [processText] at h
  split at h
  · split at h
    · contradiction
    · cases h
      apply SameSend.of_recv _ (.refl s)
    · cases h
      apply SameSend.trans (.of_recv _ (.refl s))
      apply processFin_sameSend
  · cases h
    apply processFin_sameSend

theorem completeReceiveDrain_sameSend {previousWindow : Nat}
    (h : s.completeReceiveDrain previousWindow nowNanos = .ok s') :
  SameSend s s'
  := by
  rw [completeReceiveDrain] at h
  split at h
  · contradiction
  · rename_i recv _ _
    have hconsume := SameSend.trans (.of_recv recv (.refl s))
      (consumePendingReceiveFin_sameSend { s with recv } nowNanos)
    simp only at h
    split at h <;> cases h <;> apply SameSend.of_recv _ hconsume

theorem receive_sameSend {maxBytes : Nat} (h : s.receive maxBytes nowNanos = .ok (s', bytes)) :
  SameSend s s'
  := by
  rw [receive] at h
  split at h
  · cases h
    apply SameSend.refl
  · have hconsume := consumePendingReceiveFin_sameSend s nowNanos
    simp only at h
    split at h
    · contradiction
    · cases h
      apply hconsume
    · rename_i recv _ _
      obtain ⟨drained, hdrain, heq⟩ := Transition.map_eq_ok h
      cases heq
      apply SameSend.trans (.of_recv recv hconsume)
      apply completeReceiveDrain_sameSend hdrain

theorem receiveInto_sameSend {S : Type} [TcpReceiveBuffer S] {buffer buffer' : S}
    (h : s.receiveInto buffer nowNanos = .ok (s', buffer', bytes)) :
  SameSend s s'
  := by
  rw [receiveInto] at h
  split at h
  · cases h
    apply SameSend.refl
  · have hconsume := consumePendingReceiveFin_sameSend s nowNanos
    simp only at h
    split at h
    · contradiction
    · cases h
      apply SameSend.of_recv _ hconsume
    · rename_i progress _
      obtain ⟨drained, hdrain, heq⟩ := Transition.map_eq_ok h
      cases heq
      apply SameSend.trans (.of_recv progress.recv hconsume)
      apply completeReceiveDrain_sameSend hdrain

/-- When its timers expire, a socket only owes an acknowledgement, or leaves `TIME-WAIT`. -/
theorem expireTimers_eq (s : TcpSocket C) (nowNanos : Nat) :
  SameSend s (s.expireTimers nowNanos) ∨
    s.state = .timeWait ∧ (s.expireTimers nowNanos).state = .closed ∧
      (s.expireTimers nowNanos).send = s.send
  := by
  have hdelayed : ∃ recv, s.expireDelayedAck nowNanos = { s with recv } := by
    rw [expireDelayedAck]
    split
    · refine ⟨_, rfl⟩
    · use s.recv
  obtain ⟨recv, heq⟩ := hdelayed
  rw [expireTimers, heq]
  split
  · rename_i hexpired
    right
    refine ⟨hexpired.1, ?_, ?_⟩ <;> simp
  · left
    apply SameSend.of_recv _ (.refl s)

/-! ### Acknowledgements -/

section Acknowledge

variable [CongestionControl C] {acknowledgement : SequenceNumber} {nowNanos : Nat}

omit [CongestionControl C] in
theorem noteFinAcknowledged_sameSend (s : TcpSocket C) (acknowledgement : SequenceNumber)
    (nowNanos : Nat) :
  SameSend s (s.noteFinAcknowledged acknowledgement nowNanos)
  := by
  rw [noteFinAcknowledged]
  split
  · cases hstate : s.state <;> simp only
    case finWait1 | closing | lastAck => refine ⟨by simp, .inr ?_⟩; simp [hstate, sendPhase]
    all_goals apply SameSend.refl
  · apply SameSend.refl

/-- What an advancing acknowledgement leaves of the sender: it is settled, and the probe
may be forgotten. -/
def Settled (σ : Sender) (acknowledgement : SequenceNumber) (σ' : Sender) : Prop :=
  σ' = σ.settle acknowledgement ∨ σ' = { σ.settle acknowledgement with probe := none }

/-- An advancing acknowledgement settles the sender.  The phase is given apart: the
socket leaves the opening states only after this. -/
theorem advanceSent_eq {appLimited : Bool} (hinv : Inv first s.sender)
    (hsafe : s.sender.AckSafe acknowledgement) :
  ∃ s' action, s.advanceSent acknowledgement nowNanos appLimited timestamp = .ok (s', action) ∧
    s'.state.sendPhase = s.state.sendPhase ∧
    s'.send.peerMaxSegmentSize = s.send.peerMaxSegmentSize ∧
    Settled s.sender acknowledgement
      (s'.send.sender (s.sender.settle acknowledgement).phase)
  := by
  rw [advanceSent]
  obtain ⟨send, heq, hsender, hmss⟩ := SendSide.settleAck_eq
    (s.send.ackSampleTiming acknowledgement nowNanos timestamp).rttNanos hinv hsafe
  simp only [heq]
  have hsame := noteFinAcknowledged_sameSend { s with send } acknowledgement nowNanos
  have hsend := hsame.send_eq
  have hphase := hsame.sendPhase_eq
  generalize ({ s with send }.noteFinAcknowledged acknowledgement nowNanos) = s₁ at hsend hphase ⊢
  obtain ⟨persistTimer, hrefresh⟩ | ⟨persistTimer, hrefresh⟩ :=
    s₁.refreshPersistAfterAck_eq nowNanos
  · rw [hrefresh]
    refine ⟨_, _, rfl, hphase, ?_, ?_⟩
    · simp only [hsend, hmss]
    · right
      simp only [hsend]
      rw [sender, ← hsender]
      rfl
  · rw [hrefresh]
    refine ⟨_, _, rfl, hphase, ?_, ?_⟩
    · simp only [hsend, hmss]
    · left
      simp only [hsend]
      rw [sender, ← hsender]
      rfl

theorem noteDuplicateAck_sender (send : SendSide C) (phase : SendPhase) (nowNanos : Nat) :
  (send.noteDuplicateAck nowNanos).1.sender phase = send.sender phase ∧
    (send.noteDuplicateAck nowNanos).1.peerMaxSegmentSize = send.peerMaxSegmentSize
  := by
  rw [SendSide.noteDuplicateAck]
  split
  · apply And.intro rfl rfl
  · dsimp only
    split <;> apply And.intro rfl rfl

/-- An acknowledgement settles the sender if it advances, and otherwise leaves it. -/
theorem acknowledgeSent_eq (nowNanos : Nat) (appLimited eligible : Bool)
    (timestamp : Option TcpTimestampOption) (hinv : Inv first s.sender)
    (hsafe : le acknowledgement s.send.sendUnacknowledged = false →
      s.sender.AckSafe acknowledgement) :
  ∃ s' action, s.acknowledgeSent acknowledgement nowNanos appLimited timestamp eligible =
      .ok (s', action) ∧
    s'.state.sendPhase = s.state.sendPhase ∧
    s'.send.peerMaxSegmentSize = s.send.peerMaxSegmentSize ∧
    (le acknowledgement s.send.sendUnacknowledged = true ∧ s'.sender = s.sender ∨
      le acknowledgement s.send.sendUnacknowledged = false ∧
        Settled s.sender acknowledgement
          (s'.send.sender (s.sender.settle acknowledgement).phase))
  := by
  rw [acknowledgeSent, sequenceLeq_eq]
  cases hle : le acknowledgement s.send.sendUnacknowledged with
  | true =>
    rw [if_pos rfl]
    split
    · obtain ⟨hsender, hmss⟩ := noteDuplicateAck_sender s.send s.state.sendPhase nowNanos
      refine ⟨_, _, rfl, rfl, hmss, ?_⟩
      left
      apply And.intro rfl hsender
    · refine ⟨s, none, rfl, rfl, rfl, ?_⟩
      left
      apply And.intro rfl rfl
  | false =>
    obtain ⟨s', action, heq, hphase, hmss, hsettled⟩ :=
      advanceSent_eq (s := s) hinv (hsafe hle)
    refine ⟨s', some action, ?_, hphase, hmss, ?_⟩
    · rw [heq]
      rfl
    · right
      apply And.intro rfl hsettled

omit [CongestionControl C] in
theorem applySackBlocks_eq (send : SendSide C) (blocks : TcpSackBlocks) :
  ∃ inFlight, send.applySackBlocks blocks = { send with inFlight } ∧
    inFlight.map flight = send.inFlight.map flight
  := by
  apply List.foldlRecOn (motive := fun after : SendSide C => ∃ inFlight,
    after = { send with inFlight } ∧ inFlight.map flight = send.inFlight.map flight)
  · refine ⟨send.inFlight, rfl, rfl⟩
  · rintro _ ⟨inFlight, rfl, hflights⟩ block _
    rw [SendSide.applySackBlock]
    split
    · refine ⟨_, rfl, ?_⟩
      rw [← hflights, List.map_map]
      apply List.map_congr_left
      intro segment _
      simp only [Function.comp]
      split <;> rfl
    · refine ⟨inFlight, rfl, hflights⟩

end Acknowledge

/-! ### The arrival of a segment -/

section Arrival

variable {safe : Sender → SequenceNumber → Prop} {packet : TcpPacket}
  {nowNanos : Nat} {outcome : TcpSegmentOutcome}

/-- What a segment may do to the sender: at most it acknowledges, and then nothing an
observer sees. -/
structure Reacts (safe : Sender → SequenceNumber → Prop) (packet : TcpPacket)
    (s s' : TcpSocket C) : Prop where
  sendWf : s.SendWf → s'.SendWf
  steps : ∃ events, Steps safe s.sender events s'.sender ∧
    ((∀ event ∈ events, event = .quiet) ∨
      packet.flags.contains .ack = true ∧ ∃ rest, events = .acked packet.acknowledgement :: rest ∧
        ∀ event ∈ rest, event = .quiet)

/-- The socket acts on the acknowledgement of the segment: it advances, it is not beyond
what was sent, and nothing else about the segment keeps the socket from looking at it. -/
def takesAck (s : TcpSocket C) (packet : TcpPacket) : Bool :=
  packet.flags.contains .ack && !packet.flags.contains .rst &&
    !s.send.acknowledgesUnsentData packet.acknowledgement &&
    !sequenceLeq packet.acknowledgement s.send.sendUnacknowledged &&
    match s.state with
    | .closed | .listen | .timeWait => false
    | .synSent | .synReceived => true
    | _ => s.recv.receiveSequenceAcceptable packet.sequence (receiveSequenceLen packet) &&
        !packet.flags.contains .syn

/-- The acknowledgement of a segment is one the sender may take. -/
def AckAllowed (safe : Sender → SequenceNumber → Prop) (s : TcpSocket C) (packet : TcpPacket) :
    Prop :=
  s.takesAck packet = true →
    safe s.sender packet.acknowledgement ∧ s.sender.AckSafe packet.acknowledgement

namespace Reacts

theorem of_sameSend (h : SameSend s s') :
  Reacts safe packet s s'
  := by
  refine ⟨h.sendWf, [], ?_, by simp⟩
  rw [h.sender_eq]
  apply Steps.nil

theorem trans (h : Reacts safe packet s s') (h' : SameSend s' s'') :
  Reacts safe packet s s''
  := by
  obtain ⟨hwf, events, hsteps, hevents⟩ := h
  refine ⟨fun hs => h'.sendWf (hwf hs), events, ?_, hevents⟩
  rw [h'.sender_eq]
  apply hsteps

theorem of_finish (hsend : s'.send.sender .finishing = s.send.sender .finishing)
    (hphase : s'.state.sendPhase = .finishing)
    (hmss : s'.send.peerMaxSegmentSize = s.send.peerMaxSegmentSize) :
  Reacts safe packet s s'
  := by
  refine ⟨fun h => h.of_not_opening (by simp [hphase]) hmss, [.quiet], ?_, by simp⟩
  have hsender : s'.sender = { s.sender with phase := .finishing } := by
    rw [sender, hphase, hsend]
    rfl
  rw [hsender]
  apply Steps.single .finish

theorem of_settled (hack : packet.flags.contains .ack = true)
    (haccepts : s.sender.Accepts packet.acknowledgement)
    (hsafe : safe s.sender packet.acknowledgement)
    (hsettled : Settled s.sender packet.acknowledgement s'.sender)
    (hwf : s.SendWf → s'.SendWf) :
  Reacts safe packet s s'
  := by
  obtain heq | heq := hsettled
  · refine ⟨hwf, [.acked packet.acknowledgement], ?_, .inr ⟨hack, [], rfl, by simp⟩⟩
    rw [heq]
    apply Steps.single (.ack haccepts hsafe)
  · refine ⟨hwf, [.acked packet.acknowledgement, .quiet], ?_, .inr ⟨hack, [.quiet], rfl, by simp⟩⟩
    rw [heq]
    apply Steps.cons (.ack haccepts hsafe) (.single .forgetProbe)

end Reacts

variable [CongestionControl C]

theorem closeWithTimeout_reacts (s : TcpSocket C) (reason : TcpStateChangeReason) :
  Reacts safe packet s (s.closeWithTimeout reason nowNanos).1
  := by
  apply Reacts.of_finish
  · rfl
  · simp [closeWithTimeout, sendPhase]
  · rfl

omit [CongestionControl C] in
theorem recordPeerTimestamp_eq (s : TcpSocket C) (timestamp : Option TcpTimestampOption) :
  ∃ peerTimestamp, s.recordPeerTimestamp timestamp = { s with peerTimestamp }
  := by
  cases timestamp with
  | none => use s.peerTimestamp; rfl
  | some timestamp => use some timestamp; rfl

theorem processAck_reacts (nowNanos : Nat) (hinv : Inv first s.sender)
    (hphase : s.state.sendPhase ≠ .opening) (hack : packet.flags.contains .ack = true)
    (hsent : s.send.acknowledgesUnsentData packet.acknowledgement = false)
    (hallowed : le packet.acknowledgement s.send.sendUnacknowledged = false →
      safe s.sender packet.acknowledgement ∧ s.sender.AckSafe packet.acknowledgement) :
  ∃ s' action, s.processAck packet nowNanos = .ok (s', action) ∧ Reacts safe packet s s'
  := by
  rw [processAck]
  split
  · refine ⟨s, none, rfl, .of_sameSend (.refl s)⟩
  · -- the window, the timestamp and the selective acknowledgements do not concern the sender
    obtain ⟨peerTimestamp, htimestamp⟩ := recordPeerTimestamp_eq
      { s with send := s.send.updatePeerReceiveWindow packet.windowSize } packet.options.timestamp
    obtain ⟨inFlight, hsack, hflights⟩ := applySackBlocks_eq
      (s.send.updatePeerReceiveWindow packet.windowSize) packet.options.sackBlocks
    simp only [htimestamp, hsack]
    generalize hs₁ : ({ s with
      send := { s.send.updatePeerReceiveWindow packet.windowSize with inFlight }
      peerTimestamp } : TcpSocket C) = s₁
    have hsender : s₁.sender = s.sender := by
      subst hs₁
      simp only [sender, SendSide.sender, SendSide.updatePeerReceiveWindow] at hflights ⊢
      rw [hflights]
    have hstate : s₁.state = s.state := by rw [← hs₁]
    have huna : s₁.send.sendUnacknowledged = s.send.sendUnacknowledged := by
      rw [← hs₁]
      rfl
    have hmss₁ : s₁.send.peerMaxSegmentSize = s.send.peerMaxSegmentSize := by
      rw [← hs₁]
      rfl
    rw [← hsender] at hinv
    obtain ⟨s', action, heq, hphase', hmss, hcases⟩ :=
      acknowledgeSent_eq (s := s₁) nowNanos _ _ _ hinv (fun hle => by
        rw [hsender]
        rw [huna] at hle
        apply (hallowed hle).2)
    refine ⟨s', action, heq, ?_⟩
    rw [hstate] at hphase'
    have hwf : s.SendWf → s'.SendWf := by
      intro h
      apply h.of_not_opening
      · rw [hphase']
        apply hphase
      · rw [hmss, hmss₁]
    obtain ⟨-, heq⟩ | ⟨hle, hsettled⟩ := hcases
    · refine ⟨hwf, [], ?_, by simp⟩
      rw [heq, hsender]
      apply Steps.nil
    · rw [huna] at hle
      rw [hsender] at hsettled
      have hkeep : (s.sender.settle packet.acknowledgement).phase = s'.state.sendPhase := by
        rw [hphase']
        apply if_neg hphase
      rw [hkeep] at hsettled
      apply Reacts.of_settled hack _ (hallowed hle).1 hsettled hwf
      rw [Accepts, if_neg (by apply hphase)]
      refine ⟨?_, hle⟩
      rw [SendSide.acknowledgesUnsentData, sequenceLt_eq] at hsent
      apply hsent

/-- The states in which `examineSegment` takes segments. -/
def synchronised (s : TcpSocket C) : Bool :=
  match s.state with
  | .established | .finWait1 | .finWait2 | .closeWait | .closing | .lastAck => true
  | _ => false

section

variable (hinv : Inv first s.sender) (hstate : s.synchronised = true)
  (hallowed : AckAllowed safe s packet)

include hinv hstate hallowed

theorem examineSegment_reacts (h : s.examineSegment packet nowNanos = .ok (s', outcome)) :
  Reacts safe packet s s'
  := by
  have hphase : s.state.sendPhase ≠ .opening := by
    cases hs : s.state <;> simp_all [sendPhase, synchronised]
  revert h
  fun_cases examineSegment s packet nowNanos with
  | case1 | case6 =>
    rintro ⟨⟩
    apply closeWithTimeout_reacts s
  | case2 | case3 =>
    rintro ⟨⟩
    apply Reacts.of_sameSend (.refl s)
  | case4 | case5 =>
    rintro ⟨⟩
    apply Reacts.of_sameSend (.of_recv _ (.refl s))
  | case7 => rintro ⟨⟩
  | case8 acceptable _ hack hsent _ _ s₁ action heq =>
    intro h
    obtain ⟨_, _, heq', hreacts⟩ := processAck_reacts (s := s) nowNanos hinv hphase
      (by simpa using hack) (by simpa using hsent) (fun hle => hallowed (by
        rw [takesAck, sequenceLeq_eq]
        cases hs : s.state <;> simp_all [synchronised, acceptable]))
    cases heq.symm.trans heq'
    apply hreacts.trans (processText_sameSend h)

theorem onSegmentSynchronised_reacts
    (h : s.onSegmentSynchronised packet nowNanos = .ok (s', outcome)) :
  Reacts safe packet s s'
  := by
  have hsame : SameSend s (s.noteSegmentReceived packet) := .of_recv _ (.refl s)
  obtain ⟨hwf, hsteps⟩ := examineSegment_reacts (s := s.noteSegmentReceived packet) hinv hstate
    hallowed h
  refine ⟨fun hs => hwf (hsame.sendWf hs), hsteps⟩

end

omit [CongestionControl C] in
theorem takesAck_of_opening (hinv : Inv first s.sender)
    (hphase : s.state.sendPhase = .opening) (hack : packet.flags.contains .ack = true)
    (hrst : packet.flags.contains .rst = false)
    (hnext : packet.acknowledgement = s.send.sendNext) :
  le packet.acknowledgement s.send.sendUnacknowledged = false ∧ s.takesAck packet = true
  := by
  obtain ⟨hone, hprobe, -⟩ := hinv.opening hphase
  -- the acknowledgement is one ahead of the SYN
  have hle : le packet.acknowledgement s.send.sendUnacknowledged = false := by
    rw [hnext, show s.send.sendNext = advance s.send.sendUnacknowledged 1 from hone.symm,
      Bool.eq_false_iff, ne_eq, ← advance_zero s.send.sendUnacknowledged, advance_advance,
      le_advance_iff _ (by decide) (by decide)]
    decide
  have hprobe : s.send.persistProbe = none := hprobe
  have hsent : s.send.acknowledgesUnsentData packet.acknowledgement = false := by
    rw [SendSide.acknowledgesUnsentData, SendSide.highestSentSequence, hprobe, hnext,
      sequenceLt_eq, lt_irrefl]
  rw [takesAck, sequenceLeq_eq]
  cases hs : s.state <;> simp_all [sendPhase]

theorem establish_reacts {s₁ s₂ : TcpSocket C} (reason : TcpStateChangeReason)
    {appLimited eligible : Bool} (hinv : Inv first s.sender) (hphase : s.state.sendPhase = .opening)
    (hack : packet.flags.contains .ack = true) (hrst : packet.flags.contains .rst = false)
    (hnext : packet.acknowledgement = s.send.sendNext) (hallowed : AckAllowed safe s packet)
    (hsender : s₁.sender = s.sender)
    (hmss : 0 < s₁.send.peerMaxSegmentSize ∧ s₁.send.peerMaxSegmentSize ≤ tcpReceiveSegmentBytes)
    (h : s₁.acknowledgeSent packet.acknowledgement nowNanos appLimited timestamp eligible =
      .ok (s₂, action)) :
  Reacts safe packet s (s₂.setState .established reason)
  := by
  obtain ⟨hle, htakes⟩ := takesAck_of_opening hinv hphase hack hrst hnext
  have huna : s₁.send.sendUnacknowledged = s.send.sendUnacknowledged :=
    congrArg unacknowledged hsender
  obtain ⟨hsafe, hackSafe⟩ := hallowed htakes
  rw [← hsender] at hinv hackSafe
  obtain ⟨s₂', action', heq, -, hmss', hcases⟩ :=
    acknowledgeSent_eq (s := s₁) nowNanos appLimited eligible timestamp hinv (fun _ => hackSafe)
  rw [h] at heq
  obtain ⟨rfl, rfl⟩ := Prod.mk.inj (Except.ok.inj heq)
  obtain ⟨htrue, -⟩ | ⟨-, hsettled⟩ := hcases
  · rw [huna, hle] at htrue
    contradiction
  · rw [hsender] at hsettled
    have hwritable : (s.sender.settle packet.acknowledgement).phase = .writable :=
      if_pos hphase
    rw [hwritable] at hsettled
    apply Reacts.of_settled hack _ hsafe
    · have hsender₂ : (s₂.setState .established reason).sender = s₂.send.sender .writable := by
        rw [sender, state_setState, send_setState]
        rfl
      rw [hsender₂]
      apply hsettled
    · intro _
      constructor
      · rw [send_setState, hmss']
        apply hmss.1
      · rw [send_setState, hmss']
        apply hmss.2
      · intro hstate
        rw [state_setState] at hstate
        contradiction
      · intro hstate
        rw [state_setState] at hstate
        contradiction
    · rw [Accepts, if_pos (by apply hphase)]
      apply hnext

omit [CongestionControl C] in
theorem recordPeerOptions_eq (s : TcpSocket C) (packet : TcpPacket) :
  (s.recordPeerOptions packet).sender = s.sender ∧
    (s.recordPeerOptions packet).state = s.state ∧
    (s.SendWf → 0 < (s.recordPeerOptions packet).send.peerMaxSegmentSize ∧
      (s.recordPeerOptions packet).send.peerMaxSegmentSize ≤ tcpReceiveSegmentBytes)
  := by
  rw [recordPeerOptions]
  obtain ⟨peerTimestamp, heq⟩ := recordPeerTimestamp_eq
    { s with
      send := s.send.recordPeerOptions packet
      recv := s.recv.recordPeerOptions packet } packet.options.timestamp
  rw [heq]
  refine ⟨rfl, rfl, fun h => ?_⟩
  have hpos := h.mss_pos
  have hle := h.mss_le
  dsimp only [SendSide.recordPeerOptions]
  split <;> omega

omit [CongestionControl C] in
/-- The only acknowledgement acceptable to a socket that sent its SYN acknowledges it. -/
theorem eq_next_of_synSentAckAcceptable {acknowledgement : SequenceNumber}
    (hinv : Inv first s.sender) (hphase : s.state.sendPhase = .opening)
    (h : s.send.synSentAckAcceptable acknowledgement = true) :
  acknowledgement = s.send.sendNext
  := by
  obtain ⟨hone, -, -⟩ := hinv.opening hphase
  have hone : s.send.sendNext = advance s.send.sendUnacknowledged 1 := hone.symm
  rw [SendSide.synSentAckAcceptable, Bool.and_eq_true, sequenceLt_eq, sequenceLeq_eq, lt_iff] at h
  obtain ⟨⟨hpos, hlt⟩, hle⟩ := h
  rw [hone, ← advance_distance s.send.sendUnacknowledged acknowledgement,
    le_arc _ hlt (by decide)] at hle
  have hdistance : distance s.send.sendUnacknowledged acknowledgement = 1 := by omega
  rw [hone, ← hdistance, advance_distance]

theorem onSegmentSynSent_reacts (hinv : Inv first s.sender) (hwf : s.SendWf)
    (hstate : s.state = .synSent) (hallowed : AckAllowed safe s packet)
    (h : s.onSegmentSynSent packet nowNanos = .ok (s', outcome)) :
  Reacts safe packet s s'
  := by
  have hphase : s.state.sendPhase = .opening := by rw [hstate]; rfl
  revert h
  fun_cases onSegmentSynSent s packet nowNanos with
  | case1 | case3 | case5 =>
    rintro ⟨⟩
    apply Reacts.of_sameSend (.refl s)
  | case2 =>
    rintro ⟨⟩
    apply closeWithTimeout_reacts s
  | case4 hrst hacceptable hsynAck =>
    intro h
    have hack : packet.flags.contains .ack = true := TcpFlags.contains_right_of_union hsynAck
    have hnext : packet.acknowledgement = s.send.sendNext := by
      apply eq_next_of_synSentAckAcceptable hinv hphase
      simpa [hack] using hacceptable
    rw [establishSynSent] at h
    obtain ⟨hsender, hstate', hmss⟩ := s.recordPeerOptions_eq packet
    split at h
    · contradiction
    · rename_i s₂ action heq
      cases h
      have hreacts := establish_reacts (s := s) .synSentEstablished hinv hphase hack
        (by simpa using hrst) hnext hallowed (by apply hsender) (by apply hmss hwf) heq
      apply hreacts.trans (.of_recv _ (.refl _))

theorem onSegmentSynReceived_reacts (hinv : Inv first s.sender) (hwf : s.SendWf)
    (hstate : s.state = .synReceived) (hallowed : AckAllowed safe s packet)
    (h : s.onSegmentSynReceived packet nowNanos = .ok (s', outcome)) :
  Reacts safe packet s s'
  := by
  have hphase : s.state.sendPhase = .opening := by rw [hstate]; rfl
  obtain ⟨peerTimestamp, htimestamp⟩ := recordPeerTimestamp_eq
    { s with send := s.send.updatePeerReceiveWindow packet.windowSize } packet.options.timestamp
  simp only [onSegmentSynReceived, htimestamp] at h
  repeat' split at h
  all_goals cases h
  · apply Reacts.of_finish <;> simp [sendPhase]
  · apply Reacts.of_sameSend (.refl s)
  · apply Reacts.of_sameSend (.refl s)
  · rename_i hrst hack hnext _ s₂ action heq
    rw [not_not] at hnext
    apply establish_reacts (s := s) _ hinv hphase hack (by simpa using hrst) hnext hallowed (by rfl)
      (by apply And.intro hwf.mss_pos hwf.mss_le) heq
  · apply Reacts.of_sameSend (.refl s)

/-- A segment leaves a socket in an opening state there, establishes it or closes it. -/
theorem onSegment_opening_state (hphase : s.state.sendPhase = .opening)
    (h : s.onSegment packet nowNanos = .ok (s', outcome)) :
  s'.state = s.state ∨ s'.state = .established ∨ s'.state = .closed
  := by
  rw [onSegment] at h
  cases hstate : s.state <;> simp only [hstate, sendPhase, reduceCtorEq] at hphase <;>
    simp only [hstate] at h
  case synSent | synReceived =>
    simp only [onSegmentSynSent, establishSynSent, onSegmentSynReceived] at h
    repeat' split at h
    all_goals cases h
    all_goals simp [hstate]

/-- A segment for a socket in any state. -/
theorem onSegment_reacts (hinv : Inv first s.sender) (hwf : s.SendWf)
    (hallowed : AckAllowed safe s packet)
    (h : s.onSegment packet nowNanos = .ok (s', outcome)) :
  Reacts safe packet s s'
  := by
  rw [onSegment] at h
  cases hstate : s.state <;> rw [hstate] at h <;> simp only at h
  case closed | listen =>
    cases h
    apply Reacts.of_sameSend (.refl s)
  case synSent => apply onSegmentSynSent_reacts hinv hwf hstate hallowed h
  case synReceived => apply onSegmentSynReceived_reacts hinv hwf hstate hallowed h
  case timeWait =>
    rw [onSegmentTimeWait] at h
    split at h <;> cases h
    · apply Reacts.of_sameSend
      refine ⟨by simp, .inr ?_⟩
      simp [hstate, sendPhase]
    · apply Reacts.of_sameSend (.refl s)
  all_goals
    apply onSegmentSynchronised_reacts hinv _ hallowed h
    simp [hstate, synchronised]

end Arrival

end TcpSocket

end Helios
