import Helios.Netstack.TcpRefinement

/-!
# The count of bytes in flight

The sender keeps what is in flight four times: as two sequence numbers, as a count, and
as a row of records.  In every run whose acknowledgements do not run into a persist probe
the four agree once the SYN or the SYN-ACK is queued.  An acknowledgement of a part of
what is in flight, received while a persist probe is outstanding, makes them differ.
-/

namespace Helios

open Machine Serial Sender Transition TcpInFlightSegment

namespace TcpSocket

variable {C : Type} [CongestionControl C] {S : Type} {s s' : TcpSocket C}

/-- The records in flight lie one behind the other from `send_unacknowledged` to
`send_next`, and the count of bytes in flight is what they occupy and what lies between
the two. -/
structure Accounted (s : TcpSocket C) : Prop where
  tiles : Flight.Tiles s.send.sendUnacknowledged (s.send.inFlight.map flight)
    s.send.sendNext
  sum_eq : s.send.bytesInFlight = (s.send.inFlight.map sequenceLen).sum
  distance_eq : s.send.bytesInFlight = (s.send.sendNext - s.send.sendUnacknowledged).toNat

/-- An acknowledgement that keeps the account.  It is not exactly half the sequence space
ahead.  While a probe of the next byte or of the FIN is outstanding, it acknowledges
everything in flight.  While a data probe is outstanding whose byte was sent again as
data since, it does not reach beyond the probe's sequence number. -/
def AckExact (s : TcpSocket C) (acknowledgement : SequenceNumber) : Prop :=
  acknowledgement ≠ s.send.sendUnacknowledged + BitVec.ofNat 32 (2 ^ 31) ∧
    ∀ probe, s.send.persistProbe = some probe →
      (probe.sequence = s.send.sendNext → sequenceLeq s.send.sendNext acknowledgement = true) ∧
        (probe.fin = false → probe.sequence ≠ s.send.sendNext →
          sequenceLt probe.sequence acknowledgement = false)

/-- The operations that keep the account: the socket is not aborted, no segment is sent
once too often, and every acknowledgement the socket acts on is exact. -/
def AccountAllowed (s : TcpSocket C) : SocketOp S → Prop
  | .onSegment packet _ => s.takesAck packet = true → s.AckExact packet.acknowledgement
  | .retransmit nowNanos tcpSegmentMtu =>
    ∀ sent, s.pendingRetransmissionWithMtu nowNanos tcpSegmentMtu = some sent →
      ∀ segment ∈ s.send.inFlight, segment.header.sequence = sent.header.sequence →
        segment.retransmissions < tcpMaxRetransmissions
  | .abort => False
  | _ => True

/-- Whether the SYN or the SYN-ACK has been queued so far. -/
def noteQueued (queued : Bool) (_ : TcpSocket C) (op : SocketOp S) (output : SocketOutput S) :
    Bool :=
  match op, output with
  | .sendSyn _, .header (some _) => true
  | .sendSynAck _, .header (some _) => true
  | _, _ => queued

omit [CongestionControl C] in
theorem accounted_of_exact (h : Exact s.sender) :
  s.Accounted
  := by
  have hsum : s.send.bytesInFlight = (s.send.inFlight.map sequenceLen).sum := by
    have hcounted := h.counted_eq
    simp only [sender, SendSide.sender, Flight.span, List.map_map] at hcounted
    apply hcounted
  refine ⟨h.tiles, hsum, ?_⟩
  have hnext : s.send.sendNext =
      advance s.send.sendUnacknowledged (Flight.span s.sender.flights) := h.tiles.last_eq
  have hspan := h.span_lt
  have hcounted : s.send.bytesInFlight = Flight.span s.sender.flights := h.counted_eq
  have hdistance : distance s.send.sendUnacknowledged s.send.sendNext =
      Flight.span s.sender.flights := by
    rw [hnext, distance_advance _ (by omega)]
  rw [hcounted, ← hdistance]
  rfl

omit [CongestionControl C] in
theorem ackExact_sender {acknowledgement : SequenceNumber} (h : s.AckExact acknowledgement) :
  s.sender.AckExact acknowledgement
  := by
  refine ⟨h.1, fun probe hprobe => ?_⟩
  obtain ⟨hfresh, hstale⟩ := h.2 probe hprobe
  rw [sequenceLeq_eq] at hfresh
  rw [sequenceLt_eq] at hstale
  apply And.intro hfresh hstale

/-- A connection that has not sent its SYN: it holds nothing, and its row would start at
`send_next`. -/
structure Unopened (σ : Sender) : Prop extends Inv σ.next σ where
  phase : σ.phase = .opening
  flights : σ.flights = []
  counted : σ.counted = 0

def AckBoth (σ : Sender) (acknowledgement : SequenceNumber) : Prop :=
  σ.AckExact acknowledgement ∧ σ.AckSafe acknowledgement

namespace Unopened

variable {safe : Sender → SequenceNumber → Prop} {σ σ' : Sender} {event : SendEvent}
  {events : List SendEvent}

/-- The only thing an unopened connection may send is its SYN or its SYN-ACK. -/
theorem emitted {sequence : SequenceNumber} {payload : Bytes} (h : Unopened σ)
    (hstep : Step safe σ (.emitted sequence payload) σ') :
  Exact σ'
  := by
  obtain ⟨-, -, hqueue⟩ := h.opening h.phase
  have hphase := h.phase
  cases hstep with
  | sendData _ hne hpayload =>
    rw [hqueue] at hpayload
    apply absurd (List.append_eq_nil_iff.mp hpayload.symm).1 hne
  | sendFin hfinishing | probeFin hfinishing =>
    rw [hphase] at hfinishing
    contradiction
  | sendHandshake hopening hflights =>
    refine ⟨h.sendHandshake hopening, ?_⟩
    simp only [h.counted]
    rfl
  | probeData hne => apply absurd hqueue hne
  | resend hmem =>
    rw [h.flights] at hmem
    contradiction

/-- An unopened connection stays one until it sends, is acknowledged or closes. -/
theorem step (h : Unopened σ) (hstep : Step AckBoth σ event σ') :
  Exact σ' ∨ Unopened σ' ∨ σ'.phase = .finishing
  := by
  cases event with
  | emitted sequence payload =>
    left
    apply h.emitted hstep
  | wrote bytes =>
    cases hstep with
    | write hwritable =>
      rw [h.phase] at hwritable
      contradiction
  | quiet =>
    right
    cases hstep with
    | forgetProbe =>
      left
      refine ⟨h.forgetProbe, h.phase, h.flights, h.counted⟩
    | finish =>
      right
      rfl
  | acked acknowledgement =>
    left
    cases hstep with
    | ack haccepts hboth =>
      rw [Accepts, if_pos h.phase] at haccepts
      have hwithin := h.settle_within hboth.2 (by
        rw [haccepts, distance_self]
        apply Nat.zero_le)
      refine ⟨hwithin, ?_⟩
      simp only [settle, h.flights, h.counted, Flight.discard, Nat.zero_sub, Flight.span_nil]

end Unopened

omit [CongestionControl C] in
theorem phase_finishing_steps {safe : Sender → SequenceNumber → Prop} {σ σ' : Sender}
    {events : List SendEvent} (h : σ.phase = .finishing)
    (hsteps : Steps safe σ events σ') :
  σ'.phase = .finishing
  := by
  induction hsteps with
  | nil => apply h
  | cons hstep _ ih =>
    apply ih
    cases hstep with
    | ack => apply Inv.phase_settle_eq h
    | finish => rfl
    | _ => apply h

/-- Where an unopened connection gets in any number of steps. -/
theorem Unopened.steps {σ σ' : Sender} {events : List SendEvent}
    (h : Exact σ ∨ Unopened σ ∨ σ.phase = .finishing)
    (hsteps : Steps AckBoth σ events σ') :
  Exact σ' ∨ Unopened σ' ∨ σ'.phase = .finishing
  := by
  induction hsteps with
  | nil => apply h
  | cons hstep hrest ih =>
    apply ih
    obtain hexact | hunopened | hphase := h
    · left
      apply hexact.step (hstep.mono fun _ _ hboth => hboth.1)
    · apply hunopened.step hstep
    · right; right
      apply phase_finishing_steps hphase (.single hstep)

/-! ### Runs -/

variable [TcpReceiveBuffer S] {op : SocketOp S} {output : SocketOutput S}

/-- A closed socket stays closed, and a socket in an opening state stays in it, is
established or closes. -/
theorem step_state (hwf : s.SendWf) (hallowed : s.AccountAllowed op)
    (h : s.step op = .ok (s', output)) :
  (s.state = .closed → s'.state = .closed) ∧
    (s.state.sendPhase = .opening →
      s'.state = s.state ∨ s'.state = .established ∨ s'.state = .closed)
  := by
  have hkept (hstate : s'.state = s.state) : (s.state = .closed → s'.state = .closed) ∧
      (s.state.sendPhase = .opening →
        s'.state = s.state ∨ s'.state = .established ∨ s'.state = .closed) :=
    ⟨fun hclosed => hstate.trans hclosed, fun _ => .inl hstate⟩
  have hsame (hsame : SameSend s s') : (s.state = .closed → s'.state = .closed) ∧
      (s.state.sendPhase = .opening →
        s'.state = s.state ∨ s'.state = .established ∨ s'.state = .closed) := by
    refine ⟨hsame.closed, fun hphase => ?_⟩
    obtain hstate | ⟨-, hnot, -⟩ := hsame.state
    · left
      apply hstate
    · contradiction
  cases op with
  | queueSendBytes bytes =>
    obtain heq | ⟨transmitQueue, n, heq, -⟩ := s.queueSendBytes_eq bytes <;> rw [step, heq] at h <;>
      cases h <;> apply hkept rfl
  | takeTransmitSegment nowNanos budget =>
    obtain ⟨s₁, segment, heq, hsends⟩ := takeTransmitSegment_eq (s := s) hwf
    rw [step, heq] at h
    cases h
    apply hkept hsends.state_eq
  | retransmit nowNanos tcpSegmentMtu =>
    have hsends := retransmit_eq hallowed
    cases h
    apply hkept hsends.state_eq
  | markPathMtuReduced sequence =>
    cases h
    apply hkept rfl
  | sendSyn nowNanos | sendSynAck nowNanos =>
    obtain ⟨header, rfl, hopens⟩ := step_opens hwf nowNanos (by simp) h
    apply hkept hopens.state_eq
  | sendAck nowNanos =>
    rw [step] at h
    split at h <;> cases h <;> apply hkept rfl
  | expireTimers nowNanos =>
    cases h
    obtain hsame' | ⟨htimeWait, hclosed, -⟩ := s.expireTimers_eq nowNanos
    · apply hsame hsame'
    · simp [hclosed]
  | receive maxBytes nowNanos =>
    obtain ⟨⟨s₁, bytes⟩, heq, hmap⟩ := map_eq_ok h
    cases hmap
    apply hsame (receive_sameSend heq)
  | receiveInto buffer nowNanos =>
    obtain ⟨⟨s₁, buffer', bytes⟩, heq, hmap⟩ := map_eq_ok h
    cases hmap
    apply hsame (receiveInto_sameSend heq)
  | onSegment packet nowNanos =>
    obtain ⟨⟨s₁, outcome⟩, heq, hmap⟩ := map_eq_ok h
    cases hmap
    refine ⟨fun hclosed => ?_, fun hphase => onSegment_opening_state hphase heq⟩
    simp only [onSegment, hclosed] at heq
    cases heq
    apply hclosed
  | closeSend =>
    cases h
    rw [closeSend]
    cases hstate : s.state <;> simp [TcpState.sendPhase, hstate]
  | abort => contradiction

/-- What holds along a run.  Until the SYN or the SYN-ACK is queued the connection holds
nothing; if it closes before that it stays closed. -/
structure AccountInv (p : TcpSocket C × Bool) : Prop where
  sendWf : p.1.SendWf
  account : Exact p.1.sender ∨ p.2 = false ∧
    (Unopened p.1.sender ∨ p.1.state = .closed ∧ ∃ first, Inv first p.1.sender)

omit [CongestionControl C] in
theorem accountInv_of_justOpened {initialSequence : SequenceNumber}
    (h : JustOpened initialSequence s) :
  AccountInv (s, false)
  := by
  refine ⟨h.sendWf, ?_⟩
  right
  refine ⟨rfl, ?_⟩
  left
  refine ⟨h.inv, ?_, ?_, ?_⟩ <;> rw [h.sender_eq]

/-- A step that queues the SYN or the SYN-ACK sends it; no other step counts as one. -/
theorem noteQueued_cases (queued : Bool) (hwf : s.SendWf) (h : s.step op = .ok (s', output)) :
  noteQueued queued s op output = queued ∨
    s.state.sendPhase = .opening ∧
      ∃ sequence, ∀ safe, Step safe s.sender (.emitted sequence []) s'.sender
  := by
  cases op with
  | sendSyn nowNanos | sendSynAck nowNanos =>
    obtain ⟨header, rfl, hopens⟩ := step_opens hwf nowNanos (by simp) h
    obtain ⟨rfl, -⟩ | ⟨-, hphase, hstep⟩ := hopens.sender
    · left
      rfl
    · right
      refine ⟨hphase, _, hstep⟩
  | _ =>
    left
    rfl

theorem accountInv_step {queued queued' : Bool} (hinv : AccountInv (s, queued))
    (hallowed : s.AccountAllowed op)
    (h : instrument step noteQueued (s, queued) op = .ok ((s', queued'), output)) :
  AccountInv (s', queued')
  := by
  obtain ⟨hstep, rfl⟩ := instrument_eq_ok h
  obtain ⟨hwf, haccount⟩ := hinv
  obtain ⟨hclosed, hopening⟩ := step_state hwf hallowed hstep
  -- what is known of an acknowledgement the socket acts on
  have hrefines {first : SequenceNumber} (hinv : Inv first s.sender)
      (hsafe : ∀ acknowledgement, s.AckExact acknowledgement → s.state ≠ .closed →
        s.sender.AckSafe acknowledgement) : Refines AckBoth s op s' output := by
    apply step_refines hinv hwf _ hstep
    cases op with
    | onSegment packet nowNanos =>
      intro htakes
      have hexact := hallowed htakes
      have hopen : s.state ≠ .closed := by
        intro hclosed
        simp [takesAck, hclosed] at htakes
      have hsafe := hsafe _ hexact hopen
      apply And.intro (And.intro (ackExact_sender hexact) hsafe) hsafe
    | retransmit => apply hallowed
    | abort => contradiction
    | _ => trivial
  obtain hexact | ⟨rfl, hunopened | ⟨hstate, first, hinv⟩⟩ := haccount
  · obtain ⟨hwf', events, hsteps, -⟩ := hrefines hexact.toInv fun acknowledgement hack _ =>
      hexact.ackSafe (ackExact_sender hack)
    refine ⟨hwf', ?_⟩
    left
    apply hexact.steps (hsteps.mono fun _ _ hboth => hboth.1)
  · obtain ⟨-, hprobe, -⟩ := hunopened.opening hunopened.phase
    obtain ⟨hwf', events, hsteps, -⟩ := hrefines hunopened.toInv fun acknowledgement _ _ probe hstale => by
      rw [StaleProbe, hprobe] at hstale
      simp at hstale
    refine ⟨hwf', ?_⟩
    obtain hqueued | ⟨-, sequence, hsent⟩ := noteQueued_cases false hwf hstep
    · rw [hqueued]
      obtain hexact | hunopened' | hfinishing := Unopened.steps (.inr (.inl hunopened)) hsteps
      · left
        apply hexact
      · right
        refine ⟨rfl, ?_⟩
        left
        apply hunopened'
      · right
        refine ⟨rfl, ?_⟩
        right
        have hfinishing' : s'.state.sendPhase = .finishing := hfinishing
        obtain hstate | hstate | hstate := hopening hunopened.phase
        · rw [hstate, show s.state.sendPhase = .opening from hunopened.phase] at hfinishing'
          contradiction
        · rw [hstate] at hfinishing'
          contradiction
        · apply And.intro hstate (hunopened.toInv.steps (hsteps.mono fun _ _ hboth => hboth.2))
    · left
      apply hunopened.emitted (hsent AckBoth)
  · obtain ⟨hwf', events, hsteps, -⟩ := hrefines hinv fun _ _ hopen => absurd hstate hopen
    refine ⟨hwf', ?_⟩
    right
    obtain hqueued | ⟨hphase, -⟩ := noteQueued_cases false hwf hstep
    · refine ⟨hqueued, ?_⟩
      right
      apply And.intro (hclosed hstate) (hinv.steps (hsteps.mono fun _ _ hboth => hboth.2))
    · rw [hstate] at hphase
      contradiction

def AccountReachable (S : Type) [TcpReceiveBuffer S] : TcpSocket C × Bool → Prop :=
  Reachable (instrument (step (S := S)) noteQueued)
    (fun p => (∃ initialSequence, JustOpened initialSequence p.1) ∧ p.2 = false)
    (fun p op => p.1.AccountAllowed op)

/-- Two bytes are in flight when the peer closes its window, and a third is sent as a
probe. -/
def partialAckOps : List (SocketOp RegisteredTcpReadBuffer) :=
  [.sendSyn 1,
    .onSegment (bareSegment (.union .syn .ack) 100 8 10) 2,
    .queueSendBytes [1, 2],
    .takeTransmitSegment 3 ⟨2000, 2000⟩,
    .onSegment (bareSegment .ack 101 8 0) 4,
    .queueSendBytes [3],
    .takeTransmitSegment 5 ⟨2000, 2000⟩,
    .takeTransmitSegment 2000000005 ⟨2000, 2000⟩,
    .onSegment (bareSegment .ack 101 9 0) 2000000006]

end TcpSocket

end Helios
