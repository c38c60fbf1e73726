import Helios.Netstack.TcpReceiveRefinement
import Helios.Netstack.TcpRefinement

/-!
# The stream a socket sends

In every run in which no segment reaches its retransmission limit and no acknowledgement
runs into a persist probe whose byte was sent again as data, no operation aborts, every
segment carries the part of the written stream its sequence number denotes, and a byte
leaves the socket only when an acknowledgement covers it.  A segment sent once too often
makes the socket forget bytes that were never acknowledged; a stale persist probe makes
it abort.
-/

namespace Helios

open Machine Serial Transition Nat

namespace TcpSocket

variable {C : Type} [CongestionControl C] {S : Type} {first : SequenceNumber}
  {s s' : TcpSocket C} {safe : Sender → SequenceNumber → Prop} {op : SocketOp S}
  {initialSequence : SequenceNumber} {events : List SendEvent} {written : Bytes}

/-! ### No operation aborts -/

section Arrival

variable {packet : TcpPacket} {nowNanos : Nat} {outcome : TcpSegmentOutcome}
  (hinv : Sender.Inv first s.sender)

include hinv

theorem establishSynSent_eq (hrecv : s.RecvWf) (hsafe : s.sender.AckSafe packet.acknowledgement) :
  ∃ s' outcome, s.establishSynSent packet nowNanos = .ok (s', outcome) ∧ s'.RecvWf
  := by
  have hok : ∃ s' outcome, s.establishSynSent packet nowNanos = .ok (s', outcome) := by
    obtain ⟨hsender, -, -⟩ := s.recordPeerOptions_eq packet
    rw [← hsender] at hinv hsafe
    rw [establishSynSent]
    generalize s.recordPeerOptions packet = s₁ at hinv hsafe
    obtain ⟨s₂, action, heq, -⟩ := acknowledgeSent_eq nowNanos true false
      packet.options.timestamp (s := { s₁ with
        remoteEndpoint := s₁.remoteEndpoint.map fun (remote : TcpEndpoint) =>
          { remote with port := packet.sourcePort }
        recv := s₁.recv.setReceiveBase (packet.sequence + 1) }) hinv (fun _ => hsafe)
    rw [heq]
    refine ⟨_, _, rfl⟩
  obtain ⟨s', outcome, heq⟩ := hok
  obtain ⟨hstate, hwf⟩ := establishSynSent_recv hrecv.wf heq
  refine ⟨s', outcome, heq, hwf, fun hopening => ?_⟩
  rw [hstate] at hopening
  contradiction

variable (hallowed : AckAllowed safe s packet)

include hallowed

theorem onSegmentSynSent_eq (hrecv : s.RecvWf) (hstate : s.state = .synSent) :
  ∃ s' outcome, s.onSegmentSynSent packet nowNanos = .ok (s', outcome) ∧ s'.RecvWf
  := by
  have hphase : s.state.sendPhase = .opening := by
    rw [hstate]
    rfl
  rw [onSegmentSynSent]
  split_ifs with hrst hignored hacceptable hsynAck
  · refine ⟨_, _, rfl, hrecv⟩
  · refine ⟨_, _, rfl, ?_⟩
    apply ((s.closeWithTimeout_sameRecv .synSentReset nowNanos).quietSteps hrecv).recvWf
  · refine ⟨_, _, rfl, hrecv⟩
  · have hack : packet.flags.contains .ack = true := TcpFlags.contains_right_of_union hsynAck
    have hnext : packet.acknowledgement = s.send.sendNext := by
      apply eq_next_of_synSentAckAcceptable hinv hphase
      simpa [hack] using hacceptable
    obtain ⟨-, htakes⟩ := takesAck_of_opening hinv hphase hack (by simpa using hrst) hnext
    apply establishSynSent_eq hinv hrecv (hallowed htakes).2
  · refine ⟨_, _, rfl, hrecv⟩

theorem onSegmentSynReceived_eq (nowNanos : Nat) (hstate : s.state = .synReceived) :
  ∃ s' outcome, s.onSegmentSynReceived packet nowNanos = .ok (s', outcome)
  := by
  have hphase : s.state.sendPhase = .opening := by
    rw [hstate]
    rfl
  simp only [onSegmentSynReceived]
  split_ifs with hrst hreset hack hnext
  any_goals refine ⟨_, _, rfl⟩
  rw [not_not] at hnext
  obtain ⟨-, htakes⟩ := takesAck_of_opening hinv hphase hack (by simpa using hrst) hnext
  have hsafe := (hallowed htakes).2
  obtain ⟨peerTimestamp, htimestamp⟩ := recordPeerTimestamp_eq
    { s with send := s.send.updatePeerReceiveWindow packet.windowSize } packet.options.timestamp
  rw [htimestamp]
  obtain ⟨s₂, action, heq, -⟩ := acknowledgeSent_eq nowNanos true false packet.options.timestamp
    (s := { s with
      send := s.send.updatePeerReceiveWindow packet.windowSize
      peerTimestamp }) hinv (fun _ => hsafe)
  rw [heq]
  refine ⟨_, _, rfl⟩

theorem examineSegment_eq (hrecv : s.RecvWf) (hstate : s.synchronised = true) :
  ∃ s' outcome, s.examineSegment packet nowNanos = .ok (s', outcome)
  := by
  have hsend : s.state.sendPhase ≠ .opening := by
    cases hs : s.state <;> simp_all [TcpState.sendPhase, synchronised]
  have hreceive : s.state.receivePhase.early = false := by
    cases hs : s.state <;> simp_all [TcpState.receivePhase, ReceivePhase.early, synchronised]
  simp only [examineSegment]
  split_ifs with hrst hreset hack hsent hacceptable hsyn
  any_goals refine ⟨_, _, rfl⟩
  obtain ⟨s₁, action, heq, -⟩ := processAck_reacts (s := s) nowNanos hinv hsend
    (by simpa using hack) (by simpa using hsent) (fun hle => hallowed (by
      rw [takesAck, sequenceLeq_eq]
      cases hs : s.state <;> simp_all [synchronised]))
  obtain ⟨s₂, outcome, heq₂, -⟩ := processAck_absorbs hrecv hreceive (by simpa using hacceptable) heq
  rw [heq]
  refine ⟨s₂, outcome, heq₂⟩

/-- A segment never makes a socket abort. -/
theorem onSegment_eq (nowNanos : Nat) (hrecv : s.RecvWf) :
  ∃ s' outcome, s.onSegment packet nowNanos = .ok (s', outcome) ∧ s'.RecvWf
  := by
  by_cases hsyn : s.state = .synSent
  · rw [onSegment, hsyn]
    apply onSegmentSynSent_eq hinv hallowed hrecv hsyn
  · have hok : ∃ s' outcome, s.onSegment packet nowNanos = .ok (s', outcome) := by
      rw [onSegment]
      cases hs : s.state <;> simp only
      case closed | listen | timeWait => refine ⟨_, _, rfl⟩
      case synSent => contradiction
      case synReceived => apply onSegmentSynReceived_eq hinv hallowed nowNanos hs
      all_goals
        have hsame : SameRecv s (s.noteSegmentReceived packet) :=
          .of_recv (.refl s) (.of_acks (.refl _))
        apply examineSegment_eq (s := s.noteSegmentReceived packet) hinv hallowed
          (hsame.quietSteps hrecv).recvWf
        simp [synchronised, noteSegmentReceived, hs]
    obtain ⟨s', outcome, heq⟩ := hok
    refine ⟨s', outcome, heq, (onSegment_absorbs hrecv hsyn heq).recvWf⟩

end Arrival

/-- No operation makes a socket abort, whatever it is given. -/
theorem step_eq [TcpReceiveBuffer S] [LawfulReceiveBuffer S] (hinv : Sender.Inv first s.sender)
    (hwf : s.SendWf) (hrecv : s.RecvWf) (hallowed : SendAllowed safe s op) :
  ∃ s' output, s.step op = .ok (s', output) ∧ s'.RecvWf
  := by
  have hreads (hsegment : ∀ packet nowNanos, op ≠ .onSegment packet nowNanos) (habort : op ≠ .abort) :
      ∃ s' output, s.step op = .ok (s', output) ∧ s'.RecvWf := by
    have hok : ∃ s' output, s.step op = .ok (s', output) := by
      cases op with
      | queueSendBytes bytes =>
        rw [step]
        obtain heq | ⟨transmitQueue, n, heq, -⟩ := s.queueSendBytes_eq bytes <;> rw [heq] <;>
          refine ⟨_, _, rfl⟩
      | takeTransmitSegment nowNanos budget =>
        obtain ⟨s₁, segment, heq, -⟩ := takeTransmitSegment_eq (s := s) hwf
        rw [step, heq]
        refine ⟨_, _, rfl⟩
      | sendSyn nowNanos =>
        obtain ⟨s₁, header, heq, -⟩ := sendSyn_eq hwf nowNanos
        rw [step, heq]
        refine ⟨_, _, rfl⟩
      | sendSynAck nowNanos =>
        obtain ⟨s₁, header, heq, -⟩ := sendSynAck_eq hwf nowNanos
        rw [step, heq]
        refine ⟨_, _, rfl⟩
      | sendAck nowNanos =>
        rw [step]
        split <;> refine ⟨_, _, rfl⟩
      | receive maxBytes nowNanos =>
        obtain ⟨s₁, bytes, heq, -⟩ := receive_eq hrecv maxBytes nowNanos
        rw [step, heq]
        refine ⟨_, _, rfl⟩
      | receiveInto buffer nowNanos =>
        obtain ⟨s₁, buffer', bytes, heq, -⟩ := receiveInto_eq hrecv buffer nowNanos
        rw [step, heq]
        refine ⟨_, _, rfl⟩
      | onSegment packet nowNanos => apply absurd rfl (hsegment packet nowNanos)
      | abort => contradiction
      | _ => refine ⟨_, _, rfl⟩
    obtain ⟨s', output, heq⟩ := hok
    refine ⟨s', output, heq, (step_readSteps hrecv hsegment habort heq).recvWf⟩
  cases op with
  | onSegment packet nowNanos =>
    obtain ⟨s₁, outcome, heq, hrecv₁⟩ := onSegment_eq hinv hallowed nowNanos hrecv
    rw [step, heq]
    refine ⟨_, _, rfl, hrecv₁⟩
  | abort => contradiction
  | _ => apply hreads (by simp) (by simp)

/-! ### The stream -/

def noteWritten (written : Bytes) (_ : TcpSocket C) (op : SocketOp S) (output : SocketOutput S) :
    Bytes :=
  match op, output with
  | .queueSendBytes bytes, .accepted n => written ++ bytes.take n
  | _, _ => written

section

variable (s)

/-- The bytes a socket holds until they are acknowledged: those in flight, then those
queued. -/
def unacknowledgedBytes : Bytes :=
  (s.send.inFlight.map TcpInFlightSegment.payload).flatten ++ s.send.transmitQueue.bytes

/-- An acknowledgement that does not run into a stale persist probe, one whose byte was
sent again as data.  While there is one, it is not beyond the sequence number of the
probe; and the highest sequence number sent, which the code determines with the ordinary
order of numbers, is right, or else the segments in flight start at the last
acknowledgement. -/
def AckSafe (acknowledgement : SequenceNumber) : Prop :=
  ∀ probe, s.send.persistProbe = some probe → probe.fin = false →
    probe.sequence ≠ s.send.sendNext →
    sequenceLt probe.sequence acknowledgement = false ∧
      (s.send.highestSentSequence = s.send.sendNext ∨
        s.send.inFlight.head?.map (fun segment => segment.header.sequence) =
          some s.send.sendUnacknowledged)

/-- The operations that keep the stream: the socket is not aborted, no segment is sent
once too often, and no acknowledgement the socket acts on runs into a stale probe. -/
def StreamAllowed : SocketOp S → Prop
  | .onSegment packet _ => s.takesAck packet = true → s.AckSafe packet.acknowledgement
  | .retransmit nowNanos tcpSegmentMtu =>
    ∀ sent, s.pendingRetransmissionWithMtu nowNanos tcpSegmentMtu = some sent →
      ∀ segment ∈ s.send.inFlight, segment.header.sequence = sent.header.sequence →
        segment.retransmissions < tcpMaxRetransmissions
  | .abort => False
  | _ => True

end

omit [CongestionControl C] in
theorem ackSafe_sender {acknowledgement : SequenceNumber} (h : s.AckSafe acknowledgement) :
  s.sender.AckSafe acknowledgement
  := by
  intro probe hstale
  obtain ⟨hprobe, hfin, hsequence⟩ := hstale
  obtain ⟨hlt, hright⟩ := h probe hprobe hfin hsequence
  rw [sequenceLt_eq] at hlt
  refine ⟨hlt, ?_⟩
  obtain hhighest | hhead := hright
  · left
    apply hhighest
  · right
    simp only [sender, SendSide.sender, List.head?_map, Option.map_map]
    apply hhead

omit [CongestionControl C] in
theorem streamAllowed_sender (h : s.StreamAllowed op) :
  SendAllowed Sender.AckSafe s op
  := by
  cases op with
  | onSegment packet nowNanos =>
    intro htakes
    have hsafe := ackSafe_sender (h htakes)
    apply And.intro hsafe hsafe
  | retransmit => apply h
  | abort => contradiction
  | _ => trivial

omit [CongestionControl C] in
theorem unacknowledgedBytes_eq (s : TcpSocket C) :
  s.unacknowledgedBytes = Flight.bytes s.sender.flights ++ s.sender.queue
  := by
  simp only [sender, SendSide.sender, Flight.bytes, List.map_map]
  rfl

/-- What holds along a run of a connection with the given initial sequence number. -/
structure StreamInv (initialSequence : SequenceNumber) (p : TcpSocket C × Bytes) : Prop where
  sendWf : p.1.SendWf
  recvWf : p.1.RecvWf
  holds : ∃ first base, Sender.Inv first p.1.sender ∧
    Sender.Holds (advance initialSequence 1) p.2 base p.1.sender

omit [CongestionControl C] in
theorem streamInv_of_justOpened (h : JustOpened initialSequence s) :
  StreamInv initialSequence (s, [])
  := by
  have hrecv : s.RecvWf := by
    cases h with
    | connect =>
      refine ⟨⟨rfl, rfl, nofun, ?_, Nat.zero_le _⟩, fun _ => rfl⟩
      apply min_le_right
    | accept =>
      refine ⟨⟨rfl, rfl, nofun, ?_, Nat.zero_le _⟩, fun _ => rfl⟩
      apply ReceiveSide.refreshedWindow_le
  refine ⟨h.sendWf, hrecv, s.sender.next, 0, h.inv, ?_⟩
  rw [h.sender_eq]
  constructor
  · apply Nat.zero_le
  · rfl
  · trivial
  · intro _
    apply (advance_zero _).symm

section

variable (initialSequence) (written)

/-- An operation takes away nothing that was not acknowledged: what the socket held from
an offset on it still holds from a later one on, and an acknowledgement that arrived
covers the bytes in between. -/
def KeepsStream (s : TcpSocket C) (op : SocketOp S) (s' : TcpSocket C) (output : SocketOutput S) : Prop :=
  ∃ base base', base ≤ base' ∧ base ≤ written.length ∧
    s.unacknowledgedBytes = written.drop base ∧
    s'.unacknowledgedBytes = (noteWritten written s op output).drop base' ∧
    ∀ i, base ≤ i → i < base' → ∃ packet nowNanos, op = .onSegment packet nowNanos ∧
      packet.flags.contains .ack = true ∧
      sequenceLeq (advance initialSequence (1 + (i + 1))) packet.acknowledgement = true

/-- The segment an operation sends, if any, carries the part of the written stream that
its sequence number denotes. -/
def SendsStream (output : SocketOutput S) : Prop :=
  ∀ sent, output = .segment (some sent) →
    Sender.InStream (advance initialSequence 1) written sent.header.sequence sent.payload

end

omit [CongestionControl C] in
theorem faithfulAll_quiet {origin : SequenceNumber} {base base' : Nat}
    (hquiet : ∀ event ∈ events, event = .quiet)
    (h : Sender.FaithfulAll origin written base events base') :
  base' = base ∧ events.foldl Sender.writtenAfter written = written
  := by
  induction events generalizing base with
  | nil => apply And.intro h rfl
  | cons event events ih =>
    obtain ⟨rfl, hquiet'⟩ := List.forall_mem_cons.mp hquiet
    obtain ⟨base₁, hsame, hrest⟩ := h
    obtain rfl : base₁ = base := hsame
    apply ih hquiet' hrest

omit [CongestionControl C] in
theorem stream_of_observed {base base' : Nat} {output : SocketOutput S}
    (hobserved : Observed op output events)
    (h : Sender.FaithfulAll (advance initialSequence 1) written base events base') :
  events.foldl Sender.writtenAfter written = noteWritten written s op output ∧
    SendsStream initialSequence written output ∧ base ≤ base' ∧
    ∀ i, base ≤ i → i < base' → ∃ packet nowNanos, op = .onSegment packet nowNanos ∧
      packet.flags.contains .ack = true ∧
      sequenceLeq (advance initialSequence (1 + (i + 1))) packet.acknowledgement = true
  := by
  cases hobserved with
  | wrote hn =>
    obtain ⟨base₁, hsame, hrest⟩ := h
    obtain rfl : base₁ = base := hsame
    obtain rfl : base' = base₁ := hrest
    refine ⟨rfl, by simp [SendsStream], le_refl _, fun i hle hlt => ?_⟩
    omega
  | refused =>
    obtain rfl : base' = base := h
    refine ⟨?_, by simp [SendsStream], le_refl _, fun i hle hlt => ?_⟩
    · simp [noteWritten]
    · omega
  | emitted =>
    obtain ⟨base₁, ⟨rfl, hin⟩, hrest⟩ := h
    obtain rfl : base' = base₁ := hrest
    refine ⟨?_, ?_, le_refl _, fun i hle hlt => ?_⟩
    · cases op <;> rfl
    · rintro _ ⟨⟩
      apply hin
    · omega
  | opened =>
    obtain ⟨base₁, ⟨rfl, -⟩, hrest⟩ := h
    obtain rfl : base' = base₁ := hrest
    refine ⟨?_, by simp [SendsStream], le_refl _, fun i hle hlt => ?_⟩
    · cases op <;> rfl
    · omega
  | acked hack hquiet =>
    rename_i packet nowNanos outcome rest
    obtain ⟨base₁, ⟨hle, hcovered⟩, hrest⟩ := h
    obtain ⟨rfl, hwritten⟩ := faithfulAll_quiet hquiet hrest
    refine ⟨hwritten, by simp [SendsStream], hle, fun i hi hlt => ?_⟩
    refine ⟨packet, nowNanos, rfl, hack, ?_⟩
    have hle := hcovered i hi hlt
    rw [advance_advance] at hle
    rw [sequenceLeq_eq]
    apply hle
  | quiet hop hout hquiet =>
    obtain ⟨rfl, hwritten⟩ := faithfulAll_quiet hquiet h
    refine ⟨?_, fun sent hsent => absurd hsent (hout sent), le_refl _, fun i hle hlt => ?_⟩
    · rw [hwritten]
      cases op with
      | queueSendBytes bytes => apply absurd rfl (hop bytes)
      | _ => rfl
    · omega

/-! ### Runs -/

variable [TcpReceiveBuffer S]

def StreamReachable (S : Type) [TcpReceiveBuffer S] (initialSequence : SequenceNumber) :
    TcpSocket C × Bytes → Prop :=
  Reachable (instrument (step (S := S)) noteWritten)
    (fun p => JustOpened initialSequence p.1 ∧ p.2 = [])
    (fun p op => p.1.StreamAllowed op)

variable {initialSequence : SequenceNumber} {written : Bytes} {op : SocketOp S}

theorem step_stream [LawfulReceiveBuffer S] (h : StreamInv initialSequence (s, written))
    (hallowed : s.StreamAllowed op) :
  ∃ s' output, s.step op = .ok (s', output) ∧ SendsStream initialSequence written output ∧
    KeepsStream initialSequence written s op s' output ∧
    StreamInv initialSequence (s', noteWritten written s op output)
  := by
  obtain ⟨hwf, hrecv, first, base, hinv, hholds⟩ := h
  have hsend := streamAllowed_sender hallowed
  obtain ⟨s', output, heq, hrecv'⟩ := step_eq hinv hwf hrecv hsend
  obtain ⟨hwf', events, hsteps, hobserved⟩ := step_refines hinv hwf hsend heq
  obtain ⟨first', base', hinv', hholds', hfaithful⟩ := hholds.steps hinv hsteps
  obtain ⟨hwritten, hsends, hle, hcovered⟩ :=
    stream_of_observed (s := s) hobserved hfaithful
  rw [hwritten] at hholds'
  refine ⟨s', output, heq, hsends, ⟨base, base', hle, hholds.base_le, ?_, ?_, hcovered⟩,
    hwf', hrecv', first', base', hinv', hholds'⟩
  · rw [unacknowledgedBytes_eq, hholds.held]
  · rw [unacknowledgedBytes_eq, hholds'.held]

/-- A connection opens and writes two bytes; the peer acknowledges only the SYN, and the
segment is sent seven times in all. -/
def retransmissionLimitOps : List (SocketOp RegisteredTcpReadBuffer) :=
  [.sendSyn 1,
    .onSegment (bareSegment (.union .syn .ack) 100 8 10) 2,
    .queueSendBytes [1, 2],
    .takeTransmitSegment 3 ⟨2000, 2000⟩,
    .retransmit 1000000000000 2000,
    .retransmit 2000000000000 2000,
    .retransmit 3000000000000 2000,
    .retransmit 4000000000000 2000,
    .retransmit 5000000000000 2000,
    .retransmit 6000000000000 2000]

/-- A connection opens with a closed window and sends a probe of the first of two bytes.
A window update that repeats the old acknowledgement lets it send both bytes as data, and
then both are acknowledged. -/
def staleProbeOps : List (SocketOp RegisteredTcpReadBuffer) :=
  [.sendSyn 1,
    .onSegment (bareSegment (.union .syn .ack) 100 8 0) 2,
    .queueSendBytes [1, 2],
    .takeTransmitSegment 3 ⟨2000, 2000⟩,
    .takeTransmitSegment 2000000000 ⟨2000, 2000⟩,
    .onSegment (bareSegment .ack 101 8 10) 2000000001,
    .takeTransmitSegment 2000000002 ⟨2000, 2000⟩,
    .onSegment (bareSegment .ack 101 10 10) 2000000003]

end TcpSocket

end Helios
