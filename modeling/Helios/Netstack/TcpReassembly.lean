import Helios.Netstack.ReceiverRuns
import Helios.Netstack.TcpReceiveRefinement

/-!
# The stream a socket receives

Segments of a fixed stream arrive in any order, with losses, repetitions and overlaps, and
the application reads in between.  If every FIN stands at the end of the stream, what was
read is a beginning of the stream, the next sequence number expected counts what was read
and what waits to be read, and the segments held aside are in order and apart.  A second
FIN behind the first one is consumed as well.
-/

namespace Helios

open Machine Serial Transition List

namespace TcpSocket

variable {C : Type} {S : Type} {s s' : TcpSocket C} {stream reads : Bytes}
  {base : SequenceNumber}

/-- A socket that knows its peer's initial sequence number and has received nothing since.
Its handshake may still be completed. -/
structure JustSynchronised (base : SequenceNumber) (s : TcpSocket C) : Prop where
  state : s.state = .synReceived ∨ s.state = .established
  wf : s.recv.Wf
  inbound_eq : s.recv.inbound = { next := base, queue := [], held := [], fin := none }

theorem justSynchronised_accept (localEndpoint remoteEndpoint : TcpEndpoint)
    (receiveNext initialSequence : SequenceNumber) (congestion : C) :
  JustSynchronised receiveNext
    (accept localEndpoint remoteEndpoint receiveNext initialSequence congestion)
  := by
  refine ⟨.inl rfl, ⟨rfl, rfl, ?_, ?_, ?_⟩, rfl⟩
  · nofun
  · apply ReceiveSide.refreshedWindow_le
  · apply Nat.zero_le

def noteRead (reads : Bytes) (_ : TcpSocket C) (_ : SocketOp S) (output : SocketOutput S) :
    Bytes :=
  reads ++ delivered output

section

variable (stream) (base)

/-- The payload of the segment agrees with the stream, and its FIN stands at the end of
the stream.  A sequence number denotes an offset within half the sequence space of that
of `receive_next`, which is behind the bytes received and behind the FIN, if that was
consumed. -/
def SegmentAgrees (reads : Bytes) (s : TcpSocket C) (packet : TcpPacket) : Prop :=
  ∀ n, reads.length + s.recv.receiveQueuedBytes ≤ n →
    n ≤ reads.length + s.recv.receiveQueuedBytes + 1 → advance base n = s.recv.receiveNext →
    Agrees stream base n packet.sequence packet.payload ∧
      (packet.flags.contains .fin = true →
        FinAgrees stream base n (advance packet.sequence packet.payload.length))

/-- The operations of a run in which the peer sends the stream. -/
def ReceiveAllowed (p : TcpSocket C × Bytes) : SocketOp S → Prop
  | .onSegment packet _ => SegmentAgrees stream base p.2 p.1 packet
  | .abort => False
  | _ => True

end

/-- What was read and what is held are parts of the stream. -/
structure ReassemblyInv (stream : Bytes) (base : SequenceNumber) (p : TcpSocket C × Bytes) :
    Prop where
  known : p.1.state.receivePhase ≠ .unknown
  recvWf : p.1.RecvWf
  received : ∃ pos consumed, Received stream base p.2 pos consumed p.1.receiver

theorem reassemblyInv_of_justSynchronised (h : JustSynchronised base s) :
  ReassemblyInv stream base (s, [])
  := by
  have hfin : s.recv.receiveFinSequence = none := congrArg Inbound.fin h.inbound_eq
  refine ⟨?_, ⟨h.wf, fun _ => hfin⟩, 0, false, ?_⟩
  · obtain hstate | hstate := h.state <;> simp [hstate, TcpState.receivePhase]
  · have hnext : s.receiver.inbound.next = base := congrArg Inbound.next h.inbound_eq
    have hqueue : s.receiver.inbound.queue = [] := congrArg Inbound.queue h.inbound_eq
    have hheld : s.receiver.inbound.held = [] := congrArg Inbound.held h.inbound_eq
    have hnone : s.receiver.inbound.fin = none := hfin
    refine ⟨?_, Nat.zero_le _, ?_, ⟨[], hheld, Tidy.nil⟩, ?_, by simp, ?_⟩
    · simp [hnext]
    · simp [hqueue]
    · simp [hnone]
    · obtain hstate | hstate := h.state <;> simp [receiver, hstate, TcpState.receivePhase]

theorem pos_eq {pos : Nat} {consumed : Bool} (hwf : s.recv.Wf)
    (h : Received stream base reads pos consumed s.receiver) :
  pos = reads.length + s.recv.receiveQueuedBytes
  := by
  have hlength := congrArg length h.bytes_eq
  have hle := h.pos_le
  simp only [length_append, length_take, receiver, ReceiveSide.inbound] at hlength
  rw [hwf.queued_eq]
  omega

theorem absorbs_received {packet : TcpPacket} (hwf : s.RecvWf)
    (h : ∃ pos consumed, Received stream base reads pos consumed s.receiver)
    (hagrees : SegmentAgrees stream base reads s packet) (habsorbs : Absorbs packet s s') :
  ∃ pos consumed, Received stream base reads pos consumed s'.receiver
  := by
  obtain ⟨pos, consumed, h⟩ := h
  have hpos := pos_eq hwf.wf h
  have hlen := receiveSequenceLen_eq packet
  have hbit : consumed.toNat ≤ 1 := Bool.toNat_le consumed
  have hnext : s.recv.receiveNext = advance base (pos + consumed.toNat) := h.next_eq
  obtain ⟨hpayload, hfin⟩ := hagrees (pos + consumed.toNat) (by omega) (by omega) hnext.symm
  obtain ⟨ρ₁, ρ₂, events, harrive, hnote, hsteps, hquiet⟩ := habsorbs.steps
  have h₁ : ∃ pos₁ consumed₁, pos ≤ pos₁ ∧ Received stream base reads pos₁ consumed₁ ρ₁ := by
    obtain rfl | ⟨hadmits, hstep⟩ := harrive
    · refine ⟨pos, consumed, Nat.le_refl _, h⟩
    · obtain ⟨pos₁, hle, h₁⟩ := h.arrived hstep hadmits (by split at hlen <;> omega) hpayload
      refine ⟨pos₁, false, hle, h₁⟩
  obtain ⟨pos₁, consumed₁, hle, h₁⟩ := h₁
  have h₂ : Received stream base reads pos₁ consumed₁ ρ₂ := by
    obtain rfl | ⟨hadmits, hflag, hstep⟩ := hnote
    · apply h₁
    · rw [Admits, hlen, if_pos hflag, hnext] at hadmits
      obtain ⟨heq, hlt⟩ := (hfin hflag).eq hadmits packet.payload_lt
      rw [heq] at hstep
      apply h₁.fin_noted hstep
      omega
  apply h₂.quiet_steps hsteps hquiet

/-! ### Runs -/

variable [CongestionControl C] [TcpReceiveBuffer S] [LawfulReceiveBuffer S]

theorem reassemblyInv_step {op : SocketOp S} {output : SocketOutput S} {reads' : Bytes}
    (h : ReassemblyInv stream base (s, reads)) (hallowed : ReceiveAllowed stream base (s, reads) op)
    (hstep : instrument step noteRead (s, reads) op = .ok ((s', reads'), output)) :
  ReassemblyInv stream base (s', reads')
  := by
  obtain ⟨hok, rfl⟩ := instrument_eq_ok hstep
  obtain ⟨hknown, hwf, hreceived⟩ := h
  by_cases hsegment : ∃ packet nowNanos, op = .onSegment packet nowNanos
  · obtain ⟨packet, nowNanos, rfl⟩ := hsegment
    obtain ⟨⟨s₁, outcome⟩, heq, hmap⟩ := map_eq_ok hok
    cases hmap
    have hstate : s.state ≠ .synSent := by
      intro hstate
      apply hknown
      rw [hstate]
      rfl
    have habsorbs := onSegment_absorbs hwf hstate heq
    refine ⟨habsorbs.receivePhase_ne_unknown hknown, habsorbs.recvWf, ?_⟩
    simp only [noteRead, delivered, append_nil]
    apply absorbs_received hwf hreceived hallowed habsorbs
  · have habort : op ≠ .abort := by
      rintro rfl
      apply hallowed
    obtain ⟨hwf', events, hsteps, hbytes, hread⟩ :=
      step_readSteps hwf (fun packet nowNanos heq => hsegment ⟨packet, nowNanos, heq⟩) habort hok
    refine ⟨hsteps.phase_ne_unknown hknown, hwf', ?_⟩
    obtain ⟨pos, consumed, hreceived⟩ := hreceived
    rw [noteRead, ← hbytes]
    apply hreceived.read_steps hsteps hread

/-- The states reached while the peer sends the stream, and what was read. -/
abbrev ReceiveReachable (S : Type) [TcpReceiveBuffer S] (stream : Bytes) (base : SequenceNumber) :
    TcpSocket C × Bytes → Prop :=
  Reachable (instrument (step (S := S)) noteRead)
    (fun p => JustSynchronised base p.1 ∧ p.2 = []) (ReceiveAllowed stream base)

/-- One segment is held aside before the other, and they have no byte in common. -/
def HeldBefore (a b : TcpOutOfOrderSegment) : Prop :=
  sequenceLt a.sequence b.sequence = true ∧ sequenceLeq a.endSequence b.sequence = true

theorem pairwise_heldBefore {pos : Nat} {spans : List (Span Nat)} (h : Loose stream pos spans) :
  (spans.map (segmentAt stream base)).Pairwise HeldBefore
  := by
  rw [pairwise_map]
  apply h.row.before.imp_of_mem
  intro a b hmema hmemb hbefore
  have ha := h.near a hmema
  have hb := h.near b hmemb
  have hlt := ha.lt
  have hlt' := hb.lt
  have hnear' := hb.apart_lt ha
  rw [Span.Before] at hbefore
  constructor
  · simp only [segmentAt]
    rw [sequenceLt_near (by omega) (by omega), decide_eq_true_iff]
    omega
  · rw [endSequence_segmentAt ha]
    simp only [segmentAt]
    rw [sequenceLeq_near (by omega) (by omega), decide_eq_true_iff]
    omega

/-- What was read is a beginning of the stream.  The next sequence number expected is that
behind the bytes read and the bytes queued, and behind the FIN once that was consumed.
The segments held aside are in order and apart, and their lengths are counted. -/
theorem reassembled (h : ReceiveReachable S stream base (s, reads)) :
  reads <+: stream ∧
  (∃ consumed : Bool,
    s.recv.receiveNext =
      advance base (reads.length + s.recv.receiveQueuedBytes + consumed.toNat) ∧
    (consumed = true → reads.length + s.recv.receiveQueuedBytes = stream.length) ∧
    (s.state ≠ .closed → (consumed = true ↔ s.state.receivePhase = .finished))) ∧
  s.recv.outOfOrder.Pairwise HeldBefore ∧
  (s.recv.outOfOrder.map fun segment => segment.payload.length).sum =
    s.recv.outOfOrderQueuedBytes
  := by
  have hinv : ReassemblyInv stream base (s, reads) := by
    refine Reachable.invariant ?_ ?_ h
    · rintro ⟨s, reads⟩ ⟨hstart, rfl⟩
      apply reassemblyInv_of_justSynchronised hstart
    · rintro ⟨s, reads⟩ op ⟨s', reads'⟩ output hinv hallowed hstep
      apply reassemblyInv_step hinv hallowed hstep
  obtain ⟨-, hwf, pos, consumed, hreceived⟩ := hinv
  have hpos := pos_eq hwf.wf hreceived
  refine ⟨?_, ⟨consumed, ?_, ?_, ?_⟩, ?_, ?_⟩
  · have hprefix : reads ++ s.receiver.inbound.queue <+: stream := by
      rw [hreceived.bytes_eq]
      apply take_prefix
    apply (prefix_append _ _).trans hprefix
  · rw [← hpos]
    apply hreceived.next_eq
  · intro hconsumed
    rw [← hpos]
    apply (hreceived.finished hconsumed).1
  · intro hopen
    refine ⟨fun hconsumed => ?_, hreceived.consumed⟩
    obtain ⟨-, -, hphase | hphase⟩ := hreceived.finished hconsumed
    · apply hphase
    · cases hstate : s.state <;> simp_all [receiver, TcpState.receivePhase]
  · obtain ⟨spans, hheld, htidy⟩ := hreceived.held
    have hheld : s.recv.outOfOrder = spans.map (segmentAt stream base) := hheld
    rw [hheld]
    apply pairwise_heldBefore htidy.toLoose
  · apply hwf.wf.held_eq.symm

/-- A segment of the peer that carries a part of the stream. -/
def sampleSegment (stream : Bytes) (base : SequenceNumber) (offset len : Nat)
    (hlen : len < maxTcpPayloadBytes) : TcpPacket :=
  { bareSegment .ack (advance base offset) 8 10 with
    payload := (stream.drop offset).take len
    payload_lt := Nat.lt_of_le_of_lt (List.length_take_le _ _) hlen }

omit [CongestionControl C] in
theorem segmentAgrees_sampleSegment {offset len : Nat} (hlen : len < maxTcpPayloadBytes)
    (hlow : reads.length + s.recv.receiveQueuedBytes + 1 < 2 ^ 31)
    (hhigh : offset + len ≤ 2 ^ 31) :
  SegmentAgrees stream base reads s (sampleSegment stream base offset len hlen)
  := by
  intro n hle hge _
  have hflag : (sampleSegment stream base offset len hlen).flags.contains .fin = false := by
    show TcpFlags.ack.contains .fin = false
    decide
  rw [hflag]
  refine ⟨?_, by simp⟩
  apply agrees_slice <;> omega

/-- The accepted connection opens, receives the stream's end before its beginning and
reads all of it. -/
theorem reassembled_sampleAccept :
  ∃ s : TcpSocket NewReno,
    ReceiveReachable RegisteredTcpReadBuffer [1, 2, 3] 101 (s, [1, 2, 3]) ∧
    s.recv.receiveNext = 104 ∧
    (s.recv.outOfOrder.map fun segment => segment.payload.length).sum =
      s.recv.outOfOrderQueuedBytes
  := by
  have hstart : ReceiveReachable RegisteredTcpReadBuffer [1, 2, 3] 101 (sampleAccept, []) :=
    .start ⟨justSynchronised_accept _ _ _ _ _, rfl⟩
  have hsynAck := hstart.next (show ReceiveAllowed _ _ _ (.sendSynAck 1) from trivial) rfl
  have hopen := hsynAck.next (show ReceiveAllowed _ _ _
    (.onSegment (sampleSegment [1, 2, 3] 101 0 0 (by decide)) 2) from
      segmentAgrees_sampleSegment _ (by decide) (by decide)) rfl
  have haside := hopen.next (show ReceiveAllowed _ _ _
    (.onSegment (sampleSegment [1, 2, 3] 101 1 2 (by decide)) 3) from
      segmentAgrees_sampleSegment _ (by decide) (by decide)) rfl
  have hwhole := haside.next (show ReceiveAllowed _ _ _
    (.onSegment (sampleSegment [1, 2, 3] 101 0 1 (by decide)) 4) from
      segmentAgrees_sampleSegment _ (by decide) (by decide)) rfl
  have hread := hwhole.next (show ReceiveAllowed _ _ _ (.receive 10 5) from trivial) rfl
  refine ⟨_, hread, rfl, (reassembled hread).2.2.2⟩

/-- An accepted connection opens; the peer ends its stream and then ends it again, one
sequence number later. -/
def secondFinOps : List (SocketOp RegisteredTcpReadBuffer) :=
  [.sendSynAck 1,
    .onSegment (bareSegment .ack 101 8 10) 2,
    .onSegment (bareSegment (.union .fin .ack) 101 8 10) 3,
    .onSegment (bareSegment (.union .fin .ack) 102 8 10) 4]

/-- The second FIN is consumed as well: nothing was read and nothing is queued, and the
next sequence number expected is two behind the first one. -/
theorem second_fin_consumed :
  ∃ (s : TcpSocket NewReno) (outputs : List (SocketOutput RegisteredTcpReadBuffer)),
    run (instrument step noteRead) (sampleAccept, []) secondFinOps =
      .ok ((s, []), outputs) ∧
    s.recv.receiveQueuedBytes = 0 ∧ s.recv.receiveNext = advance 101 2 ∧
    ∀ consumed : Bool,
      s.recv.receiveNext ≠ advance 101 (0 + s.recv.receiveQueuedBytes + consumed.toNat)
  := by
  refine ⟨_, _, rfl, rfl, rfl, by decide⟩

end TcpSocket

end Helios
