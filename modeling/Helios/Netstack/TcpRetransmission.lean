import Helios.Netstack.TcpTransmitSteps

/-!
# Retransmissions that are due

When the timer of the first segment in flight has run out, something in flight is sent
again, unless a mark for a fast retransmit or for a smaller path MTU is pending and no
longer designates a segment.  Such a mark hides the timer, and the acknowledgement that
would clear it does not come.
-/

namespace Helios.TcpSocket

open List Option

variable {C : Type} {s : TcpSocket C} {nowNanos tcpSegmentMtu : Nat}

section

variable (s)

/-- The mark the socket looks at first, if it has one, designates a segment in flight that
was not selectively acknowledged. -/
def MarksStand : Prop :=
  if s.send.fastRetransmitPending then
    ∃ segment ∈ s.send.inFlight, segment.sacked = false
  else
    ∀ sequence, s.send.pendingPmtuRetransmitSequence = some sequence →
      ∃ segment ∈ s.send.inFlight, sequenceLeq segment.header.sequence sequence = true ∧
        sequenceLt sequence (segmentEnd segment) = true ∧ segment.sacked = false

/-- The timer of the first segment in flight has run out. -/
def TimerElapsed (nowNanos : Nat) : Prop :=
  ∃ front, s.send.inFlight.head? = some front ∧
    s.send.retransmissionTimer.backedOffTimeoutNanos front.retransmissions ≤
      nowNanos - front.sentAtNanos

/-- Every segment in flight fits one segment on the wire. -/
def Unbounded (tcpSegmentMtu : Nat) : Prop :=
  ∀ segment ∈ s.send.inFlight,
    TcpPacket.minHeaderLen + segment.options.encodedLen + segment.payload.length ≤ tcpSegmentMtu

/-- A segment with the header and the whole payload of one that is still in flight. -/
def CarriesUnacknowledged (sent : TcpTransmitSegment) : Prop :=
  ∃ segment ∈ s.send.inFlight, sent.header = segment.header ∧ sent.payload = segment.payload

end

/-- Once the timer has run out there is a segment to send again when the marks stand. -/
theorem retransmissionCandidate_isSome_iff (h : s.TimerElapsed nowNanos) :
  (s.retransmissionCandidate nowNanos).isSome = true ↔ s.MarksStand
  := by
  obtain ⟨front, hfront, hdue⟩ := h
  rw [retransmissionCandidate, MarksStand]
  split
  · rw [SendSide.firstUnsackedInFlight, find?_isSome]
    simp only [Bool.not_eq_true']
  · split
    · rename_i sequence hmark
      simp only [hmark, some.injEq, forall_eq', SendSide.inFlightAt, find?_isSome,
        Bool.and_eq_true, Bool.not_eq_true', and_assoc]
    · rename_i hmark
      rw [hfront, filter_some, if_pos (by simpa using hdue)]
      simp [hmark]

/-- A segment to send again is sent whole when the MTU allows it. -/
theorem pendingRetransmissionWithMtu_isSome {segment : TcpInFlightSegment}
    (hlocal : s.localEndpoint.isSome = true) (hremote : s.remoteEndpoint.isSome = true)
    (hmtu : s.Unbounded tcpSegmentMtu) (h : s.retransmissionCandidate nowNanos = some segment) :
  ∃ sent, s.pendingRetransmissionWithMtu nowNanos tcpSegmentMtu = some sent ∧
    s.CarriesUnacknowledged sent
  := by
  obtain ⟨localEndpoint, hlocal⟩ := isSome_iff_exists.mp hlocal
  obtain ⟨remoteEndpoint, hremote⟩ := isSome_iff_exists.mp hremote
  have hmem := mem_of_retransmissionCandidate h
  have hfits := hmtu segment hmem
  have hroom : ¬ (tcpSegmentMtu - (TcpPacket.minHeaderLen + segment.options.encodedLen) = 0 ∧
      segment.payload ≠ []) := by
    rintro ⟨hzero, hne⟩
    have := length_pos_of_ne_nil hne
    omega
  rw [pendingRetransmissionWithMtu, h, hlocal, hremote]
  simp only
  rw [if_neg (by omega), if_neg hroom]
  refine ⟨_, rfl, segment, hmem, rfl, ?_⟩
  rw [Nat.min_eq_left (by omega), take_length]

/-- A connection sends two bytes in two segments.  The second is found too long for the path,
and before it is sent again the peer acknowledges it selectively. -/
def shadowedTimerOps : List (SocketOp RegisteredTcpReadBuffer) :=
  [.sendSyn 1,
    .onSegment (bareSegment (.union .syn .ack) 100 8 10) 2,
    .queueSendBytes [1],
    .takeTransmitSegment 3 ⟨2000, 2000⟩,
    .queueSendBytes [2],
    .takeTransmitSegment 4 ⟨2000, 2000⟩,
    .markPathMtuReduced 9,
    .onSegment
      { bareSegment .ack 101 8 10 with
        options := { TcpOptions.empty with sackBlocks := ⟨[⟨9, 10⟩], by decide⟩ } } 5]

end Helios.TcpSocket
