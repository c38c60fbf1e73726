import Helios.Netstack.TcpReceive

/-!
# What the receiving half of a connection is for

A receiver holds a part of its peer's stream: the bytes in order that were not read yet,
and segments beyond a hole.  This module describes the receiver by what it holds and by
the steps it may take, without windows, acknowledgements and byte counts.  The receiving
half of a TCP socket takes only such steps.
-/

namespace Helios

variable {payload : Bytes}

variable {sequence : SequenceNumber}

open Machine Serial

/-- What the receiving half holds of the peer's stream: the next sequence number expected,
the bytes in order and not yet read, the segments held aside, and where the stream ends
once the FIN arrived. -/
structure Inbound where
  next : SequenceNumber
  queue : Bytes
  held : List TcpOutOfOrderSegment
  fin : Option SequenceNumber

/-! ### Releasing what was held aside -/

def staleLen (next sequence : SequenceNumber) : Nat :=
  if sequenceLt sequence next then distance sequence next else 0

/-- A segment that does not end at or before `next` is longer than its part before
`next`. -/
theorem staleLen_lt {next : SequenceNumber} {len : Nat} (hpos : 0 < len)
    (hlen : len < maxTcpPayloadBytes) (h : sequenceLeq (advance sequence len) next = false) :
  staleLen next sequence < len
  := by
  have hmax : maxTcpPayloadBytes = 2 ^ 16 := rfl
  rw [staleLen]
  split
  · rename_i hlt
    rw [sequenceLt_eq, lt_iff] at hlt
    rw [sequenceLeq_eq, ← advance_distance sequence next, Bool.eq_false_iff, ne_eq,
      le_arc _ (by omega) hlt.2] at h
    omega
  · apply hpos

/-- The segments at the front are dropped while they are old, and released to the
in-order queue while they reach `next`. -/
inductive Inbound.Drains : Inbound → Inbound → Prop where
  | done {i : Inbound} :
      (∀ segment rest, i.held = segment :: rest →
        sequenceLt i.next segment.sequence = true ∨
          sequenceLeq segment.endSequence i.next = false) →
      Drains i i
  | drop {i i' : Inbound} {segment : TcpOutOfOrderSegment} {rest : List TcpOutOfOrderSegment} :
      i.held = segment :: rest → sequenceLt i.next segment.sequence = false →
      sequenceLeq segment.endSequence i.next = true → Drains { i with held := rest } i' →
      Drains i i'
  | release {i i' : Inbound} {segment : TcpOutOfOrderSegment} {rest : List TcpOutOfOrderSegment}
      {payload : Bytes} :
      i.held = segment :: rest → sequenceLt i.next segment.sequence = false →
      sequenceLeq segment.endSequence i.next = false →
      payload = segment.payload.drop (staleLen i.next segment.sequence) →
      Drains { i with
        next := advance i.next payload.length, queue := i.queue ++ payload, held := rest } i' →
      Drains i i'

variable {i i' : Inbound}

theorem Inbound.Drains.fin_eq (h : i.Drains i') :
  i'.fin = i.fin
  := by
  induction h with
  | done => rfl
  | drop _ _ _ _ ih | release _ _ _ _ _ ih => apply ih

/-! ### The arrival of a payload -/

/-- Holds a fragment of a payload aside, in sequence order. -/
def ReceiveSide.holdFragment (payload : Bytes) (held : List TcpOutOfOrderSegment)
    (fragment : Fragment) : List TcpOutOfOrderSegment :=
  (sinkBack
    ⟨fragment.sequence, (payload.drop fragment.start).take (fragment.stop - fragment.start)⟩
    held.reverse).reverse

namespace ReceiveSide

variable {payloadLen : Nat} {cursor : SplitCursor} {fragments : List Fragment}
  {held : List TcpOutOfOrderSegment}

/-- A fragment of a payload of the given length that starts at the given sequence
number. -/
structure Fragment.Within (sequence : SequenceNumber) (payloadLen : Nat) (fragment : Fragment) :
    Prop where
  sequence_eq : fragment.sequence = advance sequence fragment.start
  start_lt : fragment.start < fragment.stop
  stop_le : fragment.stop ≤ payloadLen

/-- The cursor stands inside the payload, and its fragments are fragments of the payload. -/
structure SplitCursor.Within (sequence : SequenceNumber) (payloadLen : Nat)
    (cursor : SplitCursor) : Prop where
  sequence_eq : cursor.sequence = advance sequence cursor.offset
  offset_lt : cursor.offset < payloadLen
  fragments : ∀ fragment ∈ cursor.fragments, fragment.Within sequence payloadLen

/-- A fragment from the cursor to a point that the payload reaches beyond. -/
theorem SplitCursor.Within.fragment {point : SequenceNumber}
    (h : cursor.Within sequence payloadLen) (hlen : payloadLen < maxTcpPayloadBytes) (hahead :
      sequenceLeq point cursor.sequence = false ∨ sequenceLt cursor.sequence point = true)
    (hreached : sequenceLeq (advance sequence payloadLen) point = false) :
  0 < distance cursor.sequence point ∧
    cursor.offset + distance cursor.sequence point < payloadLen
  := by
  have hmax : maxTcpPayloadBytes = 2 ^ 16 := rfl
  have hoffset := h.offset_lt
  have hdistance := distance_lt cursor.sequence point
  have hstop : advance sequence payloadLen =
      advance cursor.sequence (payloadLen - cursor.offset) := by
    rw [h.sequence_eq, advance_advance]
    congr 1
    omega
  have hbetween : 0 < distance cursor.sequence point ∧
      distance cursor.sequence point ≤ 2 ^ 31 := by
    obtain hahead | hahead := hahead
    · rw [sequenceLeq_eq, le_eq_false_iff] at hahead
      apply hahead
    · rw [sequenceLt_eq, lt_iff] at hahead
      apply And.intro hahead.1 (Nat.le_of_lt hahead.2)
  rw [hstop, sequenceLeq_eq, ← advance_distance cursor.sequence point, Bool.eq_false_iff, ne_eq,
    le_advance_iff _ (by omega) hdistance] at hreached
  omega

theorem mem_pushFragment {fragments' : List Fragment} {fragment other : Fragment}
    (h : pushFragment fragments fragment = some fragments') (hmem : other ∈ fragments') :
  other ∈ fragments ∨ other = fragment
  := by
  rw [pushFragment] at h
  split at h
  · cases h
    simpa using hmem
  · contradiction

/-- The loop over the segments already held keeps its cursor inside the payload or moves
it to the end. -/
theorem splitLoop_within {cursor' : SplitCursor} (hcursor : cursor.Within sequence payloadLen)
    (hlen : payloadLen < maxTcpPayloadBytes) (h : splitLoop (advance sequence payloadLen)
      payloadLen held cursor = some cursor') :
  cursor'.Within sequence payloadLen ∨
    cursor'.sequence = advance sequence payloadLen ∧
      ∀ fragment ∈ cursor'.fragments, fragment.Within sequence payloadLen
  := by
  induction held generalizing cursor with
  | nil =>
    cases h
    left
    apply hcursor
  | cons existing rest ih =>
    rw [splitLoop] at h
    split at h
    · apply ih hcursor h
    · rename_i hbehind
      rw [Bool.not_eq_true] at hbehind
      split at h
      · cases h
        left
        apply hcursor
      · rename_i hreached
        rw [Bool.not_eq_true] at hreached
        dsimp only at h
        split at h
        · contradiction
        · rename_i fragments hfragments
          have hall : ∀ fragment ∈ fragments, fragment.Within sequence payloadLen := by
            split at hfragments
            · rename_i hgap
              intro fragment hmem
              obtain hmem | rfl := mem_pushFragment hfragments hmem
              · apply hcursor.fragments fragment hmem
              · obtain ⟨hpos, hlt⟩ := hcursor.fragment hlen (.inr hgap) hreached
                refine ⟨hcursor.sequence_eq, ?_, Nat.le_of_lt hlt⟩
                apply Nat.lt_add_of_pos_right hpos
            · cases hfragments
              apply hcursor.fragments
          split at h
          · cases h
            right
            apply And.intro rfl hall
          · rename_i hbeyond
            rw [Bool.not_eq_true] at hbeyond
            obtain ⟨-, hlt⟩ := hcursor.fragment hlen (.inl hbehind) hbeyond
            refine ih ⟨?_, hlt, hall⟩ h
            rw [← advance_advance, ← hcursor.sequence_eq]
            apply (advance_distance _ _).symm

theorem splitPayload_within (hpos : 0 < payload.length)
    (hlen : payload.length < maxTcpPayloadBytes)
    (h : splitPayload held sequence payload = some fragments) :
  ∀ fragment ∈ fragments, fragment.Within sequence payload.length
  := by
  have hmax : maxTcpPayloadBytes = 2 ^ 16 := rfl
  rw [splitPayload, segmentEndFromParts_eq _ (by omega)] at h
  split at h
  · contradiction
  · rename_i cursor hloop
    have hstart : SplitCursor.Within sequence payload.length ⟨sequence, 0, []⟩ := by
      refine ⟨(advance_zero _).symm, hpos, by simp⟩
    obtain hcursor | ⟨hend, hall⟩ := splitLoop_within hstart hlen hloop
    · split at h
      · intro fragment hmem
        obtain hmem | rfl := mem_pushFragment h hmem
        · apply hcursor.fragments fragment hmem
        · refine ⟨hcursor.sequence_eq, hcursor.offset_lt, Nat.le_refl _⟩
      · cases h
        apply hcursor.fragments
    · rw [hend, sequenceLt_eq, lt_irrefl] at h
      cases h
      apply hall

theorem sinkBack_perm (segment : TcpOutOfOrderSegment) (held : List TcpOutOfOrderSegment) :
  (sinkBack segment held).Perm (segment :: held)
  := by
  induction held with
  | nil => apply List.Perm.refl
  | cons last earlier ih =>
    rw [sinkBack]
    split
    · apply (ih.cons last).trans (.swap segment last earlier)
    · apply List.Perm.refl

theorem holdFragment_perm (payload : Bytes) (held : List TcpOutOfOrderSegment)
    (fragment : Fragment) :
  (holdFragment payload held fragment).Perm
    (⟨fragment.sequence, (payload.drop fragment.start).take (fragment.stop - fragment.start)⟩ ::
      held)
  := by
  apply (List.reverse_perm _).trans
  apply (sinkBack_perm _ _).trans
  apply (List.reverse_perm held).cons

end ReceiveSide

/-- What an arriving payload does: its part from `next` on joins the bytes in order, or
fragments of it are held aside. -/
inductive Inbound.Arrives (sequence : SequenceNumber) (payload : Bytes) :
    Inbound → Inbound → Prop where
  | extended {i i' : Inbound} {n : Nat} :
      advance sequence n = i.next → n < payload.length →
      Drains
        { i with
          next := advance i.next (payload.drop n).length, queue := i.queue ++ payload.drop n }
        i' →
      Arrives sequence payload i i'
  | aside {i : Inbound} {fragments : List ReceiveSide.Fragment} {k : Nat} :
      sequence ≠ i.next → sequenceLt sequence i.next = false →
      ReceiveSide.splitPayload i.held sequence payload = some fragments →
      Arrives sequence payload i
        { i with held := (fragments.take k).foldl (ReceiveSide.holdFragment payload) i.held }

theorem Inbound.Arrives.fin_eq (h : i.Arrives sequence payload i') :
  i'.fin = i.fin
  := by
  cases h with
  | extended _ _ hdrains => apply hdrains.fin_eq
  | aside => rfl

/-! ### Steps -/

/-- How far the peer's stream has come: its SYN did not arrive yet, the answer to it is
not acknowledged yet, data is received, its FIN was consumed, or the connection is
closed. -/
inductive ReceivePhase where
  | unknown
  | opening
  | receiving
  | finished
  | gone
  deriving DecidableEq

/-- The handshake is not over. -/
def ReceivePhase.early : ReceivePhase → Bool
  | .unknown | .opening => true
  | .receiving | .finished | .gone => false

def ReceivePhase.afterFin : ReceivePhase → ReceivePhase
  | .gone => .gone
  | _ => .finished

/-- The receiving half of a connection, by what it holds. -/
structure Receiver where
  phase : ReceivePhase
  inbound : Inbound

inductive ReceiveEvent where
  | quiet
  | read (bytes : Bytes)
  | arrived (sequence : SequenceNumber) (payload : Bytes)
  | fin (sequence : SequenceNumber)

/-- What the application got from a step. -/
def ReceiveEvent.delivered : ReceiveEvent → Bytes
  | .read bytes => bytes
  | _ => []

/-- A segment of `len` sequence numbers has its first or its last one in the largest
receive window. -/
def InWindow (next sequence : SequenceNumber) (len : Nat) : Prop :=
  0 < len ∧ (distance next sequence < 2 ^ 20 ∨ distance next (advance sequence (len - 1)) < 2 ^ 20)

namespace Receiver

variable {events : List ReceiveEvent}

variable {ρ ρ' : Receiver}

/-- The steps of a receiver. -/
inductive Step : Receiver → ReceiveEvent → Receiver → Prop where
  | read {phase : ReceivePhase} {i : Inbound} {bytes queue : Bytes} :
      i.queue = bytes ++ queue → Step ⟨phase, i⟩ (.read bytes) ⟨phase, { i with queue }⟩
  | drain {phase : ReceivePhase} {i i' : Inbound} :
      i.Drains i' → Step ⟨phase, i⟩ .quiet ⟨phase, i'⟩
  | arrive {i i' : Inbound} {sequence : SequenceNumber} {payload : Bytes} :
      payload ≠ [] → payload.length < maxTcpPayloadBytes → i.Arrives sequence payload i' →
      Step ⟨.receiving, i⟩ (.arrived sequence payload) ⟨.receiving, i'⟩
  | noteFin {phase : ReceivePhase} {i : Inbound} {sequence : SequenceNumber} :
      phase.early = false → sequenceLt sequence i.next = false →
      Step ⟨phase, i⟩ (.fin sequence) ⟨phase, { i with fin := some sequence }⟩
  | consumeFin {phase : ReceivePhase} {i : Inbound} :
      i.fin = some i.next →
      Step ⟨phase, i⟩ .quiet ⟨phase.afterFin, { i with next := advance i.next 1, fin := none }⟩
  | establish {i : Inbound} : Step ⟨.opening, i⟩ .quiet ⟨.receiving, i⟩
  | close {phase : ReceivePhase} {i : Inbound} : Step ⟨phase, i⟩ .quiet ⟨.gone, i⟩

/-- Any number of steps, with what was seen of them. -/
inductive Steps : Receiver → List ReceiveEvent → Receiver → Prop where
  | nil {ρ : Receiver} : Steps ρ [] ρ
  | cons {ρ ρ' ρ'' : Receiver} {event : ReceiveEvent} {events : List ReceiveEvent} :
      Step ρ event ρ' → Steps ρ' events ρ'' → Steps ρ (event :: events) ρ''

theorem Steps.single {event : ReceiveEvent} (h : Step ρ event ρ') :
  Steps ρ [event] ρ'
  := .cons h .nil

theorem Steps.append {ρ'' : Receiver} {events' : List ReceiveEvent} (h : Steps ρ events ρ')
    (h' : Steps ρ' events' ρ'') :
  Steps ρ (events ++ events') ρ''
  := by
  induction h with
  | nil => apply h'
  | cons hstep _ ih => apply Steps.cons hstep (ih h')

theorem Steps.phase_ne_unknown (h : Steps ρ events ρ') (hknown : ρ.phase ≠ .unknown) :
  ρ'.phase ≠ .unknown
  := by
  induction h with
  | nil => apply hknown
  | cons hstep _ ih =>
    apply ih
    cases hstep with
    | read _ | drain _ | arrive _ _ _ | noteFin _ _ => apply hknown
    | @consumeFin phase _ _ => cases phase <;> simp [ReceivePhase.afterFin]
    | establish | close => simp

end Receiver

end Helios
