import Helios.Netstack.Sender

/-!
# Runs of a sender

What every step of a sender keeps: the invariant, the count of bytes in flight, and the
stream it carries.  Each is first shown of one step and then of every sequence of steps.
-/

namespace Helios

open Machine Serial List Nat

namespace Sender

variable {payload : Bytes} {flights : List Flight}

variable {safe : Sender → SequenceNumber → Prop} {first origin : SequenceNumber}
  {σ σ' : Sender} {event : SendEvent} {events : List SendEvent} {sequence : SequenceNumber}
  {probe : TcpPersistProbe} {rest : Bytes}

/-! ### The invariant -/

/-- Sending data or a FIN makes every outstanding probe stale. -/
theorem ProbeOk.append (h : Inv first σ) (hok : ProbeOk first σ probe)
    (hpos : 0 < Flight.span flights) (hspan : Flight.span flights < 2 ^ 30) :
  ∃ j < Flight.span (σ.flights ++ flights), probe.sequence = advance first j ∧
    probe.sequence ≠ advance σ.next (Flight.span flights)
  := by
  have hspan' := h.span_lt
  obtain ⟨j, hj, hsequence⟩ := hok.sent
  rw [Flight.span_append]
  refine ⟨j, by omega, hsequence, ?_⟩
  rw [hsequence, h.next_eq, advance_advance]
  intro heq
  have hj' := advance_injective first (by omega) (by omega) heq
  omega

namespace BurstOf

theorem nil (sequence : SequenceNumber) :
  BurstOf sequence [] []
  := by
  constructor <;> simp [Flight.Tiles]

/-- One more flight in front of a burst. -/
theorem cons {n : Nat} (h : BurstOf (advance sequence n) (payload.drop n) flights) (hpos : 0 < n)
    (hn : n ≤ payload.length) (hmax : n ≤ tcpReceiveSegmentBytes) :
  BurstOf sequence payload (⟨sequence, payload.take n, n⟩ :: flights)
  := by
  have hlength : (payload.take n).length = n := by
    rw [length_take, min_eq_left hn]
  have hne : payload.take n ≠ [] := by
    rw [← length_pos_iff, hlength]
    apply hpos
  constructor
  · refine ⟨rfl, ?_⟩
    have htiles := h.tiles
    rw [advance_advance, length_drop, add_sub_of_le hn] at htiles
    apply htiles
  · rw [Flight.bytes_cons, h.bytes_eq, take_append_drop]
  · refine forall_mem_cons.mpr ⟨?_, h.wf⟩
    constructor
    · simp only [hlength, hmax]
    · simp only [if_neg hne, hlength]
  · exact forall_mem_cons.mpr ⟨hne, h.data⟩

end BurstOf

theorem BurstOf.span_eq (h : BurstOf sequence payload flights) :
  Flight.span flights = payload.length
  := by
  have hlen : ∀ flight ∈ flights, flight.len = flight.payload.length := by
    intro flight hmem
    rw [(h.wf flight hmem).len_eq, if_neg (h.data flight hmem)]
  rw [← h.bytes_eq, Flight.bytes, length_flatten, map_map, Flight.span]
  congr 1
  apply map_congr_left hlen

namespace Inv

theorem sendData {burst : List Flight} (counted : Nat) (h : Inv first σ) (hfin : σ.finSent = false)
    (hne : payload ≠ []) (hqueue : σ.queue = payload ++ rest)
    (hburst : BurstOf σ.next payload burst)
    (hlength : σ.flights.length + burst.length ≤ maxTcpInFlightSegments) :
  Inv first
    { σ with
      queue := rest
      flights := σ.flights ++ burst
      next := advance σ.next payload.length
      counted }
  := by
  have hle : payload.length ≤ tcpTransmitBufferBytes := by
    have hqueue_le := h.queue_le
    rw [hqueue, length_append] at hqueue_le
    omega
  have hbuffer : tcpTransmitBufferBytes < 2 ^ 30 := by decide
  have hpos : 0 < payload.length := length_pos_iff.mpr hne
  constructor
  · apply h.tiles.append hburst.tiles
  · apply forall_mem_append.mpr ⟨h.wf, hburst.wf⟩
  · simpa using hlength
  · have hqueue_le := h.queue_le
    rw [hqueue, length_append] at hqueue_le
    simp only
    omega
  · intro probe hprobe
    have hok := h.probe probe hprobe
    have hspan := hburst.span_eq
    obtain ⟨j, hj, hsequence, hstale⟩ := hok.append h (show 0 < Flight.span burst by omega)
      (by omega)
    rw [hspan] at hstale
    constructor
    · apply hok.sequenceLen_eq
    · apply Exists.intro j (And.intro (le_of_lt hj) hsequence)
    · intro _ hnext
      contradiction
    · intro hprobeFin
      have hnil := (hok.fin hprobeFin).2.1
      simp [hqueue, hne] at hnil
  · intro hphase
    have hnil := (h.opening hphase).2.2
    simp [hqueue, hne] at hnil
  · intro hsent
    rw [hfin] at hsent
    contradiction

section

variable (h : Inv first σ)
include h

theorem sendFin (hphase : σ.phase = .finishing) (hfin : σ.finSent = false) (hqueue : σ.queue = [])
    (hlength : σ.flights.length < maxTcpInFlightSegments) :
  Inv first
    { σ with
      flights := σ.flights ++ [⟨σ.next, [], 1⟩]
      next := advance σ.next 1
      counted := satAdd 32 σ.counted 1
      finSent := true }
  := by
  constructor
  · apply h.tiles.append
    apply And.intro rfl rfl
  · refine forall_mem_append.mpr ⟨h.wf, forall_mem_singleton.mpr ?_⟩
    constructor <;> simp
  · rw [length_append]
    apply hlength
  · apply h.queue_le
  · intro probe hprobe
    have hok := h.probe probe hprobe
    obtain ⟨j, hj, hsequence, hstale⟩ :=
      ProbeOk.append h hok (show 0 < Flight.span [⟨σ.next, [], 1⟩] by simp) (by simp)
    constructor
    · apply hok.sequenceLen_eq
    · apply Exists.intro j (And.intro (le_of_lt hj) hsequence)
    · intro _ hnext
      apply absurd hnext
      simpa using hstale
    · intro hprobeFin
      refine ⟨hphase, hqueue, ?_⟩
      right
      obtain ⟨-, -, ⟨-, hnext⟩ | ⟨hsent, -⟩⟩ := hok.fin hprobeFin
      · apply And.intro rfl (by rw [hnext])
      · rw [hfin] at hsent
        contradiction
  · intro hopening
    simp [hphase] at hopening
  · intro _
    apply And.intro hphase hqueue

theorem sendHandshake (hphase : σ.phase = .opening) :
  Inv σ.unacknowledged
    { σ with flights := [⟨σ.unacknowledged, [], 1⟩], counted := satAdd 32 σ.counted 1 }
  := by
  obtain ⟨hnext, hprobe, hqueue⟩ := h.opening hphase
  constructor
  · apply And.intro rfl hnext
  · intro flight hmem
    obtain rfl := mem_singleton.mp hmem
    constructor <;> simp
  · show 1 ≤ maxTcpInFlightSegments
    decide
  · apply h.queue_le
  · intro probe hsome
    rw [hprobe] at hsome
    contradiction
  · apply h.opening
  · apply h.finSent

theorem probeData (hqueue : σ.queue ≠ []) :
  Inv first { σ with probe := some ⟨σ.next, 1, false⟩ }
  := by
  refine { h with probe := ?_, opening := ?_ }
  · rintro probe ⟨⟩
    constructor
    · rfl
    · use Flight.span σ.flights
      apply And.intro (Nat.le_refl _) h.next_eq
    · intro _ _
      apply hqueue
    · intro hfin
      contradiction
  · intro hphase
    apply absurd (h.opening hphase).2.2 hqueue

theorem probeFin (hphase : σ.phase = .finishing) (hfin : σ.finSent = false)
    (hqueue : σ.queue = []) :
  Inv first { σ with probe := some ⟨σ.next, 1, true⟩ }
  := by
  refine { h with probe := ?_, opening := ?_ }
  · rintro probe ⟨⟩
    constructor
    · rfl
    · use Flight.span σ.flights
      apply And.intro (Nat.le_refl _) h.next_eq
    · intro hnot
      contradiction
    · intro _
      refine ⟨hphase, hqueue, ?_⟩
      left
      apply And.intro hfin rfl
  · intro hopening
    simp [hphase] at hopening

theorem forgetProbe :
  Inv first { σ with probe := none }
  := by
  refine { h with probe := ?_, opening := ?_ }
  · simp
  · intro hphase
    obtain ⟨hnext, -, hqueue⟩ := h.opening hphase
    apply And.intro hnext (And.intro rfl hqueue)

theorem finish :
  Inv first { σ with phase := .finishing }
  := by
  refine { h with probe := ?_, opening := ?_, finSent := ?_ }
  · intro probe hprobe
    have hok := h.probe probe hprobe
    refine { hok with fin := fun hfin => ?_ }
    apply And.intro rfl (hok.fin hfin).2
  · intro hphase
    contradiction
  · intro hsent
    apply And.intro rfl (h.finSent hsent).2

theorem write {bytes : Bytes} (hphase : σ.phase = .writable)
    (hle : (σ.queue ++ bytes).length ≤ tcpTransmitBufferBytes) :
  Inv first { σ with queue := σ.queue ++ bytes }
  := by
  refine { h with queue_le := hle, probe := ?_, opening := ?_, finSent := ?_ }
  · intro probe hprobe
    have hok := h.probe probe hprobe
    constructor
    · apply hok.sequenceLen_eq
    · apply hok.sent
    · intro hdata hnext
      simp [hok.data hdata hnext]
    · intro hfin
      have hfinishing := (hok.fin hfin).1
      simp [hphase] at hfinishing
  · intro hopening
    simp [hphase] at hopening
  · intro hsent
    have hfinishing := (h.finSent hsent).1
    simp [hphase] at hfinishing

/-- Every step that is not an acknowledgement keeps the row where it is, or starts it. -/
theorem step_row (hstep : Step safe σ event σ')
    (hack : ∀ acknowledgement, event ≠ .acked acknowledgement) :
  Inv first σ' ∧ σ'.unacknowledged = σ.unacknowledged ∨
    σ.phase = .opening ∧ σ.flights = [] ∧ Inv σ.unacknowledged σ'
  := by
  cases hstep with
  | sendHandshake hphase hflights => exact .inr ⟨hphase, hflights, h.sendHandshake hphase⟩
  | ack _ _ => apply absurd rfl (hack _)
  | write hphase hle => exact .inl ⟨h.write hphase hle, rfl⟩
  | sendData hfin hne hqueue hburst hlength _ =>
    exact .inl ⟨h.sendData _ hfin hne hqueue hburst hlength, rfl⟩
  | sendFin hphase hfin hqueue hlength =>
    exact .inl ⟨h.sendFin hphase hfin hqueue hlength, rfl⟩
  | probeData hqueue => exact .inl ⟨h.probeData hqueue, rfl⟩
  | probeFin hphase hfin hqueue => exact .inl ⟨h.probeFin hphase hfin hqueue, rfl⟩
  | resend _ => exact .inl ⟨h, rfl⟩
  | forgetProbe => exact .inl ⟨h.forgetProbe, rfl⟩
  | finish => exact .inl ⟨h.finish, rfl⟩

theorem step (hstep : Step AckSafe σ event σ') :
  ∃ first', Inv first' σ'
  := by
  by_cases hack : ∀ acknowledgement, event ≠ .acked acknowledgement
  · obtain ⟨hinv, _⟩ | ⟨_, _, hinv⟩ := h.step_row hstep hack
    · exact ⟨_, hinv⟩
    · exact ⟨_, hinv⟩
  · cases hstep with
    | ack haccepts hsafe =>
      obtain hx | ⟨hx, probe, hprobe, hfresh⟩ | hx := h.zones haccepts hsafe
      · exact ⟨_, h.settle_within hsafe hx⟩
      · exact ⟨_, (h.settle_beyond hprobe hfresh hx).1⟩
      · exact ⟨_, (h.settle_behind hx).1⟩
    | _ => simp at hack

theorem steps (hsteps : Steps AckSafe σ events σ') :
  ∃ first', Inv first' σ'
  := by
  induction hsteps generalizing first with
  | nil => refine ⟨first, h⟩
  | cons hstep _ ih =>
    obtain ⟨first₁, h₁⟩ := h.step hstep
    apply ih h₁

end

end Inv

/-! ### The count of bytes in flight -/

/-- The row of flights starts at the last acknowledgement, and the count of bytes in
flight is what it spans. -/
structure Exact (σ : Sender) : Prop extends Inv σ.unacknowledged σ where
  counted_eq : σ.counted = Flight.span σ.flights

/-- An acknowledgement that keeps the count exact: it is not exactly half the sequence
space ahead, it acknowledges everything in flight while a probe is outstanding at `next`,
and it does not reach a stale probe. -/
def AckExact (σ : Sender) (acknowledgement : SequenceNumber) : Prop :=
  acknowledgement ≠ advance σ.unacknowledged (2 ^ 31) ∧
    ∀ probe, σ.probe = some probe →
      (probe.sequence = σ.next → le σ.next acknowledgement = true) ∧
        (probe.fin = false → probe.sequence ≠ σ.next →
          lt probe.sequence acknowledgement = false)

namespace Exact

variable {acknowledgement : SequenceNumber}

section

variable (h : Exact σ)

include h

/-- Once its SYN is sent, a connection that is opening has it in flight. -/
theorem started (hphase : σ.phase = .opening) :
  σ.flights ≠ []
  := by
  intro hnil
  have htiles := h.tiles
  obtain ⟨hnext, -, -⟩ := h.opening hphase
  rw [hnil, ← hnext] at htiles
  have hone := distance_advance σ.unacknowledged (show 1 < 2 ^ 32 by decide)
  rw [← htiles, distance_self] at hone
  contradiction

theorem ackSafe (hexact : σ.AckExact acknowledgement) :
  σ.AckSafe acknowledgement
  := by
  rintro probe ⟨hprobe, hfin, hstale⟩
  refine ⟨(hexact.2 probe hprobe).2 hfin hstale, ?_⟩
  obtain ⟨j, hj, hsequence⟩ := (h.probe probe hprobe).sent
  have htiles := h.tiles
  cases hflights : σ.flights with
  | nil =>
    -- without flights the only number of the row is `next`
    rw [hflights] at hj htiles
    obtain rfl : j = 0 := by simpa using hj
    rw [advance_zero] at hsequence
    apply absurd (hsequence.trans htiles) hstale
  | cons flight rest =>
    rw [hflights] at htiles
    simp [htiles.1]

/-- The bytes an acknowledgement within the row takes off the count are those before
it. -/
theorem ackedBytes_within (hexact : σ.AckExact acknowledgement)
    (hx : distance σ.unacknowledged acknowledgement ≤ Flight.span σ.flights) :
  σ.ackedBytes acknowledgement = distance σ.unacknowledged acknowledgement
  := by
  have hspan := h.span_lt
  cases hprobe : σ.probe with
  | none => simp [ackedBytes, hprobe]
  | some probe =>
    simp only [ackedBytes, hprobe]
    split
    · rename_i hcond
      rw [Bool.and_eq_true] at hcond
      obtain ⟨j, hj, hsequence⟩ := (h.probe probe hprobe).sent
      have hj' : j = Flight.span σ.flights := by
        have hle := hcond.2
        rw [hsequence, h.next_eq, le_near _ (by omega) (by omega)] at hle
        omega
      subst hj'
      have hfull := (hexact.2 probe hprobe).1 (hsequence.trans h.next_eq.symm)
      rw [h.next_eq] at hfull ⊢
      rw [← advance_distance σ.unacknowledged acknowledgement,
        le_near _ (by omega) (by omega)] at hfull
      rw [distance_advance _ (by omega)]
      omega
    · rfl

/-- An acknowledgement of the probe takes everything in flight off the count. -/
theorem ackedBytes_beyond (hprobe : σ.probe = some probe) (hfresh : probe.sequence = σ.next)
    (hx : distance σ.unacknowledged acknowledgement = Flight.span σ.flights + 1) :
  σ.ackedBytes acknowledgement = Flight.span σ.flights
  := by
  have hspan := h.span_lt
  have hok := h.probe probe hprobe
  have hend := Inv.endSequence_eq hok (hfresh.trans h.next_eq)
  have hack : acknowledgement = probe.endSequence := by
    rw [hend, ← hx, advance_distance]
  simp only [ackedBytes, hprobe, hack, hfresh, le_refl, Bool.and_self, if_true]
  rw [h.next_eq, distance_advance _ (by omega)]

theorem settle (haccepts : σ.Accepts acknowledgement) (hexact : σ.AckExact acknowledgement) :
  Exact (σ.settle acknowledgement)
  := by
  have hspan := h.span_lt
  have hsafe := h.ackSafe hexact
  obtain hx | ⟨hx, probe, hprobe, hfresh⟩ | hx := h.zones haccepts hsafe
  · refine ⟨h.settle_within hsafe hx, ?_⟩
    obtain ⟨-, -, -, hsum⟩ := Flight.tiles_discard h.wf h.tiles (by omega) hx
    rw [advance_distance] at hsum
    simp only [Sender.settle]
    rw [h.ackedBytes_within hexact hx, h.counted_eq]
    omega
  · obtain ⟨hinv, hflights⟩ := h.settle_beyond hprobe hfresh hx
    refine ⟨hinv, ?_⟩
    rw [hflights]
    simp only [Sender.settle]
    rw [h.ackedBytes_beyond hprobe hfresh hx, h.counted_eq, Nat.sub_self, Flight.span_nil]
  · -- half the sequence space ahead with nothing in flight
    have hle : distance σ.unacknowledged acknowledgement ≤ 2 ^ 31 := by
      rw [Accepts] at haccepts
      split at haccepts
      · rw [haccepts, h.next_eq, distance_advance _ (by omega)]
        omega
      · apply Inv.distance_le_of_not_le haccepts.2
    apply absurd _ hexact.1
    have heq : distance σ.unacknowledged acknowledgement = 2 ^ 31 := by omega
    rw [← heq, advance_distance]

/-- Every step keeps the count exact. -/
theorem step (hstep : Step AckExact σ event σ') :
  Exact σ'
  := by
  have hrow (hack : ∀ acknowledgement, event ≠ .acked acknowledgement) :
      Inv σ'.unacknowledged σ' := by
    obtain ⟨hinv, heq⟩ | ⟨hphase, hnil, _⟩ := h.step_row hstep hack
    · rwa [heq]
    · apply absurd hnil (h.started hphase)
  cases hstep with
  | write | probeData | probeFin | forgetProbe | finish =>
    apply Exact.mk (hrow (by simp)) h.counted_eq
  | sendData _ _ _ hburst _ hcounted =>
    have hinv := hrow (by simp)
    refine ⟨hinv, ?_⟩
    have hspan := hinv.span_lt
    simp only [Flight.span_append, hburst.span_eq] at hspan ⊢
    have hword : 2 ^ 30 ≤ maxWord 32 := by decide
    rw [h.counted_eq] at hcounted
    omega
  | sendFin =>
    have hspan := h.span_lt
    refine ⟨hrow (by simp), ?_⟩
    have hword : 2 ^ 30 ≤ maxWord 32 := by decide
    simp only [h.counted_eq, Flight.span_append]
    apply satAdd_eq
    omega
  | sendHandshake hphase hflights => apply absurd hflights (h.started hphase)
  | resend => apply h
  | ack haccepts hexact => apply h.settle haccepts hexact

theorem steps (hsteps : Steps AckExact σ events σ') :
  Exact σ'
  := by
  induction hsteps with
  | nil => apply h
  | cons hstep _ ih => apply ih (h.step hstep)

end

end Exact

/-! ### The stream -/

/-- The sender carries the bytes `written` so far from offset `base` on: they are what it
holds, in flight and then queued, numbered from `origin`. -/
structure Holds (origin : SequenceNumber) (written : Bytes) (base : Nat) (σ : Sender) :
    Prop where
  base_le : base ≤ written.length
  held : Flight.bytes σ.flights ++ σ.queue = written.drop base
  carries : Flight.Carries origin base σ.flights
  next_eq : σ.finSent = false →
    σ.next = advance origin (base + (Flight.bytes σ.flights).length)

section

variable (origin) (written : Bytes)

/-- The payload of a segment is the part of the stream its sequence number denotes.  The
sequence number denotes the offset among the last `2 ^ 32` of the stream. -/
def InStream (sequence : SequenceNumber) (payload : Bytes) : Prop :=
  payload ≠ [] → ∃ offset, sequence = advance origin offset ∧
    offset + payload.length ≤ written.length ∧ written.length < offset + 2 ^ 32 ∧
    (written.drop offset).take payload.length = payload

def writtenAfter : SendEvent → Bytes
  | .wrote bytes => written ++ bytes
  | _ => written

/-- What an event shows of the stream: a segment carries its part of it, and only an
acknowledgement moves the offset from which on the stream is held, past the bytes it
covers. -/
def Faithful (base base' : Nat) : SendEvent → Prop
  | .emitted sequence payload => base' = base ∧ InStream origin written sequence payload
  | .acked acknowledgement => base ≤ base' ∧
      ∀ i, base ≤ i → i < base' → le (advance origin (i + 1)) acknowledgement = true
  | _ => base' = base

end

namespace Holds

variable {written : Bytes} {base : Nat} {acknowledgement : SequenceNumber}

section

variable (h : Holds origin written base σ)
include h

theorem written_length_lt (hinv : Inv first σ) :
  written.length < base + 2 ^ 31
  := by
  have hheld := congrArg length h.held
  rw [length_append, length_drop] at hheld
  have hbytes := Flight.length_bytes_le hinv.wf
  have hspan := hinv.span_lt
  have hqueue := hinv.queue_le
  have hbuffer : tcpTransmitBufferBytes < 2 ^ 30 := by decide
  omega

theorem queue_eq :
  written.drop (base + (Flight.bytes σ.flights).length) = σ.queue
  := by
  rw [← drop_drop, ← h.held, drop_left]

section

variable (hinv : Inv first σ)

include hinv

theorem inStream_queue (hfin : σ.finSent = false) (hqueue : σ.queue = payload ++ rest) :
  InStream origin written σ.next payload
  := by
  intro _
  have hlt := h.written_length_lt hinv
  refine ⟨base + (Flight.bytes σ.flights).length, h.next_eq hfin, ?_, by omega, ?_⟩
  · have hheld := congrArg length h.held
    have hbase := h.base_le
    rw [length_append, length_drop, hqueue, length_append] at hheld
    omega
  · rw [h.queue_eq, hqueue, take_left]

theorem inStream_flight {flight : Flight} {n : Nat} (hmem : flight ∈ σ.flights) :
  InStream origin written flight.sequence (flight.payload.take n)
  := by
  intro hne
  have hpayload : flight.payload ≠ [] := by
    intro hnil
    simp [hnil] at hne
  obtain ⟨k, hsequence, rest, hdrop⟩ := h.carries.mem hmem hpayload
  have hlt := h.written_length_lt hinv
  -- the bytes from the flight on are the stream from its offset on
  have hk : k ≤ (Flight.bytes σ.flights).length := by
    by_contra hgt
    rw [drop_eq_nil_of_le (by omega)] at hdrop
    simp [hpayload] at hdrop
  have hstream : written.drop (base + k) = flight.payload ++ (rest ++ σ.queue) := by
    rw [← drop_drop, ← h.held, drop_append_of_le_length hk, hdrop, append_assoc]
  have hlength := congrArg length hstream
  have hpos := length_pos_iff.mpr hpayload
  rw [length_drop, length_append] at hlength
  refine ⟨base + k, hsequence, ?_, by omega, ?_⟩
  · rw [length_take]
    omega
  · rw [hstream, length_take, take_append_of_le_length (min_le_right _ _), ← take_take, take_length]

/-- An acknowledgement only releases bytes that it covers. -/
theorem settle (haccepts : σ.Accepts acknowledgement) (hsafe : σ.AckSafe acknowledgement) :
  ∃ base', Holds origin written base' (σ.settle acknowledgement) ∧
    Faithful origin written base base' (.acked acknowledgement)
  := by
  have hspan := hinv.span_lt
  have hbytes := Flight.length_bytes_le hinv.wf
  have hheld := congrArg length h.held
  rw [length_append, length_drop] at hheld
  have hbase := h.base_le
  -- everything before a number of the stream is covered by it
  have hcovers : ∀ m, m < 2 ^ 31 → ∀ i, base ≤ i → i < base + m →
      le (advance origin (i + 1)) (advance origin (base + m)) = true := by
    intro m hm i hi hi'
    have hsplit : i + 1 = base + (i + 1 - base) := by omega
    rw [hsplit, ← advance_advance origin base m, ← advance_advance,
      le_arc _ (by simp only [reduceSub]; omega) hm]
    omega
  obtain hx | ⟨hx, probe, hprobe, hfresh⟩ | hx := hinv.zones haccepts hsafe
  · obtain ⟨k, hk, hdiscard, hcarries, hcover⟩ :=
      Flight.carries_discard hinv.wf hinv.tiles (by omega) hx h.carries
    rw [advance_distance] at hdiscard hcarries hcover
    have hkept : (σ.settle acknowledgement).queue = σ.queue ∧
        (σ.settle acknowledgement).next = σ.next ∧
        (σ.settle acknowledgement).finSent = σ.finSent := by
      obtain ⟨heq, -⟩ | heq := hinv.settleProbe_within hsafe hx <;>
        simp [Sender.settle, heq]
    obtain ⟨hqueue, hnext, hfin⟩ := hkept
    refine ⟨base + k, ⟨by omega, ?_, hcarries, ?_⟩, by omega, ?_⟩
    · rw [← drop_drop, ← h.held, drop_append_of_le_length hk]
      congr 1
    · rw [hfin, hnext]
      intro hnot
      rw [h.next_eq hnot]
      simp only [Sender.settle, hdiscard, length_drop]
      congr 1
      omega
    · intro i hi hi'
      have hi'' := hcover (i - base) (by omega)
      rwa [add_sub_of_le hi] at hi''
  · obtain ⟨-, hflights⟩ := hinv.settle_beyond hprobe hfresh hx
    obtain ⟨hack, ⟨hqueue, heq⟩ | ⟨hphase, hqueue, hnot, heq⟩⟩ :=
      hinv.settleProbe_beyond hprobe hfresh hx
    · have hnot : σ.finSent = false := by
        by_contra hsent
        apply hqueue (hinv.finSent (by simpa using hsent)).2
      have hpos := length_pos_iff.mpr hqueue
      have hnext := h.next_eq hnot
      refine ⟨base + ((Flight.bytes σ.flights).length + 1), ⟨by omega, ?_, ?_, ?_⟩, by omega, ?_⟩
      · rw [hflights, Flight.bytes_nil, nil_append, ← add_assoc, ← drop_drop, h.queue_eq]
        simp only [Sender.settle, heq]
      · rw [hflights]
        trivial
      · intro _
        rw [hflights, Flight.bytes_nil, length_nil, add_zero, ← add_assoc,
          ← advance_advance, ← hnext]
        simp only [Sender.settle, heq]
      · rw [hack, hnext, advance_advance]
        apply hcovers
        omega
    · have hnext := h.next_eq hnot
      refine ⟨base + (Flight.bytes σ.flights).length, ⟨by omega, ?_, ?_, ?_⟩, by omega, ?_⟩
      · rw [hflights, Flight.bytes_nil, nil_append, h.queue_eq]
        simp only [Sender.settle, heq]
      · rw [hflights]
        trivial
      · intro hsent
        simp [Sender.settle, heq] at hsent
      · intro i hi hi'
        rw [hack, hnext, advance_advance, add_assoc]
        apply hcovers _ (by omega) i hi (by omega)
  · obtain ⟨-, hflights⟩ := hinv.settle_behind hx
    have heq := hinv.settleProbe_behind hx
    refine ⟨base, ⟨hbase, ?_, ?_, ?_⟩, Nat.le_refl _, ?_⟩
    · rw [hflights]
      simpa only [Sender.settle, heq] using h.held
    · rw [hflights]
      apply h.carries
    · rw [hflights]
      simpa only [Sender.settle, heq] using h.next_eq
    · omega

/-- Every step carries the stream on. -/
theorem step (hstep : Step AckSafe σ event σ') :
  ∃ base', Holds origin (writtenAfter written event) base' σ' ∧
    Faithful origin written base base' event
  := by
  cases hstep with
  | write hphase hle =>
    refine ⟨base, ⟨?_, ?_, h.carries, h.next_eq⟩, rfl⟩
    · rw [writtenAfter, length_append]
      apply le_trans h.base_le (le_add_right _ _)
    · rw [writtenAfter, drop_append_of_le_length h.base_le, ← h.held, append_assoc]
  | sendData hfin hne hqueue hburst hlength hcounted =>
    refine ⟨base, ⟨h.base_le, ?_, ?_, ?_⟩, rfl, h.inStream_queue hinv hfin hqueue⟩
    · rw [Flight.bytes_append, hburst.bytes_eq, append_assoc, ← hqueue]
      apply h.held
    · apply h.carries.append
      have htiles := hburst.tiles
      rw [h.next_eq hfin] at htiles
      apply Flight.Carries.of_tiles htiles hburst.wf hburst.data
    · intro _
      rw [Flight.bytes_append, hburst.bytes_eq, length_append, ← add_assoc,
        ← advance_advance, ← h.next_eq hfin]
  | sendFin hphase hfin hqueue hlength =>
    refine ⟨base, ⟨h.base_le, ?_, ?_, ?_⟩, rfl, fun hne => absurd rfl hne⟩
    · simpa [writtenAfter] using h.held
    · apply h.carries.append
      simp [Flight.Carries]
    · intro hsent
      contradiction
  | sendHandshake hphase hflights =>
    refine ⟨base, ⟨h.base_le, ?_, ?_, ?_⟩, rfl, fun hne => absurd rfl hne⟩
    · simpa [hflights, writtenAfter] using h.held
    · simp [Flight.Carries]
    · simpa [hflights] using h.next_eq
  | probeData hqueue =>
    have hfin : σ.finSent = false := by
      by_contra hsent
      apply hqueue (hinv.finSent (by simpa using hsent)).2
    refine ⟨base, { h with }, rfl, ?_⟩
    apply h.inStream_queue hinv hfin (take_append_drop 1 σ.queue).symm
  | probeFin hphase hfin hqueue =>
    refine ⟨base, { h with }, rfl, fun hne => absurd rfl hne⟩
  | resend hmem => refine ⟨base, h, rfl, h.inStream_flight hinv hmem⟩
  | forgetProbe | finish => refine ⟨base, { h with }, rfl⟩
  | ack haccepts hsafe => apply h.settle hinv haccepts hsafe

end

end

end Holds

def FaithfulAll (origin : SequenceNumber) : Bytes → Nat → List SendEvent → Nat → Prop
  | _, base, [], base' => base' = base
  | written, base, event :: events, base' =>
    ∃ base₁, Faithful origin written base base₁ event ∧
      FaithfulAll origin (writtenAfter written event) base₁ events base'

/-- Every sequence of steps carries the stream on. -/
theorem Holds.steps {written : Bytes} {base : Nat} (h : Holds origin written base σ)
    (hinv : Inv first σ) (hsteps : Steps AckSafe σ events σ') :
  ∃ first' base', Inv first' σ' ∧ Holds origin (events.foldl writtenAfter written) base' σ' ∧
    FaithfulAll origin written base events base'
  := by
  induction hsteps generalizing first written base with
  | nil => refine ⟨first, base, hinv, h, rfl⟩
  | cons hstep _ ih =>
    obtain ⟨first₁, hinv₁⟩ := hinv.step hstep
    obtain ⟨base₁, hholds₁, hfaithful⟩ := h.step hinv hstep
    obtain ⟨first', base', hinv', hholds', hfaithful'⟩ := ih hholds₁ hinv₁
    refine ⟨first', base', hinv', hholds', base₁, hfaithful, hfaithful'⟩

end Sender

end Helios
