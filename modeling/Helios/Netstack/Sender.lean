import Helios.Netstack.Flight
import Helios.Netstack.TcpSend

/-!
# What the sending half of a connection is for

A sender holds the bytes of a stream that its peer has not acknowledged: first those in
flight, then those still queued.  This module describes the sender by what it holds and
by the steps it may take, without timers, congestion control or selective
acknowledgement.  The sending half of a TCP socket takes only such steps.
-/

namespace Helios

open Machine Serial Flight Nat

/-- How far a connection has come: its SYN is not acknowledged yet, the application may
write, or the application may write no more. -/
inductive SendPhase where
  | opening
  | writable
  | finishing
  deriving DecidableEq

/-- The sending half of a connection, by what it holds. -/
structure Sender where
  phase : SendPhase
  next : SequenceNumber
  unacknowledged : SequenceNumber
  flights : List Flight
  queue : Bytes
  counted : Nat
  finSent : Bool
  probe : Option TcpPersistProbe

inductive SendEvent where
  | quiet
  | wrote (bytes : Bytes)
  | emitted (sequence : SequenceNumber) (payload : Bytes)
  | acked (acknowledgement : SequenceNumber)

namespace Sender

variable (self : Sender)

variable {event : SendEvent} {safe' : Sender → SequenceNumber → Prop}

variable {safe : Sender → SequenceNumber → Prop} {σ σ' : Sender}

/-! ### Steps -/

/-- The flights a burst of `payload` from `sequence` on is cut into. -/
structure BurstOf (sequence : SequenceNumber) (payload : Bytes) (flights : List Flight) :
    Prop where
  tiles : Tiles sequence flights (advance sequence payload.length)
  bytes_eq : bytes flights = payload
  wf : ∀ flight ∈ flights, flight.Wf
  data : ∀ flight ∈ flights, flight.payload ≠ []

/-- The highest sequence number sent, as the code computes it. -/
def highest : SequenceNumber :=
  match self.probe with
  | none => self.next
  | some probe =>
    if self.next.toNat ≤ probe.endSequence.toNat then probe.endSequence else self.next

variable (acknowledgement : SequenceNumber)

/-- An acknowledgement the sender acts on: the one that completes the opening, and after
that one that is not beyond what was sent and not at or before the last one. -/
def Accepts : Prop :=
  if self.phase = .opening then
    acknowledgement = self.next
  else
    lt self.highest acknowledgement = false ∧ le acknowledgement self.unacknowledged = false

/-- What an acknowledgement takes off the count of bytes in flight. -/
def ackedBytes : Nat :=
  match self.probe with
  | none => distance self.unacknowledged acknowledgement
  | some probe =>
    if le acknowledgement probe.endSequence && le self.next probe.sequence then
      distance self.unacknowledged self.next
    else
      distance self.unacknowledged acknowledgement

/-- What an acknowledgement does to the probe, and to the byte or the FIN it carried. -/
def settleProbe : Sender :=
  match self.probe with
  | none => self
  | some probe =>
    if lt probe.sequence acknowledgement then
      if probe.fin then
        { self with
          probe := none
          finSent := true
          next := if self.finSent then self.next else advance self.next 1 }
      else
        let acked := min (distance probe.sequence acknowledgement) probe.sequenceLen
        { self with
          probe := none
          queue := self.queue.drop acked
          next := advance self.next acked }
    else
      self

theorem settleProbe_unacknowledged (unacknowledged acknowledgement : SequenceNumber) :
  { self with unacknowledged }.settleProbe acknowledgement =
    { self.settleProbe acknowledgement with unacknowledged }
  := by
  simp only [settleProbe]
  repeat' split
  all_goals rfl

/-- What an accepted acknowledgement does. -/
def settle : Sender :=
  { self.settleProbe acknowledgement with
    phase := if self.phase = .opening then .writable else self.phase
    unacknowledged := acknowledgement
    counted := self.counted - self.ackedBytes acknowledgement
    flights := discard acknowledgement self.flights }

/-- The steps of a sender that takes only acknowledgements for which `safe` holds. -/
inductive Step (safe : Sender → SequenceNumber → Prop) : Sender → SendEvent → Sender → Prop where
  | write {σ : Sender} {bytes : Bytes} :
      σ.phase = .writable → (σ.queue ++ bytes).length ≤ tcpTransmitBufferBytes →
      Step safe σ (.wrote bytes) { σ with queue := σ.queue ++ bytes }
  | sendData {σ : Sender} {payload rest : Bytes} {burst : List Flight} {counted : Nat} :
      σ.finSent = false → payload ≠ [] → σ.queue = payload ++ rest →
      BurstOf σ.next payload burst →
      σ.flights.length + burst.length ≤ maxTcpInFlightSegments →
      (σ.counted + payload.length ≤ maxWord 32 → counted = σ.counted + payload.length) →
      Step safe σ (.emitted σ.next payload)
        { σ with
          queue := rest
          flights := σ.flights ++ burst
          next := advance σ.next payload.length
          counted }
  | sendFin {σ : Sender} :
      σ.phase = .finishing → σ.finSent = false → σ.queue = [] →
      σ.flights.length < maxTcpInFlightSegments →
      Step safe σ (.emitted σ.next [])
        { σ with
          flights := σ.flights ++ [⟨σ.next, [], 1⟩]
          next := advance σ.next 1
          counted := satAdd 32 σ.counted 1
          finSent := true }
  | sendHandshake {σ : Sender} :
      σ.phase = .opening → σ.flights = [] →
      Step safe σ (.emitted σ.unacknowledged [])
        { σ with
          flights := [⟨σ.unacknowledged, [], 1⟩]
          counted := satAdd 32 σ.counted 1 }
  | probeData {σ : Sender} :
      σ.queue ≠ [] →
      Step safe σ (.emitted σ.next (σ.queue.take 1)) { σ with probe := some ⟨σ.next, 1, false⟩ }
  | probeFin {σ : Sender} :
      σ.phase = .finishing → σ.finSent = false → σ.queue = [] →
      Step safe σ (.emitted σ.next []) { σ with probe := some ⟨σ.next, 1, true⟩ }
  | resend {σ : Sender} {flight : Flight} {n : Nat} :
      flight ∈ σ.flights → Step safe σ (.emitted flight.sequence (flight.payload.take n)) σ
  | forgetProbe {σ : Sender} :
      Step safe σ .quiet { σ with probe := none }
  | finish {σ : Sender} :
      Step safe σ .quiet { σ with phase := .finishing }
  | ack {σ : Sender} {acknowledgement : SequenceNumber} :
      σ.Accepts acknowledgement → safe σ acknowledgement →
      Step safe σ (.acked acknowledgement) (σ.settle acknowledgement)

/-- A sequence of steps with what an observer sees of them. -/
inductive Steps (safe : Sender → SequenceNumber → Prop) :
    Sender → List SendEvent → Sender → Prop where
  | nil {σ : Sender} : Steps safe σ [] σ
  | cons {σ σ' σ'' : Sender} {event : SendEvent} {events : List SendEvent} :
      Step safe σ event σ' → Steps safe σ' events σ'' → Steps safe σ (event :: events) σ''

theorem Steps.single (h : Step safe σ event σ') :
  Steps safe σ [event] σ'
  := .cons h .nil

section

variable (hsafe : ∀ σ acknowledgement, safe σ acknowledgement → safe' σ acknowledgement)

include hsafe

/-- A weaker condition on the acknowledgements admits more steps. -/
theorem Step.mono (h : Step safe σ event σ') :
  Step safe' σ event σ'
  := by
  cases h with
  | write hphase hle => apply Step.write hphase hle
  | sendData hfin hne hqueue hburst hlength hcounted =>
    apply Step.sendData hfin hne hqueue hburst hlength hcounted
  | sendFin hphase hfin hqueue hlength => apply Step.sendFin hphase hfin hqueue hlength
  | sendHandshake hphase hflights => apply Step.sendHandshake hphase hflights
  | probeData hqueue => apply Step.probeData hqueue
  | probeFin hphase hfin hqueue => apply Step.probeFin hphase hfin hqueue
  | resend hmem => apply Step.resend hmem
  | forgetProbe => apply Step.forgetProbe
  | finish => apply Step.finish
  | ack haccepts hack => apply Step.ack haccepts (hsafe _ _ hack)

theorem Steps.mono {events : List SendEvent} (h : Steps safe σ events σ') :
  Steps safe' σ events σ'
  := by
  induction h with
  | nil => apply Steps.nil
  | cons hstep _ ih => apply Steps.cons (hstep.mono hsafe) ih

end

/-! ### The invariant -/

/-- What is known of an outstanding probe.  A data probe at `next` asks about the first
queued byte; one behind `next` is stale, its byte was sent again as data since.  A probe
that carries the FIN is always the last thing sent. -/
structure ProbeOk (first : SequenceNumber) (σ : Sender) (probe : TcpPersistProbe) : Prop where
  sequenceLen_eq : probe.sequenceLen = 1
  sent : ∃ j ≤ span σ.flights, probe.sequence = advance first j
  data : probe.fin = false → probe.sequence = σ.next → σ.queue ≠ []
  fin : probe.fin = true → σ.phase = .finishing ∧ σ.queue = [] ∧
    (σ.finSent = false ∧ probe.sequence = σ.next ∨
      σ.finSent = true ∧ advance probe.sequence 1 = σ.next)

/-- What holds of a sender whose row of flights starts at `first`. -/
structure Inv (first : SequenceNumber) (σ : Sender) : Prop where
  tiles : Tiles first σ.flights σ.next
  wf : ∀ flight ∈ σ.flights, flight.Wf
  length_le : σ.flights.length ≤ maxTcpInFlightSegments
  queue_le : σ.queue.length ≤ tcpTransmitBufferBytes
  probe : ∀ probe, σ.probe = some probe → ProbeOk first σ probe
  opening : σ.phase = .opening →
    advance σ.unacknowledged 1 = σ.next ∧ σ.probe = none ∧ σ.queue = []
  finSent : σ.finSent = true → σ.phase = .finishing ∧ σ.queue = []

/-- A data probe is outstanding whose byte was sent again as data since. -/
def StaleProbe (σ : Sender) (probe : TcpPersistProbe) : Prop :=
  σ.probe = some probe ∧ probe.fin = false ∧ probe.sequence ≠ σ.next

/-- An acknowledgement that does not reach a stale probe.  While one is outstanding the
code's highest sequence number sent must also be right, unless the row of flights starts
at the last acknowledgement. -/
def AckSafe (σ : Sender) (acknowledgement : SequenceNumber) : Prop :=
  ∀ probe, σ.StaleProbe probe →
    lt probe.sequence acknowledgement = false ∧
      (σ.highest = σ.next ∨ σ.flights.head?.map sequence = some σ.unacknowledged)

/-! ### Where an acknowledgement falls -/

namespace Inv

variable {j : Nat}

variable {probe : TcpPersistProbe}

variable {first acknowledgement : SequenceNumber} {σ : Sender}

theorem span_lt (h : Inv first σ) :
  span σ.flights < 2 ^ 30
  := by
  have hspan := span_le h.wf
  have hlength : σ.flights.length * tcpReceiveSegmentBytes ≤
      maxTcpInFlightSegments * tcpReceiveSegmentBytes := mul_le_mul_right _ h.length_le
  have hmax : maxTcpInFlightSegments * tcpReceiveSegmentBytes < 2 ^ 30 := by decide
  omega

theorem next_eq (h : Inv first σ) :
  σ.next = advance first (span σ.flights)
  := h.tiles.last_eq

/-- A number of the row, or the one just behind it, is at `next` only if it is the last. -/
theorem eq_span_of_next (h : Inv first σ) (hj : j ≤ span σ.flights + 1)
    (hnext : advance first j = σ.next) :
  j = span σ.flights
  := by
  have hspan := h.span_lt
  apply advance_injective first (by omega) (by omega)
  rw [hnext, h.next_eq]

/-- An acknowledgement that is not beyond a number of the row lies at or before it, or
half the sequence space behind it. -/
theorem distance_of_not_beyond {m : Nat} (hm : m < 2 ^ 31)
    (h : lt (advance first m) acknowledgement = false) :
  distance first acknowledgement ≤ m ∨ 2 ^ 31 + m ≤ distance first acknowledgement
  := by
  have hlt := distance_lt first acknowledgement
  rw [← advance_distance first acknowledgement, Bool.eq_false_iff, ne_eq,
    lt_advance_iff first (by omega) hlt] at h
  omega

/-- An acknowledgement not at or before the start of the row lies at most half the
sequence space ahead of it. -/
theorem distance_le_of_not_le (h : le acknowledgement first = false) :
  distance first acknowledgement ≤ 2 ^ 31
  := by
  have hlt := distance_lt first acknowledgement
  have hfirst : le acknowledgement first =
      le (advance first (distance first acknowledgement)) (advance first 0) := by
    rw [advance_distance, advance_zero]
  rw [hfirst, Bool.eq_false_iff, ne_eq, le_advance_iff first hlt (by decide)] at h
  omega

/-- The highest sequence number sent while a probe is outstanding is `next` or the end of
the probe. -/
theorem highest_eq (hprobe : σ.probe = some probe) :
  σ.highest = σ.next ∨ σ.highest = probe.endSequence
  := by
  simp only [highest, hprobe]
  split
  · right
    rfl
  · left
    rfl

theorem endSequence_eq (hok : ProbeOk first σ probe) (hj : probe.sequence = advance first j) :
  probe.endSequence = advance first (j + 1)
  := by
  rw [TcpPersistProbe.endSequence, hok.sequenceLen_eq, hj, ← advance_advance]
  rfl

section

variable (h : Inv first σ)

include h

/-- Where an accepted acknowledgement falls: within the row, on a probe just behind it,
or so far behind that it concerns nothing in flight. -/
theorem zones (haccepts : σ.Accepts acknowledgement) (hsafe : σ.AckSafe acknowledgement) :
  distance first acknowledgement ≤ span σ.flights ∨
    distance first acknowledgement = span σ.flights + 1 ∧
      (∃ probe, σ.probe = some probe ∧ probe.sequence = σ.next) ∨
    2 ^ 31 + span σ.flights ≤ distance first acknowledgement
  := by
  have hspan := h.span_lt
  rw [Accepts] at haccepts
  split at haccepts
  · left
    rw [haccepts, h.next_eq, distance_advance first (by omega)]
  · obtain ⟨hhighest, hnotLe⟩ := haccepts
    -- when the highest number is `next`, only the row itself is acknowledged
    have hwithin {probed : Prop} (heq : σ.highest = σ.next) :
        distance first acknowledgement ≤ span σ.flights ∨ probed ∨
          2 ^ 31 + span σ.flights ≤ distance first acknowledgement := by
      rw [heq, h.next_eq] at hhighest
      apply (distance_of_not_beyond (by omega) hhighest).imp_right .inr
    cases hprobe : σ.probe with
    | none =>
      apply hwithin
      simp [highest, hprobe]
    | some probe =>
      have hok := h.probe probe hprobe
      obtain ⟨j, hj, hsequence⟩ := hok.sent
      have hend := endSequence_eq hok hsequence
      obtain heq | heq := highest_eq hprobe
      · apply hwithin heq
      · rw [heq, hend] at hhighest
        have hcases := distance_of_not_beyond (by omega) hhighest
        by_cases hfresh : probe.sequence = σ.next
        · have hj' := h.eq_span_of_next (by omega) (hsequence.symm.trans hfresh)
          subst hj'
          obtain hle | hge := hcases
          · obtain hlt | hlast := lt_or_eq_of_le hle
            · omega
            · right; left
              apply And.intro hlast ⟨probe, rfl, hfresh⟩
          · omega
        · have hj' : j ≠ span σ.flights := by
            rintro rfl
            apply hfresh
            rw [hsequence, h.next_eq]
          cases hfin : probe.fin with
          | true =>
            obtain ⟨-, -, ⟨-, hnext⟩ | ⟨-, hnext⟩⟩ := hok.fin hfin
            · contradiction
            · rw [hsequence, advance_advance] at hnext
              have hj'' := h.eq_span_of_next (by omega) hnext
              omega
          | false =>
            obtain ⟨-, hordered | hhead⟩ := hsafe probe ⟨hprobe, hfin, hfresh⟩
            · apply hwithin hordered
            · have hfirst : first = σ.unacknowledged := by
                have htiles := h.tiles
                cases hflights : σ.flights with
                | nil => simp [hflights] at hhead
                | cons flight rest =>
                  rw [hflights] at hhead htiles
                  rw [← htiles.1]
                  simpa using hhead
              rw [← hfirst] at hnotLe
              have hle := distance_le_of_not_le hnotLe
              omega

/-! ### What an acknowledgement does -/

/-- Within the row an acknowledgement reaches no probe, except a FIN that was sent again
since. -/
theorem settleProbe_within (hsafe : σ.AckSafe acknowledgement)
    (hx : distance first acknowledgement ≤ span σ.flights) :
  σ.settleProbe acknowledgement = σ ∧
      (∀ probe, σ.probe = some probe → lt probe.sequence acknowledgement = false) ∨
    σ.settleProbe acknowledgement = { σ with probe := none }
  := by
  have hspan := h.span_lt
  cases hprobe : σ.probe with
  | none =>
    simp [settleProbe, hprobe]
  | some probe =>
    have hok := h.probe probe hprobe
    cases hlt : lt probe.sequence acknowledgement with
    | false =>
      left
      refine ⟨by simp [settleProbe, hprobe, hlt], ?_⟩
      rintro probe' ⟨⟩
      apply hlt
    | true =>
      right
      have hnotFresh : probe.sequence ≠ σ.next := by
        intro hfresh
        rw [hfresh, h.next_eq, ← advance_distance first acknowledgement,
          lt_near first (by omega) (by omega)] at hlt
        omega
      cases hfin : probe.fin with
      | false =>
        have hnot := (hsafe probe ⟨hprobe, hfin, hnotFresh⟩).1
        rw [hlt] at hnot
        contradiction
      | true =>
        obtain ⟨-, -, ⟨-, hnext⟩ | ⟨hsent, -⟩⟩ := hok.fin hfin
        · contradiction
        · simp only [settleProbe, hprobe, hlt, hfin, hsent, if_true]

/-- An acknowledgement of a probe just behind the row settles it: the byte leaves the
queue, or the FIN counts as sent. -/
theorem settleProbe_beyond (hprobe : σ.probe = some probe) (hfresh : probe.sequence = σ.next)
    (hx : distance first acknowledgement = span σ.flights + 1) :
  acknowledgement = advance σ.next 1 ∧
    (σ.queue ≠ [] ∧ σ.settleProbe acknowledgement =
        { σ with probe := none, queue := σ.queue.drop 1, next := advance σ.next 1 } ∨
      σ.phase = .finishing ∧ σ.queue = [] ∧ σ.finSent = false ∧
        σ.settleProbe acknowledgement =
          { σ with probe := none, finSent := true, next := advance σ.next 1 })
  := by
  have hok := h.probe probe hprobe
  have hack : acknowledgement = advance σ.next 1 := by
    rw [h.next_eq, advance_advance, ← hx, advance_distance]
  have hdistance : distance probe.sequence acknowledgement = 1 := by
    rw [hfresh, hack, distance_advance _ (by decide)]
  have hlt : lt probe.sequence acknowledgement = true := by
    rw [lt_iff, hdistance]
    decide
  refine ⟨hack, ?_⟩
  cases hfin : probe.fin with
  | false =>
    left
    refine ⟨hok.data hfin hfresh, ?_⟩
    simp [settleProbe, hprobe, hlt, hfin, hdistance, hok.sequenceLen_eq]
  | true =>
    right
    obtain ⟨hphase, hqueue, ⟨hsent, -⟩ | ⟨-, hnext⟩⟩ := hok.fin hfin
    · refine ⟨hphase, hqueue, hsent, ?_⟩
      simp [settleProbe, hprobe, hlt, hfin, hsent]
    · rw [hfresh] at hnext
      have hzero := distance_advance σ.next (show 1 < 2 ^ 32 by decide)
      rw [hnext, distance_self] at hzero
      contradiction

/-- A data probe that a safe acknowledgement reaches asks about the first queued byte. -/
theorem queue_ne_nil (hsafe : σ.AckSafe acknowledgement) (hprobe : σ.probe = some probe)
    (hfin : probe.fin = false) (hlt : lt probe.sequence acknowledgement = true) :
  σ.queue ≠ []
  := by
  by_cases hfresh : probe.sequence = σ.next
  · apply (h.probe probe hprobe).data hfin hfresh
  · have hnot := (hsafe probe ⟨hprobe, hfin, hfresh⟩).1
    rw [hlt] at hnot
    contradiction

theorem settleProbe_behind (hx : 2 ^ 31 + span σ.flights ≤ distance first acknowledgement) :
  σ.settleProbe acknowledgement = σ
  := by
  have hspan := h.span_lt
  cases hprobe : σ.probe with
  | none => simp [settleProbe, hprobe]
  | some probe =>
    obtain ⟨j, hj, hsequence⟩ := (h.probe probe hprobe).sent
    have hlt : lt probe.sequence acknowledgement = false := by
      rw [hsequence, ← advance_distance first acknowledgement, Bool.eq_false_iff, ne_eq,
        lt_advance_iff first (by omega) (distance_lt first acknowledgement)]
      omega
    simp [settleProbe, hprobe, hlt]

end

theorem phase_settle_ne (σ : Sender) (acknowledgement : SequenceNumber) :
  (σ.settle acknowledgement).phase ≠ .opening
  := by
  simp only [settle]
  split
  · simp
  · assumption

theorem phase_settle_eq (hphase : σ.phase = .finishing) :
  (σ.settle acknowledgement).phase = .finishing
  := by
  simp [settle, hphase]

variable (h : Inv first σ)

include h

theorem of_settle {first' : SequenceNumber}
    (htiles : Tiles first' (discard acknowledgement σ.flights) (σ.settleProbe acknowledgement).next)
    (hwf : ∀ flight ∈ discard acknowledgement σ.flights, flight.Wf)
    (hlength : (discard acknowledgement σ.flights).length ≤ σ.flights.length)
    (hqueue : (σ.settleProbe acknowledgement).queue.length ≤ σ.queue.length)
    (hprobe : ∀ probe, (σ.settleProbe acknowledgement).probe = some probe →
      ProbeOk first' (σ.settle acknowledgement) probe)
    (hfin : (σ.settleProbe acknowledgement).finSent = true →
      σ.phase = .finishing ∧ (σ.settleProbe acknowledgement).queue = []) :
  Inv first' (σ.settle acknowledgement)
  := by
  constructor
  · apply htiles
  · apply hwf
  · apply le_trans hlength h.length_le
  · apply le_trans hqueue h.queue_le
  · apply hprobe
  · intro hphase
    apply absurd hphase (phase_settle_ne σ acknowledgement)
  · intro hsent
    obtain ⟨hphase, hnil⟩ := hfin hsent
    apply And.intro (phase_settle_eq hphase) hnil

theorem settle_within (hsafe : σ.AckSafe acknowledgement)
    (hx : distance first acknowledgement ≤ span σ.flights) :
  Inv acknowledgement (σ.settle acknowledgement)
  := by
  have hspan := h.span_lt
  obtain ⟨htiles, hwf, hlength, hsum⟩ := tiles_discard h.wf h.tiles (by omega) hx
  rw [advance_distance] at htiles hwf hlength hsum
  obtain ⟨heq, hnot⟩ | heq := h.settleProbe_within hsafe hx
  · apply h.of_settle _ hwf hlength (by rw [heq]) _ (by rw [heq]; apply h.finSent)
    · rw [heq]
      apply htiles
    · intro probe hprobe
      rw [heq] at hprobe
      have hok := h.probe probe hprobe
      obtain ⟨j, hj, hsequence⟩ := hok.sent
      have hxj : distance first acknowledgement ≤ j := by
        have hlt := hnot probe hprobe
        rw [hsequence, ← advance_distance first acknowledgement, Bool.eq_false_iff, ne_eq,
          lt_near first (by omega) (by omega)] at hlt
        omega
      constructor
      · apply hok.sequenceLen_eq
      · use j - distance first acknowledgement
        refine ⟨by simp only [settle]; omega, ?_⟩
        rw [hsequence]
        nth_rewrite 1 [← add_sub_of_le hxj]
        rw [← advance_advance, advance_distance]
      · simpa only [settle, heq] using hok.data
      · intro hfin
        obtain ⟨hphase, hrest⟩ := hok.fin hfin
        refine ⟨phase_settle_eq hphase, ?_⟩
        simpa only [settle, heq] using hrest
  · apply h.of_settle _ hwf hlength (by rw [heq]) _ (by rw [heq]; apply h.finSent)
    · rw [heq]
      apply htiles
    · intro probe hprobe
      simp [heq] at hprobe

/-- An acknowledgement of a probe just behind the row leaves nothing in flight. -/
theorem settle_beyond (hprobe : σ.probe = some probe) (hfresh : probe.sequence = σ.next)
    (hx : distance first acknowledgement = span σ.flights + 1) :
  Inv acknowledgement (σ.settle acknowledgement) ∧ (σ.settle acknowledgement).flights = []
  := by
  have hspan := h.span_lt
  have hdiscard : discard acknowledgement σ.flights = [] := by
    rw [← advance_distance first acknowledgement]
    apply discard_past h.wf h.tiles <;> omega
  refine ⟨?_, hdiscard⟩
  obtain ⟨hack, ⟨hqueue, heq⟩ | ⟨hphase, hqueue, -, heq⟩⟩ :=
    h.settleProbe_beyond hprobe hfresh hx
  · apply h.of_settle
    · rw [hdiscard, heq, hack]
      rfl
    · simp [hdiscard]
    · simp [hdiscard]
    · simp [heq]
    · simp [heq]
    · intro hsent
      rw [heq] at hsent
      apply absurd (h.finSent hsent).2 hqueue
  · apply h.of_settle
    · rw [hdiscard, heq, hack]
      rfl
    · simp [hdiscard]
    · simp [hdiscard]
    · simp [heq]
    · simp [heq]
    · intro
      rw [heq]
      apply And.intro hphase hqueue

/-- An acknowledgement far behind the row changes nothing but the last
acknowledgement. -/
theorem settle_behind (hx : 2 ^ 31 + span σ.flights ≤ distance first acknowledgement) :
  Inv first (σ.settle acknowledgement) ∧ (σ.settle acknowledgement).flights = σ.flights
  := by
  have hdiscard : discard acknowledgement σ.flights = σ.flights := by
    rw [← advance_distance first acknowledgement]
    apply discard_behind h.wf h.tiles hx (distance_lt first acknowledgement)
  have heq := h.settleProbe_behind hx
  refine ⟨?_, hdiscard⟩
  apply h.of_settle
  · rw [hdiscard, heq]
    apply h.tiles
  · rw [hdiscard]
    apply h.wf
  · rw [hdiscard]
  · rw [heq]
  · intro probe hprobe
    rw [heq] at hprobe
    have hok := h.probe probe hprobe
    constructor
    · apply hok.sequenceLen_eq
    · simpa only [settle, hdiscard] using hok.sent
    · simpa only [settle, heq] using hok.data
    · intro hfin
      obtain ⟨hphase, hrest⟩ := hok.fin hfin
      refine ⟨phase_settle_eq hphase, ?_⟩
      simpa only [settle, heq] using hrest
  · rw [heq]
    apply h.finSent

end Inv

end Sender

end Helios
