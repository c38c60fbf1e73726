import Helios.Netstack.TcpQueues

/-!
# Rows of flights

What a sender has in flight: pieces of a stream that lie one behind the other in
sequence space.  An acknowledgement discards the pieces before it and cuts the piece it
falls into.
-/

namespace Helios

open Machine Serial List Nat

/-! ### Flights -/

/-- A piece of the stream in flight: its first sequence number, its bytes, and the
sequence space it occupies. -/
structure Flight where
  sequence : SequenceNumber
  payload : Bytes
  len : Nat
  deriving DecidableEq

namespace Flight

variable {flights flights' : List Flight} {last first : SequenceNumber} {x : Nat} {flight : Flight}
  {acknowledgement : SequenceNumber}

/-- The sequence number just after a flight. -/
def stop (flight : Flight) : SequenceNumber :=
  advance flight.sequence flight.len

/-- A flight carries at most a segment of data and occupies as many sequence numbers, or
it carries none and occupies one, as a SYN or a FIN does. -/
structure Wf (flight : Flight) : Prop where
  payload_le : flight.payload.length ≤ tcpReceiveSegmentBytes
  len_eq : flight.len = if flight.payload = [] then 1 else flight.payload.length

/-- The flight without the part before `acknowledgement`. -/
def trim (flight : Flight) (acknowledgement : SequenceNumber) : Flight :=
  let trimmed := distance flight.sequence acknowledgement
  { sequence := acknowledgement
    payload := flight.payload.drop trimmed
    len := flight.len - trimmed }

/-- The flights lie one behind the other from `first` to `last`. -/
def Tiles (first : SequenceNumber) : List Flight → SequenceNumber → Prop
  | [], last => first = last
  | flight :: rest, last => flight.sequence = first ∧ Tiles flight.stop rest last

/-- The sequence space the flights occupy. -/
def span (flights : List Flight) : Nat :=
  (flights.map len).sum

/-- The bytes of the flights in order. -/
def bytes (flights : List Flight) : Bytes :=
  (flights.map payload).flatten

/-- What an acknowledgement leaves in flight. -/
def discard (acknowledgement : SequenceNumber) : List Flight → List Flight
  | [] => []
  | flight :: rest =>
    if le flight.stop acknowledgement then
      discard acknowledgement rest
    else if lt flight.sequence acknowledgement then
      flight.trim acknowledgement :: rest
    else
      flight :: rest

@[simp]
theorem span_nil :
  span [] = 0
  := rfl

@[simp]
theorem span_cons (flight : Flight) (rest : List Flight) :
  span (flight :: rest) = flight.len + span rest
  := by
  simp [span]

@[simp]
theorem span_append (flights flights' : List Flight) :
  span (flights ++ flights') = span flights + span flights'
  := by
  simp [span]

@[simp]
theorem bytes_nil :
  bytes [] = []
  := rfl

@[simp]
theorem bytes_cons (flight : Flight) (rest : List Flight) :
  bytes (flight :: rest) = flight.payload ++ bytes rest
  := by
  simp [bytes]

@[simp]
theorem bytes_append (flights flights' : List Flight) :
  bytes (flights ++ flights') = bytes flights ++ bytes flights'
  := by
  simp [bytes]

namespace Wf

variable {flight : Flight}

theorem len_le (h : flight.Wf) :
  flight.len ≤ tcpReceiveSegmentBytes
  := by
  rw [h.len_eq]
  split
  · decide
  · apply h.payload_le

theorem payload_length_le (h : flight.Wf) :
  flight.payload.length ≤ flight.len
  := by
  rw [h.len_eq]
  split
  · rename_i hnil
    simp [hnil]
  · apply Nat.le_refl

end Wf

/-- A bounded number of flights spans far less than half the sequence space. -/
theorem span_le (hwf : ∀ flight ∈ flights, flight.Wf) :
  span flights ≤ flights.length * tcpReceiveSegmentBytes
  := by
  induction flights with
  | nil => simp
  | cons flight rest ih =>
    rw [forall_mem_cons] at hwf
    have hflight := hwf.1.len_le
    have hrest := ih hwf.2
    rw [span_cons, length_cons, succ_mul]
    omega

theorem length_bytes_le (hwf : ∀ flight ∈ flights, flight.Wf) :
  (bytes flights).length ≤ span flights
  := by
  induction flights with
  | nil => simp
  | cons flight rest ih =>
    rw [forall_mem_cons] at hwf
    have hflight := hwf.1.payload_length_le
    have hrest := ih hwf.2
    rw [bytes_cons, span_cons, length_append]
    omega

namespace Tiles

theorem last_eq (h : Tiles first flights last) :
  last = advance first (span flights)
  := by
  induction flights generalizing first with
  | nil =>
    cases h
    simp
  | cons flight rest ih =>
    obtain ⟨hfirst, hrest⟩ := h
    rw [ih hrest, stop, hfirst, advance_advance, span_cons]

theorem append_iff :
  Tiles first (flights ++ flights') last ↔
    Tiles first flights (advance first (span flights)) ∧
      Tiles (advance first (span flights)) flights' last
  := by
  induction flights generalizing first with
  | nil => simp [Tiles]
  | cons flight rest ih =>
    simp only [cons_append, Tiles]
    constructor
    · rintro ⟨rfl, h⟩
      rw [ih, stop, advance_advance] at h
      apply And.intro ⟨rfl, h.1⟩ h.2
    · rintro ⟨⟨rfl, h⟩, h'⟩
      rw [ih, stop, advance_advance]
      apply And.intro rfl (And.intro h h')

/-- Putting more flights behind a row. -/
theorem append {middle : SequenceNumber} (h : Tiles first flights middle)
    (h' : Tiles middle flights' last) :
  Tiles first (flights ++ flights') last
  := by
  have hmiddle := h.last_eq
  subst hmiddle
  apply append_iff.mpr (And.intro h h')

end Tiles

/-! ### Discarding -/

section

variable (hwf : flight.Wf) (hstop : le flight.stop acknowledgement = false)
  (hstart : lt flight.sequence acknowledgement = true)

include hwf hstop hstart

theorem distance_lt_of_partial :
  0 < distance flight.sequence acknowledgement ∧
    distance flight.sequence acknowledgement < flight.len
  := by
  have hle := hwf.len_le
  have hbytes : tcpReceiveSegmentBytes = 1460 := rfl
  rw [lt_iff] at hstart
  rw [stop, Bool.eq_false_iff, ne_eq] at hstop
  rw [← advance_distance flight.sequence acknowledgement,
    le_arc _ (by simp only [reduceSub]; omega) hstart.2] at hstop
  omega

/-- A flight that an acknowledgement cuts carries data, and what is left of it is a
flight. -/
theorem trim_wf :
  (flight.trim acknowledgement).Wf ∧ flight.payload ≠ []
  := by
  obtain ⟨hpos, hlt⟩ := distance_lt_of_partial hwf hstop hstart
  have hlen := hwf.len_eq
  have hle := hwf.payload_le
  have hne : flight.payload ≠ [] := by
    intro hnil
    rw [if_pos hnil] at hlen
    omega
  rw [if_neg hne] at hlen
  refine ⟨⟨?_, ?_⟩, hne⟩
  · simp only [trim, length_drop]
    omega
  · have hdrop : flight.payload.drop (distance flight.sequence acknowledgement) ≠ [] := by
      simp only [ne_eq, drop_eq_nil_iff]
      omega
    simp only [trim, if_neg hdrop, length_drop, hlen]

end

/-- Where the data of a row of flights lies in the stream that starts at `origin`: the
first byte of the row has the given offset, and every flight with data is numbered by the
offset of its own first byte. -/
def Carries (origin : SequenceNumber) : Nat → List Flight → Prop
  | _, [] => True
  | offset, flight :: rest =>
    (flight.payload ≠ [] → flight.sequence = advance origin offset) ∧
      Carries origin (offset + flight.payload.length) rest

namespace Carries

variable {origin : SequenceNumber} {offset : Nat}

theorem append (h : Carries origin offset flights)
    (h' : Carries origin (offset + (bytes flights).length) flights') :
  Carries origin offset (flights ++ flights')
  := by
  induction flights generalizing offset with
  | nil => simpa using h'
  | cons flight rest ih =>
    refine ⟨h.1, ?_⟩
    apply ih h.2
    rw [bytes_cons, length_append, ← add_assoc] at h'
    apply h'

/-- A row of data that starts at the number of its offset carries the stream there. -/
theorem of_tiles (h : Tiles (advance origin offset) flights last)
    (hwf : ∀ flight ∈ flights, flight.Wf) (hdata : ∀ flight ∈ flights, flight.payload ≠ []) :
  Carries origin offset flights
  := by
  induction flights generalizing offset with
  | nil => trivial
  | cons flight rest ih =>
    obtain ⟨hsequence, hrest⟩ := h
    rw [forall_mem_cons] at hwf hdata
    refine ⟨fun _ => hsequence, ih ?_ hwf.2 hdata.2⟩
    rwa [stop, hsequence, hwf.1.len_eq, if_neg hdata.1, advance_advance] at hrest

/-- Every flight with data is the part of the row's bytes that its number denotes. -/
theorem mem (h : Carries origin offset flights) (hmem : flight ∈ flights)
    (hne : flight.payload ≠ []) :
  ∃ k, flight.sequence = advance origin (offset + k) ∧
    ∃ rest, (bytes flights).drop k = flight.payload ++ rest
  := by
  induction flights generalizing offset with
  | nil => contradiction
  | cons flight' rest ih =>
    obtain rfl | hmem := mem_cons.mp hmem
    · use 0
      refine ⟨h.1 hne, bytes rest, ?_⟩
      rw [drop_zero, bytes_cons]
    · obtain ⟨k, hsequence, rest', hdrop⟩ := ih h.2 hmem
      use flight'.payload.length + k
      rw [← add_assoc]
      refine ⟨hsequence, rest', ?_⟩
      rw [bytes_cons, ← drop_drop, drop_left, hdrop]

end Carries

section

variable (hwf : ∀ flight ∈ flights, flight.Wf)
include hwf

section

variable (htiles : Tiles first flights last)

include htiles

theorem tiles_discard (hspan : span flights < 2 ^ 31) (hx : x ≤ span flights) :
  Tiles (advance first x) (discard (advance first x) flights) last ∧
    (∀ flight ∈ discard (advance first x) flights, flight.Wf) ∧
    (discard (advance first x) flights).length ≤ flights.length ∧
    span (discard (advance first x) flights) + x = span flights
  := by
  induction flights generalizing first x with
  | nil =>
    obtain rfl : x = 0 := by simpa using hx
    simpa [discard] using htiles
  | cons flight rest ih =>
    obtain ⟨rfl, hrest⟩ := htiles
    obtain ⟨hflight, hwf'⟩ := forall_mem_cons.mp hwf
    rw [span_cons] at hspan hx
    have hstop : le flight.stop (advance flight.sequence x) = true ↔ flight.len ≤ x :=
      le_near _ (by omega) (by omega)
    have hstart : lt flight.sequence (advance flight.sequence x) = true ↔ 0 < x := by
      rw [lt_iff, distance_advance _ (by omega)]
      omega
    rw [discard]
    split
    · rename_i hle
      rw [hstop] at hle
      have hx' : advance flight.sequence x = advance flight.stop (x - flight.len) := by
        rw [stop, advance_advance, add_sub_of_le hle]
      obtain ⟨htiles, hwf, hlength, hsum⟩ :=
        ih (x := x - flight.len) hwf' hrest (by omega) (by omega)
      rw [hx', span_cons]
      refine ⟨htiles, hwf, le_succ_of_le hlength, ?_⟩
      omega
    · rename_i hnotLe
      split_ifs with hlt
      · have htrim := trim_wf hflight (by simpa using hnotLe) hlt
        rw [hstop, not_le] at hnotLe
        refine ⟨⟨rfl, ?_⟩, ?_, Nat.le_refl _, ?_⟩
        · rw [stop, trim, distance_advance _ (by omega), advance_advance,
            add_sub_of_le (le_of_lt hnotLe)]
          apply hrest
        · apply forall_mem_cons.mpr ⟨htrim.1, hwf'⟩
        · simp only [span_cons, trim, distance_advance _ (show x < 2 ^ 32 by omega)]
          omega
      · obtain rfl : x = 0 := by
          rw [hstart] at hlt
          omega
        refine ⟨⟨by simp, hrest⟩, hwf, Nat.le_refl _, rfl⟩

/-- An acknowledgement inside the row takes bytes off its front, all of them before the
acknowledgement. -/
theorem carries_discard {origin : SequenceNumber} {offset : Nat} (hspan : span flights < 2 ^ 31)
    (hx : x ≤ span flights) (hcarries : Carries origin offset flights) :
  ∃ k, k ≤ (bytes flights).length ∧
    bytes (discard (advance first x) flights) = (bytes flights).drop k ∧
    Carries origin (offset + k) (discard (advance first x) flights) ∧
    ∀ i < k, le (advance origin (offset + i + 1)) (advance first x) = true
  := by
  induction flights generalizing first x offset with
  | nil => use 0; simp [discard, Carries]
  | cons flight rest ih =>
    obtain ⟨rfl, hrest⟩ := htiles
    obtain ⟨horigin, hcarries⟩ := hcarries
    obtain ⟨hflight, hwf'⟩ := forall_mem_cons.mp hwf
    have hpayload := hflight.payload_length_le
    rw [span_cons] at hspan hx
    have hstop : le flight.stop (advance flight.sequence x) = true ↔ flight.len ≤ x :=
      le_near _ (by omega) (by omega)
    have hcovered : ∀ i < flight.payload.length, i < x →
        le (advance origin (offset + i + 1)) (advance flight.sequence x) = true := by
      intro i hi hix
      rw [add_assoc, ← advance_advance, ← horigin (length_pos_iff.mp (by omega))]
      apply (le_near _ (by omega) (by omega)).mpr
      omega
    rw [discard]
    split
    · rename_i hle
      rw [hstop] at hle
      have hx' : advance flight.sequence x = advance flight.stop (x - flight.len) := by
        rw [stop, advance_advance, add_sub_of_le hle]
      obtain ⟨k, hk, hbytes, hcarries, hcover⟩ :=
        ih (x := x - flight.len) hwf' hrest (by omega) (by omega) hcarries
      rw [← hx'] at hbytes hcarries hcover
      refine ⟨flight.payload.length + k, ?_, ?_, ?_, ?_⟩
      · rw [bytes_cons, length_append]
        omega
      · rw [hbytes, bytes_cons, ← drop_drop, drop_left]
      · rw [← add_assoc]
        apply hcarries
      · intro i hi
        obtain hi' | hi' := lt_or_ge i flight.payload.length
        · apply hcovered i hi' (by omega)
        · have h := hcover (i - flight.payload.length) (by omega)
          have hi : offset + flight.payload.length + (i - flight.payload.length) + 1 =
              offset + i + 1 := by omega
          rwa [hi] at h
    · rename_i hnotLe
      split
      · rename_i hlt
        have hne := (trim_wf hflight (by simpa using hnotLe) hlt).2
        have hlen := hflight.len_eq
        rw [if_neg hne] at hlen
        rw [hstop] at hnotLe
        have hsequence : advance flight.sequence x = advance origin (offset + x) := by
          rw [horigin hne, advance_advance]
        refine ⟨x, ?_, ?_, ⟨fun _ => ?_, ?_⟩, ?_⟩
        · rw [bytes_cons, length_append]
          omega
        · have hzero : x - flight.payload.length = 0 := by omega
          simp only [bytes_cons, trim, distance_advance _ (show x < 2 ^ 32 by omega),
            drop_append, hzero, drop_zero]
        · apply hsequence
        · have hoffset : offset + x + (flight.payload.length - x) =
              offset + flight.payload.length := by omega
          simp only [trim, distance_advance _ (show x < 2 ^ 32 by omega), length_drop]
          rw [hoffset]
          apply hcarries
        · intro i hi
          apply hcovered i (by omega) hi
      · use 0
        simp only [zero_le, drop_zero, not_lt_zero, false_implies, implies_true, and_true, true_and]
        apply And.intro horigin hcarries

/-- An acknowledgement at the end of the row or just behind it leaves nothing. -/
theorem discard_past (hx : span flights ≤ x) (hx' : x < 2 ^ 31) :
  discard (advance first x) flights = []
  := by
  induction flights generalizing first x with
  | nil => rfl
  | cons flight rest ih =>
    obtain ⟨rfl, hrest⟩ := htiles
    rw [span_cons] at hx
    have hle : le flight.stop (advance flight.sequence x) = true :=
      (le_near _ (by omega) (by omega)).mpr
        (by omega)
    have hx' : advance flight.sequence x = advance flight.stop (x - flight.len) := by
      rw [stop, advance_advance, add_sub_of_le (by omega)]
    rw [discard, if_pos hle, hx']
    apply ih (forall_mem_cons.mp hwf).2 hrest <;> omega

/-- An acknowledgement behind the row, half the sequence space away, leaves it as it
is. -/
theorem discard_behind (hx : 2 ^ 31 + span flights ≤ x) (hx' : x < 2 ^ 32) :
  discard (advance first x) flights = flights
  := by
  cases flights with
  | nil => rfl
  | cons flight rest =>
    obtain ⟨rfl, -⟩ := htiles
    rw [span_cons] at hx
    have hstop : ¬ le flight.stop (advance flight.sequence x) = true := by
      rw [stop, le_advance_iff _ (by omega) hx']
      omega
    have hstart : ¬ lt flight.sequence (advance flight.sequence x) = true := by
      rw [lt_iff, distance_advance _ hx']
      omega
    rw [discard, if_neg hstop, if_neg hstart]

end

end

end Flight

end Helios
