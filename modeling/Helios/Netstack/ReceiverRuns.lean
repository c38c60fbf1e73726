import Helios.Library.Spans
import Helios.Netstack.Receiver

/-!
# What a receiver makes of a stream

A receiver whose peer sends a fixed stream, in any order, with repetitions and overlaps,
holds exact parts of that stream: the bytes read and the bytes in order together are the
beginning of the stream, and the segments held aside are spans of it, in order and apart.
-/

namespace Helios

variable {n : Nat} {fragment : Fragment}

variable {spans : List (Span Nat)} {payload reads : Bytes} {offset len j : Nat} {i i' : Inbound}
  {sequence : SequenceNumber} {fragments : List Fragment}

open Machine Serial ReceiveSide Span List Nat

/-- The part of a stream that a span denotes, as a segment. -/
def segmentAt (stream : Bytes) (base : SequenceNumber) (span : Span Nat) : TcpOutOfOrderSegment :=
  { sequence := advance base span.start
    payload := (stream.drop span.start).take (span.stop - span.start) }

/-- A span of the stream not far from the position `pos`. -/
structure NearSpan (stream : Bytes) (pos : Nat) (span : Span Nat) : Prop where
  lt : span.start < span.stop
  stop_le : span.stop ≤ stream.length
  len_lt : span.stop - span.start < maxTcpPayloadBytes
  recent : pos < span.stop + 2 ^ 17
  ahead : span.start < pos + 2 ^ 21

/-- Spans in order, not far from the position `pos`. -/
structure Loose (stream : Bytes) (pos : Nat) (spans : List (Span Nat)) : Prop where
  row : Row spans
  near : ∀ span ∈ spans, NearSpan stream pos span

/-- Spans in order, each of which reaches beyond `pos`. -/
structure Tidy (stream : Bytes) (pos : Nat) (spans : List (Span Nat)) : Prop extends
    Loose stream pos spans where
  beyond : ∀ span ∈ spans, pos < span.stop

variable {stream : Bytes} {base : SequenceNumber} {pos : Nat} {span : Span Nat}

/-! ### Comparing positions -/

theorem sequenceLt_near {i : Nat} (hi : i < j + 2 ^ 31) (hj : j < i + 2 ^ 31) :
  sequenceLt (advance base i) (advance base j) = decide (i < j)
  := by
  rw [sequenceLt_eq, Bool.eq_iff_iff, lt_near base (by omega) (by omega), decide_eq_true_iff]

theorem sequenceLeq_near {i : Nat} (hi : i < j + 2 ^ 31) (hj : j < i + 2 ^ 31) :
  sequenceLeq (advance base i) (advance base j) = decide (i ≤ j)
  := by
  rw [sequenceLeq_eq, Bool.eq_iff_iff, le_near base (by omega) (by omega), decide_eq_true_iff]

theorem distance_near {i : Nat} (hle : i ≤ j) (hlt : j < i + 2 ^ 32) :
  distance (advance base i) (advance base j) = j - i
  := by
  obtain ⟨k, rfl⟩ := Nat.exists_eq_add_of_le hle
  rw [← advance_advance, distance_advance _ (by omega)]
  omega

section

variable (h : NearSpan stream pos span)
include h

theorem length_segmentAt :
  (segmentAt stream base span).payload.length = span.stop - span.start
  := by
  have hle := h.stop_le
  simp only [segmentAt, length_take, length_drop]
  omega

theorem endSequence_segmentAt :
  (segmentAt stream base span).endSequence = advance base span.stop
  := by
  have hlt := h.lt
  have hlen := h.len_lt
  have hmax : maxTcpPayloadBytes = 2 ^ 16 := rfl
  rw [TcpOutOfOrderSegment.endSequence, length_segmentAt h, segmentEndFromParts_eq _ (by omega)]
  simp only [segmentAt, advance_advance]
  congr 1
  omega

theorem NearSpan.start_lt :
  pos < span.start + 2 ^ 18
  := by
  have hlen := h.len_lt
  have hrecent := h.recent
  have hmax : maxTcpPayloadBytes = 2 ^ 16 := rfl
  omega

theorem NearSpan.stop_lt :
  span.stop < pos + 2 ^ 22
  := by
  have hlen := h.len_lt
  have hahead := h.ahead
  have hmax : maxTcpPayloadBytes = 2 ^ 16 := rfl
  omega

theorem NearSpan.later {pos' : Nat} (hle : pos ≤ pos') (hrecent : pos' < span.stop + 2 ^ 17) :
  NearSpan stream pos' span
  := by
  have hahead := h.ahead
  exact { h with recent := hrecent, ahead := by omega }

theorem NearSpan.apart_lt {span' : Span Nat} (h' : NearSpan stream pos span') :
  span.stop < span'.start + 2 ^ 23
  := by
  have hstop := h.stop_lt
  have hstart := h'.start_lt
  omega

end

theorem Tidy.nil :
  Tidy stream pos []
  := ⟨⟨.nil, by simp⟩, by simp⟩

theorem Tidy.eq_nil (h : Tidy stream stream.length spans) :
  spans = []
  := by
  apply eq_nil_iff_forall_not_mem.mpr
  intro span hmem
  have hstop := (h.near span hmem).stop_le
  have hbeyond := h.beyond span hmem
  omega

/-! ### Releasing -/

/-- The bytes read and the bytes in order are the stream up to `pos`. -/
structure Carried (stream : Bytes) (base : SequenceNumber) (reads : Bytes) (pos : Nat)
    (i : Inbound) : Prop where
  next_eq : i.next = advance base pos
  pos_le : pos ≤ stream.length
  bytes_eq : reads ++ i.queue = stream.take pos

/-- Appends the next bytes of the stream. -/
theorem Carried.append (h : Carried stream base reads pos i)
    (hpayload : payload = (stream.drop pos).take n) (hn : pos + n ≤ stream.length) :
  Carried stream base reads (pos + n)
    { i with next := advance i.next payload.length, queue := i.queue ++ payload }
  := by
  have hlength : payload.length = n := by
    rw [hpayload, length_take, length_drop]
    omega
  constructor
  · rw [hlength, h.next_eq, advance_advance]
  · apply hn
  · rw [← append_assoc, h.bytes_eq, hpayload, take_add]

theorem Loose.of_cons {first : Span Nat} {rest : List (Span Nat)}
    (h : Loose stream pos (first :: rest)) :
  Loose stream pos rest
  := ⟨h.row.of_cons, fun span hmem => h.near span (mem_cons_of_mem _ hmem)⟩

section

variable (h : NearSpan stream pos span)

include h

/-- The first span is ahead of `pos`, in the order of sequence numbers. -/
theorem sequenceLt_segmentAt :
  sequenceLt (advance base pos) (segmentAt stream base span).sequence = decide (pos < span.start)
  := by
  have hstart := h.start_lt
  have hahead := h.ahead
  apply sequenceLt_near <;> omega

theorem sequenceLeq_segmentAt :
  sequenceLeq (segmentAt stream base span).endSequence (advance base pos) =
    decide (span.stop ≤ pos)
  := by
  have hrecent := h.recent
  have hstop := h.stop_lt
  rw [endSequence_segmentAt h]
  apply sequenceLeq_near <;> omega

theorem drop_staleLen_segmentAt (hle : span.start ≤ pos) :
  (segmentAt stream base span).payload.drop
      (staleLen (advance base pos) (segmentAt stream base span).sequence) =
    (stream.drop pos).take (span.stop - pos)
  := by
  have hstart := h.start_lt
  have hbehind : sequenceLt (advance base span.start) (advance base pos) =
      decide (span.start < pos) := sequenceLt_near (by omega) (by omega)
  have hstale : staleLen (advance base pos) (segmentAt stream base span).sequence =
      pos - span.start := by
    simp only [staleLen, segmentAt, hbehind, decide_eq_true_eq]
    split
    · apply distance_near hle
      omega
    · omega
  have hsum : span.start + (pos - span.start) = pos := by omega
  have hrest : span.stop - span.start - (pos - span.start) = span.stop - pos := by omega
  rw [hstale]
  simp only [segmentAt, drop_take, drop_drop, hsum, hrest]

end

/-- Draining keeps what is held a part of the stream. -/
theorem Inbound.Drains.carried (h : i.Drains i') (hcarried : Carried stream base reads pos i)
    (hheld : i.held = spans.map (segmentAt stream base)) (hloose : Loose stream pos spans) :
  ∃ pos' spans', pos ≤ pos' ∧ Carried stream base reads pos' i' ∧
    i'.held = spans'.map (segmentAt stream base) ∧ Tidy stream pos' spans'
  := by
  induction h generalizing pos spans with
  | done hdone =>
    refine ⟨pos, spans, le_refl _, hcarried, hheld, hloose, fun span hmem => ?_⟩
    cases spans with
    | nil => contradiction
    | cons first rest =>
      have hnear := hloose.near first mem_cons_self
      have hlt := hnear.lt
      have hfirst : pos < first.stop := by
        have hdone := hdone _ _ hheld
        rw [hcarried.next_eq, sequenceLt_segmentAt hnear, sequenceLeq_segmentAt hnear,
          decide_eq_true_iff, decide_eq_false_iff_not] at hdone
        omega
      obtain rfl | hmem := mem_cons.mp hmem
      · apply hfirst
      · have hbefore : first.stop ≤ span.start := hloose.row.head_before hmem
        have hlt' := hloose.row.lt span (mem_cons_of_mem _ hmem)
        omega
  | drop hfirst hreached hold hrest ih =>
    rw [hheld] at hfirst
    cases spans with
    | nil => contradiction
    | cons first rest =>
      cases hfirst
      apply ih { hcarried with } rfl hloose.of_cons
  | release hfirst hreached hnew hpayload hrest ih =>
    rw [hheld] at hfirst
    cases spans with
    | nil => contradiction
    | cons first rest =>
      cases hfirst
      have hnear := hloose.near first mem_cons_self
      have hstop_le := hnear.stop_le
      rw [hcarried.next_eq, sequenceLt_segmentAt hnear, decide_eq_false_iff_not] at hreached
      rw [hcarried.next_eq, sequenceLeq_segmentAt hnear, decide_eq_false_iff_not] at hnew
      rw [hcarried.next_eq, drop_staleLen_segmentAt hnear (by omega)] at hpayload
      have hsum : pos + (first.stop - pos) = first.stop := by omega
      have hcarried' := hcarried.append hpayload (by omega)
      rw [hsum] at hcarried'
      -- everything behind the span released lies behind the new position
      have hloose' : Loose stream first.stop rest := by
        refine ⟨hloose.row.of_cons, fun span hmem => ?_⟩
        have hspan := hloose.near span (mem_cons_of_mem _ hmem)
        have hbefore : first.stop ≤ span.start := hloose.row.head_before hmem
        have hlt := hspan.lt
        apply hspan.later <;> omega
      obtain ⟨pos', spans', hle, hrest⟩ := ih { hcarried' with } rfl hloose'
      refine ⟨pos', spans', by omega, hrest⟩

/-! ### The bytes of an arriving segment -/

/-- Every byte of the payload is the byte of the stream at the offset its sequence number
denotes within half the sequence space of the position `pos`. -/
def Agrees (stream : Bytes) (base : SequenceNumber) (pos : Nat) (sequence : SequenceNumber)
    (payload : Bytes) : Prop :=
  ∀ j k, j < payload.length → advance sequence j = advance base k → k < pos + 2 ^ 31 →
    pos < k + 2 ^ 31 → stream[k]? = payload[j]?

/-- The part of a payload from a known offset on is a part of the stream. -/
theorem Agrees.slice (h : Agrees stream base pos sequence payload) (hn : n < payload.length)
    (heq : advance sequence n = advance base offset) (hpos : pos ≤ offset)
    (hnear : offset + payload.length < pos + 2 ^ 31) :
  payload.drop n = (stream.drop offset).take (payload.length - n) ∧
    offset + (payload.length - n) ≤ stream.length
  := by
  have hbyte (j : Nat) (hj : j < payload.length - n) :
      stream[offset + j]? = payload[n + j]? := by
    apply h (n + j) (offset + j) (by omega) _ (by omega) (by omega)
    rw [← advance_advance, heq, advance_advance]
  constructor
  · apply ext_getElem?
    intro j
    rw [getElem?_drop, getElem?_take]
    split
    · rename_i hj
      rw [getElem?_drop, hbyte j hj]
    · rw [getElem?_eq_none_iff]
      omega
  · have hlast := hbyte (payload.length - n - 1) (by omega)
    have hin : n + (payload.length - n - 1) < payload.length := by omega
    rw [getElem?_eq_getElem hin, getElem?_eq_some_iff] at hlast
    obtain ⟨hlt, -⟩ := hlast
    omega

theorem agrees_slice (hlow : pos < offset + 2 ^ 31) (hhigh : offset + len ≤ pos + 2 ^ 31) :
  Agrees stream base pos (advance base offset) ((stream.drop offset).take len)
  := by
  intro j k hj heq hk hk'
  have hlen := length_take_le len (stream.drop offset)
  rw [advance_advance] at heq
  have hsum := advance_injective base (by omega) (by omega) heq
  rw [getElem?_take, if_pos (by omega), getElem?_drop, hsum]

/-- Where a segment in the window that does not start before `next` starts. -/
theorem InWindow.start {next : SequenceNumber} (h : InWindow next sequence len)
    (hlen : len ≤ maxTcpPayloadBytes) (hahead : sequenceLt sequence next = false) :
  ∃ d < 2 ^ 20, sequence = advance next d
  := by
  have hmax : maxTcpPayloadBytes = 2 ^ 16 := rfl
  obtain ⟨hpos, hfirst | hlast⟩ := h
  · refine ⟨_, hfirst, (advance_distance _ _).symm⟩
  · -- the last number is in the window; the first one is before `next` or in it as well
    have heq := advance_distance next (advance sequence (len - 1))
    generalize distance next (advance sequence (len - 1)) = e at hlast heq
    by_cases hle : len - 1 ≤ e
    · refine ⟨e - (len - 1), by omega, ?_⟩
      have hsum : e = e - (len - 1) + (len - 1) := by omega
      rw [hsum, ← advance_advance] at heq
      apply (advance_left_injective heq).symm
    · have hsum : len - 1 = len - 1 - e + e := by omega
      rw [hsum, ← advance_advance] at heq
      have hnext := advance_left_injective heq
      rw [hnext, sequenceLt_eq, Bool.eq_false_iff, ne_eq, ← advance_zero sequence,
        advance_advance, lt_near _ (by omega) (by omega)] at hahead
      omega

/-! ### Holding a segment aside -/

/-- The span a fragment of a payload at the given offset covers. -/
def fragmentSpan (offset : Nat) (fragment : Fragment) : Span Nat :=
  ⟨offset + fragment.start, offset + fragment.stop⟩

theorem map_pushFragment {fragments' : List Fragment}
    (h : pushFragment fragments fragment = some fragments') :
  fragments'.map (fragmentSpan offset) =
    fragments.map (fragmentSpan offset) ++ [fragmentSpan offset fragment]
  := by
  rw [pushFragment] at h
  split at h
  · cases h
    rw [map_append, map_singleton]
  · contradiction

/-- Cutting a payload around the segments held aside leaves the gaps between their
spans. -/
theorem splitLoop_gaps {c : Nat} {cursor : SplitCursor}
    (hnear : ∀ span ∈ spans, NearSpan stream pos span) (hc : offset ≤ c)
    (hstop : c < offset + len) (hpos : pos ≤ offset) (hlen : offset + len < pos + 2 ^ 21) (h :
      splitLoop (advance base (offset + len)) len (spans.map (segmentAt stream base))
      ⟨advance base c, c - offset, fragments⟩ = some cursor) :
  ∃ c', offset ≤ c' ∧ c' ≤ offset + len ∧ cursor.sequence = advance base c' ∧
    cursor.offset = c' - offset ∧
    cursor.fragments.map (fragmentSpan offset) ++ unlessEmpty c' (offset + len) =
      fragments.map (fragmentSpan offset) ++ gaps (offset + len) spans c
  := by
  induction spans generalizing c fragments with
  | nil =>
    cases h
    refine ⟨c, hc, le_of_lt hstop, rfl, rfl, rfl⟩
  | cons span rest ih =>
    obtain ⟨hspan, hrest⟩ := forall_mem_cons.mp hnear
    have hstop_lt := hspan.stop_lt
    have hstart_lt := hspan.start_lt
    have hlt := hspan.lt
    have hbehind : sequenceLeq (advance base span.stop) (advance base c) =
        decide (span.stop ≤ c) := sequenceLeq_near (by omega) (by omega)
    have hbefore : sequenceLeq (advance base (offset + len)) (advance base span.start) =
        decide (offset + len ≤ span.start) := sequenceLeq_near (by omega) (by omega)
    have hgap : sequenceLt (advance base c) (advance base span.start) =
        decide (c < span.start) := sequenceLt_near (by omega) (by omega)
    have hcovered : sequenceLeq (advance base (offset + len)) (advance base span.stop) =
        decide (offset + len ≤ span.stop) := sequenceLeq_near (by omega) (by omega)
    rw [map_cons, splitLoop, endSequence_segmentAt hspan] at h
    simp only [segmentAt, hbehind, hbefore, hgap, hcovered, decide_eq_true_eq] at h
    rw [gaps]
    by_cases hle : span.stop ≤ c
    · rw [if_pos hle] at h ⊢
      apply ih hrest hc hstop h
    · rw [if_neg hle] at h ⊢
      by_cases hreached : offset + len ≤ span.start
      · rw [if_pos hreached] at h ⊢
        cases h
        refine ⟨c, hc, le_of_lt hstop, rfl, rfl, rfl⟩
      · rw [if_neg hreached] at h ⊢
        split at h
        · contradiction
        · rename_i fragments' hfragments
          -- the fragment before the span, if there is one, is the first gap
          have hmap : fragments'.map (fragmentSpan offset) =
              fragments.map (fragmentSpan offset) ++ unlessEmpty c span.start := by
            rw [unlessEmpty]
            split_ifs at hfragments ⊢ with hfree
            · rw [map_pushFragment hfragments]
              have hdistance : (advance base span.start - advance base c).toNat = span.start - c :=
                distance_near (le_of_lt hfree) (by omega)
              have hsum : offset + (c - offset) = c := by omega
              have hsum' : offset + (c - offset + (span.start - c)) = span.start := by omega
              simp only [fragmentSpan, hdistance, hsum, hsum']
            · cases hfragments
              rw [append_nil]
          rw [← append_assoc, ← hmap]
          split_ifs at h ⊢
          · cases h
            refine ⟨offset + len, Nat.le_add_right _ _, le_refl _, rfl, by simp, ?_⟩
            rw [unlessEmpty, if_neg (lt_irrefl _)]
          · have hdistance : (advance base span.stop - advance base c).toNat = span.stop - c :=
              distance_near (by omega) (by omega)
            have hskip : c - offset + (span.stop - c) = span.stop - offset := by omega
            rw [hdistance, hskip] at h
            apply ih hrest (by omega) (by omega) h

theorem splitPayload_gaps (hnear : ∀ span ∈ spans, NearSpan stream pos span)
    (hne : 0 < payload.length) (hpos : pos ≤ offset)
    (hoffset : offset + payload.length < pos + 2 ^ 21) (h : splitPayload (spans.map
      (segmentAt stream base)) (advance base offset) payload = some fragments) :
  fragments.map (fragmentSpan offset) = gaps (offset + payload.length) spans offset
  := by
  rw [splitPayload, segmentEndFromParts_eq _ (by omega), advance_advance] at h
  split at h
  · contradiction
  · rename_i cursor hloop
    have hstart : 0 = offset - offset := by omega
    rw [hstart] at hloop
    obtain ⟨c, hc, hle, hsequence, hcursor, hgaps⟩ := splitLoop_gaps hnear (le_refl _)
      (by omega) hpos hoffset hloop
    have hbehind : sequenceLt (advance base c) (advance base (offset + payload.length)) =
        decide (c < offset + payload.length) := sequenceLt_near (by omega) (by omega)
    simp only [hsequence, hbehind, decide_eq_true_iff] at h
    rw [map_nil, nil_append] at hgaps
    rw [← hgaps, unlessEmpty]
    split_ifs at h ⊢
    · have hsum : offset + (c - offset) = c := by omega
      rw [map_pushFragment h, fragmentSpan, hcursor, hsum]
    · cases h
      rw [append_nil]

theorem fragment_eq_segmentAt (hpayload : payload = (stream.drop offset).take payload.length)
    (hwithin : fragment.Within (advance base offset) payload.length) :
  (⟨fragment.sequence, (payload.drop fragment.start).take (fragment.stop - fragment.start)⟩ :
      TcpOutOfOrderSegment) = segmentAt stream base (fragmentSpan offset fragment)
  := by
  have hstop := hwithin.stop_le
  have hmin : min (fragment.stop - fragment.start) (payload.length - fragment.start) =
      fragment.stop - fragment.start := by omega
  have hlen : offset + fragment.stop - (offset + fragment.start) =
      fragment.stop - fragment.start := by omega
  rw [hwithin.sequence_eq, advance_advance, hpayload]
  simp only [segmentAt, fragmentSpan, drop_take, take_take, drop_drop, hmin, hlen]

theorem sinkBack_map {span : Span Nat} (hspan : NearSpan stream pos span)
    (hnear : ∀ span ∈ spans, NearSpan stream pos span) :
  sinkBack (segmentAt stream base span) (spans.map (segmentAt stream base)) =
    (sink span spans).map (segmentAt stream base)
  := by
  induction spans with
  | nil => rfl
  | cons last earlier ih =>
    obtain ⟨hlast, hrest⟩ := forall_mem_cons.mp hnear
    have hspan_ahead := hspan.ahead
    have hlast_ahead := hlast.ahead
    have hspan_start := hspan.start_lt
    have hlast_start := hlast.start_lt
    have hbefore : sequenceLt (segmentAt stream base span).sequence
        (segmentAt stream base last).sequence = decide (span.start < last.start) :=
      sequenceLt_near (by omega) (by omega)
    rw [map_cons, sinkBack, sink, hbefore]
    simp only [decide_eq_true_eq]
    split
    · rw [ih hrest, map_cons]
    · rfl

theorem foldl_holdFragment (hnear : ∀ span ∈ spans, NearSpan stream pos span) (hfragments : ∀
      fragment ∈ fragments, NearSpan stream pos (fragmentSpan offset fragment)) (hwithin : ∀
      fragment ∈ fragments, fragment.Within (advance base offset) payload.length)
    (hpayload : payload = (stream.drop offset).take payload.length) :
  fragments.foldl (holdFragment payload) (spans.map (segmentAt stream base)) =
      ((fragments.map (fragmentSpan offset)).foldl place spans).map (segmentAt stream base) ∧
    ∀ span ∈ (fragments.map (fragmentSpan offset)).foldl place spans,
      span ∈ spans ∨ span ∈ fragments.map (fragmentSpan offset)
  := by
  induction fragments generalizing spans with
  | nil =>
    refine ⟨rfl, fun span hmem => ?_⟩
    left
    apply hmem
  | cons fragment rest ih =>
    obtain ⟨hfirst, hfragments⟩ := forall_mem_cons.mp hfragments
    obtain ⟨hinside, hwithin⟩ := forall_mem_cons.mp hwithin
    have hplace : holdFragment payload (spans.map (segmentAt stream base)) fragment =
        (place spans (fragmentSpan offset fragment)).map (segmentAt stream base) := by
      rw [holdFragment, fragment_eq_segmentAt hpayload hinside, place, ← map_reverse,
        sinkBack_map hfirst fun span hmem => hnear span (mem_reverse.mp hmem),
        map_reverse]
    have hmem_place (span : Span Nat) (hmem : span ∈ place spans (fragmentSpan offset fragment)) :
        span = fragmentSpan offset fragment ∨ span ∈ spans :=
      mem_cons.mp ((place_perm spans _).mem_iff.mp hmem)
    have hnear_place : ∀ span ∈ place spans (fragmentSpan offset fragment),
        NearSpan stream pos span := by
      intro span hspan
      obtain rfl | hspan := hmem_place span hspan
      · apply hfirst
      · apply hnear span hspan
    obtain ⟨hfold, hmem⟩ := ih hnear_place hfragments hwithin
    rw [foldl_cons, hplace]
    refine ⟨hfold, fun span hspan => ?_⟩
    obtain hspan | hspan := hmem span hspan
    · obtain rfl | hspan := hmem_place span hspan
      · right
        apply mem_cons_self
      · left
        apply hspan
    · right
      apply mem_cons_of_mem _ hspan

/-! ### The arrival of a payload -/

/-- Fragments held aside keep what is held in order. -/
theorem Tidy.aside {k : Nat} (h : Tidy stream pos spans) (hne : 0 < payload.length)
    (hlen : payload.length < maxTcpPayloadBytes) (hpos : pos ≤ offset)
    (hoffset : offset + payload.length < pos + 2 ^ 21)
    (hpayload : payload = (stream.drop offset).take payload.length)
    (hin : offset + payload.length ≤ stream.length) (hsplit : splitPayload (spans.map
      (segmentAt stream base)) (advance base offset) payload = some fragments) :
  ∃ spans', (fragments.take k).foldl (holdFragment payload)
      (spans.map (segmentAt stream base)) = spans'.map (segmentAt stream base) ∧
    Tidy stream pos spans'
  := by
  have hgaps := splitPayload_gaps h.near hne hpos hoffset hsplit
  have hwithin : ∀ fragment ∈ fragments.take k,
      fragment.Within (advance base offset) payload.length := fun fragment hmem =>
    splitPayload_within hne hlen hsplit fragment (mem_of_mem_take hmem)
  have hnear : ∀ fragment ∈ fragments.take k, NearSpan stream pos (fragmentSpan offset fragment) ∧
      pos < (fragmentSpan offset fragment).stop := by
    intro fragment hmem
    have hfragment := hwithin fragment hmem
    have hstart := hfragment.start_lt
    have hstop := hfragment.stop_le
    refine ⟨⟨?_, ?_, ?_, ?_, ?_⟩, ?_⟩ <;> simp only [fragmentSpan] <;> omega
  obtain ⟨hfold, hmem⟩ := foldl_holdFragment h.near (fun fragment hmem => (hnear fragment hmem).1)
    hwithin hpayload
  have hall := fun span hspan => show NearSpan stream pos span ∧ pos < span.stop by
    obtain hspan | hspan := hmem span hspan
    · apply And.intro (h.near span hspan) (h.beyond span hspan)
    · obtain ⟨fragment, hfragment, rfl⟩ := mem_map.mp hspan
      apply hnear fragment hfragment
  refine ⟨_, hfold, ⟨⟨?_, fun span hspan => (hall span hspan).1⟩, fun span hspan =>
    (hall span hspan).2⟩⟩
  · -- the fragments are some of the gaps
    have hsub : ((fragments.take k).map (fragmentSpan offset)).Sublist
        (gaps (offset + payload.length) spans offset) := by
      rw [← hgaps, map_take]
      apply take_sublist
    have hrow := row_gaps (offset + payload.length) offset h.row
    apply h.row.foldl_place
    · refine ⟨fun span hspan => hrow.lt span (hsub.subset hspan), hrow.before.sublist hsub⟩
    · intro gap hgap span hspan
      apply apart_gaps h.row hspan (hsub.subset hgap)

/-- An arriving payload that agrees with the stream keeps what is held a part of it. -/
theorem Inbound.Arrives.carried (h : i.Arrives sequence payload i') (hne : payload ≠ [])
    (hlen : payload.length < maxTcpPayloadBytes) (hwindow : InWindow i.next sequence len)
    (hlen_le : len ≤ payload.length + 1) (hagrees : Agrees stream base pos sequence payload)
    (hcarried : Carried stream base reads pos i)
    (hheld : i.held = spans.map (segmentAt stream base)) (htidy : Tidy stream pos spans) :
  ∃ pos' spans', pos ≤ pos' ∧ Carried stream base reads pos' i' ∧
    i'.held = spans'.map (segmentAt stream base) ∧ Tidy stream pos' spans'
  := by
  have hmax : maxTcpPayloadBytes = 2 ^ 16 := rfl
  have hpos_len := length_pos_iff.mpr hne
  cases h with
  | extended hnext hn hdrains =>
    rename_i n
    rw [hcarried.next_eq] at hnext
    obtain ⟨hslice, hin⟩ := hagrees.slice hn hnext (le_refl _) (by omega)
    have hcarried' := hcarried.append hslice hin
    have hloose : Loose stream (pos + (payload.length - n)) spans := by
      refine ⟨htidy.row, fun span hmem => ?_⟩
      have hbeyond := htidy.beyond span hmem
      apply (htidy.near span hmem).later <;> omega
    obtain ⟨pos', spans', hle, hrest⟩ := hdrains.carried hcarried' hheld hloose
    refine ⟨pos', spans', by omega, hrest⟩
  | aside hsequence hahead hsplit =>
    rename_i fragments k
    obtain ⟨d, hd, rfl⟩ := hwindow.start (by omega) hahead
    rw [hcarried.next_eq, advance_advance] at hagrees hsplit
    obtain ⟨hslice, hin⟩ := hagrees.slice hpos_len (advance_zero _) (Nat.le_add_right _ _)
      (by omega)
    rw [hheld] at hsplit
    obtain ⟨spans', hfold, htidy'⟩ := htidy.aside (k := k) hpos_len hlen (Nat.le_add_right _ _)
      (by omega) hslice hin hsplit
    refine ⟨pos, spans', le_refl _, { hcarried with }, ?_, htidy'⟩
    rw [hheld]
    apply hfold

/-! ### Runs -/

/-- What a receiver holds of the stream after the application read the given bytes.  The
flag says whether the FIN was consumed. -/
structure Received (stream : Bytes) (base : SequenceNumber) (reads : Bytes) (pos : Nat)
    (consumed : Bool) (ρ : Receiver) : Prop where
  next_eq : ρ.inbound.next = advance base (pos + consumed.toNat)
  pos_le : pos ≤ stream.length
  bytes_eq : reads ++ ρ.inbound.queue = stream.take pos
  held : ∃ spans, ρ.inbound.held = spans.map (segmentAt stream base) ∧ Tidy stream pos spans
  fin : ∀ sequence, ρ.inbound.fin = some sequence → consumed = false ∧
    sequence = advance base stream.length ∧ stream.length < pos + 2 ^ 22
  finished : consumed = true →
    pos = stream.length ∧ ρ.inbound.fin = none ∧ (ρ.phase = .finished ∨ ρ.phase = .gone)
  consumed : ρ.phase = .finished → consumed = true

namespace Received

variable {reads : Bytes} {consumed : Bool} {ρ ρ' : Receiver}

theorem carried (h : Received stream base reads pos false ρ) :
  Carried stream base reads pos ρ.inbound
  := { h with }

theorem of_carried {pos' : Nat} (h : Received stream base reads pos false ρ) (hle : pos ≤ pos')
    (hcarried : Carried stream base reads pos' i)
    (hheld : i.held = spans.map (segmentAt stream base)) (htidy : Tidy stream pos' spans)
    (hfin : i.fin = ρ.inbound.fin) :
  Received stream base reads pos' false ⟨ρ.phase, i⟩
  := by
  refine ⟨hcarried.next_eq, hcarried.pos_le, hcarried.bytes_eq, ⟨spans, hheld, htidy⟩, ?_, by simp,
    h.consumed⟩
  intro sequence hsome
  simp only [hfin] at hsome
  obtain ⟨-, hsequence, hlt⟩ := h.fin sequence hsome
  refine ⟨rfl, hsequence, by omega⟩

theorem drains_nil (h : i.Drains i') (hnil : i.held = []) :
  i' = i
  := by
  cases h with
  | done => rfl
  | drop hcons | release hcons =>
    rw [hnil] at hcons
    contradiction

section

variable {events : List ReceiveEvent}

variable (h : Received stream base reads pos consumed ρ)
include h

/-- A step of which nothing is seen. -/
theorem quiet (hstep : Receiver.Step ρ .quiet ρ') :
  ∃ pos' consumed', pos ≤ pos' ∧ Received stream base reads pos' consumed' ρ'
  := by
  cases hstep with
  | drain hdrains =>
    obtain ⟨spans, hheld, htidy⟩ := h.held
    cases consumed with
    | true =>
      -- nothing is held aside behind the FIN
      obtain ⟨rfl, -, -⟩ := h.finished rfl
      rw [htidy.eq_nil] at hheld
      rw [drains_nil hdrains hheld]
      refine ⟨_, true, le_refl _, h⟩
    | false =>
      obtain ⟨pos', spans', hle, hcarried, hheld', htidy'⟩ :=
        hdrains.carried h.carried hheld htidy.toLoose
      refine ⟨pos', false, hle, h.of_carried hle hcarried hheld' htidy' hdrains.fin_eq⟩
  | consumeFin hfin =>
    rename_i phase _
    obtain ⟨rfl, hsequence, hlt⟩ := h.fin _ hfin
    -- the position is the end of the stream, as it is close to it
    have hend : pos = stream.length := by
      have hle := h.pos_le
      apply advance_injective base (by omega) (by omega)
      rw [← hsequence, h.next_eq]
      rfl
    obtain ⟨spans, hheld, htidy⟩ := h.held
    refine ⟨pos, true, le_refl _, ?_, h.pos_le, h.bytes_eq, ⟨spans, hheld, htidy⟩, by simp,
      fun _ => ⟨hend, rfl, ?_⟩, fun _ => rfl⟩
    have hnext := h.next_eq
    simp only [Bool.toNat_false] at hnext
    · simp only [hnext, advance_advance, Bool.toNat_true]
    · cases phase <;> simp [ReceivePhase.afterFin]
  | establish =>
    refine ⟨pos, consumed, le_refl _, { h with finished := fun htrue => ?_, consumed := by simp }⟩
    obtain ⟨-, -, hphase⟩ := h.finished htrue
    simp at hphase
  | close =>
    refine ⟨pos, consumed, le_refl _, { h with finished := fun htrue => ?_, consumed := by simp }⟩
    obtain ⟨hend, hfin, -⟩ := h.finished htrue
    refine ⟨hend, hfin, .inr rfl⟩

theorem quiet_steps (hsteps : Receiver.Steps ρ events ρ')
    (hquiet : ∀ event ∈ events, event = .quiet) :
  ∃ pos' consumed', Received stream base reads pos' consumed' ρ'
  := by
  induction hsteps generalizing pos consumed with
  | nil => refine ⟨pos, consumed, h⟩
  | cons hstep _ ih =>
    obtain ⟨rfl, hrest⟩ := forall_mem_cons.mp hquiet
    obtain ⟨pos₁, consumed₁, -, h₁⟩ := h.quiet hstep
    apply ih h₁ hrest

theorem read_steps (hsteps : Receiver.Steps ρ events ρ')
    (hread : ∀ event ∈ events, event = .quiet ∨ event = .read event.delivered) :
  ∃ pos' consumed',
    Received stream base (reads ++ events.flatMap ReceiveEvent.delivered) pos' consumed' ρ'
  := by
  induction hsteps generalizing reads pos consumed with
  | nil =>
    refine ⟨pos, consumed, ?_⟩
    rw [flatMap_nil, append_nil]
    apply h
  | cons hstep _ ih =>
    obtain ⟨hfirst, hrest⟩ := forall_mem_cons.mp hread
    rename_i event events _
    rw [flatMap_cons, ← append_assoc]
    obtain rfl | heq := hfirst
    · obtain ⟨pos₁, consumed₁, -, h₁⟩ := h.quiet hstep
      have hnil : ReceiveEvent.quiet.delivered = [] := rfl
      rw [hnil, append_nil]
      apply ih h₁ hrest
    · generalize event.delivered = bytes at heq
      subst heq
      cases hstep with
      | read hqueue =>
        refine ih { h with bytes_eq := ?_ } hrest
        rw [append_assoc, ← hqueue]
        apply h.bytes_eq

/-- A payload that agrees with the stream arrives. -/
theorem arrived (hstep : Receiver.Step ρ (.arrived sequence payload) ρ')
    (hwindow : InWindow ρ.inbound.next sequence len) (hlen : len ≤ payload.length + 1)
    (hagrees : Agrees stream base (pos + consumed.toNat) sequence payload) :
  ∃ pos', pos ≤ pos' ∧ Received stream base reads pos' false ρ'
  := by
  cases hstep with
  | arrive hne hlt harrives =>
    cases consumed with
    | true =>
      obtain ⟨-, -, hphase⟩ := h.finished rfl
      simp at hphase
    | false =>
      obtain ⟨spans, hheld, htidy⟩ := h.held
      obtain ⟨pos', spans', hle, hcarried, hheld', htidy'⟩ :=
        harrives.carried hne hlt hwindow hlen hagrees h.carried hheld htidy
      refine ⟨pos', hle, h.of_carried hle hcarried hheld' htidy' harrives.fin_eq⟩

theorem fin_noted (hstep : Receiver.Step ρ (.fin (advance base stream.length)) ρ')
    (hlt : stream.length < pos + 2 ^ 22) :
  Received stream base reads pos consumed ρ'
  := by
  cases hstep with
  | noteFin hphase hahead =>
    cases consumed with
    | true =>
      obtain ⟨rfl, -, -⟩ := h.finished rfl
      have hnext := h.next_eq
      simp only [Bool.toNat_true] at hnext
      rw [hnext, sequenceLt_near (by omega) (by omega), decide_eq_false_iff_not] at hahead
      omega
    | false =>
      refine { h with fin := ?_, finished := by simp }
      rintro sequence ⟨⟩
      refine ⟨rfl, rfl, hlt⟩

end

end Received

/-- The sequence number denotes the end of the stream, within half the sequence space of
the position `pos`. -/
def FinAgrees (stream : Bytes) (base : SequenceNumber) (pos : Nat) (sequence : SequenceNumber) :
    Prop :=
  ∀ k, sequence = advance base k → k < pos + 2 ^ 31 → pos < k + 2 ^ 31 → k = stream.length

/-- The FIN of a segment in the window is close to `next`. -/
theorem FinAgrees.eq {payloadLen : Nat}
    (hwindow : InWindow (advance base pos) sequence (payloadLen + 1))
    (hlen : payloadLen < maxTcpPayloadBytes)
    (h : FinAgrees stream base pos (advance sequence payloadLen)) :
  advance sequence payloadLen = advance base stream.length ∧ stream.length < pos + 2 ^ 21
  := by
  have hmax : maxTcpPayloadBytes = 2 ^ 16 := rfl
  have hnear : ∃ d < 2 ^ 21, advance sequence payloadLen = advance base (pos + d) := by
    obtain ⟨-, hfirst | hlast⟩ := hwindow
    · refine ⟨distance (advance base pos) sequence + payloadLen, by omega, ?_⟩
      rw [← advance_advance, ← advance_advance, advance_distance]
    · rw [Nat.add_sub_cancel] at hlast
      refine ⟨_, Nat.lt_trans hlast (by decide), ?_⟩
      rw [← advance_advance, advance_distance]
  obtain ⟨d, hd, heq⟩ := hnear
  have hend := h (pos + d) heq (by omega) (by omega)
  rw [← hend]
  refine ⟨heq, by omega⟩

end Helios
