import Helios.Netstack.Codec
import Helios.Netstack.TcpRun
import Mathlib.Tactic.IntervalCases

/-!
# Round trip of the TCP encoding

A segment that was encoded parses to the same header, options and payload, and its
checksum is valid, exactly when the options take at most 40 bytes, the flags fit into
one byte, and the 32-bit checksum sum does not wrap around.  The data offset counts the
words of the header in four bits: with more than 40 bytes of options it overflows.
-/

namespace Helios

variable {written : Bytes} {total : Nat} {cursor : Bytes × Nat}

open BigEndian Checksum TcpSackBlock TcpSegmentView Option

open List hiding Vector isEmpty_iff pure_def

/-! ### Sums of words -/

theorem addU32_mod (a b : Nat) :
  addU32 (a % 2 ^ 32) b = (a + b) % 2 ^ 32
  := by
  simp [addU32]

theorem addWords_eq (sum : Nat) (bytes : Bytes) :
  addWords (sum % 2 ^ 32) bytes = (sum + wordSum bytes) % 2 ^ 32
  := by
  induction bytes using wordSum.induct generalizing sum with
  | case1 => simp [addWords, wordSum]
  | case2 last => rw [addWords, addU32_mod, wordSum]
  | case3 high low rest ih =>
    rw [addWords, addU32_mod, ih, wordSum]
    congr 1
    ring

theorem wordsOf_sum {bytes : Bytes} (h : bytes.length % 2 = 0) :
  (wordsOf bytes).sum = wordSum bytes
  := by
  fun_induction wordSum bytes with
  | case1 => rfl
  | case2 last => simp at h
  | case3 high low rest ih =>
    have hrest : rest.length % 2 = 0 := by
      simp only [length_cons] at h
      omega
    simp [wordsOf, ih hrest]

theorem length_wordsOf (bytes : Bytes) :
  (wordsOf bytes).length = bytes.length / 2
  := by
  fun_induction wordSum bytes with
  | case1 => rfl
  | case2 last => simp [wordsOf]
  | case3 high low rest ih =>
    simp only [wordsOf, length_cons]
    omega

theorem sum_zipWith_addU32 {lanes words : List Nat} (h : lanes.length = words.length) :
  (zipWith addU32 lanes words).sum % 2 ^ 32 = (lanes.sum + words.sum) % 2 ^ 32
  := by
  induction lanes generalizing words with
  | nil =>
    rw [length_eq_zero_iff.mp h.symm]
    rfl
  | cons lane lanes ih =>
    rcases words with _ | ⟨word, words⟩
    · simp at h
    · have hsum := ih (by simpa using h)
      simp only [zipWith_cons_cons, sum_cons, addU32]
      omega

theorem foldl_addU32 (lanes : List Nat) (sum : Nat) :
  lanes.foldl addU32 (sum % 2 ^ 32) = (sum + lanes.sum) % 2 ^ 32
  := by
  induction lanes generalizing sum with
  | nil => simp
  | cons lane lanes ih =>
    rw [foldl_cons, addU32_mod, ih, sum_cons, Nat.add_assoc]

theorem addLanes_eq {blocks : Nat} {lanes : List Nat} {bytes : Bytes}
    (hlanes : lanes.length = 8) (hbytes : 16 * blocks ≤ bytes.length) :
  ((addLanes blocks lanes bytes).1.sum + wordSum (addLanes blocks lanes bytes).2) %
    2 ^ 32 = (lanes.sum + wordSum bytes) % 2 ^ 32
  := by
  induction blocks generalizing lanes bytes with
  | zero => rfl
  | succ blocks ih =>
    have htake : (bytes.take 16).length = 16 := by
      simp only [length_take]
      omega
    have hwords : (wordsOf (bytes.take 16)).length = 8 := by
      rw [length_wordsOf, htake]
    have hstep := sum_zipWith_addU32 (hlanes.trans hwords.symm)
    have hsum := wordsOf_sum (show (bytes.take 16).length % 2 = 0 by rw [htake])
    have hsplit := @wordSum_append (bytes.take 16) (bytes.drop 16) (by rw [htake])
    rw [take_append_drop] at hsplit
    have hlength : (zipWith addU32 lanes (wordsOf (bytes.take 16))).length = 8 := by
      simp [hlanes, hwords]
    rw [addLanes, ih hlength (by simp only [length_drop]; omega)]
    omega

/-- All implementations compute the sum of the words. -/
theorem sumWords_eq (bytes : Bytes) :
  sumWords bytes = wordSum bytes % 2 ^ 32
  := by
  unfold sumWords
  split
  · simpa [sumWordsScalar] using addWords_eq 0 bytes
  · have hlanes := @addLanes_eq (bytes.length / 16) (replicate 8 0) bytes (by simp) (by omega)
    have hfold := foldl_addU32 (addLanes (bytes.length / 16) (replicate 8 0) bytes).1 0
    rw [Nat.zero_mod, Nat.zero_add] at hfold
    rw [sumWordsWide]
    simp only [hfold, addWords_eq, hlanes]
    simp

theorem sumWords_le (bytes : Bytes) :
  sumWords bytes ≤ 65535 * ((bytes.length + 1) / 2)
  := by
  rw [sumWords_eq]
  exact (Nat.mod_le _ _).trans (wordSum_le bytes)

theorem pseudoSumOf_ok {source destination : IpAddress} {len : Nat}
    {sum : IpProtocol → Nat → Except Panic Nat} (h : pseudoSumOf source destination = some sum)
    (protocol : IpProtocol) (hlen : len ≤ 65535) :
  ∃ pseudo, sum protocol len = .ok pseudo ∧ 0 < pseudo ∧ pseudo ≤ 2 ^ 21
  := by
  have hoctets : ∀ {n : Nat} (octets : Vector UInt8 n),
      sumWords octets.toList ≤ 65535 * ((n + 1) / 2) := by
    intro n octets
    simpa using sumWords_le octets.toList
  have hnumber : 0 < protocol.number ∧ protocol.number ≤ 58 := by
    cases protocol <;> decide
  unfold pseudoSumOf at h
  split at h
  · rename_i source destination
    have hsource := hoctets source.octets
    have hdestination := hoctets destination.octets
    cases h
    refine ⟨_, if_pos hlen, ?_⟩
    simp only [addU32]
    omega
  · rename_i source destination
    have hsource := hoctets source.octets
    have hdestination := hoctets destination.octets
    have hlength := sumWords_le (encode 4 len)
    rw [length_encode] at hlength
    cases h
    refine ⟨_, if_pos (by omega), ?_⟩
    simp only [addU32]
    omega
  · cases h

theorem tcpPseudoSum_eq (source destination : IpAddress) (segmentLen : Nat) :
  tcpPseudoSum source destination segmentLen =
    match pseudoSumOf source destination with
    | some sum => sum .tcp segmentLen
    | none => .error .tcpAddressFamiliesDiffer
  := by
  cases source <;> cases destination <;> rfl

/-! ### Options -/

/-- The buffer holds what was written, then zeros, and the cursor stands between them. -/
def Wrote (total : Nat) (written : Bytes) (cursor : Bytes × Nat) : Prop :=
  cursor = (written ++ replicate (total - written.length) 0, written.length)

theorem Wrote.putBytes {bytes : Bytes} (hcursor : Wrote total written cursor)
    (h : (written ++ bytes).length ≤ total) :
  Wrote total (written ++ bytes) (putBytes cursor bytes)
  := by
  subst hcursor
  have hzeros : replicate (total - written.length) (0 : UInt8) =
      replicate bytes.length 0 ++ replicate (total - (written ++ bytes).length) 0 := by
    rw [replicate_append_replicate, length_append] at *
    congr 1
    omega
  rw [Wrote, Helios.putBytes, hzeros, ← append_assoc]
  simp only [length_append]
  rw [overwrite_append rfl (by simp)]

namespace TcpHeaderOptions

variable (self : TcpHeaderOptions)

def mssBytes : Bytes :=
  match self.maximumSegmentSize with
  | some mss => 2 :: 4 :: BigEndian.encode 2 mss
  | none => []

def windowScaleBytes : Bytes :=
  match self.windowScale with
  | some shift => [3, 3, UInt8.ofNat shift]
  | none => []

def sackPermittedBytes : Bytes :=
  if self.sackPermitted then [4, 2] else []

def sackBlockBytes : Bytes :=
  if self.sackBlocks.blocks.isEmpty then
    []
  else
    5 :: UInt8.ofNat (2 + self.sackBlocks.blocks.length * 8) ::
      self.sackBlocks.blocks.flatMap bytes

def timestampBytes : Bytes :=
  match self.timestamp with
  | some timestamp =>
    8 :: 10 :: (BigEndian.encode 4 timestamp.value ++ BigEndian.encode 4 timestamp.echoReply)
  | none => []

/-- The options without padding. -/
def body : Bytes :=
  self.mssBytes ++ self.windowScaleBytes ++ self.sackPermittedBytes ++ self.sackBlockBytes ++
    self.timestampBytes

theorem length_flatMap_bytes (blocks : List TcpSackBlock) :
  (blocks.flatMap bytes).length = blocks.length * 8
  := by
  simp [bytes]

theorem length_body :
  self.body.length = (if self.maximumSegmentSize.isSome then 4 else 0)
    + (if self.windowScale.isSome then 3 else 0) + (if self.sackPermitted then 2 else 0)
    + (if self.sackBlocks.blocks.isEmpty then 0 else 2 + self.sackBlocks.blocks.length * 8)
    + (if self.timestamp.isSome then 10 else 0)
  := by
  have hmss : self.mssBytes.length = if self.maximumSegmentSize.isSome then 4 else 0 := by
    unfold mssBytes
    cases self.maximumSegmentSize <;> simp
  have hscale : self.windowScaleBytes.length = if self.windowScale.isSome then 3 else 0 := by
    unfold windowScaleBytes
    cases self.windowScale <;> simp
  have hpermitted : self.sackPermittedBytes.length = if self.sackPermitted then 2 else 0 := by
    unfold sackPermittedBytes
    cases self.sackPermitted <;> simp
  have hsack : self.sackBlockBytes.length =
      if self.sackBlocks.blocks.isEmpty then 0 else 2 + self.sackBlocks.blocks.length * 8 := by
    unfold sackBlockBytes
    split
    · rfl
    · simp only [length_cons, length_flatMap_bytes]
      omega
  have htimestamp : self.timestampBytes.length = if self.timestamp.isSome then 10 else 0 := by
    unfold timestampBytes
    cases self.timestamp <;> simp
  simp only [body, length_append, hmss, hscale, hpermitted, hsack, htimestamp]

theorem encodedLen_eq :
  self.encodedLen = (self.body.length + 3) / 4 * 4
  := by
  rw [length_body]
  rfl

theorem encodedLen_mod :
  self.encodedLen % 4 = 0
  := by
  rw [encodedLen_eq]
  omega

theorem length_body_le :
  self.body.length ≤ 53
  := by
  have hblocks := self.sackBlocks.length_le
  simp only [maxTcpSackBlocks] at hblocks
  rw [length_body]
  split_ifs <;> omega

theorem wrote_foldl (hcursor : Wrote total written cursor) (blocks : List TcpSackBlock)
    (h : (written ++ blocks.flatMap bytes).length ≤ total) :
  Wrote total (written ++ blocks.flatMap bytes)
    (blocks.foldl (fun cursor block => putBytes cursor block.bytes) cursor)
  := by
  induction blocks generalizing written cursor with
  | nil => simpa using hcursor
  | cons block blocks ih =>
    rw [flatMap_cons, ← append_assoc] at h ⊢
    have hblock : (written ++ block.bytes).length ≤ total := by
      rw [length_append] at h
      omega
    exact ih (hcursor.putBytes hblock) h

section

variable {self : TcpHeaderOptions} (hcursor : Wrote total written cursor)
include hcursor

theorem wrote_maximumSegmentSize (h : (written ++ self.mssBytes).length ≤ total) :
  Wrote total (written ++ self.mssBytes) (self.putMaximumSegmentSize cursor)
  := by
  unfold mssBytes putMaximumSegmentSize at *
  cases hopt : self.maximumSegmentSize with
  | none => simpa using hcursor
  | some mss => exact hcursor.putBytes (by simpa only [hopt] using h)

theorem wrote_windowScale (h : (written ++ self.windowScaleBytes).length ≤ total) :
  Wrote total (written ++ self.windowScaleBytes) (self.putWindowScale cursor)
  := by
  unfold windowScaleBytes putWindowScale at *
  cases hopt : self.windowScale with
  | none => simpa using hcursor
  | some shift => exact hcursor.putBytes (by simpa only [hopt] using h)

theorem wrote_sackPermitted (h : (written ++ self.sackPermittedBytes).length ≤ total) :
  Wrote total (written ++ self.sackPermittedBytes) (self.putSackPermitted cursor)
  := by
  unfold sackPermittedBytes putSackPermitted at *
  split
  · rename_i hpermitted
    exact hcursor.putBytes (by simpa only [hpermitted, if_true] using h)
  · simpa using hcursor

theorem wrote_sackBlocks (h : (written ++ self.sackBlockBytes).length ≤ total) :
  Wrote total (written ++ self.sackBlockBytes) (self.putSackBlocks cursor)
  := by
  unfold sackBlockBytes putSackBlocks at *
  split
  · simpa using hcursor
  · rename_i hsome
    rw [if_neg hsome] at h
    have hsplit : ∀ bytes : Bytes, written ++ 5 ::
        UInt8.ofNat (2 + self.sackBlocks.blocks.length * 8) :: bytes = written ++
          [5, UInt8.ofNat (2 + self.sackBlocks.blocks.length * 8)] ++ bytes := by
      simp
    rw [hsplit] at h ⊢
    have hhead : (written ++ [5, UInt8.ofNat (2 + self.sackBlocks.blocks.length * 8)]).length ≤
        total := by
      rw [length_append] at h
      omega
    exact wrote_foldl (hcursor.putBytes hhead) _ h

theorem wrote_timestamp (h : (written ++ self.timestampBytes).length ≤ total) :
  Wrote total (written ++ self.timestampBytes) (self.putTimestamp cursor)
  := by
  unfold timestampBytes putTimestamp at *
  cases hopt : self.timestamp with
  | none => simpa using hcursor
  | some timestamp => exact hcursor.putBytes (by simpa only [hopt] using h)

end

/-- Encoding the options writes them one after the other and pads with zeros. -/
theorem encode_eq {output : Bytes}
    (h : output.length = self.encodedLen) :
  self.encode output =
    some (self.body ++ replicate (self.encodedLen - self.body.length) 0)
  := by
  have hbound : self.body.length ≤ self.encodedLen := by
    rw [encodedLen_eq]
    omega
  simp only [body, length_append] at hbound
  have hstart : Wrote self.encodedLen [] (replicate self.encodedLen 0, 0) := by simp [Wrote]
  have hmss := @wrote_maximumSegmentSize _ _ _ self hstart (by simp only [nil_append]; omega)
  rw [nil_append] at hmss
  have hscale := @wrote_windowScale _ _ _ self hmss (by simp only [length_append]; omega)
  have hpermitted := @wrote_sackPermitted _ _ _ self hscale (by
    simp only [length_append]; omega)
  have hsack := @wrote_sackBlocks _ _ _ self hpermitted (by simp only [length_append]; omega)
  have htimestamp := @wrote_timestamp _ _ _ self hsack (by simp only [length_append]; omega)
  rw [encode, if_neg (by simp [h]), h]
  exact congrArg (fun cursor => some cursor.1) htimestamp

/-- The options as the receiver of the segment should see them. -/
def received : TcpOptions where
  maximumSegmentSize := self.maximumSegmentSize
  windowScale := self.windowScale
  sackPermitted := self.sackPermitted
  sackBlocks := self.sackBlocks
  timestamp := self.timestamp

/-- The numbers of the options are within the types that the source gives them. -/
structure Fits (options : TcpHeaderOptions) : Prop where
  maximumSegmentSize : ∀ mss ∈ options.maximumSegmentSize, mss < 2 ^ 16
  windowScale : ∀ shift ∈ options.windowScale, shift < 2 ^ 8
  timestamp : ∀ timestamp ∈ options.timestamp, timestamp.value < 2 ^ 32 ∧ timestamp.echoReply < 2 ^ 32

end TcpHeaderOptions

namespace TcpOptions

variable {options : TcpOptions}

theorem parseFrom_option {kind : UInt8} {data rest : Bytes} (hend : kind ≠ 0) (hnop : kind ≠ 1)
    (hlength : data.length + 2 < 256) :
  parseFrom (kind :: UInt8.ofNat (data.length + 2) :: (data ++ rest)) options =
    (options.note kind data).bind (parseFrom rest)
  := by
  have hlen : (UInt8.ofNat (data.length + 2)).toNat = data.length + 2 := by
    simp only [UInt8.toNat_ofNat']
    omega
  rw [parseFrom]
  simp only [hend, hnop, if_false, hlen]
  rw [if_neg (by simp only [length_cons, length_append]; omega)]
  have hdata : ((kind :: UInt8.ofNat (data.length + 2) :: (data ++ rest)).take
      (data.length + 2)).drop 2 = data := by
    simp
  have hrest : (kind :: UInt8.ofNat (data.length + 2) :: (data ++ rest)).drop
      (data.length + 2) = rest := by
    simp
  rw [hdata, hrest]
  cases options.note kind data <;> rfl

theorem parseFrom_zeros (n : Nat) :
  parseFrom (replicate n 0) options = some options
  := by
  cases n with
  | zero => simp [parseFrom]
  | succ n =>
    rw [replicate_succ, parseFrom.eq_def]
    simp

theorem decode_encode_ofNat (edge : SequenceNumber) :
  BitVec.ofNat 32 (decode (encode 4 edge.toNat)) = edge
  := by
  rw [decode_encode (by simpa using edge.isLt), BitVec.ofNat_toNat, BitVec.setWidth_eq]

theorem pushSackBlocks_bytes {block : TcpSackBlock} {rest : Bytes} {blocks : TcpSackBlocks} :
  pushSackBlocks (block.bytes ++ rest) blocks = (blocks.push block).bind (pushSackBlocks rest)
  := by
  have hleft := decode_encode_ofNat block.leftEdge
  have hright := decode_encode_ofNat block.rightEdge
  simp only [bytes, encode, cons_append, nil_append, pushSackBlocks] at *
  rw [hleft, hright]

/-- The blocks of an option are added in order, as long as there is room. -/
theorem pushSackBlocks_eq {blocks : List TcpSackBlock} {held all : TcpSackBlocks}
    (h : all.blocks = held.blocks ++ blocks) :
  pushSackBlocks (blocks.flatMap bytes) held = some all
  := by
  induction blocks generalizing held with
  | nil =>
    obtain ⟨all, hall⟩ := all
    subst h
    simp [pushSackBlocks]
  | cons block blocks ih =>
    have hroom : held.blocks.length < maxTcpSackBlocks := by
      have := all.length_le
      rw [h, length_append, length_cons] at this
      omega
    rw [flatMap_cons, pushSackBlocks_bytes, TcpSackBlocks.push, dif_pos hroom]
    exact ih (by simp [h])

end TcpOptions

namespace TcpHeaderOptions

open TcpOptions

section

variable {self : TcpHeaderOptions} {options : TcpOptions} {rest : Bytes}

theorem parseFrom_mss (hfits : self.Fits) (h : options.maximumSegmentSize = none) :
  parseFrom (self.mssBytes ++ rest) options =
    parseFrom rest { options with maximumSegmentSize := self.maximumSegmentSize }
  := by
  unfold mssBytes
  cases hmss : self.maximumSegmentSize with
  | none => simp [← h]
  | some mss =>
    have hlt : mss < 256 ^ 2 := hfits.maximumSegmentSize mss hmss
    have hoption := @parseFrom_option options 2 (BigEndian.encode 2 mss) rest (by decide)
      (by decide) (by simp)
    simpa [note, decode_encode hlt] using hoption

theorem parseFrom_windowScale (hfits : self.Fits) (h : options.windowScale = none) :
  parseFrom (self.windowScaleBytes ++ rest) options =
    parseFrom rest { options with windowScale := self.windowScale }
  := by
  unfold windowScaleBytes
  cases hscale : self.windowScale with
  | none => simp [← h]
  | some shift =>
    have hlt : shift < 2 ^ 8 := hfits.windowScale shift hscale
    have hoption := @parseFrom_option options 3 [UInt8.ofNat shift] rest (by decide)
      (by decide) (by simp)
    have hdecode : decode [UInt8.ofNat shift] = shift := by
      simp only [decode, UInt8.toNat_ofNat', length_nil]
      omega
    simpa [note, hdecode] using hoption

theorem parseFrom_sackPermitted (h : options.sackPermitted = false) :
  parseFrom (self.sackPermittedBytes ++ rest) options =
    parseFrom rest { options with sackPermitted := self.sackPermitted }
  := by
  unfold sackPermittedBytes
  cases hpermitted : self.sackPermitted with
  | false =>
    have hsame : { options with sackPermitted := false } = options := by rw [← h]
    simp [hsame]
  | true =>
    have hoption := @parseFrom_option options 4 [] rest (by decide) (by decide) (by simp)
    simpa [note] using hoption

theorem parseFrom_sackBlocks (h : options.sackBlocks = .empty) :
  parseFrom (self.sackBlockBytes ++ rest) options =
    parseFrom rest { options with sackBlocks := self.sackBlocks }
  := by
  unfold sackBlockBytes
  split
  · rename_i hnone
    have hempty : self.sackBlocks = options.sackBlocks := by
      rw [h]
      generalize self.sackBlocks = held at hnone ⊢
      obtain ⟨blocks, hblocks⟩ := held
      simp only [List.isEmpty_iff] at hnone
      subst hnone
      rfl
    simp [hempty]
  · have hlength := self.sackBlocks.length_le
    simp only [maxTcpSackBlocks] at hlength
    have hoption := @parseFrom_option options 5
      (self.sackBlocks.blocks.flatMap bytes) rest (by decide) (by decide)
      (by rw [length_flatMap_bytes]; omega)
    have hpush : pushSackBlocks (self.sackBlocks.blocks.flatMap bytes)
        options.sackBlocks = some self.sackBlocks := by
      rw [h]
      exact pushSackBlocks_eq (by simp [TcpSackBlocks.empty])
    have hnote : options.note 5 (self.sackBlocks.blocks.flatMap bytes) =
        some { options with sackBlocks := self.sackBlocks } := by
      have hwhole : (self.sackBlocks.blocks.flatMap bytes).length % 8 = 0 := by
        rw [length_flatMap_bytes, Nat.mul_mod_left]
      simp only [note, hpush, hwhole]
      rfl
    rw [hnote, length_flatMap_bytes, Nat.add_comm] at hoption
    exact hoption

theorem parseFrom_timestamp (hfits : self.Fits) (h : options.timestamp = none) :
  parseFrom (self.timestampBytes ++ rest) options =
    parseFrom rest { options with timestamp := self.timestamp }
  := by
  unfold timestampBytes
  cases htimestamp : self.timestamp with
  | none => simp [← h]
  | some timestamp =>
    obtain ⟨hvalue, hecho⟩ := hfits.timestamp timestamp htimestamp
    have hvalue' : timestamp.value < 256 ^ 4 := hvalue
    have hecho' : timestamp.echoReply < 256 ^ 4 := hecho
    have hoption := @parseFrom_option options 8
      (BigEndian.encode 4 timestamp.value ++ BigEndian.encode 4 timestamp.echoReply) rest
      (by decide) (by decide) (by simp)
    have hnote : options.note 8
        (BigEndian.encode 4 timestamp.value ++ BigEndian.encode 4 timestamp.echoReply) =
        some { options with timestamp := some timestamp } := by
      simp [note, decode_encode hvalue', decode_encode hecho']
    rw [hnote] at hoption
    simpa using hoption

end

theorem parse_body (self : TcpHeaderOptions) (hfits : self.Fits) (n : Nat) :
  TcpOptions.parse (self.body ++ replicate n 0) = some self.received
  := by
  simp only [TcpOptions.parse, body, append_assoc]
  rw [parseFrom_mss hfits rfl, parseFrom_windowScale hfits rfl, parseFrom_sackPermitted rfl,
    parseFrom_sackBlocks rfl, parseFrom_timestamp hfits rfl, parseFrom_zeros]
  rfl

end TcpHeaderOptions
/-! ### Headers -/

/-- The encoded options, with their padding. -/
def TcpHeaderOptions.bytes (self : TcpHeaderOptions) : Bytes :=
  self.body ++ replicate (self.encodedLen - self.body.length) 0

theorem TcpHeaderOptions.length_bytes (self : TcpHeaderOptions) :
  self.bytes.length = self.encodedLen
  := by
  rw [bytes, length_append, length_replicate, encodedLen_eq]
  omega

namespace TcpPacket

variable {header : TcpHeader} {options : TcpHeaderOptions} {payload : Bytes}

variable {field words : Nat} {source destination : IpAddress}

section

variable (header options payload field)

def headerLen : Nat :=
  minHeaderLen + options.encodedLen

theorem headerLen_le :
  headerLen options ≤ 76
  := by
  have := options.length_body_le
  rw [headerLen, minHeaderLen, options.encodedLen_eq]
  omega

def headerStart : Bytes :=
  encode 2 header.sourcePort.toNat ++ encode 2 header.destinationPort.toNat ++
    encode 4 header.sequence.toNat ++ encode 4 header.acknowledgement.toNat ++
    [UInt8.ofNat (headerLen options / 4) <<< 4] ++ [header.flags.bits.toUInt8] ++
    encode 2 header.windowSize

theorem length_headerStart :
  (headerStart header options).length = 16
  := by
  simp [headerStart]

/-- The bytes of a segment whose checksum field holds `field`. -/
def segmentBytes : Bytes :=
  headerStart header options ++ encode 2 field ++ ([0, 0] ++ options.bytes ++ payload)

theorem length_segmentBytes :
  (segmentBytes header options payload field).length = headerLen options + payload.length
  := by
  simp only [segmentBytes, length_append, length_headerStart, length_encode,
    options.length_bytes, length_cons, length_nil, headerLen, minHeaderLen]
  omega

/-- A buffer that is filled from the front: what was written, zeros, and the rest. -/
def Filled (written : Bytes) (zeros : Nat) (rest buffer : Bytes) : Prop :=
  buffer = written ++ replicate zeros 0 ++ rest

section Filled

variable {written rest buffer : Bytes} {zeros : Nat}

theorem Filled.overwrite (h : Filled written zeros rest buffer) (offset : Nat) (bytes : Bytes)
    (hoffset : written.length = offset) (hroom : bytes.length ≤ zeros) :
  Filled (written ++ bytes) (zeros - bytes.length) rest (overwrite buffer offset bytes)
  := by
  have hzeros : replicate zeros (0 : UInt8) =
      replicate bytes.length 0 ++ replicate (zeros - bytes.length) 0 := by
    rw [replicate_append_replicate]
    congr 1
    omega
  rw [Filled, h, hzeros, ← append_assoc, append_assoc _ _ rest,
    overwrite_append hoffset (by simp)]
  simp

theorem Filled.writeNumber (h : Filled written zeros rest buffer) (width offset value : Nat)
    (hoffset : written.length = offset) (hroom : width ≤ zeros) :
  ∃ buffer', writeNumber width buffer offset value = some buffer' ∧
    Filled (written ++ encode width value) (zeros - width) rest buffer'
  := by
  have hlength : offset + width ≤ buffer.length := by
    rw [h, length_append, length_append, length_replicate]
    omega
  have hfilled := h.overwrite offset (encode width value) hoffset (by simpa)
  rw [length_encode] at hfilled
  use BigEndian.overwrite buffer offset (encode width value)
  constructor
  · rw [Helios.writeNumber, if_pos hlength]
  · exact hfilled

end Filled

/-- The header is written field by field; the checksum and the urgent pointer stay zero. -/
theorem writeHeader_eq (output : Bytes) :
  writeHeader output header options (headerLen options)
      (UInt8.ofNat (headerLen options / 4)) =
    some (segmentBytes header options [] 0 ++ output.drop (headerLen options))
  := by
  have hstart : Filled [] (headerLen options) (output.drop (headerLen options))
      (BigEndian.overwrite output 0 (replicate (headerLen options) 0)) := by
    simp [Filled, BigEndian.overwrite]
  have hlen : headerLen options = 20 + options.encodedLen := rfl
  obtain ⟨b₁, hb₁, h₁⟩ :=
    hstart.writeNumber 2 0 header.sourcePort.toNat rfl (by omega)
  obtain ⟨b₂, hb₂, h₂⟩ :=
    h₁.writeNumber 2 2 header.destinationPort.toNat (by simp) (by omega)
  obtain ⟨b₃, hb₃, h₃⟩ := h₂.writeNumber 4 4 header.sequence.toNat (by simp) (by omega)
  obtain ⟨b₄, hb₄, h₄⟩ := h₃.writeNumber 4 8 header.acknowledgement.toNat (by simp) (by omega)
  have h₅ := h₄.overwrite 12 [UInt8.ofNat (headerLen options / 4) <<< 4] (by simp) (by
    simp only [length_singleton]; omega)
  have h₆ := h₅.overwrite 13 [header.flags.bits.toUInt8] (by simp) (by
    simp only [length_singleton]; omega)
  obtain ⟨b₇, hb₇, h₇⟩ := h₆.writeNumber 2 14 header.windowSize (by simp) (by
    simp only [length_singleton]; omega)
  -- the checksum and the urgent pointer stay zero, and what is left is the options
  have hstart' : Filled (headerStart header options ++ [0, 0, 0, 0]) options.encodedLen
      (output.drop (headerLen options)) b₇ := by
    have hzeros : headerLen options - 2 - 2 - 4 - 4 - 1 - 1 - 2 = 4 + options.encodedLen := by
      omega
    simp only [length_singleton] at h₇
    rw [hzeros, Filled, ← replicate_append_replicate] at h₇
    simpa [Filled, headerStart] using h₇
  have hlength : ((b₇.take (headerLen options)).drop minHeaderLen).length = options.encodedLen := by
    rw [hstart']
    simp [length_headerStart, minHeaderLen]
    omega
  have hwritten := hstart'.overwrite minHeaderLen options.bytes (by
    simp [length_headerStart, minHeaderLen]) options.length_bytes.le
  simp only [options.length_bytes] at hwritten
  simp only [writeHeader, writeU16, writeU32, hb₁, hb₂, hb₃, hb₄, hb₇, options.encode_eq hlength,
    bind_eq_bind, bind_some]
  exact congrArg some (hwritten.trans (by simp [segmentBytes, encode]))

theorem checkedAdd_headerLen :
  checkedAdd minHeaderLen options.encodedLen = some (headerLen options)
  := by
  have := headerLen_le options
  rw [checkedAdd, if_pos (by rw [headerLen] at this; omega)]
  rfl

theorem tryU8_headerLen :
  tryU8 (headerLen options / 4) = some (UInt8.ofNat (headerLen options / 4))
  := by
  have := headerLen_le options
  rw [tryU8, if_pos (by omega)]

theorem overwrite_payload (output : Bytes) :
  BigEndian.overwrite (segmentBytes header options [] 0 ++ output.drop (headerLen options))
      (headerLen options) payload =
    segmentBytes header options payload 0 ++ output.drop (headerLen options + payload.length)
  := by
  have hlength : (segmentBytes header options [] 0).length = headerLen options :=
    length_segmentBytes ..
  have htake : (segmentBytes header options [] 0 ++ output.drop (headerLen options)).take
      (headerLen options) = segmentBytes header options [] 0 :=
    take_left' hlength
  have hdrop : (segmentBytes header options [] 0 ++ output.drop (headerLen options)).drop
      (headerLen options + payload.length) =
      output.drop (headerLen options + payload.length) := by
    rw [← drop_drop, drop_left' hlength, drop_drop]
  rw [BigEndian.overwrite, htake, hdrop]
  simp [segmentBytes]

theorem writeU16_field (rest : Bytes) :
  writeU16 (segmentBytes header options payload 0 ++ rest) 16 field =
    some (segmentBytes header options payload field ++ rest)
  := by
  have hlength := length_segmentBytes header options payload 0
  have hsplit : ∀ f, segmentBytes header options payload f ++ rest =
      headerStart header options ++ encode 2 f ++ ([0, 0] ++ options.bytes ++ payload ++ rest) := by
    simp [segmentBytes]
  rw [writeU16, writeNumber, if_pos, hsplit, overwrite_append (length_headerStart header options)
    (by simp), hsplit]
  rw [length_append, hlength, headerLen, minHeaderLen]
  omega

theorem take_segmentBytes (rest : Bytes) :
  (segmentBytes header options payload field ++ rest).take (headerLen options + payload.length) =
    segmentBytes header options payload field
  := take_left' (length_segmentBytes header options payload field)

end

def checksumField (source destination : IpAddress) (header : TcpHeader)
    (options : TcpHeaderOptions) (payload : Bytes) : TransportChecksum → Except Panic Nat
  | .software => tcpChecksum source destination (segmentBytes header options payload 0)
  | .deviceOffload =>
    tcpPseudoHeaderChecksum source destination (headerLen options + payload.length)

section

variable {output output' : Bytes} {checksum : TransportChecksum} {n : Nat}

/-- Where there is room, a segment is the header, the options and the payload, with the checksum
field filled in. -/
theorem encodeWithOptions_of_room (hfits : headerLen options + payload.length < 2 ^ 64)
    (hroom : headerLen options + payload.length ≤ output.length) :
  encodeWithOptions output source destination header options payload checksum =
    (checksumField source destination header options payload checksum).map fun field =>
      some (headerLen options + payload.length, segmentBytes header options payload field ++
        output.drop (headerLen options + payload.length))
  := by
  have hlen : checkedAdd (headerLen options) payload.length =
      some (headerLen options + payload.length) := if_pos hfits
  unfold encodeWithOptions
  simp only [checkedAdd_headerLen, tryU8_headerLen, writeHeader_eq, bind_eq_bind, bind_some, hlen,
    Nat.not_lt.mpr hroom, if_false, pure_def, overwrite_payload, take_segmentBytes]
  cases checksum <;> rfl

theorem encodeWithOptions_eq
    (h : encodeWithOptions output source destination header options payload checksum =
      .ok (some (n, output'))) :
  ∃ field, checksumField source destination header options payload checksum = .ok field ∧
    n = headerLen options + payload.length ∧ n < 2 ^ 64 ∧
    output'.take n = segmentBytes header options payload field
  := by
  have hroom : headerLen options + payload.length < 2 ^ 64 ∧
      headerLen options + payload.length ≤ output.length := by
    by_contra hroom
    simp only [encodeWithOptions, checkedAdd_headerLen, tryU8_headerLen, bind_eq_bind, bind_some] at h
    rw [checkedAdd] at h
    split_ifs at h with hfits
    · simp only [bind_some, if_pos (Nat.not_le.mp fun h => hroom ⟨hfits, h⟩)] at h
      cases h
    · cases h
  rw [encodeWithOptions_of_room hroom.1 hroom.2] at h
  obtain ⟨field, hfield, heq⟩ := Transition.map_eq_ok h
  cases heq
  exact ⟨field, hfield, rfl, hroom.1, take_segmentBytes ..⟩

/-- A header that is sent apart from its payload is the start of the segment. -/
theorem encodeHeadersScatter_eq (hfits : headerLen options + payload.length < 2 ^ 64)
    (hroom : headerLen options ≤ output.length) (hfield : tcpPseudoHeaderChecksum source
      destination (headerLen options + payload.length) = .ok field) :
  ∃ output', encodeHeadersScatter output source destination header options payload.length =
      .ok (some (headerLen options, output')) ∧
    output'.take (headerLen options) ++ payload = segmentBytes header options payload field
  := by
  use segmentBytes header options [] field ++ output.drop (headerLen options)
  constructor
  · have hlen : checkedAdd (headerLen options) payload.length =
        some (headerLen options + payload.length) := if_pos hfits
    unfold encodeHeadersScatter
    simp only [checkedAdd_headerLen, tryU8_headerLen, writeHeader_eq, bind_eq_bind, bind_some,
      Nat.not_lt.mpr hroom, if_false, hlen, pure_def, hfield, Except.map, writeU16_field, map_some]
  · have hlength : (segmentBytes header options [] field).length = headerLen options :=
      length_segmentBytes ..
    rw [← hlength, take_left]
    simp [segmentBytes]

end

/-! ### Parsing -/

def segmentView (header : TcpHeader) (options : TcpHeaderOptions) (payload : Bytes) :
    TcpSegmentView where
  sourcePort := header.sourcePort
  destinationPort := header.destinationPort
  sequence := header.sequence
  acknowledgement := header.acknowledgement
  flags := header.flags
  windowSize := UInt16.ofNat header.windowSize
  options := options.received
  payload := payload

theorem dataOffset_small (h : words < 16) :
  ((UInt8.ofNat words <<< 4) >>> 4).toNat = words ∧ (UInt8.ofNat words <<< 4) &&& 1 = 0
  := by
  interval_cases words <;> decide

theorem dataOffset_large (hge : 16 ≤ words) (hlt : words < 20) :
  ((UInt8.ofNat words <<< 4) >>> 4).toNat * 4 < minHeaderLen
  := by
  interval_cases words <;> decide

section

variable (header options payload field)

theorem segmentBytes_getElem_12 :
  (segmentBytes header options payload field)[12]? =
    some (UInt8.ofNat (headerLen options / 4) <<< 4)
  := by
  simp [segmentBytes, headerStart, encode]

theorem segmentBytes_getElem_13 :
  (segmentBytes header options payload field)[13]? = some header.flags.bits.toUInt8
  := by
  simp [segmentBytes, headerStart, encode]

theorem readArray_header :
  readArray (segmentBytes header options payload field) 0 2 =
      some (encode 2 header.sourcePort.toNat) ∧
    readArray (segmentBytes header options payload field) 2 2 =
      some (encode 2 header.destinationPort.toNat) ∧
    readArray (segmentBytes header options payload field) 4 4 =
      some (encode 4 header.sequence.toNat) ∧
    readArray (segmentBytes header options payload field) 8 4 =
      some (encode 4 header.acknowledgement.toNat) ∧
    readArray (segmentBytes header options payload field) 14 2 =
      some (encode 2 header.windowSize)
  := by
  refine ⟨?_, ?_, ?_, ?_, ?_⟩ <;>
    rw [readArray] <;>
    simp [segmentBytes, headerStart, encode]

theorem segmentBytes_split :
  ((segmentBytes header options payload field).take (headerLen options)).drop minHeaderLen =
      options.bytes ∧
    (segmentBytes header options payload field).drop (headerLen options) = payload
  := by
  have hfixed : (headerStart header options ++ encode 2 field ++ [0, 0]).length = minHeaderLen := by
    simp [length_headerStart, minHeaderLen]
  have hheader : (headerStart header options ++ encode 2 field ++ [0, 0] ++
      options.bytes).length = headerLen options := by
    rw [length_append, options.length_bytes]
    rfl
  have hsplit : segmentBytes header options payload field =
      headerStart header options ++ encode 2 field ++ [0, 0] ++ options.bytes ++ payload := by
    simp [segmentBytes]
  rw [hsplit]
  constructor
  · rw [take_left' hheader, drop_left' hfixed]
  · rw [drop_left' hheader]

variable {header options}

/-- A header with more than 40 bytes of options does not parse. -/
theorem parse_segmentBytes_large (h : 40 < options.encodedLen) :
  parse (segmentBytes header options payload field) = none
  := by
  have hle := headerLen_le options
  have hlen : headerLen options = 20 + options.encodedLen := rfl
  have haligned := options.encodedLen_mod
  have hsmall := @dataOffset_large (headerLen options / 4) (by omega) (by omega)
  rw [parse, segmentBytes_getElem_12, segmentBytes_getElem_13]
  simp only
  rw [if_pos (.inr (.inl hsmall))]

/-- A segment with up to 40 bytes of options parses to its header, with one byte of flags,
its options and its payload. -/
theorem parse_segmentBytes (hwindow : header.windowSize < 2 ^ 16) (hfits : options.Fits)
    (h : options.encodedLen ≤ 40) :
  parse (segmentBytes header options payload field) =
    some { segmentView header options payload with
      flags := ⟨header.flags.bits.toUInt8.toUInt16⟩ }
  := by
  have hlen : headerLen options = 20 + options.encodedLen := rfl
  have haligned := options.encodedLen_mod
  obtain ⟨hwords, hlow⟩ := @dataOffset_small (headerLen options / 4) (by omega)
  have hheader : headerLen options / 4 * 4 = headerLen options := by omega
  obtain ⟨hsource, hdestination, hsequence, hacknowledgement, hwindowSize⟩ :=
    readArray_header header options payload field
  obtain ⟨hoptions, hpayload⟩ := segmentBytes_split header options payload field
  have hlength := length_segmentBytes header options payload field
  rw [parse, segmentBytes_getElem_12, segmentBytes_getElem_13]
  simp only [hwords, hheader]
  rw [if_neg (by rw [hlength, hlen, minHeaderLen]; omega), hoptions, hpayload,
    TcpHeaderOptions.bytes, options.parse_body hfits]
  simp only [readU16, readU32, hsource, hdestination, hsequence, hacknowledgement, hwindowSize,
    map_some, hlow]
  have hwindow' : header.windowSize < 256 ^ 2 := hwindow
  rw [decode_encode header.sourcePort.toNat_lt, decode_encode header.destinationPort.toNat_lt,
    decode_encode hwindow', TcpOptions.decode_encode_ofNat, TcpOptions.decode_encode_ofNat]
  simp [segmentView]

end

/-! ### Checksums -/

/-- The sum that the checksum complements: the pseudo-header and the segment, its
checksum field zero, in 32-bit arithmetic. -/
def checksumSum (pseudo : Nat) (header : TcpHeader) (options : TcpHeaderOptions)
    (payload : Bytes) : Nat :=
  (pseudo + wordSum (segmentBytes header options payload 0)) % 2 ^ 32

def SumWraps (source destination : IpAddress) (header : TcpHeader) (options : TcpHeaderOptions)
    (payload : Bytes) : Prop :=
  ∃ pseudo, tcpPseudoSum source destination (headerLen options + payload.length) = .ok pseudo ∧
    2 ^ 32 ≤ checksumSum pseudo header options payload +
      (65535 - fold (checksumSum pseudo header options payload))

theorem wordSum_segmentBytes (h : field < 65536) :
  wordSum (segmentBytes header options payload field) =
    wordSum (segmentBytes header options payload 0) + field
  := by
  have hword : ∀ f < 65536, wordSum (encode 2 f) = f := by
    simp only [encode, wordSum, UInt8.toNat_ofNat']
    omega
  have hsum : ∀ f < 65536, wordSum (segmentBytes header options payload f) =
      wordSum (headerStart header options) + f +
        wordSum ([0, 0] ++ options.bytes ++ payload) := by
    intro f hf
    rw [segmentBytes, wordSum_append (by simp [length_headerStart]),
      wordSum_append (by simp [length_headerStart]), hword f hf]
  rw [hsum field h, hsum 0 (by omega)]
  omega

/-- A segment with a software checksum is accepted exactly when the sum did not wrap. -/
theorem tcpChecksumValid_iff (h : checksumField source destination header options payload
      .software = .ok field) :
  tcpChecksumValid source destination (segmentBytes header options payload field) = .ok true ↔
    ¬ SumWraps source destination header options payload
  := by
  rw [checksumField, tcpChecksum, length_segmentBytes] at h
  obtain ⟨pseudo, hpseudo, hfield⟩ := Transition.map_eq_ok h
  have hsum : addU32 pseudo (sumWords (segmentBytes header options payload 0)) =
      checksumSum pseudo header options payload := by
    rw [sumWords_eq, addU32, checksumSum, Nat.add_mod_mod]
  rw [hsum, finishChecksum, foldSum] at hfield
  have hfieldLt : field < 65536 := by omega
  have hlt : checksumSum pseudo header options payload < 2 ^ 32 := Nat.mod_lt _ (by norm_num)
  have hverify : addU32 pseudo (sumWords (segmentBytes header options payload field)) =
      (checksumSum pseudo header options payload +
        (65535 - fold (checksumSum pseudo header options payload))) % 2 ^ 32 := by
    rw [hfield, sumWords_eq, addU32, Nat.add_mod_mod, wordSum_segmentBytes hfieldLt,
      ← Nat.add_assoc, checksumSum, Nat.mod_add_mod]
  have hwraps : SumWraps source destination header options payload ↔
      2 ^ 32 ≤ checksumSum pseudo header options payload +
        (65535 - fold (checksumSum pseudo header options payload)) := by
    simp [SumWraps, hpseudo]
  rw [hwraps, Nat.not_le, ← fold_wrapped_eq_ones hlt, tcpChecksumValid, tcpChecksum,
    length_segmentBytes, hpseudo]
  have hfold := fold_lt ((checksumSum pseudo header options payload +
    (65535 - fold (checksumSum pseudo header options payload))) % 2 ^ 32)
  simp only [Except.map, hverify, finishChecksum, foldSum, Except.ok.injEq, beq_iff_eq]
  omega

theorem toUInt8_toUInt16_eq {bits : UInt16} :
  bits.toUInt8.toUInt16 = bits ↔ bits.toNat < 256
  := by
  rw [← UInt16.toNat_inj, UInt8.toNat_toUInt16, UInt16.toNat_toUInt8]
  omega

theorem not_sumWraps (h : headerLen options + payload.length < 2 ^ 16) :
  ¬ SumWraps source destination header options payload
  := by
  rintro ⟨pseudo, hpseudo, hge⟩
  rw [tcpPseudoSum_eq] at hpseudo
  split at hpseudo
  · rename_i sum hsum
    obtain ⟨pseudo, hok, _, hle⟩ := pseudoSumOf_ok hsum .tcp (Nat.le_of_lt_succ h)
    cases hok.symm.trans hpseudo
    have hwords := wordSum_le (segmentBytes header options payload 0)
    rw [length_segmentBytes] at hwords
    have hsum : checksumSum pseudo header options payload ≤
        pseudo + wordSum (segmentBytes header options payload 0) := Nat.mod_le _ _
    omega
  · cases hpseudo

/-! ### The round trip -/

/-- The segment parses to what was encoded. -/
def Parses (header : TcpHeader) (options : TcpHeaderOptions) (payload segment : Bytes) : Prop :=
  parse segment = some (segmentView header options payload)

/-- Sending the header and the payload apart gives the same bytes. -/
def ScatterAgrees (source destination : IpAddress) (header : TcpHeader)
    (options : TcpHeaderOptions) (payload segment : Bytes) : Prop :=
  ∀ output : Bytes, minHeaderLen + options.encodedLen ≤ output.length →
    ∃ n output', encodeHeadersScatter output source destination header options payload.length =
        .ok (some (n, output')) ∧
      output'.take n ++ payload = segment

/-- An encoded segment parses to what was encoded, carries a valid software checksum and
agrees with the scattered encoding exactly when the options take at most 40 bytes, the
flags fit into one byte and the checksum's sum does not wrap. -/
theorem encodeWithOptions_roundTrip_iff {output output' : Bytes} {source destination : IpAddress}
    {header : TcpHeader} {options : TcpHeaderOptions} {payload : Bytes}
    {checksum : TransportChecksum} {n : Nat} (hwindow : header.windowSize < 2 ^ 16)
    (hfits : options.Fits)
    (h : encodeWithOptions output source destination header options payload checksum =
      .ok (some (n, output'))) :
  (Parses header options payload (output'.take n) ∧
    (checksum = .software →
      tcpChecksumValid source destination (output'.take n) = .ok true) ∧
    (checksum = .deviceOffload →
      ScatterAgrees source destination header options payload (output'.take n))) ↔
  options.encodedLen ≤ 40 ∧ header.flags.bits.toNat < 256 ∧
    (checksum = .software → ¬ SumWraps source destination header options payload)
  := by
  obtain ⟨field, hfield, rfl, hlen, htake⟩ := encodeWithOptions_eq h
  rw [htake]
  have hparses : Parses header options payload (segmentBytes header options payload field) ↔
      options.encodedLen ≤ 40 ∧ header.flags.bits.toNat < 256 := by
    unfold Parses
    rcases Nat.lt_or_ge 40 options.encodedLen with hlarge | hsmall
    · rw [parse_segmentBytes_large payload field hlarge]
      simp only [reduceCtorEq, false_iff]
      omega
    · rw [parse_segmentBytes payload field hwindow hfits hsmall, ← toUInt8_toUInt16_eq]
      simp only [some.injEq, hsmall, true_and]
      constructor
      · intro heq
        exact congrArg (fun view => view.flags.bits) heq
      · intro hbits
        rw [hbits]
        rfl
  have hscatter : checksum = .deviceOffload →
      ScatterAgrees source destination header options payload
        (segmentBytes header options payload field) := by
    rintro rfl output hroom
    obtain ⟨output', hok, hbytes⟩ := encodeHeadersScatter_eq hlen hroom hfield
    exact ⟨headerLen options, output', hok, hbytes⟩
  have hvalid : (checksum = .software → tcpChecksumValid source destination
        (segmentBytes header options payload field) = .ok true) ↔
      (checksum = .software → ¬ SumWraps source destination header options payload) := by
    apply imp_congr_right
    rintro rfl
    exact tcpChecksumValid_iff hfield
  rw [hparses, hvalid, and_iff_left hscatter, and_assoc]

/-- A SYN with all its options is encoded, parses again and has a valid checksum. -/
theorem encodeWithOptions_roundTrip_syn :
  ∃ n output', encodeWithOptions (replicate 60 0) (.ipv4 ⟨#v[10, 0, 0, 1]⟩)
      (.ipv4 ⟨#v[10, 0, 0, 2]⟩) ⟨49152, 80, 7, 0, .syn, 65535⟩ (synHeaderOptions 1 none) []
        .software = .ok (some (n, output')) ∧
    Parses ⟨49152, 80, 7, 0, .syn, 65535⟩ (synHeaderOptions 1 none) [] (output'.take n) ∧
    tcpChecksumValid (.ipv4 ⟨#v[10, 0, 0, 1]⟩) (.ipv4 ⟨#v[10, 0, 0, 2]⟩) (output'.take n) = .ok true
  := by
  have hlen : headerLen (synHeaderOptions 1 none) + ([] : Bytes).length = 40 := by decide
  obtain ⟨field, hfield⟩ : ∃ field, checksumField (.ipv4 ⟨#v[10, 0, 0, 1]⟩)
      (.ipv4 ⟨#v[10, 0, 0, 2]⟩) ⟨49152, 80, 7, 0, .syn, 65535⟩ (synHeaderOptions 1 none) []
        .software = .ok field := ⟨_, rfl⟩
  have hok := (@encodeWithOptions_of_room _ _ _ _ _ (replicate 60 0) _ (by rw [hlen]; decide)
    (by rw [hlen]; decide)).trans (congrArg (Except.map _) hfield)
  have hfits : (synHeaderOptions 1 none).Fits := by
    constructor <;> decide
  obtain ⟨hparses, hvalid, -⟩ := (encodeWithOptions_roundTrip_iff (by decide) hfits hok).mpr
    ⟨by decide, by decide, fun _ => not_sumWraps (by rw [hlen]; decide)⟩
  exact ⟨_, _, hok, hparses, hvalid rfl⟩

/-- A segment of the sample peer with a timestamp and, where it has a payload, of ten
bytes. -/
def timestampedSegment (flags : TcpFlags) (sequence : SequenceNumber) (payload : Bytes)
    (h : payload.length < maxTcpPayloadBytes := by decide) : TcpPacket :=
  { bareSegment flags sequence 8 1000 with
    options := { TcpOptions.empty with
      sackPermitted := true
      timestamp := some { value := 5, echoReply := 1 } }
    payload
    payload_lt := h }

/-- A connection is established with timestamps and selective acknowledgement, and four
segments arrive with gaps before each of them. -/
def fourGapsOps : List (SocketOp RegisteredTcpReadBuffer) :=
  [.sendSyn 1, .onSegment (timestampedSegment (.union .syn .ack) 100 [] (Nat.succ_pos _)) 2,
    .onSegment (timestampedSegment .ack 111 (replicate 10 1)) 3,
    .onSegment (timestampedSegment .ack 131 (replicate 10 2)) 4,
    .onSegment (timestampedSegment .ack 151 (replicate 10 3)) 5,
    .onSegment (timestampedSegment .ack 171 (replicate 10 4)) 6, .sendAck 7]

/-- The header and the options of the last acknowledgement that a run sent. -/
def lastAcknowledgement (result : Except Panic
    (TcpSocket NewReno × List (SocketOutput RegisteredTcpReadBuffer))) :
    Option (TcpHeader × TcpHeaderOptions) :=
  match result with
  | .error _ => none
  | .ok (_, outputs) =>
    match outputs.getLast? with
    | some (.acknowledged header options _) => some (header, options)
    | _ => none

/-- The header of the acknowledgement that reports the four segments. -/
def fourGapsHeader : TcpHeader where
  sourcePort := 49152
  destinationPort := 80
  sequence := 8
  acknowledgement := 101
  flags := .ack
  windowSize := 65535

def fourGapsOptions : TcpHeaderOptions :=
  { TcpHeaderOptions.empty with
    sackBlocks := ⟨[⟨111, 121⟩, ⟨131, 141⟩, ⟨151, 161⟩, ⟨171, 181⟩], by decide⟩
    timestamp := some { value := timestampValue 7, echoReply := 5 } }

/-- The acknowledgement that reports the four segments with a timestamp is encoded into
a buffer of 64 bytes, and the result does not parse. -/
theorem four_sack_blocks_with_timestamp_unparsable :
  lastAcknowledgement (Transition.run TcpSocket.step sampleConnect fourGapsOps) =
      some (fourGapsHeader, fourGapsOptions) ∧
    ∃ n output', encodeWithOptions (replicate 64 0) (.ipv4 ⟨#v[10, 0, 0, 1]⟩)
        (.ipv4 ⟨#v[10, 0, 0, 2]⟩) fourGapsHeader fourGapsOptions [] .software =
          .ok (some (n, output')) ∧
      parse (output'.take n) = none
  := by
  constructor
  · decide +kernel
  have hlen : headerLen fourGapsOptions + ([] : Bytes).length = 64 := by decide
  obtain ⟨field, hfield⟩ : ∃ field, checksumField (.ipv4 ⟨#v[10, 0, 0, 1]⟩)
      (.ipv4 ⟨#v[10, 0, 0, 2]⟩) fourGapsHeader fourGapsOptions [] .software = .ok field := ⟨_, rfl⟩
  have hok := (@encodeWithOptions_of_room _ _ _ _ _ (replicate 64 0) _ (by rw [hlen]; decide)
    (by rw [hlen]; decide)).trans (congrArg (Except.map _) hfield)
  obtain ⟨field', -, -, -, htake⟩ := encodeWithOptions_eq hok
  refine ⟨_, _, hok, ?_⟩
  rw [htake]
  exact parse_segmentBytes_large [] field' (by decide)

end TcpPacket
end Helios
