import Helios.Netstack.CodecRoundTrip

/-!
# The vector checksum

Long inputs are added by a vector unit, sixteen bytes at a time: eight words to eight lanes or,
on NEON, the sums of neighbouring words to four lanes of two accumulators in turn.  On what a
packet can hold nothing overflows, so that the sum is that of the scalar loop, whichever of them
ran.
-/

namespace Helios

open Checksum List Nat Option

variable {bytes : Bytes} {lanes words : List Nat} {sum blocks width count : Nat}
  {vectorOf : Bytes → List Nat}

/-- A sum in a 32-bit register, or nothing if it overflows. -/
def fitU32 (sum : Nat) : Option Nat :=
  if sum < 2 ^ 32 then some sum else none

def addVector (lanes words : List Nat) : Option (List Nat) :=
  (zipWith (· + ·) lanes words).mapM fitU32

/-- The loop over the blocks of some width, and the bytes after them. -/
def addBlocks (width : Nat) (vectorOf : Bytes → List Nat) :
    Nat → List Nat → Bytes → Option (List Nat × Bytes)
  | 0, lanes, bytes => some (lanes, bytes)
  | blocks + 1, lanes, bytes => do
    let lanes ← addVector lanes (vectorOf (bytes.take width))
    addBlocks width vectorOf blocks lanes (bytes.drop width)

/-- The scalar loop over the bytes after the last block. -/
def addTail (sum : Nat) : Bytes → Option Nat
  | [] => some sum
  | [last] => fitU32 (sum + last.toNat * 256)
  | high :: low :: rest => do
    let sum ← fitU32 (sum + (high.toNat * 256 + low.toNat))
    addTail sum rest

/-- The bytes of a vector at some indices, zero at those outside of it. -/
def shuffle (vector : Bytes) (indices : List Nat) : Bytes :=
  indices.map fun index => vector.getD index 0

def highByteIndices : List Nat :=
  [0, 2, 4, 6, 8, 10, 12, 14] ++ replicate 8 0x80

def lowByteIndices : List Nat :=
  [1, 3, 5, 7, 9, 11, 13, 15] ++ replicate 8 0x80

def wideWords (vector : Bytes) : List Nat :=
  zipWith (fun high low => high.toNat <<< 8 ||| low.toNat)
    ((shuffle vector highByteIndices).take 8) ((shuffle vector lowByteIndices).take 8)

def sumWordsWideLanes (bytes : Bytes) : Option Nat := do
  let (lanes, rest) ← addBlocks 16 wideWords (bytes.length / 16) (replicate 8 0) bytes
  let sum ← fitU32 lanes.sum
  addTail sum rest

def rev16 : Bytes → Bytes
  | first :: second :: rest => second :: first :: rev16 rest
  | rest => rest

/-- A vector as words, the low byte of each first. -/
def reinterpret : Bytes → List Nat
  | low :: high :: rest => (low.toNat + high.toNat * 256) :: reinterpret rest
  | _ => []

def addPairs : List Nat → List Nat
  | first :: second :: rest => (first + second) :: addPairs rest
  | _ => []

def neonPairs (vector : Bytes) : List Nat :=
  addPairs (reinterpret (rev16 vector))

/-- The first four lanes are those of the first accumulator. -/
def sumWordsNeon (bytes : Bytes) : Option Nat := do
  let (lanes, rest) ← addBlocks 32 (fun both => neonPairs (both.take 16) ++ neonPairs (both.drop 16))
    (bytes.length / 32) (replicate 8 0) bytes
  let (first, rest) ← addBlocks 16 neonPairs (rest.length / 16) (lanes.take 4) rest
  let first ← fitU32 first.sum
  let second ← fitU32 (lanes.drop 4).sum
  let sum ← fitU32 (first + second)
  addTail sum rest

/-! ### Vectors -/

/-- A block is read into so many lanes, which have its sum. -/
def ReadsInto (width count : Nat) (vectorOf : Bytes → List Nat) : Prop :=
  ∀ vector, vector.length = width →
    (vectorOf vector).length = count ∧ (vectorOf vector).sum = wordSum vector

theorem reads_wide : ReadsInto 16 8 wideWords := by
  intro vector h
  have hword : ∀ high low : UInt8, high.toNat <<< 8 ||| low.toNat = high.toNat * 256 + low.toNat := by
    intro high low
    rw [← shiftLeft_add_eq_or_of_lt low.toNat_lt, shiftLeft_eq]
  match vector, h with
  | [_, _, _, _, _, _, _, _, _, _, _, _, _, _, _, _], _ =>
    simp only [wideWords, hword]
    exact ⟨rfl, rfl⟩

theorem reads_neon : ReadsInto 16 4 neonPairs := by
  intro vector h
  match vector, h with
  | [_, _, _, _, _, _, _, _, _, _, _, _, _, _, _, _], _ =>
    refine ⟨rfl, ?_⟩
    simp only [neonPairs, rev16, reinterpret, addPairs, wordSum, sum_cons, sum_nil]
    omega

theorem reads_both :
  ReadsInto 32 8 fun both => neonPairs (both.take 16) ++ neonPairs (both.drop 16)
  := by
  intro both h
  have htake : (both.take 16).length = 16 := length_take_of_le (by omega)
  obtain ⟨hcount, hsum⟩ := reads_neon _ htake
  obtain ⟨hcount', hsum'⟩ := reads_neon (both.drop 16) (by rw [length_drop, h])
  have hsplit := @wordSum_append (both.take 16) (both.drop 16) (by rw [htake])
  rw [take_append_drop] at hsplit
  rw [length_append, List.sum_append, hcount, hcount', hsum, hsum', hsplit]
  exact ⟨rfl, rfl⟩

/-! ### Sums that fit -/

theorem fitU32_of_lt (h : sum < 2 ^ 32) :
  fitU32 sum = some sum
  := if_pos h

theorem addTail_eq (h : sum + wordSum bytes < 2 ^ 32) :
  addTail sum bytes = some (sum + wordSum bytes)
  := by
  induction bytes using wordSum.induct generalizing sum with
  | case1 => rfl
  | case2 last => exact fitU32_of_lt h
  | case3 high low rest ih =>
    rw [wordSum, ← add_assoc] at h ⊢
    rw [addTail, fitU32_of_lt (by omega)]
    exact ih h

theorem addVector_eq (hlength : lanes.length = words.length)
    (h : lanes.sum + words.sum < 2 ^ 32) :
  ∃ sums, addVector lanes words = some sums ∧ sums.length = lanes.length ∧
    sums.sum = lanes.sum + words.sum
  := by
  induction lanes generalizing words with
  | nil =>
    rw [length_eq_zero_iff.mp hlength.symm]
    exact ⟨[], rfl, rfl, rfl⟩
  | cons lane lanes ih =>
    rcases words with _ | ⟨word, words⟩
    · cases hlength
    · rw [sum_cons, sum_cons] at h
      obtain ⟨sums, hsums, hcount, hsum⟩ := ih (succ.inj hlength) (by omega)
      refine ⟨(lane + word) :: sums, ?_, congrArg (· + 1) hcount, ?_⟩
      · rw [addVector] at hsums
        rw [addVector, zipWith_cons_cons, mapM_cons, fitU32_of_lt (by omega), hsums]
        rfl
      · simp only [sum_cons]
        omega

/-- What a block adds to the lanes is the sum of its words. -/
theorem addBlocks_eq (hreads : ReadsInto width count vectorOf) (hwidth : width % 2 = 0)
    (hlanes : lanes.length = count) (hbytes : blocks * width ≤ bytes.length)
    (h : lanes.sum + wordSum bytes < 2 ^ 32) :
  ∃ sums rest, addBlocks width vectorOf blocks lanes bytes = some (sums, rest) ∧
    sums.length = count ∧ sums.sum + wordSum rest = lanes.sum + wordSum bytes
  := by
  induction blocks generalizing lanes bytes with
  | zero => exact ⟨lanes, bytes, rfl, hlanes, rfl⟩
  | succ blocks ih =>
    rw [succ_mul] at hbytes
    have htake : (bytes.take width).length = width := length_take_of_le (by omega)
    have hsplit := @wordSum_append (bytes.take width) (bytes.drop width) (by rw [htake, hwidth])
    rw [take_append_drop] at hsplit
    obtain ⟨hcount, hsum⟩ := hreads _ htake
    obtain ⟨sums, heq, hlength, htotal⟩ := addVector_eq (hlanes.trans hcount.symm) (by omega)
    have hdrop : blocks * width ≤ (bytes.drop width).length := by
      rw [length_drop]
      omega
    obtain ⟨sums', rest, hrest, hcount', htotal'⟩ := ih (hlength.trans hlanes) hdrop (by omega)
    refine ⟨sums', rest, ?_, hcount', by omega⟩
    rw [addBlocks, heq]
    exact hrest

/-- No lane and no total overflows, and both vector paths return what the scalar loop does, as
does the sum that every checksum is finished from. -/
theorem vector_sums_exact (h : bytes.length ≤ 65575) :
  sumWordsWideLanes bytes = some (sumWordsScalar bytes) ∧
    sumWordsNeon bytes = some (sumWordsScalar bytes) ∧ sumWords bytes = sumWordsScalar bytes
  := by
  have hle := wordSum_le bytes
  have hscalar := addWords_eq 0 bytes
  rw [zero_mod, zero_add] at hscalar
  have hfits := mod_eq_of_lt (show wordSum bytes < 2 ^ 32 by omega)
  rw [sumWords_eq, sumWordsScalar, hscalar, hfits]
  have hlanes : (replicate 8 0).length = 8 := rfl
  have hzero : (replicate 8 0).sum + wordSum bytes = wordSum bytes := zero_add _
  refine ⟨?_, ?_, rfl⟩
  · obtain ⟨lanes, rest, heq, _, hsum⟩ := addBlocks_eq reads_wide rfl hlanes
      (div_mul_le_self bytes.length 16) (by omega)
    simp only [sumWordsWideLanes, heq, bind_eq_bind, bind_some]
    rw [fitU32_of_lt (by omega), bind_some, addTail_eq (by omega), hsum, hzero]
  · obtain ⟨lanes, rest, heq, hcount, hsum⟩ := addBlocks_eq reads_both rfl hlanes
      (div_mul_le_self bytes.length 32) (by omega)
    have hhalves : (lanes.take 4).sum + (lanes.drop 4).sum = lanes.sum := by
      rw [← List.sum_append, take_append_drop]
    have hfirst : (lanes.take 4).length = 4 := length_take_of_le (by omega)
    obtain ⟨first, last, hblocks, _, htotal⟩ := addBlocks_eq reads_neon rfl hfirst
      (div_mul_le_self rest.length 16) (by omega)
    simp only [sumWordsNeon, heq, hblocks, bind_eq_bind, bind_some]
    rw [fitU32_of_lt (by omega), bind_some, fitU32_of_lt (by omega), bind_some,
      fitU32_of_lt (by omega), bind_some, addTail_eq (by omega)]
    congr 1
    omega

theorem vector_sums_exact_ones :
  sumWordsWideLanes (replicate 115 255) = some (sumWordsScalar (replicate 115 255)) ∧
    sumWordsNeon (replicate 115 255) = some (sumWordsScalar (replicate 115 255)) ∧
      sumWords (replicate 115 255) = sumWordsScalar (replicate 115 255)
  := vector_sums_exact (by decide)

end Helios
