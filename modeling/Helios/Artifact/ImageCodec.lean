import Helios.Artifact.Bootfs
import Helios.Library.Layout
import Mathlib.Data.List.GetD
import Mathlib.Data.List.Induction

/-!
# Boot images that parse

An image that parses is laid out in order, and its entries lie in their sections and keep the
rules of a boot file system; an image that is written from entries that keep the rules parses,
and yields them.
-/

namespace Helios.Artifact

open Layout LittleEndian List Nat

/-! ### Outcomes -/

section

variable {α β : Type} {outcome : Except Fault α} {next : α → Except Fault β} {value : α}
  {mid post : α → Prop} {last : β → Prop} {condition : Prop} [Decidable condition]
  {error : BootfsError} {bytes part : Bytes} {start len offset n : Nat}

/-- There is no panic, and what is returned meets the condition. -/
def Returns (outcome : Except Fault α) (post : α → Prop) : Prop :=
  outcome ≠ .error .panicked ∧ ∀ value, outcome = .ok value → post value

theorem Returns.bind (h : Returns outcome mid)
    (hnext : ∀ value, outcome = .ok value → mid value → Returns (next value) last) :
  Returns (outcome >>= next) last
  := by
  cases outcome with
  | error fault =>
    constructor
    · rintro ⟨⟩
      exact h.1 rfl
    · nofun
  | ok value => exact hnext value rfl (h.2 value rfl)

theorem returns_ok (h : post value) :
  Returns (.ok value) post
  := by
  constructor
  · nofun
  · rintro _ ⟨⟩
    exact h

theorem Returns.check {next : Unit → Except Fault β}
    (hnext : condition → Returns (next ()) last) :
  Returns (Artifact.check condition error >>= next) last
  := by
  rw [Artifact.check]
  split
  · exact hnext ‹_›
  · exact ⟨nofun, nofun⟩

theorem returns_okOr {found : Option α} :
  Returns (okOr found error) fun value => found = some value
  := by
  cases found with
  | none => exact ⟨nofun, nofun⟩
  | some value => exact returns_ok rfl

theorem returns_slice (h : start + len ≤ bytes.length) :
  Returns (slice bytes start len) fun part => At bytes start part ∧ part.length = len
  := by
  rw [slice, if_pos h]
  apply returns_ok
  constructor
  · exact at_take_drop h
  · rw [length_take, length_drop]
    omega

theorem slice_of_at (h : At bytes start part) :
  slice bytes start part.length = .ok part
  := by
  rw [slice, if_pos h.le, h.take_drop]

theorem Returns.read {next : Nat → Except Fault β} (h : offset + len ≤ bytes.length)
    (hnext : ∀ n, Returns (next n) last) :
  Returns (readLe len bytes offset >>= next) last
  := by
  rw [readLe, slice, if_pos h]
  exact hnext _

theorem readLe_of_at (h : At bytes offset (encode len n)) (hlt : n < 256 ^ len) :
  readLe len bytes offset = .ok n
  := by
  have hslice := slice_of_at h
  rw [length_encode] at hslice
  rw [readLe, hslice, Except.map, decode_encode hlt]

theorem bind_ok {result : Except Fault β} (h : outcome = .ok value) (hnext : next value = result) :
  (outcome >>= next) = result
  := by
  rw [h]
  exact hnext

theorem check_ok (h : condition) :
  check condition error = .ok ()
  := if_pos h

end

/-! ### What parses -/

/-- The part of the image holds the bytes. -/
def Range.Holds (whole : Bytes) (range : Range) (bytes : Bytes) : Prop :=
  ∃ offset, range.start ≤ offset ∧ offset + bytes.length ≤ range.stop ∧ At whole offset bytes

structure Image.InOrder (image : Image) : Prop where
  entryTable : headerBytes + image.entryCount * entryBytes ≤ image.stringTable.start
  stringTable : image.stringTable.start ≤ image.stringTable.stop
  between : image.stringTable.stop ≤ image.data.start
  data : image.data.start ≤ image.data.stop
  stop : image.data.stop ≤ image.bytes.length

/-- The entry lies in its sections, and has data only if it may. -/
structure Image.Carries (image : Image) (entry : ImageEntry) : Prop where
  path : image.stringTable.Holds image.bytes (pathBytes entry.path)
  data : image.data.Holds image.bytes entry.data
  bare : entry.kind = .directory ∨ entry.kind = .initArgv0 → entry.data = []

def bootfsPaths (entries : List ImageEntry) : List String :=
  (entries.filter fun entry => entry.kind = .directory ∨ entry.kind = .file).map (·.path)

def kindCount (kind : EntryKind) (entries : List ImageEntry) : Nat :=
  entries.countP (·.kind = kind)

structure WellFormed (entries : List ImageEntry) : Prop where
  distinct : (bootfsPaths entries).Nodup
  initComponent : kindCount .initComponent entries = 1
  initArgv0 : kindCount .initArgv0 entries = 1
  bare : ∀ entry ∈ entries, entry.kind = .directory ∨ entry.kind = .initArgv0 → entry.data = []

variable {bytes : Bytes}

theorem pathBytes_of_fromUTF8 {path : String} (h : String.fromUTF8? ⟨bytes.toArray⟩ = some path) :
  pathBytes path = bytes
  := by
  rw [String.fromUTF8?] at h
  split at h <;> cases h
  rfl

theorem fromUTF8_pathBytes (path : String) :
  String.fromUTF8? ⟨(pathBytes path).toArray⟩ = some path
  := by
  have hvalid : ByteArray.IsValidUTF8 ⟨(pathBytes path).toArray⟩ := path.isValidUTF8
  rw [String.fromUTF8?, dif_pos hvalid]
  rfl

variable {offset : Nat} {part : Section} {isData : Bool}

namespace Image

variable {image : Image} {index : Nat}

theorem returns_sliceIn {part : Range} {len : Nat} (hpart : part.start ≤ part.stop)
    (hstop : part.stop ≤ image.bytes.length) :
  Returns (image.sliceIn part offset len index isData) fun found => part.Holds image.bytes found
  := by
  apply Returns.check
  intro _
  apply Returns.check
  intro hfits
  obtain ⟨hcalm, hslice⟩ := @returns_slice image.bytes (part.start + offset) len (by omega)
  refine ⟨hcalm, fun found hfound => ?_⟩
  obtain ⟨hat, rfl⟩ := hslice found hfound
  exact ⟨part.start + offset, by omega, by omega, hat⟩

theorem InOrder.returns_entry (h : image.InOrder) (hindex : index < image.entryCount) :
  Returns (image.entry index) image.Carries
  := by
  have hend : headerBytes + index * entryBytes + 48 ≤ image.bytes.length := by
    have := h.entryTable
    have := h.stringTable
    have := h.between
    have := h.data
    have := h.stop
    simp only [entryBytes] at *
    omega
  apply Returns.read (by omega)
  intro wire
  apply returns_okOr.bind
  intro kind _ _
  apply Returns.read (by omega)
  intro reserved
  apply Returns.check
  intro _
  apply Returns.read (by omega)
  intro pathOffset
  apply Returns.read (by omega)
  intro pathLen
  apply Returns.read (by omega)
  intro dataOffset
  apply Returns.read (by omega)
  intro dataLen
  apply Returns.read (by omega)
  intro modifiedNanos
  apply Returns.check
  intro _
  apply Returns.check
  intro _
  apply (returns_sliceIn h.stringTable (h.between.trans (h.data.trans h.stop))).bind
  intro found _ hpath
  apply returns_okOr.bind
  intro path _ hutf8
  apply (returns_sliceIn h.data h.stop).bind
  intro data _ hdata
  apply Returns.check
  intro hbare
  apply returns_ok
  constructor
  · rw [pathBytes_of_fromUTF8 hutf8]
    exact hpath
  · exact hdata
  · intro hkind
    rcases hbare with hempty | ⟨hdirectory, hargv0⟩
    · exact hempty
    · exact (hkind.elim hdirectory hargv0).elim

/-- The loop over the entries has seen these, too. -/
def Scan.tally (seen : Scan) (entries : List ImageEntry) : Scan where
  initComponents := seen.initComponents + kindCount .initComponent entries
  initArgv0s := seen.initArgv0s + kindCount .initArgv0 entries
  bootfsPaths := (Artifact.bootfsPaths entries).reverse ++ seen.bootfsPaths

theorem Scan.tally_cons (seen : Scan) (entry : ImageEntry) (entries : List ImageEntry) :
  (seen.tally [entry]).tally entries = seen.tally (entry :: entries)
  := by
  obtain ⟨kind, path, data, modifiedNanos⟩ := entry
  cases kind <;> simp [tally, kindCount, Artifact.bootfsPaths, add_assoc, add_comm]

theorem InOrder.returns_scan (h : image.InOrder) (hindex : index < image.entryCount)
    {seen : Scan} (hnodup : seen.bootfsPaths.Nodup) :
  Returns (image.scan seen index) fun seen' => ∃ entry, image.entry index = .ok entry
    ∧ image.Carries entry ∧ seen' = seen.tally [entry] ∧ seen'.bootfsPaths.Nodup
  := by
  apply (h.returns_entry hindex).bind
  rintro ⟨kind, path, data, modifiedNanos⟩ hentry hcarries
  cases kind with
  | initComponent | initArgv0 => exact returns_ok ⟨_, hentry, hcarries, rfl, hnodup⟩
  | directory | file =>
    apply Returns.check
    intro hnew
    exact returns_ok ⟨_, hentry, hcarries, rfl, nodup_cons.mpr ⟨hnew, hnodup⟩⟩

theorem InOrder.returns_foldlM (h : image.InOrder) {indices : List Nat}
    (hindices : ∀ index ∈ indices, index < image.entryCount) {seen : Scan}
    (hnodup : seen.bootfsPaths.Nodup) :
  Returns (indices.foldlM image.scan seen) fun seen' => ∃ entries,
    (indices.mapM fun index => (image.entry index).mapError fun _ => Fault.panicked) = .ok entries
    ∧ entries.length = indices.length ∧ (∀ entry ∈ entries, image.Carries entry)
    ∧ seen' = seen.tally entries ∧ seen'.bootfsPaths.Nodup
  := by
  induction indices generalizing seen with
  | nil => exact returns_ok ⟨[], rfl, rfl, nofun, rfl, hnodup⟩
  | cons index indices ih =>
    rw [forall_mem_cons] at hindices
    apply (h.returns_scan hindices.1 hnodup).bind
    rintro _ _ ⟨entry, hentry, hcarries, rfl, hnodup⟩
    obtain ⟨hcalm, hrest⟩ := ih hindices.2 hnodup
    use hcalm
    intro seen' hseen
    obtain ⟨entries, hentries, hlength, hall, rfl, hnodup⟩ := hrest seen' hseen
    refine ⟨entry :: entries, ?_, ?_, ?_, seen.tally_cons entry entries, hnodup⟩
    · rw [mapM_cons, hentry, hentries]
      rfl
    · rw [length_cons, length_cons, hlength]
    · exact forall_mem_cons.mpr ⟨hcarries, hall⟩

theorem returns_checkedSection {len imageLen : Nat} :
  Returns (checkedSection offset len imageLen part) fun range =>
    range.start ≤ range.stop ∧ range.stop ≤ imageLen
  := by
  apply Returns.check
  intro _
  apply Returns.check
  intro _
  apply Returns.check
  intro hle
  exact returns_ok ⟨le_add_right _ _, hle⟩

theorem returns_parse (bytes : Bytes) :
  Returns (parse bytes) fun image => image.bytes = bytes ∧ image.InOrder ∧ ∃ entries,
    image.entries = .ok entries ∧ entries.length = image.entryCount
    ∧ (∀ entry ∈ entries, image.Carries entry) ∧ WellFormed entries
  := by
  apply Returns.check
  intro hheader
  rw [headerBytes] at hheader
  apply (returns_slice (by omega)).bind
  intro found _ _
  apply Returns.check
  intro _
  apply Returns.read (by omega)
  intro version
  apply Returns.check
  intro _
  apply Returns.read (by omega)
  intro entryCount
  apply Returns.read (by omega)
  intro stringTableOffset
  apply Returns.read (by omega)
  intro stringTableLen
  apply Returns.read (by omega)
  intro dataOffset
  apply Returns.read (by omega)
  intro dataLen
  apply Returns.check
  intro _
  apply Returns.check
  intro _
  apply returns_checkedSection.bind
  intro stringTable _ hstringTable
  apply returns_checkedSection.bind
  intro data _ hdata
  apply Returns.check
  intro hentries
  apply Returns.check
  intro hbetween
  have horder : InOrder ⟨bytes, entryCount, stringTable, data⟩ :=
    ⟨hentries, hstringTable.1, hbetween, hdata.1, hdata.2⟩
  apply (horder.returns_foldlM (fun _ => mem_range.mp) nodup_nil).bind
  rintro _ _ ⟨entries, hread, hlength, hall, rfl, hnodup⟩
  apply Returns.check
  intro hcomponent
  apply Returns.check
  intro hargv0
  apply returns_ok
  refine ⟨rfl, horder, entries, hread, ?_, hall, ?_⟩
  · rw [hlength, length_range]
  · rw [Scan.tally, append_nil, nodup_reverse] at hnodup
    simp only [Scan.tally, zero_add] at hcomponent hargv0
    exact ⟨hnodup, hcomponent, hargv0, fun entry hmem => (hall entry hmem).bare⟩

end Image

/-! ### What is written -/

theorem le_align (offset : Nat) :
  offset ≤ align offset
  := by
  rw [align, sectionAlign]
  omega

theorem align_of_dvd (h : offset % sectionAlign = 0) :
  align offset = offset
  := by
  rw [sectionAlign] at h
  rw [align, sectionAlign]
  omega

theorem length_padTo (bytes : Bytes) :
  (padTo bytes).length = align bytes.length
  := by
  rw [padTo, length_append, length_replicate, Nat.add_sub_cancel' (le_align _)]

theorem padTo_of_dvd (h : bytes.length % sectionAlign = 0) :
  padTo bytes = bytes
  := by
  rw [padTo, align_of_dvd h, Nat.sub_self, replicate_zero, append_nil]

theorem layOut_at (parts : List Bytes) :
  (layOut parts).1.length % sectionAlign = 0 ∧ (layOut parts).2.length = parts.length
  ∧ ∀ index part, parts[index]? = some part → (layOut parts).2.getD index 0 % sectionAlign = 0
    ∧ At (layOut parts).1 ((layOut parts).2.getD index 0) part
  := by
  induction parts using List.reverseRecOn with
  | nil => exact ⟨rfl, rfl, nofun⟩
  | append_singleton parts last ih =>
    obtain ⟨haligned, hlength, hparts⟩ := ih
    have hlast : layOut (parts ++ [last]) =
        (padTo ((layOut parts).1 ++ last), (layOut parts).2 ++ [(layOut parts).1.length]) := by
      rw [layOut, foldl_append]
      rfl
    rw [hlast]
    refine ⟨?_, ?_, ?_⟩
    · rw [length_padTo]
      exact mul_mod_left _ _
    · rw [length_append, length_append, hlength]
      rfl
    · intro index part hpart
      rw [padTo, append_assoc]
      rw [getElem?_append, getElem?_singleton] at hpart
      split_ifs at hpart with hlt hzero
      · rw [getD_append _ _ _ _ (hlength ▸ hlt)]
        exact ⟨(hparts index part hpart).1, (hparts index part hpart).2.append_right _⟩
      · cases hpart
        rw [getD_append_right _ _ _ _ (by omega), hlength, hzero]
        exact ⟨haligned, _, _, rfl, rfl⟩

section

variable (entries : List ImageEntry)

/-- The strings of the entries, laid out. -/
def strings : Bytes × List Nat :=
  layOut (entries.map fun entry => pathBytes entry.path)

/-- The data of the entries, laid out. -/
def blobs : Bytes × List Nat :=
  layOut (entries.map (·.data))

theorem length_entryTable (pathOffsets dataOffsets : List Nat) :
  (∀ record ∈ entryTable entries pathOffsets dataOffsets, record.length = 48)
  ∧ (entryTable entries pathOffsets dataOffsets).flatten.length = entries.length * 48
  := by
  have hrecord : ∀ record ∈ entryTable entries pathOffsets dataOffsets, record.length = 48 := by
    intro record hmem
    obtain ⟨index, _, rfl⟩ := mem_mapIdx.mp hmem
    simp [entryRecord]
  use hrecord
  rw [length_flatten, map_congr_left hrecord]
  simp [entryTable]

/-- The image that parsing is to yield. -/
def written : Image where
  bytes := writeImage entries
  entryCount := entries.length
  stringTable := ⟨48 + entries.length * 48, 48 + entries.length * 48 + (strings entries).1.length⟩
  data := ⟨48 + entries.length * 48 + (strings entries).1.length,
    48 + entries.length * 48 + (strings entries).1.length + (blobs entries).1.length⟩

theorem length_imageHeader (a b c d e : Nat) :
  (imageHeader a b c d e).length = 48
  := by
  simp [imageHeader, imageMagic, ascii]

theorem writeImage_eq :
  writeImage entries = imageHeader entries.length (written entries).stringTable.start
      (strings entries).1.length (written entries).data.start (blobs entries).1.length
    ++ ((entryTable entries (strings entries).2 (blobs entries).2).flatten
      ++ ((strings entries).1 ++ (blobs entries).1))
  := by
  have hstrings : (strings entries).1.length % 16 = 0 := (layOut_at _).1
  have htable : align (headerBytes + entries.length * entryBytes) = 48 + entries.length * 48 := by
    apply align_of_dvd
    rw [sectionAlign, headerBytes, entryBytes]
    omega
  have hdata : align (48 + entries.length * 48 + (strings entries).1.length) =
      (written entries).data.start := by
    apply align_of_dvd
    rw [sectionAlign]
    omega
  simp only [writeImage, ← strings.eq_1, htable, hdata]
  rw [padTo_of_dvd]
  · simp only [append_assoc]
    rfl
  · rw [length_append, length_imageHeader, (length_entryTable _ _ _).2, sectionAlign]
    omega

variable {entries} {entry : ImageEntry} {index : Nat} {image : Image}

theorem written_sections :
  At (writeImage entries) 0 (imageHeader entries.length (written entries).stringTable.start
    (strings entries).1.length (written entries).data.start (blobs entries).1.length)
  ∧ At (writeImage entries) 48 (entryTable entries (strings entries).2 (blobs entries).2).flatten
  ∧ At (writeImage entries) (written entries).stringTable.start (strings entries).1
  ∧ At (writeImage entries) (written entries).data.start (blobs entries).1
  := by
  have hwhole : At (writeImage entries) 0 (writeImage entries) := ⟨[], [], by simp, rfl⟩
  nth_rewrite 2 [writeImage_eq] at hwhole
  obtain ⟨hheader, hrest⟩ := hwhole.append
  obtain ⟨htable, hrest⟩ := hrest.append
  rw [(length_entryTable _ _ _).2] at hrest
  obtain ⟨hstrings, hdata⟩ := hrest.append
  exact ⟨hheader, htable, hstrings, hdata⟩

theorem checkedSection_ok {len imageLen : Nat} (haligned : offset % sectionAlign = 0)
    (hle : offset + len ≤ imageLen) (hlt : imageLen < 2 ^ 64) :
  checkedSection offset len imageLen part = .ok ⟨offset, offset + len⟩
  := by
  apply bind_ok (check_ok haligned)
  apply bind_ok (check_ok (by omega))
  exact bind_ok (check_ok hle) rfl

theorem toWire_lt (kind : EntryKind) :
  kind.toWire < 2 ^ 32 ∧ EntryKind.fromWire kind.toWire = some kind
  := by
  cases kind <;> exact ⟨by decide, rfl⟩

theorem sliceIn_of_at {part : Range} {table : Bytes} (htable : At image.bytes part.start table)
    (hstop : part.stop = part.start + table.length) (hlt : image.bytes.length < 2 ^ 64)
    (h : At table offset bytes) :
  image.sliceIn part offset bytes.length index isData = .ok bytes
  := by
  have hle := htable.le
  have hinner := h.le
  apply bind_ok (check_ok (by omega))
  apply bind_ok (check_ok (by omega))
  exact slice_of_at (htable.trans h)

theorem entry_written (hlt : (writeImage entries).length < 2 ^ 64)
    (hentry : entries[index]? = some entry)
    (hbare : entry.kind = .directory ∨ entry.kind = .initArgv0 → entry.data = []) :
  (written entries).entry index = .ok entry
  := by
  obtain ⟨_, htable, hstrings, hdata⟩ := @written_sections entries
  have hpath : _ ∧ At (strings entries).1 ((strings entries).2.getD index 0)
      (pathBytes entry.path) := (layOut_at _).2.2 index _ (by simp [hentry])
  have hblob : _ ∧ At (blobs entries).1 ((blobs entries).2.getD index 0) entry.data :=
    (layOut_at _).2.2 index _ (by simp [hentry])
  have hrecord : At (writeImage entries) (48 + index * 48)
      (entryRecord entry ((strings entries).2.getD index 0) ((blobs entries).2.getD index 0)) := by
    apply htable.flatten (length_entryTable entries _ _).1
    simp [entryTable, hentry]
  have hpathLe := (hstrings.trans hpath.2).le
  have hdataLe := (hdata.trans hblob.2).le
  rw [entryRecord] at hrecord
  obtain ⟨hrecord, hnanos⟩ := hrecord.append
  obtain ⟨hrecord, hdataLen⟩ := hrecord.append
  obtain ⟨hrecord, hdataOffset⟩ := hrecord.append
  obtain ⟨hrecord, hpathLen⟩ := hrecord.append
  obtain ⟨hrecord, hpathOffset⟩ := hrecord.append
  obtain ⟨hkind, hreserved⟩ := hrecord.append
  apply bind_ok (readLe_of_at hkind (toWire_lt _).1)
  rw [(toWire_lt _).2]
  apply bind_ok rfl
  apply bind_ok (readLe_of_at hreserved (by decide))
  apply bind_ok (check_ok rfl)
  apply bind_ok (readLe_of_at hpathOffset (by omega))
  apply bind_ok (readLe_of_at hpathLen (by omega))
  apply bind_ok (readLe_of_at hdataOffset (by omega))
  apply bind_ok (readLe_of_at hdataLen (by omega))
  apply bind_ok (readLe_of_at hnanos entry.modifiedNanos.toNat_lt)
  apply bind_ok (check_ok hpath.1)
  apply bind_ok (check_ok hblob.1)
  apply bind_ok (sliceIn_of_at hstrings rfl hlt hpath.2)
  rw [fromUTF8_pathBytes]
  apply bind_ok rfl
  apply bind_ok (sliceIn_of_at hdata rfl hlt hblob.2)
  apply bind_ok (check_ok _)
  · rw [UInt64.ofNat_toNat]
  · by_cases hkind : entry.kind = .directory ∨ entry.kind = .initArgv0
    · exact Or.inl (hbare hkind)
    · exact Or.inr (not_or.mp hkind)

theorem scan_written {seen : Image.Scan} (hentry : image.entry index = .ok entry)
    (hnodup : (seen.tally [entry]).bootfsPaths.Nodup) :
  image.scan seen index = .ok (seen.tally [entry])
  := by
  apply bind_ok hentry
  obtain ⟨kind, path, data, modifiedNanos⟩ := entry
  cases kind with
  | initComponent | initArgv0 => rfl
  | directory | file => exact bind_ok (check_ok (nodup_cons.mp hnodup).1) rfl

theorem foldlM_written {rest : List ImageEntry} {first : Nat} {seen : Image.Scan}
    (hentries : ∀ index entry, rest[index]? = some entry → image.entry (first + index) = .ok entry)
    (hnodup : (seen.tally rest).bootfsPaths.Nodup) :
  (range' first rest.length).foldlM image.scan seen = .ok (seen.tally rest)
  ∧ ((range' first rest.length).mapM fun index =>
      (image.entry index).mapError fun _ => Fault.panicked) = .ok rest
  := by
  induction rest generalizing first seen with
  | nil => exact ⟨rfl, rfl⟩
  | cons entry rest ih =>
    have hentry := hentries 0 entry rfl
    rw [← Image.Scan.tally_cons] at hnodup ⊢
    have hrest := @ih (first + 1) (seen.tally [entry]) (by
      intro index entry hentry
      rw [add_assoc, add_comm 1]
      exact hentries (index + 1) entry hentry) hnodup
    rw [length_cons, range'_succ, mapM_cons, hrest.2]
    constructor
    · exact bind_ok (scan_written hentry hnodup.of_append_right) hrest.1
    · rw [add_zero] at hentry
      rw [hentry]
      rfl

theorem parse_written (h : WellFormed entries) (hcount : entries.length < 2 ^ 32)
    (hlt : (writeImage entries).length < 2 ^ 64) :
  Image.parse (writeImage entries) = .ok (written entries)
  ∧ (written entries).entries = .ok entries
  := by
  have hread := @foldlM_written (written entries) entries 0 ⟨0, 0, []⟩ (by
    intro index entry hentry
    rw [zero_add]
    exact entry_written hlt hentry (h.bare entry (mem_of_getElem? hentry))) (by
    rw [Image.Scan.tally, append_nil, nodup_reverse]
    exact h.distinct)
  rw [← range_eq_range'] at hread
  refine ⟨?_, hread.2⟩
  obtain ⟨hheader, htable, hstrings, hdata⟩ := @written_sections entries
  have htableLe := htable.le
  have hstringsLe := hstrings.le
  have hdataLe := hdata.le
  rw [(length_entryTable _ _ _).2] at htableLe
  obtain ⟨hheader, hdataLen⟩ := hheader.append
  obtain ⟨hheader, hdataOffset⟩ := hheader.append
  obtain ⟨hheader, hstringTableLen⟩ := hheader.append
  obtain ⟨hheader, hstringTableOffset⟩ := hheader.append
  obtain ⟨hheader, hentryCount⟩ := hheader.append
  obtain ⟨hmagic, hversion⟩ := hheader.append
  apply bind_ok (check_ok (by rw [headerBytes]; omega))
  apply bind_ok (slice_of_at hmagic)
  apply bind_ok (check_ok rfl)
  apply bind_ok (readLe_of_at hversion (by decide))
  apply bind_ok (check_ok rfl)
  apply bind_ok (readLe_of_at hentryCount hcount)
  apply bind_ok (readLe_of_at hstringTableOffset (by omega))
  apply bind_ok (readLe_of_at hstringTableLen (by omega))
  apply bind_ok (readLe_of_at hdataOffset (by omega))
  apply bind_ok (readLe_of_at hdataLen (by omega))
  have hend : headerBytes + entries.length * entryBytes = 48 + entries.length * 48 := rfl
  have haligned : (strings entries).1.length % 16 = 0 := (layOut_at _).1
  apply bind_ok (check_ok (by omega))
  apply bind_ok (check_ok (by omega))
  apply bind_ok (checkedSection_ok (by simp only [written, sectionAlign]; omega) hstringsLe hlt)
  apply bind_ok (checkedSection_ok (by simp only [written, sectionAlign]; omega) hdataLe hlt)
  apply bind_ok (check_ok hend.le)
  apply bind_ok (check_ok (Nat.le_refl _))
  apply bind_ok hread.1
  apply bind_ok (check_ok ((zero_add _).trans h.initComponent))
  exact bind_ok (check_ok ((zero_add _).trans h.initArgv0)) rfl

end

/-- Parsing does not panic; what parses has its sections in order, and entries that can be read,
lie in their sections and keep the rules of a boot file system.  Entries that keep the rules come
back from an image that fits the fields it is described by. -/
theorem image_codec :
  (∀ bytes, Image.parse bytes ≠ .error .panicked ∧ ∀ image, Image.parse bytes = .ok image →
    image.bytes = bytes ∧ image.InOrder ∧ ∃ entries, image.entries = .ok entries
      ∧ entries.length = image.entryCount ∧ (∀ entry ∈ entries, image.Carries entry)
      ∧ WellFormed entries)
  ∧ ∀ entries, WellFormed entries → entries.length < 2 ^ 32 →
    (writeImage entries).length < 2 ^ 64 →
    ∃ image, Image.parse (writeImage entries) = .ok image ∧ image.entries = .ok entries
  := by
  constructor
  · exact Image.returns_parse
  · intro entries hrules hcount hlt
    exact ⟨written entries, parse_written hrules hcount hlt⟩

end Helios.Artifact
