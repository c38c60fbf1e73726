import Helios.Artifact.Signing

/-!
# The boot image

The image of the boot file system: a header, a table of entries, a table of strings and the data,
one after another.  An entry names a directory, a file, the init component or its `argv0`, by
offsets into the table of strings and into the data.

Reading the image can be rejected with an error, and a read past the end of the bytes panics.  A
path is a string, so that its bytes are valid UTF-8.
-/

namespace Helios.Artifact

open LittleEndian

inductive EntryKind where
  | directory
  | file
  | initComponent
  | initArgv0
deriving DecidableEq, Repr

def EntryKind.fromWire : Nat → Option EntryKind
  | 0 => some .directory
  | 1 => some .file
  | 2 => some .initComponent
  | 3 => some .initArgv0
  | _ => none

def EntryKind.toWire : EntryKind → Nat
  | .directory => 0
  | .file => 1
  | .initComponent => 2
  | .initArgv0 => 3

/-- The part of the image that an error names. -/
inductive Section where
  | entryTable
  | stringTable
  | data
deriving DecidableEq, Repr

inductive BootfsError where
  | truncatedHeader (len : Nat)
  | badMagic (found : Bytes)
  | badVersion (found : Nat)
  | entryTableOverflow (entryCount : Nat)
  | entryTableOverrun (entryCount len : Nat)
  | sectionMisaligned (part : Section) (offset : Nat)
  | sectionOverrun (part : Section) (offset len : Nat)
  | sectionOrder (part : Section) (stop nextStart : Nat)
  | entryKind (index kind : Nat)
  | entryReserved (index reserved : Nat)
  | entryPathMisaligned (index pathOffset : Nat)
  | entryDataMisaligned (index dataOffset : Nat)
  | entryPathOverrun (index pathOffset pathLen : Nat)
  | entryDataOverrun (index dataOffset dataLen : Nat)
  | entryPathNotUtf8 (index : Nat)
  | entryDataUnexpected (index : Nat) (kind : EntryKind) (dataLen : Nat)
  | duplicatePath (index : Nat) (path : String)
  | initComponentCount (found : Nat)
  | initArgv0Count (found : Nat)
deriving DecidableEq

/-- How a function of this module does not return. -/
inductive Fault where
  | panicked
  | rejected (error : BootfsError)
deriving DecidableEq

structure Range where
  start : Nat
  stop : Nat
deriving DecidableEq, Repr

structure ImageEntry where
  kind : EntryKind
  path : String
  data : Bytes
  modifiedNanos : UInt64
deriving DecidableEq

structure Image where
  bytes : Bytes
  entryCount : Nat
  stringTable : Range
  data : Range

def imageMagic : Bytes := ascii [ 'H', 'L', 'B', 'O', 'O', 'T', 'F', 'S']

def imageVersion : Nat := 1

def sectionAlign : Nat := 16

def headerBytes : Nat := 48

def entryBytes : Nat := 48

def pathBytes (path : String) : Bytes := path.toUTF8.data.toList

/-! ### Reading -/

/-- An early return with an error. -/
def check (condition : Prop) [Decidable condition] (error : BootfsError) : Except Fault Unit :=
  if condition then .ok () else .error (.rejected error)

def okOr {α : Type} (value : Option α) (error : BootfsError) : Except Fault α :=
  match value with
  | some value => .ok value
  | none => .error (.rejected error)

/-- `bytes[start..start + len]`. -/
def slice (bytes : Bytes) (start len : Nat) : Except Fault Bytes :=
  if start + len ≤ bytes.length then .ok ((bytes.drop start).take len) else .error .panicked

def readLe (width : Nat) (bytes : Bytes) (offset : Nat) : Except Fault Nat :=
  (slice bytes offset width).map decode

abbrev readU32 : Bytes → Nat → Except Fault Nat := readLe 4

abbrev readU64 : Bytes → Nat → Except Fault Nat := readLe 8

def checkedSection (offset len imageLen : Nat) (part : Section) : Except Fault Range := do
  check (offset % sectionAlign = 0) (.sectionMisaligned part offset)
  check (offset + len < 2 ^ 64) (.sectionOverrun part offset len)
  check (offset + len ≤ imageLen) (.sectionOverrun part offset len)
  .ok ⟨offset, offset + len⟩

namespace Image

def sliceIn (image : Image) (part : Range) (offset len index : Nat) (isData : Bool) :
    Except Fault Bytes := do
  let overrun :=
    if isData then .entryDataOverrun index offset len else .entryPathOverrun index offset len
  check (offset + len < 2 ^ 64) overrun
  check (offset + len ≤ part.stop - part.start) overrun
  slice image.bytes (part.start + offset) len

def entry (image : Image) (index : Nat) : Except Fault ImageEntry := do
  let base := headerBytes + index * entryBytes
  let wire ← readU32 image.bytes base
  let kind ← okOr (EntryKind.fromWire wire) (.entryKind index wire)
  let reserved ← readU32 image.bytes (base + 4)
  check (reserved = 0) (.entryReserved index reserved)
  let pathOffset ← readU64 image.bytes (base + 8)
  let pathLen ← readU64 image.bytes (base + 16)
  let dataOffset ← readU64 image.bytes (base + 24)
  let dataLen ← readU64 image.bytes (base + 32)
  let modifiedNanos ← readU64 image.bytes (base + 40)
  check (pathOffset % sectionAlign = 0) (.entryPathMisaligned index pathOffset)
  check (dataOffset % sectionAlign = 0) (.entryDataMisaligned index dataOffset)
  let path ← image.sliceIn image.stringTable pathOffset pathLen index false
  let path ← okOr (String.fromUTF8? ⟨path.toArray⟩) (.entryPathNotUtf8 index)
  let data ← image.sliceIn image.data dataOffset dataLen index true
  check (data = [] ∨ kind ≠ .directory ∧ kind ≠ .initArgv0)
    (.entryDataUnexpected index kind dataLen)
  .ok ⟨kind, path, data, .ofNat modifiedNanos⟩

/-- The entries in table order; one that does not read is unreachable. -/
def entries (image : Image) : Except Fault (List ImageEntry) :=
  (List.range image.entryCount).mapM fun index => (image.entry index).mapError fun _ => .panicked

/-- What the loop over the entries has counted, and the paths that it has seen. -/
structure Scan where
  initComponents : Nat
  initArgv0s : Nat
  bootfsPaths : List String

/-- One turn of the loop over the entries. -/
def scan (image : Image) (seen : Scan) (index : Nat) : Except Fault Scan := do
  let entry ← image.entry index
  match entry.kind with
  | .initComponent => .ok { seen with initComponents := seen.initComponents + 1 }
  | .initArgv0 => .ok { seen with initArgv0s := seen.initArgv0s + 1 }
  | .directory | .file =>
    check (entry.path ∉ seen.bootfsPaths) (.duplicatePath index entry.path)
    .ok { seen with bootfsPaths := entry.path :: seen.bootfsPaths }

def parse (bytes : Bytes) : Except Fault Image := do
  check (headerBytes ≤ bytes.length) (.truncatedHeader bytes.length)
  let found ← slice bytes 0 8
  check (found = imageMagic) (.badMagic found)
  let version ← readU32 bytes 8
  check (version = imageVersion) (.badVersion version)
  let entryCount ← readU32 bytes 12
  let stringTableOffset ← readU64 bytes 16
  let stringTableLen ← readU64 bytes 24
  let dataOffset ← readU64 bytes 32
  let dataLen ← readU64 bytes 40
  let entriesEnd := headerBytes + entryCount * entryBytes
  check (entriesEnd < 2 ^ 64) (.entryTableOverflow entryCount)
  check (entriesEnd ≤ bytes.length) (.entryTableOverrun entryCount bytes.length)
  let stringTable ← checkedSection stringTableOffset stringTableLen bytes.length .stringTable
  let data ← checkedSection dataOffset dataLen bytes.length .data
  check (entriesEnd ≤ stringTable.start) (.sectionOrder .entryTable entriesEnd stringTable.start)
  check (stringTable.stop ≤ data.start) (.sectionOrder .stringTable stringTable.stop data.start)
  let image : Image := ⟨bytes, entryCount, stringTable, data⟩
  let seen ← (List.range entryCount).foldlM image.scan ⟨0, 0, []⟩
  check (seen.initComponents = 1) (.initComponentCount seen.initComponents)
  check (seen.initArgv0s = 1) (.initArgv0Count seen.initArgv0s)
  .ok image

end Image

/-! ### Writing -/

def align (offset : Nat) : Nat :=
  (offset + sectionAlign - 1) / sectionAlign * sectionAlign

def padTo (bytes : Bytes) : Bytes :=
  bytes ++ List.replicate (align bytes.length - bytes.length) 0

/-- The loop that lays out the strings, and the one that lays out the data: each part padded, and
its offset. -/
def layOut (parts : List Bytes) : Bytes × List Nat :=
  parts.foldl (fun (table, offsets) part => (padTo (table ++ part), offsets ++ [table.length]))
    ([], [])

def entryRecord (entry : ImageEntry) (pathOffset dataOffset : Nat) : Bytes :=
  encode 4 entry.kind.toWire ++ encode 4 0
    ++ encode 8 pathOffset ++ encode 8 (pathBytes entry.path).length
    ++ encode 8 dataOffset ++ encode 8 entry.data.length
    ++ encode 8 entry.modifiedNanos.toNat

def imageHeader (entryCount stringTableOffset stringTableLen dataOffset dataLen : Nat) : Bytes :=
  imageMagic ++ encode 4 imageVersion ++ encode 4 entryCount
    ++ encode 8 stringTableOffset ++ encode 8 stringTableLen
    ++ encode 8 dataOffset ++ encode 8 dataLen

def entryTable (entries : List ImageEntry) (pathOffsets dataOffsets : List Nat) : List Bytes :=
  entries.mapIdx fun index entry =>
    entryRecord entry (pathOffsets.getD index 0) (dataOffsets.getD index 0)

def writeImage (entries : List ImageEntry) : Bytes :=
  let (stringTable, pathOffsets) := layOut (entries.map fun entry => pathBytes entry.path)
  let (data, dataOffsets) := layOut (entries.map (·.data))
  let stringTableOffset := align (headerBytes + entries.length * entryBytes)
  let dataOffset := align (stringTableOffset + stringTable.length)
  padTo (imageHeader entries.length stringTableOffset stringTable.length dataOffset data.length
    ++ (entryTable entries pathOffsets dataOffsets).flatten) ++ stringTable ++ data

end Helios.Artifact
