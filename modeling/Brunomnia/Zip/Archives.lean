import Brunomnia.Library.Bytes
import Brunomnia.Streaming.Lossy
import Brunomnia.Zip.Checksums

/-!
# ZIP archives

The entries of an archive are read by its central directory, and those whose name ends in `.json`
are extracted. How deflated data is inflated is a parameter, since the runtime does it. Numbers are
read behind a check that they are inside the bytes.
-/

namespace Brunomnia.Zip

open Library (readNumber)
open Streaming (fromUtf8Lossy)

abbrev Text := List Char

def maxImportFileBytes : ℕ := 20000000
def maxArchiveEntries : ℕ := 1000
def maxArchiveOutputBytes : ℕ := 50000000
def zipLocalFile : ℕ := 0x04034b50
def zipCentralFile : ℕ := 0x02014b50
def zipEnd : ℕ := 0x06054b50

structure ArchiveEntry where
  name : Text
  bytes : Bytes
  deriving DecidableEq

abbrev getUint16 (bytes : Bytes) (offset : ℕ) : ℕ :=
  readNumber 2 bytes offset

abbrev getUint32 (bytes : Bytes) (offset : ℕ) : ℕ :=
  readNumber 4 bytes offset

/-- `bytes.subarray(offset, offset + length)` -/
def subarray (bytes : Bytes) (offset length : ℕ) : Bytes :=
  (bytes.drop offset).take length

def byteOrderMark : Char :=
  Char.ofNat 65279

/-- `new TextDecoder().decode(bytes)`, which takes a byte order mark off. -/
def decodeText (bytes : Bytes) : Text :=
  match fromUtf8Lossy bytes with
  | [] => []
  | letter :: rest => if letter = byteOrderMark then rest else letter :: rest

/-- `name.toLowerCase().endsWith('.json')`; no other letters have these as their small ones. -/
def endsWithJson (name : Text) : Bool :=
  ".json".toList.isSuffixOf (name.map Char.toLower)

/-- The last offset from the minimum to the given one with the signature of an end record. -/
def findEndBefore (bytes : Bytes) (minimum : ℕ) : ℕ → Option ℕ
  | 0 => if minimum = 0 ∧ getUint32 bytes 0 = zipEnd then some 0 else none
  | offset + 1 =>
      if offset + 1 < minimum then none
      else if getUint32 bytes (offset + 1) = zipEnd then some (offset + 1)
      else findEndBefore bytes minimum offset

def findZipEnd (bytes : Bytes) : Option ℕ :=
  if bytes.length < 22 then none
  else findEndBefore bytes (bytes.length - 65557) (bytes.length - 22)

/-- The inflated bytes, unless there are more than permitted. -/
def inflateRaw (inflate : Bytes → Except String Bytes) (bytes : Bytes) (maximumBytes : ℕ) :
    Except String Bytes :=
  match inflate bytes with
  | .error message => .error message
  | .ok output =>
      if output.length > maximumBytes then
        .error "A ZIP entry expands beyond its declared or permitted size."
      else .ok output

/-- What the loop over the central directory has read. -/
structure Reading where
  output : List ArchiveEntry
  totalBytes : ℕ
  offset : ℕ

/-- The fields of a record of the central directory. -/
structure DirectoryEntry where
  flags : ℕ
  compression : ℕ
  expectedCrc : ℕ
  compressedSize : ℕ
  uncompressedSize : ℕ
  nameLength : ℕ
  extraLength : ℕ
  commentLength : ℕ
  localOffset : ℕ

def directoryEntry (bytes : Bytes) (offset : ℕ) : DirectoryEntry where
  flags := getUint16 bytes (offset + 8)
  compression := getUint16 bytes (offset + 10)
  expectedCrc := getUint32 bytes (offset + 16)
  compressedSize := getUint32 bytes (offset + 20)
  uncompressedSize := getUint32 bytes (offset + 24)
  nameLength := getUint16 bytes (offset + 28)
  extraLength := getUint16 bytes (offset + 30)
  commentLength := getUint16 bytes (offset + 32)
  localOffset := getUint32 bytes (offset + 42)

def DirectoryEntry.length (entry : DirectoryEntry) : ℕ :=
  46 + entry.nameLength + entry.extraLength + entry.commentLength

/-- Where the data of an entry starts, by the lengths in its local header. -/
def dataOffset (bytes : Bytes) (localOffset : ℕ) : ℕ :=
  localOffset + 30 + getUint16 bytes (localOffset + 26) + getUint16 bytes (localOffset + 28)

def quoted (start : String) (name : Text) (rest : String) : String :=
  start ++ "'" ++ String.ofList name ++ "'" ++ rest

/-- The data of an entry, behind its local header. -/
def extractEntry (inflate : Bytes → Except String Bytes) (bytes : Bytes) (centralOffset : ℕ)
    (entry : DirectoryEntry) (name : Text) (totalBytes : ℕ) : Except String Bytes :=
  if centralOffset < entry.localOffset + 30 ∨
      getUint32 bytes entry.localOffset ≠ zipLocalFile then
    .error (quoted "ZIP entry " name " has an invalid local header.")
  else if centralOffset < dataOffset bytes entry.localOffset + entry.compressedSize then
    .error (quoted "ZIP entry " name " data is out of bounds.")
  else if maxArchiveOutputBytes < totalBytes + entry.uncompressedSize then
    .error "The ZIP archive exceeds the 50 MB extracted-data limit."
  else
    let compressed := subarray bytes (dataOffset bytes entry.localOffset) entry.compressedSize
    let extracted :=
      if entry.compression = 0 then .ok compressed
      else inflateRaw inflate compressed entry.uncompressedSize
    match extracted with
    | .error message => .error message
    | .ok data =>
        if data.length ≠ entry.uncompressedSize ∨ (crc32 data).toNat ≠ entry.expectedCrc then
          .error (quoted "ZIP entry " name " failed its size or CRC check.")
        else .ok data

/-- One turn of the loop over the central directory. -/
def readEntry (inflate : Bytes → Except String Bytes) (bytes : Bytes)
    (endOffset centralOffset : ℕ) (reading : Reading) : Except String Reading :=
  let offset := reading.offset
  if endOffset < offset + 46 ∨ getUint32 bytes offset ≠ zipCentralFile then
    .error "The ZIP central directory is malformed."
  else
    let entry := directoryEntry bytes offset
    if entry.compressedSize = 0xffffffff ∨ entry.uncompressedSize = 0xffffffff ∨
        entry.localOffset = 0xffffffff then
      .error "ZIP64 archives are not supported."
    else if entry.flags % 2 = 1 then .error "Encrypted ZIP entries are not supported."
    else if entry.compression ≠ 0 ∧ entry.compression ≠ 8 then
      .error ("ZIP compression method " ++ toString entry.compression ++ " is not supported.")
    else if endOffset < offset + entry.length then
      .error "A ZIP directory entry is out of bounds."
    else
      let name := decodeText (subarray bytes (offset + 46) entry.nameLength)
      if ¬ endsWithJson name ∨ name.getLast? = some '/' then
        .ok { reading with offset := offset + entry.length }
      else
        match extractEntry inflate bytes centralOffset entry name reading.totalBytes with
        | .error message => .error message
        | .ok data =>
            .ok { output := reading.output ++ [⟨name, data⟩]
                  totalBytes := reading.totalBytes + entry.uncompressedSize
                  offset := offset + entry.length }

def readEntries (inflate : Bytes → Except String Bytes) (bytes : Bytes)
    (endOffset centralOffset : ℕ) : ℕ → Reading → Except String Reading
  | 0, reading => .ok reading
  | entries + 1, reading =>
      match readEntry inflate bytes endOffset centralOffset reading with
      | .error message => .error message
      | .ok next => readEntries inflate bytes endOffset centralOffset entries next

def extractZipEntries (inflate : Bytes → Except String Bytes) (bytes : Bytes) :
    Except String (List ArchiveEntry) :=
  if maxImportFileBytes < bytes.length then .error "The ZIP archive exceeds the 20 MB import limit."
  else
    match findZipEnd bytes with
    | none => .error "The ZIP archive has no valid end record."
    | some endOffset =>
        let entries := getUint16 bytes (endOffset + 10)
        let centralSize := getUint32 bytes (endOffset + 12)
        let centralOffset := getUint32 bytes (endOffset + 16)
        if getUint16 bytes (endOffset + 4) ≠ 0 ∨ getUint16 bytes (endOffset + 6) ≠ 0 then
          .error "Multi-disk ZIP archives are not supported."
        else if maxArchiveEntries < entries then
          .error ("The ZIP archive exceeds " ++ toString maxArchiveEntries ++ " entries.")
        else if endOffset < centralOffset + centralSize then
          .error "The ZIP central directory is out of bounds."
        else
          match readEntries inflate bytes endOffset centralOffset entries
              ⟨[], 0, centralOffset⟩ with
          | .error message => .error message
          | .ok reading =>
              if reading.output = [] then .error "The ZIP archive contains no JSON files."
              else .ok reading.output

end Brunomnia.Zip

/-!
## The layout of archives

An archive has the local headers with the data of its entries, the central directory, the end
record and a comment. The numbers that the reader skips may be any.
-/

namespace Brunomnia.Zip

open Library

/-! ## Records -/

inductive Compression where
  | stored
  | deflated
  deriving DecidableEq

def Compression.number : Compression → ℕ
  | .stored => 0
  | .deflated => 8

/-- An entry, with the numbers of its headers that have no meaning here. -/
structure ZipEntry where
  name : Text
  data : Bytes
  compression : Compression
  compressed : Bytes
  flags : ℕ
  localOffset : ℕ
  extra : Bytes
  comment : Bytes
  localName : Bytes
  localExtra : Bytes
  versions : ℕ
  times : ℕ
  attributes : ℕ
  localNumbers : ℕ

def ZipEntry.nameBytes (entry : ZipEntry) : Bytes :=
  entry.name.flatMap String.utf8EncodeChar

def ZipEntry.localFields (entry : ZipEntry) : List (ℕ × ℕ) :=
  [(4, zipLocalFile), (22, entry.localNumbers), (2, entry.localName.length),
    (2, entry.localExtra.length)]

/-- The local header with the data behind it. -/
def ZipEntry.localRecord (entry : ZipEntry) : Bytes :=
  writeFields entry.localFields ++ entry.localName ++ entry.localExtra ++ entry.compressed

def ZipEntry.directoryFields (entry : ZipEntry) : List (ℕ × ℕ) :=
  [(4, zipCentralFile), (4, entry.versions), (2, entry.flags), (2, entry.compression.number),
    (4, entry.times), (4, (checksum entry.data).toNat), (4, entry.compressed.length),
    (4, entry.data.length), (2, entry.nameBytes.length), (2, entry.extra.length),
    (2, entry.comment.length), (8, entry.attributes), (4, entry.localOffset)]

def ZipEntry.directoryRecord (entry : ZipEntry) : Bytes :=
  writeFields entry.directoryFields ++ entry.nameBytes ++ entry.extra ++ entry.comment

/-- The entries are in the order of the central directory. The body has their local headers. -/
structure Archive where
  body : Bytes
  entries : List ZipEntry
  comment : Bytes

def Archive.directory (archive : Archive) : Bytes :=
  archive.entries.flatMap ZipEntry.directoryRecord

def Archive.endFields (archive : Archive) : List (ℕ × ℕ) :=
  [(4, zipEnd), (2, 0), (2, 0), (2, archive.entries.length), (2, archive.entries.length),
    (4, archive.directory.length), (4, archive.body.length), (2, archive.comment.length)]

def Archive.endOffset (archive : Archive) : ℕ :=
  archive.body.length + archive.directory.length

def Archive.bytes (archive : Archive) : Bytes :=
  archive.body ++ (archive.directory ++ (writeFields archive.endFields ++ archive.comment))

/-! ## Standard archives -/

/-- The entry is in the body, its data is stored or deflated, and its numbers fit. -/
structure ZipEntry.IsWritten (inflate : Bytes → Except String Bytes) (body : Bytes)
    (entry : ZipEntry) : Prop where
  localRecord : ∃ before after, body = before ++ (entry.localRecord ++ after) ∧
    before.length = entry.localOffset
  data : match entry.compression with
    | .stored => entry.compressed = entry.data
    | .deflated => inflate entry.compressed = .ok entry.data
  flags : entry.flags < 65536
  notEncrypted : entry.flags % 2 = 0
  dataFits : entry.data.length < 0xffffffff
  nameFits : entry.nameBytes.length < 65536
  extraFits : entry.extra.length < 65536
  commentFits : entry.comment.length < 65536
  localNameFits : entry.localName.length < 65536
  localExtraFits : entry.localExtra.length < 65536

/-- The name ends in `.json`. -/
def ZipEntry.isJson (entry : ZipEntry) : Bool :=
  endsWithJson entry.name

def Archive.jsonEntries (archive : Archive) : List ArchiveEntry :=
  (archive.entries.filter ZipEntry.isJson).map fun entry => ⟨entry.name, entry.data⟩

/-- An archive on one disk, within the limits. -/
structure Archive.IsStandard (inflate : Bytes → Except String Bytes) (archive : Archive) :
    Prop where
  entries : ∀ entry ∈ archive.entries, entry.IsWritten inflate archive.body
  comment : archive.comment.length < 65536
  size : archive.bytes.length ≤ maxImportFileBytes
  count : archive.entries.length ≤ maxArchiveEntries
  output : (archive.jsonEntries.map fun entry => entry.bytes.length).sum ≤ maxArchiveOutputBytes

/-- Behind the end record, nothing else looks like one. -/
def Archive.EndIsLast (archive : Archive) : Prop :=
  ∀ offset, archive.endOffset < offset → offset + 22 ≤ archive.bytes.length →
    getUint32 archive.bytes offset ≠ zipEnd

end Brunomnia.Zip
