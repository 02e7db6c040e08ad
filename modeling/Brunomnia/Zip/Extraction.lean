import Brunomnia.Zip.Archives

/-!
# Extraction of standard archives

The reader finds the end record, follows the central directory record by record, and takes the data
of every entry from behind its local header.
-/

namespace Brunomnia.Zip

open Library
open Streaming (fromUtf8Lossy fromUtf8Lossy_encode)

/-! ## Names -/

theorem decodeText_encode {name : Text} (noMark : name.head? ≠ some byteOrderMark) :
    decodeText (name.flatMap String.utf8EncodeChar) = name := by
  unfold decodeText
  rw [fromUtf8Lossy_encode]
  cases name with
  | nil => rfl
  | cons letter rest =>
      have other : letter ≠ byteOrderMark := fun isMark => noMark (congrArg some isMark)
      exact if_neg other

theorem endsWithJson_decodeText (name : Text) :
    endsWithJson (decodeText (name.flatMap String.utf8EncodeChar)) = endsWithJson name := by
  by_cases noMark : name.head? ≠ some byteOrderMark
  · rw [decodeText_encode noMark]
  · rw [not_not] at noMark
    cases name with
    | nil => exact absurd noMark (by simp)
    | cons letter rest =>
        obtain rfl : letter = byteOrderMark := Option.some.inj noMark
        have isRest :
            decodeText ((byteOrderMark :: rest).flatMap String.utf8EncodeChar) = rest := by
          unfold decodeText
          rw [fromUtf8Lossy_encode]
          exact if_pos rfl
        have notWhole : ".json".toList ≠ (byteOrderMark :: rest).map Char.toLower := by
          intro isName
          rw [List.map_cons] at isName
          exact absurd (List.cons.inj isName).1 (by decide)
        rw [isRest, endsWithJson, endsWithJson, Bool.eq_iff_iff, List.isSuffixOf_iff_suffix,
          List.isSuffixOf_iff_suffix, List.map_cons, List.suffix_cons_iff]
        exact ⟨Or.inr, fun ending => ending.resolve_left notWhole⟩

theorem getLast?_of_endsWithJson {name : Text} (isJson : endsWithJson name = true) :
    name.getLast? ≠ some '/' := by
  intro isSlash
  have ending : ".json".toList <:+ name.map Char.toLower := List.isSuffixOf_iff_suffix.mp isJson
  rcases ending with ⟨start, isName⟩
  have last := congrArg List.getLast? isName
  rw [List.getLast?_map, isSlash, List.getLast?_append_of_ne_nil _ (by decide)] at last
  exact absurd last (by decide)

/-! ## Parts of the bytes -/

theorem subarray_of_append {bytes before part after : Bytes} {offset length : ℕ}
    (isBytes : bytes = before ++ (part ++ after)) (isOffset : before.length = offset)
    (isLength : part.length = length) : subarray bytes offset length = part := by
  rw [subarray, isBytes, ← isOffset, List.drop_left, ← isLength, List.take_left]

/-! ## Fields -/

theorem length_directoryRecord (entry : ZipEntry) :
    entry.directoryRecord.length =
      46 + entry.nameBytes.length + entry.extra.length + entry.comment.length := by
  simp only [ZipEntry.directoryRecord, List.length_append, length_writeFields]
  rfl

theorem checksum_lt (bytes : Bytes) : (checksum bytes).toNat < 256 ^ 4 :=
  (checksum bytes).isLt

theorem localRecord_le {inflate : Bytes → Except String Bytes} {body : Bytes} {entry : ZipEntry}
    (isWritten : entry.IsWritten inflate body) :
    entry.localOffset + (30 + entry.localName.length + entry.localExtra.length +
      entry.compressed.length) ≤ body.length := by
  rcases isWritten.localRecord with ⟨start, rest, isBody, isOffset⟩
  have fields : (entry.localFields.map Prod.fst).sum = 30 := rfl
  rw [isBody, List.length_append, List.length_append, isOffset]
  simp only [ZipEntry.localRecord, List.length_append, length_writeFields]
  omega

section Directory

variable {inflate : Bytes → Except String Bytes} {body : Bytes} {entry : ZipEntry}
  {bytes before after : Bytes} (isBytes : bytes = before ++ (entry.directoryRecord ++ after))

include isBytes

theorem read_directoryField (index : ℕ) {width value start : ℕ}
    (isField : entry.directoryFields[index]? = some (width, value))
    (isStart : ((entry.directoryFields.take index).map Prod.fst).sum = start)
    (fits : value < 256 ^ width) :
    readNumber width bytes (before.length + start) = value := by
  rw [isBytes, readNumber_append, ZipEntry.directoryRecord, List.append_assoc, List.append_assoc,
    List.append_assoc]
  exact readNumber_field isField isStart fits _

theorem read_signature : getUint32 bytes before.length = zipCentralFile :=
  read_directoryField isBytes 0 rfl rfl (by decide)

theorem directoryEntry_eq (isWritten : entry.IsWritten inflate body)
    (bodyFits : body.length ≤ maxImportFileBytes) :
    directoryEntry bytes before.length =
      { flags := entry.flags
        compression := entry.compression.number
        expectedCrc := (checksum entry.data).toNat
        compressedSize := entry.compressed.length
        uncompressedSize := entry.data.length
        nameLength := entry.nameBytes.length
        extraLength := entry.extra.length
        commentLength := entry.comment.length
        localOffset := entry.localOffset } := by
  have inBody := localRecord_le isWritten
  have limit : maxImportFileBytes = 20000000 := rfl
  have method : entry.compression.number < 256 ^ 2 := by
    cases entry.compression <;> decide
  have nameFits := isWritten.nameFits
  have extraFits := isWritten.extraFits
  have commentFits := isWritten.commentFits
  have dataFits := isWritten.dataFits
  have flags := isWritten.flags
  unfold directoryEntry
  rw [DirectoryEntry.mk.injEq]
  refine ⟨?_, ?_, ?_, ?_, ?_, ?_, ?_, ?_, ?_⟩
  · exact read_directoryField isBytes 2 rfl rfl (by omega)
  · exact read_directoryField isBytes 3 rfl rfl method
  · exact read_directoryField isBytes 5 rfl rfl (checksum_lt entry.data)
  · exact read_directoryField isBytes 6 rfl rfl (by omega)
  · exact read_directoryField isBytes 7 rfl rfl (by omega)
  · exact read_directoryField isBytes 8 rfl rfl (by omega)
  · exact read_directoryField isBytes 9 rfl rfl (by omega)
  · exact read_directoryField isBytes 10 rfl rfl (by omega)
  · exact read_directoryField isBytes 12 rfl rfl (by omega)

theorem subarray_name :
    subarray bytes (before.length + 46) entry.nameBytes.length = entry.nameBytes := by
  have parts : bytes = before ++ writeFields entry.directoryFields ++
      (entry.nameBytes ++ (entry.extra ++ (entry.comment ++ after))) := by
    rw [isBytes]
    simp only [ZipEntry.directoryRecord, List.append_assoc]
  have isOffset : (before ++ writeFields entry.directoryFields).length = before.length + 46 := by
    rw [List.length_append, length_writeFields]
    rfl
  exact subarray_of_append parts isOffset rfl

end Directory

section Local

variable {inflate : Bytes → Except String Bytes} {body rest : Bytes} {entry : ZipEntry}
  (isWritten : entry.IsWritten inflate body)

include isWritten

theorem read_localField (index : ℕ) {width value start : ℕ}
    (isField : entry.localFields[index]? = some (width, value))
    (isStart : ((entry.localFields.take index).map Prod.fst).sum = start)
    (fits : value < 256 ^ width) :
    readNumber width (body ++ rest) (entry.localOffset + start) = value := by
  rcases isWritten.localRecord with ⟨start, behind, isBody, isOffset⟩
  rw [isBody, ← isOffset, List.append_assoc, readNumber_append, ZipEntry.localRecord]
  simp only [List.append_assoc]
  exact readNumber_field isField isStart fits _

theorem dataOffset_eq :
    dataOffset (body ++ rest) entry.localOffset =
      entry.localOffset + 30 + entry.localName.length + entry.localExtra.length := by
  have name : getUint16 (body ++ rest) (entry.localOffset + 26) = entry.localName.length :=
    read_localField isWritten 2 rfl rfl isWritten.localNameFits
  have extra : getUint16 (body ++ rest) (entry.localOffset + 28) = entry.localExtra.length :=
    read_localField isWritten 3 rfl rfl isWritten.localExtraFits
  rw [dataOffset, name, extra]

theorem subarray_data :
    subarray (body ++ rest) (dataOffset (body ++ rest) entry.localOffset)
      entry.compressed.length = entry.compressed := by
  rcases isWritten.localRecord with ⟨start, behind, isBody, isOffset⟩
  have parts : body ++ rest =
      (start ++ writeFields entry.localFields ++ entry.localName ++ entry.localExtra) ++
        (entry.compressed ++ (behind ++ rest)) := by
    rw [isBody]
    simp only [ZipEntry.localRecord, List.append_assoc]
  have fields : (entry.localFields.map Prod.fst).sum = 30 := rfl
  refine subarray_of_append parts ?_ rfl
  rw [dataOffset_eq isWritten]
  simp only [List.length_append, length_writeFields, fields, isOffset]

/-- The data of an entry is extracted. -/
theorem extractEntry_eq (name : Text) {totalBytes : ℕ}
    (fits : totalBytes + entry.data.length ≤ maxArchiveOutputBytes) {directory : DirectoryEntry}
    (localOffset : directory.localOffset = entry.localOffset)
    (compression : directory.compression = entry.compression.number)
    (compressedSize : directory.compressedSize = entry.compressed.length)
    (uncompressedSize : directory.uncompressedSize = entry.data.length)
    (expectedCrc : directory.expectedCrc = (checksum entry.data).toNat) :
    extractEntry inflate (body ++ rest) body.length directory name totalBytes =
      .ok entry.data := by
  have inBody := localRecord_le isWritten
  have signature : getUint32 (body ++ rest) entry.localOffset = zipLocalFile :=
    read_localField isWritten 0 rfl rfl (by decide)
  have isData := isWritten.data
  unfold extractEntry
  rw [localOffset, compression, compressedSize, uncompressedSize, expectedCrc, signature,
    subarray_data isWritten, dataOffset_eq isWritten, if_neg (by omega), if_neg (by omega),
    if_neg (by omega)]
  have checked : ¬ (entry.data.length ≠ entry.data.length ∨
      (crc32 entry.data).toNat ≠ (checksum entry.data).toNat) := by
    rw [crc32_eq_checksum]
    simp
  cases isMethod : entry.compression with
  | stored =>
      rw [isMethod] at isData
      dsimp only at isData
      simp only [Compression.number, if_true, isData, if_neg checked]
  | deflated =>
      rw [isMethod] at isData
      dsimp only at isData
      have noneLost : ¬ entry.data.length > entry.data.length := lt_irrefl _
      simp only [Compression.number, inflateRaw, isData, if_neg noneLost, if_neg checked,
        OfNat.ofNat_ne_zero, if_false]

end Local

/-! ## The central directory -/

def Reading.after (reading : Reading) (entry : ZipEntry) : Reading :=
  if entry.isJson then
    { output := reading.output ++ [⟨entry.name, entry.data⟩]
      totalBytes := reading.totalBytes + entry.data.length
      offset := reading.offset + entry.directoryRecord.length }
  else { reading with offset := reading.offset + entry.directoryRecord.length }

section Entry

variable {inflate : Bytes → Except String Bytes} {body rest : Bytes} {entry : ZipEntry}
  (isWritten : entry.IsWritten inflate body) (bodyFits : body.length ≤ maxImportFileBytes)

include isWritten bodyFits

theorem readEntry_eq {before after : Bytes} {endOffset : ℕ} {reading : Reading}
    (isBytes : body ++ rest = before ++ (entry.directoryRecord ++ after))
    (isOffset : reading.offset = before.length)
    (inDirectory : before.length + entry.directoryRecord.length ≤ endOffset)
    (noMark : entry.isJson = true → entry.name.head? ≠ some byteOrderMark)
    (fits : entry.isJson = true →
      reading.totalBytes + entry.data.length ≤ maxArchiveOutputBytes) :
    readEntry inflate (body ++ rest) endOffset body.length reading =
      .ok (reading.after entry) := by
  have inBody := localRecord_le isWritten
  have limit : maxImportFileBytes = 20000000 := rfl
  have length := length_directoryRecord entry
  have dataFits := isWritten.dataFits
  have flags := isWritten.notEncrypted
  have known : ¬ (entry.compression.number ≠ 0 ∧ entry.compression.number ≠ 8) := by
    cases entry.compression <;> decide
  have isEntry := directoryEntry_eq isBytes isWritten bodyFits
  have header : ¬ (endOffset < before.length + 46 ∨ zipCentralFile ≠ zipCentralFile) := by
    omega
  have small : ¬ (entry.compressed.length = 0xffffffff ∨ entry.data.length = 0xffffffff ∨
      entry.localOffset = 0xffffffff) := by
    omega
  have plain : ¬ entry.flags % 2 = 1 := by
    omega
  have isLength : (directoryEntry (body ++ rest) before.length).length =
      entry.directoryRecord.length := by
    rw [isEntry]
    exact length.symm
  unfold readEntry
  dsimp only
  rw [isOffset, read_signature isBytes, if_neg header, isLength, isEntry]
  dsimp only
  rw [if_neg small, if_neg plain, if_neg known, if_neg (by omega), subarray_name isBytes]
  have sameEnding := endsWithJson_decodeText entry.name
  by_cases isJson : entry.isJson = true
  · have isJsonName : endsWithJson entry.name = true := isJson
    have isName : decodeText entry.nameBytes = entry.name := decodeText_encode (noMark isJson)
    have notFolder := getLast?_of_endsWithJson isJson
    have extracted := @extractEntry_eq inflate body rest entry isWritten entry.name
      reading.totalBytes (fits isJson) (directoryEntry (body ++ rest) before.length)
      (by rw [isEntry]) (by rw [isEntry]) (by rw [isEntry]) (by rw [isEntry]) (by rw [isEntry])
    rw [isEntry] at extracted
    rw [isName, if_neg (by simp [isJsonName, notFolder]), extracted, Reading.after, if_pos isJson,
      isOffset]
  · rw [if_pos (Or.inl (by rw [ZipEntry.nameBytes, sameEnding]; exact isJson)), Reading.after,
      if_neg isJson, isOffset]

end Entry

section Directory

variable {inflate : Bytes → Except String Bytes} {body rest : Bytes}
  (bodyFits : body.length ≤ maxImportFileBytes)

theorem foldl_after (entries : List ZipEntry) (reading : Reading) :
    (entries.foldl Reading.after reading).output = reading.output ++
        (entries.filter ZipEntry.isJson).map fun entry => ⟨entry.name, entry.data⟩ := by
  induction entries generalizing reading with
  | nil => simp
  | cons entry entries ih =>
      rw [List.foldl_cons, ih, Reading.after]
      by_cases isJson : entry.isJson = true
      · rw [if_pos isJson, List.filter_cons_of_pos isJson]
        simp
      · rw [if_neg isJson, List.filter_cons_of_neg isJson]

include bodyFits

theorem readEntries_eq {entries : List ZipEntry} {before after : Bytes} {endOffset : ℕ}
    {reading : Reading} (areWritten : ∀ entry ∈ entries, entry.IsWritten inflate body)
    (isBytes : body ++ rest = before ++ (entries.flatMap ZipEntry.directoryRecord ++ after))
    (isOffset : reading.offset = before.length)
    (inDirectory : before.length + (entries.flatMap ZipEntry.directoryRecord).length ≤ endOffset)
    (noMarks : ∀ entry ∈ entries, entry.isJson = true →
      entry.name.head? ≠ some byteOrderMark)
    (fits : reading.totalBytes + ((entries.filter ZipEntry.isJson).map
      fun entry => entry.data.length).sum ≤ maxArchiveOutputBytes) :
    readEntries inflate (body ++ rest) endOffset body.length entries.length reading =
      .ok (entries.foldl Reading.after reading) := by
  induction entries generalizing before reading with
  | nil => rfl
  | cons entry entries ih =>
      rw [List.flatMap_cons, List.append_assoc] at isBytes
      rw [List.flatMap_cons, List.length_append] at inDirectory
      have read := @readEntry_eq inflate body rest entry (areWritten entry List.mem_cons_self)
        bodyFits before _ endOffset reading isBytes isOffset (by omega)
        (noMarks entry List.mem_cons_self) (by
          intro isJson
          rw [List.filter_cons_of_pos isJson, List.map_cons, List.sum_cons] at fits
          omega)
      rw [List.length_cons, readEntries, read]
      have next : (before ++ entry.directoryRecord).length = (reading.after entry).offset := by
        rw [List.length_append, Reading.after, ← isOffset]
        split <;> rfl
      refine ih (fun later laterMem => areWritten later (List.mem_cons_of_mem entry laterMem))
        (isBytes.trans (List.append_assoc _ _ _).symm) next.symm ?_
        (fun later laterMem => noMarks later (List.mem_cons_of_mem entry laterMem)) ?_
      · rw [List.length_append]
        omega
      · rw [Reading.after]
        by_cases isJson : entry.isJson = true
        · rw [List.filter_cons_of_pos isJson, List.map_cons, List.sum_cons] at fits
          rw [if_pos isJson]
          dsimp only
          omega
        · rw [List.filter_cons_of_neg isJson] at fits
          rw [if_neg isJson]
          exact fits

end Directory

/-! ## The end record -/

theorem findEndBefore_eq {bytes : Bytes} {minimum endOffset offset : ℕ}
    (isEnd : getUint32 bytes endOffset = zipEnd) (least : minimum ≤ endOffset)
    (behind : endOffset ≤ offset)
    (isLast : ∀ later, endOffset < later → later ≤ offset → getUint32 bytes later ≠ zipEnd) :
    findEndBefore bytes minimum offset = some endOffset := by
  induction offset with
  | zero =>
      obtain rfl : endOffset = 0 := by omega
      rw [findEndBefore, if_pos ⟨by omega, isEnd⟩]
  | succ offset ih =>
      rw [findEndBefore, if_neg (by omega)]
      by_cases isHere : endOffset = offset + 1
      · rw [← isHere, if_pos isEnd]
      · rw [if_neg (isLast (offset + 1) (by omega) le_rfl)]
        exact ih (by omega) fun later isBehind inRange => isLast later isBehind (by omega)

section Archive

variable {inflate : Bytes → Except String Bytes} {archive : Archive}
  (isStandard : archive.IsStandard inflate)

theorem length_bytes (archive : Archive) :
    archive.bytes.length = archive.endOffset + 22 + archive.comment.length := by
  have fields : (archive.endFields.map Prod.fst).sum = 22 := rfl
  simp only [Archive.bytes, List.length_append, length_writeFields, fields, Archive.endOffset]
  omega

theorem read_endField (archive : Archive) (index : ℕ) {width value start : ℕ}
    (isField : archive.endFields[index]? = some (width, value))
    (isStart : ((archive.endFields.take index).map Prod.fst).sum = start)
    (fits : value < 256 ^ width) :
    readNumber width archive.bytes (archive.endOffset + start) = value := by
  have isOffset : archive.endOffset = (archive.body ++ archive.directory).length :=
    List.length_append.symm
  rw [Archive.bytes, ← List.append_assoc, isOffset, readNumber_append]
  exact readNumber_field isField isStart fits _

include isStandard

theorem findZipEnd_eq (endIsLast : archive.EndIsLast) :
    findZipEnd archive.bytes = some archive.endOffset := by
  have length := length_bytes archive
  have comment := isStandard.comment
  have isEnd : getUint32 archive.bytes archive.endOffset = zipEnd :=
    read_endField archive 0 rfl rfl (by decide)
  rw [findZipEnd, if_neg (by omega)]
  apply findEndBefore_eq isEnd (by omega) (by omega)
  exact fun later isBehind inRange => endIsLast later isBehind (by omega)

/-- The entries of a standard archive are extracted in the order of its directory. -/
theorem extractZipEntries_eq (endIsLast : archive.EndIsLast)
    (hasJson : archive.jsonEntries ≠ [])
    (noMarks : ∀ entry ∈ archive.jsonEntries, entry.name.head? ≠ some byteOrderMark) :
    extractZipEntries inflate archive.bytes = .ok archive.jsonEntries := by
  have length := length_bytes archive
  have size := isStandard.size
  have count := isStandard.count
  have sizeLimit : maxImportFileBytes = 20000000 := rfl
  have countLimit : maxArchiveEntries = 1000 := rfl
  have isOffset : archive.endOffset = archive.body.length + archive.directory.length := rfl
  have disk : getUint16 archive.bytes (archive.endOffset + 4) = 0 :=
    read_endField archive 1 rfl rfl (by decide)
  have centralDisk : getUint16 archive.bytes (archive.endOffset + 6) = 0 :=
    read_endField archive 2 rfl rfl (by decide)
  have entries : getUint16 archive.bytes (archive.endOffset + 10) = archive.entries.length :=
    read_endField archive 4 rfl rfl (by omega)
  have centralSize : getUint32 archive.bytes (archive.endOffset + 12) = archive.directory.length :=
    read_endField archive 5 rfl rfl (by omega)
  have centralOffset : getUint32 archive.bytes (archive.endOffset + 16) = archive.body.length :=
    read_endField archive 6 rfl rfl (by omega)
  have read := @readEntries_eq inflate archive.body
    (archive.directory ++ (writeFields archive.endFields ++ archive.comment)) (by omega)
    archive.entries archive.body _ archive.endOffset ⟨[], 0, archive.body.length⟩
    isStandard.entries rfl rfl isOffset.ge
    (by
      intro entry entryMem isJson
      exact noMarks ⟨entry.name, entry.data⟩ (List.mem_map.mpr
        ⟨entry, List.mem_filter.mpr ⟨entryMem, isJson⟩, rfl⟩))
    (by
      have output := isStandard.output
      rw [Archive.jsonEntries, List.map_map] at output
      rw [Nat.zero_add]
      exact output)
  change readEntries inflate archive.bytes archive.endOffset archive.body.length
    archive.entries.length ⟨[], 0, archive.body.length⟩ = _ at read
  have isOutput := foldl_after archive.entries ⟨[], 0, archive.body.length⟩
  rw [List.nil_append] at isOutput
  change _ = archive.jsonEntries at isOutput
  unfold extractZipEntries
  rw [if_neg (by omega), findZipEnd_eq isStandard endIsLast]
  dsimp only
  rw [disk, centralDisk, entries, centralSize, centralOffset, if_neg (by omega),
    if_neg (by omega), if_neg (by omega), read]
  dsimp only
  rw [isOutput, if_neg hasJson]

end Archive

end Brunomnia.Zip
