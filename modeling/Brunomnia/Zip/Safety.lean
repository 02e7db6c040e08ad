import Brunomnia.Zip.Extraction

/-!
# Extraction of any bytes

Whatever the bytes are, every entry that is extracted has the size and the checksum that its record
declares, comes from the bytes in front of the central directory, and all of them together are
within the limit.
-/

namespace Brunomnia.Zip

open Library (length_writeFields)

variable {inflate : Bytes → Except String Bytes} {bytes : Bytes}

/-- The data is some of the bytes in front of an offset, as they are or inflated. -/
def ComesFrom (inflate : Bytes → Except String Bytes) (bytes : Bytes) (compression length : ℕ)
    (data : Bytes) : Prop :=
  ∃ before source after, bytes = before ++ (source ++ after) ∧ source.length = length ∧
    (compression = 0 ∧ data = source ∨ compression = 8 ∧ inflate source = .ok data)

/-- The entry is the one that a record of the central directory declares. -/
structure IsExtracted (inflate : Bytes → Except String Bytes) (bytes : Bytes)
    (centralOffset offset : ℕ) (entry : ArchiveEntry) : Prop where
  signature : getUint32 bytes offset = zipCentralFile
  behind : centralOffset ≤ offset
  name : entry.name =
    decodeText (subarray bytes (offset + 46) (directoryEntry bytes offset).nameLength)
  isJson : endsWithJson entry.name = true
  size : entry.bytes.length = (directoryEntry bytes offset).uncompressedSize
  crc : (checksum entry.bytes).toNat = (directoryEntry bytes offset).expectedCrc
  region : ComesFrom inflate (bytes.take centralOffset) (directoryEntry bytes offset).compression
    (directoryEntry bytes offset).compressedSize entry.bytes

/-- The entries are declared by the central directory that the end record points to. -/
structure IsSound (inflate : Bytes → Except String Bytes) (bytes : Bytes)
    (output : List ArchiveEntry) : Prop where
  declared : ∃ endOffset, findZipEnd bytes = some endOffset ∧
    getUint32 bytes (endOffset + 16) ≤ endOffset ∧ ∀ entry ∈ output, ∃ offset,
      IsExtracted inflate bytes (getUint32 bytes (endOffset + 16)) offset entry
  limit : (output.map fun entry => entry.bytes.length).sum ≤ maxArchiveOutputBytes

/-! ## Steps -/

theorem ite_error_eq_ok {Value : Type*} {condition : Prop} [Decidable condition]
    {message : String} {otherwise : Except String Value} {value : Value} :
    (if condition then .error message else otherwise) = .ok value ↔
      ¬ condition ∧ otherwise = .ok value := by
  by_cases holds : condition
  · simp [holds]
  · simp [holds]

theorem inflateRaw_eq_ok {source data : Bytes} {maximumBytes : ℕ}
    (inflated : inflateRaw inflate source maximumBytes = .ok data) :
    inflate source = .ok data := by
  unfold inflateRaw at inflated
  cases isOutput : inflate source with
  | error message =>
      rw [isOutput] at inflated
      exact absurd inflated (by simp)
  | ok output =>
      rw [isOutput] at inflated
      exact congrArg _ (Except.ok.inj (ite_error_eq_ok.mp inflated).2)

theorem subarray_take {start length stop : ℕ} (inBytes : stop ≤ bytes.length)
    (inside : start + length ≤ stop) :
    ∃ before after, bytes.take stop = before ++ (subarray bytes start length ++ after) ∧
      (subarray bytes start length).length = length := by
  have isPart : subarray bytes start length = ((bytes.take stop).drop start).take length := by
    rw [subarray, List.drop_take, List.take_take, Nat.min_eq_left (by omega)]
  refine ⟨(bytes.take stop).take start, ((bytes.take stop).drop start).drop length, ?_, ?_⟩
  · rw [isPart, List.take_append_drop, List.take_append_drop]
  · rw [subarray, List.length_take, List.length_drop]
    omega

/-- What is known when the data of an entry is extracted. -/
theorem extractEntry_sound {centralOffset : ℕ} {entry : DirectoryEntry} {name : Text}
    {totalBytes : ℕ} {data : Bytes} (inBytes : centralOffset ≤ bytes.length)
    (known : entry.compression = 0 ∨ entry.compression = 8)
    (extracted : extractEntry inflate bytes centralOffset entry name totalBytes = .ok data) :
    data.length = entry.uncompressedSize ∧ (checksum data).toNat = entry.expectedCrc ∧
      totalBytes + entry.uncompressedSize ≤ maxArchiveOutputBytes ∧
      ComesFrom inflate (bytes.take centralOffset) entry.compression entry.compressedSize data := by
  unfold extractEntry at extracted
  rw [ite_error_eq_ok, ite_error_eq_ok, ite_error_eq_ok, Nat.not_lt, Nat.not_lt] at extracted
  rcases extracted with ⟨_, inside, withinLimit, extracted⟩
  dsimp only at extracted
  generalize isSource : (if entry.compression = 0 then
      Except.ok (subarray bytes (dataOffset bytes entry.localOffset) entry.compressedSize)
    else inflateRaw inflate (subarray bytes (dataOffset bytes entry.localOffset)
      entry.compressedSize) entry.uncompressedSize) = result at extracted
  cases result with
  | error message => exact absurd extracted (by simp)
  | ok found =>
      dsimp only at extracted
      rw [ite_error_eq_ok, not_or, not_not, not_not, Except.ok.injEq] at extracted
      rcases extracted with ⟨⟨size, crc⟩, rfl⟩
      rcases subarray_take inBytes inside with ⟨before, after, isRegion, isLength⟩
      refine ⟨size, crc32_eq_checksum found ▸ crc, withinLimit, before, _, after, isRegion,
        isLength, ?_⟩
      by_cases isStored : entry.compression = 0
      · rw [if_pos isStored, Except.ok.injEq] at isSource
        exact Or.inl ⟨isStored, isSource.symm⟩
      · rw [if_neg isStored] at isSource
        exact Or.inr ⟨known.resolve_left isStored, inflateRaw_eq_ok isSource⟩

/-- What holds while the central directory is read. -/
structure Reading.IsSound (inflate : Bytes → Except String Bytes) (bytes : Bytes)
    (centralOffset : ℕ) (reading : Reading) : Prop where
  behind : centralOffset ≤ reading.offset
  entries : ∀ entry ∈ reading.output, ∃ offset,
    IsExtracted inflate bytes centralOffset offset entry
  total : (reading.output.map fun entry => entry.bytes.length).sum = reading.totalBytes
  limit : reading.totalBytes ≤ maxArchiveOutputBytes

theorem readEntry_sound {endOffset centralOffset : ℕ} {reading next : Reading}
    (inBytes : centralOffset ≤ bytes.length)
    (isSound : reading.IsSound inflate bytes centralOffset)
    (read : readEntry inflate bytes endOffset centralOffset reading = .ok next) :
    next.IsSound inflate bytes centralOffset := by
  unfold readEntry at read
  dsimp only at read
  rw [ite_error_eq_ok, ite_error_eq_ok, ite_error_eq_ok, ite_error_eq_ok, ite_error_eq_ok,
    not_or, not_not] at read
  rcases read with ⟨⟨_, signature⟩, _, _, known, _, read⟩
  have behind := isSound.behind
  split at read
  case isTrue =>
    rw [Except.ok.injEq] at read
    subst read
    exact ⟨behind.trans (Nat.le_add_right _ _), isSound.entries, isSound.total, isSound.limit⟩
  case isFalse isName =>
    rw [not_or, not_not] at isName
    generalize isData : extractEntry inflate bytes centralOffset
      (directoryEntry bytes reading.offset)
      (decodeText (subarray bytes (reading.offset + 46)
        (directoryEntry bytes reading.offset).nameLength)) reading.totalBytes = result at read
    cases result with
    | error message => exact absurd read (by simp)
    | ok data =>
        dsimp only at read
        rw [Except.ok.injEq] at read
        subst read
        rcases extractEntry_sound inBytes (by omega) isData with ⟨size, crc, limit, region⟩
        refine ⟨behind.trans (Nat.le_add_right _ _), ?_, ?_, limit⟩
        · intro entry entryMem
          rcases List.mem_append.mp entryMem with before | isNew
          · exact isSound.entries entry before
          · rw [List.mem_singleton.mp isNew]
            exact ⟨reading.offset, signature, behind, rfl, isName.1, size, crc, region⟩
        · rw [List.map_append, List.sum_append, isSound.total, List.map_singleton,
            List.sum_singleton, size]

theorem readEntries_sound {endOffset centralOffset entries : ℕ} {reading last : Reading}
    (inBytes : centralOffset ≤ bytes.length)
    (isSound : reading.IsSound inflate bytes centralOffset)
    (read : readEntries inflate bytes endOffset centralOffset entries reading = .ok last) :
    last.IsSound inflate bytes centralOffset := by
  induction entries generalizing reading with
  | zero =>
      rw [readEntries, Except.ok.injEq] at read
      exact read ▸ isSound
  | succ entries ih =>
      rw [readEntries] at read
      cases isNext : readEntry inflate bytes endOffset centralOffset reading with
      | error message =>
          rw [isNext] at read
          exact absurd read (by simp)
      | ok next =>
          rw [isNext] at read
          exact ih (readEntry_sound inBytes isSound isNext) read

theorem findEndBefore_le {minimum offset endOffset : ℕ}
    (isEnd : findEndBefore bytes minimum offset = some endOffset) : endOffset ≤ offset := by
  induction offset with
  | zero =>
      rw [findEndBefore] at isEnd
      split at isEnd
      case isTrue => exact (Option.some.inj isEnd).ge
      case isFalse => exact absurd isEnd (by simp)
  | succ offset ih =>
      rw [findEndBefore] at isEnd
      split at isEnd
      case isTrue => exact absurd isEnd (by simp)
      case isFalse =>
        split at isEnd
        case isTrue => exact (Option.some.inj isEnd).ge
        case isFalse => exact (ih isEnd).trans (Nat.le_succ offset)

theorem findZipEnd_le {endOffset : ℕ} (isEnd : findZipEnd bytes = some endOffset) :
    endOffset ≤ bytes.length := by
  unfold findZipEnd at isEnd
  split at isEnd
  case isTrue => exact absurd isEnd (by simp)
  case isFalse => exact (findEndBefore_le isEnd).trans (Nat.sub_le _ _)

theorem extractZipEntries_sound {output : List ArchiveEntry}
    (extracted : extractZipEntries inflate bytes = .ok output) :
    IsSound inflate bytes output := by
  unfold extractZipEntries at extracted
  rw [ite_error_eq_ok] at extracted
  replace extracted := extracted.2
  cases isEnd : findZipEnd bytes with
  | none =>
      rw [isEnd] at extracted
      exact absurd extracted (by simp)
  | some endOffset =>
      rw [isEnd] at extracted
      dsimp only at extracted
      rw [ite_error_eq_ok, ite_error_eq_ok, ite_error_eq_ok, Nat.not_lt, Nat.not_lt] at extracted
      rcases extracted with ⟨_, _, inDirectory, extracted⟩
      have inBytes := findZipEnd_le isEnd
      have inFront : getUint32 bytes (endOffset + 16) ≤ endOffset :=
        (Nat.le_add_right _ _).trans inDirectory
      cases isRead : readEntries inflate bytes endOffset (getUint32 bytes (endOffset + 16))
          (getUint16 bytes (endOffset + 10)) ⟨[], 0, getUint32 bytes (endOffset + 16)⟩ with
      | error message =>
          rw [isRead] at extracted
          exact absurd extracted (by simp)
      | ok reading =>
          rw [isRead] at extracted
          dsimp only at extracted
          rw [ite_error_eq_ok, Except.ok.injEq] at extracted
          rcases extracted with ⟨_, rfl⟩
          have isSound := readEntries_sound (inFront.trans inBytes)
            ⟨le_rfl, by simp, rfl, Nat.zero_le _⟩ isRead
          exact ⟨⟨endOffset, isEnd, inFront, isSound.entries⟩,
            isSound.total.le.trans isSound.limit⟩

/-! ## Archives and bytes -/

/-- A standard archive with JSON files is extracted exactly, if its end record is the last one and
no name starts with a byte order mark; and what is extracted from any bytes is sound. -/
theorem extractZipEntries_correct (inflate : Bytes → Except String Bytes) :
    (∀ archive : Archive, archive.IsStandard inflate → archive.EndIsLast →
      archive.jsonEntries ≠ [] →
      (∀ entry ∈ archive.jsonEntries, entry.name.head? ≠ some byteOrderMark) →
      extractZipEntries inflate archive.bytes = .ok archive.jsonEntries) ∧
    ∀ bytes output, extractZipEntries inflate bytes = .ok output →
      IsSound inflate bytes output :=
  ⟨fun _ isStandard endIsLast hasJson noMarks =>
      extractZipEntries_eq isStandard endIsLast hasJson noMarks,
    fun _ _ extracted => extractZipEntries_sound extracted⟩

def storedEntry (name : Text) (data : Bytes) : ZipEntry where
  name := name
  data := data
  compression := .stored
  compressed := data
  flags := 2048
  localOffset := 0
  extra := []
  comment := []
  localName := name.flatMap String.utf8EncodeChar
  localExtra := []
  versions := 0
  times := 0
  attributes := 0
  localNumbers := 0

def storedArchive (name : Text) (data comment : Bytes) : Archive :=
  ⟨(storedEntry name data).localRecord, [storedEntry name data], comment⟩

theorem storedArchive_isStandard {name : Text} {data comment : Bytes}
    (nameFits : (name.flatMap String.utf8EncodeChar).length < 65536)
    (dataFits : data.length ≤ 1000) (commentFits : comment.length < 65536) :
    (storedArchive name data comment).IsStandard inflate := by
  have isWritten : (storedEntry name data).IsWritten inflate
      (storedArchive name data comment).body :=
    { localRecord := ⟨[], [], by simp [storedArchive], rfl⟩
      data := rfl
      flags := by change 2048 < 65536; decide
      notEncrypted := by change 2048 % 2 = 0; decide
      dataFits := by change data.length < _; omega
      nameFits := nameFits
      extraFits := Nat.succ_pos _
      commentFits := Nat.succ_pos _
      localNameFits := nameFits
      localExtraFits := Nat.succ_pos _ }
  have body : (storedArchive name data comment).body.length =
      30 + (name.flatMap String.utf8EncodeChar).length + data.length := by
    simp only [storedArchive, ZipEntry.localRecord, List.length_append, length_writeFields]
    rfl
  have directory : (storedArchive name data comment).directory.length =
      46 + (name.flatMap String.utf8EncodeChar).length := by
    simp only [storedArchive, Archive.directory, List.flatMap_singleton, length_directoryRecord]
    rfl
  have length := length_bytes (storedArchive name data comment)
  rw [Archive.endOffset, body, directory] at length
  have sizeLimit : maxImportFileBytes = 20000000 := rfl
  have isComment : (storedArchive name data comment).comment = comment := rfl
  rw [isComment] at length
  refine ⟨?_, commentFits, by omega, Nat.succ_le_succ (Nat.zero_le _), ?_⟩
  · intro entry entryMem
    rw [List.mem_singleton.mp entryMem]
    exact isWritten
  · have few : ((storedArchive name data comment).jsonEntries.map fun entry =>
        entry.bytes.length).sum ≤ data.length := by
      unfold Archive.jsonEntries storedArchive
      dsimp only
      cases isJson : (storedEntry name data).isJson with
      | true =>
          rw [List.filter_cons_of_pos isJson]
          exact le_of_eq (by simp [storedEntry])
      | false =>
          rw [List.filter_cons_of_neg (by simp [isJson])]
          exact Nat.zero_le _
    have outputLimit : maxArchiveOutputBytes = 50000000 := rfl
    omega

/-! ## An archive with deflated data -/

def inflateBlock : Bytes → Except String Bytes
  | 1 :: low :: high :: notLow :: notHigh :: data =>
      if data.length = low.toNat + 256 * high.toNat ∧ notLow = 255 - low ∧ notHigh = 255 - high then
        .ok data
      else .error "invalid stored block"
  | _ => .error "invalid block type"

/-- A deflated file in a folder, with a comment and extra fields that differ. -/
def ordersEntry : ZipEntry where
  name := "shop/Orders.Json".toList
  data := [123, 125]
  compression := .deflated
  compressed := [1, 2, 0, 253, 255, 123, 125]
  flags := 2
  localOffset := 38
  extra := [0, 0, 1, 0, 7]
  comment := [75, 69, 89]
  localName := "shop/Orders.Json".toList.flatMap String.utf8EncodeChar
  localExtra := [0, 0, 0, 0]
  versions := 20
  times := 1
  attributes := 32
  localNumbers := 20

def notesEntry : ZipEntry :=
  { storedEntry "shop/notes.txt".toList [104, 105] with localOffset := 95 }

/-- The directory is in another order than the body. -/
def packedArchive : Archive where
  body := (storedEntry "a.json".toList [91, 93]).localRecord ++
    (ordersEntry.localRecord ++ notesEntry.localRecord)
  entries := [ordersEntry, notesEntry, storedEntry "a.json".toList [91, 93]]
  comment := "packed".toList.flatMap String.utf8EncodeChar

theorem packedArchive_isStandard : packedArchive.IsStandard inflateBlock := by
  have stored : (storedEntry "a.json".toList [91, 93]).IsWritten inflateBlock
      packedArchive.body :=
    ⟨⟨[], _, rfl, rfl⟩, rfl, by decide, by decide, by decide, by decide, by decide, by decide,
      by decide, by decide⟩
  have orders : ordersEntry.IsWritten inflateBlock packedArchive.body :=
    ⟨⟨(storedEntry "a.json".toList [91, 93]).localRecord, _, rfl, by decide⟩, rfl, by decide,
      by decide, by decide, by decide, by decide, by decide, by decide, by decide⟩
  have notes : notesEntry.IsWritten inflateBlock packedArchive.body :=
    ⟨⟨(storedEntry "a.json".toList [91, 93]).localRecord ++ ordersEntry.localRecord, [], by simp
      [packedArchive], by decide⟩, rfl, by decide, by decide, by decide, by decide, by decide,
      by decide, by decide, by decide⟩
  have length := length_bytes packedArchive
  have endOffset : packedArchive.endOffset ≤ 1000 := by decide +kernel
  have comment : packedArchive.comment.length = 6 := by decide
  have sizeLimit : maxImportFileBytes = 20000000 := rfl
  refine ⟨?_, by omega, by omega, by decide, by decide⟩
  exact List.forall_mem_cons.mpr ⟨orders, List.forall_mem_cons.mpr ⟨notes,
    List.forall_mem_singleton.mpr stored⟩⟩

/-- The comment is too short for another end record. -/
theorem packedArchive_extracted :
    extractZipEntries inflateBlock packedArchive.bytes =
        .ok [⟨"shop/Orders.Json".toList, [123, 125]⟩, ⟨"a.json".toList, [91, 93]⟩] ∧
      IsSound inflateBlock packedArchive.bytes
        [⟨"shop/Orders.Json".toList, [123, 125]⟩, ⟨"a.json".toList, [91, 93]⟩] := by
  have correct := extractZipEntries_correct inflateBlock
  have noSignature : ∀ start < 6, getUint32 (Library.writeFields packedArchive.endFields ++
      packedArchive.comment) (start + 1) ≠ zipEnd := by
    decide +kernel
  have endIsLast : packedArchive.EndIsLast := by
    intro offset behind inBytes
    have length := length_bytes packedArchive
    have comment : packedArchive.comment.length = 6 := by decide
    rcases Nat.exists_eq_add_of_lt behind with ⟨start, rfl⟩
    have short : start < 6 := by omega
    have inFront : packedArchive.endOffset + start + 1 =
        (packedArchive.body ++ packedArchive.directory).length + (start + 1) := by
      rw [List.length_append, Archive.endOffset]
      omega
    rw [getUint32, Archive.bytes, ← List.append_assoc, inFront,
      Library.readNumber_append]
    exact noSignature start short
  have extracted := correct.1 packedArchive packedArchive_isStandard endIsLast (by decide)
    (by decide)
  exact ⟨extracted, correct.2 _ _ extracted⟩

/-- The archive is standard, and something else than its JSON files is the result. -/
def Archive.IsMisread (archive : Archive) : Prop :=
  archive.IsStandard (fun _ => .error "invalid") ∧
    extractZipEntries (fun _ => .error "invalid") archive.bytes ≠ .ok archive.jsonEntries

theorem Archive.isMisread_of_error {archive : Archive} {message : String}
    (isStandard : archive.IsStandard fun _ => .error "invalid")
    (isError : extractZipEntries (fun _ => .error "invalid") archive.bytes = .error message) :
    archive.IsMisread :=
  ⟨isStandard, by rw [isError]; simp⟩

set_option maxRecDepth 4000 in
/-- No file is an error, a comment with the signature of an end record hides the real one, and a
byte order mark is taken off a name. -/
theorem archives_misread :
    (⟨[], [], []⟩ : Archive).IsMisread ∧
      (storedArchive "a.json".toList [] ([80, 75, 5, 6] ++ List.replicate 18 0)).IsMisread ∧
      (storedArchive (byteOrderMark :: "a.json".toList) [] []).IsMisread := by
  refine ⟨?_, ?_, storedArchive_isStandard (by decide) (by decide) (by decide), ?_⟩
  · refine Archive.isMisread_of_error ?_ rfl
    exact ⟨by simp, by decide, by decide, by decide, by decide⟩
  · exact Archive.isMisread_of_error
      (storedArchive_isStandard (by decide) (by decide) (by decide)) rfl
  · have extracted : extractZipEntries (fun _ => .error "invalid")
        (storedArchive (byteOrderMark :: "a.json".toList) [] []).bytes =
          .ok [⟨"a.json".toList, []⟩] := rfl
    have expected : (storedArchive (byteOrderMark :: "a.json".toList) [] []).jsonEntries =
        [⟨byteOrderMark :: "a.json".toList, []⟩] := rfl
    rw [extracted, expected]
    decide

end Brunomnia.Zip
