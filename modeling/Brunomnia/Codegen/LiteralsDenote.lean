import Brunomnia.Codegen.Literals

/-!
# Literals denote their values

A literal that is read by the grammar of its language gives back the string that it was written
for, or its bytes in UTF-8. Two languages have exceptions: PowerShell also ends a string at a
typographic quote, and a raw string of Rust has no carriage return and at most 255 hashes.
-/

namespace Brunomnia.Codegen

open Library
open Multipart (utf8)

/-! ## What is expected -/

structure LiteralsDenote (value : Text) : Prop where
  shellWord : readShell (shell value) = some value
  quotedString : readSingleQuoted (singleQuoted value) = some value
  rawString : readRustRaw (rustRaw value) = some value
  cBytes : readC (cString value) = some (utf8 value)
  ocamlBytes : readOcaml (ocamlString value) = some (utf8 value)
  verbatimString : readPowershell (powershellString value) = some value

/-- The string has no typographic single quote, no carriage return, and no quote with 255 hashes
behind it. -/
structure IsPlainString (value : Text) : Prop where
  noTypographicQuote : ∀ letter ∈ value, isPowershellQuote letter = true → letter = '\''
  noReturn : '\r' ∉ value
  fewHashes : ¬ '"' :: List.replicate maxRustHashes '#' <:+: value

/-! ## Words and quoted strings -/

theorem readShell_shell (value : Text) : readShell (shell value) = some value := by
  have reads : Reader.run shellStep .single
      (value.flatMap fun letter => if letter = '\'' then "'\"'\"'".toList else [letter]) =
        some (.single, value) := by
    have each := @Reader.run_flatMap _ _ _ shellStep _ ShellState.single
      (fun letter => if letter = '\'' then "'\"'\"'".toList else [letter]) (fun letter => [letter])
      value
    rw [List.flatMap_singleton'] at each
    apply each
    intro letter _
    split
    case isTrue isQuote =>
        rw [isQuote]
        rfl
    case isFalse notQuote => simp [Reader.run, shellStep, notQuote]
  exact Reader.read_enclosed rfl reads rfl rfl

theorem readSingleQuoted_singleQuoted (value : Text) :
    readSingleQuoted (singleQuoted value) = some value := by
  have reads : Reader.run singleQuotedStep .inside
      ((value.flatMap fun letter => if letter = '\\' then ['\\', '\\'] else [letter]).flatMap
        fun letter => if letter = '\'' then ['\\', '\''] else [letter]) =
        some (.inside, value) := by
    have each := @Reader.run_flatMap _ _ _ singleQuotedStep _ QuotedState.inside
      (fun letter => (if letter = '\\' then ['\\', '\\'] else [letter]).flatMap
        fun letter => if letter = '\'' then ['\\', '\''] else [letter])
      (fun letter => [letter]) value
    rw [List.flatMap_singleton'] at each
    rw [List.flatMap_assoc]
    apply each
    intro letter _
    by_cases isBackslash : letter = '\\'
    · rw [isBackslash]
      rfl
    · by_cases isQuote : letter = '\''
      · rw [isQuote]
        rfl
      · simp [Reader.run, singleQuotedStep, isBackslash, isQuote]
  exact Reader.read_enclosed rfl reads rfl rfl

/-! ## Strings of bytes -/

theorem octalDigit_digitChar {digit : ℕ} (small : digit < 8) :
    isOctalDigit (Nat.digitChar digit) = true ∧ digitValue (Nat.digitChar digit) = digit := by
  interval_cases digit <;> decide

theorem decimalDigit_digitChar {digit : ℕ} (small : digit < 10) :
    (Nat.digitChar digit).isDigit = true ∧ digitValue (Nat.digitChar digit) = digit := by
  interval_cases digit <;> decide

theorem byteOfCode_toNat (byte : UInt8) : byteOfCode byte.toNat = some byte := by
  rw [byteOfCode, if_pos byte.toNat_lt]
  simp

theorem utf8EncodeChar_byte {byte : UInt8} (isAscii : byte.toNat ≤ 126) :
    String.utf8EncodeChar (Char.ofNat byte.toNat) = [byte] := by
  have isCode : (Char.ofNat byte.toNat).val = byte.toUInt32 := by
    rw [Char.ofNat, dif_pos (Or.inl (by omega))]
    apply UInt32.toNat_inj.mp
    simp [Char.ofNatAux]
  rw [String.utf8EncodeChar_eq_singleton]
  · rw [isCode]
    simp
  · rw [Char.utf8Size_eq_one_iff, isCode, UInt32.le_iff_toNat_le]
    simp
    omega

theorem c_threeDigits (byte : UInt8) :
    Reader.run cStep .inside ('\\' :: threeDigits 8 byte) = some (.inside, [byte]) := by
  have small := byte.toNat_lt
  have first := @octalDigit_digitChar (byte.toNat / 8 ^ 2) (by omega)
  have second := @octalDigit_digitChar (byte.toNat / 8 % 8) (by omega)
  have third := @octalDigit_digitChar (byte.toNat % 8) (by omega)
  have whole : 8 * (8 * (byte.toNat / 8 ^ 2) + byte.toNat / 8 % 8) + byte.toNat % 8 =
      byte.toNat := by omega
  have opens : cStep .inside '\\' = some (.escape, []) := rfl
  have one : cStep .escape (Nat.digitChar (byte.toNat / 8 ^ 2)) =
      some (.octal 1 (byte.toNat / 8 ^ 2), []) := by
    rw [cStep, if_pos first.1, first.2]
  have two : cStep (.octal 1 (byte.toNat / 8 ^ 2)) (Nat.digitChar (byte.toNat / 8 % 8)) =
      some (.octal 2 (8 * (byte.toNat / 8 ^ 2) + byte.toNat / 8 % 8), []) := by
    rw [cStep, if_pos second.1, second.2]
    rfl
  have three : cStep (.octal 2 (8 * (byte.toNat / 8 ^ 2) + byte.toNat / 8 % 8))
      (Nat.digitChar (byte.toNat % 8)) = some (.inside, [byte]) := by
    rw [cStep, if_pos third.1, third.2, whole]
    exact congrArg (Option.map _) (byteOfCode_toNat byte)
  rw [threeDigits, List.map_cons, List.map_cons, List.map_cons, List.map_nil,
    Reader.run_cons opens, Reader.run_cons one, Reader.run_cons two, Reader.run_cons three]
  rfl

theorem ocaml_threeDigits (byte : UInt8) :
    Reader.run ocamlStep .inside ('\\' :: threeDigits 10 byte) = some (.inside, [byte]) := by
  have small := byte.toNat_lt
  have first := @decimalDigit_digitChar (byte.toNat / 10 ^ 2) (by omega)
  have second := @decimalDigit_digitChar (byte.toNat / 10 % 10) (by omega)
  have third := @decimalDigit_digitChar (byte.toNat % 10) (by omega)
  have whole : 10 * (10 * (byte.toNat / 10 ^ 2) + byte.toNat / 10 % 10) + byte.toNat % 10 =
      byte.toNat := by omega
  have opens : ocamlStep .inside '\\' = some (.escape, []) := rfl
  have one : ocamlStep .escape (Nat.digitChar (byte.toNat / 10 ^ 2)) =
      some (.decimal 1 (byte.toNat / 10 ^ 2), []) := by
    rw [ocamlStep, if_pos first.1, first.2]
  have two : ocamlStep (.decimal 1 (byte.toNat / 10 ^ 2))
      (Nat.digitChar (byte.toNat / 10 % 10)) =
      some (.decimal 2 (10 * (byte.toNat / 10 ^ 2) + byte.toNat / 10 % 10), []) := by
    rw [ocamlStep, if_pos second.1, second.2]
    rfl
  have three : ocamlStep (.decimal 2 (10 * (byte.toNat / 10 ^ 2) + byte.toNat / 10 % 10))
      (Nat.digitChar (byte.toNat % 10)) = some (.inside, [byte]) := by
    rw [ocamlStep, if_pos third.1, third.2, whole]
    exact congrArg (Option.map _) (byteOfCode_toNat byte)
  rw [threeDigits, List.map_cons, List.map_cons, List.map_cons, List.map_nil,
    Reader.run_cons opens, Reader.run_cons one, Reader.run_cons two, Reader.run_cons three]
  rfl

theorem printable_letter {byte : UInt8} (notQuote : byte ≠ 34) (notBackslash : byte ≠ 92)
    (printable : 32 ≤ byte ∧ byte ≤ 126) :
    Char.ofNat byte.toNat ≠ '"' ∧ Char.ofNat byte.toNat ≠ '\\' ∧
      Char.ofNat byte.toNat ≠ '\n' := by
  have upper : byte.toNat ≤ 126 := printable.2
  have lower : 32 ≤ byte.toNat := printable.1
  have isCode : (Char.ofNat byte.toNat).toNat = byte.toNat :=
    Char.toNat_ofNat _ |>.trans (if_pos (Or.inl (by omega)))
  refine ⟨?_, ?_, ?_⟩
  · intro same
    rw [same] at isCode
    exact notQuote (UInt8.toNat_inj.mp isCode.symm)
  · intro same
    rw [same] at isCode
    exact notBackslash (UInt8.toNat_inj.mp isCode.symm)
  · intro same
    rw [same] at isCode
    have code : byte.toNat = 10 := isCode.symm
    omega

theorem c_escapedByte (byte : UInt8) :
    Reader.run cStep .inside (escapedByte (fun byte => '\\' :: threeDigits 8 byte) byte) =
      some (.inside, [byte]) := by
  unfold escapedByte
  split
  case isTrue isQuote =>
      rw [isQuote]
      rfl
  case isFalse notQuote =>
      split
      case isTrue isBackslash =>
          rw [isBackslash]
          rfl
      case isFalse notBackslash =>
          split
          case isTrue printable =>
              rcases printable_letter notQuote notBackslash printable with
                ⟨quote, backslash, lineFeed⟩
              have encoded := @utf8EncodeChar_byte byte printable.2
              simp [Reader.run, cStep, cInsideStep, quote, backslash, lineFeed, encoded]
          case isFalse => exact c_threeDigits byte

theorem ocaml_escapedByte (byte : UInt8) :
    Reader.run ocamlStep .inside (escapedByte (fun byte => '\\' :: threeDigits 10 byte) byte) =
      some (.inside, [byte]) := by
  unfold escapedByte
  split
  case isTrue isQuote =>
      rw [isQuote]
      rfl
  case isFalse notQuote =>
      split
      case isTrue isBackslash =>
          rw [isBackslash]
          rfl
      case isFalse notBackslash =>
          split
          case isTrue printable =>
              rcases printable_letter notQuote notBackslash printable with ⟨quote, backslash, _⟩
              have encoded := @utf8EncodeChar_byte byte printable.2
              simp [Reader.run, ocamlStep, ocamlInsideStep, quote, backslash, encoded]
          case isFalse => exact ocaml_threeDigits byte

theorem readC_cBytes (bytes : List UInt8) : readC (cBytes bytes) = some bytes := by
  have reads := @Reader.run_flatMap _ _ _ cStep _ CState.inside _ (fun byte => [byte]) bytes
    fun byte _ => c_escapedByte byte
  rw [List.flatMap_singleton'] at reads
  exact Reader.read_enclosed rfl reads rfl rfl

theorem readOcaml_ocamlBytes (bytes : List UInt8) :
    readOcaml (ocamlBytes bytes) = some bytes := by
  have reads := @Reader.run_flatMap _ _ _ ocamlStep _ OcamlState.inside _ (fun byte => [byte]) bytes
    fun byte _ => ocaml_escapedByte byte
  rw [List.flatMap_singleton'] at reads
  exact Reader.read_enclosed rfl reads rfl rfl

/-! ## Raw strings -/

theorem rustHashes_notFound (value : Text) (hashes : ℕ) :
    ¬ '"' :: List.replicate (rustHashes value hashes) '#' <:+: value := by
  fun_induction rustHashes value hashes with
  | case1 hashes _ ih => exact ih
  | case2 hashes notFound => exact notFound

theorem rustHashes_le {value : Text} {limit : ℕ}
    (notFound : ¬ '"' :: List.replicate limit '#' <:+: value) (hashes : ℕ)
    (below : hashes ≤ limit) : rustHashes value hashes ≤ limit := by
  fun_induction rustHashes value hashes with
  | case1 hashes found ih =>
      apply ih
      have different : hashes ≠ limit := by
        rintro rfl
        exact notFound found
      omega
  | case2 hashes _ => exact below

theorem infix_of_le {value : Text} {few many : ℕ} (fewer : few ≤ many)
    (found : '"' :: List.replicate many '#' <:+: value) :
    '"' :: List.replicate few '#' <:+: value := by
  have isPrefix : List.replicate few '#' <+: List.replicate many '#' :=
    ⟨List.replicate (many - few) '#', by rw [← List.replicate_add, Nat.add_sub_cancel' fewer]⟩
  exact ((List.prefix_cons_inj '"').mpr isPrefix).isInfix.trans found

theorem rustHashes_le_iff (value : Text) (limit : ℕ) :
    rustHashes value 0 ≤ limit ↔ ¬ '"' :: List.replicate limit '#' <:+: value := by
  refine ⟨?_, fun notFound => rustHashes_le notFound 0 (Nat.zero_le _)⟩
  intro below found
  exact rustHashes_notFound value 0 (infix_of_le below found)

theorem replicate_prefix_of_quote {front rest : Text} {hashes : ℕ}
    (isPrefix : List.replicate hashes '#' <+: front ++ '"' :: rest) :
    List.replicate hashes '#' <+: front := by
  induction front generalizing hashes with
  | nil =>
      cases hashes with
      | zero => exact List.nil_prefix
      | succ hashes =>
          rw [List.replicate_succ, List.nil_append, List.cons_prefix_cons] at isPrefix
          exact absurd isPrefix.1 (by decide)
  | cons letter front ih =>
      cases hashes with
      | zero => exact List.nil_prefix
      | succ hashes =>
          rw [List.replicate_succ, List.cons_append, List.cons_prefix_cons] at isPrefix
          rw [List.replicate_succ, List.cons_prefix_cons]
          exact ⟨isPrefix.1, ih isPrefix.2⟩

theorem cutAt_value {value : Text} {hashes : ℕ}
    (notFound : ¬ '"' :: List.replicate hashes '#' <:+: value) :
    cutAt ('"' :: List.replicate hashes '#') (value ++ '"' :: List.replicate hashes '#') =
      some (value, []) := by
  induction value with
  | nil =>
      rw [List.nil_append, cutAt, if_pos List.prefix_rfl, List.drop_length]
  | cons letter value ih =>
      have notAhead : ¬ '"' :: List.replicate hashes '#' <+:
          letter :: (value ++ '"' :: List.replicate hashes '#') := by
        intro ahead
        rw [List.cons_prefix_cons] at ahead
        apply notFound
        have within := (List.prefix_cons_inj '"').mpr (replicate_prefix_of_quote ahead.2)
        rw [← ahead.1]
        exact within.isInfix
      have notLater : ¬ '"' :: List.replicate hashes '#' <:+: value := fun found =>
        notFound (found.trans (List.suffix_cons letter value).isInfix)
      rw [List.cons_append, cutAt, if_neg notAhead, ih notLater]
      rfl

theorem joinLineEnds_eq_self {text : Text} (noReturn : '\r' ∉ text) : joinLineEnds text = text := by
  fun_induction joinLineEnds text with
  | case1 rest _ => exact absurd List.mem_cons_self noReturn
  | case2 letter rest _ ih => rw [ih fun later => noReturn (List.mem_cons_of_mem _ later)]
  | case3 => rfl

/-- What a raw string without carriage returns is read as. -/
theorem readRustRaw_rustRaw {value : Text} (noReturn : '\r' ∉ value) :
    readRustRaw (rustRaw value) =
      if rustHashes value 0 ≤ maxRustHashes then some value else none := by
  have isRaw : rustRaw value = 'r' :: (List.replicate (rustHashes value 0) '#' ++
      '"' :: (value ++ '"' :: List.replicate (rustHashes value 0) '#')) := by
    simp [rustRaw]
  have same : joinLineEnds (rustRaw value) = rustRaw value := by
    apply joinLineEnds_eq_self
    rw [isRaw]
    simp [noReturn]
  have allHashes : ∀ letter ∈ List.replicate (rustHashes value 0) '#',
      decide (letter = '#') = true := by
    intro letter letterMem
    exact decide_eq_true (List.eq_of_mem_replicate letterMem)
  have taken : (List.replicate (rustHashes value 0) '#' ++ '"' :: (value ++ '"' ::
      List.replicate (rustHashes value 0) '#')).takeWhile (fun letter => letter = '#') =
      List.replicate (rustHashes value 0) '#' := by
    rw [List.takeWhile_append_of_pos allHashes, List.takeWhile_cons_of_neg (by decide),
      List.append_nil]
  have dropped : (List.replicate (rustHashes value 0) '#' ++ '"' :: (value ++ '"' ::
      List.replicate (rustHashes value 0) '#')).dropWhile (fun letter => letter = '#') =
      '"' :: (value ++ '"' :: List.replicate (rustHashes value 0) '#') := by
    rw [List.dropWhile_append_of_pos allHashes, List.dropWhile_cons_of_neg (by decide)]
  rw [readRustRaw, same, isRaw]
  simp only [dropped, taken]
  rw [cutAt_value (rustHashes_notFound value 0), Option.bind_some]
  simp [noReturn]

theorem noReturn_of_readRustRaw {literal content : Text}
    (isRead : readRustRaw literal = some content) : '\r' ∉ content := by
  unfold readRustRaw at isRead
  split at isRead
  case h_1 =>
      simp only at isRead
      split at isRead
      case h_1 =>
          rcases Option.bind_eq_some_iff.mp isRead with ⟨⟨found, behind⟩, _, given⟩
          rw [Option.ite_none_right_eq_some] at given
          rw [← Option.some_inj.mp given.2]
          exact given.1.2.2
      case h_2 => exact absurd isRead (by simp)
  case h_2 => exact absurd isRead (by simp)

theorem readRustRaw_iff (value : Text) :
    readRustRaw (rustRaw value) = some value ↔
      '\r' ∉ value ∧ ¬ '"' :: List.replicate maxRustHashes '#' <:+: value := by
  constructor
  · intro isRead
    have noReturn := noReturn_of_readRustRaw isRead
    rw [readRustRaw_rustRaw noReturn, Option.ite_none_right_eq_some] at isRead
    exact ⟨noReturn, (rustHashes_le_iff value maxRustHashes).mp isRead.1⟩
  · rintro ⟨noReturn, few⟩
    rw [readRustRaw_rustRaw noReturn, if_pos ((rustHashes_le_iff value maxRustHashes).mpr few)]

/-! ## Verbatim strings -/

def quoteWeight (letter : Char) : ℕ := if isPowershellQuote letter then 1 else 0

/-- The quotes that have opened the string so far, and the one that may close it. -/
def quotesOwed : VerbatimState → ℕ
  | .before => 0
  | .inside => 1
  | .quote => 2

theorem powershellStep_balanced (state : VerbatimState) (letter : Char) (next : VerbatimState)
    (given : List Char) (goes : powershellStep state letter = some (next, given)) :
    quoteWeight letter + quotesOwed state =
      (given.map fun out => 2 * quoteWeight out).sum + quotesOwed next := by
  cases isQuote : isPowershellQuote letter <;> cases state <;>
    simp [powershellStep, isQuote] at goes <;>
      (rcases goes with ⟨rfl, rfl⟩; simp [quoteWeight, quotesOwed, isQuote])

/-- How many quotes a letter is written with. -/
def writtenQuotes (letter : Char) : ℕ := if letter = '\'' then 2 else quoteWeight letter

theorem sum_powershellString (value : Text) :
    ((powershellString value).map quoteWeight).sum = (value.map writtenQuotes).sum + 2 := by
  have each : ∀ letter, ((if letter = '\'' then ['\'', '\''] else [letter]).map
      quoteWeight).sum = writtenQuotes letter := by
    intro letter
    unfold writtenQuotes
    split
    case isTrue => rfl
    case isFalse => exact List.sum_singleton
  have quote : quoteWeight '\'' = 1 := rfl
  have body : ((value.flatMap fun letter => if letter = '\'' then ['\'', '\''] else [letter]).map
      quoteWeight).sum = (value.map writtenQuotes).sum := by
    induction value with
    | nil => rfl
    | cons letter value ih =>
        rw [List.flatMap_cons, List.map_append, List.sum_append, each, ih, List.map_cons,
          List.sum_cons]
  rw [powershellString, List.map_append, List.map_append, List.sum_append, List.sum_append, body,
    List.map_singleton, List.sum_singleton, quote]
  omega

theorem writtenQuotes_le (letter : Char) : writtenQuotes letter ≤ 2 * quoteWeight letter := by
  unfold writtenQuotes
  split
  case isTrue isQuote =>
      rw [isQuote]
      decide
  case isFalse => omega

/-- A string that is read back has no quote that was written only once. -/
theorem readPowershell_iff (value : Text) :
    readPowershell (powershellString value) = some value ↔
      ∀ letter ∈ value, isPowershellQuote letter = true → letter = '\'' := by
  constructor
  · intro isRead letter letterMem isQuote
    rcases Option.bind_eq_some_iff.mp isRead with ⟨⟨last, given⟩, runs, ended⟩
    rw [Option.ite_none_right_eq_some, decide_eq_true_eq] at ended
    rcases ended with ⟨rfl, same⟩
    cases same
    have balance := Reader.run_balance powershellStep_balanced runs
    rw [sum_powershellString] at balance
    by_contra different
    have fewer : writtenQuotes letter < 2 * quoteWeight letter := by
      rw [writtenQuotes, if_neg different, quoteWeight, if_pos isQuote]
      decide
    have less := List.sum_lt_sum writtenQuotes (fun out => 2 * quoteWeight out)
      (fun other _ => writtenQuotes_le other) ⟨letter, letterMem, fewer⟩
    simp only [quotesOwed] at balance
    omega
  · intro plain
    have reads : Reader.run powershellStep .inside
        (value.flatMap fun letter => if letter = '\'' then ['\'', '\''] else [letter]) =
          some (.inside, value) := by
      have each := @Reader.run_flatMap _ _ _ powershellStep _ VerbatimState.inside
        (fun letter => if letter = '\'' then ['\'', '\''] else [letter]) (fun letter => [letter])
        value
      rw [List.flatMap_singleton'] at each
      apply each
      intro letter letterMem
      split
      case isTrue isQuote =>
          rw [isQuote]
          rfl
      case isFalse notQuote =>
          have notTaken : isPowershellQuote letter = false :=
            Bool.eq_false_iff.mpr fun taken => notQuote (plain letter letterMem taken)
          simp [Reader.run, powershellStep, notTaken]
    exact Reader.read_enclosed rfl reads rfl rfl

/-! ## All literals -/

/-- Every literal denotes its string exactly if the string is plain. The bytes of every string of
bytes are read back, and no prefix of a value closes its raw string. -/
theorem literalsDenote_iff (value : Text) :
    (LiteralsDenote value ↔ IsPlainString value) ∧
      (∀ bytes, readC (cBytes bytes) = some bytes) ∧
      cutAt ('"' :: List.replicate (rustHashes value 0) '#')
        (value ++ '"' :: List.replicate (rustHashes value 0) '#') = some (value, []) := by
  refine ⟨⟨?_, ?_⟩, readC_cBytes, cutAt_value (rustHashes_notFound value 0)⟩
  · intro denote
    have raw := (readRustRaw_iff value).mp denote.rawString
    exact ⟨(readPowershell_iff value).mp denote.verbatimString, raw.1, raw.2⟩
  · intro plain
    exact {
      shellWord := readShell_shell value
      quotedString := readSingleQuoted_singleQuoted value
      rawString := (readRustRaw_iff value).mpr ⟨plain.noReturn, plain.fewHashes⟩
      cBytes := readC_cBytes (utf8 value)
      ocamlBytes := readOcaml_ocamlBytes (utf8 value)
      verbatimString := (readPowershell_iff value).mpr plain.noTypographicQuote }

/-- Both quotes, a hash, a dollar, a backslash and a line end are denoted. -/
theorem quotedText_denoted : LiteralsDenote ['\'', '"', '#', '$', '\\', '\n'] := by
  have noTypographic : ∀ letter ∈ ['\'', '"', '#', '$', '\\', '\n'],
      isPowershellQuote letter = true → letter = '\'' := by
    simp [isPowershellQuote]
  refine (literalsDenote_iff _).1.mpr ⟨noTypographic, by simp, fun many => ?_⟩
  have long : maxRustHashes + 1 ≤ 6 := by
    simpa only [List.length_cons, List.length_replicate, List.length_nil] using many.length_le
  exact absurd long (by decide)

/-- The apostrophe of a text processor ends a verbatim string. -/
theorem apostrophe_not_denoted : ¬ LiteralsDenote ['\u2019'] := by
  intro denote
  have isRead : (none : Option Text) = some ['\u2019'] := denote.verbatimString
  exact absurd isRead (by simp)

end Brunomnia.Codegen
