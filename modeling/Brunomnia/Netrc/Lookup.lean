import Brunomnia.Netrc.Credentials

/-!
# Netrc texts are looked up

A text that spells entries is split into their tokens, unless one of them has a hash, which cuts
off the rest of its line. The scan of the tokens finds the entries again, unless an account has the
name of a keyword, which the scan takes for the keyword.
-/

namespace Brunomnia.Netrc

open Codegen (Text)
open Library
open Multipart (isRustWhitespace)
open OAuthCallback (splitWhitespace)
open Streaming (textLines stripCarriageReturn)

/-! ## Tokens of a text -/

def lineTokens (line : Text) : List Text :=
  words isRustWhitespace (withoutComment line)

theorem netrcTokens_eq (source : Text) :
    netrcTokens source = (textLines source).flatMap lineTokens := by
  have joined := @words_intercalate _ isRustWhitespace ' ' (by decide)
    ((textLines source).map withoutComment)
  rw [List.flatMap_map] at joined
  exact joined

theorem withoutComment_cons {letter : Char} (notHash : letter ≠ '#') (line : Text) :
    withoutComment (letter :: line) = letter :: withoutComment line :=
  List.takeWhile_cons_of_pos (by simp [notHash])

theorem withoutComment_hash (line : Text) : withoutComment ('#' :: line) = [] :=
  List.takeWhile_cons_of_neg (by simp)

theorem withoutComment_append {front : Text} (noHash : '#' ∉ front) (line : Text) :
    withoutComment (front ++ line) = front ++ withoutComment line := by
  apply List.takeWhile_append_of_pos
  intro letter letterMem
  have notHash : letter ≠ '#' := by
    rintro rfl
    exact noHash letterMem
  simp [notHash]

theorem notHash_of_blank {letter : Char} (isBlank : isRustWhitespace letter = true) :
    letter ≠ '#' := by
  rintro rfl
  exact absurd isBlank (by decide)

theorem lineTokens_blank {letter : Char} (isBlank : isRustWhitespace letter = true) (line : Text) :
    lineTokens (letter :: line) = lineTokens line := by
  rw [lineTokens, withoutComment_cons (notHash_of_blank isBlank), words_cons isBlank, lineTokens]

theorem lineTokens_token {token : Text} (isWord : IsWord isRustWhitespace token)
    (noHash : '#' ∉ token) {line : Text}
    (ends : ∀ letter ∈ line.head?, isRustWhitespace letter = true) :
    lineTokens (token ++ line) = token :: lineTokens line := by
  rw [lineTokens, withoutComment_append noHash, words_append isWord, lineTokens]
  intro letter first
  cases line with
  | nil => exact absurd first (by simp [withoutComment])
  | cons head line =>
      have isBlank := ends head rfl
      rw [withoutComment_cons (notHash_of_blank isBlank), List.head?_cons,
        Option.mem_some_iff] at first
      rwa [← first]

theorem lineTokens_stripCarriageReturn (line : Text) :
    lineTokens (stripCarriageReturn '\r' line) = lineTokens line := by
  unfold stripCarriageReturn
  split
  case isFalse => rfl
  case isTrue isLast =>
      have whole : line = line.dropLast ++ ['\r'] := (List.dropLast_append_getLast? _ isLast).symm
      by_cases hasHash : '#' ∈ line.dropLast
      · rcases List.eq_append_cons_of_mem hasHash with ⟨front, rest, eq, noHash⟩
        rw [eq] at whole ⊢
        rw [whole, List.append_assoc, List.cons_append, lineTokens, lineTokens,
          withoutComment_append noHash, withoutComment_append noHash, withoutComment_hash,
          withoutComment_hash]
      · conv_rhs => rw [whole]
        have plain := withoutComment_append hasHash []
        rw [List.append_nil] at plain
        rw [lineTokens, lineTokens, withoutComment_append hasHash, plain,
          withoutComment_cons (by decide), words_append_cons _ (by decide)]
        simp [withoutComment]

theorem netrcTokens_line {line : Text} (oneLine : '\n' ∉ line) :
    netrcTokens line = lineTokens line := by
  rw [netrcTokens_eq, textLines, splitEnds_of_notMem oneLine]
  by_cases isEmpty : line = []
  · rw [isEmpty]
    rfl
  · simp [isEmpty]

theorem netrcTokens_lineFeed {line : Text} (oneLine : '\n' ∉ line) (rest : Text) :
    netrcTokens (line ++ '\n' :: rest) = lineTokens line ++ netrcTokens rest := by
  have lines : textLines (line ++ '\n' :: rest) =
      stripCarriageReturn '\r' line :: textLines rest := by
    simp only [textLines, splitEnds_append, splitEnds_of_notMem oneLine]
    rfl
  rw [netrcTokens_eq, lines, List.flatMap_cons, lineTokens_stripCarriageReturn, netrcTokens_eq]

theorem netrcTokens_append {front text : Text} {tokens : List Text} (oneLine : '\n' ∉ front)
    (reads : ∀ line, line <+: text → lineTokens (front ++ line) = tokens ++ lineTokens line) :
    netrcTokens (front ++ text) = tokens ++ netrcTokens text := by
  by_cases hasLineFeed : '\n' ∈ text
  · rcases List.eq_append_cons_of_mem hasLineFeed with ⟨line, rest, rfl, noLineFeed⟩
    have frontLine : '\n' ∉ front ++ line := by
      rw [List.mem_append]
      exact not_or.mpr ⟨oneLine, noLineFeed⟩
    rw [← List.append_assoc, netrcTokens_lineFeed frontLine, netrcTokens_lineFeed noLineFeed,
      reads line (List.prefix_append _ _), List.append_assoc]
  · have frontLine : '\n' ∉ front ++ text := by
      rw [List.mem_append]
      exact not_or.mpr ⟨oneLine, hasLineFeed⟩
    rw [netrcTokens_line frontLine, netrcTokens_line hasLineFeed, reads text List.prefix_rfl]

theorem netrcTokens_blank {letter : Char} (isBlank : isRustWhitespace letter = true)
    (rest : Text) : netrcTokens (letter :: rest) = netrcTokens rest := by
  by_cases isLineFeed : letter = '\n'
  · have skipped := @netrcTokens_lineFeed [] (by simp) rest
    rw [List.nil_append] at skipped
    rw [isLineFeed, skipped]
    rfl
  · have skipped := @netrcTokens_append [letter] rest [] (by simp [Ne.symm isLineFeed])
      fun line _ => lineTokens_blank isBlank line
    rwa [List.singleton_append, List.nil_append] at skipped

theorem netrcTokens_token {token : Text} (isWord : IsWord isRustWhitespace token)
    (noHash : '#' ∉ token) {rest : Text}
    (ends : ∀ letter ∈ rest.head?, isRustWhitespace letter = true) :
    netrcTokens (token ++ rest) = token :: netrcTokens rest := by
  have oneLine : '\n' ∉ token := fun lineFeed => absurd (isWord.2 _ lineFeed) (by decide)
  apply @netrcTokens_append token rest [token] oneLine
  intro line isPrefix
  apply lineTokens_token isWord noHash
  intro letter first
  apply ends
  cases line with
  | nil => exact absurd first (by simp)
  | cons head line =>
      rcases isPrefix with ⟨_, rfl⟩
      exact first

theorem Spells.head_blank {fresh parted : Bool} {tokens : List Text} {text : Text}
    (spells : Spells fresh parted tokens text) (isFresh : fresh = false)
    (isParted : parted = false) :
    ∀ letter ∈ text.head?, isRustWhitespace letter = true := by
  cases spells with
  | finish => exact fun letter first => absurd first (by simp)
  | blank isBlank =>
      intro letter first
      rw [List.head?_cons, Option.mem_some_iff] at first
      rwa [← first]
  | comment => exact absurd isFresh (by decide)
  | lastComment => exact absurd isFresh (by decide)
  | token => exact absurd isParted (by decide)

theorem netrcTokens_of_spells {fresh parted : Bool} {tokens : List Text} {text : Text}
    (spells : Spells fresh parted tokens text) (noHash : ∀ token ∈ tokens, '#' ∉ token) :
    netrcTokens text = tokens := by
  induction spells with
  | finish => rfl
  | blank isBlank _ ih => rw [netrcTokens_blank isBlank, ih noHash]
  | @comment _ tokens comment rest oneLine _ ih =>
      have noLineFeed : '\n' ∉ '#' :: comment := by simp [oneLine]
      rw [netrcTokens_lineFeed noLineFeed, lineTokens, withoutComment_hash, words_nil,
        List.nil_append, ih noHash]
  | @lastComment _ comment oneLine =>
      have noLineFeed : '\n' ∉ '#' :: comment := by simp [oneLine]
      rw [netrcTokens_line noLineFeed, lineTokens, withoutComment_hash, words_nil]
  | @token _ tokens token rest isWord later ih =>
      rw [netrcTokens_token isWord (noHash token List.mem_cons_self) (later.head_blank rfl rfl),
        ih fun later laterMem => noHash later (List.mem_cons_of_mem _ laterMem)]

/-! ## Scanning entries -/

def keywords : List Text := [machineWord, defaultWord, loginWord, passwordWord]

/-- The account of a field is no keyword. -/
def Field.IsPlain : Field → Prop
  | .account value => value.text ∉ keywords
  | _ => True

/-- The tokens are at their end or at an entry. -/
def AtEntry (tokens : List Text) : Prop :=
  ∀ token ∈ tokens.head?, token = machineWord ∨ token = defaultWord

theorem getLast?_toList_append {Value : Type} (first : Option Value) (values : List Value)
    (before : Option Value) :
    (first.toList ++ values).getLast?.or before = values.getLast?.or (first.or before) := by
  rw [List.getLast?_append]
  cases values.getLast? <;> cases first <;> rfl

theorem scanFields_field {field : Field} (isPlain : field.IsPlain) (rest : List Text)
    (login password : Option Text) :
    scanFields (field.tokens ++ rest) login password =
      scanFields rest (field.login?.or login) (field.password?.or password) := by
  have loginEntry : ¬ (loginWord = machineWord ∨ loginWord = defaultWord) := by decide
  have passwordEntry : ¬ (passwordWord = machineWord ∨ passwordWord = defaultWord) := by decide
  have accountEntry : ¬ (accountWord = machineWord ∨ accountWord = defaultWord) := by decide
  cases field with
  | login value =>
      rw [Field.tokens, List.cons_append, scanFields, if_neg loginEntry, if_pos rfl]
      rfl
  | password value =>
      rw [Field.tokens, List.cons_append, scanFields, if_neg passwordEntry, if_neg (by decide),
        if_pos rfl]
      rfl
  | account value =>
      have others : value.text ≠ machineWord ∧ value.text ≠ defaultWord ∧
          value.text ≠ loginWord ∧ value.text ≠ passwordWord := by
        simpa [Field.IsPlain, keywords] using isPlain
      rw [Field.tokens, List.cons_append, scanFields, if_neg accountEntry, if_neg (by decide),
        if_neg (by decide), List.cons_append, scanFields,
        if_neg (not_or.mpr ⟨others.1, others.2.1⟩), if_neg others.2.2.1, if_neg others.2.2.2]
      rfl

theorem scanFields_fields {fields : List Field} (arePlain : ∀ field ∈ fields, field.IsPlain)
    {rest : List Text} (atEntry : AtEntry rest) (login password : Option Text) :
    scanFields (fields.flatMap Field.tokens ++ rest) login password =
      ⟨(fields.filterMap Field.login?).getLast?.or login,
        (fields.filterMap Field.password?).getLast?.or password, rest⟩ := by
  induction fields generalizing login password with
  | nil =>
      cases rest with
      | nil => simp [scanFields]
      | cons token rest =>
          have isEntry : token = machineWord ∨ token = defaultWord := atEntry token rfl
          simp [scanFields, isEntry]
  | cons field fields ih =>
      have plainRest := fun later laterMem => arePlain later (List.mem_cons_of_mem field laterMem)
      have logins : (field :: fields).filterMap Field.login? =
          field.login?.toList ++ fields.filterMap Field.login? := by
        cases field <;> rfl
      have passwords : (field :: fields).filterMap Field.password? =
          field.password?.toList ++ fields.filterMap Field.password? := by
        cases field <;> rfl
      rw [List.flatMap_cons, List.append_assoc,
        scanFields_field (arePlain field List.mem_cons_self),
        ih plainRest, logins, passwords, getLast?_toList_append, getLast?_toList_append]

theorem atEntry_entries (entries : List Entry) : AtEntry (entries.flatMap Entry.tokens) := by
  intro token first
  cases entries with
  | nil => exact absurd first (by simp)
  | cons entry entries =>
      rcases entry with ⟨host, fields⟩
      cases host with
      | none => exact Or.inr (Option.mem_some_iff.mp first).symm
      | some host => exact Or.inl (Option.mem_some_iff.mp first).symm

def ScannedFields.credentials (fields : ScannedFields) : Option (Text × Text) :=
  match fields.login, fields.password with
  | some login, some password => some (login, password)
  | _, _ => none

theorem scanEntries_default (hostname : Text) (rest : List Text)
    (fallback : Option (Text × Text)) :
    scanEntries hostname (defaultWord :: rest) fallback =
      scanEntries hostname (scanFields rest none none).remaining
        ((scanFields rest none none).credentials.or fallback) := by
  rw [scanEntries]
  simp only [if_true, List.drop_zero, not_true_eq_false, and_false, if_false]
  generalize scanFields rest none none = fields
  rcases fields with ⟨login, password, remaining⟩
  cases login with
  | none => rfl
  | some login =>
      cases password with
      | none => rfl
      | some password => rfl

theorem scanEntries_machine (hostname host : Text) (rest : List Text)
    (fallback : Option (Text × Text)) :
    scanEntries hostname (machineWord :: host :: rest) fallback =
      (if host = hostname then (scanFields rest none none).credentials else none).or
        (scanEntries hostname (scanFields rest none none).remaining fallback) := by
  have noDefault : machineWord ≠ defaultWord := by decide
  rw [scanEntries]
  simp only [noDefault, if_false, List.drop_succ_cons, List.drop_zero, List.head?_cons,
    Option.some_inj, true_and, not_false_eq_true, and_true]
  generalize scanFields rest none none = fields
  rcases fields with ⟨login, password, remaining⟩
  by_cases isHost : host = hostname
  · rw [if_pos isHost]
    cases login with
    | none => rfl
    | some login =>
        cases password with
        | none => rfl
        | some password => exact if_pos isHost
  · rw [if_neg isHost]
    cases login with
    | none => rfl
    | some login =>
        cases password with
        | none => rfl
        | some password => exact if_neg isHost

/-- The scan finds the entries again. -/
theorem scanEntries_entries (hostname : Text) {entries : List Entry}
    (arePlain : ∀ entry ∈ entries, ∀ field ∈ entry.fields, field.IsPlain)
    (fallback : Option (Text × Text)) :
    scanEntries hostname (entries.flatMap Entry.tokens) fallback =
      (entries.findSome? fun entry =>
        if entry.IsFor hostname then entry.credentials else none).or
        ((entries.filterMap fun entry =>
          if entry.host.isNone then entry.credentials else none).getLast?.or fallback) := by
  induction entries generalizing fallback with
  | nil =>
      rw [List.flatMap_nil, scanEntries]
      rfl
  | cons entry entries ih =>
      have plainRest := fun later laterMem => arePlain later (List.mem_cons_of_mem entry laterMem)
      have fields := scanFields_fields (arePlain entry List.mem_cons_self)
        (atEntry_entries entries) none none
      rw [Option.or_none, Option.or_none] at fields
      rcases entry with ⟨host, entryFields⟩
      cases host with
      | none =>
          have tokens : (⟨none, entryFields⟩ :: entries).flatMap Entry.tokens =
              defaultWord :: (entryFields.flatMap Field.tokens ++
                entries.flatMap Entry.tokens) := rfl
          have notFor : ¬ (⟨none, entryFields⟩ : Entry).IsFor hostname := by simp [Entry.IsFor]
          have defaults : (⟨none, entryFields⟩ :: entries).filterMap (fun entry : Entry =>
              if entry.host.isNone then entry.credentials else none) =
              (⟨none, entryFields⟩ : Entry).credentials.toList ++
                entries.filterMap fun entry =>
                  if entry.host.isNone then entry.credentials else none := by
            rw [List.filterMap_cons, Option.isNone_none, if_pos rfl]
            cases (⟨none, entryFields⟩ : Entry).credentials <;> rfl
          rw [tokens, scanEntries_default, fields, ih plainRest, defaults,
            getLast?_toList_append, List.findSome?_cons, if_neg notFor]
          rfl
      | some host =>
          have tokens : (⟨some host, entryFields⟩ :: entries).flatMap Entry.tokens =
              machineWord :: host.text :: (entryFields.flatMap Field.tokens ++
                entries.flatMap Entry.tokens) := rfl
          have isFor : (⟨some host, entryFields⟩ : Entry).IsFor hostname ↔ host.text = hostname :=
            Option.some_inj
          rw [tokens, scanEntries_machine, fields, ih plainRest, List.filterMap_cons,
            List.findSome?_cons]
          simp only [isFor, Option.isNone_some, Bool.false_eq_true, if_false]
          split
          case isFalse => rfl
          case isTrue =>
              change (⟨some host, entryFields⟩ : Entry).credentials.or _ = _
              cases (⟨some host, entryFields⟩ : Entry).credentials <;> rfl

/-! ## Texts that are looked up -/

/-- The entry uses some tokens for its host, logins and passwords and some for its accounts. -/
def Field.Uses (values accounts : Set Token) : Field → Prop
  | .login value => value ∈ values
  | .password value => value ∈ values
  | .account value => value ∈ accounts

def Entry.Uses (values accounts : Set Token) (entry : Entry) : Prop :=
  (∀ host ∈ entry.host, host ∈ values) ∧ ∀ field ∈ entry.fields, field.Uses values accounts

/-- Every host is looked up in every text of entries that use given tokens. -/
def LooksUp (values accounts : Set Token) : Prop :=
  ∀ entries : List Entry, (∀ entry ∈ entries, entry.Uses values accounts) →
    ∀ source, IsNetrc entries source →
      ∀ hostname, netrcCredentials source hostname = lookup entries hostname

/-- No token has a hash, and no account is a keyword. -/
structure ArePlain (values accounts : Set Token) : Prop where
  noHash : ∀ token ∈ values ∪ accounts, '#' ∉ token.text
  noKeyword : ∀ account ∈ accounts, account.text ∉ keywords

theorem Field.Uses.noHash {values accounts : Set Token}
    (noHash : ∀ token ∈ values ∪ accounts, '#' ∉ token.text) {field : Field}
    (uses : field.Uses values accounts) : ∀ token ∈ field.tokens, '#' ∉ token := by
  intro token tokenMem
  cases field with
  | login value =>
      rcases List.mem_pair.mp tokenMem with rfl | rfl
      · decide
      · exact noHash value (Or.inl uses)
  | password value =>
      rcases List.mem_pair.mp tokenMem with rfl | rfl
      · decide
      · exact noHash value (Or.inl uses)
  | account value =>
      rcases List.mem_pair.mp tokenMem with rfl | rfl
      · decide
      · exact noHash value (Or.inr uses)

theorem Entry.Uses.noHash {values accounts : Set Token}
    (noHash : ∀ token ∈ values ∪ accounts, '#' ∉ token.text) {entry : Entry}
    (uses : entry.Uses values accounts) : ∀ token ∈ entry.tokens, '#' ∉ token := by
  intro token tokenMem
  rcases entry with ⟨host, fields⟩
  rcases List.mem_append.mp tokenMem with heading | inFields
  · cases host with
    | none =>
        rw [List.mem_singleton.mp heading]
        decide
    | some host =>
        rcases List.mem_pair.mp heading with rfl | rfl
        · decide
        · exact noHash host (Or.inl (uses.1 host rfl))
  · rcases List.mem_flatMap.mp inFields with ⟨field, fieldMem, tokenMem⟩
    exact (uses.2 field fieldMem).noHash noHash token tokenMem

theorem Field.Uses.isPlain {values accounts : Set Token} (plain : ArePlain values accounts)
    {field : Field} (uses : field.Uses values accounts) : field.IsPlain := by
  cases field with
  | login value => trivial
  | password value => trivial
  | account value => exact plain.noKeyword value uses

theorem looksUp_of_plain {values accounts : Set Token} (plain : ArePlain values accounts) :
    LooksUp values accounts := by
  intro entries uses source isNetrc hostname
  have tokens : netrcTokens source = entries.flatMap Entry.tokens := by
    apply netrcTokens_of_spells isNetrc
    intro token tokenMem
    rcases List.mem_flatMap.mp tokenMem with ⟨entry, entryMem, tokenMem⟩
    exact (uses entry entryMem).noHash plain.noHash token tokenMem
  have scanned := @scanEntries_entries hostname entries
    (fun entry entryMem field fieldMem => ((uses entry entryMem).2 field fieldMem).isPlain plain)
    none
  rw [Option.or_none] at scanned
  rw [netrcCredentials, tokens, scanned, lookup]

/-! ## Texts that are not -/

/-- Tokens in one line, with a space between them. -/
def line (tokens : List Text) : Text :=
  List.intercalate [' '] tokens

theorem spells_line {tokens : List Text}
    (areWords : ∀ token ∈ tokens, IsWord isRustWhitespace token) {fresh : Bool} :
    Spells fresh true tokens (line tokens) := by
  induction tokens generalizing fresh with
  | nil => exact .finish
  | cons token tokens ih =>
      have isWord := areWords token List.mem_cons_self
      have laterWords := fun later laterMem => areWords later (List.mem_cons_of_mem token laterMem)
      cases tokens with
      | nil =>
          have whole := @Spells.token fresh [] token [] isWord .finish
          rw [List.append_nil] at whole
          simpa [line, List.intercalate] using whole
      | cons next tokens =>
          rw [line, List.intercalate_cons_cons, List.append_assoc]
          apply Spells.token isWord
          exact Spells.blank (by decide) (ih laterWords)

theorem oneLine_line {tokens : List Text}
    (areWords : ∀ token ∈ tokens, IsWord isRustWhitespace token) : '\n' ∉ line tokens := by
  induction tokens with
  | nil => simp [line]
  | cons token tokens ih =>
      have notInToken : '\n' ∉ token := fun lineFeed =>
        absurd ((areWords token List.mem_cons_self).2 _ lineFeed) (by decide)
      have notLater := ih fun later laterMem => areWords later (List.mem_cons_of_mem token laterMem)
      cases tokens with
      | nil => simpa [line, List.intercalate_singleton] using notInToken
      | cons next tokens =>
          rw [line, List.intercalate_cons_cons, List.mem_append, List.mem_append]
          exact not_or.mpr ⟨not_or.mpr ⟨notInToken, by decide⟩, notLater⟩

/-- A hash cuts off the rest of the line. -/
theorem netrcTokens_hash {front : List Text} {token : Text} {back : List Text}
    (frontWords : ∀ word ∈ front, IsWord isRustWhitespace word ∧ '#' ∉ word)
    (isWord : IsWord isRustWhitespace token) (hasHash : '#' ∈ token)
    (backWords : ∀ word ∈ back, IsWord isRustWhitespace word) :
    ∃ cut : Option Text, netrcTokens (line (front ++ token :: back)) = front ++ cut.toList := by
  induction front with
  | nil =>
      rcases List.eq_append_cons_of_mem hasHash with ⟨kept, rest, rfl, noHash⟩
      have allWords : ∀ word ∈ (kept ++ '#' :: rest) :: back, IsWord isRustWhitespace word := by
        intro word wordMem
        rcases List.mem_cons.mp wordMem with rfl | inBack
        · exact isWord
        · exact backWords word inBack
      have cutOff : withoutComment (line ((kept ++ '#' :: rest) :: back)) = kept := by
        cases back with
        | nil =>
            rw [line, List.intercalate_singleton, withoutComment_append noHash,
              withoutComment_hash, List.append_nil]
        | cons next back =>
            rw [line, List.intercalate_cons_cons, List.append_assoc, List.append_assoc,
              List.cons_append, withoutComment_append noHash, withoutComment_hash,
              List.append_nil]
      rw [List.nil_append, netrcTokens_line (oneLine_line allWords), lineTokens, cutOff]
      by_cases isEmpty : kept = []
      · exact ⟨none, by rw [isEmpty]; rfl⟩
      · have keptWord : IsWord isRustWhitespace kept :=
          ⟨isEmpty, fun letter letterMem => isWord.2 letter (List.mem_append_left _ letterMem)⟩
        exact ⟨some kept, words_eq_singleton keptWord⟩
  | cons word front ih =>
      have isFirst := frontWords word List.mem_cons_self
      rcases ih fun later laterMem => frontWords later (List.mem_cons_of_mem _ laterMem) with
        ⟨cut, reads⟩
      refine ⟨cut, ?_⟩
      have whole : line (word :: front ++ token :: back) =
          word ++ ' ' :: line (front ++ token :: back) := by
        cases front with
        | nil =>
            rw [line, List.singleton_append, List.intercalate_cons_cons, List.append_assoc]
            rfl
        | cons next front =>
            rw [line, List.cons_append, List.cons_append, List.intercalate_cons_cons,
              List.append_assoc]
            rfl
      rw [whole, netrcTokens_token isFirst.1 isFirst.2 (by simp; decide),
        netrcTokens_blank (by decide), reads]
      rfl

theorem scanFields_singleton (token : Text) (login password : Option Text) :
    ((scanFields [token] login password).login = login ∨
      (scanFields [token] login password).login = none) ∧
    ((scanFields [token] login password).password = password ∨
      (scanFields [token] login password).password = none) ∧
    ((scanFields [token] login password).remaining = [] ∨
      (scanFields [token] login password).remaining = [token]) := by
  rw [scanFields]
  split
  case isTrue => exact ⟨Or.inl rfl, Or.inl rfl, Or.inr rfl⟩
  case isFalse =>
      split
      case isTrue => simp [scanFields]
      case isFalse => split <;> simp [scanFields]

theorem scanEntries_singleton (hostname token : Text) (fallback : Option (Text × Text)) :
    scanEntries hostname [token] fallback = fallback := by
  simp [scanEntries, scanFields]

theorem scanEntries_lastToken {hostname host : Text} {rest : List Text} {token : Text}
    {login password : Option Text}
    (scanned : scanFields rest none none = scanFields [token] login password)
    (incomplete : login = none ∨ password = none) :
    scanEntries hostname (machineWord :: host :: rest) none = none := by
  have single := scanFields_singleton token login password
  rw [← scanned] at single
  have noCredentials : (scanFields rest none none).credentials = none := by
    unfold ScannedFields.credentials
    rcases incomplete with rfl | rfl
    · rw [or_self_iff.mp single.1]
    · rw [or_self_iff.mp single.2.1]
      cases (scanFields rest none none).login <;> rfl
  rw [scanEntries_machine, noCredentials, ite_self, Option.none_or]
  rcases single.2.2 with remaining | remaining
  · rw [remaining, scanEntries]
  · rw [remaining, scanEntries_singleton]

/-- An entry in which an account stands between the login and the password, or in front of both. -/
def entryOf (value : Token) (fields : List Field) : Entry := ⟨some value, fields⟩

theorem lookup_entryOf {value login password : Token} {fields : List Field}
    (logins : fields.filterMap Field.login? = [login.text])
    (passwords : fields.filterMap Field.password? = [password.text]) :
    lookup [entryOf value fields] value.text = some (login.text, password.text) := by
  have isComplete : (entryOf value fields).credentials = some (login.text, password.text) := by
    simp only [Entry.credentials, entryOf, logins, passwords]
    rfl
  have isFor : (entryOf value fields).IsFor value.text := rfl
  rw [lookup, List.findSome?_cons, if_pos isFor, isComplete]
  rfl

theorem not_looksUp {values accounts : Set Token} {value : Token} {fields : List Field}
    (uses : (entryOf value fields).Uses values accounts)
    (areWords : ∀ token ∈ (entryOf value fields).tokens, IsWord isRustWhitespace token)
    (logins : fields.filterMap Field.login? = [value.text])
    (passwords : fields.filterMap Field.password? = [value.text])
    (nothing : netrcCredentials (line (entryOf value fields).tokens) value.text = none) :
    ¬ LooksUp values accounts := by
  intro looksUp
  have isNetrc : IsNetrc [entryOf value fields] (line (entryOf value fields).tokens) := by
    unfold IsNetrc
    rw [List.flatMap_singleton]
    exact spells_line areWords
  have found := looksUp [entryOf value fields] (by simpa using uses) _ isNetrc value.text
  rw [nothing, lookup_entryOf logins passwords] at found
  exact absurd found (by simp)

theorem isWord_of_all {word : Text} (notEmpty : word ≠ [])
    (noBlank : word.all (fun letter => !isRustWhitespace letter) = true) :
    IsWord isRustWhitespace word :=
  ⟨notEmpty, fun letter letterMem => by simpa using List.all_eq_true.mp noBlank letter letterMem⟩

theorem machineWord_isWord : IsWord isRustWhitespace machineWord :=
  isWord_of_all (by decide) rfl

theorem Field.tokens_areWords (field : Field) :
    ∀ token ∈ field.tokens, IsWord isRustWhitespace token := by
  intro token tokenMem
  cases field with
  | login value =>
      rcases List.mem_pair.mp tokenMem with rfl | rfl
      · exact isWord_of_all (by decide) rfl
      · exact value.isWord
  | password value =>
      rcases List.mem_pair.mp tokenMem with rfl | rfl
      · exact isWord_of_all (by decide) rfl
      · exact value.isWord
  | account value =>
      rcases List.mem_pair.mp tokenMem with rfl | rfl
      · exact isWord_of_all (by decide) rfl
      · exact value.isWord

theorem entryOf_areWords (value : Token) (fields : List Field) :
    ∀ token ∈ (entryOf value fields).tokens, IsWord isRustWhitespace token := by
  intro token tokenMem
  rcases List.mem_append.mp tokenMem with heading | inFields
  · rcases List.mem_pair.mp heading with rfl | rfl
    · exact machineWord_isWord
    · exact value.isWord
  · rcases List.mem_flatMap.mp inFields with ⟨field, _, inField⟩
    exact field.tokens_areWords token inField

theorem not_looksUp_of_hash {values accounts : Set Token} {value : Token} (isValue : value ∈ values)
    (hasHash : '#' ∈ value.text) : ¬ LooksUp values accounts := by
  apply @not_looksUp values accounts value [.login value, .password value]
  · exact ⟨by simpa [entryOf] using isValue, by simp [entryOf, Field.Uses, isValue]⟩
  · exact entryOf_areWords value _
  · rfl
  · rfl
  · have backWords : ∀ word ∈ [Field.login value, Field.password value].flatMap Field.tokens,
        IsWord isRustWhitespace word := by
      intro word wordMem
      rcases List.mem_flatMap.mp wordMem with ⟨field, _, inField⟩
      exact field.tokens_areWords word inField
    rcases @netrcTokens_hash [machineWord] value.text _
      (by simp [machineWord_isWord]; decide) value.isWord hasHash backWords with ⟨cut, reads⟩
    change netrcTokens (line (entryOf value [.login value, .password value]).tokens) = _ at reads
    rw [netrcCredentials, reads]
    cases cut with
    | none => exact scanEntries_singleton value.text machineWord none
    | some cut =>
        change scanEntries value.text (machineWord :: cut :: []) none = none
        rw [scanEntries_machine]
        simp [scanFields, scanEntries, ScannedFields.credentials]

theorem not_looksUp_of_accountHash {values accounts : Set Token} {value account : Token}
    (isValue : value ∈ values) (noHash : '#' ∉ value.text) (isAccount : account ∈ accounts)
    (hasHash : '#' ∈ account.text) : ¬ LooksUp values accounts := by
  apply @not_looksUp values accounts value [.account account, .login value, .password value]
  · exact ⟨by simpa [entryOf] using isValue, by simp [entryOf, Field.Uses, isValue, isAccount]⟩
  · exact entryOf_areWords value _
  · rfl
  · rfl
  · have backWords : ∀ word ∈ [Field.login value, Field.password value].flatMap Field.tokens,
        IsWord isRustWhitespace word := by
      intro word wordMem
      rcases List.mem_flatMap.mp wordMem with ⟨field, _, inField⟩
      exact field.tokens_areWords word inField
    have frontWords : ∀ word ∈ [machineWord, value.text, accountWord],
        IsWord isRustWhitespace word ∧ '#' ∉ word := by
      have isWord := (Field.account account).tokens_areWords accountWord List.mem_cons_self
      simp only [List.forall_mem_cons]
      exact ⟨⟨machineWord_isWord, by decide⟩, ⟨value.isWord, noHash⟩, ⟨isWord, by decide⟩,
        by simp⟩
    rcases netrcTokens_hash frontWords account.isWord hasHash backWords with ⟨cut, reads⟩
    change netrcTokens (line (entryOf value
      [.account account, .login value, .password value]).tokens) = _ at reads
    rw [netrcCredentials, reads]
    cases cut with
    | none => exact scanEntries_lastToken rfl (Or.inl rfl)
    | some cut =>
        apply @scanEntries_lastToken _ _ [accountWord, cut] cut none none
        · rw [scanFields, if_neg (by decide), if_neg (by decide), if_neg (by decide)]
        · exact Or.inl rfl

/-- What a keyword in the place of an account does to the fields behind it. -/
theorem scanEntries_keyword {value account : Token} (isKeyword : account.text ∈ keywords) :
    ∃ fields, (∀ field ∈ fields, field = .login value ∨ field = .password value ∨
        field = .account account) ∧
      fields.filterMap Field.login? = [value.text] ∧
      fields.filterMap Field.password? = [value.text] ∧
      scanEntries value.text (entryOf value fields).tokens none = none := by
  have skipsAccount : ∀ (rest : List Text) (login password : Option Text),
      scanFields (accountWord :: rest) login password = scanFields rest login password := by
    intro rest login password
    rw [scanFields, if_neg (by decide), if_neg (by decide), if_neg (by decide)]
  have takesLogin : ∀ (token : Text) (rest : List Text) (login password : Option Text),
      scanFields (loginWord :: token :: rest) login password =
        scanFields rest (some token) password := by
    intro token rest login password
    rw [scanFields, if_neg (by decide), if_pos rfl]
    rfl
  have takesPassword : ∀ (token : Text) (rest : List Text) (login password : Option Text),
      scanFields (passwordWord :: token :: rest) login password =
        scanFields rest login (some token) := by
    intro token rest login password
    rw [scanFields, if_neg (by decide), if_neg (by decide), if_pos rfl]
    rfl
  have stops : ∀ (token : Text) (rest : List Text) (login password : Option Text),
      token = machineWord ∨ token = defaultWord →
      scanFields (token :: rest) login password = ⟨login, password, token :: rest⟩ := by
    intro token rest login password isEntry
    rw [scanFields, if_pos isEntry]
  have loginFirst : (entryOf value [.login value, .account account, .password value]).tokens =
      [machineWord, value.text, loginWord, value.text, accountWord, account.text, passwordWord,
        value.text] := rfl
  have passwordFirst : (entryOf value [.password value, .account account, .login value]).tokens =
      [machineWord, value.text, passwordWord, value.text, accountWord, account.text, loginWord,
        value.text] := rfl
  have isOne : account.text = machineWord ∨ account.text = defaultWord ∨
      account.text = loginWord ∨ account.text = passwordWord := by
    simpa [keywords] using isKeyword
  rcases isOne with isMachine | isDefault | isLogin | isPassword
  · refine ⟨[.login value, .account account, .password value], by simp, rfl, rfl, ?_⟩
    rw [loginFirst, scanEntries_machine, takesLogin, skipsAccount, stops _ _ _ _ (Or.inl isMachine),
      isMachine, scanEntries_lastToken rfl (Or.inl rfl)]
    simp [ScannedFields.credentials]
  · refine ⟨[.login value, .account account, .password value], by simp, rfl, rfl, ?_⟩
    rw [loginFirst, scanEntries_machine, takesLogin, skipsAccount, stops _ _ _ _ (Or.inr isDefault),
      isDefault, scanEntries_default, takesPassword, scanFields, scanEntries]
    simp [ScannedFields.credentials]
  · refine ⟨[.login value, .account account, .password value], by simp, rfl, rfl, ?_⟩
    rw [loginFirst, isLogin]
    refine @scanEntries_lastToken _ _ _ value.text (some passwordWord) none ?_ (Or.inr rfl)
    rw [takesLogin, skipsAccount, takesLogin]
  · refine ⟨[.password value, .account account, .login value], by simp, rfl, rfl, ?_⟩
    rw [passwordFirst, isPassword]
    refine @scanEntries_lastToken _ _ _ value.text none (some loginWord) ?_ (Or.inl rfl)
    rw [takesPassword, skipsAccount, takesPassword]

/-- Every host is looked up exactly if no token has a hash and no account is a keyword. -/
theorem looksUp_iff {values accounts : Set Token} (someValue : values.Nonempty) :
    LooksUp values accounts ↔ ArePlain values accounts := by
  refine ⟨?_, looksUp_of_plain⟩
  intro looksUp
  rcases someValue with ⟨value, isValue⟩
  have valuesPlain : ∀ token ∈ values, '#' ∉ token.text := fun token tokenMem hasHash =>
    not_looksUp_of_hash tokenMem hasHash looksUp
  have accountsPlain : ∀ token ∈ accounts, '#' ∉ token.text := fun token tokenMem hasHash =>
    not_looksUp_of_accountHash isValue (valuesPlain value isValue) tokenMem hasHash looksUp
  refine ⟨?_, ?_⟩
  · rintro token (tokenMem | tokenMem)
    · exact valuesPlain token tokenMem
    · exact accountsPlain token tokenMem
  · intro account isAccount isKeyword
    rcases @scanEntries_keyword value account isKeyword with
      ⟨fields, members, logins, passwords, nothing⟩
    have uses : (entryOf value fields).Uses values accounts := by
      refine ⟨by simpa [entryOf] using isValue, ?_⟩
      intro field fieldMem
      rcases members field fieldMem with rfl | rfl | rfl
      · exact isValue
      · exact isValue
      · exact isAccount
    refine not_looksUp uses (entryOf_areWords value fields) logins passwords ?_ looksUp
    have tokens : netrcTokens (line (entryOf value fields).tokens) =
        (entryOf value fields).tokens := by
      apply netrcTokens_of_spells (@spells_line _ (entryOf_areWords value fields) true)
      have noHash : ∀ token ∈ values ∪ accounts, '#' ∉ token.text := by
        rintro token (tokenMem | tokenMem)
        · exact valuesPlain token tokenMem
        · exact accountsPlain token tokenMem
      exact uses.noHash noHash
    rw [netrcCredentials, tokens, nothing]

def letterToken (letter : Char) (visible : isRustWhitespace letter = false) : Token where
  text := [letter]
  isWord := ⟨by simp, fun item itemMem => by rwa [List.mem_singleton.mp itemMem]⟩

/-- Every text over tokens without a hash is looked up right if its accounts are no keywords. -/
theorem plainTokens_lookUp :
    LooksUp {token | '#' ∉ token.text} {token | '#' ∉ token.text ∧ token.text ∉ keywords} := by
  have someValue : {token : Token | '#' ∉ token.text}.Nonempty :=
    ⟨letterToken 'a' rfl, by simp [letterToken]⟩
  refine (looksUp_iff someValue).mpr ⟨?_, fun account plain => plain.2⟩
  rintro token (plain | plain)
  · exact plain
  · exact plain.1

def hashToken : Token where
  text := "c#d".toList
  isWord := isWord_of_all (by decide) rfl

/-- In the text machine a login b password c#d, the password is cut. -/
theorem hashPassword_cut :
    netrcCredentials (line [machineWord, ['a'], loginWord, ['b'], passwordWord, "c#d".toList])
        ['a'] = some (['b'], ['c']) ∧
      ¬ LooksUp Set.univ Set.univ := by
  have areWords := entryOf_areWords (letterToken 'a' rfl)
    [.login (letterToken 'b' rfl), .password hashToken]
  change ∀ token ∈ [machineWord, ['a'], loginWord, ['b'], passwordWord, "c#d".toList],
    IsWord isRustWhitespace token at areWords
  have cut : netrcCredentials
      (line [machineWord, ['a'], loginWord, ['b'], passwordWord, "c#d".toList]) ['a'] =
        some (['b'], ['c']) := by
    have shortWords := entryOf_areWords (letterToken 'a' rfl)
      [.login (letterToken 'b' rfl), .password (letterToken 'c' rfl)]
    change ∀ token ∈ [machineWord, ['a'], loginWord, ['b'], passwordWord, ['c']],
      IsWord isRustWhitespace token at shortWords
    have short := netrcTokens_of_spells (@spells_line _ shortWords true) (by decide)
    have sameTokens : withoutComment
        (line [machineWord, ['a'], loginWord, ['b'], passwordWord, "c#d".toList]) =
        withoutComment (line [machineWord, ['a'], loginWord, ['b'], passwordWord, ['c']]) := by
      decide
    rw [netrcTokens_line (oneLine_line shortWords), lineTokens, ← sameTokens] at short
    have tokens := netrcTokens_line (oneLine_line areWords)
    rw [lineTokens, short] at tokens
    have fields : scanFields [loginWord, ['b'], passwordWord, ['c']] none none =
        ⟨some ['b'], some ['c'], []⟩ :=
      @scanFields_fields [.login (letterToken 'b' rfl), .password (letterToken 'c' rfl)]
        (by simp [Field.IsPlain]) [] (by simp [AtEntry]) none none
    rw [netrcCredentials, tokens, scanEntries_machine, if_pos rfl, fields]
    rfl
  refine ⟨cut, ?_⟩
  intro looksUp
  have uses : ∀ entry ∈ [entryOf (letterToken 'a' rfl)
      [.login (letterToken 'b' rfl), .password hashToken]],
      entry.Uses Set.univ Set.univ := by
    simp [entryOf, Entry.Uses, Field.Uses]
  have found := looksUp _ uses _ (@spells_line _ areWords true) ['a']
  have expected := @lookup_entryOf (letterToken 'a' rfl) (letterToken 'b' rfl) hashToken
    [.login (letterToken 'b' rfl), .password hashToken] rfl rfl
  rw [cut] at found
  have sameLength := congrArg (Option.map fun pair => pair.2.length) (found.trans expected)
  exact absurd sameLength (by decide)

end Brunomnia.Netrc
