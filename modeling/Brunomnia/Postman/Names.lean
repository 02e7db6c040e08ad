import Brunomnia.Library.Lists
import Brunomnia.Postman.Requests

/-!
# Names in URLs

The import puts braces around every name behind a colon. What is meant are whole segments of the
path: everywhere else a name makes the URL longer than it should be.
-/

namespace Brunomnia.Postman

open Codegen (Text)

variable {text before after : Text}

/-! ## Replacing names -/

/-- A colon is followed by a name. -/
def HasName (text : Text) : Prop :=
  ∃ before letter after, text = before ++ ':' :: letter :: after ∧ isNameStart letter = true

def isNameLetter (letter : Char) : Bool :=
  isWordLetter letter || letter = '-'

theorem isNameLetter_of_start {letter : Char} (isStart : isNameStart letter = true) :
    isNameLetter letter = true := by
  unfold isNameStart at isStart
  unfold isNameLetter isWordLetter Char.isAlphanum
  rw [Bool.or_eq_true] at isStart
  rcases isStart with isAlpha | isUnderscore
  · simp [isAlpha]
  · simp [isUnderscore]

theorem nameAt_cons (letter : Char) (rest : Text) :
    nameAt (letter :: rest) =
      if isNameStart letter then letter :: rest.takeWhile isNameLetter else [] := rfl

theorem nameAt_isPart (text : Text) : nameAt text <+: text := by
  cases text with
  | nil => exact List.prefix_rfl
  | cons letter rest =>
      rw [nameAt_cons]
      split
      case isTrue => exact List.prefix_cons_inj letter |>.mpr (List.takeWhile_prefix _)
      case isFalse => exact List.nil_prefix

theorem nameAt_append_drop (text : Text) : nameAt text ++ text.drop (nameAt text).length = text :=
  List.prefix_iff_eq_append.mp (nameAt_isPart text)

theorem nameAt_length_le (text : Text) : (nameAt text).length ≤ text.length :=
  (nameAt_isPart text).length_le

theorem nameAt_ne_nil_iff :
    nameAt text ≠ [] ↔ ∃ letter rest, text = letter :: rest ∧ isNameStart letter = true := by
  cases text with
  | nil => simp [nameAt]
  | cons letter rest =>
      rw [nameAt_cons]
      split
      case isTrue isStart => simp [isStart]
      case isFalse notStart => simp [notStart]

/-- No letter of a name stands at the start. -/
def StartsOutside (text : Text) : Prop :=
  ∀ letter ∈ text.head?, isNameLetter letter = false

theorem nameAt_append (outside : StartsOutside after) :
    nameAt (before ++ after) = nameAt before := by
  have notTaken : after.takeWhile isNameLetter = [] := by
    cases after with
    | nil => rfl
    | cons letter rest =>
        exact List.takeWhile_cons_of_neg (by simp [outside letter rfl])
  cases before with
  | nil =>
      cases after with
      | nil => rfl
      | cons letter rest =>
          have notStart : ¬ isNameStart letter = true := by
            intro isStart
            exact absurd (isNameLetter_of_start isStart) (by simp [outside letter rfl])
          exact if_neg notStart
  | cons letter rest =>
      have taken : (rest ++ after).takeWhile isNameLetter = rest.takeWhile isNameLetter := by
        rw [List.takeWhile_append]
        split
        case isTrue => rw [notTaken, List.append_nil, (List.takeWhile_prefix _).eq_of_length ‹_›]
        case isFalse => rfl
      rw [List.cons_append, nameAt_cons, nameAt_cons, taken]

theorem replaceNamesFrom_eq (skipped : ℕ) (text : Text) :
    replaceNamesFrom skipped text = replaceNames (text.drop skipped) := by
  induction text generalizing skipped with
  | nil => cases skipped <;> rfl
  | cons letter rest ih =>
      cases skipped with
      | zero => rfl
      | succ skipped => exact ih skipped

@[simp]
theorem replaceNames_nil : replaceNames [] = [] := rfl

theorem replaceNames_name (isName : nameAt text ≠ []) :
    replaceNames (':' :: text) =
      '\x7b' :: nameAt text ++ '\x7d' :: replaceNames (text.drop (nameAt text).length) := by
  rw [← replaceNamesFrom_eq]
  exact if_pos ⟨rfl, isName⟩

theorem replaceNames_letter {letter : Char} (noName : ¬ (letter = ':' ∧ nameAt text ≠ [])) :
    replaceNames (letter :: text) = letter :: replaceNames text :=
  if_neg noName

theorem names_induct {Holds : Text → Prop} (nil : Holds [])
    (name : ∀ text, nameAt text ≠ [] → Holds (text.drop (nameAt text).length) →
      Holds (':' :: text))
    (letter : ∀ letter text, ¬ (letter = ':' ∧ nameAt text ≠ []) → Holds text →
      Holds (letter :: text)) : ∀ text, Holds text
  | [] => nil
  | first :: rest => by
      by_cases isName : first = ':' ∧ nameAt rest ≠ []
      · rcases isName with ⟨rfl, notEmpty⟩
        exact name rest notEmpty (names_induct nil name letter _)
      · exact letter first rest isName (names_induct nil name letter rest)
termination_by text => text.length
decreasing_by
  · simp only [List.length_drop, List.length_cons]
    omega
  · simp

theorem replaceNames_append (outside : StartsOutside after) :
    replaceNames (before ++ after) = replaceNames before ++ replaceNames after := by
  induction before using names_induct with
  | nil => rfl
  | name text isName ih =>
      have sameName := @nameAt_append text after outside
      rw [List.cons_append, replaceNames_name (sameName ▸ isName), replaceNames_name isName,
        sameName, List.drop_append_of_le_length (nameAt_length_le text), ih]
      simp
  | letter letter text noName ih =>
      have sameName := @nameAt_append text after outside
      rw [List.cons_append, replaceNames_letter (by rwa [sameName]), replaceNames_letter noName, ih,
        List.cons_append]

/-- Names make a text longer, and nothing else is changed. -/
theorem replaceNames_length (text : Text) :
    text.length ≤ (replaceNames text).length ∧
      (HasName text → text.length < (replaceNames text).length) := by
  induction text using names_induct with
  | nil =>
      refine ⟨le_rfl, ?_⟩
      rintro ⟨before, letter, after, isText, _⟩
      exact absurd isText (by simp)
  | name text isName ih =>
      have shorter := nameAt_length_le text
      have behind := ih.1
      rw [replaceNames_name isName]
      simp only [List.length_cons, List.length_append, List.length_drop] at behind ⊢
      exact ⟨by omega, fun _ => by omega⟩
  | letter letter text noName ih =>
      rw [replaceNames_letter noName]
      simp only [List.length_cons]
      refine ⟨by omega, ?_⟩
      rintro ⟨before, start, after, isText, isStart⟩
      cases before with
      | nil =>
          rw [List.nil_append, List.cons.injEq] at isText
          exact absurd ⟨isText.1, nameAt_ne_nil_iff.mpr ⟨start, after, isText.2, isStart⟩⟩ noName
      | cons first before =>
          rw [List.cons_append, List.cons.injEq] at isText
          have longer := ih.2 ⟨before, start, after, isText.2, isStart⟩
          omega

theorem replaceNames_of_not_hasName (noName : ¬ HasName text) : replaceNames text = text := by
  induction text using names_induct with
  | nil => rfl
  | name text isName _ =>
      rcases nameAt_ne_nil_iff.mp isName with ⟨letter, rest, rfl, isStart⟩
      exact absurd ⟨[], letter, rest, rfl, isStart⟩ noName
  | letter letter text notName ih =>
      rw [replaceNames_letter notName, ih]
      rintro ⟨before, start, after, rfl, isStart⟩
      exact noName ⟨letter :: before, start, after, rfl, isStart⟩

theorem replaceNames_length_eq_iff :
    (replaceNames text).length = text.length ↔ ¬ HasName text := by
  constructor
  · intro sameLength hasName
    have longer := (replaceNames_length text).2 hasName
    omega
  · intro noName
    rw [replaceNames_of_not_hasName noName]

/-! ## Plain letters -/

/-- The letters that replacing names neither adds nor removes. -/
def isPlain (letter : Char) : Bool :=
  letter ≠ ':' && letter ≠ '\x7b' && letter ≠ '\x7d'

def plainLength (text : Text) : ℕ :=
  text.countP isPlain

@[simp]
theorem plainLength_append (before after : Text) :
    plainLength (before ++ after) = plainLength before + plainLength after :=
  List.countP_append

theorem plainLength_replaceNames (text : Text) :
    plainLength (replaceNames text) = plainLength text := by
  induction text using names_induct with
  | nil => rfl
  | name text isName ih =>
      have parts := congrArg plainLength (nameAt_append_drop text)
      rw [plainLength_append] at parts
      rw [replaceNames_name isName, plainLength_append]
      unfold plainLength at ih parts ⊢
      simp only [List.countP_cons, ih]
      simp only [isPlain, ne_eq, not_true_eq_false, decide_false, Bool.false_and, Bool.and_false,
        Bool.false_eq_true, if_false]
      omega
  | letter letter text noName ih =>
      rw [replaceNames_letter noName]
      unfold plainLength at ih ⊢
      rw [List.countP_cons, List.countP_cons, ih]

theorem plainLength_pos_of_mem {letter : Char} (letterMem : letter ∈ text)
    (plain : isPlain letter = true) : 0 < plainLength text :=
  List.countP_pos_iff.mpr ⟨letter, letterMem, plain⟩

/-! ## Segments -/

def isNameSegment (segment : Text) : Bool :=
  segment.head? = some ':' && segment.tail ≠ [] && nameAt segment.tail = segment.tail

/-- `:name` becomes a name in braces. -/
def expectedSegment (segment : Text) : Text :=
  if isNameSegment segment then '\x7b' :: segment.tail ++ ['\x7d'] else segment

/-- A name is a whole segment. -/
def SegmentKept (segment : Text) : Prop :=
  isNameSegment segment = true ∨ ¬ HasName segment

theorem replaceNames_segment {segment : Text} (kept : SegmentKept segment) :
    replaceNames segment = expectedSegment segment := by
  unfold expectedSegment
  cases isName : isNameSegment segment with
  | false =>
      have noName : ¬ HasName segment := by
        rcases kept with isSegment | noName
        · exact absurd isSegment (by simp [isName])
        · exact noName
      exact replaceNames_of_not_hasName noName
  | true =>
      simp only [isNameSegment, Bool.and_eq_true, decide_eq_true_eq] at isName
      cases segment with
      | nil => exact absurd isName.1.1 (by simp)
      | cons letter name =>
          rcases isName with ⟨⟨isColon, notEmpty⟩, whole⟩
          rw [List.head?_cons, Option.some.injEq] at isColon
          rw [List.tail_cons] at whole notEmpty
          rw [isColon, replaceNames_name (by rwa [whole]), whole, List.drop_length]
          rfl

theorem expectedSegment_length_le (segment : Text) :
    (expectedSegment segment).length ≤ (replaceNames segment).length ∧
      ((replaceNames segment).length = (expectedSegment segment).length → SegmentKept segment) := by
  cases isName : isNameSegment segment with
  | true =>
      have kept : SegmentKept segment := Or.inl isName
      rw [replaceNames_segment kept]
      exact ⟨le_rfl, fun _ => kept⟩
  | false =>
      have unchanged : expectedSegment segment = segment := by
        rw [expectedSegment, isName]
        rfl
      rw [unchanged]
      refine ⟨(replaceNames_length segment).1, fun same => Or.inr ?_⟩
      exact replaceNames_length_eq_iff.mp same

theorem plainLength_expectedSegment (segment : Text) :
    plainLength (expectedSegment segment) = plainLength segment := by
  cases isName : isNameSegment segment with
  | true =>
      have kept : SegmentKept segment := Or.inl isName
      rw [← replaceNames_segment kept]
      exact plainLength_replaceNames segment
  | false =>
      rw [expectedSegment, isName]
      rfl

end Brunomnia.Postman
