import Brunomnia.Library.Lists
import Brunomnia.Templates.Tags

/-!
# Tags that come back

A tag that the dialog has written is found again in any text, and its name and arguments are read
back, except for three things: an argument that closes the tag, white space at the ends of an
argument, and a brace in front of the tag that makes an expression of it.
-/

namespace Brunomnia.Templates

open Codegen (Text trimText templateAt)
open Library

/-! ## Pairs in a tag -/

section Pairs

variable {first second : Char}

attribute [local simp] tagArgumentsFrom renderTagsAfter renderEnvironmentAfter

theorem head?_escaped (firstSafe : first ≠ '\\' ∧ first ≠ '\'') (value : Text) :
    (escaped value).head? = some first ↔ value.head? = some first := by
  cases value with
  | nil => rfl
  | cons letter value =>
      rw [escaped, List.flatMap_cons, escapeLetter]
      split
      case isTrue isBackslash =>
        simp [isBackslash, Ne.symm firstSafe.1]
      case isFalse =>
        split
        case isTrue isQuote => simp [isQuote, Ne.symm firstSafe.1, Ne.symm firstSafe.2]
        case isFalse => simp

theorem pairFree_escaped (firstSafe : first ≠ '\\' ∧ first ≠ '\'')
    (secondSafe : second ≠ '\\' ∧ second ≠ '\'') (value : Text) :
    PairFree first second (escaped value) ↔ PairFree first second value := by
  induction value with
  | nil => rfl
  | cons letter value ih =>
      have head := head?_escaped secondSafe value
      rw [pairFree_cons, ← ih, escaped, List.flatMap_cons, ← escaped, escapeLetter]
      split
      case isTrue isBackslash =>
        rw [isBackslash, List.cons_append, List.singleton_append,
          pairFree_cons_of_ne firstSafe.1.symm, pairFree_cons_of_ne firstSafe.1.symm]
        simp [firstSafe.1.symm]
      case isFalse notBackslash =>
        split
        case isTrue isQuote =>
          rw [isQuote, List.cons_append, List.singleton_append,
            pairFree_cons_of_ne firstSafe.1.symm, pairFree_cons_of_ne firstSafe.2.symm]
          simp [firstSafe.2.symm]
        case isFalse => rw [List.singleton_append, pairFree_cons, head]

theorem pairFree_quoted (firstSafe : first ≠ '\\' ∧ first ≠ '\'')
    (secondSafe : second ≠ '\\' ∧ second ≠ '\'') (value : Text) :
    PairFree first second (quoted value) ↔ PairFree first second value := by
  rw [quoted, List.append_assoc, List.singleton_append, pairFree_cons_of_ne firstSafe.2.symm,
    pairFree_append_cons firstSafe.2.symm secondSafe.2.symm, pairFree_escaped firstSafe secondSafe]
  simp

theorem quotedList_cons (value : Text) {values : List Text} (notEmpty : values ≠ []) :
    quotedList (value :: values) = quoted value ++ ',' :: ' ' :: quotedList values := by
  rcases List.exists_cons_of_ne_nil notEmpty with ⟨next, others, rfl⟩
  rw [quotedList, quotedList, List.map_cons, List.map_cons, intercalate_cons, intercalate_cons,
    List.flatMap_cons, List.append_assoc]
  rfl

theorem quotedList_single (value : Text) : quotedList [value] = quoted value := by
  simp [quotedList, List.intercalate]

/-- The characters of a separator are in no pair. -/
structure IsPlainPair (first second : Char) : Prop where
  firstSafe : first ≠ '\\' ∧ first ≠ '\''
  secondSafe : second ≠ '\\' ∧ second ≠ '\''
  firstOther : first ≠ ',' ∧ first ≠ ' '
  secondOther : second ≠ ',' ∧ second ≠ ' '

theorem IsPlainPair.quotedList (plain : IsPlainPair first second) {values : List Text} :
    PairFree first second (quotedList values) ↔
      ∀ value ∈ values, PairFree first second value := by
  induction values with
  | nil => simp [Templates.quotedList, List.intercalate]
  | cons value values ih =>
      rw [List.forall_mem_cons, ← ih, ← pairFree_quoted plain.firstSafe plain.secondSafe value]
      by_cases isLast : values = []
      · rw [isLast, quotedList_single]
        simp [Templates.quotedList, List.intercalate]
      · rw [quotedList_cons value isLast,
          pairFree_append_cons plain.firstOther.1.symm plain.secondOther.1.symm,
          pairFree_cons_of_ne plain.firstOther.2.symm]

theorem closing_plain : IsPlainPair '%' '}' :=
  ⟨by decide, by decide, by decide, by decide⟩

theorem braces_plain : IsPlainPair '{' '{' :=
  ⟨by decide, by decide, by decide, by decide⟩

end Pairs

/-! ## Arguments -/

section Arguments

variable (rest : Text) (values : List Text) (value : Text)

theorem read_escaped (argument : Text) :
    tagArgumentsFrom (escaped argument ++ rest) values value (some '\'') false =
      tagArgumentsFrom rest values (value ++ argument) (some '\'') false := by
  induction argument generalizing value with
  | nil => simp [escaped]
  | cons letter argument ih =>
      rw [escaped, List.flatMap_cons, List.append_assoc, ← escaped, escapeLetter]
      split
      case isTrue isBackslash =>
        rw [List.cons_append, List.cons_append, List.nil_append, tagArgumentsFrom, if_pos rfl,
          tagArgumentsFrom, ih, isBackslash, List.append_assoc, List.singleton_append]
      case isFalse notBackslash =>
        split
        case isTrue isQuote =>
          rw [List.cons_append, List.cons_append, List.nil_append, tagArgumentsFrom, if_pos rfl,
            tagArgumentsFrom, ih, isQuote, List.append_assoc, List.singleton_append]
        case isFalse notQuote =>
          rw [List.singleton_append, tagArgumentsFrom, if_neg notBackslash, if_neg notQuote, ih,
            List.append_assoc, List.singleton_append]

theorem read_quoted (argument : Text) :
    tagArgumentsFrom (quoted argument ++ rest) values value none false =
      tagArgumentsFrom rest values (value ++ argument) none false := by
  rw [quoted, List.append_assoc, List.append_assoc, List.singleton_append, tagArgumentsFrom,
    if_pos (Or.inr rfl), read_escaped, List.singleton_append, tagArgumentsFrom,
    if_neg (by decide), if_pos rfl]

end Arguments

theorem trimText_blank_append {blank : Text} (isBlank : ∀ letter ∈ blank, isWhiteSpace letter)
    (text : Text) : trimText (blank ++ text) = trimText text := by
  rw [trimText, List.dropWhile_append_of_pos isBlank, trimText]

theorem read_quotedList {arguments : List Text} (notEmpty : arguments ≠ []) (values : List Text)
    {blank : Text} (isBlank : ∀ letter ∈ blank, isWhiteSpace letter) :
    (tagArgumentsFrom (quotedList arguments) values blank none false).1 ++
        [trimText (tagArgumentsFrom (quotedList arguments) values blank none false).2] =
      values ++ arguments.map trimText := by
  induction arguments generalizing values blank with
  | nil => exact absurd rfl notEmpty
  | cons argument arguments ih =>
      by_cases isLast : arguments = []
      · have read := read_quoted [] values blank argument
        rw [List.append_nil] at read
        rw [isLast, quotedList_single, read, tagArgumentsFrom]
        simp [trimText_blank_append isBlank]
      · have spaceBlank : ∀ letter ∈ [' '], isWhiteSpace letter = true := by
          intro letter mem
          rw [List.mem_singleton.mp mem]
          decide
        rw [quotedList_cons argument isLast, read_quoted, tagArgumentsFrom, if_neg (by decide),
          if_pos rfl, tagArgumentsFrom, if_neg (by decide), if_neg (by decide), List.nil_append,
          ih isLast _ spaceBlank, trimText_blank_append isBlank]
        simp

theorem quotedList_ends {arguments : List Text} (notEmpty : arguments ≠ []) :
    ∃ content, quotedList arguments = '\'' :: content ∧
      (quotedList arguments).getLast? = some '\'' := by
  induction arguments with
  | nil => exact absurd rfl notEmpty
  | cons argument arguments ih =>
      by_cases isLast : arguments = []
      · rw [isLast, quotedList_single]
        exact ⟨_, rfl, List.getLast?_concat⟩
      · rcases ih isLast with ⟨content, eq, last⟩
        rw [quotedList_cons argument isLast]
        refine ⟨_, rfl, ?_⟩
        rw [List.getLast?_append, List.getLast?_cons, List.getLast?_cons, last]
        rfl

theorem trimText_quotedList {arguments : List Text} (notEmpty : arguments ≠ []) :
    trimText (quotedList arguments ++ [' ']) = quotedList arguments := by
  rcases quotedList_ends notEmpty with ⟨content, eq, last⟩
  rcases List.getLast?_eq_some_iff.mp last with ⟨front, frontEq⟩
  have quoteVisible : isWhiteSpace '\'' = false := by decide
  have spaceBlank : isWhiteSpace ' ' = true := by decide
  unfold trimText
  rw [eq, List.cons_append, List.dropWhile_cons_of_neg (by simp [quoteVisible]),
    ← List.cons_append, ← eq, List.reverse_append, List.reverse_singleton,
    List.singleton_append, List.dropWhile_cons_of_pos spaceBlank, frontEq, List.reverse_append,
    List.reverse_singleton, List.singleton_append,
    List.dropWhile_cons_of_neg (by simp [quoteVisible])]
  simp

/-- Arguments that are missing at the end are read as empty. -/
def SameArguments (read written : List Text) : Prop :=
  ∀ index : ℕ, (read[index]?).getD [] = (written[index]?).getD []

theorem SameArguments.refl (read : List Text) : SameArguments read read := fun _ => rfl

theorem comma_mem_quotedList {arguments : List Text}
    (several : 2 ≤ arguments.length) : ',' ∈ quotedList arguments := by
  match arguments with
  | first :: second :: others =>
      rw [quotedList_cons first (List.cons_ne_nil second others)]
      simp

/-- The arguments of a tag come back without the white space around them. -/
theorem tagArguments_quotedList {arguments : List Text} (notEmpty : arguments ≠ []) :
    SameArguments (tagArguments (quotedList arguments ++ [' '])) (arguments.map trimText) := by
  have read := @read_quotedList arguments notEmpty [] [] (by simp)
  rw [List.nil_append] at read
  unfold tagArguments
  rw [trimText_quotedList notEmpty]
  dsimp only
  split
  case isTrue =>
    rw [read]
    exact .refl _
  case isFalse alone =>
    rw [not_or, not_not] at alone
    have single : arguments.length < 2 := by
      by_contra several
      apply alone.2
      exact List.mem_append_left _ (comma_mem_quotedList (Nat.not_lt.mp several))
    rw [← read, alone.1]
    intro index
    have lengths := congrArg List.length read
    rw [List.length_append, List.length_map, List.length_singleton] at lengths
    have noValues : (tagArgumentsFrom (quotedList arguments) [] [] none false).1 = [] := by
      apply List.eq_nil_of_length_eq_zero
      omega
    rw [noValues]
    cases index <;> simp

theorem sameArguments_trim_iff (arguments : List Text) :
    SameArguments (arguments.map trimText) arguments ↔
      ∀ argument ∈ arguments, trimText argument = argument := by
  constructor
  · intro same argument mem
    rcases List.getElem?_of_mem mem with ⟨index, isArgument⟩
    have equal := same index
    rw [List.getElem?_map, isArgument] at equal
    exact equal
  · intro trimmed
    have unchanged : arguments.map trimText = arguments.map id := List.map_congr_left trimmed
    rw [unchanged, List.map_id]
    exact .refl arguments

theorem SameArguments.trans {read middle written : List Text} (first : SameArguments read middle)
    (second : SameArguments middle written) : SameArguments read written :=
  fun index => (first index).trans (second index)

theorem SameArguments.symm {read written : List Text} (same : SameArguments read written) :
    SameArguments written read :=
  fun index => (same index).symm

/-! ## Finding tags -/

def IsTagName (name : Text) : Prop :=
  ∃ initial others, name = initial :: others ∧ initial.isAlpha = true ∧
    ∀ letter ∈ others, isNameLetter letter = true

theorem isAlpha_visible {letter : Char} (isAlpha : letter.isAlpha = true) :
    isWhiteSpace letter = false := by
  have range : 65 ≤ letter.toNat ∧ letter.toNat ≤ 122 := by
    rw [Char.isAlpha, Bool.or_eq_true, Char.isUpper, Char.isLower] at isAlpha
    simp only [Bool.and_eq_true, decide_eq_true_eq, ge_iff_le, UInt32.le_iff_toNat_le] at isAlpha
    have same : letter.val.toNat = letter.toNat := rfl
    rw [same] at isAlpha
    rcases isAlpha with ⟨lower, upper⟩ | ⟨lower, upper⟩
    · exact ⟨lower, le_trans upper (by decide)⟩
    · exact ⟨le_trans (by decide) lower, upper⟩
  unfold isWhiteSpace
  simp
  omega

theorem rawTagAt_text {name : Text} (isName : IsTagName name) (behind : Text) :
    rawTagAt (['{', '%', ' '] ++ name ++ ' ' :: '\'' :: behind) =
      (untilPair '%' '}' ('\'' :: behind)).map fun source =>
        (name, source, name.length + source.length + 6) := by
  rcases isName with ⟨initial, others, rfl, isAlpha, areNameLetters⟩
  have spaceBlank : isWhiteSpace ' ' = true := by decide
  have quoteVisible : isWhiteSpace '\'' = false := by decide
  have spaceEnds : isNameLetter ' ' = false := by decide
  have front : ((['{', '%', ' '] ++ initial :: others ++ ' ' :: '\'' :: behind).drop 2).dropWhile
      isWhiteSpace = initial :: (others ++ ' ' :: '\'' :: behind) := by
    change (' ' :: initial :: (others ++ ' ' :: '\'' :: behind)).dropWhile isWhiteSpace = _
    rw [List.dropWhile_cons_of_pos spaceBlank,
      List.dropWhile_cons_of_neg (by simp [isAlpha_visible isAlpha])]
  have named : (others ++ ' ' :: '\'' :: behind).takeWhile isNameLetter = others := by
    rw [List.takeWhile_append_of_pos areNameLetters,
      List.takeWhile_cons_of_neg (by simp [spaceEnds]), List.append_nil]
  have rest : ((others ++ ' ' :: '\'' :: behind).dropWhile isNameLetter).dropWhile isWhiteSpace =
      '\'' :: behind := by
    rw [List.dropWhile_append_of_pos areNameLetters,
      List.dropWhile_cons_of_neg (by simp [spaceEnds]), List.dropWhile_cons_of_pos spaceBlank,
      List.dropWhile_cons_of_neg (by simp [quoteVisible])]
  have opens : ['{', '%'] <+: ['{', '%', ' '] ++ initial :: others ++ ' ' :: '\'' :: behind :=
    ⟨_, rfl⟩
  unfold rawTagAt
  rw [if_pos opens, front]
  dsimp only
  rw [if_pos isAlpha, named, rest]
  congr 1
  funext source
  simp only [List.length_append, List.length_cons, List.length_nil, Prod.mk.injEq, true_and]
  omega

/-! ## Rendering tags -/

section Tags

variable (context : TemplateContext)

theorem renderTagsAfter_drop (skipped : ℕ) (text : Text) :
    renderTagsAfter context skipped text = renderTags context (text.drop skipped) := by
  induction text generalizing skipped with
  | nil => cases skipped <;> simp [renderTags, renderTagsAfter]
  | cons letter rest ih =>
      cases skipped with
      | zero => rfl
      | succ skipped =>
          rw [renderTagsAfter, ih]
          rfl

theorem starts_of_rawTagAt {text : Text} (isTag : rawTagAt text ≠ none) :
    ∃ rest, text = '{' :: '%' :: rest := by
  unfold rawTagAt at isTag
  split at isTag
  case isTrue starts =>
    rcases starts with ⟨rest, rfl⟩
    exact ⟨rest, rfl⟩
  case isFalse => exact absurd rfl isTag

theorem renderTags_cons {letter : Char} {rest : Text} (noTag : rawTagAt (letter :: rest) = none) :
    renderTags context (letter :: rest) =
      ((renderTags context rest).1, (renderTags context rest).2.map (letter :: ·)) := by
  rw [renderTags, renderTagsAfter, noTag]
  rfl

theorem renderTags_append {front : Text} (free : PairFree '{' '%' front) {text : Text}
    (noSeam : text.head? ≠ some '%') :
    renderTags context (front ++ text) =
      ((renderTags context text).1, (renderTags context text).2.map (front ++ ·)) := by
  induction front with
  | nil =>
      cases rendered : (renderTags context text).2 <;>
        simp [← rendered]
  | cons letter front ih =>
      rw [pairFree_cons] at free
      have noTag : rawTagAt (letter :: (front ++ text)) = none := by
        by_contra isTag
        rcases starts_of_rawTagAt isTag with ⟨rest, eq⟩
        rw [List.cons.injEq] at eq
        cases front with
        | nil =>
            apply noSeam
            rw [List.nil_append] at eq
            rw [eq.2]
            rfl
        | cons second front =>
            rw [List.cons_append, List.cons.injEq] at eq
            exact free.2 ⟨eq.1, by rw [eq.2.1]; rfl⟩
      rw [List.cons_append, renderTags_cons context noTag, ih free.1, Option.map_map]
      rfl

theorem renderTags_free {text : Text} (free : PairFree '{' '%' text) :
    renderTags context text = ([], some text) := by
  have rendered := @renderTags_append context text free [] (by simp)
  rw [List.append_nil] at rendered
  rw [rendered]
  simp [renderTags, renderTagsAfter]

/-- A tag that a text starts with is resolved, and the rest is rendered. -/
theorem renderTags_text {name : Text} (isName : IsTagName name) {behind source after : Text}
    (isSource : untilPair '%' '}' ('\'' :: behind) = some source)
    (split : '\'' :: behind = source ++ '%' :: '}' :: after) :
    renderTags context (['{', '%', ' '] ++ name ++ ' ' :: '\'' :: behind) =
      match context.resolveRawTag name (tagArguments source) with
      | none => ([(name, tagArguments source)], none)
      | some replacement =>
          ((name, tagArguments source) :: (renderTags context after).1,
            (renderTags context after).2.map (replacement ++ ·)) := by
  have isTag := rawTagAt_text isName behind
  rw [isSource, Option.map_some] at isTag
  have rest : (['{', '%', ' '] ++ name ++ ' ' :: '\'' :: behind).drop
      (name.length + source.length + 6) = after := by
    have front : ['{', '%', ' '] ++ name ++ ' ' :: '\'' :: behind =
        (['{', '%', ' '] ++ name ++ ' ' :: source ++ ['%', '}']) ++ after := by
      rw [split]
      simp
    rw [front]
    apply List.drop_left'
    simp only [List.length_append, List.length_cons, List.length_nil]
    omega
  have cut : ['{', '%', ' '] ++ name ++ ' ' :: '\'' :: behind =
      '{' :: ('%' :: ' ' :: (name ++ ' ' :: '\'' :: behind)) := rfl
  rw [cut] at isTag rest ⊢
  rw [show name.length + source.length + 6 = (name.length + source.length + 5) + 1 from rfl,
    List.drop_succ_cons] at rest
  rw [renderTags, renderTagsAfter, isTag]
  dsimp only
  cases context.resolveRawTag name (tagArguments source) with
  | none => rfl
  | some replacement =>
      dsimp only
      rw [renderTagsAfter_drop,
        show name.length + source.length + 6 - 1 = name.length + source.length + 5 from rfl, rest]

theorem renderTags_eq_of_noCalls {text : Text} (noCalls : (renderTags context text).1 = []) :
    (renderTags context text).2 = some text := by
  induction text with
  | nil => rfl
  | cons letter rest ih =>
      cases isTag : rawTagAt (letter :: rest) with
      | none =>
          rw [renderTags_cons context isTag] at noCalls ⊢
          dsimp only at noCalls ⊢
          rw [ih noCalls]
          rfl
      | some found =>
          rw [renderTags, renderTagsAfter, isTag] at noCalls
          dsimp only at noCalls
          split at noCalls <;> cases noCalls

end Tags

/-! ## Rendering expressions -/

section Expressions

variable (context : TemplateContext)

theorem renderEnvironmentAfter_drop (skipped : ℕ) (text : Text) :
    renderEnvironmentAfter context skipped text =
      renderEnvironmentValues context (text.drop skipped) := by
  induction text generalizing skipped with
  | nil => cases skipped <;> simp [renderEnvironmentValues, renderEnvironmentAfter]
  | cons letter rest ih =>
      cases skipped with
      | zero => rfl
      | succ skipped =>
          rw [renderEnvironmentAfter, ih]
          rfl

theorem starts_of_templateAt {text : Text} (isTemplate : templateAt text ≠ none) :
    ∃ rest, text = '{' :: '{' :: rest := by
  unfold templateAt at isTemplate
  split at isTemplate
  case isTrue starts =>
    rcases starts with ⟨rest, rfl⟩
    exact ⟨rest, rfl⟩
  case isFalse => exact absurd rfl isTemplate

theorem renderEnvironmentValues_cons {letter : Char} {rest : Text}
    (noTemplate : templateAt (letter :: rest) = none) :
    renderEnvironmentValues context (letter :: rest) =
      (renderEnvironmentValues context rest).map (letter :: ·) := by
  rw [renderEnvironmentValues, renderEnvironmentAfter, noTemplate]
  rfl

theorem renderEnvironmentValues_append {front : Text} (free : PairFree '{' '{' front)
    {text : Text} (noSeam : ¬ (front.getLast? = some '{' ∧ text.head? = some '{')) :
    renderEnvironmentValues context (front ++ text) =
      (renderEnvironmentValues context text).map (front ++ ·) := by
  induction front with
  | nil => cases rendered : renderEnvironmentValues context text <;> simp [rendered]
  | cons letter front ih =>
      rw [pairFree_cons] at free
      have noTemplate : templateAt (letter :: (front ++ text)) = none := by
        by_contra isTemplate
        rcases starts_of_templateAt isTemplate with ⟨rest, eq⟩
        rw [List.cons.injEq] at eq
        cases front with
        | nil =>
            apply noSeam
            rw [List.nil_append] at eq
            rw [eq.1, eq.2]
            exact ⟨rfl, rfl⟩
        | cons second front =>
            rw [List.cons_append, List.cons.injEq] at eq
            exact free.2 ⟨eq.1, by rw [eq.2.1]; rfl⟩
      have laterNoSeam : ¬ (front.getLast? = some '{' ∧ text.head? = some '{') := by
        rintro ⟨last, head⟩
        apply noSeam
        rw [List.getLast?_cons, last]
        exact ⟨rfl, head⟩
      rw [List.cons_append, renderEnvironmentValues_cons context noTemplate,
        ih free.1 laterNoSeam, Option.map_map]
      rfl

theorem renderEnvironmentValues_free {text : Text} (free : PairFree '{' '{' text) :
    renderEnvironmentValues context text = some text := by
  have rendered := @renderEnvironmentValues_append context text free [] (by simp)
  rw [List.append_nil] at rendered
  rw [rendered]
  simp [renderEnvironmentValues, renderEnvironmentAfter]

end Expressions

/-! ## Inserted tags -/

section Inserted

variable {name : Text} {arguments : List Text}

theorem tag_append (notEmpty : arguments ≠ []) (after : Text) :
    tag name arguments ++ after =
      ['{', '%', ' '] ++ name ++ ' ' :: (quotedList arguments ++ ' ' :: '%' :: '}' :: after) := by
  rw [tag, if_pos notEmpty]
  simp

theorem IsTagName.brace_notMem (isName : IsTagName name) : '{' ∉ name := by
  rcases isName with ⟨initial, others, rfl, isAlpha, areNameLetters⟩
  rw [List.mem_cons, not_or]
  constructor
  · rintro rfl
    exact absurd isAlpha (by decide)
  · exact fun mem => absurd (areNameLetters _ mem) (by decide)

theorem tag_bracesFree (isName : IsTagName name) (notEmpty : arguments ≠ [])
    (free : ∀ argument ∈ arguments, PairFree '{' '{' argument) {after : Text}
    (afterFree : PairFree '{' '{' after) : PairFree '{' '{' (tag name arguments ++ after) := by
  rw [tag_append notEmpty, List.append_assoc, List.cons_append, pairFree_cons]
  refine ⟨?_, by simp⟩
  rw [List.cons_append, List.cons_append, List.nil_append, pairFree_cons_of_ne (by decide),
    pairFree_cons_of_ne (by decide), pairFree_append_cons (by decide) (by decide)]
  refine ⟨pairFree_of_notMem isName.brace_notMem, ?_⟩
  rw [pairFree_append_cons (by decide) (by decide), braces_plain.quotedList,
    pairFree_cons_of_ne (by decide), pairFree_cons_of_ne (by decide)]
  exact ⟨free, afterFree⟩

/-- A tag whose arguments do not close it is read up to its end. -/
theorem renderTags_tag (context : TemplateContext) (isName : IsTagName name)
    (notEmpty : arguments ≠ []) (unclosed : ∀ argument ∈ arguments, PairFree '%' '}' argument)
    (after : Text) :
    renderTags context (tag name arguments ++ after) =
      match context.resolveRawTag name (tagArguments (quotedList arguments ++ [' '])) with
      | none => ([(name, tagArguments (quotedList arguments ++ [' ']))], none)
      | some replacement =>
          ((name, tagArguments (quotedList arguments ++ [' '])) :: (renderTags context after).1,
            (renderTags context after).2.map (replacement ++ ·)) := by
  rcases quotedList_ends notEmpty with ⟨content, eq, _⟩
  have free : PairFree '%' '}' (quotedList arguments ++ [' ']) := by
    rw [pairFree_append_cons (by decide) (by decide), closing_plain.quotedList]
    exact ⟨unclosed, pairFree_nil _ _⟩
  have split : '\'' :: (content ++ ' ' :: '%' :: '}' :: after) =
      (quotedList arguments ++ [' ']) ++ '%' :: '}' :: after := by
    rw [eq]
    simp
  have isSource : untilPair '%' '}' ('\'' :: (content ++ ' ' :: '%' :: '}' :: after)) =
      some (quotedList arguments ++ [' ']) := by
    rw [split]
    exact untilPair_append free (by decide) after
  have body : quotedList arguments ++ ' ' :: '%' :: '}' :: after =
      '\'' :: (content ++ ' ' :: '%' :: '}' :: after) := by
    rw [eq, List.cons_append]
  rw [tag_append notEmpty, body]
  exact renderTags_text context isName isSource split

theorem renderTags_closed (context : TemplateContext) (isName : IsTagName name)
    (notEmpty : arguments ≠ []) {argument : Text} (mem : argument ∈ arguments)
    (closes : ¬ PairFree '%' '}' argument) (after : Text) :
    ∃ source rest, after.length < rest.length ∧
      renderTags context (tag name arguments ++ after) =
        match context.resolveRawTag name (tagArguments source) with
        | none => ([(name, tagArguments source)], none)
        | some replacement =>
            ((name, tagArguments source) :: (renderTags context rest).1,
              (renderTags context rest).2.map (replacement ++ ·)) := by
  rcases quotedList_ends notEmpty with ⟨content, eq, _⟩
  have closed : ¬ PairFree '%' '}' (quotedList arguments) := by
    rw [closing_plain.quotedList]
    exact fun free => closes (free argument mem)
  rcases untilPair_append_of_not closed (' ' :: '%' :: '}' :: after) with ⟨source, found, short⟩
  rcases append_of_untilPair found with ⟨rest, split⟩
  have lengths := congrArg List.length split
  simp only [List.length_append, List.length_cons] at lengths
  have body : quotedList arguments ++ ' ' :: '%' :: '}' :: after =
      '\'' :: (content ++ ' ' :: '%' :: '}' :: after) := by
    rw [eq, List.cons_append]
  rw [body] at found split
  refine ⟨source, rest, by omega, ?_⟩
  rw [tag_append notEmpty, body]
  exact renderTags_text context isName found split

end Inserted

/-! ## The tags of the dialog -/

/-- A text around a tag has none of the marks of expressions and tags. -/
structure Surrounding (text : Text) : Prop where
  noExpression : PairFree '{' '{' text
  noTag : PairFree '{' '%' text
  noExpressionEnd : PairFree '}' '}' text
  noTagEnd : PairFree '%' '}' text

/-- A tag is resolved once, with its arguments, and the text around it stays. -/
def RendersTag (context : TemplateContext) (before after name : Text) (arguments : List Text) :
    Prop :=
  ∃ read, SameArguments read arguments ∧
    renderTemplate context (before ++ tag name arguments ++ after) =
      ([(name, read)], (context.resolveRawTag name read).map fun result =>
        before ++ result ++ after)

/-- What a tag must keep to in order to be read as it has been written. -/
structure IsReadable (before after name : Text) (arguments : List Text) : Prop where
  trimmed : ∀ argument ∈ arguments, trimText argument = argument
  unclosed : ∀ argument ∈ arguments, PairFree '%' '}' argument
  noExpression : before.getLast? = some '{' →
    templateAt ('{' :: (tag name arguments ++ after)) = none

section Dialog

variable {before after name : Text} {arguments : List Text}

theorem renderEnvironmentValues_tag (context : TemplateContext) (isName : IsTagName name)
    (notEmpty : arguments ≠ []) (free : ∀ argument ∈ arguments, PairFree '{' '{' argument)
    (beforeFree : PairFree '{' '{' before) (afterFree : PairFree '{' '{' after)
    (noExpression : before.getLast? = some '{' →
      templateAt ('{' :: (tag name arguments ++ after)) = none) :
    renderEnvironmentValues context (before ++ (tag name arguments ++ after)) =
      some (before ++ (tag name arguments ++ after)) := by
  have tagFree := tag_bracesFree isName notEmpty free afterFree
  by_cases seam : before.getLast? = some '{'
  · rcases List.getLast?_eq_some_iff.mp seam with ⟨front, rfl⟩
    rw [pairFree_append] at beforeFree
    have noSeam : ¬ (front.getLast? = some '{' ∧
        ('{' :: (tag name arguments ++ after)).head? = some '{') := by
      rintro ⟨last, _⟩
      exact beforeFree.2.2 ⟨last, rfl⟩
    rw [List.append_assoc, List.singleton_append,
      renderEnvironmentValues_append context beforeFree.1 noSeam,
      renderEnvironmentValues_cons context (noExpression seam),
      renderEnvironmentValues_free context tagFree]
    rfl
  · rw [renderEnvironmentValues_append context beforeFree (fun both => seam both.1),
      renderEnvironmentValues_free context tagFree]
    rfl

theorem renderTemplate_tag (context : TemplateContext) (isName : IsTagName name)
    (notEmpty : arguments ≠ []) (free : ∀ argument ∈ arguments, PairFree '{' '{' argument)
    (beforePlain : Surrounding before) (afterPlain : Surrounding after)
    (noExpression : before.getLast? = some '{' →
      templateAt ('{' :: (tag name arguments ++ after)) = none) :
    renderTemplate context (before ++ tag name arguments ++ after) =
      ((renderTags context (tag name arguments ++ after)).1,
        (renderTags context (tag name arguments ++ after)).2.map (before ++ ·)) := by
  have head : (tag name arguments ++ after).head? ≠ some '%' := by
    rw [tag_append notEmpty]
    simp
  rw [renderTemplate, List.append_assoc,
    renderEnvironmentValues_tag context isName notEmpty free beforePlain.noExpression
      afterPlain.noExpression noExpression]
  exact renderTags_append context beforePlain.noTag head

theorem rendersTag_of_isReadable (context : TemplateContext) (isName : IsTagName name)
    (notEmpty : arguments ≠ []) (free : ∀ argument ∈ arguments, PairFree '{' '{' argument)
    (beforePlain : Surrounding before) (afterPlain : Surrounding after)
    (readable : IsReadable before after name arguments) :
    RendersTag context before after name arguments := by
  refine ⟨tagArguments (quotedList arguments ++ [' ']), ?_, ?_⟩
  · exact (tagArguments_quotedList notEmpty).trans
      ((sameArguments_trim_iff arguments).mpr readable.trimmed)
  · rw [renderTemplate_tag context isName notEmpty free beforePlain afterPlain
      readable.noExpression, renderTags_tag context isName notEmpty readable.unclosed after,
      renderTags_free context afterPlain.noTag]
    cases context.resolveRawTag name (tagArguments (quotedList arguments ++ [' '])) with
    | none => rfl
    | some result => simp

/-- A context in which everything is one text, and tags are resolved to nothing. -/
def constantContext (text : Text) : TemplateContext where
  variableValues _ := some text
  uuid := some text
  randomUUID := text
  timestamp := text
  isoTimestamp := text
  renderFakerValue _ := some text
  resolveRawTag _ _ := some []

theorem environmentValue_constant (text matched found : Text) :
    environmentValue (constantContext text) matched found = some text := by
  unfold environmentValue
  dsimp only [constantContext]
  split
  · split <;> rfl
  · split
    · rfl
    · split
      · rfl
      · split
        · rfl
        · split <;> rfl

theorem renderTags_plain_tag (after text : Text) :
    ∃ call, (renderTags (constantContext text) (tag ['x'] [[]] ++ after)).1 =
      call :: (renderTags (constantContext text) after).1 := by
  have isName : IsTagName ['x'] := ⟨'x', [], rfl, by decide, by simp⟩
  rw [renderTags_tag (constantContext text) isName (by simp) (by simp) after]
  exact ⟨_, rfl⟩

/-- An expression in front of the tag can bring two tags of its own. -/
theorem noExpression_of_rendersTag (isName : IsTagName name) (notEmpty : arguments ≠ [])
    (free : ∀ argument ∈ arguments, PairFree '{' '{' argument)
    (beforePlain : Surrounding before) (afterPlain : Surrounding after)
    (renders : ∀ context, RendersTag context before after name arguments)
    (seam : before.getLast? = some '{') :
    templateAt ('{' :: (tag name arguments ++ after)) = none := by
  by_contra isTemplate
  rcases Option.ne_none_iff_exists'.mp isTemplate with ⟨⟨found, length⟩, isFound⟩
  generalize twiceEq : tag ['x'] [[]] ++ tag ['x'] [[]] = twice
  rcases renders (constantContext twice) with ⟨read, _, rendered⟩
  rcases List.getLast?_eq_some_iff.mp seam with ⟨front, rfl⟩
  have beforeFree := beforePlain.noExpression
  have beforeNoTag := beforePlain.noTag
  rw [pairFree_append] at beforeFree beforeNoTag
  have noSeam : ¬ (front.getLast? = some '{' ∧
      ('{' :: (tag name arguments ++ after)).head? = some '{') := by
    rintro ⟨last, _⟩
    exact beforeFree.2.2 ⟨last, rfl⟩
  have restFree : PairFree '{' '{' ((tag name arguments ++ after).drop (length - 1)) :=
    (tag_bracesFree isName notEmpty free afterPlain.noExpression).drop _
  generalize restEq : (tag name arguments ++ after).drop (length - 1) = rest at restFree
  have replaced : renderEnvironmentValues (constantContext twice)
      ('{' :: (tag name arguments ++ after)) = some (twice ++ rest) := by
    rw [renderEnvironmentValues, renderEnvironmentAfter, isFound]
    dsimp only
    rw [environmentValue_constant, Option.bind_some, renderEnvironmentAfter_drop, restEq,
      renderEnvironmentValues_free _ restFree]
    rfl
  have head : (twice ++ rest).head? ≠ some '%' := by
    rw [← twiceEq]
    simp [tag]
  rw [renderTemplate, List.append_assoc, List.append_assoc, List.singleton_append,
    renderEnvironmentValues_append _ beforeFree.1 noSeam, replaced, Option.map_some] at rendered
  dsimp only at rendered
  rw [renderTags_append _ beforeNoTag.1 head, Prod.mk.injEq] at rendered
  rcases renderTags_plain_tag (tag ['x'] [[]] ++ rest) twice with ⟨first, firstEq⟩
  rcases renderTags_plain_tag rest twice with ⟨second, secondEq⟩
  rw [← List.append_assoc, twiceEq, secondEq] at firstEq
  rw [firstEq] at rendered
  cases rendered.1

theorem unclosed_of_rendersTag (isName : IsTagName name) (notEmpty : arguments ≠ [])
    (free : ∀ argument ∈ arguments, PairFree '{' '{' argument)
    (beforePlain : Surrounding before) (afterPlain : Surrounding after)
    (noExpression : before.getLast? = some '{' →
      templateAt ('{' :: (tag name arguments ++ after)) = none)
    (renders : RendersTag (constantContext []) before after name arguments) :
    ∀ argument ∈ arguments, PairFree '%' '}' argument := by
  intro argument mem
  by_contra closes
  rcases renders with ⟨read, _, rendered⟩
  rw [renderTemplate_tag _ isName notEmpty free beforePlain afterPlain noExpression] at rendered
  rcases renderTags_closed (constantContext []) isName notEmpty mem closes after with
    ⟨source, rest, longer, left⟩
  rw [left, Prod.mk.injEq] at rendered
  rcases rendered with ⟨calls, output⟩
  have noCalls : (renderTags (constantContext []) rest).1 = [] := (List.cons.inj calls).2
  dsimp only [constantContext] at output noCalls
  rw [renderTags_eq_of_noCalls _ noCalls] at output
  simp only [Option.map_some, List.nil_append, List.append_nil, Option.some.injEq,
    List.append_cancel_left_eq] at output
  rw [output] at longer
  exact Nat.lt_irrefl _ longer

theorem trimmed_of_rendersTag (isName : IsTagName name) (notEmpty : arguments ≠ [])
    (free : ∀ argument ∈ arguments, PairFree '{' '{' argument)
    (beforePlain : Surrounding before) (afterPlain : Surrounding after)
    (noExpression : before.getLast? = some '{' →
      templateAt ('{' :: (tag name arguments ++ after)) = none)
    (unclosed : ∀ argument ∈ arguments, PairFree '%' '}' argument)
    (renders : RendersTag (constantContext []) before after name arguments) :
    ∀ argument ∈ arguments, trimText argument = argument := by
  rcases renders with ⟨read, same, rendered⟩
  rw [renderTemplate_tag _ isName notEmpty free beforePlain afterPlain noExpression,
    renderTags_tag _ isName notEmpty unclosed after, Prod.mk.injEq] at rendered
  have call := (List.cons.inj rendered.1).1
  rw [Prod.mk.injEq] at call
  rw [← call.2] at same
  apply (sameArguments_trim_iff arguments).mp
  exact (tagArguments_quotedList notEmpty).symm.trans same

theorem rendersTag_iff (isName : IsTagName name) (notEmpty : arguments ≠ [])
    (free : ∀ argument ∈ arguments, PairFree '{' '{' argument)
    (beforePlain : Surrounding before) (afterPlain : Surrounding after) :
    (∀ context, RendersTag context before after name arguments) ↔
      IsReadable before after name arguments := by
  constructor
  · intro renders
    have noExpression := noExpression_of_rendersTag isName notEmpty free beforePlain afterPlain
      renders
    have unclosed := unclosed_of_rendersTag isName notEmpty free beforePlain afterPlain
      noExpression (renders _)
    exact ⟨trimmed_of_rendersTag isName notEmpty free beforePlain afterPlain noExpression
      unclosed (renders _), unclosed, noExpression⟩
  · intro readable context
    exact rendersTag_of_isReadable context isName notEmpty free beforePlain afterPlain readable

end Dialog

def checkName : Text → Bool
  | [] => false
  | initial :: others => initial.isAlpha && others.all isNameLetter

theorem isTagName_of_check {name : Text} (checked : checkName name = true) : IsTagName name := by
  cases name with
  | nil => cases checked
  | cons initial others =>
      rw [checkName, Bool.and_eq_true, List.all_eq_true] at checked
      exact ⟨initial, others, rfl, checked.1, checked.2⟩

/-- All kinds but two build tags. -/
theorem builtTag_tag (values : Text → Option Text) {kind : TemplateTagKind}
    (notEnvironment : kind ≠ .environment) (notFaker : kind ≠ .faker) :
    ∃ name arguments, builtTag values kind = some (.tag name arguments) ∧ IsTagName name ∧
      arguments ≠ [] := by
  cases kind with
  | environment => exact absurd rfl notEnvironment
  | faker => exact absurd rfl notFaker
  | cookie =>
      unfold builtTag
      dsimp only
      split
      · exact ⟨_, _, rfl, isTagName_of_check (by decide), by simp⟩
      · exact ⟨_, _, rfl, isTagName_of_check (by decide), by simp⟩
  | _ => exact ⟨_, _, rfl, isTagName_of_check (by decide), by simp⟩

/-- A built tag is resolved with its own arguments in every context just if it is readable. -/
theorem buildTemplateTag_rendersTag_iff (values : Text → Option Text) {kind : TemplateTagKind}
    (notEnvironment : kind ≠ .environment) (notFaker : kind ≠ .faker) {before after : Text}
    (beforePlain : Surrounding before) (afterPlain : Surrounding after) :
    ∃ name arguments, builtTag values kind = some (.tag name arguments) ∧
      buildTemplateTag values kind = some (tag name arguments) ∧
      ((∀ argument ∈ arguments, PairFree '{' '{' argument) →
        ((∀ context, RendersTag context before after name arguments) ↔
          IsReadable before after name arguments)) := by
  rcases builtTag_tag values notEnvironment notFaker with
    ⟨name, arguments, built, isName, notEmpty⟩
  refine ⟨name, arguments, built, ?_, ?_⟩
  · rw [buildTemplateTag, built]
    rfl
  · exact fun free => rendersTag_iff isName notEmpty free beforePlain afterPlain

theorem plain_surrounding {text : Text} (plain : ∀ letter ∈ text, letter ∉ ['{', '}', '%']) :
    Surrounding text := by
  have notMem : ∀ letter ∈ ['{', '}', '%'], letter ∉ text :=
    fun letter mem inText => plain letter inText mem
  exact ⟨pairFree_of_notMem (notMem _ (by simp)), pairFree_of_notMem (notMem _ (by simp)),
    pairFree_of_notMem (notMem _ (by simp)), pairFree_of_notMem (notMem _ (by simp))⟩

def quotedText : Text := "say \"a, b\" \\".toList

/-- A text with quotes, a comma and a backslash is hashed as it is. -/
theorem quotedText_rendersTag :
    builtTag (fun field => if field = "value".toList then some quotedText else none) .hash =
        some (.tag "hash".toList ["sha256".toList, "hex".toList, quotedText]) ∧
      ∀ context, RendersTag context ['i', 'd', '='] ['&', 'x'] "hash".toList
        ["sha256".toList, "hex".toList, quotedText] := by
  have before : Surrounding ['i', 'd', '='] := plain_surrounding (by simp)
  have after : Surrounding ['&', 'x'] := plain_surrounding (by simp)
  rcases @buildTemplateTag_rendersTag_iff
    (fun field => if field = "value".toList then some quotedText else none)
    .hash (by decide) (by decide) _ _ before after with ⟨name, arguments, built, _, renders⟩
  have isHash : builtTag (fun field => if field = "value".toList then some quotedText else none)
      .hash = some (.tag "hash".toList ["sha256".toList, "hex".toList, quotedText]) := rfl
  cases isHash.symm.trans built
  exact ⟨isHash, (renders (by decide)).mpr ⟨by decide, by decide, by decide⟩⟩

/-- The space at the end of a text that is hashed is lost, and the end of a tag in it ends the
tag. -/
theorem hash_notRead :
    (builtTag (fun field => if field = "value".toList then some ['x', ' '] else none) .hash =
        some (.tag "hash".toList ["sha256".toList, "hex".toList, ['x', ' ']]) ∧
      ¬ ∀ context, RendersTag context [] [] "hash".toList
        ["sha256".toList, "hex".toList, ['x', ' ']]) ∧
    (builtTag (fun field => if field = "value".toList then some ['%', '}'] else none) .hash =
        some (.tag "hash".toList ["sha256".toList, "hex".toList, ['%', '}']]) ∧
      ¬ ∀ context, RendersTag context [] [] "hash".toList
        ["sha256".toList, "hex".toList, ['%', '}']]) := by
  have isName : IsTagName "hash".toList := isTagName_of_check (by decide)
  have empty : Surrounding [] := plain_surrounding (by simp)
  refine ⟨⟨rfl, fun renders => ?_⟩, ⟨rfl, fun renders => ?_⟩⟩
  · have readable := (rendersTag_iff isName (by simp) (by decide) empty empty).mp renders
    exact absurd (readable.trimmed ['x', ' '] (by simp)) (by decide)
  · have readable := (rendersTag_iff isName (by simp) (by decide) empty empty).mp renders
    exact absurd (readable.unclosed ['%', '}'] (by simp)) (by decide)

end Brunomnia.Templates
