import Brunomnia.Templates.VariableLoop

/-!
# Two renderers that agree

The loop puts the same texts in the same places as one replacement of all placeholders, and no tag
is found in the result, exactly if three things do not happen: a placeholder has a name that the
object of variables only inherits, a placeholder of white space alone has different values under
the two names that are looked up for it, or a tag is spelled across the edge of an inserted text.
-/

namespace Brunomnia.Templates.Loop

open Codegen (Text trimText templateAt templateName resolveAfter resolveTemplate
  trimText_trimText)
open Library

section Agreement

variable (context : TemplateContext) (prototype : Prototype)

/-! ## What is expected -/

/-- No placeholder has a name of generated values. -/
def OrdinaryNames (source : Text) : Prop :=
  ∀ matched name, .placeholder matched name ∈ segments source →
    ¬ "faker.".toList <+: trimText name ∧ (trimText name).head? ≠ some '$'

/-- The rendering puts in the place of every placeholder, once and in order, what one replacement
of all placeholders puts there, resolves no tag, and gives the same text. -/
def RenderersAgree (source : Text) : Prop :=
  ∃ turns, renderTemplate context prototype turns source =
    some ⟨resolvedPlaceholders context.variableValues source, [],
      some (resolveTemplate context.variableValues source)⟩

/-! ## When it holds -/

def Segment.isPlaceholder : Segment → Bool
  | .char _ => false
  | .placeholder _ _ => true

def resolvedText (values : Text → Option Text) (parts : List Segment) : Text :=
  parts.flatMap (Segment.resolved values)

/-- Where an inserted text begins or ends, no tag is spelled across the edge. -/
def NoTagAcross (values : Text → Option Text) (parts : List Segment) : Prop :=
  ∀ before after, parts = before ++ after →
    before.getLast?.any Segment.isPlaceholder = true ∨
      after.head?.any Segment.isPlaceholder = true →
    (resolvedText values before).getLast? = some '{' →
    rawTagAt ('{' :: resolvedText values after) = none

structure Agreeable (source : Text) : Prop where
  notInherited : ∀ matched name, .placeholder matched name ∈ segments source →
    context.variableValues (trimText name) = none → prototype.member (trimText name) = none
  blankAlike : ∀ matched name, .placeholder matched name ∈ segments source → trimText name = [] →
    (context.variableValues []).getD matched = (context.variableValues name).getD matched
  noTag : NoTagAcross context.variableValues (segments source)

/-! ## Names -/

theorem trimText_eq_nil_iff {text : Text} :
    trimText text = [] ↔ ∀ letter ∈ text, isWhiteSpace letter = true := by
  unfold trimText
  rw [List.reverse_eq_nil_iff, List.dropWhile_eq_nil_iff]
  constructor
  · intro blank letter letterMem
    by_contra visible
    have stays : text.dropWhile isWhiteSpace ≠ [] := by
      intro dropped
      exact visible (List.dropWhile_eq_nil_iff.mp dropped letter letterMem)
    have headVisible := List.head_dropWhile_not isWhiteSpace stays
    rw [blank _ (List.mem_reverse.mpr (List.head_mem stays))] at headVisible
    cases headVisible
  · intro blank letter letterMem
    exact blank letter ((List.dropWhile_sublist _).mem (List.mem_reverse.mp letterMem))

theorem trimText_templateName (content : Text) :
    trimText (templateName content) = templateName content ∨
      trimText (templateName content) = [] := by
  unfold templateName
  split
  case isTrue blank =>
      right
      rw [trimText_eq_nil_iff] at blank ⊢
      exact fun letter letterMem => blank letter (List.mem_of_mem_drop letterMem)
  case isFalse => exact .inl (trimText_trimText content)

theorem parts_of_templateAt {text name : Text} {length : ℕ}
    (isTemplate : templateAt text = some (name, length)) :
    (text.take length).head? = some '{' ∧ (trimText name = name ∨ trimText name = []) := by
  have bounds := length_of_templateAt isTemplate
  unfold templateAt at isTemplate
  split at isTemplate
  case isTrue starts =>
      dsimp only at isTemplate
      split at isTemplate
      case isTrue ends =>
          simp only [Option.some.injEq, Prod.mk.injEq] at isTemplate
          refine ⟨?_, isTemplate.1 ▸ trimText_templateName _⟩
          rcases starts with ⟨rest, rfl⟩
          rw [List.head?_take, if_neg (by omega)]
          rfl
      case isFalse => cases isTemplate
  case isFalse => cases isTemplate

theorem mem_segments {source matched name : Text}
    (placeholderMem : .placeholder matched name ∈ segments source) :
    matched.head? = some '{' ∧ (trimText name = name ∨ trimText name = []) := by
  induction source using scan_induction with
  | nil => cases placeholderMem
  | letter letter rest noTemplate ih =>
      rw [segments_letter noTemplate, List.mem_cons] at placeholderMem
      rcases placeholderMem with isLetter | later
      · cases isLetter
      · exact ih later
  | placeholder text found length isTemplate ih =>
      rw [segments_placeholder isTemplate, List.mem_cons] at placeholderMem
      rcases placeholderMem with isFirst | later
      · cases isFirst
        exact parts_of_templateAt isTemplate
      · exact ih later

/-! ## The loop goes on -/

variable {context prototype}

theorem renderFrom_char {letter : Char} {rest : Text}
    (noTemplate : templateAt (letter :: rest) = none) (turns : ℕ) (before : Text) :
    renderFrom context prototype turns (before ++ letter :: rest) before.length =
      renderFrom context prototype turns ((before ++ [letter]) ++ rest)
        (before ++ [letter]).length := by
  cases turns with
  | zero => rfl
  | succ turns =>
      have output : (before ++ [letter]) ++ rest = before ++ letter :: rest := by simp
      rw [renderFrom, renderFrom, output, List.drop_left, ← output, List.drop_left, output,
        firstTemplate, noTemplate]
      cases firstTemplate rest with
      | none => rfl
      | some found =>
          have sameIndex :
              before.length + (found.1 + 1) = (before ++ [letter]).length + found.1 := by
            simp
            omega
          simp only [Option.map_some, sameIndex]

theorem renderFrom_placeholder {rest name : Text} {length : ℕ}
    (isTemplate : templateAt rest = some (name, length)) (turns : ℕ) (before : Text) :
    renderFrom context prototype (turns + 1) (before ++ rest) before.length =
      (replacementOf context prototype (rest.take length) name).bind fun replacement =>
        (renderFrom context prototype turns (before ++ replacement.text ++ rest.drop length)
          (replacement.cursor before.length)).map fun (later, final) =>
            (⟨rest.take length, replacement.text⟩ :: later, final) := by
  have isFirst : firstTemplate rest = some (0, name, length) := by
    cases rest with
    | nil => simp [templateAt] at isTemplate
    | cons letter rest => rw [firstTemplate, isTemplate]
  rw [renderFrom, List.drop_left, isFirst]
  simp only [Nat.add_zero, List.drop_left, List.take_left, List.drop_length_add_append]

/-! ## One placeholder -/

/-- The loop puts in the place of a placeholder what one replacement of all puts there. -/
def Alike (context : TemplateContext) (prototype : Prototype) (matched name : Text) : Prop :=
  lookUp context prototype matched (trimText name) =
    .string ((context.variableValues name).getD matched)

theorem replacementOf_ordinary {matched name : Text}
    (ordinary : ¬ "faker.".toList <+: trimText name ∧ (trimText name).head? ≠ some '$') :
    replacementOf context prototype matched name =
      some (lookUp context prototype matched (trimText name)) := by
  have notGenerated (text : Text) (starts : text.head? = some '$') : trimText name ≠ text := by
    rintro rfl
    exact ordinary.2 starts
  have notRandom : ¬ "$random".toList <+: trimText name := by
    rintro ⟨rest, isName⟩
    apply ordinary.2
    rw [← isName]
    rfl
  simp only [replacementOf]
  rw [if_neg ordinary.1, if_neg, if_neg (notGenerated _ rfl), if_neg (notGenerated _ rfl),
    if_neg notRandom]
  exact not_or.mpr ⟨notGenerated _ rfl, notGenerated _ rfl⟩

/-- A string that is put in is the expected one if its text is. -/
theorem alike_of_text {matched name : Text} (isPlaceholder : matched.head? = some '{')
    (isName : trimText name = name ∨ trimText name = [])
    (sameText : (lookUp context prototype matched (trimText name)).text =
      (context.variableValues name).getD matched) : Alike context prototype matched name := by
  unfold Alike
  unfold lookUp at sameText ⊢
  cases own : context.variableValues (trimText name) with
  | some value =>
      rw [own] at sameText
      exact congrArg Replacement.string sameText
  | none =>
      rw [own] at sameText
      dsimp only at sameText ⊢
      cases inherited : prototype.member (trimText name) with
      | none =>
          rw [inherited] at sameText
          exact congrArg Replacement.string sameText
      | some found =>
          exfalso
          rw [inherited] at sameText
          have isText : found.text = (context.variableValues name).getD matched := sameText
          rcases isName with isSame | isBlank
          · rw [isSame] at own
            rw [own, Option.getD_none] at isText
            exact found.noPlaceholder (isText ▸ isPlaceholder)
          · rw [isBlank, prototype.named] at inherited
            cases inherited

theorem alike_iff {matched name : Text} (isPlaceholder : matched.head? = some '{')
    (isName : trimText name = name ∨ trimText name = []) :
    Alike context prototype matched name ↔
      (context.variableValues (trimText name) = none →
        prototype.member (trimText name) = none) ∧
      (trimText name = [] →
        (context.variableValues []).getD matched = (context.variableValues name).getD matched) := by
  constructor
  · intro alike
    unfold Alike lookUp at alike
    refine ⟨?_, ?_⟩
    · intro own
      rw [own] at alike
      cases inherited : prototype.member (trimText name) with
      | none => rfl
      | some found =>
          rw [inherited] at alike
          cases alike
    · intro isBlank
      rw [isBlank, prototype.named] at alike
      cases own : context.variableValues [] with
      | some value =>
          rw [own] at alike
          exact Replacement.string.inj alike
      | none =>
          rw [own] at alike
          exact Replacement.string.inj alike
  · rintro ⟨notInherited, blankAlike⟩
    apply alike_of_text isPlaceholder isName
    unfold lookUp
    cases own : context.variableValues (trimText name) with
    | some value =>
        dsimp only [Replacement.text]
        rcases isName with isSame | isBlank
        · rw [isSame] at own
          rw [own, Option.getD_some]
        · rw [isBlank] at own
          rw [← blankAlike isBlank, own, Option.getD_some]
    | none =>
        dsimp only
        rw [notInherited own]
        dsimp only [Replacement.text]
        rcases isName with isSame | isBlank
        · rw [isSame] at own
          rw [own, Option.getD_none]
        · rw [isBlank] at own
          rw [← blankAlike isBlank, own, Option.getD_none]

/-! ## The whole loop -/

theorem resolvedPlaceholders_letter (values : Text → Option Text) {letter : Char} {rest : Text}
    (noTemplate : templateAt (letter :: rest) = none) :
    resolvedPlaceholders values (letter :: rest) = resolvedPlaceholders values rest := by
  rw [resolvedPlaceholders, segments_letter noTemplate]
  rfl

theorem resolvedPlaceholders_placeholder (values : Text → Option Text) {text name : Text}
    {length : ℕ} (isTemplate : templateAt text = some (name, length)) :
    resolvedPlaceholders values text =
      ⟨text.take length, (values name).getD (text.take length)⟩ ::
        resolvedPlaceholders values (text.drop length) := by
  rw [resolvedPlaceholders, segments_placeholder isTemplate]
  rfl

theorem renderFrom_of_alike {rest : Text}
    (ordinary : OrdinaryNames rest)
    (alike : ∀ matched name, .placeholder matched name ∈ segments rest →
      Alike context prototype matched name) (before : Text) :
    ∃ turns, renderFrom context prototype turns (before ++ rest) before.length =
      some (resolvedPlaceholders context.variableValues rest,
        before ++ resolveTemplate context.variableValues rest) := by
  induction rest using scan_induction generalizing before with
  | nil =>
      refine ⟨1, ?_⟩
      simp [renderFrom, firstTemplate, resolvedPlaceholders, segments, segmentsAfter,
        resolveTemplate, resolveAfter]
  | letter letter rest noTemplate ih =>
      have isLater {matched name : Text} (later : .placeholder matched name ∈ segments rest) :
          .placeholder matched name ∈ segments (letter :: rest) := by
        rw [segments_letter noTemplate]
        exact List.mem_cons_of_mem _ later
      rcases ih (fun matched name later => ordinary matched name (isLater later))
        (fun matched name later => alike matched name (isLater later)) (before ++ [letter])
        with ⟨turns, rendered⟩
      refine ⟨turns, ?_⟩
      rw [renderFrom_char noTemplate, rendered, resolvedPlaceholders_letter _ noTemplate,
        resolveTemplate_eq, resolveTemplate_eq, segments_letter noTemplate, List.flatMap_cons,
        List.append_assoc]
      rfl
  | placeholder text name length isTemplate ih =>
      have isFirst : .placeholder (text.take length) name ∈ segments text := by
        rw [segments_placeholder isTemplate]
        exact List.mem_cons_self
      have isLater {matched found : Text}
          (later : .placeholder matched found ∈ segments (text.drop length)) :
          .placeholder matched found ∈ segments text := by
        rw [segments_placeholder isTemplate]
        exact List.mem_cons_of_mem _ later
      rcases ih (fun matched name later => ordinary matched name (isLater later))
        (fun matched name later => alike matched name (isLater later))
        (before ++ (context.variableValues name).getD (text.take length)) with ⟨turns, rendered⟩
      refine ⟨turns + 1, ?_⟩
      have isAlike := alike _ _ isFirst
      unfold Alike at isAlike
      rw [renderFrom_placeholder isTemplate, replacementOf_ordinary (ordinary _ _ isFirst), isAlike,
        Option.bind_some, Replacement.text, Replacement.cursor, ← List.length_append, rendered,
        resolvedPlaceholders_placeholder _ isTemplate, resolveTemplate_eq, resolveTemplate_eq,
        segments_placeholder isTemplate, List.flatMap_cons, List.append_assoc]
      rfl

/-- A loop that replaces what is expected has put in the expected strings. -/
theorem alike_of_renderFrom {rest : Text} (ordinary : OrdinaryNames rest) {turns : ℕ}
    {before final : Text}
    (rendered : renderFrom context prototype turns (before ++ rest) before.length =
      some (resolvedPlaceholders context.variableValues rest, final)) :
    ∀ matched name, .placeholder matched name ∈ segments rest →
      Alike context prototype matched name := by
  induction rest using scan_induction generalizing before turns final with
  | nil =>
      intro matched name placeholderMem
      cases placeholderMem
  | letter letter rest noTemplate ih =>
      intro matched name placeholderMem
      rw [segments_letter noTemplate, List.mem_cons] at placeholderMem
      rcases placeholderMem with isLetter | later
      · cases isLetter
      · rw [renderFrom_char noTemplate, resolvedPlaceholders_letter _ noTemplate] at rendered
        refine ih ?_ rendered matched name later
        intro other found otherMem
        apply ordinary other found
        rw [segments_letter noTemplate]
        exact List.mem_cons_of_mem _ otherMem
  | placeholder text found length isTemplate ih =>
      have isFirst : .placeholder (text.take length) found ∈ segments text := by
        rw [segments_placeholder isTemplate]
        exact List.mem_cons_self
      cases turns with
      | zero => cases rendered
      | succ turns =>
          rw [renderFrom_placeholder isTemplate, replacementOf_ordinary (ordinary _ _ isFirst),
            Option.bind_some, Option.map_eq_some_iff] at rendered
          rcases rendered with ⟨⟨later, last⟩, laterRendered, same⟩
          rw [resolvedPlaceholders_placeholder _ isTemplate, Prod.mk.injEq, List.cons.injEq,
            Replaced.mk.injEq] at same
          rcases same with ⟨⟨⟨_, sameText⟩, sameLater⟩, _⟩
          rcases parts_of_templateAt isTemplate with ⟨isPlaceholder, isName⟩
          have isAlike := alike_of_text isPlaceholder isName sameText
          intro matched name placeholderMem
          rw [segments_placeholder isTemplate, List.mem_cons] at placeholderMem
          rcases placeholderMem with isSame | laterMem
          · cases isSame
            exact isAlike
          · rw [isAlike, Replacement.text, Replacement.cursor, ← List.length_append,
              sameLater] at laterRendered
            refine ih ?_ laterRendered matched name laterMem
            intro other found otherMem
            apply ordinary other found
            rw [segments_placeholder isTemplate]
            exact List.mem_cons_of_mem _ otherMem

/-! ## Tags -/

/-- No tag starts anywhere in a text. -/
def TagFree (text : Text) : Prop :=
  ∀ rest, rest <:+ text → rawTagAt rest = none

theorem tagFree_cons {letter : Char} {rest : Text} :
    TagFree (letter :: rest) ↔ rawTagAt (letter :: rest) = none ∧ TagFree rest := by
  unfold TagFree
  simp only [List.suffix_cons_iff]
  constructor
  · intro free
    exact ⟨free _ (.inl rfl), fun later isLater => free later (.inr isLater)⟩
  · rintro ⟨noTag, free⟩ later (rfl | isLater)
    · exact noTag
    · exact free later isLater

variable (context) in
theorem renderTags_tagFree_iff {text : Text} :
    renderTags context text = ([], some text) ↔ TagFree text := by
  induction text with
  | nil =>
      refine ⟨fun _ rest isRest => ?_, fun _ => rfl⟩
      rw [List.suffix_nil.mp isRest]
      simp [rawTagAt]
  | cons letter rest ih =>
      rw [tagFree_cons]
      constructor
      · intro rendered
        cases isTag : rawTagAt (letter :: rest) with
        | none =>
            rw [renderTags_cons context isTag, Prod.mk.injEq] at rendered
            refine ⟨rfl, ih.mp (Prod.ext rendered.1 ?_)⟩
            exact renderTags_eq_of_noCalls context rendered.1
        | some found =>
            rw [renderTags, renderTagsAfter, isTag] at rendered
            dsimp only at rendered
            split at rendered <;> cases rendered
      · rintro ⟨noTag, free⟩
        rw [renderTags_cons context noTag, ih.mpr free]
        rfl

theorem NoTagAcross.tail {values : Text → Option Text} {part : Segment} {parts : List Segment}
    (noTag : NoTagAcross values (part :: parts)) : NoTagAcross values parts := by
  intro before after isParts edge ends
  have notEmpty : before ≠ [] := by
    rintro rfl
    cases ends
  apply noTag (part :: before) after (by rw [isParts, List.cons_append])
  · rw [List.getLast?_cons_of_ne_nil notEmpty]
    exact edge
  · rw [resolvedText, List.flatMap_cons, List.getLast?_append]
    rw [resolvedText] at ends
    rw [ends]
    rfl

theorem noTag_at_edge {values : Text → Option Text} {part : Segment} {parts : List Segment}
    {behind : Text}
    (sourceSeam : ¬ (part.source.getLast? = some '{' ∧
      (parts.flatMap Segment.source).head? = some '%'))
    (noTag : NoTagAcross values (part :: parts))
    (ends : (part.resolved values).getLast? = some '{')
    (starts : resolvedText values parts = '%' :: behind) :
    rawTagAt ('{' :: resolvedText values parts) = none := by
  have partText : resolvedText values [part] = part.resolved values := by
    rw [resolvedText, List.flatMap_singleton]
  apply noTag [part] parts rfl
  · cases part with
    | placeholder matched name => exact .inl rfl
    | char letter =>
        cases parts with
        | nil => cases starts
        | cons second parts =>
            cases second with
            | placeholder matched name => exact .inr rfl
            | char following =>
                exfalso
                apply sourceSeam
                rw [resolvedText, List.flatMap_cons] at starts
                exact ⟨ends, congrArg List.head? starts⟩
  · rw [partText, ends]

/-- A tag in a resolved text is spelled across an edge, since the parts have none. -/
theorem tagFree_of_noTagAcross {values : Text → Option Text} {parts : List Segment}
    (sourcePlain : PairFree '{' '%' (parts.flatMap Segment.source))
    (valuesPlain : ∀ name value, values name = some value → PairFree '{' '%' value)
    (noTag : NoTagAcross values parts) : TagFree (resolvedText values parts) := by
  induction parts with
  | nil =>
      intro rest isRest
      rw [resolvedText, List.flatMap_nil, List.suffix_nil] at isRest
      rw [isRest]
      simp [rawTagAt]
  | cons part parts ih =>
      rw [List.flatMap_cons, pairFree_append] at sourcePlain
      have partPlain : PairFree '{' '%' (part.resolved values) := by
        cases part with
        | char letter => exact pairFree_singleton _ _ letter
        | placeholder matched name =>
            cases found : values name with
            | none =>
                rw [Segment.resolved, found, Option.getD_none]
                exact sourcePlain.1
            | some value =>
                rw [Segment.resolved, found, Option.getD_some]
                exact valuesPlain name value found
      intro rest isRest
      rw [resolvedText, List.flatMap_cons, ← resolvedText] at isRest
      by_contra isTag
      rcases starts_of_rawTagAt isTag with ⟨behind, isText⟩
      rcases isRest with ⟨front, isWhole⟩
      rcases List.append_eq_append_iff.mp isWhole with
        ⟨middle, isPart, isMiddle⟩ | ⟨middle, _, isLater⟩
      · cases middle with
        | nil =>
            rw [List.nil_append] at isMiddle
            exact isTag (ih sourcePlain.2.1 noTag.tail rest (isMiddle ▸ List.suffix_refl _))
        | cons first middle =>
            rw [isMiddle, List.cons_append, List.cons.injEq] at isText
            cases middle with
            | nil =>
                rw [isText.1] at isPart
                rw [isMiddle, isText.1] at isTag
                exact isTag (noTag_at_edge sourcePlain.2.2 noTag (isPart ▸ List.getLast?_concat)
                  isText.2)
            | cons second middle =>
                rw [List.cons_append, List.cons.injEq] at isText
                rw [isPart, isText.1, isText.2.1, pairFree_append, pairFree_cons] at partPlain
                exact partPlain.2.1.2 ⟨rfl, rfl⟩
      · exact isTag (ih sourcePlain.2.1 noTag.tail rest ⟨middle, isLater.symm⟩)

theorem noTagAcross_of_tagFree {values : Text → Option Text} {parts : List Segment}
    (free : TagFree (resolvedText values parts)) : NoTagAcross values parts := by
  intro before after isParts _ ends
  rcases List.getLast?_eq_some_iff.mp ends with ⟨front, isFront⟩
  apply free
  refine ⟨front, ?_⟩
  have isWhole : resolvedText values (before ++ after) =
      resolvedText values before ++ resolvedText values after := List.flatMap_append
  rw [isParts, isWhole, isFront, List.append_assoc, List.singleton_append]

/-! ## The renderers -/

theorem alike_iff_lookUps {source : Text} :
    (∀ matched name, .placeholder matched name ∈ segments source →
      Alike context prototype matched name) ↔
      (∀ matched name, .placeholder matched name ∈ segments source →
        context.variableValues (trimText name) = none →
          prototype.member (trimText name) = none) ∧
      ∀ matched name, .placeholder matched name ∈ segments source → trimText name = [] →
        (context.variableValues []).getD matched =
          (context.variableValues name).getD matched := by
  constructor
  · intro alike
    have each (matched name : Text)
        (placeholderMem : .placeholder matched name ∈ segments source) :=
      (alike_iff (mem_segments placeholderMem).1 (mem_segments placeholderMem).2).mp
        (alike matched name placeholderMem)
    exact ⟨fun matched name placeholderMem => (each matched name placeholderMem).1,
      fun matched name placeholderMem => (each matched name placeholderMem).2⟩
  · rintro ⟨notInherited, blankAlike⟩ matched name placeholderMem
    exact (alike_iff (mem_segments placeholderMem).1 (mem_segments placeholderMem).2).mpr
      ⟨notInherited matched name placeholderMem, blankAlike matched name placeholderMem⟩

theorem tagFree_iff_noTagAcross {source : Text} (sourcePlain : PairFree '{' '%' source)
    (valuesPlain : ∀ name value, context.variableValues name = some value →
      PairFree '{' '%' value) :
    TagFree (resolveTemplate context.variableValues source) ↔
      NoTagAcross context.variableValues (segments source) := by
  rw [resolveTemplate_eq, ← resolvedText]
  refine ⟨noTagAcross_of_tagFree, tagFree_of_noTagAcross ?_ valuesPlain⟩
  rw [flatMap_source]
  exact sourcePlain

variable (context prototype) in
/-- What is sent is what is shown exactly if no placeholder has a name that the object of
variables only inherits, white space alone has the same value under both its names, and no tag is
spelled across the edge of an inserted text. -/
theorem renderersAgree_iff {source : Text} (ordinary : OrdinaryNames source)
    (sourcePlain : PairFree '{' '%' source)
    (valuesPlain : ∀ name value, context.variableValues name = some value →
      PairFree '{' '%' value) :
    RenderersAgree context prototype source ↔ Agreeable context prototype source := by
  have tags := @tagFree_iff_noTagAcross context source sourcePlain valuesPlain
  constructor
  · rintro ⟨turns, rendered⟩
    rw [renderTemplate, Option.map_eq_some_iff] at rendered
    rcases rendered with ⟨⟨replaced, output⟩, looped, same⟩
    rw [Rendering.mk.injEq] at same
    rcases same with ⟨rfl, noCalls, isText⟩
    rw [renderTags_eq_of_noCalls context noCalls, Option.some.injEq] at isText
    subst isText
    have alike := @alike_of_renderFrom context prototype source ordinary turns [] _ looped
    have lookUps := alike_iff_lookUps.mp alike
    refine ⟨lookUps.1, lookUps.2, tags.mp ?_⟩
    exact (renderTags_tagFree_iff context).mp
      (Prod.ext noCalls (renderTags_eq_of_noCalls context noCalls))
  · rintro ⟨notInherited, blankAlike, noTag⟩
    have alike := alike_iff_lookUps.mpr ⟨notInherited, blankAlike⟩
    rcases renderFrom_of_alike ordinary alike [] with ⟨turns, looped⟩
    refine ⟨turns, ?_⟩
    have started : renderEnvironmentValues context prototype turns source =
        some (resolvedPlaceholders context.variableValues source,
          resolveTemplate context.variableValues source) := looped
    have tagged := (renderTags_tagFree_iff context).mpr (tags.mpr noTag)
    rw [renderTemplate, started, Option.map_some]
    dsimp only
    rw [tagged]

end Agreement

/-! ## Names that every object has -/

def functionMember (name : Text) (length : ℕ) : Member where
  text := "function ".toList ++ name ++ "() \x7b [native code] \x7d".toList
  length := some length
  noPlaceholder := by simp

def objectMethods : List (Text × ℕ) :=
  [("toString".toList, 0), ("toLocaleString".toList, 0), ("valueOf".toList, 0),
    ("hasOwnProperty".toList, 1), ("isPrototypeOf".toList, 1),
    ("propertyIsEnumerable".toList, 1), ("__defineGetter__".toList, 2),
    ("__defineSetter__".toList, 2), ("__lookupGetter__".toList, 1),
    ("__lookupSetter__".toList, 1)]

/-- `Object.prototype`. -/
def objectPrototype : Prototype where
  member name :=
    if name = "__proto__".toList then some ⟨"[object Object]".toList, none, by decide⟩
    else if name = "constructor".toList then some (functionMember "Object".toList 1)
    else (objectMethods.find? fun method => method.1 = name).map fun method =>
      functionMember method.1 method.2
  named := rfl

def hostContext : TemplateContext where
  variableValues name := if name = "host".toList then some "example.test".toList else none
  uuid := none
  randomUUID := []
  timestamp := []
  isoTimestamp := []
  renderFakerValue _ := none
  resolveRawTag _ _ := none

def placeholderOf (name : String) : Text :=
  "\x7b\x7b".toList ++ name.toList ++ "\x7d\x7d".toList

theorem hostContext_valuesPlain : ∀ name value, hostContext.variableValues name = some value →
    PairFree '{' '%' value := by
  intro name value found
  simp only [hostContext] at found
  split at found
  · cases found
    decide
  · cases found

theorem placeholderOf_ordinary {name : String} (isSegment : segments (placeholderOf name) =
    [.placeholder (placeholderOf name) name.toList])
    (ordinary : ¬ "faker.".toList <+: trimText name.toList ∧
      (trimText name.toList).head? ≠ some '$') : OrdinaryNames (placeholderOf name) := by
  intro matched found placeholderMem
  rw [isSegment, List.mem_singleton] at placeholderMem
  cases placeholderMem
  exact ordinary

/-- The name of a variable is replaced by its value. -/
theorem host_renderersAgree :
    RenderersAgree hostContext objectPrototype (placeholderOf "host") ∧
      Agreeable hostContext objectPrototype (placeholderOf "host") := by
  have agree : RenderersAgree hostContext objectPrototype (placeholderOf "host") := ⟨2, rfl⟩
  exact ⟨agree, (renderersAgree_iff hostContext objectPrototype
    (placeholderOf_ordinary rfl (by decide)) (by decide) hostContext_valuesPlain).mp agree⟩

/-- A name that is no variable is replaced by the text of an inherited function. -/
theorem constructor_replaced :
    OrdinaryNames (placeholderOf "constructor") ∧
      PairFree '{' '%' (placeholderOf "constructor") ∧
      (∀ name value, hostContext.variableValues name = some value → PairFree '{' '%' value) ∧
      ¬ RenderersAgree hostContext objectPrototype (placeholderOf "constructor") := by
  have ordinary : OrdinaryNames (placeholderOf "constructor") :=
    placeholderOf_ordinary rfl (by decide)
  refine ⟨ordinary, by decide, hostContext_valuesPlain, ?_⟩
  rintro ⟨turns, rendered⟩
  rw [renderTemplate, Option.map_eq_some_iff] at rendered
  rcases rendered with ⟨⟨replaced, output⟩, looped, same⟩
  rw [Rendering.mk.injEq] at same
  rcases same with ⟨rfl, _, _⟩
  have alike := @alike_of_renderFrom hostContext objectPrototype _ ordinary turns [] _ looped
    (placeholderOf "constructor") "constructor".toList (List.mem_singleton.mpr rfl)
  cases alike

end Brunomnia.Templates.Loop
