import Brunomnia.Codegen.Encoding
import Brunomnia.Templates.RoundTrip

/-!
# The loop that puts values in

A request is sent with the text of a loop, which finds the next placeholder behind a cursor, puts
the value in its place and moves the cursor behind it. Previews and generated code have the text of
one replacement of all placeholders. The loop looks names up in the object of variables with what
the object inherits, and moves the cursor by the length of what it found, which for a function is
the number of its parameters and for other objects is missing, so that the loop starts again.
-/

namespace Brunomnia.Templates.Loop

open Codegen (Text trimText templateAt templateName resolveAfter resolveTemplate)
open Library

/-! ## The object of variables -/

/-- A member of a prototype: its text and, unless it has none, its length. It is no string. -/
structure Member where
  text : Text
  length : Option ℕ
  noPlaceholder : text.head? ≠ some '{'

structure Prototype where
  member : Text → Option Member
  named : member [] = none

/-- What stands in the place of a placeholder. -/
inductive Replacement where
  | string (text : Text)
  | member (found : Member)

def Replacement.text : Replacement → Text
  | .string text => text
  | .member found => found.text

/-- `match.index + replacement.length`, which starts at the front if it is no number. -/
def Replacement.cursor (index : ℕ) : Replacement → ℕ
  | .string text => index + text.length
  | .member found => found.length.elim 0 fun length => index + length

/-! ## The loop -/

/-- A placeholder and the text that was put in its place. -/
structure Replaced where
  matched : Text
  text : Text

/-- The first placeholder of a text: where it starts, its name, and its length. -/
def firstTemplate : Text → Option (ℕ × Text × ℕ)
  | [] => none
  | letter :: rest =>
      match templateAt (letter :: rest) with
      | some (name, length) => some (0, name, length)
      | none => (firstTemplate rest).map fun (index, found) => (index + 1, found)

section Rendering

variable (context : TemplateContext) (prototype : Prototype)

/-- The own values of the object are those of the context. -/
def lookUp (matched name : Text) : Replacement :=
  match context.variableValues name with
  | some value => .string value
  | none =>
      match prototype.member name with
      | some found => .member found
      | none => .string matched

/-- What is put in the place of a placeholder, unless making it throws. -/
def replacementOf (matched name : Text) : Option Replacement :=
  let trimmed := trimText name
  if "faker.".toList <+: trimmed then
    let fakerName := trimmed.drop 6
    match context.uuid with
    | some uuid =>
        if fakerName = "guid".toList ∨ fakerName = "randomUUID".toList then some (.string uuid)
        else (context.renderFakerValue fakerName).map .string
    | none => (context.renderFakerValue fakerName).map .string
  else if trimmed = "$randomUUID".toList ∨ trimmed = "$guid".toList then
    some (.string (context.uuid.getD context.randomUUID))
  else if trimmed = "$timestamp".toList then some (.string context.timestamp)
  else if trimmed = "$isoTimestamp".toList then some (.string context.isoTimestamp)
  else if "$random".toList <+: trimmed then
    let fakerName := trimmed.drop 1
    match context.uuid with
    | some uuid =>
        if fakerName = "randomUUID".toList then some (.string uuid)
        else (context.renderFakerValue fakerName).map .string
    | none => (context.renderFakerValue fakerName).map .string
  else some (lookUp context prototype matched trimmed)

/-- The loop of `renderEnvironmentValues` for at most so many turns: what it replaced, in order,
and the text that it leaves. -/
def renderFrom : ℕ → Text → ℕ → Option (List Replaced × Text)
  | 0, _, _ => none
  | turns + 1, output, cursor =>
      match firstTemplate (output.drop cursor) with
      | none => some ([], output)
      | some (offset, name, length) =>
          let index := cursor + offset
          let matched := (output.drop index).take length
          (replacementOf context prototype matched name).bind fun replacement =>
            let next := output.take index ++ replacement.text ++ output.drop (index + length)
            (renderFrom turns next (replacement.cursor index)).map fun (later, final) =>
                (⟨matched, replacement.text⟩ :: later, final)

def renderEnvironmentValues (turns : ℕ) (source : Text) : Option (List Replaced × Text) :=
  renderFrom context prototype turns source 0

/-- What a rendering did and the text that it gave. -/
structure Rendering where
  replaced : List Replaced
  tagCalls : List (Text × List Text)
  text : Option Text

def renderTemplate (turns : ℕ) (source : Text) : Option Rendering :=
  (renderEnvironmentValues context prototype turns source).map fun (replaced, output) =>
    ⟨replaced, (renderTags context output).1, (renderTags context output).2⟩

end Rendering

/-! ## The parts of a text -/

inductive Segment where
  | char (letter : Char)
  | placeholder (matched name : Text)

/-- The letters and the placeholders of a text; `skipped` characters still belong to the last
placeholder. -/
def segmentsAfter : ℕ → Text → List Segment
  | _, [] => []
  | skipped + 1, _ :: rest => segmentsAfter skipped rest
  | 0, letter :: rest =>
      match templateAt (letter :: rest) with
      | none => .char letter :: segmentsAfter 0 rest
      | some (name, length) =>
          .placeholder ((letter :: rest).take length) name :: segmentsAfter (length - 1) rest

def segments (text : Text) : List Segment :=
  segmentsAfter 0 text

def Segment.source : Segment → Text
  | .char letter => [letter]
  | .placeholder matched _ => matched

section Segments

variable (values : Text → Option Text)

/-- What one replacement of all placeholders puts in the place of a segment. -/
def Segment.resolved : Segment → Text
  | .char letter => [letter]
  | .placeholder matched name => (values name).getD matched

/-- A placeholder with its replacement. -/
def Segment.replaced : Segment → Option Replaced
  | .char _ => none
  | .placeholder matched name => some ⟨matched, (values name).getD matched⟩

/-- What one replacement of all placeholders replaces, in order. -/
def resolvedPlaceholders (text : Text) : List Replaced :=
  (segments text).filterMap (Segment.replaced values)

end Segments

theorem length_of_templateAt {text name : Text} {length : ℕ}
    (isTemplate : templateAt text = some (name, length)) :
    4 < length ∧ length ≤ text.length := by
  unfold templateAt at isTemplate
  split at isTemplate
  case isTrue starts =>
      dsimp only at isTemplate
      split at isTemplate
      case isTrue ends =>
          simp only [Option.some.injEq, Prod.mk.injEq] at isTemplate
          have positive := List.length_pos_iff.mpr ends.1
          have closes := ends.2.length_le
          simp only [List.length_cons, List.length_nil, List.length_drop] at closes
          omega
      case isFalse => cases isTemplate
  case isFalse => cases isTemplate

theorem scan_induction {motive : Text → Prop} (nil : motive [])
    (letter : ∀ letter rest, templateAt (letter :: rest) = none → motive rest →
      motive (letter :: rest))
    (placeholder : ∀ text name length, templateAt text = some (name, length) →
      motive (text.drop length) → motive text) (text : Text) : motive text := by
  induction size : text.length using Nat.strong_induction_on generalizing text with
  | _ size ih =>
      subst size
      cases isTemplate : templateAt text with
      | some found =>
          have bounds := length_of_templateAt isTemplate
          apply placeholder text found.1 found.2 isTemplate
          apply ih _ _ _ rfl
          rw [List.length_drop]
          omega
      | none =>
          cases text with
          | nil => exact nil
          | cons first rest =>
              exact letter first rest isTemplate (ih _ (Nat.lt_succ_self _) rest rfl)

section Scanning

variable (values : Text → Option Text) {text name : Text} {length : ℕ}

theorem segmentsAfter_drop (skipped : ℕ) (text : Text) :
    segmentsAfter skipped text = segments (text.drop skipped) := by
  induction text generalizing skipped with
  | nil => cases skipped <;> simp [segments, segmentsAfter]
  | cons letter rest ih =>
      cases skipped with
      | zero => rfl
      | succ skipped =>
          rw [segmentsAfter, ih]
          rfl

theorem segments_letter {letter : Char} {rest : Text}
    (noTemplate : templateAt (letter :: rest) = none) :
    segments (letter :: rest) = .char letter :: segments rest := by
  rw [segments, segmentsAfter, noTemplate, segmentsAfter_drop]
  rfl

theorem segments_placeholder (isTemplate : templateAt text = some (name, length)) :
    segments text = .placeholder (text.take length) name :: segments (text.drop length) := by
  have bounds := length_of_templateAt isTemplate
  cases text with
  | nil =>
      rw [List.length_nil] at bounds
      omega
  | cons letter rest =>
      rw [segments, segmentsAfter, isTemplate]
      dsimp only
      rw [segmentsAfter_drop]
      cases length with
      | zero => omega
      | succ length => rfl

theorem resolveAfter_drop (skipped : ℕ) (text : Text) :
    resolveAfter values skipped text = resolveTemplate values (text.drop skipped) := by
  induction text generalizing skipped with
  | nil => cases skipped <;> simp [resolveTemplate, resolveAfter]
  | cons letter rest ih =>
      cases skipped with
      | zero => rfl
      | succ skipped =>
          rw [resolveAfter, ih]
          rfl

theorem resolveTemplate_eq (text : Text) :
    resolveTemplate values text = (segments text).flatMap (Segment.resolved values) := by
  induction text using scan_induction with
  | nil => rfl
  | letter letter rest noTemplate ih =>
      rw [segments_letter noTemplate, List.flatMap_cons, ← ih, resolveTemplate, resolveAfter,
        noTemplate]
      rfl
  | placeholder text name length isTemplate ih =>
      rw [segments_placeholder isTemplate, List.flatMap_cons, ← ih]
      have bounds := length_of_templateAt isTemplate
      cases text with
      | nil =>
          rw [List.length_nil] at bounds
          omega
      | cons letter rest =>
          rw [resolveTemplate, resolveAfter, isTemplate]
          dsimp only
          rw [resolveAfter_drop]
          cases length with
          | zero => omega
          | succ length => rfl

theorem flatMap_source (text : Text) : (segments text).flatMap Segment.source = text := by
  induction text using scan_induction with
  | nil => rfl
  | letter letter rest noTemplate ih =>
      rw [segments_letter noTemplate, List.flatMap_cons, ih]
      rfl
  | placeholder text name length isTemplate ih =>
      rw [segments_placeholder isTemplate, List.flatMap_cons, ih]
      exact List.take_append_drop length text

end Scanning

end Brunomnia.Templates.Loop
