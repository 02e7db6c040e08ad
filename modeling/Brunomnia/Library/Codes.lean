import Brunomnia.Library.Lists

/-!
# Codes that end by themselves

The code of a value delimits itself if no other value has a code that starts a text with it, so
that a reader knows where it ends and which value it is of. Codes that delimit themselves can be
put one after the other, and into lists that are closed by a symbol that no item starts with.
-/

namespace Brunomnia.Library

variable {Value Other Symbol : Type*}

/-- A text that starts with the code of a value determines the value and what follows. -/
def DelimitsItself (code : Value → List Symbol) : Prop :=
  ∀ ⦃first second : Value⦄ ⦃rest others : List Symbol⦄,
    code first ++ rest = code second ++ others → first = second ∧ rest = others

/-- No code is empty or starts with a symbol. -/
def NeverStarts (symbol : Symbol) (code : Value → List Symbol) : Prop :=
  ∀ value, ∃ first rest, code value = first :: rest ∧ first ≠ symbol

namespace DelimitsItself

variable {code : Value → List Symbol} {otherCode : Other → List Symbol}

theorem injective (delimits : DelimitsItself code) : Function.Injective code := by
  intro first second same
  have both : code first ++ [] = code second ++ [] := by rw [same]
  exact (delimits both).1

theorem of_reader {read : List Symbol → Option (Value × List Symbol)}
    (reads : ∀ value rest, read (code value ++ rest) = some (value, rest)) :
    DelimitsItself code := by
  intro first second rest others same
  have readBoth : some (first, rest) = some (second, others) := by
    rw [← reads first rest, same, reads second others]
  rw [Option.some.injEq, Prod.mk.injEq] at readBoth
  exact readBoth

theorem prefixed (delimits : DelimitsItself code) (symbols : List Symbol) :
    DelimitsItself fun value => symbols ++ code value := by
  intro first second rest others same
  simp only [List.append_assoc, List.append_cancel_left_eq] at same
  exact delimits same

theorem suffixed (delimits : DelimitsItself code) (symbols : List Symbol) :
    DelimitsItself fun value => code value ++ symbols := by
  intro first second rest others same
  simp only [List.append_assoc] at same
  rcases delimits same with ⟨isSecond, sameRest⟩
  exact ⟨isSecond, List.append_cancel_left sameRest⟩

theorem append (delimits : DelimitsItself code) (otherDelimits : DelimitsItself otherCode) :
    DelimitsItself fun pair : Value × Other => code pair.1 ++ otherCode pair.2 := by
  rintro ⟨first, firstOther⟩ ⟨second, secondOther⟩ rest others same
  simp only [List.append_assoc] at same
  rcases delimits same with ⟨rfl, sameOther⟩
  rcases otherDelimits sameOther with ⟨rfl, sameRest⟩
  exact ⟨rfl, sameRest⟩

theorem comap (delimits : DelimitsItself code) {part : Other → Value}
    (injective : Function.Injective part) : DelimitsItself fun value => code (part value) := by
  intro first second rest others same
  rcases delimits same with ⟨samePart, sameRest⟩
  exact ⟨injective samePart, sameRest⟩

/-- The codes of a list one after the other, up to a symbol that none starts with. -/
theorem closed {last : Symbol} (delimits : DelimitsItself code) (opens : NeverStarts last code) :
    DelimitsItself fun values : List Value => values.flatMap code ++ [last] := by
  intro values
  induction values with
  | nil =>
      intro seconds rest others same
      cases seconds with
      | nil => simpa using same
      | cons second seconds =>
          rcases opens second with ⟨start, remaining, isCode, different⟩
          simp only [List.flatMap_nil, List.flatMap_cons, isCode, List.nil_append,
            List.cons_append, List.cons.injEq] at same
          exact absurd same.1.symm different
  | cons value values ih =>
      intro seconds rest others same
      cases seconds with
      | nil =>
          rcases opens value with ⟨start, remaining, isCode, different⟩
          simp only [List.flatMap_nil, List.flatMap_cons, isCode, List.nil_append,
            List.cons_append, List.cons.injEq] at same
          exact absurd same.1 different
      | cons second seconds =>
          simp only [List.flatMap_cons, List.append_assoc] at same
          rcases delimits same with ⟨rfl, sameTail⟩
          rcases ih (by simpa using sameTail) with ⟨rfl, sameRest⟩
          exact ⟨rfl, sameRest⟩

/-- The codes of a list with a separator between them, up to a symbol that neither the separator
nor a code starts with. -/
theorem separated {separator last : Symbol} (delimits : DelimitsItself code)
    (opens : NeverStarts last code) (different : separator ≠ last) :
    DelimitsItself fun values : List Value =>
      List.intercalate [separator] (values.map code) ++ [last] := by
  have tails : DelimitsItself fun values : List Value =>
      values.flatMap (fun value => [separator] ++ code value) ++ [last] :=
    (delimits.prefixed [separator]).closed fun value => ⟨separator, code value, rfl, different⟩
  have joined (value : Value) (values : List Value) :
      List.intercalate [separator] ((value :: values).map code) =
        code value ++ values.flatMap fun value => [separator] ++ code value := by
    rw [List.map_cons, intercalate_cons, List.flatMap_map]
  intro values seconds rest others same
  cases values with
  | nil =>
      cases seconds with
      | nil => simpa using same
      | cons second seconds =>
          rcases opens second with ⟨start, remaining, isCode, startDifferent⟩
          simp only [joined, List.map_nil, List.intercalate_nil, isCode, List.nil_append,
            List.cons_append, List.cons.injEq] at same
          exact absurd same.1.symm startDifferent
  | cons value values =>
      cases seconds with
      | nil =>
          rcases opens value with ⟨start, remaining, isCode, startDifferent⟩
          simp only [joined, List.map_nil, List.intercalate_nil, isCode, List.nil_append,
            List.cons_append, List.cons.injEq] at same
          exact absurd same.1 startDifferent
      | cons second seconds =>
          simp only [joined, List.append_assoc] at same
          rcases delimits same with ⟨rfl, sameTail⟩
          have tailsSame : (values.flatMap (fun value => [separator] ++ code value) ++ [last]) ++
              rest = (seconds.flatMap (fun value => [separator] ++ code value) ++ [last]) ++
                others := by
            simpa only [List.append_assoc] using sameTail
          rcases tails tailsSame with ⟨rfl, sameRest⟩
          exact ⟨rfl, sameRest⟩

end DelimitsItself

end Brunomnia.Library
