import Brunomnia.Library.Lists
import Brunomnia.Runner.Variables

/-!
# Data rows of a run

`parseRunnerData` reads the rows of variables that a run goes through, from JSON or from a table
of comma-separated values. It cuts a table into lines before it looks for quotes, so a table that
has been written as others write it is read back exactly if none of its cells has a line break.
-/

namespace Brunomnia.Runner

open Codegen (Text trimText)
open Library

/-! ## Reading tables -/

/-- The loop of `parseCsvLine`: what is left of the line, the values, the value at hand, and
whether that is within quotes. -/
def parseCsvLineFrom : Text → List Text → Text → Bool → List Text
  | [], values, value, _ => values ++ [value]
  | '"' :: '"' :: rest, values, value, true =>
      parseCsvLineFrom rest values (value ++ ['"']) true
  | '"' :: rest, values, value, quoted => parseCsvLineFrom rest values value (!quoted)
  | ',' :: rest, values, value, false => parseCsvLineFrom rest (values ++ [value]) [] false
  | letter :: rest, values, value, quoted =>
      parseCsvLineFrom rest values (value ++ [letter]) quoted

def parseCsvLine (line : Text) : List Text :=
  parseCsvLineFrom line [] [] false

/-- `text.split(/\r?\n/)` -/
def splitLines : Text → List Text
  | [] => [[]]
  | '\r' :: '\n' :: rest => [] :: splitLines rest
  | '\n' :: rest => [] :: splitLines rest
  | letter :: rest => (letter :: (splitLines rest).headD []) :: (splitLines rest).tail

/-- `Object.fromEntries(entries)` -/
def fromEntries (entries : List (Text × Text)) : Variables :=
  entries.foldl (fun record entry => record.define entry.1 entry.2) noVariables

/-- The text is read as JSON. -/
def startsJson (contents : Text) : Bool :=
  (contents.dropWhile isWhiteSpace).head? = some '[' ∨
    (contents.dropWhile isWhiteSpace).head? = some '{'

/-- `jsonRows` are the rows of a text of JSON, unless it throws. -/
def parseRunnerData (jsonRows : Text → Option (List Variables)) (contents : Text) :
    Option (List Variables) :=
  if trimText contents = [] then some []
  else if startsJson contents then jsonRows contents
  else
    match (splitLines contents).filter fun line => trimText line ≠ [] with
    | header :: line :: lines =>
        let headers := (parseCsvLine header).map trimText
        some ((line :: lines).map fun line =>
          fromEntries (headers.zipIdx.map fun header =>
            (header.1, ((parseCsvLine line)[header.2]?).getD [])))
    | _ => some []

/-! ## Writing tables -/

/-- A cell, in quotes if it has a comma, a quote or a line break. -/
def csvCell (cell : Text) : Text :=
  if ∃ letter ∈ cell, letter ∈ [',', '"', '\r', '\n'] then
    ['"'] ++ cell.flatMap (fun letter => if letter = '"' then ['"', '"'] else [letter]) ++ ['"']
  else cell

def csvLine (cells : List Text) : Text :=
  List.intercalate [','] (cells.map csvCell)

inductive LineEnd where
  | lf
  | crlf
  deriving DecidableEq

def LineEnd.text : LineEnd → Text
  | .lf => ['\n']
  | .crlf => ['\r', '\n']

def csvTable (lineEnd : LineEnd) (records : List (List Text)) : Text :=
  List.intercalate lineEnd.text (records.map csvLine)

/-- A table with names for its columns, none of whose rows is blank. -/
structure RunnerTable where
  headers : List Text
  rows : List (List Text)
  hasHeaders : headers ≠ []
  hasRows : rows ≠ []
  distinct : headers.Nodup
  named : ∀ header ∈ headers, trimText header = header ∧ header ≠ []
  noJson : ∀ header ∈ headers, header.head? ≠ some '[' ∧ header.head? ≠ some '{'
  sameWidth : ∀ row ∈ rows, row.length = headers.length
  notBlank : ∀ row ∈ rows, ∃ cell ∈ row, trimText cell ≠ []

def RunnerTable.text (table : RunnerTable) (lineEnd : LineEnd) : Text :=
  csvTable lineEnd (table.headers :: table.rows)

/-- A record has a cell under every header, and nothing else. -/
def IsRecordOf (headers row : List Text) (record : Variables) : Prop :=
  (∀ entry ∈ headers.zip row, record entry.1 = some entry.2) ∧
    ∀ key, key ∉ headers → record key = none

def RunnerTable.ReadsBack (table : RunnerTable) (jsonRows : Text → Option (List Variables))
    (lineEnd : LineEnd) : Prop :=
  ∃ records, parseRunnerData jsonRows (table.text lineEnd) = some records ∧
    List.Forall₂ (IsRecordOf table.headers) table.rows records

def RunnerTable.SingleLined (table : RunnerTable) : Prop :=
  ∀ record ∈ table.headers :: table.rows, ∀ cell ∈ record, '\n' ∉ cell

/-! ## Cells of a line -/

section Cells

variable (rest : Text) (values : List Text) (value : Text)

attribute [local simp] parseCsvLineFrom

theorem parse_letter {letter : Char} (notQuote : letter ≠ '"') :
    parseCsvLineFrom (letter :: rest) values value true =
      parseCsvLineFrom rest values (value ++ [letter]) true := by
  rw [parseCsvLineFrom] <;> simp [notQuote]

theorem parse_doubled :
    parseCsvLineFrom ('"' :: '"' :: rest) values value true =
      parseCsvLineFrom rest values (value ++ ['"']) true := by
  rw [parseCsvLineFrom]

theorem parse_closing (notDoubled : rest.head? ≠ some '"') :
    parseCsvLineFrom ('"' :: rest) values value true =
      parseCsvLineFrom rest values value false := by
  rw [parseCsvLineFrom]
  · rfl
  · intro more _ doubled
    rw [doubled] at notDoubled
    exact notDoubled rfl

theorem parse_plain {text : Text} (plain : ∀ letter ∈ text, letter ≠ ',' ∧ letter ≠ '"') :
    parseCsvLineFrom (text ++ rest) values value false =
      parseCsvLineFrom rest values (value ++ text) false := by
  induction text generalizing value with
  | nil => simp
  | cons letter text ih =>
      rw [List.forall_mem_cons] at plain
      rw [List.cons_append, parseCsvLineFrom, ih _ plain.2]
      · simp
      · exact plain.1.2
      · simp
      · exact fun _ => plain.1.1

theorem parse_comma :
    parseCsvLineFrom (',' :: rest) values value false =
      parseCsvLineFrom rest (values ++ [value]) [] false := by
  rw [parseCsvLineFrom]

theorem parse_escaped (cell : Text) :
    parseCsvLineFrom
        (cell.flatMap (fun letter => if letter = '"' then ['"', '"'] else [letter]) ++ rest) values
        value true =
      parseCsvLineFrom rest values (value ++ cell) true := by
  induction cell generalizing value with
  | nil => simp
  | cons letter cell ih =>
      rw [List.flatMap_cons, List.append_assoc]
      by_cases isQuote : letter = '"'
      · subst isQuote
        simp only [if_true, List.cons_append, List.nil_append]
        rw [parse_doubled, ih]
        simp
      · simp only [if_neg isQuote, List.cons_append, List.nil_append]
        rw [parse_letter _ _ _ isQuote, ih]
        simp

theorem parse_cell (cell : Text) (ends : rest.head? ≠ some '"') :
    parseCsvLineFrom (csvCell cell ++ rest) values [] false =
      parseCsvLineFrom rest values cell false := by
  unfold csvCell
  split
  case isTrue =>
    rw [List.append_assoc, List.append_assoc, List.singleton_append, parseCsvLineFrom]
    · rw [Bool.not_false, parse_escaped, List.nil_append, List.singleton_append,
        parse_closing _ _ _ ends]
    · simp
  case isFalse plain =>
    rw [parse_plain, List.nil_append]
    intro letter mem
    constructor
    · rintro rfl
      exact plain ⟨_, mem, by decide⟩
    · rintro rfl
      exact plain ⟨_, mem, by decide⟩

end Cells

theorem csvLine_cons (cell : Text) (cells : List Text) (notEmpty : cells ≠ []) :
    csvLine (cell :: cells) = csvCell cell ++ ',' :: csvLine cells := by
  rcases List.exists_cons_of_ne_nil notEmpty with ⟨next, others, rfl⟩
  rw [csvLine, csvLine, List.map_cons, List.map_cons, intercalate_cons, intercalate_cons,
    List.flatMap_cons, List.append_assoc, List.singleton_append]

theorem csvLine_single (cell : Text) : csvLine [cell] = csvCell cell := by
  simp [csvLine, List.intercalate]

theorem parseCsvLineFrom_csvLine {cells : List Text} (notEmpty : cells ≠ [])
    (values : List Text) : parseCsvLineFrom (csvLine cells) values [] false = values ++ cells := by
  induction cells generalizing values with
  | nil => exact absurd rfl notEmpty
  | cons cell cells ih =>
      by_cases isLast : cells = []
      · subst isLast
        have read := parse_cell [] values cell (by simp)
        rw [List.append_nil] at read
        rw [csvLine_single, read, parseCsvLineFrom]
      · rw [csvLine_cons cell cells isLast, parse_cell _ _ _ (by simp), parse_comma, ih isLast]
        simp

theorem parseCsvLine_csvLine {cells : List Text} (notEmpty : cells ≠ []) :
    parseCsvLine (csvLine cells) = cells := by
  rw [parseCsvLine, parseCsvLineFrom_csvLine notEmpty, List.nil_append]

/-! ## Lines of a text -/

attribute [local simp] splitLines

theorem splitLines_ne_nil (text : Text) : splitLines text ≠ [] := by
  fun_induction splitLines text <;> simp

theorem headD_cons_tail_splitLines (text : Text) :
    (splitLines text).headD [] :: (splitLines text).tail = splitLines text := by
  rcases List.exists_cons_of_ne_nil (splitLines_ne_nil text) with ⟨line, lines, eq⟩
  rw [eq]
  rfl

theorem splitLines_single {text : Text} (single : '\n' ∉ text) : splitLines text = [text] := by
  fun_induction splitLines text with
  | case1 => rfl
  | case2 rest ih => simp at single
  | case3 rest ih => simp at single
  | case4 letter rest _ _ ih =>
      rw [List.mem_cons, not_or] at single
      rw [ih single.2]
      rfl

theorem splitLines_crlf (text rest : Text) :
    splitLines (text ++ '\r' :: '\n' :: rest) = splitLines text ++ splitLines rest := by
  fun_induction splitLines text with
  | case1 => rfl
  | case2 more ih =>
      rw [List.cons_append, List.cons_append, splitLines, ih]
      rfl
  | case3 more ih =>
      rw [List.cons_append, splitLines, ih]
      rfl
  | case4 letter more notBoth notFeed ih =>
      rw [List.cons_append, splitLines, ih]
      · rcases List.exists_cons_of_ne_nil (splitLines_ne_nil more) with ⟨line, lines, eq⟩
        rw [eq]
        rfl
      · intro other isReturn
        cases more with
        | nil => simp
        | cons second more =>
            intro same
            rw [List.cons_append, List.cons.injEq] at same
            exact notBoth more isReturn (by rw [same.1])
      · exact notFeed

theorem splitLines_lf {text : Text} (notReturn : text.getLast? ≠ some '\r') (rest : Text) :
    splitLines (text ++ '\n' :: rest) = splitLines text ++ splitLines rest := by
  fun_induction splitLines text with
  | case1 => rfl
  | case2 more ih =>
      have notReturn : more.getLast? ≠ some '\r' := by
        intro isReturn
        apply notReturn
        rw [List.getLast?_cons_cons, List.getLast?_cons, isReturn]
        rfl
      rw [List.cons_append, List.cons_append, splitLines, ih notReturn]
      rfl
  | case3 more ih =>
      have notReturn : more.getLast? ≠ some '\r' := by
        intro isReturn
        apply notReturn
        rw [List.getLast?_cons, isReturn]
        rfl
      rw [List.cons_append, splitLines, ih notReturn]
      rfl
  | case4 letter more notBoth notFeed ih =>
      have laterNotReturn : more.getLast? ≠ some '\r' := by
        intro isReturn
        apply notReturn
        rw [List.getLast?_cons, isReturn]
        rfl
      rw [List.cons_append, splitLines, ih laterNotReturn]
      · rcases List.exists_cons_of_ne_nil (splitLines_ne_nil more) with ⟨line, lines, eq⟩
        rw [eq]
        rfl
      · intro other isReturn
        cases more with
        | nil =>
            rw [isReturn] at notReturn
            exact absurd rfl notReturn
        | cons second more =>
            intro same
            rw [List.cons_append, List.cons.injEq] at same
            exact notBoth more isReturn (by rw [same.1])
      · exact notFeed

end Brunomnia.Runner
