import Brunomnia.Codegen.Text

/-!
# The preview of a table

A response of comma-separated values is shown as a table. The delimiter is the one that the first
record has most often outside quotes; the rest is one pass over the text, and stops where a row
would not fit.
-/

namespace Brunomnia.Previews

open Codegen (Text)

def delimiters : List Char :=
  [',', '\t', ';', '|']

def isLineBreak (character : Char) : Bool :=
  character = '\n' ∨ character = '\r'

/-! ## The delimiter -/

/-- The loop over the first record; the flags say that the next character has been taken already,
and that it is within quotes. -/
def countDelimiters : Bool → Bool → Text → (Char → ℕ) → Char → ℕ
  | _, _, [], counts => counts
  | true, quoted, _ :: rest, counts => countDelimiters false quoted rest counts
  | false, quoted, character :: rest, counts =>
      if character = '"' ∧ quoted ∧ rest.head? = some '"' then
        countDelimiters true quoted rest counts
      else if character = '"' then countDelimiters false (!quoted) rest counts
      else if !quoted ∧ isLineBreak character then counts
      else if !quoted ∧ character ∈ delimiters then
        countDelimiters false quoted rest
          (Function.update counts character (counts character + 1))
      else countDelimiters false quoted rest counts

def detectDelimiter (text : Text) : Char :=
  let counts := countDelimiters false false text fun _ => 0
  delimiters.foldl
    (fun best candidate => if counts candidate > counts best then candidate else best) ','

/-! ## The rows -/

/-- Limits are whole numbers, which `Math.trunc` leaves as they are. -/
structure Limits where
  maxRows : Option ℕ
  maxColumns : Option ℕ
  maxCells : Option ℕ

namespace Limits

def rows (limits : Limits) : ℕ :=
  max 1 (limits.maxRows.getD 10000)

def columns (limits : Limits) : ℕ :=
  max 1 (limits.maxColumns.getD 200)

def cells (limits : Limits) : ℕ :=
  max 1 (limits.maxCells.getD 250000)

end Limits

structure State where
  rows : List (List Text)
  row : List Text
  value : Text
  quoted : Bool
  truncated : Bool
  stopped : Bool
  cells : ℕ

structure CsvPreview where
  delimiter : Char
  error : Text
  rows : List (List Text)
  truncated : Bool

section Parsing

variable (limits : Limits)

def pushValue (state : State) : State :=
  if state.row.length < limits.columns then
    { state with row := state.row ++ [state.value], value := [] }
  else { state with truncated := true, value := [] }

/-- A row without any text is dropped; one that does not fit stops the loop. -/
def pushRow (state : State) : State :=
  if ∀ cell ∈ state.row, cell = [] then { state with row := [] }
  else if state.rows.length ≥ limits.rows ∨ state.cells + state.row.length > limits.cells then
    { state with truncated := true, stopped := true }
  else
    { state with
      rows := state.rows ++ [state.row]
      cells := state.cells + state.row.length
      row := [] }

/-- The loop over the characters; the flag says that the next one has been taken already. -/
def parseFrom (delimiter : Char) : Bool → Text → State → State
  | _, [], state => state
  | true, _ :: rest, state => parseFrom delimiter false rest state
  | false, character :: rest, state =>
      if character = '"' ∧ state.quoted ∧ rest.head? = some '"' then
        parseFrom delimiter true rest { state with value := state.value ++ ['"'] }
      else if character = '"' then
        parseFrom delimiter false rest { state with quoted := !state.quoted }
      else if !state.quoted ∧ character = delimiter then
        parseFrom delimiter false rest (pushValue limits state)
      else if !state.quoted ∧ isLineBreak character then
        let after := pushRow limits (pushValue limits state)
        if after.stopped then after
        else parseFrom delimiter (character = '\r' ∧ rest.head? = some '\n') rest after
      else parseFrom delimiter false rest { state with value := state.value ++ [character] }

def initialState : State where
  rows := []
  row := []
  value := []
  quoted := false
  truncated := false
  stopped := false
  cells := 0

/-- What the loop leaves without a line break is a row as well. -/
def finish (state : State) : State :=
  if !state.stopped ∧ (state.value ≠ [] ∨ state.row ≠ []) then
    pushRow limits (pushValue limits state)
  else state

/-- `parseCsvPreview(text, limits)` -/
def parseCsvPreview (text : Text) : CsvPreview :=
  let delimiter := detectDelimiter text
  let state := parseFrom limits delimiter false text initialState
  if state.quoted then
    { delimiter
      error := "CSV contains an unterminated quoted field.".toList
      rows := []
      truncated := false }
  else
    let state := finish limits state
    { delimiter, error := [], rows := state.rows, truncated := state.truncated }

end Parsing

end Brunomnia.Previews
