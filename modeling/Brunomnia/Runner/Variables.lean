import Brunomnia.Codegen.Text
import Brunomnia.Library.OrderedMaps

/-!
# Variables of rows

Environments, collections and folders hold rows of variables. A row of JSON defines its
name and, under dotted names, the members of its value. A record of variables is the
function from its keys to their values.
-/

namespace Brunomnia.Runner

open Codegen Library

inductive ValueType where
  | string
  | json
  | secret
  deriving DecidableEq

structure KeyValue where
  name : Text
  value : Text
  enabled : Bool
  valueType : ValueType
  deriving DecidableEq

/-- A parsed value: its text, and its entries if it is an object or an array. -/
inductive JsonTree where
  | node (text : Text) (entries : List (Text × JsonTree))

abbrev Variables := Text → Option Text

def noVariables : Variables := fun _ => none

/-- `Object.defineProperty(record, key, …)`. -/
def Variables.define (record : Variables) (key value : Text) : Variables :=
  fun other => if other = key then some value else record other

/-- `delete record[key]` for every key that is chosen. -/
def Variables.remove (record : Variables) (chosen : Text → Bool) : Variables :=
  fun key => if chosen key then none else record key

def prototypeKey : Text := "__proto__".toList

/-- `Object.assign(record, source)`, which sets no key called `__proto__`. -/
def Variables.assign (record source : Variables) : Variables :=
  fun key => if key = prototypeKey then record key else (source key).or (record key)

/-- `{ ...record, ...source }`. -/
def Variables.spread (record source : Variables) : Variables :=
  fun key => (source key).or (record key)

/-- The names that are a given one or lie under it. -/
def covers (name key : Text) : Bool :=
  key = name ∨ name ++ ['.'] <+: key

def maxTotalValues : ℕ := 10000

/-- Appends the members of a value down to some depth, and counts them. -/
def appendMembers : ℕ → JsonTree → Text → ℕ × List (Text × Text) → ℕ × List (Text × Text)
  | 0, _, _, state => state
  | depth + 1, .node _ entries, path, state =>
      (entries.take 1000).foldl
        (fun state entry =>
          if state.1 ≥ maxTotalValues then state
          else
            let childPath := path ++ '.' :: entry.1
            let text := match entry.2 with
              | .node text _ => text
            appendMembers depth entry.2 childPath (state.1 + 1, state.2 ++ [(childPath, text)]))
        state

section Rows

variable (parse : Text → Option JsonTree)

/-- `environmentRowVariables`, as the definitions in the order in which they are made. -/
def environmentRowEntries (row : KeyValue) : List (Text × Text) :=
  let name := trimText row.name
  if name = [] ∨ row.enabled = false ∨ row.valueType = .secret then []
  else if row.valueType ≠ .json then [(name, row.value)]
  else
    match parse row.value with
    | none => [(name, row.value)]
    | some tree => (appendMembers 21 tree name (0, [(name, row.value)])).2

def defineAll (record : Variables) (entries : List (Text × Text)) : Variables :=
  entries.foldl (fun record entry => record.define entry.1 entry.2) record

/-- A row replaces whatever was defined under its name. -/
def applyRow (record : Variables) (row : KeyValue) : Variables :=
  let name := trimText row.name
  if name = [] then record
  else defineAll (record.remove (covers name)) (environmentRowEntries parse row)

/-- `environmentVariables(rows)`. -/
def environmentVariables (rows : List KeyValue) : Variables :=
  rows.foldl (applyRow parse) noVariables

structure VariableScope where
  values : Variables
  disabled : List Text

/-- The set of disabled names after a row. -/
def applyDisabled (disabled : List Text) (row : KeyValue) : List Text :=
  let name := trimText row.name
  if name = [] then disabled
  else if row.enabled then disabled.filter fun other => other ≠ name
  else if name ∈ disabled then disabled
  else disabled ++ [name]

def variableScope (layers : List (List KeyValue)) : VariableScope where
  values := environmentVariables parse layers.flatten
  disabled := layers.flatten.foldl applyDisabled []

end Rows

/-! ## Merged rows -/

def rowKey (caseInsensitive : Bool) (row : KeyValue) : Text :=
  if caseInsensitive then lowerText (trimText row.name) else trimText row.name

def rowMap (rows : List KeyValue) (caseInsensitive : Bool) : List (Text × KeyValue) :=
  rows.foldl
    (fun entries row =>
      if trimText row.name = [] then entries
      else setEntry entries (rowKey caseInsensitive row) row)
    []

/-- `mergeRows(layers, caseInsensitive)`: of the rows with one name the last, in the place of
the first. -/
def mergeRows (layers : List (List KeyValue)) (caseInsensitive : Bool) : List KeyValue :=
  (layers.foldl
    (fun merged rows => setEntries merged (rowMap rows caseInsensitive))
    []).map Prod.snd

end Brunomnia.Runner
