import Brunomnia.Streaming.Lossy

/-!
# Server-sent events

A stream of bytes comes in chunks. The parser keeps what it has not understood yet in a
buffer, cuts it at a pair of line ends, and reads the fields of every block that it cuts off.
The reference reads the lines of the whole stream and cuts them at every blank line.
-/

namespace Brunomnia.Streaming

open Library

structure ParsedSseEvent where
  event : String
  data : String
  id : Option String
  retryMs : Option ℕ
  deriving DecidableEq

/-! ## Reading a block -/

section Lines

variable {Item : Type} [DecidableEq Item]

/-- A line without the carriage return at its end. -/
def stripCarriageReturn (carriageReturn : Item) (line : List Item) : List Item :=
  if line.getLast? = some carriageReturn then line.dropLast else line

end Lines

/-- `block.lines()`: a last line that no line feed ends keeps its carriage return. -/
def textLines (block : List Char) : List (List Char) :=
  let (lines, last) := splitEnds '\n' block
  lines.map (stripCarriageReturn '\r') ++ if last = [] then [] else [last]

/-- The name and the value of a line that is not a comment. -/
def fieldOf (line : List Char) : Option (List Char × List Char) :=
  if line.head? = some ':' then none
  else
    let name := line.takeWhile fun letter => letter ≠ ':'
    let rawValue := (line.dropWhile fun letter => letter ≠ ':').tail
    some (name, if rawValue.head? = some ' ' then rawValue.tail else rawValue)

/-- `value.parse::<u64>()`. -/
def parseU64 (value : List Char) : Option ℕ :=
  let digits := if value.head? = some '+' then value.tail else value
  if digits = [] ∨ ∃ digit ∈ digits, digit.isDigit = false then none
  else
    let number := digits.foldl (fun number digit => 10 * number + (digit.toNat - 48)) 0
    if number < 2 ^ 64 then some number else none

structure SseFields where
  event : List Char
  data : List (List Char)
  id : Option (List Char)
  retryMs : Option ℕ

def readLine (fields : SseFields) (line : List Char) : SseFields :=
  match fieldOf line with
  | none => fields
  | some (name, value) =>
      if name = "event".toList then { fields with event := value }
      else if name = "data".toList then { fields with data := fields.data ++ [value] }
      else if name = "id".toList ∧ Char.ofNat 0 ∉ value then { fields with id := some value }
      else if name = "retry".toList then { fields with retryMs := parseU64 value }
      else fields

def eventOfFields (fields : SseFields) : Option ParsedSseEvent :=
  if fields.data = [] ∧ fields.id = none ∧ fields.retryMs = none then none
  else
    some
      { event := String.ofList fields.event
        data := String.ofList (List.intercalate ['\n'] fields.data)
        id := fields.id.map String.ofList
        retryMs := fields.retryMs }

def parseSseEvent (block : List Char) : Option ParsedSseEvent :=
  eventOfFields ((textLines block).foldl readLine ⟨"message".toList, [], none, none⟩)

/-! ## Cutting the buffer -/

def lineFeedBlank : List UInt8 := [10, 10]

def carriageReturnBlank : List UInt8 := [13, 10, 13, 10]

/-- Where the next event ends, and the length of what separates it from the rest. -/
def findEventBoundary (buffer : List UInt8) : Option (ℕ × ℕ) :=
  ((position lineFeedBlank buffer).map fun index => (index, 2)) <|>
    ((position carriageReturnBlank buffer).map fun index => (index, 4))

/-- The loop of `push`. Every round takes a separator out of the buffer, so that its length is
fuel enough. -/
def drainEvents : ℕ → List UInt8 → List ParsedSseEvent × List UInt8
  | 0, buffer => ([], buffer)
  | fuel + 1, buffer =>
      match findEventBoundary buffer with
      | none => ([], buffer)
      | some (boundary, separatorLength) =>
          let (events, rest) := drainEvents fuel (buffer.drop (boundary + separatorLength))
          ((parseSseEvent (fromUtf8Lossy (buffer.take boundary))).toList ++ events, rest)

def push (buffer chunk : List UInt8) : List ParsedSseEvent × List UInt8 :=
  drainEvents (buffer ++ chunk).length (buffer ++ chunk)

/-- The events of the chunks that a parser with a buffer is given one by one. -/
def pushAll (buffer : List UInt8) : List (List UInt8) → List ParsedSseEvent
  | [] => []
  | chunk :: chunks => (push buffer chunk).1 ++ pushAll (push buffer chunk).2 chunks

/-! ## The reference -/

/-- The values of the fields with a name, in the order of the lines. -/
def fieldValues (name : String) (lines : List (List Char)) : List (List Char) :=
  ((lines.filterMap fieldOf).filter fun field => field.1 = name.toList).map Prod.snd

/-- The fields of a block of lines: its data lines and its last name, id and retry time. -/
def blockFields (lines : List (List Char)) : SseFields where
  event := (fieldValues "event" lines).getLast?.getD "message".toList
  data := fieldValues "data" lines
  id := ((fieldValues "id" lines).filter fun value => Char.ofNat 0 ∉ value).getLast?
  retryMs := (fieldValues "retry" lines).getLast?.bind parseU64

def blockEvent (lines : List (List Char)) : Option ParsedSseEvent :=
  eventOfFields (blockFields lines)

/-- The lines of a stream that a line feed has ended. -/
def completeLines (stream : List UInt8) : List (List UInt8) :=
  (splitEnds 10 stream).1.map (stripCarriageReturn 13)

/-- The runs of lines that a blank line has ended, after the lines that are still open. -/
def lineBlocks : List (List UInt8) → List (List UInt8) → List (List (List UInt8))
  | _, [] => []
  | block, line :: lines =>
      if line = [] then block :: lineBlocks [] lines else lineBlocks (block ++ [line]) lines

/-- The events of a stream, block by block. An empty block has none. -/
def referenceEvents (stream : List UInt8) : List ParsedSseEvent :=
  (lineBlocks [] (completeLines stream)).filterMap fun block =>
    blockEvent (block.map fromUtf8Lossy)

end Brunomnia.Streaming
