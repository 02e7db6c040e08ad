import Brunomnia.Codegen.Text

/-!
# Commands of MCP clients

A client that talks over standard input and output is exported with its command and arguments as
one text, each quoted for a shell, and imported from the tokens of that text. Every command comes
back, whatever its characters are.
-/

namespace Brunomnia.Interchange

open Codegen

/-! ## Writing and reading commands -/

/-- The characters of a token that needs no quotes. -/
def isCommandCharacter (letter : Char) : Bool :=
  letter.isAlphanum || letter ∈ ['_', '@', '%', '+', '=', ':', ',', '.', '/', '-']

/-- An apostrophe ends the quotes, stands in quotes of its own, and begins new ones. -/
def escapeApostrophe (letter : Char) : Text :=
  if letter = '\'' then ['\'', '"', '\'', '"', '\''] else [letter]

def quoteMcpCommandToken (value : Text) : Text :=
  if value ≠ [] ∧ ∀ letter ∈ value, isCommandCharacter letter then value
  else ['\''] ++ value.flatMap escapeApostrophe ++ ['\'']

structure CommandReader where
  tokens : List Text
  token : Text
  quote : Option Char
  escaped : Bool
  started : Bool
  deriving DecidableEq

def CommandReader.push (state : CommandReader) : CommandReader :=
  if state.started then
    { state with tokens := state.tokens ++ [state.token], token := [], started := false }
  else state

/-- The characters that a command may not have outside quotes; one is the grave accent. -/
def isShellCharacter (letter : Char) : Bool :=
  letter ∈ ['\r', '\n', '|', '&', ';', '<', '>', '(', ')', Char.ofNat 96, '$', '#']

/-- One turn of the loop of `parseMcpStdioCommand`. -/
def CommandReader.read (state : CommandReader) (letter : Char) : Option CommandReader :=
  if state.escaped then
    some { state with token := state.token ++ [letter], escaped := false, started := true }
  else if letter = '\\' ∧ state.quote ≠ some '\'' then
    some { state with escaped := true, started := true }
  else
    match state.quote with
    | some quote =>
        if letter = quote then some { state with quote := none, started := true }
        else some { state with token := state.token ++ [letter], started := true }
    | none =>
        if letter = '"' ∨ letter = '\'' then
          some { state with quote := some letter, started := true }
        else if isShellCharacter letter then none
        else if isWhiteSpace letter then some state.push
        else some { state with token := state.token ++ [letter], started := true }

/-- `text.length` -/
def lengthUnits (text : Text) : ℕ :=
  (text.map utf16Units).sum

def parseMcpStdioCommand (value : Text) : Option (List Text) :=
  match value.foldlM CommandReader.read ⟨[], [], none, false, false⟩ with
  | none => none
  | some state =>
      if state.escaped ∨ state.quote ≠ none then none
      else if state.push.tokens.length ≤ 101 ∧
          ∀ entry ∈ state.push.tokens, lengthUnits entry ≤ 8192 then
        some state.push.tokens
      else none

inductive McpTransport where
  | http
  | stdio
  deriving DecidableEq

structure McpClient where
  transport : McpTransport
  url : Text
  command : Text
  args : List Text
  deriving DecidableEq

/-- The client in the other format. -/
structure InsomniaMcpRequest where
  url : Text
  transportType : Text
  deriving DecidableEq

def insomniaMcpRequest (client : McpClient) : InsomniaMcpRequest :=
  if client.transport = .stdio then
    { url := List.intercalate [' '] ((client.command :: client.args).map quoteMcpCommandToken)
      transportType := "stdio".toList }
  else { url := client.url, transportType := "streamable-http".toList }

/-- A text that is no plain command is kept as one executable to be reviewed. -/
def mapInsomniaMcpClient (raw : InsomniaMcpRequest) : McpClient :=
  if raw.transportType = "stdio".toList then
    let parsedCommand := parseMcpStdioCommand raw.url
    { transport := .stdio
      url := []
      command := (parsedCommand.bind List.head?).getD (takeUnits 8192 (trimText raw.url))
      args := (parsedCommand.map List.tail).getD [] }
  else { transport := .http, url := raw.url, command := [], args := [] }

/-! ## Reading what has been quoted -/

def CommandReader.outside (tokens : List Text) (token : Text) (started : Bool) : CommandReader :=
  ⟨tokens, token, none, false, started⟩

/-- The reader within the quotes that a quoted token begins with. -/
def CommandReader.inside (tokens : List Text) (token : Text) : CommandReader :=
  ⟨tokens, token, some '\'', false, true⟩

theorem isCommandCharacter_plain {letter : Char} (safe : isCommandCharacter letter = true) :
    letter ≠ '\\' ∧ letter ≠ '"' ∧ letter ≠ '\'' ∧ isShellCharacter letter = false ∧
      isWhiteSpace letter = false := by
  have range : letter.toNat < 128 := by
    simp only [isCommandCharacter, Char.isAlphanum, Char.isAlpha, Char.isUpper, Char.isLower,
      Char.isDigit, Bool.or_eq_true, Bool.and_eq_true, decide_eq_true_eq, List.mem_cons,
      List.not_mem_nil, or_false] at safe
    rcases safe with ((upper | lower) | digit) | mark
    · have bound := upper.2
      rw [UInt32.le_iff_toNat_le] at bound
      exact Nat.lt_of_le_of_lt bound (by decide)
    · have bound := lower.2
      rw [UInt32.le_iff_toNat_le] at bound
      exact Nat.lt_of_le_of_lt bound (by decide)
    · have bound := digit.2
      rw [UInt32.le_iff_toNat_le] at bound
      exact Nat.lt_of_le_of_lt bound (by decide)
    · rcases mark with rfl | rfl | rfl | rfl | rfl | rfl | rfl | rfl | rfl | rfl <;> decide
  have all : ∀ code < 128, isCommandCharacter (Char.ofNat code) = true →
      Char.ofNat code ≠ '\\' ∧ Char.ofNat code ≠ '"' ∧ Char.ofNat code ≠ '\'' ∧
        isShellCharacter (Char.ofNat code) = false ∧ isWhiteSpace (Char.ofNat code) = false := by
    decide
  have named := all letter.toNat range
  rw [Char.ofNat_toNat] at named
  exact named safe

section Reading

variable (tokens : List Text) (token : Text)

theorem foldlM_read_plain (started : Bool) {text : Text}
    (safe : ∀ letter ∈ text, isCommandCharacter letter = true) :
    text.foldlM CommandReader.read (.outside tokens token started) =
      some (.outside tokens (token ++ text) (started || decide (text ≠ []))) := by
  induction text generalizing token started with
  | nil => simp
  | cons letter text ih =>
      rw [List.forall_mem_cons] at safe
      rcases isCommandCharacter_plain safe.1 with
        ⟨notBackslash, notDouble, notSingle, notShell, notBlank⟩
      have reads : CommandReader.read (.outside tokens token started) letter =
          some (.outside tokens (token ++ [letter]) true) := by
        simp [CommandReader.read, CommandReader.outside, notBackslash, notDouble, notSingle,
          notShell, notBlank]
      rw [List.foldlM_cons, reads, Option.bind_eq_bind, Option.bind_some, ih _ _ safe.2]
      simp

theorem foldlM_read_escaped (letter : Char) :
    (escapeApostrophe letter).foldlM CommandReader.read (.inside tokens token) =
      some (.inside tokens (token ++ [letter])) := by
  by_cases apostrophe : letter = '\''
  · subst apostrophe
    simp [escapeApostrophe, CommandReader.read, CommandReader.inside]
  · simp [escapeApostrophe, CommandReader.read, CommandReader.inside, apostrophe]

theorem foldlM_read_inside (text : Text) :
    (text.flatMap escapeApostrophe).foldlM CommandReader.read (.inside tokens token) =
      some (.inside tokens (token ++ text)) := by
  induction text generalizing token with
  | nil => simp
  | cons letter text ih =>
      rw [List.flatMap_cons, List.foldlM_append, foldlM_read_escaped, Option.bind_eq_bind,
        Option.bind_some, ih]
      simp

theorem foldlM_read_quoted (value : Text) :
    (quoteMcpCommandToken value).foldlM CommandReader.read (.outside tokens [] false) =
      some (.outside tokens value true) := by
  unfold quoteMcpCommandToken
  split
  case isTrue plain =>
    rw [foldlM_read_plain tokens [] false plain.2]
    simp [plain.1]
  case isFalse =>
    have opens : ['\''].foldlM CommandReader.read (.outside tokens [] false) =
        some (.inside tokens []) := by
      simp [CommandReader.read, CommandReader.outside, CommandReader.inside]
    have closes : ['\''].foldlM CommandReader.read (.inside tokens value) =
        some (.outside tokens value true) := by
      simp [CommandReader.read, CommandReader.outside, CommandReader.inside]
    rw [List.foldlM_append, List.foldlM_append, opens, Option.bind_eq_bind, Option.bind_some,
      foldlM_read_inside, Option.bind_some, List.nil_append, closes]

/-- The last token is complete only at the end of the text. -/
theorem foldlM_read_command (command : Text) (args : List Text) :
    (List.intercalate [' '] ((command :: args).map quoteMcpCommandToken)).foldlM
        CommandReader.read (.outside tokens [] false) =
      some (.outside (tokens ++ (command :: args).dropLast)
        ((command :: args).getLast (by simp)) true) := by
  induction args generalizing tokens command with
  | nil => simp [List.intercalate, foldlM_read_quoted]
  | cons arg args ih =>
      have blank : [' '].foldlM CommandReader.read (.outside tokens command true) =
          some (.outside (tokens ++ [command]) [] false) := by
        simp [CommandReader.read, CommandReader.outside, CommandReader.push, isShellCharacter,
          isWhiteSpace]
      have joined : List.intercalate [' '] ((command :: arg :: args).map quoteMcpCommandToken) =
          quoteMcpCommandToken command ++ ([' '] ++
            List.intercalate [' '] ((arg :: args).map quoteMcpCommandToken)) := by
        simp [List.intercalate]
      rw [joined, List.foldlM_append, foldlM_read_quoted, Option.bind_eq_bind, Option.bind_some,
        List.foldlM_append, blank, Option.bind_eq_bind, Option.bind_some, ih]
      simp

end Reading

/-! ## Round trip -/

/-- A command of at most 101 tokens, each of at most 8,192 characters, is read back from its
quoted tokens, and an exported client is imported with it. -/
theorem parseMcpStdioCommand_quoted (client : McpClient) (isStdio : client.transport = .stdio)
    (fewTokens : (client.command :: client.args).length ≤ 101)
    (shortTokens : ∀ token ∈ client.command :: client.args, lengthUnits token ≤ 8192) :
    parseMcpStdioCommand
        (List.intercalate [' '] ((client.command :: client.args).map quoteMcpCommandToken)) =
      some (client.command :: client.args) ∧
    (mapInsomniaMcpClient (insomniaMcpRequest client)).transport = .stdio ∧
    (mapInsomniaMcpClient (insomniaMcpRequest client)).command = client.command ∧
    (mapInsomniaMcpClient (insomniaMcpRequest client)).args = client.args := by
  have reads : parseMcpStdioCommand
      (List.intercalate [' '] ((client.command :: client.args).map quoteMcpCommandToken)) =
        some (client.command :: client.args) := by
    have folded := foldlM_read_command [] client.command client.args
    have complete : (CommandReader.outside ([] ++ (client.command :: client.args).dropLast)
        ((client.command :: client.args).getLast (by simp)) true).push.tokens =
          client.command :: client.args := by
      simp only [CommandReader.push, CommandReader.outside, if_true, List.nil_append]
      exact List.dropLast_append_getLast _
    rw [CommandReader.outside] at folded
    rw [parseMcpStdioCommand, folded]
    simp only
    rw [complete, if_neg (by simp [CommandReader.outside]), if_pos ⟨fewTokens, shortTokens⟩]
  refine ⟨reads, ?_⟩
  rw [insomniaMcpRequest, if_pos isStdio, mapInsomniaMcpClient, if_pos rfl, reads]
  exact ⟨rfl, rfl, rfl⟩

/-- A client whose arguments have an apostrophe, a line break and nothing at all. -/
def quotedClient : McpClient where
  transport := .stdio
  url := []
  command := "npx".toList
  args := ["it's $HOME".toList, ['\n', '"'], []]

theorem quotedClient_imported :
    parseMcpStdioCommand (List.intercalate [' ']
        ((quotedClient.command :: quotedClient.args).map quoteMcpCommandToken)) =
      some (quotedClient.command :: quotedClient.args) ∧
    (mapInsomniaMcpClient (insomniaMcpRequest quotedClient)).transport = .stdio ∧
    (mapInsomniaMcpClient (insomniaMcpRequest quotedClient)).command = quotedClient.command ∧
    (mapInsomniaMcpClient (insomniaMcpRequest quotedClient)).args = quotedClient.args :=
  parseMcpStdioCommand_quoted quotedClient rfl (by decide) (by decide)

end Brunomnia.Interchange
