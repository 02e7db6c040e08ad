import Brunomnia.Interchange.Curl
import Brunomnia.Library.Lists

/-!
# Tokens of a snippet

A snippet is the call of cURL with a method, and then on a line of its own each option with
its value in quotes. Its tokens are these options and values, without the empty values.
-/

namespace Brunomnia.Interchange

open Codegen

/-! ## One command -/

/-- The tokenizer outside quotes, in its first command. -/
def Tokenizer.reading (tokens : List Text) (token : Text) : Tokenizer :=
  ⟨[], tokens, token, none, false⟩

/-- The tokens once the last one is complete. -/
def completed (tokens : List Text) (token : Text) : List Text :=
  if token = [] then tokens else tokens ++ [token]

@[simp] theorem completed_nil (tokens : List Text) : completed tokens [] = tokens := rfl

theorem completed_of_ne_nil (tokens : List Text) {token : Text} (notEmpty : token ≠ []) :
    completed tokens token = tokens ++ [token] :=
  if_neg notEmpty

theorem pushToken_reading (tokens : List Text) (token : Text) :
    (Tokenizer.reading tokens token).pushToken =
      Tokenizer.reading (completed tokens token) [] := by
  by_cases empty : token = []
  · simp [Tokenizer.pushToken, Tokenizer.reading, empty]
  · simp [Tokenizer.pushToken, Tokenizer.reading, completed, empty]

/-- A character that is part of a token outside quotes. -/
@[mk_iff]
structure IsPlain (letter : Char) : Prop where
  notBackslash : letter ≠ '\\'
  notDouble : letter ≠ '"'
  notSingle : letter ≠ '\''
  notSemicolon : letter ≠ ';'
  notBlank : isWhiteSpace letter = false

theorem read_plain (tokens : List Text) (token : Text) {letter : Char} (plain : IsPlain letter) :
    (Tokenizer.reading tokens token).read letter =
      Tokenizer.reading tokens (token ++ [letter]) := by
  obtain ⟨notBackslash, notDouble, notSingle, notSemicolon, notBlank⟩ := plain
  have notNewline : letter ≠ '\n' := by
    rintro rfl
    revert notBlank
    decide
  simp [Tokenizer.read, Tokenizer.reading, *]

theorem foldl_read_plain (tokens : List Text) (token : Text) {text : Text}
    (plain : ∀ letter ∈ text, IsPlain letter) :
    text.foldl Tokenizer.read (Tokenizer.reading tokens token) =
      Tokenizer.reading tokens (token ++ text) := by
  induction text generalizing token with
  | nil => simp
  | cons letter text ih =>
      rw [List.foldl_cons, read_plain tokens token (plain letter (by simp)),
        ih _ fun other otherMem => plain other (by simp [otherMem])]
      simp

theorem read_space (tokens : List Text) (token : Text) :
    (Tokenizer.reading tokens token).read ' ' =
      Tokenizer.reading (completed tokens token) [] := by
  rw [← pushToken_reading]
  rfl

theorem foldl_read_continuation (tokens : List Text) (token : Text) :
    " \\\n  ".toList.foldl Tokenizer.read (Tokenizer.reading tokens token) =
      Tokenizer.reading (completed tokens token) [] := by
  have backslash : ((Tokenizer.reading (completed tokens token) []).read '\\').read '\n' =
      Tokenizer.reading (completed tokens token) [] := rfl
  change ((((Tokenizer.reading tokens token).read ' ').read '\\').read '\n' |>.read ' ').read ' ' =
    Tokenizer.reading (completed tokens token) []
  rw [read_space, backslash, read_space, read_space, completed_nil, completed_nil]

/-! ## Quotes -/

def Tokenizer.quoted (tokens : List Text) (token : Text) : Tokenizer :=
  ⟨[], tokens, token, some '\'', false⟩

theorem foldl_read_quoted (tokens : List Text) (token value : Text) :
    (value.flatMap fun letter => if letter = '\'' then "'\"'\"'".toList else [letter]).foldl
        Tokenizer.read (Tokenizer.quoted tokens token) =
      Tokenizer.quoted tokens (token ++ value) := by
  induction value generalizing token with
  | nil => simp
  | cons letter value ih =>
      rw [List.flatMap_cons, List.foldl_append]
      have first : (if letter = '\'' then "'\"'\"'".toList else [letter]).foldl Tokenizer.read
          (Tokenizer.quoted tokens token) = Tokenizer.quoted tokens (token ++ [letter]) := by
        by_cases single : letter = '\''
        · rw [if_pos single, single]
          rfl
        · simp [Tokenizer.read, Tokenizer.quoted, single]
      rw [first, ih]
      simp

theorem foldl_read_shell (tokens : List Text) (value : Text) :
    (shell value).foldl Tokenizer.read (Tokenizer.reading tokens []) =
      Tokenizer.reading tokens value := by
  unfold shell
  rw [List.cons_append, List.foldl_cons, List.foldl_append]
  have opened : (Tokenizer.reading tokens []).read '\'' = Tokenizer.quoted tokens [] := rfl
  rw [opened, foldl_read_quoted]
  rfl

/-! ## The whole snippet -/

/-- An option with its value on a line of its own. -/
def optionText (entry : Text × Text) : Text :=
  " \\\n  ".toList ++ entry.1 ++ ' ' :: shell entry.2

theorem foldl_read_option (tokens : List Text) (token : Text) {entry : Text × Text}
    (notEmpty : entry.1 ≠ []) (plain : ∀ letter ∈ entry.1, IsPlain letter) :
    (optionText entry).foldl Tokenizer.read (Tokenizer.reading tokens token) =
      Tokenizer.reading (completed tokens token ++ [entry.1]) entry.2 := by
  unfold optionText
  rw [List.foldl_append, List.foldl_append, foldl_read_continuation, foldl_read_plain _ _ plain,
    List.nil_append, List.foldl_cons, read_space, completed_of_ne_nil _ notEmpty,
    foldl_read_shell]

def optionTokens (entries : List (Text × Text)) : List Text :=
  entries.flatMap fun entry => entry.1 :: completed [] entry.2

theorem completed_append (tokens : List Text) (token : Text) :
    completed tokens token = tokens ++ completed [] token := by
  by_cases empty : token = []
  · simp [empty]
  · simp [completed_of_ne_nil _ empty]

theorem foldl_read_options {entries : List (Text × Text)} (tokens : List Text) (token : Text)
    (plain : ∀ entry ∈ entries, entry.1 ≠ [] ∧ ∀ letter ∈ entry.1, IsPlain letter) :
    ((entries.flatMap optionText).foldl Tokenizer.read
        (Tokenizer.reading tokens token)).pushToken =
      Tokenizer.reading (completed tokens token ++ optionTokens entries) [] := by
  induction entries generalizing tokens token with
  | nil => simp [pushToken_reading, optionTokens]
  | cons entry entries ih =>
      have entryPlain := plain entry (by simp)
      rw [List.flatMap_cons, List.foldl_append,
        foldl_read_option tokens token entryPlain.1 entryPlain.2,
        ih _ _ fun other otherMem => plain other (by simp [otherMem]),
        completed_append (completed tokens token ++ [entry.1])]
      simp [optionTokens]

def headerLine (header : Text × Text) : Text :=
  header.1 ++ ": ".toList ++ header.2

def bodyData (request : MaterializedRequest) : List Text :=
  match request.body with
  | some (.text value) => [value]
  | _ => []

def snippetOptions (request : MaterializedRequest) : List (Text × Text) :=
  ("--url".toList, request.url) ::
    ((request.headers.map fun header => ("--header".toList, headerLine header)) ++
      (bodyData request).map fun value => ("--data-raw".toList, value))

/-- A request whose body is a text or missing. -/
def IsTextual (request : MaterializedRequest) : Prop :=
  ∀ contentType dataBase64 replaceContentType,
    request.body ≠ some (.bytes contentType dataBase64 replaceContentType)

theorem curlSnippet_eq {request : MaterializedRequest} (textual : IsTextual request) :
    curlSnippet request =
      "curl --request ".toList ++ request.method ++
        (snippetOptions request).flatMap optionText := by
  have separated : ∀ name value : Text,
      " \\\n".toList ++ (("  ".toList ++ name ++ ' ' :: []) ++ shell value) =
        optionText (name, value) := by
    intro name value
    simp [optionText]
  have headerTexts : ∀ headers : List (Text × Text),
      (headers.map fun header =>
          "  --header ".toList ++ shell (header.1 ++ ": ".toList ++ header.2)).flatMap
          (fun text => " \\\n".toList ++ text) =
        (headers.map fun header => ("--header".toList, headerLine header)).flatMap
          optionText := by
    intro headers
    rw [List.flatMap_map, List.flatMap_map]
    exact List.flatMap_congr fun header _ => separated "--header".toList _
  have urlText := separated "--url".toList request.url
  unfold curlSnippet
  rcases bodyEq : request.body with _ | ⟨value⟩ | ⟨contentType, dataBase64, replaceContentType⟩
  · dsimp only
    simp only [curlParts, snippetOptions, bodyData, bodyEq, Library.intercalate_cons,
      List.flatMap_cons, headerTexts, List.map_nil, List.append_nil]
    rw [← urlText]
    rfl
  · have bodyText := separated "--data-raw".toList value
    dsimp only
    simp only [curlParts, snippetOptions, bodyData, bodyEq, Library.intercalate_cons,
      List.cons_append, List.flatMap_cons, List.flatMap_append, headerTexts, List.map_cons,
      List.map_nil, List.flatMap_nil, List.append_nil]
    rw [← urlText, ← bodyText]
    rfl
  · exact absurd bodyEq (textual contentType dataBase64 replaceContentType)

theorem snippetOptions_plain (request : MaterializedRequest) :
    ∀ entry ∈ snippetOptions request,
      entry.1 ≠ [] ∧ ∀ letter ∈ entry.1, IsPlain letter := by
  have known : ∀ name ∈ ["--url".toList, "--header".toList, "--data-raw".toList],
      name ≠ [] ∧ ∀ letter ∈ name, IsPlain letter := by
    have url : ∀ letter ∈ "--url".toList, IsPlain letter := by
      simp [isPlain_iff, isWhiteSpace]
    have header : ∀ letter ∈ "--header".toList, IsPlain letter := by
      simp [isPlain_iff, isWhiteSpace]
    have data : ∀ letter ∈ "--data-raw".toList, IsPlain letter := by
      simp [isPlain_iff, isWhiteSpace]
    intro name nameMem
    simp only [List.mem_cons, List.not_mem_nil, or_false] at nameMem
    rcases nameMem with rfl | rfl | rfl
    · exact ⟨List.cons_ne_nil _ _, url⟩
    · exact ⟨List.cons_ne_nil _ _, header⟩
    · exact ⟨List.cons_ne_nil _ _, data⟩
  have isKnown : ∀ entry ∈ snippetOptions request,
      entry.1 ∈ ["--url".toList, "--header".toList, "--data-raw".toList] := by
    intro entry entryMem
    unfold snippetOptions at entryMem
    rcases List.mem_cons.mp entryMem with rfl | afterUrl
    · exact List.mem_cons_self
    · rcases List.mem_append.mp afterUrl with isHeader | isBody
      · obtain ⟨header, _, rfl⟩ := List.mem_map.mp isHeader
        exact List.mem_cons_of_mem _ List.mem_cons_self
      · obtain ⟨value, _, rfl⟩ := List.mem_map.mp isBody
        exact List.mem_cons_of_mem _ (List.mem_cons_of_mem _ List.mem_cons_self)
  exact fun entry entryMem => known entry.1 (isKnown entry entryMem)

theorem tokenize_curlSnippet {request : MaterializedRequest} (textual : IsTextual request)
    (methodNotEmpty : request.method ≠ []) (plain : ∀ letter ∈ request.method, IsPlain letter) :
    tokenize (curlSnippet request) =
      ["--request".toList :: request.method :: optionTokens (snippetOptions request)] := by
  have start : "curl --request ".toList.foldl Tokenizer.read ⟨[], [], [], none, false⟩ =
      Tokenizer.reading ["curl".toList, "--request".toList] [] := by decide
  have pushed : ((curlSnippet request).foldl Tokenizer.read
      ⟨[], [], [], none, false⟩).pushToken =
        Tokenizer.reading ("curl".toList :: "--request".toList :: request.method ::
          optionTokens (snippetOptions request)) [] := by
    rw [curlSnippet_eq textual, List.foldl_append, List.foldl_append, start,
      foldl_read_plain _ _ plain, foldl_read_options _ _ (snippetOptions_plain request),
      List.nil_append, completed_of_ne_nil _ methodNotEmpty]
    rfl
  unfold tokenize Tokenizer.pushCommand
  rw [pushed]
  generalize "--request".toList :: request.method :: optionTokens (snippetOptions request) = rest
  rfl

end Brunomnia.Interchange
