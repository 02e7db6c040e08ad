import Brunomnia.Interchange.CurlTokens

/-!
# Reading the options of a snippet

The loop over the tokens of a snippet sets its method, its URL, its headers and its body.
An empty URL is no token, so that its option takes the token after it.
-/

namespace Brunomnia.Interchange

open Codegen

/-- The name of an option that takes the token after it. -/
def Takes (name : Text) (option : CurlOption) : Prop :=
  ∀ next, selectOption name next = some (option, next.getD [], true)

theorem takes_request : Takes "--request".toList .request := fun _ => rfl

theorem takes_url : Takes "--url".toList .url := fun _ => rfl

theorem takes_header : Takes "--header".toList .header := fun _ => rfl

theorem takes_data : Takes "--data-raw".toList .data := fun _ => rfl

theorem readArguments_option {name : Text} {option : CurlOption} (takes : Takes name option)
    (state : CurlState) {value : Text} (notEmpty : value ≠ []) (rest : List Text) :
    readArguments state false (name :: completed [] value ++ rest) =
      readArguments (applyOption state option value) false rest := by
  rw [completed_of_ne_nil _ notEmpty, List.nil_append, List.cons_append, readArguments,
    takes _]
  rfl

theorem readArguments_last {name : Text} {option : CurlOption} (takes : Takes name option)
    (state : CurlState) (value : Text) :
    readArguments state false (name :: completed [] value) = applyOption state option value := by
  by_cases empty : value = []
  · rw [empty, completed_nil, readArguments, takes _]
    rfl
  · have read := readArguments_option takes state empty []
    rw [List.append_nil] at read
    rw [read]
    rfl

def importedHeader (header : Text × Text) : Text × Text :=
  parseHeader (headerLine header)

theorem readArguments_headers (state : CurlState) (headers : List (Text × Text))
    (rest : List Text) :
    readArguments state false
        (optionTokens (headers.map fun header => ("--header".toList, headerLine header)) ++ rest) =
      readArguments { state with headers := state.headers ++ headers.map importedHeader }
        false rest := by
  induction headers generalizing state with
  | nil => simp [optionTokens]
  | cons header headers ih =>
      have lineNotEmpty : headerLine header ≠ [] := by simp [headerLine]
      have tokens :
          optionTokens ((header :: headers).map fun header =>
              ("--header".toList, headerLine header)) ++ rest =
            "--header".toList :: completed [] (headerLine header) ++
              (optionTokens (headers.map fun header =>
                ("--header".toList, headerLine header)) ++ rest) := by
        simp [optionTokens]
      rw [tokens, readArguments_option takes_header state lineNotEmpty, ih]
      simp [applyOption, importedHeader]

def bodyOptions (request : MaterializedRequest) : List (Text × Text) :=
  (bodyData request).map fun value => ("--data-raw".toList, value)

theorem readArguments_body (state : CurlState) (request : MaterializedRequest) :
    readArguments state false (optionTokens (bodyOptions request)) =
      { state with data := state.data ++ bodyData request } := by
  unfold bodyOptions bodyData
  split
  · rename_i value _
    have tokens : optionTokens ([value].map fun value => ("--data-raw".toList, value)) =
        "--data-raw".toList :: completed [] value := by
      simp [optionTokens]
    rw [tokens, readArguments_last takes_data]
    rfl
  · simp [optionTokens, readArguments]

theorem snippetOptions_eq (request : MaterializedRequest) :
    snippetOptions request =
      ("--url".toList, request.url) ::
        ((request.headers.map fun header => ("--header".toList, headerLine header)) ++
          bodyOptions request) :=
  rfl

theorem optionTokens_append (entries others : List (Text × Text)) :
    optionTokens (entries ++ others) = optionTokens entries ++ optionTokens others :=
  List.flatMap_append

/-- What the options of a snippet set. -/
def snippetState (request : MaterializedRequest) : CurlState where
  method := request.method
  url := request.url
  forceGet := false
  headers := request.headers.map importedHeader
  data := bodyData request
  urlEncoded := []
  forms := []
  username := []
  password := []
  bearer := []

def initialState : CurlState :=
  ⟨[], [], false, [], [], [], [], [], [], []⟩

theorem readArguments_method {method : Text} (methodNotEmpty : method ≠ [])
    (rest : List Text) :
    readArguments initialState false ("--request".toList :: method :: rest) =
      readArguments { initialState with method := method } false rest := by
  have read := readArguments_option takes_request initialState methodNotEmpty rest
  rw [completed_of_ne_nil _ methodNotEmpty] at read
  exact read

/-- The value of the URL is missing among the tokens of a snippet if it is empty, and then
the option takes the next token. -/
def UrlFound (request : MaterializedRequest) : Prop :=
  request.url ≠ [] ∨ (request.headers = [] ∧ request.body = none)

theorem readArguments_snippet {request : MaterializedRequest}
    (methodNotEmpty : request.method ≠ []) (urlFound : UrlFound request) :
    readArguments initialState false
        ("--request".toList :: request.method :: optionTokens (snippetOptions request)) =
      snippetState request := by
  rw [readArguments_method methodNotEmpty, snippetOptions_eq]
  rcases urlFound with urlNotEmpty | ⟨noHeaders, noBody⟩
  · have tokens : optionTokens (("--url".toList, request.url) ::
        ((request.headers.map fun header => ("--header".toList, headerLine header)) ++
          bodyOptions request)) =
        "--url".toList :: completed [] request.url ++
          (optionTokens (request.headers.map fun header =>
            ("--header".toList, headerLine header)) ++ optionTokens (bodyOptions request)) := by
      rw [← optionTokens_append]
      rfl
    rw [tokens, readArguments_option takes_url _ urlNotEmpty, readArguments_headers,
      readArguments_body]
    simp [applyOption, initialState, snippetState]
  · have noData : bodyData request = [] := by simp [bodyData, noBody]
    have tokens : optionTokens (("--url".toList, request.url) ::
        ((request.headers.map fun header => ("--header".toList, headerLine header)) ++
          bodyOptions request)) = "--url".toList :: completed [] request.url := by
      simp [noHeaders, bodyOptions, noData, optionTokens]
    rw [tokens, readArguments_last takes_url]
    simp [applyOption, initialState, snippetState, noHeaders, noData]

/-! ## Tokens that are no values -/

/-- An option is its name, or its name with the value behind it. -/
theorem prefix_of_optionValue {token name value : Text} {next : Option Text} {consumed : Bool}
    (selected : optionValue token next name = some (value, consumed)) :
    name <+: token ∧ (consumed = true → token = name) := by
  unfold optionValue at selected
  dsimp only at selected
  split at selected
  case isTrue isName =>
    rw [isName]
    exact ⟨List.prefix_refl name, fun _ => rfl⟩
  case isFalse =>
    split at selected
    case isTrue long =>
      simp only [Option.some.injEq, Prod.mk.injEq] at selected
      refine ⟨(List.prefix_append name ['=']).trans long.2, ?_⟩
      intro isConsumed
      rw [← selected.2] at isConsumed
      cases isConsumed
    case isFalse =>
      split at selected
      case isTrue short =>
        simp only [Option.some.injEq, Prod.mk.injEq] at selected
        refine ⟨short.2, ?_⟩
        intro isConsumed
        rw [← selected.2] at isConsumed
        cases isConsumed
      case isFalse => cases selected

theorem option_name_of_selectOption {token value : Text} {next : Option Text}
    {option : CurlOption} {consumed : Bool}
    (selected : selectOption token next = some (option, value, consumed)) :
    ∃ entry ∈ curlOptions, ∃ name ∈ entry.2,
      name <+: token ∧ (consumed = true → token = name) := by
  obtain ⟨entry, entryMem, fromEntry⟩ := List.exists_of_findSome?_eq_some selected
  obtain ⟨found, foundEq, isEntry⟩ := Option.map_eq_some_iff.mp fromEntry
  obtain ⟨name, nameMem, fromName⟩ := List.exists_of_findSome?_eq_some foundEq
  simp only [Prod.mk.injEq] at isEntry
  obtain ⟨_, rfl⟩ := isEntry
  exact ⟨entry, entryMem, name, nameMem, prefix_of_optionValue fromName⟩

theorem curlOptions_names :
    ∀ entry ∈ curlOptions, ∀ name ∈ entry.2, name.head? = some '-' ∧ ':' ∉ name := by
  simp [curlOptions]

theorem head_of_selectOption {token value : Text} {next : Option Text} {option : CurlOption}
    {consumed : Bool} (selected : selectOption token next = some (option, value, consumed)) :
    token.head? = some '-' := by
  obtain ⟨entry, entryMem, name, nameMem, ⟨rest, isToken⟩, _⟩ :=
    option_name_of_selectOption selected
  have dash := (curlOptions_names entry entryMem name nameMem).1
  rw [← isToken]
  rw [List.head?_append, dash]
  rfl

theorem not_consumed_of_colon {token value : Text} {next : Option Text} {option : CurlOption}
    {consumed : Bool} (selected : selectOption token next = some (option, value, consumed))
    (hasColon : ':' ∈ token) : consumed = false := by
  obtain ⟨entry, entryMem, name, nameMem, _, isName⟩ := option_name_of_selectOption selected
  cases consumed with
  | false => rfl
  | true =>
      rw [isName rfl] at hasColon
      exact absurd hasColon (curlOptions_names entry entryMem name nameMem).2

theorem applyOption_url {option : CurlOption} (notUrl : option ≠ .url) (state : CurlState)
    (value : Text) : (applyOption state option value).url = state.url := by
  cases option with
  | url => exact absurd rfl notUrl
  | user =>
      unfold applyOption
      dsimp only
      split <;> rfl
  | _ => rfl

theorem applyToken_url {state : CurlState} (hasUrl : state.url ≠ []) (token : Text) :
    (applyToken state token).url = state.url := by
  unfold applyToken
  split
  · rfl
  · split
    · rfl
    · rw [if_neg]
      exact fun isFirst => hasUrl isFirst.2

theorem readArguments_token (state : CurlState) (token : Text) (rest : List Text) :
    (∃ option value consumed, selectOption token rest.head? = some (option, value, consumed) ∧
      readArguments state false (token :: rest) =
        readArguments (applyOption state option value) consumed rest) ∨
    readArguments state false (token :: rest) =
      readArguments (applyToken state token) false rest := by
  rw [readArguments]
  rcases selectOption token rest.head? with _ | ⟨option, value, consumed⟩
  · exact Or.inr rfl
  · exact Or.inl ⟨option, value, consumed, rfl, rfl⟩

/-! ## An empty URL -/

theorem readArguments_rest (state : CurlState) (headers : List (Text × Text))
    (request : MaterializedRequest) :
    readArguments state false
        (optionTokens (headers.map fun header => ("--header".toList, headerLine header)) ++
          optionTokens (bodyOptions request)) =
      { state with
        headers := state.headers ++ headers.map importedHeader
        data := state.data ++ bodyData request } := by
  rw [readArguments_headers, readArguments_body]

/-- What is read of a snippet without a URL: another option as the URL, or the snippet of a
request that lacks the first header or the body. -/
theorem readArguments_noUrl {request : MaterializedRequest}
    (methodNotEmpty : request.method ≠ []) (noUrl : request.url = [])
    (textual : IsTextual request) (notFound : ¬UrlFound request) :
    (readArguments initialState false
      ("--request".toList :: request.method :: optionTokens (snippetOptions request))).url.head? =
        some '-' ∨
    (∃ header headers url, request.headers = header :: headers ∧ header.1.head? = some '-' ∧
      readArguments initialState false
        ("--request".toList :: request.method :: optionTokens (snippetOptions request)) =
          snippetState { request with url, headers }) ∨
    (request.body ≠ none ∧ ∃ url,
      readArguments initialState false
        ("--request".toList :: request.method :: optionTokens (snippetOptions request)) =
          snippetState { request with url, body := none }) := by
  rw [readArguments_method methodNotEmpty, snippetOptions_eq, noUrl]
  cases headersEq : request.headers with
  | cons header headers =>
      have tokens : optionTokens (("--url".toList, []) ::
          (((header :: headers).map fun header => ("--header".toList, headerLine header)) ++
            bodyOptions request)) =
          "--url".toList :: completed [] "--header".toList ++
            headerLine header :: (optionTokens (headers.map fun header =>
              ("--header".toList, headerLine header)) ++ optionTokens (bodyOptions request)) := by
        have lineNotEmpty : headerLine header ≠ [] := by simp [headerLine]
        rw [← optionTokens_append]
        simp [optionTokens, completed, lineNotEmpty]
      rw [tokens, readArguments_option takes_url _ (by simp)]
      have hasColon : ':' ∈ headerLine header := by simp [headerLine]
      rcases readArguments_token
          (applyOption { initialState with method := request.method } .url "--header".toList)
          (headerLine header) (optionTokens (headers.map fun header =>
            ("--header".toList, headerLine header)) ++ optionTokens (bodyOptions request)) with
        ⟨option, value, consumed, selected, read⟩ | read
      · rw [not_consumed_of_colon selected hasColon, readArguments_rest] at read
        rw [read]
        by_cases isUrl : option = .url
        · refine Or.inr (Or.inl ⟨header, headers, value, rfl, ?_, ?_⟩)
          · have dash := head_of_selectOption selected
            cases nameEq : header.1 with
            | nil => simp [headerLine, nameEq] at dash
            | cons first rest => simpa [headerLine, nameEq] using dash
          · rw [isUrl]
            simp [applyOption, initialState, snippetState, bodyData]
        · left
          rw [applyOption_url isUrl]
          rfl
      · left
        rw [read, readArguments_rest]
        dsimp only
        rw [applyToken_url (by simp [applyOption])]
        rfl
  | nil =>
      obtain ⟨value, bodyEq⟩ : ∃ value, request.body = some (.text value) := by
        rcases bodyEq : request.body with _ | ⟨value⟩ | ⟨contentType, dataBase64, replaced⟩
        · exact absurd (Or.inr ⟨headersEq, bodyEq⟩) notFound
        · exact ⟨value, rfl⟩
        · exact absurd bodyEq (textual contentType dataBase64 replaced)
      have data : bodyData request = [value] := by simp [bodyData, bodyEq]
      have tokens : optionTokens (("--url".toList, []) ::
          (([].map fun header => ("--header".toList, headerLine header)) ++
            bodyOptions request)) =
          "--url".toList :: completed [] "--data-raw".toList ++ completed [] value := by
        simp [optionTokens, bodyOptions, data, completed]
      rw [tokens, readArguments_option takes_url _ (by simp)]
      by_cases empty : value = []
      · left
        rw [empty]
        rfl
      · rw [completed_of_ne_nil _ empty, List.nil_append]
        have last : ∀ state consumed, readArguments state consumed [] = state := by
          intro state consumed
          rw [readArguments]
        rcases readArguments_token
            (applyOption { initialState with method := request.method } .url "--data-raw".toList)
            value [] with ⟨option, found, consumed, _, read⟩ | read
        · rw [last] at read
          rw [read]
          by_cases isUrl : option = .url
          · refine Or.inr (Or.inr ⟨by simp [bodyEq], found, ?_⟩)
            rw [isUrl]
            simp [applyOption, initialState, snippetState, bodyData]
          · left
            rw [applyOption_url isUrl]
            rfl
        · left
          rw [last] at read
          rw [read, applyToken_url (by simp [applyOption])]
          rfl

end Brunomnia.Interchange
