import Brunomnia.Library.Lists
import Brunomnia.RunnerCli.Command
import Brunomnia.RunnerCli.Selection

/-!
# From a run to its command and back

The script that calls the program with the arguments of a run is cut into these arguments, and
its positional arguments are the words of the command and the collection. The items of the run
select their requests once. The collection that it names by its full id is selected exactly if
this id does not also match another collection.
-/

namespace Brunomnia.RunnerCli

open Library Resources

/-! ## Safe letters -/

theorem isSafeLetter_range {letter : Char} (safe : isSafeLetter letter = true) :
    37 ≤ letter.toNat ∧ letter.toNat ≤ 122 ∧ letter.toNat ≠ 39 ∧ letter.toNat ≠ 92 := by
  simp only [isSafeLetter, decide_eq_true_eq] at safe
  rcases safe with alphanum | sign
  · simp only [Char.isAlphanum, Char.isAlpha, Char.isUpper, Char.isLower, Char.isDigit,
      Bool.or_eq_true, Bool.and_eq_true, decide_eq_true_eq, ge_iff_le,
      UInt32.le_iff_toNat_le] at alphanum
    simp at alphanum
    have value : letter.toNat = letter.val.toNat := rfl
    omega
  · have signs : ∀ letter ∈ ['_', '@', '%', '+', '=', ':', ',', '.', '/', '-'],
        37 ≤ letter.toNat ∧ letter.toNat ≤ 122 ∧ letter.toNat ≠ 39 ∧ letter.toNat ≠ 92 := by
      simp
    exact signs letter sign

/-! ## One argument -/

def ScriptReader.between (tokens : List String) : ScriptReader :=
  ⟨tokens, [], none, false, false⟩

/-- The reader in a token, outside quotes. -/
def ScriptReader.within (tokens : List String) (current : List Char) : ScriptReader :=
  ⟨tokens, current, none, false, true⟩

theorem read_safe (tokens : List String) (current : List Char) (started : Bool) {letter : Char}
    (safe : isSafeLetter letter = true) :
    (⟨tokens, current, none, false, started⟩ : ScriptReader).read letter =
      .within tokens (current ++ [letter]) := by
  rcases isSafeLetter_range safe with ⟨low, high, notSingle, notBackslash⟩
  have single : letter ≠ '\'' := by
    rintro rfl
    exact notSingle rfl
  have backslash : letter ≠ '\\' := by
    rintro rfl
    exact notBackslash rfl
  have double : letter ≠ '"' := by
    rintro rfl
    revert low
    decide
  have blank : isWhiteSpace letter = false := by
    simp [isWhiteSpace]
    omega
  simp [ScriptReader.read, ScriptReader.within, single, backslash, double, blank]

theorem foldl_read_safe (tokens : List String) (current : List Char) {text : List Char}
    (safe : ∀ letter ∈ text, isSafeLetter letter = true) :
    text.foldl ScriptReader.read (.within tokens current) =
      .within tokens (current ++ text) := by
  induction text generalizing current with
  | nil => rw [List.foldl_nil, List.append_nil]
  | cons letter text ih =>
      rw [List.forall_mem_cons] at safe
      rw [List.foldl_cons, ScriptReader.within, read_safe tokens current true safe.1,
        ih _ safe.2, List.append_assoc, List.singleton_append]

theorem foldl_read_quoted (tokens : List String) (current text : List Char) :
    (text.flatMap fun letter => if letter = '\'' then "'\"'\"'".toList else [letter]).foldl
        ScriptReader.read ⟨tokens, current, some '\'', false, true⟩ =
      ⟨tokens, current ++ text, some '\'', false, true⟩ := by
  induction text generalizing current with
  | nil => simp
  | cons letter text ih =>
      have first : (if letter = '\'' then "'\"'\"'".toList else [letter]).foldl
          ScriptReader.read ⟨tokens, current, some '\'', false, true⟩ =
            ⟨tokens, current ++ [letter], some '\'', false, true⟩ := by
        by_cases single : letter = '\''
        · rw [if_pos single, single]
          rfl
        · simp [ScriptReader.read, single, Ne.symm single]
      rw [List.flatMap_cons, List.foldl_append, first, ih, List.append_assoc,
        List.singleton_append]

theorem foldl_read_argument (tokens : List String) (value : String) :
    (quotePosixShellArgument value).foldl ScriptReader.read (.between tokens) =
      .within tokens value.toList := by
  unfold quotePosixShellArgument
  split
  case isTrue safe =>
    simp only [shellSafeToken, decide_eq_true_eq, List.all_eq_true] at safe
    rcases text : value.toList with _ | ⟨letter, rest⟩
    · exact absurd text safe.1
    · have letters := safe.2
      rw [text, List.forall_mem_cons] at letters
      rw [List.foldl_cons, ScriptReader.between, read_safe tokens [] false letters.1,
        foldl_read_safe _ _ letters.2]
      rfl
  case isFalse =>
    have opened : (ScriptReader.between tokens).read '\'' =
        ⟨tokens, [], some '\'', false, true⟩ := rfl
    rw [List.cons_append, List.foldl_cons, List.foldl_append, opened, foldl_read_quoted]
    rfl

/-! ## All arguments -/

theorem read_space (tokens : List String) (current : List Char) :
    (ScriptReader.within tokens current).read ' ' =
      .between (tokens ++ [String.ofList current]) := rfl

theorem foldl_read_arguments (arguments : List String) (tokens : List String) (token : String) :
    ∃ before last, before ++ [last] = tokens ++ token :: arguments ∧
      (arguments.flatMap fun value => [' '] ++ quotePosixShellArgument value).foldl
        ScriptReader.read (.within tokens token.toList) = .within before last.toList := by
  induction arguments generalizing tokens token with
  | nil => exact ⟨tokens, token, rfl, rfl⟩
  | cons value arguments ih =>
      rcases ih (tokens ++ [token]) value with ⟨before, last, eq, read⟩
      refine ⟨before, last, ?_, ?_⟩
      · rw [eq, List.append_assoc, List.singleton_append]
      · rw [List.flatMap_cons, List.singleton_append, List.cons_append, List.foldl_cons,
          read_space, String.ofList_toList, List.foldl_append, foldl_read_argument]
        exact read

/-- The script that calls the program as the command does. -/
def insoScript (options : RunnerCliCommandOptions) : String :=
  "inso" ++ String.ofList ((buildRunnerCliCommand options).toList.drop "brunomnia".length)

theorem toList_insoScript (options : RunnerCliCommandOptions) :
    (insoScript options).toList = "inso".toList ++ (runnerCliArguments options).flatMap fun value =>
      [' '] ++ quotePosixShellArgument value := by
  have name : quotePosixShellArgument "brunomnia" = "brunomnia".toList := by decide
  have length : "brunomnia".length = "brunomnia".toList.length := rfl
  simp only [insoScript, buildRunnerCliCommand, String.toList_append, String.toList_ofList]
  rw [List.map_cons, intercalate_cons, name, length, List.drop_left, List.flatMap_map]

theorem parseRunnerInsoScript_insoScript {options : RunnerCliCommandOptions}
    (fits : utf16Length (insoScript options) ≤ 10000) :
    parseRunnerInsoScript (insoScript options) = .ok (runnerCliArguments options) := by
  have start : "inso".toList.foldl ScriptReader.read ⟨[], [], none, false, false⟩ =
      .within [] "inso".toList := by decide
  rcases foldl_read_arguments (runnerCliArguments options) [] "inso" with
    ⟨before, last, eq, read⟩
  have notEmpty : runnerCliArguments options ≠ [] := by
    simp [runnerCliArguments]
  simp only [parseRunnerInsoScript, if_neg (Nat.not_lt.mpr fits), toList_insoScript,
    List.foldl_append, start, read]
  simp [ScriptReader.within, ScriptReader.finish, eq, notEmpty]

/-! ## Positional arguments -/

theorem not_mem_of_plain {value : String} (plain : isOptionLike value = false)
    {options : List String} (dashed : ∀ option ∈ options, isOptionLike option = true) :
    value ∉ options := by
  intro valueMem
  rw [dashed value valueMem] at plain
  cases plain

theorem isOptionLike_start {value : String} (plain : isOptionLike value = false) :
    isOptionLike (String.ofList (value.toList.takeWhile fun letter => letter ≠ '=')) = false := by
  simp only [isOptionLike, String.toList_ofList, decide_eq_false_iff_not] at plain ⊢
  cases text : value.toList with
  | nil => simp
  | cons letter rest =>
      rw [text] at plain
      rw [List.takeWhile_cons]
      split
      case isTrue => exact plain
      case isFalse => simp

theorem positional_word {value : String} (rest : List String)
    (plain : isOptionLike value = false) :
    runnerCliPositionalArguments (value :: rest) =
      value :: runnerCliPositionalArguments rest := by
  have options : ∀ option ∈ runnerCliBooleanOptions ++ runnerCliVariadicValueOptions ++
      runnerCliValueOptions, isOptionLike option = true := by decide
  simp only [List.forall_mem_append] at options
  have notInline : isInlineOption value = false := by
    simp only [isInlineOption, decide_eq_false_iff_not, not_and]
    intro _
    exact not_mem_of_plain (isOptionLike_start plain) options.2
  rw [runnerCliPositionalArguments, if_neg (not_mem_of_plain plain options.1.1),
    if_neg (not_mem_of_plain plain options.1.2), if_neg (not_mem_of_plain plain options.2),
    notInline]
  rfl

/-- Arguments among which none is positional. -/
def Skipped (values : List String) : Prop :=
  ∀ rest, runnerCliPositionalArguments (values ++ rest) = runnerCliPositionalArguments rest

theorem Skipped.nil : Skipped [] :=
  fun _ => rfl

theorem Skipped.append {left right : List String} (leftSkipped : Skipped left)
    (rightSkipped : Skipped right) : Skipped (left ++ right) := by
  intro rest
  rw [List.append_assoc, leftSkipped, rightSkipped]

theorem Skipped.flatMap {Source : Type*} {sources : List Source} {values : Source → List String}
    (skipped : ∀ source, Skipped (values source)) : Skipped (sources.flatMap values) := by
  induction sources with
  | nil => exact Skipped.nil
  | cons source sources ih => exact (skipped source).append ih

theorem Skipped.ite {condition : Prop} [Decidable condition] {values : List String}
    (skipped : Skipped values) : Skipped (if condition then values else []) := by
  split
  case isTrue => exact skipped
  case isFalse => exact Skipped.nil

theorem skipped_option {option : String} (value : String)
    (known : option ∈ runnerCliValueOptions) : Skipped [option, value] := by
  have apart : ∀ option ∈ runnerCliValueOptions, option ∉ runnerCliBooleanOptions ∧
      option ∉ runnerCliVariadicValueOptions := by decide
  intro rest
  rw [List.cons_append, runnerCliPositionalArguments, if_neg (apart option known).1,
    if_neg (apart option known).2, if_pos known]
  rfl

theorem skipped_bail : Skipped ["--bail"] := by
  intro rest
  rw [List.singleton_append, runnerCliPositionalArguments, if_pos (by decide)]

theorem skipped_runnerCliOptionArguments (options : RunnerCliCommandOptions) :
    Skipped (runnerCliOptionArguments options) := by
  have known : ∀ option ∈ ["--workingDir", "--globals", "--env", "--item", "--iteration-count",
      "--retries", "--delay-request", "--iteration-data"],
      option ∈ runnerCliValueOptions := by decide
  simp only [List.forall_mem_cons] at known
  rcases known with ⟨workingDir, globals, env, item, count, retries, delay, data, _⟩
  unfold runnerCliOptionArguments
  apply Skipped.append _ skipped_bail.ite
  apply Skipped.append _ (Skipped.flatMap fun path => skipped_option path data)
  apply Skipped.append _ (skipped_option _ delay).ite
  apply Skipped.append _ (skipped_option _ retries).ite
  apply Skipped.append _ (skipped_option _ count).ite
  apply Skipped.append _ (Skipped.flatMap fun requestId => skipped_option requestId item)
  apply Skipped.append _ (Skipped.flatMap fun id => skipped_option id env)
  exact (skipped_option _ workingDir).append (skipped_option _ globals)

theorem positional_runnerCliArguments {options : RunnerCliCommandOptions}
    (plain : isOptionLike options.collectionId = false) :
    runnerCliPositionalArguments (runnerCliArguments options) =
      ["run", "collection", options.collectionId] := by
  have run : isOptionLike "run" = false := by decide
  have collection : isOptionLike "collection" = false := by decide
  have rest := skipped_runnerCliOptionArguments options []
  rw [List.append_nil, runnerCliPositionalArguments] at rest
  rw [runnerCliArguments, List.cons_append, List.cons_append, List.singleton_append,
    positional_word _ run, positional_word _ collection, positional_word _ plain, rest]

/-! ## The run -/

/-- The command of a run denotes the run: its arguments, its words, the resource that it names
by the full id, and the requests of its items. -/
structure DenotesRun {Resource : Type*} (options : RunnerCliCommandOptions)
    (named : Named Resource) (resources : List Resource) (resource : Resource) (entity : String)
    (collection : Collection) : Prop where
  arguments : parseRunnerInsoScript (insoScript options) = .ok (runnerCliArguments options)
  positionals : runnerCliPositionalArguments (runnerCliArguments options) =
    ["run", "collection", options.collectionId]
  selects : selectRunnerResource named resources (named.id resource) entity = .ok resource
  items : ∃ ids, resolveRunnerItemRequestIds collection options.requestIds = .ok ids ∧
    SelectsOnce collection options.requestIds ids

/-- A command within its limits denotes its run exactly if the id of the resource is neither the
beginning of another id nor another name. -/
theorem denotesRun_iff {Resource : Type*} (options : RunnerCliCommandOptions)
    (plain : isOptionLike options.collectionId = false)
    (fits : utf16Length (insoScript options) ≤ 10000) (named : Named Resource)
    (resources : List Resource) (unique : (resources.map named.id).Nodup) (resource : Resource)
    (resourceMem : resource ∈ resources) (entity : String) (collection : Collection)
    (known : ∀ id ∈ options.requestIds, id ∈ collection.resourceIds) :
    DenotesRun options named resources resource entity collection ↔
      Unambiguous named resources resource := by
  constructor
  · intro denotes
    exact (selectRunnerResource_id_iff unique resourceMem entity).mp denotes.selects
  · intro unambiguous
    exact
      { arguments := parseRunnerInsoScript_insoScript fits
        positionals := positional_runnerCliArguments plain
        selects := (selectRunnerResource_id_iff unique resourceMem entity).mpr unambiguous
        items := resolveRunnerItemRequestIds_selectsOnce known }

def namedCollection : Named Collection :=
  ⟨Collection.id, fun collection => collection.content.text "name"⟩

/-- A folder inside itself, by way of another one. -/
def ordersCollection : Collection where
  id := "orders"
  expanded := true
  requests := [⟨"first", some "folder", .obj []⟩, ⟨"nested", some "inner", .obj []⟩]
  folders := some [⟨"folder", "inner", true, .obj []⟩, ⟨"inner", "folder", true, .obj []⟩]
  resourceOrder := some ["inner", "first"]
  content := .obj [("name", .str "Orders")]

def emptyCollection (id : String) : Collection where
  id := id
  expanded := true
  requests := []
  folders := none
  resourceOrder := none
  content := .obj [("name", .str "Collection")]

def ordersRun : RunnerCliCommandOptions where
  workspacePath := "/home/it's mine/shop"
  collectionId := "orders"
  globalEnvironmentId := "base"
  collectionEnvironmentId := none
  requestIds := ["folder", "first"]
  iterations := some 3
  retries := none
  delayMs := some (1 / 2)
  dataPath := some "--data.csv"
  bail := true

theorem ordersRun_denotesRun :
    DenotesRun ordersRun namedCollection [ordersCollection, emptyCollection "billing"]
      ordersCollection "collection" ordersCollection := by
  apply (denotesRun_iff ordersRun (by decide +kernel) (by decide +kernel) namedCollection
    [ordersCollection, emptyCollection "billing"] (by decide) ordersCollection
    (by decide) "collection" ordersCollection (by decide)).mpr
  unfold Unambiguous
  decide

/-- An id that begins another id selects nothing. -/
theorem orders_ambiguous :
    ([ordersCollection, emptyCollection "orders-old"].map namedCollection.id).Nodup ∧
      ordersCollection ∈ [ordersCollection, emptyCollection "orders-old"] ∧
      selectRunnerResource namedCollection [ordersCollection, emptyCollection "orders-old"]
        (namedCollection.id ordersCollection) "collection" =
          .error "Multiple collections matched ID prefix or name \"orders\"." ∧
      ¬ DenotesRun ordersRun namedCollection [ordersCollection, emptyCollection "orders-old"]
        ordersCollection "collection" ordersCollection := by
  have ambiguous : selectRunnerResource namedCollection
      [ordersCollection, emptyCollection "orders-old"] (namedCollection.id ordersCollection)
      "collection" = .error "Multiple collections matched ID prefix or name \"orders\"." := by
    decide
  refine ⟨by decide, by decide, ambiguous, ?_⟩
  intro denotes
  have selects := denotes.selects
  rw [ambiguous] at selects
  cases selects

end Brunomnia.RunnerCli
