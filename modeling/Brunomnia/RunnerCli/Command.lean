import Brunomnia.Strings

/-!
# The command of a run

A run is offered as a command line. Every argument is quoted for a POSIX shell where it needs
it, and a script of the configuration file is cut into arguments again. Arguments that are not
options, nor values of options, are positional.
-/

namespace Brunomnia.RunnerCli

/-! ## Options -/

/-- A number that is not finite is `none`. -/
structure RunnerCliCommandOptions where
  workspacePath : String
  collectionId : String
  globalEnvironmentId : String
  collectionEnvironmentId : Option String
  requestIds : List String
  iterations : Option ℚ
  retries : Option ℚ
  delayMs : Option ℚ
  dataPath : Option String
  bail : Bool

def runnerCliValueOptions : List String :=
  ["--env", "-e", "--globals", "-g", "--requestNamePattern", "--request-name-pattern",
    "--testNamePattern", "--test-name-pattern", "-t", "--item", "--request", "-i",
    "--requestTimeout", "--request-timeout", "--env-var", "--iteration-count", "--iterations",
    "-n", "--retries", "--delay-request", "--delay", "--iteration-data", "--data", "-d",
    "--script-timeout", "--reporter", "--ruleset", "-r", "--output", "-o", "--workingDir",
    "--working-dir", "-w", "--config", "--httpProxy", "--http-proxy", "--httpsProxy",
    "--https-proxy", "--noProxy", "--no-proxy", "--includeFullData", "--include-full-data"]

def runnerCliVariadicValueOptions : List String :=
  ["--dataFolders", "--data-folders", "-f"]

def runnerCliBooleanOptions : List String :=
  ["--bail", "-b", "--allow-scripts", "--allow-script-requests", "--allow-script-files",
    "--allow-template-files", "--allow-external-vaults", "--allow-plugins",
    "--allow-config-code", "--disableCertValidation", "--disable-cert-validation", "-k",
    "--acceptRisk", "--accept-risk", "--keepFile", "--keep-file", "--skipAnnotations",
    "--skip-annotations", "-s", "--json", "--ci", "--verbose", "--printOptions",
    "--print-options", "--version", "-v", "--help", "-h"]

def isOptionLike (value : String) : Bool :=
  value.toList.head? = some '-'

/-- `--option=value`. -/
def isInlineOption (value : String) : Bool :=
  '=' ∈ value.toList ∧
    String.ofList (value.toList.takeWhile fun letter => letter ≠ '=') ∈ runnerCliValueOptions

def runnerCliPositionalArguments : List String → List String
  | [] => []
  | value :: rest =>
      if value ∈ runnerCliBooleanOptions then runnerCliPositionalArguments rest
      else if value ∈ runnerCliVariadicValueOptions then
        runnerCliPositionalArguments (rest.dropWhile fun other => !isOptionLike other)
      else if value ∈ runnerCliValueOptions then runnerCliPositionalArguments (rest.drop 1)
      else if isInlineOption value then runnerCliPositionalArguments rest
      else value :: runnerCliPositionalArguments rest
termination_by values => values.length
decreasing_by
  · simp
  · exact Nat.lt_succ_of_le (List.dropWhile_sublist _).length_le
  · simp
  · simp
  · simp

/-! ## Writing the command -/

def isSafeLetter (letter : Char) : Bool :=
  letter.isAlphanum ∨ letter ∈ ['_', '@', '%', '+', '=', ':', ',', '.', '/', '-']

def shellSafeToken (value : String) : Bool :=
  value.toList ≠ [] ∧ value.toList.all isSafeLetter

def quotePosixShellArgument (value : String) : List Char :=
  if shellSafeToken value then value.toList
  else '\'' :: (value.toList.flatMap fun letter =>
    if letter = '\'' then "'\"'\"'".toList else [letter]) ++ ['\'']

def boundedInteger (value : Option ℚ) (minimum maximum : ℤ) : ℤ :=
  match value with
  | none => minimum
  | some value => max minimum (min maximum ⌊value⌋)

/-- An optional text that is not empty. -/
def filled : Option String → List String
  | none => []
  | some value => if value = "" then [] else [value]

/-- The options of the command, each with its value. -/
def runnerCliOptionArguments (options : RunnerCliCommandOptions) : List String :=
  let iterations := boundedInteger options.iterations 1 1000
  let retries := boundedInteger options.retries 0 10
  let delayMs := boundedInteger options.delayMs 0 30000
  ["--workingDir", options.workspacePath] ++ ["--globals", options.globalEnvironmentId] ++
    ((filled options.collectionEnvironmentId).flatMap fun id => ["--env", id]) ++
    (options.requestIds.flatMap fun requestId => ["--item", requestId]) ++
    (if iterations > 1 then ["--iteration-count", toString iterations] else []) ++
    (if retries > 0 then ["--retries", toString retries] else []) ++
    (if delayMs > 0 then ["--delay-request", toString delayMs] else []) ++
    ((filled options.dataPath).flatMap fun path => ["--iteration-data", path]) ++
    (if options.bail then ["--bail"] else [])

/-- The arguments behind the name of the program. -/
def runnerCliArguments (options : RunnerCliCommandOptions) : List String :=
  ["run", "collection", options.collectionId] ++ runnerCliOptionArguments options

def buildRunnerCliCommand (options : RunnerCliCommandOptions) : String :=
  String.ofList (List.intercalate [' ']
    (("brunomnia" :: runnerCliArguments options).map quotePosixShellArgument))

/-! ## Reading a script -/

structure ScriptReader where
  tokens : List String
  current : List Char
  quote : Option Char
  escaped : Bool
  started : Bool
  deriving DecidableEq

def ScriptReader.read (reader : ScriptReader) (letter : Char) : ScriptReader :=
  if reader.escaped then
    { reader with current := reader.current ++ [letter], escaped := false, started := true }
  else if letter = '\\' ∧ reader.quote ≠ some '\'' then
    { reader with escaped := true, started := true }
  else if reader.quote.isSome then
    if reader.quote = some letter then { reader with quote := none, started := true }
    else { reader with current := reader.current ++ [letter], started := true }
  else if letter = '"' ∨ letter = '\'' then
    { reader with quote := some letter, started := true }
  else if isWhiteSpace letter then
    if reader.started then
      { reader with
        tokens := reader.tokens ++ [String.ofList reader.current], current := [],
        started := false }
    else reader
  else { reader with current := reader.current ++ [letter], started := true }

def ScriptReader.finish (reader : ScriptReader) : List String :=
  if reader.started then reader.tokens ++ [String.ofList reader.current] else reader.tokens

def parseRunnerInsoScript (command : String) : Except String (List String) :=
  if utf16Length command > 10000 then .error "Inso script exceeds 10,000 characters."
  else
    let reader := command.toList.foldl ScriptReader.read ⟨[], [], none, false, false⟩
    if reader.escaped ∨ reader.quote.isSome then
      .error "Inso script contains an unterminated quote or escape."
    else
      match reader.finish with
      | [] => .error "Tasks in a script should start with `inso`."
      | first :: rest =>
          if first ≠ "inso" then .error "Tasks in a script should start with `inso`."
          else if rest = [] then .error "Inso script does not contain a command."
          else .ok rest

end Brunomnia.RunnerCli
