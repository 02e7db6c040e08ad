import Brunomnia.Json
import Brunomnia.Library.OrderedMaps
import Brunomnia.Library.Stores

/-!
# The project folder

A project is written to a folder: a file of metadata, one file for every resource, and a
manifest of the files that were written. A file is named after the name and the id of its
resource. The next write removes the files of the last manifest that it does not write itself;
reading takes every YAML file there is. A folder is a store of texts by paths; YAML is a
parameter that reads back what it writes.
-/

namespace Brunomnia.ProjectFolder

open Library

/-! ## Paths -/

structure FilePath where
  directory : String
  name : String
  deriving DecidableEq

def FilePath.text (path : FilePath) : String :=
  path.directory ++ "/" ++ path.name

abbrev Folder := Store FilePath String

def projectFile : FilePath := ⟨".brunomnia", "project.yaml"⟩

def manifestFile : FilePath := ⟨".brunomnia", "manifest.yaml"⟩

def managedRoots : List String :=
  [".brunomnia", "collections", "environments", "designs", "mocks", "mcp-clients", "tests"]

/-- A path below one of the roots that does not lead out again. -/
def isManaged (path : FilePath) : Bool :=
  ['.', '.'] ∉ path.directory.toList.splitOn '/' ∧
    managedRoots.any fun root =>
      path.directory = root ∨ (root ++ "/").toList.isPrefixOf path.directory.toList

/-- `path.extension()`: what stands behind the last dot, unless the dot comes first. -/
def extension (name : String) : Option (List Char) :=
  let tail := (name.toList.reverse.takeWhile fun letter => letter ≠ '.').reverse
  if tail.length + 1 < name.toList.length then some tail else none

def isYamlName (name : String) : Bool :=
  extension name = some ['y', 'a', 'm', 'l'] ∨ extension name = some ['y', 'm', 'l']

/-! ## File names -/

def fnv (value : String) : UInt64 :=
  (value.toList.flatMap String.utf8EncodeChar).foldl
    (fun hash byte => (hash ^^^ byte.toUInt64) * 1099511628211) 14695981039346656037

def hexDigit (digit : ℕ) : Char :=
  if digit < 10 then Char.ofNat (48 + digit) else Char.ofNat (87 + digit)

/-- `{:08x}` of the lower half. -/
def hexLower (hash : UInt64) : List Char :=
  [7, 6, 5, 4, 3, 2, 1, 0].map fun place =>
    hexDigit (hash.toNat % 2 ^ 32 / 16 ^ place % 16)

/-- `slug.replace("--", "-")`. -/
def replacePairs : List Char → List Char
  | '-' :: '-' :: rest => '-' :: replacePairs rest
  | letter :: rest => letter :: replacePairs rest
  | [] => []

def hasPair : List Char → Bool
  | '-' :: '-' :: _ => true
  | _ :: rest => hasPair rest
  | [] => false

/-- The loop that replaces pairs of dashes; every pass makes the slug shorter. -/
def replaceAllPairs : ℕ → List Char → List Char
  | 0, slug => slug
  | passes + 1, slug =>
      if hasPair slug then replaceAllPairs passes (replacePairs slug) else slug

/-- `slug.trim_matches('-')`. -/
def trimDashes (slug : List Char) : List Char :=
  ((slug.dropWhile fun letter => letter = '-').reverse.dropWhile fun letter =>
    letter = '-').reverse

def slugOf (name : String) (fallback : String) : List Char :=
  let letters := name.toList.map fun letter =>
    if letter.isAlphanum then letter.toLower else '-'
  let slug := (trimDashes (replaceAllPairs letters.length letters)).take 48
  if slug = [] then fallback.toList else slug

/-- `value.get(key).and_then(Value::as_str)`. -/
def stringMember (value : Json) (key : String) : Option String :=
  match value.get? key with
  | some (.str content) => some content
  | _ => none

def fileName (value : Json) (fallback : String) : String :=
  let name := (stringMember value "name").getD fallback
  let id := (stringMember value "id").getD name
  String.ofList (slugOf name fallback ++ '-' :: hexLower (fnv id) ++ ['.', 'y', 'a', 'm', 'l'])

/-! ## Files of a workspace -/

structure ProjectManifest where
  version : ℕ
  files : List FilePath
  deriving DecidableEq

structure Yaml where
  toText : Json → Except String String
  ofText : String → Except String Json
  roundTrip : ∀ value text, toText value = .ok text → ofText text = .ok value
  manifestText : ProjectManifest → Except String String
  ofManifest : String → Option ProjectManifest
  manifestRoundTrip : ∀ manifest text, manifestText manifest = .ok text →
    ofManifest text = some manifest

structure ResourceKind where
  key : String
  directory : String
  fallback : String
  deriving DecidableEq

def resourceKinds : List ResourceKind :=
  [⟨"collections", "collections", "collection"⟩, ⟨"environments", "environments", "environment"⟩,
    ⟨"apiDesigns", "designs", "design"⟩, ⟨"mockServers", "mocks", "mock"⟩,
    ⟨"mcpClients", "mcp-clients", "mcp-client"⟩]

def ResourceKind.path (kind : ResourceKind) (value : Json) : FilePath :=
  ⟨kind.directory, fileName value kind.fallback⟩

def metadataKeys : List String :=
  ["format", "version", "name", "activeRequestId", "activeEnvironmentId"]

def objectSubset (value : Json) (keys : List String) : Json :=
  .obj (keys.filterMap fun key => (value.get? key).map fun content => (key, content))

/-- What is to be written, in the order in which it is entered. -/
def projectValues (workspace : Json) : List (FilePath × Json) :=
  (projectFile, objectSubset workspace metadataKeys) ::
    resourceKinds.flatMap fun kind =>
      (workspace.list kind.key).map fun value => (kind.path value, value)

/-- The map of files, in the order of their paths. -/
def projectFiles (yaml : Yaml) (workspace : Json) : Except String (List (FilePath × String)) :=
  ((projectValues workspace).mapM fun file =>
    (yaml.toText file.2).map fun text => (file.1, text)).map fun files =>
      (orderedMap files).insertionSort fun left right => left.1.text ≤ right.1.text

/-! ## Writing -/

def readManifest (yaml : Yaml) (folder : Folder) : ProjectManifest :=
  ((folder.read manifestFile).bind yaml.ofManifest).getD ⟨0, []⟩

structure ProjectWriteOutput where
  filesWritten : ℕ
  filesUnchanged : ℕ
  filesRemoved : ℕ
  deriving DecidableEq

/-- The file operation that fails, counted from the first one. -/
structure FileFault where
  after : ℕ
  message : String

/-- The removals and writes of a call, before it writes the manifest. -/
def fileChanges (previous : ProjectManifest) (files : List (FilePath × String)) :
    List (Store.Change FilePath String) :=
  (previous.files.filter fun path => path ∉ files.map Prod.fst ∧ isManaged path).map .remove ++
    files.map fun file => .write file.1 file.2

def writeOutput (folder : Folder) (previous : ProjectManifest)
    (files : List (FilePath × String)) (manifest : String) : ProjectWriteOutput :=
  let stale := previous.files.filter fun path => path ∉ files.map Prod.fst ∧ isManaged path
  let unchanged := (files ++ [(manifestFile, manifest)]).countP fun file =>
    folder.read file.1 = some file.2
  { filesWritten := files.length + 1 - unchanged
    filesUnchanged := unchanged
    filesRemoved := (stale.eraseDups.filter fun path => (folder.read path).isSome).length }

/-- A call of `write_project`, all of whose file operations succeed or one of which fails. -/
def writeProject (yaml : Yaml) (folder : Folder) (workspace : Json) (fault : Option FileFault) :
    Folder × Except String ProjectWriteOutput :=
  if !workspace.isObject then (folder, .error "The workspace must be an object.")
  else
    match projectFiles yaml workspace with
    | .error message => (folder, .error message)
    | .ok files =>
        let previous := readManifest yaml folder
        let changes := fileChanges previous files
        let written := changes.foldl Store.apply folder
        match fault.filter fun fault => fault.after < changes.length with
        | some fault => ((changes.take fault.after).foldl Store.apply folder, .error fault.message)
        | none =>
            match yaml.manifestText ⟨1, files.map Prod.fst⟩ with
            | .error message => (written, .error message)
            | .ok manifest =>
                match fault.filter fun fault => fault.after = changes.length with
                | some fault => (written, .error fault.message)
                | none => (written.write manifestFile manifest,
                    .ok (writeOutput folder previous files manifest))

/-! ## Reading -/

def readYamlDirectory (yaml : Yaml) (folder : Folder) (directory : String) :
    Except String (List Json) :=
  ((folder.entries.filter fun entry =>
      decide (entry.1.directory = directory ∧ isYamlName entry.1.name = true)).insertionSort
    fun left right => left.1.text ≤ right.1.text).mapM fun entry => yaml.ofText entry.2

def readProject (yaml : Yaml) (folder : Folder) : Except String Json :=
  match folder.read projectFile with
  | none => .error ("Unable to open " ++ projectFile.text)
  | some text =>
      match yaml.ofText text with
      | .error message => .error ("Invalid YAML in " ++ projectFile.text ++ ": " ++ message)
      | .ok metadata =>
          if !metadata.isObject then .error "Project metadata must be an object."
          else
            (resourceKinds.mapM fun kind =>
              (readYamlDirectory yaml folder kind.directory).map fun items =>
                (kind.key, Json.arr items)).map metadata.spread

end Brunomnia.ProjectFolder
