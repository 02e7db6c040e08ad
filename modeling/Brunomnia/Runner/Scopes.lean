import Brunomnia.Codegen.Materialize
import Brunomnia.Runner.Variables

/-!
# Scopes of variables

Which rows apply to a request: those of its global environment with its parents, of its
collection with the selected sub-environment, and of its folders. The editor merges the
rows; scripts and the runner get a scope for each place.
-/

namespace Brunomnia.Runner

open Codegen (Text trimText AuthConfig)

structure Environment where
  id : Text
  parentId : Text
  rows : List KeyValue
  deriving DecidableEq

structure RequestFolder where
  id : Text
  name : Text
  parentId : Text
  headers : List KeyValue
  environment : List KeyValue
  auth : Option AuthConfig
  preRequestScript : Text
  tests : Text
  deriving DecidableEq

structure CollectionRequest where
  id : Text
  name : Text
  folderId : Text
  headers : List KeyValue
  inheritFolderAuth : Bool
  auth : AuthConfig
  preRequestScript : Text
  tests : Text
  deriving DecidableEq

structure CollectionEnvironment where
  id : Text
  rows : List KeyValue
  deriving DecidableEq

structure Collection where
  name : Text
  requests : List CollectionRequest
  folders : List RequestFolder
  environment : List KeyValue
  subEnvironments : List CollectionEnvironment
  activeSubEnvironmentId : Option Text
  deriving DecidableEq

/-! ## Parents -/

/-- `new Map(items.map((item) => [item.id, item])).get(id)`. -/
def mapGet {Item : Type} (idOf : Item → Text) (items : List Item) (id : Text) : Option Item :=
  items.reverse.find? fun item => idOf item = id

/-- The chain from the outermost parent down to an item: at most so many, and each id once. -/
def chainTo {Item : Type} (idOf parentOf : Item → Text) (items : List Item) :
    ℕ → List Text → Item → List Item
  | 0, _, _ => []
  | space + 1, visited, current =>
      if idOf current ∈ visited then []
      else
        let parent := if parentOf current = [] then none
          else mapGet idOf items (parentOf current)
        match parent with
        | none => [current]
        | some parent =>
            chainTo idOf parentOf items space (idOf current :: visited) parent ++ [current]

/-- `environments.find((environment) => environment.id === activeId) ?? environments[0]`. -/
def selectEnvironment (environments : List Environment) (activeId : Text) :
    Option Environment :=
  (environments.find? fun environment => environment.id = activeId).or environments.head?

def environmentChain (environments : List Environment) (selected : Environment) :
    List Environment :=
  chainTo Environment.id Environment.parentId environments 20 [] selected

/-- `resolveEnvironment(environments, activeId)`. -/
def resolveEnvironment (environments : List Environment) (activeId : Text) :
    Option Environment :=
  (selectEnvironment environments activeId).map fun selected =>
    { selected with
      rows := mergeRows
        ((environmentChain environments selected).map Environment.rows) false }

def ancestorsTo (environments : List Environment) :
    ℕ → List Text → Environment → List Environment
  | 0, _, _ => []
  | space + 1, visited, current =>
      if current.parentId = [] ∨ current.id ∈ visited then []
      else
        match mapGet Environment.id environments current.parentId with
        | none => []
        | some parent =>
            ancestorsTo environments space (current.id :: visited) parent ++ [parent]

def environmentAncestors (environments : List Environment) (environmentId : Text) :
    List Environment :=
  match mapGet Environment.id environments environmentId with
  | none => []
  | some current => ancestorsTo environments 20 [] current

def folderAncestors (collection : Collection) (folderId : Text) : List RequestFolder :=
  if folderId = [] then []
  else
    match mapGet RequestFolder.id collection.folders folderId with
    | none => []
    | some folder =>
        chainTo RequestFolder.id RequestFolder.parentId collection.folders 20 [] folder

/-! ## Scopes -/

structure ScriptEnvironmentScopes where
  baseId : Text
  selectedId : Text
  baseGlobals : VariableScope
  globals : VariableScope
  globalsAreBase : Bool

structure CollectionScopes where
  baseEnvironment : VariableScope
  environment : VariableScope
  environmentIsBase : Bool
  selectedId : Option Text

def selectedSubEnvironment (collection : Collection) : Option CollectionEnvironment :=
  collection.subEnvironments.find? fun environment =>
    some environment.id = collection.activeSubEnvironmentId

section Scopes

variable (parse : Text → Option JsonTree)

/-- `scriptEnvironmentScopes(environments, activeId)`. -/
def scriptEnvironmentScopes (environments : List Environment) (activeId : Text) :
    Option ScriptEnvironmentScopes :=
  (selectEnvironment environments activeId).map fun selected =>
    let ancestors := environmentAncestors environments selected.id
    let base := ancestors.head?.getD selected
    let globalsAreBase := decide (base.id = selected.id)
    { baseId := base.id
      selectedId := selected.id
      baseGlobals := variableScope parse [base.rows]
      globals := if globalsAreBase then variableScope parse [base.rows]
        else variableScope parse ((ancestors.drop 1).map Environment.rows ++
          [selected.rows])
      globalsAreBase }

/-- `collectionEnvironmentScopes(collection)`. -/
def collectionEnvironmentScopes (collection : Collection) : CollectionScopes :=
  let base := variableScope parse [collection.environment]
  match selectedSubEnvironment collection with
  | some selected =>
      { baseEnvironment := base
        environment := variableScope parse [selected.rows]
        environmentIsBase := false
        selectedId := some selected.id }
  | none =>
      { baseEnvironment := base
        environment := base
        environmentIsBase := true
        selectedId := none }

/-- `environmentMap(environment)`. -/
def environmentMap (environment : Environment) : Variables :=
  environmentVariables parse environment.rows

end Scopes

/-! ## Configuration -/

def joinedScripts (scripts : List Text) : Text :=
  List.intercalate "\n\n".toList
    ((scripts.map trimText).filter fun script => script ≠ [])

structure ConfiguredRequest where
  request : CollectionRequest
  environment : Environment
  folders : List RequestFolder

/-- `applyCollectionConfiguration(collection, request, environment)`. -/
def applyCollectionConfiguration (collection : Collection) (request : CollectionRequest)
    (environment : Environment) : ConfiguredRequest :=
  let folders := folderAncestors collection request.folderId
  let nearestAuth := (folders.reverse.find? fun folder => folder.auth.isSome).bind
    RequestFolder.auth
  { folders
    environment :=
      { environment with
        rows := mergeRows
          ([environment.rows, collection.environment,
            ((selectedSubEnvironment collection).map CollectionEnvironment.rows).getD []] ++
            folders.map RequestFolder.environment) false }
    request :=
      { request with
        headers := mergeRows (folders.map RequestFolder.headers ++ [request.headers]) true
        auth := if request.inheritFolderAuth then nearestAuth.getD request.auth else request.auth
        preRequestScript :=
          joinedScripts (folders.map RequestFolder.preRequestScript ++ [request.preRequestScript])
        tests := joinedScripts (request.tests :: folders.reverse.map RequestFolder.tests) } }

end Brunomnia.Runner
