import Brunomnia.Library.Layers
import Brunomnia.Runner.Agreement

/-!
# Inherited headers

The headers of a request lie over those of its folders. Of the rows with one name only the last is
left, wherever it stands; so the layers override each other just if only the last row of a name is
enabled.
-/

namespace Brunomnia.Runner

open Codegen (Text trimText lowerText)
open Library

/-! ## Folders -/

/-- The folders around a place, the innermost last. -/
inductive AncestorChain (collection : Collection) : Text → List RequestFolder → Prop where
  | top {folderId : Text}
      (outside : folderId = [] ∨ mapGet RequestFolder.id collection.folders folderId = none) :
      AncestorChain collection folderId []
  | inside {folderId : Text} {folder : RequestFolder} {outer : List RequestFolder}
      (notTop : folderId ≠ [])
      (found : mapGet RequestFolder.id collection.folders folderId = some folder)
      (chain : AncestorChain collection folder.parentId outer) :
      AncestorChain collection folderId (outer ++ [folder])

namespace AncestorChain

variable {collection : Collection} {folderId : Text} {folders others : List RequestFolder}

theorem unique (chain : AncestorChain collection folderId folders)
    (other : AncestorChain collection folderId others) : folders = others := by
  induction chain generalizing others with
  | top outside =>
      cases other with
      | top => rfl
      | inside notTop found =>
          rcases outside with isTop | missing
          · exact absurd isTop notTop
          · rw [missing] at found
            cases found
  | inside notTop found chain ih =>
      cases other with
      | top outside =>
          rcases outside with isTop | missing
          · exact absurd isTop notTop
          · rw [missing] at found
            cases found
      | inside otherNotTop otherFound otherChain =>
          rw [found] at otherFound
          cases otherFound
          rw [ih otherChain]

theorem to_folder (chain : AncestorChain collection folderId folders) {folder : RequestFolder}
    (folderMem : folder ∈ folders) :
    ∃ outer, AncestorChain collection folder.id outer ∧ outer.length ≤ folders.length := by
  induction chain with
  | top => cases folderMem
  | @inside folderId last outer notTop found chain ih =>
      rw [List.mem_append, List.mem_singleton] at folderMem
      rcases folderMem with folderMem | rfl
      · rcases ih folderMem with ⟨before, beforeChain, shorter⟩
        refine ⟨before, beforeChain, ?_⟩
        rw [List.length_append]
        omega
      · have isId : folder.id = folderId := by simpa using List.find?_some found
        refine ⟨outer ++ [folder], .inside ?_ (mapGet_self found) chain, le_rfl⟩
        rwa [isId]

theorem nodup_ids (chain : AncestorChain collection folderId folders) :
    (folders.map RequestFolder.id).Nodup := by
  induction chain with
  | top => exact List.nodup_nil
  | @inside folderId last outer notTop found chain ih =>
      rw [List.map_append, List.map_singleton, List.nodup_append]
      refine ⟨ih, List.nodup_singleton _, ?_⟩
      intro id idMem lastId lastIdMem same
      rcases List.mem_map.mp idMem with ⟨folder, folderMem, rfl⟩
      rw [List.mem_singleton] at lastIdMem
      rcases chain.to_folder folderMem with ⟨before, beforeChain, shorter⟩
      have isId : last.id = folderId := by simpa using List.find?_some found
      rw [same, lastIdMem, isId] at beforeChain
      have sameChain := beforeChain.unique (.inside notTop found chain)
      rw [sameChain, List.length_append, List.length_singleton] at shorter
      omega

theorem chainTo_eq {visited : List Text} {space : ℕ} {folder : RequestFolder}
    {outer : List RequestFolder}
    (chain : AncestorChain collection folder.parentId outer)
    (room : outer.length < space)
    (nodup : ((outer ++ [folder]).map RequestFolder.id).Nodup)
    (unvisited : ∀ other ∈ outer ++ [folder], other.id ∉ visited) :
    chainTo RequestFolder.id RequestFolder.parentId collection.folders space visited folder =
      outer ++ [folder] := by
  generalize parentEq : folder.parentId = parentId at chain
  induction chain generalizing folder visited space with
  | top outside =>
      cases space with
      | zero => omega
      | succ space =>
          rw [chainTo, if_neg (unvisited folder (by simp)), parentEq]
          rcases outside with rfl | missing
          · simp
          · simp [missing]
  | @inside parentId parent outer notTop found chain ih =>
      cases space with
      | zero => omega
      | succ space =>
          rw [List.length_append, List.length_singleton] at room
          rw [List.map_append, List.nodup_append] at nodup
          have above : chainTo RequestFolder.id RequestFolder.parentId collection.folders space
              (folder.id :: visited) parent = outer ++ [parent] := by
            refine ih (by omega) nodup.1 ?_ rfl
            intro other otherMem
            rw [List.mem_cons, not_or]
            refine ⟨?_, unvisited other (List.mem_append_left _ otherMem)⟩
            exact nodup.2.2 _ (List.mem_map_of_mem otherMem) _ (by simp)
          rw [chainTo, if_neg (unvisited folder (by simp)), parentEq]
          simp only [notTop, if_false, found, above]

theorem folderAncestors_eq (chain : AncestorChain collection folderId folders)
    (supported : folders.length ≤ 20) : folderAncestors collection folderId = folders := by
  have nodup := chain.nodup_ids
  cases chain with
  | top outside =>
      unfold folderAncestors
      rcases outside with rfl | missing
      · rfl
      · simp [missing]
  | inside notTop found chain =>
      rw [List.length_append, List.length_singleton] at supported
      unfold folderAncestors
      rw [if_neg notTop, found]
      exact chainTo_eq chain (by omega) nodup (by simp)

end AncestorChain

/-! ## Headers -/

section Headers

variable (lowerCase : Text → Text)

/-- The name under which a header is looked up, if it has one. -/
def headerKey (row : KeyValue) : Option Text :=
  if trimText row.name = [] then none else some (lowerCase (trimText row.name))

/-- `rowMap(rows, true)`, for any `toLowerCase`. -/
def headerMap (rows : List KeyValue) : List (Text × KeyValue) :=
  rows.foldl
    (fun entries row =>
      if trimText row.name = [] then entries
      else setEntry entries (lowerCase (trimText row.name)) row)
    []

/-- `mergeRows(layers, true)`. -/
def mergeHeaders (layers : List (List KeyValue)) : List KeyValue :=
  (layers.foldl (fun merged rows => setEntries merged (headerMap lowerCase rows)) []).map Prod.snd

/-- The headers that `applyCollectionConfiguration` gives to a request. -/
def configuredHeaders (collection : Collection) (request : CollectionRequest) : List KeyValue :=
  mergeHeaders lowerCase
    ((folderAncestors collection request.folderId).map RequestFolder.headers ++ [request.headers])

theorem applyCollectionConfiguration_headers (collection : Collection)
    (request : CollectionRequest) (environment : Environment) :
    (applyCollectionConfiguration collection request environment).request.headers =
      configuredHeaders lowerText collection request := rfl

theorem headerMap_eq (rows : List KeyValue) :
    headerMap lowerCase rows = keyedMap (headerKey lowerCase) rows := by
  unfold headerMap keyedMap keyedEntries setEntries
  generalize ([] : List (Text × KeyValue)) = entries
  induction rows generalizing entries with
  | nil => rfl
  | cons row rows ih =>
      rw [List.foldl_cons, ih]
      by_cases noName : trimText row.name = []
      · simp [headerKey, noName]
      · simp [headerKey, noName]

theorem mergeHeaders_eq (layers : List (List KeyValue)) :
    mergeHeaders lowerCase layers = mergeLayers (headerKey lowerCase) layers := by
  unfold mergeHeaders mergeLayers
  simp only [headerMap_eq]

/-! ## Overriding -/

def enabledHeaders (rows : List KeyValue) : List KeyValue :=
  rows.filter fun row => row.enabled && isNamed row

/-- The names that rows mention. -/
def headerNames (rows : List KeyValue) : List Text :=
  rows.filterMap (headerKey lowerCase)

/-- The headers of the folders and of the request, from the outermost layer to the innermost. -/
def headerLayers (folders : List RequestFolder) (request : CollectionRequest) :
    List (List KeyValue) :=
  folders.map RequestFolder.headers ++ [request.headers]

/-- The enabled rows with a name are those of the innermost layer that mentions it, and a request
outside all folders keeps its enabled headers. -/
structure InheritsHeaders (collection : Collection) (request : CollectionRequest)
    (folders : List RequestFolder) : Prop where
  overrides : ∀ name,
    rowsOf (headerKey lowerCase) (enabledHeaders (configuredHeaders lowerCase collection request))
        name =
      rowsOf (headerKey lowerCase)
        (enabledHeaders
          (innermostLayer (headerKey lowerCase) (headerLayers folders request) name)) name
  unchanged : folders = [] →
    enabledHeaders (configuredHeaders lowerCase collection request) =
      enabledHeaders request.headers

/-- In the innermost layer that mentions a name, only the last row with it may be enabled. Outside
all folders, the enabled names are in the order in which the names are first mentioned. -/
structure OnlyLastEnabled (folders : List RequestFolder) (request : CollectionRequest) : Prop where
  last : ∀ name, ∀ row ∈ (rowsOf (headerKey lowerCase)
    (innermostLayer (headerKey lowerCase) (headerLayers folders request) name) name).dropLast,
      row.enabled = false
  ordered : folders = [] →
    (headerNames lowerCase (enabledHeaders request.headers)).Sublist
      (firstKeys (headerNames lowerCase request.headers))

variable {lowerCase}

theorem isNamed_of_headerKey {row : KeyValue} {name : Text}
    (keyed : headerKey lowerCase row = some name) : isNamed row = true := by
  unfold headerKey at keyed
  split at keyed
  case isTrue => cases keyed
  case isFalse named => exact decide_eq_true named

theorem headerKey_eq_none_iff {row : KeyValue} :
    headerKey lowerCase row = none ↔ isNamed row = false := by
  simp [headerKey, isNamed]

theorem rowsOf_enabledHeaders (rows : List KeyValue) (name : Text) :
    rowsOf (headerKey lowerCase) (enabledHeaders rows) name =
      (rowsOf (headerKey lowerCase) rows name).filter KeyValue.enabled := by
  unfold rowsOf enabledHeaders
  rw [List.filter_filter, List.filter_filter]
  apply List.filter_congr
  intro row _
  by_cases keyed : headerKey lowerCase row = some name
  · simp [keyed, isNamed_of_headerKey keyed]
  · simp [keyed]

theorem map_headerKey_enabledHeaders (rows : List KeyValue) :
    (enabledHeaders rows).map (headerKey lowerCase) =
      (headerNames lowerCase (enabledHeaders rows)).map some := by
  have named : ∀ row ∈ enabledHeaders rows, isNamed row = true := by
    intro row rowMem
    have holds := (List.mem_filter.mp rowMem).2
    rw [Bool.and_eq_true] at holds
    exact holds.2
  generalize enabledHeaders rows = headers at named
  unfold headerNames
  induction headers with
  | nil => rfl
  | cons row headers ih =>
      rw [List.forall_mem_cons] at named
      cases keyEq : headerKey lowerCase row with
      | none =>
          rw [headerKey_eq_none_iff, named.1] at keyEq
          cases keyEq
      | some name =>
          rw [List.map_cons, List.filterMap_cons_some keyEq, ih named.2, keyEq, List.map_cons]

variable {collection : Collection} {request : CollectionRequest} {folders : List RequestFolder}

theorem configuredHeaders_eq (chain : AncestorChain collection request.folderId folders)
    (supported : folders.length ≤ 20) :
    configuredHeaders lowerCase collection request =
      mergeLayers (headerKey lowerCase) (headerLayers folders request) := by
  unfold configuredHeaders headerLayers
  rw [chain.folderAncestors_eq supported, mergeHeaders_eq]

theorem overrides_iff (layers : List (List KeyValue)) (name : Text) :
    rowsOf (headerKey lowerCase) (enabledHeaders (mergeLayers (headerKey lowerCase) layers)) name =
        rowsOf (headerKey lowerCase)
          (enabledHeaders (innermostLayer (headerKey lowerCase) layers name)) name ↔
      ∀ row ∈ (rowsOf (headerKey lowerCase)
        (innermostLayer (headerKey lowerCase) layers name) name).dropLast,
          row.enabled = false := by
  rw [rowsOf_enabledHeaders, rowsOf_enabledHeaders, rowsOf_mergeLayers, filter_getLast?_iff]

theorem innermostLayer_singleton (rows : List KeyValue) (name : Text) :
    rowsOf (headerKey lowerCase) (innermostLayer (headerKey lowerCase) [rows] name) name =
      rowsOf (headerKey lowerCase) rows name := by
  unfold innermostLayer
  by_cases mentions : rowsOf (headerKey lowerCase) rows name = []
  · rw [List.reverse_singleton, List.find?_cons_of_neg (by simpa using mentions), mentions]
    rfl
  · rw [List.reverse_singleton, List.find?_cons_of_pos (by simpa using mentions),
      Option.getD_some]

theorem map_headerKey_mergeLayers (rows : List KeyValue) :
    (mergeLayers (headerKey lowerCase) [rows]).map (headerKey lowerCase) =
      (firstKeys (headerNames lowerCase rows)).map some := by
  rw [map_keyOf_mergeLayers, List.flatten_singleton, keyedEntries, List.map_filterMap]
  congr 2
  unfold headerNames
  apply List.filterMap_congr
  intro row _
  cases headerKey lowerCase row <;> rfl

/-- The enabled headers of a single layer stay the same if their names are in order. -/
theorem unchanged_iff {rows : List KeyValue}
    (overrides : ∀ name, rowsOf (headerKey lowerCase)
      (enabledHeaders (mergeLayers (headerKey lowerCase) [rows])) name =
        rowsOf (headerKey lowerCase) (enabledHeaders rows) name) :
    enabledHeaders (mergeLayers (headerKey lowerCase) [rows]) = enabledHeaders rows ↔
      (headerNames lowerCase (enabledHeaders rows)).Sublist
        (firstKeys (headerNames lowerCase rows)) := by
  have names := @map_headerKey_mergeLayers lowerCase rows
  have kept : ((enabledHeaders (mergeLayers (headerKey lowerCase) [rows])).map
      (headerKey lowerCase)).Sublist ((firstKeys (headerNames lowerCase rows)).map some) := by
    rw [← names]
    exact List.filter_sublist.map _
  constructor
  · intro same
    rw [same, map_headerKey_enabledHeaders] at kept
    have keptNames := kept.filterMap id
    simpa [List.filterMap_map] using keptNames
  · intro ordered
    have nodup : ((firstKeys (headerNames lowerCase rows)).map some).Nodup :=
      (nodup_eraseDups _).map (Option.some_injective _)
    apply eq_of_map_sublist nodup kept
    · rw [map_headerKey_enabledHeaders]
      exact ordered.map some
    · intro name
      cases name with
      | some name => exact overrides name
      | none =>
          have noneUnnamed : ∀ rows : List KeyValue, (enabledHeaders rows).filter
              (fun row => headerKey lowerCase row = none) = [] := by
            intro rows
            rw [List.filter_eq_nil_iff]
            intro row rowMem unnamed
            rw [decide_eq_true_eq, headerKey_eq_none_iff] at unnamed
            have named := (List.mem_filter.mp rowMem).2
            simp [unnamed] at named
          rw [noneUnnamed, noneUnnamed]

/-- Inner layers override outer ones by name just if no enabled header is followed by another one
with its name. -/
theorem inheritsHeaders_iff (chain : AncestorChain collection request.folderId folders)
    (supported : folders.length ≤ 20) :
    (∀ environment, (applyCollectionConfiguration collection request environment).request.headers =
        configuredHeaders lowerText collection request) ∧
      (InheritsHeaders lowerCase collection request folders ↔
        OnlyLastEnabled lowerCase folders request) := by
  refine ⟨applyCollectionConfiguration_headers collection request, ?_⟩
  have headersEq := @configuredHeaders_eq lowerCase _ _ _ chain supported
  constructor
  · intro inherits
    have overrides := inherits.overrides
    rw [headersEq] at overrides
    refine ⟨fun name => (overrides_iff _ name).mp (overrides name), ?_⟩
    intro noFolders
    have unchanged := inherits.unchanged noFolders
    subst noFolders
    rw [headersEq] at unchanged
    refine (unchanged_iff fun name => ?_).mp unchanged
    exact congrArg (fun headers => rowsOf _ headers name) unchanged
  · rintro ⟨last, ordered⟩
    have overrides := fun name => (overrides_iff _ name).mpr (last name)
    refine ⟨?_, ?_⟩
    · rw [headersEq]
      exact overrides
    · intro noFolders
      have inOrder := ordered noFolders
      subst noFolders
      rw [headersEq]
      refine (unchanged_iff fun name => ?_).mpr inOrder
      have single := overrides name
      rw [rowsOf_enabledHeaders] at single ⊢
      rw [rowsOf_enabledHeaders] at single ⊢
      exact single.trans (congrArg _ (innermostLayer_singleton _ name))

end Headers

/-- A request outside all folders that sends a header twice. -/
def twoRows : CollectionRequest where
  id := ['r']
  name := []
  folderId := []
  headers := [⟨['A'], ['1'], true, .string⟩, ⟨['A'], ['2'], true, .string⟩]
  inheritFolderAuth := false
  auth := ⟨.none, false, [], [], [], [], [], [], .header, [], []⟩
  preRequestScript := []
  tests := []

def looseCollection : Collection where
  name := []
  requests := [twoRows]
  folders := []
  environment := []
  subEnvironments := []
  activeSubEnvironmentId := none

/-- The first of the two headers is lost. -/
theorem twoRows_not_inherited :
    AncestorChain looseCollection twoRows.folderId [] ∧
      ¬ InheritsHeaders lowerText looseCollection twoRows [] := by
  refine ⟨.top (.inl rfl), ?_⟩
  intro inherits
  have unchanged := inherits.unchanged rfl
  revert unchanged
  decide

/-- Rows of which only the last one with a name is enabled. -/
theorem last_of_pairwise {lowerCase : Text → Text} {rows : List KeyValue}
    (apart : rows.Pairwise fun earlier later =>
      headerKey lowerCase earlier = headerKey lowerCase later → earlier.enabled = false)
    (name : Text) :
    ∀ row ∈ (rowsOf (headerKey lowerCase) rows name).dropLast, row.enabled = false := by
  have named : ∀ row ∈ rowsOf (headerKey lowerCase) rows name,
      headerKey lowerCase row = some name :=
    fun row rowMem => of_decide_eq_true (List.mem_filter.mp rowMem).2
  have filtered : (rowsOf (headerKey lowerCase) rows name).Pairwise _ := apart.filter _
  intro row rowMem
  rcases List.eq_nil_or_concat (rowsOf (headerKey lowerCase) rows name) with none | ⟨init, last, eq⟩
  · rw [none] at rowMem
    cases rowMem
  · rw [eq] at rowMem filtered named
    rw [List.concat_eq_append] at rowMem filtered named
    rw [List.dropLast_concat] at rowMem
    apply (List.pairwise_append.mp filtered).2.2 row rowMem last (List.mem_singleton.mpr rfl)
    rw [named row (List.mem_append_left _ rowMem), named last (by simp)]

/-- A request in a folder of a folder, with repeated and disabled rows in every layer. -/
def nestedRequest : CollectionRequest :=
  { twoRows with
    folderId := "v2".toList
    headers := [⟨"Trace".toList, ['1'], false, .string⟩, ⟨" trace ".toList, ['2'], true, .string⟩,
      ⟨"Accept".toList, ['3'], false, .string⟩] }

def folderWith (id parentId : Text) (headers : List KeyValue) : RequestFolder where
  id
  name := id
  parentId
  headers
  environment := []
  auth := none
  preRequestScript := []
  tests := []

def apiFolder : RequestFolder :=
  folderWith "api".toList []
    [⟨"Accept".toList, ['4'], true, .string⟩, ⟨"Key".toList, ['5'], true, .string⟩,
      ⟨"Team".toList, ['6'], true, .string⟩]

def v2Folder : RequestFolder :=
  folderWith "v2".toList "api".toList
    [⟨"key".toList, ['7'], false, .string⟩, ⟨"KEY".toList, ['8'], true, .string⟩]

def nestedCollection : Collection :=
  { looseCollection with requests := [nestedRequest], folders := [v2Folder, apiFolder] }

/-- The layers override each other: `Team` comes from the outer folder, `KEY` from the inner one. -/
theorem nestedRequest_inherits_iff :
    AncestorChain nestedCollection nestedRequest.folderId [apiFolder, v2Folder] ∧
      OnlyLastEnabled lowerText [apiFolder, v2Folder] nestedRequest ∧
      (∀ environment,
        (applyCollectionConfiguration nestedCollection nestedRequest environment).request.headers =
          configuredHeaders lowerText nestedCollection nestedRequest) ∧
      (InheritsHeaders lowerText nestedCollection nestedRequest [apiFolder, v2Folder] ↔
        OnlyLastEnabled lowerText [apiFolder, v2Folder] nestedRequest) := by
  have chain : AncestorChain nestedCollection nestedRequest.folderId
      ([] ++ [apiFolder] ++ [v2Folder]) :=
    .inside (by decide) (by decide) (.inside (by decide) (by decide) (.top (.inl rfl)))
  refine ⟨chain, ⟨fun name => ?_, by decide⟩, inheritsHeaders_iff chain (by decide)⟩
  apply last_of_pairwise
  unfold innermostLayer
  cases found : (headerLayers [apiFolder, v2Folder] nestedRequest).reverse.find? fun rows =>
      rowsOf (headerKey lowerText) rows name ≠ [] with
  | none => exact List.Pairwise.nil
  | some layer =>
      have apart : ∀ rows ∈ (headerLayers [apiFolder, v2Folder] nestedRequest).reverse,
          rows.Pairwise fun earlier later =>
            headerKey lowerText earlier = headerKey lowerText later → earlier.enabled = false := by
        decide
      exact apart layer (List.mem_of_find?_eq_some found)

end Brunomnia.Runner
