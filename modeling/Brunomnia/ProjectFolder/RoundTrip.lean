import Brunomnia.ProjectFolder.Writes

/-!
# Reading back

After a call that succeeds, reading gives back what was written exactly if no two resources
share a file, and there was no file of a resource that neither the call wrote nor the manifest
before it listed. Calls that fail after their first write and before the manifest leave such
files behind.
-/

namespace Brunomnia.ProjectFolder

open Library

variable {yaml : Yaml} {folder : Folder} {workspace : Json}

/-! ## What is expected -/

/-- What is read is the metadata of the workspace, and exactly its resources. -/
def ReadsBack (yaml : Yaml) (folder : Folder) (workspace : Json) : Prop :=
  ∃ read, readProject yaml folder = .ok read ∧
    (∀ key ∈ metadataKeys, read.get? key = workspace.get? key) ∧
    ∀ kind ∈ resourceKinds, (read.list kind.key).Perm (workspace.list kind.key)

/-! ## When it holds -/

/-- Resources have files of their own, and the files that are there are known. -/
structure Restorable (yaml : Yaml) (folder : Folder) (workspace : Json) : Prop where
  names : ∀ kind ∈ resourceKinds, ((workspace.list kind.key).map kind.path).Nodup
  known : ∀ entry ∈ folder.entries, entry.1.directory ∈ resourceKinds.map ResourceKind.directory →
    entry.1 ∈ (readManifest yaml folder).files ∨
      entry.1 ∈ (projectValues workspace).map Prod.fst

/-! ## Reading a directory -/

theorem isYamlName_fileName (value : Json) (fallback : String) :
    isYamlName (fileName value fallback) = true := by
  simp [isYamlName, extension, fileName, hexLower]

/-- The items of a directory, entry by entry. -/
structure ItemsSpec (yaml : Yaml) (folder : Folder) (kind : ResourceKind) (items : List Json) :
    Prop where
  read : readYamlDirectory yaml folder kind.directory = .ok items
  nodup : (items.map kind.path).Nodup
  mem_iff : ∀ item, item ∈ items ↔
    ∃ text, (kind.path item, text) ∈ folder.entries ∧ yaml.toText item = .ok text

theorem readYamlDirectory_spec (placed : ∀ entry ∈ folder.entries, IsPlaced yaml entry)
    {kind : ResourceKind} (kindMem : kind ∈ resourceKinds) :
    ∃ items, ItemsSpec yaml folder kind items := by
  have sorted := List.perm_insertionSort
    (fun left right : FilePath × String => left.1.text ≤ right.1.text)
    (folder.entries.filter fun entry =>
      decide (entry.1.directory = kind.directory ∧ isYamlName entry.1.name = true))
  have exists_item : ∀ entry ∈ (folder.entries.filter fun entry =>
      decide (entry.1.directory = kind.directory ∧ isYamlName entry.1.name = true)).insertionSort
        (fun left right => left.1.text ≤ right.1.text),
      ∃ item, entry.1 = kind.path item ∧ yaml.toText item = .ok entry.2 := by
    intro entry entryMem
    have inFilter := List.mem_filter.mp (sorted.mem_iff.mp entryMem)
    have chosen : entry.1.directory = kind.directory ∧ isYamlName entry.1.name = true := by
      simpa using inFilter.2
    exact placed entry inFilter.1 kind kindMem chosen.1
  rcases exists_forall₂ exists_item with ⟨items, pairs⟩
  refine ⟨items, ?_, ?_, ?_⟩
  · apply mapM_eq_ok_iff.mpr
    exact pairs.imp fun entry item pair => yaml.roundTrip item entry.2 pair.2
  · rw [← map_eq_map_of_forall₂ pairs fun entry item pair => pair.1]
    apply (sorted.map Prod.fst).nodup_iff.mpr
    exact folder.nodup.sublist (List.filter_sublist.map Prod.fst)
  · intro item
    constructor
    · intro itemMem
      rcases exists_source pairs itemMem with ⟨⟨path, text⟩, entryMem, pathEq, textOk⟩
      simp only at pathEq textOk
      subst pathEq
      exact ⟨text, (List.mem_filter.mp (sorted.mem_iff.mp entryMem)).1, textOk⟩
    · rintro ⟨text, entryMem, textOk⟩
      have inSorted := sorted.mem_iff.mpr (List.mem_filter.mpr ⟨entryMem, by
        simp [ResourceKind.path, isYamlName_fileName]⟩)
      rcases exists_target pairs inSorted with ⟨other, otherMem, _, otherOk⟩
      have same := (yaml.roundTrip item text textOk).symm.trans
        (yaml.roundTrip other text otherOk)
      rw [Except.ok.injEq] at same
      rw [same]
      exact otherMem

/-! ## Reading the project -/

theorem lookup_filterMap (content : String → Option Json) (keys : List String) (key : String) :
    (keys.filterMap fun key => (content key).map fun value => (key, value)).lookup key =
      if key ∈ keys then content key else none := by
  induction keys with
  | nil => rfl
  | cons other keys ih =>
      rw [List.filterMap_cons]
      by_cases same : key = other
      · subst same
        cases found : content key with
        | none => simp [ih, found]
        | some value => simp
      · cases content other with
        | none => simp [ih, same]
        | some value => simp [ih, same, List.lookup_cons, beq_eq_false_iff_ne.mpr same]

theorem get?_objectSubset (workspace : Json) (keys : List String) (key : String) :
    (objectSubset workspace keys).get? key = if key ∈ keys then workspace.get? key else none :=
  lookup_filterMap workspace.get? keys key

/-- What is read, when the metadata is there. -/
theorem readProject_spec (placed : ∀ entry ∈ folder.entries, IsPlaced yaml entry) {text : String}
    (metadataMem : (projectFile, text) ∈ folder.entries)
    (textOk : yaml.toText (objectSubset workspace metadataKeys) = .ok text) :
    ∃ read, readProject yaml folder = .ok read ∧
      (∀ key ∈ metadataKeys, read.get? key = workspace.get? key) ∧
      ∀ kind ∈ resourceKinds, ItemsSpec yaml folder kind (read.list kind.key) := by
  have directories : ∀ kind : ResourceKind, ∃ items, kind ∈ resourceKinds →
      ItemsSpec yaml folder kind items := by
    intro kind
    by_cases kindMem : kind ∈ resourceKinds
    · rcases readYamlDirectory_spec placed kindMem with ⟨items, spec⟩
      exact ⟨items, fun _ => spec⟩
    · exact ⟨[], fun kindMem' => absurd kindMem' kindMem⟩
  choose items spec using directories
  have updates : (resourceKinds.mapM fun kind =>
      (readYamlDirectory yaml folder kind.directory).map fun items =>
        (kind.key, Json.arr items)) =
      .ok (resourceKinds.map fun kind => (kind.key, Json.arr (items kind))) := by
    apply mapM_of_forall
    intro kind kindMem
    rw [(spec kind kindMem).read]
    rfl
  have keysNodup : ((resourceKinds.map fun kind => (kind.key, Json.arr (items kind))).map
      Prod.fst).Nodup := by
    rw [List.map_map]
    exact (by decide : (resourceKinds.map ResourceKind.key).Nodup)
  refine ⟨(objectSubset workspace metadataKeys).spread
    (resourceKinds.map fun kind => (kind.key, Json.arr (items kind))), ?_, ?_, ?_⟩
  · simp only [readProject, Store.read_eq_some_iff.mpr metadataMem, yaml.roundTrip _ _ textOk,
      updates]
    rfl
  · intro key keyMem
    rw [Json.get?_spread_of_not_mem, get?_objectSubset, if_pos keyMem]
    have apart : ∀ key ∈ metadataKeys, key ∉ resourceKinds.map ResourceKind.key := by decide
    rw [List.map_map]
    exact apart key keyMem
  · intro kind kindMem
    have found : ((objectSubset workspace metadataKeys).spread (resourceKinds.map fun kind =>
        (kind.key, Json.arr (items kind)))).get? kind.key = some (.arr (items kind)) :=
      Json.get?_spread keysNodup (List.mem_map.mpr ⟨kind, kindMem, rfl⟩)
    rw [Json.list_of_get? found]
    exact spec kind kindMem

/-! ## After a call that succeeds -/

section Success

variable {files : List (FilePath × String)} {manifest : String}

theorem FilesSpec.mem_of_lastValue (spec : FilesSpec yaml workspace files)
    (written : ∀ file ∈ projectValues workspace, ∃ text, yaml.toText file.2 = .ok text)
    {path : FilePath} {value : Json} (found : lastValue (projectValues workspace) path =
      some value) : ∃ text, (path, text) ∈ files ∧ yaml.toText value = .ok text := by
  rcases written _ (Library.mem_of_lastValue found) with ⟨text, textOk⟩
  exact ⟨text, (spec.mem_iff _).mpr ⟨value, found, textOk⟩, textOk⟩

theorem toText_of_projectFiles (ok : projectFiles yaml workspace = .ok files) :
    ∀ file ∈ projectValues workspace, ∃ text, yaml.toText file.2 = .ok text := by
  simp only [projectFiles] at ok
  rcases map_eq_ok.mp ok with ⟨texts, textsOk, _⟩
  intro file fileMem
  exact ⟨_, (texts_eq textsOk).1 file fileMem⟩

theorem lastValue_projectFile (workspace : Json) :
    lastValue (projectValues workspace) projectFile =
      some (objectSubset workspace metadataKeys) := by
  apply lastValue_eq_some_of_unique (mem_projectValues.mpr (.inl rfl))
  intro other otherMem
  rcases mem_projectValues.mp otherMem with same | ⟨kind, kindMem, value, _, same⟩
  · exact congrArg Prod.snd same
  · have paths := congrArg (fun file => file.1.directory) same
    exact absurd paths.symm (projectFile_not_resource kindMem)

theorem lastValue_path (names : ∀ kind ∈ resourceKinds,
    ((workspace.list kind.key).map kind.path).Nodup) {kind : ResourceKind}
    (kindMem : kind ∈ resourceKinds) {value : Json} (valueMem : value ∈ workspace.list kind.key) :
    lastValue (projectValues workspace) (kind.path value) = some value := by
  apply lastValue_eq_some_of_unique
  · exact mem_projectValues.mpr (.inr ⟨kind, kindMem, value, valueMem, rfl⟩)
  · intro other otherMem
    have placed := mem_projectValues_kind kindMem otherMem rfl
    exact List.inj_on_of_nodup_map (names kind kindMem) placed.1 valueMem placed.2.symm

theorem FilesSpec.path_mem_iff (spec : FilesSpec yaml workspace files)
    (written : ∀ file ∈ projectValues workspace, ∃ text, yaml.toText file.2 = .ok text)
    {path : FilePath} :
    path ∈ files.map Prod.fst ↔ path ∈ (projectValues workspace).map Prod.fst := by
  constructor
  · intro pathMem
    rcases List.mem_map.mp pathMem with ⟨file, fileMem, rfl⟩
    rcases (spec.mem_iff file).mp fileMem with ⟨value, found, _⟩
    exact List.mem_map_of_mem (Library.mem_of_lastValue found)
  · intro pathMem
    cases found : lastValue (projectValues workspace) path with
    | none => exact absurd pathMem ((lastValue_eq_none_iff _ _).mp found)
    | some value =>
        rcases spec.mem_of_lastValue written found with ⟨text, inFiles, _⟩
        exact List.mem_map_of_mem inFiles

/-- The items of a directory are the resources, if these have files of their own and the
directory holds nothing else. -/
theorem items_perm (spec : FilesSpec yaml workspace files)
    (written : ∀ file ∈ projectValues workspace, ∃ text, yaml.toText file.2 = .ok text)
    (restorable : Restorable yaml folder workspace) {kind : ResourceKind}
    (kindMem : kind ∈ resourceKinds) {items : List Json}
    (itemsSpec : ItemsSpec yaml (((fileChanges (readManifest yaml folder) files).foldl Store.apply
      folder).write manifestFile manifest) kind items) :
    items.Perm (workspace.list kind.key) := by
  have nodup := restorable.names kind kindMem
  apply (List.perm_ext_iff_of_nodup itemsSpec.nodup.of_map nodup.of_map).mpr
  intro item
  rw [itemsSpec.mem_iff]
  constructor
  · rintro ⟨text, entryMem, textOk⟩
    have inFiles : (kind.path item, text) ∈ files := by
      rcases (mem_written_kind spec kindMem rfl).mp entryMem with inFiles |
        ⟨before, unwritten, unlisted⟩
      · exact inFiles
      · exfalso
        have directory : kind.directory ∈ resourceKinds.map ResourceKind.directory :=
          List.mem_map_of_mem kindMem
        rcases restorable.known _ before directory with listed | inValues
        · exact unlisted listed
        · exact unwritten ((spec.path_mem_iff written).mpr inValues)
    rcases (spec.mem_iff _).mp inFiles with ⟨value, found, valueOk⟩
    have placed := mem_projectValues_kind kindMem (Library.mem_of_lastValue found) rfl
    have same := (yaml.roundTrip item text textOk).symm.trans
      (yaml.roundTrip value text valueOk)
    rw [Except.ok.injEq] at same
    rw [same]
    exact placed.1
  · intro itemMem
    rcases spec.mem_of_lastValue written (lastValue_path restorable.names kindMem itemMem) with
      ⟨text, inFiles, textOk⟩
    exact ⟨text, (mem_written_kind spec kindMem rfl).mpr (.inl inFiles), textOk⟩

/-- If the items of every directory are the resources, these have files of their own, and
nothing unknown was there. -/
theorem restorable_of_perm (spec : FilesSpec yaml workspace files)
    (written : ∀ file ∈ projectValues workspace, ∃ text, yaml.toText file.2 = .ok text)
    (placed : ∀ entry ∈ folder.entries, IsPlaced yaml entry)
    {items : ResourceKind → List Json}
    (itemsSpec : ∀ kind ∈ resourceKinds, ItemsSpec yaml (((fileChanges (readManifest yaml folder)
      files).foldl Store.apply folder).write manifestFile manifest) kind (items kind))
    (perm : ∀ kind ∈ resourceKinds, (items kind).Perm (workspace.list kind.key)) :
    Restorable yaml folder workspace := by
  constructor
  · intro kind kindMem
    exact ((perm kind kindMem).map kind.path).nodup_iff.mp (itemsSpec kind kindMem).nodup
  · intro entry entryMem directoryMem
    by_contra unknown
    rw [not_or] at unknown
    rcases List.mem_map.mp directoryMem with ⟨kind, kindMem, directory⟩
    rcases placed entry entryMem kind kindMem directory.symm with ⟨value, pathEq, textOk⟩
    have left : (kind.path value, entry.2) ∈ (((fileChanges (readManifest yaml folder)
        files).foldl Store.apply folder).write manifestFile manifest).entries := by
      rw [← pathEq]
      apply (mem_written_kind spec kindMem directory.symm).mpr
      refine .inr ⟨entryMem, ?_, unknown.1⟩
      exact fun inFiles => unknown.2 ((spec.path_mem_iff written).mp inFiles)
    have valueMem := (perm kind kindMem).mem_iff.mp
      (((itemsSpec kind kindMem).mem_iff value).mpr ⟨entry.2, left, textOk⟩)
    apply unknown.2
    rw [pathEq]
    exact List.mem_map_of_mem
      (mem_projectValues.mpr (.inr ⟨kind, kindMem, value, valueMem, rfl⟩))

end Success

/-- A call that succeeds reads back exactly if the folder before it was restorable. -/
theorem writeProject_readsBack_iff (placed : ∀ entry ∈ folder.entries, IsPlaced yaml entry)
    {fault : Option FileFault} {after : Folder} {output : ProjectWriteOutput}
    (success : writeProject yaml folder workspace fault = (after, .ok output)) :
    ReadsBack yaml after workspace ↔ Restorable yaml folder workspace := by
  have afterPlaced : ∀ entry ∈ after.entries, IsPlaced yaml entry := by
    have kept : ∀ entry ∈ (writeProject yaml folder workspace fault).1.entries,
        IsPlaced yaml entry := writeProject_isPlaced placed
    rw [success] at kept
    exact kept
  rcases writeProject_cases success with ⟨_, _, failed⟩ | ⟨files, filesOk, ⟨_, _, _, failed⟩ |
    ⟨manifest, _, rfl⟩⟩
  · cases failed
  · cases failed
  · have spec := projectFiles_spec filesOk
    have written := toText_of_projectFiles filesOk
    rcases spec.mem_of_lastValue written (lastValue_projectFile workspace) with
      ⟨text, inFiles, textOk⟩
    have metadataMem : (projectFile, text) ∈ (((fileChanges (readManifest yaml folder)
        files).foldl Store.apply folder).write manifestFile manifest).entries := by
      rw [Store.mem_write, fileChanges, List.foldl_append, Store.mem_written spec.nodup]
      have apart : projectFile ≠ manifestFile := by decide
      exact .inr ⟨.inl inFiles, apart⟩
    rcases readProject_spec afterPlaced metadataMem textOk with ⟨read, readOk, metadata, items⟩
    constructor
    · rintro ⟨other, otherOk, _, perm⟩
      rw [readOk, Except.ok.injEq] at otherOk
      subst otherOk
      exact restorable_of_perm spec written placed items perm
    · intro restorable
      refine ⟨read, readOk, metadata, ?_⟩
      intro kind kindMem
      exact items_perm spec written restorable kindMem (items kind kindMem)

/-! ## Runs -/

structure WriteCall where
  workspace : Json
  fault : Option FileFault

def folderAfter (yaml : Yaml) (calls : List WriteCall) : Folder :=
  calls.foldl (fun folder call => (writeProject yaml folder call.workspace call.fault).1) .empty

theorem folderAfter_isPlaced (yaml : Yaml) (calls : List WriteCall) :
    ∀ entry ∈ (folderAfter yaml calls).entries, IsPlaced yaml entry := by
  have run : ∀ (calls : List WriteCall) (folder : Folder),
      (∀ entry ∈ folder.entries, IsPlaced yaml entry) →
      ∀ entry ∈ (calls.foldl (fun folder call =>
        (writeProject yaml folder call.workspace call.fault).1) folder).entries,
        IsPlaced yaml entry := by
    intro calls
    induction calls with
    | nil => exact fun _ placed => placed
    | cons call calls ih => exact fun _ placed => ih _ (writeProject_isPlaced placed)
  exact run calls .empty (by simp [Store.empty])

/-- After any calls, a call that succeeds reads back exactly if its resources have files of their
own and the files that are there are listed in the manifest or written again. -/
theorem readsBack_iff_restorable (yaml : Yaml) (calls : List WriteCall) (workspace : Json)
    (fault : Option FileFault) (after : Folder) (output : ProjectWriteOutput)
    (success : writeProject yaml (folderAfter yaml calls) workspace fault = (after, .ok output)) :
    ReadsBack yaml after workspace ↔ Restorable yaml (folderAfter yaml calls) workspace :=
  writeProject_readsBack_iff (folderAfter_isPlaced yaml calls) success

/-! ## Calls that end cleanly -/

/-- The files of resources that are there are listed in the manifest. -/
def IsListed (yaml : Yaml) (folder : Folder) : Prop :=
  ∀ entry ∈ folder.entries, entry.1.directory ∈ resourceKinds.map ResourceKind.directory →
    entry.1 ∈ (readManifest yaml folder).files

theorem isListed_of_success {fault : Option FileFault} {after : Folder}
    {output : ProjectWriteOutput} (listed : IsListed yaml folder)
    (success : writeProject yaml folder workspace fault = (after, .ok output)) :
    IsListed yaml after := by
  rcases writeProject_cases success with ⟨_, _, failed⟩ | ⟨files, filesOk, ⟨_, _, _, failed⟩ |
    ⟨manifest, manifestOk, rfl⟩⟩
  · cases failed
  · cases failed
  · intro entry entryMem directoryMem
    have manifestRead : readManifest yaml
        (((fileChanges (readManifest yaml folder) files).foldl Store.apply folder).write
          manifestFile manifest) = ⟨1, files.map Prod.fst⟩ := by
      have kept := Store.read_eq_some_iff.mpr (Store.mem_write.mpr (.inl rfl) :
        (manifestFile, manifest) ∈ (((fileChanges (readManifest yaml folder) files).foldl
          Store.apply folder).write manifestFile manifest).entries)
      rw [readManifest, kept, Option.bind_some, yaml.manifestRoundTrip _ _ manifestOk]
      rfl
    rw [manifestRead]
    rcases List.mem_map.mp directoryMem with ⟨kind, kindMem, directory⟩
    rcases (mem_written_kind (projectFiles_spec filesOk) kindMem directory.symm).mp entryMem with
      inFiles | ⟨before, _, unlisted⟩
    · exact List.mem_map_of_mem inFiles
    · exact absurd (listed entry before directoryMem) unlisted

/-- A call succeeds, or fails before it changes anything. -/
def EndsCleanly (yaml : Yaml) (folder : Folder) (call : WriteCall) : Prop :=
  (∃ output, (writeProject yaml folder call.workspace call.fault).2 = .ok output) ∨
    (writeProject yaml folder call.workspace call.fault).1 = folder

/-- Where every earlier call ended cleanly, resources with files of their own are enough. -/
theorem readsBack_of_endsCleanly (calls : List WriteCall)
    (clean : ∀ before call later, calls = before ++ call :: later →
      EndsCleanly yaml (folderAfter yaml before) call)
    (names : ∀ kind ∈ resourceKinds, ((workspace.list kind.key).map kind.path).Nodup)
    {fault : Option FileFault} {after : Folder} {output : ProjectWriteOutput}
    (success : writeProject yaml (folderAfter yaml calls) workspace fault = (after, .ok output)) :
    ReadsBack yaml after workspace := by
  apply (writeProject_readsBack_iff (folderAfter_isPlaced yaml calls) success).mpr
  refine ⟨names, ?_⟩
  suffices listed : IsListed yaml (folderAfter yaml calls) from
    fun entry entryMem directoryMem => .inl (listed entry entryMem directoryMem)
  clear success names
  induction calls using List.reverseRecOn with
  | nil =>
      intro entry entryMem
      cases entryMem
  | append_singleton calls call ih =>
      have earlier := ih fun before other later eq =>
        clean before other (later ++ [call]) (by rw [eq, List.append_assoc, List.cons_append])
      rw [folderAfter, List.foldl_append]
      rcases clean calls call [] rfl with ⟨output, ok⟩ | unchanged
      · exact isListed_of_success earlier (Prod.ext rfl ok)
      · simp only [List.foldl_cons, List.foldl_nil]
        rw [folderAfter] at unchanged earlier
        rw [unchanged]
        exact earlier

/-! ## A call that fails before the manifest -/

/-- YAML of the values and manifests that a run is about. -/
def Yaml.ofStores (values : Store String Json) (manifests : Store String ProjectManifest) :
    Yaml where
  toText value := (values.keyOf value).elim (.error "not a value of the run") .ok
  ofText text := (values.read text).elim (.error "not a text of the run") .ok
  roundTrip := by
    intro value text written
    cases kept : values.keyOf value with
    | none => simp [kept] at written
    | some key =>
        simp only [kept, Option.elim_some, Except.ok.injEq] at written
        subst written
        rw [Store.read_of_keyOf kept, Option.elim_some]
  manifestText manifest := (manifests.keyOf manifest).elim (.error "not a manifest") .ok
  ofManifest := manifests.read
  manifestRoundTrip := by
    intro manifest text written
    cases kept : manifests.keyOf manifest with
    | none => simp [kept] at written
    | some key =>
        simp only [kept, Option.elim_some, Except.ok.injEq] at written
        subst written
        exact Store.read_of_keyOf kept

def orders : Json := .obj [("id", .str "wrk_1"), ("name", .str "Orders")]

def shop (collections : List Json) : Json :=
  .obj [("name", .str "Shop"), ("collections", .arr collections)]

def ordersPath : FilePath := ⟨"collections", "orders-db10644d.yaml"⟩

def shopYaml : Yaml :=
  .ofStores
    ⟨[("name: Shop\n", .obj [("name", .str "Shop")]), ("id: wrk_1\nname: Orders\n", orders)],
      by decide⟩
    ⟨[("version: 1\nfiles:\n- .brunomnia/project.yaml\n", ⟨1, [projectFile]⟩),
      ("version: 1\nfiles:\n- .brunomnia/project.yaml\n- collections/orders-db10644d.yaml\n",
        ⟨1, [projectFile, ordersPath]⟩)], by decide⟩

/-- The metadata and the collection are written, the manifest is not. -/
def fullDisk : List WriteCall := [⟨shop [orders], some ⟨2, "No space left on device"⟩⟩]

/-- The lower half of the hash does not keep two ids apart. -/
example :
    fileName (.obj [("id", .str "wrk_79818"), ("name", .str "Orders")]) "collection" =
      fileName (.obj [("id", .str "wrk_527726"), ("name", .str "Orders")]) "collection" := by
  decide

theorem fullDisk_written :
    (writeProject shopYaml (folderAfter shopYaml fullDisk) (shop [orders]) none).2 =
      .ok ⟨1, 2, 0⟩ := by
  decide

/-- Writing the collection again, after the disk was full, reads back. -/
theorem orders_readsBack :
    ReadsBack shopYaml
      (writeProject shopYaml (folderAfter shopYaml fullDisk) (shop [orders]) none).1
      (shop [orders]) := by
  apply (readsBack_iff_restorable shopYaml fullDisk (shop [orders]) none _ ⟨1, 2, 0⟩
    (Prod.ext rfl fullDisk_written)).mpr
  constructor
  · decide
  · decide

def HasUniqueIds (workspace : Json) : Prop :=
  ∀ kind ∈ resourceKinds, ((workspace.list kind.key).map fun value => value.get? "id").Nodup

/-- The collection of the call that failed is read after a call that does not have it. -/
theorem orders_reappear :
    HasUniqueIds (shop [orders]) ∧ HasUniqueIds (shop []) ∧
      (writeProject shopYaml (folderAfter shopYaml fullDisk) (shop []) none).2 =
        .ok ⟨1, 1, 0⟩ ∧
      ¬ ReadsBack shopYaml
        (writeProject shopYaml (folderAfter shopYaml fullDisk) (shop []) none).1 (shop []) := by
  have readBack : (readProject shopYaml (writeProject shopYaml (folderAfter shopYaml fullDisk)
      (shop []) none).1).map (fun read => read.list "collections") = .ok [orders] := by
    decide
  refine ⟨by unfold HasUniqueIds; decide, by unfold HasUniqueIds; decide,
    by decide, ?_⟩
  rintro ⟨read, readOk, _, perm⟩
  rw [readOk, Except.map, Except.ok.injEq] at readBack
  have same := perm ⟨"collections", "collections", "collection"⟩ (by decide)
  rw [readBack] at same
  exact absurd same.length_eq (by decide)

end Brunomnia.ProjectFolder
