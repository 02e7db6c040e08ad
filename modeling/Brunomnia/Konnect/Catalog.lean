import Brunomnia.Konnect.ControlPlanes
import Brunomnia.Library.Stores

/-!
# The catalog of projects

The local projects in their order, and which of them is active. A project may be unreadable, when
neither its file nor its backup can be read. What a project has besides its name, its environments
and its settings is a parameter, and so is how that is read back.
-/

namespace Brunomnia.Konnect

open Library

structure Environment where
  id : String
  name : String
  parentId : String
  rows : List Json

structure Workspace (Content : Type) where
  name : String
  environments : List Environment
  activeEnvironmentId : String
  konnect : KonnectConfig
  content : Content

/-- What the catalog relies on besides the settings: the other parts of `migrateWorkspace`, and the
parts of a blank project that it takes from the preferences of another one. -/
structure Storage (Content : Type) where
  migrateParts : Workspace Content → Workspace Content
  blankContent : Content → Content

variable {Content : Type}

def migrateWorkspace (storage : Storage Content) (workspace : Workspace Content) :
    Workspace Content :=
  { storage.migrateParts workspace with konnect := normalizeKonnect workspace.konnect }

def createBlankWorkspace (storage : Storage Content) (name : String) (preferences : Content) :
    Workspace Content :=
  let projectName := sliceUnits (trim name) 200
  { name := if projectName = "" then "Untitled Project" else projectName
    environments := []
    activeEnvironmentId := ""
    konnect := defaultKonnectConfig
    content := storage.blankContent preferences }

def maxCatalogWorkspaces : ℕ := 500

/-- `workspaceIdPattern` -/
def validWorkspaceId (id : String) : Bool :=
  1 ≤ id.toList.length ∧ id.toList.length ≤ 128 ∧
    id.toList.all fun letter => isAlphanumeric letter || letter = '_' || letter = '-'

/-- The catalog of an application that has been opened before, by what is stored for every
project; nothing is for one that is unreadable. -/
structure Catalog (Content : Type) where
  activeWorkspaceId : String
  projects : Store String (Option (Workspace Content))
  valid : ∀ id ∈ projects.keys, validWorkspaceId id = true
  fits : projects.keys.length ≤ maxCatalogWorkspaces

namespace Catalog

/-- What is stored for a project that is readable. -/
def stored (catalog : Catalog Content) (id : String) : Option (Workspace Content) :=
  (catalog.projects.read id).join

def ids (catalog : Catalog Content) : List String :=
  catalog.projects.keys

/-- `browserSnapshot`: an active project that is unreadable gives way to the first one that is
not. -/
def load (catalog : Catalog Content) : Except String (Catalog Content) :=
  if (catalog.stored catalog.activeWorkspaceId).isSome then .ok catalog
  else
    match catalog.ids.find? fun id => (catalog.stored id).isSome with
    | some id => .ok { catalog with activeWorkspaceId := id }
    | none => .error "No valid or recoverable local project is available."

def readCatalogWorkspace (storage : Storage Content) (catalog : Catalog Content) (id : String) :
    Except String (Workspace Content) :=
  if id ∉ catalog.ids then .error "This local project no longer exists."
  else
    match catalog.stored id with
    | some workspace => .ok (migrateWorkspace storage workspace)
    | none => .error "This local project and its backup are unreadable."

def saveCatalogWorkspace (catalog : Catalog Content) (id : String)
    (workspace : Workspace Content) : Except String (Catalog Content) :=
  if ¬ validWorkspaceId id then .error "The active project ID is invalid."
  else if id ∉ catalog.ids then .error "This local project no longer exists."
  else .ok { catalog with
    projects := catalog.projects.replace id (some workspace)
    valid := by
      rw [Store.keys_replace]
      exact catalog.valid
    fits := by
      rw [Store.keys_replace]
      exact catalog.fits }

def createCatalogWorkspaceInactive (catalog : Catalog Content) (workspace : Workspace Content)
    (id : String) : Except String (Catalog Content) :=
  if isValid : validWorkspaceId id = true then
    if full : catalog.projects.keys.length ≥ maxCatalogWorkspaces then
      .error "At most 500 local projects can be stored."
    else if fresh : id ∉ catalog.projects.keys then
      { catalog with
        projects := catalog.projects.append id (some workspace) fresh
        activeWorkspaceId :=
          if catalog.activeWorkspaceId = "" then id else catalog.activeWorkspaceId
        valid := by
          rw [Store.keys_append]
          intro other otherMem
          rcases List.mem_append.mp otherMem with before | isNew
          · exact catalog.valid other before
          · rw [List.mem_singleton] at isNew
            rwa [isNew]
        fits := by
          rw [Store.keys_append, List.length_append, List.length_singleton]
          omega }.load
    else .error "A local project with this ID already exists."
  else .error "The new project ID is invalid."

def deleteCatalogWorkspace (catalog : Catalog Content) (id : String) :
    Except String (Catalog Content) :=
  if ¬ validWorkspaceId id then .error "The selected project ID is invalid."
  else if catalog.ids.length ≤ 1 then .error "The last local project cannot be deleted."
  else if id ∉ catalog.ids then .error "This local project no longer exists."
  else
    let index := catalog.ids.idxOf id
    let rest := catalog.ids.eraseIdx index
    { catalog with
      projects := catalog.projects.remove id
      activeWorkspaceId :=
        if catalog.activeWorkspaceId = id then rest.getD (min index (rest.length - 1)) ""
        else catalog.activeWorkspaceId
      valid := by
        rw [Store.keys_remove]
        intro other otherMem
        exact catalog.valid other (List.mem_of_mem_filter otherMem)
      fits := by
        rw [Store.keys_remove]
        exact (List.length_filter_le _ _).trans catalog.fits }.load

/-! ## What an operation leaves -/

variable {catalog changed : Catalog Content} {id other : String} {workspace : Workspace Content}

theorem stored_isSome_mem (readable : (catalog.stored id).isSome) : id ∈ catalog.ids := by
  simp only [stored] at readable
  rw [ids, ← Store.read_isSome_iff]
  cases found : catalog.projects.read id with
  | none => simp [found] at readable
  | some workspace => rfl

theorem load_of_active (readable : (catalog.stored catalog.activeWorkspaceId).isSome) :
    catalog.load = .ok catalog := by
  rw [load, if_pos readable]

theorem projects_of_load (loaded : catalog.load = .ok changed) :
    changed.projects = catalog.projects := by
  simp only [load] at loaded
  split at loaded
  case isTrue =>
      rw [Except.ok.injEq] at loaded
      rw [← loaded]
  case isFalse =>
      split at loaded
      · rw [Except.ok.injEq] at loaded
        rw [← loaded]
      · exact absurd loaded (by simp)

theorem saveCatalogWorkspace_eq (workspace : Workspace Content) (present : id ∈ catalog.ids) :
    ∃ saved, catalog.saveCatalogWorkspace id workspace = .ok saved ∧
      saved.projects = catalog.projects.replace id (some workspace) ∧
      saved.activeWorkspaceId = catalog.activeWorkspaceId := by
  simp only [saveCatalogWorkspace]
  rw [if_neg (by simpa using catalog.valid id present), if_neg (not_not.mpr present)]
  exact ⟨_, rfl, rfl, rfl⟩

theorem of_saveCatalogWorkspace
    (saved : catalog.saveCatalogWorkspace id workspace = .ok changed) :
    id ∈ catalog.ids ∧ changed.projects = catalog.projects.replace id (some workspace) ∧
      changed.activeWorkspaceId = catalog.activeWorkspaceId := by
  have present : id ∈ catalog.ids := by
    by_contra absent
    simp only [saveCatalogWorkspace, if_pos absent] at saved
    split at saved <;> exact absurd saved (by simp)
  rcases saveCatalogWorkspace_eq workspace present with ⟨result, isSaved, facts⟩
  rw [isSaved, Except.ok.injEq] at saved
  rw [← saved]
  exact ⟨present, facts⟩

theorem ne_empty_of_valid {id : String} (isValid : validWorkspaceId id = true) : id ≠ "" := by
  rintro rfl
  exact absurd isValid (by decide)

theorem utf16Length_of_valid {id : String} (isValid : validWorkspaceId id = true) :
    utf16Length id ≤ 128 := by
  simp only [validWorkspaceId, Bool.decide_and, Bool.and_eq_true, decide_eq_true_eq] at isValid
  rcases isValid with ⟨_, short, letters⟩
  have units : ∀ letter ∈ id.toList, utf16Units letter = 1 := by
    intro letter letterMem
    have allowed := List.all_eq_true.mp letters letter letterMem
    have small : letter.toNat < 65536 := by
      simp only [isAlphanumeric, Bool.or_eq_true, decide_eq_true_eq] at allowed
      rcases allowed with ((alpha | digit) | rfl) | rfl
      · simp only [Char.isAlpha, Char.isUpper, Char.isLower, Bool.or_eq_true, Bool.and_eq_true,
          decide_eq_true_eq, ge_iff_le, UInt32.le_iff_toNat_le] at alpha
        rcases alpha with ⟨_, upper⟩ | ⟨_, upper⟩ <;>
          exact lt_of_le_of_lt upper (by decide)
      · simp only [Char.isDigit, Bool.and_eq_true, decide_eq_true_eq, ge_iff_le,
          UInt32.le_iff_toNat_le] at digit
        exact lt_of_le_of_lt digit.2 (by decide)
      · decide
      · decide
    rw [utf16Units, if_pos small]
  have sumEq : (id.toList.map utf16Units).sum = id.toList.length := by
    rw [List.map_congr_left units]
    simp
  rw [utf16Length, sumEq]
  exact short

theorem active_ne_empty (readable : (catalog.stored catalog.activeWorkspaceId).isSome) :
    catalog.activeWorkspaceId ≠ "" :=
  ne_empty_of_valid (catalog.valid _ (stored_isSome_mem readable))

theorem createCatalogWorkspaceInactive_eq (workspace : Workspace Content)
    (isValid : validWorkspaceId id = true)
    (space : catalog.ids.length < maxCatalogWorkspaces) (fresh : id ∉ catalog.projects.keys)
    (readable : (catalog.stored catalog.activeWorkspaceId).isSome) :
    ∃ created, catalog.createCatalogWorkspaceInactive workspace id = .ok created ∧
      created.projects = catalog.projects.append id (some workspace) fresh ∧
      created.activeWorkspaceId = catalog.activeWorkspaceId := by
  have active : (if catalog.activeWorkspaceId = "" then id else catalog.activeWorkspaceId) =
      catalog.activeWorkspaceId := if_neg (active_ne_empty readable)
  have notNew : catalog.activeWorkspaceId ≠ id := by
    rintro isNew
    exact fresh (isNew ▸ stored_isSome_mem readable)
  simp only [createCatalogWorkspaceInactive]
  rw [dif_pos isValid, dif_neg (by simpa [ids] using space), dif_pos fresh]
  refine ⟨_, load_of_active ?_, rfl, active⟩
  simp only [active, stored]
  rw [Store.read_append_of_ne fresh notNew]
  exact readable

theorem createCatalogWorkspaceInactive_full (workspace : Workspace Content) (id : String)
    (full : maxCatalogWorkspaces ≤ catalog.ids.length) :
    ∃ error, catalog.createCatalogWorkspaceInactive workspace id = .error error := by
  simp only [createCatalogWorkspaceInactive]
  split
  · rw [dif_pos (by simpa [ids] using full)]
    exact ⟨_, rfl⟩
  · exact ⟨_, rfl⟩

theorem deleteCatalogWorkspace_eq (present : id ∈ catalog.ids)
    (readable : (catalog.stored catalog.activeWorkspaceId).isSome)
    (notActive : catalog.activeWorkspaceId ≠ id) :
    ∃ deleted, catalog.deleteCatalogWorkspace id = .ok deleted ∧
      deleted.projects = catalog.projects.remove id ∧
      deleted.activeWorkspaceId = catalog.activeWorkspaceId := by
  have others : 1 < catalog.ids.length := by
    have sub : [catalog.activeWorkspaceId, id].Subperm catalog.ids := by
      apply List.Nodup.subperm
      · simpa using notActive
      · intro other otherMem
        rcases List.mem_cons.mp otherMem with rfl | isId
        · exact stored_isSome_mem readable
        · rw [List.mem_singleton] at isId
          rwa [isId]
    exact sub.length_le
  simp only [deleteCatalogWorkspace]
  rw [if_neg (by simpa using catalog.valid id present), if_neg (by omega),
    if_neg (not_not.mpr present)]
  refine ⟨_, load_of_active ?_, rfl, if_neg notActive⟩
  simp only [if_neg notActive, stored]
  rw [Store.read_remove_of_ne notActive]
  exact readable

end Catalog

end Brunomnia.Konnect
