import Brunomnia.Runner.Rows
import Brunomnia.Runner.Run

/-!
# Layers of variables

The runner lays the variables of its scopes over each other: a scope hides the keys that it
disables and sets those that it has values for. So the innermost scope that says something
of a key decides it, and in a scope that is built from rows one of these rows does.
-/

namespace Brunomnia.Runner

open Codegen (Text trimText)

/-! ## Scopes over each other -/

/-- What a scope says of a key: nothing, or its text, or that it has none. -/
def scopeSays (values : Variables) (disabled : List Text) (key : Text) : Option (Option Text) :=
  match values key with
  | some text => some (some text)
  | none => if key ∈ disabled then some none else none

theorem applyScope_apply (record values : Variables) (disabled : List Text) {key : Text}
    (notPrototype : key ≠ prototypeKey) :
    applyScope record values disabled key = (scopeSays values disabled key).getD (record key) := by
  unfold applyScope Variables.assign Variables.remove scopeSays
  rw [if_neg notPrototype]
  cases values key with
  | none => by_cases isDisabled : key ∈ disabled <;> simp [isDisabled]
  | some text => rfl

theorem applyScope_prototype {record : Variables} (unset : record prototypeKey = none)
    (values : Variables) (disabled : List Text) :
    applyScope record values disabled prototypeKey = none := by
  simp [applyScope, Variables.assign, Variables.remove, unset]

/-- Scopes that are applied from the outermost to the innermost. -/
def applyScopes (scopes : List (Variables × List Text)) : Variables :=
  scopes.foldl (fun record scope => applyScope record scope.1 scope.2) noVariables

theorem applyScopes_apply (scopes : List (Variables × List Text)) {key : Text}
    (notPrototype : key ≠ prototypeKey) :
    applyScopes scopes key =
      (scopes.reverse.findSome? fun scope => scopeSays scope.1 scope.2 key).join := by
  unfold applyScopes
  induction scopes using List.reverseRecOn with
  | nil => rfl
  | append_singleton scopes scope ih =>
      rw [List.foldl_append, List.foldl_cons, List.foldl_nil, applyScope_apply _ _ _ notPrototype,
        ih, List.reverse_append, List.reverse_singleton, List.singleton_append,
        List.findSome?_cons]
      cases scopeSays scope.1 scope.2 key with
      | none => rfl
      | some said => rfl

theorem applyScopes_prototype (scopes : List (Variables × List Text)) :
    applyScopes scopes prototypeKey = none := by
  unfold applyScopes
  induction scopes using List.reverseRecOn with
  | nil => rfl
  | append_singleton scopes scope ih =>
      rw [List.foldl_append, List.foldl_cons, List.foldl_nil]
      exact applyScope_prototype ih _ _

/-- The scopes with which a request is sent. -/
def scopesOf (plan : RunnerPlan) (scopes : RunnerScopes) (folders : List RequestFolder) :
    List (Variables × List Text) :=
  [(scopes.baseGlobals, scopes.baseGlobalDisabled)] ++
    (if plan.globalsAreBase then [] else [(scopes.globals, scopes.globalDisabled)]) ++
    [(scopes.baseEnvironment, scopes.baseEnvironmentDisabled)] ++
    (if plan.collectionVariablesAreBase then []
      else [(scopes.collectionVariables, scopes.collectionDisabled)]) ++
    folders.map fun folder => ((scopes.folderVariables folder.id).getD noVariables,
      (scopes.folderDisabled folder.id).getD [])

theorem requestVariablesOf_eq (plan : RunnerPlan) (scopes : RunnerScopes)
    (folders : List RequestFolder) (iterationData localVariables : Variables) :
    requestVariablesOf plan scopes folders iterationData localVariables =
      ((applyScopes (scopesOf plan scopes folders)).assign iterationData).assign
        localVariables := by
  unfold requestVariablesOf applyScopes scopesOf
  simp only [List.foldl_append, List.foldl_map, List.foldl_cons, List.foldl_nil]
  cases plan.globalsAreBase <;> cases plan.collectionVariablesAreBase <;> rfl

/-! ## Scopes of rows -/

/-- Where a layer comes from: the rows of environments, or those of a folder. -/
inductive Layer where
  | environment (rows : List KeyValue)
  | folder (rows : List KeyValue)

/-- The last enabled row of a folder that has exactly this name. -/
def folderRow (rows : List KeyValue) (key : Text) : Option KeyValue :=
  rows.reverse.find? fun row => row.enabled && row.name ≠ [] && row.name = key

section Rows

variable (parse : Text → Option JsonTree)

/-- What the rows of a layer say of a key. -/
def Layer.gives (layer : Layer) (key : Text) : Option (Option Text) :=
  match layer with
  | .environment rows =>
      match (coveringRow rows key).bind fun row => rowText parse row key with
      | some text => some (some text)
      | none => if (lastRow rows key).any fun row => !row.enabled then some none else none
  | .folder rows =>
      match folderRow rows key with
      | some row => some (some row.value)
      | none =>
          if ∃ row ∈ rows, row.enabled = false ∧ row.name ≠ [] ∧ row.name = key then some none
          else none

/-- A scope disables the names whose last rows are disabled. -/
theorem mem_disabled_iff (rows : List KeyValue) (name : Text) :
    name ∈ rows.foldl applyDisabled [] ↔
      ((lastRow rows name).any fun row => !row.enabled) = true := by
  unfold lastRow
  induction rows using List.reverseRecOn with
  | nil => simp
  | append_singleton rows row ih =>
      rw [List.foldl_append, List.foldl_cons, List.foldl_nil, List.reverse_append,
        List.reverse_singleton, List.singleton_append, List.find?_cons]
      generalize rows.foldl applyDisabled [] = disabled at ih
      unfold applyDisabled
      by_cases noName : trimText row.name = []
      · simp [noName, isNamed, ih]
      · by_cases same : trimText row.name = name
        · subst same
          have named : (isNamed row && decide (trimText row.name = trimText row.name)) = true := by
            simp [isNamed, noName]
          rw [named]
          cases enabled : row.enabled with
          | true => simp [noName, enabled]
          | false =>
              by_cases before : trimText row.name ∈ disabled
              · simp [noName, before, enabled]
              · simp [noName, before, enabled]
        · have other : (isNamed row && decide (trimText row.name = name)) = false := by
            simp [same]
          rw [other]
          cases enabled : row.enabled with
          | true => simp [noName, Ne.symm same, ih]
          | false =>
              by_cases before : trimText row.name ∈ disabled
              · simp [noName, before, ih]
              · simp [noName, before, ih, Ne.symm same]

theorem scopeSays_variableScope (layers : List (List KeyValue)) (key : Text) :
    scopeSays (variableScope parse layers).values (variableScope parse layers).disabled key =
      (Layer.environment layers.flatten).gives parse key := by
  unfold scopeSays variableScope Layer.gives
  simp only [environmentVariables_apply, mem_disabled_iff]

theorem folderRowVariables_apply (rows : List KeyValue) (key : Text) :
    folderRowVariables rows key = (folderRow rows key).map KeyValue.value := by
  unfold folderRowVariables folderRow
  induction rows using List.reverseRecOn with
  | nil => rfl
  | append_singleton rows row ih =>
      rw [List.filter_append, List.foldl_append, List.reverse_append, List.reverse_singleton,
        List.singleton_append, List.find?_cons]
      by_cases chosen : (row.enabled && decide (row.name ≠ [])) = true
      · rw [List.filter_singleton, chosen]
        simp only [cond_true, List.foldl_cons, List.foldl_nil, Variables.define, ih]
        by_cases same : row.name = key
        · simp [same]
        · simp [same, Ne.symm same]
      · rw [List.filter_singleton, Bool.eq_false_iff.mpr chosen]
        simpa using ih

theorem mem_folderRowDisabled_iff (rows : List KeyValue) (key : Text) :
    key ∈ folderRowDisabled rows ↔
      ∃ row ∈ rows, row.enabled = false ∧ row.name ≠ [] ∧ row.name = key := by
  unfold folderRowDisabled
  simp [and_assoc]

theorem scopeSays_folder (rows : List KeyValue) (key : Text) :
    scopeSays (folderRowVariables rows) (folderRowDisabled rows) key =
      (Layer.folder rows).gives parse key := by
  unfold scopeSays Layer.gives
  simp only [folderRowVariables_apply, mem_folderRowDisabled_iff]
  cases folderRow rows key <;> rfl

end Rows

end Brunomnia.Runner
