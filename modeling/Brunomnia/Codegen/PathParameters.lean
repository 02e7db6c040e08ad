import Brunomnia.Codegen.Materialize
import Brunomnia.Library.Placeholders

/-!
# Path parameters

The placeholders of a URL are replaced row by row, each row in the URL that the rows before it have
left. That is replacing them all at once, in any order, just if no row makes a placeholder of
another one.
-/

namespace Brunomnia.Codegen

open Library

/-! ## Rows -/

def braces : Delimiters Char where
  opening := '{'
  closing := '}'
  distinct := by decide

/-- The names and values of the path parameters that are listed. -/
def pathRows (values : Text → Option Text) (request : ApiRequest) : List (Text × Text) :=
  (request.pathParams.filter fun parameter =>
    parameter.enabled && trimText parameter.name ≠ []).map fun parameter =>
      (trimText (resolveTemplate values parameter.name),
        if request.encodeUrl then encodeURIComponent (resolveTemplate values parameter.value)
        else resolveTemplate values parameter.value)

def substituteRow (url : Text) (row : Text × Text) : Text :=
  replaceAfter ('{' :: row.1 ++ ['}']) row.2 0 url

/-- The URL after some rows. -/
def substituteRows (rows : List (Text × Text)) (url : Text) : Text :=
  rows.foldl substituteRow url

/-- The URL that is built before query rows are added. -/
def pathUrl (values : Text → Option Text) (request : ApiRequest) : Text :=
  substituteRows (pathRows values request) (resolveTemplate values request.url)

/-- The value of the row with a name. -/
def valueOf (rows : List (Text × Text)) (name : Text) : Option Text :=
  (rows.find? fun row => row.1 = name).map Prod.snd

/-- Every placeholder of a listed name in the URL has the value of the name. -/
def simultaneously (rows : List (Text × Text)) (url : Text) : Text :=
  braces.render (valueOf rows) (braces.pieces url)

/-- Names that are not empty, have no braces, and differ from each other. -/
structure ArePathRows (rows : List (Text × Text)) : Prop where
  named : ∀ row ∈ rows, row.1 ≠ [] ∧ braces.IsName row.1
  distinct : (rows.map Prod.fst).Nodup

/-- In whatever order the rows are, the URL is substituted at once, and when it is a row's turn,
there are only the placeholders that the URL has had. -/
structure SubstitutesOnce (values : Text → Option Text) (request : ApiRequest) : Prop where
  simultaneous : ∀ pathParams : List KeyValue, pathParams.Perm request.pathParams →
    pathUrl values { request with pathParams } =
      simultaneously (pathRows values request) (resolveTemplate values request.url)
  once : ∀ before row after, (before ++ row :: after).Perm (pathRows values request) →
    occurrences (braces.placeholder row.1)
        (substituteRows before (resolveTemplate values request.url)) =
      occurrences (braces.placeholder row.1) (resolveTemplate values request.url)

/-- With the other rows' values in their places, the URL has no more placeholders of a row. -/
def NoneArises (rows : List (Text × Text)) (url : Text) : Prop :=
  ∀ row ∈ rows, occurrences (braces.placeholder row.1) (simultaneously (rows.erase row) url) =
    occurrences (braces.placeholder row.1) url

/-! ## One row -/

theorem replaceAfter_eq (pattern value : Text) (skipped : ℕ) (text : Text) :
    replaceAfter pattern value skipped text = replaceEach pattern value skipped text := by
  induction text generalizing skipped with
  | nil => cases skipped <;> rfl
  | cons letter rest ih =>
      cases skipped with
      | zero => rw [replaceAfter, replaceEach, ih, ih]
      | succ skipped => exact ih skipped

theorem substituteRow_eq (url : Text) (row : Text × Text) :
    substituteRow url row = replaceEach (braces.placeholder row.1) row.2 0 url :=
  replaceAfter_eq _ _ _ _

section Rows

variable {rows before after : List (Text × Text)} {row : Text × Text} {url : Text}

theorem valueOf_eq_some_iff (distinct : (rows.map Prod.fst).Nodup) {name value : Text} :
    valueOf rows name = some value ↔ (name, value) ∈ rows := by
  unfold valueOf
  constructor
  · intro found
    rcases Option.map_eq_some_iff.mp found with ⟨row, rowFound, rfl⟩
    have isName : row.1 = name := by simpa using List.find?_some rowFound
    rw [← isName]
    exact List.mem_of_find?_eq_some rowFound
  · intro rowMem
    cases found : rows.find? fun row => row.1 = name with
    | none =>
        rw [List.find?_eq_none] at found
        exact absurd (decide_eq_true rfl) (found _ rowMem)
    | some row =>
        have isName : row.1 = name := by simpa using List.find?_some found
        have same := List.inj_on_of_nodup_map distinct (List.mem_of_find?_eq_some found) rowMem
          isName
        rw [same, Option.map_some]

theorem valueOf_eq_none (absent : row.1 ∉ rows.map Prod.fst) : valueOf rows row.1 = none := by
  unfold valueOf
  rw [Option.map_eq_none_iff, List.find?_eq_none]
  intro other otherMem sameName
  apply absent
  rw [decide_eq_true_eq] at sameName
  rw [← sameName]
  exact List.mem_map_of_mem otherMem

theorem valueOf_append_singleton (absent : row.1 ∉ before.map Prod.fst) :
    valueOf (before ++ [row]) = Function.update (valueOf before) row.1 (some row.2) := by
  funext name
  by_cases isName : name = row.1
  · subst isName
    rw [Function.update_self]
    have none := valueOf_eq_none absent
    unfold valueOf at none ⊢
    rw [Option.map_eq_none_iff] at none
    rw [List.find?_append, none]
    simp
  · rw [Function.update_of_ne isName]
    unfold valueOf
    rw [List.find?_append]
    simp [Ne.symm isName]

theorem valueOf_perm (distinct : (rows.map Prod.fst).Nodup) {others : List (Text × Text)}
    (perm : others.Perm rows) : valueOf others = valueOf rows := by
  have otherDistinct := ((perm.map Prod.fst).nodup_iff).mpr distinct
  funext name
  apply Option.ext
  intro value
  rw [valueOf_eq_some_iff otherDistinct, valueOf_eq_some_iff distinct, perm.mem_iff]

theorem simultaneously_append_singleton (isName : braces.IsName row.1)
    (absent : row.1 ∉ before.map Prod.fst)
    (only : occurrences (braces.placeholder row.1) (simultaneously before url) =
      occurrences (braces.placeholder row.1) url) :
    substituteRow (simultaneously before url) row = simultaneously (before ++ [row]) url := by
  rw [Delimiters.occurrences_eq_marks isName url] at only
  have replaced := @Delimiters.replaceEach_render _ _ braces row.1 (valueOf before)
    (braces.pieces url) isName (valueOf_eq_none absent) row.2 [] only
  rw [substituteRow_eq]
  unfold simultaneously at only ⊢
  rw [valueOf_append_singleton absent]
  exact replaced

/-! ## All rows -/

/-- Rows that only meet the placeholders of the URL substitute them at once. -/
theorem substituteRows_eq (arePathRows : ArePathRows before)
    (once : ∀ init row rest, before = init ++ row :: rest →
      occurrences (braces.placeholder row.1) (substituteRows init url) =
        occurrences (braces.placeholder row.1) url) :
    substituteRows before url = simultaneously before url := by
  induction before using List.reverseRecOn with
  | nil => exact (Delimiters.render_pieces url).symm
  | append_singleton init row ih =>
      rcases arePathRows with ⟨named, distinct⟩
      rw [List.map_append, List.map_singleton, List.nodup_append] at distinct
      have absent : row.1 ∉ init.map Prod.fst := fun nameMem =>
        distinct.2.2 _ nameMem _ (List.mem_singleton_self _) rfl
      have initOnce : ∀ first other rest, init = first ++ other :: rest →
          occurrences (braces.placeholder other.1) (substituteRows first url) =
            occurrences (braces.placeholder other.1) url := by
        intro first other rest eq
        exact once first other (rest ++ [row]) (by rw [eq, List.append_assoc, List.cons_append])
      have initEq := ih
        ⟨fun other otherMem => named other (List.mem_append_left _ otherMem), distinct.1⟩ initOnce
      have rowOnce := once init row [] rfl
      rw [initEq] at rowOnce
      unfold substituteRows at initEq ⊢
      rw [List.foldl_append, List.foldl_cons, List.foldl_nil, initEq]
      exact simultaneously_append_singleton (named row (by simp)).2 absent rowOnce

theorem ArePathRows.perm (arePathRows : ArePathRows rows) {others : List (Text × Text)}
    (perm : others.Perm rows) : ArePathRows others :=
  ⟨fun row rowMem => arePathRows.named row (perm.mem_iff.mp rowMem),
    ((perm.map Prod.fst).nodup_iff).mpr arePathRows.distinct⟩

theorem ArePathRows.of_append (arePathRows : ArePathRows (before ++ after)) :
    ArePathRows before := by
  rcases arePathRows with ⟨named, distinct⟩
  rw [List.map_append] at distinct
  exact ⟨fun row rowMem => named row (List.mem_append_left _ rowMem), distinct.of_append_left⟩

theorem occurrences_simultaneously_le (url : Text) {others : List (Text × Text)} {name : Text}
    (isName : braces.IsName name) (distinct : (rows.map Prod.fst).Nodup)
    (otherDistinct : (others.map Prod.fst).Nodup) (subset : rows ⊆ others)
    (noValue : valueOf others name = none) :
    occurrences (braces.placeholder name) (simultaneously rows url) ≤
      occurrences (braces.placeholder name) (simultaneously others url) := by
  have mono := @Delimiters.occurrences_render_mono _ _ braces name (valueOf rows) (valueOf others)
    (braces.pieces url) isName (Delimiters.pieces_wellNamed url) ?_ noValue []
  · exact mono
  · intro other value isValue
    rw [valueOf_eq_some_iff distinct] at isValue
    rw [valueOf_eq_some_iff otherDistinct]
    exact subset isValue

theorem occurrences_le_simultaneously {name : Text} (isName : braces.IsName name)
    (noValue : valueOf rows name = none) :
    occurrences (braces.placeholder name) url ≤
      occurrences (braces.placeholder name) (simultaneously rows url) := by
  rw [Delimiters.occurrences_eq_marks isName url]
  exact Delimiters.marks_le_occurrences isName noValue

/-- If no placeholder arises with all other values, none arises on the way. -/
theorem once_of_noneArises (arePathRows : ArePathRows rows) (noneArises : NoneArises rows url)
    (perm : (before ++ row :: after).Perm rows) :
    occurrences (braces.placeholder row.1) (substituteRows before url) =
      occurrences (braces.placeholder row.1) url := by
  induction lengthEq : before.length using Nat.strong_induction_on
    generalizing before row after with
  | _ length ih =>
      have permRows := arePathRows.perm perm
      have isName := (permRows.named row (by simp)).2
      have beforeEq : substituteRows before url = simultaneously before url := by
        apply substituteRows_eq permRows.of_append
        intro init other rest eq
        subst eq
        rw [List.append_assoc, List.cons_append] at perm
        refine ih init.length ?_ perm rfl
        rw [← lengthEq, List.length_append, List.length_cons]
        omega
      have others : (before ++ after).Perm (rows.erase row) := by
        have front := (List.perm_middle.symm.trans perm).erase row
        rwa [List.erase_cons_head] at front
      have eraseRows := permRows.distinct
      rw [List.map_append, List.map_cons, List.nodup_middle, ← List.map_append,
        List.nodup_cons] at eraseRows
      have eraseDistinct := ((others.map Prod.fst).nodup_iff).mp eraseRows.2
      have noValue : valueOf (rows.erase row) row.1 = none := by
        apply valueOf_eq_none
        rw [← (others.map Prod.fst).mem_iff]
        exact eraseRows.1
      have beforeNone : valueOf before row.1 = none := by
        apply valueOf_eq_none
        intro nameMem
        apply eraseRows.1
        rw [List.map_append]
        exact List.mem_append_left _ nameMem
      have atMost := occurrences_simultaneously_le url isName
        permRows.of_append.distinct eraseDistinct
        (fun other otherMem => others.mem_iff.mp (List.mem_append_left _ otherMem)) noValue
      have atLeast := @occurrences_le_simultaneously before url row.1 isName beforeNone
      rw [noneArises row (perm.mem_iff.mp (by simp))] at atMost
      rw [beforeEq]
      exact le_antisymm atMost atLeast

end Rows

/-! ## Requests -/

section Requests

variable {values : Text → Option Text} {request : ApiRequest}

theorem pathRows_perm {pathParams : List KeyValue} (perm : pathParams.Perm request.pathParams) :
    (pathRows values { request with pathParams }).Perm (pathRows values request) :=
  (perm.filter _).map _

/-- Path parameters are substituted once just if no row makes a placeholder of another one. -/
theorem substitutesOnce_iff (arePathRows : ArePathRows (pathRows values request)) :
    SubstitutesOnce values request ↔
      NoneArises (pathRows values request) (resolveTemplate values request.url) := by
  constructor
  · intro substitutes row rowMem
    have front : (pathRows values request).Perm
        (row :: (pathRows values request).erase row) := List.perm_cons_erase rowMem
    have last : ((pathRows values request).erase row ++ [row]).Perm (pathRows values request) :=
      (List.perm_append_singleton row _).trans front.symm
    have othersEq : substituteRows ((pathRows values request).erase row)
        (resolveTemplate values request.url) =
          simultaneously ((pathRows values request).erase row)
            (resolveTemplate values request.url) := by
      apply substituteRows_eq (arePathRows.perm last).of_append
      intro init other rest eq
      apply substitutes.once init other (rest ++ [row])
      rw [eq, List.append_assoc, List.cons_append] at last
      exact last
    rw [← othersEq]
    exact substitutes.once _ row [] last
  · intro noneArises
    have once := fun before row after perm =>
      @once_of_noneArises _ before after row _ arePathRows noneArises perm
    refine ⟨?_, once⟩
    intro pathParams perm
    have rowsPerm := @pathRows_perm values request pathParams perm
    unfold pathUrl
    rw [substituteRows_eq (arePathRows.perm rowsPerm)]
    · unfold simultaneously
      rw [valueOf_perm arePathRows.distinct rowsPerm]
    · intro init row rest eq
      rw [eq] at rowsPerm
      exact once init row rest rowsPerm

end Requests

/-- A value that spells another placeholder. -/
def spellingRequest : ApiRequest where
  method := []
  url := ['{', 'a', '}']
  pathParams := [⟨['a'], ['{', 'b', '}'], true⟩, ⟨['b'], ['c'], true⟩]
  params := []
  headers := []
  encodeUrl := false
  bodyMode := .none
  renderBodyTemplates := false
  body := []
  formBody := []
  multipartBody := []
  binaryBody := none
  auth := ⟨.none, false, [], [], [], [], [], [], .header, [], []⟩

/-- The value is substituted again. -/
theorem spellingRequest_twice :
    ArePathRows (pathRows (fun _ => none) spellingRequest) ∧
      ¬ SubstitutesOnce (fun _ => none) spellingRequest := by
  refine ⟨⟨?_, by decide⟩, ?_⟩
  · unfold Delimiters.IsName
    decide
  · intro substitutes
    have atOnce := substitutes.simultaneous _ (List.Perm.refl _)
    revert atOnce
    decide

/-- Values without braces. -/
def plainRequest : ApiRequest :=
  { spellingRequest with pathParams := [⟨['a'], ['x'], true⟩, ⟨['b'], ['c'], true⟩] }

theorem plainRequest_substitutesOnce_iff :
    SubstitutesOnce (fun _ => none) plainRequest ↔
      NoneArises (pathRows (fun _ => none) plainRequest)
        (resolveTemplate (fun _ => none) plainRequest.url) := by
  refine substitutesOnce_iff ⟨?_, by decide⟩
  unfold Delimiters.IsName
  decide

end Brunomnia.Codegen
