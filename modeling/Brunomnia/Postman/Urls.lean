import Brunomnia.Postman.Names

/-!
# URLs of Postman collections

A URL is an origin, the segments of its path, a query and a fragment. It is given as a text or by
its fields. The URL of a request is meant to be the same, but for the segments that are names and
for a query that is split into rows.
-/

namespace Brunomnia.Postman

open Codegen (Text)

/-! ## Parts -/

structure UrlParts where
  origin : Text
  segments : List Text
  query : Text
  fragment : Text

def pathText (segments : List Text) : Text :=
  segments.flatMap fun segment => '/' :: segment

def UrlParts.text (parts : UrlParts) : Text :=
  parts.origin ++ pathText parts.segments ++ parts.query ++ parts.fragment

def isSchemeLetter (letter : Char) : Bool :=
  letter.isAlphanum || letter ∈ ['+', '-', '.']

def schemeLength (base : Text) : ℕ :=
  let scheme := base.takeWhile isSchemeLetter
  if scheme ≠ [] ∧ "://".toList <+: base.drop scheme.length then scheme.length + 3 else 0

def segmentsOf (path : Text) : List Text :=
  if path = [] then [] else path.tail.splitOn '/'

def partsOfText (url : Text) : UrlParts :=
  let body := url.takeWhile fun letter => letter ≠ '#'
  let base := body.takeWhile fun letter => letter ≠ '?'
  let behind := base.drop (schemeLength base)
  { origin := base.take (schemeLength base) ++ behind.takeWhile fun letter => letter ≠ '/'
    segments := segmentsOf (behind.dropWhile fun letter => letter ≠ '/')
    query := body.dropWhile fun letter => letter ≠ '?'
    fragment := url.dropWhile fun letter => letter ≠ '#' }

/-- A text that is there, behind a mark. -/
def marked (mark : Char) (text : String) : Text :=
  if text.toList.any isPlain then mark :: text.toList else []

/-- A text, if it has more than colons and braces. -/
def spelledOut (text : Text) : Text :=
  if text.any isPlain then text else []

def segmentText : Json → Text
  | .str text => text.toList
  | segment => spelledOut (segment.text "value").toList

def readSegment (item : Json) : Text :=
  (asString (some item)).toList

def pathSegments (path : Option Json) : List Text :=
  match path with
  | some (.arr items) => items.map segmentText
  | some (.str "") => []
  | some (.str path) => path.toList.splitOn '/'
  | _ => []

def partsOfFields (url : Json) : UrlParts where
  origin := (asStringOr "https" (url.get? "protocol") ++ "://" ++
    joined "." (url.get? "host")).toList ++ marked ':' (url.text "port")
  segments := pathSegments (url.get? "path")
  query := []
  fragment := marked '#' (url.text "hash")

def sourceParts (value : Option Json) : UrlParts :=
  match value with
  | some (.str url) => partsOfText url.toList
  | _ =>
      match asRecord value with
      | none => ⟨[], [], [], []⟩
      | some url =>
          match url.get? "raw" with
          | some (.str raw) => partsOfText raw.toList
          | _ => partsOfFields url

/-- The parts that stay in the URL. -/
def keptParts (value : Option Json) : UrlParts :=
  if splitsQuery value then { sourceParts value with query := [] } else sourceParts value

/-- The URL that is expected, with the names of segments in braces. -/
def expectedUrl (value : Option Json) : Text :=
  { keptParts value with segments := (keptParts value).segments.map expectedSegment }.text

/-! ## What is kept -/

/-- Names are only whole segments of the path. -/
structure NamesKept (parts : UrlParts) : Prop where
  origin : ¬ HasName parts.origin
  segments : ∀ segment ∈ parts.segments, SegmentKept segment
  query : ¬ HasName parts.query
  fragment : ¬ HasName parts.fragment

/-- No fragment follows a query, and no question mark is in the fragment. -/
structure QueryIsLast (parts : UrlParts) : Prop where
  alone : parts.query = [] ∨ parts.fragment = []
  fragment : '?' ∉ parts.fragment

/-- The segments of a path are texts, and they are not only one that is empty. -/
def PathIsRead (path : Option Json) : Prop :=
  ∀ items, path = some (.arr items) →
    (∀ item ∈ items, segmentText item = readSegment item) ∧ (items ≠ [] → joined "/" path ≠ "")

/-- The fields have no port and no fragment, and their path is read. -/
structure FieldsAreRead (url : Json) : Prop where
  port : marked ':' (url.text "port") = []
  hash : marked '#' (url.text "hash") = []
  path : PathIsRead (url.get? "path")

def IsReadWhole (value : Option Json) : Prop :=
  match value with
  | some (.str _) => True
  | _ =>
      match asRecord value with
      | none => True
      | some url =>
          match url.get? "raw" with
          | some (.str raw) => splitsQuery value = true → QueryIsLast (partsOfText raw.toList)
          | _ => FieldsAreRead url ∧ (splitsQuery value = true → '?' ∉ (postmanUrl value).toList)

structure UrlKept (value : Option Json) : Prop where
  isReadWhole : IsReadWhole value
  names : NamesKept (keptParts value)

/-! ## Names in the parts -/

theorem startsOutside_of_head {text : Text} {letter : Char} (outside : isNameLetter letter = false)
    (head : ∀ first ∈ text.head?, first = letter) : StartsOutside text := by
  intro first firstMem
  rw [head first firstMem]
  exact outside

/-- The marks in front of the query and the fragment. -/
structure UrlParts.IsMarked (parts : UrlParts) : Prop where
  query : ∀ letter ∈ parts.query.head?, letter = '?'
  fragment : ∀ letter ∈ parts.fragment.head?, letter = '#'

theorem head_pathText (segments : List Text) :
    ∀ letter ∈ (pathText segments).head?, letter = '/' := by
  intro letter letterMem
  cases segments with
  | nil => exact absurd letterMem (by simp [pathText])
  | cons segment segments => exact (Option.some.inj letterMem).symm

theorem replaceNames_pathText (segments : List Text) :
    replaceNames (pathText segments) = pathText (segments.map replaceNames) := by
  induction segments with
  | nil => rfl
  | cons segment segments ih =>
      have outside : StartsOutside (pathText segments) :=
        startsOutside_of_head (by decide) (head_pathText segments)
      have slash : pathText (segment :: segments) = '/' :: (segment ++ pathText segments) := rfl
      rw [slash, replaceNames_letter (by simp), replaceNames_append outside, ih]
      rfl

theorem replaceNames_parts {parts : UrlParts} (isMarked : parts.IsMarked) :
    replaceNames parts.text =
      replaceNames parts.origin ++ pathText (parts.segments.map replaceNames) ++
        replaceNames parts.query ++ replaceNames parts.fragment := by
  have query : StartsOutside parts.query := startsOutside_of_head (by decide) isMarked.query
  have fragment : StartsOutside parts.fragment :=
    startsOutside_of_head (by decide) isMarked.fragment
  have path : StartsOutside (pathText parts.segments) :=
    startsOutside_of_head (by decide) (head_pathText parts.segments)
  unfold UrlParts.text
  rw [replaceNames_append fragment, replaceNames_append query, replaceNames_append path,
    replaceNames_pathText]

theorem pathText_expected_length_le (segments : List Text) :
    (pathText (segments.map expectedSegment)).length ≤
        (pathText (segments.map replaceNames)).length ∧
      ((pathText (segments.map replaceNames)).length =
          (pathText (segments.map expectedSegment)).length →
        ∀ segment ∈ segments, SegmentKept segment) := by
  induction segments with
  | nil => simp
  | cons segment segments ih =>
      have first := expectedSegment_length_le segment
      simp only [pathText, List.map_cons, List.flatMap_cons, List.length_append,
        List.length_cons] at ih ⊢
      refine ⟨by omega, fun same => List.forall_mem_cons.mpr ⟨first.2 (by omega), ih.2 (by omega)⟩⟩

/-- Replacing names does what is expected exactly if they are whole segments. -/
theorem replaceNames_parts_iff {parts : UrlParts} (isMarked : parts.IsMarked) :
    replaceNames parts.text =
        { parts with segments := parts.segments.map expectedSegment }.text ↔
      NamesKept parts := by
  rw [replaceNames_parts isMarked]
  constructor
  · intro same
    have sameLength := congrArg List.length same
    have origin := replaceNames_length parts.origin
    have query := replaceNames_length parts.query
    have fragment := replaceNames_length parts.fragment
    have path := pathText_expected_length_le parts.segments
    simp only [UrlParts.text, List.length_append] at sameLength
    refine ⟨fun hasName => ?_, path.2 (by omega), fun hasName => ?_, fun hasName => ?_⟩
    · have longer := origin.2 hasName
      omega
    · have longer := query.2 hasName
      omega
    · have longer := fragment.2 hasName
      omega
  · intro kept
    have segments : parts.segments.map replaceNames = parts.segments.map expectedSegment :=
      List.map_congr_left fun segment segmentMem =>
        replaceNames_segment (kept.segments segment segmentMem)
    rw [segments, replaceNames_of_not_hasName kept.origin, replaceNames_of_not_hasName kept.query,
      replaceNames_of_not_hasName kept.fragment]
    rfl

theorem plainLength_pathText (segments : List Text) :
    plainLength (pathText segments) =
      (segments.map fun segment => 1 + plainLength segment).sum := by
  induction segments with
  | nil => rfl
  | cons segment segments ih =>
      have slash : pathText (segment :: segments) = ['/'] ++ segment ++ pathText segments := rfl
      have one : plainLength ['/'] = 1 := by decide
      rw [slash, plainLength_append, plainLength_append, one, ih, List.map_cons, List.sum_cons]

theorem plainLength_expected (parts : UrlParts) :
    plainLength { parts with segments := parts.segments.map expectedSegment }.text =
      plainLength parts.text := by
  simp only [UrlParts.text, plainLength_append, plainLength_pathText, List.map_map,
    Function.comp_def, plainLength_expectedSegment]

/-! ## Texts -/

theorem pathText_splitOn (path : Text) : pathText (path.splitOn '/') = '/' :: path := by
  have joins := @List.intercalate_splitOn _ path _ _ '/'
  cases isSplit : path.splitOn '/' with
  | nil => exact absurd isSplit (List.splitOn_ne_nil '/' path)
  | cons segment segments =>
      rw [isSplit, Library.intercalate_cons] at joins
      change '/' :: (segment ++ pathText segments) = '/' :: path
      rw [← joins]
      rfl

theorem pathText_segmentsOf {path : Text} (slash : ∀ letter ∈ path.head?, letter = '/') :
    pathText (segmentsOf path) = path := by
  cases path with
  | nil => rfl
  | cons letter rest =>
      have isSlash := slash letter rfl
      rw [segmentsOf, if_neg (by simp), List.tail_cons, pathText_splitOn, isSlash]

theorem head_dropWhile {mark : Char} {text : Text} :
    ∀ letter ∈ (text.dropWhile fun letter => letter ≠ mark).head?, letter = mark := by
  intro letter letterMem
  have notDropped := List.head?_dropWhile_not (fun letter => decide (letter ≠ mark)) text
  rw [letterMem] at notDropped
  simpa using notDropped

/-- The text in front of the query and the fragment. -/
def baseOf (url : Text) : Text :=
  (partsOfText url).origin ++ pathText (partsOfText url).segments

section Parts

variable (url : Text)

theorem baseOf_eq :
    baseOf url =
      (url.takeWhile fun letter => letter ≠ '#').takeWhile fun letter => letter ≠ '?' := by
  unfold baseOf partsOfText
  dsimp only
  rw [pathText_segmentsOf head_dropWhile, List.append_assoc, List.takeWhile_append_dropWhile,
    List.take_append_drop]

theorem partsOfText_text : (partsOfText url).text = url := by
  have base := baseOf_eq url
  unfold baseOf at base
  rw [UrlParts.text, base]
  unfold partsOfText
  dsimp only
  rw [List.takeWhile_append_dropWhile, List.takeWhile_append_dropWhile]

theorem partsOfText_isMarked : (partsOfText url).IsMarked :=
  ⟨head_dropWhile, head_dropWhile⟩

theorem stripQuery_eq :
    stripQuery url = baseOf url ++
      if (partsOfText url).query = [] then stripQuery (partsOfText url).fragment else [] := by
  have noMark : ∀ letter ∈ baseOf url, decide (letter ≠ '?') = true := by
    intro letter letterMem
    rw [baseOf_eq] at letterMem
    exact @List.mem_takeWhile_imp _ (fun letter => decide (letter ≠ '?')) _ _ letterMem
  have isText := partsOfText_text url
  rw [UrlParts.text, ← baseOf, List.append_assoc] at isText
  have stripped : stripQuery url =
      baseOf url ++ stripQuery ((partsOfText url).query ++ (partsOfText url).fragment) := by
    conv_lhs => rw [← isText]
    exact List.takeWhile_append_of_pos noMark
  rw [stripped]
  congr 1
  cases isQuery : (partsOfText url).query with
  | nil => rfl
  | cons letter rest =>
      have isMark := (partsOfText_isMarked url).query letter (by rw [isQuery]; rfl)
      rw [if_neg (by simp), isMark]
      exact List.takeWhile_cons_of_neg (by simp)

end Parts

theorem stripQuery_of_notMem {text : Text} (noMark : '?' ∉ text) : stripQuery text = text := by
  apply List.takeWhile_eq_self_iff.mpr
  intro letter letterMem
  exact decide_eq_true fun isMark => noMark (isMark ▸ letterMem)

theorem plainLength_stripQuery (text : Text) :
    plainLength (stripQuery text) ≤ plainLength text ∧
      ('?' ∈ text → plainLength (stripQuery text) < plainLength text) := by
  have parts := congrArg plainLength
    (List.takeWhile_append_dropWhile (l := text) (p := fun letter => decide (letter ≠ '?')))
  rw [plainLength_append] at parts
  change plainLength (stripQuery text) + _ = _ at parts
  refine ⟨by omega, fun markMem => ?_⟩
  have dropped : '?' ∈ text.dropWhile fun letter => decide (letter ≠ '?') := by
    rw [← List.takeWhile_append_dropWhile (l := text) (p := fun letter => decide (letter ≠ '?')),
      List.mem_append] at markMem
    rcases markMem with taken | dropped
    · have isOther := @List.mem_takeWhile_imp _ (fun letter => decide (letter ≠ '?')) _ _ taken
      exact absurd isOther (by simp)
    · exact dropped
  have positive := plainLength_pos_of_mem dropped (by decide)
  omega

/-- What stays of a text is all of it, or it has fewer plain letters. -/
theorem stripQuery_parts (url : Text) :
    let kept : UrlParts := { partsOfText url with query := [] }
    (QueryIsLast (partsOfText url) → stripQuery url = kept.text) ∧
      (¬ QueryIsLast (partsOfText url) →
        plainLength (stripQuery url) < plainLength kept.text) := by
  intro kept
  have keptText : kept.text = baseOf url ++ (partsOfText url).fragment := by
    simp [kept, UrlParts.text, baseOf]
  rw [keptText, stripQuery_eq]
  constructor
  · intro isLast
    rw [stripQuery_of_notMem isLast.fragment]
    split
    case isTrue => rfl
    case isFalse hasQuery => rw [isLast.alone.resolve_left hasQuery]
  · intro notLast
    rw [plainLength_append, plainLength_append]
    have fragment : (partsOfText url).fragment ≠ [] →
        0 < plainLength (partsOfText url).fragment := by
      intro notEmpty
      cases isFragment : (partsOfText url).fragment with
      | nil => exact absurd isFragment notEmpty
      | cons letter rest =>
          have isMark := (partsOfText_isMarked url).fragment letter (by rw [isFragment]; rfl)
          exact plainLength_pos_of_mem List.mem_cons_self (by rw [isMark]; decide)
    split
    case isTrue noQuery =>
      have markMem : '?' ∈ (partsOfText url).fragment := by
        by_contra noMark
        exact notLast ⟨Or.inl noQuery, noMark⟩
      have shorter := (plainLength_stripQuery (partsOfText url).fragment).2 markMem
      omega
    case isFalse =>
      have notEmpty : (partsOfText url).fragment ≠ [] := by
        intro isEmpty
        exact notLast ⟨Or.inr isEmpty, by simp [isEmpty]⟩
      have positive := fragment notEmpty
      have empty : plainLength [] = 0 := rfl
      omega

/-! ## Fields -/

theorem marked_eq_nil_or (mark : Char) (text : String) :
    marked mark text = [] ∨ 0 < plainLength (marked mark text) := by
  unfold marked
  split
  case isTrue plain =>
    rcases List.any_eq_true.mp plain with ⟨letter, letterMem, isPlain⟩
    exact Or.inr (plainLength_pos_of_mem (List.mem_cons_of_mem mark letterMem) isPlain)
  case isFalse => exact Or.inl rfl

theorem spelledOut_eq_nil_or (text : Text) :
    spelledOut text = [] ∨ 0 < plainLength (spelledOut text) := by
  unfold spelledOut
  split
  case isTrue plain =>
    rcases List.any_eq_true.mp plain with ⟨letter, letterMem, isPlain⟩
    exact Or.inr (plainLength_pos_of_mem letterMem isPlain)
  case isFalse => exact Or.inl rfl

theorem segmentText_eq_or (item : Json) :
    segmentText item = readSegment item ∨
      plainLength (readSegment item) < plainLength (segmentText item) := by
  cases item with
  | str text => exact Or.inl rfl
  | _ => exact spelledOut_eq_nil_or _

theorem plainLength_items (items : List Json) :
    plainLength (pathText (items.map readSegment)) ≤
        plainLength (pathText (items.map segmentText)) ∧
      ((∃ item ∈ items, segmentText item ≠ readSegment item) →
        plainLength (pathText (items.map readSegment)) <
          plainLength (pathText (items.map segmentText))) := by
  induction items with
  | nil => simp
  | cons item items ih =>
      simp only [plainLength_pathText, List.map_cons, List.sum_cons] at ih ⊢
      rcases segmentText_eq_or item with same | longer
      · rw [same]
        refine ⟨by omega, ?_⟩
        rintro ⟨other, otherMem, different⟩
        rcases List.mem_cons.mp otherMem with rfl | inRest
        · exact absurd same different
        · have shorter := ih.2 ⟨other, inRest, different⟩
          omega
      · exact ⟨by omega, fun _ => by omega⟩

/-- The path of a URL that is put together. -/
def readPath (path : Option Json) : Text :=
  if joined "/" path = "" then [] else '/' :: (joined "/" path).toList

theorem readPath_items {items : List Json}
    (notEmpty : items ≠ [] → joined "/" (some (.arr items)) ≠ "") :
    readPath (some (.arr items)) = pathText (items.map readSegment) := by
  cases items with
  | nil => rfl
  | cons item items =>
      have isPath : (joined "/" (some (.arr (item :: items)))).toList =
          List.intercalate ['/'] ((item :: items).map readSegment) := by
        simp only [joined, String.toList_intercalate, List.map_map]
        rfl
      rw [readPath, if_neg (notEmpty (by simp)), isPath, List.map_cons, Library.intercalate_cons]
      rfl

theorem readPath_text (path : String) :
    readPath (some (.str path)) = pathText (pathSegments (some (.str path))) := by
  by_cases isEmpty : path = ""
  · subst isEmpty
    rfl
  · have isRead : readPath (some (.str path)) = '/' :: path.toList := if_neg isEmpty
    have isSplit : pathSegments (some (.str path)) = path.toList.splitOn '/' := by
      unfold pathSegments
      split
      case h_1 isArray => exact absurd isArray (by simp)
      case h_2 isBlank => exact absurd (by simpa using isBlank) isEmpty
      case h_3 other isText =>
          rw [Option.some.injEq, Json.str.injEq] at isText
          rw [isText]
      case h_4 notText => exact absurd rfl (notText path)
    rw [isRead, isSplit, pathText_splitOn]

theorem readPath_of_isRead {path : Option Json} (isRead : PathIsRead path) :
    readPath path = pathText (pathSegments path) := by
  cases path with
  | none => rfl
  | some path =>
      cases path with
      | arr items =>
          rw [readPath_items (isRead items rfl).2]
          exact congrArg pathText
            (List.map_congr_left fun item itemMem => ((isRead items rfl).1 item itemMem).symm)
      | str path => exact readPath_text path
      | _ => rfl

/-- A path that is not read has fewer plain letters than it should have. -/
theorem plainLength_readPath (path : Option Json) :
    plainLength (readPath path) ≤ plainLength (pathText (pathSegments path)) ∧
      (¬ PathIsRead path →
        plainLength (readPath path) < plainLength (pathText (pathSegments path))) := by
  by_cases isArray : ∃ items, path = some (.arr items)
  · rcases isArray with ⟨items, rfl⟩
    have lengths := plainLength_items items
    by_cases isBlank : items ≠ [] ∧ joined "/" (some (.arr items)) = ""
    · have nothing : plainLength (readPath (some (.arr items))) = 0 := by
        rw [readPath, if_pos isBlank.2]
        rfl
      have positive : 0 < plainLength (pathText (pathSegments (some (.arr items)))) := by
        cases items with
        | nil => exact absurd rfl isBlank.1
        | cons item items => exact plainLength_pos_of_mem List.mem_cons_self (by decide)
      exact ⟨by omega, fun _ => by omega⟩
    · have notBlank : items ≠ [] → joined "/" (some (.arr items)) ≠ "" :=
        fun hasItems isEmpty => isBlank ⟨hasItems, isEmpty⟩
      rw [readPath_items notBlank]
      refine ⟨lengths.1, fun notRead => lengths.2 ?_⟩
      by_contra same
      apply notRead
      intro others isItems
      rw [Option.some.injEq, Json.arr.injEq] at isItems
      subst isItems
      refine ⟨fun item itemMem => ?_, notBlank⟩
      by_contra different
      exact same ⟨item, itemMem, different⟩
  · have isRead : PathIsRead path := fun items isItems => absurd ⟨items, isItems⟩ isArray
    rw [readPath_of_isRead isRead]
    exact ⟨le_rfl, fun notRead => absurd isRead notRead⟩

/-- The text of a URL that is put together. -/
def readFields (url : Json) : Text :=
  (asStringOr "https" (url.get? "protocol") ++ "://" ++ joined "." (url.get? "host")).toList ++
    readPath (url.get? "path")

theorem partsOfFields_text {url : Json} (isRead : FieldsAreRead url) :
    (partsOfFields url).text = readFields url := by
  simp only [UrlParts.text, partsOfFields, isRead.port, isRead.hash, List.append_nil, readFields,
    readPath_of_isRead isRead.path]

theorem plainLength_readFields (url : Json) :
    plainLength (readFields url) ≤ plainLength (partsOfFields url).text ∧
      (¬ FieldsAreRead url →
        plainLength (readFields url) < plainLength (partsOfFields url).text) := by
  have path := plainLength_readPath (url.get? "path")
  simp only [UrlParts.text, partsOfFields, readFields, plainLength_append]
  refine ⟨by omega, fun notRead => ?_⟩
  rcases marked_eq_nil_or ':' (url.text "port") with noPort | port
  · rcases marked_eq_nil_or '#' (url.text "hash") with noHash | hash
    · have shorter := path.2 fun isRead => notRead ⟨noPort, noHash, isRead⟩
      omega
    · omega
  · omega

/-! ## URLs -/

/-- The text whose names are replaced. -/
def readText (value : Option Json) : Text :=
  if splitsQuery value then stripQuery (postmanUrl value).toList else (postmanUrl value).toList

theorem sourceParts_isMarked (value : Option Json) : (sourceParts value).IsMarked := by
  have noMarks : ∀ origin segments, (⟨origin, segments, [], []⟩ : UrlParts).IsMarked :=
    fun origin segments => ⟨by simp, by simp⟩
  unfold sourceParts
  split
  case h_1 => exact partsOfText_isMarked _
  case h_2 =>
      split
      case h_1 => exact noMarks [] []
      case h_2 url _ =>
          split
          case h_1 => exact partsOfText_isMarked _
          case h_2 =>
              refine ⟨by simp [partsOfFields], fun letter letterMem => ?_⟩
              simp only [partsOfFields, marked] at letterMem
              split at letterMem
              case isTrue => exact (Option.some.inj letterMem).symm
              case isFalse => exact absurd letterMem (by simp)

theorem keptParts_isMarked (value : Option Json) : (keptParts value).IsMarked := by
  have isMarked := sourceParts_isMarked value
  unfold keptParts
  split
  case isTrue => exact ⟨by simp, isMarked.fragment⟩
  case isFalse => exact isMarked

/-- The text is all that stays of a URL, or it has fewer plain letters. -/
def ReadsAs (value : Option Json) (isWhole : Prop) : Prop :=
  (isWhole → readText value = (keptParts value).text) ∧
    (¬ isWhole → plainLength (readText value) < plainLength (keptParts value).text)

theorem readsAs_raw {value : Option Json} {raw : String} (isUrl : postmanUrl value = raw)
    (isSource : sourceParts value = partsOfText raw.toList) :
    ReadsAs value (splitsQuery value = true → QueryIsLast (partsOfText raw.toList)) := by
  unfold ReadsAs readText keptParts
  rw [isUrl, isSource]
  cases splitsQuery value with
  | true =>
      rcases stripQuery_parts raw.toList with ⟨whole, shorter⟩
      exact ⟨fun isLast => whole (isLast rfl),
        fun notLast => shorter fun isLast => notLast fun _ => isLast⟩
  | false =>
      refine ⟨fun _ => (partsOfText_text raw.toList).symm, fun notLast => absurd ?_ notLast⟩
      exact fun splits => absurd splits (by simp)

theorem readsAs_fields {value : Option Json} {url : Json}
    (isUrl : (postmanUrl value).toList = readFields url)
    (isSource : sourceParts value = partsOfFields url) :
    ReadsAs value (FieldsAreRead url ∧
      (splitsQuery value = true → '?' ∉ (postmanUrl value).toList)) := by
  have isKept : keptParts value = partsOfFields url := by
    unfold keptParts
    rw [isSource]
    split <;> rfl
  have fields := plainLength_readFields url
  unfold ReadsAs readText
  rw [isKept, isUrl]
  cases splitsQuery value with
  | true =>
      have stripped := plainLength_stripQuery (readFields url)
      rw [if_pos rfl]
      constructor
      · rintro ⟨areRead, noMark⟩
        rw [stripQuery_of_notMem (noMark rfl), partsOfFields_text areRead]
      · intro notRead
        by_cases areRead : FieldsAreRead url
        · have markMem : '?' ∈ readFields url := by
            by_contra noMark
            exact notRead ⟨areRead, fun _ => noMark⟩
          have shorter := stripped.2 markMem
          omega
        · have shorter := fields.2 areRead
          omega
  | false =>
      rw [if_neg (by simp)]
      refine ⟨fun areRead => (partsOfFields_text areRead.1).symm, fun notRead => fields.2 ?_⟩
      exact fun areRead => notRead ⟨areRead, fun splits => absurd splits (by simp)⟩

theorem readText_nothing {value : Option Json} (noRecord : asRecord value = none)
    (notText : ∀ url, value ≠ some (.str url)) : ReadsAs value (IsReadWhole value) := by
  have isWhole : IsReadWhole value := by
    unfold IsReadWhole
    split
    case h_1 => trivial
    case h_2 => rw [noRecord]; trivial
  have noSplit : splitsQuery value = false := by
    rw [splitsQuery, noRecord]
    rfl
  have isUrl : postmanUrl value = "" := by
    unfold postmanUrl
    split
    case h_1 url => exact absurd rfl (notText url)
    case h_2 => rw [noRecord]
  have isSource : sourceParts value = ⟨[], [], [], []⟩ := by
    unfold sourceParts
    split
    case h_1 url => exact absurd rfl (notText url)
    case h_2 => rw [noRecord]
  refine ⟨fun _ => ?_, fun notWhole => absurd isWhole notWhole⟩
  rw [readText, keptParts, noSplit, isUrl, isSource]
  rfl

theorem readText_record (members : List (String × Json)) :
    ReadsAs (some (.obj members)) (IsReadWhole (some (.obj members))) := by
  by_cases hasRaw : ∃ raw, (Json.obj members).get? "raw" = some (.str raw)
  · rcases hasRaw with ⟨raw, isRaw⟩
    have isUrl : postmanUrl (some (.obj members)) = raw := by
      simp only [postmanUrl, asRecord, Option.filter_some, Json.isObject, if_true, isRaw]
    have isSource : sourceParts (some (.obj members)) = partsOfText raw.toList := by
      simp only [sourceParts, asRecord, Option.filter_some, Json.isObject, if_true, isRaw]
    simpa only [IsReadWhole, asRecord, Option.filter_some, Json.isObject, if_true, isRaw]
      using readsAs_raw isUrl isSource
  · have isUrl : (postmanUrl (some (.obj members))).toList = readFields (.obj members) := by
      simp only [postmanUrl, asRecord, Option.filter_some, Json.isObject, if_true]
      split
      case h_1 raw isRaw => exact absurd ⟨raw, isRaw⟩ hasRaw
      case h_2 =>
          rw [String.toList_append, readFields, readPath]
          congr 1
          split
          case isTrue => rfl
          case isFalse => exact String.toList_append
    have isSource : sourceParts (some (.obj members)) = partsOfFields (.obj members) := by
      simp only [sourceParts, asRecord, Option.filter_some, Json.isObject, if_true]
      split
      case h_1 raw isRaw => exact absurd ⟨raw, isRaw⟩ hasRaw
      case h_2 => rfl
    have isWhole : IsReadWhole (some (.obj members)) ↔ FieldsAreRead (.obj members) ∧
        (splitsQuery (some (.obj members)) = true →
          '?' ∉ (postmanUrl (some (.obj members))).toList) := by
      simp only [IsReadWhole, asRecord, Option.filter_some, Json.isObject, if_true]
      split
      case h_1 raw isRaw => exact absurd ⟨raw, isRaw⟩ hasRaw
      case h_2 => exact Iff.rfl
    rw [isWhole]
    exact readsAs_fields isUrl isSource

theorem readText_text (value : Option Json) : ReadsAs value (IsReadWhole value) := by
  cases value with
  | none => exact readText_nothing rfl (by simp)
  | some value =>
      cases value with
      | str url =>
          have noSplit : splitsQuery (some (.str url)) = false := rfl
          have reads := @readsAs_raw (some (.str url)) url rfl rfl
          rw [noSplit] at reads
          exact ⟨fun _ => reads.1 (by simp), fun notWhole => absurd trivial notWhole⟩
      | obj members => exact readText_record members
      | _ => exact readText_nothing rfl (by simp)

theorem importedUrl_eq_iff (value : Option Json) :
    importedUrl value = expectedUrl value ↔ UrlKept value := by
  have reads := readText_text value
  have replaced := replaceNames_parts_iff (keptParts_isMarked value)
  change replaceNames (readText value) = _ ↔ _
  constructor
  · intro same
    have samePlain := congrArg plainLength same
    rw [plainLength_replaceNames, expectedUrl, plainLength_expected] at samePlain
    have isWhole : IsReadWhole value := by
      by_contra notWhole
      have shorter := reads.2 notWhole
      omega
    rw [reads.1 isWhole] at same
    exact ⟨isWhole, replaced.mp same⟩
  · intro kept
    rw [reads.1 kept.isReadWhole]
    exact replaced.mpr kept.names

end Brunomnia.Postman
