import Brunomnia.Library.Trimming
import Brunomnia.Multipart.Boundary

/-!
# Routes of the mock server

A route matches a path segment by segment, and a segment of the path is decoded once. So the
parameters of a route come back from a path in which they have been encoded, however that was done.
-/

namespace Brunomnia.MockServer

open Codegen (Text)
open Library
open Multipart (fromUtf8 utf8)

/-! ## Matching -/

def hexValue (byte : UInt8) : Option UInt8 :=
  if 48 ≤ byte ∧ byte ≤ 57 then some (byte - 48)
  else if 97 ≤ byte ∧ byte ≤ 102 then some (byte - 97 + 10)
  else if 65 ≤ byte ∧ byte ≤ 70 then some (byte - 65 + 10)
  else none

/-- The loop over the bytes of a segment. -/
def percentDecodeBytes : List UInt8 → List UInt8
  | first :: second :: third :: rest =>
      if first = 37 then
        match hexValue second, hexValue third with
        | some high, some low => (high * 16 + low) :: percentDecodeBytes rest
        | _, _ => first :: percentDecodeBytes (second :: third :: rest)
      else first :: percentDecodeBytes (second :: third :: rest)
  | first :: rest => first :: percentDecodeBytes rest
  | [] => []

def percentDecodePathSegment (segment : Text) : Text :=
  if '%' ∉ segment then segment
  else (fromUtf8 (percentDecodeBytes (utf8 segment))).getD segment

/-- The segments of a path, without slashes around it. -/
def pathParts (path : Text) : List Text :=
  (trimMatches (· = '/') path).splitOn '/'

def isBrace (letter : Char) : Bool :=
  letter ∈ ['{', '}']

abbrev Parameters := Text → Option Text

/-- The loop over the segments. -/
def matchParts : List (Text × Text) → Parameters → Option Parameters
  | [], parameters => some parameters
  | (expected, received) :: parts, parameters =>
      let decoded := percentDecodePathSegment received
      if expected.head? = some '{' ∧ expected.getLast? = some '}' then
        matchParts parts (Function.update parameters (trimMatches isBrace expected) (some decoded))
      else if expected ≠ received ∧ expected ≠ decoded then none
      else matchParts parts parameters

def matchPath (pattern actual : Text) : Option Parameters :=
  if (pathParts pattern).length ≠ (pathParts actual).length then none
  else matchParts ((pathParts pattern).zip (pathParts actual)) fun _ => none

/-! ## Patterns -/

/-- A segment of a pattern: a literal, or a parameter by its name. -/
inductive PatternSegment where
  | literal (text : Text)
  | parameter (name : Text)
  deriving DecidableEq

def PatternSegment.text : PatternSegment → Text
  | literal text => text
  | parameter name => '{' :: (name ++ ['}'])

/-- A literal has no braces, and the name of a parameter does not begin or end with one. -/
def PatternSegment.Plain : PatternSegment → Prop
  | literal text => '/' ∉ text ∧ ∀ letter ∈ text, isBrace letter = false
  | parameter name => '/' ∉ name ∧ trimMatches isBrace name = name

def PatternSegment.name? : PatternSegment → Option Text
  | literal _ => none
  | parameter name => some name

/-- A route: segments in which every name occurs once. -/
structure RoutePattern where
  segments : List PatternSegment
  plain : ∀ segment ∈ segments, segment.Plain
  distinct : (segments.filterMap PatternSegment.name?).Nodup

def RoutePattern.text (pattern : RoutePattern) : Text :=
  List.intercalate ['/'] (pattern.segments.map PatternSegment.text)

/-- Bytes of which some are percent-encoded, in upper or lower case. -/
inductive PercentEncodes : List UInt8 → List UInt8 → Prop where
  | nil : PercentEncodes [] []
  | plain {byte : UInt8} {encoded bytes : List UInt8} (noPercent : byte ≠ 37) (noSlash : byte ≠ 47)
      (rest : PercentEncodes encoded bytes) : PercentEncodes (byte :: encoded) (byte :: bytes)
  | triplet {second third high low : UInt8} {encoded bytes : List UInt8}
      (isHigh : hexValue second = some high) (isLow : hexValue third = some low)
      (rest : PercentEncodes encoded bytes) :
      PercentEncodes (37 :: second :: third :: encoded) ((high * 16 + low) :: bytes)

/-- What stands for a segment in a path: a literal for itself, a value encoded for its name. -/
def StandsFor (values : Text → Text) : PatternSegment → Text → Prop
  | .literal text, received => received = text
  | .parameter name, received => PercentEncodes (utf8 received) (utf8 (values name))

/-- The values of the names that a pattern has. -/
def RoutePattern.parameters (pattern : RoutePattern) (values : Text → Text) : Parameters :=
  fun name => if .parameter name ∈ pattern.segments then some (values name) else none

/-- The segments that are left when slashes are trimmed. -/
def RoutePattern.trimmed (pattern : RoutePattern) : List PatternSegment :=
  let segments := trimMatches (· = .literal []) pattern.segments
  if segments = [] then [.literal []] else segments

/-- A segment of a path that a segment of a pattern has matched. -/
def Matched (parameters : Parameters) : PatternSegment → Text → Prop
  | .literal text, received => text = received ∨ text = percentDecodePathSegment received
  | .parameter name, received =>
      parameters name = some ((fromUtf8 (percentDecodeBytes (utf8 received))).getD received)

/-! ## Decoding -/

attribute [local simp] percentDecodeBytes

theorem percentDecodeBytes_plain {byte : UInt8} (noPercent : byte ≠ 37) (bytes : List UInt8) :
    percentDecodeBytes (byte :: bytes) = byte :: percentDecodeBytes bytes := by
  match bytes with
  | [] => rfl
  | [_] => rfl
  | second :: third :: rest => rw [percentDecodeBytes, if_neg noPercent]

theorem PercentEncodes.decode {encoded bytes : List UInt8}
    (encodes : PercentEncodes encoded bytes) : percentDecodeBytes encoded = bytes := by
  induction encodes with
  | nil => rfl
  | plain noPercent noSlash rest ih => rw [percentDecodeBytes_plain noPercent, ih]
  | triplet isHigh isLow rest ih => simp [isHigh, isLow, ih]

theorem percentDecodeBytes_of_notMem {bytes : List UInt8} (notMem : 37 ∉ bytes) :
    percentDecodeBytes bytes = bytes := by
  induction bytes with
  | nil => rfl
  | cons byte bytes ih =>
      rw [List.mem_cons, not_or] at notMem
      rw [percentDecodeBytes_plain (Ne.symm notMem.1), ih notMem.2]

/-- Only ASCII characters have bytes below 128. -/
theorem toNat_eq_of_mem_utf8EncodeChar {letter : Char} {byte : UInt8} (ascii : byte.toNat < 128)
    (byteMem : byte ∈ String.utf8EncodeChar letter) : letter.toNat = byte.toNat := by
  have small : ∀ number < 256, byte = UInt8.ofNat number → byte.toNat = number := by
    rintro number bound rfl
    exact Nat.mod_eq_of_lt bound
  simp only [String.utf8EncodeChar] at byteMem
  split at byteMem
  case isTrue one =>
    have same := small _ (by omega) (List.mem_singleton.mp byteMem)
    exact same.symm
  case isFalse =>
  have wide : ∀ number, 128 ≤ number → number < 256 → byte ≠ UInt8.ofNat number := by
    intro number lower upper same
    have number_eq := small number upper same
    omega
  split at byteMem
  case isTrue two =>
    simp only [List.mem_cons, List.not_mem_nil, or_false] at byteMem
    rcases byteMem with same | same
    · exact absurd same (wide _ (by omega) (by omega))
    · exact absurd same (wide _ (by omega) (by omega))
  case isFalse =>
  split at byteMem
  case isTrue three =>
    simp only [List.mem_cons, List.not_mem_nil, or_false] at byteMem
    rcases byteMem with same | same | same
    · exact absurd same (wide _ (by omega) (by omega))
    · exact absurd same (wide _ (by omega) (by omega))
    · exact absurd same (wide _ (by omega) (by omega))
  case isFalse =>
    simp only [List.mem_cons, List.not_mem_nil, or_false] at byteMem
    rcases byteMem with same | same | same | same
    · exact absurd same (wide _ (by omega) (by omega))
    · exact absurd same (wide _ (by omega) (by omega))
    · exact absurd same (wide _ (by omega) (by omega))
    · exact absurd same (wide _ (by omega) (by omega))

theorem mem_utf8_iff {text : Text} {letter : Char} (ascii : letter.toNat < 128) :
    letter.toNat.toUInt8 ∈ utf8 text ↔ letter ∈ text := by
  have byteEq : letter.toNat.toUInt8.toNat = letter.toNat := Nat.mod_eq_of_lt (by omega)
  unfold utf8
  rw [List.mem_flatMap]
  constructor
  · rintro ⟨other, otherMem, byteMem⟩
    have same := toNat_eq_of_mem_utf8EncodeChar (by omega) byteMem
    rw [byteEq] at same
    have otherEq : other = letter := Char.toNat_inj.mp same
    rwa [otherEq] at otherMem
  · intro letterMem
    refine ⟨letter, letterMem, ?_⟩
    have short : letter.val.toNat ≤ 127 := by
      have value : letter.toNat = letter.val.toNat := rfl
      omega
    simp only [String.utf8EncodeChar]
    rw [if_pos short, List.mem_singleton]
    rfl

theorem percentDecodePathSegment_eq (segment : Text) :
    percentDecodePathSegment segment =
      (fromUtf8 (percentDecodeBytes (utf8 segment))).getD segment := by
  unfold percentDecodePathSegment
  split
  case isTrue noPercent =>
    have notMem : (37 : UInt8) ∉ utf8 segment := fun percentMem =>
      noPercent ((@mem_utf8_iff segment '%' (by decide)).mp percentMem)
    rw [percentDecodeBytes_of_notMem notMem, Multipart.fromUtf8_utf8, Option.getD_some]
  case isFalse => rfl

theorem percentDecodePathSegment_of_encodes {received value : Text}
    (encodes : PercentEncodes (utf8 received) (utf8 value)) :
    percentDecodePathSegment received = value := by
  rw [percentDecodePathSegment_eq, encodes.decode, Multipart.fromUtf8_utf8, Option.getD_some]

/-! ## Segments of a path -/

theorem hexValue_ne_slash {byte value : UInt8} (isHex : hexValue byte = some value) :
    byte ≠ 47 := by
  rintro rfl
  have noDigit : hexValue 47 = none := by decide
  rw [noDigit] at isHex
  cases isHex

theorem PercentEncodes.noSlash {encoded bytes : List UInt8}
    (encodes : PercentEncodes encoded bytes) : (47 : UInt8) ∉ encoded := by
  induction encodes with
  | nil => simp
  | plain noPercent noSlash rest ih => simp [ih, Ne.symm noSlash]
  | triplet isHigh isLow rest ih =>
      simp [ih, (hexValue_ne_slash isHigh).symm, (hexValue_ne_slash isLow).symm]

theorem StandsFor.noSlash {values : Text → Text} {segment : PatternSegment} {received : Text}
    (plain : segment.Plain) (stands : StandsFor values segment received) : '/' ∉ received := by
  cases segment with
  | literal text =>
      have same : received = text := stands
      rw [same]
      exact plain.1
  | parameter name =>
      have encodes : PercentEncodes (utf8 received) (utf8 (values name)) := stands
      intro slashMem
      exact encodes.noSlash ((@mem_utf8_iff received '/' (by decide)).mpr slashMem)

theorem PatternSegment.Plain.noSlash {segment : PatternSegment} (plain : segment.Plain) :
    '/' ∉ segment.text := by
  cases segment with
  | literal text => exact plain.1
  | parameter name => simp [PatternSegment.text, plain.1]

theorem isEmpty_text {segment : PatternSegment} :
    segment.text.isEmpty = decide (segment = .literal []) := by
  cases segment with
  | literal text => cases text <;> simp [PatternSegment.text]
  | parameter name => simp [PatternSegment.text]

theorem StandsFor.isEmpty {values : Text → Text} {segment : PatternSegment} {received : Text}
    (someValue : ∀ name, segment = .parameter name → values name ≠ [])
    (stands : StandsFor values segment received) :
    received.isEmpty = decide (segment = .literal []) := by
  cases segment with
  | literal text =>
      have same : received = text := stands
      rw [same]
      cases text <;> simp
  | parameter name =>
      have encodes : PercentEncodes (utf8 received) (utf8 (values name)) := stands
      have notEmpty : received ≠ [] := by
        rintro rfl
        have decoded := encodes.decode
        have sameValue : utf8 (values name) = utf8 [] := decoded.symm
        exact someValue name rfl (Multipart.utf8_injective sameValue)
      simp [notEmpty]

theorem pathParts_text (pattern : RoutePattern) :
    pathParts pattern.text = pattern.trimmed.map PatternSegment.text := by
  have apart : ∀ piece ∈ pattern.segments.map PatternSegment.text, '/' ∉ piece := by
    intro piece pieceMem
    rcases List.mem_map.mp pieceMem with ⟨segment, segmentMem, rfl⟩
    exact (pattern.plain segment segmentMem).noSlash
  have pieces : trimPieces (pattern.segments.map PatternSegment.text) =
      (trimMatches (· = .literal []) pattern.segments).map PatternSegment.text := by
    rw [trimPieces, trimMatches_map]
    congr 2
    funext segment
    exact isEmpty_text
  unfold pathParts RoutePattern.text
  rw [splitOn_trimMatches_intercalate apart, pieces]
  simp only [List.map_eq_nil_iff, RoutePattern.trimmed]
  split
  · rfl
  · rfl

/-- The parts of a path stand for the segments that are left. -/
theorem forall₂_pathParts {values : Text → Text} {pattern : RoutePattern} {received : List Text}
    (someValue : ∀ name, .parameter name ∈ pattern.segments → values name ≠ [])
    (stand : List.Forall₂ (StandsFor values) pattern.segments received) :
    List.Forall₂ (StandsFor values) pattern.trimmed
      (pathParts (List.intercalate ['/'] received)) := by
  have both := (List.forall₂_and_left pattern.segments received).mpr
    ⟨fun segment segmentMem => segmentMem, stand⟩
  have sameEmpty : ∀ segment part, segment ∈ pattern.segments ∧ StandsFor values segment part →
      decide (segment = .literal []) = part.isEmpty := by
    rintro segment part ⟨segmentMem, stands⟩
    refine (stands.isEmpty fun name isParameter => someValue name ?_).symm
    rwa [← isParameter]
  have apart : ∀ piece ∈ received, '/' ∉ piece := by
    intro piece pieceMem
    rcases List.forall₂_iff_get.mp stand with ⟨sameLength, atIndex⟩
    rcases List.mem_iff_getElem.mp pieceMem with ⟨index, bound, rfl⟩
    have stands := atIndex index (by omega) bound
    exact StandsFor.noSlash (pattern.plain _ (List.getElem_mem (by omega))) stands
  have trimmed := (forall₂_trimMatches sameEmpty both).imp fun _ _ related => related.2
  have sameLength := trimmed.length_eq
  unfold pathParts
  rw [splitOn_trimMatches_intercalate apart]
  by_cases noneLeft : trimMatches List.isEmpty received = []
  · rw [noneLeft, List.length_nil, List.length_eq_zero_iff] at sameLength
    have noSegments : pattern.trimmed = [.literal []] := if_pos sameLength
    rw [noSegments, trimPieces, if_pos noneLeft]
    exact .cons rfl .nil
  · have someSegments :
        ¬ trimMatches (fun segment => decide (segment = .literal [])) pattern.segments = [] := by
      intro noSegments
      rw [noSegments, List.length_nil, eq_comm, List.length_eq_zero_iff] at sameLength
      exact noneLeft sameLength
    have segments : pattern.trimmed = _ := if_neg someSegments
    rw [segments, trimPieces, if_neg noneLeft]
    exact trimmed

/-! ## Matching parts -/

section Parts

variable {values : Text → Text} {segment : PatternSegment} {segments : List PatternSegment}
  {received : List Text} {parameters result : Parameters} {part : Text}
  {parts : List (Text × Text)}

theorem matchParts_parameter {name : Text} (plain : (PatternSegment.parameter name).Plain) :
    matchParts (((PatternSegment.parameter name).text, part) :: parts) parameters =
      matchParts parts
        (Function.update parameters name (some (percentDecodePathSegment part))) := by
  have braces : (PatternSegment.parameter name).text.head? = some '{' ∧
      (PatternSegment.parameter name).text.getLast? = some '}' := by
    refine ⟨rfl, ?_⟩
    rw [PatternSegment.text, ← List.cons_append, List.getLast?_concat]
  have named : trimMatches isBrace (PatternSegment.parameter name).text = name := by
    rw [PatternSegment.text, trimMatches_between (by decide) (by decide)]
    exact plain.2
  rw [matchParts, if_pos braces, named]

theorem matchParts_literal {text : Text} (plain : (PatternSegment.literal text).Plain) :
    matchParts (((PatternSegment.literal text).text, part) :: parts) parameters =
      if text ≠ part ∧ text ≠ percentDecodePathSegment part then none
      else matchParts parts parameters := by
  have noBraces : ¬ ((PatternSegment.literal text).text.head? = some '{' ∧
      (PatternSegment.literal text).text.getLast? = some '}') := by
    rintro ⟨opens, _⟩
    have isBraceOpen := plain.2 '{' (List.mem_of_head? opens)
    revert isBraceOpen
    decide
  rw [matchParts, if_neg noBraces]
  rfl

theorem matchParts_of_standsFor (plain : ∀ segment ∈ segments, segment.Plain)
    (stand : List.Forall₂ (StandsFor values) segments received) :
    matchParts ((segments.map PatternSegment.text).zip received) parameters =
      some fun name => if .parameter name ∈ segments then some (values name)
        else parameters name := by
  induction stand generalizing parameters with
  | nil => simp [matchParts]
  | @cons segment part segments received stands rest ih =>
      rw [List.forall_mem_cons] at plain
      rw [List.map_cons, List.zip_cons_cons]
      cases segment with
      | literal text =>
          have same : part = text := stands
          rw [matchParts_literal plain.1, if_neg (by simp [same]), ih plain.2]
          simp
      | parameter name =>
          have decoded := percentDecodePathSegment_of_encodes stands
          rw [matchParts_parameter plain.1, decoded, ih plain.2]
          congr 1
          funext other
          by_cases same : other = name
          · subst same
            simp
          · simp [same]

theorem matchParts_of_ne {name : Text} (plain : ∀ segment ∈ segments, segment.Plain)
    (absent : name ∉ segments.filterMap PatternSegment.name?)
    (matched : matchParts ((segments.map PatternSegment.text).zip received) parameters =
      some result) :
    result name = parameters name := by
  induction segments generalizing received parameters with
  | nil =>
      cases matched
      rfl
  | cons segment segments ih =>
      cases received with
      | nil =>
          cases matched
          rfl
      | cons part received =>
          rw [List.forall_mem_cons] at plain
          rw [List.map_cons, List.zip_cons_cons] at matched
          cases segment with
          | literal text =>
              rw [matchParts_literal plain.1] at matched
              split at matched
              case isTrue => cases matched
              case isFalse => exact ih plain.2 absent matched
          | parameter other =>
              rw [matchParts_parameter plain.1] at matched
              change name ∉ other :: segments.filterMap PatternSegment.name? at absent
              rw [List.mem_cons, not_or] at absent
              rw [ih plain.2 absent.2 matched, Function.update_of_ne absent.1]

/-- What has been matched. -/
theorem forall₂_matched (plain : ∀ segment ∈ segments, segment.Plain)
    (distinct : (segments.filterMap PatternSegment.name?).Nodup)
    (sameLength : segments.length = received.length)
    (matched : matchParts ((segments.map PatternSegment.text).zip received) parameters =
      some result) :
    List.Forall₂ (Matched result) segments received := by
  induction segments generalizing received parameters with
  | nil =>
      rw [List.length_nil, eq_comm, List.length_eq_zero_iff] at sameLength
      rw [sameLength]
      exact .nil
  | cons segment segments ih =>
      cases received with
      | nil => cases sameLength
      | cons part received =>
          rw [List.forall_mem_cons] at plain
          rw [List.map_cons, List.zip_cons_cons] at matched
          rw [List.length_cons, List.length_cons, Nat.add_right_cancel_iff] at sameLength
          cases segment with
          | literal text =>
              rw [matchParts_literal plain.1] at matched
              split at matched
              case isTrue => cases matched
              case isFalse matches_ =>
                have isMatched : text = part ∨ text = percentDecodePathSegment part := by
                  by_contra neither
                  exact matches_ (not_or.mp neither)
                exact .cons isMatched (ih plain.2 distinct sameLength matched)
          | parameter name =>
              rw [matchParts_parameter plain.1] at matched
              change (name :: segments.filterMap PatternSegment.name?).Nodup at distinct
              rw [List.nodup_cons] at distinct
              have isDecoded : result name = some (percentDecodePathSegment part) := by
                rw [matchParts_of_ne plain.2 distinct.1 matched, Function.update_self]
              rw [percentDecodePathSegment_eq] at isDecoded
              exact .cons isDecoded (ih plain.2 distinct.2 sameLength matched)

end Parts

/-! ## Matching paths -/

theorem RoutePattern.trimmed_cases (pattern : RoutePattern) :
    (trimMatches (· = .literal []) pattern.segments = [] ∧ pattern.trimmed = [.literal []]) ∨
      pattern.trimmed = trimMatches (· = .literal []) pattern.segments := by
  by_cases noneLeft : trimMatches (· = .literal []) pattern.segments = []
  · exact .inl ⟨noneLeft, if_pos noneLeft⟩
  · exact .inr (if_neg noneLeft)

/-- Only empty literals are trimmed. -/
theorem parameter_mem_trimmed {pattern : RoutePattern} {name : Text} :
    .parameter name ∈ pattern.trimmed ↔ .parameter name ∈ pattern.segments := by
  have kept : decide (PatternSegment.parameter name = .literal []) = false := by simp
  have stays := @mem_trimMatches_iff _ (fun segment => decide (segment = .literal [])) _ kept
    pattern.segments
  rcases pattern.trimmed_cases with ⟨noneLeft, trimmed⟩ | trimmed
  · rw [noneLeft] at stays
    rw [trimmed, ← stays]
    simp
  · rw [trimmed]
    exact stays

theorem RoutePattern.trimmed_plain (pattern : RoutePattern) :
    ∀ segment ∈ pattern.trimmed, segment.Plain := by
  rcases pattern.trimmed_cases with ⟨_, trimmed⟩ | trimmed
  · rw [trimmed]
    simp [PatternSegment.Plain]
  · rw [trimmed]
    exact fun segment segmentMem => pattern.plain segment
      ((trimMatches_sublist _ _).subset segmentMem)

theorem RoutePattern.trimmed_distinct (pattern : RoutePattern) :
    (pattern.trimmed.filterMap PatternSegment.name?).Nodup := by
  rcases pattern.trimmed_cases with ⟨_, trimmed⟩ | trimmed
  · rw [trimmed]
    exact List.nodup_nil
  · rw [trimmed]
    exact pattern.distinct.sublist ((trimMatches_sublist _ _).filterMap _)

theorem matchPath_text (pattern : RoutePattern) (actual : Text) :
    matchPath pattern.text actual =
      if pattern.trimmed.length ≠ (pathParts actual).length then none
      else matchParts ((pattern.trimmed.map PatternSegment.text).zip (pathParts actual))
        fun _ => none := by
  rw [matchPath, pathParts_text, List.length_map]

theorem matchPath_of_standsFor {pattern : RoutePattern} {values : Text → Text}
    {received : List Text}
    (someValue : ∀ name, .parameter name ∈ pattern.segments → values name ≠ [])
    (stand : List.Forall₂ (StandsFor values) pattern.segments received) :
    matchPath pattern.text (List.intercalate ['/'] received) =
      some (pattern.parameters values) := by
  have trimmed := forall₂_pathParts someValue stand
  rw [matchPath_text, if_neg (not_not.mpr trimmed.length_eq),
    matchParts_of_standsFor pattern.trimmed_plain trimmed]
  congr 1
  funext name
  simp only [parameter_mem_trimmed, RoutePattern.parameters]

theorem name_mem_iff {segments : List PatternSegment} {name : Text} :
    name ∈ segments.filterMap PatternSegment.name? ↔ .parameter name ∈ segments := by
  rw [List.mem_filterMap]
  constructor
  · rintro ⟨segment, segmentMem, isName⟩
    cases segment with
    | literal text => cases isName
    | parameter other =>
        cases isName
        exact segmentMem
  · exact fun segmentMem => ⟨_, segmentMem, rfl⟩

/-- A route reads back the values from which a path has been built, and what it reads from any path
are the decoded segments of that path. -/
theorem matchPath_readsBack (pattern : RoutePattern) :
    (∀ (values : Text → Text) (received : List Text),
      (∀ name, .parameter name ∈ pattern.segments → values name ≠ []) →
      List.Forall₂ (StandsFor values) pattern.segments received →
      matchPath pattern.text (List.intercalate ['/'] received) =
        some (pattern.parameters values)) ∧
    ∀ (actual : Text) (parameters : Parameters),
      matchPath pattern.text actual = some parameters →
      (pathParts pattern.text).length = (pathParts actual).length ∧
        List.Forall₂ (Matched parameters) pattern.trimmed (pathParts actual) ∧
        ∀ name, .parameter name ∉ pattern.segments → parameters name = none := by
  refine ⟨fun values received someValue stand => matchPath_of_standsFor someValue stand, ?_⟩
  intro actual parameters matched
  rw [matchPath_text] at matched
  split at matched
  case isTrue => cases matched
  case isFalse sameLength =>
    rw [not_not] at sameLength
    refine ⟨by rw [pathParts_text, List.length_map, sameLength], ?_, ?_⟩
    · exact forall₂_matched pattern.trimmed_plain pattern.trimmed_distinct sameLength matched
    · intro name absent
      refine matchParts_of_ne pattern.trimmed_plain ?_ matched
      rwa [name_mem_iff, parameter_mem_trimmed]

def userRoute : RoutePattern where
  segments := [.literal [], .literal ['u', 's', 'e', 'r', 's'], .parameter ['i', 'd']]
  plain := by
    simp only [List.forall_mem_cons]
    refine ⟨?_, ?_, ?_, by simp⟩
    · simp [PatternSegment.Plain]
    · simp [PatternSegment.Plain, isBrace]
    · exact ⟨by simp, by decide⟩
  distinct := by decide

/-- A slash and a percent sign come back from the path, and a triplet is not decoded again. -/
theorem userRoute_readsBack :
    matchPath userRoute.text
        (List.intercalate ['/']
          [[], ['u', 's', 'e', 'r', 's'], ['%', '2', 'f', '%', '2', '5', '4', '1']]) =
      some (userRoute.parameters fun _ => ['/', '%', '4', '1']) := by
  have encoded : utf8 ['%', '2', 'f', '%', '2', '5', '4', '1'] =
      [37, 50, 102, 37, 50, 53, 52, 49] := by
    decide
  have bytes : utf8 ['/', '%', '4', '1'] = [2 * 16 + 15, 2 * 16 + 5, 52, 49] := by decide
  apply (matchPath_readsBack userRoute).1 _ _ (by simp)
  refine .cons rfl (.cons rfl (.cons ?_ .nil))
  simp only [StandsFor]
  rw [encoded, bytes]
  apply PercentEncodes.triplet (by decide) (by decide)
  apply PercentEncodes.triplet (by decide) (by decide)
  apply PercentEncodes.plain (by decide) (by decide)
  exact .plain (by decide) (by decide) .nil

end Brunomnia.MockServer
