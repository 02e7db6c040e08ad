import Brunomnia.Evidence.Captures

/-!
# What fits

Backing off from a cut inside a character leaves the characters that fit, so that a meter serves
one text after the other out of a budget: every text gets the longest start that its limit and
the rest of the budget allow. The loops over headers and timeline entries stop when nothing is
left, which is what serving the others from an empty budget comes to.
-/

namespace Brunomnia.Evidence

open Library

/-! ## Texts -/

def textDemand (limit : ℕ) (value : Text) : Demand CodePoint :=
  ⟨limit, codePoints value⟩

/-- What is taken of a text when a start of it fits. -/
def takenPart (value : Text) (part : List CodePoint) : Taken :=
  if part = codePoints value then ⟨value, cost CodePoint.size part, false⟩
  else ⟨cutText part, cost CodePoint.size part, true⟩

/-- What a text gets can be read: all of it, or code points that decoding keeps. -/
def Shown (points part : List CodePoint) : Prop :=
  part = points ∨ Readable part

instance (points part : List CodePoint) : Decidable (Shown points part) :=
  inferInstanceAs (Decidable (_ ∨ _))

theorem textDemand_part_eq_iff {limit room : ℕ} {value : Text} :
    (textDemand limit value).part CodePoint.size room = codePoints value ↔
      byteLength value ≤ limit ∧ byteLength value ≤ room := by
  rw [← Nat.le_min, byteLength_eq_cost]
  exact Demand.part_eq_self_iff

theorem textDemand_left_eq {limit room : ℕ} {value : Text}
    (whole : (textDemand limit value).part CodePoint.size room = codePoints value) :
    (textDemand limit value).left CodePoint.size room = room - byteLength value := by
  rw [Demand.left, whole, byteLength_eq_cost]

theorem decode_take_eq_none {letters : List Char} {stop : ℕ}
    (inside : cost Char.utf8Size (fit Char.utf8Size stop letters) ≠ stop)
    (short : stop ≤ cost Char.utf8Size letters) :
    decode ((letters.flatMap String.utf8EncodeChar).take stop) = none := by
  rw [decode, Option.map_eq_none_iff, Option.eq_none_iff_forall_ne_some]
  intro start decoded
  have isStart := decodeFatal_eq_some_iff.mp decoded
  have costs : cost Char.utf8Size start = stop := by
    rw [← length_encodeLetters, isStart, List.length_take, length_encodeLetters,
      Nat.min_eq_left short]
  have starts : start <+: letters := by
    apply start_of_encode
    rw [isStart]
    exact List.take_prefix _ _
  rw [fit_eq_of_cost Char.utf8Size_pos starts costs] at inside
  exact inside costs

theorem decode_take_eq_some {letters : List Char} {stop : ℕ}
    (border : cost Char.utf8Size (fit Char.utf8Size stop letters) = stop) :
    decode ((letters.flatMap String.utf8EncodeChar).take stop) =
      some (ofLetters (dropMark (fit Char.utf8Size stop letters))) := by
  have start : fit Char.utf8Size stop letters <+: letters := fit_start stop letters
  rcases start with ⟨rest, isLetters⟩
  have bytes : (letters.flatMap String.utf8EncodeChar).take stop =
      (fit Char.utf8Size stop letters).flatMap String.utf8EncodeChar := by
    conv_lhs => rw [← isLetters, List.flatMap_append]
    rw [List.take_left' (by rw [length_encodeLetters, border])]
  rw [decode, bytes, decodeFatal_eq_some_iff.mpr rfl]
  rfl

theorem takeDecoded_eq {letters : List Char} {stop : ℕ}
    (short : stop < cost Char.utf8Size letters) :
    takeDecoded (letters.flatMap String.utf8EncodeChar) stop =
      ⟨ofLetters (dropMark (fit Char.utf8Size stop letters)),
        cost Char.utf8Size (fit Char.utf8Size stop letters), true⟩ := by
  induction stop with
  | zero =>
      have some : 0 < (letters.flatMap String.utf8EncodeChar).length := by
        rw [length_encodeLetters]
        exact short
      rw [takeDecoded, fit_zero Char.utf8Size_pos, decide_eq_true some]
      rfl
  | succ stop ih =>
      rw [takeDecoded]
      by_cases border : cost Char.utf8Size (fit Char.utf8Size (stop + 1) letters) = stop + 1
      · rw [decode_take_eq_some border, border]
      · rw [decode_take_eq_none border short.le, fit_succ border]
        exact ih (Nat.lt_of_succ_lt short)

/-- What `takeUtf8` takes is what fits. -/
theorem takeUtf8_eq (value : Text) (room : ℕ) :
    takeUtf8 value room = takenPart value (fit CodePoint.size room (codePoints value)) := by
  have length : (encode value).length = cost CodePoint.size (codePoints value) :=
    byteLength_eq_cost value
  unfold takeUtf8 takenPart
  simp only [length, Nat.cast_le, fit_eq_self_iff]
  split
  case isTrue fits => rw [fit_eq_self_iff.mpr fits]
  case isFalse wide =>
      have letters : cost Char.utf8Size (scalars value) =
          cost CodePoint.size (codePoints value) := cost_map _ _
      have fitLetters : fit Char.utf8Size room (scalars value) =
          (fit CodePoint.size room (codePoints value)).map CodePoint.letter :=
        (fit_map CodePoint.letter room (codePoints value)).symm
      have isRoom : (max 0 (room : ℤ)).toNat = room := by omega
      rw [isRoom, encode, takeDecoded_eq (by omega), fitLetters, cost_map]
      rfl

theorem cost_dropMark_le (letters : List Char) :
    cost Char.utf8Size (dropMark letters) ≤ cost Char.utf8Size letters := by
  cases letters with
  | nil => rfl
  | cons letter rest =>
      rw [dropMark]
      split <;> simp

theorem byteLength_takenPart_le (value : Text) (part : List CodePoint) :
    byteLength (takenPart value part).value ≤ (takenPart value part).bytes := by
  unfold takenPart
  split
  case isTrue whole => rw [byteLength_eq_cost, whole]
  case isFalse =>
      rw [cutText, byteLength_ofLetters]
      refine (cost_dropMark_le _).trans ?_
      rw [cost_map]
      rfl

theorem takenPart_bytes (value : Text) (part : List CodePoint) :
    (takenPart value part).bytes = cost CodePoint.size part := by
  unfold takenPart
  split <;> rfl

theorem takenPart_truncated_eq_false_iff {value : Text} {part : List CodePoint} :
    (takenPart value part).truncated = false ↔ part = codePoints value := by
  unfold takenPart
  split <;> simp [*]

theorem takenPart_self (value : Text) :
    takenPart value (codePoints value) = ⟨value, byteLength value, false⟩ := by
  rw [takenPart, if_pos rfl, byteLength_eq_cost]

theorem byteLength_taken_add_left_le (limit room : ℕ) (value : Text) :
    byteLength (takenPart value ((textDemand limit value).part CodePoint.size room)).value +
        (textDemand limit value).left CodePoint.size room ≤ room := by
  have kept := byteLength_takenPart_le value ((textDemand limit value).part CodePoint.size room)
  rw [takenPart_bytes] at kept
  have whole : cost CodePoint.size ((textDemand limit value).part CodePoint.size room) +
      (textDemand limit value).left CodePoint.size room = room :=
    (textDemand limit value).cost_part_add_left room
  omega

theorem startsText_takenPart_iff {value : Text} {part : List CodePoint}
    (start : part <+: codePoints value) :
    StartsText (takenPart value part).value value ↔ Shown (codePoints value) part := by
  unfold takenPart Shown
  split
  case isTrue whole => exact iff_of_true (StartsText.refl value) (.inl whole)
  case isFalse cut =>
      rw [startsText_cutText_iff start]
      exact ⟨.inr, fun shown => shown.resolve_left cut⟩

/-! ## Meters -/

/-- What a snapshot may take altogether. -/
def allowance (perResult budget : ℤ) : ℕ :=
  (min perResult (max 0 budget)).toNat

/-- A meter that has spent all but a rest of an allowance, and as much of a budget. -/
structure Meter.Stands (budget : ℤ) (allowed room : ℕ) (meter : Meter) : Prop where
  remaining : meter.remaining = room
  stored : meter.storedBytes + room = allowed
  budget : meter.budget + meter.storedBytes = budget

variable {budget : ℤ} {allowed room : ℕ} {meter : Meter}

theorem openMeter_stands {perResult : ℤ} (nonneg : 0 ≤ perResult) (budget : ℤ) :
    (openMeter perResult budget).Stands budget (allowance perResult budget)
      (allowance perResult budget) where
  remaining := by
    unfold openMeter allowance
    dsimp only
    omega
  stored := Nat.zero_add _
  budget := add_zero _

namespace Meter.Stands

variable (stands : meter.Stands budget allowed room)

include stands

theorem take_fst (value : Text) (limit : ℕ) :
    (meter.take value limit).1 =
      takenPart value ((textDemand limit value).part CodePoint.size room) := by
  have least : min (limit : ℤ) (room : ℤ) = ((min limit room : ℕ) : ℤ) := by omega
  rw [Meter.take, stands.remaining, least]
  exact takeUtf8_eq value (min limit room)

theorem take_snd (value : Text) (limit : ℕ) :
    (meter.take value limit).2.Stands budget allowed
      ((textDemand limit value).left CodePoint.size room) := by
  have first := stands.take_fst value limit
  have bytes : (takeUtf8 value (min (limit : ℤ) meter.remaining)).bytes =
      cost CodePoint.size ((textDemand limit value).part CodePoint.size room) := by
    have taken := congrArg Taken.bytes first
    rwa [takenPart_bytes] at taken
  have whole : cost CodePoint.size ((textDemand limit value).part CodePoint.size room) +
      (textDemand limit value).left CodePoint.size room = room :=
    (textDemand limit value).cost_part_add_left room
  have remaining := stands.remaining
  have stored := stands.stored
  have isBudget := stands.budget
  constructor
  · change meter.remaining - ((takeUtf8 value (min (limit : ℤ) meter.remaining)).bytes : ℤ) = _
    omega
  · change meter.storedBytes + (takeUtf8 value (min (limit : ℤ) meter.remaining)).bytes + _ = _
    omega
  · change meter.budget - ((takeUtf8 value (min (limit : ℤ) meter.remaining)).bytes : ℤ) +
      ((meter.storedBytes + (takeUtf8 value (min (limit : ℤ) meter.remaining)).bytes : ℕ) : ℤ) = _
    omega

theorem exhausted_iff : meter.remaining ≤ 0 ↔ room = 0 := by
  rw [stands.remaining]
  omega

end Meter.Stands

end Brunomnia.Evidence
