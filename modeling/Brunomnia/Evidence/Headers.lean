import Brunomnia.Evidence.Metering

/-!
# Headers of a snapshot

The loop over headers serves the names and the values one after the other. What it keeps does
not have more bytes than it takes out of the budget, everything in it comes from a header of the
source, and if nothing is marked as cut, every header went in whole.
-/

namespace Brunomnia.Evidence

open Library

section Loop

variable {Source Headers : Type} (texts : Source → Text × Text)
  {store : Headers → Source → Text → Text → Headers}

/-- What the texts of headers ask for. -/
def headerDemands (sources : List Source) : List (Demand CodePoint) :=
  sources.flatMap fun source =>
    [textDemand 256 (texts source).1, textDemand 2048 (texts source).2]

/-- Whether headers fit: each text within its limit, all of them within the budget, and something
left of it in front of every one. -/
def HeadersFit (room : ℕ) : List (Text × Text) → Prop
  | [] => True
  | (name, value) :: rest =>
      0 < room ∧ byteLength name ≤ 256 ∧ byteLength value ≤ 2048 ∧
        byteLength name + byteLength value ≤ room ∧
          HeadersFit (room - (byteLength name + byteLength value)) rest

instance HeadersFit.decidable : ∀ room headers, Decidable (HeadersFit room headers)
  | _, [] => inferInstanceAs (Decidable True)
  | room, (name, value) :: rest =>
      have := HeadersFit.decidable (room - (byteLength name + byteLength value)) rest
      inferInstanceAs (Decidable (_ ∧ _ ∧ _ ∧ _ ∧ _))

variable {texts} {source : Source} {sources rest : List Source} {state : HeaderState Headers}
  {budget : ℤ} {allowed room : ℕ}

theorem headerDemands_cons :
    headerDemands texts (source :: rest) =
      textDemand 256 (texts source).1 :: textDemand 2048 (texts source).2 ::
        headerDemands texts rest := rfl

theorem serve_headerDemands_cons :
    serve CodePoint.size room (headerDemands texts (source :: rest)) =
      serve CodePoint.size ((textDemand 2048 (texts source).2).left CodePoint.size
        ((textDemand 256 (texts source).1).left CodePoint.size room))
        (headerDemands texts rest) := rfl

theorem parts_whole_iff {name value : Text} :
    (textDemand 256 name).part CodePoint.size room = codePoints name ∧
        (textDemand 2048 value).part CodePoint.size
          ((textDemand 256 name).left CodePoint.size room) = codePoints value ↔
      byteLength name ≤ 256 ∧ byteLength value ≤ 2048 ∧
        byteLength name + byteLength value ≤ room := by
  constructor
  · rintro ⟨nameWhole, valueWhole⟩
    have nameFits := textDemand_part_eq_iff.mp nameWhole
    have valueFits := textDemand_part_eq_iff.mp valueWhole
    rw [textDemand_left_eq nameWhole] at valueFits
    exact ⟨nameFits.1, valueFits.1, by omega⟩
  · rintro ⟨nameShort, valueShort, fits⟩
    have nameWhole : (textDemand 256 name).part CodePoint.size room = codePoints name :=
      textDemand_part_eq_iff.mpr ⟨nameShort, by omega⟩
    refine ⟨nameWhole, ?_⟩
    rw [textDemand_left_eq nameWhole]
    exact textDemand_part_eq_iff.mpr ⟨valueShort, by omega⟩

/-! ## One header -/

theorem takeHeader_stands (stands : state.meter.Stands budget allowed room) :
    (takeHeader texts store source state).meter.Stands budget allowed
      ((textDemand 2048 (texts source).2).left CodePoint.size
        ((textDemand 256 (texts source).1).left CodePoint.size room)) :=
  (stands.take_snd (texts source).1 256).take_snd (texts source).2 2048

theorem takeHeader_headers (stands : state.meter.Stands budget allowed room) :
    (takeHeader texts store source state).headers =
      let name := takenPart (texts source).1
        ((textDemand 256 (texts source).1).part CodePoint.size room)
      let value := takenPart (texts source).2
        ((textDemand 2048 (texts source).2).part CodePoint.size
          ((textDemand 256 (texts source).1).left CodePoint.size room))
      if name.value = [] then state.headers
      else store state.headers source name.value value.value := by
  have name := stands.take_fst (texts source).1 256
  have value := (stands.take_snd (texts source).1 256).take_fst (texts source).2 2048
  dsimp only
  rw [← name, ← value]
  rfl

theorem takeHeader_truncated_eq_false_iff (stands : state.meter.Stands budget allowed room) :
    (takeHeader texts store source state).truncated = false ↔
      state.truncated = false ∧ byteLength (texts source).1 ≤ 256 ∧
        byteLength (texts source).2 ≤ 2048 ∧
          byteLength (texts source).1 + byteLength (texts source).2 ≤ room := by
  have name := stands.take_fst (texts source).1 256
  have value := (stands.take_snd (texts source).1 256).take_fst (texts source).2 2048
  have flags : (takeHeader texts store source state).truncated =
      (state.truncated || ((state.meter.take (texts source).1 (256 : ℕ)).1.truncated ||
        ((state.meter.take (texts source).1 (256 : ℕ)).2.take
          (texts source).2 (2048 : ℕ)).1.truncated)) := rfl
  rw [flags, Bool.or_eq_false_iff, Bool.or_eq_false_iff, name, value,
    takenPart_truncated_eq_false_iff, takenPart_truncated_eq_false_iff]
  rw [parts_whole_iff]

theorem takeHeader_headers_of_fits (stands : state.meter.Stands budget allowed room)
    (whole : (takeHeader texts store source state).truncated = false) :
    (takeHeader texts store source state).headers =
      if (texts source).1 = [] then state.headers
      else store state.headers source (texts source).1 (texts source).2 := by
  have fits := ((takeHeader_truncated_eq_false_iff stands).mp whole).2
  rcases parts_whole_iff.mpr fits with ⟨nameWhole, valueWhole⟩
  rw [takeHeader_headers stands, nameWhole, valueWhole, takenPart_self, takenPart_self]

theorem left_of_fits (stands : state.meter.Stands budget allowed room)
    (whole : (takeHeader texts store source state).truncated = false) :
    (textDemand 2048 (texts source).2).left CodePoint.size
        ((textDemand 256 (texts source).1).left CodePoint.size room) =
      room - (byteLength (texts source).1 + byteLength (texts source).2) := by
  have fits := ((takeHeader_truncated_eq_false_iff stands).mp whole).2
  rcases parts_whole_iff.mpr fits with ⟨nameWhole, valueWhole⟩
  rw [textDemand_left_eq valueWhole, textDemand_left_eq nameWhole, Nat.sub_sub]

/-! ## The loop -/

theorem takeHeaders_of_exhausted (exhausted : state.meter.remaining ≤ 0) :
    takeHeaders texts store (source :: rest) state = { state with truncated := true } :=
  if_pos exhausted

theorem takeHeaders_of_left (left : ¬ state.meter.remaining ≤ 0) :
    takeHeaders texts store (source :: rest) state =
      takeHeaders texts store rest (takeHeader texts store source state) :=
  if_neg left

theorem takeHeaders_stands (stands : state.meter.Stands budget allowed room) :
    (takeHeaders texts store sources state).meter.Stands budget allowed
      (serve CodePoint.size room (headerDemands texts sources)) := by
  induction sources generalizing state room with
  | nil => exact stands
  | cons source rest ih =>
      by_cases exhausted : state.meter.remaining ≤ 0
      · have nothing : room = 0 := stands.exhausted_iff.mp exhausted
        rw [takeHeaders_of_exhausted exhausted, nothing, serve_zero]
        rwa [nothing] at stands
      · rw [takeHeaders_of_left exhausted, serve_headerDemands_cons]
        exact ih (takeHeader_stands stands)

/-- What the loop keeps does not have more bytes than it takes out of the budget. -/
theorem takeHeaders_weight (stands : state.meter.Stands budget allowed room)
    (weight : Headers → ℕ)
    (adds : ∀ headers source name value,
      weight (store headers source name value) ≤
        weight headers + (byteLength name + byteLength value)) :
    weight (takeHeaders texts store sources state).headers +
        serve CodePoint.size room (headerDemands texts sources) ≤
      weight state.headers + room := by
  induction sources generalizing state room with
  | nil => exact le_rfl
  | cons source rest ih =>
      by_cases exhausted : state.meter.remaining ≤ 0
      · have nothing : room = 0 := stands.exhausted_iff.mp exhausted
        rw [takeHeaders_of_exhausted exhausted, nothing, serve_zero]
      · rw [takeHeaders_of_left exhausted, serve_headerDemands_cons]
        refine (ih (takeHeader_stands stands)).trans ?_
        rw [takeHeader_headers stands]
        have name := byteLength_taken_add_left_le 256 room (texts source).1
        have value := byteLength_taken_add_left_le 2048
          ((textDemand 256 (texts source).1).left CodePoint.size room) (texts source).2
        dsimp only
        split
        case isTrue => omega
        case isFalse =>
            refine (Nat.add_le_add_right (adds _ _ _ _) _).trans ?_
            omega

/-- Everything that the loop keeps comes from a header of the source. -/
theorem takeHeaders_holds (stands : state.meter.Stands budget allowed room)
    (holds : Headers → Prop)
    (shown : EveryPart CodePoint.size Shown room (headerDemands texts sources))
    (stores : ∀ headers, ∀ source ∈ sources, ∀ name value, StartsText name (texts source).1 →
      StartsText value (texts source).2 → holds headers → holds (store headers source name value))
    (start : holds state.headers) : holds (takeHeaders texts store sources state).headers := by
  induction sources generalizing state room with
  | nil => exact start
  | cons source rest ih =>
      by_cases exhausted : state.meter.remaining ≤ 0
      · rwa [takeHeaders_of_exhausted exhausted]
      · rw [takeHeaders_of_left exhausted]
        rw [headerDemands_cons, EveryPart, EveryPart] at shown
        rcases shown with ⟨nameShown, valueShown, restShown⟩
        apply ih (takeHeader_stands stands) restShown
        · intro headers other otherMem
          exact stores headers other (List.mem_cons_of_mem _ otherMem)
        · rw [takeHeader_headers stands]
          dsimp only
          split
          case isTrue => exact start
          case isFalse =>
              apply stores _ source List.mem_cons_self
              · exact (startsText_takenPart_iff (fit_start _ _)).mpr nameShown
              · exact (startsText_takenPart_iff (fit_start _ _)).mpr valueShown
              · exact start

theorem takeHeaders_truncated_eq_false_iff (stands : state.meter.Stands budget allowed room) :
    (takeHeaders texts store sources state).truncated = false ↔
      state.truncated = false ∧ HeadersFit room (sources.map texts) := by
  induction sources generalizing state room with
  | nil => simp [takeHeaders, HeadersFit]
  | cons source rest ih =>
      rw [List.map_cons, HeadersFit]
      by_cases exhausted : state.meter.remaining ≤ 0
      · have nothing : room = 0 := stands.exhausted_iff.mp exhausted
        rw [takeHeaders_of_exhausted exhausted]
        simp [nothing]
      · have left : 0 < room := Nat.pos_of_ne_zero fun nothing =>
          exhausted (stands.exhausted_iff.mpr nothing)
        rw [takeHeaders_of_left exhausted, ih (takeHeader_stands stands)]
        constructor
        · rintro ⟨whole, fits⟩
          rw [left_of_fits stands whole] at fits
          rcases (takeHeader_truncated_eq_false_iff stands).mp whole with
            ⟨before, nameShort, valueShort, both⟩
          exact ⟨before, left, nameShort, valueShort, both, fits⟩
        · rintro ⟨before, _, nameShort, valueShort, both, fits⟩
          have whole : (takeHeader texts store source state).truncated = false :=
            (takeHeader_truncated_eq_false_iff stands).mpr ⟨before, nameShort, valueShort, both⟩
          refine ⟨whole, ?_⟩
          rwa [left_of_fits stands whole]

theorem takeHeaders_headers_of_whole (stands : state.meter.Stands budget allowed room)
    (whole : (takeHeaders texts store sources state).truncated = false) :
    (takeHeaders texts store sources state).headers =
      sources.foldl
        (fun headers source =>
          if (texts source).1 = [] then headers
          else store headers source (texts source).1 (texts source).2)
        state.headers := by
  induction sources generalizing state room with
  | nil => rfl
  | cons source rest ih =>
      by_cases exhausted : state.meter.remaining ≤ 0
      · rw [takeHeaders_of_exhausted exhausted] at whole
        cases whole
      · rw [takeHeaders_of_left exhausted] at whole ⊢
        have first := ((takeHeaders_truncated_eq_false_iff (takeHeader_stands stands)).mp whole).1
        rw [ih (takeHeader_stands stands) whole, List.foldl_cons,
          takeHeader_headers_of_fits stands first]

end Loop

end Brunomnia.Evidence
