import Brunomnia.Evidence.Headers

/-!
# Evidence of responses

What the snapshot of a response shows of it. The headers go into a record, which has no member
for a header without a name nor for one that is called `__proto__`.
-/

namespace Brunomnia.Evidence

open Library

/-! ## Accounts -/

/-- What a snapshot keeps is within what it counts, what it counts is within its limit and the
budget, and the budget decreases by what it counts. -/
structure Accounts (perResult budget left : ℤ) (kept stored : ℕ) : Prop where
  counted : kept ≤ stored
  within : (stored : ℤ) ≤ min perResult (max 0 budget)
  spent : left = budget - stored

theorem Meter.Stands.accounts {perResult budget : ℤ} {room kept : ℕ} {meter : Meter}
    (nonneg : 0 ≤ perResult) (stands : meter.Stands budget (allowance perResult budget) room)
    (fits : kept + room ≤ allowance perResult budget) :
    Accounts perResult budget meter.budget kept meter.storedBytes := by
  have stored := stands.stored
  have left := stands.budget
  have allowed : (allowance perResult budget : ℤ) = min perResult (max 0 budget) := by
    unfold allowance
    omega
  exact ⟨by omega, by omega, by omega⟩

/-! ## Records -/

/-- The bytes of a name and a value. -/
def pairBytes (entry : Text × Text) : ℕ :=
  byteLength entry.1 + byteLength entry.2

theorem cost_map_replace_le {entries : List (Text × Text)} (nodup : (entries.map Prod.fst).Nodup)
    (key value : Text) :
    cost pairBytes (entries.map fun entry => if entry.1 = key then (key, value) else entry) ≤
      cost pairBytes entries + pairBytes (key, value) := by
  induction entries with
  | nil => simp
  | cons entry rest ih =>
      rw [List.map_cons, List.nodup_cons] at nodup
      rw [List.map_cons, cost_cons, cost_cons]
      by_cases isKey : entry.1 = key
      · have others : (rest.map fun entry => if entry.1 = key then (key, value) else entry) =
            rest := by
          conv_rhs => rw [← List.map_id rest]
          apply List.map_congr_left
          intro other otherMem
          apply if_neg
          intro same
          rw [isKey, ← same] at nodup
          exact nodup.1 (List.mem_map_of_mem otherMem)
        rw [if_pos isKey, others]
        omega
      · rw [if_neg isKey]
        have tail := ih nodup.2
        omega

theorem cost_setMember_le (record : Store Text Text) (key value : Text) :
    cost pairBytes (setMember record key value).entries ≤
      cost pairBytes record.entries + (byteLength key + byteLength value) := by
  unfold setMember
  split
  case isTrue => exact Nat.le_add_right _ _
  case isFalse =>
      split
      case isTrue => exact cost_map_replace_le record.nodup key value
      case isFalse =>
          rw [Store.append, cost_append, cost_cons, cost_nil]
          exact le_rfl

theorem mem_setMember {record : Store Text Text} {key value : Text} {entry : Text × Text}
    (entryMem : entry ∈ (setMember record key value).entries) :
    entry = (key, value) ∨ entry ∈ record.entries := by
  unfold setMember at entryMem
  split at entryMem
  case isTrue => exact .inr entryMem
  case isFalse =>
      split at entryMem
      case isTrue =>
          rcases List.mem_map.mp entryMem with ⟨other, otherMem, rfl⟩
          split
          case isTrue => exact .inl rfl
          case isFalse => exact .inr otherMem
      case isFalse =>
          rcases List.mem_append.mp entryMem with entryMem | entryMem
          · exact .inr entryMem
          · exact .inl (List.mem_singleton.mp entryMem)

def IsMemberName (name : Text) : Prop :=
  name ≠ [] ∧ name ≠ text "__proto__"

instance : DecidablePred IsMemberName :=
  fun _ => inferInstanceAs (Decidable (_ ∧ _))

theorem entries_setMember_of_fresh {record : Store Text Text} {key : Text} (value : Text)
    (isName : IsMemberName key) (fresh : key ∉ record.keys) :
    (setMember record key value).entries = record.entries ++ [(key, value)] := by
  rw [setMember, if_neg isName.2, dif_neg fresh]
  rfl

theorem foldl_setMember {entries : List (Text × Text)} (record : Store Text Text)
    (nodup : ((record.entries ++ entries).map Prod.fst).Nodup)
    (names : ∀ entry ∈ entries, IsMemberName entry.1) :
    (entries.foldl
      (fun record entry =>
        if entry.1 = [] then record else setMember record entry.1 entry.2) record).entries =
      record.entries ++ entries := by
  induction entries generalizing record with
  | nil => rw [List.append_nil, List.foldl_nil]
  | cons entry rest ih =>
      have isName := names entry List.mem_cons_self
      have fresh : entry.1 ∉ record.keys := by
        intro present
        rw [List.map_append, List.nodup_append] at nodup
        exact nodup.2.2 entry.1 present entry.1 (by simp) rfl
      have set := entries_setMember_of_fresh entry.2 isName fresh
      rw [List.foldl_cons, if_neg isName.1, ih]
      · rw [set, List.append_assoc, List.singleton_append]
      · rw [set, List.append_assoc, List.singleton_append]
        exact nodup
      · exact fun other otherMem => names other (List.mem_cons_of_mem _ otherMem)

/-! ## Snapshots -/

def RunnerResponseSnapshot.keptBytes (snapshot : RunnerResponseSnapshot) : ℕ :=
  byteLength snapshot.statusText + cost pairBytes snapshot.headers.entries +
    byteLength snapshot.bodyPreview

structure ResponseStarts (response : HttpResponse) (snapshot : RunnerResponseSnapshot) : Prop where
  statusText : StartsText snapshot.statusText response.statusText
  headers : ∀ header ∈ snapshot.headers.entries, ∃ source ∈ response.headers.entries,
    StartsText header.1 source.1 ∧ StartsText header.2 source.2
  body : StartsText snapshot.bodyPreview response.body

/-- What is not in a snapshot is marked as cut. -/
structure ResponseMarks (response : HttpResponse) (snapshot : RunnerResponseSnapshot) : Prop where
  statusText : snapshot.statusText ≠ response.statusText → snapshot.statusTextTruncated = true
  headers : snapshot.headers.entries ≠ response.headers.entries →
    snapshot.headersTruncated = true
  body : snapshot.bodyPreview ≠ response.body → snapshot.bodyTruncated = true

/-- What the texts of a response ask for. -/
def responseDemands (response : HttpResponse) : List (Demand CodePoint) :=
  textDemand 512 response.statusText ::
    headerDemands id (response.headers.entries.take runnerResponseHeaders) ++
      [textDemand 16000 response.body]

/-- The responses that a snapshot shows as they are: whatever is cut can be read, and headers
that fit have names. -/
structure ResponseReadable (budget : ℤ) (response : HttpResponse) : Prop where
  texts : EveryPart CodePoint.size Shown (allowance runnerResponsePerResultBytes budget)
    (responseDemands response)
  names : response.headers.entries.length ≤ runnerResponseHeaders →
    HeadersFit (serve CodePoint.size (allowance runnerResponsePerResultBytes budget)
      [textDemand 512 response.statusText]) response.headers.entries →
      ∀ header ∈ response.headers.entries, IsMemberName header.1

instance (budget : ℤ) (response : HttpResponse) : Decidable (ResponseReadable budget response) :=
  decidable_of_iff (_ ∧ _) ⟨fun both => ⟨both.1, both.2⟩, fun readable => ⟨readable.1, readable.2⟩⟩

/-- What is taken of a text is all of it unless it is marked. -/
theorem takenPart_value_of_whole {value : Text} {part : List CodePoint}
    (whole : (takenPart value part).truncated = false) : (takenPart value part).value = value := by
  rw [takenPart_truncated_eq_false_iff.mp whole, takenPart_self]

theorem takenPart_marks {value : Text} {part : List CodePoint}
    (lost : (takenPart value part).value ≠ value) : (takenPart value part).truncated = true := by
  by_contra whole
  exact lost (takenPart_value_of_whole (Bool.eq_false_of_not_eq_true whole))

section Response

variable (response : HttpResponse) (budget : ℤ)

def headersRoom : ℕ :=
  (textDemand 512 response.statusText).left CodePoint.size
    (allowance runnerResponsePerResultBytes budget)

/-- The state of the loop over the headers at its start. -/
def responseStart : HeaderState (Store Text Text) :=
  ⟨((openMeter runnerResponsePerResultBytes budget).take response.statusText 512).2, Store.empty,
    runnerResponseHeaders < response.headers.entries.length⟩

/-- The state of the loop over the headers at its end. -/
def responseHeaders : HeaderState (Store Text Text) :=
  takeHeaders id (fun record _ name value => setMember record name value)
    (response.headers.entries.take runnerResponseHeaders) (responseStart response budget)

def bodyRoom : ℕ :=
  serve CodePoint.size (headersRoom response budget)
    (headerDemands id (response.headers.entries.take runnerResponseHeaders))

theorem responsePerResult_nonneg : 0 ≤ runnerResponsePerResultBytes := by
  decide

theorem responseStart_stands :
    (responseStart response budget).meter.Stands budget
      (allowance runnerResponsePerResultBytes budget) (headersRoom response budget) :=
  (openMeter_stands responsePerResult_nonneg budget).take_snd response.statusText 512

theorem responseHeaders_stands :
    (responseHeaders response budget).meter.Stands budget
      (allowance runnerResponsePerResultBytes budget) (bodyRoom response budget) :=
  takeHeaders_stands (responseStart_stands response budget)

/-- What the snapshot has of the status text. -/
def statusPart : Taken :=
  takenPart response.statusText ((textDemand 512 response.statusText).part CodePoint.size
    (allowance runnerResponsePerResultBytes budget))

def bodyPart : Taken :=
  takenPart response.body
    ((textDemand 16000 response.body).part CodePoint.size (bodyRoom response budget))

theorem captureRunnerResponse_eq :
    (captureRunnerResponse response budget).1 =
      { statusText := (statusPart response budget).value
        statusTextTruncated := (statusPart response budget).truncated
        headers := (responseHeaders response budget).headers
        headersTruncated := (responseHeaders response budget).truncated
        bodyPreview := (bodyPart response budget).value
        bodyTruncated := (bodyPart response budget).truncated
        sizeBytes := response.wireSizeBytes.getD response.sizeBytes
        storedBytes := (captureRunnerResponse response budget).1.storedBytes } := by
  have status : ((openMeter runnerResponsePerResultBytes budget).take response.statusText 512).1 =
      statusPart response budget :=
    (openMeter_stands responsePerResult_nonneg budget).take_fst response.statusText 512
  have body : ((responseHeaders response budget).meter.take response.body
      runnerResponseBodyBytes).1 = bodyPart response budget :=
    (responseHeaders_stands response budget).take_fst response.body 16000
  rw [← status, ← body]
  rfl

theorem captureRunnerResponse_accounts :
    Accounts runnerResponsePerResultBytes budget (captureRunnerResponse response budget).2
      (captureRunnerResponse response budget).1.keptBytes
      (captureRunnerResponse response budget).1.storedBytes := by
  have last := (responseHeaders_stands response budget).take_snd response.body 16000
  apply last.accounts responsePerResult_nonneg
  have statusText : byteLength (statusPart response budget).value +
      headersRoom response budget ≤ allowance runnerResponsePerResultBytes budget :=
    byteLength_taken_add_left_le _ _ _
  have headers : cost pairBytes (responseHeaders response budget).headers.entries +
      bodyRoom response budget ≤ 0 + headersRoom response budget :=
    takeHeaders_weight (responseStart_stands response budget)
      (fun record => cost pairBytes record.entries)
      fun record _ name value => cost_setMember_le record name value
  have body : byteLength (bodyPart response budget).value +
      (textDemand 16000 response.body).left CodePoint.size (bodyRoom response budget) ≤
        bodyRoom response budget :=
    byteLength_taken_add_left_le _ _ _
  rw [captureRunnerResponse_eq]
  unfold RunnerResponseSnapshot.keptBytes
  dsimp only
  omega

variable {response budget}

theorem captureRunnerResponse_starts (readable : ResponseReadable budget response) :
    ResponseStarts response (captureRunnerResponse response budget).1 := by
  have parts := readable.texts
  unfold responseDemands at parts
  rw [List.cons_append, EveryPart, everyPart_append] at parts
  rcases parts with ⟨statusShown, headersShown, bodyShown, -⟩
  rw [captureRunnerResponse_eq]
  refine ⟨?_, ?_, ?_⟩
  · exact (startsText_takenPart_iff (fit_start _ _)).mpr statusShown
  · apply takeHeaders_holds (responseStart_stands response budget)
      (fun record => ∀ header ∈ record.entries, ∃ source ∈ response.headers.entries,
        StartsText header.1 source.1 ∧ StartsText header.2 source.2) headersShown
    · intro record source sourceMem name value nameStarts valueStarts before header headerMem
      rcases mem_setMember headerMem with rfl | headerMem
      · exact ⟨source, List.mem_of_mem_take sourceMem, nameStarts, valueStarts⟩
      · exact before header headerMem
    · intro header headerMem
      exact absurd headerMem List.not_mem_nil
  · exact (startsText_takenPart_iff (fit_start _ _)).mpr bodyShown

theorem headersFit_of_whole (whole : (responseHeaders response budget).truncated = false) :
    response.headers.entries.length ≤ runnerResponseHeaders ∧
      HeadersFit (headersRoom response budget) response.headers.entries := by
  have fits := (takeHeaders_truncated_eq_false_iff (responseStart_stands response budget)).mp whole
  have few : response.headers.entries.length ≤ runnerResponseHeaders := by
    simpa [responseStart] using fits.1
  rw [List.take_of_length_le few, List.map_id] at fits
  exact ⟨few, fits.2⟩

theorem captureRunnerResponse_marks (readable : ResponseReadable budget response) :
    ResponseMarks response (captureRunnerResponse response budget).1 := by
  rw [captureRunnerResponse_eq]
  refine ⟨takenPart_marks, ?_, takenPart_marks⟩
  intro lost
  by_contra cut
  have whole : (responseHeaders response budget).truncated = false :=
    Bool.eq_false_of_not_eq_true cut
  have fits := headersFit_of_whole whole
  have headers := takeHeaders_headers_of_whole (responseStart_stands response budget) whole
  rw [List.take_of_length_le fits.1] at headers
  apply lost
  dsimp only
  unfold responseHeaders
  rw [List.take_of_length_le fits.1, headers]
  exact foldl_setMember Store.empty response.headers.nodup (readable.names fits.1 fits.2)

end Response

end Brunomnia.Evidence
