import Mathlib.Data.List.Count
import Mathlib.Data.List.Nodup
import Mathlib.Logic.Function.Basic

/-!
# First come, first served

Requests ask for an offer under a key. Each takes the next offer that is left under its key, or
none, so that the offers under a key are taken in their order by as many requests as ask for it.
-/

namespace Brunomnia.Library

universe u v w

variable {Key : Type u} {Offer : Type v} {Request : Type w} [DecidableEq Key]

/-- The offers that are left when one is taken under a key. -/
def takeOffer (offers : Key → List Offer) (key : Key) : Key → List Offer :=
  Function.update offers key (offers key).tail

@[simp]
theorem takeOffer_self (offers : Key → List Offer) (key : Key) :
    takeOffer offers key key = (offers key).tail :=
  Function.update_self ..

theorem takeOffer_of_ne (offers : Key → List Offer) {key other : Key} (different : other ≠ key) :
    takeOffer offers key other = offers other :=
  Function.update_of_ne different ..

def allocate (keyOf : Request → Key) (offers : Key → List Offer) :
    List Request → List (Request × Option Offer)
  | [] => []
  | request :: rest =>
      (request, (offers (keyOf request)).head?) ::
        allocate keyOf (takeOffer offers (keyOf request)) rest

def taken (keyOf : Request → Key) (offers : Key → List Offer) (requests : List Request) :
    List Offer :=
  (allocate keyOf offers requests).filterMap Prod.snd

variable {keyOf : Request → Key} {offers : Key → List Offer}

@[simp]
theorem allocate_map_fst (requests : List Request) :
    (allocate keyOf offers requests).map Prod.fst = requests := by
  induction requests generalizing offers with
  | nil => rfl
  | cons request rest ih => simp only [allocate, List.map_cons, ih]

/-- What an allocation gives for one key. -/
def takenUnder (keyOf : Request → Key) (offers : Key → List Offer) (key : Key)
    (requests : List Request) : List Offer :=
  (allocate keyOf offers requests).filterMap fun allocated =>
    if keyOf allocated.1 = key then allocated.2 else none

theorem takenUnder_eq_take (key : Key) (requests : List Request) :
    takenUnder keyOf offers key requests =
      (offers key).take (requests.countP fun request => keyOf request = key) := by
  induction requests generalizing offers with
  | nil => simp [takenUnder, allocate]
  | cons request rest ih =>
      have later := @ih (takeOffer offers (keyOf request))
      simp only [takenUnder] at later
      simp only [takenUnder, allocate, List.filterMap_cons]
      by_cases same : keyOf request = key
      · subst same
        rw [takeOffer_self] at later
        simp only [if_true, later, List.countP_cons, decide_true]
        cases offers (keyOf request) with
        | nil => simp
        | cons offer left => simp
      · rw [takeOffer_of_ne _ (Ne.symm same)] at later
        simp only [if_neg same, later, List.countP_cons, decide_eq_true_eq, Nat.add_zero]

theorem mem_taken_iff {offer : Offer} (requests : List Request) :
    offer ∈ taken keyOf offers requests ↔ ∃ key, offer ∈
      (offers key).take (requests.countP fun request => keyOf request = key) := by
  simp only [← takenUnder_eq_take, takenUnder, taken, List.mem_filterMap]
  constructor
  · rintro ⟨allocated, allocatedMem, isOffer⟩
    exact ⟨keyOf allocated.1, allocated, allocatedMem, by rw [if_pos rfl, isOffer]⟩
  · rintro ⟨key, allocated, allocatedMem, isOffer⟩
    refine ⟨allocated, allocatedMem, ?_⟩
    split at isOffer
    case isTrue => exact isOffer
    case isFalse => exact absurd isOffer (by simp)

theorem mem_offers_of_allocated {requests : List Request} {request : Request} {offer : Offer}
    (allocated : (request, some offer) ∈ allocate keyOf offers requests) :
    offer ∈ offers (keyOf request) := by
  have under : offer ∈ takenUnder keyOf offers (keyOf request) requests :=
    List.mem_filterMap.mpr ⟨_, allocated, by simp⟩
  rw [takenUnder_eq_take] at under
  exact List.mem_of_mem_take under

section OwnKeys

variable {ownKey : Offer → Key}

theorem taken_filter_eq [DecidableEq Offer]
    (own : ∀ key, ∀ offer ∈ offers key, ownKey offer = key) (key : Key)
    (requests : List Request) :
    (taken keyOf offers requests).filter (fun offer => ownKey offer = key) =
      takenUnder keyOf offers key requests := by
  have ownKeys : ∀ allocated ∈ allocate keyOf offers requests, ∀ offer,
      allocated.2 = some offer → ownKey offer = keyOf allocated.1 := by
    rintro ⟨request, allocated⟩ allocatedMem offer rfl
    exact own _ _ (mem_offers_of_allocated allocatedMem)
  simp only [taken, takenUnder]
  generalize allocate keyOf offers requests = allocations at ownKeys
  induction allocations with
  | nil => rfl
  | cons allocated allocations ih =>
      have rest := ih fun other otherMem => ownKeys other (List.mem_cons_of_mem _ otherMem)
      have first := ownKeys allocated List.mem_cons_self
      rcases allocated with ⟨request, _ | offer⟩
      · simpa [List.filterMap_cons] using rest
      · have isOwn : ownKey offer = keyOf request := first offer rfl
        by_cases same : keyOf request = key
        · simpa [List.filterMap_cons, isOwn, same] using rest
        · simpa [List.filterMap_cons, isOwn, same] using rest

theorem taken_nodup [DecidableEq Offer]
    (own : ∀ key, ∀ offer ∈ offers key, ownKey offer = key)
    (nodup : ∀ key, (offers key).Nodup) (requests : List Request) :
    (taken keyOf offers requests).Nodup := by
  apply List.nodup_iff_count_le_one.mpr
  intro offer
  have underOwn : (takenUnder keyOf offers (ownKey offer) requests).Nodup := by
    rw [takenUnder_eq_take]
    exact (nodup _).sublist (List.take_sublist _ _)
  rw [← taken_filter_eq own (ownKey offer) requests, List.nodup_iff_count_le_one] at underOwn
  have single := underOwn offer
  rwa [List.count_filter (by simp)] at single

end OwnKeys

theorem allocate_isSome_of_enough {requests : List Request}
    (enough : ∀ key, (requests.countP fun request => keyOf request = key) ≤ (offers key).length) :
    ∀ allocated ∈ allocate keyOf offers requests, allocated.2.isSome := by
  induction requests generalizing offers with
  | nil => simp [allocate]
  | cons request rest ih =>
      intro allocated allocatedMem
      rcases List.mem_cons.mp allocatedMem with rfl | later
      · have here := enough (keyOf request)
        rw [List.countP_cons_of_pos (by simp)] at here
        cases offersEq : offers (keyOf request) with
        | nil => simp [offersEq] at here
        | cons offer left => simp
      · apply ih _ allocated later
        intro key
        have before := enough key
        by_cases same : keyOf request = key
        · subst same
          rw [List.countP_cons_of_pos (by simp)] at before
          rw [takeOffer_self, List.length_tail]
          omega
        · rw [List.countP_cons_of_neg (by simpa using same)] at before
          simpa [takeOffer_of_ne _ (Ne.symm same)] using before

end Brunomnia.Library
