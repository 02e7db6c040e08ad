import Mathlib

/-!
# Budgets

Lists compete for a budget. Each of them gets the longest start that fits in what is left and
within a limit of its own, and takes what that start costs out of the budget.
-/

namespace Brunomnia.Library

universe u

variable {Item : Type u} (size : Item → ℕ)

/-- What the items of a list cost together. -/
def cost (items : List Item) : ℕ :=
  (items.map size).sum

/-- The longest start of a list that a budget pays for. -/
def fit : ℕ → List Item → List Item
  | _, [] => []
  | room, item :: rest =>
      if size item ≤ room then item :: fit (room - size item) rest else []

/-- A list with a limit on what may be spent on it. -/
structure Demand (Item : Type u) where
  limit : ℕ
  items : List Item

/-- What a demand gets out of a budget. -/
def Demand.part (room : ℕ) (demand : Demand Item) : List Item :=
  fit size (min demand.limit room) demand.items

def Demand.left (room : ℕ) (demand : Demand Item) : ℕ :=
  room - cost size (demand.part size room)

/-- Serve one demand after the other. -/
def serve (room : ℕ) (demands : List (Demand Item)) : ℕ :=
  demands.foldl (Demand.left size) room

/-- What every demand gets has a property. -/
def EveryPart (holds : List Item → List Item → Prop) : ℕ → List (Demand Item) → Prop
  | _, [] => True
  | room, demand :: rest =>
      holds demand.items (demand.part size room) ∧ EveryPart holds (demand.left size room) rest

instance EveryPart.decidable {holds : List Item → List Item → Prop}
    [∀ items part, Decidable (holds items part)] :
    ∀ room demands, Decidable (EveryPart size holds room demands)
  | _, [] => inferInstanceAs (Decidable True)
  | room, demand :: rest =>
      have : Decidable (EveryPart size holds (demand.left size room) rest) :=
        EveryPart.decidable (demand.left size room) rest
      inferInstanceAs (Decidable (_ ∧ _))

variable {size} {room : ℕ} {items part : List Item}

@[simp]
theorem cost_nil : cost size [] = 0 := rfl

@[simp]
theorem cost_cons (item : Item) (rest : List Item) :
    cost size (item :: rest) = size item + cost size rest := by
  simp [cost]

@[simp]
theorem cost_append (first second : List Item) :
    cost size (first ++ second) = cost size first + cost size second := by
  simp [cost]

theorem cost_map {Other : Type*} (letter : Other → Item) (others : List Other) :
    cost size (others.map letter) = cost (size ∘ letter) others := by
  rw [cost, cost, List.map_map]

theorem cost_eq_zero_iff (positive : ∀ item, 0 < size item) : cost size items = 0 ↔ items = [] := by
  cases items with
  | nil => simp
  | cons item rest =>
      have spent := positive item
      simp only [cost_cons, reduceCtorEq, iff_false]
      omega

/-- The starts of what fits are the starts that fit. -/
theorem start_fit_iff : part <+: fit size room items ↔ part <+: items ∧ cost size part ≤ room := by
  induction items generalizing room part with
  | nil =>
      simp only [fit, List.prefix_nil]
      constructor
      · rintro rfl
        simp
      · exact fun both => both.1
  | cons item rest ih =>
      cases part with
      | nil => simp
      | cons first tail =>
          rw [fit]
          split
          case isTrue fits =>
              rw [List.cons_prefix_cons, List.cons_prefix_cons, ih, cost_cons]
              constructor
              · rintro ⟨rfl, isStart, paid⟩
                exact ⟨⟨rfl, isStart⟩, by omega⟩
              · rintro ⟨⟨rfl, isStart⟩, paid⟩
                exact ⟨rfl, isStart, by omega⟩
          case isFalse wide =>
              simp only [List.prefix_nil, reduceCtorEq, false_iff, not_and]
              intro isStart paid
              rw [cost_cons, (List.cons_prefix_cons.mp isStart).1] at paid
              omega

theorem fit_start (room : ℕ) (items : List Item) : fit size room items <+: items :=
  (start_fit_iff.mp List.prefix_rfl).1

theorem cost_fit_le (room : ℕ) (items : List Item) : cost size (fit size room items) ≤ room :=
  (start_fit_iff.mp List.prefix_rfl).2

theorem fit_eq_self_iff : fit size room items = items ↔ cost size items ≤ room := by
  constructor
  · intro whole
    rw [← whole]
    exact cost_fit_le room items
  · intro paid
    apply List.IsPrefix.eq_of_length_le (fit_start room items)
    exact (start_fit_iff.mpr ⟨List.prefix_rfl, paid⟩).length_le

theorem fit_eq_of_cost (positive : ∀ item, 0 < size item) (start : part <+: items)
    (spent : cost size part = room) : fit size room items = part := by
  rcases start_fit_iff.mpr ⟨start, spent.le⟩ with ⟨rest, isFit⟩
  have paid : cost size (fit size room items) ≤ room := cost_fit_le room items
  rw [← isFit, cost_append] at paid
  have nothing : rest = [] := (cost_eq_zero_iff positive).mp (by omega)
  rw [← isFit, nothing, List.append_nil]

theorem fit_succ (unspent : cost size (fit size (room + 1) items) ≠ room + 1) :
    fit size (room + 1) items = fit size room items := by
  have paid : cost size (fit size (room + 1) items) ≤ room + 1 := cost_fit_le (room + 1) items
  have within : cost size (fit size (room + 1) items) ≤ room := by omega
  have less : cost size (fit size room items) ≤ room := cost_fit_le room items
  apply List.IsPrefix.eq_of_length_le
  · exact start_fit_iff.mpr ⟨fit_start (room + 1) items, within⟩
  · have more : fit size room items <+: fit size (room + 1) items :=
      start_fit_iff.mpr ⟨fit_start room items, by omega⟩
    exact more.length_le

theorem fit_zero (positive : ∀ item, 0 < size item) (items : List Item) :
    fit size 0 items = [] :=
  fit_eq_of_cost positive List.nil_prefix rfl

theorem fit_map {Other : Type*} (letter : Other → Item) (room : ℕ) (others : List Other) :
    (fit (size ∘ letter) room others).map letter = fit size room (others.map letter) := by
  induction others generalizing room with
  | nil => rfl
  | cons other rest ih =>
      rw [List.map_cons, fit, fit, Function.comp_apply]
      split
      · rw [List.map_cons, ih]
      · rfl

/-! ## Demands -/

variable {demand : Demand Item} {demands more : List (Demand Item)}
  {holds : List Item → List Item → Prop}

theorem Demand.cost_part_le (room : ℕ) (demand : Demand Item) :
    cost size (demand.part size room) ≤ min demand.limit room :=
  cost_fit_le _ _

theorem Demand.cost_part_add_left (room : ℕ) (demand : Demand Item) :
    cost size (demand.part size room) + demand.left size room = room := by
  have paid : cost size (demand.part size room) ≤ min demand.limit room :=
    demand.cost_part_le room
  unfold Demand.left
  omega

theorem Demand.part_eq_self_iff :
    demand.part size room = demand.items ↔ cost size demand.items ≤ min demand.limit room :=
  fit_eq_self_iff

theorem serve_zero (demands : List (Demand Item)) : serve size 0 demands = 0 := by
  induction demands with
  | nil => rfl
  | cons demand rest ih =>
      have nothing : demand.left size 0 = 0 := by simp [Demand.left]
      rw [serve, List.foldl_cons, nothing]
      exact ih

theorem everyPart_append :
    EveryPart size holds room (demands ++ more) ↔
      EveryPart size holds room demands ∧ EveryPart size holds (serve size room demands) more := by
  induction demands generalizing room with
  | nil => simp [EveryPart, serve]
  | cons demand rest ih =>
      rw [List.cons_append, EveryPart, EveryPart, ih, and_assoc]
      rfl

end Brunomnia.Library
