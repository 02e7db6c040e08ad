import Mathlib

/-!
# Readers that go letter by letter

A reader takes the letters of a text one after the other, each of which may change its state and
give some letters out, or is refused. Texts that are put together from codes, each of which the
reader leaves in the state it found, give out what the codes give out, one after the other.
-/

namespace Brunomnia.Library

universe u v w

/-- A step of a reader: its next state and what it gives out, unless it refuses the letter. -/
abbrev Reader (State : Type u) (Symbol : Type v) (Out : Type w) :=
  State → Symbol → Option (State × List Out)

namespace Reader

variable {State : Type u} {Symbol : Type v} {Out : Type w} (step : Reader State Symbol Out)

def run : State → List Symbol → Option (State × List Out)
  | state, [] => some (state, [])
  | state, letter :: rest =>
      (step state letter).bind fun (next, given) =>
        (run next rest).map fun (last, later) => (last, given ++ later)

/-- What a whole text gives out, if it ends in a state that it may end in. -/
def read (start : State) (ends : State → Bool) (text : List Symbol) : Option (List Out) :=
  (run step start text).bind fun (last, given) => if ends last then some given else none

@[simp]
theorem run_nil (state : State) : run step state [] = some (state, []) := rfl

variable {step}

theorem run_cons {state next : State} {letter : Symbol} {given : List Out}
    (goes : step state letter = some (next, given)) (rest : List Symbol) :
    run step state (letter :: rest) =
      (run step next rest).map fun (last, later) => (last, given ++ later) := by
  rw [run, goes, Option.bind_some]

theorem run_append {state middle : State} {front : List Symbol} {given : List Out}
    (reads : run step state front = some (middle, given)) (rest : List Symbol) :
    run step state (front ++ rest) =
      (run step middle rest).map fun (last, later) => (last, given ++ later) := by
  induction front generalizing state given with
  | nil =>
      cases reads
      simp
  | cons letter front ih =>
      rw [run, Option.bind_eq_some_iff] at reads
      rcases reads with ⟨⟨next, first⟩, goes, later⟩
      rcases Option.map_eq_some_iff.mp later with ⟨⟨last, others⟩, isLast, same⟩
      cases same
      rw [List.cons_append, run_cons goes, ih isLast, Option.map_map]
      cases run step middle rest <;> simp

theorem run_flatMap {Letter : Type*} {state : State} {code : Letter → List Symbol}
    {value : Letter → List Out} {letters : List Letter}
    (reads : ∀ letter ∈ letters, run step state (code letter) = some (state, value letter)) :
    run step state (letters.flatMap code) = some (state, letters.flatMap value) := by
  induction letters with
  | nil => rfl
  | cons letter letters ih =>
      rw [List.flatMap_cons, run_append (reads letter List.mem_cons_self),
        ih fun later laterMem => reads later (List.mem_cons_of_mem _ laterMem)]
      rfl

theorem read_enclosed {start inside last : State} {ends : State → Bool} {opening closing : Symbol}
    {text : List Symbol} {given : List Out} (opens : step start opening = some (inside, []))
    (reads : run step inside text = some (inside, given))
    (closes : step inside closing = some (last, [])) (isEnd : ends last = true) :
    read step start ends ([opening] ++ text ++ [closing]) = some given := by
  have whole : run step start ([opening] ++ text ++ [closing]) = some (last, given) := by
    rw [List.append_assoc, List.singleton_append, run_cons opens, run_append reads,
      run_cons closes, run_nil]
    simp
  rw [read, whole, Option.bind_some]
  exact if_pos isEnd

theorem run_balance {weight : Symbol → ℕ} {worth : Out → ℕ} {owed : State → ℕ}
    (balanced : ∀ state letter next given, step state letter = some (next, given) →
      weight letter + owed state = (given.map worth).sum + owed next)
    {state last : State} {text : List Symbol} {given : List Out}
    (reads : run step state text = some (last, given)) :
    (text.map weight).sum + owed state = (given.map worth).sum + owed last := by
  induction text generalizing state given with
  | nil =>
      cases reads
      rfl
  | cons letter text ih =>
      rw [run, Option.bind_eq_some_iff] at reads
      rcases reads with ⟨⟨next, first⟩, goes, later⟩
      rcases Option.map_eq_some_iff.mp later with ⟨⟨final, others⟩, isLast, same⟩
      cases same
      have firstBalanced := balanced _ _ _ _ goes
      have restBalanced := ih isLast
      rw [List.map_cons, List.sum_cons, List.map_append, List.sum_append]
      omega

end Reader

end Brunomnia.Library
