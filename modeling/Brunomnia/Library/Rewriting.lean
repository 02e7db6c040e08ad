import Mathlib.Data.List.Induction
import Brunomnia.Library.Stores

/-!
# Changes that are made again

What a store keeps under a key after changes is what the last change of that key left, whatever
was there before. So changes of which some had been made already, when they are all made again,
leave what they leave when they are made once.
-/

namespace Brunomnia.Library.Store

universe u v

variable {Key : Type u} {Value : Type v}

def Change.key : Change Key Value → Key
  | remove key => key
  | write key _ => key

/-- What a change leaves under its key. -/
def Change.left : Change Key Value → Option Value
  | remove _ => none
  | write _ value => some value

variable [DecidableEq Key]

theorem read_apply_self (store : Store Key Value) (change : Change Key Value) :
    (store.apply change).read change.key = change.left := by
  cases change with
  | remove key => exact read_remove_self store key
  | write key value => exact read_write_self store key value

theorem read_apply_of_ne {store : Store Key Value} {change : Change Key Value} {key : Key}
    (different : change.key ≠ key) : (store.apply change).read key = store.read key := by
  cases change with
  | remove => exact read_remove_of_ne different.symm
  | write => exact read_write_of_ne different.symm

theorem read_applied_of_untouched {changes : List (Change Key Value)} {key : Key}
    (untouched : ∀ change ∈ changes, change.key ≠ key) (store : Store Key Value) :
    (changes.foldl apply store).read key = store.read key := by
  induction changes generalizing store with
  | nil => rfl
  | cons change changes ih =>
      rw [List.foldl_cons,
        ih fun later laterMem => untouched later (List.mem_cons_of_mem _ laterMem)]
      exact read_apply_of_ne (untouched change List.mem_cons_self)

theorem read_applied_of_touched {changes : List (Change Key Value)} {key : Key}
    (touched : ∃ change ∈ changes, change.key = key) (store other : Store Key Value) :
    (changes.foldl apply store).read key = (changes.foldl apply other).read key := by
  induction changes using List.reverseRecOn with
  | nil => simp at touched
  | append_singleton changes change ih =>
      simp only [List.foldl_append, List.foldl_cons, List.foldl_nil]
      by_cases isKey : change.key = key
      · subst isKey
        rw [read_apply_self, read_apply_self]
      · rw [read_apply_of_ne isKey, read_apply_of_ne isKey]
        apply ih
        rcases touched with ⟨earlier, earlierMem, sameKey⟩
        rcases List.mem_append.mp earlierMem with inChanges | isLast
        · exact ⟨earlier, inChanges, sameKey⟩
        · rw [List.mem_singleton.mp isLast] at sameKey
          exact absurd sameKey isKey

theorem read_applied_again {made changes : List (Change Key Value)} (listed : made ⊆ changes)
    (store : Store Key Value) (key : Key) :
    (changes.foldl apply (made.foldl apply store)).read key =
      (changes.foldl apply store).read key := by
  by_cases touched : ∃ change ∈ changes, change.key = key
  · exact read_applied_of_touched touched _ _
  · have untouched : ∀ change ∈ changes, change.key ≠ key := fun change changeMem isKey =>
      touched ⟨change, changeMem, isKey⟩
    rw [read_applied_of_untouched untouched, read_applied_of_untouched untouched,
      read_applied_of_untouched fun change changeMem => untouched change (listed changeMem)]

end Brunomnia.Library.Store
