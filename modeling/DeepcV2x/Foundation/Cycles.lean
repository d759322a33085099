import Mathlib.Data.Nat.Count
import Mathlib.Tactic.Ring

/-!
# Counting along a repeated list

How often an item occurs before a position of a list that is repeated without
end.
-/

namespace DeepcV2x.Foundation.Cycles

variable {Item : Type*}

/-- The item at a position of the repeated list. -/
def cycled (items : List Item) (position : Nat) : Option Item :=
  items[position % items.length]?

theorem cycled_of_lt {items : List Item} {position : Nat} (hlt : position < items.length) :
    cycled items position = items[position]? := by
  rw [cycled, Nat.mod_eq_of_lt hlt]

theorem cycled_add_length (items : List Item) (rounds position : Nat) :
    cycled items (items.length * rounds + position) = cycled items position := by
  rw [cycled, Nat.mul_add_mod, cycled]

/-! ## Counting -/

variable [DecidableEq Item]

/-- How many positions before a bound hold an item. -/
def countBefore (items : List Item) (item : Item) (bound : Nat) : Nat :=
  Nat.count (fun position => cycled items position = some item) bound

theorem countBefore_zero (items : List Item) (item : Item) : countBefore items item 0 = 0 := rfl

theorem countBefore_succ (items : List Item) (item : Item) (bound : Nat) :
    countBefore items item (bound + 1) =
      countBefore items item bound + if cycled items bound = some item then 1 else 0 := by
  rw [countBefore, Nat.count_succ, countBefore]

theorem countBefore_mono (items : List Item) (item : Item) {bound later : Nat}
    (hle : bound ≤ later) : countBefore items item bound ≤ countBefore items item later :=
  Nat.count_monotone _ hle

/-- One round counts the occurrences in the list. -/
theorem countBefore_length (items : List Item) (item : Item) :
    countBefore items item items.length = items.count item := by
  have hbefore : ∀ bound ≤ items.length,
      countBefore items item bound = (items.take bound).count item := by
    intro bound hbound
    induction bound with
    | zero => rfl
    | succ bound ih =>
        have hlt : bound < items.length := hbound
        rw [countBefore_succ, ih (Nat.le_of_succ_le hbound), cycled_of_lt hlt,
          List.getElem?_eq_getElem hlt, List.take_succ_eq_append_getElem hlt, List.count_append,
          List.count_singleton]
        simp only [Option.some.injEq, beq_iff_eq]
  rw [hbefore items.length le_rfl, List.take_length]

/-- Whole rounds contribute their counts. -/
theorem countBefore_rounds (items : List Item) (item : Item) (rounds position : Nat) :
    countBefore items item (items.length * rounds + position) =
      items.count item * rounds + countBefore items item position := by
  induction rounds with
  | zero => rw [Nat.mul_zero, Nat.mul_zero, Nat.zero_add, Nat.zero_add]
  | succ rounds ih =>
      have hsplit : items.length * (rounds + 1) + position =
          items.length + (items.length * rounds + position) := by ring
      rw [hsplit, countBefore, Nat.count_add, ← countBefore, countBefore_length]
      have hshift : ∀ k, cycled items (items.length + k) = cycled items k := by
        intro k
        have := cycled_add_length items 1 k
        rwa [Nat.mul_one] at this
      simp only [hshift]
      rw [← countBefore, ih]
      ring

end DeepcV2x.Foundation.Cycles
