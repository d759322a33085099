import Mathlib.Data.List.Basic

/-!
# Deques of bounded length

A deque that is pushed at the back and popped at the front while it is too
long.  After any number of pushes it holds the last items pushed.
-/

namespace DeepcV2x.Foundation.Deques

variable {Item : Type*}

/-- Pop from the front while more than `capacity` items are left. -/
def popWhileLonger (capacity : Nat) : List Item → List Item
  | [] => []
  | head :: tail =>
      if capacity < (head :: tail).length then popWhileLonger capacity tail else head :: tail

/-- The last `count` items of a list, or all of them when there are fewer. -/
def lastItems (count : Nat) (items : List Item) : List Item := items.drop (items.length - count)

theorem popWhileLonger_eq (capacity : Nat) (items : List Item) :
    popWhileLonger capacity items = lastItems capacity items := by
  induction items with
  | nil => rw [popWhileLonger, lastItems, List.drop_nil]
  | cons head tail ih =>
      rw [popWhileLonger, lastItems]
      by_cases hlonger : capacity < (head :: tail).length
      · rw [if_pos hlonger, ih, lastItems]
        rw [List.length_cons] at hlonger ⊢
        rw [show tail.length + 1 - capacity = tail.length - capacity + 1 by omega,
          List.drop_succ_cons]
      · rw [if_neg hlonger, Nat.sub_eq_zero_of_le (Nat.not_lt.mp hlonger), List.drop_zero]

theorem length_lastItems (count : Nat) (items : List Item) :
    (lastItems count items).length = min count items.length := by
  rw [lastItems, List.length_drop]
  omega

/-- Items dropped before a push stay dropped after it. -/
theorem lastItems_snoc (count : Nat) (items : List Item) (item : Item) :
    lastItems count (lastItems count items ++ [item]) = lastItems count (items ++ [item]) := by
  simp only [lastItems, List.length_append, List.length_drop, List.length_singleton]
  rcases Nat.le_total items.length count with hshort | hlong
  · rw [Nat.sub_eq_zero_of_le hshort, List.drop_zero, Nat.sub_zero]
  · rw [← List.drop_append_of_le_length (Nat.sub_le _ _), List.drop_drop]
    congr 1
    omega

/-- A window of a list moves on by one item. -/
theorem window_succ {items : List Item} {start size : Nat} (hfits : start + 1 + size < items.length) :
    (items.drop (start + 1)).take (size + 1) =
      ((items.drop start).take (size + 1)).drop 1 ++ [items[start + 1 + size]] := by
  rw [List.drop_take, List.drop_drop, Nat.add_sub_cancel, List.take_add_one, List.getElem?_drop,
    List.getElem?_eq_getElem hfits]
  rfl

/-- A list that never grows beyond its capacity. -/
structure BoundedDeque (Item : Type*) (capacity : Nat) where
  items : List Item
  bounded : items.length ≤ capacity

namespace BoundedDeque

variable {capacity : Nat}

def empty : BoundedDeque Item capacity := ⟨[], Nat.zero_le _⟩

/-- `push_back`, then `pop_front` while the deque is too long. -/
def push (deque : BoundedDeque Item capacity) (item : Item) : BoundedDeque Item capacity where
  items := popWhileLonger capacity (deque.items ++ [item])
  bounded := by
    rw [popWhileLonger_eq, length_lastItems]
    exact Nat.min_le_left _ _

/-- A deque that holds the last items of a history still does after a push. -/
theorem push_items {deque : BoundedDeque Item capacity} {history : List Item}
    (hitems : deque.items = lastItems capacity history) (item : Item) :
    (deque.push item).items = lastItems capacity (history ++ [item]) := by
  simp only [push, popWhileLonger_eq, hitems, lastItems_snoc]

end BoundedDeque

end DeepcV2x.Foundation.Deques
