import Mathlib.Data.List.Rotate
import Mathlib.Data.Nat.ModEq

/-!
# Rings of cells

A list of cells with the place of its first one.  Seen from that place the ring
is a list again, and writing a cell and moving the first place are a write and
a shift of that list.
-/

namespace DeepcV2x.Foundation.Rings

variable {Cell : Type*} {cells : List Cell} {head : Nat}

/-- A cell at a distance from the first one. -/
theorem rotate_getElem? {distance : Nat} (hdistance : distance < cells.length) :
    (cells.rotate head)[distance]? = cells[(head + distance) % cells.length]? := by
  rw [List.getElem?_rotate hdistance, Nat.add_comm]

/-- Writing the cell at a distance from the first one. -/
theorem rotate_set {distance : Nat} (hdistance : distance < cells.length) (cell : Cell) :
    (cells.set ((head + distance) % cells.length) cell).rotate head =
      (cells.rotate head).set distance cell := by
  have hpos : 0 < cells.length := Nat.zero_lt_of_lt hdistance
  refine List.ext_getElem? fun place => ?_
  rcases Nat.lt_or_ge place cells.length with hplace | hge
  · have hsame : (head + distance) % cells.length = (head + place) % cells.length ↔
        distance = place := by
      refine ⟨fun heq => ?_, fun heq => by rw [heq]⟩
      have hmod : Nat.ModEq cells.length distance place := Nat.ModEq.add_left_cancel' head heq
      exact Nat.ModEq.eq_of_lt_of_lt hmod hdistance hplace
    rw [rotate_getElem? (by rwa [List.length_set]), List.length_set, List.getElem?_set,
      List.getElem?_set, List.length_rotate, if_pos (Nat.mod_lt _ hpos), if_pos hdistance,
      rotate_getElem? hplace]
    exact if_congr hsame rfl rfl
  · rw [List.getElem?_eq_none (by rwa [List.length_rotate, List.length_set]),
      List.getElem?_eq_none (by rwa [List.length_set, List.length_rotate])]

/-- Writing the first cell and moving behind it takes it to the end. -/
theorem rotate_set_next (hhead : head < cells.length) (cell : Cell) :
    (cells.set head cell).rotate ((head + 1) % cells.length) =
      (cells.rotate head).tail ++ [cell] := by
  have hpos : 0 < cells.length := Nat.zero_lt_of_lt hhead
  have hset : (cells.set head cell).rotate head = (cells.rotate head).set 0 cell := by
    have hzero := @rotate_set Cell cells head 0 hpos cell
    rwa [Nat.add_zero, Nat.mod_eq_of_lt hhead] at hzero
  have hlength : (cells.set head cell).length = cells.length := List.length_set
  rw [← hlength, List.rotate_mod, ← List.rotate_rotate, hset]
  cases hview : cells.rotate head with
  | nil =>
      have hempty := congrArg List.length hview
      rw [List.length_rotate] at hempty
      exact absurd hempty (Nat.ne_of_gt hpos)
  | cons first rest => rw [List.set_cons_zero, List.rotate_cons_succ, List.rotate_zero, List.tail_cons]

end DeepcV2x.Foundation.Rings
