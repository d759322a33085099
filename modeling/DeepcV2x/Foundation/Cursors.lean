import Mathlib.Data.Nat.Find
import Mathlib.Order.Nat
import Mathlib.Order.Lattice

/-!
# The last key at or below a bound

A list of keys in nondecreasing order read as a lookup table: `lastAtMost` is
the greatest index whose key does not exceed the bound.  Where two neighbours
enclose the bound, their position is that index, however it was found.
-/

namespace DeepcV2x

variable {α : Type*} [LinearOrder α]

/-- Whether the table has a key at `i` and that key is at most `bound`. -/
def atMostAt (keys : List α) (bound : α) (i : Nat) : Bool :=
  keys[i]?.any fun key => decide (key ≤ bound)

/-- The greatest index whose key is at most `bound`; `0` where there is none. -/
def lastAtMost (keys : List α) (bound : α) : Nat :=
  Nat.findGreatest (fun i => atMostAt keys bound i = true) (keys.length - 1)

@[simp]
theorem atMostAt_iff {keys : List α} {bound : α} {i : Nat} :
    atMostAt keys bound i = true ↔ ∃ key, keys[i]? = some key ∧ key ≤ bound := by
  simp [atMostAt, Option.any_eq_true]

theorem lt_length_of_atMostAt {keys : List α} {bound : α} {i : Nat}
    (below : atMostAt keys bound i = true) : i < keys.length := by
  obtain ⟨key, hkey, -⟩ := atMostAt_iff.mp below
  exact (List.getElem?_eq_some_iff.mp hkey).1

/-- Every index with a key at or below the bound is at most `lastAtMost`. -/
theorem le_lastAtMost {keys : List α} {bound : α} {i : Nat}
    (below : atMostAt keys bound i = true) : i ≤ lastAtMost keys bound :=
  Nat.le_findGreatest (Nat.le_sub_one_of_lt (lt_length_of_atMostAt below)) below

theorem atMostAt_lastAtMost {keys : List α} {bound : α} {i : Nat}
    (below : atMostAt keys bound i = true) :
    atMostAt keys bound (lastAtMost keys bound) = true :=
  Nat.findGreatest_spec (P := fun i => atMostAt keys bound i = true)
    (Nat.le_sub_one_of_lt (lt_length_of_atMostAt below)) below

/-! ## Tables in order -/

theorem key_le_key {keys : List α} (sorted : keys.Pairwise (· ≤ ·)) {i j : Nat} {low high : α}
    (hlow : keys[i]? = some low) (hhigh : keys[j]? = some high) (hij : i ≤ j) : low ≤ high := by
  obtain ⟨hi, rfl⟩ := List.getElem?_eq_some_iff.mp hlow
  obtain ⟨hj, rfl⟩ := List.getElem?_eq_some_iff.mp hhigh
  rcases Nat.lt_or_eq_of_le hij with hlt | rfl
  · exact List.pairwise_iff_getElem.mp sorted i j hi hj hlt
  · exact le_refl _

/-- In a table in order the keys at or below a bound fill an initial segment. -/
theorem atMostAt_of_le {keys : List α} (sorted : keys.Pairwise (· ≤ ·)) {bound : α} {i j : Nat}
    (below : atMostAt keys bound j = true) (hij : i ≤ j) : atMostAt keys bound i = true := by
  obtain ⟨high, hhigh, hle⟩ := atMostAt_iff.mp below
  have hi : i < keys.length := hij.trans_lt (lt_length_of_atMostAt below)
  have hlow : keys[i]? = some keys[i] := List.getElem?_eq_getElem hi
  exact atMostAt_iff.mpr ⟨_, hlow, (key_le_key sorted hlow hhigh hij).trans hle⟩

theorem atMostAt_iff_le_lastAtMost {keys : List α} (sorted : keys.Pairwise (· ≤ ·)) {bound : α}
    (first : atMostAt keys bound 0 = true) (i : Nat) :
    atMostAt keys bound i = true ↔ i ≤ lastAtMost keys bound := by
  constructor
  · exact le_lastAtMost
  · exact atMostAt_of_le sorted (atMostAt_lastAtMost first)

end DeepcV2x
