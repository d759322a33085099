import Mathlib.Data.List.Count
import Mathlib.Data.List.Nodup
import Mathlib.Data.Nat.BitIndices
import Mathlib.Algebra.BigOperators.Group.List.Basic

/-!
# Marked places

A row of flags tells which places of a resource are taken.  Marking sets the
flags of some places; claims are lists of places that were free when they were
marked, so they stay pairwise disjoint.  A bitmap is the sum of the powers of
two of its places.
-/

namespace DeepcV2x.Foundation.Marks

/-- Set the flags of some places. -/
def mark (flags : List Bool) (places : List Nat) : List Bool :=
  places.foldl (fun flags place => flags.set place true) flags

/-- How many places are free. -/
def free (flags : List Bool) : Nat := flags.count false

/-- Distinct places that are free. -/
def FreeAt (flags : List Bool) (places : List Nat) : Prop :=
  places.Nodup ∧ ∀ place ∈ places, flags[place]? = some false

@[simp]
theorem mark_nil (flags : List Bool) : mark flags [] = flags := rfl

@[simp]
theorem mark_cons (flags : List Bool) (place : Nat) (places : List Nat) :
    mark flags (place :: places) = mark (flags.set place true) places := rfl

@[simp]
theorem mark_length (flags : List Bool) (places : List Nat) :
    (mark flags places).length = flags.length := by
  induction places generalizing flags with
  | nil => rfl
  | cons place rest ih => simp [ih]

theorem getElem?_mark (flags : List Bool) (places : List Nat) (place : Nat) :
    (mark flags places)[place]? =
      if place ∈ places ∧ place < flags.length then some true else flags[place]? := by
  induction places generalizing flags with
  | nil => simp
  | cons first rest ih =>
      rw [mark_cons, ih, List.length_set, List.getElem?_set]
      by_cases later : place ∈ rest ∧ place < flags.length
      · simp [later]
      · by_cases same : first = place
        · subst same
          by_cases inside : first < flags.length
          · simp [inside]
          · simp [inside]
        · have hne : place ≠ first := fun h => same h.symm
          simp [later, same, hne]

theorem taken_mark {flags : List Bool} {places : List Nat} {place : Nat}
    (htaken : flags[place]? = some true) : (mark flags places)[place]? = some true := by
  rw [getElem?_mark]
  split
  · rfl
  · exact htaken

theorem FreeAt.lt_length {flags : List Bool} {places : List Nat} (hfree : FreeAt flags places)
    {place : Nat} (hmem : place ∈ places) : place < flags.length :=
  (List.getElem?_eq_some_iff.mp (hfree.2 place hmem)).1

theorem FreeAt.mark {flags : List Bool} {places : List Nat} (hfree : FreeAt flags places)
    {place : Nat} (hmem : place ∈ places) : (mark flags places)[place]? = some true := by
  rw [getElem?_mark, if_pos ⟨hmem, hfree.lt_length hmem⟩]

theorem FreeAt.nil (flags : List Bool) : FreeAt flags [] :=
  ⟨List.nodup_nil, fun _ hmem => absurd hmem List.not_mem_nil⟩

/-- The first of free places can be marked before the others. -/
theorem freeAt_cons {flags : List Bool} {place : Nat} {rest : List Nat}
    (hplace : flags[place]? = some false) (hrest : FreeAt (flags.set place true) rest) :
    FreeAt flags (place :: rest) := by
  have hother : ∀ other ∈ rest, other ≠ place ∧ flags[other]? = some false := by
    intro other hmem
    have hset := hrest.2 other hmem
    rw [List.getElem?_set] at hset
    by_cases same : place = other
    · rw [if_pos same] at hset
      split at hset <;> cases hset
    · rw [if_neg same] at hset
      exact ⟨fun h => same h.symm, hset⟩
  refine ⟨List.nodup_cons.mpr ⟨fun hmem => (hother place hmem).1 rfl, hrest.1⟩, ?_⟩
  intro other hmem
  rcases List.mem_cons.mp hmem with rfl | hmem
  · exact hplace
  · exact (hother other hmem).2

theorem freeAt_of_cons {flags : List Bool} {place : Nat} {rest : List Nat}
    (hfree : FreeAt flags (place :: rest)) : FreeAt (flags.set place true) rest := by
  obtain ⟨hnot, hnodup⟩ := List.nodup_cons.mp hfree.1
  refine ⟨hnodup, fun other hmem => ?_⟩
  have hne : place ≠ other := fun same => hnot (same ▸ hmem)
  rw [List.getElem?_set_ne hne]
  exact hfree.2 other (List.mem_cons_of_mem _ hmem)

theorem free_set {flags : List Bool} {place : Nat} (hplace : flags[place]? = some false) :
    free (flags.set place true) + 1 = free flags := by
  induction flags generalizing place with
  | nil => simp at hplace
  | cons flag rest ih =>
      cases place with
      | zero =>
          obtain rfl : flag = false := by simpa using hplace
          simp [free]
      | succ place =>
          have hrest := @ih place (by simpa using hplace)
          simp only [free, List.set_cons_succ, List.count_cons] at hrest ⊢
          omega

/-- Marking free places takes as many away. -/
theorem free_mark {flags : List Bool} {places : List Nat} (hfree : FreeAt flags places) :
    free (mark flags places) + places.length = free flags := by
  induction places generalizing flags with
  | nil => rfl
  | cons place rest ih =>
      have hset := free_set (hfree.2 place List.mem_cons_self)
      have hrest := ih (freeAt_of_cons hfree)
      rw [mark_cons, List.length_cons]
      omega

theorem free_eq_zero {flags : List Bool} (hall : ∀ place : Nat, flags[place]? ≠ some false) :
    free flags = 0 := by
  refine List.count_eq_zero.mpr fun hmem => ?_
  obtain ⟨place, hplace⟩ := List.mem_iff_getElem?.mp hmem
  exact hall place hplace

theorem free_le_length (flags : List Bool) : free flags ≤ flags.length := List.count_le_length

@[simp]
theorem free_replicate (size : Nat) : free (List.replicate size false) = size :=
  List.count_replicate_self

/-! ## Claims -/

/-- Lists of places that share no place and are all taken. -/
structure Claims (flags : List Bool) (claims : List (List Nat)) : Prop where
  apart : claims.Pairwise List.Disjoint
  taken : ∀ places ∈ claims, ∀ place ∈ places, flags[place]? = some true

theorem Claims.nil (flags : List Bool) : Claims flags [] :=
  ⟨List.Pairwise.nil, fun _ hmem => absurd hmem List.not_mem_nil⟩

/-- Free places become a further claim. -/
theorem Claims.snoc {flags : List Bool} {claims : List (List Nat)} (held : Claims flags claims)
    {places claimed : List Nat} (hfree : FreeAt flags places)
    (hclaimed : ∀ place, place ∈ claimed ↔ place ∈ places) :
    Claims (mark flags places) (claims ++ [claimed]) := by
  constructor
  · refine List.pairwise_append.mpr ⟨held.apart, List.pairwise_singleton _ _, ?_⟩
    intro earlier hearlier last hlast place hmem hin
    obtain rfl := List.mem_singleton.mp hlast
    have htaken := held.taken earlier hearlier place hmem
    rw [hfree.2 place ((hclaimed place).mp hin)] at htaken
    cases htaken
  · intro other hother place hmem
    rcases List.mem_append.mp hother with hold | hlast
    · exact taken_mark (held.taken other hold place hmem)
    · obtain rfl := List.mem_singleton.mp hlast
      exact hfree.mark ((hclaimed place).mp hmem)

/-! ## Bitmaps -/

/-- The bitmap of places that differ. -/
def maskOf (places : List Nat) : Nat := (places.map fun place => 2 ^ place).sum

theorem testBit_maskOf {places : List Nat} (hnodup : places.Nodup) (place : Nat) :
    (maskOf places).testBit place = true ↔ place ∈ places := by
  have hperm : (places.mergeSort (· ≤ ·)).Perm places := List.mergeSort_perm places _
  have hsorted : (places.mergeSort (· ≤ ·)).SortedLT := by
    have hle : (places.mergeSort (· ≤ ·)).Pairwise (· ≤ ·) := List.pairwise_mergeSort' (· ≤ ·) places
    exact (hle.and (hperm.nodup_iff.mpr hnodup)).imp (fun h => lt_of_le_of_ne h.1 h.2) |>.sortedLT
  have hsum : maskOf places = ((places.mergeSort (· ≤ ·)).map (2 ^ ·)).sum :=
    ((hperm.map _).sum_eq).symm
  rw [hsum, ← Nat.mem_bitIndices, Nat.bitIndices_sum_map_two_pow hsorted]
  exact hperm.mem_iff

end DeepcV2x.Foundation.Marks
