import Mathlib.Order.Defs.LinearOrder
import Mathlib.Tactic.Order

/-!
# The order of a binary heap

A heap in level order keeps its root at index 1 and the children of an index
at twice the index and one behind.  An exchange along an edge moves the only
place where the order may be broken up or down.
-/

namespace DeepcV2x.Foundation.HeapOrder

variable {Key : Type*} [LinearOrder Key]

/-- No key is smaller than the key of its parent. -/
def HeapOrdered (size : Nat) (key : Nat → Key) : Prop :=
  ∀ index, 2 ≤ index → index < size → key (index / 2) ≤ key index

/-- Only the edge from the hole to its parent may be broken. -/
structure UpReady (size : Nat) (key : Nat → Key) (hole : Nat) : Prop where
  others : ∀ index, 2 ≤ index → index < size → index ≠ hole → key (index / 2) ≤ key index
  children : ∀ child, 2 ≤ hole → child / 2 = hole → child < size → key (hole / 2) ≤ key child

/-- Only the edges from the hole to its children may be broken. -/
structure DownReady (size : Nat) (key : Nat → Key) (hole : Nat) : Prop where
  others : ∀ index, 2 ≤ index → index < size → index / 2 ≠ hole → key (index / 2) ≤ key index
  children : ∀ child, 2 ≤ hole → child / 2 = hole → child < size → key (hole / 2) ≤ key child

/-- Two indices exchange their keys. -/
def exchanged (key : Nat → Key) (first second index : Nat) : Key :=
  if index = first then key second else if index = second then key first else key index

section Exchanged

variable {key : Nat → Key} {first second index : Nat}

omit [LinearOrder Key] in
theorem exchanged_first : exchanged key first second first = key second := if_pos rfl

omit [LinearOrder Key] in
theorem exchanged_second : exchanged key first second second = key first := by
  rw [exchanged]
  split
  next heq => rw [heq]
  next => exact if_pos rfl

omit [LinearOrder Key] in
theorem exchanged_other (hfirst : index ≠ first) (hsecond : index ≠ second) :
    exchanged key first second index = key index := by
  rw [exchanged, if_neg hfirst, if_neg hsecond]

end Exchanged

/-! ## The root -/

/-- The root of a heap holds a least key. -/
theorem HeapOrdered.root_le {size : Nat} {key : Nat → Key} (ordered : HeapOrdered size key)
    {index : Nat} (hpos : 1 ≤ index) (hlt : index < size) : key 1 ≤ key index := by
  induction index using Nat.strongRecOn with
  | ind index ih =>
      rcases Nat.lt_or_eq_of_le hpos with hbig | rfl
      · have hparent := ih (index / 2) (by omega) (by omega) (by omega)
        exact hparent.trans (ordered index hbig hlt)
      · exact le_rfl

/-! ## Moving up -/

section Up

variable {size : Nat} {key : Nat → Key} {hole : Nat}

theorem UpReady.finish (ready : UpReady size key hole)
    (hstop : 2 ≤ hole → key (hole / 2) ≤ key hole) : HeapOrdered size key := by
  intro index hbig hlt
  by_cases hhole : index = hole
  · subst hhole
    exact hstop hbig
  · exact ready.others index hbig hlt hhole

/-- A smaller key changes place with its parent. -/
theorem UpReady.move (ready : UpReady size key hole) (hbig : 2 ≤ hole) (hlt : hole < size)
    (hless : key hole < key (hole / 2)) :
    UpReady size (exchanged key hole (hole / 2)) (hole / 2) := by
  constructor
  · intro index hindex hsize hne
    by_cases hhole : index = hole
    · subst hhole
      rw [exchanged_first, exchanged_second]
      exact hless.le
    · rw [exchanged_other hhole hne]
      by_cases hchild : index / 2 = hole
      · rw [hchild, exchanged_first]
        exact ready.children index hbig hchild hsize
      · by_cases hsibling : index / 2 = hole / 2
        · rw [hsibling, exchanged_second]
          have := ready.others index hindex hsize hhole
          rw [hsibling] at this
          exact hless.le.trans this
        · rw [exchanged_other hchild hsibling]
          exact ready.others index hindex hsize hhole
  · intro child hparent hchild hsize
    have hgrand := ready.others (hole / 2) hparent (by omega) (by omega)
    rw [exchanged_other (by omega) (by omega)]
    by_cases hhole : child = hole
    · rw [hhole, exchanged_first]
      exact hgrand
    · rw [exchanged_other hhole (by omega)]
      have := ready.others child (by omega) hsize hhole
      rw [hchild] at this
      exact hgrand.trans this

end Up

/-! ## Moving down -/

section Down

variable {size : Nat} {key : Nat → Key} {hole : Nat}

theorem DownReady.finish (ready : DownReady size key hole)
    (hstop : ∀ child, 2 ≤ child → child / 2 = hole → child < size → key hole ≤ key child) :
    HeapOrdered size key := by
  intro index hbig hlt
  by_cases hhole : index / 2 = hole
  · rw [hhole]
    exact hstop index hbig hhole hlt
  · exact ready.others index hbig hlt hhole

/-- The smaller child changes place with a key that is not smaller. -/
theorem DownReady.move (ready : DownReady size key hole) {child : Nat} (hpos : 1 ≤ hole)
    (hchild : child / 2 = hole) (hlt : child < size) (hle : key child ≤ key hole)
    (hleast : ∀ other, 2 ≤ other → other / 2 = hole → other < size → key child ≤ key other) :
    DownReady size (exchanged key hole child) child := by
  constructor
  · intro index hindex hsize hne
    by_cases hbelow : index / 2 = hole
    · rw [hbelow, exchanged_first]
      by_cases hsame : index = child
      · rw [hsame, exchanged_second]
        exact hle
      · rw [exchanged_other (by omega) hsame]
        exact hleast index hindex hbelow hsize
    · rw [exchanged_other hbelow hne]
      by_cases hhole : index = hole
      · rw [hhole, exchanged_first]
        exact ready.children child (hhole ▸ hindex) hchild hlt
      · rw [exchanged_other hhole (by omega)]
        exact ready.others index hindex hsize hbelow
  · intro grandchild hbig hgrand hsize
    rw [hchild, exchanged_first, exchanged_other (by omega) (by omega)]
    have := ready.others grandchild (by omega) hsize (by omega)
    rwa [hgrand] at this

end Down

/-! ## Growing and shrinking -/

/-- A key appended at the end may only be too small for its parent. -/
theorem HeapOrdered.append {size : Nat} {key grown : Nat → Key} (ordered : HeapOrdered size key)
    (hsame : ∀ index, index < size → grown index = key index) : UpReady (size + 1) grown size := by
  constructor
  · intro index hbig hlt hne
    rw [hsame index (by omega), hsame (index / 2) (by omega)]
    exact ordered index hbig (by omega)
  · intro child hbig hchild hlt
    omega

/-- The last key, put into a hole it is not too small for, may only be too large there. -/
theorem HeapOrdered.refill {size hole : Nat} {key filled : Nat → Key}
    (ordered : HeapOrdered (size + 1) key)
    (hsame : ∀ index, index < size → index ≠ hole → filled index = key index)
    (hhole : hole < size → filled hole = key size)
    (hfits : 2 ≤ hole → hole < size → key (hole / 2) ≤ key size) : DownReady size filled hole := by
  constructor
  · intro index hbig hlt hne
    rw [hsame (index / 2) (by omega) hne]
    by_cases heq : index = hole
    · subst heq
      rw [hhole hlt]
      exact hfits hbig hlt
    · rw [hsame index hlt heq]
      exact ordered index hbig (by omega)
  · intro child hbig hchild hlt
    rw [hsame (hole / 2) (by omega) (by omega), hsame child hlt (by omega)]
    have hparent := ordered hole hbig (by omega)
    have hedge := ordered child (by omega) (by omega)
    rw [hchild] at hedge
    exact hparent.trans hedge

end DeepcV2x.Foundation.HeapOrder
