import Mathlib.Data.List.Basic

/-!
# Slices of a list

A slice is a part of a list that is found at a place of it.  A part may be read
at a place, and written there in the place of as many items.
-/

namespace DeepcV2x.Foundation.Slices

variable {Item : Type*} {whole part : List Item} {place : Nat}

structure IsSlice (whole : List Item) (place : Nat) (part : List Item) : Prop where
  eq_take : part = (whole.drop place).take part.length
  bound : place + part.length ≤ whole.length

namespace IsSlice

theorem of_take {size : Nat} (hle : place + size ≤ whole.length) :
    IsSlice whole place ((whole.drop place).take size) := by
  have hlength : ((whole.drop place).take size).length = size := by
    rw [List.length_take, List.length_drop]
    omega
  exact ⟨by rw [hlength], by omega⟩

/-- A slice is found in a longer list too. -/
theorem extend (isSlice : IsSlice whole place part) (more : List Item) :
    IsSlice (whole ++ more) place part := by
  have hbound := isSlice.bound
  refine ⟨?_, by rw [List.length_append]; omega⟩
  rw [List.drop_append_of_le_length (by omega),
    List.take_append_of_le_length (by rw [List.length_drop]; omega)]
  exact isSlice.eq_take

protected theorem drop (isSlice : IsSlice whole place part) {size : Nat}
    (hle : size ≤ part.length) : IsSlice whole (place + size) (part.drop size) := by
  have hbound := isSlice.bound
  refine ⟨?_, by rw [List.length_drop]; omega⟩
  conv_lhs => rw [isSlice.eq_take]
  rw [List.drop_take, List.drop_drop, List.length_drop]

protected theorem take (isSlice : IsSlice whole place part) (size : Nat) :
    IsSlice whole place (part.take size) := by
  have hbound := isSlice.bound
  refine ⟨?_, by rw [List.length_take]; omega⟩
  conv_lhs => rw [isSlice.eq_take]
  rw [List.take_take, List.length_take]

/-- What is taken from the place of a slice begins with it. -/
theorem take_add (isSlice : IsSlice whole place part) (size : Nat) :
    (whole.drop place).take (part.length + size) =
      part ++ (whole.drop (place + part.length)).take size := by
  rw [List.take_add, ← isSlice.eq_take, List.drop_drop]

/-- A slice is appended to what is before it. -/
theorem take_append (isSlice : IsSlice whole place part) :
    whole.take place ++ part = whole.take (place + part.length) := by
  conv_lhs => rw [isSlice.eq_take]
  exact List.take_add.symm

/-- The part of a slice behind what is there already is appended to it. -/
theorem take_append_drop (isSlice : IsSlice whole place part) {last : Nat} (hle : place ≤ last)
    (hlast : last ≤ place + part.length) :
    whole.take last ++ part.drop (last - place) = whole.take (place + part.length) := by
  have happend := (isSlice.drop (Nat.sub_le_of_le_add (Nat.add_comm .. ▸ hlast))).take_append
  rw [List.length_drop, Nat.add_sub_cancel' hle] at happend
  rw [happend]
  congr 1
  omega

end IsSlice

/-! ## Parts that are read and written -/

def readPart (data : List Item) (offset size : Nat) : List Item := (data.drop offset).take size

def splice (data : List Item) (offset : Nat) (items : List Item) : List Item :=
  data.take offset ++ items ++ data.drop (offset + items.length)

theorem readPart_getElem? (data : List Item) (offset size index : Nat) :
    (readPart data offset size)[index]? = if index < size then data[offset + index]? else none := by
  rw [readPart, List.getElem?_take]
  split
  · rw [List.getElem?_drop]
  · rfl

theorem readPart_length {data : List Item} {offset size : Nat}
    (hinside : offset + size ≤ data.length) : (readPart data offset size).length = size := by
  rw [readPart, List.length_take, List.length_drop]
  omega

theorem splice_length {data : List Item} {offset : Nat} {items : List Item}
    (hinside : offset + items.length ≤ data.length) :
    (splice data offset items).length = data.length := by
  rw [splice, List.length_append, List.length_append, List.length_take, List.length_drop]
  omega

theorem splice_getElem? {data : List Item} {offset : Nat} {items : List Item}
    (hinside : offset + items.length ≤ data.length) (index : Nat) :
    (splice data offset items)[index]? =
      if index < offset then data[index]?
      else if index < offset + items.length then items[index - offset]? else data[index]? := by
  have htake : (data.take offset).length = offset := by
    rw [List.length_take]
    omega
  unfold splice
  by_cases hbefore : index < offset
  · rw [if_pos hbefore, List.append_assoc, List.getElem?_append_left (by omega),
      List.getElem?_take_of_lt hbefore]
  · rw [if_neg hbefore]
    by_cases hamong : index < offset + items.length
    · rw [if_pos hamong, List.append_assoc, List.getElem?_append_right (by omega), htake,
        List.getElem?_append_left (by omega)]
    · have hlength : (data.take offset ++ items).length = offset + items.length := by
        rw [List.length_append, htake]
      rw [if_neg hamong, List.getElem?_append_right (by omega), hlength, List.getElem?_drop]
      congr 1
      omega

theorem isSlice_iff_getElem? :
    IsSlice whole place part ↔ place + part.length ≤ whole.length ∧
      ∀ index < part.length, whole[place + index]? = part[index]? := by
  constructor
  · intro isSlice
    refine ⟨isSlice.bound, fun index hindex => ?_⟩
    conv_rhs => rw [isSlice.eq_take]
    rw [List.getElem?_take, if_pos hindex, List.getElem?_drop]
  · rintro ⟨hbound, hall⟩
    refine ⟨List.ext_getElem? fun index => ?_, hbound⟩
    rw [List.getElem?_take, List.getElem?_drop]
    split
    next hindex => exact (hall index hindex).symm
    next hindex => exact List.getElem?_eq_none (Nat.le_of_not_lt hindex)

/-- A part that is written is found where it was written. -/
theorem IsSlice.of_splice (hinside : place + part.length ≤ whole.length) :
    IsSlice (splice whole place part) place part := by
  refine isSlice_iff_getElem?.mpr ⟨by rw [splice_length hinside]; exact hinside,
    fun index hindex => ?_⟩
  rw [splice_getElem? hinside, if_neg (by omega), if_pos (by omega), Nat.add_sub_cancel_left]

/-- A slice beside the part that is written is kept. -/
theorem IsSlice.splice (isSlice : IsSlice whole place part) {offset : Nat} {items : List Item}
    (hinside : offset + items.length ≤ whole.length)
    (hbeside : place + part.length ≤ offset ∨ offset + items.length ≤ place) :
    IsSlice (splice whole offset items) place part := by
  obtain ⟨hbound, hall⟩ := isSlice_iff_getElem?.mp isSlice
  refine isSlice_iff_getElem?.mpr ⟨by rw [splice_length hinside]; exact hbound,
    fun index hindex => ?_⟩
  rw [splice_getElem? hinside]
  split
  · exact hall index hindex
  · rw [if_neg (by omega)]
    exact hall index hindex

/-- A slice is kept when items are appended. -/
theorem IsSlice.append (isSlice : IsSlice whole place part) (items : List Item) :
    IsSlice (whole ++ items) place part := by
  obtain ⟨hbound, hall⟩ := isSlice_iff_getElem?.mp isSlice
  refine isSlice_iff_getElem?.mpr ⟨by rw [List.length_append]; omega, fun index hindex => ?_⟩
  rw [List.getElem?_append_left (by omega)]
  exact hall index hindex

/-- Nothing is written in the place of nothing. -/
theorem splice_nil (data : List Item) (offset : Nat) : splice data offset [] = data := by
  rw [splice, List.append_nil, List.length_nil, Nat.add_zero, List.take_append_drop]

/-- What is written between two lists takes the place of the beginning of what was there. -/
theorem splice_between (front room behind items : List Item)
    (hlength : items.length ≤ room.length) :
    splice (front ++ room ++ behind) front.length items =
      front ++ items ++ (room.drop items.length ++ behind) := by
  rw [splice, List.append_assoc front room, List.take_left', List.append_assoc,
    List.append_assoc, ← List.drop_drop, List.drop_left', List.drop_append_of_le_length hlength]
  · rfl
  · rfl

end DeepcV2x.Foundation.Slices
