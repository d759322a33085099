import DeepcV2x.Packets.PacketMetadata
import Mathlib.Data.List.Nodup
import Mathlib.Data.List.Perm.Subperm

/-!
# Packet metadata on the wire

The size, and what is written, are those of the items the walk through the list
reads.  Nothing is written past the size that is allowed.
-/

namespace DeepcV2x.Packets

open Foundation Foundation.Octets

namespace PacketMetadata

/-! ## The list -/

/-- The walk from the first offset reads the items, and ends at the tail. -/
inductive Walks (metadata : PacketMetadata) : List Nat → List (SmallItem × ExtraItem) → Prop where
  | last {read : SmallItem × ExtraItem} (hread : metadata.readItems metadata.tail = some read) :
      Walks metadata [metadata.tail] [read]
  | cons {offset next : Nat} {offsets : List Nat} {read : SmallItem × ExtraItem}
      {items : List (SmallItem × ExtraItem)} (hread : metadata.readItems offset = some read)
      (htail : offset ≠ metadata.tail) (hnext : read.1.next = next)
      (hrest : Walks metadata (next :: offsets) items) :
      Walks metadata (offset :: next :: offsets) (read :: items)

/-- The metadata is a list of the items, at different offsets that words of 16 bits hold. -/
def Represents (metadata : PacketMetadata) (items : List (SmallItem × ExtraItem)) : Prop :=
  (items = [] ∧ metadata.head = 0xffff) ∨
    ∃ offsets, Walks metadata (metadata.head :: offsets) items ∧ (metadata.head :: offsets).Nodup ∧
      ∀ offset ∈ metadata.head :: offsets, offset < 0xffff

/-- A body over the items, until it leaves. -/
def foldUntil {α : Type} (body : α → SmallItem → ExtraItem → α × Bool) :
    α → List (SmallItem × ExtraItem) → α
  | value, [] => value
  | value, read :: rest =>
      let turn := body value read.1 read.2
      if turn.2 then turn.1 else foldUntil body turn.1 rest

section Walk

variable {α : Type} {metadata : PacketMetadata} {items : List (SmallItem × ExtraItem)}
  {body : α → SmallItem → ExtraItem → α × Bool}

theorem Walks.length_eq {offsets : List Nat} (walks : Walks metadata offsets items) :
    items.length = offsets.length := by
  induction walks with
  | last => rfl
  | cons _ _ _ _ ih => rw [List.length_cons, ih, List.length_cons, List.length_cons, List.length_cons]

theorem Walks.forItems {offsets : List Nat} (walks : Walks metadata offsets items)
    (hnodup : offsets.Nodup) (hoffsets : ∀ offset ∈ offsets, offset < 0xffff) {turns : Nat}
    (hturns : offsets.length ≤ turns) (value : α) :
    ∀ current, offsets.head? = some current →
      metadata.forItems body turns current value = some (foldUntil body value items) := by
  induction walks generalizing turns value with
  | last hread =>
      rintro current hcurrent
      obtain rfl := Option.some.inj hcurrent
      obtain ⟨turns, rfl⟩ : ∃ left, turns = left + 1 := ⟨turns - 1, by rw [List.length_singleton] at hturns; omega⟩
      rw [PacketMetadata.forItems, if_neg (Nat.ne_of_lt (hoffsets _ (List.mem_singleton_self _))), hread,
        Option.bind_some]
      dsimp only
      rw [if_pos (.inr rfl), foldUntil, foldUntil, ite_self]
  | @cons offset next offsets read items hread htail hnext hrest ih =>
      rintro current hcurrent
      obtain rfl := Option.some.inj hcurrent
      obtain ⟨turns, rfl⟩ : ∃ left, turns = left + 1 := ⟨turns - 1, by rw [List.length_cons] at hturns; omega⟩
      obtain ⟨hnotMem, htailNodup⟩ := List.nodup_cons.mp hnodup
      have hne : offset ≠ next := fun heq => hnotMem (heq ▸ List.mem_cons_self)
      rw [PacketMetadata.forItems, if_neg (Nat.ne_of_lt (hoffsets _ List.mem_cons_self)), hread,
        Option.bind_some, foldUntil]
      dsimp only
      cases hleave : (body value read.1 read.2).2 with
      | true => rw [if_pos (.inl rfl), if_pos rfl]
      | false =>
          rw [if_neg (by rintro (h | h); exacts [Bool.false_ne_true h, htail h]),
            if_neg (by rw [hnext]; exact hne), if_neg Bool.false_ne_true, hnext]
          exact ih htailNodup (fun other hmem => hoffsets other (List.mem_cons_of_mem _ hmem))
            (Nat.le_of_succ_le_succ hturns) _ next rfl

/-- The loops of the code go over the items. -/
theorem Represents.forItems (represents : metadata.Represents items) (value : α) :
    metadata.forItems body turnsOfWalk metadata.head value = some (foldUntil body value items) := by
  rcases represents with ⟨rfl, hhead⟩ | ⟨offsets, walks, hnodup, hoffsets⟩
  · rw [turnsOfWalk, PacketMetadata.forItems, if_pos hhead, foldUntil]
  · have hlength : (metadata.head :: offsets).length ≤ (List.range 65535).length :=
      (List.subperm_of_subset hnodup fun offset hmem => List.mem_range.mpr (hoffsets offset hmem)).length_le
    rw [List.length_range] at hlength
    exact walks.forItems hnodup hoffsets (Nat.le_trans hlength (by decide)) value _ rfl

end Walk

/-! ## What is written -/

section Write

variable {types : TypeIds} {metadata : PacketMetadata} {items : List (SmallItem × ExtraItem)}

/-- The types of the items are registered. -/
def Registered (types : TypeIds) (items : List (SmallItem × ExtraItem)) : Prop :=
  ∀ read ∈ items, uidOf read.1 ≤ types.names.length

/-- The name of a registered type. -/
def nameIn (types : TypeIds) (item : SmallItem) : List UInt8 := (nameOf types item).getD []

theorem nameOf_eq {item : SmallItem} (hregistered : uidOf item ≤ types.names.length) :
    nameOf types item = some (nameIn types item) := by
  have hsome : (nameOf types item).isSome = true := by
    rw [nameOf]
    split
    · rfl
    next hne =>
      have hsmall := types.small
      rw [TypeIds.getName, Nat.mod_eq_of_lt (by omega), if_neg hne, isSome_getElem?]
      omega
  rw [nameIn]
  exact (Option.some_get hsome).symm.trans (congrArg some (Option.get_eq_getD ..))

/-- The octets of an item on the wire. -/
def wireItem (types : TypeIds) (read : SmallItem × ExtraItem) : List UInt8 :=
  (itemPieces (nameIn types read.1) read.1 read.2).flatten

theorem nameIn_payload {item : SmallItem} (hpayload : uidOf item = 0) : nameIn types item = [] := by
  rw [nameIn, nameOf, if_pos hpayload]
  rfl

theorem length_wireItem (read : SmallItem × ExtraItem) :
    (wireItem types read).length = 4 + (nameIn types read.1).length + 23 := by
  rw [wireItem, itemPieces]
  split
  next hpayload =>
    rw [nameIn_payload hpayload]
    simp
  next => simp; omega

/-- The octets of the items on the wire. -/
def wireItems (types : TypeIds) (items : List (SmallItem × ExtraItem)) : List UInt8 :=
  (items.map (wireItem types)).flatten

theorem foldUntil_itemSize (hregistered : Registered types items) (size : Nat) :
    foldUntil (fun (size : Option Nat) item _ =>
      (size.bind fun size => (itemSize types item).map (size + ·), false)) (some size) items =
        some (size + (wireItems types items).length) := by
  induction items generalizing size with
  | nil => rfl
  | cons read rest ih =>
      have hread : itemSize types read.1 = some (wireItem types read).length := by
        rw [itemSize, nameOf_eq (hregistered read List.mem_cons_self), length_wireItem]
        rfl
      rw [foldUntil]
      dsimp only
      rw [if_neg Bool.false_ne_true, Option.bind_some, hread, Option.map_some,
        ih fun other hmem => hregistered other (List.mem_cons_of_mem _ hmem), wireItems, wireItems,
        List.map_cons, List.flatten_cons, List.length_append, Nat.add_assoc]

/-- The size is that of the octets on the wire. -/
theorem getSerializedSize_eq {enable : Bool} (represents : metadata.Represents items)
    (henable : enable = false → items = []) (hregistered : Registered types items)
    (hsize : 8 + (wireItems types items).length < 4294967296) :
    metadata.getSerializedSize types enable = some (8 + (wireItems types items).length) := by
  rw [getSerializedSize]
  cases henabled : enable with
  | false =>
      rw [henable henabled]
      rfl
  | true =>
      rw [Bool.not_true, if_neg Bool.false_ne_true, represents.forItems, Option.bind_some,
        foldUntil_itemSize hregistered, Option.map_some, Nat.mod_eq_of_lt hsize]

theorem addToRaw_fst {maxSize : Nat} {written data : List UInt8} :
    (addToRaw maxSize written data).1 = true ↔
      (written.length + data.length) % 4294967296 ≤ maxSize := by
  rw [addToRaw]
  split
  next hlt => exact iff_of_false Bool.false_ne_true (Nat.not_le_of_lt hlt)
  next hge => exact iff_of_true rfl (Nat.le_of_not_lt hge)

/-- Pieces that fit are all written. -/
theorem addAll_of_le {maxSize : Nat} {written : List UInt8} {pieces : List (List UInt8)}
    (hmax : maxSize < 4294967296) (hfits : written.length + pieces.flatten.length ≤ maxSize) :
    addAll maxSize written pieces = (true, written ++ pieces.flatten) := by
  induction pieces generalizing written with
  | nil => rw [addAll, List.flatten_nil, List.append_nil]
  | cons piece rest ih =>
      rw [List.flatten_cons, List.length_append] at hfits
      have hadd : addToRaw maxSize written piece = (true, written ++ piece) := by
        rw [addToRaw, if_neg]
        rw [Nat.mod_eq_of_lt (by omega)]
        omega
      rw [addAll, hadd, if_pos rfl, ih (by rw [List.length_append]; omega), List.flatten_cons,
        List.append_assoc]

/-- Pieces that do not all fit: writing ends before the one that does not. -/
theorem addAll_of_lt {maxSize : Nat} {written : List UInt8} {pieces : List (List UInt8)}
    (hsize : written.length + pieces.flatten.length < 4294967296)
    (hwritten : written.length ≤ maxSize)
    (hlt : maxSize < written.length + pieces.flatten.length) :
    ∃ part, addAll maxSize written pieces = (false, part) ∧ part.length ≤ maxSize := by
  induction pieces generalizing written with
  | nil =>
      rw [List.flatten_nil, List.length_nil, Nat.add_zero] at hlt
      exact absurd hlt (Nat.not_lt_of_le hwritten)
  | cons piece rest ih =>
      rw [List.flatten_cons, List.length_append] at hsize hlt
      rw [addAll, addToRaw, Nat.mod_eq_of_lt (by omega)]
      by_cases hover : maxSize < written.length + piece.length
      · rw [if_pos hover]
        exact ⟨written, rfl, hwritten⟩
      · rw [if_neg hover]
        rw [← Nat.add_assoc, ← List.length_append] at hlt hsize
        exact ih hsize (by rw [List.length_append]; omega) hlt

theorem serializeItem_eq {maxSize : Nat} {written : List UInt8} {read : SmallItem × ExtraItem}
    (hregistered : uidOf read.1 ≤ types.names.length) :
    serializeItem types maxSize (some (true, written)) read.1 read.2 =
      (some (addAll maxSize written (itemPieces (nameIn types read.1) read.1 read.2)),
        !(addAll maxSize written (itemPieces (nameIn types read.1) read.1 read.2)).1) := by
  rw [serializeItem, Option.bind_some, nameOf_eq hregistered, Option.map_some]
  rfl

theorem foldUntil_serializeItem_of_le {maxSize : Nat} (hmax : maxSize < 4294967296)
    (hregistered : Registered types items) {written : List UInt8}
    (hfits : written.length + (wireItems types items).length ≤ maxSize) :
    foldUntil (serializeItem types maxSize) (some (true, written)) items =
      some (true, written ++ wireItems types items) := by
  induction items generalizing written with
  | nil => rw [foldUntil, wireItems, List.map_nil, List.flatten_nil, List.append_nil]
  | cons read rest ih =>
      rw [wireItems, List.map_cons, List.flatten_cons, List.length_append, ← wireItems, wireItem] at hfits
      rw [foldUntil, serializeItem_eq (hregistered read List.mem_cons_self),
        addAll_of_le hmax (by omega)]
      dsimp only
      rw [Bool.not_true, if_neg Bool.false_ne_true,
        ih (fun other hmem => hregistered other (List.mem_cons_of_mem _ hmem))
          (by rw [List.length_append]; omega),
        wireItems, wireItems, List.map_cons, List.flatten_cons, ← List.append_assoc]
      rfl

theorem foldUntil_serializeItem_of_lt {maxSize : Nat} (hregistered : Registered types items)
    {written : List UInt8} (hsize : written.length + (wireItems types items).length < 4294967296)
    (hwritten : written.length ≤ maxSize)
    (hlt : maxSize < written.length + (wireItems types items).length) :
    ∃ part, foldUntil (serializeItem types maxSize) (some (true, written)) items =
      some (false, part) ∧ part.length ≤ maxSize := by
  induction items generalizing written with
  | nil => exact absurd hlt (Nat.not_lt_of_le hwritten)
  | cons read rest ih =>
      rw [wireItems, List.map_cons, List.flatten_cons, List.length_append, ← wireItems, wireItem]
        at hsize hlt
      rw [foldUntil, serializeItem_eq (hregistered read List.mem_cons_self)]
      rcases Nat.lt_or_ge maxSize (written.length +
        (itemPieces (nameIn types read.1) read.1 read.2).flatten.length) with hover | hfits
      · obtain ⟨part, hadd, hpart⟩ := addAll_of_lt (by omega) hwritten hover
        rw [hadd]
        exact ⟨part, rfl, hpart⟩
      · rw [addAll_of_le (by omega) hfits]
        exact ih (fun other hmem => hregistered other (List.mem_cons_of_mem _ hmem))
          (by rw [List.length_append]; omega) (by rw [List.length_append]; omega)
          (by rw [List.length_append]; omega)

/-- The octets of metadata on the wire. -/
def wire (types : TypeIds) (metadata : PacketMetadata) (items : List (SmallItem × ExtraItem)) :
    List UInt8 :=
  htol 8 metadata.packetUid ++ wireItems types items

theorem length_wire : (wire types metadata items).length = 8 + (wireItems types items).length := by
  rw [wire, List.length_append, length_htol]

/-- With the size of the octets on the wire all of them are written. -/
theorem serialize_eq (represents : metadata.Represents items) (hregistered : Registered types items)
    (hsize : (wire types metadata items).length < 4294967296) :
    metadata.serialize types (wire types metadata items).length =
      some (1, wire types metadata items) := by
  rw [length_wire] at hsize ⊢
  have hfirst : addToRaw (8 + (wireItems types items).length) [] (htol 8 metadata.packetUid) =
      (true, htol 8 metadata.packetUid) := by
    rw [addToRaw, if_neg]
    · rfl
    · rw [length_htol, List.length_nil]
      omega
  rw [serialize, hfirst]
  dsimp only
  rw [if_pos rfl, represents.forItems, Option.bind_some,
    foldUntil_serializeItem_of_le hsize hregistered (by rw [length_htol]), id, Option.bind_some]
  dsimp only
  rw [Bool.not_true, if_neg Bool.false_ne_true, if_pos]
  · rfl
  · rw [List.length_append, length_htol, Nat.mod_eq_of_lt hsize]

/-- With a smaller size nothing is written past it, and the answer is zero. -/
theorem serialize_of_lt (represents : metadata.Represents items)
    (hregistered : Registered types items)
    (hsize : (wire types metadata items).length < 4294967296) {maxSize : Nat}
    (hlt : maxSize < (wire types metadata items).length) :
    ∃ part, metadata.serialize types maxSize = some (0, part) ∧ part.length ≤ maxSize := by
  rw [length_wire] at hsize hlt
  rw [serialize, addToRaw, List.length_nil, length_htol]
  rcases Nat.lt_or_ge maxSize 8 with hshort | hlong
  · rw [if_pos hshort]
    exact ⟨[], rfl, Nat.zero_le _⟩
  · rw [if_neg (Nat.not_lt_of_le hlong)]
    dsimp only
    obtain ⟨part, hfold, hpart⟩ := @foldUntil_serializeItem_of_lt types items maxSize hregistered
      ([] ++ htol 8 metadata.packetUid) (by rw [List.nil_append, length_htol]; exact hsize)
      (by rw [List.nil_append, length_htol]; exact hlong)
      (by rw [List.nil_append, length_htol]; exact hlt)
    rw [if_pos rfl, represents.forItems, Option.bind_some, hfold, id, Option.bind_some]
    exact ⟨part, rfl, hpart⟩

end Write

end PacketMetadata

end DeepcV2x.Packets
