import DeepcV2x.Ipv4.Fragments
import Mathlib.Data.List.Chain

/-!
# What fragments are of a datagram

A fragment describes a datagram when it holds the bytes of the payload at its
offset, and is marked as the last one exactly at the end of the payload.
Fragments of fragments describe the same datagram.
-/

namespace DeepcV2x.Ipv4

/-- What a fragment of a datagram is. -/
structure Describes (payload : List UInt8) (datagram : Ipv4Header)
    (piece : Ipv4PayloadHeaderPair) : Prop where
  slice : piece.1 = createFragment payload piece.2.fragmentOffset piece.1.length
  within : piece.2.fragmentOffset + piece.1.length ≤ payload.length
  aligned : piece.2.fragmentOffset % 8 = 0
  last : piece.2.moreFragments = false ↔
    piece.2.fragmentOffset + piece.1.length = payload.length
  granular : piece.2.moreFragments = true → piece.1.length % 8 = 0
  payloadSize : piece.2.payloadSize = piece.1.length
  key : fragmentKey piece.2 = fragmentKey datagram

/-- The fragments of a datagram, through any number of fragmentations. -/
inductive Derived (payload : List UInt8) (datagram : Ipv4Header) : Ipv4PayloadHeaderPair → Prop
  | datagram : Derived payload datagram (payload, datagram)
  | fragment {piece part : Ipv4PayloadHeaderPair} {outIfaceMtu : Nat}
      {listFragments : List Ipv4PayloadHeaderPair} (whole : Derived payload datagram piece)
      (hmtu : 28 ≤ outIfaceMtu) (hword : outIfaceMtu < 4294967296)
      (hlist : doFragmentation piece.1 piece.2 outIfaceMtu = some listFragments)
      (hmem : part ∈ listFragments) : Derived payload datagram part

/-- The header of a datagram that was not fragmented. -/
structure IsDatagram (payload : List UInt8) (datagram : Ipv4Header) : Prop where
  short : payload.length ≤ 65515
  offset : datagram.fragmentOffset = 0
  last : datagram.moreFragments = false
  payloadSize : datagram.payloadSize = payload.length

/-! ## One fragmentation -/

/-- A part of a piece, with the flag that it is given. -/
def partOf (piece : Ipv4PayloadHeaderPair) (offset size : Nat) (more : Bool) :
    Ipv4PayloadHeaderPair :=
  (createFragment piece.1 offset size,
    { piece.2 with
      moreFragments := more
      fragmentOffset := offset + piece.2.fragmentOffset
      payloadSize := size })

theorem fragmentPair_eq {piece : Ipv4PayloadHeaderPair} {offset size : Nat} (more : Bool)
    (haligned : (offset + piece.2.fragmentOffset) % 8 = 0)
    (hplace : offset + piece.2.fragmentOffset < 65536) (hsize : size < 65536) :
    fragmentPair piece.1 { piece.2 with moreFragments := more } offset size =
      some (partOf piece offset size more) := by
  rw [fragmentPair, Ipv4Header.setFragmentOffset, Nat.mod_eq_of_lt hplace, if_neg (by omega),
    Option.map_some, Nat.mod_eq_of_lt hsize]
  rfl

theorem createFragment_length {p : List UInt8} {start length : Nat}
    (hle : start + length ≤ p.length) : (createFragment p start length).length = length := by
  simp [createFragment]
  omega

theorem createFragment_createFragment {p : List UInt8} {start length offset size : Nat}
    (hle : offset + size ≤ length) :
    createFragment (createFragment p start length) offset size =
      createFragment p (offset + start) size := by
  rw [createFragment, createFragment, createFragment, List.drop_take, List.drop_drop, List.take_take,
    Nat.min_eq_left (by omega), Nat.add_comm start]

@[simp]
theorem partOf_offset (piece : Ipv4PayloadHeaderPair) (offset size : Nat) (more : Bool) :
    (partOf piece offset size more).2.fragmentOffset = offset + piece.2.fragmentOffset := rfl

@[simp]
theorem partOf_moreFragments (piece : Ipv4PayloadHeaderPair) (offset size : Nat) (more : Bool) :
    (partOf piece offset size more).2.moreFragments = more := rfl

theorem partOf_length {piece : Ipv4PayloadHeaderPair} {offset size : Nat} (more : Bool)
    (hle : offset + size ≤ piece.1.length) : (partOf piece offset size more).1.length = size :=
  createFragment_length hle

/-- A part of a fragment describes the datagram when its flag is right. -/
theorem Describes.part {payload : List UInt8} {datagram : Ipv4Header}
    {piece : Ipv4PayloadHeaderPair} (describes : Describes payload datagram piece)
    {offset size : Nat} {more : Bool} (haligned : offset % 8 = 0)
    (hle : offset + size ≤ piece.1.length) (hgranular : more = true → size % 8 = 0)
    (hlast : more = false ↔ piece.2.fragmentOffset + offset + size = payload.length) :
    Describes payload datagram (partOf piece offset size more) := by
  have hlength := partOf_length more hle
  have hwithin := describes.within
  have hat := describes.aligned
  constructor
  · rw [hlength, partOf_offset, ← createFragment_createFragment hle, ← describes.slice, partOf]
  · rw [hlength, partOf_offset]
    omega
  · rw [partOf_offset]
    omega
  · rw [hlength, partOf_offset, partOf_moreFragments, hlast, Nat.add_comm offset]
  · rw [hlength]
    exact hgranular
  · exact hlength.symm
  · exact describes.key

/-- What a fragmentation from an offset of a piece gives. -/
structure Fragmented (payload : List UInt8) (datagram : Ipv4Header) (piece : Ipv4PayloadHeaderPair)
    (outIfaceMtu offset : Nat) (listFragments : List Ipv4PayloadHeaderPair) : Prop where
  describes : ∀ part ∈ listFragments, Describes payload datagram part
  fits : ∀ part ∈ listFragments, part.1.length + 20 ≤ outIfaceMtu
  whole : listFragments.flatMap Prod.fst = piece.1.drop offset
  inOrder : listFragments.IsChain fun first second =>
    first.2.fragmentOffset + first.1.length = second.2.fragmentOffset
  first : ∀ part ∈ listFragments.head?, part.2.fragmentOffset = offset + piece.2.fragmentOffset
  granular : ∀ part ∈ listFragments.dropLast,
    part.2.moreFragments = true ∧ part.1.length % 8 = 0

/-- The rest of a piece as its last fragment. -/
theorem Fragmented.last {payload : List UInt8} {datagram : Ipv4Header}
    {piece : Ipv4PayloadHeaderPair} (describes : Describes payload datagram piece)
    {outIfaceMtu offset : Nat} (haligned : offset % 8 = 0) (hle : offset ≤ piece.1.length)
    (hfits : piece.1.length - offset + 20 ≤ outIfaceMtu) :
    Fragmented payload datagram piece outIfaceMtu offset
      [partOf piece offset (piece.1.length - offset) piece.2.moreFragments] := by
  have hrest : createFragment piece.1 offset (piece.1.length - offset) = piece.1.drop offset := by
    rw [createFragment, ← List.length_drop, List.take_length]
  have hall : offset + (piece.1.length - offset) ≤ piece.1.length := by omega
  constructor
  · refine List.forall_mem_singleton.mpr (describes.part haligned hall ?_ ?_)
    · intro hmore
      have hgranular := describes.granular hmore
      omega
    · rw [describes.last]
      omega
  · refine List.forall_mem_singleton.mpr ?_
    rw [partOf_length _ hall]
    exact hfits
  · rw [List.flatMap_singleton]
    exact hrest
  · exact List.IsChain.singleton _
  · exact fun part hmem => Option.mem_some.mp hmem ▸ rfl
  · exact fun _ hmem => absurd hmem List.not_mem_nil

/-- A fragment before those of what is behind it. -/
theorem Fragmented.cons {payload : List UInt8} {datagram : Ipv4Header}
    {piece : Ipv4PayloadHeaderPair} (describes : Describes payload datagram piece)
    {outIfaceMtu offset size : Nat} {rest : List Ipv4PayloadHeaderPair}
    (fragmented : Fragmented payload datagram piece outIfaceMtu (offset + size) rest)
    (haligned : offset % 8 = 0) (hgrain : size % 8 = 0) (hlt : offset + size < piece.1.length)
    (hfits : size + 20 ≤ outIfaceMtu) :
    Fragmented payload datagram piece outIfaceMtu offset (partOf piece offset size true :: rest) := by
  have hwithin := describes.within
  have hlength := partOf_length true (Nat.le_of_lt hlt)
  constructor
  · refine List.forall_mem_cons.mpr ⟨?_, fragmented.describes⟩
    exact describes.part haligned (Nat.le_of_lt hlt) (fun _ => hgrain)
      ⟨fun h => absurd h (by decide), fun h => absurd h (by omega)⟩
  · exact List.forall_mem_cons.mpr ⟨hlength.symm ▸ hfits, fragmented.fits⟩
  · rw [List.flatMap_cons, fragmented.whole, ← List.drop_drop]
    exact List.take_append_drop size (piece.1.drop offset)
  · refine List.isChain_cons.mpr ⟨fun part hmem => ?_, fragmented.inOrder⟩
    rw [hlength, fragmented.first part hmem, partOf_offset]
    omega
  · exact fun part hmem => Option.mem_some.mp hmem ▸ rfl
  · intro part hmem
    cases rest with
    | nil => exact absurd hmem List.not_mem_nil
    | cons other others =>
        rcases List.mem_cons.mp hmem with rfl | hmem
        · exact ⟨rfl, (congrArg (· % 8) hlength).trans hgrain⟩
        · exact fragmented.granular part hmem

theorem fragmentSize_bounds {outIfaceMtu : Nat} (hmtu : 28 ≤ outIfaceMtu)
    (hword : outIfaceMtu < 4294967296) :
    fragmentSize outIfaceMtu % 8 = 0 ∧ 8 ≤ fragmentSize outIfaceMtu ∧
      fragmentSize outIfaceMtu + 20 ≤ outIfaceMtu := by
  rw [fragmentSize]
  omega

/-- The loop comes to its end, with fragments of the rest of the piece. -/
theorem fragmentLoop_fragmented {payload : List UInt8} {datagram : Ipv4Header}
    {piece : Ipv4PayloadHeaderPair} {outIfaceMtu : Nat}
    (describes : Describes payload datagram piece) (hshort : payload.length ≤ 65515)
    (hmtu : 28 ≤ outIfaceMtu) (hword : outIfaceMtu < 4294967296) :
    ∀ turns offset, offset % 8 = 0 → offset ≤ piece.1.length → piece.1.length < turns + offset →
      (offset = 0 ∨ fragmentSize outIfaceMtu < piece.1.length) →
      ∃ listFragments, fragmentLoop piece.1 piece.2 (fragmentSize outIfaceMtu) turns offset =
        some listFragments ∧ Fragmented payload datagram piece outIfaceMtu offset listFragments := by
  obtain ⟨hgrain, hsome, hfits⟩ := fragmentSize_bounds hmtu hword
  have hwithin := describes.within
  have hat := describes.aligned
  intro turns
  induction turns with
  | zero => exact fun offset _ hle hturns _ => absurd hturns (by omega)
  | succ turns ih =>
      intro offset haligned hle hturns hlong
      rw [fragmentLoop, Nat.mod_eq_of_lt (by omega)]
      by_cases hmore : offset + fragmentSize outIfaceMtu < piece.1.length
      · obtain ⟨rest, hrest, fragmented⟩ := ih (offset + fragmentSize outIfaceMtu) (by omega)
          (by omega) (by omega) (.inr (by omega))
        refine ⟨_, ?_, fragmented.cons describes haligned hgrain hmore hfits⟩
        rw [if_pos hmore, fragmentPair_eq true (by omega) (by omega) (by omega), Option.bind_some,
          Nat.mod_eq_of_lt (by omega), hrest, Option.map_some]
      · refine ⟨_, ?_, Fragmented.last describes haligned hle (by omega)⟩
        rw [if_neg hmore]
        exact congrArg (Option.map fun fragment => [fragment])
          (fragmentPair_eq piece.2.moreFragments (by omega) (by omega) (by omega))

/-- `DoFragmentation` of a fragment of a datagram. -/
theorem doFragmentation_fragmented {payload : List UInt8} {datagram : Ipv4Header}
    {piece : Ipv4PayloadHeaderPair} {outIfaceMtu : Nat}
    (describes : Describes payload datagram piece) (hshort : payload.length ≤ 65515)
    (hmtu : 28 ≤ outIfaceMtu) (hword : outIfaceMtu < 4294967296) :
    ∃ listFragments, doFragmentation piece.1 piece.2 outIfaceMtu = some listFragments ∧
      Fragmented payload datagram piece outIfaceMtu 0 listFragments :=
  fragmentLoop_fragmented describes hshort hmtu hword (piece.1.length + 1) 0 rfl (Nat.zero_le _)
    (Nat.lt_succ_self _) (.inl rfl)

/-! ## Repeated fragmentations -/

theorem IsDatagram.describes {payload : List UInt8} {datagram : Ipv4Header}
    (isDatagram : IsDatagram payload datagram) : Describes payload datagram (payload, datagram) where
  slice := by simp [createFragment, isDatagram.offset]
  within := by simp [isDatagram.offset]
  aligned := by simp [isDatagram.offset]
  last := by simp [isDatagram.offset, isDatagram.last]
  granular := fun hmore => by simp [isDatagram.last] at hmore
  payloadSize := isDatagram.payloadSize
  key := rfl

/-- Every fragment describes the datagram. -/
theorem Derived.describes {payload : List UInt8} {datagram : Ipv4Header}
    (isDatagram : IsDatagram payload datagram) {piece : Ipv4PayloadHeaderPair}
    (derived : Derived payload datagram piece) : Describes payload datagram piece := by
  induction derived with
  | datagram => exact isDatagram.describes
  | fragment whole hmtu hword hlist hmem ih =>
      obtain ⟨listFragments, hlist', fragmented⟩ :=
        doFragmentation_fragmented ih isDatagram.short hmtu hword
      obtain rfl := Option.some.inj (hlist'.symm.trans hlist)
      exact fragmented.describes _ hmem

end DeepcV2x.Ipv4
