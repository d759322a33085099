import DeepcV2x.Foundation.Runs
import DeepcV2x.Packets.ByteTagPositions

/-!
# Packets with byte tags

A packet is its size and its byte tag list.  The events are the operations on
the packets of a simulation, which share one heap of tag blocks.  Beside them
stands what the operations do to the tags of the single bytes.
-/

namespace DeepcV2x.Packets

open Foundation

structure Packet where
  size : Nat
  byteTagList : ByteTagList
deriving DecidableEq, Repr

namespace Packet

def create (size : Nat) : Packet := ⟨size, ByteTagList.empty⟩

def addByteTag (heap : TagHeap) (packet : Packet) (tag : Tag) : Option (TagHeap × Packet) :=
  (packet.byteTagList.add heap tag 0 (int32 packet.size)).map fun added =>
    (added.1, { packet with byteTagList := added.2 })

/-- Aborts on an invalid byte range. -/
def addByteTagRange (heap : TagHeap) (packet : Packet) (tag : Tag) (start stop : Nat) :
    Option (TagHeap × Packet) :=
  if stop < start then none
  else
    (packet.byteTagList.add heap tag (int32 start) (int32 stop)).map fun added =>
      (added.1, { packet with byteTagList := added.2 })

def getByteTagIterator (heap : TagHeap) (packet : Packet) : List TagRange :=
  packet.byteTagList.begin heap 0 (int32 packet.size)

def addHeader (heap : TagHeap) (packet : Packet) (size : Nat) : Option (TagHeap × Packet) :=
  ((packet.byteTagList.adjust (int32 size)).addAtStart heap (int32 size)).map fun cut =>
    (cut.1, ⟨packet.size + size, cut.2⟩)

def removeAtStart (packet : Packet) (size : Nat) : Packet :=
  ⟨packet.size - size, packet.byteTagList.adjust (int32 (-size))⟩

/-- The header was deserialized from the first bytes. -/
def removeHeader (packet : Packet) (deserialized : Nat) : Packet :=
  packet.removeAtStart deserialized

def addPaddingAtEnd (heap : TagHeap) (packet : Packet) (size : Nat) : Option (TagHeap × Packet) :=
  (packet.byteTagList.addAtEnd heap (int32 packet.size)).map fun cut =>
    (cut.1, ⟨packet.size + size, cut.2⟩)

def addTrailer (heap : TagHeap) (packet : Packet) (size : Nat) : Option (TagHeap × Packet) :=
  packet.addPaddingAtEnd heap size

def removeAtEnd (packet : Packet) (size : Nat) : Packet :=
  { packet with size := packet.size - size }

def removeTrailer (packet : Packet) (deserialized : Nat) : Packet :=
  packet.removeAtEnd deserialized

/-- A local list, copied into the new packet, that ends with the call. -/
def createFragment (heap : TagHeap) (packet : Packet) (start length : Nat) :
    Option (TagHeap × Packet) :=
  if packet.size ≥ start + length then
    some
      (((heap.retain packet.byteTagList.data).retain packet.byteTagList.data).deallocate
          packet.byteTagList.data,
        ⟨length, packet.byteTagList.adjust (int32 (-start))⟩)
  else none

end Packet

/-! ## The packets of a simulation -/

structure State where
  heap : TagHeap
  packets : List (Option Packet)

namespace State

def empty : State := ⟨TagHeap.empty, []⟩

def packet (state : State) (index : Nat) : Option Packet := (state.packets[index]?).join

def push (state : State) (created : TagHeap × Packet) : State :=
  ⟨created.1, state.packets ++ [some created.2]⟩

def set (state : State) (index : Nat) (changed : TagHeap × Packet) : State :=
  ⟨changed.1, state.packets.set index (some changed.2)⟩

def update (state : State) (index : Nat) (change : Packet → Option (TagHeap × Packet)) :
    Option State :=
  ((state.packet index).bind change).map (state.set index)

/-- `copy.AddAtStart(0); copy.Adjust(GetSize()); m_byteTagList.Add(copy)`, and the end of `copy`. -/
def appendTags (heap : TagHeap) (packet : Packet) (copy : ByteTagList) :
    Option (TagHeap × ByteTagList) :=
  ((copy.addAtStart heap 0).bind fun cut =>
    (packet.byteTagList.addAll cut.1
      ((cut.2.adjust (int32 packet.size)).beginAll cut.1)).map fun added =>
        (added.1.deallocate cut.2.data, added.2))

/-- `Packet::AddAtEnd`; the other packet is read after the own tags are cut. -/
def addAtEnd (state : State) (index other : Nat) : Option State :=
  (state.packet index).bind fun packet =>
    (packet.byteTagList.addAtEnd state.heap (int32 packet.size)).bind fun cut =>
      ((state.set index (cut.1, { packet with byteTagList := cut.2 })).packet other).bind fun from_ =>
        (appendTags (cut.1.retain from_.byteTagList.data) { packet with byteTagList := cut.2 }
          from_.byteTagList).map fun added =>
            state.set index (added.1, ⟨packet.size + from_.size, added.2⟩)

def destroy (state : State) (index : Nat) : Option State :=
  (state.packet index).map fun packet =>
    ⟨state.heap.deallocate packet.byteTagList.data, state.packets.set index none⟩

end State

inductive Event
  | create (size : Nat)
  | copy (index : Nat)
  | createFragment (index start length : Nat)
  | addByteTag (index : Nat) (tag : Tag)
  | addByteTagRange (index : Nat) (tag : Tag) (start stop : Nat)
  | addHeader (index size : Nat)
  | removeHeader (index deserialized : Nat)
  | addTrailer (index size : Nat)
  | removeTrailer (index deserialized : Nat)
  | addAtEnd (index other : Nat)
  | addPaddingAtEnd (index size : Nat)
  | removeAtStart (index size : Nat)
  | removeAtEnd (index size : Nat)
  | destroy (index : Nat)
deriving DecidableEq, Repr

def apply (state : State) : Event → Option State
  | .create size => some (state.push (state.heap, Packet.create size))
  | .copy index =>
      (state.packet index).map fun packet =>
        state.push (state.heap.retain packet.byteTagList.data, packet)
  | .createFragment index start length =>
      ((state.packet index).bind fun packet =>
        packet.createFragment state.heap start length).map state.push
  | .addByteTag index tag => state.update index fun packet => packet.addByteTag state.heap tag
  | .addByteTagRange index tag start stop =>
      state.update index fun packet => packet.addByteTagRange state.heap tag start stop
  | .addHeader index size => state.update index fun packet => packet.addHeader state.heap size
  | .removeHeader index deserialized =>
      state.update index fun packet => some (state.heap, packet.removeHeader deserialized)
  | .addTrailer index size => state.update index fun packet => packet.addTrailer state.heap size
  | .removeTrailer index deserialized =>
      state.update index fun packet => some (state.heap, packet.removeTrailer deserialized)
  | .addAtEnd index other => state.addAtEnd index other
  | .addPaddingAtEnd index size =>
      state.update index fun packet => packet.addPaddingAtEnd state.heap size
  | .removeAtStart index size =>
      state.update index fun packet => some (state.heap, packet.removeAtStart size)
  | .removeAtEnd index size =>
      state.update index fun packet => some (state.heap, packet.removeAtEnd size)
  | .destroy index => state.destroy index

/-! ## Sizes below `2 ^ 31` -/

/-- The sizes that a caller gives, and the sizes that the packets get. -/
def SmallSizes (state : State) : Event → Prop
  | .create size => size < 2 ^ 31
  | .copy _ => True
  | .createFragment _ start length => start < 2 ^ 31 ∧ length < 2 ^ 31
  | .addByteTag _ tag => tag.data.length < 2 ^ 31
  | .addByteTagRange _ tag start stop =>
      tag.data.length < 2 ^ 31 ∧ start < 2 ^ 31 ∧ stop < 2 ^ 31
  | .addHeader index size => ∀ packet ∈ state.packet index, packet.size + size < 2 ^ 31
  | .removeHeader _ deserialized => deserialized < 2 ^ 31
  | .addTrailer index size => ∀ packet ∈ state.packet index, packet.size + size < 2 ^ 31
  | .removeTrailer _ deserialized => deserialized < 2 ^ 31
  | .addAtEnd index other => ∀ packet ∈ state.packet index, ∀ from_ ∈ state.packet other,
      packet.size + from_.size < 2 ^ 31
  | .addPaddingAtEnd index size => ∀ packet ∈ state.packet index, packet.size + size < 2 ^ 31
  | .removeAtStart _ size => size < 2 ^ 31
  | .removeAtEnd _ size => size < 2 ^ 31
  | .destroy _ => True

instance (state : State) : ∀ event, Decidable (SmallSizes state event)
  | .create size => inferInstanceAs (Decidable (size < 2 ^ 31))
  | .copy _ => .isTrue trivial
  | .createFragment _ start length =>
      inferInstanceAs (Decidable (start < 2 ^ 31 ∧ length < 2 ^ 31))
  | .addByteTag _ tag => inferInstanceAs (Decidable (tag.data.length < 2 ^ 31))
  | .addByteTagRange _ tag start stop =>
      inferInstanceAs (Decidable (tag.data.length < 2 ^ 31 ∧ start < 2 ^ 31 ∧ stop < 2 ^ 31))
  | .addHeader index size => inferInstanceAs
      (Decidable (∀ packet ∈ state.packet index, packet.size + size < 2 ^ 31))
  | .removeHeader _ deserialized => inferInstanceAs (Decidable (deserialized < 2 ^ 31))
  | .addTrailer index size => inferInstanceAs
      (Decidable (∀ packet ∈ state.packet index, packet.size + size < 2 ^ 31))
  | .removeTrailer _ deserialized => inferInstanceAs (Decidable (deserialized < 2 ^ 31))
  | .addAtEnd index other => inferInstanceAs (Decidable (∀ packet ∈ state.packet index,
      ∀ from_ ∈ state.packet other, packet.size + from_.size < 2 ^ 31))
  | .addPaddingAtEnd index size => inferInstanceAs
      (Decidable (∀ packet ∈ state.packet index, packet.size + size < 2 ^ 31))
  | .removeAtStart _ size => inferInstanceAs (Decidable (size < 2 ^ 31))
  | .removeAtEnd _ size => inferInstanceAs (Decidable (size < 2 ^ 31))
  | .destroy _ => .isTrue trivial

def step (state : State) (event : Event) : Option State :=
  if SmallSizes state event then apply state event else none

/-! ## Offsets that do not overflow -/

def Packet.value (heap : TagHeap) (packet : Packet) : TagRanges := packet.byteTagList.value heap

/-- The value that the other packet has once the own tags are cut. -/
def State.valueBehind (state : State) (index other : Nat) (packet from_ : Packet) : TagRanges :=
  if other = index then (packet.value state.heap).addAtEnd packet.size
  else from_.value state.heap

/-- The offsets of an appended list. -/
def AppendFits (cut from_ : TagRanges) (size : Nat) : Prop :=
  from_.CutFits 0 ∧ (from_.addAtStart 0).AdjustFits size ∧
    cut.AddAllFits ((from_.addAtStart 0).adjust size).itemsAll

instance (cut from_ : TagRanges) (size : Nat) : Decidable (AppendFits cut from_ size) :=
  inferInstanceAs (Decidable (from_.CutFits 0 ∧ (from_.addAtStart 0).AdjustFits size ∧
    cut.AddAllFits ((from_.addAtStart 0).adjust size).itemsAll))

/-- No signed 32-bit offset that the event computes overflows. -/
def OffsetsFit (state : State) : Event → Prop
  | .create _ => True
  | .copy _ => True
  | .createFragment index start _ =>
      ∀ packet ∈ state.packet index, (packet.value state.heap).AdjustFits (-start)
  | .addByteTag index _ =>
      ∀ packet ∈ state.packet index, (packet.value state.heap).AddFits 0 packet.size
  | .addByteTagRange index _ start stop =>
      ∀ packet ∈ state.packet index, (packet.value state.heap).AddFits start stop
  | .addHeader index size => ∀ packet ∈ state.packet index,
      (packet.value state.heap).AdjustFits size ∧
        ((packet.value state.heap).adjust size).CutFits size
  | .removeHeader index deserialized =>
      ∀ packet ∈ state.packet index, (packet.value state.heap).AdjustFits (-deserialized)
  | .addTrailer index _ =>
      ∀ packet ∈ state.packet index, (packet.value state.heap).CutFits packet.size
  | .removeTrailer _ _ => True
  | .addAtEnd index other => ∀ packet ∈ state.packet index, ∀ from_ ∈ state.packet other,
      (packet.value state.heap).CutFits packet.size ∧
        AppendFits ((packet.value state.heap).addAtEnd packet.size)
          (state.valueBehind index other packet from_) packet.size
  | .addPaddingAtEnd index _ =>
      ∀ packet ∈ state.packet index, (packet.value state.heap).CutFits packet.size
  | .removeAtStart index size =>
      ∀ packet ∈ state.packet index, (packet.value state.heap).AdjustFits (-size)
  | .removeAtEnd _ _ => True
  | .destroy _ => True

instance (state : State) : ∀ event, Decidable (OffsetsFit state event)
  | .create _ => .isTrue trivial
  | .copy _ => .isTrue trivial
  | .createFragment index start _ => inferInstanceAs (Decidable
      (∀ packet ∈ state.packet index, (packet.value state.heap).AdjustFits (-start)))
  | .addByteTag index _ => inferInstanceAs (Decidable
      (∀ packet ∈ state.packet index, (packet.value state.heap).AddFits 0 packet.size))
  | .addByteTagRange index _ start stop => inferInstanceAs (Decidable
      (∀ packet ∈ state.packet index, (packet.value state.heap).AddFits start stop))
  | .addHeader index size => inferInstanceAs (Decidable (∀ packet ∈ state.packet index,
      (packet.value state.heap).AdjustFits size ∧
        ((packet.value state.heap).adjust size).CutFits size))
  | .removeHeader index deserialized => inferInstanceAs (Decidable
      (∀ packet ∈ state.packet index, (packet.value state.heap).AdjustFits (-deserialized)))
  | .addTrailer index _ => inferInstanceAs (Decidable
      (∀ packet ∈ state.packet index, (packet.value state.heap).CutFits packet.size))
  | .removeTrailer _ _ => .isTrue trivial
  | .addAtEnd index other => inferInstanceAs (Decidable (∀ packet ∈ state.packet index,
      ∀ from_ ∈ state.packet other, (packet.value state.heap).CutFits packet.size ∧
        AppendFits ((packet.value state.heap).addAtEnd packet.size)
          (state.valueBehind index other packet from_) packet.size))
  | .addPaddingAtEnd index _ => inferInstanceAs (Decidable
      (∀ packet ∈ state.packet index, (packet.value state.heap).CutFits packet.size))
  | .removeAtStart index size => inferInstanceAs (Decidable
      (∀ packet ∈ state.packet index, (packet.value state.heap).AdjustFits (-size)))
  | .removeAtEnd _ _ => .isTrue trivial
  | .destroy _ => .isTrue trivial

/-! ## The tags of the bytes -/

/-- The bytes of a packet, each with the tags it carries. -/
abbrev TaggedBytes := List (List Tag)

namespace TaggedBytes

def untagged (size : Nat) : TaggedBytes := List.replicate size []

def tag (bytes : TaggedBytes) (tag : Tag) (start stop : Nat) : TaggedBytes :=
  bytes.mapIdx fun position tags =>
    if start ≤ position ∧ position < stop then tags ++ [tag] else tags

def at_ (packets : List (Option TaggedBytes)) (index : Nat) : Option TaggedBytes :=
  (packets[index]?).join

def change (packets : List (Option TaggedBytes)) (index : Nat)
    (change : TaggedBytes → TaggedBytes) : List (Option TaggedBytes) :=
  packets.set index ((at_ packets index).map change)

/-- What an operation does to the bytes of the packets. -/
def follow (packets : List (Option TaggedBytes)) : Event → List (Option TaggedBytes)
  | .create size => packets ++ [some (untagged size)]
  | .copy index => packets ++ [at_ packets index]
  | .createFragment index start length =>
      packets ++ [(at_ packets index).map fun bytes => (bytes.drop start).take length]
  | .addByteTag index tag => change packets index fun bytes => bytes.map fun tags => tags ++ [tag]
  | .addByteTagRange index tag start stop =>
      change packets index fun bytes => bytes.tag tag start stop
  | .addHeader index size => change packets index fun bytes => untagged size ++ bytes
  | .removeHeader index deserialized => change packets index fun bytes => bytes.drop deserialized
  | .addTrailer index size => change packets index fun bytes => bytes ++ untagged size
  | .removeTrailer index deserialized =>
      change packets index fun bytes => bytes.take (bytes.length - deserialized)
  | .addAtEnd index other =>
      change packets index fun bytes => bytes ++ (at_ packets other).getD []
  | .addPaddingAtEnd index size => change packets index fun bytes => bytes ++ untagged size
  | .removeAtStart index size => change packets index fun bytes => bytes.drop size
  | .removeAtEnd index size => change packets index fun bytes => bytes.take (bytes.length - size)
  | .destroy index => packets.set index none

def following (packets : List (Option TaggedBytes)) : List Event → List (Option TaggedBytes)
  | [] => packets
  | event :: rest => following (follow packets event) rest

end TaggedBytes

end DeepcV2x.Packets
