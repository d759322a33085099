import DeepcV2x.Foundation.Leb128

/-!
# Packet metadata

`PacketMetadata` keeps the headers, the trailers and the payload of a packet as
a doubly linked list in an array of octets.  Small items stand for whole
headers; big items also have fragment bounds and the uid of their packet, of
which the array holds 32 bits.  Serialization walks through the list.
-/

namespace DeepcV2x.Packets

open Foundation Foundation.Octets

/-! ## Items -/

/-- `SmallItem`. -/
structure SmallItem where
  next : Nat
  prev : Nat
  typeUid : Nat
  size : Nat
  chunkUid : Nat
  deriving DecidableEq, Repr

/-- `ExtraItem`. -/
structure ExtraItem where
  fragmentStart : Nat
  fragmentEnd : Nat
  packetUid : Nat
  deriving DecidableEq, Repr

/-- Registered types: the names by uid, from one on. -/
structure TypeIds where
  names : List (List UInt8)
  distinct : names.Nodup
  small : names.length < 65536

namespace TypeIds

/-- `GetName` of the uid that `SetUid` keeps, a word of 16 bits. -/
def getName (types : TypeIds) (uid : Nat) : Option (List UInt8) :=
  if uid % 65536 = 0 then none else types.names[uid % 65536 - 1]?

/-- `LookupByName`, which asserts that the name is registered. -/
def lookupByName (types : TypeIds) (name : List UInt8) : Option Nat :=
  (types.names.findIdx? (· = name)).map (· + 1)

end TypeIds

/-- The members of the metadata, with the octets of its array. -/
structure PacketMetadata where
  data : List UInt8
  head : Nat := 0xffff
  tail : Nat := 0xffff
  used : Nat := 0
  packetUid : Nat
  deriving DecidableEq

namespace PacketMetadata

/-- New metadata without items, in an array that may have been used before. -/
def create (packetUid : Nat) (data : List UInt8) : PacketMetadata := { data, packetUid }

/-! ## Numbers in the array -/

/-- `GetUleb128Size`. -/
def getUleb128Size (value : Nat) : Nat :=
  if value < 0x80 then 1 else if value < 0x4000 then 2 else if value < 0x200000 then 3
  else if value < 0x10000000 then 4 else 5

/-- The octets of `AppendValue`. -/
def appendValue (value : Nat) : List UInt8 := Leb128.encode (getUleb128Size value - 1) value

/-- `ReadUleb128`: five octets at most, into a word of 32 bits. -/
def readUleb128 : Reader Nat := (· % 4294967296) <$> Leb128.decodeFrom 5 0 0

/-- The highest octet is shifted as an `int`, so that its sign goes into the upper half. -/
def signExtend (word : Nat) : Nat :=
  if word < 2147483648 then word else word + (18446744073709551616 - 4294967296)

/-- `ReadItems` at the front of some octets. -/
def itemReader (packetUid : Nat) : Reader (SmallItem × ExtraItem) := do
  let next ← ltoh 2
  let prev ← ltoh 2
  let typeUid ← readUleb128
  let size ← readUleb128
  let chunkUid ← ltoh 2
  let item : SmallItem := { next, prev, typeUid, size, chunkUid }
  if typeUid % 2 = 1 then
    let fragmentStart ← readUleb128
    let fragmentEnd ← readUleb128
    let packetUid ← ltoh 4
    pure (item, { fragmentStart, fragmentEnd, packetUid := signExtend packetUid })
  else pure (item, { fragmentStart := 0, fragmentEnd := size, packetUid })

/-- `ReadItems`. -/
def readItems (metadata : PacketMetadata) (current : Nat) : Option (SmallItem × ExtraItem) :=
  (itemReader metadata.packetUid (metadata.data.drop current)).map Prod.fst

/-! ## Walks -/

/-- The loops over the list: a body with a value that may leave the loop.  `none` stands for a
failed assertion, and for a list that does not end. -/
def forItems {α : Type} (metadata : PacketMetadata) (body : α → SmallItem → ExtraItem → α × Bool) :
    Nat → Nat → α → Option α
  | 0, _, _ => none
  | turns + 1, current, value =>
      if current = 0xffff then some value
      else
        (metadata.readItems current).bind fun read =>
          let turn := body value read.1 read.2
          if turn.2 ∨ current = metadata.tail then some turn.1
          else if current = read.1.next then none
          else forItems metadata body turns read.1.next turn.1

/-- Offsets are words of 16 bits. -/
def turnsOfWalk : Nat := 65537

/-- The uid of the type of an item. -/
def uidOf (item : SmallItem) : Nat := item.typeUid / 2

section Wire

variable (types : TypeIds)

/-- The name of the type of an item, which payload does not have; `none` for a type that is not
registered. -/
def nameOf (item : SmallItem) : Option (List UInt8) :=
  if uidOf item = 0 then some [] else types.getName (uidOf item)

/-- What an item adds to the size. -/
def itemSize (item : SmallItem) : Option Nat :=
  (nameOf types item).map fun name => 4 + name.length + (1 + 4 + 2 + 4 + 4 + 8)

/-- `GetSerializedSize`, a word of 32 bits. -/
def getSerializedSize (enable : Bool) (metadata : PacketMetadata) : Option Nat :=
  if !enable then some 8
  else
    (metadata.forItems (fun (size : Option Nat) item _ =>
      (size.bind fun size => (itemSize types item).map (size + ·), false))
      turnsOfWalk metadata.head (some 8)).bind fun size => size.map (· % 4294967296)

/-- `AddToRaw`: some octets behind those that were written, unless they do not fit. -/
def addToRaw (maxSize : Nat) (written data : List UInt8) : Bool × List UInt8 :=
  if maxSize < (written.length + data.length) % 4294967296 then (false, written)
  else (true, written ++ data)

/-- Pieces one after the other, until one does not fit. -/
def addAll (maxSize : Nat) : List UInt8 → List (List UInt8) → Bool × List UInt8
  | written, [] => (true, written)
  | written, piece :: rest =>
      let added := addToRaw maxSize written piece
      if added.1 then addAll maxSize added.2 rest else added

/-- What `Serialize` writes of an item. -/
def itemPieces (name : List UInt8) (item : SmallItem) (extra : ExtraItem) : List (List UInt8) :=
  (if uidOf item = 0 then [htol 4 0] else [htol 4 name.length, name]) ++
    [htol 1 (item.typeUid % 2), htol 4 item.size, htol 2 item.chunkUid, htol 4 extra.fragmentStart,
      htol 4 extra.fragmentEnd, htol 8 extra.packetUid]

/-- A turn of the loop of `Serialize`, with what was written before. -/
def serializeItem (maxSize : Nat) (value : Option (Bool × List UInt8)) (item : SmallItem)
    (extra : ExtraItem) : Option (Bool × List UInt8) × Bool :=
  let next := value.bind fun written => (nameOf types item).map fun name =>
    addAll maxSize written.2 (itemPieces name item extra)
  (next, next.all fun written => !written.1)

/-- `Serialize`: the answer, and what it wrote.  It asserts that it wrote all it was allowed to. -/
def serialize (metadata : PacketMetadata) (maxSize : Nat) : Option (Nat × List UInt8) :=
  let first := addToRaw maxSize [] (htol 8 metadata.packetUid)
  if first.1 then
    ((metadata.forItems (serializeItem types maxSize) turnsOfWalk metadata.head
      (some first)).bind id).bind fun written =>
        if !written.1 then some (0, written.2)
        else if written.2.length % 4294967296 = maxSize then some (1, written.2)
        else none
  else some (0, first.2)

/-! ## Deserialization -/

/-- The octets of a big item. -/
def encodeBig (next prev typeUid : Nat) (item : SmallItem) (extra : ExtraItem) : List UInt8 :=
  htol 2 next ++ htol 2 prev ++ appendValue typeUid ++ appendValue item.size ++
    htol 2 item.chunkUid ++ appendValue extra.fragmentStart ++ appendValue extra.fragmentEnd ++
    htol 4 extra.packetUid

/-- `AddBig`: the item at the end of the used part of the array, which grows when needed, and its
size. -/
def addBig (metadata : PacketMetadata) (next prev : Nat) (item : SmallItem) (extra : ExtraItem) :
    Option (PacketMetadata × Nat) :=
  let typeUid := if item.typeUid % 2 = 1 then item.typeUid else item.typeUid + 1
  let n := 2 + 2 + getUleb128Size typeUid + getUleb128Size item.size + 2 +
    getUleb128Size extra.fragmentStart + getUleb128Size extra.fragmentEnd + 4
  if metadata.used ≠ prev ∧ metadata.used ≠ next then
    some ({ metadata with
      data := metadata.data.take metadata.used ++ encodeBig next prev typeUid item extra ++
        metadata.data.drop (metadata.used + n) }, n)
  else none

/-- `UpdateTail`: the new item becomes the last one, and the next one of the last one before. -/
def updateTail (metadata : PacketMetadata) (written : Nat) : Option PacketMetadata :=
  let used := metadata.used % 65536
  if used ≠ 0xffff ∧ 8 ≤ written ∧ (metadata.head = 0xffff ↔ metadata.tail = 0xffff) then
    if metadata.head = 0xffff then
      some { metadata with head := used, tail := used, used := metadata.used + written }
    else
      some { metadata with
        data := metadata.data.take metadata.tail ++ htol 2 metadata.used ++
          metadata.data.drop (metadata.tail + 2)
        tail := used
        used := metadata.used + written }
  else none

/-- `ReadFromRaw` in a buffer of so many octets: its check uses the size that was given. -/
def readFromRaw (length size octets : Nat) : Reader Nat := fun bytes =>
  if size < (length - bytes.length + octets) % 4294967296 then none else ltoh octets bytes

/-- The characters of a name. -/
def readName (length size : Nat) : Nat → Reader (List UInt8)
  | 0 => pure []
  | left + 1 => do
      let ch ← readFromRaw length size 1
      let rest ← readName length size left
      pure (UInt8.ofNat ch :: rest)

/-- The uid of an item, and how many octets it took. -/
def readUid (length size : Nat) : Reader (Nat × Nat) := do
  let uidStringSize ← readFromRaw length size 4
  if uidStringSize = 0 then pure (0, 4)
  else
    let name ← readName length size uidStringSize
    let uid ← fun bytes => (types.lookupByName name).map (·, bytes)
    pure (uid, 4 + uidStringSize)

/-- An item in the buffer, and how many octets it took. -/
def readItem (length size : Nat) : Reader ((SmallItem × ExtraItem) × Nat) := do
  let (uid, taken) ← readUid types length size
  let isBig ← readFromRaw length size 1
  let itemSize ← readFromRaw length size 4
  let chunkUid ← readFromRaw length size 2
  let fragmentStart ← readFromRaw length size 4
  let fragmentEnd ← readFromRaw length size 4
  let packetUid ← readFromRaw length size 8
  pure ((({ next := 0, prev := 0, typeUid := uid <<< 1 ||| isBig, size := itemSize, chunkUid },
    { fragmentStart, fragmentEnd, packetUid })), taken + (1 + 4 + 2 + 4 + 4 + 8))

/-- The loop of `Deserialize`, with the count of the octets left, a word of 32 bits. -/
def deserializeFrom (length size : Nat) :
    Nat → Nat → PacketMetadata → List UInt8 → Option PacketMetadata
  | 0, _, _, _ => none
  | turns + 1, desSize, metadata, bytes =>
      if desSize = 0 then some metadata
      else
        (readItem types length size bytes).bind fun read =>
          (metadata.addBig 0xffff metadata.tail read.1.1.1 read.1.1.2).bind fun added =>
            (added.1.updateTail (added.2 % 65536)).bind fun next =>
              deserializeFrom length size turns
                ((desSize + 4294967296 - read.1.2 % 4294967296) % 4294967296) next read.2

/-- `Deserialize`: the size counts four octets that are not in the buffer. -/
def deserialize (metadata : PacketMetadata) (buffer : List UInt8) (size : Nat) :
    Option (Nat × PacketMetadata) :=
  (readFromRaw buffer.length size 8 buffer).bind fun read =>
    (deserializeFrom types buffer.length size (size + 1)
      ((size + 4294967296 - 12) % 4294967296)
      { metadata with packetUid := read.1 } read.2).map (1, ·)

end Wire

end PacketMetadata

end DeepcV2x.Packets
