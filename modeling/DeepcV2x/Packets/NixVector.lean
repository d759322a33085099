import DeepcV2x.Foundation.BitFields

/-!
# The nix-vector

`NixVector` packs the neighbor indexes of a route into words of 32 bits and
takes them out again from the last one on.  `Packet` writes a nix-vector behind
the length of its section.
-/

namespace DeepcV2x.Packets

open Foundation.BitFields

/-- `NixVector`. -/
structure NixVector where
  nixVector : List Nat := []
  used : Nat := 0
  totalBitSize : Nat := 0
  epoch : Nat := 0
  deriving DecidableEq, Repr

/-- `<<` of a `uint32_t`, which is undefined for a count of 32 or more. -/
def shl32 (value count : Nat) : Option Nat :=
  if count < 32 then some ((value <<< count) % 4294967296) else none

/-- `>>` of a `uint32_t`, which is undefined for a count of 32 or more. -/
def shr32 (value count : Nat) : Option Nat :=
  if count < 32 then some (value >>> count) else none

/-- `-` of `uint32_t`. -/
def minus32 (a b : Nat) : Nat := (a + 4294967296 - b) % 4294967296

namespace NixVector

/-- `AddNeighborIndex`, which fails fatally for more than 32 bits. -/
def addNeighborIndex (nix : NixVector) (newBits numberOfBits : Nat) : Option NixVector :=
  if 32 < numberOfBits then none
  else do
    let currentVectorBitSize := nix.totalBitSize % 32
    let words := if currentVectorBitSize = 0 then nix.nixVector ++ [0] else nix.nixVector
    let back ← words.getLast?
    let totalBitSize := (nix.totalBitSize + numberOfBits) % 4294967296
    if 32 < currentVectorBitSize + numberOfBits then
      let tempBits ← shl32 newBits currentVectorBitSize
      let rest ← shr32 newBits (32 - currentVectorBitSize)
      some { nix with nixVector := words.dropLast ++ [tempBits ||| back, rest], totalBitSize }
    else
      let shifted ← shl32 newBits currentVectorBitSize
      some { nix with nixVector := words.dropLast ++ [shifted ||| back], totalBitSize }

def getRemainingBits (nix : NixVector) : Nat := minus32 nix.totalBitSize nix.used

/-- The highest bits of those that remain, cut from one word or from two. -/
def cutIndex (nixVector : List Nat) (totalRemainingBits numberOfBits : Nat) : Option Nat := do
  let vectorIndex := (totalRemainingBits - 1) / 32
  let word ← nixVector[vectorIndex]?
  let extractedBits ← shl32 word (32 - totalRemainingBits % 32)
  if 0 < vectorIndex ∧ (totalRemainingBits - 1) % 32 < numberOfBits - 1 then
    let high ← shr32 extractedBits
      (minus32 (32 - totalRemainingBits % 32) (minus32 numberOfBits (totalRemainingBits % 32)))
    let below ← nixVector[vectorIndex - 1]?
    let low ← shr32 below (minus32 32 (minus32 numberOfBits (totalRemainingBits % 32)))
    some (high ||| low)
  else shr32 extractedBits (32 - numberOfBits)

/-- `ExtractNeighborIndex`: the index, and the vector without it. -/
def extractNeighborIndex (nix : NixVector) (numberOfBits : Nat) : Option (Nat × NixVector) :=
  if 32 < numberOfBits ∨ nix.getRemainingBits < numberOfBits ∨ numberOfBits = 0 then none
  else (cutIndex nix.nixVector nix.getRemainingBits numberOfBits).map fun extractedBits =>
    (extractedBits, { nix with used := (nix.used + numberOfBits) % 4294967296 })

/-! ## Serialization -/

def getSerializedSize (nix : NixVector) : Nat :=
  if nix.totalBitSize = 0 then 4 else (12 + 4 * nix.nixVector.length) % 4294967296

/-- `Serialize`: the words that are written. -/
def serialize (nix : NixVector) (maxSize : Nat) : Option (List Nat) :=
  if maxSize < nix.getSerializedSize then none
  else if nix.totalBitSize = 0 then some [nix.totalBitSize]
  else some (nix.totalBitSize :: nix.used :: nix.nixVector ++ [nix.epoch])

/-- `Deserialize`; `none` when an assertion fails, nothing is deserialized or the buffer ends. -/
def deserialize (nix : NixVector) (size : Nat) : List Nat → Option NixVector
  | [] => none
  | totalBitSize :: p =>
      if size < 4 then none
      else if totalBitSize = 0 then some { nix with totalBitSize }
      else
        let nixVectorLength := totalBitSize / 32 + if totalBitSize % 32 ≠ 0 then 1 else 0
        if size < 16 + nixVectorLength ∨ size < 16 + nixVectorLength * 4 then none
        else
          match p with
          | [] => none
          | used :: words =>
              words[nixVectorLength]?.map fun epoch =>
                { nixVector := words.take nixVectorLength, used, totalBitSize, epoch }

/-- What `Packet::Serialize` writes of a nix-vector: the length of the section and its words. -/
def toSection (nix : NixVector) : Option (List Nat) :=
  (nix.serialize nix.getSerializedSize).map fun words => (nix.getSerializedSize + 4) :: words

/-- What `Packet::Deserialize` reads of a section with a nix-vector. -/
def ofSection : List Nat → Option NixVector
  | [] => none
  | nixSize :: p => if 4 < nixSize then ({} : NixVector).deserialize nixSize p else none

/-! ## Sequences of calls -/

/-- Add the fields of a list, from the first one on. -/
def addAll (nix : NixVector) : List Field → Option NixVector
  | [] => some nix
  | field :: rest => (nix.addNeighborIndex field.1 field.2).bind fun next => next.addAll rest

/-- Extract fields of given widths. -/
def extractAll (nix : NixVector) : List Nat → Option (List Nat × NixVector)
  | [] => some ([], nix)
  | width :: rest =>
      (nix.extractNeighborIndex width).bind fun first =>
        (first.2.extractAll rest).map fun others => (first.1 :: others.1, others.2)

end NixVector

end DeepcV2x.Packets
