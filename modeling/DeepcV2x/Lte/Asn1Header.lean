import Mathlib.Data.BitVec
import Mathlib.Data.Nat.Log

/-!
# The ASN.1 header

`Asn1Header` writes the fields of a message bit after bit, and reads them back.
Bits that do not fill an octet are pending.  A failed assertion, an exit and a
read behind the last octet end the run.  The bits of a range are the ceiling of
its logarithm, and the bounds of a range are such that `int` holds its size.
-/

namespace DeepcV2x.Lte

/-- The octets that are written, and the pending bits. -/
structure Asn1Header where
  serializationPendingBits : UInt8 := 0
  numSerializationPendingBits : UInt8 := 0
  isDataSerialized : Bool := false
  serializationResult : List UInt8 := []
  deriving DecidableEq, Repr

namespace Asn1Header

/-! ## Writing -/

/-- `WriteOctet`. -/
def writeOctet (header : Asn1Header) (octet : UInt8) : Asn1Header :=
  { header with serializationResult := header.serializationResult ++ [octet] }

/-- The first bits of the data complete the pending octet; also the number of the other bits. -/
def completeOctet {N : Nat} (data : BitVec N) (header : Asn1Header) (mask : UInt8) :
    Nat → Asn1Header × Nat
  | 0 => (header, 0)
  | pendingBits + 1 =>
      if header.numSerializationPendingBits < 8 then
        completeOctet data
          { header with
            serializationPendingBits :=
              header.serializationPendingBits ||| if data.getLsbD pendingBits then mask else 0
            numSerializationPendingBits := header.numSerializationPendingBits + 1 }
          (mask >>> 1 &&& ~~~mask) pendingBits
      else (header, pendingBits + 1)

/-- The remaining bits are put into an octet from its most significant bit on. -/
def remainingBits {N : Nat} (data : BitVec N) : Nat → UInt8 → UInt8 → UInt8
  | 0, _, bits => bits
  | pendingBits + 1, mask, bits =>
      remainingBits data pendingBits (mask >>> 1 &&& ~~~mask)
        (bits ||| if data.getLsbD pendingBits then mask else 0)

/-- Eight bits are put into an octet from its least significant bit on. -/
def octetToWrite {N : Nat} (data : BitVec N) (pendingBits : Nat) : Nat → UInt8 → UInt8 → UInt8
  | 0, _, octet => octet
  | j + 1, mask, octet =>
      octetToWrite data pendingBits j (mask <<< 1 &&& ~~~mask)
        (octet ||| if data.getLsbD (pendingBits - (j + 1)) then mask else 0)

/-- Octets are written while there are eight bits, and the others are pending. -/
def writeBits {N : Nat} (data : BitVec N) (header : Asn1Header) (pendingBits : Nat) : Asn1Header :=
  if pendingBits = 0 then header
  else if pendingBits < 8 then
    { header with
      numSerializationPendingBits := UInt8.ofNat pendingBits
      serializationPendingBits :=
        remainingBits data pendingBits 0x80 header.serializationPendingBits }
  else writeBits data (header.writeOctet (octetToWrite data pendingBits 8 1 0)) (pendingBits - 8)
termination_by pendingBits

/-- `SerializeBitset`; nothing is written of more than 65536 bits. -/
def serializeBitset {N : Nat} (data : BitVec N) (header : Asn1Header) : Asn1Header :=
  if N = 0 then header
  else if N ≤ 65536 then
    if header.numSerializationPendingBits > 0 then
      let (completed, pendingBits) :=
        completeOctet data header (0x80 >>> header.numSerializationPendingBits) (N % 256)
      if completed.numSerializationPendingBits ≥ 8 then
        writeBits data
          { completed.writeOctet completed.serializationPendingBits with
            numSerializationPendingBits := 0, serializationPendingBits := 0 } pendingBits
      else writeBits data completed pendingBits
    else writeBits data header (N % 256)
  else header

/-- `SerializeBitstring`. -/
def serializeBitstring {N : Nat} (data : BitVec N) (header : Asn1Header) : Asn1Header :=
  serializeBitset data header

/-- `SerializeBoolean`. -/
def serializeBoolean (value : Bool) (header : Asn1Header) : Asn1Header :=
  serializeBitset (BitVec.ofBool value) header

/-- `SerializeSequence`. -/
def serializeSequence {N : Nat} (optionalOrDefaultMask : BitVec N) (isExtensionMarkerPresent : Bool)
    (header : Asn1Header) : Asn1Header :=
  serializeBitstring optionalOrDefaultMask
    (if isExtensionMarkerPresent then serializeBoolean false header else header)

/-- The bits of the numbers below a range. -/
def requiredBits (range : Int) : Nat := Nat.clog 2 range.toNat

/-- `SerializeInteger`. -/
def serializeInteger (n nmin nmax : Int) (header : Asn1Header) : Option Asn1Header :=
  if nmin ≤ n ∧ n ≤ nmax then
    let range := nmax - nmin + 1
    if range ≤ 1 then some header
    else if 1 ≤ requiredBits range ∧ requiredBits range ≤ 20 then
      some (serializeBitset (BitVec.ofInt (requiredBits range) (n - nmin)) header)
    else none
  else none

/-- `SerializeSequenceOf`. -/
def serializeSequenceOf (numElems nMax nMin : Int) (header : Asn1Header) : Option Asn1Header :=
  serializeInteger numElems nMin nMax header

/-- `SerializeEnum`. -/
def serializeEnum (numElems selectedElem : Int) (header : Asn1Header) : Option Asn1Header :=
  serializeInteger selectedElem 0 (numElems - 1) header

/-- `SerializeChoice`. -/
def serializeChoice (numOptions selectedOption : Int) (isExtensionMarkerPresent : Bool)
    (header : Asn1Header) : Option Asn1Header :=
  let marked := if isExtensionMarkerPresent then serializeBoolean false header else header
  if numOptions < 2 then some marked
  else serializeInteger selectedOption 0 (numOptions - 1) marked

/-- `FinalizeSerialization`. -/
def finalizeSerialization (header : Asn1Header) : Asn1Header :=
  let written :=
    if header.numSerializationPendingBits > 0 then
      serializeBitset header.serializationPendingBits.toBitVec
        { header with numSerializationPendingBits := 0 }
    else header
  { written with isDataSerialized := true }

/-! ## Reading -/

/-- `std::bitset::set`. -/
def setBit {N : Nat} (data : BitVec N) (position : Nat) (value : Bool) : BitVec N :=
  if value then data ||| BitVec.twoPow N position else data &&& ~~~BitVec.twoPow N position

/-- Bits are read from the pending ones; also the number of the other bits. -/
def readPending {N : Nat} (data : BitVec N) (header : Asn1Header) :
    Nat → BitVec N × Asn1Header × Nat
  | 0 => (data, header, 0)
  | bitsToRead + 1 =>
      if header.numSerializationPendingBits > 0 then
        readPending (setBit data bitsToRead (header.serializationPendingBits &&& 0x80 != 0))
          { header with
            numSerializationPendingBits := header.numSerializationPendingBits - 1
            serializationPendingBits := header.serializationPendingBits <<< 1 } bitsToRead
      else (data, header, bitsToRead + 1)

/-- Some bits of an octet are set. -/
def setBits {N : Nat} (octet : UInt8) : Nat → UInt8 → Nat → BitVec N → BitVec N
  | 0, _, _, data => data
  | count + 1, mask, bitsToRead, data =>
      setBits octet count (mask >>> 1) (bitsToRead - 1)
        (setBit data (bitsToRead - 1) (octet &&& mask != 0))

/-- Bits are read from the octets; those of the last octet that are not read are pending. -/
def readOctets {N : Nat} (data : BitVec N) (header : Asn1Header) :
    List UInt8 → Nat → Option (BitVec N × Asn1Header × List UInt8)
  | octets, 0 => some (data, header, octets)
  | [], _ + 1 => none
  | octet :: octets, bitsToRead + 1 =>
      if 8 ≤ bitsToRead + 1 then
        readOctets (setBits octet 8 0x80 (bitsToRead + 1) data) header octets (bitsToRead + 1 - 8)
      else
        some (setBits octet (bitsToRead + 1) 0x80 (bitsToRead + 1) data,
          { header with
            numSerializationPendingBits := 8 - UInt8.ofNat (bitsToRead + 1)
            serializationPendingBits := octet <<< UInt8.ofNat (bitsToRead + 1) }, octets)

/-- A reader has its pending bits and the octets behind the iterator. -/
abbrev Reader (α : Type) : Type := StateT (Asn1Header × List UInt8) Option α

/-- `DeserializeBitset`, with what the bit set was before. -/
def deserializeBitset {N : Nat} (data : BitVec N) : Reader (BitVec N) := fun (header, octets) =>
  let (set, rest, bitsToRead) := readPending data header N
  readOctets set rest octets bitsToRead

/-- `DeserializeBitstring`. -/
def deserializeBitstring {N : Nat} (data : BitVec N) : Reader (BitVec N) := deserializeBitset data

/-- `DeserializeBoolean`. -/
def deserializeBoolean : Reader Bool := do
  let readBit ← deserializeBitset 0#1
  pure (readBit.getLsbD 0)

/-- `DeserializeSequence`. -/
def deserializeSequence {N : Nat} (optionalOrDefaultMask : BitVec N)
    (isExtensionMarkerPresent : Bool) : Reader (BitVec N) := do
  if isExtensionMarkerPresent then
    let _ ← deserializeBoolean
  deserializeBitset optionalOrDefaultMask

/-- `DeserializeInteger`: with a range of one number the variable stays as it is. -/
def deserializeInteger (n nmin nmax : Int) : Reader Int := do
  let least := if nmin > nmax then nmax else nmin
  let greatest := if nmin > nmax then nmin else nmax
  let range := greatest - least + 1
  if range = 1 then pure n
  else if 1 ≤ requiredBits range ∧ requiredBits range ≤ 20 then
    let bitsRead ← deserializeBitset (0#(requiredBits range))
    pure (bitsRead.toNat + least)
  else failure

/-- `DeserializeChoice`. -/
def deserializeChoice (numOptions : Int) (isExtensionMarkerPresent : Bool) (selectedOption : Int) :
    Reader Int := do
  if isExtensionMarkerPresent then
    let _ ← deserializeBoolean
  deserializeInteger selectedOption 0 (numOptions - 1)

/-- `DeserializeEnum`. -/
def deserializeEnum (numElems selectedElem : Int) : Reader Int :=
  deserializeInteger selectedElem 0 (numElems - 1)

/-- `DeserializeSequenceOf`. -/
def deserializeSequenceOf (numElems nMax nMin : Int) : Reader Int :=
  deserializeInteger numElems nMin nMax

end Asn1Header

end DeepcV2x.Lte
