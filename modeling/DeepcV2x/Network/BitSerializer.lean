import DeepcV2x.Foundation.BitOctets
import Mathlib.Data.Nat.Bitwise

/-!
# The bit serializer

`BitSerializer` collects the bits of numbers and packs them into octets, and
`BitDeserializer` takes numbers from the bits of octets.  An abort ends the run.
-/

namespace DeepcV2x.Network

open Foundation.BitOctets

/-! ## The serializer -/

structure BitSerializer where
  blob : List Bool := []
  padAtEnd : Bool := true

/-- The number of bits that are padded. -/
def padding (blob : List Bool) : Nat := 8 - blob.length % 8

/-- The octet of eight bits: `tmp` is shifted for each of them. -/
def packOctet (bits : List Bool) : UInt8 :=
  bits.foldl (fun tmp bit => tmp <<< 1 ||| if bit then 1 else 0) 0

/-- The octets of bits that fill them. -/
def packOctets : List Bool → List UInt8
  | first :: second :: third :: fourth :: fifth :: sixth :: seventh :: eighth :: rest =>
      packOctet [first, second, third, fourth, fifth, sixth, seventh, eighth] :: packOctets rest
  | _ => []

namespace BitSerializer

/-- `PadAtStart`. -/
def padStart (serializer : BitSerializer) : BitSerializer :=
  { serializer with blob := List.replicate (padding serializer.blob) false ++ serializer.blob }

/-- `PadAtEnd`. -/
def padEnd (serializer : BitSerializer) : BitSerializer :=
  { serializer with blob := serializer.blob ++ List.replicate (padding serializer.blob) false }

def pad (serializer : BitSerializer) : BitSerializer :=
  if serializer.padAtEnd then serializer.padEnd else serializer.padStart

/-- The loop of `PushBits`. -/
def pushFrom (value : Nat) : Nat → Nat → List Bool → List Bool
  | 0, _, blob => blob
  | left + 1, mask, blob =>
      pushFrom value left (mask >>> 1) (blob ++ [decide (value &&& mask ≠ 0)])

/-- `PushBits`, of one to 64 bits. -/
def pushBits (serializer : BitSerializer) (value significantBits : Nat) : BitSerializer :=
  { serializer with
    blob := pushFrom value significantBits (1 <<< (significantBits - 1)) serializer.blob }

/-- `GetBytes()`. -/
def getBytes (serializer : BitSerializer) : List UInt8 × BitSerializer :=
  let padded := serializer.pad
  (packOctets padded.blob, { padded with blob := [] })

/-- `GetBytes(buffer, size)`: the octets with the places of the buffer that they are written to, and
the result; both are counted by an octet, and eight times the size by a word. -/
def getBytesInto (serializer : BitSerializer) (size : Nat) :
    Option ((List (UInt8 × Nat) × Nat) × BitSerializer) :=
  let padded := serializer.pad
  if padded.blob.length ≤ 8 * size % 4294967296 then none
  else
    let octets := packOctets padded.blob
    some ((octets.zipIdx.map fun entry => (entry.1, entry.2 % 256), octets.length % 256),
      { padded with blob := [] })

end BitSerializer

/-! ## The deserializer -/

structure BitDeserializer where
  bytesBlob : List UInt8 := []
  blob : List Bool := []
  deserializing : Bool := false

/-- The bits of an octet. -/
def unpackOctet (octet : UInt8) : List Bool :=
  [octet &&& 0x80 != 0, octet &&& 0x40 != 0, octet &&& 0x20 != 0, octet &&& 0x10 != 0,
    octet &&& 0x8 != 0, octet &&& 0x4 != 0, octet &&& 0x2 != 0, octet &&& 0x1 != 0]

namespace BitDeserializer

/-- `PushBytes`. -/
def pushBytes (deserializer : BitDeserializer) (bytes : List UInt8) : Option BitDeserializer :=
  if deserializer.deserializing then none
  else some { deserializer with bytesBlob := deserializer.bytesBlob ++ bytes }

/-- `PrepareDeserialization`. -/
def prepareDeserialization (deserializer : BitDeserializer) : BitDeserializer :=
  if deserializer.deserializing then deserializer
  else { deserializer with
    deserializing := true
    blob := deserializer.blob ++ deserializer.bytesBlob.flatMap unpackOctet }

/-- `GetBits`: the result is an octet. -/
def getBits (deserializer : BitDeserializer) (size : Nat) : Option (Nat × BitDeserializer) :=
  let prepared := deserializer.prepareDeserialization
  if size > 64 then none
  else if size > prepared.blob.length then none
  else some ((packOctet (prepared.blob.take size)).toNat,
    { prepared with blob := prepared.blob.drop size })

/-- Several calls of `GetBits`. -/
def getAll (deserializer : BitDeserializer) : List Nat → Option (List Nat)
  | [] => some []
  | size :: sizes =>
      (deserializer.getBits size).bind fun result =>
        (result.2.getAll sizes).map (result.1 :: ·)

end BitDeserializer

/-! ## Fields -/

/-- A number, and how many bits of it are pushed. -/
structure BitField where
  value : Nat
  significantBits : Nat

/-- The number has no further bits. -/
structure BitField.Valid (field : BitField) : Prop where
  pos : 1 ≤ field.significantBits
  le : field.significantBits ≤ 64
  lt : field.value < 2 ^ field.significantBits

/-- The bits of a number, the most significant one first. -/
def BitField.bits (field : BitField) : List Bool :=
  descending field.value.testBit field.significantBits

/-- All fields are pushed. -/
def pushAll (fields : List BitField) : BitSerializer :=
  fields.foldl (fun serializer field => serializer.pushBits field.value field.significantBits) {}

/-- The number of bits that are pushed. -/
def totalBits (fields : List BitField) : Nat :=
  (fields.map BitField.significantBits).sum

/-- The octets that the bits need. -/
def neededBytes (fields : List BitField) : Nat := (totalBits fields + 7) / 8

/-- The octets are those that the bits need, also in a buffer of a size, and give the numbers back. -/
structure RoundTrips (fields : List BitField) (size : Nat) : Prop where
  length : (pushAll fields).getBytes.1.length = neededBytes fields
  buffer : neededBytes fields ≤ 255 → neededBytes fields ≤ size →
    ((pushAll fields).getBytesInto size).map Prod.fst =
      some ((pushAll fields).getBytes.1.zipIdx, neededBytes fields)
  values : ((BitDeserializer.pushBytes {} (pushAll fields).getBytes.1).bind fun deserializer =>
    deserializer.getAll (fields.map BitField.significantBits)) = some (fields.map BitField.value)

/-! ## What is packed -/

theorem testBit_and_shift (value position : Nat) :
    decide (value &&& 1 <<< position ≠ 0) = value.testBit position := by
  rw [Nat.one_shiftLeft, Nat.and_two_pow]
  cases value.testBit position with
  | false => simp
  | true => simp

theorem pushFrom_eq (value : Nat) (left : Nat) : ∀ blob : List Bool,
    BitSerializer.pushFrom value left (1 <<< (left - 1)) blob =
      blob ++ descending value.testBit left := by
  induction left with
  | zero => exact fun blob => (List.append_nil blob).symm
  | succ left ih =>
      intro blob
      have hmask : (1 <<< (left + 1 - 1)) >>> 1 = 1 <<< (left - 1) ∨ left = 0 := by
        cases left with
        | zero => exact .inr rfl
        | succ left =>
            refine .inl ?_
            rw [Nat.one_shiftLeft, Nat.one_shiftLeft, Nat.shiftRight_eq_div_pow,
              Nat.add_sub_cancel, Nat.add_sub_cancel, Nat.pow_succ]
            exact Nat.mul_div_cancel _ (by decide)
      rw [BitSerializer.pushFrom, Nat.add_sub_cancel, testBit_and_shift, descending]
      rcases hmask with hmask | rfl
      · rw [Nat.add_sub_cancel] at hmask
        rw [hmask, ih, List.append_assoc]
        rfl
      · rfl

/-- The bits of all fields, in order. -/
theorem blob_pushAll (fields : List BitField) :
    (pushAll fields).blob = fields.flatMap BitField.bits ∧ (pushAll fields).padAtEnd = true := by
  have hall : ∀ serializer : BitSerializer,
      let pushed := fields.foldl
        (fun serializer field => serializer.pushBits field.value field.significantBits) serializer
      pushed.blob = serializer.blob ++ fields.flatMap BitField.bits ∧
        pushed.padAtEnd = serializer.padAtEnd := by
    induction fields with
    | nil => exact fun serializer => ⟨(List.append_nil _).symm, rfl⟩
    | cons field fields ih =>
        intro serializer
        obtain ⟨hblob, hpad⟩ := ih (serializer.pushBits field.value field.significantBits)
        refine ⟨hblob.trans ?_, hpad⟩
        rw [BitSerializer.pushBits, pushFrom_eq, List.flatMap_cons, List.append_assoc]
        rfl
  exact hall {}

theorem length_bits (fields : List BitField) :
    (fields.flatMap BitField.bits).length = totalBits fields := by
  rw [List.length_flatMap, totalBits]
  congr 1
  exact List.map_congr_left fun field _ => length_descending _ _

/-- The octets of the padded bits. -/
theorem getBytes_pushAll (fields : List BitField) :
    (pushAll fields).getBytes.1 = packOctets (fields.flatMap BitField.bits ++
      List.replicate (8 - totalBits fields % 8) false) := by
  obtain ⟨hblob, hpad⟩ := blob_pushAll fields
  rw [BitSerializer.getBytes, BitSerializer.pad, if_pos hpad, BitSerializer.padEnd, padding, hblob,
    length_bits]

theorem unpackOctet_packOctet : ∀ first second third fourth fifth sixth seventh eighth : Bool,
    unpackOctet (packOctet [first, second, third, fourth, fifth, sixth, seventh, eighth]) =
      [first, second, third, fourth, fifth, sixth, seventh, eighth] := by
  decide +kernel

/-- Bits that fill octets are packed and unpacked. -/
theorem unpack_packOctets (octets : Nat) : ∀ {bits : List Bool}, bits.length = 8 * octets →
    (packOctets bits).length = octets ∧ (packOctets bits).flatMap unpackOctet = bits := by
  induction octets with
  | zero =>
      intro bits hlength
      obtain rfl := List.eq_nil_of_length_eq_zero hlength
      exact ⟨rfl, rfl⟩
  | succ octets ih =>
      intro bits hlength
      match bits with
      | first :: second :: third :: fourth :: fifth :: sixth :: seventh :: eighth :: rest =>
          simp only [List.length_cons] at hlength
          obtain ⟨hcount, hbits⟩ := @ih rest (by omega)
          rw [packOctets, List.length_cons, hcount, List.flatMap_cons, hbits, unpackOctet_packOctet]
          exact ⟨rfl, rfl⟩
      | [] | [_] | [_, _] | [_, _, _] | [_, _, _, _] | [_, _, _, _, _] | [_, _, _, _, _, _]
      | [_, _, _, _, _, _, _] =>
          simp only [List.length_cons, List.length_nil] at hlength
          omega

/-! ## What is unpacked -/

theorem shift_or_all : ∀ (tmp : Fin 256) (bit : Bool),
    (UInt8.ofNat tmp.val <<< 1 ||| if bit then 1 else 0).toNat =
      (2 * tmp.val + bit.toNat) % 256 := by
  decide +kernel

/-- One more bit is shifted into an octet. -/
theorem toNat_shift_or (tmp : UInt8) (bit : Bool) :
    (tmp <<< 1 ||| if bit then 1 else 0).toNat = (2 * tmp.toNat + bit.toNat) % 256 := by
  have hall := shift_or_all ⟨tmp.toNat, tmp.toNat_lt⟩ bit
  rwa [UInt8.ofNat_toNat] at hall

/-- The octet of the bits of a number behind other bits has the lowest bits of both. -/
theorem toNat_foldl_descending (value : Nat) (size : Nat) : ∀ tmp : UInt8,
    ((descending value.testBit size).foldl
      (fun (tmp : UInt8) bit => tmp <<< 1 ||| if bit then 1 else 0) tmp).toNat =
        (tmp.toNat * 2 ^ size + value % 2 ^ size) % 256 := by
  induction size with
  | zero =>
      intro tmp
      rw [descending, List.foldl_nil, Nat.pow_zero, Nat.mul_one, Nat.mod_one, Nat.add_zero,
        Nat.mod_eq_of_lt tmp.toNat_lt]
  | succ size ih =>
      intro tmp
      have hbit : value % 2 ^ (size + 1) = (value.testBit size).toNat * 2 ^ size + value % 2 ^ size := by
        rw [Nat.pow_succ, Nat.mod_mul, Nat.add_comm, Nat.mul_comm, Nat.toNat_testBit]
      rw [descending, List.foldl_cons, ih, toNat_shift_or, hbit, ← Nat.add_assoc, Nat.add_mod,
        Nat.mod_mul_mod, ← Nat.add_mod]
      congr 2
      rw [Nat.add_mul, Nat.pow_succ, Nat.mul_comm 2, Nat.mul_assoc, Nat.mul_comm 2]

/-- The number that is taken from the bits of a field. -/
theorem toNat_packOctet_bits {field : BitField} (valid : field.Valid) :
    (packOctet field.bits).toNat = field.value % 256 := by
  rw [packOctet, BitField.bits, toNat_foldl_descending, Nat.mod_eq_of_lt valid.lt]
  rw [show (0 : UInt8).toNat = 0 from rfl, Nat.zero_mul, Nat.zero_add]

/-- The numbers that are taken from the bits of some fields. -/
theorem getAll_bits {fields : List BitField} (valid : ∀ field ∈ fields, field.Valid) :
    ∀ (bytesBlob : List UInt8) (rest : List Bool),
      BitDeserializer.getAll ⟨bytesBlob, fields.flatMap BitField.bits ++ rest, true⟩
        (fields.map BitField.significantBits) =
          some (fields.map fun field => field.value % 256) := by
  induction fields with
  | nil => exact fun _ _ => rfl
  | cons field fields ih =>
      intro bytesBlob rest
      obtain ⟨hfield, hfields⟩ := List.forall_mem_cons.mp valid
      have hlength : field.bits.length = field.significantBits := length_descending _ _
      have hget : BitDeserializer.getBits
          ⟨bytesBlob, field.bits ++ (fields.flatMap BitField.bits ++ rest), true⟩
          field.significantBits = some (field.value % 256,
            ⟨bytesBlob, fields.flatMap BitField.bits ++ rest, true⟩) := by
        have hfew : ¬ field.significantBits > 64 := Nat.not_lt_of_le hfield.le
        have hin : ¬ field.significantBits >
            (field.bits ++ (fields.flatMap BitField.bits ++ rest)).length := by
          rw [List.length_append, hlength]
          omega
        rw [BitDeserializer.getBits, BitDeserializer.prepareDeserialization, if_pos rfl, if_neg hfew,
          if_neg hin, List.take_left' hlength, List.drop_left' hlength, toNat_packOctet_bits hfield]
      rw [List.flatMap_cons, List.append_assoc, List.map_cons, BitDeserializer.getAll, hget,
        Option.bind_some, ih hfields]
      rfl

/-- The deserializer takes the lowest eight bits of each number. -/
theorem getAll_getBytes {fields : List BitField} (valid : ∀ field ∈ fields, field.Valid) :
    ((BitDeserializer.pushBytes {} (pushAll fields).getBytes.1).bind fun deserializer =>
      deserializer.getAll (fields.map BitField.significantBits)) =
        some (fields.map fun field => field.value % 256) := by
  have hlength : (fields.flatMap BitField.bits ++
      List.replicate (8 - totalBits fields % 8) false).length = 8 * (totalBits fields / 8 + 1) := by
    rw [List.length_append, length_bits, List.length_replicate]
    omega
  have hunpack := (unpack_packOctets _ hlength).2
  rw [getBytes_pushAll]
  cases fields with
  | nil => rfl
  | cons field fields =>
      show BitDeserializer.getAll _ _ = _
      have hprepare : ∀ {octets : List UInt8} {size : Nat} {sizes : List Nat},
          BitDeserializer.getAll ⟨octets, [], false⟩ (size :: sizes) =
            BitDeserializer.getAll ⟨octets, octets.flatMap unpackOctet, true⟩ (size :: sizes) :=
        rfl
      rw [List.nil_append, List.map_cons, hprepare, hunpack, ← List.map_cons]
      exact getAll_bits valid _ _

/-! ## The round trip -/

theorem length_getBytes (fields : List BitField) :
    (pushAll fields).getBytes.1.length = totalBits fields / 8 + 1 := by
  rw [getBytes_pushAll]
  refine (unpack_packOctets _ ?_).1
  rw [List.length_append, length_bits, List.length_replicate]
  omega

/-- An abort, or the octets in the buffer. -/
theorem getBytesInto_pushAll (fields : List BitField) (size : Nat) :
    ((pushAll fields).getBytesInto size).map Prod.fst =
      if 8 * (totalBits fields / 8 + 1) ≤ 8 * size % 4294967296 then none
      else some ((pushAll fields).getBytes.1.zipIdx.map fun entry => (entry.1, entry.2 % 256),
        (totalBits fields / 8 + 1) % 256) := by
  have hlength : (pushAll fields).pad.blob.length = 8 * (totalBits fields / 8 + 1) := by
    obtain ⟨hblob, hpad⟩ := blob_pushAll fields
    rw [BitSerializer.pad, if_pos hpad, BitSerializer.padEnd, padding, hblob, List.length_append,
      length_bits, List.length_replicate]
    omega
  have hcount : (packOctets (pushAll fields).pad.blob).length = totalBits fields / 8 + 1 :=
    length_getBytes fields
  rw [BitSerializer.getBytesInto, hlength]
  split
  next => rfl
  next =>
    rw [Option.map_some, ← hcount]
    rfl

/-- Numbers survive exactly when the bits do not fill their octets, every number fits an octet, and
eight times the size of the buffer, in a word, is less than the bits that it needs. -/
theorem bitsRoundTrip_iff {fields : List BitField} (valid : ∀ field ∈ fields, field.Valid)
    (size : Nat) :
    RoundTrips fields size ↔ totalBits fields % 8 ≠ 0 ∧ (∀ field ∈ fields, field.value < 256) ∧
      (neededBytes fields ≤ 255 → neededBytes fields ≤ size →
        8 * size % 4294967296 < 8 * neededBytes fields) := by
  have hvalues : (((BitDeserializer.pushBytes {} (pushAll fields).getBytes.1).bind
      fun deserializer => deserializer.getAll (fields.map BitField.significantBits)) =
        some (fields.map BitField.value)) ↔ ∀ field ∈ fields, field.value < 256 := by
    rw [getAll_getBytes valid, Option.some_inj, List.map_inj_left]
    refine forall₂_congr fun field _ => ⟨fun heq => ?_, fun hlt => Nat.mod_eq_of_lt hlt⟩
    rw [← heq]
    exact Nat.mod_lt _ (by decide)
  have hneeded : totalBits fields % 8 ≠ 0 ↔ totalBits fields / 8 + 1 = neededBytes fields := by
    rw [neededBytes]
    omega
  constructor
  · rintro ⟨hlength, hbuffer, hback⟩
    rw [length_getBytes] at hlength
    refine ⟨hneeded.mpr hlength, hvalues.mp hback, fun hfew hsize => ?_⟩
    have hwritten := hbuffer hfew hsize
    rw [getBytesInto_pushAll, hlength] at hwritten
    split at hwritten
    next => cases hwritten
    next hless => exact Nat.lt_of_not_le hless
  · rintro ⟨hfragment, hsmall, hroom⟩
    have hlength := hneeded.mp hfragment
    refine ⟨(length_getBytes fields).trans hlength, fun hfew hsize => ?_, hvalues.mpr hsmall⟩
    rw [getBytesInto_pushAll, hlength, if_neg (Nat.not_le_of_lt (hroom hfew hsize)),
      Nat.mod_eq_of_lt (Nat.lt_succ_of_le hfew)]
    congr 2
    refine (List.map_congr_left fun entry hentry => ?_).trans (List.map_id _)
    have hplace := List.snd_lt_of_mem_zipIdx hentry
    rw [length_getBytes, hlength] at hplace
    exact Prod.ext rfl (Nat.mod_eq_of_lt (by omega))

theorem bitsRoundTrip_iff_threeBits :
    RoundTrips [⟨5, 3⟩] 536870912 ↔ totalBits [⟨5, 3⟩] % 8 ≠ 0 ∧
      (∀ field ∈ [(⟨5, 3⟩ : BitField)], field.value < 256) ∧
      (neededBytes [⟨5, 3⟩] ≤ 255 → neededBytes [⟨5, 3⟩] ≤ 536870912 →
        8 * 536870912 % 4294967296 < 8 * neededBytes [⟨5, 3⟩]) :=
  bitsRoundTrip_iff (fun _ hmem => List.mem_singleton.mp hmem ▸ ⟨by decide, by decide, by decide⟩) _

/-- A number of nine bits comes back without its highest one. -/
theorem not_roundTrips_nineBits : ¬ RoundTrips [⟨257, 9⟩] 2 := fun roundTrips =>
  absurd roundTrips.values (by decide +kernel)

end DeepcV2x.Network
