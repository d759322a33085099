import DeepcV2x.Lte.Asn1Reading

/-!
# Fields of a message

The fields of a message are written one after the other and read back by a fresh
header into variables of the same types.  What is read are the fields, except
where a range has one number only: such a variable stays as it was.
-/

namespace DeepcV2x.Lte.Asn1Header

open Foundation.BitOctets

/-- A field with its value, or a variable for one with what it holds. -/
inductive Field
  | boolean (value : Bool)
  | bitstring (N : Nat) (data : BitVec N)
  | sequence (N : Nat) (optionalOrDefaultMask : BitVec N) (isExtensionMarkerPresent : Bool)
  | integer (n nmin nmax : Int)
  | enum (numElems selectedElem : Int)
  | choice (numOptions selectedOption : Int) (isExtensionMarkerPresent : Bool)
  | sequenceOf (numElems nMax nMin : Int)
  deriving DecidableEq

namespace Field

def serialize : Field → Asn1Header → Option Asn1Header
  | boolean value, header => some (serializeBoolean value header)
  | bitstring _ data, header => some (serializeBitstring data header)
  | sequence _ mask marker, header => some (serializeSequence mask marker header)
  | integer n nmin nmax, header => serializeInteger n nmin nmax header
  | enum numElems selectedElem, header => serializeEnum numElems selectedElem header
  | choice numOptions selectedOption marker, header =>
      serializeChoice numOptions selectedOption marker header
  | sequenceOf numElems nMax nMin, header => serializeSequenceOf numElems nMax nMin header

/-- A variable with what is read into it. -/
def deserialize : Field → Reader Field
  | boolean _ => boolean <$> deserializeBoolean
  | bitstring N data => bitstring N <$> deserializeBitstring data
  | sequence N mask marker => (sequence N · marker) <$> deserializeSequence mask marker
  | integer n nmin nmax => (integer · nmin nmax) <$> deserializeInteger n nmin nmax
  | enum numElems selectedElem => enum numElems <$> deserializeEnum numElems selectedElem
  | choice numOptions selectedOption marker =>
      (choice numOptions · marker) <$> deserializeChoice numOptions marker selectedOption
  | sequenceOf numElems nMax nMin =>
      (sequenceOf · nMax nMin) <$> deserializeSequenceOf numElems nMax nMin

/-- A number in a range of at most 2^20 numbers. -/
def InRange (n nmin nmax : Int) : Prop := nmin ≤ n ∧ n ≤ nmax ∧ nmax - nmin + 1 ≤ 2 ^ 20

/-- The fields of messages. -/
def Valid : Field → Prop
  | boolean _ => True
  | bitstring N _ => 1 ≤ N ∧ N ≤ 32
  | sequence N _ _ => N ≤ 11
  | integer n nmin nmax => InRange n nmin nmax
  | enum numElems selectedElem => InRange selectedElem 0 (numElems - 1)
  | choice numOptions selectedOption _ => InRange selectedOption 0 (numOptions - 1)
  | sequenceOf numElems nMax nMin => InRange numElems nMin nMax

/-- A range of one number. -/
def OneValue : Field → Prop
  | boolean _ => False
  | bitstring _ _ => False
  | sequence _ _ _ => False
  | integer _ nmin nmax => nmin = nmax
  | enum numElems _ => numElems = 1
  | choice numOptions _ _ => numOptions = 1
  | sequenceOf _ nMax nMin => nMin = nMax

instance (field : Field) : Decidable field.OneValue := by
  cases field <;> unfold OneValue <;> infer_instance

/-- A variable of the type of a field. -/
inductive SameType : Field → Field → Prop
  | boolean (before value : Bool) : SameType (.boolean before) (.boolean value)
  | bitstring {N : Nat} (before data : BitVec N) : SameType (.bitstring N before) (.bitstring N data)
  | sequence {N : Nat} (before mask : BitVec N) (marker : Bool) :
      SameType (.sequence N before marker) (.sequence N mask marker)
  | integer (before n nmin nmax : Int) : SameType (.integer before nmin nmax) (.integer n nmin nmax)
  | enum (numElems before selectedElem : Int) :
      SameType (.enum numElems before) (.enum numElems selectedElem)
  | choice (numOptions before selectedOption : Int) (marker : Bool) :
      SameType (.choice numOptions before marker) (.choice numOptions selectedOption marker)
  | sequenceOf (before numElems nMax nMin : Int) :
      SameType (.sequenceOf before nMax nMin) (.sequenceOf numElems nMax nMin)

/-- The bits of a number in a range. -/
def numberBits (n nmin nmax : Int) : List Bool :=
  descending (n - nmin).toNat.testBit (requiredBits (nmax - nmin + 1))

/-- The bit of an extension marker: there are no extensions. -/
def markerBits (marker : Bool) : List Bool := if marker then [false] else []

/-- The bits of a field. -/
def bits : Field → List Bool
  | boolean value => [value]
  | bitstring _ data => bitsetBits data
  | sequence _ mask marker => markerBits marker ++ bitsetBits mask
  | integer n nmin nmax => numberBits n nmin nmax
  | enum numElems selectedElem => numberBits selectedElem 0 (numElems - 1)
  | choice numOptions selectedOption marker =>
      markerBits marker ++ numberBits selectedOption 0 (numOptions - 1)
  | sequenceOf numElems nMax nMin => numberBits numElems nMin nMax

end Field

/-! ## Messages -/

def serializeAll : List Field → Asn1Header → Option Asn1Header
  | [], header => some header
  | field :: fields, header => (field.serialize header).bind (serializeAll fields)

/-- The octets of some fields. -/
def encode (fields : List Field) : Option (List UInt8) :=
  (serializeAll fields {}).map fun header => (finalizeSerialization header).serializationResult

def deserializeAll : List Field → Reader (List Field)
  | [] => pure []
  | target :: targets => do
      let field ← target.deserialize
      let fields ← deserializeAll targets
      pure (field :: fields)

/-- What a fresh header reads into some variables. -/
def decode (targets : List Field) (octets : List UInt8) : Option (List Field) :=
  (deserializeAll targets ({}, octets)).map Prod.fst

/-- The bits of some fields. -/
def messageBits (fields : List Field) : List Bool := fields.flatMap Field.bits

/-- The octets are the bits of the fields, filled with zeros, and the fields are read back,
whatever the variables hold before. -/
def Faithful (fields : List Field) : Prop :=
  ∃ octets, encode fields = some octets ∧
    (octets.length = ((messageBits fields).length + 7) / 8 ∧
      ∃ zeros, bitsOf octets = messageBits fields ++ List.replicate zeros false) ∧
    ∀ targets, List.Forall₂ Field.SameType targets fields → decode targets octets = some fields

/-! ## Numbers in a range -/

section Numbers

variable {n nmin nmax : Int}

/-- The bits of a range of more than one number. -/
theorem requiredBits_mem {range : Int} (hmany : 1 < range) (hfew : range ≤ 2 ^ 20) :
    1 ≤ requiredBits range ∧ requiredBits range ≤ 20 := by
  constructor
  · exact Nat.clog_pos (by decide) (by omega)
  · exact Nat.clog_le_of_le_pow (by omega)

/-- A number behind the least one has the bits of the range. -/
theorem bitsetBits_ofInt (hleast : nmin ≤ n) :
    bitsetBits (BitVec.ofInt (requiredBits (nmax - nmin + 1)) (n - nmin)) =
      Field.numberBits n nmin nmax := by
  obtain ⟨count, hcount⟩ := Int.eq_ofNat_of_zero_le (show 0 ≤ n - nmin by omega)
  rw [Field.numberBits, bitsetBits, hcount]
  refine descending_congr fun index hindex => ?_
  rw [BitVec.ofInt_natCast, BitVec.getLsbD_ofNat, Int.toNat_natCast,
    decide_eq_true hindex, Bool.true_and]

theorem holds_serializeInteger (inRange : Field.InRange n nmin nmax) {header : Asn1Header}
    {bits : List Bool} (holds : header.Holds bits) :
    ∃ next, serializeInteger n nmin nmax header = some next ∧
      next.Holds (bits ++ Field.numberBits n nmin nmax) := by
  obtain ⟨hleast, hgreatest, hfew⟩ := inRange
  rw [serializeInteger, if_pos ⟨hleast, hgreatest⟩]
  show ∃ next, (if nmax - nmin + 1 ≤ 1 then _ else _) = _ ∧ _
  split
  next hone =>
    refine ⟨header, rfl, ?_⟩
    have hrange : nmax - nmin + 1 = 1 := by omega
    rw [Field.numberBits, hrange]
    exact (List.append_nil bits).symm ▸ holds
  next hmany =>
    obtain ⟨hpositive, hwidth⟩ := requiredBits_mem (Int.not_le.mp hmany) hfew
    rw [if_pos ⟨hpositive, hwidth⟩, ← bitsetBits_ofInt hleast]
    exact ⟨_, rfl, holds_serializeBitset (by omega) _ holds⟩

/-- A variable for one number stays as it was. -/
theorem reads_deserializeInteger (inRange : Field.InRange n nmin nmax) (before : Int) :
    Reads (deserializeInteger before nmin nmax) (Field.numberBits n nmin nmax)
      (if nmin = nmax then before else n) := by
  obtain ⟨hleast, hgreatest, hfew⟩ := inRange
  have hordered : ¬ nmin > nmax := by omega
  rw [deserializeInteger, if_neg hordered, if_neg hordered]
  show Reads (if nmax - nmin + 1 = 1 then _ else _) _ _
  split
  next hone =>
    have hsame : nmin = nmax := by omega
    rw [if_pos hsame, Field.numberBits, hone]
    exact Reads.pure before
  next hmany =>
    obtain ⟨hpositive, hwidth⟩ := requiredBits_mem (show 1 < nmax - nmin + 1 by omega) hfew
    rw [if_pos ⟨hpositive, hwidth⟩, ← bitsetBits_ofInt hleast,
      if_neg (show ¬ nmin = nmax by omega)]
    have hvalue : ((BitVec.ofInt (requiredBits (nmax - nmin + 1)) (n - nmin)).toNat : Int) + nmin =
        n := by
      have hfits : n - nmin < 2 ^ requiredBits (nmax - nmin + 1) := by
        have hpower := Nat.le_pow_clog (show 1 < 2 by decide) (nmax - nmin + 1).toNat
        have hcast : ((nmax - nmin + 1).toNat : Int) ≤ 2 ^ requiredBits (nmax - nmin + 1) := by
          exact_mod_cast hpower
        omega
      have hcast : ((2 ^ requiredBits (nmax - nmin + 1) : Nat) : Int) =
          2 ^ requiredBits (nmax - nmin + 1) := Nat.cast_pow _ _
      rw [BitVec.toNat_ofInt, hcast, Int.emod_eq_of_lt (by omega) hfits]
      omega
    have hread := (reads_deserializeBitset (0#(requiredBits (nmax - nmin + 1)))
      (BitVec.ofInt (requiredBits (nmax - nmin + 1)) (n - nmin))).map
        fun bitsRead => (bitsRead.toNat : Int) + nmin
    rw [hvalue] at hread
    exact hread

end Numbers

/-! ## One field -/

theorem bitsetBits_ofBool (value : Bool) : bitsetBits (BitVec.ofBool value) = [value] := by
  cases value <;> rfl

theorem holds_serializeBoolean (value : Bool) {header : Asn1Header} {bits : List Bool}
    (holds : header.Holds bits) : Holds (serializeBoolean value header) (bits ++ [value]) := by
  rw [← bitsetBits_ofBool]
  exact holds_serializeBitset (by decide) _ holds

theorem reads_deserializeBoolean (value : Bool) : Reads deserializeBoolean [value] value := by
  have hread := (reads_deserializeBitset 0#1 (BitVec.ofBool value)).map
    fun readBit => readBit.getLsbD 0
  rw [bitsetBits_ofBool, show (BitVec.ofBool value).getLsbD 0 = value by cases value <;> rfl] at hread
  exact hread

/-- What is written with an extension marker before it. -/
theorem holds_marked (marker : Bool) {header : Asn1Header} {bits : List Bool}
    (holds : header.Holds bits) :
    Holds (if marker then serializeBoolean false header else header)
      (bits ++ Field.markerBits marker) := by
  cases marker with
  | false => exact (List.append_nil bits).symm ▸ holds
  | true => exact holds_serializeBoolean false holds

namespace Field

theorem holds_serialize {field : Field} (valid : field.Valid) {header : Asn1Header}
    {bits : List Bool} (holds : header.Holds bits) :
    ∃ next, field.serialize header = some next ∧ next.Holds (bits ++ field.bits) := by
  cases field with
  | boolean value => exact ⟨_, rfl, holds_serializeBoolean value holds⟩
  | bitstring N data => exact ⟨_, rfl, holds_serializeBitset (by have := valid.2; omega) data holds⟩
  | sequence N mask marker =>
      refine ⟨_, rfl, ?_⟩
      rw [Field.bits, ← List.append_assoc]
      exact holds_serializeBitset (Nat.lt_of_le_of_lt valid (by decide)) mask
        (holds_marked marker holds)
  | integer n nmin nmax => exact holds_serializeInteger valid holds
  | enum numElems selectedElem => exact holds_serializeInteger valid holds
  | choice numOptions selectedOption marker =>
      have hmarked := holds_marked marker holds
      rw [Field.bits, ← List.append_assoc]
      show ∃ next, (if numOptions < 2 then some _ else _) = some next ∧ _
      split
      next hone =>
        refine ⟨_, rfl, ?_⟩
        obtain ⟨hleast, hgreatest, -⟩ := valid
        rw [numberBits, show numOptions - 1 - 0 + 1 = 1 by omega]
        exact (List.append_nil _).symm ▸ hmarked
      next => exact holds_serializeInteger valid hmarked
  | sequenceOf numElems nMax nMin => exact holds_serializeInteger valid holds

/-- What a variable holds when a field was read into it. -/
def readInto (target field : Field) : Field := if field.OneValue then target else field

theorem zero_eq_pred_iff {count : Int} : 0 = count - 1 ↔ count = 1 := by omega

theorem reads_deserialize {target field : Field} (valid : field.Valid)
    (sameType : SameType target field) :
    Reads target.deserialize field.bits (target.readInto field) := by
  cases sameType with
  | boolean before value => exact (reads_deserializeBoolean value).map _
  | bitstring before data => exact (reads_deserializeBitset before data).map _
  | sequence before mask marker =>
      refine Reads.map ?_ (sequence _ · marker)
      cases marker with
      | false => exact reads_deserializeBitset before mask
      | true => exact (reads_deserializeBoolean false).bind (reads_deserializeBitset before mask)
  | integer before n nmin nmax =>
      have hread := (reads_deserializeInteger valid before).map (integer · nmin nmax)
      rwa [apply_ite (integer · nmin nmax)] at hread
  | enum numElems before selectedElem =>
      have hread := (reads_deserializeInteger valid before).map (enum numElems)
      rw [apply_ite (enum numElems), if_congr zero_eq_pred_iff rfl rfl] at hread
      exact hread
  | choice numOptions before selectedOption marker =>
      have hread := reads_deserializeInteger valid before
      have hmarked : Reads (deserializeChoice numOptions marker before)
          (markerBits marker ++ numberBits selectedOption 0 (numOptions - 1))
          (if 0 = numOptions - 1 then before else selectedOption) := by
        cases marker with
        | false => exact hread
        | true => exact (reads_deserializeBoolean false).bind hread
      have hmap := hmarked.map (choice numOptions · marker)
      rw [apply_ite (choice numOptions · marker), if_congr zero_eq_pred_iff rfl rfl] at hmap
      exact hmap
  | sequenceOf before numElems nMax nMin =>
      have hread := (reads_deserializeInteger valid before).map (sequenceOf · nMax nMin)
      rwa [apply_ite (sequenceOf · nMax nMin)] at hread

/-- A variable of the same type with another number. -/
def other : Field → Field
  | integer n nmin nmax => integer (n + 1) nmin nmax
  | enum numElems selectedElem => enum numElems (selectedElem + 1)
  | choice numOptions selectedOption marker => choice numOptions (selectedOption + 1) marker
  | sequenceOf numElems nMax nMin => sequenceOf (numElems + 1) nMax nMin
  | field => field

theorem sameType_other (field : Field) : SameType field.other field := by
  cases field <;> constructor

theorem other_ne {field : Field} (one : field.OneValue) : field.other ≠ field := by
  cases field with
  | boolean value => exact absurd one id
  | bitstring N data => exact absurd one id
  | sequence N mask marker => exact absurd one id
  | integer n nmin nmax =>
      exact fun hsame => absurd (integer.inj hsame).1 (by omega)
  | enum numElems selectedElem =>
      exact fun hsame => absurd (enum.inj hsame).2 (by omega)
  | choice numOptions selectedOption marker =>
      exact fun hsame => absurd (choice.inj hsame).2.1 (by omega)
  | sequenceOf numElems nMax nMin =>
      exact fun hsame => absurd (sequenceOf.inj hsame).1 (by omega)

end Field

/-! ## All fields -/

theorem holds_serializeAll {fields : List Field} : ∀ {header : Asn1Header} {bits : List Bool},
    (∀ field ∈ fields, field.Valid) → header.Holds bits →
    ∃ last, serializeAll fields header = some last ∧ last.Holds (bits ++ messageBits fields) := by
  induction fields with
  | nil =>
      intro header bits valid holds
      exact ⟨header, rfl, (List.append_nil bits).symm ▸ holds⟩
  | cons field fields ih =>
      intro header bits valid holds
      obtain ⟨hfield, hfields⟩ := List.forall_mem_cons.mp valid
      obtain ⟨next, hnext, hbits⟩ := Field.holds_serialize hfield holds
      obtain ⟨last, hlast, hall⟩ := ih hfields hbits
      refine ⟨last, ?_, ?_⟩
      · rw [serializeAll, hnext]
        exact hlast
      · rw [messageBits, List.flatMap_cons, ← List.append_assoc]
        exact hall

/-- The octets of valid fields are their bits, filled with zeros. -/
theorem encode_eq {fields : List Field} (valid : ∀ field ∈ fields, field.Valid) :
    ∃ octets, encode fields = some octets ∧
      octets.length = ((messageBits fields).length + 7) / 8 ∧
        ∃ zeros, bitsOf octets = messageBits fields ++ List.replicate zeros false := by
  obtain ⟨last, hlast, holds⟩ := holds_serializeAll valid holds_nil
  refine ⟨_, ?_, bitsOf_finalizeSerialization holds⟩
  rw [encode, hlast]
  rfl

theorem reads_deserializeAll {targets fields : List Field}
    (sameTypes : List.Forall₂ Field.SameType targets fields)
    (valid : ∀ field ∈ fields, field.Valid) :
    Reads (deserializeAll targets) (messageBits fields)
      (List.zipWith Field.readInto targets fields) := by
  induction sameTypes with
  | nil => exact Reads.pure []
  | cons sameType _ ih =>
      obtain ⟨hfield, hfields⟩ := List.forall_mem_cons.mp valid
      exact (Field.reads_deserialize hfield sameType).bind ((ih hfields).map _)

/-- What is read back into some variables. -/
theorem decode_eq {targets fields : List Field} {octets : List UInt8} {zeros : Nat}
    (sameTypes : List.Forall₂ Field.SameType targets fields)
    (valid : ∀ field ∈ fields, field.Valid)
    (hoctets : bitsOf octets = messageBits fields ++ List.replicate zeros false) :
    decode targets octets = some (List.zipWith Field.readInto targets fields) := by
  obtain ⟨last, hread, -⟩ := reads_deserializeAll sameTypes valid ({}, octets) _
    (hoctets ▸ offers_fresh octets)
  rw [decode, hread]
  rfl

theorem zipWith_readInto {targets fields : List Field}
    (sameTypes : List.Forall₂ Field.SameType targets fields)
    (many : ∀ field ∈ fields, ¬ field.OneValue) :
    List.zipWith Field.readInto targets fields = fields := by
  induction sameTypes with
  | nil => rfl
  | cons _ _ ih =>
      obtain ⟨hfield, hfields⟩ := List.forall_mem_cons.mp many
      rw [List.zipWith_cons_cons, ih hfields, Field.readInto, if_neg hfield]

theorem not_oneValue_of_zipWith {fields : List Field}
    (hread : List.zipWith Field.readInto (fields.map Field.other) fields = fields) :
    ∀ field ∈ fields, ¬ field.OneValue := by
  induction fields with
  | nil => exact fun field hfield => absurd hfield List.not_mem_nil
  | cons field fields ih =>
      rw [List.map_cons, List.zipWith_cons_cons] at hread
      obtain ⟨hfield, hfields⟩ := List.cons.inj hread
      refine List.forall_mem_cons.mpr ⟨fun one => ?_, ih hfields⟩
      rw [Field.readInto, if_pos one] at hfield
      exact Field.other_ne one hfield

/-- Fields are written and read back exactly when no range has one number only. -/
theorem fields_faithful_iff {fields : List Field} (valid : ∀ field ∈ fields, field.Valid) :
    Faithful fields ↔ ∀ field ∈ fields, ¬ field.OneValue := by
  constructor
  · rintro ⟨octets, -, ⟨-, zeros, hoctets⟩, hdecode⟩
    have sameTypes : List.Forall₂ Field.SameType (fields.map Field.other) fields :=
      List.forall₂_map_left_iff.mpr (List.forall₂_same.mpr fun field _ => field.sameType_other)
    have hread := hdecode _ sameTypes
    rw [decode_eq sameTypes valid hoctets] at hread
    exact not_oneValue_of_zipWith (Option.some.inj hread)
  · intro many
    obtain ⟨octets, hencode, hlength, zeros, hoctets⟩ := encode_eq valid
    refine ⟨octets, hencode, ⟨hlength, zeros, hoctets⟩, fun targets sameTypes => ?_⟩
    rw [decode_eq sameTypes valid hoctets, zipWith_readInto sameTypes many]

/-- Some fields at several positions in their octets. -/
theorem fields_faithful_iff_mixed :
    Faithful [.boolean true, .integer 7 (-3) 9, .bitstring 10 0x2a5#10, .choice 3 1 true,
        .sequence 3 5#3 true, .enum 4 2, .sequenceOf 2 11 1] ↔
      ∀ field ∈ [Field.boolean true, .integer 7 (-3) 9, .bitstring 10 0x2a5#10, .choice 3 1 true,
        .sequence 3 5#3 true, .enum 4 2, .sequenceOf 2 11 1], ¬ field.OneValue :=
  fields_faithful_iff (by simp [Field.Valid, Field.InRange])

/-- The only number between 5 and 5 is not read back. -/
theorem not_faithful_five : ¬ Faithful [.integer 5 5 5] := by
  rintro ⟨octets, -, -, hdecode⟩
  have hread := hdecode [.integer 0 5 5] (.cons (.integer 0 5 5 5) .nil)
  have hkept : decode [.integer 0 5 5] octets = some [.integer 0 5 5] := rfl
  rw [hkept] at hread
  exact absurd (Field.integer.inj (List.cons.inj (Option.some.inj hread)).1).1 (by decide)

end DeepcV2x.Lte.Asn1Header
