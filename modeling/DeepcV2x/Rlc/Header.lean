import Mathlib.Algebra.Group.Nat.Defs
import Mathlib.Tactic.Common

/-!
# The header of unacknowledged mode

`LteRlcHeader`: the fixed part with framing information, sequence number and
the first extension bit, and a length indicator of eleven bits with its own
extension bit for each segment but the last, packed two in three bytes.
-/

namespace DeepcV2x.Rlc

structure LteRlcHeader where
  headerLength : Nat := 0
  framingInfo : Nat := 0xff
  sequenceNumber : Nat := 0xfffa % 1024
  extensionBits : List Nat := []
  lengthIndicators : List Nat := []
  deriving DecidableEq, Repr

namespace LteRlcHeader

def DATA_FIELD_FOLLOWS : Nat := 0
def E_LI_FIELDS_FOLLOWS : Nat := 1
def FIRST_BYTE : Nat := 0x00
def NO_FIRST_BYTE : Nat := 0x02
def LAST_BYTE : Nat := 0x00
def NO_LAST_BYTE : Nat := 0x01

def setFramingInfo (header : LteRlcHeader) (framingInfo : Nat) : LteRlcHeader :=
  { header with framingInfo := framingInfo &&& 0x03 }

def setSequenceNumber (header : LteRlcHeader) (sequenceNumber : Nat) : LteRlcHeader :=
  { header with sequenceNumber := sequenceNumber }

def pushExtensionBit (header : LteRlcHeader) (extensionBit : Nat) : LteRlcHeader :=
  let extensionBits := header.extensionBits ++ [extensionBit]
  { header with
    extensionBits := extensionBits
    headerLength :=
      if extensionBits.length = 1 then 2
      else if extensionBits.length % 2 = 1 then header.headerLength + 1
      else header.headerLength + 2 }

def pushLengthIndicator (header : LteRlcHeader) (lengthIndicator : Nat) : LteRlcHeader :=
  { header with lengthIndicators := header.lengthIndicators ++ [lengthIndicator] }

/-! ## Bytes -/

/-- The first byte of the fixed part. -/
def fixedByte (framingInfo extensionBit sequenceNumber : Nat) : Nat :=
  ((framingInfo <<< 3) &&& 0x18) ||| ((extensionBit <<< 2) &&& 0x04) |||
    ((sequenceNumber >>> 8) &&& 0x0003)

/-- The first byte of an odd length indicator. -/
def oddByte (oddE oddLi : Nat) : Nat := ((oddE <<< 7) &&& 0x80) ||| ((oddLi >>> 4) &&& 0x007F)

/-- The byte an odd and an even length indicator share. -/
def sharedByte (oddLi evenE evenLi : Nat) : Nat :=
  ((oddLi <<< 4) &&& 0x00F0) ||| ((evenE <<< 3) &&& 0x08) ||| ((evenLi >>> 8) &&& 0x0007)

/-- The loop of `Serialize`. -/
def serializeFields : List Nat → List Nat → List UInt8
  | oddE :: evenE :: extensionBits, oddLi :: evenLi :: lengthIndicators =>
      UInt8.ofNat (oddByte oddE oddLi) :: UInt8.ofNat (sharedByte oddLi evenE evenLi) ::
        UInt8.ofNat (evenLi &&& 0x00FF) :: serializeFields extensionBits lengthIndicators
  | oddE :: _, oddLi :: _ =>
      [UInt8.ofNat (oddByte oddE oddLi), UInt8.ofNat ((oddLi <<< 4) &&& 0x00F0)]
  | _, _ => []

/-- `Serialize`, for a header with an extension bit. -/
def serialize (header : LteRlcHeader) : List UInt8 :=
  UInt8.ofNat (fixedByte header.framingInfo (header.extensionBits.headD 0) header.sequenceNumber) ::
    UInt8.ofNat (header.sequenceNumber &&& 0x00FF) ::
    serializeFields header.extensionBits.tail header.lengthIndicators

/-- The loop of `Deserialize`: extension bits, length indicators and the bytes read. -/
def deserializeFields : List UInt8 → Option (List Nat × List Nat × Nat)
  | byte1 :: byte2 :: bytes =>
      let oddE := (byte1.toNat &&& 0x80) >>> 7
      let oddLi := ((byte1.toNat &&& 0x7F) <<< 4) ||| ((byte2.toNat &&& 0xF0) >>> 4)
      if oddE = E_LI_FIELDS_FOLLOWS then
        match bytes with
        | byte3 :: bytes =>
            let evenE := (byte2.toNat &&& 0x08) >>> 3
            let evenLi := ((byte2.toNat &&& 0x07) <<< 8) ||| (byte3.toNat &&& 0xFF)
            if evenE = E_LI_FIELDS_FOLLOWS then
              (deserializeFields bytes).map fun fields =>
                (oddE :: evenE :: fields.1, oddLi :: evenLi :: fields.2.1, fields.2.2 + 3)
            else some ([oddE, evenE], [oddLi, evenLi], 3)
        | [] => none
      else some ([oddE], [oddLi], 2)
  | _ => none

/-- `Deserialize`; reading behind the end is not allowed. -/
def deserialize : List UInt8 → Option LteRlcHeader
  | byte1 :: byte2 :: bytes =>
      let header : LteRlcHeader :=
        { headerLength := 2
          framingInfo := (byte1.toNat &&& 0x18) >>> 3
          sequenceNumber := (((byte1.toNat &&& 0x03) <<< 8) ||| byte2.toNat) % 1024
          extensionBits := [(byte1.toNat &&& 0x04) >>> 2] }
      if (byte1.toNat &&& 0x04) >>> 2 = DATA_FIELD_FOLLOWS then some header
      else
        (deserializeFields bytes).map fun fields =>
          { header with
            headerLength := 2 + fields.2.2
            extensionBits := header.extensionBits ++ fields.1
            lengthIndicators := fields.2.1 }
  | _ => none

/-- `RemoveHeader` of a packet. -/
def removeHeader (packet : List UInt8) : Option (LteRlcHeader × List UInt8) :=
  (deserialize packet).map fun header => (header, packet.drop header.headerLength)

/-! ## Reading back what was written -/

theorem toNat_ofNat_of_lt {number : Nat} (hlt : number < 256) :
    (UInt8.ofNat number).toNat = number := Nat.mod_eq_of_lt hlt

theorem fixedByte_read : ∀ framingInfo < 4, ∀ extensionBit < 2, ∀ high < 4,
    let byte := ((framingInfo <<< 3) &&& 0x18) ||| ((extensionBit <<< 2) &&& 0x04) ||| (high &&& 0x0003)
    byte < 256 ∧ (byte &&& 0x18) >>> 3 = framingInfo ∧ (byte &&& 0x04) >>> 2 = extensionBit ∧
      byte &&& 0x03 = high := by
  decide

/-- The high and the low bits of a number make up the number. -/
theorem high_or_low (number shift : Nat) :
    ((number >>> shift) <<< shift) ||| (number % 2 ^ shift) = number := by
  rw [← Nat.shiftLeft_add_eq_or_of_lt (Nat.mod_lt _ (Nat.two_pow_pos shift)),
    Nat.shiftRight_eq_div_pow, Nat.shiftLeft_eq]
  exact Nat.div_add_mod' number (2 ^ shift)

theorem and_byte (number : Nat) : number &&& 0x00FF = number % 2 ^ 8 :=
  Nat.and_two_pow_sub_one_eq_mod number 8

theorem nibble_shift (number : Nat) :
    (number <<< 4) &&& 0x00F0 = (number % 16) <<< 4 := by
  have hmask : number &&& 15 = number % 16 := Nat.and_two_pow_sub_one_eq_mod number 4
  rw [← hmask, Nat.shiftLeft_and_distrib]
  rfl

theorem oddByte_read : ∀ oddE < 2, ∀ high < 128,
    let byte := ((oddE <<< 7) &&& 0x80) ||| (high &&& 0x007F)
    byte < 256 ∧ (byte &&& 0x80) >>> 7 = oddE ∧ byte &&& 0x7F = high := by
  decide +kernel

theorem sharedByte_read : ∀ low < 16, ∀ evenE < 2, ∀ high < 8,
    let byte := (low <<< 4) ||| ((evenE <<< 3) &&& 0x08) ||| (high &&& 0x0007)
    byte < 256 ∧ (byte &&& 0xF0) >>> 4 = low ∧ (byte &&& 0x08) >>> 3 = evenE ∧
      byte &&& 0x07 = high := by
  decide +kernel

/-- The extension bits of some length indicators: only the last has none behind it. -/
def bitsOf : List Nat → List Nat
  | [] => []
  | [_] => [DATA_FIELD_FOLLOWS]
  | _ :: lengthIndicator :: lengthIndicators =>
      E_LI_FIELDS_FOLLOWS :: bitsOf (lengthIndicator :: lengthIndicators)

/-- The bytes of some length indicators. -/
def fieldsLength (count : Nat) : Nat := count + (count + 1) / 2

theorem oddLi_read {oddE oddLi evenE high : Nat} (hodd : oddE < 2) (hli : oddLi < 2048)
    (heven : evenE < 2) (hhigh : high < 8) :
    let byte1 := (UInt8.ofNat (oddByte oddE oddLi)).toNat
    let byte2 := (UInt8.ofNat (((oddLi <<< 4) &&& 0x00F0) ||| ((evenE <<< 3) &&& 0x08) |||
      (high &&& 0x0007))).toNat
    (byte1 &&& 0x80) >>> 7 = oddE ∧
      ((byte1 &&& 0x7F) <<< 4) ||| ((byte2 &&& 0xF0) >>> 4) = oddLi ∧
      (byte2 &&& 0x08) >>> 3 = evenE ∧ byte2 &&& 0x07 = high := by
  have hshift : oddLi >>> 4 < 128 := by
    rw [Nat.shiftRight_eq_div_pow]
    omega
  obtain ⟨hbyte1, hbit, hrest⟩ := oddByte_read oddE hodd (oddLi >>> 4) hshift
  obtain ⟨hbyte2, hli4, hbit2, hhigh2⟩ :=
    sharedByte_read (oddLi % 16) (Nat.mod_lt _ (by omega)) evenE heven high hhigh
  rw [oddByte, toNat_ofNat_of_lt hbyte1, nibble_shift, toNat_ofNat_of_lt hbyte2]
  refine ⟨hbit, ?_, hbit2, hhigh2⟩
  rw [hrest, hli4]
  exact high_or_low oddLi 4

/-- An even length indicator is read back from its high bits and its low byte. -/
theorem evenLi_read (evenLi : Nat) :
    ((evenLi >>> 8) <<< 8) ||| ((UInt8.ofNat (evenLi &&& 0x00FF)).toNat &&& 0xFF) = evenLi := by
  have hbyte : evenLi % 2 ^ 8 < 256 := Nat.mod_lt _ (by decide)
  rw [and_byte evenLi, and_byte, toNat_ofNat_of_lt hbyte, Nat.mod_mod]
  exact high_or_low evenLi 8

theorem high_lt {evenLi : Nat} (hsmall : evenLi < 2048) : evenLi >>> 8 < 8 := by
  rw [Nat.shiftRight_eq_div_pow]
  omega

/-- The length indicators are read back. -/
theorem fields_read : ∀ (lengthIndicators : List Nat) (rest : List UInt8), lengthIndicators ≠ [] →
    (∀ lengthIndicator ∈ lengthIndicators, lengthIndicator < 2048) →
    (serializeFields (bitsOf lengthIndicators) lengthIndicators).length =
        fieldsLength lengthIndicators.length ∧
      deserializeFields (serializeFields (bitsOf lengthIndicators) lengthIndicators ++ rest) =
        some (bitsOf lengthIndicators, lengthIndicators, fieldsLength lengthIndicators.length)
  | [], _, hne, _ => absurd rfl hne
  | [oddLi], rest, _, hsmall => by
      obtain ⟨hbit, hli, -, -⟩ := @oddLi_read 0 oddLi 0 0 (by omega)
        (hsmall oddLi List.mem_cons_self) (by omega) (by omega)
      have hzero : ((oddLi <<< 4) &&& 0x00F0) ||| ((0 <<< 3) &&& 0x08) ||| (0 &&& 0x0007) =
          (oddLi <<< 4) &&& 0x00F0 := by simp
      rw [hzero] at hli
      refine ⟨by simp [bitsOf, serializeFields, fieldsLength], ?_⟩
      simp only [bitsOf, DATA_FIELD_FOLLOWS, serializeFields, List.cons_append, List.nil_append]
      rw [deserializeFields.eq_def]
      have hcount : fieldsLength [oddLi].length = 2 := by
        show fieldsLength 1 = 2
        rfl
      simp only [hbit, hli, E_LI_FIELDS_FOLLOWS, if_neg Nat.zero_ne_one, hcount]
  | [oddLi, evenLi], rest, _, hsmall => by
      have hhigh := high_lt (hsmall evenLi (List.mem_cons_of_mem _ List.mem_cons_self))
      obtain ⟨hbit, hli, hbit2, hli2⟩ := @oddLi_read 1 oddLi 0 (evenLi >>> 8) (by omega)
        (hsmall oddLi List.mem_cons_self) (by omega) hhigh
      refine ⟨by simp [bitsOf, serializeFields, fieldsLength], ?_⟩
      have hcount : fieldsLength [oddLi, evenLi].length = 3 := by
        show fieldsLength 2 = 3
        rfl
      simp only [bitsOf, DATA_FIELD_FOLLOWS, E_LI_FIELDS_FOLLOWS, serializeFields, sharedByte,
        List.cons_append, List.nil_append, deserializeFields, hbit, hli, hbit2, hli2, evenLi_read,
        if_true, if_neg Nat.zero_ne_one, hcount]
  | oddLi :: evenLi :: nextLi :: lengthIndicators, rest, _, hsmall => by
      have hhigh := high_lt (hsmall evenLi (List.mem_cons_of_mem _ List.mem_cons_self))
      obtain ⟨hbit, hli, hbit2, hli2⟩ := @oddLi_read 1 oddLi 1 (evenLi >>> 8) (by omega)
        (hsmall oddLi List.mem_cons_self) (by omega) hhigh
      obtain ⟨hlength, hread⟩ := fields_read (nextLi :: lengthIndicators) rest
        (List.cons_ne_nil _ _) fun lengthIndicator hmem =>
          hsmall lengthIndicator (List.mem_cons_of_mem _ (List.mem_cons_of_mem _ hmem))
      have hcount : fieldsLength (oddLi :: evenLi :: nextLi :: lengthIndicators).length =
          fieldsLength (nextLi :: lengthIndicators).length + 3 := by
        rw [List.length_cons, List.length_cons, fieldsLength, fieldsLength]
        omega
      rw [hcount]
      constructor
      · simp only [bitsOf, serializeFields, List.length_cons, hlength]
      · simp only [bitsOf, E_LI_FIELDS_FOLLOWS, serializeFields, sharedByte, List.cons_append,
          deserializeFields, hbit, hli, hbit2, hli2, evenLi_read, if_true, hread, Option.map_some]

/-- What `DoNotifyTxOpportunity` builds: the header of some segments. -/
def ofSegments (framingInfo sequenceNumber : Nat) (lengthIndicators : List Nat) : LteRlcHeader where
  headerLength := 2 + fieldsLength lengthIndicators.length
  framingInfo := framingInfo
  sequenceNumber := sequenceNumber
  extensionBits := bitsOf (0 :: lengthIndicators)
  lengthIndicators := lengthIndicators

/-- A header is read back from a packet it was put in front of. -/
theorem removeHeader_serialize {framingInfo sequenceNumber : Nat} {lengthIndicators : List Nat}
    (hframing : framingInfo < 4) (hsn : sequenceNumber < 1024)
    (hsmall : ∀ lengthIndicator ∈ lengthIndicators, lengthIndicator < 2048)
    (packet : List UInt8) :
    removeHeader ((ofSegments framingInfo sequenceNumber lengthIndicators).serialize ++ packet) =
      some (ofSegments framingInfo sequenceNumber lengthIndicators, packet) := by
  have hhigh : sequenceNumber >>> 8 < 4 := by
    rw [Nat.shiftRight_eq_div_pow]
    omega
  have hlow : sequenceNumber &&& 0x00FF < 256 := by
    rw [and_byte]
    exact Nat.mod_lt _ (Nat.two_pow_pos 8)
  have hwhole : (((sequenceNumber >>> 8) <<< 8) ||| (sequenceNumber &&& 0x00FF)) % 1024 =
      sequenceNumber := by
    rw [and_byte, high_or_low, Nat.mod_eq_of_lt hsn]
  cases lengthIndicators with
  | nil =>
      obtain ⟨hbyte, hread, hbit, hsnHigh⟩ :=
        fixedByte_read framingInfo hframing 0 (by omega) (sequenceNumber >>> 8) hhigh
      simp only [ofSegments, serialize, bitsOf, DATA_FIELD_FOLLOWS, List.headD_cons, List.tail_cons,
        serializeFields, List.cons_append, List.nil_append, removeHeader, deserialize, fixedByte,
        toNat_ofNat_of_lt hbyte, toNat_ofNat_of_lt hlow, hread, hbit, hsnHigh, hwhole, if_true,
        Option.map_some]
      rfl
  | cons lengthIndicator others =>
      obtain ⟨hbyte, hread, hbit, hsnHigh⟩ :=
        fixedByte_read framingInfo hframing 1 (by omega) (sequenceNumber >>> 8) hhigh
      obtain ⟨hlength, hfields⟩ :=
        fields_read (lengthIndicator :: others) packet (List.cons_ne_nil _ _) hsmall
      have hdrop : ((serializeFields (bitsOf (lengthIndicator :: others)) (lengthIndicator :: others)) ++
          packet).drop (fieldsLength (lengthIndicator :: others).length) = packet := by
        rw [← hlength]
        exact List.drop_left
      have hshift : 2 + fieldsLength (lengthIndicator :: others).length =
          fieldsLength (lengthIndicator :: others).length + 2 := Nat.add_comm _ _
      simp only [ofSegments, serialize, bitsOf, DATA_FIELD_FOLLOWS, E_LI_FIELDS_FOLLOWS,
        List.headD_cons, List.tail_cons, List.cons_append, removeHeader, deserialize, fixedByte,
        toNat_ofNat_of_lt hbyte, toNat_ofNat_of_lt hlow, hread, hbit, hsnHigh, hwhole, hfields,
        Option.map_some, if_neg Nat.one_ne_zero, List.nil_append, hshift, List.drop_succ_cons, hdrop]

end LteRlcHeader

end DeepcV2x.Rlc
