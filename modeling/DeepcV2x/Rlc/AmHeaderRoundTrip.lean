import DeepcV2x.Rlc.AmHeader
import DeepcV2x.Rlc.HeaderRoundTrip

/-!
# Headers of acknowledged mode read back

Each missing number is spread over two or three bytes, which share bits with its
neighbours; the bits written are read back in the same steps.
-/

namespace DeepcV2x.Rlc

namespace LteRlcAmHeader

open LteRlcHeader (toNat_ofNat_of_lt high_or_low and_byte fieldsLength fields_read)

/-! ## Shared bytes -/

/-- The lowest bits of a number, moved up. -/
theorem shift_mask (number shift width : Nat) :
    (number <<< shift) &&& ((2 ^ width - 1) <<< shift) = (number % 2 ^ width) <<< shift := by
  rw [← Nat.and_two_pow_sub_one_eq_mod, Nat.shiftLeft_and_distrib]

theorem shiftRight_lt {number : Nat} (hlt : number < 1024) (shift : Nat) :
    number >>> shift < 1024 / 2 ^ shift + 1 := by
  rw [Nat.shiftRight_eq_div_pow]
  exact Nat.lt_succ_of_le (Nat.div_le_div_right (Nat.le_of_lt hlt))

theorem highBit_lt {number : Nat} (hlt : number < 1024) : number >>> 9 < 2 := by
  rw [Nat.shiftRight_eq_div_pow]
  omega

theorem evenByte_read {oddNack evenNack : Nat} (heven : evenNack < 1024) :
    let byte := (UInt8.ofNat (evenByte oddNack evenNack)).toNat
    (byte &&& 0x80) >>> 7 = oddNack % 2 ∧ (byte &&& 0x40) >>> 6 = 1 ∧
      byte &&& 0x1F = evenNack >>> 5 := by
  have hbyte : ∀ low < 2, ∀ high < 32,
      let byte := (low <<< 7) ||| 0x40 ||| (high &&& 0x1F)
      byte < 256 ∧ (byte &&& 0x80) >>> 7 = low ∧ (byte &&& 0x40) >>> 6 = 1 ∧
        byte &&& 0x1F = high := by decide +kernel
  have hhigh : evenNack >>> 5 < 32 := by
    rw [Nat.shiftRight_eq_div_pow]
    omega
  obtain ⟨hlt, hread⟩ := hbyte (oddNack % 2) (Nat.mod_lt _ (by decide)) _ hhigh
  have hmask : (oddNack <<< 7) &&& 0x80 = (oddNack % 2) <<< 7 := shift_mask oddNack 7 1
  rw [evenByte, hmask, toNat_ofNat_of_lt hlt]
  exact hread

theorem oddByte_read {evenNack oddNack : Nat} (hodd : oddNack < 1024) :
    let byte := (UInt8.ofNat (oddByte evenNack oddNack)).toNat
    (byte &&& 0xF8) >>> 3 = evenNack % 32 ∧ (byte &&& 0x04) >>> 2 = 1 ∧
      byte &&& 0x01 = oddNack >>> 9 := by
  have hbyte : ∀ low < 32, ∀ high < 2,
      let byte := (low <<< 3) ||| 0x04 ||| (high &&& 0x01)
      byte < 256 ∧ (byte &&& 0xF8) >>> 3 = low ∧ (byte &&& 0x04) >>> 2 = 1 ∧
        byte &&& 0x01 = high := by decide +kernel
  obtain ⟨hlt, hread⟩ := hbyte (evenNack % 32) (Nat.mod_lt _ (by decide)) _ (highBit_lt hodd)
  have hmask : (evenNack <<< 3) &&& 0xF8 = (evenNack % 32) <<< 3 := shift_mask evenNack 3 5
  rw [oddByte, hmask, toNat_ofNat_of_lt hlt]
  exact hread

theorem lastOdd_read (oddNack : Nat) :
    let byte := (UInt8.ofNat ((oddNack <<< 7) &&& 0x80)).toNat
    (byte &&& 0x80) >>> 7 = oddNack % 2 ∧ (byte &&& 0x40) >>> 6 = 0 := by
  have hbyte : ∀ low < 2, low <<< 7 < 256 ∧ ((low <<< 7) &&& 0x80) >>> 7 = low ∧
      ((low <<< 7) &&& 0x40) >>> 6 = 0 := by decide
  obtain ⟨hlt, hread⟩ := hbyte (oddNack % 2) (Nat.mod_lt _ (by decide))
  have hmask : (oddNack <<< 7) &&& 0x80 = (oddNack % 2) <<< 7 := shift_mask oddNack 7 1
  rw [hmask, toNat_ofNat_of_lt hlt]
  exact hread

theorem lastEven_read (evenNack : Nat) :
    let byte := (UInt8.ofNat ((evenNack <<< 3) &&& 0xF8)).toNat
    (byte &&& 0xF8) >>> 3 = evenNack % 32 ∧ (byte &&& 0x04) >>> 2 = 0 := by
  have hbyte : ∀ low < 32, low <<< 3 < 256 ∧ ((low <<< 3) &&& 0xF8) >>> 3 = low ∧
      ((low <<< 3) &&& 0x04) >>> 2 = 0 := by decide
  obtain ⟨hlt, hread⟩ := hbyte (evenNack % 32) (Nat.mod_lt _ (by decide))
  have hmask : (evenNack <<< 3) &&& 0xF8 = (evenNack % 32) <<< 3 := shift_mask evenNack 3 5
  rw [hmask, toNat_ofNat_of_lt hlt]
  exact hread

theorem ackByte_read {ackSn nack : Nat} (hnack : nack < 1024) :
    let byte := (UInt8.ofNat (ackByte ackSn nack)).toNat
    (byte &&& 0xFC) >>> 2 = ackSn % 64 ∧ (byte &&& 0x02) >>> 1 = 1 ∧ byte &&& 0x01 = nack >>> 9 := by
  have hbyte : ∀ low < 64, ∀ high < 2,
      let byte := (low <<< 2) ||| 0x02 ||| (high &&& 0x01)
      byte < 256 ∧ (byte &&& 0xFC) >>> 2 = low ∧ (byte &&& 0x02) >>> 1 = 1 ∧
        byte &&& 0x01 = high := by decide +kernel
  obtain ⟨hlt, hread⟩ := hbyte (ackSn % 64) (Nat.mod_lt _ (by decide)) _ (highBit_lt hnack)
  have hmask : (ackSn <<< 2) &&& 0xFC = (ackSn % 64) <<< 2 := shift_mask ackSn 2 6
  rw [ackByte, hmask, toNat_ofNat_of_lt hlt]
  exact hread

theorem lastAck_read (ackSn : Nat) :
    let byte := (UInt8.ofNat ((ackSn <<< 2) &&& 0xFC)).toNat
    (byte &&& 0xFC) >>> 2 = ackSn % 64 ∧ (byte &&& 0x02) >>> 1 = 0 := by
  have hbyte : ∀ low < 64, low <<< 2 < 256 ∧ ((low <<< 2) &&& 0xFC) >>> 2 = low ∧
      ((low <<< 2) &&& 0x02) >>> 1 = 0 := by decide
  obtain ⟨hlt, hread⟩ := hbyte (ackSn % 64) (Nat.mod_lt _ (by decide))
  have hmask : (ackSn <<< 2) &&& 0xFC = (ackSn % 64) <<< 2 := shift_mask ackSn 2 6
  rw [hmask, toNat_ofNat_of_lt hlt]
  exact hread

theorem middle_read (nack : Nat) :
    (UInt8.ofNat ((nack >>> 1) &&& 0xFF)).toNat = (nack >>> 1) % 256 := by
  rw [and_byte]
  exact toNat_ofNat_of_lt (Nat.mod_lt _ (by decide))

/-- An odd missing number is made up of its first bit, the eight bits behind it and the last one. -/
theorem odd_whole : ∀ nack < 1024,
    ((nack >>> 9) <<< 9) ||| (((nack >>> 1) % 256) <<< 1) ||| (nack % 2) = nack := by
  decide +kernel

/-! ## The chain of missing numbers -/

/-- What is written behind the byte in which an even missing number begins. -/
def behindEven (evenNack : Nat) : List Nat → List UInt8
  | [] => [UInt8.ofNat ((evenNack <<< 3) &&& 0xF8)]
  | nextNack :: nacks => UInt8.ofNat (oddByte evenNack nextNack) :: serializeNacks nextNack nacks

theorem serializeNacks_cons (oddNack evenNack : Nat) (nacks : List Nat) :
    serializeNacks oddNack (evenNack :: nacks) =
      UInt8.ofNat ((oddNack >>> 1) &&& 0xFF) :: UInt8.ofNat (evenByte oddNack evenNack) ::
        behindEven evenNack nacks := by
  cases nacks with
  | nil => rfl
  | cons nextNack nacks => rfl

theorem serializeNacks_length : ∀ (nacks : List Nat) (oddNack : Nat),
    (serializeNacks oddNack nacks).length = nacksLength (nacks.length + 1)
  | [], _ => rfl
  | [_], _ => by
      show 3 = nacksLength 2
      rfl
  | _ :: nextNack :: nacks, _ => by
      rw [serializeNacks, List.length_cons, List.length_cons, List.length_cons,
        serializeNacks_length nacks nextNack, List.length_cons, List.length_cons, nacksLength,
        nacksLength]
      omega

/-- The missing numbers are read back from the even one that a byte begins with. -/
theorem nacks_read : ∀ (nacks : List Nat) (evenNack byte : Nat) (payload : List UInt8),
    (∀ nack ∈ evenNack :: nacks, nack < 1024) → byte &&& 0x1F = evenNack >>> 5 →
    deserializeNacks byte (behindEven evenNack nacks ++ payload) =
      some (evenNack :: nacks, nacks.length + (nacks.length + 3) / 2)
  | [], evenNack, byte, payload, _, hbyte => by
      obtain ⟨hlow, hmore⟩ := lastEven_read evenNack
      rw [behindEven, List.singleton_append, deserializeNacks.eq_def]
      simp only [hlow, hmore, hbyte, if_neg Nat.zero_ne_one]
      rw [show ((evenNack >>> 5) <<< 5) ||| (evenNack % 32) = evenNack from high_or_low evenNack 5]
      rfl
  | [nextNack], evenNack, byte, payload, hsmall, hbyte => by
      have hnext := hsmall nextNack (List.mem_cons_of_mem _ List.mem_cons_self)
      obtain ⟨hlow, hmore, hhigh⟩ := @oddByte_read evenNack nextNack hnext
      obtain ⟨hlast, hend⟩ := lastOdd_read nextNack
      rw [behindEven, serializeNacks]
      simp only [List.cons_append, List.nil_append, deserializeNacks, hlow, hmore, hhigh, hlast,
        hend, hbyte, middle_read, if_true, if_neg Nat.zero_ne_one]
      rw [show ((evenNack >>> 5) <<< 5) ||| (evenNack % 32) = evenNack from high_or_low evenNack 5,
        odd_whole nextNack hnext]
      show some ([evenNack, nextNack], 3) = some ([evenNack, nextNack], 1 + (1 + 3) / 2)
      rfl
  | nextNack :: otherNack :: nacks, evenNack, byte, payload, hsmall, hbyte => by
      have hnext := hsmall nextNack (List.mem_cons_of_mem _ List.mem_cons_self)
      have hothers : ∀ nack ∈ otherNack :: nacks, nack < 1024 := fun nack hmem =>
        hsmall nack (List.mem_cons_of_mem _ (List.mem_cons_of_mem _ hmem))
      obtain ⟨hlow, hmore, hhigh⟩ := @oddByte_read evenNack nextNack hnext
      obtain ⟨hbit, hcontinues, hother⟩ :=
        @evenByte_read nextNack otherNack (hothers otherNack List.mem_cons_self)
      have hrest := nacks_read nacks otherNack
        (UInt8.ofNat (evenByte nextNack otherNack)).toNat payload hothers hother
      rw [behindEven, serializeNacks_cons]
      simp only [List.cons_append, deserializeNacks, hlow, hmore, hhigh, hbit, hcontinues, hbyte,
        middle_read, if_true, hrest, Option.map_some, List.length_cons]
      rw [show ((evenNack >>> 5) <<< 5) ||| (evenNack % 32) = evenNack from high_or_low evenNack 5,
        odd_whole nextNack hnext]
      congr 2
      omega

/-! ## Whole headers -/

/-- What a header says: a data header with its fields and length indicators, or a STATUS header with
the acknowledged and the missing numbers. -/
inductive Content
  | data (resegFlag pollingBit framingInfo lsf sequenceNumber segmentOffset : Nat)
      (lengthIndicators : List Nat)
  | status (ackSn : Nat) (nacks : List Nat)

namespace Content

/-- The header built for a content. -/
def header : Content → LteRlcAmHeader
  | .data resegFlag pollingBit framingInfo lsf sequenceNumber segmentOffset lengthIndicators =>
      ((((((pushFields (setDataPdu {}) lengthIndicators).setSequenceNumber
        sequenceNumber).setResegmentationFlag resegFlag).setLastSegmentFlag
        lsf).setSegmentOffset segmentOffset).setFramingInfo framingInfo).setPollingBit pollingBit
  | .status ackSn nacks => (nacks.foldl pushNack (setControlPdu {} STATUS_PDU)).setAckSn ackSn

/-- Numbers have ten bits, length indicators eleven and segment offsets fifteen. -/
def Valid : Content → Prop
  | .data _ _ _ _ sequenceNumber segmentOffset lengthIndicators =>
      sequenceNumber < 1024 ∧ segmentOffset < 32768 ∧
        ∀ lengthIndicator ∈ lengthIndicators, lengthIndicator < 2048
  | .status ackSn nacks => ackSn < 1024 ∧ ∀ nack ∈ nacks, nack < 1024

instance : (content : Content) → Decidable content.Valid
  | .data _ _ _ _ _ _ _ => inferInstanceAs (Decidable (_ ∧ _))
  | .status _ _ => inferInstanceAs (Decidable (_ ∧ _))

/-- The segment offset has no high byte, and the length fits its member. -/
def Readable : Content → Prop
  | .data _ _ _ _ _ segmentOffset lengthIndicators =>
      segmentOffset < 256 ∧ lengthIndicators.length < 43688
  | .status _ nacks => nacks.length < 43689

instance : (content : Content) → Decidable content.Readable
  | .data _ _ _ _ _ _ _ => inferInstanceAs (Decidable (_ ∧ _))
  | .status _ _ => inferInstanceAs (Decidable (_ < _))

end Content

/-- `Serialize` writes as many bytes as announced, and `Deserialize` reads as many of them and the
same fields, whatever is behind; the last offset is no field of the header. -/
structure RoundTrips (header : LteRlcAmHeader) : Prop where
  written : header.serialize.length = header.getSerializedSize
  read : ∀ payload, ∃ other lastOffset, deserialize (header.serialize ++ payload) = some other ∧
    other.getSerializedSize = header.getSerializedSize ∧
    { other with headerLength := header.headerLength, lastOffset := lastOffset } = header

/-- The header of a data content. -/
theorem data_header (resegFlag pollingBit framingInfo lsf sequenceNumber segmentOffset : Nat)
    (lengthIndicators : List Nat) :
    (Content.data resegFlag pollingBit framingInfo lsf sequenceNumber segmentOffset
      lengthIndicators).header =
      { headerLength := 4 + fieldsLength lengthIndicators.length
        dataControlBit := DATA_PDU
        resegmentationFlag := resegFlag &&& 0x01
        pollingBit := pollingBit &&& 0x01
        framingInfo := framingInfo &&& 0x03
        sequenceNumber := sequenceNumber
        lastSegmentFlag := lsf &&& 0x01
        segmentOffset := segmentOffset &&& 0x7FFF
        extensionBits := LteRlcHeader.bitsOf (0 :: lengthIndicators)
        lengthIndicators := lengthIndicators } := by
  have hpush := @pushFields_eq lengthIndicators (setDataPdu {}) 0 rfl rfl
  rw [Nat.zero_add, ← LteRlcHeader.bitsOf_cons 0] at hpush
  rw [Content.header, hpush]
  rfl

theorem status_header (ackSn : Nat) (nacks : List Nat) :
    (Content.status ackSn nacks).header =
      { headerLength := 2 + nacksLength nacks.length
        dataControlBit := CONTROL_PDU
        controlPduType := STATUS_PDU
        ackSn := ackSn
        nackSnList := nacks } := by
  have hpush := @pushNacks_eq nacks (setControlPdu {} STATUS_PDU) rfl
  rw [Content.header, hpush]
  rfl

theorem data_serialize_length (resegFlag pollingBit framingInfo lsf sequenceNumber
    segmentOffset : Nat) {lengthIndicators : List Nat}
    (hsmall : ∀ lengthIndicator ∈ lengthIndicators, lengthIndicator < 2048) :
    (Content.data resegFlag pollingBit framingInfo lsf sequenceNumber segmentOffset
      lengthIndicators).header.serialize.length = 4 + fieldsLength lengthIndicators.length := by
  rw [data_header, serialize, if_pos rfl]
  cases lengthIndicators with
  | nil => rfl
  | cons lengthIndicator others =>
      have hfields := (fields_read (lengthIndicator :: others) [] (List.cons_ne_nil _ _) hsmall).1
      simp only [LteRlcHeader.bitsOf, List.tail_cons, List.length_cons, hfields]
      omega

theorem status_serialize_length (ackSn : Nat) (nacks : List Nat) :
    (Content.status ackSn nacks).header.serialize.length = 2 + nacksLength nacks.length := by
  have hcontrol : ¬ CONTROL_PDU = DATA_PDU := by decide
  rw [status_header, serialize, if_neg hcontrol]
  cases nacks with
  | nil => rfl
  | cons nack nacks =>
      simp only [List.length_cons, serializeNacks_length]
      omega

set_option synthInstance.maxSize 512 in
/-- The fields of the first byte of a data header. -/
theorem dataByte_read : ∀ resegFlag < 2, ∀ pollingBit < 2, ∀ framingInfo < 4, ∀ extensionBit < 2,
    ∀ high < 4,
    let byte := dataBits resegFlag pollingBit framingInfo extensionBit high
    byte < 256 ∧ (byte &&& 0x80) >>> 7 = DATA_PDU ∧ (byte &&& 0x40) >>> 6 = resegFlag ∧
      (byte &&& 0x20) >>> 5 = pollingBit ∧ (byte &&& 0x18) >>> 3 = framingInfo ∧
      (byte &&& 0x04) >>> 2 = extensionBit ∧ byte &&& 0x03 = high := by
  decide +kernel

/-- The fields of the first byte of a STATUS header. -/
theorem controlByte_read : ∀ high < 16,
    let byte := ((CONTROL_PDU <<< 7) &&& 0x80) ||| ((STATUS_PDU <<< 4) &&& 0x70) ||| (high &&& 0x0F)
    byte < 256 ∧ (byte &&& 0x80) >>> 7 = CONTROL_PDU ∧ (byte &&& 0x70) >>> 4 = STATUS_PDU ∧
      byte &&& 0x0F = high := by
  decide

theorem and_one_lt (flag : Nat) : flag &&& 0x01 < 2 :=
  Nat.lt_of_le_of_lt Nat.and_le_right (by decide)

/-- A data header is read back but for its segment offset, whose high byte is not moved up. -/
theorem data_read {resegFlag pollingBit framingInfo lsf sequenceNumber segmentOffset : Nat}
    {lengthIndicators : List Nat} (hsn : sequenceNumber < 1024)
    (hsmall : ∀ lengthIndicator ∈ lengthIndicators, lengthIndicator < 2048) (payload : List UInt8) :
    ∃ lastOffset, deserialize ((Content.data resegFlag pollingBit framingInfo lsf sequenceNumber
        segmentOffset lengthIndicators).header.serialize ++ payload) =
      some { (Content.data resegFlag pollingBit framingInfo lsf sequenceNumber segmentOffset
        lengthIndicators).header with
          lastOffset := lastOffset
          segmentOffset := ((segmentOffset &&& 0x7FFF) >>> 8) |||
            ((segmentOffset &&& 0x7FFF) &&& 0x00FF) } := by
  have hoffset : (segmentOffset &&& 0x7FFF) >>> 8 < 128 := by
    have hle : segmentOffset &&& 0x7FFF ≤ 0x7FFF := Nat.and_le_right
    rw [Nat.shiftRight_eq_div_pow]
    omega
  have hhigh : sequenceNumber >>> 8 < 4 := by
    rw [Nat.shiftRight_eq_div_pow]
    omega
  have hbyte : ∀ number, number &&& 0x00FF < 256 := fun number => by
    rw [and_byte]
    exact Nat.mod_lt _ (by decide)
  have hwhole : (((sequenceNumber >>> 8) <<< 8) ||| (sequenceNumber &&& 0x00FF)) % 1024 =
      sequenceNumber := by
    rw [and_byte, high_or_low, Nat.mod_eq_of_lt hsn]
  obtain ⟨hlt3, hlsf, hoffsetHigh⟩ := LteRlcHeader.oddByte_read _ (and_one_lt lsf) _ hoffset
  rw [data_header, serialize, if_pos rfl, dataByte, offsetByte]
  cases lengthIndicators with
  | nil =>
      obtain ⟨hlt1, hdata, hreseg, hpoll, hframing, hbit, hsnHigh⟩ := dataByte_read _
        (and_one_lt resegFlag) _ (and_one_lt pollingBit) _ (LteRlcHeader.and_three_lt framingInfo) 0
        (by decide) _ hhigh
      simp only [LteRlcHeader.bitsOf, LteRlcHeader.DATA_FIELD_FOLLOWS, List.headD_cons,
        List.tail_cons, LteRlcHeader.serializeFields, List.cons_append, List.nil_append, deserialize,
        toNat_ofNat_of_lt hlt1, hdata, if_true, deserializeData, toNat_ofNat_of_lt hlt3,
        toNat_ofNat_of_lt (hbyte _), hreseg, hpoll, hframing, hbit, hsnHigh, hwhole, hlsf,
        hoffsetHigh]
      exact ⟨_, rfl⟩
  | cons lengthIndicator others =>
      obtain ⟨hlt1, hdata, hreseg, hpoll, hframing, hbit, hsnHigh⟩ := dataByte_read _
        (and_one_lt resegFlag) _ (and_one_lt pollingBit) _ (LteRlcHeader.and_three_lt framingInfo) 1
        (by decide) _ hhigh
      obtain ⟨-, hfields⟩ :=
        fields_read (lengthIndicator :: others) payload (List.cons_ne_nil _ _) hsmall
      simp only [LteRlcHeader.bitsOf, LteRlcHeader.DATA_FIELD_FOLLOWS,
        LteRlcHeader.E_LI_FIELDS_FOLLOWS, List.headD_cons, List.tail_cons, List.cons_append,
        deserialize, toNat_ofNat_of_lt hlt1, hdata, if_true, deserializeData,
        toNat_ofNat_of_lt hlt3, toNat_ofNat_of_lt (hbyte _), hreseg, hpoll, hframing, hbit, hsnHigh,
        hwhole, hlsf, hoffsetHigh, hfields, Option.map_some, if_neg Nat.one_ne_zero, List.nil_append]
      exact ⟨_, rfl⟩

/-- A STATUS header is read back. -/
theorem status_read {ackSn : Nat} {nacks : List Nat} (hack : ackSn < 1024)
    (hsmall : ∀ nack ∈ nacks, nack < 1024) (payload : List UInt8) :
    deserialize ((Content.status ackSn nacks).header.serialize ++ payload) =
      some (Content.status ackSn nacks).header := by
  have hhigh : ackSn >>> 6 < 16 := by
    rw [Nat.shiftRight_eq_div_pow]
    omega
  have hwhole : (((ackSn >>> 6) <<< 6) ||| (ackSn % 64)) % 1024 = ackSn := by
    rw [show ((ackSn >>> 6) <<< 6) ||| (ackSn % 64) = ackSn from high_or_low ackSn 6,
      Nat.mod_eq_of_lt hack]
  obtain ⟨hlt, hcontrol, htype, hackHigh⟩ := controlByte_read _ hhigh
  have hdata : ¬ CONTROL_PDU = DATA_PDU := by decide
  rw [status_header, serialize, if_neg hdata, controlByte]
  cases nacks with
  | nil =>
      obtain ⟨hlow, hmore⟩ := lastAck_read ackSn
      simp only [List.cons_append, List.nil_append, deserialize, toNat_ofNat_of_lt hlt, hcontrol,
        if_neg hdata, deserializeControl, htype, hackHigh, hlow, hmore, if_neg Nat.zero_ne_one,
        hwhole]
      rfl
  | cons nack nacks =>
      have hnack := hsmall nack List.mem_cons_self
      obtain ⟨hlow, hmore, hbit⟩ := @ackByte_read ackSn nack hnack
      cases nacks with
      | nil =>
          obtain ⟨hlast, hend⟩ := lastOdd_read nack
          simp only [serializeNacks, List.cons_append, List.nil_append, deserialize,
            toNat_ofNat_of_lt hlt, hcontrol, if_neg hdata, deserializeControl, htype, hackHigh, hlow,
            hmore, hbit, hwhole, middle_read, hlast, hend, if_true, if_neg Nat.zero_ne_one]
          rw [odd_whole nack hnack]
          have hcount : 2 + nacksLength [nack].length = 4 := by
            show 2 + nacksLength 1 = 4
            rfl
          rw [hcount]
      | cons evenNack nacks =>
          have hothers : ∀ other ∈ evenNack :: nacks, other < 1024 := fun other hmem =>
            hsmall other (List.mem_cons_of_mem _ hmem)
          obtain ⟨hlast, hcontinues, hother⟩ :=
            @evenByte_read nack evenNack (hothers evenNack List.mem_cons_self)
          have hrest := nacks_read nacks evenNack (UInt8.ofNat (evenByte nack evenNack)).toNat payload
            hothers hother
          simp only [serializeNacks_cons, List.cons_append, deserialize, toNat_ofNat_of_lt hlt,
            hcontrol, if_neg hdata, deserializeControl, htype, hackHigh, hlow, hmore, hbit, hwhole,
            middle_read, hlast, hcontinues, if_true, hrest, Option.map_some]
          rw [odd_whole nack hnack]
          have hcount : 4 + (nacks.length + (nacks.length + 3) / 2) =
              2 + nacksLength (nack :: evenNack :: nacks).length := by
            rw [List.length_cons, List.length_cons, nacksLength]
            omega
          rw [hcount]

theorem or_byte_iff {segmentOffset : Nat} (hvalid : segmentOffset < 32768) :
    (segmentOffset >>> 8) ||| (segmentOffset &&& 0x00FF) = segmentOffset ↔ segmentOffset < 256 := by
  rw [and_byte]
  constructor
  · intro hsame
    rw [← hsame]
    refine Nat.or_lt_two_pow ?_ (Nat.mod_lt _ (by decide)) (n := 8)
    rw [Nat.shiftRight_eq_div_pow]
    omega
  · intro hlt
    have hlow : segmentOffset % 2 ^ 8 = segmentOffset := Nat.mod_eq_of_lt hlt
    rw [Nat.shiftRight_eq_div_pow, Nat.div_eq_of_lt hlt, hlow, Nat.zero_or]

theorem and_offset {segmentOffset : Nat} (hvalid : segmentOffset < 32768) :
    segmentOffset &&& 0x7FFF = segmentOffset := by
  rw [show segmentOffset &&& 0x7FFF = segmentOffset % 2 ^ 15 from
    Nat.and_two_pow_sub_one_eq_mod segmentOffset 15]
  exact Nat.mod_eq_of_lt hvalid

/-- A header is read back exactly when its segment offset has no high byte and its length fits. -/
theorem roundTrips_iff {content : Content} (valid : content.Valid) :
    content.header.RoundTrips ↔ content.Readable := by
  cases content with
  | data resegFlag pollingBit framingInfo lsf sequenceNumber segmentOffset lengthIndicators =>
      obtain ⟨hsn, hoffset, hsmall⟩ := valid
      have hlength := data_serialize_length resegFlag pollingBit framingInfo lsf sequenceNumber
        segmentOffset hsmall
      have hsize : (Content.data resegFlag pollingBit framingInfo lsf sequenceNumber segmentOffset
          lengthIndicators).header.getSerializedSize =
          (4 + fieldsLength lengthIndicators.length) % 65536 := by
        rw [data_header, getSerializedSize]
      have hplace : (Content.data resegFlag pollingBit framingInfo lsf sequenceNumber segmentOffset
          lengthIndicators).header.segmentOffset = segmentOffset := by
        rw [data_header]
        exact and_offset hoffset
      rw [fieldsLength] at hlength hsize
      constructor
      · rintro ⟨hwritten, hread⟩
        obtain ⟨other, lastOffset, hother, -, hsame⟩ := hread []
        obtain ⟨last, hreads⟩ := @data_read resegFlag pollingBit framingInfo lsf
          sequenceNumber segmentOffset lengthIndicators hsn hsmall []
        have hfields := Option.some.inj (hother.symm.trans hreads)
        have hback : other.segmentOffset = segmentOffset :=
          (congrArg LteRlcAmHeader.segmentOffset hsame).trans hplace
        rw [hfields, and_offset hoffset] at hback
        exact ⟨(or_byte_iff hoffset).mp hback, by omega⟩
      · rintro ⟨hlow, hfew⟩
        refine ⟨by omega, fun payload => ?_⟩
        obtain ⟨last, hreads⟩ := @data_read resegFlag pollingBit framingInfo lsf
          sequenceNumber segmentOffset lengthIndicators hsn hsmall payload
        rw [and_offset hoffset, (or_byte_iff hoffset).mpr hlow] at hreads
        refine ⟨_, 0xffff, hreads, rfl, ?_⟩
        rw [data_header, and_offset hoffset]
  | status ackSn nacks =>
      obtain ⟨hack, hsmall⟩ := valid
      have hlength := status_serialize_length ackSn nacks
      have hsize : (Content.status ackSn nacks).header.getSerializedSize =
          (2 + nacksLength nacks.length) % 65536 := by
        rw [status_header, getSerializedSize]
      rw [nacksLength] at hlength hsize
      constructor
      · rintro ⟨hwritten, -⟩
        show nacks.length < 43689
        omega
      · intro hfew
        have hcount : nacks.length < 43689 := hfew
        refine ⟨by omega, fun payload => ?_⟩
        refine ⟨_, 0xffff, status_read hack hsmall payload, rfl, ?_⟩
        rw [status_header]

/-- A data header with three length indicators. -/
theorem roundTrips_iff_data :
    (Content.data 0 1 2 1 1023 0 [2047, 1, 300]).header.RoundTrips ↔
      (Content.data 0 1 2 1 1023 0 [2047, 1, 300]).Readable :=
  roundTrips_iff (by decide)

/-- The segment offset 256 is read back as 1. -/
theorem segmentOffset_lost :
    ∃ content : Content, content.Valid ∧ content.header.segmentOffset = 256 ∧
      (deserialize content.header.serialize).map LteRlcAmHeader.segmentOffset = some 1 ∧
      ¬ content.header.RoundTrips :=
  ⟨.data 1 0 0 1 5 256 [], by decide, by decide, by decide +kernel,
    fun roundTrips => by
      obtain ⟨other, lastOffset, hread, -, hsame⟩ := roundTrips.read []
      rw [List.append_nil] at hread
      have hlost : (deserialize (Content.data 1 0 0 1 5 256 []).header.serialize).map
          LteRlcAmHeader.segmentOffset = some 1 := by decide +kernel
      rw [hread, Option.map_some] at hlost
      have hplace := congrArg LteRlcAmHeader.segmentOffset hsame
      have hgiven : (Content.data 1 0 0 1 5 256 []).header.segmentOffset = 256 := by decide
      rw [hgiven] at hplace
      have hone : other.segmentOffset = 1 := Option.some.inj hlost
      exact absurd (hone.symm.trans hplace) (by decide)⟩

end LteRlcAmHeader

end DeepcV2x.Rlc
