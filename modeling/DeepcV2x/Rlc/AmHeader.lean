import DeepcV2x.Rlc.UmSegment

/-!
# The header of acknowledged mode

`LteRlcAmHeader` has two layouts.  A data header has a fixed part of four bytes
and the length indicators of unacknowledged mode; a STATUS header has the first
number not acknowledged and a chain of missing numbers, twelve bits each.
-/

namespace DeepcV2x.Rlc

structure LteRlcAmHeader where
  headerLength : Nat := 0
  dataControlBit : Nat := 0xff
  resegmentationFlag : Nat := 0xff
  pollingBit : Nat := 0xff
  framingInfo : Nat := 0xff
  sequenceNumber : Nat := 0xfffa % 1024
  lastSegmentFlag : Nat := 0
  segmentOffset : Nat := 0xffff
  lastOffset : Nat := 0xffff
  extensionBits : List Nat := []
  lengthIndicators : List Nat := []
  controlPduType : Nat := 0xff
  ackSn : Nat := 0xffff % 1024
  nackSnList : List Nat := []
  deriving DecidableEq, Repr

namespace LteRlcAmHeader

open LteRlcHeader (DATA_FIELD_FOLLOWS E_LI_FIELDS_FOLLOWS)

def CONTROL_PDU : Nat := 0
def DATA_PDU : Nat := 1
def STATUS_PDU : Nat := 0
def PDU : Nat := 0
def SEGMENT : Nat := 1
def STATUS_REPORT_NOT_REQUESTED : Nat := 0
def STATUS_REPORT_IS_REQUESTED : Nat := 1
def LAST_PDU_SEGMENT : Nat := 1

def setDataPdu (header : LteRlcAmHeader) : LteRlcAmHeader :=
  { header with headerLength := 4, dataControlBit := DATA_PDU }

def setControlPdu (header : LteRlcAmHeader) (controlPduType : Nat) : LteRlcAmHeader :=
  { header with headerLength := 2, dataControlBit := CONTROL_PDU, controlPduType := controlPduType }

def setFramingInfo (header : LteRlcAmHeader) (framingInfo : Nat) : LteRlcAmHeader :=
  { header with framingInfo := framingInfo &&& 0x03 }

def setSequenceNumber (header : LteRlcAmHeader) (sequenceNumber : Nat) : LteRlcAmHeader :=
  { header with sequenceNumber := sequenceNumber }

def pushExtensionBit (header : LteRlcAmHeader) (extensionBit : Nat) : LteRlcAmHeader :=
  let extensionBits := header.extensionBits ++ [extensionBit]
  { header with
    extensionBits := extensionBits
    headerLength :=
      if 1 < extensionBits.length then
        if extensionBits.length % 2 = 1 then header.headerLength + 1 else header.headerLength + 2
      else header.headerLength }

def pushLengthIndicator (header : LteRlcAmHeader) (lengthIndicator : Nat) : LteRlcAmHeader :=
  { header with lengthIndicators := header.lengthIndicators ++ [lengthIndicator] }

def setResegmentationFlag (header : LteRlcAmHeader) (resegFlag : Nat) : LteRlcAmHeader :=
  { header with resegmentationFlag := resegFlag &&& 0x01 }

def setPollingBit (header : LteRlcAmHeader) (pollingBit : Nat) : LteRlcAmHeader :=
  { header with pollingBit := pollingBit &&& 0x01 }

def setLastSegmentFlag (header : LteRlcAmHeader) (lsf : Nat) : LteRlcAmHeader :=
  { header with lastSegmentFlag := lsf &&& 0x01 }

def setSegmentOffset (header : LteRlcAmHeader) (segmentOffset : Nat) : LteRlcAmHeader :=
  { header with segmentOffset := segmentOffset &&& 0x7FFF }

def setAckSn (header : LteRlcAmHeader) (ackSn : Nat) : LteRlcAmHeader :=
  { header with ackSn := ackSn }

/-- `GetSerializedSize`.  The length only grows, and `m_headerLength` keeps 16 bits of it. -/
def getSerializedSize (header : LteRlcAmHeader) : Nat := header.headerLength % 65536

/-- `OneMoreNackWouldFitIn`; the argument has 16 bits, the difference is an `int`. -/
def oneMoreNackWouldFitIn (header : LteRlcAmHeader) (bytes : Nat) : Bool :=
  if header.nackSnList.length % 2 = 0 then decide (header.getSerializedSize < bytes % 65536)
  else decide ((header.getSerializedSize : Int) < ((bytes % 65536 : Nat) : Int) - 1)

def pushNack (header : LteRlcAmHeader) (nack : Nat) : LteRlcAmHeader :=
  let nackSnList := header.nackSnList ++ [nack]
  { header with
    nackSnList := nackSnList
    headerLength :=
      if nackSnList.length % 2 = 0 then header.headerLength + 1 else header.headerLength + 2 }

def isNackPresent (header : LteRlcAmHeader) (nack : Nat) : Bool :=
  header.nackSnList.any fun other => other == nack

/-! ## Bytes -/

/-- The bits of the first byte of a data header. -/
def dataBits (resegmentationFlag pollingBit framingInfo extensionBit high : Nat) : Nat :=
  ((DATA_PDU <<< 7) &&& 0x80) ||| ((resegmentationFlag <<< 6) &&& 0x40) |||
    ((pollingBit <<< 5) &&& 0x20) ||| ((framingInfo <<< 3) &&& 0x18) |||
    ((extensionBit <<< 2) &&& 0x04) ||| (high &&& 0x0003)

/-- The first byte of a data header. -/
def dataByte (header : LteRlcAmHeader) : Nat :=
  dataBits header.resegmentationFlag header.pollingBit header.framingInfo
    (header.extensionBits.headD 0) (header.sequenceNumber >>> 8)

/-- The first byte of the segment offset. -/
def offsetByte (header : LteRlcAmHeader) : Nat :=
  ((header.lastSegmentFlag <<< 7) &&& 0x80) ||| ((header.segmentOffset >>> 8) &&& 0x007F)

/-- The first byte of a control header. -/
def controlByte (header : LteRlcAmHeader) : Nat :=
  ((CONTROL_PDU <<< 7) &&& 0x80) ||| ((header.controlPduType <<< 4) &&& 0x70) |||
    ((header.ackSn >>> 6) &&& 0x0F)

/-- The byte an odd missing number shares with the even one behind it. -/
def evenByte (oddNack evenNack : Nat) : Nat :=
  ((oddNack <<< 7) &&& 0x80) ||| 0x40 ||| ((evenNack >>> 5) &&& 0x1F)

/-- The byte an even missing number shares with the odd one behind it. -/
def oddByte (evenNack oddNack : Nat) : Nat :=
  ((evenNack <<< 3) &&& 0xF8) ||| 0x04 ||| ((oddNack >>> 9) &&& 0x01)

/-- The byte the last bits of the acknowledged number share with the first missing one. -/
def ackByte (ackSn nack : Nat) : Nat :=
  ((ackSn <<< 2) &&& 0xFC) ||| 0x02 ||| ((nack >>> 9) &&& 0x01)

/-- The loop over the missing numbers; the first bit of the current one is written. -/
def serializeNacks : Nat → List Nat → List UInt8
  | oddNack, [] => [UInt8.ofNat ((oddNack >>> 1) &&& 0xFF), UInt8.ofNat ((oddNack <<< 7) &&& 0x80)]
  | oddNack, [evenNack] =>
      [UInt8.ofNat ((oddNack >>> 1) &&& 0xFF), UInt8.ofNat (evenByte oddNack evenNack),
        UInt8.ofNat ((evenNack <<< 3) &&& 0xF8)]
  | oddNack, evenNack :: nextNack :: nacks =>
      UInt8.ofNat ((oddNack >>> 1) &&& 0xFF) :: UInt8.ofNat (evenByte oddNack evenNack) ::
        UInt8.ofNat (oddByte evenNack nextNack) :: serializeNacks nextNack nacks

/-- `Serialize`; a data header has an extension bit. -/
def serialize (header : LteRlcAmHeader) : List UInt8 :=
  if header.dataControlBit = DATA_PDU then
    UInt8.ofNat header.dataByte :: UInt8.ofNat (header.sequenceNumber &&& 0x00FF) ::
      UInt8.ofNat header.offsetByte :: UInt8.ofNat (header.segmentOffset &&& 0x00FF) ::
      LteRlcHeader.serializeFields header.extensionBits.tail header.lengthIndicators
  else
    UInt8.ofNat header.controlByte ::
      match header.nackSnList with
      | [] => [UInt8.ofNat ((header.ackSn <<< 2) &&& 0xFC)]
      | nack :: nacks => UInt8.ofNat (ackByte header.ackSn nack) :: serializeNacks nack nacks

/-- The loop that reads the missing numbers behind the first one, and the bytes it reads. -/
def deserializeNacks : Nat → List UInt8 → Option (List Nat × Nat)
  | byte, nextByte :: bytes =>
      let evenNack := ((byte &&& 0x1F) <<< 5) ||| ((nextByte.toNat &&& 0xF8) >>> 3)
      if (nextByte.toNat &&& 0x04) >>> 2 = 1 then
        match bytes with
        | middleByte :: finalByte :: bytes =>
            let oddNack := ((nextByte.toNat &&& 0x01) <<< 9) ||| (middleByte.toNat <<< 1) |||
              ((finalByte.toNat &&& 0x80) >>> 7)
            if (finalByte.toNat &&& 0x40) >>> 6 = 1 then
              (deserializeNacks finalByte.toNat bytes).map fun nacks =>
                (evenNack :: oddNack :: nacks.1, nacks.2 + 3)
            else some ([evenNack, oddNack], 3)
        | _ => none
      else some ([evenNack], 1)
  | _, [] => none

/-- The data layout of `Deserialize`, behind the first byte; `start` is the size of the packet. -/
def deserializeData (start byte1 : Nat) : List UInt8 → Option LteRlcAmHeader
  | byte2 :: byte3 :: byte4 :: bytes =>
      let header : LteRlcAmHeader :=
        { headerLength := 4
          dataControlBit := (byte1 &&& 0x80) >>> 7
          resegmentationFlag := (byte1 &&& 0x40) >>> 6
          pollingBit := (byte1 &&& 0x20) >>> 5
          framingInfo := (byte1 &&& 0x18) >>> 3
          sequenceNumber := (((byte1 &&& 0x03) <<< 8) ||| byte2.toNat) % 1024
          lastSegmentFlag := (byte3.toNat &&& 0x80) >>> 7
          segmentOffset := (byte3.toNat &&& 0x7F) ||| byte4.toNat
          extensionBits := [(byte1 &&& 0x04) >>> 2] }
      if (byte1 &&& 0x04) >>> 2 = DATA_FIELD_FOLLOWS then some header
      else
        (LteRlcHeader.deserializeFields bytes).map fun fields =>
          let headerLength := header.headerLength + fields.2.2
          { header with
            headerLength := headerLength
            extensionBits := header.extensionBits ++ fields.1
            lengthIndicators := fields.2.1
            lastOffset :=
              if header.resegmentationFlag = SEGMENT then
                (((header.segmentOffset + start : Nat) : Int) -
                  (headerLength % 65536 : Nat)).emod 65536 |>.toNat
              else header.lastOffset }
  | _ => none

/-- The control layout of `Deserialize`, behind the first byte. -/
def deserializeControl (byte1 : Nat) : List UInt8 → Option LteRlcAmHeader
  | byte2 :: bytes =>
      let header : LteRlcAmHeader :=
        { headerLength := 2
          dataControlBit := (byte1 &&& 0x80) >>> 7
          controlPduType := (byte1 &&& 0x70) >>> 4
          ackSn := (((byte1 &&& 0x0F) <<< 6) ||| ((byte2.toNat &&& 0xFC) >>> 2)) % 1024 }
      if (byte2.toNat &&& 0x02) >>> 1 = 1 then
        match bytes with
        | byte3 :: byte4 :: bytes =>
            let nack := ((byte2.toNat &&& 0x01) <<< 9) ||| (byte3.toNat <<< 1) |||
              ((byte4.toNat &&& 0x80) >>> 7)
            if (byte4.toNat &&& 0x40) >>> 6 = 1 then
              (deserializeNacks byte4.toNat bytes).map fun nacks =>
                { header with headerLength := 4 + nacks.2, nackSnList := nack :: nacks.1 }
            else some { header with headerLength := 4, nackSnList := [nack] }
        | _ => none
      else some header
  | [] => none

/-- `Deserialize`; reading behind the end is not allowed. -/
def deserialize (packet : List UInt8) : Option LteRlcAmHeader :=
  match packet with
  | [] => none
  | byte1 :: bytes =>
      if (byte1.toNat &&& 0x80) >>> 7 = DATA_PDU then
        deserializeData packet.length byte1.toNat bytes
      else deserializeControl byte1.toNat bytes

/-! ## Fields pushed -/

/-- The fields pushed for the segments before the last, and the last extension bit. -/
def pushFields : LteRlcAmHeader → List Nat → LteRlcAmHeader
  | header, [] => header.pushExtensionBit DATA_FIELD_FOLLOWS
  | header, lengthIndicator :: lengthIndicators =>
      pushFields ((header.pushExtensionBit E_LI_FIELDS_FOLLOWS).pushLengthIndicator lengthIndicator)
        lengthIndicators

/-- The bytes of a chain of missing numbers. -/
def nacksLength (count : Nat) : Nat := count + (count + 1) / 2

theorem pushFields_eq (lengthIndicators : List Nat) : ∀ {header : LteRlcAmHeader} {count : Nat},
    header.extensionBits = List.replicate count E_LI_FIELDS_FOLLOWS →
    header.headerLength = 4 + LteRlcHeader.fieldsLength (count - 1) →
    header.pushFields lengthIndicators = { header with
      headerLength := 4 + LteRlcHeader.fieldsLength (count + lengthIndicators.length)
      extensionBits :=
        List.replicate (count + lengthIndicators.length) E_LI_FIELDS_FOLLOWS ++ [DATA_FIELD_FOLLOWS]
      lengthIndicators := header.lengthIndicators ++ lengthIndicators } := by
  have hgrow : ∀ {header : LteRlcAmHeader} {count : Nat} (extensionBit : Nat),
      header.extensionBits = List.replicate count E_LI_FIELDS_FOLLOWS →
      header.headerLength = 4 + LteRlcHeader.fieldsLength (count - 1) →
      header.pushExtensionBit extensionBit = { header with
        headerLength := 4 + LteRlcHeader.fieldsLength count
        extensionBits := header.extensionBits ++ [extensionBit] } := by
    intro header count extensionBit hbits hlength
    have hcount : (header.extensionBits ++ [extensionBit]).length = count + 1 := by
      rw [hbits, List.length_append, List.length_replicate, List.length_singleton]
    rw [pushExtensionBit]
    congr 1
    rw [hcount, hlength, LteRlcHeader.fieldsLength, LteRlcHeader.fieldsLength]
    split <;> try split
    all_goals omega
  induction lengthIndicators with
  | nil =>
      intro header count hbits hlength
      rw [pushFields, hgrow _ hbits hlength, hbits, List.append_nil]
      rfl
  | cons lengthIndicator lengthIndicators ih =>
      intro header count hbits hlength
      have hpush := hgrow E_LI_FIELDS_FOLLOWS hbits hlength
      have hnext := @ih ((header.pushExtensionBit E_LI_FIELDS_FOLLOWS).pushLengthIndicator
        lengthIndicator) (count + 1) (by
          rw [hpush, pushLengthIndicator, hbits, List.replicate_succ'])
        (by rw [hpush]; rfl)
      rw [pushFields, hnext, hpush, List.length_cons, pushLengthIndicator,
        show count + 1 + lengthIndicators.length = count + (lengthIndicators.length + 1) by omega]
      simp only [List.append_assoc, List.singleton_append]

/-- Missing numbers pushed one behind the other. -/
theorem pushNacks_eq (nacks : List Nat) : ∀ {header : LteRlcAmHeader},
    header.headerLength = 2 + nacksLength header.nackSnList.length →
    nacks.foldl pushNack header = { header with
      headerLength := 2 + nacksLength (header.nackSnList ++ nacks).length
      nackSnList := header.nackSnList ++ nacks } := by
  induction nacks with
  | nil =>
      intro header hlength
      rw [List.foldl_nil, List.append_nil, ← hlength]
  | cons nack nacks ih =>
      intro header hlength
      have hpush : (header.pushNack nack).headerLength =
          2 + nacksLength (header.pushNack nack).nackSnList.length := by
        simp only [pushNack, List.length_append, List.length_singleton, hlength, nacksLength]
        split
        all_goals omega
      rw [List.foldl_cons, ih hpush]
      simp only [pushNack, List.append_assoc, List.singleton_append]

end LteRlcAmHeader

end DeepcV2x.Rlc
