import DeepcV2x.Foundation.Runs
import DeepcV2x.Foundation.Segmentation
import DeepcV2x.Rlc.Header
import DeepcV2x.Rlc.SequenceNumber

/-!
# The transmitting side of unacknowledged mode

`LteRlcUm` keeps the service data units in a buffer and cuts them, at each
transmission opportunity, into one protocol data unit: segments that end a unit
have a length indicator, the last segment has none.
-/

namespace DeepcV2x.Rlc

open Foundation.Runs (runFrom)
open Foundation.Segmentation

/-- The status of `LteRlcSduStatusTag`. -/
inductive SduStatus
  | fullSdu
  | firstSegment
  | middleSegment
  | lastSegment
  deriving DecidableEq, Repr

/-- A packet with its status tag. -/
structure TxPdu where
  pdu : List UInt8
  status : SduStatus
  deriving DecidableEq, Repr

/-- A header and the data field behind it. -/
structure RlcPdu where
  rlcHeader : LteRlcHeader
  packet : List UInt8
  deriving DecidableEq, Repr

/-- The packet handed to the MAC. -/
def RlcPdu.wire (pdu : RlcPdu) : List UInt8 := pdu.rlcHeader.serialize ++ pdu.packet

/-- The LTE path, or the NR sidelink path of a logical channel between two layer 2 ids. -/
inductive Path
  | lte
  | nrSl (stch : Bool) (srcL2Id dstL2Id : UInt32)
  deriving DecidableEq, Repr

/-- Layer 2 ids are used on a channel of type STCH only; otherwise the code aborts. -/
def Path.Allowed : Path → Prop
  | .lte => True
  | .nrSl stch srcL2Id dstL2Id => (srcL2Id = 0 ∨ stch = true) ∧ (dstL2Id = 0 ∨ stch = true)

instance : (path : Path) → Decidable path.Allowed
  | .lte => .isTrue trivial
  | .nrSl _ _ _ => inferInstanceAs (Decidable (_ ∧ _))

/-- The members of the transmitting side. -/
structure UmTransmitter where
  maxTxBufferSize : UInt32 := 10 * 1024
  txBufferSize : UInt32 := 0
  txBuffer : List TxPdu := []
  sequenceNumber : SequenceNumber10 := ⟨0, 0⟩
  deriving DecidableEq, Repr

namespace UmTransmitter

/-- `GetSize` of a packet. -/
def sizeOf (packet : List UInt8) : UInt32 := UInt32.ofNat packet.length

/-- The buffer takes the packet. -/
def Accepts (tx : UmTransmitter) (sdu : List UInt8) : Prop :=
  tx.txBufferSize + sizeOf sdu ≤ tx.maxTxBufferSize

instance (tx : UmTransmitter) (sdu : List UInt8) : Decidable (tx.Accepts sdu) :=
  inferInstanceAs (Decidable (_ ≤ _))

/-- `DoTransmitPdcpPdu` and `DoTransmitNrSlPdcpPdu`. -/
def doTransmitPdcpPdu (tx : UmTransmitter) (sdu : List UInt8) : UmTransmitter :=
  if tx.Accepts sdu then
    { tx with
      txBuffer := tx.txBuffer ++ [⟨sdu, .fullSdu⟩]
      txBufferSize := tx.txBufferSize + sizeOf sdu }
  else tx

/-! ## Transmission opportunities -/

/-- The tags of a cut segment: of the part taken and of the part given back. -/
def cutStatus : SduStatus → SduStatus × SduStatus
  | .fullSdu => (.firstSegment, .lastSegment)
  | .lastSegment => (.middleSegment, .lastSegment)
  | other => (other, other)

/-- The tag of the part taken when nothing is given back. -/
def wholeStatus : SduStatus → SduStatus
  | .firstSegment => .fullSdu
  | .middleSegment => .lastSegment
  | other => other

/-- The data field under construction, and the buffer. -/
structure Building where
  dataField : List TxPdu
  rlcHeader : LteRlcHeader
  txBuffer : List TxPdu
  txBufferSize : UInt32

/-- The loop that builds the data field, with the first segment taken out of the buffer. -/
def fillDataField (firstSegment : TxPdu) (txBuffer : List TxPdu)
    (nextSegmentSize nextSegmentId : Nat) (dataField : List TxPdu) (rlcHeader : LteRlcHeader)
    (txBufferSize : UInt32) : Building :=
  let size := firstSegment.pdu.length
  if size = 0 ∨ nextSegmentSize = 0 then ⟨dataField, rlcHeader, txBuffer, txBufferSize⟩
  else if nextSegmentSize < size ∨ 2047 < size then
    let currSegmentSize := min size nextSegmentSize
    let rest := firstSegment.pdu.drop currSegmentSize
    let taken := firstSegment.pdu.take currSegmentSize
    let rlcHeader := rlcHeader.pushExtensionBit LteRlcHeader.DATA_FIELD_FOLLOWS
    if 0 < rest.length then
      ⟨dataField ++ [⟨taken, (cutStatus firstSegment.status).1⟩], rlcHeader,
        ⟨rest, (cutStatus firstSegment.status).2⟩ :: txBuffer, txBufferSize + sizeOf rest⟩
    else
      ⟨dataField ++ [⟨taken, wholeStatus (cutStatus firstSegment.status).1⟩], rlcHeader, txBuffer,
        txBufferSize⟩
  else
    match txBuffer with
    | [] =>
        ⟨dataField ++ [firstSegment], rlcHeader.pushExtensionBit LteRlcHeader.DATA_FIELD_FOLLOWS,
          [], txBufferSize⟩
    | next :: txBuffer =>
        if nextSegmentSize - size ≤ 2 then
          ⟨dataField ++ [firstSegment], rlcHeader.pushExtensionBit LteRlcHeader.DATA_FIELD_FOLLOWS,
            next :: txBuffer, txBufferSize⟩
        else
          fillDataField next txBuffer
            (nextSegmentSize - ((if nextSegmentId % 2 = 1 then 2 else 1) + size)) (nextSegmentId + 1)
            (dataField ++ [firstSegment])
            ((rlcHeader.pushExtensionBit LteRlcHeader.E_LI_FIELDS_FOLLOWS).pushLengthIndicator size)
            (txBufferSize - sizeOf next.pdu)

/-- The framing information of the first and the last segment. -/
def framingInfoOf (first last : SduStatus) : Nat :=
  (if first = .fullSdu ∨ first = .firstSegment then LteRlcHeader.FIRST_BYTE
    else LteRlcHeader.NO_FIRST_BYTE) |||
  (if last = .fullSdu ∨ last = .lastSegment then LteRlcHeader.LAST_BYTE
    else LteRlcHeader.NO_LAST_BYTE)

/-- The body of `DoNotifyTxOpportunity` and `DoNotifyNrSlTxOpportunity`; an empty data field has no
first segment to read. -/
def doNotifyTxOpportunity (tx : UmTransmitter) (bytes : Nat) :
    Option (UmTransmitter × Option RlcPdu) :=
  if bytes ≤ 2 then some (tx, none)
  else
    match tx.txBuffer with
    | [] => some (tx, none)
    | firstSegment :: txBuffer =>
        let building := fillDataField firstSegment txBuffer (bytes - 2) 1 [] {}
          (tx.txBufferSize - sizeOf firstSegment.pdu)
        match building.dataField.head?, building.dataField.getLast? with
        | some first, some last =>
            some ({ tx with
                    txBuffer := building.txBuffer
                    txBufferSize := building.txBufferSize
                    sequenceNumber := tx.sequenceNumber.next },
              some
                { rlcHeader :=
                    (building.rlcHeader.setSequenceNumber tx.sequenceNumber.value).setFramingInfo
                      (framingInfoOf first.status last.status)
                  packet := (building.dataField.map TxPdu.pdu).flatten })
        | _, _ => none

/-- `DoNotifyTxOpportunity` or `DoNotifyNrSlTxOpportunity`. -/
def notifyTxOpportunity (path : Path) (tx : UmTransmitter) (bytes : Nat) :
    Option (UmTransmitter × Option RlcPdu) :=
  match path with
  | .lte => tx.doNotifyTxOpportunity bytes
  | .nrSl stch srcL2Id _ =>
      if srcL2Id ≠ 0 ∧ stch = false then none else tx.doNotifyTxOpportunity bytes

/-! ## Runs -/

inductive TxEvent
  | pdcpPdu (sdu : List UInt8)
  | opportunity (bytes : Nat)

/-- A run with the units the buffer took and the units it sent. -/
structure Sending where
  tx : UmTransmitter
  accepted : List (List UInt8)
  sent : List RlcPdu

def Sending.step (path : Path) (sending : Sending) : TxEvent → Option Sending
  | .pdcpPdu sdu =>
      some { sending with
        tx := sending.tx.doTransmitPdcpPdu sdu
        accepted :=
          if sending.tx.Accepts sdu then sending.accepted ++ [sdu] else sending.accepted }
  | .opportunity bytes =>
      (notifyTxOpportunity path sending.tx bytes).map fun result =>
        { sending with tx := result.1, sent := sending.sent ++ result.2.toList }

def Sending.run (path : Path) : Sending → List TxEvent → Option Sending :=
  runFrom (Sending.step path)

end UmTransmitter

end DeepcV2x.Rlc
