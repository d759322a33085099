import DeepcV2x.Rlc.AmHeader

/-!
# The transmitting side of acknowledged mode

`LteRlcAm` keeps the units it sent until a STATUS unit acknowledges them, sends
those again that are reported missing, and polls for STATUS units; while it
waits for one after a poll, t-PollRetransmit is running.
-/

namespace DeepcV2x.Rlc

open UmTransmitter (cutStatus wholeStatus framingInfoOf)

/-- The members of the transmitting side; an empty slot has no unit. -/
structure AmTransmitter where
  windowSize : Nat := 512
  pollPdu : UInt32 := 1
  pollByte : UInt32 := 50
  txOpportunityForRetxAlwaysBigEnough : Bool := false
  maxTxBufferSize : UInt32 := 10 * 1024
  txonBuffer : List TxPdu := []
  txonBufferSize : UInt32 := 0
  txedBuffer : Nat → Option (List UInt8) := fun _ => none
  retxBuffer : Nat → Option (List UInt8) := fun _ => none
  retxBufferSize : UInt32 := 0
  vtA : SequenceNumber10 := ⟨0, 0⟩
  vtMs : SequenceNumber10 := ⟨512, 0⟩
  vtS : SequenceNumber10 := ⟨0, 0⟩
  pollSn : SequenceNumber10 := ⟨0, 0⟩
  pduWithoutPoll : UInt32 := 0
  byteWithoutPoll : UInt32 := 0
  pollRetransmitTimer : Bool := false
  pollRetransmitTimerJustExpired : Bool := false

/-- A header and the data field behind it. -/
structure AmPdu where
  rlcAmHeader : LteRlcAmHeader
  packet : List UInt8
  deriving DecidableEq, Repr

namespace AmTransmitter

/-- The buffer takes the packet; a limit of zero is none. -/
def Accepts (tx : AmTransmitter) (sdu : List UInt8) : Prop :=
  tx.txonBufferSize + UmTransmitter.sizeOf sdu ≤ tx.maxTxBufferSize ∨ tx.maxTxBufferSize = 0

instance (tx : AmTransmitter) (sdu : List UInt8) : Decidable (tx.Accepts sdu) :=
  inferInstanceAs (Decidable (_ ∨ _))

/-- `DoTransmitPdcpPdu`. -/
def doTransmitPdcpPdu (tx : AmTransmitter) (sdu : List UInt8) : AmTransmitter :=
  if tx.Accepts sdu then
    { tx with
      txonBuffer := tx.txonBuffer ++ [⟨sdu, .fullSdu⟩]
      txonBufferSize := tx.txonBufferSize + UmTransmitter.sizeOf sdu }
  else tx

/-! ## Polls -/

/-- `>=` of two sequence numbers. -/
def Reaches (sn other : SequenceNumber10) : Prop := sn.Gt other ∨ sn.value = other.value

instance (sn other : SequenceNumber10) : Decidable (Reaches sn other) :=
  inferInstanceAs (Decidable (_ ∨ _))

/-- The polling bit is set, and t-PollRetransmit started. -/
def poll (tx : AmTransmitter) : AmTransmitter :=
  { tx with
    pollRetransmitTimerJustExpired := false
    pduWithoutPoll := 0
    byteWithoutPoll := 0
    pollSn := tx.vtS.sub 1
    pollRetransmitTimer := true }

/-! ## Retransmissions -/

/-- A retransmission polls. -/
def PollsWith (tx : AmTransmitter) (rlcAmHeader : LteRlcAmHeader) (packet : List UInt8) : Prop :=
  (tx.txonBuffer.isEmpty = true ∧
      tx.retxBufferSize = UmTransmitter.sizeOf packet + UInt32.ofNat rlcAmHeader.getSerializedSize) ∨
    Reaches tx.vtS tx.vtMs ∨ tx.pollRetransmitTimerJustExpired = true

instance (tx : AmTransmitter) (rlcAmHeader : LteRlcAmHeader) (packet : List UInt8) :
    Decidable (tx.PollsWith rlcAmHeader packet) :=
  inferInstanceAs (Decidable (_ ∨ _))

/-- A unit is sent again, with a new polling bit, and goes back to the transmitted ones. -/
def resend (tx : AmTransmitter) (key : Nat) (stored : List UInt8) :
    Option (AmTransmitter × Option AmPdu) :=
  (LteRlcAmHeader.deserialize stored).map fun rlcAmHeader =>
    let packet := stored.drop rlcAmHeader.getSerializedSize
    let polls := decide (tx.PollsWith rlcAmHeader packet)
    let tx := if polls then tx.poll else tx
    ({ tx with
       txedBuffer := Function.update tx.txedBuffer key (some stored)
       retxBuffer := Function.update tx.retxBuffer key none
       retxBufferSize := tx.retxBufferSize - UmTransmitter.sizeOf stored },
      some
        { rlcAmHeader := rlcAmHeader.setPollingBit
            (if polls then LteRlcAmHeader.STATUS_REPORT_IS_REQUESTED
              else LteRlcAmHeader.STATUS_REPORT_NOT_REQUESTED)
          packet := packet })

/-- The loop that looks for the first unit to send again; there is one. -/
def retransmit (tx : AmTransmitter) (bytes : Nat) :
    Nat → SequenceNumber10 → Option (AmTransmitter × Option AmPdu)
  | 0, _ => none
  | fuel + 1, sn =>
      if sn.Lt tx.vtS then
        match tx.retxBuffer sn.value with
        | none => retransmit tx bytes fuel sn.next
        | some stored =>
            if stored.length ≤ bytes ∨ tx.txOpportunityForRetxAlwaysBigEnough = true then
              tx.resend sn.value stored
            else some (tx, none)
      else none

/-! ## New units -/

/-- The data field under construction, and the buffer. -/
structure AmBuilding where
  dataField : List TxPdu
  rlcAmHeader : LteRlcAmHeader
  txonBuffer : List TxPdu
  txonBufferSize : UInt32

/-- The loop that builds the data field, with the first segment taken out of the buffer. -/
def fillDataField (firstSegment : TxPdu) (txonBuffer : List TxPdu)
    (nextSegmentSize nextSegmentId : Nat) (dataField : List TxPdu) (rlcAmHeader : LteRlcAmHeader)
    (txonBufferSize : UInt32) : AmBuilding :=
  let size := firstSegment.pdu.length
  if size = 0 ∨ nextSegmentSize = 0 then ⟨dataField, rlcAmHeader, txonBuffer, txonBufferSize⟩
  else if nextSegmentSize < size ∨ 2047 < size then
    let currSegmentSize := min size nextSegmentSize
    let rest := firstSegment.pdu.drop currSegmentSize
    let taken := firstSegment.pdu.take currSegmentSize
    let rlcAmHeader := rlcAmHeader.pushExtensionBit LteRlcHeader.DATA_FIELD_FOLLOWS
    if 0 < rest.length then
      ⟨dataField ++ [⟨taken, (cutStatus firstSegment.status).1⟩], rlcAmHeader,
        ⟨rest, (cutStatus firstSegment.status).2⟩ :: txonBuffer,
        txonBufferSize + UmTransmitter.sizeOf rest⟩
    else
      ⟨dataField ++ [⟨taken, wholeStatus (cutStatus firstSegment.status).1⟩], rlcAmHeader,
        txonBuffer, txonBufferSize⟩
  else
    match txonBuffer with
    | [] =>
        ⟨dataField ++ [firstSegment],
          rlcAmHeader.pushExtensionBit LteRlcHeader.DATA_FIELD_FOLLOWS, [], txonBufferSize⟩
    | next :: txonBuffer =>
        if nextSegmentSize - size ≤ 2 then
          ⟨dataField ++ [firstSegment],
            rlcAmHeader.pushExtensionBit LteRlcHeader.DATA_FIELD_FOLLOWS, next :: txonBuffer,
            txonBufferSize⟩
        else
          fillDataField next txonBuffer
            (nextSegmentSize - ((if nextSegmentId % 2 = 1 then 2 else 1) + size)) (nextSegmentId + 1)
            (dataField ++ [firstSegment])
            ((rlcAmHeader.pushExtensionBit LteRlcHeader.E_LI_FIELDS_FOLLOWS).pushLengthIndicator size)
            (txonBufferSize - UmTransmitter.sizeOf next.pdu)

/-- The header of a new unit, but for the polling bit. -/
def newHeader (rlcAmHeader : LteRlcAmHeader) (sequenceNumber : Nat) (first last : SduStatus) :
    LteRlcAmHeader :=
  ((((rlcAmHeader.setSequenceNumber sequenceNumber).setResegmentationFlag
    LteRlcAmHeader.PDU).setLastSegmentFlag LteRlcAmHeader.LAST_PDU_SEGMENT).setSegmentOffset
    0).setFramingInfo (framingInfoOf first last)

/-- A new unit polls; the counters include it. -/
def Polls (tx : AmTransmitter) : Prop :=
  tx.pollPdu ≤ tx.pduWithoutPoll ∨ tx.pollByte ≤ tx.byteWithoutPoll ∨
    (tx.txonBuffer.isEmpty = true ∧ tx.retxBufferSize = 0) ∨ Reaches tx.vtS tx.vtMs ∨
    tx.pollRetransmitTimerJustExpired = true

instance (tx : AmTransmitter) : Decidable tx.Polls := inferInstanceAs (Decidable (_ ∨ _))

/-- A new unit is built from the buffer, sent and stored; an empty data field has no first segment to
read, and the number is asserted to be in the window. -/
def sendNew (tx : AmTransmitter) (bytes : Nat) : Option (AmTransmitter × Option AmPdu) :=
  match tx.txonBuffer with
  | [] => some (tx, none)
  | firstSegment :: txonBuffer =>
      let building := fillDataField firstSegment txonBuffer (bytes - 4) 1 []
        (LteRlcAmHeader.setDataPdu {}) (tx.txonBufferSize - UmTransmitter.sizeOf firstSegment.pdu)
      match building.dataField.head?, building.dataField.getLast? with
      | some first, some last =>
          if tx.vtS.Lt tx.vtMs ∧ Reaches tx.vtS tx.vtA then
            let packet := (building.dataField.map TxPdu.pdu).flatten
            let sent := { tx with
              txonBuffer := building.txonBuffer
              txonBufferSize := building.txonBufferSize
              vtS := tx.vtS.next
              pduWithoutPoll := tx.pduWithoutPoll + 1
              byteWithoutPoll := tx.byteWithoutPoll + UmTransmitter.sizeOf packet }
            let polls := decide sent.Polls
            let polled := if polls then sent.poll else sent
            let rlcAmHeader := (newHeader building.rlcAmHeader tx.vtS.value first.status
              last.status).setPollingBit
                (if polls then LteRlcAmHeader.STATUS_REPORT_IS_REQUESTED
                  else LteRlcAmHeader.STATUS_REPORT_NOT_REQUESTED)
            some ({ polled with
                txedBuffer := Function.update polled.txedBuffer tx.vtS.value
                  (some (rlcAmHeader.serialize ++ packet)) },
              some ⟨rlcAmHeader, packet⟩)
          else none
      | _, _ => none

/-- `DoNotifyTxOpportunity`, when no STATUS unit is to be sent. -/
def doNotifyTxOpportunity (tx : AmTransmitter) (bytes : Nat) :
    Option (AmTransmitter × Option AmPdu) :=
  if bytes < 4 then some (tx, none)
  else if 0 < tx.retxBufferSize then
    if tx.vtA.Lt tx.vtS then tx.retransmit bytes 1024 tx.vtA else none
  else if 0 < tx.txonBufferSize then
    if bytes < 7 then some (tx, none)
    else if tx.vtS.Le tx.vtMs then
      if tx.vtS.value = tx.vtMs.value then some (tx, none) else tx.sendNew bytes
    else none
  else some (tx, none)

/-! ## STATUS units -/

/-- A transmitted unit is considered for retransmission. -/
def toRetx (tx : AmTransmitter) (key : Nat) (stored : List UInt8) : AmTransmitter :=
  { tx with
    txedBuffer := Function.update tx.txedBuffer key none
    retxBuffer := Function.update tx.retxBuffer key (some stored)
    retxBufferSize := tx.retxBufferSize + UmTransmitter.sizeOf stored }

/-- A unit reported missing is one that was sent. -/
def nack (tx : AmTransmitter) (key : Nat) : Option AmTransmitter :=
  match tx.txedBuffer key with
  | some stored => some (tx.toRetx key stored)
  | none => if (tx.retxBuffer key).isSome then some tx else none

/-- A unit is acknowledged; it is not in both buffers. -/
def ack (tx : AmTransmitter) (key : Nat) : Option AmTransmitter :=
  match tx.txedBuffer key, tx.retxBuffer key with
  | some _, some _ => none
  | some _, none => some { tx with txedBuffer := Function.update tx.txedBuffer key none }
  | none, some stored =>
      some { tx with
        retxBuffer := Function.update tx.retxBuffer key none
        retxBufferSize := tx.retxBufferSize - UmTransmitter.sizeOf stored }
  | none, none => some tx

/-- VT(A) and VT(MS) move, and the bases with them. -/
def moveVtA (tx : AmTransmitter) : AmTransmitter :=
  let vtA := tx.vtA.next.setModulusBase tx.vtA.next
  { tx with
    vtA := vtA
    vtMs := (tx.vtA.next.add tx.windowSize).setModulusBase vtA
    vtS := tx.vtS.setModulusBase vtA }

/-- t-PollRetransmit is stopped when the poll is answered. -/
def answerPoll (tx : AmTransmitter) (key : Nat) : AmTransmitter :=
  if tx.pollRetransmitTimer = true ∧ key = tx.pollSn.value then
    { tx with pollRetransmitTimer := false }
  else tx

/-- The loop over the numbers below the acknowledged one; only STATUS units report missing units. -/
def acknowledge (rlcAmHeader : LteRlcAmHeader) : Nat → SequenceNumber10 → SequenceNumber10 → Bool →
    AmTransmitter → Option AmTransmitter
  | 0, _, _, _, tx => some tx
  | fuel + 1, sn, ackSn, incrementVtA, tx =>
      if sn.Lt ackSn ∧ sn.Lt tx.vtS then
        if rlcAmHeader.controlPduType ≠ LteRlcAmHeader.STATUS_PDU then none
        else if rlcAmHeader.isNackPresent sn.value then
          ((tx.answerPoll sn.value).nack sn.value).bind fun tx =>
            acknowledge rlcAmHeader fuel sn.next ackSn false tx
        else
          ((tx.answerPoll sn.value).ack sn.value).bind fun tx =>
            if incrementVtA then
              let tx := tx.moveVtA
              acknowledge rlcAmHeader fuel (sn.setModulusBase tx.vtA).next
                (ackSn.setModulusBase tx.vtA) true tx
            else acknowledge rlcAmHeader fuel sn.next ackSn false tx
      else some tx

/-- The bases set before the loop. -/
def withVtABases (tx : AmTransmitter) : AmTransmitter :=
  { tx with
    vtA := tx.vtA.setModulusBase tx.vtA
    vtS := tx.vtS.setModulusBase tx.vtA
    vtMs := tx.vtMs.setModulusBase tx.vtA }

/-- The control part of `DoReceivePdu`. -/
def receiveStatus (tx : AmTransmitter) (rlcAmHeader : LteRlcAmHeader) : Option AmTransmitter :=
  let tx := tx.withVtABases
  acknowledge rlcAmHeader 1024 tx.vtA
    ((SequenceNumber10.ofValue rlcAmHeader.ackSn).setModulusBase tx.vtA) true tx

/-- `DoReceivePdu`; a data unit is for the receiving side. -/
def doReceivePdu (tx : AmTransmitter) (packet : List UInt8) : Option AmTransmitter :=
  (LteRlcAmHeader.deserialize packet).bind fun rlcAmHeader =>
    if rlcAmHeader.dataControlBit = LteRlcAmHeader.DATA_PDU then some tx
    else tx.receiveStatus rlcAmHeader

/-! ## t-PollRetransmit -/

/-- The loop that considers all transmitted units for retransmission. -/
def moveToRetx (tx : AmTransmitter) : Nat → SequenceNumber10 → AmTransmitter
  | 0, _ => tx
  | fuel + 1, sn =>
      if sn.Lt tx.vtS then
        match tx.txedBuffer sn.value with
        | some stored => moveToRetx (tx.toRetx sn.value stored) fuel sn.next
        | none => moveToRetx tx fuel sn.next
      else tx

/-- `ExpirePollRetransmitTimer`, while the timer is running. -/
def expirePollRetransmitTimer (tx : AmTransmitter) : Option AmTransmitter :=
  if tx.pollRetransmitTimer ∧ tx.vtS.Le tx.vtMs then
    let tx := { tx with pollRetransmitTimer := false, pollRetransmitTimerJustExpired := true }
    some (if (tx.txonBufferSize = 0 ∧ tx.retxBufferSize = 0) ∨ tx.vtS.value = tx.vtMs.value then
        tx.moveToRetx 1024 tx.vtA
      else tx)
  else none

/-! ## Runs -/

/-- A transmitting side with its two attributes. -/
def created (maxTxBufferSize : UInt32) (txOpportunityForRetxAlwaysBigEnough : Bool) :
    AmTransmitter :=
  { maxTxBufferSize := maxTxBufferSize
    txOpportunityForRetxAlwaysBigEnough := txOpportunityForRetxAlwaysBigEnough }

inductive TxEvent
  | pdcpPdu (sdu : List UInt8)
  | opportunity (bytes : Nat)
  | pdu (packet : List UInt8)
  | pollRetransmitExpires

def step (tx : AmTransmitter) : TxEvent → Option AmTransmitter
  | .pdcpPdu sdu => some (tx.doTransmitPdcpPdu sdu)
  | .opportunity bytes => (tx.doNotifyTxOpportunity bytes).map Prod.fst
  | .pdu packet => tx.doReceivePdu packet
  | .pollRetransmitExpires => tx.expirePollRetransmitTimer

end AmTransmitter

end DeepcV2x.Rlc
