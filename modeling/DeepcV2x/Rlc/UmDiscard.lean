import DeepcV2x.Rlc.UmTransmit

/-!
# Discarding service data units

`DoTransmitPdcpPdu` drops a unit that does not fit in the buffer, or that comes
while the first unit of the buffer waits for longer than a limit.  The buffer
holds the time since which each unit waits; without the times the entity is the
transmitting side of unacknowledged mode.
-/

namespace DeepcV2x.Rlc

/-- A packet of the buffer and the time since which it waits, in nanoseconds. -/
structure WaitingPdu where
  pdu : TxPdu
  waitingSince : Int
  deriving DecidableEq, Repr

structure TimedTransmitter where
  maxTxBufferSize : UInt32 := 10 * 1024
  txBufferSize : UInt32 := 0
  txBuffer : List WaitingPdu := []
  sequenceNumber : SequenceNumber10 := ⟨0, 0⟩
  enablePdcpDiscarding : Bool := true
  discardTimerMs : UInt32 := 0
  packetDelayBudgetMs : UInt16
  deriving DecidableEq, Repr

namespace TimedTransmitter

open UmTransmitter (cutStatus wholeStatus framingInfoOf Building fillDataField)

/-! ## Service data units -/

/-- The buffer takes a packet. -/
def Accepts (tx : TimedTransmitter) (p : List UInt8) : Prop :=
  tx.txBufferSize + UmTransmitter.sizeOf p ≤ tx.maxTxBufferSize

instance (tx : TimedTransmitter) (p : List UInt8) : Decidable (tx.Accepts p) :=
  inferInstanceAs (Decidable (_ ≤ _))

/-- The limit in use. -/
def discardLimit (tx : TimedTransmitter) : UInt32 :=
  if 0 < tx.discardTimerMs then tx.discardTimerMs else tx.packetDelayBudgetMs.toUInt32

/-- The head of line delay, in milliseconds, as an unsigned number of 32 bits. -/
def headOfLineDelayInMs (tx : TimedTransmitter) (now : Int) : UInt32 :=
  match tx.txBuffer with
  | [] => 0
  | first :: _ => UInt32.ofNat (((now - first.waitingSince).tdiv 1000000).emod 4294967296).toNat

/-- The head of line delay is above the limit. -/
def Overdue (tx : TimedTransmitter) (now : Int) : Prop :=
  tx.enablePdcpDiscarding = true ∧ tx.discardLimit < tx.headOfLineDelayInMs now

instance (tx : TimedTransmitter) (now : Int) : Decidable (tx.Overdue now) :=
  inferInstanceAs (Decidable (_ ∧ _))

/-- `DoTransmitPdcpPdu`, and the packets reported on the `TxDrop` trace. -/
def doTransmitPdcpPdu (tx : TimedTransmitter) (now : Int) (p : List UInt8) :
    TimedTransmitter × List (List UInt8) :=
  if tx.Accepts p then
    ({ tx with
       txBuffer := tx.txBuffer ++ [⟨⟨p, .fullSdu⟩, now⟩]
       txBufferSize := tx.txBufferSize + UmTransmitter.sizeOf p },
      if tx.Overdue now then [p] else [])
  else (tx, [p])

/-! ## Transmission opportunities -/

/-- The data field under construction, and the buffer. -/
structure TimedBuilding where
  dataField : List TxPdu
  rlcHeader : LteRlcHeader
  txBuffer : List WaitingPdu
  txBufferSize : UInt32

/-- The loop of `DoNotifyTxOpportunity`; what is left of a packet waits since the same time. -/
def fillDataField (firstSegment : TxPdu) (firstSegmentTime : Int) (txBuffer : List WaitingPdu)
    (nextSegmentSize nextSegmentId : Nat) (dataField : List TxPdu) (rlcHeader : LteRlcHeader)
    (txBufferSize : UInt32) : TimedBuilding :=
  let size := firstSegment.pdu.length
  if size = 0 ∨ nextSegmentSize = 0 then ⟨dataField, rlcHeader, txBuffer, txBufferSize⟩
  else if nextSegmentSize < size ∨ 2047 < size then
    let currSegmentSize := min size nextSegmentSize
    let rest := firstSegment.pdu.drop currSegmentSize
    let taken := firstSegment.pdu.take currSegmentSize
    let rlcHeader := rlcHeader.pushExtensionBit LteRlcHeader.DATA_FIELD_FOLLOWS
    if 0 < rest.length then
      ⟨dataField ++ [⟨taken, (cutStatus firstSegment.status).1⟩], rlcHeader,
        ⟨⟨rest, (cutStatus firstSegment.status).2⟩, firstSegmentTime⟩ :: txBuffer,
        txBufferSize + UmTransmitter.sizeOf rest⟩
    else
      ⟨dataField ++ [⟨taken, wholeStatus (cutStatus firstSegment.status).1⟩], rlcHeader, txBuffer,
        txBufferSize⟩
  else
    match txBuffer with
    | [] =>
        ⟨dataField ++ [firstSegment], rlcHeader.pushExtensionBit LteRlcHeader.DATA_FIELD_FOLLOWS,
          [], txBufferSize⟩
    | next :: txBuffer =>
        if nextSegmentSize - size ≤ 2 then
          ⟨dataField ++ [firstSegment], rlcHeader.pushExtensionBit LteRlcHeader.DATA_FIELD_FOLLOWS,
            next :: txBuffer, txBufferSize⟩
        else
          fillDataField next.pdu next.waitingSince txBuffer
            (nextSegmentSize - ((if nextSegmentId % 2 = 1 then 2 else 1) + size)) (nextSegmentId + 1)
            (dataField ++ [firstSegment])
            ((rlcHeader.pushExtensionBit LteRlcHeader.E_LI_FIELDS_FOLLOWS).pushLengthIndicator size)
            (txBufferSize - UmTransmitter.sizeOf next.pdu.pdu)

/-- `DoNotifyTxOpportunity`. -/
def doNotifyTxOpportunity (tx : TimedTransmitter) (bytes : Nat) :
    Option (TimedTransmitter × Option RlcPdu) :=
  if bytes ≤ 2 then some (tx, none)
  else
    match tx.txBuffer with
    | [] => some (tx, none)
    | firstSegment :: txBuffer =>
        let building := fillDataField firstSegment.pdu firstSegment.waitingSince txBuffer
          (bytes - 2) 1 [] {} (tx.txBufferSize - UmTransmitter.sizeOf firstSegment.pdu.pdu)
        match building.dataField.head?, building.dataField.getLast? with
        | some first, some last =>
            some ({ tx with
                    txBuffer := building.txBuffer
                    txBufferSize := building.txBufferSize
                    sequenceNumber := tx.sequenceNumber.next },
              some
                { rlcHeader :=
                    (building.rlcHeader.setSequenceNumber tx.sequenceNumber.value).setFramingInfo
                      (framingInfoOf first.status last.status)
                  packet := (building.dataField.map TxPdu.pdu).flatten })
        | _, _ => none

/-! ## Runs -/

inductive TimedEvent
  | pdcpPdu (now : Int) (sdu : List UInt8)
  | opportunity (bytes : Nat)

/-- An event, and the unit it sends. -/
def step (tx : TimedTransmitter) : TimedEvent → Option (TimedTransmitter × Option RlcPdu)
  | .pdcpPdu now sdu => some ((tx.doTransmitPdcpPdu now sdu).1, none)
  | .opportunity bytes => tx.doNotifyTxOpportunity bytes

/-- What a run sends. -/
def run : TimedTransmitter → List TimedEvent → Option (List RlcPdu)
  | _, [] => some []
  | tx, event :: events =>
      (tx.step event).bind fun result =>
        (run result.1 events).map fun sent => result.2.toList ++ sent

/-! ## Without the times -/

/-- The transmitting side without times. -/
def untimed (tx : TimedTransmitter) : UmTransmitter where
  maxTxBufferSize := tx.maxTxBufferSize
  txBufferSize := tx.txBufferSize
  txBuffer := tx.txBuffer.map WaitingPdu.pdu
  sequenceNumber := tx.sequenceNumber

/-- Dropped or not for its delay, a unit is stored when it fits. -/
theorem doTransmitPdcpPdu_untimed (tx : TimedTransmitter) (now : Int) (p : List UInt8) :
    (tx.doTransmitPdcpPdu now p).1.untimed = tx.untimed.doTransmitPdcpPdu p := by
  rw [doTransmitPdcpPdu, UmTransmitter.doTransmitPdcpPdu]
  by_cases haccepts : tx.Accepts p
  · rw [if_pos haccepts, if_pos (show tx.untimed.Accepts p from haccepts)]
    simp only [untimed, List.map_append, List.map_cons, List.map_nil]
  · rw [if_neg haccepts, if_neg (show ¬ tx.untimed.Accepts p from haccepts)]

def TimedBuilding.untimed (building : TimedBuilding) : Building :=
  ⟨building.dataField, building.rlcHeader, building.txBuffer.map WaitingPdu.pdu,
    building.txBufferSize⟩

theorem fillDataField_untimed (txBuffer : List WaitingPdu) : ∀ (firstSegment : TxPdu)
    (firstSegmentTime : Int) (nextSegmentSize nextSegmentId : Nat) (dataField : List TxPdu)
    (rlcHeader : LteRlcHeader) (txBufferSize : UInt32),
    (fillDataField firstSegment firstSegmentTime txBuffer nextSegmentSize nextSegmentId dataField
      rlcHeader txBufferSize).untimed =
      UmTransmitter.fillDataField firstSegment (txBuffer.map WaitingPdu.pdu) nextSegmentSize
        nextSegmentId dataField rlcHeader txBufferSize := by
  induction txBuffer with
  | nil =>
      intro firstSegment firstSegmentTime nextSegmentSize nextSegmentId dataField rlcHeader
        txBufferSize
      simp only [fillDataField, UmTransmitter.fillDataField, List.map_nil]
      split
      next => rfl
      next =>
        split
        next => split <;> rfl
        next => rfl
  | cons next txBuffer ih =>
      intro firstSegment firstSegmentTime nextSegmentSize nextSegmentId dataField rlcHeader
        txBufferSize
      simp only [fillDataField, UmTransmitter.fillDataField, List.map_cons]
      split
      next => rfl
      next =>
        split
        next => split <;> rfl
        next =>
          split
          next => rfl
          next => exact ih _ _ _ _ _ _ _

/-- Opportunities do not look at the times. -/
theorem doNotifyTxOpportunity_untimed (tx : TimedTransmitter) (bytes : Nat) :
    (tx.doNotifyTxOpportunity bytes).map (fun result => (result.1.untimed, result.2)) =
      tx.untimed.doNotifyTxOpportunity bytes := by
  rw [doNotifyTxOpportunity, UmTransmitter.doNotifyTxOpportunity]
  by_cases hsmall : bytes ≤ 2
  · rw [if_pos hsmall, if_pos hsmall, Option.map_some]
  · rw [if_neg hsmall, if_neg hsmall]
    obtain ⟨maxTxBufferSize, txBufferSize, txBuffer, sequenceNumber, _, _, _⟩ := tx
    cases txBuffer with
    | nil => rfl
    | cons first txBuffer =>
        have hfill := fillDataField_untimed txBuffer first.pdu first.waitingSince (bytes - 2) 1 [] {}
          (txBufferSize - UmTransmitter.sizeOf first.pdu.pdu)
        simp only [untimed, List.map_cons, ← hfill, TimedBuilding.untimed]
        generalize fillDataField first.pdu first.waitingSince txBuffer (bytes - 2) 1 [] {}
          (txBufferSize - UmTransmitter.sizeOf first.pdu.pdu) = building
        cases building.dataField.head? with
        | none => rfl
        | some firstSegment =>
            cases building.dataField.getLast? with
            | none => rfl
            | some lastSegment => rfl

/-! ## Dropping -/

/-- A packet is reported as dropped, the entity stays as it is, and whatever happens later sends the
same as without the packet. -/
structure Dropped (tx : TimedTransmitter) (now : Int) (p : List UInt8) : Prop where
  reported : (tx.doTransmitPdcpPdu now p).2 = [p]
  unchanged : (tx.doTransmitPdcpPdu now p).1 = tx
  unsent : ∀ events, (tx.doTransmitPdcpPdu now p).1.run events = tx.run events

/-- A packet is appended to the buffer and not reported. -/
structure Appended (tx : TimedTransmitter) (now : Int) (p : List UInt8) : Prop where
  unreported : (tx.doTransmitPdcpPdu now p).2 = []
  txBuffer : (tx.doTransmitPdcpPdu now p).1.txBuffer = tx.txBuffer ++ [⟨⟨p, .fullSdu⟩, now⟩]

/-- A packet is either dropped or appended exactly when it does not fit, or discarding is disabled or
the first packet of the buffer does not wait for too long. -/
theorem dropped_or_appended_iff (tx : TimedTransmitter) (now : Int) (p : List UInt8) :
    (tx.Dropped now p ∨ tx.Appended now p) ↔ (tx.Accepts p → ¬ tx.Overdue now) := by
  have hlength : tx.txBuffer ++ [⟨⟨p, .fullSdu⟩, now⟩] ≠ tx.txBuffer := by
    intro hsame
    have := congrArg List.length hsame
    rw [List.length_append, List.length_singleton] at this
    omega
  by_cases haccepts : tx.Accepts p
  · have hresult : tx.doTransmitPdcpPdu now p = ({ tx with
        txBuffer := tx.txBuffer ++ [⟨⟨p, .fullSdu⟩, now⟩]
        txBufferSize := tx.txBufferSize + UmTransmitter.sizeOf p }, if tx.Overdue now then [p] else []) := by
      rw [doTransmitPdcpPdu, if_pos haccepts]
    constructor
    · rintro (dropped | appended) _ hoverdue
      · have hsame := congrArg TimedTransmitter.txBuffer dropped.unchanged
        rw [hresult] at hsame
        exact hlength hsame
      · have hunreported := appended.unreported
        rw [hresult] at hunreported
        rw [if_pos hoverdue] at hunreported
        exact List.cons_ne_nil _ _ hunreported
    · intro hwaits
      refine .inr ⟨?_, by rw [hresult]⟩
      rw [hresult]
      exact if_neg (hwaits haccepts)
  · have hresult : tx.doTransmitPdcpPdu now p = (tx, [p]) := by
      rw [doTransmitPdcpPdu, if_neg haccepts]
    refine ⟨fun _ h => absurd h haccepts, fun _ => .inl ⟨?_, ?_, fun events => ?_⟩⟩
    · rw [hresult]
    · rw [hresult]
    · rw [hresult]

/-- A packet of two bytes waits from the start on, with a limit of 10 ms. -/
def delayed : TimedTransmitter where
  txBufferSize := 2
  txBuffer := [⟨⟨[1, 2], .fullSdu⟩, 0⟩]
  discardTimerMs := 10
  packetDelayBudgetMs := 100

/-- The first packet waits for 20 ms, twice the limit: the next one is reported as dropped, and sent
in the next opportunity. -/
theorem dropped_sent :
    ∃ tx : TimedTransmitter, tx.doTransmitPdcpPdu 20000000 [9] =
        ({ tx with
           txBuffer := [⟨⟨[1, 2], .fullSdu⟩, 0⟩, ⟨⟨[9], .fullSdu⟩, 20000000⟩]
           txBufferSize := 3 }, [[9]]) ∧
      ((tx.doTransmitPdcpPdu 20000000 [9]).1.run [.opportunity 100]).map
        (List.map RlcPdu.packet) = some [[1, 2, 9]] ∧
      ¬ (tx.Dropped 20000000 [9] ∨ tx.Appended 20000000 [9]) := by
  refine ⟨delayed, by decide +kernel, by decide +kernel, ?_⟩
  rintro (dropped | appended)
  · have hsame := congrArg TimedTransmitter.txBufferSize dropped.unchanged
    exact absurd hsame (by decide +kernel)
  · exact absurd appended.unreported (by decide +kernel)

end TimedTransmitter

end DeepcV2x.Rlc
