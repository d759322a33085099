import DeepcV2x.Foundation.Runs
import DeepcV2x.Rlc.AmHeaderRoundTrip
import DeepcV2x.Rlc.SequenceNumber

/-!
# The receiving side of acknowledged mode

`LteRlcAm` keeps the received units from VR(R) on, hands them to the reassembly
in order, and answers polls with STATUS units: the numbers up to VR(MS) that are
missing, as many as an opportunity has room for, and the first number that is
neither received nor reported.
-/

namespace DeepcV2x.Rlc

open Foundation.Runs

/-- A unit of the reception buffer. -/
structure PduBuffer where
  byteSegments : List (List UInt8) := []
  pduComplete : Bool := false
  deriving DecidableEq, Repr

/-- The members of the receiving side. -/
structure AmReceiver where
  windowSize : Nat := 512
  rxonBuffer : Nat → Option PduBuffer := fun _ => none
  vrR : SequenceNumber10 := ⟨0, 0⟩
  vrMr : SequenceNumber10 := ⟨512, 0⟩
  vrX : SequenceNumber10 := ⟨0, 0⟩
  vrMs : SequenceNumber10 := ⟨0, 0⟩
  vrH : SequenceNumber10 := ⟨0, 0⟩
  reorderingTimer : Bool := false
  statusPduRequested : Bool := false
  statusPduBufferSize : Nat := 0
  statusProhibitTimer : Bool := false

namespace AmReceiver

/-- A unit with this number is in the buffer, with all its segments. -/
def complete (rx : AmReceiver) (key : Nat) : Bool := (rx.rxonBuffer key).any PduBuffer.pduComplete

/-! ## Reception -/

/-- The bases `IsInsideReceivingWindow` sets. -/
def withWindowBases (rx : AmReceiver) : AmReceiver :=
  { rx with vrR := rx.vrR.setModulusBase rx.vrR, vrMr := rx.vrMr.setModulusBase rx.vrR }

/-- What `IsInsideReceivingWindow` returns. -/
def InsideWindow (rx : AmReceiver) (seqNumber : SequenceNumber10) : Prop :=
  rx.withWindowBases.vrR.Le (seqNumber.setModulusBase rx.vrR) ∧
    (seqNumber.setModulusBase rx.vrR).Lt rx.withWindowBases.vrMr

instance (rx : AmReceiver) (seqNumber : SequenceNumber10) : Decidable (rx.InsideWindow seqNumber) :=
  inferInstanceAs (Decidable (_ ∧ _))

/-- A unit that is not in the buffer is put there. -/
def place (rx : AmReceiver) (key : Nat) (packet : List UInt8) : AmReceiver :=
  if (rx.rxonBuffer key).isSome then rx
  else { rx with rxonBuffer := Function.update rx.rxonBuffer key (some ⟨[packet], true⟩) }

/-- A loop over the units that are complete, which ends within a turn of the numbers. -/
def firstIncomplete (complete : Nat → Bool) : Nat → SequenceNumber10 → SequenceNumber10
  | 0, sn => sn
  | fuel + 1, sn => if complete sn.value then firstIncomplete complete fuel sn.next else sn

/-- VR(H) is above the received number. -/
def moveVrH (rx : AmReceiver) (seqNumber : SequenceNumber10) : AmReceiver :=
  if seqNumber.Gt rx.vrH ∨ seqNumber.value = rx.vrH.value then { rx with vrH := seqNumber.add 1 }
  else rx

/-- VR(MS) moves over complete units. -/
def moveVrMs (rx : AmReceiver) : AmReceiver :=
  { rx with vrMs := firstIncomplete rx.complete 1024 rx.vrMs }

/-- The loop that moves VR(R) over complete units, and the packets it reassembles. -/
def deliver (rx : AmReceiver) : Nat → AmReceiver × List (List UInt8)
  | 0 => (rx, [])
  | fuel + 1 =>
      match rx.rxonBuffer rx.vrR.value with
      | none => (rx, [])
      | some pdu =>
          if pdu.pduComplete then
            let vrR := rx.vrR.next.setModulusBase rx.vrR.next
            let result := deliver
              { rx with
                rxonBuffer := Function.update rx.rxonBuffer rx.vrR.value none
                vrR := vrR
                vrX := rx.vrX.setModulusBase vrR
                vrMs := rx.vrMs.setModulusBase vrR
                vrH := rx.vrH.setModulusBase vrR } fuel
            (result.1, pdu.byteSegments.headD [] :: result.2)
          else (rx, [])

/-- VR(R) and VR(MR) move when the unit at VR(R) was received. -/
def moveVrR (rx : AmReceiver) (seqNumber : SequenceNumber10) : AmReceiver × List (List UInt8) :=
  if seqNumber.value = rx.vrR.value ∧ rx.complete seqNumber.value then
    let result := rx.deliver 1024
    ({ result.1 with vrMr := result.1.vrR.add result.1.windowSize }, result.2)
  else (rx, [])

/-- t-Reordering is stopped and started. -/
def moveTimer (rx : AmReceiver) : AmReceiver :=
  let running := rx.reorderingTimer && !decide (rx.vrX.value = rx.vrR.value ∨
    ¬ rx.InsideWindow rx.vrX ∧ rx.vrX.value ≠ rx.vrMr.value)
  if running = false ∧ rx.vrH.Gt rx.vrR then { rx with reorderingTimer := true, vrX := rx.vrH }
  else { rx with reorderingTimer := running }

/-- A poll requests a STATUS unit. -/
def poll (rx : AmReceiver) (pollingBit : Nat) : AmReceiver :=
  if pollingBit = LteRlcAmHeader.STATUS_REPORT_IS_REQUESTED then
    { rx with statusPduRequested := true, statusPduBufferSize := 4 }
  else rx

/-- The data part of `DoReceivePdu`, and the packets handed to `ReassembleAndDeliver`. -/
def receive (rx : AmReceiver) (pollingBit : Nat) (seqNumber : SequenceNumber10)
    (packet : List UInt8) : AmReceiver × List (List UInt8) :=
  let seqNumber := seqNumber.setModulusBase rx.vrR
  let rx := rx.poll pollingBit
  if rx.InsideWindow seqNumber then
    let result :=
      (((rx.withWindowBases.place seqNumber.value packet).moveVrH seqNumber).moveVrMs).moveVrR
        seqNumber
    (result.1.moveTimer, result.2)
  else (rx.withWindowBases, [])

/-- `DoReceivePdu`; a control unit is for the transmitting side. -/
def doReceivePdu (rx : AmReceiver) (packet : List UInt8) :
    Option (AmReceiver × List (List UInt8)) :=
  (LteRlcAmHeader.deserialize packet).map fun rlcAmHeader =>
    if rlcAmHeader.dataControlBit = LteRlcAmHeader.DATA_PDU then
      rx.receive rlcAmHeader.pollingBit ⟨rlcAmHeader.sequenceNumber, 0⟩ packet
    else (rx, [])

/-- `ExpireReorderingTimer`, while the timer is running. -/
def expireReorderingTimer (rx : AmReceiver) : Option AmReceiver :=
  if rx.reorderingTimer then
    let vrMs := firstIncomplete rx.complete 1024 rx.vrX
    some (if rx.vrH.Gt vrMs then
        { rx with vrMs := vrMs, reorderingTimer := true, vrX := rx.vrH, statusPduRequested := true }
      else { rx with vrMs := vrMs, reorderingTimer := false, statusPduRequested := true })
  else none

/-! ## STATUS units -/

/-- The loop over the numbers to report, and the number at its end. -/
def pushMissing (rx : AmReceiver) (bytes : Nat) :
    Nat → SequenceNumber10 → LteRlcAmHeader → SequenceNumber10 × LteRlcAmHeader
  | 0, sn, rlcAmHeader => (sn, rlcAmHeader)
  | fuel + 1, sn, rlcAmHeader =>
      if sn.Lt rx.vrMs ∧ rlcAmHeader.oneMoreNackWouldFitIn bytes = true then
        pushMissing rx bytes fuel sn.next
          (if rx.complete sn.value then rlcAmHeader else rlcAmHeader.pushNack sn.value)
      else (sn, rlcAmHeader)

/-- The loop that looks for the number to acknowledge. -/
def findAckSn (rx : AmReceiver) : Nat → SequenceNumber10 → SequenceNumber10
  | 0, sn => sn
  | fuel + 1, sn =>
      if sn.Lt rx.vrMs ∧ rx.complete sn.value = true then findAckSn rx fuel sn.next else sn

/-- The header of the STATUS unit for an opportunity; the number to acknowledge is asserted to be at
most VR(MS). -/
def statusPdu (rx : AmReceiver) (bytes : Nat) : Option LteRlcAmHeader :=
  let pushed := rx.pushMissing bytes 1024 rx.vrR
    (LteRlcAmHeader.setControlPdu {} LteRlcAmHeader.STATUS_PDU)
  let sn := rx.findAckSn 1024 pushed.1
  if sn.Le rx.vrMs then some (pushed.2.setAckSn sn.value) else none

/-- `DoNotifyTxOpportunity`, as far as the receiving side goes. -/
def doNotifyTxOpportunity (rx : AmReceiver) (bytes : Nat) :
    Option (AmReceiver × Option LteRlcAmHeader) :=
  if bytes < 4 then some (rx, none)
  else if rx.statusPduRequested = true ∧ rx.statusProhibitTimer = false then
    if bytes < rx.statusPduBufferSize then some (rx, none)
    else
      (rx.statusPdu bytes).map fun rlcAmHeader =>
        ({ rx with
           statusPduRequested := false
           statusPduBufferSize := 0
           statusProhibitTimer := true }, some rlcAmHeader)
  else some (rx, none)

/-! ## Runs -/

inductive RxEvent
  | pdu (packet : List UInt8)
  | reorderingExpires
  | prohibitExpires
  | opportunity (bytes : Nat)

/-- A receiver with its unwrapped VR(R) and the unwrapped numbers of the units it received inside the
window. -/
structure Receiving where
  rx : AmReceiver := {}
  lowest : Nat := 0
  received : List Nat := []

/-- The unwrapped number of a received unit. -/
def Receiving.arriving (receiving : Receiving) (packet : List UInt8) : Option Nat :=
  (LteRlcAmHeader.deserialize packet).bind fun rlcAmHeader =>
    if rlcAmHeader.dataControlBit = LteRlcAmHeader.DATA_PDU ∧
        receiving.rx.InsideWindow ⟨rlcAmHeader.sequenceNumber, 0⟩ then
      some (receiving.lowest +
        (rlcAmHeader.sequenceNumber + 1024 - receiving.rx.vrR.value) % 1024)
    else none

def Receiving.step (receiving : Receiving) : RxEvent → Option Receiving
  | .pdu packet =>
      (receiving.rx.doReceivePdu packet).map fun result =>
        { rx := result.1
          lowest := receiving.lowest + (result.1.vrR.value + 1024 - receiving.rx.vrR.value) % 1024
          received := receiving.received ++ (receiving.arriving packet).toList }
  | .reorderingExpires =>
      receiving.rx.expireReorderingTimer.map fun rx => { receiving with rx := rx }
  | .prohibitExpires =>
      if receiving.rx.statusProhibitTimer then
        some { receiving with rx := { receiving.rx with statusProhibitTimer := false } }
      else none
  | .opportunity bytes =>
      (receiving.rx.doNotifyTxOpportunity bytes).map fun result =>
        { receiving with rx := result.1 }

end AmReceiver

end DeepcV2x.Rlc
