import DeepcV2x.Rlc.UmTransmit

/-!
# The receiving side of unacknowledged mode

Received units wait in a buffer until those before them are received, the
reordering timer expires or the window moves past them; then they are taken
apart and their segments put together again.
-/

namespace DeepcV2x.Rlc

inductive ReassemblingState
  | waitingS0Full
  | waitingSiSf
  deriving DecidableEq, Repr

/-- The members of the receiving side. -/
structure UmReceiver where
  windowSize : Nat := 512
  vrUr : SequenceNumber10 := ⟨0, 0⟩
  vrUx : SequenceNumber10 := ⟨0, 0⟩
  vrUh : SequenceNumber10 := ⟨0, 0⟩
  rxBuffer : Nat → Option (List UInt8) := fun _ => none
  reorderingTimer : Bool := false
  expectedSeqNumber : SequenceNumber10 := ⟨0, 0⟩
  reassemblingState : ReassemblingState := .waitingS0Full
  keepS0 : Option (List UInt8) := none
  sdusBuffer : List (List UInt8) := []
  firstPduRxed : Bool := false

namespace UmReceiver

open LteRlcHeader (FIRST_BYTE NO_FIRST_BYTE LAST_BYTE NO_LAST_BYTE DATA_FIELD_FOLLOWS)

/-! ## Reassembly -/

/-- The loop that cuts a packet at its length indicators. -/
def buildSdus : List Nat → List Nat → List UInt8 → Option (List (List UInt8))
  | [], _, _ => none
  | extensionBit :: extensionBits, lengthIndicators, packet =>
      if extensionBit = DATA_FIELD_FOLLOWS then some [packet]
      else
        match lengthIndicators with
        | [] => none
        | lengthIndicator :: lengthIndicators =>
            if lengthIndicator ≤ packet.length then
              (buildSdus extensionBits lengthIndicators (packet.drop lengthIndicator)).map fun sdus =>
                packet.take lengthIndicator :: sdus
            else none

/-- The transitions that do not continue a kept segment. -/
def fromS0 (rx : UmReceiver) (framingInfo : Nat) : Option (UmReceiver × List (List UInt8)) :=
  if framingInfo = (FIRST_BYTE ||| LAST_BYTE) then
    some ({ rx with reassemblingState := .waitingS0Full, sdusBuffer := [] }, rx.sdusBuffer)
  else if framingInfo = (FIRST_BYTE ||| NO_LAST_BYTE) then
    rx.sdusBuffer.getLast?.map fun s0 =>
      ({ rx with reassemblingState := .waitingSiSf, keepS0 := some s0, sdusBuffer := [] },
        rx.sdusBuffer.dropLast)
  else if framingInfo = (NO_FIRST_BYTE ||| LAST_BYTE) then
    match rx.sdusBuffer with
    | [] => none
    | _ :: sdus => some ({ rx with reassemblingState := .waitingS0Full, sdusBuffer := [] }, sdus)
  else if framingInfo = (NO_FIRST_BYTE ||| NO_LAST_BYTE) then
    match rx.sdusBuffer with
    | [] => none
    | [_] => some ({ rx with reassemblingState := .waitingS0Full, sdusBuffer := [] }, [])
    | _ :: sdu :: sdus =>
        some ({ rx with
            reassemblingState := .waitingSiSf
            keepS0 := (sdu :: sdus).getLast?
            sdusBuffer := [] }, (sdu :: sdus).dropLast)
  else some (rx, [])

/-- The transitions that continue the kept segment; the others are not possible. -/
def fromSi (rx : UmReceiver) (framingInfo : Nat) : Option (UmReceiver × List (List UInt8)) :=
  if framingInfo = (NO_FIRST_BYTE ||| LAST_BYTE) then
    match rx.keepS0, rx.sdusBuffer with
    | some s0, sn :: sdus =>
        some ({ rx with
            reassemblingState := .waitingS0Full
            keepS0 := some (s0 ++ sn)
            sdusBuffer := [] }, (s0 ++ sn) :: sdus)
    | _, _ => none
  else if framingInfo = (NO_FIRST_BYTE ||| NO_LAST_BYTE) then
    match rx.keepS0, rx.sdusBuffer with
    | some s0, [si] =>
        some ({ rx with
            reassemblingState := .waitingSiSf
            keepS0 := some (s0 ++ si)
            sdusBuffer := [] }, [])
    | some s0, sn :: sdu :: sdus =>
        some ({ rx with
            reassemblingState := .waitingSiSf
            keepS0 := (sdu :: sdus).getLast?
            sdusBuffer := [] }, (s0 ++ sn) :: (sdu :: sdus).dropLast)
    | _, _ => none
  else some (rx, [])

/-- `ReassembleAndDeliver`, and what it delivers. -/
def reassembleAndDeliver (rx : UmReceiver) (packet : List UInt8) :
    Option (UmReceiver × List (List UInt8)) :=
  match LteRlcHeader.removeHeader packet with
  | none => none
  | some (rlcHeader, packet) =>
      match buildSdus rlcHeader.extensionBits rlcHeader.lengthIndicators packet with
      | none => none
      | some sdus =>
          let currSeqNumber : SequenceNumber10 := ⟨rlcHeader.sequenceNumber, 0⟩
          let expectedSnLost := decide (currSeqNumber.value ≠ rx.expectedSeqNumber.value)
          let rx := { rx with
            expectedSeqNumber :=
              if expectedSnLost then currSeqNumber.add 1 else rx.expectedSeqNumber.next
            sdusBuffer := rx.sdusBuffer ++ sdus }
          match rx.reassemblingState, expectedSnLost with
          | .waitingS0Full, _ => rx.fromS0 rlcHeader.framingInfo
          | .waitingSiSf, true => { rx with keepS0 := none }.fromS0 rlcHeader.framingInfo
          | .waitingSiSf, false => rx.fromSi rlcHeader.framingInfo

/-! ## The window -/

/-- The base `IsInsideReorderingWindow` gives to VR(UH). -/
def withWindowBase (rx : UmReceiver) : UmReceiver :=
  { rx with vrUh := rx.vrUh.setModulusBase (rx.vrUh.sub rx.windowSize) }

/-- What `IsInsideReorderingWindow` returns. -/
def InsideWindow (rx : UmReceiver) (seqNumber : SequenceNumber10) : Prop :=
  let vrUh := rx.withWindowBase.vrUh
  let seqNumber := seqNumber.setModulusBase (vrUh.sub rx.windowSize)
  (vrUh.sub rx.windowSize).Le seqNumber ∧ seqNumber.Lt vrUh

instance (rx : UmReceiver) (seqNumber : SequenceNumber10) : Decidable (rx.InsideWindow seqNumber) :=
  inferInstanceAs (Decidable (_ ∧ _))

/-- Take a unit out of the reception buffer and reassemble it. -/
def takeOut (rx : UmReceiver) (key : Nat) : Option (UmReceiver × List (List UInt8)) :=
  match rx.rxBuffer key with
  | none => some (rx, [])
  | some packet =>
      (rx.reassembleAndDeliver packet).map fun result =>
        ({ result.1 with rxBuffer := Function.update result.1.rxBuffer key none }, result.2)

/-- Take out several units, one after the other. -/
def takeOutAll (rx : UmReceiver) : List Nat → Option (UmReceiver × List (List UInt8))
  | [] => some (rx, [])
  | key :: keys =>
      match rx.takeOut key with
      | none => none
      | some (next, delivered) =>
          (takeOutAll next keys).map fun result => (result.1, delivered ++ result.2)

/-- The keys in the order of the map, up to the first one inside the window. -/
def keysOutside (rx : UmReceiver) : List Nat :=
  ((List.range 1024).filter fun key => (rx.rxBuffer key).isSome).takeWhile fun key =>
    ¬ rx.InsideWindow (.ofValue key)

/-- `ReassembleOutsideWindow`. -/
def reassembleOutsideWindow (rx : UmReceiver) : Option (UmReceiver × List (List UInt8)) :=
  rx.withWindowBase.takeOutAll rx.withWindowBase.keysOutside

/-- The loop of `ReassembleSnInterval`, which ends within a turn of the numbers. -/
def reassembleSnInterval (rx : UmReceiver) :
    Nat → SequenceNumber10 → SequenceNumber10 → Option (UmReceiver × List (List UInt8))
  | 0, _, _ => some (rx, [])
  | fuel + 1, reassembleSn, highSeqNumber =>
      if reassembleSn.Lt highSeqNumber then
        match rx.takeOut reassembleSn.value with
        | none => none
        | some (next, delivered) =>
            (reassembleSnInterval next fuel reassembleSn.next highSeqNumber).map fun result =>
              (result.1, delivered ++ result.2)
      else some (rx, [])

/-- The first number from one on that is no key; the keys are below 1024. -/
def firstMissing (rxBuffer : Nat → Option (List UInt8)) : Nat → Nat → Nat
  | 0, newVrUr => newVrUr
  | fuel + 1, newVrUr =>
      if (rxBuffer newVrUr).isSome then firstMissing rxBuffer fuel (newVrUr + 1) else newVrUr

/-- The same for sequence numbers. -/
def firstMissingSn (rxBuffer : Nat → Option (List UInt8)) :
    Nat → SequenceNumber10 → SequenceNumber10
  | 0, newVrUr => newVrUr
  | fuel + 1, newVrUr =>
      if (rxBuffer newVrUr.value).isSome then firstMissingSn rxBuffer fuel newVrUr.next else newVrUr

/-! ## Reception -/

/-- A unit outside the window moves it. -/
def moveWindow (rx : UmReceiver) (seqNumber : SequenceNumber10) :
    Option (UmReceiver × List (List UInt8)) :=
  if rx.InsideWindow seqNumber then some (rx.withWindowBase, [])
  else
    let advanced : UmReceiver := { rx with vrUh := seqNumber.add 1 }
    advanced.reassembleOutsideWindow.map fun result =>
      (if result.1.InsideWindow result.1.vrUr then result.1
        else { result.1 with vrUr := result.1.vrUh.sub result.1.windowSize }, result.2)

/-- VR(UR) moves over the units received. -/
def moveVrUr (rx : UmReceiver) : Option (UmReceiver × List (List UInt8)) :=
  if (rx.rxBuffer rx.vrUr.value).isSome then
    let newVrUr := rx.vrUr.assign (firstMissing rx.rxBuffer 1024 (rx.vrUr.value + 1))
    let advanced : UmReceiver := { rx with vrUr := newVrUr }
    advanced.reassembleSnInterval 1024 rx.vrUr newVrUr
  else some (rx, [])

/-- The bases before the comparisons for t-Reordering. -/
def withTimerBases (rx : UmReceiver) : UmReceiver :=
  { rx with
    vrUr := rx.vrUr.setModulusBase (rx.vrUh.sub rx.windowSize)
    vrUx := rx.vrUx.setModulusBase (rx.vrUh.sub rx.windowSize)
    vrUh := rx.vrUh.setModulusBase (rx.vrUh.sub rx.windowSize) }

/-- t-Reordering is stopped and started. -/
def moveTimer (rx : UmReceiver) : UmReceiver :=
  let running := rx.reorderingTimer && !decide (rx.vrUx.Le rx.vrUr ∨
    ¬ rx.InsideWindow rx.vrUx ∧ rx.vrUx.value ≠ rx.vrUh.value)
  if running = false ∧ rx.vrUh.Gt rx.vrUr then { rx with reorderingTimer := true, vrUx := rx.vrUh }
  else { rx with reorderingTimer := running }

/-- The received unit is discarded. -/
def Discards (rx : UmReceiver) (seqNumber : SequenceNumber10) : Prop :=
  (rx.vrUr.Lt seqNumber ∧ seqNumber.Lt rx.vrUh ∧ (rx.rxBuffer seqNumber.value).isSome = true) ∨
    ((rx.vrUh.sub rx.windowSize).Le seqNumber ∧ seqNumber.Lt rx.vrUr)

instance (rx : UmReceiver) (seqNumber : SequenceNumber10) : Decidable (rx.Discards seqNumber) :=
  inferInstanceAs (Decidable (_ ∨ _))

def put (rx : UmReceiver) (key : Nat) (packet : List UInt8) : UmReceiver :=
  { rx with rxBuffer := Function.update rx.rxBuffer key (some packet) }

/-- Actions when a unit is placed in the reception buffer. -/
def place (rx : UmReceiver) (seqNumber : SequenceNumber10) (packet : List UInt8) :
    Option (UmReceiver × List (List UInt8)) :=
  ((rx.put seqNumber.value packet).moveWindow seqNumber).bind fun moved =>
    moved.1.moveVrUr.map fun result =>
      (result.1.withTimerBases.moveTimer, moved.2 ++ result.2)

/-- The bases before the comparisons for the window. -/
def withWindowBases (rx : UmReceiver) : UmReceiver :=
  { rx with
    vrUr := rx.vrUr.setModulusBase (rx.vrUh.sub rx.windowSize)
    vrUh := rx.vrUh.setModulusBase (rx.vrUh.sub rx.windowSize) }

/-- `DoReceivePdu` behind the header. -/
def receive (rx : UmReceiver) (seqNumber : SequenceNumber10) (packet : List UInt8) :
    Option (UmReceiver × List (List UInt8)) :=
  let rx := rx.withWindowBases
  let seqNumber := seqNumber.setModulusBase (rx.vrUh.sub rx.windowSize)
  if rx.Discards seqNumber then some (rx, []) else rx.place seqNumber packet

/-- `DoReceivePdu`. -/
def doReceivePdu (rx : UmReceiver) (packet : List UInt8) :
    Option (UmReceiver × List (List UInt8)) :=
  match LteRlcHeader.deserialize packet with
  | none => none
  | some rlcHeader => rx.receive ⟨rlcHeader.sequenceNumber, 0⟩ packet

/-- `DoReceiveNrSlRlcPdu`: the first unit of a channel of type STCH sets the state variables. -/
def doReceiveNrSlRlcPdu (rx : UmReceiver) (stch : Bool) (dstL2Id : UInt32) (packet : List UInt8) :
    Option (UmReceiver × List (List UInt8)) :=
  match LteRlcHeader.deserialize packet with
  | none => none
  | some rlcHeader =>
      let seqNumber : SequenceNumber10 := ⟨rlcHeader.sequenceNumber, 0⟩
      if dstL2Id ≠ 0 ∧ stch = false then none
      else if stch = true ∧ rx.firstPduRxed = false then
        { rx with
          vrUr := seqNumber
          vrUh := seqNumber
          expectedSeqNumber := seqNumber
          firstPduRxed := true }.receive seqNumber packet
      else rx.receive seqNumber packet

/-- `DoReceivePdu` or `DoReceiveNrSlRlcPdu`. -/
def receivePdu (path : Path) (rx : UmReceiver) (packet : List UInt8) :
    Option (UmReceiver × List (List UInt8)) :=
  match path with
  | .lte => rx.doReceivePdu packet
  | .nrSl stch _ dstL2Id => rx.doReceiveNrSlRlcPdu stch dstL2Id packet

/-- `ExpireReorderingTimer`, while the timer is running. -/
def expireReorderingTimer (rx : UmReceiver) : Option (UmReceiver × List (List UInt8)) :=
  if rx.reorderingTimer then
    let newVrUr := firstMissingSn rx.rxBuffer 1024 rx.vrUx
    let advanced : UmReceiver := { rx with vrUr := newVrUr }
    (advanced.reassembleSnInterval 1024 rx.vrUr newVrUr).map fun result =>
      (if result.1.vrUh.Gt result.1.vrUr then
        { result.1 with reorderingTimer := true, vrUx := result.1.vrUh }
      else { result.1 with reorderingTimer := false }, result.2)
  else none

/-- Packets received one after the other, and what they deliver. -/
def receiveAll (path : Path) : UmReceiver → List (List UInt8) →
    Option (UmReceiver × List (List UInt8))
  | rx, [] => some (rx, [])
  | rx, packet :: packets =>
      match receivePdu path rx packet with
      | none => none
      | some (next, delivered) =>
          (receiveAll path next packets).map fun result => (result.1, delivered ++ result.2)

end UmReceiver

end DeepcV2x.Rlc
