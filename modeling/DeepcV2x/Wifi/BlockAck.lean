import DeepcV2x.Foundation.Runs

/-!
# The recipient of a block ack agreement

`RecipientBlockAckAgreement`: the scoreboard and the receive reordering buffer.
Assertions are enabled or not, as in the build profiles of the source; a failed
one ends the run, and so does reading behind the end of a vector.
-/

namespace DeepcV2x.Wifi

/-- An MPDU with its sequence number. -/
structure WifiMpdu (α : Type*) where
  seqNumber : Nat
  packet : α
  deriving DecidableEq, Repr

/-! ## Distances -/

/-- `int` arithmetic on two sequence numbers; a remainder has the sign of its dividend. -/
def wrapped (seqNumber startingSeqNumber : Nat) : Int :=
  Int.tmod ((seqNumber : Int) - startingSeqNumber + 4096) 4096

/-- The value of `GetDistance`, a `size_t`. -/
def distance (seqNumber startingSeqNumber : Nat) : Nat :=
  (wrapped seqNumber startingSeqNumber % 18446744073709551616).toNat

/-- `GetDistance`. -/
def getDistance (asserts : Bool) (seqNumber startingSeqNumber : Nat) : Option Nat :=
  if asserts = true ∧ ¬ (seqNumber < 4096 ∧ startingSeqNumber < 4096) then none
  else some (distance seqNumber startingSeqNumber)

/-- A `size_t` given to a parameter of 16 bits. -/
def toUInt16 (value : Int) : Nat := (value % 65536).toNat

/-! ## The scoreboard -/

/-- `BlockAckWindow`, a ring of bits. -/
structure BlockAckWindow where
  winStart : Nat
  window : List Bool
  head : Nat
  deriving DecidableEq, Repr

namespace BlockAckWindow

/-- `Init`. -/
def init (winStart winSize : Nat) : BlockAckWindow := ⟨winStart, List.replicate winSize false, 0⟩

/-- `Reset`. -/
def reset (window : BlockAckWindow) (winStart : Nat) : BlockAckWindow :=
  init winStart window.window.length

def getWinSize (window : BlockAckWindow) : Nat := window.window.length

/-- `At`, set to true. -/
def setAt (window : BlockAckWindow) (asserts : Bool) (distance : Nat) : Option BlockAckWindow :=
  if window.getWinSize = 0 ∨ asserts = true ∧ ¬ distance < window.getWinSize then none
  else
    some { window with
      window := window.window.set ((window.head + distance) % window.getWinSize) true }

/-- The loop of `Advance`. -/
def clear : Nat → BlockAckWindow → BlockAckWindow
  | 0, window => window
  | count + 1, window =>
      clear count { window with
        window := window.window.set window.head false
        head := (window.head + 1) % window.getWinSize }

/-- `Advance`. -/
def advance (window : BlockAckWindow) (count : Nat) : BlockAckWindow :=
  if window.getWinSize ≤ count then window.reset ((window.winStart + count) % 4096)
  else { clear count window with winStart := (window.winStart + count) % 4096 }

/-- What `NotifyReceivedMpdu` does to the scoreboard. -/
def receiveMpdu (window : BlockAckWindow) (asserts : Bool) (seqNumber : Nat) :
    Option BlockAckWindow :=
  (getDistance asserts seqNumber window.winStart).bind fun distance =>
    if distance % 65536 < window.getWinSize then window.setAt asserts (distance % 65536)
    else if distance % 65536 < 2048 then
      (window.advance (distance % 65536 - window.getWinSize + 1)).setAt asserts
        ((window.advance (distance % 65536 - window.getWinSize + 1)).getWinSize - 1)
    else some window

/-- What `NotifyReceivedBar` does to the scoreboard. -/
def receiveBar (window : BlockAckWindow) (asserts : Bool) (startingSequenceNumber : Nat) :
    Option BlockAckWindow :=
  (getDistance asserts startingSequenceNumber window.winStart).bind fun distance =>
    if 0 < distance % 65536 ∧ distance % 65536 < window.getWinSize then
      if asserts = true ∧ (window.advance (distance % 65536)).winStart ≠ startingSequenceNumber then none
      else some (window.advance (distance % 65536))
    else if 0 < distance % 65536 ∧ distance % 65536 < 2048 then
      some (window.reset startingSequenceNumber)
    else some window

end BlockAckWindow

/-! ## The reordering buffer -/

/-- The agreement, with the MPDUs forwarded up so far. -/
structure RecipientBlockAckAgreement (α : Type*) where
  scoreboard : BlockAckWindow
  winStartB : Nat
  winSizeB : Nat
  bufferedMpdus : List (WifiMpdu α) := []
  forwarded : List (WifiMpdu α) := []
  deriving DecidableEq, Repr

namespace RecipientBlockAckAgreement

variable {α : Type*}

/-- The constructor. -/
def create (bufferSize startingSeq : Nat) : RecipientBlockAckAgreement α where
  scoreboard := .init startingSeq bufferSize
  winStartB := startingSeq
  winSizeB := bufferSize

/-- Insertion into the map, whose keys are compared by what is ahead of the start of the window. -/
def insertMpdu (winStartB : Nat) (mpdu : WifiMpdu α) : List (WifiMpdu α) → List (WifiMpdu α)
  | [] => [mpdu]
  | other :: rest =>
      if wrapped other.seqNumber winStartB < wrapped mpdu.seqNumber winStartB then
        other :: insertMpdu winStartB mpdu rest
      else if wrapped mpdu.seqNumber winStartB < wrapped other.seqNumber winStartB then
        mpdu :: other :: rest
      else other :: rest

/-- The assertion that no old MPDU is buffered; it looks at the last one. -/
def NoOldMpdus (agreement : RecipientBlockAckAgreement α) : Prop :=
  ∀ mpdu ∈ agreement.bufferedMpdus.getLast?,
    mpdu.seqNumber < 4096 ∧ agreement.winStartB < 4096 ∧
      distance mpdu.seqNumber agreement.winStartB < 2048

instance (agreement : RecipientBlockAckAgreement α) : Decidable agreement.NoOldMpdus :=
  inferInstanceAs (Decidable (∀ mpdu ∈ agreement.bufferedMpdus.getLast?, _))

/-- The loop of `PassBufferedMpdusUntilFirstLost`. -/
def passWhileNext : List (WifiMpdu α) → RecipientBlockAckAgreement α → RecipientBlockAckAgreement α
  | [], agreement => { agreement with bufferedMpdus := [] }
  | mpdu :: rest, agreement =>
      if mpdu.seqNumber = agreement.winStartB then
        passWhileNext rest { agreement with
          winStartB := (agreement.winStartB + 1) % 4096
          forwarded := agreement.forwarded ++ [mpdu] }
      else { agreement with bufferedMpdus := mpdu :: rest }

/-- `PassBufferedMpdusUntilFirstLost`. -/
def passBufferedMpdusUntilFirstLost (asserts : Bool) (agreement : RecipientBlockAckAgreement α) :
    Option (RecipientBlockAckAgreement α) :=
  if asserts = true ∧ ¬ agreement.NoOldMpdus then none
  else some (passWhileNext agreement.bufferedMpdus agreement)

/-- The loop of `PassBufferedMpdusWithSeqNumberLessThan`. -/
def passWhileLess (asserts : Bool) (newWinStartB : Nat) :
    List (WifiMpdu α) → RecipientBlockAckAgreement α → Option (RecipientBlockAckAgreement α)
  | [], agreement => some { agreement with bufferedMpdus := [] }
  | mpdu :: rest, agreement =>
      (getDistance asserts mpdu.seqNumber agreement.winStartB).bind fun distance =>
        (getDistance asserts newWinStartB agreement.winStartB).bind fun newDistance =>
          if distance < newDistance then
            passWhileLess asserts newWinStartB rest
              { agreement with forwarded := agreement.forwarded ++ [mpdu] }
          else some { agreement with bufferedMpdus := mpdu :: rest }

/-- `PassBufferedMpdusWithSeqNumberLessThan`. -/
def passBufferedMpdusWithSeqNumberLessThan (asserts : Bool) (newWinStartB : Nat)
    (agreement : RecipientBlockAckAgreement α) : Option (RecipientBlockAckAgreement α) :=
  if asserts = true ∧ ¬ agreement.NoOldMpdus then none
  else
    (passWhileLess asserts newWinStartB agreement.bufferedMpdus agreement).map fun passed =>
      { passed with winStartB := newWinStartB }

/-- `NotifyReceivedMpdu`; the new start of the window is computed in `size_t`. -/
def notifyReceivedMpdu (asserts : Bool) (agreement : RecipientBlockAckAgreement α)
    (mpdu : WifiMpdu α) : Option (RecipientBlockAckAgreement α) :=
  (agreement.scoreboard.receiveMpdu asserts mpdu.seqNumber).bind fun scoreboard =>
    (getDistance asserts mpdu.seqNumber agreement.winStartB).bind fun distance =>
      if distance % 65536 < agreement.winSizeB then
        passBufferedMpdusUntilFirstLost asserts
          { agreement with
            scoreboard := scoreboard
            bufferedMpdus := insertMpdu agreement.winStartB mpdu agreement.bufferedMpdus }
      else if distance % 65536 < 2048 then
        (passBufferedMpdusWithSeqNumberLessThan asserts
          (toUInt16 ((mpdu.seqNumber : Int) - agreement.winSizeB + 1))
          { agreement with
            scoreboard := scoreboard
            bufferedMpdus := insertMpdu agreement.winStartB mpdu agreement.bufferedMpdus }).bind
          (passBufferedMpdusUntilFirstLost asserts)
      else some { agreement with scoreboard := scoreboard }

/-- `NotifyReceivedBar`. -/
def notifyReceivedBar (asserts : Bool) (agreement : RecipientBlockAckAgreement α)
    (startingSequenceNumber : Nat) : Option (RecipientBlockAckAgreement α) :=
  (agreement.scoreboard.receiveBar asserts startingSequenceNumber).bind fun scoreboard =>
    (getDistance asserts startingSequenceNumber agreement.winStartB).bind fun distance =>
      if 0 < distance % 65536 ∧ distance % 65536 < 2048 then
        (passBufferedMpdusWithSeqNumberLessThan asserts startingSequenceNumber
          { agreement with scoreboard := scoreboard }).bind (passBufferedMpdusUntilFirstLost asserts)
      else some { agreement with scoreboard := scoreboard }

end RecipientBlockAckAgreement

/-! ## Runs -/

/-- What arrives, with numbers that do not wrap. -/
inductive ReorderEvent (β : Type*)
  | mpdu (number : Nat) (body : β)
  | bar (number : Nat)

/-- An agreement whose MPDUs carry their unwrapped numbers, the unwrapped start of its window, and
the MPDUs received when they were not behind it. -/
structure Reordering (β : Type*) where
  agreement : RecipientBlockAckAgreement (Nat × β)
  start : Nat
  kept : List (Nat × β)

namespace Reordering

variable {β : Type*}

/-- The agreement after an event, whose window moved by less than 4096. -/
def moveTo (reordering : Reordering β) (next : RecipientBlockAckAgreement (Nat × β)) :
    Reordering β where
  agreement := next
  start := reordering.start + (next.winStartB + 4096 - reordering.agreement.winStartB) % 4096
  kept := reordering.kept

def step (asserts : Bool) (reordering : Reordering β) : ReorderEvent β → Option (Reordering β)
  | .mpdu number body =>
      (reordering.agreement.notifyReceivedMpdu asserts ⟨number % 4096, (number, body)⟩).map fun next =>
        { reordering.moveTo next with
          kept :=
            if reordering.start ≤ number then reordering.kept ++ [(number, body)]
            else reordering.kept }
  | .bar number =>
      (reordering.agreement.notifyReceivedBar asserts (number % 4096)).map reordering.moveTo

def run (asserts : Bool) : Reordering β → List (ReorderEvent β) → Option (Reordering β) :=
  Foundation.Runs.runFrom (step asserts)

/-- A new agreement; the numbers before its first one are those of the turn before. -/
def create (bufferSize startingSeq : Nat) : Reordering β where
  agreement := .create bufferSize startingSeq
  start := 4096 + startingSeq
  kept := []

end Reordering

end DeepcV2x.Wifi
