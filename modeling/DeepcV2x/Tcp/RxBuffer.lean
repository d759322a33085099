import DeepcV2x.Foundation.Runs
import DeepcV2x.Tcp.SequenceNumber

/-!
# The reception buffer

`TcpRxBuffer`: the blocks of bytes received and not extracted, in the order of
their sequence numbers, and the blocks to be reported as received out of order.
Assertions are enabled: a failed one ends the run.
-/

namespace DeepcV2x.Tcp

open SequenceNumber32

/-- `SackBlock`: the sequence numbers of its first byte and behind its last one. -/
abbrev SackBlock := Nat × Nat

/-- An entry of `m_data`. -/
abbrev RxBlock := Nat × List UInt8

/-- The members of the buffer. -/
structure TcpRxBuffer where
  sackList : List SackBlock := []
  nextRxSeq : Nat := 0
  finSeq : Nat := 0
  gotFin : Bool := false
  size : Nat := 0
  maxBuffer : Nat := 32768
  availBytes : Nat := 0
  data : List RxBlock := []
  deriving DecidableEq, Repr

/-- The sequence number behind a block. -/
def RxBlock.lastByteSeq (block : RxBlock) : Nat := add32 block.1 block.2.length

/-! ## The blocks reported as received -/

/-- The first block next to the new one is merged with it; `none` when an assertion fails. -/
def mergeSack (begin_ : SackBlock) :
    List SackBlock → Option (Option (SackBlock × List SackBlock))
  | [] => some none
  | current :: rest =>
      if begin_.1 = current.2 then
        if Lt current.1 begin_.2 then some (some ((current.1, begin_.2), rest)) else none
      else if begin_.2 = current.1 then
        if Lt begin_.1 current.2 then some (some ((begin_.1, current.2), rest)) else none
      else
        (mergeSack begin_ rest).map fun merged =>
          merged.map fun result => (result.1, current :: result.2)

/-- The loop of `UpdateSackList`, which starts again after each merge: there are at most as many as
blocks. -/
def mergeSacks : Nat → SackBlock → List SackBlock → Option (List SackBlock)
  | 0, begin_, blocks => some (begin_ :: blocks)
  | turns + 1, begin_, blocks =>
      (mergeSack begin_ blocks).bind fun merged =>
        match merged with
        | none => some (begin_ :: blocks)
        | some result => mergeSacks turns result.1 result.2

/-- `UpdateSackList`. -/
def updateSackList (nextRxSeq head tail : Nat) (sackList : List SackBlock) :
    Option (List SackBlock) :=
  if Gt head nextRxSeq then
    (mergeSacks sackList.length (head, tail) sackList).map fun merged =>
      if 4 < merged.length then merged.dropLast else merged
  else none

/-- `ClearSackList`. -/
def clearSackList (seq : Nat) (sackList : List SackBlock) : Option (List SackBlock) :=
  if ∀ block ∈ sackList, Lt block.1 block.2 then
    some (sackList.filter fun block => ¬ Le block.2 seq)
  else none

/-! ## The blocks of bytes -/

/-- `m_data[headSeq] = p`. -/
def insertBlock (headSeq : Nat) (p : List UInt8) : List RxBlock → List RxBlock
  | [] => [(headSeq, p)]
  | block :: rest =>
      if Lt headSeq block.1 then (headSeq, p) :: block :: rest
      else if headSeq = block.1 then (headSeq, p) :: rest
      else block :: insertBlock headSeq p rest

/-- What is left of a segment, and of the blocks. -/
structure Trimmed where
  headSeq : Nat
  tailSeq : Nat
  size : Nat
  data : List RxBlock

def Trimmed.keep (block : RxBlock) (trimmed : Trimmed) : Trimmed :=
  { trimmed with data := block :: trimmed.data }

/-- The loop of `Add` that removes the overlapped bytes. -/
def trimOverlap : Nat → Nat → Nat → List RxBlock → Trimmed
  | headSeq, tailSeq, size, [] => ⟨headSeq, tailSeq, size, []⟩
  | headSeq, tailSeq, size, block :: rest =>
      if Le block.1 tailSeq then
        if Gt block.lastByteSeq headSeq then
          if Gt block.1 headSeq ∧ Lt block.lastByteSeq tailSeq then
            trimOverlap headSeq tailSeq (sub32 size block.2.length) rest
          else
            (trimOverlap (if Le block.1 headSeq then block.lastByteSeq else headSeq)
              (if Ge block.lastByteSeq tailSeq then block.1 else tailSeq) size rest).keep block
        else (trimOverlap headSeq tailSeq size rest).keep block
      else ⟨headSeq, tailSeq, size, block :: rest⟩

/-- The next sequence number, the available bytes and the reported blocks. -/
structure Advanced where
  nextRxSeq : Nat
  availBytes : Nat
  sackList : List SackBlock

/-- The loop of `Add` that moves the next sequence number. -/
def advance : Advanced → List RxBlock → Option Advanced
  | advanced, [] => some advanced
  | advanced, block :: rest =>
      if Lt block.1 advanced.nextRxSeq then advance advanced rest
      else if Gt block.1 advanced.nextRxSeq then some advanced
      else
        (clearSackList block.lastByteSeq advanced.sackList).bind fun sackList =>
          advance ⟨block.lastByteSeq, add32 advanced.availBytes block.2.length, sackList⟩ rest

/-- The loop of `Extract`: the bytes, and the blocks that are left. -/
def takeBlocks (nextRxSeq : Nat) : Nat → List RxBlock → Option (List UInt8 × List RxBlock)
  | 0, data => some ([], data)
  | _ + 1, [] => none
  | extractSize + 1, block :: rest =>
      if Gt block.1 nextRxSeq then none
      else if block.2.length ≤ extractSize + 1 then
        (takeBlocks nextRxSeq (extractSize + 1 - block.2.length) rest).map fun taken =>
          (block.2 ++ taken.1, taken.2)
      else
        some (block.2.take (extractSize + 1),
          insertBlock (add32 block.1 (extractSize + 1)) (block.2.drop (extractSize + 1)) rest)

namespace TcpRxBuffer

/-! ## The operations -/

/-- `MaxRxSequence`. -/
def maxRxSequence (rx : TcpRxBuffer) : Nat :=
  if rx.gotFin = true then rx.finSeq
  else
    match rx.data with
    | [] => add32 rx.nextRxSeq rx.maxBuffer
    | block :: _ =>
        if Gt rx.nextRxSeq block.1 then add32 block.1 rx.maxBuffer
        else add32 rx.nextRxSeq rx.maxBuffer

/-- The FIN is counted when the next sequence number comes to it. -/
def countFin (rx : TcpRxBuffer) : TcpRxBuffer :=
  if rx.nextRxSeq = rx.finSeq then { rx with nextRxSeq := add32 rx.nextRxSeq 1 } else rx

/-- The FIN is counted at the end of `Add`, when it was received. -/
def settleFin (rx : TcpRxBuffer) : TcpRxBuffer := if rx.gotFin = true then rx.countFin else rx

/-- `SetFinSequence`. -/
def setFinSequence (rx : TcpRxBuffer) (s : Nat) : TcpRxBuffer :=
  { rx with gotFin := true, finSeq := s }.countFin

/-- `Finished`. -/
def finished (rx : TcpRxBuffer) : Bool :=
  rx.gotFin && decide (Lt rx.finSeq rx.nextRxSeq)

/-- The segment is trimmed to the window, when there are blocks. -/
def trimWindow (rx : TcpRxBuffer) (headSeq tailSeq : Nat) : Nat × Nat :=
  let head := if Lt headSeq rx.nextRxSeq then rx.nextRxSeq else headSeq
  match rx.data with
  | [] => (head, tailSeq)
  | block :: _ =>
      let maxSeq := add32 block.1 rx.maxBuffer
      let tail := if Lt maxSeq tailSeq then maxSeq else tailSeq
      (if Lt tail head then tail else head, tail)

/-- A trimmed segment is stored. -/
def store (rx : TcpRxBuffer) (p : List UInt8) (headSeq tailSeq : Nat) : Option TcpRxBuffer :=
  if rx.data.any (fun block => block.1 = headSeq) then none
  else
    (if Gt headSeq rx.nextRxSeq then updateSackList rx.nextRxSeq headSeq tailSeq rx.sackList
      else some rx.sackList).bind fun sackList =>
    (advance ⟨rx.nextRxSeq, rx.availBytes, sackList⟩ (insertBlock headSeq p rx.data)).map
      fun advanced => settleFin { rx with
        data := insertBlock headSeq p rx.data
        size := add32 rx.size p.length
        nextRxSeq := advanced.nextRxSeq
        availBytes := advanced.availBytes
        sackList := advanced.sackList }

/-- `Add`. -/
def add (rx : TcpRxBuffer) (p : List UInt8) (sequenceNumber : Nat) :
    Option (TcpRxBuffer × Bool) :=
  let window := rx.trimWindow sequenceNumber (add32 sequenceNumber p.length)
  let trimmed := trimOverlap window.1 window.2 rx.size rx.data
  let kept := { rx with size := trimmed.size, data := trimmed.data }
  if Ge trimmed.headSeq trimmed.tailSeq then some (kept, false)
  else
    let fragment := (p.drop (sub32 trimmed.headSeq sequenceNumber)).take
      (sub32 trimmed.tailSeq trimmed.headSeq)
    if fragment.length = sub32 trimmed.tailSeq trimmed.headSeq then
      (kept.store fragment trimmed.headSeq trimmed.tailSeq).map fun next => (next, true)
    else none

/-- `Extract`. -/
def extract (rx : TcpRxBuffer) (maxSize : Nat) : Option (TcpRxBuffer × Option (List UInt8)) :=
  let extractSize := min maxSize rx.availBytes
  if extractSize = 0 then some (rx, none)
  else
    (takeBlocks rx.nextRxSeq extractSize rx.data).map fun taken =>
      ({ rx with
        data := taken.2
        size := sub32 rx.size extractSize
        availBytes := sub32 rx.availBytes extractSize }, some taken.1)

end TcpRxBuffer

/-! ## Runs -/

/-- What happens to the buffer: a segment of the stream, an extraction, the FIN at its end. -/
inductive RxEvent
  | segment (start length : Nat)
  | extract (maxSize : Nat)
  | fin
  deriving DecidableEq, Repr

/-- The buffer, and the bytes extracted so far. -/
structure Receiving where
  buffer : TcpRxBuffer
  extracted : List UInt8 := []
  deriving DecidableEq, Repr

namespace Receiving

def step (first : Nat) (stream : List UInt8) (receiving : Receiving) : RxEvent → Option Receiving
  | .segment start length =>
      (receiving.buffer.add ((stream.drop start).take length) (add32 first start)).map fun result =>
        { receiving with buffer := result.1 }
  | .extract maxSize =>
      (receiving.buffer.extract maxSize).map fun result =>
        { buffer := result.1, extracted := receiving.extracted ++ result.2.getD [] }
  | .fin =>
      some { receiving with
        buffer := receiving.buffer.setFinSequence (add32 first stream.length) }

def run (first : Nat) (stream : List UInt8) : Receiving → List RxEvent → Option Receiving :=
  Foundation.Runs.runFrom (step first stream)

/-- An empty buffer that expects a sequence number. -/
def create (first maxBuffer : Nat) : Receiving where
  buffer := { nextRxSeq := first, maxBuffer := maxBuffer }

end Receiving

end DeepcV2x.Tcp
