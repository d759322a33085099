import DeepcV2x.Foundation.Datagrams
import DeepcV2x.Tcp.RxBuffer
import DeepcV2x.Tcp.TxBuffer

/-!
# One direction of a connection

The parts of `TcpSocketBase` through which the bytes of an established
connection go: `Send`, `SendDataPacket`, `ReceivedData`, `Recv`, the
acknowledgements and `ReceivedAck`.  Segments may be lost, delayed, reordered
and duplicated.  When the socket sends or retransmits, and what it gives up for
lost, is the choice of its timers and its congestion control: it may do so at
any time.
-/

namespace DeepcV2x.Tcp

open SequenceNumber32 Foundation

/-- A segment with data, or an acknowledgement with the blocks of its SACK option. -/
inductive TcpSegment
  | data (seq : UInt32) (payload : List UInt8)
  | ack (ackNumber : UInt32) (sackList : List (UInt32 × UInt32))
  deriving DecidableEq, Repr

/-- The buffers of the sending socket and of its peer. -/
structure TcpConnection where
  now : Nat
  sender : Streaming
  highTxMark : Nat
  receiver : Receiving

/-- What the two sockets do besides receiving segments. -/
inductive TcpAction
  | tick (now : Nat)
  | send (packet : List UInt8)
  | sendDataPacket (seq maxSize : UInt32)
  | mark (op : TcpOp)
  | sendEmptyPacket (allowedSackBlocks : Nat)
  | recv (maxSize : Nat)

/-- The operations that recovery and timeouts apply: they change flags or give sent bytes back. -/
def Marks : TcpOp → Prop
  | .addRenoSack | .resetRenoSack | .setSentListLost _ | .resetSentList | .resetLastSegmentSent
  | .markHeadAsLost => True
  | _ => False

instance Marks.decidable : ∀ op, Decidable (Marks op)
  | .addRenoSack | .resetRenoSack | .setSentListLost _ | .resetSentList | .resetLastSegmentSent
  | .markHeadAsLost => .isTrue trivial
  | .setHeadSequence _ | .add _ | .copyFromSequence _ _ _ | .discardUpTo _ _ | .update _ =>
      .isFalse id

namespace TcpConnection

/-- An established connection whose first byte has a sequence number. -/
def start (first sndBuf rcvBuf dupAckThresh : UInt32) (sackEnabled : Bool) : TcpConnection where
  now := 0
  sender := Streaming.start first sndBuf dupAckThresh sackEnabled
  highTxMark := first.toNat
  receiver := Receiving.create first.toNat rcvBuf.toNat

/-! ## Sending -/

/-- `SendDataPacket`; there must be something to send. -/
def sendDataPacket (connection : TcpConnection) (seq maxSize : UInt32) :
    Option (TcpConnection × List TcpSegment) :=
  (connection.sender.tx.copyFromSequence connection.now maxSize.toNat seq.toNat).bind fun copied =>
    copied.2.map fun outItem =>
      let nextSeq := add32 seq.toNat outItem.size
      ({ connection with
        sender := { connection.sender with tx := copied.1 }
        highTxMark :=
          if Lt nextSeq connection.highTxMark then connection.highTxMark else nextSeq },
        [.data seq outItem.packet])

/-- `SendEmptyPacket` with the ACK flag; the options leave room for some blocks. -/
def sendEmptyPacket (connection : TcpConnection) (allowedSackBlocks : Nat) : TcpSegment :=
  .ack (UInt32.ofNat connection.receiver.buffer.nextRxSeq)
    ((connection.receiver.buffer.sackList.take allowedSackBlocks).map fun block =>
      (UInt32.ofNat block.1, UInt32.ofNat block.2))

/-- `Recv`. -/
def recv (connection : TcpConnection) (maxSize : Nat) : Option TcpConnection :=
  (connection.receiver.buffer.extract maxSize).map fun extracted =>
    { connection with
      receiver := ⟨extracted.1, connection.receiver.extracted ++ extracted.2.getD []⟩ }

/-- An operation of the sender's buffer. -/
def apply (connection : TcpConnection) (op : TcpOp) : Option TcpConnection :=
  (connection.sender.step op).map fun sender => { connection with sender := sender }

/-! ## Receiving -/

/-- `OutOfRange` of an established connection. -/
def OutOfRange (connection : TcpConnection) (head tail : Nat) : Prop :=
  Lt tail connection.receiver.buffer.nextRxSeq ∨
    Le connection.receiver.buffer.maxRxSequence head

instance (connection : TcpConnection) (head tail : Nat) :
    Decidable (connection.OutOfRange head tail) := inferInstanceAs (Decidable (_ ∨ _))

/-- `ReceivedData`, for a segment that has data and is in range. -/
def receivedData (connection : TcpConnection) (seq : UInt32) (payload : List UInt8) :
    Option TcpConnection :=
  if payload = [] ∨ connection.OutOfRange seq.toNat (add32 seq.toNat payload.length) then
    some connection
  else
    (connection.receiver.buffer.add payload seq.toNat).map fun added =>
      { connection with receiver := { connection.receiver with buffer := added.1 } }

/-- `ReadOptions` of an acknowledgement: the option is there when it has blocks. -/
def readOptions (connection : TcpConnection) (sackList : List (UInt32 × UInt32)) :
    Option TcpConnection :=
  if sackList = [] then some connection else connection.apply (.update sackList)

/-- `ReceivedAck`, which `ProcessEstablished` calls for numbers in range. -/
def receivedAck (connection : TcpConnection) (ackNumber : UInt32)
    (sackList : List (UInt32 × UInt32)) : Option TcpConnection :=
  if Lt ackNumber.toNat connection.sender.tx.firstByteSeq ∨
      Gt ackNumber.toNat connection.highTxMark then some connection
  else
    (connection.readOptions sackList).bind fun read =>
      read.apply (.discardUpTo connection.now ackNumber)

/-! ## Steps -/

def act (connection : TcpConnection) : TcpAction → Option (TcpConnection × List TcpSegment)
  | .tick now => some ({ connection with now := now }, [])
  | .send packet => (connection.apply (.add packet)).map (·, [])
  | .sendDataPacket seq maxSize => connection.sendDataPacket seq maxSize
  | .mark op => (connection.apply op).map (·, [])
  | .sendEmptyPacket allowedSackBlocks =>
      some (connection, [connection.sendEmptyPacket allowedSackBlocks])
  | .recv maxSize => (connection.recv maxSize).map (·, [])

def receive (connection : TcpConnection) : TcpSegment → Option (TcpConnection × List TcpSegment)
  | .data seq payload => (connection.receivedData seq payload).map (·, [])
  | .ack ackNumber sackList => (connection.receivedAck ackNumber sackList).map (·, [])

/-- The connection and the segments on their way. -/
def step : Datagrams.Network TcpConnection TcpSegment → Datagrams.Event TcpAction →
    Option (Datagrams.Network TcpConnection TcpSegment) :=
  Datagrams.step act receive

/-- What is sent ends within the window of the peer behind the first unacknowledged byte, and the
connection carries fewer bytes than old segments could be mistaken for new ones. -/
def KeepsWindow (connection : TcpConnection) : TcpAction → Prop
  | .send packet => connection.sender.accepted.length + packet.length +
      connection.receiver.buffer.maxBuffer < 2147483648
  | .sendDataPacket seq maxSize => sub32 seq.toNat connection.sender.tx.firstByteSeq +
      maxSize.toNat ≤ connection.receiver.buffer.maxBuffer
  | .mark op => Marks op
  | _ => True

instance KeepsWindow.decidable (connection : TcpConnection) :
    ∀ action, Decidable (connection.KeepsWindow action)
  | .send packet => inferInstanceAs (Decidable (connection.sender.accepted.length +
      packet.length + connection.receiver.buffer.maxBuffer < 2147483648))
  | .sendDataPacket seq maxSize =>
      inferInstanceAs (Decidable (sub32 seq.toNat connection.sender.tx.firstByteSeq +
        maxSize.toNat ≤ connection.receiver.buffer.maxBuffer))
  | .mark op => inferInstanceAs (Decidable (Marks op))
  | .tick _ | .sendEmptyPacket _ | .recv _ => .isTrue trivial

end TcpConnection

end DeepcV2x.Tcp
