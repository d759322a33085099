import DeepcV2x.Epc.Tft
import DeepcV2x.Foundation.Octets

/-!
# The GTP-C Create Session Request

`GtpcCreateSessionRequestMessage` with its header and information elements.
What is serialized is a list of the octets of each write.  A fatal error, a
read behind the end and, where they are enabled, a failed assertion end the
deserialization.
-/

namespace DeepcV2x.Epc

open Foundation.Octets

/-! ## Data -/

/-- `GtpcHeader::InterfaceType_t`, with the values it does not list. -/
inductive InterfaceType
  | s1uEnbGtpu
  | s5SgwGtpu
  | s5PgwGtpu
  | s5SgwGtpc
  | s5PgwGtpc
  | s11MmeGtpc
  | unlisted (value : UInt8)
  deriving DecidableEq, Repr

namespace InterfaceType

def value : InterfaceType → UInt8
  | s1uEnbGtpu => 0
  | s5SgwGtpu => 4
  | s5PgwGtpu => 5
  | s5SgwGtpc => 6
  | s5PgwGtpc => 7
  | s11MmeGtpc => 10
  | unlisted value => value

def ofValue (value : UInt8) : InterfaceType :=
  if value = 0 then s1uEnbGtpu
  else if value = 4 then s5SgwGtpu
  else if value = 5 then s5PgwGtpu
  else if value = 6 then s5SgwGtpc
  else if value = 7 then s5PgwGtpc
  else if value = 10 then s11MmeGtpc
  else unlisted value

def Listed (interfaceType : InterfaceType) : Prop := ∀ value, interfaceType ≠ unlisted value

end InterfaceType

/-- `GtpcHeader::Fteid_t`. -/
structure Fteid where
  interfaceType : InterfaceType
  addr : UInt32
  teid : UInt32
  deriving DecidableEq, Repr

structure GbrQosInformation where
  gbrDl : UInt64 := 0
  gbrUl : UInt64 := 0
  mbrDl : UInt64 := 0
  mbrUl : UInt64 := 0
  deriving DecidableEq, Repr

/-- The members of `EpsBearer` that its copies have. -/
structure EpsBearer where
  qci : UInt8
  gbrQosInfo : GbrQosInformation
  deriving DecidableEq, Repr

structure BearerContextToBeCreated where
  sgwS5uFteid : Fteid
  epsBearerId : UInt8
  tft : EpcTft
  bearerLevelQos : EpsBearer
  deriving DecidableEq

/-- `GtpcHeader`. -/
structure GtpcHeader where
  teidFlag : Bool
  messageType : UInt8
  messageLength : UInt16
  teid : UInt32
  sequenceNumber : UInt32
  deriving DecidableEq, Repr

structure GtpcCreateSessionRequestMessage where
  header : GtpcHeader
  imsi : UInt64
  uliEcgi : UInt32
  senderCpFteid : Fteid
  bearerContextsToBeCreated : List BearerContextToBeCreated
  deriving DecidableEq

/-! ## Sizes -/

def serializedSizeImsi : Nat := 12
def serializedSizeEbi : Nat := 5
def serializedSizeBearerQos : Nat := 26
def serializedSizePacketFilter : Nat := 3 + 9 + 9 + 5 + 5 + 3
def serializedSizeUliEcgi : Nat := 12
def serializedSizeFteid : Nat := 13
def serializedSizeBearerContextHeader : Nat := 4

/-- `GetSerializedSizeBearerTft`. -/
def getSerializedSizeBearerTft (packetFilters : List PacketFilter) : Nat :=
  5 + packetFilters.length * serializedSizePacketFilter

/-- `GtpcHeader::GetSerializedSize`. -/
def GtpcHeader.getSerializedSize (header : GtpcHeader) : Nat := if header.teidFlag then 12 else 8

/-- What a bearer context adds to the message. -/
def BearerContextToBeCreated.size (bc : BearerContextToBeCreated) : Nat :=
  serializedSizeBearerContextHeader + serializedSizeEbi +
    getSerializedSizeBearerTft bc.tft.filters + serializedSizeFteid + serializedSizeBearerQos

/-- `GetMessageSize`, a sum of 32 bits. -/
def GtpcCreateSessionRequestMessage.getMessageSize (message : GtpcCreateSessionRequestMessage) : Nat :=
  message.bearerContextsToBeCreated.foldl (fun size bc => (size + bc.size) % 4294967296)
    (serializedSizeImsi + serializedSizeUliEcgi + serializedSizeFteid)

/-- `GetSerializedSize`. -/
def GtpcCreateSessionRequestMessage.getSerializedSize (message : GtpcCreateSessionRequestMessage) :
    Nat :=
  (message.header.getSerializedSize + message.getMessageSize) % 4294967296

/-! ## Writing -/

/-- `WriteU8` of an `int`. -/
def writeU8 (value : Nat) : List UInt8 := [UInt8.ofNat value]

/-- `WriteU16`, the least significant octet first. -/
def writeU16 (data : UInt16) : List UInt8 := [data.toUInt8, (data >>> 8).toUInt8]

/-- `WriteHtonU40`. -/
def writeHtonU40 (data : UInt64) : List UInt8 := hton 5 data.toNat

/-- `PreSerialize`. -/
def GtpcHeader.preSerialize (header : GtpcHeader) : List (List UInt8) :=
  [writeU8 (2 <<< 5 ||| 1 <<< 3), [header.messageType], htonU16 header.messageLength,
    htonU32 header.teid, writeU8 ((header.sequenceNumber.toNat &&& 0x00ff0000) >>> 16),
    writeU8 ((header.sequenceNumber.toNat &&& 0x0000ff00) >>> 8),
    writeU8 (header.sequenceNumber.toNat &&& 0x000000ff), writeU8 0]

def serializeImsi (imsi : UInt64) : List (List UInt8) :=
  [writeU8 1, htonU16 8, writeU8 0, htonU64 imsi]

def serializeEbi (epsBearerId : UInt8) : List (List UInt8) :=
  [writeU8 73, htonU16 1, writeU8 0, [epsBearerId &&& 0x0f]]

def serializeBearerQos (bearerQos : EpsBearer) : List (List UInt8) :=
  [writeU8 80, htonU16 22, writeU8 0, writeU8 0, [bearerQos.qci],
    writeHtonU40 bearerQos.gbrQosInfo.mbrUl, writeHtonU40 bearerQos.gbrQosInfo.mbrDl,
    writeHtonU40 bearerQos.gbrQosInfo.gbrUl, writeHtonU40 bearerQos.gbrQosInfo.gbrDl]

/-- The body of the loop of `SerializeBearerTft`. -/
def serializePacketFilter (pf : PacketFilter) : List (List UInt8) :=
  [[pf.direction.value <<< 4 &&& 0x30], [pf.precedence], writeU8 (serializedSizePacketFilter - 3),
    writeU8 0x10, htonU32 pf.remoteAddress, htonU32 pf.remoteMask,
    writeU8 0x11, htonU32 pf.localAddress, htonU32 pf.localMask,
    writeU8 0x41, htonU16 pf.localPortStart, htonU16 pf.localPortEnd,
    writeU8 0x51, htonU16 pf.remotePortStart, htonU16 pf.remotePortEnd,
    writeU8 0x70, [pf.typeOfService], [pf.typeOfServiceMask]]

def serializeBearerTft (packetFilters : List PacketFilter) : List (List UInt8) :=
  [writeU8 84, htonU16 (UInt16.ofNat (1 + packetFilters.length * serializedSizePacketFilter)),
    writeU8 0, writeU8 (0x20 + (packetFilters.length &&& 0x0f))] ++
    packetFilters.map fun pf => (serializePacketFilter pf).flatten

def serializeUliEcgi (uliEcgi : UInt32) : List (List UInt8) :=
  [writeU8 86, htonU16 8, writeU8 0, writeU8 0x10, writeU8 0, writeU8 0, writeU8 0, htonU32 uliEcgi]

def serializeFteid (fteid : Fteid) : List (List UInt8) :=
  [writeU8 87, htonU16 9, writeU8 0, [0x80 ||| fteid.interfaceType.value &&& 0x1f],
    htonU32 fteid.teid, htonU32 fteid.addr]

def serializeBearerContextHeader (length : UInt16) : List (List UInt8) :=
  [writeU8 93, writeU16 length, writeU8 0]

/-- The information elements inside a bearer context. -/
def BearerContextToBeCreated.ies (bc : BearerContextToBeCreated) : List (List UInt8) :=
  [(serializeEbi bc.epsBearerId).flatten, (serializeBearerTft bc.tft.filters).flatten,
    (serializeFteid bc.sgwS5uFteid).flatten, (serializeBearerQos bc.bearerLevelQos).flatten]

/-- The body of the loop of `Serialize`. -/
def BearerContextToBeCreated.serialize (bc : BearerContextToBeCreated) : List UInt8 :=
  (serializeBearerContextHeader (UInt16.ofNat (serializedSizeEbi +
    getSerializedSizeBearerTft bc.tft.filters + serializedSizeFteid +
      serializedSizeBearerQos))).flatten ++ bc.ies.flatten

/-- The information elements of the message, without those inside the bearer contexts. -/
def GtpcCreateSessionRequestMessage.ies (message : GtpcCreateSessionRequestMessage) :
    List (List UInt8) :=
  [(serializeImsi message.imsi).flatten, (serializeUliEcgi message.uliEcgi).flatten,
    (serializeFteid message.senderCpFteid).flatten] ++
    message.bearerContextsToBeCreated.map BearerContextToBeCreated.serialize

/-- `Serialize`. -/
def GtpcCreateSessionRequestMessage.serialize (message : GtpcCreateSessionRequestMessage) :
    List UInt8 :=
  message.header.preSerialize.flatten ++ message.ies.flatten

/-! ## Reading -/

/-- `GtpcHeader::PreDeserialize`; a message without TEID is fatal. -/
def preDeserialize : Reader GtpcHeader := do
  let firstByte ← octet
  ensure true (firstByte >>> 5 &&& 0x07 == 2)
  ensure true (firstByte >>> 3 &&& 0x01 == 1)
  let messageType ← octet
  let messageLength ← ntohU16
  let teid ← ntohU32
  let high ← octet
  let middle ← octet
  let low ← octet
  let _ ← octet
  pure ⟨true, messageType, messageLength, teid,
    high.toUInt32 <<< 16 ||| middle.toUInt32 <<< 8 ||| low.toUInt32⟩

def deserializeImsi (asserts : Bool) : Reader UInt64 := do
  let type ← octet
  ensure asserts (type == 1)
  let length ← ntohU16
  ensure asserts (length == 8)
  let inst ← octet
  ensure asserts (inst &&& 0x0f == 0)
  ntohU64

def deserializeEbi (asserts : Bool) : Reader UInt8 := do
  let type ← octet
  ensure asserts (type == 73)
  let length ← ntohU16
  ensure asserts (length == 1)
  let inst ← octet
  ensure asserts (inst == 0)
  let epsBearerId ← octet
  pure (epsBearerId &&& 0x0f)

/-- `ReadNtohU40`. -/
def readNtohU40 : Reader UInt64 := UInt64.ofNat <$> ntoh 5

def deserializeBearerQos (asserts : Bool) : Reader EpsBearer := do
  let type ← octet
  ensure asserts (type == 80)
  let length ← ntohU16
  ensure asserts (length == 22)
  let inst ← octet
  ensure asserts (inst == 0)
  let _ ← octet
  let qci ← octet
  let mbrUl ← readNtohU40
  let mbrDl ← readNtohU40
  let gbrUl ← readNtohU40
  let gbrDl ← readNtohU40
  pure { qci, gbrQosInfo := { gbrDl, gbrUl, mbrDl, mbrUl } }

/-- A packet filter as the loop of `DeserializeBearerTft` reads it. -/
def deserializePacketFilter : Reader PacketFilter := do
  let direction ← octet
  let precedence ← octet
  let _ ← octet
  let _ ← octet
  let remoteAddress ← ntohU32
  let remoteMask ← ntohU32
  let _ ← octet
  let localAddress ← ntohU32
  let localMask ← ntohU32
  let _ ← octet
  let localPortStart ← ntohU16
  let localPortEnd ← ntohU16
  let _ ← octet
  let remotePortStart ← ntohU16
  let remotePortEnd ← ntohU16
  let _ ← octet
  let typeOfService ← octet
  let typeOfServiceMask ← octet
  pure { direction := Direction.ofValue ((direction &&& 0x30) >>> 4), precedence, remoteAddress,
         remoteMask, localAddress, localMask, localPortStart, localPortEnd, remotePortStart,
         remotePortEnd, typeOfService, typeOfServiceMask }

/-- The loop of `DeserializeBearerTft`; `Add` aborts behind 16 filters. -/
def addFilters : Nat → EpcTft → Reader EpcTft
  | 0, epcTft => pure epcTft
  | left + 1, epcTft => do
      let packetFilter ← deserializePacketFilter
      match epcTft.add packetFilter with
      | some next => addFilters left next
      | none => fun _ => none

def deserializeBearerTft (asserts : Bool) : Reader EpcTft := do
  let type ← octet
  ensure asserts (type == 84)
  let _ ← ntohU16
  let _ ← octet
  let numberOfPacketFilters ← octet
  addFilters (numberOfPacketFilters &&& 0x0f).toNat {}

def deserializeUliEcgi (asserts : Bool) : Reader UInt32 := do
  let type ← octet
  ensure asserts (type == 86)
  let length ← ntohU16
  ensure asserts (length == 8)
  let inst ← octet
  ensure asserts (inst &&& 0x0f == 0)
  let _ ← octet
  let _ ← octet
  let _ ← octet
  let _ ← octet
  let uliEcgi ← ntohU32
  pure (uliEcgi &&& 0x0fffffff)

def deserializeFteid (asserts : Bool) : Reader Fteid := do
  let type ← octet
  ensure asserts (type == 87)
  let length ← ntohU16
  ensure asserts (length == 9)
  let inst ← octet
  ensure asserts (inst &&& 0x0f == 0)
  let flags ← octet
  let teid ← ntohU32
  let addr ← ntohU32
  pure { interfaceType := InterfaceType.ofValue (flags &&& 0x1f), addr, teid }

def deserializeBearerContextHeader (asserts : Bool) : Reader UInt16 := do
  let type ← octet
  ensure asserts (type == 93)
  let length ← ntohU16
  let inst ← octet
  ensure asserts (inst &&& 0x0f == 0)
  pure length

/-- The body of the loop of `Deserialize`; the length is not used. -/
def deserializeBearerContext (asserts : Bool) : Reader BearerContextToBeCreated := do
  let _ ← deserializeBearerContextHeader asserts
  let epsBearerId ← deserializeEbi asserts
  let tft ← deserializeBearerTft asserts
  let sgwS5uFteid ← deserializeFteid asserts
  let bearerLevelQos ← deserializeBearerQos asserts
  pure { sgwS5uFteid, epsBearerId, tft, bearerLevelQos }

/-- The loop of `Deserialize`, which ends when nothing remains.  A turn takes octets, so there are no
more turns than octets. -/
def deserializeContexts (asserts : Bool) :
    Nat → List BearerContextToBeCreated → Reader (List BearerContextToBeCreated)
  | 0, contexts => fun bytes => if bytes = [] then some (contexts, []) else none
  | turns + 1, contexts => fun bytes =>
      if bytes = [] then some (contexts, [])
      else (deserializeBearerContext asserts bytes).bind fun read =>
        deserializeContexts asserts turns (contexts ++ [read.1]) read.2

/-- `Deserialize`: the message, and what was not read. -/
def deserialize (asserts : Bool) : Reader GtpcCreateSessionRequestMessage := do
  let header ← preDeserialize
  let imsi ← deserializeImsi asserts
  let uliEcgi ← deserializeUliEcgi asserts
  let senderCpFteid ← deserializeFteid asserts
  let bytes ← get
  let bearerContextsToBeCreated ← deserializeContexts asserts bytes.length []
  pure { header, imsi, uliEcgi, senderCpFteid, bearerContextsToBeCreated }

end DeepcV2x.Epc
