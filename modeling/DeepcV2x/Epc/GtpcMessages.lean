import DeepcV2x.Epc.GtpcRoundTrip

/-!
# The other GTP-C messages

The messages of `epc-gtpc-header.cc` besides the Create Session Request, with the
information element they add, and how a node tells them apart by the type in their
header.  A message is read up to the end of its packet.
-/

namespace DeepcV2x.Epc

open Foundation.Octets

/-! ## Data -/

/-- `GtpcIes::Cause_t`, with the values it does not list. -/
inductive Cause
  | reserved
  | requestAccepted
  | unlisted (value : UInt8)
  deriving DecidableEq, Repr

namespace Cause

def value : Cause → UInt8
  | reserved => 0
  | requestAccepted => 16
  | unlisted value => value

def ofValue (value : UInt8) : Cause :=
  if value = 0 then reserved else if value = 16 then requestAccepted else unlisted value

def Listed (cause : Cause) : Prop := ∀ value, cause ≠ unlisted value

theorem ofValue_sent {cause : Cause} (listed : cause.Listed) : ofValue cause.value = cause := by
  cases cause with
  | unlisted value => exact absurd rfl (listed value)
  | _ => rfl

end Cause

/-- The members of `BearerContextCreated` that are written; its cause is not. -/
structure BearerContextCreated where
  epsBearerId : UInt8
  tft : EpcTft
  fteid : Fteid
  bearerLevelQos : EpsBearer
  deriving DecidableEq

structure GtpcCreateSessionResponseMessage where
  header : GtpcHeader
  cause : Cause
  senderCpFteid : Fteid
  bearerContextsCreated : List BearerContextCreated
  deriving DecidableEq

structure BearerContextToBeModified where
  epsBearerId : UInt8
  fteid : Fteid
  deriving DecidableEq, Repr

structure GtpcModifyBearerRequestMessage where
  header : GtpcHeader
  imsi : UInt64
  uliEcgi : UInt32
  bearerContextsToBeModified : List BearerContextToBeModified
  deriving DecidableEq, Repr

structure GtpcModifyBearerResponseMessage where
  header : GtpcHeader
  cause : Cause
  deriving DecidableEq, Repr

/-- The bearer contexts hold the id only. -/
structure GtpcDeleteBearerCommandMessage where
  header : GtpcHeader
  bearerContexts : List UInt8
  deriving DecidableEq, Repr

structure GtpcDeleteBearerRequestMessage where
  header : GtpcHeader
  epsBearerIds : List UInt8
  deriving DecidableEq, Repr

structure GtpcDeleteBearerResponseMessage where
  header : GtpcHeader
  cause : Cause
  epsBearerIds : List UInt8
  deriving DecidableEq, Repr

/-! ## Sizes -/

def serializedSizeCause : Nat := 6

/-- The context as a request writes it, with the same members. -/
def BearerContextCreated.requested (bc : BearerContextCreated) : BearerContextToBeCreated :=
  { sgwS5uFteid := bc.fteid, epsBearerId := bc.epsBearerId, tft := bc.tft,
    bearerLevelQos := bc.bearerLevelQos }

def BearerContextToBeCreated.created (bc : BearerContextToBeCreated) : BearerContextCreated :=
  { epsBearerId := bc.epsBearerId, tft := bc.tft, fteid := bc.sgwS5uFteid,
    bearerLevelQos := bc.bearerLevelQos }

/-- `GetMessageSize`, a sum of 32 bits. -/
def GtpcCreateSessionResponseMessage.getMessageSize (message : GtpcCreateSessionResponseMessage) :
    Nat :=
  message.bearerContextsCreated.foldl (fun size bc => (size + bc.requested.size) % 4294967296)
    (serializedSizeCause + serializedSizeFteid)

def GtpcModifyBearerRequestMessage.getMessageSize (message : GtpcModifyBearerRequestMessage) : Nat :=
  (serializedSizeImsi + serializedSizeUliEcgi + message.bearerContextsToBeModified.length *
    (serializedSizeBearerContextHeader + serializedSizeEbi + serializedSizeFteid)) % 4294967296

def GtpcDeleteBearerCommandMessage.getMessageSize (message : GtpcDeleteBearerCommandMessage) : Nat :=
  message.bearerContexts.length * (serializedSizeBearerContextHeader + serializedSizeEbi) %
    4294967296

def GtpcDeleteBearerRequestMessage.getMessageSize (message : GtpcDeleteBearerRequestMessage) : Nat :=
  message.epsBearerIds.length * serializedSizeEbi % 4294967296

def GtpcDeleteBearerResponseMessage.getMessageSize (message : GtpcDeleteBearerResponseMessage) :
    Nat :=
  (serializedSizeCause + message.epsBearerIds.length * serializedSizeEbi) % 4294967296

/-! ## Writing -/

def serializeCause (cause : Cause) : List (List UInt8) :=
  [writeU8 2, htonU16 2, writeU8 0, [cause.value], writeU8 0]

def GtpcCreateSessionResponseMessage.serialize (message : GtpcCreateSessionResponseMessage) :
    List UInt8 :=
  message.header.preSerialize.flatten ++ (serializeCause message.cause).flatten ++
    (serializeFteid message.senderCpFteid).flatten ++
    (message.bearerContextsCreated.map fun bc => bc.requested.serialize).flatten

def BearerContextToBeModified.serialize (bc : BearerContextToBeModified) : List UInt8 :=
  (serializeBearerContextHeader (UInt16.ofNat (serializedSizeEbi + serializedSizeFteid))).flatten ++
    (serializeEbi bc.epsBearerId).flatten ++ (serializeFteid bc.fteid).flatten

def GtpcModifyBearerRequestMessage.serialize (message : GtpcModifyBearerRequestMessage) :
    List UInt8 :=
  message.header.preSerialize.flatten ++ (serializeImsi message.imsi).flatten ++
    (serializeUliEcgi message.uliEcgi).flatten ++
    (message.bearerContextsToBeModified.map BearerContextToBeModified.serialize).flatten

def GtpcModifyBearerResponseMessage.serialize (message : GtpcModifyBearerResponseMessage) :
    List UInt8 :=
  message.header.preSerialize.flatten ++ (serializeCause message.cause).flatten

/-- A bearer context with an id only. -/
def serializeBearerContext (epsBearerId : UInt8) : List UInt8 :=
  (serializeBearerContextHeader (UInt16.ofNat serializedSizeEbi)).flatten ++
    (serializeEbi epsBearerId).flatten

def GtpcDeleteBearerCommandMessage.serialize (message : GtpcDeleteBearerCommandMessage) :
    List UInt8 :=
  message.header.preSerialize.flatten ++ (message.bearerContexts.map serializeBearerContext).flatten

/-- The ids one behind the other. -/
def serializeEbis (epsBearerIds : List UInt8) : List UInt8 :=
  (epsBearerIds.map fun epsBearerId => (serializeEbi epsBearerId).flatten).flatten

def GtpcDeleteBearerRequestMessage.serialize (message : GtpcDeleteBearerRequestMessage) :
    List UInt8 :=
  message.header.preSerialize.flatten ++ serializeEbis message.epsBearerIds

def GtpcDeleteBearerResponseMessage.serialize (message : GtpcDeleteBearerResponseMessage) :
    List UInt8 :=
  message.header.preSerialize.flatten ++ (serializeCause message.cause).flatten ++
    serializeEbis message.epsBearerIds

/-! ## Reading -/

section Reading

variable (asserts : Bool)

def deserializeCause : Reader Cause := do
  let type ← octet
  ensure asserts (type == 2)
  let length ← ntohU16
  ensure asserts (length == 2)
  let inst ← octet
  ensure asserts (inst &&& 0x0f == 0)
  let cause ← octet
  let _ ← octet
  pure (Cause.ofValue cause)

/-- What remains of the packet, as items; a turn takes octets. -/
def readRest {α : Type} (item : Reader α) : Reader (List α) := fun bytes =>
  readToEnd item bytes.length [] bytes

def GtpcCreateSessionResponseMessage.deserialize : Reader GtpcCreateSessionResponseMessage := do
  let header ← preDeserialize
  let cause ← deserializeCause asserts
  let senderCpFteid ← deserializeFteid asserts
  let bytes ← get
  let contexts ← deserializeContexts asserts bytes.length []
  pure { header, cause, senderCpFteid,
         bearerContextsCreated := contexts.map BearerContextToBeCreated.created }

def deserializeBearerContextToBeModified : Reader BearerContextToBeModified := do
  let _ ← deserializeBearerContextHeader asserts
  let epsBearerId ← deserializeEbi asserts
  let fteid ← deserializeFteid asserts
  pure { epsBearerId, fteid }

def GtpcModifyBearerRequestMessage.deserialize : Reader GtpcModifyBearerRequestMessage := do
  let header ← preDeserialize
  let imsi ← deserializeImsi asserts
  let uliEcgi ← deserializeUliEcgi asserts
  let bearerContextsToBeModified ← readRest (deserializeBearerContextToBeModified asserts)
  pure { header, imsi, uliEcgi, bearerContextsToBeModified }

def GtpcModifyBearerResponseMessage.deserialize : Reader GtpcModifyBearerResponseMessage := do
  let header ← preDeserialize
  let cause ← deserializeCause asserts
  pure { header, cause }

def deserializeContextId : Reader UInt8 := do
  let _ ← deserializeBearerContextHeader asserts
  deserializeEbi asserts

def GtpcDeleteBearerCommandMessage.deserialize : Reader GtpcDeleteBearerCommandMessage := do
  let header ← preDeserialize
  let bearerContexts ← readRest (deserializeContextId asserts)
  pure { header, bearerContexts }

def GtpcDeleteBearerRequestMessage.deserialize : Reader GtpcDeleteBearerRequestMessage := do
  let header ← preDeserialize
  let epsBearerIds ← readRest (deserializeEbi asserts)
  pure { header, epsBearerIds }

def GtpcDeleteBearerResponseMessage.deserialize : Reader GtpcDeleteBearerResponseMessage := do
  let header ← preDeserialize
  let cause ← deserializeCause asserts
  let epsBearerIds ← readRest (deserializeEbi asserts)
  pure { header, cause, epsBearerIds }

end Reading

/-! ## All messages -/

/-- A message of one of the types that the nodes send. -/
inductive GtpcMessage
  | createSessionRequest (message : GtpcCreateSessionRequestMessage)
  | createSessionResponse (message : GtpcCreateSessionResponseMessage)
  | modifyBearerRequest (message : GtpcModifyBearerRequestMessage)
  | modifyBearerResponse (message : GtpcModifyBearerResponseMessage)
  | deleteBearerCommand (message : GtpcDeleteBearerCommandMessage)
  | deleteBearerRequest (message : GtpcDeleteBearerRequestMessage)
  | deleteBearerResponse (message : GtpcDeleteBearerResponseMessage)
  deriving DecidableEq

namespace GtpcMessage

def header : GtpcMessage → GtpcHeader
  | createSessionRequest message => message.header
  | createSessionResponse message => message.header
  | modifyBearerRequest message => message.header
  | modifyBearerResponse message => message.header
  | deleteBearerCommand message => message.header
  | deleteBearerRequest message => message.header
  | deleteBearerResponse message => message.header

/-- The type that the constructor of a message puts into its header. -/
def messageType : GtpcMessage → UInt8
  | createSessionRequest _ => 32
  | createSessionResponse _ => 33
  | modifyBearerRequest _ => 34
  | modifyBearerResponse _ => 35
  | deleteBearerCommand _ => 66
  | deleteBearerRequest _ => 99
  | deleteBearerResponse _ => 100

def getMessageSize : GtpcMessage → Nat
  | createSessionRequest message => message.getMessageSize
  | createSessionResponse message => message.getMessageSize
  | modifyBearerRequest message => message.getMessageSize
  | modifyBearerResponse _ => serializedSizeCause
  | deleteBearerCommand message => message.getMessageSize
  | deleteBearerRequest message => message.getMessageSize
  | deleteBearerResponse message => message.getMessageSize

/-- `GetSerializedSize`, a sum of 32 bits. -/
def getSerializedSize (message : GtpcMessage) : Nat :=
  (message.header.getSerializedSize + message.getMessageSize) % 4294967296

def serialize : GtpcMessage → List UInt8
  | createSessionRequest message => message.serialize
  | createSessionResponse message => message.serialize
  | modifyBearerRequest message => message.serialize
  | modifyBearerResponse message => message.serialize
  | deleteBearerCommand message => message.serialize
  | deleteBearerRequest message => message.serialize
  | deleteBearerResponse message => message.serialize

/-- The message of a type; another type is fatal. -/
def readAs (asserts : Bool) (messageType : UInt8) : Reader GtpcMessage :=
  if messageType = 32 then createSessionRequest <$> Epc.deserialize asserts
  else if messageType = 33 then
    createSessionResponse <$> GtpcCreateSessionResponseMessage.deserialize asserts
  else if messageType = 34 then
    modifyBearerRequest <$> GtpcModifyBearerRequestMessage.deserialize asserts
  else if messageType = 35 then
    modifyBearerResponse <$> GtpcModifyBearerResponseMessage.deserialize asserts
  else if messageType = 66 then
    deleteBearerCommand <$> GtpcDeleteBearerCommandMessage.deserialize asserts
  else if messageType = 99 then
    deleteBearerRequest <$> GtpcDeleteBearerRequestMessage.deserialize asserts
  else if messageType = 100 then
    deleteBearerResponse <$> GtpcDeleteBearerResponseMessage.deserialize asserts
  else fun _ => none

/-- `PeekHeader`, then `RemoveHeader` for the class of the type. -/
def receive (asserts : Bool) (bytes : List UInt8) : Option (GtpcMessage × List UInt8) :=
  (preDeserialize bytes).bind fun read => readAs asserts read.1.messageType bytes

end GtpcMessage

end DeepcV2x.Epc
