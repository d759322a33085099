import DeepcV2x.Epc.GtpcMessages

/-!
# The round trip of the GTP-C messages

A node that receives what another one has serialized finds the same message, as far
as the header has a TEID and the bearer contexts of a session can be carried: what
is read up to the end of a packet is what was written there.
-/

namespace DeepcV2x.Epc

open Foundation.Octets

/-! ## Items -/

section Items

variable (asserts : Bool)

theorem reads_cause {cause : Cause} (listed : cause.Listed) :
    Reads (deserializeCause asserts) (serializeCause cause).flatten cause := by
  refine (reads_octet 2).cons <| .ensure rfl <| (reads_ntohU16 2).cons <| .ensure rfl <|
    (reads_octet 0).cons <| .ensure rfl <| (reads_octet _).cons <| (reads_octet 0).cons ?_
  rw [Cause.ofValue_sent listed]
  exact .pure cause

/-- What remains is read as the items that were written. -/
theorem readRest_spec {α : Type} {item : Reader α} {write : α → List UInt8} {elements : List α}
    (hsome : ∀ element, write element ≠ [])
    (hall : ∀ element ∈ elements, Reads item (write element) element) :
    readRest item (elements.map write).flatten = some (elements, []) :=
  readToEnd_spec hsome (length_le_flatten hsome elements) hall

theorem reads_contextToBeModified {bc : BearerContextToBeModified} (hlt : bc.epsBearerId < 16)
    (listed : bc.fteid.interfaceType.Listed) :
    Reads (deserializeBearerContextToBeModified asserts) bc.serialize bc := by
  obtain ⟨length, hlength⟩ := reads_bearerContextHeader asserts
    (UInt16.ofNat (serializedSizeEbi + serializedSizeFteid))
  intro rest
  rw [BearerContextToBeModified.serialize, List.append_assoc, List.append_assoc,
    deserializeBearerContextToBeModified, bind_of_eq (hlength _),
    bind_of_eq (reads_ebi asserts hlt _), bind_of_eq (reads_fteid asserts listed _)]
  rfl

theorem reads_contextId {epsBearerId : UInt8} (hlt : epsBearerId < 16) :
    Reads (deserializeContextId asserts) (serializeBearerContext epsBearerId) epsBearerId := by
  obtain ⟨length, hlength⟩ := reads_bearerContextHeader asserts (UInt16.ofNat serializedSizeEbi)
  intro rest
  rw [serializeBearerContext, List.append_assoc, deserializeContextId, bind_of_eq (hlength _),
    reads_ebi asserts hlt _]

theorem readRest_ebis {epsBearerIds : List UInt8} (hall : ∀ id ∈ epsBearerIds, id < 16) :
    readRest (deserializeEbi asserts) (serializeEbis epsBearerIds) = some (epsBearerIds, []) :=
  readRest_spec (fun _ => List.cons_ne_nil _ _) fun id hid => reads_ebi asserts (hall id hid)

end Items

/-! ## Messages -/

/-- The header as it is read. -/
def GtpcHeader.received (header : GtpcHeader) : GtpcHeader := { header with teidFlag := true }

theorem GtpcHeader.received_eq_iff {header : GtpcHeader} :
    header.received = header ↔ header.teidFlag = true := by
  constructor
  · exact fun hsame => (congrArg GtpcHeader.teidFlag hsame).symm
  · intro hflag
    rw [received, ← hflag]

section Messages

variable (asserts : Bool)

theorem deserialize_createSessionResponse {message : GtpcCreateSessionResponseMessage}
    (hsequence : message.header.sequenceNumber < 16777216) (hcause : message.cause.Listed)
    (hfteid : message.senderCpFteid.interfaceType.Listed) :
    GtpcCreateSessionResponseMessage.deserialize asserts message.serialize =
      (deserializeContexts asserts
        (message.bearerContextsCreated.map fun bc => bc.requested.serialize).flatten.length []
        (message.bearerContextsCreated.map fun bc => bc.requested.serialize).flatten).map
        fun read => ({ message with
          header := message.header.received
          bearerContextsCreated := read.1.map BearerContextToBeCreated.created }, read.2) := by
  rw [GtpcCreateSessionResponseMessage.serialize, List.append_assoc, List.append_assoc,
    GtpcCreateSessionResponseMessage.deserialize, bind_of_eq (reads_preSerialize hsequence _),
    bind_of_eq (reads_cause asserts hcause _), bind_of_eq (reads_fteid asserts hfteid _)]
  exact Option.map_eq_bind.symm

theorem deserialize_modifyBearerRequest {message : GtpcModifyBearerRequestMessage}
    (hsequence : message.header.sequenceNumber < 16777216) (hecgi : message.uliEcgi.toNat < 2 ^ 28)
    (hall : ∀ bc ∈ message.bearerContextsToBeModified,
      bc.epsBearerId < 16 ∧ bc.fteid.interfaceType.Listed) :
    GtpcModifyBearerRequestMessage.deserialize asserts message.serialize =
      some ({ message with header := message.header.received }, []) := by
  have hitems := @readRest_spec _ (deserializeBearerContextToBeModified asserts)
    BearerContextToBeModified.serialize _
    (fun _ => List.cons_ne_nil _ _)
    fun bc hbc => reads_contextToBeModified asserts (hall bc hbc).1 (hall bc hbc).2
  rw [GtpcModifyBearerRequestMessage.serialize, List.append_assoc, List.append_assoc,
    GtpcModifyBearerRequestMessage.deserialize, bind_of_eq (reads_preSerialize hsequence _),
    bind_of_eq (reads_imsi asserts _ _), bind_of_eq (reads_uliEcgi asserts hecgi _),
    bind_of_eq hitems]
  rfl

theorem deserialize_modifyBearerResponse {message : GtpcModifyBearerResponseMessage}
    (hsequence : message.header.sequenceNumber < 16777216) (hcause : message.cause.Listed) :
    GtpcModifyBearerResponseMessage.deserialize asserts message.serialize =
      some ({ message with header := message.header.received }, []) := by
  have hread := reads_cause asserts hcause []
  rw [List.append_nil] at hread
  rw [GtpcModifyBearerResponseMessage.serialize, GtpcModifyBearerResponseMessage.deserialize,
    bind_of_eq (reads_preSerialize hsequence _), bind_of_eq hread]
  rfl

theorem deserialize_deleteBearerCommand {message : GtpcDeleteBearerCommandMessage}
    (hsequence : message.header.sequenceNumber < 16777216)
    (hall : ∀ id ∈ message.bearerContexts, id < 16) :
    GtpcDeleteBearerCommandMessage.deserialize asserts message.serialize =
      some ({ message with header := message.header.received }, []) := by
  have hitems := @readRest_spec _ (deserializeContextId asserts) serializeBearerContext _
    (fun _ => List.cons_ne_nil _ _) fun id hid => reads_contextId asserts (hall id hid)
  rw [GtpcDeleteBearerCommandMessage.serialize, GtpcDeleteBearerCommandMessage.deserialize,
    bind_of_eq (reads_preSerialize hsequence _), bind_of_eq hitems]
  rfl

theorem deserialize_deleteBearerRequest {message : GtpcDeleteBearerRequestMessage}
    (hsequence : message.header.sequenceNumber < 16777216)
    (hall : ∀ id ∈ message.epsBearerIds, id < 16) :
    GtpcDeleteBearerRequestMessage.deserialize asserts message.serialize =
      some ({ message with header := message.header.received }, []) := by
  rw [GtpcDeleteBearerRequestMessage.serialize, GtpcDeleteBearerRequestMessage.deserialize,
    bind_of_eq (reads_preSerialize hsequence _), bind_of_eq (readRest_ebis asserts hall)]
  rfl

theorem deserialize_deleteBearerResponse {message : GtpcDeleteBearerResponseMessage}
    (hsequence : message.header.sequenceNumber < 16777216) (hcause : message.cause.Listed)
    (hall : ∀ id ∈ message.epsBearerIds, id < 16) :
    GtpcDeleteBearerResponseMessage.deserialize asserts message.serialize =
      some ({ message with header := message.header.received }, []) := by
  rw [GtpcDeleteBearerResponseMessage.serialize, List.append_assoc,
    GtpcDeleteBearerResponseMessage.deserialize, bind_of_eq (reads_preSerialize hsequence _),
    bind_of_eq (reads_cause asserts hcause _), bind_of_eq (readRest_ebis asserts hall)]
  rfl

end Messages

/-! ## Receiving -/

namespace GtpcMessage

/-- What the members of a message may hold. -/
def InRange : GtpcMessage → Prop
  | createSessionRequest message => message.InRange
  | createSessionResponse message => message.cause.Listed ∧
      message.senderCpFteid.interfaceType.Listed ∧
      ∀ bc ∈ message.bearerContextsCreated, bc.requested.InRange
  | modifyBearerRequest message => message.uliEcgi.toNat < 2 ^ 28 ∧
      ∀ bc ∈ message.bearerContextsToBeModified,
        bc.epsBearerId < 16 ∧ bc.fteid.interfaceType.Listed
  | modifyBearerResponse message => message.cause.Listed
  | deleteBearerCommand message => ∀ id ∈ message.bearerContexts, id < 16
  | deleteBearerRequest message => ∀ id ∈ message.epsBearerIds, id < 16
  | deleteBearerResponse message => message.cause.Listed ∧ ∀ id ∈ message.epsBearerIds, id < 16

/-- A message with the type of its class and a sequence number of 24 bits. -/
structure Fits (message : GtpcMessage) : Prop where
  inRange : message.InRange
  messageType : message.header.messageType = message.messageType
  sequenceNumber : message.header.sequenceNumber < 16777216

/-- The bearer contexts of a session have at most 15 packet filters each, none for IPv6. -/
def Carried : GtpcMessage → Prop
  | createSessionRequest message => ∀ bc ∈ message.bearerContextsToBeCreated, bc.Carried
  | createSessionResponse message => ∀ bc ∈ message.bearerContextsCreated, bc.requested.Carried
  | _ => True

/-- The header comes first. -/
theorem exists_body (message : GtpcMessage) :
    ∃ body, message.serialize = message.header.preSerialize.flatten ++ body := by
  cases message with
  | createSessionResponse message =>
      exact ⟨_, (List.append_assoc _ _ _).trans (List.append_assoc _ _ _)⟩
  | modifyBearerRequest message =>
      exact ⟨_, (List.append_assoc _ _ _).trans (List.append_assoc _ _ _)⟩
  | deleteBearerResponse message => exact ⟨_, List.append_assoc _ _ _⟩
  | createSessionRequest message => exact ⟨_, rfl⟩
  | modifyBearerResponse message => exact ⟨_, rfl⟩
  | deleteBearerCommand message => exact ⟨_, rfl⟩
  | deleteBearerRequest message => exact ⟨_, rfl⟩

/-- The type in the header decides what is read. -/
theorem receive_serialize (asserts : Bool) {message : GtpcMessage} (fits : message.Fits) :
    receive asserts message.serialize = readAs asserts message.messageType message.serialize := by
  obtain ⟨body, hbody⟩ := message.exists_body
  have hpeek := reads_preSerialize fits.sequenceNumber body
  rw [← hbody] at hpeek
  rw [receive, hpeek, Option.bind_some]
  exact congrArg (fun type => readAs asserts type message.serialize) fits.messageType

/-- A message that is read as one of a class is received as that class. -/
theorem map_eq_some_iff {α : Type} {reader : Reader α} {bytes : List UInt8} {wrap : α → GtpcMessage}
    (hinj : Function.Injective wrap) {value : α} :
    (wrap <$> reader) bytes = some (wrap value, []) ↔ reader bytes = some (value, []) := by
  change (reader bytes).bind (fun read => some (wrap read.1, read.2)) = _ ↔ _
  rw [Option.bind_eq_some_iff]
  constructor
  · rintro ⟨⟨read, rest⟩, hread, hsame⟩
    obtain ⟨hvalue, hrest⟩ := Prod.mk.inj (Option.some.inj hsame)
    obtain rfl : read = value := hinj hvalue
    obtain rfl : rest = [] := hrest
    exact hread
  · exact fun hread => ⟨(value, []), hread, rfl⟩

theorem created_requested (contexts : List BearerContextCreated) :
    (contexts.map BearerContextCreated.requested).map BearerContextToBeCreated.created = contexts := by
  rw [List.map_map]
  exact List.map_id contexts

theorem createSessionResponse_iff (asserts : Bool) {message : GtpcCreateSessionResponseMessage}
    (inRange : (createSessionResponse message).InRange)
    (hsequence : message.header.sequenceNumber < 16777216) :
    GtpcCreateSessionResponseMessage.deserialize asserts message.serialize = some (message, []) ↔
      message.header.teidFlag = true ∧ ∀ bc ∈ message.bearerContextsCreated, bc.requested.Carried := by
  obtain ⟨hcause, hfteid, hcontexts⟩ := inRange
  have hbytes : message.bearerContextsCreated.map (fun bc => bc.requested.serialize) =
      (message.bearerContextsCreated.map BearerContextCreated.requested).map
        BearerContextToBeCreated.serialize := by
    rw [List.map_map]
    rfl
  have hall : ∀ bc ∈ message.bearerContextsCreated.map BearerContextCreated.requested, bc.InRange :=
    List.forall_mem_map.mpr hcontexts
  rw [deserialize_createSessionResponse asserts hsequence hcause hfteid, hbytes]
  constructor
  · intro hread
    obtain ⟨⟨contexts, behind⟩, hread, hsame⟩ := Option.map_eq_some_iff.mp hread
    obtain ⟨hmessage, hbehind⟩ := Prod.mk.inj (Option.some.inj (congrArg some hsame))
    have hlist : contexts.map BearerContextToBeCreated.created = message.bearerContextsCreated :=
      congrArg GtpcCreateSessionResponseMessage.bearerContextsCreated hmessage
    have hcreated : contexts = message.bearerContextsCreated.map BearerContextCreated.requested := by
      rw [← hlist, List.map_map]
      exact (List.map_id contexts).symm
    rw [hcreated] at hread
    refine ⟨?_, ?_⟩
    · exact GtpcHeader.received_eq_iff.mp
        (congrArg GtpcCreateSessionResponseMessage.header hmessage)
    · exact List.forall_mem_map.mp (carried_of_deserializeContexts asserts hall hread)
  · rintro ⟨hflag, hcarried⟩
    rw [deserializeContexts_spec asserts
      (GtpcCreateSessionRequestMessage.length_le_contextBytes _)
      fun bc hbc => ⟨hall bc hbc, List.forall_mem_map.mpr hcarried bc hbc⟩, Option.map_some,
      List.nil_append, created_requested, GtpcHeader.received_eq_iff.mpr hflag]

/-- A message whose members are read back but for the flag of the TEID. -/
theorem some_received_iff {α : Type} {header : GtpcHeader} (value : α) (rebuild : GtpcHeader → α)
    (hvalue : rebuild header = value) (hheader : Function.Injective rebuild) :
    some (rebuild header.received, ([] : List UInt8)) = some (value, []) ↔
      header.teidFlag = true ∧ True := by
  rw [and_true]
  rw [← GtpcHeader.received_eq_iff, ← hvalue]
  constructor
  · exact fun hsame => hheader (Prod.mk.inj (Option.some.inj hsame)).1
  · exact fun hsame => by rw [hsame]

/-! ### Sizes -/

/-- Items of one size each, behind a header of 12 octets and other elements. -/
theorem counted_items {α : Type} {write : α → List UInt8} {size before : Nat} {front : List UInt8}
    (hfront : front.length = 12 + before) (hsize : ∀ element, (write element).length = size)
    (elements : List α) :
    (before + elements.length * size) % 4294967296 =
      ((front ++ (elements.map write).flatten).length - 12) % 4294967296 := by
  have hitems : (elements.map write).flatten.length = elements.length * size := by
    induction elements with
    | nil => exact (Nat.zero_mul size).symm
    | cons element rest ih =>
        rw [List.map_cons, List.flatten_cons, List.length_append, hsize, ih, List.length_cons,
          Nat.succ_mul, Nat.add_comm]
  rw [List.length_append, hfront, hitems, Nat.add_assoc, Nat.add_sub_cancel_left]

theorem getMessageSize_createSessionResponse (message : GtpcCreateSessionResponseMessage) :
    message.getMessageSize = (message.serialize.length - 12) % 4294967296 := by
  have hsum : ∀ (contexts : List BearerContextCreated) (before : Nat),
      contexts.foldl (fun size bc => (size + bc.requested.size) % 4294967296)
          (before % 4294967296) =
        (before + (contexts.map fun bc => bc.requested.serialize).flatten.length) %
          4294967296 := by
    intro contexts
    induction contexts with
    | nil => exact fun before => by rw [List.foldl_nil, List.map_nil, List.flatten_nil]; rfl
    | cons bc rest ih =>
        intro before
        rw [List.foldl_cons, Nat.mod_add_mod, ih, List.map_cons, List.flatten_cons,
          List.length_append, bc.requested.length_serialize, Nat.add_assoc]
  have hlength : message.serialize.length =
      12 + 6 + 13 + (message.bearerContextsCreated.map fun bc => bc.requested.serialize).flatten.length := by
    rw [GtpcCreateSessionResponseMessage.serialize, List.length_append, List.length_append,
      List.length_append]
    rfl
  have hfold := hsum message.bearerContextsCreated 19
  rw [hlength, Nat.add_assoc, Nat.add_assoc, Nat.add_sub_cancel_left, ← Nat.add_assoc]
  exact hfold

/-- The octets of a message behind its header are what its class counts. -/
theorem getMessageSize_eq (message : GtpcMessage) :
    message.getMessageSize = (message.serialize.length - 12) % 4294967296 := by
  cases message with
  | createSessionRequest message =>
      rw [serialize, GtpcCreateSessionRequestMessage.length_serialize]
      refine message.getMessageSize_eq.trans (congrArg (· % 4294967296) ?_)
      omega
  | createSessionResponse message => exact getMessageSize_createSessionResponse message
  | modifyBearerRequest message =>
      exact @counted_items _ BearerContextToBeModified.serialize 22 24
        (message.header.preSerialize.flatten ++ (serializeImsi message.imsi).flatten ++
          (serializeUliEcgi message.uliEcgi).flatten) rfl (fun _ => rfl) _
  | modifyBearerResponse message => rfl
  | deleteBearerCommand message =>
      have hcount := @counted_items _ serializeBearerContext 9 0
        message.header.preSerialize.flatten rfl (fun _ => rfl) message.bearerContexts
      rwa [Nat.zero_add] at hcount
  | deleteBearerRequest message =>
      have hcount := @counted_items _ (fun id => (serializeEbi id).flatten) 5 0
        message.header.preSerialize.flatten rfl (fun _ => rfl) message.epsBearerIds
      rwa [Nat.zero_add] at hcount
  | deleteBearerResponse message =>
      exact @counted_items _ (fun id => (serializeEbi id).flatten) 5 6
        (message.header.preSerialize.flatten ++ (serializeCause message.cause).flatten) rfl
        (fun _ => rfl) _

theorem receive_serialize_iff (asserts : Bool) {message : GtpcMessage} (fits : message.Fits) :
    receive asserts message.serialize = some (message, []) ↔
      message.header.teidFlag = true ∧ message.Carried := by
  rw [receive_serialize asserts fits]
  have inRange := fits.inRange
  have hsequence := fits.sequenceNumber
  cases message with
  | createSessionRequest message =>
      have hread := GtpcCreateSessionRequestMessage.roundTrip_iff asserts inRange
      exact (map_eq_some_iff fun _ _ => createSessionRequest.inj).trans hread
  | createSessionResponse message =>
      have hread := createSessionResponse_iff asserts inRange hsequence
      exact (map_eq_some_iff fun _ _ => createSessionResponse.inj).trans hread
  | modifyBearerRequest message =>
      refine (map_eq_some_iff fun _ _ => modifyBearerRequest.inj).trans ?_
      rw [serialize, deserialize_modifyBearerRequest asserts hsequence inRange.1 inRange.2]
      exact some_received_iff message (fun header => { message with header }) rfl
        fun _ _ => congrArg GtpcModifyBearerRequestMessage.header
  | modifyBearerResponse message =>
      refine (map_eq_some_iff fun _ _ => modifyBearerResponse.inj).trans ?_
      rw [serialize, deserialize_modifyBearerResponse asserts hsequence inRange]
      exact some_received_iff message (fun header => { message with header }) rfl
        fun _ _ => congrArg GtpcModifyBearerResponseMessage.header
  | deleteBearerCommand message =>
      refine (map_eq_some_iff fun _ _ => deleteBearerCommand.inj).trans ?_
      rw [serialize, deserialize_deleteBearerCommand asserts hsequence inRange]
      exact some_received_iff message (fun header => { message with header }) rfl
        fun _ _ => congrArg GtpcDeleteBearerCommandMessage.header
  | deleteBearerRequest message =>
      refine (map_eq_some_iff fun _ _ => deleteBearerRequest.inj).trans ?_
      rw [serialize, deserialize_deleteBearerRequest asserts hsequence inRange]
      exact some_received_iff message (fun header => { message with header }) rfl
        fun _ _ => congrArg GtpcDeleteBearerRequestMessage.header
  | deleteBearerResponse message =>
      refine (map_eq_some_iff fun _ _ => deleteBearerResponse.inj).trans ?_
      rw [serialize, deserialize_deleteBearerResponse asserts hsequence inRange.1 inRange.2]
      exact some_received_iff message (fun header => { message with header }) rfl
        fun _ _ => congrArg GtpcDeleteBearerResponseMessage.header

/-- The size that is reserved for a message is the size of what is written. -/
theorem getSerializedSize_iff (message : GtpcMessage) :
    message.serialize.length = message.getSerializedSize ↔
      message.header.teidFlag = true ∧ message.serialize.length < 4294967296 := by
  obtain ⟨body, hbody⟩ := message.exists_body
  have hlength : message.serialize.length = 12 + body.length := by
    rw [hbody, List.length_append]
    rfl
  rw [getSerializedSize, getMessageSize_eq, hlength, GtpcHeader.getSerializedSize]
  cases message.header.teidFlag with
  | false =>
      rw [if_neg Bool.false_ne_true]
      refine iff_of_false ?_ fun hset => Bool.false_ne_true hset.1
      omega
  | true =>
      rw [if_pos rfl, and_iff_right rfl]
      omega

/-- An answer to a session with one bearer for all packets. -/
def oneBearer : GtpcMessage :=
  createSessionResponse
    { header := ⟨true, 33, 100, 7, 0⟩
      cause := .requestAccepted
      senderCpFteid := ⟨.s5SgwGtpc, 167772161, 3⟩
      bearerContextsCreated := [⟨5, ⟨[{}], 1⟩, ⟨.s5SgwGtpu, 167772162, 4⟩, ⟨9, {}⟩⟩] }

end GtpcMessage

end DeepcV2x.Epc
