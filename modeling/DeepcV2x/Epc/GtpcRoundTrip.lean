import DeepcV2x.Epc.Gtpc

/-!
# The round trip of the Create Session Request

Every information element is read back from what was written.  The message as
a whole is not: the length of a bearer context is written with the wrong octet
first, the number of filters has four bits for up to 16 filters, and the header
has a TEID that its size leaves out when none was set.
-/

namespace DeepcV2x.Epc

open Foundation.Octets

/-! ## Octets -/

theorem and_of_lt {value : UInt8} (hlt : value < 16) : value &&& 0x0f = value := by
  refine UInt8.toNat_inj.mp ?_
  rw [UInt8.toNat_and]
  exact Nat.and_two_pow_sub_one_of_lt_two_pow (n := 4) (UInt8.lt_iff_toNat_lt.mp hlt)

theorem InterfaceType.ofValue_sent {interfaceType : InterfaceType} (listed : interfaceType.Listed) :
    InterfaceType.ofValue ((0x80 ||| interfaceType.value &&& 0x1f) &&& 0x1f) = interfaceType := by
  cases interfaceType with
  | unlisted value => exact absurd rfl (listed value)
  | _ => rfl

theorem Direction.ofValue_sent (direction : Direction) :
    Direction.ofValue (((direction.value <<< 4 &&& 0x30) &&& 0x30) >>> 4) = direction := by
  cases direction <;> rfl

/-- One octet of a number. -/
theorem octetOf {value : Nat} (shift : Nat) :
    (value &&& 255 <<< shift) >>> shift = value / 2 ^ shift % 256 := by
  rw [Nat.shiftRight_and_distrib, Nat.shiftLeft_shiftRight, Nat.shiftRight_eq_div_pow]
  exact Nat.and_two_pow_sub_one_eq_mod _ 8

theorem or_octets {high middle low : Nat} (hmiddle : middle < 256) (hlow : low < 256) :
    high <<< 16 ||| middle <<< 8 ||| low = (high * 256 + middle) * 256 + low := by
  have hlong : middle <<< 8 < 2 ^ 16 := by
    rw [Nat.shiftLeft_eq]
    omega
  have hjoined : high <<< 16 ||| middle <<< 8 = (high * 256 + middle) <<< 8 := by
    rw [← Nat.shiftLeft_add_eq_or_of_lt hlong, Nat.shiftLeft_eq, Nat.shiftLeft_eq, Nat.shiftLeft_eq]
    ring
  rw [hjoined, ← Nat.shiftLeft_add_eq_or_of_lt hlow, Nat.shiftLeft_eq]

/-- The three octets of a sequence number. -/
theorem sequenceNumber_sent {sequenceNumber : UInt32} (hlt : sequenceNumber < 16777216) :
    (UInt8.ofNat ((sequenceNumber.toNat &&& 0x00ff0000) >>> 16)).toUInt32 <<< 16 |||
      (UInt8.ofNat ((sequenceNumber.toNat &&& 0x0000ff00) >>> 8)).toUInt32 <<< 8 |||
      (UInt8.ofNat (sequenceNumber.toNat &&& 0x000000ff)).toUInt32 = sequenceNumber := by
  have hnat : sequenceNumber.toNat < 16777216 := UInt32.lt_iff_toNat_lt.mp hlt
  refine UInt32.toNat_inj.mp ?_
  generalize sequenceNumber.toNat = n at *
  have hhigh : (n &&& 0x00ff0000) >>> 16 = n / 65536 % 256 := octetOf 16
  have hmiddle : (n &&& 0x0000ff00) >>> 8 = n / 256 % 256 := octetOf 8
  have hlow : n &&& 0x000000ff = n % 256 := Nat.and_two_pow_sub_one_eq_mod n 8
  have h16 : ((16 : UInt32).toNat % 32) = 16 := rfl
  have h8 : ((8 : UInt32).toNat % 32) = 8 := rfl
  have hbig : (n / 65536 % 256 % 2 ^ 8) <<< 16 % 2 ^ 32 = (n / 65536) <<< 16 := by
    rw [Nat.shiftLeft_eq, Nat.shiftLeft_eq]
    omega
  have hsmall : (n / 256 % 256 % 2 ^ 8) <<< 8 % 2 ^ 32 = (n / 256 % 256) <<< 8 := by
    rw [Nat.shiftLeft_eq, Nat.shiftLeft_eq]
    omega
  rw [hhigh, hmiddle, hlow, UInt32.toNat_or, UInt32.toNat_or, UInt32.toNat_shiftLeft,
    UInt32.toNat_shiftLeft, UInt8.toNat_toUInt32, UInt8.toNat_toUInt32, UInt8.toNat_toUInt32,
    UInt8.toNat_ofNat', UInt8.toNat_ofNat', UInt8.toNat_ofNat', h16, h8, hbig, hsmall,
    or_octets (by omega) (by omega)]
  omega

/-! ## Information elements -/

section Elements

variable (asserts : Bool)

theorem reads_preSerialize {header : GtpcHeader} (hlt : header.sequenceNumber < 16777216) :
    Reads preDeserialize header.preSerialize.flatten { header with teidFlag := true } := by
  refine (reads_octet _).cons <| .ensure rfl <| .ensure rfl <| (reads_octet _).cons <|
    (reads_ntohU16 _).cons <| (reads_ntohU32 _).cons <| (reads_octet _).cons <|
    (reads_octet _).cons <| (reads_octet _).cons <| (reads_octet 0).cons ?_
  rw [sequenceNumber_sent hlt]
  exact .pure _

theorem reads_imsi (imsi : UInt64) :
    Reads (deserializeImsi asserts) (serializeImsi imsi).flatten imsi :=
  (reads_octet 1).cons <| .ensure rfl <| (reads_ntohU16 8).cons <| .ensure rfl <|
    (reads_octet 0).cons <| .ensure rfl <| (reads_ntohU64 imsi).last

theorem reads_ebi {epsBearerId : UInt8} (hlt : epsBearerId < 16) :
    Reads (deserializeEbi asserts) (serializeEbi epsBearerId).flatten epsBearerId := by
  refine (reads_octet 73).cons <| .ensure rfl <| (reads_ntohU16 1).cons <| .ensure rfl <|
    (reads_octet 0).cons <| .ensure rfl <| (reads_octet _).cons ?_
  rw [and_of_lt hlt, and_of_lt hlt]
  exact .pure epsBearerId

theorem reads_ntohU40 {rate : UInt64} (hlt : rate.toNat < 2 ^ 40) :
    Reads readNtohU40 (writeHtonU40 rate) rate := by
  have hread := (@reads_ntoh 5 _ hlt).map UInt64.ofNat
  rwa [UInt64.ofNat_toNat] at hread

/-- The rates are below 2^40. -/
def GbrQosInformation.Short (info : GbrQosInformation) : Prop :=
  info.gbrDl.toNat < 2 ^ 40 ∧ info.gbrUl.toNat < 2 ^ 40 ∧ info.mbrDl.toNat < 2 ^ 40 ∧
    info.mbrUl.toNat < 2 ^ 40

theorem reads_bearerQos {bearerQos : EpsBearer} (short : bearerQos.gbrQosInfo.Short) :
    Reads (deserializeBearerQos asserts) (serializeBearerQos bearerQos).flatten bearerQos := by
  obtain ⟨hgbrDl, hgbrUl, hmbrDl, hmbrUl⟩ := short
  exact (reads_octet 80).cons <| .ensure rfl <| (reads_ntohU16 22).cons <| .ensure rfl <|
    (reads_octet 0).cons <| .ensure rfl <| (reads_octet 0).cons <| (reads_octet _).cons <|
    (reads_ntohU40 hmbrUl).cons <| (reads_ntohU40 hmbrDl).cons <| (reads_ntohU40 hgbrUl).cons <|
    (reads_ntohU40 hgbrDl).cons <| .pure bearerQos

theorem reads_uliEcgi {uliEcgi : UInt32} (hlt : uliEcgi.toNat < 2 ^ 28) :
    Reads (deserializeUliEcgi asserts) (serializeUliEcgi uliEcgi).flatten uliEcgi := by
  refine (reads_octet 86).cons <| .ensure rfl <| (reads_ntohU16 8).cons <| .ensure rfl <|
    (reads_octet 0).cons <| .ensure rfl <| (reads_octet _).cons <| (reads_octet _).cons <|
    (reads_octet _).cons <| (reads_octet _).cons <| (reads_ntohU32 _).cons ?_
  have hsame : uliEcgi &&& 0x0fffffff = uliEcgi := by
    refine UInt32.toNat_inj.mp ?_
    rw [UInt32.toNat_and]
    exact Nat.and_two_pow_sub_one_of_lt_two_pow (n := 28) hlt
  rw [hsame]
  exact .pure uliEcgi

theorem reads_fteid {fteid : Fteid} (listed : fteid.interfaceType.Listed) :
    Reads (deserializeFteid asserts) (serializeFteid fteid).flatten fteid := by
  refine (reads_octet 87).cons <| .ensure rfl <| (reads_ntohU16 9).cons <| .ensure rfl <|
    (reads_octet 0).cons <| .ensure rfl <| (reads_octet _).cons <| (reads_ntohU32 _).cons <|
    (reads_ntohU32 _).cons ?_
  rw [InterfaceType.ofValue_sent listed]
  exact .pure fteid

/-- The length of a bearer context is read as some number. -/
theorem reads_bearerContextHeader (length : UInt16) :
    ∃ other, Reads (deserializeBearerContextHeader asserts)
      (serializeBearerContextHeader length).flatten other := by
  have hread : Reads ntohU16 (writeU16 length) (UInt16.ofNat (number 0 (writeU16 length))) :=
    fun rest => rfl
  exact ⟨_, (reads_octet 93).cons <| .ensure rfl <| hread.cons <| (reads_octet 0).cons <|
    .ensure rfl <| .pure _⟩

end Elements

/-! ## Packet filters -/

/-- A packet filter without what is not written. -/
def PacketFilter.sent (pf : PacketFilter) : PacketFilter :=
  { pf with
    remoteIpv6Address := fun _ => 0
    remoteIpv6Prefix := fun _ => 0
    localIpv6Address := fun _ => 0
    localIpv6Prefix := fun _ => 0 }

theorem PacketFilter.map_sent_eq_iff {filters : List PacketFilter} :
    filters.map PacketFilter.sent = filters ↔ ∀ pf ∈ filters, pf.sent = pf := by
  have hself := @List.map_inj_left _ _ filters PacketFilter.sent id
  rwa [List.map_id] at hself

theorem reads_packetFilter (pf : PacketFilter) :
    Reads deserializePacketFilter (serializePacketFilter pf).flatten pf.sent := by
  refine (reads_octet _).cons <| (reads_octet _).cons <| (reads_octet _).cons <|
    (reads_octet _).cons <| (reads_ntohU32 _).cons <| (reads_ntohU32 _).cons <|
    (reads_octet _).cons <| (reads_ntohU32 _).cons <| (reads_ntohU32 _).cons <|
    (reads_octet _).cons <| (reads_ntohU16 _).cons <| (reads_ntohU16 _).cons <|
    (reads_octet _).cons <| (reads_ntohU16 _).cons <| (reads_ntohU16 _).cons <|
    (reads_octet _).cons <| (reads_octet _).cons <| (reads_octet _).cons ?_
  rw [Direction.ofValue_sent]
  exact .pure _

/-- The loop adds the filters in the order they are written in. -/
theorem reads_addFilters {filters : List PacketFilter} : ∀ {tft last : EpcTft},
    tft.addAll (filters.map PacketFilter.sent) = some last →
    Reads (addFilters filters.length tft)
      (filters.map fun pf => (serializePacketFilter pf).flatten).flatten last := by
  induction filters with
  | nil =>
      intro tft last hadd
      obtain rfl := Option.some.inj hadd
      exact .pure tft
  | cons pf rest ih =>
      intro tft last hadd
      obtain ⟨next, hnext, hrest⟩ := Option.bind_eq_some_iff.mp hadd
      refine (reads_packetFilter pf).cons ?_
      rw [hnext]
      exact ih hrest

/-- The number of packet filters as it is read. -/
def countRead (count : Nat) : Nat := (UInt8.ofNat (0x20 + (count &&& 0x0f)) &&& 0x0f).toNat

theorem countRead_of_lt {count : Nat} (hlt : count < 16) : countRead count = count := by
  revert count
  decide

theorem countRead_sixteen : countRead 16 = 0 := by decide

/-- A template of packet filters without what is not written. -/
def EpcTft.sent (tft : EpcTft) : EpcTft :=
  { tft with filters := tft.filters.map PacketFilter.sent }

/-- The filters are added again to the template they were in. -/
theorem EpcTft.Ordered.addAll_sent {tft : EpcTft} (ordered : tft.Ordered) :
    EpcTft.addAll {} (tft.filters.map PacketFilter.sent) = some tft.sent := by
  have hle : (([] : List PacketFilter) ++ tft.filters.map PacketFilter.sent).length ≤ 16 := by
    rw [List.nil_append, List.length_map]
    exact ordered.le
  have hsorted : (([] : List PacketFilter) ++ tft.filters.map PacketFilter.sent).Pairwise
      fun first second => first.precedence ≤ second.precedence :=
    List.pairwise_map.mpr ordered.sorted
  obtain ⟨last, hlast, hordered, hfilters⟩ :=
    @EpcTft.addAll_of_sorted _ {} ⟨rfl, Nat.zero_le _, List.Pairwise.nil⟩ hle hsorted
  have hsent : tft.sent.Ordered :=
    ⟨ordered.count.trans (List.length_map _).symm, (List.length_map _).symm ▸ ordered.le, hsorted⟩
  rw [hlast, hordered.ext hsent hfilters]

/-- Up to 15 filters are read back. -/
theorem reads_bearerTft (asserts : Bool) {tft : EpcTft} (ordered : tft.Ordered)
    (hlt : tft.filters.length < 16) :
    Reads (deserializeBearerTft asserts) (serializeBearerTft tft.filters).flatten tft.sent := by
  refine (reads_octet 84).cons <| .ensure rfl <| (reads_ntohU16 _).cons <| (reads_octet 0).cons <|
    (reads_octet _).cons ?_
  have hcount : (UInt8.ofNat (0x20 + (tft.filters.length &&& 0x0f)) &&& 0x0f).toNat =
      tft.filters.length := countRead_of_lt hlt
  rw [hcount]
  exact reads_addFilters ordered.addAll_sent

/-- Of 16 filters none is read. -/
theorem reads_bearerTft_sixteen (asserts : Bool) {filters : List PacketFilter}
    (hlength : filters.length = 16) (rest : List UInt8) :
    deserializeBearerTft asserts ((serializeBearerTft filters).flatten ++ rest) =
      some ({}, (filters.map fun pf => (serializePacketFilter pf).flatten).flatten ++ rest) := by
  have hcount : (UInt8.ofNat (0x20 + (filters.length &&& 0x0f)) &&& 0x0f).toNat = 0 := by
    rw [hlength]
    exact countRead_sixteen
  have hread : Reads (deserializeBearerTft asserts)
      [writeU8 84, htonU16 (UInt16.ofNat (1 + filters.length * serializedSizePacketFilter)),
        writeU8 0, writeU8 (0x20 + (filters.length &&& 0x0f))].flatten {} := by
    refine (reads_octet 84).cons <| .ensure rfl <| (reads_ntohU16 _).cons <|
      (reads_octet 0).cons <| (reads_octet _).cons ?_
    rw [hcount]
    exact .pure _
  rw [serializeBearerTft, List.flatten_append, List.append_assoc, hread]

/-! ## Bearer contexts -/

namespace BearerContextToBeCreated

/-- What a bearer context may hold. -/
structure InRange (bc : BearerContextToBeCreated) : Prop where
  epsBearerId : bc.epsBearerId < 16
  tft : bc.tft.Admitted
  fteid : bc.sgwS5uFteid.interfaceType.Listed
  rates : bc.bearerLevelQos.gbrQosInfo.Short

/-- A bearer context without what is not written. -/
def sent (bc : BearerContextToBeCreated) : BearerContextToBeCreated :=
  { bc with tft := bc.tft.sent }

/-- At most 15 packet filters, none of which is for IPv6. -/
def Carried (bc : BearerContextToBeCreated) : Prop :=
  bc.tft.filters.length < 16 ∧ ∀ pf ∈ bc.tft.filters, pf.sent = pf

variable {bc : BearerContextToBeCreated}

theorem reads_context (asserts : Bool) (inRange : bc.InRange) (hlt : bc.tft.filters.length < 16) :
    Reads (deserializeBearerContext asserts) bc.serialize bc.sent := by
  obtain ⟨length, hlength⟩ := reads_bearerContextHeader asserts (UInt16.ofNat (serializedSizeEbi +
    getSerializedSizeBearerTft bc.tft.filters + serializedSizeFteid + serializedSizeBearerQos))
  exact hlength.cons <| (reads_ebi asserts inRange.epsBearerId).cons <|
    (reads_bearerTft asserts inRange.tft.ordered hlt).cons <|
    (reads_fteid asserts inRange.fteid).cons <| (reads_bearerQos asserts inRange.rates).cons <|
    .pure bc.sent

/-- Whatever is read of a context with 16 filters has none. -/
theorem filters_of_sixteen {asserts : Bool} (inRange : bc.InRange)
    (hlength : bc.tft.filters.length = 16) {read : BearerContextToBeCreated}
    {rest behind : List UInt8}
    (hread : deserializeBearerContext asserts (bc.serialize ++ rest) = some (read, behind)) :
    read.tft.filters = [] := by
  obtain ⟨length, hheader⟩ := reads_bearerContextHeader asserts (UInt16.ofNat (serializedSizeEbi +
    getSerializedSizeBearerTft bc.tft.filters + serializedSizeFteid + serializedSizeBearerQos))
  have hsplit : bc.serialize ++ rest = (serializeBearerContextHeader (UInt16.ofNat
      (serializedSizeEbi + getSerializedSizeBearerTft bc.tft.filters + serializedSizeFteid +
        serializedSizeBearerQos))).flatten ++ ((serializeEbi bc.epsBearerId).flatten ++
      ((serializeBearerTft bc.tft.filters).flatten ++
        ([(serializeFteid bc.sgwS5uFteid).flatten,
          (serializeBearerQos bc.bearerLevelQos).flatten].flatten ++ rest))) := by
    rw [serialize, ies, List.flatten_cons, List.flatten_cons, List.append_assoc, List.append_assoc,
      List.append_assoc]
  rw [hsplit, deserializeBearerContext, bind_of_eq (hheader _),
    bind_of_eq (reads_ebi asserts inRange.epsBearerId _),
    bind_of_eq (reads_bearerTft_sixteen asserts hlength _)] at hread
  obtain ⟨fteid, middle, -, hread⟩ := bind_inv hread
  obtain ⟨qos, last, -, hread⟩ := bind_inv hread
  obtain ⟨rfl, -⟩ := Prod.mk.inj (Option.some.inj hread)
  rfl

/-- A context that is read back is carried. -/
theorem carried_of_read {asserts : Bool} (inRange : bc.InRange) {rest behind : List UInt8}
    (hread : deserializeBearerContext asserts (bc.serialize ++ rest) = some (bc, behind)) :
    bc.Carried ∧ behind = rest := by
  rcases Nat.lt_or_ge bc.tft.filters.length 16 with hlt | hge
  · have hsame := (reads_context asserts inRange hlt rest).symm.trans hread
    obtain ⟨hbc, hbehind⟩ := Prod.mk.inj (Option.some.inj hsame)
    refine ⟨⟨hlt, fun pf hpf => ?_⟩, hbehind.symm⟩
    have hfilters : bc.tft.filters.map PacketFilter.sent = bc.tft.filters :=
      congrArg (fun bc => bc.tft.filters) hbc
    exact PacketFilter.map_sent_eq_iff.mp hfilters pf hpf
  · have hlength := Nat.le_antisymm inRange.tft.ordered.le hge
    have hnone := filters_of_sixteen inRange hlength hread
    rw [hnone] at hlength
    cases hlength

theorem sent_of_carried (carried : bc.Carried) : bc.sent = bc := by
  have hfilters : bc.tft.filters.map PacketFilter.sent = bc.tft.filters :=
    PacketFilter.map_sent_eq_iff.mpr carried.2
  rw [sent, EpcTft.sent, hfilters]

end BearerContextToBeCreated

theorem deserializeContexts_nil (asserts : Bool) (turns : Nat)
    (before : List BearerContextToBeCreated) :
    deserializeContexts asserts turns before [] = some (before, []) := by
  cases turns <;> rfl

theorem deserializeContexts_zero {asserts : Bool} {before : List BearerContextToBeCreated}
    {bytes : List UInt8} (hne : bytes ≠ []) : deserializeContexts asserts 0 before bytes = none :=
  if_neg hne

theorem deserializeContexts_succ {asserts : Bool} {turns : Nat}
    {before : List BearerContextToBeCreated} {bytes : List UInt8} (hne : bytes ≠ []) :
    deserializeContexts asserts (turns + 1) before bytes =
      (deserializeBearerContext asserts bytes).bind fun read =>
        deserializeContexts asserts turns (before ++ [read.1]) read.2 :=
  if_neg hne

theorem BearerContextToBeCreated.serialize_append_ne_nil (bc : BearerContextToBeCreated)
    (rest : List UInt8) : bc.serialize ++ rest ≠ [] := List.cons_ne_nil _ _

/-- The contexts of a message are read one after the other. -/
theorem deserializeContexts_spec (asserts : Bool) {contexts : List BearerContextToBeCreated} :
    ∀ {turns : Nat} {before : List BearerContextToBeCreated}, contexts.length ≤ turns →
      (∀ bc ∈ contexts, bc.InRange ∧ bc.Carried) →
      deserializeContexts asserts turns before
          (contexts.map BearerContextToBeCreated.serialize).flatten =
        some (before ++ contexts, []) := by
  induction contexts with
  | nil =>
      intro turns before _ _
      rw [List.map_nil, List.flatten_nil, deserializeContexts_nil, List.append_nil]
  | cons bc rest ih =>
      intro turns before hle hall
      obtain ⟨⟨inRange, carried⟩, hrest⟩ := List.forall_mem_cons.mp hall
      cases turns with
      | zero => exact absurd hle (Nat.not_succ_le_zero _)
      | succ turns =>
          have hread := bc.reads_context asserts inRange carried.1
            (rest.map BearerContextToBeCreated.serialize).flatten
          rw [BearerContextToBeCreated.sent_of_carried carried] at hread
          rw [List.map_cons, List.flatten_cons,
            deserializeContexts_succ (bc.serialize_append_ne_nil _), hread, Option.bind_some,
            ih (Nat.le_of_succ_le_succ hle) hrest, List.append_assoc, List.singleton_append]

/-- What is read begins with what was read before. -/
theorem prefix_deserializeContexts (asserts : Bool) (turns : Nat) :
    ∀ {before all : List BearerContextToBeCreated} {bytes behind : List UInt8},
      deserializeContexts asserts turns before bytes = some (all, behind) → before <+: all := by
  induction turns with
  | zero =>
      intro before all bytes behind hread
      by_cases hnil : bytes = []
      · rw [hnil, deserializeContexts_nil] at hread
        obtain ⟨rfl, -⟩ := Prod.mk.inj (Option.some.inj hread)
        exact List.prefix_refl _
      · rw [deserializeContexts_zero hnil] at hread
        cases hread
  | succ turns ih =>
      intro before all bytes behind hread
      by_cases hnil : bytes = []
      · rw [hnil, deserializeContexts_nil] at hread
        obtain ⟨rfl, -⟩ := Prod.mk.inj (Option.some.inj hread)
        exact List.prefix_refl _
      · rw [deserializeContexts_succ hnil] at hread
        obtain ⟨read, -, hread⟩ := Option.bind_eq_some_iff.mp hread
        exact (List.prefix_append before [read.1]).trans (ih hread)

/-- Contexts that are read back are carried. -/
theorem carried_of_deserializeContexts (asserts : Bool)
    {contexts : List BearerContextToBeCreated} :
    ∀ {turns : Nat} {before : List BearerContextToBeCreated} {behind : List UInt8},
      (∀ bc ∈ contexts, bc.InRange) →
      deserializeContexts asserts turns before
          (contexts.map BearerContextToBeCreated.serialize).flatten =
        some (before ++ contexts, behind) →
      ∀ bc ∈ contexts, bc.Carried := by
  induction contexts with
  | nil => exact fun _ _ _ hmem => absurd hmem List.not_mem_nil
  | cons bc rest ih =>
      intro turns before behind hall hread
      obtain ⟨inRange, hrest⟩ := List.forall_mem_cons.mp hall
      rw [List.map_cons, List.flatten_cons] at hread
      cases turns with
      | zero =>
          rw [deserializeContexts_zero (bc.serialize_append_ne_nil _)] at hread
          cases hread
      | succ turns =>
          rw [deserializeContexts_succ (bc.serialize_append_ne_nil _)] at hread
          obtain ⟨⟨read, middle⟩, hfirst, hread⟩ := Option.bind_eq_some_iff.mp hread
          obtain ⟨others, hothers⟩ := prefix_deserializeContexts asserts turns hread
          rw [List.append_assoc] at hothers
          obtain ⟨rfl, -⟩ := List.cons.inj (List.append_cancel_left hothers)
          obtain ⟨carried, rfl⟩ := BearerContextToBeCreated.carried_of_read inRange hfirst
          have hnext : deserializeContexts asserts turns (before ++ [read])
              (rest.map BearerContextToBeCreated.serialize).flatten =
                some (before ++ [read] ++ rest, behind) := by
            rw [List.append_assoc, List.singleton_append]
            exact hread
          exact List.forall_mem_cons.mpr ⟨carried, ih hrest hnext⟩

/-! ## Lengths -/

/-- The second and third octet of an information element are the length of what is behind the fourth
one, in network order. -/
def LengthRight : List UInt8 → Prop
  | _ :: high :: low :: _ :: content => high.toNat * 256 + low.toNat = content.length
  | _ => False

theorem lengthRight_hton {kind spare : UInt8} {length : Nat} (hlt : length < 65536)
    {content : List UInt8} (hlength : content.length = length) :
    LengthRight (kind :: (hton 2 length ++ spare :: content)) := by
  show (UInt8.ofNat (length / 256 ^ 1)).toNat * 256 + (UInt8.ofNat (length / 256 ^ 0)).toNat =
    content.length
  rw [UInt8.toNat_ofNat', UInt8.toNat_ofNat', hlength]
  omega

theorem length_packetFilter (pf : PacketFilter) :
    (serializePacketFilter pf).flatten.length = serializedSizePacketFilter := rfl

theorem length_packetFilters (filters : List PacketFilter) :
    (filters.map fun pf => (serializePacketFilter pf).flatten).flatten.length =
      filters.length * serializedSizePacketFilter := by
  induction filters with
  | nil => exact (Nat.zero_mul _).symm
  | cons pf rest ih =>
      rw [List.map_cons, List.flatten_cons, List.length_append, ih, length_packetFilter,
        List.length_cons, Nat.succ_mul, Nat.add_comm]

theorem length_bearerTft (filters : List PacketFilter) :
    (serializeBearerTft filters).flatten.length = getSerializedSizeBearerTft filters := by
  rw [serializeBearerTft, List.flatten_append, List.length_append, length_packetFilters]
  rfl

namespace BearerContextToBeCreated

theorem length_ies (bc : BearerContextToBeCreated) :
    bc.ies.flatten.length = serializedSizeEbi + getSerializedSizeBearerTft bc.tft.filters +
      serializedSizeFteid + serializedSizeBearerQos := by
  rw [ies, List.flatten_cons, List.flatten_cons, List.length_append, List.length_append,
    length_bearerTft]
  show 5 + (_ + (13 + 26)) = 5 + _ + 13 + 26
  omega

theorem length_serialize (bc : BearerContextToBeCreated) : bc.serialize.length = bc.size := by
  rw [serialize, List.length_append, length_ies, size]
  show 4 + (_ + _ + _ + _) = 4 + _ + _ + _ + _
  omega

/-- The length of a bearer context is wrong: its octets are the other way round. -/
theorem not_lengthRight (bc : BearerContextToBeCreated) (inRange : bc.InRange) :
    ¬ LengthRight bc.serialize := by
  have hle := inRange.tft.ordered.le
  have hcontent := bc.length_ies
  intro hright
  have hoctets : (UInt16.ofNat bc.ies.flatten.length).toUInt8.toNat * 256 +
      (UInt16.ofNat bc.ies.flatten.length >>> 8).toUInt8.toNat = bc.ies.flatten.length := by
    rw [serialize, ← hcontent] at hright
    exact hright
  have hnone : ∀ count < 17, (UInt16.ofNat (49 + count * 34)).toUInt8.toNat * 256 +
      (UInt16.ofNat (49 + count * 34) >>> 8).toUInt8.toNat ≠ 49 + count * 34 := by
    decide
  have hsize : bc.ies.flatten.length = 49 + bc.tft.filters.length * 34 := by
    rw [hcontent, getSerializedSizeBearerTft]
    show 5 + (5 + bc.tft.filters.length * 34) + 13 + 26 = _
    omega
  rw [hsize] at hoctets
  exact hnone _ (Nat.lt_succ_of_le hle) hoctets

end BearerContextToBeCreated

/-! ## Messages -/

namespace GtpcCreateSessionRequestMessage

/-- What a message may hold. -/
structure InRange (message : GtpcCreateSessionRequestMessage) : Prop where
  sequenceNumber : message.header.sequenceNumber < 16777216
  uliEcgi : message.uliEcgi.toNat < 2 ^ 28
  fteid : message.senderCpFteid.interfaceType.Listed
  contexts : ∀ bc ∈ message.bearerContextsToBeCreated, bc.InRange

/-- `Serialize` writes as many octets as `GetSerializedSize` says. -/
def SizeRight (message : GtpcCreateSessionRequestMessage) : Prop :=
  message.serialize.length = message.getSerializedSize

/-- All information elements, also those inside the bearer contexts, have the right length. -/
def LengthsRight (message : GtpcCreateSessionRequestMessage) : Prop :=
  ∀ ie ∈ message.ies ++ message.bearerContextsToBeCreated.flatMap BearerContextToBeCreated.ies,
    LengthRight ie

/-- `Deserialize` reads all octets and gives the message back. -/
def RoundTrip (asserts : Bool) (message : GtpcCreateSessionRequestMessage) : Prop :=
  deserialize asserts message.serialize = some (message, [])

variable {message : GtpcCreateSessionRequestMessage}

/-- The octets of the bearer contexts. -/
def contextBytes (message : GtpcCreateSessionRequestMessage) : List UInt8 :=
  (message.bearerContextsToBeCreated.map BearerContextToBeCreated.serialize).flatten

theorem length_serialize (message : GtpcCreateSessionRequestMessage) :
    message.serialize.length = 49 + message.contextBytes.length := by
  rw [serialize, ies, List.flatten_append, List.length_append, List.length_append, contextBytes]
  show 12 + (37 + _) = _
  omega

theorem getMessageSize_eq (message : GtpcCreateSessionRequestMessage) :
    message.getMessageSize = (37 + message.contextBytes.length) % 4294967296 := by
  have hsum : ∀ (contexts : List BearerContextToBeCreated) (before : Nat),
      contexts.foldl (fun size bc => (size + bc.size) % 4294967296) (before % 4294967296) =
        (before + (contexts.map BearerContextToBeCreated.serialize).flatten.length) %
          4294967296 := by
    intro contexts
    induction contexts with
    | nil => exact fun before => by rw [List.foldl_nil, List.map_nil, List.flatten_nil]; rfl
    | cons bc rest ih =>
        intro before
        rw [List.foldl_cons, Nat.mod_add_mod, ih, List.map_cons, List.flatten_cons,
          List.length_append, bc.length_serialize, Nat.add_assoc]
  exact hsum message.bearerContextsToBeCreated 37

/-- The size is right when the TEID is set, and fits the type of the size. -/
theorem sizeRight_iff (message : GtpcCreateSessionRequestMessage) :
    message.SizeRight ↔
      message.header.teidFlag = true ∧ message.serialize.length < 4294967296 := by
  rw [SizeRight, getSerializedSize, getMessageSize_eq, length_serialize,
    GtpcHeader.getSerializedSize]
  cases message.header.teidFlag with
  | false =>
      rw [if_neg Bool.false_ne_true]
      refine iff_of_false ?_ fun hset => Bool.false_ne_true hset.1
      omega
  | true =>
      rw [if_pos rfl, and_iff_right rfl]
      omega

theorem lengthRight_imsi (imsi : UInt64) : LengthRight (serializeImsi imsi).flatten :=
  @lengthRight_hton _ _ 8 (by decide) _ rfl

theorem lengthRight_uliEcgi (uliEcgi : UInt32) : LengthRight (serializeUliEcgi uliEcgi).flatten :=
  @lengthRight_hton _ _ 8 (by decide) _ rfl

theorem lengthRight_fteid (fteid : Fteid) : LengthRight (serializeFteid fteid).flatten :=
  @lengthRight_hton _ _ 9 (by decide) _ rfl

/-- The information elements inside a bearer context have the right length. -/
theorem lengthRight_of_mem_ies {bc : BearerContextToBeCreated} (inRange : bc.InRange)
    {ie : List UInt8} (hmem : ie ∈ bc.ies) : LengthRight ie := by
  simp only [BearerContextToBeCreated.ies, List.mem_cons, List.not_mem_nil, or_false] at hmem
  rcases hmem with rfl | rfl | rfl | rfl
  · exact @lengthRight_hton _ _ 1 (by decide) _ rfl
  · have hle := inRange.tft.ordered.le
    have hlength : (UInt16.ofNat (1 + bc.tft.filters.length * serializedSizePacketFilter)).toNat =
        1 + bc.tft.filters.length * 34 := by
      rw [UInt16.toNat_ofNat']
      show (1 + bc.tft.filters.length * 34) % 65536 = _
      omega
    have hie : (serializeBearerTft bc.tft.filters).flatten =
        84 :: (hton 2 (1 + bc.tft.filters.length * 34) ++ 0 ::
          (UInt8.ofNat (0x20 + (bc.tft.filters.length &&& 0x0f)) ::
            (bc.tft.filters.map fun pf => (serializePacketFilter pf).flatten).flatten)) := by
      rw [serializeBearerTft, List.flatten_append, htonU16, hlength]
      rfl
    rw [hie]
    refine lengthRight_hton (by omega) ?_
    rw [List.length_cons, length_packetFilters, Nat.add_comm]
    rfl
  · exact lengthRight_fteid _
  · exact @lengthRight_hton _ _ 22 (by decide) _ rfl

/-- Every bearer context has a wrong length. -/
theorem lengthsRight_iff (inRange : message.InRange) :
    message.LengthsRight ↔ message.bearerContextsToBeCreated = [] := by
  constructor
  · intro hright
    refine List.eq_nil_iff_forall_not_mem.mpr fun bc hmem => ?_
    refine bc.not_lengthRight (inRange.contexts bc hmem) (hright bc.serialize ?_)
    exact List.mem_append_left _ (List.mem_append_right _ (List.mem_map_of_mem hmem))
  · intro hnone ie hie
    rw [ies, hnone] at hie
    simp only [List.map_nil, List.append_nil, List.flatMap_nil, List.mem_cons, List.not_mem_nil,
      or_false] at hie
    rcases hie with rfl | rfl | rfl
    · exact lengthRight_imsi _
    · exact lengthRight_uliEcgi _
    · exact lengthRight_fteid _

/-- Up to the bearer contexts everything is read back, but the TEID counts as set. -/
theorem deserialize_serialize (asserts : Bool) (inRange : message.InRange) :
    deserialize asserts message.serialize =
      (deserializeContexts asserts message.contextBytes.length [] message.contextBytes).map
        fun read => ({ message with
          header := { message.header with teidFlag := true }
          bearerContextsToBeCreated := read.1 }, read.2) := by
  have hsplit : message.serialize = message.header.preSerialize.flatten ++
      ((serializeImsi message.imsi).flatten ++ ((serializeUliEcgi message.uliEcgi).flatten ++
        ((serializeFteid message.senderCpFteid).flatten ++ message.contextBytes))) := by
    rw [serialize, ies, List.flatten_append, List.flatten_cons, List.flatten_cons,
      List.flatten_cons, List.flatten_nil, List.append_nil, List.append_assoc, List.append_assoc]
    rfl
  rw [hsplit, deserialize, bind_of_eq (reads_preSerialize inRange.sequenceNumber _),
    bind_of_eq (reads_imsi asserts _ _), bind_of_eq (reads_uliEcgi asserts inRange.uliEcgi _),
    bind_of_eq (reads_fteid asserts inRange.fteid _)]
  exact Option.map_eq_bind.symm

/-- There are turns enough for all bearer contexts. -/
theorem length_le_contextBytes (contexts : List BearerContextToBeCreated) :
    contexts.length ≤ (contexts.map BearerContextToBeCreated.serialize).flatten.length := by
  induction contexts with
  | nil => exact Nat.zero_le _
  | cons bc rest ih =>
      have hpos : 0 < bc.serialize.length := Nat.succ_pos _
      rw [List.map_cons, List.flatten_cons, List.length_append, List.length_cons]
      omega

/-- The message is read back when its TEID is set and its bearer contexts are carried. -/
theorem roundTrip_iff (asserts : Bool) (inRange : message.InRange) :
    message.RoundTrip asserts ↔ message.header.teidFlag = true ∧
      ∀ bc ∈ message.bearerContextsToBeCreated, bc.Carried := by
  rw [RoundTrip, deserialize_serialize asserts inRange]
  constructor
  · intro hread
    obtain ⟨⟨contexts, behind⟩, hcontexts, hsame⟩ := Option.map_eq_some_iff.mp hread
    obtain ⟨hmessage, rfl⟩ := Prod.mk.inj hsame
    have hflag : true = message.header.teidFlag :=
      congrArg (fun message => message.header.teidFlag) hmessage
    have hall : contexts = message.bearerContextsToBeCreated :=
      congrArg bearerContextsToBeCreated hmessage
    rw [hall] at hcontexts
    exact ⟨hflag.symm, carried_of_deserializeContexts asserts inRange.contexts hcontexts⟩
  · rintro ⟨hflag, hcarried⟩
    rw [contextBytes, deserializeContexts_spec asserts (length_le_contextBytes _) fun bc hmem =>
      ⟨inRange.contexts bc hmem, hcarried bc hmem⟩, Option.map_some, List.nil_append, ← hflag]

/-- What is asked of a Create Session Request. -/
def Faithful (asserts : Bool) (message : GtpcCreateSessionRequestMessage) : Prop :=
  message.SizeRight ∧ message.LengthsRight ∧ message.RoundTrip asserts

/--
A Create Session Request is written and read faithfully exactly when it has a
TEID and no bearer context.  In detail: the size is right exactly when the TEID
is set (and the message is shorter than 2^32 octets), the lengths of the
information elements exactly when there is no bearer context (its own length is
the wrong one, not those inside it), and the round trip exactly when the TEID is
set and every bearer context has at most 15 packet filters, all without IPv6
parts.
-/
theorem faithful_iff (asserts : Bool) {message : GtpcCreateSessionRequestMessage}
    (inRange : message.InRange) :
    (message.Faithful asserts ↔
      message.header.teidFlag = true ∧ message.bearerContextsToBeCreated = []) ∧
    (message.SizeRight ↔
      message.header.teidFlag = true ∧ message.serialize.length < 4294967296) ∧
    ((message.LengthsRight ↔ message.bearerContextsToBeCreated = []) ∧
      ∀ bc ∈ message.bearerContextsToBeCreated, ∀ ie ∈ bc.ies, LengthRight ie) ∧
    (message.RoundTrip asserts ↔ message.header.teidFlag = true ∧
      ∀ bc ∈ message.bearerContextsToBeCreated, bc.Carried) := by
  refine ⟨?_, message.sizeRight_iff, ⟨lengthsRight_iff inRange, fun bc hmem ie =>
    lengthRight_of_mem_ies (inRange.contexts bc hmem)⟩, roundTrip_iff asserts inRange⟩
  rw [Faithful, sizeRight_iff, lengthsRight_iff inRange, roundTrip_iff asserts inRange]
  constructor
  · rintro ⟨⟨hflag, -⟩, hnone, -⟩
    exact ⟨hflag, hnone⟩
  · rintro ⟨hflag, hnone⟩
    refine ⟨⟨hflag, ?_⟩, hnone, hflag, fun bc hmem => ?_⟩
    · rw [length_serialize, contextBytes, hnone]
      decide
    · rw [hnone] at hmem
      cases hmem

/-- A message without bearer contexts. -/
def plain : GtpcCreateSessionRequestMessage where
  header := ⟨true, 32, 45, 7, 258⟩
  imsi := 1
  uliEcgi := 2
  senderCpFteid := ⟨.s11MmeGtpc, 167772161, 3⟩
  bearerContextsToBeCreated := []

theorem faithful_iff_plain :
    (plain.Faithful true ↔ plain.header.teidFlag = true ∧ plain.bearerContextsToBeCreated = []) ∧
    (plain.SizeRight ↔ plain.header.teidFlag = true ∧ plain.serialize.length < 4294967296) ∧
    ((plain.LengthsRight ↔ plain.bearerContextsToBeCreated = []) ∧
      ∀ bc ∈ plain.bearerContextsToBeCreated, ∀ ie ∈ bc.ies, LengthRight ie) ∧
    (plain.RoundTrip true ↔ plain.header.teidFlag = true ∧
      ∀ bc ∈ plain.bearerContextsToBeCreated, bc.Carried) :=
  faithful_iff true ⟨by decide, by decide, fun _ => nofun, fun _ => nofun⟩

/-- A message with a bearer context of 16 packet filters. -/
def sixteenFilters : GtpcCreateSessionRequestMessage :=
  { plain with
    bearerContextsToBeCreated :=
      [⟨⟨.s5SgwGtpu, 167772162, 4⟩, 5, ⟨List.replicate 16 {}, 16⟩, ⟨9, {}⟩⟩] }

/-- Its bearer context has a length of 593 octets, written as 0x5102, and it is not read back. -/
theorem not_faithful_sixteenFilters :
    sixteenFilters.InRange ∧ ¬ sixteenFilters.LengthsRight ∧ ¬ sixteenFilters.RoundTrip true ∧
      ¬ sixteenFilters.RoundTrip false ∧ ¬ sixteenFilters.Faithful true := by
  have inRange : sixteenFilters.InRange := by
    refine ⟨by decide, by decide, fun _ => nofun, List.forall_mem_singleton.mpr ?_⟩
    exact ⟨by decide, ⟨List.replicate 16 {}, rfl⟩, fun _ => nofun, by decide, by decide, by decide,
      by decide⟩
  have hcontext : sixteenFilters.bearerContextsToBeCreated ≠ [] := List.cons_ne_nil _ _
  have hlengths : ¬ sixteenFilters.LengthsRight := mt (lengthsRight_iff inRange).mp hcontext
  have hround : ∀ asserts, ¬ sixteenFilters.RoundTrip asserts := fun asserts hround => by
    obtain ⟨-, hcarried⟩ := (roundTrip_iff asserts inRange).mp hround
    exact absurd (hcarried _ List.mem_cons_self).1 (by decide)
  exact ⟨inRange, hlengths, hround true, hround false, fun faithful => hlengths faithful.2.1⟩

end GtpcCreateSessionRequestMessage

end DeepcV2x.Epc
