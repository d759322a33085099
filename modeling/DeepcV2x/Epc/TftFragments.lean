import DeepcV2x.Epc.TftClassifier

/-!
# Fragments are classified like their datagram

The ports of a datagram are kept from its first fragment to its last one, as
long as no fragment of another datagram with the same addresses, protocol and
identification replaces or erases them in between.  What was kept before the
first fragment does not matter.
-/

namespace DeepcV2x.Epc

open Foundation.Association Foundation.Octets

/-! ## Datagrams and their fragments -/

namespace Ipv4Packet

/-- The octets of the transport header. -/
def headerLength (packet : Ipv4Packet) : Nat :=
  if packet.protocol = udp then 8 else max 20 (tcpHeaderLength packet.payload)

/-- A UDP or TCP datagram in one piece. -/
structure IsDatagram (datagram : Ipv4Packet) : Prop where
  offset : datagram.fragmentOffset = 0
  last : datagram.isLastFragment = true
  payloadSize : datagram.payloadSize.toNat = datagram.payload.length
  transport : datagram.protocol = udp ∨ datagram.protocol = tcp
  header : datagram.headerLength ≤ datagram.payload.length

/-- The octets of some fragments. -/
def octets (fragments : List Ipv4Packet) : List UInt8 :=
  (fragments.map Ipv4Packet.payload).flatten

/-- The fragments of a datagram, in order; the first one has the whole transport header. -/
structure SplitInto (datagram : Ipv4Packet) (fragments : List Ipv4Packet) : Prop where
  key : ∀ fragment ∈ fragments, fragment.fragmentKey = datagram.fragmentKey
  tos : ∀ fragment ∈ fragments, fragment.tos = datagram.tos
  payloadSize : ∀ fragment ∈ fragments, fragment.payloadSize.toNat = fragment.payload.length
  payload : octets fragments = datagram.payload
  nonempty : ∀ fragment ∈ fragments, fragment.payload ≠ []
  offset : ∀ before fragment after, fragments = before ++ fragment :: after →
    fragment.fragmentOffset.toNat = (octets before).length
  last : ∀ before fragment after, fragments = before ++ fragment :: after →
    (fragment.isLastFragment = true ↔ after = [])
  header : ∀ fragment ∈ fragments.head?, datagram.headerLength ≤ fragment.payload.length

end Ipv4Packet

open Ipv4Packet

/-! ## Ports -/

/-- The ports are in the first four octets. -/
theorem readPorts_append {payload : List UInt8} (hlength : 4 ≤ payload.length) (rest : List UInt8) :
    (readPorts (payload ++ rest)).map Prod.fst = (readPorts payload).map Prod.fst := by
  match payload, hlength with
  | _ :: _ :: _ :: _ :: _, _ => rfl

theorem readPorts_isSome {payload : List UInt8} (hlength : 4 ≤ payload.length) :
    ∃ ports, (readPorts payload).map Prod.fst = some ports := by
  match payload, hlength with
  | _ :: _ :: _ :: _ :: _, _ => exact ⟨_, rfl⟩

theorem udpPorts_append {payload : List UInt8} (hlength : 8 ≤ payload.length) (rest : List UInt8) :
    udpPorts (payload ++ rest) = udpPorts payload := by
  rw [udpPorts, udpPorts, if_neg (Nat.not_lt_of_le hlength), readPorts_append (by omega), if_neg]
  rw [List.length_append]
  omega

theorem tcpHeaderLength_append {payload : List UInt8} (hlength : 20 ≤ payload.length)
    (rest : List UInt8) : tcpHeaderLength (payload ++ rest) = tcpHeaderLength payload := by
  rw [tcpHeaderLength, tcpHeaderLength, List.getD_eq_getElem?_getD, List.getD_eq_getElem?_getD,
    List.getElem?_append_left (show 12 < payload.length by omega)]

theorem tcpPorts_append {payload : List UInt8} (hlength : 20 ≤ payload.length)
    (hheader : tcpHeaderLength payload ≤ payload.length) (rest : List UInt8) :
    tcpPorts (payload ++ rest) = tcpPorts payload := by
  have hpayload : ¬ (payload.length < 20 ∨ payload.length < tcpHeaderLength payload) := by
    omega
  have hlonger : ¬ ((payload ++ rest).length < 20 ∨
      (payload ++ rest).length < tcpHeaderLength payload) := by
    rw [List.length_append]
    omega
  rw [tcpPorts, tcpPorts, tcpHeaderLength_append hlength, if_neg hlonger, if_neg hpayload,
    readPorts_append (by omega)]

namespace EpcTftClassifier

/-- What is read of a transport header that is there. -/
theorem firstPorts_isSome {packet : Ipv4Packet}
    (hsize : packet.payloadSize.toNat = packet.payload.length)
    (htransport : packet.protocol = udp ∨ packet.protocol = tcp)
    (hheader : packet.headerLength ≤ packet.payload.length) {direction : Direction}
    (hdirection : direction = .uplink ∨ direction = .downlink) :
    ∃ ports, firstPorts packet direction = some (some ports) := by
  have hsides : ∀ values : UInt16 × UInt16, ∃ ports, sides direction values = some ports := by
    rcases hdirection with rfl | rfl
    · exact fun values => ⟨_, rfl⟩
    · exact fun values => ⟨_, rfl⟩
  rw [headerLength] at hheader
  rcases htransport with hudp | htcp
  · rw [if_pos hudp] at hheader
    have hlong : (8 : UInt16) ≤ packet.payloadSize :=
      UInt16.le_iff_toNat_le.mpr (hsize.symm ▸ hheader)
    obtain ⟨values, hvalues⟩ := readPorts_isSome (show 4 ≤ packet.payload.length by omega)
    obtain ⟨ports, hports⟩ := hsides values
    rw [firstPorts, if_pos ⟨hudp, hlong⟩, udpPorts, if_neg (by omega), hvalues, Option.bind_some,
      hports]
    exact ⟨ports, rfl⟩
  · have hnot : ¬ packet.protocol = udp := by
      rw [htcp]
      decide
    rw [if_neg hnot] at hheader
    have hlong : (20 : UInt16) ≤ packet.payloadSize :=
      UInt16.le_iff_toNat_le.mpr (hsize.symm ▸ (le_max_left _ _).trans hheader)
    have hwhole := (le_max_left _ _).trans hheader
    have hoptions := (le_max_right _ _).trans hheader
    obtain ⟨values, hvalues⟩ := readPorts_isSome (show 4 ≤ packet.payload.length by omega)
    obtain ⟨ports, hports⟩ := hsides values
    rw [firstPorts, if_neg fun hboth => hnot hboth.1, if_pos ⟨htcp, hlong⟩, tcpPorts,
      if_neg (by omega), hvalues, Option.bind_some, hports]
    exact ⟨ports, rfl⟩

/-- The first fragment has the ports of its datagram. -/
theorem firstPorts_eq {datagram fragment : Ipv4Packet} (isDatagram : datagram.IsDatagram)
    (hprotocol : fragment.protocol = datagram.protocol)
    (hsize : fragment.payloadSize.toNat = fragment.payload.length) {rest : List UInt8}
    (hpayload : fragment.payload ++ rest = datagram.payload)
    (hheader : datagram.headerLength ≤ fragment.payload.length) (direction : Direction) :
    firstPorts fragment direction = firstPorts datagram direction := by
  have hwhole := isDatagram.header
  have hsizes := isDatagram.payloadSize
  rw [headerLength] at hheader hwhole
  rw [firstPorts, firstPorts, hprotocol]
  rcases isDatagram.transport with hudp | htcp
  · rw [if_pos hudp] at hheader hwhole
    rw [if_pos ⟨hudp, UInt16.le_iff_toNat_le.mpr (hsize.symm ▸ hheader)⟩,
      if_pos ⟨hudp, UInt16.le_iff_toNat_le.mpr (hsizes.symm ▸ hwhole)⟩, ← hpayload,
      udpPorts_append hheader]
  · have hnot : ¬ datagram.protocol = udp := by
      rw [htcp]
      decide
    rw [if_neg hnot] at hheader hwhole
    have hlong := (le_max_left _ _).trans hheader
    have hoptions := (le_max_right _ _).trans hheader
    rw [← hpayload, tcpHeaderLength_append hlong] at hoptions
    rw [if_neg fun hboth => hnot hboth.1,
      if_pos ⟨htcp, UInt16.le_iff_toNat_le.mpr (hsize.symm ▸ hlong)⟩,
      if_neg fun hboth => hnot hboth.1,
      if_pos ⟨htcp, UInt16.le_iff_toNat_le.mpr (hsizes.symm ▸ (le_max_left _ _).trans hwhole)⟩,
      ← hpayload, tcpPorts_append hlong hoptions]

/-! ## One call -/

/-- A packet for which `Classify` returns. -/
def Accepts (p : IpPacket) (direction : Direction) : Prop :=
  (({} : EpcTftClassifier).classify p direction).isSome

/-- What was kept before does not matter for that. -/
theorem isSome_ipv4Ports (classifier other : EpcTftClassifier) {packet : Ipv4Packet}
    {direction : Direction} (hother : (other.ipv4Ports packet direction).isSome) :
    (classifier.ipv4Ports packet direction).isSome := by
  rw [ipv4Ports] at hother ⊢
  split at hother
  next hzero =>
    rw [if_pos hzero, Option.isSome_map]
    rwa [Option.isSome_map] at hother
  next hoffset =>
    rw [if_neg hoffset]
    rfl

theorem Accepts.classify {p : IpPacket} {direction : Direction} (accepts : Accepts p direction)
    (classifier : EpcTftClassifier) :
    ∃ next id, classifier.classify p direction = some (next, id) := by
  obtain ⟨result, hresult⟩ := Option.isSome_iff_exists.mp accepts
  cases p with
  | ipv4 packet =>
      obtain ⟨addresses, haddresses, hrest⟩ := Option.bind_eq_some_iff.mp hresult
      obtain ⟨found, hfound, -⟩ := Option.bind_eq_some_iff.mp hrest
      obtain ⟨⟨next, ports⟩, hports⟩ := Option.isSome_iff_exists.mp
        (isSome_ipv4Ports classifier {} (Option.isSome_of_eq_some hfound))
      refine ⟨next, matchingIpv4 next.tftMap direction addresses ports packet.tos, ?_⟩
      rw [EpcTftClassifier.classify, haddresses, Option.bind_eq_bind, Option.bind_some, hports]
      rfl
  | ipv6 packet =>
      obtain ⟨addresses, haddresses, hrest⟩ := Option.bind_eq_some_iff.mp hresult
      obtain ⟨ports, hports, -⟩ := Option.bind_eq_some_iff.mp hrest
      refine ⟨classifier,
        matchingIpv6 classifier.tftMap direction addresses ports packet.trafficClass, ?_⟩
      rw [EpcTftClassifier.classify, haddresses, Option.bind_eq_bind, Option.bind_some, hports]
      rfl
  | unknown => cases hresult

/-- The templates stay as they are. -/
theorem tftMap_of_ipv4Ports {classifier next : EpcTftClassifier} {packet : Ipv4Packet}
    {direction : Direction} {ports : UInt16 × UInt16}
    (hports : classifier.ipv4Ports packet direction = some (next, ports)) :
    next.tftMap = classifier.tftMap := by
  rw [ipv4Ports] at hports
  split at hports
  next =>
    obtain ⟨found, -, hfound⟩ := Option.map_eq_some_iff.mp hports
    cases found with
    | none =>
        obtain ⟨rfl, -⟩ := Prod.mk.inj hfound
        rfl
    | some ports' =>
        obtain ⟨rfl, -⟩ := Prod.mk.inj hfound
        split <;> rfl
  next =>
    have hfound := Option.some.inj hports
    split at hfound
    next =>
      obtain ⟨rfl, -⟩ := Prod.mk.inj hfound
      split <;> rfl
    next =>
      obtain ⟨rfl, -⟩ := Prod.mk.inj hfound
      rfl

/-- What `Classify` does with an IPv4 packet. -/
theorem classify_ipv4 {classifier next : EpcTftClassifier} {packet : Ipv4Packet}
    {direction : Direction} {id : UInt32}
    (hclassify : classifier.classify (.ipv4 packet) direction = some (next, id)) :
    ∃ addresses ports, sides direction (packet.source, packet.destination) = some addresses ∧
      classifier.ipv4Ports packet direction = some (next, ports) ∧
        id = matchingIpv4 classifier.tftMap direction addresses ports packet.tos := by
  obtain ⟨addresses, haddresses, hrest⟩ := Option.bind_eq_some_iff.mp hclassify
  obtain ⟨⟨next', ports⟩, hports, hsome⟩ := Option.bind_eq_some_iff.mp hrest
  obtain ⟨rfl, rfl⟩ := Prod.mk.inj (Option.some.inj hsome)
  refine ⟨addresses, ports, haddresses, hports, ?_⟩
  rw [tftMap_of_ipv4Ports hports]

theorem classifyAll_cons {classifier next last : EpcTftClassifier} {p : IpPacket}
    {direction : Direction} {id : UInt32} {rest : List (IpPacket × Direction)} {ids : List UInt32}
    (hclassify : classifier.classify p direction = some (next, id))
    (hrest : next.classifyAll rest = some (last, ids)) :
    classifier.classifyAll ((p, direction) :: rest) = some (last, id :: ids) := by
  rw [classifyAll, hclassify, Option.bind_eq_bind, Option.bind_some]
  show (next.classifyAll rest).bind _ = _
  rw [hrest]
  rfl

theorem tftMap_of_classify {classifier next : EpcTftClassifier} {p : IpPacket}
    {direction : Direction} {id : UInt32}
    (hclassify : classifier.classify p direction = some (next, id)) :
    next.tftMap = classifier.tftMap := by
  cases p with
  | ipv4 packet =>
      obtain ⟨addresses, ports, -, hports, -⟩ := classify_ipv4 hclassify
      exact tftMap_of_ipv4Ports hports
  | ipv6 packet =>
      obtain ⟨addresses, -, hrest⟩ := Option.bind_eq_some_iff.mp hclassify
      obtain ⟨ports, -, hsome⟩ := Option.bind_eq_some_iff.mp hrest
      rw [(Prod.mk.inj (Option.some.inj hsome)).1]
  | unknown => cases hclassify

/-! ## What is kept for a datagram -/

/-- A fragment of another datagram with the same key that replaces the kept ports with other
ones, or erases them. -/
def Disturbs (datagram : Ipv4Packet) (direction : Direction) (p : IpPacket) (direction' : Direction) :
    Prop :=
  ∃ packet, p = .ipv4 packet ∧ packet.fragmentKey = datagram.fragmentKey ∧
    if packet.fragmentOffset = 0 then
      packet.isLastFragment = false ∧
        ∃ ports, firstPorts packet direction' = some (some ports) ∧
          firstPorts datagram direction ≠ some (some ports)
    else packet.isLastFragment = true

/-- Any other packet leaves the kept ports. -/
theorem lookup_of_classify {classifier next : EpcTftClassifier} {datagram : Ipv4Packet}
    {direction direction' : Direction} {p : IpPacket} {id : UInt32} {ports : UInt16 × UInt16}
    (hfirst : firstPorts datagram direction = some (some ports))
    (hclassify : classifier.classify p direction' = some (next, id))
    (hdisturbs : ¬ Disturbs datagram direction p direction')
    (hkept : lookup datagram.fragmentKey classifier.classifiedIpv4Fragments = some ports) :
    lookup datagram.fragmentKey next.classifiedIpv4Fragments = some ports := by
  cases p with
  | ipv4 packet =>
      obtain ⟨addresses, found, -, hports, -⟩ := classify_ipv4 hclassify
      rw [ipv4Ports] at hports
      split at hports
      next hzero =>
        obtain ⟨result, hresult, hnext⟩ := Option.map_eq_some_iff.mp hports
        cases result with
        | none =>
            obtain ⟨rfl, -⟩ := Prod.mk.inj hnext
            exact hkept
        | some values =>
            obtain ⟨rfl, -⟩ := Prod.mk.inj hnext
            cases hlast : packet.isLastFragment with
            | true => exact hkept
            | false =>
                show lookup _ (upsert _ _ _) = _
                rw [lookup_upsert]
                split
                next hkey =>
                  -- a first fragment with the same key has the same ports
                  by_contra hother
                  refine hdisturbs ⟨packet, rfl, hkey.symm, ?_⟩
                  rw [if_pos hzero]
                  refine ⟨hlast, values, hresult, fun hsame => hother ?_⟩
                  rw [hsame] at hfirst
                  exact Option.some.inj hfirst
                next => exact hkept
      next hoffset =>
        have hnext := Option.some.inj hports
        split at hnext
        next =>
          obtain ⟨rfl, -⟩ := Prod.mk.inj hnext
          cases hlast : packet.isLastFragment with
          | false => exact hkept
          | true =>
              show lookup _ (erase _ _) = _
              rw [lookup_erase]
              split
              next hkey =>
                refine absurd ⟨packet, rfl, hkey.symm, ?_⟩ hdisturbs
                rw [if_neg hoffset]
                exact hlast
              next => exact hkept
        next =>
          obtain ⟨rfl, -⟩ := Prod.mk.inj hnext
          exact hkept
  | ipv6 packet =>
      obtain ⟨addresses, -, hrest⟩ := Option.bind_eq_some_iff.mp hclassify
      obtain ⟨values, -, hsome⟩ := Option.bind_eq_some_iff.mp hrest
      rw [← (Prod.mk.inj (Option.some.inj hsome)).1]
      exact hkept
  | unknown => cases hclassify

/-- The ports are kept while some fragments came and some are to come. -/
def Keeps (classifier : EpcTftClassifier) (key : FragmentKey) (ports : UInt16 × UInt16)
    (before after : List Ipv4Packet) : Prop :=
  before ≠ [] → after ≠ [] → lookup key classifier.classifiedIpv4Fragments = some ports

/-- A fragment has the id of its datagram, and the ports stay. -/
theorem classify_fragment {classifier : EpcTftClassifier} {datagram fragment : Ipv4Packet}
    {direction : Direction} {addresses : UInt32 × UInt32} {ports : UInt16 × UInt16}
    {before after : List Ipv4Packet} (isDatagram : datagram.IsDatagram)
    (splitInto : datagram.SplitInto (before ++ fragment :: after))
    (haddresses : sides direction (datagram.source, datagram.destination) = some addresses)
    (hfirst : firstPorts datagram direction = some (some ports))
    (hkeeps : classifier.Keeps datagram.fragmentKey ports before (fragment :: after)) :
    ∃ next, classifier.classify (.ipv4 fragment) direction =
        some (next, matchingIpv4 classifier.tftMap direction addresses ports datagram.tos) ∧
      next.Keeps datagram.fragmentKey ports (before ++ [fragment]) after := by
  have hmem : fragment ∈ before ++ fragment :: after := by simp
  have hkey := splitInto.key fragment hmem
  have hlast := splitInto.last before fragment after rfl
  have hoffset := splitInto.offset before fragment after rfl
  obtain ⟨hsource, hdestination, hprotocol, -⟩ :
      fragment.source = datagram.source ∧ fragment.destination = datagram.destination ∧
        fragment.protocol = datagram.protocol ∧
          fragment.identification = datagram.identification := by
    simpa [fragmentKey] using hkey
  rw [classify, hsource, hdestination, haddresses, ← splitInto.tos fragment hmem]
  suffices hports : ∃ next, classifier.ipv4Ports fragment direction = some (next, ports) ∧
      next.Keeps datagram.fragmentKey ports (before ++ [fragment]) after by
    obtain ⟨next, hports, hnext⟩ := hports
    refine ⟨next, ?_, hnext⟩
    rw [Option.bind_eq_bind, Option.bind_some, hports, ← tftMap_of_ipv4Ports hports]
    rfl
  rw [ipv4Ports]
  cases before with
  | nil =>
      have hzero : fragment.fragmentOffset = 0 := UInt16.toNat_inj.mp hoffset
      have hpayload : fragment.payload ++ octets after = datagram.payload := splitInto.payload
      rw [if_pos hzero, firstPorts_eq isDatagram hprotocol (splitInto.payloadSize fragment hmem)
        hpayload (splitInto.header fragment rfl), hfirst]
      refine ⟨_, rfl, fun _ hafter => ?_⟩
      rw [if_neg fun hwas => hafter (hlast.mp hwas), hkey]
      show lookup _ (upsert _ _ _) = _
      rw [lookup_upsert, if_pos rfl]
  | cons head rest =>
      have hpositive : fragment.fragmentOffset ≠ 0 := by
        intro hzero
        have hnone : (octets (head :: rest)).length = 0 := by
          rw [← hoffset, hzero]
          rfl
        refine splitInto.nonempty head (by simp) ?_
        rw [octets, List.map_cons, List.flatten_cons, List.length_append] at hnone
        exact List.eq_nil_of_length_eq_zero (by omega)
      have hkept := hkeeps (List.cons_ne_nil _ _) (List.cons_ne_nil _ _)
      rw [if_neg hpositive, hkey, hkept]
      refine ⟨_, rfl, fun _ hafter => ?_⟩
      rw [if_neg fun hwas => hafter (hlast.mp hwas)]
      exact hkept

end EpcTftClassifier

/-! ## Interleaved arrivals -/

/-- A fragment of the datagram, or some other packet. -/
inductive Arrival
  | own (fragment : Ipv4Packet)
  | other (packet : IpPacket) (direction : Direction)

namespace Arrival

/-- The fragments of the datagram, in the order of their arrival. -/
def fragments : List Arrival → List Ipv4Packet
  | [] => []
  | .own fragment :: rest => fragment :: fragments rest
  | .other _ _ :: rest => fragments rest

/-- The calls of `Classify` for some arrivals. -/
def calls (direction : Direction) (arrivals : List Arrival) : List (IpPacket × Direction) :=
  arrivals.map fun
    | .own fragment => (.ipv4 fragment, direction)
    | .other packet direction' => (packet, direction')

end Arrival

open Arrival EpcTftClassifier

/-- Between the first and the last fragment no other packet disturbs the kept ports. -/
def Undisturbed (datagram : Ipv4Packet) (direction : Direction) (arrivals : List Arrival) : Prop :=
  ∀ before packet direction' after, arrivals = before ++ .other packet direction' :: after →
    fragments before ≠ [] → fragments after ≠ [] → ¬ Disturbs datagram direction packet direction'

namespace EpcTftClassifier

/-- The run from a state in which some fragments came. -/
theorem classifyAll_of_keeps {datagram : Ipv4Packet} {direction : Direction}
    {addresses : UInt32 × UInt32} {ports : UInt16 × UInt16} (isDatagram : datagram.IsDatagram)
    (haddresses : sides direction (datagram.source, datagram.destination) = some addresses)
    (hfirst : firstPorts datagram direction = some (some ports)) {arrivals : List Arrival} :
    ∀ (classifier : EpcTftClassifier) (came : List Ipv4Packet),
      datagram.SplitInto (came ++ fragments arrivals) →
      (∀ packet direction', .other packet direction' ∈ arrivals → Accepts packet direction') →
      (∀ before packet direction' after, arrivals = before ++ .other packet direction' :: after →
        came ++ fragments before ≠ [] → fragments after ≠ [] →
          ¬ Disturbs datagram direction packet direction') →
      classifier.Keeps datagram.fragmentKey ports came (fragments arrivals) →
      ∃ last ids, classifier.classifyAll (calls direction arrivals) = some (last, ids) ∧
        ∀ before fragment after, arrivals = before ++ .own fragment :: after →
          ids[before.length]? =
            some (matchingIpv4 classifier.tftMap direction addresses ports datagram.tos) := by
  induction arrivals with
  | nil =>
      intro classifier came splitInto haccepts hundisturbed hkeeps
      exact ⟨classifier, [], rfl, fun before fragment after hsplit => by simp at hsplit⟩
  | cons arrival rest ih =>
      intro classifier came splitInto haccepts hundisturbed hkeeps
      have hacceptsRest := fun packet direction' hmem =>
        haccepts packet direction' (List.mem_cons_of_mem _ hmem)
      cases arrival with
      | own fragment =>
          obtain ⟨next, hclassify, hnext⟩ :=
            classify_fragment isDatagram splitInto haddresses hfirst hkeeps
          have splitRest : datagram.SplitInto ((came ++ [fragment]) ++ fragments rest) := by
            rw [List.append_assoc]
            exact splitInto
          obtain ⟨last, ids, hrest, hids⟩ := ih next _ splitRest hacceptsRest
            (fun before packet direction' after hsplit _ hafter =>
              hundisturbed (.own fragment :: before) packet direction' after
                (congrArg _ hsplit) (by simp [fragments]) hafter) hnext
          refine ⟨last, _, classifyAll_cons hclassify hrest, fun before fragment' after hsplit => ?_⟩
          cases before with
          | nil => rfl
          | cons head before =>
              obtain ⟨-, hsplit⟩ := List.cons.inj hsplit
              rw [← tftMap_of_classify hclassify]
              exact hids before fragment' after hsplit
      | other packet direction' =>
          obtain ⟨next, id, hclassify⟩ := (haccepts packet direction' List.mem_cons_self).classify classifier
          have hnext : next.Keeps datagram.fragmentKey ports came (fragments rest) := by
            intro hcame hafter
            refine lookup_of_classify hfirst hclassify ?_ (hkeeps hcame hafter)
            exact hundisturbed [] packet direction' rest rfl (by simpa [fragments]) hafter
          obtain ⟨last, ids, hrest, hids⟩ := ih next _ splitInto hacceptsRest
            (fun before packet' direction'' after hsplit hbefore hafter =>
              hundisturbed (.other packet direction' :: before) packet' direction'' after
                (congrArg _ hsplit) hbefore hafter) hnext
          refine ⟨last, _, classifyAll_cons hclassify hrest, fun before fragment' after hsplit => ?_⟩
          cases before with
          | nil => cases (List.cons.inj hsplit).1
          | cons head before =>
              obtain ⟨-, hsplit⟩ := List.cons.inj hsplit
              rw [← tftMap_of_classify hclassify]
              exact hids before fragment' after hsplit

/-- The id of a packet alone. -/
def bearer (classifier : EpcTftClassifier) (packet : Ipv4Packet) (direction : Direction) :
    Option UInt32 :=
  (classifier.classify (.ipv4 packet) direction).map Prod.snd

/-- A datagram in one piece has the id of its addresses, ports and type of service. -/
theorem bearer_of_isDatagram {classifier : EpcTftClassifier} {datagram : Ipv4Packet}
    {direction : Direction} {addresses : UInt32 × UInt32} {ports : UInt16 × UInt16}
    (isDatagram : datagram.IsDatagram)
    (haddresses : sides direction (datagram.source, datagram.destination) = some addresses)
    (hfirst : firstPorts datagram direction = some (some ports)) :
    classifier.bearer datagram direction =
      some (matchingIpv4 classifier.tftMap direction addresses ports datagram.tos) := by
  have hports : classifier.ipv4Ports datagram direction = some (classifier, ports) := by
    rw [ipv4Ports, if_pos isDatagram.offset, hfirst, Option.map_some]
    show some (if datagram.isLastFragment = true then _ else _, ports) = _
    rw [if_pos isDatagram.last]
  rw [bearer, classify, haddresses, Option.bind_eq_bind, Option.bind_some, hports]
  rfl

/-- Every fragment has the id of its datagram, whatever ports were kept before the run. -/
theorem classifyAll_fragments (classifier : EpcTftClassifier) {datagram : Ipv4Packet}
    {direction : Direction} {arrivals : List Arrival} (isDatagram : datagram.IsDatagram)
    (hdirection : direction = .uplink ∨ direction = .downlink)
    (splitInto : datagram.SplitInto (fragments arrivals))
    (haccepts : ∀ packet direction', .other packet direction' ∈ arrivals →
      Accepts packet direction')
    (undisturbed : Undisturbed datagram direction arrivals) :
    ∃ last ids id, classifier.classifyAll (calls direction arrivals) = some (last, ids) ∧
      (∀ other : EpcTftClassifier, other.tftMap = classifier.tftMap →
        other.bearer datagram direction = some id) ∧
      ∀ before fragment after, arrivals = before ++ .own fragment :: after →
        ids[before.length]? = some id := by
  obtain ⟨ports, hfirst⟩ :=
    firstPorts_isSome isDatagram.payloadSize isDatagram.transport isDatagram.header hdirection
  obtain ⟨addresses, haddresses⟩ :
      ∃ addresses, sides direction (datagram.source, datagram.destination) = some addresses := by
    rcases hdirection with rfl | rfl
    · exact ⟨_, rfl⟩
    · exact ⟨_, rfl⟩
  obtain ⟨last, ids, hrun, hids⟩ :=
    classifyAll_of_keeps isDatagram haddresses hfirst classifier [] splitInto haccepts undisturbed
      fun hcame => absurd rfl hcame
  refine ⟨last, ids, _, hrun, fun other hsame => ?_, hids⟩
  rw [bearer_of_isDatagram isDatagram haddresses hfirst, hsame]

end EpcTftClassifier

/-! ## Two datagrams with one identification -/

/-- Two fragments of a datagram. -/
theorem Ipv4Packet.SplitInto.pair {datagram first second : Ipv4Packet}
    (hkey : first.fragmentKey = datagram.fragmentKey ∧ second.fragmentKey = datagram.fragmentKey)
    (htos : first.tos = datagram.tos ∧ second.tos = datagram.tos)
    (hsize : first.payloadSize.toNat = first.payload.length ∧
      second.payloadSize.toNat = second.payload.length)
    (hpayload : first.payload ++ second.payload = datagram.payload)
    (hnonempty : first.payload ≠ [] ∧ second.payload ≠ [])
    (hoffset : first.fragmentOffset = 0 ∧ second.fragmentOffset.toNat = first.payload.length)
    (hlast : first.isLastFragment = false ∧ second.isLastFragment = true)
    (hheader : datagram.headerLength ≤ first.payload.length) :
    datagram.SplitInto [first, second] where
  key := by simpa using hkey
  tos := by simpa using htos
  payloadSize := by simpa using hsize
  payload := by simpa [octets] using hpayload
  nonempty := by simpa using hnonempty
  offset
    | [], _, _, hsplit => by
        obtain ⟨rfl, -⟩ := List.cons.inj hsplit
        exact congrArg UInt16.toNat hoffset.1
    | [head], _, _, hsplit => by
        obtain ⟨hhead, hsplit⟩ := List.cons.inj hsplit
        rw [← hhead]
        obtain ⟨rfl, -⟩ := List.cons.inj hsplit
        simpa [octets] using hoffset.2
    | _ :: _ :: _, _, _, hsplit => by simp at hsplit
  last
    | [], _, _, hsplit => by
        obtain ⟨rfl, rfl⟩ := List.cons.inj hsplit
        simpa using hlast.1
    | [_], _, _, hsplit => by
        obtain ⟨-, hsplit⟩ := List.cons.inj hsplit
        obtain ⟨rfl, rfl⟩ := List.cons.inj hsplit
        simpa using hlast.2
    | _ :: _ :: _, _, _, hsplit => by simp at hsplit
  header := by simpa using hheader

/-- A UDP datagram between two hosts, from port 2000 to some port. -/
def sixteenOctets (port : UInt16) : Ipv4Packet where
  source := 0x0a000001
  destination := 0x0a000002
  protocol := udp
  identification := 7
  tos := 0
  payloadSize := 16
  fragmentOffset := 0
  isLastFragment := true
  payload := [7, 208, (port >>> 8).toUInt8, port.toUInt8, 0, 16, 0, 0, 1, 2, 3, 4, 5, 6, 7, 8]

/-- Its transport header. -/
def firstHalf (port : UInt16) : Ipv4Packet :=
  { sixteenOctets port with
    payloadSize := 8, isLastFragment := false, payload := (sixteenOctets port).payload.take 8 }

/-- Its data. -/
def secondHalf (port : UInt16) : Ipv4Packet :=
  { sixteenOctets port with
    payloadSize := 8, fragmentOffset := 8, payload := (sixteenOctets port).payload.drop 8 }

theorem isDatagram_sixteenOctets (port : UInt16) : (sixteenOctets port).IsDatagram :=
  ⟨rfl, rfl, rfl, Or.inl rfl, by simp [headerLength, sixteenOctets]⟩

theorem splitInto_halves (port : UInt16) :
    (sixteenOctets port).SplitInto [firstHalf port, secondHalf port] :=
  .pair ⟨rfl, rfl⟩ ⟨rfl, rfl⟩ ⟨rfl, rfl⟩ rfl ⟨nofun, nofun⟩ ⟨rfl, rfl⟩ ⟨rfl, rfl⟩
    (by simp [headerLength, firstHalf, sixteenOctets])

/-- The default bearer 1, and the bearer 2 of the remote port 1000. -/
def twoBearers : EpcTftClassifier where
  tftMap := [(1, { filters := [{}], numFilters := 1 }),
    (2, { filters := [{ remotePortStart := 1000, remotePortEnd := 1000 }], numFilters := 1 })]

/-- What an earlier datagram left behind does not matter. -/
theorem EpcTftClassifier.classifyAll_fragments_stale :
    ∃ last ids id, twoBearers.classifyAll (calls .uplink
        [.other (.ipv4 (firstHalf 80)) .uplink, .own (firstHalf 1000), .own (secondHalf 1000)]) =
          some (last, ids) ∧
      (∀ other : EpcTftClassifier, other.tftMap = twoBearers.tftMap →
        other.bearer (sixteenOctets 1000) .uplink = some id) ∧
      ∀ before fragment after,
        [.other (.ipv4 (firstHalf 80)) .uplink, .own (firstHalf 1000), .own (secondHalf 1000)] =
          before ++ Arrival.own fragment :: after → ids[before.length]? = some id := by
  refine EpcTftClassifier.classifyAll_fragments twoBearers (isDatagram_sixteenOctets 1000)
    (Or.inl rfl) (splitInto_halves 1000) ?_ ?_
  · intro packet direction' hmem
    simp only [List.mem_cons, reduceCtorEq, List.not_mem_nil, or_false] at hmem
    obtain ⟨rfl, rfl⟩ := Arrival.other.inj hmem
    rfl
  · intro before packet direction' after hsplit hbefore
    match before with
    | [] => exact absurd rfl hbefore
    | [_] => simp at hsplit
    | [_, _] => simp at hsplit
    | _ :: _ :: _ :: _ => simp at hsplit

/-- The last fragment of another datagram with the same identification erases the ports. -/
theorem EpcTftClassifier.second_half_by_default :
    (sixteenOctets 80).IsDatagram ∧ (sixteenOctets 1000).IsDatagram ∧
    (sixteenOctets 80).SplitInto [firstHalf 80, secondHalf 80] ∧
    (sixteenOctets 1000).SplitInto [firstHalf 1000, secondHalf 1000] ∧
    twoBearers.bearer (sixteenOctets 1000) .uplink = some 2 ∧
    (twoBearers.classifyAll
      [(.ipv4 (firstHalf 80), .uplink), (.ipv4 (firstHalf 1000), .uplink),
        (.ipv4 (secondHalf 80), .uplink), (.ipv4 (secondHalf 1000), .uplink)]).map Prod.snd =
      some [1, 2, 2, 1] :=
  ⟨isDatagram_sixteenOctets 80, isDatagram_sixteenOctets 1000, splitInto_halves 80,
    splitInto_halves 1000, by decide, by decide⟩

end DeepcV2x.Epc
