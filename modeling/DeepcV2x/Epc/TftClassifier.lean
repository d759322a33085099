import DeepcV2x.Epc.Tft
import DeepcV2x.Foundation.Association
import DeepcV2x.Foundation.Octets

/-!
# The classifier of packets

`EpcTftClassifier` gives the bearer of a packet by its addresses, ports and type
of service.  The ports of a fragment are in the first fragment of its datagram
only, so the classifier keeps them for the later ones.  A failed assertion and a
read behind the end of a packet end the run.
-/

namespace DeepcV2x.Epc

open Foundation.Association Foundation.Octets
open Sidelink (Ipv6Bytes)

/-- An IPv4 packet: what is read of its header, and the octets behind it. -/
structure Ipv4Packet where
  source : UInt32
  destination : UInt32
  protocol : UInt8
  identification : UInt16
  tos : UInt8
  payloadSize : UInt16
  fragmentOffset : UInt16
  isLastFragment : Bool
  payload : List UInt8
  deriving DecidableEq, Repr

/-- An IPv6 packet: what is read of its header, and the octets behind it. -/
structure Ipv6Packet where
  source : Ipv6Bytes
  destination : Ipv6Bytes
  nextHeader : UInt8
  trafficClass : UInt8
  payload : List UInt8
  deriving DecidableEq

/-- A packet by its protocol number. -/
inductive IpPacket
  | ipv4 (packet : Ipv4Packet)
  | ipv6 (packet : Ipv6Packet)
  | unknown
  deriving DecidableEq

/-- `UdpL4Protocol::PROT_NUMBER`. -/
def udp : UInt8 := 17

/-- `TcpL4Protocol::PROT_NUMBER`. -/
def tcp : UInt8 := 6

/-! ## Transport headers -/

/-- The source and the destination port, the first octets of both headers. -/
def readPorts : Reader (UInt16 × UInt16) := do
  let source ← ntohU16
  let destination ← ntohU16
  pure (source, destination)

/-- `RemoveHeader` of a `UdpHeader` of 8 octets. -/
def udpPorts (payload : List UInt8) : Option (UInt16 × UInt16) :=
  if payload.length < 8 then none else (readPorts payload).map Prod.fst

/-- The octets of a TCP header: options that are too long are not read. -/
def tcpHeaderLength (payload : List UInt8) : Nat :=
  let length := (payload.getD 12 0 >>> 4).toNat
  if length < 5 then 20 else length * 4

/-- `RemoveHeader` of a `TcpHeader`, whose options do not lead behind the header. -/
def tcpPorts (payload : List UInt8) : Option (UInt16 × UInt16) :=
  if payload.length < 20 ∨ payload.length < tcpHeaderLength payload then none
  else (readPorts payload).map Prod.fst

/-- The local and the remote one of two values. -/
def sides {α : Type} (direction : Direction) (values : α × α) : Option (α × α) :=
  if direction = .uplink then some values
  else if direction = .downlink then some values.swap
  else none

/-! ## The classifier -/

/-- Addresses, protocol and identification of a fragment. -/
abbrev FragmentKey := UInt32 × UInt32 × UInt8 × UInt16

def Ipv4Packet.fragmentKey (packet : Ipv4Packet) : FragmentKey :=
  (packet.source, packet.destination, packet.protocol, packet.identification)

/-- `EpcTftClassifier`, with its templates in the order of their ids. -/
structure EpcTftClassifier where
  tftMap : List (UInt32 × EpcTft) := []
  classifiedIpv4Fragments : Table FragmentKey (UInt16 × UInt16) := []

namespace EpcTftClassifier

/-- A template in its place; one with the same id is replaced. -/
def insertTft (id : UInt32) (tft : EpcTft) : List (UInt32 × EpcTft) → List (UInt32 × EpcTft)
  | [] => [(id, tft)]
  | it :: rest =>
      if id < it.1 then (id, tft) :: it :: rest
      else if id = it.1 then (id, tft) :: rest
      else it :: insertTft id tft rest

/-- `Add`, which asserts that there are at most 16 templates. -/
def add (classifier : EpcTftClassifier) (tft : EpcTft) (id : UInt32) : Option EpcTftClassifier :=
  if (insertTft id tft classifier.tftMap).length ≤ 16 then
    some { classifier with tftMap := insertTft id tft classifier.tftMap }
  else none

/-- `Delete`. -/
def delete (classifier : EpcTftClassifier) (id : UInt32) : EpcTftClassifier :=
  { classifier with tftMap := classifier.tftMap.filter fun it => it.1 ≠ id }

/-- The id of the last template that matches an IPv4 packet, or 0. -/
def matchingIpv4 (tftMap : List (UInt32 × EpcTft)) (direction : Direction)
    (addresses : UInt32 × UInt32) (ports : UInt16 × UInt16) (tos : UInt8) : UInt32 :=
  ((tftMap.reverse.find? fun it =>
    it.2.matchesIpv4 direction addresses.2 addresses.1 ports.2 ports.1 tos).map Prod.fst).getD 0

/-- The id of the last template that matches an IPv6 packet, or 0. -/
def matchingIpv6 (tftMap : List (UInt32 × EpcTft)) (direction : Direction)
    (addresses : Ipv6Bytes × Ipv6Bytes) (ports : UInt16 × UInt16) (tos : UInt8) : UInt32 :=
  ((tftMap.reverse.find? fun it =>
    it.2.matchesIpv6 direction addresses.2 addresses.1 ports.2 ports.1 tos).map Prod.fst).getD 0

/-- The local and the remote port in the first fragment, when they are there. -/
def firstPorts (packet : Ipv4Packet) (direction : Direction) : Option (Option (UInt16 × UInt16)) :=
  if packet.protocol = udp ∧ 8 ≤ packet.payloadSize then
    ((udpPorts packet.payload).bind (sides direction)).map some
  else if packet.protocol = tcp ∧ 20 ≤ packet.payloadSize then
    ((tcpPorts packet.payload).bind (sides direction)).map some
  else some none

/-- The local and the remote port of an IPv4 packet, and the classifier. -/
def ipv4Ports (classifier : EpcTftClassifier) (packet : Ipv4Packet) (direction : Direction) :
    Option (EpcTftClassifier × (UInt16 × UInt16)) :=
  if packet.fragmentOffset = 0 then
    (firstPorts packet direction).map fun found =>
      match found with
      | some ports =>
          (if packet.isLastFragment then classifier
           else { classifier with
             classifiedIpv4Fragments := upsert packet.fragmentKey (fun _ => ports)
               classifier.classifiedIpv4Fragments }, ports)
      | none => (classifier, (0, 0))
  else
    some (match lookup packet.fragmentKey classifier.classifiedIpv4Fragments with
      | some ports =>
          (if packet.isLastFragment then
             { classifier with
               classifiedIpv4Fragments := erase packet.fragmentKey
                 classifier.classifiedIpv4Fragments }
           else classifier, ports)
      | none => (classifier, (0, 0)))

/-- The local and the remote port of an IPv6 packet. -/
def ipv6Ports (packet : Ipv6Packet) (direction : Direction) : Option (UInt16 × UInt16) :=
  if packet.nextHeader = udp then (udpPorts packet.payload).bind (sides direction)
  else if packet.nextHeader = tcp then (tcpPorts packet.payload).bind (sides direction)
  else some (0, 0)

/-- `Classify`: the classifier, and the id. -/
def classify (classifier : EpcTftClassifier) (p : IpPacket) (direction : Direction) :
    Option (EpcTftClassifier × UInt32) :=
  match p with
  | .ipv4 packet => do
      let addresses ← sides direction (packet.source, packet.destination)
      let (next, ports) ← classifier.ipv4Ports packet direction
      some (next, matchingIpv4 next.tftMap direction addresses ports packet.tos)
  | .ipv6 packet => do
      let addresses ← sides direction (packet.source, packet.destination)
      let ports ← ipv6Ports packet direction
      some (classifier, matchingIpv6 classifier.tftMap direction addresses ports packet.trafficClass)
  | .unknown => none

/-- The ids of packets that are classified one after the other. -/
def classifyAll (classifier : EpcTftClassifier) :
    List (IpPacket × Direction) → Option (EpcTftClassifier × List UInt32)
  | [] => some (classifier, [])
  | call :: rest => do
      let (next, id) ← classifier.classify call.1 call.2
      let (last, ids) ← next.classifyAll rest
      some (last, id :: ids)

end EpcTftClassifier

end DeepcV2x.Epc
