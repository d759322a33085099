import DeepcV2x.Foundation.Association
import DeepcV2x.Foundation.Runs

/-!
# Fragments of datagrams

`Ipv4L3Protocol::DoFragmentation`, `ProcessFragment` and the list of fragments
of one datagram.  A packet is its bytes; headers have no options, and their
fields that the functions only copy are left out.
-/

namespace DeepcV2x.Ipv4

open Foundation.Association

/-- The fields of `Ipv4Header` that are read. -/
structure Ipv4Header where
  source : Nat
  destination : Nat
  identification : Nat
  protocol : Nat
  payloadSize : Nat
  fragmentOffset : Nat
  moreFragments : Bool
  deriving DecidableEq, Repr

namespace Ipv4Header

/-- `SetFragmentOffset`, which aborts unless the offset is a multiple of 8. -/
def setFragmentOffset (header : Ipv4Header) (offsetBytes : Nat) : Option Ipv4Header :=
  if offsetBytes % 8 ≠ 0 then none else some { header with fragmentOffset := offsetBytes }

end Ipv4Header

/-- A packet and its header. -/
abbrev Ipv4PayloadHeaderPair := List UInt8 × Ipv4Header

/-! ## Fragmentation -/

/-- `CreateFragment`. -/
def createFragment (packet : List UInt8) (start length : Nat) : List UInt8 :=
  (packet.drop start).take length

/-- A fragment with its header. -/
def fragmentPair (p : List UInt8) (fragmentHeader : Ipv4Header) (offset size : Nat) :
    Option Ipv4PayloadHeaderPair :=
  (fragmentHeader.setFragmentOffset ((offset + fragmentHeader.fragmentOffset) % 65536)).map
    fun placed => (createFragment p offset size, { placed with payloadSize := size % 65536 })

/-- The loop of `DoFragmentation`, with a bound on its turns; the last fragment has the flag of the
packet. -/
def fragmentLoop (p : List UInt8) (ipv4Header : Ipv4Header) (fragmentSize : Nat) :
    Nat → Nat → Option (List Ipv4PayloadHeaderPair)
  | 0, _ => none
  | turns + 1, offset =>
      if (offset + fragmentSize) % 4294967296 < p.length then
        (fragmentPair p { ipv4Header with moreFragments := true } offset fragmentSize).bind
          fun fragment =>
            (fragmentLoop p ipv4Header fragmentSize turns ((offset + fragmentSize) % 65536)).map
              fun listFragments => fragment :: listFragments
      else (fragmentPair p ipv4Header offset (p.length - offset)).map fun fragment => [fragment]

/-- The size of a fragment that is not the last one. -/
def fragmentSize (outIfaceMtu : Nat) : Nat :=
  (outIfaceMtu + 4294967296 - 20) % 4294967296 / 8 * 8

/-- `DoFragmentation`. -/
def doFragmentation (packet : List UInt8) (ipv4Header : Ipv4Header) (outIfaceMtu : Nat) :
    Option (List Ipv4PayloadHeaderPair) :=
  fragmentLoop packet ipv4Header (fragmentSize outIfaceMtu) (packet.length + 1) 0

/-! ## The fragments of one datagram -/

/-- `Fragments`: the packets with their offsets, in the order of the offsets. -/
structure Fragments where
  moreFragment : Bool := false
  fragments : List (List UInt8 × Nat) := []
  deriving DecidableEq, Repr

namespace Fragments

/-- A fragment goes before the first one with a greater offset. -/
def insertFragment (fragment : List UInt8 × Nat) :
    List (List UInt8 × Nat) → List (List UInt8 × Nat)
  | [] => [fragment]
  | other :: rest =>
      if fragment.2 < other.2 then fragment :: other :: rest
      else other :: insertFragment fragment rest

/-- No fragment has a greater offset. -/
def AtEnd (fragments : Fragments) (fragmentOffset : Nat) : Prop :=
  ∀ other ∈ fragments.fragments, other.2 ≤ fragmentOffset

instance (fragments : Fragments) (fragmentOffset : Nat) :
    Decidable (fragments.AtEnd fragmentOffset) :=
  inferInstanceAs (Decidable (∀ other ∈ fragments.fragments, other.2 ≤ fragmentOffset))

/-- `AddFragment`. -/
def addFragment (fragments : Fragments) (fragment : List UInt8) (fragmentOffset : Nat)
    (moreFragment : Bool) : Fragments where
  moreFragment := if fragments.AtEnd fragmentOffset then moreFragment else fragments.moreFragment
  fragments := insertFragment (fragment, fragmentOffset) fragments.fragments

/-- The loop of `IsEntire`. -/
def contiguous : Nat → List (List UInt8 × Nat) → Bool
  | _, [] => true
  | lastEndOffset, fragment :: rest =>
      if lastEndOffset < fragment.2 then false
      else contiguous (max lastEndOffset ((fragment.1.length + fragment.2) % 65536)) rest

/-- `IsEntire`. -/
def isEntire (fragments : Fragments) : Bool :=
  !fragments.moreFragment && !fragments.fragments.isEmpty && contiguous 0 fragments.fragments

/-- The loop of `GetPacket`. -/
def join : List UInt8 → Nat → List (List UInt8 × Nat) → List UInt8
  | p, _, [] => p
  | p, lastEndOffset, fragment :: rest =>
      let joined :=
        if fragment.2 < lastEndOffset then
          if lastEndOffset - fragment.2 < fragment.1.length then
            p ++ createFragment fragment.1 (lastEndOffset - fragment.2)
              (fragment.1.length - (lastEndOffset - fragment.2))
          else p
        else p ++ fragment.1
      join joined (joined.length % 65536) rest

/-- `GetPacket`. -/
def getPacket (fragments : Fragments) : Option (List UInt8) :=
  match fragments.fragments with
  | [] => none
  | first :: rest => some (join first.1 (first.1.length % 65536) rest)

/-- A call of `CreateFragment`: the size of the packet, and the range asked for. -/
structure FragmentRequest where
  size : Nat
  start : Nat
  length : Nat
  deriving DecidableEq, Repr

/-- The loop of `GetPartialPacket`, with the ranges it asks for. -/
def partialLoop : List UInt8 → Nat → List FragmentRequest → List (List UInt8 × Nat) →
    List UInt8 × List FragmentRequest
  | p, _, requests, [] => (p, requests)
  | p, lastEndOffset, requests, fragment :: rest =>
      if fragment.2 < lastEndOffset then
        let newStart := lastEndOffset - fragment.2
        let newSize := (fragment.1.length + 4294967296 - newStart) % 4294967296
        let joined := p ++ createFragment fragment.1 newStart newSize
        partialLoop joined (joined.length % 65536)
          (requests ++ [⟨fragment.1.length, newStart, newSize⟩]) rest
      else if lastEndOffset = fragment.2 then
        let joined := p ++ fragment.1
        partialLoop joined (joined.length % 65536) requests rest
      else partialLoop p (p.length % 65536) requests rest

/-- `GetPartialPacket`, with the ranges it asks for. -/
def getPartialPacket (fragments : Fragments) : Option (List UInt8 × List FragmentRequest) :=
  match fragments.fragments with
  | [] => none
  | first :: rest =>
      if 0 < first.2 then some ([], []) else some (partialLoop [] 0 [] (first :: rest))

end Fragments

/-! ## Reassembly -/

/-- `FragmentKey_t`: the addresses, and the identification with the protocol. -/
abbrev FragmentKey := Nat × Nat

def fragmentKey (ipHeader : Ipv4Header) : FragmentKey :=
  (ipHeader.source * 4294967296 + ipHeader.destination,
    ipHeader.identification * 65536 + ipHeader.protocol)

/-- The fragments of a key, new ones when there are none. -/
def fragmentsOf (table : Table FragmentKey Fragments) (key : FragmentKey) : Fragments :=
  (lookup key table).getD {}

/-- `ProcessFragment`: the table, the packet, and whether it is entire. -/
def processFragment (table : Table FragmentKey Fragments) (packet : List UInt8)
    (ipHeader : Ipv4Header) : Option (Table FragmentKey Fragments × List UInt8 × Bool) :=
  let fragments := (fragmentsOf table (fragmentKey ipHeader)).addFragment packet
    ipHeader.fragmentOffset ipHeader.moreFragments
  if fragments.isEntire then
    fragments.getPacket.map fun entire => (erase (fragmentKey ipHeader) table, entire, true)
  else some (upsert (fragmentKey ipHeader) (fun _ => fragments) table, packet, false)

/-- `HandleFragmentsTimeout`: the table, the packet, and whether an ICMP message is sent. -/
def handleFragmentsTimeout (table : Table FragmentKey Fragments) (key : FragmentKey) :
    Option (Table FragmentKey Fragments × List UInt8 × Bool) :=
  (lookup key table).bind fun fragments => fragments.getPartialPacket.map fun packet =>
    (erase key table, packet.1, decide (8 < packet.1.length))

/-! ## Runs -/

/-- The table, and the fragments received of datagrams that are not entire. -/
structure Reassembling where
  table : Table FragmentKey Fragments := []
  received : List Ipv4PayloadHeaderPair := []

namespace Reassembling

/-- The fragments of a key. -/
def ofKey (reassembling : Reassembling) (key : FragmentKey) : List Ipv4PayloadHeaderPair :=
  reassembling.received.filter fun piece => fragmentKey piece.2 = key

/-- A fragment arrives; those of an entire datagram are forgotten. -/
def step (reassembling : Reassembling) (piece : Ipv4PayloadHeaderPair) : Option Reassembling :=
  (processFragment reassembling.table piece.1 piece.2).map fun result =>
    { table := result.1
      received :=
        if result.2.2 then
          reassembling.received.filter fun other => fragmentKey other.2 ≠ fragmentKey piece.2
        else reassembling.received ++ [piece] }

def run : Reassembling → List Ipv4PayloadHeaderPair → Option Reassembling :=
  Foundation.Runs.runFrom step

end Reassembling

end DeepcV2x.Ipv4
