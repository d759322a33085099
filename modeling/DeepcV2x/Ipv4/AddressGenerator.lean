import DeepcV2x.Foundation.Runs

/-!
# The IPv4 address generator

`Ipv4AddressGeneratorImpl` hands out the addresses of networks and keeps the
allocated ones as a list of blocks.  Addresses and masks are words of 32 bits.
-/

namespace DeepcV2x.Ipv4

/-- The state of the network of a mask. -/
structure NetworkState where
  mask : Nat
  shift : Nat
  network : Nat
  addr : Nat
  addrMax : Nat
  deriving DecidableEq, Repr

/-- A block of allocated addresses. -/
structure Entry where
  addrLow : Nat
  addrHigh : Nat
  deriving DecidableEq, Repr

/-- `Ipv4AddressGeneratorImpl`. -/
structure AddressGenerator where
  netTable : List NetworkState
  entries : List Entry := []
  test : Bool := false
  deriving DecidableEq, Repr

namespace AddressGenerator

/-- `- 1` of a `uint32_t`. -/
def pred32 (a : Nat) : Nat := (a + 4294967295) % 4294967296

/-! ## The networks -/

def mostSignificantBit : Nat := 2147483648

/-- The loop of `Reset` from an index on. -/
def tableFrom (mask : Nat) (i : Nat) : Nat → List NetworkState
  | 0 => []
  | left + 1 =>
      { mask, shift := 32 - i, network := 1, addr := 1, addrMax := 4294967295 - mask } ::
        tableFrom (mask >>> 1 ||| mostSignificantBit) (i + 1) left

/-- `Reset`. -/
def reset : AddressGenerator := { netTable := tableFrom 0 0 32 }

/-- `TestMode`. -/
def testMode (generator : AddressGenerator) : AddressGenerator := { generator with test := true }

/-- `MaskToIndex`, which aborts for an illegal mask. -/
def maskToIndex (mask : Nat) : Option Nat :=
  ((List.range 32).find? fun i => mask >>> i &&& 1 = 1).bind fun i =>
    if 0 < 32 - i ∧ 32 - i < 32 then some (32 - i) else none

/-- The network of a mask, and the generator with another one in its place. -/
def networkOf (generator : AddressGenerator) (mask : Nat) :
    Option (NetworkState × (NetworkState → AddressGenerator)) := do
  let index ← maskToIndex mask
  let state ← generator.netTable[index]?
  some (state, fun next => { generator with netTable := generator.netTable.set index next })

/-- `Init`, which aborts when the arguments are inconsistent. -/
def init (generator : AddressGenerator) (net mask addr : Nat) : Option AddressGenerator := do
  if net &&& (4294967295 - mask) ≠ 0 ∨ addr &&& mask ≠ 0 then none
  else
    let (state, put) ← generator.networkOf mask
    if addr ≤ state.addrMax then some (put { state with network := net >>> state.shift, addr })
    else none

/-- `NextNetwork`: the next network, and the generator. -/
def nextNetwork (generator : AddressGenerator) (mask : Nat) : Option (Nat × AddressGenerator) := do
  let (state, put) ← generator.networkOf mask
  let network := (state.network + 1) % 4294967296
  some (network <<< state.shift % 4294967296, put { state with network })

/-- `InitAddress`. -/
def initAddress (generator : AddressGenerator) (addr mask : Nat) : Option AddressGenerator := do
  let (state, put) ← generator.networkOf mask
  if addr ≤ state.addrMax then some (put { state with addr }) else none

/-! ## The allocated addresses -/

/-- A collision is fatal unless in test mode. -/
def collision (test : Bool) (entries : List Entry) : Option (List Entry × Bool) :=
  if test then some (entries, false) else none

/-- The loop of `AddAllocated`: the entries, and whether the address is new. -/
def addEntry (test : Bool) (addr : Nat) : List Entry → Option (List Entry × Bool)
  | [] => some ([⟨addr, addr⟩], true)
  | i :: rest =>
      if i.addrLow ≤ addr ∧ addr ≤ i.addrHigh then collision test (i :: rest)
      else if addr < pred32 i.addrLow then some (⟨addr, addr⟩ :: i :: rest, true)
      else if addr = (i.addrHigh + 1) % 4294967296 then
        if addr ∈ rest.head?.map Entry.addrLow then collision test (i :: rest)
        else some ({ i with addrHigh := addr } :: rest, true)
      else if addr = pred32 i.addrLow then some ({ i with addrLow := addr } :: rest, true)
      else (addEntry test addr rest).map fun added => (i :: added.1, added.2)

/-- `AddAllocated`, which aborts for the address zero. -/
def addAllocated (generator : AddressGenerator) (addr : Nat) : Option (AddressGenerator × Bool) :=
  if addr = 0 then none
  else (addEntry generator.test addr generator.entries).map fun added =>
    ({ generator with entries := added.1 }, added.2)

/-- `NextAddress`: the generator, and the address. -/
def nextAddress (generator : AddressGenerator) (mask : Nat) : Option (AddressGenerator × Nat) := do
  let (state, put) ← generator.networkOf mask
  if state.addr ≤ state.addrMax then
    let addr := state.network <<< state.shift % 4294967296 ||| state.addr
    let added ← (put { state with addr := (state.addr + 1) % 4294967296 }).addAllocated addr
    some (added.1, addr)
  else none

/-- `IsAddressAllocated`, which aborts for the address zero. -/
def isAddressAllocated (generator : AddressGenerator) (addr : Nat) : Option Bool :=
  if addr = 0 then none
  else some (generator.entries.any fun i => i.addrLow ≤ addr ∧ addr ≤ i.addrHigh)

/-- `IsNetworkAllocated`, which aborts unless the network has no other bits than the mask. -/
def isNetworkAllocated (generator : AddressGenerator) (address mask : Nat) : Option Bool :=
  if address ≠ address &&& mask then none
  else some (!generator.entries.any fun i =>
    address = i.addrLow &&& mask ∨ address = i.addrHigh &&& mask)

end AddressGenerator

/-! ## Runs -/

/-- The calls of the generator. -/
inductive AddressCall
  | init (net mask addr : Nat)
  | nextNetwork (mask : Nat)
  | initAddress (addr mask : Nat)
  | nextAddress (mask : Nat)
  | addAllocated (addr : Nat)
  | isAddressAllocated (addr : Nat)
  | isNetworkAllocated (address mask : Nat)
  deriving DecidableEq, Repr

/-- A generator, the addresses that it was told of or gave, and whether all its answers were right. -/
structure Allocating where
  generator : AddressGenerator
  added : List Nat := []
  right : Bool := true
  deriving DecidableEq, Repr

namespace Allocating

/-- The addresses of a network that were added. -/
def InNetwork (allocating : Allocating) (address mask : Nat) : Prop :=
  ∃ addr ∈ allocating.added, addr &&& mask = address

instance (allocating : Allocating) (address mask : Nat) :
    Decidable (allocating.InNetwork address mask) :=
  inferInstanceAs (Decidable (∃ addr ∈ allocating.added, addr &&& mask = address))

/-- An answer, and what it should have been. -/
def check (allocating : Allocating) (answer expected : Bool) : Allocating :=
  { allocating with right := allocating.right && (answer == expected) }

/-- A call, with the answer compared with the addresses that were added. -/
def step (allocating : Allocating) : AddressCall → Option Allocating
  | .init net mask addr =>
      (allocating.generator.init net mask addr).map fun generator => { allocating with generator }
  | .nextNetwork mask =>
      (allocating.generator.nextNetwork mask).map fun next =>
        { allocating with generator := next.2 }
  | .initAddress addr mask =>
      (allocating.generator.initAddress addr mask).map fun generator =>
        { allocating with generator }
  | .nextAddress mask =>
      (allocating.generator.nextAddress mask).map fun next =>
        { allocating with generator := next.1, added := allocating.added ++ [next.2] }
  | .addAllocated addr =>
      (allocating.generator.addAllocated addr).map fun next =>
        { allocating.check next.2 (decide (addr ∉ allocating.added)) with
          generator := next.1
          added := allocating.added ++ [addr] }
  | .isAddressAllocated addr =>
      (allocating.generator.isAddressAllocated addr).map fun answer =>
        allocating.check answer (decide (addr ∈ allocating.added))
  | .isNetworkAllocated address mask =>
      (allocating.generator.isNetworkAllocated address mask).map fun answer =>
        allocating.check answer (decide (allocating.InNetwork address mask))

/-- The generator in test mode, without any address. -/
def start : Allocating := { generator := AddressGenerator.reset.testMode }

def run : Allocating → List AddressCall → Option Allocating := Foundation.Runs.runFrom step

end Allocating

end DeepcV2x.Ipv4
