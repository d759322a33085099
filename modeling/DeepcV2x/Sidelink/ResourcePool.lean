import DeepcV2x.Foundation.Association
import DeepcV2x.Sidelink.PhysicalPool

/-!
# The sidelink resource pool

The configuration of a resource pool, the slots with PSFCH, and the look-up of
sidelink slots in the physical pool as `NrSlCommResourcePool` does it.
-/

namespace DeepcV2x.Sidelink

open DeepcV2x.Foundation.Strings DeepcV2x.Foundation.Association

/-! ## Configuration values -/

inductive SlLengthSymbols
  | SYM7 | SYM8 | SYM9 | SYM10 | SYM11 | SYM12 | SYM13 | SYM14 | INVALID
  deriving DecidableEq, Repr

inductive SlStartSymbol
  | SYM0 | SYM1 | SYM2 | SYM3 | SYM4 | SYM5 | SYM6 | SYM7 | INVALID
  deriving DecidableEq, Repr

inductive SlTimeResourcePscch
  | N1 | N2 | N3 | INVALID
  deriving DecidableEq, Repr

inductive SlFreqResourcePscch
  | N10 | N12 | N15 | N20 | N25 | INVALID
  deriving DecidableEq, Repr

inductive SlSubchannelSize
  | N10 | N15 | N20 | N25 | N50 | N75 | N100 | INVALID
  deriving DecidableEq, Repr

inductive SlSelectionWindow
  | N1 | N5 | N10 | N20 | INVALID
  deriving DecidableEq, Repr

inductive SlMaxNumPerReserve
  | N1 | N2 | N3 | INVALID
  deriving DecidableEq, Repr

inductive SlPsfchPeriod
  | SL0 | SL1 | SL2 | SL4 | INVALID
  deriving DecidableEq, Repr

def getSlLengthSymbolsValue : SlLengthSymbols → Except Failure UInt16
  | .SYM7 => .ok 7
  | .SYM8 => .ok 8
  | .SYM9 => .ok 9
  | .SYM10 => .ok 10
  | .SYM11 => .ok 11
  | .SYM12 => .ok 12
  | .SYM13 => .ok 13
  | .SYM14 => .ok 14
  | .INVALID => .error .fatalError

def getSlStartSymbolValue : SlStartSymbol → Except Failure UInt16
  | .SYM0 => .ok 0
  | .SYM1 => .ok 1
  | .SYM2 => .ok 2
  | .SYM3 => .ok 3
  | .SYM4 => .ok 4
  | .SYM5 => .ok 5
  | .SYM6 => .ok 6
  | .SYM7 => .ok 7
  | .INVALID => .error .fatalError

def getSlTResoPscchValue : SlTimeResourcePscch → Except Failure UInt16
  | .N1 => .ok 1
  | .N2 => .ok 2
  | .N3 => .ok 3
  | .INVALID => .error .fatalError

def getSlFResoPscchValue : SlFreqResourcePscch → Except Failure UInt16
  | .N10 => .ok 10
  | .N12 => .ok 12
  | .N15 => .ok 15
  | .N20 => .ok 20
  | .N25 => .ok 25
  | .INVALID => .error .fatalError

def getNrSlSubChSizeValue : SlSubchannelSize → Except Failure UInt16
  | .N10 => .ok 10
  | .N15 => .ok 15
  | .N20 => .ok 20
  | .N25 => .ok 25
  | .N50 => .ok 50
  | .N75 => .ok 75
  | .N100 => .ok 100
  | .INVALID => .error .fatalError

def getSlSelWindowValue : SlSelectionWindow → Except Failure UInt16
  | .N1 => .ok 1
  | .N5 => .ok 5
  | .N10 => .ok 10
  | .N20 => .ok 20
  | .INVALID => .error .fatalError

def getSlMaxNumPerReserveValue : SlMaxNumPerReserve → Except Failure UInt16
  | .N1 => .ok 1
  | .N2 => .ok 2
  | .N3 => .ok 3
  | .INVALID => .error .fatalError

def getSlPsfchPeriodValue : SlPsfchPeriod → Except Failure UInt8
  | .SL0 => .ok 0
  | .SL1 => .ok 1
  | .SL2 => .ok 2
  | .SL4 => .ok 4
  | .INVALID => .error .fatalError

/-- The members of a pool that its users read; a fresh pool is invalid throughout. -/
structure SlResourcePoolNr where
  slTimeResourcePscch : SlTimeResourcePscch := .INVALID
  slFreqResourcePscch : SlFreqResourcePscch := .INVALID
  slPsfchPeriod : SlPsfchPeriod := .INVALID
  slSubchannelSize : SlSubchannelSize := .INVALID
  slSelectionWindow : SlSelectionWindow := .INVALID
  slMaxNumPerReserve : SlMaxNumPerReserve := .INVALID
  deriving DecidableEq, Repr

structure SlBwpConfigCommonNr where
  slLengthSymbols : SlLengthSymbols
  slStartSymbol : SlStartSymbol
  slTxPoolSelectedNormal : Table UInt16 SlResourcePoolNr

structure NrSlCommResourcePool where
  slBwpList : List SlBwpConfigCommonNr
  phySlPoolMap : Table UInt8 (Table UInt16 (List Bool))

structure SlotInfo where
  numSlPscchRbs : UInt16
  slPscchSymStart : UInt16
  slPscchSymLength : UInt16
  slPsschSymStart : UInt16
  slPsschSymLength : UInt16
  slHasPsfch : Bool
  slSubchannelSize : UInt16
  slMaxNumPerReserve : UInt16
  absSlotIndex : UInt64
  slotOffset : UInt32
  deriving DecidableEq, Repr

/-! ## Slots with PSFCH -/

/-- The inner loop of `SlotHasPsfch`: the count, the last bit seen and whether the limit was
reached. -/
def scanPool (numSlotsIntoCurrentPeriod : Nat) :
    List Bool → Nat → Nat → Bool → Nat × Bool × Bool
  | [], _, numSlSlots, current => (numSlSlots, current, false)
  | bit :: rest, position, numSlSlots, _ =>
      let counted := numSlSlots + if bit then 1 else 0
      if position = numSlotsIntoCurrentPeriod then (counted, bit, true)
      else scanPool numSlotsIntoCurrentPeriod rest (position + 1) counted bit

/-- The outer loop, over the repetitions of the pool that are left. -/
def scanPeriods (numSlotsIntoCurrentPeriod : Nat) (phyPool : List Bool) :
    Nat → Nat → Nat → Bool → Nat × Bool
  | 0, _, numSlSlots, current => (numSlSlots, current)
  | left + 1, i, numSlSlots, current =>
      let scanned := scanPool numSlotsIntoCurrentPeriod phyPool (i * phyPool.length) numSlSlots
        current
      if scanned.2.2 then (scanned.1, scanned.2.1)
      else scanPeriods numSlotsIntoCurrentPeriod phyPool left (i + 1) scanned.1 scanned.2.1

def slotHasPsfch (absIndexCurrentSlot : UInt64) (phyPool : List Bool) (psfchPeriod : UInt8) :
    Except Failure Bool :=
  if psfchPeriod = 0 then .ok false
  else
    let period : UInt16 := UInt16.ofNat (psfchPeriod.toNat * phyPool.length)
    if period = 0 then .error .divisionByZero
    else
      let scanned := scanPeriods (absIndexCurrentSlot.toNat % period.toNat) phyPool
        psfchPeriod.toNat 0 0 false
      .ok (scanned.2 && scanned.1 % psfchPeriod.toNat = 0)

namespace NrSlCommResourcePool

/-! ## Look-ups -/

variable (resources : NrSlCommResourcePool) (bwpId : UInt8) (poolId : UInt16)

/-- `ValidateBwpAndPoolId` and the pool it finds. -/
def getNrSlPhyPool : Except Failure (List Bool) :=
  match lookup bwpId resources.phySlPoolMap with
  | none => .error (.abort ("Unable to find bandwidth part id ".toList ++
      Nat.toDigits 10 bwpId.toNat))
  | some pools =>
      match lookup poolId pools with
      | none => .error (.abort ("Unable to find pool id ".toList ++ Nat.toDigits 10 poolId.toNat))
      | some phyPool => .ok phyPool

def slBwpConfig : Except Failure SlBwpConfigCommonNr :=
  match resources.slBwpList[bwpId.toNat]? with
  | none => .error .outOfRange
  | some config => .ok config

def getSlResourcePoolNr : Except Failure SlResourcePoolNr := do
  let config ← resources.slBwpConfig bwpId
  return (lookup poolId config.slTxPoolSelectedNormal).getD {}

def getAbsPoolIndex (absSlotIndex : UInt64) : Except Failure UInt16 := do
  let phyPool ← resources.getNrSlPhyPool bwpId poolId
  if phyPool.length = 0 then throw .divisionByZero
  else return UInt16.ofNat (absSlotIndex.toNat % phyPool.length)

def isSidelinkSlot (absSlotIndex : UInt64) : Except Failure Bool := do
  let absPoolIndex ← resources.getAbsPoolIndex bwpId poolId absSlotIndex
  let phyPool ← resources.getNrSlPhyPool bwpId poolId
  match phyPool[absPoolIndex.toNat]? with
  | none => throw .outOfRange
  | some bit => return bit

variable {resources bwpId poolId}

/-- What `IsSidelinkSlot` reads of the physical pool. -/
theorem isSidelinkSlot_of_index {phyPool : List Bool} {slot : UInt64} {index : UInt16}
    (hindex : resources.getAbsPoolIndex bwpId poolId slot = .ok index)
    (hpool : resources.getNrSlPhyPool bwpId poolId = .ok phyPool) :
    resources.isSidelinkSlot bwpId poolId slot =
      (phyPool[index.toNat]?).elim (.error .outOfRange) .ok := by
  rw [isSidelinkSlot, hindex, hpool]
  cases h : phyPool[index.toNat]? with
  | none => simp only [bind, Except.bind, h, Option.elim_none]; rfl
  | some bit => simp only [bind, Except.bind, h, Option.elim_some]; rfl

variable (resources bwpId poolId)

/-! ## Communication opportunities -/

/-- The least `T2` of a selection window, in physical slots. -/
def t2Min (pool : SlResourcePoolNr) (numerology : UInt16) : Except Failure UInt16 := do
  let sizeInt ← getSlSelWindowValue pool.slSelectionWindow
  return sizeInt * UInt16.ofNat (2 ^ numerology.toNat)

def slotInfo (pool : SlResourcePoolNr) (phyPool : List Bool)
    (totalSlSymbols slSymbolStart : UInt16) (psfchPeriod : UInt8)
    (absIndexCurrentSlot i : UInt64) : Except Failure SlotInfo := do
  let numSlPscchRbs ← getSlFResoPscchValue pool.slFreqResourcePscch
  let slPscchSymLength ← getSlTResoPscchValue pool.slTimeResourcePscch
  let slHasPsfch ← slotHasPsfch i phyPool psfchPeriod
  let slSubchannelSize ← getNrSlSubChSizeValue pool.slSubchannelSize
  let slMaxNumPerReserve ← getSlMaxNumPerReserveValue pool.slMaxNumPerReserve
  return {
    numSlPscchRbs := numSlPscchRbs
    slPscchSymStart := slSymbolStart
    slPscchSymLength := slPscchSymLength
    slPsschSymStart := slSymbolStart + slPscchSymLength
    slPsschSymLength :=
      if slHasPsfch then totalSlSymbols - slPscchSymLength - 1 - 3
      else totalSlSymbols - slPscchSymLength - 1
    slHasPsfch := slHasPsfch
    slSubchannelSize := slSubchannelSize
    slMaxNumPerReserve := slMaxNumPerReserve
    absSlotIndex := i
    slotOffset := (i - absIndexCurrentSlot).toUInt32 }

/-- The loop over the selection window; one unit of fuel for every turn. -/
def opportunitiesLoop (infoAt : UInt64 → Except Failure SlotInfo) (phyPool : List Bool)
    (lastAbsSlotIndex : UInt64) : Nat → UInt64 → UInt16 → List SlotInfo →
      Except Failure (List SlotInfo)
  | 0, _, _, _ => .error .endless
  | fuel + 1, i, absPoolIndex, list =>
      if i ≤ lastAbsSlotIndex then
        match phyPool[absPoolIndex.toNat]? with
        | none => .error .outOfRange
        | some bit => do
            let grown ← if bit then (infoAt i).map fun info => list ++ [info] else .ok list
            opportunitiesLoop infoAt phyPool lastAbsSlotIndex fuel (i + 1)
              (UInt16.ofNat ((absPoolIndex.toNat + 1) % phyPool.length)) grown
      else .ok list

def t2MinMessage (t2min t2 : UInt16) : Text :=
  "T2min(".toList ++ Nat.toDigits 10 t2min.toNat ++ ") should be less than or equal to T2(".toList ++
    Nat.toDigits 10 t2.toNat ++ ") in physical slots".toList

/-- A window whose last slot is not the last 64-bit number has at most `UInt16.size` slots; the
loop over any other window does not end. -/
def getNrSlCommOpportunities (absIndexCurrentSlot : UInt64) (numerology : UInt16) (t1 : UInt8)
    (t2 : UInt16) : Except Failure (List SlotInfo) := do
  let phyPool ← resources.getNrSlPhyPool bwpId poolId
  let pool ← resources.getSlResourcePoolNr bwpId poolId
  let slBwpConfigCommon ← resources.slBwpConfig bwpId
  let totalSlSymbols ← getSlLengthSymbolsValue slBwpConfigCommon.slLengthSymbols
  let slSymbolStart ← getSlStartSymbolValue slBwpConfigCommon.slStartSymbol
  let t2min ← t2Min pool numerology
  abortIf (t2 < t2min) (t2MinMessage t2min t2)
  let firstAbsSlotIndex := absIndexCurrentSlot + t1.toUInt64
  let lastAbsSlotIndex := absIndexCurrentSlot + t2.toUInt64
  if phyPool.length = 0 then throw .divisionByZero
  else do
    let absPoolIndex := UInt16.ofNat (firstAbsSlotIndex.toNat % phyPool.length)
    let psfchPeriod ← getSlPsfchPeriodValue pool.slPsfchPeriod
    opportunitiesLoop
      (slotInfo pool phyPool totalSlSymbols slSymbolStart psfchPeriod absIndexCurrentSlot)
      phyPool lastAbsSlotIndex (UInt16.size + 1) firstAbsSlotIndex absPoolIndex []

end NrSlCommResourcePool

end DeepcV2x.Sidelink
