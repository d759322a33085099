import DeepcV2x.Foundation.HashTables
import DeepcV2x.Sidelink.ResourcePool
import Mathlib.Data.Fintype.Basic
import Mathlib.Data.Set.Basic

/-!
# Equality of sidelink resource pools

`NrSlCommResourcePool::operator==` compares the maps of physical pools, and
when these are equal the Tx pools of one BWP: the one the maps begin with.  A
call without a result (the first entry of an empty map, a BWP past the list, a
failed assertion) is `none`.
-/

namespace DeepcV2x.Sidelink.Equality

open DeepcV2x.Foundation.Association

inductive SetupRelease
  | RELEASE | SETUP | INVALID
  deriving DecidableEq, Repr

inductive SlSensingWindow
  | MS100 | MS1100 | INVALID
  deriving DecidableEq, Repr

inductive SlResourceReservePeriod
  | MS0 | MS10 | MS20 | MS30 | MS40 | MS50 | MS60 | MS70 | MS80 | MS90 | MS100 | MS150 | MS200
  | MS250 | MS300 | MS350 | MS400 | MS450 | MS500 | MS550 | MS600 | MS650 | MS700 | MS750 | MS800
  | MS850 | MS900 | MS950 | MS1000 | INVALID
  deriving DecidableEq, Repr

/-- The members of a Tx pool that the comparison reads, with their initial values. -/
structure SlResourcePoolConfigNr where
  haveSlResourcePoolConfigNr : Bool := false
  slResourcePoolId : UInt16 := 333
  setupRelease : SetupRelease := .INVALID
  slFreqResourcePscch : SlFreqResourcePscch := .INVALID
  slTimeResourcePscch : SlTimeResourcePscch := .INVALID
  slSubchannelSize : SlSubchannelSize := .INVALID
  slTimeResource : List Bool := []
  slSelectionWindow : SlSelectionWindow := .INVALID
  slSensingWindow : SlSensingWindow := .INVALID
  slMultiReserveResource : Bool := false
  slResourceReservePeriodList : List SlResourceReservePeriod := []
  deriving DecidableEq, Repr

/-- `slTxPoolSelectedNormal`, an array of `MAX_NUM_OF_TX_POOL` pools. -/
abbrev SlTxPools := Fin 8 → SlResourcePoolConfigNr

/-- The one carrier's `slBwpList` of `MAX_NUM_OF_SL_BWPs` BWPs, and the physical pools. -/
structure NrSlCommResourcePool where
  slBwpList : Fin 4 → SlTxPools
  phySlPoolMap : HashTable UInt8 (HashTable UInt16 (List Bool))

namespace NrSlCommResourcePool

/-- `slBwpList.at(bwpId)`. -/
def slTxPools (pool : NrSlCommResourcePool) (bwpId : UInt8) : Option SlTxPools :=
  if inRange : bwpId.toNat < 4 then some (pool.slBwpList ⟨bwpId.toNat, inRange⟩) else none

end NrSlCommResourcePool

/-- The walk over the two lists of reserve periods. -/
def listEquality : List SlResourceReservePeriod → List SlResourceReservePeriod → Bool
  | localPeriod :: listLocal, otherPeriod :: listOther =>
      if localPeriod = otherPeriod then false else listEquality listLocal listOther
  | _, _ => true

/-- The comparisons before the walk. -/
def sameScalars (here other : SlResourcePoolConfigNr) : Bool :=
  here.haveSlResourcePoolConfigNr == other.haveSlResourcePoolConfigNr &&
    here.slResourcePoolId == other.slResourcePoolId &&
    here.setupRelease == other.setupRelease &&
    here.slFreqResourcePscch == other.slFreqResourcePscch &&
    here.slTimeResourcePscch == other.slTimeResourcePscch &&
    here.slSubchannelSize == other.slSubchannelSize &&
    here.slTimeResource == other.slTimeResource &&
    here.slSelectionWindow == other.slSelectionWindow &&
    here.slSensingWindow == other.slSensingWindow &&
    here.slMultiReserveResource == other.slMultiReserveResource

/-- The loop over the Tx pools, left at the first that differs. -/
def comparePools (slTxPoolLocal slTxPoolOther : SlTxPools) : List (Fin 8) → Bool
  | [] => true
  | poolIndex :: rest =>
      if (sameScalars (slTxPoolLocal poolIndex) (slTxPoolOther poolIndex) &&
          listEquality (slTxPoolLocal poolIndex).slResourceReservePeriodList
            (slTxPoolOther poolIndex).slResourceReservePeriodList) = true then
        comparePools slTxPoolLocal slTxPoolOther rest
      else false

/-- `m_phySlPoolMap == other.m_phySlPoolMap`. -/
def equalPhySlPoolMaps (pool other : NrSlCommResourcePool) : Bool :=
  pool.phySlPoolMap.equalBy (HashTable.equalBy fun bits otherBits => bits == otherBits)
    other.phySlPoolMap

/-- `operator==`. -/
def equals (pool other : NrSlCommResourcePool) : Option Bool :=
  if equalPhySlPoolMaps pool other = true then do
    let bwpId ← pool.phySlPoolMap.firstKey
    let otherBwpId ← other.phySlPoolMap.firstKey
    if bwpId = otherBwpId then do
      let slTxPoolLocal ← pool.slTxPools bwpId
      let slTxPoolOther ← other.slTxPools bwpId
      some (comparePools slTxPoolLocal slTxPoolOther (List.finRange 8))
    else none
  else some false

/-! ## What equality is meant to be -/

/-- The physical pools as a function of BWP and pool ids. -/
def phyPools (pool : NrSlCommResourcePool) (bwpId : UInt8) :
    Option (UInt16 → Option (List Bool)) :=
  (pool.phySlPoolMap.find bwpId).map HashTable.find

/-- The two pools have the same physical pools, and the same Tx pools in the BWP compared. -/
structure Agree (pool other : NrSlCommResourcePool) : Prop where
  physical : phyPools pool = phyPools other
  compared : ∀ bwpId, pool.phySlPoolMap.firstKey = some bwpId →
    pool.slTxPools bwpId = other.slTxPools bwpId

/-- Among the pools of a set `==` always has a result, it is an equivalence, and it holds exactly
of the pools that agree. -/
structure EqualityOn (pools : Set NrSlCommResourcePool) : Prop where
  refl : ∀ a ∈ pools, equals a a = some true
  symm : ∀ a ∈ pools, ∀ b ∈ pools, equals a b = some true → equals b a = some true
  trans : ∀ a ∈ pools, ∀ b ∈ pools, ∀ c ∈ pools,
    equals a b = some true → equals b c = some true → equals a c = some true
  agree : ∀ a ∈ pools, ∀ b ∈ pools, ∃ result, equals a b = some result ∧
    (result = true ↔ Agree a b)

/-- The BWP compared exists, and none of its Tx pools has a reserve period. -/
def NoReservePeriods (pool : NrSlCommResourcePool) : Prop :=
  ∃ bwpId slTxPools, pool.phySlPoolMap.firstKey = some bwpId ∧
    pool.slTxPools bwpId = some slTxPools ∧
    ∀ poolIndex, (slTxPools poolIndex).slResourceReservePeriodList = []

/-- No pool of the set has a reserve period, and equal maps begin with one BWP. -/
structure Plain (pools : Set NrSlCommResourcePool) : Prop where
  noReservePeriods : ∀ a ∈ pools, NoReservePeriods a
  sameFirst : ∀ a ∈ pools, ∀ b ∈ pools, phyPools a = phyPools b →
    a.phySlPoolMap.firstKey = b.phySlPoolMap.firstKey

/-! ## The parts of the comparison -/

theorem equalPhySlPoolMaps_iff (pool other : NrSlCommResourcePool) :
    equalPhySlPoolMaps pool other = true ↔ phyPools pool = phyPools other := by
  unfold equalPhySlPoolMaps
  rw [@HashTable.equalBy_iff _ _ (UInt16 → Option (List Bool)) _ _ HashTable.find]
  · exact ⟨funext, congrFun⟩
  · intro table otherTable
    have inner : HashTable.equalBy (fun bits otherBits => bits == otherBits) table otherTable =
        true ↔ ∀ poolId, (table.find poolId).map id = (otherTable.find poolId).map id :=
      HashTable.equalBy_iff (fun _ _ => by simp) table otherTable
    rw [inner]
    constructor
    · intro each
      funext poolId
      simpa using each poolId
    · intro heq poolId
      rw [heq]

/-- A list differs from itself in the code's sense unless it is empty. -/
theorem listEquality_self (periods : List SlResourceReservePeriod) :
    listEquality periods periods = true ↔ periods = [] := by
  cases periods with
  | nil => simp [listEquality]
  | cons period rest => simp [listEquality]

theorem sameScalars_self (config : SlResourcePoolConfigNr) : sameScalars config config = true := by
  simp [sameScalars]

/-- Without reserve periods the scalar members are all there is. -/
theorem sameScalars_iff_of_nil {here other : SlResourcePoolConfigNr}
    (hereNil : here.slResourceReservePeriodList = [])
    (otherNil : other.slResourceReservePeriodList = []) :
    sameScalars here other = true ↔ here = other := by
  cases here
  cases other
  simp_all [sameScalars, and_assoc]

theorem comparePools_iff (slTxPoolLocal slTxPoolOther : SlTxPools) (indices : List (Fin 8)) :
    comparePools slTxPoolLocal slTxPoolOther indices = true ↔
      ∀ poolIndex ∈ indices,
        sameScalars (slTxPoolLocal poolIndex) (slTxPoolOther poolIndex) = true ∧
          listEquality (slTxPoolLocal poolIndex).slResourceReservePeriodList
            (slTxPoolOther poolIndex).slResourceReservePeriodList = true := by
  induction indices with
  | nil => simp [comparePools]
  | cons poolIndex rest ih =>
      rw [comparePools, List.forall_mem_cons, ← ih, ← Bool.and_eq_true]
      split
      · next same => simp [same]
      · next different => simp [different]

theorem comparePools_self (slTxPools : SlTxPools) :
    comparePools slTxPools slTxPools (List.finRange 8) = true ↔
      ∀ poolIndex, (slTxPools poolIndex).slResourceReservePeriodList = [] := by
  simp [comparePools_iff, sameScalars_self, listEquality_self]

theorem comparePools_of_nil {slTxPools otherTxPools : SlTxPools}
    (hereNil : ∀ poolIndex, (slTxPools poolIndex).slResourceReservePeriodList = [])
    (otherNil : ∀ poolIndex, (otherTxPools poolIndex).slResourceReservePeriodList = []) :
    comparePools slTxPools otherTxPools (List.finRange 8) = true ↔ slTxPools = otherTxPools := by
  rw [comparePools_iff]
  constructor
  · intro same
    funext poolIndex
    exact (sameScalars_iff_of_nil (hereNil poolIndex) (otherNil poolIndex)).mp
      (same poolIndex (List.mem_finRange poolIndex)).1
  · rintro rfl poolIndex -
    exact ⟨sameScalars_self _, (listEquality_self _).mpr (hereNil poolIndex)⟩

/-! ## When equality is an equivalence -/

/-- A pool equals itself exactly when the BWP compared has no reserve period. -/
theorem equals_self_iff (pool : NrSlCommResourcePool) :
    equals pool pool = some true ↔ NoReservePeriods pool := by
  unfold equals NoReservePeriods
  rw [if_pos ((equalPhySlPoolMaps_iff pool pool).mpr rfl)]
  cases pool.phySlPoolMap.firstKey with
  | none => simp
  | some bwpId =>
      cases hpools : pool.slTxPools bwpId with
      | none => simp [hpools]
      | some slTxPools => simp [hpools, comparePools_self]

/-- Equal maps give a result only where they begin with one BWP. -/
theorem firstKey_eq_of_equals {pool other : NrSlCommResourcePool} {result : Bool}
    (hresult : equals pool other = some result) (physical : phyPools pool = phyPools other) :
    pool.phySlPoolMap.firstKey = other.phySlPoolMap.firstKey := by
  unfold equals at hresult
  rw [if_pos ((equalPhySlPoolMaps_iff pool other).mpr physical)] at hresult
  cases hfirst : pool.phySlPoolMap.firstKey with
  | none => simp [hfirst] at hresult
  | some bwpId =>
      cases hother : other.phySlPoolMap.firstKey with
      | none => simp [hfirst, hother] at hresult
      | some otherBwpId =>
          by_cases same : bwpId = otherBwpId
          · rw [same]
          · simp [hfirst, hother, same] at hresult

/-- Without reserve periods and with one first BWP `==` decides agreement. -/
theorem equals_of_plain {pool other : NrSlCommResourcePool} (here : NoReservePeriods pool)
    (there : NoReservePeriods other)
    (sameFirst : phyPools pool = phyPools other →
      pool.phySlPoolMap.firstKey = other.phySlPoolMap.firstKey) :
    ∃ result, equals pool other = some result ∧ (result = true ↔ Agree pool other) := by
  by_cases physical : phyPools pool = phyPools other
  · obtain ⟨bwpId, slTxPools, hfirst, hpools, hnil⟩ := here
    obtain ⟨otherBwpId, otherTxPools, hotherFirst, hotherPools, hotherNil⟩ := there
    have hsame : bwpId = otherBwpId := by
      have hkeys := sameFirst physical
      rw [hfirst, hotherFirst] at hkeys
      exact Option.some.inj hkeys
    subst hsame
    refine ⟨comparePools slTxPools otherTxPools (List.finRange 8), ?_, ?_⟩
    · unfold equals
      rw [if_pos ((equalPhySlPoolMaps_iff pool other).mpr physical)]
      simp [hfirst, hotherFirst, hpools, hotherPools]
    · rw [comparePools_of_nil hnil hotherNil]
      constructor
      · intro same
        refine ⟨physical, ?_⟩
        intro first hfirst'
        rw [hfirst, Option.some.injEq] at hfirst'
        rw [← hfirst', hpools, hotherPools, same]
      · intro agree
        have hcompared := agree.compared bwpId hfirst
        rw [hpools, hotherPools, Option.some.injEq] at hcompared
        exact hcompared
  · refine ⟨false, ?_, ?_⟩
    · unfold equals
      rw [if_neg (mt (equalPhySlPoolMaps_iff pool other).mp physical)]
    · constructor
      · intro hfalse
        exact absurd hfalse Bool.false_ne_true
      · intro agree
        exact absurd agree.physical physical

theorem equals_iff_agree {pools : Set NrSlCommResourcePool} (plain : Plain pools)
    {a b : NrSlCommResourcePool} (ha : a ∈ pools) (hb : b ∈ pools) :
    equals a b = some true ↔ Agree a b := by
  obtain ⟨result, hresult, hagree⟩ := equals_of_plain (plain.noReservePeriods a ha)
    (plain.noReservePeriods b hb) (plain.sameFirst a ha b hb)
  rw [hresult, Option.some.injEq, hagree]

theorem Agree.symm_of_plain {pools : Set NrSlCommResourcePool} (plain : Plain pools)
    {a b : NrSlCommResourcePool} (ha : a ∈ pools) (hb : b ∈ pools) (agree : Agree a b) :
    Agree b a := by
  refine ⟨agree.physical.symm, ?_⟩
  intro bwpId hfirst
  rw [← plain.sameFirst a ha b hb agree.physical] at hfirst
  exact (agree.compared bwpId hfirst).symm

theorem Agree.trans_of_plain {pools : Set NrSlCommResourcePool} (plain : Plain pools)
    {a b c : NrSlCommResourcePool} (ha : a ∈ pools) (hb : b ∈ pools) (first : Agree a b)
    (second : Agree b c) : Agree a c := by
  refine ⟨first.physical.trans second.physical, ?_⟩
  intro bwpId hfirst
  rw [first.compared bwpId hfirst]
  rw [plain.sameFirst a ha b hb first.physical] at hfirst
  exact second.compared bwpId hfirst

/-- Among any pools `==` is agreement, hence an equivalence, exactly when none of them has a
reserve period in the BWP compared and equal maps begin with one BWP. -/
theorem equalityOn_iff_plain (pools : Set NrSlCommResourcePool) :
    EqualityOn pools ↔ Plain pools := by
  constructor
  · intro equality
    refine ⟨fun a ha => (equals_self_iff a).mp (equality.refl a ha), ?_⟩
    intro a ha b hb physical
    obtain ⟨result, hresult, -⟩ := equality.agree a ha b hb
    exact firstKey_eq_of_equals hresult physical
  · intro plain
    constructor
    · intro a ha
      exact (equals_self_iff a).mpr (plain.noReservePeriods a ha)
    · intro a ha b hb hequal
      rw [equals_iff_agree plain ha hb] at hequal
      exact (equals_iff_agree plain hb ha).mpr (hequal.symm_of_plain plain ha hb)
    · intro a ha b hb c hc hab hbc
      rw [equals_iff_agree plain ha hb] at hab
      rw [equals_iff_agree plain hb hc] at hbc
      exact (equals_iff_agree plain ha hc).mpr (hab.trans_of_plain plain ha hb hbc)
    · intro a ha b hb
      exact equals_of_plain (plain.noReservePeriods a ha) (plain.noReservePeriods b hb)
        (plain.sameFirst a ha b hb)

/-- One BWP with one physical pool, and one Tx pool with a reserve period of 100 ms. -/
def onePeriod : NrSlCommResourcePool where
  slBwpList := fun _ poolIndex =>
    if poolIndex = 0 then
      { haveSlResourcePoolConfigNr := true, slResourcePoolId := 0,
        slResourceReservePeriodList := [.MS100] }
    else {}
  phySlPoolMap := ⟨[(0, ⟨[(0, [true, false])], by decide⟩)], by decide⟩

/-- The pool does not equal itself. -/
theorem equals_onePeriod : equals onePeriod onePeriod = some false ∧ ¬ EqualityOn Set.univ := by
  have hself : equals onePeriod onePeriod = some false := by decide
  refine ⟨hself, ?_⟩
  intro equality
  have hrefl := equality.refl onePeriod (Set.mem_univ _)
  rw [hself] at hrefl
  exact absurd (Option.some.inj hrefl) Bool.false_ne_true

end DeepcV2x.Sidelink.Equality
