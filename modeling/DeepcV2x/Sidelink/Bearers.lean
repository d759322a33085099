import DeepcV2x.Foundation.HashTables
import Mathlib.Data.List.Range
import Mathlib.Order.Nat

/-!
# Sidelink data radio bearers

The two stores of `NrSlUeRrc` are maps of maps: Tx bearers by destination and
logical channel, Rx bearers by the pair of source and destination and logical
channel.  They are compared with the flat maps from both keys that the stores
stand for.
-/

namespace DeepcV2x.Sidelink.Bearers

open DeepcV2x.Foundation.Association

/-- How a call ends that does not return. -/
inductive Stop
  | fatalError
  | assertion
  deriving DecidableEq, Repr

/-- The members of a bearer that the stores read; `object` tells bearers of equal ids apart. -/
structure NrSlDataRadioBearerInfo where
  sourceL2Id : UInt32
  destinationL2Id : UInt32
  logicalChannelIdentity : UInt8
  object : Nat
  deriving DecidableEq, Repr

abbrev NrSlDrbMapPerLcId := HashTable UInt8 NrSlDataRadioBearerInfo

/-! ## One store -/

section Store

variable {Key : Type*} [DecidableEq Key]

/-- `NrSlDrbMapPerL2Id` and `NrSlDrbMapPerPairL2Id`. -/
abbrev DrbMap (Key : Type*) := HashTable Key NrSlDrbMapPerLcId

/-- The body of both `Add` functions. -/
def addDrb (drbMap : DrbMap Key) (key : Key) (drb : NrSlDataRadioBearerInfo) :
    Except Stop (DrbMap Key) :=
  match drbMap.find key with
  | none => .ok (drbMap.put key (HashTable.empty.put drb.logicalChannelIdentity drb))
  | some perLcId =>
      if (perLcId.find drb.logicalChannelIdentity).isSome then .error .fatalError
      else .ok (drbMap.put key (perLcId.put drb.logicalChannelIdentity drb))

/-- The body of both `Remove` functions. -/
def removeDrb (drbMap : DrbMap Key) (key : Key) : DrbMap Key :=
  if (drbMap.find key).isSome then drbMap.erase key else drbMap

end Store

structure NrSlUeRrc where
  srcL2Id : UInt32
  slTxDrbMap : DrbMap UInt32
  slRxDrbMap : DrbMap (UInt32 × UInt32)

/-! ## The calls -/

def doAddNrSlTxDataRadioBearer (rrc : NrSlUeRrc) (slTxDrb : NrSlDataRadioBearerInfo) :
    Except Stop NrSlUeRrc := do
  let slTxDrbMap ← addDrb rrc.slTxDrbMap slTxDrb.destinationL2Id slTxDrb
  return { rrc with slTxDrbMap := slTxDrbMap }

def doAddNrSlRxDataRadioBearer (rrc : NrSlUeRrc) (slRxDrb : NrSlDataRadioBearerInfo) :
    Except Stop NrSlUeRrc := do
  let slRxDrbMap ← addDrb rrc.slRxDrbMap (slRxDrb.sourceL2Id, slRxDrb.destinationL2Id) slRxDrb
  return { rrc with slRxDrbMap := slRxDrbMap }

def doRemoveNrSlTxDataRadioBearer (rrc : NrSlUeRrc) (slTxDrb : NrSlDataRadioBearerInfo) :
    NrSlUeRrc :=
  { rrc with slTxDrbMap := removeDrb rrc.slTxDrbMap slTxDrb.destinationL2Id }

def doRemoveNrSlRxDataRadioBearer (rrc : NrSlUeRrc) (slRxDrb : NrSlDataRadioBearerInfo) :
    NrSlUeRrc :=
  { rrc with
    slRxDrbMap := removeDrb rrc.slRxDrbMap (slRxDrb.sourceL2Id, slRxDrb.destinationL2Id) }

def doGetAllSidelinkTxDataRadioBearers (rrc : NrSlUeRrc) (dstL2Id : UInt32) :
    Except Stop NrSlDrbMapPerLcId :=
  match rrc.slTxDrbMap.find dstL2Id with
  | none => .error .assertion
  | some perLcId => .ok perLcId

def doGetSidelinkTxDataRadioBearer (rrc : NrSlUeRrc) (dstL2Id : UInt32) (lcId : UInt8) :
    Except Stop NrSlDataRadioBearerInfo :=
  match (rrc.slTxDrbMap.find dstL2Id).bind fun perLcId => perLcId.find lcId with
  | none => .error .assertion
  | some drb => .ok drb

def doGetAllSidelinkRxDataRadioBearers (rrc : NrSlUeRrc) (srcL2Id : UInt32) :
    NrSlDrbMapPerLcId :=
  (rrc.slRxDrbMap.find (srcL2Id, rrc.srcL2Id)).getD HashTable.empty

def doGetSidelinkRxDataRadioBearer (rrc : NrSlUeRrc) (srcL2Id : UInt32) (lcId : UInt8) :
    Option NrSlDataRadioBearerInfo :=
  (rrc.slRxDrbMap.find (srcL2Id, rrc.srcL2Id)).bind fun perLcId => perLcId.find lcId

/-- The loop over `lcidTmp`; `0` is the invalid id it starts from. -/
def nextUnused (perLcId : NrSlDrbMapPerLcId) : Nat → Nat → UInt8
  | 0, _ => 0
  | left + 1, lcidTmp =>
      if (perLcId.find (UInt8.ofNat lcidTmp)).isSome then nextUnused perLcId left (lcidTmp + 1)
      else UInt8.ofNat lcidTmp

/-- The logical channel ids of data bearers: `firstLcid` up to, not including, `endLcid`. -/
def firstLcid : Nat := 5
def endLcid : Nat := 20

def doGetNextLcid (rrc : NrSlUeRrc) (dstL2Id : UInt32) : Except Stop UInt8 := do
  let lcid ← match rrc.slTxDrbMap.find dstL2Id with
    | none => .ok (UInt8.ofNat firstLcid)
    | some perLcId =>
        if perLcId.size = 16 then .error .fatalError
        else .ok (nextUnused perLcId (endLcid - firstLcid) firstLcid)
  if lcid = 0 then .error .assertion else return lcid

inductive Call
  | addTx (drb : NrSlDataRadioBearerInfo)
  | addRx (drb : NrSlDataRadioBearerInfo)
  | removeTx (drb : NrSlDataRadioBearerInfo)
  | removeRx (drb : NrSlDataRadioBearerInfo)
  | getTx (dstL2Id : UInt32) (lcId : UInt8)
  | getRx (srcL2Id : UInt32) (lcId : UInt8)
  | getAllTx (dstL2Id : UInt32)
  | getAllRx (srcL2Id : UInt32)
  | getNextLcid (dstL2Id : UInt32)
  deriving DecidableEq, Repr

inductive Answer
  | done
  | drb (found : Option NrSlDataRadioBearerInfo)
  | drbs (found : NrSlDrbMapPerLcId)
  | lcid (next : UInt8)

def step (rrc : NrSlUeRrc) : Call → Except Stop (Answer × NrSlUeRrc)
  | .addTx drb => (doAddNrSlTxDataRadioBearer rrc drb).map fun next => (.done, next)
  | .addRx drb => (doAddNrSlRxDataRadioBearer rrc drb).map fun next => (.done, next)
  | .removeTx drb => .ok (.done, doRemoveNrSlTxDataRadioBearer rrc drb)
  | .removeRx drb => .ok (.done, doRemoveNrSlRxDataRadioBearer rrc drb)
  | .getTx dstL2Id lcId =>
      (doGetSidelinkTxDataRadioBearer rrc dstL2Id lcId).map fun drb => (.drb (some drb), rrc)
  | .getRx srcL2Id lcId => .ok (.drb (doGetSidelinkRxDataRadioBearer rrc srcL2Id lcId), rrc)
  | .getAllTx dstL2Id =>
      (doGetAllSidelinkTxDataRadioBearers rrc dstL2Id).map fun found => (.drbs found, rrc)
  | .getAllRx srcL2Id => .ok (.drbs (doGetAllSidelinkRxDataRadioBearers rrc srcL2Id), rrc)
  | .getNextLcid dstL2Id => (doGetNextLcid rrc dstL2Id).map fun next => (.lcid next, rrc)

/-! ## The maps the stores stand for -/

/-- A map from two keys. -/
abbrev FlatMap (Key : Type*) := Key → UInt8 → Option NrSlDataRadioBearerInfo

def FlatMap.set {Key : Type*} [DecidableEq Key] (bearers : FlatMap Key) (key : Key) (lcId : UInt8)
    (value : Option NrSlDataRadioBearerInfo) : FlatMap Key :=
  fun otherKey otherLcId =>
    if otherKey = key ∧ otherLcId = lcId then value else bearers otherKey otherLcId

structure BearerMaps where
  tx : FlatMap UInt32
  rx : FlatMap (UInt32 × UInt32)

def BearerMaps.none : BearerMaps := ⟨fun _ _ => Option.none, fun _ _ => Option.none⟩

/-- A call on the maps changes the one bearer it names. -/
def BearerMaps.after (maps : BearerMaps) : Call → BearerMaps
  | .addTx drb =>
      { maps with tx := maps.tx.set drb.destinationL2Id drb.logicalChannelIdentity (some drb) }
  | .addRx drb =>
      { maps with
        rx := maps.rx.set (drb.sourceL2Id, drb.destinationL2Id) drb.logicalChannelIdentity
          (some drb) }
  | .removeTx drb =>
      { maps with tx := maps.tx.set drb.destinationL2Id drb.logicalChannelIdentity Option.none }
  | .removeRx drb =>
      { maps with
        rx := maps.rx.set (drb.sourceL2Id, drb.destinationL2Id) drb.logicalChannelIdentity
          Option.none }
  | .getTx _ _ | .getRx _ _ | .getAllTx _ | .getAllRx _ | .getNextLcid _ => maps

/-- An id of the data range that the destination does not use. -/
def Unused (maps : BearerMaps) (dstL2Id : UInt32) (lcid : UInt8) : Prop :=
  firstLcid ≤ lcid.toNat ∧ lcid.toNat < endLcid ∧ maps.tx dstL2Id lcid = Option.none

/-- What a call must answer, for the UE with layer 2 id `ownL2Id`. -/
def Answers (ownL2Id : UInt32) (maps : BearerMaps) : Call → Answer → Prop
  | .addTx _, answer | .addRx _, answer | .removeTx _, answer | .removeRx _, answer =>
      answer = .done
  | .getTx dstL2Id lcId, answer => answer = .drb (maps.tx dstL2Id lcId)
  | .getRx srcL2Id lcId, answer => answer = .drb (maps.rx (srcL2Id, ownL2Id) lcId)
  | .getAllTx dstL2Id, answer => ∃ found, answer = .drbs found ∧ found.find = maps.tx dstL2Id
  | .getAllRx srcL2Id, answer =>
      ∃ found, answer = .drbs found ∧ found.find = maps.rx (srcL2Id, ownL2Id)
  | .getNextLcid dstL2Id, answer => ∃ next, answer = .lcid next ∧ Unused maps dstL2Id next

/-- The asserted preconditions; for the next id, that there is one. -/
def Permitted (maps : BearerMaps) : Call → Prop
  | .addTx drb => maps.tx drb.destinationL2Id drb.logicalChannelIdentity = Option.none
  | .addRx drb =>
      maps.rx (drb.sourceL2Id, drb.destinationL2Id) drb.logicalChannelIdentity = Option.none
  | .getTx dstL2Id lcId => ∃ drb, maps.tx dstL2Id lcId = some drb
  | .getAllTx dstL2Id => ∃ lcId drb, maps.tx dstL2Id lcId = some drb
  | .getNextLcid dstL2Id => ∃ lcid, Unused maps dstL2Id lcid
  | .removeTx _ | .removeRx _ | .getRx _ _ | .getAllRx _ => True

/-- All logical channel ids. -/
def allLcIds : List UInt8 := (List.range 256).map UInt8.ofNat

/-- The number of bearers of one destination. -/
def countStored (bearers : UInt8 → Option NrSlDataRadioBearerInfo) : Nat :=
  allLcIds.countP fun lcId => (bearers lcId).isSome

/-- A removal names the only bearer of its key, and the next id is not asked for while exactly 16
bearers are stored. -/
def Safe (maps : BearerMaps) : Call → Prop
  | .removeTx drb =>
      ∀ lcId, lcId ≠ drb.logicalChannelIdentity → maps.tx drb.destinationL2Id lcId = Option.none
  | .removeRx drb =>
      ∀ lcId, lcId ≠ drb.logicalChannelIdentity →
        maps.rx (drb.sourceL2Id, drb.destinationL2Id) lcId = Option.none
  | .getNextLcid dstL2Id => countStored (maps.tx dstL2Id) ≠ 16
  | .addTx _ | .addRx _ | .getTx _ _ | .getRx _ _ | .getAllTx _ | .getAllRx _ => True

/-- The bearers of a store by both keys. -/
def bearersOf {Key : Type*} [DecidableEq Key] (drbMap : DrbMap Key) : FlatMap Key :=
  fun key lcId => (drbMap.find key).bind fun perLcId => perLcId.find lcId

structure Represents (rrc : NrSlUeRrc) (maps : BearerMaps) : Prop where
  tx : bearersOf rrc.slTxDrbMap = maps.tx
  rx : bearersOf rrc.slRxDrbMap = maps.rx

/-- Along the calls every one returns, answers as the maps do and leaves their bearers. -/
def Follows : NrSlUeRrc → BearerMaps → List Call → Prop
  | rrc, maps, [] => Represents rrc maps
  | rrc, maps, call :: calls =>
      Represents rrc maps ∧ ∃ answer next, step rrc call = .ok (answer, next) ∧
        Answers rrc.srcL2Id maps call answer ∧ Follows next (maps.after call) calls

/-- A property of the maps and the call at every call of a sequence. -/
def Throughout (property : BearerMaps → Call → Prop) : BearerMaps → List Call → Prop
  | _, [] => True
  | maps, call :: calls => property maps call ∧ Throughout property (maps.after call) calls

/-! ## One store against its map -/

section Store

variable {Key : Type*} [DecidableEq Key]

/-- Adding a free bearer changes that bearer only. -/
theorem addDrb_of_free {drbMap : DrbMap Key} {key : Key} {drb : NrSlDataRadioBearerInfo}
    (free : bearersOf drbMap key drb.logicalChannelIdentity = none) :
    ∃ next, addDrb drbMap key drb = .ok next ∧
      bearersOf next = (bearersOf drbMap).set key drb.logicalChannelIdentity (some drb) := by
  cases hfind : drbMap.find key with
  | none =>
      refine ⟨drbMap.put key (HashTable.empty.put drb.logicalChannelIdentity drb), ?_, ?_⟩
      · simp only [addDrb, hfind]
      · funext otherKey lcId
        by_cases sameKey : otherKey = key
        · subst sameKey
          simp [bearersOf, FlatMap.set, hfind]
        · simp [bearersOf, FlatMap.set, sameKey]
  | some perLcId =>
      have hfree : perLcId.find drb.logicalChannelIdentity = none := by
        simpa [bearersOf, hfind] using free
      refine ⟨drbMap.put key (perLcId.put drb.logicalChannelIdentity drb), ?_, ?_⟩
      · simp only [addDrb, hfind, hfree, Option.isSome_none]
        exact if_neg Bool.false_ne_true
      · funext otherKey lcId
        by_cases sameKey : otherKey = key
        · subst sameKey
          simp [bearersOf, FlatMap.set, hfind]
        · simp [bearersOf, FlatMap.set, sameKey]

/-- Removing drops every bearer of the key. -/
theorem bearersOf_removeDrb (drbMap : DrbMap Key) (key otherKey : Key) (lcId : UInt8) :
    bearersOf (removeDrb drbMap key) otherKey lcId =
      if otherKey = key then none else bearersOf drbMap otherKey lcId := by
  unfold removeDrb
  split
  · by_cases sameKey : otherKey = key
    · simp [bearersOf, sameKey]
    · simp [bearersOf, sameKey]
  · next absent =>
      by_cases sameKey : otherKey = key
      · subst sameKey
        simp [bearersOf, Option.not_isSome_iff_eq_none.mp absent]
      · simp [sameKey]

/-- The removal is that of one bearer exactly when the key has no other. -/
theorem removeDrb_iff (drbMap : DrbMap Key) (key : Key) (removed : UInt8) :
    bearersOf (removeDrb drbMap key) = (bearersOf drbMap).set key removed none ↔
      ∀ lcId, lcId ≠ removed → bearersOf drbMap key lcId = none := by
  constructor
  · intro heq lcId hne
    have hat := congrFun (congrFun heq key) lcId
    rw [bearersOf_removeDrb, if_pos rfl] at hat
    simpa [FlatMap.set, hne] using hat.symm
  · intro alone
    funext otherKey lcId
    rw [bearersOf_removeDrb]
    by_cases sameKey : otherKey = key
    · subst sameKey
      by_cases sameLcId : lcId = removed
      · simp [FlatMap.set, sameLcId]
      · simp [FlatMap.set, sameLcId, alone lcId sameLcId]
    · simp [FlatMap.set, sameKey]

end Store

/-! ## The next logical channel id -/

/-- From `lcidTmp` on the loop stops at an id not in use when there is one ahead. -/
theorem nextUnused_spec (perLcId : NrSlDrbMapPerLcId) (left : Nat) {lcidTmp free : Nat}
    (start : lcidTmp ≤ free) (ahead : free < lcidTmp + left)
    (unused : perLcId.find (UInt8.ofNat free) = none) :
    ∃ next, nextUnused perLcId left lcidTmp = UInt8.ofNat next ∧ lcidTmp ≤ next ∧
      next < lcidTmp + left ∧ perLcId.find (UInt8.ofNat next) = none := by
  induction left generalizing lcidTmp with
  | zero => omega
  | succ left ih =>
      unfold nextUnused
      split
      · next used =>
          have hne : lcidTmp ≠ free := by
            rintro rfl
            rw [unused] at used
            exact absurd used (by simp)
          obtain ⟨next, hnext, hlow, hhigh, hfree⟩ :=
            @ih (lcidTmp + 1) (by omega) (by omega)
          exact ⟨next, hnext, by omega, by omega, hfree⟩
      · next here =>
          exact ⟨lcidTmp, rfl, le_refl _, by omega, Option.not_isSome_iff_eq_none.mp here⟩

theorem mem_allLcIds (lcId : UInt8) : lcId ∈ allLcIds := by
  have hlt : lcId.toNat < 256 := lcId.toNat_lt
  exact List.mem_map.mpr ⟨lcId.toNat, List.mem_range.mpr hlt, UInt8.ofNat_toNat⟩

theorem allLcIds_nodup : allLcIds.Nodup := by
  apply List.Nodup.map_on ?_ List.nodup_range
  intro first hfirst second hsecond heq
  have hnat := congrArg UInt8.toNat heq
  rwa [UInt8.toNat_ofNat_of_lt' (List.mem_range.mp hfirst),
    UInt8.toNat_ofNat_of_lt' (List.mem_range.mp hsecond)] at hnat

/-- The size of the map of one destination counts its bearers. -/
theorem countStored_find (perLcId : NrSlDrbMapPerLcId) :
    countStored perLcId.find = perLcId.size :=
  (perLcId.size_eq_countP allLcIds_nodup mem_allLcIds).symm

theorem bearersOf_of_find {drbMap : DrbMap UInt32} {dstL2Id : UInt32}
    {perLcId : NrSlDrbMapPerLcId} (hfind : drbMap.find dstL2Id = some perLcId) :
    bearersOf drbMap dstL2Id = perLcId.find := by
  funext lcId
  simp [bearersOf, hfind]

theorem bearersOf_of_find_none {drbMap : DrbMap UInt32} {dstL2Id : UInt32}
    (hfind : drbMap.find dstL2Id = none) : bearersOf drbMap dstL2Id = fun _ => none := by
  funext lcId
  simp [bearersOf, hfind]

/-- While an id is free, one is returned exactly when the store does not hold 16 bearers. -/
theorem doGetNextLcid_iff {rrc : NrSlUeRrc} {maps : BearerMaps} (represents : Represents rrc maps)
    {dstL2Id : UInt32} (free : ∃ lcid, Unused maps dstL2Id lcid) :
    (∃ lcid, doGetNextLcid rrc dstL2Id = .ok lcid ∧ Unused maps dstL2Id lcid) ↔
      countStored (maps.tx dstL2Id) ≠ 16 := by
  cases hfind : rrc.slTxDrbMap.find dstL2Id with
  | none =>
      have hnone : maps.tx dstL2Id = fun _ => none := by
        rw [← represents.tx, bearersOf_of_find_none hfind]
      constructor
      · intro _
        rw [hnone]
        simp [countStored]
      · intro _
        refine ⟨5, ?_, by decide, by decide, by rw [hnone]⟩
        unfold doGetNextLcid
        rw [hfind]
        rfl
  | some perLcId =>
      have htable : maps.tx dstL2Id = perLcId.find := by
        rw [← represents.tx, bearersOf_of_find hfind]
      rw [htable, countStored_find]
      constructor
      · rintro ⟨lcid, hnext, -⟩ hfull
        unfold doGetNextLcid at hnext
        rw [hfind] at hnext
        dsimp only at hnext
        rw [if_pos hfull] at hnext
        cases hnext
      · intro hroom
        obtain ⟨lcid, hlow, hhigh, hunused⟩ := free
        rw [htable, ← @UInt8.ofNat_toNat lcid] at hunused
        obtain ⟨next, hnext, hstart, hend, hfree⟩ :=
          nextUnused_spec perLcId (endLcid - firstLcid) hlow
            (by simp only [endLcid, firstLcid] at hlow hhigh ⊢; omega) hunused
        have hsmall : next < 20 := by
          simp only [endLcid, firstLcid] at hend
          omega
        have hnat : (UInt8.ofNat next).toNat = next := UInt8.toNat_ofNat_of_lt' (by
          simp only [UInt8.size]
          omega)
        have hnonzero : UInt8.ofNat next ≠ 0 := by
          intro hzero
          rw [hzero] at hnat
          simp only [firstLcid] at hstart
          have : (0 : UInt8).toNat = 0 := rfl
          omega
        refine ⟨UInt8.ofNat next, ?_, ?_, ?_, ?_⟩
        · unfold doGetNextLcid
          rw [hfind]
          dsimp only
          rw [if_neg hroom, hnext]
          exact if_neg hnonzero
        · rw [hnat]
          exact hstart
        · rw [hnat]
          exact hsmall
        · rw [htable]
          exact hfree

/-! ## One call -/

/-- A call does what it does to the maps. -/
def Agrees (rrc : NrSlUeRrc) (maps : BearerMaps) (call : Call) : Prop :=
  ∃ answer next, step rrc call = .ok (answer, next) ∧ Answers rrc.srcL2Id maps call answer ∧
    Represents next (maps.after call)

theorem addTx_agrees {rrc : NrSlUeRrc} {maps : BearerMaps} (represents : Represents rrc maps)
    {drb : NrSlDataRadioBearerInfo} (permitted : Permitted maps (.addTx drb)) :
    Agrees rrc maps (.addTx drb) := by
  have free : bearersOf rrc.slTxDrbMap drb.destinationL2Id drb.logicalChannelIdentity = none := by
    rw [represents.tx]
    exact permitted
  obtain ⟨next, hnext, hview⟩ := addDrb_of_free free
  refine ⟨.done, { rrc with slTxDrbMap := next }, ?_, rfl, ⟨?_, represents.rx⟩⟩
  · simp only [step, doAddNrSlTxDataRadioBearer, hnext]
    rfl
  · rw [hview, represents.tx]
    rfl

theorem addRx_agrees {rrc : NrSlUeRrc} {maps : BearerMaps} (represents : Represents rrc maps)
    {drb : NrSlDataRadioBearerInfo} (permitted : Permitted maps (.addRx drb)) :
    Agrees rrc maps (.addRx drb) := by
  have free : bearersOf rrc.slRxDrbMap (drb.sourceL2Id, drb.destinationL2Id)
      drb.logicalChannelIdentity = none := by
    rw [represents.rx]
    exact permitted
  obtain ⟨next, hnext, hview⟩ := addDrb_of_free free
  refine ⟨.done, { rrc with slRxDrbMap := next }, ?_, rfl, ⟨represents.tx, ?_⟩⟩
  · simp only [step, doAddNrSlRxDataRadioBearer, hnext]
    rfl
  · rw [hview, represents.rx]
    rfl

theorem removeTx_agrees_iff {rrc : NrSlUeRrc} {maps : BearerMaps}
    (represents : Represents rrc maps) (drb : NrSlDataRadioBearerInfo) :
    Agrees rrc maps (.removeTx drb) ↔ Safe maps (.removeTx drb) := by
  have hremoved := removeDrb_iff rrc.slTxDrbMap drb.destinationL2Id drb.logicalChannelIdentity
  rw [represents.tx] at hremoved
  rw [Safe, ← hremoved]
  constructor
  · rintro ⟨answer, next, hstep, -, hnext⟩
    obtain ⟨-, rfl⟩ := Prod.mk.inj (Except.ok.inj hstep)
    exact hnext.tx
  · intro htx
    exact ⟨.done, _, rfl, rfl, ⟨htx, represents.rx⟩⟩

theorem removeRx_agrees_iff {rrc : NrSlUeRrc} {maps : BearerMaps}
    (represents : Represents rrc maps) (drb : NrSlDataRadioBearerInfo) :
    Agrees rrc maps (.removeRx drb) ↔ Safe maps (.removeRx drb) := by
  have hremoved := removeDrb_iff rrc.slRxDrbMap (drb.sourceL2Id, drb.destinationL2Id)
    drb.logicalChannelIdentity
  rw [represents.rx] at hremoved
  rw [Safe, ← hremoved]
  constructor
  · rintro ⟨answer, next, hstep, -, hnext⟩
    obtain ⟨-, rfl⟩ := Prod.mk.inj (Except.ok.inj hstep)
    exact hnext.rx
  · intro hrx
    exact ⟨.done, _, rfl, rfl, ⟨represents.tx, hrx⟩⟩

theorem getTx_agrees {rrc : NrSlUeRrc} {maps : BearerMaps} (represents : Represents rrc maps)
    {dstL2Id : UInt32} {lcId : UInt8} (permitted : Permitted maps (.getTx dstL2Id lcId)) :
    Agrees rrc maps (.getTx dstL2Id lcId) := by
  obtain ⟨drb, hdrb⟩ := permitted
  have hfound := hdrb
  rw [← represents.tx, bearersOf] at hfound
  refine ⟨.drb (some drb), rrc, ?_, ?_, represents⟩
  · simp only [step, doGetSidelinkTxDataRadioBearer, hfound]
    rfl
  · rw [Answers, hdrb]

theorem getAllTx_agrees {rrc : NrSlUeRrc} {maps : BearerMaps} (represents : Represents rrc maps)
    {dstL2Id : UInt32} (permitted : Permitted maps (.getAllTx dstL2Id)) :
    Agrees rrc maps (.getAllTx dstL2Id) := by
  obtain ⟨lcId, drb, hdrb⟩ := permitted
  rw [← represents.tx] at hdrb
  cases hfind : rrc.slTxDrbMap.find dstL2Id with
  | none =>
      rw [bearersOf_of_find_none hfind] at hdrb
      cases hdrb
  | some perLcId =>
      refine ⟨.drbs perLcId, rrc, ?_, ⟨perLcId, rfl, ?_⟩, represents⟩
      · simp only [step, doGetAllSidelinkTxDataRadioBearers, hfind]
        rfl
      · rw [← represents.tx, bearersOf_of_find hfind]

theorem getRx_agrees {rrc : NrSlUeRrc} {maps : BearerMaps} (represents : Represents rrc maps)
    (srcL2Id : UInt32) (lcId : UInt8) : Agrees rrc maps (.getRx srcL2Id lcId) := by
  refine ⟨_, rrc, rfl, ?_, represents⟩
  rw [Answers, ← represents.rx]
  rfl

theorem getAllRx_agrees {rrc : NrSlUeRrc} {maps : BearerMaps} (represents : Represents rrc maps)
    (srcL2Id : UInt32) : Agrees rrc maps (.getAllRx srcL2Id) := by
  refine ⟨_, rrc, rfl, ⟨_, rfl, ?_⟩, represents⟩
  rw [← represents.rx]
  funext lcId
  unfold doGetAllSidelinkRxDataRadioBearers bearersOf
  cases rrc.slRxDrbMap.find (srcL2Id, rrc.srcL2Id) with
  | none => rfl
  | some perLcId => rfl

theorem getNextLcid_agrees_iff {rrc : NrSlUeRrc} {maps : BearerMaps}
    (represents : Represents rrc maps) {dstL2Id : UInt32}
    (permitted : Permitted maps (.getNextLcid dstL2Id)) :
    Agrees rrc maps (.getNextLcid dstL2Id) ↔ Safe maps (.getNextLcid dstL2Id) := by
  rw [Safe, ← doGetNextLcid_iff represents permitted]
  constructor
  · rintro ⟨answer, next, hstep, ⟨lcid, rfl, hunused⟩, -⟩
    simp only [step] at hstep
    cases hnext : doGetNextLcid rrc dstL2Id with
    | error stop =>
        rw [hnext] at hstep
        cases hstep
    | ok found =>
        rw [hnext] at hstep
        obtain ⟨hfound, -⟩ := Prod.mk.inj (Except.ok.inj hstep)
        rw [Answer.lcid.injEq] at hfound
        exact ⟨found, rfl, by rw [hfound]; exact hunused⟩
  · rintro ⟨lcid, hnext, hunused⟩
    refine ⟨.lcid lcid, rrc, ?_, ⟨lcid, rfl, hunused⟩, represents⟩
    simp only [step, hnext]
    rfl

/-- A permitted call does what it does to the maps exactly when it is safe. -/
theorem agrees_iff_safe {rrc : NrSlUeRrc} {maps : BearerMaps} (represents : Represents rrc maps)
    (call : Call) (permitted : Permitted maps call) : Agrees rrc maps call ↔ Safe maps call := by
  cases call with
  | addTx drb => exact iff_of_true (addTx_agrees represents permitted) trivial
  | addRx drb => exact iff_of_true (addRx_agrees represents permitted) trivial
  | removeTx drb => exact removeTx_agrees_iff represents drb
  | removeRx drb => exact removeRx_agrees_iff represents drb
  | getTx dstL2Id lcId => exact iff_of_true (getTx_agrees represents permitted) trivial
  | getRx srcL2Id lcId => exact iff_of_true (getRx_agrees represents srcL2Id lcId) trivial
  | getAllTx dstL2Id => exact iff_of_true (getAllTx_agrees represents permitted) trivial
  | getAllRx srcL2Id => exact iff_of_true (getAllRx_agrees represents srcL2Id) trivial
  | getNextLcid dstL2Id => exact getNextLcid_agrees_iff represents permitted

/-! ## Sequences of calls -/

theorem Follows.represents {rrc : NrSlUeRrc} {maps : BearerMaps} {calls : List Call}
    (follows : Follows rrc maps calls) : Represents rrc maps := by
  cases calls with
  | nil => exact follows
  | cons call calls => exact follows.1

theorem follows_iff_of_represents (calls : List Call) {rrc : NrSlUeRrc} {maps : BearerMaps}
    (represents : Represents rrc maps) (permitted : Throughout Permitted maps calls) :
    Follows rrc maps calls ↔ Throughout Safe maps calls := by
  induction calls generalizing rrc maps with
  | nil => exact iff_of_true represents trivial
  | cons call calls ih =>
      have hcall := agrees_iff_safe represents call permitted.1
      constructor
      · rintro ⟨-, answer, next, hstep, hanswers, hfollows⟩
        have hsafe := hcall.mp ⟨answer, next, hstep, hanswers, hfollows.represents⟩
        exact ⟨hsafe, (ih hfollows.represents permitted.2).mp hfollows⟩
      · rintro ⟨hsafe, hrest⟩
        obtain ⟨answer, next, hstep, hanswers, hnext⟩ := hcall.mpr hsafe
        exact ⟨represents, answer, next, hstep, hanswers, (ih hnext permitted.2).mpr hrest⟩

/-- The stores before any call. -/
def NrSlUeRrc.fresh (srcL2Id : UInt32) : NrSlUeRrc := ⟨srcL2Id, HashTable.empty, HashTable.empty⟩

theorem fresh_represents (srcL2Id : UInt32) : Represents (.fresh srcL2Id) .none := ⟨rfl, rfl⟩

/-- Over every sequence of permitted calls the stores are the flat maps, with every answer right,
exactly when every call is safe. -/
theorem stores_follow_iff (srcL2Id : UInt32) (calls : List Call)
    (permitted : Throughout Permitted .none calls) :
    Follows (.fresh srcL2Id) .none calls ↔ Throughout Safe .none calls :=
  follows_iff_of_represents calls (fresh_represents srcL2Id) permitted

/-- A Tx bearer with source 1, destination 9 and the given logical channel. -/
def drbOf (lcId : UInt8) : NrSlDataRadioBearerInfo := ⟨1, 9, lcId, lcId.toNat⟩

/-- Two bearers of one destination, looked up and asked for a third. -/
theorem stores_follow_iff_two :
    Follows (.fresh 1) .none
        [.addTx (drbOf 5), .addTx (drbOf 6), .getTx 9 5, .getNextLcid 9] ↔
      Throughout Safe .none
        [.addTx (drbOf 5), .addTx (drbOf 6), .getTx 9 5, .getNextLcid 9] :=
  stores_follow_iff 1 _
    ⟨rfl, rfl, ⟨drbOf 5, rfl⟩, ⟨7, by decide, by decide, rfl⟩, trivial⟩

/-- Removing one of two bearers of a destination loses the other. -/
theorem removal_loses_other :
    Throughout Permitted .none [.addTx (drbOf 5), .addTx (drbOf 6), .removeTx (drbOf 5)] ∧
      ¬ Follows (.fresh 1) .none
        [.addTx (drbOf 5), .addTx (drbOf 6), .removeTx (drbOf 5)] := by
  refine ⟨⟨rfl, rfl, trivial, trivial⟩, ?_⟩
  rintro ⟨-, answer, first, hfirst, -, -, answer', second, hsecond, -, -, answer'', third, hthird,
    -, hrepresents⟩
  obtain ⟨-, rfl⟩ := Prod.mk.inj (Except.ok.inj hfirst)
  obtain ⟨-, rfl⟩ := Prod.mk.inj (Except.ok.inj hsecond)
  obtain ⟨-, rfl⟩ := Prod.mk.inj (Except.ok.inj hthird)
  have hlost := congrFun (congrFun hrepresents.tx 9) 6
  exact absurd hlost (by decide)

end DeepcV2x.Sidelink.Bearers
