import DeepcV2x.Sidelink.ResourcePool

/-!
# Slot selection

The opportunities of a selection window are the selected slots of the TDD
pattern and the bitmap, in order and each once, and these are the slots
`IsSidelinkSlot` accepts.
-/

namespace DeepcV2x.Sidelink

open DeepcV2x.Foundation.Strings DeepcV2x.Foundation.Association DeepcV2x.Foundation.Cycles

namespace NrSlCommResourcePool

/-! ## The loop over the window -/

section Window

variable {infoAt : UInt64 → Except Failure SlotInfo} {phyPool : List Bool}
  {lastAbsSlotIndex : UInt64}

/-- What the loop adds for one slot. -/
def HasInfo (infoAt : UInt64 → Except Failure SlotInfo) (absIndexCurrentSlot : UInt64) : Prop :=
  ∀ i, ∃ info, infoAt i = .ok info ∧ info.absSlotIndex = i ∧
    info.slotOffset = (i - absIndexCurrentSlot).toUInt32

theorem toNat_ofNat_mod (hlength : phyPool.length ≤ UInt16.size) (hpos : 0 < phyPool.length)
    (index : Nat) : (UInt16.ofNat (index % phyPool.length)).toNat = index % phyPool.length :=
  UInt16.toNat_ofNat_of_lt (Nat.lt_of_lt_of_le (Nat.mod_lt _ hpos) hlength)

/-- From a slot of the window on, the loop lists the remaining sidelink slots. -/
theorem opportunitiesLoop_eq {absIndexCurrentSlot : UInt64}
    (hinfo : HasInfo infoAt absIndexCurrentSlot) (hlength : phyPool.length ≤ UInt16.size)
    (hpos : 0 < phyPool.length) (hlast : lastAbsSlotIndex.toNat + 1 < UInt64.size) (left : Nat) :
    ∀ (i : UInt64) (absPoolIndex : UInt16) (list : List SlotInfo) (fuel : Nat),
      i.toNat + left = lastAbsSlotIndex.toNat + 1 →
      absPoolIndex.toNat = i.toNat % phyPool.length → left < fuel →
      ∃ infos, opportunitiesLoop infoAt phyPool lastAbsSlotIndex fuel i absPoolIndex list =
          .ok (list ++ infos) ∧
        infos.map (fun info => info.absSlotIndex.toNat) = (List.range' i.toNat left).filter
          (fun slot => cycled phyPool slot = some true) ∧
        ∀ info ∈ infos, info.slotOffset = (info.absSlotIndex - absIndexCurrentSlot).toUInt32 := by
  induction left with
  | zero =>
      intro i absPoolIndex list fuel hend _ hfuel
      obtain ⟨fuel, rfl⟩ := Nat.exists_eq_succ_of_ne_zero (Nat.ne_of_gt hfuel)
      refine ⟨[], ?_, rfl, nofun⟩
      have hover : ¬ i ≤ lastAbsSlotIndex := by
        rw [UInt64.le_iff_toNat_le]
        omega
      rw [opportunitiesLoop, if_neg hover, List.append_nil]
  | succ left ih =>
      intro i absPoolIndex list fuel hend hindex hfuel
      obtain ⟨fuel, rfl⟩ := Nat.exists_eq_succ_of_ne_zero (Nat.ne_of_gt (Nat.zero_lt_of_lt hfuel))
      have hinside : i ≤ lastAbsSlotIndex := by
        rw [UInt64.le_iff_toNat_le]
        omega
      have hsucc : (i + 1).toNat = i.toNat + 1 := by
        rw [UInt64.toNat_add]
        exact Nat.mod_eq_of_lt (by
          have : UInt64.size = 2 ^ 64 := rfl
          show i.toNat + 1 < 2 ^ 64
          omega)
      have hnext : (UInt16.ofNat ((absPoolIndex.toNat + 1) % phyPool.length)).toNat =
          (i + 1).toNat % phyPool.length := by
        rw [toNat_ofNat_mod hlength hpos, hindex, Nat.mod_add_mod, hsucc]
      obtain ⟨bit, hbit⟩ : ∃ bit, cycled phyPool i.toNat = some bit :=
        ⟨_, List.getElem?_eq_getElem (Nat.mod_lt _ hpos)⟩
      have hread : phyPool[absPoolIndex.toNat]? = some bit := by
        rw [hindex]
        exact hbit
      rw [opportunitiesLoop, if_pos hinside, hread, List.range'_succ]
      cases bit with
      | false =>
          obtain ⟨infos, hloop, hslots, hoffsets⟩ := ih (i + 1) _ list fuel (by omega) hnext
            (by omega)
          refine ⟨infos, hloop, ?_, hoffsets⟩
          rw [hslots, hsucc, List.filter_cons_of_neg]
          simp only [hbit, decide_eq_true_eq, Option.some.injEq, Bool.false_eq_true,
            not_false_eq_true]
      | true =>
          obtain ⟨info, hok, habs, hoffset⟩ := hinfo i
          obtain ⟨infos, hloop, hslots, hoffsets⟩ := ih (i + 1) _ (list ++ [info]) fuel (by omega)
            hnext (by omega)
          refine ⟨info :: infos, ?_, ?_, ?_⟩
          · rw [List.append_cons, ← hloop]
            simp only [if_true, hok]
            rfl
          · rw [List.map_cons, hslots, hsucc, habs, List.filter_cons_of_pos]
            exact decide_eq_true hbit
          · intro other hmem
            rcases List.mem_cons.mp hmem with rfl | hmem
            · rw [hoffset, habs]
            · exact hoffsets other hmem

end Window

/-! ## Configured pools -/

/-- The physical pool is set and every value of the configuration is valid. -/
structure Configured (resources : NrSlCommResourcePool) (bwpId : UInt8) (poolId : UInt16)
    (numerology : UInt16) (phyPool : List Bool) where
  config : SlBwpConfigCommonNr
  pool : SlResourcePoolNr
  totalSlSymbols : UInt16
  slSymbolStart : UInt16
  numSlPscchRbs : UInt16
  slPscchSymLength : UInt16
  psfchPeriod : UInt8
  slSubchannelSize : UInt16
  slMaxNumPerReserve : UInt16
  t2min : UInt16
  phyPool_eq : resources.getNrSlPhyPool bwpId poolId = .ok phyPool
  config_eq : resources.slBwpConfig bwpId = .ok config
  pool_eq : resources.getSlResourcePoolNr bwpId poolId = .ok pool
  lengthSymbols : getSlLengthSymbolsValue config.slLengthSymbols = .ok totalSlSymbols
  startSymbol : getSlStartSymbolValue config.slStartSymbol = .ok slSymbolStart
  freqResource : getSlFResoPscchValue pool.slFreqResourcePscch = .ok numSlPscchRbs
  timeResource : getSlTResoPscchValue pool.slTimeResourcePscch = .ok slPscchSymLength
  period : getSlPsfchPeriodValue pool.slPsfchPeriod = .ok psfchPeriod
  subchannelSize : getNrSlSubChSizeValue pool.slSubchannelSize = .ok slSubchannelSize
  maxNumPerReserve : getSlMaxNumPerReserveValue pool.slMaxNumPerReserve = .ok slMaxNumPerReserve
  selectionWindow : t2Min pool numerology = .ok t2min

section Queries

variable {resources : NrSlCommResourcePool} {bwpId : UInt8} {poolId numerology : UInt16}
  {phyPool : List Bool}

/-- The period after which the PSFCH slots repeat, as a 16-bit number, does not vanish. -/
def PsfchRepeats (phyPool : List Bool) (psfchPeriod : UInt8) : Prop :=
  psfchPeriod = 0 ∨ psfchPeriod.toNat * phyPool.length % UInt16.size ≠ 0

theorem slotHasPsfch_ok {psfchPeriod : UInt8} (repeats : PsfchRepeats phyPool psfchPeriod)
    (slot : UInt64) : ∃ slHasPsfch, slotHasPsfch slot phyPool psfchPeriod = .ok slHasPsfch := by
  rw [slotHasPsfch]
  split
  · exact ⟨_, rfl⟩
  next hperiod =>
    rw [if_neg]
    · exact ⟨_, rfl⟩
    · intro hzero
      have htoNat : (UInt16.ofNat (psfchPeriod.toNat * phyPool.length)).toNat =
          psfchPeriod.toNat * phyPool.length % UInt16.size := UInt16.toNat_ofNat'
      rw [hzero] at htoNat
      exact repeats.elim hperiod fun hne => hne htoNat.symm

theorem Configured.hasInfo (configured : Configured resources bwpId poolId numerology phyPool)
    (repeats : PsfchRepeats phyPool configured.psfchPeriod) (absIndexCurrentSlot : UInt64) :
    HasInfo (slotInfo configured.pool phyPool configured.totalSlSymbols configured.slSymbolStart
      configured.psfchPeriod absIndexCurrentSlot) absIndexCurrentSlot := by
  intro i
  obtain ⟨slHasPsfch, hpsfch⟩ := slotHasPsfch_ok repeats i
  rw [slotInfo, configured.freqResource, configured.timeResource, hpsfch,
    configured.subchannelSize, configured.maxNumPerReserve]
  exact ⟨_, rfl, rfl, rfl⟩

/-- `IsSidelinkSlot` reads the repeated physical pool. -/
theorem isSidelinkSlot_eq (hpool : resources.getNrSlPhyPool bwpId poolId = .ok phyPool)
    (hlength : phyPool.length ≤ UInt16.size) (hpos : 0 < phyPool.length) (slot : UInt64) :
    resources.isSidelinkSlot bwpId poolId slot =
      .ok (decide (cycled phyPool slot.toNat = some true)) := by
  obtain ⟨bit, hbit⟩ : ∃ bit, cycled phyPool slot.toNat = some bit :=
    ⟨_, List.getElem?_eq_getElem (Nat.mod_lt _ hpos)⟩
  have hread : phyPool[(UInt16.ofNat (slot.toNat % phyPool.length)).toNat]? = some bit := by
    rw [toNat_ofNat_mod hlength hpos]
    exact hbit
  have hindex : resources.getAbsPoolIndex bwpId poolId slot =
      .ok (UInt16.ofNat (slot.toNat % phyPool.length)) := by
    rw [getAbsPoolIndex, hpool]
    exact if_neg (Nat.ne_of_gt hpos)
  rw [isSidelinkSlot_of_index hindex hpool, hread, hbit]
  cases bit <;> rfl

/-- The opportunities of a window that ends before the last 64-bit number. -/
theorem getNrSlCommOpportunities_eq
    (configured : Configured resources bwpId poolId numerology phyPool)
    (repeats : PsfchRepeats phyPool configured.psfchPeriod)
    (hlength : phyPool.length ≤ UInt16.size) (hpos : 0 < phyPool.length)
    {absIndexCurrentSlot : UInt64} {t1 : UInt8} {t2 : UInt16} (hwindow : t1.toNat ≤ t2.toNat)
    (ht2min : configured.t2min ≤ t2)
    (hlast : absIndexCurrentSlot.toNat + t2.toNat + 1 < UInt64.size) :
    ∃ list, resources.getNrSlCommOpportunities bwpId poolId absIndexCurrentSlot numerology t1 t2 =
        .ok list ∧
      list.map (fun info => info.absSlotIndex.toNat) =
        (List.range' (absIndexCurrentSlot.toNat + t1.toNat) (t2.toNat + 1 - t1.toNat)).filter
          (fun slot => cycled phyPool slot = some true) ∧
      ∀ info ∈ list, info.slotOffset = (info.absSlotIndex - absIndexCurrentSlot).toUInt32 := by
  have hsize : UInt64.size = 2 ^ 64 := rfl
  have hfirst : (absIndexCurrentSlot + t1.toUInt64).toNat =
      absIndexCurrentSlot.toNat + t1.toNat := by
    rw [UInt64.toNat_add, UInt8.toNat_toUInt64, Nat.mod_eq_of_lt (by omega)]
  have hend : (absIndexCurrentSlot + t2.toUInt64).toNat =
      absIndexCurrentSlot.toNat + t2.toNat := by
    rw [UInt64.toNat_add, UInt16.toNat_toUInt64, Nat.mod_eq_of_lt (by omega)]
  have ht2 : t2.toNat < UInt16.size := t2.toNat_lt
  obtain ⟨list, hloop, hslots, hoffsets⟩ := @opportunitiesLoop_eq _ phyPool
    (absIndexCurrentSlot + t2.toUInt64) _ (configured.hasInfo repeats absIndexCurrentSlot) hlength hpos (by omega)
    (t2.toNat + 1 - t1.toNat) (absIndexCurrentSlot + t1.toUInt64)
    (UInt16.ofNat ((absIndexCurrentSlot + t1.toUInt64).toNat % phyPool.length)) []
    (UInt16.size + 1) (by omega) (toNat_ofNat_mod hlength hpos _) (by omega)
  refine ⟨list, ?_, hfirst ▸ hslots, hoffsets⟩
  rw [getNrSlCommOpportunities, configured.phyPool_eq, configured.pool_eq, configured.config_eq]
  simp only [Except.bind, bind, configured.lengthSymbols, configured.startSymbol,
    configured.selectionWindow, configured.period]
  rw [decide_eq_false (UInt16.not_lt.mpr ht2min)]
  simp only [abortIf, Bool.false_eq_true, if_false, if_neg (Nat.ne_of_gt hpos)]
  exact hloop

end Queries

end NrSlCommResourcePool

/-! ## End to end -/

/-- A bitmap that `GetPhysicalSlPool` does not reject. -/
def Fits (slBitMap : List Bool) (tddPattern : List LteNrTddSlotType) : Prop :=
  0 < tddPattern.count .UL ∧ tddPattern.count .UL ∣ slBitMap.length ∧
    tddPattern.length ≤ slBitMap.length

section EndToEnd

variable (slBitMap : List Bool) (tddPattern : List LteNrTddSlotType)

/-- The opportunities are the selected slots of the window, in ascending order and each once,
with their offsets. -/
def ListsSelected (resources : NrSlCommResourcePool) (bwpId : UInt8)
    (poolId numerology : UInt16) (absIndexCurrentSlot : UInt64) (t1 : UInt8) (t2 : UInt16) :
    Prop :=
  ∃ list, resources.getNrSlCommOpportunities bwpId poolId absIndexCurrentSlot numerology t1 t2 =
      .ok list ∧
    list.map (fun info => info.absSlotIndex.toNat) =
      (List.range' (absIndexCurrentSlot.toNat + t1.toNat) (t2.toNat + 1 - t1.toNat)).filter
        (fun slot => Selected slBitMap tddPattern slot) ∧
    ∀ info ∈ list, info.slotOffset.toNat = info.absSlotIndex.toNat - absIndexCurrentSlot.toNat

/-- `IsSidelinkSlot` accepts exactly the selected slots. -/
def AcceptsSelected (resources : NrSlCommResourcePool) (bwpId : UInt8) (poolId : UInt16) : Prop :=
  ∀ slot : UInt64, resources.isSidelinkSlot bwpId poolId slot =
    .ok (decide (Selected slBitMap tddPattern slot.toNat))

variable {slBitMap tddPattern}

theorem physicalPool_selected {phyPool : List Bool} (fits : Fits slBitMap tddPattern)
    (hcount : tddPattern.count .UL < UInt16.size)
    (hpool : getPhysicalSlPool slBitMap tddPattern = .ok phyPool) :
    0 < phyPool.length ∧
      phyPool.length = tddPattern.length * (slBitMap.length / tddPattern.count .UL) ∧
      ∀ slot, cycled phyPool slot = some true ↔ Selected slBitMap tddPattern slot := by
  obtain ⟨hul, hmultiple, hsize⟩ := fits
  rw [getPhysicalSlPool_ok hul hcount hmultiple hsize] at hpool
  obtain rfl := Except.ok.inj hpool
  have hpattern : 0 < tddPattern.length := Nat.lt_of_lt_of_le hul List.count_le_length
  have hrounds : 0 < slBitMap.length / tddPattern.count .UL :=
    Nat.div_pos (Nat.le_of_dvd (Nat.lt_of_lt_of_le hpattern hsize) hmultiple) hul
  have hbits : slBitMap.length =
      tddPattern.count .UL * (slBitMap.length / tddPattern.count .UL) :=
    (Nat.mul_div_cancel' hmultiple).symm
  rw [List.length_map, List.length_range]
  refine ⟨Nat.mul_pos hpattern hrounds, rfl, ?_⟩
  intro slot
  rw [cycled, List.length_map, List.length_range, List.getElem?_map,
    List.getElem?_range (Nat.mod_lt _ (Nat.mul_pos hpattern hrounds)), Option.map_some,
    Option.some.injEq, decide_eq_true_eq, selected_mod hbits]

/-- A pattern and a bitmap either abort, or yield a pool of one bit for every slot of all rounds
with which the resource pool finds exactly the selected slots. -/
theorem slotSelection_exact (slBitMap : List Bool) (tddPattern : List LteNrTddSlotType)
    (hcount : tddPattern.count .UL < UInt16.size) :
    (¬ Fits slBitMap tddPattern →
      ∃ message, getPhysicalSlPool slBitMap tddPattern = .error (.abort message)) ∧
    (Fits slBitMap tddPattern →
      ∃ phyPool, getPhysicalSlPool slBitMap tddPattern = .ok phyPool ∧
        phyPool.length = tddPattern.length * (slBitMap.length / tddPattern.count .UL) ∧
        (phyPool.length ≤ UInt16.size → ∀ (resources : NrSlCommResourcePool) (bwpId : UInt8)
          (poolId : UInt16), resources.getNrSlPhyPool bwpId poolId = .ok phyPool →
          AcceptsSelected slBitMap tddPattern resources bwpId poolId ∧
          ∀ (numerology : UInt16)
            (configured : resources.Configured bwpId poolId numerology phyPool)
            (absIndexCurrentSlot : UInt64) (t1 : UInt8) (t2 : UInt16),
            NrSlCommResourcePool.PsfchRepeats phyPool configured.psfchPeriod →
            t1.toNat ≤ t2.toNat → configured.t2min ≤ t2 →
            absIndexCurrentSlot.toNat + t2.toNat + 1 < UInt64.size →
            ListsSelected slBitMap tddPattern resources bwpId poolId numerology
              absIndexCurrentSlot t1 t2)) := by
  constructor
  · exact getPhysicalSlPool_aborts hcount
  · intro fits
    have hok := getPhysicalSlPool_ok fits.1 hcount fits.2.1 fits.2.2
    obtain ⟨hpos, hlength, hselected⟩ := physicalPool_selected fits hcount hok
    refine ⟨_, hok, hlength, ?_⟩
    intro hshort resources bwpId poolId hpool
    constructor
    · intro slot
      rw [NrSlCommResourcePool.isSidelinkSlot_eq hpool hshort hpos]
      simp only [hselected]
    · intro numerology configured absIndexCurrentSlot t1 t2 repeats hwindow ht2min hlast
      obtain ⟨list, hlist, hslots, hoffsets⟩ := NrSlCommResourcePool.getNrSlCommOpportunities_eq
        configured repeats hshort hpos hwindow ht2min hlast
      simp only [hselected] at hslots
      refine ⟨list, hlist, hslots, ?_⟩
      intro info hmem
      have hinside : info.absSlotIndex.toNat ∈ List.range'
          (absIndexCurrentSlot.toNat + t1.toNat) (t2.toNat + 1 - t1.toNat) := by
        apply (List.mem_filter.mp (hslots ▸ List.mem_map_of_mem hmem)).1
      rw [List.mem_range'_1] at hinside
      have ht2 := t2.toNat_lt
      have hle : absIndexCurrentSlot ≤ info.absSlotIndex := by
        rw [UInt64.le_iff_toNat_le]
        omega
      rw [hoffsets info hmem, UInt64.toNat_toUInt32, UInt64.toNat_sub_of_le _ _ hle,
        Nat.mod_eq_of_lt (by omega)]

end EndToEnd

/-! ## One bandwidth part with one pool -/

def onePool (phyPool : List Bool) : NrSlCommResourcePool where
  slBwpList := [⟨.SYM14, .SYM0, [(0, ⟨.N1, .N10, .SL1, .N10, .N1, .N3⟩)]⟩]
  phySlPoolMap := [(0, [(0, phyPool)])]

def onePool_configured (phyPool : List Bool) (numerology : UInt16) :
    (onePool phyPool).Configured 0 0 numerology phyPool where
  config := ⟨.SYM14, .SYM0, [(0, ⟨.N1, .N10, .SL1, .N10, .N1, .N3⟩)]⟩
  pool := ⟨.N1, .N10, .SL1, .N10, .N1, .N3⟩
  totalSlSymbols := 14
  slSymbolStart := 0
  numSlPscchRbs := 10
  slPscchSymLength := 1
  psfchPeriod := 1
  slSubchannelSize := 10
  slMaxNumPerReserve := 3
  t2min := 1 * UInt16.ofNat (2 ^ numerology.toNat)
  phyPool_eq := rfl
  config_eq := rfl
  pool_eq := rfl
  lengthSymbols := rfl
  startSymbol := rfl
  freqResource := rfl
  timeResource := rfl
  period := rfl
  subchannelSize := rfl
  maxNumPerReserve := rfl
  selectionWindow := rfl

/-- Of the slots 6 to 13 of the pattern DL, UL with the bits 1 and 0, slots 9 and 13 are listed. -/
theorem slotSelection_exact_twoSlots :
    ListsSelected [true, false] [.DL, .UL] (onePool [false, true, false, false]) 0 0 0 5 1 8 := by
  have fits : Fits [true, false] [.DL, .UL] := by
    refine ⟨by decide, by decide, by decide⟩
  obtain ⟨phyPool, hok, -, hquery⟩ :=
    (slotSelection_exact [true, false] [.DL, .UL] (by decide)).2 fits
  have hpool : phyPool = [false, true, false, false] :=
    Except.ok.inj (hok.symm.trans (by decide))
  subst hpool
  exact (hquery (by decide) (onePool _) 0 0 rfl).2 0 (onePool_configured _ 0) 5 1 8
    (Or.inr (by decide)) (by decide) (by decide) (by decide)

/-- 65536 unset bits and a set one. -/
def longBitMap : List Bool := List.replicate 65536 false ++ [true]

theorem ulBefore_allUl (slot : Nat) : ulBefore [.UL] slot = slot := by
  have hwhole := @ulBefore_whole [.UL] slot
  rwa [show ([.UL] : List LteNrTddSlotType).length = 1 from rfl,
    show ([.UL] : List LteNrTddSlotType).count .UL = 1 from rfl, Nat.one_mul] at hwhole

theorem longBitMap_cycled {slot : Nat} (hslot : slot < 65537) :
    cycled longBitMap slot = some (decide (slot = 65536)) := by
  have hlength : longBitMap.length = 65537 := by
    rw [longBitMap, List.length_append, List.length_replicate]
    rfl
  rw [cycled_of_lt (hlength ▸ hslot), longBitMap]
  rcases Nat.lt_or_eq_of_le (Nat.le_of_lt_succ hslot) with hlt | rfl
  · rw [List.getElem?_append_left (by rwa [List.length_replicate]),
      List.getElem?_replicate_of_lt hlt, decide_eq_false (Nat.ne_of_lt hlt)]
  · rw [List.getElem?_append_right (by rw [List.length_replicate]), List.length_replicate,
      decide_eq_true rfl, Nat.sub_self]
    rfl

theorem selected_longBitMap_iff {slot : Nat} (hslot : slot < 65537) :
    Selected longBitMap [.UL] slot ↔ slot = 65536 := by
  have htype : cycled [LteNrTddSlotType.UL] slot = some .UL := by
    rw [cycled, List.length_singleton, Nat.mod_one]
    rfl
  rw [Selected, ulBefore_allUl, longBitMap_cycled hslot, Option.some.injEq, decide_eq_true_eq,
    and_iff_right htype]

/-- The index of slot 65536 is truncated to 0. -/
theorem longPool_misses {phyPool : List Bool} (hsize : phyPool.length = 65537)
    (hselected : ∀ slot, cycled phyPool slot = some true ↔ Selected longBitMap [.UL] slot) :
    ¬ AcceptsSelected longBitMap [.UL] (onePool phyPool) 0 0 := by
  intro accepts
  have hlast := accepts 65536
  rw [decide_eq_true ((selected_longBitMap_iff (by decide)).mpr (by decide))] at hlast
  have hindex : (onePool phyPool).getAbsPoolIndex 0 0 65536 = .ok 0 := by
    show (if phyPool.length = 0 then Except.error Failure.divisionByZero
      else Except.ok (UInt16.ofNat (65536 % phyPool.length))) = _
    rw [hsize]
    rfl
  have hfirst : phyPool[0]? = some true := by
    have hread := NrSlCommResourcePool.isSidelinkSlot_of_index hindex
      (show (onePool phyPool).getNrSlPhyPool 0 0 = .ok phyPool from rfl)
    rw [hlast] at hread
    cases hbit : phyPool[0]? with
    | none =>
        rw [show phyPool[(0 : UInt16).toNat]? = none from hbit] at hread
        cases hread
    | some bit =>
        rw [show phyPool[(0 : UInt16).toNat]? = some bit from hbit] at hread
        rw [Except.ok.inj hread]
  rw [← cycled_of_lt (by omega : 0 < phyPool.length), hselected,
    selected_longBitMap_iff (by decide)] at hfirst
  cases hfirst

/-- A window shorter than `T2min` aborts, and the 16-bit index of a pool of 65537 slots misses
its last slot. -/
theorem slotSelection_fails :
    (Fits [true] [.UL] ∧ getPhysicalSlPool [true] [.UL] = .ok [true] ∧
      ¬ ListsSelected [true] [.UL] (onePool [true]) 0 0 1 0 1 1) ∧
    Fits longBitMap [.UL] ∧ ∃ phyPool, getPhysicalSlPool longBitMap [.UL] = .ok phyPool ∧
      ¬ AcceptsSelected longBitMap [.UL] (onePool phyPool) 0 0 := by
  have hlength : longBitMap.length = 65537 := by
    rw [longBitMap, List.length_append, List.length_replicate]
    rfl
  have hul : ([.UL] : List LteNrTddSlotType).count .UL = 1 := rfl
  have fits : Fits longBitMap [.UL] := by
    rw [Fits, hul, hlength]
    exact ⟨Nat.one_pos, Nat.one_dvd _, Nat.succ_pos _⟩
  refine ⟨⟨⟨by decide, by decide, by decide⟩, by decide, ?_⟩, fits, ?_⟩
  · rintro ⟨list, hlist, -⟩
    have haborts : (onePool [true]).getNrSlCommOpportunities 0 0 0 1 1 1 =
        .error (.abort (NrSlCommResourcePool.t2MinMessage 2 1)) := by decide +kernel
    rw [haborts] at hlist
    cases hlist
  · obtain ⟨phyPool, hok⟩ : ∃ phyPool, getPhysicalSlPool longBitMap [.UL] = .ok phyPool :=
      ⟨_, getPhysicalSlPool_ok fits.1 (by decide) fits.2.1 fits.2.2⟩
    obtain ⟨-, hsize, hselected⟩ := physicalPool_selected fits (by decide) hok
    refine ⟨phyPool, hok, ?_⟩
    rw [hlength, hul, Nat.div_one, List.length_singleton, Nat.one_mul] at hsize
    exact longPool_misses hsize hselected

end DeepcV2x.Sidelink
