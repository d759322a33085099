import DeepcV2x.Lte.Blocks

/-!
# Serving the HARQ feedback

Each NACK below the retransmission limit sends its process again on RBGs that
are still free.  Later feedback finds the RBGs taken and the UE allocated; the
stored DCI of a UE changes with its own retransmission only.
-/

namespace DeepcV2x.Lte.RoundRobin

open DeepcV2x.Foundation.Marks
open DeepcV2x.Foundation.Runs

/-! ## What the feedback says -/

/-- The DCI of the process that a feedback element names. -/
def storedDci (scheduler : RrFfMacScheduler) (info : DlInfoListElement) :
    Option DlDciListElement := do
  let ue ← scheduler.ues info.rnti
  let process ← processAt info.harqProcessId
  return ue.processesDci process

/-- The process was used for a transmission. -/
def NamesUsed (scheduler : RrFfMacScheduler) (info : DlInfoListElement) : Prop :=
  ∃ dci ∈ storedDci scheduler info, dci.rv ≠ []

/-- A NACK below the retransmission limit. -/
def BelowLimit (scheduler : RrFfMacScheduler) (info : DlInfoListElement) : Prop :=
  HarqStatus.nack ∈ info.harqStatus ∧
    ∃ dci ∈ storedDci scheduler info, rvOf dci.rv ≠ some 3

instance (scheduler : RrFfMacScheduler) (info : DlInfoListElement) :
    Decidable (NamesUsed scheduler info) :=
  inferInstanceAs (Decidable (∃ dci ∈ storedDci scheduler info, dci.rv ≠ []))

instance (scheduler : RrFfMacScheduler) (info : DlInfoListElement) :
    Decidable (BelowLimit scheduler info) :=
  inferInstanceAs (Decidable (HarqStatus.nack ∈ info.harqStatus ∧
    ∃ dci ∈ storedDci scheduler info, rvOf dci.rv ≠ some 3))

/-- An element that repeats the layers that were not received, with their block sizes. -/
structure Retransmits (stored : DlDciListElement) (info : DlInfoListElement)
    (element : BuildDataListElement) : Prop where
  rnti : element.rnti = info.rnti
  process : element.dci.harqProcess = info.harqProcessId
  layers : ∀ layer : Nat, info.harqStatus[layer]? = some HarqStatus.nack →
    element.dci.ndi[layer]? = some 0 ∧
      ∀ size : Nat, stored.tbsSize[layer]? = some size →
        element.dci.tbsSize[layer]? = some size

/-! ## Stored transmissions -/

/-- What a used process holds. -/
structure Stored (rbgNum : Nat) (process : HarqProcess) (dci : DlDciListElement) : Prop where
  own : dci.harqProcess = process.val
  inCell : InCell rbgNum dci.rbBitmap
  versions : dci.ndi.length ≤ dci.rv.length
  schemes : dci.mcs.length = dci.ndi.length
  sizes : dci.tbsSize.length = dci.ndi.length

structure UeHarq.WellFormed (rbgNum : Nat) (ue : UeHarq) : Prop where
  mode : ue.transmissionMode ≤ 6
  stored : ∀ process, (ue.processesDci process).rv ≠ [] →
    Stored rbgNum process (ue.processesDci process)

theorem UeHarq.WellFormed.refresh {rbgNum : Nat} {ue : UeHarq} (hue : ue.WellFormed rbgNum) :
    ue.refresh.WellFormed rbgNum :=
  ⟨hue.mode, hue.stored⟩

theorem UeHarq.WellFormed.freeProcess {rbgNum : Nat} {ue : UeHarq} (hue : ue.WellFormed rbgNum)
    (process : HarqProcess) : (ue.freeProcess process).WellFormed rbgNum :=
  ⟨hue.mode, hue.stored⟩

theorem UeHarq.WellFormed.retransmitted {rbgNum : Nat} {ue : UeHarq} {process : HarqProcess}
    {rv : List Nat} (hue : ue.WellFormed rbgNum)
    (hstored : Stored rbgNum process (ue.processesDci process))
    (hversions : (ue.processesDci process).ndi.length ≤ rv.length) :
    (ue.retransmitted process rv).WellFormed rbgNum := by
  refine ⟨hue.mode, fun other hused => ?_⟩
  simp only [UeHarq.retransmitted] at hused ⊢
  split
  · next same =>
      subst same
      exact ⟨hstored.own, hstored.inCell, hversions, hstored.schemes, hstored.sizes⟩
  · next hne =>
      rw [if_neg hne] at hused
      exact hue.stored other hused

/-! ## The subframe so far -/

/-- The elements of the subframe are on RBGs of their own, and the marked RBGs are counted. -/
structure Spread (rbgNum : Nat) (subframe : Subframe) : Prop where
  rbgNum_eq : subframe.rbgNum = rbgNum
  length_eq : subframe.rbgMap.length = rbgNum
  claims : Claims subframe.rbgMap
    (subframe.buildDataList.map fun element => rbgsOf element.dci.rbBitmap)
  counted : subframe.rbgAllocatedNum + free subframe.rbgMap = rbgNum
  inCell : ∀ element ∈ subframe.buildDataList, InCell rbgNum element.dci.rbBitmap

theorem Spread.add {rbgNum : Nat} {subframe next : Subframe} (spread : Spread rbgNum subframe)
    {element : BuildDataListElement} {places : List Nat} (hfree : FreeAt subframe.rbgMap places)
    (hbitmap : ∀ rbg, rbg ∈ rbgsOf element.dci.rbBitmap ↔ rbg ∈ places)
    (hcell : InCell rbgNum element.dci.rbBitmap) (hnum : next.rbgNum = subframe.rbgNum)
    (hmap : next.rbgMap = mark subframe.rbgMap places)
    (hcount : next.rbgAllocatedNum = subframe.rbgAllocatedNum + places.length)
    (hlist : next.buildDataList = subframe.buildDataList ++ [element]) : Spread rbgNum next := by
  have hmarked := free_mark hfree
  have hcounted := spread.counted
  refine ⟨hnum.trans spread.rbgNum_eq, by rw [hmap, mark_length, spread.length_eq], ?_, ?_, ?_⟩
  · rw [hmap, hlist, List.map_append]
    exact spread.claims.snoc hfree hbitmap
  · rw [hmap, hcount]
    omega
  · intro other hmem
    rw [hlist] at hmem
    rcases List.mem_append.mp hmem with hold | hlast
    · exact spread.inCell other hold
    · exact List.mem_singleton.mp hlast ▸ hcell

theorem openSubframe_spread (scheduler : RrFfMacScheduler) (rbgSize : Nat) :
    Spread (scheduler.dlBandwidth / rbgSize) (openSubframe scheduler rbgSize) :=
  ⟨rfl, List.length_replicate, Claims.nil _, by simp [openSubframe],
    fun _ hmem => absurd hmem List.not_mem_nil⟩

/-! ## One retransmission -/

theorem setAt_isSome {values : List Nat} {index value : Nat} (hindex : index < values.length) :
    setAt values index value = some (values.set index value) := if_pos hindex

/-- What the loop over the layers has done below `layer`. -/
structure Repeated (retx : List Bool) (stored : DlDciListElement) (layer : Nat)
    (dci : DlDciListElement) : Prop where
  own : dci.harqProcess = stored.harqProcess
  bitmap : dci.rbBitmap = stored.rbBitmap
  reached : layer ≤ dci.ndi.length
  grown : stored.ndi.length ≤ dci.ndi.length
  versions : dci.ndi.length ≤ dci.rv.length
  schemes : dci.mcs.length = dci.ndi.length
  sizes : dci.tbsSize.length = dci.ndi.length
  indicators : ∀ below < layer, dci.ndi[below]? = some 0
  kept : ∀ other size, (other < layer → retx[other]? = some true) →
    stored.tbsSize[other]? = some size → dci.tbsSize[other]? = some size

theorem zeros_set {values : List Nat} {layer : Nat} (hlayer : layer < values.length)
    (hzeros : ∀ below < layer, values[below]? = some 0) :
    ∀ below < layer + 1, (values.set layer 0)[below]? = some 0 := by
  intro below hbelow
  rcases Nat.lt_succ_iff_lt_or_eq.mp hbelow with hless | rfl
  · rw [List.getElem?_set_ne (Nat.ne_of_gt hless)]
    exact hzeros below hless
  · exact List.getElem?_set_self hlayer

theorem Repeated.layer {retx : List Bool} {stored dci : DlDciListElement} {layer : Nat}
    {again : Bool} (held : Repeated retx stored layer dci) (hagain : retx[layer]? = some again)
    (hstored : again = false → layer < stored.ndi.length) :
    ∃ next, retxLayer dci layer again = some next ∧ Repeated retx stored (layer + 1) next := by
  have hgrown := held.grown
  have hversions := held.versions
  have hschemes := held.schemes
  have hsizes := held.sizes
  have hreached := held.reached
  cases again with
  | false =>
      have hlayer : layer < dci.ndi.length := lt_of_lt_of_le (hstored rfl) hgrown
      refine ⟨{ dci with
          ndi := dci.ndi.set layer 0, rv := dci.rv.set layer 0, mcs := dci.mcs.set layer 0,
          tbsSize := dci.tbsSize.set layer 0 }, ?_, held.own, held.bitmap, ?_, ?_, ?_, ?_, ?_,
        zeros_set hlayer held.indicators, ?_⟩
      · simp [retxLayer, setAt, hlayer, hschemes, hsizes, lt_of_lt_of_le hlayer hversions]
      · rw [List.length_set]
        exact hlayer
      · rwa [List.length_set]
      · rwa [List.length_set, List.length_set]
      · rwa [List.length_set, List.length_set]
      · rwa [List.length_set, List.length_set]
      · intro other size hother hsize
        have hne : layer ≠ other := by
          rintro rfl
          have htrue := hother (Nat.lt_succ_self _)
          rw [hagain] at htrue
          cases htrue
        rw [List.getElem?_set_ne hne]
        exact held.kept other size (fun hless => hother (Nat.lt_succ_of_lt hless)) hsize
  | true =>
      by_cases hlayer : dci.ndi.length ≤ layer
      · have hsame : layer = dci.ndi.length := Nat.le_antisymm hreached hlayer
        have hindicators : ∀ below < layer + 1, (dci.ndi ++ [0])[below]? = some 0 := by
          intro below hbelow
          rcases Nat.lt_succ_iff_lt_or_eq.mp hbelow with hless | rfl
          · rw [List.getElem?_append_left (hsame ▸ hless)]
            exact held.indicators below hless
          · rw [hsame]
            exact List.getElem?_concat_length
        refine ⟨{ dci with
            ndi := dci.ndi ++ [0], rv := dci.rv ++ [0], mcs := dci.mcs ++ [0],
            tbsSize := dci.tbsSize ++ [0] }, ?_, held.own, held.bitmap, ?_, ?_, ?_, ?_, ?_,
          hindicators, ?_⟩
        · simp [retxLayer, hlayer]
        · rw [List.length_append, List.length_singleton]
          omega
        · rw [List.length_append]
          omega
        · simpa using hversions
        · simpa using hschemes
        · simpa using hsizes
        · intro other size hother hsize
          have hold := held.kept other size (fun hless => hother (Nat.lt_succ_of_lt hless)) hsize
          rw [List.getElem?_append_left (List.getElem?_eq_some_iff.mp hold).1]
          exact hold
      · have hlt : layer < dci.ndi.length := Nat.lt_of_not_le hlayer
        refine ⟨{ dci with
            ndi := dci.ndi.set layer 0, rv := dci.rv.set layer (dci.rv[layer] + 1) }, ?_,
          held.own, held.bitmap, ?_, ?_, ?_, ?_, ?_, zeros_set hlt held.indicators, ?_⟩
        · simp [retxLayer, setAt, hlayer, hlt, lt_of_lt_of_le hlt hversions]
        · rw [List.length_set]
          exact hlt
        · rwa [List.length_set]
        · rwa [List.length_set, List.length_set]
        · rwa [List.length_set]
        · rwa [List.length_set]
        · exact fun other size hother =>
            held.kept other size fun hless => hother (Nat.lt_succ_of_lt hless)

theorem Repeated.layers {retx : List Bool} {stored dci : DlDciListElement} {left layer : Nat}
    (held : Repeated retx stored layer dci)
    (hretx : ∀ other < layer + left, ∃ again, retx[other]? = some again ∧
      (again = false → other < stored.ndi.length)) :
    ∃ next, retxLayers retx left layer dci = some next ∧
      Repeated retx stored (layer + left) next := by
  induction left generalizing layer dci with
  | zero => exact ⟨dci, rfl, held⟩
  | succ left ih =>
      obtain ⟨again, hagain, hstored⟩ := hretx layer (by omega)
      obtain ⟨middle, hmiddle, hnext⟩ := held.layer hagain hstored
      have hshift : layer + 1 + left = layer + (left + 1) := by omega
      obtain ⟨next, hlast, hrepeated⟩ := ih hnext (hshift ▸ hretx)
      exact ⟨next, by simp [retxLayers, hagain, hmiddle, hlast], hshift ▸ hrepeated⟩

theorem retxPdusAt_isSome {ue : UeHarq} {process : HarqProcess} {layers place left layer : Nat}
    {retx : List Bool} (hretx : layer + left ≤ retx.length)
    (hlists : ∀ other < layer + left, place < (ue.processesRlcPduList other process).length) :
    (retxPdusAt ue process layers retx place left layer).isSome := by
  induction left generalizing layer with
  | zero => rfl
  | succ left ih =>
      have hlayer : layer < retx.length := by omega
      have hplace := hlists layer (by omega)
      have hshift : layer + 1 + left = layer + (left + 1) := by omega
      obtain ⟨rest, hrest⟩ := Option.isSome_iff_exists.mp
        (ih (hshift ▸ hretx) (hshift ▸ hlists))
      rw [retxPdusAt, List.getElem?_eq_getElem hlayer, hrest]
      cases retx[layer] with
      | false => simp [hplace]
      | true =>
          by_cases hin : layer < layers
          · simp [hplace, hin]
          · simp [hin]

theorem retxPdus_isSome {ue : UeHarq} {process : HarqProcess} {layers nLayers left place : Nat}
    {retx : List Bool} (hretx : nLayers ≤ retx.length)
    (hlists : ∀ layer < nLayers, place + left ≤ (ue.processesRlcPduList layer process).length) :
    (retxPdus ue process layers retx nLayers left place).isSome := by
  induction left generalizing place with
  | zero => rfl
  | succ left ih =>
      have hhere : ∀ layer < 0 + nLayers,
          place < (ue.processesRlcPduList layer process).length := fun layer hlayer =>
        lt_of_lt_of_le (by omega) (hlists layer (by omega))
      obtain ⟨pdus, hpdus⟩ := Option.isSome_iff_exists.mp
        (@retxPdusAt_isSome ue process layers place nLayers 0 retx (by omega) hhere)
      obtain ⟨rest, hrest⟩ := Option.isSome_iff_exists.mp
        (@ih (place + 1) fun layer hlayer => le_trans (by omega) (hlists layer hlayer))
      rw [retxPdus, hpdus, hrest]
      cases pdus with
      | nil => simp
      | cons pdu others => simp

/-! ## What a feedback element needs -/

/--
The layers of a NACKed element are stored: a layer that the DCI does not have is
NACKed as well, and each layer has as many RLC PDUs as the first one.
-/
def LayersStored (info : DlInfoListElement) (ue : UeHarq) (process : HarqProcess) : Prop :=
  ∀ layer < info.harqStatus.length,
    (info.harqStatus[layer]? ≠ some HarqStatus.nack →
      layer < (ue.processesDci process).ndi.length) ∧
    (ue.processesRlcPduList 0 process).length ≤ (ue.processesRlcPduList layer process).length

instance (info : DlInfoListElement) (ue : UeHarq) (process : HarqProcess) :
    Decidable (LayersStored info ue process) :=
  inferInstanceAs (Decidable (∀ layer < info.harqStatus.length,
    (info.harqStatus[layer]? ≠ some HarqStatus.nack →
      layer < (ue.processesDci process).ndi.length) ∧
    (ue.processesRlcPduList 0 process).length ≤ (ue.processesRlcPduList layer process).length))

/-- A NACK that is retransmitted in this subframe. -/
def Retransmitted (subframe : Subframe) (info : DlInfoListElement) : Prop :=
  info.rnti ∉ subframe.rntiAllocated ∧
    ∃ ue ∈ subframe.scheduler.ues info.rnti, ∃ process ∈ processAt info.harqProcessId,
      LayersStored info ue process ∧
      ∃ placement ∈ placeRetx subframe.rbgNum subframe.rbgMap
        (ue.processesDci process).rbBitmap, placement.untxed = false

instance (subframe : Subframe) (info : DlInfoListElement) :
    Decidable (Retransmitted subframe info) :=
  inferInstanceAs (Decidable (info.rnti ∉ subframe.rntiAllocated ∧
    ∃ ue ∈ subframe.scheduler.ues info.rnti, ∃ process ∈ processAt info.harqProcessId,
      LayersStored info ue process ∧
      ∃ placement ∈ placeRetx subframe.rbgNum subframe.rbgMap
        (ue.processesDci process).rbBitmap, placement.untxed = false))

/-- What a feedback element meets, for the state `before` the trigger. -/
def FeedbackFits (before : RrFfMacScheduler) (subframe : Subframe) (info : DlInfoListElement) :
    Prop :=
  NamesUsed before info ∧ (info.harqStatus.length = 1 ∨ info.harqStatus.length = 2) ∧
    (BelowLimit before info → Retransmitted subframe info)

instance (before : RrFfMacScheduler) (subframe : Subframe) (info : DlInfoListElement) :
    Decidable (FeedbackFits before subframe info) :=
  inferInstanceAs (Decidable (NamesUsed before info ∧
    (info.harqStatus.length = 1 ∨ info.harqStatus.length = 2) ∧
    (BelowLimit before info → Retransmitted subframe info)))

/-- The layers to repeat, for one or two statuses. -/
theorem retxOf_statuses {harqStatus : List HarqStatus}
    (hlength : harqStatus.length = 1 ∨ harqStatus.length = 2) :
    ∃ retx, retxOf harqStatus = some retx ∧ retx.length = 2 ∧
      (true ∈ retx ↔ HarqStatus.nack ∈ harqStatus) ∧
      ∀ layer, layer < harqStatus.length →
        (retx[layer]? = some true ↔ harqStatus[layer]? = some HarqStatus.nack) := by
  rcases hlength with hone | htwo
  · obtain ⟨status, rfl⟩ := List.length_eq_one_iff.mp hone
    refine ⟨_, rfl, rfl, by simp [eq_comm], fun layer hlayer => ?_⟩
    obtain rfl : layer = 0 := by simpa using hlayer
    simp
  · obtain ⟨first, second, rfl⟩ := List.length_eq_two.mp htwo
    refine ⟨_, rfl, rfl, by simp [eq_comm], fun layer hlayer => ?_⟩
    obtain rfl | rfl : layer = 0 ∨ layer = 1 := by
      have : layer < 2 := hlayer
      omega
    · simp
    · simp

/-! ## The whole feedback -/

/-- What holds after some feedback of a trigger, for the state `before` it. -/
structure Serving (rbgNum : Nat) (before : RrFfMacScheduler) (past : List DlInfoListElement)
    (subframe : Subframe) : Prop where
  spread : Spread rbgNum subframe
  repeated : ∀ element ∈ subframe.buildDataList, element.dci.ndi.head? = some 0
  allocated : (subframe.buildDataList.map fun element => element.rnti) =
    subframe.rntiAllocated.reverse
  oneEach : subframe.rntiAllocated.Nodup
  untxed : subframe.untxed = []
  others : subframe.scheduler =
    { refreshHarqProcesses (refreshDlCqiMaps before) with ues := subframe.scheduler.ues }
  configured : ∀ rnti, (subframe.scheduler.ues rnti).isSome = (before.ues rnti).isSome
  wellFormed : ∀ rnti ue, subframe.scheduler.ues rnti = some ue → ue.WellFormed rbgNum
  kept : ∀ rnti ue, rnti ∉ subframe.rntiAllocated → subframe.scheduler.ues rnti = some ue →
    ∃ old, before.ues rnti = some old ∧ ue.processesDci = old.processesDci
  answered : ∀ info ∈ past, BelowLimit before info → ∃ stored ∈ storedDci before info,
    ∃ element ∈ subframe.buildDataList, Retransmits stored info element

theorem openSubframe_serving {scheduler : RrFfMacScheduler} {rbgSize : Nat}
    (hues : ∀ rnti ue, scheduler.ues rnti = some ue →
      ue.WellFormed (scheduler.dlBandwidth / rbgSize)) :
    Serving (scheduler.dlBandwidth / rbgSize) scheduler [] (openSubframe scheduler rbgSize) where
  spread := openSubframe_spread scheduler rbgSize
  repeated _ hmem := absurd hmem List.not_mem_nil
  allocated := rfl
  oneEach := List.nodup_nil
  untxed := rfl
  others := rfl
  configured rnti := Option.isSome_map
  wellFormed rnti ue hue := by
    obtain ⟨old, hold, rfl⟩ := Option.map_eq_some_iff.mp hue
    exact (hues rnti old hold).refresh
  kept rnti ue _ hue := by
    obtain ⟨old, hold, rfl⟩ := Option.map_eq_some_iff.mp hue
    exact ⟨old, hold, rfl⟩
  answered _ hmem := absurd hmem List.not_mem_nil

theorem put_same {Value : Type} (map : Rnti → Option Value) (rnti : Rnti)
    (value : Option Value) : put map rnti value rnti = value := if_pos rfl

theorem put_other {Value : Type} {map : Rnti → Option Value} {rnti other : Rnti}
    (hne : other ≠ rnti) (value : Option Value) : put map rnti value other = map other :=
  if_neg hne

/-- An element that asks for no retransmission. -/
theorem Serving.pass {rbgNum : Nat} {before : RrFfMacScheduler} {past : List DlInfoListElement}
    {subframe : Subframe} (held : Serving rbgNum before past subframe)
    {info : DlInfoListElement} (habove : ¬ BelowLimit before info) :
    Serving rbgNum before (past ++ [info]) subframe :=
  { held with
    answered := fun other hmem hbelow => by
      rcases List.mem_append.mp hmem with hold | hlast
      · exact held.answered other hold hbelow
      · exact absurd (List.mem_singleton.mp hlast ▸ hbelow) habove }

/-- An acknowledged or dropped process. -/
theorem Serving.free {rbgNum : Nat} {before : RrFfMacScheduler} {past : List DlInfoListElement}
    {subframe : Subframe} (held : Serving rbgNum before past subframe) {rnti : Rnti}
    {ue : UeHarq} (hue : subframe.scheduler.ues rnti = some ue) (process : HarqProcess) :
    Serving rbgNum before past
      { subframe with scheduler := subframe.scheduler.withUe rnti (ue.freeProcess process) } where
  spread := ⟨held.spread.rbgNum_eq, held.spread.length_eq, held.spread.claims,
    held.spread.counted, held.spread.inCell⟩
  repeated := held.repeated
  allocated := held.allocated
  oneEach := held.oneEach
  untxed := held.untxed
  others := by
    have hothers := held.others
    simp only [RrFfMacScheduler.withUe]
    rw [hothers]
  configured other := by
    rw [← held.configured other]
    simp only [RrFfMacScheduler.withUe, put]
    split
    · next same => rw [same, hue]; rfl
    · rfl
  wellFormed other found hfound := by
    simp only [RrFfMacScheduler.withUe, put] at hfound
    split at hfound
    · next same =>
        cases hfound
        exact (held.wellFormed rnti ue hue).freeProcess process
    · exact held.wellFormed other found hfound
  kept other found hother hfound := by
    simp only [RrFfMacScheduler.withUe, put] at hfound
    split at hfound
    · next same =>
        cases hfound
        exact same ▸ held.kept rnti ue (same ▸ hother) hue
    · exact held.kept other found hother hfound
  answered := held.answered

theorem processAt_eq_some_iff {harqProcessId : Nat} {process : HarqProcess} :
    processAt harqProcessId = some process ↔ harqProcessId = process.val := by
  rw [processAt]
  split
  · rw [Option.some.injEq, Fin.ext_iff]
  · next hout =>
      constructor
      · intro hnone
        cases hnone
      · rintro rfl
        exact absurd process.isLt hout

theorem storedDci_eq {scheduler : RrFfMacScheduler} {info : DlInfoListElement} {ue : UeHarq}
    {process : HarqProcess} (hue : scheduler.ues info.rnti = some ue)
    (hprocess : processAt info.harqProcessId = some process) :
    storedDci scheduler info = some (ue.processesDci process) := by
  simp [storedDci, hue, hprocess]

/-- The loops of a retransmission go through on a stored transmission. -/
theorem retransmit_eq {rbgNum : Nat} {subframe : Subframe} {info : DlInfoListElement}
    {ue : UeHarq} {process : HarqProcess} {retx : List Bool} {placement : Placement}
    (hlength : info.harqStatus.length = 1 ∨ info.harqStatus.length = 2)
    (hretx : retx.length = 2) (hstatus : ∀ layer, layer < info.harqStatus.length →
      (retx[layer]? = some true ↔ info.harqStatus[layer]? = some HarqStatus.nack))
    (hstored : Stored rbgNum process (ue.processesDci process))
    (hlayers : LayersStored info ue process)
    (hplace : placeRetx subframe.rbgNum subframe.rbgMap (ue.processesDci process).rbBitmap =
      some placement) :
    ∃ dci rlcPduList,
      retransmit subframe info ue process retx = some { subframe with
        scheduler := subframe.scheduler.withUe info.rnti (ue.retransmitted process dci.rv)
        rbgMap := placement.rbgMap
        rbgAllocatedNum := subframe.rbgAllocatedNum + placement.rbgAllocated
        rntiAllocated := info.rnti :: subframe.rntiAllocated
        untxed := if placement.untxed then subframe.untxed ++ [info] else subframe.untxed
        buildDataList := subframe.buildDataList ++ [⟨info.rnti, dci, rlcPduList⟩] } ∧
      Repeated retx { ue.processesDci process with rbBitmap := placement.rbBitmap }
        info.harqStatus.length dci := by
  have hstart : Repeated retx { ue.processesDci process with rbBitmap := placement.rbBitmap } 0
      { ue.processesDci process with rbBitmap := placement.rbBitmap } :=
    ⟨rfl, rfl, Nat.zero_le _, Nat.le_refl _, hstored.versions, hstored.schemes, hstored.sizes,
      fun _ hbelow => absurd hbelow (Nat.not_lt_zero _), fun _ _ _ hsize => hsize⟩
  have hagain : ∀ other < 0 + info.harqStatus.length, ∃ again, retx[other]? = some again ∧
      (again = false → other < (ue.processesDci process).ndi.length) := by
    intro other hother
    rw [Nat.zero_add] at hother
    have hin : other < retx.length := by omega
    refine ⟨retx[other], List.getElem?_eq_getElem hin, fun hfalse => (hlayers other hother).1 ?_⟩
    intro hnack
    have htrue := (hstatus other hother).mpr hnack
    rw [List.getElem?_eq_getElem hin, hfalse] at htrue
    cases htrue
  obtain ⟨dci, hdci, hrepeated⟩ := hstart.layers hagain
  rw [Nat.zero_add] at hrepeated
  have hprocess : processAt dci.harqProcess = some process :=
    processAt_eq_some_iff.mpr (hrepeated.own.trans hstored.own)
  obtain ⟨rlcPduList, hpdus⟩ := Option.isSome_iff_exists.mp
    (@retxPdus_isSome ue process dci.ndi.length info.harqStatus.length
      (ue.processesRlcPduList 0 process).length 0 retx (by omega) fun layer hlayer => by
        rw [Nat.zero_add]
        exact (hlayers layer hlayer).2)
  refine ⟨dci, rlcPduList, ?_, hrepeated⟩
  simp [retransmit, hplace, hdci, hprocess, hpdus]

/-- A NACK that finds its RBGs. -/
theorem Serving.retransmit {rbgNum : Nat} {before : RrFfMacScheduler}
    {past : List DlInfoListElement} {subframe : Subframe}
    (held : Serving rbgNum before past subframe) (hnum : rbgNum ≤ 32)
    {info : DlInfoListElement} {ue : UeHarq} {process : HarqProcess} {retx : List Bool}
    (hlength : info.harqStatus.length = 1 ∨ info.harqStatus.length = 2)
    (hretx : retx.length = 2) (hstatus : ∀ layer, layer < info.harqStatus.length →
      (retx[layer]? = some true ↔ info.harqStatus[layer]? = some HarqStatus.nack))
    (hfresh : info.rnti ∉ subframe.rntiAllocated)
    (hue : subframe.scheduler.ues info.rnti = some ue)
    (hprocess : processAt info.harqProcessId = some process)
    (hused : (ue.processesDci process).rv ≠ []) (hlayers : LayersStored info ue process)
    {placement : Placement}
    (hplace : placeRetx subframe.rbgNum subframe.rbgMap (ue.processesDci process).rbBitmap =
      some placement) (htxed : placement.untxed = false) :
    ∃ next, RoundRobin.retransmit subframe info ue process retx = some next ∧
      Serving rbgNum before (past ++ [info]) next := by
  have hwell := held.wellFormed info.rnti ue hue
  have hstored := hwell.stored process hused
  have hspread := held.spread
  obtain ⟨old, hold, hdcis⟩ := held.kept info.rnti ue hfresh hue
  obtain ⟨dci, rlcPduList, hnext, hrepeated⟩ :=
    retransmit_eq hlength hretx hstatus hstored hlayers hplace
  have hpositive : 0 < info.harqStatus.length := by omega
  rw [hspread.rbgNum_eq] at hplace
  obtain ⟨places, htakes⟩ := placeRetx_takes hspread.length_eq hnum hstored.inCell hplace htxed
  refine ⟨_, hnext, ?_⟩
  constructor
  · refine @Spread.add _ _ _ hspread ⟨info.rnti, dci, rlcPduList⟩ places htakes.freeAt ?_ ?_ rfl
      htakes.marked (congrArg _ htakes.counted) rfl
    · change ∀ rbg, rbg ∈ rbgsOf dci.rbBitmap ↔ rbg ∈ places
      rw [hrepeated.bitmap]
      exact htakes.bitmap
    · change InCell rbgNum dci.rbBitmap
      rw [hrepeated.bitmap]
      exact htakes.inCell
  · intro element hmem
    rcases List.mem_append.mp hmem with hearlier | hlast
    · exact held.repeated element hearlier
    · obtain rfl := List.mem_singleton.mp hlast
      rw [List.head?_eq_getElem?]
      exact hrepeated.indicators 0 hpositive
  · change List.map _ (subframe.buildDataList ++ _) = (info.rnti :: subframe.rntiAllocated).reverse
    rw [List.map_append, held.allocated, List.reverse_cons]
    rfl
  · exact List.nodup_cons.mpr ⟨hfresh, held.oneEach⟩
  · change (if placement.untxed then subframe.untxed ++ [info] else subframe.untxed) = []
    rw [htxed]
    exact held.untxed
  · have hothers := held.others
    simp only [RrFfMacScheduler.withUe]
    rw [hothers]
  · intro other
    rw [← held.configured other]
    simp only [RrFfMacScheduler.withUe, put]
    split
    · next same => rw [same, hue]; rfl
    · rfl
  · intro other found hfound
    simp only [RrFfMacScheduler.withUe, put] at hfound
    split at hfound
    · next same =>
        cases hfound
        exact hwell.retransmitted hstored (le_trans hrepeated.grown hrepeated.versions)
    · exact held.wellFormed other found hfound
  · intro other found hother hfound
    obtain ⟨hne, hnot⟩ := not_or.mp fun hmem => hother (List.mem_cons.mpr hmem)
    simp only [RrFfMacScheduler.withUe, put_other hne] at hfound
    exact held.kept other found hnot hfound
  · intro other hmem hbelow
    rcases List.mem_append.mp hmem with hearlier | hlast
    · obtain ⟨stored, hin, element, helement, hanswer⟩ := held.answered other hearlier hbelow
      exact ⟨stored, hin, element, List.mem_append_left _ helement, hanswer⟩
    · obtain rfl := List.mem_singleton.mp hlast
      refine ⟨_, storedDci_eq hold hprocess, ⟨other.rnti, dci, rlcPduList⟩,
        List.mem_append_right _ (List.mem_singleton_self _), rfl, ?_, fun layer hnack => ?_⟩
      · exact (hrepeated.own.trans hstored.own).trans (processAt_eq_some_iff.mp hprocess).symm
      · have hlayer := (List.getElem?_eq_some_iff.mp hnack).1
        refine ⟨hrepeated.indicators layer hlayer, fun size hsize => ?_⟩
        rw [← hdcis] at hsize
        exact hrepeated.kept layer size (fun _ => (hstatus layer hlayer).mpr hnack) hsize

/-- One feedback element. -/
theorem Serving.step {rbgNum : Nat} {before : RrFfMacScheduler} {past : List DlInfoListElement}
    {subframe : Subframe} (held : Serving rbgNum before past subframe) (hnum : rbgNum ≤ 32)
    {info : DlInfoListElement} (hfits : FeedbackFits before subframe info) :
    ∃ next, processFeedback subframe info = some next ∧
      Serving rbgNum before (past ++ [info]) next := by
  obtain ⟨hnames, hlength, hagain⟩ := hfits
  by_cases hallocated : info.rnti ∈ subframe.rntiAllocated
  · exact ⟨subframe, if_pos hallocated, held.pass fun hbelow => (hagain hbelow).1 hallocated⟩
  · obtain ⟨retx, hretx, htwo, hnack, hstatus⟩ := retxOf_statuses hlength
    obtain ⟨dci, hdci, hused⟩ := hnames
    obtain ⟨old, hold, process, hprocess, rfl⟩ :
        ∃ old, before.ues info.rnti = some old ∧ ∃ process,
          processAt info.harqProcessId = some process ∧ old.processesDci process = dci := by
      simpa [storedDci, Option.bind_eq_some_iff] using hdci
    obtain ⟨ue, hue⟩ := Option.isSome_iff_exists.mp
      ((held.configured info.rnti).trans (by rw [hold]; rfl))
    obtain ⟨same, hsame, hdcis⟩ := held.kept info.rnti ue hallocated hue
    obtain rfl : old = same := Option.some.inj (hold.symm.trans hsame)
    rw [← hdcis] at hused
    obtain ⟨rv, hrv⟩ : ∃ rv, rvOf (ue.processesDci process).rv = some rv := by
      cases hversions : (ue.processesDci process).rv with
      | nil => exact absurd hversions hused
      | cons first rest => cases rest <;> exact ⟨_, rfl⟩
    by_cases hasks : true ∈ retx
    · by_cases hlimit : rv = 3
      · refine ⟨{ subframe with
            scheduler := subframe.scheduler.withUe info.rnti (ue.freeProcess process) }, ?_,
          (held.free hue process).pass ?_⟩
        · simp [processFeedback, hallocated, hretx, hue, hprocess, hrv, hlimit]
        · rintro ⟨-, stored, hin, hbelow⟩
          obtain rfl : old.processesDci process = stored := by
            rw [storedDci_eq hold hprocess] at hin
            exact Option.some.inj hin
          rw [← hdcis, hrv, hlimit] at hbelow
          exact hbelow rfl
      · have hbelow : BelowLimit before info := by
          refine ⟨hnack.mp hasks, _, storedDci_eq hold hprocess, ?_⟩
          rw [← hdcis, hrv]
          exact fun hthree => hlimit (Option.some.inj hthree)
        obtain ⟨-, found, hfound, at', hat, hlayers, placement, hplace, htxed⟩ := hagain hbelow
        obtain rfl : ue = found := Option.some.inj (hue.symm.trans hfound)
        obtain rfl : process = at' := Option.some.inj (hprocess.symm.trans hat)
        obtain ⟨next, hnext, hserving⟩ := held.retransmit hnum hlength htwo hstatus hallocated
          hue hprocess hused hlayers hplace htxed
        refine ⟨next, ?_, hserving⟩
        simp [processFeedback, hallocated, hretx, hue, hprocess, hasks, hrv, hlimit, hnext]
    · refine ⟨{ subframe with
          scheduler := subframe.scheduler.withUe info.rnti (ue.freeProcess process) }, ?_,
        (held.free hue process).pass fun hbelow => hasks (hnack.mpr hbelow.1)⟩
      simp [processFeedback, hallocated, hretx, hue, hprocess, hasks]

/-- All feedback of a trigger. -/
theorem serveFeedback_serving {scheduler : RrFfMacScheduler} {rbgSize : Nat}
    {dlInfoList : List DlInfoListElement}
    (hsize : getRbgSize scheduler.dlBandwidth = some rbgSize)
    (hues : ∀ rnti ue, scheduler.ues rnti = some ue →
      ue.WellFormed (scheduler.dlBandwidth / rbgSize))
    (hfits : Fitting processFeedback (FeedbackFits scheduler) (openSubframe scheduler rbgSize)
      (scheduler.dlInfoListBuffered ++ dlInfoList)) :
    ∃ served, serveFeedback scheduler rbgSize dlInfoList = some served ∧
      Serving (scheduler.dlBandwidth / rbgSize) scheduler
        (scheduler.dlInfoListBuffered ++ dlInfoList) served :=
  exists_history_of_fitting processFeedback (Serving (scheduler.dlBandwidth / rbgSize) scheduler)
    (fun _ _ _ held hfit => held.step (rbgNum_lt hsize).le hfit) [] (openSubframe_serving hues)
    hfits

end DeepcV2x.Lte.RoundRobin
