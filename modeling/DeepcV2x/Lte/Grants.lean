import DeepcV2x.Lte.Feedback
import DeepcV2x.Lte.Queues
import Mathlib.Data.Nat.Cast.Basic

/-!
# New transmissions

Every turn gives one UE a transport block on RBGs that are still free and
counts its bytes against the queues of that UE.  No UE has two turns, so its
HARQ process and its queues are those that the share was computed from.
-/

namespace DeepcV2x.Lte.RoundRobin

open DeepcV2x.Foundation.Association
open DeepcV2x.Foundation.Loops
open DeepcV2x.Foundation.Marks

/-! ## What an element grants -/

/-- A new transmission has a set data indicator. -/
def BuildDataListElement.isNew (element : BuildDataListElement) : Bool :=
  decide (element.dci.ndi.head? = some 1)

/-- The bytes of the RLC PDUs on one layer. -/
def BuildDataListElement.layerBytes (element : BuildDataListElement) (layer : Nat) : Nat :=
  ((element.rlcPduList.filterMap fun pdus => pdus[layer]?).map fun pdu => pdu.size).sum

/-- The bytes of an element for one channel. -/
def BuildDataListElement.channelBytes (element : BuildDataListElement) (lcid : Nat) : Nat :=
  ((element.rlcPduList.flatten.filter fun pdu => pdu.logicalChannelIdentity = lcid).map
    fun pdu => pdu.size).sum

/-- The bytes that the new transmissions of a subframe grant to one channel. -/
def grantedBytes (elements : List BuildDataListElement) (rnti lcid : Nat) : Nat :=
  ((elements.filter fun element => element.isNew && decide (element.rnti = rnti)).map
    fun element => element.channelBytes lcid).sum

/-- On each layer the RLC PDUs fit the transport block. -/
def BuildDataListElement.Fits (element : BuildDataListElement) : Prop :=
  ∀ (layer size : Nat), element.dci.tbsSize[layer]? = some size → element.layerBytes layer ≤ size

theorem grantedBytes_snoc (elements : List BuildDataListElement) (element : BuildDataListElement)
    (rnti lcid : Nat) : grantedBytes (elements ++ [element]) rnti lcid =
      grantedBytes elements rnti lcid +
        if element.isNew && decide (element.rnti = rnti) then element.channelBytes lcid else 0 := by
  rw [grantedBytes, List.filter_append, List.map_append, List.sum_append]
  by_cases hkept : (element.isNew && decide (element.rnti = rnti)) = true
  · simp [grantedBytes, hkept]
  · simp [grantedBytes, hkept]

theorem grantedBytes_le_snoc (elements : List BuildDataListElement)
    (element : BuildDataListElement) (rnti lcid : Nat) :
    grantedBytes elements rnti lcid ≤ grantedBytes (elements ++ [element]) rnti lcid := by
  rw [grantedBytes_snoc]
  exact Nat.le_add_right _ _

theorem le_grantedBytes_snoc {elements : List BuildDataListElement}
    {element : BuildDataListElement} {rnti lcid : Nat} (hnew : element.isNew = true)
    (hrnti : element.rnti = rnti) :
    element.channelBytes lcid ≤ grantedBytes (elements ++ [element]) rnti lcid := by
  rw [grantedBytes_snoc, hnew, decide_eq_true hrnti, Bool.and_self, if_pos rfl]
  exact Nat.le_add_left _ _

theorem layerBytes_granted {nLayer size layer : Nat} (channels : List SchedDlRlcBufferReq)
    (hlayer : layer < nLayer) {rnti : Rnti} {dci : DlDciListElement} :
    (BuildDataListElement.mk rnti dci (channels.map (channelPdus nLayer size))).layerBytes layer =
      channels.length * size := by
  induction channels with
  | nil => simp [BuildDataListElement.layerBytes]
  | cons req rest ih =>
      simp only [BuildDataListElement.layerBytes, List.map_cons] at ih ⊢
      have hpdu : (channelPdus nLayer size req)[layer]? =
          some ⟨req.logicalChannelIdentity, size⟩ := by
        simp [channelPdus, hlayer]
      rw [List.filterMap_cons, hpdu, List.map_cons, List.sum_cons, ih, List.length_cons,
        Nat.succ_mul, Nat.add_comm]

theorem le_channelBytes {nLayer size : Nat} {channels : List SchedDlRlcBufferReq}
    {req : SchedDlRlcBufferReq} (hmem : req ∈ channels) {rnti : Rnti} {dci : DlDciListElement} :
    nLayer * size ≤ (BuildDataListElement.mk rnti dci
      (channels.map (channelPdus nLayer size))).channelBytes req.logicalChannelIdentity := by
  obtain ⟨before, after, rfl⟩ := List.append_of_mem hmem
  simp only [BuildDataListElement.channelBytes, channelPdus, List.map_append, List.map_cons,
    List.flatten_append, List.flatten_cons, List.filter_append, List.sum_append,
    List.filter_replicate, decide_true, if_true, List.map_replicate, List.sum_replicate,
    nsmul_eq_mul, Nat.cast_id]
  omega

/-! ## The state of the turns -/

/-- The shares of a subframe: every UE in the table is ready and its channels are counted. -/
structure Shared (shares : Shares) (start : Subframe) : Prop where
  distinct : (keys shares.actives).Nodup
  ready : ∀ rnti count, lookup rnti shares.actives = some count → Ready start rnti ∧ 0 < count ∧
    (start.scheduler.rlcBufferReq.countP fun req =>
      decide (req.rnti = rnti) && req.hasData) ≤ count
  positive : 0 < shares.rbgPerTb
  enough : shares.rbgPerTb = 1 ∨ shares.actives.length * shares.rbgPerTb ≤ free start.rbgMap
  keyed : (start.scheduler.rlcBufferReq.map SchedDlRlcBufferReq.key).Nodup
  sorted : SortedByRnti start.scheduler.rlcBufferReq

/-- The elements of the subframe are those at the start and one for each UE that had its turn. -/
def NewElements (before : List BuildDataListElement) (granted : List Rnti)
    (elements : List BuildDataListElement) : Prop :=
  ∃ fresh, elements = before ++ fresh ∧ (fresh.map fun element => element.rnti) = granted ∧
    ∀ element ∈ fresh, element.isNew = true ∧ element.Fits

theorem NewElements.snoc {before elements : List BuildDataListElement} {granted : List Rnti}
    (held : NewElements before granted elements) {element : BuildDataListElement}
    (hnew : element.isNew = true) (hfits : element.Fits) :
    NewElements before (granted ++ [element.rnti]) (elements ++ [element]) := by
  obtain ⟨fresh, rfl, rfl, hall⟩ := held
  refine ⟨fresh ++ [element], List.append_assoc _ _ _, List.map_append, fun other hmem => ?_⟩
  rcases List.mem_append.mp hmem with hold | hlast
  · exact hall other hold
  · exact List.mem_singleton.mp hlast ▸ ⟨hnew, hfits⟩

/-- What holds when the UEs of `granted` had their turns. -/
structure Granting (rbgNum : Nat) (shares : Shares) (start : Subframe) (granted : List Rnti)
    (subframe : Subframe) : Prop where
  spread : Spread rbgNum subframe
  allocated : subframe.rntiAllocated = start.rntiAllocated
  others : subframe.scheduler = { start.scheduler with
    ues := subframe.scheduler.ues, rlcBufferReq := subframe.scheduler.rlcBufferReq }
  configured : ∀ rnti,
    (subframe.scheduler.ues rnti).isSome = (start.scheduler.ues rnti).isSome
  wellFormed : ∀ rnti ue, subframe.scheduler.ues rnti = some ue → ue.WellFormed rbgNum
  waiting : ∀ rnti, rnti ∉ granted → subframe.scheduler.ues rnti = start.scheduler.ues rnti
  keyed : subframe.scheduler.rlcBufferReq.map SchedDlRlcBufferReq.key =
    start.scheduler.rlcBufferReq.map SchedDlRlcBufferReq.key
  untouched : ∀ (place : Nat) (req : SchedDlRlcBufferReq),
    start.scheduler.rlcBufferReq[place]? = some req → req.rnti ∉ granted →
      subframe.scheduler.rlcBufferReq[place]? = some req
  lowered : ∀ (place : Nat) (old new : SchedDlRlcBufferReq),
    start.scheduler.rlcBufferReq[place]? = some old →
      subframe.scheduler.rlcBufferReq[place]? = some new →
        Lowers (grantedBytes subframe.buildDataList old.rnti old.logicalChannelIdentity) old new
  elements : NewElements start.buildDataList granted subframe.buildDataList
  oneEach : granted.Nodup
  active : ∀ rnti ∈ granted, rnti ∈ keys shares.actives
  apart : ∀ rnti ∈ granted, rnti ∉ start.rntiAllocated
  remaining : free subframe.rbgMap + granted.length * shares.rbgPerTb = free start.rbgMap

theorem Granting.start {rbgNum : Nat} {shares : Shares} {start : Subframe}
    (hspread : Spread rbgNum start)
    (hues : ∀ rnti ue, start.scheduler.ues rnti = some ue → ue.WellFormed rbgNum) :
    Granting rbgNum shares start [] start where
  spread := hspread
  allocated := rfl
  others := rfl
  configured _ := rfl
  wellFormed := hues
  waiting _ _ := rfl
  keyed := rfl
  untouched _ _ hreq _ := hreq
  lowered _ _ _ hold hnew := Option.some.inj (hold.symm.trans hnew) ▸ Lowers.refl _ _
  elements := ⟨[], (List.append_nil _).symm, rfl, fun _ hmem => absurd hmem List.not_mem_nil⟩
  oneEach := List.nodup_nil
  active _ hmem := absurd hmem List.not_mem_nil
  apart _ hmem := absurd hmem List.not_mem_nil
  remaining := by simp

theorem Granting.rnti_eq {rbgNum : Nat} {shares : Shares} {start subframe : Subframe}
    {granted : List Rnti} (held : Granting rbgNum shares start granted subframe) {place : Nat}
    {old new : SchedDlRlcBufferReq} (hold : start.scheduler.rlcBufferReq[place]? = some old)
    (hnew : subframe.scheduler.rlcBufferReq[place]? = some new) : new.rnti = old.rnti :=
  (held.lowered place old new hold hnew).rnti

theorem Granting.exists_old {rbgNum : Nat} {shares : Shares} {start subframe : Subframe}
    {granted : List Rnti} (held : Granting rbgNum shares start granted subframe) {place : Nat}
    {new : SchedDlRlcBufferReq} (hnew : subframe.scheduler.rlcBufferReq[place]? = some new) :
    ∃ old, start.scheduler.rlcBufferReq[place]? = some old := by
  have hlength := congrArg List.length held.keyed
  rw [List.length_map, List.length_map] at hlength
  obtain ⟨hplace, -⟩ := List.getElem?_eq_some_iff.mp hnew
  exact ⟨_, List.getElem?_eq_getElem (hlength ▸ hplace)⟩

/-- The report of a UE that had no turn is the one at the start. -/
theorem Granting.same {rbgNum : Nat} {shares : Shares} {start subframe : Subframe}
    {granted : List Rnti} (held : Granting rbgNum shares start granted subframe) {place : Nat}
    {new : SchedDlRlcBufferReq} (hnew : subframe.scheduler.rlcBufferReq[place]? = some new)
    (hwaiting : new.rnti ∉ granted) : start.scheduler.rlcBufferReq[place]? = some new := by
  obtain ⟨old, hold⟩ := held.exists_old hnew
  rw [held.rnti_eq hold hnew] at hwaiting
  rw [held.untouched place old hold hwaiting] at hnew
  rw [hold, hnew]

/-! ## One grant -/

/-- Every count against a data queue covers the overhead. -/
def CoversOverhead (nLayer size : Nat) (req : SchedDlRlcBufferReq) : Prop :=
  ∀ layer < nLayer, ((fun one => one.served size)^[layer] req).ReachesData size →
    rlcOverhead req.logicalChannelIdentity ≤ size

instance (nLayer size : Nat) (req : SchedDlRlcBufferReq) :
    Decidable (CoversOverhead nLayer size req) :=
  inferInstanceAs (Decidable (∀ layer < nLayer,
    ((fun one => one.served size)^[layer] req).ReachesData size →
      rlcOverhead req.logicalChannelIdentity ≤ size))

/-- The channels of a turn. -/
def turnChannels (reqs : List SchedDlRlcBufferReq) (rnti : Rnti) (place : Nat) :
    List SchedDlRlcBufferReq :=
  (reqs.drop place).take (groupEnd reqs rnti place - place)

/-- What a turn with data meets: block sizes of 16 bits, and overheads that are covered. -/
def GrantFits (shares : Shares) (robin : TurnLoop) : Prop :=
  ∀ turn ∈ turnOf shares robin, ∀ lcNum ∈ turn.2,
    ∀ ue ∈ robin.subframe.scheduler.ues turn.1,
      shares.tbSizeOf robin.subframe.scheduler turn.1 < 65536 ∧
      ∀ req ∈ turnChannels robin.subframe.scheduler.rlcBufferReq turn.1 robin.place,
        req.hasData = true →
          CoversOverhead (txMode2LayerNum ue.transmissionMode)
            (shares.pduSizeOf robin.subframe.scheduler turn.1 lcNum) req

instance (shares : Shares) (robin : TurnLoop) : Decidable (GrantFits shares robin) :=
  inferInstanceAs (Decidable (∀ turn ∈ turnOf shares robin, ∀ lcNum ∈ turn.2,
    ∀ ue ∈ robin.subframe.scheduler.ues turn.1,
      shares.tbSizeOf robin.subframe.scheduler turn.1 < 65536 ∧
      ∀ req ∈ turnChannels robin.subframe.scheduler.rlcBufferReq turn.1 robin.place,
        req.hasData = true →
          CoversOverhead (txMode2LayerNum ue.transmissionMode)
            (shares.pduSizeOf robin.subframe.scheduler turn.1 lcNum) req))

theorem txMode2LayerNum_pos {txMode : Nat} (hmode : txMode ≤ 6) :
    0 < txMode2LayerNum txMode := by
  unfold txMode2LayerNum
  split
  · decide
  · split
    · decide
    · decide

theorem UeHarq.WellFormed.transmitted {rbgNum : Nat} {ue : UeHarq} (hue : ue.WellFormed rbgNum)
    {process : HarqProcess} {dci : DlDciListElement} (hdci : Stored rbgNum process dci)
    (rlcPduList : List (List RlcPduListElement)) :
    (ue.transmitted process dci rlcPduList).WellFormed rbgNum := by
  refine ⟨hue.mode, fun other hused => ?_⟩
  simp only [UeHarq.transmitted] at hused ⊢
  split
  · next same => exact same ▸ hdci
  · next hne =>
      rw [if_neg hne] at hused
      exact hue.stored other hused

theorem mem_turnChannels {reqs : List SchedDlRlcBufferReq} {rnti : Rnti} {place : Nat}
    {req : SchedDlRlcBufferReq} (hle : place ≤ groupEnd reqs rnti place) :
    req ∈ turnChannels reqs rnti place ↔ ∃ other : Nat, place ≤ other ∧
      other < groupEnd reqs rnti place ∧ reqs[other]? = some req := by
  rw [turnChannels, List.mem_iff_getElem?]
  constructor
  · rintro ⟨index, hindex⟩
    have hlt := (List.getElem?_eq_some_iff.mp hindex).1
    rw [List.length_take] at hlt
    rw [List.getElem?_take_of_lt (by omega), List.getElem?_drop] at hindex
    exact ⟨place + index, Nat.le_add_right _ _, by omega, hindex⟩
  · rintro ⟨other, hfrom, hto, hreq⟩
    refine ⟨other - place, ?_⟩
    rw [List.getElem?_take_of_lt (by omega), List.getElem?_drop, Nat.add_sub_cancel' hfrom]
    exact hreq

/-- The channels with data in a turn are among those that were counted. -/
theorem Granting.counted {rbgNum : Nat} {shares : Shares} {start subframe : Subframe}
    {granted : List Rnti} (held : Granting rbgNum shares start granted subframe) {place : Nat}
    {req : SchedDlRlcBufferReq} (hreq : subframe.scheduler.rlcBufferReq[place]? = some req)
    (hwaiting : req.rnti ∉ granted) :
    ((turnChannels subframe.scheduler.rlcBufferReq req.rnti place).filter
      fun one => one.hasData).length ≤
      start.scheduler.rlcBufferReq.countP fun one =>
        decide (one.rnti = req.rnti) && one.hasData := by
  obtain ⟨hlater, -, hinside, -⟩ := groupEnd_spec hreq
  have hchannels : turnChannels subframe.scheduler.rlcBufferReq req.rnti place =
      (start.scheduler.rlcBufferReq.drop place).take
        (groupEnd subframe.scheduler.rlcBufferReq req.rnti place - place) := by
    apply List.ext_getElem?
    intro index
    by_cases hlt : index < groupEnd subframe.scheduler.rlcBufferReq req.rnti place - place
    · rw [turnChannels, List.getElem?_take_of_lt hlt, List.getElem?_take_of_lt hlt,
        List.getElem?_drop, List.getElem?_drop]
      cases hnew : subframe.scheduler.rlcBufferReq[place + index]? with
      | some new =>
          have hrnti := hinside (place + index) new (Nat.le_add_right _ _) (by omega) hnew
          exact (held.same hnew (hrnti ▸ hwaiting)).symm
      | none =>
          have hlength := congrArg List.length held.keyed
          rw [List.length_map, List.length_map] at hlength
          have hout := List.getElem?_eq_none_iff.mp hnew
          exact (List.getElem?_eq_none_iff.mpr (hlength ▸ hout)).symm
    · rw [turnChannels, List.getElem?_eq_none_iff.mpr (by rw [List.length_take]; omega),
        List.getElem?_eq_none_iff.mpr (by rw [List.length_take]; omega)]
  have hsame : ((turnChannels subframe.scheduler.rlcBufferReq req.rnti place).filter
      fun one => one.hasData) =
      (turnChannels subframe.scheduler.rlcBufferReq req.rnti place).filter
        fun one => decide (one.rnti = req.rnti) && one.hasData := by
    refine List.filter_congr fun one hmem => ?_
    obtain ⟨other, hfrom, hto, hone⟩ := (mem_turnChannels hlater.le).mp hmem
    rw [hinside other one hfrom hto hone, decide_eq_true rfl, Bool.true_and]
  rw [hsame, List.countP_eq_length_filter, hchannels]
  exact (((List.take_sublist _ _).trans (List.drop_sublist _ _)).filter _).length_le

/-- A UE that waits still finds its RBGs. -/
theorem Granting.enough {rbgNum : Nat} {shares : Shares} {start subframe : Subframe}
    {granted : List Rnti} (held : Granting rbgNum shares start granted subframe)
    (hshared : Shared shares start) {rnti : Rnti} (hactive : rnti ∈ keys shares.actives)
    (hwaiting : rnti ∉ granted) (hfree : 0 < free subframe.rbgMap) :
    shares.rbgPerTb ≤ free subframe.rbgMap := by
  rcases hshared.enough with hone | hshare
  · rw [hone]
    exact hfree
  · have hnodup : (rnti :: granted).Nodup := List.nodup_cons.mpr ⟨hwaiting, held.oneEach⟩
    have hsubset : rnti :: granted ⊆ keys shares.actives := by
      intro other hmem
      rcases List.mem_cons.mp hmem with rfl | hold
      · exact hactive
      · exact held.active other hold
    have hlength := (List.subperm_of_subset hnodup hsubset).length_le
    rw [List.length_cons, keys, List.length_map] at hlength
    have hmul := Nat.mul_le_mul_right shares.rbgPerTb hlength
    rw [Nat.succ_mul] at hmul
    have hremaining := held.remaining
    omega

/-- The element of a new transmission. -/
def newElement (shares : Shares) (scheduler : RrFfMacScheduler) (rnti lcNum nLayer : Nat)
    (process : HarqProcess) (places : List Nat) (channels : List SchedDlRlcBufferReq) :
    BuildDataListElement :=
  ⟨rnti, newDci rnti (shares.mcsOf scheduler rnti) (shares.tbSizeOf scheduler rnti) nLayer
    process places, channels.map (channelPdus nLayer (shares.pduSizeOf scheduler rnti lcNum))⟩

theorem newElement_isNew {shares : Shares} {scheduler : RrFfMacScheduler}
    {rnti lcNum nLayer : Nat} {process : HarqProcess} {places : List Nat}
    {channels : List SchedDlRlcBufferReq} (hlayers : 0 < nLayer) :
    (newElement shares scheduler rnti lcNum nLayer process places channels).isNew = true := by
  obtain ⟨more, rfl⟩ := Nat.exists_eq_add_of_lt hlayers
  simp [newElement, newDci, BuildDataListElement.isNew, List.replicate_succ]

/-- The PDUs of a new transmission share its transport block. -/
theorem newElement_fits {shares : Shares} {scheduler : RrFfMacScheduler}
    {rnti lcNum nLayer : Nat} {process : HarqProcess} {places : List Nat}
    {channels : List SchedDlRlcBufferReq} (hsize : shares.tbSizeOf scheduler rnti < 65536)
    (hcount : channels.length ≤ lcNum) :
    (newElement shares scheduler rnti lcNum nLayer process places channels).Fits := by
  intro layer size hlayerSize
  obtain ⟨hlayer, hvalue⟩ := List.getElem?_eq_some_iff.mp hlayerSize
  have hlt : layer < nLayer := by simpa [newElement, newDci] using hlayer
  have hblock : size = shares.tbSizeOf scheduler rnti := by
    rw [← hvalue]
    simp only [newElement, newDci, List.getElem_replicate]
    exact Nat.mod_eq_of_lt hsize
  rw [newElement, layerBytes_granted channels hlt, hblock, Shares.pduSizeOf]
  calc channels.length * (shares.tbSizeOf scheduler rnti / lcNum % 65536)
      ≤ lcNum * (shares.tbSizeOf scheduler rnti / lcNum) :=
        Nat.mul_le_mul hcount (Nat.mod_le _ _)
    _ ≤ shares.tbSizeOf scheduler rnti := Nat.mul_div_le _ _

theorem exists_updateHarqProcessId {ue : UeHarq} (hready : harqProcessAvailability ue = true) :
    ∃ claimed, updateHarqProcessId ue = some (ue.searched, claimed) ∧
      claimed.transmissionMode = ue.transmissionMode ∧ claimed.processesDci = ue.processesDci :=
  ⟨_, if_pos (of_decide_eq_true hready), rfl, rfl⟩

/-- The state behind a grant. -/
def grantedSubframe (subframe : Subframe) (rnti : Rnti) (claimed : UeHarq) (process : HarqProcess)
    (element : BuildDataListElement) (reqs : List SchedDlRlcBufferReq) (places : List Nat) :
    Subframe :=
  { subframe with
    scheduler :=
      { subframe.scheduler.withUe rnti
          (claimed.transmitted process element.dci element.rlcPduList) with rlcBufferReq := reqs }
    rbgMap := mark subframe.rbgMap places
    rbgAllocatedNum := subframe.rbgAllocatedNum + places.length
    buildDataList := subframe.buildDataList ++ [element] }

/-- The reports behind a grant. -/
def grantedReqs (nLayer size : Nat) (reqs : List SchedDlRlcBufferReq) (rnti : Rnti)
    (place : Nat) : List SchedDlRlcBufferReq :=
  (grantChannels nLayer size (groupEnd reqs rnti place - place) place ⟨reqs, []⟩).rlcBufferReq

theorem grant_eq {shares : Shares} {robin : TurnLoop} {rnti lcNum pointer : Nat}
    {ue claimed : UeHarq} {process : HarqProcess} {places : List Nat}
    (hkeyed : (robin.subframe.scheduler.rlcBufferReq.map SchedDlRlcBufferReq.key).Nodup)
    (hue : robin.subframe.scheduler.ues rnti = some ue)
    (hclaimed : updateHarqProcessId ue = some (process, claimed))
    (hlayers : 0 < txMode2LayerNum ue.transmissionMode) (hcount : 0 < lcNum)
    (htake : takeRbgs (robin.subframe.rbgMap.length + 1) shares.rbgPerTb robin.subframe.rbgMap
      robin.rbgAllocated [] = some (places, mark robin.subframe.rbgMap places, pointer)) :
    grant shares robin rnti lcNum = some
      { subframe := grantedSubframe robin.subframe rnti claimed process
          (newElement shares robin.subframe.scheduler rnti lcNum
            (txMode2LayerNum ue.transmissionMode) process places
            ((turnChannels robin.subframe.scheduler.rlcBufferReq rnti robin.place).filter
              fun one => one.hasData))
          (grantedReqs (txMode2LayerNum ue.transmissionMode)
            (shares.pduSizeOf robin.subframe.scheduler rnti lcNum)
            robin.subframe.scheduler.rlcBufferReq rnti robin.place) places
        rbgAllocated := pointer
        place := nextGroup robin.subframe.scheduler.rlcBufferReq rnti robin.place
        nextRntiDl := robin.nextRntiDl } := by
  have hpdus := (@grantChannels_spec (txMode2LayerNum ue.transmissionMode)
    (shares.pduSizeOf robin.subframe.scheduler rnti lcNum)
    (groupEnd robin.subframe.scheduler.rlcBufferReq rnti robin.place - robin.place) robin.place
    ⟨robin.subframe.scheduler.rlcBufferReq, []⟩ hkeyed).2.2
  simp only [List.nil_append] at hpdus
  have hnot : ¬ (txMode2LayerNum ue.transmissionMode = 0 ∨ lcNum = 0) := by omega
  simp only [grant, hue, hclaimed, htake, hnot, if_false, Option.bind_eq_bind, Option.bind_some,
    Option.pure_def, hpdus]
  rfl

theorem grantedReqs_spec {nLayer size place : Nat} {reqs : List SchedDlRlcBufferReq}
    {rnti : Rnti} (hkeyed : (reqs.map SchedDlRlcBufferReq.key).Nodup)
    (hle : place ≤ groupEnd reqs rnti place) :
    (grantedReqs nLayer size reqs rnti place).map SchedDlRlcBufferReq.key =
        reqs.map SchedDlRlcBufferReq.key ∧
      ∀ other : Nat, (grantedReqs nLayer size reqs rnti place)[other]? =
        if place ≤ other ∧ other < groupEnd reqs rnti place then
          reqs[other]?.map (grantedReq nLayer size)
        else reqs[other]? := by
  obtain ⟨hmap, hget, -⟩ := @grantChannels_spec nLayer size (groupEnd reqs rnti place - place)
    place ⟨reqs, []⟩ hkeyed
  rw [Nat.add_sub_cancel' hle] at hget
  exact ⟨hmap, hget⟩

/-- The queues of a channel behind the turn of its UE. -/
theorem newElement_lowers (shares : Shares) (scheduler : RrFfMacScheduler) (rnti lcNum : Nat)
    {nLayer : Nat} (process : HarqProcess) (places : List Nat) {req : SchedDlRlcBufferReq}
    (hcovers : req.hasData = true →
      CoversOverhead nLayer (shares.pduSizeOf scheduler rnti lcNum) req)
    {channels : List SchedDlRlcBufferReq} (hmem : req.hasData = true → req ∈ channels) :
    Lowers ((newElement shares scheduler rnti lcNum nLayer process places channels).channelBytes
      req.logicalChannelIdentity) req
      (grantedReq nLayer (shares.pduSizeOf scheduler rnti lcNum) req) := by
  rw [grantedReq]
  split
  · next hdata =>
      have hsize : shares.pduSizeOf scheduler rnti lcNum < 65536 := Nat.mod_lt _ (by omega)
      exact (served_iterate_lowers hsize (hcovers hdata)).mono (le_channelBytes (hmem hdata))
  · exact Lowers.refl _ _

/-- A turn of a UE in the table gives it a transport block. -/
theorem Granting.grant {rbgNum : Nat} {shares : Shares} {start : Subframe} {granted : List Rnti}
    {robin : TurnLoop} (held : Granting rbgNum shares start granted robin.subframe)
    (hnum : rbgNum ≤ 32) (hshared : Shared shares start) {req : SchedDlRlcBufferReq}
    (hreq : robin.subframe.scheduler.rlcBufferReq[robin.place]? = some req) {lcNum : Nat}
    (hactive : lookup req.rnti shares.actives = some lcNum) (hwaiting : req.rnti ∉ granted)
    (hfree : 0 < free robin.subframe.rbgMap)
    (hbelow : ∀ rbg < robin.rbgAllocated, robin.subframe.rbgMap[rbg]? ≠ some false)
    (hfits : GrantFits shares robin) :
    ∃ next, RoundRobin.grant shares robin req.rnti lcNum = some next ∧
      Granting rbgNum shares start (granted ++ [req.rnti]) next.subframe ∧
      (∀ rbg < next.rbgAllocated, next.subframe.rbgMap[rbg]? ≠ some false) ∧
      next.place = nextGroup robin.subframe.scheduler.rlcBufferReq req.rnti robin.place ∧
      next.nextRntiDl = robin.nextRntiDl ∧ next.subframe.rbgNum = robin.subframe.rbgNum := by
  obtain ⟨⟨hallocated, ue, hue, hready⟩, hcount, hchannels⟩ := hshared.ready req.rnti lcNum hactive
  have hkey : req.rnti ∈ keys shares.actives :=
    (lookup_isSome_iff _ _).mp (by rw [hactive]; rfl)
  rw [← held.waiting req.rnti hwaiting] at hue
  rw [← held.allocated] at hallocated
  have hwell := held.wellFormed req.rnti ue hue
  have hlayers := txMode2LayerNum_pos hwell.mode
  obtain ⟨claimed, hclaimed, hmode, hdcis⟩ := exists_updateHarqProcessId hready
  have hkeyed : (robin.subframe.scheduler.rlcBufferReq.map SchedDlRlcBufferReq.key).Nodup :=
    held.keyed ▸ hshared.keyed
  obtain ⟨places, pointer, htake, hplaces, hlength, hpointer⟩ :=
    @exists_takeRbgs (robin.subframe.rbgMap.length + 1) _ _ _ [] hbelow
      (held.enough hshared hkey hwaiting hfree) (by omega)
  rw [List.nil_append] at htake
  have hnext := grant_eq hkeyed hue hclaimed hlayers hcount htake
  have hturn : turnOf shares robin = some (req.rnti, some lcNum) := by
    simp [turnOf, hreq, hallocated, hactive]
  obtain ⟨hblock, hcovers⟩ := hfits _ hturn lcNum rfl ue hue
  obtain ⟨hlater, -, hinside, -⟩ := groupEnd_spec hreq
  have hcounted := le_trans (held.counted hreq hwaiting) hchannels
  have hin : ∀ place ∈ places, place < rbgNum := fun place hmem =>
    held.spread.length_eq ▸ hplaces.lt_length hmem
  have hne : places ≠ [] := by
    rw [← List.length_pos_iff, hlength]
    exact hshared.positive
  obtain ⟨hmap, hget⟩ := @grantedReqs_spec (txMode2LayerNum ue.transmissionMode)
    (shares.pduSizeOf robin.subframe.scheduler req.rnti lcNum) _ _ _ hkeyed hlater.le
  refine ⟨_, hnext, ?_, hpointer, rfl, rfl, rfl⟩
  constructor
  · refine held.spread.add hplaces ?_ (inCell_maskOf hplaces.1 hne hin) rfl rfl rfl rfl
    exact mem_rbgsOf_maskOf hplaces.1 fun place hmem => lt_of_lt_of_le (hin place hmem) hnum
  · exact held.allocated
  · have hothers := held.others
    simp only [grantedSubframe, RrFfMacScheduler.withUe]
    rw [hothers]
  · intro other
    rw [← held.configured other]
    simp only [grantedSubframe, RrFfMacScheduler.withUe, put]
    split
    · next same => rw [same, hue]; rfl
    · rfl
  · intro other found hfound
    simp only [grantedSubframe, RrFfMacScheduler.withUe, put] at hfound
    split at hfound
    · cases hfound
      have hclaimedWell : claimed.WellFormed rbgNum :=
        ⟨hmode ▸ hwell.mode, fun process => by rw [hdcis]; exact hwell.stored process⟩
      refine hclaimedWell.transmitted ⟨rfl, inCell_maskOf hplaces.1 hne hin, ?_, ?_, ?_⟩ _
      · simp [newElement, newDci]
      · simp [newElement, newDci]
      · simp [newElement, newDci]
    · exact held.wellFormed other found hfound
  · intro other hother
    obtain ⟨hnot, hself⟩ := not_or.mp fun hmem => hother (List.mem_append.mpr hmem)
    have hne' : other ≠ req.rnti := fun same => hself (same ▸ List.mem_singleton_self _)
    simp only [grantedSubframe, RrFfMacScheduler.withUe, put_other hne']
    exact held.waiting other hnot
  · exact hmap.trans held.keyed
  · intro place old hold hother
    obtain ⟨hnot, hself⟩ := not_or.mp fun hmem => hother (List.mem_append.mpr hmem)
    have hsame := held.untouched place old hold hnot
    have houtside : ¬ (robin.place ≤ place ∧
        place < groupEnd robin.subframe.scheduler.rlcBufferReq req.rnti robin.place) :=
      fun hturnPlace => hself (List.mem_singleton.mpr
        (hinside place old hturnPlace.1 hturnPlace.2 hsame))
    exact (hget place).trans (by rw [if_neg houtside, hsame])
  · intro place old new hold hnew
    change (grantedReqs _ _ _ _ _)[place]? = some new at hnew
    rw [hget place] at hnew
    change Lowers (grantedBytes (robin.subframe.buildDataList ++ [_]) _ _) old new
    split at hnew
    · next hturnPlace =>
        obtain ⟨middle, hmiddle, rfl⟩ := Option.map_eq_some_iff.mp hnew
        have hrnti := hinside place middle hturnPlace.1 hturnPlace.2 hmiddle
        have hsame := held.same hmiddle (hrnti ▸ hwaiting)
        obtain rfl : old = middle := Option.some.inj (hold.symm.trans hsame)
        have hmem : old ∈ turnChannels robin.subframe.scheduler.rlcBufferReq req.rnti robin.place :=
          (mem_turnChannels hlater.le).mpr ⟨place, hturnPlace.1, hturnPlace.2, hmiddle⟩
        exact (newElement_lowers shares robin.subframe.scheduler req.rnti lcNum ue.searched places
          (hcovers old hmem) fun hdata => List.mem_filter.mpr ⟨hmem, hdata⟩).mono
            (le_grantedBytes_snoc (newElement_isNew hlayers) hrnti.symm)
    · exact (held.lowered place old new hold hnew).mono (grantedBytes_le_snoc _ _ _ _)
  · exact held.elements.snoc (newElement_isNew hlayers) (newElement_fits hblock hcounted)
  · exact List.nodup_append.mpr ⟨held.oneEach, List.nodup_singleton _, fun other hold one hone =>
      fun same => hwaiting (List.mem_singleton.mp hone ▸ same ▸ hold)⟩
  · intro other hmem
    rcases List.mem_append.mp hmem with hold | hlast
    · exact held.active other hold
    · exact List.mem_singleton.mp hlast ▸ hkey
  · intro other hmem
    rcases List.mem_append.mp hmem with hold | hlast
    · exact held.apart other hold
    · exact List.mem_singleton.mp hlast ▸ held.allocated ▸ hallocated
  · have hmarked := free_mark hplaces
    have hremaining := held.remaining
    change free (mark robin.subframe.rbgMap places) + _ = _
    rw [List.length_append, List.length_singleton, Nat.succ_mul]
    omega

/-! ## The round robin -/

/-- A turn of the loop, with the UEs that had theirs. -/
structure Turning (rbgNum : Nat) (shares : Shares) (start : Subframe) (last : Rnti)
    (granted : List Rnti) (robin : TurnLoop) : Prop where
  granting : Granting rbgNum shares start granted robin.subframe
  below : ∀ rbg < robin.rbgAllocated, robin.subframe.rbgMap[rbg]? ≠ some false
  ends : robin.nextRntiDl = last
  free : 0 < free robin.subframe.rbgMap
  turn : ∃ req, robin.subframe.scheduler.rlcBufferReq[robin.place]? = some req ∧
    ∀ rnti ∈ granted, Precedes last rnti req.rnti

theorem turnOf_rnti {shares : Shares} {robin : TurnLoop} {req : SchedDlRlcBufferReq}
    (hreq : robin.subframe.scheduler.rlcBufferReq[robin.place]? = some req) :
    ∃ active, turnOf shares robin = some (req.rnti, active) := by
  by_cases hallocated : req.rnti ∈ robin.subframe.rntiAllocated
  · exact ⟨none, by simp [turnOf, hreq, hallocated]⟩
  · exact ⟨lookup req.rnti shares.actives, by simp [turnOf, hreq, hallocated]⟩

theorem Granting.rntis {rbgNum : Nat} {shares : Shares} {start subframe : Subframe}
    {granted : List Rnti} (held : Granting rbgNum shares start granted subframe) :
    (subframe.scheduler.rlcBufferReq.map fun req => req.rnti) =
      start.scheduler.rlcBufferReq.map fun req => req.rnti := by
  have hkeys := congrArg (List.map Prod.fst) held.keyed
  simpa [List.map_map, Function.comp_def, SchedDlRlcBufferReq.key] using hkeys

theorem sorted_of_rntis {reqs others : List SchedDlRlcBufferReq}
    (hrntis : (reqs.map fun req => req.rnti) = others.map fun req => req.rnti)
    (hsorted : SortedByRnti others) : SortedByRnti reqs :=
  List.pairwise_map.mp (hrntis ▸ List.pairwise_map.mpr hsorted)

theorem rnti_at {reqs others : List SchedDlRlcBufferReq}
    (hrntis : (reqs.map fun req => req.rnti) = others.map fun req => req.rnti) {place : Nat}
    {req : SchedDlRlcBufferReq} (hreq : reqs[place]? = some req) :
    ∃ other, others[place]? = some other ∧ other.rnti = req.rnti := by
  have hat := congrArg (fun list => list[place]?) hrntis
  simp only [List.getElem?_map, hreq, Option.map_some] at hat
  exact Option.map_eq_some_iff.mp hat.symm

theorem placesAhead_congr {reqs others : List SchedDlRlcBufferReq}
    (hrntis : (reqs.map fun req => req.rnti) = others.map fun req => req.rnti) (last place : Nat) :
    placesAhead reqs last place = placesAhead others last place := by
  have hlength : reqs.length = others.length := by
    simpa using congrArg List.length hrntis
  cases hreq : reqs[place]? with
  | none =>
      have hout := List.getElem?_eq_none_iff.mp hreq
      rw [placesAhead, placesAhead, hreq, List.getElem?_eq_none_iff.mpr (hlength ▸ hout)]
  | some req =>
      obtain ⟨other, hother, hrnti⟩ := rnti_at hrntis hreq
      rw [placesAhead, placesAhead, hreq, hother]
      simp only [hrnti, hlength]

/-- One turn of the round robin. -/
theorem Turning.step {rbgNum : Nat} {shares : Shares} {start : Subframe} {last : Rnti}
    {granted : List Rnti} {robin : TurnLoop}
    (held : Turning rbgNum shares start last granted robin) (hnum : rbgNum ≤ 32)
    (hshared : Shared shares start)
    (hlisted : ∃ target ∈ start.scheduler.rlcBufferReq, target.rnti = last)
    (hfits : GrantFits shares robin) :
    ∃ finished next, takeTurn shares robin = some (finished, next) ∧
      (finished = true → ∃ granted, Granting rbgNum shares start granted next.subframe) ∧
      (finished = false → (∃ granted, Turning rbgNum shares start last granted next) ∧
        placesAhead next.subframe.scheduler.rlcBufferReq last next.place <
          placesAhead robin.subframe.scheduler.rlcBufferReq last robin.place) := by
  obtain ⟨req, hreq, hprecedes⟩ := held.turn
  have hrntis := held.granting.rntis
  obtain ⟨target, htarget, htargetRnti⟩ : ∃ target ∈ robin.subframe.scheduler.rlcBufferReq,
      target.rnti = last := by
    obtain ⟨target, hmem, rfl⟩ := hlisted
    have hin := List.mem_map_of_mem (f := fun req : SchedDlRlcBufferReq => req.rnti) hmem
    rw [← hrntis] at hin
    exact List.mem_map.mp hin
  obtain ⟨after, hafter, hlater⟩ :=
    nextGroup_turn (sorted_of_rntis hrntis hshared.sorted) hreq htarget
  rw [htargetRnti] at hlater
  have hnotYet : req.rnti ∉ granted := fun hmem => Precedes.irrefl (hprecedes _ hmem)
  by_cases hactive : req.rnti ∉ robin.subframe.rntiAllocated ∧
      ∃ lcNum, lookup req.rnti shares.actives = some lcNum
  · obtain ⟨hallocated, lcNum, hlookup⟩ := hactive
    have hturn : turnOf shares robin = some (req.rnti, some lcNum) := by
      simp [turnOf, hreq, hallocated, hlookup]
    obtain ⟨next, hnext, hgranting, hbelow, hplace, hends, hnextNum⟩ :=
      held.granting.grant hnum hshared hreq hlookup hnotYet held.free held.below hfits
    by_cases hfull : next.subframe.rbgAllocatedNum = next.subframe.rbgNum
    · exact ⟨true, { next with nextRntiDl := req.rnti }, by simp [takeTurn, hturn, hnext, hfull],
        fun _ => ⟨_, hgranting⟩, fun hfalse => by cases hfalse⟩
    · have hnextRntis := hgranting.rntis.trans hrntis.symm
      obtain ⟨req', hreq', hrnti'⟩ := rnti_at hnextRntis.symm (hplace ▸ hafter)
      obtain ⟨active, hnextTurn⟩ := @turnOf_rnti shares next req' hreq'
      have hfree : 0 < Foundation.Marks.free next.subframe.rbgMap := by
        have hcounted := hgranting.spread.counted
        have hnumEq := hgranting.spread.rbgNum_eq
        omega
      refine ⟨decide (req'.rnti = next.nextRntiDl), next,
        by simp [takeTurn, hturn, hnext, hfull, hnextTurn], fun _ => ⟨_, hgranting⟩, fun hgo => ?_⟩
      have hne := of_decide_eq_false hgo
      rw [hends, held.ends, hrnti'] at hne
      obtain ⟨hstep, hless⟩ := hlater hne
      refine ⟨⟨_, hgranting, hbelow, hends.trans held.ends, hfree, req', hreq', ?_⟩, ?_⟩
      · intro rnti hmem
        rw [hrnti']
        rcases List.mem_append.mp hmem with hold | hlast
        · exact (hprecedes rnti hold).trans hstep
        · exact List.mem_singleton.mp hlast ▸ hstep
      · rw [placesAhead_congr hnextRntis, hplace]
        exact hless
  · have hturn : turnOf shares robin = some (req.rnti, none) := by
      by_cases hallocated : req.rnti ∈ robin.subframe.rntiAllocated
      · simp [turnOf, hreq, hallocated]
      · cases hlookup : lookup req.rnti shares.actives with
        | none => simp [turnOf, hreq, hallocated, hlookup]
        | some lcNum => exact absurd ⟨hallocated, lcNum, hlookup⟩ hactive
    obtain ⟨active, hnextTurn⟩ := @turnOf_rnti shares { robin with
      place := nextGroup robin.subframe.scheduler.rlcBufferReq req.rnti robin.place } after hafter
    refine ⟨decide (after.rnti = robin.nextRntiDl), { robin with
        place := nextGroup robin.subframe.scheduler.rlcBufferReq req.rnti robin.place },
      by simp [takeTurn, hturn, hnextTurn], fun _ => ⟨_, held.granting⟩, fun hgo => ?_⟩
    have hne := of_decide_eq_false hgo
    rw [held.ends] at hne
    obtain ⟨hstep, hless⟩ := hlater hne
    exact ⟨⟨_, held.granting, held.below, held.ends, held.free, after, hafter,
      fun rnti hmem => (hprecedes rnti hmem).trans hstep⟩, hless⟩

/-! ## All new transmissions of a trigger -/

/--
What the new transmissions meet: fewer than 256 channels of a UE have data, and
when some channel is active the UE served last is listed and every grant fits.
-/
def TransmitFits (amc : LteAmc) (rbgSize : Nat) (subframe : Subframe) : Prop :=
  (∀ req ∈ subframe.scheduler.rlcBufferReq,
    (subframe.scheduler.rlcBufferReq.countP fun other =>
      decide (other.rnti = req.rnti) && other.hasData) < 256) ∧
  ∀ actives ∈ lcActives subframe subframe.scheduler.rlcBufferReq [], actives ≠ [] →
    (subframe.scheduler.nextRntiDl = 0 ∨
      ∃ req ∈ subframe.scheduler.rlcBufferReq, req.rnti = subframe.scheduler.nextRntiDl) ∧
    ∀ turn ∈ firstTurn subframe.scheduler.nextRntiDl subframe.scheduler.rlcBufferReq,
      Along (takeTurn (sharesOf amc rbgSize subframe actives))
        (GrantFits (sharesOf amc rbgSize subframe actives))
        (2 * subframe.scheduler.rlcBufferReq.length + 1) ⟨subframe, 0, turn.1, turn.2⟩

instance (amc : LteAmc) (rbgSize : Nat) (subframe : Subframe) :
    Decidable (TransmitFits amc rbgSize subframe) :=
  inferInstanceAs (Decidable ((∀ req ∈ subframe.scheduler.rlcBufferReq,
    (subframe.scheduler.rlcBufferReq.countP fun other =>
      decide (other.rnti = req.rnti) && other.hasData) < 256) ∧
  ∀ actives ∈ lcActives subframe subframe.scheduler.rlcBufferReq [], actives ≠ [] →
    (subframe.scheduler.nextRntiDl = 0 ∨
      ∃ req ∈ subframe.scheduler.rlcBufferReq, req.rnti = subframe.scheduler.nextRntiDl) ∧
    ∀ turn ∈ firstTurn subframe.scheduler.nextRntiDl subframe.scheduler.rlcBufferReq,
      Along (takeTurn (sharesOf amc rbgSize subframe actives))
        (GrantFits (sharesOf amc rbgSize subframe actives))
        (2 * subframe.scheduler.rlcBufferReq.length + 1) ⟨subframe, 0, turn.1, turn.2⟩))

theorem activeCount_le {subframe : Subframe} {rnti : Rnti} {reqs : List SchedDlRlcBufferReq} :
    activeCount subframe rnti reqs ≤
      reqs.countP fun req => decide (req.rnti = rnti) && req.hasData := by
  refine List.countP_mono_left fun req _ hreq => ?_
  simp only [Bool.and_eq_true, decide_eq_true_eq] at hreq ⊢
  exact ⟨hreq.1, (isActive_eq_true hreq.2).1⟩

/-- The table of active channels shares the free RBGs among ready UEs. -/
theorem exists_shared {amc : LteAmc} {rbgNum rbgSize : Nat} {start : Subframe}
    (hspread : Spread rbgNum start)
    (hconfigured : ∀ req ∈ start.scheduler.rlcBufferReq,
      (start.scheduler.ues req.rnti).isSome)
    (hcount : ∀ req ∈ start.scheduler.rlcBufferReq,
      (start.scheduler.rlcBufferReq.countP fun other =>
        decide (other.rnti = req.rnti) && other.hasData) < 256)
    (hkeyed : (start.scheduler.rlcBufferReq.map SchedDlRlcBufferReq.key).Nodup)
    (hsorted : SortedByRnti start.scheduler.rlcBufferReq) :
    ∃ actives, lcActives start start.scheduler.rlcBufferReq [] = some actives ∧
      (actives ≠ [] → Shared (sharesOf amc rbgSize start actives) start ∧
        start.scheduler.rlcBufferReq ≠ []) := by
  have hsmall : ∀ rnti, activeCount start rnti start.scheduler.rlcBufferReq < 256 := by
    intro rnti
    rcases Nat.eq_zero_or_pos (activeCount start rnti start.scheduler.rlcBufferReq) with
      hzero | hpos
    · omega
    · obtain ⟨req, hmem, hreq⟩ := List.countP_pos_iff.mp hpos
      simp only [Bool.and_eq_true, decide_eq_true_eq] at hreq
      exact hreq.1 ▸ lt_of_le_of_lt activeCount_le (hcount req hmem)
  obtain ⟨actives, hactives, hdistinct, hlookup⟩ := exists_lcActives [] hconfigured
    (fun rnti => by simpa [lookup] using hsmall rnti) List.nodup_nil
  have hready : ∀ rnti count, lookup rnti actives = some count → Ready start rnti ∧ 0 < count ∧
      start.scheduler.rlcBufferReq ≠ [] ∧
      (start.scheduler.rlcBufferReq.countP fun req =>
        decide (req.rnti = rnti) && req.hasData) ≤ count := by
    intro rnti count hcounted
    rw [hlookup rnti] at hcounted
    split at hcounted
    · cases hcounted
    · next hne =>
        obtain rfl : activeCount start rnti start.scheduler.rlcBufferReq = count := by
          simpa [lookup] using hcounted
        obtain ⟨req, hmem, hreq⟩ := List.countP_pos_iff.mp (Nat.pos_of_ne_zero hne)
        simp only [Bool.and_eq_true, decide_eq_true_eq] at hreq
        obtain ⟨rfl, hactive⟩ := hreq
        refine ⟨(isActive_eq_true hactive).2.1, Nat.pos_of_ne_zero hne,
          List.ne_nil_of_mem hmem, List.countP_mono_left fun other _ hother => ?_⟩
        simp only [Bool.and_eq_true, decide_eq_true_eq] at hother ⊢
        exact ⟨hother.1, isActive_of_ready hactive hother.1 hother.2⟩
  refine ⟨actives, hactives, fun hne => ?_⟩
  have hlisted : start.scheduler.rlcBufferReq ≠ [] := by
    cases hentries : actives with
    | nil => exact absurd hentries hne
    | cons entry rest =>
        have hfirst : lookup entry.1 actives = some entry.2 := by
          rw [hentries, lookup, if_pos rfl]
        exact (hready entry.1 entry.2 hfirst).2.2.1
  refine ⟨⟨hdistinct, fun rnti count hcounted => ?_, ?_, ?_, hkeyed, hsorted⟩, hlisted⟩
  · obtain ⟨hr, hpos, -, hle⟩ := hready rnti count hcounted
    exact ⟨hr, hpos, hle⟩
  · simp only [sharesOf]
    split
    · exact Nat.one_pos
    · next hshare => exact Nat.pos_of_ne_zero hshare
  · simp only [sharesOf]
    split
    · exact Or.inl rfl
    · right
      have hcounted := hspread.counted
      have hfree : start.rbgNum - start.rbgAllocatedNum = free start.rbgMap := by
        rw [hspread.rbgNum_eq]
        omega
      rw [hfree]
      exact Nat.mul_div_le _ _

/-- The new transmissions end, and each is a grant. -/
theorem transmitNew_granting {amc : LteAmc} {rbgNum rbgSize : Nat} {start : Subframe}
    (hnum : rbgNum ≤ 32) (hspread : Spread rbgNum start)
    (hues : ∀ rnti ue, start.scheduler.ues rnti = some ue → ue.WellFormed rbgNum)
    (hconfigured : ∀ req ∈ start.scheduler.rlcBufferReq,
      (start.scheduler.ues req.rnti).isSome)
    (hkeyed : (start.scheduler.rlcBufferReq.map SchedDlRlcBufferReq.key).Nodup)
    (hsorted : SortedByRnti start.scheduler.rlcBufferReq)
    (hopen : start.rbgAllocatedNum ≠ start.rbgNum) (hfits : TransmitFits amc rbgSize start) :
    ∃ shares granted last nextRntiDl, Granting rbgNum shares start granted last ∧
      transmitNew amc rbgSize start = some { last with
        scheduler := { last.scheduler with nextRntiDl := nextRntiDl } } := by
  obtain ⟨hcount, hloop⟩ := hfits
  obtain ⟨actives, hactives, hshared⟩ :=
    @exists_shared amc rbgNum rbgSize start hspread hconfigured hcount hkeyed hsorted
  by_cases hnone : actives = []
  · exact ⟨sharesOf amc rbgSize start actives, [], start, start.scheduler.nextRntiDl,
      Granting.start hspread hues, by simp [transmitNew, hactives, hnone]⟩
  · obtain ⟨hshares, hne⟩ := hshared hnone
    obtain ⟨hlisted, halong⟩ := hloop actives hactives hnone
    obtain ⟨place, req, hfirst, hreq⟩ := exists_firstTurn hne hlisted
    have hfree : 0 < free start.rbgMap := by
      have hcounted := hspread.counted
      have hnumEq := hspread.rbgNum_eq
      omega
    have hstart : ∃ granted, Turning rbgNum (sharesOf amc rbgSize start actives) start req.rnti
        granted ⟨start, 0, place, req.rnti⟩ :=
      ⟨[], Granting.start hspread hues, fun _ hlt => absurd hlt (Nat.not_lt_zero _), rfl, hfree,
        req, hreq, fun _ hmem => absurd hmem List.not_mem_nil⟩
    have hmeasure : placesAhead start.scheduler.rlcBufferReq req.rnti place <
        2 * start.scheduler.rlcBufferReq.length + 1 := by
      rw [placesAhead, hreq]
      simp only
      split <;> omega
    obtain ⟨robin, hrobin, granted, hgranting⟩ := exists_loop
      (takeTurn (sharesOf amc rbgSize start actives))
      (fun robin => ∃ granted, Turning rbgNum (sharesOf amc rbgSize start actives) start req.rnti
        granted robin)
      (fun robin => ∃ granted, Granting rbgNum (sharesOf amc rbgSize start actives) start granted
        robin.subframe)
      (fun robin => placesAhead robin.subframe.scheduler.rlcBufferReq req.rnti robin.place)
      (fun robin hturning hfit => by
        obtain ⟨granted, hturn⟩ := hturning
        exact hturn.step hnum hshares ⟨req, List.mem_of_getElem? hreq, rfl⟩ hfit)
      hstart hmeasure (halong _ hfirst)
    refine ⟨_, granted, robin.subframe, robin.nextRntiDl, hgranting, ?_⟩
    simp [transmitNew, hactives, hnone, hfirst, hrobin]

end DeepcV2x.Lte.RoundRobin
