import DeepcV2x.Lte.Grants

/-!
# The HARQ buffers of the downlink

A run keeps what every trigger found and sent.  A busy process is described by
the elements sent on it: the last new transmission and its retransmissions.  Its
PDU lists are appended to, so they are the ones of that transmission only when
the process was freed by feedback, which clears them, and not by its timer.
-/

namespace DeepcV2x.Lte.RoundRobin

open DeepcV2x.Foundation.Association
open DeepcV2x.Foundation.Loops
open DeepcV2x.Foundation.Runs

/-! ## What was sent on a process -/

/-- The PDUs of an element on one layer. -/
def BuildDataListElement.layerPdus (element : BuildDataListElement) (layer : Nat) :
    List RlcPduListElement :=
  element.rlcPduList.filterMap fun pdus => pdus[layer]?

/-- The entry of a layer, 0 where the list has none. -/
def entryAt (values : List Nat) (layer : Nat) : Nat := values[layer]?.getD 0

/-- A retransmission of a layer: no new data, and a redundancy version. -/
def BuildDataListElement.repeats (layer : Nat) (element : BuildDataListElement) : Bool :=
  decide (element.dci.ndi[layer]? = some 0) && decide (0 < entryAt element.dci.rv layer)

/-- The last new transmission on a process with its retransmissions, one element later. -/
def noteOn (rnti : Rnti) (process : HarqProcess)
    (last : Option (BuildDataListElement × List BuildDataListElement))
    (element : BuildDataListElement) :
    Option (BuildDataListElement × List BuildDataListElement) :=
  if element.rnti = rnti ∧ element.dci.harqProcess = process.val then
    if element.isNew then some (element, [])
    else last.map fun found => (found.1, found.2 ++ [element])
  else last

/-- The last new transmission among elements in the order of their sending. -/
def lastOn (rnti : Rnti) (process : HarqProcess) (sent : List BuildDataListElement) :
    Option (BuildDataListElement × List BuildDataListElement) :=
  sent.foldl (noteOn rnti process) none

/-- The buffers of a process describe its last new transmission and the retransmissions since. -/
def Describes (sent : List BuildDataListElement) (rnti : Rnti) (ue : UeHarq)
    (process : HarqProcess) : Prop :=
  ∃ new again, lastOn rnti process sent = some (new, again) ∧
    (∀ layer, ue.processesRlcPduList layer process = new.layerPdus layer) ∧
    (∀ layer size, (ue.processesDci process).tbsSize[layer]? = some size →
      ((ue.processesRlcPduList layer process).map fun pdu => pdu.size).sum ≤ size) ∧
    ∀ layer, entryAt (ue.processesDci process).rv layer =
        again.countP (BuildDataListElement.repeats layer) ∧
      entryAt (ue.processesDci process).rv layer ≤ 3

theorem lastOn_snoc (rnti : Rnti) (process : HarqProcess) (sent : List BuildDataListElement)
    (element : BuildDataListElement) :
    lastOn rnti process (sent ++ [element]) =
      noteOn rnti process (lastOn rnti process sent) element := by
  rw [lastOn, List.foldl_append]
  rfl

/-- Elements of other processes change nothing. -/
theorem Describes.other {sent : List BuildDataListElement} {rnti : Rnti} {ue : UeHarq}
    {process : HarqProcess} (describes : Describes sent rnti ue process)
    {element : BuildDataListElement}
    (hother : ¬ (element.rnti = rnti ∧ element.dci.harqProcess = process.val)) :
    Describes (sent ++ [element]) rnti ue process := by
  obtain ⟨new, again, hlast, hrest⟩ := describes
  exact ⟨new, again, by rw [lastOn_snoc, noteOn, if_neg hother, hlast], hrest⟩

/-- The buffers of a process are what they were. -/
theorem Describes.congr {sent : List BuildDataListElement} {rnti : Rnti} {ue other : UeHarq}
    {process : HarqProcess} (describes : Describes sent rnti ue process)
    (hdci : other.processesDci process = ue.processesDci process)
    (hpdus : ∀ layer, other.processesRlcPduList layer process =
      ue.processesRlcPduList layer process) : Describes sent rnti other process := by
  obtain ⟨new, again, hlast, hlists, hfits, hversions⟩ := describes
  refine ⟨new, again, hlast, fun layer => (hpdus layer).trans (hlists layer),
    fun layer size hsize => ?_, hdci ▸ hversions⟩
  rw [hpdus]
  exact hfits layer size (hdci ▸ hsize)

/-! ## Released processes -/

/-- An element that acknowledges every layer. -/
def DlInfoListElement.Acknowledges (info : DlInfoListElement) : Prop :=
  ∀ status ∈ info.harqStatus, status = .ack

instance (info : DlInfoListElement) : Decidable info.Acknowledges :=
  inferInstanceAs (Decidable (∀ status ∈ info.harqStatus, status = .ack))

/-- A NACK for a process that was retransmitted three times. -/
def AtLimit (before : RrFfMacScheduler) (info : DlInfoListElement) : Prop :=
  HarqStatus.nack ∈ info.harqStatus ∧
    ∃ dci ∈ storedDci before info, rvOf dci.rv = some 3

/-- A trigger that may give a process to new data: a timeout, an ACK or the limit. -/
def Released (before : RrFfMacScheduler) (infos : List DlInfoListElement) (rnti : Rnti)
    (process : HarqProcess) : Prop :=
  (∃ ue, before.ues rnti = some ue ∧ ue.processesTimer process = harqDlTimeout) ∨
    ∃ info ∈ infos, info.rnti = rnti ∧ processAt info.harqProcessId = some process ∧
      (info.Acknowledges ∨ AtLimit before info)

/-- What a run keeps of its past, the latest first. -/
inductive Record
  | configuredUe (rnti : Rnti)
  | triggered (before : RrFfMacScheduler) (dlInfoList : List DlInfoListElement)
      (elements : List BuildDataListElement)

/-- A process that was not used since its UE was configured, or was released since its last new
transmission. -/
def Available (rnti : Rnti) (process : HarqProcess) : List Record → Prop
  | [] => True
  | .configuredUe other :: older => other = rnti ∨ Available rnti process older
  | .triggered before dlInfoList elements :: older =>
      (∀ element ∈ elements, element.isNew = true → element.rnti = rnti →
        element.dci.harqProcess ≠ process.val) ∧
      (Released before (before.dlInfoListBuffered ++ dlInfoList) rnti process ∨
        Available rnti process older)

/-- All elements in the order of their sending. -/
def sentBy : List Record → List BuildDataListElement
  | [] => []
  | .configuredUe _ :: older => sentBy older
  | .triggered _ _ elements :: older => sentBy older ++ elements

/-! ## The conditions -/

/-- The buffered PDUs of a process are gone before its timer frees it. -/
def ClearedInTime (before : RrFfMacScheduler) : Prop :=
  ∀ rnti ue, before.ues rnti = some ue → ∀ process, ue.processesTimer process = harqDlTimeout →
    ∀ layer, ue.processesRlcPduList layer process = []

/--
Feedback without a NACK is an ACK, and a NACK leaves out only layers that were not
retransmitted yet.
-/
def FeedbackClear (subframe : Subframe) (info : DlInfoListElement) : Prop :=
  info.rnti ∈ subframe.rntiAllocated ∨
    (HarqStatus.nack ∉ info.harqStatus.take 2 → info.Acknowledges) ∧
    (HarqStatus.nack ∈ info.harqStatus.take 2 →
      ∀ dci ∈ storedDci subframe.scheduler info, ∀ layer < info.harqStatus.length,
        info.harqStatus[layer]? ≠ some .nack → entryAt dci.rv layer = 0)

/-- What a trigger finds. -/
def TriggerClear (before : RrFfMacScheduler) (dlInfoList : List DlInfoListElement) : Prop :=
  ClearedInTime before ∧ ∀ rbgSize ∈ getRbgSize before.dlBandwidth,
    Fitting processFeedback FeedbackClear (openSubframe before rbgSize)
      (before.dlInfoListBuffered ++ dlInfoList)

/-! ## A retransmitted DCI -/

/-- A stored DCI of at most two layers, all of them new data when it was sent. -/
structure Shaped (process : HarqProcess) (dci : DlDciListElement) : Prop where
  own : dci.harqProcess = process.val
  fresh : ∀ value ∈ dci.ndi, value = 1
  layers : dci.ndi.length ≤ 2
  versions : ∀ layer, dci.ndi.length ≤ layer → entryAt dci.rv layer = 0

theorem entryAt_set {values : List Nat} {index value : Nat} (hindex : index < values.length)
    (layer : Nat) :
    entryAt (values.set index value) layer =
      if layer = index then value else entryAt values layer := by
  rw [entryAt, entryAt, List.getElem?_set]
  by_cases same : layer = index
  · rw [if_pos same.symm, if_pos hindex, if_pos same, Option.getD_some]
  · rw [if_neg (Ne.symm same), if_neg same]

theorem entryAt_append_zero (values : List Nat) (layer : Nat) :
    entryAt (values ++ [0]) layer = entryAt values layer := by
  rw [entryAt, entryAt]
  by_cases hlayer : layer < values.length
  · rw [List.getElem?_append_left hlayer]
  · have hge : values.length ≤ layer := Nat.le_of_not_lt hlayer
    rw [List.getElem?_append_right hge, List.getElem?_eq_none hge]
    cases hplace : layer - values.length with
    | zero => rfl
    | succ more => rfl

/-- What the loop over the layers has done below `layer`. -/
structure Relayered (retx : List Bool) (stored : DlDciListElement) (layer : Nat)
    (dci : DlDciListElement) : Prop where
  own : dci.harqProcess = stored.harqProcess
  reached : layer ≤ dci.ndi.length
  below : ∀ other < layer, dci.ndi[other]? = some 0
  above : ∀ other, layer ≤ other → dci.ndi[other]? = stored.ndi[other]?
  versions : ∀ other, entryAt dci.rv other =
    if other < layer ∧ other < stored.ndi.length then
      if retx[other]? = some true then entryAt stored.rv other + 1 else 0
    else entryAt stored.rv other

theorem setAt_eq_some {values changed : List Nat} {index value : Nat}
    (hset : setAt values index value = some changed) :
    index < values.length ∧ changed = values.set index value := by
  rw [setAt] at hset
  split at hset
  · next hindex => exact ⟨hindex, (Option.some.inj hset).symm⟩
  · cases hset

theorem above_set {values stored : List Nat} {layer : Nat}
    (habove : ∀ other, layer ≤ other → values[other]? = stored[other]?) (value : Nat) :
    ∀ other, layer + 1 ≤ other → (values.set layer value)[other]? = stored[other]? := by
  intro other hother
  rw [List.getElem?_set_ne (by omega)]
  exact habove other (by omega)

/-- The versions behind a layer whose entry was stored. -/
theorem Relayered.versions_set {retx : List Bool} {stored dci : DlDciListElement} {layer : Nat}
    (held : Relayered retx stored layer dci) (hlayer : layer < dci.rv.length)
    (hstored : layer < stored.ndi.length) {value : Nat}
    (hvalue : value = if retx[layer]? = some true then entryAt stored.rv layer + 1 else 0) :
    ∀ other, entryAt (dci.rv.set layer value) other =
      if other < layer + 1 ∧ other < stored.ndi.length then
        if retx[other]? = some true then entryAt stored.rv other + 1 else 0
      else entryAt stored.rv other := by
  intro other
  rw [entryAt_set hlayer, held.versions]
  by_cases same : other = layer
  · subst same
    rw [if_pos rfl, hvalue,
      if_pos (show other < other + 1 ∧ other < stored.ndi.length from ⟨Nat.lt_succ_self _, hstored⟩)]
  · rw [if_neg same]
    by_cases hless : other < layer ∧ other < stored.ndi.length
    · have hmore : other < layer + 1 ∧ other < stored.ndi.length :=
        ⟨Nat.lt_succ_of_lt hless.1, hless.2⟩
      rw [if_pos hless, if_pos hmore]
    · have hnot : ¬ (other < layer + 1 ∧ other < stored.ndi.length) := by omega
      rw [if_neg hless, if_neg hnot]

theorem Relayered.layer {retx : List Bool} {stored dci next : DlDciListElement} {layer : Nat}
    {again : Bool} (held : Relayered retx stored layer dci) (hagain : retx[layer]? = some again)
    (hnext : retxLayer dci layer again = some next) :
    Relayered retx stored (layer + 1) next := by
  have hhere := held.above layer (Nat.le_refl _)
  cases again with
  | false =>
      simp only [retxLayer, Bool.false_eq_true, if_false, Option.bind_eq_bind,
        Option.bind_eq_some_iff] at hnext
      obtain ⟨ndi, hndi, rv, hrv, mcs, hmcs, tbsSize, htbs, hdci⟩ := hnext
      obtain ⟨hlayer, rfl⟩ := setAt_eq_some hndi
      obtain ⟨hversion, rfl⟩ := setAt_eq_some hrv
      obtain rfl := Option.some.inj hdci
      have hstored : layer < stored.ndi.length := by
        rw [List.getElem?_eq_getElem hlayer] at hhere
        exact (List.getElem?_eq_some_iff.mp hhere.symm).1
      refine ⟨held.own, ?_, zeros_set hlayer held.below, above_set held.above 0,
        held.versions_set hversion hstored ?_⟩
      · rw [List.length_set]
        exact hlayer
      · rw [hagain, if_neg (by decide)]
  | true =>
      by_cases hlayer : dci.ndi.length ≤ layer
      · simp only [retxLayer, if_true, if_pos hlayer] at hnext
        obtain rfl := Option.some.inj hnext
        have hsame : layer = dci.ndi.length := Nat.le_antisymm held.reached hlayer
        have hstored : stored.ndi.length ≤ layer := by
          rw [List.getElem?_eq_none hlayer] at hhere
          exact List.getElem?_eq_none_iff.mp hhere.symm
        refine ⟨held.own, ?_, fun other hother => ?_, fun other hother => ?_, fun other => ?_⟩
        · rw [List.length_append, List.length_singleton]
          omega
        · rcases Nat.lt_succ_iff_lt_or_eq.mp hother with hless | rfl
          · rw [List.getElem?_append_left (hsame ▸ hless)]
            exact held.below other hless
          · rw [hsame]
            exact List.getElem?_concat_length
        · rw [List.getElem?_eq_none (by rw [List.length_append, List.length_singleton]; omega),
            List.getElem?_eq_none (by omega)]
        · rw [entryAt_append_zero, held.versions]
          by_cases hless : other < layer ∧ other < stored.ndi.length
          · have hmore : other < layer + 1 ∧ other < stored.ndi.length :=
              ⟨Nat.lt_succ_of_lt hless.1, hless.2⟩
            rw [if_pos hless, if_pos hmore]
          · have hnot : ¬ (other < layer + 1 ∧ other < stored.ndi.length) := by omega
            rw [if_neg hless, if_neg hnot]
      · simp only [retxLayer, if_true, if_neg hlayer, Option.bind_eq_bind,
          Option.bind_eq_some_iff] at hnext
        obtain ⟨version, hversion, ndi, hndi, rv, hrv, hdci⟩ := hnext
        obtain ⟨hlt, rfl⟩ := setAt_eq_some hndi
        obtain ⟨hplace, rfl⟩ := setAt_eq_some hrv
        obtain rfl := Option.some.inj hdci
        have hstored : layer < stored.ndi.length := by
          rw [List.getElem?_eq_getElem hlt] at hhere
          exact (List.getElem?_eq_some_iff.mp hhere.symm).1
        refine ⟨held.own, ?_, zeros_set hlt held.below, above_set held.above 0,
          held.versions_set hplace hstored ?_⟩
        · rw [List.length_set]
          exact hlt
        · have hentry : entryAt dci.rv layer = version := by rw [entryAt, hversion]; rfl
          rw [held.versions, if_neg fun h => Nat.lt_irrefl _ h.1] at hentry
          rw [hagain, if_pos rfl, hentry]

theorem Relayered.layers {retx : List Bool} {stored dci next : DlDciListElement}
    {left layer : Nat} (held : Relayered retx stored layer dci)
    (hnext : retxLayers retx left layer dci = some next) :
    Relayered retx stored (layer + left) next := by
  induction left generalizing layer dci with
  | zero => exact Option.some.inj hnext ▸ held
  | succ left ih =>
      simp only [retxLayers, Option.bind_eq_bind, Option.bind_eq_some_iff] at hnext
      obtain ⟨again, hagain, middle, hmiddle, hlast⟩ := hnext
      have hshift : layer + 1 + left = layer + (left + 1) := by omega
      exact hshift ▸ ih (held.layer hagain hmiddle) hlast

/-- The layers that a retransmission repeats. -/
theorem Relayered.repeats_iff {retx : List Bool} {stored dci : DlDciListElement} {nLayers : Nat}
    (held : Relayered retx stored nLayers dci) {process : HarqProcess}
    (shaped : Shaped process stored) {rnti : Rnti} {pdus : List (List RlcPduListElement)}
    (layer : Nat) : (BuildDataListElement.mk rnti dci pdus).repeats layer = true ↔
      layer < nLayers ∧ layer < stored.ndi.length ∧ retx[layer]? = some true := by
  rw [BuildDataListElement.repeats, Bool.and_eq_true, decide_eq_true_eq, decide_eq_true_eq,
    held.versions]
  by_cases hlayer : layer < nLayers
  · rw [held.below layer hlayer]
    by_cases hstored : layer < stored.ndi.length
    · rw [if_pos ⟨hlayer, hstored⟩]
      by_cases hagain : retx[layer]? = some true
      · simp [hlayer, hstored, hagain]
      · simp [hagain]
    · rw [if_neg fun h => hstored h.2, shaped.versions layer (Nat.le_of_not_lt hstored)]
      simp [hstored]
  · rw [held.above layer (Nat.le_of_not_lt hlayer)]
    refine iff_of_false (fun hboth => ?_) fun h => hlayer h.1
    have hone := shaped.fresh 0 (List.mem_of_getElem? hboth.1)
    cases hone

end DeepcV2x.Lte.RoundRobin
