import DeepcV2x.Lte.HarqBuffers

/-!
# Tracking the processes through a trigger

Each step of a trigger keeps what its UE holds: the refresh and the feedback free
processes whose PDUs are gone, a retransmission counts on the process it repeats,
and a new transmission fills the lists of a free process.
-/

namespace DeepcV2x.Lte.RoundRobin

open DeepcV2x.Foundation.Association
open DeepcV2x.Foundation.Loops
open DeepcV2x.Foundation.Runs

/-! ## One UE -/

/--
What one UE holds after some elements: its busy processes are described, its used
DCIs are whole, and its free processes hold no PDU and meet `free`.
-/
structure Tracked (sent : List BuildDataListElement) (free : HarqProcess → Prop) (rnti : Rnti)
    (ue : UeHarq) : Prop where
  described : ∀ process, ue.processesStatus process ≠ 0 → Describes sent rnti ue process
  shaped : ∀ process, (ue.processesDci process).rv ≠ [] →
    Shaped process (ue.processesDci process)
  cleared : ∀ process, ue.processesStatus process = 0 →
    ∀ layer, ue.processesRlcPduList layer process = []
  freed : ∀ process, ue.processesStatus process = 0 → free process

section OneUe

variable {sent : List BuildDataListElement} {free : HarqProcess → Prop} {rnti : Rnti}
  {ue : UeHarq}

theorem fresh_tracked (sent : List BuildDataListElement) {free : HarqProcess → Prop}
    (hfree : ∀ process, free process) (rnti : Rnti) (mode : Nat) :
    Tracked sent free rnti (.fresh mode processZero) where
  described _ hbusy := absurd rfl hbusy
  shaped _ hused := absurd rfl hused
  cleared _ _ _ := rfl
  freed process _ := hfree process

theorem Tracked.mono (tracked : Tracked sent free rnti ue) {other : HarqProcess → Prop}
    (himp : ∀ process, free process → other process) : Tracked sent other rnti ue :=
  { tracked with freed := fun process hidle => himp process (tracked.freed process hidle) }

/-- Elements of other UEs change nothing. -/
theorem Tracked.other (tracked : Tracked sent free rnti ue) {element : BuildDataListElement}
    (hother : element.rnti ≠ rnti) : Tracked (sent ++ [element]) free rnti ue :=
  { tracked with
    described := fun process hbusy =>
      (tracked.described process hbusy).other fun hsame => hother hsame.1 }

/-- The timeouts free processes whose PDUs are gone. -/
theorem Tracked.refresh (tracked : Tracked sent free rnti ue)
    (hclear : ∀ process, ue.processesTimer process = harqDlTimeout →
      ∀ layer, ue.processesRlcPduList layer process = []) :
    Tracked sent (fun process => ue.processesTimer process = harqDlTimeout ∨ free process) rnti
      ue.refresh := by
  have hstatus : ∀ process, ue.refresh.processesStatus process = 0 →
      ue.processesTimer process = harqDlTimeout ∨ ue.processesStatus process = 0 := by
    intro process hidle
    simp only [UeHarq.refresh] at hidle
    split at hidle
    · next htimeout => exact .inl htimeout
    · exact .inr hidle
  constructor
  · intro process hbusy
    have hrunning : ue.processesStatus process ≠ 0 := by
      intro hidle
      simp only [UeHarq.refresh, hidle, ite_self] at hbusy
      exact hbusy rfl
    exact (tracked.described process hrunning).congr rfl fun _ => rfl
  · exact tracked.shaped
  · intro process hidle
    rcases hstatus process hidle with htimeout | hfree
    · exact hclear process htimeout
    · exact tracked.cleared process hfree
  · intro process hidle
    exact (hstatus process hidle).imp id (tracked.freed process)

/-- An acknowledged or dropped process. -/
theorem Tracked.freeProcess (tracked : Tracked sent free rnti ue) {process : HarqProcess}
    (hfree : free process) : Tracked sent free rnti (ue.freeProcess process) := by
  constructor
  · intro other hbusy
    have hne : other ≠ process := by
      rintro rfl
      simp only [UeHarq.freeProcess, if_true] at hbusy
      exact hbusy rfl
    simp only [UeHarq.freeProcess, if_neg hne] at hbusy
    refine (tracked.described other hbusy).congr rfl fun layer => ?_
    simp only [UeHarq.freeProcess, if_neg hne]
  · exact tracked.shaped
  · intro other hidle layer
    by_cases same : other = process
    · simp only [UeHarq.freeProcess, if_pos same]
    · simp only [UeHarq.freeProcess, if_neg same] at hidle ⊢
      exact tracked.cleared other hidle layer
  · intro other hidle
    by_cases same : other = process
    · exact same ▸ hfree
    · simp only [UeHarq.freeProcess, if_neg same] at hidle
      exact tracked.freed other hidle

end OneUe

/-! ## One retransmission -/

/-- The versions below the limit leave room for one more. -/
theorem entryAt_le_two {rv : List Nat} (hbelow : rvOf rv ≠ some 3)
    (hlimit : ∀ layer, entryAt rv layer ≤ 3) {layer : Nat} (hlayer : layer < 2) :
    entryAt rv layer ≤ 2 := by
  obtain rfl | rfl : layer = 0 ∨ layer = 1 := by omega
  · cases rv with
    | nil => exact Nat.zero_le _
    | cons first rest =>
        have hle : first ≤ 3 := hlimit 0
        change first ≤ 2
        cases rest with
        | nil =>
            have hne : first ≠ 3 := fun hthree => hbelow (congrArg some hthree)
            omega
        | cons second rest =>
            have htwo : second ≤ 3 := hlimit 1
            rw [rvOf, Ne, Option.some.injEq] at hbelow
            split at hbelow <;> omega
  · cases rv with
    | nil => exact Nat.zero_le _
    | cons first rest =>
        cases rest with
        | nil => exact Nat.zero_le _
        | cons second rest =>
            have hone : first ≤ 3 := hlimit 0
            have htwo : second ≤ 3 := hlimit 1
            change second ≤ 2
            rw [rvOf, Ne, Option.some.injEq] at hbelow
            split at hbelow <;> omega

/-- What a retransmission does to the buffers of its process. -/
theorem Describes.repeated {sent : List BuildDataListElement} {rnti : Rnti} {ue : UeHarq}
    {process : HarqProcess} (describes : Describes sent rnti ue process)
    (shaped : Shaped process (ue.processesDci process)) {retx : List Bool} {nLayers : Nat}
    {dci : DlDciListElement} {bitmap : Nat}
    (held : Relayered retx { ue.processesDci process with rbBitmap := bitmap } nLayers dci)
    (hpositive : 0 < nLayers) (hbelow : rvOf (ue.processesDci process).rv ≠ some 3)
    (hleft : ∀ layer < nLayers, retx[layer]? ≠ some true →
      entryAt (ue.processesDci process).rv layer = 0)
    (pdus : List (List RlcPduListElement)) :
    Describes (sent ++ [⟨rnti, dci, pdus⟩]) rnti (ue.retransmitted process dci.rv) process := by
  obtain ⟨new, again, hlast, hlists, hfits, hversions⟩ := describes
  have hold : (BuildDataListElement.mk rnti dci pdus).isNew = false := by
    rw [BuildDataListElement.isNew, List.head?_eq_getElem?, held.below 0 hpositive]
    rfl
  have hown : dci.harqProcess = process.val := held.own.trans shaped.own
  have hdci : (ue.retransmitted process dci.rv).processesDci process =
      { ue.processesDci process with rv := dci.rv } := by
    simp only [UeHarq.retransmitted, if_true]
  have shaped' : Shaped process { ue.processesDci process with rbBitmap := bitmap } :=
    ⟨shaped.own, shaped.fresh, shaped.layers, shaped.versions⟩
  refine ⟨new, again ++ [⟨rnti, dci, pdus⟩], ?_, hlists, ?_, fun layer => ?_⟩
  · rw [lastOn_snoc, noteOn, if_pos ⟨rfl, hown⟩, hlast, hold]
    rfl
  · rw [hdci]
    exact hfits
  · have hcount := (hversions layer).1
    have hrepeats := @Relayered.repeats_iff _ _ _ _ held _ shaped' rnti pdus layer
    rw [hdci]
    dsimp only
    rw [held.versions layer, List.countP_append, List.countP_singleton, ← hcount]
    by_cases hinside : layer < nLayers ∧ layer < (ue.processesDci process).ndi.length
    · rw [if_pos hinside]
      by_cases hagain : retx[layer]? = some true
      · have hroom := entryAt_le_two hbelow (fun other => (hversions other).2)
          (lt_of_lt_of_le hinside.2 shaped.layers)
        rw [if_pos hagain, if_pos (hrepeats.mpr ⟨hinside.1, hinside.2, hagain⟩)]
        exact ⟨rfl, Nat.succ_le_succ hroom⟩
      · rw [if_neg hagain, if_neg fun h => hagain (hrepeats.mp h).2.2,
          hleft layer hinside.1 hagain]
        exact ⟨rfl, Nat.zero_le _⟩
    · rw [if_neg hinside, if_neg fun h => hinside ⟨(hrepeats.mp h).1, (hrepeats.mp h).2.1⟩]
      exact ⟨rfl, (hversions layer).2⟩

theorem Tracked.retransmitted {sent : List BuildDataListElement} {free : HarqProcess → Prop}
    {rnti : Rnti} {ue : UeHarq} (tracked : Tracked sent free rnti ue) {process : HarqProcess}
    (hused : (ue.processesDci process).rv ≠ []) {retx : List Bool} {nLayers : Nat}
    {dci : DlDciListElement} {bitmap : Nat}
    (held : Relayered retx { ue.processesDci process with rbBitmap := bitmap } nLayers dci)
    (hpositive : 0 < nLayers) (hbelow : rvOf (ue.processesDci process).rv ≠ some 3)
    (hleft : ∀ layer < nLayers, retx[layer]? ≠ some true →
      entryAt (ue.processesDci process).rv layer = 0)
    (pdus : List (List RlcPduListElement)) :
    Tracked (sent ++ [⟨rnti, dci, pdus⟩]) free rnti (ue.retransmitted process dci.rv) := by
  have shaped := tracked.shaped process hused
  constructor
  · intro other hbusy
    by_cases same : other = process
    · subst same
      exact (tracked.described other hbusy).repeated shaped held hpositive hbelow hleft pdus
    · have hdiffers : ¬ (rnti = rnti ∧ dci.harqProcess = other.val) := by
        rintro ⟨-, hother⟩
        exact same (Fin.ext (hother.symm.trans (held.own.trans shaped.own)))
      have hothers : Describes (sent ++ [⟨rnti, dci, pdus⟩]) rnti ue other :=
        (tracked.described other hbusy).other hdiffers
      refine hothers.congr ?_ fun _ => rfl
      simp only [UeHarq.retransmitted, if_neg same]
  · intro other hother
    by_cases same : other = process
    · subst same
      simp only [UeHarq.retransmitted, if_true]
      refine ⟨shaped.own, shaped.fresh, shaped.layers, fun layer hlayer => ?_⟩
      have houtside : ¬ (layer < nLayers ∧ layer < (ue.processesDci other).ndi.length) :=
        fun hboth => Nat.not_lt.mpr hlayer hboth.2
      exact (held.versions layer).trans ((if_neg houtside).trans (shaped.versions layer hlayer))
    · simp only [UeHarq.retransmitted, if_neg same] at hother ⊢
      exact tracked.shaped other hother
  · exact tracked.cleared
  · exact tracked.freed

/-! ## One new transmission -/

/-- A new transmission fills the lists of a free process. -/
theorem Tracked.transmitted {sent : List BuildDataListElement} {free : HarqProcess → Prop}
    {rnti : Rnti} {ue claimed : UeHarq} (tracked : Tracked sent free rnti ue)
    {process : HarqProcess} (hclaimed : updateHarqProcessId ue = some (process, claimed))
    {element : BuildDataListElement} (hrnti : element.rnti = rnti)
    (hnew : element.isNew = true) (hfits : element.Fits) (hshaped : Shaped process element.dci)
    (hversions : ∀ layer, entryAt element.dci.rv layer = 0) :
    Tracked (sent ++ [element]) free rnti
        (claimed.transmitted process element.dci element.rlcPduList) ∧
      (claimed.transmitted process element.dci element.rlcPduList).processesStatus process ≠ 0 ∧
      free process := by
  rw [updateHarqProcessId] at hclaimed
  split at hclaimed
  · next hidle =>
      obtain ⟨rfl, rfl⟩ := Prod.ext_iff.mp (Option.some.inj hclaimed)
      dsimp only at hshaped ⊢
      have hempty := tracked.cleared ue.searched hidle
      refine ⟨⟨fun other hbusy => ?_, fun other hused => ?_, fun other hfree layer => ?_,
        fun other hfree => ?_⟩, ?_, tracked.freed ue.searched hidle⟩
      · by_cases same : other = ue.searched
        · subst same
          have hlists : ∀ layer, ue.processesRlcPduList layer ue.searched ++
              element.layerPdus layer = element.layerPdus layer := fun layer => by
            rw [hempty layer, List.nil_append]
          refine ⟨element, [], ?_, fun layer => ?_, fun layer size hsize => ?_, fun layer => ?_⟩
          · rw [lastOn_snoc, noteOn, if_pos ⟨hrnti, hshaped.own⟩, if_pos hnew]
          · simp only [UeHarq.transmitted, if_true]
            exact hlists layer
          · simp only [UeHarq.transmitted, if_true] at hsize ⊢
            have hsum := hfits layer size hsize
            rw [BuildDataListElement.layerBytes] at hsum
            have hlayer := hlists layer
            rw [BuildDataListElement.layerPdus] at hlayer
            rw [hlayer]
            exact hsum
          · simp only [UeHarq.transmitted, if_true]
            rw [hversions layer]
            exact ⟨rfl, Nat.zero_le _⟩
        · simp only [UeHarq.transmitted, if_neg same] at hbusy
          have hdiffers : ¬ (element.rnti = rnti ∧ element.dci.harqProcess = other.val) := by
            rintro ⟨-, hother⟩
            exact same (Fin.ext (hother.symm.trans hshaped.own))
          refine ((tracked.described other hbusy).other hdiffers).congr ?_ fun layer => ?_
          · simp only [UeHarq.transmitted, if_neg same]
          · simp only [UeHarq.transmitted, if_neg same, List.append_nil]
      · by_cases same : other = ue.searched
        · subst same
          simp only [UeHarq.transmitted, if_true]
          exact hshaped
        · simp only [UeHarq.transmitted, if_neg same] at hused ⊢
          exact tracked.shaped other hused
      · by_cases same : other = ue.searched
        · simp only [UeHarq.transmitted, if_pos same] at hfree
          cases hfree
        · simp only [UeHarq.transmitted, if_neg same, List.append_nil] at hfree ⊢
          exact tracked.cleared other hfree layer
      · by_cases same : other = ue.searched
        · simp only [UeHarq.transmitted, if_pos same] at hfree
          cases hfree
        · simp only [UeHarq.transmitted, if_neg same] at hfree
          exact tracked.freed other hfree
      · simp only [UeHarq.transmitted, if_true]
        exact Nat.one_ne_zero
  · cases hclaimed

end DeepcV2x.Lte.RoundRobin
