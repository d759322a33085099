import DeepcV2x.Lte.Feedback
import DeepcV2x.Lte.UplinkRobin

/-!
# The resource blocks of an uplink trigger

The flags of the RBs and the map of their owners agree during a trigger: RBs are
taken only while they are free, so the DCIs share none with each other or with
the grants of random access.
-/

namespace DeepcV2x.Lte.Uplink

open DeepcV2x.Foundation.Loops
open DeepcV2x.Foundation.Marks
open DeepcV2x.Foundation.Runs
open DeepcV2x.Lte.RoundRobin (Rnti HarqProcess harqProcNum nextProcess put put_same put_other
  allFree allFree_eq_true exists_allFree exists_flag)

variable {Sinr : Type}

/-! ## Windows and owners -/

@[simp]
theorem mem_window {rb rbStart rbLen : Nat} :
    rb ∈ window rbStart rbLen ↔ rbStart ≤ rb ∧ rb < rbStart + rbLen :=
  List.mem_range'_1

theorem window_nodup (rbStart rbLen : Nat) : (window rbStart rbLen).Nodup :=
  List.nodup_range'

@[simp]
theorem assign_length (allocation : List Rnti) (rbs : List Nat) (rnti : Rnti) :
    (assign allocation rbs rnti).length = allocation.length := by
  induction rbs generalizing allocation with
  | nil => rfl
  | cons rb rest ih => exact (ih (allocation.set rb rnti)).trans List.length_set

theorem getElem?_assign (allocation : List Rnti) (rbs : List Nat) (rnti : Rnti) (rb : Nat) :
    (assign allocation rbs rnti)[rb]? =
      if rb ∈ rbs ∧ rb < allocation.length then some rnti else allocation[rb]? := by
  induction rbs generalizing allocation with
  | nil => simp [assign]
  | cons first rest ih =>
      have hrest := ih (allocation.set first rnti)
      rw [List.length_set] at hrest
      refine hrest.trans ?_
      by_cases later : rb ∈ rest ∧ rb < allocation.length
      · rw [if_pos later, if_pos ⟨List.mem_cons_of_mem _ later.1, later.2⟩]
      · rw [if_neg later, List.getElem?_set]
        by_cases same : first = rb
        · subst same
          by_cases inside : first < allocation.length
          · simp [inside]
          · simp [inside]
        · have hne : rb ≠ first := fun h => same h.symm
          have hnot : ¬ (rb ∈ first :: rest ∧ rb < allocation.length) := by
            rintro ⟨hmem, inside⟩
            exact later ⟨(List.mem_cons.mp hmem).resolve_left hne, inside⟩
          rw [if_neg same, if_neg hnot]

theorem assign_of_mem {allocation : List Rnti} {rbs : List Nat} {rb : Nat} (hmem : rb ∈ rbs)
    (hinside : rb < allocation.length) (rnti : Rnti) :
    (assign allocation rbs rnti)[rb]? = some rnti := by
  rw [getElem?_assign, if_pos ⟨hmem, hinside⟩]

theorem assign_of_not_mem {rbs : List Nat} {rb : Nat} (hmem : rb ∉ rbs) (allocation : List Rnti)
    (rnti : Rnti) : (assign allocation rbs rnti)[rb]? = allocation[rb]? := by
  rw [getElem?_assign, if_neg fun h => hmem h.1]

/-! ## Stored blocks -/

/-- A block of a UE inside the band. -/
structure UlDciListElement.Placed (bandwidth : Nat) (rnti : Rnti) (dci : UlDciListElement) :
    Prop where
  rnti_eq : dci.rnti = rnti
  nonempty : 0 < dci.rbLen
  inBand : dci.rbStart + dci.rbLen ≤ bandwidth

theorem UlDciListElement.Placed.lt {bandwidth rb : Nat} {rnti : Rnti} {dci : UlDciListElement}
    (placed : dci.Placed bandwidth rnti) (hmem : rb ∈ dci.rbs) : rb < bandwidth :=
  Nat.lt_of_lt_of_le (mem_window.mp hmem).2 placed.inBand

theorem UlDciListElement.Placed.start_mem {bandwidth : Nat} {rnti : Rnti}
    {dci : UlDciListElement} (placed : dci.Placed bandwidth rnti) : dci.rbStart ∈ dci.rbs :=
  mem_window.mpr ⟨Nat.le_refl _, Nat.lt_add_of_pos_right placed.nonempty⟩

/-- A process of a UE holds a block. -/
def Holds (bandwidth : Nat) (ues : Rnti → Option UlHarq) (rnti : Rnti)
    (process : UlHarq → HarqProcess) : Prop :=
  ∃ ue, ues rnti = some ue ∧ (ue.processesDci (process ue)).Placed bandwidth rnti

/-- The UEs stay at their processes and get nothing but blocks inside the band. -/
def Keeps (bandwidth : Nat) (before after : Rnti → Option UlHarq) : Prop :=
  ∀ rnti ue, before rnti = some ue → ∃ kept, after rnti = some kept ∧
    kept.currentProcessId = ue.currentProcessId ∧
    ∀ process, kept.processesDci process = ue.processesDci process ∨
      (kept.processesDci process).Placed bandwidth rnti

theorem Keeps.refl (bandwidth : Nat) (ues : Rnti → Option UlHarq) : Keeps bandwidth ues ues :=
  fun _ ue hue => ⟨ue, hue, rfl, fun _ => .inl rfl⟩

theorem Keeps.trans {bandwidth : Nat} {first middle last : Rnti → Option UlHarq}
    (left : Keeps bandwidth first middle) (right : Keeps bandwidth middle last) :
    Keeps bandwidth first last := by
  intro rnti ue hue
  obtain ⟨kept, hkept, hsame, hstored⟩ := left rnti ue hue
  obtain ⟨again, hagain, hcurrent, hlater⟩ := right rnti kept hkept
  refine ⟨again, hagain, hcurrent.trans hsame, fun process => ?_⟩
  rcases hlater process with heq | hplaced
  · rw [heq]
    exact hstored process
  · exact .inr hplaced

theorem Keeps.isSome {bandwidth : Nat} {before after : Rnti → Option UlHarq} {rnti : Rnti}
    (keeps : Keeps bandwidth before after) (hue : (before rnti).isSome) :
    (after rnti).isSome := by
  obtain ⟨ue, hue⟩ := Option.isSome_iff_exists.mp hue
  obtain ⟨kept, hkept, -⟩ := keeps rnti ue hue
  exact Option.isSome_iff_exists.mpr ⟨kept, hkept⟩

/-- A held block stays, or another one takes its place. -/
theorem Holds.keeps {bandwidth : Nat} {before after : Rnti → Option UlHarq} {rnti : Rnti}
    {process : UlHarq → HarqProcess} (holds : Holds bandwidth before rnti process)
    (keeps : Keeps bandwidth before after)
    (hprocess : ∀ ue other : UlHarq, ue.currentProcessId = other.currentProcessId →
      process ue = process other) : Holds bandwidth after rnti process := by
  obtain ⟨ue, hue, hplaced⟩ := holds
  obtain ⟨kept, hkept, hsame, hstored⟩ := keeps rnti ue hue
  refine ⟨kept, hkept, ?_⟩
  rw [hprocess kept ue hsame]
  rcases hstored (process ue) with heq | hnew
  · exact heq ▸ hplaced
  · exact hnew

def current (ue : UlHarq) : HarqProcess := ue.currentProcessId

theorem pastProcess_congr (ue other : UlHarq)
    (hsame : ue.currentProcessId = other.currentProcessId) :
    ue.pastProcess = other.pastProcess :=
  Fin.ext (by simp only [UlHarq.pastProcess, hsame])

theorem pastProcess_ne (ue : UlHarq) : ue.pastProcess ≠ ue.currentProcessId := by
  intro hsame
  have hval := congrArg Fin.val hsame
  have hlt := ue.currentProcessId.isLt
  simp only [UlHarq.pastProcess, harqPeriod, harqProcNum] at hval hlt
  omega

@[simp]
theorem store_currentProcessId (ue : UlHarq) (process : HarqProcess) (dci : UlDciListElement) :
    (ue.store process dci).currentProcessId = ue.currentProcessId := rfl

@[simp]
theorem store_processesDci_same (ue : UlHarq) (process : HarqProcess) (dci : UlDciListElement) :
    (ue.store process dci).processesDci process = dci := if_pos rfl

theorem store_processesDci_other (ue : UlHarq) {process other : HarqProcess}
    (hne : other ≠ process) (dci : UlDciListElement) :
    (ue.store process dci).processesDci other = ue.processesDci other := if_neg hne

@[simp]
theorem retransmitted_currentProcessId (ue : UlHarq) (process : HarqProcess)
    (dci : UlDciListElement) :
    (ue.retransmitted process dci).currentProcessId = ue.currentProcessId := rfl

@[simp]
theorem retransmitted_processesDci (ue : UlHarq) (process : HarqProcess)
    (dci : UlDciListElement) :
    (ue.retransmitted process dci).processesDci =
      (ue.store ue.currentProcessId dci).processesDci := rfl

@[simp]
theorem transmitted_currentProcessId (ue : UlHarq) (dci : UlDciListElement) :
    (ue.transmitted dci).currentProcessId = ue.currentProcessId := rfl

@[simp]
theorem transmitted_processesDci (ue : UlHarq) (dci : UlDciListElement) :
    (ue.transmitted dci).processesDci = (ue.store ue.currentProcessId dci).processesDci := rfl

/-- One UE that got a block at its current process. -/
theorem keeps_put {bandwidth : Nat} {ues : Rnti → Option UlHarq} {rnti : Rnti}
    {ue stored : UlHarq} {dci : UlDciListElement} (hue : ues rnti = some ue)
    (hcurrent : stored.currentProcessId = ue.currentProcessId)
    (hstored : stored.processesDci = (ue.store ue.currentProcessId dci).processesDci)
    (placed : dci.Placed bandwidth rnti) :
    Keeps bandwidth ues (put ues rnti (some stored)) := by
  intro other found hfound
  by_cases same : other = rnti
  · subst same
    obtain rfl : ue = found := Option.some.inj (hue.symm.trans hfound)
    refine ⟨stored, put_same _ _ _, hcurrent, fun process => ?_⟩
    by_cases here : process = ue.currentProcessId
    · subst here
      rw [hstored, store_processesDci_same]
      exact .inr placed
    · rw [hstored, store_processesDci_other ue here]
      exact .inl rfl
  · exact ⟨found, (put_other same _).trans hfound, rfl, fun _ => .inl rfl⟩

theorem holds_put {bandwidth : Nat} {ues : Rnti → Option UlHarq} {rnti : Rnti}
    {ue stored : UlHarq} {dci : UlDciListElement}
    (hcurrent : stored.currentProcessId = ue.currentProcessId)
    (hstored : stored.processesDci = (ue.store ue.currentProcessId dci).processesDci)
    (placed : dci.Placed bandwidth rnti) :
    Holds bandwidth (put ues rnti (some stored)) rnti current := by
  refine ⟨stored, put_same _ _ _, ?_⟩
  rw [current, hcurrent, hstored, store_processesDci_same]
  exact placed

/-! ## The maps of a subframe -/

/-- The DCIs of a subframe against its maps and the map of random access. -/
structure Allocated (bandwidth : Nat) (rach : List Rnti) (subframe : UlSubframe) : Prop where
  rbMap_length : subframe.rbMap.length = bandwidth
  map_length : subframe.rbgAllocationMap.length = bandwidth
  reserved : ∀ rb rnti, rach[rb]? = some rnti → rnti ≠ 0 → rb < bandwidth →
    subframe.rbMap[rb]? = some true
  placed : ∀ dci ∈ subframe.dciList, dci.Placed bandwidth dci.rnti
  claims : Claims subframe.rbMap (subframe.dciList.map UlDciListElement.rbs)
  spared : ∀ dci ∈ subframe.dciList, ∀ rb ∈ dci.rbs, rach[rb]? = some 0
  owned : ∀ dci ∈ subframe.dciList, ∀ rb ∈ dci.rbs,
    subframe.rbgAllocationMap[rb]? = some dci.rnti
  others : ∀ rb, (∀ dci ∈ subframe.dciList, rb ∉ dci.rbs) →
    subframe.rbgAllocationMap[rb]? = rach[rb]?
  oneEach : (subframe.dciList.map UlDciListElement.rnti).Nodup

section Maps

variable {bandwidth : Nat} {rach : List Rnti} {subframe : UlSubframe} {rbs : List Nat}

/-- Free RBs are not those of random access. -/
theorem Allocated.rach_eq_zero (held : Allocated bandwidth rach subframe)
    (hrach : rach.length = bandwidth) (hfree : FreeAt subframe.rbMap rbs) {rb : Nat}
    (hmem : rb ∈ rbs) : rach[rb]? = some 0 := by
  have hlt : rb < bandwidth := held.rbMap_length ▸ hfree.lt_length hmem
  obtain ⟨rnti, hrnti⟩ : ∃ rnti, rach[rb]? = some rnti :=
    ⟨_, List.getElem?_eq_getElem (hrach.symm ▸ hlt)⟩
  rw [hrnti]
  refine congrArg some ?_
  by_contra hne
  have htaken := held.reserved rb rnti hrnti hne hlt
  rw [hfree.2 rb hmem] at htaken
  cases htaken

/-- Free RBs are not those of a DCI. -/
theorem Allocated.not_mem_rbs (held : Allocated bandwidth rach subframe)
    (hfree : FreeAt subframe.rbMap rbs) {dci : UlDciListElement}
    (hdci : dci ∈ subframe.dciList) {rb : Nat} (hmem : rb ∈ dci.rbs) : rb ∉ rbs := by
  intro hin
  have htaken := held.claims.taken _ (List.mem_map_of_mem hdci) rb hmem
  rw [hfree.2 rb hin] at htaken
  cases htaken

/-- A DCI on free RBs. -/
theorem Allocated.grant (held : Allocated bandwidth rach subframe)
    (hrach : rach.length = bandwidth) (hfree : FreeAt subframe.rbMap rbs) {rnti : Rnti}
    {dci : UlDciListElement} (hrbs : dci.rbs = rbs) (placed : dci.Placed bandwidth rnti)
    (hnew : rnti ∉ subframe.dciList.map UlDciListElement.rnti)
    {ues : Rnti → Option UlHarq} {rntiAllocated : List Rnti} :
    Allocated bandwidth rach
      { subframe.take rbs rnti with
        ues := ues
        rntiAllocated := rntiAllocated
        dciList := subframe.dciList ++ [dci] } := by
  obtain rfl := hrbs
  obtain rfl := placed.rnti_eq
  refine ⟨(mark_length _ _).trans held.rbMap_length, (assign_length _ _ _).trans held.map_length,
    fun rb rnti hrnti hne hlt => taken_mark (held.reserved rb rnti hrnti hne hlt),
    fun other hmem => ?_, ?_, fun other hmem rb hrb => ?_, fun other hmem rb hrb => ?_,
    fun rb hnone => ?_, ?_⟩
  · rcases List.mem_append.mp hmem with hold | hlast
    · exact held.placed other hold
    · exact List.mem_singleton.mp hlast ▸ placed
  · rw [List.map_append, List.map_singleton]
    exact held.claims.snoc hfree fun _ => Iff.rfl
  · rcases List.mem_append.mp hmem with hold | hlast
    · exact held.spared other hold rb hrb
    · obtain rfl := List.mem_singleton.mp hlast
      exact held.rach_eq_zero hrach hfree hrb
  · rcases List.mem_append.mp hmem with hold | hlast
    · exact (assign_of_not_mem (held.not_mem_rbs hfree hold hrb) _ _).trans
        (held.owned other hold rb hrb)
    · obtain rfl := List.mem_singleton.mp hlast
      exact assign_of_mem hrb (held.map_length.symm ▸ placed.lt hrb) _
  · refine (assign_of_not_mem (hnone dci (List.mem_append_right _ List.mem_cons_self)) _ _).trans ?_
    exact held.others rb fun other hmem => hnone other (List.mem_append_left _ hmem)
  · rw [List.map_append, List.map_singleton]
    exact List.nodup_append.mpr ⟨held.oneEach, List.nodup_singleton _,
      fun rnti hrnti other hother same =>
        hnew ((List.mem_singleton.mp hother) ▸ same ▸ hrnti)⟩

/-- Free RBs of a UE that is discarded stay taken and lose their owner. -/
theorem Allocated.discard (held : Allocated bandwidth rach subframe)
    (hrach : rach.length = bandwidth) (hfree : FreeAt subframe.rbMap rbs) (rnti : Rnti) :
    Allocated bandwidth rach
      { subframe.take rbs rnti with
        rbgAllocationMap := assign (subframe.take rbs rnti).rbgAllocationMap rbs 0 } where
  rbMap_length := (mark_length _ _).trans held.rbMap_length
  map_length := ((assign_length _ _ _).trans (assign_length _ _ _)).trans held.map_length
  reserved rb other hother hne hlt := taken_mark (held.reserved rb other hother hne hlt)
  placed := held.placed
  claims := ⟨held.claims.apart, fun places hmem rb hrb =>
    taken_mark (held.claims.taken places hmem rb hrb)⟩
  spared := held.spared
  owned dci hmem rb hrb := by
    have hnot := held.not_mem_rbs hfree hmem hrb
    exact (assign_of_not_mem hnot _ _).trans
      ((assign_of_not_mem hnot _ _).trans (held.owned dci hmem rb hrb))
  others rb hnone := by
    by_cases hmem : rb ∈ rbs
    · have hlt : rb < subframe.rbgAllocationMap.length :=
        held.map_length.trans held.rbMap_length.symm ▸ hfree.lt_length hmem
      refine (assign_of_mem hmem ?_ 0).trans (held.rach_eq_zero hrach hfree hmem).symm
      exact (assign_length _ _ _).symm ▸ hlt
    · exact (assign_of_not_mem hmem _ _).trans
        ((assign_of_not_mem hmem _ _).trans (held.others rb hnone))
  oneEach := held.oneEach

theorem freeAt_window {rbMap : List Bool} {rbStart rbLen : Nat}
    (hfree : allFree rbMap (window rbStart rbLen) = some true) :
    FreeAt rbMap (window rbStart rbLen) :=
  ⟨window_nodup _ _, allFree_eq_true.mp hfree⟩

end Maps

/-! ## The start of a trigger -/

theorem exists_mapM_range {Value : Type} {f : Nat → Option Value} {size : Nat}
    (hsome : ∀ index < size, (f index).isSome) :
    ∃ values, (List.range size).mapM f = some values ∧ values.length = size ∧
      ∀ index < size, values[index]? = f index := by
  induction size with
  | zero => exact ⟨[], rfl, rfl, fun _ hlt => absurd hlt (Nat.not_lt_zero _)⟩
  | succ size ih =>
      obtain ⟨values, hvalues, hlength, hat⟩ := ih fun index hlt => hsome index (by omega)
      obtain ⟨value, hvalue⟩ := Option.isSome_iff_exists.mp (hsome size (Nat.lt_succ_self _))
      refine ⟨values ++ [value], ?_, by simp [hlength], fun index hlt => ?_⟩
      · rw [List.range_succ, List.mapM_append, hvalues]
        simp [hvalue]
      · rcases Nat.lt_succ_iff_lt_or_eq.mp hlt with hless | rfl
        · rw [List.getElem?_append_left (hlength.symm ▸ hless)]
          exact hat index hless
        · rw [List.getElem?_append_right hlength.le, hlength, Nat.sub_self, hvalue]
          rfl

theorem openSubframe_allocated {scheduler : UlScheduler Sinr}
    (hlength : scheduler.rachAllocationMap.length = scheduler.ulBandwidth) :
    ∃ opened, openSubframe scheduler = some opened ∧ opened.ues = scheduler.ues ∧
      opened.rntiAllocated = [] ∧ opened.dciList = [] ∧
      Allocated scheduler.ulBandwidth scheduler.rachAllocationMap opened := by
  obtain ⟨rbMap, hmap, hsize, hat⟩ := @exists_mapM_range Bool
    (fun rb => (scheduler.rachAllocationMap[rb]?).map fun rnti => decide (rnti ≠ 0))
    scheduler.ulBandwidth (fun rb hlt => by
      rw [List.getElem?_eq_getElem (hlength.symm ▸ hlt)]
      rfl)
  refine ⟨_, by rw [openSubframe, hmap]; rfl, rfl, rfl, rfl, ?_⟩
  refine ⟨hsize, hlength, fun rb rnti hrnti hne hlt => ?_, ?_, Claims.nil _, ?_, ?_,
    fun _ _ => rfl, List.nodup_nil⟩
  · rw [hat rb hlt, hrnti]
    exact congrArg some (decide_eq_true hne)
  all_goals exact fun _ hmem => absurd hmem List.not_mem_nil

end DeepcV2x.Lte.Uplink
