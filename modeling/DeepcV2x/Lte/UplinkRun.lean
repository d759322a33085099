import DeepcV2x.Lte.UplinkTurns

/-!
# Runs of the uplink scheduler

Random access requests are granted one behind the other, and their RBs stay
reserved until the next uplink trigger.  A block that was granted is stored at the
process that its feedback names `harqPeriod` subframes later.  So every uplink
trigger of a run ends and its DCIs are disjoint.
-/

namespace DeepcV2x.Lte.Uplink

open DeepcV2x.Foundation.Loops
open DeepcV2x.Foundation.Marks
open DeepcV2x.Foundation.Runs
open DeepcV2x.Lte.RoundRobin (Rnti HarqProcess harqProcNum nextProcess processZero put put_same
  put_other)

variable {Sinr : Type}

/-! ## What was sent -/

/-- The random access grants since the last uplink trigger. -/
def rachGrants : List Sent → List BuildRarListElement
  | .downlink buildRarList :: older => rachGrants older ++ buildRarList
  | _ => []

/-- The downlink triggers since the last uplink trigger, one in a subframe. -/
def downlinkCalls : List Sent → Nat
  | .downlink _ :: older => downlinkCalls older + 1
  | _ => 0

/-- The RNTIs that got a grant a number of subframes ago. -/
def grantedBack : Nat → List Sent → List Rnti
  | _, [] => []
  | back, .uplink outcome :: older =>
      (if back = 0 then outcome.dciList.map UlDciListElement.rnti else []) ++
        grantedBack back older
  | 0, .downlink buildRarList :: _ => buildRarList.map BuildRarListElement.rnti
  | back + 1, .downlink _ :: older => grantedBack back older

/-! ## A consistent subframe -/

/-- A map that gives every RB to the RNTI it was granted to, and 0 to the others. -/
structure Exact (bandwidth : Nat) (allocation : List Rnti) (rars : List BuildRarListElement)
    (dcis : List UlDciListElement) : Prop where
  length_eq : allocation.length = bandwidth
  rach : ∀ rar ∈ rars, ∀ rb ∈ rar.grant.rbs, allocation[rb]? = some rar.rnti
  dci : ∀ dci ∈ dcis, ∀ rb ∈ dci.rbs, allocation[rb]? = some dci.rnti
  free : ∀ rb < bandwidth, (∀ rar ∈ rars, rb ∉ rar.grant.rbs) → (∀ dci ∈ dcis, rb ∉ dci.rbs) →
    allocation[rb]? = some 0

/-- What an uplink trigger hands out against the run before it; a new block has `ndi` 1. -/
structure Consistent (before : UlRun Sinr) (sfnSf : Nat) (after : UlScheduler Sinr)
    (outcome : UlOutcome) : Prop where
  inBand : ∀ dci ∈ outcome.dciList,
    0 < dci.rbLen ∧ dci.rbStart + dci.rbLen ≤ before.scheduler.ulBandwidth
  disjoint : outcome.dciList.Pairwise fun left right => List.Disjoint left.rbs right.rbs
  fromRach : ∀ dci ∈ outcome.dciList, ∀ rar ∈ rachGrants before.sent,
    List.Disjoint dci.rbs rar.grant.rbs
  threeRbs : ∀ dci ∈ outcome.dciList, dci.ndi = 1 → 3 ≤ dci.rbLen
  oneEach : (outcome.dciList.map UlDciListElement.rnti).Nodup
  stored : ∀ allocation ∈ outcome.allocationMap,
    after.allocationMaps sfnSf = some allocation ∧
      (downlinkCalls before.sent ≤ 1 →
        Exact before.scheduler.ulBandwidth allocation (rachGrants before.sent) outcome.dciList)
  unstored : outcome.allocationMap = none → outcome.dciList = []

/-! ## The conditions -/

/-- A request of a configured UE for some bits. -/
def RequestFits (ues : Rnti → Option UlHarq) (request : RachListElement) : Prop :=
  request.rnti ≠ 0 ∧ 0 < request.estimatedSize ∧ (ues request.rnti).isSome = true

/-- A BSR of a configured UE with its four groups. -/
def MacCeListElement.Fits (ues : Rnti → Option UlHarq) : MacCeListElement → Prop
  | .bsr rnti bufferStatus => 4 ≤ bufferStatus.length ∧ (ues rnti).isSome = true
  | .other _ => True

/--
What the MAC and the PHY promise; the feedback is for blocks that were granted
`period` subframes ago.
-/
def CallFits (period : Nat) (run : UlRun Sinr) : Call → Prop
  | .rachInfo rachList => ∀ request ∈ rachList, RequestFits run.scheduler.ues request
  | .macCtrlInfo macCeList => ∀ element ∈ macCeList, element.Fits run.scheduler.ues
  | .ulCqiInfo info => run.scheduler.ulBandwidth ≤ info.sinr.length
  | .ulTrigger _ ulInfoList => ∀ info ∈ ulInfoList, info.receptionStatus = .notOk →
      info.rnti ∈ grantedBack period run.sent
  | _ => True

instance (ues : Rnti → Option UlHarq) (request : RachListElement) :
    Decidable (RequestFits ues request) :=
  inferInstanceAs (Decidable (request.rnti ≠ 0 ∧ 0 < request.estimatedSize ∧
    (ues request.rnti).isSome = true))

instance (ues : Rnti → Option UlHarq) : ∀ element : MacCeListElement,
    Decidable (element.Fits ues)
  | .bsr rnti bufferStatus =>
      inferInstanceAs (Decidable (4 ≤ bufferStatus.length ∧ (ues rnti).isSome = true))
  | .other _ => .isTrue trivial

instance (period : Nat) (run : UlRun Sinr) : ∀ call, Decidable (CallFits period run call)
  | .configureUe _ => .isTrue trivial
  | .rachInfo rachList =>
      inferInstanceAs (Decidable (∀ request ∈ rachList, RequestFits run.scheduler.ues request))
  | .macCtrlInfo macCeList =>
      inferInstanceAs (Decidable (∀ element ∈ macCeList, element.Fits run.scheduler.ues))
  | .ulCqiInfo info =>
      inferInstanceAs (Decidable (run.scheduler.ulBandwidth ≤ info.sinr.length))
  | .dlTrigger => .isTrue trivial
  | .ulTrigger _ ulInfoList =>
      inferInstanceAs (Decidable (∀ info ∈ ulInfoList, info.receptionStatus = .notOk →
        info.rnti ∈ grantedBack period run.sent))

/-! ## Random access -/

section Rach

variable {radio : UlRadio Sinr} {scheduler : UlScheduler Sinr} {allocation : List Rnti}
  {before : Rnti → Option UlHarq} {rbStart : Nat} {rach : RachLoop}

/-- The search ends inside the band or without a block that fits. -/
theorem growGrant_fits {bandwidth mcs estimatedSize left rbLen tbSizeBits : Nat}
    (hfits : tbSizeBits < estimatedSize ∨ rbStart + rbLen ≤ bandwidth) :
    let grown := growGrant radio bandwidth mcs estimatedSize rbStart left rbLen tbSizeBits
    rbLen ≤ grown.1 ∧ (grown.2 < estimatedSize ∨ rbStart + grown.1 ≤ bandwidth) := by
  induction left generalizing rbLen tbSizeBits with
  | zero => exact ⟨Nat.le_refl _, hfits⟩
  | succ left ih =>
      rw [growGrant]
      split
      · rename_i hroom
        obtain ⟨hle, hend⟩ := @ih (rbLen + 1)
          (radio.getUlTbSizeFromMcs mcs (rbLen + 1) % 65536) (.inr (by omega))
        exact ⟨by omega, hend⟩
      · exact ⟨Nat.le_refl _, hfits⟩

/-- The requests that were granted end at an RB, and their maps agree. -/
structure RachHeld (scheduler : UlScheduler Sinr) (allocation : List Rnti)
    (before : Rnti → Option UlHarq) (rbStart : Nat) (rach : RachLoop) : Prop where
  map_length : rach.rachAllocationMap.length = scheduler.ulBandwidth
  keeps : Keeps scheduler.ulBandwidth before rach.ues
  stored : scheduler.harqOn = true → ∀ rar ∈ rach.buildRarList,
    Holds scheduler.ulBandwidth rach.ues rar.rnti current
  used : ∀ rar ∈ rach.buildRarList, ∀ rb ∈ rar.grant.rbs, rb < rbStart
  nonzero : ∀ rar ∈ rach.buildRarList, rar.rnti ≠ 0
  owned : ∀ rar ∈ rach.buildRarList, ∀ rb ∈ rar.grant.rbs,
    rach.rachAllocationMap[rb]? = some rar.rnti
  others : ∀ rb, (∀ rar ∈ rach.buildRarList, rb ∉ rar.grant.rbs) →
    rach.rachAllocationMap[rb]? = allocation[rb]?

theorem exists_storeRach {ues : Rnti → Option UlHarq} {rnti : Rnti} {dci : UlDciListElement}
    (placed : dci.Placed scheduler.ulBandwidth rnti) (hue : (ues rnti).isSome) :
    ∃ after, storeRach scheduler ues dci = some after ∧
      Keeps scheduler.ulBandwidth ues after ∧
      (scheduler.harqOn = true → Holds scheduler.ulBandwidth after rnti current) := by
  obtain ⟨ue, hue⟩ := Option.isSome_iff_exists.mp hue
  rw [storeRach, placed.rnti_eq, hue]
  cases scheduler.harqOn with
  | false => exact ⟨ues, rfl, Keeps.refl _ _, fun hno => nomatch hno⟩
  | true =>
      exact ⟨_, rfl, keeps_put hue (store_currentProcessId _ _ _) rfl placed,
        fun _ => holds_put (store_currentProcessId _ _ _) rfl placed⟩

/-- The grant of one more request. -/
theorem RachHeld.grant (held : RachHeld scheduler allocation before rbStart rach)
    {ues : Rnti → Option UlHarq} {rnti rbLen tbSize mcs : Nat} (hrnti : rnti ≠ 0)
    (hband : scheduler.ulBandwidth < 256) (hroom : rbStart + rbLen ≤ scheduler.ulBandwidth)
    (hkeeps : Keeps scheduler.ulBandwidth rach.ues ues)
    (hholds : scheduler.harqOn = true → Holds scheduler.ulBandwidth ues rnti current) :
    RachHeld scheduler allocation before (rbStart + rbLen)
      { ues := ues
        rachAllocationMap := assign rach.rachAllocationMap (window rbStart rbLen) rnti
        buildRarList :=
          rach.buildRarList ++ [⟨rnti, newUlGrant rnti rbStart rbLen tbSize mcs⟩] } := by
  have hrbs : (newUlGrant rnti rbStart rbLen tbSize mcs).rbs = window rbStart rbLen :=
    show window (rbStart % 256) (rbLen % 256) = _ by
      rw [Nat.mod_eq_of_lt (by omega), Nat.mod_eq_of_lt (by omega)]
  refine ⟨(assign_length _ _ _).trans held.map_length, held.keeps.trans hkeeps,
    fun hharq rar hmem => ?_, fun rar hmem rb hrb => ?_, fun rar hmem => ?_,
    fun rar hmem rb hrb => ?_, fun rb hnone => ?_⟩
  · rcases List.mem_append.mp hmem with hold | hlast
    · exact (held.stored hharq rar hold).keeps hkeeps fun _ _ h => h
    · rw [List.mem_singleton.mp hlast]
      exact hholds hharq
  · rcases List.mem_append.mp hmem with hold | hlast
    · exact Nat.lt_add_right _ (held.used rar hold rb hrb)
    · rw [List.mem_singleton.mp hlast, hrbs] at hrb
      exact (mem_window.mp hrb).2
  · rcases List.mem_append.mp hmem with hold | hlast
    · exact held.nonzero rar hold
    · exact List.mem_singleton.mp hlast ▸ hrnti
  · rcases List.mem_append.mp hmem with hold | hlast
    · have hnot : rb ∉ window rbStart rbLen := fun hin =>
        Nat.not_le.mpr (held.used rar hold rb hrb) (mem_window.mp hin).1
      exact (assign_of_not_mem hnot _ _).trans (held.owned rar hold rb hrb)
    · rw [List.mem_singleton.mp hlast, hrbs] at hrb
      rw [List.mem_singleton.mp hlast]
      refine assign_of_mem hrb ?_ _
      rw [held.map_length]
      exact Nat.lt_of_lt_of_le (mem_window.mp hrb).2 hroom
  · have hlast := hnone _ (List.mem_append_right _ List.mem_cons_self)
    rw [hrbs] at hlast
    exact (assign_of_not_mem hlast _ _).trans
      (held.others rb fun rar hmem => hnone rar (List.mem_append_left _ hmem))

/-- All requests of a trigger. -/
theorem exists_allocateRach (hband : scheduler.ulBandwidth < 256)
    {requests : List RachListElement} (hfits : ∀ request ∈ requests, RequestFits before request)
    (hstart : rbStart ≤ scheduler.ulBandwidth)
    (held : RachHeld scheduler allocation before rbStart rach) :
    ∃ last rbEnd, allocateRach radio scheduler requests rbStart rach = some last ∧
      RachHeld scheduler allocation before rbEnd last := by
  induction requests generalizing rbStart rach with
  | nil => exact ⟨rach, rbStart, rfl, held⟩
  | cons request rest ih =>
      obtain ⟨hrnti, hsize, hue⟩ := hfits request List.mem_cons_self
      obtain ⟨hlen, hend⟩ := @growGrant_fits _ radio rbStart scheduler.ulBandwidth
        scheduler.ulGrantMcs request.estimatedSize scheduler.ulBandwidth 1 0 (.inl hsize)
      rw [allocateRach]
      dsimp only
      generalize growGrant radio scheduler.ulBandwidth scheduler.ulGrantMcs
        request.estimatedSize rbStart scheduler.ulBandwidth 1 0 = grown at hlen hend ⊢
      by_cases hsmall : grown.2 < request.estimatedSize
      · exact ⟨rach, rbStart, if_pos hsmall, held⟩
      · have hroom : rbStart + grown.1 ≤ scheduler.ulBandwidth := hend.resolve_left hsmall
        have placed : (newUlDci request.rnti rbStart grown.1 (grown.2 / 8)
            scheduler.ulGrantMcs).Placed scheduler.ulBandwidth request.rnti :=
          ⟨rfl, show 0 < grown.1 % 256 by omega,
            show rbStart % 256 + grown.1 % 256 ≤ _ by omega⟩
        obtain ⟨ues, hues, hkeeps, hholds⟩ := exists_storeRach placed (held.keeps.isSome hue)
        have hinside : ∀ rb ∈ window rbStart grown.1, rb < rach.rachAllocationMap.length :=
          fun rb hmem => held.map_length.symm ▸ Nat.lt_of_lt_of_le (mem_window.mp hmem).2 hroom
        obtain ⟨last, rbEnd, hlast, hheld⟩ := ih
          (fun other hmem => hfits other (List.mem_cons_of_mem _ hmem)) hroom
          (held.grant hrnti hband hroom hkeeps hholds)
        refine ⟨last, rbEnd, ?_, hheld⟩
        rw [if_neg hsmall, assignAt, if_pos hinside, hues]
        exact hlast

end Rach

/-! ## The invariant -/

/-- The process of a block that was granted a number of subframes ago. -/
def UlHarq.behind (back : Nat) (ue : UlHarq) : HarqProcess :=
  ⟨(ue.currentProcessId.val + 7 * back) % harqProcNum, Nat.mod_lt _ (by decide)⟩

theorem behind_congr (back : Nat) (ue other : UlHarq)
    (hsame : ue.currentProcessId = other.currentProcessId) :
    ue.behind back = other.behind back := Fin.ext (by simp only [UlHarq.behind, hsame])

theorem behind_zero (ue : UlHarq) : ue.behind 0 = current ue :=
  Fin.ext (Nat.mod_eq_of_lt ue.currentProcessId.isLt)

theorem behind_harqPeriod (ue : UlHarq) : ue.behind harqPeriod = ue.pastProcess := by
  refine Fin.ext ?_
  have hlt := ue.currentProcessId.isLt
  simp only [UlHarq.behind, UlHarq.pastProcess, harqPeriod, harqProcNum] at hlt ⊢
  omega

theorem behind_nextSubframe (back : Nat) (ue : UlHarq) :
    ue.nextSubframe.behind (back + 1) = ue.behind back := by
  refine Fin.ext ?_
  simp only [UlHarq.behind, UlHarq.nextSubframe, nextProcess, harqProcNum]
  omega

structure Sound (config : UlConfig) (run : UlRun Sinr) : Prop where
  bandwidth_eq : run.scheduler.ulBandwidth = config.ulBandwidth
  map_length : run.scheduler.rachAllocationMap.length = config.ulBandwidth
  reserved : ∀ rar ∈ rachGrants run.sent, ∀ rb ∈ rar.grant.rbs,
    ∃ rnti, run.scheduler.rachAllocationMap[rb]? = some rnti ∧ rnti ≠ 0
  exactRach : downlinkCalls run.sent ≤ 1 →
    Exact config.ulBandwidth run.scheduler.rachAllocationMap (rachGrants run.sent) []
  unsent : downlinkCalls run.sent = 0 →
    run.scheduler.rachAllocationMap = List.replicate config.ulBandwidth 0
  requested : ∀ request ∈ run.scheduler.rachList, RequestFits run.scheduler.ues request
  sorted : (run.scheduler.ceBsrRxed.map Prod.fst).Pairwise (· < ·)
  configured : ∀ rnti ∈ run.scheduler.ceBsrRxed.map Prod.fst, (run.scheduler.ues rnti).isSome
  next : run.scheduler.nextRntiUl = 0 ∨
    run.scheduler.nextRntiUl ∈ run.scheduler.ceBsrRxed.map Prod.fst
  measured : ∀ rnti cqi, run.scheduler.ueCqi rnti = some cqi →
    cqi.sinrs.length = config.ulBandwidth
  maps : ∀ sfnSf allocation, run.scheduler.allocationMaps sfnSf = some allocation →
    allocation.length = config.ulBandwidth
  granted : run.scheduler.harqOn = true → ∀ back, ∀ rnti ∈ grantedBack back run.sent,
    Holds config.ulBandwidth run.scheduler.ues rnti (UlHarq.behind back)

theorem start_sound (config : UlConfig) : Sound config (.start config : UlRun Sinr) where
  bandwidth_eq := rfl
  map_length := List.length_replicate
  reserved _ hmem := absurd hmem List.not_mem_nil
  exactRach _ := ⟨List.length_replicate, fun _ hmem => absurd hmem List.not_mem_nil,
    fun _ hmem => absurd hmem List.not_mem_nil, fun rb hlt _ _ => by
      rw [UlRun.start, UlScheduler.start, List.getElem?_replicate, if_pos hlt]⟩
  unsent _ := rfl
  requested _ hmem := absurd hmem List.not_mem_nil
  sorted := List.Pairwise.nil
  configured _ hmem := absurd hmem List.not_mem_nil
  next := .inl rfl
  measured _ _ hcqi := by cases hcqi
  maps _ _ hmap := by cases hmap
  granted _ back _ hmem := by
    cases back <;> exact absurd hmem List.not_mem_nil

section Calls

variable {config : UlConfig} {radio : UlRadio Sinr} {run : UlRun Sinr}

theorem RequestFits.keeps {bandwidth : Nat} {before after : Rnti → Option UlHarq}
    {request : RachListElement} (fits : RequestFits before request)
    (keeps : Keeps bandwidth before after) : RequestFits after request :=
  ⟨fits.1, fits.2.1, keeps.isSome fits.2.2⟩

theorem Sound.configureUe (held : Sound config run) (rnti : Rnti) :
    Sound config { run with scheduler := doCschedUeConfigReq run.scheduler rnti } := by
  rw [doCschedUeConfigReq]
  cases hold : run.scheduler.ues rnti with
  | some ue => exact held
  | none =>
      have hkeeps : Keeps config.ulBandwidth run.scheduler.ues
          (put run.scheduler.ues rnti (some (.fresh processZero))) := by
        intro other ue hue
        have hne : other ≠ rnti := fun same => by
          rw [same, hold] at hue
          cases hue
        exact ⟨ue, (put_other hne _).trans hue, rfl, fun _ => .inl rfl⟩
      exact { held with
        requested := fun request hmem => (held.requested request hmem).keeps hkeeps
        configured := fun other hmem => hkeeps.isSome (held.configured other hmem)
        granted := fun hharq back other hmem =>
          (held.granted hharq back other hmem).keeps hkeeps (behind_congr back) }

/-! ### Buffer status reports -/

theorem mem_keys_insertBsr {rnti key buffer : Nat} {reports : List (Rnti × Nat)} :
    key ∈ (insertBsr rnti buffer reports).map Prod.fst ↔
      key = rnti ∨ key ∈ reports.map Prod.fst := by
  induction reports with
  | nil => simp [insertBsr]
  | cons entry rest ih =>
      rw [insertBsr]
      split
      · rename_i hsame
        simp [hsame]
      · split
        · simp
        · rw [List.map_cons, List.mem_cons, ih, List.map_cons, List.mem_cons]
          exact or_left_comm

theorem sorted_insertBsr {rnti buffer : Nat} {reports : List (Rnti × Nat)}
    (hsorted : (reports.map Prod.fst).Pairwise (· < ·)) :
    ((insertBsr rnti buffer reports).map Prod.fst).Pairwise (· < ·) := by
  induction reports with
  | nil => exact List.pairwise_singleton _ _
  | cons entry rest ih =>
      obtain ⟨hhead, hrest⟩ := List.pairwise_cons.mp hsorted
      rw [insertBsr]
      split
      · rename_i hsame
        exact List.pairwise_cons.mpr ⟨fun key hmem => hsame ▸ hhead key hmem, hrest⟩
      · rename_i hne
        split
        · rename_i hlt
          refine List.pairwise_cons.mpr ⟨fun key hmem => ?_, hsorted⟩
          rcases List.mem_cons.mp hmem with rfl | hmem
          · exact hlt
          · exact Nat.lt_trans hlt (hhead key hmem)
        · rename_i hge
          refine List.pairwise_cons.mpr ⟨fun key hmem => ?_, ih hrest⟩
          rcases mem_keys_insertBsr.mp hmem with rfl | hmem
          · exact Nat.lt_of_le_of_ne (Nat.not_lt.mp hge) hne
          · exact hhead key hmem

theorem Sound.macCtrlInfo (held : Sound config run) {macCeList : List MacCeListElement}
    (hfits : ∀ element ∈ macCeList, element.Fits run.scheduler.ues) :
    ∃ next, doSchedUlMacCtrlInfoReq radio run.scheduler macCeList = some next ∧
      Sound config { run with scheduler := next } := by
  induction macCeList generalizing run with
  | nil => exact ⟨run.scheduler, rfl, held⟩
  | cons element rest ih =>
      obtain ⟨middle, hmiddle, hues, hsound⟩ : ∃ middle,
          bsrReported radio run.scheduler element = some middle ∧
            middle.ues = run.scheduler.ues ∧ Sound config { run with scheduler := middle } := by
        have hfirst := hfits element List.mem_cons_self
        cases element with
        | other rnti => exact ⟨run.scheduler, rfl, rfl, held⟩
        | bsr rnti bufferStatus =>
            refine ⟨_, if_neg (Nat.not_lt.mpr hfirst.1), rfl, ?_⟩
            exact { held with
              sorted := sorted_insertBsr held.sorted
              configured := fun other hmem =>
                (mem_keys_insertBsr.mp hmem).elim (fun same => same ▸ hfirst.2)
                  (held.configured other)
              next := held.next.imp_right fun hmem => mem_keys_insertBsr.mpr (.inr hmem) }
      obtain ⟨next, hnext, hlast⟩ := ih hsound fun other hmem => by
        rw [hues]
        exact hfits other (List.mem_cons_of_mem _ hmem)
      refine ⟨next, ?_, hlast⟩
      rw [doSchedUlMacCtrlInfoReq, List.foldlM_cons, hmiddle]
      exact hnext

/-! ### Uplink CQIs -/

/-- The vectors of all UEs have an entry for each RB. -/
def Measured (bandwidth : Nat) (ueCqi : Rnti → Option (UeCqi Sinr)) : Prop :=
  ∀ rnti cqi, ueCqi rnti = some cqi → cqi.sinrs.length = bandwidth

theorem Measured.put {bandwidth : Nat} {ueCqi : Rnti → Option (UeCqi Sinr)}
    (held : Measured bandwidth ueCqi) {rnti : Rnti} {cqi : UeCqi Sinr}
    (hlength : cqi.sinrs.length = bandwidth) :
    Measured bandwidth (RoundRobin.put ueCqi rnti (some cqi)) := by
  intro other found hfound
  by_cases same : other = rnti
  · subst same
    rw [put_same] at hfound
    exact Option.some.inj hfound ▸ hlength
  · rw [put_other same] at hfound
    exact held other found hfound

theorem exists_measured {bandwidth threshold : Nat} {info : UlCqiInfo} {allocation : List Rnti}
    {rbs : List Nat} (hrbs : ∀ rb ∈ rbs, rb < allocation.length)
    (hallocation : allocation.length = bandwidth) (hinfo : bandwidth ≤ info.sinr.length)
    {ueCqi : Rnti → Option (UeCqi Sinr)} (held : Measured bandwidth ueCqi) :
    ∃ after, rbs.foldlM (measured radio bandwidth threshold info allocation) ueCqi =
      some after ∧ Measured bandwidth after := by
  induction rbs generalizing ueCqi with
  | nil => exact ⟨ueCqi, rfl, held⟩
  | cons rb rest ih =>
      have hlt := hrbs rb List.mem_cons_self
      obtain ⟨middle, hmiddle, hone⟩ : ∃ middle,
          measured radio bandwidth threshold info allocation ueCqi rb = some middle ∧
            Measured bandwidth middle := by
        rw [measured, List.getElem?_eq_getElem (show rb < info.sinr.length by omega),
          List.getElem?_eq_getElem hlt]
        simp only [Option.bind_eq_bind, Option.bind_some]
        cases hcqi : ueCqi allocation[rb] with
        | none => exact ⟨_, rfl, held.put (by simp)⟩
        | some cqi =>
            have hlength := held _ _ hcqi
            refine ⟨_, if_pos (by omega), held.put ?_⟩
            exact List.length_set.trans hlength
      obtain ⟨after, hafter, hlast⟩ := ih
        (fun other hmem => hrbs other (List.mem_cons_of_mem _ hmem)) hone
      exact ⟨after, by rw [List.foldlM_cons, hmiddle]; exact hafter, hlast⟩

theorem Sound.filteredCqi (held : Sound config run) {info : UlCqiInfo}
    (hinfo : run.scheduler.ulBandwidth ≤ info.sinr.length)
    (htype : info.type = .srs ∨ info.type = .pusch) :
    ∃ next, filteredCqi radio run.scheduler info = some next ∧
      Sound config { run with scheduler := next } := by
  have hmeasured : Measured run.scheduler.ulBandwidth run.scheduler.ueCqi :=
    fun rnti cqi hcqi => (held.measured rnti cqi hcqi).trans held.bandwidth_eq.symm
  rcases htype with htype | htype
  · obtain ⟨sinrs, hsinrs, hlength, -⟩ := @exists_mapM_range Sinr
      (fun rb => (info.sinr[rb]?).map radio.fpS11dot3toDouble) run.scheduler.ulBandwidth
      fun rb hlt => by
        rw [List.getElem?_eq_getElem (Nat.lt_of_lt_of_le hlt hinfo)]
        rfl
    obtain ⟨stored, hstored, hsize⟩ : ∃ stored,
        overwritten (run.scheduler.ueCqi info.srsRnti) sinrs = some stored ∧
          stored.length = run.scheduler.ulBandwidth := by
      cases hcqi : run.scheduler.ueCqi info.srsRnti with
      | none => exact ⟨sinrs, rfl, hlength⟩
      | some cqi =>
          have hold := hmeasured _ _ hcqi
          refine ⟨_, if_neg (by omega), ?_⟩
          rw [List.length_append, List.length_drop]
          omega
    refine ⟨_, by
      rw [Uplink.filteredCqi, htype]
      simp only [sounded, hsinrs, Option.bind_eq_bind, Option.bind_some, hstored]
      rfl, ?_⟩
    have hput := @Measured.put _ _ _ hmeasured info.srsRnti
      ⟨stored, run.scheduler.cqiTimersThreshold⟩ hsize
    exact { held with
      measured := fun rnti cqi hcqi => (hput rnti cqi hcqi).trans held.bandwidth_eq }
  · cases hmap : run.scheduler.allocationMaps info.sfnSf with
    | none =>
        exact ⟨run.scheduler, by rw [Uplink.filteredCqi, htype]; simp only [hmap], held⟩
    | some allocation =>
        have hlength := (held.maps _ _ hmap).trans held.bandwidth_eq.symm
        obtain ⟨after, hafter, hlast⟩ := @exists_measured _ radio _
          run.scheduler.cqiTimersThreshold info allocation (List.range allocation.length)
          (fun rb hmem => List.mem_range.mp hmem) hlength hinfo _ hmeasured
        refine ⟨_, by rw [Uplink.filteredCqi, htype]; simp only [hmap, hafter]; rfl, ?_⟩
        exact { held with
          measured := fun rnti cqi hcqi => (hlast rnti cqi hcqi).trans held.bandwidth_eq
          maps := fun sfnSf found hfound => by
            dsimp only at hfound
            by_cases same : sfnSf = info.sfnSf
            · rw [same, put_same] at hfound
              cases hfound
            · rw [put_other same] at hfound
              exact held.maps sfnSf found hfound }

theorem Sound.ulCqiInfo (held : Sound config run) {info : UlCqiInfo}
    (hinfo : run.scheduler.ulBandwidth ≤ info.sinr.length) :
    ∃ next, doSchedUlCqiInfoReq radio run.scheduler info = some next ∧
      Sound config { run with scheduler := next } := by
  rw [doSchedUlCqiInfoReq]
  cases run.scheduler.ulCqiFilter with
  | srsUlCqi =>
      by_cases htype : info.type = .srs
      · simp only [htype, ne_eq, not_true_eq_false, if_false]
        exact held.filteredCqi hinfo (.inl htype)
      · exact ⟨run.scheduler, if_pos htype, held⟩
  | puschUlCqi =>
      by_cases htype : info.type = .pusch
      · simp only [htype, ne_eq, not_true_eq_false, if_false]
        exact held.filteredCqi hinfo (.inr htype)
      · exact ⟨run.scheduler, if_pos htype, held⟩

/-! ### The downlink trigger -/

theorem resize_of_length {allocation : List Rnti} {size : Nat}
    (hlength : allocation.length = size) : resize allocation size = allocation := by
  rw [resize, hlength, Nat.sub_self, List.replicate_zero, List.append_nil,
    List.take_of_length_le hlength.le]

theorem holds_nextSubframe {bandwidth : Nat} {ues : Rnti → Option UlHarq} {rnti : Rnti}
    {back : Nat} (holds : Holds bandwidth ues rnti (UlHarq.behind back)) :
    Holds bandwidth (fun rnti => (ues rnti).map UlHarq.nextSubframe) rnti
      (UlHarq.behind (back + 1)) := by
  obtain ⟨ue, hue, hplaced⟩ := holds
  exact ⟨ue.nextSubframe, congrArg (Option.map UlHarq.nextSubframe) hue,
    (behind_nextSubframe back ue).symm ▸ hplaced⟩

theorem Sound.dlTrigger (held : Sound config run) (hband : config.ulBandwidth < 256) :
    ∃ result, doSchedDlTriggerReq radio run.scheduler = some result ∧
      Sound config ⟨result.1, .downlink result.2 :: run.sent⟩ := by
  have hbandwidth := held.bandwidth_eq
  have hnext : ∀ rnti, (((run.scheduler.ues rnti).map UlHarq.nextSubframe).isSome) =
      (run.scheduler.ues rnti).isSome := fun rnti => Option.isSome_map
  have hstart : RachHeld run.scheduler run.scheduler.rachAllocationMap
      (fun rnti => (run.scheduler.ues rnti).map UlHarq.nextSubframe) 0
      { ues := fun rnti => (run.scheduler.ues rnti).map UlHarq.nextSubframe
        rachAllocationMap := resize run.scheduler.rachAllocationMap run.scheduler.ulBandwidth
        buildRarList := [] } := by
    rw [resize_of_length (held.map_length.trans hbandwidth.symm)]
    exact ⟨held.map_length.trans hbandwidth.symm, Keeps.refl _ _,
      fun _ _ hmem => absurd hmem List.not_mem_nil, fun _ hmem => absurd hmem List.not_mem_nil,
      fun _ hmem => absurd hmem List.not_mem_nil, fun _ hmem => absurd hmem List.not_mem_nil,
      fun _ _ => rfl⟩
  obtain ⟨rach, rbEnd, hrach, hheld⟩ := @exists_allocateRach _ radio _ _ _ _ _
    (hbandwidth.symm ▸ hband) run.scheduler.rachList
    (fun request hmem => ⟨(held.requested request hmem).1, (held.requested request hmem).2.1,
      (hnext request.rnti).trans (held.requested request hmem).2.2⟩) (Nat.zero_le _) hstart
  have hsome : ∀ rnti, (run.scheduler.ues rnti).isSome → (rach.ues rnti).isSome :=
    fun rnti hue => hheld.keeps.isSome ((hnext rnti).trans hue)
  refine ⟨_, by rw [doSchedDlTriggerReq, hrach]; rfl, hbandwidth,
    hheld.map_length.trans hbandwidth, fun rar hmem rb hrb => ?_, fun hcalls => ?_,
    fun hno => absurd hno (Nat.succ_ne_zero _), fun _ hmem => absurd hmem List.not_mem_nil,
    held.sorted, fun rnti hmem => hsome rnti (held.configured rnti hmem), held.next,
    held.measured, held.maps, fun hharq back rnti hmem => ?_⟩
  · by_cases hnew : ∃ later ∈ rach.buildRarList, rb ∈ later.grant.rbs
    · obtain ⟨later, hlater, hin⟩ := hnew
      exact ⟨later.rnti, hheld.owned later hlater rb hin, hheld.nonzero later hlater⟩
    · rcases List.mem_append.mp hmem with hold | hlast
      · obtain ⟨rnti, hrnti, hne⟩ := held.reserved rar hold rb hrb
        refine ⟨rnti, (hheld.others rb fun later hlater hin => ?_).trans hrnti, hne⟩
        exact hnew ⟨later, hlater, hin⟩
      · exact absurd ⟨rar, hlast, hrb⟩ hnew
  · have hzero : downlinkCalls run.sent = 0 := Nat.le_zero.mp (Nat.le_of_succ_le_succ hcalls)
    have hnone : rachGrants run.sent = [] := by
      cases hsent : run.sent with
      | nil => rfl
      | cons latest older =>
          cases latest with
          | uplink outcome => rfl
          | downlink list => rw [hsent] at hzero; cases hzero
    refine ⟨hheld.map_length.trans hbandwidth, fun rar hmem rb hrb => ?_,
      fun _ hmem => absurd hmem List.not_mem_nil, fun rb hlt hfree _ => ?_⟩
    · rw [rachGrants, hnone, List.nil_append] at hmem
      exact hheld.owned rar hmem rb hrb
    · rw [rachGrants, hnone, List.nil_append] at hfree
      refine (hheld.others rb hfree).trans ?_
      rw [held.unsent hzero, List.getElem?_replicate, if_pos hlt]
  · cases back with
    | zero =>
        obtain ⟨rar, hrar, rfl⟩ := List.mem_map.mp hmem
        obtain ⟨ue, hue, hplaced⟩ := hheld.stored hharq rar hrar
        exact ⟨ue, hue, (behind_zero ue).symm ▸ hbandwidth ▸ hplaced⟩
    | succ back =>
        have hkeeps := hheld.keeps
        rw [hbandwidth] at hkeeps
        exact (holds_nextSubframe (held.granted hharq back rnti hmem)).keeps hkeeps
          (behind_congr (back + 1))

/-! ### The uplink trigger -/

theorem Measured.refresh {bandwidth : Nat} (held : Measured bandwidth run.scheduler.ueCqi) :
    Measured bandwidth (refreshUlCqiMaps run.scheduler).ueCqi := by
  intro rnti cqi hcqi
  obtain ⟨old, hold, hrefresh⟩ := Option.bind_eq_some_iff.mp hcqi
  rw [UeCqi.refresh] at hrefresh
  split at hrefresh
  · cases hrefresh
  · exact Option.some.inj hrefresh ▸ held rnti old hold

/-- The maps of a subframe show what it hands out. -/
theorem Sound.consistent (held : Sound config run) {subframe : UlSubframe}
    (hallocated : Allocated config.ulBandwidth run.scheduler.rachAllocationMap subframe)
    (hwide : ∀ dci ∈ subframe.dciList, dci.ndi = 1 → 3 ≤ dci.rbLen) {sfnSf : Nat}
    {next : UlScheduler Sinr} {outcome : UlOutcome} (hlist : outcome.dciList = subframe.dciList)
    (hstored : ∀ allocation ∈ outcome.allocationMap,
      allocation = subframe.rbgAllocationMap ∧ next.allocationMaps sfnSf = some allocation)
    (hunstored : outcome.allocationMap = none → outcome.dciList = []) :
    Consistent run sfnSf next outcome := by
  refine ⟨?_, ?_, ?_, ?_, ?_, fun allocation hmem => ?_, hunstored⟩
  · intro dci hmem
    have hplaced := hallocated.placed dci (hlist ▸ hmem)
    exact ⟨hplaced.nonempty, held.bandwidth_eq ▸ hplaced.inBand⟩
  · exact hlist ▸ List.pairwise_map.mp hallocated.claims.apart
  · intro dci hmem rar hrar rb hin hrach
    obtain ⟨rnti, hrnti, hne⟩ := held.reserved rar hrar rb hrach
    have hzero := hallocated.spared dci (hlist ▸ hmem) rb hin
    rw [hrnti] at hzero
    exact hne (Option.some.inj hzero)
  · exact hlist ▸ hwide
  · exact hlist ▸ hallocated.oneEach
  · obtain ⟨rfl, hmap⟩ := hstored allocation hmem
    refine ⟨hmap, fun hcalls => ?_⟩
    have hexact := held.exactRach hcalls
    rw [hlist]
    refine ⟨hallocated.map_length.trans held.bandwidth_eq.symm, fun rar hrar rb hrb => ?_,
      hallocated.owned, fun rb hlt hrach hdcis => ?_⟩
    · refine (hallocated.others rb fun dci hdci hin => ?_).trans (hexact.rach rar hrar rb hrb)
      obtain ⟨rnti, hrnti, hne⟩ := held.reserved rar hrar rb hrb
      exact hne (Option.some.inj (hrnti.symm.trans (hallocated.spared dci hdci rb hin)))
    · exact (hallocated.others rb hdcis).trans (hexact.free rb (held.bandwidth_eq ▸ hlt) hrach
        fun _ hnil => absurd hnil List.not_mem_nil)

/-- What an uplink trigger leaves behind. -/
theorem Sound.afterUlTrigger (held : Sound config run) {next : UlScheduler Sinr}
    {outcome : UlOutcome} (hbandwidth : next.ulBandwidth = run.scheduler.ulBandwidth)
    (hharqOn : next.harqOn = run.scheduler.harqOn)
    (hrachList : next.rachList = run.scheduler.rachList)
    (hrach : next.rachAllocationMap = List.replicate config.ulBandwidth 0)
    (hkeys : next.ceBsrRxed.map Prod.fst = run.scheduler.ceBsrRxed.map Prod.fst)
    (hnext : next.nextRntiUl = 0 ∨ next.nextRntiUl ∈ run.scheduler.ceBsrRxed.map Prod.fst)
    (hmeasured : Measured config.ulBandwidth next.ueCqi)
    (hmaps : ∀ sfnSf allocation, next.allocationMaps sfnSf = some allocation →
      allocation.length = config.ulBandwidth)
    (hkeeps : Keeps config.ulBandwidth run.scheduler.ues next.ues)
    (hholds : run.scheduler.harqOn = true → ∀ dci ∈ outcome.dciList,
      Holds config.ulBandwidth next.ues dci.rnti current) :
    Sound config ⟨next, .uplink outcome :: run.sent⟩ where
  bandwidth_eq := hbandwidth.trans held.bandwidth_eq
  map_length := hrach ▸ List.length_replicate
  reserved _ hmem := absurd hmem List.not_mem_nil
  exactRach _ := ⟨hrach ▸ List.length_replicate, fun _ hmem => absurd hmem List.not_mem_nil,
    fun _ hmem => absurd hmem List.not_mem_nil, fun rb hlt _ _ => by
      rw [hrach, List.getElem?_replicate, if_pos hlt]⟩
  unsent _ := hrach
  requested request hmem := (held.requested request (hrachList ▸ hmem)).keeps hkeeps
  sorted := hkeys ▸ held.sorted
  configured rnti hmem := hkeeps.isSome (held.configured rnti (hkeys ▸ hmem))
  next := hkeys ▸ hnext
  measured := hmeasured
  maps := hmaps
  granted hharq back rnti hmem := by
    have hon : run.scheduler.harqOn = true := hharqOn ▸ hharq
    have hlater : rnti ∈ grantedBack back run.sent →
        Holds config.ulBandwidth next.ues rnti (UlHarq.behind back) := fun hold =>
      (held.granted hon back rnti hold).keeps hkeeps (behind_congr back)
    cases back with
    | zero =>
        rcases List.mem_append.mp hmem with hnow | hold
        · obtain ⟨dci, hdci, rfl⟩ := List.mem_map.mp hnow
          obtain ⟨ue, hue, hplaced⟩ := hholds hon dci hdci
          exact ⟨ue, hue, (behind_zero ue).symm ▸ hplaced⟩
        · exact hlater hold
    | succ back => exact hlater hmem

theorem reports_ne_nil {subframe : UlSubframe} {reports : List (Rnti × Nat)}
    (hflows : flows subframe reports ≠ 0) : reports ≠ [] := by
  rintro rfl
  exact hflows rfl

/-- The maps behind a trigger that stores one. -/
theorem Sound.storeMap (held : Sound config run) {sfnSf : Nat} {allocation : List Rnti}
    (hlength : allocation.length = config.ulBandwidth) :
    ∀ other found, put run.scheduler.allocationMaps sfnSf (some allocation) other = some found →
      found.length = config.ulBandwidth := by
  intro other found hfound
  by_cases same : other = sfnSf
  · rw [same, put_same] at hfound
    exact Option.some.inj hfound ▸ hlength
  · rw [put_other same] at hfound
    exact held.maps other found hfound

/-- Every uplink trigger ends, is consistent and keeps the invariant. -/
theorem Sound.ulTrigger (held : Sound config run) (hband : config.ulBandwidth < 256)
    {sfnSf : Nat} {ulInfoList : List UlInfoListElement}
    (hfits : ∀ info ∈ ulInfoList, info.receptionStatus = .notOk →
      info.rnti ∈ grantedBack harqPeriod run.sent) :
    ∃ next outcome,
      doSchedUlTriggerReq radio run.scheduler sfnSf ulInfoList = some (next, outcome) ∧
        Consistent run sfnSf next outcome ∧ Sound config ⟨next, .uplink outcome :: run.sent⟩ := by
  have hbandwidth := held.bandwidth_eq
  have hfeedback : run.scheduler.harqOn = true → ∀ info ∈ ulInfoList,
      FeedbackFits run.scheduler.ulBandwidth run.scheduler.ues info := by
    intro hharq info hmem hstatus
    obtain ⟨ue, hue, hplaced⟩ := held.granted hharq harqPeriod _ (hfits info hmem hstatus)
    exact ⟨ue, hue, behind_harqPeriod ue ▸ hbandwidth.symm ▸ hplaced⟩
  obtain ⟨served, hserved, hserving⟩ := @serveUlInfo_serving _ (refreshUlCqiMaps run.scheduler)
    ulInfoList (held.map_length.trans hbandwidth.symm) hfeedback
  have hallocated := hserving.allocated
  have hkeeps := hserving.keeps
  have hstored := hserving.stored
  simp only [show (refreshUlCqiMaps run.scheduler).ulBandwidth = config.ulBandwidth from hbandwidth]
    at hallocated hkeeps hstored
  have hmeasured : Measured config.ulBandwidth (refreshUlCqiMaps run.scheduler).ueCqi :=
    Measured.refresh held.measured
  have hrepeated : ∀ dci ∈ served.dciList, dci.ndi = 1 → 3 ≤ dci.rbLen := by
    intro dci hmem hnew
    rw [hserving.repeated dci hmem] at hnew
    cases hnew
  have hreplicate : List.replicate (refreshUlCqiMaps run.scheduler).ulBandwidth 0 =
      List.replicate config.ulBandwidth 0 := by
    rw [show (refreshUlCqiMaps run.scheduler).ulBandwidth = config.ulBandwidth from hbandwidth]
  rw [doSchedUlTriggerReq]
  dsimp only
  rw [hserved]
  simp only [Option.bind_eq_bind, Option.bind_some]
  by_cases hflows : flows served (refreshUlCqiMaps run.scheduler).ceBsrRxed = 0
  · rw [if_pos hflows]
    by_cases hnone : served.dciList = []
    · rw [if_pos hnone]
      refine ⟨_, _, rfl, ?_, ?_⟩
      · exact held.consistent hallocated hrepeated hnone.symm (fun _ hmem => nomatch hmem)
          fun _ => rfl
      · exact held.afterUlTrigger rfl rfl rfl hreplicate rfl held.next hmeasured held.maps hkeeps
          fun _ _ hmem => absurd hmem List.not_mem_nil
    · rw [if_neg hnone]
      refine ⟨_, _, rfl, ?_, ?_⟩
      · exact held.consistent hallocated hrepeated rfl
          (fun allocation hmem => by
            obtain rfl := Option.some.inj hmem
            exact ⟨rfl, put_same _ _ _⟩) fun hno => nomatch hno
      · exact held.afterUlTrigger rfl rfl rfl hreplicate rfl held.next hmeasured
          (held.storeMap hallocated.map_length) hkeeps fun _ => hstored
  · rw [if_neg hflows]
    let scheduler : UlScheduler Sinr := { refreshUlCqiMaps run.scheduler with
      ues := served.ues
      rachAllocationMap := List.replicate (refreshUlCqiMaps run.scheduler).ulBandwidth 0 }
    have hcell : scheduler.ulBandwidth = config.ulBandwidth := hbandwidth
    have divisible : Divisible scheduler run.scheduler.rachAllocationMap run.scheduler.ues
        (run.scheduler.ceBsrRxed.map Prod.fst) :=
      ⟨held.map_length.trans hcell.symm, hcell.symm ▸ hband, held.sorted.imp Nat.ne_of_lt,
        held.configured, hcell.symm ▸ hmeasured⟩
    obtain ⟨robin, hrobin, hdivided⟩ := @exists_divideBand _ radio _ _ _ _ served divisible
      hserving rfl (reports_ne_nil hflows) held.next
    obtain ⟨hlast, hlastKeeps, hlastStored, hwide, hkeys, hnext⟩ := hdivided
    rw [hcell] at hlast hlastKeeps hlastStored
    rw [hrobin]
    refine ⟨_, _, rfl, ?_, ?_⟩
    · exact held.consistent hlast hwide rfl
        (fun allocation hmem => by
          obtain rfl := Option.some.inj hmem
          exact ⟨rfl, put_same _ _ _⟩) fun hno => nomatch hno
    · exact held.afterUlTrigger rfl rfl rfl hreplicate hkeys (.inr hnext) hmeasured
        (held.storeMap hlast.map_length) hlastKeeps hlastStored

/-- Every call that fits is enabled and keeps the invariant. -/
theorem Sound.step (held : Sound config run) (hband : config.ulBandwidth < 256) {call : Call}
    (hfits : CallFits harqPeriod run call) :
    ∃ next, Uplink.step radio run call = some next ∧ Sound config next := by
  cases call with
  | configureUe rnti => exact ⟨_, rfl, held.configureUe rnti⟩
  | rachInfo rachList => exact ⟨_, rfl, { held with requested := hfits }⟩
  | macCtrlInfo macCeList =>
      obtain ⟨next, hnext, hsound⟩ := @Sound.macCtrlInfo _ _ radio _ held macCeList hfits
      exact ⟨_, by rw [Uplink.step, hnext]; rfl, hsound⟩
  | ulCqiInfo info =>
      obtain ⟨next, hnext, hsound⟩ := @Sound.ulCqiInfo _ _ radio _ held info hfits
      exact ⟨_, by rw [Uplink.step, hnext]; rfl, hsound⟩
  | dlTrigger =>
      obtain ⟨result, hresult, hsound⟩ := @Sound.dlTrigger _ _ radio _ held hband
      exact ⟨_, by rw [Uplink.step, hresult]; rfl, hsound⟩
  | ulTrigger sfnSf ulInfoList =>
      obtain ⟨next, outcome, hresult, -, hsound⟩ :=
        @Sound.ulTrigger _ _ radio _ held hband sfnSf ulInfoList hfits
      exact ⟨_, by rw [Uplink.step, hresult]; rfl, hsound⟩

end Calls

/-- Eight bytes for each RB, and SINRs that are their own CQI. -/
def sampleRadio : UlRadio Nat :=
  { getUlTbSizeFromMcs := fun _ nprb => 64 * nprb, getMcsFromCqi := id,
    bsrId2BufferSize := fun bsrId => 10 * bsrId, fpS11dot3toDouble := id, noSinr := 30,
    below := fun left right => decide (left < right), cqiOfSinr := id }

def sampleConfig : UlConfig :=
  { ulBandwidth := 25, harqOn := true, ulGrantMcs := 0, cqiTimersThreshold := 1000,
    ulCqiFilter := .srsUlCqi }

/-- A request and two UEs with data, then six subframes without either. -/
def oneBlockEach : List Call :=
  [.configureUe 1, .configureUe 2, .configureUe 3, .rachInfo [⟨2, 144⟩], .dlTrigger,
    .macCtrlInfo [.bsr 1 [1, 0, 0, 0], .bsr 3 [1, 0, 0, 0]], .ulTrigger 6 []] ++
  (List.replicate 6 [Call.dlTrigger, .ulTrigger 7 []]).flatten

def sevenBack : List Call := oneBlockEach ++ [.dlTrigger]

/-- Feedback one subframe later names a process that was never used, and its RBs are outside
the band. -/
def eightBack : List Call :=
  sevenBack ++ [.ulTrigger 13 [], .dlTrigger, .ulTrigger 14 [⟨1, .notOk⟩]]

end DeepcV2x.Lte.Uplink
