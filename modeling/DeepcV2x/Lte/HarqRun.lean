import DeepcV2x.Lte.HarqTrigger
import DeepcV2x.Lte.RoundRobinRun

/-!
# Runs and their HARQ buffers

A run records what every trigger found and sent.  While no timer expires on
buffered PDUs and the feedback is clear, the busy processes describe their last
new transmission.  With a full queue and no feedback the timer of the first
process expires, and the next transmission on it finds the PDUs of the first.
-/

namespace DeepcV2x.Lte.RoundRobin

open DeepcV2x.Foundation.Runs

/-! ## Runs with their records -/

structure HarqRun where
  scheduler : RrFfMacScheduler
  records : List Record

def HarqRun.start (dlBandwidth cqiTimersThreshold : Nat) : HarqRun :=
  ⟨.start dlBandwidth cqiTimersThreshold, []⟩

/-- A UE that was not configured starts with unused processes. -/
def recordConfigured (run : HarqRun) (rnti : Rnti) : List Record :=
  match run.scheduler.ues rnti with
  | none => .configuredUe rnti :: run.records
  | some _ => run.records

/-- A step of the scheduler with what is recorded of it. -/
def recordedStep (amc : LteAmc) (run : HarqRun) : Event → Option HarqRun
  | .trigger dlInfoList =>
      (doSchedDlTriggerReq amc run.scheduler dlInfoList).map fun result =>
        ⟨result.1, .triggered run.scheduler dlInfoList result.2 :: run.records⟩
  | .configureUe rnti transmissionMode =>
      some ⟨doCschedUeConfigReq run.scheduler rnti transmissionMode, recordConfigured run rnti⟩
  | .releaseUe rnti => some ⟨doCschedUeReleaseReq run.scheduler rnti, run.records⟩
  | .releaseLcs rnti lcids => some ⟨doCschedLcReleaseReq run.scheduler rnti lcids, run.records⟩
  | .rlcBuffer params => some ⟨doSchedDlRlcBufferReq run.scheduler params, run.records⟩
  | .cqiInfo cqiList =>
      (doSchedDlCqiInfoReq run.scheduler cqiList).map fun next => ⟨next, run.records⟩

/-- The records do not change the steps. -/
theorem recordedStep_scheduler (amc : LteAmc) (run : HarqRun) (event : Event) :
    (recordedStep amc run event).map HarqRun.scheduler = step amc run.scheduler event := by
  cases event with
  | configureUe rnti mode => rfl
  | releaseUe rnti => rfl
  | releaseLcs rnti lcids => rfl
  | rlcBuffer params => rfl
  | cqiInfo cqiList =>
      rw [recordedStep, step, Option.map_map]
      exact Option.map_id'
  | trigger dlInfoList =>
      rw [recordedStep, step, Option.map_map]
      rfl

/-- Every new transmission is on a process that was released for it. -/
def Given : List Record → Prop
  | [] => True
  | .configuredUe _ :: older => Given older
  | .triggered before dlInfoList elements :: older =>
      (∀ element ∈ elements, element.isNew = true → ∃ process : HarqProcess,
        element.dci.harqProcess = process.val ∧
          FreeFor before (before.dlInfoListBuffered ++ dlInfoList) older element.rnti process) ∧
      Given older

/-- The identities of channels are bytes. -/
def Event.Typed : Event → Prop
  | .rlcBuffer params => params.logicalChannelIdentity < 256
  | _ => True

/-- What each event finds. -/
def EventClear (run : HarqRun) : Event → Prop
  | .trigger dlInfoList => TriggerClear run.scheduler dlInfoList
  | _ => True

/-! ## The invariant -/

structure HarqRun.Held (run : HarqRun) : Prop where
  tracked : ∀ rnti ue, run.scheduler.ues rnti = some ue →
    Tracked (sentBy run.records) (fun process => Available rnti process run.records) rnti ue
  listed : Listed run.scheduler.rlcBufferReq
  given : Given run.records

theorem start_held (dlBandwidth cqiTimersThreshold : Nat) :
    (HarqRun.start dlBandwidth cqiTimersThreshold).Held where
  tracked _ _ hue := by cases hue
  listed := ⟨List.nodup_nil, fun _ hkey => absurd hkey List.not_mem_nil⟩
  given := trivial

theorem Listed.filter {reqs : List SchedDlRlcBufferReq} (listed : Listed reqs)
    (keeps : SchedDlRlcBufferReq → Bool) : Listed (reqs.filter keeps) := by
  have hsub := (List.filter_sublist (p := keeps) (l := reqs)).map SchedDlRlcBufferReq.key
  exact ⟨listed.keyed.sublist hsub, fun key hkey => listed.small key (hsub.subset hkey)⟩

section Events

variable {amc : LteAmc} {run next : HarqRun}

/-- A change of the reports alone. -/
theorem HarqRun.Held.ofReqs (held : run.Held) {scheduler : RrFfMacScheduler}
    (hues : scheduler.ues = run.scheduler.ues) (hlisted : Listed scheduler.rlcBufferReq) :
    HarqRun.Held ⟨scheduler, run.records⟩ :=
  ⟨fun rnti ue hue => held.tracked rnti ue (hues ▸ hue), hlisted, held.given⟩

theorem HarqRun.Held.configureUe (held : run.Held) (rnti mode : Nat) :
    HarqRun.Held
      ⟨doCschedUeConfigReq run.scheduler rnti mode, recordConfigured run rnti⟩ := by
  rw [doCschedUeConfigReq, recordConfigured]
  cases hold : run.scheduler.ues rnti with
  | none =>
      refine ⟨fun other ue hue => ?_, held.listed, held.given⟩
      simp only [put] at hue
      split at hue
      · next same =>
          obtain rfl := Option.some.inj hue
          exact fresh_tracked _ (fun _ => .inl same.symm) other mode
      · exact (held.tracked other ue hue).mono fun process hfree => .inr hfree
  | some old =>
      refine ⟨fun other ue hue => ?_, held.listed, held.given⟩
      simp only [put] at hue
      split at hue
      · next same =>
          subst same
          obtain rfl := Option.some.inj hue
          have tracked := held.tracked other old hold
          exact ⟨fun process hbusy => (tracked.described process hbusy).congr rfl fun _ => rfl,
            tracked.shaped, tracked.cleared, tracked.freed⟩
      · exact held.tracked other ue hue

theorem HarqRun.Held.releaseUe (held : run.Held) (rnti : Rnti) :
    HarqRun.Held ⟨doCschedUeReleaseReq run.scheduler rnti, run.records⟩ := by
  refine ⟨fun other ue hue => ?_, held.listed.filter _, held.given⟩
  simp only [doCschedUeReleaseReq, put] at hue
  split at hue
  · cases hue
  · exact held.tracked other ue hue

theorem HarqRun.Held.rlcBuffer (held : run.Held) {params : SchedDlRlcBufferReq}
    (hsmall : params.logicalChannelIdentity < 256) :
    HarqRun.Held ⟨doSchedDlRlcBufferReq run.scheduler params, run.records⟩ := by
  have hothers := held.listed.filter fun req =>
    decide (¬ req.Of params.rnti params.logicalChannelIdentity)
  refine held.ofReqs rfl ?_
  constructor
  · simp only [doSchedDlRlcBufferReq, List.map_append, List.map_singleton]
    refine List.nodup_append.mpr ⟨hothers.keyed, List.nodup_singleton _, ?_⟩
    intro key hkey other hother same
    obtain ⟨req, hreq, rfl⟩ := List.mem_map.mp hkey
    have hnot := of_decide_eq_true (List.mem_filter.mp hreq).2
    rw [List.mem_singleton.mp hother] at same
    exact hnot ⟨congrArg Prod.fst same, congrArg Prod.snd same⟩
  · intro key hkey
    simp only [doSchedDlRlcBufferReq, List.map_append, List.map_singleton] at hkey
    rcases List.mem_append.mp hkey with hold | hlast
    · exact hothers.small key hold
    · exact List.mem_singleton.mp hlast ▸ hsmall

theorem HarqRun.Held.cqiInfo (held : run.Held) {cqiList : List CqiListElement}
    {scheduler : RrFfMacScheduler}
    (hnext : doSchedDlCqiInfoReq run.scheduler cqiList = some scheduler) :
    HarqRun.Held ⟨scheduler, run.records⟩ := by
  have hsame : scheduler.ues = run.scheduler.ues ∧
      scheduler.rlcBufferReq = run.scheduler.rlcBufferReq := by
    generalize run.scheduler = first at hnext ⊢
    induction cqiList generalizing first with
    | nil =>
        obtain rfl := Option.some.inj hnext
        exact ⟨rfl, rfl⟩
    | cons element rest ih =>
        rw [doSchedDlCqiInfoReq, List.foldlM_cons] at hnext
        obtain ⟨middle, hmiddle, hrest⟩ := Option.bind_eq_some_iff.mp hnext
        obtain ⟨hues, hreqs⟩ := ih middle hrest
        have hone : middle.ues = first.ues ∧ middle.rlcBufferReq = first.rlcBufferReq := by
          cases element with
          | other rnti =>
              obtain rfl := Option.some.inj hmiddle
              exact ⟨rfl, rfl⟩
          | p10 rnti wbCqi =>
              cases wbCqi with
              | nil => cases hmiddle
              | cons cqi more =>
                  obtain rfl := Option.some.inj hmiddle
                  exact ⟨rfl, rfl⟩
        exact ⟨hues.trans hone.1, hreqs.trans hone.2⟩
  exact held.ofReqs hsame.1 (hsame.2 ▸ held.listed)

/-- One event. -/
theorem HarqRun.Held.step (held : run.Held)
    (hblocks : ∀ mcs nprb, amc.getDlTbSizeFromMcs mcs nprb / 8 < 65536) {event : Event}
    (htyped : event.Typed) (hclear : EventClear run event)
    (hnext : recordedStep amc run event = some next) : next.Held := by
  cases event with
  | configureUe rnti mode => exact Option.some.inj hnext ▸ held.configureUe rnti mode
  | releaseUe rnti => exact Option.some.inj hnext ▸ held.releaseUe rnti
  | releaseLcs rnti lcids =>
      exact Option.some.inj hnext ▸ held.ofReqs rfl (held.listed.filter _)
  | rlcBuffer params => exact Option.some.inj hnext ▸ held.rlcBuffer htyped
  | cqiInfo cqiList =>
      obtain ⟨scheduler, hscheduler, rfl⟩ := Option.map_eq_some_iff.mp hnext
      exact held.cqiInfo hscheduler
  | trigger dlInfoList =>
      obtain ⟨⟨after, elements⟩, hrun, rfl⟩ := Option.map_eq_some_iff.mp hnext
      obtain ⟨htracked, hlisted, hgiven⟩ :=
        trigger_tracked hblocks held.tracked held.listed hclear hrun
      exact ⟨htracked, hlisted, hgiven, held.given⟩

end Events

/--
While no timer expires on buffered PDUs and the feedback is clear, every busy
process is described by its last new transmission, and every new transmission is
on a process that was released for it.
-/
theorem harqBuffers_described (amc : LteAmc)
    (hblocks : ∀ mcs nprb, amc.getDlTbSizeFromMcs mcs nprb / 8 < 65536)
    (dlBandwidth cqiTimersThreshold : Nat) {events : List Event} {last : HarqRun}
    (htyped : ∀ event ∈ events, event.Typed)
    (hclear : Fitting (recordedStep amc) EventClear (.start dlBandwidth cqiTimersThreshold) events)
    (hrun : runFrom (recordedStep amc) (.start dlBandwidth cqiTimersThreshold) events =
      some last) :
    (∀ rnti ue, last.scheduler.ues rnti = some ue → ∀ process, ue.processesStatus process ≠ 0 →
      Describes (sentBy last.records) rnti ue process) ∧ Given last.records := by
  have held := invariant_of_fitting (recordedStep amc) HarqRun.Held
    (fun _ _ _ held hfits hnext => held.step hblocks hfits.1 hfits.2 hnext)
    (start_held dlBandwidth cqiTimersThreshold) (hclear.and_forall (recordedStep amc) htyped) hrun
  exact ⟨fun rnti ue hue => (held.tracked rnti ue hue).described, held.given⟩

/-! ## A cell of six resource blocks -/

/-- The blocks of the lowest MCS. -/
def smallCellAmc : LteAmc :=
  ⟨fun _ => 0, fun _ nprb => [16, 32, 56, 88, 120, 152].getD (nprb - 1) 0⟩

theorem smallCellAmc_blocks (mcs nprb : Nat) :
    smallCellAmc.getDlTbSizeFromMcs mcs nprb / 8 < 65536 := by
  have hle : [16, 32, 56, 88, 120, 152].getD (nprb - 1) 0 ≤ 152 := by
    rw [List.getD_eq_getElem?_getD]
    cases hentry : [16, 32, 56, 88, 120, 152][nprb - 1]? with
    | none => exact Nat.zero_le _
    | some size =>
        have hmem := List.mem_of_getElem? hentry
        simp only [List.mem_cons, List.not_mem_nil, or_false] at hmem
        rw [Option.getD_some]
        omega
  exact lt_of_le_of_lt (Nat.div_le_self _ _) (lt_of_le_of_lt hle (by decide))

def firstBlock : List Event :=
  [.configureUe 1 0, .rlcBuffer ⟨1, 3, 12, 0, 0⟩, .trigger []]

theorem harqBuffers_described_firstBlock :
    ∃ last, runFrom (recordedStep smallCellAmc) (.start 6 1000) firstBlock = some last ∧
      (∀ rnti ue, last.scheduler.ues rnti = some ue → ∀ process,
        ue.processesStatus process ≠ 0 → Describes (sentBy last.records) rnti ue process) ∧
      Given last.records := by
  obtain ⟨last, hlast⟩ := Option.isSome_iff_exists.mp
    (show (runFrom (recordedStep smallCellAmc) (.start 6 1000) firstBlock).isSome = true by
      decide +kernel)
  have htyped : ∀ event ∈ firstBlock, event.Typed := by
    simp [firstBlock, Event.Typed]
  have hclear : Fitting (recordedStep smallCellAmc) EventClear (.start 6 1000) firstBlock := by
    refine ⟨trivial, fun configured hconfigured => ⟨trivial, fun reported hreported => ⟨?_, fun _ _ =>
      trivial⟩⟩⟩
    obtain rfl := Option.some.inj hconfigured
    obtain rfl := Option.some.inj hreported
    refine ⟨fun rnti ue hue process htimeout => ?_, fun _ _ => trivial⟩
    change put (fun _ => none) 1 (some (UeHarq.fresh 0 processZero)) rnti = some ue at hue
    rw [put] at hue
    split at hue
    · obtain rfl := Option.some.inj hue
      cases htimeout
    · cases hue
  exact ⟨last, hlast, harqBuffers_described smallCellAmc smallCellAmc_blocks 6 1000 htyped hclear
    hlast⟩

/-- A full queue and no feedback: the thirteenth subframe finds the first process timed out. -/
def unanswered : List Event :=
  [.configureUe 1 0, .rlcBuffer ⟨1, 3, 1000, 0, 0⟩] ++ List.replicate 13 (.trigger [])

/-- The first process is busy with a new block, and holds the PDUs of two. -/
theorem not_describes_unanswered :
    ∃ last, runFrom (recordedStep smallCellAmc) (.start 6 1000) unanswered = some last ∧
      ∃ ue, last.scheduler.ues 1 = some ue ∧ ∃ process, ue.processesStatus process ≠ 0 ∧
        ¬ Describes (sentBy last.records) 1 ue process := by
  obtain ⟨last, hlast⟩ := Option.isSome_iff_exists.mp
    (show (runFrom (recordedStep smallCellAmc) (.start 6 1000) unanswered).isSome = true by
      decide +kernel)
  have hfound : ∀ last ∈ runFrom (recordedStep smallCellAmc) (.start 6 1000) unanswered,
      (last.scheduler.ues 1).isSome = true ∧ ∀ ue ∈ last.scheduler.ues 1,
        ue.processesStatus (nextProcess processZero) = 1 ∧
        (ue.processesRlcPduList 0 (nextProcess processZero)).length = 2 ∧
        ∀ found ∈ lastOn 1 (nextProcess processZero) (sentBy last.records),
          (found.1.layerPdus 0).length = 1 := by
    decide +kernel
  obtain ⟨hsome, hall⟩ := hfound last hlast
  obtain ⟨ue, hue⟩ := Option.isSome_iff_exists.mp hsome
  obtain ⟨hstatus, hlength, hsent⟩ := hall ue hue
  refine ⟨last, hlast, ue, hue, nextProcess processZero, by rw [hstatus]; decide, ?_⟩
  rintro ⟨new, again, hlastOn, hlists, -⟩
  have hone := hsent _ hlastOn
  rw [← hlists 0, hlength] at hone
  cases hone

end DeepcV2x.Lte.RoundRobin
