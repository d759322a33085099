import DeepcV2x.Lte.Grants

/-!
# Runs of the round-robin scheduler

The scheduler keeps distinct reports of configured UEs and well-formed stored
transmissions.  While every NACK below the limit finds its RBGs and no feedback
is passed over, each subframe is consistent.
-/

namespace DeepcV2x.Lte.RoundRobin

open DeepcV2x.Foundation.Marks
open DeepcV2x.Foundation.Runs

/-! ## A consistent subframe -/

/-- The data elements of a trigger against the state before and after it. -/
structure Consistent (before : RrFfMacScheduler) (dlInfoList : List DlInfoListElement)
    (after : RrFfMacScheduler) (elements : List BuildDataListElement) : Prop where
  oneEach : (elements.map fun element => element.rnti).Nodup
  inCell : ∀ rbgSize ∈ getRbgSize before.dlBandwidth, ∀ element ∈ elements,
    InCell (before.dlBandwidth / rbgSize) element.dci.rbBitmap
  disjoint : elements.Pairwise fun left right => left.dci.rbBitmap &&& right.dci.rbBitmap = 0
  fits : ∀ element ∈ elements, element.isNew = true → element.Fits
  queues : ∀ old ∈ before.rlcBufferReq, ∃ new ∈ after.rlcBufferReq,
    Lowers (grantedBytes elements old.rnti old.logicalChannelIdentity) old new
  nacks : ∀ info ∈ before.dlInfoListBuffered ++ dlInfoList, BelowLimit before info →
    ∃ stored ∈ storedDci before info,
      (∃! element, element ∈ elements ∧ Retransmits stored info element) ∧
          info ∉ after.dlInfoListBuffered ∨
        (∀ element ∈ elements, ¬ Retransmits stored info element) ∧
          info ∈ after.dlInfoListBuffered

/-! ## The conditions -/

/--
What a trigger meets.  Every feedback element names a process that was used, and
every NACK below the limit is retransmitted; then the new transmissions fit.
-/
def TriggerFits (amc : LteAmc) (before : RrFfMacScheduler)
    (dlInfoList : List DlInfoListElement) : Prop :=
  ∀ rbgSize ∈ getRbgSize before.dlBandwidth,
    Fitting processFeedback (FeedbackFits before) (openSubframe before rbgSize)
      (before.dlInfoListBuffered ++ dlInfoList) ∧
    ∀ served ∈ serveFeedback before rbgSize dlInfoList,
      served.rbgAllocatedNum ≠ served.rbgNum → TransmitFits amc rbgSize served.sorted

instance (amc : LteAmc) (before : RrFfMacScheduler) (dlInfoList : List DlInfoListElement) :
    Decidable (TriggerFits amc before dlInfoList) :=
  inferInstanceAs (Decidable (∀ rbgSize ∈ getRbgSize before.dlBandwidth,
    Fitting processFeedback (FeedbackFits before) (openSubframe before rbgSize)
      (before.dlInfoListBuffered ++ dlInfoList) ∧
    ∀ served ∈ serveFeedback before rbgSize dlInfoList,
      served.rbgAllocatedNum ≠ served.rbgNum → TransmitFits amc rbgSize served.sorted))

/-- A report with a CQI. -/
def CqiListElement.Measured : CqiListElement → Prop
  | .p10 _ wbCqi => wbCqi ≠ []
  | .other _ => True

instance : ∀ element : CqiListElement, Decidable element.Measured
  | .p10 _ wbCqi => inferInstanceAs (Decidable (wbCqi ≠ []))
  | .other _ => .isTrue trivial

/-- What each event meets: known transmission modes, reports of configured UEs. -/
def EventFits (amc : LteAmc) (scheduler : RrFfMacScheduler) : Event → Prop
  | .configureUe _ transmissionMode => transmissionMode ≤ 6
  | .rlcBuffer params => (scheduler.ues params.rnti).isSome
  | .cqiInfo cqiList => ∀ element ∈ cqiList, element.Measured
  | .trigger dlInfoList => TriggerFits amc scheduler dlInfoList
  | _ => True

instance (amc : LteAmc) (scheduler : RrFfMacScheduler) :
    ∀ event, Decidable (EventFits amc scheduler event)
  | .configureUe _ transmissionMode => inferInstanceAs (Decidable (transmissionMode ≤ 6))
  | .releaseUe _ => .isTrue trivial
  | .releaseLcs _ _ => .isTrue trivial
  | .rlcBuffer params => inferInstanceAs (Decidable ((scheduler.ues params.rnti).isSome = true))
  | .cqiInfo cqiList => inferInstanceAs (Decidable (∀ element ∈ cqiList, element.Measured))
  | .trigger dlInfoList => inferInstanceAs (Decidable (TriggerFits amc scheduler dlInfoList))

/-! ## The invariant -/

structure Sound (dlBandwidth rbgSize : Nat) (scheduler : RrFfMacScheduler) : Prop where
  cell : scheduler.dlBandwidth = dlBandwidth
  wellFormed : ∀ rnti ue, scheduler.ues rnti = some ue →
    ue.WellFormed (dlBandwidth / rbgSize)
  configured : ∀ req ∈ scheduler.rlcBufferReq, (scheduler.ues req.rnti).isSome
  keyed : (scheduler.rlcBufferReq.map SchedDlRlcBufferReq.key).Nodup
  noneKept : scheduler.dlInfoListBuffered = []

theorem start_sound (dlBandwidth rbgSize cqiTimersThreshold : Nat) :
    Sound dlBandwidth rbgSize (.start dlBandwidth cqiTimersThreshold) := by
  refine ⟨rfl, fun rnti ue hue => ?_, fun _ hmem => absurd hmem List.not_mem_nil,
    List.nodup_nil, rfl⟩
  cases hue

section Events

variable {dlBandwidth rbgSize : Nat} {scheduler : RrFfMacScheduler}

theorem Sound.configureUe (held : Sound dlBandwidth rbgSize scheduler) {rnti mode : Nat}
    (hmode : mode ≤ 6) : Sound dlBandwidth rbgSize (doCschedUeConfigReq scheduler rnti mode) := by
  have hput : ∀ ue : UeHarq, ue.WellFormed (dlBandwidth / rbgSize) →
      Sound dlBandwidth rbgSize { scheduler with ues := put scheduler.ues rnti (some ue) } := by
    intro ue hue
    refine ⟨held.cell, fun other found hfound => ?_, fun req hmem => ?_, held.keyed,
      held.noneKept⟩
    · simp only [put] at hfound
      split at hfound
      · cases hfound
        exact hue
      · exact held.wellFormed other found hfound
    · simp only [put]
      split
      · rfl
      · exact held.configured req hmem
  rw [doCschedUeConfigReq]
  cases hold : scheduler.ues rnti with
  | none => exact hput _ ⟨hmode, fun _ hused => absurd rfl hused⟩
  | some ue => exact hput _ ⟨hmode, (held.wellFormed rnti ue hold).stored⟩

theorem Sound.filter (held : Sound dlBandwidth rbgSize scheduler)
    (keeps : SchedDlRlcBufferReq → Bool) :
    Sound dlBandwidth rbgSize
      { scheduler with rlcBufferReq := scheduler.rlcBufferReq.filter keeps } :=
  ⟨held.cell, held.wellFormed,
    fun req hmem => held.configured req (List.mem_filter.mp hmem).1,
    held.keyed.sublist (List.filter_sublist.map _), held.noneKept⟩

theorem Sound.releaseUe (held : Sound dlBandwidth rbgSize scheduler) (rnti : Rnti) :
    Sound dlBandwidth rbgSize (doCschedUeReleaseReq scheduler rnti) := by
  have hfiltered := held.filter fun req => decide (req.rnti ≠ rnti)
  refine ⟨held.cell, fun other found hfound => ?_, fun req hmem => ?_, hfiltered.keyed,
    held.noneKept⟩
  · simp only [doCschedUeReleaseReq, put] at hfound
    split at hfound
    · cases hfound
    · exact held.wellFormed other found hfound
  · obtain ⟨hin, hne⟩ := List.mem_filter.mp hmem
    simp only [doCschedUeReleaseReq, put_other (of_decide_eq_true hne)]
    exact held.configured req hin

theorem Sound.rlcBuffer (held : Sound dlBandwidth rbgSize scheduler)
    {params : SchedDlRlcBufferReq} (hue : (scheduler.ues params.rnti).isSome) :
    Sound dlBandwidth rbgSize (doSchedDlRlcBufferReq scheduler params) := by
  have hfiltered := held.filter fun req =>
    decide (¬ req.Of params.rnti params.logicalChannelIdentity)
  refine ⟨held.cell, held.wellFormed, fun req hmem => ?_, ?_, held.noneKept⟩
  · rcases List.mem_append.mp hmem with hold | hlast
    · exact hfiltered.configured req hold
    · exact List.mem_singleton.mp hlast ▸ hue
  · simp only [doSchedDlRlcBufferReq, List.map_append, List.map_singleton]
    refine List.nodup_append.mpr ⟨hfiltered.keyed, List.nodup_singleton _, ?_⟩
    intro key hkey other hother same
    obtain ⟨req, hreq, rfl⟩ := List.mem_map.mp hkey
    have hnot := of_decide_eq_true (List.mem_filter.mp hreq).2
    rw [List.mem_singleton.mp hother] at same
    exact hnot ⟨congrArg Prod.fst same, congrArg Prod.snd same⟩

theorem Sound.cqiInfo (held : Sound dlBandwidth rbgSize scheduler)
    {cqiList : List CqiListElement} (hmeasured : ∀ element ∈ cqiList, element.Measured) :
    ∃ next, doSchedDlCqiInfoReq scheduler cqiList = some next ∧
      Sound dlBandwidth rbgSize next := by
  induction cqiList generalizing scheduler with
  | nil => exact ⟨scheduler, rfl, held⟩
  | cons element rest ih =>
      have hone : ∃ middle, cqiReported scheduler element = some middle ∧
          Sound dlBandwidth rbgSize middle := by
        have hfirst := hmeasured element List.mem_cons_self
        cases element with
        | other rnti => exact ⟨scheduler, rfl, held⟩
        | p10 rnti wbCqi =>
            cases wbCqi with
            | nil => exact absurd rfl hfirst
            | cons cqi more =>
                exact ⟨_, rfl, held.cell, held.wellFormed, held.configured, held.keyed,
                  held.noneKept⟩
      obtain ⟨middle, hmiddle, hsound⟩ := hone
      obtain ⟨next, hnext, hlast⟩ :=
        ih hsound fun other hmem => hmeasured other (List.mem_cons_of_mem _ hmem)
      refine ⟨next, ?_, hlast⟩
      rw [doSchedDlCqiInfoReq, List.foldlM_cons, hmiddle]
      exact hnext

end Events

/-! ## The trigger -/

section Trigger

variable {amc : LteAmc} {dlBandwidth rbgSize : Nat} {scheduler : RrFfMacScheduler}
  {dlInfoList : List DlInfoListElement} {served : Subframe}

theorem Spread.bitmaps_disjoint {rbgNum : Nat} {subframe : Subframe}
    (spread : Spread rbgNum subframe) (hnum : rbgNum ≤ 32) :
    subframe.buildDataList.Pairwise fun left right =>
      left.dci.rbBitmap &&& right.dci.rbBitmap = 0 := by
  refine (List.pairwise_map.mp spread.claims.apart).imp_of_mem fun hleft _ hdisjoint => ?_
  refine Nat.eq_of_testBit_eq fun rbg => ?_
  rw [Nat.testBit_and, Nat.zero_testBit, Bool.and_eq_false_iff]
  by_contra hboth
  obtain ⟨hone, htwo⟩ := not_or.mp hboth
  rw [Bool.not_eq_false] at hone htwo
  have hlt := lt_of_lt_of_le ((spread.inCell _ hleft).lt hone) hnum
  exact hdisjoint (mem_rbgsOf.mpr ⟨hlt, hone⟩) (mem_rbgsOf.mpr ⟨hlt, htwo⟩)

theorem Serving.rlcBufferReq_eq {rbgNum : Nat} {past : List DlInfoListElement}
    (held : Serving rbgNum scheduler past served) :
    served.scheduler.rlcBufferReq = scheduler.rlcBufferReq := by
  rw [held.others]
  rfl

theorem Serving.dlBandwidth_eq {rbgNum : Nat} {past : List DlInfoListElement}
    (held : Serving rbgNum scheduler past served) :
    served.scheduler.dlBandwidth = scheduler.dlBandwidth := by
  rw [held.others]
  rfl

/-- The sorted reports start the new transmissions. -/
theorem Serving.sorted_spread {rbgNum : Nat} {past : List DlInfoListElement}
    (held : Serving rbgNum scheduler past served) : Spread rbgNum served.sorted :=
  ⟨held.spread.rbgNum_eq, held.spread.length_eq, held.spread.claims, held.spread.counted,
    held.spread.inCell⟩

theorem sorted_perm (subframe : Subframe) :
    subframe.sorted.scheduler.rlcBufferReq.Perm subframe.scheduler.rlcBufferReq :=
  List.perm_insertionSort _ _

theorem sorted_sortedByRnti (subframe : Subframe) :
    SortedByRnti subframe.sorted.scheduler.rlcBufferReq := by
  have htotal : Std.Total fun left right : SchedDlRlcBufferReq => left.rnti ≤ right.rnti :=
    ⟨fun left right => Nat.le_total left.rnti right.rnti⟩
  have htrans : IsTrans SchedDlRlcBufferReq fun left right => left.rnti ≤ right.rnti :=
    ⟨fun _ _ _ => Nat.le_trans⟩
  exact List.pairwise_insertionSort _ _

/-- A subframe of retransmissions and new transmissions is consistent. -/
theorem consistent_of_granting {shares : Shares} {granted : List Rnti} {last : Subframe}
    {after : RrFfMacScheduler} (hsize : getRbgSize scheduler.dlBandwidth = some rbgSize)
    (held : Serving (scheduler.dlBandwidth / rbgSize) scheduler
      (scheduler.dlInfoListBuffered ++ dlInfoList) served)
    (hgranting : Granting (scheduler.dlBandwidth / rbgSize) shares served.sorted granted last)
    (hkept : after.dlInfoListBuffered = [])
    (hqueues : ∀ old ∈ scheduler.rlcBufferReq, ∃ new ∈ after.rlcBufferReq,
      Lowers (grantedBytes last.buildDataList old.rnti old.logicalChannelIdentity) old new) :
    Consistent scheduler dlInfoList after last.buildDataList := by
  have hnum := (rbgNum_lt hsize).le
  obtain ⟨fresh, hlist, hrntis, hfresh⟩ := hgranting.elements
  have hone : (last.buildDataList.map fun element => element.rnti).Nodup := by
    rw [hlist, List.map_append, hrntis]
    refine List.nodup_append.mpr ⟨?_, hgranting.oneEach, ?_⟩
    · exact held.allocated ▸ List.nodup_reverse.mpr held.oneEach
    · intro earlier hearlier later hlater same
      have hin : earlier ∈ served.rntiAllocated := by
        have hmem : earlier ∈ served.buildDataList.map fun element => element.rnti := hearlier
        rw [held.allocated] at hmem
        exact List.mem_reverse.mp hmem
      exact hgranting.apart later hlater (same ▸ hin)
  refine ⟨hone, fun size hother element hmem => ?_, hgranting.spread.bitmaps_disjoint hnum,
    fun element hmem hnew => ?_, hqueues, fun info hmem hbelow => ?_⟩
  · obtain rfl : rbgSize = size := Option.some.inj (hsize.symm.trans hother)
    exact hgranting.spread.inCell element hmem
  · rw [hlist] at hmem
    rcases List.mem_append.mp hmem with hold | hin
    · have hzero := held.repeated element hold
      rw [BuildDataListElement.isNew, hzero] at hnew
      simp at hnew
    · exact (hfresh element hin).2
  · obtain ⟨stored, hstored, element, helement, hagain⟩ := held.answered info hmem hbelow
    refine ⟨stored, hstored, Or.inl ⟨⟨element, ⟨?_, hagain⟩, ?_⟩, ?_⟩⟩
    · rw [hlist]
      exact List.mem_append_left _ helement
    · intro other hother
      have hin : element ∈ last.buildDataList := by
        rw [hlist]
        exact List.mem_append_left _ helement
      exact List.inj_on_of_nodup_map hone hother.1 hin (hother.2.rnti.trans hagain.rnti.symm)
    · rw [hkept]
      exact List.not_mem_nil

/-- A trigger that fits succeeds, is consistent and keeps the invariant. -/
theorem Sound.trigger (hsize : getRbgSize dlBandwidth = some rbgSize)
    (held : Sound dlBandwidth rbgSize scheduler) (hfits : TriggerFits amc scheduler dlInfoList) :
    ∃ after elements, doSchedDlTriggerReq amc scheduler dlInfoList = some (after, elements) ∧
      Consistent scheduler dlInfoList after elements ∧ Sound dlBandwidth rbgSize after := by
  obtain rfl := held.cell
  obtain ⟨hfeedback, htransmit⟩ := hfits rbgSize hsize
  obtain ⟨served, hserved, hserving⟩ := serveFeedback_serving hsize held.wellFormed hfeedback
  have hreqs := hserving.rlcBufferReq_eq
  have hperm := sorted_perm served
  have hconfigured : ∀ req ∈ served.sorted.scheduler.rlcBufferReq,
      (served.sorted.scheduler.ues req.rnti).isSome := fun req hmem =>
    (hserving.configured req.rnti).trans
      (held.configured req (hreqs ▸ hperm.mem_iff.mp hmem))
  have hkeyed : (served.sorted.scheduler.rlcBufferReq.map SchedDlRlcBufferReq.key).Nodup :=
    (hperm.map _).nodup_iff.mpr (hreqs.symm ▸ held.keyed)
  by_cases hfull : served.rbgAllocatedNum = served.rbgNum
  · refine ⟨{ served.scheduler with dlInfoListBuffered := served.untxed }, served.buildDataList,
      by simp [doSchedDlTriggerReq, hsize, hserved, hfull], ?_, ?_⟩
    · refine @consistent_of_granting _ _ _ served ⟨amc, rbgSize, 0, []⟩ [] served.sorted _ hsize
        hserving (Granting.start hserving.sorted_spread hserving.wellFormed) hserving.untxed ?_
      intro old hmem
      exact ⟨old, hreqs.symm ▸ hmem, Lowers.refl _ _⟩
    · refine ⟨?_, hserving.wellFormed, fun req hmem => ?_, hreqs.symm ▸ held.keyed,
        hserving.untxed⟩
      · exact hserving.dlBandwidth_eq
      · exact (hserving.configured req.rnti).trans (held.configured req (hreqs ▸ hmem))
  · obtain ⟨shares, granted, last, nextRntiDl, hgranting, hlast⟩ := transmitNew_granting
      (rbgNum_lt hsize).le hserving.sorted_spread hserving.wellFormed hconfigured hkeyed
      (sorted_sortedByRnti served) hfull (htransmit served hserved hfull)
    refine ⟨{ last.scheduler with nextRntiDl := nextRntiDl }, last.buildDataList,
      by simp [doSchedDlTriggerReq, hsize, hserved, hfull, hlast], ?_, ?_⟩
    · refine consistent_of_granting hsize hserving hgranting ?_ ?_
      · exact (congrArg RrFfMacScheduler.dlInfoListBuffered hgranting.others).trans hserving.untxed
      · intro old hmem
        obtain ⟨place, hplace⟩ := List.mem_iff_getElem?.mp (hperm.mem_iff.mpr (hreqs.symm ▸ hmem))
        obtain ⟨new, hnew, -⟩ := rnti_at hgranting.rntis.symm hplace
        exact ⟨new, List.mem_of_getElem? hnew, hgranting.lowered place old new hplace hnew⟩
    · refine ⟨?_, hgranting.wellFormed, fun req hmem => ?_, hgranting.keyed ▸ hkeyed, ?_⟩
      · exact (congrArg RrFfMacScheduler.dlBandwidth hgranting.others).trans
          hserving.dlBandwidth_eq
      · obtain ⟨place, hplace⟩ := List.mem_iff_getElem?.mp hmem
        obtain ⟨old, hold, hrnti⟩ := rnti_at hgranting.rntis hplace
        exact (hgranting.configured req.rnti).trans
          (hrnti ▸ hconfigured old (List.mem_of_getElem? hold))
      · exact (congrArg RrFfMacScheduler.dlInfoListBuffered hgranting.others).trans hserving.untxed

end Trigger

/-- Every event that fits is enabled and keeps the invariant. -/
theorem Sound.step {amc : LteAmc} {dlBandwidth rbgSize : Nat} {scheduler : RrFfMacScheduler}
    (hsize : getRbgSize dlBandwidth = some rbgSize) (held : Sound dlBandwidth rbgSize scheduler)
    {event : Event} (hfits : EventFits amc scheduler event) :
    ∃ next, RoundRobin.step amc scheduler event = some next ∧
      Sound dlBandwidth rbgSize next := by
  cases event with
  | configureUe rnti mode => exact ⟨_, rfl, held.configureUe hfits⟩
  | releaseUe rnti => exact ⟨_, rfl, held.releaseUe rnti⟩
  | releaseLcs rnti lcids => exact ⟨_, rfl, held.filter _⟩
  | rlcBuffer params => exact ⟨_, rfl, held.rlcBuffer hfits⟩
  | cqiInfo cqiList => exact held.cqiInfo hfits
  | trigger dlInfoList =>
      obtain ⟨after, elements, hrun, -, hsound⟩ := held.trigger hsize hfits
      exact ⟨after, by rw [RoundRobin.step, hrun]; rfl, hsound⟩

/--
In every run whose events meet their conditions every trigger succeeds and its
subframe is consistent.
-/
theorem allocations_consistent (amc : LteAmc) {dlBandwidth rbgSize : Nat}
    (hsize : getRbgSize dlBandwidth = some rbgSize) (cqiTimersThreshold : Nat)
    {events : List Event}
    (hfits : Fitting (step amc) (EventFits amc) (.start dlBandwidth cqiTimersThreshold) events) :
    (∃ last, runFrom (step amc) (.start dlBandwidth cqiTimersThreshold) events = some last) ∧
      ∀ before dlInfoList after, events = before ++ .trigger dlInfoList :: after →
        ∃ scheduler next elements,
          runFrom (step amc) (.start dlBandwidth cqiTimersThreshold) before = some scheduler ∧
            doSchedDlTriggerReq amc scheduler dlInfoList = some (next, elements) ∧
            Consistent scheduler dlInfoList next elements := by
  have hstart := start_sound dlBandwidth rbgSize cqiTimersThreshold
  have hstep : ∀ state event, Sound dlBandwidth rbgSize state → EventFits amc state event →
      ∃ next, step amc state event = some next ∧ Sound dlBandwidth rbgSize next :=
    fun _ _ held hfit => held.step hsize hfit
  constructor
  · obtain ⟨last, hrun, -⟩ := exists_run_of_fitting (step amc) _ hstep hstart hfits
    exact ⟨last, hrun⟩
  · rintro before dlInfoList after rfl
    obtain ⟨scheduler, hrun, held, hfit⟩ := exists_state_of_fitting (step amc) _ hstep hstart hfits
    obtain ⟨next, elements, htrigger, hconsistent, -⟩ := held.trigger hsize hfit
    exact ⟨scheduler, next, elements, hrun, htrigger, hconsistent⟩

/-! ## Two retransmissions on the same RBGs -/

/-- One byte for each two resource blocks. -/
def sampleAmc : LteAmc := ⟨fun _ => 0, fun _ nprb => 16 * nprb⟩

/-- Two UEs get all RBGs of a small cell, one subframe after the other. -/
def wholeCellTwice : List Event :=
  [.configureUe 1 0, .configureUe 2 0, .rlcBuffer ⟨1, 3, 12, 0, 0⟩, .trigger [],
    .rlcBuffer ⟨1, 3, 0, 0, 0⟩, .rlcBuffer ⟨2, 3, 12, 0, 0⟩, .trigger []]

/-- Then one of them, or both, ask for a retransmission. -/
def firstNack : List DlInfoListElement := [⟨1, 1, [.nack]⟩, ⟨2, 1, [.ack]⟩]

def bothNacks : List DlInfoListElement := [⟨1, 1, [.nack]⟩, ⟨2, 1, [.nack]⟩]

theorem allocations_consistent_firstNack :
    Fitting (step sampleAmc) (EventFits sampleAmc) (.start 6 1000)
        (wholeCellTwice ++ [.trigger firstNack]) ∧
      ∃ scheduler next elements,
        runFrom (step sampleAmc) (.start 6 1000) wholeCellTwice = some scheduler ∧
          doSchedDlTriggerReq sampleAmc scheduler firstNack = some (next, elements) ∧
          Consistent scheduler firstNack next elements := by
  have hfits : Fitting (step sampleAmc) (EventFits sampleAmc) (.start 6 1000)
      (wholeCellTwice ++ [.trigger firstNack]) := by decide +kernel
  have hsize : getRbgSize 6 = some 1 := by decide
  exact ⟨hfits, (allocations_consistent sampleAmc hsize 1000 hfits).2 _ _ _ rfl⟩

/-- Both NACKs are sent on the RBGs of the whole cell. -/
theorem allocations_inconsistent :
    ∃ scheduler next elements,
      runFrom (step sampleAmc) (.start 6 1000) wholeCellTwice = some scheduler ∧
        (∀ info ∈ bothNacks, NamesUsed scheduler info) ∧
        doSchedDlTriggerReq sampleAmc scheduler bothNacks = some (next, elements) ∧
        ¬ Consistent scheduler bothNacks next elements := by
  obtain ⟨scheduler, hrun⟩ : ∃ scheduler,
      runFrom (step sampleAmc) (.start 6 1000) wholeCellTwice = some scheduler :=
    Option.isSome_iff_exists.mp (by decide +kernel)
  have hnames : ∀ found ∈ runFrom (step sampleAmc) (.start 6 1000) wholeCellTwice,
      ∀ info ∈ bothNacks, NamesUsed found info := by decide +kernel
  have hbitmaps : ∀ found ∈ runFrom (step sampleAmc) (.start 6 1000) wholeCellTwice,
      (doSchedDlTriggerReq sampleAmc found bothNacks).map
        (fun result => result.2.map fun element => element.dci.rbBitmap) = some [63, 63] := by
    decide +kernel
  obtain ⟨⟨next, elements⟩, htrigger, hsent⟩ := Option.map_eq_some_iff.mp (hbitmaps scheduler hrun)
  refine ⟨scheduler, next, elements, hrun, hnames scheduler hrun, htrigger, fun hconsistent => ?_⟩
  have hapart : (elements.map fun element => element.dci.rbBitmap).Pairwise
      fun left right => left &&& right = 0 := List.pairwise_map.mpr hconsistent.disjoint
  rw [hsent] at hapart
  revert hapart
  decide

end DeepcV2x.Lte.RoundRobin
