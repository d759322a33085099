import DeepcV2x.Lte.HarqTracking
import Mathlib.Data.List.TakeWhile

/-!
# The buffers through one trigger

The feedback is served first and adds retransmissions only; then every turn of the
round robin takes a free process.  A UE never has more channels with data than its
share was divided by, so the PDUs of a new transmission fit its transport block.
-/

namespace DeepcV2x.Lte.RoundRobin

open DeepcV2x.Foundation.Association
open DeepcV2x.Foundation.Loops
open DeepcV2x.Foundation.Runs

/-! ## The feedback -/

/-- A process that was released in this trigger, or before it. -/
def FreeFor (before : RrFfMacScheduler) (infos : List DlInfoListElement) (older : List Record)
    (rnti : Rnti) (process : HarqProcess) : Prop :=
  Released before infos rnti process ∨ Available rnti process older

/-- What holds while the feedback of a trigger is served. -/
structure Answering (before : RrFfMacScheduler) (infos : List DlInfoListElement)
    (older : List Record) (subframe : Subframe) : Prop where
  tracked : ∀ rnti ue, subframe.scheduler.ues rnti = some ue →
    Tracked (sentBy older ++ subframe.buildDataList) (FreeFor before infos older rnti) rnti ue
  kept : ∀ rnti ue, rnti ∉ subframe.rntiAllocated → subframe.scheduler.ues rnti = some ue →
    ∃ old, before.ues rnti = some old ∧ ue.processesDci = old.processesDci
  repeated : ∀ element ∈ subframe.buildDataList, element.isNew = false
  reqs : subframe.scheduler.rlcBufferReq = before.rlcBufferReq

theorem openSubframe_answering {before : RrFfMacScheduler} (infos : List DlInfoListElement)
    {older : List Record} (rbgSize : Nat)
    (htracked : ∀ rnti ue, before.ues rnti = some ue →
      Tracked (sentBy older) (fun process => Available rnti process older) rnti ue)
    (hclear : ClearedInTime before) :
    Answering before infos older (openSubframe before rbgSize) where
  tracked rnti ue hue := by
    obtain ⟨old, hold, rfl⟩ := Option.map_eq_some_iff.mp hue
    change Tracked (sentBy older ++ []) _ rnti _
    rw [List.append_nil]
    refine ((htracked rnti old hold).refresh (hclear rnti old hold)).mono fun process hfree => ?_
    exact hfree.imp (fun htimeout => .inl ⟨old, hold, htimeout⟩) id
  kept rnti ue _ hue := by
    obtain ⟨old, hold, rfl⟩ := Option.map_eq_some_iff.mp hue
    exact ⟨old, hold, rfl⟩
  repeated _ hmem := absurd hmem List.not_mem_nil
  reqs := rfl

theorem retxOf_nacks {harqStatus : List HarqStatus} {retx : List Bool}
    (hretx : retxOf harqStatus = some retx) :
    0 < harqStatus.length ∧ (true ∈ retx ↔ HarqStatus.nack ∈ harqStatus.take 2) ∧
      ∀ layer < 2, retx[layer]? ≠ some true → harqStatus[layer]? ≠ some .nack := by
  cases harqStatus with
  | nil => cases hretx
  | cons first rest =>
      cases rest with
      | nil =>
          obtain rfl := Option.some.inj hretx
          refine ⟨Nat.one_pos, by simp [eq_comm], fun layer hlayer hnot hnack => hnot ?_⟩
          obtain rfl | rfl : layer = 0 ∨ layer = 1 := by omega
          · simpa using hnack
          · cases hnack
      | cons second rest =>
          obtain rfl := Option.some.inj hretx
          refine ⟨Nat.succ_pos _, by simp [eq_comm], fun layer hlayer hnot hnack => hnot ?_⟩
          obtain rfl | rfl : layer = 0 ∨ layer = 1 := by omega
          · simpa using hnack
          · simpa using hnack

section Feedback

variable {before : RrFfMacScheduler} {infos : List DlInfoListElement} {older : List Record}
  {subframe next : Subframe}

/-- A UE is replaced by one that is tracked with the elements so far. -/
theorem Answering.free (held : Answering before infos older subframe) {rnti : Rnti} {ue : UeHarq}
    (hue : subframe.scheduler.ues rnti = some ue) {process : HarqProcess}
    (hfree : FreeFor before infos older rnti process) :
    Answering before infos older
      { subframe with scheduler := subframe.scheduler.withUe rnti (ue.freeProcess process) } where
  tracked other found hfound := by
    simp only [RrFfMacScheduler.withUe, put] at hfound
    split at hfound
    · next same =>
        subst same
        obtain rfl := Option.some.inj hfound
        exact (held.tracked other ue hue).freeProcess hfree
    · exact held.tracked other found hfound
  kept other found hother hfound := by
    simp only [RrFfMacScheduler.withUe, put] at hfound
    split at hfound
    · next same =>
        subst same
        obtain rfl := Option.some.inj hfound
        exact held.kept other ue hother hue
    · exact held.kept other found hother hfound
  repeated := held.repeated
  reqs := held.reqs

/-- A NACK below the limit. -/
theorem Answering.retransmit (held : Answering before infos older subframe)
    {info : DlInfoListElement} {ue : UeHarq} {process : HarqProcess} {retx : List Bool}
    (hue : subframe.scheduler.ues info.rnti = some ue)
    (hprocess : processAt info.harqProcessId = some process)
    (hretx : retxOf info.harqStatus = some retx) (hnack : true ∈ retx)
    (hused : (ue.processesDci process).rv ≠ [])
    (hbelow : rvOf (ue.processesDci process).rv ≠ some 3)
    (hclear : HarqStatus.nack ∈ info.harqStatus.take 2 →
      ∀ dci ∈ storedDci subframe.scheduler info, ∀ layer < info.harqStatus.length,
        info.harqStatus[layer]? ≠ some .nack → entryAt dci.rv layer = 0)
    (hnext : RoundRobin.retransmit subframe info ue process retx = some next) :
    Answering before infos older next := by
  simp only [RoundRobin.retransmit, Option.bind_eq_bind, Option.bind_eq_some_iff] at hnext
  obtain ⟨placement, -, dci, hdci, pduProcess, -, rlcPduList, -, hnext⟩ := hnext
  obtain rfl := Option.some.inj hnext
  obtain ⟨hpositive, hnacks, hlayers⟩ := retxOf_nacks hretx
  have tracked := held.tracked info.rnti ue hue
  have shaped := tracked.shaped process hused
  have hstart : Relayered retx { ue.processesDci process with rbBitmap := placement.rbBitmap } 0
      { ue.processesDci process with rbBitmap := placement.rbBitmap } := by
    refine ⟨rfl, Nat.zero_le _, fun _ hother => absurd hother (Nat.not_lt_zero _),
      fun _ _ => rfl, fun other => ?_⟩
    rw [if_neg fun hboth => Nat.not_lt_zero _ hboth.1]
  have hrelayered := hstart.layers hdci
  rw [Nat.zero_add] at hrelayered
  have hleft : ∀ layer < info.harqStatus.length, retx[layer]? ≠ some true →
      entryAt (ue.processesDci process).rv layer = 0 := by
    intro layer hlayer hnot
    rcases Nat.lt_or_ge layer 2 with hlow | hhigh
    · exact hclear (hnacks.mp hnack) _ (storedDci_eq hue hprocess) layer hlayer
        (hlayers layer hlow hnot)
    · exact shaped.versions layer (Nat.le_trans shaped.layers hhigh)
  have hold : (BuildDataListElement.mk info.rnti dci rlcPduList).isNew = false := by
    rw [BuildDataListElement.isNew, List.head?_eq_getElem?, hrelayered.below 0 hpositive]
    rfl
  constructor
  · intro other found hfound
    change Tracked (sentBy older ++ (subframe.buildDataList ++ [⟨info.rnti, dci, rlcPduList⟩])) _
      other found
    rw [← List.append_assoc]
    simp only [RrFfMacScheduler.withUe, put] at hfound
    split at hfound
    · next same =>
        subst same
        obtain rfl := Option.some.inj hfound
        exact tracked.retransmitted hused hrelayered hpositive hbelow hleft rlcPduList
    · next hne => exact (held.tracked other found hfound).other fun same => hne same.symm
  · intro other found hother hfound
    obtain ⟨hne, hnot⟩ := not_or.mp fun hmem => hother (List.mem_cons.mpr hmem)
    simp only [RrFfMacScheduler.withUe, put_other hne] at hfound
    exact held.kept other found hnot hfound
  · intro element hmem
    rcases List.mem_append.mp hmem with hearlier | hlast
    · exact held.repeated element hearlier
    · exact List.mem_singleton.mp hlast ▸ hold
  · exact held.reqs

/-- One feedback element. -/
theorem Answering.step (held : Answering before infos older subframe) {info : DlInfoListElement}
    (hmem : info ∈ infos) (hclear : FeedbackClear subframe info)
    (hnext : processFeedback subframe info = some next) : Answering before infos older next := by
  rw [processFeedback] at hnext
  by_cases hallocated : info.rnti ∈ subframe.rntiAllocated
  · rw [if_pos hallocated] at hnext
    exact Option.some.inj hnext ▸ held
  rw [if_neg hallocated] at hnext
  obtain ⟨hanswer, hleft⟩ := hclear.resolve_left hallocated
  simp only [Option.bind_eq_bind, Option.bind_eq_some_iff] at hnext
  obtain ⟨retx, hretx, ue, hue, process, hprocess, hnext⟩ := hnext
  obtain ⟨hpositive, hnacks, -⟩ := retxOf_nacks hretx
  by_cases hnack : true ∈ retx
  · rw [if_pos hnack] at hnext
    obtain ⟨version, hversion, hnext⟩ := Option.bind_eq_some_iff.mp hnext
    by_cases hlimit : version = 3
    · rw [if_pos hlimit] at hnext
      obtain rfl := Option.some.inj hnext
      obtain ⟨old, hold, hdcis⟩ := held.kept info.rnti ue hallocated hue
      refine held.free hue (.inl (.inr ⟨info, hmem, rfl, hprocess, .inr ⟨?_, ?_⟩⟩))
      · exact List.mem_of_mem_take (hnacks.mp hnack)
      · refine ⟨_, storedDci_eq hold hprocess, ?_⟩
        rw [← hdcis, hversion, hlimit]
    · rw [if_neg hlimit] at hnext
      have hused : (ue.processesDci process).rv ≠ [] := by
        intro hempty
        rw [hempty] at hversion
        cases hversion
      have hbelow : rvOf (ue.processesDci process).rv ≠ some 3 := by
        rw [hversion]
        exact fun hthree => hlimit (Option.some.inj hthree)
      exact held.retransmit hue hprocess hretx hnack hused hbelow hleft hnext
  · rw [if_neg hnack] at hnext
    obtain rfl := Option.some.inj hnext
    exact held.free hue (.inl (.inr ⟨info, hmem, rfl, hprocess,
      .inl (hanswer fun hin => hnack (hnacks.mpr hin))⟩))

/-- All feedback of a trigger. -/
theorem Answering.serve (held : Answering before infos older subframe)
    {rest : List DlInfoListElement} (hrest : ∀ info ∈ rest, info ∈ infos)
    (hfits : Fitting processFeedback FeedbackClear subframe rest)
    (hserved : runFrom processFeedback subframe rest = some next) :
    Answering before infos older next := by
  have hboth := hfits.and_forall processFeedback hrest
  exact invariant_of_fitting processFeedback (Answering before infos older)
    (fun _ _ _ held hfits hstep => held.step hfits.1 hfits.2 hstep) held hboth hserved

end Feedback

/-! ## The channels with data -/

/-- Reports of distinct channels, whose identities are bytes. -/
structure Listed (reqs : List SchedDlRlcBufferReq) : Prop where
  keyed : (reqs.map SchedDlRlcBufferReq.key).Nodup
  small : ∀ key ∈ reqs.map SchedDlRlcBufferReq.key, key.2 < 256

/-- The channels of a UE that have data. -/
def dataCount (rnti : Rnti) (reqs : List SchedDlRlcBufferReq) : Nat :=
  reqs.countP fun req => decide (req.rnti = rnti) && req.hasData

theorem Listed.dataCount_le {reqs : List SchedDlRlcBufferReq} (listed : Listed reqs)
    (rnti : Rnti) : dataCount rnti reqs ≤ 256 := by
  rw [dataCount, List.countP_eq_length_filter]
  have hsub := (List.filter_sublist
    (p := fun req : SchedDlRlcBufferReq => decide (req.rnti = rnti) && req.hasData)
    (l := reqs)).map SchedDlRlcBufferReq.key
  have hof : ∀ key ∈ (reqs.filter fun req => decide (req.rnti = rnti) && req.hasData).map
      SchedDlRlcBufferReq.key, key.1 = rnti := by
    intro key hkey
    obtain ⟨req, hreq, rfl⟩ := List.mem_map.mp hkey
    exact of_decide_eq_true ((Bool.and_eq_true_iff).mp (List.mem_filter.mp hreq).2).1
  have hlcids := (listed.keyed.sublist hsub).map_on fun left hleft right hright hsame =>
    Prod.ext ((hof left hleft).trans (hof right hright).symm) hsame
  have hrange : ((reqs.filter fun req => decide (req.rnti = rnti) && req.hasData).map
      SchedDlRlcBufferReq.key).map Prod.snd ⊆ List.range 256 := by
    intro lcid hlcid
    obtain ⟨key, hkey, rfl⟩ := List.mem_map.mp hlcid
    exact List.mem_range.mpr (listed.small key (hsub.subset hkey))
  have hlength := (List.subperm_of_subset hlcids hrange).length_le
  rw [List.length_map, List.length_map, List.length_range] at hlength
  exact hlength

theorem served_hasData {req : SchedDlRlcBufferReq} {size : Nat}
    (hdata : (req.served size).hasData = true) : req.hasData = true := by
  rw [SchedDlRlcBufferReq.served] at hdata
  simp only [SchedDlRlcBufferReq.hasData, Bool.or_eq_true, decide_eq_true_eq] at hdata ⊢
  split at hdata
  · next hstatus => exact .inr hstatus.1
  · split at hdata
    · next hretx => exact .inl (.inr hretx.1)
    · split at hdata
      · next htx => exact .inl (.inl htx)
      · exact hdata

/-- An update gives no channel data. -/
theorem dataCount_updateDlRlcBufferInfo_le (rnti other lcid size : Nat)
    (reqs : List SchedDlRlcBufferReq) :
    dataCount rnti (updateDlRlcBufferInfo other lcid size reqs) ≤ dataCount rnti reqs := by
  induction reqs with
  | nil => exact Nat.le_refl _
  | cons req rest ih =>
      rw [updateDlRlcBufferInfo]
      split
      · rw [dataCount, dataCount, List.countP_cons, List.countP_cons]
        refine Nat.add_le_add_left ?_ _
        have hrnti : (req.served size).rnti = req.rnti :=
          congrArg Prod.fst (served_key req size)
        by_cases hserved : (decide ((req.served size).rnti = rnti) &&
            (req.served size).hasData) = true
        · have hboth := Bool.and_eq_true_iff.mp hserved
          rw [if_pos hserved, if_pos (Bool.and_eq_true_iff.mpr
            ⟨hrnti ▸ hboth.1, served_hasData hboth.2⟩)]
        · rw [if_neg hserved]
          exact Nat.zero_le _
      · rw [dataCount, dataCount, List.countP_cons, List.countP_cons]
        exact Nat.add_le_add_right ih _

theorem dataCount_iterate_le (rnti other lcid size times : Nat)
    (reqs : List SchedDlRlcBufferReq) :
    dataCount rnti ((updateDlRlcBufferInfo other lcid size)^[times] reqs) ≤
      dataCount rnti reqs := by
  induction times with
  | zero => exact Nat.le_refl _
  | succ times ih =>
      rw [Function.iterate_succ_apply']
      exact (dataCount_updateDlRlcBufferInfo_le _ _ _ _ _).trans ih

theorem dataCount_grantChannels_le (rnti : Rnti) (nLayer size : Nat) {left place : Nat}
    {channels : ChannelLoop} :
    dataCount rnti (grantChannels nLayer size left place channels).rlcBufferReq ≤
      dataCount rnti channels.rlcBufferReq := by
  induction left generalizing place channels with
  | zero => exact Nat.le_refl _
  | succ left ih =>
      rw [grantChannels]
      split
      · exact Nat.le_refl _
      · refine ih.trans ?_
        rw [grantChannel]
        split
        · exact dataCount_iterate_le _ _ _ _ _ _
        · exact Nat.le_refl _

/-- The channels with data in a turn are channels of the UE. -/
theorem turnChannels_length_le (reqs : List SchedDlRlcBufferReq) (rnti : Rnti) (place : Nat) :
    ((turnChannels reqs rnti place).filter fun req => req.hasData).length ≤
      dataCount rnti reqs := by
  have hturn : turnChannels reqs rnti place =
      (reqs.drop place).takeWhile fun req => decide (req.rnti = rnti) := by
    rw [turnChannels, groupEnd, Nat.add_sub_cancel_left]
    exact (List.prefix_iff_eq_take.mp (List.takeWhile_prefix _)).symm
  have hsub : ((reqs.drop place).takeWhile fun req => decide (req.rnti = rnti)).Sublist reqs :=
    (List.takeWhile_sublist _).trans (List.drop_sublist _ _)
  rw [hturn, ← List.countP_eq_length_filter]
  refine Nat.le_trans (Nat.le_of_eq (List.countP_congr fun req hreq => ?_)) hsub.countP_le
  have hof := @List.mem_takeWhile_imp _ _ _ _ hreq
  rw [hof, Bool.true_and]

/-- The table counts modulo 256. -/
theorem lcActives_count {subframe : Subframe} {reqs : List SchedDlRlcBufferReq}
    {table actives : Table Rnti Nat} (hactives : lcActives subframe reqs table = some actives)
    (hsmall : ∀ rnti, (lookup rnti table).getD 0 < 256) (rnti : Rnti) :
    (lookup rnti actives).getD 0 =
      ((lookup rnti table).getD 0 + activeCount subframe rnti reqs) % 256 := by
  induction reqs generalizing table with
  | nil =>
      obtain rfl := Option.some.inj hactives
      exact (Nat.mod_eq_of_lt (hsmall rnti)).symm
  | cons req rest ih =>
      obtain ⟨active, hactive, hrest⟩ := Option.bind_eq_some_iff.mp hactives
      have hsplit : activeCount subframe rnti (req :: rest) =
          activeCount subframe rnti rest + if req.rnti = rnti ∧ active = true then 1 else 0 := by
        simp [activeCount, List.countP_cons, hactive]
      cases active with
      | false =>
          rw [ih hrest hsmall, hsplit]
          simp
      | true =>
          have hvalue : ∀ other, (lookup other (upsert req.rnti countActive table)).getD 0 =
              ((lookup other table).getD 0 + if req.rnti = other then 1 else 0) % 256 := by
            intro other
            rw [lookup_upsert]
            by_cases same : other = req.rnti
            · subst same
              cases lookup req.rnti table with
              | none => simp [countActive]
              | some count => simp [countActive]
            · rw [if_neg same, if_neg fun h => same h.symm, Nat.add_zero,
                Nat.mod_eq_of_lt (hsmall other)]
          rw [ih hrest fun other => hvalue other ▸ Nat.mod_lt _ (by decide), hvalue, hsplit,
            Nat.mod_add_mod]
          simp only [and_true]
          congr 1
          omega

/-- A share that is not 0 counts all channels with data. -/
theorem dataCount_le_of_lookup {subframe : Subframe} {reqs : List SchedDlRlcBufferReq}
    (listed : Listed reqs) {actives : Table Rnti Nat}
    (hactives : lcActives subframe reqs [] = some actives) {rnti : Rnti} {lcNum : Nat}
    (hlookup : lookup rnti actives = some lcNum) (hpositive : lcNum ≠ 0) :
    dataCount rnti reqs ≤ lcNum := by
  have hcount := lcActives_count hactives (fun _ => Nat.zero_lt_succ _) rnti
  rw [hlookup] at hcount
  simp only [Option.getD_some, lookup, Option.getD_none, Nat.zero_add] at hcount
  have hle : activeCount subframe rnti reqs ≤ dataCount rnti reqs := activeCount_le
  have hbound := listed.dataCount_le rnti
  have hsome : 0 < activeCount subframe rnti reqs := by
    rcases Nat.eq_zero_or_pos (activeCount subframe rnti reqs) with hzero | hpos
    · rw [hzero] at hcount
      exact absurd hcount hpositive
    · exact hpos
  obtain ⟨req, hreq, hof⟩ := List.countP_pos_iff.mp hsome
  simp only [Bool.and_eq_true, decide_eq_true_eq] at hof
  have hall : dataCount rnti reqs ≤ activeCount subframe rnti reqs := by
    refine List.countP_mono_left fun other _ hother => ?_
    simp only [Bool.and_eq_true, decide_eq_true_eq] at hother ⊢
    exact ⟨hother.1, isActive_of_ready hof.2 (hother.1.trans hof.1.symm) hother.2⟩
  omega

/-! ## The new transmissions -/

/-- What holds while new transmissions are placed. -/
structure Placing (before : RrFfMacScheduler) (infos : List DlInfoListElement)
    (older : List Record) (actives : Table Rnti Nat) (subframe : Subframe) : Prop where
  tracked : ∀ rnti ue, subframe.scheduler.ues rnti = some ue →
    Tracked (sentBy older ++ subframe.buildDataList) (FreeFor before infos older rnti) rnti ue
  placed : ∀ element ∈ subframe.buildDataList, element.isNew = true →
    ∃ process : HarqProcess, element.dci.harqProcess = process.val ∧
      FreeFor before infos older element.rnti process ∧
      ∀ ue, subframe.scheduler.ues element.rnti = some ue → ue.processesStatus process ≠ 0
  listed : Listed subframe.scheduler.rlcBufferReq
  counted : ∀ rnti lcNum, lookup rnti actives = some lcNum → lcNum ≠ 0 →
    dataCount rnti subframe.scheduler.rlcBufferReq ≤ lcNum

/-- What a grant that goes through does. -/
theorem grant_cases {shares : Shares} {robin next : TurnLoop} {rnti lcNum : Nat}
    (hkeyed : (robin.subframe.scheduler.rlcBufferReq.map SchedDlRlcBufferReq.key).Nodup)
    (hgrant : grant shares robin rnti lcNum = some next) :
    ∃ ue claimed process places element, robin.subframe.scheduler.ues rnti = some ue ∧
      updateHarqProcessId ue = some (process, claimed) ∧
      0 < txMode2LayerNum ue.transmissionMode ∧ lcNum ≠ 0 ∧
      element = newElement shares robin.subframe.scheduler rnti lcNum
        (txMode2LayerNum ue.transmissionMode) process places
        ((turnChannels robin.subframe.scheduler.rlcBufferReq rnti robin.place).filter
          fun req => req.hasData) ∧
      next.subframe.scheduler = { robin.subframe.scheduler.withUe rnti
        (claimed.transmitted process element.dci element.rlcPduList) with
          rlcBufferReq := grantedReqs (txMode2LayerNum ue.transmissionMode)
            (shares.pduSizeOf robin.subframe.scheduler rnti lcNum)
            robin.subframe.scheduler.rlcBufferReq rnti robin.place } ∧
      next.subframe.buildDataList = robin.subframe.buildDataList ++ [element] := by
  simp only [grant, Option.bind_eq_bind, Option.bind_eq_some_iff] at hgrant
  obtain ⟨ue, hue, ⟨process, claimed⟩, hclaimed, hgrant⟩ := hgrant
  have hmode : claimed.transmissionMode = ue.transmissionMode := by
    rw [updateHarqProcessId] at hclaimed
    split at hclaimed
    · obtain ⟨-, rfl⟩ := Prod.ext_iff.mp (Option.some.inj hclaimed)
      rfl
    · cases hclaimed
  by_cases hzero : txMode2LayerNum ue.transmissionMode = 0 ∨ lcNum = 0
  · rw [if_pos hzero] at hgrant
    cases hgrant
  · rw [if_neg hzero] at hgrant
    obtain ⟨⟨places, rbgMap, pointer⟩, -, hnext⟩ := Option.bind_eq_some_iff.mp hgrant
    obtain rfl := Option.some.inj hnext
    obtain ⟨hlayers, hcount⟩ := not_or.mp hzero
    have hpdus := (@grantChannels_spec (txMode2LayerNum ue.transmissionMode)
      (shares.pduSizeOf robin.subframe.scheduler rnti lcNum)
      (groupEnd robin.subframe.scheduler.rlcBufferReq rnti robin.place - robin.place) robin.place
      ⟨robin.subframe.scheduler.rlcBufferReq, []⟩ hkeyed).2.2
    simp only [List.nil_append] at hpdus
    refine ⟨ue, claimed, process, places, _, hue, hclaimed, Nat.pos_of_ne_zero hlayers, hcount,
      rfl, ?_, ?_⟩
    · simp only [hpdus]
      rfl
    · simp only [hpdus]
      rfl

theorem newElement_shaped {shares : Shares} {scheduler : RrFfMacScheduler}
    {rnti lcNum nLayer : Nat} {process : HarqProcess} {places : List Nat}
    {channels : List SchedDlRlcBufferReq} (hlayers : nLayer ≤ 2) :
    Shaped process
        (newElement shares scheduler rnti lcNum nLayer process places channels).dci ∧
      ∀ layer, entryAt
        (newElement shares scheduler rnti lcNum nLayer process places channels).dci.rv layer = 0 := by
  have hversions : ∀ layer, entryAt (List.replicate nLayer 0) layer = 0 := by
    intro layer
    rw [entryAt, List.getElem?_replicate]
    split <;> rfl
  refine ⟨⟨rfl, fun value hvalue => List.eq_of_mem_replicate hvalue, ?_,
    fun layer _ => hversions layer⟩, hversions⟩
  change (List.replicate nLayer 1).length ≤ 2
  rwa [List.length_replicate]

theorem txMode2LayerNum_le (txMode : Nat) : txMode2LayerNum txMode ≤ 2 := by
  unfold txMode2LayerNum
  split
  · decide
  · split
    · decide
    · split
      · decide
      · decide

section Grants

variable {before : RrFfMacScheduler} {infos : List DlInfoListElement} {older : List Record}
  {shares : Shares} {robin next : TurnLoop}

theorem Listed.granted {reqs : List SchedDlRlcBufferReq} (listed : Listed reqs)
    (nLayer size : Nat) (rnti : Rnti) (place : Nat) :
    Listed (grantedReqs nLayer size reqs rnti place) := by
  have hkeys : (grantedReqs nLayer size reqs rnti place).map SchedDlRlcBufferReq.key =
      reqs.map SchedDlRlcBufferReq.key :=
    (@grantChannels_spec nLayer size (groupEnd reqs rnti place - place) place ⟨reqs, []⟩
      listed.keyed).1
  exact ⟨hkeys ▸ listed.keyed, hkeys ▸ listed.small⟩

/-- A new transmission. -/
theorem Placing.grant (held : Placing before infos older shares.actives robin.subframe)
    (hblocks : ∀ mcs nprb, shares.amc.getDlTbSizeFromMcs mcs nprb / 8 < 65536) {rnti lcNum : Nat}
    (hlookup : lookup rnti shares.actives = some lcNum)
    (hgrant : RoundRobin.grant shares robin rnti lcNum = some next) :
    Placing before infos older shares.actives next.subframe := by
  obtain ⟨ue, claimed, process, places, element, hue, hclaimed, hlayers, hcount, helement,
    hscheduler, hlist⟩ := grant_cases held.listed.keyed hgrant
  have hnew : element.isNew = true := helement ▸ newElement_isNew hlayers
  have hrnti : element.rnti = rnti := by rw [helement]; rfl
  have hchannels := Nat.le_trans
    (turnChannels_length_le robin.subframe.scheduler.rlcBufferReq rnti robin.place)
    (held.counted rnti lcNum hlookup hcount)
  have hfits : element.Fits := helement ▸ newElement_fits (hblocks _ _) hchannels
  obtain ⟨hshaped, hversions⟩ : Shaped process element.dci ∧
      ∀ layer, entryAt element.dci.rv layer = 0 :=
    helement ▸ newElement_shaped (txMode2LayerNum_le _)
  obtain ⟨htracked, hbusy, hfree⟩ := (held.tracked rnti ue hue).transmitted hclaimed hrnti hnew
    hfits hshaped hversions
  have hreqs : next.subframe.scheduler.rlcBufferReq =
      grantedReqs (txMode2LayerNum ue.transmissionMode)
        (shares.pduSizeOf robin.subframe.scheduler rnti lcNum)
        robin.subframe.scheduler.rlcBufferReq rnti robin.place := by rw [hscheduler]
  have hues : next.subframe.scheduler.ues = put robin.subframe.scheduler.ues rnti
      (some (claimed.transmitted process element.dci element.rlcPduList)) := by
    rw [hscheduler]
    rfl
  constructor
  · intro other found hfound
    rw [hlist, ← List.append_assoc]
    rw [hues, put] at hfound
    split at hfound
    · next same =>
        subst same
        exact Option.some.inj hfound ▸ htracked
    · next hne =>
        exact (held.tracked other found hfound).other fun same => hne (same.symm.trans hrnti)
  · intro other hmem hother
    rw [hlist] at hmem
    rcases List.mem_append.mp hmem with hearlier | hlast
    · obtain ⟨taken, htaken, hfreed, hstill⟩ := held.placed other hearlier hother
      refine ⟨taken, htaken, hfreed, fun found hfound => ?_⟩
      rw [hues, put] at hfound
      split at hfound
      · next same =>
          obtain rfl := Option.some.inj hfound
          rw [updateHarqProcessId] at hclaimed
          split at hclaimed
          · obtain ⟨-, rfl⟩ := Prod.ext_iff.mp (Option.some.inj hclaimed)
            simp only [UeHarq.transmitted]
            split
            · exact Nat.one_ne_zero
            · exact hstill ue (same ▸ hue)
          · cases hclaimed
      · exact hstill found hfound
    · obtain rfl := List.mem_singleton.mp hlast
      refine ⟨process, hshaped.own, hrnti ▸ hfree, fun found hfound => ?_⟩
      rw [hues, hrnti, put_same] at hfound
      exact Option.some.inj hfound ▸ hbusy
  · rw [hreqs]
    exact held.listed.granted _ _ _ _
  · intro other count hother hne
    rw [hreqs]
    exact (dataCount_grantChannels_le _ _ _).trans (held.counted other count hother hne)

/-- One turn of the round robin. -/
theorem Placing.turn (held : Placing before infos older shares.actives robin.subframe)
    (hblocks : ∀ mcs nprb, shares.amc.getDlTbSizeFromMcs mcs nprb / 8 < 65536) {finished : Bool}
    (hturn : takeTurn shares robin = some (finished, next)) :
    Placing before infos older shares.actives next.subframe := by
  simp only [takeTurn, Option.bind_eq_bind, Option.bind_eq_some_iff] at hturn
  obtain ⟨⟨rnti, active⟩, hwho, hturn⟩ := hturn
  cases active with
  | none =>
      obtain ⟨_, -, hnext⟩ := Option.bind_eq_some_iff.mp hturn
      obtain ⟨-, rfl⟩ := Prod.ext_iff.mp (Option.some.inj hnext)
      exact held
  | some lcNum =>
      have hlookup : lookup rnti shares.actives = some lcNum := by
        simp only [turnOf, Option.bind_eq_bind, Option.bind_eq_some_iff] at hwho
        obtain ⟨req, -, hwho⟩ := hwho
        split at hwho
        · cases hwho
        · obtain ⟨rfl, hlookup⟩ := Prod.ext_iff.mp (Option.some.inj hwho)
          exact hlookup
      obtain ⟨granted, hgranted, hturn⟩ := Option.bind_eq_some_iff.mp hturn
      have hkept := held.grant hblocks hlookup hgranted
      by_cases hfull : granted.subframe.rbgAllocatedNum = granted.subframe.rbgNum
      · rw [if_pos hfull] at hturn
        obtain ⟨-, rfl⟩ := Prod.ext_iff.mp (Option.some.inj hturn)
        exact hkept
      · rw [if_neg hfull] at hturn
        obtain ⟨_, -, hnext⟩ := Option.bind_eq_some_iff.mp hturn
        obtain ⟨-, rfl⟩ := Prod.ext_iff.mp (Option.some.inj hnext)
        exact hkept

end Grants

/-! ## The trigger -/

section Trigger

variable {amc : LteAmc} {before after : RrFfMacScheduler} {dlInfoList : List DlInfoListElement}
  {elements : List BuildDataListElement} {older : List Record}

theorem Listed.perm {reqs others : List SchedDlRlcBufferReq} (listed : Listed reqs)
    (hperm : others.Perm reqs) : Listed others := by
  have hkeys := hperm.map SchedDlRlcBufferReq.key
  exact ⟨hkeys.nodup_iff.mpr listed.keyed, fun key hkey =>
    listed.small key (hkeys.mem_iff.mp hkey)⟩

/-- The new transmissions start from the sorted reports. -/
theorem Answering.sorted {infos : List DlInfoListElement} {served : Subframe}
    (held : Answering before infos older served) (listed : Listed before.rlcBufferReq)
    {actives : Table Rnti Nat}
    (hcounted : ∀ rnti lcNum, lookup rnti actives = some lcNum → lcNum ≠ 0 →
      dataCount rnti served.sorted.scheduler.rlcBufferReq ≤ lcNum) :
    Placing before infos older actives served.sorted where
  tracked := held.tracked
  placed element hmem hnew := by
    rw [held.repeated element hmem] at hnew
    cases hnew
  listed := by
    refine listed.perm ?_
    rw [← held.reqs]
    exact List.perm_insertionSort _ _
  counted := hcounted

/-- All new transmissions of a trigger. -/
theorem Placing.transmitNew {infos : List DlInfoListElement} {rbgSize : Nat}
    {start next : Subframe} (hblocks : ∀ mcs nprb, amc.getDlTbSizeFromMcs mcs nprb / 8 < 65536)
    (held : ∀ actives, (∀ rnti lcNum, lookup rnti actives = some lcNum → lcNum ≠ 0 →
        dataCount rnti start.scheduler.rlcBufferReq ≤ lcNum) →
      Placing before infos older actives start)
    (hnext : RoundRobin.transmitNew amc rbgSize start = some next) :
    ∃ actives, Placing before infos older actives next := by
  have hnone := held [] fun _ _ hlookup => by cases hlookup
  simp only [RoundRobin.transmitNew, Option.bind_eq_bind, Option.bind_eq_some_iff] at hnext
  obtain ⟨actives, hactives, hnext⟩ := hnext
  by_cases hempty : actives = []
  · rw [if_pos hempty] at hnext
    exact ⟨[], Option.some.inj hnext ▸ hnone⟩
  · rw [if_neg hempty] at hnext
    obtain ⟨⟨place, nextRntiDl⟩, -, hnext⟩ := Option.bind_eq_some_iff.mp hnext
    obtain ⟨robin, hrobin, hnext⟩ := Option.bind_eq_some_iff.mp hnext
    obtain rfl := Option.some.inj hnext
    have hshares := held actives fun rnti lcNum hlookup hne =>
      dataCount_le_of_lookup hnone.listed hactives hlookup hne
    have hlast : Placing before infos older actives robin.subframe :=
      loop_invariant (takeTurn (sharesOf amc rbgSize start actives))
        (fun robin => Placing before infos older actives robin.subframe)
        (fun _ _ _ hheld hturn => Placing.turn hheld hblocks hturn) hshares hrobin
    exact ⟨actives, hlast.tracked, hlast.placed, hlast.listed, hlast.counted⟩

/-- What a trigger keeps, and what it gives to new data. -/
theorem trigger_tracked (hblocks : ∀ mcs nprb, amc.getDlTbSizeFromMcs mcs nprb / 8 < 65536)
    (htracked : ∀ rnti ue, before.ues rnti = some ue →
      Tracked (sentBy older) (fun process => Available rnti process older) rnti ue)
    (listed : Listed before.rlcBufferReq) (hclear : TriggerClear before dlInfoList)
    (hrun : doSchedDlTriggerReq amc before dlInfoList = some (after, elements)) :
    (∀ rnti ue, after.ues rnti = some ue →
      Tracked (sentBy older ++ elements)
        (fun process => Available rnti process (.triggered before dlInfoList elements :: older))
        rnti ue) ∧
      Listed after.rlcBufferReq ∧
      ∀ element ∈ elements, element.isNew = true → ∃ process : HarqProcess,
        element.dci.harqProcess = process.val ∧
          FreeFor before (before.dlInfoListBuffered ++ dlInfoList) older element.rnti process := by
  simp only [doSchedDlTriggerReq, Option.bind_eq_bind, Option.bind_eq_some_iff] at hrun
  obtain ⟨rbgSize, hsize, served, hserved, hrun⟩ := hrun
  have hanswering := (openSubframe_answering (before.dlInfoListBuffered ++ dlInfoList) rbgSize
    htracked hclear.1).serve (fun _ hmem => hmem) (hclear.2 rbgSize hsize) hserved
  obtain ⟨last, actives, hplacing, hues, hreqs, hlist⟩ : ∃ last actives,
      Placing before (before.dlInfoListBuffered ++ dlInfoList) older actives last ∧
        after.ues = last.scheduler.ues ∧
        after.rlcBufferReq.Perm last.scheduler.rlcBufferReq ∧ elements = last.buildDataList := by
    by_cases hfull : served.rbgAllocatedNum = served.rbgNum
    · rw [if_pos hfull] at hrun
      obtain ⟨rfl, rfl⟩ := Prod.ext_iff.mp (Option.some.inj hrun)
      have hsorted := @Answering.sorted _ _ _ _ hanswering listed [] fun _ _ hlookup => by cases hlookup
      exact ⟨served.sorted, [], hsorted, rfl, (List.perm_insertionSort _ _).symm, rfl⟩
    · rw [if_neg hfull] at hrun
      obtain ⟨last, hlast, hrun⟩ := Option.bind_eq_some_iff.mp hrun
      obtain ⟨rfl, rfl⟩ := Prod.ext_iff.mp (Option.some.inj hrun)
      obtain ⟨actives, hplacing⟩ := Placing.transmitNew hblocks
        (fun _ hcounted => hanswering.sorted listed hcounted) hlast
      exact ⟨last, actives, hplacing, rfl, List.Perm.refl _, rfl⟩
  subst hlist
  refine ⟨fun rnti ue hue => ?_, hplacing.listed.perm hreqs, fun element hmem hnew => ?_⟩
  · rw [hues] at hue
    have tracked := hplacing.tracked rnti ue hue
    refine { tracked with freed := fun process hidle => ⟨?_, tracked.freed process hidle⟩ }
    rintro element hmem hnew rfl hsame
    obtain ⟨taken, htaken, -, hbusy⟩ := hplacing.placed element hmem hnew
    obtain rfl : taken = process := Fin.ext (htaken.symm.trans hsame)
    exact hbusy ue hue hidle
  · obtain ⟨process, hprocess, hfree, -⟩ := hplacing.placed element hmem hnew
    exact ⟨process, hprocess, hfree⟩

end Trigger

end DeepcV2x.Lte.RoundRobin
