import Mathlib.Data.Nat.ModEq
import DeepcV2x.Lte.UplinkGrants

/-!
# The phases of an uplink trigger

Every feedback element adds at most one retransmission and every turn of the
round robin at most one new block.  The turns go once around the reports, so no
UE has two of them.
-/

namespace DeepcV2x.Lte.Uplink

open DeepcV2x.Foundation.Loops
open DeepcV2x.Foundation.Marks
open DeepcV2x.Foundation.Runs
open DeepcV2x.Lte.RoundRobin (Rnti HarqProcess harqProcNum nextProcess put put_same put_other
  allFree allFree_eq_true exists_allFree exists_flag)

variable {Sinr : Type}

/-! ## Retransmissions -/

section Feedback

variable {bandwidth : Nat} {rach : List Rnti} {before : Rnti → Option UlHarq}

/-- The subframe behind some feedback of a trigger that started with `before`. -/
structure Serving (bandwidth : Nat) (rach : List Rnti) (before : Rnti → Option UlHarq)
    (subframe : UlSubframe) : Prop where
  allocated : Allocated bandwidth rach subframe
  keeps : Keeps bandwidth before subframe.ues
  stored : ∀ dci ∈ subframe.dciList, Holds bandwidth subframe.ues dci.rnti current
  counted : ∀ rnti, rnti ∈ subframe.rntiAllocated ↔
    rnti ∈ subframe.dciList.map UlDciListElement.rnti
  again : ∀ dci ∈ subframe.dciList, ∃ ue, subframe.ues dci.rnti = some ue ∧
    (ue.processesDci ue.pastProcess).rbs = dci.rbs
  repeated : ∀ dci ∈ subframe.dciList, dci.ndi = 0

theorem exists_busyAmong {rbMap : List Bool} {rbs : List Nat}
    (hinside : ∀ rb ∈ rbs, rb < rbMap.length) : ∃ busy, busyAmong rbMap rbs = some busy ∧
      (busy = false ↔ ∀ rb ∈ rbs, rbMap[rb]? = some false) := by
  induction rbs with
  | nil => exact ⟨false, rfl, by simp⟩
  | cons rb rest ih =>
      obtain ⟨busy, hbusy, hfree⟩ := ih fun other hmem =>
        hinside other (List.mem_cons_of_mem _ hmem)
      obtain ⟨taken, htaken⟩ := exists_flag (hinside rb List.mem_cons_self)
      obtain ⟨flags, hflags, rfl⟩ := Option.map_eq_some_iff.mp hbusy
      refine ⟨taken || flags.any id, by simp [busyAmong, htaken, hflags], ?_⟩
      rw [Bool.or_eq_false_iff, hfree, List.forall_mem_cons, htaken, Option.some_inj]

/-- The block that a feedback element is for, if it was not received, is stored. -/
def FeedbackFits (bandwidth : Nat) (before : Rnti → Option UlHarq) (info : UlInfoListElement) :
    Prop :=
  info.receptionStatus = .notOk → Holds bandwidth before info.rnti UlHarq.pastProcess

/-- A retransmission on the RBs of its block. -/
theorem Serving.repeatBlock {subframe : UlSubframe}
    (held : Serving bandwidth rach before subframe) (hrach : rach.length = bandwidth)
    {rnti : Rnti} {ue : UlHarq} (hue : subframe.ues rnti = some ue) {dci : UlDciListElement}
    (hdci : dci = { ue.processesDci ue.pastProcess with ndi := 0 })
    (placed : dci.Placed bandwidth rnti)
    (hfree : ∀ rb ∈ dci.rbs, subframe.rbMap[rb]? = some false) :
    Serving bandwidth rach before
      { subframe.take dci.rbs dci.rnti with
        ues := put subframe.ues rnti (some (ue.retransmitted ue.pastProcess dci))
        rntiAllocated := subframe.rntiAllocated.insert dci.rnti
        dciList := subframe.dciList ++ [dci] } := by
  have hrnti := placed.rnti_eq
  have hrbs : dci.rbs = (ue.processesDci ue.pastProcess).rbs := by rw [hdci]; rfl
  have hwindow : FreeAt subframe.rbMap dci.rbs := ⟨window_nodup _ _, hfree⟩
  have hstep : Keeps bandwidth subframe.ues
      (put subframe.ues rnti (some (ue.retransmitted ue.pastProcess dci))) :=
    keeps_put hue (retransmitted_currentProcessId _ _ _) (retransmitted_processesDci _ _ _) placed
  -- a second retransmission of the same block would find its RBs taken by the first one
  have hnew : dci.rnti ∉ subframe.dciList.map UlDciListElement.rnti := by
    intro hmem
    obtain ⟨other, hother, hsame⟩ := List.mem_map.mp hmem
    obtain ⟨found, hfound, hagain⟩ := held.again other hother
    rw [hsame, hrnti, hue] at hfound
    obtain rfl := Option.some.inj hfound
    have htaken := held.allocated.claims.taken _ (List.mem_map_of_mem hother) dci.rbStart
      (hagain ▸ hrbs ▸ placed.start_mem)
    rw [hfree dci.rbStart placed.start_mem] at htaken
    cases htaken
  refine ⟨held.allocated.grant hrach hwindow rfl (hrnti.symm ▸ placed) hnew,
    held.keeps.trans hstep, fun other hmem => ?_, fun other => ?_, fun other hmem => ?_,
    fun other hmem => ?_⟩
  · rcases List.mem_append.mp hmem with hold | hlast
    · exact (held.stored other hold).keeps hstep fun _ _ h => h
    · rw [List.mem_singleton.mp hlast, hrnti]
      exact holds_put (retransmitted_currentProcessId _ _ _)
        (retransmitted_processesDci _ _ _) placed
  · rw [List.mem_insert_iff, held.counted, List.map_append, List.mem_append, List.map_singleton,
      List.mem_singleton]
    exact or_comm
  · rcases List.mem_append.mp hmem with hold | hlast
    · obtain ⟨found, hfound, hagain⟩ := held.again other hold
      have hne : other.rnti ≠ rnti := fun hsame =>
        hnew (hrnti ▸ hsame ▸ List.mem_map_of_mem hold)
      exact ⟨found, (put_other hne _).trans hfound, hagain⟩
    · refine ⟨_, by rw [List.mem_singleton.mp hlast, hrnti]; exact put_same _ _ _, ?_⟩
      rw [List.mem_singleton.mp hlast, hrbs,
        pastProcess_congr _ ue (retransmitted_currentProcessId _ _ _),
        retransmitted_processesDci, store_processesDci_other _ (pastProcess_ne ue)]
  · rcases List.mem_append.mp hmem with hold | hlast
    · exact held.repeated other hold
    · rw [List.mem_singleton.mp hlast, hdci]

/-- The turn of one feedback element. -/
theorem Serving.processUlInfo {subframe : UlSubframe}
    (held : Serving bandwidth rach before subframe) (hrach : rach.length = bandwidth)
    {info : UlInfoListElement} (hfits : FeedbackFits bandwidth before info) :
    ∃ next, processUlInfo subframe info = some next ∧ Serving bandwidth rach before next := by
  by_cases hstatus : info.receptionStatus = .notOk
  · obtain ⟨ue, hue, hplaced⟩ := (hfits hstatus).keeps held.keeps pastProcess_congr
    let dci := { ue.processesDci ue.pastProcess with ndi := 0 }
    have placed : dci.Placed bandwidth info.rnti := ⟨hplaced.rnti_eq, hplaced.nonempty,
      hplaced.inBand⟩
    obtain ⟨busy, hbusy, hfree⟩ := @exists_busyAmong subframe.rbMap dci.rbs fun rb hmem =>
      held.allocated.rbMap_length.symm ▸ placed.lt hmem
    have hrun : Uplink.processUlInfo subframe info =
        if ue.processesStatus ue.pastProcess ≥ 3 then some subframe
        else if busy then some subframe
        else some { subframe.take dci.rbs dci.rnti with
          ues := put subframe.ues info.rnti (some (ue.retransmitted ue.pastProcess dci))
          rntiAllocated := subframe.rntiAllocated.insert dci.rnti
          dciList := subframe.dciList ++ [dci] } := by
      rw [Uplink.processUlInfo, if_neg (not_not.mpr hstatus), hue]
      simp only [Option.bind_eq_bind, Option.bind_some]
      by_cases hlimit : ue.processesStatus ue.pastProcess ≥ 3
      · rw [if_pos hlimit, if_pos hlimit]
        rfl
      · rw [if_neg hlimit, if_neg hlimit, hbusy]
        rfl
    rw [hrun]
    by_cases hlimit : ue.processesStatus ue.pastProcess ≥ 3
    · exact ⟨subframe, if_pos hlimit, held⟩
    · rw [if_neg hlimit]
      cases busy with
      | true => exact ⟨subframe, rfl, held⟩
      | false =>
          exact ⟨_, rfl, held.repeatBlock hrach hue rfl placed (hfree.mp rfl)⟩
  · exact ⟨subframe, if_pos hstatus, held⟩

theorem Serving.runFrom {subframe : UlSubframe}
    (held : Serving bandwidth rach before subframe) (hrach : rach.length = bandwidth)
    {infos : List UlInfoListElement} (hfits : ∀ info ∈ infos, FeedbackFits bandwidth before info) :
    ∃ served, runFrom Uplink.processUlInfo subframe infos = some served ∧
      Serving bandwidth rach before served := by
  induction infos generalizing subframe with
  | nil => exact ⟨subframe, rfl, held⟩
  | cons info rest ih =>
      obtain ⟨next, hnext, hserving⟩ := held.processUlInfo hrach (hfits info List.mem_cons_self)
      obtain ⟨served, hserved, hlast⟩ := ih hserving fun other hmem =>
        hfits other (List.mem_cons_of_mem _ hmem)
      exact ⟨served, (runFrom_cons_of_step _ hnext rest).trans hserved, hlast⟩

end Feedback

/-- All feedback of a trigger. -/
theorem serveUlInfo_serving {scheduler : UlScheduler Sinr} {ulInfoList : List UlInfoListElement}
    (hlength : scheduler.rachAllocationMap.length = scheduler.ulBandwidth)
    (hfits : scheduler.harqOn = true →
      ∀ info ∈ ulInfoList, FeedbackFits scheduler.ulBandwidth scheduler.ues info) :
    ∃ served, serveUlInfo scheduler ulInfoList = some served ∧
      Serving scheduler.ulBandwidth scheduler.rachAllocationMap scheduler.ues served := by
  obtain ⟨opened, hopened, hues, hrntis, hnone, hallocated⟩ := openSubframe_allocated hlength
  have hstart : Serving scheduler.ulBandwidth scheduler.rachAllocationMap scheduler.ues opened := by
    refine ⟨hallocated, hues ▸ Keeps.refl _ _, ?_, fun rnti => ?_, ?_, ?_⟩
    · simp [hnone]
    · simp [hrntis, hnone]
    · simp [hnone]
    · simp [hnone]
  rw [serveUlInfo, hopened]
  cases hharq : scheduler.harqOn with
  | false => exact ⟨opened, rfl, hstart⟩
  | true => exact hstart.runFrom hlength (hfits hharq)

/-! ## The search for free RBs -/

section Search

variable {bandwidth rbAllocated width : Nat}

theorem limitWidth_of_le (hle : rbAllocated + width ≤ bandwidth + 1) :
    limitWidth bandwidth rbAllocated width = width := if_neg (by omega)

theorem limitWidth_zero_or (hwidth : width = 0 ∨ 3 ≤ width) :
    limitWidth bandwidth rbAllocated width = 0 ∨ 3 ≤ limitWidth bandwidth rbAllocated width := by
  rw [limitWidth]
  split
  · dsimp only
    split
    · exact .inl rfl
    · exact .inr (by omega)
  · exact hwidth

/-- The end of a search for free RBs of a width. -/
structure SearchEnds (bandwidth : Nat) (rbMap : List Bool) (width : Nat) (search : Search) :
    Prop where
  cursor : search.rbAllocated ≤ bandwidth
  width_eq : search.rbPerFlow = width
  free : ∀ rbStart ∈ search.found, 3 ≤ width ∧ rbStart + width ≤ bandwidth ∧
    FreeAt rbMap (window rbStart width)

/-- One step to the right never shortens the width, since the search ends before that. -/
theorem exists_searchWindow {rbMap : List Bool} (hlength : rbMap.length = bandwidth)
    (hwidth : width = 0 ∨ 3 ≤ width) {left : Nat} (hcursor : rbAllocated ≤ bandwidth)
    (hleft : bandwidth < rbAllocated + left) :
    ∃ search, searchWindow bandwidth rbMap left rbAllocated width = some search ∧
      SearchEnds bandwidth rbMap width search := by
  induction left generalizing rbAllocated with
  | zero => exact absurd hleft (Nat.not_lt.mpr hcursor)
  | succ left ih =>
      by_cases hroom : rbAllocated + width ≤ bandwidth ∧ width ≠ 0
      · obtain ⟨every, hevery⟩ := @exists_allFree rbMap (window rbAllocated width) fun rb hmem =>
          hlength.symm ▸ Nat.lt_of_lt_of_le (mem_window.mp hmem).2 hroom.1
        rw [searchWindow, if_pos hroom, hevery]
        cases every with
        | true =>
            refine ⟨_, rfl, hroom.1, rfl, fun rbStart hfound => ?_⟩
            obtain rfl := Option.some.inj hfound
            exact ⟨hwidth.resolve_left hroom.2, hroom.1, freeAt_window hevery⟩
        | false =>
            have hnext : rbAllocated + 1 ≤ bandwidth := by omega
            rw [limitWidth_of_le (by omega)]
            exact ih hnext (by omega)
      · rw [searchWindow, if_neg hroom]
        exact ⟨_, rfl, hcursor, rfl, fun _ hfound => by cases hfound⟩

end Search

/-! ## The MCS of a grant -/

theorem exists_minSinr (radio : UlRadio Sinr) {sinrs : List Sinr} {rbStart rbLen : Nat}
    (hlen : 0 < rbLen) (hinside : rbStart + rbLen ≤ sinrs.length) :
    ∃ lowest, minSinr radio sinrs rbStart rbLen = some lowest := by
  have hfold : ∀ (rbs : List Nat) (first : Sinr), (∀ rb ∈ rbs, rb < sinrs.length) →
      ∃ lowest, rbs.foldlM (fun lowest rb => do
        let sinr ← sinrs[rb]?
        return if radio.below sinr lowest then sinr else lowest) first = some lowest := by
    intro rbs
    induction rbs with
    | nil => exact fun first _ => ⟨first, rfl⟩
    | cons rb rest ih =>
        intro first hmem
        rw [List.foldlM_cons, List.getElem?_eq_getElem (hmem rb List.mem_cons_self)]
        exact ih _ fun other hother => hmem other (List.mem_cons_of_mem _ hother)
  rw [minSinr, List.getElem?_eq_getElem (show rbStart < sinrs.length by omega)]
  exact hfold _ _ fun rb hmem => Nat.lt_of_lt_of_le (mem_window.mp hmem).2 hinside

theorem exists_mcsFor (radio : UlRadio Sinr) {ueCqi : Option (UeCqi Sinr)} {rbStart rbLen : Nat}
    (hlen : 0 < rbLen) (hinside : ∀ cqi ∈ ueCqi, rbStart + rbLen ≤ cqi.sinrs.length) :
    ∃ mcs, mcsFor radio ueCqi rbStart rbLen = some mcs := by
  cases ueCqi with
  | none => exact ⟨some 0, rfl⟩
  | some cqi =>
      have hroom := hinside cqi rfl
      have hsome : cqi.sinrs ≠ [] := by
        intro hnil
        rw [hnil, List.length_nil] at hroom
        omega
      obtain ⟨lowest, hlowest⟩ := exists_minSinr radio hlen hroom
      exact ⟨_, by rw [mcsFor, if_neg hsome, hlowest]; rfl⟩

/-! ## The round robin -/

/-- The place of a turn on the way around the reports. -/
structure AtTurn (rntis : List Rnti) (first turns : Nat) (robin : UlRobin) : Prop where
  keys : robin.ceBsrRxed.map Prod.fst = rntis
  place : robin.place = (first + turns) % rntis.length
  next : rntis[first]? = some robin.nextRntiUl

section Turns

variable {rntis : List Rnti} {first turns : Nat} {robin : UlRobin}

theorem AtTurn.rnti (held : AtTurn rntis first turns robin) :
    robin.rnti = rntis[(first + turns) % rntis.length]? := by
  rw [UlRobin.rnti, ← List.getElem?_map, held.keys, held.place]

theorem AtTurn.first_lt (held : AtTurn rntis first turns robin) : first < rntis.length :=
  (List.getElem?_eq_some_iff.mp held.next).1

theorem AtTurn.advance (held : AtTurn rntis first turns robin) :
    AtTurn rntis first (turns + 1) robin.advance := by
  have hpos : 0 < rntis.length := Nat.lt_of_le_of_lt (Nat.zero_le _) held.first_lt
  have hlength : robin.ceBsrRxed.length = rntis.length := by
    rw [← held.keys, List.length_map]
  refine ⟨held.keys, ?_, held.next⟩
  simp only [UlRobin.advance, hlength, held.place]
  rw [← Nat.add_assoc, ← Nat.mod_add_mod (first + turns)]
  have hlt := Nat.mod_lt (first + turns) hpos
  by_cases hlast : (first + turns) % rntis.length + 1 = rntis.length
  · rw [if_pos hlast, hlast, Nat.mod_self]
  · rw [if_neg hlast,
      Nat.mod_eq_of_lt (show (first + turns) % rntis.length + 1 < rntis.length by omega)]

theorem AtTurn.exists_rnti (held : AtTurn rntis first turns robin) :
    ∃ rnti, robin.rnti = some rnti ∧ rnti ∈ rntis := by
  have hpos : 0 < rntis.length := Nat.lt_of_le_of_lt (Nat.zero_le _) held.first_lt
  exact ⟨_, held.rnti.trans (List.getElem?_eq_getElem (Nat.mod_lt _ hpos)),
    List.getElem_mem _⟩

/-- The loop ends when the turn is at the first UE again. -/
theorem AtTurn.finished (held : AtTurn rntis first (turns + 1) robin)
    (hturns : turns < rntis.length) : ∃ ends, robin.finished = some ends ∧
      (ends = false → turns + 1 < rntis.length) := by
  have hpos : 0 < rntis.length := Nat.lt_of_le_of_lt (Nat.zero_le _) hturns
  have hplace := Nat.mod_lt (first + (turns + 1)) hpos
  refine ⟨_, by rw [UlRobin.finished, held.rnti, List.getElem?_eq_getElem hplace]; rfl, ?_⟩
  intro hends
  by_contra hlast
  have hturn : turns + 1 = rntis.length := by omega
  have hsame : (first + (turns + 1)) % rntis.length = first := by
    rw [hturn, Nat.add_mod_right, Nat.mod_eq_of_lt held.first_lt]
  have hnext := held.next
  rw [← hsame, List.getElem?_eq_getElem hplace] at hnext
  rw [Option.some.inj hnext] at hends
  simp at hends

end Turns

/-- The round robin over the reports of some UEs behind a number of turns. -/
structure Turning (scheduler : UlScheduler Sinr) (rach : List Rnti)
    (before : Rnti → Option UlHarq) (resent rntis : List Rnti) (first turns : Nat)
    (robin : UlRobin) : Prop where
  allocated : Allocated scheduler.ulBandwidth rach robin.subframe
  keeps : Keeps scheduler.ulBandwidth before robin.subframe.ues
  stored : scheduler.harqOn = true → ∀ dci ∈ robin.subframe.dciList,
    Holds scheduler.ulBandwidth robin.subframe.ues dci.rnti current
  wide : ∀ dci ∈ robin.subframe.dciList, dci.ndi = 1 → 3 ≤ dci.rbLen
  resent_eq : robin.subframe.rntiAllocated = resent
  visited : ∀ dci ∈ robin.subframe.dciList, dci.rnti ∈ resent ∨
    ∃ turn < turns, rntis[(first + turn) % rntis.length]? = some dci.rnti
  turn : AtTurn rntis first turns robin
  cursor : robin.rbAllocated ≤ scheduler.ulBandwidth
  width : robin.rbPerFlow = 0 ∨ 3 ≤ robin.rbPerFlow

/-- The end of the round robin. -/
structure Divided (scheduler : UlScheduler Sinr) (rach : List Rnti)
    (before : Rnti → Option UlHarq) (rntis : List Rnti) (robin : UlRobin) : Prop where
  allocated : Allocated scheduler.ulBandwidth rach robin.subframe
  keeps : Keeps scheduler.ulBandwidth before robin.subframe.ues
  stored : scheduler.harqOn = true → ∀ dci ∈ robin.subframe.dciList,
    Holds scheduler.ulBandwidth robin.subframe.ues dci.rnti current
  wide : ∀ dci ∈ robin.subframe.dciList, dci.ndi = 1 → 3 ≤ dci.rbLen
  keys : robin.ceBsrRxed.map Prod.fst = rntis
  next : robin.nextRntiUl ∈ rntis

/-- What the round robin relies on. -/
structure Divisible (scheduler : UlScheduler Sinr) (rach : List Rnti)
    (before : Rnti → Option UlHarq) (rntis : List Rnti) : Prop where
  rach_length : rach.length = scheduler.ulBandwidth
  bandwidth_lt : scheduler.ulBandwidth < 256
  rntis_nodup : rntis.Nodup
  configured : ∀ rnti ∈ rntis, (before rnti).isSome
  measured : ∀ rnti cqi, scheduler.ueCqi rnti = some cqi →
    cqi.sinrs.length = scheduler.ulBandwidth

theorem keys_updateUlRlcBufferInfo (rnti tbSize : Nat) (reports : List (Rnti × Nat)) :
    (updateUlRlcBufferInfo rnti tbSize reports).map Prod.fst = reports.map Prod.fst := by
  rw [updateUlRlcBufferInfo, List.map_map]
  refine List.map_congr_left fun entry _ => ?_
  simp only [Function.comp_apply]
  split <;> rfl

theorem exists_storeGrant {scheduler : UlScheduler Sinr} {ues : Rnti → Option UlHarq}
    {rnti : Rnti} {dci : UlDciListElement} (placed : dci.Placed scheduler.ulBandwidth rnti)
    (hue : (ues rnti).isSome) : ∃ after, storeGrant scheduler ues dci = some after ∧
      Keeps scheduler.ulBandwidth ues after ∧
      (scheduler.harqOn = true → Holds scheduler.ulBandwidth after dci.rnti current) := by
  obtain ⟨ue, hue⟩ := Option.isSome_iff_exists.mp hue
  rw [storeGrant, placed.rnti_eq, hue]
  cases scheduler.harqOn with
  | false => exact ⟨ues, rfl, Keeps.refl _ _, fun hno => nomatch hno⟩
  | true =>
      exact ⟨_, rfl, keeps_put hue (transmitted_currentProcessId _ _)
        (transmitted_processesDci _ _) placed,
        fun _ => holds_put (transmitted_currentProcessId _ _) (transmitted_processesDci _ _) placed⟩

section Division

variable {radio : UlRadio Sinr} {scheduler : UlScheduler Sinr} {rach : List Rnti}
  {before : Rnti → Option UlHarq} {resent rntis : List Rnti} {first turns : Nat}
  {robin : UlRobin}

theorem Turning.divided (held : Turning scheduler rach before resent rntis first turns robin) :
    Divided scheduler rach before rntis robin :=
  ⟨held.allocated, held.keeps, held.stored, held.wide, held.turn.keys,
    List.mem_of_getElem? held.turn.next⟩

/-- The test of the loop behind a turn. -/
theorem Turning.ends (held : Turning scheduler rach before resent rntis first (turns + 1) robin)
    (hturns : turns < rntis.length) : ∃ ends, robin.finished = some ends ∧
      (ends = true → Divided scheduler rach before rntis robin) ∧
      (ends = false → turns + 1 < rntis.length ∧
        Turning scheduler rach before resent rntis first (turns + 1) robin) := by
  obtain ⟨ends, hends, hless⟩ := held.turn.finished hturns
  exact ⟨ends, hends, fun _ => held.divided, fun hgo => ⟨hless hgo, held⟩⟩

/-- The turn of a UE that gets nothing. -/
theorem Turning.skip (held : Turning scheduler rach before resent rntis first turns robin) :
    Turning scheduler rach before resent rntis first (turns + 1) robin.advance where
  allocated := held.allocated
  keeps := held.keeps
  stored := held.stored
  wide := held.wide
  resent_eq := held.resent_eq
  visited dci hmem := (held.visited dci hmem).imp_right fun ⟨turn, hlt, hat⟩ =>
    ⟨turn, Nat.lt_succ_of_lt hlt, hat⟩
  turn := held.turn.advance
  cursor := held.cursor
  width := held.width

/-- No earlier turn was the one of this UE. -/
theorem Turning.not_visited
    (held : Turning scheduler rach before resent rntis first turns robin)
    (hnodup : rntis.Nodup) (hturns : turns < rntis.length) {rnti : Rnti}
    (hrnti : rntis[(first + turns) % rntis.length]? = some rnti) (hresent : rnti ∉ resent) :
    rnti ∉ robin.subframe.dciList.map UlDciListElement.rnti := by
  intro hmem
  obtain ⟨dci, hdci, rfl⟩ := List.mem_map.mp hmem
  obtain ⟨turn, hlt, hat⟩ := (held.visited dci hdci).resolve_left hresent
  have hpos : 0 < rntis.length := by omega
  have hplaces : (first + turn) % rntis.length = (first + turns) % rntis.length :=
    (List.getElem?_inj (Nat.mod_lt _ hpos) hnodup).mp (hat.trans hrnti.symm)
  have hmod : turn % rntis.length = turns % rntis.length := Nat.ModEq.add_left_cancel' first hplaces
  rw [Nat.mod_eq_of_lt (hlt.trans hturns), Nat.mod_eq_of_lt hturns] at hmod
  omega

/-- The turn of a UE with free RBs. -/
theorem Turning.grantWindow
    (held : Turning scheduler rach before resent rntis first turns robin)
    (divisible : Divisible scheduler rach before rntis) (hturns : turns < rntis.length)
    {rnti : Rnti} (hrnti : rntis[(first + turns) % rntis.length]? = some rnti)
    (hresent : rnti ∉ resent) {rbStart : Nat} (hwidth : 3 ≤ robin.rbPerFlow)
    (hroom : rbStart + robin.rbPerFlow ≤ scheduler.ulBandwidth)
    (hfree : FreeAt robin.subframe.rbMap (window rbStart robin.rbPerFlow)) :
    ∃ finished next,
      grantWindow radio scheduler robin rnti rbStart robin.rbPerFlow = some (finished, next) ∧
      (finished = true → Divided scheduler rach before rntis next) ∧
      (finished = false → turns + 1 < rntis.length ∧
        Turning scheduler rach before resent rntis first (turns + 1) next) := by
  have hband := divisible.bandwidth_lt
  have hstart : rbStart % 256 = rbStart := Nat.mod_eq_of_lt (by omega)
  have hlen : robin.rbPerFlow % 256 = robin.rbPerFlow := Nat.mod_eq_of_lt (by omega)
  obtain ⟨mcs, hmcs⟩ := @exists_mcsFor _ radio (scheduler.ueCqi rnti) rbStart robin.rbPerFlow
    (by omega) fun cqi hcqi => (divisible.measured rnti cqi hcqi).symm ▸ hroom
  rw [Uplink.grantWindow, hstart, hlen, hmcs]
  simp only [Option.bind_eq_bind, Option.bind_some]
  cases mcs with
  | none =>
      have hdiscard := held.allocated.discard divisible.rach_length hfree rnti
      have hnext : Turning scheduler rach before resent rntis first (turns + 1)
          { robin.advance with
            subframe := { robin.subframe.take (window rbStart robin.rbPerFlow) rnti with
              rbgAllocationMap := assign
                (robin.subframe.take (window rbStart robin.rbPerFlow) rnti).rbgAllocationMap
                (window rbStart robin.rbPerFlow) 0 } } :=
        { held.skip with allocated := hdiscard, turn := ⟨held.turn.advance.keys,
            held.turn.advance.place, held.turn.advance.next⟩ }
      obtain ⟨ends, hends, hfinal, hgo⟩ := hnext.ends hturns
      exact ⟨ends, _, by rw [hends]; rfl, hfinal, hgo⟩
  | some mcs =>
      let tbSize := radio.getUlTbSizeFromMcs (mcs % 256) robin.rbPerFlow / 8 % 65536
      let dci := newUlDci rnti rbStart robin.rbPerFlow tbSize mcs
      have placed : dci.Placed scheduler.ulBandwidth rnti :=
        ⟨rfl, show 0 < robin.rbPerFlow % 256 by omega,
          show rbStart % 256 + robin.rbPerFlow % 256 ≤ _ by omega⟩
      have hrbs : dci.rbs = window rbStart robin.rbPerFlow :=
        show window (rbStart % 256) (robin.rbPerFlow % 256) = _ by rw [hstart, hlen]
      have hnew := held.not_visited divisible.rntis_nodup hturns hrnti hresent
      obtain ⟨ues, hues, hkeeps, hholds⟩ := @exists_storeGrant _ scheduler _ _ _ placed
        (held.keeps.isSome (divisible.configured rnti (List.mem_of_getElem? hrnti)))
      have hgranted := @Allocated.grant _ _ _ _ held.allocated divisible.rach_length hfree _ _
        hrbs placed hnew ues robin.subframe.rntiAllocated
      let next : UlRobin := { robin.advance with
        subframe := { robin.subframe.take (window rbStart robin.rbPerFlow) rnti with
          ues := ues
          dciList := robin.subframe.dciList ++ [dci] }
        ceBsrRxed := updateUlRlcBufferInfo rnti tbSize robin.ceBsrRxed }
      have hnext : Turning scheduler rach before resent rntis first (turns + 1) next := by
        refine ⟨hgranted, held.keeps.trans hkeeps, fun hharq other hmem => ?_,
          fun other hmem hndi => ?_, held.resent_eq, fun other hmem => ?_, ?_, held.cursor,
          held.width⟩
        · rcases List.mem_append.mp hmem with hold | hlast
          · exact (held.stored hharq other hold).keeps hkeeps fun _ _ h => h
          · exact List.mem_singleton.mp hlast ▸ hholds hharq
        · rcases List.mem_append.mp hmem with hold | hlast
          · exact held.wide other hold hndi
          · exact List.mem_singleton.mp hlast ▸ show 3 ≤ robin.rbPerFlow % 256 by omega
        · rcases List.mem_append.mp hmem with hold | hlast
          · exact held.skip.visited other hold
          · exact .inr ⟨turns, Nat.lt_succ_self _, List.mem_singleton.mp hlast ▸ hrnti⟩
        · have hadvance := held.turn.advance
          refine ⟨?_, hadvance.place, hadvance.next⟩
          exact (keys_updateUlRlcBufferInfo rnti tbSize robin.ceBsrRxed).trans hadvance.keys
      have hstore : storeGrant scheduler
          (robin.subframe.take (window rbStart robin.rbPerFlow) rnti).ues
          (newUlDci rnti rbStart robin.rbPerFlow tbSize mcs) = some ues := hues
      dsimp only
      rw [hstore]
      simp only [Option.bind_some]
      by_cases hfull : next.rbAllocated = scheduler.ulBandwidth ∨ next.rbPerFlow = 0
      · obtain ⟨last, hlast⟩ := hnext.turn.exists_rnti
        refine ⟨true, { next with nextRntiUl := last }, ?_, fun _ => ?_, fun hno => nomatch hno⟩
        · rw [if_pos hfull]
          change (next.rnti.bind fun last => _) = _
          rw [hlast.1]
          rfl
        · exact ⟨hnext.allocated, hnext.keeps, hnext.stored, hnext.wide, hnext.turn.keys, hlast.2⟩
      · obtain ⟨ends, hends, hfinal, hgo⟩ := hnext.ends hturns
        refine ⟨ends, next, ?_, hfinal, hgo⟩
        rw [if_neg hfull]
        change (next.finished.bind fun ends => _) = _
        rw [hends]
        rfl

/-- One turn of the round robin. -/
theorem Turning.takeTurn
    (held : Turning scheduler rach before resent rntis first turns robin)
    (divisible : Divisible scheduler rach before rntis) (hturns : turns < rntis.length) :
    ∃ finished next, takeTurn radio scheduler robin = some (finished, next) ∧
      (finished = true → Divided scheduler rach before rntis next) ∧
      (finished = false → turns + 1 < rntis.length ∧
        Turning scheduler rach before resent rntis first (turns + 1) next) := by
  obtain ⟨rnti, hrnti, hmem⟩ := held.turn.exists_rnti
  obtain ⟨⟨key, buffer⟩, hentry, rfl⟩ := Option.map_eq_some_iff.mp hrnti
  have hplace : rntis[(first + turns) % rntis.length]? = some key := held.turn.rnti ▸ hrnti
  rw [Uplink.takeTurn, hentry]
  simp only [Option.bind_eq_bind, Option.bind_some]
  by_cases hskip : key ∈ robin.subframe.rntiAllocated ∨ buffer = 0
  · obtain ⟨ends, hends, hfinal, hgo⟩ := held.skip.ends hturns
    rw [if_pos hskip, hends]
    exact ⟨ends, _, rfl, hfinal, hgo⟩
  · obtain ⟨search, hsearch, searched⟩ := @exists_searchWindow _ _
      (limitWidth scheduler.ulBandwidth robin.rbAllocated robin.rbPerFlow) _
      held.allocated.rbMap_length (limitWidth_zero_or held.width) (scheduler.ulBandwidth + 1)
      held.cursor (by omega)
    have hresent : key ∉ resent := fun hin => hskip (.inl (held.resent_eq.symm ▸ hin))
    have hmoved : Turning scheduler rach before resent rntis first turns
        { robin with rbAllocated := search.rbAllocated, rbPerFlow := search.rbPerFlow } :=
      { held with
        turn := ⟨held.turn.keys, held.turn.place, held.turn.next⟩
        cursor := searched.cursor
        width := searched.width_eq ▸ limitWidth_zero_or held.width }
    rw [if_neg hskip, hsearch]
    simp only [Option.bind_some]
    cases hfound : search.found with
    | none =>
        exact ⟨true, _, rfl, fun _ => ⟨held.allocated, held.keeps, held.stored, held.wide,
          held.turn.keys, hmem⟩, fun hno => nomatch hno⟩
    | some rbStart =>
        obtain ⟨hwidth, hroom, hfree⟩ := searched.free rbStart hfound
        rw [← searched.width_eq] at hwidth hroom hfree ⊢
        exact hmoved.grantWindow divisible hturns hplace hresent hwidth hroom hfree

theorem exists_firstTurn {nextRntiUl : Rnti} {reports : List (Rnti × Nat)}
    (hsome : reports ≠ []) (hnext : nextRntiUl = 0 ∨ nextRntiUl ∈ reports.map Prod.fst) :
    ∃ place rnti, firstTurn nextRntiUl reports = some (place, rnti) ∧
      (reports.map Prod.fst)[place]? = some rnti := by
  rw [firstTurn]
  by_cases hzero : nextRntiUl ≠ 0
  · rw [if_pos hzero]
    obtain ⟨entry, hentry, hkey⟩ := List.mem_map.mp (hnext.resolve_left hzero)
    cases hfound : reports.findIdx? fun entry => decide (entry.1 = nextRntiUl) with
    | none =>
        have hnot := List.findIdx?_eq_none_iff.mp hfound entry hentry
        exact absurd hkey (of_decide_eq_false hnot)
    | some place =>
        obtain ⟨hlt, hsame, -⟩ := List.findIdx?_eq_some_iff_getElem.mp hfound
        refine ⟨place, nextRntiUl, rfl, ?_⟩
        rw [List.getElem?_map, List.getElem?_eq_getElem hlt]
        exact congrArg some (of_decide_eq_true hsame)
  · rw [if_neg hzero]
    cases reports with
    | nil => exact absurd rfl hsome
    | cons entry rest => exact ⟨0, entry.1, rfl, rfl⟩

theorem shareOf_ge (bandwidth : Nat) (subframe : UlSubframe) (nflows : Nat) :
    3 ≤ shareOf bandwidth subframe nflows := by
  rw [shareOf]
  split <;> omega

/-- The round robin ends within a turn for each report. -/
theorem exists_divideBand {served : UlSubframe}
    (divisible : Divisible scheduler rach before rntis)
    (held : Serving scheduler.ulBandwidth rach before served)
    (hkeys : scheduler.ceBsrRxed.map Prod.fst = rntis) (hsome : scheduler.ceBsrRxed ≠ [])
    (hnext : scheduler.nextRntiUl = 0 ∨ scheduler.nextRntiUl ∈ rntis) :
    ∃ robin, divideBand radio scheduler served = some robin ∧
      Divided scheduler rach before rntis robin := by
  obtain ⟨place, rnti, hfirst, hplace⟩ := exists_firstTurn hsome (hkeys ▸ hnext)
  rw [hkeys] at hplace
  have hlength : scheduler.ceBsrRxed.length = rntis.length := by rw [← hkeys, List.length_map]
  have hlt : place < rntis.length := (List.getElem?_eq_some_iff.mp hplace).1
  rw [divideBand, hfirst, hlength]
  refine exists_loop_of_count _
    (Turning scheduler rach before served.rntiAllocated rntis place) _
    (fun turns robin hturns hturning => hturning.takeTurn divisible hturns)
    (Nat.zero_add _) (Nat.lt_of_le_of_lt (Nat.zero_le _) hlt) ?_
  exact {
    allocated := held.allocated
    keeps := held.keeps
    stored := fun _ => held.stored
    wide := fun dci hmem hnew => by
      rw [held.repeated dci hmem] at hnew
      cases hnew
    resent_eq := rfl
    visited := fun dci hmem => .inl ((held.counted dci.rnti).mpr (List.mem_map_of_mem hmem))
    turn := ⟨hkeys, (Nat.mod_eq_of_lt hlt).symm, hplace⟩
    cursor := Nat.zero_le _
    width := .inr (shareOf_ge _ _ _) }

end Division

end DeepcV2x.Lte.Uplink
