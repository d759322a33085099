import DeepcV2x.Lte.RoundRobin

/-!
# Queue accounting and the order of turns

A grant lowers the queues of its own channels by no more than its bytes, as long
as it covers the RLC overhead where data is counted.  The turns go through the
sorted reports once, from behind the UE served last around to it.
-/

namespace DeepcV2x.Lte.RoundRobin

open DeepcV2x.Foundation.Association

/-! ## One channel -/

/-- The grant is counted against the data queue. -/
def SchedDlRlcBufferReq.ReachesData (req : SchedDlRlcBufferReq) (size : Nat) : Prop :=
  ¬ (req.rlcStatusPduSize > 0 ∧ req.rlcStatusPduSize ≤ size) ∧
    ¬ (req.rlcRetransmissionQueueSize > 0 ∧ req.rlcRetransmissionQueueSize ≤ size) ∧
    req.rlcTransmissionQueueSize > 0

instance (req : SchedDlRlcBufferReq) (size : Nat) : Decidable (req.ReachesData size) :=
  inferInstanceAs (Decidable (¬ (req.rlcStatusPduSize > 0 ∧ req.rlcStatusPduSize ≤ size) ∧
    ¬ (req.rlcRetransmissionQueueSize > 0 ∧ req.rlcRetransmissionQueueSize ≤ size) ∧
    req.rlcTransmissionQueueSize > 0))

/-- The reports of one channel, the second not below the first by more than some bytes. -/
structure Lowers (bytes : Nat) (old new : SchedDlRlcBufferReq) : Prop where
  rnti : new.rnti = old.rnti
  lcid : new.logicalChannelIdentity = old.logicalChannelIdentity
  data : old.rlcTransmissionQueueSize ≤ new.rlcTransmissionQueueSize + bytes
  retx : old.rlcRetransmissionQueueSize ≤ new.rlcRetransmissionQueueSize + bytes
  status : old.rlcStatusPduSize ≤ new.rlcStatusPduSize + bytes

theorem Lowers.refl (bytes : Nat) (req : SchedDlRlcBufferReq) : Lowers bytes req req :=
  ⟨rfl, rfl, Nat.le_add_right _ _, Nat.le_add_right _ _, Nat.le_add_right _ _⟩

theorem Lowers.trans {first second : Nat} {old middle new : SchedDlRlcBufferReq}
    (hfirst : Lowers first old middle) (hsecond : Lowers second middle new) :
    Lowers (first + second) old new := by
  refine ⟨hsecond.rnti.trans hfirst.rnti, hsecond.lcid.trans hfirst.lcid, ?_, ?_, ?_⟩
  · have hone := hfirst.data
    have htwo := hsecond.data
    omega
  · have hone := hfirst.retx
    have htwo := hsecond.retx
    omega
  · have hone := hfirst.status
    have htwo := hsecond.status
    omega

theorem Lowers.mono {bytes more : Nat} {old new : SchedDlRlcBufferReq}
    (held : Lowers bytes old new) (hle : bytes ≤ more) : Lowers more old new :=
  ⟨held.rnti, held.lcid, le_trans held.data (Nat.add_le_add_left hle _),
    le_trans held.retx (Nat.add_le_add_left hle _),
    le_trans held.status (Nat.add_le_add_left hle _)⟩

theorem sub32_of_le {left right : Nat} (hle : right ≤ left) (hlt : left < 4294967296) :
    sub32 left right = left - right := by
  have hshift : left + 4294967296 - right = left - right + 4294967296 := by omega
  rw [sub32, hshift, Nat.add_mod_right, Nat.mod_eq_of_lt (by omega)]

theorem le_dataLeft_add (queue payload : Nat) : queue ≤ dataLeft queue payload + payload := by
  rw [dataLeft]
  split <;> omega

/-- A grant that covers the overhead where data is counted. -/
theorem served_lowers {req : SchedDlRlcBufferReq} {size : Nat} (hsize : size < 65536)
    (hcovers : req.ReachesData size → rlcOverhead req.logicalChannelIdentity ≤ size) :
    Lowers size req (req.served size) := by
  rw [SchedDlRlcBufferReq.served]
  split
  · next hstatus => exact ⟨rfl, rfl, Nat.le_add_right _ _, Nat.le_add_right _ _, by simp [hstatus.2]⟩
  · next hstatus =>
      split
      · next hretx =>
          exact ⟨rfl, rfl, Nat.le_add_right _ _, by simp [hretx.2], Nat.le_add_right _ _⟩
      · next hretx =>
          split
          · next hdata =>
              have hoverhead := hcovers ⟨hstatus, hretx, hdata⟩
              have hpayload := sub32_of_le hoverhead (lt_trans hsize (by omega))
              have hleft := le_dataLeft_add req.rlcTransmissionQueueSize
                (size - rlcOverhead req.logicalChannelIdentity)
              rw [hpayload]
              exact ⟨rfl, rfl, le_trans hleft (Nat.add_le_add_left (Nat.sub_le _ _) _),
                Nat.le_add_right _ _, Nat.le_add_right _ _⟩
          · exact Lowers.refl _ _

/-- The same grant on several layers. -/
theorem served_iterate_lowers {req : SchedDlRlcBufferReq} {size nLayer : Nat}
    (hsize : size < 65536)
    (hcovers : ∀ layer < nLayer, ((fun one => one.served size)^[layer] req).ReachesData size →
      rlcOverhead req.logicalChannelIdentity ≤ size) :
    Lowers (nLayer * size) req ((fun one => one.served size)^[nLayer] req) := by
  induction nLayer with
  | zero => exact Lowers.refl _ _
  | succ nLayer ih =>
      have hbefore := ih fun layer hlayer => hcovers layer (Nat.lt_succ_of_lt hlayer)
      have hlast := hcovers nLayer (Nat.lt_succ_self _)
      rw [← hbefore.lcid] at hlast
      rw [Function.iterate_succ_apply', Nat.succ_mul]
      exact hbefore.trans (served_lowers hsize hlast)

/-! ## The channels of one UE -/

/-- What tells the reports apart. -/
def SchedDlRlcBufferReq.key (req : SchedDlRlcBufferReq) : Nat × Nat :=
  (req.rnti, req.logicalChannelIdentity)

@[simp]
theorem served_key (req : SchedDlRlcBufferReq) (size : Nat) : (req.served size).key = req.key := by
  rw [SchedDlRlcBufferReq.served]
  split
  · rfl
  · split
    · rfl
    · split
      · rfl
      · rfl

@[simp]
theorem served_iterate_key (req : SchedDlRlcBufferReq) (size times : Nat) :
    ((fun one => one.served size)^[times] req).key = req.key := by
  induction times with
  | zero => rfl
  | succ times ih => rw [Function.iterate_succ_apply', served_key, ih]

theorem keys_set {reqs : List SchedDlRlcBufferReq} {place : Nat} {old new : SchedDlRlcBufferReq}
    (hold : reqs[place]? = some old) (hkey : new.key = old.key) :
    (reqs.set place new).map SchedDlRlcBufferReq.key = reqs.map SchedDlRlcBufferReq.key := by
  obtain ⟨hplace, hget⟩ := List.getElem?_eq_some_iff.mp hold
  rw [List.map_set, hkey, ← hget]
  apply List.ext_getElem?
  intro other
  rw [List.getElem?_set]
  split
  · next same =>
      subst same
      simp [hplace]
  · rfl

/-- With distinct keys the update of a channel changes its own report. -/
theorem updateDlRlcBufferInfo_eq_set {reqs : List SchedDlRlcBufferReq} {place size : Nat}
    {req : SchedDlRlcBufferReq} (hnodup : (reqs.map SchedDlRlcBufferReq.key).Nodup)
    (hreq : reqs[place]? = some req) :
    updateDlRlcBufferInfo req.rnti req.logicalChannelIdentity size reqs =
      reqs.set place (req.served size) := by
  induction reqs generalizing place with
  | nil => simp at hreq
  | cons first rest ih =>
      obtain ⟨hfresh, hrest⟩ := List.nodup_cons.mp hnodup
      cases place with
      | zero =>
          obtain rfl : first = req := by simpa using hreq
          rw [updateDlRlcBufferInfo, if_pos ⟨rfl, rfl⟩]
          rfl
      | succ place =>
          have hin : rest[place]? = some req := by simpa using hreq
          have hother : ¬ first.Of req.rnti req.logicalChannelIdentity := by
            intro hof
            refine hfresh (List.mem_map.mpr ⟨req, List.mem_of_getElem? hin, ?_⟩)
            exact Prod.ext hof.1.symm hof.2.symm
          rw [updateDlRlcBufferInfo, if_neg hother, ih hrest hin]
          rfl

theorem updateDlRlcBufferInfo_iterate {reqs : List SchedDlRlcBufferReq} {place size : Nat}
    {req : SchedDlRlcBufferReq} (hnodup : (reqs.map SchedDlRlcBufferReq.key).Nodup)
    (hreq : reqs[place]? = some req) (times : Nat) :
    (updateDlRlcBufferInfo req.rnti req.logicalChannelIdentity size)^[times] reqs =
      reqs.set place ((fun one => one.served size)^[times] req) := by
  have hplace := (List.getElem?_eq_some_iff.mp hreq).1
  induction times with
  | zero =>
      obtain ⟨_, hget⟩ := List.getElem?_eq_some_iff.mp hreq
      rw [Function.iterate_zero_apply, Function.iterate_zero_apply, ← hget, List.set_getElem_self]
  | succ times ih =>
      rw [Function.iterate_succ_apply', ih, Function.iterate_succ_apply']
      have hkey := served_iterate_key req size times
      have hkeys := keys_set hreq hkey
      have hat : (reqs.set place ((fun one => one.served size)^[times] req))[place]? =
          some ((fun one => one.served size)^[times] req) := List.getElem?_set_self hplace
      have hupdate := @updateDlRlcBufferInfo_eq_set _ place size _ (hkeys ▸ hnodup) hat
      obtain ⟨hrnti, hlcid⟩ := Prod.ext_iff.mp hkey
      simp only [SchedDlRlcBufferReq.key] at hrnti hlcid
      rw [hrnti, hlcid] at hupdate
      rw [hupdate, List.set_set]

/-- The report of a channel after its turn. -/
def grantedReq (nLayer size : Nat) (req : SchedDlRlcBufferReq) : SchedDlRlcBufferReq :=
  if req.hasData then (fun one => one.served size)^[nLayer] req else req

theorem grantedReq_key (nLayer size : Nat) (req : SchedDlRlcBufferReq) :
    (grantedReq nLayer size req).key = req.key := by
  rw [grantedReq]
  split
  · exact served_iterate_key req size nLayer
  · rfl

/-- The PDUs of a channel, a layer each. -/
def channelPdus (nLayer size : Nat) (req : SchedDlRlcBufferReq) : List RlcPduListElement :=
  List.replicate nLayer ⟨req.logicalChannelIdentity, size⟩

theorem grantChannel_eq {nLayer size place : Nat} {req : SchedDlRlcBufferReq}
    {channels : ChannelLoop}
    (hnodup : (channels.rlcBufferReq.map SchedDlRlcBufferReq.key).Nodup)
    (hreq : channels.rlcBufferReq[place]? = some req) :
    grantChannel nLayer size req channels =
      ⟨channels.rlcBufferReq.set place (grantedReq nLayer size req),
        channels.rlcPduList ++ if req.hasData then [channelPdus nLayer size req] else []⟩ := by
  rw [grantChannel, grantedReq]
  split
  · rw [updateDlRlcBufferInfo_iterate hnodup hreq]
    rfl
  · obtain ⟨_, hget⟩ := List.getElem?_eq_some_iff.mp hreq
    rw [← hget, List.set_getElem_self, List.append_nil]

/-- The loop over some channels grants to those with data. -/
theorem grantChannels_spec {nLayer size left place : Nat} {channels : ChannelLoop}
    (hnodup : (channels.rlcBufferReq.map SchedDlRlcBufferReq.key).Nodup) :
    (grantChannels nLayer size left place channels).rlcBufferReq.map SchedDlRlcBufferReq.key =
        channels.rlcBufferReq.map SchedDlRlcBufferReq.key ∧
      (∀ other : Nat, (grantChannels nLayer size left place channels).rlcBufferReq[other]? =
        if place ≤ other ∧ other < place + left then
          channels.rlcBufferReq[other]?.map (grantedReq nLayer size)
        else channels.rlcBufferReq[other]?) ∧
      (grantChannels nLayer size left place channels).rlcPduList =
        channels.rlcPduList ++
          (((channels.rlcBufferReq.drop place).take left).filter fun req => req.hasData).map
            (channelPdus nLayer size) := by
  induction left generalizing place channels with
  | zero =>
      refine ⟨rfl, fun other => ?_, by simp [grantChannels]⟩
      rw [if_neg (by omega)]
      rfl
  | succ left ih =>
      cases hreq : channels.rlcBufferReq[place]? with
      | none =>
          have hlength := List.getElem?_eq_none_iff.mp hreq
          have hstop : grantChannels nLayer size (left + 1) place channels = channels := by
            rw [grantChannels, hreq]
          rw [hstop]
          refine ⟨rfl, fun other => ?_, by simp [List.drop_of_length_le hlength]⟩
          split
          · next hin => rw [List.getElem?_eq_none (le_trans hlength hin.1)]; rfl
          · rfl
      | some req =>
          have hplace := (List.getElem?_eq_some_iff.mp hreq).1
          have hturn := @grantChannel_eq nLayer size place req channels hnodup hreq
          have hkeys := keys_set hreq (grantedReq_key nLayer size req)
          rw [show grantChannels nLayer size (left + 1) place channels =
            grantChannels nLayer size left (place + 1) (grantChannel nLayer size req channels) by
              rw [grantChannels, hreq], hturn]
          obtain ⟨hmap, hget, hpdus⟩ := @ih (place + 1)
            ⟨channels.rlcBufferReq.set place (grantedReq nLayer size req),
              channels.rlcPduList ++ if req.hasData then [channelPdus nLayer size req] else []⟩
            (hkeys ▸ hnodup)
          refine ⟨hmap.trans hkeys, fun other => ?_, ?_⟩
          · rw [hget other]
            simp only [List.getElem?_set]
            by_cases same : place = other
            · subst same
              rw [if_neg (by omega), if_pos rfl, if_pos hplace, if_pos (by omega), hreq]
              rfl
            · rw [if_neg same]
              by_cases hin : place ≤ other ∧ other < place + (left + 1)
              · rw [if_pos hin, if_pos (by omega)]
              · rw [if_neg hin, if_neg (by omega)]
          · rw [hpdus, List.drop_set_of_lt (Nat.lt_succ_self place),
              List.drop_eq_getElem_cons hplace, List.take_succ_cons, List.filter_cons]
            have hcell : channels.rlcBufferReq[place] = req :=
              (List.getElem?_eq_some_iff.mp hreq).2
            rw [hcell]
            cases hdata : req.hasData with
            | false => simp
            | true => simp

/-! ## The active channels -/

/-- A UE that may get a new transmission. -/
def Ready (subframe : Subframe) (rnti : Rnti) : Prop :=
  rnti ∉ subframe.rntiAllocated ∧
    ∃ ue, subframe.scheduler.ues rnti = some ue ∧ harqProcessAvailability ue = true

/-- The active channels of one UE. -/
def activeCount (subframe : Subframe) (rnti : Rnti) (reqs : List SchedDlRlcBufferReq) : Nat :=
  reqs.countP fun req => decide (req.rnti = rnti) && decide (isActive subframe req = some true)

theorem isActive_eq_true {subframe : Subframe} {req : SchedDlRlcBufferReq}
    (hactive : isActive subframe req = some true) :
    req.hasData = true ∧ Ready subframe req.rnti ∧ subframe.scheduler.cqiOf req.rnti ≠ 0 := by
  rw [isActive] at hactive
  split at hactive
  · next hboth =>
      obtain ⟨ue, hue, hready⟩ := Option.map_eq_some_iff.mp hactive
      simp only [Bool.and_eq_true, decide_eq_true_eq] at hready
      exact ⟨hboth.1, ⟨hboth.2, ue, hue, hready.1⟩, hready.2⟩
  · cases hactive

theorem isActive_of_ready {subframe : Subframe} {req other : SchedDlRlcBufferReq}
    (hactive : isActive subframe other = some true) (hsame : req.rnti = other.rnti)
    (hdata : req.hasData = true) : isActive subframe req = some true := by
  obtain ⟨-, ⟨hfresh, ue, hue, hready⟩, hcqi⟩ := isActive_eq_true hactive
  rw [← hsame] at hfresh hue hcqi
  simp [isActive, hdata, hfresh, hue, hready, hcqi]

theorem isActive_isSome {subframe : Subframe} {req : SchedDlRlcBufferReq}
    (hconfigured : (subframe.scheduler.ues req.rnti).isSome) : (isActive subframe req).isSome := by
  rw [isActive]
  split
  · rwa [Option.isSome_map]
  · rfl

/-- The table counts the active channels of each UE while the counts stay below 256. -/
theorem exists_lcActives {subframe : Subframe} {reqs : List SchedDlRlcBufferReq}
    (table : Table Rnti Nat)
    (hconfigured : ∀ req ∈ reqs, (subframe.scheduler.ues req.rnti).isSome)
    (hcount : ∀ rnti, (lookup rnti table).getD 0 + activeCount subframe rnti reqs < 256)
    (hkeys : (keys table).Nodup) :
    ∃ actives, lcActives subframe reqs table = some actives ∧ (keys actives).Nodup ∧
      ∀ rnti, lookup rnti actives =
        if activeCount subframe rnti reqs = 0 then lookup rnti table
        else some ((lookup rnti table).getD 0 + activeCount subframe rnti reqs) := by
  induction reqs generalizing table with
  | nil => exact ⟨table, rfl, hkeys, fun rnti => rfl⟩
  | cons req rest ih =>
      obtain ⟨active, hactive⟩ := Option.isSome_iff_exists.mp
        (isActive_isSome (hconfigured req List.mem_cons_self))
      have hrest : ∀ other ∈ rest, (subframe.scheduler.ues other.rnti).isSome :=
        fun other hmem => hconfigured other (List.mem_cons_of_mem _ hmem)
      have hsplit : ∀ rnti, activeCount subframe rnti (req :: rest) =
          activeCount subframe rnti rest + if req.rnti = rnti ∧ active = true then 1 else 0 := by
        intro rnti
        simp [activeCount, List.countP_cons, hactive]
      cases active with
      | false =>
          have hsame : ∀ rnti, activeCount subframe rnti (req :: rest) =
              activeCount subframe rnti rest := fun rnti => by simp [hsplit]
          obtain ⟨actives, hrun, hnodup, hlookup⟩ :=
            ih table hrest (fun rnti => hsame rnti ▸ hcount rnti) hkeys
          refine ⟨actives, by simp [lcActives, hactive, hrun], hnodup, fun rnti => ?_⟩
          rw [hlookup rnti, hsame rnti]
      | true =>
          have hvalue : ∀ rnti, (lookup rnti (upsert req.rnti countActive table)).getD 0 =
              (lookup rnti table).getD 0 + if req.rnti = rnti then 1 else 0 := by
            intro rnti
            rw [lookup_upsert]
            by_cases same : rnti = req.rnti
            · subst same
              have hsmall := hcount req.rnti
              rw [hsplit, if_pos ⟨rfl, rfl⟩] at hsmall
              cases hold : lookup req.rnti table with
              | none => simp [countActive]
              | some count =>
                  rw [hold] at hsmall
                  simp only [Option.getD_some] at hsmall
                  simp only [if_true, countActive, Option.getD_some]
                  omega
            · rw [if_neg same, if_neg fun h => same h.symm, Nat.add_zero]
          obtain ⟨actives, hrun, hnodup, hlookup⟩ :=
            ih (upsert req.rnti countActive table) hrest
              (fun rnti => by
                have hsmall := hcount rnti
                rw [hsplit] at hsmall
                rw [hvalue]
                simpa [Nat.add_assoc, Nat.add_comm, Nat.add_left_comm] using hsmall)
              (keys_upsert_nodup _ _ hkeys)
          refine ⟨actives, by simp [lcActives, hactive, hrun], hnodup, fun rnti => ?_⟩
          rw [hlookup rnti]
          by_cases same : req.rnti = rnti
          · subst same
            have hmore : activeCount subframe req.rnti (req :: rest) =
                activeCount subframe req.rnti rest + 1 := by simp [hsplit]
            have hgot := hvalue req.rnti
            rw [if_pos rfl] at hgot
            rw [hmore, if_neg (Nat.succ_ne_zero _)]
            split
            · next hzero =>
                rw [lookup_upsert, if_pos rfl] at hgot ⊢
                rw [hzero, Nat.zero_add, ← hgot, Option.getD_some]
            · rw [hgot]
              congr 1
              omega
          · have hsame : activeCount subframe rnti (req :: rest) = activeCount subframe rnti rest :=
              by simp [hsplit, same]
            rw [hsame, lookup_upsert, if_neg (Ne.symm same)]

/-! ## The order of turns -/

abbrev SortedByRnti (reqs : List SchedDlRlcBufferReq) : Prop :=
  reqs.Pairwise fun left right => left.rnti ≤ right.rnti

theorem rnti_le_of_sorted {reqs : List SchedDlRlcBufferReq} (hsorted : SortedByRnti reqs)
    {earlier later : Nat} {left right : SchedDlRlcBufferReq} (hle : earlier ≤ later)
    (hleft : reqs[earlier]? = some left) (hright : reqs[later]? = some right) :
    left.rnti ≤ right.rnti := by
  rcases Nat.lt_or_eq_of_le hle with hlt | rfl
  · obtain ⟨hearlier, rfl⟩ := List.getElem?_eq_some_iff.mp hleft
    obtain ⟨hlater, rfl⟩ := List.getElem?_eq_some_iff.mp hright
    exact List.pairwise_iff_getElem.mp hsorted earlier later hearlier hlater hlt
  · exact (Option.some.inj (hleft.symm.trans hright)) ▸ le_rfl

/-- How far a leading stretch reaches. -/
theorem takeWhile_stretch {Entry : Type} (accepts : Entry → Bool) (entries : List Entry) :
    (entries.takeWhile accepts).length ≤ entries.length ∧
      (∀ (place : Nat) (entry : Entry), place < (entries.takeWhile accepts).length →
        entries[place]? = some entry → accepts entry = true) ∧
      ∀ entry, entries[(entries.takeWhile accepts).length]? = some entry →
        accepts entry = false := by
  induction entries with
  | nil => simp
  | cons first rest ih =>
      obtain ⟨hlength, hinside, hstop⟩ := ih
      cases haccepts : accepts first with
      | false => simp [haccepts]
      | true =>
          rw [List.takeWhile_cons, if_pos haccepts, List.length_cons, List.length_cons]
          refine ⟨Nat.succ_le_succ hlength, fun place entry hlt hentry => ?_, fun entry => ?_⟩
          · cases place with
            | zero =>
                obtain rfl : first = entry := by simpa using hentry
                exact haccepts
            | succ place =>
                exact hinside place entry (Nat.lt_of_succ_lt_succ hlt) (by simpa using hentry)
          · intro hentry
            exact hstop entry (by simpa using hentry)

/-- The entries of one RNTI from a place on. -/
theorem groupEnd_spec {reqs : List SchedDlRlcBufferReq} {place : Nat}
    {req : SchedDlRlcBufferReq} (hreq : reqs[place]? = some req) :
    place < groupEnd reqs req.rnti place ∧ groupEnd reqs req.rnti place ≤ reqs.length ∧
      (∀ (other : Nat) (found : SchedDlRlcBufferReq), place ≤ other →
        other < groupEnd reqs req.rnti place → reqs[other]? = some found →
          found.rnti = req.rnti) ∧
      ∀ found, reqs[groupEnd reqs req.rnti place]? = some found → found.rnti ≠ req.rnti := by
  obtain ⟨hplace, hget⟩ := List.getElem?_eq_some_iff.mp hreq
  have hcons : reqs.drop place = req :: reqs.drop (place + 1) := by
    rw [List.drop_eq_getElem_cons hplace, hget]
  obtain ⟨hlength, hinside, hstop⟩ := takeWhile_stretch
    (fun one : SchedDlRlcBufferReq => decide (one.rnti = req.rnti)) (reqs.drop place)
  refine ⟨?_, ?_, ?_, ?_⟩
  · rw [groupEnd, hcons, List.takeWhile_cons, if_pos (by simp), List.length_cons]
    omega
  · rw [List.length_drop] at hlength
    rw [groupEnd]
    omega
  · intro other found hle hlt hfound
    have hdrop : (reqs.drop place)[other - place]? = some found := by
      rw [List.getElem?_drop, Nat.add_sub_cancel' hle]
      exact hfound
    rw [groupEnd] at hlt
    exact of_decide_eq_true (hinside (other - place) found (by omega) hdrop)
  · intro found hfound
    rw [groupEnd, ← List.getElem?_drop] at hfound
    exact of_decide_eq_false (hstop found hfound)

/-- The order of turns: from `last` upwards, then from the start up to it. -/
def Precedes (last left right : Nat) : Prop :=
  if left < last then left < right ∧ right < last else right < last ∨ left < right

theorem Precedes.trans {last left middle right : Nat} (hfirst : Precedes last left middle)
    (hsecond : Precedes last middle right) : Precedes last left right := by
  unfold Precedes at *
  split at hfirst
  · next hlow =>
      rw [if_pos hlow]
      rw [if_pos hfirst.2] at hsecond
      exact ⟨lt_trans hfirst.1 hsecond.1, hsecond.2⟩
  · next hhigh =>
      rw [if_neg hhigh]
      split at hsecond
      · exact Or.inl hsecond.2
      · omega

theorem Precedes.irrefl {last rnti : Nat} : ¬ Precedes last rnti rnti := by
  unfold Precedes
  split <;> omega

/-- How many places are ahead until the turn of `last`. -/
def placesAhead (reqs : List SchedDlRlcBufferReq) (last : Rnti) (place : Nat) : Nat :=
  match reqs[place]? with
  | none => 0
  | some req => if req.rnti < last then reqs.length - place else 2 * reqs.length - place

/-- The turn behind a UE is the turn of `last` or a later one. -/
theorem nextGroup_turn {reqs : List SchedDlRlcBufferReq} (hsorted : SortedByRnti reqs)
    {place : Nat} {req target : SchedDlRlcBufferReq} (hreq : reqs[place]? = some req)
    (htarget : target ∈ reqs) :
    ∃ next, reqs[nextGroup reqs req.rnti place]? = some next ∧
      (next.rnti ≠ target.rnti → Precedes target.rnti req.rnti next.rnti ∧
        placesAhead reqs target.rnti (nextGroup reqs req.rnti place) <
          placesAhead reqs target.rnti place) := by
  obtain ⟨hlater, hlength, hinside, hstop⟩ := groupEnd_spec hreq
  obtain ⟨hplace, -⟩ := List.getElem?_eq_some_iff.mp hreq
  obtain ⟨at', hat⟩ := List.mem_iff_getElem?.mp htarget
  obtain ⟨hin, -⟩ := List.getElem?_eq_some_iff.mp hat
  have hbehind : req.rnti < target.rnti → groupEnd reqs req.rnti place ≤ at' := by
    intro hless
    by_contra hout
    rcases Nat.lt_or_ge at' place with hbefore | hfrom
    · exact absurd (rnti_le_of_sorted hsorted hbefore.le hat hreq) (Nat.not_le.mpr hless)
    · exact absurd (hinside at' target hfrom (Nat.lt_of_not_le hout) hat) (Nat.ne_of_gt hless)
  by_cases hend : groupEnd reqs req.rnti place = reqs.length
  · have hnext : nextGroup reqs req.rnti place = 0 := if_pos hend
    have hnot : ¬ req.rnti < target.rnti := fun hless =>
      absurd (hbehind hless) (by omega)
    have hfirst := List.getElem?_eq_getElem (lt_of_le_of_lt (Nat.zero_le _) hplace)
    have hlow := rnti_le_of_sorted hsorted (Nat.zero_le at') hfirst hat
    refine ⟨_, by rw [hnext]; exact hfirst, fun hne => ?_⟩
    have hless := lt_of_le_of_ne hlow hne
    refine ⟨by rw [Precedes, if_neg hnot]; exact Or.inl hless, ?_⟩
    rw [hnext]
    simp only [placesAhead, hfirst, hreq, if_pos hless, if_neg hnot]
    omega
  · have hnext : nextGroup reqs req.rnti place = groupEnd reqs req.rnti place := if_neg hend
    have hfound := List.getElem?_eq_getElem (lt_of_le_of_ne hlength hend)
    have hmore : req.rnti < reqs[groupEnd reqs req.rnti place].rnti :=
      lt_of_le_of_ne (rnti_le_of_sorted hsorted hlater.le hreq hfound) (hstop _ hfound).symm
    refine ⟨_, by rw [hnext]; exact hfound, fun hne => ?_⟩
    rw [hnext]
    simp only [placesAhead, hfound, hreq]
    by_cases hless : req.rnti < target.rnti
    · have hle := rnti_le_of_sorted hsorted (hbehind hless) hfound hat
      have hstill := lt_of_le_of_ne hle hne
      refine ⟨by rw [Precedes, if_pos hless]; exact ⟨hmore, hstill⟩, ?_⟩
      rw [if_pos hless, if_pos hstill]
      omega
    · refine ⟨by rw [Precedes, if_neg hless]; exact Or.inr hmore, ?_⟩
      rw [if_neg hless, if_neg fun hlow => hless (lt_trans hmore hlow)]
      omega

/-- The first turn is the one behind the UE served last, or the first one of all. -/
theorem exists_firstTurn {nextRntiDl : Rnti} {reqs : List SchedDlRlcBufferReq}
    (hne : reqs ≠ []) (hlisted : nextRntiDl = 0 ∨ ∃ req ∈ reqs, req.rnti = nextRntiDl) :
    ∃ place req, firstTurn nextRntiDl reqs = some (place, req.rnti) ∧
      reqs[place]? = some req := by
  have hpositive := List.length_pos_iff.mpr hne
  by_cases hzero : nextRntiDl = 0
  · have hfirst := List.getElem?_eq_getElem hpositive
    exact ⟨0, _, by simp [firstTurn, hzero, hfirst], hfirst⟩
  · obtain ⟨req, hmem, hrnti⟩ := hlisted.resolve_left hzero
    obtain ⟨place, hfind⟩ : ∃ place, reqs.findIdx?
        (fun req => decide (req.rnti = nextRntiDl)) = some place := by
      rw [← Option.isSome_iff_exists, List.findIdx?_isSome, List.any_eq_true]
      exact ⟨req, hmem, decide_eq_true hrnti⟩
    have hplace : place < reqs.length := (List.findIdx?_eq_some_iff_findIdx_eq.mp hfind).1
    by_cases hlast : place + 1 = reqs.length
    · have hfirst := List.getElem?_eq_getElem hpositive
      exact ⟨0, _, by simp [firstTurn, hzero, hfind, hlast, hfirst], hfirst⟩
    · have hin : place + 1 < reqs.length := by omega
      have hnext := List.getElem?_eq_getElem hin
      exact ⟨place + 1, _, by simp [firstTurn, hzero, hfind, hlast, hnext], hnext⟩

end DeepcV2x.Lte.RoundRobin
