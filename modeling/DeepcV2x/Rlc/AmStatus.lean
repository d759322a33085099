import DeepcV2x.Rlc.AmWindow

/-!
# STATUS units

What a STATUS unit says is true for every opportunity: it reports exactly the
missing units below the number it acknowledges, which is missing and at most
VR(MS).  Its size is checked before each missing number, with the sizes of the
odd and the even ones exchanged.
-/

namespace DeepcV2x.Rlc

open Foundation.Runs
open LteRlcAmHeader (STATUS_PDU nacksLength pushNack setControlPdu Content)

namespace AmReceiver

/-- The missing units of an interval. -/
def missing (received : List Nat) (low high : Nat) : List Nat :=
  (List.range' low (high - low)).filter fun number => number ∉ received

theorem mem_missing {received : List Nat} {low high number : Nat} :
    number ∈ missing received low high ↔ low ≤ number ∧ number < high ∧ number ∉ received := by
  rw [missing, List.mem_filter, List.mem_range'_1, decide_eq_true_iff, and_assoc]
  refine and_congr_right fun hlow => and_congr_left fun _ => ?_
  omega

theorem missing_succ {received : List Nat} {low high : Nat} (hle : low ≤ high) :
    missing received low (high + 1) =
      missing received low high ++ if high ∈ received then [] else [high] := by
  rw [missing, missing, Nat.succ_sub hle, List.range'_1_concat, List.filter_append,
    Nat.add_sub_cancel' hle]
  congr 1
  by_cases hmem : high ∈ received
  · rw [if_pos hmem, List.filter_eq_nil_iff]
    intro number hnumber
    rw [List.mem_singleton.mp hnumber, decide_eq_true_iff, not_not]
    exact hmem
  · rw [if_neg hmem, List.filter_eq_self]
    intro number hnumber
    rw [List.mem_singleton.mp hnumber, decide_eq_true_iff]
    exact hmem

/-- The check before a missing number is reported, when some are. -/
def Fits (bytes count : Nat) : Prop :=
  (if count % 2 = 0 then 2 else 3) + nacksLength count < bytes % 65536

instance (bytes count : Nat) : Decidable (Fits bytes count) := inferInstanceAs (Decidable (_ < _))

/-- The check, for the header under construction. -/
theorem oneMoreNackWouldFitIn_iff {nacks : List Nat} (hfew : nacks.length ≤ 1024) (bytes : Nat) :
    (nacks.foldl pushNack (setControlPdu {} STATUS_PDU)).oneMoreNackWouldFitIn bytes = true ↔
      Fits bytes nacks.length := by
  have hheader := @LteRlcAmHeader.pushNacks_eq nacks (setControlPdu {} STATUS_PDU) rfl
  have hlength : (nacks.foldl pushNack (setControlPdu {} STATUS_PDU)).nackSnList.length =
      nacks.length := by
    rw [hheader]
    rfl
  have hsize : (nacks.foldl pushNack (setControlPdu {} STATUS_PDU)).getSerializedSize =
      2 + nacksLength nacks.length := by
    rw [hheader]
    refine Nat.mod_eq_of_lt ?_
    show 2 + nacksLength nacks.length < 65536
    rw [nacksLength]
    omega
  rw [LteRlcAmHeader.oneMoreNackWouldFitIn, hlength, hsize, Fits]
  split
  · rw [decide_eq_true_iff]
  · rw [decide_eq_true_iff]
    omega

section Status

variable {rx : AmReceiver} {r ms h : Nat} {received : List Nat} {bytes : Nat}

/-- The loop reports the missing units from VR(R) on, until VR(MS) or until the check fails. -/
theorem Windowed.pushMissing (windowed : Windowed rx r ms h received) (fuel : Nat) :
    ∀ {sn : SequenceNumber10} {start : Nat}, sn.Stands r start → r ≤ start → start ≤ ms →
      ms ≤ start + fuel →
      (∀ count < (missing received r start).length, Fits bytes count) →
      ∃ stop, start ≤ stop ∧ stop ≤ ms ∧
        (rx.pushMissing bytes fuel sn (((missing received r start).map (· % 1024)).foldl pushNack
          (setControlPdu {} STATUS_PDU))).2 =
          ((missing received r stop).map (· % 1024)).foldl pushNack (setControlPdu {} STATUS_PDU) ∧
        (rx.pushMissing bytes fuel sn (((missing received r start).map (· % 1024)).foldl pushNack
          (setControlPdu {} STATUS_PDU))).1.Stands r stop ∧
        (∀ count < (missing received r stop).length, Fits bytes count) ∧
        (stop = ms ∨ ¬ Fits bytes (missing received r stop).length) := by
  have holding := windowed.holding
  have hle := holding.le_ms
  have hms := holding.ms_le
  have hwindow := holding.window
  induction fuel with
  | zero =>
      intro sn start hsn hlow hhigh hfuel hfits
      exact ⟨start, Nat.le_refl _, hhigh, rfl, hsn, hfits, .inl (Nat.le_antisymm hhigh hfuel)⟩
  | succ fuel ih =>
      intro sn start hsn hlow hhigh hfuel hfits
      have hlt := hsn.lt_iff holding.vrMs (by omega) (by omega) (by omega) (by omega)
      have hcount : (missing received r start).length ≤ 512 := by
        refine (List.length_filter_le _ _).trans ?_
        rw [List.length_range']
        omega
      have hfit := @oneMoreNackWouldFitIn_iff ((missing received r start).map (· % 1024))
        (by rw [List.length_map]; omega) bytes
      rw [List.length_map] at hfit
      rw [AmReceiver.pushMissing]
      split
      next hmore =>
        obtain ⟨hless, hroom⟩ := hmore
        have hless : start < ms := by
          have := hlt.mp hless
          omega
        have hroom := hfit.mp hroom
        have hkey : sn.value = start % 1024 := by
          have := hsn.value
          omega
        have hcomplete := holding.complete_mod hlow (by omega)
        have hnext : sn.next.Stands r ((start + 1 : Nat) : Int) := by
          push_cast
          exact hsn.next
        have hpushed : (if rx.complete sn.value = true then
              ((missing received r start).map (· % 1024)).foldl pushNack (setControlPdu {} STATUS_PDU)
            else (((missing received r start).map (· % 1024)).foldl pushNack
              (setControlPdu {} STATUS_PDU)).pushNack sn.value) =
            ((missing received r (start + 1)).map (· % 1024)).foldl pushNack
              (setControlPdu {} STATUS_PDU) := by
          rw [missing_succ hlow, List.map_append, List.foldl_append, hkey]
          by_cases hmem : start ∈ received
          · rw [if_pos (hcomplete.mpr hmem), if_pos hmem]
            rfl
          · rw [if_neg (fun h => hmem (hcomplete.mp h)), if_neg hmem]
            rfl
        have hfits' : ∀ count < (missing received r (start + 1)).length, Fits bytes count := by
          intro count hless'
          rcases Nat.lt_or_ge count (missing received r start).length with hold | hnew
          · exact hfits count hold
          · rw [missing_succ hlow, List.length_append] at hless'
            have hone : (if start ∈ received then [] else [start] : List Nat).length ≤ 1 := by
              split
              · exact Nat.zero_le _
              · exact Nat.le_refl _
            rw [show count = (missing received r start).length by omega]
            exact hroom
        rw [hpushed]
        obtain ⟨stop, hge, hstop, hheader, hstands, hall, hend⟩ :=
          ih hnext (by omega) hless (by omega) hfits'
        exact ⟨stop, by omega, hstop, hheader, hstands, hall, hend⟩
      next hstops =>
        refine ⟨start, Nat.le_refl _, hhigh, rfl, hsn, hfits, ?_⟩
        rcases Nat.eq_or_lt_of_le hhigh with heq | hless
        · exact .inl heq
        · exact .inr fun hroom => hstops ⟨hlt.mpr (by omega), hfit.mpr hroom⟩

/-- The number to acknowledge is the first one that is missing from the end of the loop on. -/
theorem Windowed.findAckSn (windowed : Windowed rx r ms h received) (fuel : Nat) :
    ∀ {sn : SequenceNumber10} {start : Nat}, sn.Stands r start → r ≤ start → start ≤ ms →
      ms ≤ start + fuel →
      ∃ ack, start ≤ ack ∧ ack ≤ ms ∧ ack ∉ received ∧ (rx.findAckSn fuel sn).Stands r ack ∧
        ∀ number, start ≤ number → number < ack → number ∈ received := by
  have holding := windowed.holding
  have hle := holding.le_ms
  have hms := holding.ms_le
  have hwindow := holding.window
  induction fuel with
  | zero =>
      intro sn start hsn hlow hhigh hfuel
      obtain rfl : start = ms := Nat.le_antisymm hhigh hfuel
      exact ⟨start, Nat.le_refl _, hhigh, windowed.missingMs, hsn,
        fun _ hge hlt => absurd hlt (Nat.not_lt.mpr hge)⟩
  | succ fuel ih =>
      intro sn start hsn hlow hhigh hfuel
      have hlt := hsn.lt_iff holding.vrMs (by omega) (by omega) (by omega) (by omega)
      have hkey : sn.value = start % 1024 := by
        have := hsn.value
        omega
      have hcomplete := holding.complete_mod hlow (by omega)
      have hmoves : sn.Lt rx.vrMs ∧ rx.complete (start % 1024) = true ↔
          start < ms ∧ start ∈ received := by
        rw [hlt, hcomplete]
        exact and_congr_left fun _ => Nat.cast_lt
      rw [AmReceiver.findAckSn, hkey]
      split
      next hmore =>
        have hmore := hmoves.mp hmore
        have hnext : sn.next.Stands r ((start + 1 : Nat) : Int) := by
          push_cast
          exact hsn.next
        obtain ⟨ack, hge, hack, hmissing, hstands, hall⟩ :=
          ih hnext (by omega) (by have := hmore.1; omega) (by omega)
        refine ⟨ack, by omega, hack, hmissing, hstands, fun number hnumber hless => ?_⟩
        rcases Nat.eq_or_lt_of_le hnumber with rfl | hlater
        · exact hmore.2
        · exact hall number hlater hless
      next hstops =>
        refine ⟨start, Nat.le_refl _, hhigh, fun hmem => hstops (hmoves.mpr ⟨?_, hmem⟩), hsn,
          fun _ hge hlt => absurd hlt (Nat.not_lt.mpr hge)⟩
        rcases Nat.eq_or_lt_of_le hhigh with rfl | hless
        · exact absurd hmem windowed.missingMs
        · omega

/-- How far the reports go: the check fails at the last one, or all are reported. -/
theorem overflows_iff (hbytes : 4 ≤ bytes) {count total : Nat} (hle : count ≤ total)
    (hfits : ∀ earlier < count, Fits bytes earlier) (hend : count = total ∨ ¬ Fits bytes count) :
    2 + nacksLength count ≤ bytes ↔
      (bytes < 65536 → bytes % 3 = 0 → total + 1 < 2 * (bytes / 3)) := by
  have hsize : ∀ reported, Fits bytes reported ↔
      (if reported % 2 = 0 then 2 else 3) + (reported + (reported + 1) / 2) < bytes % 65536 :=
    fun _ => Iff.rfl
  rw [nacksLength]
  constructor
  · intro hroom hsmall hthird
    by_contra hmany
    have hreached : ¬ count < 2 * (bytes / 3) - 1 := by
      intro hless
      rcases hend with rfl | hfull
      · omega
      · refine hfull ((hsize count).mpr ?_)
        split <;> omega
    omega
  · intro hcond
    by_contra hover
    have hlast := (hsize (count - 1)).mp (hfits (count - 1) (by omega))
    split at hlast
    next heven =>
      have hsmall : bytes < 65536 := by omega
      have hfew := hcond hsmall (by omega)
      omega
    next hodd => omega

/-- The header of a STATUS unit. -/
theorem Windowed.statusPdu (windowed : Windowed rx r ms h received) (bytes : Nat) :
    ∃ stop ack, r ≤ stop ∧ stop ≤ ack ∧ ack ≤ ms ∧ ack ∉ received ∧
      (∀ number, stop ≤ number → number < ack → number ∈ received) ∧
      rx.statusPdu bytes =
        some (Content.status (ack % 1024) ((missing received r stop).map (· % 1024))).header ∧
      (∀ count < (missing received r stop).length, Fits bytes count) ∧
      ((missing received r stop).length = (missing received r ms).length ∨
        ¬ Fits bytes (missing received r stop).length) := by
  have holding := windowed.holding
  have hle := holding.le_ms
  have hms := holding.ms_le
  have hwindow := holding.window
  have hnone : missing received r r = [] := by
    rw [missing, Nat.sub_self]
    rfl
  have hpush := @Windowed.pushMissing rx r ms h received bytes windowed 1024 rx.vrR r holding.vrR
    (Nat.le_refl r) hle (by omega) (by rw [hnone]; nofun)
  rw [hnone, List.map_nil, List.foldl_nil] at hpush
  obtain ⟨stop, hstart, hstop, hheader, hstands, hfits, hend⟩ := hpush
  obtain ⟨ack, hge, hack, hmissing, hackStands, hall⟩ :=
    windowed.findAckSn 1024 hstands hstart hstop (by omega)
  refine ⟨stop, ack, hstart, hge, hack, hmissing, hall, ?_, hfits, hend.imp (fun heq => by rw [heq]) id⟩
  have hlast := (hackStands.le_iff holding.vrMs (by omega) (by omega) (by omega) (by omega)).mpr
    (by exact_mod_cast hack)
  have hvalue : (rx.findAckSn 1024 (rx.pushMissing bytes 1024 rx.vrR
      (setControlPdu {} STATUS_PDU)).1).value = ack % 1024 := by
    have := hackStands.value
    omega
  rw [AmReceiver.statusPdu]
  simp only [if_pos hlast, hheader, hvalue]
  rfl

end Status

/-! ## Answers -/

/-- The number of the window with a key. -/
def Receiving.unwrap (receiving : Receiving) (sn : Nat) : Nat :=
  receiving.lowest + (sn + 1024 - receiving.rx.vrR.value) % 1024

/-- How many units from VR(R) to VR(MS) are missing. -/
def Receiving.missingCount (receiving : Receiving) : Nat :=
  (missing receiving.received receiving.lowest (receiving.unwrap receiving.rx.vrMs.value)).length

/-- The units below the acknowledged number are reported exactly when they are missing; this number
is missing and at most VR(MS). -/
structure Receiving.Truthful (receiving : Receiving) (rlcAmHeader : LteRlcAmHeader) : Prop where
  nacked : ∀ number, receiving.lowest ≤ number → number < receiving.unwrap rlcAmHeader.ackSn →
    (number % 1024 ∈ rlcAmHeader.nackSnList ↔ number ∉ receiving.received)
  ackMissing : receiving.unwrap rlcAmHeader.ackSn ∉ receiving.received
  ack_le : receiving.unwrap rlcAmHeader.ackSn ≤ receiving.unwrap receiving.rx.vrMs.value

/-- An opportunity is answered with a STATUS unit that is true and no longer than the opportunity. -/
def Receiving.AnswersRight (receiving : Receiving) (bytes : Nat) : Prop :=
  ∃ next rlcAmHeader, receiving.rx.doNotifyTxOpportunity bytes = some (next, some rlcAmHeader) ∧
    receiving.Truthful rlcAmHeader ∧ rlcAmHeader.serialize.length ≤ bytes

/-- The STATUS unit is true for every opportunity, and its length is known. -/
theorem Receiving.answers {events : List RxEvent} {receiving : Receiving}
    (hrun : runFrom Receiving.step {} events = some receiving)
    (hrequested : receiving.rx.statusPduRequested = true)
    (hallowed : receiving.rx.statusProhibitTimer = false) {bytes : Nat} (hbytes : 4 ≤ bytes) :
    ∃ next rlcAmHeader, receiving.rx.doNotifyTxOpportunity bytes = some (next, some rlcAmHeader) ∧
      receiving.Truthful rlcAmHeader ∧
      (rlcAmHeader.serialize.length ≤ bytes ↔
        (bytes < 65536 → bytes % 3 = 0 → receiving.missingCount + 1 < 2 * (bytes / 3))) := by
  obtain ⟨ms, h, windowed⟩ := Receiving.run_windowed hrun
  have hrequest := Receiving.run_statusPduBufferSize hrun
  have holding := windowed.holding
  have hle := holding.le_ms
  have hms := holding.ms_le
  have hwindow := holding.window
  have hvalueR := holding.vrR.value
  have hvalueMs := holding.vrMs.value
  obtain ⟨stop, ack, hstart, hstop, hack, hmissing, hall, hstatus, hfits, hend⟩ :=
    windowed.statusPdu bytes
  have hunwrap : receiving.unwrap (ack % 1024) = ack := by
    rw [Receiving.unwrap]
    omega
  have hunwrapMs : receiving.unwrap receiving.rx.vrMs.value = ms := by
    rw [Receiving.unwrap]
    omega
  refine ⟨{ receiving.rx with
      statusPduRequested := false
      statusPduBufferSize := 0
      statusProhibitTimer := true }, (Content.status (ack % 1024)
    ((missing receiving.received receiving.lowest stop).map (· % 1024))).header, ?_, ?_, ?_⟩
  · rw [doNotifyTxOpportunity, if_neg (by omega), if_pos ⟨hrequested, hallowed⟩,
      if_neg (by omega), hstatus]
    rfl
  · rw [LteRlcAmHeader.status_header]
    refine ⟨fun number hlow hhigh => ?_, ?_, ?_⟩
    · show number % 1024 ∈ (missing receiving.received receiving.lowest stop).map (· % 1024) ↔ _
      have hhigh : number < ack := hunwrap ▸ hhigh
      rw [List.mem_map]
      constructor
      · rintro ⟨other, hother, hmod⟩
        obtain ⟨hge, hlt, hnot⟩ := mem_missing.mp hother
        obtain rfl : other = number := by omega
        exact hnot
      · intro hnot
        refine ⟨number, mem_missing.mpr ⟨hlow, ?_, hnot⟩, rfl⟩
        by_contra hbeyond
        exact hnot (hall number (Nat.le_of_not_lt hbeyond) hhigh)
    · show receiving.unwrap (ack % 1024) ∉ _
      rw [hunwrap]
      exact hmissing
    · show receiving.unwrap (ack % 1024) ≤ _
      rw [hunwrap, hunwrapMs]
      exact hack
  · rw [LteRlcAmHeader.status_serialize_length, List.length_map, Receiving.missingCount, hunwrapMs]
    refine overflows_iff hbytes ?_ hfits hend
    exact ((List.range'_sublist_right.mpr (by omega)).filter _).length_le

/-- The answer to an opportunity is right exactly when its size is no multiple of three, or too few
units are missing for the check that fails. -/
theorem Receiving.answersRight_iff {events : List RxEvent} {receiving : Receiving}
    (hrun : runFrom Receiving.step {} events = some receiving)
    (hrequested : receiving.rx.statusPduRequested = true)
    (hallowed : receiving.rx.statusProhibitTimer = false) {bytes : Nat} (hbytes : 4 ≤ bytes) :
    receiving.AnswersRight bytes ↔
      (bytes < 65536 → bytes % 3 = 0 → receiving.missingCount + 1 < 2 * (bytes / 3)) := by
  obtain ⟨next, rlcAmHeader, hnotify, htruthful, hlength⟩ :=
    Receiving.answers hrun hrequested hallowed hbytes
  rw [← hlength]
  constructor
  · rintro ⟨other, otherHeader, hother, -, hfits⟩
    rw [hnotify] at hother
    cases hother
    exact hfits
  · exact fun hfits => ⟨next, rlcAmHeader, hnotify, htruthful, hfits⟩

/-- A unit of one byte that polls. -/
def polling (sn : Nat) (byte : UInt8) : List UInt8 := [0xA0, UInt8.ofNat sn, 0, 0, byte]

/-- The units 1 and 3 are received before t-Reordering expires. -/
def twoHoles : List RxEvent := [.pdu (polling 1 7), .pdu (polling 3 8), .reorderingExpires]

theorem Receiving.answersRight_iff_twoHoles :
    ∃ receiving, runFrom Receiving.step {} twoHoles = some receiving ∧
      (receiving.AnswersRight 100 ↔
        (100 < 65536 → 100 % 3 = 0 → receiving.missingCount + 1 < 2 * (100 / 3))) := by
  have hresult : (runFrom Receiving.step {} twoHoles).map (fun receiving =>
      (receiving.rx.statusPduRequested, receiving.rx.statusProhibitTimer)) = some (true, false) := by
    decide +kernel
  obtain ⟨receiving, hrun, heq⟩ := Option.map_eq_some_iff.mp hresult
  obtain ⟨hrequested, hallowed⟩ := Prod.mk.inj heq
  exact ⟨receiving, hrun, Receiving.answersRight_iff hrun hrequested hallowed (by decide)⟩

/-- The units 0, 1 and 2 are missing below VR(MS): an opportunity of six bytes is answered with
seven. -/
theorem Receiving.answers_tooLong :
    ∃ events receiving next rlcAmHeader, runFrom Receiving.step {} events = some receiving ∧
      receiving.rx.doNotifyTxOpportunity 6 = some (next, some rlcAmHeader) ∧
      rlcAmHeader.serialize.length = 7 ∧ ¬ receiving.AnswersRight 6 := by
  have hresult : (runFrom Receiving.step {} [.pdu (polling 3 7), .reorderingExpires]).bind
      (fun receiving => (receiving.rx.doNotifyTxOpportunity 6).bind fun result =>
        result.2.map fun rlcAmHeader => rlcAmHeader.serialize.length) = some 7 := by decide +kernel
  obtain ⟨receiving, hrun, hresult⟩ := Option.bind_eq_some_iff.mp hresult
  obtain ⟨⟨next, header⟩, hnotify, hresult⟩ := Option.bind_eq_some_iff.mp hresult
  obtain ⟨rlcAmHeader, rfl, hlength⟩ := Option.map_eq_some_iff.mp hresult
  refine ⟨_, receiving, next, rlcAmHeader, hrun, hnotify, hlength, ?_⟩
  rintro ⟨other, otherHeader, hother, -, hfits⟩
  rw [hnotify] at hother
  cases hother
  omega

end AmReceiver

end DeepcV2x.Rlc
