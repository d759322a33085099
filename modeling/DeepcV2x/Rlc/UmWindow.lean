import DeepcV2x.Rlc.UmLossless
import Mathlib.Data.List.Sort

/-!
# The window over losses and reordering

The receiver is compared with unwrapped numbers: the buffer holds units between
VR(UR) and VR(UH), the reassembly expects a number at most VR(UR), and the
units delivered are among those finished before it, in their order.
-/

namespace DeepcV2x.Rlc

open Foundation.Segmentation

namespace UmReceiver

/-- The units sent carry chunks whose marks agree. -/
structure Sent (pdus : List RlcPdu) (chunks : List (Chunk UInt8)) : Prop where
  length_eq : pdus.length = chunks.length
  carries : ∀ number pdu chunk, pdus[number]? = some pdu → chunks[number]? = some chunk →
    UmTransmitter.Carries pdu number chunk
  consistent : Consistent chunks

theorem Sent.chunk {pdus : List RlcPdu} {chunks : List (Chunk UInt8)} (sent : Sent pdus chunks)
    {number : Nat} {pdu : RlcPdu} (hpdu : pdus[number]? = some pdu) :
    ∃ chunk, chunks[number]? = some chunk ∧ UmTransmitter.Carries pdu number chunk ∧
      chunk.pieces ≠ [] ∧ (∀ piece ∈ chunk.pieces, piece ≠ []) ∧
      (chunk.continues = true ↔ leftBefore chunks number ≠ []) := by
  obtain ⟨hlt, -⟩ := List.getElem?_eq_some_iff.mp hpdu
  rw [sent.length_eq] at hlt
  have hchunk := List.getElem?_eq_getElem hlt
  obtain ⟨hpieces, hbytes, hcontinues⟩ := sent.consistent number _ hchunk
  exact ⟨_, hchunk, sent.carries number pdu _ hpdu hchunk, hpieces, hbytes, hcontinues⟩

/-- The buffer holds units between two numbers, one in each stretch of 512 from the expected number
on; what was delivered was finished before the expected number, in that order. -/
structure Waiting (pdus : List RlcPdu) (chunks : List (Chunk UInt8)) (rx : UmReceiver)
    (low high expected : Nat) (delivered : List (List UInt8)) : Prop where
  expected_le : expected ≤ low
  low_le : low ≤ high
  span : high ≤ low + 1024
  waits : ∀ key packet, rx.rxBuffer key = some packet →
    ∃ number pdu, low ≤ number ∧ number < high ∧ number % 1024 = key ∧
      pdus[number]? = some pdu ∧ packet = pdu.wire
  dense : ∀ number, expected ≤ number → number < high →
    ∃ later, number ≤ later ∧ low ≤ later ∧ later < high ∧ later < number + 512 ∧
      (rx.rxBuffer (later % 1024)).isSome = true
  expectedSeqNumber : rx.expectedSeqNumber.value = expected % 1024
  sdusBuffer : rx.sdusBuffer = []
  synced : Synced rx (leftBefore chunks expected)
  delivered : delivered.Sublist (finishedBefore chunks expected)

/-- Only the buffers and the reassembly may have changed. -/
structure SameWindow (rx next : UmReceiver) : Prop where
  windowSize : next.windowSize = rx.windowSize
  vrUr : next.vrUr = rx.vrUr
  vrUx : next.vrUx = rx.vrUx
  vrUh : next.vrUh = rx.vrUh
  reorderingTimer : next.reorderingTimer = rx.reorderingTimer

theorem SameWindow.refl (rx : UmReceiver) : SameWindow rx rx := ⟨rfl, rfl, rfl, rfl, rfl⟩

theorem SameWindow.trans {rx next last : UmReceiver} (left : SameWindow rx next)
    (right : SameWindow next last) : SameWindow rx last :=
  ⟨right.windowSize.trans left.windowSize, right.vrUr.trans left.vrUr, right.vrUx.trans left.vrUx,
    right.vrUh.trans left.vrUh, right.reorderingTimer.trans left.reorderingTimer⟩

namespace Waiting

variable {pdus : List RlcPdu} {chunks : List (Chunk UInt8)} {rx : UmReceiver}
  {low high expected : Nat} {delivered : List (List UInt8)}

/-- A key below 1024 above the lower bound is the number of the unit it holds. -/
theorem unit (waiting : Waiting pdus chunks rx low high expected delivered) {number : Nat}
    (hlow : low ≤ number) (hhigh : number < low + 1024)
    (hsome : (rx.rxBuffer (number % 1024)).isSome = true) :
    number < high ∧ ∃ pdu, pdus[number]? = some pdu ∧
      rx.rxBuffer (number % 1024) = some pdu.wire := by
  obtain ⟨packet, hpacket⟩ := Option.isSome_iff_exists.mp hsome
  obtain ⟨other, pdu, hother, hlt, hkey, hpdu, rfl⟩ := waiting.waits _ _ hpacket
  have hspan := waiting.span
  obtain rfl : other = number := by omega
  exact ⟨hlt, pdu, hpdu, hpacket⟩

/-- The lower bound passes numbers that are not buffered. -/
theorem raise (waiting : Waiting pdus chunks rx low high expected delivered) {bound : Nat}
    (hbound : low ≤ bound) (hle : bound ≤ high)
    (hmissing : ∀ number, low ≤ number → number < bound → rx.rxBuffer (number % 1024) = none) :
    Waiting pdus chunks rx bound high expected delivered where
  expected_le := waiting.expected_le.trans hbound
  low_le := hle
  span := waiting.span.trans (Nat.add_le_add_right hbound 1024)
  waits := by
    intro key packet hpacket
    obtain ⟨number, pdu, hlow, hhigh, rfl, hpdu, hwire⟩ := waiting.waits key packet hpacket
    refine ⟨number, pdu, ?_, hhigh, rfl, hpdu, hwire⟩
    by_contra hlt
    rw [hmissing number hlow (Nat.lt_of_not_le hlt)] at hpacket
    cases hpacket
  dense := by
    intro number hexpected hhigh
    obtain ⟨later, hnumber, hlow, hlater, hnear, hsome⟩ := waiting.dense number hexpected hhigh
    refine ⟨later, hnumber, ?_, hlater, hnear, hsome⟩
    by_contra hlt
    rw [hmissing later hlow (Nat.lt_of_not_le hlt)] at hsome
    cases hsome
  expectedSeqNumber := waiting.expectedSeqNumber
  sdusBuffer := waiting.sdusBuffer
  synced := waiting.synced
  delivered := waiting.delivered

/-- The next buffered unit is less than 512 above the expected number. -/
theorem near (waiting : Waiting pdus chunks rx low high expected delivered) (hlt : low < high) :
    low < expected + 512 := by
  rcases Nat.lt_or_ge low (expected + 512) with hnear | hfar
  · exact hnear
  · obtain ⟨later, -, hlow, -, hlater, -⟩ := waiting.dense expected (Nat.le_refl _) (by omega)
    omega

/-- The unit at the lower bound is taken out and reassembled. -/
theorem takeOut (sent : Sent pdus chunks)
    (waiting : Waiting pdus chunks rx low high expected delivered)
    (hsome : (rx.rxBuffer (low % 1024)).isSome = true) :
    ∃ next out, rx.takeOut (low % 1024) = some (next, out) ∧
      Waiting pdus chunks next (low + 1) high (low + 1) (delivered ++ out) ∧
      SameWindow rx next ∧ next.rxBuffer = Function.update rx.rxBuffer (low % 1024) none := by
  obtain ⟨hhigh, pdu, hpdu, hbuffered⟩ :=
    waiting.unit (Nat.le_refl low) (Nat.lt_add_of_pos_right (by decide)) hsome
  obtain ⟨chunk, hchunk, hcarries, hpieces, hbytes, hcontinues⟩ := sent.chunk hpdu
  have hnear := waiting.near hhigh
  have hle := waiting.expected_le
  have hspan := waiting.span
  have hdelivers : ∃ expectedSeqNumber complete, expectedSeqNumber.value = (low + 1) % 1024 ∧
      Delivers { rx with expectedSeqNumber := expectedSeqNumber } (leftBefore chunks low) chunk
        (rx.reassembleAndDeliver pdu.wire) complete := by
    rcases Nat.eq_or_lt_of_le hle with rfl | hlt
    · exact ⟨_, _, next_value waiting.expectedSeqNumber, reassemble_inOrder hcarries hpieces hbytes
        hcontinues waiting.sdusBuffer waiting.expectedSeqNumber waiting.synced⟩
    · refine ⟨_, _, rfl, reassemble_afterLoss hcarries hpieces hbytes hcontinues waiting.sdusBuffer ?_⟩
      rw [waiting.expectedSeqNumber]
      omega
  obtain ⟨expectedSeqNumber, _, hvalue, hreassembled⟩ := hdelivers
  obtain ⟨next, out, hresult, ⟨state, keep, rfl⟩, hsublist, hsynced, -⟩ := hreassembled.delivers
  let taken : UmReceiver := { rx with
    rxBuffer := Function.update rx.rxBuffer (low % 1024) none
    expectedSeqNumber := expectedSeqNumber
    reassemblingState := state
    keepS0 := keep
    sdusBuffer := [] }
  have htake : rx.takeOut (low % 1024) = some (taken, out) := by
    rw [UmReceiver.takeOut, hbuffered]
    simp only [hresult, Option.map_some]
    rfl
  refine ⟨taken, out, htake, ?_, ⟨rfl, rfl, rfl, rfl, rfl⟩, rfl⟩
  have hmissing : ∀ key packet, Function.update rx.rxBuffer (low % 1024) none key = some packet →
      key ≠ low % 1024 ∧ rx.rxBuffer key = some packet := by
    intro key packet hpacket
    rw [Function.update_apply] at hpacket
    split at hpacket
    next => cases hpacket
    next hne => exact ⟨hne, hpacket⟩
  exact {
    expected_le := Nat.le_refl _
    low_le := hhigh
    span := by omega
    waits := by
      intro key packet hpacket
      obtain ⟨hne, hold⟩ := hmissing key packet hpacket
      obtain ⟨number, other, hlow, hlt, rfl, hother⟩ := waiting.waits key packet hold
      refine ⟨number, other, ?_, hlt, rfl, hother⟩
      rcases Nat.eq_or_lt_of_le hlow with rfl | hmore
      · exact absurd rfl hne
      · exact hmore
    dense := by
      intro number hnumber hlt
      obtain ⟨later, hlater, -, hlast, hstretch, hbuffer⟩ := waiting.dense number (by omega) hlt
      refine ⟨later, hlater, by omega, hlast, hstretch, ?_⟩
      show (Function.update rx.rxBuffer (low % 1024) none (later % 1024)).isSome = true
      rw [Function.update_of_ne (by omega)]
      exact hbuffer
    expectedSeqNumber := hvalue
    sdusBuffer := rfl
    synced := by
      rw [leftBefore_succ hchunk]
      exact hsynced
    delivered := by
      rw [finishedBefore_succ hchunk]
      exact (waiting.delivered.trans (finishedBefore_sublist chunks hle)).append hsublist }

/-- Units taken out in ascending order, up to a bound. -/
theorem takeOutAll (sent : Sent pdus chunks) {bound : Nat} (numbers : List Nat) :
    ∀ {rx : UmReceiver} {low expected : Nat} {delivered : List (List UInt8)},
      Waiting pdus chunks rx low high expected delivered → low ≤ bound → bound ≤ high →
      numbers.Pairwise (· < ·) →
      (∀ number, number ∈ numbers ↔ low ≤ number ∧ number < bound ∧
        (rx.rxBuffer (number % 1024)).isSome = true) →
      ∃ next out expected', rx.takeOutAll (numbers.map (· % 1024)) = some (next, out) ∧
        Waiting pdus chunks next bound high expected' (delivered ++ out) ∧ SameWindow rx next ∧
        ∀ key, (next.rxBuffer key).isSome = true → (rx.rxBuffer key).isSome = true := by
  induction numbers with
  | nil =>
      intro rx low expected delivered waiting hlow hhigh _ hall
      refine ⟨rx, [], expected, rfl, ?_, SameWindow.refl rx, fun _ hsome => hsome⟩
      rw [List.append_nil]
      refine waiting.raise hlow hhigh fun number hge hlt => ?_
      by_contra hsome
      exact List.not_mem_nil ((hall number).mpr ⟨hge, hlt, Option.isSome_iff_ne_none.mpr hsome⟩)
  | cons number numbers ih =>
      intro rx low expected delivered waiting hlow hhigh hsorted hall
      rw [List.pairwise_cons] at hsorted
      obtain ⟨hge, hlt, hsome⟩ := (hall number).mp List.mem_cons_self
      have hraised := waiting.raise hge (hlt.le.trans hhigh) fun other hother hless => by
        by_contra hne
        rcases List.mem_cons.mp ((hall other).mpr ⟨hother, hless.trans hlt,
          Option.isSome_iff_ne_none.mpr hne⟩) with rfl | hmem
        · exact Nat.lt_irrefl _ hless
        · exact Nat.lt_asymm hless (hsorted.1 other hmem)
      obtain ⟨taken, out, htake, htaken, hsame, hbuffer⟩ := hraised.takeOut sent hsome
      have hspan := hraised.span
      obtain ⟨next, rest, expected', hrest, hnext, hsame', hfewer⟩ := ih htaken hlt hhigh hsorted.2
        (fun other => by
          constructor
          · intro hmem
            have hless := hsorted.1 other hmem
            obtain ⟨-, hbound, hother⟩ := (hall other).mp (List.mem_cons_of_mem _ hmem)
            refine ⟨hless, hbound, ?_⟩
            rw [hbuffer, Function.update_of_ne (by omega)]
            exact hother
          · rintro ⟨hless, hbound, hother⟩
            rw [hbuffer, Function.update_of_ne (by omega)] at hother
            rcases List.mem_cons.mp ((hall other).mpr ⟨hge.trans (Nat.le_of_lt hless), hbound, hother⟩)
              with rfl | hmem
            · exact absurd hless (Nat.lt_irrefl _)
            · exact hmem)
      refine ⟨next, out ++ rest, expected', ?_, ?_, hsame.trans hsame', fun key hkey => ?_⟩
      · rw [List.map_cons, UmReceiver.takeOutAll, htake]
        simp only [hrest, Option.map_some]
      · rw [← List.append_assoc]
        exact hnext
      · have hbefore := hfewer key hkey
        rw [hbuffer, Function.update_apply] at hbefore
        split at hbefore
        next => cases hbefore
        next => exact hbefore

/-- An interval is reassembled in ascending order. -/
theorem interval (sent : Sent pdus chunks) {base : Int} {bound : Nat} (fuel : Nat) :
    ∀ {rx : UmReceiver} {low expected : Nat} {delivered : List (List UInt8)}
      {reassembleSn highSeqNumber : SequenceNumber10},
      Waiting pdus chunks rx low high expected delivered → low ≤ bound → bound ≤ high →
      reassembleSn.Stands base low → highSeqNumber.Stands base bound → base ≤ low →
      (bound : Int) < base + 1024 → bound ≤ low + fuel →
      ∃ next out expected', rx.reassembleSnInterval fuel reassembleSn highSeqNumber = some (next, out) ∧
        Waiting pdus chunks next bound high expected' (delivered ++ out) ∧ SameWindow rx next := by
  induction fuel with
  | zero =>
      intro rx low expected delivered _ _ waiting hlow _ _ _ _ _ hfuel
      obtain rfl : low = bound := Nat.le_antisymm hlow hfuel
      refine ⟨rx, [], expected, rfl, ?_, SameWindow.refl rx⟩
      rw [List.append_nil]
      exact waiting
  | succ fuel ih =>
      intro rx low expected delivered reassembleSn highSeqNumber waiting hlow hhigh hsn hbound hbase
        hwide hfuel
      have hlt := hsn.lt_iff hbound hbase (by omega) (by omega) hwide
      rw [reassembleSnInterval]
      rcases Nat.eq_or_lt_of_le hlow with rfl | hless
      · refine ⟨rx, [], expected, if_neg fun h => absurd (hlt.mp h) (lt_irrefl _), ?_,
          SameWindow.refl rx⟩
        rw [List.append_nil]
        exact waiting
      · have hkey : reassembleSn.value = low % 1024 := by
          have := hsn.value
          omega
        have hnext : reassembleSn.next.Stands base ((low + 1 : Nat) : Int) := by
          push_cast
          exact hsn.next
        rw [if_pos (hlt.mpr (by omega)), hkey]
        cases hbuffered : rx.rxBuffer (low % 1024) with
        | none =>
            have hraised := waiting.raise (Nat.le_succ low) (Nat.succ_le_of_lt (hless.trans_le hhigh))
              fun number hge hle => by
                obtain rfl : number = low := by omega
                exact hbuffered
            obtain ⟨next, out, expected', hrest, hwaiting, hsame⟩ :=
              ih hraised hless hhigh hnext hbound (by omega) hwide (by omega)
            refine ⟨next, out, expected', ?_, hwaiting, hsame⟩
            rw [UmReceiver.takeOut, hbuffered]
            simp only [hrest, Option.map_some, List.nil_append]
        | some packet =>
            obtain ⟨taken, out, htake, htaken, hsame, -⟩ :=
              waiting.takeOut sent (by rw [hbuffered]; rfl)
            obtain ⟨next, rest, expected', hrest, hwaiting, hsame'⟩ :=
              ih htaken hless hhigh hnext hbound (by omega) hwide (by omega)
            refine ⟨next, out ++ rest, expected', ?_, ?_, hsame.trans hsame'⟩
            · rw [htake]
              simp only [hrest, Option.map_some]
            · rw [← List.append_assoc]
              exact hwaiting

/-- The variables outside the buffers do not matter. -/
theorem withVariables (waiting : Waiting pdus chunks rx low high expected delivered)
    (vrUr vrUx vrUh : SequenceNumber10) (reorderingTimer : Bool) :
    Waiting pdus chunks
      { rx with vrUr := vrUr, vrUx := vrUx, vrUh := vrUh, reorderingTimer := reorderingTimer }
      low high expected delivered where
  expected_le := waiting.expected_le
  low_le := waiting.low_le
  span := waiting.span
  waits := waiting.waits
  dense := waiting.dense
  expectedSeqNumber := waiting.expectedSeqNumber
  sdusBuffer := waiting.sdusBuffer
  synced := waiting.synced
  delivered := waiting.delivered

/-- A unit not below the lower bound and less than 512 above the upper one is put in the buffer. -/
theorem put (waiting : Waiting pdus chunks rx low high expected delivered)
    (hspan : high ≤ low + 512) {number : Nat} {pdu : RlcPdu} (hpdu : pdus[number]? = some pdu)
    (hlow : low ≤ number) (hnear : number < high + 512) :
    Waiting pdus chunks (rx.put (number % 1024) pdu.wire) low (max high (number + 1)) expected
      delivered where
  expected_le := waiting.expected_le
  low_le := waiting.low_le.trans (Nat.le_max_left _ _)
  span := by omega
  waits := by
    intro key packet hpacket
    have hupdate : Function.update rx.rxBuffer (number % 1024) (some pdu.wire) key = some packet :=
      hpacket
    rw [Function.update_apply] at hupdate
    split at hupdate
    next hkey =>
      exact ⟨number, pdu, hlow, by omega, hkey.symm, hpdu, (Option.some.inj hupdate).symm⟩
    next hne =>
      obtain ⟨other, otherPdu, hother, hlt, hrest⟩ := waiting.waits key packet hupdate
      exact ⟨other, otherPdu, hother, by omega, hrest⟩
  dense := by
    intro other hother hlt
    have hsome : ∀ key, (rx.rxBuffer key).isSome = true →
        (Function.update rx.rxBuffer (number % 1024) (some pdu.wire) key).isSome = true := by
      intro key hkey
      rw [Function.update_apply]
      split
      next => rfl
      next => exact hkey
    rcases Nat.lt_or_ge other high with hold | hnew
    · obtain ⟨later, hlater, hge, hhigh, hstretch, hbuffer⟩ := waiting.dense other hother hold
      exact ⟨later, hlater, hge, by omega, hstretch, hsome _ hbuffer⟩
    · refine ⟨number, by omega, hlow, by omega, by omega, ?_⟩
      show (Function.update rx.rxBuffer (number % 1024) (some pdu.wire) (number % 1024)).isSome = true
      rw [Function.update_self]
      rfl
  expectedSeqNumber := waiting.expectedSeqNumber
  sdusBuffer := waiting.sdusBuffer
  synced := waiting.synced
  delivered := waiting.delivered

end Waiting

/-! ## VR(UR) -/

theorem firstMissing_spec (rxBuffer : Nat → Option (List UInt8)) (fuel : Nat) : ∀ start : Nat,
    start ≤ firstMissing rxBuffer fuel start ∧ ∀ key, start ≤ key →
      key < firstMissing rxBuffer fuel start → (rxBuffer key).isSome = true := by
  induction fuel with
  | zero => exact fun start => ⟨Nat.le_refl _, fun key hge hlt => absurd hlt (Nat.not_lt.mpr hge)⟩
  | succ fuel ih =>
      intro start
      rw [firstMissing]
      split
      next hsome =>
        obtain ⟨hle, hall⟩ := ih (start + 1)
        refine ⟨Nat.le_of_succ_le hle, fun key hge hlt => ?_⟩
        rcases Nat.eq_or_lt_of_le hge with rfl | hmore
        · exact hsome
        · exact hall key hmore hlt
      next => exact ⟨Nat.le_refl _, fun key hge hlt => absurd hlt (Nat.not_lt.mpr hge)⟩

theorem firstMissingSn_spec {rxBuffer : Nat → Option (List UInt8)} {base : Int} (fuel : Nat) :
    ∀ {sn : SequenceNumber10} {number : Nat}, sn.Stands base number →
      ∃ bound : Nat, number ≤ bound ∧ (firstMissingSn rxBuffer fuel sn).Stands base bound ∧
        ∀ other, number ≤ other → other < bound → (rxBuffer (other % 1024)).isSome = true := by
  induction fuel with
  | zero =>
      exact fun {_ number} hsn =>
        ⟨number, Nat.le_refl _, hsn, fun _ hge hlt => absurd hlt (Nat.not_lt.mpr hge)⟩
  | succ fuel ih =>
      intro sn number hsn
      have hvalue := hsn.value
      have hkey : sn.value = number % 1024 := by omega
      rw [firstMissingSn, hkey]
      split
      next hsome =>
        have hnext : sn.next.Stands base ((number + 1 : Nat) : Int) := by
          push_cast
          exact hsn.next
        obtain ⟨bound, hle, hbound, hall⟩ := ih hnext
        refine ⟨bound, Nat.le_of_succ_le hle, hbound, fun other hge hlt => ?_⟩
        rcases Nat.eq_or_lt_of_le hge with rfl | hmore
        · exact hsome
        · exact hall other hmore hlt
      next =>
        exact ⟨number, Nat.le_refl _, hsn, fun _ hge hlt => absurd hlt (Nat.not_lt.mpr hge)⟩

section Steps

variable {pdus : List RlcPdu} {chunks : List (Chunk UInt8)} {rx : UmReceiver}
  {low high expected : Nat} {delivered : List (List UInt8)}

/-- Numbers up to a bound that are all buffered are below the upper bound. -/
theorem Waiting.le_of_all (waiting : Waiting pdus chunks rx low high expected delivered)
    {start bound : Nat} (hstart : low ≤ start) (hle : start ≤ high)
    (hnear : high < bound → high < low + 1024)
    (hall : ∀ number, start ≤ number → number < bound →
      (rx.rxBuffer (number % 1024)).isSome = true) : bound ≤ high := by
  by_contra hlt
  have hless := Nat.lt_of_not_le hlt
  exact Nat.lt_irrefl _
    (waiting.unit (hstart.trans hle) (hnear hless) (hall high hle hless)).1

/-- VR(UR) moves over units that are buffered, which are reassembled. -/
theorem Waiting.moveVrUr (sent : Sent pdus chunks)
    (waiting : Waiting pdus chunks rx low high expected delivered) {base : Int}
    (hvrUr : rx.vrUr.Stands base low) (hbase : base ≤ low)
    (hwide : (rx.rxBuffer (low % 1024)).isSome = true → (high : Int) < base + 1024) :
    ∃ next out expected' low', rx.moveVrUr = some (next, out) ∧
      Waiting pdus chunks next low' high expected' (delivered ++ out) ∧
      next.vrUr.value = low' % 1024 ∧ low ≤ low' ∧ next.windowSize = rx.windowSize ∧
      next.vrUh = rx.vrUh ∧ next.vrUx = rx.vrUx ∧ next.reorderingTimer = rx.reorderingTimer := by
  have hvalue : rx.vrUr.value = low % 1024 := by
    have := hvrUr.value
    omega
  rw [UmReceiver.moveVrUr, hvalue]
  by_cases hsome : (rx.rxBuffer (low % 1024)).isSome = true
  · rw [if_pos hsome]
    obtain ⟨hge, hall⟩ := firstMissing_spec rx.rxBuffer 1024 (low % 1024 + 1)
    generalize firstMissing rx.rxBuffer 1024 (low % 1024 + 1) = found at hge hall
    have hspan := waiting.span
    have hkeys : ∀ key packet, rx.rxBuffer key = some packet → key < 1024 := by
      intro key packet hpacket
      obtain ⟨number, -, -, -, rfl, -⟩ := waiting.waits key packet hpacket
      exact Nat.mod_lt _ (by decide)
    have hfound : found ≤ 1024 := by
      by_contra hlt
      obtain ⟨packet, hpacket⟩ := Option.isSome_iff_exists.mp (hall 1024 (by omega) (by omega))
      exact Nat.lt_irrefl _ (hkeys 1024 packet hpacket)
    have hbound : low + (found - low % 1024) ≤ high := by
      refine waiting.le_of_all (Nat.le_refl low) waiting.low_le (by omega) fun number hlow hlt => ?_
      rcases Nat.eq_or_lt_of_le hlow with rfl | hmore
      · exact hsome
      · have hkey := hall (number % 1024) (by omega) (by omega)
        exact hkey
    have hfar := hwide hsome
    let advanced : UmReceiver := { rx with vrUr := rx.vrUr.assign found }
    have standsNew : (rx.vrUr.assign found).Stands base ((low + (found - low % 1024) : Nat) : Int) :=
      hvrUr.assign (by omega)
    obtain ⟨next, out, expected', hnext, hwaiting, hsame⟩ :=
      @Waiting.interval pdus chunks high sent base (low + (found - low % 1024)) 1024 advanced low expected
        delivered rx.vrUr (rx.vrUr.assign found) (waiting.withVariables _ rx.vrUx rx.vrUh rx.reorderingTimer)
        (Nat.le_add_right _ _) hbound hvrUr standsNew hbase (by omega) (by omega)
    refine ⟨next, out, expected', low + (found - low % 1024), hnext, hwaiting, ?_, Nat.le_add_right _ _,
      hsame.windowSize, hsame.vrUh, hsame.vrUx, hsame.reorderingTimer⟩
    rw [hsame.vrUr]
    show (rx.vrUr.assign found).value = _
    have := standsNew.value
    omega
  · rw [if_neg hsome]
    refine ⟨rx, [], expected, low, rfl, ?_, hvalue, Nat.le_refl _, rfl, rfl, rfl, rfl⟩
    rw [List.append_nil]
    exact waiting

/-! ## The window -/

/-- How far a unit is behind the highest one. -/
def age (number key : Nat) : Nat := (number + 1024 - key) % 1024

/-- The keys of the buffer once a unit is put there. -/
def keysWith (rx : UmReceiver) (number : Nat) : List Nat :=
  (List.range 1024).filter fun key => key = number % 1024 ∨ (rx.rxBuffer key).isSome = true

/-- A unit that leaves the window has a smaller key than a unit behind it. -/
def LeavesBefore (number key later : Nat) : Prop :=
  512 ≤ age number key → age number later < age number key → key < later

instance (number key later : Nat) : Decidable (LeavesBefore number key later) :=
  inferInstanceAs (Decidable (_ → _ → _))

/-- Each unit that leaves the window has a smaller key than the units behind it. -/
def LeavesInOrder (rx : UmReceiver) (number : Nat) : Prop :=
  ∀ key ∈ rx.keysWith number, ∀ later ∈ rx.keysWith number, LeavesBefore number key later

instance (rx : UmReceiver) (number : Nat) : Decidable (rx.LeavesInOrder number) :=
  @List.decidableBAll _ _ (fun _ => List.decidableBAll _ _) _

theorem age_mod {number other : Nat} (hle : other ≤ number) (hnear : number < other + 1024) :
    age number (other % 1024) = number - other := by
  rw [age]
  omega

theorem takeWhile_eq_filter {test : Nat → Bool} {keys : List Nat}
    (hfirst : keys.Pairwise fun key later => test later = true → test key = true) :
    keys.takeWhile test = keys.filter test := by
  induction keys with
  | nil => rfl
  | cons key keys ih =>
      rw [List.pairwise_cons] at hfirst
      rw [List.takeWhile_cons, List.filter_cons, ih hfirst.2]
      split
      next => rfl
      next hfail =>
        refine (List.filter_eq_nil_iff.mpr fun later hmem htest => hfail ?_).symm
        exact hfirst.1 later hmem htest

/-- The units that leave the window, in ascending order. -/
def leaving (rx : UmReceiver) (low number : Nat) : List Nat :=
  (List.range number).filter fun other =>
    low ≤ other ∧ other + 512 ≤ number ∧ (rx.rxBuffer (other % 1024)).isSome = true

/-- When units leave the window in order, the keys taken out are theirs. -/
theorem keysOutside_eq {number : Nat}
    (hinside : ∀ other, low ≤ other → other ≤ number →
      (rx.InsideWindow (.ofValue (other % 1024)) ↔ number < other + 512))
    (hkeys : ∀ key, (rx.rxBuffer key).isSome = true →
      ∃ other, low ≤ other ∧ other ≤ number ∧ other % 1024 = key)
    (hspan : number < low + 1024)
    (horder : ∀ key later, (rx.rxBuffer key).isSome = true → (rx.rxBuffer later).isSome = true →
      LeavesBefore number key later) :
    rx.keysOutside = (rx.leaving low number).map (· % 1024) := by
  have houtside : ∀ other, low ≤ other → other ≤ number →
      (¬ rx.InsideWindow (.ofValue (other % 1024)) ↔ 512 ≤ age number (other % 1024)) := by
    intro other hlow hhigh
    rw [hinside other hlow hhigh, age_mod hhigh (by omega)]
    omega
  have hfilter : rx.keysOutside = ((List.range 1024).filter fun key =>
      (rx.rxBuffer key).isSome).filter fun key => ¬ rx.InsideWindow (.ofValue key) := by
    refine takeWhile_eq_filter ?_
    rw [List.pairwise_filter]
    refine List.pairwise_lt_range.imp fun {key later} hlt hkey hlater htest => ?_
    obtain ⟨other, hlow, hhigh, rfl⟩ := hkeys key hkey
    obtain ⟨other', hlow', hhigh', rfl⟩ := hkeys later hlater
    rw [decide_eq_true_iff, houtside other' hlow' hhigh'] at htest
    rw [decide_eq_true_iff, houtside other hlow hhigh]
    by_contra hyoung
    have := horder _ _ hlater hkey htest (by omega)
    omega
  have hsorted : ((rx.leaving low number).map (· % 1024)).Pairwise (· < ·) := by
    rw [List.pairwise_map, leaving, List.pairwise_filter]
    refine List.pairwise_lt_range.imp fun {other later} hlt hother hlater => ?_
    rw [decide_eq_true_iff] at hother hlater
    refine horder _ _ hother.2.2 hlater.2.2 ?_ ?_
    · rw [age_mod (by omega) (by omega)]
      omega
    · rw [age_mod (by omega) (by omega), age_mod (by omega) (by omega)]
      omega
  rw [hfilter]
  have hperm : ((((List.range 1024).filter fun key =>
      (rx.rxBuffer key).isSome).filter fun key => ¬ rx.InsideWindow (.ofValue key))).Perm
      ((rx.leaving low number).map (· % 1024)) := by
    refine (List.perm_ext_iff_of_nodup ((List.nodup_range.filter _).filter _)
      (hsorted.imp fun hlt => hlt.ne)).mpr fun key => ?_
    rw [List.mem_filter, List.mem_filter, List.mem_range, decide_eq_true_iff, List.mem_map]
    constructor
    · rintro ⟨⟨-, hsome⟩, hout⟩
      obtain ⟨other, hlow, hhigh, rfl⟩ := hkeys key hsome
      rw [houtside other hlow hhigh, age_mod hhigh (by omega)] at hout
      refine ⟨other, List.mem_filter.mpr ⟨List.mem_range.mpr (by omega), ?_⟩, rfl⟩
      rw [decide_eq_true_iff]
      exact ⟨hlow, by omega, hsome⟩
    · rintro ⟨other, hmem, rfl⟩
      rw [leaving, List.mem_filter, decide_eq_true_iff] at hmem
      obtain ⟨-, hlow, hfar, hsome⟩ := hmem
      refine ⟨⟨Nat.mod_lt _ (by decide), hsome⟩, ?_⟩
      rw [houtside other hlow (by omega), age_mod (by omega) (by omega)]
      omega
  exact hperm.eq_of_pairwise (fun _ _ _ _ hlt hgt => absurd hgt (Nat.lt_asymm hlt))
    (((List.pairwise_lt_range.filter _).filter _)) hsorted

/-- A unit beyond VR(UH) moves the window; the units that leave it are reassembled. -/
theorem Waiting.moveWindow (sent : Sent pdus chunks) {number : Nat} {seqNumber : SequenceNumber10}
    (waiting : Waiting pdus chunks rx low (number + 1) expected delivered)
    (hwindow : rx.windowSize = 512) (hseq : seqNumber.value = number % 1024)
    (hur : rx.vrUr.value = low % 1024) (hout : ¬ rx.InsideWindow seqNumber)
    (hlow : low ≤ number)
    (horder : ∀ key later, (rx.rxBuffer key).isSome = true → (rx.rxBuffer later).isSome = true →
      LeavesBefore number key later) :
    ∃ next out expected', rx.moveWindow seqNumber = some (next, out) ∧
      Waiting pdus chunks next (max low (number - 511)) (number + 1) expected' (delivered ++ out) ∧
      next.vrUh.Stands ((number : Int) - 511) ((number : Int) + 1) ∧
      (if number < low + 512 then next.vrUr = rx.vrUr
        else next.vrUr.Stands ((number : Int) - 511) ((number : Int) - 511)) ∧
      next.windowSize = 512 ∧ next.vrUx = rx.vrUx ∧ next.reorderingTimer = rx.reorderingTimer ∧
      ∀ key, (next.rxBuffer key).isSome = true → (rx.rxBuffer key).isSome = true := by
  have hspan := waiting.span
  let advanced : UmReceiver := { rx with vrUh := seqNumber.add 1 }
  have huh : ((seqNumber.add 1).value : Int) = ((number : Int) + 1) % 1024 := by
    rw [SequenceNumber10.add, hseq]
    push_cast
    omega
  have hbased : advanced.withWindowBase.vrUh.Stands ((number : Int) - 511) ((number : Int) + 1) := by
    refine ⟨huh, ?_⟩
    have hbase := @sub_value (seqNumber.add 1) ((number : Int) + 1) rx.windowSize huh
    rw [hwindow] at hbase
    show (((seqNumber.add 1).sub rx.windowSize).value : Int) = _
    rw [hwindow, hbase]
    omega
  have hinside : ∀ (other : Nat) (sn : SequenceNumber10) (moved : UmReceiver),
      moved.windowSize = 512 → moved.vrUh = advanced.withWindowBase.vrUh → low ≤ other →
      other ≤ number → sn.value = other % 1024 →
      (moved.InsideWindow sn ↔ number < other + 512) := by
    intro other sn moved hsize hmoved hother hle hsn
    have hvalue : (moved.vrUh.value : Int) = ((number : Int) + 1) % 1024 := by
      rw [hmoved]
      exact hbased.value
    rcases Nat.lt_or_ge number (other + 512) with hnear | hfar
    · rw [@insideWindow_iff moved ((number : Int) + 1) other sn hsize.le hvalue (by omega)
        (by rw [hsize]; omega) (by rw [hsize]; omega)]
      omega
    · rw [@insideWindow_iff moved ((number : Int) + 1) ((other : Int) + 1024) sn hsize.le hvalue
        (by omega) (by rw [hsize]; omega) (by rw [hsize]; omega)]
      omega
  have hkeysOutside := @keysOutside_eq advanced.withWindowBase low number
    (fun other hother hle => hinside other _ _ hwindow rfl hother hle (Nat.mod_mod _ _))
    (fun key hsome => by
      obtain ⟨packet, hpacket⟩ := Option.isSome_iff_exists.mp hsome
      obtain ⟨other, pdu, hother, hlt, hkey, -⟩ := waiting.waits key packet hpacket
      exact ⟨other, hother, Nat.le_of_lt_succ hlt, hkey⟩)
    (by omega) horder
  obtain ⟨next, out, expected', htakeOut, hwaiting, hsame, hfewer⟩ :=
    Waiting.takeOutAll sent (rx.leaving low number)
      (waiting.withVariables rx.vrUr rx.vrUx advanced.withWindowBase.vrUh rx.reorderingTimer)
      (Nat.le_max_left low (number - 511)) (by omega) (List.pairwise_lt_range.filter _)
      (fun other => by
        rw [leaving, List.mem_filter, List.mem_range, decide_eq_true_iff]
        constructor
        · rintro ⟨-, hother, hfar, hsome⟩
          exact ⟨hother, by omega, hsome⟩
        · rintro ⟨hother, hless, hsome⟩
          exact ⟨by omega, hother, by omega, hsome⟩)
  have houtside : advanced.reassembleOutsideWindow = some (next, out) := by
    rw [reassembleOutsideWindow, hkeysOutside]
    exact htakeOut
  have hstands : next.vrUh.Stands ((number : Int) - 511) ((number : Int) + 1) := by
    rw [hsame.vrUh]
    exact hbased
  have hsize : next.windowSize = 512 := hsame.windowSize.trans hwindow
  have hkept := hinside low next.vrUr next hsize hsame.vrUh (Nat.le_refl low) hlow
    (by rw [hsame.vrUr]; exact hur)
  rw [UmReceiver.moveWindow, if_neg hout]
  simp only [show ({ rx with vrUh := seqNumber.add 1 } : UmReceiver) = advanced from rfl, houtside,
    Option.map_some, hkept]
  split
  next hnear =>
    exact ⟨next, out, expected', rfl, hwaiting, hstands, hsame.vrUr, hsize, hsame.vrUx,
      hsame.reorderingTimer, hfewer⟩
  next hfar =>
    refine ⟨_, out, expected', rfl, hwaiting.withVariables _ _ _ _, hstands, ?_, hsize, hsame.vrUx,
      hsame.reorderingTimer, hfewer⟩
    have := hstands.sub next.windowSize
    rw [hsize] at this
    rw [hsize]
    convert this using 1
    push_cast
    omega

/-! ## t-Reordering -/

/-- The numbers VR(UR), VR(UH) and, while t-Reordering is running, VR(UX) stand for. -/
structure Timed (rx : UmReceiver) (ur uh : Nat) : Prop where
  vrUr : rx.vrUr.Stands ((uh : Int) - 512) ur
  vrUh : rx.vrUh.Stands ((uh : Int) - 512) uh
  vrUx : rx.reorderingTimer = true →
    ∃ ux : Nat, ur < ux ∧ ux ≤ uh ∧ rx.vrUx.Stands ((uh : Int) - 512) ux

/-- t-Reordering runs only while VR(UR) is below VR(UX). -/
theorem moveTimer_timed {ur uh : Nat} (hwindow : rx.windowSize = 512) (hle : ur ≤ uh)
    (hspan : uh ≤ ur + 512) (hur : rx.vrUr.value = ur % 1024)
    (huh : (rx.vrUh.value : Int) = (uh : Int) % 1024)
    (hux : rx.reorderingTimer = true →
      ∃ ux : Nat, ux ≤ uh ∧ uh < ux + 1024 ∧ rx.vrUx.value = ux % 1024) :
    ∃ vrUx reorderingTimer, rx.withTimerBases.moveTimer =
        { rx.withTimerBases with vrUx := vrUx, reorderingTimer := reorderingTimer } ∧
      Timed rx.withTimerBases.moveTimer ur uh := by
  have hbase := @sub_value rx.vrUh uh rx.windowSize huh
  rw [hwindow] at hbase
  have standsUr : rx.withTimerBases.vrUr.Stands ((uh : Int) - 512) ur :=
    ⟨by show (rx.vrUr.value : Int) = _; omega, by
      show ((rx.vrUh.sub rx.windowSize).value : Int) = _
      rw [hwindow]
      exact hbase⟩
  have standsUh : rx.withTimerBases.vrUh.Stands ((uh : Int) - 512) uh := ⟨huh, standsUr.base⟩
  have hgt := standsUh.gt_iff standsUr (by omega) (by omega) (by omega) (by omega)
  rw [moveTimer]
  split
  next hstart =>
    refine ⟨_, _, rfl, standsUr, standsUh, fun _ => ⟨uh, ?_, Nat.le_refl _, standsUh⟩⟩
    have := hgt.mp hstart.2
    omega
  next hkeep =>
    refine ⟨_, _, rfl, standsUr, standsUh, fun hrunning => ?_⟩
    obtain ⟨htimer, hstays⟩ := Bool.and_eq_true_iff.mp hrunning
    obtain ⟨ux, hux, hnear, hvalue⟩ := hux htimer
    rw [Bool.not_eq_true', decide_eq_false_iff_not, not_or] at hstays
    obtain ⟨habove, hstays⟩ := hstays
    have hin : (uh : Int) - 512 ≤ ux := by
      by_contra hlow
      refine hstays ⟨?_, ?_⟩
      · rw [@insideWindow_iff rx.withTimerBases uh ((ux : Int) + 1024) _ hwindow.le huh
          (by show (rx.vrUx.value : Int) = _; omega) (by
            show (uh : Int) - rx.windowSize ≤ _
            rw [hwindow]
            omega) (by
            show _ < (uh : Int) - rx.windowSize + 1024
            rw [hwindow]
            omega)]
        omega
      · show rx.vrUx.value ≠ rx.vrUh.value
        omega
    have standsUx : rx.withTimerBases.vrUx.Stands ((uh : Int) - 512) ux :=
      ⟨by show (rx.vrUx.value : Int) = _; omega, standsUr.base⟩
    rw [standsUx.le_iff standsUr hin (by omega) (by omega) (by omega)] at habove
    exact ⟨ux, by omega, hux, standsUx⟩

end Steps

/-! ## Reception -/

/-- The state between events: the buffer is between VR(UR) and VR(UH), which are at most the window
apart. -/
structure Windowed (pdus : List RlcPdu) (chunks : List (Chunk UInt8)) (rx : UmReceiver)
    (ur uh : Nat) (delivered : List (List UInt8)) : Prop where
  waiting : ∃ expected, Waiting pdus chunks rx ur uh expected delivered
  windowSize : rx.windowSize = 512
  window : uh ≤ ur + 512
  vrUr : rx.vrUr.value = ur % 1024
  vrUh : rx.vrUh.value = uh % 1024
  timed : rx.reorderingTimer = true → Timed rx ur uh

section Reception

variable {pdus : List RlcPdu} {chunks : List (Chunk UInt8)} {rx : UmReceiver} {ur uh : Nat}
  {delivered : List (List UInt8)}

/-- VR(UR) and the timer move once the window has. -/
theorem Waiting.settle (sent : Sent pdus chunks) {expected low : Nat} {base : Int}
    (waiting : Waiting pdus chunks rx low uh expected delivered) (hwindow : rx.windowSize = 512)
    (hspan : uh ≤ low + 512) (hvrUr : rx.vrUr.Stands base low) (hbase : base ≤ low)
    (hwide : (rx.rxBuffer (low % 1024)).isSome = true → (uh : Int) < base + 1024)
    (huh : rx.vrUh.value = uh % 1024)
    (hux : rx.reorderingTimer = true →
      ∃ ux : Nat, ux ≤ uh ∧ uh < ux + 1024 ∧ rx.vrUx.value = ux % 1024) (out : List (List UInt8)) :
    ∃ next delivered' ur', (rx.moveVrUr.map fun result =>
        (result.1.withTimerBases.moveTimer, out ++ result.2)) = some (next, out ++ delivered') ∧
      Windowed pdus chunks next ur' uh (delivered ++ delivered') := by
  obtain ⟨moved, more, expected', ur', hmoved, hwaiting, hur, hle, hsize, hmovedUh, hmovedUx,
    htimer⟩ := waiting.moveVrUr sent hvrUr hbase hwide
  have huh' : (moved.vrUh.value : Int) = (uh : Int) % 1024 := by
    rw [hmovedUh]
    omega
  obtain ⟨vrUx, reorderingTimer, hframe, htimed⟩ :=
    @moveTimer_timed moved ur' uh (hsize.trans hwindow) hwaiting.low_le (by omega) hur huh'
      (fun hrunning => by
        rw [hmovedUx]
        exact hux (htimer ▸ hrunning))
  refine ⟨moved.withTimerBases.moveTimer, more, ur', by rw [hmoved]; rfl, ?_⟩
  exact {
    waiting := by
      rw [hframe]
      exact ⟨expected', hwaiting.withVariables _ _ _ _⟩
    windowSize := by
      rw [hframe]
      exact hsize.trans hwindow
    window := by omega
    vrUr := by
      rw [hframe]
      exact hur
    vrUh := by
      rw [hframe]
      show moved.vrUh.value = _
      omega
    timed := fun _ => htimed }

/-- The unwrapped VR(UH), from the one before. -/
def unwrap (highest : Nat) (vrUh : SequenceNumber10) : Nat :=
  highest + (vrUh.value + 1024 - highest % 1024) % 1024

theorem unwrap_eq {highest next : Nat} {vrUh : SequenceNumber10} (hvalue : vrUh.value = next % 1024)
    (hle : highest ≤ next) (hnear : next < highest + 1024) : unwrap highest vrUh = next := by
  rw [unwrap, hvalue]
  omega

/-- What the defects of the window need not to happen: a unit 512 above VR(UH) is not taken for
VR(UR), and units leave the window in the order of their keys. -/
def KeepsOrder (rx : UmReceiver) (highest number : Nat) : Prop :=
  if number < highest then True
  else if number = highest + 512 then rx.vrUr.value ≠ number % 1024
  else rx.LeavesInOrder number

instance (rx : UmReceiver) (highest number : Nat) : Decidable (rx.KeepsOrder highest number) := by
  rw [KeepsOrder]
  infer_instance

/-- One unit within 512 of VR(UH) is received. -/
theorem Windowed.receive (sent : Sent pdus chunks) (windowed : Windowed pdus chunks rx ur uh delivered)
    {number : Nat} {pdu : RlcPdu} (hpdu : pdus[number]? = some pdu) (hbehind : uh ≤ number + 512)
    (hahead : number ≤ uh + 512) (keeps : rx.KeepsOrder uh number) :
    ∃ next out ur' uh', rx.receive ⟨number % 1024, 0⟩ pdu.wire = some (next, out) ∧
      Windowed pdus chunks next ur' uh' (delivered ++ out) ∧ uh ≤ uh' ∧ uh' < uh + 1024 := by
  obtain ⟨expected, waiting⟩ := windowed.waiting
  have hwindow := windowed.windowSize
  have hspan := windowed.window
  have hle := waiting.low_le
  have hvalueUr := windowed.vrUr
  have hvalueUh := windowed.vrUh
  let based := rx.withWindowBases
  let seqNumber : SequenceNumber10 := ⟨number % 1024, (based.vrUh.sub rx.windowSize).value⟩
  have hbase : ((rx.vrUh.sub rx.windowSize).value : Int) = ((uh : Int) - 512) % 1024 := by
    rw [hwindow]
    exact sub_value (by omega)
  have standsUr : based.vrUr.Stands ((uh : Int) - 512) ur :=
    ⟨by show (rx.vrUr.value : Int) = _; omega, hbase⟩
  have standsUh : based.vrUh.Stands ((uh : Int) - 512) uh :=
    ⟨by show (rx.vrUh.value : Int) = _; omega, hbase⟩
  have hbasedTimed : based.reorderingTimer = true →
      ∃ ux : Nat, ur < ux ∧ ux ≤ uh ∧ based.vrUx.Stands ((uh : Int) - 512) ux :=
    fun hrunning => (windowed.timed hrunning).vrUx hrunning
  have standsLow := standsUh.sub rx.windowSize
  rw [hwindow] at standsLow
  have hsame : Windowed pdus chunks based ur uh (delivered ++ []) :=
    { waiting := ⟨expected, by
        rw [List.append_nil]
        exact waiting.withVariables _ _ _ _⟩
      windowSize := hwindow
      window := hspan
      vrUr := hvalueUr
      vrUh := hvalueUh
      timed := fun _ => ⟨standsUr, standsUh, hbasedTimed⟩ }
  have hreceive : rx.receive ⟨number % 1024, 0⟩ pdu.wire =
      if based.Discards seqNumber then some (based, []) else based.place seqNumber pdu.wire := rfl
  rw [hreceive]
  by_cases hdiscards : based.Discards seqNumber
  · rw [if_pos hdiscards]
    exact ⟨based, [], ur, uh, rfl, hsame, Nat.le_refl _, by omega⟩
  · rw [if_neg hdiscards]
    have hnear : number < uh + 512 := by
      by_contra hfar
      obtain rfl : number = uh + 512 := by omega
      rw [KeepsOrder, if_neg (by omega), if_pos rfl] at keeps
      have standsSn : seqNumber.Stands ((uh : Int) - 512) ((uh : Int) - 512) := by
        refine ⟨?_, ?_⟩
        · show (((uh + 512) % 1024 : Nat) : Int) = _
          omega
        · show (((based.vrUh.sub rx.windowSize).value : Nat) : Int) = _
          rw [hwindow, standsLow.value]
          rfl
      refine hdiscards (.inr ⟨?_, ?_⟩)
      · show (based.vrUh.sub rx.windowSize).Le seqNumber
        rw [hwindow]
        exact (standsLow.le_iff standsSn (by omega) (by omega) (by omega) (by omega)).mpr
          (by push_cast; omega)
      · exact (standsSn.lt_iff standsUr (by omega) (by omega) (by omega) (by omega)).mpr (by omega)
    have standsSn : seqNumber.Stands ((uh : Int) - 512) number := by
      refine ⟨?_, ?_⟩
      · show ((number % 1024 : Nat) : Int) = _
        omega
      · show (((based.vrUh.sub rx.windowSize).value : Nat) : Int) = _
        rw [hwindow, standsLow.value]
        rfl
    have hlow : ur ≤ number := by
      by_contra hless
      refine hdiscards (.inr ⟨?_, ?_⟩)
      · show (based.vrUh.sub rx.windowSize).Le seqNumber
        rw [hwindow]
        exact (standsLow.le_iff standsSn (by omega) (by omega) (by omega) (by omega)).mpr
          (by push_cast; omega)
      · exact (standsSn.lt_iff standsUr (by omega) (by omega) (by omega) (by omega)).mpr (by omega)
    let placed := based.put (number % 1024) pdu.wire
    have hplaced : Waiting pdus chunks placed ur (max uh (number + 1)) expected delivered :=
      (waiting.withVariables based.vrUr based.vrUx based.vrUh based.reorderingTimer).put hspan hpdu
        hlow hnear
    have hinside : placed.InsideWindow seqNumber ↔ number < uh := by
      rw [@insideWindow_iff placed uh number seqNumber hwindow.le standsUh.value standsSn.value
        (by show (uh : Int) - rx.windowSize ≤ _; rw [hwindow]; omega)
        (by show _ < (uh : Int) - rx.windowSize + 1024; rw [hwindow]; omega)]
      omega
    rcases Nat.lt_or_ge number uh with hold | hnew
    · have hmax : max uh (number + 1) = uh := Nat.max_eq_left hold
      rw [hmax] at hplaced
      have hmoved : placed.moveWindow seqNumber = some (placed.withWindowBase, []) := by
        rw [UmReceiver.moveWindow, if_pos (hinside.mpr hold)]
      obtain ⟨next, out, ur', hnext, hwindowed⟩ :=
        @Waiting.settle pdus chunks placed.withWindowBase uh delivered sent expected ur _
          (hplaced.withVariables _ _ _ _) hwindow hspan standsUr (by omega) (by omega) hvalueUh
          (fun hrunning => by
            obtain ⟨ux, hux, hle', hstands⟩ := hbasedTimed hrunning
            have := hstands.value
            exact ⟨ux, hle', by omega, by show based.vrUx.value = _; omega⟩) []
      refine ⟨next, out, ur', uh, ?_, hwindowed, Nat.le_refl _, by omega⟩
      rw [place_eq hmoved, hnext, List.nil_append]
    · have hmax : max uh (number + 1) = number + 1 := Nat.max_eq_right (Nat.le_succ_of_le hnew)
      rw [hmax] at hplaced
      rw [KeepsOrder, if_neg (by omega), if_neg (by omega)] at keeps
      have hkey : ∀ key, (placed.rxBuffer key).isSome = true → key ∈ rx.keysWith number := by
        intro key hsome
        rw [keysWith, List.mem_filter, List.mem_range, decide_eq_true_iff]
        have hupdate : (Function.update rx.rxBuffer (number % 1024) (some pdu.wire) key).isSome = true :=
          hsome
        rw [Function.update_apply] at hupdate
        obtain ⟨packet, hpacket⟩ := Option.isSome_iff_exists.mp hsome
        obtain ⟨other, -, -, -, rfl, -⟩ := hplaced.waits key packet hpacket
        refine ⟨Nat.mod_lt _ (by decide), ?_⟩
        split at hupdate
        next heq => exact .inl heq
        next => exact .inr hupdate
      obtain ⟨moved, out, expected', hmoved, hwaiting, hstandsUh, hstandsUr, hsize, hsameUx,
        hsameTimer, hfewer⟩ := hplaced.moveWindow sent hwindow rfl hvalueUr
          (fun hin => absurd (hinside.mp hin) (Nat.not_lt.mpr hnew)) hlow
          (fun key later hsome hlater => keeps key (hkey key hsome) later (hkey later hlater))
      have hux : moved.reorderingTimer = true →
          ∃ ux : Nat, ux ≤ number + 1 ∧ number + 1 < ux + 1024 ∧ moved.vrUx.value = ux % 1024 := by
        intro hrunning
        rw [hsameTimer] at hrunning
        obtain ⟨ux, hux, hle', hstands⟩ := hbasedTimed hrunning
        have := hstands.value
        rw [hsameUx]
        exact ⟨ux, by omega, by omega, by show based.vrUx.value = _; omega⟩
      have huh' : moved.vrUh.value = (number + 1) % 1024 := by
        have := hstandsUh.value
        omega
      have hsettle : ∃ next delivered' ur', (moved.moveVrUr.map fun result =>
          (result.1.withTimerBases.moveTimer, out ++ result.2)) = some (next, out ++ delivered') ∧
          Windowed pdus chunks next ur' (number + 1) (delivered ++ out ++ delivered') := by
        split at hstandsUr
        next hkept =>
          have hbound : max ur (number - 511) = ur := by omega
          rw [hbound] at hwaiting
          refine @Waiting.settle pdus chunks moved (number + 1) _ sent expected' ur
            ((uh : Int) - 512) hwaiting hsize (by omega) ?_ (by omega) ?_ huh' hux out
          · rw [hstandsUr]
            exact standsUr
          · intro hsome
            have hbefore : (Function.update rx.rxBuffer (number % 1024) (some pdu.wire)
                (ur % 1024)).isSome = true := hfewer _ hsome
            rw [Function.update_apply] at hbefore
            split at hbefore
            next => omega
            next =>
              have := (waiting.unit (Nat.le_refl ur) (by omega) hbefore).1
              omega
        next hleft =>
          have hbound : ((max ur (number - 511) : Nat) : Int) = (number : Int) - 511 := by omega
          refine @Waiting.settle pdus chunks moved (number + 1) _ sent expected' _
            ((number : Int) - 511) hwaiting hsize (by omega) ?_ (by omega) (by omega) huh' hux out
          rw [hbound]
          exact hstandsUr
      obtain ⟨next, more, ur', hnext, hwindowed⟩ := hsettle
      refine ⟨next, out ++ more, ur', number + 1, ?_, ?_, by omega, by omega⟩
      · rw [place_eq hmoved]
        exact hnext
      · rw [← List.append_assoc]
        exact hwindowed

/-- When t-Reordering expires, VR(UR) moves to the first missing unit from VR(UX) on. -/
theorem Windowed.expire (sent : Sent pdus chunks) (windowed : Windowed pdus chunks rx ur uh delivered)
    (hrunning : rx.reorderingTimer = true) :
    ∃ next out ur', rx.expireReorderingTimer = some (next, out) ∧
      Windowed pdus chunks next ur' uh (delivered ++ out) := by
  obtain ⟨expected, waiting⟩ := windowed.waiting
  have timed := windowed.timed hrunning
  obtain ⟨ux, hur, hux, standsUx⟩ := timed.vrUx hrunning
  have hspan := windowed.window
  obtain ⟨bound, hle, standsNew, hall⟩ := @firstMissingSn_spec rx.rxBuffer _ 1024 _ _ standsUx
  have hbound := waiting.le_of_all (Nat.le_of_lt hur) hux (by omega) hall
  let newVrUr := firstMissingSn rx.rxBuffer 1024 rx.vrUx
  obtain ⟨moved, out, expected', hmoved, hwaiting, hsame⟩ :=
    @Waiting.interval pdus chunks uh sent ((uh : Int) - 512) bound 1024 { rx with vrUr := newVrUr } ur
      expected delivered rx.vrUr newVrUr (waiting.withVariables _ _ _ _) (by omega) hbound timed.vrUr
      standsNew (by omega) (by omega) (by omega)
  have standsUr : moved.vrUr.Stands ((uh : Int) - 512) bound := by
    rw [hsame.vrUr]
    exact standsNew
  have standsUh : moved.vrUh.Stands ((uh : Int) - 512) uh := by
    rw [hsame.vrUh]
    exact timed.vrUh
  have hvalueUr : moved.vrUr.value = bound % 1024 := by
    have := standsUr.value
    omega
  have hvalueUh : moved.vrUh.value = uh % 1024 := by
    have := standsUh.value
    omega
  have hwindow : moved.windowSize = 512 := hsame.windowSize.trans windowed.windowSize
  have hgt := standsUh.gt_iff standsUr (by omega) (by omega) (by omega) (by omega)
  rw [expireReorderingTimer, if_pos hrunning]
  simp only [show firstMissingSn rx.rxBuffer 1024 rx.vrUx = newVrUr from rfl, hmoved, Option.map_some]
  split
  next hstart =>
    refine ⟨_, out, bound, rfl, ⟨expected', hwaiting.withVariables _ _ _ _⟩, hwindow, by omega,
      hvalueUr, hvalueUh, fun _ => ⟨standsUr, standsUh, fun _ => ⟨uh, ?_, Nat.le_refl _, standsUh⟩⟩⟩
    have := hgt.mp hstart
    omega
  next =>
    exact ⟨_, out, bound, rfl, ⟨expected', hwaiting.withVariables _ _ _ _⟩, hwindow, by omega,
      hvalueUr, hvalueUh, nofun⟩

end Reception

/-! ## Runs -/

inductive RxEvent
  | receive (number : Nat)
  | expire

/-- A receiver with its unwrapped VR(UH) and the units it delivered. -/
structure Receiving where
  rx : UmReceiver := {}
  highest : Nat := 0
  delivered : List (List UInt8) := []

/-- One of the units sent is received, or t-Reordering expires. -/
def Receiving.step (pdus : List RlcPdu) (receiving : Receiving) : RxEvent → Option Receiving
  | .receive number =>
      pdus[number]?.bind fun pdu =>
        (receiving.rx.doReceivePdu pdu.wire).map fun result =>
          { rx := result.1
            highest := unwrap receiving.highest result.1.vrUh
            delivered := receiving.delivered ++ result.2 }
  | .expire =>
      receiving.rx.expireReorderingTimer.map fun result =>
        { receiving with rx := result.1, delivered := receiving.delivered ++ result.2 }

def Receiving.run (pdus : List RlcPdu) : Receiving → List RxEvent → Option Receiving :=
  Foundation.Runs.runFrom (Receiving.step pdus)

/-- A unit that was sent and is within 512 of VR(UH) is received; a running timer expires. -/
def Receiving.Admits (pdus : List RlcPdu) (receiving : Receiving) : RxEvent → Prop
  | .receive number => number < pdus.length ∧ receiving.highest ≤ number + 512 ∧
      number ≤ receiving.highest + 512
  | .expire => receiving.rx.reorderingTimer = true

instance (pdus : List RlcPdu) (receiving : Receiving) :
    ∀ event, Decidable (receiving.Admits pdus event)
  | .receive _ => inferInstanceAs (Decidable (_ ∧ _))
  | .expire => inferInstanceAs (Decidable (_ = _))

/-- An admitted event at which units keep their order. -/
def Receiving.Fits (pdus : List RlcPdu) (receiving : Receiving) (event : RxEvent) : Prop :=
  receiving.Admits pdus event ∧
    ∀ number, event = .receive number → receiving.rx.KeepsOrder receiving.highest number

instance (pdus : List RlcPdu) (receiving : Receiving) :
    ∀ event, Decidable (receiving.Fits pdus event)
  | .receive number =>
      decidable_of_iff (receiving.Admits pdus (.receive number) ∧
          receiving.rx.KeepsOrder receiving.highest number)
        ⟨fun hboth => ⟨hboth.1, fun _ hevent => RxEvent.receive.inj hevent ▸ hboth.2⟩,
          fun hall => ⟨hall.1, hall.2 number rfl⟩⟩
  | .expire => decidable_of_iff (receiving.Admits pdus .expire) ⟨fun hadmits => ⟨hadmits, nofun⟩, And.left⟩

theorem Receiving.step_windowed {pdus : List RlcPdu} {chunks : List (Chunk UInt8)}
    (sent : Sent pdus chunks) {receiving : Receiving} {ur : Nat}
    (windowed : Windowed pdus chunks receiving.rx ur receiving.highest receiving.delivered)
    {event : RxEvent} (fits : receiving.Fits pdus event) :
    ∃ next ur', receiving.step pdus event = some next ∧
      Windowed pdus chunks next.rx ur' next.highest next.delivered := by
  obtain ⟨admits, keeps⟩ := fits
  cases event with
  | receive number =>
      obtain ⟨hlt, hbehind, hahead⟩ := admits
      have hpdu := List.getElem?_eq_getElem hlt
      obtain ⟨chunk, -, hcarries, hpieces, -, -⟩ := sent.chunk hpdu
      obtain ⟨next, out, ur', uh', hnext, hwindowed, hle, hnear⟩ :=
        windowed.receive sent hpdu hbehind hahead (keeps number rfl)
      have hnumber : pdus[number].rlcHeader.sequenceNumber = number % 1024 := by
        rw [hcarries.header]
        rfl
      have hreceive : receiving.rx.doReceivePdu pdus[number].wire = some (next, out) := by
        rw [doReceivePdu, carried_deserialize hcarries hpieces]
        simp only [hnumber, hnext]
      have hunwrap : unwrap receiving.highest next.vrUh = uh' := unwrap_eq hwindowed.vrUh hle hnear
      refine ⟨⟨next, uh', receiving.delivered ++ out⟩, ur', ?_, hwindowed⟩
      rw [step, hpdu, Option.bind_some, hreceive, Option.map_some, hunwrap]
  | expire =>
      obtain ⟨next, out, ur', hnext, hwindowed⟩ := windowed.expire sent admits
      refine ⟨⟨next, receiving.highest, receiving.delivered ++ out⟩, ur', ?_, hwindowed⟩
      rw [step, hnext, Option.map_some]

theorem start_windowed (pdus : List RlcPdu) (chunks : List (Chunk UInt8)) :
    Windowed pdus chunks {} 0 0 [] where
  waiting := ⟨0,
    { expected_le := Nat.le_refl 0
      low_le := Nat.le_refl 0
      span := Nat.zero_le _
      waits := nofun
      dense := fun _ _ hlt => absurd hlt (Nat.not_lt_zero _)
      expectedSeqNumber := rfl
      sdusBuffer := rfl
      synced := .inl rfl
      delivered := List.nil_sublist _ }⟩
  windowSize := rfl
  window := Nat.zero_le _
  vrUr := rfl
  vrUh := rfl
  timed := nofun

theorem sent_of_segmented {sending : UmTransmitter.Sending} {chunks : List (Chunk UInt8)}
    (segmented : UmTransmitter.Segmented sending chunks) : Sent sending.sent chunks :=
  ⟨segmented.length_eq, segmented.carries, segmented.consistent⟩

/-- A unit of two bytes that tells its number. -/
def numbered (number : Nat) : List UInt8 := [UInt8.ofNat (number / 256), UInt8.ofNat (number % 256)]

/-- Units are handed over and sent, one in each opportunity. -/
def oneEach (count : Nat) : List UmTransmitter.TxEvent :=
  (List.range count).flatMap fun number => [.pdcpPdu (numbered number), .opportunity 4]

/-- What the transmitter has sent then. -/
def oneEachSent (count : Nat) : UmTransmitter.Sending where
  tx := { maxTxBufferSize := 10240, sequenceNumber := ⟨count % 1024, 0⟩ }
  accepted := (List.range count).map numbered
  sent := (List.range count).map fun number =>
    { rlcHeader :=
        { headerLength := 2
          framingInfo := 0
          sequenceNumber := number % 1024
          extensionBits := [LteRlcHeader.DATA_FIELD_FOLLOWS] }
      packet := numbered number }

/-- A unit of two bytes is sent whole. -/
theorem twoBytes_sent (first second : UInt8) (sequenceNumber : SequenceNumber10) :
    (⟨10240, 2, [⟨[first, second], .fullSdu⟩], sequenceNumber⟩ : UmTransmitter).doNotifyTxOpportunity 4 =
      some ({ maxTxBufferSize := 10240, sequenceNumber := sequenceNumber.next }, some
        { rlcHeader :=
            { headerLength := 2
              framingInfo := 0
              sequenceNumber := sequenceNumber.value
              extensionBits := [LteRlcHeader.DATA_FIELD_FOLLOWS] }
          packet := [first, second] }) := by
  have hsize : UmTransmitter.sizeOf [first, second] = 2 := rfl
  rw [UmTransmitter.doNotifyTxOpportunity]
  simp [UmTransmitter.fillDataField, LteRlcHeader.pushExtensionBit, LteRlcHeader.setSequenceNumber,
    LteRlcHeader.setFramingInfo, UmTransmitter.framingInfoOf, LteRlcHeader.FIRST_BYTE,
    LteRlcHeader.LAST_BYTE, hsize]

theorem oneEach_run (count : Nat) :
    (UmTransmitter.start 10240).run .lte (oneEach count) = some (oneEachSent count) := by
  induction count with
  | zero => rfl
  | succ count ih =>
      let handed : UmTransmitter.Sending :=
        { tx := ⟨10240, 2, [⟨numbered count, .fullSdu⟩], ⟨count % 1024, 0⟩⟩
          accepted := (oneEachSent count).accepted ++ [numbered count]
          sent := (oneEachSent count).sent }
      have hfirst : (oneEachSent count).step .lte (.pdcpPdu (numbered count)) = some handed := rfl
      have hnext : (⟨count % 1024, 0⟩ : SequenceNumber10).next = ⟨(count + 1) % 1024, 0⟩ := by
        rw [SequenceNumber10.next, Nat.mod_add_mod]
      have hsecond : handed.step .lte (.opportunity 4) = some (oneEachSent (count + 1)) := by
        rw [UmTransmitter.Sending.step, UmTransmitter.notifyTxOpportunity]
        simp only [handed, numbered, twoBytes_sent, hnext, Option.map_some, oneEachSent,
          List.range_succ, List.map_append, List.map_cons, List.map_nil, Option.toList_some]
      rw [oneEach, List.range_succ, List.flatMap_append, List.flatMap_singleton]
      exact Foundation.Runs.runFrom_append _ ih
        (Foundation.Runs.runFrom_snoc _ (Foundation.Runs.runFrom_cons_of_step _ hfirst []) hsecond)

theorem oneEach_nonEmpty (count : Nat) : UmTransmitter.NonEmpty (oneEach count) := by
  intro sdu hmem
  obtain ⟨number, -, hevent⟩ := List.mem_flatMap.mp hmem
  rcases List.mem_cons.mp hevent with heq | hevent
  · cases heq
    exact List.cons_ne_nil _ _
  · cases List.mem_singleton.mp hevent

end UmReceiver

end DeepcV2x.Rlc
