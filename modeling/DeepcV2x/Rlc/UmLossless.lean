import DeepcV2x.Rlc.UmReassemble
import Mathlib.Data.List.Nodup

/-!
# A channel without losses

Each unit is received when it is the next one, passes the window at once and is
reassembled, so the receiver delivers exactly the units all of whose bytes were
sent.
-/

namespace DeepcV2x.Rlc

open Foundation.Segmentation

namespace UmReceiver

/-- The receiver waits for the unit with a number, and nothing is buffered. -/
structure Ready (rx : UmReceiver) (number : Nat) (left : List UInt8) : Prop where
  windowSize : rx.windowSize ≤ 512
  vrUr : rx.vrUr.value = number % 1024
  vrUh : rx.vrUh.value = number % 1024
  expected : rx.expectedSeqNumber.value = number % 1024
  rxBuffer : rx.rxBuffer = fun _ => none
  reorderingTimer : rx.reorderingTimer = false
  sdusBuffer : rx.sdusBuffer = []
  kept : Kept rx left

/-- A number is inside the window whatever its base is. -/
theorem insideWindow_congr {rx : UmReceiver} {sn other : SequenceNumber10}
    (hvalue : sn.value = other.value) : rx.InsideWindow sn ↔ rx.InsideWindow other := by
  have hsame : ∀ base : SequenceNumber10, sn.setModulusBase base = other.setModulusBase base := by
    intro base
    rw [SequenceNumber10.setModulusBase, SequenceNumber10.setModulusBase, hvalue]
  rw [InsideWindow, InsideWindow]
  simp only [hsame]

section Step

variable {rx : UmReceiver} {left : List UInt8} {chunk : Chunk UInt8} {pdu : RlcPdu} {number : Nat}

/-- The only unit in the buffer is taken out in order. -/
theorem takeOut_only (carries : UmTransmitter.Carries pdu number chunk)
    (hpieces : chunk.pieces ≠ []) (hbytes : ∀ piece ∈ chunk.pieces, piece ≠ [])
    (hcontinues : chunk.continues = true ↔ left ≠ [])
    (hrxBuffer : rx.rxBuffer = Function.update (fun _ => none) (number % 1024) (some pdu.wire))
    (hexpected : rx.expectedSeqNumber.value = number % 1024) (hsdus : rx.sdusBuffer = [])
    (kept : Kept rx left) :
    ∃ reassemblingState keepS0,
      let next := { rx with
        expectedSeqNumber := rx.expectedSeqNumber.next
        reassemblingState := reassemblingState
        keepS0 := keepS0
        sdusBuffer := []
        rxBuffer := fun _ => none }
      rx.takeOut (number % 1024) = some (next, chunk.finished left) ∧
        Kept next (chunk.leaves left) := by
  obtain ⟨next, delivered, hresult, ⟨state, keep, hframe⟩, -, hsynced, hcomplete⟩ :=
    (reassemble_inOrder carries hpieces hbytes hcontinues hsdus hexpected kept.1).delivers
  obtain ⟨rfl, hs0⟩ := hcomplete kept.2
  have hone : rx.rxBuffer (number % 1024) = some pdu.wire := by
    rw [hrxBuffer, Function.update_self]
  have herase : Function.update rx.rxBuffer (number % 1024) none = fun _ => none := by
    rw [hrxBuffer, Function.update_idem]
    exact Function.update_eq_self (number % 1024) _
  refine ⟨state, keep, ?_, ?_⟩
  · rw [takeOut, hone]
    simp only [hresult, Option.map_some, hframe, herase]
  · rw [hframe] at hsynced hs0
    exact ⟨hsynced, hs0⟩

theorem firstMissing_only {rxBuffer : Nat → Option (List UInt8)} {key : Nat}
    (hmissing : rxBuffer key = none) : firstMissing rxBuffer 1024 key = key := by
  rw [firstMissing, hmissing]
  rfl

/-- The base of the comparisons, a window below a number. -/
theorem sub_value {sn : SequenceNumber10} {number : Int} {windowSize : Nat}
    (hvalue : (sn.value : Int) = number % 1024) :
    ((sn.sub windowSize).value : Int) = (number - windowSize) % 1024 := by
  have stands : SequenceNumber10.Stands ⟨sn.value, 0⟩ 0 number := ⟨hvalue, rfl⟩
  exact (stands.sub windowSize).value

/-- What is inside the window, in numbers that do not wrap around. -/
theorem insideWindow_iff {uh number : Int} {sn : SequenceNumber10} (hwindow : rx.windowSize ≤ 512)
    (huh : (rx.vrUh.value : Int) = uh % 1024) (hsn : (sn.value : Int) = number % 1024)
    (hlow : uh - rx.windowSize ≤ number) (hhigh : number < uh - rx.windowSize + 1024) :
    rx.InsideWindow sn ↔ number < uh := by
  have hbase := @sub_value rx.vrUh uh rx.windowSize huh
  have standsUh : SequenceNumber10.Stands rx.withWindowBase.vrUh (uh - rx.windowSize) uh :=
    ⟨huh, hbase⟩
  have standsLow := standsUh.sub rx.windowSize
  have standsSn : SequenceNumber10.Stands
      (sn.setModulusBase (rx.withWindowBase.vrUh.sub rx.windowSize)) (uh - rx.windowSize) number :=
    ⟨hsn, standsLow.value⟩
  rw [InsideWindow, standsLow.le_iff standsSn (by omega) (by omega) hlow hhigh,
    standsSn.lt_iff standsUh hlow hhigh (by omega) (by omega)]
  exact and_iff_right hlow

theorem filter_only {rxBuffer : Nat → Option (List UInt8)} {key : Nat} (hkey : key < 1024)
    (honly : ∀ other, (rxBuffer other).isSome = true ↔ other = key) :
    (List.range 1024).filter (fun other => (rxBuffer other).isSome) = [key] := by
  have hsame : (List.range 1024).filter (fun other => (rxBuffer other).isSome) =
      (List.range 1024).filter fun other => decide (other = key) := by
    apply List.filter_congr
    intro other _
    rw [Bool.eq_iff_iff, honly, decide_eq_true_iff]
  rw [hsame, List.filter_eq, List.count_eq_one_of_mem List.nodup_range (List.mem_range.mpr hkey)]
  rfl

/-- An interval of one unit. -/
theorem interval_one {low high : SequenceNumber10} {next : UmReceiver}
    {delivered : List (List UInt8)} (hlt : low.Lt high)
    (htake : rx.takeOut low.value = some (next, delivered)) (hend : low.next.value = high.value)
    (fuel : Nat) :
    rx.reassembleSnInterval (fuel + 2) low high = some (next, delivered) := by
  have hstop : ¬ low.next.Lt high := fun hlt' => hlt'.2 hend
  rw [reassembleSnInterval, if_pos hlt, htake]
  simp only [reassembleSnInterval, if_neg hstop, Option.map_some, List.append_nil]

/-- Nothing is missing, so t-Reordering is not started. -/
theorem moveTimer_idle (htimer : rx.reorderingTimer = false) (hvalue : rx.vrUr.value = rx.vrUh.value) :
    rx.withTimerBases.moveTimer = rx.withTimerBases := by
  have hoffset : ¬ rx.withTimerBases.vrUh.Gt rx.withTimerBases.vrUr := by
    have hsame : rx.withTimerBases.vrUh = rx.withTimerBases.vrUr := by
      rw [withTimerBases]
      simp only [SequenceNumber10.setModulusBase, hvalue]
    rw [hsame, SequenceNumber10.Gt]
    exact Nat.lt_irrefl _
  rw [moveTimer]
  simp only [show rx.withTimerBases.reorderingTimer = false from htimer, Bool.false_and, true_and,
    if_neg hoffset]
  rw [← htimer]
  rfl

/-- The awaited unit is in the reception buffer. -/
structure Arrived (rx : UmReceiver) (number : Nat) (left : List UInt8) (wire : List UInt8) : Prop where
  windowSize : rx.windowSize ≤ 512
  vrUr : rx.vrUr.Stands ((number : Int) - rx.windowSize) number
  expected : rx.expectedSeqNumber.value = number % 1024
  rxBuffer : rx.rxBuffer = Function.update (fun _ => none) (number % 1024) (some wire)
  reorderingTimer : rx.reorderingTimer = false
  sdusBuffer : rx.sdusBuffer = []
  kept : Kept rx left

/-- The unit was reassembled, and VR(UR) and VR(UH) passed it. -/
structure Passed (rx : UmReceiver) (number : Nat) (left : List UInt8) : Prop where
  windowSize : rx.windowSize ≤ 512
  vrUr : rx.vrUr.value = (number + 1) % 1024
  vrUh : rx.vrUh.value = (number + 1) % 1024
  expected : rx.expectedSeqNumber.value = (number + 1) % 1024
  rxBuffer : rx.rxBuffer = fun _ => none
  reorderingTimer : rx.reorderingTimer = false
  sdusBuffer : rx.sdusBuffer = []
  kept : Kept rx left

theorem next_value {sn : SequenceNumber10} (hvalue : sn.value = number % 1024) :
    sn.next.value = (number + 1) % 1024 := by
  rw [SequenceNumber10.next, hvalue, Nat.mod_add_mod]

theorem Arrived.isSome_iff {wire : List UInt8} (arrived : Arrived rx number left wire)
    (key : Nat) : (rx.rxBuffer key).isSome = true ↔ key = number % 1024 := by
  rw [arrived.rxBuffer, Function.update_apply]
  split
  next heq => exact iff_of_true rfl heq
  next hne => exact iff_of_false Bool.false_ne_true hne

/-- VR(UR) moves over the unit, which is reassembled. -/
theorem Arrived.moveVrUr (arrived : Arrived rx number left pdu.wire)
    (huh : rx.vrUh.value = (number + 1) % 1024)
    (carries : UmTransmitter.Carries pdu number chunk)
    (hpieces : chunk.pieces ≠ []) (hbytes : ∀ piece ∈ chunk.pieces, piece ≠ [])
    (hcontinues : chunk.continues = true ↔ left ≠ []) :
    ∃ next, rx.moveVrUr = some (next, chunk.finished left) ∧
      Passed next number (chunk.leaves left) := by
  have hwindow := arrived.windowSize
  have hvalue : rx.vrUr.value = number % 1024 := by
    have := arrived.vrUr.value
    omega
  have hmissing : rx.rxBuffer (number % 1024 + 1) = none := by
    rw [arrived.rxBuffer]
    exact Function.update_of_ne (Nat.succ_ne_self _) _ _
  let newVrUr := rx.vrUr.assign (number % 1024 + 1)
  have standsNew : newVrUr.Stands ((number : Int) - rx.windowSize) ((number : Int) + 1) :=
    arrived.vrUr.assign (by omega)
  have hlt : rx.vrUr.Lt newVrUr :=
    (arrived.vrUr.lt_iff standsNew (by omega) (by omega) (by omega) (by omega)).mpr (by omega)
  have hend : rx.vrUr.next.value = newVrUr.value := by
    show (rx.vrUr.value + 1) % 1024 = (number % 1024 + 1) % 1024
    rw [hvalue]
  obtain ⟨state, keep, htake, hkept⟩ := @takeOut_only { rx with vrUr := newVrUr } left chunk pdu
    number carries hpieces hbytes hcontinues arrived.rxBuffer arrived.expected arrived.sdusBuffer
    arrived.kept
  let passed : UmReceiver := { rx with
    vrUr := newVrUr
    expectedSeqNumber := rx.expectedSeqNumber.next
    reassemblingState := state
    keepS0 := keep
    sdusBuffer := []
    rxBuffer := fun _ => none }
  refine ⟨passed, ?_, ?_⟩
  · rw [UmReceiver.moveVrUr, if_pos ((arrived.isSome_iff _).mpr hvalue), hvalue,
      firstMissing_only hmissing]
    rw [← hvalue] at htake
    exact interval_one hlt htake hend 1022
  · exact {
      windowSize := hwindow
      vrUr := by
        show (number % 1024 + 1) % 1024 = _
        rw [Nat.mod_add_mod]
      vrUh := huh
      expected := next_value arrived.expected
      rxBuffer := rfl
      reorderingTimer := arrived.reorderingTimer
      sdusBuffer := rfl
      kept := hkept }

/-- The unit moves the window and passes it. -/
theorem Arrived.pass (arrived : Arrived rx number left pdu.wire)
    (huh : rx.vrUh.value = number % 1024) {seqNumber : SequenceNumber10}
    (hseq : seqNumber.value = number % 1024)
    (carries : UmTransmitter.Carries pdu number chunk)
    (hpieces : chunk.pieces ≠ []) (hbytes : ∀ piece ∈ chunk.pieces, piece ≠ [])
    (hcontinues : chunk.continues = true ↔ left ≠ []) :
    ∃ moved outside next delivered, rx.moveWindow seqNumber = some (moved, outside) ∧
      moved.moveVrUr = some (next, delivered) ∧ outside ++ delivered = chunk.finished left ∧
      Passed next number (chunk.leaves left) := by
  have hwindow := arrived.windowSize
  have hvalue : rx.vrUr.value = number % 1024 := by
    have := arrived.vrUr.value
    omega
  have hmove : ¬ rx.InsideWindow seqNumber := fun hinside => hinside.2.2 (hseq.trans huh.symm)
  let advanced : UmReceiver := ({ rx with vrUh := seqNumber.add 1 } : UmReceiver).withWindowBase
  have hadvanced : advanced.vrUh.value = (number + 1) % 1024 := by
    show (seqNumber.value + 1) % 1024 = _
    rw [hseq, Nat.mod_add_mod]
  have hkey : (SequenceNumber10.ofValue (number % 1024)).value = number % 1024 := Nat.mod_mod _ _
  have hkeys : advanced.keysOutside =
      [number % 1024].takeWhile fun key => ¬ advanced.InsideWindow (.ofValue key) := by
    have hone : (List.range 1024).filter (fun key => (advanced.rxBuffer key).isSome) =
        [number % 1024] := filter_only (Nat.mod_lt _ (by decide)) arrived.isSome_iff
    rw [keysOutside, hone]
  rw [moveWindow, if_neg hmove]
  simp only [reassembleOutsideWindow]
  rw [show ({ rx with vrUh := seqNumber.add 1 } : UmReceiver).withWindowBase = advanced from rfl,
    hkeys]
  by_cases hinside : advanced.InsideWindow (.ofValue (number % 1024))
  · have hur : advanced.InsideWindow advanced.vrUr :=
      (insideWindow_congr (hkey.trans hvalue.symm)).mp hinside
    have harrived : Arrived advanced number left pdu.wire :=
      { windowSize := arrived.windowSize
        vrUr := arrived.vrUr
        expected := arrived.expected
        rxBuffer := arrived.rxBuffer
        reorderingTimer := arrived.reorderingTimer
        sdusBuffer := arrived.sdusBuffer
        kept := arrived.kept }
    obtain ⟨next, hnext, hpassed⟩ :=
      harrived.moveVrUr hadvanced carries hpieces hbytes hcontinues
    refine ⟨advanced, [], next, _, ?_, hnext, rfl, hpassed⟩
    simp only [List.takeWhile_cons, hinside, not_true, decide_false, takeOutAll, Option.map_some,
      if_pos hur, Bool.false_eq_true, if_false]
  · have hzero : rx.windowSize = 0 := by
      by_contra hpos
      apply hinside
      refine (@insideWindow_iff advanced ((number : Int) + 1) number _ hwindow (by omega) (by omega)
        ?_ ?_).mpr (by omega)
      · show (number : Int) + 1 - rx.windowSize ≤ number
        omega
      · show (number : Int) < number + 1 - rx.windowSize + 1024
        omega
    obtain ⟨state, keep, htake, hkept⟩ := @takeOut_only advanced left chunk pdu number carries
      hpieces hbytes hcontinues arrived.rxBuffer arrived.expected arrived.sdusBuffer arrived.kept
    let taken : UmReceiver := { advanced with
      expectedSeqNumber := advanced.expectedSeqNumber.next
      reassemblingState := state
      keepS0 := keep
      sdusBuffer := []
      rxBuffer := fun _ => none }
    have hur : ¬ taken.InsideWindow taken.vrUr := fun hur =>
      hinside ((insideWindow_congr (hkey.trans hvalue.symm)).mpr hur)
    have hsub : (taken.vrUh.sub taken.windowSize).value = (number + 1) % 1024 := by
      have hbase := @sub_value taken.vrUh ((number : Int) + 1) rx.windowSize (by
        rw [show taken.vrUh.value = (number + 1) % 1024 from hadvanced]
        push_cast
        rfl)
      rw [hzero] at hbase
      rw [show taken.windowSize = 0 from hzero]
      omega
    refine ⟨{ taken with vrUr := taken.vrUh.sub taken.windowSize }, chunk.finished left,
      { taken with vrUr := taken.vrUh.sub taken.windowSize }, [], ?_, rfl, List.append_nil _, ?_⟩
    · simp only [List.takeWhile_cons, hinside, not_false_eq_true, decide_true, if_true,
        List.takeWhile_nil, takeOutAll, htake, Option.map_some, List.append_nil]
      rw [if_neg hur]
    · exact {
        windowSize := hwindow
        vrUr := hsub
        vrUh := hadvanced
        expected := next_value arrived.expected
        rxBuffer := rfl
        reorderingTimer := arrived.reorderingTimer
        sdusBuffer := rfl
        kept := hkept }

theorem place_eq {seqNumber : SequenceNumber10} {packet : List UInt8} {moved : UmReceiver}
    {outside : List (List UInt8)}
    (hmoved : (rx.put seqNumber.value packet).moveWindow seqNumber = some (moved, outside)) :
    rx.place seqNumber packet = moved.moveVrUr.map fun result =>
      (result.1.withTimerBases.moveTimer, outside ++ result.2) := by
  rw [place, hmoved, Option.bind_some]

/-- One unit received in order is reassembled at once. -/
theorem Ready.receive (ready : Ready rx number left)
    (carries : UmTransmitter.Carries pdu number chunk)
    (hpieces : chunk.pieces ≠ []) (hbytes : ∀ piece ∈ chunk.pieces, piece ≠ [])
    (hcontinues : chunk.continues = true ↔ left ≠ []) :
    ∃ next, rx.receive ⟨number % 1024, 0⟩ pdu.wire = some (next, chunk.finished left) ∧
      Ready next (number + 1) (chunk.leaves left) := by
  let based := rx.withWindowBases
  let seqNumber : SequenceNumber10 := ⟨number % 1024, (based.vrUh.sub rx.windowSize).value⟩
  have hkeep : ¬ based.Discards seqNumber := by
    rintro (⟨hlt, -, -⟩ | ⟨-, hlt⟩)
    · exact hlt.2 ready.vrUr
    · exact hlt.2 ready.vrUr.symm
  let placed := based.put (number % 1024) pdu.wire
  have huh : (rx.vrUh.value : Int) = (number : Int) % 1024 := by
    rw [ready.vrUh]
    push_cast
    rfl
  have arrived : Arrived placed number left pdu.wire :=
    { windowSize := ready.windowSize
      vrUr := ⟨by
        show (rx.vrUr.value : Int) = _
        rw [ready.vrUr]
        push_cast
        rfl, sub_value huh⟩
      expected := ready.expected
      rxBuffer := by
        show Function.update rx.rxBuffer (number % 1024) (some pdu.wire) = _
        rw [ready.rxBuffer]
      reorderingTimer := ready.reorderingTimer
      sdusBuffer := ready.sdusBuffer
      kept := ready.kept }
  obtain ⟨moved, outside, next, delivered, hmoved, hnext, hdelivered, hpassed⟩ :=
    @Arrived.pass placed left chunk pdu number arrived ready.vrUh seqNumber rfl carries hpieces hbytes
      hcontinues
  refine ⟨next.withTimerBases, ?_, ?_⟩
  · show (if based.Discards seqNumber then some (based, []) else based.place seqNumber pdu.wire) = _
    rw [if_neg hkeep, place_eq hmoved, hnext, Option.map_some, hdelivered,
      moveTimer_idle hpassed.reorderingTimer (hpassed.vrUr.trans hpassed.vrUh.symm)]
  · exact {
      windowSize := hpassed.windowSize
      vrUr := hpassed.vrUr
      vrUh := hpassed.vrUh
      expected := hpassed.expected
      rxBuffer := hpassed.rxBuffer
      reorderingTimer := hpassed.reorderingTimer
      sdusBuffer := hpassed.sdusBuffer
      kept := hpassed.kept }

/-- A unit received in order on either path. -/
theorem Ready.receivePdu {path : Path} (allowed : path.Allowed) (ready : Ready rx number left)
    (carries : UmTransmitter.Carries pdu number chunk)
    (hpieces : chunk.pieces ≠ []) (hbytes : ∀ piece ∈ chunk.pieces, piece ≠ [])
    (hcontinues : chunk.continues = true ↔ left ≠ []) :
    ∃ next, UmReceiver.receivePdu path rx pdu.wire = some (next, chunk.finished left) ∧
      Ready next (number + 1) (chunk.leaves left) := by
  have hdeserialize := carried_deserialize carries hpieces
  have hnumber : pdu.rlcHeader.sequenceNumber = number % 1024 := by
    rw [carries.header]
    rfl
  cases path with
  | lte =>
      obtain ⟨next, hnext, hready⟩ := ready.receive carries hpieces hbytes hcontinues
      refine ⟨next, ?_, hready⟩
      rw [UmReceiver.receivePdu, doReceivePdu, hdeserialize]
      simp only [hnumber, hnext]
  | nrSl stch srcL2Id dstL2Id =>
      have hallowed : ¬ (dstL2Id ≠ 0 ∧ stch = false) := by
        rintro ⟨hid, hstch⟩
        rcases allowed.2 with hzero | htrue
        · exact hid hzero
        · rw [hstch] at htrue
          cases htrue
      rw [UmReceiver.receivePdu, doReceiveNrSlRlcPdu, hdeserialize]
      simp only [if_neg hallowed, hnumber]
      split
      · have hfirst : Ready { rx with
            vrUr := ⟨number % 1024, 0⟩
            vrUh := ⟨number % 1024, 0⟩
            expectedSeqNumber := ⟨number % 1024, 0⟩
            firstPduRxed := true } number left :=
          { windowSize := ready.windowSize
            vrUr := rfl
            vrUh := rfl
            expected := rfl
            rxBuffer := ready.rxBuffer
            reorderingTimer := ready.reorderingTimer
            sdusBuffer := ready.sdusBuffer
            kept := ready.kept }
        exact hfirst.receive carries hpieces hbytes hcontinues
      · exact ready.receive carries hpieces hbytes hcontinues

end Step

/-! ## Runs -/

/-- All units received in order deliver what their chunks finish. -/
theorem Ready.receiveAll {path : Path} (allowed : path.Allowed) (pdus : List RlcPdu) :
    ∀ {rx : UmReceiver} {before chunks : List (Chunk UInt8)},
      Ready rx before.length (assemble [] before).2 → pdus.length = chunks.length →
      (∀ i pdu chunk, pdus[i]? = some pdu → chunks[i]? = some chunk →
        UmTransmitter.Carries pdu (before.length + i) chunk) →
      Consistent (before ++ chunks) →
      ∃ next, UmReceiver.receiveAll path rx (pdus.map RlcPdu.wire) =
        some (next, (assemble (assemble [] before).2 chunks).1) := by
  induction pdus with
  | nil =>
      intro rx before chunks _ hlength _ _
      obtain rfl := List.eq_nil_of_length_eq_zero hlength.symm
      exact ⟨rx, rfl⟩
  | cons pdu pdus ih =>
      intro rx before chunks ready hlength hcarries hconsistent
      cases chunks with
      | nil => cases hlength
      | cons chunk chunks =>
          obtain ⟨hpieces, hbytes, hcontinues⟩ := hconsistent before.length chunk (by
            rw [List.getElem?_append_right (Nat.le_refl _), Nat.sub_self]
            rfl)
          rw [leftBefore_append (Nat.le_refl _), leftBefore, List.take_length] at hcontinues
          obtain ⟨next, hnext, hready⟩ := ready.receivePdu allowed
            (hcarries 0 pdu chunk rfl rfl) hpieces hbytes hcontinues
          have hbefore : assemble [] (before ++ [chunk]) =
              ((assemble [] before).1 ++ chunk.finished (assemble [] before).2,
                chunk.leaves (assemble [] before).2) := assemble_snoc _ _ _
          have hready' : Ready next (before ++ [chunk]).length (assemble [] (before ++ [chunk])).2 := by
            rw [hbefore, List.length_append, List.length_singleton]
            exact hready
          obtain ⟨final, hfinal⟩ := @ih next (before ++ [chunk]) chunks hready'
            (Nat.succ.inj hlength)
            (fun i other otherChunk hpdu hchunk => by
              rw [List.length_append, List.length_singleton, Nat.add_assoc, Nat.add_comm 1 i]
              exact hcarries (i + 1) other otherChunk hpdu hchunk)
            (by rw [List.append_assoc]; exact hconsistent)
          refine ⟨final, ?_⟩
          rw [List.map_cons, UmReceiver.receiveAll, hnext]
          simp only [hfinal, Option.map_some, hbefore, assemble]

theorem start_ready {windowSize : Nat} (hwindow : windowSize ≤ 512) :
    Ready { windowSize := windowSize } 0 [] where
  windowSize := hwindow
  vrUr := rfl
  vrUh := rfl
  expected := rfl
  rxBuffer := rfl
  reorderingTimer := rfl
  sdusBuffer := rfl
  kept := ⟨.inl rfl, fun _ => rfl⟩

end UmReceiver

end DeepcV2x.Rlc
