import DeepcV2x.Rlc.UmReceive
import DeepcV2x.Rlc.UmSegment

/-!
# Reassembly

The receiver keeps either nothing or just what the chunks so far leave of a
unit.  A chunk taken in order delivers the units that end in it; after a loss
it delivers some of them.
-/

namespace DeepcV2x.Rlc

open Foundation.Segmentation

namespace UmReceiver

open LteRlcHeader (bitsOf)

/-! ## Taking a packet apart -/

/-- The pieces are cut where they were joined. -/
theorem buildSdus_pieces (piece : List UInt8) (pieces : List (List UInt8)) :
    buildSdus (bitsOf (0 :: (piece :: pieces).dropLast.map List.length))
      ((piece :: pieces).dropLast.map List.length) (piece :: pieces).flatten =
        some (piece :: pieces) := by
  induction pieces generalizing piece with
  | nil =>
      rw [List.flatten_singleton]
      rfl
  | cons next pieces ih =>
      have hdrop : (piece :: next :: pieces).dropLast = piece :: (next :: pieces).dropLast := rfl
      rw [hdrop, List.map_cons, bitsOf, List.flatten_cons, buildSdus]
      rw [if_neg (show ¬ LteRlcHeader.E_LI_FIELDS_FOLLOWS = LteRlcHeader.DATA_FIELD_FOLLOWS from
        Nat.one_ne_zero)]
      have hbits : bitsOf (piece.length :: (next :: pieces).dropLast.map List.length) =
          bitsOf (0 :: (next :: pieces).dropLast.map List.length) := by
        rw [LteRlcHeader.bitsOf_cons, LteRlcHeader.bitsOf_cons]
      simp only [List.length_append, Nat.le_add_right, if_true, List.drop_left, List.take_left, hbits,
        ih, Option.map_some]

/-- The packet of a unit gives back its header and the pieces of its chunk. -/
theorem carried_read {pdu : RlcPdu} {number : Nat} {chunk : Chunk UInt8}
    (carries : UmTransmitter.Carries pdu number chunk) (hpieces : chunk.pieces ≠ []) :
    LteRlcHeader.removeHeader pdu.wire = some (pdu.rlcHeader, pdu.packet) ∧
      buildSdus pdu.rlcHeader.extensionBits pdu.rlcHeader.lengthIndicators pdu.packet =
        some chunk.pieces := by
  have hframing : UmTransmitter.framingOf chunk < 4 := by
    rw [UmTransmitter.framingOf]
    split <;> split <;> decide
  have hshort : ∀ lengthIndicator ∈ chunk.pieces.dropLast.map List.length,
      lengthIndicator < 2048 := by
    intro lengthIndicator hmem
    obtain ⟨piece, hpiece, rfl⟩ := List.mem_map.mp hmem
    exact Nat.lt_succ_of_le (carries.short piece hpiece)
  constructor
  · rw [RlcPdu.wire, carries.header]
    exact LteRlcHeader.removeHeader_serialize hframing (Nat.mod_lt _ (by decide)) hshort _
  · rw [carries.header, carries.packet]
    cases hcases : chunk.pieces with
    | nil => exact absurd hcases hpieces
    | cons piece pieces => exact buildSdus_pieces piece pieces

theorem carried_deserialize {pdu : RlcPdu} {number : Nat} {chunk : Chunk UInt8}
    (carries : UmTransmitter.Carries pdu number chunk) (hpieces : chunk.pieces ≠ []) :
    LteRlcHeader.deserialize pdu.wire = some pdu.rlcHeader := by
  obtain ⟨header, hheader, hpair⟩ := Option.map_eq_some_iff.mp (carried_read carries hpieces).1
  rw [hheader, (Prod.mk.inj hpair).1]

/-! ## The automaton -/

/-- Nothing is kept, or what was left of a unit. -/
def Synced (rx : UmReceiver) (left : List UInt8) : Prop :=
  rx.reassemblingState = .waitingS0Full ∨
    (rx.reassemblingState = .waitingSiSf ∧ rx.keepS0 = some left ∧ left ≠ [])

/-- What is left of a unit is kept. -/
def Kept (rx : UmReceiver) (left : List UInt8) : Prop :=
  Synced rx left ∧ (rx.reassemblingState = .waitingS0Full → left = [])

/-- A transition delivers some of the units that end in a chunk, all of them when nothing was
missing. -/
structure Delivers (rx : UmReceiver) (left : List UInt8) (chunk : Chunk UInt8)
    (result : Option (UmReceiver × List (List UInt8))) (complete : Prop) : Prop where
  delivers : ∃ next delivered, result = some (next, delivered) ∧
    (∃ reassemblingState keepS0, next = { rx with
      reassemblingState := reassemblingState, keepS0 := keepS0, sdusBuffer := [] }) ∧
    delivered.Sublist (chunk.finished left) ∧ Synced next (chunk.leaves left) ∧
    (complete → delivered = chunk.finished left ∧
      (next.reassemblingState = .waitingS0Full → chunk.leaves left = []))

/-- The four framing informations. -/
theorem framingOf_eq (pieces : List (List UInt8)) (continues continued : Bool) :
    UmTransmitter.framingOf ⟨pieces, continues, continued⟩ =
      (if continues then 2 else 0) + (if continued then 1 else 0) := by
  cases continues <;> cases continued <;>
    simp [UmTransmitter.framingOf, LteRlcHeader.FIRST_BYTE, LteRlcHeader.NO_FIRST_BYTE,
      LteRlcHeader.LAST_BYTE, LteRlcHeader.NO_LAST_BYTE]

theorem fromS0_zero (rx : UmReceiver) : rx.fromS0 0 =
    some ({ rx with reassemblingState := .waitingS0Full, sdusBuffer := [] }, rx.sdusBuffer) := rfl

theorem fromS0_one (rx : UmReceiver) : rx.fromS0 1 =
    rx.sdusBuffer.getLast?.map fun s0 =>
      ({ rx with reassemblingState := .waitingSiSf, keepS0 := some s0, sdusBuffer := [] },
        rx.sdusBuffer.dropLast) := rfl

theorem fromS0_two {rx : UmReceiver} {sdu : List UInt8} {sdus : List (List UInt8)}
    (hbuffer : rx.sdusBuffer = sdu :: sdus) : rx.fromS0 2 =
    some ({ rx with reassemblingState := .waitingS0Full, sdusBuffer := [] }, sdus) := by
  rw [fromS0, if_neg (by decide), if_neg (by decide), if_pos (by decide)]
  simp only [hbuffer]

theorem fromS0_three {rx : UmReceiver} {sdu : List UInt8} (hbuffer : rx.sdusBuffer = [sdu]) :
    rx.fromS0 3 =
      some ({ rx with reassemblingState := .waitingS0Full, sdusBuffer := [] }, []) := by
  rw [fromS0, if_neg (by decide), if_neg (by decide), if_neg (by decide), if_pos (by decide)]
  simp only [hbuffer]

theorem fromS0_three_more {rx : UmReceiver} {sdu next : List UInt8} {sdus : List (List UInt8)}
    (hbuffer : rx.sdusBuffer = sdu :: next :: sdus) : rx.fromS0 3 =
    some ({ rx with
      reassemblingState := .waitingSiSf
      keepS0 := (next :: sdus).getLast?
      sdusBuffer := [] }, (next :: sdus).dropLast) := by
  rw [fromS0, if_neg (by decide), if_neg (by decide), if_neg (by decide), if_pos (by decide)]
  simp only [hbuffer]

theorem fromSi_two {rx : UmReceiver} {s0 sn : List UInt8} {sdus : List (List UInt8)}
    (hkeep : rx.keepS0 = some s0) (hbuffer : rx.sdusBuffer = sn :: sdus) : rx.fromSi 2 =
    some ({ rx with
      reassemblingState := .waitingS0Full
      keepS0 := some (s0 ++ sn)
      sdusBuffer := [] }, (s0 ++ sn) :: sdus) := by
  rw [fromSi, if_pos (by decide)]
  simp only [hkeep, hbuffer]

theorem fromSi_three {rx : UmReceiver} {s0 si : List UInt8} (hkeep : rx.keepS0 = some s0)
    (hbuffer : rx.sdusBuffer = [si]) : rx.fromSi 3 =
    some ({ rx with
      reassemblingState := .waitingSiSf
      keepS0 := some (s0 ++ si)
      sdusBuffer := [] }, []) := by
  rw [fromSi, if_neg (by decide), if_pos (by decide)]
  simp only [hkeep, hbuffer]

theorem fromSi_three_more {rx : UmReceiver} {s0 sn next : List UInt8} {sdus : List (List UInt8)}
    (hkeep : rx.keepS0 = some s0) (hbuffer : rx.sdusBuffer = sn :: next :: sdus) : rx.fromSi 3 =
    some ({ rx with
      reassemblingState := .waitingSiSf
      keepS0 := (next :: sdus).getLast?
      sdusBuffer := [] }, (s0 ++ sn) :: (next :: sdus).dropLast) := by
  rw [fromSi, if_neg (by decide), if_pos (by decide)]
  simp only [hkeep, hbuffer]

/-- What a continued chunk leaves is its last piece, joined with what was left when it is the
first. -/
theorem leaves_continued (left piece : List UInt8) (pieces : List (List UInt8)) (continues : Bool) :
    ∃ last, ((left ++ piece) :: pieces).getLast? = some last ∧
      (⟨piece :: pieces, continues, true⟩ : Chunk UInt8).leaves left = last := by
  refine ⟨_, List.getLast?_eq_some_getLast (List.cons_ne_nil _ _), ?_⟩
  show ((left ++ piece) :: pieces).getLastD [] = _
  rw [List.getLastD_eq_getLast?, List.getLast?_eq_some_getLast (List.cons_ne_nil _ _),
    Option.getD_some]

section Automaton

variable {rx : UmReceiver} {left : List UInt8} {chunk : Chunk UInt8}

/-- From the state that keeps nothing, or after a loss. -/
theorem fromS0_delivers (hpieces : chunk.pieces ≠ []) (hbytes : ∀ piece ∈ chunk.pieces, piece ≠ [])
    (hcontinues : chunk.continues = true ↔ left ≠ []) (hbuffer : rx.sdusBuffer = chunk.pieces) :
    Delivers rx left chunk (rx.fromS0 (UmTransmitter.framingOf chunk)) (left = []) := by
  have hleaves := @Chunk.leaves_ne_nil_iff _ left chunk hpieces hbytes
  obtain ⟨pieces, continues, continued⟩ := chunk
  rw [framingOf_eq]
  cases pieces with
  | nil => exact absurd rfl hpieces
  | cons piece pieces =>
      cases continues with
      | false =>
          obtain rfl : left = [] := by
            by_contra hne
            cases hcontinues.mpr hne
          cases continued with
          | false =>
              refine ⟨_, _, fromS0_zero rx, ⟨_, _, rfl⟩, ?_, .inl rfl, fun _ => ⟨hbuffer, fun _ => rfl⟩⟩
              rw [hbuffer]
              exact List.Sublist.refl _
          | true =>
              obtain ⟨last, hlast, hleft⟩ := leaves_continued [] piece pieces false
              refine ⟨{ rx with
                reassemblingState := .waitingSiSf, keepS0 := some last, sdusBuffer := [] },
                (piece :: pieces).dropLast, ?_, ⟨_, _, rfl⟩, List.Sublist.refl _,
                .inr ⟨rfl, congrArg some hleft.symm, hleaves.mpr rfl⟩,
                fun _ => ⟨rfl, fun hs0 => nomatch hs0⟩⟩
              show rx.fromS0 1 = _
              rw [fromS0_one, hbuffer, show (piece :: pieces).getLast? = some last from hlast]
              rfl
      | true =>
          have hleft : left ≠ [] := hcontinues.mp rfl
          cases continued with
          | false =>
              exact ⟨_, _, fromS0_two hbuffer, ⟨_, _, rfl⟩, List.sublist_cons_self _ _, .inl rfl,
                fun hnil => absurd hnil hleft⟩
          | true =>
              cases pieces with
              | nil =>
                  exact ⟨_, _, fromS0_three hbuffer, ⟨_, _, rfl⟩, List.nil_sublist _, .inl rfl,
                    fun hnil => absurd hnil hleft⟩
              | cons next pieces =>
                  obtain ⟨last, hlast, hlast'⟩ := leaves_continued left piece (next :: pieces) true
                  rw [List.getLast?_cons_cons] at hlast
                  exact ⟨_, _, fromS0_three_more hbuffer, ⟨_, _, rfl⟩, List.sublist_cons_self _ _,
                    .inr ⟨rfl, hlast.trans (congrArg some hlast'.symm), hleaves.mpr rfl⟩,
                    fun hnil => absurd hnil hleft⟩

/-- From the state that keeps what was left. -/
theorem fromSi_delivers (hpieces : chunk.pieces ≠ []) (hbytes : ∀ piece ∈ chunk.pieces, piece ≠ [])
    (hcontinues : chunk.continues = true ↔ left ≠ []) (hbuffer : rx.sdusBuffer = chunk.pieces)
    (hkeep : rx.keepS0 = some left) (hleft : left ≠ []) :
    Delivers rx left chunk (rx.fromSi (UmTransmitter.framingOf chunk)) True := by
  have hleaves := @Chunk.leaves_ne_nil_iff _ left chunk hpieces hbytes
  obtain ⟨pieces, continues, continued⟩ := chunk
  obtain rfl : continues = true := hcontinues.mpr hleft
  rw [framingOf_eq]
  cases pieces with
  | nil => exact absurd rfl hpieces
  | cons piece pieces =>
      cases continued with
      | false =>
          exact ⟨_, _, fromSi_two hkeep hbuffer, ⟨_, _, rfl⟩, List.Sublist.refl _, .inl rfl,
            fun _ => ⟨rfl, fun _ => rfl⟩⟩
      | true =>
          obtain ⟨last, hlast, hlast'⟩ := leaves_continued left piece pieces true
          cases pieces with
          | nil =>
              exact ⟨_, _, fromSi_three hkeep hbuffer, ⟨_, _, rfl⟩, List.Sublist.refl _,
                .inr ⟨rfl, hlast.trans (congrArg some hlast'.symm), hleaves.mpr rfl⟩,
                fun _ => ⟨rfl, fun hs0 => nomatch hs0⟩⟩
          | cons next pieces =>
              rw [List.getLast?_cons_cons] at hlast
              exact ⟨_, _, fromSi_three_more hkeep hbuffer, ⟨_, _, rfl⟩, List.Sublist.refl _,
                .inr ⟨rfl, hlast.trans (congrArg some hlast'.symm), hleaves.mpr rfl⟩,
                fun _ => ⟨rfl, fun hs0 => nomatch hs0⟩⟩

variable {pdu : RlcPdu} {number : Nat}

/-- A chunk taken in order. -/
theorem reassemble_inOrder (carries : UmTransmitter.Carries pdu number chunk)
    (hpieces : chunk.pieces ≠ []) (hbytes : ∀ piece ∈ chunk.pieces, piece ≠ [])
    (hcontinues : chunk.continues = true ↔ left ≠ []) (hbuffer : rx.sdusBuffer = [])
    (hexpected : rx.expectedSeqNumber.value = number % 1024) (synced : Synced rx left) :
    Delivers { rx with expectedSeqNumber := rx.expectedSeqNumber.next } left chunk
      (rx.reassembleAndDeliver pdu.wire)
      (rx.reassemblingState = .waitingS0Full → left = []) := by
  obtain ⟨hremove, hbuild⟩ := carried_read carries hpieces
  have hnumber : pdu.rlcHeader.sequenceNumber = number % 1024 := by rw [carries.header]; rfl
  have hframing : pdu.rlcHeader.framingInfo = UmTransmitter.framingOf chunk := by
    rw [carries.header]
    rfl
  have hlost : decide (number % 1024 ≠ rx.expectedSeqNumber.value) = false := by
    rw [hexpected]
    exact decide_eq_false fun hne => hne rfl
  rw [reassembleAndDeliver, hremove]
  simp only [hbuild, hnumber, hframing, hlost, hbuffer, List.nil_append, Bool.false_eq_true, if_false]
  rcases synced with hs0 | ⟨hsi, hkeep, hleft⟩
  · simp only [hs0]
    obtain ⟨next, delivered, hnext, ⟨state, keep, hframe⟩, hsublist, hsynced, hcomplete⟩ :=
      (@fromS0_delivers { rx with
        expectedSeqNumber := rx.expectedSeqNumber.next, sdusBuffer := chunk.pieces
        reassemblingState := .waitingS0Full }
        left chunk hpieces hbytes hcontinues rfl).delivers
    exact ⟨next, delivered, hnext, ⟨state, keep, hframe⟩, hsublist, hsynced,
      fun hall => hcomplete (hall trivial)⟩
  · simp only [hsi]
    obtain ⟨next, delivered, hnext, ⟨state, keep, hframe⟩, hsublist, hsynced, hcomplete⟩ :=
      (@fromSi_delivers { rx with
        expectedSeqNumber := rx.expectedSeqNumber.next, sdusBuffer := chunk.pieces
        reassemblingState := .waitingSiSf }
        left chunk hpieces hbytes hcontinues rfl hkeep hleft).delivers
    exact ⟨next, delivered, hnext, ⟨state, keep, hframe⟩, hsublist, hsynced,
      fun _ => hcomplete trivial⟩

/-- A chunk taken after a loss. -/
theorem reassemble_afterLoss (carries : UmTransmitter.Carries pdu number chunk)
    (hpieces : chunk.pieces ≠ []) (hbytes : ∀ piece ∈ chunk.pieces, piece ≠ [])
    (hcontinues : chunk.continues = true ↔ left ≠ []) (hbuffer : rx.sdusBuffer = [])
    (hexpected : rx.expectedSeqNumber.value ≠ number % 1024) :
    Delivers { rx with expectedSeqNumber := ⟨(number + 1) % 1024, 0⟩ } left chunk
      (rx.reassembleAndDeliver pdu.wire) False := by
  obtain ⟨hremove, hbuild⟩ := carried_read carries hpieces
  have hnumber : pdu.rlcHeader.sequenceNumber = number % 1024 := by rw [carries.header]; rfl
  have hframing : pdu.rlcHeader.framingInfo = UmTransmitter.framingOf chunk := by
    rw [carries.header]
    rfl
  have hlost : decide (number % 1024 ≠ rx.expectedSeqNumber.value) = true :=
    decide_eq_true fun heq => hexpected heq.symm
  have hnext : (⟨number % 1024, 0⟩ : SequenceNumber10).add 1 = ⟨(number + 1) % 1024, 0⟩ := by
    simp only [SequenceNumber10.add, Nat.mod_add_mod]
  rw [reassembleAndDeliver, hremove]
  simp only [hbuild, hnumber, hframing, hlost, hbuffer, List.nil_append, if_true, hnext]
  cases hstate : rx.reassemblingState with
  | waitingS0Full =>
      obtain ⟨next, delivered, hresult, ⟨state, keep, hframe⟩, hsublist, hsynced, -⟩ :=
        (@fromS0_delivers { rx with
          expectedSeqNumber := ⟨(number + 1) % 1024, 0⟩, sdusBuffer := chunk.pieces
          reassemblingState := .waitingS0Full }
          left chunk hpieces hbytes hcontinues rfl).delivers
      exact ⟨next, delivered, hresult, ⟨state, keep, hframe⟩, hsublist, hsynced, False.elim⟩
  | waitingSiSf =>
      obtain ⟨next, delivered, hresult, ⟨state, keep, hframe⟩, hsublist, hsynced, -⟩ :=
        (@fromS0_delivers { rx with
          expectedSeqNumber := ⟨(number + 1) % 1024, 0⟩, sdusBuffer := chunk.pieces
          reassemblingState := .waitingSiSf, keepS0 := none }
          left chunk hpieces hbytes hcontinues rfl).delivers
      exact ⟨next, delivered, hresult, ⟨state, keep, hframe⟩, hsublist, hsynced, False.elim⟩

end Automaton

end UmReceiver

end DeepcV2x.Rlc
