import DeepcV2x.Rlc.UmTransmit

/-!
# Segmentation

The protocol data units a run sends carry chunks of the accepted units: what
the chunks finish and what the buffer still holds are the accepted units, with
nothing lost or repeated between them.
-/

namespace DeepcV2x.Rlc

open Foundation.Runs
open Foundation.Segmentation

/-! ## Headers -/

namespace LteRlcHeader

/-- The fields the loop pushes for the segments before the last, and the last extension bit. -/
def pushFields : LteRlcHeader → List Nat → LteRlcHeader
  | header, [] => header.pushExtensionBit DATA_FIELD_FOLLOWS
  | header, lengthIndicator :: lengthIndicators =>
      pushFields ((header.pushExtensionBit E_LI_FIELDS_FOLLOWS).pushLengthIndicator lengthIndicator)
        lengthIndicators

theorem bitsOf_cons (first : Nat) (lengthIndicators : List Nat) :
    bitsOf (first :: lengthIndicators) =
      List.replicate lengthIndicators.length E_LI_FIELDS_FOLLOWS ++ [DATA_FIELD_FOLLOWS] := by
  induction lengthIndicators generalizing first with
  | nil => rfl
  | cons lengthIndicator lengthIndicators ih =>
      rw [bitsOf, ih, List.length_cons, List.replicate_succ, List.cons_append]

/-- A header under construction: some extension bits set, one length indicator for each. -/
def Grown (header : LteRlcHeader) (lengthIndicators : List Nat) : Prop :=
  header.extensionBits = List.replicate lengthIndicators.length E_LI_FIELDS_FOLLOWS ∧
    header.lengthIndicators = lengthIndicators ∧
    (lengthIndicators ≠ [] → header.headerLength = 2 + fieldsLength (lengthIndicators.length - 1))

theorem pushExtensionBit_length {header : LteRlcHeader} {lengthIndicators : List Nat}
    (grown : header.Grown lengthIndicators) (extensionBit : Nat) :
    (header.pushExtensionBit extensionBit).headerLength =
      2 + fieldsLength lengthIndicators.length := by
  obtain ⟨hbits, -, hlength⟩ := grown
  have hcount : (header.extensionBits ++ [extensionBit]).length = lengthIndicators.length + 1 := by
    rw [hbits, List.length_append, List.length_replicate, List.length_singleton]
  simp only [pushExtensionBit, hcount]
  cases lengthIndicators with
  | nil => rfl
  | cons lengthIndicator others =>
      rw [hlength (List.cons_ne_nil _ _), List.length_cons, Nat.add_sub_cancel, fieldsLength,
        fieldsLength]
      split
      · omega
      · split <;> omega

theorem Grown.push {header : LteRlcHeader} {lengthIndicators : List Nat}
    (grown : header.Grown lengthIndicators) (lengthIndicator : Nat) :
    ((header.pushExtensionBit E_LI_FIELDS_FOLLOWS).pushLengthIndicator lengthIndicator).Grown
      (lengthIndicators ++ [lengthIndicator]) := by
  refine ⟨?_, ?_, ?_⟩
  · rw [List.length_append, List.length_singleton, List.replicate_succ', ← grown.1]
    rfl
  · rw [← grown.2.1]
    rfl
  · intro _
    rw [List.length_append, List.length_singleton, Nat.add_sub_cancel]
    exact pushExtensionBit_length grown E_LI_FIELDS_FOLLOWS

theorem pushFields_grown (others : List Nat) : ∀ {header : LteRlcHeader} {lengthIndicators : List Nat},
    header.Grown lengthIndicators →
    (header.pushFields others).headerLength = 2 + fieldsLength (lengthIndicators ++ others).length ∧
      (header.pushFields others).extensionBits = bitsOf (0 :: (lengthIndicators ++ others)) ∧
      (header.pushFields others).lengthIndicators = lengthIndicators ++ others := by
  induction others with
  | nil =>
      intro header lengthIndicators grown
      rw [List.append_nil]
      refine ⟨pushExtensionBit_length grown _, ?_, grown.2.1⟩
      rw [bitsOf_cons, ← grown.1]
      rfl
  | cons lengthIndicator others ih =>
      intro header lengthIndicators grown
      have hpush := ih (grown.push lengthIndicator)
      rw [List.append_assoc, List.singleton_append] at hpush
      exact hpush

/-- The header of a unit, complete. -/
theorem pushFields_eq (lengthIndicators : List Nat) (sequenceNumber framingInfo : Nat) :
    ((pushFields {} lengthIndicators).setSequenceNumber sequenceNumber).setFramingInfo framingInfo =
      ofSegments (framingInfo &&& 0x03) sequenceNumber lengthIndicators := by
  obtain ⟨hlength, hbits, hli⟩ := @pushFields_grown lengthIndicators {} []
    ⟨rfl, rfl, fun hne => absurd rfl hne⟩
  rw [List.nil_append] at hlength hbits hli
  rw [setFramingInfo, setSequenceNumber, ofSegments, hlength, hbits, hli]

end LteRlcHeader

namespace UmTransmitter

/-! ## The data field -/

/-- The status of a unit in the buffer, some bytes of which may be sent. -/
def waitingStatus (left : List UInt8) : SduStatus :=
  if left = [] then .fullSdu else .lastSegment

/-- The buffer holds pending units, of the first of which some bytes are already sent. -/
def Queue (left : List UInt8) : List TxPdu → List (List UInt8) → Prop
  | [], pending => left = [] ∧ pending = []
  | head :: tail, pending =>
      pending = (left ++ head.pdu) :: tail.map TxPdu.pdu ∧ head.pdu ≠ [] ∧
        head.status = waitingStatus left ∧
        ∀ sdu ∈ tail, sdu.pdu ≠ [] ∧ sdu.status = .fullSdu

theorem Queue.tail {left : List UInt8} {head : TxPdu} {tail : List TxPdu}
    {pending : List (List UInt8)} (queue : Queue left (head :: tail) pending) :
    Queue [] tail (tail.map TxPdu.pdu) := by
  obtain ⟨-, -, -, htail⟩ := queue
  cases tail with
  | nil => exact ⟨rfl, rfl⟩
  | cons next others =>
      obtain ⟨hne, hstatus⟩ := htail next List.mem_cons_self
      exact ⟨rfl, hne, hstatus, fun sdu hmem => htail sdu (List.mem_cons_of_mem _ hmem)⟩

/-- What was sent of the first pending unit leads the pending bytes and misses some of the unit. -/
theorem Queue.leads {left : List UInt8} {txBuffer : List TxPdu} {pending : List (List UInt8)}
    (queue : Queue left txBuffer pending) :
    left <+: pending.flatten ∧ ∀ sdu ∈ pending.head?, left.length < sdu.length := by
  cases txBuffer with
  | nil =>
      obtain ⟨rfl, rfl⟩ := queue
      exact ⟨List.nil_prefix, fun _ hmem => nomatch hmem⟩
  | cons head tail =>
      obtain ⟨rfl, hne, -, -⟩ := queue
      constructor
      · rw [List.flatten_cons, List.append_assoc]
        exact List.prefix_append _ _
      · rintro sdu ⟨⟩
        rw [List.length_append]
        exact Nat.lt_add_of_pos_right (List.length_pos_iff.mpr hne)

/-- The segment starts a unit. -/
def Starts (status : SduStatus) : Prop := status = .fullSdu ∨ status = .firstSegment

/-- The segment ends a unit. -/
def Ends (status : SduStatus) : Prop := status = .fullSdu ∨ status = .lastSegment

theorem waitingStatus_starts (left : List UInt8) : Starts (waitingStatus left) ↔ left = [] := by
  rw [waitingStatus, Starts]
  split <;> simp [*]

theorem waitingStatus_ends (left : List UInt8) : Ends (waitingStatus left) := by
  rw [waitingStatus, Ends]
  split <;> simp

theorem cut_starts (left : List UInt8) : Starts (cutStatus (waitingStatus left)).1 ↔ left = [] := by
  rw [waitingStatus, Starts]
  split <;> simp [cutStatus, *]

theorem cut_ends (left : List UInt8) : ¬ Ends (cutStatus (waitingStatus left)).1 := by
  rw [waitingStatus, Ends]
  split <;> simp [cutStatus]

theorem cut_back (left : List UInt8) : (cutStatus (waitingStatus left)).2 = .lastSegment := by
  rw [waitingStatus]
  split <;> rfl

/-- A segment cut at its end keeps the status it had. -/
theorem wholeStatus_cut (left : List UInt8) :
    wholeStatus (cutStatus (waitingStatus left)).1 = waitingStatus left := by
  rw [waitingStatus]
  split <;> rfl

/-- What the loop adds to the data field, given what was sent of the first unit. -/
structure Filled (left : List UInt8) (pending : List (List UInt8)) (dataField : List TxPdu)
    (rlcHeader : LteRlcHeader) (building : Building) (segments : List TxPdu) (continued : Bool) :
    Prop where
  dataField_eq : building.dataField = dataField ++ segments
  someSegment : segments ≠ []
  someByte : ∀ segment ∈ segments, segment.pdu ≠ []
  starts : ∀ segment ∈ segments.head?, (Starts segment.status ↔ left = [])
  ends : ∀ segment ∈ segments.getLast?, (Ends segment.status ↔ continued = false)
  header_eq : building.rlcHeader =
    rlcHeader.pushFields (segments.dropLast.map fun segment => segment.pdu.length)
  short : ∀ segment ∈ segments.dropLast, segment.pdu.length ≤ 2047
  queue : ∃ pending', Queue ((⟨segments.map TxPdu.pdu, false, continued⟩ : Chunk UInt8).leaves left)
      building.txBuffer pending' ∧
    pending = (⟨segments.map TxPdu.pdu, false, continued⟩ : Chunk UInt8).finished left ++ pending'

section Loop

variable {left : List UInt8} {first : TxPdu} {txBuffer : List TxPdu}
  {pending : List (List UInt8)} {dataField : List TxPdu} {rlcHeader : LteRlcHeader}

/-- The first segment is cut. -/
theorem filled_cut (queue : Queue left (first :: txBuffer) pending) {count : Nat}
    (hpos : 0 < count) (hcut : 0 < (first.pdu.drop count).length) (txBufferSize : UInt32) :
    Filled left pending dataField rlcHeader
      ⟨dataField ++ [⟨first.pdu.take count, (cutStatus first.status).1⟩],
        rlcHeader.pushExtensionBit LteRlcHeader.DATA_FIELD_FOLLOWS,
        ⟨first.pdu.drop count, (cutStatus first.status).2⟩ :: txBuffer, txBufferSize⟩
      [⟨first.pdu.take count, (cutStatus first.status).1⟩] true := by
  obtain ⟨hpending, hne, hstatus, htail⟩ := queue
  have htaken : first.pdu.take count ≠ [] := by
    intro hnil
    rcases List.take_eq_nil_iff.mp hnil with hzero | hnil
    · omega
    · exact hne hnil
  have hleft : left ++ first.pdu.take count ≠ [] := fun hnil =>
    htaken (List.append_eq_nil_iff.mp hnil).2
  refine ⟨rfl, List.cons_ne_nil _ _, ?_, ?_, ?_, rfl, ?_, pending, ⟨?_, ?_, ?_, htail⟩, rfl⟩
  · intro segment hmem
    rw [List.mem_singleton.mp hmem]
    exact htaken
  · rintro segment ⟨⟩
    rw [hstatus]
    exact cut_starts left
  · rintro segment ⟨⟩
    rw [hstatus]
    exact iff_of_false (cut_ends left) Bool.noConfusion
  · exact fun segment hmem => nomatch hmem
  · rw [hpending]
    simp only [Chunk.leaves, Chunk.joined, List.map_cons, List.map_nil, if_true,
      List.getLastD_cons, List.getLastD_nil, List.append_assoc, List.take_append_drop]
  · exact List.length_pos_iff.mp hcut
  · rw [hstatus, cut_back]
    simp only [Chunk.leaves, Chunk.joined, List.map_cons, List.map_nil, if_true,
      List.getLastD_cons, List.getLastD_nil, waitingStatus, if_neg hleft]

/-- The first segment is taken as it is, as the last one. -/
theorem filled_last (queue : Queue left (first :: txBuffer) pending) (txBufferSize : UInt32) :
    Filled left pending dataField rlcHeader
      ⟨dataField ++ [first], rlcHeader.pushExtensionBit LteRlcHeader.DATA_FIELD_FOLLOWS, txBuffer,
        txBufferSize⟩ [first] false := by
  have htail := queue.tail
  obtain ⟨hpending, hne, hstatus, -⟩ := queue
  refine ⟨rfl, List.cons_ne_nil _ _, ?_, ?_, ?_, rfl, ?_, txBuffer.map TxPdu.pdu, htail, hpending⟩
  · intro segment hmem
    rw [List.mem_singleton.mp hmem]
    exact hne
  · rintro segment ⟨⟩
    rw [hstatus]
    exact waitingStatus_starts left
  · rintro segment ⟨⟩
    show Ends first.status ↔ false = false
    rw [hstatus]
    exact iff_of_true (waitingStatus_ends left) rfl
  · exact fun segment hmem => nomatch hmem

/-- The branch of the loop for a segment that is cut or ends the data field. -/
theorem fill_cut (queue : Queue left (first :: txBuffer) pending) {size : Nat} (hsize : 0 < size)
    (txBufferSize : UInt32) :
    ∃ segments continued, Filled left pending dataField rlcHeader
      (if 0 < (first.pdu.drop (min first.pdu.length size)).length then
        ⟨dataField ++ [⟨first.pdu.take (min first.pdu.length size), (cutStatus first.status).1⟩],
          rlcHeader.pushExtensionBit LteRlcHeader.DATA_FIELD_FOLLOWS,
          ⟨first.pdu.drop (min first.pdu.length size), (cutStatus first.status).2⟩ :: txBuffer,
          txBufferSize + sizeOf (first.pdu.drop (min first.pdu.length size))⟩
      else
        ⟨dataField ++ [⟨first.pdu.take (min first.pdu.length size),
            wholeStatus (cutStatus first.status).1⟩],
          rlcHeader.pushExtensionBit LteRlcHeader.DATA_FIELD_FOLLOWS, txBuffer, txBufferSize⟩)
      segments continued := by
  have hpos : 0 < first.pdu.length := List.length_pos_iff.mpr queue.2.1
  split
  next hcut => exact ⟨_, true, filled_cut queue (by omega) hcut _⟩
  next hwhole =>
    have hall : first.pdu.take (min first.pdu.length size) = first.pdu := by
      rw [List.length_drop] at hwhole
      exact List.take_of_length_le (by omega)
    have hsame : (⟨first.pdu, wholeStatus (cutStatus first.status).1⟩ : TxPdu) = first := by
      rw [queue.2.2.1, wholeStatus_cut, ← queue.2.2.1]
    rw [hall, hsame]
    exact ⟨_, false, filled_last queue _⟩

/-- The first segment is taken as it is, and others follow. -/
theorem Filled.cons {building : Building} {segments : List TxPdu} {continued : Bool}
    (queue : Queue left (first :: txBuffer) pending) (hsmall : first.pdu.length ≤ 2047)
    (filled : Filled [] (txBuffer.map TxPdu.pdu) (dataField ++ [first])
      ((rlcHeader.pushExtensionBit LteRlcHeader.E_LI_FIELDS_FOLLOWS).pushLengthIndicator
        first.pdu.length) building segments continued) :
    Filled left pending dataField rlcHeader building (first :: segments) continued := by
  obtain ⟨hpending, hne, hstatus, -⟩ := queue
  obtain ⟨last, hlast⟩ : ∃ last, segments.getLast? = some last :=
    ⟨_, List.getLast?_eq_some_getLast filled.someSegment⟩
  have hdrop : (first :: segments).dropLast = first :: segments.dropLast :=
    List.dropLast_cons_of_ne_nil filled.someSegment
  have hmap : segments.map TxPdu.pdu ≠ [] := fun hnil =>
    filled.someSegment (List.map_eq_nil_iff.mp hnil)
  obtain ⟨hfinished, hleaves⟩ := Chunk.finished_cons left first.pdu hmap false false continued
  obtain ⟨pending', hqueue, hsplit⟩ := filled.queue
  refine ⟨?_, List.cons_ne_nil _ _, ?_, ?_, ?_, ?_, ?_, pending', ?_, ?_⟩
  · rw [filled.dataField_eq, List.append_assoc, List.singleton_append]
  · intro segment hmem
    rcases List.mem_cons.mp hmem with rfl | hmem
    · exact hne
    · exact filled.someByte segment hmem
  · rintro segment ⟨⟩
    rw [hstatus]
    exact waitingStatus_starts left
  · intro segment hmem
    apply filled.ends
    rwa [List.getLast?_cons, hlast, Option.getD_some, ← hlast] at hmem
  · rw [filled.header_eq, hdrop]
    rfl
  · rw [hdrop]
    intro segment hmem
    rcases List.mem_cons.mp hmem with rfl | hmem
    · exact hsmall
    · exact filled.short segment hmem
  · rw [List.map_cons, hleaves]
    exact hqueue
  · rw [List.map_cons, hfinished, hpending, List.cons_append, hsplit]

end Loop

/-- The loop moves segments from the buffer to the data field. -/
theorem fillDataField_filled (txBuffer : List TxPdu) :
    ∀ {left : List UInt8} {first : TxPdu} {pending : List (List UInt8)} {size : Nat}
      (id : Nat) (dataField : List TxPdu) (rlcHeader : LteRlcHeader) (txBufferSize : UInt32),
      Queue left (first :: txBuffer) pending → 0 < size →
      ∃ segments continued, Filled left pending dataField rlcHeader
        (fillDataField first txBuffer size id dataField rlcHeader txBufferSize) segments
        continued := by
  induction txBuffer with
  | nil =>
      intro left first pending size id dataField rlcHeader txBufferSize queue hsize
      have hne : first.pdu.length ≠ 0 := fun hzero => queue.2.1 (List.eq_nil_of_length_eq_zero hzero)
      rw [fillDataField]
      simp only [hne, Nat.ne_of_gt hsize, or_self, if_false]
      split
      · exact fill_cut queue hsize _
      · exact ⟨[first], false, filled_last queue _⟩
  | cons next txBuffer ih =>
      intro left first pending size id dataField rlcHeader txBufferSize queue hsize
      have hne : first.pdu.length ≠ 0 := fun hzero => queue.2.1 (List.eq_nil_of_length_eq_zero hzero)
      rw [fillDataField]
      simp only [hne, Nat.ne_of_gt hsize, or_self, if_false]
      split
      · exact fill_cut queue hsize _
      next hwhole =>
        split
        · exact ⟨[first], false, filled_last queue _⟩
        next hmore =>
          have hsize' : 0 < size - ((if id % 2 = 1 then 2 else 1) + first.pdu.length) := by
            split <;> omega
          obtain ⟨segments, continued, filled⟩ := ih (id + 1) (dataField ++ [first]) _
            (txBufferSize - sizeOf next.pdu) queue.tail hsize'
          exact ⟨first :: segments, continued, filled.cons queue (by omega)⟩

/-! ## Units and their chunks -/

/-- The framing information of a chunk. -/
def framingOf (chunk : Chunk UInt8) : Nat :=
  (if chunk.continues then LteRlcHeader.NO_FIRST_BYTE else LteRlcHeader.FIRST_BYTE) |||
    (if chunk.continued then LteRlcHeader.NO_LAST_BYTE else LteRlcHeader.LAST_BYTE)

/-- The unit with a number carries a chunk. -/
structure Carries (pdu : RlcPdu) (number : Nat) (chunk : Chunk UInt8) : Prop where
  header : pdu.rlcHeader = LteRlcHeader.ofSegments (framingOf chunk) (number % 1024)
    (chunk.pieces.dropLast.map List.length)
  packet : pdu.packet = chunk.pieces.flatten
  short : ∀ piece ∈ chunk.pieces.dropLast, piece.length ≤ 2047

theorem framingInfoOf_eq {first last : SduStatus} {chunk : Chunk UInt8}
    (hfirst : Starts first ↔ chunk.continues = false)
    (hlast : Ends last ↔ chunk.continued = false) :
    framingInfoOf first last &&& 0x03 = framingOf chunk := by
  rw [framingInfoOf, framingOf]
  have hstarts : (if first = .fullSdu ∨ first = .firstSegment then LteRlcHeader.FIRST_BYTE
      else LteRlcHeader.NO_FIRST_BYTE) =
      if chunk.continues then LteRlcHeader.NO_FIRST_BYTE else LteRlcHeader.FIRST_BYTE := by
    cases hcontinues : chunk.continues with
    | false => exact if_pos (hfirst.mpr hcontinues)
    | true =>
        exact if_neg fun hstart => Bool.noConfusion (hcontinues.symm.trans (hfirst.mp hstart))
  have hends : (if last = .fullSdu ∨ last = .lastSegment then LteRlcHeader.LAST_BYTE
      else LteRlcHeader.NO_LAST_BYTE) =
      if chunk.continued then LteRlcHeader.NO_LAST_BYTE else LteRlcHeader.LAST_BYTE := by
    cases hcontinued : chunk.continued with
    | false => exact if_pos (hlast.mpr hcontinued)
    | true =>
        exact if_neg fun hend => Bool.noConfusion (hcontinued.symm.trans (hlast.mp hend))
  rw [hstarts, hends]
  cases chunk.continues <;> cases chunk.continued <;> rfl

/-- One opportunity sends nothing, or a chunk that goes on where the last one ended. -/
theorem doNotifyTxOpportunity_spec {tx : UmTransmitter} {left : List UInt8}
    {pending : List (List UInt8)} (queue : Queue left tx.txBuffer pending) {number : Nat}
    (hnumber : tx.sequenceNumber = ⟨number % 1024, 0⟩) (bytes : Nat) :
    tx.doNotifyTxOpportunity bytes = some (tx, none) ∨
    ∃ next pdu chunk pending', tx.doNotifyTxOpportunity bytes = some (next, some pdu) ∧
      Carries pdu number chunk ∧ chunk.pieces ≠ [] ∧ (∀ piece ∈ chunk.pieces, piece ≠ []) ∧
      (chunk.continues = true ↔ left ≠ []) ∧ next.sequenceNumber = ⟨(number + 1) % 1024, 0⟩ ∧
      next.maxTxBufferSize = tx.maxTxBufferSize ∧
      Queue (chunk.leaves left) next.txBuffer pending' ∧ pending = chunk.finished left ++ pending' := by
  rw [doNotifyTxOpportunity]
  split
  · exact .inl rfl
  next hbytes =>
    cases hbuffer : tx.txBuffer with
    | nil => exact .inl rfl
    | cons firstSegment txBuffer =>
        rw [hbuffer] at queue
        obtain ⟨segments, continued, filled⟩ := fillDataField_filled txBuffer 1 [] {}
          (tx.txBufferSize - sizeOf firstSegment.pdu) queue (Nat.sub_pos_of_lt (not_le.mp hbytes))
        have hdata := filled.dataField_eq
        rw [List.nil_append] at hdata
        obtain ⟨first, hfirst⟩ : ∃ first, segments.head? = some first :=
          ⟨_, List.head?_eq_some_head filled.someSegment⟩
        obtain ⟨last, hlast⟩ : ∃ last, segments.getLast? = some last :=
          ⟨_, List.getLast?_eq_some_getLast filled.someSegment⟩
        obtain ⟨pending', hqueue, hsplit⟩ := filled.queue
        let chunk : Chunk UInt8 := ⟨segments.map TxPdu.pdu, decide (left ≠ []), continued⟩
        have hstarts : Starts first.status ↔ chunk.continues = false :=
          (filled.starts first hfirst).trans (by
            rw [show chunk.continues = decide (left ≠ []) from rfl, decide_eq_false_iff_not, not_not])
        have hends : Ends last.status ↔ chunk.continued = false := filled.ends last hlast
        let building := fillDataField firstSegment txBuffer (bytes - 2) 1 [] {}
          (tx.txBufferSize - sizeOf firstSegment.pdu)
        refine .inr ⟨{ tx with
            txBuffer := building.txBuffer
            txBufferSize := building.txBufferSize
            sequenceNumber := tx.sequenceNumber.next },
          { rlcHeader := (building.rlcHeader.setSequenceNumber tx.sequenceNumber.value).setFramingInfo
              (framingInfoOf first.status last.status)
            packet := (segments.map TxPdu.pdu).flatten },
          chunk, pending', ?_, ⟨?_, rfl, ?_⟩, ?_, ?_, decide_eq_true_iff, ?_, rfl, hqueue, hsplit⟩
        · simp only [hdata, hfirst, hlast]
          rfl
        · show (building.rlcHeader.setSequenceNumber tx.sequenceNumber.value).setFramingInfo _ = _
          have hlengths : chunk.pieces.dropLast.map List.length =
              segments.dropLast.map fun segment => segment.pdu.length := by
            rw [show chunk.pieces.dropLast = segments.dropLast.map TxPdu.pdu from
              List.map_dropLast.symm, List.map_map]
            rfl
          rw [filled.header_eq, hnumber, LteRlcHeader.pushFields_eq, framingInfoOf_eq hstarts hends,
            hlengths]
        · intro piece hpiece
          rw [show chunk.pieces.dropLast = segments.dropLast.map TxPdu.pdu from
            List.map_dropLast.symm] at hpiece
          obtain ⟨segment, hsegment, rfl⟩ := List.mem_map.mp hpiece
          exact filled.short segment hsegment
        · exact fun hnil => filled.someSegment (List.map_eq_nil_iff.mp hnil)
        · intro piece hpiece
          obtain ⟨segment, hsegment, rfl⟩ := List.mem_map.mp hpiece
          exact filled.someByte segment hsegment
        · show tx.sequenceNumber.next = _
          rw [hnumber, SequenceNumber10.next]
          simp only [Nat.mod_add_mod]

/-! ## Runs -/

/-- What a run sent and still holds is what it accepted. -/
structure Segmented (sending : Sending) (chunks : List (Chunk UInt8)) : Prop where
  numbered : sending.tx.sequenceNumber = ⟨chunks.length % 1024, 0⟩
  length_eq : sending.sent.length = chunks.length
  carries : ∀ number pdu chunk, sending.sent[number]? = some pdu → chunks[number]? = some chunk →
    Carries pdu number chunk
  consistent : Consistent chunks
  queue : ∃ pending, Queue (assemble [] chunks).2 sending.tx.txBuffer pending ∧
    sending.accepted = (assemble [] chunks).1 ++ pending

/-- Every unit handed to the entity has a byte. -/
def NonEmpty (events : List TxEvent) : Prop := ∀ sdu, .pdcpPdu sdu ∈ events → sdu ≠ []

theorem Queue.snoc {left : List UInt8} {txBuffer : List TxPdu} {pending : List (List UInt8)}
    {sdu : List UInt8} (queue : Queue left txBuffer pending) (hsdu : sdu ≠ []) :
    Queue left (txBuffer ++ [⟨sdu, .fullSdu⟩]) (pending ++ [sdu]) := by
  cases txBuffer with
  | nil =>
      obtain ⟨rfl, rfl⟩ := queue
      exact ⟨rfl, hsdu, rfl, fun _ hmem => nomatch hmem⟩
  | cons head tail =>
      obtain ⟨rfl, hne, hstatus, htail⟩ := queue
      refine ⟨?_, hne, hstatus, ?_⟩
      · show (left ++ head.pdu) :: tail.map TxPdu.pdu ++ [sdu] =
          (left ++ head.pdu) :: (tail ++ [(⟨sdu, .fullSdu⟩ : TxPdu)]).map TxPdu.pdu
        rw [List.map_append]
        rfl
      · intro other hmem
        rcases List.mem_append.mp hmem with hmem | hmem
        · exact htail other hmem
        · rw [List.mem_singleton.mp hmem]
          exact ⟨hsdu, rfl⟩

theorem Segmented.snoc {sending : Sending} {chunks : List (Chunk UInt8)} {tx : UmTransmitter}
    {pdu : RlcPdu} {chunk : Chunk UInt8} {pending' : List (List UInt8)}
    (segmented : Segmented sending chunks) (hcarries : Carries pdu chunks.length chunk)
    (hpieces : chunk.pieces ≠ []) (hbytes : ∀ piece ∈ chunk.pieces, piece ≠ [])
    (hcontinues : chunk.continues = true ↔ (assemble [] chunks).2 ≠ [])
    (hnumber : tx.sequenceNumber = ⟨(chunks.length + 1) % 1024, 0⟩)
    (hqueue : Queue (chunk.leaves (assemble [] chunks).2) tx.txBuffer pending')
    (haccepted : sending.accepted =
      (assemble [] chunks).1 ++ (chunk.finished (assemble [] chunks).2 ++ pending')) :
    Segmented { sending with tx := tx, sent := sending.sent ++ [pdu] } (chunks ++ [chunk]) where
  numbered := by
    rw [List.length_append, List.length_singleton]
    exact hnumber
  length_eq := by
    rw [List.length_append, List.length_append, segmented.length_eq]
    rfl
  carries := by
    intro number other otherChunk hpdu hchunk
    rcases Nat.lt_or_ge number chunks.length with hlt | hge
    · rw [List.getElem?_append_left hlt] at hchunk
      rw [List.getElem?_append_left (segmented.length_eq ▸ hlt)] at hpdu
      exact segmented.carries number other otherChunk hpdu hchunk
    · obtain hlast | hlater := Nat.eq_or_lt_of_le hge
      · rw [← hlast, List.getElem?_concat_length] at hchunk
        rw [← hlast, ← segmented.length_eq, List.getElem?_concat_length] at hpdu
        obtain rfl := Option.some.inj hchunk
        obtain rfl := Option.some.inj hpdu
        rw [← hlast]
        exact hcarries
      · rw [List.getElem?_eq_none (by rw [List.length_append, List.length_singleton]; omega)]
          at hchunk
        cases hchunk
  consistent := segmented.consistent.snoc hpieces hbytes hcontinues
  queue := by
    rw [assemble_snoc]
    refine ⟨pending', hqueue, ?_⟩
    rw [List.append_assoc]
    exact haccepted

theorem notifyTxOpportunity_eq {path : Path} (allowed : path.Allowed) (tx : UmTransmitter)
    (bytes : Nat) : notifyTxOpportunity path tx bytes = tx.doNotifyTxOpportunity bytes := by
  cases path with
  | lte => rfl
  | nrSl stch srcL2Id dstL2Id =>
      refine if_neg ?_
      rintro ⟨hid, hstch⟩
      rcases allowed.1 with hzero | htrue
      · exact hid hzero
      · rw [hstch] at htrue
        cases htrue

/-- One event is always possible and keeps what is sent and held the accepted units. -/
theorem Segmented.step {path : Path} (allowed : path.Allowed) {sending : Sending}
    {chunks : List (Chunk UInt8)} (segmented : Segmented sending chunks) {event : TxEvent}
    (hevent : ∀ sdu, event = .pdcpPdu sdu → sdu ≠ []) :
    ∃ next more, sending.step path event = some next ∧ Segmented next (chunks ++ more) := by
  obtain ⟨pending, hqueue, haccepted⟩ := segmented.queue
  cases event with
  | pdcpPdu sdu =>
      refine ⟨_, [], rfl, ?_⟩
      rw [List.append_nil]
      rw [doTransmitPdcpPdu]
      split
      next haccepts =>
        refine ⟨segmented.numbered, segmented.length_eq, segmented.carries, segmented.consistent,
          pending ++ [sdu], hqueue.snoc (hevent sdu rfl), ?_⟩
        rw [haccepted, List.append_assoc]
      next => exact segmented
  | opportunity bytes =>
      rcases doNotifyTxOpportunity_spec hqueue segmented.numbered bytes with hnone |
        ⟨tx, pdu, chunk, pending', hsome, hcarries, hpieces, hbytes, hcontinues, hnumber, -,
          hqueue', hsplit⟩
      · refine ⟨sending, [], ?_, ?_⟩
        · rw [Sending.step, notifyTxOpportunity_eq allowed, hnone, Option.map_some, Option.toList_none, List.append_nil]
        · rw [List.append_nil]
          exact segmented
      · refine ⟨{ sending with tx := tx, sent := sending.sent ++ [pdu] }, [chunk], ?_, segmented.snoc hcarries hpieces hbytes hcontinues hnumber hqueue' ?_⟩
        · rw [Sending.step, notifyTxOpportunity_eq allowed, hsome, Option.map_some]
          rfl
        · rw [haccepted, hsplit]

theorem Segmented.run {path : Path} (allowed : path.Allowed) {events : List TxEvent}
    {sending : Sending} {chunks : List (Chunk UInt8)} (segmented : Segmented sending chunks)
    (hnonempty : NonEmpty events) :
    ∃ final others, sending.run path events = some final ∧ Segmented final others := by
  have hfitting := fitting_of_forall (Sending.step path)
    (fun event hmem (_ : Sending) sdu (hsdu : event = .pdcpPdu sdu) =>
      hnonempty sdu (hsdu ▸ hmem)) sending
  obtain ⟨final, hrun, others, hfinal⟩ := exists_run_of_fitting (Sending.step path)
    (fun state => ∃ others, Segmented state others)
    (fun state event hinvariant hevent => by
      obtain ⟨others, hsegmented⟩ := hinvariant
      obtain ⟨next, more, hstep, hnext⟩ := hsegmented.step allowed hevent
      exact ⟨next, hstep, others ++ more, hnext⟩) ⟨chunks, segmented⟩ hfitting
  exact ⟨final, others, hrun, hfinal⟩

/-- A run of a new entity. -/
def start (maxTxBufferSize : UInt32) : Sending := ⟨{ maxTxBufferSize := maxTxBufferSize }, [], []⟩

theorem start_segmented (maxTxBufferSize : UInt32) : Segmented (start maxTxBufferSize) [] where
  numbered := rfl
  length_eq := rfl
  carries := fun _ _ _ hpdu _ => nomatch hpdu
  consistent := Consistent.nil
  queue := ⟨[], ⟨rfl, rfl⟩, rfl⟩

end UmTransmitter

end DeepcV2x.Rlc
