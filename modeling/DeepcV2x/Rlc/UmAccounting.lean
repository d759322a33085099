import DeepcV2x.Rlc.HeaderRoundTrip

/-!
# Accounting of the transmission buffer

The loop that fills a data field spends the opportunity on the fields of the
header and the bytes of the segments, and moves bytes from the buffer to the
data field.  The counter of the buffer is their number, modulo a word.
-/

namespace DeepcV2x.Rlc

open Foundation.Runs
open LteRlcHeader (fieldsLength)

namespace UmTransmitter

/-- The bytes of some packets, one behind the other. -/
def bytesOf (txBuffer : List TxPdu) : List UInt8 := (txBuffer.map TxPdu.pdu).flatten

@[simp]
theorem bytesOf_nil : bytesOf [] = [] := rfl

@[simp]
theorem bytesOf_cons (first : TxPdu) (txBuffer : List TxPdu) :
    bytesOf (first :: txBuffer) = first.pdu ++ bytesOf txBuffer := rfl

@[simp]
theorem bytesOf_append (txBuffer others : List TxPdu) :
    bytesOf (txBuffer ++ others) = bytesOf txBuffer ++ bytesOf others := by
  rw [bytesOf, List.map_append, List.flatten_append, ← bytesOf, ← bytesOf]

/-- What the loop did with a data field, the bytes that were not in it, and an opportunity. -/
structure Spent (dataField : List TxPdu) (waiting : List UInt8) (size : Nat) (building : Building) :
    Prop where
  bytes : bytesOf building.dataField ++ bytesOf building.txBuffer = bytesOf dataField ++ waiting
  counter : building.txBufferSize = UInt32.ofNat (bytesOf building.txBuffer).length
  budget : fieldsLength (building.dataField.length - 1) + (bytesOf building.dataField).length ≤
    fieldsLength dataField.length + (bytesOf dataField).length + size

theorem sizeOf_add (front back : List UInt8) :
    sizeOf (front ++ back) = sizeOf front + sizeOf back := by
  rw [sizeOf, sizeOf, sizeOf, List.length_append, UInt32.ofNat_add]

section Loop

variable {first next : TxPdu} {txBuffer : List TxPdu} {dataField : List TxPdu}
  {rlcHeader : LteRlcHeader} {txBufferSize : UInt32} {size : Nat}

/-- The first segment is taken as it is, as the last one. -/
theorem spent_last (hcounter : txBufferSize = sizeOf (bytesOf txBuffer)) (hsize : first.pdu.length ≤ size) :
    Spent dataField (first.pdu ++ bytesOf txBuffer) size
      ⟨dataField ++ [first], rlcHeader, txBuffer, txBufferSize⟩ where
  bytes := by simp
  counter := hcounter
  budget := by
    rw [List.length_append, List.length_singleton, Nat.add_sub_cancel, bytesOf_append,
      List.length_append, bytesOf_cons, bytesOf_nil, List.append_nil]
    omega

/-- The first segment is cut, and the rest of it given back. -/
theorem spent_cut (hcounter : txBufferSize = sizeOf (bytesOf txBuffer)) {count : Nat}
    (hcount : count ≤ size) (status back : SduStatus) :
    Spent dataField (first.pdu ++ bytesOf txBuffer) size
      ⟨dataField ++ [⟨first.pdu.take count, status⟩], rlcHeader,
        ⟨first.pdu.drop count, back⟩ :: txBuffer,
        txBufferSize + sizeOf (first.pdu.drop count)⟩ where
  bytes := by
    simp only [bytesOf_append, bytesOf_cons, bytesOf_nil, List.append_nil, List.append_assoc]
    rw [← List.append_assoc (first.pdu.take count), List.take_append_drop]
  counter := by
    show _ = sizeOf (bytesOf (⟨first.pdu.drop count, back⟩ :: txBuffer))
    rw [bytesOf_cons, sizeOf_add, hcounter, UInt32.add_comm]
  budget := by
    rw [List.length_append, List.length_singleton, Nat.add_sub_cancel, bytesOf_append,
      List.length_append, bytesOf_cons, bytesOf_nil, List.append_nil, List.length_take]
    omega

/-- The branch of the loop for a segment that is cut or ends the data field. -/
theorem spent_end (hcounter : txBufferSize = sizeOf (bytesOf txBuffer)) (status whole back : SduStatus) :
    Spent dataField (first.pdu ++ bytesOf txBuffer) size
      (if 0 < (first.pdu.drop (min first.pdu.length size)).length then
        ⟨dataField ++ [⟨first.pdu.take (min first.pdu.length size), status⟩], rlcHeader,
          ⟨first.pdu.drop (min first.pdu.length size), back⟩ :: txBuffer,
          txBufferSize + sizeOf (first.pdu.drop (min first.pdu.length size))⟩
      else
        ⟨dataField ++ [⟨first.pdu.take (min first.pdu.length size), whole⟩], rlcHeader, txBuffer,
          txBufferSize⟩) := by
  split
  next => exact spent_cut hcounter (Nat.min_le_right _ _) status back
  next hwhole =>
    rw [List.length_drop] at hwhole
    have htake : first.pdu.take (min first.pdu.length size) = first.pdu :=
      List.take_of_length_le (by omega)
    rw [htake]
    exact @spent_last ⟨first.pdu, whole⟩ txBuffer dataField rlcHeader txBufferSize size hcounter
      (by show first.pdu.length ≤ size; omega)

/-- The first segment is taken as it is, and its length indicator is paid for. -/
theorem Spent.cons {building : Building} (hsize : first.pdu.length + 2 < size)
    (spent : Spent (dataField ++ [first]) (next.pdu ++ bytesOf txBuffer)
      (size - ((if (dataField.length + 1) % 2 = 1 then 2 else 1) + first.pdu.length)) building) :
    Spent dataField (first.pdu ++ bytesOf (next :: txBuffer)) size building where
  bytes := by
    rw [spent.bytes]
    simp
  counter := spent.counter
  budget := by
    refine Nat.le_trans spent.budget ?_
    rw [List.length_append, List.length_singleton, bytesOf_append, List.length_append, bytesOf_cons,
      bytesOf_nil, List.append_nil, fieldsLength, fieldsLength]
    split <;> omega

end Loop

/-- The loop spends an opportunity. -/
theorem fillDataField_spent (txBuffer : List TxPdu) :
    ∀ {first : TxPdu} {size : Nat} (dataField : List TxPdu) (rlcHeader : LteRlcHeader)
      {txBufferSize : UInt32}, first.pdu ≠ [] → (∀ sdu ∈ txBuffer, sdu.pdu ≠ []) → 0 < size →
      txBufferSize = sizeOf (bytesOf txBuffer) →
      Spent dataField (first.pdu ++ bytesOf txBuffer) size
        (fillDataField first txBuffer size (dataField.length + 1) dataField rlcHeader
          txBufferSize) := by
  induction txBuffer with
  | nil =>
      intro first size dataField rlcHeader txBufferSize hne hsome hsize hcounter
      have hlength : first.pdu.length ≠ 0 := fun hzero => hne (List.eq_nil_of_length_eq_zero hzero)
      rw [fillDataField]
      simp only [hlength, Nat.ne_of_gt hsize, or_self, if_false]
      split
      · exact spent_end hcounter _ _ _
      next hwhole => exact spent_last hcounter (by omega)
  | cons next txBuffer ih =>
      intro first size dataField rlcHeader txBufferSize hne hsome hsize hcounter
      have hlength : first.pdu.length ≠ 0 := fun hzero => hne (List.eq_nil_of_length_eq_zero hzero)
      obtain ⟨hnext, hothers⟩ := List.forall_mem_cons.mp hsome
      rw [fillDataField]
      simp only [hlength, Nat.ne_of_gt hsize, or_self, if_false]
      split
      · exact spent_end hcounter _ _ _
      next hwhole =>
        split
        next => exact spent_last hcounter (by omega)
        next hmore =>
          have hrest : 0 < size -
              ((if (dataField.length + 1) % 2 = 1 then 2 else 1) + first.pdu.length) := by
            split <;> omega
          have htaken : txBufferSize - sizeOf next.pdu = sizeOf (bytesOf txBuffer) := by
            rw [hcounter, bytesOf_cons, sizeOf_add, UInt32.add_comm, UInt32.add_sub_cancel]
          have hloop := @ih next _ (dataField ++ [first])
            ((rlcHeader.pushExtensionBit LteRlcHeader.E_LI_FIELDS_FOLLOWS).pushLengthIndicator
              first.pdu.length) _ hnext hothers hrest htaken
          rw [List.length_append, List.length_singleton] at hloop
          exact Spent.cons (by omega) hloop

/-! ## Opportunities -/

/-- Pending units with their statuses, and a counter that is the number of their bytes modulo a
word. -/
structure Buffered (tx : UmTransmitter) : Prop where
  counter : tx.txBufferSize = sizeOf (bytesOf tx.txBuffer)
  queue : ∃ left pending, Queue left tx.txBuffer pending

/-- What an opportunity of some bytes sends fits in it, and is taken from the front of the buffer. -/
structure Sends (tx : UmTransmitter) (bytes : Nat) (next : UmTransmitter) (pdu : Option RlcPdu) :
    Prop where
  fits : ∀ sent ∈ pdu, sent.wire.length ≤ bytes
  moved : (pdu.toList.map RlcPdu.packet).flatten ++ bytesOf next.txBuffer = bytesOf tx.txBuffer
  buffered : Buffered next
  maxTxBufferSize : next.maxTxBufferSize = tx.maxTxBufferSize

theorem Queue.someBytes {left : List UInt8} {first : TxPdu} {txBuffer : List TxPdu}
    {pending : List (List UInt8)} (queue : Queue left (first :: txBuffer) pending) :
    first.pdu ≠ [] ∧ ∀ sdu ∈ txBuffer, sdu.pdu ≠ [] :=
  ⟨queue.2.1, fun sdu hmem => (queue.2.2.2 sdu hmem).1⟩

theorem sends_nothing {tx : UmTransmitter} (buffered : Buffered tx) (bytes : Nat) :
    Sends tx bytes tx none where
  fits := fun _ hmem => nomatch hmem
  moved := rfl
  buffered := buffered
  maxTxBufferSize := rfl

/-- An opportunity is always possible, and sends no more than its bytes. -/
theorem doNotifyTxOpportunity_sends {tx : UmTransmitter} (buffered : Buffered tx) (bytes : Nat) :
    ∃ next pdu, tx.doNotifyTxOpportunity bytes = some (next, pdu) ∧ Sends tx bytes next pdu := by
  obtain ⟨left, pending, queue⟩ := buffered.queue
  rw [doNotifyTxOpportunity]
  split
  · exact ⟨tx, none, rfl, sends_nothing buffered bytes⟩
  next hbytes =>
    cases hbuffer : tx.txBuffer with
    | nil => exact ⟨tx, none, rfl, sends_nothing buffered bytes⟩
    | cons firstSegment txBuffer =>
        rw [hbuffer] at queue
        have hcounter : tx.txBufferSize - sizeOf firstSegment.pdu = sizeOf (bytesOf txBuffer) := by
          rw [buffered.counter, hbuffer, bytesOf_cons, sizeOf_add, UInt32.add_comm,
            UInt32.add_sub_cancel]
        have hsize : 0 < bytes - 2 := Nat.sub_pos_of_lt (not_le.mp hbytes)
        obtain ⟨segments, continued, filled⟩ := fillDataField_filled txBuffer 1 [] {}
          (tx.txBufferSize - sizeOf firstSegment.pdu) queue hsize
        have spent := fillDataField_spent txBuffer [] {} queue.someBytes.1 queue.someBytes.2 hsize
          hcounter
        rw [List.length_nil, Nat.zero_add] at spent
        have hdata := filled.dataField_eq
        rw [List.nil_append] at hdata
        obtain ⟨first, hfirst⟩ : ∃ first, segments.head? = some first :=
          ⟨_, List.head?_eq_some_head filled.someSegment⟩
        obtain ⟨last, hlast⟩ : ∃ last, segments.getLast? = some last :=
          ⟨_, List.getLast?_eq_some_getLast filled.someSegment⟩
        obtain ⟨pending', hqueue, -⟩ := filled.queue
        let building := fillDataField firstSegment txBuffer (bytes - 2) 1 [] {}
          (tx.txBufferSize - sizeOf firstSegment.pdu)
        refine ⟨{ tx with
            txBuffer := building.txBuffer
            txBufferSize := building.txBufferSize
            sequenceNumber := tx.sequenceNumber.next },
          some
            { rlcHeader :=
                (building.rlcHeader.setSequenceNumber tx.sequenceNumber.value).setFramingInfo
                  (framingInfoOf first.status last.status)
              packet := bytesOf segments },
          ?_, ?_, ?_, ⟨spent.counter, _, pending', hqueue⟩, rfl⟩
        · simp only [hdata, hfirst, hlast]
          rfl
        · rintro sent ⟨⟩
          have hshort : ∀ lengthIndicator ∈
              segments.dropLast.map fun segment => segment.pdu.length, lengthIndicator < 2048 := by
            intro lengthIndicator hmem
            obtain ⟨segment, hsegment, rfl⟩ := List.mem_map.mp hmem
            exact Nat.lt_succ_of_le (filled.short segment hsegment)
          have hbudget := spent.budget
          rw [hdata, List.length_nil, bytesOf_nil, List.length_nil, fieldsLength,
            fieldsLength] at hbudget
          rw [RlcPdu.wire, List.length_append, filled.header_eq, LteRlcHeader.pushFields_eq,
            LteRlcHeader.ofSegments_serialize_length _ _ hshort, List.length_map,
            List.length_dropLast, fieldsLength]
          show _ + (bytesOf segments).length ≤ bytes
          omega
        · have hbytes := spent.bytes
          rw [hdata, bytesOf_nil, List.nil_append] at hbytes
          rw [hbuffer, bytesOf_cons, ← hbytes]
          simp only [Option.toList_some, List.map_cons, List.map_nil, List.flatten_cons,
            List.flatten_nil, List.append_nil, building]

/-! ## Accounting -/

/-- What the counter, the limit and the bytes of a run are, and that every opportunity it may get
next is not exceeded. -/
structure Sending.Accounted (path : Path) (sending : Sending) : Prop where
  counter : sending.tx.txBufferSize.toNat = (bytesOf sending.tx.txBuffer).length
  limit : sending.tx.maxTxBufferSize ≠ 0 → sending.tx.txBufferSize ≤ sending.tx.maxTxBufferSize
  bytes : (sending.sent.map RlcPdu.packet).flatten ++ bytesOf sending.tx.txBuffer =
    sending.accepted.flatten
  opportunities : ∀ bytes, ∃ result, notifyTxOpportunity path sending.tx bytes = some result ∧
    ∀ pdu ∈ result.2, pdu.wire.length ≤ bytes

/-- A unit that is taken does not make the counter wrap. -/
def NoWrap (sending : Sending) : TxEvent → Prop
  | .pdcpPdu sdu =>
      sending.tx.Accepts sdu → sending.tx.txBufferSize.toNat + sdu.length < 4294967296
  | .opportunity _ => True

/-- What holds whether or not the counter wraps. -/
structure Sending.Kept (sending : Sending) : Prop where
  buffered : Buffered sending.tx
  bytes : (sending.sent.map RlcPdu.packet).flatten ++ bytesOf sending.tx.txBuffer =
    sending.accepted.flatten

/-- The counter and the limit decide on the rest. -/
theorem Sending.accounted_iff {path : Path} (allowed : path.Allowed) {sending : Sending}
    (kept : sending.Kept) : sending.Accounted path ↔
      sending.tx.txBufferSize.toNat = (bytesOf sending.tx.txBuffer).length ∧
      (sending.tx.maxTxBufferSize ≠ 0 →
        sending.tx.txBufferSize ≤ sending.tx.maxTxBufferSize) := by
  constructor
  · exact fun accounted => ⟨accounted.counter, accounted.limit⟩
  · rintro ⟨hcounter, hlimit⟩
    refine ⟨hcounter, hlimit, kept.bytes, fun bytes => ?_⟩
    obtain ⟨next, pdu, hnotify, sends⟩ := doNotifyTxOpportunity_sends kept.buffered bytes
    exact ⟨(next, pdu), (notifyTxOpportunity_eq allowed _ _).trans hnotify, sends.fits⟩

/-! ## Steps -/

theorem toNat_sizeOf (packet : List UInt8) : (sizeOf packet).toNat = packet.length % 4294967296 :=
  UInt32.toNat_ofNat'

/-- A unit that is taken is counted exactly when the counter does not wrap. -/
theorem Sending.step_pdcpPdu {path : Path} (allowed : path.Allowed) {sending : Sending}
    (kept : sending.Kept) (accounted : sending.Accounted path) {sdu : List UInt8} (hsdu : sdu ≠ []) :
    ∃ next, sending.step path (.pdcpPdu sdu) = some next ∧ next.Kept ∧
      (next.Accounted path ↔ NoWrap sending (.pdcpPdu sdu)) := by
  obtain ⟨left, pending, hqueue⟩ := kept.buffered.queue
  by_cases haccepts : sending.tx.Accepts sdu
  · have hbytes : bytesOf (sending.tx.txBuffer ++ [⟨sdu, .fullSdu⟩]) =
        bytesOf sending.tx.txBuffer ++ sdu := by
      rw [bytesOf_append, bytesOf_cons, bytesOf_nil, List.append_nil]
    have hkept : Sending.Kept { sending with
        tx := { sending.tx with
          txBuffer := sending.tx.txBuffer ++ [⟨sdu, .fullSdu⟩]
          txBufferSize := sending.tx.txBufferSize + sizeOf sdu }
        accepted := sending.accepted ++ [sdu] } := by
      refine ⟨⟨?_, left, pending ++ [sdu], hqueue.snoc hsdu⟩, ?_⟩
      · rw [hbytes, sizeOf_add, ← kept.buffered.counter]
      · rw [hbytes, ← List.append_assoc, kept.bytes, List.flatten_append, List.flatten_singleton]
    refine ⟨_, ?_, hkept, ?_⟩
    · rw [Sending.step, doTransmitPdcpPdu, if_pos haccepts, if_pos haccepts]
    · rw [Sending.accounted_iff allowed hkept, NoWrap]
      have hcounter : (sending.tx.txBufferSize + sizeOf sdu).toNat =
          (sending.tx.txBufferSize.toNat + sdu.length) % 4294967296 := by
        rw [UInt32.toNat_add, toNat_sizeOf, Nat.add_mod_mod]
      have hlength : (bytesOf (sending.tx.txBuffer ++ [⟨sdu, .fullSdu⟩])).length =
          sending.tx.txBufferSize.toNat + sdu.length := by
        rw [hbytes, List.length_append, accounted.counter]
      rw [hcounter, hlength]
      constructor
      · rintro ⟨hsame, -⟩ -
        rw [← hsame]
        exact Nat.mod_lt _ (by decide)
      · exact fun hfits => ⟨Nat.mod_eq_of_lt (hfits haccepts), fun _ => haccepts⟩
  · refine ⟨sending, ?_, kept, iff_of_true accounted fun htaken => absurd htaken haccepts⟩
    rw [Sending.step, doTransmitPdcpPdu, if_neg haccepts, if_neg haccepts]

/-- An opportunity leaves the counter right. -/
theorem Sending.step_opportunity {path : Path} (allowed : path.Allowed) {sending : Sending}
    (kept : sending.Kept) (accounted : sending.Accounted path) (bytes : Nat) :
    ∃ next, sending.step path (.opportunity bytes) = some next ∧ next.Kept ∧
      next.Accounted path := by
  obtain ⟨tx, pdu, hnotify, sends⟩ := doNotifyTxOpportunity_sends kept.buffered bytes
  have hkept : Sending.Kept { sending with tx := tx, sent := sending.sent ++ pdu.toList } := by
    refine ⟨sends.buffered, ?_⟩
    rw [← kept.bytes, ← sends.moved, List.map_append, List.flatten_append, List.append_assoc]
  refine ⟨_, ?_, hkept, (Sending.accounted_iff allowed hkept).mpr ?_⟩
  · rw [Sending.step, notifyTxOpportunity_eq allowed, hnotify, Option.map_some]
  · have hfewer : (bytesOf tx.txBuffer).length ≤ sending.tx.txBufferSize.toNat := by
      rw [accounted.counter, ← sends.moved, List.length_append]
      exact Nat.le_add_left _ _
    have hcounter : tx.txBufferSize.toNat = (bytesOf tx.txBuffer).length := by
      rw [sends.buffered.counter, toNat_sizeOf]
      exact Nat.mod_eq_of_lt (Nat.lt_of_le_of_lt hfewer sending.tx.txBufferSize.toNat_lt)
    refine ⟨hcounter, fun hlimited => ?_⟩
    rw [show tx.maxTxBufferSize = sending.tx.maxTxBufferSize from sends.maxTxBufferSize] at hlimited ⊢
    rw [UInt32.le_iff_toNat_le, hcounter]
    exact Nat.le_trans hfewer (UInt32.le_iff_toNat_le.mp (accounted.limit hlimited))

/-- Two units, the first of which is cut in an opportunity of four bytes. -/
def twoUnits : List TxEvent := [.pdcpPdu [1, 2, 3], .opportunity 4, .pdcpPdu [4], .opportunity 100]

/-- A run that took a unit of five bytes and one more. -/
def tookFive (huge : List UInt8) : Sending where
  tx :=
    { maxTxBufferSize := 10240
      txBufferSize := 5 + sizeOf huge
      txBuffer := [⟨[1, 2, 3, 4, 5], .fullSdu⟩, ⟨huge, .fullSdu⟩] }
  accepted := [[1, 2, 3, 4, 5], huge]
  sent := []

end UmTransmitter

end DeepcV2x.Rlc
