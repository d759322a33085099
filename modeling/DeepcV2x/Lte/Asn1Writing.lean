import DeepcV2x.Foundation.BitOctets
import DeepcV2x.Lte.Asn1Header

/-!
# The bits that are written

A header holds a string of bits: those of its octets, and less than eight that
are pending.  Every bit set is put behind them, at whatever position it starts,
and at the end the last octet is filled with zeros.
-/

namespace DeepcV2x.Lte.Asn1Header

open Foundation.BitOctets

/-- The bits of a bit set, the most significant one first. -/
def bitsetBits {N : Nat} (data : BitVec N) : List Bool := descending data.getLsbD N

/-- The bits of the octets and the pending ones. -/
def Holds (header : Asn1Header) (bits : List Bool) : Prop :=
  ∃ part, bits = bitsOf header.serializationResult ++ part ∧ part.length < 8 ∧
    header.numSerializationPendingBits = UInt8.ofNat part.length ∧
      header.serializationPendingBits = octetOf part

/-- A fresh header holds nothing. -/
theorem holds_nil : Holds {} [] := ⟨[], rfl, by decide, rfl, rfl⟩

theorem ofNat_lt_eight {number : Nat} (hnumber : number < 256) :
    UInt8.ofNat number < 8 ↔ number < 8 := by
  rw [UInt8.lt_iff_toNat_lt, UInt8.toNat_ofNat_of_lt' hnumber]
  rfl

theorem pending_iff {part : List Bool} (hlength : part.length < 8) :
    UInt8.ofNat part.length > 0 ↔ part ≠ [] := by
  rw [gt_iff_lt, UInt8.lt_iff_toNat_lt, UInt8.toNat_ofNat_of_lt' (hlength.trans (by decide))]
  exact List.length_pos_iff

section Loops

variable {N : Nat} (data : BitVec N)

/-- The bits that complete an octet, and the ones that are left. -/
theorem completeOctet_eq (pendingBits : Nat) : ∀ (header : Asn1Header) (part : List Bool),
    part.length ≤ 8 → header.numSerializationPendingBits = UInt8.ofNat part.length →
    header.serializationPendingBits = octetOf part →
    ∃ taken left, completeOctet data header (mask part.length) pendingBits =
        ({ header with
            serializationPendingBits := octetOf (part ++ taken)
            numSerializationPendingBits := UInt8.ofNat (part ++ taken).length }, left) ∧
      descending data.getLsbD pendingBits = taken ++ descending data.getLsbD left ∧
        (part ++ taken).length ≤ 8 ∧ (left = 0 ∨ (part ++ taken).length = 8) := by
  induction pendingBits with
  | zero =>
      intro header part hlength hnum hbits
      refine ⟨[], 0, ?_, rfl, ?_, Or.inl rfl⟩
      · rw [completeOctet, List.append_nil, ← hnum, ← hbits]
      · rw [List.append_nil]
        exact hlength
  | succ pendingBits ih =>
      intro header part hlength hnum hbits
      rw [completeOctet]
      rcases Nat.lt_or_eq_of_le hlength with hless | hfull
      · have hnext : header.numSerializationPendingBits < 8 := by
          rw [hnum]
          exact (ofNat_lt_eight (by omega)).mpr hless
        obtain ⟨taken, left, hcomplete, hsplit, hle, hend⟩ := ih
          { header with
            serializationPendingBits := header.serializationPendingBits |||
              if data.getLsbD pendingBits then mask part.length else 0
            numSerializationPendingBits := header.numSerializationPendingBits + 1 }
          (part ++ [data.getLsbD pendingBits])
          (by rw [List.length_append, List.length_singleton]; omega)
          (by
            rw [List.length_append, List.length_singleton, UInt8.ofNat_add]
            exact congrArg (· + 1) hnum)
          (by
            rw [octetOf_append]
            exact congrArg (· ||| _) hbits)
        rw [if_pos hnext, mask_succ_and_not hlength]
        rw [List.length_append, List.length_singleton] at hcomplete
        refine ⟨data.getLsbD pendingBits :: taken, left, ?_, ?_, ?_, ?_⟩
        · rw [hcomplete, List.append_assoc]
          rfl
        · rw [descending, hsplit, List.cons_append]
        · rw [List.append_assoc] at hle
          exact hle
        · rw [List.append_assoc] at hend
          exact hend
      · have hnot : ¬ header.numSerializationPendingBits < 8 := by
          rw [hnum, hfull]
          decide
        rw [if_neg hnot]
        refine ⟨[], pendingBits + 1, ?_, rfl, ?_, Or.inr ?_⟩
        · rw [List.append_nil, ← hnum, ← hbits]
        · rw [List.append_nil]
          exact hlength
        · rw [List.append_nil]
          exact hfull

theorem remainingBits_eq (pendingBits : Nat) : ∀ (position : Nat) (bits : UInt8),
    position + pendingBits ≤ 8 →
    remainingBits data pendingBits (mask position) bits =
      bits ||| octetFrom position (descending data.getLsbD pendingBits) := by
  induction pendingBits with
  | zero => exact fun position bits _ => (UInt8.or_zero).symm
  | succ pendingBits ih =>
      intro position bits hle
      rw [remainingBits, mask_succ_and_not (by omega), ih _ _ (by omega), descending, octetFrom,
        UInt8.or_assoc]

theorem octetToWrite_eq (pendingBits : Nat) :
    octetToWrite data (pendingBits + 8) 8 1 0 =
      octetOf (descending (fun index => data.getLsbD (index + pendingBits)) 8) := by
  have hbits : ∀ first second third fourth fifth sixth seventh eighth : Bool,
      (0 : UInt8) ||| (if first then 1 else 0) ||| (if second then 2 else 0) |||
        (if third then 4 else 0) ||| (if fourth then 8 else 0) ||| (if fifth then 16 else 0) |||
          (if sixth then 32 else 0) ||| (if seventh then 64 else 0) |||
            (if eighth then 128 else 0) =
      octetOf [eighth, seventh, sixth, fifth, fourth, third, second, first] := by
    decide +kernel
  have hindex : ∀ j ≤ 8, pendingBits + 8 - j = 8 - j + pendingBits := by omega
  refine Eq.trans ?_ (hbits (data.getLsbD (0 + pendingBits)) (data.getLsbD (1 + pendingBits))
    (data.getLsbD (2 + pendingBits)) (data.getLsbD (3 + pendingBits))
    (data.getLsbD (4 + pendingBits)) (data.getLsbD (5 + pendingBits))
    (data.getLsbD (6 + pendingBits)) (data.getLsbD (7 + pendingBits)))
  simp only [octetToWrite, hindex, Nat.reduceLeDiff, Nat.reduceSub, Nat.reduceAdd]
  rfl

/-- Behind whole octets. -/
theorem holds_writeBits (pendingBits : Nat) : ∀ header : Asn1Header,
    header.numSerializationPendingBits = 0 → header.serializationPendingBits = 0 →
    Holds (writeBits data header pendingBits)
      (bitsOf header.serializationResult ++ descending data.getLsbD pendingBits) := by
  induction pendingBits using Nat.strong_induction_on with
  | _ pendingBits ih =>
      intro header hnum hbits
      rw [writeBits]
      split
      next hzero =>
        rw [hzero]
        exact ⟨[], rfl, by decide, hnum, hbits⟩
      next hpositive =>
        split
        next hless =>
          refine ⟨descending data.getLsbD pendingBits, rfl, ?_, ?_, ?_⟩
          · rw [length_descending]
            exact hless
          · rw [length_descending]
          · show remainingBits data pendingBits (mask 0) header.serializationPendingBits = _
            rw [remainingBits_eq data _ _ _ (by omega), hbits, UInt8.zero_or]
            rfl
        next hmany =>
          obtain ⟨left, rfl⟩ := Nat.exists_eq_add_of_le' (Nat.le_of_not_lt hmany)
          have hrest := ih left (by omega)
            (header.writeOctet (octetToWrite data (left + 8) 8 1 0)) hnum hbits
          rw [Nat.add_sub_cancel, Nat.add_comm left, descending_add, ← List.append_assoc]
          rw [writeOctet, octetToWrite_eq, bitsOf_append, bitsOf_cons, bitsOf_nil, List.append_nil,
            octetBits_octetOf (length_descending _ _)] at hrest
          rw [writeOctet, Nat.add_comm 8, octetToWrite_eq]
          exact hrest

end Loops

/-- A bit set is put behind what was written. -/
theorem holds_serializeBitset {N : Nat} (hN : N < 256) (data : BitVec N) {header : Asn1Header}
    {bits : List Bool} (holds : header.Holds bits) :
    Holds (serializeBitset data header) (bits ++ bitsetBits data) := by
  obtain ⟨part, rfl, hlength, hnum, hbits⟩ := holds
  rw [serializeBitset]
  split
  next hzero =>
    subst hzero
    exact ⟨part, List.append_nil _, hlength, hnum, hbits⟩
  next hpositive =>
    rw [if_pos (show N ≤ 65536 by omega), Nat.mod_eq_of_lt hN]
    split
    next hpending =>
      have hshift : (0x80 : UInt8) >>> header.numSerializationPendingBits = mask part.length := by
        rw [hnum]
        interval_cases part.length <;> rfl
      obtain ⟨taken, left, hcomplete, hsplit, hle, hend⟩ :=
        completeOctet_eq data N header part (Nat.le_of_lt hlength) hnum hbits
      rw [hshift, hcomplete, bitsetBits, hsplit, List.append_assoc, ← List.append_assoc part]
      show Holds (if UInt8.ofNat (part ++ taken).length ≥ 8 then _ else _) _
      rcases Nat.lt_or_eq_of_le hle with hless | hfull
      · have hleft : left = 0 := hend.resolve_right (Nat.ne_of_lt hless)
        have hnot : ¬ UInt8.ofNat (part ++ taken).length ≥ 8 :=
          UInt8.not_le.mpr ((ofNat_lt_eight (by omega)).mpr hless)
        rw [if_neg hnot, hleft, writeBits, if_pos rfl, descending, List.append_nil]
        exact ⟨part ++ taken, rfl, hless, rfl, rfl⟩
      · rw [hfull, if_pos (by decide)]
        have hrest := holds_writeBits data left
          { header with
            numSerializationPendingBits := 0, serializationPendingBits := 0
            serializationResult := header.serializationResult ++ [octetOf (part ++ taken)] } rfl rfl
        rw [bitsOf_append, bitsOf_cons, bitsOf_nil, List.append_nil, octetBits_octetOf hfull,
          List.append_assoc] at hrest
        exact hrest
    next hnone =>
      rw [hnum, pending_iff hlength, not_not] at hnone
      subst hnone
      rw [List.append_nil]
      exact holds_writeBits data N header hnum hbits

/-- The octet of the pending bits. -/
theorem serializationResult_serializeBitset_eight (octet : UInt8) {header : Asn1Header}
    (hnum : header.numSerializationPendingBits = 0) :
    (serializeBitset octet.toBitVec header).serializationResult =
      header.serializationResult ++ [octetOf (octetBits octet)] := by
  rw [serializeBitset, if_neg (by decide), if_pos (by decide), hnum, if_neg (by decide), writeBits,
    if_neg (by decide), if_neg (by decide), writeBits, if_pos rfl]
  exact congrArg (header.serializationResult ++ [·]) (octetToWrite_eq octet.toBitVec 0)

/-- At the end the last octet is filled with zeros. -/
theorem bitsOf_finalizeSerialization {header : Asn1Header} {bits : List Bool}
    (holds : header.Holds bits) :
    (finalizeSerialization header).serializationResult.length = (bits.length + 7) / 8 ∧
      ∃ zeros, bitsOf (finalizeSerialization header).serializationResult =
        bits ++ List.replicate zeros false := by
  obtain ⟨part, rfl, hlength, hnum, hbits⟩ := holds
  rw [List.length_append, length_bitsOf, finalizeSerialization]
  split
  next hpending =>
    rw [hnum, pending_iff hlength, ← List.length_pos_iff] at hpending
    have hpadded := octetBits_octetOf_padded (Nat.le_of_lt hlength)
    have hresult := @serializationResult_serializeBitset_eight header.serializationPendingBits
      { header with numSerializationPendingBits := 0 } rfl
    rw [hbits, hpadded, octetOf_append_zeros] at hresult
    rw [hbits]
    refine ⟨?_, 8 - part.length, ?_⟩
    · show (serializeBitset _ _).serializationResult.length = _
      rw [hresult, List.length_append, List.length_singleton]
      show header.serializationResult.length + 1 = _
      omega
    · show bitsOf (serializeBitset _ _).serializationResult = _
      rw [hresult, bitsOf_append, bitsOf_cons, bitsOf_nil, List.append_nil, hpadded,
        List.append_assoc]
  next hnone =>
    rw [hnum, pending_iff hlength, not_not] at hnone
    subst hnone
    refine ⟨?_, 0, ?_⟩
    · show header.serializationResult.length = _
      rw [List.length_nil]
      omega
    · rw [List.append_nil, List.replicate_zero, List.append_nil]

end DeepcV2x.Lte.Asn1Header
