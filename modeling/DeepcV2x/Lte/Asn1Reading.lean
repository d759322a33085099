import DeepcV2x.Lte.Asn1Writing

/-!
# The bits that are read

A reader offers its pending bits and those of the octets behind the iterator.
A bit set is read from the front of what is offered, at whatever position it
starts, and whatever it was before.
-/

namespace DeepcV2x.Lte.Asn1Header

open Foundation.BitOctets

/-- Less than eight pending bits, and the octets behind the iterator. -/
def Offers (state : Asn1Header × List UInt8) (bits : List Bool) : Prop :=
  state.1.numSerializationPendingBits.toNat < 8 ∧
    (octetBits state.1.serializationPendingBits).take state.1.numSerializationPendingBits.toNat ++
      bitsOf state.2 = bits

/-- A fresh header offers the octets. -/
theorem offers_fresh (octets : List UInt8) : Offers ({}, octets) (bitsOf octets) :=
  ⟨Nat.zero_lt_succ 7, rfl⟩

/-- Some bits at the front are read as a value. -/
def Reads {α : Type} (reader : Reader α) (bits : List Bool) (value : α) : Prop :=
  ∀ state rest, Offers state (bits ++ rest) →
    ∃ next, reader state = some (value, next) ∧ Offers next rest

section Rules

variable {α β : Type} {reader : Reader α} {next : α → Reader β} {value : α} {result : β}
  {bits after : List Bool}

theorem Reads.pure (value : α) : Reads (pure value) [] value :=
  fun state _ offers => ⟨state, rfl, offers⟩

theorem Reads.bind (hfirst : Reads reader bits value) (hnext : Reads (next value) after result) :
    Reads (reader >>= next) (bits ++ after) result := by
  intro state rest offers
  rw [List.append_assoc] at offers
  obtain ⟨middle, hread, hmiddle⟩ := hfirst state (after ++ rest) offers
  obtain ⟨last, hresult, hlast⟩ := hnext middle rest hmiddle
  refine ⟨last, ?_, hlast⟩
  show (reader state).bind _ = _
  rw [hread]
  exact hresult

theorem Reads.map (hfirst : Reads reader bits value) (function : α → β) :
    Reads (function <$> reader) bits (function value) := by
  intro state rest offers
  obtain ⟨last, hread, hlast⟩ := hfirst state rest offers
  refine ⟨last, ?_, hlast⟩
  show (reader state).bind _ = _
  rw [hread]
  rfl

end Rules

section Loops

variable {N : Nat} {data value : BitVec N}

/-- The bits from a position on are those of the value. -/
def AgreeFrom (data value : BitVec N) (position : Nat) : Prop :=
  ∀ index, position ≤ index → data.getLsbD index = value.getLsbD index

theorem getLsbD_setBit (data : BitVec N) {position : Nat} (hposition : position < N) (bit : Bool)
    (index : Nat) :
    (setBit data position bit).getLsbD index =
      if index = position then bit else data.getLsbD index := by
  rw [setBit]
  by_cases hsame : index = position
  · subst hsame
    cases bit <;> simp [hposition]
  · rw [if_neg hsame]
    rcases Nat.lt_or_ge index N with hindex | hindex
    · cases bit <;> simp [hsame, hindex]
    · rw [BitVec.getLsbD_of_ge _ _ hindex, BitVec.getLsbD_of_ge _ _ hindex]

theorem AgreeFrom.setBit {position : Nat} (hposition : position < N) {bit : Bool}
    (hbit : bit = value.getLsbD position) (agree : AgreeFrom data value (position + 1)) :
    AgreeFrom (setBit data position bit) value position := by
  intro index hindex
  rw [getLsbD_setBit data hposition]
  split
  next hsame => rw [hsame, hbit]
  next hother => exact agree index (by omega)

/-- Nothing is left of a bit set that agrees everywhere. -/
theorem AgreeFrom.eq (agree : AgreeFrom data value 0) : data = value :=
  BitVec.eq_of_getLsbD_eq fun index _ => agree index (Nat.zero_le _)

theorem readPending_agree (bitsToRead : Nat) : ∀ (data : BitVec N) (header : Asn1Header)
    (octets : List UInt8) (rest : List Bool), bitsToRead ≤ N →
    Offers (header, octets) (descending value.getLsbD bitsToRead ++ rest) →
    AgreeFrom data value bitsToRead →
    ∃ read last left, readPending data header bitsToRead = (read, last, left) ∧ left ≤ N ∧
      Offers (last, octets) (descending value.getLsbD left ++ rest) ∧
        AgreeFrom read value left ∧
          (left = 0 ∨ last.numSerializationPendingBits.toNat = 0) := by
  induction bitsToRead with
  | zero =>
      intro data header octets rest hle offers agree
      exact ⟨data, header, 0, rfl, hle, offers, agree, Or.inl rfl⟩
  | succ bitsToRead ih =>
      intro data header octets rest hle offers agree
      rw [readPending]
      split
      next hpending =>
        obtain ⟨hless, hbits⟩ := offers
        obtain ⟨count, hcount⟩ := Nat.exists_eq_succ_of_ne_zero
          (Nat.ne_of_gt (UInt8.lt_iff_toNat_lt.mp hpending))
        have hnext : (header.numSerializationPendingBits - 1).toNat = count := by
          have hone : (1 : UInt8) ≤ header.numSerializationPendingBits :=
            UInt8.le_iff_toNat_le.mpr (hcount ▸ Nat.succ_le_succ (Nat.zero_le count))
          rw [UInt8.toNat_sub_of_le _ _ hone, hcount]
          rfl
        have hless' : header.numSerializationPendingBits.toNat < 8 := hless
        rw [hcount, Nat.succ_eq_add_one, take_octetBits_succ _ (by omega), descending,
          List.cons_append, List.cons_append] at hbits
        obtain ⟨hfirst, hrest⟩ := List.cons.inj hbits
        refine ih _ _ octets rest (Nat.le_of_succ_le hle) ⟨?_, ?_⟩ (agree.setBit hle ?_)
        · show (header.numSerializationPendingBits - 1).toNat < 8
          omega
        · show (octetBits (header.serializationPendingBits <<< 1)).take
            (header.numSerializationPendingBits - 1).toNat ++ bitsOf octets = _
          rw [hnext]
          exact hrest
        · rw [← hfirst]
          exact and_mask (Nat.zero_lt_succ 7) _
      next hnone =>
        refine ⟨data, header, bitsToRead + 1, rfl, hle, offers, agree, Or.inr ?_⟩
        exact Nat.eq_zero_of_not_pos fun hpositive => hnone (UInt8.lt_iff_toNat_lt.mpr hpositive)

theorem setBits_agree (octet : UInt8) (count : Nat) : ∀ (position bitsToRead : Nat)
    (data : BitVec N), position + count ≤ 8 → count ≤ bitsToRead → bitsToRead ≤ N →
    (∀ index < count, octet.toBitVec.getLsbD (7 - (position + index)) =
      value.getLsbD (bitsToRead - 1 - index)) →
    AgreeFrom data value bitsToRead →
    AgreeFrom (setBits octet count (mask position) bitsToRead data) value (bitsToRead - count) := by
  induction count with
  | zero => exact fun _ _ _ _ _ _ _ agree => agree
  | succ count ih =>
      intro position bitsToRead data hmask hcount hle hbits agree
      obtain ⟨left, rfl⟩ : ∃ left, bitsToRead = left + 1 := ⟨bitsToRead - 1, by omega⟩
      have hbit : (octet &&& mask position != 0) = value.getLsbD left := by
        rw [and_mask (by omega)]
        exact hbits 0 (Nat.succ_pos _)
      have hrest := ih (position + 1) left _ (by omega) (by omega) (by omega)
        (fun index hindex => by
          have hnext := hbits (index + 1) (by omega)
          rw [show position + 1 + index = position + (index + 1) by omega, hnext]
          congr 1
          omega)
        (agree.setBit (by omega) hbit)
      rw [setBits, Nat.add_sub_cancel, mask_succ (by omega), Nat.add_sub_add_right]
      exact hrest

theorem readOctets_eq (octets : List UInt8) : ∀ (bitsToRead : Nat) (data : BitVec N)
    (header : Asn1Header) (rest : List Bool), bitsToRead ≤ N →
    (bitsToRead ≠ 0 → header.numSerializationPendingBits.toNat = 0) →
    Offers (header, octets) (descending value.getLsbD bitsToRead ++ rest) →
    AgreeFrom data value bitsToRead →
    ∃ last, readOctets data header octets bitsToRead = some (value, last) ∧ Offers last rest := by
  induction octets with
  | nil =>
      intro bitsToRead data header rest hle hnum offers agree
      cases bitsToRead with
      | zero => exact ⟨(header, []), by rw [readOctets, agree.eq], offers⟩
      | succ bitsToRead =>
          obtain ⟨-, hbits⟩ := offers
          rw [hnum (Nat.succ_ne_zero _)] at hbits
          cases hbits
  | cons octet octets ih =>
      intro bitsToRead data header rest hle hnum offers agree
      cases bitsToRead with
      | zero => exact ⟨(header, octet :: octets), by rw [readOctets, agree.eq], offers⟩
      | succ bitsToRead =>
          obtain ⟨hless, hbits⟩ := offers
          have hzero := hnum (Nat.succ_ne_zero _)
          rw [hzero, List.take_zero, List.nil_append, bitsOf_cons] at hbits
          rw [readOctets]
          split
          next hmany =>
            obtain ⟨left, hleft⟩ := Nat.exists_eq_add_of_le hmany
            rw [hleft, descending_add, List.append_assoc] at hbits
            obtain ⟨hoctet, hrest⟩ := List.append_inj hbits (length_descending _ _).symm
            have hread : AgreeFrom (setBits octet 8 (mask 0) (bitsToRead + 1) data) value
                (bitsToRead + 1 - 8) :=
              setBits_agree octet 8 0 _ data (by omega) hmany hle
                (fun index hindex => by
                  rw [eq_of_descending_eq hoctet _ (by omega)]
                  congr 1
                  omega) agree
            refine ih _ _ header rest (by omega) (fun _ => hzero) ⟨hless, ?_⟩ hread
            show (octetBits _).take header.numSerializationPendingBits.toNat ++ _ = _
            rw [hzero, List.take_zero, List.nil_append, hrest, hleft, Nat.add_sub_cancel_left]
          next hfew =>
            have hshort : bitsToRead + 1 < 8 := Nat.lt_of_not_le hfew
            rw [octetBits_eq_append octet (Nat.le_of_lt hshort), List.append_assoc] at hbits
            obtain ⟨hoctet, hrest⟩ := List.append_inj hbits
              ((length_descending _ _).trans (length_descending _ _).symm)
            have hread : AgreeFrom (setBits octet (bitsToRead + 1) (mask 0) (bitsToRead + 1) data)
                value (bitsToRead + 1 - (bitsToRead + 1)) :=
              setBits_agree octet _ 0 _ data (by omega) (Nat.le_refl _) hle
                (fun index hindex => by
                  rw [← eq_of_descending_eq hoctet _ (by omega)]
                  congr 1
                  omega) agree
            rw [Nat.sub_self] at hread
            have hnum' : (8 - UInt8.ofNat (bitsToRead + 1)).toNat = 8 - (bitsToRead + 1) := by
              have hnumber : (UInt8.ofNat (bitsToRead + 1)).toNat = bitsToRead + 1 :=
                UInt8.toNat_ofNat_of_lt' (hshort.trans (by decide))
              rw [UInt8.toNat_sub_of_le, hnumber]
              · rfl
              · rw [UInt8.le_iff_toNat_le, hnumber]
                exact Nat.le_of_lt hshort
            refine ⟨_, congrArg some (Prod.ext hread.eq rfl), ?_, ?_⟩
            · show (8 - UInt8.ofNat (bitsToRead + 1)).toNat < 8
              omega
            · show (octetBits (octet <<< UInt8.ofNat (bitsToRead + 1))).take
                (8 - UInt8.ofNat (bitsToRead + 1)).toNat ++ bitsOf octets = rest
              rw [hnum', take_octetBits_shiftLeft octet hshort, hrest]

end Loops

/-- A bit set is read from the front, whatever it was before. -/
theorem reads_deserializeBitset {N : Nat} (data value : BitVec N) :
    Reads (deserializeBitset data) (bitsetBits value) value := by
  intro (header, octets) rest offers
  obtain ⟨read, last, left, hpending, hle, hoffers, agree, hend⟩ :=
    readPending_agree N data header octets rest (Nat.le_refl N) offers fun index hindex => by
      rw [BitVec.getLsbD_of_ge _ _ hindex, BitVec.getLsbD_of_ge _ _ hindex]
  rw [deserializeBitset, hpending]
  exact readOctets_eq octets left read last rest hle (fun hleft => hend.resolve_left hleft) hoffers
    agree

end DeepcV2x.Lte.Asn1Header
