import DeepcV2x.Sidelink.ResourcePool

/-!
# Slots with a feedback channel

`SlotHasPsfch` counts the sidelink slots of the current period only, where the
definition counts them from slot 0 of the pool repeated without end.
-/

namespace DeepcV2x.Sidelink

open DeepcV2x.Foundation.Cycles

/-! ## What the loops count -/

/-- A slot of the repeated pool that is a sidelink slot. -/
def IsSlSlot (phyPool : List Bool) (slot : Nat) : Prop := cycled phyPool slot = some true

instance (phyPool : List Bool) (slot : Nat) : Decidable (IsSlSlot phyPool slot) :=
  inferInstanceAs (Decidable (cycled phyPool slot = some true))

/-- The number of sidelink slots with index at most `slot`. -/
def slSlotsUpTo (phyPool : List Bool) (slot : Nat) : Nat := countBefore phyPool true (slot + 1)

/-- The slot is the one of the multiples of the period among the sidelink slots. -/
def HasPsfch (phyPool : List Bool) (psfchPeriod slot : Nat) : Prop :=
  IsSlSlot phyPool slot ∧ psfchPeriod ∣ slSlotsUpTo phyPool slot

instance (phyPool : List Bool) (psfchPeriod slot : Nat) :
    Decidable (HasPsfch phyPool psfchPeriod slot) :=
  inferInstanceAs (Decidable (IsSlSlot phyPool slot ∧ psfchPeriod ∣ slSlotsUpTo phyPool slot))

/-- What the outer loop holds when it stops at `limit`. -/
def stoppedAt (phyPool : List Bool) (limit : Nat) : Nat × Bool :=
  (slSlotsUpTo phyPool limit, decide (IsSlSlot phyPool limit))

theorem slSlotsUpTo_eq (phyPool : List Bool) (slot : Nat) :
    slSlotsUpTo phyPool slot =
      countBefore phyPool true slot + if IsSlSlot phyPool slot then 1 else 0 :=
  countBefore_succ phyPool true slot

/-- One bit of the inner loop counts the slot it stands for. -/
theorem countBefore_add_bit {phyPool : List Bool} {slot : Nat} {bit : Bool}
    (hbit : cycled phyPool slot = some bit) :
    countBefore phyPool true slot + (if bit then 1 else 0) = slSlotsUpTo phyPool slot ∧
      decide (IsSlSlot phyPool slot) = bit := by
  rw [slSlotsUpTo_eq]
  simp only [IsSlSlot, hbit]
  cases bit <;> simp

theorem cycled_of_drop {phyPool bits : List Bool} {bit : Bool} {i j : Nat}
    (hdrop : phyPool.drop j = bit :: bits) :
    cycled phyPool (i * phyPool.length + j) = some bit := by
  have hget : phyPool[j]? = some bit := by
    have hhead := congrArg (fun rest => rest[0]?) hdrop
    simpa using hhead
  have hlt : j < phyPool.length := (List.getElem?_eq_some_iff.mp hget).1
  rw [Nat.mul_comm, cycled_add_length, cycled_of_lt hlt, hget]

/-- The inner loop from slot `j` of a repetition: it stops at the limit or runs to the end. -/
theorem scanPool_eq (phyPool : List Bool) {limit i : Nat} (bits : List Bool) :
    ∀ (j : Nat) (current : Bool), phyPool.drop j = bits → j ≤ phyPool.length →
      i * phyPool.length + j ≤ limit →
      ∃ last, scanPool limit bits (i * phyPool.length + j)
          (countBefore phyPool true (i * phyPool.length + j)) current =
        if limit < (i + 1) * phyPool.length then
          ((stoppedAt phyPool limit).1, (stoppedAt phyPool limit).2, true)
        else (countBefore phyPool true ((i + 1) * phyPool.length), last, false) := by
  induction bits with
  | nil =>
      intro j current hdrop hj hlimit
      have hend : j = phyPool.length := le_antisymm hj (List.drop_eq_nil_iff.mp hdrop)
      subst hend
      refine ⟨current, ?_⟩
      rw [scanPool, Nat.succ_mul, if_neg (Nat.not_lt.mpr hlimit)]
  | cons bit bits ih =>
      intro j current hdrop hj hlimit
      obtain ⟨hcount, hcurrent⟩ := countBefore_add_bit (@cycled_of_drop _ _ _ i _ hdrop)
      have hlt : j < phyPool.length := by
        rcases hj.lt_or_eq with hlt | rfl
        · exact hlt
        · rw [List.drop_length] at hdrop
          cases hdrop
      have hrest : phyPool.drop (j + 1) = bits := by
        rw [← List.tail_drop, hdrop, List.tail_cons]
      simp only [scanPool]
      rw [hcount]
      by_cases hstop : i * phyPool.length + j = limit
      · refine ⟨current, ?_⟩
        rw [if_pos hstop, if_pos (by rw [Nat.succ_mul]; omega), stoppedAt, ← hstop, hcurrent]
      · rw [if_neg hstop]
        exact ih (j + 1) bit hrest hlt (by omega)

/-- The outer loop from the start of a repetition stops at the limit. -/
theorem scanPeriods_eq (phyPool : List Bool) {limit : Nat} (left : Nat) :
    ∀ (i : Nat) (current : Bool), i * phyPool.length ≤ limit →
      limit < (i + left) * phyPool.length →
      scanPeriods limit phyPool left i (countBefore phyPool true (i * phyPool.length)) current =
        stoppedAt phyPool limit := by
  induction left with
  | zero =>
      intro i current hstart hend
      rw [Nat.add_zero] at hend
      exact absurd hstart (Nat.not_le.mpr hend)
  | succ left ih =>
      intro i current hstart hend
      obtain ⟨last, hscan⟩ := @scanPool_eq phyPool limit i phyPool 0 current (List.drop_zero)
        (Nat.zero_le _) hstart
      rw [Nat.add_zero] at hscan
      simp only [scanPeriods]
      rw [hscan]
      by_cases hstop : limit < (i + 1) * phyPool.length
      · rw [if_pos hstop]
        exact if_pos rfl
      · rw [if_neg hstop, if_neg Bool.false_ne_true]
        exact ih (i + 1) last (Nat.le_of_not_lt hstop)
          (by rw [Nat.succ_add_eq_add_succ]; exact hend)

/-! ## Whole periods -/

/-- Slots of whole periods before do not change the remainder. -/
theorem hasPsfch_mod (phyPool : List Bool) (psfchPeriod slot : Nat) :
    HasPsfch phyPool psfchPeriod (slot % (psfchPeriod * phyPool.length)) ↔
      HasPsfch phyPool psfchPeriod slot := by
  have hsplit : phyPool.length * (psfchPeriod * (slot / (psfchPeriod * phyPool.length))) +
      slot % (psfchPeriod * phyPool.length) = slot := by
    rw [← Nat.mul_assoc, Nat.mul_comm phyPool.length psfchPeriod]
    exact Nat.div_add_mod slot _
  have hslot := cycled_add_length phyPool (psfchPeriod * (slot / (psfchPeriod * phyPool.length)))
    (slot % (psfchPeriod * phyPool.length))
  have hcount := countBefore_rounds phyPool true
    (psfchPeriod * (slot / (psfchPeriod * phyPool.length)))
    (slot % (psfchPeriod * phyPool.length) + 1)
  rw [← Nat.add_assoc, hsplit] at hcount
  rw [hsplit] at hslot
  rw [HasPsfch, HasPsfch, IsSlSlot, IsSlSlot, hslot, slSlotsUpTo, slSlotsUpTo, hcount,
    Nat.mul_left_comm, Nat.dvd_add_right (Nat.dvd_mul_right _ _)]

/-- `SlotHasPsfch` answers whether the slot is a sidelink slot and the sidelink slots up to it,
counted from slot 0, are a multiple of the period. -/
theorem slotHasPsfch_eq (phyPool : List Bool) (nonempty : phyPool ≠ []) (psfchPeriod : UInt8)
    (nonzero : psfchPeriod ≠ 0) (fits : psfchPeriod.toNat * phyPool.length < 2 ^ 16)
    (absIndexCurrentSlot : UInt64) :
    slotHasPsfch absIndexCurrentSlot phyPool psfchPeriod =
      .ok (decide (HasPsfch phyPool psfchPeriod.toNat absIndexCurrentSlot.toNat)) := by
  have hpool : 0 < phyPool.length := List.length_pos_iff.mpr nonempty
  have hperiod : 0 < psfchPeriod.toNat := by
    apply Nat.pos_of_ne_zero
    intro hzero
    exact nonzero (UInt8.toNat_inj.mp hzero)
  have hproduct := Nat.mul_pos hperiod hpool
  have htoNat : (UInt16.ofNat (psfchPeriod.toNat * phyPool.length)).toNat =
      psfchPeriod.toNat * phyPool.length := UInt16.toNat_ofNat_of_lt' fits
  have hne : UInt16.ofNat (psfchPeriod.toNat * phyPool.length) ≠ 0 := by
    intro hzero
    rw [hzero] at htoNat
    exact absurd htoNat (Nat.ne_of_lt hproduct)
  have hlimit := Nat.mod_lt absIndexCurrentSlot.toNat hproduct
  have hscan := @scanPeriods_eq phyPool
    (absIndexCurrentSlot.toNat % (psfchPeriod.toNat * phyPool.length)) psfchPeriod.toNat 0 false
    (by rw [Nat.zero_mul]; exact Nat.zero_le _) (by rw [Nat.zero_add]; exact hlimit)
  rw [Nat.zero_mul, countBefore_zero] at hscan
  have hspec : decide (HasPsfch phyPool psfchPeriod.toNat absIndexCurrentSlot.toNat) =
      (decide (IsSlSlot phyPool
          (absIndexCurrentSlot.toNat % (psfchPeriod.toNat * phyPool.length))) &&
        decide (slSlotsUpTo phyPool
          (absIndexCurrentSlot.toNat % (psfchPeriod.toNat * phyPool.length)) %
            psfchPeriod.toNat = 0)) := by
    rw [← Bool.decide_and, decide_eq_decide, ← hasPsfch_mod, HasPsfch, Nat.dvd_iff_mod_eq_zero]
  simp only [slotHasPsfch]
  rw [if_neg nonzero, if_neg hne, htoNat, hscan, hspec]
  rfl

/-- A pool of three slots with two sidelink slots and a period of two. -/
theorem slotHasPsfch_eq_three :
    slotHasPsfch 10 [false, true, true] 2 =
      .ok (decide (HasPsfch [false, true, true] (UInt8.toNat 2) 10)) :=
  slotHasPsfch_eq [false, true, true] (by simp) 2 (by decide) (by decide) 10

/-- The pool `GetPhysicalSlPool` returns is not empty. -/
theorem getPhysicalSlPool_ne_nil {slBitMap : List Bool} {tddPattern : List LteNrTddSlotType}
    (hcount : tddPattern.count .UL < UInt16.size) {pool : List Bool}
    (hpool : getPhysicalSlPool slBitMap tddPattern = .ok pool) : pool ≠ [] := by
  by_cases hfit : 0 < tddPattern.count .UL ∧ tddPattern.count .UL ∣ slBitMap.length ∧
      tddPattern.length ≤ slBitMap.length
  · obtain ⟨hul, hmultiple, hsize⟩ := hfit
    rw [getPhysicalSlPool_ok hul hcount hmultiple hsize] at hpool
    obtain ⟨rounds, hbits⟩ := hmultiple
    have hpattern : 0 < tddPattern.length := Nat.lt_of_lt_of_le hul List.count_le_length
    have hrounds : 0 < slBitMap.length / tddPattern.count .UL :=
      Nat.div_pos (List.count_le_length.trans hsize) hul
    rw [← Except.ok.inj hpool]
    apply List.ne_nil_of_length_pos
    rw [List.length_map, List.length_range]
    exact Nat.mul_pos hpattern hrounds
  · obtain ⟨message, habort⟩ := getPhysicalSlPool_aborts hcount hfit
    rw [habort] at hpool
    cases hpool

end DeepcV2x.Sidelink
