import DeepcV2x.Foundation.Cycles
import DeepcV2x.Foundation.Strings

/-!
# The physical sidelink pool

`NrSlUeRrc::GetPhysicalSlPool`: the TDD pattern is applied again and again and
every UL slot consumes one bit of the sidelink bitmap.
-/

namespace DeepcV2x.Sidelink

open DeepcV2x.Foundation.Strings DeepcV2x.Foundation.Cycles

inductive LteNrTddSlotType
  | DL
  | S
  | F
  | UL
  deriving DecidableEq, Repr

/-- How a call ends that does not return. -/
inductive Failure
  | abort (message : Text)
  | fatalError
  | outOfRange
  | divisionByZero
  | endless
  deriving DecidableEq, Repr

def abortIf (condition : Bool) (message : Text) : Except Failure Unit :=
  if condition then .error (.abort message) else .ok ()

/-! ## The loop -/

/-- The `do` loop with its two iterators; one unit of fuel for every turn. -/
def physicalPoolLoop (slBitMap : List Bool) (tddPattern : List LteNrTddSlotType) :
    Nat → Nat → Nat → List Bool → Except Failure (List Bool)
  | 0, _, _, _ => .error .endless
  | fuel + 1, patternIt, slBitMapIt, finalSlPool =>
      match tddPattern[patternIt]? with
      | none => .error .outOfRange
      | some slotType => do
          let turn ←
            if slotType = .UL then
              match slBitMap[slBitMapIt]? with
              | none => .error .outOfRange
              | some bit => .ok (finalSlPool ++ [bit], slBitMapIt + 1)
            else .ok (finalSlPool ++ [false], slBitMapIt)
          if patternIt + 1 = tddPattern.length then
            if turn.2 = slBitMap.length then return turn.1
            else physicalPoolLoop slBitMap tddPattern fuel 0 turn.2 turn.1
          else physicalPoolLoop slBitMap tddPattern fuel (patternIt + 1) turn.2 turn.1

def noUlMessage : Text := "No UL slot found in the given TDD pattern".toList

def bitmapMultipleMessage : Text :=
  "SL bit map size should be multiple of number of UL slots in the TDD pattern".toList

def bitmapSizeMessage : Text :=
  "SL bit map size should be greater than or equal to the TDD pattern size".toList

/-- `GetPhysicalSlPool`; no loop over a pattern and a bitmap takes more turns than their product. -/
def getPhysicalSlPool (slBitMap : List Bool) (tddPattern : List LteNrTddSlotType) :
    Except Failure (List Bool) := do
  let countUl : UInt16 := UInt16.ofNat (tddPattern.count .UL)
  abortIf (countUl = 0) noUlMessage
  abortIf (slBitMap.length % countUl.toNat ≠ 0) bitmapMultipleMessage
  abortIf (slBitMap.length < tddPattern.length) bitmapSizeMessage
  physicalPoolLoop slBitMap tddPattern (tddPattern.length * slBitMap.length) 0 0 []

/-! ## What the pool holds -/

section Pool

variable (slBitMap : List Bool) (tddPattern : List LteNrTddSlotType)

/-- The number of UL slots strictly before an absolute slot. -/
def ulBefore (slot : Nat) : Nat := countBefore tddPattern .UL slot

/-- A slot of type UL whose bit of the repeated bitmap is set. -/
def Selected (slot : Nat) : Prop :=
  cycled tddPattern slot = some .UL ∧
    cycled slBitMap (ulBefore tddPattern slot) = some true

instance (slot : Nat) : Decidable (Selected slBitMap tddPattern slot) :=
  inferInstanceAs (Decidable (_ ∧ _))

variable {slBitMap tddPattern}

theorem ulBefore_rounds (rounds slot : Nat) :
    ulBefore tddPattern (tddPattern.length * rounds + slot) =
      tddPattern.count .UL * rounds + ulBefore tddPattern slot :=
  countBefore_rounds tddPattern .UL rounds slot

theorem ulBefore_whole (rounds : Nat) :
    ulBefore tddPattern (tddPattern.length * rounds) = tddPattern.count .UL * rounds :=
  ulBefore_rounds rounds 0

/-- The end of a round leaves no bit exactly at the end of the last round. -/
theorem bits_left_iff {rounds slot : Nat} (hul : 0 < tddPattern.count .UL)
    (hround : slot % tddPattern.length + 1 = tddPattern.length) :
    ulBefore tddPattern (slot + 1) = tddPattern.count .UL * rounds ↔
      slot + 1 = tddPattern.length * rounds := by
  have hend : slot + 1 = tddPattern.length * (slot / tddPattern.length + 1) := by
    have := Nat.div_add_mod slot tddPattern.length
    rw [Nat.mul_add, Nat.mul_one]
    omega
  have hpattern : 0 < tddPattern.length := by omega
  rw [hend, ulBefore_whole]
  constructor
  · intro heq
    rw [Nat.eq_of_mul_eq_mul_left hul heq]
  · intro heq
    rw [Nat.eq_of_mul_eq_mul_left hpattern heq]

/-- An UL slot of the pool finds its bit inside the bitmap. -/
theorem bit_of_ul {rounds slot : Nat} (hbits : slBitMap.length = tddPattern.count .UL * rounds)
    (hslot : slot < tddPattern.length * rounds) (hul : cycled tddPattern slot = some .UL) :
    ∃ bit, slBitMap[ulBefore tddPattern slot]? = some bit ∧
      decide (Selected slBitMap tddPattern slot) = bit := by
  have hlt : ulBefore tddPattern slot < slBitMap.length := by
    have hmono : ulBefore tddPattern (slot + 1) ≤ _ := countBefore_mono tddPattern .UL hslot
    have hsucc := countBefore_succ tddPattern .UL slot
    rw [if_pos hul, ← ulBefore, ← ulBefore] at hsucc
    rw [← ulBefore, ulBefore_whole, ← hbits] at hmono
    omega
  refine ⟨_, List.getElem?_eq_getElem hlt, ?_⟩
  cases hbit : slBitMap[ulBefore tddPattern slot] with
  | true =>
      apply decide_eq_true
      exact ⟨hul, by rw [cycled_of_lt hlt, List.getElem?_eq_getElem hlt, hbit]⟩
  | false =>
      apply decide_eq_false
      rintro ⟨-, hset⟩
      rw [cycled_of_lt hlt, List.getElem?_eq_getElem hlt, hbit] at hset
      cases hset

/-- One turn of the loop at an absolute slot of the pool. -/
theorem physicalPoolLoop_turn {rounds slot fuel : Nat} (hul : 0 < tddPattern.count .UL)
    (hbits : slBitMap.length = tddPattern.count .UL * rounds)
    (hslot : slot < tddPattern.length * rounds) (pool : List Bool) :
    physicalPoolLoop slBitMap tddPattern (fuel + 1) (slot % tddPattern.length)
        (ulBefore tddPattern slot) pool =
      if slot + 1 = tddPattern.length * rounds then
        .ok (pool ++ [decide (Selected slBitMap tddPattern slot)])
      else physicalPoolLoop slBitMap tddPattern fuel ((slot + 1) % tddPattern.length)
        (ulBefore tddPattern (slot + 1)) (pool ++ [decide (Selected slBitMap tddPattern slot)]) := by
  have hpattern : 0 < tddPattern.length := Nat.pos_of_lt_mul_right hslot
  have hindex := Nat.mod_lt slot hpattern
  have hsucc : ulBefore tddPattern (slot + 1) = ulBefore tddPattern slot +
      if cycled tddPattern slot = some .UL then 1 else 0 := countBefore_succ tddPattern .UL slot
  have hmod : (slot + 1) % tddPattern.length = (slot % tddPattern.length + 1) % tddPattern.length :=
    (Nat.mod_add_mod slot tddPattern.length 1).symm
  have hnext : ∀ grown : List Bool,
      (if slot % tddPattern.length + 1 = tddPattern.length then
        if ulBefore tddPattern (slot + 1) = slBitMap.length then Except.ok grown
        else physicalPoolLoop slBitMap tddPattern fuel 0 (ulBefore tddPattern (slot + 1)) grown
      else physicalPoolLoop slBitMap tddPattern fuel (slot % tddPattern.length + 1)
        (ulBefore tddPattern (slot + 1)) grown) =
      if slot + 1 = tddPattern.length * rounds then .ok grown
      else physicalPoolLoop slBitMap tddPattern fuel ((slot + 1) % tddPattern.length)
        (ulBefore tddPattern (slot + 1)) grown := by
    intro grown
    split
    next hround =>
      rw [hmod, hround, Nat.mod_self]
      simp only [hbits, bits_left_iff hul hround]
    next hinside =>
      rw [Nat.mod_eq_of_lt (by omega : slot % tddPattern.length + 1 < tddPattern.length)] at hmod
      have hne : slot + 1 ≠ tddPattern.length * rounds := by
        intro hend
        rw [hend, Nat.mul_mod_right] at hmod
        omega
      rw [if_neg hne, hmod]
  have htype : tddPattern[slot % tddPattern.length]? =
      some tddPattern[slot % tddPattern.length] := List.getElem?_eq_getElem hindex
  rw [physicalPoolLoop, htype]
  dsimp only
  by_cases hslotUl : cycled tddPattern slot = some .UL
  · obtain ⟨bit, hbit, hselected⟩ := bit_of_ul hbits hslot hslotUl
    have htypeUl : tddPattern[slot % tddPattern.length] = .UL := by
      rw [cycled, htype] at hslotUl
      exact Option.some.inj hslotUl
    rw [if_pos htypeUl, hbit, hselected]
    rw [if_pos hslotUl] at hsucc
    rw [← hnext (pool ++ [bit]), hsucc]
    rfl
  · have htypeNot : tddPattern[slot % tddPattern.length] ≠ .UL := by
      intro heq
      apply hslotUl
      rw [cycled, htype, heq]
    have hselected : decide (Selected slBitMap tddPattern slot) = false :=
      decide_eq_false fun selected => hslotUl selected.1
    rw [if_neg htypeNot, hselected]
    rw [if_neg hslotUl] at hsucc
    rw [← hnext (pool ++ [false]), hsucc]
    rfl

/-- From any slot of the pool on, the loop adds the remaining slots. -/
theorem physicalPoolLoop_eq {rounds : Nat} (hul : 0 < tddPattern.count .UL)
    (hbits : slBitMap.length = tddPattern.count .UL * rounds) (left : Nat) :
    ∀ slot pool fuel, slot + (left + 1) = tddPattern.length * rounds → left < fuel →
      physicalPoolLoop slBitMap tddPattern fuel (slot % tddPattern.length)
          (ulBefore tddPattern slot) pool =
        .ok (pool ++ (List.range' slot (left + 1)).map fun slot =>
          decide (Selected slBitMap tddPattern slot)) := by
  induction left with
  | zero =>
      intro slot pool fuel hend hfuel
      obtain ⟨fuel, rfl⟩ := Nat.exists_eq_succ_of_ne_zero (Nat.ne_of_gt hfuel)
      rw [Nat.succ_eq_add_one, physicalPoolLoop_turn hul hbits (by omega), if_pos hend]
      rfl
  | succ left ih =>
      intro slot pool fuel hend hfuel
      obtain ⟨fuel, rfl⟩ := Nat.exists_eq_succ_of_ne_zero (Nat.ne_of_gt (Nat.zero_lt_of_lt hfuel))
      rw [Nat.succ_eq_add_one, physicalPoolLoop_turn hul hbits (by omega), if_neg (by omega),
        ih (slot + 1) _ fuel (by omega) (by omega), List.append_assoc]
      rfl

/-- A bitmap that fits the pattern yields the pool of all slots of its rounds. -/
theorem getPhysicalSlPool_ok (hul : 0 < tddPattern.count .UL)
    (hcount : tddPattern.count .UL < UInt16.size)
    (hmultiple : tddPattern.count .UL ∣ slBitMap.length)
    (hsize : tddPattern.length ≤ slBitMap.length) :
    getPhysicalSlPool slBitMap tddPattern =
      .ok ((List.range (tddPattern.length * (slBitMap.length / tddPattern.count .UL))).map
        fun slot => decide (Selected slBitMap tddPattern slot)) := by
  obtain ⟨rounds, hbits⟩ := hmultiple
  have hrounds : slBitMap.length / tddPattern.count .UL = rounds := by
    rw [hbits, Nat.mul_div_cancel_left rounds hul]
  have hpattern : 0 < tddPattern.length :=
    Nat.lt_of_lt_of_le hul List.count_le_length
  have hpos : 0 < rounds := by
    apply Nat.pos_of_ne_zero
    rintro rfl
    omega
  have htoNat : (UInt16.ofNat (tddPattern.count .UL)).toNat = tddPattern.count .UL :=
    UInt16.toNat_ofNat_of_lt hcount
  have hne : UInt16.ofNat (tddPattern.count .UL) ≠ 0 := by
    intro hzero
    rw [hzero] at htoNat
    exact absurd htoNat (Nat.ne_of_lt hul)
  have hturns : tddPattern.length * rounds ≤ tddPattern.length * slBitMap.length :=
    Nat.mul_le_mul_left _ (hbits ▸ Nat.le_mul_of_pos_left rounds hul)
  have hproduct : 0 < tddPattern.length * rounds := Nat.mul_pos hpattern hpos
  have hloop := physicalPoolLoop_eq hul hbits (tddPattern.length * rounds - 1) 0 []
    (tddPattern.length * slBitMap.length) (by omega) (by omega)
  rw [Nat.sub_add_cancel hproduct, Nat.zero_mod] at hloop
  rw [getPhysicalSlPool]
  rw [htoNat, decide_eq_false hne, decide_eq_false (not_not.mpr (hbits ▸ Nat.mul_mod_right _ _)),
    decide_eq_false (Nat.not_lt.mpr hsize), hrounds, List.range_eq_range']
  exact hloop

/-- Every other bitmap and every pattern without an UL slot aborts. -/
theorem getPhysicalSlPool_aborts (hcount : tddPattern.count .UL < UInt16.size)
    (hunfit : ¬ (0 < tddPattern.count .UL ∧ tddPattern.count .UL ∣ slBitMap.length ∧
      tddPattern.length ≤ slBitMap.length)) :
    ∃ message, getPhysicalSlPool slBitMap tddPattern = .error (.abort message) := by
  have htoNat : (UInt16.ofNat (tddPattern.count .UL)).toNat = tddPattern.count .UL :=
    UInt16.toNat_ofNat_of_lt hcount
  rw [getPhysicalSlPool]
  by_cases hzero : UInt16.ofNat (tddPattern.count .UL) = 0
  · rw [decide_eq_true hzero]
    exact ⟨_, rfl⟩
  · rw [decide_eq_false hzero, htoNat]
    by_cases hmultiple : slBitMap.length % tddPattern.count .UL = 0
    · rw [decide_eq_false (not_not.mpr hmultiple)]
      have hpos : 0 < tddPattern.count .UL := by
        apply Nat.pos_of_ne_zero
        intro hnone
        rw [hnone] at hzero
        exact hzero rfl
      have hshort : slBitMap.length < tddPattern.length := by
        by_contra hlong
        exact hunfit ⟨hpos, Nat.dvd_of_mod_eq_zero hmultiple, Nat.le_of_not_lt hlong⟩
      rw [decide_eq_true hshort]
      exact ⟨_, rfl⟩
    · rw [decide_eq_true hmultiple]
      exact ⟨_, rfl⟩

/-- The selected slots repeat with the length of the pool. -/
theorem selected_mod {rounds : Nat} (hbits : slBitMap.length = tddPattern.count .UL * rounds)
    (slot : Nat) :
    Selected slBitMap tddPattern (slot % (tddPattern.length * rounds)) ↔
      Selected slBitMap tddPattern slot := by
  have hsplit : tddPattern.length * (rounds * (slot / (tddPattern.length * rounds))) +
      slot % (tddPattern.length * rounds) = slot := by
    rw [← Nat.mul_assoc]
    exact Nat.div_add_mod slot _
  have htype := cycled_add_length tddPattern (rounds * (slot / (tddPattern.length * rounds)))
    (slot % (tddPattern.length * rounds))
  have hcount := @ulBefore_rounds tddPattern (rounds * (slot / (tddPattern.length * rounds)))
    (slot % (tddPattern.length * rounds))
  rw [hsplit] at htype hcount
  have hbit := cycled_add_length slBitMap (slot / (tddPattern.length * rounds))
    (ulBefore tddPattern (slot % (tddPattern.length * rounds)))
  rw [hbits, Nat.mul_assoc, ← hcount] at hbit
  rw [Selected, Selected, htype, hbit]

end Pool

end DeepcV2x.Sidelink
