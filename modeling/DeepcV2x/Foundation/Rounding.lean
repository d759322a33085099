import Mathlib.Algebra.Order.Field.Basic
import Mathlib.Algebra.Order.Round
import Mathlib.Tactic.Linarith
import Mathlib.Tactic.Push

/-!
# Rounding to the nearest integer, halves away from zero

`llround` as the C library defines it, over any ordered field with a floor, and
the unit interval of values that go to a given integer.  A half belongs to the
integer further from zero.
-/

namespace DeepcV2x

variable {K : Type*} [Field K] [LinearOrder K] [IsStrictOrderedRing K] [FloorRing K]

def llround (value : K) : ℤ :=
  if 0 ≤ value then ⌊value + 1 / 2⌋ else ⌈value - 1 / 2⌉

/-- The lower end of the values that go to `code`. -/
def ReachesHalf (value : K) (code : ℤ) : Prop :=
  (code : K) - 1 / 2 < value ∨ (code : K) - 1 / 2 = value ∧ 0 < code

/-- The upper end of the values that go to `code`. -/
def StaysUnderHalf (value : K) (code : ℤ) : Prop :=
  value < (code : K) + 1 / 2 ∨ value = (code : K) + 1 / 2 ∧ code < 0

/-- The values nearest to `code`, a half counted only on the side away from zero. -/
structure RoundsTo (value : K) (code : ℤ) : Prop where
  above : ReachesHalf value code
  below : StaysUnderHalf value code

omit [FloorRing K] in
theorem half_pos' : (0 : K) < 1 / 2 := by
  positivity

/-- The integer found and the one before it, both for values from zero on. -/
theorem llround_of_nonneg {value : K} (nonneg : 0 ≤ value) (code : ℤ) :
    llround value = code ↔ (code : K) - 1 / 2 ≤ value ∧ value < (code : K) + 1 / 2 := by
  rw [llround, if_pos nonneg, Int.floor_eq_iff]
  constructor
  · rintro ⟨low, high⟩
    constructor <;> linarith
  · rintro ⟨low, high⟩
    constructor <;> linarith

theorem llround_of_neg {value : K} (neg : value < 0) (code : ℤ) :
    llround value = code ↔ (code : K) - 1 / 2 < value ∧ value ≤ (code : K) + 1 / 2 := by
  rw [llround, if_neg (not_le.mpr neg), Int.ceil_eq_iff]
  constructor
  · rintro ⟨low, high⟩
    constructor <;> linarith
  · rintro ⟨low, high⟩
    constructor <;> linarith

/-- An integer is positive when half below it is not negative. -/
theorem code_pos_of_half_le {code : ℤ} {value : K} (nonneg : 0 ≤ value)
    (half : (code : K) - 1 / 2 = value) : 0 < code := by
  have positive : (0 : K) < code := by linarith [half_pos' (K := K)]
  exact_mod_cast positive

theorem code_neg_of_half_le {code : ℤ} {value : K} (neg : value < 0)
    (half : value = (code : K) + 1 / 2) : code < 0 := by
  have negative : (code : K) < 0 := by linarith [half_pos' (K := K)]
  exact_mod_cast negative

theorem llround_eq_iff (value : K) (code : ℤ) : llround value = code ↔ RoundsTo value code := by
  rcases le_or_gt 0 value with nonneg | neg
  · rw [llround_of_nonneg nonneg]
    constructor
    · rintro ⟨low, high⟩
      refine ⟨?_, Or.inl high⟩
      rcases low.lt_or_eq with hlt | heq
      · exact Or.inl hlt
      · exact Or.inr ⟨heq, code_pos_of_half_le nonneg heq⟩
    · rintro ⟨low, high⟩
      constructor
      · rcases low with hlt | ⟨heq, -⟩
        · exact hlt.le
        · exact heq.le
      · rcases high with hlt | ⟨heq, hneg⟩
        · exact hlt
        · have hle : (code : K) ≤ -1 := by exact_mod_cast (by omega : code ≤ -1)
          linarith [half_pos' (K := K)]
  · rw [llround_of_neg neg]
    constructor
    · rintro ⟨low, high⟩
      refine ⟨Or.inl low, ?_⟩
      rcases high.lt_or_eq with hlt | heq
      · exact Or.inl hlt
      · exact Or.inr ⟨heq, code_neg_of_half_le neg heq⟩
    · rintro ⟨low, high⟩
      constructor
      · rcases low with hlt | ⟨heq, hpos⟩
        · exact hlt
        · have hle : (1 : K) ≤ code := by exact_mod_cast (by omega : 1 ≤ code)
          linarith [half_pos' (K := K)]
      · rcases high with hlt | ⟨heq, -⟩
        · exact hlt.le
        · exact heq.le

omit [IsStrictOrderedRing K] [FloorRing K] in
theorem ReachesHalf.le {value : K} {code : ℤ} (above : ReachesHalf value code) :
    (code : K) - 1 / 2 ≤ value := by
  rcases above with hlt | ⟨heq, -⟩
  · exact hlt.le
  · exact heq.le

omit [IsStrictOrderedRing K] [FloorRing K] in
theorem StaysUnderHalf.le {value : K} {code : ℤ} (below : StaysUnderHalf value code) :
    value ≤ (code : K) + 1 / 2 := by
  rcases below with hlt | ⟨heq, -⟩
  · exact hlt.le
  · exact heq.le

/-- The integer nearest to a value of an integer interval lies in the interval. -/
theorem llround_mem {value : K} {minValue maxValue : ℤ} (low : (minValue : K) ≤ value)
    (high : value ≤ maxValue) : minValue ≤ llround value ∧ llround value ≤ maxValue := by
  obtain ⟨above, below⟩ := (llround_eq_iff value _).mp rfl
  have hbelow := below.le
  have habove := above.le
  constructor
  · have hlt : (minValue : K) < ((llround value + 1 : ℤ) : K) := by
      push_cast
      linarith [half_pos' (K := K)]
    have := Int.cast_lt.mp hlt
    omega
  · have hlt : ((llround value : ℤ) : K) < ((maxValue + 1 : ℤ) : K) := by
      push_cast
      linarith [half_pos' (K := K)]
    have := Int.cast_lt.mp hlt
    omega

/-! ## Saturated rounding -/

/-- Clamped into an integer interval, then rounded. -/
def clampRound (value : K) (minValue maxValue : ℤ) : ℤ :=
  llround (max (minValue : K) (min (maxValue : K) value))

theorem clampRound_mem (value : K) {minValue maxValue : ℤ} (ordered : minValue ≤ maxValue) :
    minValue ≤ clampRound value minValue maxValue ∧
      clampRound value minValue maxValue ≤ maxValue := by
  have hcast : (minValue : K) ≤ maxValue := by exact_mod_cast ordered
  exact llround_mem (le_max_left _ _) (max_le hcast (min_le_left _ _))

theorem llround_intCast (code : ℤ) : llround (code : K) = code := by
  have bounds := @llround_mem K _ _ _ _ (code : K) code code (le_refl _) (le_refl _)
  exact le_antisymm bounds.2 bounds.1

/-- The values that go to `code`: its unit interval, open-ended at the two limits. -/
theorem clampRound_eq_iff (value : K) {minValue maxValue : ℤ} (ordered : minValue ≤ maxValue)
    (code : ℤ) :
    clampRound value minValue maxValue = code ↔
      minValue ≤ code ∧ code ≤ maxValue ∧ (code = minValue ∨ ReachesHalf value code) ∧
        (code = maxValue ∨ StaysUnderHalf value code) := by
  have hcast : (minValue : K) ≤ maxValue := by exact_mod_cast ordered
  have hhalf := half_pos' (K := K)
  constructor
  · rintro rfl
    have bounds := clampRound_mem value ordered
    refine ⟨bounds.1, bounds.2, ?_, ?_⟩
    · rcases lt_or_ge value (minValue : K) with hlow | hlow
      · left
        rw [clampRound, min_eq_right (hlow.le.trans hcast), max_eq_left hlow.le, llround_intCast]
      · right
        have rounds := (llround_eq_iff (max (minValue : K) (min (maxValue : K) value)) _).mp rfl
        rcases le_or_gt value (maxValue : K) with hhigh | hhigh
        · rw [min_eq_right hhigh, max_eq_right hlow] at rounds
          rw [clampRound, min_eq_right hhigh, max_eq_right hlow]
          exact rounds.above
        · rw [clampRound, min_eq_left hhigh.le, max_eq_right hcast, llround_intCast]
          left
          linarith
    · rcases lt_or_ge (maxValue : K) value with hhigh | hhigh
      · left
        rw [clampRound, min_eq_left hhigh.le, max_eq_right hcast, llround_intCast]
      · right
        have rounds := (llround_eq_iff (max (minValue : K) (min (maxValue : K) value)) _).mp rfl
        rcases le_or_gt (minValue : K) value with hlow | hlow
        · rw [min_eq_right hhigh, max_eq_right hlow] at rounds
          rw [clampRound, min_eq_right hhigh, max_eq_right hlow]
          exact rounds.below
        · rw [clampRound, min_eq_right hhigh, max_eq_left hlow.le, llround_intCast]
          left
          linarith
  · rintro ⟨low, high, above, below⟩
    have hlowCast : (minValue : K) ≤ code := by exact_mod_cast low
    have hhighCast : (code : K) ≤ maxValue := by exact_mod_cast high
    rcases lt_or_ge value (minValue : K) with hlow | hlow
    · rw [clampRound, min_eq_right (hlow.le.trans hcast), max_eq_left hlow.le, llround_intCast]
      rcases above with heq | habove
      · exact heq.symm
      · have hlt : (code : K) < ((minValue + 1 : ℤ) : K) := by
          push_cast
          linarith [habove.le]
        have := Int.cast_lt.mp hlt
        omega
    · rcases lt_or_ge (maxValue : K) value with hhigh | hhigh
      · rw [clampRound, min_eq_left hhigh.le, max_eq_right hcast, llround_intCast]
        rcases below with heq | hbelow
        · exact heq.symm
        · have hlt : (maxValue : K) < ((code + 1 : ℤ) : K) := by
            push_cast
            linarith [hbelow.le]
          have := Int.cast_lt.mp hlt
          omega
      · rw [clampRound, min_eq_right hhigh, max_eq_right hlow, llround_eq_iff]
        constructor
        · rcases above with rfl | habove
          · left
            linarith
          · exact habove
        · rcases below with rfl | hbelow
          · left
            linarith
          · exact hbelow

end DeepcV2x
