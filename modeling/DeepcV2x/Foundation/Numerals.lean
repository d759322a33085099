import DeepcV2x.Foundation.Decimal
import Mathlib.Data.Int.Log
import Mathlib.Data.List.TakeWhile
import Mathlib.Data.Rat.Floor
import Mathlib.Tactic.Linarith
import Mathlib.Tactic.Positivity
import Mathlib.Tactic.Ring

/-!
# Decimal numerals

A numeral in parts, its text and its value, and the conversion of a rational to
a given number of significant digits as an output stream with a precision prints
it: rounded to the nearest with ties to even, without trailing zeros, and with
an exponent where it is below -4 or not below the precision.
-/

namespace DeepcV2x.Foundation.Numerals

open DeepcV2x.Foundation.Strings DeepcV2x.Foundation.Decimal

/-! ## Runs of digits -/

def AllDigits (text : Text) : Prop := ∀ c ∈ text, c.isDigit = true

theorem digitsValue_append (left right : Text) :
    digitsValue (left ++ right) = 10 ^ right.length * digitsValue left + digitsValue right := by
  rw [digitsValue, Nat.ofDigitChars_append, Nat.ofDigitChars_eq_ofDigitChars_zero]
  rfl

theorem digitsValue_zeros (count : Nat) : digitsValue (List.replicate count '0') = 0 := by
  rw [digitsValue, Nat.ofDigitChars_replicate_zero, Nat.mul_zero]

theorem digit_le_nine {c : Char} (hdigit : c.isDigit = true) : digitsValue [c] ≤ 9 := by
  have hle : c.toNat ≤ 57 := by
    have := Char.isDigit_iff_toNat.mp hdigit
    exact this.2
  rw [digitsValue, Nat.ofDigitChars_cons, Nat.ofDigitChars_nil]
  show 10 * 0 + (c.toNat - 48) ≤ 9
  omega

/-- A run of digits is below the power of ten of its length. -/
theorem digitsValue_lt {digits : Text} (hdigits : AllDigits digits) :
    digitsValue digits < 10 ^ digits.length := by
  induction digits with
  | nil => exact Nat.one_pos
  | cons c rest ih =>
      have hrest := ih fun other hmem => hdigits other (List.mem_cons_of_mem _ hmem)
      have hfirst := digit_le_nine (hdigits c List.mem_cons_self)
      calc digitsValue ([c] ++ rest) = 10 ^ rest.length * digitsValue [c] + digitsValue rest :=
            digitsValue_append _ _
        _ < 10 ^ rest.length * digitsValue [c] + 10 ^ rest.length := Nat.add_lt_add_left hrest _
        _ = 10 ^ rest.length * (digitsValue [c] + 1) := by ring
        _ ≤ 10 ^ rest.length * 10 := Nat.mul_le_mul_left _ (by omega)
        _ = 10 ^ (c :: rest).length := by rw [List.length_cons, pow_succ]

theorem allDigits_toDigits (number : Nat) : AllDigits (Nat.toDigits 10 number) :=
  fun _ hmem => Nat.isDigit_of_mem_toDigits (by decide) (by decide) hmem

theorem digitsValue_toDigits (number : Nat) : digitsValue (Nat.toDigits 10 number) = number :=
  Nat.ofDigitChars_ten_toDigits

/-- The numeral of a positive number does not start with a zero. -/
theorem head_toDigits_ne_zero {number : Nat} (hpositive : 0 < number) :
    (Nat.toDigits 10 number).head? ≠ some '0' := by
  have hvalue := digitsValue_toDigits number
  have hdigits := allDigits_toDigits number
  have hlength := @Nat.length_toDigits_le_iff 10 number
  cases htext : Nat.toDigits 10 number with
  | nil => exact fun h => by cases h
  | cons head rest =>
      rintro hhead
      obtain rfl := Option.some.inj hhead
      rw [htext] at hvalue hdigits
      have hrest := digitsValue_lt fun c hmem => hdigits c (List.mem_cons_of_mem _ hmem)
      have hsame : digitsValue rest = number := by
        rw [← hvalue, ← List.singleton_append, digitsValue_append]
        show _ = 10 ^ rest.length * 0 + _
        rw [Nat.mul_zero, Nat.zero_add]
      cases rest with
      | nil =>
          rw [← hsame] at hpositive
          exact absurd hpositive (Nat.lt_irrefl 0)
      | cons second others =>
          have hshort := (@hlength (second :: others).length (by decide)
            (Nat.succ_pos _)).mpr (hsame ▸ hrest)
          rw [htext, List.length_cons] at hshort
          exact absurd hshort (Nat.not_succ_le_self _)

theorem toDigits_ne_nil (number : Nat) : Nat.toDigits 10 number ≠ [] :=
  List.ne_nil_of_length_pos Nat.length_toDigits_pos

/-! ## Numerals -/

/-- A decimal numeral: sign, digits before and after the point, and an exponent. -/
structure Numeral where
  negative : Bool
  whole : Text
  fraction : Text
  exponent : Option ℤ

/-- The exponent with its sign and at least two digits. -/
def exponentText (exponent : ℤ) : Text :=
  'e' :: (if exponent < 0 then '-' else '+') :: paddedDecimal 2 exponent.natAbs

/-- A point only before digits. -/
def fractionText (fraction : Text) : Text := if fraction = [] then [] else '.' :: fraction

namespace Numeral

def signText (numeral : Numeral) : Text := if numeral.negative then ['-'] else []

def text (numeral : Numeral) : Text :=
  numeral.signText ++ (numeral.whole ++ (fractionText numeral.fraction ++
    match numeral.exponent with
    | none => []
    | some exponent => exponentText exponent))

def magnitude (numeral : Numeral) : ℚ :=
  digitsValue (numeral.whole ++ numeral.fraction) *
    (10 : ℚ) ^ (numeral.exponent.getD 0 - (numeral.fraction.length : ℤ))

def value (numeral : Numeral) : ℚ :=
  if numeral.negative then -numeral.magnitude else numeral.magnitude

/-- No leading zero but in a lone zero, and digits only. -/
structure WellFormed (numeral : Numeral) : Prop where
  whole_digits : AllDigits numeral.whole
  whole_ne_nil : numeral.whole ≠ []
  whole_head : numeral.whole = ['0'] ∨ numeral.whole.head? ≠ some '0'
  fraction_digits : AllDigits numeral.fraction

/-- A natural number as a numeral. -/
def ofNat (number : Nat) : Numeral := ⟨false, Nat.toDigits 10 number, [], none⟩

theorem ofNat_text (number : Nat) : (ofNat number).text = Nat.toDigits 10 number := by
  show [] ++ (Nat.toDigits 10 number ++ ([] ++ [])) = _
  rw [List.nil_append, List.append_nil, List.append_nil]

theorem ofNat_value (number : Nat) : (ofNat number).value = number := by
  simp only [value, magnitude, ofNat, List.append_nil, digitsValue_toDigits, List.length_nil,
    Option.getD_none]
  simp

theorem ofNat_wellFormed (number : Nat) : (ofNat number).WellFormed where
  whole_digits := allDigits_toDigits number
  whole_ne_nil := toDigits_ne_nil number
  whole_head := by
    rcases Nat.eq_zero_or_pos number with rfl | hpositive
    · exact Or.inl rfl
    · exact Or.inr (head_toDigits_ne_zero hpositive)
  fraction_digits _ hmem := absurd hmem List.not_mem_nil

end Numeral

/-! ## Rounding -/

/-- Nearest integer, ties to even. -/
def roundHalfEven (number : ℚ) : ℤ :=
  let below := ⌊number⌋
  if number - below < 1 / 2 then below
  else if 1 / 2 < number - below then below + 1
  else if 2 ∣ below then below
  else below + 1

theorem floor_le_roundHalfEven (number : ℚ) : ⌊number⌋ ≤ roundHalfEven number := by
  simp only [roundHalfEven]
  split_ifs <;> omega

theorem roundHalfEven_le_floor_succ (number : ℚ) : roundHalfEven number ≤ ⌊number⌋ + 1 := by
  simp only [roundHalfEven]
  split_ifs <;> omega

theorem abs_roundHalfEven_sub_le (number : ℚ) :
    |(roundHalfEven number : ℚ) - number| ≤ 1 / 2 := by
  have hlow := Int.floor_le number
  have hhigh := Int.lt_floor_add_one number
  simp only [roundHalfEven]
  split_ifs with hbelow habove heven
  · rw [abs_le]
    constructor <;> linarith
  · push_cast
    rw [abs_le]
    constructor <;> linarith
  · rw [abs_le]
    constructor <;> linarith
  · push_cast
    rw [abs_le]
    constructor <;> linarith

/-- Exponent of the leading digit before rounding. -/
def leadingExponent (number : ℚ) : ℤ := Int.log 10 |number|

/-- The magnitude as an integer with `precision` digits before the point, not yet rounded. -/
def scaled (precision : Nat) (number : ℚ) : ℚ :=
  |number| * (10 : ℚ) ^ ((precision : ℤ) - 1 - leadingExponent number)

/-- The rounded digits and the exponent of the first one. -/
def significand (precision : Nat) (number : ℚ) : Nat × ℤ :=
  let digits := (roundHalfEven (scaled precision number)).toNat
  if digits = 10 ^ precision then (10 ^ (precision - 1), leadingExponent number + 1)
  else (digits, leadingExponent number)

/-- The number rounded to `precision` significant digits. -/
def roundSignificant (precision : Nat) (number : ℚ) : ℚ :=
  if number = 0 then 0
  else
    let parts := significand precision number
    let magnitude := (parts.1 : ℚ) * (10 : ℚ) ^ (parts.2 + 1 - (precision : ℤ))
    if number < 0 then -magnitude else magnitude

section Significand

variable {precision : Nat} {number : ℚ}

theorem tenPow_add (left right : ℤ) : (10 : ℚ) ^ (left + right) = 10 ^ left * 10 ^ right :=
  zpow_add₀ (by norm_num) left right

theorem tenPow_pos (exponent : ℤ) : (0 : ℚ) < 10 ^ exponent := zpow_pos (by norm_num) exponent

theorem natCast_tenPow (exponent : Nat) : ((10 ^ exponent : Nat) : ℚ) = 10 ^ (exponent : ℤ) := by
  rw [zpow_natCast]
  push_cast
  rfl

theorem scaled_bounds (hprecision : 0 < precision) (hne : number ≠ 0) :
    ((10 ^ (precision - 1) : Nat) : ℚ) ≤ scaled precision number ∧
      scaled precision number < ((10 ^ precision : Nat) : ℚ) := by
  have hlow := @Int.zpow_log_le_self ℚ _ _ _ _ 10 |number| (by decide) (abs_pos.mpr hne)
  have hhigh := @Int.lt_zpow_succ_log_self ℚ _ _ _ _ 10 (by decide) |number|
  have hshift := tenPow_pos ((precision : ℤ) - 1 - leadingExponent number)
  push_cast at hlow hhigh
  constructor
  · calc ((10 ^ (precision - 1) : Nat) : ℚ)
        = 10 ^ leadingExponent number * 10 ^ ((precision : ℤ) - 1 - leadingExponent number) := by
          rw [natCast_tenPow, ← tenPow_add]
          congr 1
          omega
      _ ≤ scaled precision number := mul_le_mul_of_nonneg_right hlow hshift.le
  · calc scaled precision number
        < 10 ^ (leadingExponent number + 1) *
            10 ^ ((precision : ℤ) - 1 - leadingExponent number) :=
          mul_lt_mul_of_pos_right hhigh hshift
      _ = ((10 ^ precision : Nat) : ℚ) := by
          rw [natCast_tenPow, ← tenPow_add]
          congr 1
          omega

theorem rounded_bounds (hprecision : 0 < precision) (hne : number ≠ 0) :
    ((10 ^ (precision - 1) : Nat) : ℤ) ≤ roundHalfEven (scaled precision number) ∧
      roundHalfEven (scaled precision number) ≤ ((10 ^ precision : Nat) : ℤ) := by
  obtain ⟨hlow, hhigh⟩ := scaled_bounds hprecision hne
  have hfloor : ((10 ^ (precision - 1) : Nat) : ℤ) ≤ ⌊scaled precision number⌋ :=
    Int.le_floor.mpr (by exact_mod_cast hlow)
  have hceil : ⌊scaled precision number⌋ < ((10 ^ precision : Nat) : ℤ) :=
    Int.floor_lt.mpr (by exact_mod_cast hhigh)
  have hbelow := floor_le_roundHalfEven (scaled precision number)
  have habove := roundHalfEven_le_floor_succ (scaled precision number)
  constructor <;> omega

theorem significand_bounds (hprecision : 0 < precision) (hne : number ≠ 0) :
    10 ^ (precision - 1) ≤ (significand precision number).1 ∧
      (significand precision number).1 < 10 ^ precision := by
  obtain ⟨hlow, hhigh⟩ := rounded_bounds hprecision hne
  have hless : 10 ^ (precision - 1) < 10 ^ precision :=
    Nat.pow_lt_pow_right (by decide) (Nat.sub_lt hprecision Nat.one_pos)
  simp only [significand]
  split
  next => exact ⟨le_refl _, hless⟩
  next hnocarry =>
    generalize 10 ^ (precision - 1) = low at *
    generalize 10 ^ precision = high at *
    constructor <;> omega

/-- Carrying into a new leading digit does not change the value. -/
theorem significand_value (hprecision : 0 < precision) (hne : number ≠ 0) :
    ((significand precision number).1 : ℚ) *
        (10 : ℚ) ^ ((significand precision number).2 + 1 - (precision : ℤ)) =
      roundHalfEven (scaled precision number) *
        (10 : ℚ) ^ (leadingExponent number + 1 - (precision : ℤ)) := by
  obtain ⟨hlow, hhigh⟩ := rounded_bounds hprecision hne
  have hnonneg : 0 ≤ roundHalfEven (scaled precision number) :=
    (Int.natCast_nonneg _).trans hlow
  have hcast : (((roundHalfEven (scaled precision number)).toNat : ℤ) : ℚ) =
      roundHalfEven (scaled precision number) := by
    rw [Int.toNat_of_nonneg hnonneg]
  rw [← hcast, Int.cast_natCast]
  simp only [significand]
  split
  next hcarry =>
    rw [hcarry, natCast_tenPow, natCast_tenPow, ← tenPow_add, ← tenPow_add]
    congr 1
    omega
  next => rfl

/-- Rounding moves a number by at most half a unit of its last significant digit. -/
theorem abs_roundSignificant_sub_le (hprecision : 0 < precision) :
    |roundSignificant precision number - number| ≤
      |number| * (10 : ℚ) ^ (1 - (precision : ℤ)) / 2 := by
  by_cases hne : number = 0
  · rw [roundSignificant, if_pos hne, hne]
    simp
  have hunit := tenPow_pos (leadingExponent number + 1 - (precision : ℤ))
  have hscaled : |number| = scaled precision number *
      10 ^ (leadingExponent number + 1 - (precision : ℤ)) := by
    rw [scaled, mul_assoc, ← tenPow_add]
    rw [show (precision : ℤ) - 1 - leadingExponent number +
      (leadingExponent number + 1 - (precision : ℤ)) = 0 by ring, zpow_zero, mul_one]
  have hmagnitude : abs (((significand precision number).1 : ℚ) *
        10 ^ ((significand precision number).2 + 1 - (precision : ℤ)) - |number|) ≤
      1 / 2 * 10 ^ (leadingExponent number + 1 - (precision : ℤ)) := by
    rw [significand_value hprecision hne]
    rw [hscaled, ← sub_mul, abs_mul, abs_of_pos hunit]
    exact mul_le_mul_of_nonneg_right (abs_roundHalfEven_sub_le _) hunit.le
  have hlow := @Int.zpow_log_le_self ℚ _ _ _ _ 10 |number| (by decide) (abs_pos.mpr hne)
  push_cast at hlow
  have hbound : 1 / 2 * (10 : ℚ) ^ (leadingExponent number + 1 - (precision : ℤ)) ≤
      |number| * 10 ^ (1 - (precision : ℤ)) / 2 := by
    rw [add_sub_assoc, tenPow_add]
    have := mul_le_mul_of_nonneg_right hlow (tenPow_pos (1 - (precision : ℤ))).le
    simp only [leadingExponent]
    linarith
  refine le_trans ?_ (hmagnitude.trans hbound)
  rw [roundSignificant, if_neg hne]
  dsimp only
  split
  next hnegative =>
    rw [abs_of_neg hnegative, ← abs_neg]
    apply le_of_eq
    congr 1
    ring
  next hnonneg => rw [abs_of_nonneg (not_lt.mp hnonneg)]

end Significand

/-! ## Printing with a precision -/

/-- Digits without their trailing zeros. -/
def stripZeros (digits : Text) : Text := (digits.reverse.dropWhile (· = '0')).reverse

theorem stripZeros_append_zeros (digits : Text) :
    ∃ count, digits = stripZeros digits ++ List.replicate count '0' := by
  have hzeros : ∀ c ∈ digits.reverse.takeWhile (· = '0'), c = '0' := by
    intro c hmem
    have := List.mem_takeWhile_imp hmem
    rwa [decide_eq_true_eq] at this
  refine ⟨(digits.reverse.takeWhile (· = '0')).length, ?_⟩
  have hreverse : digits.reverse =
      List.replicate (digits.reverse.takeWhile (· = '0')).length '0' ++
        digits.reverse.dropWhile (· = '0') := by
    rw [← List.eq_replicate_of_mem hzeros, List.takeWhile_append_dropWhile]
  have hdigits := congrArg List.reverse hreverse
  rwa [List.reverse_reverse, List.reverse_append, List.reverse_replicate] at hdigits

/-- The numeral an output stream prints for a number in its default notation. -/
def formatNumeral (precision : Nat) (number : ℚ) : Numeral :=
  if number = 0 then Numeral.ofNat 0
  else
    let parts := significand precision number
    let digits := Nat.toDigits 10 parts.1
    if parts.2 < -4 ∨ (precision : ℤ) ≤ parts.2 then
      ⟨number < 0, digits.take 1, stripZeros (digits.drop 1), some parts.2⟩
    else if parts.2 < 0 then
      ⟨number < 0, ['0'], stripZeros (List.replicate (-parts.2 - 1).toNat '0' ++ digits), none⟩
    else
      ⟨number < 0, digits.take (parts.2.toNat + 1),
        stripZeros (digits.drop (parts.2.toNat + 1)), none⟩

def formatGeneral (precision : Nat) (number : ℚ) : Text := (formatNumeral precision number).text

/-- Trailing zeros of the fraction do not count. -/
theorem magnitude_stripZeros (negative : Bool) (whole fraction : Text) (exponent : Option ℤ) :
    Numeral.magnitude ⟨negative, whole, stripZeros fraction, exponent⟩ =
      Numeral.magnitude ⟨negative, whole, fraction, exponent⟩ := by
  obtain ⟨count, hfraction⟩ := stripZeros_append_zeros fraction
  have hvalue : digitsValue (whole ++ fraction) =
      10 ^ count * digitsValue (whole ++ stripZeros fraction) := by
    conv_lhs => rw [hfraction, ← List.append_assoc]
    rw [digitsValue_append, digitsValue_zeros, List.length_replicate, Nat.add_zero]
  have hlength : fraction.length = (stripZeros fraction).length + count := by
    conv_lhs => rw [hfraction]
    rw [List.length_append, List.length_replicate]
  simp only [Numeral.magnitude]
  rw [hvalue, Nat.cast_mul, natCast_tenPow, hlength, mul_assoc, mul_left_comm, ← tenPow_add]
  congr 2
  push_cast
  ring

section Format

variable {precision : Nat} {number : ℚ}

theorem length_significand (hprecision : 0 < precision) (hne : number ≠ 0) :
    (Nat.toDigits 10 (significand precision number).1).length = precision := by
  obtain ⟨hlow, hhigh⟩ := significand_bounds hprecision hne
  have hle := (Nat.length_toDigits_le_iff (by decide) hprecision).mpr hhigh
  have hpositive := @Nat.length_toDigits_pos 10 (significand precision number).1
  rcases Nat.eq_zero_or_pos (precision - 1) with hone | hmore
  · omega
  · have hnot : ¬ (Nat.toDigits 10 (significand precision number).1).length ≤ precision - 1 := by
      intro hshort
      have hsmall := (Nat.length_toDigits_le_iff (by decide) hmore).mp hshort
      exact absurd hsmall (Nat.not_lt.mpr hlow)
    omega

theorem significand_pos (hprecision : 0 < precision) (hne : number ≠ 0) :
    0 < (significand precision number).1 :=
  lt_of_lt_of_le (Nat.pow_pos (by decide)) (significand_bounds hprecision hne).1

/-- A numeral that starts with the leading digits of a positive number is well formed. -/
theorem wellFormed_take {digits fraction : Text} (hdigits : AllDigits digits)
    (hhead : digits.head? ≠ some '0') (hne : digits ≠ []) (hfraction : AllDigits fraction)
    (negative : Bool) (count : Nat) (exponent : Option ℤ) :
    Numeral.WellFormed ⟨negative, digits.take (count + 1), fraction, exponent⟩ where
  whole_digits c hmem := hdigits c (List.mem_of_mem_take hmem)
  whole_ne_nil := by
    cases digits with
    | nil => exact absurd rfl hne
    | cons head tail => exact List.cons_ne_nil _ _
  whole_head := by
    cases digits with
    | nil => exact absurd rfl hne
    | cons head tail => exact Or.inr hhead
  fraction_digits := hfraction

theorem allDigits_stripZeros {digits : Text} (hdigits : AllDigits digits) :
    AllDigits (stripZeros digits) := by
  obtain ⟨count, hsplit⟩ := stripZeros_append_zeros digits
  intro c hmem
  exact hdigits c (hsplit ▸ List.mem_append_left _ hmem)

theorem formatNumeral_wellFormed (hprecision : 0 < precision) :
    (formatNumeral precision number).WellFormed := by
  by_cases hne : number = 0
  · rw [formatNumeral, if_pos hne]
    exact Numeral.ofNat_wellFormed 0
  have hdigits := allDigits_toDigits (significand precision number).1
  have hhead := head_toDigits_ne_zero (significand_pos hprecision hne)
  have hnonempty := toDigits_ne_nil (significand precision number).1
  have hdrop : ∀ count, AllDigits
      (stripZeros ((Nat.toDigits 10 (significand precision number).1).drop count)) :=
    fun count => allDigits_stripZeros fun c hmem => hdigits c (List.mem_of_mem_drop hmem)
  rw [formatNumeral, if_neg hne]
  dsimp only
  split
  · exact wellFormed_take hdigits hhead hnonempty (hdrop 1) _ 0 _
  · split
    · refine ⟨?_, List.cons_ne_nil _ _, Or.inl rfl, allDigits_stripZeros ?_⟩
      · intro c hmem
        rw [List.mem_singleton.mp hmem]
        rfl
      · intro c hmem
        rcases List.mem_append.mp hmem with hzero | hdigit
        · rw [List.eq_of_mem_replicate hzero]
          rfl
        · exact hdigits c hdigit
    · exact wellFormed_take hdigits hhead hnonempty (hdrop _) _ _ _

/-- The printed numeral has the magnitude of the rounded digits. -/
theorem formatNumeral_magnitude (hprecision : 0 < precision) (hne : number ≠ 0) :
    (formatNumeral precision number).magnitude =
      ((significand precision number).1 : ℚ) *
        10 ^ ((significand precision number).2 + 1 - (precision : ℤ)) := by
  have hlength := length_significand hprecision hne
  have hvalue := digitsValue_toDigits (significand precision number).1
  rw [formatNumeral, if_neg hne]
  dsimp only
  split
  · rw [magnitude_stripZeros]
    simp only [Numeral.magnitude, List.take_append_drop, hvalue, List.length_drop, hlength,
      Option.getD_some]
    congr 2
    omega
  next hplain =>
    obtain ⟨hlow, hhigh⟩ := not_or.mp hplain
    split
    next hsmall =>
      rw [magnitude_stripZeros]
      simp only [Numeral.magnitude, Option.getD_none, List.length_append, List.length_replicate,
        hlength]
      rw [digitsValue_append, digitsValue_append, digitsValue_zeros, hvalue,
        show digitsValue ['0'] = 0 from rfl, Nat.mul_zero, Nat.mul_zero, Nat.zero_add, Nat.zero_add]
      congr 2
      omega
    next hlarge =>
      rw [magnitude_stripZeros]
      simp only [Numeral.magnitude, List.take_append_drop, hvalue, List.length_drop, hlength,
        Option.getD_none]
      congr 2
      omega

/-- The printed numeral is the rounded number. -/
theorem formatNumeral_value (hprecision : 0 < precision) :
    (formatNumeral precision number).value = roundSignificant precision number := by
  by_cases hne : number = 0
  · rw [formatNumeral, if_pos hne, roundSignificant, if_pos hne, Numeral.ofNat_value]
    rfl
  have hnegative : (formatNumeral precision number).negative = decide (number < 0) := by
    rw [formatNumeral, if_neg hne]
    dsimp only
    split
    · rfl
    · split <;> rfl
  rw [Numeral.value, formatNumeral_magnitude hprecision hne, hnegative, roundSignificant,
    if_neg hne]
  simp only [decide_eq_true_eq]

end Format

end DeepcV2x.Foundation.Numerals
