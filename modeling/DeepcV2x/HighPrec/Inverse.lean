import DeepcV2x.HighPrec.Arithmetic

/-!
# Division by multiplication with an inverse

`Invert` rounds the inverse up.  The error of a product with it is less than
one part of the divisor, so that no integer boundary is crossed.
-/

namespace DeepcV2x.HighPrec

open Foundation Watched

namespace Int64x64

theorem toUnsigned_ofWord {result : Nat} (hlt : result < 2 ^ 128) :
    toUnsigned (ofWord result).v = result := by
  rw [toUnsigned, ofWord_v, Int.bmod]
  omega

theorem toInt64_eq {v : Int} (hlow : -9223372036854775808 ≤ v) (hhigh : v < 9223372036854775808) :
    toInt64 v = v :=
  Int.bmod_eq_of_le (Int.le_trans (by decide) hlow) (Int.lt_of_lt_of_le hhigh (by decide))

theorem ofInt_v {x : Int} (hx : x.natAbs < 2 ^ 63) : (ofInt x).v = x * 2 ^ 64 :=
  ofWord_v_eq (by omega) (by omega)

theorem magnitude_ofInt {x : Int} (hx : x.natAbs < 2 ^ 63) :
    magnitude (ofInt x).v = x.natAbs * 2 ^ 64 := by
  rw [magnitude_eq, ofInt_v hx, Int.natAbs_mul]
  rfl

theorem ofParts_eq {v : Nat} (hv : v < 2 ^ 63) : ofParts v 0 = ofInt v := by
  rw [ofParts, toInt64_eq (by omega) (by omega), ofInt]
  exact congrArg ofWord (Int.add_zero _)

/-- A number without fraction is multiplied by an inverse as a whole. -/
theorem umulByInvert_gives {n b : Nat} (hn : n < 2 ^ 63) (hb : b ≤ 2 ^ 127) :
    (umulByInvert (n * 2 ^ 64) b).Gives (n * b / 2 ^ 64) := by
  have hparts : n * b / 2 ^ 64 =
      n * (b / 2 ^ 64) + (n * (b % 2 ^ 64) + 0 * (b / 2 ^ 64)) / 2 ^ 64 := by
    have hb' : n * b = n * (b % 2 ^ 64) + 2 ^ 64 * (n * (b / 2 ^ 64)) := by
      conv_lhs => rw [← Nat.mod_add_div b (2 ^ 64)]
      ring
    rw [hb', Nat.add_mul_div_left _ _ (by decide), Nat.add_comm, Nat.zero_mul, Nat.add_zero]
  have hhigh : n * (b / 2 ^ 64) ≤ 2 ^ 63 * 2 ^ 63 :=
    Nat.mul_le_mul (Nat.le_of_lt hn) (by omega)
  have hmid : n * (b % 2 ^ 64) ≤ 2 ^ 63 * 2 ^ 64 :=
    Nat.mul_le_mul (Nat.le_of_lt hn) (Nat.le_of_lt (Nat.mod_lt _ (by decide)))
  rw [hparts]
  simp only [umulByInvert, and_hpMaskLo, Nat.shiftRight_eq_div_pow, Nat.mul_mod_left,
    Nat.mul_div_cancel _ (Nat.two_pow_pos 64)]
  refine (gives_assert hb).bind ?_
  refine (mul128_gives (by omega)).bind ?_
  refine (mul128_gives (by omega)).bind ?_
  refine (mul128_gives (by omega)).bind ?_
  refine (add128_gives (by omega)).bind ?_
  exact add128_gives (by omega)

/-- The integer part of a magnitude with its sign. -/
theorem getInt_signed {a : Int64x64} {negative : Bool} {result : Nat}
    (heq : a.v = signed negative result) (hle : result ≤ 2 ^ 126) :
    a.getInt = signed negative (result / 2 ^ 64) := by
  have hmagnitude : a.v.natAbs = result := by
    rw [heq, signed]
    split <;> omega
  have hretval : toInt64 (result / 2 ^ 64 : Nat) = (result / 2 ^ 64 : Nat) :=
    toInt64_eq (by omega) (by omega)
  rw [getInt, magnitude_eq, hmagnitude, Nat.shiftRight_eq_div_pow, hretval,
    toInt64_eq (by omega) (by omega), heq, signed, signed]
  cases negative with
  | true =>
      rw [if_pos rfl, if_pos rfl]
      split <;> omega
  | false =>
      rw [if_neg Bool.false_ne_true, if_neg Bool.false_ne_true, if_neg (by omega)]

/-- The inverse of a divisor, rounded up. -/
structure IsInverse (v : Nat) (inverse : Int64x64) : Prop where
  le : toUnsigned inverse.v ≤ 2 ^ 127
  low : 2 ^ 128 ≤ v * toUnsigned inverse.v
  high : v * toUnsigned inverse.v < 2 ^ 128 + v

/-- A product with an inverse. -/
theorem mulByInvert_gives {x : Int} {inverse product : Int64x64} (hx : x.natAbs < 2 ^ 63)
    (hle : toUnsigned inverse.v ≤ 2 ^ 127)
    (hproduct : product.v =
      signed (decide (x < 0)) (x.natAbs * toUnsigned inverse.v / 2 ^ 64)) :
    (mulByInvert (ofInt x) inverse).Gives product := by
  have hneg : decide (x < 0) = decide ((ofInt x).v < 0) := by
    rw [decide_eq_decide, ofInt_v hx]
    omega
  have hword := ofWord_signed hproduct
  rw [mulByInvert, magnitude_ofInt hx]
  refine (umulByInvert_gives hx hle).bind ?_
  rw [hneg] at hword
  simp only [decide_eq_true_eq] at hword
  rw [hword]
  exact gives_pure product

/-- The test multiplication in `Invert` gives one exactly for an exact inverse. -/
theorem getHigh_test {v quotient : Nat} (hle : v * quotient ≤ 2 ^ 128) :
    (ofWord (v * quotient / 2 ^ 64 : Nat)).getHigh = 1 ↔ v * quotient = 2 ^ 128 := by
  have hv : (ofWord (v * quotient / 2 ^ 64 : Nat)).v = (v * quotient / 2 ^ 64 : Nat) :=
    ofWord_v_eq (by omega) (by omega)
  rw [getHigh, hv, Int.shiftRight_eq_div_pow, toInt64_eq (by omega) (by omega)]
  omega

/-- The inverse of a divisor is rounded up by one unless it is exact. -/
theorem invert_gives {v : Nat} (hv : 1 < v) (hlt : v < 2 ^ 63) :
    ∃ inverse, (invert v).Gives inverse ∧ IsInverse v inverse := by
  have hsplit := Nat.div_add_mod (2 ^ 128) v
  have hmod := Nat.mod_lt (2 ^ 128) (Nat.lt_trans Nat.zero_lt_one hv)
  have hhalf : 2 ^ 128 / v ≤ 2 ^ 127 := by
    rw [Nat.div_le_iff_le_mul_add_pred (by omega)]
    omega
  have hudiv : (udiv (1 * 2 ^ 64) v).Gives (2 ^ 128 / v) :=
    udiv_gives (by omega) (by omega) (Nat.lt_of_le_of_lt hhalf (by decide))
  generalize 2 ^ 128 / v = quotient at *
  have hword := @toUnsigned_ofWord quotient (by omega)
  have htest : (mulByInvert (ofInt v) (ofWord quotient)).Gives
      (ofWord (v * quotient / 2 ^ 64 : Nat)) := by
    refine mulByInvert_gives (by omega) (by rw [hword]; exact hhalf) ?_
    rw [hword, decide_eq_false (by omega), Int.natAbs_natCast]
    exact ofWord_v_eq (by omega) (by omega)
  have hgives : ∀ inverse, Gives (if (ofWord (v * quotient / 2 ^ 64 : Nat)).getHigh ≠ 1 then do
      pure (ofWord (← signedWord 128 ((ofWord quotient).v + 1))) else pure (ofWord quotient))
        inverse → (invert v).Gives inverse := by
    intro inverse hrest
    rw [invert]
    refine (gives_assert hv).bind ?_
    refine (@shl128_gives 1 64 (by omega)).bind ?_
    refine hudiv.bind ?_
    rw [ofParts_eq hlt]
    exact htest.bind hrest
  by_cases hexact : v * quotient = 2 ^ 128
  · refine ⟨ofWord quotient, hgives _ ?_, by rw [hword]; exact hhalf, by rw [hword]; omega,
      by rw [hword]; omega⟩
    rw [if_neg (not_not.mpr ((getHigh_test (by omega)).mpr hexact))]
    exact gives_pure _
  · have hodd : 3 * quotient < 2 ^ 128 := by
      rcases Nat.lt_or_ge 2 v with hthree | htwo
      · exact Nat.lt_of_le_of_lt (Nat.mul_le_mul_right quotient hthree) (by omega)
      · obtain rfl : v = 2 := by omega
        omega
    have hquotient : (ofWord quotient).v = quotient := ofWord_v_eq (by omega) (by omega)
    have hnext := @toUnsigned_ofWord (quotient + 1) (by omega)
    have hproduct : v * (quotient + 1) = v * quotient + v := Nat.mul_succ v quotient
    refine ⟨ofWord (quotient + 1 : Nat), hgives _ ?_, by rw [hnext]; omega, by rw [hnext]; omega,
      by rw [hnext]; omega⟩
    rw [if_pos fun h => hexact ((getHigh_test (by omega)).mp h), hquotient]
    exact (gives_signedWord (bmod_self (by omega) (by omega))).bind (gives_pure _)

/-- The error of the rounded inverse crosses no integer boundary. -/
theorem mul_inverse_div {n v inverse : Nat} (hv : 0 < v) (hn : n < 2 ^ 63) (hlt : v < 2 ^ 63)
    (hlow : 2 ^ 128 ≤ v * inverse) (hhigh : v * inverse < 2 ^ 128 + v) :
    n * inverse / 2 ^ 128 = n / v := by
  obtain ⟨error, herror⟩ := Nat.exists_eq_add_of_le hlow
  have hproduct : v * (n * inverse) = n * 2 ^ 128 + n * error := by
    rw [Nat.mul_left_comm, herror, Nat.mul_add]
  have hsmall : n * error < 2 ^ 128 :=
    Nat.lt_of_le_of_lt (Nat.mul_le_mul (Nat.le_of_lt hn) (by omega : error ≤ 2 ^ 63)) (by omega)
  have hsplit := Nat.div_add_mod n v
  have hmod := Nat.mod_lt n hv
  have hnext : v * (n / v * 2 ^ 128 + 2 ^ 128) = v * (n / v) * 2 ^ 128 + v * 2 ^ 128 := by
    rw [Nat.mul_add, Nat.mul_assoc]
  have hbelow : n * inverse < n / v * 2 ^ 128 + 2 ^ 128 := by
    refine Nat.lt_of_mul_lt_mul_left (a := v) ?_
    rw [hproduct, hnext]
    omega
  have habove : n / v * 2 ^ 128 ≤ n * inverse := by
    refine Nat.le_of_mul_le_mul_left ?_ hv
    rw [hproduct, ← Nat.mul_assoc]
    omega
  rw [Nat.div_eq_iff (by omega)]
  omega

/-- Multiplying an integer by the inverse of a divisor divides it, rounded toward zero. -/
theorem mulByInvert_invert (v : Nat) (x : Int) (hv : 1 < v) (hlt : v < 2 ^ 63)
    (hx : x.natAbs < 2 ^ 63) :
    (ofInt x).v = x * 2 ^ 64 ∧ ∃ inverse product, (invert v).Gives inverse ∧
      (mulByInvert (ofInt x) inverse).Gives product ∧ -2 ^ 127 < product.v ∧
        product.getInt = x.tdiv v := by
  obtain ⟨inverse, hinverse, hle, hlow, hhigh⟩ := invert_gives hv hlt
  have hdiv := mul_inverse_div (Nat.lt_trans Nat.zero_lt_one hv) hx hlt hlow hhigh
  have hbound : x.natAbs * toUnsigned inverse.v ≤ 2 ^ 63 * 2 ^ 127 :=
    Nat.mul_le_mul (Nat.le_of_lt hx) hle
  have hquotient : x.natAbs * toUnsigned inverse.v / 2 ^ 64 / 2 ^ 64 = x.natAbs / v := by
    rw [Nat.div_div_eq_div_mul]
    exact hdiv
  have hsigned : ∀ result : Nat, result ≤ 2 ^ 126 →
      (ofWord (signed (decide (x < 0)) result)).v = signed (decide (x < 0)) result := by
    intro result hresult
    rw [signed]
    split <;> exact ofWord_v_eq (by omega) (by omega)
  have hproduct := hsigned _ (by omega : x.natAbs * toUnsigned inverse.v / 2 ^ 64 ≤ 2 ^ 126)
  refine ⟨ofInt_v hx, inverse, _, hinverse, mulByInvert_gives hx hle hproduct, ?_, ?_⟩
  · rw [hproduct, signed]
    split <;> omega
  · rw [getInt_signed hproduct (by omega), hquotient]
    conv_rhs => rw [← signed_natAbs x, show (v : Int) = signed false v from rfl, signed_tdiv]
    rw [Bool.bne_false]

/-- A negative number is divided by three. -/
theorem mulByInvert_invert_seven : (ofInt (-7)).v = -7 * 2 ^ 64 ∧ ∃ inverse product,
    (invert 3).Gives inverse ∧ (mulByInvert (ofInt (-7)) inverse).Gives product ∧
      -2 ^ 127 < product.v ∧ product.getInt = -2 :=
  mulByInvert_invert 3 (-7) (by decide) (by decide) (by decide)

end Int64x64

end DeepcV2x.HighPrec
