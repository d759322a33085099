import DeepcV2x.HighPrec.Int64x64
import Mathlib.Tactic.Linarith

/-!
# Exact multiplication and division

Both operations work on magnitudes and give the sign back at the end.  The long
division keeps the quotient and the remainder of the numerator, extended by the
digits it already has.
-/

namespace DeepcV2x.HighPrec

open Foundation Watched

/-! ## Words -/

theorem and_hpMaskLo (a : Nat) : a &&& hpMaskLo = a % 2 ^ 64 :=
  Nat.and_two_pow_sub_one_eq_mod a 64

theorem and_maskHiBit_eq_zero {a : Nat} (hlt : a < 2 ^ 128) :
    a &&& hp128MaskHiBit = 0 ↔ a < 2 ^ 127 := by
  rw [hp128MaskHiBit, Nat.and_two_pow, Nat.testBit_eq_decide_div_mod_eq]
  by_cases hbit : a / 2 ^ 127 % 2 = 1
  · rw [decide_eq_true hbit]
    simp only [Bool.toNat_true, Nat.one_mul]
    omega
  · rw [decide_eq_false hbit]
    simp only [Bool.toNat_false, Nat.zero_mul, true_iff]
    omega

theorem add128_gives {a b : Nat} (hlt : a + b < 2 ^ 128) : (add128 a b).Gives (a + b) :=
  gives_word hlt

theorem mul128_gives {a b : Nat} (hlt : a * b < 2 ^ 128) : (mul128 a b).Gives (a * b) :=
  gives_word hlt

theorem shl128_gives {a count : Nat} (hlt : a * 2 ^ count < 2 ^ 128) :
    (shl128 a count).Gives (a * 2 ^ count) := by
  rw [shl128, Nat.shiftLeft_eq]
  exact gives_word hlt

theorem ofWord_eq {q : Int64x64} {v : Int} (heq : v.bmod (2 ^ 128) = q.v) : ofWord v = q :=
  Int64x64.ext heq

theorem bmod_self {v : Int} (hlow : -170141183460469231731687303715884105728 ≤ v)
    (hhigh : v < 170141183460469231731687303715884105728) : v.bmod (2 ^ 128) = v :=
  Int.bmod_eq_of_le (Int.le_trans (by decide) hlow) (Int.lt_of_lt_of_le hhigh (by decide))

theorem ofWord_v_eq {v : Int} (hlow : -170141183460469231731687303715884105728 ≤ v)
    (hhigh : v < 170141183460469231731687303715884105728) : (ofWord v).v = v :=
  (ofWord_v v).trans (bmod_self hlow hhigh)

namespace Int64x64

theorem natAbs_le (a : Int64x64) : a.v.natAbs ≤ 2 ^ 127 := by
  have hlow := a.low
  have hhigh := a.high
  omega

theorem magnitude_eq (a : Int64x64) : magnitude a.v = a.v.natAbs := by
  have hlow := a.low
  have hhigh := a.high
  rw [magnitude, neg128, toUnsigned]
  split <;> omega

theorem outputSign_eq (a b : Int64x64) : outputSign a.v b.v =
    (decide (a.v < 0) != decide (b.v < 0), a.v.natAbs, b.v.natAbs) := by
  rw [outputSign, magnitude_eq, magnitude_eq]

/-- A magnitude with its sign. -/
def signed (negative : Bool) (result : Nat) : Int := if negative then -result else result

theorem signed_two_pow : signed false (2 ^ digits) = 2 ^ 64 :=
  Nat.cast_pow 2 64

theorem signed_natAbs (a : Int) : signed (decide (a < 0)) a.natAbs = a := by
  by_cases ha : a < 0
  · rw [decide_eq_true ha, signed, if_pos rfl]
    omega
  · rw [decide_eq_false ha, signed, if_neg Bool.false_ne_true]
    omega

theorem signed_mul (negA negB : Bool) (a b : Nat) :
    signed negA a * signed negB b = signed (negA != negB) (a * b) := by
  cases negA <;> cases negB <;> simp [signed]

/-- A quotient of numbers with signs is rounded toward zero. -/
theorem signed_tdiv (negA negB : Bool) (a b : Nat) :
    (signed negA a).tdiv (signed negB b) = signed (negA != negB) (a / b) := by
  cases negA <;> cases negB <;> simp [signed, Int.neg_tdiv, Int.tdiv_neg]

/-- The conversion of a magnitude with its sign. -/
theorem ofWord_signed {q : Int64x64} {negative : Bool} {result : Nat}
    (heq : q.v = signed negative result) :
    ofWord (if negative then neg128 result else result : Nat) = q := by
  have hlow := q.low
  have hhigh := q.high
  apply ofWord_eq
  cases negative with
  | true =>
      have hresult : q.v = -(result : Int) := heq
      rw [if_pos rfl, neg128, hresult, Int.bmod]
      omega
  | false =>
      have hresult : q.v = (result : Int) := heq
      rw [if_neg Bool.false_ne_true, ← hresult]
      exact bmod_self hlow hhigh

theorem signed_lt {q : Int64x64} {negative : Bool} {result : Nat}
    (heq : q.v = signed negative result) : result < 2 ^ 128 := by
  have hlow := q.low
  have hhigh := q.high
  rw [signed] at heq
  split at heq <;> omega

/-! ## Multiplication -/

/-- The low halves and the high halves of the factors. -/
theorem mul_halves (a b : Nat) :
    a * b / 2 ^ 64 = a % 2 ^ 64 * (b % 2 ^ 64) / 2 ^ 64 +
      (a / 2 ^ 64 * (b % 2 ^ 64) + a % 2 ^ 64 * (b / 2 ^ 64)) + a / 2 ^ 64 * (b / 2 ^ 64) * 2 ^ 64 := by
  have hproduct : a * b = a % 2 ^ 64 * (b % 2 ^ 64) +
      2 ^ 64 * (a / 2 ^ 64 * (b % 2 ^ 64) + a % 2 ^ 64 * (b / 2 ^ 64) +
        a / 2 ^ 64 * (b / 2 ^ 64) * 2 ^ 64) := by
    conv_lhs => rw [← Nat.div_add_mod a (2 ^ 64), ← Nat.div_add_mod b (2 ^ 64)]
    ring
  conv_lhs => rw [hproduct, Nat.add_mul_div_left _ _ (by decide)]
  simp only [Nat.add_assoc]

/-- The bounds of the partial products. -/
theorem halves_le {a b : Nat} (ha : a ≤ 2 ^ 127) (hb : b ≤ 2 ^ 127) :
    a % 2 ^ 64 * (b % 2 ^ 64) < 2 ^ 128 ∧
      a / 2 ^ 64 * (b % 2 ^ 64) ≤ 2 ^ 63 * (2 ^ 64 - 1) ∧
      a % 2 ^ 64 * (b / 2 ^ 64) ≤ (2 ^ 64 - 1) * 2 ^ 63 ∧
      a % 2 ^ 64 * (b % 2 ^ 64) / 2 ^ 64 < 2 ^ 64 ∧ a / 2 ^ 64 * (b / 2 ^ 64) ≤ 2 ^ 63 * 2 ^ 63 := by
  have hal : a % 2 ^ 64 ≤ 2 ^ 64 - 1 := by omega
  have hbl : b % 2 ^ 64 ≤ 2 ^ 64 - 1 := by omega
  have hah : a / 2 ^ 64 ≤ 2 ^ 63 := by omega
  have hbh : b / 2 ^ 64 ≤ 2 ^ 63 := by omega
  have hlow := Nat.mul_le_mul hal hbl
  exact ⟨by omega, Nat.mul_le_mul hah hbl, Nat.mul_le_mul hal hbh, by omega, Nat.mul_le_mul hah hbh⟩

/-- `Umul` gives the product of numbers whose product fits. -/
theorem umul_gives {a b : Nat} (ha : a ≤ 2 ^ 127) (hb : b ≤ 2 ^ 127)
    (hfits : a * b / 2 ^ 64 ≤ 2 ^ 127) : (umul a b).Gives (a * b / 2 ^ 64) := by
  obtain ⟨hlow, hleft, hright, hcarry, hhigh⟩ := halves_le ha hb
  rw [mul_halves] at hfits ⊢
  simp only [umul, and_hpMaskLo, Nat.shiftRight_eq_div_pow]
  refine (mul128_gives hlow).bind ?_
  refine (mul128_gives (by omega)).bind ?_
  refine (mul128_gives (by omega)).bind ?_
  refine (add128_gives (by omega)).bind ?_
  refine (add128_gives (by omega)).bind ?_
  refine (mul128_gives (by omega)).bind ?_
  refine (gives_assert (by omega)).bind ?_
  refine (shl128_gives (by omega)).bind ?_
  refine (add128_gives (by omega)).bind ?_
  exact (gives_assert (Nat.le_add_right _ _)).bind (add128_gives (by omega))

/-- A product that fits is exact up to the truncation toward zero. -/
theorem mul_gives {a b q : Int64x64} (hq : q.v = (a.v * b.v).tdiv (2 ^ 64)) :
    (mul a b).Gives q := by
  have hlow := q.low
  have hhigh := q.high
  have hsigned : q.v = signed (decide (a.v < 0) != decide (b.v < 0))
      (a.v.natAbs * b.v.natAbs / 2 ^ 64) := by
    conv_lhs => rw [hq, ← signed_natAbs a.v, ← signed_natAbs b.v, signed_mul]
    rw [← signed_two_pow, signed_tdiv, Bool.bne_false, digits]
  have hword := ofWord_signed hsigned
  rw [mul, outputSign_eq]
  cases hnegative : decide (a.v < 0) != decide (b.v < 0) with
  | true =>
      rw [hnegative, signed, if_pos rfl] at hsigned
      rw [hnegative, if_pos rfl] at hword
      refine (umul_gives a.natAbs_le b.natAbs_le (by omega)).bind ?_
      rw [if_pos rfl]
      exact (gives_assert (by show _ ≤ 2 ^ 127; omega)).bind (congrArg (fun r => some (r, _)) hword)
  | false =>
      rw [hnegative, signed, if_neg Bool.false_ne_true] at hsigned
      rw [hnegative, if_neg Bool.false_ne_true] at hword
      refine (umul_gives a.natAbs_le b.natAbs_le (by omega)).bind ?_
      rw [if_neg Bool.false_ne_true]
      exact (gives_assert (by show _ < 2 ^ 127; omega)).bind (congrArg (fun r => some (r, _)) hword)

/-! ## Division -/

/-- Trailing zeros are shifted out of the divisor, as many as there are or are asked for. -/
theorem skipTrailingZeros_spec (left : Nat) : ∀ shift den : Nat, ∃ zeros kept,
    skipTrailingZeros left shift den = (shift + zeros, kept) ∧ den = kept * 2 ^ zeros ∧
      zeros ≤ left ∧ (kept % 2 = 1 ∨ zeros = left) := by
  induction left with
  | zero => exact fun shift den => ⟨0, den, rfl, (Nat.mul_one den).symm, Nat.le_refl 0, .inr rfl⟩
  | succ left ih =>
      intro shift den
      rw [skipTrailingZeros, Nat.and_one_is_mod, Nat.shiftRight_one]
      by_cases heven : den % 2 = 0
      · obtain ⟨zeros, kept, heq, hden, hle, hstop⟩ := ih (shift + 1) (den / 2)
        refine ⟨zeros + 1, kept, ?_, ?_, Nat.succ_le_succ hle, hstop.imp_right (congrArg (· + 1))⟩
        · rw [if_pos heven, heq, Nat.add_assoc, Nat.add_comm 1]
        · rw [Nat.pow_succ, ← Nat.mul_assoc, ← hden]
          omega
      · refine ⟨0, den, if_neg heven, (Nat.mul_one den).symm, Nat.zero_le _, .inl ?_⟩
        omega

/-- Leading zeros are shifted out of the remainder, as many as there are or are asked for. -/
theorem skipLeadingZeros_spec (left : Nat) : ∀ {shift rem : Nat}, rem < 2 ^ 128 → ∃ zeros,
    (skipLeadingZeros left shift rem).Gives (shift + zeros, rem * 2 ^ zeros) ∧
      zeros ≤ left ∧ (2 ^ 127 ≤ rem * 2 ^ zeros ∨ zeros = left) ∧
        (rem < 2 ^ 127 → 0 < left → 0 < zeros) := by
  induction left with
  | zero =>
      intro shift rem _
      refine ⟨0, ?_, Nat.le_refl 0, .inr rfl, fun _ h => h⟩
      rw [Nat.pow_zero, Nat.mul_one]
      exact gives_pure _
  | succ left ih =>
      intro shift rem hrem
      rw [skipLeadingZeros]
      by_cases hzero : rem &&& hp128MaskHiBit = 0
      · have hsmall := (and_maskHiBit_eq_zero hrem).mp hzero
        obtain ⟨zeros, hgives, hle, hstop, -⟩ := @ih (shift + 1) (rem * 2 ^ 1) (by omega)
        have hpow : rem * 2 ^ 1 * 2 ^ zeros = rem * 2 ^ (zeros + 1) := by
          rw [Nat.mul_assoc, ← Nat.pow_add, Nat.add_comm 1]
        rw [hpow, Nat.add_assoc, Nat.add_comm 1] at hgives
        rw [hpow] at hstop
        refine ⟨zeros + 1, ?_, Nat.succ_le_succ hle, hstop.imp_right (congrArg (· + 1)),
          fun _ _ => Nat.succ_pos _⟩
        rw [if_pos hzero]
        exact (shl128_gives (by omega)).bind hgives
      · have hlarge : ¬ rem < 2 ^ 127 := fun h => hzero ((and_maskHiBit_eq_zero hrem).mpr h)
        refine ⟨0, ?_, Nat.zero_le _, .inl ?_, fun h => absurd h hlarge⟩
        · rw [if_neg hzero, Nat.pow_zero, Nat.mul_one]
          exact gives_pure _
        · rw [Nat.pow_zero, Nat.mul_one]
          exact Nat.le_of_not_lt hlarge

/-- Nothing is cast off an odd denominator that is at most the remainder. -/
theorem castOff_eq {rem left shift den : Nat} (hkeep : left = 0 ∨ den % 2 = 1 ∧ den ≤ rem) :
    castOff rem left shift den = (shift, den) := by
  cases left with
  | zero => rfl
  | succ left =>
      obtain h | ⟨hodd, hle⟩ := hkeep
      · exact absurd h (Nat.succ_ne_zero left)
      · rw [castOff, Nat.and_one_is_mod, if_neg]
        omega

/-- The long division of one number by another, as far as it has come. -/
structure Divides (a b : Nat) (s : Division) : Prop where
  result : s.result = a * 2 ^ s.digis / b
  rem : a * 2 ^ s.digis % b * (s.den * 2 ^ s.shift) = s.rem * b
  den_pos : 0 < s.den
  den_le : s.den ≤ 2 ^ 127
  rem_lt : s.rem < 2 ^ 127
  odd : s.den % 2 = 1 ∨ s.digis + s.shift = digits
  digits : s.digis + s.shift ≤ digits

section Dividing

variable {a b : Nat} {s : Division}

/-- A longer numerator is divided on from the quotient and the remainder. -/
theorem extend_division {numerator rem den shift zeros : Nat} (hb : 0 < b) (hden : 0 < den)
    (hrem : numerator % b * (den * 2 ^ shift) = rem * b) :
    numerator * 2 ^ (shift + zeros) / b =
        numerator / b * 2 ^ (shift + zeros) + rem * 2 ^ zeros / den ∧
      numerator * 2 ^ (shift + zeros) % b * den = rem * 2 ^ zeros % den * b := by
  have hscaled : numerator % b * 2 ^ (shift + zeros) * den = rem * 2 ^ zeros * b := by
    calc numerator % b * 2 ^ (shift + zeros) * den
        = numerator % b * (den * 2 ^ shift) * 2 ^ zeros := by rw [Nat.pow_add]; ring
      _ = rem * 2 ^ zeros * b := by rw [hrem]; ring
  have hsplit := Nat.div_add_mod (rem * 2 ^ zeros) den
  have hless := Nat.mod_lt (rem * 2 ^ zeros) hden
  generalize rem * 2 ^ zeros / den = quo at *
  generalize rem * 2 ^ zeros % den = left at *
  have hbound : quo * b ≤ numerator % b * 2 ^ (shift + zeros) := by
    refine Nat.le_of_mul_le_mul_right ?_ hden
    rw [hscaled, ← hsplit]
    nlinarith
  obtain ⟨rest, hrest⟩ := Nat.exists_eq_add_of_le hbound
  have hrestDen : rest * den = left * b := by
    have := hscaled
    rw [hrest, ← hsplit] at this
    linarith
  have hrestLt : rest < b := by
    refine Nat.lt_of_mul_lt_mul_right (a := den) ?_
    rw [hrestDen, Nat.mul_comm b]
    exact Nat.mul_lt_mul_of_pos_right hless hb
  have hnumerator : numerator * 2 ^ (shift + zeros) =
      rest + b * (numerator / b * 2 ^ (shift + zeros) + quo) := by
    conv_lhs => rw [← Nat.div_add_mod numerator b, Nat.add_mul, hrest]
    ring
  rw [hnumerator]
  refine ⟨?_, ?_⟩
  · rw [Nat.add_mul_div_left _ _ hb, Nat.div_eq_of_lt hrestLt, Nat.zero_add]
  · rw [Nat.add_mul_mod_self_left, Nat.mod_eq_of_lt hrestLt, hrestDen]

/-- The quotient by fewer digits is at most the last one. -/
theorem quotient_le (hfits : a * 2 ^ digits / b < 2 ^ 128) {digis : Nat} (hle : digis ≤ digits) :
    a * 2 ^ digis / b < 2 ^ 128 :=
  Nat.lt_of_le_of_lt
    (Nat.div_le_div_right (Nat.mul_le_mul_left a (Nat.pow_le_pow_right (by decide) hle))) hfits

/-- A turn divides on, and gains a digit. -/
theorem divTurn_gives (divides : Divides a b s) (hb : 0 < b) (hfits : a * 2 ^ digits / b < 2 ^ 128)
    (hmore : s.digis < digits) :
    ∃ next, (divTurn s).Gives next ∧ Divides a b next ∧ s.digis < next.digis := by
  have hrem := divides.rem_lt
  have hden := divides.den_le
  have hdigits := divides.digits
  obtain ⟨zeros, hskip, hzeros, hstop, hgain⟩ :=
    @skipLeadingZeros_spec (digits - (s.digis + s.shift)) s.shift s.rem (by omega)
  have hcast : castOff (s.rem * 2 ^ zeros) (digits - (s.digis + (s.shift + zeros)))
      (s.shift + zeros) s.den = (s.shift + zeros, s.den) := by
    apply castOff_eq
    rcases hstop with hlarge | hfull
    · rcases divides.odd with hodd | hall
      · exact .inr ⟨hodd, by omega⟩
      · exact .inl (by omega)
    · exact .inl (by omega)
  obtain ⟨hquotient, hremainder⟩ := extend_division hb divides.den_pos divides.rem
  have hdigis : a * 2 ^ s.digis * 2 ^ (s.shift + zeros) =
      a * 2 ^ (s.digis + (s.shift + zeros)) := by rw [Nat.mul_assoc, ← Nat.pow_add]
  have hlast : s.digis + (s.shift + zeros) ≤ digits := by omega
  have hsmall := quotient_le hfits hlast
  rw [hdigis] at hquotient hremainder
  rw [hquotient, ← divides.result] at hsmall
  refine ⟨⟨s.rem * 2 ^ zeros % s.den, s.den, s.result * 2 ^ (s.shift + zeros) +
    s.rem * 2 ^ zeros / s.den, s.digis + (s.shift + zeros), 0⟩, ?_, ?_, ?_⟩
  · refine hskip.bind ?_
    simp only [hcast]
    exact (shl128_gives (Nat.lt_of_le_of_lt (Nat.le_add_right _ _) hsmall)).bind
      ((add128_gives hsmall).bind (gives_pure _))
  · constructor
    · rw [divides.result]
      exact hquotient.symm
    · rw [Nat.pow_zero, Nat.mul_one]
      exact hremainder
    · exact divides.den_pos
    · exact hden
    · exact Nat.lt_of_lt_of_le (Nat.mod_lt _ divides.den_pos) hden
    · rcases divides.odd with hodd | hall
      · exact .inl hodd
      · exact .inr (by show s.digis + (s.shift + zeros) + 0 = digits; omega)
    · exact hlast
  · show s.digis < s.digis + (s.shift + zeros)
    rcases Nat.eq_zero_or_pos s.shift with hzero | hpos
    · have := hgain hrem (by omega)
      omega
    · omega

/-- The loop divides until there are enough digits or nothing remains. -/
theorem divLoop_gives (hb : 0 < b) (hfits : a * 2 ^ digits / b < 2 ^ 128) (turns : Nat) :
    ∀ {s : Division}, Divides a b s → digits < turns + s.digis →
      ∃ last, (divLoop turns s).Gives last ∧ Divides a b last ∧
        (last.digis = digits ∨ last.rem = 0) := by
  induction turns with
  | zero =>
      intro s divides hturns
      have := divides.digits
      omega
  | succ turns ih =>
      intro s divides hturns
      have hdigits := divides.digits
      rw [divLoop]
      by_cases hgo : s.digis < digits ∧ s.rem ≠ 0
      · obtain ⟨next, hnext, hdivides, hgain⟩ := divTurn_gives divides hb hfits hgo.1
        obtain ⟨last, hlast, hend⟩ := ih hdivides (by omega)
        exact ⟨last, by rw [if_pos hgo]; exact hnext.bind hlast, hend⟩
      · refine ⟨s, by rw [if_neg hgo]; exact gives_pure s, divides, ?_⟩
        rcases Nat.lt_or_ge s.digis digits with hless | hge
        · exact .inr (Classical.not_not.mp fun hne => hgo ⟨hless, hne⟩)
        · exact .inl (by omega)

/-- `Udiv` gives all digits of a quotient that fits. -/
theorem udiv_gives (hb : 0 < b) (hle : b ≤ 2 ^ 127) (hfits : a * 2 ^ digits / b < 2 ^ 128) :
    (udiv a b).Gives (a * 2 ^ digits / b) := by
  obtain ⟨zeros, kept, hskip, hkept, hzeros, hodd⟩ := skipTrailingZeros_spec digits 0 b
  rw [Nat.zero_add] at hskip
  have hrem : a % b < b := Nat.mod_lt a hb
  have hfirst : Divides a b ⟨a % b, kept, a / b, 0, zeros⟩ := by
    constructor
    · exact congrArg (· / b) (Nat.mul_one a).symm
    · show a * 1 % b * (kept * 2 ^ zeros) = a % b * b
      rw [Nat.mul_one, ← hkept]
    · exact Nat.pos_of_mul_pos_right (hkept ▸ hb)
    · exact Nat.le_trans (hkept ▸ Nat.le_mul_of_pos_right kept (Nat.two_pow_pos zeros)) hle
    · exact Nat.lt_of_lt_of_le hrem hle
    · exact hodd.imp_right fun h => (Nat.zero_add _).trans h
    · exact (Nat.zero_add zeros).symm ▸ hzeros
  obtain ⟨last, hlast, divides, hend⟩ := divLoop_gives hb hfits (digits + 1) hfirst
    (by show digits < digits + 1 + 0; omega)
  rw [udiv]
  refine (gives_assert hb.ne').bind ((gives_assert hrem).bind ?_)
  simp only [hskip]
  refine hlast.bind ?_
  have hdigits := divides.digits
  by_cases hless : last.digis < digits
  · have hzero : last.rem = 0 := hend.resolve_left (by omega)
    have hexact : a * 2 ^ last.digis % b = 0 := by
      have hproduct := divides.rem
      rw [hzero, Nat.zero_mul] at hproduct
      refine (Nat.mul_eq_zero.mp hproduct).resolve_right ?_
      exact (Nat.mul_pos divides.den_pos (Nat.two_pow_pos _)).ne'
    have hresult : last.result * 2 ^ (digits - last.digis) = a * 2 ^ digits / b := by
      rw [divides.result, Nat.div_mul_right_comm (Nat.dvd_of_mod_eq_zero hexact), Nat.mul_assoc,
        ← Nat.pow_add, Nat.add_sub_cancel' (by omega)]
    rw [if_pos hless]
    rw [← hresult] at hfits ⊢
    exact shl128_gives hfits
  · have hall : last.digis = digits := by omega
    rw [if_neg hless, ← hall, ← divides.result]
    exact gives_pure _

end Dividing

/-- The quotient is the lowest number exactly when the dividend is the divisor times `-2 ^ 63`. -/
theorem quotient_lowest_iff {a b : Int64x64} (hb : b.v ≠ 0) :
    ((decide (a.v < 0) != decide (b.v < 0)) = true ∧
      a.v.natAbs * 2 ^ digits / b.v.natAbs = 2 ^ 127) ↔ a.v = -2 ^ 63 * b.v := by
  have hpos : 0 < b.v.natAbs := Int.natAbs_pos.mpr hb
  have ha := a.natAbs_le
  rw [digits, Nat.div_eq_iff hpos, bne_iff_ne, ne_eq, decide_eq_decide]
  constructor
  · rintro ⟨hsigns, hlow, hhigh⟩
    have hmagnitude : a.v.natAbs = 2 ^ 63 * b.v.natAbs := by omega
    omega
  · intro heq
    have hmagnitude : a.v.natAbs = 2 ^ 63 * b.v.natAbs := by omega
    omega

/-- The negation of a result leaves the signed range at the lowest number only. -/
theorem negated_ends {q : Int64x64} {result : Nat} (hq : q.v = -(result : Int)) :
    Ends (do pure (ofWord (← signedWord 128 (-(ofWord result).v)))) q
      ⟨true, decide (result ≠ 2 ^ 127)⟩ := by
  have hlow := q.low
  have hword : (ofWord result).v = if result = 2 ^ 127 then -(result : Int) else result := by
    rw [ofWord_v, Int.bmod]
    omega
  have hends := (signedWord_ends 128 (-(ofWord result).v)).bind_pure ofWord
  have hvalue : ofWord ((-(ofWord result).v).bmod (2 ^ 128)) = q := by
    apply ofWord_eq
    rw [Int.bmod_bmod, hq, hword, Int.bmod]
    omega
  have hflag : decide ((-(ofWord result).v).bmod (2 ^ 128) = -(ofWord result).v) =
      decide (result ≠ 2 ^ 127) := by
    rw [decide_eq_decide, hword, Int.bmod]
    omega
  rw [hvalue, hflag] at hends
  exact hends

/-- The sign is given back to the result of a division. -/
theorem signedResult_ends {q : Int64x64} {negative : Bool} {result : Nat}
    (hq : q.v = signed negative result) :
    Ends (if negative then do pure (ofWord (← signedWord 128 (-(ofWord result).v)))
      else pure (ofWord result)) q ⟨true, decide (¬(negative = true ∧ result = 2 ^ 127))⟩ := by
  cases negative with
  | true =>
      rw [if_pos rfl]
      simp only [true_and]
      exact negated_ends hq
  | false =>
      have hword := ofWord_signed hq
      rw [if_neg Bool.false_ne_true] at hword ⊢
      rw [hword, decide_eq_true (fun h => Bool.false_ne_true h.1)]
      exact gives_pure q

/--
A quotient that fits is exact up to the truncation toward zero.  The one signed
operation, the negation of the result, leaves its range at the lowest number.
-/
theorem div_ends {a b q : Int64x64} (hb : b.v ≠ 0) (hq : q.v = (a.v * 2 ^ 64).tdiv b.v) :
    (div a b).Ends q ⟨true, decide (a.v ≠ -2 ^ 63 * b.v)⟩ := by
  have hpos : 0 < b.v.natAbs := Int.natAbs_pos.mpr hb
  have hsigned : q.v = signed (decide (a.v < 0) != decide (b.v < 0))
      (a.v.natAbs * 2 ^ digits / b.v.natAbs) := by
    conv_lhs => rw [hq, ← signed_natAbs a.v, ← signed_natAbs b.v]
    rw [← signed_two_pow, signed_mul, signed_tdiv, Bool.bne_false]
  have hends := signedResult_ends hsigned
  rw [decide_eq_decide.mpr (not_congr (quotient_lowest_iff hb))] at hends
  rw [div, outputSign_eq]
  exact (udiv_gives hpos b.natAbs_le (signed_lt hsigned)).bind_ends hends

/--
Multiplication and division are exact up to the truncation toward zero when
their results fit: no assertion fails, the division ends, and no unsigned
operation wraps around.
-/
theorem arithmetic_exact (a b q : Int64x64) :
    (q.v = (a.v * b.v).tdiv (2 ^ 64) → (mul a b).Gives q) ∧
      (b.v ≠ 0 → q.v = (a.v * 2 ^ 64).tdiv b.v →
        (div a b).Ends q ⟨true, decide (a.v ≠ -2 ^ 63 * b.v)⟩) :=
  ⟨mul_gives, div_ends⟩

/-- The lowest number is a product, and is divided. -/
theorem arithmetic_exact_lowest :
    (mul (ofInt (-4611686018427387904)) (ofInt 2)).Gives (ofInt (-9223372036854775808)) ∧
      (div (ofInt (-9223372036854775808)) (ofInt 2)).Ends (ofInt (-4611686018427387904))
        ⟨true, decide ((ofInt (-9223372036854775808)).v ≠ -2 ^ 63 * (ofInt 2).v)⟩ :=
  ⟨(arithmetic_exact _ _ _).1 (by decide), (arithmetic_exact _ _ _).2 (by decide) (by decide)⟩

end Int64x64

end DeepcV2x.HighPrec
