import DeepcV2x.Foundation.Watched

/-!
# Fixed-point numbers of 64 and 64 bits

`int64x64_t` over a native `int128_t`: multiplication, the long division, and
multiplication by an inverse.  Unsigned words of 128 bits are natural numbers,
and every operation that could wrap around is watched.
-/

namespace DeepcV2x.HighPrec

open Foundation Watched

/-- `int64x64_t`, with the raw content `_v`. -/
@[ext]
structure Int64x64 where
  v : Int
  low : -170141183460469231731687303715884105728 ≤ v
  high : v < 170141183460469231731687303715884105728
  deriving DecidableEq, Repr

/-! ## Words -/

def hp128MaskHiBit : Nat := 2 ^ 127

def hpMaskLo : Nat := 2 ^ 64 - 1

def add128 (a b : Nat) : Watched Nat := word 128 (a + b)

def mul128 (a b : Nat) : Watched Nat := word 128 (a * b)

def shl128 (a count : Nat) : Watched Nat := word 128 (a <<< count)

/-- The negation of an unsigned word. -/
def neg128 (a : Nat) : Nat := (2 ^ 128 - a) % 2 ^ 128

/-- The conversion to `uint128_t`. -/
def toUnsigned (v : Int) : Nat := (v % 2 ^ 128).toNat

/-- The conversion of a word to `int128_t`. -/
def ofWord (v : Int) : Int64x64 where
  v := v.bmod (2 ^ 128)
  low := Int.le_trans (by decide) (@Int.le_bmod v (2 ^ 128) (by decide))
  high := Int.lt_of_lt_of_le (@Int.bmod_lt v (2 ^ 128) (by decide)) (by decide)

@[simp]
theorem ofWord_v (v : Int) : (ofWord v).v = v.bmod (2 ^ 128) := rfl

/-- The conversion to `int64_t`. -/
def toInt64 (v : Int) : Int := v.bmod (2 ^ 64)

namespace Int64x64

/-! ## Construction and reading -/

/-- The constructors from integers. -/
def ofInt (v : Int) : Int64x64 := ofWord (v * 2 ^ 64)

/-- The constructor from a high and a low part. -/
def ofParts (hi : Int) (lo : Nat) : Int64x64 := ofWord (toInt64 hi * 2 ^ 64 + lo)

/-- The magnitude as an unsigned word. -/
def magnitude (v : Int) : Nat := if v < 0 then neg128 (toUnsigned v) else toUnsigned v

def getHigh (a : Int64x64) : Int := toInt64 (a.v >>> (64 : Nat))

def getInt (a : Int64x64) : Int :=
  let retval := toInt64 (magnitude a.v >>> 64 : Nat)
  if a.v < 0 then toInt64 (-retval) else retval

/-! ## Multiplication -/

/-- `output_sign`: whether the result is negative, and the magnitudes. -/
def outputSign (sa sb : Int) : Bool × Nat × Nat :=
  (decide (sa < 0) != decide (sb < 0), magnitude sa, magnitude sb)

def umul (a b : Nat) : Watched Nat := do
  let al := a &&& hpMaskLo
  let bl := b &&& hpMaskLo
  let ah := a >>> 64
  let bh := b >>> 64
  let res := (← mul128 al bl) >>> 64
  let mid ← add128 (← mul128 ah bl) (← mul128 al bh)
  let res ← add128 res mid
  let high ← mul128 ah bh
  assert (high ≤ 2 ^ 63)
  let high ← shl128 high 64
  assert (res ≤ (← add128 res high))
  add128 res high

def mul (a o : Int64x64) : Watched Int64x64 := do
  let (negative, ua, ub) := outputSign a.v o.v
  let result ← umul ua ub
  if negative then
    assert (result ≤ hp128MaskHiBit)
    pure (ofWord (neg128 result))
  else
    assert (result < hp128MaskHiBit)
    pure (ofWord result)

/-! ## Division -/

/-- The number of fraction digits. -/
def digits : Nat := 64

/-- Skip trailing zeros in the divisor; `left` is the number of digits still needed. -/
def skipTrailingZeros : Nat → Nat → Nat → Nat × Nat
  | 0, shift, den => (shift, den)
  | left + 1, shift, den =>
      if den &&& 1 = 0 then skipTrailingZeros left (shift + 1) (den >>> 1) else (shift, den)

/-- Skip leading zeros in the remainder. -/
def skipLeadingZeros : Nat → Nat → Nat → Watched (Nat × Nat)
  | 0, shift, rem => pure (shift, rem)
  | left + 1, shift, rem =>
      if rem &&& hp128MaskHiBit = 0 then do
        skipLeadingZeros left (shift + 1) (← shl128 rem 1)
      else pure (shift, rem)

/-- Cast off denominator bits. -/
def castOff (rem : Nat) : Nat → Nat → Nat → Nat × Nat
  | 0, shift, den => (shift, den)
  | left + 1, shift, den =>
      if den &&& 1 = 0 ∨ rem < den then castOff rem left (shift + 1) (den >>> 1) else (shift, den)

/-- The variables of the long division. -/
structure Division where
  rem : Nat
  den : Nat
  result : Nat
  digis : Nat
  shift : Nat
  deriving DecidableEq, Repr

/-- One turn of the long division. -/
def divTurn (s : Division) : Watched Division := do
  let (shift, rem) ← skipLeadingZeros (digits - (s.digis + s.shift)) s.shift s.rem
  let (shift, den) := castOff rem (digits - (s.digis + shift)) shift s.den
  let quo := rem / den
  let result ← add128 (← shl128 s.result shift) quo
  pure { rem := rem % den, den, result, digis := s.digis + shift, shift := 0 }

/-- The loop of the long division, with a bound on its turns. -/
def divLoop : Nat → Division → Watched Division
  | 0, _ => none
  | turns + 1, s => if s.digis < digits ∧ s.rem ≠ 0 then do divLoop turns (← divTurn s) else pure s

/-- `Udiv`; a division by zero has no result.  Each turn of the loop gains a digit. -/
def udiv (a b : Nat) : Watched Nat := do
  assert (b ≠ 0)
  let quo := a / b
  let rem := a % b
  assert (rem < b)
  let (shift, den) := skipTrailingZeros digits 0 b
  let s ← divLoop (digits + 1) { rem, den, result := quo, digis := 0, shift }
  if s.digis < digits then shl128 s.result (digits - s.digis) else pure s.result

def div (a o : Int64x64) : Watched Int64x64 := do
  let (negative, ua, ub) := outputSign a.v o.v
  let result := ofWord (← udiv ua ub)
  if negative then pure (ofWord (← signedWord 128 (-result.v))) else pure result

/-! ## Inverses -/

def umulByInvert (a b : Nat) : Watched Nat := do
  assert (b ≤ hp128MaskHiBit)
  let al := a &&& hpMaskLo
  let bl := b &&& hpMaskLo
  let ah := a >>> 64
  let bh := b >>> 64
  let high ← mul128 ah bh
  let mid ← add128 (← mul128 ah bl) (← mul128 al bh)
  add128 high (mid >>> 64)

def mulByInvert (a o : Int64x64) : Watched Int64x64 := do
  let result ← umulByInvert (magnitude a.v) (toUnsigned o.v)
  pure (ofWord (if a.v < 0 then neg128 result else result : Nat))

/-- `Invert` of an unsigned word of 64 bits. -/
def invert (v : Nat) : Watched Int64x64 := do
  assert (1 < v)
  let a ← shl128 1 64
  let result := ofWord (← udiv a v)
  let tmp ← mulByInvert (ofParts v 0) result
  if tmp.getHigh ≠ 1 then pure (ofWord (← signedWord 128 (result.v + 1))) else pure result

end Int64x64

end DeepcV2x.HighPrec
