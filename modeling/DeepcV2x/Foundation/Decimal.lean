import DeepcV2x.Foundation.Strings
import Mathlib.Algebra.Order.Field.Rat
import Mathlib.Tactic.NormNum

/-!
# Decimal numbers in texts

The longest decimal number a text starts with, as `strtod` reads it, and
`stod` with its two exceptions.  Values are exact; the range of a double only
decides when `stod` throws.
-/

namespace DeepcV2x.Foundation.Decimal

open DeepcV2x.Foundation.Strings

/-- The characters a number is made of. -/
def isNumberChar (c : Char) : Bool :=
  c.isDigit || c = '-' || c = '+' || c = '.' || c = 'e' || c = 'E'

/-- The exponent part and what follows it; an exponent mark without digits is not consumed. -/
def readExponent : Text → Int × Text
  | [] => (0, [])
  | mark :: tail =>
      if mark = 'e' ∨ mark = 'E' then
        let signed := splitSign tail
        let digits := signed.2.takeWhile Char.isDigit
        if digits = [] then (0, mark :: tail)
        else
          (if signed.1 then -(digitsValue digits : Int) else (digitsValue digits : Int),
            signed.2.dropWhile Char.isDigit)
      else (0, mark :: tail)

/-- Fractional digits after a decimal point, and what follows them. -/
def readFraction : Text → Text × Text
  | [] => ([], [])
  | point :: tail =>
      if point = '.' then (tail.takeWhile Char.isDigit, tail.dropWhile Char.isDigit)
      else ([], point :: tail)

/-- The value of the longest leading decimal number and the unread rest; `none` when the text
starts with no number. -/
def readDecimal (text : Text) : Option (ℚ × Text) :=
  let signed := splitSign text
  let whole := signed.2.takeWhile Char.isDigit
  let fraction := readFraction (signed.2.dropWhile Char.isDigit)
  if whole = [] ∧ fraction.1 = [] then none
  else
    let exponent := readExponent fraction.2
    let magnitude : ℚ := (digitsValue (whole ++ fraction.1) : ℚ) *
      (10 : ℚ) ^ (exponent.1 - (fraction.1.length : Int))
    some (if signed.1 then -magnitude else magnitude, exponent.2)

/-- The two exceptions of `std::stod`. -/
inductive StodError
  | invalidArgument
  | outOfRange
  deriving DecidableEq, Repr

/-- Rounds to an infinite double. -/
def Overflows (value : ℚ) : Prop := 2 ^ 1024 - 2 ^ 970 ≤ |value|

/-- Rounds to a subnormal double or zero, and not exactly. -/
def Underflows (value : ℚ) : Prop :=
  value ≠ 0 ∧ |value| < 1 / 2 ^ 1022 - 1 / 2 ^ 1076 ∧ (value * 2 ^ 1074).den ≠ 1

instance (value : ℚ) : Decidable (Overflows value) := inferInstanceAs (Decidable (_ ≤ _))
instance (value : ℚ) : Decidable (Underflows value) := inferInstanceAs (Decidable (_ ∧ _))

def stod (text : Text) : Except StodError ℚ :=
  match readDecimal (skipSpaces text) with
  | none => .error .invalidArgument
  | some (value, _) =>
      if Overflows value ∨ Underflows value then .error .outOfRange else .ok value

example : stod "-12.50e1".toList = .ok (-125) := by decide +kernel

example : stod "1e999".toList = .error .outOfRange := by decide +kernel

end DeepcV2x.Foundation.Decimal
