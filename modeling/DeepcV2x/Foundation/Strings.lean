import Mathlib.Algebra.Group.Nat.Defs
import Mathlib.Data.List.Basic

/-!
# Texts and searches in them

A text is a list of characters.  The searches return what follows the first
occurrence of a needle, which is how a program that keeps an index into a
string goes on reading.
-/

namespace DeepcV2x.Foundation.Strings

abbrev Text := List Char

instance Text.decidableMem (text : Text) (texts : List Text) : Decidable (text ∈ texts) :=
  List.instDecidableMemOfLawfulBEq text texts

/-- What follows the first occurrence of the needle. -/
def afterFirst (needle : Text) : Text → Option Text
  | [] => if needle = [] then some [] else none
  | head :: tail =>
      if needle.isPrefixOf (head :: tail) then some ((head :: tail).drop needle.length)
      else afterFirst needle tail

theorem afterFirst_of_prefixed (needle rest : Text) :
    afterFirst needle (needle ++ rest) = some rest := by
  cases needle with
  | nil => cases rest <;> simp [afterFirst]
  | cons head tail => simp [afterFirst]

theorem afterFirst_cons_of_not_prefixed {needle : Text} {head : Char} {tail : Text}
    (hnot : ¬ needle <+: head :: tail) :
    afterFirst needle (head :: tail) = afterFirst needle tail := by
  rw [afterFirst, if_neg]
  rwa [List.isPrefixOf_iff_prefix]

/-- What is found does follow the needle. -/
theorem afterFirst_some {needle text rest : Text} (hfound : afterFirst needle text = some rest) :
    ∃ before, text = before ++ needle ++ rest := by
  induction text with
  | nil =>
      simp only [afterFirst] at hfound
      split at hfound
      next hempty =>
        rw [hempty, ← Option.some.inj hfound]
        exact ⟨[], rfl⟩
      next => cases hfound
  | cons head tail ih =>
      simp only [afterFirst] at hfound
      split at hfound
      next hprefixed =>
        obtain ⟨suffix, hsplit⟩ := List.isPrefixOf_iff_prefix.mp hprefixed
        rw [← hsplit, List.drop_left] at hfound
        rw [← Option.some.inj hfound]
        exact ⟨[], hsplit.symm⟩
      next =>
        obtain ⟨before, hsplit⟩ := ih hfound
        exact ⟨head :: before, by rw [hsplit]; rfl⟩

/-- Nothing is found only when the needle does not occur. -/
theorem afterFirst_isSome_of_occurs {needle text : Text} {before rest : Text}
    (hsplit : text = before ++ needle ++ rest) : (afterFirst needle text).isSome := by
  induction before generalizing text with
  | nil =>
      rw [hsplit, List.nil_append, afterFirst_of_prefixed]
      rfl
  | cons head tail ih =>
      rw [hsplit, List.cons_append, List.cons_append, afterFirst]
      split
      · rfl
      · exact ih rfl

/-- `str.replace`: every occurrence of `old`, from the left and without overlap.  The counter
skips the rest of an occurrence that has just been replaced. -/
def replaceFrom (old new : Text) : Nat → Text → Text
  | _, [] => []
  | skip + 1, _ :: tail => replaceFrom old new skip tail
  | 0, head :: tail =>
      if old.isPrefixOf (head :: tail) then new ++ replaceFrom old new (old.length - 1) tail
      else head :: replaceFrom old new 0 tail

def replaceAll (old new text : Text) : Text := replaceFrom old new 0 text

/-- Nothing is replaced where the first character of the old text does not occur. -/
theorem replaceFrom_of_notMem {head : Char} {tail new text : Text} (hnot : head ∉ text) :
    replaceFrom (head :: tail) new 0 text = text := by
  induction text with
  | nil => rfl
  | cons c rest ih =>
      obtain ⟨hne, hrest⟩ := not_or.mp (fun h => hnot (List.mem_cons.mpr h))
      rw [replaceFrom, if_neg, ih hrest]
      simp [List.isPrefixOf, hne]

theorem replaceFrom_skip (old new skipped rest : Text) :
    replaceFrom old new skipped.length (skipped ++ rest) = replaceFrom old new 0 rest := by
  induction skipped with
  | nil => rfl
  | cons c skipped ih => rw [List.length_cons, List.cons_append, replaceFrom, ih]

/-- Replacing a leading occurrence that is the only one. -/
theorem replaceAll_prefixed {head : Char} {tail new rest : Text} (hnot : head ∉ rest) :
    replaceAll (head :: tail) new ((head :: tail) ++ rest) = new ++ rest := by
  have hprefixed : (head :: tail).isPrefixOf (head :: (tail ++ rest)) = true := by
    simp
  rw [replaceAll, List.cons_append, replaceFrom, if_pos hprefixed]
  have hskip := replaceFrom_skip (head :: tail) new tail rest
  rw [List.length_cons, Nat.add_sub_cancel, hskip, replaceFrom_of_notMem hnot]

/-! ## White space and unsigned numbers -/

/-- `isspace` of the C locale. -/
def isSpace (c : Char) : Bool :=
  c = ' ' || c = '\t' || c = '\n' || c = '\x0b' || c = '\x0c' || c = '\r'

def skipSpaces (text : Text) : Text := text.dropWhile isSpace

/-- Value of a run of decimal digits. -/
def digitsValue (digits : Text) : Nat := Nat.ofDigitChars 10 digits 0

/-- An optional sign: whether it is a minus, and what follows. -/
def splitSign : Text → Bool × Text
  | [] => (false, [])
  | head :: tail =>
      if head = '-' then (true, tail) else if head = '+' then (false, tail)
      else (false, head :: tail)

/-- `strtoul` in base 10 on 64 bits: the value and the unread rest, `none` when no digit is
read.  An overflow saturates, and a minus sign negates modulo the word size. -/
def strtoul (text : Text) : Option (Nat × Text) :=
  let signed := splitSign (skipSpaces text)
  let digits := signed.2.takeWhile Char.isDigit
  if digits = [] then none
  else
    let value := digitsValue digits
    let wrapped :=
      if 2 ^ 64 ≤ value then 2 ^ 64 - 1
      else if signed.1 then (2 ^ 64 - value) % 2 ^ 64
      else value
    some (wrapped, signed.2.dropWhile Char.isDigit)

/-! ## Decimal numerals -/

/-- A decimal numeral filled with zeros on the left up to a width, as `setw` and `setfill`
print it. -/
def paddedDecimal (width value : Nat) : Text :=
  let digits := Nat.toDigits 10 value
  List.replicate (width - digits.length) '0' ++ digits

/-- A padded numeral reads back as its value. -/
theorem digitsValue_paddedDecimal (width value : Nat) :
    digitsValue (paddedDecimal width value) = value := by
  rw [digitsValue, paddedDecimal, Nat.ofDigitChars_append, Nat.ofDigitChars_replicate_zero,
    Nat.mul_zero, Nat.ofDigitChars_ten_toDigits]

theorem isDigit_of_mem_paddedDecimal {width value : Nat} {c : Char}
    (hmem : c ∈ paddedDecimal width value) : c.isDigit = true := by
  rcases List.mem_append.mp hmem with hpad | hdigit
  · rw [List.eq_of_mem_replicate hpad]
    rfl
  · exact Nat.isDigit_of_mem_toDigits (by decide) (by decide) hdigit

end DeepcV2x.Foundation.Strings
