import DeepcV2x.Foundation.Json
import DeepcV2x.Foundation.Numerals

/-!
# Reading JSON texts

`json.loads` on texts: values with white space between tokens, escapes in
strings, and numbers with or without a fraction and an exponent.  Three things
that the Python reader lets through and that have no value here are refused:
the names of non-finite numbers and lone surrogates.
-/

namespace DeepcV2x.Foundation.Json

open DeepcV2x.Foundation.Strings DeepcV2x.Foundation.Decimal DeepcV2x.Foundation.Numerals

def isJsonSpace (c : Char) : Bool := c = ' ' || c = '\t' || c = '\n' || c = '\r'

def skipJsonSpace (text : Text) : Text := text.dropWhile isJsonSpace

/-! ## Numbers -/

def readMinus : Text → Bool × Text
  | [] => (false, [])
  | head :: tail => if head = '-' then (true, tail) else (false, head :: tail)

/-- A lone zero or a run of digits. -/
def readWhole : Text → Text × Text
  | [] => ([], [])
  | head :: tail =>
      if head = '0' then (['0'], tail)
      else ((head :: tail).takeWhile Char.isDigit, (head :: tail).dropWhile Char.isDigit)

/-- A point is consumed only with digits behind it. -/
def readPoint : Text → Text × Text
  | [] => ([], [])
  | head :: tail =>
      if head = '.' ∧ tail.takeWhile Char.isDigit ≠ [] then
        (tail.takeWhile Char.isDigit, tail.dropWhile Char.isDigit)
      else ([], head :: tail)

def readNumber (text : Text) : Option (Value × Text) :=
  let signed := readMinus text
  let whole := readWhole signed.2
  if whole.1 = [] then none
  else
    let fraction := readPoint whole.2
    let exponent := readExponent fraction.2
    if fraction.1 = [] ∧ exponent.2 = fraction.2 then
      let magnitude : ℤ := digitsValue whole.1
      some (.int (if signed.1 then -magnitude else magnitude), fraction.2)
    else
      let magnitude : ℚ := digitsValue (whole.1 ++ fraction.1) *
        (10 : ℚ) ^ (exponent.1 - (fraction.1.length : ℤ))
      some (.float (if signed.1 then -magnitude else magnitude), exponent.2)

/-! ## Strings -/

def hexValue (c : Char) : Option Nat :=
  if c.isDigit then some (c.toNat - '0'.toNat)
  else if 'a' ≤ c ∧ c ≤ 'f' then some (c.toNat - 'a'.toNat + 10)
  else if 'A' ≤ c ∧ c ≤ 'F' then some (c.toNat - 'A'.toNat + 10)
  else none

/-- Four hexadecimal digits and what follows them. -/
def readUnit : Text → Option (Nat × Text)
  | first :: second :: third :: fourth :: rest => do
      let a ← hexValue first
      let b ← hexValue second
      let c ← hexValue third
      let d ← hexValue fourth
      return (((a * 16 + b) * 16 + c) * 16 + d, rest)
  | _ => none

/-- The character after `\u`, with the second half of a surrogate pair. -/
def readUnicode (text : Text) : Option (Char × Text) :=
  match readUnit text with
  | none => none
  | some (unit, rest) =>
      if 55296 ≤ unit ∧ unit < 56320 then
        match rest with
        | '\\' :: 'u' :: tail =>
            match readUnit tail with
            | none => none
            | some (low, others) =>
                if 56320 ≤ low ∧ low < 57344 then
                  some (Char.ofNat (65536 + (unit - 55296) * 1024 + (low - 56320)), others)
                else none
        | _ => none
      else if 56320 ≤ unit ∧ unit < 57344 then none
      else some (Char.ofNat unit, rest)

/-- The character of an escape, after the backslash. -/
def readEscape : Text → Option (Char × Text)
  | [] => none
  | head :: tail =>
      if head = '"' ∨ head = '\\' ∨ head = '/' then some (head, tail)
      else if head = 'b' then some ('\x08', tail)
      else if head = 'f' then some ('\x0c', tail)
      else if head = 'n' then some ('\n', tail)
      else if head = 'r' then some ('\r', tail)
      else if head = 't' then some ('\t', tail)
      else if head = 'u' then readUnicode tail
      else none

/-- A string after its opening quote, one character for each unit of fuel. -/
def readString : Nat → Text → Option (Text × Text)
  | 0, _ => none
  | _ + 1, [] => none
  | fuel + 1, head :: tail =>
      if head = '"' then some ([], tail)
      else if head = '\\' then
        match readEscape tail with
        | none => none
        | some (c, rest) => (readString fuel rest).map fun found => (c :: found.1, found.2)
      else if head.toNat < 32 then none
      else (readString fuel tail).map fun found => (head :: found.1, found.2)

/-! ## Values -/

mutual

def readValue : Nat → Text → Option (Value × Text)
  | 0, _ => none
  | _ + 1, [] => none
  | fuel + 1, head :: tail =>
      if head = '"' then
        (readString (tail.length + 1) tail).map fun found => (.string found.1, found.2)
      else if head = '[' then
        match skipJsonSpace tail with
        | [] => none
        | first :: rest =>
            if first = ']' then some (.array [], rest)
            else (readItems fuel (first :: rest)).map fun found => (.array found.1, found.2)
      else if head = '\x7b' then
        match skipJsonSpace tail with
        | [] => none
        | first :: rest =>
            if first = '\x7d' then some (.object [], rest)
            else (readFields fuel (first :: rest)).map fun found => (.object found.1, found.2)
      else if "null".toList.isPrefixOf (head :: tail) then some (.null, (head :: tail).drop 4)
      else if "true".toList.isPrefixOf (head :: tail) then some (.bool true, (head :: tail).drop 4)
      else if "false".toList.isPrefixOf (head :: tail) then
        some (.bool false, (head :: tail).drop 5)
      else readNumber (head :: tail)

/-- The items of an array from the first one on, up to the closing bracket. -/
def readItems : Nat → Text → Option (List Value × Text)
  | 0, _ => none
  | fuel + 1, text =>
      match readValue fuel text with
      | none => none
      | some (value, rest) =>
          match skipJsonSpace rest with
          | [] => none
          | head :: tail =>
              if head = ',' then
                (readItems fuel (skipJsonSpace tail)).map fun found =>
                  (value :: found.1, found.2)
              else if head = ']' then some ([value], tail)
              else none

/-- The fields of an object from the first one on, up to the closing brace. -/
def readFields : Nat → Text → Option (List (Text × Value) × Text)
  | 0, _ => none
  | _ + 1, [] => none
  | fuel + 1, quote :: text =>
      if quote ≠ '"' then none
      else
        match readString (text.length + 1) text with
        | none => none
        | some (name, rest) =>
            match skipJsonSpace rest with
            | [] => none
            | colon :: after =>
                if colon ≠ ':' then none
                else
                  match readValue fuel (skipJsonSpace after) with
                  | none => none
                  | some (value, behind) =>
                      match skipJsonSpace behind with
                      | [] => none
                      | head :: tail =>
                          if head = ',' then
                            (readFields fuel (skipJsonSpace tail)).map fun found =>
                              ((name, value) :: found.1, found.2)
                          else if head = '\x7d' then some ([(name, value)], tail)
                          else none

end

/-- `json.loads`: one value with white space around it. -/
def loads (text : Text) : Option Value :=
  match readValue (text.length + 1) (skipJsonSpace text) with
  | none => none
  | some (value, rest) => if skipJsonSpace rest = [] then some value else none

/-! ## Texts that are read -/

/-- A rest that does not go on a number. -/
def EndsNumber (rest : Text) : Prop :=
  ∀ c ∈ rest.head?, c.isDigit = false ∧ c ≠ '.' ∧ c ≠ 'e' ∧ c ≠ 'E'

theorem endsNumber_cons {head : Char} {tail : Text}
    (hhead : head.isDigit = false ∧ head ≠ '.' ∧ head ≠ 'e' ∧ head ≠ 'E') :
    EndsNumber (head :: tail) := by
  intro c hmem
  rw [← Option.some.inj hmem]
  exact hhead

theorem takeWhile_digits {digits rest : Text} (hdigits : AllDigits digits)
    (hrest : ∀ c ∈ rest.head?, c.isDigit = false) :
    (digits ++ rest).takeWhile Char.isDigit = digits ∧
      (digits ++ rest).dropWhile Char.isDigit = rest := by
  have hstop : rest.takeWhile Char.isDigit = [] ∧ rest.dropWhile Char.isDigit = rest := by
    cases rest with
    | nil => exact ⟨rfl, rfl⟩
    | cons head tail =>
        have hhead := hrest head rfl
        exact ⟨List.takeWhile_cons_of_neg (by rw [hhead]; decide),
          List.dropWhile_cons_of_neg (by rw [hhead]; decide)⟩
  rw [List.takeWhile_append_of_pos hdigits, List.dropWhile_append_of_pos hdigits, hstop.1, hstop.2,
    List.append_nil]
  exact ⟨rfl, rfl⟩

/-- What a numeral is read as: an integer without a fraction and an exponent. -/
def numeralValue (numeral : Numeral) : Value :=
  if numeral.fraction = [] ∧ numeral.exponent = none then
    let magnitude : ℤ := digitsValue numeral.whole
    .int (if numeral.negative then -magnitude else magnitude)
  else .float numeral.value

theorem numeralValue_ofNat (number : Nat) : numeralValue (Numeral.ofNat number) = .int number := by
  rw [numeralValue, if_pos ⟨rfl, rfl⟩]
  show Value.int (digitsValue (Nat.toDigits 10 number) : ℤ) = _
  rw [digitsValue_toDigits]

theorem readWhole_numeral {numeral : Numeral} (formed : numeral.WellFormed) {rest : Text}
    (hrest : ∀ c ∈ rest.head?, c.isDigit = false) :
    readWhole (numeral.whole ++ rest) = (numeral.whole, rest) := by
  obtain ⟨htake, hdrop⟩ := takeWhile_digits formed.whole_digits hrest
  rcases formed.whole_head with hzero | hhead
  · rw [hzero]
    rfl
  · cases hwhole : numeral.whole with
    | nil => exact absurd hwhole formed.whole_ne_nil
    | cons head tail =>
        have hne : head ≠ '0' := fun same => hhead (by rw [hwhole, same]; rfl)
        rw [hwhole, List.cons_append] at htake hdrop
        rw [List.cons_append, readWhole, if_neg hne, htake, hdrop]

theorem readPoint_numeral {numeral : Numeral} (formed : numeral.WellFormed) {rest : Text}
    (hrest : ∀ c ∈ rest.head?, c.isDigit = false ∧ c ≠ '.') :
    readPoint (fractionText numeral.fraction ++ rest) = (numeral.fraction, rest) := by
  by_cases hfraction : numeral.fraction = []
  · rw [hfraction]
    cases rest with
    | nil => rfl
    | cons head tail =>
        have hpoint : ¬ (head = '.' ∧ tail.takeWhile Char.isDigit ≠ []) := fun h =>
          (hrest head rfl).2 h.1
        show readPoint (head :: tail) = _
        rw [readPoint, if_neg hpoint]
  · obtain ⟨htake, hdrop⟩ := takeWhile_digits formed.fraction_digits fun c hmem => (hrest c hmem).1
    rw [fractionText, if_neg hfraction, List.cons_append, readPoint, htake, hdrop,
      if_pos ⟨rfl, hfraction⟩]

theorem readExponent_exponentText (exponent : ℤ) {rest : Text}
    (hrest : ∀ c ∈ rest.head?, c.isDigit = false) :
    readExponent (exponentText exponent ++ rest) = (exponent, rest) := by
  obtain ⟨htake, hdrop⟩ := takeWhile_digits
    (fun c hmem => @isDigit_of_mem_paddedDecimal 2 exponent.natAbs c hmem) hrest
  have hdigits : paddedDecimal 2 exponent.natAbs ≠ [] := by
    rw [paddedDecimal]
    exact List.append_ne_nil_of_right_ne_nil _ (toDigits_ne_nil _)
  by_cases hnegative : exponent < 0
  · have hsign : splitSign ('-' :: (paddedDecimal 2 exponent.natAbs ++ rest)) =
        (true, paddedDecimal 2 exponent.natAbs ++ rest) := rfl
    rw [exponentText, if_pos hnegative, List.cons_append, List.cons_append, readExponent,
      if_pos (Or.inl rfl), hsign]
    simp only [htake, hdrop, if_neg hdigits, if_true, digitsValue_paddedDecimal]
    congr 1
    omega
  · have hsign : splitSign ('+' :: (paddedDecimal 2 exponent.natAbs ++ rest)) =
        (false, paddedDecimal 2 exponent.natAbs ++ rest) := rfl
    rw [exponentText, if_neg hnegative, List.cons_append, List.cons_append, readExponent,
      if_pos (Or.inl rfl), hsign]
    simp only [htake, hdrop, if_neg hdigits, Bool.false_eq_true, if_false,
      digitsValue_paddedDecimal]
    congr 1
    omega

theorem readExponent_none {rest : Text} (hrest : EndsNumber rest) :
    readExponent rest = (0, rest) := by
  cases rest with
  | nil => rfl
  | cons head tail =>
      obtain ⟨-, -, hlower, hupper⟩ := hrest head rfl
      rw [readExponent, if_neg (not_or.mpr ⟨hlower, hupper⟩)]

theorem readMinus_numeral {numeral : Numeral} (formed : numeral.WellFormed) (rest : Text) :
    readMinus (numeral.signText ++ (numeral.whole ++ rest)) =
      (numeral.negative, numeral.whole ++ rest) := by
  cases hnegative : numeral.negative with
  | true =>
      rw [Numeral.signText, hnegative]
      rfl
  | false =>
      rw [Numeral.signText, hnegative]
      cases hwhole : numeral.whole with
      | nil => exact absurd hwhole formed.whole_ne_nil
      | cons head tail =>
          have hdigit := formed.whole_digits head (hwhole ▸ List.mem_cons_self)
          have hne : head ≠ '-' := by
            rintro rfl
            cases hdigit
          show readMinus (head :: (tail ++ rest)) = _
          rw [readMinus, if_neg hne]
          rfl

theorem fractionText_not_digit (fraction : Text) {rest : Text}
    (hrest : ∀ c ∈ rest.head?, c.isDigit = false) :
    ∀ c ∈ (fractionText fraction ++ rest).head?, c.isDigit = false := by
  rw [fractionText]
  split
  · exact hrest
  · intro c hmem
    rw [← Option.some.inj hmem]
    rfl

/-- A well-formed numeral is read as its value. -/
theorem readNumber_numeral {numeral : Numeral} (formed : numeral.WellFormed) {rest : Text}
    (hrest : EndsNumber rest) :
    readNumber (numeral.text ++ rest) = some (numeralValue numeral, rest) := by
  have hdigit : ∀ c ∈ rest.head?, c.isDigit = false := fun c hmem => (hrest c hmem).1
  cases hexponent : numeral.exponent with
  | none =>
      have hpoint := readPoint_numeral formed fun c hmem => ⟨(hrest c hmem).1, (hrest c hmem).2.1⟩
      have hwhole := readWhole_numeral formed (fractionText_not_digit numeral.fraction hdigit)
      have htext : numeral.text ++ rest = numeral.signText ++
          (numeral.whole ++ (fractionText numeral.fraction ++ rest)) := by
        simp only [Numeral.text, hexponent, List.append_assoc, List.nil_append]
      simp only [readNumber, htext, readMinus_numeral formed, hwhole, hpoint,
        if_neg formed.whole_ne_nil, readExponent_none hrest, numeralValue, hexponent, and_true]
      split
      next hfraction => rfl
      next hfraction =>
        simp only [Numeral.value, Numeral.magnitude, hexponent, Option.getD_none]
  | some exponent =>
      have hbehind : ∀ c ∈ (exponentText exponent ++ rest).head?, c.isDigit = false ∧ c ≠ '.' := by
        intro c hmem
        rw [← Option.some.inj hmem]
        decide
      have hpoint := readPoint_numeral formed hbehind
      have hwhole := readWhole_numeral formed
        (fractionText_not_digit numeral.fraction fun c hmem => (hbehind c hmem).1)
      have htext : numeral.text ++ rest = numeral.signText ++
          (numeral.whole ++ (fractionText numeral.fraction ++ (exponentText exponent ++ rest))) := by
        simp only [Numeral.text, hexponent, List.append_assoc]
      have hconsumed : ¬ (numeral.fraction = [] ∧ rest = exponentText exponent ++ rest) := by
        rintro ⟨-, hsame⟩
        have hlength := congrArg List.length hsame
        rw [List.length_append, exponentText, List.length_cons] at hlength
        omega
      have hfloat : numeralValue numeral = .float numeral.value := by
        apply if_neg
        rw [hexponent]
        exact fun h => by cases h.2
      rw [hfloat]
      simp only [readNumber, htext, readMinus_numeral formed, hwhole, hpoint,
        if_neg formed.whole_ne_nil, readExponent_exponentText exponent hdigit,
        if_neg hconsumed, Numeral.value, Numeral.magnitude, hexponent, Option.getD_some]

/-! ## Reading values -/

/-- The text reads as the value, whatever follows, with fuel for its length. -/
structure Reads (text : Text) (value : Value) : Prop where
  start : ∃ head tail, text = head :: tail ∧ isJsonSpace head = false ∧ head ≠ ']'
  reads : ∀ fuel rest, text.length < fuel → EndsNumber rest →
    readValue fuel (text ++ rest) = some (value, rest)

/-- The text is empty or white space. -/
def IsGap (gap : Text) : Prop := ∀ c ∈ gap, isJsonSpace c = true

instance (gap : Text) : Decidable (IsGap gap) := List.decidableBAll _ gap

theorem skipJsonSpace_gap {gap rest : Text} (hgap : IsGap gap) :
    skipJsonSpace (gap ++ rest) = skipJsonSpace rest := by
  rw [skipJsonSpace, List.dropWhile_append_of_pos hgap, skipJsonSpace]

theorem skipJsonSpace_cons {head : Char} {tail : Text} (hhead : isJsonSpace head = false) :
    skipJsonSpace (head :: tail) = head :: tail :=
  List.dropWhile_cons_of_neg (by rw [hhead]; decide)

theorem Reads.skip {text : Text} {value : Value} (reads : Reads text value) {gap : Text}
    (hgap : IsGap gap) (rest : Text) :
    skipJsonSpace (gap ++ (text ++ rest)) = text ++ rest := by
  obtain ⟨head, tail, rfl, hhead, -⟩ := reads.start
  rw [skipJsonSpace_gap hgap]
  exact skipJsonSpace_cons hhead

theorem numeral_text_head {numeral : Numeral} (formed : numeral.WellFormed) :
    ∃ head tail, numeral.text = head :: tail ∧ (head = '-' ∨ head.isDigit = true) := by
  rw [Numeral.text, Numeral.signText]
  split
  · exact ⟨'-', _, rfl, Or.inl rfl⟩
  · cases hwhole : numeral.whole with
    | nil => exact absurd hwhole formed.whole_ne_nil
    | cons head tail =>
        exact ⟨head, _, rfl, Or.inr (formed.whole_digits head (hwhole ▸ List.mem_cons_self))⟩

theorem not_keyword {first head : Char} {keyword tail : Text} (hne : first ≠ head) :
    ¬ (first :: keyword).isPrefixOf (head :: tail) = true := fun hprefixed =>
  hne (List.cons_prefix_cons.mp (List.isPrefixOf_iff_prefix.mp hprefixed)).1

/-- A value that starts with a minus or a digit is read as a number. -/
theorem readValue_number {head : Char} (hhead : head = '-' ∨ head.isDigit = true) (fuel : Nat)
    (tail : Text) : readValue (fuel + 1) (head :: tail) = readNumber (head :: tail) := by
  have hother : ∀ c : Char, c ≠ '-' → c.isDigit = false → head ≠ c := by
    rintro c hminus hdigit rfl
    rcases hhead with hsame | htrue
    · exact hminus hsame
    · rw [hdigit] at htrue
      cases htrue
  have hnull := @not_keyword 'n' head ['u', 'l', 'l'] tail (hother 'n' (by decide) rfl).symm
  have htrue := @not_keyword 't' head ['r', 'u', 'e'] tail (hother 't' (by decide) rfl).symm
  have hfalse := @not_keyword 'f' head ['a', 'l', 's', 'e'] tail (hother 'f' (by decide) rfl).symm
  rw [readValue, if_neg (hother '"' (by decide) rfl), if_neg (hother '[' (by decide) rfl),
    if_neg (hother '\x7b' (by decide) rfl)]
  exact (if_neg hnull).trans ((if_neg htrue).trans (if_neg hfalse))

theorem isJsonSpace_number {head : Char} (hhead : head = '-' ∨ head.isDigit = true) :
    isJsonSpace head = false := by
  cases hspace : isJsonSpace head with
  | false => rfl
  | true =>
      simp only [isJsonSpace, Bool.or_eq_true, decide_eq_true_eq] at hspace
      rcases hspace with ((rfl | rfl) | rfl) | rfl <;> revert hhead <;> decide

theorem reads_numeral {numeral : Numeral} (formed : numeral.WellFormed) :
    Reads numeral.text (numeralValue numeral) := by
  obtain ⟨head, tail, htext, hhead⟩ := numeral_text_head formed
  have hbracket : head ≠ ']' := by
    rintro rfl
    revert hhead
    decide
  refine ⟨⟨head, tail, htext, isJsonSpace_number hhead, hbracket⟩, ?_⟩
  intro fuel rest hfuel hrest
  obtain ⟨less, rfl⟩ := Nat.exists_eq_succ_of_ne_zero (Nat.ne_of_gt (Nat.zero_lt_of_lt hfuel))
  have hnumber := readNumber_numeral formed hrest
  rw [htext, List.cons_append] at hnumber ⊢
  rw [readValue_number hhead, hnumber]

/-- Characters a string holds as they are. -/
def PlainText (text : Text) : Prop := ∀ c ∈ text, c ≠ '"' ∧ c ≠ '\\' ∧ ¬ c.toNat < 32

instance (text : Text) : Decidable (PlainText text) := List.decidableBAll _ text

theorem readString_plain {text : Text} (plain : PlainText text) (rest : Text) {fuel : Nat}
    (hfuel : text.length < fuel) : readString fuel (text ++ '"' :: rest) = some (text, rest) := by
  induction text generalizing fuel with
  | nil =>
      obtain ⟨less, rfl⟩ := Nat.exists_eq_succ_of_ne_zero (Nat.ne_of_gt (Nat.zero_lt_of_lt hfuel))
      rfl
  | cons head tail ih =>
      obtain ⟨less, rfl⟩ := Nat.exists_eq_succ_of_ne_zero (Nat.ne_of_gt (Nat.zero_lt_of_lt hfuel))
      obtain ⟨hquote, hslash, hcontrol⟩ := plain head List.mem_cons_self
      have htail := ih (fun c hmem => plain c (List.mem_cons_of_mem _ hmem))
        (Nat.lt_of_succ_lt_succ hfuel)
      rw [List.cons_append, readString, if_neg hquote, if_neg hslash, if_neg hcontrol, htail]
      rfl

theorem reads_string {text : Text} (plain : PlainText text) :
    Reads ('"' :: (text ++ ['"'])) (.string text) := by
  refine ⟨⟨'"', _, rfl, rfl, by decide⟩, ?_⟩
  intro fuel rest hfuel hrest
  obtain ⟨less, rfl⟩ := Nat.exists_eq_succ_of_ne_zero (Nat.ne_of_gt (Nat.zero_lt_of_lt hfuel))
  have hstring := @readString_plain text plain rest ((text ++ '"' :: rest).length + 1) (by
    rw [List.length_append]
    omega)
  rw [List.cons_append, List.append_assoc, List.singleton_append, readValue, if_pos rfl, hstring]
  rfl

/-! ## Arrays and objects -/

/-- Texts separated by commas, each comma with a gap behind it. -/
def commaJoined (gap : Text) : List Text → Text
  | [] => []
  | [text] => text
  | text :: next :: others => text ++ ',' :: (gap ++ commaJoined gap (next :: others))

theorem commaJoined_cons (gap text : Text) (others : List Text) :
    ∃ tail, commaJoined gap (text :: others) = text ++ tail := by
  cases others with
  | nil => exact ⟨[], (List.append_nil _).symm⟩
  | cons next rest => exact ⟨_, rfl⟩

/-- The items of an array, each read as its value. -/
theorem readItems_joined {gap : Text} (hgap : IsGap gap) {items : List (Text × Value)}
    (hitems : ∀ entry ∈ items, Reads entry.1 entry.2) (hne : items ≠ []) (rest : Text) {fuel : Nat}
    (hfuel : (commaJoined gap (items.map Prod.fst)).length + 1 < fuel) :
    readItems fuel (commaJoined gap (items.map Prod.fst) ++ ']' :: rest) =
      some (items.map Prod.snd, rest) := by
  induction items generalizing fuel with
  | nil => exact absurd rfl hne
  | cons entry others ih =>
      obtain ⟨less, rfl⟩ := Nat.exists_eq_succ_of_ne_zero (Nat.ne_of_gt (Nat.zero_lt_of_lt hfuel))
      have hentry := hitems entry List.mem_cons_self
      cases others with
      | nil =>
          have hread := hentry.reads less (']' :: rest) (Nat.lt_of_succ_lt_succ hfuel)
            (endsNumber_cons (by decide))
          simp only [List.map_cons, List.map_nil, commaJoined, readItems, hread,
            skipJsonSpace_cons (show isJsonSpace ']' = false from rfl)]
          rfl
      | cons next tail =>
          have hnext := hitems next (List.mem_cons_of_mem _ List.mem_cons_self)
          obtain ⟨behind, hjoined⟩ := commaJoined_cons gap next.1 (tail.map Prod.fst)
          simp only [List.map_cons, commaJoined, List.length_append, List.length_cons] at hfuel
          have hread := hentry.reads less (',' :: (gap ++
            commaJoined gap (next.1 :: tail.map Prod.fst) ++ ']' :: rest)) (by omega)
            (endsNumber_cons (by decide))
          have hskip : skipJsonSpace (gap ++ commaJoined gap (next.1 :: tail.map Prod.fst) ++
              ']' :: rest) = commaJoined gap (next.1 :: tail.map Prod.fst) ++ ']' :: rest := by
            rw [hjoined]
            simp only [List.append_assoc]
            exact hnext.skip hgap _
          have htail : readItems less
              (commaJoined gap (next.1 :: tail.map Prod.fst) ++ ']' :: rest) =
                some (next.2 :: tail.map Prod.snd, rest) :=
            ih (fun other hmem => hitems other (List.mem_cons_of_mem _ hmem))
              (List.cons_ne_nil _ _) (by rw [List.map_cons]; omega)
          simp only [List.map_cons, commaJoined, List.append_assoc, List.cons_append, readItems]
          rw [List.append_assoc] at hread hskip
          rw [hread]
          simp only [skipJsonSpace_cons (show isJsonSpace ',' = false from rfl), if_true]
          rw [hskip, htail]
          rfl

theorem reads_array {gap : Text} (hgap : IsGap gap) {items : List (Text × Value)}
    (hitems : ∀ entry ∈ items, Reads entry.1 entry.2) :
    Reads ('[' :: (commaJoined gap (items.map Prod.fst) ++ [']'])) (.array (items.map Prod.snd)) := by
  refine ⟨⟨'[', _, rfl, rfl, by decide⟩, ?_⟩
  intro fuel rest hfuel hrest
  obtain ⟨less, rfl⟩ := Nat.exists_eq_succ_of_ne_zero (Nat.ne_of_gt (Nat.zero_lt_of_lt hfuel))
  rw [List.length_cons, List.length_append, List.length_singleton] at hfuel
  rw [List.cons_append, List.append_assoc, List.singleton_append, readValue,
    if_neg (by decide), if_pos rfl]
  cases items with
  | nil =>
      simp only [List.map_nil, commaJoined, List.nil_append,
        skipJsonSpace_cons (show isJsonSpace ']' = false from rfl), if_true]
  | cons entry others =>
      have hread := readItems_joined hgap hitems (List.cons_ne_nil _ _) rest
        (show _ < less by omega)
      obtain ⟨head, tail, htext, hhead, hbracket⟩ := (hitems entry List.mem_cons_self).start
      obtain ⟨behind, hjoined⟩ := commaJoined_cons gap entry.1 (others.map Prod.fst)
      rw [List.map_cons, hjoined, htext, List.cons_append, List.cons_append] at hread ⊢
      simp only [skipJsonSpace_cons hhead, if_neg hbracket, hread]
      rfl

/-- A name, a colon and a value. -/
def fieldText (name text : Text) : Text := '"' :: (name ++ ['"', ':', ' '] ++ text)

/-- A field of an object: its name, the text of its value and the value. -/
structure Field where
  name : Text
  text : Text
  value : Value

def Field.print (field : Field) : Text := fieldText field.name field.text

def Field.pair (field : Field) : Text × Value := (field.name, field.value)

/-- A gap does not go on a number. -/
theorem endsNumber_gap {gap rest : Text} (hgap : IsGap gap) (hrest : EndsNumber rest) :
    EndsNumber (gap ++ rest) := by
  cases gap with
  | nil => exact hrest
  | cons head tail =>
      apply endsNumber_cons
      have hspace := hgap head List.mem_cons_self
      simp only [isJsonSpace, Bool.or_eq_true, decide_eq_true_eq] at hspace
      rcases hspace with ((rfl | rfl) | rfl) | rfl <;> decide

/-- One field, up to what follows its value. -/
theorem readFields_field {field : Field} (plain : PlainText field.name)
    (reads : Reads field.text field.value) {fuel : Nat} (hfuel : field.text.length < fuel)
    {gap : Text} (hgap : IsGap gap) {head : Char}
    (hhead : head.isDigit = false ∧ head ≠ '.' ∧ head ≠ 'e' ∧ head ≠ 'E')
    (hspace : isJsonSpace head = false) (tail : Text) :
    readFields (fuel + 1) (field.print ++ (gap ++ head :: tail)) =
      if head = ',' then
        (readFields fuel (skipJsonSpace tail)).map fun found =>
          (field.pair :: found.1, found.2)
      else if head = '\x7d' then some ([field.pair], tail)
      else none := by
  have hstring := @readString_plain field.name plain
    (':' :: ' ' :: (field.text ++ (gap ++ head :: tail)))
    ((field.name ++ '"' :: ':' :: ' ' :: (field.text ++ (gap ++ head :: tail))).length + 1) (by
      rw [List.length_append]
      omega)
  have hvalue := reads.skip (show IsGap [' '] by decide) (gap ++ head :: tail)
  have hread := reads.reads fuel (gap ++ head :: tail) hfuel
    (endsNumber_gap hgap (endsNumber_cons hhead))
  have hbehind : skipJsonSpace (gap ++ head :: tail) = head :: tail := by
    rw [skipJsonSpace_gap hgap, skipJsonSpace_cons hspace]
  have htext : field.print ++ (gap ++ head :: tail) =
      '"' :: (field.name ++ '"' :: ':' :: ' ' :: (field.text ++ (gap ++ head :: tail))) := by
    simp only [Field.print, fieldText, List.append_assoc, List.cons_append, List.nil_append]
  rw [List.singleton_append] at hvalue
  rw [htext, readFields, if_neg (by decide), hstring]
  simp only [skipJsonSpace_cons (show isJsonSpace ':' = false from rfl), ne_eq, not_true,
    if_false, hvalue, hread, hbehind]
  rfl

/-- The fields of an object, each read as its name and value. -/
theorem readFields_joined {gap close : Text} (hgap : IsGap gap) (hclose : IsGap close)
    {fields : List Field} (hfields : ∀ field ∈ fields, PlainText field.name ∧
      Reads field.text field.value) (hne : fields ≠ []) (rest : Text) {fuel : Nat}
    (hfuel : (commaJoined gap (fields.map Field.print)).length + 1 < fuel) :
    readFields fuel (commaJoined gap (fields.map Field.print) ++ (close ++ '\x7d' :: rest)) =
      some (fields.map Field.pair, rest) := by
  induction fields generalizing fuel with
  | nil => exact absurd rfl hne
  | cons field others ih =>
      obtain ⟨less, rfl⟩ := Nat.exists_eq_succ_of_ne_zero (Nat.ne_of_gt (Nat.zero_lt_of_lt hfuel))
      obtain ⟨plain, reads⟩ := hfields field List.mem_cons_self
      have hprint : field.text.length < field.print.length := by
        simp only [Field.print, fieldText, List.length_cons, List.length_append]
        omega
      cases others with
      | nil =>
          simp only [List.map_cons, List.map_nil, commaJoined] at hfuel ⊢
          rw [readFields_field plain reads (by omega) hclose (by decide) (by decide) rest]
          rfl
      | cons next tail =>
          simp only [List.map_cons, commaJoined, List.length_append, List.length_cons] at hfuel
          have hjoined : commaJoined gap ((field :: next :: tail).map Field.print) ++
              (close ++ '\x7d' :: rest) = field.print ++ ([] ++ ',' :: (gap ++
                (commaJoined gap ((next :: tail).map Field.print) ++ (close ++ '\x7d' :: rest)))) := by
            simp only [List.map_cons, commaJoined, List.append_assoc, List.cons_append,
              List.nil_append]
          have hskip : skipJsonSpace (gap ++ (commaJoined gap ((next :: tail).map Field.print) ++
              (close ++ '\x7d' :: rest))) = commaJoined gap ((next :: tail).map Field.print) ++
                (close ++ '\x7d' :: rest) := by
            obtain ⟨behind, hnext⟩ := commaJoined_cons gap next.print (tail.map Field.print)
            rw [skipJsonSpace_gap hgap, List.map_cons, hnext]
            exact skipJsonSpace_cons rfl
          have htail := ih (fun other hmem => hfields other (List.mem_cons_of_mem _ hmem))
            (List.cons_ne_nil _ _) (show _ < less by rw [List.map_cons]; omega)
          rw [hjoined, readFields_field plain reads (by omega)
            (fun _ hmem => absurd hmem List.not_mem_nil) (by decide) (by decide), if_pos rfl, hskip,
            htail]
          rfl

/-- An object with the same gap before each field. -/
def objectText (gap close : Text) (fields : List Field) : Text :=
  '\x7b' :: (gap ++ (commaJoined gap (fields.map Field.print) ++ (close ++ ['\x7d'])))

theorem reads_object {gap close : Text} (hgap : IsGap gap) (hclose : IsGap close)
    {fields : List Field} (hfields : ∀ field ∈ fields, PlainText field.name ∧
      Reads field.text field.value) (hne : fields ≠ []) :
    Reads (objectText gap close fields) (.object (fields.map Field.pair)) := by
  refine ⟨⟨'\x7b', _, rfl, rfl, by decide⟩, ?_⟩
  intro fuel rest hfuel hrest
  obtain ⟨less, rfl⟩ := Nat.exists_eq_succ_of_ne_zero (Nat.ne_of_gt (Nat.zero_lt_of_lt hfuel))
  simp only [objectText, List.length_cons, List.length_append, List.length_nil] at hfuel
  have hread := readFields_joined hgap hclose hfields hne rest (show _ < less by omega)
  cases fields with
  | nil => exact absurd rfl hne
  | cons field others =>
      obtain ⟨behind, hjoined⟩ := commaJoined_cons gap field.print (others.map Field.print)
      have htext : objectText gap close (field :: others) ++ rest =
          '\x7b' :: (gap ++ (field.print ++ (behind ++ (close ++ '\x7d' :: rest)))) := by
        simp only [objectText, List.map_cons, hjoined, List.append_assoc, List.cons_append,
          List.nil_append]
      have hskip : skipJsonSpace (gap ++ (field.print ++ (behind ++ (close ++ '\x7d' :: rest)))) =
          field.print ++ (behind ++ (close ++ '\x7d' :: rest)) := by
        rw [skipJsonSpace_gap hgap]
        exact skipJsonSpace_cons rfl
      rw [List.map_cons, hjoined, List.append_assoc] at hread
      rw [htext, readValue, if_neg (by decide), if_neg (by decide), if_pos rfl, hskip]
      simp only [Field.print, fieldText, List.cons_append] at hread ⊢
      rw [if_neg (by decide), hread]
      rfl

/-- A text with a value and white space at its end is loaded as the value. -/
theorem loads_reads {text : Text} {value : Value} (reads : Reads text value) {close : Text}
    (hclose : IsGap close) : loads (text ++ close) = some value := by
  have hends : EndsNumber close := by
    have := @endsNumber_gap close [] hclose (fun _ hmem => by cases hmem)
    rwa [List.append_nil] at this
  have hskip := reads.skip (show IsGap [] from fun _ hmem => absurd hmem List.not_mem_nil) close
  rw [List.nil_append] at hskip
  have hread := reads.reads ((text ++ close).length + 1) close (by
    rw [List.length_append]
    omega) hends
  have hrest : skipJsonSpace close = [] := List.dropWhile_eq_nil_iff.mpr hclose
  rw [loads, hskip, hread]
  simp only [hrest, if_true]

end DeepcV2x.Foundation.Json
