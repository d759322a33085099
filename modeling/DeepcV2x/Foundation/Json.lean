import DeepcV2x.Foundation.Strings
import Mathlib.Data.List.Nodup
import Mathlib.Data.Rat.Defs

/-!
# JSON values and their printed form

The values of the standard `json` module, with integers and floats apart, and
`json.dump` with an indent of two.  How a float is printed is a parameter.
-/

namespace DeepcV2x.Foundation.Json

open DeepcV2x.Foundation.Strings

inductive Value
  | null
  | bool (flag : Bool)
  | int (number : ℤ)
  | float (number : ℚ)
  | string (text : Text)
  | array (items : List Value)
  | object (fields : List (Text × Value))

/-- The last field of an object with a name. -/
def lookupField (fields : List (Text × Value)) (name : Text) : Option Value :=
  (fields.reverse.find? fun field => field.1 = name).map Prod.snd

/-- With distinct names every field is the one looked up. -/
theorem lookupField_of_mem {fields : List (Text × Value)} (distinct : (fields.map Prod.fst).Nodup)
    {name : Text} {value : Value} (hmem : (name, value) ∈ fields) :
    lookupField fields name = some value := by
  rw [lookupField]
  cases hfound : fields.reverse.find? fun field => field.1 = name with
  | none =>
      have := List.find?_eq_none.mp hfound (name, value) (List.mem_reverse.mpr hmem)
      simp at this
  | some found =>
      have hname : found.1 = name := by simpa using List.find?_some hfound
      have hin : found ∈ fields := List.mem_reverse.mp (List.mem_of_find?_eq_some hfound)
      rw [List.inj_on_of_nodup_map distinct hin hmem hname]
      rfl

/-! ## Strings -/

/-- Four hexadecimal digits after `\u`. -/
def unicodeEscape (code : Nat) : Text :=
  let digits := Nat.toDigits 16 code
  '\\' :: 'u' :: (List.replicate (4 - digits.length) '0' ++ digits)

/-- The escapes of `ensure_ascii`; a character beyond 16 bits becomes a surrogate pair. -/
def escapeChar (c : Char) : Text :=
  if c = '"' then ['\\', '"']
  else if c = '\\' then ['\\', '\\']
  else if c = '\n' then ['\\', 'n']
  else if c = '\r' then ['\\', 'r']
  else if c = '\t' then ['\\', 't']
  else if c = '\x0c' then ['\\', 'f']
  else if c = '\x08' then ['\\', 'b']
  else if 32 ≤ c.toNat ∧ c.toNat ≤ 126 then [c]
  else if c.toNat < 65536 then unicodeEscape c.toNat
  else
    let offset := c.toNat - 65536
    unicodeEscape (55296 + offset / 1024) ++ unicodeEscape (56320 + offset % 1024)

def escapeText (text : Text) : Text := text.flatMap escapeChar

def printString (text : Text) : Text := '"' :: (escapeText text ++ ['"'])

theorem quote_notMem_hexDigits (code : Nat) : '"' ∉ Nat.toDigits 16 code := by
  have hdigit : ∀ digit, digit < 16 → Nat.digitChar digit ≠ '"' := by decide
  induction code using Nat.strongRecOn with
  | ind code ih =>
      rw [Nat.toDigits_eq_if (by decide)]
      split
      next hsmall =>
        rw [List.mem_singleton]
        exact (hdigit code hsmall).symm
      next hlarge =>
        rw [List.mem_append, List.mem_singleton, not_or]
        exact ⟨ih _ (by omega), (hdigit _ (Nat.mod_lt _ (by decide))).symm⟩

theorem quote_notMem_unicodeEscape (code : Nat) : '"' ∉ unicodeEscape code := by
  have hzeros : '"' ∉ List.replicate (4 - (Nat.toDigits 16 code).length) '0' := fun hmem =>
    absurd (List.eq_of_mem_replicate hmem) (by decide)
  simp [unicodeEscape, hzeros, quote_notMem_hexDigits code]

/-- No escape but that of the quote has a quote in it. -/
theorem quote_notMem_escapeChar {c : Char} (hne : c ≠ '"') : '"' ∉ escapeChar c := by
  have hself : '"' ∉ [c] := fun hmem => hne (List.mem_singleton.mp hmem).symm
  unfold escapeChar
  split
  next hquote => exact absurd hquote hne
  next =>
    iterate 6 (split; · decide)
    split
    · exact hself
    · split
      · exact quote_notMem_unicodeEscape _
      · rw [List.mem_append, not_or]
        exact ⟨quote_notMem_unicodeEscape _, quote_notMem_unicodeEscape _⟩

theorem quote_notMem_escapeText {text : Text} (hplain : '"' ∉ text) :
    '"' ∉ escapeText text := by
  rw [escapeText, List.mem_flatMap]
  rintro ⟨c, hmem, hquote⟩
  exact quote_notMem_escapeChar (fun same => hplain (same ▸ hmem)) hquote

/-- A character is printed as it is or with a backslash. -/
theorem escapeChar_eq_or (c : Char) : escapeChar c = [c] ∨ '\\' ∈ escapeChar c := by
  have hunicode : ∀ code rest, '\\' ∈ unicodeEscape code ++ rest := fun code rest =>
    List.mem_append_left _ List.mem_cons_self
  unfold escapeChar
  split
  · exact Or.inr List.mem_cons_self
  · iterate 6 (split; · exact Or.inr List.mem_cons_self)
    split
    · exact Or.inl rfl
    · split
      · exact Or.inr List.mem_cons_self
      · exact Or.inr (hunicode _ _)

/-- A text printed without a backslash is printed as it is. -/
theorem escapeText_eq_self {text : Text} (hplain : '\\' ∉ escapeText text) :
    escapeText text = text := by
  induction text with
  | nil => rfl
  | cons c rest ih =>
      rw [escapeText, List.flatMap_cons, List.mem_append, not_or] at hplain
      rcases escapeChar_eq_or c with hself | hescaped
      · rw [escapeText, List.flatMap_cons, hself, List.singleton_append]
        exact congrArg _ (ih hplain.2)
      · exact absurd hescaped hplain.1

/-! ## Values -/

def printInt (number : ℤ) : Text :=
  if number < 0 then '-' :: Nat.toDigits 10 number.natAbs else Nat.toDigits 10 number.natAbs

/-- The line break before an item. -/
def newline (depth : Nat) : Text := '\n' :: List.replicate (2 * depth) ' '

section Print

variable (printFloat : ℚ → Text)

mutual

/-- `json.dump(value, indent=2)` at a nesting depth. -/
def print (depth : Nat) : Value → Text
  | .null => "null".toList
  | .bool true => "true".toList
  | .bool false => "false".toList
  | .int number => printInt number
  | .float number => printFloat number
  | .string text => printString text
  | .array [] => "[]".toList
  | .array (head :: tail) =>
      '[' :: (newline (depth + 1) ++ print (depth + 1) head ++ printItems (depth + 1) tail ++
        newline depth ++ [']'])
  | .object [] => "\x7b\x7d".toList
  | .object ((name, head) :: tail) =>
      '\x7b' :: (newline (depth + 1) ++ printString name ++ [':', ' '] ++ print (depth + 1) head ++
        printFields (depth + 1) tail ++ newline depth ++ ['\x7d'])

/-- Further items, each after a comma. -/
def printItems (depth : Nat) : List Value → Text
  | [] => []
  | head :: tail => ',' :: (newline depth ++ print depth head ++ printItems depth tail)

/-- Further fields, each after a comma. -/
def printFields (depth : Nat) : List (Text × Value) → Text
  | [] => []
  | (name, head) :: tail =>
      ',' :: (newline depth ++ printString name ++ [':', ' '] ++ print depth head ++
        printFields depth tail)

end

variable {printFloat}

/-- A printed list of floats has no quotes when no printed float has one. -/
theorem quote_notMem_printItems {depth : Nat} {numbers : List ℚ}
    (hnumbers : ∀ number ∈ numbers, '"' ∉ printFloat number) :
    '"' ∉ printItems printFloat depth (numbers.map .float) := by
  induction numbers with
  | nil => exact List.not_mem_nil
  | cons number rest ih =>
      have hnumber := hnumbers number List.mem_cons_self
      have hrest := ih fun other hmem => hnumbers other (List.mem_cons_of_mem _ hmem)
      simp [printItems, print, newline, hnumber, hrest]

theorem quote_notMem_printFloats {depth : Nat} {numbers : List ℚ}
    (hnumbers : ∀ number ∈ numbers, '"' ∉ printFloat number) :
    '"' ∉ print printFloat depth (.array (numbers.map .float)) := by
  cases numbers with
  | nil =>
      rw [List.map_nil, print]
      decide
  | cons number rest =>
      have hnumber := hnumbers number List.mem_cons_self
      have hrest := @quote_notMem_printItems printFloat (depth + 1) rest
        fun other hmem => hnumbers other (List.mem_cons_of_mem _ hmem)
      simp [print, newline, hnumber, hrest]

end Print

end DeepcV2x.Foundation.Json
