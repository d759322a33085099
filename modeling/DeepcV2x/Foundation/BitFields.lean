import Mathlib.Data.Nat.Bitwise
import Mathlib.Tactic.Ring

/-!
# Bit fields

Fields are put one above the other into a number, the first one into the lowest
bits.  A word of a fixed width is a field as any other, so that the same bits
can be cut into fields and into words.
-/

namespace DeepcV2x.Foundation.BitFields

/-- A value and the number of its bits. -/
abbrev Field := Nat × Nat

/-- The number of bits of fields. -/
def bits : List Field → Nat
  | [] => 0
  | field :: rest => field.2 + bits rest

/-- The number that holds the fields. -/
def packed : List Field → Nat
  | [] => 0
  | field :: rest => field.1 + 2 ^ field.2 * packed rest

/-- Every value fits its field. -/
def Fit (fields : List Field) : Prop := ∀ field ∈ fields, field.1 < 2 ^ field.2

instance (fields : List Field) : Decidable (Fit fields) :=
  inferInstanceAs (Decidable (∀ field ∈ fields, field.1 < 2 ^ field.2))

@[simp]
theorem bits_nil : bits [] = 0 := rfl

@[simp]
theorem bits_cons (field : Field) (rest : List Field) :
    bits (field :: rest) = field.2 + bits rest := rfl

theorem packed_singleton (value width : Nat) : packed [(value, width)] = value := by
  rw [packed, packed, Nat.mul_zero, Nat.add_zero]

theorem bits_append (low high : List Field) : bits (low ++ high) = bits low + bits high := by
  induction low with
  | nil => exact (Nat.zero_add _).symm
  | cons field low ih => rw [List.cons_append, bits_cons, bits_cons, ih, Nat.add_assoc]

theorem packed_append (low high : List Field) :
    packed (low ++ high) = packed low + 2 ^ bits low * packed high := by
  induction low with
  | nil => rw [List.nil_append, packed, bits_nil, Nat.pow_zero, Nat.one_mul, Nat.zero_add]
  | cons field low ih =>
      rw [List.cons_append, packed, packed, bits_cons, ih, Nat.pow_add]
      ring

theorem packed_lt {fields : List Field} (fit : Fit fields) : packed fields < 2 ^ bits fields := by
  induction fields with
  | nil => exact Nat.one_pos
  | cons field rest ih =>
      obtain ⟨hfield, hrest⟩ := List.forall_mem_cons.mp fit
      have hless := Nat.mul_le_mul_left (2 ^ field.2) (Nat.succ_le_of_lt (ih hrest))
      rw [packed, bits_cons, Nat.pow_add]
      rw [Nat.mul_succ] at hless
      omega

/-- A field is cut out of the number. -/
theorem packed_field {before after : List Field} {field : Field}
    (fit : Fit (before ++ field :: after)) :
    packed (before ++ field :: after) / 2 ^ bits before % 2 ^ field.2 = field.1 := by
  obtain ⟨hbefore, hafter⟩ := List.forall_mem_append.mp fit
  rw [packed_append, Nat.add_mul_div_left _ _ (Nat.two_pow_pos _),
    Nat.div_eq_of_lt (packed_lt hbefore), Nat.zero_add, packed, Nat.add_mul_mod_self_left,
    Nat.mod_eq_of_lt (List.forall_mem_cons.mp hafter).1]

/-! ## Words -/

/-- Words as fields of the same width. -/
def asFields (width : Nat) (words : List Nat) : List Field := words.map fun word => (word, width)

theorem asFields_append (width : Nat) (low high : List Nat) :
    asFields width (low ++ high) = asFields width low ++ asFields width high :=
  List.map_append

theorem packed_word (width word : Nat) : packed (asFields width [word]) = word :=
  packed_singleton word width

theorem bits_asFields (width : Nat) (words : List Nat) :
    bits (asFields width words) = width * words.length := by
  induction words with
  | nil => rfl
  | cons word words ih =>
      rw [asFields, List.map_cons, bits_cons, List.length_cons, Nat.mul_succ, Nat.add_comm]
      exact congrArg (· + width) ih

theorem fit_asFields {width : Nat} {words : List Nat} (hwords : ∀ word ∈ words, word < 2 ^ width) :
    Fit (asFields width words) :=
  List.forall_mem_map.mpr hwords

/-- A word holds its part of the bits. -/
theorem word_eq {width index word : Nat} {words : List Nat}
    (hwords : ∀ word ∈ words, word < 2 ^ width) (hword : words[index]? = some word) :
    word = packed (asFields width words) / 2 ^ (width * index) % 2 ^ width := by
  obtain ⟨hindex, rfl⟩ := List.getElem?_eq_some_iff.mp hword
  have hsplit : words = words.take index ++ words[index] :: words.drop (index + 1) := by
    rw [← List.drop_eq_getElem_cons hindex, List.take_append_drop]
  have hfields : asFields width words =
      asFields width (words.take index) ++ (words[index], width) ::
        asFields width (words.drop (index + 1)) := by
    conv_lhs => rw [hsplit, asFields_append]
    rfl
  have hfield := packed_field (hfields ▸ fit_asFields hwords)
  rw [bits_asFields, List.length_take, Nat.min_eq_left (Nat.le_of_lt hindex)] at hfield
  rw [hfields]
  exact hfield.symm

theorem testBit_word {width index word : Nat} {words : List Nat}
    (hwords : ∀ word ∈ words, word < 2 ^ width) (hword : words[index]? = some word) (i : Nat) :
    word.testBit i =
      (decide (i < width) && (packed (asFields width words)).testBit (width * index + i)) := by
  conv_lhs => rw [word_eq hwords hword]
  rw [Nat.testBit_mod_two_pow, Nat.testBit_div_two_pow, Nat.add_comm i]

end DeepcV2x.Foundation.BitFields
