import Mathlib.Data.BitVec
import Mathlib.Data.List.Basic
import Mathlib.Tactic.IntervalCases

/-!
# Bits of octets

A string of bits is read from the most significant bit of its first octet on.
Bits that do not fill an octet are its first ones, and the others are zero.
-/

namespace DeepcV2x.Foundation.BitOctets

/-! ## Bits in descending order -/

/-- The lowest bits, the most significant one first. -/
def descending (bit : Nat → Bool) : Nat → List Bool
  | 0 => []
  | size + 1 => bit size :: descending bit size

@[simp]
theorem length_descending (bit : Nat → Bool) (size : Nat) :
    (descending bit size).length = size := by
  induction size with
  | zero => rfl
  | succ size ih => rw [descending, List.length_cons, ih]

theorem descending_add (bit : Nat → Bool) (low high : Nat) :
    descending bit (high + low) =
      descending (fun index => bit (index + low)) high ++ descending bit low := by
  induction high with
  | zero => rw [Nat.zero_add, descending, List.nil_append]
  | succ high ih => rw [Nat.add_right_comm, descending, ih, descending, List.cons_append]

theorem descending_congr {first second : Nat → Bool} {size : Nat}
    (heq : ∀ index < size, first index = second index) :
    descending first size = descending second size := by
  induction size with
  | zero => rfl
  | succ size ih =>
      rw [descending, descending, heq size (Nat.lt_succ_self size),
        ih fun index hindex => heq index (Nat.lt_succ_of_lt hindex)]

theorem eq_of_descending_eq {first second : Nat → Bool} {size : Nat}
    (heq : descending first size = descending second size) :
    ∀ index < size, first index = second index := by
  induction size with
  | zero => exact fun index hindex => absurd hindex (Nat.not_lt_zero _)
  | succ size ih =>
      obtain ⟨htop, hrest⟩ := List.cons.inj heq
      intro index hindex
      rcases Nat.lt_succ_iff_lt_or_eq.mp hindex with hbelow | rfl
      · exact ih hrest index hbelow
      · exact htop

/-! ## One octet -/

/-- The bits of an octet. -/
def octetBits (octet : UInt8) : List Bool := descending octet.toBitVec.getLsbD 8

@[simp]
theorem length_octetBits (octet : UInt8) : (octetBits octet).length = 8 := rfl

/-- The first bits of an octet, and the others. -/
theorem octetBits_eq_append (octet : UInt8) {count : Nat} (hcount : count ≤ 8) :
    octetBits octet =
      descending (fun index => octet.toBitVec.getLsbD (index + (8 - count))) count ++
        (octetBits octet).drop count := by
  have hsplit : octetBits octet = _ :=
    (congrArg (descending _) (Nat.add_sub_cancel' hcount).symm).trans
      (descending_add octet.toBitVec.getLsbD (8 - count) count)
  conv_rhs => rw [hsplit, List.drop_left' (length_descending _ _)]
  exact hsplit

/-- The octet of one bit, from the most significant one on. -/
def mask (position : Nat) : UInt8 := UInt8.ofNat (128 >>> position)

/-- The octet that has some bits from a position on. -/
def octetFrom : Nat → List Bool → UInt8
  | _, [] => 0
  | position, bit :: rest => (if bit then mask position else 0) ||| octetFrom (position + 1) rest

/-- The octet that starts with some bits. -/
def octetOf (bits : List Bool) : UInt8 := octetFrom 0 bits

theorem octetFrom_append (bits : List Bool) (bit : Bool) : ∀ position : Nat,
    octetFrom position (bits ++ [bit]) =
      octetFrom position bits ||| if bit then mask (position + bits.length) else 0 := by
  induction bits with
  | nil =>
      intro position
      rw [List.nil_append, octetFrom, octetFrom, octetFrom, UInt8.or_zero, UInt8.zero_or]
      rfl
  | cons first rest ih =>
      intro position
      rw [List.cons_append, octetFrom, ih, octetFrom, UInt8.or_assoc, List.length_cons,
        Nat.add_right_comm, Nat.add_assoc position]

/-- One more bit behind some bits. -/
theorem octetOf_append (bits : List Bool) (bit : Bool) :
    octetOf (bits ++ [bit]) = octetOf bits ||| if bit then mask bits.length else 0 := by
  rw [octetOf, octetFrom_append, Nat.zero_add]
  rfl

/-- Zero bits behind some bits change nothing. -/
theorem octetOf_append_zeros (bits : List Bool) (count : Nat) :
    octetOf (bits ++ List.replicate count false) = octetOf bits := by
  induction count with
  | zero => rw [List.replicate_zero, List.append_nil]
  | succ count ih =>
      rw [List.replicate_succ', ← List.append_assoc, octetOf_append, ih, if_neg Bool.false_ne_true,
        UInt8.or_zero]

theorem octetBits_octetOf_eight : ∀ first second third fourth fifth sixth seventh eighth : Bool,
    octetBits (octetOf [first, second, third, fourth, fifth, sixth, seventh, eighth]) =
      [first, second, third, fourth, fifth, sixth, seventh, eighth] := by
  decide +kernel

/-- Eight bits are the bits of their octet. -/
theorem octetBits_octetOf {bits : List Bool} (hlength : bits.length = 8) :
    octetBits (octetOf bits) = bits := by
  match bits, hlength with
  | [_, _, _, _, _, _, _, _], _ => exact octetBits_octetOf_eight ..

/-- Fewer bits are padded with zeros. -/
theorem octetBits_octetOf_padded {bits : List Bool} (hlength : bits.length ≤ 8) :
    octetBits (octetOf bits) = bits ++ List.replicate (8 - bits.length) false := by
  rw [← octetOf_append_zeros bits (8 - bits.length), octetBits_octetOf]
  rw [List.length_append, List.length_replicate, Nat.add_sub_cancel' hlength]

/-! ## Masks -/

theorem mask_succ {position : Nat} (hposition : position ≤ 8) :
    mask position >>> 1 = mask (position + 1) := by
  interval_cases position <;> rfl

theorem mask_succ_and_not {position : Nat} (hposition : position ≤ 8) :
    mask position >>> 1 &&& ~~~mask position = mask (position + 1) := by
  interval_cases position <;> rfl

/-- A mask tests its bit. -/
theorem and_mask {position : Nat} (hposition : position < 8) (octet : UInt8) :
    (octet &&& mask position != 0) = octet.toBitVec.getLsbD (7 - position) := by
  have hmask : (mask position).toBitVec = BitVec.twoPow 8 (7 - position) := by
    interval_cases position <;> rfl
  have hand : (octet &&& mask position).toBitVec =
      if octet.toBitVec.getLsbD (7 - position) then BitVec.twoPow 8 (7 - position) else 0#8 := by
    rw [UInt8.toBitVec_and, hmask, BitVec.and_twoPow]
  cases hbit : octet.toBitVec.getLsbD (7 - position) with
  | false =>
      rw [hbit, if_neg Bool.false_ne_true] at hand
      rw [show octet &&& mask position = 0 from UInt8.toBitVec_inj.mp hand]
      rfl
  | true =>
      rw [hbit, if_pos rfl, ← hmask] at hand
      rw [show octet &&& mask position = mask position from UInt8.toBitVec_inj.mp hand]
      interval_cases position <;> rfl

/-- The first bit of an octet, and those of the octet behind it. -/
theorem take_octetBits_succ (octet : UInt8) {count : Nat} (hcount : count < 7) :
    (octetBits octet).take (count + 1) =
      octet.toBitVec.getLsbD 7 :: (octetBits (octet <<< 1)).take count := by
  interval_cases count <;> simp [octetBits, descending]

/-- The bits of a shifted octet. -/
theorem take_octetBits_shiftLeft (octet : UInt8) {count : Nat} (hcount : count < 8) :
    (octetBits (octet <<< UInt8.ofNat count)).take (8 - count) = (octetBits octet).drop count := by
  interval_cases count <;> simp [octetBits, descending]

/-! ## Many octets -/

/-- The bits of some octets. -/
def bitsOf (octets : List UInt8) : List Bool := octets.flatMap octetBits

@[simp]
theorem bitsOf_nil : bitsOf [] = [] := rfl

@[simp]
theorem bitsOf_cons (octet : UInt8) (octets : List UInt8) :
    bitsOf (octet :: octets) = octetBits octet ++ bitsOf octets := rfl

theorem bitsOf_append (first second : List UInt8) :
    bitsOf (first ++ second) = bitsOf first ++ bitsOf second := List.flatMap_append

@[simp]
theorem length_bitsOf (octets : List UInt8) : (bitsOf octets).length = 8 * octets.length := by
  induction octets with
  | nil => rfl
  | cons octet octets ih =>
      rw [bitsOf_cons, List.length_append, ih, length_octetBits, List.length_cons, Nat.mul_succ,
        Nat.add_comm]

end DeepcV2x.Foundation.BitOctets
