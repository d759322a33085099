import DeepcV2x.Foundation.Octets
import Mathlib.Algebra.Order.Ring.Nat

/-!
# Numbers in groups of seven bits

A number is written as octets with seven of its bits each, the lowest ones
first.  All octets but the last have their high bit set.
-/

namespace DeepcV2x.Foundation.Leb128

open Octets

/-- The octets of a number, so many of them before the last one. -/
def encode : Nat → Nat → List UInt8
  | 0, value => [UInt8.ofNat value]
  | more + 1, value => (0x80 ||| (UInt8.ofNat value &&& 0x7f)) :: encode more (value >>> 7)

@[simp]
theorem length_encode (more value : Nat) : (encode more value).length = more + 1 := by
  induction more generalizing value with
  | zero => rfl
  | succ more ih => rw [encode, List.length_cons, ih]

/-- Reads at most so many octets, behind lower bits that were read before. -/
def decodeFrom : Nat → Nat → Nat → Reader Nat
  | 0, _, _ => fun _ => none
  | octets + 1, shift, lower => do
      let byte ← octet
      let result := lower ||| (byte &&& 0x7f).toNat <<< shift
      if byte &&& 0x80 = 0 then pure result else decodeFrom octets (shift + 7) result

theorem last_octet : ∀ value : Fin 128,
    (UInt8.ofNat value.val &&& 0x7f).toNat = value.val ∧ UInt8.ofNat value.val &&& 0x80 = 0 := by
  decide +kernel

theorem other_octet : ∀ value : Fin 256,
    ((0x80 ||| (UInt8.ofNat value.val &&& 0x7f)) &&& 0x7f).toNat = value.val % 128 ∧
      (0x80 ||| (UInt8.ofNat value.val &&& 0x7f)) &&& 0x80 ≠ 0 := by
  decide +kernel

theorem or_shiftLeft {lower shift value : Nat} (hlower : lower < 2 ^ shift) :
    lower ||| value <<< shift = lower + value * 2 ^ shift := by
  rw [Nat.shiftLeft_eq, Nat.or_comm, Nat.mul_comm, ← Nat.two_pow_add_eq_or_of_lt hlower, Nat.add_comm]

/-- A number is read back behind its lower bits. -/
theorem reads_decodeFrom {more octets : Nat} (hoctets : more < octets) {shift lower value : Nat}
    (hlower : lower < 2 ^ shift) (hvalue : value < 2 ^ (7 * (more + 1))) :
    Reads (decodeFrom octets shift lower) (encode more value) (lower + value * 2 ^ shift) := by
  induction more generalizing octets shift lower value with
  | zero =>
      obtain ⟨octets, rfl⟩ : ∃ left, octets = left + 1 := ⟨octets - 1, by omega⟩
      obtain ⟨hresult, hend⟩ := last_octet ⟨value, hvalue⟩
      intro rest
      rw [decodeFrom, encode]
      refine (bind_of_eq (reads_octet _ rest)).trans ?_
      dsimp only at hresult hend
      rw [hend, if_pos rfl, hresult, or_shiftLeft hlower]
      rfl
  | succ more ih =>
      obtain ⟨octets, rfl⟩ : ∃ left, octets = left + 1 := ⟨octets - 1, by omega⟩
      have hbyte : UInt8.ofNat (value % 256) = UInt8.ofNat value := UInt8.toNat_inj.mp (by
        rw [UInt8.toNat_ofNat', UInt8.toNat_ofNat', Nat.mod_mod])
      obtain ⟨hresult, hmore⟩ := other_octet ⟨value % 256, Nat.mod_lt _ (by decide)⟩
      rw [hbyte] at hresult hmore
      intro rest
      rw [decodeFrom, encode, List.cons_append]
      refine (bind_of_eq (reads_octet _ (encode more (value >>> 7) ++ rest))).trans ?_
      dsimp only at hresult ⊢
      rw [if_neg hmore, hresult, or_shiftLeft hlower, Nat.shiftRight_eq_div_pow]
      have hsplit : value % 256 % 128 * 2 ^ shift + value / 2 ^ 7 * 2 ^ (shift + 7) =
          value * 2 ^ shift := by
        rw [Nat.mod_mod_of_dvd _ (by decide), Nat.pow_add, Nat.mul_comm (2 ^ shift), ← Nat.mul_assoc,
          ← Nat.add_mul]
        exact congrArg (· * 2 ^ shift) (Nat.mod_add_div' value 128)
      have hlow : lower + value % 256 % 128 * 2 ^ shift < 2 ^ (shift + 7) := by
        have : value % 256 % 128 * 2 ^ shift ≤ 127 * 2 ^ shift := Nat.mul_le_mul_right _ (by omega)
        rw [Nat.pow_add]
        omega
      have hhigh : value / 2 ^ 7 < 2 ^ (7 * (more + 1)) := by
        rw [Nat.div_lt_iff_lt_mul (by decide), ← Nat.pow_add]
        exact hvalue
      rw [ih (Nat.lt_of_succ_lt_succ hoctets) hlow hhigh rest, Nat.add_assoc, hsplit]

end DeepcV2x.Foundation.Leb128
