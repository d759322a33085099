import Mathlib.Tactic.Common

/-!
# Sequence numbers of 32 bits

`SequenceNumber32` and the arithmetic of `uint32_t`.  A comparison looks at the
shorter way around; two numbers half a turn apart compare as plain numbers the
other way round.
-/

namespace DeepcV2x.Tcp

def add32 (number delta : Nat) : Nat := (number + delta) % 4294967296

def sub32 (number delta : Nat) : Nat := (number + 4294967296 - delta) % 4294967296

theorem sub32_eq {number delta : Nat} (hle : delta ≤ number) (hword : number < 4294967296) :
    sub32 number delta = number - delta := by
  rw [sub32]
  omega

theorem add32_zero {number : Nat} (hword : number < 4294967296) : add32 number 0 = number := by
  rw [add32, Nat.add_zero, Nat.mod_eq_of_lt hword]

theorem add32_add32 (number delta other : Nat) :
    add32 (add32 number delta) other = add32 number (delta + other) := by
  rw [add32, add32, add32, Nat.mod_add_mod, Nat.add_assoc]

namespace SequenceNumber32

def Gt (seq other : Nat) : Prop :=
  (other < seq ∧ seq - other ≤ 2147483647) ∨ (seq < other ∧ 2147483647 < other - seq)

def Le (seq other : Nat) : Prop := ¬ Gt seq other

def Ge (seq other : Nat) : Prop := Gt seq other ∨ seq = other

def Lt (seq other : Nat) : Prop := ¬ Gt seq other ∧ seq ≠ other

instance (seq other : Nat) : Decidable (Gt seq other) := inferInstanceAs (Decidable (_ ∨ _))

instance (seq other : Nat) : Decidable (Le seq other) := inferInstanceAs (Decidable (¬ _))

instance (seq other : Nat) : Decidable (Ge seq other) := inferInstanceAs (Decidable (_ ∨ _))

instance (seq other : Nat) : Decidable (Lt seq other) := inferInstanceAs (Decidable (_ ∧ _))

/-! ## Numbers of a stream -/

/-- Numbers less than half a turn apart compare like their places. -/
theorem gt_add32_iff (first : Nat) {place other : Nat} (hbefore : place < other + 2147483648)
    (hbehind : other < place + 2147483648) :
    Gt (add32 first place) (add32 first other) ↔ other < place := by
  rw [Gt, add32, add32]
  omega

theorem le_add32_iff (first : Nat) {place other : Nat} (hbefore : place < other + 2147483648)
    (hbehind : other < place + 2147483648) :
    Le (add32 first place) (add32 first other) ↔ place ≤ other := by
  rw [Le, gt_add32_iff first hbefore hbehind, Nat.not_lt]

theorem add32_inj (first : Nat) {place other : Nat} (hbefore : place < other + 4294967296)
    (hbehind : other < place + 4294967296) :
    add32 first place = add32 first other ↔ place = other := by
  rw [add32, add32]
  omega

theorem lt_add32_iff (first : Nat) {place other : Nat} (hbefore : place < other + 2147483648)
    (hbehind : other < place + 2147483648) :
    Lt (add32 first place) (add32 first other) ↔ place < other := by
  rw [Lt, gt_add32_iff first hbefore hbehind, Ne, add32_inj first (by omega) (by omega)]
  omega

theorem ge_add32_iff (first : Nat) {place other : Nat} (hbefore : place < other + 2147483648)
    (hbehind : other < place + 2147483648) :
    Ge (add32 first place) (add32 first other) ↔ other ≤ place := by
  rw [Ge, gt_add32_iff first hbefore hbehind, add32_inj first (by omega) (by omega)]
  omega

theorem sub32_add32 (first : Nat) {place other : Nat} (hle : other ≤ place)
    (hword : place < other + 4294967296) :
    sub32 (add32 first place) (add32 first other) = place - other := by
  rw [sub32, add32, add32]
  omega

end SequenceNumber32

end DeepcV2x.Tcp
