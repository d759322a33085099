import Mathlib.Algebra.Order.Ring.Int
import Mathlib.Tactic.Common

/-!
# Sequence numbers

`SequenceNumber10`: a number of ten bits and the base its comparisons count
from.  While two numbers are less than 1024 above the same base, they compare
as the numbers they are the remainders of.
-/

namespace DeepcV2x.Rlc

structure SequenceNumber10 where
  value : Nat
  modulusBase : Nat
  deriving DecidableEq, Repr

namespace SequenceNumber10

/-- The constructor from a number. -/
def ofValue (value : Nat) : SequenceNumber10 := ⟨value % 1024, 0⟩

/-- The assignment of a number, which keeps the base. -/
def assign (sn : SequenceNumber10) (value : Nat) : SequenceNumber10 :=
  { sn with value := value % 1024 }

def setModulusBase (sn modulusBase : SequenceNumber10) : SequenceNumber10 :=
  { sn with modulusBase := modulusBase.value }

/-- `++`. -/
def next (sn : SequenceNumber10) : SequenceNumber10 :=
  { sn with value := (sn.value + 1) % 1024 }

/-- `+` a number of 16 bits. -/
def add (sn : SequenceNumber10) (delta : Nat) : SequenceNumber10 :=
  { sn with value := (sn.value + delta) % 1024 }

/-- `-` a number of 16 bits: the remainder of the difference is truncated to 16 bits. -/
def sub (sn : SequenceNumber10) (delta : Nat) : SequenceNumber10 :=
  { sn with value := (((sn.value : Int) - delta).tmod 1024 % 65536).toNat % 1024 }

/-- The 16-bit operands of the comparisons. -/
def offset (sn : SequenceNumber10) : Nat :=
  (((sn.value : Int) - sn.modulusBase).tmod 1024 % 65536).toNat

def Gt (sn other : SequenceNumber10) : Prop := other.offset < sn.offset

def Le (sn other : SequenceNumber10) : Prop := ¬ sn.Gt other

def Lt (sn other : SequenceNumber10) : Prop := ¬ sn.Gt other ∧ sn.value ≠ other.value

instance (sn other : SequenceNumber10) : Decidable (sn.Gt other) :=
  inferInstanceAs (Decidable (_ < _))

instance (sn other : SequenceNumber10) : Decidable (sn.Le other) :=
  inferInstanceAs (Decidable (¬ _))

instance (sn other : SequenceNumber10) : Decidable (sn.Lt other) :=
  inferInstanceAs (Decidable (_ ∧ _))

/-! ## Numbers they stand for -/

/-- The remainder of a number, compared from another number. -/
structure Stands (sn : SequenceNumber10) (low number : Int) : Prop where
  value : (sn.value : Int) = number % 1024
  base : (sn.modulusBase : Int) = low % 1024

namespace Stands

variable {sn other : SequenceNumber10} {low number number' : Int}

theorem offset_eq (stands : Stands sn low number) (hlow : low ≤ number)
    (hhigh : number < low + 1024) :
    (sn.offset : Int) =
      if low % 1024 ≤ number % 1024 then number - low else number - low - 1024 + 65536 := by
  have hvalue := stands.value
  have hbase := stands.base
  have hsmall : ((sn.value : Int) - sn.modulusBase).tmod 1024 =
      (sn.value : Int) - sn.modulusBase := by
    rcases Int.le_total 0 ((sn.value : Int) - sn.modulusBase) with hpos | hneg
    · exact Int.tmod_eq_of_lt hpos (by omega)
    · have hneg' : (-((sn.value : Int) - sn.modulusBase)).tmod 1024 =
          -((sn.value : Int) - sn.modulusBase) := Int.tmod_eq_of_lt (by omega) (by omega)
      rw [Int.neg_tmod] at hneg'
      exact Int.neg_inj.mp hneg'
  rw [offset, hsmall, hvalue, hbase]
  split <;> omega

theorem gt_iff (stands : Stands sn low number) (hother : Stands other low number')
    (hlow : low ≤ number) (hhigh : number < low + 1024) (hlow' : low ≤ number')
    (hhigh' : number' < low + 1024) : sn.Gt other ↔ number' < number := by
  have hleft := stands.offset_eq hlow hhigh
  have hright := hother.offset_eq hlow' hhigh'
  rw [Gt]
  split at hleft <;> split at hright <;> omega

theorem le_iff (stands : Stands sn low number) (hother : Stands other low number')
    (hlow : low ≤ number) (hhigh : number < low + 1024) (hlow' : low ≤ number')
    (hhigh' : number' < low + 1024) : sn.Le other ↔ number ≤ number' := by
  rw [Le, stands.gt_iff hother hlow hhigh hlow' hhigh', not_lt]

theorem value_eq_iff (stands : Stands sn low number) (hother : Stands other low number')
    (hlow : low ≤ number) (hhigh : number < low + 1024) (hlow' : low ≤ number')
    (hhigh' : number' < low + 1024) : sn.value = other.value ↔ number = number' := by
  have hleft := stands.value
  have hright := hother.value
  omega

theorem lt_iff (stands : Stands sn low number) (hother : Stands other low number')
    (hlow : low ≤ number) (hhigh : number < low + 1024) (hlow' : low ≤ number')
    (hhigh' : number' < low + 1024) : sn.Lt other ↔ number < number' := by
  rw [Lt, stands.gt_iff hother hlow hhigh hlow' hhigh', Ne,
    stands.value_eq_iff hother hlow hhigh hlow' hhigh']
  omega

theorem setModulusBase {base : SequenceNumber10} {low' : Int} (stands : Stands sn low number)
    (hbase : (base.value : Int) = low' % 1024) : Stands (sn.setModulusBase base) low' number :=
  ⟨stands.value, hbase⟩

theorem next (stands : Stands sn low number) : Stands sn.next low (number + 1) := by
  have hvalue := stands.value
  refine ⟨?_, stands.base⟩
  rw [SequenceNumber10.next]
  push_cast
  omega

theorem add (stands : Stands sn low number) (delta : Nat) :
    Stands (sn.add delta) low (number + delta) := by
  have hvalue := stands.value
  refine ⟨?_, stands.base⟩
  rw [SequenceNumber10.add]
  push_cast
  omega

theorem sub (stands : Stands sn low number) (delta : Nat) :
    Stands (sn.sub delta) low (number - delta) := by
  have hvalue := stands.value
  refine ⟨?_, stands.base⟩
  rw [SequenceNumber10.sub]
  have hmod : (((sn.value : Int) - delta).tmod 1024) % 1024 = ((sn.value : Int) - delta) % 1024 := by
    have := Int.mul_tdiv_add_tmod ((sn.value : Int) - delta) 1024
    omega
  push_cast
  omega

theorem assign (stands : Stands sn low number) {value : Nat} (hvalue : (value : Int) % 1024 = number' % 1024) :
    Stands (sn.assign value) low number' := by
  refine ⟨?_, stands.base⟩
  rw [SequenceNumber10.assign]
  push_cast
  exact hvalue

end Stands

end SequenceNumber10

end DeepcV2x.Rlc
