import Mathlib.Data.Nat.Bitwise
import Mathlib.Tactic.Ring

/-!
# Watched word arithmetic

Machine words wrap around.  A watched computation returns what the machine
returns, together with whether any unsigned or signed operation left the range
of its words.  It has no result after a failed assertion.
-/

namespace DeepcV2x.Foundation

/-- Whether every operation stayed in range. -/
structure InRange where
  unsigned : Bool
  signed : Bool
  deriving DecidableEq, Repr

def InRange.both (first second : InRange) : InRange :=
  ⟨first.unsigned && second.unsigned, first.signed && second.signed⟩

/-- The result and what was watched; `none` after a failed assertion. -/
def Watched (α : Type) : Type := Option (α × InRange)

namespace Watched

variable {α β : Type}

instance : Monad Watched where
  pure value := some (value, ⟨true, true⟩)
  bind first rest :=
    match first with
    | none => none
    | some (value, inRange) =>
        match rest value with
        | none => none
        | some (result, later) => some (result, inRange.both later)

/-- The computation ends with a value; what was watched is known. -/
def Ends (computation : Watched α) (value : α) (inRange : InRange) : Prop :=
  computation = some (value, inRange)

/-- The computation ends with a value, and every operation stayed in range. -/
def Gives (computation : Watched α) (value : α) : Prop :=
  computation.Ends value ⟨true, true⟩

/-- `NS_ASSERT`. -/
def assert (condition : Prop) [Decidable condition] : Watched Unit :=
  if condition then some ((), ⟨true, true⟩) else none

/-- The unsigned word of a result. -/
def word (width result : Nat) : Watched Nat :=
  some (result % 2 ^ width, ⟨decide (result < 2 ^ width), true⟩)

/-- The signed word of a result. -/
def signedWord (width : Nat) (result : Int) : Watched Int :=
  some (result.bmod (2 ^ width), ⟨true, decide (result.bmod (2 ^ width) = result)⟩)

theorem gives_pure (value : α) : Gives (pure value) value := rfl

/-- What follows a computation goes on from its value. -/
theorem Gives.bind_eq {computation : Watched α} {value : α} (gives : computation.Gives value)
    (rest : α → Watched β) : computation >>= rest = rest value := by
  obtain rfl : computation = some (value, ⟨true, true⟩) := gives
  show (match rest value with
    | none => none
    | some (result, later) => some (result, InRange.both ⟨true, true⟩ later)) = rest value
  cases hrest : rest value with
  | none => rfl
  | some result => exact congrArg some (Prod.ext rfl rfl)

theorem Gives.bind_ends {computation : Watched α} {value : α} {rest : α → Watched β} {result : β}
    {inRange : InRange} (gives : computation.Gives value)
    (later : (rest value).Ends result inRange) : (computation >>= rest).Ends result inRange :=
  (gives.bind_eq rest).trans later

theorem Gives.bind {computation : Watched α} {value : α} {rest : α → Watched β} {result : β}
    (gives : computation.Gives value) (later : (rest value).Gives result) :
    (computation >>= rest).Gives result :=
  gives.bind_ends later

/-- A final conversion of the value is not watched. -/
theorem Ends.bind_pure {computation : Watched α} {value : α} {inRange : InRange}
    (ends : computation.Ends value inRange) (convert : α → β) :
    Ends (computation >>= fun value => pure (convert value)) (convert value) inRange := by
  obtain rfl : computation = some (value, inRange) := ends
  refine congrArg some (Prod.ext rfl ?_)
  show InRange.both inRange ⟨true, true⟩ = inRange
  rw [InRange.both, Bool.and_true, Bool.and_true]

theorem gives_assert {condition : Prop} [Decidable condition] (holds : condition) :
    Gives (assert condition) () :=
  if_pos holds

theorem gives_word {width result : Nat} (hlt : result < 2 ^ width) :
    Gives (word width result) result := by
  rw [Gives, Ends, word, Nat.mod_eq_of_lt hlt, decide_eq_true hlt]

theorem signedWord_ends (width : Nat) (result : Int) :
    Ends (signedWord width result) (result.bmod (2 ^ width))
      ⟨true, decide (result.bmod (2 ^ width) = result)⟩ := rfl

theorem gives_signedWord {width : Nat} {result : Int} (hrange : result.bmod (2 ^ width) = result) :
    Gives (signedWord width result) result := by
  rw [Gives, Ends, signedWord, decide_eq_true hrange, hrange]

end Watched

end DeepcV2x.Foundation
