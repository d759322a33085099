import Mathlib.Order.Nat

/-!
# Loops that end from within

The body of a `do` loop is a partial turn: it says whether the loop ends and
gives the next state.  A loop that is given enough turns ends when a measure
falls at each turn that does not end it.
-/

namespace DeepcV2x.Foundation.Loops

variable {State : Type*} (turn : State → Option (Bool × State))

/-- Repeat the body, `left` times at most; `none` when a turn fails or the turns run out. -/
def loop : Nat → State → Option State
  | 0, _ => none
  | left + 1, state =>
      match turn state with
      | none => none
      | some (true, next) => some next
      | some (false, next) => loop left next

/-- Every turn of the loop meets a condition on the state it finds. -/
def Along (fits : State → Prop) : Nat → State → Prop
  | 0, _ => True
  | left + 1, state =>
      fits state ∧ ∀ next, turn state = some (false, next) → Along fits left next

instance Along.decidable {fits : State → Prop} [∀ state, Decidable (fits state)] :
    ∀ left state, Decidable (Along turn fits left state)
  | 0, _ => .isTrue trivial
  | left + 1, state =>
      match hturn : turn state with
      | none => decidable_of_iff (fits state)
          ⟨fun hfits => ⟨hfits, fun _ hnext => by rw [hturn] at hnext; cases hnext⟩, And.left⟩
      | some (true, _) => decidable_of_iff (fits state)
          ⟨fun hfits => ⟨hfits, fun _ hnext => by rw [hturn] at hnext; cases hnext⟩, And.left⟩
      | some (false, next) =>
          have : Decidable (Along turn fits left next) := Along.decidable left next
          decidable_of_iff (fits state ∧ Along turn fits left next)
            ⟨fun hboth => ⟨hboth.1, fun other hnext => by
                rw [hturn] at hnext
                cases hnext
                exact hboth.2⟩,
              fun hall => ⟨hall.1, hall.2 next hturn⟩⟩

/--
The loop rule.  When each fitting turn succeeds and either ends in a final state
or keeps the invariant with a smaller measure, enough turns reach a final state.
-/
theorem exists_loop {fits : State → Prop} (Invariant Final : State → Prop)
    (measure : State → Nat)
    (hturn : ∀ state, Invariant state → fits state → ∃ finished next,
      turn state = some (finished, next) ∧ (finished = true → Final next) ∧
        (finished = false → Invariant next ∧ measure next < measure state))
    {left : Nat} {first : State} (hfirst : Invariant first) (hleft : measure first < left)
    (halong : Along turn fits left first) :
    ∃ last, loop turn left first = some last ∧ Final last := by
  induction left generalizing first with
  | zero => exact absurd hleft (Nat.not_lt_zero _)
  | succ left ih =>
      obtain ⟨finished, next, hnext, hend, hgo⟩ := hturn first hfirst halong.1
      cases finished with
      | true => exact ⟨next, by simp only [loop, hnext], hend rfl⟩
      | false =>
          obtain ⟨hinvariant, hless⟩ := hgo rfl
          obtain ⟨last, hlast, hfinal⟩ := ih hinvariant
            (lt_of_lt_of_le hless (Nat.le_of_lt_succ hleft)) (halong.2 next hnext)
          exact ⟨last, by simpa only [loop, hnext] using hlast, hfinal⟩

/--
The rule of a loop with a bound on its turns.  The invariant counts the turns, and
each of them succeeds and either ends in a final state or is not the last one.
-/
theorem exists_loop_of_count (Invariant : Nat → State → Prop) (Final : State → Prop)
    {bound : Nat}
    (hturn : ∀ count state, count < bound → Invariant count state → ∃ finished next,
      turn state = some (finished, next) ∧ (finished = true → Final next) ∧
        (finished = false → count + 1 < bound ∧ Invariant (count + 1) next))
    {count left : Nat} {first : State} (hcount : count + left = bound) (hleft : 0 < left)
    (hfirst : Invariant count first) :
    ∃ last, loop turn left first = some last ∧ Final last := by
  induction left generalizing count first with
  | zero => exact absurd hleft (Nat.lt_irrefl _)
  | succ left ih =>
      obtain ⟨finished, next, hnext, hend, hgo⟩ := hturn count first (by omega) hfirst
      cases finished with
      | true => exact ⟨next, by simp only [loop, hnext], hend rfl⟩
      | false =>
          obtain ⟨hless, hinvariant⟩ := hgo rfl
          obtain ⟨last, hlast, hfinal⟩ := @ih (count + 1) next (by omega) (by omega) hinvariant
          exact ⟨last, by simpa only [loop, hnext] using hlast, hfinal⟩

/-- The invariant rule: what every turn of a loop that ends keeps holds behind it. -/
theorem loop_invariant (Invariant : State → Prop)
    (hturn : ∀ state finished next, Invariant state → turn state = some (finished, next) →
      Invariant next)
    {left : Nat} {first last : State} (hfirst : Invariant first)
    (hloop : loop turn left first = some last) : Invariant last := by
  induction left generalizing first with
  | zero => cases hloop
  | succ left ih =>
      rw [loop] at hloop
      cases hnext : turn first with
      | none =>
          rw [hnext] at hloop
          cases hloop
      | some result =>
          obtain ⟨finished, next⟩ := result
          rw [hnext] at hloop
          have hkept := hturn first finished next hfirst hnext
          cases finished with
          | true => exact Option.some.inj hloop ▸ hkept
          | false => exact ih hkept hloop

end DeepcV2x.Foundation.Loops
