import Mathlib.Algebra.Module.Basic
import Mathlib.Algebra.Order.Field.Basic
import Mathlib.Data.List.Chain

/-!
# Motion along polylines

A polyline is a list of knots with ascending times.  Motion along it rests at
the first knot before its time and at the last one from its time on, and is
linear in between.
-/

namespace DeepcV2x.Foundation.Polylines

/-- A place at a time. -/
structure Knot (Time Place : Type*) where
  time : Time
  place : Place
  deriving DecidableEq

variable {Time Place : Type*} [Field Time] [LinearOrder Time] [AddCommGroup Place]
  [Module Time Place]

/-- The line through two knots. -/
def line (a b : Knot Time Place) (t : Time) : Place :=
  a.place + ((t - a.time) / (b.time - a.time)) • (b.place - a.place)

/-- The place on the polyline from a knot on. -/
def placeFrom : Knot Time Place → List (Knot Time Place) → Time → Place
  | a, [], _ => a.place
  | a, b :: rest, t =>
      if t ≤ a.time then a.place else if t < b.time then line a b t else placeFrom b rest t

/-- The times ascend. -/
def Ascending (knots : List (Knot Time Place)) : Prop := knots.Pairwise (·.time < ·.time)

instance (knots : List (Knot Time Place)) : Decidable (Ascending knots) :=
  inferInstanceAs (Decidable (knots.Pairwise (·.time < ·.time)))

variable {a b : Knot Time Place} {rest : List (Knot Time Place)} {t : Time}

omit [LinearOrder Time] in
theorem line_self (a b : Knot Time Place) : line a b a.time = a.place := by
  rw [line, sub_self, zero_div, zero_smul, add_zero]

omit [LinearOrder Time] in
theorem line_end (hne : b.time - a.time ≠ 0) : line a b b.time = b.place := by
  rw [line, div_self hne, one_smul, add_sub_cancel]

omit [LinearOrder Time] in
/-- The line as a motion with a velocity. -/
theorem line_eq_velocity (a b : Knot Time Place) (t : Time) :
    line a b t = a.place + (t - a.time) • ((b.time - a.time)⁻¹ • (b.place - a.place)) := by
  rw [line, div_eq_mul_inv, mul_smul]

omit [LinearOrder Time] in
theorem line_of_same (hsame : b.place = a.place) (t : Time) : line a b t = a.place := by
  rw [line, hsame, sub_self, smul_zero, add_zero]

theorem placeFrom_of_le (ht : t ≤ a.time) : placeFrom a rest t = a.place := by
  cases rest with
  | nil => rfl
  | cons b rest => rw [placeFrom, if_pos ht]

/-- At the time of the next knot and behind it the first one does not matter. -/
theorem placeFrom_cons_of_le (hab : a.time < b.time) (ht : b.time ≤ t) :
    placeFrom a (b :: rest) t = placeFrom b rest t := by
  rw [placeFrom, if_neg (not_le.mpr (lt_of_lt_of_le hab ht)), if_neg (not_lt.mpr ht)]

/-- Up to the next knot the motion is linear. -/
theorem placeFrom_cons_of_ge (hab : a.time < b.time) (ha : a.time ≤ t) (hb : t ≤ b.time) :
    placeFrom a (b :: rest) t = line a b t := by
  rw [placeFrom]
  split
  next hle => rw [le_antisymm hle ha, line_self]
  next hlt =>
    split
    next => rfl
    next hge =>
      have hne : b.time - a.time ≠ 0 := sub_ne_zero.mpr (ne_of_gt hab)
      rw [placeFrom_of_le hb, le_antisymm hb (not_lt.mp hge), line_end hne]

/-- Knots whose time is over do not matter. -/
theorem placeFrom_drop {before : List (Knot Time Place)} {first : Knot Time Place}
    {knots : List (Knot Time Place)} (hascending : Ascending (first :: knots))
    (hsplit : first :: knots = before ++ a :: rest) (ht : a.time ≤ t) :
    placeFrom first knots t = placeFrom a rest t := by
  induction before generalizing first knots with
  | nil =>
      obtain ⟨rfl, rfl⟩ := List.cons.inj hsplit
      rfl
  | cons other before ih =>
      obtain ⟨rfl, hknots⟩ := List.cons.inj hsplit
      cases knots with
      | nil => exact absurd hknots.symm (List.append_ne_nil_of_right_ne_nil _ (List.cons_ne_nil _ _))
      | cons next knots =>
          obtain ⟨hfirst, htail⟩ := List.pairwise_cons.mp hascending
          have hnext : next.time ≤ t := by
            have hmem : a ∈ next :: knots := hknots ▸ List.mem_append_right _ List.mem_cons_self
            rcases List.mem_cons.mp hmem with rfl | hmem
            · exact ht
            · exact le_trans (le_of_lt (List.rel_of_pairwise_cons htail hmem)) ht
          rw [placeFrom_cons_of_le (hfirst next List.mem_cons_self) hnext]
          exact ih htail hknots

/-- From the time of the last knot on the motion rests. -/
theorem placeFrom_of_last_le {before : List (Knot Time Place)} {first last : Knot Time Place}
    {knots : List (Knot Time Place)} (hascending : Ascending (first :: knots))
    (hlast : first :: knots = before ++ [last]) (ht : last.time ≤ t) :
    placeFrom first knots t = last.place :=
  placeFrom_drop hascending hlast ht

/-- A further knot changes nothing before the time of the last one. -/
theorem placeFrom_append_of_le {before : List (Knot Time Place)} {first last next : Knot Time Place}
    {knots : List (Knot Time Place)} (hascending : Ascending (first :: knots))
    (hlast : first :: knots = before ++ [last]) (ht : t ≤ last.time) :
    placeFrom first (knots ++ [next]) t = placeFrom first knots t := by
  induction knots generalizing first before with
  | nil =>
      obtain rfl : first = last := by
        cases before with
        | nil => exact (List.cons.inj hlast).1
        | cons other before =>
            exact absurd (List.cons.inj hlast).2.symm
              (List.append_ne_nil_of_right_ne_nil _ (List.cons_ne_nil _ _))
      exact placeFrom_of_le ht
  | cons b knots ih =>
      rw [List.cons_append, placeFrom, placeFrom]
      cases before with
      | nil => exact absurd (List.cons.inj hlast).2 (List.cons_ne_nil _ _)
      | cons other before =>
          rw [ih (List.pairwise_cons.mp hascending).2 (List.cons.inj hlast).2]

/-- A further knot at the place of the last one changes nothing. -/
theorem placeFrom_append_of_same {before : List (Knot Time Place)}
    {first last next : Knot Time Place} {knots : List (Knot Time Place)}
    (hascending : Ascending (first :: knots)) (hlast : first :: knots = before ++ [last])
    (hsame : next.place = last.place) (t : Time) :
    placeFrom first (knots ++ [next]) t = placeFrom first knots t := by
  induction knots generalizing first before with
  | nil =>
      obtain rfl : first = last := by
        cases before with
        | nil => exact (List.cons.inj hlast).1
        | cons other before =>
            exact absurd (List.cons.inj hlast).2.symm
              (List.append_ne_nil_of_right_ne_nil _ (List.cons_ne_nil _ _))
      rw [List.nil_append, placeFrom, placeFrom, placeFrom, line_of_same hsame, hsame]
      split
      · rfl
      · split <;> rfl
  | cons b knots ih =>
      rw [List.cons_append, placeFrom, placeFrom]
      cases before with
      | nil => exact absurd (List.cons.inj hlast).2 (List.cons_ne_nil _ _)
      | cons other before =>
          rw [ih (List.pairwise_cons.mp hascending).2 (List.cons.inj hlast).2]

end DeepcV2x.Foundation.Polylines
