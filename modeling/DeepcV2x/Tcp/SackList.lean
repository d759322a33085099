import DeepcV2x.Tcp.RxStream

/-!
# The list of reported blocks

Seen at their places of the stream, the reported blocks are ranges.  A new
range that overlaps none of them is merged with those it touches; the result
leads the list, and all ranges are apart again.
-/

namespace DeepcV2x.Tcp

open SequenceNumber32

/-! ## Ranges -/

/-- The first place of a reported block, and the one behind it. -/
abbrev Range := Nat × Nat

/-- A range as it is reported. -/
def toSack (first : Nat) (range : Range) : SackBlock := (add32 first range.1, add32 first range.2)

/-- The ranges neither overlap nor touch each other. -/
def Range.Clear (range other : Range) : Prop := range.2 < other.1 ∨ other.2 < range.1

/-- The ranges do not overlap. -/
def Range.Beside (range other : Range) : Prop := range.2 ≤ other.1 ∨ other.2 ≤ range.1

/-- A range between two places, which are less than half a turn apart. -/
structure Range.Between (range : Range) (low high : Nat) : Prop where
  low : low < range.1
  lt : range.1 < range.2
  high : range.2 ≤ high

theorem Range.Clear.symm {range other : Range} (clear : range.Clear other) : other.Clear range :=
  Or.symm clear

section Merging

variable {first low high : Nat} {range other : Range} {ranges : List Range}

/-- A range that does not touch the new one is kept. -/
theorem mergeSack_skip (hspan : high < low + 2147483648) (hrange : range.Between low high)
    (hother : other.Between low high) (hapart : range.1 ≠ other.2 ∧ range.2 ≠ other.1)
    (blocks : List SackBlock) :
    mergeSack (toSack first range) (toSack first other :: blocks) =
      (mergeSack (toSack first range) blocks).map fun merged =>
        merged.map fun result => (result.1, toSack first other :: result.2) := by
  obtain ⟨hlow, hlt, hhigh⟩ := hrange
  obtain ⟨hlow', hlt', hhigh'⟩ := hother
  rw [mergeSack, if_neg, if_neg]
  · exact fun heq => hapart.2 ((add32_inj first (by omega) (by omega)).mp heq)
  · exact fun heq => hapart.1 ((add32_inj first (by omega) (by omega)).mp heq)

/-- A range that touches the new one is merged with it. -/
theorem mergeSack_touching (hspan : high < low + 2147483648) (hrange : range.Between low high)
    (hother : other.Between low high) (htouch : other.2 = range.1 ∨ range.2 = other.1)
    (blocks : List SackBlock) :
    ∃ merged, mergeSack (toSack first range) (toSack first other :: blocks) =
        some (some (toSack first merged, blocks)) ∧ merged.Between low high ∧
      merged.1 = min range.1 other.1 ∧ merged.2 = max range.2 other.2 := by
  obtain ⟨hlow, hlt, hhigh⟩ := hrange
  obtain ⟨hlow', hlt', hhigh'⟩ := hother
  rcases htouch with hleft | hright
  · refine ⟨(other.1, range.2), ?_, ⟨hlow', by show other.1 < range.2; omega, hhigh⟩, ?_, ?_⟩
    · have hsame : (toSack first range).1 = (toSack first other).2 :=
        congrArg (add32 first) hleft.symm
      rw [mergeSack, if_pos hsame, if_pos]
      · rfl
      · exact (lt_add32_iff first (by omega) (by omega)).mpr (by omega)
    · show other.1 = min range.1 other.1
      omega
    · show range.2 = max range.2 other.2
      omega
  · refine ⟨(range.1, other.2), ?_, ⟨hlow, by show range.1 < other.2; omega, hhigh'⟩, ?_, ?_⟩
    · have hsame : (toSack first range).2 = (toSack first other).1 :=
        congrArg (add32 first) hright
      rw [mergeSack, if_neg, if_pos hsame, if_pos]
      · rfl
      · exact (lt_add32_iff first (by omega) (by omega)).mpr (by omega)
      · exact fun heq => absurd ((add32_inj first (by omega) (by omega)).mp heq) (by omega)
    · show range.1 = min range.1 other.1
      omega
    · show other.2 = max range.2 other.2
      omega

/-- One turn of the loop: no range touches the new one, or the first that does is merged with it. -/
theorem mergeSack_ranges (hspan : high < low + 2147483648) (hrange : range.Between low high)
    (hall : ∀ other ∈ ranges, other.Between low high) :
    (mergeSack (toSack first range) (ranges.map (toSack first)) = some none ∧
        ∀ other ∈ ranges, range.1 ≠ other.2 ∧ range.2 ≠ other.1) ∨
      ∃ before other behind merged, ranges = before ++ other :: behind ∧
        (other.2 = range.1 ∨ range.2 = other.1) ∧
        mergeSack (toSack first range) (ranges.map (toSack first)) =
          some (some (toSack first merged, (before ++ behind).map (toSack first))) ∧
        merged.Between low high ∧ merged.1 = min range.1 other.1 ∧
        merged.2 = max range.2 other.2 := by
  induction ranges with
  | nil => exact .inl ⟨rfl, fun _ hmem => absurd hmem List.not_mem_nil⟩
  | cons other ranges ih =>
      obtain ⟨hother, hrest⟩ := List.forall_mem_cons.mp hall
      by_cases htouch : other.2 = range.1 ∨ range.2 = other.1
      · obtain ⟨merged, hmerge, hbetween, hfirst, hlast⟩ :=
          mergeSack_touching hspan hrange hother htouch (ranges.map (toSack first))
        exact .inr ⟨[], other, ranges, merged, rfl, htouch, hmerge, hbetween, hfirst, hlast⟩
      · have hapart : range.1 ≠ other.2 ∧ range.2 ≠ other.1 :=
          ⟨fun heq => htouch (.inl heq.symm), fun heq => htouch (.inr heq)⟩
        have hskip := @mergeSack_skip first low high range other hspan hrange hother hapart
          (ranges.map (toSack first))
        rw [List.map_cons, hskip]
        rcases ih hrest with ⟨hnone, hothers⟩ |
          ⟨before, touching, behind, merged, rfl, htouching, hmerge, hbetween, hfirst, hlast⟩
        · refine .inl ⟨by rw [hnone]; rfl, List.forall_mem_cons.mpr ⟨hapart, hothers⟩⟩
        · exact .inr ⟨other :: before, touching, behind, merged, rfl, htouching,
            by rw [hmerge]; rfl, hbetween, hfirst, hlast⟩

/-- What the loop makes of a new range and the ranges it finds. -/
structure Merges (low high : Nat) (range : Range) (ranges : List Range) (merged : Range)
    (rest : List Range) : Prop where
  between : merged.Between low high
  grown : merged.1 ≤ range.1 ∧ range.2 ≤ merged.2
  sublist : rest.Sublist ranges
  clear : (merged :: rest).Pairwise Range.Clear
  covered : ∀ place, merged.1 ≤ place → place < merged.2 →
    (range.1 ≤ place ∧ place < range.2) ∨ ∃ other ∈ ranges, other.1 ≤ place ∧ place < other.2

/-- The loop merges the new range with all it touches. -/
theorem mergeSacks_ranges (hspan : high < low + 2147483648) (turns : Nat) :
    ∀ {range : Range} {ranges : List Range}, ranges.length ≤ turns → range.Between low high →
      (∀ other ∈ ranges, other.Between low high) → ranges.Pairwise Range.Clear →
      (∀ other ∈ ranges, range.Beside other) →
      ∃ merged rest, mergeSacks turns (toSack first range) (ranges.map (toSack first)) =
          some ((merged :: rest).map (toSack first)) ∧ Merges low high range ranges merged rest := by
  have hdone : ∀ {range : Range} {ranges : List Range}, range.Between low high →
      ranges.Pairwise Range.Clear → (∀ other ∈ ranges, range.Beside other) →
      (∀ other ∈ ranges, range.1 ≠ other.2 ∧ range.2 ≠ other.1) →
      Merges low high range ranges range ranges := by
    intro range ranges hrange hclear hbeside hapart
    refine ⟨hrange, ⟨Nat.le_refl _, Nat.le_refl _⟩, List.Sublist.refl _,
      List.pairwise_cons.mpr ⟨fun other hmem => ?_, hclear⟩, fun place hlow hhigh => .inl ⟨hlow, hhigh⟩⟩
    obtain ⟨hfirst, hlast⟩ := hapart other hmem
    rcases hbeside other hmem with hbefore | hbehind
    · exact .inl (Nat.lt_of_le_of_ne hbefore hlast)
    · exact .inr (Nat.lt_of_le_of_ne hbehind hfirst.symm)
  induction turns with
  | zero =>
      intro range ranges hturns hrange hall hclear hbeside
      obtain rfl := List.eq_nil_of_length_eq_zero (Nat.le_zero.mp hturns)
      exact ⟨range, [], rfl, hdone hrange hclear hbeside fun _ hmem => absurd hmem List.not_mem_nil⟩
  | succ turns ih =>
      intro range ranges hturns hrange hall hclear hbeside
      rw [mergeSacks]
      rcases mergeSack_ranges hspan hrange hall with ⟨hnone, hapart⟩ |
        ⟨before, touching, behind, joined, rfl, htouch, hmerge, hbetween, hfirst, hlast⟩
      · rw [hnone]
        exact ⟨range, ranges, rfl, hdone hrange hclear hbeside hapart⟩
      · rw [hmerge, Option.bind_some]
        have hsub : (before ++ behind).Sublist (before ++ touching :: behind) :=
          List.Sublist.append (List.Sublist.refl before) (List.sublist_cons_self touching behind)
        have htouching : touching ∈ before ++ touching :: behind :=
          List.mem_append_right _ List.mem_cons_self
        obtain ⟨-, hlt, -⟩ := hall touching htouching
        obtain ⟨-, hrangeLt, -⟩ := hrange
        have hothers : ∀ other ∈ before ++ behind, touching.Clear other := by
          intro other hmem
          obtain ⟨-, hbehindClear, hcross⟩ := List.pairwise_append.mp hclear
          rcases List.mem_append.mp hmem with hmem | hmem
          · exact (hcross other hmem touching List.mem_cons_self).symm
          · exact (List.pairwise_cons.mp hbehindClear).1 other hmem
        have hjoined : ∀ other ∈ before ++ behind, joined.Beside other := by
          intro other hmem
          have hclearOther := hothers other hmem
          have hbesideOther := hbeside other (hsub.subset hmem)
          obtain ⟨-, hotherLt, -⟩ := hall other (hsub.subset hmem)
          rw [Range.Clear] at hclearOther
          rw [Range.Beside] at hbesideOther ⊢
          omega
        obtain ⟨merged, rest, heq, merges⟩ := ih (by
            rw [List.length_append, List.length_cons] at hturns
            rw [List.length_append]
            omega) hbetween (fun other hmem => hall other (hsub.subset hmem)) (hclear.sublist hsub)
          hjoined
        obtain ⟨hgrownFirst, hgrownLast⟩ := merges.grown
        refine ⟨merged, rest, heq, merges.between, by omega, merges.sublist.trans hsub,
          merges.clear, fun place hplace hplace' => ?_⟩
        rcases merges.covered place hplace hplace' with hin | ⟨other, hmem, hin⟩
        · by_cases hown : range.1 ≤ place ∧ place < range.2
          · exact .inl hown
          · exact .inr ⟨touching, htouching, by omega⟩
        · exact .inr ⟨other, hsub.subset hmem, hin⟩

/-- A new range leads the list, of which four ranges are kept. -/
theorem updateSackList_ranges (hspan : high < low + 2147483648) (hrange : range.Between low high)
    (hall : ∀ other ∈ ranges, other.Between low high) (hclear : ranges.Pairwise Range.Clear)
    (hbeside : ∀ other ∈ ranges, range.Beside other) (hfew : ranges.length ≤ 4) :
    ∃ merged rest, updateSackList (add32 first low) (add32 first range.1) (add32 first range.2)
        (ranges.map (toSack first)) = some ((merged :: rest).map (toSack first)) ∧
      Merges low high range ranges merged rest ∧ (merged :: rest).length ≤ 4 := by
  obtain ⟨merged, rest, heq, merges⟩ := mergeSacks_ranges hspan _ (Nat.le_refl _) hrange hall hclear
    hbeside
  have hgt : Gt (add32 first range.1) (add32 first low) := by
    obtain ⟨hlow, hlt, hhigh⟩ := hrange
    exact (gt_add32_iff first (by omega) (by omega)).mpr hlow
  have hlength : (merged :: rest).length ≤ 5 := by
    have := merges.sublist.length_le
    rw [List.length_cons]
    omega
  have hupdate : updateSackList (add32 first low) (add32 first range.1) (add32 first range.2)
      (ranges.map (toSack first)) =
        some (if 4 < (merged :: rest).length then ((merged :: rest).map (toSack first)).dropLast
          else (merged :: rest).map (toSack first)) := by
    rw [updateSackList, if_pos hgt, List.length_map, show (add32 first range.1, add32 first range.2) =
      toSack first range from rfl, heq, Option.map_some, List.length_map]
  rw [hupdate]
  by_cases hmany : 4 < (merged :: rest).length
  · have hsome : rest ≠ [] := by
      rintro rfl
      exact absurd hmany (by rw [List.length_singleton]; omega)
    refine ⟨merged, rest.dropLast, ?_, { merges with
      sublist := (List.dropLast_sublist rest).trans merges.sublist
      clear := merges.clear.sublist ((List.dropLast_sublist rest).cons_cons merged) }, ?_⟩
    · rw [if_pos hmany, ← List.map_dropLast, List.dropLast_cons_of_ne_nil hsome]
    · rw [List.length_cons, List.length_dropLast]
      rw [List.length_cons] at hlength
      omega
  · exact ⟨merged, rest, by rw [if_neg hmany], merges, Nat.le_of_not_lt hmany⟩

end Merging

end DeepcV2x.Tcp
