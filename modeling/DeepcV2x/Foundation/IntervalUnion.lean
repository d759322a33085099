import Mathlib.MeasureTheory.Measure.Lebesgue.Basic
import Mathlib.MeasureTheory.Measure.Real
import Mathlib.Data.List.Sort

/-!
# Length of a union of intervals

A finite list of rational intervals is clipped to a window, sorted by start and
merged in one pass.  The length the pass adds up is the Lebesgue measure of the
union of the intervals inside the window.
-/

namespace DeepcV2x.Foundation.IntervalUnion

open MeasureTheory

structure Interval where
  startS : ℚ
  endS : ℚ
  deriving DecidableEq, Repr

/-- The real points of an interval. -/
def Interval.points (interval : Interval) : Set ℝ :=
  Set.Icc (interval.startS : ℝ) (interval.endS : ℝ)

/-- The union of a list of intervals. -/
def coverage (intervals : List Interval) : Set ℝ :=
  {x | ∃ interval ∈ intervals, x ∈ interval.points}

/-! ## Clip, sort and merge -/

/-- The nonempty interior part of an interval in a window. -/
def clip (windowStart windowEnd : ℚ) (interval : Interval) : Option Interval :=
  let start := max interval.startS windowStart
  let finish := min interval.endS windowEnd
  if start < finish then some ⟨start, finish⟩ else none

/-- The merge loop: total so far and the interval that may still grow. -/
def mergeLoop (busyS mergedStart mergedEnd : ℚ) : List Interval → ℚ
  | [] => busyS + (mergedEnd - mergedStart)
  | interval :: rest =>
      if interval.startS ≤ mergedEnd then
        mergeLoop busyS mergedStart (max mergedEnd interval.endS) rest
      else
        mergeLoop (busyS + (mergedEnd - mergedStart)) interval.startS interval.endS rest

def mergedLength : List Interval → ℚ
  | [] => 0
  | first :: rest => mergeLoop 0 first.startS first.endS rest

def sortByStart (intervals : List Interval) : List Interval :=
  intervals.mergeSort fun left right => decide (left.startS ≤ right.startS)

/-- Length of the part of a window the intervals cover. -/
def coveredLength (windowStart windowEnd : ℚ) (intervals : List Interval) : ℚ :=
  mergedLength (sortByStart (intervals.filterMap (clip windowStart windowEnd)))

/-! ## Coverage -/

@[simp]
theorem coverage_nil : coverage [] = ∅ := by
  ext x
  simp [coverage]

theorem coverage_cons (interval : Interval) (rest : List Interval) :
    coverage (interval :: rest) = interval.points ∪ coverage rest := by
  ext x
  simp [coverage]

theorem coverage_append (left right : List Interval) :
    coverage (left ++ right) = coverage left ∪ coverage right := by
  ext x
  simp only [coverage, List.mem_append, Set.mem_ofPred_eq, Set.mem_union]
  constructor
  · rintro ⟨interval, hleft | hright, hin⟩
    · exact Or.inl ⟨interval, hleft, hin⟩
    · exact Or.inr ⟨interval, hright, hin⟩
  · rintro (⟨interval, hmem, hin⟩ | ⟨interval, hmem, hin⟩)
    · exact ⟨interval, Or.inl hmem, hin⟩
    · exact ⟨interval, Or.inr hmem, hin⟩

theorem coverage_perm {left right : List Interval} (perm : left.Perm right) :
    coverage left = coverage right := by
  ext x
  simp [coverage, perm.mem_iff]

theorem measurableSet_coverage (intervals : List Interval) :
    MeasurableSet (coverage intervals) := by
  induction intervals with
  | nil => simp
  | cons interval rest ih =>
      rw [coverage_cons]
      exact measurableSet_Icc.union ih

theorem volume_coverage_ne_top (intervals : List Interval) :
    volume (coverage intervals) ≠ ⊤ := by
  induction intervals with
  | nil => simp
  | cons interval rest ih =>
      rw [coverage_cons]
      refine ne_top_of_le_ne_top ?_ (measure_union_le _ _)
      exact ENNReal.add_ne_top.mpr ⟨measure_Icc_lt_top.ne, ih⟩

/-! ## The merge loop -/

/-- An interval and one that starts inside it cover one longer interval. -/
theorem points_union_of_overlap {mergedStart mergedEnd : ℚ} {interval : Interval}
    (hstart : mergedStart ≤ interval.startS) (hoverlap : interval.startS ≤ mergedEnd) :
    (Interval.mk mergedStart mergedEnd).points ∪ interval.points =
      (Interval.mk mergedStart (max mergedEnd interval.endS)).points := by
  have h1 : (mergedStart : ℝ) ≤ interval.startS := by exact_mod_cast hstart
  have h2 : (interval.startS : ℝ) ≤ mergedEnd := by exact_mod_cast hoverlap
  ext x
  simp only [Interval.points, Set.mem_union, Set.mem_Icc, Rat.cast_max, le_max_iff]
  constructor
  · rintro (⟨hlow, hhigh⟩ | ⟨hlow, hhigh⟩)
    · exact ⟨hlow, Or.inl hhigh⟩
    · exact ⟨h1.trans hlow, Or.inr hhigh⟩
  · rintro ⟨hlow, hhigh | hhigh⟩
    · exact Or.inl ⟨hlow, hhigh⟩
    · rcases le_total x mergedEnd with hin | hout
      · exact Or.inl ⟨hlow, hin⟩
      · exact Or.inr ⟨h2.trans hout, hhigh⟩

/-- An interval that ends before all others start adds its own length. -/
theorem volume_union_of_gap {mergedStart mergedEnd : ℚ} (hle : mergedStart ≤ mergedEnd)
    {rest : List Interval} (hgap : ∀ interval ∈ rest, mergedEnd < interval.startS) :
    volume.real ((Interval.mk mergedStart mergedEnd).points ∪ coverage rest) =
      ((mergedEnd - mergedStart : ℚ) : ℝ) + volume.real (coverage rest) := by
  have hdisjoint : Disjoint (Interval.mk mergedStart mergedEnd).points (coverage rest) := by
    rw [Set.disjoint_left]
    rintro x ⟨-, hhigh⟩ ⟨interval, hmem, hlow, -⟩
    have hlt : (mergedEnd : ℝ) < interval.startS := by exact_mod_cast hgap interval hmem
    exact absurd (hlow.trans hhigh) (not_le.mpr hlt)
  have hreal : (mergedStart : ℝ) ≤ mergedEnd := by exact_mod_cast hle
  rw [measureReal_union hdisjoint (measurableSet_coverage rest) measure_Icc_lt_top.ne
    (volume_coverage_ne_top rest), Interval.points, Real.volume_real_Icc_of_le hreal]
  push_cast
  rfl

/-- Invariant of the loop: it adds the measure of the growing interval and the rest. -/
theorem mergeLoop_eq (rest : List Interval) {busyS mergedStart mergedEnd : ℚ}
    (hle : mergedStart ≤ mergedEnd) (hordered : ∀ interval ∈ rest, interval.startS ≤ interval.endS)
    (hstart : ∀ interval ∈ rest, mergedStart ≤ interval.startS)
    (hsorted : rest.Pairwise fun left right => left.startS ≤ right.startS) :
    ((mergeLoop busyS mergedStart mergedEnd rest : ℚ) : ℝ) =
      busyS + volume.real ((Interval.mk mergedStart mergedEnd).points ∪ coverage rest) := by
  induction rest generalizing busyS mergedStart mergedEnd with
  | nil =>
      rw [volume_union_of_gap hle (by simp), coverage_nil, measureReal_empty, mergeLoop]
      push_cast
      ring
  | cons interval rest ih =>
      obtain ⟨hfirst, hrest⟩ := List.pairwise_cons.mp hsorted
      have hhere := hordered interval List.mem_cons_self
      have hlater : ∀ other ∈ rest, other.startS ≤ other.endS := fun other hmem =>
        hordered other (List.mem_cons_of_mem _ hmem)
      rw [mergeLoop]
      split
      next hoverlap =>
        rw [ih (hle.trans (le_max_left _ _)) hlater
          (fun other hmem => hstart other (List.mem_cons_of_mem _ hmem)) hrest,
          coverage_cons, ← Set.union_assoc,
          points_union_of_overlap (hstart interval List.mem_cons_self) hoverlap]
      next hgap =>
        have hapart : ∀ other ∈ interval :: rest, mergedEnd < other.startS := by
          intro other hmem
          rcases List.mem_cons.mp hmem with rfl | hin
          · exact not_le.mp hgap
          · exact (not_le.mp hgap).trans_le (hfirst other hin)
        rw [ih hhere hlater hfirst hrest, volume_union_of_gap hle hapart, coverage_cons]
        push_cast
        ring

/-- On nonempty intervals sorted by start the pass computes the measure of the union. -/
theorem mergedLength_eq {intervals : List Interval}
    (hordered : ∀ interval ∈ intervals, interval.startS ≤ interval.endS)
    (hsorted : intervals.Pairwise fun left right => left.startS ≤ right.startS) :
    ((mergedLength intervals : ℚ) : ℝ) = volume.real (coverage intervals) := by
  cases intervals with
  | nil => simp [mergedLength]
  | cons first rest =>
      obtain ⟨hfirst, hrest⟩ := List.pairwise_cons.mp hsorted
      rw [mergedLength, mergeLoop_eq rest (hordered first List.mem_cons_self)
        (fun other hmem => hordered other (List.mem_cons_of_mem _ hmem)) hfirst hrest,
        coverage_cons]
      push_cast
      ring

/-! ## Clipping -/

theorem clip_ordered {windowStart windowEnd : ℚ} {interval clipped : Interval}
    (hclip : clip windowStart windowEnd interval = some clipped) :
    clipped.startS = max interval.startS windowStart ∧
      clipped.endS = min interval.endS windowEnd ∧ clipped.startS < clipped.endS := by
  simp only [clip] at hclip
  split at hclip
  next hlt =>
    rw [← Option.some.inj hclip]
    exact ⟨rfl, rfl, hlt⟩
  next => cases hclip

/-- Clipping loses at most single points of the window. -/
theorem volume_coverage_clip (windowStart windowEnd : ℚ) (intervals : List Interval) :
    volume.real (coverage (intervals.filterMap (clip windowStart windowEnd))) =
      volume.real (coverage intervals ∩ Set.Icc (windowStart : ℝ) (windowEnd : ℝ)) := by
  set clipped := intervals.filterMap (clip windowStart windowEnd) with hclipped
  set inside := coverage intervals ∩ Set.Icc (windowStart : ℝ) (windowEnd : ℝ) with hinside
  set edges : Set ℝ := {x | ∃ interval ∈ intervals,
    x = ((max interval.startS windowStart : ℚ) : ℝ)} with hedges
  have hlower : coverage clipped ⊆ inside := by
    rintro x ⟨interval, hmem, hlow, hhigh⟩
    obtain ⟨source, hsource, hclip⟩ := List.mem_filterMap.mp hmem
    obtain ⟨hstart, hend, -⟩ := clip_ordered hclip
    rw [hstart, Rat.cast_max, max_le_iff] at hlow
    rw [hend, Rat.cast_min, le_min_iff] at hhigh
    exact ⟨⟨source, hsource, hlow.1, hhigh.1⟩, hlow.2, hhigh.2⟩
  have hupper : inside ⊆ coverage clipped ∪ edges := by
    rintro x ⟨⟨interval, hmem, hlow, hhigh⟩, hleft, hright⟩
    have hmax : ((max interval.startS windowStart : ℚ) : ℝ) ≤ x := by
      rw [Rat.cast_max]
      exact max_le hlow hleft
    have hmin : x ≤ ((min interval.endS windowEnd : ℚ) : ℝ) := by
      rw [Rat.cast_min]
      exact le_min hhigh hright
    by_cases hproper : max interval.startS windowStart < min interval.endS windowEnd
    · refine Or.inl ⟨_, List.mem_filterMap.mpr ⟨interval, hmem, if_pos hproper⟩, hmax, hmin⟩
    · have hback : ((min interval.endS windowEnd : ℚ) : ℝ) ≤
          ((max interval.startS windowStart : ℚ) : ℝ) := by
        exact_mod_cast not_lt.mp hproper
      exact Or.inr ⟨interval, hmem, le_antisymm (hmin.trans hback) hmax⟩
  have hfinite : edges.Finite := by
    refine (List.finite_toSet (intervals.map fun interval =>
      ((max interval.startS windowStart : ℚ) : ℝ))).subset ?_
    rintro x ⟨interval, hmem, rfl⟩
    exact List.mem_map.mpr ⟨interval, hmem, rfl⟩
  have hvolume : volume (coverage clipped) = volume inside := by
    apply le_antisymm (measure_mono hlower)
    calc volume inside ≤ volume (coverage clipped ∪ edges) := measure_mono hupper
      _ ≤ volume (coverage clipped) + volume edges := measure_union_le _ _
      _ = volume (coverage clipped) := by rw [hfinite.measure_zero, add_zero]
  rw [measureReal_def, measureReal_def, hvolume]

/-- Clip, sort and merge compute the measure of the covered part of the window. -/
theorem coveredLength_eq (windowStart windowEnd : ℚ) (intervals : List Interval) :
    ((coveredLength windowStart windowEnd intervals : ℚ) : ℝ) =
      volume.real (coverage intervals ∩ Set.Icc (windowStart : ℝ) (windowEnd : ℝ)) := by
  set clipped := intervals.filterMap (clip windowStart windowEnd) with hclipped
  have hperm : (sortByStart clipped).Perm clipped := List.mergeSort_perm _ _
  have hordered : ∀ interval ∈ sortByStart clipped, interval.startS ≤ interval.endS := by
    intro interval hmem
    obtain ⟨source, -, hclip⟩ := List.mem_filterMap.mp (hperm.mem_iff.mp hmem)
    exact (clip_ordered hclip).2.2.le
  have hsorted : (sortByStart clipped).Pairwise fun left right => left.startS ≤ right.startS := by
    have hpairs := @List.pairwise_mergeSort Interval
      (fun left right => decide (left.startS ≤ right.startS))
      (fun a b c hab hbc => by
        rw [decide_eq_true_eq] at hab hbc ⊢
        exact hab.trans hbc)
      (fun a b => by
        rw [Bool.or_eq_true, decide_eq_true_eq, decide_eq_true_eq]
        exact le_total a.startS b.startS) clipped
    exact hpairs.imp fun hle => by simpa using hle
  rw [coveredLength, mergedLength_eq hordered hsorted, coverage_perm hperm,
    volume_coverage_clip]

/-- No more than the window is covered. -/
theorem coveredLength_le {windowStart windowEnd : ℚ} (hle : windowStart ≤ windowEnd)
    (intervals : List Interval) :
    coveredLength windowStart windowEnd intervals ≤ windowEnd - windowStart := by
  have hreal : (windowStart : ℝ) ≤ windowEnd := by exact_mod_cast hle
  have hbound : ((coveredLength windowStart windowEnd intervals : ℚ) : ℝ) ≤
      ((windowEnd - windowStart : ℚ) : ℝ) := by
    rw [coveredLength_eq]
    calc volume.real (coverage intervals ∩ Set.Icc (windowStart : ℝ) (windowEnd : ℝ))
        ≤ volume.real (Set.Icc (windowStart : ℝ) (windowEnd : ℝ)) :=
          measureReal_mono Set.inter_subset_right measure_Icc_lt_top.ne
      _ = ((windowEnd - windowStart : ℚ) : ℝ) := by
          rw [Real.volume_real_Icc_of_le hreal]
          push_cast
          rfl
  exact_mod_cast hbound

theorem coveredLength_nonneg (windowStart windowEnd : ℚ) (intervals : List Interval) :
    0 ≤ coveredLength windowStart windowEnd intervals := by
  have hreal : (0 : ℝ) ≤ ((coveredLength windowStart windowEnd intervals : ℚ) : ℝ) := by
    rw [coveredLength_eq]
    exact measureReal_nonneg
  exact_mod_cast hreal

/-- Nothing is covered of a window without length. -/
theorem coveredLength_of_le {windowStart windowEnd : ℚ} (hle : windowEnd ≤ windowStart)
    (intervals : List Interval) : coveredLength windowStart windowEnd intervals = 0 := by
  have hnone : intervals.filterMap (clip windowStart windowEnd) = [] := by
    rw [List.filterMap_eq_nil_iff]
    intro interval _
    refine if_neg (not_lt.mpr ?_)
    exact (min_le_right _ _).trans (hle.trans (le_max_right _ _))
  simp [coveredLength, hnone, sortByStart, mergedLength]

/-- Intervals that end before the window starts cover nothing of it. -/
theorem coverage_append_of_ended {windowStart windowEnd : ℚ} {ended live : List Interval}
    (hended : ∀ interval ∈ ended, interval.endS < windowStart) :
    coverage (ended ++ live) ∩ Set.Icc (windowStart : ℝ) (windowEnd : ℝ) =
      coverage live ∩ Set.Icc (windowStart : ℝ) (windowEnd : ℝ) := by
  have hnone : coverage ended ∩ Set.Icc (windowStart : ℝ) (windowEnd : ℝ) = ∅ := by
    rw [Set.eq_empty_iff_forall_notMem]
    rintro x ⟨⟨interval, hmem, -, hhigh⟩, hlow, -⟩
    have hlt : (interval.endS : ℝ) < windowStart := by exact_mod_cast hended interval hmem
    exact absurd (hlow.trans hhigh) (not_le.mpr hlt)
  rw [coverage_append, Set.union_inter_distrib_right, hnone, Set.empty_union]

end DeepcV2x.Foundation.IntervalUnion
