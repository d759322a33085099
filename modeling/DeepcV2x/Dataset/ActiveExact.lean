import DeepcV2x.Dataset.ActiveWindows
import Mathlib.Algebra.Order.Ring.Int
import Mathlib.Data.List.Sort
import Mathlib.Tactic.IntervalCases

/-!
# The candidate windows are exact

A window is known by its start: every step of it has a count in range.  The
function lists the windows without another time of the series inside, each
once, with the `int64` sum of its counts, in its order.
-/

namespace DeepcV2x.Dataset

open DeepcV2x.Foundation.Grids

/-! ## Windows of the series -/

/-- Every one of the `samples` times from `start` on has a count in range. -/
def ActiveWindow (counts : Counts) (bounds : Bounds) (stepMs : Int) (samples : Nat)
    (start : Int) : Prop :=
  ∀ j < samples, ∃ count, (start + j * stepMs, count) ∈ counts.entries ∧
    bounds.isValidCount count = true

/-- The last time of a window. -/
def windowEnd (stepMs : Int) (samples : Nat) (start : Int) : Int :=
  start + (samples - 1 : Nat) * stepMs

/-- The series has no time inside the window but its samples. -/
def NothingBetween (counts : Counts) (stepMs : Int) (samples : Nat) (start : Int) : Prop :=
  ∀ entry ∈ counts.entries, start ≤ entry.1 → entry.1 ≤ windowEnd stepMs samples start →
    ∃ j < samples, entry.1 = start + j * stepMs

def countAt (counts : Counts) (timeMs : Int) : Int :=
  ((counts.entries.find? fun entry => entry.1 == timeMs).map Prod.snd).getD 0

/-- The sum of the counts of a window. -/
def windowSum (counts : Counts) (stepMs : Int) : Nat → Int → Int
  | 0, _ => 0
  | samples + 1, start =>
      countAt counts start + windowSum counts stepMs samples (start + stepMs)

/-- What the function reports of a window. -/
def reported (counts : Counts) (stepMs : Int) (samples : Nat) (start : Int) : Candidate :=
  ⟨start, windowEnd stepMs samples start, int64 (windowSum counts stepMs samples start), samples⟩

/-! ## The series in time order -/

theorem int64_of_inInt64 {value : Int} (inRange : InInt64 value) : int64 value = value := by
  obtain ⟨low, high⟩ := inRange
  unfold int64
  apply Int.bmod_eq_of_le_mul_two
  · push_cast
    omega
  · push_cast
    omega

/-- A later time one wrapped step ahead is one step ahead. -/
theorem step_of_later {earlier later stepMs : Int} (inEarlier : InInt64 earlier)
    (positive : 0 < stepMs) (small : stepMs < 2 ^ 63) (hlt : earlier < later)
    (link : later = int64 (earlier + stepMs)) : later = earlier + stepMs := by
  obtain ⟨low, high⟩ := inEarlier
  by_cases inside : earlier + stepMs < 2 ^ 63
  · rw [link]
    apply int64_of_inInt64
    constructor
    · omega
    · exact inside
  · have hwrap : int64 (earlier + stepMs) = earlier + stepMs - 2 ^ 64 := by
      have hsame : int64 (earlier + stepMs) = int64 (earlier + stepMs - 2 ^ 64) := by
        exact (Int.sub_bmod_right (earlier + stepMs) (2 ^ 64)).symm
      rw [hsame]
      apply int64_of_inInt64
      constructor
      · omega
      · omega
    omega

theorem sortIndex_perm (counts : Counts) : counts.sortIndex.Perm counts.entries :=
  List.mergeSort_perm _ _

theorem mem_sortIndex {counts : Counts} {entry : Entry} :
    entry ∈ counts.sortIndex ↔ entry ∈ counts.entries :=
  (sortIndex_perm counts).mem_iff

theorem sortIndex_sorted (counts : Counts) :
    counts.sortIndex.Pairwise fun earlier later => earlier.1 < later.1 := by
  have hle : counts.sortIndex.Pairwise fun earlier later => earlier.1 ≤ later.1 := by
    have htrans : ∀ first second third : Entry, decide (first.1 ≤ second.1) = true →
        decide (second.1 ≤ third.1) = true → decide (first.1 ≤ third.1) = true := by
      intro first second third h₁ h₂
      exact decide_eq_true ((of_decide_eq_true h₁).trans (of_decide_eq_true h₂))
    have htotal : ∀ first second : Entry,
        (decide (first.1 ≤ second.1) || decide (second.1 ≤ first.1)) = true := by
      intro first second
      simpa using le_total first.1 second.1
    exact (List.pairwise_mergeSort htrans htotal counts.entries).imp of_decide_eq_true
  have hne : counts.sortIndex.Pairwise fun earlier later => earlier.1 ≠ later.1 := by
    have hnodup : (counts.sortIndex.map Prod.fst).Nodup :=
      ((sortIndex_perm counts).map Prod.fst).nodup_iff.mpr counts.distinct
    exact List.pairwise_map.mp hnodup
  exact (hle.and hne).imp fun h => lt_of_le_of_ne h.1 h.2

theorem find?_time {entries : List Entry} (distinct : (entries.map Prod.fst).Nodup)
    {entry : Entry} (hmem : entry ∈ entries) :
    entries.find? (fun other => other.1 == entry.1) = some entry := by
  induction entries with
  | nil => exact absurd hmem List.not_mem_nil
  | cons head rest ih =>
      rw [List.map_cons, List.nodup_cons] at distinct
      rcases List.mem_cons.mp hmem with rfl | hrest
      · simp
      · have hne : ¬ head.1 = entry.1 := by
          intro heq
          exact distinct.1 (heq ▸ List.mem_map_of_mem hrest)
        rw [List.find?_cons_of_neg (by simpa using hne)]
        exact ih distinct.2 hrest

/-- The entry of a time is what a look-up of the time finds. -/
theorem countAt_eq {counts : Counts} {entry : Entry} (hmem : entry ∈ counts.entries) :
    countAt counts entry.1 = entry.2 := by
  rw [countAt, find?_time counts.distinct hmem]
  rfl

/-- A list of entries at the times of a window sums to the window's sum. -/
theorem totalCount_eq_windowSum {counts : Counts} {stepMs : Int} (stretch : List Entry)
    {start : Int}
    (each : ∀ (j : Nat) (entry : Entry), stretch[j]? = some entry →
      entry ∈ counts.entries ∧ entry.1 = start + j * stepMs) :
    totalCount stretch = windowSum counts stepMs stretch.length start := by
  induction stretch generalizing start with
  | nil => rfl
  | cons head rest ih =>
      obtain ⟨hmem, htime⟩ := each 0 head rfl
      rw [Int.natCast_zero, Int.zero_mul, Int.add_zero] at htime
      have hrest : ∀ (j : Nat) (entry : Entry), rest[j]? = some entry →
          entry ∈ counts.entries ∧ entry.1 = start + stepMs + j * stepMs := by
        intro j entry hentry
        obtain ⟨hin, heq⟩ := each (j + 1) entry hentry
        refine ⟨hin, ?_⟩
        rw [heq, Int.natCast_succ, Int.add_mul, Int.one_mul]
        omega
      rw [totalCount, List.length_cons, windowSum, ih hrest, ← htime, countAt_eq hmem]

/-! ## Stretches and windows -/

section Windows

variable {counts : Counts} {bounds : Bounds} {stepMs : Int} {samples : Nat}

theorem inInt64_of_sorted {entry : Entry} (hmem : entry ∈ counts.sortIndex) : InInt64 entry.1 :=
  counts.times entry (mem_sortIndex.mp hmem)

theorem time_lt_of_position_lt {first second : Nat} {earlier later : Entry}
    (hfirst : counts.sortIndex[first]? = some earlier)
    (hsecond : counts.sortIndex[second]? = some later) (hlt : first < second) :
    earlier.1 < later.1 := by
  obtain ⟨hfirst', rfl⟩ := List.getElem?_eq_some_iff.mp hfirst
  obtain ⟨hsecond', rfl⟩ := List.getElem?_eq_some_iff.mp hsecond
  exact List.pairwise_iff_getElem.mp (sortIndex_sorted counts) first second hfirst' hsecond' hlt

theorem time_le_of_position_le {first second : Nat} {earlier later : Entry}
    (hfirst : counts.sortIndex[first]? = some earlier)
    (hsecond : counts.sortIndex[second]? = some later) (hle : first ≤ second) :
    earlier.1 ≤ later.1 := by
  rcases Nat.lt_or_eq_of_le hle with hlt | rfl
  · exact (time_lt_of_position_lt hfirst hsecond hlt).le
  · rw [hfirst, Option.some.injEq] at hsecond
    rw [hsecond]

/-- Positions of the sorted series follow the times. -/
theorem position_le_of_time_le {first second : Nat} {earlier later : Entry}
    (hfirst : counts.sortIndex[first]? = some earlier)
    (hsecond : counts.sortIndex[second]? = some later) (hle : earlier.1 ≤ later.1) :
    first ≤ second := by
  by_contra hlt
  have hback := time_lt_of_position_lt hsecond hfirst (Nat.lt_of_not_le hlt)
  omega

/-- The entries of a stretch of the series stand at the times of a window. -/
theorem window_times (positive : 0 < stepMs) (small : stepMs < 2 ^ 63) {start : Nat}
    (fits : start + samples ≤ counts.sortIndex.length)
    (stretch : isStretch bounds stepMs (window counts.sortIndex start samples) = true)
    {first : Entry} (hfirst : counts.sortIndex[start]? = some first) (j : Nat)
    (hj : j < samples) :
    ∃ entry, counts.sortIndex[start + j]? = some entry ∧ entry.1 = first.1 + j * stepMs ∧
      bounds.isValidCount entry.2 = true := by
  obtain ⟨valid, chain⟩ := isStretch_iff.mp stretch
  have hat (i : Nat) (hi : i < samples) : ∃ entry, counts.sortIndex[start + i]? = some entry ∧
      (window counts.sortIndex start samples)[i]? = some entry := by
    obtain ⟨entry, hentry⟩ : ∃ entry, counts.sortIndex[start + i]? = some entry :=
      ⟨_, List.getElem?_eq_getElem (by omega)⟩
    exact ⟨entry, hentry, by rw [window_getElem?, if_pos hi, hentry]⟩
  induction j with
  | zero =>
      obtain ⟨entry, hentry, hwindow⟩ := hat 0 hj
      rw [Nat.add_zero, hfirst, Option.some.injEq] at hentry
      subst hentry
      exact ⟨first, hfirst, by simp, valid first (List.mem_of_getElem? hwindow)⟩
  | succ j ih =>
      obtain ⟨earlier, hearlier, htime, -⟩ := ih (Nat.lt_of_succ_lt hj)
      obtain ⟨earlier', hearlier', hwindow⟩ := hat j (Nat.lt_of_succ_lt hj)
      obtain ⟨later, hlater, hwindow'⟩ := hat (j + 1) hj
      rw [hearlier, Option.some.injEq] at hearlier'
      subst hearlier'
      have hlink : later.1 = int64 (earlier.1 + stepMs) := by
        obtain ⟨hi, heq⟩ := List.getElem?_eq_some_iff.mp hwindow
        obtain ⟨hi', heq'⟩ := List.getElem?_eq_some_iff.mp hwindow'
        have hchain := List.isChain_iff_getElem.mp chain j hi'
        rw [heq, heq'] at hchain
        exact hchain
      have hlt : earlier.1 < later.1 := by
        obtain ⟨hi, heq⟩ := List.getElem?_eq_some_iff.mp hearlier
        obtain ⟨hi', heq'⟩ := List.getElem?_eq_some_iff.mp hlater
        have hsorted := List.pairwise_iff_getElem.mp (sortIndex_sorted counts) (start + j)
          (start + (j + 1)) hi hi' (by omega)
        rwa [heq, heq'] at hsorted
      have hstep := step_of_later (inInt64_of_sorted (List.mem_of_getElem? hearlier)) positive
        small hlt hlink
      refine ⟨later, hlater, ?_, valid later (List.mem_of_getElem? hwindow')⟩
      rw [hstep, htime, Int.natCast_succ, Int.add_mul, Int.one_mul, Int.add_assoc]

/-- A stretch of the series is a window with nothing between its samples, and is reported as
such. -/
theorem window_of_stretch (positive : 0 < stepMs) (small : stepMs < 2 ^ 63)
    (nonempty : 0 < samples) {position : Nat}
    (fits : position + samples ≤ counts.sortIndex.length)
    (stretch : isStretch bounds stepMs (window counts.sortIndex position samples) = true) :
    ∃ start, ActiveWindow counts bounds stepMs samples start ∧
      NothingBetween counts stepMs samples start ∧
      candidateOf samples (window counts.sortIndex position samples) =
        reported counts stepMs samples start ∧
      counts.sortIndex[position]?.map Prod.fst = some start := by
  obtain ⟨first, hfirst⟩ : ∃ first, counts.sortIndex[position]? = some first :=
    ⟨_, List.getElem?_eq_getElem (by omega)⟩
  have htimes := window_times positive small fits stretch hfirst
  obtain ⟨last, hlast, hlastTime, -⟩ := htimes (samples - 1) (by omega)
  have hend : last.1 = windowEnd stepMs samples first.1 := by
    rw [hlastTime, windowEnd]
  refine ⟨first.1, ?_, ?_, ?_, by rw [hfirst, Option.map_some]⟩
  · intro j hj
    obtain ⟨entry, hentry, htime, hvalid⟩ := htimes j hj
    refine ⟨entry.2, ?_, hvalid⟩
    rw [← htime]
    exact mem_sortIndex.mp (List.mem_of_getElem? hentry)
  · intro entry hentry hlow hhigh
    obtain ⟨place, hplace⟩ := List.mem_iff_getElem?.mp (mem_sortIndex.mpr hentry)
    have hafter := position_le_of_time_le hfirst hplace hlow
    have hbefore := position_le_of_time_le hplace hlast (by rw [hend]; exact hhigh)
    obtain ⟨found, hfound, htime, -⟩ := htimes (place - position) (by omega)
    rw [Nat.add_sub_cancel' hafter, hplace, Option.some.injEq] at hfound
    exact ⟨place - position, by omega, by rw [hfound, htime]⟩
  · have hlast' : counts.sortIndex[position + samples - 1]? = some last := by
      rw [← hlast]
      congr 1
      omega
    have heach : ∀ (j : Nat) (entry : Entry),
        (window counts.sortIndex position samples)[j]? = some entry →
        entry ∈ counts.entries ∧ entry.1 = first.1 + j * stepMs := by
      intro j entry hentry
      rw [window_getElem?] at hentry
      split at hentry
      · next hj =>
          obtain ⟨found, hfound, htime, -⟩ := htimes j hj
          rw [hfound, Option.some.injEq] at hentry
          rw [← hentry]
          exact ⟨mem_sortIndex.mp (List.mem_of_getElem? hfound), htime⟩
      · cases hentry
    rw [candidateOf_window nonempty fits hfirst hlast',
      totalCount_eq_windowSum _ heach, window_length fits, hend, reported]

/-- A window with nothing between its samples is a stretch of the series. -/
theorem stretch_of_window (positive : 0 < stepMs) (nonempty : 0 < samples) {start : Int}
    (active : ActiveWindow counts bounds stepMs samples start)
    (nothing : NothingBetween counts stepMs samples start) :
    ∃ position, position + samples ≤ counts.sortIndex.length ∧
      isStretch bounds stepMs (window counts.sortIndex position samples) = true ∧
      counts.sortIndex[position]?.map Prod.fst = some start := by
  obtain ⟨count, hcount, -⟩ := active 0 nonempty
  rw [Int.natCast_zero, Int.zero_mul, Int.add_zero] at hcount
  obtain ⟨position, hposition⟩ := List.mem_iff_getElem?.mp (mem_sortIndex.mpr hcount)
  have hat (j : Nat) (hj : j < samples) : ∃ entry,
      counts.sortIndex[position + j]? = some entry ∧ entry.1 = start + j * stepMs := by
    induction j with
    | zero => exact ⟨(start, count), hposition, by simp⟩
    | succ j ih =>
        obtain ⟨earlier, hearlier, htime⟩ := ih (Nat.lt_of_succ_lt hj)
        obtain ⟨next, hnext, -⟩ := active (j + 1) hj
        obtain ⟨place, hplace⟩ := List.mem_iff_getElem?.mp (mem_sortIndex.mpr hnext)
        have hbehind : position + j < place := by
          by_contra hle
          have hback := time_le_of_position_le hplace hearlier (Nat.le_of_not_lt hle)
          rw [htime, Int.natCast_succ, Int.add_mul, Int.one_mul] at hback
          omega
        obtain ⟨later, hlater⟩ : ∃ later, counts.sortIndex[position + (j + 1)]? = some later := by
          have hplace' := (List.getElem?_eq_some_iff.mp hplace).1
          exact ⟨_, List.getElem?_eq_getElem (by omega)⟩
        have hlt : earlier.1 < later.1 := time_lt_of_position_lt hearlier hlater (by omega)
        have hle : later.1 ≤ start + (j + 1 : Nat) * stepMs :=
          time_le_of_position_le hlater hplace (by omega)
        have hwithin : later.1 ≤ windowEnd stepMs samples start := by
          have hmul : ((j + 1 : Nat) : Int) * stepMs ≤ ((samples - 1 : Nat) : Int) * stepMs :=
            Int.mul_le_mul_of_nonneg_right (by omega) positive.le
          rw [windowEnd]
          omega
        have hafter : start ≤ later.1 := by
          have hmul : 0 ≤ (j : Int) * stepMs := Int.mul_nonneg (by omega) positive.le
          omega
        obtain ⟨k, -, hk⟩ := nothing later
          (mem_sortIndex.mp (List.mem_of_getElem? hlater)) hafter hwithin
        refine ⟨later, hlater, ?_⟩
        have hlow : (j : Int) < k := by
          have hmul : (j : Int) * stepMs < k * stepMs := by omega
          exact lt_of_mul_lt_mul_right hmul positive.le
        have hhigh : (k : Int) ≤ (j + 1 : Nat) := by
          have hmul : (k : Int) * stepMs ≤ (j + 1 : Nat) * stepMs := by omega
          exact le_of_mul_le_mul_right hmul positive
        have heq : k = j + 1 := by omega
        rw [hk, heq]
  have fits : position + samples ≤ counts.sortIndex.length := by
    obtain ⟨last, hlast, -⟩ := hat (samples - 1) (by omega)
    have := (List.getElem?_eq_some_iff.mp hlast).1
    omega
  refine ⟨position, fits, ?_, by rw [hposition, Option.map_some]⟩
  have hitem (j : Nat) (entry : Entry)
      (hentry : (window counts.sortIndex position samples)[j]? = some entry) :
      j < samples ∧ entry ∈ counts.entries ∧ entry.1 = start + j * stepMs := by
    rw [window_getElem?] at hentry
    split at hentry
    · next hj =>
        obtain ⟨found, hfound, htime⟩ := hat j hj
        rw [hfound, Option.some.injEq] at hentry
        rw [← hentry]
        exact ⟨hj, mem_sortIndex.mp (List.mem_of_getElem? hfound), htime⟩
    · cases hentry
  apply isStretch_iff.mpr
  constructor
  · intro entry hentry
    obtain ⟨j, hj⟩ := List.mem_iff_getElem?.mp hentry
    obtain ⟨hlt, hmem, htime⟩ := hitem j entry hj
    obtain ⟨count, hcount, hvalid⟩ := active j hlt
    have hsame : entry.2 = count := by
      have hleft := countAt_eq hmem
      rw [htime] at hleft
      exact hleft.symm.trans (countAt_eq hcount)
    rw [hsame]
    exact hvalid
  · apply List.isChain_iff_getElem.mpr
    intro j hj
    obtain ⟨-, -, htime⟩ := hitem j _ (List.getElem?_eq_getElem (Nat.lt_of_succ_lt hj))
    obtain ⟨-, hmem, htime'⟩ := hitem (j + 1) _ (List.getElem?_eq_getElem hj)
    have hstep : start + (j + 1 : Nat) * stepMs = start + j * stepMs + stepMs := by
      rw [Int.natCast_succ, Int.add_mul, Int.one_mul, Int.add_assoc]
    have hin := int64_of_inInt64 (counts.times _ hmem)
    rw [htime', hstep] at hin
    rw [htime', hstep, htime, hin]

end Windows

/-! ## The list -/

theorem beforeOrSame_trans (first second third : Candidate)
    (h₁ : beforeOrSame first second = true) (h₂ : beforeOrSame second third = true) :
    beforeOrSame first third = true := by
  simp only [beforeOrSame, Bool.or_eq_true, Bool.and_eq_true, decide_eq_true_eq,
    beq_iff_eq] at h₁ h₂ ⊢
  omega

theorem beforeOrSame_total (first second : Candidate) :
    (beforeOrSame first second || beforeOrSame second first) = true := by
  simp only [beforeOrSame, Bool.or_eq_true, Bool.and_eq_true, decide_eq_true_eq, beq_iff_eq]
  omega

/-- Greater sums come first, and earlier starts among equal sums. -/
def Precedes (earlier later : Candidate) : Prop :=
  later.activeCountSum < earlier.activeCountSum ∨
    earlier.activeCountSum = later.activeCountSum ∧ earlier.startGlobalMs < later.startGlobalMs

section List

variable {counts : Counts} {bounds : Bounds} {stepMs : Int} {samples : Nat}

/-- The candidates of the series are the windows with nothing between their samples. -/
theorem mem_candidatesIn (positive : 0 < stepMs) (small : stepMs < 2 ^ 63)
    (nonempty : 0 < samples) (candidate : Candidate) :
    candidate ∈ candidatesIn bounds samples stepMs counts.sortIndex ↔
      ∃ start, ActiveWindow counts bounds stepMs samples start ∧
        NothingBetween counts stepMs samples start ∧
        candidate = reported counts stepMs samples start := by
  rw [candidatesIn, List.mem_map]
  constructor
  · rintro ⟨stretch, hstretch, rfl⟩
    obtain ⟨position, hfits, rfl, isRun⟩ := mem_runWindows.mp hstretch
    obtain ⟨start, active, nothing, heq, -⟩ :=
      window_of_stretch positive small nonempty hfits isRun
    exact ⟨start, active, nothing, heq⟩
  · rintro ⟨start, active, nothing, rfl⟩
    obtain ⟨position, hfits, isRun, hstart⟩ :=
      stretch_of_window positive nonempty active nothing
    refine ⟨_, mem_runWindows.mpr ⟨position, hfits, rfl, isRun⟩, ?_⟩
    obtain ⟨start', -, -, heq, hstart'⟩ := window_of_stretch positive small nonempty hfits isRun
    rw [hstart, Option.some.injEq] at hstart'
    rw [heq, hstart']

/-- No two candidates of the series have one start. -/
theorem candidatesIn_starts (nonempty : 0 < samples) :
    (candidatesIn bounds samples stepMs counts.sortIndex).Pairwise fun earlier later =>
      earlier.startGlobalMs ≠ later.startGlobalMs := by
  unfold candidatesIn runWindows
  rw [List.pairwise_map]
  apply List.Pairwise.filter
  rw [List.pairwise_map]
  apply List.pairwise_lt_range.imp_of_mem
  intro first second hfirst hsecond hlt
  have hfirst' := List.mem_range.mp hfirst
  have hsecond' := List.mem_range.mp hsecond
  obtain ⟨earlier, hearlier⟩ : ∃ earlier, counts.sortIndex[first]? = some earlier :=
    ⟨_, List.getElem?_eq_getElem (by omega)⟩
  obtain ⟨later, hlater⟩ : ∃ later, counts.sortIndex[second]? = some later :=
    ⟨_, List.getElem?_eq_getElem (by omega)⟩
  have htime := time_lt_of_position_lt hearlier hlater hlt
  have hhead (position : Nat) (entry : Entry) (hentry : counts.sortIndex[position]? = some entry) :
      (candidateOf samples (window counts.sortIndex position samples)).startGlobalMs =
        entry.1 := by
    have hwindow : (window counts.sortIndex position samples).head? = some entry := by
      rw [List.head?_eq_getElem?, window_getElem?, if_pos nonempty, Nat.add_zero, hentry]
    simp [candidateOf, hwindow]
  rw [hhead first earlier hearlier, hhead second later hlater]
  omega

theorem sorted_precedes {candidates : List Candidate}
    (starts : candidates.Pairwise fun earlier later =>
      earlier.startGlobalMs ≠ later.startGlobalMs) :
    (candidates.mergeSort beforeOrSame).Pairwise Precedes := by
  have hsorted := List.pairwise_mergeSort beforeOrSame_trans beforeOrSame_total candidates
  have hstarts : (candidates.mergeSort beforeOrSame).Pairwise fun earlier later =>
      earlier.startGlobalMs ≠ later.startGlobalMs :=
    (List.mergeSort_perm candidates beforeOrSame).symm.pairwise starts fun h => h.symm
  apply (hsorted.and hstarts).imp
  rintro earlier later ⟨horder, hne⟩
  simp only [beforeOrSame, Bool.or_eq_true, Bool.and_eq_true, decide_eq_true_eq,
    beq_iff_eq] at horder
  unfold Precedes
  omega

end List

theorem sampleStepMs_eq : sampleStepMs = .ok 100 := by
  decide +kernel

theorem findActiveWindowCandidates_eq (counts : Counts) (bounds : Bounds) {durationS : ℚ}
    {samples : Nat} (sampled : sampleCountForDuration durationS = .ok (samples : Int))
    (nonempty : 1 ≤ samples) :
    findActiveWindowCandidates counts bounds durationS =
      .ok ((candidatesIn bounds samples 100 counts.sortIndex).mergeSort beforeOrSame,
        counts.sortIndex) := by
  have hnot : ¬ (samples : Int) < 1 := by omega
  simp only [findActiveWindowCandidates, sampled, sampleStepMs_eq, bind, Except.bind, hnot,
    if_false, Int.toNat_natCast]
  rw [candidatesOf_eq nonempty]

/-- For every series, all bounds and every duration of at least one sample the list holds, in
order and once each, exactly the windows with every count in range and no other time between
their samples, with the `int64` sums of their counts. -/
theorem findActiveWindowCandidates_exact (counts : Counts) (bounds : Bounds) (durationS : ℚ)
    (samples : Nat) (sampled : sampleCountForDuration durationS = .ok (samples : Int))
    (nonempty : 1 ≤ samples) :
    ∃ candidates, findActiveWindowCandidates counts bounds durationS =
        .ok (candidates, counts.sortIndex) ∧
      candidates.Pairwise Precedes ∧
      ∀ candidate, candidate ∈ candidates ↔
        ∃ start, ActiveWindow counts bounds 100 samples start ∧
          NothingBetween counts 100 samples start ∧
          candidate = reported counts 100 samples start := by
  refine ⟨_, findActiveWindowCandidates_eq counts bounds sampled nonempty,
    sorted_precedes (candidatesIn_starts nonempty), ?_⟩
  intro candidate
  rw [List.mem_mergeSort]
  exact mem_candidatesIn (by decide) (by decide) nonempty candidate

/-- Four samples, one of them out of range, and windows of two. -/
theorem findActiveWindowCandidates_exact_four :
    ∃ candidates, findActiveWindowCandidates
        ⟨[(300, 4), (0, 5), (100, 6), (400, 7)], by decide, by decide⟩ ⟨4, 6⟩ (1 / 10) =
        .ok (candidates, Counts.sortIndex
          ⟨[(300, 4), (0, 5), (100, 6), (400, 7)], by decide, by decide⟩) ∧
      candidates.Pairwise Precedes ∧
      ∀ candidate, candidate ∈ candidates ↔
        ∃ start, ActiveWindow ⟨[(300, 4), (0, 5), (100, 6), (400, 7)], by decide, by decide⟩
            ⟨4, 6⟩ 100 2 start ∧
          NothingBetween ⟨[(300, 4), (0, 5), (100, 6), (400, 7)], by decide, by decide⟩ 100 2
            start ∧
          candidate = reported ⟨[(300, 4), (0, 5), (100, 6), (400, 7)], by decide, by decide⟩
            100 2 start :=
  findActiveWindowCandidates_exact _ ⟨4, 6⟩ (1 / 10) 2 (by decide +kernel) (by decide)

theorem sortIndex_of_sorted {counts : Counts}
    (sorted : counts.entries.Pairwise fun earlier later => decide (earlier.1 ≤ later.1) = true) :
    counts.sortIndex = counts.entries :=
  List.mergeSort_of_pairwise sorted

/-- A sample every 50 ms: the window of 0 and 100 is missed. -/
def offStep : Counts := ⟨[(0, 5), (50, 5), (100, 5)], by decide, by decide⟩

/-- Two counts whose sum is past the 64-bit range. -/
def largeCounts : Counts := ⟨[(0, 2 ^ 62), (100, 2 ^ 62)], by decide, by decide⟩

theorem active_offStep : ActiveWindow offStep ⟨1, 9⟩ 100 2 0 := by
  intro j hj
  refine ⟨5, ?_, by decide⟩
  interval_cases j
  · decide
  · decide

/-- A window with another time between its samples is missed, and a large sum wraps. -/
theorem findActiveWindowCandidates_missed :
    (findActiveWindowCandidates offStep ⟨1, 9⟩ (1 / 10) = .ok ([], offStep.sortIndex) ∧
        ActiveWindow offStep ⟨1, 9⟩ 100 2 0) ∧
      findActiveWindowCandidates largeCounts ⟨1, 2 ^ 62⟩ (1 / 10) =
          .ok ([⟨0, 100, -(2 ^ 63), 2⟩], largeCounts.sortIndex) ∧
        windowSum largeCounts 100 2 0 = 2 ^ 63 := by
  have hsampled : sampleCountForDuration (1 / 10) = .ok ((2 : Nat) : Int) := by decide +kernel
  have hnone : candidatesIn ⟨1, 9⟩ 2 100 offStep.sortIndex = [] := by
    rw [sortIndex_of_sorted (by decide)]
    decide +kernel
  have hone : candidatesIn ⟨1, 2 ^ 62⟩ 2 100 largeCounts.sortIndex =
      [⟨0, 100, -(2 ^ 63), 2⟩] := by
    rw [sortIndex_of_sorted (by decide)]
    decide +kernel
  refine ⟨⟨?_, active_offStep⟩, ?_, by decide +kernel⟩
  · rw [findActiveWindowCandidates_eq _ _ hsampled (by decide), hnone, List.mergeSort_nil]
  · rw [findActiveWindowCandidates_eq _ _ hsampled (by decide), hone, List.mergeSort_singleton]

end DeepcV2x.Dataset
