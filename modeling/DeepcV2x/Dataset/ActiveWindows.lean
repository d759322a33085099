import DeepcV2x.Foundation.RunWindows
import DeepcV2x.Foundation.Strings
import Mathlib.Algebra.Group.Int.Defs
import Mathlib.Data.List.Chain
import Mathlib.Data.Rat.Floor

/-!
# Candidate windows of the active counts

`find_active_window_candidates` scans the counts in time order for stretches
whose neighbours are one step apart and whose counts are in range, and lists
every window of the asked number of samples inside them.  Times and counts are
numpy `int64` values, which sums wrap around; durations are exact rationals.
-/

namespace DeepcV2x.Dataset

open DeepcV2x.Foundation.Grids

/-! ## Samples of a duration -/

def targetDt : ℚ := 1 / 10

/-- Python's `round`: to the nearest integer, halves to the even one. -/
def pythonRound (value : ℚ) : Int :=
  let part := value - ⌊value⌋
  if part < 1 / 2 then ⌊value⌋
  else if 1 / 2 < part then ⌊value⌋ + 1
  else if ⌊value⌋ % 2 = 0 then ⌊value⌋
  else ⌊value⌋ + 1

/-- `np.isclose` with its default tolerances. -/
def isClose (value other : ℚ) : Bool :=
  decide (|value - other| ≤ 1 / 100000000 + 1 / 100000 * |other|)

/-- How a call ends that raises. -/
inductive WindowError
  | stepNotMilliseconds
  | durationNotMultiple (durationS : ℚ)
  | noSamples (count : Int)
  | indexError
  deriving DecidableEq

def sampleStepMs : Except WindowError Int :=
  let stepMs := targetDt * 1000
  let rounded := pythonRound stepMs
  if isClose stepMs rounded then .ok rounded else .error .stepNotMilliseconds

def sampleCountForDuration (durationS : ℚ) : Except WindowError Int :=
  let steps := durationS / targetDt
  let rounded := pythonRound steps
  if isClose steps rounded then .ok (rounded + 1) else .error (.durationNotMultiple durationS)

/-! ## The counts -/

/-- The value of an `int64` operation. -/
def int64 (value : Int) : Int := value.bmod (2 ^ 64)

def InInt64 (value : Int) : Prop := -(2 ^ 63) ≤ value ∧ value < 2 ^ 63

instance (value : Int) : Decidable (InInt64 value) :=
  inferInstanceAs (Decidable (-(2 ^ 63) ≤ value ∧ value < 2 ^ 63))

/-- A time in milliseconds and the number of vehicles active at it. -/
abbrev Entry := Int × Int

/-- The series of counts: distinct times, in any order. -/
structure Counts where
  entries : List Entry
  distinct : (entries.map Prod.fst).Nodup
  times : ∀ entry ∈ entries, InInt64 entry.1

/-- `sort_index`. -/
def Counts.sortIndex (counts : Counts) : List Entry :=
  counts.entries.mergeSort fun left right => decide (left.1 ≤ right.1)

/-- The two bounds on a count. -/
structure Bounds where
  minActive : Int
  maxActive : Int

def Bounds.isValidCount (bounds : Bounds) (count : Int) : Bool :=
  decide (bounds.minActive ≤ count) && decide (count ≤ bounds.maxActive)

structure Candidate where
  startGlobalMs : Int
  endGlobalMs : Int
  activeCountSum : Int
  sampleCount : Nat
  deriving DecidableEq, Repr

/-! ## One run -/

/-- The running sums behind `prefix[0]`. -/
def cumsumFrom (sum : Int) : List Int → List Int
  | [] => []
  | count :: counts => int64 (sum + count) :: cumsumFrom (int64 (sum + count)) counts

/-- `add_run`; `none` is an index out of range. -/
def addRun (expectedSamples : Nat) (run : List Entry) : Option (List Candidate) :=
  if run.length < expectedSamples then some []
  else
    let sums := 0 :: cumsumFrom 0 (run.map Prod.snd)
    let totals := List.zipWith (fun upper lower => int64 (upper - lower))
      (sums.drop expectedSamples) (sums.take (sums.length - expectedSamples))
    totals.zipIdx.mapM fun total => do
      let first ← run[total.2]?
      let last ← run[total.2 + expectedSamples - 1]?
      some ⟨first.1, last.1, total.1, expectedSamples⟩

/-! ## The scan -/

/-- The variables of the loop over the sorted counts. -/
structure Scan where
  run : List Entry
  previousTime : Option Int
  candidates : List Candidate

/-- One turn of the loop. -/
def scanEntry (bounds : Bounds) (expectedSamples : Nat) (stepMs : Int) (scan : Scan)
    (entry : Entry) : Option Scan :=
  let isContiguous := scan.previousTime.all fun previous => entry.1 == int64 (previous + stepMs)
  if (bounds.isValidCount entry.2 && (scan.run.isEmpty || isContiguous)) = true then
    some ⟨scan.run ++ [entry], some entry.1, scan.candidates⟩
  else
    (addRun expectedSamples scan.run).map fun found =>
      ⟨if bounds.isValidCount entry.2 then [entry] else [], some entry.1,
        scan.candidates ++ found⟩

/-- Greater sums first, and earlier starts among equal sums. -/
def beforeOrSame (left right : Candidate) : Bool :=
  decide (right.activeCountSum < left.activeCountSum) ||
    (left.activeCountSum == right.activeCountSum &&
      decide (left.startGlobalMs ≤ right.startGlobalMs))

/-- The loop, the last `add_run` and the sort. -/
def candidatesOf (bounds : Bounds) (expectedSamples : Nat) (stepMs : Int)
    (entries : List Entry) : Option (List Candidate) := do
  let scan ← entries.foldlM (scanEntry bounds expectedSamples stepMs) ⟨[], none, []⟩
  let found ← addRun expectedSamples scan.run
  some ((scan.candidates ++ found).mergeSort beforeOrSame)

/-- Fewer samples than one, from a negative duration, are refused here. -/
def findActiveWindowCandidates (counts : Counts) (bounds : Bounds) (durationS : ℚ) :
    Except WindowError (List Candidate × List Entry) := do
  let expectedSamples ← sampleCountForDuration durationS
  let stepMs ← sampleStepMs
  if expectedSamples < 1 then .error (.noSamples expectedSamples)
  else
    match candidatesOf bounds expectedSamples.toNat stepMs counts.sortIndex with
    | none => .error .indexError
    | some candidates => .ok (candidates, counts.sortIndex)

/-! ## What one run contributes -/

/-- The sum of the counts of a stretch. -/
def totalCount : List Entry → Int
  | [] => 0
  | entry :: entries => entry.2 + totalCount entries

/-- The candidate a stretch stands for. -/
def candidateOf (expectedSamples : Nat) (stretch : List Entry) : Candidate :=
  ⟨(stretch.head?.map Prod.fst).getD 0, (stretch.getLast?.map Prod.fst).getD 0,
    int64 (totalCount stretch), expectedSamples⟩

theorem totalCount_append (left right : List Entry) :
    totalCount (left ++ right) = totalCount left + totalCount right := by
  induction left with
  | nil => simp [totalCount]
  | cons entry left ih => simp only [List.cons_append, totalCount, ih, Int.add_assoc]

theorem int64_add_int64 (left right : Int) : int64 (int64 left + right) = int64 (left + right) :=
  Int.bmod_add_bmod

theorem int64_sub (left right : Int) : int64 (int64 left - int64 right) = int64 (left - right) := by
  unfold int64
  rw [Int.bmod_sub_bmod, Int.sub_bmod_bmod]

/-- The running sums are the sums of the entries before each position. -/
theorem cumsumFrom_getElem? (before : Int) (entries : List Entry) {i : Nat}
    (hi : i < entries.length) :
    (cumsumFrom (int64 before) (entries.map Prod.snd))[i]? =
      some (int64 (before + totalCount (entries.take (i + 1)))) := by
  induction entries generalizing before i with
  | nil => exact absurd hi (Nat.not_lt_zero _)
  | cons entry entries ih =>
      rw [List.map_cons, cumsumFrom, int64_add_int64]
      cases i with
      | zero => simp [totalCount]
      | succ i =>
          rw [List.getElem?_cons_succ, ih (before + entry.2) (Nat.lt_of_succ_lt_succ hi),
            List.take_succ_cons, totalCount, Int.add_assoc]

theorem prefixSums_getElem? (entries : List Entry) {i : Nat} (hi : i ≤ entries.length) :
    (0 :: cumsumFrom 0 (entries.map Prod.snd))[i]? =
      some (int64 (totalCount (entries.take i))) := by
  cases i with
  | zero => rfl
  | succ i =>
      have hsum := cumsumFrom_getElem? 0 entries hi
      rw [Int.zero_add] at hsum
      rw [List.getElem?_cons_succ, ← hsum]
      rfl

theorem cumsumFrom_length (before : Int) (counts : List Int) :
    (cumsumFrom before counts).length = counts.length := by
  induction counts generalizing before with
  | nil => rfl
  | cons count counts ih => rw [cumsumFrom, List.length_cons, List.length_cons, ih]

/-- A difference of two prefix sums is the sum of the window between them. -/
theorem totalCount_window (entries : List Entry) (start size : Nat) :
    totalCount (entries.take (start + size)) - totalCount (entries.take start) =
      totalCount (window entries start size) := by
  rw [List.take_add, totalCount_append, window]
  omega

theorem mapM_eq_some {Source Target : Type} {change : Source → Option Target}
    {result : Source → Target} {items : List Source}
    (each : ∀ item ∈ items, change item = some (result item)) :
    items.mapM change = some (items.map result) := by
  induction items with
  | nil => rfl
  | cons item items ih =>
      rw [List.mapM_cons, each item List.mem_cons_self,
        ih fun other hother => each other (List.mem_cons_of_mem item hother)]
      rfl

theorem candidateOf_window {run : List Entry} {start size : Nat} (positive : 0 < size)
    (fits : start + size ≤ run.length) {first last : Entry} (hfirst : run[start]? = some first)
    (hlast : run[start + size - 1]? = some last) :
    candidateOf size (window run start size) =
      ⟨first.1, last.1, int64 (totalCount (window run start size)), size⟩ := by
  have hhead : (window run start size).head? = some first := by
    rw [List.head?_eq_getElem?, window_getElem?, if_pos positive, Nat.add_zero, hfirst]
  have hend : (window run start size).getLast? = some last := by
    rw [List.getLast?_eq_getElem?, window_length fits, window_getElem?, if_pos (by omega),
      ← hlast]
    congr 1
    omega
  simp [candidateOf, hhead, hend]

/-- `add_run` lists every window of the run with the sum of its counts. -/
theorem addRun_eq {expectedSamples : Nat} (positive : 0 < expectedSamples) (run : List Entry) :
    addRun expectedSamples run =
      some ((List.range (run.length + 1 - expectedSamples)).map fun start =>
        candidateOf expectedSamples (window run start expectedSamples)) := by
  unfold addRun
  by_cases short : run.length < expectedSamples
  · have hnone : run.length + 1 - expectedSamples = 0 := by omega
    rw [if_pos short, hnone]
    rfl
  · rw [if_neg short]
    have hlength : (0 :: cumsumFrom 0 (run.map Prod.snd)).length = run.length + 1 := by
      rw [List.length_cons, cumsumFrom_length, List.length_map]
    have htotals : List.zipWith (fun upper lower => int64 (upper - lower))
        ((0 :: cumsumFrom 0 (run.map Prod.snd)).drop expectedSamples)
        ((0 :: cumsumFrom 0 (run.map Prod.snd)).take
          ((0 :: cumsumFrom 0 (run.map Prod.snd)).length - expectedSamples)) =
        (List.range (run.length + 1 - expectedSamples)).map fun start =>
          int64 (totalCount (window run start expectedSamples)) := by
      rw [hlength]
      apply List.ext_getElem?
      intro start
      rw [List.getElem?_zipWith, List.getElem?_drop, List.getElem?_take, List.getElem?_map]
      by_cases inside : start < run.length + 1 - expectedSamples
      · rw [if_pos inside, prefixSums_getElem? run (by omega), prefixSums_getElem? run (by omega),
          List.getElem?_range inside, Option.map_some, Nat.add_comm expectedSamples start]
        simp only [int64_sub, totalCount_window]
      · have hpast : (List.range (run.length + 1 - expectedSamples))[start]? = none :=
          List.getElem?_eq_none (by rw [List.length_range]; omega)
        rw [if_neg inside, hpast]
        cases (0 :: cumsumFrom 0 (run.map Prod.snd))[expectedSamples + start]? <;> rfl
    simp only [htotals]
    have hzip : ((List.range (run.length + 1 - expectedSamples)).map fun start =>
        int64 (totalCount (window run start expectedSamples))).zipIdx =
        (List.range (run.length + 1 - expectedSamples)).map fun start =>
          (int64 (totalCount (window run start expectedSamples)), start) := by
      apply List.ext_getElem?
      intro start
      rw [List.getElem?_zipIdx, List.getElem?_map, List.getElem?_map]
      by_cases inside : start < run.length + 1 - expectedSamples
      · rw [List.getElem?_range inside]
        simp
      · rw [List.getElem?_eq_none (by rw [List.length_range]; omega)]
        rfl
    rw [hzip]
    have heach : ∀ total ∈ (List.range (run.length + 1 - expectedSamples)).map fun start =>
        (int64 (totalCount (window run start expectedSamples)), start),
        (do
          let first ← run[total.2]?
          let last ← run[total.2 + expectedSamples - 1]?
          some (Candidate.mk first.1 last.1 total.1 expectedSamples)) =
        some (candidateOf expectedSamples (window run total.2 expectedSamples)) := by
      intro total htotal
      obtain ⟨start, hstart, rfl⟩ := List.mem_map.mp htotal
      have hlt := List.mem_range.mp hstart
      obtain ⟨first, hfirst⟩ : ∃ first, run[start]? = some first :=
        ⟨_, List.getElem?_eq_getElem (by omega)⟩
      obtain ⟨last, hlast⟩ : ∃ last, run[start + expectedSamples - 1]? = some last :=
        ⟨_, List.getElem?_eq_getElem (by omega)⟩
      rw [candidateOf_window positive (by omega) hfirst hlast]
      simp only [hfirst, hlast]
      rfl
    rw [mapM_eq_some heach, List.map_map]
    rfl

/-! ## What the loop keeps -/

/-- Counts in range, each one step behind the one before. -/
def isStretch (bounds : Bounds) (stepMs : Int) (entries : List Entry) : Bool :=
  (entries.all fun entry => bounds.isValidCount entry.2) &&
    decide (entries.IsChain fun earlier later => later.1 = int64 (earlier.1 + stepMs))

theorem isStretch_iff {bounds : Bounds} {stepMs : Int} {entries : List Entry} :
    isStretch bounds stepMs entries = true ↔
      (∀ entry ∈ entries, bounds.isValidCount entry.2 = true) ∧
        entries.IsChain fun earlier later => later.1 = int64 (earlier.1 + stepMs) := by
  rw [isStretch, Bool.and_eq_true, List.all_eq_true, decide_eq_true_iff]

theorem isStretch_nil (bounds : Bounds) (stepMs : Int) : isStretch bounds stepMs [] = true :=
  isStretch_iff.mpr ⟨fun _ hmem => absurd hmem List.not_mem_nil, List.isChain_nil⟩

/-- A stretch goes on with a valid count one step behind its last. -/
theorem isStretch_snoc {bounds : Bounds} {stepMs : Int} {entries : List Entry} {entry : Entry} :
    isStretch bounds stepMs (entries ++ [entry]) = true ↔
      isStretch bounds stepMs entries = true ∧ bounds.isValidCount entry.2 = true ∧
        ∀ last, entries.getLast? = some last → entry.1 = int64 (last.1 + stepMs) := by
  rw [isStretch_iff, isStretch_iff, List.isChain_append]
  constructor
  · rintro ⟨valid, chain, -, link⟩
    refine ⟨⟨fun other hother => valid other (List.mem_append_left _ hother), chain⟩,
      valid entry (by simp), ?_⟩
    intro last hlast
    exact link last hlast entry rfl
  · rintro ⟨⟨valid, chain⟩, validEntry, link⟩
    refine ⟨?_, chain, List.isChain_singleton entry, ?_⟩
    · intro other hother
      rcases List.mem_append.mp hother with hin | hnew
      · exact valid other hin
      · rw [List.mem_singleton.mp hnew]
        exact validEntry
    · intro last hlast next hnext
      obtain rfl : entry = next := by simpa using hnext
      exact link last hlast

theorem isStretch_closed (bounds : Bounds) (stepMs : Int) :
    StretchClosed (isStretch bounds stepMs) := by
  constructor
  · intro items item hrun
    exact (isStretch_snoc.mp hrun).1
  · intro item items hrun
    obtain ⟨valid, chain⟩ := isStretch_iff.mp hrun
    exact isStretch_iff.mpr
      ⟨fun entry hentry => valid entry (List.mem_cons_of_mem item hentry), chain.tail⟩

/-- The candidates of the windows of `entries` that are stretches. -/
def candidatesIn (bounds : Bounds) (expectedSamples : Nat) (stepMs : Int) (entries : List Entry) :
    List Candidate :=
  (runWindows (isStretch bounds stepMs) expectedSamples entries).map
    (candidateOf expectedSamples)

/-- After some entries the loop holds the longest stretch at their end; the candidates found and
those of that stretch are the candidates of these entries. -/
structure Scanned (bounds : Bounds) (expectedSamples : Nat) (stepMs : Int) (seen : List Entry)
    (scan : Scan) : Prop where
  previous : scan.previousTime = seen.getLast?.map Prod.fst
  current : LongestRun (isStretch bounds stepMs) seen scan.run
  found : scan.candidates ++ candidatesIn bounds expectedSamples stepMs scan.run =
    candidatesIn bounds expectedSamples stepMs seen

section Loop

variable {bounds : Bounds} {expectedSamples : Nat} {stepMs : Int}

theorem addRun_of_isStretch (positive : 0 < expectedSamples) {run : List Entry}
    (stretch : isStretch bounds stepMs run = true) :
    addRun expectedSamples run = some (candidatesIn bounds expectedSamples stepMs run) := by
  rw [addRun_eq positive, candidatesIn, runWindows_of_isRun (isStretch_closed bounds stepMs) stretch,
    List.map_map]
  rfl

theorem candidatesIn_snoc (positive : 0 < expectedSamples) {entries current : List Entry}
    {entry : Entry}
    (longest : LongestRun (isStretch bounds stepMs) (entries ++ [entry]) current) :
    candidatesIn bounds expectedSamples stepMs (entries ++ [entry]) =
      candidatesIn bounds expectedSamples stepMs entries ++
        (lastRunWindow (isStretch bounds stepMs) expectedSamples current).map
          (candidateOf expectedSamples) := by
  rw [candidatesIn, runWindows_snoc positive, List.map_append, longest.lastRunWindow_eq]
  rfl

/-- A stretch that is not empty ends where the entries end. -/
theorem getLast?_of_suffix {entries other : List Entry} (atEnd : other <:+ entries)
    (nonempty : other ≠ []) : other.getLast? = entries.getLast? := by
  obtain ⟨before, rfl⟩ := atEnd
  rw [List.getLast?_append_of_ne_nil before nonempty]

/-- The entry goes on with the stretch at hand. -/
theorem Scanned.extend (positive : 0 < expectedSamples) {seen : List Entry} {scan : Scan}
    (scanned : Scanned bounds expectedSamples stepMs seen scan) {entry : Entry}
    (valid : bounds.isValidCount entry.2 = true)
    (link : ∀ last, scan.run.getLast? = some last → entry.1 = int64 (last.1 + stepMs)) :
    Scanned bounds expectedSamples stepMs (seen ++ [entry])
      ⟨scan.run ++ [entry], some entry.1, scan.candidates⟩ := by
  have stretch : isStretch bounds stepMs (scan.run ++ [entry]) = true :=
    isStretch_snoc.mpr ⟨scanned.current.isRun, valid, link⟩
  have longest := scanned.current.extend (isStretch_closed bounds stepMs) stretch
  refine ⟨by simp, longest, ?_⟩
  have hself : LongestRun (isStretch bounds stepMs) (scan.run ++ [entry])
      (scan.run ++ [entry]) := ⟨List.suffix_refl _, stretch, fun other hother _ => hother.length_le⟩
  rw [candidatesIn_snoc positive longest, candidatesIn_snoc positive hself, ← List.append_assoc,
    scanned.found]

/-- The entry ends the stretch at hand; `next` is what it starts. -/
theorem Scanned.break (positive : 0 < expectedSamples) {seen : List Entry} {scan : Scan}
    (scanned : Scanned bounds expectedSamples stepMs seen scan) {entry : Entry}
    {next : List Entry} (short : next = [] ∨ next = [entry])
    (longest : LongestRun (isStretch bounds stepMs) (seen ++ [entry]) next) :
    Scanned bounds expectedSamples stepMs (seen ++ [entry])
      ⟨next, some entry.1,
        scan.candidates ++ candidatesIn bounds expectedSamples stepMs scan.run⟩ := by
  refine ⟨by simp, longest, ?_⟩
  rw [candidatesIn_snoc positive longest, scanned.found]
  congr 1
  rcases short with rfl | rfl
  · rw [candidatesIn, runWindows_nil positive, lastRunWindow, if_neg]
    rintro ⟨hle, -⟩
    exact absurd positive (Nat.not_lt.mpr hle)
  · have hsnoc := @runWindows_snoc Entry (isStretch bounds stepMs) expectedSamples positive []
      entry
    rw [List.nil_append, runWindows_nil positive, List.nil_append] at hsnoc
    rw [candidatesIn, hsnoc]

theorem longestRun_restart {seen : List Entry} {entry : Entry}
    (valid : bounds.isValidCount entry.2 = true)
    (apart : ∀ last, seen.getLast? = some last → entry.1 ≠ int64 (last.1 + stepMs)) :
    LongestRun (isStretch bounds stepMs) (seen ++ [entry]) [entry] := by
  apply LongestRun.restart
  · rw [← List.nil_append [entry]]
    exact isStretch_snoc.mpr ⟨isStretch_nil bounds stepMs, valid, fun _ hlast => by cases hlast⟩
  · intro before hnonempty hsuffix
    apply Bool.eq_false_iff.mpr
    intro hrun
    obtain ⟨last, hlast⟩ : ∃ last, before.getLast? = some last :=
      ⟨_, List.getLast?_eq_some_getLast hnonempty⟩
    have hlink := (isStretch_snoc.mp hrun).2.2 last hlast
    rw [getLast?_of_suffix hsuffix hnonempty] at hlast
    exact apart last hlast hlink

theorem longestRun_drop (seen : List Entry) {entry : Entry}
    (invalid : ¬ bounds.isValidCount entry.2 = true) :
    LongestRun (isStretch bounds stepMs) (seen ++ [entry]) [] := by
  apply LongestRun.drop _ (isStretch_nil bounds stepMs)
  intro before _
  apply Bool.eq_false_iff.mpr
  intro hrun
  exact invalid (isStretch_snoc.mp hrun).2.1

/-- One turn of the loop. -/
theorem scanEntry_scanned (positive : 0 < expectedSamples) {seen : List Entry} {scan : Scan}
    (scanned : Scanned bounds expectedSamples stepMs seen scan) (entry : Entry) :
    ∃ next, scanEntry bounds expectedSamples stepMs scan entry = some next ∧
      Scanned bounds expectedSamples stepMs (seen ++ [entry]) next := by
  have hcontiguous : (scan.previousTime.all fun previous => entry.1 == int64 (previous + stepMs)) =
      true ↔ ∀ last, seen.getLast? = some last → entry.1 = int64 (last.1 + stepMs) := by
    rw [scanned.previous]
    cases seen.getLast? with
    | none => simp
    | some last => simp
  simp only [scanEntry]
  by_cases goesOn : (bounds.isValidCount entry.2 && (scan.run.isEmpty ||
      scan.previousTime.all fun previous => entry.1 == int64 (previous + stepMs))) = true
  · rw [if_pos goesOn]
    obtain ⟨valid, either⟩ := (Bool.and_eq_true _ _).mp goesOn
    refine ⟨_, rfl, scanned.extend positive valid ?_⟩
    intro last hlast
    have hnonempty : scan.run ≠ [] := by
      intro hnil
      rw [hnil] at hlast
      cases hlast
    rcases (Bool.or_eq_true _ _).mp either with hempty | hlink
    · exact absurd (List.isEmpty_iff.mp hempty) hnonempty
    · rw [getLast?_of_suffix scanned.current.atEnd hnonempty] at hlast
      exact hcontiguous.mp hlink last hlast
  · rw [if_neg goesOn, addRun_of_isStretch positive scanned.current.isRun, Option.map_some]
    by_cases valid : bounds.isValidCount entry.2 = true
    · have hbroken : ¬ (scan.run.isEmpty ||
          scan.previousTime.all fun previous => entry.1 == int64 (previous + stepMs)) = true := by
        intro either
        exact goesOn ((Bool.and_eq_true _ _).mpr ⟨valid, either⟩)
      have hapart : ∀ last, seen.getLast? = some last → entry.1 ≠ int64 (last.1 + stepMs) := by
        intro last hlast heq
        apply hbroken
        apply (Bool.or_eq_true _ _).mpr
        right
        rw [hcontiguous]
        intro other hother
        rw [hlast, Option.some.injEq] at hother
        rwa [← hother]
      rw [if_pos valid]
      exact ⟨_, rfl, scanned.break positive (Or.inr rfl) (longestRun_restart valid hapart)⟩
    · rw [if_neg valid]
      exact ⟨_, rfl, scanned.break positive (Or.inl rfl) (longestRun_drop seen valid)⟩

theorem foldlM_scanned (positive : 0 < expectedSamples) (rest : List Entry) {seen : List Entry}
    {scan : Scan} (scanned : Scanned bounds expectedSamples stepMs seen scan) :
    ∃ last, rest.foldlM (scanEntry bounds expectedSamples stepMs) scan = some last ∧
      Scanned bounds expectedSamples stepMs (seen ++ rest) last := by
  induction rest generalizing seen scan with
  | nil => exact ⟨scan, rfl, by rwa [List.append_nil]⟩
  | cons entry rest ih =>
      obtain ⟨next, hnext, scannedNext⟩ := scanEntry_scanned positive scanned entry
      obtain ⟨last, hlast, scannedLast⟩ := ih scannedNext
      refine ⟨last, ?_, ?_⟩
      · rw [List.foldlM_cons, hnext]
        exact hlast
      · rwa [List.append_assoc, List.singleton_append] at scannedLast

/-- The function lists the windows of the sorted counts that are stretches, in its order. -/
theorem candidatesOf_eq (positive : 0 < expectedSamples) (entries : List Entry) :
    candidatesOf bounds expectedSamples stepMs entries =
      some ((candidatesIn bounds expectedSamples stepMs entries).mergeSort beforeOrSame) := by
  have start : Scanned bounds expectedSamples stepMs [] ⟨[], none, []⟩ :=
    ⟨rfl, LongestRun.nil (isStretch_nil bounds stepMs), rfl⟩
  obtain ⟨last, hlast, scanned⟩ := foldlM_scanned positive entries start
  unfold candidatesOf
  rw [hlast, Option.bind_eq_bind, Option.bind_some,
    addRun_of_isStretch positive scanned.current.isRun, Option.bind_eq_bind, Option.bind_some,
    scanned.found, List.nil_append]

end Loop

end DeepcV2x.Dataset
