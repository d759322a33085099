import DeepcV2x.Foundation.Grids

/-!
# Windows of one size inside the runs of a list

A run is a stretch of neighbours that satisfy a condition closed under taking
stretches.  A scan keeps the longest run that ends at its position; the windows
that lie inside runs are then those of the runs given up, followed by those of
the run it holds.
-/

namespace DeepcV2x.Foundation.Grids

variable {Item : Type}

/-- A condition on stretches that every shorter stretch inherits. -/
structure StretchClosed (run : List Item → Bool) : Prop where
  init : ∀ items item, run (items ++ [item]) = true → run items = true
  tail : ∀ item items, run (item :: items) = true → run items = true

/-- The windows of `size` items that are runs, in the order of their starts. -/
def runWindows (run : List Item → Bool) (size : Nat) (items : List Item) : List (List Item) :=
  ((List.range (items.length + 1 - size)).map fun start => window items start size).filter run

/-- The last window, when it is a run. -/
def lastRunWindow (run : List Item → Bool) (size : Nat) (items : List Item) :
    List (List Item) :=
  if size ≤ items.length ∧ run (items.drop (items.length - size)) = true then
    [items.drop (items.length - size)]
  else []

/-- `current` is the longest run that ends where `items` end. -/
structure LongestRun (run : List Item → Bool) (items current : List Item) : Prop where
  atEnd : current <:+ items
  isRun : run current = true
  longest : ∀ other, other <:+ items → run other = true → other.length ≤ current.length

variable {run : List Item → Bool}

theorem StretchClosed.suffix (closed : StretchClosed run) {items other : List Item}
    (atEnd : other <:+ items) (isRun : run items = true) : run other = true := by
  obtain ⟨before, rfl⟩ := atEnd
  induction before with
  | nil => exact isRun
  | cons item before ih => exact ih (closed.tail item (before ++ other) isRun)

theorem StretchClosed.window (closed : StretchClosed run) {items : List Item}
    (isRun : run items = true) (start size : Nat) : run (window items start size) = true := by
  have hdrop : run (items.drop start) = true :=
    closed.suffix (List.drop_suffix start items) isRun
  have hprefixes : ∀ (after before : List Item), run (before ++ after) = true →
      run before = true := by
    intro after
    induction after with
    | nil =>
        intro before hrun
        rwa [List.append_nil] at hrun
    | cons item after ih =>
        intro before hrun
        apply closed.init before item
        apply ih
        rwa [List.append_assoc, List.singleton_append]
  apply hprefixes ((items.drop start).drop size)
  rwa [Grids.window, List.take_append_drop]

/-! ## Windows under growth -/

theorem window_append {items : List Item} {start size : Nat} (fits : start + size ≤ items.length)
    (more : List Item) : window (items ++ more) start size = window items start size := by
  unfold window
  rw [List.drop_append_of_le_length (by omega), List.take_append_of_le_length]
  rw [List.length_drop]
  omega

/-- One more item adds the window that ends with it. -/
theorem runWindows_snoc {size : Nat} (positive : 0 < size) (items : List Item) (item : Item) :
    runWindows run size (items ++ [item]) =
      runWindows run size items ++ lastRunWindow run size (items ++ [item]) := by
  have hlength : (items ++ [item]).length = items.length + 1 := by simp
  unfold runWindows lastRunWindow
  by_cases fits : size ≤ items.length + 1
  · have hcount : items.length + 1 + 1 - size = items.length + 1 - size + 1 := by omega
    have hlast : window (items ++ [item]) (items.length + 1 - size) size =
        (items ++ [item]).drop (items.length + 1 - size) := by
      unfold window
      apply List.take_of_length_le
      rw [List.length_drop, hlength]
      omega
    have hold : (List.range (items.length + 1 - size)).map
        (fun start => window (items ++ [item]) start size) =
        (List.range (items.length + 1 - size)).map fun start => window items start size := by
      apply List.map_congr_left
      intro start hstart
      have hlt := List.mem_range.mp hstart
      exact window_append (by omega) [item]
    rw [hlength, hcount, List.range_succ, List.map_append, List.filter_append, hold,
      List.map_singleton, hlast]
    congr 1
    by_cases isRun : run ((items ++ [item]).drop (items.length + 1 - size)) = true
    · rw [if_pos ⟨fits, isRun⟩, List.filter_singleton, isRun]
      rfl
    · rw [if_neg (fun both => isRun both.2), List.filter_singleton,
        Bool.eq_false_iff.mpr isRun]
      rfl
  · have hnone : items.length + 1 + 1 - size = 0 := by omega
    have hnone' : items.length + 1 - size = 0 := by omega
    rw [hlength, hnone, hnone', if_neg (fun both => fits both.1)]
    rfl

theorem runWindows_of_isRun (closed : StretchClosed run) {items : List Item}
    (isRun : run items = true) (size : Nat) :
    runWindows run size items =
      (List.range (items.length + 1 - size)).map fun start => window items start size := by
  unfold runWindows
  rw [List.filter_eq_self]
  intro each heach
  obtain ⟨start, -, rfl⟩ := List.mem_map.mp heach
  exact closed.window isRun start size

theorem runWindows_nil {size : Nat} (positive : 0 < size) :
    runWindows run size ([] : List Item) = [] := by
  unfold runWindows
  have hnone : ([] : List Item).length + 1 - size = 0 := by
    rw [List.length_nil]
    omega
  rw [hnone]
  rfl

theorem mem_runWindows {size : Nat} {items stretch : List Item} :
    stretch ∈ runWindows run size items ↔
      ∃ start, start + size ≤ items.length ∧ stretch = window items start size ∧
        run stretch = true := by
  unfold runWindows
  rw [List.mem_filter, List.mem_map]
  constructor
  · rintro ⟨⟨start, hstart, rfl⟩, isRun⟩
    have hlt := List.mem_range.mp hstart
    exact ⟨start, by omega, rfl, isRun⟩
  · rintro ⟨start, hfits, rfl, isRun⟩
    exact ⟨⟨start, List.mem_range.mpr (by omega), rfl⟩, isRun⟩

/-! ## The longest run at the end -/

theorem drop_suffix_of_le {items other : List Item} {size : Nat} (atEnd : other <:+ items)
    (fits : size ≤ other.length) :
    items.drop (items.length - size) = other.drop (other.length - size) := by
  obtain ⟨before, rfl⟩ := atEnd
  rw [List.length_append, List.drop_append, List.drop_eq_nil_of_le (by omega), List.nil_append]
  congr 1
  omega

/-- The last window is a run exactly when the longest run at the end holds it. -/
theorem LongestRun.lastRunWindow_eq {items current : List Item}
    (longestRun : LongestRun run items current) (size : Nat) :
    lastRunWindow run size items = lastRunWindow run size current := by
  unfold lastRunWindow
  by_cases fits : size ≤ current.length
  · have hlong : size ≤ items.length := fits.trans longestRun.atEnd.length_le
    rw [drop_suffix_of_le longestRun.atEnd fits]
    simp only [fits, hlong, true_and]
  · have none : ¬ (size ≤ items.length ∧ run (items.drop (items.length - size)) = true) := by
      rintro ⟨hlong, isRun⟩
      have hle := longestRun.longest _ (List.drop_suffix _ _) isRun
      rw [List.length_drop] at hle
      omega
    rw [if_neg none, if_neg (fun both => fits both.1)]

theorem LongestRun.nil (empty : run [] = true) : LongestRun run ([] : List Item) [] := by
  refine ⟨List.suffix_refl _, empty, ?_⟩
  intro other hother _
  rw [List.suffix_nil.mp hother]

/-- A stretch at the end of a longer list is empty or ends with its last item. -/
theorem suffix_snoc {items other : List Item} {item : Item} (atEnd : other <:+ items ++ [item]) :
    other = [] ∨ ∃ init, other = init ++ [item] ∧ init <:+ items := by
  rcases List.eq_nil_or_concat other with rfl | ⟨init, last, rfl⟩
  · exact Or.inl rfl
  · right
    rw [List.concat_eq_append] at atEnd ⊢
    obtain ⟨before, heq⟩ := atEnd
    rw [← List.append_assoc] at heq
    obtain ⟨hinit, hlast⟩ := List.append_inj' heq rfl
    rw [List.singleton_inj] at hlast
    exact ⟨init, by rw [hlast], before, hinit⟩

/-- The run goes on with an item that keeps it one. -/
theorem LongestRun.extend (closed : StretchClosed run) {items current : List Item} {item : Item}
    (longestRun : LongestRun run items current) (isRun : run (current ++ [item]) = true) :
    LongestRun run (items ++ [item]) (current ++ [item]) := by
  obtain ⟨before, rfl⟩ := longestRun.atEnd
  refine ⟨⟨before, (List.append_assoc _ _ _).symm⟩, isRun, ?_⟩
  intro other hother hrun
  rcases suffix_snoc hother with rfl | ⟨init, rfl, hinit⟩
  · exact Nat.zero_le _
  · have hle := longestRun.longest init hinit (closed.init init item hrun)
    simpa using hle

/-- A new run starts with an item that does not continue any. -/
theorem LongestRun.restart (items : List Item) {item : Item} (single : run [item] = true)
    (breaks : ∀ init, init ≠ [] → init <:+ items → run (init ++ [item]) = false) :
    LongestRun run (items ++ [item]) [item] := by
  refine ⟨List.suffix_append _ _, single, ?_⟩
  intro other hother hrun
  rcases suffix_snoc hother with rfl | ⟨init, rfl, hinit⟩
  · exact Nat.zero_le _
  · by_cases hnil : init = []
    · simp [hnil]
    · rw [breaks init hnil hinit] at hrun
      exact absurd hrun Bool.false_ne_true

/-- No run ends with an item that is in none. -/
theorem LongestRun.drop (items : List Item) {item : Item} (empty : run [] = true)
    (breaks : ∀ init, init <:+ items → run (init ++ [item]) = false) :
    LongestRun run (items ++ [item]) [] := by
  refine ⟨List.nil_suffix, empty, ?_⟩
  intro other hother hrun
  rcases suffix_snoc hother with rfl | ⟨init, rfl, hinit⟩
  · exact Nat.zero_le _
  · rw [breaks init hinit] at hrun
    exact absurd hrun Bool.false_ne_true

end DeepcV2x.Foundation.Grids
