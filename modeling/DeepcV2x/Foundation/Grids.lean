import Mathlib.Algebra.Order.Field.Rat
import Mathlib.Data.List.Sort
import Mathlib.Tactic.Linarith
import Mathlib.Tactic.Ring

/-!
# Samples on a regular grid

Lists of items sampled at equal distances, what is left of them when some
items are dropped, and the windows of what is left that have no gap.
-/

namespace DeepcV2x.Foundation.Grids

variable {Item : Type} (time : Item → ℚ) (dt : ℚ)

/-- The item at every position is sampled that many steps after the first. -/
def OnGrid (items : List Item) : Prop :=
  ∃ start : ℚ, ∀ (position : Nat) item, items[position]? = some item →
    time item = start + position * dt

/-- Neighbours are one step apart. -/
def GapFree (items : List Item) : Prop :=
  items.IsChain fun earlier later => time later = time earlier + dt

/-- The items before a time. -/
def itemsBefore (items : List Item) (bound : ℚ) : List Item :=
  items.filter fun item => decide (time item < bound)

variable {time dt}

/-! ## The grid -/

theorem OnGrid.sorted {items : List Item} (grid : OnGrid time dt items) (hdt : 0 < dt) :
    items.Pairwise fun earlier later => time earlier < time later := by
  obtain ⟨start, htime⟩ := grid
  rw [List.pairwise_iff_getElem]
  intro first second hfirst hsecond hlt
  rw [htime first _ (List.getElem?_eq_getElem hfirst),
    htime second _ (List.getElem?_eq_getElem hsecond)]
  have hpositions : (first : ℚ) < second := Nat.cast_lt.mpr hlt
  have := mul_lt_mul_of_pos_right hpositions hdt
  linarith

/-- Two items at different times are at least one step apart. -/
theorem OnGrid.step_le {items : List Item} (grid : OnGrid time dt items) (hdt : 0 < dt)
    {earlier later : Item} (hearlier : earlier ∈ items) (hlater : later ∈ items)
    (hlt : time earlier < time later) : time earlier + dt ≤ time later := by
  obtain ⟨start, htime⟩ := grid
  obtain ⟨first, hfirst⟩ := List.mem_iff_getElem?.mp hearlier
  obtain ⟨second, hsecond⟩ := List.mem_iff_getElem?.mp hlater
  rw [htime first _ hfirst, htime second _ hsecond] at hlt ⊢
  have hpositions : (first : ℚ) < second := lt_of_mul_lt_mul_right (by linarith) hdt.le
  have hsucc : (first : ℚ) + 1 ≤ second := by
    exact_mod_cast Nat.succ_le_of_lt (Nat.cast_lt.mp hpositions)
  have := mul_le_mul_of_nonneg_right hsucc hdt.le
  linarith

/-- The grid has no hole: one step after an item that is not the last there is another. -/
theorem OnGrid.exists_next {items : List Item} (grid : OnGrid time dt items) (hdt : 0 < dt)
    {earlier later : Item} (hearlier : earlier ∈ items) (hlater : later ∈ items)
    (hlt : time earlier < time later) : ∃ item ∈ items, time item = time earlier + dt := by
  obtain ⟨start, htime⟩ := grid
  obtain ⟨first, hfirst⟩ := List.mem_iff_getElem?.mp hearlier
  obtain ⟨second, hsecond⟩ := List.mem_iff_getElem?.mp hlater
  rw [htime first _ hfirst, htime second _ hsecond] at hlt
  have hpositions : (first : ℚ) < second := lt_of_mul_lt_mul_right (by linarith) hdt.le
  have hnext : first + 1 < items.length :=
    Nat.lt_of_le_of_lt (Nat.succ_le_of_lt (Nat.cast_lt.mp hpositions))
      (List.getElem?_eq_some_iff.mp hsecond).1
  refine ⟨items[first + 1], List.getElem_mem hnext, ?_⟩
  rw [htime (first + 1) _ (List.getElem?_eq_getElem hnext), htime first _ hfirst]
  push_cast
  ring

/-! ## Positions in sorted lists -/

theorem itemsBefore_eq_nil {items : List Item} {bound : ℚ}
    (hlate : ∀ item ∈ items, bound ≤ time item) : itemsBefore time items bound = [] := by
  rw [itemsBefore, List.filter_eq_nil_iff]
  intro item hmem
  simp only [decide_eq_true_eq, not_lt]
  exact hlate item hmem

theorem itemsBefore_eq_self {items : List Item} {bound : ℚ}
    (hearly : ∀ item ∈ items, time item < bound) : itemsBefore time items bound = items := by
  rw [itemsBefore, List.filter_eq_self]
  intro item hmem
  exact decide_eq_true (hearly item hmem)

theorem itemsBefore_cons_of_lt {head : Item} {bound : ℚ} (hearly : time head < bound)
    (tail : List Item) :
    itemsBefore time (head :: tail) bound = head :: itemsBefore time tail bound := by
  rw [itemsBefore, List.filter_cons, if_pos (decide_eq_true hearly), itemsBefore]

/-- The items before a time are the first ones. -/
theorem lt_length_itemsBefore_iff {items : List Item}
    (sorted : items.Pairwise fun earlier later => time earlier < time later) {bound : ℚ}
    {position : Nat} {item : Item} (hget : items[position]? = some item) :
    position < (itemsBefore time items bound).length ↔ time item < bound := by
  induction items generalizing position with
  | nil => cases hget
  | cons head tail ih =>
      obtain ⟨hhead, htail⟩ := List.pairwise_cons.mp sorted
      by_cases hearly : time head < bound
      · rw [itemsBefore_cons_of_lt hearly, List.length_cons]
        cases position with
        | zero =>
            obtain rfl := Option.some.inj hget
            exact ⟨fun _ => hearly, fun _ => Nat.succ_pos _⟩
        | succ position =>
            rw [Nat.succ_lt_succ_iff]
            exact ih htail hget
      · have hlate : ∀ other ∈ head :: tail, bound ≤ time other := by
          intro other hmem
          rcases List.mem_cons.mp hmem with rfl | hmem
          · exact not_lt.mp hearly
          · exact (not_lt.mp hearly).trans (hhead other hmem).le
        rw [itemsBefore_eq_nil hlate]
        constructor
        · intro hlt
          exact absurd hlt (Nat.not_lt_zero _)
        · intro hlt
          exact absurd hlt (not_lt.mpr (hlate item (List.mem_of_getElem? hget)))

/-- In a sorted list the position of an item is told by its time. -/
theorem position_lt_of_time_lt {items : List Item}
    (sorted : items.Pairwise fun earlier later => time earlier < time later)
    {first second : Nat} {earlier later : Item} (hfirst : items[first]? = some earlier)
    (hsecond : items[second]? = some later) (hlt : time earlier < time later) :
    first < second := by
  by_contra hge
  rcases Nat.lt_or_eq_of_le (Nat.le_of_not_lt hge) with hafter | rfl
  · obtain ⟨hfirst', rfl⟩ := List.getElem?_eq_some_iff.mp hfirst
    obtain ⟨hsecond', rfl⟩ := List.getElem?_eq_some_iff.mp hsecond
    exact absurd (List.pairwise_iff_getElem.mp sorted second first hsecond' hfirst' hafter)
      (not_lt.mpr hlt.le)
  · rw [hfirst] at hsecond
    cases hsecond
    exact lt_irrefl _ hlt

/-- In a sorted list there is one item at a time. -/
theorem item_of_time {items : List Item}
    (sorted : items.Pairwise fun earlier later => time earlier < time later)
    {item other : Item} (hitem : item ∈ items) (hother : other ∈ items)
    (htime : time item = time other) : item = other := by
  obtain ⟨first, hfirst⟩ := List.mem_iff_getElem?.mp hitem
  obtain ⟨second, hsecond⟩ := List.mem_iff_getElem?.mp hother
  obtain ⟨hfirst', rfl⟩ := List.getElem?_eq_some_iff.mp hfirst
  obtain ⟨hsecond', rfl⟩ := List.getElem?_eq_some_iff.mp hsecond
  have ordered := List.pairwise_iff_getElem.mp sorted
  rcases Nat.lt_trichotomy first second with hlt | rfl | hgt
  · exact absurd htime (ordered first second hfirst' hsecond' hlt).ne
  · rfl
  · exact absurd htime (ordered second first hsecond' hfirst' hgt).ne'

/-! ## Gaps after dropping items -/

section Kept

variable {items : List Item} {keep : Item → Bool} {size : Nat}

/-- A dropped item lies before, between or after the kept ones, but not at the time of one. -/
theorem kept_time_ne (grid : OnGrid time dt items) (hdt : 0 < dt) {dropped kept : Item}
    (hdropped : dropped ∈ items) (hnot : keep dropped = false) (hkept : kept ∈ items.filter keep) :
    time kept ≠ time dropped := by
  intro htime
  obtain ⟨hmem, hkeep⟩ := List.mem_filter.mp hkept
  rw [item_of_time (grid.sorted hdt) hmem hdropped htime, hnot] at hkeep
  cases hkeep

/-- Dropped items that leave a gap-free beginning are not inside it. -/
theorem not_inside_of_gapFree (grid : OnGrid time dt items) (hdt : 0 < dt)
    (hsize : size ≤ (items.filter keep).length)
    (gapFree : GapFree time dt ((items.filter keep).take size)) {dropped : Item}
    (hdropped : dropped ∈ items) (hnot : keep dropped = false) :
    itemsBefore time (items.filter keep) (time dropped) = [] ∨
      size ≤ (itemsBefore time (items.filter keep) (time dropped)).length := by
  by_contra hinside
  rw [not_or, not_le, ← List.length_eq_zero_iff] at hinside
  obtain ⟨hne, hlt⟩ := hinside
  have sorted := (grid.sorted hdt).filter keep
  obtain ⟨position, hposition⟩ := Nat.exists_eq_succ_of_ne_zero hne
  have hbound : position + 1 < ((items.filter keep).take size).length := by
    rw [List.length_take]
    omega
  have hstep := List.isChain_iff_getElem.mp gapFree position hbound
  simp only [List.getElem_take] at hstep
  have hfirst : position < (items.filter keep).length := by omega
  have hsecond : position + 1 < (items.filter keep).length := by omega
  have hearlier := (lt_length_itemsBefore_iff sorted (List.getElem?_eq_getElem hfirst)).mp
    (by omega : position < (itemsBefore time (items.filter keep) (time dropped)).length)
  have hlater : time dropped ≤ time (items.filter keep)[position + 1] := by
    apply not_lt.mp
    intro hbefore
    have := (lt_length_itemsBefore_iff sorted (List.getElem?_eq_getElem hsecond)).mpr hbefore
    omega
  have hkept := List.getElem_mem hsecond
  have hgrid := grid.step_le hdt (List.mem_filter.mp (List.getElem_mem hfirst)).1 hdropped hearlier
  exact kept_time_ne grid hdt hdropped hnot hkept (le_antisymm (hstep ▸ hgrid) hlater)

/-- Kept items without a dropped one inside are gap-free. -/
theorem gapFree_of_not_inside (grid : OnGrid time dt items) (hdt : 0 < dt)
    (hoff : ∀ dropped ∈ items, keep dropped = false →
      (∃ earlier ∈ items.filter keep, ∃ later ∈ items.filter keep,
        time earlier < time dropped ∧ time dropped < time later) →
      itemsBefore time (items.filter keep) (time dropped) = [] ∨
        size ≤ (itemsBefore time (items.filter keep) (time dropped)).length) :
    GapFree time dt ((items.filter keep).take size) := by
  apply List.isChain_iff_getElem.mpr
  intro position hbound
  simp only [List.getElem_take]
  rw [List.length_take] at hbound
  have sorted := (grid.sorted hdt).filter keep
  have hfirst : position < (items.filter keep).length := by omega
  have hsecond : position + 1 < (items.filter keep).length := by omega
  have hearlier := List.mem_filter.mp (List.getElem_mem hfirst)
  have hlater := List.mem_filter.mp (List.getElem_mem hsecond)
  have hlt := List.pairwise_iff_getElem.mp sorted position (position + 1) hfirst hsecond
    (Nat.lt_succ_self position)
  obtain ⟨next, hnext, htime⟩ := grid.exists_next hdt hearlier.1 hlater.1 hlt
  by_contra hgap
  have hstrict : time next < time (items.filter keep)[position + 1] := by
    rw [htime]
    exact lt_of_le_of_ne (grid.step_le hdt hearlier.1 hlater.1 hlt) (Ne.symm hgap)
  have hafter : time (items.filter keep)[position] < time next := by
    rw [htime]
    linarith
  have hnot : keep next = false := by
    by_contra hkeep
    have hmem : next ∈ items.filter keep := List.mem_filter.mpr ⟨hnext, by simpa using hkeep⟩
    obtain ⟨middle, hmiddle⟩ := List.mem_iff_getElem?.mp hmem
    have := position_lt_of_time_lt sorted (List.getElem?_eq_getElem hfirst) hmiddle hafter
    have := position_lt_of_time_lt sorted hmiddle (List.getElem?_eq_getElem hsecond) hstrict
    omega
  have hcount : position <
      (itemsBefore time (items.filter keep) (time next)).length :=
    (lt_length_itemsBefore_iff sorted (List.getElem?_eq_getElem hfirst)).mpr hafter
  have hmax : ¬ position + 1 <
      (itemsBefore time (items.filter keep) (time next)).length := by
    rw [lt_length_itemsBefore_iff sorted (List.getElem?_eq_getElem hsecond)]
    exact not_lt.mpr hstrict.le
  rcases hoff next hnext hnot ⟨_, List.getElem_mem hfirst, _, List.getElem_mem hsecond, hafter,
    hstrict⟩ with hnil | hlong
  · rw [hnil] at hcount
    exact absurd hcount (Nat.not_lt_zero _)
  · omega

end Kept

/-! ## Windows -/

def window (items : List Item) (start size : Nat) : List Item := (items.drop start).take size

theorem window_length {items : List Item} {start size : Nat}
    (hfits : start + size ≤ items.length) : (window items start size).length = size := by
  rw [window, List.length_take, List.length_drop]
  omega

theorem window_getElem? (items : List Item) (start size position : Nat) :
    (window items start size)[position]? =
      if position < size then items[start + position]? else none := by
  rw [window, List.getElem?_take]
  split
  · rw [List.getElem?_drop]
  · rfl

/-- A list all of whose windows of at least two items are gap-free has no gap. -/
theorem gapFree_iff_windows {items : List Item} {size : Nat} (hsize : 2 ≤ size)
    (hlong : size ≤ items.length) :
    (∀ start, start + size ≤ items.length → GapFree time dt (window items start size)) ↔
      GapFree time dt items := by
  constructor
  · intro hwindows
    apply List.isChain_iff_getElem.mpr
    intro position hbound
    have hfits : min position (items.length - size) + size ≤ items.length := by omega
    have hchain := List.isChain_iff_getElem.mp (hwindows _ hfits)
      (position - min position (items.length - size)) (by rw [window_length hfits]; omega)
    simp only [window, List.getElem_take, List.getElem_drop] at hchain
    have hposition : min position (items.length - size) +
        (position - min position (items.length - size)) = position := by omega
    have hnext : min position (items.length - size) +
        (position - min position (items.length - size) + 1) = position + 1 := by omega
    simpa only [hposition, hnext] using hchain
  · intro gapFree start _
    apply List.isChain_iff_getElem.mpr
    intro position hbound
    simp only [window, List.getElem_take, List.getElem_drop]
    exact List.isChain_iff_getElem.mp gapFree (start + position) _

/-- In a sorted list every item has one position. -/
theorem position_unique {items : List Item}
    (sorted : items.Pairwise fun earlier later => time earlier < time later)
    {first second : Nat} {item : Item} (hfirst : items[first]? = some item)
    (hsecond : items[second]? = some item) : first = second := by
  obtain ⟨hfirst', hitem⟩ := List.getElem?_eq_some_iff.mp hfirst
  obtain ⟨hsecond', hother⟩ := List.getElem?_eq_some_iff.mp hsecond
  have ordered := List.pairwise_iff_getElem.mp sorted
  rcases Nat.lt_trichotomy first second with hlt | heq | hgt
  · have := ordered first second hfirst' hsecond' hlt
    rw [hitem, hother] at this
    exact absurd this (lt_irrefl _)
  · exact heq
  · have := ordered second first hsecond' hfirst' hgt
    rw [hitem, hother] at this
    exact absurd this (lt_irrefl _)

/-- A gap-free list of items of a sorted list, whose items are at least one step apart, is a
stretch of that list. -/
theorem stretch_of_gapFree {items stretch : List Item} (hdt : 0 < dt)
    (sorted : items.Pairwise fun earlier later => time earlier < time later)
    (apart : ∀ earlier ∈ items, ∀ later ∈ items, time earlier < time later →
      time earlier + dt ≤ time later)
    (hmem : ∀ item ∈ stretch, item ∈ items) (gapFree : GapFree time dt stretch)
    {start : Nat} (hstart : items[start]? = stretch[0]?) :
    ∀ position < stretch.length, items[start + position]? = stretch[position]? := by
  intro position hposition
  induction position with
  | zero => exact hstart
  | succ position ih =>
      have hhere := ih (Nat.lt_of_succ_lt hposition)
      rw [List.getElem?_eq_getElem (Nat.lt_of_succ_lt hposition)] at hhere
      rw [List.getElem?_eq_getElem hposition]
      have hstep := List.isChain_iff_getElem.mp gapFree position hposition
      obtain ⟨found, hfound⟩ := List.mem_iff_getElem?.mp
        (hmem _ (List.getElem_mem hposition))
      have hafter := position_lt_of_time_lt sorted hhere hfound (by rw [hstep]; linarith)
      have hnext : start + position + 1 < items.length :=
        Nat.lt_of_le_of_lt hafter (List.getElem?_eq_some_iff.mp hfound).1
      have hget := List.getElem?_eq_getElem hnext
      obtain ⟨hlt, hitem⟩ := List.getElem?_eq_some_iff.mp hhere
      have hgrown := List.pairwise_iff_getElem.mp sorted (start + position)
        (start + position + 1) hlt hnext (Nat.lt_succ_self _)
      have hapart := apart _ (List.getElem_mem hlt) _ (List.getElem_mem hnext) hgrown
      rw [hitem, ← hstep] at hapart
      have hnot : ¬ start + position + 1 < found := by
        intro hbefore
        obtain ⟨hfound', hlast⟩ := List.getElem?_eq_some_iff.mp hfound
        have := List.pairwise_iff_getElem.mp sorted (start + position + 1) found hnext hfound'
          hbefore
        rw [hlast] at this
        exact absurd this (not_lt.mpr hapart)
      have hplace : found = start + (position + 1) := by omega
      rw [← hplace, hfound]

/-- Every gap-free list of that kind is exactly one window. -/
theorem existsUnique_window {items stretch : List Item} (hdt : 0 < dt)
    (sorted : items.Pairwise fun earlier later => time earlier < time later)
    (apart : ∀ earlier ∈ items, ∀ later ∈ items, time earlier < time later →
      time earlier + dt ≤ time later)
    (hmem : ∀ item ∈ stretch, item ∈ items) (gapFree : GapFree time dt stretch)
    (hne : stretch ≠ []) :
    ∃! start, start + stretch.length ≤ items.length ∧
      window items start stretch.length = stretch := by
  have hpos := List.length_pos_of_ne_nil hne
  have hfirst := List.getElem?_eq_getElem hpos
  obtain ⟨start, hstart⟩ := List.mem_iff_getElem?.mp (hmem _ (List.getElem_mem hpos))
  have hplaces := stretch_of_gapFree hdt sorted apart hmem gapFree (hstart.trans hfirst.symm)
  have hfits : start + stretch.length ≤ items.length := by
    have hlast := hplaces (stretch.length - 1) (by omega)
    rw [List.getElem?_eq_getElem (by omega : stretch.length - 1 < stretch.length)] at hlast
    have := (List.getElem?_eq_some_iff.mp hlast).1
    omega
  refine ⟨start, ⟨hfits, ?_⟩, ?_⟩
  · apply List.ext_getElem?
    intro position
    rw [window_getElem?]
    split
    next hinside => exact hplaces position hinside
    next houtside => exact (List.getElem?_eq_none (not_lt.mp houtside)).symm
  · rintro other ⟨-, hwindow⟩
    have hhead : items[other]? = stretch[0]? := by
      rw [← hwindow, window_getElem?, if_pos hpos, Nat.add_zero]
    exact position_unique sorted (hhead.trans hfirst) hstart

end DeepcV2x.Foundation.Grids
