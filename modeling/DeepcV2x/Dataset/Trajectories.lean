import DeepcV2x.Dataset.Build
import DeepcV2x.Foundation.Grids
import Mathlib.Data.List.Chain

/-!
# The columns of the blocks

Every column holds consecutive training rows.  They are a stretch of the
recorded trajectory as long as no incomplete row was dropped between two
training rows.
-/

namespace DeepcV2x.Dataset

open DeepcV2x.Foundation.Strings DeepcV2x.Foundation.Grids

/-! ## Runs of the script -/

theorem check_bind_ok {Result : Type} {passes : Bool} {message : Text}
    {rest : Unit → Except BuildError Result} {result : Result}
    (hok : (check passes message >>= rest) = .ok result) : passes = true ∧ rest () = .ok result := by
  cases passes with
  | true => exact ⟨rfl, hok⟩
  | false => cases hok

theorem bind_ok {Middle Result : Type} {first : Except BuildError Middle}
    {rest : Middle → Except BuildError Result} {result : Result}
    (hok : (first >>= rest) = .ok result) : ∃ middle, first = .ok middle ∧ rest middle = .ok result := by
  cases first with
  | error problem => cases hok
  | ok middle => exact ⟨middle, rfl, hok⟩

theorem splitTimeOrdered_ok {rows : List CleanRow} {trainFrac valFrac : ℚ} {split : Split}
    (hok : splitTimeOrdered rows trainFrac valFrac = .ok split) :
    ∃ valEnd, ⌊rows.length * trainFrac⌋₊ < valEnd ∧ valEnd < rows.length ∧
      split = ⟨rows.take ⌊rows.length * trainFrac⌋₊,
        (rows.take valEnd).drop ⌊rows.length * trainFrac⌋₊, rows.drop valEnd⟩ := by
  rw [splitTimeOrdered] at hok
  obtain ⟨-, hok⟩ := check_bind_ok hok
  obtain ⟨-, hok⟩ := check_bind_ok hok
  obtain ⟨-, hok⟩ := check_bind_ok hok
  obtain ⟨hends, hok⟩ := check_bind_ok hok
  simp only [Bool.and_eq_true, decide_eq_true_eq] at hends
  exact ⟨_, hends.1.2, hends.2, (Except.ok.inj hok).symm⟩

section Windows

variable {rows : List CleanRow} {pastHorizon futureHorizon : Nat}

/-- The values of some rows, row after row. -/
def flatRows (columns : List Text) (rows : List CleanRow) : List ℚ :=
  rows.flatMap fun row => columns.map row.values

theorem windowMatrix_toNumpy (columns : List Text) (start length : Nat) :
    windowMatrix (toNumpy rows columns) start length =
      flatRows columns (window rows start length) := by
  rw [windowMatrix, toNumpy, ← List.map_drop, ← List.map_take, flatRows, window,
    List.flatMap_def]

/-- Column `j` of a block of windows that start at an offset. -/
theorem range_windows (columns : List Text) {count j : Nat} (hj : j < count)
    (offset length : Nat) :
    ((List.range count).map fun i =>
        windowMatrix (toNumpy rows columns) (i + offset) length)[j]? =
      some (flatRows columns (window rows (j + offset) length)) := by
  rw [List.getElem?_map, List.getElem?_range hj, Option.map_some, windowMatrix_toNumpy]

/-- A block that is there was built. -/
theorem some_of_ite {Block : Type} {absent : Prop} [Decidable absent] {built block : Block}
    (hblock : (if absent then none else some built) = some block) : built = block := by
  split at hblock
  · cases hblock
  · exact Option.some.inj hblock

end Windows

/-! ## Trajectories -/

section Run

variable {args : BuildArgs} {metadata : Metadata} {log : Frame} {sqrt : ℚ → ℚ}

/-- A row that reaches the data set. -/
def kept (args : BuildArgs) (metadata : Metadata) (row : Row) : Bool :=
  complete args.allModelCols row &&
    inInterval (args.warmupCutoff metadata) (args.evalEndCutoff metadata) row

def keptRows (args : BuildArgs) (metadata : Metadata) (log : Frame) : List Row :=
  (addPrrAwareness log).rows.filter (kept args metadata)

def columnCount (args : BuildArgs) (data : HankelDataset) : Nat :=
  data.split.train.length + 1 - args.total

/-- Column `j` of every block holds its rows of the normalized training split. -/
structure HoldsRows (args : BuildArgs) (data : HankelDataset) (j : Nat) : Prop where
  uP : data.hankel.uP[j]? = some (flatRows args.inputCols (window data.trainNorm j args.pastHorizon))
  uF : data.hankel.uF[j]? = some (flatRows args.inputCols
    (window data.trainNorm (j + args.pastHorizon) args.futureHorizon))
  yP : data.hankel.yP[j]? =
    some (flatRows args.outputCols (window data.trainNorm j args.pastHorizon))
  yF : data.hankel.yF[j]? = some (flatRows args.outputCols
    (window data.trainNorm (j + args.pastHorizon) args.futureHorizon))
  dP : ∀ block, data.hankel.dP = some block → block[j]? =
    some (flatRows args.contextCols (window data.trainNorm j args.pastHorizon))
  dF : ∀ block, data.hankel.dF = some block → block[j]? = some (flatRows args.contextCols
    (window data.trainNorm (j + args.pastHorizon) args.futureHorizon))

/-- The blocks have one column for every window of the training split. -/
structure HoldsWindows (args : BuildArgs) (data : HankelDataset) : Prop where
  normalized : data.trainNorm = data.split.train.map data.scaler.normalizeRow
  inputs : data.hankel.uP.length = columnCount args data ∧
    data.hankel.uF.length = columnCount args data
  outputs : data.hankel.yP.length = columnCount args data ∧
    data.hankel.yF.length = columnCount args data
  contexts : (∀ block, data.hankel.dP = some block → block.length = columnCount args data) ∧
    ∀ block, data.hankel.dF = some block → block.length = columnCount args data
  holds : ∀ j < columnCount args data, HoldsRows args data j

/-- The columns are the gap-free stretches of the training split, each exactly once, and end
before the other splits begin. -/
structure Trajectories (dt : ℚ) (args : BuildArgs) (data : HankelDataset) : Prop where
  windows : HoldsWindows args data
  rowCount : ∀ j < columnCount args data,
    (window data.split.train j args.total).length = args.total
  consecutive : ∀ j < columnCount args data,
    GapFree CleanRow.timeS dt (window data.split.train j args.total)
  separate : ∀ j < columnCount args data, ∀ row ∈ window data.split.train j args.total,
    ∀ other ∈ data.split.val ++ data.split.test, row.timeS < other.timeS
  exhaustive : ∀ stretch, (∀ row ∈ stretch, row ∈ data.split.train) →
    stretch.length = args.total → GapFree CleanRow.timeS dt stretch →
    ∃! j, j < columnCount args data ∧ window data.split.train j args.total = stretch

/-- The rows of the log are samples at a regular distance, in any order. -/
def Sampled (dt : ℚ) (log : Frame) : Prop :=
  ∃ ordered, log.rows.Perm ordered ∧ OnGrid Row.timeS dt ordered

/-- No incomplete row of the evaluation interval lies between two training rows. -/
def NoInnerDrop (args : BuildArgs) (metadata : Metadata) (log : Frame) : Prop :=
  ∀ row ∈ (addPrrAwareness log).rows,
    inInterval (args.warmupCutoff metadata) (args.evalEndCutoff metadata) row = true →
    complete args.allModelCols row = false →
    itemsBefore Row.timeS (keptRows args metadata log) row.timeS = [] ∨
      ⌊(keptRows args metadata log).length * args.trainFrac⌋₊ ≤
        (itemsBefore Row.timeS (keptRows args metadata log) row.timeS).length

instance : Decidable (NoInnerDrop args metadata log) :=
  List.decidableBAll _ (addPrrAwareness log).rows

/-- What a run of the script that ends well has computed. -/
theorem buildDataset_ok {data : HankelDataset}
    (hok : buildDataset sqrt args metadata log = .ok data) :
    splitTimeOrdered (sortValues ((keptRows args metadata log).map Row.clean)) args.trainFrac
        args.valFrac = .ok data.split ∧
      args.total ≤ data.split.train.length ∧ HoldsWindows args data := by
  rw [buildDataset] at hok
  obtain ⟨-, -, hok⟩ := bind_ok hok
  split at hok
  next =>
    obtain ⟨-, hok⟩ := check_bind_ok hok
    obtain ⟨-, hok⟩ := check_bind_ok hok
    obtain ⟨-, hok⟩ := check_bind_ok hok
    obtain ⟨-, hok⟩ := check_bind_ok hok
    obtain ⟨split, hsplit, hok⟩ := bind_ok hok
    obtain ⟨hankel, hblocks, hok⟩ := bind_ok hok
    obtain rfl := Except.ok.inj hok
    rw [buildHankelBlocks] at hblocks
    obtain ⟨hlong, hblocks⟩ := check_bind_ok hblocks
    obtain rfl := Except.ok.inj hblocks
    have hlength : (normalize split.train (fitScaler sqrt split.train)).length =
        split.train.length := List.length_map _
    rw [hlength] at hlong
    have hclean : cleanRows (args.warmupCutoff metadata) (args.evalEndCutoff metadata)
        args.allModelCols (addPrrAwareness log) =
          sortValues ((keptRows args metadata log).map Row.clean) := by
      rw [cleanRows, List.filter_filter]
      rfl
    rw [hclean] at hsplit
    refine ⟨hsplit, of_decide_eq_true hlong, rfl, ?_, ?_, ?_, ?_⟩
    · simp only [List.length_map, List.length_range, hlength]
      exact ⟨rfl, rfl⟩
    · simp only [List.length_map, List.length_range, hlength]
      exact ⟨rfl, rfl⟩
    · constructor
      · intro block hblock
        rw [← some_of_ite hblock, List.length_map, List.length_range, hlength]
        rfl
      · intro block hblock
        rw [← some_of_ite hblock, List.length_map, List.length_range, hlength]
        rfl
    · intro j hj
      have hcount : j < (normalize split.train (fitScaler sqrt split.train)).length + 1 -
          (args.pastHorizon + args.futureHorizon) := by
        rw [hlength]
        exact hj
      refine ⟨range_windows _ hcount 0 _, range_windows _ hcount _ _, range_windows _ hcount 0 _,
        range_windows _ hcount _ _, ?_, ?_⟩
      · intro block hblock
        rw [← some_of_ite hblock]
        exact range_windows _ hcount 0 _
      · intro block hblock
        rw [← some_of_ite hblock]
        exact range_windows _ hcount _ _
  next => cases hok

/-! ## The order of the rows -/

theorem addPrrAwareness_sampled {dt : ℚ} (sampled : Sampled dt log) :
    Sampled dt (addPrrAwareness log) := by
  obtain ⟨ordered, hperm, start, htime⟩ := sampled
  rw [addPrrAwareness]
  split
  · refine ⟨_, hperm.map _, start, ?_⟩
    intro position row hget
    rw [List.getElem?_map] at hget
    obtain ⟨source, hsource, rfl⟩ := Option.map_eq_some_iff.mp hget
    exact htime position source hsource
  · exact ⟨ordered, hperm, start, htime⟩

/-- Sorting puts rows with distinct times into their only order. -/
theorem sortValues_eq {rows ordered : List CleanRow} (hperm : rows.Perm ordered)
    (sorted : ordered.Pairwise fun earlier later => earlier.timeS < later.timeS) :
    sortValues rows = ordered := by
  have hsorted : (sortValues rows).Pairwise fun earlier later => earlier.timeS ≤ later.timeS := by
    apply List.Pairwise.imp (fun {_ _} hle => of_decide_eq_true hle)
    apply List.pairwise_mergeSort
    · intro first second third hfirst hsecond
      exact decide_eq_true ((of_decide_eq_true hfirst).trans (of_decide_eq_true hsecond))
    · intro first second
      rw [Bool.or_eq_true, decide_eq_true_eq, decide_eq_true_eq]
      exact le_total _ _
  have hordered : (sortValues rows).Perm ordered := (List.mergeSort_perm _ _).trans hperm
  apply hordered.eq_of_pairwise ?_ hsorted (sorted.imp fun hlt => hlt.le)
  intro first second hfirst hsecond hle hge
  exact item_of_time sorted (hordered.mem_iff.mp hfirst) hsecond (le_antisymm hle hge)

/-- The clean rows are the kept rows of the ordered log. -/
theorem cleanRows_eq {dt : ℚ} (hdt : 0 < dt) {ordered : List Row}
    (hperm : (addPrrAwareness log).rows.Perm ordered) (grid : OnGrid Row.timeS dt ordered) :
    sortValues ((keptRows args metadata log).map Row.clean) =
      (ordered.filter (kept args metadata)).map Row.clean := by
  apply sortValues_eq
  · exact (hperm.filter _).map _
  · exact List.pairwise_map.mpr ((grid.sorted hdt).filter _)

theorem inInterval_between {earlier row later : Row} {warmup : ℚ} {evalEnd : Option ℚ}
    (hearlier : inInterval warmup evalEnd earlier = true)
    (hlater : inInterval warmup evalEnd later = true) (hafter : earlier.timeS < row.timeS)
    (hbefore : row.timeS < later.timeS) : inInterval warmup evalEnd row = true := by
  rw [inInterval, Bool.and_eq_true, decide_eq_true_eq] at hearlier hlater ⊢
  refine ⟨hearlier.1.trans hafter.le, ?_⟩
  cases evalEnd with
  | none => rfl
  | some bound => exact decide_eq_true (hbefore.le.trans (of_decide_eq_true hlater.2))

/-- The training rows are gap-free unless an incomplete row was dropped between them. -/
theorem noInnerDrop_iff_gapFree {dt : ℚ} (hdt : 0 < dt) {ordered : List Row}
    (hperm : (addPrrAwareness log).rows.Perm ordered) (grid : OnGrid Row.timeS dt ordered)
    (hsize : ⌊(keptRows args metadata log).length * args.trainFrac⌋₊ ≤
      (ordered.filter (kept args metadata)).length) :
    NoInnerDrop args metadata log ↔
      GapFree Row.timeS dt ((ordered.filter (kept args metadata)).take
        ⌊(keptRows args metadata log).length * args.trainFrac⌋₊) := by
  have hbefore : ∀ bound, (itemsBefore Row.timeS (keptRows args metadata log) bound).Perm
      (itemsBefore Row.timeS (ordered.filter (kept args metadata)) bound) := fun bound =>
    (hperm.filter _).filter _
  constructor
  · intro noDrop
    apply gapFree_of_not_inside grid hdt
    rintro dropped hdropped hnot ⟨earlier, hearlier, later, hlater, hafter, hlate⟩
    have hinside := inInterval_between (Bool.and_eq_true_iff.mp (List.mem_filter.mp hearlier).2).2
      (Bool.and_eq_true_iff.mp (List.mem_filter.mp hlater).2).2 hafter hlate
    rw [kept, hinside, Bool.and_true] at hnot
    rcases noDrop dropped (hperm.mem_iff.mpr hdropped) hinside hnot with hnil | hlong
    · left
      exact List.Perm.nil_eq (hnil ▸ hbefore dropped.timeS) |>.symm
    · right
      rwa [← (hbefore dropped.timeS).length_eq]
  · intro gapFree row hmem _ hnot
    have hdropped : kept args metadata row = false := by
      rw [kept, hnot, Bool.false_and]
    rcases not_inside_of_gapFree grid hdt hsize gapFree (hperm.mem_iff.mp hmem) hdropped with
      hnil | hlong
    · left
      exact List.Perm.eq_nil (hnil ▸ hbefore row.timeS)
    · right
      rwa [(hbefore row.timeS).length_eq]

/-- The training rows come before the rows of the other splits. -/
theorem splits_ordered {rows : List CleanRow} {trainEnd valEnd : Nat}
    (sorted : rows.Pairwise fun earlier later => earlier.timeS < later.timeS)
    (hends : trainEnd ≤ valEnd) {row other : CleanRow} (hrow : row ∈ rows.take trainEnd)
    (hother : other ∈ (rows.take valEnd).drop trainEnd ++ rows.drop valEnd) :
    row.timeS < other.timeS := by
  rw [← List.take_append_drop trainEnd rows] at sorted
  apply (List.pairwise_append.mp sorted).2.2 row hrow
  rcases List.mem_append.mp hother with hval | htest
  · rw [List.drop_take] at hval
    exact List.mem_of_mem_take hval
  · exact (List.drop_sublist_drop_left rows hends).subset htest

/-- The training split is the beginning of the kept rows, in the order of the samples. -/
theorem train_eq {dt : ℚ} (hdt : 0 < dt) {ordered : List Row}
    (hperm : (addPrrAwareness log).rows.Perm ordered) (grid : OnGrid Row.timeS dt ordered)
    {data : HankelDataset} (hok : buildDataset sqrt args metadata log = .ok data) :
    ⌊(keptRows args metadata log).length * args.trainFrac⌋₊ ≤
        (ordered.filter (kept args metadata)).length ∧
      data.split.train = ((ordered.filter (kept args metadata)).take
        ⌊(keptRows args metadata log).length * args.trainFrac⌋₊).map Row.clean ∧
      ∀ row ∈ data.split.train, ∀ other ∈ data.split.val ++ data.split.test,
        row.timeS < other.timeS := by
  obtain ⟨hsplit, -, -⟩ := buildDataset_ok hok
  rw [cleanRows_eq hdt hperm grid] at hsplit
  obtain ⟨valEnd, hval, htest, hparts⟩ := splitTimeOrdered_ok hsplit
  have hlength : ((ordered.filter (kept args metadata)).map Row.clean).length =
      (keptRows args metadata log).length := by
    rw [List.length_map]
    exact (hperm.filter _).length_eq.symm
  refine ⟨?_, ?_, ?_⟩
  · rw [hlength] at hval
    rw [List.length_map] at htest
    omega
  · rw [hparts, hlength, List.map_take]
  · rw [hparts]
    intro row hrow other hother
    exact splits_ordered (List.pairwise_map.mpr ((grid.sorted hdt).filter _)) hval.le hrow hother

theorem gapFree_train_iff {dt : ℚ} (hdt : 0 < dt) (sampled : Sampled dt log)
    {data : HankelDataset} (hok : buildDataset sqrt args metadata log = .ok data) :
    GapFree CleanRow.timeS dt data.split.train ↔ NoInnerDrop args metadata log := by
  obtain ⟨ordered, hperm, grid⟩ := addPrrAwareness_sampled sampled
  obtain ⟨hsize, htrain, -⟩ := train_eq hdt hperm grid hok
  rw [noInnerDrop_iff_gapFree hdt hperm grid hsize, htrain, GapFree, List.isChain_map]
  rfl

theorem lt_columnCount_iff {data : HankelDataset} {j : Nat} :
    j < columnCount args data ↔ j + args.total ≤ data.split.train.length := by
  rw [columnCount]
  omega

/-- All columns are gap-free exactly when the training split is. -/
theorem gapFree_columns_iff {dt : ℚ} (hpast : 1 ≤ args.pastHorizon)
    (hfuture : 1 ≤ args.futureHorizon) {data : HankelDataset}
    (hok : buildDataset sqrt args metadata log = .ok data) :
    (∀ j < columnCount args data,
        GapFree CleanRow.timeS dt (window data.split.train j args.total)) ↔
      GapFree CleanRow.timeS dt data.split.train := by
  have htotal : 2 ≤ args.total := Nat.add_le_add hpast hfuture
  rw [← gapFree_iff_windows htotal (buildDataset_ok hok).2.1]
  simp only [lt_columnCount_iff]

end Run

/-! ## A log of six rows -/

/-- A row every half second; one of them lacks its values. -/
def sixRows (missing : Nat) : Frame where
  columns := [timeCol, "tx_power_dbm".toList, prrCol, cbrCol]
  rows := (List.range 6).map fun k : Nat =>
    { timeS := k * (1 / 2), cells := fun _ => if k = missing then .nan else .finite 1 }

def sixRowsArgs : BuildArgs where
  inputCols := ["tx_power_dbm".toList]
  outputCols := [prrCol, cbrCol]
  contextCols := []
  warmup := none
  evalEnd := none
  trainFrac := 3 / 5
  valFrac := 1 / 5
  pastHorizon := 1
  futureHorizon := 1

def noMetadata : Metadata := ⟨none, none, none⟩

theorem sixRows_sampled (missing : Nat) : Sampled (1 / 2) (sixRows missing) := by
  refine ⟨_, List.Perm.refl _, 0, ?_⟩
  intro position row hget
  rw [sixRows, List.getElem?_map] at hget
  obtain ⟨k, hk, rfl⟩ := Option.map_eq_some_iff.mp hget
  obtain ⟨hlt, hvalue⟩ := List.getElem?_eq_some_iff.mp hk
  rw [List.getElem_range] at hvalue
  rw [hvalue, zero_add]

/-- Rows in order of time are not moved by the sort. -/
theorem cleanRows_of_sorted {warmup : ℚ} {evalEnd : Option ℚ} {columns : List Text} {raw : Frame}
    (sorted : raw.rows.Pairwise fun earlier later => earlier.timeS ≤ later.timeS) :
    cleanRows warmup evalEnd columns raw =
      ((raw.rows.filter (inInterval warmup evalEnd)).filter (complete columns)).map Row.clean := by
  apply List.mergeSort_of_pairwise
  apply List.pairwise_map.mpr
  exact ((sorted.filter _).filter _).imp fun hle => decide_eq_true hle

theorem sixRows_builds {missing : Nat} (hmissing : missing = 0 ∨ missing = 1) :
    ∃ data, buildDataset id sixRowsArgs noMetadata (sixRows missing) = .ok data := by
  have hruns : (buildDataset id sixRowsArgs noMetadata (sixRows missing)).toBool = true := by
    simp only [buildDataset]
    rw [cleanRows_of_sorted]
    · rcases hmissing with rfl | rfl <;> decide +kernel
    · rcases hmissing with rfl | rfl <;> decide +kernel
  cases hbuild : buildDataset id sixRowsArgs noMetadata (sixRows missing) with
  | error problem =>
      rw [hbuild] at hruns
      cases hruns
  | ok data => exact ⟨data, rfl⟩

end DeepcV2x.Dataset
