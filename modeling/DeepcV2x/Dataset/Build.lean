import DeepcV2x.Foundation.Strings
import Mathlib.Algebra.BigOperators.Group.List.Basic
import Mathlib.Algebra.Order.Field.Rat
import Mathlib.Data.List.Sort
import Mathlib.Data.Rat.Floor

/-!
# Building the Hankel data set

The script that turns the KPI log of an open-loop run into the normalized
blocks of the controller: filtering, dropping of incomplete rows, sorting,
splitting, scaling and windowing, in the order of `main`.
-/

namespace DeepcV2x.Dataset

open DeepcV2x.Foundation.Strings

/-! ## Tables -/

/-- A cell of a column of floats. -/
inductive Cell
  | finite (value : ℚ)
  | nan
  | posInf
  | negInf
  deriving DecidableEq, Repr

def Cell.isFinite : Cell → Bool
  | .finite _ => true
  | _ => false

/-- The number in a cell that is finite. -/
def Cell.value : Cell → ℚ
  | .finite value => value
  | _ => 0

/-- A row of the log: its time and the cells of the other columns. -/
structure Row where
  timeS : ℚ
  cells : Text → Cell

structure Frame where
  columns : List Text
  rows : List Row

/-- A row without missing values. -/
structure CleanRow where
  timeS : ℚ
  values : Text → ℚ

/-! ## Arguments -/

structure Metadata where
  evaluationStartS : Option ℚ
  warmupS : Option ℚ
  evaluationEndS : Option ℚ

structure BuildArgs where
  inputCols : List Text
  outputCols : List Text
  contextCols : List Text
  warmup : Option ℚ
  evalEnd : Option ℚ
  trainFrac : ℚ
  valFrac : ℚ
  pastHorizon : Nat
  futureHorizon : Nat

namespace BuildArgs

def allModelCols (args : BuildArgs) : List Text :=
  args.inputCols ++ args.outputCols ++ args.contextCols

/-- The start of the evaluation: the argument, else the metadata, else zero. -/
def warmupCutoff (args : BuildArgs) (metadata : Metadata) : ℚ :=
  args.warmup.getD (metadata.evaluationStartS.getD (metadata.warmupS.getD 0))

/-- The end of the evaluation, if there is one. -/
def evalEndCutoff (args : BuildArgs) (metadata : Metadata) : Option ℚ :=
  args.evalEnd.or metadata.evaluationEndS

def total (args : BuildArgs) : Nat := args.pastHorizon + args.futureHorizon

end BuildArgs

/-! ## Errors -/

inductive BuildError
  | missingColumns (missing : List Text)
  | columnNotUnique
  | valueError (message : Text)
  deriving DecidableEq, Repr

def check (passes : Bool) (message : Text) : Except BuildError Unit :=
  if passes then .ok () else .error (.valueError message)

/-! ## Cleaning -/

def timeCol : Text := "time_s".toList
def prrCol : Text := "prr_awareness".toList
def prr150Col : Text := "prr_150m".toList
def cbrCol : Text := "cbr".toList
def beaconIntervalCol : Text := "beacon_interval_s".toList

/-- Older logs name the PRR column after its radius. -/
def addPrrAwareness (raw : Frame) : Frame :=
  if prrCol ∉ raw.columns ∧ prr150Col ∈ raw.columns then
    { columns := raw.columns ++ [prrCol]
      rows := raw.rows.map fun row =>
        { row with cells := Function.update row.cells prrCol (row.cells prr150Col) } }
  else raw

def requireColumns (frame : Frame) (columns : List Text) : Except BuildError Unit :=
  match columns.filter (· ∉ frame.columns) with
  | [] => .ok ()
  | missing => .error (.missingColumns missing)

/-- A row inside the evaluation interval. -/
def inInterval (warmup : ℚ) (evalEnd : Option ℚ) (row : Row) : Bool :=
  decide (warmup ≤ row.timeS) && evalEnd.all fun bound => decide (row.timeS ≤ bound)

/-- A row that `dropna` keeps. -/
def complete (columns : List Text) (row : Row) : Bool :=
  columns.all fun column => (row.cells column).isFinite

def Row.clean (row : Row) : CleanRow := ⟨row.timeS, fun column => (row.cells column).value⟩

/-- `sort_values("time_s")`. -/
def sortValues (rows : List CleanRow) : List CleanRow :=
  rows.mergeSort fun left right => decide (left.timeS ≤ right.timeS)

def cleanRows (warmup : ℚ) (evalEnd : Option ℚ) (columns : List Text) (raw : Frame) :
    List CleanRow :=
  sortValues (((raw.rows.filter (inInterval warmup evalEnd)).filter (complete columns)).map
    Row.clean)

/-- A ratio column stays in the unit interval. -/
def inUnitInterval (columns : List Text) (rows : List CleanRow) (column : Text) : Bool :=
  column ∉ columns || rows.all fun row => 0 ≤ row.values column && row.values column ≤ 1

def positive (columns : List Text) (rows : List CleanRow) (column : Text) : Bool :=
  column ∉ columns || rows.all fun row => 0 < row.values column

/-! ## Splitting -/

structure Split where
  train : List CleanRow
  val : List CleanRow
  test : List CleanRow

def splitTimeOrdered (rows : List CleanRow) (trainFrac valFrac : ℚ) :
    Except BuildError Split := do
  check (0 < trainFrac && trainFrac < 1) "--train-frac must be in (0, 1)".toList
  check (0 ≤ valFrac && valFrac < 1) "--val-frac must be in [0, 1)".toList
  check (trainFrac + valFrac < 1) "--train-frac + --val-frac must be less than 1".toList
  let n := rows.length
  let trainEnd := ⌊n * trainFrac⌋₊
  let valEnd := ⌊n * (trainFrac + valFrac)⌋₊
  check (0 < trainEnd && trainEnd < valEnd && valEnd < n)
    "Dataset split produced an empty train, validation, or test set".toList
  return {
    train := rows.take trainEnd
    val := (rows.take valEnd).drop trainEnd
    test := rows.drop valEnd }

/-! ## Scaling -/

structure Scaler where
  mean : Text → ℚ
  std : Text → ℚ

def mean (values : List ℚ) : ℚ := values.sum / values.length

/-- `std(ddof=0)`, with the square root of the array library. -/
def standardDeviation (sqrt : ℚ → ℚ) (values : List ℚ) : ℚ :=
  sqrt (mean (values.map fun value => (value - mean values) ^ 2))

/-- The scaler of the training rows; a vanishing deviation is replaced by one. -/
def fitScaler (sqrt : ℚ → ℚ) (train : List CleanRow) : Scaler where
  mean column := mean (train.map fun row => row.values column)
  std column :=
    let deviation := standardDeviation sqrt (train.map fun row => row.values column)
    if |deviation| < 1 / 1000000000000 then 1 else deviation

def Scaler.normalizeRow (scaler : Scaler) (row : CleanRow) : CleanRow :=
  { row with values := fun column => (row.values column - scaler.mean column) / scaler.std column }

def normalize (rows : List CleanRow) (scaler : Scaler) : List CleanRow :=
  rows.map scaler.normalizeRow

/-! ## Windows -/

/-- `df[columns].to_numpy()`. -/
def toNumpy (rows : List CleanRow) (columns : List Text) : List (List ℚ) :=
  rows.map fun row => columns.map row.values

def windowMatrix (values : List (List ℚ)) (start length : Nat) : List ℚ :=
  ((values.drop start).take length).flatten

/-- The blocks, each as the list of its columns. -/
structure HankelBlocks where
  uP : List (List ℚ)
  uF : List (List ℚ)
  yP : List (List ℚ)
  yF : List (List ℚ)
  windowStartTimeS : List ℚ
  dP : Option (List (List ℚ))
  dF : Option (List (List ℚ))

def needRowsMessage (total rows : Nat) : Text :=
  "Need more than ".toList ++ Nat.toDigits 10 total ++
    " rows to build Hankel windows; got ".toList ++ Nat.toDigits 10 rows ++ " rows".toList

def buildHankelBlocks (rows : List CleanRow) (inputCols outputCols contextCols : List Text)
    (pastHorizon futureHorizon : Nat) : Except BuildError HankelBlocks := do
  let total := pastHorizon + futureHorizon
  check (total ≤ rows.length) (needRowsMessage total rows.length)
  let starts := List.range (rows.length + 1 - total)
  let u := toNumpy rows inputCols
  let y := toNumpy rows outputCols
  let d := toNumpy rows contextCols
  return {
    uP := starts.map fun i => windowMatrix u i pastHorizon
    uF := starts.map fun i => windowMatrix u (i + pastHorizon) futureHorizon
    yP := starts.map fun i => windowMatrix y i pastHorizon
    yF := starts.map fun i => windowMatrix y (i + pastHorizon) futureHorizon
    windowStartTimeS := starts.filterMap fun i => (rows[i]?).map CleanRow.timeS
    dP := if contextCols = [] then none
      else some (starts.map fun i => windowMatrix d i pastHorizon)
    dF := if contextCols = [] then none
      else some (starts.map fun i => windowMatrix d (i + pastHorizon) futureHorizon) }

/-! ## The script -/

structure HankelDataset where
  split : Split
  scaler : Scaler
  trainNorm : List CleanRow
  hankel : HankelBlocks

/-- `main`, up to the files it writes.  A repeated column label ends it, at the sort or at the
scaler. -/
def buildDataset (sqrt : ℚ → ℚ) (args : BuildArgs) (metadata : Metadata) (log : Frame) :
    Except BuildError HankelDataset := do
  let raw := addPrrAwareness log
  requireColumns raw (timeCol :: args.allModelCols)
  if (timeCol :: args.allModelCols).Nodup then
    let columns := args.allModelCols
    let clean := cleanRows (args.warmupCutoff metadata) (args.evalEndCutoff metadata) columns raw
    check (!clean.isEmpty) "No rows remain after filtering and dropping NaNs".toList
    check (inUnitInterval columns clean cbrCol) "CBR values must be in [0, 1]".toList
    check (inUnitInterval columns clean prrCol) "PRR values must be in [0, 1]".toList
    check (positive columns clean beaconIntervalCol) "Beacon interval must be positive".toList
    let split ← splitTimeOrdered clean args.trainFrac args.valFrac
    let scaler := fitScaler sqrt split.train
    let trainNorm := normalize split.train scaler
    let hankel ← buildHankelBlocks trainNorm args.inputCols args.outputCols args.contextCols
      args.pastHorizon args.futureHorizon
    return { split := split, scaler := scaler, trainNorm := trainNorm, hankel := hankel }
  else throw .columnNotUnique

end DeepcV2x.Dataset
