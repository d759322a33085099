import DeepcV2x.Controller.Request
import Mathlib.Algebra.Order.Field.Rat
import Mathlib.Data.Matrix.Mul
import Mathlib.Logic.Equiv.Fin.Basic

/-!
# The Tx-power controller

`TxPowerDeepc.solve` over exact rationals.  The quadratic program itself is
solved by an external library, so what its call does is an arbitrary outcome;
the plan, the residuals, the acceptance test and the response are computed as
in the controller.
-/

namespace DeepcV2x.Controller

open DeepcV2x.Foundation.Strings DeepcV2x.Foundation.Json

/-! ## Data of the controller -/

/-- Columns of the Hankel blocks. -/
def hankelColumns : Nat := 307

instance : NeZero horizon := ⟨by decide⟩

/-- The normalized blocks, with the shapes that are checked when they are loaded. -/
structure Hankel where
  up : Matrix (Fin tini) (Fin hankelColumns) ℚ
  uf : Matrix (Fin horizon) (Fin hankelColumns) ℚ
  yp : Matrix (Fin (tini * 3)) (Fin hankelColumns) ℚ
  yf : Matrix (Fin (horizon * 3)) (Fin hankelColumns) ℚ
  dp : Matrix (Fin (tini * 2)) (Fin hankelColumns) ℚ
  df : Matrix (Fin (horizon * 2)) (Fin hankelColumns) ℚ

/-- Means and standard deviations; the dataset builder replaces deviations near zero by 1. -/
structure Scaler where
  uMean : ℚ
  uStd : ℚ
  yMean : Fin 3 → ℚ
  yStd : Fin 3 → ℚ
  dMean : Fin 2 → ℚ
  dStd : Fin 2 → ℚ
  uStd_ne : uStd ≠ 0
  yStd_ne : ∀ i, yStd i ≠ 0
  dStd_ne : ∀ i, dStd i ≠ 0

/-- The arguments that the acceptance test reads. -/
structure Args where
  minPower : ℚ
  maxPower : ℚ
  residualTolerance : ℚ
  deriving DecidableEq, Repr

structure TxPowerDeepc where
  args : Args
  hankel : Hankel
  scaler : Scaler

/-- Position of a flat index in rows of `width`. -/
def column {rows width : Nat} (index : Fin (rows * width)) : Fin width := index.modNat

namespace TxPowerDeepc

variable (controller : TxPowerDeepc)

def normalizePower (values : Fin tini → ℚ) : Fin tini → ℚ :=
  fun i => (values i - controller.scaler.uMean) / controller.scaler.uStd

def denormalizePower (values : Fin horizon → ℚ) : Fin horizon → ℚ :=
  fun i => values i * controller.scaler.uStd + controller.scaler.uMean

def normalizeOutputs (values : Fin (tini * 3) → ℚ) : Fin (tini * 3) → ℚ :=
  fun i => (values i - controller.scaler.yMean (column i)) / controller.scaler.yStd (column i)

def denormalizeOutputs (values : Fin (horizon * 3) → ℚ) : Fin horizon → Fin 3 → ℚ :=
  fun row i => values (finProdFinEquiv (row, i)) * controller.scaler.yStd i +
    controller.scaler.yMean i

def normalizeContext {rows : Nat} (values : Fin (rows * 2) → ℚ) : Fin (rows * 2) → ℚ :=
  fun i => (values i - controller.scaler.dMean (column i)) / controller.scaler.dStd (column i)

end TxPowerDeepc

def fixedBeaconIntervalS : ℚ := 1 / 10

/-- The values of a checked history as a vector. -/
def toVector {size : Nat} (values : List ℚ) (hlength : values.length = size) : Fin size → ℚ :=
  fun i => values.get (i.cast hlength.symm)

/-- Hold the last vehicle count and keep the beacon interval fixed. -/
def forecastContext (contextHistory : Fin (tini * 2) → ℚ) : Fin (horizon * 2) → ℚ :=
  fun i => if column i = 0 then contextHistory ⟨tini * 2 - 2, by decide⟩ else fixedBeaconIntervalS

/-! ## What the solver does -/

inductive SolverStatus
  | optimal
  | optimalInaccurate
  | infeasible
  | infeasibleInaccurate
  | unbounded
  | unboundedInaccurate
  | infeasibleOrUnbounded
  | userLimit
  | solverError
  deriving DecidableEq, Repr

def SolverStatus.text : SolverStatus → Text
  | .optimal => "optimal".toList
  | .optimalInaccurate => "optimal_inaccurate".toList
  | .infeasible => "infeasible".toList
  | .infeasibleInaccurate => "infeasible_inaccurate".toList
  | .unbounded => "unbounded".toList
  | .unboundedInaccurate => "unbounded_inaccurate".toList
  | .infeasibleOrUnbounded => "infeasible_or_unbounded".toList
  | .userLimit => "user_limit".toList
  | .solverError => "solver_error".toList

/-- The statuses the controller goes on with. -/
def SolverStatus.isUsable (status : SolverStatus) : Bool :=
  status = .optimal || status = .optimalInaccurate

/-- A solver call raises, or leaves a status, an objective value and maybe a solution. -/
inductive SolverOutcome
  | raised (message : Text)
  | finished (status : SolverStatus) (value : ℚ) (gValue : Option (Fin hankelColumns → ℚ))

/-! ## Plans -/

/-- The future the controller predicts. -/
structure Plan where
  futurePower : Fin horizon → ℚ
  futureY : Fin horizon → Fin 3 → ℚ
  futureContext : Fin horizon → Fin 2 → ℚ

structure Residuals where
  maxUp : ℚ
  maxYp : ℚ
  maxDp : ℚ
  maxDf : ℚ
  deriving DecidableEq, Repr

def maxAbs {size : Nat} (values : Fin size → ℚ) : ℚ :=
  (List.ofFn values).foldl (fun largest value => max largest |value|) 0

namespace TxPowerDeepc

variable (controller : TxPowerDeepc)

def planOf (histories : Histories) (g : Fin hankelColumns → ℚ) : Plan where
  futurePower := controller.denormalizePower (controller.hankel.uf.mulVec g)
  futureY := controller.denormalizeOutputs (controller.hankel.yf.mulVec g)
  futureContext := fun row i =>
    forecastContext (toVector histories.dIni histories.dIni_length) (finProdFinEquiv (row, i))

def residualsOf (histories : Histories) (g : Fin hankelColumns → ℚ) : Residuals :=
  let uIni := toVector histories.uIni histories.uIni_length
  let yIni := toVector histories.yIni histories.yIni_length
  let dIni := toVector histories.dIni histories.dIni_length
  { maxUp := maxAbs (controller.hankel.up.mulVec g - controller.normalizePower uIni)
    maxYp := maxAbs (controller.hankel.yp.mulVec g - controller.normalizeOutputs yIni)
    maxDp := maxAbs (controller.hankel.dp.mulVec g - controller.normalizeContext dIni)
    maxDf := maxAbs (controller.hankel.df.mulVec g -
      controller.normalizeContext (forecastContext dIni)) }

end TxPowerDeepc

/-- The acceptance test, on exact numbers. -/
def checkSolution (args : Args) (plan : Plan) (residuals : Residuals) :
    Except PyException Unit :=
  if ∃ i, plan.futurePower i < args.minPower - 1 / 1000000 then
    .error (.runtimeError "Predicted Tx power is below the configured minimum".toList)
  else if ∃ i, args.maxPower + 1 / 1000000 < plan.futurePower i then
    .error (.runtimeError "Predicted Tx power is above the configured maximum".toList)
  else if args.residualTolerance <
      max (max (max residuals.maxUp residuals.maxYp) residuals.maxDp) residuals.maxDf then
    .error (.runtimeError "DeePC equality residual exceeds tolerance".toList)
  else .ok ()

/-! ## Results -/

/-- The `result` dictionary; no plan stands for the empty arrays. -/
structure SolveResult where
  success : Bool
  solverStatus : Text
  objective : Option ℚ
  plan : Option Plan
  residuals : Option Residuals
  error : Option Text

def initialResult : SolveResult where
  success := false
  solverStatus := "controller_error".toList
  objective := none
  plan := none
  residuals := none
  error := none

/-- What the `except` branch does to the result so far. -/
def SolveResult.failed (result : SolveResult) (exc : PyException) : SolveResult :=
  { result with success := false, plan := none, error := some exc.str }

/-- The result after a solver call on accepted histories. -/
def resultOf (controller : TxPowerDeepc) (histories : Histories) : SolverOutcome → SolveResult
  | .raised message => initialResult.failed (.runtimeError message)
  | .finished status value gValue =>
      let solved := { initialResult with solverStatus := status.text }
      if !status.isUsable then
        solved.failed (.runtimeError ("OSQP returned ".toList ++ status.text))
      else
        match gValue with
        | none =>
            solved.failed
              (.runtimeError "OSQP did not return a DeePC coefficient vector".toList)
        | some g =>
            let plan := controller.planOf histories g
            let residuals := controller.residualsOf histories g
            let updated := { solved with
              success := true
              objective := some value
              plan := some plan
              residuals := some residuals }
            match checkSolution controller.args plan residuals with
            | .ok () => updated
            | .error exc => updated.failed exc

/-- The `try` block of `solve`. -/
def solveResult (controller : TxPowerDeepc) (request : Request) (outcome : SolverOutcome) :
    SolveResult :=
  match readRequestHistories request with
  | .error exc => initialResult.failed exc
  | .ok histories => resultOf controller histories outcome

/-! ## Responses -/

def prrColumn : Fin 3 := 0
def pirColumn : Fin 3 := 1
def cbrColumn : Fin 3 := 2
def vehicleColumn : Fin 2 := 0
def beaconColumn : Fin 2 := 1

structure Response where
  step : ℤ
  timeS : ℚ
  success : Bool
  solverStatus : Text
  txPowerDbm : ℚ
  plan : Option Plan
  objective : Option ℚ
  solveTimeS : ℚ
  residuals : Option Residuals
  error : Option Text

def optionalFloat : Option ℚ → Value
  | none => .null
  | some number => .float number

def floats (numbers : List ℚ) : Value := .array (numbers.map .float)

/-- One column of a predicted table; empty without a plan. -/
def planColumn (plan : Option Plan) (entry : Plan → Fin horizon → ℚ) : List ℚ :=
  match plan with
  | none => []
  | some plan => List.ofFn (entry plan)

def predicted (plan : Option Plan) (i : Fin 3) : Option ℚ := plan.map fun plan => plan.futureY 0 i

namespace Response

variable (response : Response)

/-- The first part of the payload, down to the residuals. -/
def front : List (Text × Value) :=
  [("step".toList, .int response.step),
    ("time_s".toList, .float response.timeS),
    ("success".toList, .bool response.success),
    ("solver_status".toList, .string response.solverStatus),
    ("tx_power_dbm".toList, .float response.txPowerDbm),
    ("future_tx_power_dbm".toList, floats (planColumn response.plan Plan.futurePower)),
    ("predicted_prr".toList, optionalFloat (predicted response.plan 0)),
    ("predicted_pir_s".toList, optionalFloat (predicted response.plan 1)),
    ("predicted_cbr".toList, optionalFloat (predicted response.plan 2)),
    ("predicted_prr_horizon".toList, floats (planColumn response.plan fun p t => p.futureY t 0)),
    ("predicted_pir_s_horizon".toList, floats (planColumn response.plan fun p t => p.futureY t 1)),
    ("predicted_cbr_horizon".toList, floats (planColumn response.plan fun p t => p.futureY t 2)),
    ("objective".toList, optionalFloat response.objective),
    ("solve_time_s".toList, .float response.solveTimeS),
    ("max_up_residual".toList, optionalFloat (response.residuals.map Residuals.maxUp)),
    ("max_yp_residual".toList, optionalFloat (response.residuals.map Residuals.maxYp)),
    ("max_dp_residual".toList, optionalFloat (response.residuals.map Residuals.maxDp)),
    ("max_df_residual".toList, optionalFloat (response.residuals.map Residuals.maxDf))]

/-- The rest of the payload. -/
def back : List (Text × Value) :=
  [("density_forecast_mode".toList, .string "hold_last".toList),
    ("density_forecast_active_vehicle_count_core".toList,
      floats (planColumn response.plan fun p t => p.futureContext t 0)),
    ("beacon_interval_forecast_s".toList,
      floats (planColumn response.plan fun p t => p.futureContext t 1)),
    ("error".toList, match response.error with | none => .null | some text => .string text)]

def payload : Value := .object (response.front ++ response.back)

end Response

def makeResponse (request : Request) (result : SolveResult) (previousPower solveTime : ℚ) :
    Except PyException Response := do
  let step ← item "step".toList request.step
  let timeS ← item "time_s".toList request.timeS
  return {
    step := step
    timeS := timeS
    success := result.success
    solverStatus := result.solverStatus
    txPowerDbm :=
      match result.success, result.plan with
      | true, some plan => plan.futurePower 0
      | _, _ => previousPower
    plan := result.plan
    objective := result.objective
    solveTimeS := solveTime
    residuals := result.residuals
    error := result.error }

/-- `solve` on a request, for a given outcome of the solver call and a given duration. -/
def solve (controller : TxPowerDeepc) (request : Request) (outcome : SolverOutcome)
    (solveTime : ℚ) : Except PyException Response := do
  let previousU ← item "previous_u".toList request.previousU
  let previousPower ← listItem previousU 0
  makeResponse request (solveResult controller request outcome) previousPower solveTime

end DeepcV2x.Controller
