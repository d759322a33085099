import DeepcV2x.Bridge.Printed
import DeepcV2x.Controller.Solve
import Mathlib.Tactic.Linarith

/-!
# Agreement on success

The response of `TxPowerDeepc.solve`, printed by `json.dump` and read by
`RequestControl`.  The controller accepts powers up to 1e-6 beyond the limits
and the bridge up to 1e-9; the two ends disagree exactly on accepted plans that
start in between.
-/

namespace DeepcV2x.Controller

open DeepcV2x.Foundation.Strings DeepcV2x.Foundation.Decimal DeepcV2x.Foundation.Json
open DeepcV2x.Bridge

variable {printFloat : ℚ → Text}

/-! ## The front of a payload -/

/-- The names of the front fields, whatever the response. -/
def frontNames : List Text :=
  ["step".toList, "time_s".toList, "success".toList, "solver_status".toList,
    "tx_power_dbm".toList, "future_tx_power_dbm".toList, "predicted_prr".toList,
    "predicted_pir_s".toList, "predicted_cbr".toList, "predicted_prr_horizon".toList,
    "predicted_pir_s_horizon".toList, "predicted_cbr_horizon".toList, "objective".toList,
    "solve_time_s".toList, "max_up_residual".toList, "max_yp_residual".toList,
    "max_dp_residual".toList, "max_df_residual".toList]

theorem front_names (response : Response) : response.front.map Prod.fst = frontNames := rfl

theorem frontNames_plain : ∀ name ∈ frontNames, PlainName name := by decide +kernel

theorem frontNames_nodup : frontNames.Nodup := by decide +kernel

/-- A solver status that no search takes for a key. -/
def PlainStatus (status : Text) : Prop := PlainName status ∧ status ∉ frontNames

instance (status : Text) : Decidable (PlainStatus status) := inferInstanceAs (Decidable (_ ∧ _))

theorem plainStatus_text (status : SolverStatus) : PlainStatus status.text := by
  cases status <;> decide +kernel

theorem plainStatus_controllerError : PlainStatus "controller_error".toList := by decide +kernel

theorem quote_notMem_printInt (number : ℤ) : '"' ∉ printInt number := by
  have hdigits : '"' ∉ Nat.toDigits 10 number.natAbs := fun hmem => by
    have := Nat.isDigit_of_mem_toDigits (by decide) (by decide) hmem
    revert this
    decide
  unfold printInt
  split
  · exact List.not_mem_cons_of_ne_of_not_mem (by decide) hdigits
  · exact hdigits

/-- The floats of the front part survive the way through the text. -/
structure AllTransported (printFloat : ℚ → Text) (response : Response) : Prop where
  timeS : Transported printFloat response.timeS
  txPowerDbm : Transported printFloat response.txPowerDbm
  solveTimeS : Transported printFloat response.solveTimeS
  futurePower : ∀ number ∈ planColumn response.plan Plan.futurePower, Transported printFloat number
  futureY : ∀ i, ∀ number ∈ planColumn response.plan fun p t => p.futureY t i,
    Transported printFloat number
  predicted : ∀ i, ∀ number ∈ predicted response.plan i, Transported printFloat number
  objective : ∀ number ∈ response.objective, Transported printFloat number
  maxUp : ∀ number ∈ response.residuals.map Residuals.maxUp, Transported printFloat number
  maxYp : ∀ number ∈ response.residuals.map Residuals.maxYp, Transported printFloat number
  maxDp : ∀ number ∈ response.residuals.map Residuals.maxDp, Transported printFloat number
  maxDf : ∀ number ∈ response.residuals.map Residuals.maxDf, Transported printFloat number

theorem quote_notMem_bool (flag : Bool) : '"' ∉ print printFloat 1 (.bool flag) := by
  cases flag <;> rw [print] <;> decide

theorem quote_notMem_float {number : ℚ} (transported : Transported printFloat number) :
    '"' ∉ print printFloat 1 (.float number) := by
  rw [print]
  exact transported.quote_notMem

theorem quote_notMem_optionalFloat {number : Option ℚ}
    (transported : ∀ value ∈ number, Transported printFloat value) :
    '"' ∉ print printFloat 1 (optionalFloat number) := by
  cases number with
  | none =>
      rw [optionalFloat, print]
      decide
  | some value => exact quote_notMem_float (transported value rfl)

theorem quote_notMem_floats {numbers : List ℚ}
    (transported : ∀ number ∈ numbers, Transported printFloat number) :
    '"' ∉ print printFloat 1 (floats numbers) :=
  quote_notMem_printFloats fun number hmem => (transported number hmem).quote_notMem

/-- Every front value is without quotes, but for the solver status. -/
theorem front_values {response : Response} (transported : AllTransported printFloat response) :
    ∀ value ∈ response.front.map Prod.snd,
      value = .string response.solverStatus ∨ '"' ∉ print printFloat 1 value := by
  simp only [Response.front, List.map_cons, List.map_nil, List.forall_mem_cons]
  exact ⟨Or.inr (by rw [print]; exact quote_notMem_printInt _),
    Or.inr (quote_notMem_float transported.timeS),
    Or.inr (quote_notMem_bool _),
    Or.inl trivial,
    Or.inr (quote_notMem_float transported.txPowerDbm),
    Or.inr (quote_notMem_floats transported.futurePower),
    Or.inr (quote_notMem_optionalFloat (transported.predicted 0)),
    Or.inr (quote_notMem_optionalFloat (transported.predicted 1)),
    Or.inr (quote_notMem_optionalFloat (transported.predicted 2)),
    Or.inr (quote_notMem_floats (transported.futureY 0)),
    Or.inr (quote_notMem_floats (transported.futureY 1)),
    Or.inr (quote_notMem_floats (transported.futureY 2)),
    Or.inr (quote_notMem_optionalFloat transported.objective),
    Or.inr (quote_notMem_float transported.solveTimeS),
    Or.inr (quote_notMem_optionalFloat transported.maxUp),
    Or.inr (quote_notMem_optionalFloat transported.maxYp),
    Or.inr (quote_notMem_optionalFloat transported.maxDp),
    Or.inr (quote_notMem_optionalFloat transported.maxDf),
    fun _ hmem => absurd hmem List.not_mem_nil⟩

theorem frontFields {response : Response} (transported : AllTransported printFloat response)
    (hstatus : PlainStatus response.solverStatus) : FrontFields printFloat response.front where
  names name hmem := frontNames_plain name (front_names response ▸ hmem)
  distinct := front_names response ▸ frontNames_nodup
  values := by
    intro name hname value hvalue
    rw [front_names] at hname
    rcases front_values transported value hvalue with rfl | hplain
    · exact passed_string (frontNames_plain name hname) hstatus.1
        fun same => hstatus.2 (same ▸ hname)
    · exact passed_of_plain hplain

/-! ## Reading the payload -/

theorem extractJsonNumber_optional {front back : List (Text × Value)}
    (fields : FrontFields printFloat front) {key : Text} {number : Option ℚ}
    (hmem : (key, optionalFloat number) ∈ front)
    (transported : ∀ value ∈ number, Transported printFloat value) :
    extractJsonNumber stod (print printFloat 0 (.object (front ++ back))) key = .ok number := by
  cases number with
  | none => exact extractJsonNumber_null fields hmem
  | some value => exact extractJsonNumber_float fields hmem (transported value rfl)

/-- The text `json.dump` writes for a response. -/
def responseText (printFloat : ℚ → Text) (response : Response) : Text :=
  print printFloat 0 response.payload

section Reading

variable {response : Response}

theorem mem_front {i : Nat} {field : Text × Value} (hfield : response.front[i]? = some field) :
    field ∈ response.front := List.mem_of_getElem? hfield

/-- Every number of a payload is read without an exception. -/
theorem runAccepted_responseText (transported : AllTransported printFloat response)
    (hstatus : PlainStatus response.solverStatus) :
    ∀ key ∈ numberKeys, RunAccepted stod (responseText printFloat response) key := by
  have fields := frontFields transported hstatus
  simp only [numberKeys, List.forall_mem_cons, ← extractJsonNumber_ok_iff]
  refine ⟨⟨_, extractJsonNumber_float fields ?_ transported.txPowerDbm⟩,
    ⟨_, extractJsonNumber_float fields ?_ transported.solveTimeS⟩,
    ⟨_, extractJsonNumber_optional fields ?_ transported.objective⟩,
    ⟨_, extractJsonNumber_optional fields ?_ transported.maxUp⟩,
    ⟨_, extractJsonNumber_optional fields ?_ transported.maxYp⟩,
    ⟨_, extractJsonNumber_optional fields ?_ transported.maxDp⟩,
    ⟨_, extractJsonNumber_optional fields ?_ transported.maxDf⟩,
    ⟨_, extractJsonNumber_optional fields ?_ (transported.predicted 0)⟩,
    ⟨_, extractJsonNumber_optional fields ?_ (transported.predicted 1)⟩,
    ⟨_, extractJsonNumber_optional fields ?_ (transported.predicted 2)⟩,
    fun _ hmem => absurd hmem List.not_mem_nil⟩
  · exact mem_front (show response.front[4]? = _ from rfl)
  · exact mem_front (show response.front[13]? = _ from rfl)
  · exact mem_front (show response.front[12]? = _ from rfl)
  · exact mem_front (show response.front[14]? = _ from rfl)
  · exact mem_front (show response.front[15]? = _ from rfl)
  · exact mem_front (show response.front[16]? = _ from rfl)
  · exact mem_front (show response.front[17]? = _ from rfl)
  · exact mem_front (show response.front[6]? = _ from rfl)
  · exact mem_front (show response.front[7]? = _ from rfl)
  · exact mem_front (show response.front[8]? = _ from rfl)

/-- `RequestControl` reads the flag and the power of the response and decides by its limits. -/
theorem requestControl_responseText (transported : AllTransported printFloat response)
    (hstatus : PlainStatus response.solverStatus) (limits : ControlLimits) (timeS : ℚ)
    (previousU : InputCommand) :
    ∃ result, requestControl stod limits timeS previousU (responseText printFloat response) =
        .ok result ∧
      ((response.success = true ∧ limits.InRange response.txPowerDbm ∧
          result.responseSuccess = true ∧
          result.command.txPowerDbm = response.txPowerDbm) ∨
        (¬ (response.success = true ∧ limits.InRange response.txPowerDbm) ∧
          result.responseSuccess = false ∧
          result.command.txPowerDbm = previousU.txPowerDbm)) := by
  have fields := frontFields transported hstatus
  obtain ⟨parsed, hparsed⟩ :=
    (parseResponse_ok_iff _).mpr (runAccepted_responseText transported hstatus)
  obtain ⟨hpower, hsuccess⟩ := parseResponse_fields hparsed
  have hpowerText : extractJsonNumber stod (responseText printFloat response) powerKey =
      .ok (some response.txPowerDbm) :=
    extractJsonNumber_float fields (mem_front (show response.front[4]? = _ from rfl))
      transported.txPowerDbm
  have hflagText : extractJsonBool (responseText printFloat response) successKey =
      some response.success :=
    extractJsonBool_bool fields (mem_front (show response.front[2]? = _ from rfl))
  rw [hpowerText] at hpower
  rw [hflagText, Option.getD_some] at hsuccess
  have hread : parsed.power = some response.txPowerDbm := (Except.ok.inj hpower).symm
  refine ⟨_, by rw [requestControl, hparsed], ?_⟩
  by_cases haccepted : response.success = true ∧ limits.InRange response.txPowerDbm
  · have hpowerOf : acceptedPower limits parsed = some response.txPowerDbm := by
      simp only [acceptedPower, hread, hsuccess, if_pos haccepted]
    refine Or.inl ⟨haccepted.1, haccepted.2, ?_, ?_⟩
    · rw [hpowerOf]
      rfl
    · rw [hpowerOf]
      rfl
  · have hpowerOf : acceptedPower limits parsed = none := by
      simp only [acceptedPower, hread, hsuccess, if_neg haccepted]
    refine Or.inr ⟨haccepted, ?_, ?_⟩
    · rw [hpowerOf]
      rfl
    · rw [hpowerOf]
      rfl

end Reading

/-! ## Accepted plans -/

/-- The controller accepts the outcome, with a plan that starts with `power`. -/
def AcceptsPlan (controller : TxPowerDeepc) (request : Request) (outcome : SolverOutcome)
    (power : ℚ) : Prop :=
  ∃ histories status value g, readRequestHistories request = .ok histories ∧
    outcome = .finished status value (some g) ∧ status.isUsable = true ∧
    checkSolution controller.args (controller.planOf histories g)
      (controller.residualsOf histories g) = .ok () ∧
    power = (controller.planOf histories g).futurePower 0

/-- An accepted plan starts outside the limits of the bridge, within a hair of them. -/
def HairlinePlan (controller : TxPowerDeepc) (request : Request) (outcome : SolverOutcome) : Prop :=
  ∃ power, AcceptsPlan controller request outcome power ∧
    (power < controller.args.minPower - kPowerEps ∨ controller.args.maxPower + kPowerEps < power)

/-- A plan accepted by the controller starts within 1e-6 of the limits. -/
theorem AcceptsPlan.near {controller : TxPowerDeepc} {request : Request} {outcome : SolverOutcome}
    {power : ℚ} (accepts : AcceptsPlan controller request outcome power) :
    controller.args.minPower - 1 / 1000000 ≤ power ∧
      power ≤ controller.args.maxPower + 1 / 1000000 := by
  obtain ⟨histories, status, value, g, -, -, -, hcheck, rfl⟩ := accepts
  unfold checkSolution at hcheck
  split at hcheck
  · cases hcheck
  next hlow =>
    split at hcheck
    · cases hcheck
    next hhigh =>
      exact ⟨not_lt.mp fun hlt => hlow ⟨0, hlt⟩, not_lt.mp fun hlt => hhigh ⟨0, hlt⟩⟩

/-- An accepted outcome gives a successful result with its plan. -/
theorem resultOf_accepted {controller : TxPowerDeepc} {histories : Histories}
    {status : SolverStatus} {value : ℚ} {g : Fin hankelColumns → ℚ}
    (husable : status.isUsable = true)
    (hcheck : checkSolution controller.args (controller.planOf histories g)
      (controller.residualsOf histories g) = .ok ()) :
    (resultOf controller histories (.finished status value (some g))).success = true ∧
      (resultOf controller histories (.finished status value (some g))).plan =
        some (controller.planOf histories g) := by
  simp only [resultOf, husable, hcheck]
  exact ⟨rfl, rfl⟩

/-- A successful result stems from an accepted outcome. -/
theorem exists_of_resultOf_success {controller : TxPowerDeepc} {histories : Histories}
    {outcome : SolverOutcome} (hsuccess : (resultOf controller histories outcome).success = true) :
    ∃ status value g, outcome = .finished status value (some g) ∧ status.isUsable = true ∧
      checkSolution controller.args (controller.planOf histories g)
        (controller.residualsOf histories g) = .ok () := by
  cases outcome with
  | raised message => cases hsuccess
  | finished status value gValue =>
      cases husable : status.isUsable with
      | false =>
          simp only [resultOf, husable] at hsuccess
          cases hsuccess
      | true =>
          cases gValue with
          | none =>
              simp only [resultOf, husable] at hsuccess
              cases hsuccess
          | some g =>
              cases hcheck : checkSolution controller.args (controller.planOf histories g)
                  (controller.residualsOf histories g) with
              | error exc =>
                  simp only [resultOf, husable, hcheck] at hsuccess
                  cases hsuccess
              | ok _ => exact ⟨status, value, g, rfl, husable, hcheck⟩

theorem plainStatus_resultOf (controller : TxPowerDeepc) (histories : Histories)
    (outcome : SolverOutcome) :
    PlainStatus (resultOf controller histories outcome).solverStatus := by
  cases outcome with
  | raised message => exact plainStatus_controllerError
  | finished status value gValue =>
      simp only [resultOf]
      split
      · exact plainStatus_text status
      · split
        · exact plainStatus_text status
        · split <;> exact plainStatus_text status

/-- What a response of `solve` says about the outcome. -/
theorem solve_spec {controller : TxPowerDeepc} {request : Request} {outcome : SolverOutcome}
    {solveTime : ℚ} {response : Response}
    (hsolve : solve controller request outcome solveTime = .ok response) :
    (response.success = true → AcceptsPlan controller request outcome response.txPowerDbm) ∧
      (∀ power, AcceptsPlan controller request outcome power →
        response.success = true ∧ power = response.txPowerDbm) ∧
      PlainStatus response.solverStatus := by
  simp only [solve, makeResponse, bind_ok_iff] at hsolve
  obtain ⟨previousU, -, previousPower, -, step, -, timeS, -, hresponse⟩ := hsolve
  obtain rfl := Except.ok.inj hresponse
  dsimp only
  cases hread : readRequestHistories request with
  | error exc =>
      have hfailed : solveResult controller request outcome = initialResult.failed exc := by
        rw [solveResult, hread]
      rw [hfailed]
      refine ⟨fun hsuccess => absurd hsuccess Bool.false_ne_true, ?_,
        plainStatus_controllerError⟩
      rintro power ⟨histories, status, value, g, hok, -⟩
      rw [hread] at hok
      cases hok
  | ok histories =>
      have hresult : solveResult controller request outcome =
          resultOf controller histories outcome := by
        rw [solveResult, hread]
      rw [hresult]
      refine ⟨?_, ?_, plainStatus_resultOf controller histories outcome⟩
      · intro hsuccess
        obtain ⟨status, value, g, rfl, husable, hcheck⟩ := exists_of_resultOf_success hsuccess
        obtain ⟨-, hplan⟩ := @resultOf_accepted controller histories status value g husable hcheck
        refine ⟨histories, status, value, g, hread, rfl, husable, hcheck, ?_⟩
        rw [hsuccess, hplan]
      · rintro power ⟨others, status, value, g, hok, rfl, husable, hcheck, rfl⟩
        rw [hread] at hok
        obtain rfl := Except.ok.inj hok
        obtain ⟨hsuccess, hplan⟩ :=
          @resultOf_accepted controller histories status value g husable hcheck
        refine ⟨hsuccess, ?_⟩
        rw [hsuccess, hplan]

/-! ## Agreement -/

/-- The bridge classifies the response as the controller did and applies or keeps the power. -/
def Agrees (printFloat : ℚ → Text) (limits : ControlLimits) (timeS : ℚ)
    (previousU : InputCommand) (response : Response) : Prop :=
  ∃ result, requestControl stod limits timeS previousU (responseText printFloat response) =
      .ok result ∧
    (response.success = true → result.responseSuccess = true ∧
      result.command.txPowerDbm = response.txPowerDbm) ∧
    (response.success = false → result.command.txPowerDbm = previousU.txPowerDbm)

/--
With equal limits on both sides and floats that survive the way through the
text, both ends agree on a response of `solve` unless it carries an accepted
plan that starts between the two tolerances.
-/
theorem solve_agrees_iff (printFloat : ℚ → Text) (controller : TxPowerDeepc) (request : Request)
    (outcome : SolverOutcome) (solveTime beaconIntervalS timeS : ℚ) (previousU : InputCommand)
    (response : Response)
    (hsolve : solve controller request outcome solveTime = .ok response)
    (htransported : AllTransported printFloat response) :
    Agrees printFloat ⟨controller.args.minPower, controller.args.maxPower, beaconIntervalS⟩
        timeS previousU response ↔
      ¬ HairlinePlan controller request outcome := by
  obtain ⟨haccepts, hunique, hstatus⟩ := solve_spec hsolve
  obtain ⟨result, hresult, hcases⟩ := requestControl_responseText htransported hstatus
    ⟨controller.args.minPower, controller.args.maxPower, beaconIntervalS⟩ timeS previousU
  constructor
  · rintro ⟨other, hother, happlies, -⟩ ⟨power, hpower, houtside⟩
    rw [hresult] at hother
    obtain rfl := Except.ok.inj hother
    obtain ⟨hsuccess, rfl⟩ := hunique power hpower
    rcases hcases with ⟨-, hrange, -⟩ | ⟨-, hrejected, -⟩
    · rcases houtside with hlow | hhigh
      · exact absurd hrange.1 (not_le_of_gt hlow)
      · exact absurd hrange.2 (not_le_of_gt hhigh)
    · rw [(happlies hsuccess).1] at hrejected
      cases hrejected
  · intro hnone
    refine ⟨result, hresult, ?_, ?_⟩
    · intro hsuccess
      rcases hcases with ⟨-, -, hclassified, happlied⟩ | ⟨houtside, -⟩
      · exact ⟨hclassified, happlied⟩
      · refine absurd ⟨hsuccess, ?_⟩ houtside
        have hin := not_or.mp fun hout => hnone ⟨_, haccepts hsuccess, hout⟩
        exact ⟨not_lt.mp hin.1, not_lt.mp hin.2⟩
    · intro hfailed
      rcases hcases with ⟨hsuccess, -⟩ | ⟨-, -, hkept⟩
      · rw [hfailed] at hsuccess
        cases hsuccess
      · exact hkept

/-! ## Constant plans -/

/-- Hankel blocks of zeros: every plan is the mean of the scaler. -/
def flatController (power : ℚ) : TxPowerDeepc where
  args := ⟨10, 23, 1 / 100000⟩
  hankel := ⟨0, 0, 0, 0, 0, 0⟩
  scaler := {
    uMean := power
    uStd := 1
    yMean := fun _ => 0
    yStd := fun _ => 1
    dMean := ![0, 1 / 10]
    dStd := fun _ => 1
    uStd_ne := one_ne_zero
    yStd_ne := fun _ => one_ne_zero
    dStd_ne := fun _ => one_ne_zero }

/-- No vehicles and the fixed beacon interval. -/
def flatContext : List ℚ := (List.replicate 20 [0, 1 / 10]).flatten

theorem toVector_flatContext (hlength : flatContext.length = tini * 2) (i : Fin (tini * 2)) :
    toVector flatContext hlength i = (![0, 1 / 10] : Fin 2 → ℚ) (column i) := by
  have hentries : ∀ i : Fin (tini * 2),
      flatContext[i.val]? = some ((![0, 1 / 10] : Fin 2 → ℚ) (column i)) := by
    decide +kernel
  exact (List.getElem?_eq_some_iff.mp (hentries i)).2

theorem toVector_replicate {size count : Nat} {number : ℚ}
    (hlength : (List.replicate count number).length = size) (i : Fin size) :
    toVector (List.replicate count number) hlength i = number := by
  rw [toVector, List.get_eq_getElem, List.getElem_replicate]

def flatHistories (power : ℚ) : Histories where
  uIni := List.replicate 20 power
  yIni := List.replicate 60 0
  dIni := flatContext
  uIni_length := by rw [List.length_replicate]; rfl
  yIni_length := by rw [List.length_replicate]; rfl
  dIni_length := by rfl

def flatRequest (power : ℚ) : Request where
  step := some 0
  timeS := some (21 / 2)
  pastHorizon := some tini
  futureHorizon := some horizon
  inputCols := some [txPowerCol]
  outputCols := some outputCols
  contextCols := some contextCols
  previousU := some [20]
  uIni := some (flatHistories power).uIni
  yIni := some (flatHistories power).yIni
  dIni := some (flatHistories power).dIni

/-- The solver reports an optimum at the zero vector. -/
def flatOutcome : SolverOutcome := .finished .optimal 0 (some 0)

def flatResponse (power : ℚ) : Response where
  step := 0
  timeS := 21 / 2
  success := true
  solverStatus := "optimal".toList
  txPowerDbm := power
  plan := some ((flatController power).planOf (flatHistories power) 0)
  objective := some 0
  solveTimeS := 1 / 4
  residuals := some ⟨0, 0, 0, 0⟩
  error := none

theorem flatPlan_power (power : ℚ) (i : Fin horizon) :
    ((flatController power).planOf (flatHistories power) 0).futurePower i = power := by
  simp [TxPowerDeepc.planOf, TxPowerDeepc.denormalizePower, flatController]

theorem flatPlan_y (power : ℚ) (t : Fin horizon) (i : Fin 3) :
    ((flatController power).planOf (flatHistories power) 0).futureY t i = 0 := by
  simp [TxPowerDeepc.planOf, TxPowerDeepc.denormalizeOutputs, flatController]

theorem maxAbs_eq_zero {size : Nat} {values : Fin size → ℚ} (hzero : ∀ i, values i = 0) :
    maxAbs values = 0 := by
  have hfold : ∀ numbers : List ℚ, (∀ number ∈ numbers, number = 0) →
      numbers.foldl (fun largest value => max largest |value|) 0 = 0 := by
    intro numbers hnumbers
    induction numbers with
    | nil => rfl
    | cons number rest ih =>
        rw [List.foldl_cons, hnumbers number List.mem_cons_self, abs_zero, max_self]
        exact ih fun other hmem => hnumbers other (List.mem_cons_of_mem _ hmem)
  apply hfold
  intro number hmem
  obtain ⟨i, rfl⟩ := List.mem_ofFn.mp hmem
  exact hzero i

theorem flatResiduals (power : ℚ) :
    (flatController power).residualsOf (flatHistories power) 0 = ⟨0, 0, 0, 0⟩ := by
  have hcontext := toVector_flatContext (flatHistories power).dIni_length
  simp only [TxPowerDeepc.residualsOf, Residuals.mk.injEq]
  refine ⟨?_, ?_, ?_, ?_⟩
  · apply maxAbs_eq_zero
    intro i
    have hentry : toVector (flatHistories power).uIni (flatHistories power).uIni_length i = power :=
      toVector_replicate _ i
    simp only [flatController, TxPowerDeepc.normalizePower, Pi.sub_apply, Matrix.zero_mulVec,
      Pi.zero_apply]
    rw [hentry, sub_self, zero_div, sub_zero]
  · apply maxAbs_eq_zero
    intro i
    have hentry : toVector (flatHistories power).yIni (flatHistories power).yIni_length i = 0 :=
      toVector_replicate _ i
    simp only [flatController, TxPowerDeepc.normalizeOutputs, Pi.sub_apply, Matrix.zero_mulVec,
      Pi.zero_apply]
    rw [hentry, sub_self, zero_div, sub_zero]
  · apply maxAbs_eq_zero
    intro i
    have hi := hcontext i
    simp only [flatController, flatHistories, TxPowerDeepc.normalizeContext, Pi.sub_apply,
      Matrix.zero_mulVec, Pi.zero_apply] at hi ⊢
    rw [hi, sub_self, zero_div, sub_zero]
  · apply maxAbs_eq_zero
    intro i
    have hlast := hcontext ⟨tini * 2 - 2, by decide⟩
    have hforecast : forecastContext (toVector flatContext (flatHistories power).dIni_length) i =
        (![0, 1 / 10] : Fin 2 → ℚ) (column i) := by
      unfold forecastContext
      split
      next hfirst =>
        rw [hlast, hfirst]
        rfl
      next hsecond =>
        have hone : column i = 1 := by omega
        rw [hone]
        rfl
    simp only [flatController, flatHistories, TxPowerDeepc.normalizeContext, Pi.sub_apply,
      Matrix.zero_mulVec, Pi.zero_apply] at hforecast ⊢
    rw [hforecast, sub_self, zero_div, sub_zero]

theorem solve_flat (power : ℚ) (hlow : 10 - 1 / 1000000 ≤ power)
    (hhigh : power ≤ 23 + 1 / 1000000) :
    solve (flatController power) (flatRequest power) flatOutcome (1 / 4) =
      .ok (flatResponse power) := by
  have hread : readRequestHistories (flatRequest power) = .ok (flatHistories power) :=
    readRequestHistories_ok rfl rfl rfl rfl rfl rfl rfl rfl _ _ _
  have hcheck : checkSolution (flatController power).args
      ((flatController power).planOf (flatHistories power) 0)
      ((flatController power).residualsOf (flatHistories power) 0) = .ok () := by
    have hnotLow : ¬ ∃ i, ((flatController power).planOf (flatHistories power) 0).futurePower i <
        (flatController power).args.minPower - 1 / 1000000 := by
      rintro ⟨i, hi⟩
      rw [flatPlan_power] at hi
      exact absurd hi (not_lt_of_ge hlow)
    have hnotHigh : ¬ ∃ i, (flatController power).args.maxPower + 1 / 1000000 <
        ((flatController power).planOf (flatHistories power) 0).futurePower i := by
      rintro ⟨i, hi⟩
      rw [flatPlan_power] at hi
      exact absurd hi (not_lt_of_ge hhigh)
    rw [checkSolution, if_neg hnotLow, if_neg hnotHigh, flatResiduals]
    have htolerance : ¬ (flatController power).args.residualTolerance <
        max (max (max 0 0) 0) 0 := by
      simp only [max_self, flatController]
      norm_num
    exact if_neg htolerance
  have hresult : solveResult (flatController power) (flatRequest power) flatOutcome =
      ⟨true, "optimal".toList, some 0,
        some ((flatController power).planOf (flatHistories power) 0), some ⟨0, 0, 0, 0⟩, none⟩ := by
    rw [flatResiduals] at hcheck
    simp only [solveResult, hread, flatOutcome, resultOf, flatResiduals, hcheck]
    rfl
  have hfirst := flatPlan_power power 0
  simp only [solve, makeResponse, hresult]
  change Except.ok _ = Except.ok _
  rw [hfirst]
  rfl

/-- A float with up to twelve decimals, at least one, and no exponent. -/
def plainFloat (number : ℚ) : Text :=
  let scaled := (|number| * 10 ^ 12).floor.natAbs
  let fraction := ((paddedDecimal 12 (scaled % 10 ^ 12)).reverse.dropWhile (· = '0')).reverse
  (if number < 0 then ['-'] else []) ++ Nat.toDigits 10 (scaled / 10 ^ 12) ++
    '.' :: (if fraction = [] then ['0'] else fraction)

instance (number : ℚ) : Decidable (Transported plainFloat number) :=
  decidable_of_iff (plainFloat number ≠ [] ∧ (plainFloat number).all isNumberChar = true ∧
      stod (plainFloat number) = .ok number)
    ⟨fun h => ⟨h.1, List.all_eq_true.mp h.2.1, h.2.2⟩,
      fun h => ⟨h.nonempty, List.all_eq_true.mpr h.chars, h.reads⟩⟩

theorem allTransported_flat {power : ℚ} (hpower : Transported plainFloat power) :
    AllTransported plainFloat (flatResponse power) := by
  have hzero : Transported plainFloat 0 := by decide +kernel
  have htime : Transported plainFloat (21 / 2) := by decide +kernel
  have hduration : Transported plainFloat (1 / 4) := by decide +kernel
  have hresidual : ∀ number ∈ some (0 : ℚ), Transported plainFloat number := by
    intro number hmem
    rw [← Option.some.inj hmem]
    exact hzero
  constructor
  · exact htime
  · exact hpower
  · exact hduration
  · intro number hmem
    obtain ⟨i, rfl⟩ := List.mem_ofFn.mp hmem
    rw [flatPlan_power]
    exact hpower
  · intro i number hmem
    obtain ⟨t, rfl⟩ := List.mem_ofFn.mp hmem
    dsimp only
    rw [flatPlan_y]
    exact hzero
  · intro i number hmem
    obtain rfl := Option.some.inj hmem
    dsimp only
    rw [flatPlan_y]
    exact hzero
  all_goals exact hresidual

/-- A plan of 15.5 dBm, on which both ends agree. -/
theorem solve_agrees_iff_regular :
    Agrees plainFloat ⟨10, 23, 1 / 10⟩ (21 / 2) ⟨10, 20, 1 / 10⟩ (flatResponse (31 / 2)) ↔
      ¬ HairlinePlan (flatController (31 / 2)) (flatRequest (31 / 2)) flatOutcome :=
  solve_agrees_iff plainFloat (flatController (31 / 2)) (flatRequest (31 / 2)) flatOutcome (1 / 4)
    (1 / 10) (21 / 2) ⟨10, 20, 1 / 10⟩ (flatResponse (31 / 2))
    (solve_flat (31 / 2) (by norm_num) (by norm_num)) (allTransported_flat (by decide +kernel))

/-- Half of the controller's tolerance above the limit. -/
def hairline : ℚ := 23 + 1 / 2000000

/-- The controller reports success with a power the bridge rejects. -/
theorem solve_agrees_hairline_fails :
    solve (flatController hairline) (flatRequest hairline) flatOutcome (1 / 4) =
        .ok (flatResponse hairline) ∧
      AllTransported plainFloat (flatResponse hairline) ∧
      ¬ Agrees plainFloat ⟨10, 23, 1 / 10⟩ (21 / 2) ⟨10, 20, 1 / 10⟩ (flatResponse hairline) := by
  have transported : AllTransported plainFloat (flatResponse hairline) :=
    allTransported_flat (by decide +kernel)
  refine ⟨solve_flat hairline (by norm_num [hairline]) (by norm_num [hairline]), transported, ?_⟩
  rintro ⟨result, hresult, happlies, -⟩
  obtain ⟨other, hother, hcases⟩ := requestControl_responseText transported
    (plainStatus_text .optimal) ⟨10, 23, 1 / 10⟩ (21 / 2) ⟨10, 20, 1 / 10⟩
  rw [hresult] at hother
  obtain rfl := Except.ok.inj hother
  have hclassified := (happlies rfl).1
  rcases hcases with ⟨-, hrange, -⟩ | ⟨-, hrejected, -⟩
  · revert hrange
    decide +kernel
  · rw [hclassified] at hrejected
    cases hrejected

end DeepcV2x.Controller
