import DeepcV2x.Controller.Agreement

/-!
# Reading a response back

`make_response` on any result dictionary, printed by `json.dump` and read by the
extraction calls of `RequestControl`.  A number is lost when `stod` throws on
it, and a field is mistaken for another when the solver status spells its key.
-/

namespace DeepcV2x.Controller

open DeepcV2x.Foundation.Strings DeepcV2x.Foundation.Decimal DeepcV2x.Foundation.Json
open DeepcV2x.Bridge

/-! ## Any result dictionary -/

/-- The `result` dictionary of a call; `none` stands for a null. -/
structure ResultDict where
  success : Bool
  solverStatus : Text
  objective : Option ℚ
  futurePower : List ℚ
  futureY : List (Fin 3 → ℚ)
  futureContext : List (Fin 2 → ℚ)
  maxUpResidual : Option ℚ
  maxYpResidual : Option ℚ
  maxDpResidual : Option ℚ
  maxDfResidual : Option ℚ
  error : Option Text

/-- The payload before it is printed. -/
structure ResponseDict where
  step : ℤ
  timeS : ℚ
  success : Bool
  solverStatus : Text
  txPowerDbm : ℚ
  futureTxPowerDbm : List ℚ
  predictedPrr : Option ℚ
  predictedPirS : Option ℚ
  predictedCbr : Option ℚ
  predictedPrrHorizon : List ℚ
  predictedPirSHorizon : List ℚ
  predictedCbrHorizon : List ℚ
  objective : Option ℚ
  solveTimeS : ℚ
  maxUpResidual : Option ℚ
  maxYpResidual : Option ℚ
  maxDpResidual : Option ℚ
  maxDfResidual : Option ℚ
  activeVehicleForecast : List ℚ
  beaconIntervalForecast : List ℚ
  error : Option Text

/-- `future_power[0]` on success, else the previous power. -/
def firstPower (result : ResultDict) (previousPower : ℚ) : Except PyException ℚ :=
  if result.success then listItem result.futurePower 0 else .ok previousPower

/-- `future_y[0, i]` on success. -/
def firstPrediction (result : ResultDict) (i : Fin 3) : Except PyException (Option ℚ) :=
  if result.success then (listItem result.futureY 0).map fun first => some (first i)
  else .ok none

/-- A column of a table on success. -/
def columnOf {width : Nat} (success : Bool) (table : List (Fin width → ℚ)) (i : Fin width) :
    List ℚ :=
  if success then table.map fun row => row i else []

/-- `make_response` on any result. -/
def makeResponseDict (request : Request) (result : ResultDict) (previousPower solveTime : ℚ) :
    Except PyException ResponseDict := do
  let step ← item "step".toList request.step
  let timeS ← item "time_s".toList request.timeS
  let txPowerDbm ← firstPower result previousPower
  let predictedPrr ← firstPrediction result prrColumn
  let predictedPirS ← firstPrediction result pirColumn
  let predictedCbr ← firstPrediction result cbrColumn
  return {
    step := step
    timeS := timeS
    success := result.success
    solverStatus := result.solverStatus
    txPowerDbm := txPowerDbm
    futureTxPowerDbm := result.futurePower
    predictedPrr := predictedPrr
    predictedPirS := predictedPirS
    predictedCbr := predictedCbr
    predictedPrrHorizon := columnOf result.success result.futureY prrColumn
    predictedPirSHorizon := columnOf result.success result.futureY pirColumn
    predictedCbrHorizon := columnOf result.success result.futureY cbrColumn
    objective := result.objective
    solveTimeS := solveTime
    maxUpResidual := result.maxUpResidual
    maxYpResidual := result.maxYpResidual
    maxDpResidual := result.maxDpResidual
    maxDfResidual := result.maxDfResidual
    activeVehicleForecast := columnOf result.success result.futureContext vehicleColumn
    beaconIntervalForecast := columnOf result.success result.futureContext beaconColumn
    error := result.error }

namespace ResponseDict

variable (dict : ResponseDict)

/-- The fields up to the solver status. -/
def opening : List (Text × Value) :=
  [("step".toList, .int dict.step), ("time_s".toList, .float dict.timeS),
    ("success".toList, .bool dict.success)]

/-- The fields behind the power that `RequestControl` may search for. -/
def middle : List (Text × Value) :=
  [("future_tx_power_dbm".toList, floats dict.futureTxPowerDbm),
    ("predicted_prr".toList, optionalFloat dict.predictedPrr),
    ("predicted_pir_s".toList, optionalFloat dict.predictedPirS),
    ("predicted_cbr".toList, optionalFloat dict.predictedCbr),
    ("predicted_prr_horizon".toList, floats dict.predictedPrrHorizon),
    ("predicted_pir_s_horizon".toList, floats dict.predictedPirSHorizon),
    ("predicted_cbr_horizon".toList, floats dict.predictedCbrHorizon),
    ("objective".toList, optionalFloat dict.objective),
    ("solve_time_s".toList, .float dict.solveTimeS),
    ("max_up_residual".toList, optionalFloat dict.maxUpResidual),
    ("max_yp_residual".toList, optionalFloat dict.maxYpResidual),
    ("max_dp_residual".toList, optionalFloat dict.maxDpResidual),
    ("max_df_residual".toList, optionalFloat dict.maxDfResidual)]

def closing : List (Text × Value) :=
  [("density_forecast_mode".toList, .string "hold_last".toList),
    ("density_forecast_active_vehicle_count_core".toList, floats dict.activeVehicleForecast),
    ("beacon_interval_forecast_s".toList, floats dict.beaconIntervalForecast),
    ("error".toList, match dict.error with | none => .null | some text => .string text)]

def payload : Value :=
  .object (dict.opening ++ (solverStatusKey, .string dict.solverStatus) ::
    (powerKey, .float dict.txPowerDbm) :: (dict.middle ++ dict.closing))

/-- The fields `ExtractJsonNumber` is called for, with their numbers. -/
def numberFields : List (Text × Option ℚ) :=
  [(powerKey, some dict.txPowerDbm), ("solve_time_s".toList, some dict.solveTimeS),
    ("objective".toList, dict.objective), ("max_up_residual".toList, dict.maxUpResidual),
    ("max_yp_residual".toList, dict.maxYpResidual),
    ("max_dp_residual".toList, dict.maxDpResidual),
    ("max_df_residual".toList, dict.maxDfResidual),
    ("predicted_prr".toList, dict.predictedPrr), ("predicted_pir_s".toList, dict.predictedPirS),
    ("predicted_cbr".toList, dict.predictedCbr)]

/-- All floats of the payload. -/
def allFloats : List ℚ :=
  dict.timeS :: (dict.numberFields.filterMap Prod.snd ++ dict.futureTxPowerDbm ++
    dict.predictedPrrHorizon ++ dict.predictedPirSHorizon ++ dict.predictedCbrHorizon ++
    dict.activeVehicleForecast ++ dict.beaconIntervalForecast)

/-- The fields down to the residuals. -/
def front : List (Text × Value) :=
  dict.opening ++ (solverStatusKey, .string dict.solverStatus) ::
    (powerKey, .float dict.txPowerDbm) :: dict.middle

theorem payload_eq : dict.payload = .object (dict.front ++ dict.closing) := rfl

theorem front_names : dict.front.map Prod.fst = frontNames := rfl

end ResponseDict

/-- The text `json.dump` writes for a response dictionary. -/
def dumpedText (printFloat : ℚ → Text) (dict : ResponseDict) : Text :=
  print printFloat 0 dict.payload

/-! ## The claim of the reader -/

/-- A float is printed with number characters that denote it. -/
structure Spelled (printFloat : ℚ → Text) (number : ℚ) : Prop where
  chars : ∀ c ∈ printFloat number, isNumberChar c = true
  reads : ∃ rest, readDecimal (printFloat number) = some (number, rest)

/-- The extraction calls return what was serialised: a number or nothing for a null, the flag, and
the status as it stands between its quotes. -/
structure ReadsBack (printFloat : ℚ → Text) (dict : ResponseDict) : Prop where
  numbers : ∀ field ∈ dict.numberFields,
    extractJsonNumber stod (dumpedText printFloat dict) field.1 = .ok field.2
  flag : extractJsonBool (dumpedText printFloat dict) successKey = some dict.success
  status : extractJsonString (dumpedText printFloat dict) solverStatusKey =
    some (escapeText dict.solverStatus)

/-- No number that is read is subnormal, and a status that spells the key of a number finds the
same number behind it. -/
structure Readable (dict : ResponseDict) : Prop where
  normal : ∀ field ∈ dict.numberFields, ∀ number ∈ field.2, ¬ Underflows number
  status : ∀ field ∈ dict.numberFields, dict.solverStatus = field.1 →
    field.2 = some dict.txPowerDbm

/-- The fields as `RequestControl` keeps them, with its defaults. -/
def ResponseDict.parsed (dict : ResponseDict) : ParsedResponse where
  power := some dict.txPowerDbm
  solveTimeS := dict.solveTimeS
  objective := dict.objective
  maxUpResidual := dict.maxUpResidual
  maxYpResidual := dict.maxYpResidual
  maxDpResidual := dict.maxDpResidual.getD 0
  maxDfResidual := dict.maxDfResidual.getD 0
  predictedPrr := dict.predictedPrr
  predictedPir := dict.predictedPirS
  predictedCbr := dict.predictedCbr
  success := dict.success
  solverStatus := escapeText dict.solverStatus

/-- A response that reads back is parsed into its own fields. -/
theorem ReadsBack.parseResponse_eq {printFloat : ℚ → Text} {dict : ResponseDict}
    (reads : ReadsBack printFloat dict) :
    parseResponse stod (dumpedText printFloat dict) = .ok dict.parsed := by
  have hnumbers := reads.numbers
  simp only [ResponseDict.numberFields, List.forall_mem_cons] at hnumbers
  obtain ⟨hpower, hsolve, hobjective, hup, hyp, hdp, hdf, hprr, hpir, hcbr, -⟩ := hnumbers
  rw [parseResponse, hpower, hsolve, hobjective, hup, hyp, hdp, hdf, hprr, hpir, hcbr, reads.flag,
    reads.status]
  rfl

/-! ## Passing over the fields in front -/

section Reading

variable {printFloat : ℚ → Text} {dict : ResponseDict}

theorem Spelled.quote_notMem {number : ℚ} (spelled : Spelled printFloat number) :
    '"' ∉ printFloat number := fun hmem =>
  absurd (spelled.chars _ hmem) (by decide)

/-- Every front value is without quotes, but for the solver status. -/
theorem front_values_dict (spelled : ∀ number ∈ dict.allFloats, Spelled printFloat number) :
    ∀ value ∈ dict.front.map Prod.snd,
      value = .string dict.solverStatus ∨ '"' ∉ print printFloat 1 value := by
  have hfloat : ∀ number ∈ dict.allFloats, '"' ∉ print printFloat 1 (.float number) := by
    intro number hmem
    rw [print]
    exact (spelled number hmem).quote_notMem
  have hfloats : ∀ numbers : List ℚ, (∀ number ∈ numbers, number ∈ dict.allFloats) →
      '"' ∉ print printFloat 1 (floats numbers) := fun numbers hall =>
    quote_notMem_printFloats fun number hmem => (spelled number (hall number hmem)).quote_notMem
  have hoptional : ∀ field ∈ dict.numberFields,
      '"' ∉ print printFloat 1 (optionalFloat field.2) := by
    intro field hfield
    cases hnumber : field.2 with
    | none =>
        rw [optionalFloat, print]
        decide
    | some number =>
        refine hfloat number (List.mem_cons_of_mem _ ?_)
        simp only [List.mem_append]
        iterate 6 left
        exact List.mem_filterMap.mpr ⟨field, hfield, hnumber⟩
  simp only [ResponseDict.numberFields, List.forall_mem_cons] at hoptional
  obtain ⟨hpower, hsolve, hobjective, hup, hyp, hdp, hdf, hprr, hpir, hcbr, -⟩ := hoptional
  simp only [ResponseDict.front, ResponseDict.opening, ResponseDict.middle, List.cons_append,
    List.nil_append, List.map_cons, List.map_nil, List.forall_mem_cons]
  refine ⟨Or.inr (by rw [print]; exact quote_notMem_printInt _),
    Or.inr (hfloat _ List.mem_cons_self), Or.inr (quote_notMem_bool _), Or.inl trivial,
    Or.inr hpower, Or.inr (hfloats _ ?_), Or.inr hprr, Or.inr hpir, Or.inr hcbr,
    Or.inr (hfloats _ ?_), Or.inr (hfloats _ ?_), Or.inr (hfloats _ ?_), Or.inr hobjective,
    Or.inr hsolve, Or.inr hup, Or.inr hyp, Or.inr hdp, Or.inr hdf,
    fun _ hmem => absurd hmem List.not_mem_nil⟩
  all_goals
    intro number hmem
    simp [ResponseDict.allFloats, hmem]

/-- The search for a key passes over the fields before it, unless one of them spells the key. -/
theorem passedFields_front (spelled : ∀ number ∈ dict.allFloats, Spelled printFloat number)
    (hquote : '"' ∉ dict.solverStatus) {key : Text} {value : Value}
    {earlier later : List (Text × Value)} (hsplit : dict.front = earlier ++ (key, value) :: later)
    (hspells : (∃ field ∈ earlier, field.2 = .string dict.solverStatus) →
      escapeText dict.solverStatus ≠ key) :
    PlainName key ∧ PassedFields printFloat key earlier := by
  have hnames := dict.front_names
  rw [hsplit, List.map_append, List.map_cons] at hnames
  have hplain : ∀ name ∈ earlier.map Prod.fst ++ key :: later.map Prod.fst, PlainName name :=
    fun name hmem => frontNames_plain name (hnames ▸ hmem)
  have hnodup := frontNames_nodup
  rw [← hnames] at hnodup
  have hkey := hplain key (List.mem_append_right _ List.mem_cons_self)
  refine ⟨hkey, fun field hfield => ?_⟩
  have hname : field.1 ∈ earlier.map Prod.fst := List.mem_map_of_mem hfield
  refine ⟨hplain _ (List.mem_append_left _ hname), ?_, ?_⟩
  · intro same
    exact (List.nodup_append.mp hnodup).2.2 _ hname _ List.mem_cons_self same
  · have hin : field ∈ dict.front := hsplit ▸ List.mem_append_left _ hfield
    rcases front_values_dict spelled field.2 (List.mem_map_of_mem hin) with hstatus | hfree
    · rw [hstatus]
      exact passed_escaped hkey (quote_notMem_escapeText hquote) (hspells ⟨field, hfield, hstatus⟩)
    · exact passed_of_plain hfree

/-! ## Reading each field -/

/-- What `stod` makes of a serialised number. -/
def stodOf : Option ℚ → Except StodError (Option ℚ)
  | none => .ok none
  | some number =>
      if Overflows number ∨ Underflows number then .error .outOfRange else .ok (some number)

theorem stodOf_eq_ok_iff {number found : Option ℚ}
    (hfinite : ∀ value ∈ number, ¬ Overflows value) :
    stodOf number = .ok found ↔ number = found ∧ ∀ value ∈ number, ¬ Underflows value := by
  cases number with
  | none => simp [stodOf]
  | some value =>
      have hnot := hfinite value rfl
      by_cases hsmall : Underflows value
      · simp [stodOf, hsmall]
      · simp [stodOf, hnot, hsmall]

theorem Spelled.nonempty {number : ℚ} (spelled : Spelled printFloat number) :
    printFloat number ≠ [] := by
  intro hempty
  obtain ⟨rest, hreads⟩ := spelled.reads
  rw [hempty] at hreads
  cases hreads

theorem Spelled.stod_eq {number : ℚ} (spelled : Spelled printFloat number) :
    stod (printFloat number) =
      if Overflows number ∨ Underflows number then .error .outOfRange else .ok number := by
  obtain ⟨rest, hreads⟩ := spelled.reads
  have hspaces : skipSpaces (printFloat number) = printFloat number := by
    cases htext : printFloat number with
    | nil => rfl
    | cons first tail =>
        have hfirst := spelled.chars first (htext ▸ List.mem_cons_self)
        rw [skipSpaces, List.dropWhile_cons_of_neg]
        rw [isSpace_eq_false_of_isNumberChar hfirst]
        decide
  rw [stod, hspaces, hreads]

/-- Behind the colon stands the number or a null. -/
theorem extractJsonNumber_of_colon {content key sep : Text} {number : Option ℚ}
    (spelled : ∀ value ∈ number, Spelled printFloat value) (hsep : Separator sep)
    (hcolon : afterColon content key =
      some (' ' :: (print printFloat 1 (optionalFloat number) ++ sep))) :
    extractJsonNumber stod content key = stodOf number := by
  cases number with
  | none =>
      rw [optionalFloat, print] at hcolon
      simp only [extractJsonNumber, numberRun_null hcolon, stodOf]
  | some value =>
      have hspelled := spelled value rfl
      rw [optionalFloat, print] at hcolon
      have hrun := numberRun_of_colon hsep hspelled.nonempty hspelled.chars hcolon
      simp only [extractJsonNumber, hrun, hspelled.stod_eq, stodOf]
      by_cases hthrows : Overflows value ∨ Underflows value
      · simp only [if_pos hthrows]
      · simp only [if_neg hthrows]

theorem mem_allFloats {field : Text × Option ℚ} (hfield : field ∈ dict.numberFields) {number : ℚ}
    (hnumber : number ∈ field.2) : number ∈ dict.allFloats := by
  have hmem : number ∈ dict.numberFields.filterMap Prod.snd :=
    List.mem_filterMap.mpr ⟨field, hfield, hnumber⟩
  simp [ResponseDict.allFloats, hmem]

/-- Every number field is one of the front fields. -/
theorem numberFields_mem_front :
    ∀ field ∈ dict.numberFields, (field.1, optionalFloat field.2) ∈ dict.front := by
  have hmem : ∀ (i : Nat) (field : Text × Value), dict.front[i]? = some field →
      field ∈ dict.front := fun i field => List.mem_of_getElem?
  simp only [ResponseDict.numberFields, List.forall_mem_cons]
  exact ⟨hmem 4 _ rfl, hmem 13 _ rfl, hmem 12 _ rfl, hmem 14 _ rfl, hmem 15 _ rfl, hmem 16 _ rfl,
    hmem 17 _ rfl, hmem 6 _ rfl, hmem 7 _ rfl, hmem 8 _ rfl,
    fun _ hnone => absurd hnone List.not_mem_nil⟩

/-- A number is read from its own field when the status does not spell its key. -/
theorem extract_unspelled (spelled : ∀ number ∈ dict.allFloats, Spelled printFloat number)
    (hquote : '"' ∉ dict.solverStatus) {field : Text × Option ℚ}
    (hfield : field ∈ dict.numberFields) (hne : escapeText dict.solverStatus ≠ field.1) :
    extractJsonNumber stod (dumpedText printFloat dict) field.1 = stodOf field.2 := by
  obtain ⟨earlier, later, hsplit⟩ := List.append_of_mem (numberFields_mem_front field hfield)
  obtain ⟨hkey, hpassed⟩ := passedFields_front spelled hquote hsplit fun _ => hne
  obtain ⟨sep, hsep, hcolon⟩ := @afterColon_field printFloat field.1 (optionalFloat field.2) earlier
    (later ++ dict.closing) hkey hpassed
  refine extractJsonNumber_of_colon
    (fun value hvalue => spelled value (mem_allFloats hfield hvalue)) hsep ?_
  rw [dumpedText, dict.payload_eq, hsplit, List.append_assoc]
  exact hcolon

theorem opening_passed (spelled : ∀ number ∈ dict.allFloats, Spelled printFloat number)
    {key : Text} (hlater : key ∉ dict.opening.map Prod.fst) :
    PassedFields printFloat key dict.opening := by
  intro field hfield
  have hin : field ∈ dict.front := List.mem_append_left _ hfield
  have hname : field.1 ∈ dict.front.map Prod.fst := List.mem_map_of_mem hin
  refine ⟨frontNames_plain _ (dict.front_names ▸ hname), ?_, ?_⟩
  · intro same
    exact hlater (same ▸ List.mem_map_of_mem hfield)
  · have hfree : '"' ∉ print printFloat 1 field.2 := by
      rcases front_values_dict spelled field.2 (List.mem_map_of_mem hin) with hstatus | hfree
      · revert hstatus
        simp only [ResponseDict.opening, List.mem_cons, List.not_mem_nil, or_false] at hfield
        rcases hfield with rfl | rfl | rfl <;> intro hstatus <;> cases hstatus
      · exact hfree
    exact passed_of_plain hfree

/-- A number whose key the status spells is read from the field behind the status. -/
theorem extract_spelled (spelled : ∀ number ∈ dict.allFloats, Spelled printFloat number)
    {field : Text × Option ℚ}
    (hfield : field ∈ dict.numberFields) (hsame : escapeText dict.solverStatus = field.1) :
    extractJsonNumber stod (dumpedText printFloat dict) field.1 =
      stodOf (some dict.txPowerDbm) := by
  have hkey : field.1 ∈ frontNames := by
    have hmem := numberFields_mem_front field hfield
    exact dict.front_names ▸ List.mem_map_of_mem (f := Prod.fst) hmem
  have hkeys : ∀ other ∈ dict.numberFields, other.1 ∉ dict.opening.map Prod.fst ∧
      solverStatusKey ≠ other.1 := by
    simp only [ResponseDict.numberFields, List.forall_mem_cons, ResponseDict.opening]
    refine ⟨?_, ?_, ?_, ?_, ?_, ?_, ?_, ?_, ?_, ?_, fun _ hnone => absurd hnone List.not_mem_nil⟩
    all_goals
      show _ ∉ ["step".toList, "time_s".toList, "success".toList] ∧ _
      decide +kernel
  obtain ⟨hlater, hstatus⟩ := hkeys field hfield
  have hpassed := opening_passed spelled hlater
  obtain ⟨sep, hsep, hcolon⟩ := @afterColon_spelled printFloat field.1 solverStatusKey powerKey
    dict.solverStatus (.float dict.txPowerDbm) dict.opening (dict.middle ++ dict.closing)
    (frontNames_plain _ hkey) hpassed (frontNames_plain _ (by decide +kernel)) hstatus hsame
    (by decide +kernel)
  exact extractJsonNumber_of_colon (fun value hvalue => by
    obtain rfl := Option.some.inj hvalue
    exact spelled _ (@mem_allFloats dict _ List.mem_cons_self _ rfl)) hsep hcolon

/-- The flag and the status come before everything that could spell their keys. -/
theorem extract_flag_status (spelled : ∀ number ∈ dict.allFloats, Spelled printFloat number)
    (hquote : '"' ∉ dict.solverStatus) :
    extractJsonBool (dumpedText printFloat dict) successKey = some dict.success ∧
      extractJsonString (dumpedText printFloat dict) solverStatusKey =
        some (escapeText dict.solverStatus) := by
  constructor
  · have hsplit : dict.front = [("step".toList, Value.int dict.step),
        ("time_s".toList, .float dict.timeS)] ++ (successKey, .bool dict.success) ::
          ((solverStatusKey, .string dict.solverStatus) :: (powerKey, .float dict.txPowerDbm) ::
            dict.middle) := rfl
    obtain ⟨hkey, hpassed⟩ := passedFields_front spelled hquote hsplit (by
      rintro ⟨field, hmem, hstatus⟩
      simp only [List.mem_cons, List.not_mem_nil, or_false] at hmem
      rcases hmem with rfl | rfl <;> cases hstatus)
    obtain ⟨sep, -, hcolon⟩ := @afterColon_field printFloat successKey (.bool dict.success) _
      (((solverStatusKey, .string dict.solverStatus) :: (powerKey, .float dict.txPowerDbm) ::
        dict.middle) ++ dict.closing) hkey hpassed
    exact extractJsonBool_of_colon hcolon
  · have hlater : solverStatusKey ∉ dict.opening.map Prod.fst := by
      show _ ∉ ["step".toList, "time_s".toList, "success".toList]
      decide +kernel
    have hpassed := opening_passed spelled hlater
    obtain ⟨sep, -, hcolon⟩ := @afterColon_field printFloat solverStatusKey
      (.string dict.solverStatus) dict.opening
      ((powerKey, .float dict.txPowerDbm) :: (dict.middle ++ dict.closing))
      (frontNames_plain _ (by decide +kernel)) hpassed
    rw [print] at hcolon
    exact extractJsonString_of_colon (quote_notMem_escapeText hquote) hcolon

end Reading

/-! ## When a response reads back -/

theorem escapeText_eq_key_iff {status key : Text} (hkey : key ∈ frontNames) :
    escapeText status = key ↔ status = key := by
  have hslash : ∀ name ∈ frontNames, '\\' ∉ name := by decide +kernel
  constructor
  · intro hsame
    rw [← hsame, escapeText_eq_self (hsame ▸ hslash key hkey)]
  · rintro rfl
    exact (frontNames_plain _ hkey).2.1

theorem makeResponseDict_status {request : Request} {result : ResultDict}
    {previousPower solveTime : ℚ} {dict : ResponseDict}
    (hdict : makeResponseDict request result previousPower solveTime = .ok dict) :
    dict.solverStatus = result.solverStatus := by
  simp only [makeResponseDict, bind_ok_iff] at hdict
  obtain ⟨step, -, timeS, -, power, -, prr, -, pir, -, cbr, -, hresponse⟩ := hdict
  obtain rfl := Except.ok.inj hresponse
  rfl

/--
A dictionary of finite numbers and a status without quotes reads back exactly
when `stod` throws on none of the numbers and the status spells no key that
hands another number to the reader.
-/
theorem response_readsBack_iff (printFloat : ℚ → Text) (request : Request) (result : ResultDict)
    (previousPower solveTime : ℚ) (dict : ResponseDict)
    (hdict : makeResponseDict request result previousPower solveTime = .ok dict)
    (spelled : ∀ number ∈ dict.allFloats, Spelled printFloat number)
    (hfinite : ∀ number ∈ dict.allFloats, ¬ Overflows number)
    (hquote : '"' ∉ result.solverStatus) :
    ReadsBack printFloat dict ↔ Readable dict := by
  rw [← makeResponseDict_status hdict] at hquote
  have hfields : ∀ field ∈ dict.numberFields, ∀ value ∈ field.2, ¬ Overflows value :=
    fun field hfield value hvalue => hfinite value (mem_allFloats hfield hvalue)
  have hpower : (powerKey, some dict.txPowerDbm) ∈ dict.numberFields := List.mem_cons_self
  have hkeys : ∀ field ∈ dict.numberFields, field.1 ∈ frontNames := fun field hfield =>
    dict.front_names ▸ List.mem_map_of_mem (f := Prod.fst) (numberFields_mem_front field hfield)
  have hread : ∀ field ∈ dict.numberFields,
      extractJsonNumber stod (dumpedText printFloat dict) field.1 =
        if dict.solverStatus = field.1 then stodOf (some dict.txPowerDbm) else stodOf field.2 := by
    intro field hfield
    by_cases hsame : dict.solverStatus = field.1
    · rw [if_pos hsame]
      exact extract_spelled spelled hfield ((escapeText_eq_key_iff (hkeys field hfield)).mpr hsame)
    · rw [if_neg hsame]
      exact extract_unspelled spelled hquote hfield
        fun hescaped => hsame ((escapeText_eq_key_iff (hkeys field hfield)).mp hescaped)
  constructor
  · intro reads
    have hspelled : ∀ field ∈ dict.numberFields, dict.solverStatus = field.1 →
        some dict.txPowerDbm = field.2 ∧ ∀ value ∈ some dict.txPowerDbm, ¬ Underflows value := by
      intro field hfield hsame
      have hnumber := reads.numbers field hfield
      rw [hread field hfield, if_pos hsame] at hnumber
      exact (stodOf_eq_ok_iff (hfields _ hpower)).mp hnumber
    refine ⟨?_, fun field hfield hsame => (hspelled field hfield hsame).1.symm⟩
    intro field hfield
    by_cases hsame : dict.solverStatus = field.1
    · obtain ⟨hnumber, hnormal⟩ := hspelled field hfield hsame
      rwa [hnumber] at hnormal
    · have hnumber := reads.numbers field hfield
      rw [hread field hfield, if_neg hsame] at hnumber
      exact ((stodOf_eq_ok_iff (hfields field hfield)).mp hnumber).2
  · rintro ⟨hnormal, hstatus⟩
    obtain ⟨hflag, htext⟩ := extract_flag_status spelled hquote
    refine ⟨?_, hflag, htext⟩
    intro field hfield
    rw [hread field hfield]
    by_cases hsame : dict.solverStatus = field.1
    · rw [if_pos hsame, hstatus field hfield hsame]
      exact (stodOf_eq_ok_iff (hfields _ hpower)).mpr ⟨rfl, hnormal _ hpower⟩
    · rw [if_neg hsame]
      exact (stodOf_eq_ok_iff (hfields field hfield)).mpr ⟨rfl, hnormal field hfield⟩

/-! ## Responses of `solve` -/

/-- The dictionary of a result with a plan of three tables or none. -/
def SolveResult.toDict (result : SolveResult) : ResultDict where
  success := result.success
  solverStatus := result.solverStatus
  objective := result.objective
  futurePower := planColumn result.plan Plan.futurePower
  futureY := match result.plan with | none => [] | some plan => List.ofFn plan.futureY
  futureContext := match result.plan with | none => [] | some plan => List.ofFn plan.futureContext
  maxUpResidual := result.residuals.map Residuals.maxUp
  maxYpResidual := result.residuals.map Residuals.maxYp
  maxDpResidual := result.residuals.map Residuals.maxDp
  maxDfResidual := result.residuals.map Residuals.maxDf
  error := result.error

/-- The dictionary of a response of `solve`. -/
def Response.toDict (response : Response) : ResponseDict where
  step := response.step
  timeS := response.timeS
  success := response.success
  solverStatus := response.solverStatus
  txPowerDbm := response.txPowerDbm
  futureTxPowerDbm := planColumn response.plan Plan.futurePower
  predictedPrr := predicted response.plan prrColumn
  predictedPirS := predicted response.plan pirColumn
  predictedCbr := predicted response.plan cbrColumn
  predictedPrrHorizon := planColumn response.plan fun plan t => plan.futureY t prrColumn
  predictedPirSHorizon := planColumn response.plan fun plan t => plan.futureY t pirColumn
  predictedCbrHorizon := planColumn response.plan fun plan t => plan.futureY t cbrColumn
  objective := response.objective
  solveTimeS := response.solveTimeS
  maxUpResidual := response.residuals.map Residuals.maxUp
  maxYpResidual := response.residuals.map Residuals.maxYp
  maxDpResidual := response.residuals.map Residuals.maxDp
  maxDfResidual := response.residuals.map Residuals.maxDf
  activeVehicleForecast := planColumn response.plan fun plan t => plan.futureContext t vehicleColumn
  beaconIntervalForecast := planColumn response.plan fun plan t => plan.futureContext t beaconColumn
  error := response.error

theorem Response.toDict_payload (response : Response) :
    response.toDict.payload = response.payload := rfl

theorem columnOf_plan {width : Nat} (plan : Plan) (table : Plan → Fin horizon → Fin width → ℚ)
    (i : Fin width) :
    columnOf true (List.ofFn (table plan)) i = planColumn (some plan) fun p t => table p t i := by
  simp only [columnOf, planColumn, List.map_ofFn, if_true]
  rfl

/-- The response of a result is the dictionary made of it. -/
theorem makeResponse_toDict {request : Request} {result : SolveResult}
    (hplan : result.success = result.plan.isSome) (previousPower solveTime : ℚ)
    {response : Response} (hresponse : makeResponse request result previousPower solveTime =
      .ok response) :
    makeResponseDict request result.toDict previousPower solveTime = .ok response.toDict := by
  simp only [makeResponse, bind_ok_iff] at hresponse
  obtain ⟨step, hstep, timeS, htime, hresponse⟩ := hresponse
  obtain rfl := Except.ok.inj hresponse
  obtain ⟨success, status, objective, plan, residuals, error⟩ := result
  cases plan with
  | none =>
      obtain rfl : success = false := hplan
      simp only [makeResponseDict, hstep, htime]
      rfl
  | some plan =>
      obtain rfl : success = true := hplan
      have hY := columnOf_plan plan Plan.futureY
      have hContext := columnOf_plan plan Plan.futureContext
      simp only [makeResponseDict, hstep, htime, SolveResult.toDict, hY, hContext]
      rfl

/-- A result of `solve` has a plan exactly when it is a success. -/
theorem solveResult_plan (controller : TxPowerDeepc) (request : Request) (outcome : SolverOutcome) :
    (solveResult controller request outcome).success =
      (solveResult controller request outcome).plan.isSome := by
  unfold solveResult
  split
  · rfl
  · unfold resultOf
    split
    · rfl
    · split
      · rfl
      · split
        · rfl
        · dsimp only
          split <;> rfl

theorem solve_toDict {controller : TxPowerDeepc} {request : Request} {outcome : SolverOutcome}
    {solveTime : ℚ} {response : Response}
    (hsolve : solve controller request outcome solveTime = .ok response) :
    ∃ previousPower, makeResponseDict request (solveResult controller request outcome).toDict
      previousPower solveTime = .ok response.toDict := by
  simp only [solve, bind_ok_iff] at hsolve
  obtain ⟨previousU, -, previousPower, -, hresponse⟩ := hsolve
  exact ⟨previousPower, makeResponse_toDict (solveResult_plan controller request outcome) _ _
    hresponse⟩

/-! ## Samples -/

/-- The smallest subnormal double as Python prints it. -/
def tiny : ℚ := 5 / 10 ^ 324

def reprFloat (number : ℚ) : Text := if number = tiny then "5e-324".toList else plainFloat number

instance (number : ℚ) : Decidable (Spelled reprFloat number) :=
  decidable_of_iff ((reprFloat number).all isNumberChar = true ∧
      (readDecimal (reprFloat number)).map Prod.fst = some number)
    ⟨fun h => ⟨List.all_eq_true.mp h.1, by
        obtain ⟨⟨value, rest⟩, hread, rfl⟩ := Option.map_eq_some_iff.mp h.2
        exact ⟨rest, hread⟩⟩,
      fun h => ⟨List.all_eq_true.mpr h.chars, by
        obtain ⟨rest, hread⟩ := h.reads
        rw [hread]
        rfl⟩⟩

/-- One step ahead, with two residuals absent. -/
def sampleResult (status : Text) (objective : ℚ) : ResultDict where
  success := true
  solverStatus := status
  objective := some objective
  futurePower := [31 / 2]
  futureY := [![1 / 2, 1 / 10, 1 / 4]]
  futureContext := [![3, 1 / 10]]
  maxUpResidual := some 0
  maxYpResidual := some (1 / 1000)
  maxDpResidual := none
  maxDfResidual := none
  error := some "\"objective\": 7".toList

def sampleDict (status : Text) (objective : ℚ) : ResponseDict where
  step := 0
  timeS := 21 / 2
  success := true
  solverStatus := status
  txPowerDbm := 31 / 2
  futureTxPowerDbm := [31 / 2]
  predictedPrr := some (1 / 2)
  predictedPirS := some (1 / 10)
  predictedCbr := some (1 / 4)
  predictedPrrHorizon := [1 / 2]
  predictedPirSHorizon := [1 / 10]
  predictedCbrHorizon := [1 / 4]
  objective := some objective
  solveTimeS := 1 / 4
  maxUpResidual := some 0
  maxYpResidual := some (1 / 1000)
  maxDpResidual := none
  maxDfResidual := none
  activeVehicleForecast := [3]
  beaconIntervalForecast := [1 / 10]
  error := some "\"objective\": 7".toList

theorem makeResponseDict_sample (status : Text) (objective : ℚ) :
    makeResponseDict (flatRequest 20) (sampleResult status objective) 20 (1 / 4) =
      .ok (sampleDict status objective) := rfl

theorem response_readsBack_iff_optimal :
    ReadsBack reprFloat (sampleDict "optimal".toList 7) ↔
      Readable (sampleDict "optimal".toList 7) :=
  response_readsBack_iff reprFloat (flatRequest 20) (sampleResult "optimal".toList 7) 20 (1 / 4) _
    (makeResponseDict_sample _ _) (by decide +kernel) (by decide +kernel) (by decide +kernel)

/-- A subnormal objective makes the reader throw, and a status that spells the key of the
objective makes it read the power. -/
theorem response_not_readsBack :
    (∀ number ∈ (sampleDict "optimal".toList tiny).allFloats,
        Spelled reprFloat number ∧ ¬ Overflows number) ∧
      extractJsonNumber stod (dumpedText reprFloat (sampleDict "optimal".toList tiny))
        "objective".toList = .error .outOfRange ∧
      extractJsonNumber stod (dumpedText reprFloat (sampleDict "objective".toList 7))
        "objective".toList = .ok (some (31 / 2)) ∧
      ¬ ReadsBack reprFloat (sampleDict "optimal".toList tiny) ∧
      ¬ ReadsBack reprFloat (sampleDict "objective".toList 7) := by
  have hthrows : extractJsonNumber stod (dumpedText reprFloat (sampleDict "optimal".toList tiny))
      "objective".toList = .error .outOfRange := by
    decide +kernel
  have hpower : extractJsonNumber stod (dumpedText reprFloat (sampleDict "objective".toList 7))
      "objective".toList = .ok (some (31 / 2)) := by
    decide +kernel
  refine ⟨by decide +kernel, hthrows, hpower, ?_, ?_⟩
  · intro reads
    have hfield := @List.mem_of_getElem? _ (sampleDict "optimal".toList tiny).numberFields 2 _ rfl
    have hnumber := reads.numbers _ hfield
    rw [hthrows] at hnumber
    cases hnumber
  · intro reads
    have hfield := @List.mem_of_getElem? _ (sampleDict "objective".toList 7).numberFields 2 _ rfl
    have hnumber := reads.numbers _ hfield
    rw [hpower] at hnumber
    have hne : (31 / 2 : ℚ) ≠ 7 := by decide +kernel
    exact hne (Option.some.inj (Except.ok.inj hnumber))

end DeepcV2x.Controller
