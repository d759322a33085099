import DeepcV2x.Foundation.Decimal

/-!
# Reading a controller response

The three field extractors and the part of `RequestControl` that turns the
response text into a command.  `stod` is a parameter, so the same reader can be
run with exact decimals or with any other number format; its exceptions are
not caught.
-/

namespace DeepcV2x.Bridge

open DeepcV2x.Foundation.Strings DeepcV2x.Foundation.Decimal

/-! ## Field extractors -/

def quoted (key : Text) : Text := '"' :: (key ++ ['"'])

/-- What follows the first colon after the first quoted key. -/
def afterColon (content key : Text) : Option Text :=
  match afterFirst (quoted key) content with
  | none => none
  | some rest => afterFirst [':'] rest

/-- The characters `ExtractJsonNumber` hands to `std::stod`. -/
def numberRun (content key : Text) : Option Text :=
  match afterColon content key with
  | none => none
  | some tail =>
      let run := (skipSpaces tail).takeWhile isNumberChar
      if run = [] then none else some run

/-- `none` where the extractor returns false and leaves the value alone. -/
def extractJsonNumber (stod : Text → Except StodError ℚ) (content key : Text) :
    Except StodError (Option ℚ) :=
  match numberRun content key with
  | none => .ok none
  | some run =>
      match stod run with
      | .error error => .error error
      | .ok value => .ok (some value)

def extractJsonBool (content key : Text) : Option Bool :=
  match afterColon content key with
  | none => none
  | some tail =>
      if "true".toList.isPrefixOf (skipSpaces tail) then some true
      else if "false".toList.isPrefixOf (skipSpaces tail) then some false
      else none

def extractJsonString (content key : Text) : Option Text :=
  match afterColon content key with
  | none => none
  | some tail =>
      match afterFirst ['"'] tail with
      | none => none
      | some rest =>
          if '"' ∈ rest then some (rest.takeWhile (· ≠ '"')) else none

/-! ## The response -/

/-- The fields `RequestControl` parses, with its defaults: `none` stands for NaN, and for an
infinite residual. -/
structure ParsedResponse where
  power : Option ℚ
  solveTimeS : ℚ
  objective : Option ℚ
  maxUpResidual : Option ℚ
  maxYpResidual : Option ℚ
  maxDpResidual : ℚ
  maxDfResidual : ℚ
  predictedPrr : Option ℚ
  predictedPir : Option ℚ
  predictedCbr : Option ℚ
  success : Bool
  solverStatus : Text
  deriving DecidableEq, Repr

def powerKey : Text := "tx_power_dbm".toList
def successKey : Text := "success".toList
def solverStatusKey : Text := "solver_status".toList

/-- The keys of the number fields, in the order they are read. -/
def numberKeys : List Text :=
  [powerKey, "solve_time_s".toList, "objective".toList, "max_up_residual".toList,
    "max_yp_residual".toList, "max_dp_residual".toList, "max_df_residual".toList,
    "predicted_prr".toList, "predicted_pir_s".toList, "predicted_cbr".toList]

def parseResponse (stod : Text → Except StodError ℚ) (content : Text) :
    Except StodError ParsedResponse := do
  let power ← extractJsonNumber stod content powerKey
  let solveTimeS ← extractJsonNumber stod content "solve_time_s".toList
  let objective ← extractJsonNumber stod content "objective".toList
  let maxUpResidual ← extractJsonNumber stod content "max_up_residual".toList
  let maxYpResidual ← extractJsonNumber stod content "max_yp_residual".toList
  let maxDpResidual ← extractJsonNumber stod content "max_dp_residual".toList
  let maxDfResidual ← extractJsonNumber stod content "max_df_residual".toList
  let predictedPrr ← extractJsonNumber stod content "predicted_prr".toList
  let predictedPir ← extractJsonNumber stod content "predicted_pir_s".toList
  let predictedCbr ← extractJsonNumber stod content "predicted_cbr".toList
  return {
    power := power
    solveTimeS := solveTimeS.getD 0
    objective := objective
    maxUpResidual := maxUpResidual
    maxYpResidual := maxYpResidual
    maxDpResidual := maxDpResidual.getD 0
    maxDfResidual := maxDfResidual.getD 0
    predictedPrr := predictedPrr
    predictedPir := predictedPir
    predictedCbr := predictedCbr
    success := (extractJsonBool content successKey).getD false
    solverStatus := (extractJsonString content solverStatusKey).getD "missing".toList }

/-! ## The command -/

structure InputCommand where
  timeS : ℚ
  txPowerDbm : ℚ
  beaconIntervalS : ℚ
  deriving DecidableEq, Repr

/-- The power limits and the beacon interval of the bridge. -/
structure ControlLimits where
  minPowerDbm : ℚ
  maxPowerDbm : ℚ
  fixedBeaconIntervalS : ℚ
  deriving DecidableEq, Repr

/-- Tolerance of the power limits. -/
def kPowerEps : ℚ := 1 / 1000000000

/-- A power `RequestControl` accepts. -/
def ControlLimits.InRange (limits : ControlLimits) (power : ℚ) : Prop :=
  limits.minPowerDbm - kPowerEps ≤ power ∧ power ≤ limits.maxPowerDbm + kPowerEps

instance (limits : ControlLimits) (power : ℚ) : Decidable (limits.InRange power) :=
  inferInstanceAs (Decidable (_ ∧ _))

/-- The power of a response classified as successful. -/
def acceptedPower (limits : ControlLimits) (parsed : ParsedResponse) : Option ℚ :=
  match parsed.power with
  | none => none
  | some power => if parsed.success = true ∧ limits.InRange power then some power else none

/-- What a call returns and logs. -/
structure ControlResult where
  command : InputCommand
  responseSuccess : Bool
  parsed : ParsedResponse
  deriving DecidableEq, Repr

/-- `RequestControl` from the response text on. -/
def requestControl (stod : Text → Except StodError ℚ) (limits : ControlLimits) (timeS : ℚ)
    (previousU : InputCommand) (content : Text) : Except StodError ControlResult :=
  match parseResponse stod content with
  | .error error => .error error
  | .ok parsed =>
      let accepted := acceptedPower limits parsed
      .ok {
        command := ⟨timeS, accepted.getD previousU.txPowerDbm, limits.fixedBeaconIntervalS⟩
        responseSuccess := accepted.isSome
        parsed := parsed }

/-! ## When the reader throws -/

variable (stod : Text → Except StodError ℚ)

/-- The run located for a key, if any, is a number `stod` accepts. -/
def RunAccepted (content key : Text) : Prop :=
  ∀ run, numberRun content key = some run → ∃ value, stod run = .ok value

variable {stod}

theorem extractJsonNumber_ok_iff (content key : Text) :
    (∃ value, extractJsonNumber stod content key = .ok value) ↔ RunAccepted stod content key := by
  simp only [extractJsonNumber, RunAccepted]
  cases numberRun content key with
  | none => simp
  | some run =>
      cases hvalue : stod run with
      | error error => simp [hvalue]
      | ok value => simp [hvalue]

instance (content key : Text) : Decidable (RunAccepted stod content key) :=
  match hread : extractJsonNumber stod content key with
  | .ok value => .isTrue ((extractJsonNumber_ok_iff content key).mp ⟨value, hread⟩)
  | .error _ => .isFalse fun haccepted => by
      obtain ⟨value, hok⟩ := (extractJsonNumber_ok_iff content key).mpr haccepted
      rw [hread] at hok
      cases hok

/-- A chain of readers succeeds when its first reader and the rest of the chain do. -/
theorem bind_ok_iff {Error First Last : Type} {first : Except Error First}
    {next : First → Except Error Last} {last : Last} :
    (first >>= next) = .ok last ↔ ∃ value, first = .ok value ∧ next value = .ok last := by
  cases first with
  | error error =>
      constructor
      · intro h
        cases h
      · rintro ⟨value, h, -⟩
        cases h
  | ok value =>
      constructor
      · intro h
        exact ⟨value, rfl, h⟩
      · rintro ⟨other, h, hnext⟩
        rw [Except.ok.inj h]
        exact hnext

/-- The response parses exactly when every number run it reads is accepted. -/
theorem parseResponse_ok_iff (content : Text) :
    (∃ parsed, parseResponse stod content = .ok parsed) ↔
      ∀ key ∈ numberKeys, RunAccepted stod content key := by
  simp only [numberKeys, List.forall_mem_cons, ← extractJsonNumber_ok_iff]
  constructor
  · rintro ⟨parsed, hok⟩
    simp only [parseResponse, bind_ok_iff] at hok
    obtain ⟨v1, h1, v2, h2, v3, h3, v4, h4, v5, h5, v6, h6, v7, h7, v8, h8, v9, h9, v10, h10, -⟩ :=
      hok
    exact ⟨⟨v1, h1⟩, ⟨v2, h2⟩, ⟨v3, h3⟩, ⟨v4, h4⟩, ⟨v5, h5⟩, ⟨v6, h6⟩, ⟨v7, h7⟩, ⟨v8, h8⟩,
      ⟨v9, h9⟩, ⟨v10, h10⟩, by simp⟩
  · rintro ⟨⟨v1, h1⟩, ⟨v2, h2⟩, ⟨v3, h3⟩, ⟨v4, h4⟩, ⟨v5, h5⟩, ⟨v6, h6⟩, ⟨v7, h7⟩, ⟨v8, h8⟩,
      ⟨v9, h9⟩, ⟨v10, h10⟩, -⟩
    simp only [parseResponse, bind_ok_iff]
    exact ⟨_, v1, h1, v2, h2, v3, h3, v4, h4, v5, h5, v6, h6, v7, h7, v8, h8, v9, h9, v10, h10,
      rfl⟩

/-- The two fields the classification reads. -/
theorem parseResponse_fields {content : Text} {parsed : ParsedResponse}
    (hok : parseResponse stod content = .ok parsed) :
    extractJsonNumber stod content powerKey = .ok parsed.power ∧
      parsed.success = (extractJsonBool content successKey).getD false := by
  simp only [parseResponse, bind_ok_iff] at hok
  obtain ⟨v1, h1, v2, -, v3, -, v4, -, v5, -, v6, -, v7, -, v8, -, v9, -, v10, -, hlast⟩ := hok
  have hparsed := Except.ok.inj hlast
  rw [← hparsed]
  exact ⟨h1, rfl⟩

end DeepcV2x.Bridge
