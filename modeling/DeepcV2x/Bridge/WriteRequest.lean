import DeepcV2x.Bridge.History
import DeepcV2x.Bridge.Response
import DeepcV2x.Foundation.JsonRead

/-!
# Writing a request

The text `WriteRequest` emits for a history, and that it is a JSON object with
the buffered samples rounded to 12 significant digits.
-/

namespace DeepcV2x.Bridge

open DeepcV2x.Foundation.Strings DeepcV2x.Foundation.Json DeepcV2x.Foundation.Numerals
open DeepcV2x.Kpi

/-! ## The text -/

/-- `std::setprecision(12)`. -/
def kPrecision : Nat := 12

/-- A double as the stream prints it. -/
def writeDouble (value : ℚ) : Text := formatGeneral kPrecision value

/-- The double a printed value stands for. -/
def round12 (value : ℚ) : ℚ := roundSignificant kPrecision value

/-- An unsigned integer as the stream prints it. -/
def writeUnsigned (value : Nat) : Text := Nat.toDigits 10 value

def writeJsonArray (values : List ℚ) : Text :=
  '[' :: (commaJoined [] (values.map writeDouble) ++ [']'])

/-- The settings of a bridge that its requests repeat. -/
structure RequestSettings where
  futureHorizon : Nat
  fixedBeaconIntervalS : ℚ
  deriving DecidableEq, Repr

section Write

variable {pastHorizon : Nat} (bridge : DeepcFileBridge pastHorizon) (settings : RequestSettings)
  (step : UInt32) (timeS : ℚ) (previousU : InputCommand)

/-- Vehicles in the last sample; a bridge that is ready has one. -/
def latestVehicleCount : ℚ :=
  match bridge.samples.items.getLast? with
  | none => 0
  | some sample => sample.activeVehicleCountCore

/-- The members of a request in the order they are written. -/
def requestLines : List (Text × Text) :=
  [("step".toList, writeUnsigned step.toNat),
    ("time_s".toList, writeDouble timeS),
    ("past_horizon".toList, writeUnsigned pastHorizon),
    ("future_horizon".toList, writeUnsigned settings.futureHorizon),
    ("fixed_beacon_interval_s".toList, writeDouble settings.fixedBeaconIntervalS),
    ("active_vehicle_count_core".toList, writeDouble (latestVehicleCount bridge)),
    ("input_cols".toList, "[\"tx_power_dbm\"]".toList),
    ("output_cols".toList, "[\"prr_awareness\", \"pir_s\", \"cbr\"]".toList),
    ("context_cols".toList, "[\"active_vehicle_count_core\", \"beacon_interval_s\"]".toList),
    ("density_forecast_mode".toList, "\"hold_last\"".toList),
    ("beacon_interval_forecast_mode".toList, "\"fixed_0p1\"".toList),
    ("previous_u".toList, writeJsonArray [previousU.txPowerDbm]),
    ("u_ini".toList, writeJsonArray (buildUIni bridge.samples.items)),
    ("y_ini".toList, writeJsonArray (buildYIni bridge.samples.items)),
    ("d_ini".toList, writeJsonArray (buildDIni bridge.samples.items))]

/-- The whole text: one member a line, indented by two spaces. -/
def writeRequest : Text :=
  "\x7b\n  ".toList ++
    commaJoined "\n  ".toList ((requestLines bridge settings step timeS previousU).map
      fun line => fieldText line.1 line.2) ++
    "\n\x7d\n".toList

end Write

/-! ## The values in it -/

theorem reads_writeDouble (value : ℚ) :
    Reads (writeDouble value) (numeralValue (formatNumeral kPrecision value)) :=
  reads_numeral (formatNumeral_wellFormed (by decide))

theorem reads_writeUnsigned (value : Nat) :
    Reads (writeUnsigned value) (numeralValue (Numeral.ofNat value)) := by
  rw [writeUnsigned, ← Numeral.ofNat_text]
  exact reads_numeral (Numeral.ofNat_wellFormed value)

def arrayValue (values : List ℚ) : Value :=
  .array (values.map fun value => numeralValue (formatNumeral kPrecision value))

theorem reads_writeJsonArray (values : List ℚ) :
    Reads (writeJsonArray values) (arrayValue values) := by
  have hread := @reads_array [] (fun _ hmem => absurd hmem List.not_mem_nil)
    (values.map fun value =>
      (writeDouble value, numeralValue (formatNumeral kPrecision value))) (by
        intro entry hmem
        obtain ⟨value, -, rfl⟩ := List.mem_map.mp hmem
        exact reads_writeDouble value)
  simp only [List.map_map] at hread
  exact hread

/-- A list of plain strings with a blank after each comma. -/
theorem reads_strings {names : List Text} (plain : ∀ name ∈ names, PlainText name) :
    Reads ('[' :: (commaJoined [' '] (names.map fun name => '"' :: (name ++ ['"'])) ++ [']']))
      (.array (names.map .string)) := by
  have hread := @reads_array [' '] (by decide)
    (names.map fun name => ('"' :: (name ++ ['"']), Value.string name)) (by
      intro entry hmem
      obtain ⟨name, hname, rfl⟩ := List.mem_map.mp hmem
      exact reads_string (plain name hname))
  simp only [List.map_map] at hread
  exact hread

section Fields

variable {pastHorizon : Nat} (bridge : DeepcFileBridge pastHorizon) (settings : RequestSettings)
  (step : UInt32) (timeS : ℚ) (previousU : InputCommand)

def inputNames : List Text := ["tx_power_dbm".toList]

def outputNames : List Text := ["prr_awareness".toList, "pir_s".toList, "cbr".toList]

def contextNames : List Text := ["active_vehicle_count_core".toList, "beacon_interval_s".toList]

/-- The values of the members. -/
def requestValues : List Value :=
  [numeralValue (Numeral.ofNat step.toNat),
    numeralValue (formatNumeral kPrecision timeS),
    numeralValue (Numeral.ofNat pastHorizon),
    numeralValue (Numeral.ofNat settings.futureHorizon),
    numeralValue (formatNumeral kPrecision settings.fixedBeaconIntervalS),
    numeralValue (formatNumeral kPrecision (latestVehicleCount bridge)),
    .array (inputNames.map .string),
    .array (outputNames.map .string),
    .array (contextNames.map .string),
    .string "hold_last".toList,
    .string "fixed_0p1".toList,
    arrayValue [previousU.txPowerDbm],
    arrayValue (buildUIni bridge.samples.items),
    arrayValue (buildYIni bridge.samples.items),
    arrayValue (buildDIni bridge.samples.items)]

/-- The members with their values. -/
def requestFields : List Field :=
  List.zipWith (fun line value => ⟨line.1, line.2, value⟩)
    (requestLines bridge settings step timeS previousU)
    (requestValues bridge settings step timeS previousU)

/-- The names of the members. -/
def requestNames : List Text :=
  ["step".toList, "time_s".toList, "past_horizon".toList, "future_horizon".toList,
    "fixed_beacon_interval_s".toList, "active_vehicle_count_core".toList, "input_cols".toList,
    "output_cols".toList, "context_cols".toList, "density_forecast_mode".toList,
    "beacon_interval_forecast_mode".toList, "previous_u".toList, "u_ini".toList, "y_ini".toList,
    "d_ini".toList]

theorem requestFields_names :
    (requestFields bridge settings step timeS previousU).map Field.name = requestNames := rfl

theorem requestNames_plain : ∀ name ∈ requestNames, PlainText name := by decide +kernel

theorem requestNames_nodup : requestNames.Nodup := by decide +kernel

/-- Column lists and modes are read as they stand in the source. -/
theorem reads_columns {text : Text} {names : List Text}
    (htext : text = '[' :: (commaJoined [' '] (names.map fun name => '"' :: (name ++ ['"'])) ++ [']']))
    (plain : ∀ name ∈ names, PlainText name) : Reads text (.array (names.map .string)) := by
  rw [htext]
  exact reads_strings plain

theorem reads_mode {text name : Text} (htext : text = '"' :: (name ++ ['"']))
    (plain : PlainText name) : Reads text (.string name) := by
  rw [htext]
  exact reads_string plain

/-- Every member is read as its value. -/
theorem requestFields_read : ∀ field ∈ requestFields bridge settings step timeS previousU,
    PlainText field.name ∧ Reads field.text field.value := by
  have hreads : ∀ field ∈ requestFields bridge settings step timeS previousU,
      Reads field.text field.value := by
    simp only [requestFields, requestLines, requestValues, List.zipWith_cons_cons,
      List.zipWith_nil_left, List.forall_mem_cons]
    exact ⟨reads_writeUnsigned _,
      reads_writeDouble _,
      reads_writeUnsigned _,
      reads_writeUnsigned _,
      reads_writeDouble _,
      reads_writeDouble _,
      reads_columns (by decide +kernel) (by decide +kernel),
      reads_columns (by decide +kernel) (by decide +kernel),
      reads_columns (by decide +kernel) (by decide +kernel),
      reads_mode (by decide +kernel) (by decide +kernel),
      reads_mode (by decide +kernel) (by decide +kernel),
      reads_writeJsonArray _,
      reads_writeJsonArray _,
      reads_writeJsonArray _,
      reads_writeJsonArray _,
      fun _ hmem => absurd hmem List.not_mem_nil⟩
  intro field hmem
  refine ⟨requestNames_plain field.name ?_, hreads field hmem⟩
  rw [← requestFields_names bridge settings step timeS previousU]
  exact List.mem_map_of_mem hmem

/-- The emitted text is loaded as an object with the members' values. -/
theorem loads_writeRequest :
    loads (writeRequest bridge settings step timeS previousU) =
      some (.object ((requestFields bridge settings step timeS previousU).map Field.pair)) := by
  have hreads := @reads_object "\n  ".toList ['\n'] (by decide +kernel) (by decide)
    (requestFields bridge settings step timeS previousU)
    (requestFields_read bridge settings step timeS previousU) (List.cons_ne_nil _ _)
  have hloads := loads_reads hreads (show IsGap ['\n'] by decide)
  have hlines : (requestLines bridge settings step timeS previousU).map
      (fun line => fieldText line.1 line.2) =
        (requestFields bridge settings step timeS previousU).map Field.print := rfl
  have htext : writeRequest bridge settings step timeS previousU =
      objectText "\n  ".toList ['\n'] (requestFields bridge settings step timeS previousU) ++
        ['\n'] := by
    rw [writeRequest, hlines, show "\x7b\n  ".toList = '\x7b' :: "\n  ".toList by decide +kernel,
      show "\n\x7d\n".toList = ['\n', '\x7d', '\n'] by decide +kernel]
    simp only [objectText, List.append_assoc, List.cons_append, List.nil_append]
  rw [htext, hloads]

end Fields

end DeepcV2x.Bridge
