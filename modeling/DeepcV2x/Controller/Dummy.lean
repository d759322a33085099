import DeepcV2x.Bridge.ClosedLoop
import DeepcV2x.Bridge.WriteRequest
import DeepcV2x.Controller.Request

/-!
# Answering every request

The dummy controller, and what the controllers make of a text `WriteRequest`
emitted: it is loaded, its histories are the buffered samples up to rounding,
and the fixed mode answers it.  The hold mode looks for a second element in
`previous_u`, which a request never has.
-/

namespace DeepcV2x.Controller

open DeepcV2x.Foundation.Strings DeepcV2x.Foundation.Json DeepcV2x.Foundation.Numerals
open DeepcV2x.Bridge DeepcV2x.Kpi

/-! ## The dummy controller -/

inductive DummyMode
  | fixed
  | hold
  deriving DecidableEq, Repr

structure DummyArgs where
  txPowerDbm : ℚ
  beaconIntervalS : ℚ
  mode : DummyMode
  deriving DecidableEq, Repr

structure DummyPayload where
  step : ℤ
  timeS : ℚ
  success : Bool
  txPowerDbm : ℚ
  beaconIntervalS : ℚ
  solveTimeS : ℚ
  controller : Text
  deriving DecidableEq, Repr

/-- The power and the beacon interval of an answer. -/
def dummyControls (args : DummyArgs) (request : Request) : Except PyException (ℚ × ℚ) :=
  match args.mode with
  | .hold => do
      let previousU := request.previousU.getD [args.txPowerDbm, args.beaconIntervalS]
      let txPowerDbm ← listItem previousU 0
      let beaconIntervalS ← listItem previousU 1
      return (txPowerDbm, beaconIntervalS)
  | .fixed => .ok (args.txPowerDbm, args.beaconIntervalS)

def dummyAnswer (args : DummyArgs) (request : Request) (solveTimeS : ℚ) :
    Except PyException DummyPayload := do
  let controls ← dummyControls args request
  let step ← item "step".toList request.step
  let timeS ← item "time_s".toList request.timeS
  return {
    step := step
    timeS := timeS
    success := true
    txPowerDbm := controls.1
    beaconIntervalS := controls.2
    solveTimeS := solveTimeS
    controller := "dummy_fixed_file_controller".toList }

/-! ## The loaded request -/

theorem asNumber_numeralValue (numeral : Numeral) :
    asNumber (numeralValue numeral) = some numeral.value := by
  rw [numeralValue]
  split
  next hint =>
    simp only [asNumber, Numeral.value, Numeral.magnitude, hint.1, hint.2, List.append_nil,
      List.length_nil, Option.getD_none]
    split <;> simp
  next => rfl

theorem asNumber_double (value : ℚ) :
    asNumber (numeralValue (formatNumeral kPrecision value)) = some (round12 value) := by
  rw [asNumber_numeralValue, formatNumeral_value (by decide)]
  rfl

theorem asNumber_array (values : List ℚ) :
    asList asNumber (arrayValue values) = some (values.map round12) :=
  asList_map fun value _ => asNumber_double value

section Loaded

variable (bridge : DeepcFileBridge kPastHorizon) (beaconIntervalS : ℚ) (step : UInt32) (timeS : ℚ)
  (previousU : InputCommand)

/-- The text of a request of the loop. -/
def requestText : Text :=
  writeRequest bridge ⟨kFutureHorizon, beaconIntervalS⟩ step timeS previousU

/-- The request as the controllers see it. -/
def loadedRequest : Request where
  step := some step.toNat
  timeS := some (round12 timeS)
  pastHorizon := some kPastHorizon
  futureHorizon := some kFutureHorizon
  inputCols := some inputNames
  outputCols := some outputNames
  contextCols := some contextNames
  previousU := some [round12 previousU.txPowerDbm]
  uIni := some ((buildUIni bridge.samples.items).map round12)
  yIni := some ((buildYIni bridge.samples.items).map round12)
  dIni := some ((buildDIni bridge.samples.items).map round12)

/-- The members of a request, each with its value. -/
theorem requestPairs_distinct (settings : RequestSettings) :
    (((requestFields bridge settings step timeS previousU).map Field.pair).map
      Prod.fst).Nodup := by
  rw [List.map_map]
  exact requestNames_nodup

theorem ofValue_requestFields :
    Request.ofValue (.object ((requestFields bridge ⟨kFutureHorizon, beaconIntervalS⟩ step timeS
      previousU).map Field.pair)) = some (loadedRequest bridge step timeS previousU) := by
  have distinct := requestPairs_distinct bridge step timeS previousU
    ⟨kFutureHorizon, beaconIntervalS⟩
  generalize hpairs : (requestFields bridge ⟨kFutureHorizon, beaconIntervalS⟩ step timeS
    previousU).map Field.pair = pairs at distinct
  have atIndex : ∀ {index : Nat} {name : Text} {value : Value},
      ((requestFields bridge ⟨kFutureHorizon, beaconIntervalS⟩ step timeS
        previousU).map Field.pair)[index]? = some (name, value) → (name, value) ∈ pairs := by
    intro index name value hget
    rw [hpairs] at hget
    exact List.mem_of_getElem? hget
  have hstep : member pairs "step".toList asInt = some (some (step.toNat : ℤ)) := by
    apply member_of_mem distinct (@atIndex 0 _ _ rfl)
    rw [numeralValue_ofNat, asInt]
  have htime : member pairs "time_s".toList asNumber = some (some (round12 timeS)) :=
    member_of_mem distinct (@atIndex 1 _ _ rfl) (asNumber_double timeS)
  have hpast : member pairs "past_horizon".toList asInt = some (some (kPastHorizon : ℤ)) := by
    apply member_of_mem distinct (@atIndex 2 _ _ rfl)
    rw [numeralValue_ofNat, asInt]
  have hfuture : member pairs "future_horizon".toList asInt =
      some (some (kFutureHorizon : ℤ)) := by
    apply member_of_mem distinct (@atIndex 3 _ _ rfl)
    rw [numeralValue_ofNat, asInt]
  have hinputs : member pairs "input_cols".toList (asList asText) = some (some inputNames) :=
    member_of_mem distinct (@atIndex 6 _ _ rfl) (asText_list inputNames)
  have houtputs : member pairs "output_cols".toList (asList asText) = some (some outputNames) :=
    member_of_mem distinct (@atIndex 7 _ _ rfl) (asText_list outputNames)
  have hcontext : member pairs "context_cols".toList (asList asText) =
      some (some contextNames) :=
    member_of_mem distinct (@atIndex 8 _ _ rfl) (asText_list contextNames)
  have hprevious : member pairs "previous_u".toList (asList asNumber) =
      some (some [round12 previousU.txPowerDbm]) :=
    member_of_mem distinct (@atIndex 11 _ _ rfl) (asNumber_array [previousU.txPowerDbm])
  have hu : member pairs "u_ini".toList (asList asNumber) =
      some (some ((buildUIni bridge.samples.items).map round12)) :=
    member_of_mem distinct (@atIndex 12 _ _ rfl) (asNumber_array _)
  have hy : member pairs "y_ini".toList (asList asNumber) =
      some (some ((buildYIni bridge.samples.items).map round12)) :=
    member_of_mem distinct (@atIndex 13 _ _ rfl) (asNumber_array _)
  have hd : member pairs "d_ini".toList (asList asNumber) =
      some (some ((buildDIni bridge.samples.items).map round12)) :=
    member_of_mem distinct (@atIndex 14 _ _ rfl) (asNumber_array _)
  rw [Request.ofValue, hstep, htime, hpast, hfuture, hinputs, houtputs, hcontext, hprevious, hu,
    hy, hd]
  rfl

theorem buildYIni_length (samples : List KpiSample) :
    (buildYIni samples).length = samples.length * 3 := by
  induction samples with
  | nil => rfl
  | cons sample rest ih =>
      rw [buildYIni, List.flatMap_cons, List.length_append, ← buildYIni, ih, List.length_cons]
      simp only [List.length_cons, List.length_nil]
      omega

theorem buildDIni_length (samples : List KpiSample) :
    (buildDIni samples).length = samples.length * 2 := by
  induction samples with
  | nil => rfl
  | cons sample rest ih =>
      rw [buildDIni, List.flatMap_cons, List.length_append, ← buildDIni, ih, List.length_cons]
      simp only [List.length_cons, List.length_nil]
      omega

/-- The histories of a loaded request hold the buffered samples, rounded. -/
def HoldsSamples (samples : List KpiSample) (histories : Histories) : Prop :=
  histories.uIni = samples.map (fun sample => round12 sample.txPowerDbm) ∧
  histories.yIni = samples.flatMap (fun sample =>
    [round12 sample.prrAwareness, round12 sample.pirS, round12 sample.cbr]) ∧
  histories.dIni = samples.flatMap (fun sample =>
    [round12 sample.activeVehicleCountCore, round12 sample.beaconIntervalS])

/-- A ready bridge writes requests of the shapes the controller expects. -/
theorem readRequestHistories_loaded (ready : bridge.Ready) :
    ∃ histories, readRequestHistories (loadedRequest bridge step timeS previousU) =
        .ok histories ∧ HoldsSamples bridge.samples.items histories := by
  have hlength : bridge.samples.items.length = tini := ready
  have ulength : ((buildUIni bridge.samples.items).map round12).length = tini := by
    rw [List.length_map, buildUIni, List.length_map, hlength]
  have ylength : ((buildYIni bridge.samples.items).map round12).length = tini * 3 := by
    rw [List.length_map, buildYIni_length, hlength]
  have dlength : ((buildDIni bridge.samples.items).map round12).length = tini * 2 := by
    rw [List.length_map, buildDIni_length, hlength]
  refine ⟨_, readRequestHistories_ok rfl rfl rfl rfl rfl rfl rfl rfl ulength ylength dlength,
    ?_, ?_, ?_⟩
  · exact List.map_map
  · exact List.map_flatMap
  · exact List.map_flatMap

/-- The fixed mode answers with its own controls. -/
theorem dummyAnswer_fixed (txPowerDbm answerIntervalS solveTimeS : ℚ) :
    dummyAnswer ⟨txPowerDbm, answerIntervalS, .fixed⟩ (loadedRequest bridge step timeS previousU)
      solveTimeS = .ok {
        step := step.toNat
        timeS := round12 timeS
        success := true
        txPowerDbm := txPowerDbm
        beaconIntervalS := answerIntervalS
        solveTimeS := solveTimeS
        controller := "dummy_fixed_file_controller".toList } := rfl

/-- The hold mode runs past the end of `previous_u`. -/
theorem dummyAnswer_hold (txPowerDbm answerIntervalS solveTimeS : ℚ) :
    dummyAnswer ⟨txPowerDbm, answerIntervalS, .hold⟩ (loadedRequest bridge step timeS previousU)
      solveTimeS = .error .indexError := rfl

/-! ## Answerable requests -/

/-- The text is loaded, its histories are the samples, the fixed mode answers with its own
power and the hold mode with the previous one. -/
def Answerable : Prop :=
  ∃ value request histories,
    loads (requestText bridge beaconIntervalS step timeS previousU) = some value ∧
    Request.ofValue value = some request ∧
    readRequestHistories request = .ok histories ∧
    HoldsSamples bridge.samples.items histories ∧
    ∀ txPowerDbm answerIntervalS solveTimeS,
      (∃ payload,
        dummyAnswer ⟨txPowerDbm, answerIntervalS, .fixed⟩ request solveTimeS = .ok payload ∧
          payload.txPowerDbm = txPowerDbm) ∧
      ∃ payload,
        dummyAnswer ⟨txPowerDbm, answerIntervalS, .hold⟩ request solveTimeS = .ok payload ∧
          payload.txPowerDbm = round12 previousU.txPowerDbm

/-- The request that is loaded from a text of the loop. -/
theorem loads_requestText {value : Value} {request : Request}
    (hloads : loads (requestText bridge beaconIntervalS step timeS previousU) = some value)
    (hrequest : Request.ofValue value = some request) :
    request = loadedRequest bridge step timeS previousU := by
  rw [requestText, loads_writeRequest] at hloads
  have hvalue := Option.some.inj hloads
  rw [← hvalue, ofValue_requestFields] at hrequest
  exact (Option.some.inj hrequest).symm

theorem answerable_absurd : ¬ Answerable bridge beaconIntervalS step timeS previousU := by
  rintro ⟨value, request, histories, hloads, hrequest, -, -, hanswers⟩
  obtain ⟨-, payload, hpayload, -⟩ := hanswers 0 0 0
  rw [loads_requestText bridge beaconIntervalS step timeS previousU hloads hrequest,
    dummyAnswer_hold] at hpayload
  cases hpayload

/-- A request of a ready bridge is loaded, its histories are the samples up to rounding and the
fixed mode answers it, but no request is answered by the hold mode. -/
theorem writeRequest_answerable_never (ready : bridge.Ready) :
    (∃ value request histories,
      loads (requestText bridge beaconIntervalS step timeS previousU) = some value ∧
      Request.ofValue value = some request ∧
      readRequestHistories request = .ok histories ∧
      HoldsSamples bridge.samples.items histories ∧
      ∀ txPowerDbm answerIntervalS solveTimeS,
        (∃ payload,
          dummyAnswer ⟨txPowerDbm, answerIntervalS, .fixed⟩ request solveTimeS = .ok payload ∧
            payload.txPowerDbm = txPowerDbm) ∧
        dummyAnswer ⟨txPowerDbm, answerIntervalS, .hold⟩ request solveTimeS =
          .error .indexError) ∧
    (∀ value : ℚ, |round12 value - value| ≤ |value| * (10 : ℚ) ^ (-11 : ℤ) / 2) ∧
    ¬ Answerable bridge beaconIntervalS step timeS previousU := by
  obtain ⟨histories, hread, hholds⟩ :=
    readRequestHistories_loaded bridge step timeS previousU ready
  refine ⟨⟨_, _, histories, loads_writeRequest _ _ _ _ _,
    ofValue_requestFields bridge beaconIntervalS step timeS previousU, hread, hholds, ?_⟩, ?_, ?_⟩
  · intro txPowerDbm answerIntervalS solveTimeS
    constructor
    · exact ⟨_, dummyAnswer_fixed bridge step timeS previousU txPowerDbm answerIntervalS
        solveTimeS, rfl⟩
    · exact dummyAnswer_hold bridge step timeS previousU txPowerDbm answerIntervalS solveTimeS
  · intro value
    exact abs_roundSignificant_sub_le (by decide)
  · exact answerable_absurd bridge beaconIntervalS step timeS previousU

end Loaded

/-- A bridge that has buffered twenty equal samples. -/
def steadyBridge : DeepcFileBridge kPastHorizon :=
  ⟨⟨List.replicate 20 ⟨0, 20, 1 / 10, 5, 9 / 10, 1 / 5, 3 / 10⟩, by decide⟩, some 0⟩

theorem writeRequest_answerable_never_steady :
    ¬ Answerable steadyBridge (1 / 10) 0 (1 / 2) ⟨0, 20, 1 / 10⟩ :=
  (writeRequest_answerable_never steadyBridge (1 / 10) 0 (1 / 2) ⟨0, 20, 1 / 10⟩ (by decide)).2.2

/-- The hold mode does not answer the request with previous power 20 dBm. -/
theorem writeRequest_answerable_fails :
    steadyBridge.Ready ∧ ¬ Answerable steadyBridge (1 / 10) 0 (1 / 2) ⟨0, 20, 1 / 10⟩ := by
  constructor
  · decide
  · exact answerable_absurd steadyBridge (1 / 10) 0 (1 / 2) ⟨0, 20, 1 / 10⟩

end DeepcV2x.Controller
