import DeepcV2x.Bridge.History
import DeepcV2x.Bridge.Response
import DeepcV2x.Foundation.EventQueue

/-!
# The closed loop

`KpiLogger::SampleAndWrite` and `RunDeepcBridgeStep` as two events that
schedule themselves again, on the simulator's queue.  What the simulation logs
between two samples and what the controller answers come from an arbitrary
environment.
-/

namespace DeepcV2x.Bridge

open DeepcV2x.Foundation.Strings DeepcV2x.Foundation.Decimal DeepcV2x.Foundation.EventQueue
open DeepcV2x.Kpi DeepcV2x.Pool

/-! ## Configuration -/

def kPastHorizon : Nat := 20
def kFutureHorizon : Nat := 10
def kSampleTimeS : ℚ := 1 / 2
def kControlIntervalS : ℚ := 1 / 2

/-- The settings the loop reads, with the checks `main` makes on them. -/
structure LoopConfig where
  nodes : List NodeId
  awarenessRangeM : ℚ
  core : CoreFilter
  warmupS : ℚ
  cooldownS : ℚ
  simTimeSeconds : ℚ
  fixedBeaconIntervalS : ℚ
  minTxPowerDbm : ℚ
  maxTxPowerDbm : ℚ
  txPower : ℚ
  warmup_nonneg : 0 ≤ warmupS
  cooldown_nonneg : 0 ≤ cooldownS
  evaluation_nonempty : warmupS + cooldownS < simTimeSeconds
  beacon_fixed : |fixedBeaconIntervalS - 1 / 10| ≤ 1 / 1000000000
  bounds_ordered : minTxPowerDbm < maxTxPowerDbm
  txPower_low : minTxPowerDbm ≤ txPower
  txPower_high : txPower ≤ maxTxPowerDbm

namespace LoopConfig

def evalStartS (config : LoopConfig) : ℚ := config.warmupS
def evalEndS (config : LoopConfig) : ℚ := config.simTimeSeconds - config.cooldownS

def kpiConfig (config : LoopConfig) : KpiConfig :=
  ⟨config.nodes, config.awarenessRangeM, 1, config.evalStartS, config.evalEndS, config.core⟩

def limits (config : LoopConfig) : ControlLimits :=
  ⟨config.minTxPowerDbm, config.maxTxPowerDbm, config.fixedBeaconIntervalS⟩

def initialU (config : LoopConfig) : InputCommand :=
  ⟨config.evalStartS, config.txPower, config.fixedBeaconIntervalS⟩

def firstBridgeStepS (config : LoopConfig) : ℚ :=
  config.evalStartS + kSampleTimeS + 1 / 1000000

end LoopConfig

/-! ## Environment -/

/-- A call the simulation makes on the logger between two samples. -/
inductive Traffic
  | logTx (now : ℚ) (scene : Scene) (txVehicleId : VehicleId) (txNodeId : NodeId) (seq : UInt64)
      (posTx : Position)
  | logRx (now : ℚ) (scene : Scene) (txVehicleId rxVehicleId : VehicleId) (seq : UInt64)
      (posRx : Position)

def Traffic.apply (config : KpiConfig) (logger : KpiLogger) : Traffic → KpiLogger
  | .logTx now scene txVehicleId txNodeId seq posTx =>
      logger.logTx config scene txVehicleId txNodeId seq now posTx
  | .logRx now scene txVehicleId rxVehicleId seq posRx =>
      logger.logRx config scene txVehicleId rxVehicleId seq now posRx

/-- The traffic since the last sample, the scene and the channel load at each sample time, and
the text of the response to each request. -/
structure Environment where
  traffic : ℚ → List Traffic
  scene : ℚ → Scene
  cbr : ℚ → ℚ
  response : Nat → Text

/-! ## World -/

/-- One `RequestControl` call: the history it sends and the command it returns. -/
structure RequestRecord where
  step : UInt32
  timeS : ℚ
  previousU : InputCommand
  samples : List KpiSample
  command : InputCommand
  deriving DecidableEq, Repr

/-- One `RunDeepcBridgeStep` call: its time and the sample it pushes. -/
structure StepRecord where
  now : ℚ
  pushed : Option KpiSample
  deriving DecidableEq, Repr

/-- The logger and the bridge, with the calls made so far. -/
structure LoopWorld where
  logger : KpiLogger
  bridge : DeepcFileBridge kPastHorizon
  requests : List RequestRecord
  trace : List StepRecord

def LoopWorld.initial (config : LoopConfig) : LoopWorld where
  logger := KpiLogger.initial.setCurrentInputs config.txPower config.fixedBeaconIntervalS
  bridge := .configured
  requests := []
  trace := []

/-! ## Events -/

inductive LoopEvent
  | sampleAndWrite
  | runDeepcBridgeStep (previousU : InputCommand) (step : UInt32)
  deriving DecidableEq, Repr

/-- The sampling event: the logger alone changes. -/
def runSampleAndWrite (config : LoopConfig) (env : Environment) (now : ℚ) (world : LoopWorld) :
    LoopWorld × List (ℚ × LoopEvent) :=
  let logged := (env.traffic now).foldl (Traffic.apply config.kpiConfig) world.logger
  ({ world with
      logger := logged.sampleAndWrite config.kpiConfig (env.scene now) now (env.cbr now) },
    [(kSampleTimeS, .sampleAndWrite)])

/-- The part of a bridge step that feeds the history: the new bridge and the pushed sample. -/
def feedHistory (config : LoopConfig) (world : LoopWorld) :
    DeepcFileBridge kPastHorizon × Option KpiSample :=
  match world.logger.latestSample with
  | none => (world.bridge, none)
  | some sample =>
      if config.evalStartS ≤ sample.timeS + kTimeEps ∧
          sample.timeS ≤ config.evalEndS + kTimeEps then
        let attempt := world.bridge.pushSample sample
        (attempt.1, if attempt.2 then some sample else none)
      else (world.bridge, none)

/-- The next bridge step, unless it would come after the evaluation end. -/
def rescheduleBridge (config : LoopConfig) (now : ℚ) (nextU : InputCommand) (nextStep : UInt32) :
    List (ℚ × LoopEvent) :=
  if now + kControlIntervalS ≤ config.evalEndS + kTimeEps then
    [(kControlIntervalS, .runDeepcBridgeStep nextU nextStep)]
  else []

variable (stod : Text → Except StodError ℚ)

def runDeepcBridgeStep (config : LoopConfig) (env : Environment) (now : ℚ)
    (previousU : InputCommand) (step : UInt32) (world : LoopWorld) :
    Except StodError (LoopWorld × List (ℚ × LoopEvent)) :=
  if config.evalEndS + kTimeEps < now then
    .ok ({ world with trace := world.trace ++ [⟨now, none⟩] }, [])
  else
    let fed := feedHistory config world
    let trace := world.trace ++ [⟨now, fed.2⟩]
    if fed.2.isSome = true ∧ fed.1.Ready then
      match requestControl stod config.limits now previousU (env.response world.requests.length) with
      | .error error => .error error
      | .ok result =>
          .ok ({ logger := world.logger.setCurrentInputs result.command.txPowerDbm
                   config.fixedBeaconIntervalS
                 bridge := fed.1
                 requests := world.requests ++
                   [⟨step, now, previousU, fed.1.samples.items, result.command⟩]
                 trace := trace },
            rescheduleBridge config now result.command (step + 1))
    else
      .ok ({ world with bridge := fed.1, trace := trace },
        rescheduleBridge config now previousU step)

def loopHandler (config : LoopConfig) (env : Environment) :
    Handler ℚ LoopEvent LoopWorld StodError :=
  fun now event world =>
    match event with
    | .sampleAndWrite => .ok (runSampleAndWrite config env now world)
    | .runDeepcBridgeStep previousU step =>
        runDeepcBridgeStep stod config env now previousU step world

/-- The simulator as `main` starts it. -/
def loopStart (config : LoopConfig) : Simulator ℚ LoopEvent LoopWorld :=
  let empty : Simulator ℚ LoopEvent LoopWorld := ⟨0, 0, [], false, .initial config⟩
  let sampling := schedule empty kSampleTimeS (.invoke .sampleAndWrite)
  let bridging := schedule sampling config.firstBridgeStepS
    (.invoke (.runDeepcBridgeStep config.initialU 0))
  schedule bridging config.simTimeSeconds .stop

end DeepcV2x.Bridge
