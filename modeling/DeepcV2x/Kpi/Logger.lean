import DeepcV2x.Foundation.Runs
import DeepcV2x.Pool.Mobility
import Mathlib.Algebra.GroupWithZero.Nat
import Mathlib.Data.Finset.Basic
import Mathlib.Logic.Function.Basic

/-!
# The KPI logger

`LogTx`, `LogRx`, `PruneOldEvents` and `SampleAndWrite` over the two pruned
deques, the set of logged triples and the last reception time of each pair.
Every call reads the simulator's current node assignment and positions, so a
call comes with a snapshot of them.
-/

namespace DeepcV2x.Kpi

open DeepcV2x.Pool

/-! ## What a call reads -/

structure Position where
  x : ℚ
  y : ℚ
  deriving DecidableEq, Repr

structure KpiConfig where
  nodes : List NodeId
  awarenessRangeM : ℚ
  kpiWindowS : ℚ
  evalStartS : ℚ
  evalEndS : ℚ
  core : CoreFilter

/-- The globals and node positions at the time of a call. -/
structure Scene where
  dynamicActivePoolEnabled : Bool
  nodeIdToVehicleId : NodeId → Option VehicleId
  vehicleIdToNodeId : VehicleId → Option NodeId
  nodeIdToActiveTimeRangeS : NodeId → Option (ℚ × ℚ)
  position : NodeId → Position

def kInvalidNodeId : NodeId := 4294967295

def getCoreCoordinate (position : Position) : CoreAxis → ℚ
  | .x => position.x
  | .y => position.y

/-- `Distance2d(a, b) <= rangeM`, without the square root. -/
def withinDistance (a b : Position) (rangeM : ℚ) : Bool :=
  decide (0 ≤ rangeM) &&
    decide ((a.x - b.x) * (a.x - b.x) + (a.y - b.y) * (a.y - b.y) ≤ rangeM * rangeM)

namespace Scene

def resolveVehicleIdForNode (scene : Scene) (nodeId : NodeId) : VehicleId :=
  (scene.nodeIdToVehicleId nodeId).getD kInvalidVehicleId

def resolveNodeIdForVehicle (scene : Scene) (vehicleId : VehicleId) : NodeId :=
  (scene.vehicleIdToNodeId vehicleId).getD kInvalidNodeId

def isNodeAssignedToVehicle (scene : Scene) (nodeId : NodeId) (vehicleId : VehicleId) : Bool :=
  scene.resolveVehicleIdForNode nodeId = vehicleId

/-- The tolerance at the ends of a static activity range is 1e-9 s. -/
def isNodeActiveAtTime (scene : Scene) (nodeId : NodeId) (timeS : ℚ) : Bool :=
  if scene.dynamicActivePoolEnabled then
    decide (scene.resolveVehicleIdForNode nodeId ≠ kInvalidVehicleId)
  else
    match scene.nodeIdToActiveTimeRangeS nodeId with
    | none => true
    | some range =>
        decide (range.1 ≤ timeS + 1 / 1000000000) && decide (timeS ≤ range.2 + 1 / 1000000000)

end Scene

namespace KpiConfig

/-- A negative evaluation end means no end. -/
def isInsideEvaluationWindow (config : KpiConfig) (timeS : ℚ) : Bool :=
  decide (config.evalStartS ≤ timeS) &&
    (decide (config.evalEndS < 0) || decide (timeS ≤ config.evalEndS))

def isInsideCore (config : KpiConfig) (position : Position) : Bool :=
  !config.core.enableCoreFilter ||
    isInsideCoreRegion (getCoreCoordinate position config.core.coreAxis)
      config.core.coreMin config.core.coreMax

end KpiConfig

/-! ## Logged events -/

structure TxEvent where
  timeS : ℚ
  txVehicleId : VehicleId
  seq : UInt64
  eligibleRxCount : Nat
  rxAtTx : Finset VehicleId
  deriving DecidableEq

/-- `pirS` is `none` where the source stores a NaN. -/
structure RxEvent where
  timeS : ℚ
  txVehicleId : VehicleId
  rxVehicleId : VehicleId
  seq : UInt64
  pirS : Option ℚ
  deriving DecidableEq, Repr

abbrev TxKey := VehicleId × UInt64
abbrev RxTriple := VehicleId × VehicleId × UInt64

def TxEvent.key (tx : TxEvent) : TxKey := (tx.txVehicleId, tx.seq)

def RxEvent.triple (rx : RxEvent) : RxTriple := (rx.txVehicleId, rx.rxVehicleId, rx.seq)

/-- The transmission a triple belongs to. -/
def txKeyOf (triple : RxTriple) : TxKey := (triple.1, triple.2.2)

def RxEvent.txKey (rx : RxEvent) : TxKey := (rx.txVehicleId, rx.seq)

@[simp]
theorem txKeyOf_triple (rx : RxEvent) : txKeyOf rx.triple = rx.txKey := rfl

structure KpiSample where
  timeS : ℚ
  txPowerDbm : ℚ
  beaconIntervalS : ℚ
  activeVehicleCountCore : Nat
  prrAwareness : ℚ
  pirS : ℚ
  cbr : ℚ
  deriving DecidableEq, Repr

/-- One line of the KPI file: the sample with the counts it was computed from. -/
structure KpiRow where
  sample : KpiSample
  txCount : Nat
  denom : Nat
  numer : Nat
  meanEligiblePerTx : ℚ
  meanSuccessPerTx : ℚ
  pirCount : Nat
  deriving DecidableEq, Repr

/-- The mutable members of `KpiLogger`; `rows` is the written file. -/
structure KpiLogger where
  currentP : ℚ
  currentTb : ℚ
  latestSample : Option KpiSample
  txEvents : List TxEvent
  rxEvents : List RxEvent
  loggedRxTriples : Finset RxTriple
  lastRxTimePerPair : VehicleId × VehicleId → Option ℚ
  rows : List KpiRow

namespace KpiLogger

def initial : KpiLogger where
  currentP := 23
  currentTb := 1 / 10
  latestSample := none
  txEvents := []
  rxEvents := []
  loggedRxTriples := ∅
  lastRxTimePerPair := fun _ => none
  rows := []

/-! ## Operations -/

/-- The keys of the deque of transmissions. -/
def activeTxKeys (txEvents : List TxEvent) : Finset TxKey := (txEvents.map TxEvent.key).toFinset

/-- Pop expired receptions from the front, each with its triple. -/
def popExpiredRx (cutoff : ℚ) : List RxEvent → Finset RxTriple → List RxEvent × Finset RxTriple
  | [], logged => ([], logged)
  | rx :: rest, logged =>
      if rx.timeS < cutoff then popExpiredRx cutoff rest (logged.erase rx.triple)
      else (rx :: rest, logged)

/-- Remove receptions whose transmission is gone, each with its triple. -/
def removeStaleRx (keys : Finset TxKey) :
    List RxEvent → Finset RxTriple → List RxEvent × Finset RxTriple
  | [], logged => ([], logged)
  | rx :: rest, logged =>
      if rx.txKey ∈ keys then
        let removed := removeStaleRx keys rest logged
        (rx :: removed.1, removed.2)
      else removeStaleRx keys rest (logged.erase rx.triple)

def pruneOldEvents (config : KpiConfig) (now : ℚ) (logger : KpiLogger) : KpiLogger :=
  let cutoff := now - config.kpiWindowS
  let txEvents := logger.txEvents.dropWhile fun tx => decide (tx.timeS < cutoff)
  let popped := popExpiredRx cutoff logger.rxEvents logger.loggedRxTriples
  let removed := removeStaleRx (activeTxKeys txEvents) popped.1 popped.2
  { logger with
    txEvents := txEvents
    rxEvents := removed.1
    loggedRxTriples := removed.2 }

def setCurrentInputs (pDbm tbS : ℚ) (logger : KpiLogger) : KpiLogger :=
  { logger with currentP := pDbm, currentTb := tbS }

/-- The receivers in range of a transmission. -/
def eligibleReceivers (config : KpiConfig) (scene : Scene) (timeS : ℚ)
    (txVehicleId : VehicleId) (txNodeId : NodeId) (posTx : Position) : Finset VehicleId :=
  ((config.nodes.filter fun nodeId =>
    decide (nodeId ≠ txNodeId) && scene.isNodeActiveAtTime nodeId timeS &&
      decide (scene.resolveVehicleIdForNode nodeId ≠ kInvalidVehicleId) &&
      decide (scene.resolveVehicleIdForNode nodeId ≠ txVehicleId) &&
      config.isInsideCore (scene.position nodeId) &&
      withinDistance posTx (scene.position nodeId) config.awarenessRangeM).map
    scene.resolveVehicleIdForNode).toFinset

/-- The event `LogTx` appends; `none` where it returns early. -/
def txEventOf (config : KpiConfig) (scene : Scene) (txVehicleId : VehicleId)
    (txNodeId : NodeId) (seq : UInt64) (timeS : ℚ) (posTx : Position) : Option TxEvent :=
  if txVehicleId = kInvalidVehicleId || !scene.isNodeActiveAtTime txNodeId timeS ||
      !scene.isNodeAssignedToVehicle txNodeId txVehicleId ||
      !config.isInsideEvaluationWindow timeS || !config.isInsideCore posTx then none
  else
    let rxAtTx := eligibleReceivers config scene timeS txVehicleId txNodeId posTx
    some ⟨timeS, txVehicleId, seq, rxAtTx.card, rxAtTx⟩

def logTx (config : KpiConfig) (scene : Scene) (txVehicleId : VehicleId) (txNodeId : NodeId)
    (seq : UInt64) (tTx : ℚ) (posTx : Position) (logger : KpiLogger) : KpiLogger :=
  match txEventOf config scene txVehicleId txNodeId seq tTx posTx with
  | none => logger
  | some tx => { logger with txEvents := logger.txEvents ++ [tx] }.pruneOldEvents config tTx

/-- The filters of `LogRx` on the time and on the two vehicles' nodes. -/
def rxNodesAccepted (config : KpiConfig) (scene : Scene) (txVehicleId rxVehicleId : VehicleId)
    (timeS : ℚ) : Bool :=
  let txNodeId := scene.resolveNodeIdForVehicle txVehicleId
  let rxNodeId := scene.resolveNodeIdForVehicle rxVehicleId
  config.isInsideEvaluationWindow timeS && decide (txNodeId ≠ kInvalidNodeId) &&
    decide (rxNodeId ≠ kInvalidNodeId) && scene.isNodeActiveAtTime txNodeId timeS &&
    scene.isNodeActiveAtTime rxNodeId timeS &&
    scene.isNodeAssignedToVehicle txNodeId txVehicleId &&
    scene.isNodeAssignedToVehicle rxNodeId rxVehicleId

/-- The latest logged transmission with the key. -/
def findTxEvent (txEvents : List TxEvent) (key : TxKey) : Option TxEvent :=
  txEvents.reverse.find? fun tx => tx.key = key

/-- The reception is remembered in all three members. -/
def appendRx (rx : RxEvent) (logger : KpiLogger) : KpiLogger :=
  { logger with
    loggedRxTriples := insert rx.triple logger.loggedRxTriples
    lastRxTimePerPair := Function.update logger.lastRxTimePerPair
      (rx.txVehicleId, rx.rxVehicleId) (some rx.timeS)
    rxEvents := logger.rxEvents ++ [rx] }

def logRx (config : KpiConfig) (scene : Scene) (txVehicleId rxVehicleId : VehicleId)
    (seq : UInt64) (tRx : ℚ) (posRx : Position) (logger : KpiLogger) : KpiLogger :=
  if !rxNodesAccepted config scene txVehicleId rxVehicleId tRx then logger
  else
    match findTxEvent logger.txEvents (txVehicleId, seq) with
    | none => logger
    | some tx =>
        if !config.isInsideCore posRx || decide (rxVehicleId ∉ tx.rxAtTx) then logger
        else if (txVehicleId, rxVehicleId, seq) ∈ logger.loggedRxTriples then logger
        else
          let pir := (logger.lastRxTimePerPair (txVehicleId, rxVehicleId)).map (tRx - ·)
          (logger.appendRx
            ⟨tRx, txVehicleId, rxVehicleId, seq, pir⟩).pruneOldEvents config tRx

def countActiveCoreVehicles (config : KpiConfig) (scene : Scene) (timeS : ℚ) : Nat :=
  (config.nodes.filter fun nodeId =>
    scene.isNodeActiveAtTime nodeId timeS &&
      decide (scene.resolveVehicleIdForNode nodeId ≠ kInvalidVehicleId) &&
      config.isInsideCore (scene.position nodeId)).length

/-- The distinct triples of a live transmission. -/
def uniqueRxTriples (logger : KpiLogger) : Finset RxTriple :=
  ((logger.rxEvents.filter fun rx => rx.txKey ∈ activeTxKeys logger.txEvents).map
    RxEvent.triple).toFinset

/-- A quotient of counts, 0 when there is nothing to divide by. -/
def ratio (part : ℚ) (whole : Nat) : ℚ :=
  if 0 < whole then part / whole else 0

/-- The row `SampleAndWrite` computes from the pruned members. -/
def rowAt (config : KpiConfig) (scene : Scene) (now cbr : ℚ) (logger : KpiLogger) : KpiRow :=
  let denom := (logger.txEvents.map TxEvent.eligibleRxCount).sum
  let numer := logger.uniqueRxTriples.card
  let pirs := logger.rxEvents.filterMap RxEvent.pirS
  let txCount := logger.txEvents.length
  { sample :=
      { timeS := now
        txPowerDbm := logger.currentP
        beaconIntervalS := logger.currentTb
        activeVehicleCountCore := countActiveCoreVehicles config scene now
        prrAwareness := ratio numer denom
        pirS := ratio pirs.sum pirs.length
        cbr := cbr }
    txCount := txCount
    denom := denom
    numer := numer
    meanEligiblePerTx := ratio denom txCount
    meanSuccessPerTx := ratio numer txCount
    pirCount := pirs.length }

def sampleAndWrite (config : KpiConfig) (scene : Scene) (now cbr : ℚ) (logger : KpiLogger) :
    KpiLogger :=
  let pruned := logger.pruneOldEvents config now
  let row := pruned.rowAt config scene now cbr
  { pruned with latestSample := some row.sample, rows := pruned.rows ++ [row] }

end KpiLogger

/-! ## Runs -/

inductive KpiCall
  | setCurrentInputs (pDbm tbS : ℚ)
  | logTx (txVehicleId : VehicleId) (txNodeId : NodeId) (seq : UInt64) (posTx : Position)
  | logRx (txVehicleId rxVehicleId : VehicleId) (seq : UInt64) (posRx : Position)
  | sampleAndWrite (cbr : ℚ)
  deriving DecidableEq, Repr

/-- A call with the simulator's time and scene. -/
structure KpiEvent where
  now : ℚ
  scene : Scene
  call : KpiCall

/-- The logger and the time of its last call. -/
structure KpiState where
  now : ℚ
  logger : KpiLogger

def KpiState.initial : KpiState := ⟨0, KpiLogger.initial⟩

def callLogger (config : KpiConfig) (event : KpiEvent) (logger : KpiLogger) : KpiLogger :=
  match event.call with
  | .setCurrentInputs pDbm tbS => logger.setCurrentInputs pDbm tbS
  | .logTx txVehicleId txNodeId seq posTx =>
      logger.logTx config event.scene txVehicleId txNodeId seq event.now posTx
  | .logRx txVehicleId rxVehicleId seq posRx =>
      logger.logRx config event.scene txVehicleId rxVehicleId seq event.now posRx
  | .sampleAndWrite cbr => logger.sampleAndWrite config event.scene event.now cbr

/-- Time never runs backwards. -/
def kpiStep (config : KpiConfig) (state : KpiState) (event : KpiEvent) : Option KpiState :=
  if state.now ≤ event.now then some ⟨event.now, callLogger config event state.logger⟩ else none

theorem kpiStep_some {config : KpiConfig} {state next : KpiState} {event : KpiEvent}
    (hstep : kpiStep config state event = some next) :
    state.now ≤ event.now ∧ next = ⟨event.now, callLogger config event state.logger⟩ := by
  unfold kpiStep at hstep
  split at hstep
  next hle => exact ⟨hle, (Option.some.inj hstep).symm⟩
  next => cases hstep

end DeepcV2x.Kpi
