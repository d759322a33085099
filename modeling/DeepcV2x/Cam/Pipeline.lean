import DeepcV2x.Foundation.Datagrams
import DeepcV2x.Foundation.Octets
import DeepcV2x.Kpi.Logger
import DeepcV2x.Pool.Assignment

/-!
# From the CAM applications to the KPI logger

`TagAndLogTx` and `ReceiveCam` of the applications of all physical UEs, over the
pool that vehicles come to and leave and the one logger they share.  A CAM goes
to all nodes as datagrams; the channel may lose, delay, reorder and duplicate
them.  When the service generates a CAM is not part of the model: it may do so
at any time.
-/

namespace DeepcV2x.Cam

open DeepcV2x.Foundation DeepcV2x.Foundation.Octets DeepcV2x.Kpi DeepcV2x.Pool

/-! ## The tag -/

structure KpiPacketTag where
  sequence : UInt64
  txTimeNs : Int64
  txVehicleId : VehicleId
  deriving DecidableEq, Repr

namespace KpiPacketTag

def serialize (tag : KpiPacketTag) : List UInt8 :=
  [htol 8 tag.sequence.toNat, htol 8 tag.txTimeNs.toUInt64.toNat,
    htol 4 tag.txVehicleId.toNat].flatten

def deserialize : Reader KpiPacketTag := do
  let sequence ← ltoh 8
  let txTimeNs ← ltoh 8
  let txVehicleId ← ltoh 4
  pure ⟨UInt64.ofNat sequence, (UInt64.ofNat txTimeNs).toInt64, UInt32.ofNat txVehicleId⟩

def key (tag : KpiPacketTag) : TxKey := (tag.txVehicleId, tag.sequence)

theorem reads_deserialize (tag : KpiPacketTag) : Reads deserialize tag.serialize tag := by
  have hvalue : KpiPacketTag.mk (UInt64.ofNat tag.sequence.toNat)
      (UInt64.ofNat tag.txTimeNs.toUInt64.toNat).toInt64 (UInt32.ofNat tag.txVehicleId.toNat) =
        tag := by
    rw [UInt64.ofNat_toNat, UInt64.ofNat_toNat, UInt32.ofNat_toNat, Int64.toInt64_toUInt64]
  have hvehicle : Reads (ltoh 4) (htol 4 tag.txVehicleId.toNat) tag.txVehicleId.toNat :=
    reads_ltoh tag.txVehicleId.toNat_lt
  refine Reads.cons (reads_ltoh tag.sequence.toNat_lt)
    (Reads.cons (reads_ltoh tag.txTimeNs.toUInt64.toNat_lt) ?_)
  have hread := hvehicle.map fun txVehicleId => KpiPacketTag.mk (UInt64.ofNat tag.sequence.toNat)
    (UInt64.ofNat tag.txTimeNs.toUInt64.toNat).toInt64 (UInt32.ofNat txVehicleId)
  rw [hvalue] at hread
  exact hread.last

end KpiPacketTag

/-- What a receiver reads of a CAM: its sender's address, the station id of its header, its size
and the octets of its KPI tag. -/
structure CamPacket where
  source : UInt32
  stationId : UInt32
  size : Nat
  kpiTag : Option (List UInt8)
  deriving DecidableEq, Repr

def CamPacket.peekPacketTag (packet : CamPacket) : Option KpiPacketTag :=
  packet.kpiTag.bind fun octets => (KpiPacketTag.deserialize octets).map Prod.fst

/-- A CAM on its way to a node. -/
abbrev CamDatagram := NodeId × CamPacket

/-! ## The fleet -/

structure FleetConfig where
  kpi : KpiConfig
  mobility : MobilityTable
  nodeIdToActiveTimeRangeS : NodeId → Option (ℚ × ℚ)
  localAddress : NodeId → UInt32
  ipToNodeId : UInt32 → Option NodeId

def FleetConfig.resolveNodeIdFromIpv4 (config : FleetConfig) (addr : UInt32) : NodeId :=
  (config.ipToNodeId addr).getD kInvalidNodeId

/-- A CAM that was tagged. -/
structure Sending where
  timeS : ℚ
  scene : Scene
  nodeId : NodeId
  vehicleId : VehicleId
  seq : UInt64

/-- A CAM that was handed to the logger when it was received. -/
structure Hearing where
  timeS : ℚ
  scene : Scene
  nodeId : NodeId
  vehicleId : VehicleId
  tag : KpiPacketTag

/-- What has happened so far; no function of the source reads it. -/
structure Past where
  calls : List KpiEvent
  sent : List Sending
  heard : List Hearing
  served : List (VehicleId × NodeId)

/-- The state of all nodes, with `m_nextKpiSequence` of each application. -/
structure Fleet where
  now : ℚ
  position : NodeId → Position
  pool : PoolState
  nextKpiSequence : NodeId → UInt64
  logger : KpiLogger
  past : Past

namespace Fleet

/-- The fleet before anything happens. -/
def start (pool : PoolState) (position : NodeId → Position) : Fleet where
  now := 0
  position := position
  pool := pool
  nextKpiSequence _ := 0
  logger := KpiLogger.initial
  past := ⟨[], [], [], []⟩

/-- What a call of the logger reads now. -/
def scene (config : FleetConfig) (fleet : Fleet) : Scene where
  dynamicActivePoolEnabled := fleet.pool.dynamicActivePoolEnabled
  nodeIdToVehicleId := fleet.pool.nodeIdToVehicleId
  vehicleIdToNodeId := fleet.pool.vehicleIdToNodeId
  nodeIdToActiveTimeRangeS := config.nodeIdToActiveTimeRangeS
  position := fleet.position

/-- A call of the shared logger. -/
def callKpi (config : FleetConfig) (call : KpiCall) (fleet : Fleet) : Fleet :=
  let event : KpiEvent := ⟨fleet.now, fleet.scene config, call⟩
  { fleet with
    logger := callLogger config.kpi event fleet.logger
    past := { fleet.past with calls := fleet.past.calls ++ [event] } }

/-- The tag an application attaches to its next CAM. -/
def nextTag (nodeId : NodeId) (app : CamApplication) (fleet : Fleet) : KpiPacketTag where
  sequence := fleet.nextKpiSequence nodeId
  txTimeNs := Int64.ofInt (fleet.now * 1000000000).floor
  txVehicleId := app.assignedVehicleId

/-- The tag and the logged transmission of an application that serves a vehicle. -/
def tagAndLog (config : FleetConfig) (nodeId : NodeId) (app : CamApplication) (fleet : Fleet) :
    Fleet :=
  let kpiSeq := fleet.nextKpiSequence nodeId
  let sending : Sending :=
    ⟨fleet.now, fleet.scene config, nodeId, app.assignedVehicleId, kpiSeq⟩
  { fleet with
    nextKpiSequence := Function.update fleet.nextKpiSequence nodeId (kpiSeq + 1)
    past := { fleet.past with sent := fleet.past.sent ++ [sending] } }.callKpi config
      (.logTx app.assignedVehicleId nodeId kpiSeq (fleet.position nodeId))

/-- The callback on a CAM before it is sent; the CAM is sent with or without a tag. -/
def tagAndLogTx (config : FleetConfig) (nodeId : NodeId) (app : CamApplication) (fleet : Fleet) :
    Fleet × Option KpiPacketTag :=
  if !app.running || decide (app.assignedVehicleId = kInvalidVehicleId) then (fleet, none)
  else (fleet.tagAndLog config nodeId app, some (fleet.nextTag nodeId app))

/-- The service of an application generates a CAM of some size for all nodes. -/
def generateCam (config : FleetConfig) (nodeId : NodeId) (size : Nat) (fleet : Fleet) :
    Option (Fleet × List CamDatagram) :=
  (fleet.pool.apps nodeId).map fun app =>
    let tagged := fleet.tagAndLogTx config nodeId app
    let packet : CamPacket := ⟨config.localAddress nodeId, app.stationId, size,
      tagged.2.map KpiPacketTag.serialize⟩
    (tagged.1, config.kpi.nodes.map fun destination => (destination, packet))

/-- The logged reception of an application that serves a vehicle. -/
def hear (config : FleetConfig) (nodeId : NodeId) (app : CamApplication) (tag : KpiPacketTag)
    (fleet : Fleet) : Fleet :=
  let hearing : Hearing :=
    ⟨fleet.now, fleet.scene config, nodeId, app.assignedVehicleId, tag⟩
  { fleet with past := { fleet.past with heard := fleet.past.heard ++ [hearing] } }.callKpi config
    (.logRx tag.txVehicleId app.assignedVehicleId tag.sequence (fleet.position nodeId))

def receiveCam (config : FleetConfig) (nodeId : NodeId) (app : CamApplication)
    (packet : CamPacket) (fleet : Fleet) : Fleet :=
  if decide (app.assignedVehicleId = kInvalidVehicleId) || packet.size == 0 then fleet
  else
    match packet.peekPacketTag with
    | none => fleet
    | some tag =>
        let txNodeId := config.resolveNodeIdFromIpv4 packet.source
        if txNodeId = kInvalidNodeId then fleet
        else if decide (tag.txVehicleId = kInvalidVehicleId) ||
            decide (packet.stationId ≠ tag.txVehicleId) ||
            !(fleet.scene config).isNodeAssignedToVehicle txNodeId tag.txVehicleId then fleet
        else fleet.hear config nodeId app tag

/-! ## Events -/

/-- `m_nextKpiSequence` is a member: a new application starts with 0. -/
def countersAfter (counters : NodeId → UInt64) : PoolEvent → NodeId → UInt64
  | .createApplication nodeId => Function.update counters nodeId 0
  | _ => counters

/-- The assignments so far, with the one an event makes. -/
def servedAfter (served : List (VehicleId × NodeId)) (next : PoolState) :
    PoolEvent → List (VehicleId × NodeId)
  | .assign vehicleId => served ++ [(vehicleId, resolveNodeIdForVehicle next vehicleId)]
  | _ => served

def changePool (config : FleetConfig) (event : PoolEvent) (fleet : Fleet) : Option Fleet :=
  (poolStep config.mobility fleet.pool event).map fun next =>
    { fleet with
      pool := next
      nextKpiSequence := countersAfter fleet.nextKpiSequence event
      past := { fleet.past with served := servedAfter fleet.past.served next event } }

/-- Time passes and the nodes move; time never runs backwards. -/
def advance (now : ℚ) (position : NodeId → Position) (fleet : Fleet) : Option Fleet :=
  if fleet.now ≤ now then some { fleet with now := now, position := position } else none

end Fleet

/-- What happens in the fleet besides the delivery of CAMs. -/
inductive FleetAction
  | advance (now : ℚ) (position : NodeId → Position)
  | changePool (event : PoolEvent)
  | generateCam (nodeId : NodeId) (size : Nat)
  | setCurrentInputs (pDbm tbS : ℚ)
  | sampleAndWrite (cbr : ℚ)

def fleetAct (config : FleetConfig) (fleet : Fleet) :
    FleetAction → Option (Fleet × List CamDatagram)
  | .advance now position => (fleet.advance now position).map (·, [])
  | .changePool event => (fleet.changePool config event).map (·, [])
  | .generateCam nodeId size => fleet.generateCam config nodeId size
  | .setCurrentInputs pDbm tbS => some (fleet.callKpi config (.setCurrentInputs pDbm tbS), [])
  | .sampleAndWrite cbr => some (fleet.callKpi config (.sampleAndWrite cbr), [])

/-- A CAM for a node without an application reaches nobody. -/
def fleetReceive (config : FleetConfig) (fleet : Fleet) (datagram : CamDatagram) :
    Option (Fleet × List CamDatagram) :=
  some
    (match fleet.pool.apps datagram.1 with
    | none => fleet
    | some app => fleet.receiveCam config datagram.1 app datagram.2, [])

/-- The fleet and the CAMs on their way. -/
def fleetStep (config : FleetConfig) :
    Datagrams.Network Fleet CamDatagram → Datagrams.Event FleetAction →
      Option (Datagrams.Network Fleet CamDatagram) :=
  Datagrams.step (fleetAct config) (fleetReceive config)

/-- What `main` arranges: each vehicle enters the pool at most once, each node gets one
application, and no application sends 2^64 CAMs. -/
def ArrangedByMain (fleet : Fleet) : FleetAction → Prop
  | .changePool (.assign vehicleId) => vehicleId ∉ fleet.past.served.map Prod.fst
  | .changePool (.createApplication nodeId) => fleet.pool.apps nodeId = none
  | .generateCam nodeId _ => fleet.nextKpiSequence nodeId ≠ 18446744073709551615
  | _ => True

instance ArrangedByMain.decidable (fleet : Fleet) : ∀ action, Decidable (ArrangedByMain fleet action)
  | .changePool (.assign vehicleId) =>
      inferInstanceAs (Decidable (vehicleId ∉ fleet.past.served.map Prod.fst))
  | .changePool (.createApplication nodeId) =>
      inferInstanceAs (Decidable (fleet.pool.apps nodeId = none))
  | .generateCam nodeId _ =>
      inferInstanceAs (Decidable (fleet.nextKpiSequence nodeId ≠ 18446744073709551615))
  | .advance _ _ | .setCurrentInputs _ _ | .sampleAndWrite _ | .changePool (.release _)
  | .changePool (.startApplication _) | .changePool (.stopApplication _) => .isTrue trivial

end DeepcV2x.Cam
