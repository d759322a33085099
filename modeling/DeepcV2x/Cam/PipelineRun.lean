import DeepcV2x.Cam.Pipeline
import DeepcV2x.Kpi.Window
import Mathlib.Algebra.Order.Field.Basic

/-!
# What the KPIs measure over a fleet

In every run of the fleet, whatever the channel does with the CAMs and however
often a node serves another vehicle, no key is logged twice, and the numbers of
a sample count the CAMs that were sent and heard.  The invariant keeps what was
sent and heard beside the calls the logger received.
-/

namespace DeepcV2x.Cam

open DeepcV2x.Foundation DeepcV2x.Kpi DeepcV2x.Pool

/-! ## What counts -/

def Sending.key (sending : Sending) : TxKey := (sending.vehicleId, sending.seq)

/-- The transmission the logger accepts, if it does. -/
def Sending.logged (config : KpiConfig) (sending : Sending) : Option TxEvent :=
  KpiLogger.txEventOf config sending.scene sending.vehicleId sending.nodeId sending.seq
    sending.timeS (sending.scene.position sending.nodeId)

def Hearing.triple (hearing : Hearing) : RxTriple :=
  (hearing.tag.txVehicleId, hearing.vehicleId, hearing.tag.sequence)

/-- A logged CAM was heard by one of its eligible receivers, in the evaluation window and in the
core. -/
structure Counted (config : KpiConfig) (sent : List Sending) (heard : List Hearing)
    (sending : Sending) (hearing : Hearing) : Prop where
  sent : sending ∈ sent
  heard : hearing ∈ heard
  key : sending.key = hearing.tag.key
  eligible : ∃ tx, sending.logged config = some tx ∧ hearing.vehicleId ∈ tx.rxAtTx
  insideWindow : config.isInsideEvaluationWindow hearing.timeS = true
  insideCore : config.isInsideCore (hearing.scene.position hearing.nodeId) = true
  node : hearing.nodeId ≠ kInvalidNodeId

/-- Both vehicles of a counted CAM were on the same two nodes when it was sent and when it was
heard, in range of each other when it was sent. -/
structure Carried (config : KpiConfig) (sending : Sending) (hearing : Hearing) : Prop where
  txAtTx : sending.scene.nodeIdToVehicleId sending.nodeId = some hearing.tag.txVehicleId
  rxAtTx : sending.scene.nodeIdToVehicleId hearing.nodeId = some hearing.vehicleId
  txAtRx : hearing.scene.nodeIdToVehicleId sending.nodeId = some hearing.tag.txVehicleId
  rxAtRx : hearing.scene.nodeIdToVehicleId hearing.nodeId = some hearing.vehicleId
  apart : sending.nodeId ≠ hearing.nodeId
  inOrder : sending.timeS ≤ hearing.timeS
  inRange : withinDistance (sending.scene.position sending.nodeId)
    (sending.scene.position hearing.nodeId) config.awarenessRangeM = true

/-- The logged transmissions of the window that ends at `now`. -/
def windowSent (config : KpiConfig) (now : ℚ) (sent : List Sending) : List TxEvent :=
  (sent.filterMap (Sending.logged config)).filter fun tx => now - config.kpiWindowS ≤ tx.timeS

/-- The triples of counted CAMs that were sent in the window. -/
def windowHeard (config : KpiConfig) (now : ℚ) (sent : List Sending) (heard : List Hearing) :
    Set RxTriple :=
  {triple | ∃ sending hearing, Counted config sent heard sending hearing ∧
    hearing.triple = triple ∧ now - config.kpiWindowS ≤ sending.timeS}

/-- What an accepted transmission says about its sending. -/
theorem Sending.logged_some {config : KpiConfig} {sending : Sending} {tx : TxEvent}
    (hlogged : sending.logged config = some tx) :
    tx.key = sending.key ∧ tx.timeS = sending.timeS ∧
      tx.rxAtTx = KpiLogger.eligibleReceivers config sending.scene sending.timeS sending.vehicleId
        sending.nodeId (sending.scene.position sending.nodeId) := by
  unfold Sending.logged KpiLogger.txEventOf at hlogged
  split at hlogged
  · cases hlogged
  · obtain rfl := Option.some.inj hlogged
    exact ⟨rfl, rfl, rfl⟩

/-- The keys of the accepted transmissions are keys of sendings, in their order. -/
theorem keys_sublist (config : KpiConfig) (sent : List Sending) :
    ((sent.filterMap (Sending.logged config)).map TxEvent.key).Sublist
      (sent.map Sending.key) := by
  induction sent with
  | nil => exact List.Sublist.slnil
  | cons sending rest ih =>
      rw [List.filterMap_cons]
      cases hlogged : sending.logged config with
      | none => exact ih.cons _
      | some tx =>
          rw [List.map_cons, List.map_cons, (Sending.logged_some hlogged).1]
          exact ih.cons_cons _

/-- An eligible receiver was on another node in range. -/
theorem exists_node_of_eligible {config : KpiConfig} {scene : Scene} {timeS : ℚ}
    {txVehicleId rxVehicleId : VehicleId} {txNodeId : NodeId} {posTx : Position}
    (heligible : rxVehicleId ∈ KpiLogger.eligibleReceivers config scene timeS txVehicleId txNodeId
      posTx) :
    ∃ nodeId, nodeId ≠ txNodeId ∧ scene.nodeIdToVehicleId nodeId = some rxVehicleId ∧
      withinDistance posTx (scene.position nodeId) config.awarenessRangeM = true := by
  obtain ⟨nodeId, hmem, hvehicle⟩ := List.mem_map.mp (List.mem_toFinset.mp heligible)
  have hpassed := (List.mem_filter.mp hmem).2
  simp only [Bool.and_eq_true, decide_eq_true_eq] at hpassed
  obtain ⟨⟨⟨⟨⟨hother, -⟩, hvalid⟩, -⟩, -⟩, hrange⟩ := hpassed
  refine ⟨nodeId, hother, ?_, hrange⟩
  cases hserved : scene.nodeIdToVehicleId nodeId with
  | none => exact absurd (by rw [Scene.resolveVehicleIdForNode, hserved]; rfl) hvalid
  | some vehicleId =>
      rw [← hvehicle, Scene.resolveVehicleIdForNode, hserved]
      rfl

/-! ## The invariant -/

/-- What stays true of a CAM that was sent. -/
structure SentBy (fleet : Fleet) (sending : Sending) : Prop where
  served : ∀ nodeId vehicleId, sending.scene.nodeIdToVehicleId nodeId = some vehicleId →
    (vehicleId, nodeId) ∈ fleet.past.served
  carrier : sending.scene.nodeIdToVehicleId sending.nodeId = some sending.vehicleId
  before : sending.timeS ≤ fleet.now
  counter : sending.seq.toNat < (fleet.nextKpiSequence sending.nodeId).toNat
  application : (fleet.pool.apps sending.nodeId).isSome = true

/-- What stays true of a CAM that was heard. -/
structure HeardBy (fleet : Fleet) (hearing : Hearing) : Prop where
  served : ∀ nodeId vehicleId, hearing.scene.nodeIdToVehicleId nodeId = some vehicleId →
    (vehicleId, nodeId) ∈ fleet.past.served
  carrier : hearing.scene.nodeIdToVehicleId hearing.nodeId = some hearing.vehicleId
  sender : ∃ nodeId, hearing.scene.nodeIdToVehicleId nodeId = some hearing.tag.txVehicleId
  sent : ∃ sending ∈ fleet.past.sent,
    sending.key = hearing.tag.key ∧ sending.timeS ≤ hearing.timeS

/-- The pool serves each vehicle at most once, keys are unique, and the logger agrees with what
was sent and heard. -/
structure FleetInvariant (config : FleetConfig) (poolNodeIds : Finset NodeId) (fleet : Fleet) :
    Prop where
  pool : PoolInvariant config.mobility poolNodeIds fleet.pool
  serving : ∀ nodeId vehicleId, fleet.pool.nodeIdToVehicleId nodeId = some vehicleId →
    (vehicleId, nodeId) ∈ fleet.past.served
  once : (fleet.past.served.map Prod.fst).Nodup
  sent : ∀ sending ∈ fleet.past.sent, SentBy fleet sending
  keys : (fleet.past.sent.map Sending.key).Nodup
  heard : ∀ hearing ∈ fleet.past.heard, HeardBy fleet hearing
  accepted : acceptedTx config.kpi fleet.past.calls =
    fleet.past.sent.filterMap (Sending.logged config.kpi)
  received : ∀ triple, Received config.kpi fleet.past.calls triple ↔
    ∃ sending hearing, Counted config.kpi fleet.past.sent fleet.past.heard sending hearing ∧
      hearing.triple = triple
  logger : KpiInvariant config.kpi fleet.past.calls fleet.now fleet.logger

/-- The tag of a genuine CAM was attached by a sender. -/
def GenuineCam (fleet : Fleet) (datagram : CamDatagram) : Prop :=
  ∀ tag, datagram.2.peekPacketTag = some tag →
    ∃ sending ∈ fleet.past.sent, sending.key = tag.key

/-- What no event of the fleet takes back. -/
structure Later (before after : Fleet) : Prop where
  now : before.now ≤ after.now
  served : before.past.served ⊆ after.past.served
  sent : before.past.sent ⊆ after.past.sent
  application : ∀ nodeId, (before.pool.apps nodeId).isSome = true →
    (after.pool.apps nodeId).isSome = true
  counter : ∀ nodeId, (before.pool.apps nodeId).isSome = true →
    (before.nextKpiSequence nodeId).toNat ≤ (after.nextKpiSequence nodeId).toNat

theorem SentBy.later {before after : Fleet} (later : Later before after) {sending : Sending}
    (sent : SentBy before sending) : SentBy after sending where
  served nodeId vehicleId hserved := later.served (sent.served nodeId vehicleId hserved)
  carrier := sent.carrier
  before := sent.before.trans later.now
  counter := sent.counter.trans_le (later.counter sending.nodeId sent.application)
  application := later.application sending.nodeId sent.application

theorem HeardBy.later {before after : Fleet} (later : Later before after) {hearing : Hearing}
    (heard : HeardBy before hearing) : HeardBy after hearing where
  served nodeId vehicleId hserved := later.served (heard.served nodeId vehicleId hserved)
  carrier := heard.carrier
  sender := heard.sender
  sent := by
    obtain ⟨sending, hmem, hrest⟩ := heard.sent
    exact ⟨sending, later.sent hmem, hrest⟩

theorem GenuineCam.later {before after : Fleet} (later : Later before after)
    {datagram : CamDatagram} (genuine : GenuineCam before datagram) : GenuineCam after datagram := by
  intro tag htag
  obtain ⟨sending, hmem, hkey⟩ := genuine tag htag
  exact ⟨sending, later.sent hmem, hkey⟩

namespace FleetInvariant

variable {config : FleetConfig} {poolNodeIds : Finset NodeId} {fleet : Fleet}

theorem uniqueKeys (inv : FleetInvariant config poolNodeIds fleet) :
    UniqueKeys config.kpi fleet.past.calls := by
  rw [UniqueKeys, inv.accepted]
  exact (keys_sublist config.kpi fleet.past.sent).nodup inv.keys

/-- A vehicle was served by one node only. -/
theorem served_eq (inv : FleetInvariant config poolNodeIds fleet) {vehicleId : VehicleId}
    {left right : NodeId} (hleft : (vehicleId, left) ∈ fleet.past.served)
    (hright : (vehicleId, right) ∈ fleet.past.served) : left = right :=
  congrArg Prod.snd (List.inj_on_of_nodup_map inv.once hleft hright rfl)

theorem sent_eq (inv : FleetInvariant config poolNodeIds fleet) {left right : Sending}
    (hleft : left ∈ fleet.past.sent) (hright : right ∈ fleet.past.sent)
    (same : left.key = right.key) : left = right :=
  List.inj_on_of_nodup_map inv.keys hleft hright same

/-- Counted CAMs are carried between the two nodes of their vehicles. -/
theorem carried (inv : FleetInvariant config poolNodeIds fleet) {sending : Sending}
    {hearing : Hearing}
    (counted : Counted config.kpi fleet.past.sent fleet.past.heard sending hearing) :
    Carried config.kpi sending hearing := by
  have sent := inv.sent sending counted.sent
  have heard := inv.heard hearing counted.heard
  obtain ⟨hvehicle, hseq⟩ : sending.vehicleId = hearing.tag.txVehicleId ∧
      sending.seq = hearing.tag.sequence := Prod.mk.inj counted.key
  obtain ⟨tx, hlogged, hin⟩ := counted.eligible
  rw [(Sending.logged_some hlogged).2.2] at hin
  obtain ⟨rxNodeId, hother, hrx, hrange⟩ := exists_node_of_eligible hin
  obtain ⟨txNodeId, htx⟩ := heard.sender
  have hcarrier : sending.scene.nodeIdToVehicleId sending.nodeId = some hearing.tag.txVehicleId :=
    hvehicle ▸ sent.carrier
  have hrxNode : rxNodeId = hearing.nodeId :=
    inv.served_eq (sent.served _ _ hrx) (heard.served _ _ heard.carrier)
  have htxNode : txNodeId = sending.nodeId :=
    inv.served_eq (heard.served _ _ htx) (sent.served _ _ hcarrier)
  obtain ⟨origin, horigin, hkey, hbefore⟩ := heard.sent
  have horiginal : origin = sending :=
    inv.sent_eq horigin counted.sent (hkey.trans counted.key.symm)
  exact {
    txAtTx := hcarrier
    rxAtTx := hrxNode ▸ hrx
    txAtRx := htxNode ▸ htx
    rxAtRx := heard.carrier
    apart := fun same => hother (hrxNode.trans same.symm)
    inOrder := horiginal ▸ hbefore
    inRange := hrxNode ▸ hrange }

end FleetInvariant

/-! ## Pool events -/

theorem execute_of_poolStep {mobility : MobilityTable} {pool next : PoolState} {event : PoolEvent}
    (hstep : poolStep mobility pool event = some next) :
    execute mobility pool event = .ok next := by
  unfold poolStep at hstep
  cases hexecute : execute mobility pool event with
  | error abort =>
      rw [hexecute] at hstep
      cases hstep
  | ok result =>
      rw [hexecute] at hstep
      exact congrArg Except.ok (Option.some.inj hstep)

/-- A changed application is still there. -/
theorem isSome_update_map (apps : NodeId → Option CamApplication) (changed nodeId : NodeId)
    (change : CamApplication → CamApplication) :
    (Function.update apps changed ((apps changed).map change) nodeId).isSome =
      (apps nodeId).isSome := by
  rw [Function.update_apply]
  split
  next same => rw [same, Option.isSome_map]
  next => rfl

theorem execute_apps {mobility : MobilityTable} {pool next : PoolState} {event : PoolEvent}
    (hok : execute mobility pool event = .ok next) {nodeId : NodeId}
    (happ : (pool.apps nodeId).isSome = true) : (next.apps nodeId).isSome = true := by
  cases event with
  | assign vehicleId =>
      obtain ⟨taken, free, rows, -, -, -, -, -, rfl⟩ := assignVehicleToPool_ok hok
      exact (isSome_update_map pool.apps taken nodeId _).trans happ
  | release vehicleId =>
      rcases releaseVehicleFromPool_ok hok with ⟨-, rfl⟩ | ⟨freed, -, rfl⟩
      · exact happ
      · exact (isSome_update_map pool.apps freed nodeId _).trans happ
  | createApplication created =>
      cases hok
      simp only [createApplication, Function.update_apply]
      split
      · rfl
      · exact happ
  | startApplication started =>
      cases hok
      exact (isSome_update_map pool.apps started nodeId _).trans happ
  | stopApplication stopped =>
      cases hok
      exact (isSome_update_map pool.apps stopped nodeId _).trans happ

/-- Only the counter of a new application changes. -/
theorem countersAfter_eq {fleet : Fleet} {event : PoolEvent}
    (harranged : ArrangedByMain fleet (.changePool event)) {nodeId : NodeId}
    (happ : (fleet.pool.apps nodeId).isSome = true) :
    Fleet.countersAfter fleet.nextKpiSequence event nodeId = fleet.nextKpiSequence nodeId := by
  cases event with
  | createApplication created =>
      have hother : nodeId ≠ created := by
        rintro rfl
        rw [show fleet.pool.apps nodeId = none from harranged] at happ
        cases happ
      exact Function.update_of_ne hother _ _
  | _ => rfl

theorem served_subset (served : List (VehicleId × NodeId)) (next : PoolState) (event : PoolEvent) :
    served ⊆ Fleet.servedAfter served next event := by
  cases event with
  | assign vehicleId => exact List.subset_append_left _ _
  | _ => exact List.Subset.refl _

theorem servedAfter_once {fleet : Fleet} {event : PoolEvent} (next : PoolState)
    (harranged : ArrangedByMain fleet (.changePool event))
    (once : (fleet.past.served.map Prod.fst).Nodup) :
    ((Fleet.servedAfter fleet.past.served next event).map Prod.fst).Nodup := by
  cases event with
  | assign vehicleId =>
      have hnew : vehicleId ∉ fleet.past.served.map Prod.fst := harranged
      rw [Fleet.servedAfter, List.map_append, List.map_singleton]
      refine List.Nodup.append once (List.nodup_singleton _) fun other hold hin => ?_
      rw [List.mem_singleton.mp hin] at hold
      exact hnew hold
  | _ => exact once

/-- A node that serves a vehicle after an event served it before or takes it by the event. -/
theorem serving_after {mobility : MobilityTable} {pool next : PoolState} {event : PoolEvent}
    {served : List (VehicleId × NodeId)}
    (serving : ∀ nodeId vehicleId, pool.nodeIdToVehicleId nodeId = some vehicleId →
      (vehicleId, nodeId) ∈ served)
    (hok : execute mobility pool event = .ok next) {nodeId : NodeId} {vehicleId : VehicleId}
    (hserves : next.nodeIdToVehicleId nodeId = some vehicleId) :
    (vehicleId, nodeId) ∈ Fleet.servedAfter served next event := by
  cases event with
  | assign assigned =>
      obtain ⟨taken, free, rows, -, -, -, -, -, rfl⟩ := assignVehicleToPool_ok hok
      have hserves : Function.update pool.nodeIdToVehicleId taken (some assigned) nodeId =
          some vehicleId := hserves
      have hresolve : resolveNodeIdForVehicle (pool.attach assigned taken free rows) assigned =
          taken := by
        simp only [resolveNodeIdForVehicle, PoolState.attach, Function.update_self,
          Option.getD_some]
      rw [Fleet.servedAfter, hresolve]
      by_cases hnode : nodeId = taken
      · rw [hnode, Function.update_self] at hserves
        rw [hnode, ← Option.some.inj hserves]
        exact List.mem_append_right _ List.mem_cons_self
      · rw [Function.update_of_ne hnode] at hserves
        exact List.mem_append_left _ (serving nodeId vehicleId hserves)
  | release released =>
      rcases releaseVehicleFromPool_ok hok with ⟨-, rfl⟩ | ⟨freed, -, rfl⟩
      · exact serving nodeId vehicleId hserves
      · have hserves : Function.update pool.nodeIdToVehicleId freed none nodeId =
            some vehicleId := hserves
        by_cases hnode : nodeId = freed
        · rw [hnode, Function.update_self] at hserves
          cases hserves
        · rw [Function.update_of_ne hnode] at hserves
          exact serving nodeId vehicleId hserves
  | createApplication created =>
      cases hok
      exact serving nodeId vehicleId hserves
  | startApplication started =>
      cases hok
      exact serving nodeId vehicleId hserves
  | stopApplication stopped =>
      cases hok
      exact serving nodeId vehicleId hserves

/-- What the logger still asks of the nodes when both vehicles are served. -/
theorem rxNodesAccepted_iff (config : KpiConfig) (scene : Scene) (timeS : ℚ)
    {txVehicleId rxVehicleId : VehicleId} {txNodeId rxNodeId : NodeId}
    (henabled : scene.dynamicActivePoolEnabled = true)
    (htx : scene.vehicleIdToNodeId txVehicleId = some txNodeId ∧
      scene.nodeIdToVehicleId txNodeId = some txVehicleId)
    (hrx : scene.vehicleIdToNodeId rxVehicleId = some rxNodeId ∧
      scene.nodeIdToVehicleId rxNodeId = some rxVehicleId)
    (htxValid : txVehicleId ≠ kInvalidVehicleId) (hrxValid : rxVehicleId ≠ kInvalidVehicleId)
    (htxNode : txNodeId ≠ kInvalidNodeId) :
    KpiLogger.rxNodesAccepted config scene txVehicleId rxVehicleId timeS = true ↔
      config.isInsideEvaluationWindow timeS = true ∧ rxNodeId ≠ kInvalidNodeId := by
  simp [KpiLogger.rxNodesAccepted, Scene.resolveNodeIdForVehicle, Scene.isNodeActiveAtTime,
    Scene.isNodeAssignedToVehicle, Scene.resolveVehicleIdForNode, henabled, htx, hrx, htxValid,
    hrxValid, htxNode]

/-! ## The invariant over the events -/

namespace FleetInvariant

variable {config : FleetConfig} {poolNodeIds : Finset NodeId} {fleet : Fleet}

/-- A pool event touches neither what was sent and heard nor the logger. -/
theorem changePool (inv : FleetInvariant config poolNodeIds fleet) {event : PoolEvent}
    (harranged : ArrangedByMain fleet (.changePool event)) {next : Fleet}
    (hnext : fleet.changePool config event = some next) :
    FleetInvariant config poolNodeIds next ∧ Later fleet next := by
  obtain ⟨pool, hpool, rfl⟩ := Option.map_eq_some_iff.mp hnext
  have hok := execute_of_poolStep hpool
  have later : Later fleet
      { fleet with
        pool := pool
        nextKpiSequence := Fleet.countersAfter fleet.nextKpiSequence event
        past := { fleet.past with
          served := Fleet.servedAfter fleet.past.served pool event } } :=
    { now := le_rfl
      served := served_subset _ _ _
      sent := List.Subset.refl _
      application := fun nodeId happ => execute_apps hok happ
      counter := fun nodeId happ =>
        (congrArg UInt64.toNat (countersAfter_eq harranged happ)).ge }
  refine ⟨?_, later⟩
  exact {
    pool := inv.pool.step hok
    serving := fun nodeId vehicleId hserves => serving_after inv.serving hok hserves
    once := servedAfter_once pool harranged inv.once
    sent := fun sending hmem => (inv.sent sending hmem).later later
    keys := inv.keys
    heard := fun hearing hmem => (inv.heard hearing hmem).later later
    accepted := inv.accepted
    received := inv.received
    logger := inv.logger }

theorem advance (inv : FleetInvariant config poolNodeIds fleet) {now : ℚ}
    {position : NodeId → Position} {next : Fleet} (hnext : fleet.advance now position = some next) :
    FleetInvariant config poolNodeIds next ∧ Later fleet next := by
  unfold Fleet.advance at hnext
  split at hnext
  next hle =>
    obtain rfl := Option.some.inj hnext
    have later : Later fleet { fleet with now := now, position := position } :=
      ⟨hle, List.Subset.refl _, List.Subset.refl _, fun _ => id, fun _ _ => le_rfl⟩
    refine ⟨?_, later⟩
    exact {
      pool := inv.pool
      serving := inv.serving
      once := inv.once
      sent := fun sending hmem => (inv.sent sending hmem).later later
      keys := inv.keys
      heard := fun hearing hmem => (inv.heard hearing hmem).later later
      accepted := inv.accepted
      received := inv.received
      logger := inv.logger.wait hle }
  next => cases hnext

/-- One call of the logger. -/
theorem logger_call {calls : List KpiEvent} {now : ℚ} {logger : KpiLogger}
    (inv : KpiInvariant config.kpi calls now logger) (scene : Scene) (call : KpiCall)
    (unique : UniqueKeys config.kpi (calls ++ [⟨now, scene, call⟩])) :
    KpiInvariant config.kpi (calls ++ [⟨now, scene, call⟩]) now
      (callLogger config.kpi ⟨now, scene, call⟩ logger) := by
  have hstep : kpiStep config.kpi ⟨now, logger⟩ ⟨now, scene, call⟩ =
      some ⟨now, callLogger config.kpi ⟨now, scene, call⟩ logger⟩ := if_pos le_rfl
  have hbefore : KpiInvariant config.kpi calls (KpiState.mk now logger).now
      (KpiState.mk now logger).logger := inv
  exact hbefore.step unique hstep

/-- A call that logs neither a transmission nor a reception. -/
theorem quietCall (inv : FleetInvariant config poolNodeIds fleet) {call : KpiCall}
    (htx : ∀ scene : Scene, txOf config.kpi ⟨fleet.now, scene, call⟩ = none)
    (hrx : ∀ txVehicleId rxVehicleId seq posRx,
      call ≠ .logRx txVehicleId rxVehicleId seq posRx) :
    FleetInvariant config poolNodeIds (fleet.callKpi config call) ∧
      Later fleet (fleet.callKpi config call) := by
  have haccepted : acceptedTx config.kpi (fleet.callKpi config call).past.calls =
      acceptedTx config.kpi fleet.past.calls := by
    simp only [Fleet.callKpi, acceptedTx_snoc, htx, Option.toList_none, List.append_nil]
  have later : Later fleet (fleet.callKpi config call) :=
    ⟨le_rfl, List.Subset.refl _, List.Subset.refl _, fun _ => id, fun _ _ => le_rfl⟩
  have unique : UniqueKeys config.kpi (fleet.callKpi config call).past.calls := by
    rw [UniqueKeys, haccepted]
    exact inv.uniqueKeys
  refine ⟨?_, later⟩
  exact {
    pool := inv.pool
    serving := inv.serving
    once := inv.once
    sent := fun sending hmem => (inv.sent sending hmem).later later
    keys := inv.keys
    heard := fun hearing hmem => (inv.heard hearing hmem).later later
    accepted := haccepted.trans inv.accepted
    received := fun triple => by
      simp only [Fleet.callKpi, received_snoc_iff]
      rw [or_iff_left (by rintro ⟨posRx, hcall, -⟩; exact hrx _ _ _ _ hcall), inv.received]
    logger := logger_call inv.logger _ call unique }

/-- The node of an application with a vehicle serves that vehicle. -/
theorem serves (inv : FleetInvariant config poolNodeIds fleet) {nodeId : NodeId}
    {app : CamApplication} (happ : fleet.pool.apps nodeId = some app)
    (hvalid : app.assignedVehicleId ≠ kInvalidVehicleId) :
    fleet.pool.nodeIdToVehicleId nodeId = some app.assignedVehicleId := by
  have hagrees := (inv.pool.agrees nodeId).appVehicle app happ
  cases hserved : fleet.pool.nodeIdToVehicleId nodeId with
  | none =>
      rw [hserved] at hagrees
      exact absurd hagrees hvalid
  | some vehicleId =>
      rw [hserved] at hagrees
      exact congrArg some hagrees.symm

/-- The key of the next CAM is new. -/
theorem next_key_fresh (inv : FleetInvariant config poolNodeIds fleet) {nodeId : NodeId}
    {vehicleId : VehicleId} (hserves : fleet.pool.nodeIdToVehicleId nodeId = some vehicleId) :
    ∀ sending ∈ fleet.past.sent, sending.key ≠ (vehicleId, fleet.nextKpiSequence nodeId) := by
  intro sending hmem same
  have sent := inv.sent sending hmem
  obtain ⟨hvehicle, hseq⟩ := Prod.mk.inj same
  have hnode : sending.nodeId = nodeId :=
    inv.served_eq (hvehicle ▸ sent.served _ _ sent.carrier) (inv.serving _ _ hserves)
  have hcounter := sent.counter
  rw [hnode, hseq] at hcounter
  exact lt_irrefl _ hcounter

/-- A tagged CAM has a new key; its transmission is logged under that key. -/
theorem tagAndLog (inv : FleetInvariant config poolNodeIds fleet) {nodeId : NodeId}
    {app : CamApplication} (happ : fleet.pool.apps nodeId = some app)
    (hvalid : app.assignedVehicleId ≠ kInvalidVehicleId)
    (hcounter : fleet.nextKpiSequence nodeId ≠ 18446744073709551615) :
    FleetInvariant config poolNodeIds (fleet.tagAndLog config nodeId app) ∧
      Later fleet (fleet.tagAndLog config nodeId app) := by
  have hserves := inv.serves happ hvalid
  have hfresh := inv.next_key_fresh hserves
  set sending : Sending := ⟨fleet.now, fleet.scene config, nodeId, app.assignedVehicleId,
    fleet.nextKpiSequence nodeId⟩
  have hnext : (fleet.nextKpiSequence nodeId + 1).toNat =
      (fleet.nextKpiSequence nodeId).toNat + 1 := by
    have hne : (fleet.nextKpiSequence nodeId).toNat ≠ 18446744073709551615 := fun same =>
      hcounter (UInt64.toNat_inj.mp same)
    have hlt := (fleet.nextKpiSequence nodeId).toNat_lt
    rw [UInt64.toNat_add, UInt64.toNat_one]
    omega
  have hsent : (fleet.tagAndLog config nodeId app).past.sent = fleet.past.sent ++ [sending] := rfl
  have hcounters : (fleet.tagAndLog config nodeId app).nextKpiSequence =
      Function.update fleet.nextKpiSequence nodeId (fleet.nextKpiSequence nodeId + 1) := rfl
  have later : Later fleet (fleet.tagAndLog config nodeId app) := by
    refine ⟨le_rfl, List.Subset.refl _, List.subset_append_left _ _, fun _ => id,
      fun other _ => ?_⟩
    rw [hcounters, Function.update_apply]
    split
    next same => rw [same, hnext]; exact Nat.le_succ _
    next => exact le_rfl
  have haccepted : acceptedTx config.kpi (fleet.tagAndLog config nodeId app).past.calls =
      (fleet.past.sent ++ [sending]).filterMap (Sending.logged config.kpi) := by
    have hlogged : txOf config.kpi ⟨fleet.now, fleet.scene config,
        .logTx app.assignedVehicleId nodeId (fleet.nextKpiSequence nodeId)
          (fleet.position nodeId)⟩ = sending.logged config.kpi := rfl
    rw [List.filterMap_append, ← inv.accepted]
    change acceptedTx config.kpi (fleet.past.calls ++ [_]) = _
    rw [acceptedTx_snoc]
    change acceptedTx config.kpi fleet.past.calls ++ (sending.logged config.kpi).toList = _
    cases hcase : sending.logged config.kpi with
    | none => rw [List.filterMap_cons_none hcase]; rfl
    | some tx => rw [List.filterMap_cons_some hcase]; rfl
  have hkeys : ((fleet.past.sent ++ [sending]).map Sending.key).Nodup := by
    rw [List.map_append, List.map_singleton]
    refine List.Nodup.append inv.keys (List.nodup_singleton _) fun key hold hin => ?_
    obtain ⟨old, hmem, rfl⟩ := List.mem_map.mp hold
    exact hfresh old hmem (List.mem_singleton.mp hin)
  have unique : UniqueKeys config.kpi (fleet.tagAndLog config nodeId app).past.calls := by
    rw [UniqueKeys, haccepted]
    exact (keys_sublist config.kpi _).nodup hkeys
  refine ⟨?_, later⟩
  exact {
    pool := inv.pool
    serving := inv.serving
    once := inv.once
    sent := fun other hmem => by
      rw [hsent] at hmem
      rcases List.mem_append.mp hmem with hold | hnew
      · exact (inv.sent other hold).later later
      · obtain rfl := List.mem_singleton.mp hnew
        refine ⟨inv.serving, hserves, le_rfl, ?_, Option.isSome_of_eq_some happ⟩
        rw [hcounters, Function.update_self, hnext]
        exact Nat.lt_succ_self _
    keys := hkeys
    heard := fun hearing hmem => (inv.heard hearing hmem).later later
    accepted := haccepted
    received := fun triple => by
      change Received config.kpi (fleet.past.calls ++ [_]) triple ↔ _
      rw [received_snoc_iff, or_iff_left (by rintro ⟨posRx, hcall, -⟩; cases hcall), inv.received]
      constructor
      · rintro ⟨old, hearing, counted, rfl⟩
        exact ⟨old, hearing, { counted with sent := List.mem_append_left _ counted.sent }, rfl⟩
      · rintro ⟨old, hearing, counted, rfl⟩
        refine ⟨old, hearing, { counted with sent := ?_ }, rfl⟩
        rcases List.mem_append.mp counted.sent with hold | hnew
        · exact hold
        · -- nobody can have heard the CAM that is sent now
          obtain rfl := List.mem_singleton.mp hnew
          obtain ⟨origin, horigin, hkey, -⟩ := (inv.heard hearing counted.heard).sent
          exact absurd (hkey.trans counted.key.symm) (hfresh origin horigin)
    logger := logger_call inv.logger _ _ unique }

/-- The logger receives the triple of a CAM exactly when the CAM counts. -/
theorem receives_iff (inv : FleetInvariant config poolNodeIds fleet) {hearing : Hearing}
    (htime : hearing.timeS = fleet.now) (hscene : hearing.scene = fleet.scene config)
    (hcarrier : fleet.pool.nodeIdToVehicleId hearing.nodeId = some hearing.vehicleId)
    (hvalid : hearing.vehicleId ≠ kInvalidVehicleId)
    (htxValid : hearing.tag.txVehicleId ≠ kInvalidVehicleId) {txNodeId : NodeId}
    (htxNode : txNodeId ≠ kInvalidNodeId)
    (hsender : fleet.pool.nodeIdToVehicleId txNodeId = some hearing.tag.txVehicleId)
    (triple : RxTriple) :
    Receives config.kpi (acceptedTx config.kpi fleet.past.calls)
        ⟨fleet.now, fleet.scene config, .logRx hearing.tag.txVehicleId hearing.vehicleId
          hearing.tag.sequence (fleet.position hearing.nodeId)⟩ triple ↔
      ∃ sending, Counted config.kpi fleet.past.sent (fleet.past.heard ++ [hearing]) sending
        hearing ∧ hearing.triple = triple := by
  have hnodes := rxNodesAccepted_iff config.kpi (fleet.scene config) fleet.now inv.pool.enabled
    ⟨(inv.pool.inverse _ _).mpr hsender, hsender⟩ ⟨(inv.pool.inverse _ _).mpr hcarrier, hcarrier⟩
    htxValid hvalid htxNode
  have hposition : hearing.scene.position hearing.nodeId = fleet.position hearing.nodeId := by
    rw [hscene]
    rfl
  constructor
  · rintro ⟨posRx, hcall, haccepted, hcore, tx, hlogged, hkey, hin⟩
    obtain ⟨rfl, hpos⟩ : hearing.triple = triple ∧ fleet.position hearing.nodeId = posRx := by
      injection hcall with htx hrx hseq hpos
      exact ⟨Prod.ext htx (Prod.ext hrx hseq), hpos⟩
    obtain ⟨hinside, hnode⟩ := hnodes.mp haccepted
    rw [inv.accepted] at hlogged
    obtain ⟨sending, hsent, hlogged⟩ := List.mem_filterMap.mp hlogged
    refine ⟨sending, ?_, rfl⟩
    exact {
      sent := hsent
      heard := List.mem_append_right _ List.mem_cons_self
      key := (Sending.logged_some hlogged).1.symm.trans hkey
      eligible := ⟨tx, hlogged, hin⟩
      insideWindow := htime ▸ hinside
      insideCore := by rw [hposition, hpos]; exact hcore
      node := hnode }
  · rintro ⟨sending, counted, rfl⟩
    obtain ⟨tx, hlogged, hin⟩ := counted.eligible
    refine ⟨fleet.position hearing.nodeId, rfl, ?_, ?_, tx, ?_, ?_, hin⟩
    · exact hnodes.mpr ⟨htime ▸ counted.insideWindow, counted.node⟩
    · rw [← hposition]
      exact counted.insideCore
    · rw [inv.accepted]
      exact List.mem_filterMap.mpr ⟨sending, counted.sent, hlogged⟩
    · exact (Sending.logged_some hlogged).1.trans counted.key

/-- A genuine CAM is logged as a reception when its vehicle is still where it was. -/
theorem hear (inv : FleetInvariant config poolNodeIds fleet) {nodeId : NodeId}
    {app : CamApplication} (happ : fleet.pool.apps nodeId = some app)
    (hvalid : app.assignedVehicleId ≠ kInvalidVehicleId) {tag : KpiPacketTag}
    (hgenuine : ∃ sending ∈ fleet.past.sent, sending.key = tag.key)
    (htxValid : tag.txVehicleId ≠ kInvalidVehicleId) {txNodeId : NodeId}
    (htxNode : txNodeId ≠ kInvalidNodeId)
    (hsender : fleet.pool.nodeIdToVehicleId txNodeId = some tag.txVehicleId) :
    FleetInvariant config poolNodeIds (fleet.hear config nodeId app tag) ∧
      Later fleet (fleet.hear config nodeId app tag) := by
  have hserves := inv.serves happ hvalid
  set hearing : Hearing := ⟨fleet.now, fleet.scene config, nodeId, app.assignedVehicleId, tag⟩
    with hhearing
  have hreceives := @receives_iff config poolNodeIds fleet inv hearing rfl rfl hserves hvalid htxValid
    txNodeId htxNode hsender
  have later : Later fleet (fleet.hear config nodeId app tag) :=
    ⟨le_rfl, List.Subset.refl _, List.Subset.refl _, fun _ => id, fun _ _ => le_rfl⟩
  have haccepted : acceptedTx config.kpi (fleet.hear config nodeId app tag).past.calls =
      acceptedTx config.kpi fleet.past.calls := by
    change acceptedTx config.kpi (fleet.past.calls ++ [_]) = _
    rw [acceptedTx_snoc]
    exact List.append_nil _
  have unique : UniqueKeys config.kpi (fleet.hear config nodeId app tag).past.calls := by
    rw [UniqueKeys, haccepted]
    exact inv.uniqueKeys
  refine ⟨?_, later⟩
  exact {
    pool := inv.pool
    serving := inv.serving
    once := inv.once
    sent := fun sending hmem => (inv.sent sending hmem).later later
    keys := inv.keys
    heard := fun other hmem => by
      have hmem : other ∈ fleet.past.heard ++ [hearing] := hmem
      rcases List.mem_append.mp hmem with hold | hnew
      · exact (inv.heard other hold).later later
      · rw [List.mem_singleton.mp hnew]
        obtain ⟨sending, hsent, hkey⟩ := hgenuine
        exact ⟨inv.serving, hserves, ⟨txNodeId, hsender⟩,
          ⟨sending, hsent, hkey, (inv.sent sending hsent).before⟩⟩
    accepted := haccepted.trans inv.accepted
    received := fun triple => by
      change Received config.kpi (fleet.past.calls ++ [_]) triple ↔ _
      rw [received_snoc_iff, inv.received]
      constructor
      · rintro (⟨sending, old, counted, rfl⟩ | hnew)
        · exact ⟨sending, old, { counted with heard := List.mem_append_left _ counted.heard }, rfl⟩
        · obtain ⟨sending, counted, same⟩ := (hreceives triple).mp hnew
          exact ⟨sending, hearing, counted, same⟩
      · rintro ⟨sending, other, counted, rfl⟩
        rcases List.mem_append.mp counted.heard with hold | hnew
        · exact Or.inl ⟨sending, other, { counted with heard := hold }, rfl⟩
        · obtain rfl := List.mem_singleton.mp hnew
          exact Or.inr ((hreceives _).mpr ⟨sending, counted, rfl⟩)
    logger := logger_call inv.logger _ _ unique }

/-- What a receiver does with a genuine CAM. -/
theorem receiveCam (inv : FleetInvariant config poolNodeIds fleet) {nodeId : NodeId}
    {app : CamApplication} (happ : fleet.pool.apps nodeId = some app) {packet : CamPacket}
    (genuine : GenuineCam fleet (nodeId, packet)) :
    FleetInvariant config poolNodeIds (fleet.receiveCam config nodeId app packet) ∧
      Later fleet (fleet.receiveCam config nodeId app packet) := by
  have unchanged : FleetInvariant config poolNodeIds fleet ∧ Later fleet fleet :=
    ⟨inv, le_rfl, List.Subset.refl _, List.Subset.refl _, fun _ => id, fun _ _ => le_rfl⟩
  unfold Fleet.receiveCam
  split
  · exact unchanged
  next hserving =>
    have hvalid : app.assignedVehicleId ≠ kInvalidVehicleId := fun same => by
      rw [decide_eq_true same, Bool.true_or] at hserving
      exact hserving rfl
    cases hpeek : packet.peekPacketTag with
    | none => exact unchanged
    | some tag =>
        dsimp only
        split
        · exact unchanged
        next htxNode =>
          split
          · exact unchanged
          next hchecked =>
            simp only [Bool.or_eq_true, decide_eq_true_eq, Bool.not_eq_true', not_or,
              Bool.not_eq_false] at hchecked
            obtain ⟨⟨htxValid, -⟩, hassigned⟩ := hchecked
            have hresolve : (fleet.pool.nodeIdToVehicleId
                (config.resolveNodeIdFromIpv4 packet.source)).getD kInvalidVehicleId =
                  tag.txVehicleId := of_decide_eq_true hassigned
            refine inv.hear happ hvalid (genuine tag hpeek) htxValid htxNode ?_
            cases hsender : fleet.pool.nodeIdToVehicleId
                (config.resolveNodeIdFromIpv4 packet.source) with
            | none =>
                rw [hsender] at hresolve
                exact absurd hresolve.symm htxValid
            | some vehicleId =>
                rw [hsender] at hresolve
                exact congrArg some hresolve

/-- A receiver reads the tag that was attached. -/
theorem peekPacketTag_serialize (source stationId : UInt32) (size : Nat) (tag : KpiPacketTag) :
    (CamPacket.mk source stationId size (some tag.serialize)).peekPacketTag = some tag := by
  have hread := tag.reads_deserialize []
  rw [List.append_nil] at hread
  rw [CamPacket.peekPacketTag, Option.bind_some, hread]
  rfl

theorem generateCam (inv : FleetInvariant config poolNodeIds fleet) {nodeId : NodeId} {size : Nat}
    (hcounter : fleet.nextKpiSequence nodeId ≠ 18446744073709551615)
    {next : Fleet × List CamDatagram} (hnext : fleet.generateCam config nodeId size = some next) :
    (FleetInvariant config poolNodeIds next.1 ∧ Later fleet next.1) ∧
      ∀ datagram ∈ next.2, GenuineCam next.1 datagram := by
  obtain ⟨app, happ, rfl⟩ := Option.map_eq_some_iff.mp hnext
  by_cases hserving : !app.running || decide (app.assignedVehicleId = kInvalidVehicleId)
  · have htagged : fleet.tagAndLogTx config nodeId app = (fleet, none) := if_pos hserving
    simp only [htagged]
    refine ⟨⟨inv, le_rfl, List.Subset.refl _, List.Subset.refl _, fun _ => id,
      fun _ _ => le_rfl⟩, fun datagram hmem tag htag => ?_⟩
    obtain ⟨destination, -, rfl⟩ := List.mem_map.mp hmem
    cases htag
  · have htagged : fleet.tagAndLogTx config nodeId app =
        (fleet.tagAndLog config nodeId app, some (fleet.nextTag nodeId app)) := if_neg hserving
    have hvalid : app.assignedVehicleId ≠ kInvalidVehicleId := fun same => by
      rw [decide_eq_true same, Bool.or_true] at hserving
      exact hserving rfl
    simp only [htagged]
    refine ⟨inv.tagAndLog happ hvalid hcounter, fun datagram hmem tag htag => ?_⟩
    obtain ⟨destination, -, rfl⟩ := List.mem_map.mp hmem
    rw [Option.map_some, peekPacketTag_serialize] at htag
    obtain rfl := Option.some.inj htag
    exact ⟨_, List.mem_append_right _ List.mem_cons_self, rfl⟩

theorem start (config : FleetConfig) {pool : PoolState} (empty : EmptyPool pool)
    (position : NodeId → Position) :
    FleetInvariant config pool.freePoolNodeIds.toFinset (Fleet.start pool position) where
  pool := empty.invariant config.mobility
  serving nodeId vehicleId hserves := by
    have hnone := empty.noNode nodeId
    rw [show pool.nodeIdToVehicleId nodeId = some vehicleId from hserves] at hnone
    cases hnone
  once := List.nodup_nil
  sent sending hmem := by cases hmem
  keys := List.nodup_nil
  heard hearing hmem := by cases hmem
  accepted := rfl
  received triple := by
    constructor
    · rintro ⟨past, event, later, hsplit, -⟩
      cases past <;> cases hsplit
    · rintro ⟨sending, hearing, counted, -⟩
      cases counted.sent
  logger := kpiInvariant_initial config.kpi

end FleetInvariant

/-! ## Runs -/

section Runs

variable (config : FleetConfig) (poolNodeIds : Finset NodeId)

theorem fleetAct_keeps (fleet : Fleet) (action : FleetAction) (next : Fleet × List CamDatagram)
    (inv : FleetInvariant config poolNodeIds fleet) (harranged : ArrangedByMain fleet action)
    (hnext : fleetAct config fleet action = some next) :
    Datagrams.Keeps (FleetInvariant config poolNodeIds) GenuineCam fleet next := by
  have silent : ∀ {after : Fleet}, FleetInvariant config poolNodeIds after ∧ Later fleet after →
      Datagrams.Keeps (FleetInvariant config poolNodeIds) GenuineCam fleet (after, []) :=
    fun hafter => ⟨hafter.1, fun _ genuine => genuine.later hafter.2, fun _ hmem => by cases hmem⟩
  cases action with
  | advance now position =>
      obtain ⟨after, hafter, rfl⟩ := Option.map_eq_some_iff.mp hnext
      exact silent (inv.advance hafter)
  | changePool event =>
      obtain ⟨after, hafter, rfl⟩ := Option.map_eq_some_iff.mp hnext
      exact silent (inv.changePool harranged hafter)
  | generateCam nodeId size =>
      obtain ⟨⟨hinv, hlater⟩, hsent⟩ := inv.generateCam harranged hnext
      exact ⟨hinv, fun _ genuine => genuine.later hlater, hsent⟩
  | setCurrentInputs pDbm tbS =>
      obtain rfl := Option.some.inj hnext
      exact silent (inv.quietCall (fun _ => rfl) fun _ _ _ _ same => by cases same)
  | sampleAndWrite cbr =>
      obtain rfl := Option.some.inj hnext
      exact silent (inv.quietCall (fun _ => rfl) fun _ _ _ _ same => by cases same)

theorem fleetReceive_keeps (fleet : Fleet) (datagram : CamDatagram)
    (next : Fleet × List CamDatagram) (inv : FleetInvariant config poolNodeIds fleet)
    (genuine : GenuineCam fleet datagram) (hnext : fleetReceive config fleet datagram = some next) :
    Datagrams.Keeps (FleetInvariant config poolNodeIds) GenuineCam fleet next := by
  obtain rfl := Option.some.inj hnext
  cases happ : fleet.pool.apps datagram.1 with
  | none => exact ⟨inv, fun _ hold => hold, fun _ hmem => by cases hmem⟩
  | some app =>
      obtain ⟨hinv, hlater⟩ := inv.receiveCam happ genuine
      exact ⟨hinv, fun _ hold => hold.later hlater, fun _ hmem => by cases hmem⟩

end Runs

/-- The invariant holds after every run that `main` may arrange. -/
theorem fleetInvariant_of_run (config : FleetConfig) {pool : PoolState}
    {position : NodeId → Position} {events : List (Datagrams.Event FleetAction)}
    {last : Datagrams.Network Fleet CamDatagram} (empty : EmptyPool pool)
    (harranged : Runs.Fitting (fleetStep config)
      (Datagrams.Allows (fun _ => True) ArrangedByMain) ⟨Fleet.start pool position, []⟩ events)
    (hrun : Runs.runFrom (fleetStep config) ⟨Fleet.start pool position, []⟩ events = some last) :
    FleetInvariant config pool.freePoolNodeIds.toFinset last.nodes :=
  (Datagrams.soundNetwork_of_run
    (fun fleet action next inv _ => fleetAct_keeps config _ fleet action next inv)
    (fun fleet datagram next inv _ => fleetReceive_keeps config _ fleet datagram next inv)
    ⟨FleetInvariant.start config empty position, fun _ hmem => by cases hmem⟩
    harranged hrun).nodes

/-! ## The samples -/

namespace FleetInvariant

variable {config : FleetConfig} {poolNodeIds : Finset NodeId} {fleet : Fleet}

theorem windowTx_eq (inv : FleetInvariant config poolNodeIds fleet) (now : ℚ) :
    windowTx config.kpi now fleet.past.calls = windowSent config.kpi now fleet.past.sent := by
  rw [windowTx, windowSent, inv.accepted]

theorem windowReceived_eq (inv : FleetInvariant config poolNodeIds fleet) (now : ℚ) :
    windowReceived config.kpi now fleet.past.calls =
      windowHeard config.kpi now fleet.past.sent fleet.past.heard := by
  ext triple
  constructor
  · rintro ⟨hreceived, tx, hwindow, hkey⟩
    obtain ⟨sending, hearing, counted, rfl⟩ := (inv.received triple).mp hreceived
    refine ⟨sending, hearing, counted, rfl, ?_⟩
    obtain ⟨haccepted, hlive⟩ := List.mem_filter.mp hwindow
    rw [inv.accepted] at haccepted
    obtain ⟨origin, hsent, hlogged⟩ := List.mem_filterMap.mp haccepted
    obtain ⟨htxKey, htime, -⟩ := Sending.logged_some hlogged
    have same : origin = sending :=
      inv.sent_eq hsent counted.sent ((htxKey.symm.trans hkey).trans counted.key.symm)
    rw [← same, ← htime]
    exact of_decide_eq_true hlive
  · rintro ⟨sending, hearing, counted, rfl, hlive⟩
    obtain ⟨tx, hlogged, -⟩ := counted.eligible
    obtain ⟨htxKey, htime, -⟩ := Sending.logged_some hlogged
    refine ⟨(inv.received _).mpr ⟨sending, hearing, counted, rfl⟩, tx, ?_,
      htxKey.trans counted.key⟩
    rw [inv.windowTx_eq]
    refine List.mem_filter.mpr
      ⟨List.mem_filterMap.mpr ⟨sending, counted.sent, hlogged⟩, decide_eq_true ?_⟩
    rw [htime]
    exact hlive

end FleetInvariant

/-- A quotient of counts of which the first is not larger. -/
theorem ratio_mem_unit {part whole : Nat} (hle : part ≤ whole) :
    0 ≤ KpiLogger.ratio part whole ∧ KpiLogger.ratio part whole ≤ 1 := by
  unfold KpiLogger.ratio
  split
  next hpositive =>
    have hwhole : (0 : ℚ) < whole := Nat.cast_pos.mpr hpositive
    exact ⟨div_nonneg (Nat.cast_nonneg part) hwhole.le,
      (div_le_one hwhole).mpr (Nat.cast_le.mpr hle)⟩
  next => exact ⟨le_rfl, zero_le_one⟩

/-- The nodes 4 and 7, in range of each other, with their own addresses. -/
def pairFleet : FleetConfig where
  kpi := ⟨[4, 7], 150, 1, 0, -1, ⟨false, .y, 0, 0⟩⟩
  mobility := oneRowTracks
  nodeIdToActiveTimeRangeS _ := none
  localAddress := id
  ipToNodeId addr := if addr = 4 ∨ addr = 7 then some addr else none

/-- The CAM of vehicle 1 reaches node 7 three times, the last time after node 4 has passed on to
vehicle 3; then vehicle 3 sends one. -/
def reusedNode : List (Datagrams.Event FleetAction) :=
  [.act (.changePool (.createApplication 4)), .act (.changePool (.createApplication 7)),
    .act (.changePool (.startApplication 4)), .act (.changePool (.startApplication 7)),
    .act (.changePool (.assign 1)), .act (.changePool (.assign 2)), .act (.generateCam 4 100),
    .duplicate 1, .duplicate 1, .act (.advance (1 / 10) fun _ => ⟨0, 0⟩), .deliver 1, .deliver 1,
    .act (.changePool (.release 1)), .act (.changePool (.assign 3)), .deliver 1, .lose 0,
    .act (.generateCam 4 100), .deliver 1]

end DeepcV2x.Cam
