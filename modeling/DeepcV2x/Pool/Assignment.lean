import DeepcV2x.Foundation.Runs
import DeepcV2x.Pool.Mobility

/-!
# The dynamic pool of physical UEs

`AssignVehicleToPool` and `ReleaseVehicleFromPool` over the global maps, the
free deque, the per-node mobility models and the per-node CAM applications.
The applications also start, stop and appear while vehicles come and go, so
those events belong to a run as well.
-/

namespace DeepcV2x.Pool

open DeepcV2x.Foundation

/-! ## Per-node objects -/

/-- The assignment part of `NgsimPoolMobilityModel`. -/
structure PoolMobility where
  vehicleId : VehicleId
  rows : Option (List MobilityRow)
  lastIndex : Nat
  deriving DecidableEq, Repr

namespace PoolMobility

def unassigned : PoolMobility := ⟨kInvalidVehicleId, none, 0⟩

/-- The abort on a null or empty track is the caller's to exclude. -/
def assignVehicle (vehicleId : VehicleId) (rows : List MobilityRow) : PoolMobility :=
  ⟨vehicleId, some rows, 0⟩

def releaseVehicle : PoolMobility := ⟨kInvalidVehicleId, none, 0⟩

end PoolMobility

/-- The assignment and CAM service state of `CamApplication`. -/
structure CamApplication where
  nodeId : NodeId
  running : Bool
  disseminating : Bool
  serviceReady : Bool
  stationId : UInt32
  assignedVehicleId : VehicleId
  deriving DecidableEq, Repr

namespace CamApplication

/-- An application after `Setup`, before its start time. -/
def setup (nodeId : NodeId) : CamApplication :=
  ⟨nodeId, false, false, false, 0, kInvalidVehicleId⟩

/-- The station id follows the assigned vehicle once the service objects exist. -/
def configureVehicleServiceState (app : CamApplication) : CamApplication :=
  if !app.serviceReady then app
  else
    { app with
      stationId :=
        if app.assignedVehicleId = kInvalidVehicleId then app.nodeId
        else app.assignedVehicleId }

def startCamIfReady (app : CamApplication) : CamApplication :=
  if !app.running || app.disseminating || app.assignedVehicleId = kInvalidVehicleId then app
  else { app with stationId := app.assignedVehicleId, disseminating := true }

def stopCamIfRunning (app : CamApplication) : CamApplication :=
  if !app.disseminating then app else { app with disseminating := false }

def assignVehicle (vehicleId : VehicleId) (app : CamApplication) : CamApplication :=
  let assigned := { app with assignedVehicleId := vehicleId }
  if assigned.running then assigned.configureVehicleServiceState.startCamIfReady
  else assigned

def releaseVehicle (app : CamApplication) : CamApplication :=
  let released := { app.stopCamIfRunning with assignedVehicleId := kInvalidVehicleId }
  if released.running then released.configureVehicleServiceState else released

def startApplication (app : CamApplication) : CamApplication :=
  let started := { app with running := true, serviceReady := true }
  started.configureVehicleServiceState.startCamIfReady

def stopApplication (app : CamApplication) : CamApplication :=
  { app with running := false }.stopCamIfRunning

@[simp]
theorem configureVehicleServiceState_assignedVehicleId (app : CamApplication) :
    app.configureVehicleServiceState.assignedVehicleId = app.assignedVehicleId := by
  unfold configureVehicleServiceState
  split <;> rfl

@[simp]
theorem startCamIfReady_assignedVehicleId (app : CamApplication) :
    app.startCamIfReady.assignedVehicleId = app.assignedVehicleId := by
  unfold startCamIfReady
  split <;> rfl

@[simp]
theorem stopCamIfRunning_assignedVehicleId (app : CamApplication) :
    app.stopCamIfRunning.assignedVehicleId = app.assignedVehicleId := by
  unfold stopCamIfRunning
  split <;> rfl

@[simp]
theorem assignVehicle_assignedVehicleId (vehicleId : VehicleId) (app : CamApplication) :
    (app.assignVehicle vehicleId).assignedVehicleId = vehicleId := by
  simp only [assignVehicle]
  split <;> simp

@[simp]
theorem releaseVehicle_assignedVehicleId (app : CamApplication) :
    app.releaseVehicle.assignedVehicleId = kInvalidVehicleId := by
  simp only [releaseVehicle]
  split <;> simp

@[simp]
theorem startApplication_assignedVehicleId (app : CamApplication) :
    app.startApplication.assignedVehicleId = app.assignedVehicleId := by
  simp [startApplication]

@[simp]
theorem stopApplication_assignedVehicleId (app : CamApplication) :
    app.stopApplication.assignedVehicleId = app.assignedVehicleId := by
  simp [stopApplication]

end CamApplication

/-! ## The pool -/

/-- The globals the two operations read and write. -/
structure PoolState where
  dynamicActivePoolEnabled : Bool
  vehicleIdToNodeId : VehicleId → Option NodeId
  nodeIdToVehicleId : NodeId → Option VehicleId
  activeVehicleIds : Finset VehicleId
  freePoolNodeIds : List NodeId
  nodeIdToPoolMobility : NodeId → Option PoolMobility
  apps : NodeId → Option CamApplication

/-- The aborts of the two operations. -/
inductive Abort
  | assignWhileDisabled
  | releaseWhileDisabled
  | alreadyAssigned (vehicleId : VehicleId)
  | poolExhausted (vehicleId : VehicleId)
  | missingTrack (vehicleId : VehicleId)
  | missingMobility (nodeId : NodeId)
  deriving DecidableEq, Repr

def Abort.message : Abort → String
  | assignWhileDisabled => "AssignVehicleToPool called while dynamic active pool is disabled"
  | releaseWhileDisabled => "ReleaseVehicleFromPool called while dynamic active pool is disabled"
  | alreadyAssigned vehicleId =>
      "Vehicle " ++ toString vehicleId ++ " is already assigned to a pool UE"
  | poolExhausted vehicleId =>
      "Dynamic active pool exhausted while assigning vehicle " ++ toString vehicleId ++
        ". Increase --physicalUePoolSize."
  | missingTrack vehicleId =>
      "Cannot assign missing/empty mobility track for vehicle " ++ toString vehicleId
  | missingMobility nodeId => "Missing pool mobility model for node " ++ toString nodeId

def resolveVehicleIdForNode (pool : PoolState) (nodeId : NodeId) : VehicleId :=
  (pool.nodeIdToVehicleId nodeId).getD kInvalidVehicleId

def resolveNodeIdForVehicle (pool : PoolState) (vehicleId : VehicleId) : NodeId :=
  (pool.vehicleIdToNodeId vehicleId).getD 4294967295

/-- The state after the aborts of an assignment have been passed. -/
def PoolState.attach (pool : PoolState) (vehicleId : VehicleId) (nodeId : NodeId)
    (free : List NodeId) (rows : List MobilityRow) : PoolState :=
  { pool with
    freePoolNodeIds := free
    vehicleIdToNodeId := Function.update pool.vehicleIdToNodeId vehicleId (some nodeId)
    nodeIdToVehicleId := Function.update pool.nodeIdToVehicleId nodeId (some vehicleId)
    activeVehicleIds := insert vehicleId pool.activeVehicleIds
    nodeIdToPoolMobility := Function.update pool.nodeIdToPoolMobility nodeId
      (some (PoolMobility.assignVehicle vehicleId rows))
    apps := Function.update pool.apps nodeId
      ((pool.apps nodeId).map (CamApplication.assignVehicle vehicleId)) }

def assignVehicleToPool (mobility : MobilityTable) (vehicleId : VehicleId) (pool : PoolState) :
    Except Abort PoolState :=
  if !pool.dynamicActivePoolEnabled then .error .assignWhileDisabled
  else if (pool.vehicleIdToNodeId vehicleId).isSome then .error (.alreadyAssigned vehicleId)
  else
    match pool.freePoolNodeIds with
    | [] => .error (.poolExhausted vehicleId)
    | nodeId :: free =>
        match mobility vehicleId with
        | none => .error (.missingTrack vehicleId)
        | some rows =>
            if rows.isEmpty then .error (.missingTrack vehicleId)
            else
              match pool.nodeIdToPoolMobility nodeId with
              | none => .error (.missingMobility nodeId)
              | some _ => .ok (pool.attach vehicleId nodeId free rows)

/-- The state after a release of a vehicle that occupies `nodeId`. -/
def PoolState.detach (pool : PoolState) (vehicleId : VehicleId) (nodeId : NodeId) : PoolState :=
  { pool with
    apps := Function.update pool.apps nodeId
      ((pool.apps nodeId).map CamApplication.releaseVehicle)
    nodeIdToPoolMobility := Function.update pool.nodeIdToPoolMobility nodeId
      ((pool.nodeIdToPoolMobility nodeId).map fun _ => PoolMobility.releaseVehicle)
    vehicleIdToNodeId := Function.update pool.vehicleIdToNodeId vehicleId none
    nodeIdToVehicleId := Function.update pool.nodeIdToVehicleId nodeId none
    activeVehicleIds := pool.activeVehicleIds.erase vehicleId
    freePoolNodeIds := pool.freePoolNodeIds ++ [nodeId] }

def releaseVehicleFromPool (vehicleId : VehicleId) (pool : PoolState) : Except Abort PoolState :=
  if !pool.dynamicActivePoolEnabled then .error .releaseWhileDisabled
  else
    match pool.vehicleIdToNodeId vehicleId with
    | none => .ok pool
    | some nodeId => .ok (pool.detach vehicleId nodeId)

/-! ## Inversion of the operations -/

/-- Everything a successful assignment checks and does. -/
theorem assignVehicleToPool_ok {mobility : MobilityTable} {vehicleId : VehicleId}
    {pool next : PoolState} (hok : assignVehicleToPool mobility vehicleId pool = .ok next) :
    ∃ nodeId free rows,
      pool.vehicleIdToNodeId vehicleId = none ∧
      pool.freePoolNodeIds = nodeId :: free ∧
      mobility vehicleId = some rows ∧ rows ≠ [] ∧
      (pool.nodeIdToPoolMobility nodeId).isSome ∧
      next = pool.attach vehicleId nodeId free rows := by
  unfold assignVehicleToPool at hok
  split at hok
  · cases hok
  split at hok
  · cases hok
  next hunassigned =>
    cases hfree : pool.freePoolNodeIds with
    | nil => simp [hfree] at hok
    | cons nodeId free =>
        cases htrack : mobility vehicleId with
        | none => simp [hfree, htrack] at hok
        | some rows =>
            cases hmodel : pool.nodeIdToPoolMobility nodeId with
            | none =>
                simp only [hfree, htrack, hmodel] at hok
                split at hok <;> cases hok
            | some model =>
                simp only [hfree, htrack, hmodel] at hok
                split at hok
                · cases hok
                next hrows =>
                  refine ⟨nodeId, free, rows, by simpa using hunassigned, rfl, rfl, ?_,
                    by simp [hmodel], ?_⟩
                  · simpa using hrows
                  · exact (Except.ok.inj hok).symm

/-- A successful release either found nothing to release or detached the vehicle. -/
theorem releaseVehicleFromPool_ok {vehicleId : VehicleId} {pool next : PoolState}
    (hok : releaseVehicleFromPool vehicleId pool = .ok next) :
    (pool.vehicleIdToNodeId vehicleId = none ∧ next = pool) ∨
      ∃ nodeId, pool.vehicleIdToNodeId vehicleId = some nodeId ∧
        next = pool.detach vehicleId nodeId := by
  unfold releaseVehicleFromPool at hok
  split at hok
  · cases hok
  cases hnode : pool.vehicleIdToNodeId vehicleId with
  | none =>
      simp only [hnode] at hok
      exact Or.inl ⟨rfl, (Except.ok.inj hok).symm⟩
  | some nodeId =>
      simp only [hnode] at hok
      exact Or.inr ⟨nodeId, rfl, (Except.ok.inj hok).symm⟩

/-- Releasing an unassigned vehicle of an enabled pool changes nothing. -/
theorem releaseVehicleFromPool_unassigned {vehicleId : VehicleId} {pool : PoolState}
    (enabled : pool.dynamicActivePoolEnabled = true)
    (hnone : pool.vehicleIdToNodeId vehicleId = none) :
    releaseVehicleFromPool vehicleId pool = .ok pool := by
  simp [releaseVehicleFromPool, enabled, hnone]

/-! ## Events of a run -/

/-- What happens to the pool: the two operations and the application life cycle. -/
inductive PoolEvent
  | assign (vehicleId : VehicleId)
  | release (vehicleId : VehicleId)
  | createApplication (nodeId : NodeId)
  | startApplication (nodeId : NodeId)
  | stopApplication (nodeId : NodeId)
  deriving DecidableEq, Repr

/-- `main` creates an application with the vehicle its node already has, if any. -/
def createApplication (pool : PoolState) (nodeId : NodeId) : PoolState :=
  let app := CamApplication.setup nodeId
  let assigned := resolveVehicleIdForNode pool nodeId
  { pool with
    apps := Function.update pool.apps nodeId
      (some (if assigned = kInvalidVehicleId then app else app.assignVehicle assigned)) }

def updateApplication (change : CamApplication → CamApplication) (pool : PoolState)
    (nodeId : NodeId) : PoolState :=
  { pool with apps := Function.update pool.apps nodeId ((pool.apps nodeId).map change) }

def execute (mobility : MobilityTable) (pool : PoolState) : PoolEvent → Except Abort PoolState
  | .assign vehicleId => assignVehicleToPool mobility vehicleId pool
  | .release vehicleId => releaseVehicleFromPool vehicleId pool
  | .createApplication nodeId => .ok (createApplication pool nodeId)
  | .startApplication nodeId =>
      .ok (updateApplication CamApplication.startApplication pool nodeId)
  | .stopApplication nodeId =>
      .ok (updateApplication CamApplication.stopApplication pool nodeId)

/-- An aborted event disables the run. -/
def poolStep (mobility : MobilityTable) (pool : PoolState) (event : PoolEvent) : Option PoolState :=
  (execute mobility pool event).toOption

/-! ## The representation invariant -/

/-- The per-node objects agree with the vehicle mapped to the node, or are unassigned. -/
structure NodeAgrees (mobility : MobilityTable) (assigned : Option VehicleId)
    (model : Option PoolMobility) (app : Option CamApplication) : Prop where
  modelVehicle : ∀ m, model = some m → m.vehicleId = assigned.getD kInvalidVehicleId
  modelTrack : ∀ m, model = some m → m.rows = assigned.bind mobility
  appVehicle : ∀ a, app = some a → a.assignedVehicleId = assigned.getD kInvalidVehicleId

/-- Everything the separate pieces of pool state must keep consistent. -/
structure PoolInvariant (mobility : MobilityTable) (poolNodeIds : Finset NodeId)
    (pool : PoolState) : Prop where
  enabled : pool.dynamicActivePoolEnabled = true
  inverse : ∀ vehicleId nodeId,
    pool.vehicleIdToNodeId vehicleId = some nodeId ↔
      pool.nodeIdToVehicleId nodeId = some vehicleId
  active : ∀ vehicleId,
    vehicleId ∈ pool.activeVehicleIds ↔ (pool.vehicleIdToNodeId vehicleId).isSome
  freeNodup : pool.freePoolNodeIds.Nodup
  freeDisjoint : ∀ nodeId ∈ pool.freePoolNodeIds, pool.nodeIdToVehicleId nodeId = none
  complementary : ∀ nodeId,
    nodeId ∈ poolNodeIds ↔
      nodeId ∈ pool.freePoolNodeIds ∨ (pool.nodeIdToVehicleId nodeId).isSome
  agrees : ∀ nodeId,
    NodeAgrees mobility (pool.nodeIdToVehicleId nodeId) (pool.nodeIdToPoolMobility nodeId)
      (pool.apps nodeId)

/-- An empty assignment over a duplicate-free free deque, with nothing attached. -/
structure EmptyPool (pool : PoolState) : Prop where
  enabled : pool.dynamicActivePoolEnabled = true
  noVehicle : ∀ vehicleId, pool.vehicleIdToNodeId vehicleId = none
  noNode : ∀ nodeId, pool.nodeIdToVehicleId nodeId = none
  noActive : pool.activeVehicleIds = ∅
  freeNodup : pool.freePoolNodeIds.Nodup
  models : ∀ nodeId m, pool.nodeIdToPoolMobility nodeId = some m →
    m = PoolMobility.unassigned
  idle : ∀ nodeId a, pool.apps nodeId = some a → a.assignedVehicleId = kInvalidVehicleId

theorem EmptyPool.invariant {pool : PoolState} (empty : EmptyPool pool)
    (mobility : MobilityTable) :
    PoolInvariant mobility pool.freePoolNodeIds.toFinset pool where
  enabled := empty.enabled
  inverse vehicleId nodeId := by simp [empty.noVehicle, empty.noNode]
  active vehicleId := by simp [empty.noActive, empty.noVehicle]
  freeNodup := empty.freeNodup
  freeDisjoint nodeId _ := empty.noNode nodeId
  complementary nodeId := by simp [empty.noNode]
  agrees nodeId := by
    rw [empty.noNode nodeId]
    refine ⟨?_, ?_, empty.idle nodeId⟩
    · intro m hm
      rw [empty.models nodeId m hm]
      rfl
    · intro m hm
      rw [empty.models nodeId m hm]
      rfl

namespace PoolInvariant

variable {mobility : MobilityTable} {poolNodeIds : Finset NodeId} {pool : PoolState}

/-- A free node taken by an unassigned vehicle keeps every piece consistent. -/
theorem attach (inv : PoolInvariant mobility poolNodeIds pool) {vehicleId : VehicleId}
    {nodeId : NodeId} {free : List NodeId} {rows : List MobilityRow}
    (hunassigned : pool.vehicleIdToNodeId vehicleId = none)
    (hfree : pool.freePoolNodeIds = nodeId :: free)
    (htrack : mobility vehicleId = some rows) :
    PoolInvariant mobility poolNodeIds (pool.attach vehicleId nodeId free rows) := by
  have hnodeFree : pool.nodeIdToVehicleId nodeId = none :=
    inv.freeDisjoint nodeId (by simp [hfree])
  have hnotMapped : ∀ other, pool.nodeIdToVehicleId other ≠ some vehicleId := by
    intro other hother
    have hmapped := (inv.inverse vehicleId other).mpr hother
    rw [hunassigned] at hmapped
    cases hmapped
  have hnotNode : ∀ other, pool.vehicleIdToNodeId other ≠ some nodeId := by
    intro other hother
    have hmapped := (inv.inverse other nodeId).mp hother
    rw [hnodeFree] at hmapped
    cases hmapped
  have hnodup : (nodeId :: free).Nodup := hfree ▸ inv.freeNodup
  refine ⟨inv.enabled, ?_, ?_, ?_, ?_, ?_, ?_⟩
  · intro otherVehicle otherNode
    simp only [PoolState.attach, Function.update_apply]
    by_cases hv : otherVehicle = vehicleId <;> by_cases hn : otherNode = nodeId
    · simp [hv, hn]
    · simp [hv, hn, hnotMapped otherNode, Ne.symm hn]
    · simp [hv, hn, hnotNode otherVehicle, Ne.symm hv]
    · simpa [hv, hn] using inv.inverse otherVehicle otherNode
  · intro otherVehicle
    simp only [PoolState.attach, Finset.mem_insert, Function.update_apply]
    by_cases hv : otherVehicle = vehicleId
    · simp [hv]
    · simpa [hv] using inv.active otherVehicle
  · exact (List.nodup_cons.mp hnodup).2
  · intro otherNode hother
    have hne : otherNode ≠ nodeId := by
      intro same
      exact (List.nodup_cons.mp hnodup).1 (same ▸ hother)
    have hin : otherNode ∈ pool.freePoolNodeIds := by
      rw [hfree]
      exact List.mem_cons_of_mem _ hother
    simpa [PoolState.attach, Function.update_apply, hne] using inv.freeDisjoint otherNode hin
  · intro otherNode
    have old := inv.complementary otherNode
    rw [hfree] at old
    by_cases hn : otherNode = nodeId
    · have member : nodeId ∈ poolNodeIds :=
        (inv.complementary nodeId).mpr (Or.inl (by simp [hfree]))
      simp [PoolState.attach, hn, member]
    · simpa [PoolState.attach, Function.update_apply, hn] using old
  · intro otherNode
    by_cases hn : otherNode = nodeId
    · subst hn
      refine ⟨?_, ?_, ?_⟩
      · intro m hm
        simp only [PoolState.attach, Function.update_self, Option.some.injEq] at hm ⊢
        rw [← hm]
        rfl
      · intro m hm
        simp only [PoolState.attach, Function.update_self, Option.some.injEq] at hm ⊢
        rw [← hm]
        simp [PoolMobility.assignVehicle, htrack]
      · intro a ha
        simp only [PoolState.attach, Function.update_self, Option.map_eq_some_iff] at ha ⊢
        obtain ⟨before, -, rfl⟩ := ha
        simp
    · simpa [PoolState.attach, Function.update_apply, hn] using inv.agrees otherNode

/-- A released node returns to the free deque with nothing attached. -/
theorem detach (inv : PoolInvariant mobility poolNodeIds pool) {vehicleId : VehicleId}
    {nodeId : NodeId} (hassigned : pool.vehicleIdToNodeId vehicleId = some nodeId) :
    PoolInvariant mobility poolNodeIds (pool.detach vehicleId nodeId) := by
  have hmapped : pool.nodeIdToVehicleId nodeId = some vehicleId :=
    (inv.inverse vehicleId nodeId).mp hassigned
  have hnotFree : nodeId ∉ pool.freePoolNodeIds := by
    intro hin
    have hnone := inv.freeDisjoint nodeId hin
    rw [hmapped] at hnone
    cases hnone
  refine ⟨inv.enabled, ?_, ?_, ?_, ?_, ?_, ?_⟩
  · intro otherVehicle otherNode
    have old := inv.inverse otherVehicle otherNode
    simp only [PoolState.detach, Function.update_apply]
    by_cases hv : otherVehicle = vehicleId <;> by_cases hn : otherNode = nodeId
    · simp [hv, hn]
    · subst hv
      rw [hassigned] at old
      simpa [hn, Ne.symm hn] using old
    · subst hn
      rw [hmapped] at old
      simpa [hv, Ne.symm hv] using old
    · simpa [hv, hn] using old
  · intro otherVehicle
    simp only [PoolState.detach, Finset.mem_erase, Function.update_apply]
    by_cases hv : otherVehicle = vehicleId
    · simp [hv]
    · simpa [hv] using inv.active otherVehicle
  · simpa [PoolState.detach, List.nodup_append] using
      ⟨inv.freeNodup, fun other hother same => hnotFree (same ▸ hother)⟩
  · intro otherNode hother
    by_cases hn : otherNode = nodeId
    · simp [PoolState.detach, hn]
    · have hin : otherNode ∈ pool.freePoolNodeIds := by
        simpa [PoolState.detach, hn] using hother
      simpa [PoolState.detach, Function.update_apply, hn] using inv.freeDisjoint otherNode hin
  · intro otherNode
    have old := inv.complementary otherNode
    by_cases hn : otherNode = nodeId
    · subst hn
      simpa [PoolState.detach, hmapped] using old
    · simpa [PoolState.detach, Function.update_apply, hn] using old
  · intro otherNode
    by_cases hn : otherNode = nodeId
    · subst hn
      refine ⟨?_, ?_, ?_⟩
      · intro m hm
        simp only [PoolState.detach, Function.update_self, Option.map_eq_some_iff] at hm ⊢
        obtain ⟨before, -, rfl⟩ := hm
        rfl
      · intro m hm
        simp only [PoolState.detach, Function.update_self, Option.map_eq_some_iff] at hm ⊢
        obtain ⟨before, -, rfl⟩ := hm
        rfl
      · intro a ha
        simp only [PoolState.detach, Function.update_self, Option.map_eq_some_iff] at ha ⊢
        obtain ⟨before, -, rfl⟩ := ha
        simp
    · simpa [PoolState.detach, Function.update_apply, hn] using inv.agrees otherNode

/-- A change of one application that leaves its vehicle alone keeps the invariant. -/
theorem changeApplication (inv : PoolInvariant mobility poolNodeIds pool)
    {nodeId : NodeId} {app : Option CamApplication}
    (hvehicle : ∀ a, app = some a →
      a.assignedVehicleId = resolveVehicleIdForNode pool nodeId) :
    PoolInvariant mobility poolNodeIds
      { pool with apps := Function.update pool.apps nodeId app } := by
  refine ⟨inv.enabled, inv.inverse, inv.active, inv.freeNodup, inv.freeDisjoint,
    inv.complementary, ?_⟩
  intro otherNode
  have old := inv.agrees otherNode
  by_cases hn : otherNode = nodeId
  · subst hn
    exact ⟨old.modelVehicle, old.modelTrack, by
      simpa [resolveVehicleIdForNode] using hvehicle⟩
  · simpa [Function.update_apply, hn] using old

theorem updateApplication (inv : PoolInvariant mobility poolNodeIds pool)
    (change : CamApplication → CamApplication)
    (hchange : ∀ a, (change a).assignedVehicleId = a.assignedVehicleId) (nodeId : NodeId) :
    PoolInvariant mobility poolNodeIds (DeepcV2x.Pool.updateApplication change pool nodeId) := by
  apply inv.changeApplication
  intro a ha
  obtain ⟨before, hbefore, rfl⟩ := Option.map_eq_some_iff.mp ha
  rw [hchange]
  exact (inv.agrees nodeId).appVehicle before hbefore

/-- One event that does not abort preserves the invariant. -/
theorem step (inv : PoolInvariant mobility poolNodeIds pool) {event : PoolEvent}
    {next : PoolState} (hok : execute mobility pool event = .ok next) :
    PoolInvariant mobility poolNodeIds next := by
  cases event with
  | assign vehicleId =>
      obtain ⟨nodeId, free, rows, hunassigned, hfree, htrack, -, -, rfl⟩ :=
        assignVehicleToPool_ok hok
      exact inv.attach hunassigned hfree htrack
  | release vehicleId =>
      rcases releaseVehicleFromPool_ok hok with ⟨-, rfl⟩ | ⟨nodeId, hassigned, rfl⟩
      · exact inv
      · exact inv.detach hassigned
  | createApplication nodeId =>
      cases hok
      apply inv.changeApplication
      intro a ha
      rw [← Option.some.inj ha]
      split
      next hinvalid => rw [hinvalid]; rfl
      next => simp
  | startApplication nodeId =>
      cases hok
      exact inv.updateApplication _ CamApplication.startApplication_assignedVehicleId nodeId
  | stopApplication nodeId =>
      cases hok
      exact inv.updateApplication _ CamApplication.stopApplication_assignedVehicleId nodeId

/-- As many vehicles are active as pool nodes are occupied. -/
theorem card_active_add_free (inv : PoolInvariant mobility poolNodeIds pool) :
    pool.activeVehicleIds.card + pool.freePoolNodeIds.length = poolNodeIds.card := by
  classical
  have hfreeSub : pool.freePoolNodeIds.toFinset ⊆ poolNodeIds := by
    intro nodeId hin
    exact (inv.complementary nodeId).mpr (Or.inl (List.mem_toFinset.mp hin))
  have hbij : pool.activeVehicleIds.card =
      (poolNodeIds \ pool.freePoolNodeIds.toFinset).card := by
    apply Finset.card_bij fun vehicleId _ => (pool.vehicleIdToNodeId vehicleId).getD 0
    · intro vehicleId hactive
      obtain ⟨nodeId, hnode⟩ := Option.isSome_iff_exists.mp ((inv.active vehicleId).mp hactive)
      have hmapped := (inv.inverse vehicleId nodeId).mp hnode
      simp only [hnode, Option.getD_some, Finset.mem_sdiff, List.mem_toFinset]
      refine ⟨(inv.complementary nodeId).mpr (Or.inr (by simp [hmapped])), ?_⟩
      intro hin
      rw [inv.freeDisjoint nodeId hin] at hmapped
      cases hmapped
    · intro left hleft right hright same
      obtain ⟨leftNode, hleftNode⟩ :=
        Option.isSome_iff_exists.mp ((inv.active left).mp hleft)
      obtain ⟨rightNode, hrightNode⟩ :=
        Option.isSome_iff_exists.mp ((inv.active right).mp hright)
      have sameNode : leftNode = rightNode := by
        simpa [hleftNode, hrightNode] using same
      have hl := (inv.inverse left leftNode).mp hleftNode
      have hr := (inv.inverse right rightNode).mp hrightNode
      rw [sameNode, hr] at hl
      exact (Option.some.inj hl).symm
    · intro nodeId hnode
      obtain ⟨hpool, hnotFree⟩ := Finset.mem_sdiff.mp hnode
      rcases (inv.complementary nodeId).mp hpool with hfree | hsome
      · exact absurd (List.mem_toFinset.mpr hfree) hnotFree
      · obtain ⟨vehicleId, hvehicle⟩ := Option.isSome_iff_exists.mp hsome
        have hback := (inv.inverse vehicleId nodeId).mpr hvehicle
        exact ⟨vehicleId, (inv.active vehicleId).mpr (by simp [hback]), by simp [hback]⟩
  rw [hbij, Finset.card_sdiff_of_subset hfreeSub, List.toFinset_card_of_nodup inv.freeNodup]
  have hle : pool.freePoolNodeIds.length ≤ poolNodeIds.card := by
    rw [← List.toFinset_card_of_nodup inv.freeNodup]
    exact Finset.card_le_card hfreeSub
  omega

end PoolInvariant

/-- The pool invariant along whole runs: after every sequence of operations and
application events that does not abort, all pieces of pool state are consistent,
and releasing a vehicle without a node changes nothing. -/
theorem poolRun_representation (mobility : MobilityTable) {initial final : PoolState}
    (events : List PoolEvent) (empty : EmptyPool initial)
    (hrun : Runs.runFrom (poolStep mobility) initial events = some final) :
    PoolInvariant mobility initial.freePoolNodeIds.toFinset final ∧
      ∀ vehicleId, final.vehicleIdToNodeId vehicleId = none →
        releaseVehicleFromPool vehicleId final = .ok final := by
  have hstep : ∀ pool event next,
      PoolInvariant mobility initial.freePoolNodeIds.toFinset pool →
      poolStep mobility pool event = some next →
      PoolInvariant mobility initial.freePoolNodeIds.toFinset next := by
    intro pool event next inv hnext
    unfold poolStep at hnext
    cases hexec : execute mobility pool event with
    | error abort => simp [hexec, Except.toOption] at hnext
    | ok result =>
        have same : result = next := by simpa [hexec, Except.toOption] using hnext
        exact inv.step (same ▸ hexec)
  have inv := Runs.state_invariant (poolStep mobility) _ hstep (empty.invariant mobility) hrun
  exact ⟨inv, fun vehicleId hnone => releaseVehicleFromPool_unassigned inv.enabled hnone⟩

/-- A pool of the nodes 4 and 7 whose applications do not exist yet. -/
def twoNodePool : PoolState where
  dynamicActivePoolEnabled := true
  vehicleIdToNodeId := fun _ => none
  nodeIdToVehicleId := fun _ => none
  activeVehicleIds := ∅
  freePoolNodeIds := [4, 7]
  nodeIdToPoolMobility := fun nodeId =>
    if nodeId = 4 ∨ nodeId = 7 then some PoolMobility.unassigned else none
  apps := fun _ => none

theorem twoNodePool_empty : EmptyPool twoNodePool where
  enabled := rfl
  noVehicle _ := rfl
  noNode _ := rfl
  noActive := rfl
  freeNodup := by decide
  models nodeId m hm := by
    simp only [twoNodePool] at hm
    split at hm
    · exact (Option.some.inj hm).symm
    · cases hm
  idle nodeId a ha := by cases ha

/-- Every vehicle has a one-row track. -/
def oneRowTracks : MobilityTable := fun vehicleId => some [⟨0, vehicleId, 0, 0⟩]

/-- Node 4 serves vehicle 1 and then vehicle 3; its application starts in between. -/
def nodeReuse : List PoolEvent :=
  [.assign 1, .createApplication 4, .assign 2, .startApplication 4, .release 1,
    .release 1, .release 2, .assign 3]

theorem poolRun_representation_nodeReuse :
    ∃ final, Runs.runFrom (poolStep oneRowTracks) twoNodePool nodeReuse = some final ∧
      PoolInvariant oneRowTracks twoNodePool.freePoolNodeIds.toFinset final ∧
      ∀ vehicleId, final.vehicleIdToNodeId vehicleId = none →
        releaseVehicleFromPool vehicleId final = .ok final :=
  ⟨_, rfl, poolRun_representation oneRowTracks nodeReuse twoNodePool_empty rfl⟩

end DeepcV2x.Pool
