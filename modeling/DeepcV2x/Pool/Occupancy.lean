import DeepcV2x.Pool.Agenda
import Mathlib.Data.Finset.Filter

/-!
# Which vehicles hold a node during a run

The set of active vehicles is followed through the initial assignment and then
through the agenda.  At every stage it is determined by the tracks alone, and
the only abort a run over a selection can meet is an exhausted free pool.
-/

namespace DeepcV2x.Pool

open DeepcV2x.Foundation.EventQueue

/-! ## One operation on a ready pool -/

/-- A consistent pool in which every pool node has its mobility model. -/
structure Ready (mobility : MobilityTable) (poolNodeIds : Finset NodeId)
    (pool : PoolState) : Prop extends PoolInvariant mobility poolNodeIds pool where
  models : ∀ nodeId ∈ poolNodeIds, (pool.nodeIdToPoolMobility nodeId).isSome

theorem createPhysicalUes_empty {nodeIds : List NodeId} (hnodup : nodeIds.Nodup) :
    EmptyPool (createPhysicalUes nodeIds) where
  enabled := rfl
  noVehicle _ := rfl
  noNode _ := rfl
  noActive := rfl
  freeNodup := hnodup
  models nodeId m hm := by
    simp only [createPhysicalUes] at hm
    split at hm
    · exact (Option.some.inj hm).symm
    · cases hm
  idle nodeId a ha := by cases ha

theorem createPhysicalUes_ready (mobility : MobilityTable) {nodeIds : List NodeId}
    (hnodup : nodeIds.Nodup) :
    Ready mobility nodeIds.toFinset (createPhysicalUes nodeIds) where
  toPoolInvariant := (createPhysicalUes_empty hnodup).invariant mobility
  models nodeId hmem := by simp [createPhysicalUes, List.mem_toFinset.mp hmem]

namespace Ready

variable {mobility : MobilityTable} {poolNodeIds : Finset NodeId} {pool : PoolState}

/-- A tracked vehicle without a node gets one, unless the pool is full. -/
theorem assign (ready : Ready mobility poolNodeIds pool) {vehicleId : VehicleId}
    (hinactive : vehicleId ∉ pool.activeVehicleIds) {rows : List MobilityRow}
    (htrack : mobility vehicleId = some rows) (hrows : rows ≠ []) :
    (pool.activeVehicleIds.card < poolNodeIds.card ∧
      ∃ next, assignVehicleToPool mobility vehicleId pool = .ok next ∧
        Ready mobility poolNodeIds next ∧
        next.activeVehicleIds = insert vehicleId pool.activeVehicleIds) ∨
    (poolNodeIds.card ≤ pool.activeVehicleIds.card ∧
      assignVehicleToPool mobility vehicleId pool = .error (.poolExhausted vehicleId)) := by
  have hunassigned : pool.vehicleIdToNodeId vehicleId = none := by
    rw [ready.active] at hinactive
    simpa using hinactive
  have hcard := ready.card_active_add_free
  cases hfree : pool.freePoolNodeIds with
  | nil =>
      refine Or.inr ⟨?_, by simp [assignVehicleToPool, ready.enabled, hunassigned, hfree]⟩
      rw [hfree] at hcard
      exact hcard.ge
  | cons nodeId free =>
      have hpoolNode : nodeId ∈ poolNodeIds :=
        (ready.complementary nodeId).mpr (Or.inl (by simp [hfree]))
      obtain ⟨model, hmodel⟩ := Option.isSome_iff_exists.mp (ready.models nodeId hpoolNode)
      refine Or.inl ⟨?_, pool.attach vehicleId nodeId free rows, ?_, ?_, rfl⟩
      · rw [hfree, List.length_cons] at hcard
        omega
      · simp [assignVehicleToPool, ready.enabled, hunassigned, hfree, htrack, hmodel, hrows]
      · refine ⟨ready.toPoolInvariant.attach hunassigned hfree htrack, ?_⟩
        intro other hmem
        by_cases same : other = nodeId
        · simp [PoolState.attach, same]
        · simpa [PoolState.attach, Function.update_apply, same] using ready.models other hmem

/-- A vehicle that holds a node gives it back. -/
theorem release (ready : Ready mobility poolNodeIds pool) {vehicleId : VehicleId}
    (hactive : vehicleId ∈ pool.activeVehicleIds) :
    ∃ next, releaseVehicleFromPool vehicleId pool = .ok next ∧
      Ready mobility poolNodeIds next ∧
      next.activeVehicleIds = pool.activeVehicleIds.erase vehicleId := by
  obtain ⟨nodeId, hnode⟩ := Option.isSome_iff_exists.mp ((ready.active vehicleId).mp hactive)
  refine ⟨pool.detach vehicleId nodeId, ?_, ?_, rfl⟩
  · simp [releaseVehicleFromPool, ready.enabled, hnode]
  · refine ⟨ready.toPoolInvariant.detach hnode, ?_⟩
    intro other hmem
    by_cases same : other = nodeId
    · simpa [PoolState.detach, same] using ready.models nodeId (same ▸ hmem)
    · simpa [PoolState.detach, Function.update_apply, same] using ready.models other hmem

theorem createApplications (ready : Ready mobility poolNodeIds pool) (nodeIds : List NodeId) :
    Ready mobility poolNodeIds (nodeIds.foldl createApplication pool) ∧
      (nodeIds.foldl createApplication pool).activeVehicleIds = pool.activeVehicleIds := by
  induction nodeIds generalizing pool with
  | nil => exact ⟨ready, rfl⟩
  | cons nodeId rest ih =>
      have created : Ready mobility poolNodeIds (createApplication pool nodeId) :=
        ⟨@PoolInvariant.step _ _ _ ready.toPoolInvariant (.createApplication nodeId) _ rfl,
          ready.models⟩
      exact ih created

end Ready

/-! ## Occupancy read from the tracks -/

section Occupancy

variable (mobility : MobilityTable) (vehicleIds : List VehicleId) (simTimeSeconds : ℚ)

/-- `other` receives its node before `vehicleId` asks for one. -/
def AssignedBefore (other vehicleId : VehicleId) : Prop :=
  if StartsInitially mobility other then
    ¬ StartsInitially mobility vehicleId ∨
      vehicleIds.idxOf other < vehicleIds.idxOf vehicleId
  else
    ¬ StartsInitially mobility vehicleId ∧
      (firstTimeS mobility other < firstTimeS mobility vehicleId ∨
        firstTimeS mobility other = firstTimeS mobility vehicleId ∧
          vehicleIds.idxOf other < vehicleIds.idxOf vehicleId)

/-- `other` has given its node back before `vehicleId` asks for one. -/
def ReleasedBefore (other vehicleId : VehicleId) : Prop :=
  ¬ StartsInitially mobility vehicleId ∧ 0 < lastTimeS mobility other ∧
    (lastTimeS mobility other + kAssignmentEpsS < firstTimeS mobility vehicleId ∨
      lastTimeS mobility other + kAssignmentEpsS = firstTimeS mobility vehicleId ∧
        vehicleIds.idxOf other < vehicleIds.idxOf vehicleId)

instance (other vehicleId : VehicleId) :
    Decidable (AssignedBefore mobility vehicleIds other vehicleId) :=
  inferInstanceAs (Decidable (ite _ _ _))

instance (other vehicleId : VehicleId) :
    Decidable (ReleasedBefore mobility vehicleIds other vehicleId) :=
  inferInstanceAs (Decidable (_ ∧ _))

/-- The vehicles on the road, with a node each, when `vehicleId` asks for one. -/
def occupants (vehicleId : VehicleId) : Finset VehicleId :=
  vehicleIds.toFinset.filter fun other =>
    AssignedBefore mobility vehicleIds other vehicleId ∧
      ¬ ReleasedBefore mobility vehicleIds other vehicleId

/-- The vehicle asks for a node, at the start or by an event within the simulated time. -/
def Enters (vehicleId : VehicleId) : Prop :=
  StartsInitially mobility vehicleId ∨ firstTimeS mobility vehicleId ≤ simTimeSeconds

instance (vehicleId : VehicleId) : Decidable (Enters mobility simTimeSeconds vehicleId) :=
  inferInstanceAs (Decidable (_ ∨ _))

/-- Whenever a selected vehicle enters, fewer vehicles than pool nodes are on the road. -/
def FitsPool (poolSize : Nat) : Prop :=
  ∀ vehicleId ∈ vehicleIds, Enters mobility simTimeSeconds vehicleId →
    (occupants mobility vehicleIds vehicleId).card < poolSize

instance (poolSize : Nat) :
    Decidable (FitsPool mobility vehicleIds simTimeSeconds poolSize) :=
  List.decidableBAll _ vehicleIds

end Occupancy

variable {mobility : MobilityTable} {vehicleIds : List VehicleId} {simTimeSeconds : ℚ}

/-! ## The initial assignment -/

theorem occupants_of_initial {vehicleId : VehicleId} {past rest : List VehicleId}
    (hsplit : vehicleIds = past ++ vehicleId :: rest) (hnodup : vehicleIds.Nodup)
    (hinitial : StartsInitially mobility vehicleId) (other : VehicleId) :
    other ∈ occupants mobility vehicleIds vehicleId ↔
      other ∈ past ∧ StartsInitially mobility other := by
  have hpast : vehicleId ∉ past := by
    intro hmem
    rw [hsplit] at hnodup
    exact (List.nodup_append.mp hnodup).2.2 vehicleId hmem vehicleId (by simp) rfl
  have hindex : vehicleIds.idxOf vehicleId = past.length := by
    rw [hsplit, List.idxOf_append_of_notMem hpast]
    simp
  have hbefore : vehicleIds.idxOf other < past.length ↔ other ∈ past := by
    constructor
    · intro hlt
      by_contra hnot
      rw [hsplit, List.idxOf_append_of_notMem hnot] at hlt
      omega
    · intro hmem
      rw [hsplit, List.idxOf_append_of_mem hmem]
      exact List.idxOf_lt_length_iff.mpr hmem
  simp only [occupants, Finset.mem_filter, List.mem_toFinset, AssignedBefore, ReleasedBefore,
    hinitial, hindex, hbefore, not_true_eq_false, false_or, false_and, not_false_eq_true,
    and_true]
  constructor
  · rintro ⟨-, hassigned⟩
    split at hassigned
    next hother => exact ⟨hassigned, hother⟩
    next => cases hassigned
  · rintro ⟨hmem, hother⟩
    refine ⟨?_, by rw [if_pos hother]; exact hmem⟩
    rw [hsplit]
    exact List.mem_append_left _ hmem

/-- The guard of the initial assignment, for a track without negative times. -/
theorem initial_guard_iff (selection : Selection mobility vehicleIds) {vehicleId : VehicleId}
    (hmem : vehicleId ∈ vehicleIds) :
    (firstTimeS mobility vehicleId ≤ 0 + kAssignmentEpsS ∧
      0 ≤ lastTimeS mobility vehicleId + kAssignmentEpsS) ↔
      StartsInitially mobility vehicleId := by
  obtain ⟨hfirst, hlast⟩ := selection.range_bounds hmem
  have heps : (0 : ℚ) ≤ kAssignmentEpsS := by norm_num [kAssignmentEpsS]
  have hend : 0 ≤ lastTimeS mobility vehicleId + kAssignmentEpsS := by linarith
  simp [StartsInitially, hend]

/--
The initial assignment serves the vehicles that start at time 0 in selection order:
all of them, or up to the first one that finds the pool full.
-/
theorem assignInitialDynamicPoolVehicles_outcome (selection : Selection mobility vehicleIds)
    {poolNodeIds : Finset NodeId} (rest : List VehicleId) {past : List VehicleId}
    {pool : PoolState} (hsplit : vehicleIds = past ++ rest)
    (ready : Ready mobility poolNodeIds pool)
    (hactive : ∀ vehicleId, vehicleId ∈ pool.activeVehicleIds ↔
      vehicleId ∈ past ∧ StartsInitially mobility vehicleId) :
    (∃ final, assignInitialDynamicPoolVehicles mobility 0 rest pool = .ok final ∧
      Ready mobility poolNodeIds final ∧
      (∀ vehicleId, vehicleId ∈ final.activeVehicleIds ↔
        vehicleId ∈ vehicleIds ∧ StartsInitially mobility vehicleId) ∧
      ∀ vehicleId ∈ rest, StartsInitially mobility vehicleId →
        (occupants mobility vehicleIds vehicleId).card < poolNodeIds.card) ∨
    ∃ vehicleId ∈ rest, StartsInitially mobility vehicleId ∧
      poolNodeIds.card ≤ (occupants mobility vehicleIds vehicleId).card ∧
      assignInitialDynamicPoolVehicles mobility 0 rest pool =
        .error (.operation (.poolExhausted vehicleId)) := by
  induction rest generalizing past pool with
  | nil =>
      refine Or.inl ⟨pool, rfl, ready, ?_, by simp⟩
      rw [hsplit, List.append_nil]
      exact hactive
  | cons vehicleId rest ih =>
      have hmem : vehicleId ∈ vehicleIds := by simp [hsplit]
      have hnext : vehicleIds = (past ++ [vehicleId]) ++ rest := by simp [hsplit]
      simp only [assignInitialDynamicPoolVehicles, selection.timeRangeOf_eq hmem,
        initial_guard_iff selection hmem]
      by_cases hinitial : StartsInitially mobility vehicleId
      · have hset : pool.activeVehicleIds = occupants mobility vehicleIds vehicleId := by
          ext other
          rw [hactive, occupants_of_initial hsplit selection.nodup hinitial]
        have hinactive : vehicleId ∉ pool.activeVehicleIds := by
          rw [hactive]
          rintro ⟨hpast, -⟩
          have hnodup := selection.nodup
          rw [hsplit] at hnodup
          exact (List.nodup_append.mp hnodup).2.2 vehicleId hpast vehicleId (by simp) rfl
        obtain ⟨rows, htrack, hrows⟩ := selection.tracked vehicleId hmem
        rw [if_pos hinitial]
        rcases ready.assign hinactive htrack hrows with
          ⟨hroom, next, hok, readyNext, hinsert⟩ | ⟨hfull, herror⟩
        · have hactiveNext : ∀ other, other ∈ next.activeVehicleIds ↔
              other ∈ past ++ [vehicleId] ∧ StartsInitially mobility other := by
            intro other
            rw [hinsert, Finset.mem_insert, hactive, List.mem_append, List.mem_singleton]
            constructor
            · rintro (rfl | ⟨hpast, hother⟩)
              · exact ⟨Or.inr rfl, hinitial⟩
              · exact ⟨Or.inl hpast, hother⟩
            · rintro ⟨hpast | rfl, hother⟩
              · exact Or.inr ⟨hpast, hother⟩
              · exact Or.inl rfl
          rw [hok]
          rcases ih hnext readyNext hactiveNext with
            ⟨final, hfinal, readyFinal, hall, hfits⟩ | ⟨late, hlate, hstart, hfull, herror⟩
          · refine Or.inl ⟨final, hfinal, readyFinal, hall, ?_⟩
            intro other hother hstart
            rcases List.mem_cons.mp hother with rfl | hin
            · rw [← hset]
              exact hroom
            · exact hfits other hin hstart
          · exact Or.inr ⟨late, List.mem_cons_of_mem _ hlate, hstart, hfull, herror⟩
        · refine Or.inr ⟨vehicleId, by simp, hinitial, ?_, by rw [herror]⟩
          rw [← hset]
          exact hfull
      · have hactiveNext : ∀ other, other ∈ pool.activeVehicleIds ↔
            other ∈ past ++ [vehicleId] ∧ StartsInitially mobility other := by
          intro other
          rw [hactive, List.mem_append, List.mem_singleton]
          constructor
          · rintro ⟨hpast, hother⟩
            exact ⟨Or.inl hpast, hother⟩
          · rintro ⟨hpast | rfl, hother⟩
            · exact ⟨hpast, hother⟩
            · exact absurd hother hinitial
        rw [if_neg hinitial]
        rcases ih hnext ready hactiveNext with
          ⟨final, hfinal, readyFinal, hall, hfits⟩ | ⟨late, hlate, hstart, hfull, herror⟩
        · refine Or.inl ⟨final, hfinal, readyFinal, hall, ?_⟩
          intro other hother hstart
          rcases List.mem_cons.mp hother with rfl | hin
          · exact absurd hstart hinitial
          · exact hfits other hin hstart
        · exact Or.inr ⟨late, List.mem_cons_of_mem _ hlate, hstart, hfull, herror⟩

end DeepcV2x.Pool
