import DeepcV2x.Foundation.EventQueue
import DeepcV2x.Pool.Assignment
import Mathlib.Tactic.Linarith

/-!
# Scheduling of the dynamic pool

The initial assignment at simulation start and the assignment and release
events `main` schedules for the rest of the run, up to the stop event.  The
events of one run form a fixed agenda in the sense of the event queue.
-/

namespace DeepcV2x.Pool

open DeepcV2x.Foundation.EventQueue

/-- The two calls the schedule makes. -/
inductive PoolTask
  | assign (vehicleId : VehicleId)
  | release (vehicleId : VehicleId)
  deriving DecidableEq, Repr

/-- What can end the pool run: the aborts of the operations or of the range of a track. -/
inductive ScheduleAbort
  | operation (abort : Abort)
  | emptyTrack
  deriving DecidableEq, Repr

def ScheduleAbort.message : ScheduleAbort → String
  | operation abort => abort.message
  | emptyTrack => "Cannot compute active time range from empty mobility track"

/-- `ComputeMobilityTimeRange(g_mobilityByVehicle[vehicleId])`; the map creates an empty
track for a missing vehicle. -/
def timeRangeOf (mobility : MobilityTable) (vehicleId : VehicleId) : Option (ℚ × ℚ) :=
  computeMobilityTimeRange ((mobility vehicleId).getD [])

def assignInitialDynamicPoolVehicles (mobility : MobilityTable) (initialTimeS : ℚ) :
    List VehicleId → PoolState → Except ScheduleAbort PoolState
  | [], pool => .ok pool
  | vehicleId :: rest, pool =>
      match timeRangeOf mobility vehicleId with
      | none => .error .emptyTrack
      | some range =>
          if range.1 ≤ initialTimeS + kAssignmentEpsS ∧
              initialTimeS ≤ range.2 + kAssignmentEpsS then
            match assignVehicleToPool mobility vehicleId pool with
            | .error abort => .error (.operation abort)
            | .ok next => assignInitialDynamicPoolVehicles mobility initialTimeS rest next
          else assignInitialDynamicPoolVehicles mobility initialTimeS rest pool

abbrev PoolSimulator := Simulator ℚ PoolTask PoolState

/-- The at most two entries one vehicle adds to the queue. -/
def scheduleVehicle (range : ℚ × ℚ) (initialTimeS simTimeSeconds : ℚ)
    (vehicleId : VehicleId) (sim : PoolSimulator) : PoolSimulator :=
  let assigned :=
    if initialTimeS + kAssignmentEpsS < range.1 ∧ range.1 ≤ simTimeSeconds then
      schedule sim range.1 (.invoke (.assign vehicleId))
    else sim
  let releaseTimeS := range.2 + kAssignmentEpsS
  if initialTimeS + kAssignmentEpsS < releaseTimeS ∧ releaseTimeS ≤ simTimeSeconds then
    schedule assigned releaseTimeS (.invoke (.release vehicleId))
  else assigned

def scheduleDynamicPoolAssignments (mobility : MobilityTable)
    (initialTimeS simTimeSeconds : ℚ) :
    List VehicleId → PoolSimulator → Except ScheduleAbort PoolSimulator
  | [], sim => .ok sim
  | vehicleId :: rest, sim =>
      match timeRangeOf mobility vehicleId with
      | none => .error .emptyTrack
      | some range =>
          scheduleDynamicPoolAssignments mobility initialTimeS simTimeSeconds rest
            (scheduleVehicle range initialTimeS simTimeSeconds vehicleId sim)

/-- The events call the two operations, which schedule nothing. -/
def poolHandler (mobility : MobilityTable) : Handler ℚ PoolTask PoolState Abort :=
  fun _ task pool =>
    match task with
    | .assign vehicleId =>
        match assignVehicleToPool mobility vehicleId pool with
        | .error abort => .error abort
        | .ok next => .ok (next, [])
    | .release vehicleId =>
        match releaseVehicleFromPool vehicleId pool with
        | .error abort => .error abort
        | .ok next => .ok (next, [])

/-- The pool nodes `main` creates, all free and parked, before any application exists. -/
def createPhysicalUes (nodeIds : List NodeId) : PoolState where
  dynamicActivePoolEnabled := true
  vehicleIdToNodeId := fun _ => none
  nodeIdToVehicleId := fun _ => none
  activeVehicleIds := ∅
  freePoolNodeIds := nodeIds
  nodeIdToPoolMobility := fun nodeId =>
    if nodeId ∈ nodeIds then some PoolMobility.unassigned else none
  apps := fun _ => none

/--
The pool part of `main` up to `Simulator::Run`: initial assignment at time 0, one
application per node, the scheduled assignments and releases, and the stop event.
-/
def prepareRun (mobility : MobilityTable) (vehicleIds : List VehicleId)
    (nodeIds : List NodeId) (simTimeSeconds : ℚ) : Except ScheduleAbort PoolSimulator :=
  match assignInitialDynamicPoolVehicles mobility 0 vehicleIds (createPhysicalUes nodeIds) with
  | .error abort => .error abort
  | .ok assigned =>
      let world := nodeIds.foldl createApplication assigned
      match scheduleDynamicPoolAssignments mobility 0 simTimeSeconds vehicleIds
          ⟨0, 0, [], false, world⟩ with
      | .error abort => .error abort
      | .ok sim => .ok (schedule sim simTimeSeconds .stop)

/-- The number of physical UEs `main` creates for a dynamic pool. -/
def physicalUeCount (physicalUePoolSize : Nat) (vehicleIds : List VehicleId) : Nat :=
  min physicalUePoolSize vehicleIds.length

/-- The pre-flight check: the abort condition on the peak count, negated. -/
def preflightPasses (mobility : MobilityTable) (vehicleIds : List VehicleId)
    (filter : CoreFilter) (physicalUePoolSize : Nat) : Prop :=
  (computePeakActiveCountsForVehicles mobility vehicleIds filter).1 ≤
    physicalUeCount physicalUePoolSize vehicleIds

instance (mobility : MobilityTable) (vehicleIds : List VehicleId) (filter : CoreFilter)
    (physicalUePoolSize : Nat) :
    Decidable (preflightPasses mobility vehicleIds filter physicalUePoolSize) :=
  inferInstanceAs (Decidable (_ ≤ _))

/-! ## Selections of tracked vehicles -/

/-- What loading and selecting guarantee of the vehicles of a run with non-negative times. -/
structure Selection (mobility : MobilityTable) (vehicleIds : List VehicleId) : Prop where
  nodup : vehicleIds.Nodup
  tracked : ∀ vehicleId ∈ vehicleIds, ∃ rows, mobility vehicleId = some rows ∧ rows ≠ []
  nonneg : ∀ vehicleId ∈ vehicleIds, ∀ rows, mobility vehicleId = some rows →
    ∀ row ∈ rows, 0 ≤ row.timeS

/-- The vehicles `main` selects from a CSV with non-negative times form a selection. -/
theorem selection_of_csv (rows : List MobilityRow) (maxVehicles : Nat)
    (nonneg : ∀ row ∈ rows, 0 ≤ row.timeS) :
    Selection (loadMobilityCsv rows) (selectVehicleIds rows maxVehicles) := by
  have hall : ∀ vehicleId ∈ selectVehicleIds rows maxVehicles,
      vehicleId ∈ rows.map MobilityRow.vehicleId := by
    intro vehicleId hmem
    simp only [selectVehicleIds] at hmem
    split at hmem
    · simpa using List.mem_of_mem_take hmem
    · simpa using hmem
  refine ⟨?_, ?_, ?_⟩
  · have whole : ((rows.map MobilityRow.vehicleId).dedup.mergeSort
        fun left right => decide (left ≤ right)).Nodup :=
      (List.mergeSort_perm _ _).nodup_iff.mpr (List.nodup_dedup _)
    simp only [selectVehicleIds]
    split
    · exact whole.sublist (List.take_sublist _ _)
    · exact whole
  · intro vehicleId hmem
    obtain ⟨row, hrow, same⟩ := List.mem_map.mp (hall vehicleId hmem)
    have hany : (rows.any fun other => decide (other.vehicleId = vehicleId)) = true :=
      List.any_eq_true.mpr ⟨row, hrow, by simpa using same⟩
    refine ⟨trackOf rows vehicleId, by simp [loadMobilityCsv, hany], ?_⟩
    have hin : row ∈ trackOf rows vehicleId := by simp [trackOf, hrow, same]
    exact List.ne_nil_of_mem hin
  · intro vehicleId _ track htrack row hrow
    simp only [loadMobilityCsv] at htrack
    split at htrack
    · rw [← Option.some.inj htrack] at hrow
      have hin : row ∈ rows := by
        simp only [trackOf, List.mem_mergeSort] at hrow
        exact (List.mem_filter.mp hrow).1
      exact nonneg row hin
    · cases htrack

/-- First row time of a track. -/
def firstTimeS (mobility : MobilityTable) (vehicleId : VehicleId) : ℚ :=
  ((timeRangeOf mobility vehicleId).getD (0, 0)).1

/-- Last row time of a track. -/
def lastTimeS (mobility : MobilityTable) (vehicleId : VehicleId) : ℚ :=
  ((timeRangeOf mobility vehicleId).getD (0, 0)).2

namespace Selection

variable {mobility : MobilityTable} {vehicleIds : List VehicleId}

theorem timeRangeOf_eq (selection : Selection mobility vehicleIds) {vehicleId : VehicleId}
    (hmem : vehicleId ∈ vehicleIds) :
    timeRangeOf mobility vehicleId =
      some (firstTimeS mobility vehicleId, lastTimeS mobility vehicleId) := by
  obtain ⟨rows, hrows, hne⟩ := selection.tracked vehicleId hmem
  obtain ⟨range, hrange, -⟩ := computeMobilityTimeRange_spec hne
  simp [firstTimeS, lastTimeS, timeRangeOf, hrows, hrange]

theorem range_bounds (selection : Selection mobility vehicleIds) {vehicleId : VehicleId}
    (hmem : vehicleId ∈ vehicleIds) :
    0 ≤ firstTimeS mobility vehicleId ∧
      firstTimeS mobility vehicleId ≤ lastTimeS mobility vehicleId := by
  obtain ⟨rows, hrows, hne⟩ := selection.tracked vehicleId hmem
  obtain ⟨range, hrange, known⟩ := computeMobilityTimeRange_spec hne
  have hfirst : firstTimeS mobility vehicleId = range.1 := by
    simp [firstTimeS, timeRangeOf, hrows, hrange]
  have hlast : lastTimeS mobility vehicleId = range.2 := by
    simp [lastTimeS, timeRangeOf, hrows, hrange]
  rw [hfirst, hlast]
  refine ⟨?_, known.first_le_last⟩
  obtain ⟨-, ⟨row, hrow, same⟩, -⟩ := known
  exact same ▸ selection.nonneg vehicleId hmem rows hrows row hrow

end Selection

end DeepcV2x.Pool
