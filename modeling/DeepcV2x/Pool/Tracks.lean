import DeepcV2x.Pool.Preflight

/-!
# Vehicles and the time of their tracks

Once all events up to a time have run, the vehicles holding a node are known
from the tracks.  They are the vehicles whose track is under way, apart from a
track that consists of the initial instant alone: its release time equals the
scheduling guard, so no release is ever scheduled for it.
-/

namespace DeepcV2x.Pool

open DeepcV2x.Foundation.EventQueue

variable {mobility : MobilityTable} {vehicleIds : List VehicleId} {simTimeSeconds : ℚ}

/-- The vehicle has appeared by `timeS`; tracks within the tolerance of the initial instant
appear there. -/
def HasAppeared (mobility : MobilityTable) (timeS : ℚ) (vehicleId : VehicleId) : Prop :=
  firstTimeS mobility vehicleId ≤ timeS ∨ StartsInitially mobility vehicleId

/-- The track of the vehicle is under way at `timeS`. -/
def OnTrack (mobility : MobilityTable) (timeS : ℚ) (vehicleId : VehicleId) : Prop :=
  HasAppeared mobility timeS vehicleId ∧ timeS < lastTimeS mobility vehicleId + kAssignmentEpsS

/-- Both ends of the agenda at a settled time: an entry has run when it is due. -/
theorem notQueued_iff_due {agenda : List (Pending ℚ PoolTask)} {sim : PoolSimulator}
    (content : PoolAgenda mobility vehicleIds simTimeSeconds agenda)
    (progress : Progress agenda sim) {timeS : ℚ} (settled : Settled timeS sim)
    {entry : Pending ℚ PoolTask} {task : PoolTask} (hentry : entry ∈ agenda)
    (htask : entry.task = .invoke task) :
    NotQueued sim.queue task ↔ entry.time ≤ timeS := by
  rw [notQueued_iff content progress hentry htask]
  constructor
  · intro hgone
    exact (progress.past entry hentry hgone).trans settled.1
  · intro hdue hqueued
    exact absurd hdue (not_le.mpr (settled.2 entry hqueued))

/-- The vehicles holding a node at a settled time within the simulated time. -/
theorem Stage.active_settled {poolNodeIds : Finset NodeId}
    {agenda : List (Pending ℚ PoolTask)} {sim : PoolSimulator}
    (content : PoolAgenda mobility vehicleIds simTimeSeconds agenda)
    (progress : Progress agenda sim)
    (stage : Stage mobility vehicleIds simTimeSeconds poolNodeIds sim)
    {timeS : ℚ} (hend : timeS ≤ simTimeSeconds) (settled : Settled timeS sim)
    (vehicleId : VehicleId) :
    vehicleId ∈ sim.world.activeVehicleIds ↔
      vehicleId ∈ vehicleIds ∧ HasAppeared mobility timeS vehicleId ∧
        ¬ (0 < lastTimeS mobility vehicleId ∧
          lastTimeS mobility vehicleId + kAssignmentEpsS ≤ timeS) := by
  have hentered : ∀ other ∈ vehicleIds,
      (HasEntered mobility simTimeSeconds sim.queue other ↔ HasAppeared mobility timeS other) := by
    intro other hother
    constructor
    · rintro (hinitial | ⟨hassign, hnone⟩)
      · exact Or.inr hinitial
      · obtain ⟨entry, hentry, htask⟩ := content.hasAssign other hother hassign
        have hdue := (notQueued_iff_due content progress settled hentry htask).mp hnone
        rw [(content.assignEntry entry hentry other htask).2.2] at hdue
        exact Or.inl hdue
    · rintro (hdue | hinitial)
      · by_cases hinitial : StartsInitially mobility other
        · exact Or.inl hinitial
        · have hassign : AssignScheduled mobility simTimeSeconds other :=
            ⟨not_le.mp hinitial, hdue.trans hend⟩
          obtain ⟨entry, hentry, htask⟩ := content.hasAssign other hother hassign
          refine Or.inr ⟨hassign,
            (notQueued_iff_due content progress settled hentry htask).mpr ?_⟩
          rw [(content.assignEntry entry hentry other htask).2.2]
          exact hdue
      · exact Or.inl hinitial
  have hleft : ∀ other ∈ vehicleIds,
      (HasLeft mobility simTimeSeconds sim.queue other ↔ 0 < lastTimeS mobility other ∧
        lastTimeS mobility other + kAssignmentEpsS ≤ timeS) := by
    intro other hother
    constructor
    · rintro ⟨hrelease, hnone⟩
      obtain ⟨entry, hentry, htask⟩ := content.hasRelease other hother hrelease
      have hdue := (notQueued_iff_due content progress settled hentry htask).mp hnone
      rw [(content.releaseEntry entry hentry other htask).2.2] at hdue
      exact ⟨hrelease.1, hdue⟩
    · rintro ⟨hpos, hdue⟩
      have hrelease : ReleaseScheduled mobility simTimeSeconds other := ⟨hpos, hdue.trans hend⟩
      obtain ⟨entry, hentry, htask⟩ := content.hasRelease other hother hrelease
      refine ⟨hrelease, (notQueued_iff_due content progress settled hentry htask).mpr ?_⟩
      rw [(content.releaseEntry entry hentry other htask).2.2]
      exact hdue
  rw [stage.active]
  constructor
  · rintro ⟨hmem, hin, hout⟩
    exact ⟨hmem, (hentered vehicleId hmem).mp hin, fun h => hout ((hleft vehicleId hmem).mpr h)⟩
  · rintro ⟨hmem, hin, hout⟩
    exact ⟨hmem, (hentered vehicleId hmem).mpr hin, fun h => hout ((hleft vehicleId hmem).mp h)⟩

/-- The run starts, never faults, settles at every time it covers, and whenever it has
settled the vehicles with a node are the selected ones whose track is under way. -/
def OccupiedWhileOnTrack (mobility : MobilityTable) (vehicleIds : List VehicleId)
    (nodeIds : List NodeId) (simTimeSeconds : ℚ) : Prop :=
  ∃ start, prepareRun mobility vehicleIds nodeIds simTimeSeconds = .ok start ∧
    (∀ sim, Reaches (poolHandler mobility) start sim → ∀ abort,
      processOneEvent (poolHandler mobility) sim ≠ .faulted abort) ∧
    ∀ timeS, 0 ≤ timeS → timeS ≤ simTimeSeconds →
      (∃ sim, Reaches (poolHandler mobility) start sim ∧ Settled timeS sim) ∧
      ∀ sim, Reaches (poolHandler mobility) start sim → Settled timeS sim →
        ∀ vehicleId, (sim.world.vehicleIdToNodeId vehicleId).isSome ↔
          vehicleId ∈ vehicleIds ∧ OnTrack mobility timeS vehicleId

/-- A run that never exhausts its pool settles at every time it covers. -/
theorem Prepared.exists_settled (selection : Selection mobility vehicleIds)
    {poolNodeIds : Finset NodeId} {start : PoolSimulator}
    (prepared : Prepared mobility vehicleIds simTimeSeconds poolNodeIds start)
    (hfits : FitsPool mobility vehicleIds simTimeSeconds poolNodeIds.card)
    {timeS : ℚ} (hstart : 0 ≤ timeS) (hend : timeS ≤ simTimeSeconds) :
    ∃ sim, Reaches (poolHandler mobility) start sim ∧ Settled timeS sim := by
  refine Foundation.EventQueue.exists_settled poolHandler_quiet prepared.content.distinct prepared.due
    (fun sim hreach abort => prepared.nofault selection hfits hreach abort)
    (by rw [prepared.atZero]; exact hstart) prepared.running ?_
  intro entry hmem hstop other hother hdue hne
  obtain ⟨htime, hlast⟩ := prepared.content.stopEntry entry hmem hstop
  rcases lt_or_eq_of_le (hdue.trans hend) with earlier | same
  · exact Or.inl (htime ▸ earlier)
  · exact Or.inr ⟨same.trans htime.symm, hlast other hother hne⟩

/-- The vehicles with a node at a settled time: those that appeared and were not released. -/
theorem Prepared.assigned_settled (selection : Selection mobility vehicleIds)
    {poolNodeIds : Finset NodeId} {start sim : PoolSimulator}
    (prepared : Prepared mobility vehicleIds simTimeSeconds poolNodeIds start)
    (hreach : Reaches (poolHandler mobility) start sim) {timeS : ℚ}
    (hend : timeS ≤ simTimeSeconds) (settled : Settled timeS sim) (vehicleId : VehicleId) :
    (sim.world.vehicleIdToNodeId vehicleId).isSome ↔
      vehicleId ∈ vehicleIds ∧ HasAppeared mobility timeS vehicleId ∧
        ¬ (0 < lastTimeS mobility vehicleId ∧
          lastTimeS mobility vehicleId + kAssignmentEpsS ≤ timeS) := by
  have stage := prepared.stage_of_reaches selection hreach
  rw [← stage.ready.active]
  exact stage.active_settled prepared.content (prepared.progress hreach) hend settled vehicleId

/-- A track that ends at time 0 keeps its node once the run outlasts the tolerance. -/
theorem ends_of_occupiedWhileOnTrack (selection : Selection mobility vehicleIds)
    (hsim : 0 ≤ simTimeSeconds) {nodeIds : List NodeId} (hnodup : nodeIds.Nodup)
    (hoccupied : OccupiedWhileOnTrack mobility vehicleIds nodeIds simTimeSeconds)
    {vehicleId : VehicleId} (hmem : vehicleId ∈ vehicleIds) :
    0 < lastTimeS mobility vehicleId ∨ simTimeSeconds < kAssignmentEpsS := by
  by_contra hneither
  obtain ⟨hlast, hlong⟩ := not_or.mp hneither
  have heps : (0 : ℚ) < kAssignmentEpsS := by norm_num [kAssignmentEpsS]
  have hbounds := selection.range_bounds hmem
  obtain ⟨start, hok, -, hsettled⟩ := hoccupied
  rcases prepareRun_outcome selection hsim hnodup with
    ⟨start', hok', prepared, -⟩ | ⟨other, -, -, -, herror⟩
  · obtain rfl := Except.ok.inj (hok.symm.trans hok')
    obtain ⟨⟨sim, hreach, settled⟩, hexact⟩ :=
      hsettled kAssignmentEpsS heps.le (not_lt.mp hlong)
    have hstill := (prepared.assigned_settled selection hreach (not_lt.mp hlong) settled
      vehicleId).mpr
        ⟨hmem, Or.inl (by linarith [hbounds.2, not_lt.mp hlast]), fun h => hlast h.1⟩
    have honTrack := ((hexact sim hreach settled vehicleId).mp hstill).2.2
    linarith [not_lt.mp hlast]
  · cases hok.symm.trans herror

/-- The table of one row, of vehicle 1 at time 0. -/
def singleRowTrack : MobilityTable := fun vehicleId =>
  if vehicleId = 1 then some [⟨0, 1, 0, 0⟩] else none

theorem loadMobilityCsv_singleRow : loadMobilityCsv [⟨0, 1, 0, 0⟩] = singleRowTrack := by
  funext vehicleId
  simp only [loadMobilityCsv, trackOf_of_sorted (List.pairwise_singleton _ _), singleRowTrack]
  by_cases one : vehicleId = 1
  · subst one
    decide +kernel
  · simp [one, Ne.symm one]

theorem singleRowTrack_selection : Selection singleRowTrack [1] where
  nodup := by decide
  tracked vehicleId hmem := by
    rw [List.mem_singleton.mp hmem]
    exact ⟨_, rfl, List.cons_ne_nil _ _⟩
  nonneg vehicleId hmem rows hrows row hrow := by
    rw [List.mem_singleton.mp hmem] at hrows
    cases hrows
    rw [List.mem_singleton.mp hrow]

end DeepcV2x.Pool
