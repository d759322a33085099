import DeepcV2x.Pool.Schedule

/-!
# The agenda of the dynamic pool

Which entries `ScheduleDynamicPoolAssignments` leaves in the queue, at which
times and in which order, and when one vehicle takes its node before another
one arrives.
-/

namespace DeepcV2x.Pool

open DeepcV2x.Foundation.EventQueue

variable (mobility : MobilityTable) (vehicleIds : List VehicleId) (simTimeSeconds : ℚ)

/-- Admitted by the initial assignment at time 0. -/
def StartsInitially (vehicleId : VehicleId) : Prop :=
  firstTimeS mobility vehicleId ≤ kAssignmentEpsS

instance (vehicleId : VehicleId) : Decidable (StartsInitially mobility vehicleId) :=
  inferInstanceAs (Decidable (_ ≤ _))

/-- An assignment event is scheduled. -/
def AssignScheduled (vehicleId : VehicleId) : Prop :=
  kAssignmentEpsS < firstTimeS mobility vehicleId ∧
    firstTimeS mobility vehicleId ≤ simTimeSeconds

/-- A release event is scheduled. -/
def ReleaseScheduled (vehicleId : VehicleId) : Prop :=
  0 < lastTimeS mobility vehicleId ∧
    lastTimeS mobility vehicleId + kAssignmentEpsS ≤ simTimeSeconds

instance (vehicleId : VehicleId) :
    Decidable (AssignScheduled mobility simTimeSeconds vehicleId) :=
  inferInstanceAs (Decidable (_ ∧ _))

instance (vehicleId : VehicleId) :
    Decidable (ReleaseScheduled mobility simTimeSeconds vehicleId) :=
  inferInstanceAs (Decidable (_ ∧ _))

/-- Scheduling order of the tasks: by vehicle, the assignment before the release. -/
def taskRank : PoolTask → Nat
  | .assign vehicleId => 2 * vehicleIds.idxOf vehicleId
  | .release vehicleId => 2 * vehicleIds.idxOf vehicleId + 1

/-- The delayed events one vehicle adds. -/
def trackEntries (vehicleId : VehicleId) : List (ℚ × PoolTask) :=
  (if AssignScheduled mobility simTimeSeconds vehicleId then
    [(firstTimeS mobility vehicleId, .assign vehicleId)] else []) ++
  (if ReleaseScheduled mobility simTimeSeconds vehicleId then
    [(lastTimeS mobility vehicleId + kAssignmentEpsS, .release vehicleId)] else [])

variable {mobility vehicleIds simTimeSeconds}

theorem scheduleVehicle_eq (vehicleId : VehicleId) (sim : PoolSimulator) :
    scheduleVehicle (firstTimeS mobility vehicleId, lastTimeS mobility vehicleId) 0
        simTimeSeconds vehicleId sim =
      scheduleAll sim (trackEntries mobility simTimeSeconds vehicleId) := by
  have hrelease : (0 + kAssignmentEpsS < lastTimeS mobility vehicleId + kAssignmentEpsS ∧
      lastTimeS mobility vehicleId + kAssignmentEpsS ≤ simTimeSeconds) ↔
      ReleaseScheduled mobility simTimeSeconds vehicleId := by
    simp [ReleaseScheduled]
  have hassign : (0 + kAssignmentEpsS < firstTimeS mobility vehicleId ∧
      firstTimeS mobility vehicleId ≤ simTimeSeconds) ↔
      AssignScheduled mobility simTimeSeconds vehicleId := by
    simp [AssignScheduled]
  simp only [scheduleVehicle, hrelease, hassign, trackEntries]
  by_cases ha : AssignScheduled mobility simTimeSeconds vehicleId <;>
    by_cases hr : ReleaseScheduled mobility simTimeSeconds vehicleId <;>
    simp [ha, hr, scheduleAll]

theorem scheduleDynamicPoolAssignments_eq (sim : PoolSimulator) (rest : List VehicleId)
    (hrange : ∀ vehicleId ∈ rest, timeRangeOf mobility vehicleId =
      some (firstTimeS mobility vehicleId, lastTimeS mobility vehicleId)) :
    scheduleDynamicPoolAssignments mobility 0 simTimeSeconds rest sim =
      .ok (scheduleAll sim (rest.flatMap (trackEntries mobility simTimeSeconds))) := by
  induction rest generalizing sim with
  | nil => rfl
  | cons vehicleId rest ih =>
      have hhere := hrange vehicleId (by simp)
      have hrest := fun other hmem => hrange other (List.mem_cons_of_mem vehicleId hmem)
      simp only [scheduleDynamicPoolAssignments, hhere]
      rw [scheduleVehicle_eq, ih _ hrest]
      simp [scheduleAll, List.foldl_append]

theorem mem_trackEntries {vehicleId : VehicleId} {entry : ℚ × PoolTask} :
    entry ∈ trackEntries mobility simTimeSeconds vehicleId ↔
      (AssignScheduled mobility simTimeSeconds vehicleId ∧
        entry = (firstTimeS mobility vehicleId, .assign vehicleId)) ∨
      (ReleaseScheduled mobility simTimeSeconds vehicleId ∧
        entry = (lastTimeS mobility vehicleId + kAssignmentEpsS, .release vehicleId)) := by
  unfold trackEntries
  by_cases ha : AssignScheduled mobility simTimeSeconds vehicleId <;>
    by_cases hr : ReleaseScheduled mobility simTimeSeconds vehicleId <;>
    simp [ha, hr]

/-- Along the scheduled list the ranks grow. -/
theorem trackEntries_ranked (hnodup : vehicleIds.Nodup) :
    (vehicleIds.flatMap (trackEntries mobility simTimeSeconds)).Pairwise
      fun left right => taskRank vehicleIds left.2 < taskRank vehicleIds right.2 := by
  rw [List.pairwise_flatMap]
  constructor
  · intro vehicleId _
    unfold trackEntries
    by_cases ha : AssignScheduled mobility simTimeSeconds vehicleId <;>
      by_cases hr : ReleaseScheduled mobility simTimeSeconds vehicleId <;>
      simp [ha, hr, taskRank]
  · rw [List.pairwise_iff_getElem]
    intro i j hi hj hlt left hleft right hright
    have hidxLeft : vehicleIds.idxOf vehicleIds[i] = i := hnodup.idxOf_getElem i hi
    have hidxRight : vehicleIds.idxOf vehicleIds[j] = j := hnodup.idxOf_getElem j hj
    rcases mem_trackEntries.mp hleft with ⟨-, rfl⟩ | ⟨-, rfl⟩ <;>
      rcases mem_trackEntries.mp hright with ⟨-, rfl⟩ | ⟨-, rfl⟩ <;>
      simp only [taskRank, hidxLeft, hidxRight] <;> omega

/-! ## What the agenda holds -/

/-- The content of the queue at the start of a run. -/
structure PoolAgenda (mobility : MobilityTable) (vehicleIds : List VehicleId)
    (simTimeSeconds : ℚ) (agenda : List (Pending ℚ PoolTask)) : Prop where
  distinct : DistinctUids agenda
  assignEntry : ∀ entry ∈ agenda, ∀ vehicleId, entry.task = .invoke (.assign vehicleId) →
    vehicleId ∈ vehicleIds ∧ AssignScheduled mobility simTimeSeconds vehicleId ∧
      entry.time = firstTimeS mobility vehicleId
  releaseEntry : ∀ entry ∈ agenda, ∀ vehicleId, entry.task = .invoke (.release vehicleId) →
    vehicleId ∈ vehicleIds ∧ ReleaseScheduled mobility simTimeSeconds vehicleId ∧
      entry.time = lastTimeS mobility vehicleId + kAssignmentEpsS
  hasAssign : ∀ vehicleId ∈ vehicleIds, AssignScheduled mobility simTimeSeconds vehicleId →
    ∃ entry ∈ agenda, entry.task = .invoke (.assign vehicleId)
  hasRelease : ∀ vehicleId ∈ vehicleIds, ReleaseScheduled mobility simTimeSeconds vehicleId →
    ∃ entry ∈ agenda, entry.task = .invoke (.release vehicleId)
  ranked : ∀ left ∈ agenda, ∀ right ∈ agenda, ∀ first second,
    left.task = .invoke first → right.task = .invoke second →
    taskRank vehicleIds first < taskRank vehicleIds second → left.uid < right.uid
  unique : ∀ left ∈ agenda, ∀ right ∈ agenda, ∀ task,
    left.task = .invoke task → right.task = .invoke task → left = right
  stopEntry : ∀ entry ∈ agenda, entry.task = .stop → entry.time = simTimeSeconds ∧
    ∀ other ∈ agenda, other ≠ entry → other.uid < entry.uid
  due : ∀ entry ∈ agenda, 0 ≤ entry.time

/-- The queue of a prepared run over a selection is such an agenda. -/
theorem poolAgenda_of_selection (selection : Selection mobility vehicleIds)
    (hsim : 0 ≤ simTimeSeconds) (world : PoolState) :
    PoolAgenda mobility vehicleIds simTimeSeconds
      (schedule
        (scheduleAll (⟨0, 0, [], false, world⟩ : PoolSimulator)
          (vehicleIds.flatMap (trackEntries mobility simTimeSeconds)))
        simTimeSeconds .stop).queue := by
  set follow := vehicleIds.flatMap (trackEntries mobility simTimeSeconds) with hfollow
  have hqueue : (schedule (scheduleAll (⟨0, 0, [], false, world⟩ : PoolSimulator) follow)
      simTimeSeconds .stop).queue =
        entriesFrom (0 : ℚ) 0 follow ++ [⟨simTimeSeconds, follow.length, .stop⟩] := by
    simp [schedule, scheduleAll_eq]
  rw [hqueue]
  set entries := entriesFrom (0 : ℚ) 0 follow with hentries
  have hsource : ∀ entry ∈ entries, entry.uid < follow.length ∧ ∃ vehicleId ∈ vehicleIds,
      (AssignScheduled mobility simTimeSeconds vehicleId ∧
        entry.task = .invoke (.assign vehicleId) ∧
        entry.time = firstTimeS mobility vehicleId) ∨
      (ReleaseScheduled mobility simTimeSeconds vehicleId ∧
        entry.task = .invoke (.release vehicleId) ∧
        entry.time = lastTimeS mobility vehicleId + kAssignmentEpsS) := by
    intro entry hmem
    obtain ⟨-, huid, source, hin, htime, htask⟩ := mem_entriesFrom hmem
    obtain ⟨vehicleId, hvehicle, htrack⟩ := List.mem_flatMap.mp hin
    refine ⟨by omega, vehicleId, hvehicle, ?_⟩
    rcases mem_trackEntries.mp htrack with ⟨hscheduled, rfl⟩ | ⟨hscheduled, rfl⟩
    · exact Or.inl ⟨hscheduled, htask, by simpa using htime⟩
    · exact Or.inr ⟨hscheduled, htask, by simpa using htime⟩
  have hsplit : ∀ entry ∈ entries ++ [⟨simTimeSeconds, follow.length, .stop⟩],
      ∀ task, entry.task = .invoke task → entry ∈ entries := by
    intro entry hmem task htask
    rcases List.mem_append.mp hmem with hin | hstop
    · exact hin
    · rw [List.mem_singleton.mp hstop] at htask
      cases htask
  have hcomplete : ∀ vehicleId ∈ vehicleIds, ∀ source : ℚ × PoolTask,
      source ∈ trackEntries mobility simTimeSeconds vehicleId →
        ∃ entry ∈ entries, entry.task = .invoke source.2 := by
    intro vehicleId hvehicle source hin
    obtain ⟨entry, hentry, -, htask⟩ := @entriesFrom_complete ℚ PoolTask _ 0 0 follow source
      (List.mem_flatMap.mpr ⟨vehicleId, hvehicle, hin⟩)
    exact ⟨entry, hentry, htask⟩
  refine ⟨?_, ?_, ?_, ?_, ?_, ?_, ?_, ?_, ?_⟩
  · rw [DistinctUids, List.map_append, List.nodup_append]
    refine ⟨entriesFrom_distinct 0 0 follow, by simp, ?_⟩
    intro uid hmem other hother
    obtain ⟨entry, hentry, rfl⟩ := List.mem_map.mp hmem
    have hlt := (hsource entry hentry).1
    simp only [List.map_cons, List.map_nil, List.mem_singleton] at hother
    omega
  · intro entry hmem vehicleId htask
    obtain ⟨-, other, hother, ⟨hscheduled, hsame, htime⟩ | ⟨-, hsame, -⟩⟩ :=
      hsource entry (hsplit entry hmem _ htask)
    · cases htask.symm.trans hsame
      exact ⟨hother, hscheduled, htime⟩
    · cases htask.symm.trans hsame
  · intro entry hmem vehicleId htask
    obtain ⟨-, other, hother, ⟨-, hsame, -⟩ | ⟨hscheduled, hsame, htime⟩⟩ :=
      hsource entry (hsplit entry hmem _ htask)
    · cases htask.symm.trans hsame
    · cases htask.symm.trans hsame
      exact ⟨hother, hscheduled, htime⟩
  · intro vehicleId hvehicle hscheduled
    obtain ⟨entry, hentry, htask⟩ := hcomplete vehicleId hvehicle _
      (mem_trackEntries.mpr (Or.inl ⟨hscheduled, rfl⟩))
    exact ⟨entry, List.mem_append_left _ hentry, htask⟩
  · intro vehicleId hvehicle hscheduled
    obtain ⟨entry, hentry, htask⟩ := hcomplete vehicleId hvehicle _
      (mem_trackEntries.mpr (Or.inr ⟨hscheduled, rfl⟩))
    exact ⟨entry, List.mem_append_left _ hentry, htask⟩
  · intro left hleft right hright first second hfirst hsecond hrank
    have hne : left ≠ right := by
      rintro rfl
      cases hfirst.symm.trans hsecond
      exact lt_irrefl _ hrank
    rcases entriesFrom_ordered (taskRank vehicleIds) (trackEntries_ranked selection.nodup)
      (hsplit left hleft _ hfirst) (hsplit right hright _ hsecond) hne with ⟨hlt, -⟩ | ⟨-, hback⟩
    · exact hlt
    · exact absurd (hback second first hsecond hfirst) (lt_asymm hrank)
  · intro left hleft right hright task hfirst hsecond
    by_contra hne
    rcases entriesFrom_ordered (taskRank vehicleIds) (trackEntries_ranked selection.nodup)
      (hsplit left hleft _ hfirst) (hsplit right hright _ hsecond) hne with ⟨-, hback⟩ | ⟨-, hback⟩
    · exact lt_irrefl _ (hback task task hfirst hsecond)
    · exact lt_irrefl _ (hback task task hsecond hfirst)
  · intro entry hmem hstop
    have hlast : entry = ⟨simTimeSeconds, follow.length, .stop⟩ := by
      rcases List.mem_append.mp hmem with hin | hsingle
      · obtain ⟨-, other, -, ⟨-, hsame, -⟩ | ⟨-, hsame, -⟩⟩ := hsource entry hin
        · cases hstop.symm.trans hsame
        · cases hstop.symm.trans hsame
      · exact List.mem_singleton.mp hsingle
    refine ⟨by rw [hlast], ?_⟩
    intro other hother hne
    rcases List.mem_append.mp hother with hin | hsingle
    · rw [hlast]
      exact (hsource other hin).1
    · rw [List.mem_singleton.mp hsingle, hlast] at hne
      exact absurd rfl hne
  · intro entry hmem
    rcases List.mem_append.mp hmem with hin | hsingle
    · obtain ⟨-, vehicleId, hvehicle, ⟨-, -, htime⟩ | ⟨-, -, htime⟩⟩ := hsource entry hin
      · rw [htime]
        exact (selection.range_bounds hvehicle).1
      · have bounds := selection.range_bounds hvehicle
        have hpos : (0 : ℚ) ≤ kAssignmentEpsS := by norm_num [kAssignmentEpsS]
        rw [htime]
        linarith [bounds.1, bounds.2]
    · rw [List.mem_singleton.mp hsingle]
      exact hsim

end DeepcV2x.Pool
