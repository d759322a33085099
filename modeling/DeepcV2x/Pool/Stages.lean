import DeepcV2x.Pool.Occupancy

/-!
# Stages of a pool run

A run over a prepared agenda is described by which assignment and release
entries are still queued.  When an assignment entry is the earliest one, the
vehicles holding a node are the occupants computed from the tracks.
-/

namespace DeepcV2x.Pool

open DeepcV2x.Foundation.EventQueue

variable {mobility : MobilityTable} {vehicleIds : List VehicleId} {simTimeSeconds : ℚ}
  {poolNodeIds : Finset NodeId}

/-- No entry for the task is left in the queue. -/
def NotQueued (queue : List (Pending ℚ PoolTask)) (task : PoolTask) : Prop :=
  ∀ entry ∈ queue, entry.task ≠ .invoke task

/-- The vehicle has received a node: initially, or by an event that has run. -/
def HasEntered (mobility : MobilityTable) (simTimeSeconds : ℚ)
    (queue : List (Pending ℚ PoolTask)) (vehicleId : VehicleId) : Prop :=
  StartsInitially mobility vehicleId ∨
    (AssignScheduled mobility simTimeSeconds vehicleId ∧ NotQueued queue (.assign vehicleId))

/-- The release event of the vehicle has run. -/
def HasLeft (mobility : MobilityTable) (simTimeSeconds : ℚ)
    (queue : List (Pending ℚ PoolTask)) (vehicleId : VehicleId) : Prop :=
  ReleaseScheduled mobility simTimeSeconds vehicleId ∧ NotQueued queue (.release vehicleId)

/-- The pool at a stage of the run: exactly the vehicles that entered and have not left. -/
structure Stage (mobility : MobilityTable) (vehicleIds : List VehicleId)
    (simTimeSeconds : ℚ) (poolNodeIds : Finset NodeId) (sim : PoolSimulator) : Prop where
  ready : Ready mobility poolNodeIds sim.world
  active : ∀ vehicleId, vehicleId ∈ sim.world.activeVehicleIds ↔
    vehicleId ∈ vehicleIds ∧ HasEntered mobility simTimeSeconds sim.queue vehicleId ∧
      ¬ HasLeft mobility simTimeSeconds sim.queue vehicleId

/-- The scheduled calls schedule nothing themselves. -/
theorem poolHandler_quiet : SchedulesNothing (poolHandler mobility) := by
  intro now task world next follow hok
  cases task with
  | assign vehicleId =>
      simp only [poolHandler] at hok
      cases hassign : assignVehicleToPool mobility vehicleId world with
      | error abort => simp [hassign] at hok
      | ok result =>
          rw [hassign] at hok
          exact (Prod.mk.inj (Except.ok.inj hok)).2.symm
  | release vehicleId =>
      simp only [poolHandler] at hok
      cases hrelease : releaseVehicleFromPool vehicleId world with
      | error abort => simp [hrelease] at hok
      | ok result =>
          rw [hrelease] at hok
          exact (Prod.mk.inj (Except.ok.inj hok)).2.symm

/-! ## Which entries have run -/

/-- While `least` is the earliest entry, the entries that have run are those with a smaller
time, or the same time and a smaller rank. -/
theorem gone_iff_before {agenda : List (Pending ℚ PoolTask)} {sim : PoolSimulator}
    (content : PoolAgenda mobility vehicleIds simTimeSeconds agenda)
    (progress : Progress agenda sim) {least entry : Pending ℚ PoolTask}
    {others : List (Pending ℚ PoolTask)} (hpop : popEarliest sim.queue = some (least, others))
    {current task : PoolTask} (hleast : least.task = .invoke current)
    (hentry : entry ∈ agenda) (htask : entry.task = .invoke task)
    (hne : taskRank vehicleIds task ≠ taskRank vehicleIds current) :
    entry ∉ sim.queue ↔ entry.time < least.time ∨
      (entry.time = least.time ∧ taskRank vehicleIds task < taskRank vehicleIds current) := by
  obtain ⟨hperm, hmin⟩ := popEarliest_spec hpop
  have hleastQueue : least ∈ sim.queue := hperm.mem_iff.mpr List.mem_cons_self
  have hleastIn : least ∈ agenda := progress.sublist least hleastQueue
  constructor
  · intro hgone
    rcases progress.ordered entry hentry hgone least hleastQueue with earlier | ⟨same, huid⟩
    · exact Or.inl earlier
    · refine Or.inr ⟨same, ?_⟩
      by_contra hge
      have hback := content.ranked least hleastIn entry hentry current task hleast htask
        (by omega)
      omega
  · rintro hbefore hqueued
    have hdistinct : entry ≠ least := by
      rintro rfl
      cases htask.symm.trans hleast
      exact hne rfl
    rcases List.mem_cons.mp (hperm.mem_iff.mp hqueued) with same | hother
    · exact hdistinct same
    · apply hmin entry hother
      rcases hbefore with earlier | ⟨same, hrank⟩
      · exact Or.inl earlier
      · exact Or.inr ⟨same, content.ranked entry hentry least hleastIn task current htask
          hleast hrank⟩

/-- A scheduled task is queued exactly as long as its only entry is. -/
theorem notQueued_iff {agenda : List (Pending ℚ PoolTask)} {sim : PoolSimulator}
    (content : PoolAgenda mobility vehicleIds simTimeSeconds agenda)
    (progress : Progress agenda sim) {entry : Pending ℚ PoolTask} {task : PoolTask}
    (hentry : entry ∈ agenda) (htask : entry.task = .invoke task) :
    NotQueued sim.queue task ↔ entry ∉ sim.queue := by
  constructor
  · intro hnone hqueued
    exact hnone entry hqueued htask
  · intro hgone other hother hsame
    have same := content.unique other (progress.sublist other hother) entry hentry task hsame htask
    exact hgone (same ▸ hother)

/-- Removing one entry changes the status of its own task only. -/
theorem notQueued_cons_iff {queue others : List (Pending ℚ PoolTask)}
    {least : Pending ℚ PoolTask} (hperm : queue.Perm (least :: others)) (task : PoolTask) :
    NotQueued queue task ↔ least.task ≠ .invoke task ∧ NotQueued others task := by
  simp only [NotQueued, hperm.mem_iff, List.mem_cons, forall_eq_or_imp]

theorem assignScheduled_of_enters {vehicleId : VehicleId}
    (henters : Enters mobility simTimeSeconds vehicleId)
    (hlater : ¬ StartsInitially mobility vehicleId) :
    AssignScheduled mobility simTimeSeconds vehicleId := by
  rcases henters with hinitial | hdue
  · exact absurd hinitial hlater
  · exact ⟨not_le.mp hlater, hdue⟩

/-- At the turn of an assignment, the active vehicles are the occupants. -/
theorem Stage.active_eq_occupants
    {agenda : List (Pending ℚ PoolTask)} {sim : PoolSimulator}
    (content : PoolAgenda mobility vehicleIds simTimeSeconds agenda)
    (progress : Progress agenda sim)
    (stage : Stage mobility vehicleIds simTimeSeconds poolNodeIds sim)
    {least : Pending ℚ PoolTask} {others : List (Pending ℚ PoolTask)}
    (hpop : popEarliest sim.queue = some (least, others)) {vehicleId : VehicleId}
    (hleast : least.task = .invoke (.assign vehicleId)) :
    sim.world.activeVehicleIds = occupants mobility vehicleIds vehicleId := by
  obtain ⟨hperm, -⟩ := popEarliest_spec hpop
  have hleastIn := progress.sublist least (hperm.mem_iff.mpr List.mem_cons_self)
  obtain ⟨hvehicle, hscheduled, htime⟩ := content.assignEntry least hleastIn vehicleId hleast
  have hlater : ¬ StartsInitially mobility vehicleId := not_le.mpr hscheduled.1
  have hentered : ∀ other ∈ vehicleIds,
      (HasEntered mobility simTimeSeconds sim.queue other ↔
        AssignedBefore mobility vehicleIds other vehicleId) := by
    intro other hother
    simp only [HasEntered, AssignedBefore]
    by_cases hinitial : StartsInitially mobility other
    · simp [hinitial, hlater]
    · rw [if_neg hinitial]
      by_cases hassign : AssignScheduled mobility simTimeSeconds other
      · obtain ⟨entry, hentry, htask⟩ := content.hasAssign other hother hassign
        rw [notQueued_iff content progress hentry htask]
        by_cases same : other = vehicleId
        · subst same
          have hqueued : entry ∈ sim.queue := by
            rw [content.unique entry hentry least hleastIn _ htask hleast]
            exact hperm.mem_iff.mpr List.mem_cons_self
          simp [hinitial, hqueued]
        · have hindex : vehicleIds.idxOf other ≠ vehicleIds.idxOf vehicleId := by
            intro hsame
            exact same ((List.idxOf_inj hother).mp hsame)
          rw [gone_iff_before content progress hpop hleast hentry htask
            (by simp only [taskRank]; omega),
            (content.assignEntry entry hentry other htask).2.2, htime]
          simp [hinitial, hlater, hassign, taskRank]
      · have hlate : ¬ (firstTimeS mobility other < firstTimeS mobility vehicleId ∨
            firstTimeS mobility other = firstTimeS mobility vehicleId ∧
              vehicleIds.idxOf other < vehicleIds.idxOf vehicleId) := by
          intro hbefore
          refine hassign ⟨not_le.mp hinitial, ?_⟩
          rcases hbefore with earlier | ⟨same, -⟩
          · exact earlier.le.trans hscheduled.2
          · exact same ▸ hscheduled.2
        simp [hinitial, hassign, hlate]
  have hleft : ∀ other ∈ vehicleIds,
      (HasLeft mobility simTimeSeconds sim.queue other ↔
        ReleasedBefore mobility vehicleIds other vehicleId) := by
    intro other hother
    simp only [HasLeft, ReleasedBefore]
    by_cases hrelease : ReleaseScheduled mobility simTimeSeconds other
    · obtain ⟨entry, hentry, htask⟩ := content.hasRelease other hother hrelease
      rw [notQueued_iff content progress hentry htask,
        gone_iff_before content progress hpop hleast hentry htask
          (by simp only [taskRank]; omega),
        (content.releaseEntry entry hentry other htask).2.2, htime]
      have hrank : taskRank vehicleIds (.release other) < taskRank vehicleIds (.assign vehicleId) ↔
          vehicleIds.idxOf other < vehicleIds.idxOf vehicleId := by
        simp only [taskRank]
        omega
      simp [hlater, hrelease, hrelease.1, hrank]
    · have hlate : ¬ (0 < lastTimeS mobility other ∧
          (lastTimeS mobility other + kAssignmentEpsS < firstTimeS mobility vehicleId ∨
            lastTimeS mobility other + kAssignmentEpsS = firstTimeS mobility vehicleId ∧
              vehicleIds.idxOf other < vehicleIds.idxOf vehicleId)) := by
        rintro ⟨hpos, hbefore⟩
        refine hrelease ⟨hpos, ?_⟩
        rcases hbefore with earlier | ⟨same, -⟩
        · exact earlier.le.trans hscheduled.2
        · exact same ▸ hscheduled.2
      simp [hrelease, hlate]
  ext other
  rw [stage.active, occupants, Finset.mem_filter, List.mem_toFinset]
  constructor
  · rintro ⟨hother, hin, hout⟩
    exact ⟨hother, (hentered other hother).mp hin, fun h => hout ((hleft other hother).mpr h)⟩
  · rintro ⟨hother, hin, hout⟩
    exact ⟨hother, (hentered other hother).mpr hin, fun h => hout ((hleft other hother).mp h)⟩

/-! ## One turn -/

/-- The turn of an assignment: the vehicle gets a node, or the pool is full. -/
theorem Stage.assign_turn (selection : Selection mobility vehicleIds)
    {agenda : List (Pending ℚ PoolTask)} {sim : PoolSimulator}
    (content : PoolAgenda mobility vehicleIds simTimeSeconds agenda)
    (progress : Progress agenda sim)
    (stage : Stage mobility vehicleIds simTimeSeconds poolNodeIds sim)
    {least : Pending ℚ PoolTask} {others : List (Pending ℚ PoolTask)}
    (hpop : popEarliest sim.queue = some (least, others)) {vehicleId : VehicleId}
    (hleast : least.task = .invoke (.assign vehicleId)) :
    ((occupants mobility vehicleIds vehicleId).card < poolNodeIds.card ∧
      ∃ next, assignVehicleToPool mobility vehicleId sim.world = .ok next ∧
        ∀ after : PoolSimulator, after.queue = others → after.world = next →
          Stage mobility vehicleIds simTimeSeconds poolNodeIds after) ∨
    (poolNodeIds.card ≤ (occupants mobility vehicleIds vehicleId).card ∧
      assignVehicleToPool mobility vehicleId sim.world = .error (.poolExhausted vehicleId)) := by
  obtain ⟨hperm, -⟩ := popEarliest_spec hpop
  have hqueued : least ∈ sim.queue := hperm.mem_iff.mpr List.mem_cons_self
  obtain ⟨hvehicle, hscheduled, -⟩ :=
    content.assignEntry least (progress.sublist least hqueued) vehicleId hleast
  have hlater : ¬ StartsInitially mobility vehicleId := not_le.mpr hscheduled.1
  have hinactive : vehicleId ∉ sim.world.activeVehicleIds := by
    rw [stage.active]
    rintro ⟨-, hinitial | ⟨-, hnone⟩, -⟩
    · exact hlater hinitial
    · exact hnone least hqueued hleast
  obtain ⟨rows, htrack, hrows⟩ := selection.tracked vehicleId hvehicle
  have hset := stage.active_eq_occupants content progress hpop hleast
  rw [← hset]
  rcases stage.ready.assign hinactive htrack hrows with
    ⟨hroom, next, hok, ready, hinsert⟩ | hfull
  · refine Or.inl ⟨hroom, next, hok, ?_⟩
    rintro after hqueue rfl
    refine ⟨ready, ?_⟩
    intro other
    rw [hinsert, Finset.mem_insert, stage.active, hqueue]
    simp only [HasEntered, HasLeft, notQueued_cons_iff hperm, hleast]
    by_cases same : other = vehicleId
    · subst same
      have hnone : NotQueued others (.assign other) := by
        intro entry hmem htask
        have hin : entry ∈ sim.queue := hperm.mem_iff.mpr (List.mem_cons_of_mem _ hmem)
        have hsame := content.unique entry (progress.sublist entry hin) least
          (progress.sublist least hqueued) _ htask hleast
        have hnodup := hperm.nodup_iff.mp progress.nodup
        exact (List.nodup_cons.mp hnodup).1 (hsame ▸ hmem)
      have hstay : ¬ (ReleaseScheduled mobility simTimeSeconds other ∧
          NotQueued others (.release other)) := by
        rintro ⟨hrelease, hgone⟩
        obtain ⟨entry, hentry, htask⟩ := content.hasRelease other hvehicle hrelease
        have hgoneQueue : NotQueued sim.queue (.release other) :=
          (notQueued_cons_iff hperm _).mpr ⟨by rw [hleast]; simp, hgone⟩
        have hbefore := (gone_iff_before content progress hpop hleast hentry htask
          (by simp only [taskRank]; omega)).mp
            ((notQueued_iff content progress hentry htask).mp hgoneQueue)
        rw [(content.releaseEntry entry hentry other htask).2.2,
          (content.assignEntry least (progress.sublist least hqueued) other hleast).2.2] at hbefore
        have hbounds := selection.range_bounds hvehicle
        have heps : (0 : ℚ) < kAssignmentEpsS := by norm_num [kAssignmentEpsS]
        rcases hbefore with earlier | ⟨same, -⟩
        · linarith [hbounds.2]
        · linarith [hbounds.2]
      simp [hvehicle, hscheduled, hnone, hstay]
    · simp [same, Ne.symm same]
  · exact Or.inr hfull

/-- The turn of a release: the vehicle holds a node and gives it back. -/
theorem Stage.release_turn (selection : Selection mobility vehicleIds)
    {agenda : List (Pending ℚ PoolTask)} {sim : PoolSimulator}
    (content : PoolAgenda mobility vehicleIds simTimeSeconds agenda)
    (progress : Progress agenda sim)
    (stage : Stage mobility vehicleIds simTimeSeconds poolNodeIds sim)
    {least : Pending ℚ PoolTask} {others : List (Pending ℚ PoolTask)}
    (hpop : popEarliest sim.queue = some (least, others)) {vehicleId : VehicleId}
    (hleast : least.task = .invoke (.release vehicleId)) :
    ∃ next, releaseVehicleFromPool vehicleId sim.world = .ok next ∧
      ∀ after : PoolSimulator, after.queue = others → after.world = next →
        Stage mobility vehicleIds simTimeSeconds poolNodeIds after := by
  obtain ⟨hperm, -⟩ := popEarliest_spec hpop
  have hqueued : least ∈ sim.queue := hperm.mem_iff.mpr List.mem_cons_self
  have hleastIn := progress.sublist least hqueued
  obtain ⟨hvehicle, hscheduled, htime⟩ := content.releaseEntry least hleastIn vehicleId hleast
  have hbounds := selection.range_bounds hvehicle
  have heps : (0 : ℚ) < kAssignmentEpsS := by norm_num [kAssignmentEpsS]
  have hentered : HasEntered mobility simTimeSeconds sim.queue vehicleId := by
    by_cases hinitial : StartsInitially mobility vehicleId
    · exact Or.inl hinitial
    · have hassign : AssignScheduled mobility simTimeSeconds vehicleId :=
        ⟨not_le.mp hinitial, by linarith [hscheduled.2, hbounds.2]⟩
      obtain ⟨entry, hentry, htask⟩ := content.hasAssign vehicleId hvehicle hassign
      refine Or.inr ⟨hassign, (notQueued_iff content progress hentry htask).mpr ?_⟩
      rw [gone_iff_before content progress hpop hleast hentry htask
        (by simp only [taskRank]; omega),
        (content.assignEntry entry hentry vehicleId htask).2.2, htime]
      exact Or.inl (by linarith [hbounds.2])
  have hactive : vehicleId ∈ sim.world.activeVehicleIds := by
    rw [stage.active]
    exact ⟨hvehicle, hentered, fun hleft => hleft.2 least hqueued hleast⟩
  obtain ⟨next, hok, ready, herase⟩ := stage.ready.release hactive
  refine ⟨next, hok, ?_⟩
  rintro after hqueue rfl
  refine ⟨ready, ?_⟩
  intro other
  rw [herase, Finset.mem_erase, stage.active, hqueue]
  simp only [HasEntered, HasLeft, notQueued_cons_iff hperm, hleast]
  by_cases same : other = vehicleId
  · subst same
    have hnone : NotQueued others (.release other) := by
      intro entry hmem htask
      have hin : entry ∈ sim.queue := hperm.mem_iff.mpr (List.mem_cons_of_mem _ hmem)
      have hsame := content.unique entry (progress.sublist entry hin) least hleastIn _ htask hleast
      have hnodup := hperm.nodup_iff.mp progress.nodup
      exact (List.nodup_cons.mp hnodup).1 (hsame ▸ hmem)
    simp [hscheduled, hnone]
  · simp [same, Ne.symm same]

/-- A turn that continues leads to the next stage. -/
theorem Stage.next (selection : Selection mobility vehicleIds)
    {agenda : List (Pending ℚ PoolTask)} {sim after : PoolSimulator}
    (content : PoolAgenda mobility vehicleIds simTimeSeconds agenda)
    (progress : Progress agenda sim)
    (stage : Stage mobility vehicleIds simTimeSeconds poolNodeIds sim)
    (hturn : processOneEvent (poolHandler mobility) sim = .next after) :
    Stage mobility vehicleIds simTimeSeconds poolNodeIds after := by
  obtain ⟨-, least, others, hpop, ⟨hstop, rfl⟩ | ⟨task, world, follow, htask, hok, rfl⟩⟩ :=
    processOneEvent_next _ hturn
  · obtain ⟨hperm, -⟩ := popEarliest_spec hpop
    refine ⟨stage.ready, ?_⟩
    intro other
    rw [stage.active]
    simp [HasEntered, HasLeft, notQueued_cons_iff hperm, hstop]
  · rw [poolHandler_quiet _ _ _ _ _ hok, scheduleAll_nil]
    cases task with
    | assign vehicleId =>
        rcases stage.assign_turn selection content progress hpop htask with
          ⟨-, next, hassign, hstage⟩ | ⟨-, herror⟩
        · simp only [poolHandler, hassign] at hok
          obtain ⟨rfl, -⟩ := Prod.mk.inj (Except.ok.inj hok)
          exact hstage _ rfl rfl
        · simp [poolHandler, herror] at hok
    | release vehicleId =>
        obtain ⟨next, hrelease, hstage⟩ :=
          stage.release_turn selection content progress hpop htask
        simp only [poolHandler, hrelease] at hok
        obtain ⟨rfl, -⟩ := Prod.mk.inj (Except.ok.inj hok)
        exact hstage _ rfl rfl

/-- The only fault is an exhausted pool, at the entry of a vehicle that does not fit. -/
theorem Stage.fault (selection : Selection mobility vehicleIds)
    {agenda : List (Pending ℚ PoolTask)} {sim : PoolSimulator}
    (content : PoolAgenda mobility vehicleIds simTimeSeconds agenda)
    (progress : Progress agenda sim)
    (stage : Stage mobility vehicleIds simTimeSeconds poolNodeIds sim) {abort : Abort}
    (hturn : processOneEvent (poolHandler mobility) sim = .faulted abort) :
    ∃ vehicleId ∈ vehicleIds, abort = .poolExhausted vehicleId ∧
      AssignScheduled mobility simTimeSeconds vehicleId ∧
      poolNodeIds.card ≤ (occupants mobility vehicleIds vehicleId).card := by
  obtain ⟨-, least, others, task, hpop, htask, herror⟩ := processOneEvent_faulted _ hturn
  obtain ⟨hperm, -⟩ := popEarliest_spec hpop
  have hleastIn := progress.sublist least (hperm.mem_iff.mpr List.mem_cons_self)
  cases task with
  | assign vehicleId =>
      obtain ⟨hvehicle, hscheduled, -⟩ := content.assignEntry least hleastIn vehicleId htask
      rcases stage.assign_turn selection content progress hpop htask with
        ⟨-, next, hassign, -⟩ | ⟨hfull, hassign⟩
      · simp [poolHandler, hassign] at herror
      · simp only [poolHandler, hassign] at herror
        exact ⟨vehicleId, hvehicle, (Except.error.inj herror).symm, hscheduled, hfull⟩
  | release vehicleId =>
      obtain ⟨next, hrelease, -⟩ := stage.release_turn selection content progress hpop htask
      simp [poolHandler, hrelease] at herror

/-! ## Whole runs -/

/-- A prepared run: the agenda is queued and the initial vehicles hold their nodes. -/
structure Prepared (mobility : MobilityTable) (vehicleIds : List VehicleId)
    (simTimeSeconds : ℚ) (poolNodeIds : Finset NodeId) (start : PoolSimulator) : Prop where
  content : PoolAgenda mobility vehicleIds simTimeSeconds start.queue
  stage : Stage mobility vehicleIds simTimeSeconds poolNodeIds start
  atZero : start.now = 0
  running : start.stopped = false

namespace Prepared

variable {start : PoolSimulator}

theorem due (prepared : Prepared mobility vehicleIds simTimeSeconds poolNodeIds start) :
    ∀ entry ∈ start.queue, start.now ≤ entry.time := by
  intro entry hmem
  rw [prepared.atZero]
  exact prepared.content.due entry hmem

theorem progress (prepared : Prepared mobility vehicleIds simTimeSeconds poolNodeIds start)
    {sim : PoolSimulator} (hreach : Reaches (poolHandler mobility) start sim) :
    Progress start.queue sim :=
  hreach.progress poolHandler_quiet prepared.content.distinct prepared.due

theorem stage_of_reaches (selection : Selection mobility vehicleIds)
    (prepared : Prepared mobility vehicleIds simTimeSeconds poolNodeIds start)
    {sim : PoolSimulator} (hreach : Reaches (poolHandler mobility) start sim) :
    Stage mobility vehicleIds simTimeSeconds poolNodeIds sim := by
  induction hreach with
  | refl => exact prepared.stage
  | tail hpast hturn ih =>
      exact ih.next selection prepared.content (prepared.progress hpast) hturn

end Prepared

/-- Preparing a run ends in the first stage, or at a vehicle that does not fit. -/
theorem prepareRun_outcome (selection : Selection mobility vehicleIds)
    (hsim : 0 ≤ simTimeSeconds) {nodeIds : List NodeId} (hnodup : nodeIds.Nodup) :
    (∃ start, prepareRun mobility vehicleIds nodeIds simTimeSeconds = .ok start ∧
      Prepared mobility vehicleIds simTimeSeconds nodeIds.toFinset start ∧
      ∀ vehicleId ∈ vehicleIds, StartsInitially mobility vehicleId →
        (occupants mobility vehicleIds vehicleId).card < nodeIds.length) ∨
    ∃ vehicleId ∈ vehicleIds, StartsInitially mobility vehicleId ∧
      nodeIds.length ≤ (occupants mobility vehicleIds vehicleId).card ∧
      prepareRun mobility vehicleIds nodeIds simTimeSeconds =
        .error (.operation (.poolExhausted vehicleId)) := by
  have hcard : nodeIds.toFinset.card = nodeIds.length := List.toFinset_card_of_nodup hnodup
  have hempty : ∀ vehicleId, vehicleId ∈ (createPhysicalUes nodeIds).activeVehicleIds ↔
      vehicleId ∈ ([] : List VehicleId) ∧ StartsInitially mobility vehicleId := by
    intro vehicleId
    simp [createPhysicalUes]
  rcases assignInitialDynamicPoolVehicles_outcome selection vehicleIds (List.nil_append _).symm
      (createPhysicalUes_ready mobility hnodup) hempty with
    ⟨assigned, hok, ready, hactive, hfits⟩ | ⟨vehicleId, hmem, hinitial, hfull, herror⟩
  · rw [hcard] at hfits
    have hschedule := @scheduleDynamicPoolAssignments_eq mobility simTimeSeconds
      ⟨0, 0, [], false, nodeIds.foldl createApplication assigned⟩ vehicleIds
      fun vehicleId hmem => selection.timeRangeOf_eq hmem
    obtain ⟨readyWorld, hactiveWorld⟩ := ready.createApplications nodeIds
    have content := poolAgenda_of_selection selection hsim
      (nodeIds.foldl createApplication assigned)
    refine Or.inl ⟨_, by simp only [prepareRun, hok, hschedule], ⟨content, ?_, ?_, ?_⟩, hfits⟩
    · refine ⟨by simpa [schedule, scheduleAll_eq] using readyWorld, ?_⟩
      intro vehicleId
      have hworld : (schedule
          (scheduleAll (⟨0, 0, [], false, nodeIds.foldl createApplication assigned⟩ :
            PoolSimulator) (vehicleIds.flatMap (trackEntries mobility simTimeSeconds)))
          simTimeSeconds .stop).world = nodeIds.foldl createApplication assigned := by
        simp [schedule, scheduleAll_eq]
      rw [hworld, hactiveWorld, hactive]
      constructor
      · rintro ⟨hmem, hinitial⟩
        refine ⟨hmem, Or.inl hinitial, ?_⟩
        rintro ⟨hrelease, hnone⟩
        obtain ⟨entry, hentry, htask⟩ := content.hasRelease vehicleId hmem hrelease
        exact hnone entry hentry htask
      · rintro ⟨hmem, hinitial | ⟨hassign, hnone⟩, -⟩
        · exact ⟨hmem, hinitial⟩
        · obtain ⟨entry, hentry, htask⟩ := content.hasAssign vehicleId hmem hassign
          exact absurd htask (hnone entry hentry)
    · simp [schedule, scheduleAll_eq]
    · simp [schedule, scheduleAll_eq]
  · rw [hcard] at hfull
    exact Or.inr ⟨vehicleId, hmem, hinitial, hfull, by simp only [prepareRun, herror]⟩

end DeepcV2x.Pool
