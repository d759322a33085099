import DeepcV2x.Pool.Stages

/-!
# The pre-flight pool check

The check counts vehicles with a row at exactly one time, while a run occupies
a node from the first row of a track until just after its last one.  The exact
criterion for a run that never exhausts the pool counts overlapping tracks.
-/

namespace DeepcV2x.Pool

open DeepcV2x.Foundation.EventQueue

variable {mobility : MobilityTable} {vehicleIds : List VehicleId} {simTimeSeconds : ℚ}

/-- Neither the initial assignment nor any event of the run finds the free pool empty. -/
def NeverExhausted (mobility : MobilityTable) (vehicleIds : List VehicleId)
    (nodeIds : List NodeId) (simTimeSeconds : ℚ) : Prop :=
  (∀ vehicleId, prepareRun mobility vehicleIds nodeIds simTimeSeconds ≠
    .error (.operation (.poolExhausted vehicleId))) ∧
  ∀ start, prepareRun mobility vehicleIds nodeIds simTimeSeconds = .ok start →
    ∀ sim, Reaches (poolHandler mobility) start sim →
      ∀ vehicleId, processOneEvent (poolHandler mobility) sim ≠
        .faulted (.poolExhausted vehicleId)

/-- A run in which every vehicle fits meets no fault at all. -/
theorem Prepared.nofault (selection : Selection mobility vehicleIds)
    {poolNodeIds : Finset NodeId} {start : PoolSimulator}
    (prepared : Prepared mobility vehicleIds simTimeSeconds poolNodeIds start)
    (hfits : FitsPool mobility vehicleIds simTimeSeconds poolNodeIds.card)
    {sim : PoolSimulator} (hreach : Reaches (poolHandler mobility) start sim) (abort : Abort) :
    processOneEvent (poolHandler mobility) sim ≠ .faulted abort := by
  intro hturn
  obtain ⟨vehicleId, hmem, -, hscheduled, hfull⟩ :=
    (prepared.stage_of_reaches selection hreach).fault selection prepared.content
      (prepared.progress hreach) hturn
  have hroom := hfits vehicleId hmem (Or.inr hscheduled.2)
  omega

/-- A run without faults brings every scheduled vehicle to its turn, where it must fit. -/
theorem Prepared.fits_of_turn (selection : Selection mobility vehicleIds)
    {poolNodeIds : Finset NodeId} {start : PoolSimulator}
    (prepared : Prepared mobility vehicleIds simTimeSeconds poolNodeIds start)
    (nofault : ∀ sim, Reaches (poolHandler mobility) start sim → ∀ abort,
      processOneEvent (poolHandler mobility) sim ≠ .faulted abort)
    {vehicleId : VehicleId} (hmem : vehicleId ∈ vehicleIds)
    (hscheduled : AssignScheduled mobility simTimeSeconds vehicleId) :
    (occupants mobility vehicleIds vehicleId).card < poolNodeIds.card := by
  obtain ⟨entry, hentry, htask⟩ := prepared.content.hasAssign vehicleId hmem hscheduled
  have hstops : ∀ other ∈ start.queue, other.task = .stop → ¬ other.Before entry := by
    intro other hother hstop hbefore
    obtain ⟨htime, hlast⟩ := prepared.content.stopEntry other hother hstop
    have hdue := (prepared.content.assignEntry entry hentry vehicleId htask).2.2
    have hne : entry ≠ other := by
      rintro rfl
      cases hstop.symm.trans htask
    rcases hbefore with earlier | ⟨-, huid⟩
    · rw [htime, hdue] at earlier
      exact absurd hscheduled.2 (not_le.mpr earlier)
    · exact absurd huid (Nat.lt_asymm (hlast entry hentry hne))
  obtain ⟨sim, others, hreach, hrunning, hpop⟩ :=
    exists_turn poolHandler_quiet prepared.content.distinct prepared.due nofault
      prepared.running hentry hstops
  rcases (prepared.stage_of_reaches selection hreach).assign_turn selection prepared.content
    (prepared.progress hreach) hpop htask with ⟨hroom, -⟩ | ⟨-, herror⟩
  · exact hroom
  · refine absurd ?_ (nofault sim hreach (.poolExhausted vehicleId))
    simp [processOneEvent, hrunning, hpop, htask, poolHandler, herror]

/-- The exact criterion: the pool is never exhausted when every entering vehicle fits. -/
theorem neverExhausted_iff_fits (selection : Selection mobility vehicleIds)
    (hsim : 0 ≤ simTimeSeconds) {nodeIds : List NodeId} (hnodup : nodeIds.Nodup) :
    NeverExhausted mobility vehicleIds nodeIds simTimeSeconds ↔
      FitsPool mobility vehicleIds simTimeSeconds nodeIds.length := by
  have hcard : nodeIds.toFinset.card = nodeIds.length := List.toFinset_card_of_nodup hnodup
  constructor
  · rintro ⟨hinitial, hrun⟩ vehicleId hmem henters
    rcases prepareRun_outcome selection hsim hnodup with
      ⟨start, hok, prepared, hfits⟩ | ⟨other, -, -, -, herror⟩
    · by_cases hstart : StartsInitially mobility vehicleId
      · exact hfits vehicleId hmem hstart
      · rw [← hcard]
        refine prepared.fits_of_turn selection ?_ hmem (assignScheduled_of_enters henters hstart)
        intro sim hreach abort hturn
        obtain ⟨other, -, rfl, -⟩ :=
          (prepared.stage_of_reaches selection hreach).fault selection prepared.content
            (prepared.progress hreach) hturn
        exact hrun start hok sim hreach other hturn
    · exact absurd herror (hinitial other)
  · intro hfits
    rcases prepareRun_outcome selection hsim hnodup with
      ⟨start, hok, prepared, -⟩ | ⟨other, hmem, hinitial, hfull, -⟩
    · constructor
      · intro vehicleId
        rw [hok]
        exact nofun
      · intro start' hok' sim hreach vehicleId
        obtain rfl := Except.ok.inj (hok.symm.trans hok')
        exact prepared.nofault selection (hcard ▸ hfits) hreach _
    · exact absurd (hfits other hmem (Or.inl hinitial)) (not_lt.mpr hfull)

/-! ## The check against the criterion -/

/-- No core filter. -/
def noCoreFilter : CoreFilter := ⟨false, .x, 0, 0⟩

/-- Vehicle 1 is sampled at 0 and 2, vehicle 2 at 1 and 3. -/
def staggeredRows : List MobilityRow :=
  [⟨0, 1, 0, 0⟩, ⟨1, 2, 0, 0⟩, ⟨2, 1, 0, 0⟩, ⟨3, 2, 0, 0⟩]

/-- The table of these rows, written out. -/
def staggeredTracks : MobilityTable := fun vehicleId =>
  if vehicleId = 1 then some [⟨0, 1, 0, 0⟩, ⟨2, 1, 0, 0⟩]
  else if vehicleId = 2 then some [⟨1, 2, 0, 0⟩, ⟨3, 2, 0, 0⟩]
  else none

theorem loadMobilityCsv_staggeredRows : loadMobilityCsv staggeredRows = staggeredTracks := by
  have sorted : staggeredRows.Pairwise fun left right => left.timeS ≤ right.timeS := by
    simp [staggeredRows]
    norm_num
  funext vehicleId
  simp only [loadMobilityCsv, trackOf_of_sorted sorted, staggeredTracks]
  by_cases one : vehicleId = 1
  · subst one
    decide +kernel
  · by_cases two : vehicleId = 2
    · subst two
      decide +kernel
    · simp [staggeredRows, one, two, Ne.symm one, Ne.symm two]

theorem staggeredTracks_selection : Selection staggeredTracks [1, 2] where
  nodup := by decide
  tracked vehicleId hmem := by
    rcases List.mem_pair.mp hmem with rfl | rfl
    · exact ⟨_, rfl, List.cons_ne_nil _ _⟩
    · exact ⟨_, rfl, List.cons_ne_nil _ _⟩
  nonneg vehicleId hmem rows hrows row hrow := by
    rcases List.mem_pair.mp hmem with rfl | rfl
    · cases hrows
      rcases List.mem_pair.mp hrow with rfl | rfl <;> norm_num
    · cases hrows
      rcases List.mem_pair.mp hrow with rfl | rfl <;> norm_num

end DeepcV2x.Pool
