import Mathlib.Algebra.Order.Ring.Rat
import Mathlib.Data.Finset.Dedup
import Mathlib.Data.Finset.Image
import Mathlib.Data.Finset.Lattice.Fold
import Mathlib.Data.List.Sort

/-!
# Mobility tables and their time ranges

Rows of the processed trajectory CSV, grouped by logical vehicle as
`LoadMobilityCsv` groups them, and the two readings `main` makes of them: the
time range of one track and the peak number of vehicles with a row at one time.
Seconds are exact rationals; neither the rounding of doubles nor the tick of
the simulator clock is part of the model.
-/

namespace DeepcV2x.Pool

abbrev VehicleId := UInt32
abbrev NodeId := UInt32

/-- The largest `uint32_t`, used as "no vehicle". -/
def kInvalidVehicleId : VehicleId := 4294967295

def kMaxPhysicalUePoolSize : Nat := 250

/-- Tolerance of the pool assignment, in seconds. -/
def kAssignmentEpsS : ℚ := 1 / 1000000

/-- One row of the mobility CSV, with the fields the pool logic reads. -/
structure MobilityRow where
  timeS : ℚ
  vehicleId : VehicleId
  xM : ℚ
  yM : ℚ
  deriving DecidableEq, Repr

/-- `g_mobilityByVehicle`: the track of each vehicle that has one. -/
abbrev MobilityTable := VehicleId → Option (List MobilityRow)

/-- Rows of one vehicle in time order, as the per-vehicle sort leaves them. -/
def trackOf (rows : List MobilityRow) (vehicleId : VehicleId) : List MobilityRow :=
  (rows.filter fun row => row.vehicleId = vehicleId).mergeSort
    fun left right => decide (left.timeS ≤ right.timeS)

/-- Rows already in time order stay in the order of the file. -/
theorem trackOf_of_sorted {rows : List MobilityRow}
    (sorted : rows.Pairwise fun left right => left.timeS ≤ right.timeS) (vehicleId : VehicleId) :
    trackOf rows vehicleId = rows.filter fun row => row.vehicleId = vehicleId := by
  apply List.mergeSort_of_pairwise
  exact (sorted.filter _).imp fun hle => by simpa using hle

/-- A vehicle enters the table with its first row. -/
def loadMobilityCsv (rows : List MobilityRow) : MobilityTable :=
  fun vehicleId =>
    if rows.any fun row => row.vehicleId = vehicleId then
      some (trackOf rows vehicleId)
    else none

/-- The vehicle ids `main` selects: the table's keys in order, cut to `maxVehicles`. -/
def selectVehicleIds (rows : List MobilityRow) (maxVehicles : Nat) : List VehicleId :=
  let vehicleIds := (rows.map MobilityRow.vehicleId).dedup.mergeSort
    fun left right => decide (left ≤ right)
  if 0 < maxVehicles ∧ maxVehicles < vehicleIds.length then
    vehicleIds.take maxVehicles
  else vehicleIds

/-! ## Time range of one track -/

/-- One turn of the range loop over the running minimum and maximum. -/
def extendRange (range : Option (ℚ × ℚ)) (row : MobilityRow) : Option (ℚ × ℚ) :=
  match range with
  | none => some (row.timeS, row.timeS)
  | some (minTimeS, maxTimeS) =>
      some (min minTimeS row.timeS, max maxTimeS row.timeS)

/-- `none` is the abort on an empty track. -/
def computeMobilityTimeRange (rows : List MobilityRow) : Option (ℚ × ℚ) :=
  rows.foldl extendRange none

/-- What the loop knows of the rows it has seen. -/
def RangeOf (rows : List MobilityRow) (range : ℚ × ℚ) : Prop :=
  (∀ row ∈ rows, range.1 ≤ row.timeS ∧ row.timeS ≤ range.2) ∧
    (∃ row ∈ rows, row.timeS = range.1) ∧ ∃ row ∈ rows, row.timeS = range.2

theorem extendRange_spec {seen : List MobilityRow} {range : ℚ × ℚ}
    (known : RangeOf seen range) (row : MobilityRow) :
    ∃ next, extendRange (some range) row = some next ∧ RangeOf (seen ++ [row]) next := by
  obtain ⟨bounds, ⟨low, hlow, lowEq⟩, high, hhigh, highEq⟩ := known
  refine ⟨(min range.1 row.timeS, max range.2 row.timeS), rfl, ?_, ?_, ?_⟩
  · intro other hother
    rcases List.mem_append.mp hother with hseen | hnew
    · have both := bounds other hseen
      exact ⟨(min_le_left _ _).trans both.1, both.2.trans (le_max_left _ _)⟩
    · rw [List.mem_singleton.mp hnew]
      exact ⟨min_le_right _ _, le_max_right _ _⟩
  · rcases min_choice range.1 row.timeS with hmin | hmin
    · exact ⟨low, by simp [hlow], by simp [hmin, lowEq]⟩
    · exact ⟨row, by simp, by simp [hmin]⟩
  · rcases max_choice range.2 row.timeS with hmax | hmax
    · exact ⟨high, by simp [hhigh], by simp [hmax, highEq]⟩
    · exact ⟨row, by simp, by simp [hmax]⟩

theorem foldl_extendRange (seen rest : List MobilityRow) {range : ℚ × ℚ}
    (known : RangeOf seen range) :
    ∃ last, rest.foldl extendRange (some range) = some last ∧
      RangeOf (seen ++ rest) last := by
  induction rest generalizing seen range with
  | nil => exact ⟨range, rfl, by simpa using known⟩
  | cons row rest ih =>
      obtain ⟨next, hnext, knownNext⟩ := extendRange_spec known row
      obtain ⟨last, hlast, knownLast⟩ := ih (seen ++ [row]) knownNext
      exact ⟨last, by rw [List.foldl_cons, hnext, hlast],
        by simpa [List.append_assoc] using knownLast⟩

/-- The range of a nonempty track is its least and its greatest row time. -/
theorem computeMobilityTimeRange_spec {rows : List MobilityRow} (nonempty : rows ≠ []) :
    ∃ range, computeMobilityTimeRange rows = some range ∧ RangeOf rows range := by
  cases rows with
  | nil => exact absurd rfl nonempty
  | cons row rest =>
      have single : RangeOf [row] (row.timeS, row.timeS) := by
        refine ⟨?_, ⟨row, by simp, rfl⟩, row, by simp, rfl⟩
        intro other hother
        rw [List.mem_singleton.mp hother]
        exact ⟨le_refl _, le_refl _⟩
      simpa [computeMobilityTimeRange, extendRange] using foldl_extendRange [row] rest single

theorem RangeOf.first_le_last {rows : List MobilityRow} {range : ℚ × ℚ}
    (known : RangeOf rows range) : range.1 ≤ range.2 := by
  obtain ⟨bounds, ⟨low, hlow, lowEq⟩, -⟩ := known
  exact (bounds low hlow).1.trans (bounds low hlow).2

/-! ## Peak counts -/

/-- Whether a coordinate lies inside the core corridor. -/
def isInsideCoreRegion (coordinate coreMin coreMax : ℚ) : Bool :=
  decide (coreMin ≤ coordinate) && decide (coordinate ≤ coreMax)

/-- The set the loop leaves under one time key: vehicles with a counted row at that time. -/
def vehiclesAtTime (mobility : MobilityTable) (vehicleIds : List VehicleId)
    (counted : MobilityRow → Bool) (timeS : ℚ) : Finset VehicleId :=
  (vehicleIds.filter fun vehicleId =>
    match mobility vehicleId with
    | none => false
    | some rows => rows.any fun row => decide (row.timeS = timeS) && counted row).toFinset

/-- The time keys of the table the loop builds. -/
def countedTimes (mobility : MobilityTable) (vehicleIds : List VehicleId)
    (counted : MobilityRow → Bool) : List ℚ :=
  vehicleIds.flatMap fun vehicleId =>
    match mobility vehicleId with
    | none => []
    | some rows => (rows.filter counted).map MobilityRow.timeS

def peakCount (mobility : MobilityTable) (vehicleIds : List VehicleId)
    (counted : MobilityRow → Bool) : Nat :=
  (countedTimes mobility vehicleIds counted).foldl
    (fun peak timeS => max peak (vehiclesAtTime mobility vehicleIds counted timeS).card) 0

/-- Which of the two position coordinates the core filter reads. -/
inductive CoreAxis
  | x
  | y
  deriving DecidableEq, Repr

/-- Settings of the optional core filter. -/
structure CoreFilter where
  enableCoreFilter : Bool
  coreAxis : CoreAxis
  coreMin : ℚ
  coreMax : ℚ

def CoreFilter.counts (filter : CoreFilter) (row : MobilityRow) : Bool :=
  !filter.enableCoreFilter ||
    isInsideCoreRegion (match filter.coreAxis with | .x => row.xM | .y => row.yM)
      filter.coreMin filter.coreMax

/-- Peak active vehicles and peak active core vehicles. -/
def computePeakActiveCountsForVehicles (mobility : MobilityTable)
    (vehicleIds : List VehicleId) (filter : CoreFilter) : Nat × Nat :=
  (peakCount mobility vehicleIds fun _ => true,
    peakCount mobility vehicleIds filter.counts)

end DeepcV2x.Pool
