import DeepcV2x.Foundation.Rounding
import Mathlib.Data.Rat.Floor
import Mathlib.Order.Nat

/-!
# The mandatory fields of a CAM

`NgsimVehicleDataProvider` encodes what the mobility model gives at the time of
a call.  The longitudinal acceleration is the only field with a memory: the
speed and the time of the call before.  Time is in nanoseconds, the tick of the
simulator clock; seconds and speeds are exact rationals.  The code points of
the message description and the cosine of the origin's latitude come from
outside; fields that are the same in every message are left out.
-/

namespace DeepcV2x.Cam

def kDotOneMicro : ℚ := 10000000
def kLocalOriginLatitudeDeg : ℚ := 37
def kLocalOriginLongitudeDeg : ℚ := -122

/-- The reserved code of an acceleration that is not known. -/
def accelerationValue_unavailable : ℤ := 161

/-- Code points of the message description that bound the other fields. -/
structure CodePoints where
  speedValue_standstill : ℤ
  speedValue_outOfRange : ℤ
  headingValue_doNotUse : ℤ

def clampToLong (value : ℚ) (minValue maxValue : ℤ) : ℤ := clampRound value minValue maxValue

def encodeLatitudeFromLocalY (yM : ℚ) : ℤ :=
  clampToLong ((kLocalOriginLatitudeDeg + yM / 111320) * kDotOneMicro) (-900000000) 900000000

def encodeLongitudeFromLocalX (cosOriginLat xM : ℚ) : ℤ :=
  clampToLong ((kLocalOriginLongitudeDeg + xM / (111320 * cosOriginLat)) * kDotOneMicro)
    (-1799999999) 1800000000

/-- What one call finds: the clock, the position, the speed and the heading. -/
structure Reading where
  nowNs : ℤ
  xM : ℚ
  yM : ℚ
  speedMps : ℚ
  headingDeg : ℚ
  deriving DecidableEq, Repr

/-- The memory of the acceleration estimate. -/
structure NgsimVehicleDataProvider where
  lastAccelerationSpeedMps : ℚ
  lastAccelerationTimeNs : ℤ
  deriving DecidableEq, Repr

/-- The constructor takes the first speed and time from the node. -/
def NgsimVehicleDataProvider.construct (reading : Reading) : NgsimVehicleDataProvider :=
  ⟨reading.speedMps, reading.nowNs⟩

structure CamMandatoryData where
  speed : ℤ
  longitude : ℤ
  latitude : ℤ
  longAcceleration : ℤ
  heading : ℤ
  deriving DecidableEq, Repr

/-- `Time::GetSeconds`. -/
def getSeconds (ns : ℤ) : ℚ := ns / 1000000000

def getLongitudinalAccelerationValue (provider : NgsimVehicleDataProvider) (reading : Reading) :
    ℤ × NgsimVehicleDataProvider :=
  let dt := getSeconds (reading.nowNs - provider.lastAccelerationTimeNs)
  let accelerationValue :=
    if dt > 1 / 1000000000 then
      clampToLong ((reading.speedMps - provider.lastAccelerationSpeedMps) * 10) (-160) 161
    else accelerationValue_unavailable
  (accelerationValue, ⟨reading.speedMps, reading.nowNs⟩)

def getCAMMandatoryData (points : CodePoints) (cosOriginLat : ℚ)
    (provider : NgsimVehicleDataProvider) (reading : Reading) :
    CamMandatoryData × NgsimVehicleDataProvider :=
  let acceleration := getLongitudinalAccelerationValue provider reading
  ({ speed := clampToLong (reading.speedMps * 100) points.speedValue_standstill
      (points.speedValue_outOfRange - 1)
     longitude := encodeLongitudeFromLocalX cosOriginLat reading.xM
     latitude := encodeLatitudeFromLocalY reading.yM
     longAcceleration := acceleration.1
     heading := clampToLong (reading.headingDeg * 10) 0 (points.headingValue_doNotUse - 1) },
    acceleration.2)

/-- The messages of a sequence of calls. -/
def camCalls (points : CodePoints) (cosOriginLat : ℚ) :
    NgsimVehicleDataProvider → List Reading → List CamMandatoryData
  | _, [] => []
  | provider, reading :: readings =>
      (getCAMMandatoryData points cosOriginLat provider reading).1 ::
        camCalls points cosOriginLat (getCAMMandatoryData points cosOriginLat provider reading).2
          readings

/-! ## What the acceleration is meant to be -/

/-- Change of speed between two calls in units of 0.1 m/s. -/
def speedChange (previous current : Reading) : ℚ :=
  (current.speedMps - previous.speedMps) * 10

/-- Acceleration between two calls in units of 0.1 m/s². -/
def acceleration (previous current : Reading) : ℚ :=
  speedChange previous current / getSeconds (current.nowNs - previous.nowNs)

/-- `value` is an integer nearest to `rate`, clamped into the valid range. -/
def EncodesRate (rate : ℚ) (value : ℤ) : Prop :=
  ∃ nearest : ℤ, |rate - nearest| ≤ 1 / 2 ∧ value = max (-160) (min 160 nearest)

/-- The field carries the acceleration since the call before, and is unavailable only when no
time has gone by. -/
structure Measured (previous current : Reading) (value : ℤ) : Prop where
  rate : previous.nowNs < current.nowNs → EncodesRate (acceleration previous current) value
  available : value = accelerationValue_unavailable → current.nowNs = previous.nowNs

/-- The unit interval of a code of the valid range, open-ended at the lower limit. -/
structure CodedBy (change : ℚ) (code : ℤ) : Prop where
  low : -160 ≤ code
  high : code ≤ 160
  above : code = -160 ∨ ReachesHalf change code
  below : StaysUnderHalf change code

/-- Where time has gone by it is more than a nanosecond, and the change of speed has the code of
the rate. -/
def InStep (previous current : Reading) : Prop :=
  previous.nowNs < current.nowNs →
    1 < current.nowNs - previous.nowNs ∧
      ∃ code, CodedBy (speedChange previous current) code ∧
        EncodesRate (acceleration previous current) code

/-! ## One call -/

theorem getSeconds_gt_iff (ns : ℤ) : getSeconds ns > 1 / 1000000000 ↔ 1 < ns := by
  unfold getSeconds
  rw [gt_iff_lt, div_lt_div_iff_of_pos_right (by norm_num)]
  exact_mod_cast Iff.rfl

/-- Within the valid range the code sent is that of the change of speed. -/
theorem clampToLong_eq_iff_codedBy (change : ℚ) {code : ℤ} (low : -160 ≤ code)
    (high : code ≤ 160) : clampToLong change (-160) 161 = code ↔ CodedBy change code := by
  rw [clampToLong, clampRound_eq_iff change (by norm_num)]
  constructor
  · rintro ⟨-, -, above, below⟩
    exact ⟨low, high, above, below.resolve_left (by omega)⟩
  · intro coded
    exact ⟨low, by omega, coded.above, Or.inr coded.below⟩

theorem EncodesRate.bounds {rate : ℚ} {value : ℤ} (encodes : EncodesRate rate value) :
    -160 ≤ value ∧ value ≤ 160 := by
  obtain ⟨nearest, -, rfl⟩ := encodes
  omega

/-- The value of one call whose memory is the reading before. -/
def accelerationSent (previous current : Reading) : ℤ :=
  (getLongitudinalAccelerationValue (.construct previous) current).1

theorem accelerationSent_eq (previous current : Reading) :
    accelerationSent previous current =
      if 1 < current.nowNs - previous.nowNs then
        clampToLong (speedChange previous current) (-160) 161
      else accelerationValue_unavailable := by
  simp only [accelerationSent, getLongitudinalAccelerationValue,
    NgsimVehicleDataProvider.construct, getSeconds_gt_iff, speedChange]

/-- A code of the valid range is sent only after more than a nanosecond. -/
theorem elapsed_of_encodesRate {previous current : Reading} {rate : ℚ}
    (encodes : EncodesRate rate (accelerationSent previous current)) :
    1 < current.nowNs - previous.nowNs := by
  by_contra hshort
  have bounds := encodes.bounds
  rw [accelerationSent_eq, if_neg hshort] at bounds
  exact absurd bounds.2 (by decide)

/-- One call sends the measured acceleration exactly when it is in step. -/
theorem measured_iff_inStep {previous current : Reading}
    (ordered : previous.nowNs ≤ current.nowNs) :
    Measured previous current (accelerationSent previous current) ↔ InStep previous current := by
  constructor
  · intro measured later
    have encodes := measured.rate later
    have bounds := encodes.bounds
    have elapsed := elapsed_of_encodesRate encodes
    refine ⟨elapsed, _, ?_, encodes⟩
    rw [← clampToLong_eq_iff_codedBy _ bounds.1 bounds.2, accelerationSent_eq, if_pos elapsed]
  · intro inStep
    rcases ordered.lt_or_eq with later | heq
    · obtain ⟨elapsed, code, coded, encodes⟩ := inStep later
      have hcode : accelerationSent previous current = code := by
        rw [accelerationSent_eq, if_pos elapsed]
        exact (clampToLong_eq_iff_codedBy _ coded.low coded.high).mpr coded
      rw [hcode]
      refine ⟨fun _ => encodes, ?_⟩
      intro hunavailable
      have hhigh := coded.high
      rw [hunavailable] at hhigh
      exact absurd hhigh (by decide)
    · refine ⟨?_, fun _ => heq.symm⟩
      intro later
      exact absurd heq later.ne

/-- Every encoded field lies in the range the message description gives it. -/
theorem getCAMMandatoryData_inRange (points : CodePoints)
    (speeds : points.speedValue_standstill < points.speedValue_outOfRange)
    (headings : 0 < points.headingValue_doNotUse) (cosOriginLat : ℚ)
    (provider : NgsimVehicleDataProvider) (reading : Reading) (data : CamMandatoryData)
    (sent : data = (getCAMMandatoryData points cosOriginLat provider reading).1) :
    (points.speedValue_standstill ≤ data.speed ∧ data.speed < points.speedValue_outOfRange) ∧
      (-1799999999 ≤ data.longitude ∧ data.longitude ≤ 1800000000) ∧
      (-900000000 ≤ data.latitude ∧ data.latitude ≤ 900000000) ∧
      (-160 ≤ data.longAcceleration ∧ data.longAcceleration ≤ accelerationValue_unavailable) ∧
      0 ≤ data.heading ∧ data.heading < points.headingValue_doNotUse := by
  subst sent
  have hspeed := clampRound_mem (reading.speedMps * 100) (Int.le_sub_one_of_lt speeds)
  have hheading := clampRound_mem (reading.headingDeg * 10) (Int.le_sub_one_of_lt headings)
  refine ⟨⟨hspeed.1, Int.lt_of_le_sub_one hspeed.2⟩, clampRound_mem _ (by norm_num),
    clampRound_mem _ (by norm_num), ?_, ⟨hheading.1, Int.lt_of_le_sub_one hheading.2⟩⟩
  simp only [getCAMMandatoryData, getLongitudinalAccelerationValue]
  split
  · exact clampRound_mem _ (by norm_num)
  · decide

/-! ## Sequences of calls -/

/-- From the second call on the message carries the value of the two latest readings. -/
theorem camCalls_longAcceleration (points : CodePoints) (cosOriginLat : ℚ)
    (provider : NgsimVehicleDataProvider) (readings : List Reading) (k : Nat)
    {previous current : Reading} (hprevious : readings[k]? = some previous)
    (hcurrent : readings[k + 1]? = some current) :
    (camCalls points cosOriginLat provider readings)[k + 1]?.map
        CamMandatoryData.longAcceleration = some (accelerationSent previous current) := by
  induction k generalizing provider readings with
  | zero =>
      cases readings with
      | nil => simp at hprevious
      | cons first rest =>
          cases rest with
          | nil => simp at hcurrent
          | cons second rest =>
              obtain rfl : first = previous := by simpa using hprevious
              obtain rfl : second = current := by simpa using hcurrent
              rfl
  | succ k ih =>
      cases readings with
      | nil => simp at hprevious
      | cons first rest =>
          simp only [List.getElem?_cons_succ] at hprevious hcurrent
          simpa [camCalls] using ih _ rest hprevious hcurrent

/-- Over any sequence of calls of a clock that does not go back: every message from the second on
carries the measured acceleration exactly when every two consecutive readings are in step. -/
theorem camCalls_measured_iff (points : CodePoints) (cosOriginLat : ℚ)
    (provider : NgsimVehicleDataProvider) (readings : List Reading)
    (ordered : readings.Pairwise fun earlier later => earlier.nowNs ≤ later.nowNs) :
    (∀ (k : Nat) (previous current : Reading) (data : CamMandatoryData),
        readings[k]? = some previous → readings[k + 1]? = some current →
        (camCalls points cosOriginLat provider readings)[k + 1]? = some data →
          Measured previous current data.longAcceleration) ↔
      ∀ (k : Nat) (previous current : Reading), readings[k]? = some previous →
        readings[k + 1]? = some current → InStep previous current := by
  have inOrder (k : Nat) (previous current : Reading) (hprevious : readings[k]? = some previous)
      (hcurrent : readings[k + 1]? = some current) : previous.nowNs ≤ current.nowNs := by
    obtain ⟨hk, rfl⟩ := List.getElem?_eq_some_iff.mp hprevious
    obtain ⟨hk', rfl⟩ := List.getElem?_eq_some_iff.mp hcurrent
    exact List.pairwise_iff_getElem.mp ordered k (k + 1) hk hk' (Nat.lt_succ_self k)
  constructor
  · intro measured k previous current hprevious hcurrent
    have hvalue := camCalls_longAcceleration points cosOriginLat provider readings k
      hprevious hcurrent
    obtain ⟨data, hdata, hlong⟩ := Option.map_eq_some_iff.mp hvalue
    have hmeasured := measured k previous current data hprevious hcurrent hdata
    rw [hlong] at hmeasured
    exact (measured_iff_inStep (inOrder k _ _ hprevious hcurrent)).mp hmeasured
  · intro inStep k previous current data hprevious hcurrent hdata
    have hvalue := camCalls_longAcceleration points cosOriginLat provider readings k
      hprevious hcurrent
    rw [hdata, Option.map_some, Option.some.injEq] at hvalue
    rw [hvalue]
    exact (measured_iff_inStep (inOrder k _ _ hprevious hcurrent)).mpr
      (inStep k previous current hprevious hcurrent)

/-- Three calls a second apart are in step. -/
theorem camCalls_measured_iff_seconds :
    (∀ (k : Nat) (previous current : Reading) (data : CamMandatoryData),
        [Reading.mk 0 0 0 10 90, ⟨1000000000, 10, 0, 12, 90⟩, ⟨2000000000, 22, 0, 11, 90⟩][k]? =
            some previous →
          [Reading.mk 0 0 0 10 90, ⟨1000000000, 10, 0, 12, 90⟩,
            ⟨2000000000, 22, 0, 11, 90⟩][k + 1]? = some current →
          (camCalls ⟨0, 16382, 3600⟩ (4 / 5) ⟨10, 0⟩
            [Reading.mk 0 0 0 10 90, ⟨1000000000, 10, 0, 12, 90⟩,
              ⟨2000000000, 22, 0, 11, 90⟩])[k + 1]? = some data →
          Measured previous current data.longAcceleration) ↔
      ∀ (k : Nat) (previous current : Reading),
        [Reading.mk 0 0 0 10 90, ⟨1000000000, 10, 0, 12, 90⟩, ⟨2000000000, 22, 0, 11, 90⟩][k]? =
            some previous →
          [Reading.mk 0 0 0 10 90, ⟨1000000000, 10, 0, 12, 90⟩,
            ⟨2000000000, 22, 0, 11, 90⟩][k + 1]? = some current → InStep previous current :=
  camCalls_measured_iff ⟨0, 16382, 3600⟩ (4 / 5) ⟨10, 0⟩ _ (by decide)

/-- A gain of 0.1 m/s in 100 ms is 1 m/s², ten units; the message says one. -/
theorem acceleration_not_divided :
    (camCalls ⟨0, 16382, 3600⟩ (4 / 5) ⟨10, 0⟩
        [⟨100000000, 1, 0, 10, 90⟩, ⟨200000000, 2, 0, 101 / 10, 90⟩])[1]?.map
          CamMandatoryData.longAcceleration = some 1 ∧
      acceleration ⟨100000000, 1, 0, 10, 90⟩ ⟨200000000, 2, 0, 101 / 10, 90⟩ = 10 ∧
      ¬ Measured ⟨100000000, 1, 0, 10, 90⟩ ⟨200000000, 2, 0, 101 / 10, 90⟩ 1 := by
  have hrate : acceleration ⟨100000000, 1, 0, 10, 90⟩ ⟨200000000, 2, 0, 101 / 10, 90⟩ = 10 := by
    norm_num [acceleration, speedChange, getSeconds]
  refine ⟨by decide +kernel, hrate, ?_⟩
  intro measured
  obtain ⟨nearest, hnear, hvalue⟩ := measured.rate (by decide)
  have hnearest : nearest = 1 := by omega
  rw [hrate, hnearest] at hnear
  norm_num [abs_le] at hnear

end DeepcV2x.Cam
