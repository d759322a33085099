import DeepcV2x.Foundation.Deques
import DeepcV2x.Kpi.Logger

/-!
# The sample history of the bridge

`PushSample` and `Ready` on the bounded history, and the three vectors a
request is built from.
-/

namespace DeepcV2x.Bridge

open DeepcV2x.Foundation.Deques DeepcV2x.Kpi

/-- Tolerance of the time comparisons of the bridge. -/
def kTimeEps : ℚ := 1 / 1000000000

/-- The members of `DeepcFileBridge` a history is kept in; `none` before the first sample. -/
structure DeepcFileBridge (pastHorizon : Nat) where
  samples : BoundedDeque KpiSample pastHorizon
  lastSampleTimeS : Option ℚ

namespace DeepcFileBridge

variable {pastHorizon : Nat}

def configured : DeepcFileBridge pastHorizon := ⟨BoundedDeque.empty, none⟩

/-- A sample is new when it is later than the last one by more than the tolerance. -/
def isNewSample (bridge : DeepcFileBridge pastHorizon) (sample : KpiSample) : Bool :=
  match bridge.lastSampleTimeS with
  | none => true
  | some last => decide (last + kTimeEps < sample.timeS)

/-- `PushSample`: the bridge and whether the sample was accepted. -/
def pushSample (bridge : DeepcFileBridge pastHorizon) (sample : KpiSample) :
    DeepcFileBridge pastHorizon × Bool :=
  if bridge.isNewSample sample then (⟨bridge.samples.push sample, some sample.timeS⟩, true)
  else (bridge, false)

def Ready (bridge : DeepcFileBridge pastHorizon) : Prop :=
  bridge.samples.items.length = pastHorizon

instance (bridge : DeepcFileBridge pastHorizon) : Decidable bridge.Ready :=
  inferInstanceAs (Decidable (_ = _))

end DeepcFileBridge

/-! ## The vectors of a request -/

def buildUIni (samples : List KpiSample) : List ℚ := samples.map KpiSample.txPowerDbm

def buildYIni (samples : List KpiSample) : List ℚ :=
  samples.flatMap fun sample => [sample.prrAwareness, sample.pirS, sample.cbr]

def buildDIni (samples : List KpiSample) : List ℚ :=
  samples.flatMap fun sample => [(sample.activeVehicleCountCore : ℚ), sample.beaconIntervalS]

end DeepcV2x.Bridge
