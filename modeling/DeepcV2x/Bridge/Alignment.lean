import DeepcV2x.Bridge.ClosedLoop
import Mathlib.Algebra.Order.Archimedean.Basic
import Mathlib.Data.Rat.Floor
import Mathlib.Tactic.Linarith
import Mathlib.Tactic.Push

/-!
# History alignment

Sample number `c` is the last one before the first bridge step, and bridge step
`m` then pushes sample `c + m`.  The invariant follows the two event chains with
this phase and keeps the histories and powers of all requests so far.
-/

namespace DeepcV2x.Bridge

open DeepcV2x.Foundation.Strings DeepcV2x.Foundation.Decimal DeepcV2x.Foundation.EventQueue
open DeepcV2x.Foundation.Deques DeepcV2x.Kpi

/-! ## Aligned histories -/

/-- The samples pushed by the bridge steps, in order. -/
def pushedSamples (trace : List StepRecord) : List KpiSample := trace.filterMap StepRecord.pushed

/-- Neighbouring samples are one sample time apart. -/
def EvenlySpaced (samples : List KpiSample) : Prop :=
  ∀ i first second, samples[i]? = some first → samples[i + 1]? = some second →
    second.timeS = first.timeS + 1 / 2

/-- The power `RequestControl` returned at a step; the initial one before step 0. -/
def powerAtStep (config : LoopConfig) (requests : List RequestRecord) : ℤ → ℚ
  | .ofNat k => (requests[k]?.map fun request => request.command.txPowerDbm).getD config.txPower
  | .negSucc _ => config.txPower

/-- The histories of a run, against its commands. -/
structure Aligned (config : LoopConfig) (world : LoopWorld) : Prop where
  step_pushes : ∀ record ∈ world.trace, record.now ≤ config.evalEndS + kTimeEps →
    ∃ sample, record.pushed = some sample
  pushed_new : EvenlySpaced (pushedSamples world.trace)
  request_step : ∀ (k : Nat) request, world.requests[k]? = some request →
    request.step = UInt32.ofNat k
  request_full : ∀ (k : Nat) request, world.requests[k]? = some request →
    request.samples.length = kPastHorizon ∧ EvenlySpaced request.samples
  request_shift : ∀ (k : Nat) request next, world.requests[k]? = some request →
    world.requests[k + 1]? = some next →
      ∃ sample, next.samples = request.samples.drop 1 ++ [sample]
  request_uIni : ∀ (k : Nat) request, world.requests[k]? = some request →
    buildUIni request.samples = (List.range kPastHorizon).map fun (i : Nat) =>
      powerAtStep config world.requests ((k : ℤ) + i - kPastHorizon)

/-! ## What the trace records -/

/-- The powers in force: the initial one and those returned so far. -/
def appliedPowers (config : LoopConfig) (requests : List RequestRecord) : List ℚ :=
  config.txPower :: requests.map fun request => request.command.txPowerDbm

/-- The steps and requests made so far, when sample `c` is the first one pushed. -/
structure Recorded (config : LoopConfig) (c : Nat) (trace : List StepRecord)
    (requests : List RequestRecord) : Prop where
  pushes : ∀ record ∈ trace, record.now ≤ config.evalEndS + kTimeEps →
    ∃ sample, record.pushed = some sample
  times : ∀ i sample, (pushedSamples trace)[i]? = some sample →
    sample.timeS = ((c + i : Nat) : ℚ) / 2
  powers : ∀ i sample, (pushedSamples trace)[i]? = some sample →
    (appliedPowers config requests)[i + 1 - kPastHorizon]? = some sample.txPowerDbm
  count : requests.length = (pushedSamples trace).length + 1 - kPastHorizon
  sent : ∀ (k : Nat) request, requests[k]? = some request →
    request.step = UInt32.ofNat k ∧
      request.samples = ((pushedSamples trace).drop k).take kPastHorizon

namespace Recorded

variable {config : LoopConfig} {c : Nat} {trace : List StepRecord} {requests : List RequestRecord}

theorem spaced (recorded : Recorded config c trace requests) :
    EvenlySpaced (pushedSamples trace) := by
  intro i first second hfirst hsecond
  rw [recorded.times i first hfirst, recorded.times (i + 1) second hsecond]
  push_cast
  ring

/-- A request reaches `kPastHorizon` samples into the pushed ones. -/
theorem sent_getElem? (recorded : Recorded config c trace requests) {k : Nat}
    {request : RequestRecord} (hrequest : requests[k]? = some request) {i : Nat}
    (hi : i < kPastHorizon) :
    k + i < (pushedSamples trace).length ∧
      request.samples[i]? = (pushedSamples trace)[k + i]? := by
  have hk : k < requests.length := (List.getElem?_eq_some_iff.mp hrequest).1
  rw [recorded.count] at hk
  refine ⟨by omega, ?_⟩
  rw [(recorded.sent k request hrequest).2, List.getElem?_take_of_lt hi, List.getElem?_drop]

theorem sent_length (recorded : Recorded config c trace requests) {k : Nat}
    {request : RequestRecord} (hrequest : requests[k]? = some request) :
    request.samples.length = kPastHorizon := by
  have hreach := (recorded.sent_getElem? hrequest (show 19 < kPastHorizon by decide)).1
  rw [(recorded.sent k request hrequest).2, List.length_take, List.length_drop]
  simp only [kPastHorizon]
  omega

/-- The power of the sample pushed `i` steps after the first one of request `k`. -/
theorem powerAtStep_eq (recorded : Recorded config c trace requests) {k i : Nat}
    {sample : KpiSample} (hsample : (pushedSamples trace)[k + i]? = some sample) :
    powerAtStep config requests ((k : ℤ) + i - kPastHorizon) = sample.txPowerDbm := by
  have hpower := recorded.powers (k + i) sample hsample
  rcases Nat.lt_or_ge (k + i) kPastHorizon with hearly | hlate
  · rw [Nat.sub_eq_zero_of_le hearly] at hpower
    have hnegative : (k : ℤ) + i - kPastHorizon = Int.negSucc (kPastHorizon - (k + i) - 1) := by
      omega
    rw [hnegative]
    exact Option.some.inj hpower
  · obtain ⟨j, hj⟩ := Nat.exists_eq_add_of_le hlate
    have hindex : (k : ℤ) + i - kPastHorizon = Int.ofNat j := by
      rw [Int.ofNat_eq_natCast]
      omega
    rw [hj, show kPastHorizon + j + 1 - kPastHorizon = j + 1 by omega, appliedPowers,
      List.getElem?_cons_succ, List.getElem?_map] at hpower
    rw [hindex, powerAtStep, hpower]
    rfl

/-- The record determines every history and every input vector. -/
theorem aligned {world : LoopWorld} (recorded : Recorded config c world.trace world.requests) :
    Aligned config world where
  step_pushes := recorded.pushes
  pushed_new := recorded.spaced
  request_step k request hrequest := (recorded.sent k request hrequest).1
  request_full := by
    intro k request hrequest
    refine ⟨recorded.sent_length hrequest, ?_⟩
    intro i first second hfirst hsecond
    have hlength := recorded.sent_length hrequest
    have hi : i + 1 < kPastHorizon := hlength ▸ (List.getElem?_eq_some_iff.mp hsecond).1
    rw [(recorded.sent_getElem? hrequest (Nat.lt_of_succ_lt hi)).2] at hfirst
    rw [(recorded.sent_getElem? hrequest hi).2] at hsecond
    exact recorded.spaced (k + i) first second hfirst hsecond
  request_shift := by
    intro k request next hrequest hnext
    have hreach := (recorded.sent_getElem? hnext (show 19 < kPastHorizon by decide)).1
    refine ⟨(pushedSamples world.trace)[k + 1 + 19], ?_⟩
    rw [(recorded.sent k request hrequest).2, (recorded.sent (k + 1) next hnext).2]
    exact window_succ hreach
  request_uIni := by
    intro k request hrequest
    apply List.ext_getElem?
    intro i
    rw [buildUIni, List.getElem?_map, List.getElem?_map]
    rcases Nat.lt_or_ge i kPastHorizon with hi | hge
    · obtain ⟨hreach, hsame⟩ := recorded.sent_getElem? hrequest hi
      have hsample := List.getElem?_eq_getElem hreach
      rw [hsame, hsample, List.getElem?_range hi, Option.map_some, Option.map_some,
        recorded.powerAtStep_eq hsample]
    · rw [List.getElem?_eq_none (by rw [recorded.sent_length hrequest]; exact hge),
        List.getElem?_eq_none (by rw [List.length_range]; exact hge)]
      rfl

end Recorded

/-! ## The two chains -/

/-- Where the chains are: the samples taken, the pending calls and the other entries. -/
structure Chains where
  sampled : Nat
  samplerUid : Nat
  bridgeUid : Nat
  previousU : InputCommand
  step : UInt32
  others : List (Pending ℚ LoopEvent)

def Chains.sampler (chains : Chains) : Pending ℚ LoopEvent :=
  ⟨((chains.sampled + 1 : Nat) : ℚ) / 2, chains.samplerUid, .invoke .sampleAndWrite⟩

/-- The pending bridge step after `pushed` earlier ones. -/
def Chains.bridge (chains : Chains) (config : LoopConfig) (pushed : Nat) : Pending ℚ LoopEvent :=
  ⟨config.firstBridgeStepS + (pushed : ℚ) / 2, chains.bridgeUid,
    .invoke (.runDeepcBridgeStep chains.previousU chains.step)⟩

/-- Sample `c` is the last one before the first bridge step. -/
structure Phase (config : LoopConfig) (c : Nat) : Prop where
  positive : 0 < c
  before : (c : ℚ) / 2 < config.firstBridgeStepS
  after : config.firstBridgeStepS ≤ ((c + 1 : Nat) : ℚ) / 2

theorem exists_phase (config : LoopConfig) : ∃ c, Phase config c := by
  have hfirst : (1 : ℚ) / 2 < config.firstBridgeStepS := by
    have := config.warmup_nonneg
    simp only [LoopConfig.firstBridgeStepS, LoopConfig.evalStartS, kSampleTimeS]
    linarith
  have hceil : 1 < ⌈2 * config.firstBridgeStepS⌉₊ := by
    apply Nat.lt_ceil.mpr
    push_cast
    linarith
  obtain ⟨c, hc⟩ := Nat.exists_eq_add_of_lt hceil
  refine ⟨c + 1, Nat.succ_pos c, ?_, ?_⟩
  · have hlt : c + 1 < ⌈2 * config.firstBridgeStepS⌉₊ := by omega
    have := Nat.lt_ceil.mp hlt
    linarith
  · have hle := Nat.le_ceil (2 * config.firstBridgeStepS)
    rw [hc, show 1 + c + 1 = c + 1 + 1 by omega] at hle
    linarith

/-- A bridge step is pending, in phase with the sampling. -/
structure Waiting (config : LoopConfig) (c : Nat) (sim : Simulator ℚ LoopEvent LoopWorld)
    (chains : Chains) : Prop where
  queue : sim.queue.Perm (chains.sampler ::
    chains.bridge config (pushedSamples sim.world.trace).length :: chains.others)
  stops : ∀ entry ∈ chains.others, entry.task = .stop
  samplerUid : chains.samplerUid < sim.nextUid
  bridgeUid : chains.bridgeUid < sim.nextUid
  ahead : chains.sampled ≤ c + (pushedSamples sim.world.trace).length
  behind : 0 < (pushedSamples sim.world.trace).length →
    c + (pushedSamples sim.world.trace).length ≤ chains.sampled + 1
  bridgeFirst : chains.sampled = c + (pushedSamples sim.world.trace).length →
    chains.bridgeUid < chains.samplerUid
  history : sim.world.bridge.samples.items =
    lastItems kPastHorizon (pushedSamples sim.world.trace)
  last : sim.world.bridge.lastSampleTimeS =
    (pushedSamples sim.world.trace).getLast?.map KpiSample.timeS
  latest : chains.sampled ≠ 0 → ∃ sample, sim.world.logger.latestSample = some sample ∧
    sample.timeS = (chains.sampled : ℚ) / 2 ∧
    (appliedPowers config sim.world.requests)[chains.sampled + 1 - (c + kPastHorizon)]? =
      some sample.txPowerDbm
  power : (appliedPowers config sim.world.requests)[sim.world.requests.length]? =
    some sim.world.logger.currentP
  step : chains.step = UInt32.ofNat sim.world.requests.length

/-- No bridge step is pending any more. -/
def Idle (sim : Simulator ℚ LoopEvent LoopWorld) : Prop :=
  ∀ entry ∈ sim.queue, entry.task = .stop ∨ entry.task = .invoke .sampleAndWrite

/-- The invariant of the loop. -/
structure LoopInvariant (config : LoopConfig) (c : Nat)
    (sim : Simulator ℚ LoopEvent LoopWorld) : Prop where
  recorded : Recorded config c sim.world.trace sim.world.requests
  pending : sim.stopped = true ∨ Idle sim ∨ ∃ chains, Waiting config c sim chains

/-! ## Sampling -/

theorem foldl_traffic_currentP (config : KpiConfig) (traffic : List Traffic) (logger : KpiLogger) :
    (traffic.foldl (Traffic.apply config) logger).currentP = logger.currentP := by
  induction traffic generalizing logger with
  | nil => rfl
  | cons call rest ih =>
      rw [List.foldl_cons, ih]
      cases call with
      | logTx now scene txVehicleId txNodeId seq posTx =>
          rw [Traffic.apply, KpiLogger.logTx]
          split <;> rfl
      | logRx now scene txVehicleId rxVehicleId seq posRx =>
          rw [Traffic.apply, KpiLogger.logRx]
          split
          · rfl
          · split
            · rfl
            · split
              · rfl
              · split <;> rfl

/-- Sampling records the power in force and leaves it, the bridge and the records alone. -/
theorem runSampleAndWrite_spec (config : LoopConfig) (env : Environment) (now : ℚ)
    (world : LoopWorld) :
    ∃ logger sample,
      runSampleAndWrite config env now world =
        ({ world with logger := logger }, [(kSampleTimeS, .sampleAndWrite)]) ∧
      logger.latestSample = some sample ∧ sample.timeS = now ∧
      sample.txPowerDbm = world.logger.currentP ∧ logger.currentP = world.logger.currentP := by
  have hpower := foldl_traffic_currentP config.kpiConfig (env.traffic now) world.logger
  exact ⟨_, _, rfl, rfl, rfl, hpower, hpower⟩

section Turns

variable {config : LoopConfig} {c : Nat} {sim : Simulator ℚ LoopEvent LoopWorld} {chains : Chains}

/-- The sampler only runs ahead of the bridge step that reads its sample. -/
theorem Waiting.sampler_due (phase : Phase config c) (waiting : Waiting config c sim chains)
    {others : List (Pending ℚ LoopEvent)} (hperm : sim.queue.Perm (chains.sampler :: others))
    (hleast : ∀ other ∈ others, ¬ other.Before chains.sampler) :
    chains.sampled < c + (pushedSamples sim.world.trace).length ∧
      others.Perm (chains.bridge config (pushedSamples sim.world.trace).length ::
        chains.others) := by
  have hothers := (hperm.symm.trans waiting.queue).cons_inv
  refine ⟨lt_of_le_of_ne waiting.ahead fun hcaught => ?_, hothers⟩
  have hmem : chains.bridge config (pushedSamples sim.world.trace).length ∈ others :=
    hothers.mem_iff.mpr List.mem_cons_self
  apply hleast _ hmem
  have hafter := phase.after
  have hle : (chains.bridge config (pushedSamples sim.world.trace).length).time ≤
      chains.sampler.time := by
    simp only [Chains.bridge, Chains.sampler, hcaught]
    push_cast at hafter ⊢
    linarith
  rcases lt_or_eq_of_le hle with hlt | heq
  · exact Or.inl hlt
  · exact Or.inr ⟨heq, waiting.bridgeFirst hcaught⟩

/-- The bridge step runs when its sample has been taken. -/
theorem Waiting.bridge_due (phase : Phase config c) (waiting : Waiting config c sim chains)
    {others : List (Pending ℚ LoopEvent)}
    (hperm : sim.queue.Perm
      (chains.bridge config (pushedSamples sim.world.trace).length :: others))
    (hleast : ∀ other ∈ others,
      ¬ other.Before (chains.bridge config (pushedSamples sim.world.trace).length)) :
    chains.sampled = c + (pushedSamples sim.world.trace).length ∧
      others.Perm (chains.sampler :: chains.others) := by
  have hothers := (hperm.symm.trans (waiting.queue.trans (List.Perm.swap _ _ _))).cons_inv
  refine ⟨le_antisymm waiting.ahead (not_lt.mp fun hlate => ?_), hothers⟩
  have hmem : chains.sampler ∈ others := hothers.mem_iff.mpr List.mem_cons_self
  apply hleast _ hmem
  have hbefore := phase.before
  have hle : ((chains.sampled + 1 : Nat) : ℚ) ≤
      ((c + (pushedSamples sim.world.trace).length : Nat) : ℚ) := by
    exact_mod_cast hlate
  refine Or.inl ?_
  simp only [Chains.bridge, Chains.sampler]
  push_cast at hle ⊢
  linarith

/-- A sampling turn keeps the bridge step waiting. -/
theorem Waiting.sampler_turn (env : Environment)
    (recorded : Recorded config c sim.world.trace sim.world.requests)
    (waiting : Waiting config c sim chains)
    (hlate : chains.sampled < c + (pushedSamples sim.world.trace).length)
    {others : List (Pending ℚ LoopEvent)}
    (hothers : others.Perm (chains.bridge config (pushedSamples sim.world.trace).length ::
      chains.others))
    {world : LoopWorld} {follow : List (ℚ × LoopEvent)}
    (hrun : runSampleAndWrite config env chains.sampler.time sim.world = (world, follow)) :
    world.trace = sim.world.trace ∧ world.requests = sim.world.requests ∧
      ∃ after, Waiting config c
        (scheduleAll { sim with now := chains.sampler.time, queue := others, world := world }
          follow) after := by
  obtain ⟨logger, sample, hspec, hlatest, htime, hpower, hcurrent⟩ :=
    runSampleAndWrite_spec config env chains.sampler.time sim.world
  obtain ⟨rfl, rfl⟩ := Prod.mk.inj (hspec.symm.trans hrun)
  have hindex : chains.sampled + 1 + 1 - (c + kPastHorizon) = sim.world.requests.length := by
    have hbehind := waiting.behind
    have hcount := recorded.count
    simp only [kPastHorizon] at hcount ⊢
    omega
  have hnext : (⟨chains.sampler.time + kSampleTimeS, sim.nextUid, .invoke .sampleAndWrite⟩ :
      Pending ℚ LoopEvent) =
        { chains with sampled := chains.sampled + 1, samplerUid := sim.nextUid }.sampler := by
    simp only [Chains.sampler, kSampleTimeS, Pending.mk.injEq, and_self, and_true]
    push_cast
    ring
  refine ⟨rfl, rfl,
    { chains with sampled := chains.sampled + 1, samplerUid := sim.nextUid }, ?_⟩
  rw [scheduleAll_cons, scheduleAll_nil]
  exact {
    queue := by
      dsimp only [schedule]
      rw [hnext]
      exact List.perm_append_comm.trans (hothers.cons _)
    stops := waiting.stops
    samplerUid := Nat.lt_succ_self _
    bridgeUid := Nat.lt_succ_of_lt waiting.bridgeUid
    ahead := hlate
    behind := fun hpushed => Nat.le_succ_of_le (waiting.behind hpushed)
    bridgeFirst := fun _ => waiting.bridgeUid
    history := waiting.history
    last := waiting.last
    latest := fun _ => ⟨sample, hlatest, htime, by
      dsimp only [schedule]
      rw [hindex, hpower]
      exact waiting.power⟩
    power := by
      dsimp only [schedule]
      rw [hcurrent]
      exact waiting.power
    step := waiting.step }

/-- The sample a due bridge step finds is in the window and new, and is pushed. -/
theorem Waiting.feedHistory_spec (phase : Phase config c)
    (recorded : Recorded config c sim.world.trace sim.world.requests)
    (waiting : Waiting config c sim chains)
    (hcaught : chains.sampled = c + (pushedSamples sim.world.trace).length)
    (hinside : (chains.bridge config (pushedSamples sim.world.trace).length).time ≤
      config.evalEndS + kTimeEps) :
    ∃ sample, feedHistory config sim.world =
        (⟨sim.world.bridge.samples.push sample, some sample.timeS⟩, some sample) ∧
      sample.timeS = ((c + (pushedSamples sim.world.trace).length : Nat) : ℚ) / 2 ∧
      (appliedPowers config sim.world.requests)[
        (pushedSamples sim.world.trace).length + 1 - kPastHorizon]? = some sample.txPowerDbm := by
  have hpositive := phase.positive
  obtain ⟨sample, hlatest, htime, hpower⟩ := waiting.latest (by omega)
  rw [hcaught] at htime hpower
  have hstart : config.evalStartS ≤ sample.timeS + kTimeEps := by
    have hafter := phase.after
    rw [htime]
    simp only [LoopConfig.firstBridgeStepS, kSampleTimeS, kTimeEps] at hafter ⊢
    push_cast at hafter ⊢
    have : (0 : ℚ) ≤ (pushedSamples sim.world.trace).length := Nat.cast_nonneg _
    linarith
  have hend : sample.timeS ≤ config.evalEndS + kTimeEps := by
    have hbefore := phase.before
    rw [htime]
    simp only [Chains.bridge] at hinside
    push_cast
    linarith
  have hnew : sim.world.bridge.isNewSample sample = true := by
    rw [DeepcFileBridge.isNewSample, waiting.last]
    cases hlast : (pushedSamples sim.world.trace).getLast? with
    | none => rfl
    | some previous =>
        rw [List.getLast?_eq_getElem?] at hlast
        have hprevious := recorded.times _ previous hlast
        have hlength := (List.getElem?_eq_some_iff.mp hlast).1
        rw [Option.map_some, decide_eq_true_eq, hprevious, htime]
        have hstep : ((c + ((pushedSamples sim.world.trace).length - 1) : Nat) : ℚ) + 1 =
            ((c + (pushedSamples sim.world.trace).length : Nat) : ℚ) := by
          rw [← Nat.cast_succ]
          congr 1
          omega
        rw [← hstep]
        simp only [kTimeEps]
        linarith
  refine ⟨sample, ?_, htime, ?_⟩
  · rw [feedHistory, hlatest]
    simp only [if_pos (And.intro hstart hend), DeepcFileBridge.pushSample, hnew, if_true]
  · rw [← hpower]
    congr 1
    omega

end Turns

/-! ## A pushed sample -/

theorem pushedSamples_snoc (trace : List StepRecord) (now : ℚ) (pushed : Option KpiSample) :
    pushedSamples (trace ++ [⟨now, pushed⟩]) = pushedSamples trace ++ pushed.toList := by
  rw [pushedSamples, List.filterMap_append]
  cases pushed <;> rfl

theorem appliedPowers_append (config : LoopConfig) (requests more : List RequestRecord) :
    appliedPowers config (requests ++ more) =
      appliedPowers config requests ++ more.map fun request => request.command.txPowerDbm := by
  rw [appliedPowers, List.map_append, ← List.cons_append]
  rfl

theorem length_appliedPowers (config : LoopConfig) (requests : List RequestRecord) :
    (appliedPowers config requests).length = requests.length + 1 := by
  rw [appliedPowers, List.length_cons, List.length_map]

/-- A list keeps what it holds when something is appended. -/
theorem getElem?_append_of_some {Item : Type} {items more : List Item} {i : Nat} {item : Item}
    (hitem : items[i]? = some item) : (items ++ more)[i]? = some item := by
  rw [List.getElem?_append_left (List.getElem?_eq_some_iff.mp hitem).1, hitem]

/-- A pushed sample and the requests its step makes extend the record. -/
theorem Recorded.push {config : LoopConfig} {c : Nat} {trace : List StepRecord}
    {requests more : List RequestRecord} {now : ℚ} {sample : KpiSample}
    (recorded : Recorded config c trace requests)
    (htime : sample.timeS = ((c + (pushedSamples trace).length : Nat) : ℚ) / 2)
    (hpower : (appliedPowers config requests)[
      (pushedSamples trace).length + 1 - kPastHorizon]? = some sample.txPowerDbm)
    (hcount : (requests ++ more).length = (pushedSamples trace).length + 1 + 1 - kPastHorizon)
    (hsent : ∀ request ∈ more, request.step = UInt32.ofNat requests.length ∧
      request.samples = lastItems kPastHorizon (pushedSamples trace ++ [sample])) :
    Recorded config c (trace ++ [⟨now, some sample⟩]) (requests ++ more) := by
  have hpushed : pushedSamples (trace ++ [⟨now, some sample⟩]) = pushedSamples trace ++ [sample] :=
    pushedSamples_snoc trace now (some sample)
  have hcases : ∀ i found, (pushedSamples trace ++ [sample])[i]? = some found →
      (pushedSamples trace)[i]? = some found ∨
        (i = (pushedSamples trace).length ∧ found = sample) := by
    intro i found hfound
    rcases Nat.lt_or_ge i (pushedSamples trace).length with hlt | hge
    · rw [List.getElem?_append_left hlt] at hfound
      exact Or.inl hfound
    · rw [List.getElem?_append_right hge] at hfound
      obtain ⟨hindex, hsame⟩ := List.getElem?_eq_some_iff.mp hfound
      rw [List.length_singleton] at hindex
      rw [List.getElem_singleton] at hsame
      exact Or.inr ⟨by omega, hsame.symm⟩
  constructor
  · intro record hmem hinside
    rcases List.mem_append.mp hmem with hold | hnew
    · exact recorded.pushes record hold hinside
    · rw [List.mem_singleton.mp hnew]
      exact ⟨sample, rfl⟩
  · intro i found hfound
    rw [hpushed] at hfound
    rcases hcases i found hfound with hold | ⟨rfl, rfl⟩
    · exact recorded.times i found hold
    · exact htime
  · intro i found hfound
    rw [hpushed] at hfound
    rw [appliedPowers_append]
    apply getElem?_append_of_some
    rcases hcases i found hfound with hold | ⟨rfl, rfl⟩
    · exact recorded.powers i found hold
    · exact hpower
  · rw [hpushed, hcount, List.length_append, List.length_singleton]
  · intro k request hrequest
    rw [hpushed]
    have hk := (List.getElem?_eq_some_iff.mp hrequest).1
    have hbefore := recorded.count
    simp only [kPastHorizon] at hbefore hcount hsent ⊢
    rcases Nat.lt_or_ge k requests.length with hold | hnew
    · rw [List.getElem?_append_left hold] at hrequest
      obtain ⟨hstep, hsamples⟩ := recorded.sent k request hrequest
      refine ⟨hstep, ?_⟩
      rw [hsamples, List.drop_append_of_le_length (by omega), List.take_append_of_le_length]
      · rfl
      · rw [List.length_drop]
        omega
    · rw [List.getElem?_append_right hnew] at hrequest
      obtain ⟨hstep, hsamples⟩ := hsent request (List.mem_of_getElem? hrequest)
      have hindex : k = requests.length := by omega
      refine ⟨by rw [hstep, hindex], ?_⟩
      rw [hsamples, lastItems, List.length_append, List.length_singleton, hindex, hbefore,
        List.take_of_length_le]
      rw [List.length_drop, List.length_append, List.length_singleton]
      omega

section Turns

variable {config : LoopConfig} {c : Nat} {sim : Simulator ℚ LoopEvent LoopWorld} {chains : Chains}

/-- After a push the next bridge step waits for the next sample, or none is scheduled. -/
theorem Waiting.reschedule (waiting : Waiting config c sim chains)
    (hcaught : chains.sampled = c + (pushedSamples sim.world.trace).length)
    {others : List (Pending ℚ LoopEvent)} (hothers : others.Perm (chains.sampler :: chains.others))
    {now : ℚ} (hnow : now = (chains.bridge config (pushedSamples sim.world.trace).length).time)
    {sample : KpiSample} {logger : KpiLogger} {more : List RequestRecord} {nextU : InputCommand}
    {nextStep : UInt32}
    (hlatest : logger.latestSample = sim.world.logger.latestSample)
    (hpower : (appliedPowers config (sim.world.requests ++ more))[
      (sim.world.requests ++ more).length]? = some logger.currentP)
    (hstep : nextStep = UInt32.ofNat (sim.world.requests ++ more).length)
    (recorded : Recorded config c (sim.world.trace ++ [⟨now, some sample⟩])
      (sim.world.requests ++ more)) :
    LoopInvariant config c (scheduleAll
      { sim with
        now := now
        queue := others
        world := {
          logger := logger
          bridge := ⟨sim.world.bridge.samples.push sample, some sample.timeS⟩
          requests := sim.world.requests ++ more
          trace := sim.world.trace ++ [⟨now, some sample⟩] } }
      (rescheduleBridge config now nextU nextStep)) := by
  have hpushed := pushedSamples_snoc sim.world.trace now (some sample)
  rw [Option.toList_some] at hpushed
  unfold rescheduleBridge
  split
  next hcontinue =>
    refine ⟨recorded, Or.inr (Or.inr ⟨{ chains with
      bridgeUid := sim.nextUid, previousU := nextU, step := nextStep }, ?_⟩)⟩
    rw [scheduleAll_cons, scheduleAll_nil]
    exact {
      queue := by
        dsimp only [schedule]
        rw [hpushed]
        refine List.perm_append_comm.trans ((hothers.cons _).trans ?_)
        refine (List.Perm.swap _ _ _).trans (List.Perm.cons _ ?_)
        have hnext : (⟨now + kControlIntervalS, sim.nextUid,
            .invoke (.runDeepcBridgeStep nextU nextStep)⟩ : Pending ℚ LoopEvent) =
              { chains with
                bridgeUid := sim.nextUid, previousU := nextU, step := nextStep }.bridge config
                  (pushedSamples sim.world.trace ++ [sample]).length := by
          simp only [hnow, Chains.bridge, kControlIntervalS, List.length_append,
            List.length_singleton, Pending.mk.injEq, and_self, and_true]
          push_cast
          ring
        rw [← hnext]
      stops := waiting.stops
      samplerUid := Nat.lt_succ_of_lt waiting.samplerUid
      bridgeUid := Nat.lt_succ_self _
      ahead := by
        dsimp only [schedule]
        rw [hpushed, List.length_append, hcaught]
        exact Nat.add_le_add_left (Nat.le_add_right _ _) c
      behind := by
        dsimp only [schedule]
        rw [hpushed, List.length_append, hcaught]
        exact fun _ => le_refl _
      bridgeFirst := by
        dsimp only [schedule]
        rw [hpushed, List.length_append, List.length_singleton, hcaught]
        intro hsame
        omega
      history := by
        dsimp only [schedule]
        rw [hpushed]
        exact BoundedDeque.push_items waiting.history sample
      last := by
        dsimp only [schedule]
        rw [hpushed, List.getLast?_concat, Option.map_some]
      latest := by
        intro hne
        obtain ⟨found, hfound, htime, hold⟩ := waiting.latest hne
        refine ⟨found, hlatest.trans hfound, htime, ?_⟩
        dsimp only [schedule]
        rw [appliedPowers_append]
        exact getElem?_append_of_some hold
      power := hpower
      step := hstep }
  next hlast =>
    refine ⟨recorded, Or.inr (Or.inl ?_)⟩
    intro entry hmem
    rcases List.mem_cons.mp (hothers.mem_iff.mp hmem) with rfl | hother
    · exact Or.inr rfl
    · exact Or.inl (waiting.stops entry hother)

/-- A bridge step that is due keeps the invariant. -/
theorem Waiting.bridge_turn {stod : Text → Except StodError ℚ} (env : Environment)
    (phase : Phase config c) (recorded : Recorded config c sim.world.trace sim.world.requests)
    (waiting : Waiting config c sim chains)
    (hcaught : chains.sampled = c + (pushedSamples sim.world.trace).length)
    {others : List (Pending ℚ LoopEvent)} (hothers : others.Perm (chains.sampler :: chains.others))
    {now : ℚ} (hnow : now = (chains.bridge config (pushedSamples sim.world.trace).length).time)
    {world : LoopWorld} {follow : List (ℚ × LoopEvent)}
    (hrun : runDeepcBridgeStep stod config env now chains.previousU chains.step sim.world =
      .ok (world, follow)) :
    LoopInvariant config c
      (scheduleAll { sim with now := now, queue := others, world := world } follow) := by
  unfold runDeepcBridgeStep at hrun
  split at hrun
  next hpast =>
    obtain ⟨rfl, rfl⟩ := Prod.mk.inj (Except.ok.inj hrun)
    have hpushed := pushedSamples_snoc sim.world.trace now none
    rw [Option.toList_none, List.append_nil] at hpushed
    refine ⟨⟨?_, ?_, ?_, ?_, ?_⟩, Or.inr (Or.inl ?_)⟩
    · intro record hmem hinside
      rcases List.mem_append.mp hmem with hold | hnew
      · exact recorded.pushes record hold hinside
      · rw [List.mem_singleton.mp hnew] at hinside
        exact absurd hinside (not_le_of_gt hpast)
    · exact fun i sample hsample => recorded.times i sample (hpushed ▸ hsample)
    · exact fun i sample hsample => recorded.powers i sample (hpushed ▸ hsample)
    · exact hpushed.symm ▸ recorded.count
    · exact fun k request hrequest => hpushed.symm ▸ recorded.sent k request hrequest
    · intro entry hmem
      rcases List.mem_cons.mp (hothers.mem_iff.mp hmem) with rfl | hother
      · exact Or.inr rfl
      · exact Or.inl (waiting.stops entry hother)
  next hinside =>
    obtain ⟨sample, hfed, htime, hpower⟩ :=
      waiting.feedHistory_spec phase recorded hcaught (hnow ▸ not_lt.mp hinside)
    have hitems := BoundedDeque.push_items waiting.history sample
    have hlength := congrArg List.length hitems
    rw [length_lastItems, List.length_append, List.length_singleton] at hlength
    have hcount := recorded.count
    simp only [hfed, Option.isSome_some, true_and] at hrun
    split at hrun
    next hready =>
      replace hready : kPastHorizon ≤ (pushedSamples sim.world.trace).length + 1 := by
        rw [DeepcFileBridge.Ready, hlength] at hready
        omega
      split at hrun
      · cases hrun
      next result hresult =>
        obtain ⟨rfl, rfl⟩ := Prod.mk.inj (Except.ok.inj hrun)
        refine waiting.reschedule hcaught hothers hnow rfl ?_ ?_ (recorded.push htime hpower ?_ ?_)
        · rw [appliedPowers_append, List.length_append, List.length_singleton,
            ← length_appliedPowers config, List.map_singleton]
          exact List.getElem?_concat_length
        · rw [waiting.step, List.length_append, List.length_singleton, UInt32.ofNat_add]
          rfl
        · rw [List.length_append, List.length_singleton, hcount]
          omega
        · intro request hmem
          rw [List.mem_singleton.mp hmem]
          exact ⟨waiting.step, hitems⟩
    next hnotReady =>
      obtain ⟨rfl, rfl⟩ := Prod.mk.inj (Except.ok.inj hrun)
      have hshort : (pushedSamples sim.world.trace).length + 1 < kPastHorizon := by
        rw [DeepcFileBridge.Ready, hlength] at hnotReady
        omega
      have hnone : sim.world.requests ++ [] = sim.world.requests := List.append_nil _
      have hrecorded := @Recorded.push config c _ _ [] now sample recorded htime hpower
        (by rw [hnone, hcount]; omega) (by simp)
      have hafter := @Waiting.reschedule config c sim chains waiting hcaught others hothers now
        hnow sample sim.world.logger [] chains.previousU chains.step rfl
        (by rw [hnone]; exact waiting.power) (by rw [hnone]; exact waiting.step) hrecorded
      rw [hnone] at hafter
      exact hafter

end Turns

/-! ## Runs -/

section Runs

variable {stod : Text → Except StodError ℚ} {config : LoopConfig} {c : Nat}

/-- The simulator starts with both chains pending and nothing recorded. -/
theorem loopStart_invariant (phase : Phase config c) : LoopInvariant config c (loopStart config) := by
  have hpositive := phase.positive
  refine ⟨⟨?_, ?_, ?_, rfl, ?_⟩, Or.inr (Or.inr ⟨⟨0, 0, 1, config.initialU, 0,
    [⟨config.simTimeSeconds, 2, .stop⟩]⟩, ?_⟩)⟩
  · intro record hmem
    cases hmem
  · intro i sample hsample
    cases hsample
  · intro i sample hsample
    cases hsample
  · intro k request hrequest
    cases hrequest
  exact {
    queue := by
      simp only [loopStart, schedule, Chains.sampler, Chains.bridge, LoopWorld.initial,
        pushedSamples, kSampleTimeS]
      norm_num
    stops := by
      intro entry hmem
      rw [List.mem_singleton.mp hmem]
    samplerUid := Nat.succ_pos 2
    bridgeUid := Nat.lt_of_sub_eq_succ rfl
    ahead := Nat.zero_le _
    behind := fun hpushed => absurd hpushed (Nat.lt_irrefl 0)
    bridgeFirst := fun hcaught => absurd hcaught (by
      show 0 ≠ c + 0
      omega)
    history := rfl
    last := rfl
    latest := fun hne => absurd rfl hne
    power := rfl
    step := rfl }

/-- Every turn of the simulator keeps the invariant. -/
theorem LoopInvariant.turn {env : Environment} (phase : Phase config c)
    {sim next : Simulator ℚ LoopEvent LoopWorld} (invariant : LoopInvariant config c sim)
    (hturn : processOneEvent (loopHandler stod config env) sim = .next next) :
    LoopInvariant config c next := by
  obtain ⟨hrunning, least, others, hpop, ⟨-, rfl⟩ | ⟨event, world, follow, htask, hhandle, rfl⟩⟩ :=
    processOneEvent_next _ hturn
  · exact ⟨invariant.recorded, Or.inl rfl⟩
  obtain ⟨hperm, hleast⟩ := popEarliest_spec hpop
  have hleastIn : least ∈ sim.queue := hperm.mem_iff.mpr List.mem_cons_self
  rcases invariant.pending with hstopped | idle | ⟨chains, waiting⟩
  · rw [hrunning] at hstopped
    cases hstopped
  · have hsampler : event = .sampleAndWrite := by
      rcases idle least hleastIn with hstop | hsample
      · rw [htask] at hstop
        cases hstop
      · rw [htask] at hsample
        exact Task.invoke.inj hsample
    subst hsampler
    obtain ⟨logger, sample, hspec, -⟩ := runSampleAndWrite_spec config env least.time sim.world
    obtain ⟨rfl, rfl⟩ := Prod.mk.inj (hspec.symm.trans (Except.ok.inj hhandle))
    refine ⟨invariant.recorded, Or.inr (Or.inl ?_)⟩
    intro entry hmem
    rcases List.mem_append.mp hmem with hother | hnew
    · exact idle entry (hperm.mem_iff.mpr (List.mem_cons_of_mem _ hother))
    · rw [List.mem_singleton.mp hnew]
      exact Or.inr rfl
  · rcases List.mem_cons.mp (waiting.queue.mem_iff.mp hleastIn) with rfl | hrest
    · obtain rfl := Task.invoke.inj htask
      obtain ⟨hlate, hothers⟩ := waiting.sampler_due phase hperm hleast
      obtain ⟨htrace, hrequests, after, hafter⟩ :=
        waiting.sampler_turn env invariant.recorded hlate hothers (Except.ok.inj hhandle)
      refine ⟨?_, Or.inr (Or.inr ⟨after, hafter⟩)⟩
      rw [scheduleAll_eq]
      dsimp only
      rw [htrace, hrequests]
      exact invariant.recorded
    · rcases List.mem_cons.mp hrest with rfl | hstop
      · obtain rfl := Task.invoke.inj htask
        obtain ⟨hcaught, hothers⟩ := waiting.bridge_due phase hperm hleast
        exact waiting.bridge_turn env phase invariant.recorded hcaught hothers rfl hhandle
      · rw [waiting.stops least hstop] at htask
        cases htask

/--
In every run of the closed loop, for any traffic, scenes, loads and response
texts, each bridge step inside the evaluation window pushes one new sample, and
the histories and input vectors of all requests are aligned.
-/
theorem closedLoop_aligned (stod : Text → Except StodError ℚ) (config : LoopConfig)
    (env : Environment) (sim : Simulator ℚ LoopEvent LoopWorld)
    (hreaches : Reaches (loopHandler stod config env) (loopStart config) sim) :
    Aligned config sim.world := by
  obtain ⟨c, phase⟩ := exists_phase config
  have invariant := hreaches.invariant (LoopInvariant config c) (loopStart_invariant phase)
    fun _ _ current hturn => current.turn phase hturn
  exact invariant.recorded.aligned

end Runs

/-! ## Two runs -/

/-- A configuration without warm-up or core filter; the evaluation lasts until `cooldownS` before
the end. -/
def plainLoop (cooldownS simTimeSeconds : ℚ) (cooldown_nonneg : 0 ≤ cooldownS)
    (evaluation_nonempty : 0 + cooldownS < simTimeSeconds) : LoopConfig where
  nodes := []
  awarenessRangeM := 300
  core := ⟨false, .x, 0, 0⟩
  warmupS := 0
  cooldownS := cooldownS
  simTimeSeconds := simTimeSeconds
  fixedBeaconIntervalS := 1 / 10
  minTxPowerDbm := 10
  maxTxPowerDbm := 23
  txPower := 23
  warmup_nonneg := le_refl 0
  cooldown_nonneg := cooldown_nonneg
  evaluation_nonempty := evaluation_nonempty
  beacon_fixed := by norm_num
  bounds_ordered := by norm_num
  txPower_low := by norm_num
  txPower_high := by norm_num

/-- Nothing is logged and every response asks for 15 dBm. -/
def quietEnvironment : Environment where
  traffic _ := []
  scene _ := ⟨true, fun _ => none, fun _ => none, fun _ => none, fun _ => ⟨0, 0⟩⟩
  cbr _ := 0
  response _ := "\x7b\"success\": true, \"tx_power_dbm\": 15\x7d".toList

/-- Eleven seconds with two requests. -/
def elevenSeconds : LoopConfig := plainLoop 0 11 (le_refl 0) (by norm_num)

theorem closedLoop_aligned_twoRequests :
    ∃ sim, Reaches (loopHandler stod elevenSeconds quietEnvironment) (loopStart elevenSeconds) sim ∧
      sim.world.requests.length = 2 ∧ Aligned elevenSeconds sim.world := by
  have hrun : ((runTurns (loopHandler stod elevenSeconds quietEnvironment) 42
      (loopStart elevenSeconds)).map fun sim => sim.world.requests.length) = some 2 := by
    decide +kernel
  obtain ⟨sim, hsim, hlength⟩ := Option.map_eq_some_iff.mp hrun
  have hreaches := reaches_of_runTurns hsim
  exact ⟨sim, hreaches, hlength,
    closedLoop_aligned stod elevenSeconds quietEnvironment sim hreaches⟩

/-- An evaluation of 0.4 s that ends before the first bridge step. -/
def shortEvaluation : LoopConfig := plainLoop (1 / 5) (3 / 5) (by norm_num) (by norm_num)

/-- The guard at the evaluation end makes a bridge step return without a sample. -/
theorem bridgeStep_pushes_fails :
    ¬ ∀ (config : LoopConfig) (env : Environment) (sim : Simulator ℚ LoopEvent LoopWorld),
      Reaches (loopHandler stod config env) (loopStart config) sim →
        ∀ record ∈ sim.world.trace, ∃ sample, record.pushed = some sample := by
  intro hall
  have hrun : ((runTurns (loopHandler stod shortEvaluation quietEnvironment) 2
      (loopStart shortEvaluation)).map fun sim => sim.world.trace) =
        some [⟨500001 / 1000000, none⟩] := by
    decide +kernel
  obtain ⟨sim, hsim, htrace⟩ := Option.map_eq_some_iff.mp hrun
  obtain ⟨sample, hpushed⟩ := hall shortEvaluation quietEnvironment sim (reaches_of_runTurns hsim)
    ⟨500001 / 1000000, none⟩ (htrace ▸ List.mem_singleton_self _)
  cases hpushed

end DeepcV2x.Bridge
