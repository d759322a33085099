import DeepcV2x.Cbr.Logger
import Mathlib

/-!
# The channel busy ratio as a measure

The ratio is defined over all intervals a run ever recorded: the Lebesgue
measure of their union inside the window, averaged over the contexts of a node
and over the evaluated nodes.  Pruning keeps every interval that can still
matter, so each computed ratio agrees with the definition.
-/

namespace DeepcV2x.Cbr

open DeepcV2x.Foundation DeepcV2x.Foundation.Strings DeepcV2x.Foundation.IntervalUnion
open DeepcV2x.Foundation.Association (Table)
open DeepcV2x.Pool (NodeId)
open MeasureTheory

variable (config : CbrConfig)

/-! ## Definition over the history -/

/-- The context and interval an event records, if it is accepted. -/
def recordOf (event : CbrEvent) : Option (Text × Interval) :=
  match event.call with
  | .recordChannelOccupied context durationS =>
      (CbrLogger.occupiedInterval config event.filter context event.now durationS).map
        fun interval => (context, interval)
  | _ => none

/-- Everything a history recorded. -/
def records (history : List CbrEvent) : List (Text × Interval) :=
  history.filterMap (recordOf config)

/-- All intervals ever recorded for a context. -/
def recordedIntervals (history : List CbrEvent) (context : Text) : List Interval :=
  ((records config history).filter fun record => record.1 = context).map Prod.snd

/-- The recorded contexts of a node. -/
def contextsOf (history : List CbrEvent) (nodeId : NodeId) : Finset Text :=
  ((records config history).map Prod.fst).toFinset.filter fun context =>
    tryParseNodeId context = some nodeId

/-- Share of the window the recorded intervals of a context cover. -/
noncomputable def busyShare (now : ℚ) (history : List CbrEvent) (context : Text) : ℝ :=
  volume.real (coverage (recordedIntervals config history context) ∩
    Set.Icc ((now - config.windowS : ℚ) : ℝ) (now : ℝ)) / (config.windowS : ℝ)

/-- Mean share over the contexts of a node, 0 for a node without any. -/
noncomputable def nodeShare (now : ℚ) (history : List CbrEvent) (nodeId : NodeId) : ℝ :=
  (∑ context ∈ contextsOf config history nodeId, busyShare config now history context) /
    ((contextsOf config history nodeId).card : ℝ)

/-- The evaluated nodes that pass the filter. -/
def countedNodes (filter : NodeFilter) : Finset NodeId :=
  config.evaluatedNodeIds.filter fun nodeId => filter.passes nodeId

/-- Mean over the counted nodes, 0 when there is none. -/
noncomputable def channelBusyRatio (filter : NodeFilter) (now : ℚ) (history : List CbrEvent) : ℝ :=
  (∑ nodeId ∈ countedNodes config filter, nodeShare config now history nodeId) /
    ((countedNodes config filter).card : ℝ)

/-- Every node with a recorded context is evaluated. -/
def RecordedEvaluated (history : List CbrEvent) : Prop :=
  ∀ record ∈ records config history, ∀ nodeId, tryParseNodeId record.1 = some nodeId →
    nodeId ∈ config.evaluatedNodeIds

variable {config}

theorem records_snoc (history : List CbrEvent) (event : CbrEvent) :
    records config (history ++ [event]) =
      records config history ++ (recordOf config event).toList := by
  simp only [records, List.filterMap_append, List.filterMap_cons, List.filterMap_nil]
  cases recordOf config event <;> rfl

theorem recordedIntervals_snoc (history : List CbrEvent) (event : CbrEvent) (context : Text) :
    recordedIntervals config (history ++ [event]) context =
      recordedIntervals config history context ++
        (((recordOf config event).toList.filter fun record => record.1 = context).map
          Prod.snd) := by
  simp [recordedIntervals, records_snoc]

theorem mem_contextsOf {history : List CbrEvent} {nodeId : NodeId} {context : Text} :
    context ∈ contextsOf config history nodeId ↔
      context ∈ (records config history).map Prod.fst ∧
        tryParseNodeId context = some nodeId := by
  rw [contextsOf, Finset.mem_filter, List.mem_toFinset]

/-! ## The invariant -/

/-- The table against the history at time `now`: it has the recorded contexts, and each deque
is what is left of the recorded intervals after some that ended before the window. -/
structure CbrInvariant (config : CbrConfig) (history : List CbrEvent) (now : ℚ)
    (logger : CbrLogger) : Prop where
  keysNodup : (Association.keys logger.busyIntervalsByContext).Nodup
  keys : ∀ context, context ∈ Association.keys logger.busyIntervalsByContext ↔
    context ∈ (records config history).map Prod.fst
  deques : ∀ context intervals,
    Association.lookup context logger.busyIntervalsByContext = some intervals →
      ∃ ended, recordedIntervals config history context = ended ++ intervals ∧
        ∀ interval ∈ ended, interval.endS < now - config.windowS

theorem cbrInvariant_initial (config : CbrConfig) :
    CbrInvariant config [] 0 CbrLogger.initial where
  keysNodup := List.nodup_nil
  keys context := Iff.rfl
  deques context intervals hfound := by cases hfound

theorem lookup_pruneIntervals (cutoff : ℚ) (context : Text) (table : Table Text (List Interval)) :
    Association.lookup context
        (table.map fun entry => (entry.1, CbrLogger.pruneIntervals cutoff entry.2)) =
      (Association.lookup context table).map (CbrLogger.pruneIntervals cutoff) := by
  induction table with
  | nil => rfl
  | cons entry rest ih =>
      by_cases here : entry.1 = context
      · simp [Association.lookup, here]
      · simpa [Association.lookup, here] using ih

namespace CbrInvariant

variable {history : List CbrEvent} {now : ℚ} {logger : CbrLogger}

/-- Time may pass between two calls. -/
theorem wait (inv : CbrInvariant config history now logger) {later : ℚ} (hle : now ≤ later) :
    CbrInvariant config history later logger where
  keysNodup := inv.keysNodup
  keys := inv.keys
  deques context intervals hfound := by
    obtain ⟨ended, hsplit, hended⟩ := inv.deques context intervals hfound
    exact ⟨ended, hsplit, fun interval hmem => by linarith [hended interval hmem]⟩

theorem prune (inv : CbrInvariant config history now logger) :
    CbrInvariant config history now (logger.prune config now) where
  keysNodup := by
    simpa [CbrLogger.prune, Association.keys, Function.comp_def] using inv.keysNodup
  keys context := by
    simpa [CbrLogger.prune, Association.keys, Function.comp_def] using inv.keys context
  deques context intervals hfound := by
    simp only [CbrLogger.prune, lookup_pruneIntervals, Option.map_eq_some_iff] at hfound
    obtain ⟨before, hbefore, rfl⟩ := hfound
    obtain ⟨ended, hsplit, hended⟩ := inv.deques context before hbefore
    refine ⟨ended ++ before.takeWhile
      fun interval => decide (interval.endS < now - config.windowS), ?_, ?_⟩
    · rw [hsplit, List.append_assoc, CbrLogger.pruneIntervals, List.takeWhile_append_dropWhile]
    · intro interval hmem
      rcases List.mem_append.mp hmem with hin | hin
      · exact hended interval hin
      · have hpopped := List.mem_takeWhile_imp hin
        rwa [decide_eq_true_eq] at hpopped

/-- An event that records nothing leaves the history as it was. -/
theorem extend (inv : CbrInvariant config history now logger) {event : CbrEvent}
    (hnone : recordOf config event = none) :
    CbrInvariant config (history ++ [event]) now logger where
  keysNodup := inv.keysNodup
  keys context := by
    rw [records_snoc, hnone]
    simpa using inv.keys context
  deques context intervals hfound := by
    rw [recordedIntervals_snoc, hnone]
    simpa using inv.deques context intervals hfound

/-- The sensing deques play no part in the invariant. -/
theorem of_table (inv : CbrInvariant config history now logger) {other : CbrLogger}
    (same : other.busyIntervalsByContext = logger.busyIntervalsByContext) :
    CbrInvariant config history now other := by
  constructor
  · rw [same]
    exact inv.keysNodup
  · rw [same]
    exact inv.keys
  · rw [same]
    exact inv.deques

/-- An accepted interval is appended to the deque of its context. -/
theorem append (inv : CbrInvariant config history now logger) {event : CbrEvent}
    {context : Text} {interval : Interval}
    (hrecord : recordOf config event = some (context, interval)) :
    CbrInvariant config (history ++ [event]) now
      { logger with
        busyIntervalsByContext := Association.upsert context
          (fun intervals => intervals.getD [] ++ [interval])
          logger.busyIntervalsByContext } where
  keysNodup := Association.keys_upsert_nodup _ _ inv.keysNodup
  keys other := by
    rw [Association.mem_keys_upsert, inv.keys, records_snoc, hrecord]
    simp [or_comm]
  deques other intervals hfound := by
    rw [Association.lookup_upsert] at hfound
    rw [recordedIntervals_snoc, hrecord]
    by_cases same : other = context
    · subst same
      rw [if_pos rfl] at hfound
      rw [← Option.some.inj hfound]
      cases hbefore : Association.lookup other logger.busyIntervalsByContext with
      | none =>
          have hfresh : recordedIntervals config history other = [] := by
            have hnot : other ∉ (records config history).map Prod.fst := by
              rw [← inv.keys, ← Association.lookup_isSome_iff, hbefore]
              simp
            rw [recordedIntervals, List.map_eq_nil_iff, List.filter_eq_nil_iff]
            intro record hmem hkey
            exact hnot (List.mem_map.mpr ⟨record, hmem, by simpa using hkey⟩)
          exact ⟨[], by simp [hfresh], by simp⟩
      | some before =>
          obtain ⟨ended, hsplit, hended⟩ := inv.deques other before hbefore
          exact ⟨ended, by simp [hsplit], hended⟩
    · rw [if_neg same] at hfound
      obtain ⟨ended, hsplit, hended⟩ := inv.deques other intervals hfound
      exact ⟨ended, by simp [hsplit, Ne.symm same], hended⟩

/-! ## The calls -/

theorem recordChannelOccupied (inv : CbrInvariant config history now logger) {event : CbrEvent}
    (hnow : event.now = now) {context : Text} {durationS : ℚ}
    (hcall : event.call = .recordChannelOccupied context durationS) :
    CbrInvariant config (history ++ [event]) now
      (logger.recordChannelOccupied config event.filter context now durationS) := by
  have hrecord : recordOf config event =
      (CbrLogger.occupiedInterval config event.filter context now durationS).map
        fun interval => (context, interval) := by
    simp only [recordOf, hcall, hnow]
  unfold CbrLogger.recordChannelOccupied
  cases hinterval : CbrLogger.occupiedInterval config event.filter context now durationS with
  | none =>
      rw [hinterval] at hrecord
      exact inv.extend hrecord
  | some interval =>
      rw [hinterval] at hrecord
      exact (inv.append hrecord).prune

theorem recordResourceObservation (inv : CbrInvariant config history now logger)
    (busyResources totalResources : Nat) :
    CbrInvariant config history now
      (logger.recordResourceObservation config now busyResources totalResources) := by
  unfold CbrLogger.recordResourceObservation
  split
  · exact inv
  split
  · exact inv
  · exact CbrInvariant.prune (inv.of_table rfl)

theorem recordSensingAlgorithm (inv : CbrInvariant config history now logger)
    (filter : NodeFilter) (context : Text) (initialSize candidates : Nat) :
    CbrInvariant config history now
      (logger.recordSensingAlgorithm config filter context initialSize candidates now) := by
  unfold CbrLogger.recordSensingAlgorithm
  split
  · exact inv
  split
  · exact inv
  · exact inv.recordResourceObservation _ _

theorem recordObservation (inv : CbrInvariant config history now logger) (busy : Bool) :
    CbrInvariant config history now (logger.recordObservation config now busy) := by
  unfold CbrLogger.recordObservation
  split
  · exact inv
  · exact CbrInvariant.prune (inv.of_table rfl)

theorem computeSensingExclusionRatio (inv : CbrInvariant config history now logger) :
    CbrInvariant config history now (logger.computeSensingExclusionRatio config now).1 := by
  cases hratio : (logger.prune config now).computeSensingCbr config now with
  | none =>
      simp only [CbrLogger.computeSensingExclusionRatio, hratio]
      exact inv.prune
  | some ratio =>
      simp only [CbrLogger.computeSensingExclusionRatio, hratio]
      exact inv.prune

/-- One call of a run preserves the invariant. -/
theorem step {state next : CbrState} {event : CbrEvent}
    (inv : CbrInvariant config history state.now state.logger)
    (hstep : cbrStep config state event = some next) :
    CbrInvariant config (history ++ [event]) next.now next.logger := by
  obtain ⟨hle, rfl⟩ := cbrStep_some hstep
  have waited := inv.wait hle
  cases hcall : event.call with
  | recordObservation busy =>
      simp only [callLogger, hcall]
      exact (waited.recordObservation busy).extend (by simp only [recordOf, hcall])
  | recordResourceObservation busyResources totalResources =>
      simp only [callLogger, hcall]
      exact (waited.recordResourceObservation busyResources totalResources).extend
        (by simp only [recordOf, hcall])
  | recordSensingAlgorithm context initialSize candidates =>
      simp only [callLogger, hcall]
      exact (waited.recordSensingAlgorithm event.filter context initialSize candidates).extend
        (by simp only [recordOf, hcall])
  | recordChannelOccupied context durationS =>
      simp only [callLogger, hcall]
      exact waited.recordChannelOccupied rfl hcall
  | computeCbr =>
      simp only [callLogger, hcall]
      exact waited.prune.extend (by simp only [recordOf, hcall])
  | computeSensingExclusionRatio =>
      simp only [callLogger, hcall]
      exact waited.computeSensingExclusionRatio.extend (by simp only [recordOf, hcall])

end CbrInvariant

/-- The invariant holds along every run. -/
theorem cbrRun_invariant {history : List CbrEvent} {state : CbrState}
    (hrun : Runs.runFrom (cbrStep config) CbrState.initial history = some state) :
    CbrInvariant config history state.now state.logger :=
  Runs.history_invariant (cbrStep config)
    (fun past current => CbrInvariant config past current.now current.logger)
    (fun _ _ _ _ inv hstep => inv.step hstep) [] (cbrInvariant_initial config) hrun

/-! ## One context -/

/-- A deque yields the share of all intervals ever recorded for its context. -/
theorem CbrInvariant.busyFraction_eq {history : List CbrEvent} {now : ℚ} {logger : CbrLogger}
    (inv : CbrInvariant config history now logger) {context : Text} {intervals : List Interval}
    (hfound : Association.lookup context logger.busyIntervalsByContext = some intervals) :
    ((CbrLogger.computeBusyFractionForContext config intervals now : ℚ) : ℝ) =
      busyShare config now history context := by
  obtain ⟨ended, hsplit, hended⟩ := inv.deques context intervals hfound
  have hle : coveredLength (now - config.windowS) now intervals / config.windowS ≤ 1 := by
    rcases le_or_gt config.windowS 0 with hnone | hpos
    · rw [coveredLength_of_le (by linarith), zero_div]
      exact zero_le_one
    · rw [div_le_one hpos]
      have hbound := @coveredLength_le (now - config.windowS) now (by linarith) intervals
      linarith
  rw [CbrLogger.computeBusyFractionForContext, min_eq_right hle, busyShare, hsplit,
    coverage_append_of_ended hended, ← coveredLength_eq]
  push_cast
  rfl

theorem busyShare_bounds (config : CbrConfig) (now : ℚ) (history : List CbrEvent)
    (context : Text) :
    0 ≤ busyShare config now history context ∧ busyShare config now history context ≤ 1 := by
  set intervals := recordedIntervals config history context
  have hcovered := coveredLength_eq (now - config.windowS) now intervals
  rw [busyShare, ← hcovered]
  rcases le_or_gt config.windowS 0 with hnone | hpos
  · rw [coveredLength_of_le (by linarith)]
    simp
  · have hposReal : (0 : ℝ) < config.windowS := by exact_mod_cast hpos
    have hnonneg := coveredLength_nonneg (now - config.windowS) now intervals
    have hbound := @coveredLength_le (now - config.windowS) now (by linarith) intervals
    have hwindow : coveredLength (now - config.windowS) now intervals ≤ config.windowS := by
      linarith
    constructor
    · exact div_nonneg (by exact_mod_cast hnonneg) hposReal.le
    · rw [div_le_one hposReal]
      exact_mod_cast hwindow

/-! ## The two means -/

/-- A mean of values between 0 and 1 is between 0 and 1. -/
theorem mean_bounds {Index : Type*} (indices : Finset Index) (value : Index → ℝ)
    (hvalue : ∀ index ∈ indices, 0 ≤ value index ∧ value index ≤ 1) :
    0 ≤ (∑ index ∈ indices, value index) / (indices.card : ℝ) ∧
      (∑ index ∈ indices, value index) / (indices.card : ℝ) ≤ 1 := by
  constructor
  · exact div_nonneg (Finset.sum_nonneg fun index hmem => (hvalue index hmem).1)
      (Nat.cast_nonneg _)
  · refine div_le_one_of_le₀ ?_ (Nat.cast_nonneg _)
    calc ∑ index ∈ indices, value index
        ≤ indices.card • (1 : ℝ) :=
          Finset.sum_le_card_nsmul _ _ _ fun index hmem => (hvalue index hmem).2
      _ = (indices.card : ℝ) := by simp

theorem channelBusyRatio_bounds (config : CbrConfig) (filter : NodeFilter) (now : ℚ)
    (history : List CbrEvent) :
    0 ≤ channelBusyRatio config filter now history ∧
      channelBusyRatio config filter now history ≤ 1 :=
  mean_bounds _ _ fun _ _ => mean_bounds _ _ fun context _ =>
    busyShare_bounds config now history context

/-- The entries of the table that belong to a node. -/
def matching (entries : Table Text (List Interval)) (nodeId : NodeId) :
    Table Text (List Interval) :=
  entries.filter fun entry => tryParseNodeId entry.1 = some nodeId

theorem addContext_of_none {filter : NodeFilter} {now : ℚ} {byNode : Table NodeId (ℚ × Nat)}
    {entry : Text × List Interval} (hparse : tryParseNodeId entry.1 = none) :
    CbrLogger.addContext config filter now byNode entry = byNode := by
  simp only [CbrLogger.addContext, hparse]

/-- What the loop over the contexts has gathered for a node. -/
theorem lookup_foldl_addContext (filter : NodeFilter) (now : ℚ)
    (entries : Table Text (List Interval)) (byNode : Table NodeId (ℚ × Nat)) (nodeId : NodeId) :
    Association.lookup nodeId
        (entries.foldl (CbrLogger.addContext config filter now) byNode) =
      if filter.passes nodeId ∧ matching entries nodeId ≠ [] then
        some (((Association.lookup nodeId byNode).getD (0, 0)).1 +
            ((matching entries nodeId).map fun entry =>
              CbrLogger.computeBusyFractionForContext config entry.2 now).sum,
          ((Association.lookup nodeId byNode).getD (0, 0)).2 + (matching entries nodeId).length)
      else Association.lookup nodeId byNode := by
  induction entries generalizing byNode with
  | nil => simp [matching]
  | cons entry rest ih =>
      rw [List.foldl_cons, ih]
      by_cases hpasses : filter.passes nodeId
      · by_cases hparse : tryParseNodeId entry.1 = some nodeId
        · have hcons : matching (entry :: rest) nodeId = entry :: matching rest nodeId := by
            simp [matching, hparse]
          have hadded : Association.lookup nodeId
              (CbrLogger.addContext config filter now byNode entry) =
                some (((Association.lookup nodeId byNode).getD (0, 0)).1 +
                    CbrLogger.computeBusyFractionForContext config entry.2 now,
                  ((Association.lookup nodeId byNode).getD (0, 0)).2 + 1) := by
            simp [CbrLogger.addContext, hparse, hpasses, Association.lookup_upsert]
          rw [hcons, hadded]
          by_cases hrest : matching rest nodeId = []
          · simp [hpasses, hrest]
          · simp [hpasses, hrest, add_assoc, Nat.add_comm]
        · have hcons : matching (entry :: rest) nodeId = matching rest nodeId := by
            simp [matching, hparse]
          have hadded : Association.lookup nodeId
              (CbrLogger.addContext config filter now byNode entry) =
                Association.lookup nodeId byNode := by
            cases hother : tryParseNodeId entry.1 with
            | none => rw [addContext_of_none hother]
            | some other =>
                have hne : nodeId ≠ other := by
                  rintro rfl
                  exact hparse hother
                by_cases hotherPasses : filter.passes other
                · simp [CbrLogger.addContext, hother, hotherPasses,
                    Association.lookup_upsert, hne]
                · simp [CbrLogger.addContext, hother, hotherPasses]
          rw [hcons, hadded]
      · have hadded : Association.lookup nodeId
            (CbrLogger.addContext config filter now byNode entry) =
              Association.lookup nodeId byNode := by
          cases hother : tryParseNodeId entry.1 with
          | none => rw [addContext_of_none hother]
          | some other =>
              by_cases hotherPasses : filter.passes other
              · have hne : nodeId ≠ other := by
                  rintro rfl
                  exact hpasses hotherPasses
                simp [CbrLogger.addContext, hother, hotherPasses,
                  Association.lookup_upsert, hne]
              · simp [CbrLogger.addContext, hother, hotherPasses]
        simp [hpasses, hadded]

theorem foldl_addContext_nodup (filter : NodeFilter) (now : ℚ)
    (entries : Table Text (List Interval)) {byNode : Table NodeId (ℚ × Nat)}
    (hnodup : (Association.keys byNode).Nodup) :
    (Association.keys
      (entries.foldl (CbrLogger.addContext config filter now) byNode)).Nodup := by
  induction entries generalizing byNode with
  | nil => exact hnodup
  | cons entry rest ih =>
      apply ih
      unfold CbrLogger.addContext
      split
      · exact hnodup
      split
      · exact hnodup
      · exact Association.keys_upsert_nodup _ _ hnodup

namespace CbrInvariant

variable {history : List CbrEvent} {now : ℚ} {logger : CbrLogger}

/-- The table's entries of a node are its recorded contexts. -/
theorem matching_contexts (inv : CbrInvariant config history now logger) (nodeId : NodeId) :
    ((matching logger.busyIntervalsByContext nodeId).map Prod.fst).toFinset =
        contextsOf config history nodeId ∧
      ((matching logger.busyIntervalsByContext nodeId).map Prod.fst).Nodup := by
  constructor
  · ext context
    rw [mem_contextsOf, ← inv.keys]
    simp only [matching, Association.keys, List.mem_toFinset, List.mem_map, List.mem_filter,
      decide_eq_true_eq]
    constructor
    · rintro ⟨entry, ⟨hmem, hparse⟩, rfl⟩
      exact ⟨⟨entry, hmem, rfl⟩, hparse⟩
    · rintro ⟨⟨entry, hmem, rfl⟩, hparse⟩
      exact ⟨entry, ⟨hmem, hparse⟩, rfl⟩
  · exact inv.keysNodup.sublist (List.filter_sublist.map _)

/-- Sum and number of the fractions of a node are those of its recorded contexts. -/
theorem matching_share (inv : CbrInvariant config history now logger) (nodeId : NodeId) :
    ((((matching logger.busyIntervalsByContext nodeId).map fun entry =>
        CbrLogger.computeBusyFractionForContext config entry.2 now).sum : ℚ) : ℝ) /
        ((matching logger.busyIntervalsByContext nodeId).length : ℝ) =
      nodeShare config now history nodeId := by
  obtain ⟨hcontexts, hnodup⟩ := inv.matching_contexts nodeId
  have hsum : ((((matching logger.busyIntervalsByContext nodeId).map fun entry =>
      CbrLogger.computeBusyFractionForContext config entry.2 now).sum : ℚ) : ℝ) =
        ∑ context ∈ contextsOf config history nodeId, busyShare config now history context := by
    rw [← hcontexts, List.sum_toFinset _ hnodup, List.map_map]
    rw [← Rat.coe_castHom, map_list_sum, List.map_map]
    congr 1
    apply List.map_congr_left
    rintro ⟨context, intervals⟩ hmem
    refine inv.busyFraction_eq ?_
    rw [Association.lookup_eq_some_iff inv.keysNodup]
    exact (List.mem_filter.mp hmem).1
  have hcard : (matching logger.busyIntervalsByContext nodeId).length =
      (contextsOf config history nodeId).card := by
    rw [← hcontexts, List.toFinset_card_of_nodup hnodup, List.length_map]
  rw [hsum, hcard, nodeShare]

/-- What the loop has gathered for a node is its share. -/
theorem busyFractionByNode_share (inv : CbrInvariant config history now logger)
    (filter : NodeFilter) {nodeId : NodeId} {aggregate : ℚ × Nat}
    (hmem : (nodeId, aggregate) ∈ logger.busyFractionByNode config filter now) :
    0 < aggregate.2 ∧ filter.passes nodeId = true ∧ (contextsOf config history nodeId).Nonempty ∧
      ((aggregate.1 / (aggregate.2 : ℚ) : ℚ) : ℝ) = nodeShare config now history nodeId := by
  have hnodup := @foldl_addContext_nodup config filter now logger.busyIntervalsByContext []
    List.nodup_nil
  have hfound := (Association.lookup_eq_some_iff hnodup nodeId aggregate).mpr hmem
  rw [lookup_foldl_addContext] at hfound
  split at hfound
  next hlive =>
    obtain ⟨hpasses, hsome⟩ := hlive
    have hvalue : (0 + ((matching logger.busyIntervalsByContext nodeId).map fun entry =>
        CbrLogger.computeBusyFractionForContext config entry.2 now).sum,
          0 + (matching logger.busyIntervalsByContext nodeId).length) = aggregate :=
      Option.some.inj hfound
    rw [zero_add, Nat.zero_add] at hvalue
    rw [← hvalue]
    have hlength : 0 < (matching logger.busyIntervalsByContext nodeId).length :=
      List.length_pos_iff.mpr hsome
    refine ⟨hlength, hpasses, ?_, ?_⟩
    · rw [← (inv.matching_contexts nodeId).1]
      obtain ⟨entry, hentry⟩ := List.exists_mem_of_ne_nil _ hsome
      exact ⟨entry.1, List.mem_toFinset.mpr (List.mem_map.mpr ⟨entry, hentry, rfl⟩)⟩
    · rw [← inv.matching_share nodeId]
      push_cast
      rfl
  next => cases hfound

/-- A counted node that the loop has nothing for has no recorded context. -/
theorem nodeShare_of_missing (inv : CbrInvariant config history now logger)
    (filter : NodeFilter) {nodeId : NodeId} (hpasses : filter.passes nodeId = true)
    (hmissing : nodeId ∉ Association.keys (logger.busyFractionByNode config filter now)) :
    nodeShare config now history nodeId = 0 := by
  have hnone : matching logger.busyIntervalsByContext nodeId = [] := by
    by_contra hsome
    apply hmissing
    rw [← Association.lookup_isSome_iff, CbrLogger.busyFractionByNode, lookup_foldl_addContext,
      if_pos ⟨hpasses, hsome⟩]
    rfl
  rw [← inv.matching_share nodeId, hnone]
  simp

/-- The sum over the gathered nodes is the sum over all counted nodes. -/
theorem cbrSum_eq (inv : CbrInvariant config history now logger) (filter : NodeFilter)
    (hevaluated : RecordedEvaluated config history) :
    (((logger.busyFractionByNode config filter now).map fun entry =>
        if 0 < entry.2.2 then entry.2.1 / (entry.2.2 : ℚ) else 0).sum : ℚ) =
      ∑ nodeId ∈ countedNodes config filter, nodeShare config now history nodeId := by
  set byNode := logger.busyFractionByNode config filter now
  have hnodup : (Association.keys byNode).Nodup :=
    foldl_addContext_nodup filter now logger.busyIntervalsByContext List.nodup_nil
  have hsubset : (Association.keys byNode).toFinset ⊆ countedNodes config filter := by
    intro nodeId hmem
    obtain ⟨entry, hentry, rfl⟩ := List.mem_map.mp (List.mem_toFinset.mp hmem)
    obtain ⟨-, hpasses, ⟨context, hcontext⟩, -⟩ := inv.busyFractionByNode_share filter hentry
    obtain ⟨hrecorded, hparse⟩ := mem_contextsOf.mp hcontext
    obtain ⟨record, hrecord, rfl⟩ := List.mem_map.mp hrecorded
    exact Finset.mem_filter.mpr ⟨hevaluated record hrecord entry.1 hparse, hpasses⟩
  calc (((byNode.map fun entry =>
        if 0 < entry.2.2 then entry.2.1 / (entry.2.2 : ℚ) else 0).sum : ℚ) : ℝ)
      = (byNode.map fun entry => nodeShare config now history entry.1).sum := by
        rw [← Rat.coe_castHom, map_list_sum, List.map_map]
        congr 1
        apply List.map_congr_left
        intro entry hmem
        obtain ⟨hpos, -, -, hshare⟩ := inv.busyFractionByNode_share filter hmem
        simp only [Function.comp_apply, if_pos hpos]
        exact hshare
    _ = ∑ nodeId ∈ (Association.keys byNode).toFinset, nodeShare config now history nodeId := by
        rw [List.sum_toFinset _ hnodup, Association.keys, List.map_map]
        rfl
    _ = ∑ nodeId ∈ countedNodes config filter, nodeShare config now history nodeId := by
        apply Finset.sum_subset hsubset
        intro nodeId hcounted hmissing
        refine inv.nodeShare_of_missing filter (Finset.mem_filter.mp hcounted).2 ?_
        rwa [List.mem_toFinset] at hmissing

/-- The ratio computed from the table is the ratio defined over the history. -/
theorem computeChannelOccupiedCbr_eq (inv : CbrInvariant config history now logger)
    (filter : NodeFilter) (hevaluated : RecordedEvaluated config history) :
    ((logger.computeChannelOccupiedCbr config filter now : ℚ) : ℝ) =
      channelBusyRatio config filter now history := by
  have hsum := inv.cbrSum_eq filter hevaluated
  rw [channelBusyRatio, ← hsum]
  unfold CbrLogger.computeChannelOccupiedCbr
  simp only
  split
  · split
    next => rw [Rat.cast_div, Rat.cast_natCast, countedNodes]
    next hnone =>
      rw [countedNodes, Nat.eq_zero_of_not_pos hnone]
      simp
  next hempty =>
    have hcounted : countedNodes config filter = ∅ := by
      rw [Finset.not_nonempty_iff_eq_empty] at hempty
      rw [countedNodes, hempty, Finset.filter_empty]
    rw [hcounted, Finset.sum_empty] at hsum
    rw [hcounted, Finset.card_empty]
    split
    · simp
    · rw [Rat.cast_div, hsum]
      simp

end CbrInvariant

/-! ## Whole runs -/

/--
Every ratio of a run whose recorded nodes are evaluated is the mean, over the evaluated
nodes that pass the filter, of the mean share of the window their contexts' recorded
intervals cover, and lies between 0 and 1.
-/
theorem computeCbr_measure (config : CbrConfig) (history : List CbrEvent) (state : CbrState)
    (event : CbrEvent) (next : CbrState)
    (hrun : Runs.runFrom (cbrStep config) CbrState.initial history = some state)
    (hstep : cbrStep config state event = some next) (hcall : event.call = .computeCbr)
    (hevaluated : RecordedEvaluated config history) :
    ∃ cbr : ℚ, next.returned = state.returned ++ [cbr] ∧
      (cbr : ℝ) = channelBusyRatio config event.filter event.now history ∧
      0 ≤ cbr ∧ cbr ≤ 1 := by
  obtain ⟨hle, rfl⟩ := cbrStep_some hstep
  have inv := ((cbrRun_invariant hrun).wait hle).prune
  have hratio := inv.computeChannelOccupiedCbr_eq event.filter hevaluated
  obtain ⟨hlow, hhigh⟩ := channelBusyRatio_bounds config event.filter event.now history
  rw [← hratio] at hlow hhigh
  have hnonneg : 0 ≤ (state.logger.prune config event.now).computeChannelOccupiedCbr config
      event.filter event.now := by exact_mod_cast hlow
  have hone : (state.logger.prune config event.now).computeChannelOccupiedCbr config
      event.filter event.now ≤ 1 := by exact_mod_cast hhigh
  refine ⟨(state.logger.computeCbr config event.filter event.now).2, ?_, ?_, ?_, ?_⟩
  · simp only [callLogger, hcall, Option.toList_some]
  · rw [← hratio, CbrLogger.computeCbr, max_eq_right hnonneg, min_eq_right hone]
  · exact le_min zero_le_one (le_max_left _ _)
  · exact min_le_left _ _

/-- One evaluated node and a window of one second. -/
def singleNodeConfig : CbrConfig := ⟨1, 0, -1, {3}⟩

/-- Two overlapping busy times on one context, the first one partly out of the window. -/
def overlapHistory : List CbrEvent :=
  [⟨0, none, .recordChannelOccupied "/NodeList/3/Phy".toList (3 / 2)⟩,
    ⟨1, none, .recordChannelOccupied "/NodeList/3/Phy".toList (3 / 4)⟩,
    ⟨3 / 2, none, .computeCbr⟩]

theorem computeCbr_measure_overlap :
    ∃ (state next : CbrState) (cbr : ℚ),
      Runs.runFrom (cbrStep singleNodeConfig) CbrState.initial overlapHistory = some state ∧
      next.returned = state.returned ++ [cbr] ∧
      (cbr : ℝ) = channelBusyRatio singleNodeConfig none 2 overlapHistory := by
  set event : CbrEvent := ⟨2, none, .computeCbr⟩
  have hsome : ((Runs.runFrom (cbrStep singleNodeConfig) CbrState.initial overlapHistory).bind
      fun state => cbrStep singleNodeConfig state event).isSome = true := by
    decide +kernel
  obtain ⟨next, hnext⟩ := Option.isSome_iff_exists.mp hsome
  obtain ⟨state, hrun, hstep⟩ := Option.bind_eq_some_iff.mp hnext
  have hrecords : records singleNodeConfig overlapHistory =
      [("/NodeList/3/Phy".toList, ⟨0, 3 / 2⟩), ("/NodeList/3/Phy".toList, ⟨1, 7 / 4⟩)] := by
    decide +kernel
  have hevaluated : RecordedEvaluated singleNodeConfig overlapHistory := by
    intro record hmem nodeId hparse
    have hnode : tryParseNodeId "/NodeList/3/Phy".toList = some 3 := by decide +kernel
    rw [hrecords] at hmem
    rcases List.mem_pair.mp hmem with rfl | rfl
    · rw [Option.some.inj (hparse.symm.trans hnode)]
      exact Finset.mem_singleton.mpr rfl
    · rw [Option.some.inj (hparse.symm.trans hnode)]
      exact Finset.mem_singleton.mpr rfl
  obtain ⟨cbr, hreturned, hratio, -⟩ := computeCbr_measure singleNodeConfig overlapHistory state
    event next hrun hstep rfl hevaluated
  exact ⟨state, next, cbr, hrun, hreturned, hratio⟩

end DeepcV2x.Cbr
