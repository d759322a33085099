import DeepcV2x.Foundation.Association
import DeepcV2x.Foundation.IntervalUnion
import DeepcV2x.Foundation.Runs
import DeepcV2x.Foundation.Strings
import DeepcV2x.Pool.Mobility
import Mathlib.Algebra.BigOperators.Group.List.Basic

/-!
# The CBR logger

Busy intervals per trace context and the two sensing deques, all pruned from
the front, and the channel busy ratio computed from what is left.  The node
filter reads simulator globals, so a call comes with the filter as it answers
at that moment.
-/

namespace DeepcV2x.Cbr

open DeepcV2x.Foundation DeepcV2x.Foundation.Strings DeepcV2x.Foundation.IntervalUnion
open DeepcV2x.Foundation.Association (Table)
open DeepcV2x.Pool (NodeId)

/-- `m_nodeEvaluationFilter` at the time of a call; `none` when no filter is set. -/
abbrev NodeFilter := Option (NodeId → Bool)

def NodeFilter.passes (filter : NodeFilter) (nodeId : NodeId) : Bool :=
  match filter with
  | none => true
  | some accepts => accepts nodeId

structure CbrConfig where
  windowS : ℚ
  evalStartS : ℚ
  evalEndS : ℚ
  evaluatedNodeIds : Finset NodeId

structure Obs where
  time : ℚ
  busy : Bool
  deriving DecidableEq, Repr

structure ResourceObs where
  time : ℚ
  busy : Nat
  total : Nat
  deriving DecidableEq, Repr

structure CbrLogger where
  obs : List Obs
  resourceObs : List ResourceObs
  busyIntervalsByContext : Table Text (List Interval)

/-! ## Contexts -/

def nodeListMarker : Text := "/NodeList/".toList

/-- The node id in a trace path; the text between the marker and the next slash must be one
number. -/
def tryParseNodeId (context : Text) : Option NodeId :=
  match afterFirst nodeListMarker context with
  | none => none
  | some rest =>
      let idText := rest.takeWhile (· ≠ '/')
      match strtoul idText with
      | none => none
      | some (parsed, unread) =>
          if unread = [] ∨ unread.head? = some '\x00' then some (UInt32.ofNat parsed) else none

namespace CbrConfig

/-- A negative evaluation end means no end. -/
def isInsideEvaluationWindow (config : CbrConfig) (timeS : ℚ) : Bool :=
  decide (config.evalStartS ≤ timeS) &&
    (decide (config.evalEndS < 0) || decide (timeS ≤ config.evalEndS))

def shouldRecordContext (config : CbrConfig) (filter : NodeFilter) (context : Text)
    (timeS : ℚ) : Bool :=
  if !config.isInsideEvaluationWindow timeS then false
  else
    match filter with
    | none => true
    | some accepts =>
        match tryParseNodeId context with
        | none => false
        | some nodeId => accepts nodeId

end CbrConfig

namespace CbrLogger

def initial : CbrLogger := ⟨[], [], []⟩

/-! ## Recording -/

/-- Drop the intervals at the front that ended before the window. -/
def pruneIntervals (cutoff : ℚ) (intervals : List Interval) : List Interval :=
  intervals.dropWhile fun interval => decide (interval.endS < cutoff)

def prune (config : CbrConfig) (now : ℚ) (logger : CbrLogger) : CbrLogger :=
  let cutoff := now - config.windowS
  { obs := logger.obs.dropWhile fun o => decide (o.time < cutoff)
    resourceObs := logger.resourceObs.dropWhile fun o => decide (o.time < cutoff)
    busyIntervalsByContext := logger.busyIntervalsByContext.map fun entry =>
      (entry.1, pruneIntervals cutoff entry.2) }

def recordObservation (config : CbrConfig) (timeS : ℚ) (busy : Bool) (logger : CbrLogger) :
    CbrLogger :=
  if !config.isInsideEvaluationWindow timeS then logger
  else
    let observed : Obs := ⟨timeS, busy⟩
    { logger with obs := logger.obs ++ [observed] }.prune config timeS

def recordResourceObservation (config : CbrConfig) (timeS : ℚ)
    (busyResources totalResources : Nat) (logger : CbrLogger) : CbrLogger :=
  if !config.isInsideEvaluationWindow timeS then logger
  else if totalResources = 0 then logger
  else
    let observed : ResourceObs := ⟨timeS, min busyResources totalResources, totalResources⟩
    { logger with resourceObs := logger.resourceObs ++ [observed] }.prune config timeS

/-- Only the number of candidates of the sensing report matters. -/
def recordSensingAlgorithm (config : CbrConfig) (filter : NodeFilter) (context : Text)
    (initialCandidateResourcesSize candidateResources : Nat) (now : ℚ) (logger : CbrLogger) :
    CbrLogger :=
  if !config.shouldRecordContext filter context now then logger
  else if initialCandidateResourcesSize = 0 then logger
  else
    let available := min candidateResources initialCandidateResourcesSize
    logger.recordResourceObservation config now (initialCandidateResourcesSize - available)
      initialCandidateResourcesSize

/-- The interval a call records, if it is accepted. -/
def occupiedInterval (config : CbrConfig) (filter : NodeFilter) (context : Text) (now : ℚ)
    (durationS : ℚ) : Option Interval :=
  if !config.shouldRecordContext filter context now then none
  else if durationS ≤ 0 then none
  else some ⟨now, now + durationS⟩

def recordChannelOccupied (config : CbrConfig) (filter : NodeFilter) (context : Text)
    (now durationS : ℚ) (logger : CbrLogger) : CbrLogger :=
  match occupiedInterval config filter context now durationS with
  | none => logger
  | some interval =>
      { logger with
        busyIntervalsByContext := Association.upsert context
          (fun intervals => intervals.getD [] ++ [interval])
          logger.busyIntervalsByContext }.prune config now

/-! ## Computing -/

def computeBusyFractionForContext (config : CbrConfig) (intervals : List Interval) (now : ℚ) : ℚ :=
  min 1 (coveredLength (now - config.windowS) now intervals / config.windowS)

/-- One turn of the loop over the contexts: sum and number of the fractions of a node. -/
def addContext (config : CbrConfig) (filter : NodeFilter) (now : ℚ)
    (byNode : Table NodeId (ℚ × Nat)) (entry : Text × List Interval) :
    Table NodeId (ℚ × Nat) :=
  match tryParseNodeId entry.1 with
  | none => byNode
  | some nodeId =>
      if !filter.passes nodeId then byNode
      else
        Association.upsert nodeId
          (fun aggregate =>
            ((aggregate.getD (0, 0)).1 + computeBusyFractionForContext config entry.2 now,
              (aggregate.getD (0, 0)).2 + 1)) byNode

def busyFractionByNode (config : CbrConfig) (filter : NodeFilter) (now : ℚ)
    (logger : CbrLogger) : Table NodeId (ℚ × Nat) :=
  logger.busyIntervalsByContext.foldl (addContext config filter now) []

def computeChannelOccupiedCbr (config : CbrConfig) (filter : NodeFilter) (now : ℚ)
    (logger : CbrLogger) : ℚ :=
  let byNode := logger.busyFractionByNode config filter now
  let cbrSum := (byNode.map fun entry =>
    if 0 < entry.2.2 then entry.2.1 / (entry.2.2 : ℚ) else 0).sum
  if config.evaluatedNodeIds.Nonempty then
    let denominator := (config.evaluatedNodeIds.filter fun nodeId => filter.passes nodeId).card
    if 0 < denominator then cbrSum / denominator else 0
  else if byNode = [] then 0
  else cbrSum / byNode.length

/-- The pruned logger and the ratio. -/
def computeCbr (config : CbrConfig) (filter : NodeFilter) (now : ℚ) (logger : CbrLogger) :
    CbrLogger × ℚ :=
  let pruned := logger.prune config now
  (pruned, min 1 (max 0 (pruned.computeChannelOccupiedCbr config filter now)))

/-- `none` is the -1 of the source: nothing was observed in the window. -/
def computeSensingCbr (config : CbrConfig) (now : ℚ) (logger : CbrLogger) : Option ℚ :=
  let cutoff := now - config.windowS
  let resources := logger.resourceObs.filter fun o => decide (cutoff ≤ o.time ∧ o.time ≤ now)
  let total := (resources.map ResourceObs.total).sum
  if 0 < total then some (((resources.map ResourceObs.busy).sum : ℚ) / (total : ℚ))
  else
    let scalars := logger.obs.filter fun o => decide (cutoff ≤ o.time ∧ o.time ≤ now)
    if scalars = [] then none
    else some (((scalars.filter Obs.busy).length : ℚ) / (scalars.length : ℚ))

def computeSensingExclusionRatio (config : CbrConfig) (now : ℚ) (logger : CbrLogger) :
    CbrLogger × ℚ :=
  let pruned := logger.prune config now
  match pruned.computeSensingCbr config now with
  | none => (pruned, 0)
  | some ratio => (pruned, min 1 (max 0 ratio))

end CbrLogger

/-! ## Runs -/

inductive CbrCall
  | recordObservation (busy : Bool)
  | recordResourceObservation (busyResources totalResources : Nat)
  | recordSensingAlgorithm (context : Text)
      (initialCandidateResourcesSize candidateResources : Nat)
  | recordChannelOccupied (context : Text) (durationS : ℚ)
  | computeCbr
  | computeSensingExclusionRatio
  deriving DecidableEq, Repr

structure CbrEvent where
  now : ℚ
  filter : NodeFilter
  call : CbrCall

/-- The logger, the time of the last call and the ratios returned so far. -/
structure CbrState where
  now : ℚ
  logger : CbrLogger
  returned : List ℚ

def CbrState.initial : CbrState := ⟨0, CbrLogger.initial, []⟩

/-- The logger after a call and the ratio it returns, if it returns one. -/
def callLogger (config : CbrConfig) (event : CbrEvent) (logger : CbrLogger) :
    CbrLogger × Option ℚ :=
  match event.call with
  | .recordObservation busy => (logger.recordObservation config event.now busy, none)
  | .recordResourceObservation busyResources totalResources =>
      (logger.recordResourceObservation config event.now busyResources totalResources, none)
  | .recordSensingAlgorithm context initialSize candidates =>
      (logger.recordSensingAlgorithm config event.filter context initialSize candidates event.now,
        none)
  | .recordChannelOccupied context durationS =>
      (logger.recordChannelOccupied config event.filter context event.now durationS, none)
  | .computeCbr =>
      let result := logger.computeCbr config event.filter event.now
      (result.1, some result.2)
  | .computeSensingExclusionRatio =>
      let result := logger.computeSensingExclusionRatio config event.now
      (result.1, some result.2)

/-- Time never runs backwards. -/
def cbrStep (config : CbrConfig) (state : CbrState) (event : CbrEvent) : Option CbrState :=
  if state.now ≤ event.now then
    let result := callLogger config event state.logger
    some ⟨event.now, result.1, state.returned ++ result.2.toList⟩
  else none

theorem cbrStep_some {config : CbrConfig} {state next : CbrState} {event : CbrEvent}
    (hstep : cbrStep config state event = some next) :
    state.now ≤ event.now ∧ next = ⟨event.now, (callLogger config event state.logger).1,
      state.returned ++ (callLogger config event state.logger).2.toList⟩ := by
  unfold cbrStep at hstep
  split at hstep
  next hle => exact ⟨hle, (Option.some.inj hstep).symm⟩
  next => cases hstep

end DeepcV2x.Cbr
