import DeepcV2x.Foundation.Polylines
import DeepcV2x.Foundation.Runs
import Mathlib.Algebra.Order.Ring.Rat
import Mathlib.Algebra.Module.Prod
import Mathlib.Tactic.Linarith

/-!
# Waypoint mobility

`WaypointMobilityModel` computes the position of a node when it is asked for it.
It takes the waypoints whose time is over from its queue, and marks the end of
the queue by a waypoint of time minus one.  Times and coordinates are rational.
-/

namespace DeepcV2x.Mobility

open Foundation.Polylines

abbrev Vector3D := ℚ × ℚ × ℚ

/-- A position at a time. -/
abbrev Waypoint := Knot ℚ Vector3D

/-! ## The model -/

/-- The members of the mobility model. -/
structure WaypointMobilityModel where
  first : Bool := true
  lazyNotify : Bool
  waypoints : List Waypoint := []
  current : Waypoint := ⟨0, 0⟩
  next : Waypoint := ⟨0, 0⟩
  velocity : Vector3D := 0
  deriving DecidableEq

namespace WaypointMobilityModel

/-- The velocity between two positions. -/
def velocityOver (span : ℚ) (source target : Vector3D) : Vector3D :=
  ((target.1 - source.1) / span, (target.2.1 - source.2.1) / span, (target.2.2 - source.2.2) / span)

/-- The end of `Update`: the node moves on with its velocity. -/
def moveTo (now : ℚ) (model : WaypointMobilityModel) : WaypointMobilityModel :=
  if model.current.time < now then
    { model with
      current := ⟨now, model.current.place + (now - model.current.time) • model.velocity⟩ }
  else model

/-- The loop of `Update` over the queue; `none` when its assertion fails. -/
def updateFrom (now : ℚ) : WaypointMobilityModel → List Waypoint → Option WaypointMobilityModel
  | model, [] =>
      if model.next.time ≤ now then
        if model.current.time ≤ model.next.time then
          -- the time of the next waypoint keeps this from happening twice
          some { model with
            waypoints := []
            next := ⟨-1, model.next.place⟩
            current := ⟨now, model.next.place⟩
            velocity := 0 }
        else some { model with waypoints := [], current := ⟨now, model.current.place⟩ }
      else some (moveTo now { model with waypoints := [] })
  | model, front :: rest =>
      if model.next.time ≤ now then
        if 0 < front.time - model.next.time then
          updateFrom now
            { model with
              current := model.next
              next := front
              velocity :=
                velocityOver (front.time - model.next.time) model.next.place front.place }
            rest
        else none
      else some (moveTo now { model with waypoints := front :: rest })

/-- `Update`. -/
def update (model : WaypointMobilityModel) (now : ℚ) : Option WaypointMobilityModel :=
  if now < model.current.time then some model else updateFrom now model model.waypoints

/-- `AddWaypoint`, without its event: the times in the queue ascend, and events are not in the
past. -/
def addWaypoint (model : WaypointMobilityModel) (waypoint : Waypoint) (now : ℚ) :
    Option WaypointMobilityModel :=
  let added :=
    if model.first then
      some { model with first := false, current := waypoint, next := waypoint }
    else if ∃ last ∈ model.waypoints.getLast?, waypoint.time ≤ last.time then none
    else some { model with waypoints := model.waypoints ++ [waypoint] }
  if !model.lazyNotify && waypoint.time - now < 0 then none else added

end WaypointMobilityModel

/-! ## The simulation -/

/-- What happens to a node: calls, and the events that `AddWaypoint` schedules. -/
inductive Call where
  | addWaypoint (waypoint : Waypoint)
  | getPosition
  | getVelocity
  | waypointsLeft
  | update
  deriving DecidableEq

/-- An answer of `GetPosition`, with the number of waypoints added before. -/
structure Observation where
  added : Nat
  time : ℚ
  position : Vector3D
  deriving DecidableEq

/-- A node in a simulation; the model is missing after a failed assertion. -/
structure Node where
  model : Option WaypointMobilityModel
  pending : List ℚ := []
  clock : ℚ := 0
  added : Nat := 0
  observed : List Observation := []
  deriving DecidableEq

namespace Node

def start (lazyNotify : Bool) : Node := { model := some { lazyNotify } }

/-- What a call does at a time. -/
def perform (node : Node) (time : ℚ) (model : WaypointMobilityModel) : Call → Node
  | .addWaypoint waypoint =>
      { node with
        model := model.addWaypoint waypoint time
        pending := if model.lazyNotify then node.pending else node.pending ++ [waypoint.time]
        clock := time
        added := node.added + 1 }
  | .getPosition =>
      let updated := model.update time
      { node with
        model := updated
        clock := time
        observed := node.observed ++ (updated.toList.map fun model =>
          { added := node.added, time, position := model.current.place }) }
  | .getVelocity => { node with clock := time }
  | .waypointsLeft => { node with model := model.update time, clock := time }
  | .update =>
      { node with
        model := model.update time
        pending := node.pending.erase time
        clock := time }

/-- A call at a time: time does not go back, and no scheduled event is passed over.  Events of one
time come in any order. -/
def step (node : Node) (event : ℚ × Call) : Option Node :=
  if node.clock ≤ event.1 ∧ (∀ time ∈ node.pending, event.1 ≤ time) ∧
      (event.2 = .update → event.1 ∈ node.pending) then
    match node.model with
    | none => some { node with clock := event.1 }
    | some model => some (node.perform event.1 model event.2)
  else none

end Node

/-! ## Schedules -/

/-- The waypoints that are added in a run, with the times of the calls. -/
def additions (run : List (ℚ × Call)) : List (ℚ × Waypoint) :=
  run.filterMap fun event =>
    match event.2 with
    | .addWaypoint waypoint => some (event.1, waypoint)
    | _ => none

/-- The calls come in the order of their times, the times of the waypoints ascend and are not before
the calls. -/
structure Valid (schedule : List (ℚ × Waypoint)) : Prop where
  ordered : schedule.Pairwise (·.1 ≤ ·.1)
  ascending : Ascending (schedule.map Prod.snd)
  ahead : ∀ addition ∈ schedule, 0 ≤ addition.1 ∧ addition.1 ≤ addition.2.time

/-- The motion of a node that is at a waypoint: it rests there until the next one is added. -/
def trajectoryFrom : Waypoint → List (ℚ × Waypoint) → ℚ → Vector3D
  | reached, [], _ => reached.place
  | reached, (call, waypoint) :: rest, t =>
      if t ≤ max reached.time call then reached.place
      else if t < waypoint.time then line ⟨max reached.time call, reached.place⟩ waypoint t
      else trajectoryFrom waypoint rest t

/-- The motion that a schedule describes. -/
def trajectory : List (ℚ × Waypoint) → ℚ → Vector3D
  | [], _ => 0
  | (_, waypoint) :: rest, t => trajectoryFrom waypoint rest t

/-- The positions of the runs with a schedule are those of the motion it describes, so that equal
times have equal positions in any two of these runs. -/
structure Unobserved (schedule : List (ℚ × Waypoint)) : Prop where
  completes : ∀ lazyNotify run last, additions run = schedule →
    Foundation.Runs.runFrom Node.step (Node.start lazyNotify) run = some last → last.model ≠ none
  interpolated : ∀ lazyNotify run last, additions run = schedule →
    Foundation.Runs.runFrom Node.step (Node.start lazyNotify) run = some last →
      ∀ seen ∈ last.observed,
        seen.position = if seen.added = 0 then 0 else trajectory schedule seen.time
  same : ∀ lazyNotify run last lazyNotify' run' last',
    additions run = schedule → additions run' = schedule →
      Foundation.Runs.runFrom Node.step (Node.start lazyNotify) run = some last →
        Foundation.Runs.runFrom Node.step (Node.start lazyNotify') run' = some last' →
          ∀ seen ∈ last.observed, ∀ seen' ∈ last'.observed, seen.time = seen'.time →
            (seen.added = 0 ↔ seen'.added = 0) → seen.position = seen'.position

/-- Every further waypoint is added before the time of the one before, or has its position. -/
def InTime (schedule : List (ℚ × Waypoint)) : Prop :=
  schedule.IsChain fun earlier later =>
    later.1 < earlier.2.time ∨ later.2.place = earlier.2.place

end DeepcV2x.Mobility
