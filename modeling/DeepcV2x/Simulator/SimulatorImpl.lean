import DeepcV2x.Foundation.Runs
import Mathlib.Data.List.Nodup

/-!
# The simulator

`DefaultSimulatorImpl`, run by one thread: the queue, the current event and the
calls that programs make.  The scheduler is any that hands out an event with the
least key.  Assertions are enabled: a failed one ends the run, and so does a
time that is not in the range of a time stamp.
-/

namespace DeepcV2x.Simulator

/-- `EventId`, with the number of its `EventImpl`, and the entry of the queue. -/
structure EventId where
  impl : Option Nat
  ts : Nat
  context : Nat
  uid : Nat
  deriving DecidableEq, Repr

/-- The order of keys. -/
def EventId.Less (left right : EventId) : Prop :=
  left.ts < right.ts ∨ (left.ts = right.ts ∧ left.uid < right.uid)

instance (left right : EventId) : Decidable (left.Less right) := inferInstanceAs (Decidable (_ ∨ _))

/-- A number as an `int` of 32 bits. -/
def toInt32 (value : Int) : Int := Int.bmod value 4294967296

/-- The members of the simulator, and which events have `m_cancel` set. -/
structure DefaultSimulatorImpl where
  destroyEvents : List EventId := []
  stop : Bool := false
  events : List EventId := []
  uid : Nat := 4
  currentUid : Nat := 0
  currentTs : Nat := 0
  currentContext : Nat := 4294967295
  eventCount : Nat := 0
  unscheduledEvents : Int := 0
  cancelled : List Nat := []
  deriving DecidableEq, Repr

namespace DefaultSimulatorImpl

def IsCancelled (simulator : DefaultSimulatorImpl) (id : EventId) : Prop :=
  ∃ impl ∈ simulator.cancelled, id.impl = some impl

instance (simulator : DefaultSimulatorImpl) (id : EventId) : Decidable (simulator.IsCancelled id) :=
  inferInstanceAs (Decidable (∃ impl ∈ simulator.cancelled, id.impl = some impl))

/-- `EventImpl::Cancel`. -/
def setCancel (simulator : DefaultSimulatorImpl) (id : EventId) : DefaultSimulatorImpl :=
  { simulator with cancelled := id.impl.toList ++ simulator.cancelled }

/-- An event enters the queue. -/
def insert (simulator : DefaultSimulatorImpl) (context : Nat) (delay : Int) (impl : Nat) :
    Option (DefaultSimulatorImpl × EventId) :=
  if 0 ≤ simulator.currentTs + delay ∧ simulator.currentTs + delay < 9223372036854775808 then
    let id : EventId := ⟨some impl, (simulator.currentTs + delay).toNat, context, simulator.uid⟩
    some (
      { simulator with
        uid := (simulator.uid + 1) % 4294967296
        unscheduledEvents := toInt32 (simulator.unscheduledEvents + 1)
        events := id :: simulator.events }, id)
  else none

/-- `Schedule`. -/
def schedule (simulator : DefaultSimulatorImpl) (delay : Int) (impl : Nat) :
    Option (DefaultSimulatorImpl × EventId) :=
  if 0 ≤ delay then simulator.insert simulator.currentContext delay impl else none

/-- `ScheduleNow`. -/
def scheduleNow (simulator : DefaultSimulatorImpl) (impl : Nat) :
    Option (DefaultSimulatorImpl × EventId) :=
  simulator.schedule 0 impl

/-- `ScheduleWithContext`, which does not look at the sign of the delay. -/
def scheduleWithContext (simulator : DefaultSimulatorImpl) (context : Nat) (delay : Int)
    (impl : Nat) : Option (DefaultSimulatorImpl × EventId) :=
  simulator.insert context delay impl

/-- `IsExpired`. -/
def IsExpired (simulator : DefaultSimulatorImpl) (id : EventId) : Prop :=
  if id.uid = 2 then
    id.impl = none ∨ simulator.IsCancelled id ∨ id ∉ simulator.destroyEvents
  else
    id.impl = none ∨ id.ts < simulator.currentTs ∨
      (id.ts = simulator.currentTs ∧ id.uid ≤ simulator.currentUid) ∨ simulator.IsCancelled id

instance (simulator : DefaultSimulatorImpl) (id : EventId) : Decidable (simulator.IsExpired id) :=
  inferInstanceAs (Decidable (if id.uid = 2 then
      id.impl = none ∨ simulator.IsCancelled id ∨ id ∉ simulator.destroyEvents
    else
      id.impl = none ∨ id.ts < simulator.currentTs ∨
        (id.ts = simulator.currentTs ∧ id.uid ≤ simulator.currentUid) ∨ simulator.IsCancelled id))

/-- `Remove`; the scheduler is only asked for events it has. -/
def remove (simulator : DefaultSimulatorImpl) (id : EventId) : Option DefaultSimulatorImpl :=
  if id.uid = 2 then some { simulator with destroyEvents := simulator.destroyEvents.erase id }
  else if simulator.IsExpired id then some simulator
  else if id ∈ simulator.events then
    some ({ simulator with
      events := simulator.events.erase id
      unscheduledEvents := toInt32 (simulator.unscheduledEvents - 1) }.setCancel id)
  else none

/-- `Cancel`. -/
def cancel (simulator : DefaultSimulatorImpl) (id : EventId) : DefaultSimulatorImpl :=
  if simulator.IsExpired id then simulator else simulator.setCancel id

/-- No event of the queue comes before this one. -/
def Least (simulator : DefaultSimulatorImpl) (next : EventId) : Prop :=
  next ∈ simulator.events ∧ ∀ other ∈ simulator.events, ¬ other.Less next

instance (simulator : DefaultSimulatorImpl) (next : EventId) : Decidable (simulator.Least next) :=
  inferInstanceAs (Decidable (_ ∧ ∀ other ∈ simulator.events, _))

/-- The part of `ProcessOneEvent` before the event is invoked. -/
def processOneEvent (simulator : DefaultSimulatorImpl) (next : EventId) :
    Option DefaultSimulatorImpl :=
  if simulator.Least next ∧ simulator.currentTs ≤ next.ts then
    some { simulator with
      events := simulator.events.erase next
      unscheduledEvents := toInt32 (simulator.unscheduledEvents - 1)
      eventCount := (simulator.eventCount + 1) % 18446744073709551616
      currentTs := next.ts
      currentContext := next.context
      currentUid := next.uid }
  else none

end DefaultSimulatorImpl

/-! ## Programs -/

/-- What a program calls, from its main function or from an event. -/
inductive SimulatorCall
  | schedule (delay : Int)
  | scheduleNow
  | scheduleWithContext (context : Nat) (delay : Int)
  | cancel (id : EventId)
  | remove (id : EventId)
  | stop

/-- Where a program is: outside `Run`, in its loop, or in an event. -/
inductive Phase
  | outside
  | loop
  | event
  deriving DecidableEq, Repr

/-- The notification of an event, at a time and in a context. -/
structure Notified where
  id : EventId
  now : Nat
  context : Nat
  deriving DecidableEq, Repr

/-- A program with the events it scheduled, those whose id it was given, the notifications, and the
events that it cancelled or removed while they were queued. -/
structure Program where
  simulator : DefaultSimulatorImpl := {}
  phase : Phase := .outside
  scheduled : List EventId := []
  ids : List EventId := []
  notified : List Notified := []
  struck : List EventId := []
  deriving DecidableEq, Repr

/-- What happens next in a program; a call is made outside `Run` or by the event invoked. -/
inductive ProgramEvent
  | run
  | call (op : SimulatorCall)
  | processOneEvent (next : EventId)
  | notifyReturns
  | runReturns

namespace Program

/-- The program has scheduled an event, and has its id or not. -/
def place (program : Program) (hasId : Bool) (result : DefaultSimulatorImpl × EventId) : Program :=
  { program with
    simulator := result.1
    scheduled := program.scheduled ++ [result.2]
    ids := if hasId then result.2 :: program.ids else program.ids }

/-- The event is noted when it is still queued. -/
def strike (program : Program) (id : EventId) (simulator : DefaultSimulatorImpl) : Program :=
  { program with
    simulator := simulator
    struck := if id ∈ program.simulator.events then id :: program.struck else program.struck }

/-- A call, with a new `EventImpl` for each event and ids that the program was given. -/
def call (program : Program) : SimulatorCall → Option Program
  | .schedule delay =>
      (program.simulator.schedule delay program.scheduled.length).map (program.place true)
  | .scheduleNow => (program.simulator.scheduleNow program.scheduled.length).map (program.place true)
  | .scheduleWithContext context delay =>
      (program.simulator.scheduleWithContext context delay program.scheduled.length).map
        (program.place false)
  | .cancel id =>
      if id ∈ program.ids then some (program.strike id (program.simulator.cancel id)) else none
  | .remove id =>
      if id ∈ program.ids then (program.simulator.remove id).map (program.strike id) else none
  | .stop => some { program with simulator := { program.simulator with stop := true } }

/-- One turn of the loop of `Run`; `Invoke` notifies an event that is not cancelled. -/
def turn (program : Program) (next : EventId) : Option Program :=
  (program.simulator.processOneEvent next).map fun simulator =>
    if simulator.IsCancelled next then { program with simulator := simulator }
    else
      { program with
        simulator := simulator
        phase := .event
        notified := program.notified ++ [⟨next, simulator.currentTs, simulator.currentContext⟩] }

def step (program : Program) : ProgramEvent → Option Program
  | .run =>
      if program.phase = .outside then
        some { program with
          phase := .loop
          simulator := { program.simulator with stop := false } }
      else none
  | .call op => if program.phase = .loop then none else program.call op
  | .processOneEvent next =>
      if program.phase = .loop ∧ program.simulator.events ≠ [] ∧ program.simulator.stop = false then
        program.turn next
      else none
  | .notifyReturns =>
      if program.phase = .event then some { program with phase := .loop } else none
  | .runReturns =>
      if program.phase = .loop ∧ (program.simulator.events = [] ∨ program.simulator.stop = true) ∧
          (program.simulator.events ≠ [] ∨ program.simulator.unscheduledEvents = 0) then
        some { program with phase := .outside }
      else none

def run : Program → List ProgramEvent → Option Program := Foundation.Runs.runFrom step

end Program

end DeepcV2x.Simulator
