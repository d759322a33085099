import DeepcV2x.Scheduler.Events
import Mathlib.Data.UInt

/-!
# The calendar scheduler

`CalendarScheduler`: the buckets are the days of a year, a search starts at
the day of the last removed event and falls back to the least of all buckets
when the current year holds none.  A resize samples the queue for a new width
and distributes the events again.
-/

namespace DeepcV2x.Scheduler

variable {EventImpl : Type}

/-- The members of the class; bucket `i` is meaningful below `nBuckets`. -/
structure CalendarScheduler (EventImpl : Type) where
  buckets : Nat → List (Event EventImpl)
  nBuckets : Nat
  width : UInt64
  lastPrio : UInt64
  lastBucket : Nat
  bucketTop : UInt64
  qSize : UInt32
  reverse : Bool

namespace CalendarScheduler

/-! ## Buckets -/

/-- `NextEvent` on a bucket. -/
def nextEvent (reverse : Bool) (bucket : List (Event EventImpl)) : Option (Event EventImpl) :=
  if reverse then bucket.getLast? else bucket.head?

/-- `Order` on keys. -/
def order (reverse : Bool) (left right : EventKey) : Bool :=
  if reverse then decide (right.Less left) else decide (left.Less right)

/-- `Pop` on a bucket. -/
def pop (reverse : Bool) (bucket : List (Event EventImpl)) : List (Event EventImpl) :=
  if reverse then bucket.dropLast else bucket.tail

/-- The insertion loop of `DoInsert`. -/
def insertInBucket (reverse : Bool) (ev : Event EventImpl) :
    List (Event EventImpl) → List (Event EventImpl)
  | [] => [ev]
  | head :: tail =>
      if order reverse ev.key head.key then ev :: head :: tail
      else head :: insertInBucket reverse ev tail

/-! ## The calendar -/

def hashOf (nBuckets : Nat) (width ts : UInt64) : Nat := (ts / width).toNat % nBuckets

def hash (calendar : CalendarScheduler EventImpl) (ts : UInt64) : Nat :=
  hashOf calendar.nBuckets calendar.width ts

def topOf (width ts : UInt64) : UInt64 := (ts / width + 1) * width

/-- `Init` with fresh buckets. -/
def init (calendar : CalendarScheduler EventImpl) (nBuckets : Nat) (width startPrio : UInt64) :
    CalendarScheduler EventImpl :=
  { calendar with
    buckets := fun _ => []
    nBuckets := nBuckets
    width := width
    lastPrio := startPrio
    lastBucket := hashOf nBuckets width startPrio
    bucketTop := topOf width startPrio }

/-- The constructor, and the attribute `Reverse`. -/
def empty (reverse : Bool) : CalendarScheduler EventImpl :=
  init ⟨fun _ => [], 0, 0, 0, 0, 0, 0, reverse⟩ 2 1 0

def doInsert (calendar : CalendarScheduler EventImpl) (ev : Event EventImpl) :
    CalendarScheduler EventImpl :=
  { calendar with
    buckets := Function.update calendar.buckets (calendar.hash ev.key.ts)
      (insertInBucket calendar.reverse ev (calendar.buckets (calendar.hash ev.key.ts))) }

/-! ## The search -/

/-- An event of the current year with its bucket and the top of its day, or the least event of
all buckets. -/
inductive Found (EventImpl : Type)
  | today (bucket : Nat) (bucketTop : UInt64) (ev : Event EventImpl)
  | least (best : Option (Nat × Event EventImpl))

/-- The next event of a bucket when it is before the top. -/
def dueEvent (calendar : CalendarScheduler EventImpl) (i : Nat) (bucketTop : UInt64) :
    Option (Event EventImpl) :=
  (nextEvent calendar.reverse (calendar.buckets i)).filter fun next => next.key.ts < bucketTop

/-- The least key so far and its bucket, after one more bucket. -/
def improve (calendar : CalendarScheduler EventImpl) (i : Nat)
    (best : EventKey × Option (Nat × Event EventImpl)) :
    EventKey × Option (Nat × Event EventImpl) :=
  match nextEvent calendar.reverse (calendar.buckets i) with
  | none => best
  | some next => if next.key.Less best.1 then (next.key, some (i, next)) else best

/-- The loop of `PeekNext` and `DoRemoveNext`, which comes back after one turn a bucket. -/
def search (calendar : CalendarScheduler EventImpl) :
    Nat → Nat → UInt64 → EventKey × Option (Nat × Event EventImpl) → Found EventImpl
  | 0, _, _, best => .least best.2
  | fuel + 1, i, bucketTop, best =>
      match calendar.dueEvent i bucketTop with
      | some next => .today i bucketTop next
      | none =>
          if (i + 1) % calendar.nBuckets = calendar.lastBucket then
            .least (calendar.improve i best).2
          else search calendar fuel ((i + 1) % calendar.nBuckets) (bucketTop + calendar.width)
            (calendar.improve i best)

def searchFrom (calendar : CalendarScheduler EventImpl) (minKey : EventKey) : Found EventImpl :=
  calendar.search calendar.nBuckets calendar.lastBucket calendar.bucketTop (minKey, none)

/-- `PeekNext`; on an empty queue the code returns an event without implementation. -/
def peekNext (calendar : CalendarScheduler EventImpl) : Option (Event EventImpl) :=
  match calendar.searchFrom ⟨0xffffffffffffffff, 0xffffffff, 0⟩ with
  | .today _ _ next => some next
  | .least best => best.map Prod.snd

/-- Take the next event out of a bucket and move to its day. -/
def take (calendar : CalendarScheduler EventImpl) (bucket : Nat) (bucketTop lastPrio : UInt64) :
    CalendarScheduler EventImpl :=
  { calendar with
    buckets := Function.update calendar.buckets bucket
      (pop calendar.reverse (calendar.buckets bucket))
    lastBucket := calendar.hash lastPrio
    bucketTop := bucketTop
    lastPrio := lastPrio }

def doRemoveNext (calendar : CalendarScheduler EventImpl) :
    Option (CalendarScheduler EventImpl × Event EventImpl) :=
  match calendar.searchFrom ⟨0xffffffffffffffff, 0, 0xffffffff⟩ with
  | .today i bucketTop next =>
      some ({ calendar.take i bucketTop next.key.ts with lastBucket := i }, next)
  | .least none => none
  | .least (some (minBucket, next)) =>
      some (calendar.take minBucket (topOf calendar.width next.key.ts) next.key.ts, next)

/-! ## Resizing -/

/-- Take some events out, in their order. -/
def removeSamples (calendar : CalendarScheduler EventImpl) :
    Nat → Option (CalendarScheduler EventImpl × List (Event EventImpl))
  | 0 => some (calendar, [])
  | nSamples + 1 =>
      match calendar.doRemoveNext with
      | none => none
      | some (rest, ev) =>
          (removeSamples rest nSamples).map fun result => (result.1, ev :: result.2)

def sampleCount (qSize : UInt32) : Nat :=
  if qSize ≤ 5 then qSize.toNat else min (5 + (qSize / 10).toNat) 25

/-- The differences of neighbouring time stamps. -/
def separations : List (Event EventImpl) → List UInt64
  | first :: second :: rest => (second.key.ts - first.key.ts) :: separations (second :: rest)
  | _ => []

/-- The width computed from the samples. -/
def widthOf (samples : List (Event EventImpl)) : UInt64 :=
  let twiceAvg := (separations samples).sum / UInt64.ofNat (samples.length - 1) * 2
  max (((separations samples).filter fun diff => diff ≤ twiceAvg).sum * 3) 1

/-- `CalculateNewWidth`: the calendar with the samples put back, and the width. -/
def calculateNewWidth (calendar : CalendarScheduler EventImpl) :
    Option (CalendarScheduler EventImpl × UInt64) :=
  if calendar.qSize < 2 then some (calendar, 1)
  else
    (calendar.removeSamples (sampleCount calendar.qSize)).map fun result =>
      ({ result.2.foldl doInsert result.1 with
          lastBucket := calendar.lastBucket
          bucketTop := calendar.bucketTop
          lastPrio := calendar.lastPrio }, widthOf result.2)

def allEvents (calendar : CalendarScheduler EventImpl) : List (Event EventImpl) :=
  (List.range calendar.nBuckets).flatMap calendar.buckets

def doResize (calendar : CalendarScheduler EventImpl) (newSize : Nat) (newWidth : UInt64) :
    CalendarScheduler EventImpl :=
  calendar.allEvents.foldl doInsert (calendar.init newSize newWidth calendar.lastPrio)

def resize (calendar : CalendarScheduler EventImpl) (newSize : Nat) :
    Option (CalendarScheduler EventImpl) :=
  calendar.calculateNewWidth.map fun result => result.1.doResize newSize result.2

def resizeUp (calendar : CalendarScheduler EventImpl) : Option (CalendarScheduler EventImpl) :=
  if calendar.nBuckets * 2 < calendar.qSize.toNat ∧ calendar.nBuckets < 32768 then
    calendar.resize (calendar.nBuckets * 2)
  else some calendar

def resizeDown (calendar : CalendarScheduler EventImpl) : Option (CalendarScheduler EventImpl) :=
  if calendar.qSize.toNat < calendar.nBuckets / 2 then calendar.resize (calendar.nBuckets / 2)
  else some calendar

/-! ## Operations -/

def insert (calendar : CalendarScheduler EventImpl) (ev : Event EventImpl) :
    Option (CalendarScheduler EventImpl) :=
  resizeUp { calendar.doInsert ev with qSize := calendar.qSize + 1 }

def removeNext (calendar : CalendarScheduler EventImpl) :
    Option (CalendarScheduler EventImpl × Event EventImpl) :=
  match calendar.doRemoveNext with
  | none => none
  | some (rest, ev) => (resizeDown { rest with qSize := calendar.qSize - 1 }).map fun next => (next, ev)

def remove (calendar : CalendarScheduler EventImpl) (ev : Event EventImpl) :
    Option (CalendarScheduler EventImpl) :=
  let bucket := calendar.buckets (calendar.hash ev.key.ts)
  if bucket.any fun stored => stored.key.uid = ev.key.uid then
    resizeDown { calendar with
      buckets := Function.update calendar.buckets (calendar.hash ev.key.ts)
        (bucket.eraseP fun stored => stored.key.uid = ev.key.uid)
      qSize := calendar.qSize - 1 }
  else none

def step : QueueStep (CalendarScheduler EventImpl) EventImpl
  | calendar, .insert ev => (calendar.insert ev).map fun next => (next, none)
  | calendar, .remove ev => (calendar.remove ev).map fun next => (next, none)
  | calendar, .removeNext => calendar.removeNext.map fun removed => (removed.1, some removed.2)
  | calendar, .peekNext => calendar.peekNext.map fun next => (calendar, some next)

end CalendarScheduler

end DeepcV2x.Scheduler
