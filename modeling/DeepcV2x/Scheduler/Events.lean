import Mathlib.Algebra.Order.Group.Nat
import Mathlib.Data.List.Nodup
import Mathlib.Data.List.Perm.Basic

/-!
# Events and the sorted list

The keys of scheduled events, the operations on an event queue, and the queue
that keeps its events in a sorted list, against which the others are compared.
-/

namespace DeepcV2x.Scheduler

structure EventKey where
  ts : UInt64
  uid : UInt32
  context : UInt32
  deriving DecidableEq, Repr, Inhabited

structure Event (EventImpl : Type) where
  impl : Option EventImpl
  key : EventKey
  deriving DecidableEq, Repr, Inhabited

/-- `operator<` on keys: the time stamp, and the id at equal time stamps. -/
def EventKey.Less (left right : EventKey) : Prop :=
  left.ts < right.ts ∨ (left.ts = right.ts ∧ left.uid < right.uid)

instance (left right : EventKey) : Decidable (left.Less right) :=
  inferInstanceAs (Decidable (_ ∨ _))

/-- The key as one number. -/
def EventKey.rank (key : EventKey) : Nat := key.ts.toNat * 2 ^ 32 + key.uid.toNat

theorem EventKey.less_iff (left right : EventKey) : left.Less right ↔ left.rank < right.rank := by
  have hleft := left.uid.toNat_lt
  have hright := right.uid.toNat_lt
  rw [Less, UInt64.lt_iff_toNat_lt, UInt32.lt_iff_toNat_lt, ← UInt64.toNat_inj, rank, rank]
  omega

theorem EventKey.uid_eq_of_rank {left right : EventKey} (hrank : left.rank = right.rank) :
    left.uid = right.uid := by
  have hleft := left.uid.toNat_lt
  have hright := right.uid.toNat_lt
  rw [rank, rank] at hrank
  rw [← UInt32.toNat_inj]
  omega

variable {EventImpl : Type}

namespace Event

def rank (ev : Event EventImpl) : Nat := ev.key.rank

end Event

/-- An event at a time, with a number as its id. -/
def eventAt (ts : UInt64) (uid : UInt32) : Event Unit := ⟨some (), ⟨ts, uid, 0⟩⟩

/-! ## Operations -/

inductive QueueOp (EventImpl : Type)
  | insert (ev : Event EventImpl)
  | remove (ev : Event EventImpl)
  | removeNext
  | peekNext
  deriving DecidableEq, Repr

/-- One operation: the next state and the event it returns, `none` where it is not allowed. -/
abbrev QueueStep (State EventImpl : Type) :=
  State → QueueOp EventImpl → Option (State × Option (Event EventImpl))

/-- The state after a list of operations and what they returned. -/
def runOps {State : Type} (step : QueueStep State EventImpl) (state : State) :
    List (QueueOp EventImpl) → Option (State × List (Option (Event EventImpl)))
  | [] => some (state, [])
  | op :: rest =>
      match step state op with
      | none => none
      | some (next, returned) =>
          (runOps step next rest).map fun run => (run.1, returned :: run.2)

/-- The events some operations insert. -/
def insertedBy : List (QueueOp EventImpl) → List (Event EventImpl)
  | [] => []
  | .insert ev :: rest => ev :: insertedBy rest
  | _ :: rest => insertedBy rest

/-- The events some operations remove, given what they returned. -/
def removedBy : List (QueueOp EventImpl) → List (Option (Event EventImpl)) →
    List (Event EventImpl)
  | .remove ev :: rest, _ :: returned => ev :: removedBy rest returned
  | .removeNext :: rest, some ev :: returned => ev :: removedBy rest returned
  | _ :: rest, _ :: returned => removedBy rest returned
  | _, _ => []

/-! ## The sorted list -/

namespace ListScheduler

def insert (ev : Event EventImpl) : List (Event EventImpl) → List (Event EventImpl)
  | [] => [ev]
  | head :: tail => if ev.key.Less head.key then ev :: head :: tail else head :: insert ev tail

def remove (ev : Event EventImpl) (events : List (Event EventImpl)) : List (Event EventImpl) :=
  events.eraseP fun stored => stored.key.uid = ev.key.uid

/-- An operation of the sorted list, for ids that are not in use and removals of stored events. -/
def step [DecidableEq EventImpl] : QueueStep (List (Event EventImpl)) EventImpl
  | events, .insert ev =>
      if ∃ stored ∈ events, stored.key.uid = ev.key.uid then none else some (insert ev events, none)
  | events, .remove ev => if ev ∈ events then some (remove ev events, none) else none
  | [], .removeNext => none
  | head :: tail, .removeNext => some (tail, some head)
  | [], .peekNext => none
  | head :: tail, .peekNext => some (head :: tail, some head)

/-- The events of a queue are sorted by their keys and have distinct ids. -/
structure Sorted (events : List (Event EventImpl)) : Prop where
  ordered : events.Pairwise fun earlier later => earlier.rank < later.rank
  distinct : events.Pairwise fun earlier later => earlier.key.uid ≠ later.key.uid

theorem Sorted.nil : Sorted ([] : List (Event EventImpl)) := ⟨List.Pairwise.nil, List.Pairwise.nil⟩

theorem Sorted.tail {head : Event EventImpl} {rest : List (Event EventImpl)}
    (sorted : Sorted (head :: rest)) : Sorted rest :=
  ⟨sorted.ordered.tail, sorted.distinct.tail⟩

/-- The head of a sorted list is its least event. -/
theorem Sorted.head_le {head : Event EventImpl} {rest : List (Event EventImpl)}
    (sorted : Sorted (head :: rest)) {other : Event EventImpl} (hmem : other ∈ head :: rest) :
    head.rank ≤ other.rank := by
  rcases List.mem_cons.mp hmem with rfl | hmem
  · exact le_rfl
  · exact ((List.pairwise_cons.mp sorted.ordered).1 other hmem).le

/-- An id belongs to one event. -/
theorem eq_of_distinct {events : List (Event EventImpl)}
    (distinct : events.Pairwise fun earlier later => earlier.key.uid ≠ later.key.uid)
    {ev other : Event EventImpl} (hev : ev ∈ events) (hother : other ∈ events)
    (huid : ev.key.uid = other.key.uid) : ev = other := by
  induction events with
  | nil => cases hev
  | cons head rest ih =>
      obtain ⟨hhead, hrest⟩ := List.pairwise_cons.mp distinct
      rcases List.mem_cons.mp hev with rfl | hev
      · rcases List.mem_cons.mp hother with rfl | hother
        · rfl
        · exact absurd huid (hhead other hother)
      · rcases List.mem_cons.mp hother with hsame | hother
        · exact absurd (hsame ▸ huid.symm) (hhead ev hev)
        · exact ih hrest hev hother

theorem Sorted.eq_of_uid {events : List (Event EventImpl)} (sorted : Sorted events)
    {ev other : Event EventImpl} (hev : ev ∈ events) (hother : other ∈ events)
    (huid : ev.key.uid = other.key.uid) : ev = other :=
  eq_of_distinct sorted.distinct hev hother huid

theorem Sorted.eq_of_rank {events : List (Event EventImpl)} (sorted : Sorted events)
    {ev other : Event EventImpl} (hev : ev ∈ events) (hother : other ∈ events)
    (hrank : ev.rank = other.rank) : ev = other :=
  sorted.eq_of_uid hev hother (EventKey.uid_eq_of_rank hrank)

theorem insert_perm (ev : Event EventImpl) (events : List (Event EventImpl)) :
    (insert ev events).Perm (ev :: events) := by
  induction events with
  | nil => exact List.Perm.refl _
  | cons head rest ih =>
      rw [insert]
      split
      · exact List.Perm.refl _
      · exact (ih.cons head).trans (List.Perm.swap ev head rest)

theorem insert_ordered {ev : Event EventImpl} {events : List (Event EventImpl)}
    (ordered : events.Pairwise fun earlier later => earlier.rank < later.rank)
    (fresh : ∀ stored ∈ events, stored.key.uid ≠ ev.key.uid) :
    (insert ev events).Pairwise fun earlier later => earlier.rank < later.rank := by
  induction events with
  | nil => exact List.pairwise_singleton _ _
  | cons head rest ih =>
      obtain ⟨hhead, hrest⟩ := List.pairwise_cons.mp ordered
      rw [insert]
      split
      next hless =>
        have hlt : ev.rank < head.rank := (EventKey.less_iff _ _).mp hless
        apply List.pairwise_cons.mpr
        refine ⟨?_, ordered⟩
        intro other hmem
        rcases List.mem_cons.mp hmem with rfl | hmem
        · exact hlt
        · exact hlt.trans (hhead other hmem)
      next hnot =>
        have hne : head.rank ≠ ev.rank := fun heq =>
          fresh head List.mem_cons_self (EventKey.uid_eq_of_rank heq)
        have hlt : head.rank < ev.rank :=
          lt_of_le_of_ne (not_lt.mp fun hless => hnot ((EventKey.less_iff _ _).mpr hless)) hne
        apply List.pairwise_cons.mpr
        refine ⟨?_, ih hrest fun stored hmem => fresh stored (List.mem_cons_of_mem _ hmem)⟩
        intro other hmem
        rcases List.mem_cons.mp ((insert_perm ev rest).mem_iff.mp hmem) with rfl | hmem
        · exact hlt
        · exact hhead other hmem

theorem Sorted.insert {ev : Event EventImpl} {events : List (Event EventImpl)}
    (sorted : Sorted events) (fresh : ∀ stored ∈ events, stored.key.uid ≠ ev.key.uid) :
    Sorted (insert ev events) := by
  refine ⟨insert_ordered sorted.ordered fresh, ?_⟩
  apply (insert_perm ev events).symm.pairwise
  · exact List.pairwise_cons.mpr ⟨fun stored hmem => (fresh stored hmem).symm, sorted.distinct⟩
  · exact fun hne => hne.symm

theorem Sorted.remove {events : List (Event EventImpl)} (sorted : Sorted events)
    (ev : Event EventImpl) : Sorted (remove ev events) :=
  ⟨sorted.ordered.sublist List.eraseP_sublist, sorted.distinct.sublist List.eraseP_sublist⟩

/-- Removing an id from events among which one has it removes that event. -/
theorem remove_perm_of_uid {ev : Event EventImpl} {events : List (Event EventImpl)}
    (honly : ∀ stored ∈ events, stored.key.uid = ev.key.uid → stored = ev) (hmem : ev ∈ events) :
    events.Perm (ev :: remove ev events) := by
  obtain ⟨found, before, after, hnot, hfound, hevents, herase⟩ :=
    @List.exists_of_eraseP _ (fun stored => decide (stored.key.uid = ev.key.uid)) events ev hmem
      (decide_eq_true rfl)
  have hsame : found = ev := by
    apply honly found _ (of_decide_eq_true hfound)
    rw [hevents]
    exact List.mem_append_right _ List.mem_cons_self
  rw [ListScheduler.remove, herase, hevents, hsame]
  exact List.perm_middle

theorem remove_perm {ev : Event EventImpl} {events : List (Event EventImpl)}
    (sorted : Sorted events) (hmem : ev ∈ events) : events.Perm (ev :: remove ev events) :=
  remove_perm_of_uid (fun _ hstored huid => sorted.eq_of_uid hstored hmem huid) hmem

/-! ## Runs of the sorted list -/

variable [DecidableEq EventImpl]

/-- One operation keeps the list sorted and changes its events by what it inserts and removes. -/
theorem Sorted.step {events next : List (Event EventImpl)} {op : QueueOp EventImpl}
    {returned : Option (Event EventImpl)} (sorted : Sorted events)
    (hstep : ListScheduler.step events op = some (next, returned)) :
    Sorted next ∧ (events ++ insertedBy [op]).Perm (next ++ removedBy [op] [returned]) := by
  cases op with
  | insert ev =>
      simp only [ListScheduler.step] at hstep
      split at hstep
      next => cases hstep
      next fresh =>
        obtain ⟨rfl, rfl⟩ := Prod.mk.inj (Option.some.inj hstep)
        refine ⟨sorted.insert fun other hmem heq => fresh ⟨other, hmem, heq⟩, ?_⟩
        rw [show removedBy [QueueOp.insert ev] [none] = [] from rfl, List.append_nil]
        exact (List.perm_append_singleton ev events).trans (insert_perm ev events).symm
  | remove ev =>
      simp only [ListScheduler.step] at hstep
      split at hstep
      next hmem =>
        obtain ⟨rfl, rfl⟩ := Prod.mk.inj (Option.some.inj hstep)
        refine ⟨sorted.remove ev, ?_⟩
        rw [show insertedBy [QueueOp.remove ev] = [] from rfl, List.append_nil]
        exact (remove_perm sorted hmem).trans (List.perm_append_singleton ev _).symm
      next => cases hstep
  | removeNext =>
      cases events with
      | nil => cases hstep
      | cons head rest =>
          obtain ⟨rfl, rfl⟩ := Prod.mk.inj (Option.some.inj hstep)
          refine ⟨sorted.tail, ?_⟩
          rw [show insertedBy [(QueueOp.removeNext : QueueOp EventImpl)] = [] from rfl,
            List.append_nil]
          exact (List.perm_append_singleton head rest).symm
  | peekNext =>
      cases events with
      | nil => cases hstep
      | cons head rest =>
          obtain ⟨rfl, rfl⟩ := Prod.mk.inj (Option.some.inj hstep)
          exact ⟨sorted, List.Perm.refl _⟩

end ListScheduler

theorem insertedBy_cons (op : QueueOp EventImpl) (rest : List (QueueOp EventImpl)) :
    insertedBy (op :: rest) = insertedBy [op] ++ insertedBy rest := by
  cases op <;> rfl

theorem removedBy_cons (op : QueueOp EventImpl) (rest : List (QueueOp EventImpl))
    (returned : Option (Event EventImpl)) (others : List (Option (Event EventImpl))) :
    removedBy (op :: rest) (returned :: others) =
      removedBy [op] [returned] ++ removedBy rest others := by
  cases op with
  | removeNext => cases returned <;> rfl
  | insert ev => rfl
  | remove ev => rfl
  | peekNext => rfl

section Runs

variable {State : Type} {step : QueueStep State EventImpl}

/-- Inversion of a nonempty run. -/
theorem runOps_cons {state last : State} {op : QueueOp EventImpl}
    {rest : List (QueueOp EventImpl)} {outputs : List (Option (Event EventImpl))}
    (hrun : runOps step state (op :: rest) = some (last, outputs)) :
    ∃ next returned others, step state op = some (next, returned) ∧
      runOps step next rest = some (last, others) ∧ outputs = returned :: others := by
  rw [runOps] at hrun
  cases hstep : step state op with
  | none =>
      rw [hstep] at hrun
      cases hrun
  | some result =>
      rw [hstep] at hrun
      obtain ⟨run, hrest, hout⟩ := Option.map_eq_some_iff.mp hrun
      obtain ⟨rfl, rfl⟩ := Prod.mk.inj hout
      exact ⟨result.1, result.2, run.2, rfl, hrest, rfl⟩

theorem runOps_of_step {state next last : State} {op : QueueOp EventImpl}
    {rest : List (QueueOp EventImpl)} {returned : Option (Event EventImpl)}
    {others : List (Option (Event EventImpl))} (hstep : step state op = some (next, returned))
    (hrest : runOps step next rest = some (last, others)) :
    runOps step state (op :: rest) = some (last, returned :: others) := by
  rw [runOps, hstep]
  simp only [hrest, Option.map_some]

/-- Every operation of a run meets a condition on the state before it. -/
def AllFit (step : QueueStep State EventImpl) (fits : State → QueueOp EventImpl → Prop)
    (state : State) : List (QueueOp EventImpl) → Prop
  | [] => True
  | op :: rest => fits state op ∧
      ∀ next returned, step state op = some (next, returned) → AllFit step fits next rest

instance AllFit.decidable {fits : State → QueueOp EventImpl → Prop}
    [∀ state op, Decidable (fits state op)] :
    ∀ state ops, Decidable (AllFit step fits state ops)
  | _, [] => .isTrue trivial
  | state, op :: rest =>
      match hstep : step state op with
      | none => decidable_of_iff (fits state op)
          ⟨fun hfits => ⟨hfits, fun _ _ hnext => by rw [hstep] at hnext; cases hnext⟩, And.left⟩
      | some (next, returned) =>
          have : Decidable (AllFit step fits next rest) := AllFit.decidable next rest
          decidable_of_iff (fits state op ∧ AllFit step fits next rest)
            ⟨fun hboth => ⟨hboth.1, fun other result hnext => by
                rw [hstep] at hnext
                obtain ⟨rfl, rfl⟩ := Prod.mk.inj (Option.some.inj hnext)
                exact hboth.2⟩,
              fun hall => ⟨hall.1, hall.2 next returned hstep⟩⟩

theorem allFit_true (ops : List (QueueOp EventImpl)) :
    ∀ state : State, AllFit step (fun _ _ => True) state ops := by
  induction ops with
  | nil => exact fun _ => trivial
  | cons op rest ih => exact fun _ => ⟨trivial, fun next _ _ => ih next⟩

/-- A queue that follows another in every step follows it in every run. -/
theorem runOps_follows {Spec : Type} {spec : QueueStep Spec EventImpl}
    {fits : State → QueueOp EventImpl → Prop} {rel : State → Spec → Prop}
    (hstep : ∀ {state abstract next op returned}, rel state abstract → fits state op →
      spec abstract op = some (next, returned) →
      ∃ state', step state op = some (state', returned) ∧ rel state' next)
    (ops : List (QueueOp EventImpl)) :
    ∀ {state abstract final outputs}, rel state abstract → AllFit step fits state ops →
      runOps spec abstract ops = some (final, outputs) →
      ∃ last, runOps step state ops = some (last, outputs) ∧ rel last final := by
  induction ops with
  | nil =>
      intro state abstract final outputs hrel _ hrun
      obtain ⟨rfl, rfl⟩ := Prod.mk.inj (Option.some.inj hrun)
      exact ⟨state, rfl, hrel⟩
  | cons op rest ih =>
      intro state abstract final outputs hrel hfits hrun
      obtain ⟨next, returned, others, hspec, hrest, rfl⟩ := runOps_cons hrun
      obtain ⟨state', hstate, hrel'⟩ := hstep hrel hfits.1 hspec
      obtain ⟨last, hlast, hfinal⟩ := ih hrel' (hfits.2 _ _ hstate) hrest
      exact ⟨last, runOps_of_step hstate hlast, hfinal⟩

/-- The sorted list holds what was inserted and not removed. -/
theorem listRun_balance [DecidableEq EventImpl] (ops : List (QueueOp EventImpl)) :
    ∀ {events stored : List (Event EventImpl)} {outputs}, ListScheduler.Sorted events →
      runOps ListScheduler.step events ops = some (stored, outputs) →
      ListScheduler.Sorted stored ∧
        (events ++ insertedBy ops).Perm (stored ++ removedBy ops outputs) := by
  induction ops with
  | nil =>
      intro events stored outputs sorted hrun
      obtain ⟨rfl, rfl⟩ := Prod.mk.inj (Option.some.inj hrun)
      exact ⟨sorted, List.Perm.refl _⟩
  | cons op rest ih =>
      intro events stored outputs sorted hrun
      obtain ⟨next, returned, others, hlist, hrest, rfl⟩ := runOps_cons hrun
      obtain ⟨hsorted, hperm⟩ := sorted.step hlist
      obtain ⟨hlast, hrestPerm⟩ := ih hsorted hrest
      refine ⟨hlast, ?_⟩
      rw [insertedBy_cons, removedBy_cons]
      calc (events ++ (insertedBy [op] ++ insertedBy rest)).Perm
            ((next ++ removedBy [op] [returned]) ++ insertedBy rest) := by
              rw [← List.append_assoc]
              exact hperm.append_right _
        _ |>.Perm ((next ++ insertedBy rest) ++ removedBy [op] [returned]) := by
              rw [List.append_assoc, List.append_assoc]
              exact List.perm_append_comm.append_left next
        _ |>.Perm ((stored ++ removedBy rest others) ++ removedBy [op] [returned]) :=
              hrestPerm.append_right _
        _ |>.Perm (stored ++ (removedBy [op] [returned] ++ removedBy rest others)) := by
              rw [List.append_assoc]
              exact List.perm_append_comm.append_left stored

end Runs

end DeepcV2x.Scheduler
