import Mathlib.Algebra.Order.Group.Defs
import Mathlib.Data.List.Nodup
import Mathlib.Data.List.Perm.Basic
import Mathlib.Tactic.Order

/-!
# Discrete-event simulation

Pending events are ordered by time and, at equal times, by the unique id they
received when they were scheduled.  A turn of the simulator takes the earliest
event, moves the clock to it and lets a handler change the world, schedule
further events or fault.  A stop event ends the run.
-/

namespace DeepcV2x.Foundation.EventQueue

/-- A queue entry calls an event or stops the simulator. -/
inductive Task (Event : Type*)
  | invoke (event : Event)
  | stop
  deriving DecidableEq, Repr

structure Pending (Time Event : Type*) where
  time : Time
  uid : Nat
  task : Task Event
  deriving DecidableEq, Repr

section Order

variable {Time Event : Type*} [LinearOrder Time]

/-- The key order: time first, scheduling order at equal times. -/
def Pending.Before (left right : Pending Time Event) : Prop :=
  left.time < right.time ∨ (left.time = right.time ∧ left.uid < right.uid)

instance (left right : Pending Time Event) : Decidable (left.Before right) :=
  inferInstanceAs (Decidable (_ ∨ _))

namespace Pending

theorem Before.time_le {left right : Pending Time Event} (before : left.Before right) :
    left.time ≤ right.time := by
  rcases before with earlier | ⟨same, -⟩
  · exact earlier.le
  · exact same.le

theorem Before.irrefl (pending : Pending Time Event) : ¬ pending.Before pending := by
  rintro (earlier | ⟨-, smaller⟩)
  · exact lt_irrefl _ earlier
  · exact Nat.lt_irrefl _ smaller

theorem Before.asymm {left right : Pending Time Event} (before : left.Before right) :
    ¬ right.Before left := by
  rintro (later | ⟨same, smaller⟩)
  · exact absurd before.time_le (not_le_of_gt later)
  · rcases before with earlier | ⟨-, larger⟩
    · exact absurd same (ne_of_gt earlier)
    · exact Nat.lt_asymm smaller larger

theorem Before.trans {first second third : Pending Time Event}
    (left : first.Before second) (right : second.Before third) : first.Before third := by
  rcases left with hleft | ⟨sameLeft, uidLeft⟩
  · exact Or.inl (lt_of_lt_of_le hleft right.time_le)
  · rcases right with hright | ⟨sameRight, uidRight⟩
    · exact Or.inl (sameLeft ▸ hright)
    · exact Or.inr ⟨sameLeft.trans sameRight, Nat.lt_trans uidLeft uidRight⟩

/-- Distinct ids make the key order total. -/
theorem before_of_not_before {left right : Pending Time Event}
    (distinct : left.uid ≠ right.uid) (hnot : ¬ right.Before left) : left.Before right := by
  rcases lt_trichotomy left.time right.time with earlier | same | later
  · exact Or.inl earlier
  · refine Or.inr ⟨same, ?_⟩
    by_contra hge
    exact hnot (Or.inr ⟨same.symm, by omega⟩)
  · exact absurd (Or.inl later) hnot

theorem not_before_trans {first second third : Pending Time Event}
    (left : ¬ first.Before second) (right : ¬ second.Before third) :
    ¬ first.Before third := by
  intro outer
  by_cases distinct : first.uid = second.uid
  · apply right
    rcases outer with earlier | ⟨same, smaller⟩
    · rcases lt_trichotomy first.time second.time with hlt | heq | hgt
      · exact absurd (Or.inl hlt) left
      · exact Or.inl (heq ▸ earlier)
      · exact Or.inl (hgt.trans earlier)
    · rcases lt_trichotomy first.time second.time with hlt | heq | hgt
      · exact absurd (Or.inl hlt) left
      · exact Or.inr ⟨heq.symm.trans same, distinct ▸ smaller⟩
      · exact Or.inl (same ▸ hgt)
  · exact right ((before_of_not_before (Ne.symm distinct) left).trans outer)

end Pending

/-- Split off an entry with the least key. -/
def popEarliest : List (Pending Time Event) →
    Option (Pending Time Event × List (Pending Time Event))
  | [] => none
  | head :: tail =>
      match popEarliest tail with
      | none => some (head, [])
      | some (least, others) =>
          if least.Before head then some (least, head :: others) else some (head, tail)

theorem popEarliest_eq_none_iff (queue : List (Pending Time Event)) :
    popEarliest queue = none ↔ queue = [] := by
  cases queue with
  | nil => simp [popEarliest]
  | cons head tail =>
      simp only [popEarliest]
      cases popEarliest tail with
      | none => simp
      | some found =>
          dsimp only
          split <;> simp

/-- The entry split off is in the queue and nothing left over comes before it. -/
theorem popEarliest_spec {queue others : List (Pending Time Event)}
    {least : Pending Time Event} (hpop : popEarliest queue = some (least, others)) :
    queue.Perm (least :: others) ∧ ∀ other ∈ others, ¬ other.Before least := by
  induction queue generalizing least others with
  | nil => simp [popEarliest] at hpop
  | cons head tail ih =>
      simp only [popEarliest] at hpop
      cases hrest : popEarliest tail with
      | none =>
          rw [hrest] at hpop
          obtain ⟨rfl, rfl⟩ := Prod.mk.inj (Option.some.inj hpop)
          rw [(popEarliest_eq_none_iff tail).mp hrest]
          exact ⟨List.Perm.refl _, by simp⟩
      | some found =>
          obtain ⟨inner, rest⟩ := found
          obtain ⟨hperm, hleast⟩ := ih hrest
          rw [hrest] at hpop
          dsimp only at hpop
          by_cases hbefore : inner.Before head
          · rw [if_pos hbefore] at hpop
            obtain ⟨rfl, rfl⟩ := Prod.mk.inj (Option.some.inj hpop)
            refine ⟨(hperm.cons head).trans (List.Perm.swap _ _ _), ?_⟩
            intro other hother
            rcases List.mem_cons.mp hother with rfl | hmem
            · exact hbefore.asymm
            · exact hleast other hmem
          · rw [if_neg hbefore] at hpop
            obtain ⟨rfl, rfl⟩ := Prod.mk.inj (Option.some.inj hpop)
            refine ⟨List.Perm.refl _, ?_⟩
            intro other hother
            rcases List.mem_cons.mp (hperm.mem_iff.mp hother) with rfl | hmem
            · exact hbefore
            · exact Pending.not_before_trans (hleast other hmem) hbefore

end Order

/-! ## The simulator -/

structure Simulator (Time Event World : Type*) where
  now : Time
  nextUid : Nat
  queue : List (Pending Time Event)
  stopped : Bool
  world : World

/-- The new world and the delayed follow-up events, or a fault that ends the program. -/
abbrev Handler (Time Event World Fault : Type*) :=
  Time → Event → World → Except Fault (World × List (Time × Event))

/-- The result of one turn. -/
inductive Turn (Time Event World Fault : Type*)
  | finished
  | faulted (fault : Fault)
  | next (sim : Simulator Time Event World)

section Simulation

variable {Time Event World Fault : Type*} [Add Time]

def schedule (sim : Simulator Time Event World) (delay : Time) (task : Task Event) :
    Simulator Time Event World :=
  { sim with
    queue := sim.queue ++ [⟨sim.now + delay, sim.nextUid, task⟩]
    nextUid := sim.nextUid + 1 }

def scheduleAll (sim : Simulator Time Event World) (follow : List (Time × Event)) :
    Simulator Time Event World :=
  follow.foldl (fun current entry => schedule current entry.1 (.invoke entry.2)) sim

@[simp]
theorem scheduleAll_nil (sim : Simulator Time Event World) : scheduleAll sim [] = sim := rfl

@[simp]
theorem scheduleAll_cons (sim : Simulator Time Event World) (entry : Time × Event)
    (follow : List (Time × Event)) :
    scheduleAll sim (entry :: follow) =
      scheduleAll (schedule sim entry.1 (.invoke entry.2)) follow := rfl

/-- The entries a list of delayed events becomes, with consecutive ids. -/
def entriesFrom (now : Time) : Nat → List (Time × Event) → List (Pending Time Event)
  | _, [] => []
  | uid, entry :: rest => ⟨now + entry.1, uid, .invoke entry.2⟩ :: entriesFrom now (uid + 1) rest

/-- Scheduling a list only appends its entries and moves the id counter. -/
theorem scheduleAll_eq (sim : Simulator Time Event World) (follow : List (Time × Event)) :
    scheduleAll sim follow =
      { sim with
        queue := sim.queue ++ entriesFrom sim.now sim.nextUid follow
        nextUid := sim.nextUid + follow.length } := by
  induction follow generalizing sim with
  | nil => simp [entriesFrom]
  | cons entry rest ih =>
      rw [scheduleAll_cons, ih]
      simp [schedule, entriesFrom, Nat.add_comm, Nat.add_left_comm]

theorem mem_entriesFrom {now : Time} {uid : Nat} {follow : List (Time × Event)}
    {entry : Pending Time Event} (hmem : entry ∈ entriesFrom now uid follow) :
    uid ≤ entry.uid ∧ entry.uid < uid + follow.length ∧
      ∃ source ∈ follow, entry.time = now + source.1 ∧ entry.task = .invoke source.2 := by
  induction follow generalizing uid with
  | nil => cases hmem
  | cons head rest ih =>
      rcases List.mem_cons.mp hmem with rfl | hrest
      · exact ⟨le_refl _, by simp, head, by simp, rfl, rfl⟩
      · obtain ⟨hlow, hhigh, source, hsource, htime, htask⟩ := ih hrest
        refine ⟨by omega, ?_, source, List.mem_cons_of_mem _ hsource, htime, htask⟩
        rw [List.length_cons]
        omega

theorem entriesFrom_complete {now : Time} {uid : Nat} {follow : List (Time × Event)}
    {source : Time × Event} (hmem : source ∈ follow) :
    ∃ entry ∈ entriesFrom now uid follow,
      entry.time = now + source.1 ∧ entry.task = .invoke source.2 := by
  induction follow generalizing uid with
  | nil => cases hmem
  | cons head rest ih =>
      rcases List.mem_cons.mp hmem with rfl | hrest
      · exact ⟨_, List.mem_cons_self, rfl, rfl⟩
      · obtain ⟨entry, hentry, same⟩ := @ih (uid + 1) hrest
        exact ⟨entry, List.mem_cons_of_mem _ hentry, same⟩

/-- Ids grow along the list, together with any rank of the events that does. -/
theorem entriesFrom_pairwise {now : Time} {uid : Nat} {follow : List (Time × Event)}
    (rank : Event → Nat)
    (hrank : follow.Pairwise fun left right => rank left.2 < rank right.2) :
    (entriesFrom now uid follow).Pairwise fun left right =>
      left.uid < right.uid ∧ ∀ first second, left.task = .invoke first →
        right.task = .invoke second → rank first < rank second := by
  induction follow generalizing uid with
  | nil => exact List.Pairwise.nil
  | cons head rest ih =>
      obtain ⟨hhead, hrest⟩ := List.pairwise_cons.mp hrank
      refine List.pairwise_cons.mpr ⟨?_, ih hrest⟩
      intro entry hentry
      obtain ⟨hlow, -, source, hsource, -, htask⟩ := mem_entriesFrom hentry
      refine ⟨Nat.lt_of_succ_le hlow, ?_⟩
      intro first second hfirst hsecond
      rw [htask] at hsecond
      cases hfirst
      cases hsecond
      exact hhead source hsource

/-- Two different entries are ordered one way or the other, ids and ranks alike. -/
theorem entriesFrom_ordered {now : Time} {uid : Nat} {follow : List (Time × Event)}
    (rank : Event → Nat)
    (hrank : follow.Pairwise fun left right => rank left.2 < rank right.2)
    {left right : Pending Time Event} (hleft : left ∈ entriesFrom now uid follow)
    (hright : right ∈ entriesFrom now uid follow) (hne : left ≠ right) :
    (left.uid < right.uid ∧ ∀ first second, left.task = .invoke first →
        right.task = .invoke second → rank first < rank second) ∨
      (right.uid < left.uid ∧ ∀ first second, right.task = .invoke first →
        left.task = .invoke second → rank first < rank second) := by
  have hpairs := List.pairwise_iff_getElem.mp
    (@entriesFrom_pairwise Time Event _ now uid follow rank hrank)
  obtain ⟨i, hi, rfl⟩ := List.getElem_of_mem hleft
  obtain ⟨j, hj, rfl⟩ := List.getElem_of_mem hright
  rcases lt_trichotomy i j with hlt | rfl | hgt
  · exact Or.inl (hpairs i j hi hj hlt)
  · exact absurd rfl hne
  · exact Or.inr (hpairs j i hj hi hgt)

/-- Consecutive ids are distinct. -/
theorem entriesFrom_distinct (now : Time) (uid : Nat) (follow : List (Time × Event)) :
    ((entriesFrom now uid follow).map Pending.uid).Nodup := by
  induction follow generalizing uid with
  | nil => exact List.nodup_nil
  | cons head rest ih =>
      refine List.nodup_cons.mpr ⟨?_, ih (uid + 1)⟩
      intro hmem
      obtain ⟨entry, hentry, same⟩ := List.mem_map.mp hmem
      have hlow := (mem_entriesFrom hentry).1
      rw [same] at hlow
      exact Nat.not_succ_le_self uid hlow

variable [LinearOrder Time] (handle : Handler Time Event World Fault)

def processOneEvent (sim : Simulator Time Event World) : Turn Time Event World Fault :=
  if sim.stopped then .finished
  else
    match popEarliest sim.queue with
    | none => .finished
    | some (least, others) =>
        let current := { sim with now := least.time, queue := others }
        match least.task with
        | .stop => .next { current with stopped := true }
        | .invoke event =>
            match handle least.time event sim.world with
            | .error fault => .faulted fault
            | .ok (world, follow) => .next (scheduleAll { current with world := world } follow)

/-- What a turn that continues can have done. -/
theorem processOneEvent_next {sim next : Simulator Time Event World}
    (hturn : processOneEvent handle sim = .next next) :
    sim.stopped = false ∧ ∃ least others, popEarliest sim.queue = some (least, others) ∧
      ((least.task = .stop ∧
          next = { sim with now := least.time, queue := others, stopped := true }) ∨
        ∃ event world follow, least.task = .invoke event ∧
          handle least.time event sim.world = .ok (world, follow) ∧
          next = scheduleAll
            { sim with now := least.time, queue := others, world := world } follow) := by
  unfold processOneEvent at hturn
  split at hturn
  · cases hturn
  next hrunning =>
    refine ⟨by simpa using hrunning, ?_⟩
    cases hpop : popEarliest sim.queue with
    | none =>
        rw [hpop] at hturn
        cases hturn
    | some found =>
        obtain ⟨least, others⟩ := found
        rw [hpop] at hturn
        refine ⟨least, others, rfl, ?_⟩
        cases htask : least.task with
        | stop =>
            simp only [htask] at hturn
            exact Or.inl ⟨rfl, (Turn.next.inj hturn).symm⟩
        | invoke event =>
            simp only [htask] at hturn
            cases hhandle : handle least.time event sim.world with
            | error fault =>
                simp only [hhandle] at hturn
                cases hturn
            | ok result =>
                obtain ⟨world, follow⟩ := result
                simp only [hhandle] at hturn
                exact Or.inr ⟨event, world, follow, rfl, hhandle, (Turn.next.inj hturn).symm⟩

/-- A turn faults only in the handler, on the earliest entry. -/
theorem processOneEvent_faulted {sim : Simulator Time Event World} {fault : Fault}
    (hturn : processOneEvent handle sim = .faulted fault) :
    sim.stopped = false ∧ ∃ least others event, popEarliest sim.queue = some (least, others) ∧
      least.task = .invoke event ∧ handle least.time event sim.world = .error fault := by
  unfold processOneEvent at hturn
  split at hturn
  · cases hturn
  next hrunning =>
    refine ⟨by simpa using hrunning, ?_⟩
    cases hpop : popEarliest sim.queue with
    | none =>
        rw [hpop] at hturn
        cases hturn
    | some found =>
        obtain ⟨least, others⟩ := found
        rw [hpop] at hturn
        cases htask : least.task with
        | stop =>
            simp only [htask] at hturn
            cases hturn
        | invoke event =>
            simp only [htask] at hturn
            cases hhandle : handle least.time event sim.world with
            | error found =>
                simp only [hhandle] at hturn
                obtain rfl := Turn.faulted.inj hturn
                exact ⟨least, others, event, rfl, htask, hhandle⟩
            | ok result =>
                simp only [hhandle] at hturn
                cases hturn

/-- A turn ends the run only after a stop or on an empty queue. -/
theorem processOneEvent_finished {sim : Simulator Time Event World}
    (hturn : processOneEvent handle sim = .finished) : sim.stopped = true ∨ sim.queue = [] := by
  unfold processOneEvent at hturn
  split at hturn
  next hstopped => exact Or.inl hstopped
  next =>
    cases hpop : popEarliest sim.queue with
    | none => exact Or.inr ((popEarliest_eq_none_iff _).mp hpop)
    | some found =>
        obtain ⟨least, others⟩ := found
        rw [hpop] at hturn
        cases htask : least.task with
        | stop =>
            simp only [htask] at hturn
            cases hturn
        | invoke event =>
            simp only [htask] at hturn
            cases hhandle : handle least.time event sim.world with
            | error fault =>
                simp only [hhandle] at hturn
                cases hturn
            | ok result =>
                simp only [hhandle] at hturn
                cases hturn

/-- States a run passes through. -/
inductive Reaches (start : Simulator Time Event World) : Simulator Time Event World → Prop
  | refl : Reaches start start
  | tail {sim next : Simulator Time Event World} :
      Reaches start sim → processOneEvent handle sim = .next next → Reaches start next

variable {handle}

/-- An invariant of the start that every turn preserves holds along the run. -/
theorem Reaches.invariant {start sim : Simulator Time Event World}
    (Invariant : Simulator Time Event World → Prop) (hstart : Invariant start)
    (hturn : ∀ current next, Invariant current →
      processOneEvent handle current = .next next → Invariant next)
    (reaches : Reaches handle start sim) : Invariant sim := by
  induction reaches with
  | refl => exact hstart
  | tail _ step ih => exact hturn _ _ ih step

theorem Reaches.trans {first second third : Simulator Time Event World}
    (left : Reaches handle first second) (right : Reaches handle second third) :
    Reaches handle first third := by
  induction right with
  | refl => exact left
  | tail _ step ih => exact .tail ih step

variable (handle) in
/-- A bounded number of turns; `none` when the run ends or faults before. -/
def runTurns : Nat → Simulator Time Event World → Option (Simulator Time Event World)
  | 0, sim => some sim
  | count + 1, sim =>
      match processOneEvent handle sim with
      | .next next => runTurns count next
      | .finished => none
      | .faulted _ => none

theorem reaches_of_runTurns {count : Nat} {start last : Simulator Time Event World}
    (hrun : runTurns handle count start = some last) : Reaches handle start last := by
  induction count generalizing start with
  | zero =>
      rw [← Option.some.inj hrun]
      exact .refl
  | succ count ih =>
      rw [runTurns] at hrun
      cases hturn : processOneEvent handle start with
      | finished =>
          rw [hturn] at hrun
          cases hrun
      | faulted fault =>
          rw [hturn] at hrun
          cases hrun
      | next next =>
          rw [hturn] at hrun
          exact Reaches.trans (.tail .refl hturn) (ih hrun)

end Simulation

/-! ## A fixed agenda

When no handler schedules anything, a run works through the entries present at
its start in key order, and every state is described by what is left of them.
-/

section Agenda

variable {Time Event World Fault : Type*}

/-- The handler never schedules. -/
def SchedulesNothing (handle : Handler Time Event World Fault) : Prop :=
  ∀ now event world next follow, handle now event world = .ok (next, follow) → follow = []

/-- Entries have distinct ids. -/
def DistinctUids (queue : List (Pending Time Event)) : Prop :=
  (queue.map Pending.uid).Nodup

theorem DistinctUids.uid_ne {queue : List (Pending Time Event)}
    (distinct : DistinctUids queue) {left right : Pending Time Event}
    (hleft : left ∈ queue) (hright : right ∈ queue) (hne : left ≠ right) :
    left.uid ≠ right.uid := by
  intro same
  exact hne (List.inj_on_of_nodup_map distinct hleft hright same)

variable [LinearOrder Time]

/-- How far a run has come through its agenda. -/
structure Progress (agenda : List (Pending Time Event))
    (sim : Simulator Time Event World) : Prop where
  sublist : ∀ entry ∈ sim.queue, entry ∈ agenda
  nodup : sim.queue.Nodup
  ordered : ∀ entry ∈ agenda, entry ∉ sim.queue →
    ∀ later ∈ sim.queue, entry.Before later
  past : ∀ entry ∈ agenda, entry ∉ sim.queue → entry.time ≤ sim.now
  future : ∀ later ∈ sim.queue, sim.now ≤ later.time

theorem Progress.start {sim : Simulator Time Event World}
    (distinct : DistinctUids sim.queue) (hnow : ∀ entry ∈ sim.queue, sim.now ≤ entry.time) :
    Progress sim.queue sim where
  sublist _ hmem := hmem
  nodup := List.Nodup.of_map _ distinct
  ordered _ hmem hnot := absurd hmem hnot
  past _ hmem hnot := absurd hmem hnot
  future := hnow

/-- Removing the earliest entry moves the progress forward by exactly that entry. -/
theorem Progress.advance {agenda : List (Pending Time Event)}
    {sim next : Simulator Time Event World} (distinct : DistinctUids agenda)
    (progress : Progress agenda sim) {least : Pending Time Event}
    {others : List (Pending Time Event)}
    (hpop : popEarliest sim.queue = some (least, others))
    (hqueue : next.queue = others) (hnow : next.now = least.time) :
    Progress agenda next := by
  obtain ⟨hperm, hleast⟩ := popEarliest_spec hpop
  have hnodup : (least :: others).Nodup := hperm.nodup_iff.mp progress.nodup
  have hin : ∀ entry ∈ others, entry ∈ sim.queue := fun entry hmem =>
    hperm.mem_iff.mpr (List.mem_cons_of_mem _ hmem)
  have hleastIn : least ∈ sim.queue := hperm.mem_iff.mpr List.mem_cons_self
  have hafter : ∀ entry ∈ others, least.Before entry := by
    intro entry hmem
    have hne : least ≠ entry := fun same => (List.nodup_cons.mp hnodup).1 (same ▸ hmem)
    exact Pending.before_of_not_before
      (distinct.uid_ne (progress.sublist _ hleastIn) (progress.sublist _ (hin entry hmem)) hne)
      (hleast entry hmem)
  have hgone : ∀ entry ∈ agenda, entry ∉ others → entry = least ∨ entry ∉ sim.queue := by
    intro entry _ hnot
    by_cases hmem : entry ∈ sim.queue
    · rcases List.mem_cons.mp (hperm.mem_iff.mp hmem) with same | hother
      · exact Or.inl same
      · exact absurd hother hnot
    · exact Or.inr hmem
  refine ⟨?_, ?_, ?_, ?_, ?_⟩
  · intro entry hmem
    exact progress.sublist entry (hin entry (hqueue ▸ hmem))
  · exact hqueue ▸ (List.nodup_cons.mp hnodup).2
  · intro entry hmem hnot later hlater
    rw [hqueue] at hnot hlater
    rcases hgone entry hmem hnot with rfl | hearlier
    · exact hafter later hlater
    · exact progress.ordered entry hmem hearlier later (hin later hlater)
  · intro entry hmem hnot
    rw [hqueue] at hnot
    rw [hnow]
    rcases hgone entry hmem hnot with rfl | hearlier
    · exact le_refl _
    · exact (progress.ordered entry hmem hearlier least hleastIn).time_le
  · intro later hlater
    rw [hnow]
    exact (hafter later (hqueue ▸ hlater)).time_le

variable [Add Time] {handle : Handler Time Event World Fault}

theorem Progress.step {agenda : List (Pending Time Event)}
    {sim next : Simulator Time Event World} (quiet : SchedulesNothing handle)
    (distinct : DistinctUids agenda) (progress : Progress agenda sim)
    (hturn : processOneEvent handle sim = .next next) : Progress agenda next := by
  obtain ⟨-, least, others, hpop, ⟨-, rfl⟩ | ⟨event, world, follow, -, hhandle, rfl⟩⟩ :=
    processOneEvent_next handle hturn
  · exact progress.advance distinct hpop rfl rfl
  · rw [quiet _ _ _ _ _ hhandle]
    exact progress.advance distinct hpop rfl rfl

/-- Every state of a run over a fixed agenda is a stage of that agenda. -/
theorem Reaches.progress {start sim : Simulator Time Event World}
    (quiet : SchedulesNothing handle) (distinct : DistinctUids start.queue)
    (hnow : ∀ entry ∈ start.queue, start.now ≤ entry.time)
    (reaches : Reaches handle start sim) : Progress start.queue sim :=
  reaches.invariant (Progress start.queue) (Progress.start distinct hnow)
    fun _ _ progress hturn => progress.step quiet distinct hturn

/--
A run over a fixed agenda that never faults works off any initial part of the
key order that contains no stop, or a stop only as its last entry.
-/
theorem exists_drained {start : Simulator Time Event World}
    (quiet : SchedulesNothing handle) (distinct : DistinctUids start.queue)
    (hstart : ∀ entry ∈ start.queue, start.now ≤ entry.time)
    (nofault : ∀ sim, Reaches handle start sim → ∀ fault,
      processOneEvent handle sim ≠ .faulted fault)
    (Early : Pending Time Event → Prop)
    (hdown : ∀ left right, ¬ right.Before left → Early right → Early left) :
    ∀ sim, Reaches handle start sim → sim.stopped = false →
      (∀ entry ∈ sim.queue, entry.task = .stop → ∀ other ∈ sim.queue,
        Early other → other ≠ entry → other.Before entry) →
      ∃ last, Reaches handle start last ∧ (∀ entry ∈ last.queue, ¬ Early entry) ∧
        (∀ entry ∈ sim.queue, ¬ Early entry → entry ∈ last.queue) ∧
        (last.now = sim.now ∨ ∃ entry ∈ sim.queue, Early entry ∧ last.now = entry.time) ∧
        (last.stopped = true → ∃ entry ∈ sim.queue, Early entry ∧ entry.task = .stop) := by
  intro sim
  induction hlength : sim.queue.length using Nat.strong_induction_on generalizing sim with
  | _ length ih =>
      intro hreach hrunning hstops
      cases hpop : popEarliest sim.queue with
      | none =>
          have hempty := (popEarliest_eq_none_iff _).mp hpop
          refine ⟨sim, hreach, ?_, fun _ hmem _ => hmem, Or.inl rfl, ?_⟩
          · intro entry hmem
            rw [hempty] at hmem
            cases hmem
          · intro hstopped
            rw [hrunning] at hstopped
            cases hstopped
      | some found =>
          obtain ⟨least, others⟩ := found
          obtain ⟨hperm, hleast⟩ := popEarliest_spec hpop
          have hnodup : (least :: others).Nodup :=
            hperm.nodup_iff.mp (hreach.progress quiet distinct hstart).nodup
          have hleastIn : least ∈ sim.queue := hperm.mem_iff.mpr List.mem_cons_self
          have hin : ∀ entry ∈ others, entry ∈ sim.queue := fun entry hmem =>
            hperm.mem_iff.mpr (List.mem_cons_of_mem _ hmem)
          by_cases hearly : Early least
          · have hkept : ∀ entry ∈ sim.queue, ¬ Early entry → entry ∈ others := by
              intro entry hmem hlate
              rcases List.mem_cons.mp (hperm.mem_iff.mp hmem) with rfl | hother
              · exact absurd hearly hlate
              · exact hother
            cases hturn : processOneEvent handle sim with
            | finished =>
                rcases processOneEvent_finished handle hturn with hstopped | hempty
                · rw [hrunning] at hstopped
                  cases hstopped
                · rw [hempty] at hleastIn
                  cases hleastIn
            | faulted fault => exact absurd hturn (nofault sim hreach fault)
            | next next =>
                obtain ⟨-, least', others', hpop', hcases⟩ := processOneEvent_next handle hturn
                obtain ⟨rfl, rfl⟩ := Prod.mk.inj (Option.some.inj (hpop.symm.trans hpop'))
                rcases hcases with ⟨hstop, rfl⟩ | ⟨event, world, follow, -, hhandle, rfl⟩
                · refine ⟨_, .tail hreach hturn, ?_, hkept, Or.inr ⟨least, hleastIn, hearly, rfl⟩,
                    fun _ => ⟨least, hleastIn, hearly, hstop⟩⟩
                  intro entry hmem hdue
                  have hne : entry ≠ least := by
                    rintro rfl
                    exact (List.nodup_cons.mp hnodup).1 hmem
                  exact hleast entry hmem (hstops least hleastIn hstop entry (hin entry hmem) hdue hne)
                · have hshort : others.length < length := by
                    rw [← hlength, hperm.length_eq]
                    exact Nat.lt_succ_self _
                  rw [quiet _ _ _ _ _ hhandle] at hturn
                  obtain ⟨last, hlast, hnone, hstay, hnow, hstopped⟩ :=
                    ih others.length hshort _ rfl (.tail hreach hturn) hrunning
                      fun entry hmem hstop other hother =>
                        hstops entry (hin entry hmem) hstop other (hin other hother)
                  refine ⟨last, hlast, hnone, ?_, Or.inr ?_, ?_⟩
                  · intro entry hmem hlate
                    exact hstay entry (hkept entry hmem hlate) hlate
                  · rcases hnow with same | ⟨entry, hmem, hdue, same⟩
                    · exact ⟨least, hleastIn, hearly, same⟩
                    · exact ⟨entry, hin entry hmem, hdue, same⟩
                  · intro hflag
                    obtain ⟨entry, hmem, hdue⟩ := hstopped hflag
                    exact ⟨entry, hin entry hmem, hdue⟩
          · refine ⟨sim, hreach, ?_, fun _ hmem _ => hmem, Or.inl rfl, ?_⟩
            · intro entry hmem hdue
              rcases List.mem_cons.mp (hperm.mem_iff.mp hmem) with rfl | hother
              · exact hearly hdue
              · exact hearly (hdown least entry (hleast entry hother) hdue)
            · intro hstopped
              rw [hrunning] at hstopped
              cases hstopped

/-- All events up to `time` have run and none beyond it. -/
def Settled (time : Time) (sim : Simulator Time Event World) : Prop :=
  sim.now ≤ time ∧ ∀ entry ∈ sim.queue, time < entry.time

/--
A run over a fixed agenda that never faults settles at every time from its start
on that the stop events do not cut off.
-/
theorem exists_settled {start : Simulator Time Event World}
    (quiet : SchedulesNothing handle) (distinct : DistinctUids start.queue)
    (hstart : ∀ entry ∈ start.queue, start.now ≤ entry.time)
    (nofault : ∀ sim, Reaches handle start sim → ∀ fault,
      processOneEvent handle sim ≠ .faulted fault)
    {time : Time} (hnow : start.now ≤ time) (hrunning : start.stopped = false)
    (hstops : ∀ entry ∈ start.queue, entry.task = .stop → ∀ other ∈ start.queue,
      other.time ≤ time → other ≠ entry → other.Before entry) :
    ∃ last, Reaches handle start last ∧ Settled time last := by
  have hdown : ∀ left right : Pending Time Event, ¬ right.Before left →
      right.time ≤ time → left.time ≤ time := by
    intro left right hnot hle
    by_contra hlate
    exact hnot (Or.inl (lt_of_le_of_lt hle (not_le.mp hlate)))
  obtain ⟨last, hreach, hnone, -, hlastNow, -⟩ :=
    exists_drained quiet distinct hstart nofault (fun entry => entry.time ≤ time) hdown
      start .refl hrunning hstops
  refine ⟨last, hreach, ?_, fun entry hmem => not_le.mp (hnone entry hmem)⟩
  rcases hlastNow with same | ⟨entry, -, hdue, same⟩
  · exact same ▸ hnow
  · exact same ▸ hdue

/-- Every entry of the agenda that no stop comes before gets its turn, unless a fault ends
the run. -/
theorem exists_turn {start : Simulator Time Event World}
    (quiet : SchedulesNothing handle) (distinct : DistinctUids start.queue)
    (hstart : ∀ entry ∈ start.queue, start.now ≤ entry.time)
    (nofault : ∀ sim, Reaches handle start sim → ∀ fault,
      processOneEvent handle sim ≠ .faulted fault)
    (hrunning : start.stopped = false) {entry : Pending Time Event}
    (hentry : entry ∈ start.queue)
    (hstops : ∀ other ∈ start.queue, other.task = .stop → ¬ other.Before entry) :
    ∃ last others, Reaches handle start last ∧ last.stopped = false ∧
      popEarliest last.queue = some (entry, others) := by
  have hdown : ∀ left right : Pending Time Event, ¬ right.Before left →
      right.Before entry → left.Before entry := by
    intro left right hnot hbefore
    by_contra hlate
    exact Pending.not_before_trans hnot hlate hbefore
  obtain ⟨last, hreach, hnone, hkept, -, hstopped⟩ :=
    exists_drained quiet distinct hstart nofault (fun other => other.Before entry) hdown
      start .refl hrunning
      fun stop hmem hstop other hother hbefore hne =>
        (Pending.before_of_not_before (distinct.uid_ne hother hmem hne) fun hback =>
          hstops stop hmem hstop (hback.trans hbefore))
  have hin : entry ∈ last.queue := hkept entry hentry (Pending.Before.irrefl entry)
  have hflag : last.stopped = false := by
    cases hvalue : last.stopped with
    | false => rfl
    | true =>
        obtain ⟨stop, hmem, hbefore, hstop⟩ := hstopped hvalue
        exact absurd hbefore (hstops stop hmem hstop)
  cases hpop : popEarliest last.queue with
  | none =>
      rw [(popEarliest_eq_none_iff _).mp hpop] at hin
      cases hin
  | some found =>
      obtain ⟨least, others⟩ := found
      obtain ⟨hperm, hleast⟩ := popEarliest_spec hpop
      have hleastIn : least ∈ last.queue := hperm.mem_iff.mpr List.mem_cons_self
      rcases List.mem_cons.mp (hperm.mem_iff.mp hin) with rfl | hother
      · exact ⟨last, others, hreach, hflag, hpop⟩
      · have progress := hreach.progress quiet distinct hstart
        have hne : least ≠ entry := by
          rintro rfl
          exact (List.nodup_cons.mp (hperm.nodup_iff.mp progress.nodup)).1 hother
        have hbefore := Pending.before_of_not_before
          (distinct.uid_ne (progress.sublist _ hleastIn) hentry hne) (hleast entry hother)
        exact absurd hbefore (hnone least hleastIn)

end Agenda

end DeepcV2x.Foundation.EventQueue
