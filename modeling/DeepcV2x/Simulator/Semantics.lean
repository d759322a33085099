import DeepcV2x.Simulator.SimulatorImpl

/-!
# Event semantics

What every program sees of its events: each is notified once, at its time and in
its context, in the order of the keys, unless it is cancelled or removed before;
and an id is expired exactly when one of these has happened.
-/

namespace DeepcV2x.Simulator

theorem toInt32_add (value delta : Int) : toInt32 (toInt32 value + delta) = toInt32 (value + delta) :=
  Int.bmod_add_bmod

theorem EventId.Less.asymm {left right : EventId} (less : left.Less right) : ¬ right.Less left := by
  simp only [EventId.Less] at *
  omega

theorem EventId.less_of_not {left right : EventId} (hnot : ¬ right.Less left)
    (hne : left.uid ≠ right.uid) : left.Less right := by
  simp only [EventId.Less] at *
  omega

namespace DefaultSimulatorImpl

/-- An event comes behind the current one. -/
def Ahead (simulator : DefaultSimulatorImpl) (id : EventId) : Prop :=
  simulator.currentTs < id.ts ∨ (simulator.currentTs = id.ts ∧ simulator.currentUid < id.uid)

theorem isCancelled_setCancel {simulator : DefaultSimulatorImpl} {id other : EventId} :
    (simulator.setCancel id).IsCancelled other ↔
      simulator.IsCancelled other ∨ (other.impl ≠ none ∧ id.impl = other.impl) := by
  simp only [IsCancelled, setCancel]
  cases hid : id.impl with
  | none =>
      rw [Option.toList_none, List.nil_append]
      constructor
      · exact Or.inl
      · rintro (hold | ⟨hsome, hnone⟩)
        · exact hold
        · exact absurd hnone.symm hsome
  | some impl =>
      rw [Option.toList_some]
      constructor
      · rintro ⟨found, hmem, hfound⟩
        rcases List.mem_cons.mp hmem with rfl | hmem
        · exact Or.inr ⟨by rw [hfound]; exact Option.some_ne_none _, hfound.symm⟩
        · exact Or.inl ⟨found, hmem, hfound⟩
      · rintro (⟨found, hmem, hfound⟩ | ⟨-, hsame⟩)
        · exact ⟨found, List.mem_cons_of_mem _ hmem, hfound⟩
        · exact ⟨impl, List.mem_cons_self, hsame.symm⟩

theorem insert_some {simulator : DefaultSimulatorImpl} {context : Nat} {delay : Int} {impl : Nat}
    {result : DefaultSimulatorImpl × EventId}
    (hinsert : simulator.insert context delay impl = some result) :
    ∃ id : EventId,
      result =
        ({ simulator with
          uid := (simulator.uid + 1) % 4294967296
          unscheduledEvents := toInt32 (simulator.unscheduledEvents + 1)
          events := id :: simulator.events }, id) ∧
      id.impl = some impl ∧ id.uid = simulator.uid ∧ (id.ts : Int) = simulator.currentTs + delay := by
  rw [insert] at hinsert
  split at hinsert
  next hrange =>
    obtain rfl := (Option.some.inj hinsert).symm
    exact ⟨_, rfl, rfl, rfl, Int.toNat_of_nonneg hrange.1⟩
  next => cases hinsert

end DefaultSimulatorImpl

open DefaultSimulatorImpl

/-- A queue that is not empty has an event with the least key. -/
theorem exists_least {simulator : DefaultSimulatorImpl} (hne : simulator.events ≠ []) :
    ∃ id, simulator.Least id := by
  have hleast : ∀ events : List EventId, events ≠ [] →
      ∃ id ∈ events, ∀ other ∈ events, ¬ other.Less id := by
    intro events
    induction events with
    | nil => exact fun hne => absurd rfl hne
    | cons first rest ih =>
        intro _
        by_cases hnil : rest = []
        · refine ⟨first, List.mem_cons_self, fun other hmem => ?_⟩
          rw [hnil] at hmem
          rw [List.mem_singleton.mp hmem]
          exact fun hless => hless.asymm hless
        · obtain ⟨id, hid, hbest⟩ := ih hnil
          by_cases hless : first.Less id
          · refine ⟨first, List.mem_cons_self, fun other hmem => ?_⟩
            rcases List.mem_cons.mp hmem with rfl | hmem
            · exact fun hself => hself.asymm hself
            · have := hbest other hmem
              simp only [EventId.Less] at *
              omega
          · refine ⟨id, List.mem_cons_of_mem _ hid, fun other hmem => ?_⟩
            rcases List.mem_cons.mp hmem with rfl | hmem
            · exact hless
            · exact hbest other hmem
  exact hleast simulator.events hne

/-! ## The invariant -/

/-- What holds of a program until its ids wrap. -/
structure Lawful (program : Program) : Prop where
  uid : program.simulator.uid = (4 + program.scheduled.length) % 4294967296
  numbered : ∀ id ∈ program.scheduled,
    4 ≤ id.uid ∧ id.impl = some (id.uid - 4) ∧ id.uid < 4 + program.scheduled.length
  distinct : program.scheduled.Pairwise fun earlier later => earlier.uid < later.uid
  queued : ∀ id ∈ program.simulator.events, id ∈ program.scheduled
  nodup : program.simulator.events.Nodup
  given : ∀ id ∈ program.ids, id ∈ program.scheduled
  ahead : ∀ id ∈ program.simulator.events,
    program.simulator.Ahead id ∨ id.ts < program.simulator.currentTs
  givenAhead : ∀ id ∈ program.ids, id ∈ program.simulator.events → program.simulator.Ahead id
  currentUid : program.simulator.currentUid < 4 + program.scheduled.length
  notified : ∀ notified ∈ program.notified,
    notified.id ∈ program.scheduled ∧ notified.id ∉ program.simulator.events ∧
      ¬ program.simulator.Ahead notified.id ∧ ¬ program.simulator.IsCancelled notified.id
  timely : ∀ notified ∈ program.notified,
    notified.now = notified.id.ts ∧ notified.context = notified.id.context
  ordered : program.notified.Pairwise fun earlier later => earlier.id.Less later.id
  accounted : ∀ id ∈ program.scheduled, id ∉ program.simulator.events →
    ¬ program.simulator.IsCancelled id → ∃ notified ∈ program.notified, notified.id = id
  struck : ∀ id ∈ program.scheduled, program.simulator.IsCancelled id ↔ id ∈ program.struck
  known : ∀ id ∈ program.struck, id ∈ program.scheduled
  made : ∀ impl ∈ program.simulator.cancelled, impl < program.scheduled.length
  unscheduled : program.simulator.unscheduledEvents = toInt32 program.simulator.events.length

theorem eq_of_uid {scheduled : List EventId}
    (distinct : scheduled.Pairwise fun earlier later => earlier.uid < later.uid) {id other : EventId}
    (hid : id ∈ scheduled) (hother : other ∈ scheduled) (huid : id.uid = other.uid) : id = other := by
  induction distinct with
  | nil => exact absurd hid List.not_mem_nil
  | cons hfirst _ ih =>
      rcases List.mem_cons.mp hid with rfl | hrest
      · rcases List.mem_cons.mp hother with rfl | hbehind
        · rfl
        · exact absurd huid (Nat.ne_of_lt (hfirst other hbehind))
      · rcases List.mem_cons.mp hother with rfl | hbehind
        · exact absurd huid.symm (Nat.ne_of_lt (hfirst id hrest))
        · exact ih hrest hbehind

namespace Lawful

variable {program next : Program}

theorem eq_of_uid (lawful : Lawful program) {id other : EventId} (hid : id ∈ program.scheduled)
    (hother : other ∈ program.scheduled) (huid : id.uid = other.uid) : id = other :=
  DeepcV2x.Simulator.eq_of_uid lawful.distinct hid hother huid

theorem start : Lawful {} where
  uid := rfl
  numbered := fun _ hmem => absurd hmem List.not_mem_nil
  distinct := List.Pairwise.nil
  queued := fun _ hmem => absurd hmem List.not_mem_nil
  nodup := List.nodup_nil
  given := fun _ hmem => absurd hmem List.not_mem_nil
  ahead := fun _ hmem => absurd hmem List.not_mem_nil
  givenAhead := fun _ hmem => absurd hmem List.not_mem_nil
  currentUid := by decide
  notified := fun _ hmem => absurd hmem List.not_mem_nil
  timely := fun _ hmem => absurd hmem List.not_mem_nil
  ordered := List.Pairwise.nil
  accounted := fun _ hmem => absurd hmem List.not_mem_nil
  struck := fun _ hmem => absurd hmem List.not_mem_nil
  known := fun _ hmem => absurd hmem List.not_mem_nil
  made := fun _ hmem => absurd hmem List.not_mem_nil
  unscheduled := by decide

/-- The phase and the stop flag do not matter. -/
theorem withPhase (lawful : Lawful program) (phase : Phase) (stop : Bool) :
    Lawful { program with
      phase := phase
      simulator := { program.simulator with stop := stop } } :=
  ⟨lawful.uid, lawful.numbered, lawful.distinct, lawful.queued, lawful.nodup, lawful.given, lawful.ahead,
    lawful.givenAhead, lawful.currentUid, lawful.notified, lawful.timely, lawful.ordered,
    lawful.accounted, lawful.struck, lawful.known, lawful.made, lawful.unscheduled⟩

/-- An event that is scheduled gets the next id. -/
theorem place (lawful : Lawful program) (hfew : program.scheduled.length < 4294967292)
    {context : Nat} {delay : Int} {hasId : Bool} {result : DefaultSimulatorImpl × EventId}
    (hdelay : hasId = true → 0 ≤ delay)
    (hinsert : program.simulator.insert context delay program.scheduled.length = some result) :
    Lawful (program.place hasId result) := by
  have huid := lawful.uid
  have hsmall : program.simulator.uid = 4 + program.scheduled.length := by
    rw [huid]
    omega
  obtain ⟨id, rfl, hidImpl, hidUid, hidTs⟩ := insert_some hinsert
  rw [hsmall] at hidUid
  have hlength : (program.scheduled ++ [id]).length = program.scheduled.length + 1 :=
    List.length_append
  have hnew : id ∉ program.scheduled := fun hmem => by
    have := (lawful.numbered id hmem).2.2
    omega
  have haheadNew : 0 ≤ delay → program.simulator.Ahead id := fun hnonneg => by
    have := lawful.currentUid
    simp only [Ahead]
    omega
  constructor
  · show (program.simulator.uid + 1) % 4294967296 = (4 + (program.scheduled ++ [id]).length) % 4294967296
    rw [hlength, hsmall]
    omega
  · intro other hmem
    show 4 ≤ other.uid ∧ _ ∧ other.uid < 4 + (program.scheduled ++ [id]).length
    rw [hlength]
    rcases List.mem_append.mp hmem with hmem | hmem
    · obtain ⟨hge, himpl, hlt⟩ := lawful.numbered other hmem
      exact ⟨hge, himpl, by omega⟩
    · obtain rfl : other = id := List.mem_singleton.mp hmem
      refine ⟨by omega, ?_, by omega⟩
      rw [hidImpl, hidUid]
      congr 1
      omega
  · refine List.pairwise_append.mpr ⟨lawful.distinct, List.pairwise_singleton .., ?_⟩
    intro other hmem behind hbehind
    obtain rfl : behind = id := List.mem_singleton.mp hbehind
    have := (lawful.numbered other hmem).2.2
    omega
  · intro other hmem
    rcases List.mem_cons.mp hmem with rfl | hmem
    · exact List.mem_append_right _ (List.mem_singleton_self _)
    · exact List.mem_append_left _ (lawful.queued other hmem)
  · exact List.nodup_cons.mpr ⟨fun hmem => hnew (lawful.queued id hmem), lawful.nodup⟩
  · intro other hmem
    have hold : other ∈ program.ids → other ∈ program.scheduled ++ [id] :=
      fun hmem => List.mem_append_left _ (lawful.given other hmem)
    cases hasId with
    | false => exact hold hmem
    | true =>
        rcases List.mem_cons.mp hmem with rfl | hmem
        · exact List.mem_append_right _ (List.mem_singleton_self _)
        · exact hold hmem
  · intro other hmem
    rcases List.mem_cons.mp hmem with rfl | hmem
    · rcases Int.lt_or_le delay 0 with hneg | hnonneg
      · refine Or.inr ?_
        show other.ts < program.simulator.currentTs
        omega
      · exact Or.inl (haheadNew hnonneg)
    · exact lawful.ahead other hmem
  · intro other hgiven hmem
    have hold : other ∈ program.ids → program.simulator.Ahead other := fun hids => by
      refine lawful.givenAhead other hids ?_
      rcases List.mem_cons.mp hmem with heq | hold
      · exact absurd (heq ▸ lawful.given other hids) hnew
      · exact hold
    cases hasId with
    | false => exact hold hgiven
    | true =>
        rcases List.mem_cons.mp hgiven with rfl | hgiven
        · exact haheadNew (hdelay rfl)
        · exact hold hgiven
  · show program.simulator.currentUid < 4 + (program.scheduled ++ [id]).length
    have := lawful.currentUid
    omega
  · intro notified hmem
    obtain ⟨hscheduled, hqueued, hahead, hcancelled⟩ := lawful.notified notified hmem
    refine ⟨List.mem_append_left _ hscheduled, ?_, hahead, hcancelled⟩
    rintro (_ | ⟨_, hmem⟩)
    · exact hnew hscheduled
    · exact hqueued hmem
  · exact lawful.timely
  · exact lawful.ordered
  · intro other hmem hqueued hcancelled
    rcases List.mem_append.mp hmem with hmem | hmem
    · exact lawful.accounted other hmem (fun hold => hqueued (List.mem_cons_of_mem _ hold)) hcancelled
    · obtain rfl : other = id := List.mem_singleton.mp hmem
      exact absurd List.mem_cons_self hqueued
  · intro other hmem
    rcases List.mem_append.mp hmem with hmem | hmem
    · exact lawful.struck other hmem
    · obtain rfl : other = id := List.mem_singleton.mp hmem
      refine ⟨?_, fun hstruck => absurd (lawful.known other hstruck) hnew⟩
      rintro ⟨impl, hcancelled, himpl⟩
      have := lawful.made impl hcancelled
      have := Option.some.inj (himpl.symm.trans hidImpl)
      omega
  · exact fun other hstruck => List.mem_append_left _ (lawful.known other hstruck)
  · intro impl hcancelled
    show impl < (program.scheduled ++ [id]).length
    have := lawful.made impl hcancelled
    omega
  · show toInt32 (program.simulator.unscheduledEvents + 1) =
      toInt32 (id :: program.simulator.events).length
    rw [lawful.unscheduled, toInt32_add, List.length_cons, Int.natCast_add]
    rfl

/-- An id is expired when its event has left the queue or is cancelled. -/
theorem expired_iff (lawful : Lawful program) {id : EventId} (hid : id ∈ program.ids) :
    program.simulator.IsExpired id ↔
      id ∉ program.simulator.events ∨ program.simulator.IsCancelled id := by
  obtain ⟨hge, himpl, -⟩ := lawful.numbered id (lawful.given id hid)
  rw [IsExpired, if_neg (by omega)]
  constructor
  · rintro (hnone | hbefore | hsame | hcancelled)
    · exact absurd (himpl.symm.trans hnone) (Option.some_ne_none _)
    · refine Or.inl fun hmem => ?_
      have := lawful.givenAhead id hid hmem
      simp only [Ahead] at this
      omega
    · refine Or.inl fun hmem => ?_
      have := lawful.givenAhead id hid hmem
      simp only [Ahead] at this
      omega
    · exact Or.inr hcancelled
  · rintro (hmem | hcancelled)
    · by_cases hcancelled : program.simulator.IsCancelled id
      · exact Or.inr (Or.inr (Or.inr hcancelled))
      · obtain ⟨notified, hnotified, rfl⟩ := lawful.accounted id (lawful.given id hid) hmem hcancelled
        have := (lawful.notified notified hnotified).2.2.1
        simp only [Ahead] at this
        omega
    · exact Or.inr (Or.inr (Or.inr hcancelled))

/-- A queued event is cancelled, and may leave the queue. -/
theorem strikeQueued (lawful : Lawful program) {id : EventId} (hid : id ∈ program.simulator.events)
    {events : List EventId} {unscheduledEvents : Int}
    (hsub : ∀ other ∈ events, other ∈ program.simulator.events) (hnodup : events.Nodup)
    (hkeep : ∀ other ∈ program.simulator.events, other ≠ id → other ∈ events)
    (hcount : unscheduledEvents = toInt32 events.length) :
    Lawful { program with
      simulator := { program.simulator with
        events := events
        unscheduledEvents := unscheduledEvents }.setCancel id
      struck := id :: program.struck } := by
  have hscheduled := lawful.queued id hid
  obtain ⟨hge, himpl, hlt⟩ := lawful.numbered id hscheduled
  have hcancelled : ∀ other ∈ program.scheduled,
      ({ program.simulator with
        events := events
        unscheduledEvents := unscheduledEvents }.setCancel id).IsCancelled other ↔
          program.simulator.IsCancelled other ∨ other = id := by
    intro other hother
    obtain ⟨hotherGe, hotherImpl, -⟩ := lawful.numbered other hother
    rw [isCancelled_setCancel]
    refine or_congr Iff.rfl ⟨fun hsame => ?_, fun heq => ?_⟩
    · have huid := Option.some.inj (himpl.symm.trans (hsame.2.trans hotherImpl))
      exact lawful.eq_of_uid hother hscheduled (by omega)
    · rw [heq]
      exact ⟨by rw [himpl]; exact Option.some_ne_none _, rfl⟩
  constructor
  · exact lawful.uid
  · exact lawful.numbered
  · exact lawful.distinct
  · exact fun other hmem => lawful.queued other (hsub other hmem)
  · exact hnodup
  · exact lawful.given
  · exact fun other hmem => lawful.ahead other (hsub other hmem)
  · exact fun other hgiven hmem => lawful.givenAhead other hgiven (hsub other hmem)
  · exact lawful.currentUid
  · intro notified hmem
    obtain ⟨hplace, hqueued, hahead, hnot⟩ := lawful.notified notified hmem
    refine ⟨hplace, fun hin => hqueued (hsub _ hin), hahead, fun hin => ?_⟩
    rcases (hcancelled notified.id hplace).mp hin with hold | heq
    · exact hnot hold
    · exact hqueued (heq ▸ hid)
  · exact lawful.timely
  · exact lawful.ordered
  · intro other hother hqueued hnot
    have hnew := fun hin => hnot ((hcancelled other hother).mpr hin)
    exact lawful.accounted other hother
      (fun hin => hqueued (hkeep other hin fun heq => hnew (Or.inr heq))) fun hin => hnew (Or.inl hin)
  · intro other hother
    rw [hcancelled other hother, lawful.struck other hother, List.mem_cons, or_comm]
  · intro other hmem
    rcases List.mem_cons.mp hmem with rfl | hmem
    · exact hscheduled
    · exact lawful.known other hmem
  · intro impl hmem
    rcases List.mem_append.mp hmem with hmem | hmem
    · rw [himpl] at hmem
      rw [List.mem_singleton.mp hmem]
      show id.uid - 4 < program.scheduled.length
      omega
    · exact lawful.made impl hmem
  · exact hcount

/-- Striking an event that is cancelled already or has left the queue changes nothing. -/
theorem strikeAgain (lawful : Lawful program) {id : EventId}
    (hold : id ∉ program.simulator.events ∨ program.simulator.IsCancelled id) :
    Lawful (program.strike id program.simulator) := by
  have hstruck : ∀ other ∈ program.scheduled, other ∈ program.struck ↔
      other ∈ (program.strike id program.simulator).struck := by
    intro other hother
    rw [Program.strike]
    split
    next hmem =>
      refine ⟨List.mem_cons_of_mem _, fun hin => ?_⟩
      rcases List.mem_cons.mp hin with rfl | hin
      · exact (lawful.struck other hother).mp (hold.resolve_left fun hnot => hnot hmem)
      · exact hin
    next => exact Iff.rfl
  have hknown : ∀ other ∈ (program.strike id program.simulator).struck,
      other ∈ program.scheduled := by
    intro other hmem
    rw [Program.strike] at hmem
    split at hmem
    next hqueued =>
      rcases List.mem_cons.mp hmem with rfl | hmem
      · exact lawful.queued other hqueued
      · exact lawful.known other hmem
    next => exact lawful.known other hmem
  exact ⟨lawful.uid, lawful.numbered, lawful.distinct, lawful.queued, lawful.nodup, lawful.given,
    lawful.ahead, lawful.givenAhead, lawful.currentUid, lawful.notified, lawful.timely, lawful.ordered,
    lawful.accounted, fun other hother => (lawful.struck other hother).trans (hstruck other hother),
    hknown, lawful.made, lawful.unscheduled⟩

theorem cancel (lawful : Lawful program) {id : EventId} (hid : id ∈ program.ids) :
    Lawful (program.strike id (program.simulator.cancel id)) := by
  rw [DefaultSimulatorImpl.cancel]
  split
  next hexpired => exact lawful.strikeAgain ((lawful.expired_iff hid).mp hexpired)
  next hpending =>
    have hmem : id ∈ program.simulator.events :=
      Decidable.of_not_not fun hnot => hpending ((lawful.expired_iff hid).mpr (Or.inl hnot))
    rw [Program.strike, if_pos hmem]
    exact lawful.strikeQueued hmem (fun _ hin => hin) lawful.nodup (fun _ hin _ => hin)
      lawful.unscheduled

theorem remove (lawful : Lawful program) {id : EventId} (hid : id ∈ program.ids)
    {simulator : DefaultSimulatorImpl} (hremove : program.simulator.remove id = some simulator) :
    Lawful (program.strike id simulator) := by
  have hge := (lawful.numbered id (lawful.given id hid)).1
  rw [DefaultSimulatorImpl.remove, if_neg (by omega)] at hremove
  split at hremove
  next hexpired =>
    cases hremove
    exact lawful.strikeAgain ((lawful.expired_iff hid).mp hexpired)
  next =>
    split at hremove
    next hmem =>
      cases hremove
      rw [Program.strike, if_pos hmem]
      refine lawful.strikeQueued hmem (fun _ hin => List.mem_of_mem_erase hin)
        (lawful.nodup.erase id) (fun other hin hne => (List.mem_erase_of_ne hne).mpr hin) ?_
      have hpos := List.length_pos_of_mem hmem
      rw [lawful.unscheduled, List.length_erase_of_mem hmem, Int.sub_eq_add_neg, toInt32_add]
      congr 1
      omega
    next => cases hremove

/-- The events behind the least one have greater keys. -/
theorem least_less (lawful : Lawful program) {id : EventId} (hleast : program.simulator.Least id) :
    ∀ other ∈ program.simulator.events.erase id, id.Less other := by
  intro other hother
  have hin := List.mem_of_mem_erase hother
  refine EventId.less_of_not (hleast.2 other hin) fun huid => ?_
  have heq := lawful.eq_of_uid (lawful.queued id hleast.1) (lawful.queued other hin) huid
  exact (List.Nodup.mem_erase_iff lawful.nodup).mp hother |>.1 heq.symm

/-- One turn of the loop. -/
theorem turn (lawful : Lawful program) {id : EventId} (hturn : program.turn id = some next) :
    Lawful next := by
  obtain ⟨simulator, hprocess, rfl⟩ := Option.map_eq_some_iff.mp hturn
  rw [processOneEvent] at hprocess
  split at hprocess
  next hguard =>
    obtain ⟨⟨hmem, hleast⟩, htime⟩ := hguard
    cases hprocess
    have hscheduled := lawful.queued id hmem
    obtain ⟨hge, himpl, hlt⟩ := lawful.numbered id hscheduled
    have hahead : program.simulator.Ahead id :=
      (lawful.ahead id hmem).resolve_right (Nat.not_lt_of_le htime)
    have hothers := lawful.least_less ⟨hmem, hleast⟩
    have hpast : ∀ notified ∈ program.notified, notified.id.Less id := by
      intro notified hnotified
      have := (lawful.notified notified hnotified).2.2.1
      simp only [Ahead, EventId.Less] at *
      omega
    have hcount : toInt32 (program.simulator.unscheduledEvents - 1) =
        toInt32 (program.simulator.events.erase id).length := by
      have hpos := List.length_pos_of_mem hmem
      rw [lawful.unscheduled, List.length_erase_of_mem hmem, Int.sub_eq_add_neg, toInt32_add]
      congr 1
      omega
    have hkeeps : ∀ notified ∈ program.notified, notified.id ∈ program.scheduled ∧
        notified.id ∉ program.simulator.events.erase id ∧ ¬ id.Less notified.id ∧
        ¬ program.simulator.IsCancelled notified.id := by
      intro notified hnotified
      obtain ⟨hplace, hqueued, -, hnot⟩ := lawful.notified notified hnotified
      exact ⟨hplace, fun hin => hqueued (List.mem_of_mem_erase hin),
        (hpast notified hnotified).asymm, hnot⟩
    split
    next hskipped =>
      have hcancelled : program.simulator.IsCancelled id := hskipped
      have haccounted : ∀ other ∈ program.scheduled, other ∉ program.simulator.events.erase id →
          ¬ program.simulator.IsCancelled other → ∃ notified ∈ program.notified, notified.id = other :=
        fun other hother hqueued hnot => lawful.accounted other hother (fun hin =>
          hqueued ((List.mem_erase_of_ne fun heq : other = id => hnot (heq.symm ▸ hcancelled)).mpr hin)) hnot
      exact ⟨lawful.uid, lawful.numbered, lawful.distinct,
        fun other hin => lawful.queued other (List.mem_of_mem_erase hin), lawful.nodup.erase id,
        lawful.given, fun other hin => Or.inl (hothers other hin), fun other _ hin => hothers other hin,
        hlt, hkeeps, lawful.timely, lawful.ordered, haccounted, lawful.struck, lawful.known, lawful.made,
        hcount⟩
    next hlive =>
      have hirrefl : ¬ id.Less id := fun hless => hless.asymm hless
      have hself : id ∉ program.simulator.events.erase id := fun hin =>
        (List.Nodup.mem_erase_iff lawful.nodup).mp hin |>.1 rfl
      constructor
      · exact lawful.uid
      · exact lawful.numbered
      · exact lawful.distinct
      · exact fun other hin => lawful.queued other (List.mem_of_mem_erase hin)
      · exact lawful.nodup.erase id
      · exact lawful.given
      · exact fun other hin => Or.inl (hothers other hin)
      · exact fun other _ hin => hothers other hin
      · exact hlt
      · intro notified hnotified
        rcases List.mem_append.mp hnotified with hold | hnew
        · exact hkeeps notified hold
        · rw [List.mem_singleton.mp hnew]
          exact ⟨hscheduled, hself, hirrefl, hlive⟩
      · intro notified hnotified
        rcases List.mem_append.mp hnotified with hold | hnew
        · exact lawful.timely notified hold
        · rw [List.mem_singleton.mp hnew]
          exact ⟨rfl, rfl⟩
      · refine List.pairwise_append.mpr ⟨lawful.ordered, List.pairwise_singleton .., ?_⟩
        intro earlier hearlier later hlater
        rw [List.mem_singleton.mp hlater]
        exact hpast earlier hearlier
      · intro other hother hqueued hnot
        by_cases heq : other = id
        · exact ⟨_, List.mem_append_right _ (List.mem_singleton_self _), heq.symm⟩
        · obtain ⟨notified, hnotified, hsame⟩ := lawful.accounted other hother
            (fun hin => hqueued ((List.mem_erase_of_ne heq).mpr hin)) hnot
          exact ⟨notified, List.mem_append_left _ hnotified, hsame⟩
      · exact lawful.struck
      · exact lawful.known
      · exact lawful.made
      · exact hcount
  next => cases hprocess

/-- A call of a program with ids left. -/
theorem call (lawful : Lawful program) {op : SimulatorCall} (hcall : program.call op = some next)
    (hfew : next.scheduled.length ≤ 4294967292) : Lawful next := by
  have hplaced : ∀ {hasId : Bool} {result : DefaultSimulatorImpl × EventId},
      program.place hasId result = next → program.scheduled.length < 4294967292 := by
    rintro hasId result rfl
    have hlength : (program.scheduled ++ [result.2]).length ≤ 4294967292 := hfew
    rw [List.length_append, List.length_singleton] at hlength
    omega
  cases op with
  | schedule delay =>
      obtain ⟨result, hschedule, hnext⟩ := Option.map_eq_some_iff.mp hcall
      rw [DefaultSimulatorImpl.schedule] at hschedule
      split at hschedule
      next hdelay =>
        have hroom := hplaced hnext
        subst hnext
        exact lawful.place hroom (fun _ => hdelay) hschedule
      next => cases hschedule
  | scheduleNow =>
      rw [Program.call] at hcall
      obtain ⟨result, hschedule, hnext⟩ := Option.map_eq_some_iff.mp hcall
      rw [DefaultSimulatorImpl.scheduleNow, DefaultSimulatorImpl.schedule,
        if_pos (Int.le_refl 0)] at hschedule
      have hroom := hplaced hnext
      subst hnext
      exact lawful.place hroom (fun _ => Int.le_refl 0) hschedule
  | scheduleWithContext context delay =>
      obtain ⟨result, hschedule, hnext⟩ := Option.map_eq_some_iff.mp hcall
      have hroom := hplaced hnext
      subst hnext
      exact lawful.place hroom (fun hfalse => absurd hfalse Bool.false_ne_true) hschedule
  | cancel id =>
      rw [Program.call] at hcall
      split at hcall
      next hid =>
        cases hcall
        exact lawful.cancel hid
      next => cases hcall
  | remove id =>
      rw [Program.call] at hcall
      split at hcall
      next hid =>
        obtain ⟨simulator, hremove, rfl⟩ := Option.map_eq_some_iff.mp hcall
        exact lawful.remove hid hremove
      next => cases hcall
  | stop =>
      cases hcall
      exact lawful.withPhase program.phase true

/-- A step of a program with ids left. -/
theorem step (lawful : Lawful program) {event : ProgramEvent} (hstep : program.step event = some next)
    (hfew : next.scheduled.length ≤ 4294967292) : Lawful next := by
  cases event with
  | run =>
      rw [Program.step] at hstep
      split at hstep
      next =>
        cases hstep
        exact lawful.withPhase .loop false
      next => cases hstep
  | call op =>
      rw [Program.step] at hstep
      split at hstep
      next => cases hstep
      next => exact lawful.call hstep hfew
  | processOneEvent id =>
      rw [Program.step] at hstep
      split at hstep
      next => exact lawful.turn hstep
      next => cases hstep
  | notifyReturns =>
      rw [Program.step] at hstep
      split at hstep
      next =>
        cases hstep
        exact lawful.withPhase .loop program.simulator.stop
      next => cases hstep
  | runReturns =>
      rw [Program.step] at hstep
      split at hstep
      next =>
        cases hstep
        exact lawful.withPhase .outside program.simulator.stop
      next => cases hstep

end Lawful

/-! ## What a step does to the time and to the number of events -/

namespace Program

variable {program next : Program}

/-- Every queued event comes behind the current one. -/
def AllAhead (program : Program) : Prop :=
  ∀ id ∈ program.simulator.events, program.simulator.Ahead id

/-- A delay that is not negative. -/
def Forward : ProgramEvent → Prop
  | .call (.scheduleWithContext _ delay) => 0 ≤ delay
  | _ => True

/-- The clock is left where it is, and nothing is queued behind it. -/
structure Keeps (forward : Prop) (program next : Program) : Prop where
  currentTs : next.simulator.currentTs = program.simulator.currentTs
  ahead : forward → program.AllAhead → next.AllAhead

theorem place_keeps (lawful : Lawful program) {hasId : Bool} {context : Nat} {delay : Int}
    {result : DefaultSimulatorImpl × EventId}
    (hfew : (program.place hasId result).scheduled.length ≤ 4294967292)
    (hinsert : program.simulator.insert context delay program.scheduled.length = some result) :
    Keeps (0 ≤ delay) program (program.place hasId result) := by
  obtain ⟨id, rfl, -, huid, hts⟩ := insert_some hinsert
  have hlength : (program.scheduled ++ [id]).length = program.scheduled.length + 1 :=
    List.length_append
  have hroom : (program.scheduled ++ [id]).length ≤ 4294967292 := hfew
  refine ⟨rfl, fun hforward hahead other hmem => ?_⟩
  rcases List.mem_cons.mp hmem with rfl | hmem
  · have hnext := lawful.uid
    have hcurrent := lawful.currentUid
    show program.simulator.Ahead other
    simp only [Ahead]
    omega
  · exact hahead other hmem

theorem remove_keeps {simulator : DefaultSimulatorImpl} {id : EventId}
    (hremove : program.simulator.remove id = some simulator) :
    Keeps True program (program.strike id simulator) := by
  rw [DefaultSimulatorImpl.remove] at hremove
  split at hremove
  next =>
    cases hremove
    exact ⟨rfl, fun _ hahead => hahead⟩
  next =>
    split at hremove
    next =>
      cases hremove
      exact ⟨rfl, fun _ hahead => hahead⟩
    next =>
      split at hremove
      next =>
        cases hremove
        exact ⟨rfl, fun _ hahead other hmem =>
          hahead other (List.mem_of_mem_erase hmem)⟩
      next => cases hremove

theorem call_keeps (lawful : Lawful program) {op : SimulatorCall} (hcall : program.call op = some next)
    (hfew : next.scheduled.length ≤ 4294967292) : Keeps (Forward (.call op)) program next := by
  cases op with
  | schedule delay =>
      rw [Program.call] at hcall
      obtain ⟨result, hschedule, rfl⟩ := Option.map_eq_some_iff.mp hcall
      rw [DefaultSimulatorImpl.schedule] at hschedule
      split at hschedule
      next hdelay =>
        obtain ⟨hts, hahead⟩ := place_keeps lawful hfew hschedule
        exact ⟨hts, fun _ => hahead hdelay⟩
      next => cases hschedule
  | scheduleNow =>
      rw [Program.call] at hcall
      obtain ⟨result, hschedule, rfl⟩ := Option.map_eq_some_iff.mp hcall
      rw [DefaultSimulatorImpl.scheduleNow, DefaultSimulatorImpl.schedule,
        if_pos (Int.le_refl 0)] at hschedule
      obtain ⟨hts, hahead⟩ := place_keeps lawful hfew hschedule
      exact ⟨hts, fun _ => hahead (Int.le_refl 0)⟩
  | scheduleWithContext context delay =>
      rw [Program.call] at hcall
      obtain ⟨result, hschedule, rfl⟩ := Option.map_eq_some_iff.mp hcall
      exact place_keeps lawful hfew hschedule
  | cancel id =>
      rw [Program.call] at hcall
      split at hcall
      next =>
        cases hcall
        rw [DefaultSimulatorImpl.cancel]
        split
        next => exact ⟨rfl, fun _ hahead => hahead⟩
        next => exact ⟨rfl, fun _ hahead => hahead⟩
      next => cases hcall
  | remove id =>
      rw [Program.call] at hcall
      split at hcall
      next =>
        obtain ⟨simulator, hremove, rfl⟩ := Option.map_eq_some_iff.mp hcall
        exact remove_keeps hremove
      next => cases hcall
  | stop =>
      cases hcall
      exact ⟨rfl, fun _ hahead => hahead⟩

/-- Events are only added to those scheduled. -/
theorem step_scheduled {event : ProgramEvent} (hstep : program.step event = some next) :
    program.scheduled.length ≤ next.scheduled.length := by
  have hplace : ∀ (hasId : Bool) (result : DefaultSimulatorImpl × EventId),
      program.scheduled.length ≤ (program.place hasId result).scheduled.length := by
    intro hasId result
    show program.scheduled.length ≤ (program.scheduled ++ [result.2]).length
    rw [List.length_append]
    omega
  cases event with
  | run =>
      rw [Program.step] at hstep
      split at hstep
      next =>
        cases hstep
        exact Nat.le_refl _
      next => cases hstep
  | call op =>
      rw [Program.step] at hstep
      split at hstep
      next => cases hstep
      next =>
        cases op with
        | schedule delay =>
            rw [Program.call] at hstep
            obtain ⟨result, -, rfl⟩ := Option.map_eq_some_iff.mp hstep
            exact hplace true result
        | scheduleNow =>
            rw [Program.call] at hstep
            obtain ⟨result, -, rfl⟩ := Option.map_eq_some_iff.mp hstep
            exact hplace true result
        | scheduleWithContext context delay =>
            rw [Program.call] at hstep
            obtain ⟨result, -, rfl⟩ := Option.map_eq_some_iff.mp hstep
            exact hplace false result
        | cancel id =>
            rw [Program.call] at hstep
            split at hstep
            next =>
              cases hstep
              exact Nat.le_refl _
            next => cases hstep
        | remove id =>
            rw [Program.call] at hstep
            split at hstep
            next =>
              obtain ⟨simulator, -, rfl⟩ := Option.map_eq_some_iff.mp hstep
              exact Nat.le_refl _
            next => cases hstep
        | stop =>
            cases hstep
            exact Nat.le_refl _
  | processOneEvent id =>
      rw [Program.step] at hstep
      split at hstep
      next =>
        obtain ⟨simulator, -, rfl⟩ := Option.map_eq_some_iff.mp hstep
        split <;> exact Nat.le_refl _
      next => cases hstep
  | notifyReturns =>
      rw [Program.step] at hstep
      split at hstep
      next =>
        cases hstep
        exact Nat.le_refl _
      next => cases hstep
  | runReturns =>
      rw [Program.step] at hstep
      split at hstep
      next =>
        cases hstep
        exact Nat.le_refl _
      next => cases hstep

/-- What a turn of the loop does to the clock and the queue. -/
theorem turn_some {id : EventId} (hturn : program.turn id = some next) :
    program.simulator.Least id ∧ program.simulator.currentTs ≤ id.ts ∧
      next.simulator.currentTs = id.ts ∧ next.simulator.currentUid = id.uid ∧
      next.simulator.events = program.simulator.events.erase id ∧ next.struck = program.struck := by
  obtain ⟨simulator, hprocess, rfl⟩ := Option.map_eq_some_iff.mp hturn
  rw [processOneEvent] at hprocess
  split at hprocess
  next hguard =>
    cases hprocess
    split <;> exact ⟨hguard.1, hguard.2, rfl, rfl, rfl, rfl⟩
  next => cases hprocess

/-- The clock never goes back; without negative delays nothing is queued behind it. -/
theorem step_keeps (lawful : Lawful program) {event : ProgramEvent}
    (hstep : program.step event = some next) (hfew : next.scheduled.length ≤ 4294967292) :
    program.simulator.currentTs ≤ next.simulator.currentTs ∧
      (Forward event → program.AllAhead → next.AllAhead) := by
  cases event with
  | run =>
      rw [Program.step] at hstep
      split at hstep
      next =>
        cases hstep
        exact ⟨Nat.le_refl _, fun _ hahead => hahead⟩
      next => cases hstep
  | call op =>
      rw [Program.step] at hstep
      split at hstep
      next => cases hstep
      next =>
        obtain ⟨hts, hahead⟩ := call_keeps lawful hstep hfew
        exact ⟨Nat.le_of_eq hts.symm, hahead⟩
  | processOneEvent id =>
      rw [Program.step] at hstep
      split at hstep
      next =>
        obtain ⟨hleast, htime, hts, huid, hevents, -⟩ := turn_some hstep
        refine ⟨hts ▸ htime, fun _ _ other hmem => ?_⟩
        rw [hevents] at hmem
        have := lawful.least_less hleast other hmem
        simp only [Ahead, EventId.Less, hts, huid] at *
        exact this
      next => cases hstep
  | notifyReturns =>
      rw [Program.step] at hstep
      split at hstep
      next =>
        cases hstep
        exact ⟨Nat.le_refl _, fun _ hahead => hahead⟩
      next => cases hstep
  | runReturns =>
      rw [Program.step] at hstep
      split at hstep
      next =>
        cases hstep
        exact ⟨Nat.le_refl _, fun _ hahead => hahead⟩
      next => cases hstep

/-! ## Runs -/

/-- An event has been notified, or is being notified. -/
def Invoked (program : Program) (id : EventId) : Prop :=
  ∃ notified ∈ program.notified, notified.id = id

/-- What a program sees of its events. -/
structure Semantics (program : Program) : Prop where
  distinct : program.scheduled.Pairwise fun earlier later => earlier.uid < later.uid
  timely : ∀ notified ∈ program.notified, notified.id ∈ program.scheduled ∧
    notified.now = notified.id.ts ∧ notified.context = notified.id.context
  ordered : program.notified.Pairwise fun earlier later => earlier.id.Less later.id
  invoked_iff : ∀ id ∈ program.scheduled,
    program.Invoked id ↔ id ∉ program.simulator.events ∧ id ∉ program.struck
  expired_iff : ∀ id ∈ program.ids,
    program.simulator.IsExpired id ↔ program.Invoked id ∨ id ∈ program.struck
  stopped : program.simulator.stop = true → ∀ id, program.step (.processOneEvent id) = none
  returns_iff : program.phase = .loop →
    ((∃ next, program.step .runReturns = some next) ↔
      program.simulator.events = [] ∨ program.simulator.stop = true)
  unscheduled : program.simulator.events.length < 2147483648 →
    program.simulator.unscheduledEvents = program.simulator.events.length

theorem semantics_of_lawful (lawful : Lawful program) : program.Semantics where
  distinct := lawful.distinct
  timely := fun notified hmem => ⟨(lawful.notified notified hmem).1, lawful.timely notified hmem⟩
  ordered := lawful.ordered
  invoked_iff := fun id hid => by
    constructor
    · rintro ⟨notified, hmem, rfl⟩
      obtain ⟨-, hqueued, -, hnot⟩ := lawful.notified notified hmem
      exact ⟨hqueued, fun hstruck => hnot ((lawful.struck _ hid).mpr hstruck)⟩
    · rintro ⟨hqueued, hstruck⟩
      exact lawful.accounted id hid hqueued fun hnot => hstruck ((lawful.struck id hid).mp hnot)
  expired_iff := fun id hid => by
    have hscheduled := lawful.given id hid
    rw [lawful.expired_iff hid, lawful.struck id hscheduled]
    constructor
    · rintro (hqueued | hstruck)
      · by_cases hnot : program.simulator.IsCancelled id
        · exact Or.inr ((lawful.struck id hscheduled).mp hnot)
        · exact Or.inl (lawful.accounted id hscheduled hqueued hnot)
      · exact Or.inr hstruck
    · rintro (⟨notified, hmem, rfl⟩ | hstruck)
      · exact Or.inl (lawful.notified notified hmem).2.1
      · exact Or.inr hstruck
  stopped := fun hstop id =>
    if_neg fun hguard => Bool.false_ne_true (hguard.2.2.symm.trans hstop)
  returns_iff := fun hphase => by
    rw [Program.step]
    constructor
    · rintro ⟨next, hreturns⟩
      split at hreturns
      next hguard => exact hguard.2.1
      next => cases hreturns
    · intro hdone
      refine ⟨_, if_pos ⟨hphase, hdone, ?_⟩⟩
      by_cases hempty : program.simulator.events = []
      · refine Or.inr ?_
        rw [lawful.unscheduled, hempty]
        rfl
      · exact Or.inl hempty
  unscheduled := fun hlength => by
    rw [lawful.unscheduled, toInt32]
    exact Int.bmod_eq_of_le (by omega) (by omega)

/-- A loop that is not stopped has a next turn, in which an event that was not cancelled or removed
is notified. -/
def Proceeds (program : Program) : Prop :=
  program.phase = .loop → program.simulator.stop = false → program.simulator.events ≠ [] →
    ∃ id next, program.step (.processOneEvent id) = some next ∧
      (id ∉ program.struck → next.Invoked id)

theorem turn_invoked {id : EventId} (hturn : program.turn id = some next)
    (hlive : ¬ program.simulator.IsCancelled id) : next.Invoked id := by
  obtain ⟨simulator, hprocess, rfl⟩ := Option.map_eq_some_iff.mp hturn
  rw [processOneEvent] at hprocess
  split at hprocess
  next =>
    cases hprocess
    split
    next hcancelled => exact absurd hcancelled hlive
    next => exact ⟨_, List.mem_append_right _ (List.mem_singleton_self _), rfl⟩
  next => cases hprocess

theorem proceeds_of_ahead (lawful : Lawful program) (hahead : program.AllAhead) :
    program.Proceeds := by
  intro hphase hstop hne
  obtain ⟨id, hleast⟩ := exists_least hne
  have htime : program.simulator.currentTs ≤ id.ts := by
    have := hahead id hleast.1
    simp only [Ahead] at this
    omega
  obtain ⟨next, hnext⟩ : ∃ next, program.turn id = some next := by
    rw [turn, processOneEvent, if_pos ⟨hleast, htime⟩]
    exact ⟨_, rfl⟩
  refine ⟨id, next, (if_pos ⟨hphase, hne, hstop⟩).trans hnext, fun hstruck => ?_⟩
  exact turn_invoked hnext fun hcancelled =>
    hstruck ((lawful.struck id (lawful.queued id hleast.1)).mp hcancelled)

theorem scheduleNow_outside (hphase : program.phase = .outside)
    (hts : program.simulator.currentTs = 0) : ∃ id : EventId,
    program.step (.call .scheduleNow) = some (program.place true
      ({ program.simulator with
        uid := (program.simulator.uid + 1) % 4294967296
        unscheduledEvents := toInt32 (program.simulator.unscheduledEvents + 1)
        events := id :: program.simulator.events }, id)) ∧
      id.ts = 0 ∧ id.uid = program.simulator.uid := by
  obtain ⟨result, hinsert⟩ : ∃ result, program.simulator.insert program.simulator.currentContext 0
      program.scheduled.length = some result :=
    ⟨_, if_pos ⟨by rw [hts]; decide, by rw [hts]; decide⟩⟩
  obtain ⟨id, rfl, -, huid, hidTs⟩ := insert_some hinsert
  refine ⟨id, ?_, by omega, huid⟩
  rw [Program.step, if_neg (by rw [hphase]; decide), Program.call, DefaultSimulatorImpl.scheduleNow,
    DefaultSimulatorImpl.schedule, if_pos (Int.le_refl 0), hinsert, Option.map_some]

/-- A program that schedules events before its first `Run`. -/
theorem scheduleNow_many (count : Nat) : ∃ program : Program,
    ({} : Program).run (List.replicate count (.call .scheduleNow)) = some program ∧
      program.phase = .outside ∧ program.notified = [] ∧ program.struck = [] ∧
      program.scheduled.length = count ∧ program.simulator.events.length = count ∧
      program.simulator.uid = (4 + count) % 4294967296 ∧ program.simulator.currentTs = 0 ∧
      program.simulator.currentUid = 0 ∧ program.simulator.cancelled = [] ∧
      program.simulator.unscheduledEvents = toInt32 count := by
  induction count with
  | zero => exact ⟨{}, rfl, rfl, rfl, rfl, rfl, rfl, rfl, rfl, rfl, rfl, rfl⟩
  | succ count ih =>
      obtain ⟨program, hrun, hphase, hnotified, hstruck, hscheduled, hevents, huid, hts, hcurrent,
        hcancelled, hunscheduled⟩ := ih
      obtain ⟨id, hstep, -, -⟩ := scheduleNow_outside hphase hts
      have hlonger := Foundation.Runs.runFrom_snoc step hrun hstep
      rw [← List.replicate_succ'] at hlonger
      refine ⟨_, hlonger, hphase, hnotified, hstruck, ?_, ?_, ?_, hts, hcurrent, hcancelled, ?_⟩
      · show (program.scheduled ++ [id]).length = count + 1
        rw [List.length_append, hscheduled]
        rfl
      · exact congrArg (· + 1) hevents
      · show (program.simulator.uid + 1) % 4294967296 = _
        rw [huid]
        omega
      · show toInt32 (program.simulator.unscheduledEvents + 1) = _
        rw [hunscheduled, toInt32_add]
        rfl

end Program

end DeepcV2x.Simulator
