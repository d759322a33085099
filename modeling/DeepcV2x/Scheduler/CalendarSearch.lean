import DeepcV2x.Scheduler.Calendar

/-!
# The search of the calendar

Every bucket is sorted, so its next event is its least one.  The search visits
the days from the day of the last removed event on; tops of days that exceed
64 bits wrap around, but then no event can be on such a day.
-/

namespace DeepcV2x.Scheduler

variable {EventImpl : Type}

namespace CalendarScheduler

/-! ## Sorted buckets -/

/-- The events of a bucket follow one another in the order it is kept in. -/
def Ordered (reverse : Bool) (bucket : List (Event EventImpl)) : Prop :=
  bucket.Pairwise fun first second => order reverse first.key second.key = true

theorem order_iff (reverse : Bool) (left right : EventKey) : order reverse left right = true ↔
    if reverse then right.rank < left.rank else left.rank < right.rank := by
  cases reverse with
  | true => exact decide_eq_true_iff.trans (EventKey.less_iff right left)
  | false => exact decide_eq_true_iff.trans (EventKey.less_iff left right)

theorem order_trans {reverse : Bool} {first second third : EventKey}
    (hleft : order reverse first second = true) (hright : order reverse second third = true) :
    order reverse first third = true := by
  rw [order_iff] at hleft hright ⊢
  cases reverse with
  | true => exact Nat.lt_trans hright hleft
  | false => exact Nat.lt_trans hleft hright

theorem order_total {reverse : Bool} {left right : EventKey} (hne : left.uid ≠ right.uid)
    (hnot : ¬ order reverse left right = true) : order reverse right left = true := by
  have hrank : left.rank ≠ right.rank := fun heq => hne (EventKey.uid_eq_of_rank heq)
  rw [order_iff] at hnot ⊢
  cases reverse with
  | true => exact lt_of_le_of_ne (not_lt.mp hnot) hrank
  | false => exact lt_of_le_of_ne (not_lt.mp hnot) hrank.symm

theorem insertInBucket_perm (reverse : Bool) (ev : Event EventImpl)
    (bucket : List (Event EventImpl)) :
    (insertInBucket reverse ev bucket).Perm (ev :: bucket) := by
  induction bucket with
  | nil => exact List.Perm.refl _
  | cons head tail ih =>
      rw [insertInBucket]
      split
      · exact List.Perm.refl _
      · exact (ih.cons head).trans (List.Perm.swap ev head tail)

theorem Ordered.insert {reverse : Bool} {ev : Event EventImpl} {bucket : List (Event EventImpl)}
    (ordered : Ordered reverse bucket)
    (fresh : ∀ stored ∈ bucket, ev.key.uid ≠ stored.key.uid) :
    Ordered reverse (insertInBucket reverse ev bucket) := by
  induction bucket with
  | nil => exact List.pairwise_singleton _ _
  | cons head tail ih =>
      obtain ⟨hhead, htail⟩ := List.pairwise_cons.mp ordered
      rw [insertInBucket]
      split
      next hbefore =>
        apply List.pairwise_cons.mpr
        refine ⟨?_, ordered⟩
        intro other hmem
        rcases List.mem_cons.mp hmem with rfl | hmem
        · exact hbefore
        · exact order_trans hbefore (hhead other hmem)
      next hnot =>
        apply List.pairwise_cons.mpr
        refine ⟨?_, ih htail fun stored hmem => fresh stored (List.mem_cons_of_mem _ hmem)⟩
        intro other hmem
        rcases List.mem_cons.mp ((insertInBucket_perm reverse ev tail).mem_iff.mp hmem) with
          rfl | hmem
        · exact order_total (fresh head List.mem_cons_self) hnot
        · exact hhead other hmem

/-- The next event of a bucket is its least, and `Pop` removes it. -/
theorem Ordered.next {reverse : Bool} {bucket : List (Event EventImpl)} {next : Event EventImpl}
    (ordered : Ordered reverse bucket) (hnext : nextEvent reverse bucket = some next) :
    bucket.Perm (next :: pop reverse bucket) ∧ ∀ other ∈ bucket, next.rank ≤ other.rank := by
  cases reverse with
  | false =>
      cases bucket with
      | nil => cases hnext
      | cons head tail =>
          obtain rfl : head = next := Option.some.inj hnext
          refine ⟨List.Perm.refl _, ?_⟩
          intro other hmem
          rcases List.mem_cons.mp hmem with rfl | hmem
          · exact le_rfl
          · have := (List.pairwise_cons.mp ordered).1 other hmem
            rw [order_iff] at this
            exact Nat.le_of_lt this
  | true =>
      have hlast : bucket.getLast? = some next := hnext
      obtain ⟨front, rfl⟩ := List.getLast?_eq_some_iff.mp hlast
      have hpop : pop true (front ++ [next]) = front := List.dropLast_concat
      rw [hpop]
      refine ⟨List.perm_append_singleton next front, ?_⟩
      intro other hmem
      rcases List.mem_append.mp hmem with hfront | hlast
      · have := (List.pairwise_append.mp ordered).2.2 other hfront next List.mem_cons_self
        rw [order_iff] at this
        exact Nat.le_of_lt this
      · rw [List.mem_singleton.mp hlast]

theorem Ordered.pop {reverse : Bool} {bucket : List (Event EventImpl)}
    (ordered : Ordered reverse bucket) : Ordered reverse (pop reverse bucket) := by
  cases reverse with
  | false => exact List.Pairwise.sublist (List.tail_sublist bucket) ordered
  | true => exact List.Pairwise.sublist (List.dropLast_sublist bucket) ordered

theorem nextEvent_eq_none {reverse : Bool} {bucket : List (Event EventImpl)}
    (hnone : nextEvent reverse bucket = none) : bucket = [] := by
  cases reverse with
  | false => exact List.head?_eq_none_iff.mp hnone
  | true => exact List.getLast?_eq_none_iff.mp hnone

/-! ## Days -/

/-- The day of a time stamp. -/
def dayOf (width ts : UInt64) : Nat := ts.toNat / width.toNat

theorem hashOf_eq (nBuckets : Nat) (width ts : UInt64) :
    hashOf nBuckets width ts = dayOf width ts % nBuckets := by
  rw [hashOf, UInt64.toNat_div, dayOf]

theorem topOf_toNat (width ts : UInt64) :
    (topOf width ts).toNat = (dayOf width ts + 1) * width.toNat % 2 ^ 64 := by
  rw [topOf, UInt64.toNat_mul, UInt64.toNat_add, UInt64.toNat_div, ← dayOf,
    Nat.mod_mul_mod]
  rfl

theorem dayOf_mono {width left right : UInt64} (hle : left.toNat ≤ right.toNat) :
    dayOf width left ≤ dayOf width right :=
  Nat.div_le_div_right hle

theorem lt_day_succ_mul {width : UInt64} (hwidth : 0 < width.toNat) (ts : UInt64) :
    ts.toNat < (dayOf width ts + 1) * width.toNat := by
  have := @Nat.lt_div_mul_add ts.toNat width.toNat hwidth
  rw [dayOf, Nat.add_mul, Nat.one_mul]
  exact this

/-- The top of the day of a time stamp of 63 bits does not wrap around. -/
theorem day_succ_mul_lt {width ts : UInt64} (hts : ts.toNat < 2 ^ 63) :
    (dayOf width ts + 1) * width.toNat < 2 ^ 64 := by
  have hday : dayOf width ts * width.toNat ≤ ts.toNat := Nat.div_mul_le_self _ _
  have hwidth := width.toNat_lt
  rw [Nat.add_mul, Nat.one_mul]
  rcases Nat.eq_zero_or_pos (dayOf width ts) with hzero | hpos
  · rw [hzero]
    omega
  · have := Nat.le_mul_of_pos_left width.toNat hpos
    omega

theorem dayOf_lt_of_lt_mul {width ts : UInt64} {day : Nat} (hwidth : 0 < width.toNat)
    (hlt : ts.toNat < (day + 1) * width.toNat) : dayOf width ts ≤ day :=
  Nat.lt_succ_iff.mp ((Nat.div_lt_iff_lt_mul hwidth).mpr hlt)

theorem dayOf_le_of_rank {width : UInt64} {ev other : Event EventImpl}
    (hrank : ev.rank ≤ other.rank) : dayOf width ev.key.ts ≤ dayOf width other.key.ts := by
  apply dayOf_mono
  have hev := ev.key.uid.toNat_lt
  have hother := other.key.uid.toNat_lt
  rw [Event.rank, Event.rank, EventKey.rank, EventKey.rank] at hrank
  omega

theorem rank_lt_of_dayOf {width : UInt64} {ev other : Event EventImpl}
    (hday : dayOf width ev.key.ts < dayOf width other.key.ts) : ev.rank < other.rank := by
  apply not_le.mp
  intro hrank
  exact Nat.not_le_of_lt hday (dayOf_le_of_rank hrank)

/-! ## The state between two operations -/

variable {calendar : CalendarScheduler EventImpl} {stored : List (Event EventImpl)}

/-- The buckets hold the events of a list, each in the bucket of its day. -/
structure Stocked (calendar : CalendarScheduler EventImpl) (stored : List (Event EventImpl)) :
    Prop where
  someBucket : 0 < calendar.nBuckets
  positive : 0 < calendar.width.toNat
  ordered : ∀ i < calendar.nBuckets, Ordered calendar.reverse (calendar.buckets i)
  placed : ∀ i < calendar.nBuckets, ∀ ev ∈ calendar.buckets i, calendar.hash ev.key.ts = i
  content : calendar.allEvents.Perm stored
  distinct : stored.Pairwise fun earlier later => earlier.key.uid ≠ later.key.uid

/-- The search starts on the day of the last removed event, and no event is before it. -/
structure Holds (calendar : CalendarScheduler EventImpl) (stored : List (Event EventImpl)) : Prop
    extends Stocked calendar stored where
  lastBucket : calendar.lastBucket = calendar.hash calendar.lastPrio
  bucketTop : calendar.bucketTop = topOf calendar.width calendar.lastPrio
  due : ∀ ev ∈ stored, calendar.lastPrio.toNat ≤ ev.key.ts.toNat ∧ ev.key.ts.toNat < 2 ^ 63

namespace Stocked

theorem hash_lt (stocked : Stocked calendar stored) (ts : UInt64) :
    calendar.hash ts < calendar.nBuckets :=
  Nat.mod_lt _ stocked.someBucket

theorem mem_stored (stocked : Stocked calendar stored) {i : Nat} (hi : i < calendar.nBuckets)
    {ev : Event EventImpl} (hmem : ev ∈ calendar.buckets i) : ev ∈ stored := by
  apply stocked.content.mem_iff.mp
  exact List.mem_flatMap.mpr ⟨i, List.mem_range.mpr hi, hmem⟩

/-- A stored event is in the bucket of its time stamp. -/
theorem mem_bucket (stocked : Stocked calendar stored) {ev : Event EventImpl}
    (hmem : ev ∈ stored) : ev ∈ calendar.buckets (calendar.hash ev.key.ts) := by
  obtain ⟨i, hi, hbucket⟩ := List.mem_flatMap.mp (stocked.content.mem_iff.mpr hmem)
  rw [stocked.placed i (List.mem_range.mp hi) ev hbucket]
  exact hbucket

theorem perm (stocked : Stocked calendar stored) {others : List (Event EventImpl)}
    (hperm : stored.Perm others) : Stocked calendar others :=
  { stocked with
    content := stocked.content.trans hperm
    distinct := hperm.pairwise stocked.distinct fun hne => hne.symm }

end Stocked

namespace Holds

theorem perm (holds : Holds calendar stored) {others : List (Event EventImpl)}
    (hperm : stored.Perm others) : Holds calendar others :=
  { holds.toStocked.perm hperm with
    lastBucket := holds.lastBucket
    bucketTop := holds.bucketTop
    due := fun ev hmem => holds.due ev (hperm.mem_iff.mpr hmem) }

/-- The bucket the search visits after some steps. -/
def visited (calendar : CalendarScheduler EventImpl) (turns : Nat) : Nat :=
  (dayOf calendar.width calendar.lastPrio + turns) % calendar.nBuckets

theorem visited_lt (holds : Holds calendar stored) (turns : Nat) :
    visited calendar turns < calendar.nBuckets :=
  Nat.mod_lt _ holds.someBucket

theorem visited_zero (holds : Holds calendar stored) :
    visited calendar 0 = calendar.lastBucket := by
  rw [holds.lastBucket, hash, hashOf_eq]
  rfl

theorem visited_succ (calendar : CalendarScheduler EventImpl) (turns : Nat) :
    (visited calendar turns + 1) % calendar.nBuckets = visited calendar (turns + 1) :=
  Nat.mod_add_mod _ _ _

/-- A turn of all buckets reaches every one of them. -/
theorem exists_visited {i : Nat} (hi : i < calendar.nBuckets) :
    ∃ turns < calendar.nBuckets, visited calendar turns = i := by
  let first := dayOf calendar.width calendar.lastPrio % calendar.nBuckets
  have hfirst : first < calendar.nBuckets := Nat.mod_lt _ (by omega)
  refine ⟨(i + calendar.nBuckets - first) % calendar.nBuckets, Nat.mod_lt _ (by omega), ?_⟩
  rw [visited, Nat.add_mod, Nat.mod_mod, ← Nat.add_mod, ← Nat.mod_add_mod]
  rw [show dayOf calendar.width calendar.lastPrio % calendar.nBuckets +
      (i + calendar.nBuckets - first) = i + calendar.nBuckets by omega]
  rw [Nat.add_mod_right, Nat.mod_eq_of_lt hi]

/-- The search comes back to its first bucket after one turn. -/
theorem visited_eq_last (holds : Holds calendar stored) {turns : Nat}
    (hturns : turns < calendar.nBuckets)
    (hback : visited calendar (turns + 1) = calendar.lastBucket) :
    turns + 1 = calendar.nBuckets := by
  rw [← holds.visited_zero] at hback
  have hdvd : calendar.nBuckets ∣ turns + 1 := by
    have hzero := Nat.sub_mod_eq_zero_of_mod_eq hback
    rw [Nat.add_sub_add_left, Nat.sub_zero] at hzero
    exact Nat.dvd_of_mod_eq_zero hzero
  exact Nat.le_antisymm hturns (Nat.le_of_dvd (Nat.succ_pos turns) hdvd)

/-! ## The search -/

/-- The best candidate so far: the least event of the buckets visited, with its bucket. -/
def Leads (calendar : CalendarScheduler EventImpl) (minKey : EventKey) (turns : Nat)
    (best : EventKey × Option (Nat × Event EventImpl)) : Prop :=
  match best.2 with
  | none => best.1 = minKey ∧ ∀ turn < turns, calendar.buckets (visited calendar turn) = []
  | some (i, ev) => best.1 = ev.key ∧ i < calendar.nBuckets ∧
      nextEvent calendar.reverse (calendar.buckets i) = some ev ∧
      ∀ turn < turns, ∀ other ∈ calendar.buckets (visited calendar turn), ev.rank ≤ other.rank

/-- What a search finds: the least event stored, in front of its bucket, with the top of its
day. -/
def FoundLeast (calendar : CalendarScheduler EventImpl) (stored : List (Event EventImpl)) :
    Found EventImpl → Prop
  | .today i bucketTop ev => i = calendar.hash ev.key.ts ∧
      bucketTop = topOf calendar.width ev.key.ts ∧
      nextEvent calendar.reverse (calendar.buckets i) = some ev ∧
      ∀ other ∈ stored, ev.rank ≤ other.rank
  | .least none => stored = []
  | .least (some (i, ev)) => i < calendar.nBuckets ∧
      nextEvent calendar.reverse (calendar.buckets i) = some ev ∧
      ∀ other ∈ stored, ev.rank ≤ other.rank

theorem nextEvent_mem {reverse : Bool} {bucket : List (Event EventImpl)} {next : Event EventImpl}
    (hnext : nextEvent reverse bucket = some next) : next ∈ bucket := by
  cases reverse with
  | false => exact List.mem_of_mem_head? hnext
  | true => exact List.mem_of_getLast? hnext

/-- An event the search stops at is on the day searched, and the least. -/
theorem dueEvent_least (holds : Holds calendar stored) {turns : Nat} {bucketTop : UInt64}
    {next : Event EventImpl}
    (htop : bucketTop.toNat =
      (dayOf calendar.width calendar.lastPrio + turns + 1) * calendar.width.toNat % 2 ^ 64)
    (hlater : ∀ ev ∈ stored,
      dayOf calendar.width calendar.lastPrio + turns ≤ dayOf calendar.width ev.key.ts)
    (hdue : calendar.dueEvent (visited calendar turns) bucketTop = some next) :
    FoundLeast calendar stored (.today (visited calendar turns) bucketTop next) := by
  obtain ⟨hnext, hbefore⟩ := Option.filter_eq_some_iff.mp hdue
  have hvisited := holds.visited_lt turns
  have hmem := nextEvent_mem hnext
  have hstored := holds.mem_stored hvisited hmem
  have hts : next.key.ts.toNat < bucketTop.toNat :=
    UInt64.lt_iff_toNat_lt.mp (of_decide_eq_true hbefore)
  have hday : dayOf calendar.width next.key.ts =
      dayOf calendar.width calendar.lastPrio + turns := by
    apply Nat.le_antisymm
    · apply dayOf_lt_of_lt_mul holds.positive
      exact hts.trans_le (htop ▸ Nat.mod_le _ _)
    · exact hlater next hstored
  refine ⟨(holds.placed _ hvisited next hmem).symm, ?_, hnext, ?_⟩
  · apply UInt64.toNat_inj.mp
    rw [htop, topOf_toNat, hday]
  · intro other hother
    rcases Nat.lt_or_ge (dayOf calendar.width next.key.ts)
      (dayOf calendar.width other.key.ts) with hlt | hge
    · exact (rank_lt_of_dayOf hlt).le
    · have hsame : dayOf calendar.width other.key.ts =
          dayOf calendar.width calendar.lastPrio + turns :=
        Nat.le_antisymm (hday ▸ hge) (hlater other hother)
      have hbucket := holds.mem_bucket hother
      rw [hash, hashOf_eq, hsame] at hbucket
      exact ((holds.ordered _ hvisited).next hnext).2 other hbucket

/-- A bucket the search goes on from holds no event of the day searched. -/
theorem dueEvent_none (holds : Holds calendar stored) {turns : Nat} {bucketTop : UInt64}
    (htop : bucketTop.toNat =
      (dayOf calendar.width calendar.lastPrio + turns + 1) * calendar.width.toNat % 2 ^ 64)
    (hlater : ∀ ev ∈ stored,
      dayOf calendar.width calendar.lastPrio + turns ≤ dayOf calendar.width ev.key.ts)
    (hdue : calendar.dueEvent (visited calendar turns) bucketTop = none) :
    ∀ ev ∈ stored,
      dayOf calendar.width calendar.lastPrio + (turns + 1) ≤ dayOf calendar.width ev.key.ts := by
  intro ev hev
  apply Nat.lt_of_le_of_ne (hlater ev hev)
  intro hday
  have hbucket := holds.mem_bucket hev
  rw [hash, hashOf_eq, ← hday] at hbucket
  have hvisited := holds.visited_lt turns
  cases hnext : nextEvent calendar.reverse (calendar.buckets (visited calendar turns)) with
  | none =>
      rw [show calendar.buckets ((dayOf calendar.width calendar.lastPrio + turns) %
        calendar.nBuckets) = [] from nextEvent_eq_none hnext] at hbucket
      cases hbucket
  | some next =>
      have hleast := ((holds.ordered _ hvisited).next hnext).2 ev hbucket
      have hstored := holds.mem_stored hvisited (nextEvent_mem hnext)
      have hsame : dayOf calendar.width next.key.ts =
          dayOf calendar.width calendar.lastPrio + turns :=
        Nat.le_antisymm (hday ▸ dayOf_le_of_rank hleast) (hlater next hstored)
      have hbefore : next.key.ts < bucketTop := by
        apply UInt64.lt_iff_toNat_lt.mpr
        rw [htop, ← hsame, Nat.mod_eq_of_lt (day_succ_mul_lt (holds.due next hstored).2)]
        exact lt_day_succ_mul holds.positive next.key.ts
      rw [dueEvent, hnext, Option.filter_some, if_pos (decide_eq_true hbefore)] at hdue
      cases hdue

/-- One more bucket is taken into account. -/
theorem Leads.improve (holds : Holds calendar stored) {minKey : EventKey} {turns : Nat}
    {best : EventKey × Option (Nat × Event EventImpl)} (leads : Leads calendar minKey turns best)
    (hmin : ∀ ev ∈ stored, ev.key.Less minKey) :
    Leads calendar minKey (turns + 1) (calendar.improve (visited calendar turns) best) := by
  have hvisited := holds.visited_lt turns
  rw [CalendarScheduler.improve]
  cases hnext : nextEvent calendar.reverse (calendar.buckets (visited calendar turns)) with
  | none =>
      have hempty := nextEvent_eq_none hnext
      obtain ⟨key, candidate⟩ := best
      cases candidate with
      | none =>
          refine ⟨leads.1, ?_⟩
          intro turn hturn
          rcases Nat.lt_succ_iff_lt_or_eq.mp hturn with hearlier | rfl
          · exact leads.2 turn hearlier
          · exact hempty
      | some found =>
          refine ⟨leads.1, leads.2.1, leads.2.2.1, ?_⟩
          intro turn hturn other hother
          rcases Nat.lt_succ_iff_lt_or_eq.mp hturn with hearlier | rfl
          · exact leads.2.2.2 turn hearlier other hother
          · rw [hempty] at hother
            cases hother
  | some next =>
      have hleast := ((holds.ordered _ hvisited).next hnext).2
      obtain ⟨key, candidate⟩ := best
      cases candidate with
      | none =>
          have hless : next.key.Less key := by
            rw [show key = minKey from leads.1]
            exact hmin next (holds.mem_stored hvisited (nextEvent_mem hnext))
          simp only [if_pos hless]
          refine ⟨rfl, hvisited, hnext, ?_⟩
          intro turn hturn other hother
          rcases Nat.lt_succ_iff_lt_or_eq.mp hturn with hearlier | rfl
          · rw [leads.2 turn hearlier] at hother
            cases hother
          · exact hleast other hother
      | some found =>
          have hkey : key = found.2.key := leads.1
          by_cases hless : next.key.Less key
          · simp only [if_pos hless]
            refine ⟨rfl, hvisited, hnext, ?_⟩
            intro turn hturn other hother
            rcases Nat.lt_succ_iff_lt_or_eq.mp hturn with hearlier | rfl
            · have hlt := (EventKey.less_iff _ _).mp (hkey ▸ hless)
              exact hlt.le.trans (leads.2.2.2 turn hearlier other hother)
            · exact hleast other hother
          · simp only [if_neg hless]
            refine ⟨leads.1, leads.2.1, leads.2.2.1, ?_⟩
            intro turn hturn other hother
            rcases Nat.lt_succ_iff_lt_or_eq.mp hturn with hearlier | rfl
            · exact leads.2.2.2 turn hearlier other hother
            · have hge : found.2.rank ≤ next.rank :=
                not_lt.mp fun hlt => hless (hkey ▸ (EventKey.less_iff _ _).mpr hlt)
              exact hge.trans (hleast other hother)

/-- After a turn of all buckets the best candidate is the least event. -/
theorem Leads.all (holds : Holds calendar stored) {minKey : EventKey}
    {best : EventKey × Option (Nat × Event EventImpl)}
    (leads : Leads calendar minKey calendar.nBuckets best) :
    FoundLeast calendar stored (.least best.2) := by
  obtain ⟨key, candidate⟩ := best
  cases candidate with
  | none =>
      apply List.eq_nil_iff_forall_not_mem.mpr
      intro ev hev
      have hbucket := holds.mem_bucket hev
      obtain ⟨turn, hturn, hi⟩ := exists_visited (holds.hash_lt ev.key.ts)
      rw [← hi, leads.2 turn hturn] at hbucket
      cases hbucket
  | some found =>
      refine ⟨leads.2.1, leads.2.2.1, ?_⟩
      intro other hother
      have hbucket := holds.mem_bucket hother
      obtain ⟨turn, hturn, hi⟩ := exists_visited (holds.hash_lt other.key.ts)
      rw [← hi] at hbucket
      exact leads.2.2.2 turn hturn other hbucket

/-- The search from some turn on, when no event is on the days before it. -/
theorem search_least (holds : Holds calendar stored) {minKey : EventKey}
    (hmin : ∀ ev ∈ stored, ev.key.Less minKey) (fuel : Nat) :
    ∀ {turns : Nat} {bucketTop : UInt64} {best : EventKey × Option (Nat × Event EventImpl)},
      turns + fuel = calendar.nBuckets →
      bucketTop.toNat = (dayOf calendar.width calendar.lastPrio + turns + 1) *
        calendar.width.toNat % 2 ^ 64 →
      (∀ ev ∈ stored,
        dayOf calendar.width calendar.lastPrio + turns ≤ dayOf calendar.width ev.key.ts) →
      Leads calendar minKey turns best →
      FoundLeast calendar stored
        (calendar.search fuel (visited calendar turns) bucketTop best) := by
  induction fuel with
  | zero =>
      intro turns bucketTop best hfuel _ _ leads
      obtain rfl : turns = calendar.nBuckets := hfuel
      exact Leads.all holds leads
  | succ fuel ih =>
      intro turns bucketTop best hfuel htop hlater leads
      rw [search]
      cases hdue : calendar.dueEvent (visited calendar turns) bucketTop with
      | some next => exact holds.dueEvent_least htop hlater hdue
      | none =>
          have himprove := Leads.improve holds leads hmin
          simp only
          rw [visited_succ]
          split
          next hback =>
            have hall := holds.visited_eq_last (by omega) hback
            rw [hall] at himprove
            exact Leads.all holds himprove
          next =>
            apply ih (by omega) _ (holds.dueEvent_none htop hlater hdue) himprove
            rw [UInt64.toNat_add, htop, Nat.mod_add_mod, ← Nat.succ_mul]
            rfl

theorem searchFrom_least (holds : Holds calendar stored) {minKey : EventKey}
    (hmin : ∀ ev ∈ stored, ev.key.Less minKey) :
    FoundLeast calendar stored (calendar.searchFrom minKey) := by
  rw [searchFrom, ← holds.visited_zero]
  apply holds.search_least hmin calendar.nBuckets (Nat.zero_add _)
  · rw [holds.bucketTop, topOf_toNat, Nat.add_zero]
  · intro ev hev
    exact dayOf_mono (holds.due ev hev).1
  · exact ⟨rfl, fun turn hturn => absurd hturn (Nat.not_lt_zero turn)⟩

end Holds

end CalendarScheduler

end DeepcV2x.Scheduler
