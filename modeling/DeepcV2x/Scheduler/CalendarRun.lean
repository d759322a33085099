import DeepcV2x.Scheduler.CalendarSearch

/-!
# Runs of the calendar

Each operation keeps the buckets and the day of the search together, also where
the queue is sampled and distributed again; a run returns what the sorted list
returns.
-/

namespace DeepcV2x.Scheduler

variable {EventImpl : Type}

namespace CalendarScheduler

variable {calendar : CalendarScheduler EventImpl} {stored : List (Event EventImpl)}

/-! ## One bucket changed -/

/-- Changing one bucket changes the events of all buckets by the difference. -/
theorem flatMap_update_perm {buckets : Nat → List (Event EventImpl)}
    {i : Nat} {bucket : List (Event EventImpl)} {ev : Event EventImpl}
    (hbucket : (buckets i).Perm (ev :: bucket)) (nBuckets : Nat) (hi : i < nBuckets) :
    ((List.range nBuckets).flatMap buckets).Perm
      (ev :: (List.range nBuckets).flatMap (Function.update buckets i bucket)) := by
  induction nBuckets with
  | zero => exact absurd hi (Nat.not_lt_zero i)
  | succ count ih =>
      rw [List.range_succ, List.flatMap_append, List.flatMap_append, List.flatMap_singleton,
        List.flatMap_singleton]
      rcases Nat.lt_succ_iff_lt_or_eq.mp hi with hlt | rfl
      · rw [Function.update_of_ne (Nat.ne_of_gt hlt)]
        exact (ih hlt).append_right _
      · have hsame : (List.range i).flatMap (Function.update buckets i bucket) =
            (List.range i).flatMap buckets := by
          apply List.flatMap_congr
          intro other hother
          exact Function.update_of_ne (Nat.ne_of_lt (List.mem_range.mp hother)) _ _
        rw [hsame, Function.update_self]
        exact (hbucket.append_left _).trans List.perm_middle

theorem doInsert_same (calendar : CalendarScheduler EventImpl) (ev : Event EventImpl) :
    (calendar.doInsert ev).buckets (calendar.hash ev.key.ts) =
      insertInBucket calendar.reverse ev (calendar.buckets (calendar.hash ev.key.ts)) :=
  Function.update_self _ _ _

theorem doInsert_other {calendar : CalendarScheduler EventImpl} {ev : Event EventImpl} {i : Nat}
    (hne : i ≠ calendar.hash ev.key.ts) :
    (calendar.doInsert ev).buckets i = calendar.buckets i :=
  Function.update_of_ne hne _ _

theorem Stocked.doInsert (stocked : Stocked calendar stored) {ev : Event EventImpl}
    (fresh : ∀ other ∈ stored, ev.key.uid ≠ other.key.uid) :
    Stocked (calendar.doInsert ev) (ev :: stored) where
  someBucket := stocked.someBucket
  positive := stocked.positive
  ordered := by
    intro i hi
    rcases eq_or_ne i (calendar.hash ev.key.ts) with rfl | hne
    · rw [doInsert_same]
      exact (stocked.ordered _ hi).insert fun other hmem =>
        fresh other (stocked.mem_stored hi hmem)
    · rw [doInsert_other hne]
      exact stocked.ordered i hi
  placed := by
    intro i hi other hmem
    rcases eq_or_ne i (calendar.hash ev.key.ts) with rfl | hne
    · rw [doInsert_same] at hmem
      rcases List.mem_cons.mp ((insertInBucket_perm _ ev _).mem_iff.mp hmem) with rfl | hmem
      · rfl
      · exact stocked.placed _ hi other hmem
    · rw [doInsert_other hne] at hmem
      exact stocked.placed i hi other hmem
  content := by
    have hupdate := @flatMap_update_perm _
      (calendar.doInsert ev).buckets (calendar.hash ev.key.ts)
      (calendar.buckets (calendar.hash ev.key.ts)) ev
      (by
        rw [doInsert_same]
        exact insertInBucket_perm _ ev _)
      calendar.nBuckets (stocked.hash_lt _)
    rw [CalendarScheduler.doInsert, Function.update_idem, Function.update_eq_self] at hupdate
    exact hupdate.trans (stocked.content.cons ev)
  distinct := List.pairwise_cons.mpr ⟨fresh, stocked.distinct⟩

/-- Inserting events changes the buckets only. -/
theorem foldl_doInsert (events : List (Event EventImpl)) :
    ∀ calendar : CalendarScheduler EventImpl, ∃ buckets,
      events.foldl CalendarScheduler.doInsert calendar = { calendar with buckets := buckets } := by
  induction events with
  | nil => exact fun calendar => ⟨calendar.buckets, rfl⟩
  | cons ev rest ih =>
      intro calendar
      obtain ⟨buckets, hrest⟩ := ih (calendar.doInsert ev)
      exact ⟨buckets, hrest⟩

theorem Stocked.insertAll (events : List (Event EventImpl)) :
    ∀ {calendar : CalendarScheduler EventImpl} {stored : List (Event EventImpl)},
      Stocked calendar stored →
      (events ++ stored).Pairwise (fun earlier later => earlier.key.uid ≠ later.key.uid) →
      Stocked (events.foldl CalendarScheduler.doInsert calendar) (events ++ stored) := by
  induction events with
  | nil => exact fun stocked _ => stocked
  | cons ev rest ih =>
      intro calendar stored stocked distinct
      have hmoved : (rest ++ ev :: stored).Perm (ev :: rest ++ stored) := List.perm_middle
      have hfresh : ∀ other ∈ stored, ev.key.uid ≠ other.key.uid := fun other hmem =>
        (List.pairwise_cons.mp distinct).1 other (List.mem_append_right rest hmem)
      have hall := ih (stocked.doInsert hfresh)
        (hmoved.symm.pairwise distinct fun hne => hne.symm)
      exact hall.perm hmoved

/-- A bucket one event of which is taken away. -/
theorem Stocked.drop (stocked : Stocked calendar stored) {i : Nat} (hi : i < calendar.nBuckets)
    {ev : Event EventImpl} {bucket others : List (Event EventImpl)}
    (hbucket : (calendar.buckets i).Perm (ev :: bucket)) (hordered : Ordered calendar.reverse bucket)
    (hstored : stored.Perm (ev :: others)) :
    Stocked { calendar with buckets := Function.update calendar.buckets i bucket } others where
  someBucket := stocked.someBucket
  positive := stocked.positive
  ordered := by
    intro other hother
    rcases eq_or_ne other i with rfl | hne
    · show Ordered calendar.reverse (Function.update calendar.buckets other bucket other)
      rw [Function.update_self]
      exact hordered
    · show Ordered calendar.reverse (Function.update calendar.buckets i bucket other)
      rw [Function.update_of_ne hne]
      exact stocked.ordered other hother
  placed := by
    intro other hother stay hmem
    rcases eq_or_ne other i with rfl | hne
    · replace hmem : stay ∈ Function.update calendar.buckets other bucket other := hmem
      rw [Function.update_self] at hmem
      exact stocked.placed _ hi stay (hbucket.mem_iff.mpr (List.mem_cons_of_mem _ hmem))
    · replace hmem : stay ∈ Function.update calendar.buckets i bucket other := hmem
      rw [Function.update_of_ne hne] at hmem
      exact stocked.placed other hother stay hmem
  content := by
    have hupdate := flatMap_update_perm hbucket calendar.nBuckets hi
    exact (hupdate.symm.trans (stocked.content.trans hstored)).cons_inv
  distinct :=
    (List.pairwise_cons.mp (hstored.pairwise stocked.distinct fun hne => hne.symm)).2

/-! ## The next event -/

/-- What the queue and the sampling leave alone. -/
structure SameShape (calendar next : CalendarScheduler EventImpl) : Prop where
  nBuckets : next.nBuckets = calendar.nBuckets
  width : next.width = calendar.width
  reverse : next.reverse = calendar.reverse
  qSize : next.qSize = calendar.qSize

/-- The event a removal takes: the least one, after which the search starts on its day. -/
def Takes (calendar : CalendarScheduler EventImpl) (stored : List (Event EventImpl))
    (next : CalendarScheduler EventImpl) (ev : Event EventImpl) : Prop :=
  SameShape calendar next ∧ ∃ others, stored.Perm (ev :: others) ∧
    (∀ other ∈ stored, ev.rank ≤ other.rank) ∧ Holds next others ∧ next.lastPrio = ev.key.ts

theorem Holds.take (holds : Holds calendar stored) {i : Nat} (hi : i < calendar.nBuckets)
    {ev : Event EventImpl}
    (hnext : nextEvent calendar.reverse (calendar.buckets i) = some ev)
    (hleast : ∀ other ∈ stored, ev.rank ≤ other.rank) :
    Takes calendar stored (calendar.take i (topOf calendar.width ev.key.ts) ev.key.ts) ev := by
  have hmem := holds.mem_stored hi (nextEvent_mem hnext)
  obtain ⟨others, hothers⟩ : ∃ others, stored.Perm (ev :: others) := by
    obtain ⟨before, after, rfl⟩ := List.append_of_mem hmem
    exact ⟨before ++ after, List.perm_middle⟩
  have hdrop := holds.toStocked.drop hi ((holds.ordered i hi).next hnext).1
    (holds.ordered i hi).pop hothers
  refine ⟨⟨rfl, rfl, rfl, rfl⟩, others, hothers, hleast, ?_, rfl⟩
  exact {
    someBucket := hdrop.someBucket
    positive := hdrop.positive
    ordered := hdrop.ordered
    placed := hdrop.placed
    content := hdrop.content
    distinct := hdrop.distinct
    lastBucket := rfl
    bucketTop := rfl
    due := by
      intro other hother
      have hin := hothers.mem_iff.mpr (List.mem_cons_of_mem ev hother)
      refine ⟨?_, (holds.due other hin).2⟩
      have hrank := hleast other hin
      have huid := ev.key.uid.toNat_lt
      have huid' := other.key.uid.toNat_lt
      rw [Event.rank, Event.rank, EventKey.rank, EventKey.rank] at hrank
      show ev.key.ts.toNat ≤ other.key.ts.toNat
      omega }

theorem Holds.less_max (holds : Holds calendar stored) {uid context : UInt32} :
    ∀ ev ∈ stored, ev.key.Less ⟨0xffffffffffffffff, uid, context⟩ := by
  intro ev hev
  have hmax : 2 ^ 63 < (0xffffffffffffffff : UInt64).toNat := by decide
  exact .inl (UInt64.lt_iff_toNat_lt.mpr (lt_trans (holds.due ev hev).2 hmax))

theorem Holds.doRemoveNext (holds : Holds calendar stored) (hne : stored ≠ []) :
    ∃ next ev, calendar.doRemoveNext = some (next, ev) ∧ Takes calendar stored next ev := by
  have hfound := holds.searchFrom_least (@Holds.less_max _ _ _ holds 0 0xffffffff)
  rw [CalendarScheduler.doRemoveNext]
  cases hsearch : calendar.searchFrom ⟨0xffffffffffffffff, 0, 0xffffffff⟩ with
  | today i bucketTop ev =>
      rw [hsearch] at hfound
      obtain ⟨rfl, rfl, hnext, hleast⟩ := hfound
      exact ⟨_, ev, rfl, holds.take (holds.hash_lt _) hnext hleast⟩
  | least best =>
      rw [hsearch] at hfound
      cases best with
      | none => exact absurd hfound hne
      | some best =>
          obtain ⟨hi, hnext, hleast⟩ := hfound
          exact ⟨_, best.2, rfl, holds.take hi hnext hleast⟩

theorem Holds.peekNext (holds : Holds calendar stored) (hne : stored ≠ []) :
    ∃ ev ∈ stored, calendar.peekNext = some ev ∧ ∀ other ∈ stored, ev.rank ≤ other.rank := by
  have hfound := holds.searchFrom_least (@Holds.less_max _ _ _ holds 0xffffffff 0)
  rw [CalendarScheduler.peekNext]
  cases hsearch : calendar.searchFrom ⟨0xffffffffffffffff, 0xffffffff, 0⟩ with
  | today i bucketTop ev =>
      rw [hsearch] at hfound
      obtain ⟨rfl, rfl, hnext, hleast⟩ := hfound
      exact ⟨ev, holds.mem_stored (holds.hash_lt _) (nextEvent_mem hnext), rfl, hleast⟩
  | least best =>
      rw [hsearch] at hfound
      cases best with
      | none => exact absurd hfound hne
      | some best =>
          obtain ⟨hi, hnext, hleast⟩ := hfound
          exact ⟨best.2, holds.mem_stored hi (nextEvent_mem hnext), rfl, hleast⟩

/-! ## Resizing -/

theorem SameShape.trans {first second third : CalendarScheduler EventImpl}
    (left : SameShape first second) (right : SameShape second third) : SameShape first third where
  nBuckets := right.nBuckets.trans left.nBuckets
  width := right.width.trans left.width
  reverse := right.reverse.trans left.reverse
  qSize := right.qSize.trans left.qSize

theorem Holds.removeSamples (nSamples : Nat) :
    ∀ {calendar : CalendarScheduler EventImpl} {stored : List (Event EventImpl)},
      Holds calendar stored → nSamples ≤ stored.length →
      ∃ rest samples others, calendar.removeSamples nSamples = some (rest, samples) ∧
        stored.Perm (samples ++ others) ∧ Holds rest others ∧ SameShape calendar rest := by
  induction nSamples with
  | zero =>
      intro calendar stored holds _
      exact ⟨calendar, [], stored, rfl, List.Perm.refl _, holds, rfl, rfl, rfl, rfl⟩
  | succ nSamples ih =>
      intro calendar stored holds hlength
      have hne : stored ≠ [] := by
        rintro rfl
        exact Nat.not_succ_le_zero nSamples hlength
      obtain ⟨next, ev, hremove, shape, others, hperm, -, hnext, -⟩ := holds.doRemoveNext hne
      have hothers : nSamples ≤ others.length := by
        have := hperm.length_eq
        rw [List.length_cons] at this
        omega
      obtain ⟨rest, samples, remaining, hsamples, hsplit, hrest, hshape⟩ := ih hnext hothers
      refine ⟨rest, ev :: samples, remaining, ?_, ?_, hrest, shape.trans hshape⟩
      · rw [CalendarScheduler.removeSamples, hremove]
        simp only [hsamples, Option.map_some]
      · exact hperm.trans (hsplit.cons ev)

theorem sampleCount_le (qSize : UInt32) : sampleCount qSize ≤ qSize.toNat := by
  have hdiv : (qSize / 10).toNat = qSize.toNat / 10 := UInt32.toNat_div _ _
  rw [sampleCount]
  split
  · exact Nat.le_refl _
  next hbig =>
    have : 5 < qSize.toNat := UInt32.lt_iff_toNat_lt.mp (UInt32.not_le.mp hbig)
    rw [hdiv]
    omega

theorem widthOf_pos (samples : List (Event EventImpl)) : 0 < (widthOf samples).toNat := by
  rw [widthOf]
  generalize ((separations samples).filter _).sum * 3 = total
  show 0 < (if total ≤ 1 then 1 else total).toNat
  split
  · exact Nat.one_pos
  next hbig =>
    have : 1 < total.toNat := UInt64.lt_iff_toNat_lt.mp (UInt64.not_le.mp hbig)
    exact Nat.zero_lt_of_lt this

/-- The sampling puts back what it took and restores where the search starts. -/
theorem Holds.calculateNewWidth (holds : Holds calendar stored)
    (hsize : calendar.qSize.toNat ≤ stored.length) :
    ∃ next width, calendar.calculateNewWidth = some (next, width) ∧ 0 < width.toNat ∧
      Holds next stored ∧ next.lastPrio = calendar.lastPrio ∧ SameShape calendar next := by
  rw [CalendarScheduler.calculateNewWidth]
  split
  · exact ⟨calendar, 1, rfl, Nat.one_pos, holds, rfl, rfl, rfl, rfl, rfl⟩
  · obtain ⟨rest, samples, others, hsamples, hsplit, hrest, shape⟩ :=
      holds.removeSamples (sampleCount calendar.qSize) ((sampleCount_le _).trans hsize)
    obtain ⟨buckets, hback⟩ := foldl_doInsert samples rest
    have hstocked := hrest.toStocked.insertAll samples
      (hsplit.pairwise holds.distinct fun hne => hne.symm)
    rw [hback] at hstocked
    rw [hsamples, Option.map_some]
    refine ⟨_, _, rfl, widthOf_pos samples, ?_, rfl, ?_⟩
    · have hall := hstocked.perm hsplit.symm
      rw [hback]
      exact {
        someBucket := hall.someBucket
        positive := hall.positive
        ordered := hall.ordered
        placed := hall.placed
        content := hall.content
        distinct := hall.distinct
        lastBucket := by
          show calendar.lastBucket = hashOf rest.nBuckets rest.width calendar.lastPrio
          rw [shape.nBuckets, shape.width]
          exact holds.lastBucket
        bucketTop := by
          show calendar.bucketTop = topOf rest.width calendar.lastPrio
          rw [shape.width]
          exact holds.bucketTop
        due := holds.due }
    · rw [hback]
      exact ⟨shape.nBuckets, shape.width, shape.reverse, shape.qSize⟩

/-- Distributing the events again keeps all of them. -/
theorem Holds.doResize (holds : Holds calendar stored) {newSize : Nat} {newWidth : UInt64}
    (hsize : 0 < newSize) (hwidth : 0 < newWidth.toNat) :
    Holds (calendar.doResize newSize newWidth) stored ∧
      (calendar.doResize newSize newWidth).lastPrio = calendar.lastPrio ∧
      (calendar.doResize newSize newWidth).qSize = calendar.qSize := by
  have hfresh : Stocked (calendar.init newSize newWidth calendar.lastPrio) [] :=
    { someBucket := hsize
      positive := hwidth
      ordered := fun _ _ => List.Pairwise.nil
      placed := fun _ _ _ hmem => nomatch hmem
      content := by
        have hnone : (calendar.init newSize newWidth calendar.lastPrio).allEvents = [] :=
          List.flatMap_eq_nil_iff.mpr fun _ _ => rfl
        rw [hnone]
      distinct := List.Pairwise.nil }
  have hall := hfresh.insertAll calendar.allEvents (by
    rw [List.append_nil]
    exact holds.content.symm.pairwise holds.distinct fun hne => hne.symm)
  obtain ⟨buckets, hback⟩ :=
    foldl_doInsert calendar.allEvents (calendar.init newSize newWidth calendar.lastPrio)
  rw [List.append_nil, hback] at hall
  have hstocked := hall.perm holds.content
  rw [CalendarScheduler.doResize, hback]
  refine ⟨?_, rfl, rfl⟩
  exact { hstocked with lastBucket := rfl, bucketTop := rfl, due := holds.due }

theorem Holds.resize (holds : Holds calendar stored) {newSize : Nat} (hpos : 0 < newSize)
    (hsize : calendar.qSize.toNat ≤ stored.length) :
    ∃ next, calendar.resize newSize = some next ∧ Holds next stored ∧
      next.lastPrio = calendar.lastPrio ∧ next.qSize = calendar.qSize := by
  obtain ⟨sampled, width, hwidth, hpositive, hholds, hlast, shape⟩ :=
    holds.calculateNewWidth hsize
  obtain ⟨hresized, hprio, hqSize⟩ := hholds.doResize hpos hpositive
  refine ⟨sampled.doResize newSize width, ?_, hresized, hprio.trans hlast,
    hqSize.trans shape.qSize⟩
  rw [CalendarScheduler.resize, hwidth]
  rfl

theorem Holds.resizeUp (holds : Holds calendar stored)
    (hsize : calendar.qSize.toNat ≤ stored.length) :
    ∃ next, calendar.resizeUp = some next ∧ Holds next stored ∧
      next.lastPrio = calendar.lastPrio ∧ next.qSize = calendar.qSize := by
  rw [CalendarScheduler.resizeUp]
  split
  · exact holds.resize (Nat.mul_pos holds.someBucket Nat.two_pos) hsize
  · exact ⟨calendar, rfl, holds, rfl, rfl⟩

theorem Holds.resizeDown (holds : Holds calendar stored)
    (hsize : calendar.qSize.toNat ≤ stored.length) :
    ∃ next, calendar.resizeDown = some next ∧ Holds next stored ∧
      next.lastPrio = calendar.lastPrio ∧ next.qSize = calendar.qSize := by
  rw [CalendarScheduler.resizeDown]
  split
  next hfew => exact holds.resize (Nat.zero_lt_of_lt hfew) hsize
  next => exact ⟨calendar, rfl, holds, rfl, rfl⟩

/-! ## Operations -/

/-- The calendar follows a list and the time of the last removed event. -/
structure Tracks (calendar : CalendarScheduler EventImpl)
    (timed : UInt64 × List (Event EventImpl)) : Prop where
  holds : Holds calendar timed.2
  clock : calendar.lastPrio = timed.1
  counts : calendar.qSize.toNat = timed.2.length % 2 ^ 32

theorem Tracks.insert {clock : UInt64} {others : List (Event EventImpl)} {ev : Event EventImpl}
    (tracks : Tracks calendar (clock, stored))
    (fresh : ∀ other ∈ stored, ev.key.uid ≠ other.key.uid) (hlate : clock ≤ ev.key.ts)
    (hsmall : ev.key.ts.toNat < 2 ^ 63) (hperm : (ev :: stored).Perm others) :
    ∃ next, calendar.insert ev = some next ∧ Tracks next (clock, others) := by
  have hcounts : (calendar.qSize + 1).toNat = others.length % 2 ^ 32 := by
    rw [UInt32.toNat_add, tracks.counts, ← hperm.length_eq, List.length_cons, Nat.mod_add_mod]
    rfl
  have holds : Holds { calendar.doInsert ev with qSize := calendar.qSize + 1 } (ev :: stored) := by
    have hstocked := tracks.holds.toStocked.doInsert fresh
    exact {
      someBucket := hstocked.someBucket
      positive := hstocked.positive
      ordered := hstocked.ordered
      placed := hstocked.placed
      content := hstocked.content
      distinct := hstocked.distinct
      lastBucket := tracks.holds.lastBucket
      bucketTop := tracks.holds.bucketTop
      due := by
        intro other hother
        rcases List.mem_cons.mp hother with rfl | hother
        · refine ⟨?_, hsmall⟩
          show calendar.lastPrio.toNat ≤ other.key.ts.toNat
          rw [tracks.clock]
          exact UInt64.le_iff_toNat_le.mp hlate
        · exact tracks.holds.due other hother }
  obtain ⟨next, hnext, hholds, hlast, hqSize⟩ := holds.resizeUp (by
    show (calendar.qSize + 1).toNat ≤ _
    rw [hcounts, hperm.length_eq]
    exact Nat.mod_le _ _)
  refine ⟨next, hnext, hholds.perm hperm, hlast.trans tracks.clock, ?_⟩
  rw [hqSize]
  exact hcounts

/-- The count goes down with the list. -/
theorem counts_pred {qSize : UInt32} {ev : Event EventImpl} {others : List (Event EventImpl)}
    (hcounts : qSize.toNat = stored.length % 2 ^ 32) (hperm : stored.Perm (ev :: others)) :
    (qSize - 1).toNat = others.length % 2 ^ 32 := by
  have hlength := hperm.length_eq
  rw [List.length_cons] at hlength
  have hone : (1 : UInt32).toNat = 1 := rfl
  rw [UInt32.toNat_sub, hcounts, hlength, hone]
  omega

theorem Tracks.removeNext {clock : UInt64} {ev : Event EventImpl} {others : List (Event EventImpl)}
    (tracks : Tracks calendar (clock, ev :: others))
    (sorted : ListScheduler.Sorted (ev :: others)) :
    ∃ next, calendar.removeNext = some (next, ev) ∧ Tracks next (ev.key.ts, others) := by
  obtain ⟨rest, found, hremove, shape, remaining, hperm, hleast, hholds, hlast⟩ :=
    tracks.holds.doRemoveNext (List.cons_ne_nil ev others)
  have hfound : found ∈ ev :: others := hperm.mem_iff.mpr List.mem_cons_self
  obtain rfl : found = ev :=
    sorted.eq_of_rank hfound List.mem_cons_self
      (Nat.le_antisymm (hleast ev List.mem_cons_self) (sorted.head_le hfound))
  have hothers : remaining.Perm others := hperm.symm.cons_inv
  have hcounts := counts_pred tracks.counts (List.Perm.refl (found :: others))
  have holds : Holds { rest with qSize := calendar.qSize - 1 } others := by
    have hperm' := hholds.perm hothers
    exact {
      someBucket := hperm'.someBucket
      positive := hperm'.positive
      ordered := hperm'.ordered
      placed := hperm'.placed
      content := hperm'.content
      distinct := hperm'.distinct
      lastBucket := hperm'.lastBucket
      bucketTop := hperm'.bucketTop
      due := hperm'.due }
  obtain ⟨next, hnext, hresized, hprio, hqSize⟩ := holds.resizeDown (by
    show (calendar.qSize - 1).toNat ≤ _
    rw [hcounts]
    exact Nat.mod_le _ _)
  refine ⟨next, ?_, hresized, hprio.trans hlast, ?_⟩
  · rw [CalendarScheduler.removeNext, hremove]
    simp only [hnext, Option.map_some]
  · rw [hqSize]
    exact hcounts

theorem Tracks.remove {clock : UInt64} {ev : Event EventImpl} {others : List (Event EventImpl)}
    (tracks : Tracks calendar (clock, stored)) (hmem : ev ∈ stored)
    (hperm : stored.Perm (ev :: others)) :
    ∃ next, calendar.remove ev = some next ∧ Tracks next (clock, others) := by
  have holds := tracks.holds
  have hbucket := holds.mem_bucket hmem
  have hin := holds.hash_lt ev.key.ts
  have hrest := ListScheduler.remove_perm_of_uid
    (fun other hother huid =>
      ListScheduler.eq_of_distinct holds.distinct (holds.mem_stored hin hother) hmem huid) hbucket
  have hdrop := holds.toStocked.drop hin hrest
    ((holds.ordered _ hin).sublist List.eraseP_sublist) hperm
  have hcounts := counts_pred tracks.counts hperm
  have hremoved : Holds { calendar with
      buckets := Function.update calendar.buckets (calendar.hash ev.key.ts)
        ((calendar.buckets (calendar.hash ev.key.ts)).eraseP
          fun other => other.key.uid = ev.key.uid)
      qSize := calendar.qSize - 1 } others :=
    { someBucket := hdrop.someBucket
      positive := hdrop.positive
      ordered := hdrop.ordered
      placed := hdrop.placed
      content := hdrop.content
      distinct := hdrop.distinct
      lastBucket := holds.lastBucket
      bucketTop := holds.bucketTop
      due := fun other hother =>
        holds.due other (hperm.mem_iff.mpr (List.mem_cons_of_mem ev hother)) }
  obtain ⟨next, hnext, hresized, hprio, hqSize⟩ := hremoved.resizeDown (by
    show (calendar.qSize - 1).toNat ≤ _
    rw [hcounts]
    exact Nat.mod_le _ _)
  have hany : (calendar.buckets (calendar.hash ev.key.ts)).any
      (fun other => other.key.uid = ev.key.uid) = true :=
    List.any_eq_true.mpr ⟨ev, hbucket, decide_eq_true rfl⟩
  refine ⟨next, ?_, hresized, hprio.trans tracks.clock, ?_⟩
  · rw [CalendarScheduler.remove, if_pos hany]
    exact hnext
  · rw [hqSize]
    exact hcounts

end CalendarScheduler

/-! ## Runs -/

/-- The sorted list with the time of the last removed event: no event is inserted before it, and
time stamps have 63 bits. -/
def timedStep [DecidableEq EventImpl] : QueueStep (UInt64 × List (Event EventImpl)) EventImpl
  | (clock, events), .insert ev =>
      if clock ≤ ev.key.ts ∧ ev.key.ts < 0x8000000000000000 then
        (ListScheduler.step events (.insert ev)).map fun result => ((clock, result.1), result.2)
      else none
  | (_, events), .removeNext =>
      match events with
      | [] => none
      | head :: tail => some ((head.key.ts, tail), some head)
  | (clock, events), op =>
      (ListScheduler.step events op).map fun result => ((clock, result.1), result.2)

/-- The time only restricts the operations of the sorted list. -/
theorem timedStep_list [DecidableEq EventImpl] {clock clock' : UInt64}
    {events events' : List (Event EventImpl)} {op : QueueOp EventImpl}
    {returned : Option (Event EventImpl)}
    (hstep : timedStep (clock, events) op = some ((clock', events'), returned)) :
    ListScheduler.step events op = some (events', returned) := by
  cases op with
  | insert ev =>
      rw [timedStep] at hstep
      split at hstep
      next =>
        obtain ⟨result, hlist, hresult⟩ := Option.map_eq_some_iff.mp hstep
        obtain ⟨hstate, rfl⟩ := Prod.mk.inj hresult
        obtain ⟨-, rfl⟩ := Prod.mk.inj hstate
        exact hlist
      next => cases hstep
  | removeNext =>
      cases events with
      | nil => cases hstep
      | cons head tail =>
          obtain ⟨hstate, rfl⟩ := Prod.mk.inj (Option.some.inj hstep)
          obtain ⟨-, rfl⟩ := Prod.mk.inj hstate
          rfl
  | remove ev =>
      obtain ⟨result, hlist, hresult⟩ := Option.map_eq_some_iff.mp hstep
      obtain ⟨hstate, rfl⟩ := Prod.mk.inj hresult
      obtain ⟨-, rfl⟩ := Prod.mk.inj hstate
      exact hlist
  | peekNext =>
      obtain ⟨result, hlist, hresult⟩ := Option.map_eq_some_iff.mp hstep
      obtain ⟨hstate, rfl⟩ := Prod.mk.inj hresult
      obtain ⟨-, rfl⟩ := Prod.mk.inj hstate
      exact hlist

theorem timedRun_list [DecidableEq EventImpl] (ops : List (QueueOp EventImpl)) :
    ∀ {timed final : UInt64 × List (Event EventImpl)} {outputs},
      runOps timedStep timed ops = some (final, outputs) →
      runOps ListScheduler.step timed.2 ops = some (final.2, outputs) := by
  induction ops with
  | nil =>
      intro timed final outputs hrun
      obtain ⟨rfl, rfl⟩ := Prod.mk.inj (Option.some.inj hrun)
      rfl
  | cons op rest ih =>
      intro timed final outputs hrun
      obtain ⟨next, returned, others, hstep, hrest, rfl⟩ := runOps_cons hrun
      exact runOps_of_step (timedStep_list hstep) (ih hrest)

namespace CalendarScheduler

theorem empty_tracks (reverse : Bool) :
    Tracks (empty reverse : CalendarScheduler EventImpl) (0, []) where
  holds :=
    { someBucket := Nat.two_pos
      positive := Nat.one_pos
      ordered := fun _ _ => List.Pairwise.nil
      placed := fun _ _ _ hmem => nomatch hmem
      content := List.Perm.refl _
      distinct := List.Pairwise.nil
      lastBucket := rfl
      bucketTop := rfl
      due := fun _ hmem => nomatch hmem }
  clock := rfl
  counts := rfl

/-- One operation follows the sorted list. -/
theorem Tracks.step [DecidableEq EventImpl] {calendar : CalendarScheduler EventImpl}
    {timed next : UInt64 × List (Event EventImpl)} {op : QueueOp EventImpl}
    {returned : Option (Event EventImpl)} (tracks : Tracks calendar timed)
    (sorted : ListScheduler.Sorted timed.2)
    (htimed : timedStep timed op = some (next, returned)) :
    ∃ calendar', CalendarScheduler.step calendar op = some (calendar', returned) ∧
      Tracks calendar' next := by
  obtain ⟨clock, stored⟩ := timed
  cases op with
  | insert ev =>
      rw [timedStep] at htimed
      split at htimed
      next hlate =>
        obtain ⟨result, hlist, hresult⟩ := Option.map_eq_some_iff.mp htimed
        simp only [ListScheduler.step] at hlist
        split at hlist
        next => cases hlist
        next fresh =>
          obtain rfl := Option.some.inj hlist
          obtain ⟨rfl, rfl⟩ := Prod.mk.inj hresult
          obtain ⟨calendar', hinsert, htracks⟩ := tracks.insert
            (fun other hmem heq => fresh ⟨other, hmem, heq.symm⟩) hlate.1
            (UInt64.lt_iff_toNat_lt.mp hlate.2) (ListScheduler.insert_perm ev stored).symm
          refine ⟨calendar', ?_, htracks⟩
          rw [CalendarScheduler.step, hinsert]
          rfl
      next => cases htimed
  | remove ev =>
      obtain ⟨result, hlist, hresult⟩ := Option.map_eq_some_iff.mp htimed
      simp only [ListScheduler.step] at hlist
      split at hlist
      next hmem =>
        obtain rfl := Option.some.inj hlist
        obtain ⟨rfl, rfl⟩ := Prod.mk.inj hresult
        obtain ⟨calendar', hremove, htracks⟩ :=
          tracks.remove hmem (ListScheduler.remove_perm sorted hmem)
        refine ⟨calendar', ?_, htracks⟩
        rw [CalendarScheduler.step, hremove]
        rfl
      next => cases hlist
  | removeNext =>
      cases stored with
      | nil => cases htimed
      | cons head rest =>
          obtain ⟨rfl, rfl⟩ := Prod.mk.inj (Option.some.inj htimed)
          obtain ⟨calendar', hremove, htracks⟩ := tracks.removeNext sorted
          refine ⟨calendar', ?_, htracks⟩
          rw [CalendarScheduler.step, hremove]
          rfl
  | peekNext =>
      cases stored with
      | nil => cases htimed
      | cons head rest =>
          obtain ⟨rfl, rfl⟩ := Prod.mk.inj (Option.some.inj htimed)
          obtain ⟨ev, hmem, hpeek, hleast⟩ :=
            tracks.holds.peekNext (List.cons_ne_nil head rest)
          obtain rfl : ev = head := sorted.eq_of_rank hmem List.mem_cons_self
            (Nat.le_antisymm (hleast head List.mem_cons_self) (sorted.head_le hmem))
          refine ⟨calendar, ?_, tracks⟩
          rw [CalendarScheduler.step, hpeek]
          rfl

/-- A calendar in step with a sorted list announces and removes the least event. -/
theorem Tracks.least {calendar : CalendarScheduler EventImpl}
    {timed : UInt64 × List (Event EventImpl)} (tracks : Tracks calendar timed)
    (sorted : ListScheduler.Sorted timed.2) (hne : timed.2 ≠ []) :
    ∃ least ∈ calendar.allEvents, calendar.peekNext = some least ∧
      calendar.removeNext.map Prod.snd = some least ∧
      ∀ other ∈ calendar.allEvents, other ≠ least → least.key.Less other.key := by
  obtain ⟨clock, stored⟩ := timed
  cases stored with
  | nil => exact absurd rfl hne
  | cons head rest =>
      obtain ⟨ev, hmem, hpeek, hleast⟩ := tracks.holds.peekNext hne
      obtain rfl : ev = head := sorted.eq_of_rank hmem List.mem_cons_self
        (Nat.le_antisymm (hleast head List.mem_cons_self) (sorted.head_le hmem))
      obtain ⟨next, hremove, -⟩ := tracks.removeNext sorted
      refine ⟨ev, tracks.holds.content.mem_iff.mpr hmem, hpeek, ?_, ?_⟩
      · rw [hremove]
        rfl
      · intro other hother hdifferent
        have hstored := tracks.holds.content.mem_iff.mp hother
        apply (EventKey.less_iff _ _).mpr
        apply lt_of_le_of_ne (sorted.head_le hstored)
        intro hrank
        exact hdifferent (sorted.eq_of_rank hstored List.mem_cons_self hrank.symm)

/-- In a run that inserts no event before the last removed one, the calendar returns what the
sorted list returns, holds exactly what was inserted and not removed, and announces the least
event, which it removes next. -/
theorem calendarRun_least [DecidableEq EventImpl] (reverse : Bool) {ops : List (QueueOp EventImpl)}
    {clock : UInt64} {stored : List (Event EventImpl)} {outputs : List (Option (Event EventImpl))}
    (hrun : runOps timedStep (0, []) ops = some ((clock, stored), outputs)) :
    ∃ calendar, runOps CalendarScheduler.step (empty reverse) ops = some (calendar, outputs) ∧
      calendar.allEvents.Perm stored ∧
      (insertedBy ops).Perm (calendar.allEvents ++ removedBy ops outputs) ∧
      (stored ≠ [] → ∃ least ∈ calendar.allEvents, calendar.peekNext = some least ∧
        calendar.removeNext.map Prod.snd = some least ∧
        ∀ other ∈ calendar.allEvents, other ≠ least → least.key.Less other.key) := by
  have hfollows := @runOps_follows EventImpl _ CalendarScheduler.step _ timedStep
    (fun _ _ => True) (fun calendar timed => Tracks calendar timed ∧ ListScheduler.Sorted timed.2)
    (fun htracks _ htimed => by
      obtain ⟨calendar', hstep, htracks'⟩ := htracks.1.step htracks.2 htimed
      exact ⟨calendar', hstep, htracks', (htracks.2.step (timedStep_list htimed)).1⟩)
  obtain ⟨calendar, hcalendar, tracks, sorted⟩ :=
    hfollows ops ⟨empty_tracks reverse, ListScheduler.Sorted.nil⟩ (allFit_true ops _) hrun
  obtain ⟨-, hbalance⟩ := listRun_balance ops ListScheduler.Sorted.nil (timedRun_list ops hrun)
  exact ⟨calendar, hcalendar, tracks.holds.content,
    hbalance.trans (tracks.holds.content.symm.append_right _), tracks.least sorted⟩

/-- Four events at one time and one much later: the calendar grows at the fifth and shrinks again. -/
theorem calendarRun_least_resized :
    ∃ calendar, runOps CalendarScheduler.step (empty true)
        [.insert (eventAt 7 1), .insert (eventAt 7 2), .insert (eventAt 7 3),
          .insert (eventAt 7 4), .insert (eventAt 900 5), .remove (eventAt 7 2), .removeNext,
          .removeNext, .removeNext, .peekNext] =
        some (calendar, [none, none, none, none, none, none, some (eventAt 7 1),
          some (eventAt 7 3), some (eventAt 7 4), some (eventAt 900 5)]) ∧
      calendar.allEvents.Perm [eventAt 900 5] := by
  obtain ⟨calendar, hcalendar, hperm, -⟩ := @calendarRun_least Unit _ true
    [.insert (eventAt 7 1), .insert (eventAt 7 2), .insert (eventAt 7 3),
      .insert (eventAt 7 4), .insert (eventAt 900 5), .remove (eventAt 7 2), .removeNext,
      .removeNext, .removeNext, .peekNext] 7 [eventAt 900 5]
    [none, none, none, none, none, none, some (eventAt 7 1), some (eventAt 7 3),
      some (eventAt 7 4), some (eventAt 900 5)] (by decide +kernel)
  exact ⟨calendar, hcalendar, hperm⟩

end CalendarScheduler

end DeepcV2x.Scheduler
