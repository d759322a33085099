import DeepcV2x.Foundation.HeapOrder
import DeepcV2x.Scheduler.Events

/-!
# The heap scheduler

`HeapScheduler` on its array, whose first element is never used.  `Remove`
moves the last event into the hole and only lets it sink.
-/

namespace DeepcV2x.Scheduler

open DeepcV2x.Foundation.HeapOrder

variable {EventImpl : Type}

structure HeapScheduler (EventImpl : Type) where
  heap : Array (Event EventImpl)
  deriving DecidableEq, Repr

namespace HeapScheduler

/-- The element wasted at the start of the array. -/
def wasted : Event EventImpl := ⟨none, ⟨0, 0, 0⟩⟩

def empty : HeapScheduler EventImpl := ⟨#[wasted]⟩

section Functions

variable (heap : Array (Event EventImpl))

def parent (id : Nat) : Nat := id / 2
def leftChild (id : Nat) : Nat := id * 2
def rightChild (id : Nat) : Nat := id * 2 + 1
def root : Nat := 1
def last : Nat := heap.size - 1

def isBottom (id : Nat) : Bool := heap.size ≤ id

def exch (a b : Nat) : Array (Event EventImpl) := heap.swapIfInBounds a b

def isLessStrictly (a b : Nat) : Bool :=
  decide ((heap.getD a wasted).key.Less (heap.getD b wasted).key)

def smallest (a b : Nat) : Nat := if isLessStrictly heap a b then a else b

end Functions

/-- The loop of `BottomUp`; every turn at least halves the index. -/
def bottomUpFrom : Nat → Array (Event EventImpl) → Nat → Array (Event EventImpl)
  | 0, heap, _ => heap
  | fuel + 1, heap, index =>
      if index ≠ root ∧ isLessStrictly heap index (parent index) then
        bottomUpFrom fuel (exch heap index (parent index)) (parent index)
      else heap

def bottomUp (heap : Array (Event EventImpl)) : Array (Event EventImpl) :=
  bottomUpFrom (last heap) heap (last heap)

/-- The loop of `TopDown` and what follows it; every turn increases the index. -/
def topDownFrom : Nat → Array (Event EventImpl) → Nat → Array (Event EventImpl)
  | 0, heap, _ => heap
  | fuel + 1, heap, index =>
      if isBottom heap (rightChild index) then
        if isBottom heap index || isBottom heap (leftChild index) ||
            isLessStrictly heap index (leftChild index) then heap
        else exch heap index (leftChild index)
      else if isLessStrictly heap index
          (smallest heap (leftChild index) (rightChild index)) then heap
      else topDownFrom fuel
        (exch heap index (smallest heap (leftChild index) (rightChild index)))
        (smallest heap (leftChild index) (rightChild index))

def topDown (heap : Array (Event EventImpl)) (start : Nat) : Array (Event EventImpl) :=
  topDownFrom heap.size heap start

def isEmpty (scheduler : HeapScheduler EventImpl) : Bool := scheduler.heap.size = 1

def insert (scheduler : HeapScheduler EventImpl) (ev : Event EventImpl) :
    HeapScheduler EventImpl :=
  ⟨bottomUp (scheduler.heap.push ev)⟩

def peekNext (scheduler : HeapScheduler EventImpl) : Option (Event EventImpl) :=
  scheduler.heap[root]?

def removeNext (scheduler : HeapScheduler EventImpl) :
    Option (HeapScheduler EventImpl × Event EventImpl) :=
  match scheduler.heap[root]? with
  | none => none
  | some next => some (⟨topDown (exch scheduler.heap root (last scheduler.heap)).pop root⟩, next)

/-- The index at which `Remove` finds an event. -/
def position (scheduler : HeapScheduler EventImpl) (ev : Event EventImpl) : Option Nat :=
  (List.range' 1 (scheduler.heap.size - 1)).find? fun i =>
    (scheduler.heap.getD i wasted).key.uid = ev.key.uid

def remove (scheduler : HeapScheduler EventImpl) (ev : Event EventImpl) :
    Option (HeapScheduler EventImpl) :=
  match scheduler.position ev with
  | none => none
  | some i => some ⟨topDown (exch scheduler.heap i (last scheduler.heap)).pop i⟩

def step : QueueStep (HeapScheduler EventImpl) EventImpl
  | scheduler, .insert ev => some (scheduler.insert ev, none)
  | scheduler, .remove ev => (scheduler.remove ev).map fun next => (next, none)
  | scheduler, .removeNext => scheduler.removeNext.map fun removed => (removed.1, some removed.2)
  | scheduler, .peekNext => scheduler.peekNext.map fun next => (scheduler, some next)

/-! ## Keys of the array -/

def keyAt (heap : Array (Event EventImpl)) (index : Nat) : Nat := (heap.getD index wasted).rank

theorem isLessStrictly_iff (heap : Array (Event EventImpl)) (a b : Nat) :
    isLessStrictly heap a b = true ↔ keyAt heap a < keyAt heap b := by
  rw [isLessStrictly, decide_eq_true_eq, EventKey.less_iff]
  rfl

theorem isBottom_iff (heap : Array (Event EventImpl)) (id : Nat) :
    isBottom heap id = true ↔ heap.size ≤ id := decide_eq_true_iff

theorem size_exch (heap : Array (Event EventImpl)) (a b : Nat) :
    (exch heap a b).size = heap.size := Array.size_swapIfInBounds

theorem exch_eq_swap {heap : Array (Event EventImpl)} {a b : Nat} (ha : a < heap.size)
    (hb : b < heap.size) : exch heap a b = heap.swap a b ha hb := by
  rw [exch, Array.swapIfInBounds_def, dif_pos ha, dif_pos hb]

theorem keyAt_exch {heap : Array (Event EventImpl)} {a b : Nat} (ha : a < heap.size)
    (hb : b < heap.size) : keyAt (exch heap a b) = exchanged (keyAt heap) a b := by
  funext index
  rw [keyAt, Array.getD_eq_getD_getElem?, exch_eq_swap ha hb, Array.getElem?_swap, exchanged,
    keyAt, keyAt, keyAt, Array.getD_eq_getD_getElem?, Array.getD_eq_getD_getElem?,
    Array.getD_eq_getD_getElem?, Array.getElem?_eq_getElem ha, Array.getElem?_eq_getElem hb]
  by_cases hfirst : index = a
  · by_cases hsecond : b = index
    · subst hfirst hsecond
      rw [if_pos rfl, if_pos rfl]
    · rw [if_neg hsecond, if_pos hfirst.symm, if_pos hfirst]
  · by_cases hsecond : b = index
    · rw [if_pos hsecond, if_neg hfirst, if_pos hsecond.symm]
    · rw [if_neg hsecond, if_neg (Ne.symm hfirst), if_neg hfirst, if_neg (Ne.symm hsecond)]

/-- The same events, and the wasted one where it was. -/
structure Rearranges (heap other : Array (Event EventImpl)) : Prop where
  size : other.size = heap.size
  wasted : other[0]? = heap[0]?
  perm : other.toList.Perm heap.toList

theorem Rearranges.refl (heap : Array (Event EventImpl)) : Rearranges heap heap :=
  ⟨rfl, rfl, List.Perm.refl _⟩

theorem Rearranges.trans {first second third : Array (Event EventImpl)}
    (left : Rearranges first second) (right : Rearranges second third) : Rearranges first third :=
  ⟨right.size.trans left.size, right.wasted.trans left.wasted, right.perm.trans left.perm⟩

theorem rearranges_exch {heap : Array (Event EventImpl)} {a b : Nat} (hpos : 1 ≤ a)
    (ha : a < heap.size) (hpos' : 1 ≤ b) (hb : b < heap.size) :
    Rearranges heap (exch heap a b) := by
  refine ⟨size_exch heap a b, ?_, ?_⟩
  · rw [exch_eq_swap ha hb, Array.getElem?_swap, if_neg (by omega), if_neg (by omega)]
  · rw [exch_eq_swap ha hb]
    exact Array.perm_iff_toList_perm.mp (Array.swap_perm ha hb)

/-! ## The loops -/

/-- Rising from an index restores the order above it. -/
theorem bottomUpFrom_spec (fuel : Nat) : ∀ (heap : Array (Event EventImpl)) (index : Nat),
    index ≤ fuel → 1 ≤ index → index < heap.size → UpReady heap.size (keyAt heap) index →
    HeapOrdered heap.size (keyAt (bottomUpFrom fuel heap index)) ∧
      Rearranges heap (bottomUpFrom fuel heap index) := by
  induction fuel with
  | zero => omega
  | succ fuel ih =>
      intro heap index hfuel hpos hlt ready
      rw [bottomUpFrom]
      split
      next hturn =>
        have hbig : 2 ≤ index := by
          have := hturn.1
          rw [root] at this
          omega
        have hless := (isLessStrictly_iff heap _ _).mp hturn.2
        have hparent : parent index = index / 2 := rfl
        rw [hparent] at hless ⊢
        have hmoved := ready.move hbig hlt hless
        have hparentLt : index / 2 < heap.size := by omega
        rw [← keyAt_exch hlt hparentLt, ← size_exch heap index (index / 2)] at hmoved
        obtain ⟨hordered, hrest⟩ := ih _ (index / 2) (by omega) (by omega)
          (by rw [size_exch]; exact hparentLt) hmoved
        rw [size_exch] at hordered
        exact ⟨hordered, (rearranges_exch hpos hlt (by omega) hparentLt).trans hrest⟩
      next hstop =>
        refine ⟨ready.finish ?_, Rearranges.refl heap⟩
        intro hbig
        by_contra hless
        apply hstop
        refine ⟨?_, (isLessStrictly_iff heap _ _).mpr (not_le.mp hless)⟩
        rw [root]
        omega

theorem smallest_cases (heap : Array (Event EventImpl)) (a b : Nat) :
    (smallest heap a b = a ∨ smallest heap a b = b) ∧
      keyAt heap (smallest heap a b) ≤ keyAt heap a ∧
        keyAt heap (smallest heap a b) ≤ keyAt heap b := by
  rw [smallest]
  split
  next hless => exact ⟨Or.inl rfl, le_rfl, ((isLessStrictly_iff heap a b).mp hless).le⟩
  next hnot =>
    refine ⟨Or.inr rfl, ?_, le_rfl⟩
    apply not_lt.mp
    intro hless
    exact hnot ((isLessStrictly_iff heap a b).mpr hless)

/-- Sinking from an index restores the order below it. -/
theorem topDownFrom_spec (fuel : Nat) : ∀ (heap : Array (Event EventImpl)) (index : Nat),
    heap.size ≤ fuel + index → 1 ≤ index → DownReady heap.size (keyAt heap) index →
    HeapOrdered heap.size (keyAt (topDownFrom fuel heap index)) ∧
      Rearranges heap (topDownFrom fuel heap index) := by
  induction fuel with
  | zero =>
      intro heap index hfuel hpos ready
      refine ⟨ready.finish ?_, Rearranges.refl heap⟩
      intro child _ hchild hlt
      omega
  | succ fuel ih =>
      intro heap index hfuel hpos ready
      have hchildren : ∀ child, 2 ≤ child → child / 2 = index →
          child = leftChild index ∨ child = rightChild index := by
        intro child _ hchild
        rw [leftChild, rightChild]
        omega
      have hleft : leftChild index / 2 = index := by
        rw [leftChild]
        omega
      have hright : rightChild index / 2 = index := by
        rw [rightChild]
        omega
      have hnext : rightChild index = leftChild index + 1 := rfl
      have hbelow : index < leftChild index := by
        rw [leftChild]
        omega
      rw [topDownFrom]
      split
      next hbottom =>
        have hnoRight := (isBottom_iff heap _).mp hbottom
        split
        next hstop =>
          refine ⟨ready.finish ?_, Rearranges.refl heap⟩
          intro child hbig hchild hlt
          rcases hchildren child hbig hchild with rfl | rfl
          · rw [Bool.or_eq_true, Bool.or_eq_true, isBottom_iff, isBottom_iff,
              isLessStrictly_iff] at hstop
            rcases hstop with (hout | hout) | hless
            · omega
            · omega
            · exact hless.le
          · omega
        next hgo =>
          rw [Bool.or_eq_true, Bool.or_eq_true, isBottom_iff, isBottom_iff, isLessStrictly_iff,
            not_or, not_or, not_le, not_le, not_lt] at hgo
          obtain ⟨⟨hindex, hleftLt⟩, hle⟩ := hgo
          have honly : ∀ other, 2 ≤ other → other / 2 = index → other < heap.size →
              keyAt heap (leftChild index) ≤ keyAt heap other := by
            intro other hbig hchild hlt
            rcases hchildren other hbig hchild with rfl | rfl
            · exact le_rfl
            · omega
          have hmoved := ready.move hpos hleft hleftLt hle honly
          rw [← keyAt_exch hindex hleftLt] at hmoved
          refine ⟨hmoved.finish ?_, rearranges_exch hpos hindex (by omega) hleftLt⟩
          intro child _ hchild hlt
          omega
      next hinside =>
        rw [isBottom_iff, not_le] at hinside
        obtain ⟨hcases, hleastLeft, hleastRight⟩ :=
          smallest_cases heap (leftChild index) (rightChild index)
        have hsmallest : smallest heap (leftChild index) (rightChild index) / 2 = index := by
          rcases hcases with heq | heq
          · rw [heq, hleft]
          · rw [heq, hright]
        have hsmallestLt : smallest heap (leftChild index) (rightChild index) < heap.size := by
          omega
        have hleast : ∀ other, 2 ≤ other → other / 2 = index → other < heap.size →
            keyAt heap (smallest heap (leftChild index) (rightChild index)) ≤
              keyAt heap other := by
          intro other hbig hchild _
          rcases hchildren other hbig hchild with rfl | rfl
          · exact hleastLeft
          · exact hleastRight
        split
        next hless =>
          rw [isLessStrictly_iff] at hless
          refine ⟨ready.finish ?_, Rearranges.refl heap⟩
          intro child hbig hchild hlt
          exact hless.le.trans (hleast child hbig hchild hlt)
        next hnot =>
          rw [isLessStrictly_iff, not_lt] at hnot
          have hindex : index < heap.size := by omega
          have hmoved := ready.move hpos hsmallest hsmallestLt hnot hleast
          rw [← keyAt_exch hindex hsmallestLt, ← size_exch heap index
            (smallest heap (leftChild index) (rightChild index))] at hmoved
          obtain ⟨hordered, hrest⟩ := ih _ _ (by rw [size_exch]; omega) (by omega) hmoved
          rw [size_exch] at hordered
          exact ⟨hordered, (rearranges_exch hpos hindex (by omega) hsmallestLt).trans hrest⟩

/-! ## The stored events -/

def events (scheduler : HeapScheduler EventImpl) : List (Event EventImpl) :=
  scheduler.heap.toList.tail

/-- The heap holds the events of a sorted list. -/
structure Tracks (scheduler : HeapScheduler EventImpl) (stored : List (Event EventImpl)) :
    Prop where
  nonempty : 1 ≤ scheduler.heap.size
  ordered : HeapOrdered scheduler.heap.size (keyAt scheduler.heap)
  perm : scheduler.events.Perm stored
  sorted : ListScheduler.Sorted stored

theorem tail_perm {left right : List (Event EventImpl)} (hhead : left[0]? = right[0]?)
    (hperm : left.Perm right) : left.tail.Perm right.tail := by
  cases left with
  | nil =>
      rw [List.nil_perm.mp hperm]
  | cons first rest =>
      cases right with
      | nil => cases hhead
      | cons other others =>
          obtain rfl : first = other := Option.some.inj hhead
          exact hperm.cons_inv

theorem Rearranges.events {heap other : Array (Event EventImpl)} (same : Rearranges heap other) :
    (HeapScheduler.mk other).events.Perm (HeapScheduler.mk heap).events := by
  apply tail_perm _ same.perm
  rw [Array.getElem?_toList, Array.getElem?_toList]
  exact same.wasted

theorem keyAt_of_getElem? {heap : Array (Event EventImpl)} {index : Nat} {ev : Event EventImpl}
    (hget : heap[index]? = some ev) : keyAt heap index = ev.rank := by
  rw [keyAt, Array.getD_eq_getD_getElem?, hget, Option.getD_some]

theorem mem_events_iff {scheduler : HeapScheduler EventImpl} {ev : Event EventImpl} :
    ev ∈ scheduler.events ↔ ∃ index, 1 ≤ index ∧ scheduler.heap[index]? = some ev := by
  rw [events, List.mem_iff_getElem?]
  constructor
  · rintro ⟨index, hget⟩
    rw [List.getElem?_tail, Array.getElem?_toList] at hget
    exact ⟨index + 1, Nat.succ_pos _, hget⟩
  · rintro ⟨index, hpos, hget⟩
    refine ⟨index - 1, ?_⟩
    rw [List.getElem?_tail, Array.getElem?_toList, Nat.sub_add_cancel hpos]
    exact hget

theorem empty_tracks : Tracks (empty : HeapScheduler EventImpl) [] where
  nonempty := le_rfl
  ordered := by
    intro index hbig hlt
    exact absurd hlt (not_lt.mpr (Nat.le_of_succ_le hbig))
  perm := List.Perm.refl _
  sorted := ListScheduler.Sorted.nil

/-! ## Operations -/

section Operations

variable {scheduler : HeapScheduler EventImpl} {stored : List (Event EventImpl)}

theorem Tracks.insert (tracks : Tracks scheduler stored) {ev : Event EventImpl}
    (fresh : ∀ other ∈ stored, other.key.uid ≠ ev.key.uid) :
    Tracks (scheduler.insert ev) (ListScheduler.insert ev stored) := by
  have hpos := tracks.nonempty
  have hlast : last (scheduler.heap.push ev) = scheduler.heap.size := by
    rw [last, Array.size_push, Nat.add_sub_cancel]
  have hkeys : ∀ index, index < scheduler.heap.size →
      keyAt (scheduler.heap.push ev) index = keyAt scheduler.heap index := by
    intro index hlt
    rw [keyAt, keyAt, Array.getD_eq_getD_getElem?, Array.getD_eq_getD_getElem?,
      Array.getElem?_push_lt hlt, Array.getElem?_eq_getElem hlt]
  have hready := tracks.ordered.append hkeys
  rw [← Array.size_push ev] at hready
  obtain ⟨hordered, hsame⟩ := bottomUpFrom_spec (last (scheduler.heap.push ev))
    (scheduler.heap.push ev) scheduler.heap.size (le_of_eq hlast.symm) hpos
    (by rw [Array.size_push]; exact Nat.lt_succ_self _) hready
  rw [← hlast] at hordered hsame
  have hpush : (HeapScheduler.mk (scheduler.heap.push ev)).events.Perm
      (ev :: scheduler.events) := by
    rw [events, events, Array.toList_push]
    cases hlist : scheduler.heap.toList with
    | nil =>
        have hempty : scheduler.heap.size = 0 := by
          rw [← Array.length_toList, hlist]
          rfl
        omega
    | cons first rest => exact List.perm_append_singleton ev rest
  refine ⟨?_, ?_, ?_, tracks.sorted.insert fresh⟩
  · show 1 ≤ (bottomUp (scheduler.heap.push ev)).size
    rw [bottomUp, hsame.size, Array.size_push]
    omega
  · show HeapOrdered (bottomUp (scheduler.heap.push ev)).size _
    rw [bottomUp, hsame.size]
    exact hordered
  · exact (hsame.events.trans hpush).trans
      ((tracks.perm.cons ev).trans (ListScheduler.insert_perm ev stored).symm)

/-- The root is the least of the stored events. -/
theorem Tracks.root_eq {head : Event EventImpl} {rest : List (Event EventImpl)}
    (tracks : Tracks scheduler (head :: rest)) : scheduler.heap[root]? = some head := by
  obtain ⟨index, hpos, hget⟩ := mem_events_iff.mp (tracks.perm.mem_iff.mpr List.mem_cons_self)
  have hlt := (Array.getElem?_eq_some_iff.mp hget).1
  obtain ⟨first, hfirst⟩ : ∃ first, scheduler.heap[root]? = some first :=
    ⟨_, Array.getElem?_eq_getElem (Nat.lt_of_le_of_lt hpos hlt)⟩
  have hmem : first ∈ head :: rest :=
    tracks.perm.mem_iff.mp (mem_events_iff.mpr ⟨root, le_rfl, hfirst⟩)
  have hle : first.rank ≤ head.rank := by
    have hroot := tracks.ordered.root_le hpos hlt
    rwa [show keyAt scheduler.heap 1 = first.rank from keyAt_of_getElem? hfirst,
      keyAt_of_getElem? hget] at hroot
  rw [hfirst, tracks.sorted.eq_of_rank hmem List.mem_cons_self
    (le_antisymm hle (tracks.sorted.head_le hmem))]

/-- The array after the last event went into the place of a removed one. -/
def vacated (heap : Array (Event EventImpl)) (hole : Nat) : Array (Event EventImpl) :=
  (exch heap hole (last heap)).pop

theorem vacated_spec {heap : Array (Event EventImpl)} {hole : Nat} {removed : Event EventImpl}
    (hpos : 1 ≤ hole) (hget : heap[hole]? = some removed) :
    (vacated heap hole).size + 1 = heap.size ∧
      (HeapScheduler.mk heap).events.Perm
        (removed :: (HeapScheduler.mk (vacated heap hole)).events) := by
  have hlt := (Array.getElem?_eq_some_iff.mp hget).1
  have hlast : last heap < heap.size := by
    rw [last]
    omega
  have hsize : (exch heap hole (last heap)).size = heap.size := size_exch heap hole (last heap)
  have hswapped : (exch heap hole (last heap))[heap.size - 1]? = some removed := by
    rw [exch_eq_swap hlt hlast, Array.getElem?_swap,
      if_pos (show last heap = heap.size - 1 from rfl), ← hget, Array.getElem?_eq_getElem hlt]
  have hlist : (exch heap hole (last heap)).toList =
      (vacated heap hole).toList ++ [removed] := by
    have hne : (exch heap hole (last heap)).toList ≠ [] := by
      intro hnil
      rw [← Array.length_toList, hnil] at hsize
      exact absurd hsize (Nat.ne_of_lt (Nat.lt_of_le_of_lt (Nat.zero_le _) hlt))
    rw [vacated, Array.toList_pop, ← List.dropLast_append_getLast hne, List.dropLast_concat]
    congr 2
    rw [List.getLast_eq_getElem]
    apply Option.some.inj
    rw [← List.getElem?_eq_getElem, Array.getElem?_toList, Array.length_toList, hsize, hswapped]
  constructor
  · rw [vacated, Array.size_pop, hsize]
    omega
  · refine (rearranges_exch hpos hlt (by rw [last]; omega) hlast).events.symm.trans ?_
    rw [events, hlist, events]
    cases hvacated : (vacated heap hole).toList with
    | nil =>
        have : (exch heap hole (last heap)).size = 1 := by
          rw [← Array.length_toList, hlist, hvacated]
          rfl
        omega
    | cons first rest => exact List.perm_append_singleton removed rest

theorem keyAt_vacated {heap : Array (Event EventImpl)} {hole index : Nat}
    (hhole : hole < heap.size) (hindex : index < heap.size - 1) :
    keyAt (vacated heap hole) index =
      if index = hole then keyAt heap (heap.size - 1) else keyAt heap index := by
  have hlast : last heap < heap.size := by
    rw [last]
    omega
  have hpop : keyAt (vacated heap hole) index = keyAt (exch heap hole (last heap)) index := by
    rw [keyAt, keyAt, Array.getD_eq_getD_getElem?, Array.getD_eq_getD_getElem?, vacated,
      Array.getElem?_pop, if_pos (by rw [size_exch]; exact hindex)]
  rw [hpop, keyAt_exch hhole hlast, exchanged, last]
  split
  next => rfl
  next => rw [if_neg (Nat.ne_of_lt hindex)]

/-- The order is restored when the last event is not too small for the hole. -/
theorem Tracks.vacate (tracks : Tracks scheduler stored) {hole : Nat} {removed : Event EventImpl}
    (hpos : 1 ≤ hole) (hget : scheduler.heap[hole]? = some removed)
    (hfits : 2 ≤ hole →
      keyAt scheduler.heap (parent hole) ≤ keyAt scheduler.heap (last scheduler.heap))
    {left : List (Event EventImpl)} (hperm : stored.Perm (removed :: left))
    (sorted : ListScheduler.Sorted left) :
    Tracks ⟨topDown (vacated scheduler.heap hole) hole⟩ left := by
  have hlt := (Array.getElem?_eq_some_iff.mp hget).1
  obtain ⟨hsize, hevents⟩ := vacated_spec hpos hget
  have hready : DownReady (vacated scheduler.heap hole).size
      (keyAt (vacated scheduler.heap hole)) hole := by
    have hordered := tracks.ordered
    rw [← hsize] at hordered
    apply hordered.refill
    · intro index hindex hne
      rw [keyAt_vacated hlt (by omega), if_neg hne]
    · intro hinside
      rw [keyAt_vacated hlt (by omega), if_pos rfl]
      congr 1
      omega
    · intro hbig _
      have hlast : last scheduler.heap = (vacated scheduler.heap hole).size := by
        rw [last]
        omega
      rw [← hlast]
      exact hfits hbig
  obtain ⟨hordered, hsame⟩ := topDownFrom_spec (vacated scheduler.heap hole).size
    (vacated scheduler.heap hole) hole (Nat.le_add_right _ _) hpos hready
  refine ⟨?_, ?_, ?_, sorted⟩
  · show 1 ≤ (topDown (vacated scheduler.heap hole) hole).size
    rw [topDown, hsame.size]
    omega
  · show HeapOrdered (topDown (vacated scheduler.heap hole) hole).size _
    rw [topDown, hsame.size]
    exact hordered
  · have hleft : (removed :: (HeapScheduler.mk (vacated scheduler.heap hole)).events).Perm
        (removed :: left) := (hevents.symm.trans tracks.perm).trans hperm
    exact hsame.events.trans hleft.cons_inv

theorem Tracks.removeNext {head : Event EventImpl} {rest : List (Event EventImpl)}
    (tracks : Tracks scheduler (head :: rest)) :
    ∃ next, scheduler.removeNext = some (next, head) ∧ Tracks next rest := by
  have hroot := tracks.root_eq
  refine ⟨_, ?_, tracks.vacate le_rfl hroot ?_ (List.Perm.refl _) tracks.sorted.tail⟩
  · rw [HeapScheduler.removeNext, hroot]
    rfl
  · intro hbig
    exact absurd hbig (by decide)

/-- `Remove` finds the stored event. -/
theorem Tracks.position_eq (tracks : Tracks scheduler stored) {ev : Event EventImpl}
    (hmem : ev ∈ stored) :
    ∃ hole, scheduler.position ev = some hole ∧ 1 ≤ hole ∧ scheduler.heap[hole]? = some ev := by
  obtain ⟨index, hpos, hget⟩ := mem_events_iff.mp (tracks.perm.mem_iff.mpr hmem)
  have hlt := (Array.getElem?_eq_some_iff.mp hget).1
  cases hfind : scheduler.position ev with
  | none =>
      rw [position, List.find?_eq_none] at hfind
      have := hfind index (List.mem_range'_1.mpr ⟨hpos, by omega⟩)
      rw [Array.getD_eq_getD_getElem?, hget, Option.getD_some] at this
      exact absurd (decide_eq_true rfl) this
  | some hole =>
      obtain ⟨hlow, hhigh⟩ := List.mem_range'_1.mp (List.mem_of_find?_eq_some hfind)
      have hsame := List.find?_some hfind
      obtain ⟨found, hfound⟩ : ∃ found, scheduler.heap[hole]? = some found :=
        ⟨_, Array.getElem?_eq_getElem (by omega)⟩
      rw [Array.getD_eq_getD_getElem?, hfound, Option.getD_some, decide_eq_true_eq] at hsame
      have hmemFound : found ∈ stored :=
        tracks.perm.mem_iff.mp (mem_events_iff.mpr ⟨hole, hlow, hfound⟩)
      rw [tracks.sorted.eq_of_uid hmemFound hmem hsame] at hfound
      exact ⟨hole, rfl, hlow, hfound⟩

/-- The last event of the heap is not less than the parent of the hole it is moved into. -/
def RemovalFits (scheduler : HeapScheduler EventImpl) (ev : Event EventImpl) : Prop :=
  ∀ hole, scheduler.position ev = some hole →
    isLessStrictly scheduler.heap (last scheduler.heap) (parent hole) = false

theorem Tracks.remove (tracks : Tracks scheduler stored) {ev : Event EventImpl}
    (hmem : ev ∈ stored) (hfits : RemovalFits scheduler ev) :
    ∃ next, scheduler.remove ev = some next ∧ Tracks next (ListScheduler.remove ev stored) := by
  obtain ⟨hole, hposition, hpos, hget⟩ := tracks.position_eq hmem
  refine ⟨_, ?_, tracks.vacate hpos hget ?_ (ListScheduler.remove_perm tracks.sorted hmem)
    (tracks.sorted.remove ev)⟩
  · rw [HeapScheduler.remove, hposition]
    rfl
  · intro _
    apply not_lt.mp
    intro hless
    have := hfits hole hposition
    rw [(isLessStrictly_iff scheduler.heap _ _).mpr hless] at this
    cases this

end Operations

/-! ## Runs -/

/-- A removal meets the condition; the other operations need none. -/
def OpFits (scheduler : HeapScheduler EventImpl) : QueueOp EventImpl → Prop
  | .remove ev => RemovalFits scheduler ev
  | _ => True

instance (scheduler : HeapScheduler EventImpl) (op : QueueOp EventImpl) :
    Decidable (OpFits scheduler op) :=
  match op with
  | .remove ev =>
      match hposition : scheduler.position ev with
      | none => .isTrue fun hole hfound => by rw [hposition] at hfound; cases hfound
      | some hole =>
          decidable_of_iff
            (isLessStrictly scheduler.heap (last scheduler.heap) (parent hole) = false)
            ⟨fun hfits other hfound => by
                rw [hposition] at hfound
                obtain rfl := Option.some.inj hfound
                exact hfits,
              fun hall => hall hole hposition⟩
  | .insert _ => .isTrue trivial
  | .removeNext => .isTrue trivial
  | .peekNext => .isTrue trivial

/-- One operation follows the sorted list. -/
theorem Tracks.step [DecidableEq EventImpl] {scheduler : HeapScheduler EventImpl}
    {stored next : List (Event EventImpl)} {op : QueueOp EventImpl}
    {returned : Option (Event EventImpl)} (tracks : Tracks scheduler stored)
    (hfits : OpFits scheduler op)
    (hlist : ListScheduler.step stored op = some (next, returned)) :
    ∃ scheduler', HeapScheduler.step scheduler op = some (scheduler', returned) ∧
      Tracks scheduler' next := by
  cases op with
  | insert ev =>
      simp only [ListScheduler.step] at hlist
      split at hlist
      next => cases hlist
      next fresh =>
        obtain ⟨rfl, rfl⟩ := Prod.mk.inj (Option.some.inj hlist)
        exact ⟨_, rfl, tracks.insert fun other hmem heq => fresh ⟨other, hmem, heq⟩⟩
  | remove ev =>
      simp only [ListScheduler.step] at hlist
      split at hlist
      next hmem =>
        obtain ⟨rfl, rfl⟩ := Prod.mk.inj (Option.some.inj hlist)
        obtain ⟨scheduler', hremove, htracks⟩ := tracks.remove hmem hfits
        refine ⟨scheduler', ?_, htracks⟩
        rw [HeapScheduler.step, hremove]
        rfl
      next => cases hlist
  | removeNext =>
      cases stored with
      | nil => cases hlist
      | cons head rest =>
          obtain ⟨rfl, rfl⟩ := Prod.mk.inj (Option.some.inj hlist)
          obtain ⟨scheduler', hremove, htracks⟩ := tracks.removeNext
          refine ⟨scheduler', ?_, htracks⟩
          rw [HeapScheduler.step, hremove]
          rfl
  | peekNext =>
      cases stored with
      | nil => cases hlist
      | cons head rest =>
          obtain ⟨rfl, rfl⟩ := Prod.mk.inj (Option.some.inj hlist)
          refine ⟨scheduler, ?_, tracks⟩
          rw [HeapScheduler.step, peekNext, tracks.root_eq]
          rfl

/-- In a run whose removals fit, the heap returns what the sorted list returns, holds exactly
what was inserted and not removed, and has a least event at its root. -/
theorem heapRun_least [DecidableEq EventImpl] {ops : List (QueueOp EventImpl)}
    {stored : List (Event EventImpl)} {outputs : List (Option (Event EventImpl))}
    (hrun : runOps ListScheduler.step [] ops = some (stored, outputs))
    (hfits : AllFit HeapScheduler.step OpFits empty ops) :
    ∃ scheduler, runOps HeapScheduler.step empty ops = some (scheduler, outputs) ∧
      scheduler.events.Perm stored ∧
      (insertedBy ops).Perm (scheduler.events ++ removedBy ops outputs) ∧
      (stored ≠ [] → ∃ least ∈ scheduler.events, scheduler.peekNext = some least ∧
        (scheduler.removeNext).map Prod.snd = some least ∧
        ∀ other ∈ scheduler.events, other ≠ least → least.key.Less other.key) := by
  obtain ⟨scheduler, hheap, tracks⟩ :=
    @runOps_follows EventImpl _ HeapScheduler.step _ ListScheduler.step OpFits Tracks
      (fun htracks hfit hlist => Tracks.step htracks hfit hlist) ops _ _ _ _ empty_tracks hfits hrun
  obtain ⟨sorted, hbalance⟩ := listRun_balance ops ListScheduler.Sorted.nil hrun
  refine ⟨scheduler, hheap, tracks.perm, hbalance.trans (tracks.perm.symm.append_right _), ?_⟩
  intro hne
  cases stored with
  | nil => exact absurd rfl hne
  | cons head rest =>
      obtain ⟨next, hremove, -⟩ := tracks.removeNext
      refine ⟨head, tracks.perm.mem_iff.mpr List.mem_cons_self, tracks.root_eq, ?_, ?_⟩
      · rw [hremove]
        rfl
      · intro other hmem hother
        have hstored := tracks.perm.mem_iff.mp hmem
        apply (EventKey.less_iff _ _).mpr
        apply lt_of_le_of_ne (sorted.head_le hstored)
        intro hrank
        exact hother (sorted.eq_of_rank hstored List.mem_cons_self hrank.symm)

/-- Removing the last event of a heap of three lets the run follow the sorted list. -/
theorem heapRun_least_three :
    ∃ scheduler, runOps HeapScheduler.step empty
        [.insert (eventAt 5 1), .insert (eventAt 3 2), .insert (eventAt 4 3),
          .remove (eventAt 4 3), .removeNext] =
        some (scheduler, [none, none, none, none, some (eventAt 3 2)]) ∧
      scheduler.events.Perm [eventAt 5 1] := by
  obtain ⟨scheduler, hheap, hperm, -⟩ := @heapRun_least Unit _
    [.insert (eventAt 5 1), .insert (eventAt 3 2), .insert (eventAt 4 3),
      .remove (eventAt 4 3), .removeNext] [eventAt 5 1]
    [none, none, none, none, some (eventAt 3 2)] (by decide) (by decide +kernel)
  exact ⟨scheduler, hheap, hperm⟩

/-- Events at 1, 10, 2, 20, 30, 3 and 4; the one at 20 is removed and one at 100 inserted. -/
def sunkRun : List (QueueOp Unit) :=
  [.insert (eventAt 1 1), .insert (eventAt 10 2), .insert (eventAt 2 3), .insert (eventAt 20 4),
    .insert (eventAt 30 5), .insert (eventAt 3 6), .insert (eventAt 4 7), .remove (eventAt 20 4),
    .insert (eventAt 100 8), .removeNext, .removeNext, .removeNext, .peekNext]

/-- The event at 4 stays below the one at 10, which the heap then announces as the next. -/
theorem heapRun_sunkRun_fails :
    (runOps ListScheduler.step [] sunkRun).map Prod.snd =
        some (List.replicate 9 none ++ [some (eventAt 1 1), some (eventAt 2 3),
          some (eventAt 3 6), some (eventAt 4 7)]) ∧
      (runOps HeapScheduler.step empty sunkRun).map Prod.snd =
        some (List.replicate 9 none ++ [some (eventAt 1 1), some (eventAt 2 3),
          some (eventAt 3 6), some (eventAt 10 2)]) := by
  constructor
  · decide +kernel
  · decide +kernel

end HeapScheduler

end DeepcV2x.Scheduler
