import DeepcV2x.Packets.ByteTagList
import Mathlib.Algebra.Order.Group.Nat
import Mathlib.Data.List.Perm.Basic

/-!
# Copies on write

The value of a list is its bounds, its adjustment and its records, without the
block they are in.  Every operation on a list among others that share blocks
with it changes its value as the same operation on values does, and leaves the
values of the others.
-/

namespace DeepcV2x.Packets

open Foundation.Sharing Foundation.Sharing.Arena

/-! ## Values -/

structure TagRanges where
  minStart : Int
  maxEnd : Int
  adjustment : Int
  ranges : List TagRange
deriving DecidableEq, Repr

namespace TagRanges

def empty : TagRanges := ⟨offsetMax, offsetMin, 0, []⟩

def items (value : TagRanges) (offsetStart offsetEnd : Int) : List TagRange :=
  iterate value.adjustment offsetStart offsetEnd value.ranges

def itemsAll (value : TagRanges) : List TagRange := value.items 0 offsetMax

def push (value : TagRanges) (range : TagRange) : TagRanges :=
  { value with
    minStart := min value.minStart range.start
    maxEnd := max value.maxEnd range.stop
    ranges := value.ranges ++ [range] }

def add (value : TagRanges) (tag : Tag) (start stop : Int) : TagRanges :=
  value.push ⟨tag, int32 (start - value.adjustment), int32 (stop - value.adjustment)⟩

def addAll (value : TagRanges) : List TagRange → TagRanges
  | [] => value
  | item :: rest => (value.add item.tag item.start item.stop).addAll rest

def addAtEnd (value : TagRanges) (appendOffset : Int) : TagRanges :=
  if value.maxEnd ≤ int32 (appendOffset - value.adjustment) then value
  else empty.addAll (itemsBefore appendOffset value.itemsAll)

def addAtStart (value : TagRanges) (prependOffset : Int) : TagRanges :=
  if value.minStart ≥ int32 (prependOffset - value.adjustment) then value
  else empty.addAll (itemsFrom prependOffset value.itemsAll)

def adjust (value : TagRanges) (adjustment : Int) : TagRanges :=
  { value with adjustment := int32 (value.adjustment + adjustment) }

end TagRanges

def ByteTagList.value (heap : TagHeap) (list : ByteTagList) : TagRanges :=
  ⟨list.minStart, list.maxEnd, list.adjustment, list.stored heap⟩

/-! ## The space of records -/

def spaceOf : List TagRange → Nat
  | [] => 0
  | range :: rest => range.length + spaceOf rest

theorem length_pos (range : TagRange) : 0 < range.length := by
  unfold TagRange.length
  omega

theorem spaceOf_append (front behind : List TagRange) :
    spaceOf (front ++ behind) = spaceOf front + spaceOf behind := by
  induction front with
  | nil => exact (Nat.zero_add _).symm
  | cons range rest ih => rw [List.cons_append, spaceOf, spaceOf, ih, Nat.add_assoc]

theorem eq_nil_of_spaceOf {records : List TagRange} (hspace : spaceOf records = 0) :
    records = [] := by
  cases records with
  | nil => rfl
  | cons range rest =>
      have hpos := length_pos range
      rw [spaceOf] at hspace
      omega

theorem upTo_append (front behind : List TagRange) :
    upTo (front ++ behind) (spaceOf front) = front := by
  induction front with
  | nil => cases behind <;> rfl
  | cons range rest ih =>
      obtain ⟨length, hlength⟩ : ∃ length, range.length = length + 1 :=
        ⟨range.length - 1, by have := length_pos range; omega⟩
      have hspace : spaceOf (range :: rest) = length + spaceOf rest + 1 := by
        rw [spaceOf, hlength]
        omega
      have hrest : length + spaceOf rest + 1 - range.length = spaceOf rest := by omega
      rw [List.cons_append, hspace, upTo, hrest, ih]

/-- Of two beginnings of the same records the shorter one begins the longer one. -/
theorem beginning_of_spaceOf_le {front behind front' behind' : List TagRange}
    (heq : front ++ behind = front' ++ behind') (hle : spaceOf front ≤ spaceOf front') :
    ∃ between, front' = front ++ between := by
  rcases List.append_eq_append_iff.mp heq with ⟨between, hfront, _⟩ | ⟨between, hfront, _⟩
  · exact ⟨between, hfront⟩
  · rw [hfront, spaceOf_append] at hle
    have hnil := @eq_nil_of_spaceOf between (by omega)
    exact ⟨[], by rw [hfront, hnil, List.append_nil, List.append_nil]⟩

/-! ## Lists and their values -/

/-- Where the records of a list are: in no block, or at the beginning of its block. -/
inductive Located (arena : Arena ByteTagListData) (list : ByteTagList)
    (ranges : List TagRange) : Prop
  | absent (hdata : list.data = none) (hused : list.used = 0) (hranges : ranges = [])
  | found (place : Nat) (data : ByteTagListData) (behind : List TagRange)
      (hdata : list.data = some place) (hblock : arena.block place = some data)
      (hsplit : data.data = ranges ++ behind) (hused : list.used = spaceOf ranges)
      (hdirty : list.used ≤ data.dirty)

theorem Located.used_eq {arena : Arena ByteTagListData} {list : ByteTagList}
    {ranges : List TagRange} (located : Located arena list ranges) :
    list.used = spaceOf ranges := by
  cases located with
  | absent hdata hused hranges => rw [hused, hranges, spaceOf]
  | found place data behind hdata hblock hsplit hused hdirty => exact hused

theorem Located.stored_eq {heap : TagHeap} {list : ByteTagList} {ranges : List TagRange}
    (located : Located heap.arena list ranges) : list.stored heap = ranges := by
  unfold ByteTagList.stored
  cases located with
  | absent hdata hused hranges => simp [hdata, hranges]
  | found place data behind hdata hblock hsplit hused hdirty =>
      simp [hdata, hblock, hsplit, hused, upTo_append]

structure Denotes (arena : Arena ByteTagListData) (list : ByteTagList) (value : TagRanges) :
    Prop where
  minStart_eq : list.minStart = value.minStart
  maxEnd_eq : list.maxEnd = value.maxEnd
  adjustment_eq : list.adjustment = value.adjustment
  used_lt : list.used < 2 ^ 32
  located : Located arena list value.ranges

namespace Denotes

variable {heap : TagHeap} {arena : Arena ByteTagListData} {list : ByteTagList} {value : TagRanges}

theorem value_eq (denotes : Denotes heap.arena list value) : list.value heap = value := by
  rw [ByteTagList.value, denotes.minStart_eq, denotes.maxEnd_eq, denotes.adjustment_eq,
    denotes.located.stored_eq]

theorem begin_eq (denotes : Denotes heap.arena list value) (offsetStart offsetEnd : Int) :
    list.begin heap offsetStart offsetEnd = value.items offsetStart offsetEnd := by
  rw [ByteTagList.begin, denotes.located.stored_eq, denotes.adjustment_eq, TagRanges.items]

theorem adjust (denotes : Denotes arena list value) (adjustment : Int) :
    Denotes arena (list.adjust adjustment) (value.adjust adjustment) :=
  ⟨denotes.minStart_eq, denotes.maxEnd_eq,
    by rw [ByteTagList.adjust, TagRanges.adjust, denotes.adjustment_eq], denotes.used_lt,
    by cases denotes.located with
      | absent hdata hused hranges => exact .absent hdata hused hranges
      | found place data behind hdata hblock hsplit hused hdirty =>
          exact .found place data behind hdata hblock hsplit hused hdirty⟩

theorem readsOwnBlock : ReadsOwnBlock ByteTagList.data Denotes := by
  intro arena arena' list value hblocks denotes
  refine ⟨denotes.minStart_eq, denotes.maxEnd_eq, denotes.adjustment_eq, denotes.used_lt, ?_⟩
  cases denotes.located with
  | absent hdata hused hranges => exact .absent hdata hused hranges
  | found place data behind hdata hblock hsplit hused hdirty =>
      exact .found place data behind hdata ((hblocks place hdata).trans hblock) hsplit hused hdirty

end Denotes

/-! ## The lists that hold the blocks -/

abbrev Holders := List (ByteTagList × TagRanges)

/-- The lists that exist, temporaries included, with their values. -/
abbrev Holds (heap : TagHeap) (holders : Holders) : Prop :=
  Held ByteTagList.data Denotes heap.arena holders

namespace Holds

variable {heap : TagHeap} {list : ByteTagList} {value : TagRanges} {rest : Holders}

theorem empty : Holds TagHeap.empty [] := ⟨Owned.empty, by simp⟩

theorem fresh (holds : Holds heap rest) :
    Holds heap ((ByteTagList.empty, TagRanges.empty) :: rest) := by
  have hplaces := @Held.places_cons_none ByteTagList TagRanges ByteTagList.data ByteTagList.empty
    TagRanges.empty rest rfl
  exact Held.cons Denotes.readsOwnBlock holds.reads (hplaces.symm ▸ holds.owned) (fun _ _ => rfl)
    ⟨rfl, rfl, rfl, Nat.two_pow_pos 32, .absent rfl rfl rfl⟩

theorem adjust (holds : Holds heap ((list, value) :: rest)) (adjustment : Int) :
    Holds heap ((list.adjust adjustment, value.adjust adjustment) :: rest) :=
  Held.cons Denotes.readsOwnBlock holds.tail_reads holds.owned (fun _ _ => rfl)
    (holds.head.adjust adjustment)

theorem retain (holds : Holds heap ((list, value) :: rest)) :
    Holds (heap.retain list.data) ((list, value) :: (list, value) :: rest) := by
  cases hdata : list.data with
  | none =>
      have hplaces := Held.places_cons_none value ((list, value) :: rest) hdata
      exact Held.cons Denotes.readsOwnBlock holds.reads (hplaces.symm ▸ holds.owned)
        (fun _ _ => rfl) holds.head
  | some place => exact Held.retain holds Denotes.readsOwnBlock hdata hdata holds.head

theorem deallocate (holds : Holds heap ((list, value) :: rest)) :
    Holds (heap.deallocate list.data) rest := by
  cases hdata : list.data with
  | none =>
      have hplaces := Held.places_cons_none value rest hdata
      exact ⟨hplaces ▸ holds.owned, holds.tail_reads⟩
  | some place =>
      obtain ⟨data, hblock⟩ := holds.owned.block_isSome (Held.mem_places List.mem_cons_self hdata)
      simp only [TagHeap.deallocate, hblock]
      exact Held.release holds Denotes.readsOwnBlock hdata _

end Holds

/-! ## Adding a tag -/

/-- A block whose records behind those of the list nobody else sees. -/
structure Reserved (heap : TagHeap) (list : ByteTagList) (ranges : List TagRange)
    (rest : Holders) (place : Nat) (data : ByteTagListData) : Prop where
  data_eq : list.data = some place
  block : heap.arena.block place = some data
  owned : heap.arena.Owned (place :: places ByteTagList.data rest)
  denotes : ∀ holder ∈ rest, Denotes heap.arena holder.1 holder.2
  begins : ∃ behind, data.data = ranges ++ behind
  used : list.used = spaceOf ranges
  alone : place ∉ places ByteTagList.data rest ∨ data.dirty = spaceOf ranges

theorem allocate_claimed {heap : TagHeap} {held : List Nat} (owned : heap.arena.Owned held)
    (size : Nat) :
    Claimed (fun data : ByteTagListData => decide (size ≤ data.size))
      (fun data => { data with dirty := 0 }) ⟨size, 0, []⟩ heap.arena held
      ((heap.allocate size).1, (heap.allocate size).2.arena) :=
  claim_claimed owned

theorem Holds.moved {heap : TagHeap} {list : ByteTagList} {value : TagRanges} {rest : Holders}
    {place : Nat} (holds : Holds heap ((list, value) :: rest)) (hdata : list.data = some place)
    (size : Nat) :
    ∃ data, Reserved (list.moved heap place size).1 (list.moved heap place size).2 value.ranges
      rest (heap.allocate size).1 data := by
  have hclaimed := allocate_claimed holds.owned size
  rw [Held.places_cons_some _ _ hdata] at hclaimed
  have hmem : (heap.allocate size).1 ∈ (heap.allocate size).1 :: place :: places ByteTagList.data rest :=
    List.mem_cons_self
  obtain ⟨data, hblock⟩ := hclaimed.owned.block_isSome hmem
  have hwritten := hclaimed.owned.write hmem fun data : ByteTagListData =>
    { data with data := list.stored heap }
  obtain ⟨old, hold⟩ := hwritten.block_isSome (List.mem_cons_of_mem _ List.mem_cons_self)
  have hrelease := (hwritten.perm (List.Perm.swap _ _ _)).release
  have happart : ∀ other ∈ places ByteTagList.data rest, other ≠ (heap.allocate size).1 := fun other hother heq =>
    hclaimed.apart (List.mem_cons_of_mem _ (heq ▸ hother))
  refine ⟨{ data with data := list.stored heap }, rfl, ?_, ?_, ?_, ?_, ?_, ?_⟩
  · simp only [ByteTagList.moved, TagHeap.deallocate, hold]
    rw [(hrelease _).2 _ List.mem_cons_self, block_write_self, hblock]
    rfl
  · simp only [ByteTagList.moved, TagHeap.deallocate, hold]
    exact (hrelease _).1
  · refine Held.reads_of_blocks Denotes.readsOwnBlock holds.tail_reads fun other hother => ?_
    simp only [ByteTagList.moved, TagHeap.deallocate, hold]
    rw [(hrelease _).2 _ (List.mem_cons_of_mem _ hother), block_write_of_ne _ _ (happart _ hother)]
    exact hclaimed.blocks other (List.mem_cons_of_mem _ hother)
  · exact ⟨[], by rw [holds.head.located.stored_eq, List.append_nil]⟩
  · exact holds.head.located.used_eq
  · exact Or.inl fun hother => happart _ hother rfl

theorem Holds.reserve {heap : TagHeap} {list : ByteTagList} {value : TagRanges} {rest : Holders}
    (holds : Holds heap ((list, value) :: rest)) (spaceNeeded : Nat) :
    ∃ place data, Reserved (list.reserve heap spaceNeeded).1 (list.reserve heap spaceNeeded).2
      value.ranges rest place data := by
  unfold ByteTagList.reserve
  cases hlocated : holds.head.located with
  | absent hdata hused hranges =>
      have hclaimed := allocate_claimed holds.owned spaceNeeded
      rw [Held.places_cons_none _ _ hdata] at hclaimed
      obtain ⟨data, hblock⟩ := hclaimed.owned.block_isSome List.mem_cons_self
      rw [hdata]
      refine ⟨(heap.allocate spaceNeeded).1, data, rfl, hblock, hclaimed.owned,
        Held.reads_of_blocks Denotes.readsOwnBlock holds.tail_reads hclaimed.blocks, ⟨data.data, ?_⟩, ?_, Or.inl hclaimed.apart⟩
      · rw [hranges, List.nil_append]
      · rw [hranges, spaceOf]
  | found place data behind hdata hblock hsplit hused hdirty =>
      have howned := holds.owned
      rw [Held.places_cons_some _ _ hdata] at howned
      obtain ⟨held, hcell⟩ := howned.counted place List.mem_cons_self
      have hheld : held = data := by
        rw [Arena.block, hcell] at hblock
        exact Option.some.inj hblock
      subst hheld
      rw [hdata]
      simp only [hcell]
      split
      · obtain ⟨moved, hmoved⟩ := holds.moved hdata spaceNeeded
        exact ⟨_, moved, hmoved⟩
      · next hstay =>
          refine ⟨place, held, hdata, hblock, howned,
            Held.reads_of_blocks Denotes.readsOwnBlock holds.tail_reads fun _ _ => rfl, ⟨behind, hsplit⟩, hused, ?_⟩
          obtain ⟨-, hshared⟩ := not_or.mp hstay
          by_cases hone : (place :: places ByteTagList.data rest).count place = 1
          · exact Or.inl (howned.not_mem_of_count_one hcell hone)
          · exact Or.inr ((Classical.not_not.mp fun hne => hshared ⟨hone, hne⟩).trans hused)

theorem Reserved.append {heap : TagHeap} {list : ByteTagList} {value : TagRanges} {rest : Holders}
    {place : Nat} {data : ByteTagListData} (reserved : Reserved heap list value.ranges rest place data)
    (hmin : list.minStart = value.minStart) (hmax : list.maxEnd = value.maxEnd)
    (hadjustment : list.adjustment = value.adjustment) (range : TagRange) {spaceNeeded : Nat}
    (hspace : spaceNeeded = list.used + range.length) (hlt : spaceNeeded < 2 ^ 32) :
    Holds (list.append heap spaceNeeded range).1
      (((list.append heap spaceNeeded range).2, value.push range) :: rest) := by
  obtain ⟨behind, hsplit⟩ := reserved.begins
  have hwrite : (list.append heap spaceNeeded range).1 = { heap with
      arena := heap.arena.write place fun data =>
        { data with data := upTo data.data list.used ++ [range], dirty := spaceNeeded } } := by
    rw [ByteTagList.append, TagHeap.writeRange.eq_def, reserved.data_eq]
  have hblock : (list.append heap spaceNeeded range).1.arena.block place =
      some { data with data := value.ranges ++ [range], dirty := spaceNeeded } := by
    rw [hwrite, block_write_self, reserved.block, Option.map_some, hsplit, reserved.used,
      upTo_append]
  have hnew : (list.append heap spaceNeeded range).2.data = some place := reserved.data_eq
  refine ⟨?_, fun holder hmem => ?_⟩
  · rw [Held.places_cons_some _ _ hnew, hwrite]
    exact reserved.owned.write List.mem_cons_self fun data : ByteTagListData =>
      { data with data := upTo data.data list.used ++ [range], dirty := spaceNeeded }
  rcases List.mem_cons.mp hmem with rfl | hrest
  · refine ⟨by rw [ByteTagList.append, TagRanges.push, hmin],
      by rw [ByteTagList.append, TagRanges.push, hmax], hadjustment, hlt,
      .found place _ [] hnew hblock (List.append_nil _).symm ?_ (Nat.le_refl _)⟩
    have hpush : spaceOf (value.push range).ranges = spaceOf value.ranges + range.length := by
      rw [TagRanges.push, spaceOf_append, spaceOf, spaceOf, Nat.add_zero]
    rw [hpush, ← reserved.used]
    exact hspace
  · have hdenotes := reserved.denotes holder hrest
    by_cases hshared : holder.1.data = some place
    · refine ⟨hdenotes.minStart_eq, hdenotes.maxEnd_eq, hdenotes.adjustment_eq,
        hdenotes.used_lt, ?_⟩
      have hdirty := reserved.alone.resolve_left (not_not_intro (Held.mem_places hrest hshared))
      cases hdenotes.located with
      | absent hdata hused hranges => exact .absent hdata hused hranges
      | found other data' behind' hdata' hblock' hsplit' hused' hdirty' =>
          obtain rfl : other = place := Option.some.inj (hdata'.symm.trans hshared)
          obtain rfl : data' = data := Option.some.inj (hblock'.symm.trans reserved.block)
          obtain ⟨between, hbetween⟩ := beginning_of_spaceOf_le (hsplit'.symm.trans hsplit)
            (hused' ▸ hdirty ▸ hdirty')
          refine .found other _ (between ++ [range]) hshared hblock ?_ hused' ?_
          · rw [hbetween, List.append_assoc]
          · have hle := hdirty ▸ hdirty'
            rw [hspace, reserved.used]
            exact Nat.le_trans hle (Nat.le_add_right _ _)
    · refine Denotes.readsOwnBlock _ _ _ _ (fun other hdata => ?_) hdenotes
      rw [hwrite]
      exact block_write_of_ne _ _ fun heq => hshared (heq ▸ hdata)

theorem reserve_fields (heap : TagHeap) (list : ByteTagList) (spaceNeeded : Nat) :
    (list.reserve heap spaceNeeded).2.minStart = list.minStart ∧
      (list.reserve heap spaceNeeded).2.maxEnd = list.maxEnd ∧
      (list.reserve heap spaceNeeded).2.adjustment = list.adjustment := by
  unfold ByteTagList.reserve
  cases list.data with
  | none => exact ⟨rfl, rfl, rfl⟩
  | some place =>
      simp only
      cases heap.arena.cell place with
      | none => exact ⟨rfl, rfl, rfl⟩
      | some cell =>
          simp only
          split <;> exact ⟨rfl, rfl, rfl⟩

/-- The assertion holds exactly where the used size does not wrap. -/
theorem spaceNeeded_eq {list : ByteTagList} {tag : Tag} (hsize : tag.data.length < 2 ^ 31)
    (hassert : list.used ≤ list.spaceNeeded tag) (hused : list.used < 2 ^ 32) :
    list.spaceNeeded tag = list.used + tag.data.length + 4 + 4 + 4 + 4 := by
  unfold ByteTagList.spaceNeeded at *
  omega

/-- Adding a tag: the record is behind the others, and nobody else sees it. -/
theorem Holds.add {heap heap' : TagHeap} {list list' : ByteTagList} {value : TagRanges}
    {rest : Holders} (holds : Holds heap ((list, value) :: rest)) {tag : Tag} {start stop : Int}
    (hsize : tag.data.length < 2 ^ 31) (hadd : list.add heap tag start stop = some (heap', list')) :
    Holds heap' ((list', value.add tag start stop) :: rest) := by
  unfold ByteTagList.add at hadd
  split at hadd
  · next hassert =>
      have hspace := spaceNeeded_eq hsize hassert holds.head.used_lt
      have hlt : list.spaceNeeded tag < 2 ^ 32 := Nat.mod_lt _ (Nat.two_pow_pos 32)
      obtain ⟨hmin, hmax, hadjustment⟩ := reserve_fields heap list (list.spaceNeeded tag)
      obtain ⟨place, data, hreserved⟩ := holds.reserve (list.spaceNeeded tag)
      have hused : (list.reserve heap (list.spaceNeeded tag)).2.used = list.used :=
        hreserved.used.trans holds.head.located.used_eq.symm
      have hpair := Option.some.inj hadd
      rw [holds.head.adjustment_eq] at hpair
      have happend := hreserved.append (hmin.trans holds.head.minStart_eq)
        (hmax.trans holds.head.maxEnd_eq) (hadjustment.trans holds.head.adjustment_eq)
        ⟨tag, int32 (start - value.adjustment), int32 (stop - value.adjustment)⟩
        (by rw [hused, hspace]; simp only [TagRange.length, Nat.add_assoc]) hlt
      rw [hpair] at happend
      exact happend
  · cases hadd

theorem Holds.addAll {items : List TagRange} {heap heap' : TagHeap} {list list' : ByteTagList}
    {value : TagRanges} {rest : Holders} (holds : Holds heap ((list, value) :: rest))
    (hsizes : ∀ item ∈ items, item.tag.data.length < 2 ^ 31)
    (hadd : list.addAll heap items = some (heap', list')) :
    Holds heap' ((list', value.addAll items) :: rest) := by
  induction items generalizing heap list value with
  | nil =>
      obtain ⟨rfl, rfl⟩ := Prod.mk.inj (Option.some.inj hadd)
      exact holds
  | cons item others ih =>
      rw [ByteTagList.addAll] at hadd
      cases hone : list.add heap item.tag item.start item.stop with
      | none => rw [hone] at hadd; cases hadd
      | some added =>
          rw [hone] at hadd
          have hadded := holds.add (hsizes item List.mem_cons_self) hone
          exact ih hadded (fun other hmem => hsizes other (List.mem_cons_of_mem _ hmem)) hadd

/-! ## Tags of bounded size -/

def Sized (ranges : List TagRange) : Prop := ∀ range ∈ ranges, range.tag.data.length < 2 ^ 31

theorem Sized.iterate {records : List TagRange} (hsized : Sized records)
    (adjustment offsetStart offsetEnd : Int) :
    Sized (iterate adjustment offsetStart offsetEnd records) := by
  intro item hitem
  obtain ⟨shifted, hshifted, rfl⟩ := List.mem_map.mp hitem
  obtain ⟨record, hrecord, rfl⟩ := List.mem_map.mp (List.mem_filter.mp hshifted).1
  exact hsized record hrecord

theorem Sized.itemsBefore {items : List TagRange} (hsized : Sized items) (appendOffset : Int) :
    Sized (itemsBefore appendOffset items) := by
  intro item hitem
  obtain ⟨kept, hkept, rfl⟩ := List.mem_map.mp hitem
  exact hsized kept (List.mem_filter.mp hkept).1

theorem Sized.itemsFrom {items : List TagRange} (hsized : Sized items) (prependOffset : Int) :
    Sized (itemsFrom prependOffset items) := by
  intro item hitem
  obtain ⟨kept, hkept, rfl⟩ := List.mem_map.mp hitem
  exact hsized kept (List.mem_filter.mp hkept).1

theorem Sized.add {value : TagRanges} (hsized : Sized value.ranges) {tag : Tag}
    (htag : tag.data.length < 2 ^ 31) (start stop : Int) :
    Sized (value.add tag start stop).ranges := by
  intro range hrange
  rcases List.mem_append.mp hrange with hold | hnew
  · exact hsized range hold
  · rw [List.mem_singleton.mp hnew]
    exact htag

theorem Sized.addAll {items : List TagRange} {value : TagRanges} (hsized : Sized value.ranges)
    (hitems : Sized items) : Sized (value.addAll items).ranges := by
  induction items generalizing value with
  | nil => exact hsized
  | cons item rest ih =>
      exact ih (hsized.add (hitems item List.mem_cons_self) item.start item.stop)
        fun other hmem => hitems other (List.mem_cons_of_mem _ hmem)

theorem Sized.addAtEnd {value : TagRanges} (hsized : Sized value.ranges) (appendOffset : Int) :
    Sized (value.addAtEnd appendOffset).ranges := by
  unfold TagRanges.addAtEnd
  split
  · exact hsized
  · exact Sized.addAll (fun _ hmem => absurd hmem List.not_mem_nil)
      ((hsized.iterate _ _ _).itemsBefore appendOffset)

theorem Sized.addAtStart {value : TagRanges} (hsized : Sized value.ranges) (prependOffset : Int) :
    Sized (value.addAtStart prependOffset).ranges := by
  unfold TagRanges.addAtStart
  split
  · exact hsized
  · exact Sized.addAll (fun _ hmem => absurd hmem List.not_mem_nil)
      ((hsized.iterate _ _ _).itemsFrom prependOffset)

/-! ## Cutting -/

theorem Holds.replace {heap : TagHeap} {list local_ : ByteTagList} {value value' : TagRanges}
    {rest : Holders} (holds : Holds heap ((local_, value') :: (list, value) :: rest)) :
    Holds (list.replace heap local_).1 (((list.replace heap local_).2, value') :: rest) := by
  have hswapped : Holds heap ((list, value) :: (local_, value') :: rest) :=
    holds.perm (List.Perm.swap _ _ _)
  exact hswapped.deallocate.retain.deallocate

theorem Holds.rebuild {heap heap' : TagHeap} {list list' : ByteTagList} {value : TagRanges}
    {rest : Holders} (holds : Holds heap ((list, value) :: rest)) {items : List TagRange}
    (hsizes : Sized items) (hrebuild : list.rebuild heap items = some (heap', list')) :
    Holds heap' ((list', TagRanges.empty.addAll items) :: rest) := by
  unfold ByteTagList.rebuild at hrebuild
  cases hbuilt : ByteTagList.empty.addAll heap items with
  | none => rw [hbuilt] at hrebuild; cases hrebuild
  | some built =>
      rw [hbuilt] at hrebuild
      have hreplaced := (holds.fresh.addAll hsizes hbuilt).replace
      rw [Option.some.inj hrebuild] at hreplaced
      exact hreplaced

theorem Holds.addAtEnd {heap heap' : TagHeap} {list list' : ByteTagList} {value : TagRanges}
    {rest : Holders} (holds : Holds heap ((list, value) :: rest)) (hsized : Sized value.ranges)
    {appendOffset : Int} (hadd : list.addAtEnd heap appendOffset = some (heap', list')) :
    Holds heap' ((list', value.addAtEnd appendOffset) :: rest) := by
  unfold ByteTagList.addAtEnd ByteTagList.beginAll at hadd
  rw [holds.head.maxEnd_eq, holds.head.adjustment_eq, holds.head.begin_eq] at hadd
  unfold TagRanges.addAtEnd
  split at hadd
  · next hkeep =>
      obtain ⟨rfl, rfl⟩ := Prod.mk.inj (Option.some.inj hadd)
      rw [if_pos hkeep]
      exact holds
  · next hcut =>
      rw [if_neg hcut]
      exact holds.rebuild ((hsized.iterate _ _ _).itemsBefore appendOffset) hadd

theorem Holds.addAtStart {heap heap' : TagHeap} {list list' : ByteTagList} {value : TagRanges}
    {rest : Holders} (holds : Holds heap ((list, value) :: rest)) (hsized : Sized value.ranges)
    {prependOffset : Int} (hadd : list.addAtStart heap prependOffset = some (heap', list')) :
    Holds heap' ((list', value.addAtStart prependOffset) :: rest) := by
  unfold ByteTagList.addAtStart ByteTagList.beginAll at hadd
  rw [holds.head.minStart_eq, holds.head.adjustment_eq, holds.head.begin_eq] at hadd
  unfold TagRanges.addAtStart
  split at hadd
  · next hkeep =>
      obtain ⟨rfl, rfl⟩ := Prod.mk.inj (Option.some.inj hadd)
      rw [if_pos hkeep]
      exact holds
  · next hcut =>
      rw [if_neg hcut]
      exact holds.rebuild ((hsized.iterate _ _ _).itemsFrom prependOffset) hadd

end DeepcV2x.Packets
