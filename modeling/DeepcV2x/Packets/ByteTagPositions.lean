import DeepcV2x.Packets.ByteTagSharing

/-!
# The tags of a position

A value gives every position the tags whose range covers it.  Where no 32-bit
offset overflows, cutting keeps the tags on one side of an offset and drops
them on the other, and an adjustment moves them all.
-/

namespace DeepcV2x.Packets

/-! ## Offsets that fit in 32 bits -/

def InInt32 (value : Int) : Prop := -2 ^ 31 ≤ value ∧ value < 2 ^ 31

instance (value : Int) : Decidable (InInt32 value) :=
  inferInstanceAs (Decidable (-2 ^ 31 ≤ value ∧ value < 2 ^ 31))

theorem int32_eq {value : Int} (hvalue : InInt32 value) : int32 value = value := by
  obtain ⟨hlow, hhigh⟩ := hvalue
  unfold int32
  exact Int.bmod_eq_of_le (by omega) (by omega)

theorem inInt32_of_nat {value : Nat} (hvalue : value < 2 ^ 31) : InInt32 value := by
  unfold InInt32
  omega

/-! ## The tags that a list of ranges gives a position -/

def TagRange.covers (position : Int) (range : TagRange) : Bool :=
  decide (range.start ≤ position) && decide (position < range.stop)

def tagsIn (ranges : List TagRange) (position : Int) : List Tag :=
  (ranges.filter (TagRange.covers position)).map TagRange.tag

@[simp]
theorem tagsIn_nil (position : Int) : tagsIn [] position = [] := rfl

theorem tagsIn_append (front behind : List TagRange) (position : Int) :
    tagsIn (front ++ behind) position = tagsIn front position ++ tagsIn behind position := by
  rw [tagsIn, List.filter_append, List.map_append, tagsIn, tagsIn]

theorem tagsIn_cons (range : TagRange) (rest : List TagRange) (position : Int) :
    tagsIn (range :: rest) position =
      if range.covers position then range.tag :: tagsIn rest position
      else tagsIn rest position := by
  unfold tagsIn
  by_cases hcovers : range.covers position = true
  · rw [List.filter_cons_of_pos hcovers, if_pos hcovers, List.map_cons]
  · rw [List.filter_cons_of_neg hcovers, if_neg hcovers]

theorem tagsIn_eq_nil {ranges : List TagRange} {position : Int}
    (hnone : ∀ range ∈ ranges, range.covers position = false) : tagsIn ranges position = [] := by
  unfold tagsIn
  rw [List.filter_eq_nil_iff.mpr fun range hmem => by rw [hnone range hmem]; exact Bool.false_ne_true,
    List.map_nil]

/-- Ranges that cover a position alike give it the same tags. -/
theorem tagsIn_map {ranges : List TagRange} {change : TagRange → TagRange} {place position : Int}
    (htag : ∀ range, (change range).tag = range.tag)
    (hcovers : ∀ range ∈ ranges, (change range).covers position = range.covers place) :
    tagsIn (ranges.map change) position = tagsIn ranges place := by
  induction ranges with
  | nil => rfl
  | cons range rest ih =>
      rw [List.map_cons, tagsIn_cons, tagsIn_cons, hcovers range List.mem_cons_self, htag,
        ih fun other hmem => hcovers other (List.mem_cons_of_mem _ hmem)]

/-- Ranges that do not cover a position may be left out. -/
theorem tagsIn_filter {ranges : List TagRange} {keep : TagRange → Bool} {position : Int}
    (hkeep : ∀ range ∈ ranges, range.covers position = true → keep range = true) :
    tagsIn (ranges.filter keep) position = tagsIn ranges position := by
  unfold tagsIn
  rw [List.filter_filter]
  congr 1
  refine List.filter_congr fun range hmem => ?_
  cases hcovers : range.covers position with
  | false => rfl
  | true => rw [hkeep range hmem hcovers]; rfl

theorem covers_iff {range : TagRange} {position : Int} :
    range.covers position = true ↔ range.start ≤ position ∧ position < range.stop := by
  simp [TagRange.covers]

/-- Ranges with offsets that fit in 32 bits. -/
def InRange (ranges : List TagRange) : Prop :=
  ∀ range ∈ ranges, InInt32 range.start ∧ InInt32 range.stop

theorem tagsIn_iterate {records : List TagRange} {adjustment offsetStart offsetEnd position : Int}
    (hshift : ∀ range ∈ records,
      InInt32 (range.start + adjustment) ∧ InInt32 (range.stop + adjustment))
    (hstart : offsetStart ≤ position) (hend : position < offsetEnd) :
    tagsIn (iterate adjustment offsetStart offsetEnd records) position =
      tagsIn records (position - adjustment) := by
  have hclip : tagsIn (iterate adjustment offsetStart offsetEnd records) position =
      tagsIn ((records.map (TagRange.shift adjustment)).filter
        fun range => !range.skipped offsetStart offsetEnd) position := by
    refine tagsIn_map (fun _ => rfl) fun range _ => ?_
    rw [Bool.eq_iff_iff, covers_iff, covers_iff]
    simp only [TagRange.clip]
    omega
  have hskip : tagsIn ((records.map (TagRange.shift adjustment)).filter
        fun range => !range.skipped offsetStart offsetEnd) position =
      tagsIn (records.map (TagRange.shift adjustment)) position := by
    refine tagsIn_filter fun range _ hcovers => ?_
    obtain ⟨hlow, hhigh⟩ := covers_iff.mp hcovers
    simp only [TagRange.skipped, Bool.not_or, Bool.and_eq_true, Bool.not_eq_true',
      decide_eq_false_iff_not]
    omega
  rw [hclip, hskip]
  refine tagsIn_map (fun _ => rfl) fun range hmem => ?_
  obtain ⟨hlow, hhigh⟩ := hshift range hmem
  rw [Bool.eq_iff_iff, covers_iff, covers_iff]
  simp only [TagRange.shift, int32_eq hlow, int32_eq hhigh]
  omega

theorem tagsIn_itemsBefore (appendOffset : Int) (items : List TagRange) (position : Int) :
    tagsIn (itemsBefore appendOffset items) position =
      if position < appendOffset then tagsIn items position else [] := by
  split
  · next hbefore =>
      have hcut : tagsIn (itemsBefore appendOffset items) position =
          tagsIn (items.filter fun item => decide (item.start < appendOffset)) position := by
        refine tagsIn_map (fun _ => rfl) fun range _ => ?_
        rw [Bool.eq_iff_iff, covers_iff, covers_iff]
        simp only [TagRange.cutEnd]
        omega
      rw [hcut]
      refine tagsIn_filter fun range _ hcovers => ?_
      have hlow := (covers_iff.mp hcovers).1
      exact decide_eq_true (by omega)
  · next hbehind =>
      refine tagsIn_eq_nil fun range hmem => ?_
      obtain ⟨item, _, rfl⟩ := List.mem_map.mp hmem
      rw [Bool.eq_false_iff, Ne, covers_iff]
      simp only [TagRange.cutEnd]
      omega

theorem tagsIn_itemsFrom (prependOffset : Int) (items : List TagRange) (position : Int) :
    tagsIn (itemsFrom prependOffset items) position =
      if prependOffset ≤ position then tagsIn items position else [] := by
  split
  · next hfrom =>
      have hcut : tagsIn (itemsFrom prependOffset items) position =
          tagsIn (items.filter fun item => decide (prependOffset < item.stop)) position := by
        refine tagsIn_map (fun _ => rfl) fun range _ => ?_
        rw [Bool.eq_iff_iff, covers_iff, covers_iff]
        simp only [TagRange.cutStart]
        omega
      rw [hcut]
      refine tagsIn_filter fun range _ hcovers => ?_
      have hhigh := (covers_iff.mp hcovers).2
      exact decide_eq_true (by omega)
  · next hbefore =>
      refine tagsIn_eq_nil fun range hmem => ?_
      obtain ⟨item, _, rfl⟩ := List.mem_map.mp hmem
      rw [Bool.eq_false_iff, Ne, covers_iff]
      simp only [TagRange.cutStart]
      omega

/-! ## The items of an iterator fit in 32 bits -/

theorem int32_inInt32 (value : Int) : InInt32 (int32 value) := by
  have hlow : -((2 ^ 32 : Nat) / 2 : Int) ≤ value.bmod (2 ^ 32) :=
    Int.le_bmod (Nat.two_pow_pos 32)
  have hhigh : value.bmod (2 ^ 32) < ((2 ^ 32 : Nat) + 1) / 2 := Int.bmod_lt (Nat.two_pow_pos 32)
  unfold InInt32 int32
  omega

theorem inRange_itemsAll (value : TagRanges) : InRange value.itemsAll := by
  intro item hitem
  obtain ⟨shifted, hshifted, rfl⟩ := List.mem_map.mp hitem
  obtain ⟨record, _, rfl⟩ := List.mem_map.mp (List.mem_filter.mp hshifted).1
  obtain ⟨hlow, hhigh⟩ := int32_inInt32 (record.start + value.adjustment)
  obtain ⟨hlow', hhigh'⟩ := int32_inInt32 (record.stop + value.adjustment)
  simp only [TagRange.clip, TagRange.shift, InInt32, offsetMax]
  omega

theorem InRange.itemsBefore {items : List TagRange} (hrange : InRange items) {appendOffset : Int}
    (hoffset : InInt32 appendOffset) : InRange (itemsBefore appendOffset items) := by
  intro item hitem
  obtain ⟨kept, hkept, rfl⟩ := List.mem_map.mp hitem
  obtain ⟨hstart, hlow, hhigh⟩ := hrange kept (List.mem_filter.mp hkept).1
  obtain ⟨hlow', hhigh'⟩ := hoffset
  refine ⟨hstart, ?_⟩
  simp only [TagRange.cutEnd, InInt32]
  omega

theorem InRange.itemsFrom {items : List TagRange} (hrange : InRange items) {prependOffset : Int}
    (hoffset : InInt32 prependOffset) : InRange (itemsFrom prependOffset items) := by
  intro item hitem
  obtain ⟨kept, hkept, rfl⟩ := List.mem_map.mp hitem
  obtain ⟨⟨hlow, hhigh⟩, hstop⟩ := hrange kept (List.mem_filter.mp hkept).1
  obtain ⟨hlow', hhigh'⟩ := hoffset
  refine ⟨?_, hstop⟩
  simp only [TagRange.cutStart, InInt32]
  omega

/-! ## Sound values -/

namespace TagRanges

def tagsAt (value : TagRanges) (position : Int) : List Tag :=
  tagsIn value.ranges (position - value.adjustment)

/-- No offset overflows when a tag over this range is added. -/
def AddFits (value : TagRanges) (start stop : Int) : Prop :=
  InInt32 (start - value.adjustment) ∧ InInt32 (stop - value.adjustment)

/-- The offset of a cut does not overflow. -/
def CutFits (value : TagRanges) (offset : Int) : Prop := InInt32 (offset - value.adjustment)

/-- The adjustment and the adjusted offsets do not overflow. -/
def AdjustFits (value : TagRanges) (adjustment : Int) : Prop :=
  InInt32 (value.adjustment + adjustment) ∧ ∀ range ∈ value.ranges,
    InInt32 (range.start + (value.adjustment + adjustment)) ∧
      InInt32 (range.stop + (value.adjustment + adjustment))

instance (value : TagRanges) (start stop : Int) : Decidable (value.AddFits start stop) :=
  inferInstanceAs (Decidable
    (InInt32 (start - value.adjustment) ∧ InInt32 (stop - value.adjustment)))

instance (value : TagRanges) (offset : Int) : Decidable (value.CutFits offset) :=
  inferInstanceAs (Decidable (InInt32 (offset - value.adjustment)))

instance (value : TagRanges) (adjustment : Int) : Decidable (value.AdjustFits adjustment) :=
  inferInstanceAs (Decidable (InInt32 (value.adjustment + adjustment) ∧
    ∀ range ∈ value.ranges, InInt32 (range.start + (value.adjustment + adjustment)) ∧
      InInt32 (range.stop + (value.adjustment + adjustment))))

/-- The bounds enclose the records, and their adjusted offsets are what they are. -/
structure Sound (value : TagRanges) : Prop where
  bounded : ∀ range ∈ value.ranges, value.minStart ≤ range.start ∧ range.stop ≤ value.maxEnd
  readable : ∀ range ∈ value.ranges,
    InInt32 (range.start + value.adjustment) ∧ InInt32 (range.stop + value.adjustment)
  sized : Sized value.ranges

theorem sound_empty : empty.Sound := by
  constructor <;> intro range hmem <;> exact absurd hmem List.not_mem_nil

variable {value : TagRanges}

theorem tagsIn_items (sound : value.Sound) {offsetStart offsetEnd position : Int}
    (hstart : offsetStart ≤ position) (hend : position < offsetEnd) :
    tagsIn (value.items offsetStart offsetEnd) position = value.tagsAt position :=
  tagsIn_iterate sound.readable hstart hend

/-! ## Adding -/

theorem tagsAt_add {start stop : Int} (hfits : value.AddFits start stop) (tag : Tag)
    (position : Int) :
    (value.add tag start stop).tagsAt position =
      value.tagsAt position ++ tagsIn [⟨tag, start, stop⟩] position := by
  have hcovers : (⟨tag, start - value.adjustment, stop - value.adjustment⟩ : TagRange).covers
      (position - value.adjustment) = (⟨tag, start, stop⟩ : TagRange).covers position := by
    rw [Bool.eq_iff_iff, covers_iff, covers_iff]
    simp only
    omega
  simp only [tagsAt, add, push, tagsIn_append, tagsIn_cons, tagsIn_nil, int32_eq hfits.1,
    int32_eq hfits.2, hcovers]

theorem Sound.add (sound : value.Sound) {tag : Tag} {start stop : Int}
    (hfits : value.AddFits start stop) (hstart : InInt32 start) (hstop : InInt32 stop)
    (htag : tag.data.length < 2 ^ 31) : (value.add tag start stop).Sound where
  bounded := fun range hmem => by
    rcases List.mem_append.mp hmem with hold | hnew
    · obtain ⟨hlow, hhigh⟩ := sound.bounded range hold
      exact ⟨(Int.min_le_left _ _).trans hlow, hhigh.trans (Int.le_max_left _ _)⟩
    · rw [List.mem_singleton.mp hnew]
      exact ⟨Int.min_le_right _ _, Int.le_max_right _ _⟩
  readable := fun range hmem => by
    rcases List.mem_append.mp hmem with hold | hnew
    · exact sound.readable range hold
    · rw [List.mem_singleton.mp hnew]
      simp only [TagRanges.add, push, int32_eq hfits.1, int32_eq hfits.2, Int.sub_add_cancel]
      exact ⟨hstart, hstop⟩
  sized := sound.sized.add htag start stop

/-- No offset overflows when these items are added, one behind the other. -/
def AddAllFits (value : TagRanges) (items : List TagRange) : Prop :=
  ∀ item ∈ items, value.AddFits item.start item.stop

instance (value : TagRanges) (items : List TagRange) : Decidable (value.AddAllFits items) :=
  inferInstanceAs (Decidable (∀ item ∈ items, value.AddFits item.start item.stop))

theorem tagsAt_addAll {items : List TagRange} (hfits : value.AddAllFits items) (position : Int) :
    (value.addAll items).tagsAt position = value.tagsAt position ++ tagsIn items position := by
  induction items generalizing value with
  | nil => exact (List.append_nil _).symm
  | cons item rest ih =>
      have hrest : (value.add item.tag item.start item.stop).AddAllFits rest :=
        fun other hmem => hfits other (List.mem_cons_of_mem _ hmem)
      rw [addAll, ih hrest, tagsAt_add (hfits item List.mem_cons_self), List.append_assoc,
        ← tagsIn_append, List.singleton_append]

theorem Sound.addAll {items : List TagRange} (sound : value.Sound) (hfits : value.AddAllFits items)
    (hrange : InRange items) (hsized : Sized items) : (value.addAll items).Sound := by
  induction items generalizing value with
  | nil => exact sound
  | cons item rest ih =>
      obtain ⟨hstart, hstop⟩ := hrange item List.mem_cons_self
      exact ih (sound.add (hfits item List.mem_cons_self) hstart hstop
          (hsized item List.mem_cons_self))
        (fun other hmem => hfits other (List.mem_cons_of_mem _ hmem))
        (fun other hmem => hrange other (List.mem_cons_of_mem _ hmem))
        fun other hmem => hsized other (List.mem_cons_of_mem _ hmem)

/-- A rebuilt list has no adjustment. -/
theorem empty_addAllFits {items : List TagRange} (hrange : InRange items) :
    empty.AddAllFits items := by
  intro item hmem
  obtain ⟨hstart, hstop⟩ := hrange item hmem
  unfold AddFits
  rw [empty, Int.sub_zero, Int.sub_zero]
  exact ⟨hstart, hstop⟩

/-! ## Cutting -/

theorem tagsAt_addAtEnd (sound : value.Sound) {offset position : Int} (hoffset : InInt32 offset)
    (hfits : value.CutFits offset) (hnonneg : 0 ≤ position) (hmax : position < offsetMax) :
    (value.addAtEnd offset).tagsAt position =
      if position < offset then value.tagsAt position else [] := by
  unfold addAtEnd
  rw [int32_eq hfits]
  by_cases hkeep : value.maxEnd ≤ offset - value.adjustment
  · rw [if_pos hkeep]
    split
    · rfl
    · refine tagsIn_eq_nil fun range hmem => ?_
      have hhigh := (sound.bounded range hmem).2
      rw [Bool.eq_false_iff, Ne, covers_iff]
      omega
  · rw [if_neg hkeep, tagsAt_addAll (empty_addAllFits ((inRange_itemsAll value).itemsBefore hoffset)),
      tagsIn_itemsBefore, itemsAll, tagsIn_items sound hnonneg hmax]
    rfl

theorem Sound.addAtEnd (sound : value.Sound) {offset : Int} (hoffset : InInt32 offset) :
    (value.addAtEnd offset).Sound := by
  unfold TagRanges.addAtEnd
  split
  · exact sound
  · have hrange := (inRange_itemsAll value).itemsBefore hoffset
    exact sound_empty.addAll (empty_addAllFits hrange) hrange
      ((sound.sized.iterate _ _ _).itemsBefore offset)

theorem tagsAt_addAtStart (sound : value.Sound) {offset position : Int} (hoffset : InInt32 offset)
    (hfits : value.CutFits offset) (hnonneg : 0 ≤ offset) (hmax : position < offsetMax) :
    (value.addAtStart offset).tagsAt position =
      if offset ≤ position then value.tagsAt position else [] := by
  unfold addAtStart
  rw [int32_eq hfits]
  by_cases hkeep : value.minStart ≥ offset - value.adjustment
  · rw [if_pos hkeep]
    split
    · rfl
    · refine tagsIn_eq_nil fun range hmem => ?_
      have hlow := (sound.bounded range hmem).1
      rw [Bool.eq_false_iff, Ne, covers_iff]
      omega
  · rw [if_neg hkeep, tagsAt_addAll (empty_addAllFits ((inRange_itemsAll value).itemsFrom hoffset)),
      tagsIn_itemsFrom]
    split
    · next hfrom => exact tagsIn_items sound (hnonneg.trans hfrom) hmax
    · rfl

theorem Sound.addAtStart (sound : value.Sound) {offset : Int} (hoffset : InInt32 offset) :
    (value.addAtStart offset).Sound := by
  unfold TagRanges.addAtStart
  split
  · exact sound
  · have hrange := (inRange_itemsAll value).itemsFrom hoffset
    exact sound_empty.addAll (empty_addAllFits hrange) hrange
      ((sound.sized.iterate _ _ _).itemsFrom offset)

/-! ## Adjusting -/

theorem tagsAt_adjust {adjustment : Int} (hfits : value.AdjustFits adjustment) (position : Int) :
    (value.adjust adjustment).tagsAt position = value.tagsAt (position - adjustment) := by
  have hplace : position - (value.adjustment + adjustment) =
      position - adjustment - value.adjustment := by omega
  simp only [tagsAt, adjust, int32_eq hfits.1, hplace]

theorem Sound.adjust (sound : value.Sound) {adjustment : Int}
    (hfits : value.AdjustFits adjustment) : (value.adjust adjustment).Sound where
  bounded := sound.bounded
  readable := fun range hmem => by
    simp only [TagRanges.adjust, int32_eq hfits.1]
    exact hfits.2 range hmem
  sized := sound.sized

end TagRanges

end DeepcV2x.Packets
