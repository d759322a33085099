import DeepcV2x.Foundation.Sharing
import Mathlib.Algebra.Group.Int.Defs
import Mathlib.Algebra.Group.Nat.Defs
import Mathlib.Data.Int.Init

/-!
# The byte tag list of a packet

Every tag is a record of one shared buffer: its offsets, stored without the
adjustment of the list, and the data that `Serialize` wrote.  A list sees the
records up to its used size.  Offsets are signed 32-bit, sizes unsigned 32-bit.
-/

namespace DeepcV2x.Packets

open Foundation.Sharing

def int32 (value : Int) : Int := value.bmod (2 ^ 32)

/-- A tag as it is serialized. -/
structure Tag where
  tid : Nat
  data : List Nat
deriving DecidableEq, Repr

/-- A tag over a range of offsets: a record of the buffer, or an item of an iterator. -/
structure TagRange where
  tag : Tag
  start : Int
  stop : Int
deriving DecidableEq, Repr

/-- Four words in front of the data. -/
def TagRange.length (range : TagRange) : Nat := range.tag.data.length + 4 + 4 + 4 + 4

structure ByteTagListData where
  size : Nat
  dirty : Nat
  data : List TagRange
deriving DecidableEq, Repr

/-- The blocks, the free list and `g_maxSize`. -/
structure TagHeap where
  arena : Arena ByteTagListData
  maxSize : Nat

def TagHeap.empty : TagHeap := ⟨Arena.empty, 0⟩

structure ByteTagList where
  minStart : Int
  maxEnd : Int
  adjustment : Int
  used : Nat
  data : Option Nat
deriving DecidableEq, Repr

def offsetMax : Int := 2 ^ 31 - 1

def offsetMin : Int := -2 ^ 31

def ByteTagList.empty : ByteTagList := ⟨offsetMax, offsetMin, 0, 0, none⟩

/-! ## Blocks -/

def freeListSize : Nat := 1000

def TagHeap.allocate (heap : TagHeap) (size : Nat) : Nat × TagHeap :=
  ((heap.arena.claim (fun data => decide (size ≤ data.size)) (fun data => { data with dirty := 0 })
      ⟨size, 0, []⟩).1,
    { heap with
      arena := (heap.arena.claim (fun data => decide (size ≤ data.size))
        (fun data => { data with dirty := 0 }) ⟨size, 0, []⟩).2 })

/-- A block goes to the free list unless that is full or larger blocks are known. -/
def TagHeap.deallocate (heap : TagHeap) : Option Nat → TagHeap
  | none => heap
  | some place =>
      match heap.arena.block place with
      | none => heap
      | some data =>
          { arena := heap.arena.release
              (!(decide (heap.arena.free.length > freeListSize) ||
                decide (data.size < max heap.maxSize data.size))) place
            maxSize := max heap.maxSize data.size }

/-- The `count++` of a copied list. -/
def TagHeap.retain (heap : TagHeap) : Option Nat → TagHeap
  | none => heap
  | some place => { heap with arena := heap.arena.retain place }

/-! ## The records -/

/-- The records that start below an offset of the buffer. -/
def upTo : List TagRange → Nat → List TagRange
  | [], _ => []
  | _ :: _, 0 => []
  | range :: rest, used + 1 => range :: upTo rest (used + 1 - range.length)

def ByteTagList.stored (heap : TagHeap) (list : ByteTagList) : List TagRange :=
  match list.data.bind heap.arena.block with
  | none => []
  | some data => upTo data.data list.used

/-! ## `ByteTagList::Iterator` -/

def TagRange.shift (adjustment : Int) (range : TagRange) : TagRange :=
  { range with
    start := int32 (range.start + adjustment)
    stop := int32 (range.stop + adjustment) }

/-- The test of `PrepareForNext`. -/
def TagRange.skipped (offsetStart offsetEnd : Int) (range : TagRange) : Bool :=
  decide (range.start ≥ offsetEnd) || decide (range.stop ≤ offsetStart)

def TagRange.clip (offsetStart offsetEnd : Int) (range : TagRange) : TagRange :=
  { range with
    start := max range.start offsetStart
    stop := min range.stop offsetEnd }

/-- The items that the iterator over the records yields. -/
def iterate (adjustment offsetStart offsetEnd : Int) (records : List TagRange) : List TagRange :=
  ((records.map (TagRange.shift adjustment)).filter
    fun range => !range.skipped offsetStart offsetEnd).map (TagRange.clip offsetStart offsetEnd)

def ByteTagList.begin (heap : TagHeap) (list : ByteTagList) (offsetStart offsetEnd : Int) :
    List TagRange :=
  iterate list.adjustment offsetStart offsetEnd (list.stored heap)

def ByteTagList.beginAll (heap : TagHeap) (list : ByteTagList) : List TagRange :=
  list.begin heap 0 offsetMax

/-! ## `ByteTagList::Add` -/

/-- A copy of the used records in another block. -/
def ByteTagList.moved (heap : TagHeap) (list : ByteTagList) (place : Nat) (size : Nat) :
    TagHeap × ByteTagList :=
  (({ (heap.allocate size).2 with
        arena := (heap.allocate size).2.arena.write (heap.allocate size).1 fun data =>
          { data with data := list.stored heap } } : TagHeap).deallocate (some place),
    { list with data := some (heap.allocate size).1 })

/-- A block of its own, or one whose used records are those of this list. -/
def ByteTagList.reserve (heap : TagHeap) (list : ByteTagList) (spaceNeeded : Nat) :
    TagHeap × ByteTagList :=
  match list.data with
  | none =>
      ((heap.allocate spaceNeeded).2,
        { list with data := some (heap.allocate spaceNeeded).1, used := 0 })
  | some place =>
      match heap.arena.cell place with
      | none => (heap, list)
      | some cell =>
          if cell.block.size < spaceNeeded ∨ (cell.count ≠ 1 ∧ cell.block.dirty ≠ list.used) then
            list.moved heap place spaceNeeded
          else (heap, list)

def TagHeap.writeRange (heap : TagHeap) (place : Option Nat) (used spaceNeeded : Nat)
    (range : TagRange) : TagHeap :=
  match place with
  | none => heap
  | some place =>
      { heap with
        arena := heap.arena.write place fun data =>
          { data with data := upTo data.data used ++ [range], dirty := spaceNeeded } }

/-- The record behind the used ones, in the block that was reserved. -/
def ByteTagList.append (heap : TagHeap) (list : ByteTagList) (spaceNeeded : Nat)
    (range : TagRange) : TagHeap × ByteTagList :=
  (heap.writeRange list.data list.used spaceNeeded range,
    { list with
      minStart := min list.minStart range.start
      maxEnd := max list.maxEnd range.stop
      used := spaceNeeded })

def ByteTagList.spaceNeeded (list : ByteTagList) (tag : Tag) : Nat :=
  (list.used + tag.data.length + 4 + 4 + 4 + 4) % 2 ^ 32

/-- `none` where the assertion on the used size fails. -/
def ByteTagList.add (heap : TagHeap) (list : ByteTagList) (tag : Tag) (start stop : Int) :
    Option (TagHeap × ByteTagList) :=
  if list.used ≤ list.spaceNeeded tag then
    some ((list.reserve heap (list.spaceNeeded tag)).2.append
      (list.reserve heap (list.spaceNeeded tag)).1 (list.spaceNeeded tag)
      ⟨tag, int32 (start - list.adjustment), int32 (stop - list.adjustment)⟩)
  else none

/-- `Add(const ByteTagList&)`, from the items of the other list. -/
def ByteTagList.addAll (heap : TagHeap) (list : ByteTagList) :
    List TagRange → Option (TagHeap × ByteTagList)
  | [] => some (heap, list)
  | item :: rest =>
      match list.add heap item.tag item.start item.stop with
      | none => none
      | some added => added.2.addAll added.1 rest

/-! ## Cutting -/

/-- `*this = list`, and the end of the local list. -/
def ByteTagList.replace (heap : TagHeap) (list local_ : ByteTagList) : TagHeap × ByteTagList :=
  (((heap.deallocate list.data).retain local_.data).deallocate local_.data, local_)

def TagRange.cutEnd (appendOffset : Int) (item : TagRange) : TagRange :=
  { item with stop := min item.stop appendOffset }

def TagRange.cutStart (prependOffset : Int) (item : TagRange) : TagRange :=
  { item with start := max item.start prependOffset }

/-- The items in front of an offset, cut there. -/
def itemsBefore (appendOffset : Int) (items : List TagRange) : List TagRange :=
  (items.filter fun item => decide (item.start < appendOffset)).map (TagRange.cutEnd appendOffset)

/-- The items behind an offset, cut there. -/
def itemsFrom (prependOffset : Int) (items : List TagRange) : List TagRange :=
  (items.filter fun item => decide (prependOffset < item.stop)).map
    (TagRange.cutStart prependOffset)

/-- A list built anew from items takes the place of this one. -/
def ByteTagList.rebuild (heap : TagHeap) (list : ByteTagList) (items : List TagRange) :
    Option (TagHeap × ByteTagList) :=
  match ByteTagList.empty.addAll heap items with
  | none => none
  | some built => some (list.replace built.1 built.2)

def ByteTagList.addAtEnd (heap : TagHeap) (list : ByteTagList) (appendOffset : Int) :
    Option (TagHeap × ByteTagList) :=
  if list.maxEnd ≤ int32 (appendOffset - list.adjustment) then some (heap, list)
  else list.rebuild heap (itemsBefore appendOffset (list.beginAll heap))

def ByteTagList.addAtStart (heap : TagHeap) (list : ByteTagList) (prependOffset : Int) :
    Option (TagHeap × ByteTagList) :=
  if list.minStart ≥ int32 (prependOffset - list.adjustment) then some (heap, list)
  else list.rebuild heap (itemsFrom prependOffset (list.beginAll heap))

def ByteTagList.adjust (list : ByteTagList) (adjustment : Int) : ByteTagList :=
  { list with adjustment := int32 (list.adjustment + adjustment) }

end DeepcV2x.Packets
