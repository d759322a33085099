import DeepcV2x.Foundation.Slices
import DeepcV2x.Tcp.RxBuffer

/-!
# The reception buffer over its stream

Blocks are seen at their places of the stream instead of at sequence numbers.
Those up to the first missing place follow each other; those behind it are
sorted and apart, and a trimmed segment fits between them.
-/

namespace DeepcV2x.Tcp

open SequenceNumber32 Foundation.Slices

/-! ## Blocks at their places -/

/-- The place behind a block. -/
def RxBlock.last (block : RxBlock) : Nat := block.1 + block.2.length

/-- A block at a place of the stream, at its sequence number. -/
def atSequence (first : Nat) (block : RxBlock) : RxBlock := (add32 first block.1, block.2)

theorem atSequence_last (first : Nat) (block : RxBlock) :
    (atSequence first block).lastByteSeq = add32 first block.last :=
  add32_add32 first block.1 block.2.length

/-- The bytes of blocks. -/
def totalSize : List RxBlock → Nat
  | [] => 0
  | block :: blocks => block.2.length + totalSize blocks

@[simp]
theorem totalSize_nil : totalSize [] = 0 := rfl

@[simp]
theorem totalSize_cons (block : RxBlock) (blocks : List RxBlock) :
    totalSize (block :: blocks) = block.2.length + totalSize blocks := rfl

@[simp]
theorem totalSize_append (blocks others : List RxBlock) :
    totalSize (blocks ++ others) = totalSize blocks + totalSize others := by
  induction blocks with
  | nil => simp
  | cons block blocks ih => rw [List.cons_append, totalSize_cons, totalSize_cons, ih, Nat.add_assoc]

/-- The place is in a block. -/
def Held (blocks : List RxBlock) (place : Nat) : Prop :=
  ∃ block ∈ blocks, block.1 ≤ place ∧ place < block.last

theorem held_append {blocks others : List RxBlock} {place : Nat} :
    Held (blocks ++ others) place ↔ Held blocks place ∨ Held others place := by
  simp [Held, or_and_right, exists_or]

theorem held_cons {block : RxBlock} {blocks : List RxBlock} {place : Nat} :
    Held (block :: blocks) place ↔ (block.1 ≤ place ∧ place < block.last) ∨ Held blocks place := by
  simp [Held]

theorem not_held_nil (place : Nat) : ¬ Held [] place :=
  fun ⟨_, hmem, _⟩ => absurd hmem List.not_mem_nil

/-- Blocks with bytes of the stream, sorted and apart, between two places. -/
structure Apart (stream : List UInt8) (low high : Nat) (blocks : List RxBlock) : Prop where
  apart : blocks.Pairwise fun block other => block.last ≤ other.1
  nonEmpty : ∀ block ∈ blocks, block.2 ≠ []
  slices : ∀ block ∈ blocks, IsSlice stream block.1 block.2
  low : ∀ block ∈ blocks, low ≤ block.1
  high : ∀ block ∈ blocks, block.last ≤ high

namespace Apart

variable {stream : List UInt8} {low high : Nat} {block : RxBlock} {blocks others : List RxBlock}

theorem nil (stream : List UInt8) (low high : Nat) : Apart stream low high [] where
  apart := List.Pairwise.nil
  nonEmpty := fun _ hmem => absurd hmem List.not_mem_nil
  slices := fun _ hmem => absurd hmem List.not_mem_nil
  low := fun _ hmem => absurd hmem List.not_mem_nil
  high := fun _ hmem => absurd hmem List.not_mem_nil

theorem lt_last (holds : Apart stream low high blocks) (hmem : block ∈ blocks) :
    block.1 < block.last :=
  Nat.lt_add_of_pos_right (List.length_pos_iff.mpr (holds.nonEmpty block hmem))

theorem sublist (holds : Apart stream low high blocks) (hsub : others.Sublist blocks) :
    Apart stream low high others where
  apart := holds.apart.sublist hsub
  nonEmpty := fun _ hmem => holds.nonEmpty _ (hsub.subset hmem)
  slices := fun _ hmem => holds.slices _ (hsub.subset hmem)
  low := fun _ hmem => holds.low _ (hsub.subset hmem)
  high := fun _ hmem => holds.high _ (hsub.subset hmem)

theorem weaken (holds : Apart stream low high blocks) {low' high' : Nat} (hlow : low' ≤ low)
    (hhigh : high ≤ high') : Apart stream low' high' blocks :=
  { holds with
    low := fun block hmem => Nat.le_trans hlow (holds.low block hmem)
    high := fun block hmem => Nat.le_trans (holds.high block hmem) hhigh }

/-- The blocks behind the first one begin behind its end. -/
theorem tail (holds : Apart stream low high (block :: blocks)) :
    Apart stream block.last high blocks :=
  { holds.sublist (List.sublist_cons_self block blocks) with
    low := (List.pairwise_cons.mp holds.apart).1 }

theorem cons (holds : Apart stream block.last high blocks) (hne : block.2 ≠ [])
    (hslice : IsSlice stream block.1 block.2) (hlow : low ≤ block.1) (hhigh : block.last ≤ high) :
    Apart stream low high (block :: blocks) where
  apart := List.pairwise_cons.mpr ⟨holds.low, holds.apart⟩
  nonEmpty := List.forall_mem_cons.mpr ⟨hne, holds.nonEmpty⟩
  slices := List.forall_mem_cons.mpr ⟨hslice, holds.slices⟩
  low := List.forall_mem_cons.mpr ⟨hlow, fun other hmem =>
    Nat.le_trans (Nat.le_trans hlow (Nat.le_add_right _ _)) (holds.low other hmem)⟩
  high := List.forall_mem_cons.mpr ⟨hhigh, holds.high⟩

/-- Blocks apart have no more bytes than there are places. -/
theorem totalSize_le (holds : Apart stream low high blocks) (hle : low ≤ high) :
    totalSize blocks + low ≤ high := by
  induction blocks generalizing low with
  | nil => simpa using hle
  | cons block blocks ih =>
      have hlow := holds.low block List.mem_cons_self
      have hhigh := holds.high block List.mem_cons_self
      have hrest := ih holds.tail hhigh
      rw [RxBlock.last] at hrest
      rw [totalSize_cons]
      omega

end Apart

/-- Blocks that follow each other from a place to a place. -/
def Contiguous : Nat → List RxBlock → Nat → Prop
  | low, [], high => low = high
  | low, block :: blocks, high => block.1 = low ∧ Contiguous block.last blocks high

namespace Contiguous

variable {low high : Nat} {blocks : List RxBlock}

theorem totalSize_eq (contiguous : Contiguous low blocks high) : low + totalSize blocks = high := by
  induction blocks generalizing low with
  | nil => exact contiguous
  | cons block blocks ih =>
      obtain ⟨hplace, hrest⟩ := contiguous
      have hsum := ih hrest
      rw [RxBlock.last] at hsum
      rw [totalSize_cons]
      omega

theorem append {middle : Nat} {others : List RxBlock} (contiguous : Contiguous low blocks middle)
    (hothers : Contiguous middle others high) : Contiguous low (blocks ++ others) high := by
  induction blocks generalizing low with
  | nil =>
      obtain rfl : low = middle := contiguous
      exact hothers
  | cons block blocks ih => exact ⟨contiguous.1, ih contiguous.2⟩

/-- Every place between the two is in a block. -/
theorem held (contiguous : Contiguous low blocks high) {place : Nat} (hlow : low ≤ place)
    (hhigh : place < high) : Held blocks place := by
  induction blocks generalizing low with
  | nil =>
      obtain rfl : low = high := contiguous
      omega
  | cons block blocks ih =>
      obtain ⟨rfl, hrest⟩ := contiguous
      rcases Nat.lt_or_ge place block.last with hin | hbehind
      · exact held_cons.mpr (.inl ⟨hlow, hin⟩)
      · exact held_cons.mpr (.inr (ih hrest hbehind))

theorem le_of_forall (contiguous : Contiguous low blocks high) {bound : Nat} (hlow : low ≤ bound)
    (hall : ∀ block ∈ blocks, block.last ≤ bound) : high ≤ bound := by
  induction blocks generalizing low with
  | nil =>
      obtain rfl : low = high := contiguous
      exact hlow
  | cons block blocks ih =>
      obtain ⟨hblock, hblocks⟩ := List.forall_mem_cons.mp hall
      exact ih contiguous.2 hblock hblocks

theorem last_le (contiguous : Contiguous low blocks high) {block : RxBlock}
    (hmem : block ∈ blocks) : block.last ≤ high := by
  induction blocks generalizing low with
  | nil => exact absurd hmem List.not_mem_nil
  | cons other blocks ih =>
      have hsum := contiguous.2.totalSize_eq
      rcases List.mem_cons.mp hmem with rfl | hmem
      · omega
      · exact ih contiguous.2 hmem

end Contiguous

/-- Blocks followed by further ones up to a place. -/
theorem Apart.append {stream : List UInt8} {low middle middle' high : Nat}
    {blocks moved : List RxBlock} (holds : Apart stream low middle blocks)
    (hmoved : Apart stream middle high moved) (contiguous : Contiguous middle moved middle')
    (hle : low ≤ middle) :
    Apart stream low middle' (blocks ++ moved) where
  apart := List.pairwise_append.mpr ⟨holds.apart, hmoved.apart, fun block hmem other hother =>
    Nat.le_trans (holds.high block hmem) (hmoved.low other hother)⟩
  nonEmpty := List.forall_mem_append.mpr ⟨holds.nonEmpty, hmoved.nonEmpty⟩
  slices := List.forall_mem_append.mpr ⟨holds.slices, hmoved.slices⟩
  low := List.forall_mem_append.mpr ⟨holds.low, fun block hmem =>
    Nat.le_trans hle (hmoved.low block hmem)⟩
  high := List.forall_mem_append.mpr ⟨fun _ hmem => Nat.le_trans (holds.high _ hmem)
    (contiguous.totalSize_eq ▸ Nat.le_add_right _ _), fun _ hmem => contiguous.last_le hmem⟩

/-! ## Trimming a segment -/

theorem trimOverlap_stop {headSeq tailSeq size : Nat} {data : List RxBlock}
    (hbehind : ∀ block ∈ data.head?, ¬ Le block.1 tailSeq) :
    trimOverlap headSeq tailSeq size data = ⟨headSeq, tailSeq, size, data⟩ := by
  cases data with
  | nil => rfl
  | cons block rest => rw [trimOverlap, if_neg (hbehind block rfl)]

/-- Blocks before the segment are kept. -/
theorem trimOverlap_before {headSeq tailSeq size : Nat} {front rest : List RxBlock}
    (hbefore : ∀ block ∈ front, Le block.1 tailSeq ∧ ¬ Gt block.lastByteSeq headSeq) :
    trimOverlap headSeq tailSeq size (front ++ rest) =
      { trimOverlap headSeq tailSeq size rest with
        data := front ++ (trimOverlap headSeq tailSeq size rest).data } := by
  induction front with
  | nil => rfl
  | cons block front ih =>
      obtain ⟨⟨hle, hend⟩, hfront⟩ := List.forall_mem_cons.mp hbefore
      rw [List.cons_append, trimOverlap, if_pos hle, if_neg hend, ih hfront]
      rfl

/-- An empty segment stays empty, and the blocks are kept. -/
theorem trimOverlap_empty {seq size : Nat} {data : List RxBlock}
    (hends : ∀ block ∈ data, Gt block.lastByteSeq block.1)
    (hsorted : data.Pairwise fun block other => Gt other.1 block.1) :
    ∃ headSeq tailSeq, trimOverlap seq seq size data = ⟨headSeq, tailSeq, size, data⟩ ∧
      Ge headSeq tailSeq := by
  induction data with
  | nil => exact ⟨seq, seq, rfl, .inr rfl⟩
  | cons block rest ih =>
      obtain ⟨hend, hrest⟩ := List.forall_mem_cons.mp hends
      obtain ⟨hfirst, hothers⟩ := List.pairwise_cons.mp hsorted
      by_cases hle : Le block.1 seq
      · by_cases hgt : Gt block.lastByteSeq seq
        · refine ⟨block.lastByteSeq, block.1, ?_, .inl hend⟩
          have hstop := @trimOverlap_stop block.lastByteSeq block.1 size rest
            fun other hmem hle => hle (hfirst other (List.mem_of_mem_head? hmem))
          rw [trimOverlap, if_pos hle, if_pos hgt, if_neg fun hboth => hle hboth.1, if_pos hle,
            if_pos (.inl hgt), hstop]
          rfl
        · obtain ⟨headSeq, tailSeq, htrim, hge⟩ := ih hrest hothers
          refine ⟨headSeq, tailSeq, ?_, hge⟩
          rw [trimOverlap, if_pos hle, if_neg hgt, htrim]
          rfl
      · exact ⟨seq, seq, trimOverlap_stop fun other hmem => Option.mem_some.mp hmem ▸ hle,
          .inr rfl⟩

/-- What is left of a segment and of the blocks. -/
structure Trims (blocks : List RxBlock) (head tail : Nat) (kept : List RxBlock)
    (head' tail' : Nat) : Prop where
  sublist : kept.Sublist blocks
  grown : head ≤ head'
  shrunk : tail' ≤ tail
  free : head' < tail' → ∀ block ∈ kept, block.last ≤ head' ∨ tail' ≤ block.1
  held : ∀ place, Held blocks place → Held kept place ∨ head' ≤ place ∧ place < tail'
  whole : tail' ≤ head' → kept = blocks
  headStays : (∀ block ∈ blocks, head < block.1) → head' = head
  tailStays : ∀ bound ≤ tail, (∀ block ∈ blocks, bound ≤ block.1) → bound ≤ tail'
  headWithin : ∀ bound, head ≤ bound → (∀ block ∈ blocks, block.last ≤ bound) → head' ≤ bound

namespace Trims

variable {stream : List UInt8} {low high head tail head' tail' : Nat} {block : RxBlock}
  {blocks kept : List RxBlock}

theorem stop (hbehind : ∀ block ∈ blocks, tail ≤ block.1) :
    Trims blocks head tail blocks head tail where
  sublist := List.Sublist.refl _
  grown := Nat.le_refl _
  shrunk := Nat.le_refl _
  free := fun _ block hmem => .inr (hbehind block hmem)
  held := fun _ => .inl
  whole := fun _ => rfl
  headStays := fun _ => rfl
  tailStays := fun _ hle _ => hle
  headWithin := fun _ hle _ => hle

/-- A block that ends at or before the segment. -/
theorem before (trims : Trims blocks head tail kept head' tail') (hend : block.last ≤ head)
    (hlt : block.1 < block.last) :
    Trims (block :: blocks) head tail (block :: kept) head' tail' where
  sublist := trims.sublist.cons_cons block
  grown := trims.grown
  shrunk := trims.shrunk
  free := fun hspace => List.forall_mem_cons.mpr
    ⟨.inl (Nat.le_trans hend trims.grown), trims.free hspace⟩
  held := fun place hheld => by
    rcases held_cons.mp hheld with hin | hheld
    · exact .inl (held_cons.mpr (.inl hin))
    · exact (trims.held place hheld).imp_left fun hkept => held_cons.mpr (.inr hkept)
  whole := fun hle => by rw [trims.whole hle]
  headStays := fun hall => absurd (hall block List.mem_cons_self) (by omega)
  tailStays := fun bound hle hall =>
    trims.tailStays bound hle fun other hmem => hall other (List.mem_cons_of_mem _ hmem)
  headWithin := fun bound hle hall =>
    trims.headWithin bound hle fun other hmem => hall other (List.mem_cons_of_mem _ hmem)

/-- A block embedded in the segment. -/
theorem embedded (trims : Trims blocks head tail kept head' tail') (hhead : head < block.1)
    (hlt : block.1 < block.last) (htail : block.last < tail)
    (hbehind : ∀ other ∈ blocks, block.last ≤ other.1) :
    Trims (block :: blocks) head tail kept head' tail' := by
  have hsame := trims.headStays fun other hmem => Nat.lt_of_lt_of_le (by omega) (hbehind other hmem)
  have hreach := trims.tailStays block.last (Nat.le_of_lt htail) hbehind
  constructor
  · exact trims.sublist.cons block
  · exact trims.grown
  · exact trims.shrunk
  · exact trims.free
  · intro place hheld
    rcases held_cons.mp hheld with hin | hheld
    · exact .inr (by omega)
    · exact trims.held place hheld
  · exact fun hle => absurd hle (by omega)
  · exact fun _ => hsame
  · exact fun bound hle hall =>
      trims.tailStays bound hle fun other hmem => hall other (List.mem_cons_of_mem _ hmem)
  · exact fun bound hle hall =>
      trims.headWithin bound hle fun other hmem => hall other (List.mem_cons_of_mem _ hmem)

/-- A block over the head of the segment. -/
theorem overHead (trims : Trims blocks block.last tail kept head' tail') (hle : block.1 ≤ head)
    (hgt : head < block.last) :
    Trims (block :: blocks) head tail (block :: kept) head' tail' where
  sublist := trims.sublist.cons_cons block
  grown := Nat.le_trans (Nat.le_of_lt hgt) trims.grown
  shrunk := trims.shrunk
  free := fun hspace => List.forall_mem_cons.mpr ⟨.inl trims.grown, trims.free hspace⟩
  held := fun place hheld => by
    rcases held_cons.mp hheld with hin | hheld
    · exact .inl (held_cons.mpr (.inl hin))
    · exact (trims.held place hheld).imp_left fun hkept => held_cons.mpr (.inr hkept)
  whole := fun hspace => by rw [trims.whole hspace]
  headStays := fun hall => absurd (hall block List.mem_cons_self) (by omega)
  tailStays := fun bound hbound hall =>
    trims.tailStays bound hbound fun other hmem => hall other (List.mem_cons_of_mem _ hmem)
  headWithin := fun bound _ hall => trims.headWithin bound (hall block List.mem_cons_self)
    fun other hmem => hall other (List.mem_cons_of_mem _ hmem)

/-- A block over the whole segment. -/
theorem overAll (hle : block.1 ≤ head) (hlt : head < tail) (hend : tail ≤ block.last) :
    Trims (block :: blocks) head tail (block :: blocks) block.last block.1 where
  sublist := List.Sublist.refl _
  grown := by omega
  shrunk := by omega
  free := fun hspace => absurd hspace (by omega)
  held := fun _ => .inl
  whole := fun _ => rfl
  headStays := fun hall => absurd (hall block List.mem_cons_self) (by omega)
  tailStays := fun bound _ hall => hall block List.mem_cons_self
  headWithin := fun _ _ hall => hall block List.mem_cons_self

/-- A block over the tail of the segment. -/
theorem overTail (hle : block.1 ≤ tail) (hend : tail ≤ block.last)
    (hbehind : ∀ other ∈ blocks, block.last ≤ other.1) :
    Trims (block :: blocks) head tail (block :: blocks) head block.1 where
  sublist := List.Sublist.refl _
  grown := Nat.le_refl _
  shrunk := hle
  free := fun _ => List.forall_mem_cons.mpr
    ⟨.inr (Nat.le_refl _), fun other hmem => .inr (by have := hbehind other hmem; omega)⟩
  held := fun _ => .inl
  whole := fun _ => rfl
  headStays := fun _ => rfl
  tailStays := fun bound _ hall => hall block List.mem_cons_self
  headWithin := fun _ hle _ => hle

end Trims

/-- A block is removed when it ends before the segment and a place of the segment before it is
missing. -/
def Swallows (blocks : List RxBlock) (head tail : Nat) (block : RxBlock) : Prop :=
  block.last < tail ∧ ∃ place, head ≤ place ∧ place < block.1 ∧ ¬ Held blocks place

/-- A block before the place from which the segment is not yet trimmed. -/
theorem Swallows.cons {blocks : List RxBlock} {head head' tail : Nat} {block other : RxBlock}
    (swallows : Swallows blocks head' tail other) (hgrown : head ≤ head') (hend : block.last ≤ head') :
    Swallows (block :: blocks) head tail other := by
  obtain ⟨hlast, place, hlow, hhigh, hmissing⟩ := swallows
  refine ⟨hlast, place, Nat.le_trans hgrown hlow, hhigh, fun hheld => ?_⟩
  rcases held_cons.mp hheld with ⟨-, hin⟩ | hin
  · omega
  · exact hmissing hin

/-- The loop trims a segment between two places that are less than half a turn apart, and removes
the blocks it swallows. -/
theorem trimOverlap_swallows (first : Nat) {stream : List UInt8} {low high tail : Nat}
    (hspan : high < low + 2147483648) (htail : tail ≤ high) {blocks : List RxBlock}
    (holds : Apart stream low high blocks) : ∀ {head size : Nat}, low ≤ head → head < tail →
      totalSize blocks ≤ size → size < 4294967296 →
      ∃ head' tail' size' kept,
        trimOverlap (add32 first head) (add32 first tail) size (blocks.map (atSequence first)) =
          ⟨add32 first head', add32 first tail', size', kept.map (atSequence first)⟩ ∧
        size' + totalSize blocks = size + totalSize kept ∧
        Trims blocks head tail kept head' tail' ∧
        ∀ other ∈ blocks, other ∉ kept → Swallows blocks head tail other := by
  have hkeeps : ∀ {blocks : List RxBlock} {head : Nat}, ∀ other ∈ blocks, other ∉ blocks →
      Swallows blocks head tail other := fun _ hmem hnot => absurd hmem hnot
  induction blocks with
  | nil =>
      intro head size _ hlt _ _
      exact ⟨head, tail, size, [], rfl, rfl,
        Trims.stop (fun _ hmem => absurd hmem List.not_mem_nil), hkeeps⟩
  | cons block blocks ih =>
      intro head size hhead hlt hsize hword
      have hlow := holds.low block List.mem_cons_self
      have hhigh := holds.high block List.mem_cons_self
      have hpos := holds.lt_last List.mem_cons_self
      have hbehind := (List.pairwise_cons.mp holds.apart).1
      have hrest := holds.sublist (List.sublist_cons_self block blocks)
      rw [totalSize_cons] at hsize
      have hle : Le (atSequence first block).1 (add32 first tail) ↔ block.1 ≤ tail :=
        le_add32_iff first (by omega) (by omega)
      have hgt : Gt (atSequence first block).lastByteSeq (add32 first head) ↔ head < block.last := by
        rw [atSequence_last]
        exact gt_add32_iff first (by omega) (by omega)
      have hgtHead : Gt (atSequence first block).1 (add32 first head) ↔ head < block.1 :=
        gt_add32_iff first (by omega) (by omega)
      have hltTail : Lt (atSequence first block).lastByteSeq (add32 first tail) ↔ block.last < tail := by
        rw [atSequence_last]
        exact lt_add32_iff first (by omega) (by omega)
      have hleHead : Le (atSequence first block).1 (add32 first head) ↔ block.1 ≤ head :=
        le_add32_iff first (by omega) (by omega)
      have hgeTail : Ge (atSequence first block).lastByteSeq (add32 first tail) ↔ tail ≤ block.last := by
        rw [atSequence_last]
        exact ge_add32_iff first (by omega) (by omega)
      have hstop : ∀ {headSeq}, trimOverlap headSeq (add32 first block.1) size
          (blocks.map (atSequence first)) =
          ⟨headSeq, add32 first block.1, size, blocks.map (atSequence first)⟩ := by
        intro headSeq
        refine trimOverlap_stop fun other hmem => ?_
        obtain ⟨original, horiginal, rfl⟩ := List.mem_map.mp (List.mem_of_mem_head? hmem)
        have hafter := hbehind original horiginal
        have hbound := holds.high original (List.mem_cons_of_mem _ horiginal)
        have hfits := hrest.lt_last horiginal
        exact fun hle => absurd ((le_add32_iff first (by omega) (by omega)).mp hle) (by omega)
      simp only [List.map_cons, trimOverlap, hle, hgt, hgtHead, hltTail, hleHead, hgeTail]
      by_cases hreach : block.1 ≤ tail
      · rw [if_pos hreach]
        by_cases hover : head < block.last
        · rw [if_pos hover]
          by_cases hembedded : head < block.1 ∧ block.last < tail
          · have hsub : sub32 size block.2.length = size - block.2.length := by
              rw [sub32]
              omega
            rw [if_pos hembedded]
            obtain ⟨head', tail', size', kept, heq, htotal, trims, hswallows⟩ :=
              @ih hrest head (size - block.2.length) hhead hlt (by omega) (by omega)
            refine ⟨head', tail', size', kept, by rw [← heq, ← hsub]; rfl,
              by rw [totalSize_cons]; omega,
              trims.embedded hembedded.1 hpos hembedded.2 hbehind, fun other hmem hnot => ?_⟩
            have hfirst : ¬ Held (block :: blocks) head := by
              rintro ⟨holder, hholder, hle, hin⟩
              rcases List.mem_cons.mp hholder with rfl | hholder
              · omega
              · have := hbehind holder hholder
                omega
            rcases List.mem_cons.mp hmem with rfl | hmem
            · exact ⟨hembedded.2, head, Nat.le_refl _, hembedded.1, hfirst⟩
            · have hafter := hbehind other hmem
              exact ⟨(hswallows other hmem hnot).1, head, Nat.le_refl _, by omega, hfirst⟩
          · rw [if_neg hembedded]
            by_cases hfront : block.1 ≤ head
            · rw [if_pos hfront]
              by_cases hend : tail ≤ block.last
              · rw [if_pos hend]
                refine ⟨block.last, block.1, size, block :: blocks, ?_, rfl,
                  Trims.overAll hfront hlt hend, hkeeps⟩
                rw [show (atSequence first block).1 = add32 first block.1 from rfl, hstop,
                  atSequence_last]
                rfl
              · rw [if_neg hend]
                obtain ⟨head', tail', size', kept, heq, htotal, trims, hswallows⟩ :=
                  @ih hrest block.last size (by omega) (by omega) (by omega) hword
                refine ⟨head', tail', size', block :: kept, by rw [atSequence_last, heq]; rfl,
                  by rw [totalSize_cons, totalSize_cons]; omega, trims.overHead hfront hover,
                  fun other hmem hnot => ?_⟩
                obtain ⟨hne, hnot⟩ := not_or.mp (fun h => hnot (List.mem_cons.mpr h))
                exact (hswallows other ((List.mem_cons.mp hmem).resolve_left hne) hnot).cons
                  (Nat.le_of_lt hover) (Nat.le_refl _)
            · have hend : tail ≤ block.last := by omega
              rw [if_neg hfront, if_pos hend]
              refine ⟨head, block.1, size, block :: blocks, ?_, rfl,
                Trims.overTail hreach hend hbehind, hkeeps⟩
              rw [show (atSequence first block).1 = add32 first block.1 from rfl, hstop]
              rfl
        · rw [if_neg hover]
          obtain ⟨head', tail', size', kept, heq, htotal, trims, hswallows⟩ :=
            @ih hrest head size hhead hlt (by omega) hword
          refine ⟨head', tail', size', block :: kept, by rw [heq]; rfl,
            by rw [totalSize_cons, totalSize_cons]; omega, trims.before (by omega) hpos,
            fun other hmem hnot => ?_⟩
          obtain ⟨hne, hnot⟩ := not_or.mp (fun h => hnot (List.mem_cons.mpr h))
          exact (hswallows other ((List.mem_cons.mp hmem).resolve_left hne) hnot).cons
            (Nat.le_refl _) (by omega)
      · rw [if_neg hreach]
        refine ⟨head, tail, size, block :: blocks, rfl, rfl, Trims.stop ?_, hkeeps⟩
        exact List.forall_mem_cons.mpr ⟨by omega, fun other hmem => by
          have hafter := hbehind other hmem
          omega⟩

theorem trimOverlap_trims (first : Nat) {stream : List UInt8} {low high tail : Nat}
    (hspan : high < low + 2147483648) (htail : tail ≤ high) {blocks : List RxBlock}
    (holds : Apart stream low high blocks) {head size : Nat} (hhead : low ≤ head)
    (hlt : head < tail) (hsize : totalSize blocks ≤ size) (hword : size < 4294967296) :
    ∃ head' tail' size' kept,
      trimOverlap (add32 first head) (add32 first tail) size (blocks.map (atSequence first)) =
        ⟨add32 first head', add32 first tail', size', kept.map (atSequence first)⟩ ∧
      size' + totalSize blocks = size + totalSize kept ∧
      Trims blocks head tail kept head' tail' := by
  obtain ⟨head', tail', size', kept, heq, htotal, trims, -⟩ :=
    trimOverlap_swallows first hspan htail holds hhead hlt hsize hword
  exact ⟨head', tail', size', kept, heq, htotal, trims⟩

/-! ## Storing a segment -/

theorem insertBlock_front {headSeq : Nat} {p : List UInt8} {data : List RxBlock}
    (hbehind : ∀ block ∈ data.head?, Lt headSeq block.1) :
    insertBlock headSeq p data = (headSeq, p) :: data := by
  cases data with
  | nil => rfl
  | cons block rest => rw [insertBlock, if_pos (hbehind block rfl)]

theorem insertBlock_before {headSeq : Nat} {p : List UInt8} {front rest : List RxBlock}
    (hbefore : ∀ block ∈ front, ¬ Lt headSeq block.1 ∧ headSeq ≠ block.1) :
    insertBlock headSeq p (front ++ rest) = front ++ insertBlock headSeq p rest := by
  induction front with
  | nil => rfl
  | cons block front ih =>
      obtain ⟨⟨hlt, hne⟩, hfront⟩ := List.forall_mem_cons.mp hbefore
      rw [List.cons_append, insertBlock, if_neg hlt, if_neg hne, ih hfront]
      rfl

/-- A segment is inserted where no block is. -/
theorem insertBlock_apart (first : Nat) {stream : List UInt8} {high : Nat} {block : RxBlock}
    (hne : block.2 ≠ []) (hslice : IsSlice stream block.1 block.2) (hhigh : block.last ≤ high)
    {kept : List RxBlock} : ∀ {low : Nat}, high < low + 2147483648 → low ≤ block.1 →
      Apart stream low high kept →
      (∀ other ∈ kept, other.last ≤ block.1 ∨ block.last ≤ other.1) →
      ∃ inserted, insertBlock (add32 first block.1) block.2 (kept.map (atSequence first)) =
          inserted.map (atSequence first) ∧
        Apart stream low high inserted ∧
        totalSize inserted = totalSize kept + block.2.length ∧
        ∀ place, Held inserted place ↔
          Held kept place ∨ block.1 ≤ place ∧ place < block.last := by
  induction kept with
  | nil =>
      intro low _ hlow _ _
      refine ⟨[block], rfl, (Apart.nil stream _ high).cons hne hslice hlow hhigh, ?_, ?_⟩
      · rw [totalSize_cons, totalSize_nil, Nat.zero_add, Nat.add_zero]
      · intro place
        rw [held_cons]
        exact or_comm
  | cons other kept ih =>
      intro low hspan hlow holds hfree
      have hother := holds.low other List.mem_cons_self
      have hend := holds.high other List.mem_cons_self
      have hpos := holds.lt_last List.mem_cons_self
      have hblock : block.1 < block.last :=
        Nat.lt_add_of_pos_right (List.length_pos_iff.mpr hne)
      have hlt : Lt (add32 first block.1) (atSequence first other).1 ↔ block.1 < other.1 :=
        lt_add32_iff first (by omega) (by omega)
      have hsame : add32 first block.1 = (atSequence first other).1 ↔ block.1 = other.1 :=
        add32_inj first (by omega) (by omega)
      simp only [List.map_cons, insertBlock, hlt, hsame]
      rcases hfree other List.mem_cons_self with hbefore | hbehind
      · obtain ⟨inserted, heq, happart, htotal, hheld⟩ := @ih other.last (by omega) hbefore
          holds.tail fun others hmem => hfree others (List.mem_cons_of_mem _ hmem)
        rw [if_neg (by omega), if_neg (by omega)]
        refine ⟨other :: inserted, by rw [heq]; rfl, ?_, ?_, ?_⟩
        · exact happart.cons (holds.nonEmpty other List.mem_cons_self)
            (holds.slices other List.mem_cons_self) hother hend
        · rw [totalSize_cons, totalSize_cons, htotal, Nat.add_assoc]
        · intro place
          rw [held_cons, held_cons, hheld, or_assoc]
      · rw [if_pos (by omega)]
        refine ⟨block :: other :: kept, rfl, ?_, ?_, ?_⟩
        · refine Apart.cons { holds with low := ?_ } hne hslice hlow hhigh
          refine List.forall_mem_cons.mpr ⟨hbehind, fun others hmem => ?_⟩
          have hafter := (List.pairwise_cons.mp holds.apart).1 others hmem
          omega
        · rw [totalSize_cons, Nat.add_comm]
        · intro place
          rw [held_cons]
          exact or_comm

/-! ## The reported blocks -/

/-- A reported block is behind the first missing place, and every byte of it is stored. -/
def Reports (first missing high : Nat) (back : List RxBlock) (block : SackBlock) : Prop :=
  ∃ left right, block = (add32 first left, add32 first right) ∧ missing < left ∧ left < right ∧
    right ≤ high ∧ ∀ place, left ≤ place → place < right → Held back place

section Reported

variable {first missing high : Nat} {back : List RxBlock} {block : SackBlock}
  {sackList : List SackBlock}

theorem Reports.lt (reports : Reports first missing high back block)
    (hspan : high < missing + 2147483648) : Lt block.1 block.2 := by
  obtain ⟨left, right, rfl, hleft, hlt, hright, -⟩ := reports
  exact (lt_add32_iff first (by omega) (by omega)).mpr hlt

theorem Reports.mono (reports : Reports first missing high back block) {others : List RxBlock}
    (hheld : ∀ place, Held back place → Held others place) :
    Reports first missing high others block := by
  obtain ⟨left, right, rfl, hleft, hlt, hright, hall⟩ := reports
  exact ⟨left, right, rfl, hleft, hlt, hright, fun place hle hlt => hheld place (hall place hle hlt)⟩

/-- Two adjacent blocks make one. -/
theorem Reports.join {other : SackBlock} (reports : Reports first missing high back block)
    (others : Reports first missing high back other) (hspan : high < missing + 2147483648)
    (hadjacent : block.2 = other.1) :
    Reports first missing high back (block.1, other.2) ∧ Lt block.1 other.2 := by
  obtain ⟨left, middle, rfl, hleft, hlt, hmiddle, hall⟩ := reports
  obtain ⟨middle', right, rfl, hleft', hlt', hright, hall'⟩ := others
  obtain rfl : middle = middle' := (add32_inj first (by omega) (by omega)).mp hadjacent
  refine ⟨⟨left, right, rfl, hleft, by omega, hright, fun place hle hlt => ?_⟩, ?_⟩
  · rcases Nat.lt_or_ge place middle with hin | hbehind
    · exact hall place hle hin
    · exact hall' place hbehind hlt
  · exact (lt_add32_iff first (by omega) (by omega)).mpr (Nat.lt_trans hlt hlt')

theorem mergeSack_reports (hspan : high < missing + 2147483648)
    (reports : Reports first missing high back block)
    (hall : ∀ other ∈ sackList, Reports first missing high back other) :
    ∃ merged, mergeSack block sackList = some merged ∧ ∀ result ∈ merged,
      Reports first missing high back result.1 ∧
        ∀ other ∈ result.2, Reports first missing high back other := by
  induction sackList with
  | nil => exact ⟨none, rfl, fun _ hmem => absurd hmem (Option.not_mem_none _)⟩
  | cons current rest ih =>
      obtain ⟨hcurrent, hrest⟩ := List.forall_mem_cons.mp hall
      rw [mergeSack]
      by_cases hleft : block.1 = current.2
      · obtain ⟨hjoin, hlt⟩ := hcurrent.join reports hspan hleft.symm
        rw [if_pos hleft, if_pos hlt]
        exact ⟨_, rfl, fun result hmem => Option.mem_some.mp hmem ▸ ⟨hjoin, hrest⟩⟩
      · rw [if_neg hleft]
        by_cases hright : block.2 = current.1
        · obtain ⟨hjoin, hlt⟩ := reports.join hcurrent hspan hright
          rw [if_pos hright, if_pos hlt]
          exact ⟨_, rfl, fun result hmem => Option.mem_some.mp hmem ▸ ⟨hjoin, hrest⟩⟩
        · rw [if_neg hright]
          obtain ⟨merged, heq, hmerged⟩ := ih hrest
          refine ⟨_, by rw [heq, Option.map_some], fun result hmem => ?_⟩
          obtain ⟨original, horiginal, rfl⟩ := Option.map_eq_some_iff.mp hmem
          obtain ⟨hfirst, hothers⟩ := hmerged original horiginal
          exact ⟨hfirst, List.forall_mem_cons.mpr ⟨hcurrent, hothers⟩⟩

theorem mergeSacks_reports (hspan : high < missing + 2147483648) (turns : Nat) :
    ∀ {block : SackBlock} {sackList : List SackBlock}, Reports first missing high back block →
      (∀ other ∈ sackList, Reports first missing high back other) →
      ∃ merged, mergeSacks turns block sackList = some merged ∧
        ∀ other ∈ merged, Reports first missing high back other := by
  induction turns with
  | zero => exact fun reports hall => ⟨_, rfl, List.forall_mem_cons.mpr ⟨reports, hall⟩⟩
  | succ turns ih =>
      intro block sackList reports hall
      obtain ⟨merged, heq, hmerged⟩ := mergeSack_reports hspan reports hall
      rw [mergeSacks, heq, Option.bind_some]
      cases merged with
      | none => exact ⟨_, rfl, List.forall_mem_cons.mpr ⟨reports, hall⟩⟩
      | some result =>
          obtain ⟨hfirst, hothers⟩ := hmerged result rfl
          exact ih hfirst hothers

theorem updateSackList_reports (hspan : high < missing + 2147483648) {head tail : Nat}
    (reports : Reports first missing high back (add32 first head, add32 first tail))
    (hmissing : missing < head) (hhead : head ≤ high)
    (hall : ∀ other ∈ sackList, Reports first missing high back other) :
    ∃ updated, updateSackList (add32 first missing) (add32 first head) (add32 first tail) sackList =
        some updated ∧ ∀ other ∈ updated, Reports first missing high back other := by
  obtain ⟨merged, heq, hmerged⟩ := mergeSacks_reports hspan sackList.length reports hall
  rw [updateSackList, if_pos ((gt_add32_iff first (by omega) (by omega)).mpr hmissing), heq]
  refine ⟨_, rfl, fun other hmem => hmerged other ?_⟩
  rw [apply_ite (other ∈ ·)] at hmem
  split at hmem
  · exact (List.dropLast_sublist _).subset hmem
  · exact hmem

/-- When the first missing place moves, the blocks that are not cleared are behind it. -/
theorem Reports.advance {missing' : Nat} {moved rest : List RxBlock}
    (reports : Reports first missing high (moved ++ rest) block)
    (hspan : high < missing + 2147483648) (contiguous : Contiguous missing moved missing')
    (hrest : ∀ other ∈ rest, missing' < other.1) (hmissing' : missing' ≤ high)
    (hclear : missing < missing' → ¬ Le block.2 (add32 first missing')) :
    Reports first missing' high rest block := by
  obtain ⟨left, right, rfl, hleft, hlt, hright, hall⟩ := reports
  have hbehind : missing' < left := by
    by_contra hge
    have hmoves : missing < missing' := by omega
    have hend : missing' < right := by
      have hnot := hclear hmoves
      rw [le_add32_iff first (by omega) (by omega)] at hnot
      omega
    obtain ⟨other, hmem, hle, hin⟩ := hall missing' (by omega) hend
    rcases List.mem_append.mp hmem with hmem | hmem
    · have hlast := contiguous.last_le hmem
      omega
    · have hafter := hrest other hmem
      omega
  refine ⟨left, right, rfl, hbehind, hlt, hright, fun place hle hin => ?_⟩
  rcases held_append.mp (hall place hle hin) with ⟨other, hmem, -, hend⟩ | hheld
  · have hlast := contiguous.last_le hmem
    omega
  · exact hheld

end Reported

/-! ## The next sequence number -/

theorem advance_before {advanced : Advanced} {front rest : List RxBlock}
    (hbefore : ∀ block ∈ front, Lt block.1 advanced.nextRxSeq) :
    advance advanced (front ++ rest) = advance advanced rest := by
  induction front with
  | nil => rfl
  | cons block front ih =>
      obtain ⟨hlt, hfront⟩ := List.forall_mem_cons.mp hbefore
      rw [List.cons_append, advance, if_pos hlt, ih hfront]

/-- The next sequence number moves over the blocks that follow each other. -/
theorem advance_contiguous (first : Nat) {stream : List UInt8} {high : Nat}
    {back : List RxBlock} : ∀ {missing availBytes : Nat} {sackList : List SackBlock},
      high < missing + 2147483648 → availBytes + (high - missing) < 4294967296 →
      Apart stream missing high back → (∀ block ∈ sackList, Lt block.1 block.2) →
      ∃ moved rest missing' sackList', back = moved ++ rest ∧ Contiguous missing moved missing' ∧
        Apart stream (missing' + 1) high rest ∧
        advance ⟨add32 first missing, availBytes, sackList⟩ (back.map (atSequence first)) =
          some ⟨add32 first missing', availBytes + (missing' - missing), sackList'⟩ ∧
        ∀ block ∈ sackList', block ∈ sackList ∧
          (missing < missing' → ¬ Le block.2 (add32 first missing')) := by
  induction back with
  | nil =>
      intro missing availBytes sackList _ _ holds _
      exact ⟨[], [], missing, sackList, rfl, rfl, Apart.nil _ _ _, by rw [Nat.sub_self]; rfl,
        fun block hmem => ⟨hmem, fun hlt => absurd hlt (Nat.lt_irrefl _)⟩⟩
  | cons block back ih =>
      intro missing availBytes sackList hspan hword holds hsacks
      have hlow := holds.low block List.mem_cons_self
      have hhigh := holds.high block List.mem_cons_self
      have hpos := holds.lt_last List.mem_cons_self
      have hlt : Lt (atSequence first block).1 (add32 first missing) ↔ block.1 < missing :=
        lt_add32_iff first (by omega) (by omega)
      have hgt : Gt (atSequence first block).1 (add32 first missing) ↔ missing < block.1 :=
        gt_add32_iff first (by omega) (by omega)
      simp only [List.map_cons, advance, hlt, hgt]
      rw [if_neg (Nat.not_lt_of_le hlow)]
      by_cases hgap : missing < block.1
      · rw [if_pos hgap]
        refine ⟨[], block :: back, missing, sackList, rfl, rfl, { holds with low := ?_ },
          by rw [Nat.sub_self]; rfl, fun block hmem => ⟨hmem, fun hlt => absurd hlt (Nat.lt_irrefl _)⟩⟩
        exact List.forall_mem_cons.mpr ⟨hgap, fun other hmem => by
          have hafter := (List.pairwise_cons.mp holds.apart).1 other hmem
          omega⟩
      · obtain rfl : block.1 = missing := by omega
        have hlast : block.last = block.1 + block.2.length := rfl
        rw [if_neg hgap, clearSackList, if_pos hsacks, Option.bind_some, atSequence_last,
          show add32 availBytes (atSequence first block).2.length = availBytes + block.2.length from
            Nat.mod_eq_of_lt (by show availBytes + block.2.length < _; omega)]
        obtain ⟨moved, rest, missing', sackList', rfl, hmoved, hrest, heq, hsack⟩ :=
          @ih block.last (availBytes + block.2.length)
            (sackList.filter fun reported => ¬ Le reported.2 (add32 first block.last)) (by omega)
            (by omega) holds.tail fun reported hmem => hsacks reported (List.mem_filter.mp hmem).1
        have hsum := hmoved.totalSize_eq
        refine ⟨block :: moved, rest, missing', sackList', rfl, ⟨rfl, hmoved⟩, hrest, ?_,
          fun reported hmem => ?_⟩
        · rw [heq]
          congr 2
          omega
        · obtain ⟨hmem, hclear⟩ := hsack reported hmem
          obtain ⟨hin, hnot⟩ := List.mem_filter.mp hmem
          refine ⟨hin, fun _ => ?_⟩
          rcases Nat.lt_or_ge block.last missing' with hfurther | hsame
          · exact hclear hfurther
          · obtain rfl : missing' = block.last := by omega
            exact of_decide_eq_true hnot

/-! ## Extracting -/

/-- The first bytes of blocks that follow each other. -/
theorem takeBlocks_contiguous (first : Nat) {stream : List UInt8} {next missing high : Nat}
    {back : List RxBlock} (hnext : missing ≤ next)
    (hback : ∀ block ∈ back, missing < block.1 ∧ block.1 ≤ high)
    {front : List RxBlock} : ∀ {low extractSize : Nat}, next < low + 2147483648 →
      high < low + 2147483648 →
      Contiguous low front missing → Apart stream low missing front →
      low + extractSize ≤ missing →
      ∃ left, takeBlocks (add32 first next) extractSize ((front ++ back).map (atSequence first)) =
          some ((stream.drop low).take extractSize, (left ++ back).map (atSequence first)) ∧
        Contiguous (low + extractSize) left missing ∧
        Apart stream (low + extractSize) missing left := by
  induction front with
  | nil =>
      intro low extractSize _ _ contiguous _ hle
      obtain rfl : low = missing := contiguous
      obtain rfl : extractSize = 0 := by omega
      exact ⟨[], by rw [takeBlocks, List.take_zero], rfl, Apart.nil _ _ _⟩
  | cons block front ih =>
      intro low extractSize hspan hwide contiguous holds hle
      obtain ⟨rfl, hfront⟩ := contiguous
      cases extractSize with
      | zero =>
          exact ⟨block :: front, by rw [takeBlocks, List.take_zero], ⟨rfl, hfront⟩, holds⟩
      | succ extractSize =>
          have hpos := holds.lt_last List.mem_cons_self
          have hlast : block.last = block.1 + block.2.length := rfl
          have hend := holds.high block List.mem_cons_self
          have hslice := holds.slices block List.mem_cons_self
          have hgt : Gt (atSequence first block).1 (add32 first next) ↔ next < block.1 :=
            gt_add32_iff first (by omega) (by omega)
          simp only [List.cons_append, List.map_cons, takeBlocks, hgt]
          rw [if_neg (by omega)]
          by_cases hwhole : (atSequence first block).2.length ≤ extractSize + 1
          · have hlength : block.2.length ≤ extractSize + 1 := hwhole
            obtain ⟨left, heq, hleft, happart⟩ :=
              @ih block.last (extractSize + 1 - block.2.length) (by omega) (by omega) hfront holds.tail
                (by omega)
            have hplace : block.last + (extractSize + 1 - block.2.length) =
                block.1 + (extractSize + 1) := by omega
            rw [hplace] at hleft happart
            refine ⟨left, ?_, hleft, happart⟩
            rw [if_pos hwhole]
            have hbytes : (stream.drop block.1).take (extractSize + 1) =
                block.2 ++ (stream.drop block.last).take (extractSize + 1 - block.2.length) := by
              rw [hlast, ← hslice.take_add, Nat.add_sub_cancel' hlength]
            rw [hbytes]
            exact (congrArg _ heq).trans rfl
          · have hlength : extractSize + 1 < block.2.length := Nat.lt_of_not_le hwhole
            have hcut : RxBlock.last (block.1 + (extractSize + 1), block.2.drop (extractSize + 1)) =
                block.last := by
              rw [RxBlock.last, List.length_drop]
              omega
            refine ⟨(block.1 + (extractSize + 1), block.2.drop (extractSize + 1)) :: front, ?_,
              ⟨rfl, hcut.symm ▸ hfront⟩, ?_⟩
            · have hbytes : block.2.take (extractSize + 1) =
                  (stream.drop block.1).take (extractSize + 1) := by
                conv_lhs => rw [hslice.eq_take]
                rw [List.take_take, Nat.min_eq_left (Nat.le_of_lt hlength)]
              rw [if_neg hwhole, ← hbytes]
              congr 2
              refine (insertBlock_front fun other hmem => ?_).trans ?_
              · obtain ⟨original, horiginal, rfl⟩ := List.mem_map.mp (List.mem_of_mem_head? hmem)
                have hplace : block.last ≤ original.1 ∧ original.1 < block.1 + 2147483648 := by
                  rcases List.mem_append.mp horiginal with hin | hin
                  · have hhigh := holds.high original (List.mem_cons_of_mem _ hin)
                    have hafter := (List.pairwise_cons.mp holds.apart).1 original hin
                    have hlong : original.1 ≤ original.last := Nat.le_add_right _ _
                    omega
                  · have hafter := hback original hin
                    omega
                rw [show add32 (atSequence first block).1 (extractSize + 1) =
                  add32 first (block.1 + (extractSize + 1)) from add32_add32 _ _ _]
                exact (lt_add32_iff first (by omega) (by omega)).mpr (by omega)
              · rw [show add32 (atSequence first block).1 (extractSize + 1) =
                  add32 first (block.1 + (extractSize + 1)) from add32_add32 _ _ _]
                rfl
            · refine Apart.cons (hcut.symm ▸ holds.tail) ?_
                (hslice.drop (Nat.le_of_lt hlength)) (Nat.le_refl _) (hcut.symm ▸ hend)
              exact List.ne_nil_of_length_pos (by rw [List.length_drop]; omega)

end DeepcV2x.Tcp
