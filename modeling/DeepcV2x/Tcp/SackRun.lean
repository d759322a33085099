import DeepcV2x.Tcp.RxRun
import DeepcV2x.Tcp.SackList

/-!
# Reported blocks over runs

After every run of additions and extractions the reported blocks are stored,
apart, and led by the one that was stored last, as long as no segment removes
a stored block that is reported.
-/

namespace DeepcV2x.Tcp

open SequenceNumber32 Foundation.Slices Foundation.Runs

/-! ## Blocks of any bytes -/

namespace Apart

variable {stream : List UInt8} {low middle high : Nat} {block : RxBlock}
  {front back blocks : List RxBlock}

/-- Blocks up to a place, and blocks from it on. -/
theorem join (before : Apart stream low middle front) (behind : Apart stream middle high back)
    (hlow : low ≤ middle) (hhigh : middle ≤ high) : Apart stream low high (front ++ back) where
  apart := List.pairwise_append.mpr ⟨before.apart, behind.apart, fun block hmem other hother =>
    Nat.le_trans (before.high block hmem) (behind.low other hother)⟩
  nonEmpty := List.forall_mem_append.mpr ⟨before.nonEmpty, behind.nonEmpty⟩
  slices := List.forall_mem_append.mpr ⟨before.slices, behind.slices⟩
  low := List.forall_mem_append.mpr ⟨before.low, fun block hmem =>
    Nat.le_trans hlow (behind.low block hmem)⟩
  high := List.forall_mem_append.mpr ⟨fun block hmem =>
    Nat.le_trans (before.high block hmem) hhigh, behind.high⟩

/-- Some stream has the bytes of blocks, and any bytes where none of them is. -/
theorem respliced (holds : Apart stream low high blocks) (block : RxBlock)
    (hfree : ∀ other ∈ blocks, other.last ≤ block.1 ∨ block.last ≤ other.1) :
    ∃ other, Apart other low high blocks ∧ IsSlice other block.1 block.2 := by
  have hinside : block.1 + block.2.length ≤
      (stream ++ List.replicate (block.1 + block.2.length) 0).length := by
    rw [List.length_append, List.length_replicate]
    omega
  exact ⟨splice (stream ++ List.replicate (block.1 + block.2.length) 0) block.1 block.2,
    { holds with
      slices := fun other hmem =>
        ((holds.slices other hmem).append _).splice hinside (hfree other hmem) },
    IsSlice.of_splice hinside⟩

end Apart

namespace TcpRxBuffer

/-! ## Distances from the next sequence number -/

/-- How far a sequence number is above the next one. -/
def above (rx : TcpRxBuffer) (seq : Nat) : Nat := sub32 seq rx.nextRxSeq

/-- The same, with less than half a turn below it. -/
def offset (rx : TcpRxBuffer) (seq : Nat) : Int :=
  if rx.above seq < 2147483648 then (rx.above seq : Int) else (rx.above seq : Int) - 4294967296

/-- The byte with a sequence number is stored. -/
def Stores (rx : TcpRxBuffer) (seq : Nat) : Prop :=
  ∃ block ∈ rx.data, sub32 seq block.1 < block.2.length

instance (rx : TcpRxBuffer) (seq : Nat) : Decidable (rx.Stores seq) :=
  inferInstanceAs (Decidable (∃ block ∈ rx.data, _))

/-- The sequence numbers of what `Add` stores behind a gap. -/
def storedBehindGap (rx : TcpRxBuffer) (p : List UInt8) (sequenceNumber : Nat) : Option SackBlock :=
  let window := rx.trimWindow sequenceNumber (add32 sequenceNumber p.length)
  let trimmed := trimOverlap window.1 window.2 rx.size rx.data
  if Ge trimmed.headSeq trimmed.tailSeq then none
  else if Gt trimmed.headSeq rx.nextRxSeq then some (trimmed.headSeq, trimmed.tailSeq)
  else none

/-! ## The condition -/

/-- The sequence numbers that are compared with those of a segment are within half a turn. -/
structure Near (rx : TcpRxBuffer) (p : List UInt8) (sequenceNumber : Nat) : Prop where
  word : sequenceNumber < 4294967296
  start : -2147483648 < rx.offset sequenceNumber
  last : rx.offset sequenceNumber + p.length + rx.availBytes < 2147483648
  limit : ∀ block ∈ rx.data.head?,
    rx.offset block.1 + rx.maxBuffer < rx.offset sequenceNumber + p.length + 2147483648

instance (rx : TcpRxBuffer) (p : List UInt8) (sequenceNumber : Nat) :
    Decidable (rx.Near p sequenceNumber) :=
  decidable_of_iff
    (sequenceNumber < 4294967296 ∧ -2147483648 < rx.offset sequenceNumber ∧
      rx.offset sequenceNumber + p.length + rx.availBytes < 2147483648 ∧
      ∀ block ∈ rx.data.head?,
        rx.offset block.1 + rx.maxBuffer < rx.offset sequenceNumber + p.length + 2147483648)
    ⟨fun near => ⟨near.1, near.2.1, near.2.2.1, near.2.2.2⟩,
      fun near => ⟨near.1, near.2, near.3, near.4⟩⟩

/-- A segment reaches behind a stored block, also within the window, and a byte of the segment before
the block is missing. -/
def Removes (rx : TcpRxBuffer) (p : List UInt8) (sequenceNumber : Nat) (block : RxBlock) : Prop :=
  rx.offset block.1 + block.2.length < rx.offset sequenceNumber + p.length ∧
    (∀ other ∈ rx.data.head?,
      rx.offset block.1 + block.2.length < rx.offset other.1 + rx.maxBuffer) ∧
    ∃ distance < rx.above block.1, rx.above sequenceNumber ≤ distance ∧
      ¬ rx.Stores (add32 rx.nextRxSeq distance)

instance (rx : TcpRxBuffer) (p : List UInt8) (sequenceNumber : Nat) (block : RxBlock) :
    Decidable (rx.Removes p sequenceNumber block) :=
  inferInstanceAs (Decidable (_ ∧ _))

/-- The stored block has bytes of the reported one. -/
def Overlaps (rx : TcpRxBuffer) (reported : SackBlock) (block : RxBlock) : Prop :=
  rx.above reported.1 < rx.above block.1 + block.2.length ∧ rx.above block.1 < rx.above reported.2

instance (rx : TcpRxBuffer) (reported : SackBlock) (block : RxBlock) :
    Decidable (rx.Overlaps reported block) :=
  inferInstanceAs (Decidable (_ ∧ _))

end TcpRxBuffer

/-! ## Runs -/

inductive SackEvent
  | add (p : List UInt8) (sequenceNumber : Nat)
  | extract (maxSize : Nat)
  deriving DecidableEq, Repr

/-- The buffer, and what the last `Add` stored behind a gap. -/
structure Sacking where
  buffer : TcpRxBuffer
  lastStored : Option SackBlock := none
  deriving DecidableEq, Repr

namespace Sacking

def step (sacking : Sacking) : SackEvent → Option Sacking
  | .add p sequenceNumber =>
      (sacking.buffer.add p sequenceNumber).map fun result =>
        { buffer := result.1, lastStored := sacking.buffer.storedBehindGap p sequenceNumber }
  | .extract maxSize =>
      (sacking.buffer.extract maxSize).map fun result => { sacking with buffer := result.1 }

/-- An empty buffer that expects a sequence number. -/
def create (first maxBuffer : Nat) : Sacking where
  buffer := { nextRxSeq := first, maxBuffer := maxBuffer }

/-- What the reported blocks are. -/
structure Sound (sacking : Sacking) : Prop where
  few : sacking.buffer.sackList.length ≤ 4
  above : ∀ block ∈ sacking.buffer.sackList, Gt block.1 sacking.buffer.nextRxSeq ∧
    sacking.buffer.above block.1 < sacking.buffer.above block.2
  stored : ∀ block ∈ sacking.buffer.sackList, ∀ distance,
    sacking.buffer.above block.1 ≤ distance → distance < sacking.buffer.above block.2 →
      sacking.buffer.Stores (add32 sacking.buffer.nextRxSeq distance)
  apart : sacking.buffer.sackList.Pairwise fun block other =>
    sacking.buffer.above block.2 < sacking.buffer.above other.1 ∨
      sacking.buffer.above other.2 < sacking.buffer.above block.1
  first : ∀ stored ∈ sacking.lastStored, ∃ block ∈ sacking.buffer.sackList.head?,
    sacking.buffer.above block.1 ≤ sacking.buffer.above stored.1 ∧
      sacking.buffer.above stored.2 ≤ sacking.buffer.above block.2

/-- Sequence numbers are within half a turn, and a segment behind a gap removes no stored block that
is reported. -/
def Keeps (sacking : Sacking) : SackEvent → Prop
  | .add p sequenceNumber =>
      sacking.buffer.Near p sequenceNumber ∧
        (0 < sacking.buffer.offset sequenceNumber →
          ∀ reported ∈ sacking.buffer.sackList, ∀ block ∈ sacking.buffer.data,
            sacking.buffer.Overlaps reported block →
              ¬ sacking.buffer.Removes p sequenceNumber block)
  | .extract _ => True

instance (sacking : Sacking) : ∀ event, Decidable (sacking.Keeps event)
  | .add p sequenceNumber => inferInstanceAs (Decidable (sacking.buffer.Near p sequenceNumber ∧
      (0 < sacking.buffer.offset sequenceNumber →
        ∀ reported ∈ sacking.buffer.sackList, ∀ block ∈ sacking.buffer.data,
          sacking.buffer.Overlaps reported block →
            ¬ sacking.buffer.Removes p sequenceNumber block)))
  | .extract _ => .isTrue trivial

/-! ## What runs keep -/

/-- The blocks and the reported ranges at their places: `low` is the first place that is not
extracted, `missing` the first one that was not received, and all are less than half a turn apart. -/
structure Holding (first low missing high : Nat) (sacking : Sacking) (front back : List RxBlock)
    (ranges : List Range) : Prop where
  gotFin : sacking.buffer.gotFin = false
  span : high = low + 2147483647
  data : sacking.buffer.data = (front ++ back).map (atSequence first)
  blocks : ∃ stream, Apart stream low high (front ++ back)
  contiguous : Contiguous low front missing
  behind : ∀ block ∈ back, missing < block.1
  far : 4294967296 ≤ missing
  reach : missing ≤ high
  nextRxSeq : sacking.buffer.nextRxSeq = add32 first missing
  availBytes : low + sacking.buffer.availBytes = missing
  sackList : sacking.buffer.sackList = ranges.map (toSack first)
  between : ∀ range ∈ ranges, range.Between missing high
  held : ∀ range ∈ ranges, ∀ place, range.1 ≤ place → place < range.2 → Held back place
  clear : ranges.Pairwise Range.Clear
  few : ranges.length ≤ 4
  lastStored : ∀ stored ∈ sacking.lastStored, ∃ range : Range, stored = toSack first range ∧
    range.Between missing high ∧
    ∃ leading ∈ ranges.head?, leading.1 ≤ range.1 ∧ range.2 ≤ leading.2

variable {first low missing high : Nat} {sacking : Sacking} {front back : List RxBlock}
  {ranges : List Range}

namespace Holding

theorem above_add32 (holding : sacking.Holding first low missing high front back ranges) {place : Nat}
    (hlow : missing ≤ place) (hhigh : place < missing + 4294967296) :
    sacking.buffer.above (add32 first place) = place - missing := by
  rw [TcpRxBuffer.above, holding.nextRxSeq]
  exact sub32_add32 first hlow hhigh

theorem offset_add32 (holding : sacking.Holding first low missing high front back ranges) {place : Nat}
    (hlow : missing ≤ place + 2147483648) (hhigh : place < missing + 2147483648) :
    sacking.buffer.offset (add32 first place) = (place : Int) - missing := by
  rw [TcpRxBuffer.offset, TcpRxBuffer.above, holding.nextRxSeq, sub32, add32, add32]
  split <;> omega

/-- The blocks behind the first missing place are apart. -/
theorem apart_back (holding : sacking.Holding first low missing high front back ranges) :
    ∃ stream, Apart stream (missing + 1) high back := by
  obtain ⟨stream, holds⟩ := holding.blocks
  exact ⟨stream, { holds.sublist (List.sublist_append_right front back) with low := holding.behind }⟩

theorem stores_iff (holding : sacking.Holding first low missing high front back ranges) {place : Nat}
    (hlow : missing < place) (hhigh : place ≤ high) :
    sacking.buffer.Stores (add32 first place) ↔ Held back place := by
  obtain ⟨stream, holds⟩ := holding.blocks
  have hin : ∀ block ∈ front ++ back,
      sub32 (add32 first place) (atSequence first block).1 < (atSequence first block).2.length ↔
        block.1 ≤ place ∧ place < block.last := by
    intro block hmem
    have hblock := holds.low block hmem
    have hend := holds.high block hmem
    have hpos := holds.lt_last hmem
    have hsize : block.last = block.1 + block.2.length := rfl
    have hspan := holding.span
    have havail := holding.availBytes
    show sub32 (add32 first place) (add32 first block.1) < block.2.length ↔ _
    rw [sub32, add32, add32]
    omega
  have hfront : ∀ block ∈ front, block.last ≤ missing := fun _ hmem =>
    holding.contiguous.last_le hmem
  rw [TcpRxBuffer.Stores, holding.data]
  constructor
  · rintro ⟨stored, hstored, hless⟩
    obtain ⟨block, hmem, rfl⟩ := List.mem_map.mp hstored
    obtain ⟨hle, hlt⟩ := (hin block hmem).mp hless
    rcases List.mem_append.mp hmem with hmem | hmem
    · have := hfront block hmem
      omega
    · exact ⟨block, hmem, hle, hlt⟩
  · rintro ⟨block, hmem, hplace⟩
    have hmem := List.mem_append_right front hmem
    exact ⟨atSequence first block, List.mem_map_of_mem hmem, (hin block hmem).mpr hplace⟩

/-- The invariant says what the claim says. -/
theorem sound (holding : sacking.Holding first low missing high front back ranges) : sacking.Sound := by
  have habove : ∀ {range : Range}, range.Between missing high →
      sacking.buffer.above (toSack first range).1 = range.1 - missing ∧
        sacking.buffer.above (toSack first range).2 = range.2 - missing := by
    rintro range ⟨hlow, hlt, hhigh⟩
    have := holding.span
    have := holding.availBytes
    exact ⟨holding.above_add32 (by omega) (by omega), holding.above_add32 (by omega) (by omega)⟩
  have hspan := holding.span
  have havail := holding.availBytes
  constructor
  · rw [holding.sackList, List.length_map]
    exact holding.few
  · rw [holding.sackList]
    intro block hmem
    obtain ⟨range, hrange, rfl⟩ := List.mem_map.mp hmem
    have hbetween := holding.between range hrange
    obtain ⟨hfirst, hlast⟩ := habove hbetween
    obtain ⟨hlow, hlt, hhigh⟩ := hbetween
    rw [hfirst, hlast, holding.nextRxSeq]
    exact ⟨(gt_add32_iff first (by omega) (by omega)).mpr hlow, by omega⟩
  · rw [holding.sackList]
    intro block hmem distance hle hless
    obtain ⟨range, hrange, rfl⟩ := List.mem_map.mp hmem
    have hbetween := holding.between range hrange
    obtain ⟨hfirst, hlast⟩ := habove hbetween
    obtain ⟨hlow, hlt, hhigh⟩ := hbetween
    rw [hfirst] at hle
    rw [hlast] at hless
    rw [holding.nextRxSeq, add32_add32]
    exact (holding.stores_iff (by omega) (by omega)).mpr
      (holding.held range hrange _ (by omega) (by omega))
  · rw [holding.sackList]
    refine List.pairwise_map.mpr (holding.clear.imp_of_mem ?_)
    intro range other hrange hother hclear
    obtain ⟨hfirst, hlast⟩ := habove (holding.between range hrange)
    obtain ⟨hfirst', hlast'⟩ := habove (holding.between other hother)
    obtain ⟨hlow, hlt, -⟩ := holding.between range hrange
    obtain ⟨hlow', hlt', -⟩ := holding.between other hother
    rw [hfirst, hlast, hfirst', hlast']
    rw [Range.Clear] at hclear
    omega
  · intro stored hstored
    obtain ⟨range, rfl, hbetween, leading, hleading, hgrown⟩ := holding.lastStored stored hstored
    have hmem := List.mem_of_mem_head? hleading
    obtain ⟨hfirst, hlast⟩ := habove hbetween
    obtain ⟨hfirst', hlast'⟩ := habove (holding.between leading hmem)
    obtain ⟨hlow, hlt, -⟩ := holding.between leading hmem
    refine ⟨toSack first leading, ?_, ?_⟩
    · rw [holding.sackList, List.head?_map, Option.mem_def.mp hleading]
      rfl
    · rw [hfirst, hlast, hfirst', hlast']
      omega

/-- The blocks up to the first missing place. -/
theorem apart_front (holding : sacking.Holding first low missing high front back ranges)
    {stream : List UInt8} (holds : Apart stream low high (front ++ back)) :
    Apart stream low missing front :=
  { holds.sublist (List.sublist_append_left front back) with
    high := fun _ hmem => holding.contiguous.last_le hmem }

/-! ## An extraction -/

theorem extract (holding : sacking.Holding first low missing high front back ranges) (maxSize : Nat) :
    ∃ next low' high' front', sacking.step (.extract maxSize) = some next ∧
      next.Holding first low' missing high' front' back ranges := by
  have hspan := holding.span
  have hreach := holding.reach
  have havail := holding.availBytes
  by_cases hnone : min maxSize sacking.buffer.availBytes = 0
  · refine ⟨sacking, low, high, front, ?_, holding⟩
    rw [step, TcpRxBuffer.extract, if_pos hnone]
    rfl
  · obtain ⟨stream, holds⟩ := holding.blocks
    generalize hsize : min maxSize sacking.buffer.availBytes = size at hnone
    have hle : size ≤ sacking.buffer.availBytes := hsize ▸ Nat.min_le_right _ _
    have hback : ∀ block ∈ back, missing < block.1 ∧ block.1 ≤ high := fun block hmem =>
      ⟨holding.behind block hmem, Nat.le_trans (Nat.le_add_right _ _)
        (holds.high block (List.mem_append_right front hmem))⟩
    obtain ⟨left, htake, hleft, hapart⟩ := @takeBlocks_contiguous first stream missing missing
      high back (Nat.le_refl _) hback front low size (by omega) (by omega)
      holding.contiguous (holding.apart_front holds) (by omega)
    obtain ⟨remaining, hremaining⟩ : ∃ remaining, remaining = sub32 sacking.buffer.size size :=
      ⟨_, rfl⟩
    have hall : sacking.buffer.extract maxSize = some ({ sacking.buffer with
        data := (left ++ back).map (atSequence first)
        size := remaining
        availBytes := sacking.buffer.availBytes - size }, some ((stream.drop low).take size)) := by
      rw [← holding.data, ← holding.nextRxSeq] at htake
      rw [TcpRxBuffer.extract, hsize, if_neg hnone, htake, Option.map_some,
        sub32_eq hle (by omega), hremaining]
    refine ⟨_, low + size, high + size, left, by rw [step, hall]; rfl, ?_⟩
    have hbehind : Apart stream missing high back :=
      { holds.sublist (List.sublist_append_right front back) with
        low := fun block hmem => Nat.le_of_lt (holding.behind block hmem) }
    exact
      { gotFin := holding.gotFin
        span := by omega
        data := rfl
        blocks := ⟨stream, (hapart.join hbehind (by omega) (by omega)).weaken (Nat.le_refl _)
          (by omega)⟩
        contiguous := hleft
        behind := holding.behind
        far := holding.far
        reach := by omega
        nextRxSeq := holding.nextRxSeq
        availBytes := by
          show low + size + (sacking.buffer.availBytes - size) = missing
          omega
        sackList := holding.sackList
        between := fun range hrange =>
          { holding.between range hrange with
            high := Nat.le_trans (holding.between range hrange).high (by omega) }
        held := holding.held
        clear := holding.clear
        few := holding.few
        lastStored := fun stored hstored => by
          obtain ⟨range, heq, hbetween, hleading⟩ := holding.lastStored stored hstored
          exact ⟨range, heq, { hbetween with high := Nat.le_trans hbetween.high (by omega) },
            hleading⟩ }

/-! ## A segment -/

/-- Trimmed to the window, a segment is empty, or begins behind the received bytes. -/
theorem trimWindow (holding : sacking.Holding first low missing high front back ranges)
    {start last : Nat} (hstart : missing < start + 2147483648) (hle : start ≤ last)
    (hlast : last < low + 2147483648) (hlimit : ∀ block ∈ (front ++ back).head?,
      block.1 + sacking.buffer.maxBuffer < last + 2147483648) :
    (∃ place, sacking.buffer.trimWindow (add32 first start) (add32 first last) =
      (add32 first place, add32 first place)) ∨
    (sacking.buffer.data = [] ∧ last ≤ max start missing ∧
      sacking.buffer.trimWindow (add32 first start) (add32 first last) =
        (add32 first (max start missing), add32 first last)) ∨
    ∃ tail, max start missing < tail ∧ tail ≤ last ∧
      (∀ block ∈ (front ++ back).head?, tail ≤ block.1 + sacking.buffer.maxBuffer) ∧
      sacking.buffer.trimWindow (add32 first start) (add32 first last) =
        (add32 first (max start missing), add32 first tail) := by
  have hspan := holding.span
  have hreach := holding.reach
  have havail := holding.availBytes
  obtain ⟨stream, holds⟩ := holding.blocks
  have hhead : (if Lt (add32 first start) sacking.buffer.nextRxSeq then sacking.buffer.nextRxSeq
      else add32 first start) = add32 first (max start missing) := by
    have hlt : Lt (add32 first start) (add32 first missing) ↔ start < missing :=
      lt_add32_iff first (by omega) (by omega)
    rw [holding.nextRxSeq]
    by_cases hold : start < missing
    · rw [if_pos (hlt.mpr hold), Nat.max_eq_right (Nat.le_of_lt hold)]
    · rw [if_neg fun h => hold (hlt.mp h), Nat.max_eq_left (Nat.le_of_not_lt hold)]
  rw [TcpRxBuffer.trimWindow, hhead]
  cases hblocks : front ++ back with
  | nil =>
      have hdata : sacking.buffer.data = [] := by rw [holding.data, hblocks, List.map_nil]
      rw [hdata]
      rcases Nat.lt_or_ge (max start missing) last with hlt | hge
      · refine .inr (.inr ⟨last, hlt, Nat.le_refl _, fun block hblock => ?_, rfl⟩)
        cases hblock
      · exact .inr (.inl ⟨rfl, hge, rfl⟩)
  | cons block blocks =>
      have hdata : sacking.buffer.data =
          (add32 first block.1, block.2) :: blocks.map (atSequence first) := by
        rw [holding.data, hblocks, List.map_cons, atSequence]
      have hmem : block ∈ front ++ back := hblocks ▸ List.mem_cons_self
      have hnear := hlimit block (by rw [hblocks]; rfl)
      have hlow := holds.low block hmem
      rw [hdata]
      have hmax : (if Lt (add32 (add32 first block.1) sacking.buffer.maxBuffer) (add32 first last)
            then add32 (add32 first block.1) sacking.buffer.maxBuffer else add32 first last) =
          add32 first (min (block.1 + sacking.buffer.maxBuffer) last) := by
        have hlt : Lt (add32 first (block.1 + sacking.buffer.maxBuffer)) (add32 first last) ↔
            block.1 + sacking.buffer.maxBuffer < last :=
          lt_add32_iff first (by omega) (by omega)
        rw [add32_add32]
        by_cases hbeyond : block.1 + sacking.buffer.maxBuffer < last
        · rw [if_pos (hlt.mpr hbeyond), Nat.min_eq_left (Nat.le_of_lt hbeyond)]
        · rw [if_neg fun h => hbeyond (hlt.mp h), Nat.min_eq_right (Nat.le_of_not_lt hbeyond)]
      have htail : Lt (add32 first (min (block.1 + sacking.buffer.maxBuffer) last))
          (add32 first (max start missing)) ↔
          min (block.1 + sacking.buffer.maxBuffer) last < max start missing :=
        lt_add32_iff first (by omega) (by omega)
      simp only [hmax]
      rcases Nat.lt_or_ge (max start missing) (min (block.1 + sacking.buffer.maxBuffer) last) with
        hlt | hge
      · refine .inr (.inr ⟨_, hlt, Nat.min_le_right _ _, fun other hother => ?_, ?_⟩)
        · obtain rfl := Option.some.inj hother
          exact Nat.min_le_left _ _
        · rw [if_neg fun h => absurd (htail.mp h) (by omega)]
      · refine .inl ⟨min (block.1 + sacking.buffer.maxBuffer) last, ?_⟩
        rcases Nat.lt_or_ge (min (block.1 + sacking.buffer.maxBuffer) last)
          (max start missing) with hlt | hle
        · rw [if_pos (htail.mpr hlt)]
        · rw [if_neg fun h => absurd (htail.mp h) (by omega), Nat.le_antisymm hge hle]

end Holding

/-! ## Storing a segment -/

theorem advance_sublist (data : List RxBlock) : ∀ {advanced result : Advanced},
    advance advanced data = some result → result.sackList.Sublist advanced.sackList := by
  induction data with
  | nil =>
      rintro advanced result ⟨⟩
      exact List.Sublist.refl _
  | cons block rest ih =>
      intro advanced result heq
      rw [advance] at heq
      split at heq
      next => exact ih heq
      next =>
        split at heq
        next =>
          obtain rfl := Option.some.inj heq
          exact List.Sublist.refl _
        next =>
          obtain ⟨sackList, hclear, hrest⟩ := Option.bind_eq_some_iff.mp heq
          rw [clearSackList] at hclear
          split at hclear
          next =>
            obtain rfl := Option.some.inj hclear
            exact (ih hrest).trans List.filter_sublist
          next => cases hclear

/-- What is received and reported after a segment is among the blocks: all up to `missing'`, and the
blocks and ranges behind it. -/
structure Reaches (first missing high : Nat) (inserted : List RxBlock) (stored : Option Range)
    (missing' : Nat) (rest : List RxBlock) (ranges : List Range) : Prop where
  blocks : ∃ moved, inserted = moved ++ rest ∧ Contiguous missing moved missing'
  behind : ∀ block ∈ rest, missing' < block.1
  between : ∀ range ∈ ranges, range.Between missing' high
  held : ∀ range ∈ ranges, ∀ place, range.1 ≤ place → place < range.2 → Held rest place
  clear : ranges.Pairwise Range.Clear
  few : ranges.length ≤ 4
  stored : ∀ range ∈ stored, range.Between missing' high ∧
    ∃ leading ∈ ranges.head?, leading.1 ≤ range.1 ∧ range.2 ≤ leading.2

section Store

variable {stream : List UInt8} {kept inserted : List RxBlock} {head tail : Nat}

/-- A segment behind a gap leads the reported ranges. -/
theorem Holding.store_behind (holding : sacking.Holding first low missing high front back ranges)
    (happart : Apart stream missing high inserted)
    (hheld : ∀ place, Held back place → Held inserted place)
    (hnew : ∀ place, head ≤ place → place < tail → Held inserted place)
    (hbehind : ∀ block ∈ inserted, missing < block.1) (hgap : missing < head) (hlt : head < tail)
    (hhigh : tail ≤ high) (hbeside : ∀ range ∈ ranges, Range.Beside (head, tail) range) :
    ∃ ranges', (updateSackList (add32 first missing) (add32 first head) (add32 first tail)
        (ranges.map (toSack first))).bind (fun sackList =>
          advance ⟨add32 first missing, sacking.buffer.availBytes, sackList⟩
            (inserted.map (atSequence first))) =
        some ⟨add32 first missing, sacking.buffer.availBytes, ranges'.map (toSack first)⟩ ∧
      Reaches first missing high inserted (some (head, tail)) missing inserted ranges' := by
  have hspan := holding.span
  have havail := holding.availBytes
  have hrange : Range.Between (head, tail) missing high := ⟨hgap, hlt, hhigh⟩
  obtain ⟨merged, rest, hupdate, merges, hlength⟩ := @updateSackList_ranges first missing high
    (head, tail) ranges (by omega) hrange holding.between holding.clear hbeside holding.few
  have hall : ∀ range ∈ merged :: rest, range.Between missing high :=
    List.forall_mem_cons.mpr ⟨merges.between, fun range hmem =>
      holding.between range (merges.sublist.subset hmem)⟩
  refine ⟨merged :: rest, ?_, ⟨⟨[], rfl, rfl⟩, hbehind, hall, ?_, merges.clear, hlength, ?_⟩⟩
  · rw [hupdate, Option.bind_some]
    cases inserted with
    | nil => rfl
    | cons block inserted =>
        have hlow := hbehind block List.mem_cons_self
        have hend := happart.high block List.mem_cons_self
        have hpos := happart.lt_last List.mem_cons_self
        have hgt : Gt (atSequence first block).1 (add32 first missing) :=
          (gt_add32_iff first (by omega) (by omega)).mpr hlow
        have hnot : ¬ Lt (atSequence first block).1 (add32 first missing) := fun hlt => hlt.1 hgt
        show advance _ (atSequence first block :: inserted.map (atSequence first)) = _
        rw [advance, if_neg hnot, if_pos hgt]
  · refine List.forall_mem_cons.mpr ⟨fun place hle hless => ?_, fun range hmem place hle hless => ?_⟩
    · rcases merges.covered place hle hless with ⟨hfrom, hto⟩ | ⟨other, hmem, hfrom, hto⟩
      · exact hnew place hfrom hto
      · exact hheld place (holding.held other hmem place hfrom hto)
    · exact hheld place (holding.held range (merges.sublist.subset hmem) place hle hless)
  · rintro range ⟨⟩
    exact ⟨hrange, merged, rfl, merges.grown⟩

/-- A segment at the first missing place leaves the ranges that are not received up to their end. -/
theorem Holding.store_next (holding : sacking.Holding first low missing high front back ranges)
    (happart : Apart stream missing high inserted)
    (hheld : ∀ place, Held back place → Held inserted place) :
    ∃ missing' rest ranges', advance ⟨add32 first missing, sacking.buffer.availBytes,
        ranges.map (toSack first)⟩ (inserted.map (atSequence first)) =
        some ⟨add32 first missing', sacking.buffer.availBytes + (missing' - missing),
          ranges'.map (toSack first)⟩ ∧
      Reaches first missing high inserted none missing' rest ranges' := by
  have hspan := holding.span
  have hreach := holding.reach
  have havail := holding.availBytes
  have hsacks : ∀ block ∈ ranges.map (toSack first), Lt block.1 block.2 := by
    intro block hmem
    obtain ⟨range, hrange, rfl⟩ := List.mem_map.mp hmem
    obtain ⟨hlow, hlt, hhigh⟩ := holding.between range hrange
    exact (lt_add32_iff first (by omega) (by omega)).mpr hlt
  obtain ⟨moved, rest, missing', sackList', hinserted, hmoved, hrest, hadvance, hclear⟩ :=
    @advance_contiguous first stream high inserted missing sacking.buffer.availBytes
      (ranges.map (toSack first)) (by omega) (by omega) happart hsacks
  have hsublist : sackList'.Sublist (ranges.map (toSack first)) := advance_sublist _ hadvance
  obtain ⟨ranges', hsub, rfl⟩ := List.sublist_map_iff.mp hsublist
  have hmoves := hmoved.totalSize_eq
  have hbehind : ∀ range ∈ ranges', missing' < range.1 ∧
      ∀ place, range.1 ≤ place → place < range.2 → Held rest place := by
    intro range hmem
    obtain ⟨hlow, hlt, hhigh⟩ := holding.between range (hsub.subset hmem)
    have hreports : Reports first missing high (moved ++ rest) (toSack first range) :=
      ⟨range.1, range.2, rfl, hlow, hlt, hhigh, fun place hle hless =>
        hinserted ▸ hheld place (holding.held range (hsub.subset hmem) place hle hless)⟩
    have hends : missing' ≤ high := hmoved.le_of_forall (by omega) fun block hblock =>
      happart.high block (hinserted ▸ List.mem_append_left rest hblock)
    obtain ⟨left, right, heq, hleft, hright, hhigh', hall⟩ := hreports.advance (by omega) hmoved
      (fun other hother => hrest.low other hother) hends
      (hclear (toSack first range) (List.mem_map_of_mem hmem)).2
    obtain rfl : range.1 = left :=
      (add32_inj first (by omega) (by omega)).mp (congrArg Prod.fst heq)
    obtain rfl : range.2 = right :=
      (add32_inj first (by omega) (by omega)).mp (congrArg Prod.snd heq)
    exact ⟨hleft, hall⟩
  refine ⟨missing', rest, ranges', hadvance, ⟨moved, hinserted, hmoved⟩,
    hrest.low, fun range hmem => ?_, fun range hmem => (hbehind range hmem).2,
    holding.clear.sublist hsub, Nat.le_trans hsub.length_le holding.few, nofun⟩
  exact { holding.between range (hsub.subset hmem) with low := (hbehind range hmem).1 }

/-- The invariant after a segment. -/
theorem Holding.reached (holding : sacking.Holding first low missing high front back ranges)
    {stored : Option Range} {missing' : Nat} {rest : List RxBlock} {ranges' : List Range}
    (happart : Apart stream low high (front ++ inserted))
    (reaches : Reaches first missing high inserted stored missing' rest ranges') {size : Nat} :
    ∃ front', Holding first low missing' high
      { buffer := { sacking.buffer with
          data := (front ++ inserted).map (atSequence first)
          size := size
          nextRxSeq := add32 first missing'
          availBytes := sacking.buffer.availBytes + (missing' - missing)
          sackList := ranges'.map (toSack first) }
        lastStored := stored.map (toSack first) } front' rest ranges' := by
  obtain ⟨moved, rfl, hmoved⟩ := reaches.blocks
  have havail := holding.availBytes
  have hfar := holding.far
  have hmoves := hmoved.totalSize_eq
  have hreach : missing' ≤ high := hmoved.le_of_forall holding.reach fun block hmem =>
    happart.high block (List.mem_append_right front (List.mem_append_left rest hmem))
  exact ⟨front ++ moved,
    { gotFin := holding.gotFin
      span := holding.span
      data := by rw [List.append_assoc]
      blocks := ⟨stream, by rw [List.append_assoc]; exact happart⟩
      contiguous := holding.contiguous.append hmoved
      behind := reaches.behind
      far := by omega
      reach := hreach
      nextRxSeq := rfl
      availBytes := by
        show low + (sacking.buffer.availBytes + (missing' - missing)) = missing'
        omega
      sackList := rfl
      between := reaches.between
      held := reaches.held
      clear := reaches.clear
      few := reaches.few
      lastStored := fun block hblock => by
        obtain ⟨range, hrange, rfl⟩ := Option.map_eq_some_iff.mp hblock
        obtain ⟨hbetween, hleading⟩ := reaches.stored range hrange
        exact ⟨range, rfl, hbetween, hleading⟩ }⟩

/-- What a stored segment does. -/
theorem Holding.store (holding : sacking.Holding first low missing high front back ranges)
    {bytes : List UInt8} (size : Nat) (hkept : kept.Sublist back)
    (hheld : ∀ place, Held back place → Held kept place ∨ head ≤ place ∧ place < tail)
    (hfree : ∀ block ∈ kept, block.last ≤ head ∨ tail ≤ block.1) (hhead : missing ≤ head)
    (hlt : head < tail) (hhigh : tail ≤ high) (hlength : bytes.length = tail - head)
    (hbeside : missing < head → ∀ range ∈ ranges, Range.Beside (head, tail) range) :
    ∃ next missing' front' back' ranges',
      { sacking.buffer with
        size := size
        data := (front ++ kept).map (atSequence first) }.store bytes (add32 first head)
          (add32 first tail) = some next ∧
      Holding first low missing' high
        { buffer := next
          lastStored := if missing < head then some (toSack first (head, tail)) else none }
        front' back' ranges' := by
  have hspan := holding.span
  have havail := holding.availBytes
  have hreach := holding.reach
  obtain ⟨stream, holds⟩ := holding.blocks
  have hlast : RxBlock.last (head, bytes) = tail := by
    rw [RxBlock.last, hlength]
    omega
  have hfront : ∀ block ∈ front, block.1 < missing ∧ low ≤ block.1 ∧ block.last ≤ missing := by
    intro block hmem
    have hpos := holds.lt_last (List.mem_append_left back hmem)
    have hend := holding.contiguous.last_le hmem
    exact ⟨by omega, holds.low block (List.mem_append_left back hmem), hend⟩
  obtain ⟨stream', hall, hslice⟩ := (holds.sublist (List.Sublist.append (List.Sublist.refl front)
    hkept)).respliced (head, bytes) (by
      rw [hlast]
      refine List.forall_mem_append.mpr ⟨fun block hmem => .inl ?_, hfree⟩
      have := hfront block hmem
      show block.last ≤ head
      omega)
  have hkeptApart : Apart stream' missing high kept :=
    { hall.sublist (List.sublist_append_right front kept) with
      low := fun block hmem => Nat.le_of_lt (holding.behind block (hkept.subset hmem)) }
  obtain ⟨inserted, hinsert, happart, -, hinserted⟩ :=
    @insertBlock_apart first stream' high (head, bytes)
      (List.ne_nil_of_length_pos (by rw [hlength]; omega)) hslice (hlast.symm ▸ hhigh) kept missing
      (by omega) hhead hkeptApart fun block hmem => hlast.symm ▸ hfree block hmem
  rw [hlast] at hinserted
  have hdata : insertBlock (add32 first head) bytes ((front ++ kept).map (atSequence first)) =
      (front ++ inserted).map (atSequence first) := by
    rw [List.map_append, insertBlock_before, hinsert, List.map_append]
    intro block hmem
    obtain ⟨original, horiginal, rfl⟩ := List.mem_map.mp hmem
    have hbefore := hfront original horiginal
    refine ⟨fun h => ?_, fun h => ?_⟩
    · exact absurd ((lt_add32_iff first (by omega) (by omega)).mp h) (by omega)
    · exact absurd ((add32_inj first (by omega) (by omega)).mp h) (by omega)
  have hkey : ((front ++ kept).map (atSequence first)).any
      (fun block => block.1 = add32 first head) = false := by
    rw [List.any_eq_false]
    intro block hmem hsame
    obtain ⟨original, horiginal, rfl⟩ := List.mem_map.mp hmem
    have hlow := hall.low original horiginal
    have hend := hall.high original horiginal
    have hpos := hall.lt_last horiginal
    have heq := (add32_inj first (by omega) (by omega)).mp (of_decide_eq_true hsame)
    rcases List.mem_append.mp horiginal with hin | hin
    · have hbefore := hfront original hin
      omega
    · have hplace := hfree original hin
      omega
  have hskip : ∀ advanced : Advanced, advanced.nextRxSeq = add32 first missing →
      advance advanced ((front ++ inserted).map (atSequence first)) =
        advance advanced (inserted.map (atSequence first)) := by
    intro advanced hnext
    rw [List.map_append, advance_before]
    intro block hmem
    obtain ⟨original, horiginal, rfl⟩ := List.mem_map.mp hmem
    have hbefore := hfront original horiginal
    rw [hnext]
    exact (lt_add32_iff first (by omega) (by omega)).mpr hbefore.1
  have hmono : ∀ place, Held back place → Held inserted place := fun place hplace =>
    (hinserted place).mpr (hheld place hplace)
  have hfrontApart : Apart stream' low high (front ++ inserted) := by
    have hfrontHall : Apart stream' low missing front :=
      { hall.sublist (List.sublist_append_left front kept) with
        high := fun block hmem => (hfront block hmem).2.2 }
    exact hfrontHall.join happart (by omega) hreach
  have hgt : Gt (add32 first head) (add32 first missing) ↔ missing < head :=
    gt_add32_iff first (by omega) (by omega)
  have hstored : ∀ {sackList : List SackBlock} {advanced : Advanced},
      (if Gt (add32 first head) sacking.buffer.nextRxSeq then updateSackList
          sacking.buffer.nextRxSeq (add32 first head) (add32 first tail) sacking.buffer.sackList
        else some sacking.buffer.sackList) = some sackList →
      advance ⟨add32 first missing, sacking.buffer.availBytes, sackList⟩
        (inserted.map (atSequence first)) = some advanced →
      { sacking.buffer with
        size := size
        data := (front ++ kept).map (atSequence first) }.store bytes (add32 first head)
          (add32 first tail) = some { sacking.buffer with
        data := (front ++ inserted).map (atSequence first)
        size := add32 size bytes.length
        nextRxSeq := advanced.nextRxSeq
        availBytes := advanced.availBytes
        sackList := advanced.sackList } := by
    intro sackList advanced hsack hmove
    rw [← hskip _ rfl, ← hdata, ← holding.nextRxSeq] at hmove
    obtain ⟨result, hresult, hstore⟩ := @Receiving.Holds.store_of_advance
      { sacking.buffer with
        size := size
        data := (front ++ kept).map (atSequence first) } bytes (add32 first head) (add32 first tail)
      sackList advanced hkey hsack hmove
    have hfin : result.settleFin = result := by
      rw [TcpRxBuffer.settleFin, if_neg]
      rw [hresult]
      exact fun h => Bool.false_ne_true (holding.gotFin.symm.trans h)
    rw [hstore, hfin, hresult, ← hdata]
  rcases Nat.lt_or_ge missing head with hgap | hsame
  · have hbehind : ∀ block ∈ inserted, missing < block.1 := by
      intro block hmem
      refine Nat.lt_of_le_of_ne (happart.low block hmem) fun heq => ?_
      have hheldMissing : Held inserted missing :=
        ⟨block, hmem, Nat.le_of_eq heq.symm, heq ▸ happart.lt_last hmem⟩
      rcases (hinserted missing).mp hheldMissing with ⟨other, hother, hle, -⟩ | hin
      · have := holding.behind other (hkept.subset hother)
        omega
      · omega
    obtain ⟨ranges', hadvance, reaches⟩ := holding.store_behind happart hmono
      (fun place hle hless => (hinserted place).mpr (.inr ⟨hle, hless⟩)) hbehind hgap hlt hhigh
      (hbeside hgap)
    obtain ⟨front', hnext⟩ :=
      @Holding.reached _ _ _ _ _ _ _ _ _ _ holding _ _ _ _ hfrontApart reaches
        (add32 size bytes.length)
    obtain ⟨sackList, hsack, hmove⟩ := Option.bind_eq_some_iff.mp hadvance
    have hstore := hstored (by
      rw [holding.nextRxSeq, if_pos (hgt.mpr hgap), holding.sackList]
      exact hsack) hmove
    rw [Nat.sub_self, Nat.add_zero] at hnext
    exact ⟨_, missing, front', inserted, ranges', hstore, by rw [if_pos hgap]; exact hnext⟩
  · obtain rfl : head = missing := Nat.le_antisymm hsame hhead
    obtain ⟨missing', rest, ranges', hadvance, reaches⟩ := holding.store_next happart hmono
    obtain ⟨front', hnext⟩ :=
      @Holding.reached _ _ _ _ _ _ _ _ _ _ holding _ _ _ _ hfrontApart reaches
        (add32 size bytes.length)
    have hstore := hstored (by
      rw [holding.nextRxSeq, if_neg fun h => Nat.lt_irrefl _ (hgt.mp h), holding.sackList])
      hadvance
    exact ⟨_, missing', front', rest, ranges', hstore,
      by rw [if_neg (Nat.lt_irrefl _)]; exact hnext⟩

end Store

/-! ## Adding a segment -/

/-- The size does not matter to the loop that trims. -/
theorem trimOverlap_size (size other : Nat) (data : List RxBlock) : ∀ {headSeq tailSeq : Nat},
    ∃ left, trimOverlap headSeq tailSeq size data =
      { trimOverlap headSeq tailSeq other data with size := left } := by
  induction data generalizing size other with
  | nil => exact ⟨size, rfl⟩
  | cons block rest ih =>
      intro headSeq tailSeq
      rw [trimOverlap, trimOverlap]
      split
      next =>
        split
        next =>
          split
          next => exact ih _ _
          next =>
            obtain ⟨left, heq⟩ := ih size other
            exact ⟨left, by rw [heq]; rfl⟩
        next =>
          obtain ⟨left, heq⟩ := ih size other
          exact ⟨left, by rw [heq]; rfl⟩
      next => exact ⟨size, rfl⟩

/-- A sequence number is that of a place, as far from the first missing one. -/
theorem Holding.exists_place (holding : sacking.Holding first low missing high front back ranges)
    {seq : Nat} (hword : seq < 4294967296) :
    ∃ place, seq = add32 first place ∧ sacking.buffer.offset seq = (place : Int) - missing := by
  have hfar := holding.far
  have habove : sacking.buffer.above seq = sub32 seq (add32 first missing) := by
    rw [TcpRxBuffer.above, holding.nextRxSeq]
  rw [TcpRxBuffer.offset]
  split
  next =>
    refine ⟨missing + sacking.buffer.above seq, ?_, by omega⟩
    rw [habove, sub32, add32, add32]
    omega
  next =>
    have hless : sacking.buffer.above seq < 4294967296 := Nat.mod_lt _ (by omega)
    refine ⟨missing + sacking.buffer.above seq - 4294967296, ?_, by omega⟩
    rw [habove, sub32, add32, add32]
    omega

/-- A block begins as far from the first missing place as its sequence number. -/
theorem Holding.offset_of_mem (holding : sacking.Holding first low missing high front back ranges)
    {block : RxBlock} (hmem : block ∈ front ++ back) :
    sacking.buffer.offset (add32 first block.1) = (block.1 : Int) - missing := by
  obtain ⟨stream, holds⟩ := holding.blocks
  have hspan := holding.span
  have hreach := holding.reach
  have havail := holding.availBytes
  have hlow := holds.low block hmem
  have hhigh := holds.high block hmem
  have hpos := holds.lt_last hmem
  exact holding.offset_add32 (by omega) (by omega)

/-- A segment that removes no reported block is stored beside the reported ranges. -/
theorem Holding.beside (holding : sacking.Holding first low missing high front back ranges)
    {p : List UInt8} {start tail head' tail' : Nat} {kept : List RxBlock}
    (hoffset : sacking.buffer.offset (add32 first start) = (start : Int) - missing)
    (hstart : missing < start) (hkeeps : ∀ reported ∈ sacking.buffer.sackList,
      ∀ block ∈ sacking.buffer.data, sacking.buffer.Overlaps reported block →
        ¬ sacking.buffer.Removes p (add32 first start) block)
    (htail : tail ≤ start + p.length) (hend : tail ≤ high)
    (hlimit : ∀ block ∈ (front ++ back).head?, tail ≤ block.1 + sacking.buffer.maxBuffer)
    (hswallows : ∀ block ∈ back, block ∉ kept → Swallows back start tail block)
    (hfree : ∀ block ∈ kept, block.last ≤ head' ∨ tail' ≤ block.1) (hlt : head' < tail')
    {range : Range} (hrange : range ∈ ranges) : Range.Beside (head', tail') range := by
  have hspan := holding.span
  have havail := holding.availBytes
  have hreach := holding.reach
  obtain ⟨stream, holds⟩ := holding.blocks
  obtain ⟨hlow, hlast, hhigh⟩ := holding.between range hrange
  by_contra hover
  have hboth : range.1 < tail' ∧ head' < range.2 := by
    rw [Range.Beside] at hover
    exact ⟨Nat.lt_of_not_le fun h => hover (.inl h), Nat.lt_of_not_le fun h => hover (.inr h)⟩
  obtain ⟨block, hblock, hle, hin⟩ := holding.held range hrange (max range.1 head') (by omega)
    (by omega)
  have hremoved : block ∉ kept := fun hmem => by
    have := hfree block hmem
    omega
  obtain ⟨hbefore, place, hfrom, hplace, hmissing⟩ := hswallows block hblock hremoved
  have hblockLow := holding.behind block hblock
  have hsize : block.last = block.1 + block.2.length := rfl
  -- the bounds come first: with the offsets in the context the arithmetic is slow
  have hstartHigh : start < missing + 4294967296 := by omega
  have hrangeHigh : range.2 < missing + 4294967296 := by omega
  have hlastLow : block.1 + block.2.length < start + p.length := by omega
  have hplaceHigh : place ≤ high := by omega
  have hblockAbove : sacking.buffer.above (add32 first block.1) = block.1 - missing :=
    holding.above_add32 (by omega) (by omega)
  have hstartAbove : sacking.buffer.above (add32 first start) = start - missing :=
    holding.above_add32 (by omega) (by omega)
  have hfirst : sacking.buffer.above (add32 first range.1) = range.1 - missing :=
    holding.above_add32 (by omega) (by omega)
  have hsecond : sacking.buffer.above (add32 first range.2) = range.2 - missing :=
    holding.above_add32 (by omega) (by omega)
  have hplaceLow : missing + (place - missing) = place := by omega
  have hdistance : place - missing < block.1 - missing ∧ start - missing ≤ place - missing := by omega
  have hoverlap : range.1 - missing < block.1 - missing + block.2.length ∧
      block.1 - missing < range.2 - missing := by omega
  have hblockOffset := holding.offset_of_mem (List.mem_append_right front hblock)
  have hreported : toSack first range ∈ sacking.buffer.sackList := by
    rw [holding.sackList]
    exact List.mem_map_of_mem hrange
  have hstored : (add32 first block.1, block.2) ∈ sacking.buffer.data := by
    rw [holding.data]
    exact List.mem_map_of_mem (List.mem_append_right front hblock)
  refine hkeeps _ hreported _ hstored ?_ ?_
  · show sacking.buffer.above (add32 first range.1) <
        sacking.buffer.above (add32 first block.1) + block.2.length ∧
      sacking.buffer.above (add32 first block.1) < sacking.buffer.above (add32 first range.2)
    rw [hblockAbove, hfirst, hsecond]
    exact hoverlap
  · refine ⟨?_, fun other hother => ?_, place - missing, ?_, ?_, ?_⟩
    · show sacking.buffer.offset (add32 first block.1) + (block.2.length : Int) < _
      rw [hblockOffset, hoffset]
      clear hblockOffset hoffset hspan
      omega
    · rw [holding.data, List.head?_map] at hother
      obtain ⟨original, horiginal, rfl⟩ := Option.map_eq_some_iff.mp hother
      have hbound := hlimit original horiginal
      have horiginalOffset := holding.offset_of_mem (List.mem_of_mem_head? horiginal)
      show sacking.buffer.offset (add32 first block.1) + (block.2.length : Int) <
        sacking.buffer.offset (add32 first original.1) + (sacking.buffer.maxBuffer : Int)
      rw [hblockOffset, horiginalOffset]
      clear hblockOffset hoffset horiginalOffset hspan
      omega
    · show place - missing < sacking.buffer.above (add32 first block.1)
      rw [hblockAbove]
      exact hdistance.1
    · rw [hstartAbove]
      exact hdistance.2
    · rw [holding.nextRxSeq, add32_add32, hplaceLow, holding.stores_iff (by omega) hplaceHigh]
      exact hmissing

theorem add_of_ge {rx : TcpRxBuffer} {p : List UInt8} {seq : Nat} {window : Nat × Nat}
    {trimmed : Trimmed} (hwindow : rx.trimWindow seq (add32 seq p.length) = window)
    (htrim : trimOverlap window.1 window.2 rx.size rx.data = trimmed)
    (hge : Ge trimmed.headSeq trimmed.tailSeq) :
    rx.add p seq = some ({ rx with size := trimmed.size, data := trimmed.data }, false) ∧
      rx.storedBehindGap p seq = none := by
  rw [TcpRxBuffer.add, TcpRxBuffer.storedBehindGap, hwindow]
  simp only [htrim]
  exact ⟨if_pos hge, if_pos hge⟩

/-- Nothing is stored. -/
theorem Holding.unchanged (holding : sacking.Holding first low missing high front back ranges)
    {p : List UInt8} {seq : Nat} {window : Nat × Nat} {trimmed : Trimmed}
    (hwindow : sacking.buffer.trimWindow seq (add32 seq p.length) = window)
    (htrim : trimOverlap window.1 window.2 sacking.buffer.size sacking.buffer.data = trimmed)
    (hdata : trimmed.data = (front ++ back).map (atSequence first))
    (hge : Ge trimmed.headSeq trimmed.tailSeq) :
    ∃ next, sacking.step (.add p seq) = some next ∧
      next.Holding first low missing high front back ranges := by
  obtain ⟨hadd, hstored⟩ := add_of_ge hwindow htrim hge
  refine ⟨⟨{ sacking.buffer with size := trimmed.size, data := trimmed.data }, none⟩, ?_, ?_⟩
  · rw [step, hadd, hstored, Option.map_some]
  · exact
      { gotFin := holding.gotFin
        span := holding.span
        data := hdata
        blocks := holding.blocks
        contiguous := holding.contiguous
        behind := holding.behind
        far := holding.far
        reach := holding.reach
        nextRxSeq := holding.nextRxSeq
        availBytes := holding.availBytes
        sackList := holding.sackList
        between := holding.between
        held := holding.held
        clear := holding.clear
        few := holding.few
        lastStored := nofun }

/-- A segment that begins behind its end after the window was applied. -/
theorem Holding.empty (holding : sacking.Holding first low missing high front back ranges)
    {p : List UInt8} {seq place : Nat}
    (hwindow : sacking.buffer.trimWindow seq (add32 seq p.length) =
      (add32 first place, add32 first place)) :
    ∃ next, sacking.step (.add p seq) = some next ∧
      next.Holding first low missing high front back ranges := by
  obtain ⟨stream, holds⟩ := holding.blocks
  have hspan := holding.span
  have hends : ∀ block ∈ sacking.buffer.data, Gt block.lastByteSeq block.1 := by
    rw [holding.data]
    intro block hmem
    obtain ⟨original, horiginal, rfl⟩ := List.mem_map.mp hmem
    have hlow := holds.low original horiginal
    have hend := holds.high original horiginal
    have hpos := holds.lt_last horiginal
    rw [atSequence_last]
    exact (gt_add32_iff first (by omega) (by omega)).mpr hpos
  have hsorted : sacking.buffer.data.Pairwise fun block other => Gt other.1 block.1 := by
    rw [holding.data]
    refine List.pairwise_map.mpr (holds.apart.imp_of_mem ?_)
    intro block other hblock hother hapart
    have hlow := holds.low block hblock
    have hpos := holds.lt_last hblock
    have hend := holds.high other hother
    have hpos' := holds.lt_last hother
    exact (gt_add32_iff first (by omega) (by omega)).mpr (by omega)
  obtain ⟨headSeq, tailSeq, htrim, hge⟩ :=
    @trimOverlap_empty (add32 first place) sacking.buffer.size _ hends hsorted
  exact holding.unchanged hwindow htrim holding.data hge

/-- A segment whose window is not empty. -/
theorem Holding.windowed (holding : sacking.Holding first low missing high front back ranges)
    {p : List UInt8} {start tail : Nat}
    (hoffset : sacking.buffer.offset (add32 first start) = (start : Int) - missing)
    (hkeeps : 0 < sacking.buffer.offset (add32 first start) → ∀ reported ∈ sacking.buffer.sackList,
      ∀ block ∈ sacking.buffer.data, sacking.buffer.Overlaps reported block →
        ¬ sacking.buffer.Removes p (add32 first start) block)
    (hstart : missing < start + 2147483648) (hlast : start + p.length < low + 2147483648)
    (hlt : max start missing < tail) (htail : tail ≤ start + p.length)
    (hlimit : ∀ block ∈ (front ++ back).head?, tail ≤ block.1 + sacking.buffer.maxBuffer)
    (hwindow : sacking.buffer.trimWindow (add32 first start) (add32 (add32 first start) p.length) =
      (add32 first (max start missing), add32 first tail)) :
    ∃ next missing' front' back' ranges', sacking.step (.add p (add32 first start)) = some next ∧
      next.Holding first low missing' high front' back' ranges' := by
  obtain ⟨stream, holds⟩ := holding.blocks
  obtain ⟨other, hbackApart⟩ := holding.apart_back
  have hspan := holding.span
  have hreach := holding.reach
  have havail := holding.availBytes
  have hend : tail ≤ high := by omega
  have hbefore : ∀ block ∈ front.map (atSequence first), Le block.1 (add32 first tail) ∧
      ¬ Gt block.lastByteSeq (add32 first (max start missing)) := by
    intro block hmem
    obtain ⟨original, horiginal, rfl⟩ := List.mem_map.mp hmem
    have hlow := holds.low original (List.mem_append_left back horiginal)
    have hpos := holds.lt_last (List.mem_append_left back horiginal)
    have hlastLe := holding.contiguous.last_le horiginal
    rw [atSequence_last]
    refine ⟨(le_add32_iff first (by omega) (by omega)).mpr (by omega), fun hgt => ?_⟩
    exact absurd ((gt_add32_iff first (by omega) (by omega)).mp hgt) (by omega)
  have htotal := hbackApart.totalSize_le (by omega)
  obtain ⟨head', tail', size', kept, htrim, -, trims, hswallows⟩ :=
    @trimOverlap_swallows first other missing high tail (by omega) hend back
      (hbackApart.weaken (Nat.le_succ _) (Nat.le_refl _)) (max start missing) (totalSize back)
      (Nat.le_max_right _ _) hlt (Nat.le_refl _) (by omega)
  obtain ⟨left, hall⟩ : ∃ left, trimOverlap (add32 first (max start missing)) (add32 first tail)
      sacking.buffer.size sacking.buffer.data =
        ⟨add32 first head', add32 first tail', left, (front ++ kept).map (atSequence first)⟩ := by
    obtain ⟨left, hsize⟩ := @trimOverlap_size sacking.buffer.size (totalSize back)
      (back.map (atSequence first)) (add32 first (max start missing)) (add32 first tail)
    refine ⟨left, ?_⟩
    rw [holding.data, List.map_append, trimOverlap_before hbefore, hsize, htrim, List.map_append]
  have hgrown := trims.grown
  have hshrunk := trims.shrunk
  have hlowTail := trims.tailStays (missing + 1) (by omega) holding.behind
  have hhighHead := trims.headWithin high (by omega) hbackApart.high
  have hge : Ge (add32 first head') (add32 first tail') ↔ tail' ≤ head' :=
    ge_add32_iff first (by omega) (by omega)
  by_cases hleft : tail' ≤ head'
  · obtain ⟨next, hnext, hholding⟩ := holding.unchanged hwindow hall
      (by rw [trims.whole hleft]) (hge.mpr hleft)
    exact ⟨next, missing, front, back, ranges, hnext, hholding⟩
  · have hlt' : head' < tail' := Nat.lt_of_not_le hleft
    have hbehind : missing < head' → missing < start := fun hgap => by
      by_contra hold
      have hmax : max start missing = missing := Nat.max_eq_right (Nat.le_of_not_lt hold)
      have hstays := trims.headStays fun block hmem => hmax.symm ▸ holding.behind block hmem
      omega
    have hdrop : sub32 (add32 first head') (add32 first start) = head' - start :=
      sub32_add32 first (by omega) (by omega)
    have htake : sub32 (add32 first tail') (add32 first head') = tail' - head' :=
      sub32_add32 first (by omega) (by omega)
    have hlength : ((p.drop (head' - start)).take (tail' - head')).length = tail' - head' := by
      rw [List.length_take, List.length_drop]
      omega
    have hbeside : missing < head' → ∀ range ∈ ranges, Range.Beside (head', tail') range := by
      intro hgap range hrange
      have hafter := hbehind hgap
      have hmax : max start missing = start := Nat.max_eq_left (Nat.le_of_lt hafter)
      rw [hmax] at hswallows
      exact holding.beside hoffset hafter (hkeeps (by rw [hoffset]; omega)) htail hend hlimit
        hswallows (trims.free hlt') hlt' hrange
    obtain ⟨next, missing', front', back', ranges', hstore, hholding⟩ :=
      holding.store left trims.sublist trims.held (trims.free hlt') (by omega) hlt' (by omega)
        hlength hbeside
    have hadd : sacking.buffer.add p (add32 first start) = some (next, true) := by
      refine Receiving.Holds.add_stores hwindow hall (fun h => hleft (hge.mp h)) ?_ ?_ hstore
      · dsimp only
        rw [hdrop, htake]
      · dsimp only
        rw [htake, hlength]
    have hgt : Gt (add32 first head') sacking.buffer.nextRxSeq ↔ missing < head' := by
      rw [holding.nextRxSeq]
      exact gt_add32_iff first (by omega) (by omega)
    have hreported : sacking.buffer.storedBehindGap p (add32 first start) =
        if missing < head' then some (toSack first (head', tail')) else none := by
      rw [TcpRxBuffer.storedBehindGap, hwindow]
      simp only [hall, if_neg fun h => hleft (hge.mp h), hgt]
      rfl
    refine ⟨_, missing', front', back', ranges', ?_, hholding⟩
    rw [step, hadd, Option.map_some, hreported]

/-- What an addition keeps. -/
theorem Holding.add (holding : sacking.Holding first low missing high front back ranges)
    {p : List UInt8} {seq : Nat} (keeps : sacking.Keeps (.add p seq)) :
    ∃ next missing' front' back' ranges', sacking.step (.add p seq) = some next ∧
      next.Holding first low missing' high front' back' ranges' := by
  obtain ⟨⟨hword, hnear, hwithin, hlimit⟩, hkeeps⟩ := keeps
  obtain ⟨start, rfl, hoffset⟩ := holding.exists_place hword
  have hspan := holding.span
  have hreach := holding.reach
  have havail := holding.availBytes
  rw [hoffset] at hnear hwithin
  have hstart : missing < start + 2147483648 := by omega
  have hlast : start + p.length < low + 2147483648 := by omega
  have hbound : ∀ block ∈ (front ++ back).head?,
      block.1 + sacking.buffer.maxBuffer < start + p.length + 2147483648 := by
    intro block hblock
    have hhead : atSequence first block ∈ sacking.buffer.data.head? := by
      rw [holding.data, List.head?_map, Option.mem_def.mp hblock]
      rfl
    have hnearBlock := hlimit _ hhead
    rw [show (atSequence first block).1 = add32 first block.1 from rfl,
      holding.offset_of_mem (List.mem_of_mem_head? hblock), hoffset] at hnearBlock
    omega
  have hsame : add32 (add32 first start) p.length = add32 first (start + p.length) := add32_add32 ..
  rcases holding.trimWindow hstart (Nat.le_add_right start p.length) hlast hbound with
    ⟨place, hwindow⟩ | ⟨hempty, hle, hwindow⟩ | ⟨tail, hlt, htail, hmax, hwindow⟩
  · obtain ⟨next, hnext, hholding⟩ := holding.empty (hsame.symm ▸ hwindow)
    exact ⟨next, missing, front, back, ranges, hnext, hholding⟩
  · have htrim : trimOverlap (add32 first (max start missing)) (add32 first (start + p.length))
        sacking.buffer.size sacking.buffer.data =
          ⟨add32 first (max start missing), add32 first (start + p.length), sacking.buffer.size,
            []⟩ := by
      rw [hempty]
      rfl
    obtain ⟨next, hnext, hholding⟩ := holding.unchanged (by rw [hsame, hwindow]) htrim
      (by rw [← holding.data, hempty])
      ((ge_add32_iff first (by omega) (by omega)).mpr hle)
    exact ⟨next, missing, front, back, ranges, hnext, hholding⟩
  · exact holding.windowed hoffset hkeeps hstart hlast hlt htail hmax (hsame.symm ▸ hwindow)

/-! ## All runs -/

theorem create_holding {maxBuffer : Nat} (hfirst : first < 4294967296) :
    (create first maxBuffer).Holding first 4294967296 4294967296 6442450943 [] [] [] where
  gotFin := rfl
  span := rfl
  data := rfl
  blocks := ⟨[], Apart.nil ..⟩
  contiguous := rfl
  behind := nofun
  far := Nat.le_refl _
  reach := by omega
  nextRxSeq := by
    show first = add32 first 4294967296
    rw [add32]
    omega
  availBytes := rfl
  sackList := rfl
  between := nofun
  held := nofun
  clear := List.Pairwise.nil
  few := Nat.zero_le _
  lastStored := nofun

/-- Some places of the stream for the blocks and the ranges. -/
def Kept (first : Nat) (sacking : Sacking) : Prop :=
  ∃ low missing high front back ranges, sacking.Holding first low missing high front back ranges

theorem step_kept (first : Nat) (sacking : Sacking) (event : SackEvent) (kept : Kept first sacking)
    (keeps : sacking.Keeps event) : ∃ next, sacking.step event = some next ∧ Kept first next := by
  obtain ⟨low, missing, high, front, back, ranges, holding⟩ := kept
  cases event with
  | add p seq =>
      obtain ⟨next, missing', front', back', ranges', hnext, hholding⟩ := holding.add keeps
      exact ⟨next, hnext, low, missing', high, front', back', ranges', hholding⟩
  | extract maxSize =>
      obtain ⟨next, low', high', front', hnext, hholding⟩ := holding.extract maxSize
      exact ⟨next, hnext, low', missing, high', front', back, ranges, hholding⟩

/-- The reported blocks are sound after every run that removes no reported block. -/
theorem sound_of_fitting {first maxBuffer : Nat} (hfirst : first < 4294967296)
    {events : List SackEvent} (hfitting : Fitting step Keeps (create first maxBuffer) events) :
    ∃ last, runFrom step (create first maxBuffer) events = some last ∧ last.Sound := by
  obtain ⟨last, hrun, low, missing, high, front, back, ranges, holding⟩ :=
    exists_run_of_fitting step (Kept first) (step_kept first)
      ⟨_, _, _, _, _, _, create_holding hfirst⟩ hfitting
  exact ⟨last, hrun, holding.sound⟩

theorem sound_of_fitting_gaps : ∃ last, runFrom step (create 4294967290 32768)
    [.add [3, 4] 4294967292, .add [9, 10] 2, .extract 4, .add [1, 2] 4294967290] = some last ∧
      last.Sound :=
  sound_of_fitting (by decide) (by decide)

/-- A segment on both sides of a reported block. -/
theorem not_sound_embedded : ∃ last, runFrom step (create 0 32768)
    [.add [3, 4] 2, .add [2, 3, 4, 5] 1] = some last ∧ ¬ last.Sound := by
  refine ⟨_, rfl, fun sound => ?_⟩
  exact absurd sound.apart (by decide)

end Sacking

end DeepcV2x.Tcp
