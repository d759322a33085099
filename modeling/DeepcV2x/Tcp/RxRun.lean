import DeepcV2x.Tcp.RxStream

/-!
# Reassembly of a stream

In every run whose segments stay within the window that the buffer announces,
the bytes extracted are a beginning of the stream, and the buffer holds bytes
of the stream at their sequence numbers.
-/

namespace DeepcV2x.Tcp

open SequenceNumber32 Foundation.Slices

namespace Receiving

/-- The first place of the stream that is not extracted and not available. -/
def missing (receiving : Receiving) : Nat :=
  receiving.extracted.length + receiving.buffer.availBytes

/-- The place of the next sequence number: the FIN counts as a byte. -/
def next (stream : List UInt8) (receiving : Receiving) : Nat :=
  receiving.missing +
    if receiving.buffer.gotFin = true ∧ receiving.missing = stream.length then 1 else 0

/-- The place of the first sequence number that is not accepted. -/
def edge (stream : List UInt8) (receiving : Receiving) : Nat :=
  if receiving.buffer.gotFin = true then stream.length
  else receiving.extracted.length + receiving.buffer.maxBuffer

/-- The place of the first block. -/
def firstPlace (first : Nat) (receiving : Receiving) : Option Nat :=
  receiving.buffer.data.head?.map fun block =>
    receiving.extracted.length + sub32 block.1 (add32 first receiving.extracted.length)

/-- What the buffer holds of the stream. -/
structure Reassembled (first : Nat) (stream : List UInt8) (receiving : Receiving)
    (blocks : List RxBlock) : Prop where
  extracted : receiving.extracted <+: stream
  data : receiving.buffer.data = blocks.map (atSequence first)
  stored : Apart stream receiving.extracted.length (receiving.edge stream) blocks
  size : receiving.buffer.size = totalSize blocks
  availBytes : receiving.buffer.availBytes =
    totalSize (blocks.filter fun block => block.1 < receiving.missing)
  received : ∀ place, receiving.extracted.length ≤ place → place < receiving.missing →
    Held blocks place
  notReceived : ¬ Held blocks receiving.missing
  nextRxSeq : receiving.buffer.nextRxSeq = add32 first (receiving.next stream)
  maxRxSequence : receiving.buffer.maxRxSequence = add32 first (receiving.edge stream)
  fits : receiving.buffer.size ≤ receiving.buffer.maxBuffer

/-- A segment does not reach behind the window unless the buffer trims it: there is a block before
the next sequence number, or nothing of the segment is stored. -/
structure WindowFits (first next start last : Nat) (receiving : Receiving) : Prop where
  empty : receiving.buffer.data = [] → last ≤ next + receiving.buffer.maxBuffer
  near : ∀ place ∈ receiving.firstPlace first,
    place + receiving.buffer.maxBuffer < last + 2147483648
  trimmed : ∀ place ∈ receiving.firstPlace first, place < next ∨
    last ≤ next + receiving.buffer.maxBuffer ∨ place + receiving.buffer.maxBuffer ≤ max start next

instance (first next start last : Nat) (receiving : Receiving) :
    Decidable (WindowFits first next start last receiving) :=
  decidable_of_iff
    ((receiving.buffer.data = [] → last ≤ next + receiving.buffer.maxBuffer) ∧
      (∀ place ∈ receiving.firstPlace first,
        place + receiving.buffer.maxBuffer < last + 2147483648) ∧
      ∀ place ∈ receiving.firstPlace first, place < next ∨
        last ≤ next + receiving.buffer.maxBuffer ∨
          place + receiving.buffer.maxBuffer ≤ max start next)
    ⟨fun fits => ⟨fits.1, fits.2.1, fits.2.2⟩, fun fits => ⟨fits.1, fits.2, fits.3⟩⟩

/-- Sequence numbers are within half a turn of the next one, and segments fit the window. -/
def Fits (first : Nat) (stream : List UInt8) (receiving : Receiving) : RxEvent → Prop
  | .segment start length =>
      start + length ≤ stream.length ∧ receiving.next stream < start + 2147483648 ∧
        start + length < receiving.next stream + 2147483648 ∧
        WindowFits first (receiving.next stream) start (start + length) receiving
  | .extract _ => True
  | .fin => stream.length < receiving.next stream + 2147483648

instance (first : Nat) (stream : List UInt8) (receiving : Receiving) :
    ∀ event, Decidable (receiving.Fits first stream event)
  | .segment start length => inferInstanceAs (Decidable (start + length ≤ stream.length ∧
      receiving.next stream < start + 2147483648 ∧
        start + length < receiving.next stream + 2147483648 ∧
        WindowFits first (receiving.next stream) start (start + length) receiving))
  | .extract _ => .isTrue trivial
  | .fin => inferInstanceAs (Decidable (stream.length < receiving.next stream + 2147483648))

/-- The blocks before the first missing place and those behind it. -/
structure Holds (first : Nat) (stream : List UInt8) (receiving : Receiving)
    (front back : List RxBlock) : Prop where
  extracted : receiving.extracted = stream.take receiving.extracted.length
  inside : receiving.missing ≤ stream.length
  data : receiving.buffer.data = (front ++ back).map (atSequence first)
  contiguous : Contiguous receiving.extracted.length front receiving.missing
  available : Apart stream receiving.extracted.length receiving.missing front
  behind : Apart stream (receiving.missing + 1)
    (receiving.extracted.length + receiving.buffer.maxBuffer) back
  reach : receiving.buffer.availBytes ≤ receiving.buffer.maxBuffer
  word : receiving.buffer.maxBuffer < 2147483647
  size : receiving.buffer.size = totalSize (front ++ back)
  nextRxSeq : receiving.buffer.nextRxSeq = add32 first (receiving.next stream)
  finSeq : receiving.buffer.gotFin = true →
    receiving.buffer.finSeq = add32 first stream.length ∧
      stream.length < receiving.next stream + 2147483648
  reported : ∀ block ∈ receiving.buffer.sackList, Reports first receiving.missing
    (receiving.extracted.length + receiving.buffer.maxBuffer) back block

variable {first : Nat} {stream : List UInt8} {receiving : Receiving} {front back : List RxBlock}

theorem next_bounds (stream : List UInt8) (receiving : Receiving) :
    receiving.missing ≤ receiving.next stream ∧
      receiving.next stream ≤ receiving.missing + 1 := by
  rw [next]
  split <;> omega

theorem placeOf_atSequence (first : Nat) {low : Nat} {block : RxBlock} (hle : low ≤ block.1)
    (hword : block.1 < low + 4294967296) :
    low + sub32 (atSequence first block).1 (add32 first low) = block.1 := by
  have hdistance : sub32 (atSequence first block).1 (add32 first low) = block.1 - low :=
    sub32_add32 first hle hword
  rw [hdistance, Nat.add_sub_cancel' hle]

namespace Holds

/-- The blocks are apart, before and behind the first missing place. -/
theorem blocks (holds : Holds first stream receiving front back) :
    Apart stream receiving.extracted.length
      (receiving.extracted.length + receiving.buffer.maxBuffer) (front ++ back) where
  apart := List.pairwise_append.mpr ⟨holds.available.apart, holds.behind.apart, fun block hmem other hother =>
    Nat.le_trans (holds.available.high block hmem)
      (Nat.le_trans (Nat.le_succ _) (holds.behind.low other hother))⟩
  nonEmpty := List.forall_mem_append.mpr ⟨holds.available.nonEmpty, holds.behind.nonEmpty⟩
  slices := List.forall_mem_append.mpr ⟨holds.available.slices, holds.behind.slices⟩
  low := List.forall_mem_append.mpr ⟨holds.available.low, fun block hmem =>
    Nat.le_trans (Nat.le_trans (Nat.le_add_right _ _) (Nat.le_succ _)) (holds.behind.low block hmem)⟩
  high := List.forall_mem_append.mpr ⟨fun block hmem =>
    Nat.le_trans (holds.available.high block hmem) (Nat.add_le_add_left holds.reach _), holds.behind.high⟩

theorem size_le (holds : Holds first stream receiving front back) :
    receiving.buffer.size ≤ receiving.buffer.maxBuffer := by
  have htotal := holds.blocks.totalSize_le (Nat.le_add_right _ _)
  rw [← holds.size] at htotal
  omega

/-- The next sequence number is at the first missing place when a block before it is left. -/
theorem firstPlace (holds : Holds first stream receiving front back) :
    receiving.firstPlace first = (front ++ back).head?.map Prod.fst := by
  rw [Receiving.firstPlace, holds.data, List.head?_map, Option.map_map]
  refine Option.map_congr fun block hmem => ?_
  have hhigh := holds.blocks.high block (List.mem_of_mem_head? hmem)
  have hlt := holds.blocks.lt_last (List.mem_of_mem_head? hmem)
  have hword := holds.word
  rw [Function.comp_apply]
  exact placeOf_atSequence first (holds.blocks.low block (List.mem_of_mem_head? hmem)) (by omega)

theorem maxRxSequence (holds : Holds first stream receiving front back) :
    receiving.buffer.maxRxSequence = add32 first (receiving.edge stream) := by
  have hword := holds.word
  rw [TcpRxBuffer.maxRxSequence, edge]
  by_cases hfin : receiving.buffer.gotFin = true
  · rw [if_pos hfin, if_pos hfin]
    exact (holds.finSeq hfin).1
  · have hnext : receiving.next stream = receiving.missing := by
      rw [next, if_neg fun hboth => hfin hboth.1, Nat.add_zero]
    rw [if_neg hfin, if_neg hfin, holds.data, holds.nextRxSeq, hnext]
    cases front with
    | nil =>
        obtain hsame : receiving.extracted.length = receiving.missing := holds.contiguous
        cases back with
        | nil => 
            rw [hsame]
            exact add32_add32 _ _ _
        | cons block back =>
            have hlow := holds.behind.low block List.mem_cons_self
            have hhigh := holds.behind.high block List.mem_cons_self
            have hlt := holds.behind.lt_last List.mem_cons_self
            have hgt : ¬ Gt (add32 first receiving.missing) (add32 first block.1) := fun hgt =>
              absurd ((gt_add32_iff first (by omega) (by omega)).mp hgt) (by omega)
            rw [hsame]
            exact (if_neg hgt).trans (add32_add32 _ _ _)
    | cons block front =>
        obtain ⟨hplace, -⟩ := holds.contiguous
        have hmissing := holds.available.high block List.mem_cons_self
        have hlt := holds.available.lt_last List.mem_cons_self
        have hreach := holds.reach
        have hsum : receiving.missing =
          receiving.extracted.length + receiving.buffer.availBytes := rfl
        have hgt : Gt (add32 first receiving.missing) (add32 first block.1) :=
          (gt_add32_iff first (by omega) (by omega)).mpr (by omega)
        rw [← hplace]
        exact (if_pos hgt).trans (add32_add32 _ _ _)

theorem reassembled (holds : Holds first stream receiving front back) :
    Reassembled first stream receiving (front ++ back) where
  extracted := holds.extracted ▸ List.take_prefix _ _
  data := holds.data
  stored := by
    by_cases hfin : receiving.buffer.gotFin = true
    · refine { holds.blocks with high := fun block hmem => ?_ }
      rw [edge, if_pos hfin]
      exact (holds.blocks.slices block hmem).bound
    · rw [edge, if_neg hfin]
      exact holds.blocks
  size := holds.size
  availBytes := by
    have hfront : front.filter (fun block => block.1 < receiving.missing) = front := by
      refine List.filter_eq_self.mpr fun block hmem => decide_eq_true ?_
      exact Nat.lt_of_lt_of_le (holds.available.lt_last hmem) (holds.available.high block hmem)
    have hback : back.filter (fun block => block.1 < receiving.missing) = [] := by
      refine List.filter_eq_nil_iff.mpr fun block hmem => ?_
      have hlow := holds.behind.low block hmem
      simp
      omega
    have htotal := holds.contiguous.totalSize_eq
    rw [List.filter_append, hfront, hback, List.append_nil]
    exact (Nat.add_left_cancel htotal).symm
  received := fun place hlow hhigh =>
    held_append.mpr (.inl (holds.contiguous.held hlow hhigh))
  notReceived := by
    rintro ⟨block, hmem, hle, hlt⟩
    rcases List.mem_append.mp hmem with hmem | hmem
    · have hhigh := holds.available.high block hmem
      omega
    · have hlow := holds.behind.low block hmem
      omega
  nextRxSeq := holds.nextRxSeq
  maxRxSequence := holds.maxRxSequence
  fits := holds.size_le

end Holds

theorem create_holds {maxBuffer : Nat} (hword : maxBuffer < 2147483647) (hfirst : first < 4294967296)
    (stream : List UInt8) : Holds first stream (create first maxBuffer) [] [] where
  extracted := rfl
  inside := Nat.zero_le _
  data := rfl
  contiguous := rfl
  available := Apart.nil _ _ _
  behind := Apart.nil _ _ _
  reach := Nat.zero_le _
  word := hword
  size := rfl
  nextRxSeq := (Nat.mod_eq_of_lt hfirst).symm
  finSeq := fun hfin => absurd hfin Bool.false_ne_true
  reported := fun _ hmem => absurd hmem List.not_mem_nil

/-! ## A segment -/

namespace Holds

/-- Trimmed to the window, a segment is empty, or fits behind the first missing place. -/
theorem trimWindow (holds : Holds first stream receiving front back) {start last : Nat}
    (hle : start ≤ last) (hlast : last ≤ stream.length)
    (hbefore : receiving.next stream < start + 2147483648)
    (hbehind : last < receiving.next stream + 2147483648)
    (fits : WindowFits first (receiving.next stream) start last receiving) :
    (∃ place, receiving.buffer.trimWindow (add32 first start) (add32 first last) =
      (add32 first place, add32 first place)) ∨
    (receiving.buffer.data = [] ∧ last ≤ max start (receiving.next stream) ∧
      receiving.buffer.trimWindow (add32 first start) (add32 first last) =
        (add32 first (max start (receiving.next stream)), add32 first last)) ∨
    ∃ tail, max start (receiving.next stream) < tail ∧ tail ≤ last ∧
      tail ≤ receiving.extracted.length + receiving.buffer.maxBuffer ∧
      receiving.next stream = receiving.missing ∧
      receiving.buffer.trimWindow (add32 first start) (add32 first last) =
        (add32 first (max start (receiving.next stream)), add32 first tail) := by
  have hword := holds.word
  have hreach := holds.reach
  obtain ⟨hmissing, hfin⟩ := next_bounds stream receiving
  have hsum : receiving.missing =
    receiving.extracted.length + receiving.buffer.availBytes := rfl
  have hsame : receiving.next stream < last → receiving.next stream = receiving.missing := by
    intro hlt
    rw [next] at hlt ⊢
    split at hlt
    · next hboth => omega
    · next hnot => rw [if_neg hnot, Nat.add_zero]
  have hhead : (if Lt (add32 first start) receiving.buffer.nextRxSeq then receiving.buffer.nextRxSeq
      else add32 first start) = add32 first (max start (receiving.next stream)) := by
    have hlt : Lt (add32 first start) (add32 first (receiving.next stream)) ↔
        start < receiving.next stream := lt_add32_iff first (by omega) (by omega)
    rw [holds.nextRxSeq]
    by_cases hold : start < receiving.next stream
    · rw [if_pos (hlt.mpr hold), Nat.max_eq_right (Nat.le_of_lt hold)]
    · rw [if_neg fun h => hold (hlt.mp h), Nat.max_eq_left (Nat.le_of_not_lt hold)]
  rw [TcpRxBuffer.trimWindow, hhead]
  have hplace := holds.firstPlace
  cases hblocks : front ++ back with
  | nil =>
      have hdata : receiving.buffer.data = [] := by rw [holds.data, hblocks, List.map_nil]
      have hfront : front = [] := (List.append_eq_nil_iff.mp hblocks).1
      have hempty := fits.empty hdata
      have hstart : receiving.extracted.length = receiving.missing := by
        have hcontiguous := holds.contiguous
        rw [hfront] at hcontiguous
        exact hcontiguous
      rw [hdata]
      rcases Nat.lt_or_ge (max start (receiving.next stream)) last with hlt | hge
      · have hnext := hsame (by omega)
        exact .inr (.inr ⟨last, hlt, Nat.le_refl _, by omega, hnext, rfl⟩)
      · exact .inr (.inl ⟨rfl, hge, rfl⟩)
  | cons block blocks =>
      have hdata : receiving.buffer.data =
          (add32 first block.1, block.2) :: blocks.map (atSequence first) := by
        rw [holds.data, hblocks, List.map_cons, atSequence]
      rw [hblocks] at hplace
      have hnear := fits.near block.1 hplace
      have htrimmed := fits.trimmed block.1 hplace
      have hmem : block ∈ front ++ back := hblocks ▸ List.mem_cons_self
      have hlow := holds.blocks.low block hmem
      have hhigh := holds.blocks.high block hmem
      have hpos := holds.blocks.lt_last hmem
      have hfirst : block.1 = receiving.extracted.length ∨
          receiving.missing < block.1 ∧ receiving.extracted.length = receiving.missing := by
        cases front with
        | nil =>
            refine .inr ⟨?_, holds.contiguous⟩
            have hbehind := holds.behind.low block (List.nil_append back ▸ hmem)
            omega
        | cons other front =>
            obtain rfl : other = block := (List.cons.inj hblocks).1
            exact .inl holds.contiguous.1
      rw [hdata]
      have hmax : (if Lt (add32 (add32 first block.1) receiving.buffer.maxBuffer) (add32 first last)
            then add32 (add32 first block.1) receiving.buffer.maxBuffer else add32 first last) =
          add32 first (min (block.1 + receiving.buffer.maxBuffer) last) := by
        have hlt : Lt (add32 first (block.1 + receiving.buffer.maxBuffer)) (add32 first last) ↔
            block.1 + receiving.buffer.maxBuffer < last :=
          lt_add32_iff first (by omega) (by omega)
        rw [add32_add32]
        by_cases hbeyond : block.1 + receiving.buffer.maxBuffer < last
        · rw [if_pos (hlt.mpr hbeyond), Nat.min_eq_left (Nat.le_of_lt hbeyond)]
        · rw [if_neg fun h => hbeyond (hlt.mp h), Nat.min_eq_right (Nat.le_of_not_lt hbeyond)]
      have htail : Lt (add32 first (min (block.1 + receiving.buffer.maxBuffer) last))
          (add32 first (max start (receiving.next stream))) ↔
          min (block.1 + receiving.buffer.maxBuffer) last < max start (receiving.next stream) :=
        lt_add32_iff first (by omega) (by omega)
      simp only [hmax]
      rcases Nat.lt_or_ge (max start (receiving.next stream))
        (min (block.1 + receiving.buffer.maxBuffer) last) with hlt | hge
      · have hnext := hsame (by omega)
        refine .inr (.inr ⟨_, hlt, Nat.min_le_right _ _, by omega, hnext, ?_⟩)
        rw [if_neg fun h => absurd (htail.mp h) (by omega)]
      · refine .inl ⟨min (block.1 + receiving.buffer.maxBuffer) last, ?_⟩
        rcases Nat.lt_or_ge (min (block.1 + receiving.buffer.maxBuffer) last)
          (max start (receiving.next stream)) with hlt | hle
        · rw [if_pos (htail.mpr hlt)]
        · rw [if_neg fun h => absurd (htail.mp h) (by omega), Nat.le_antisymm hge hle]

theorem countFin_next {rx : TcpRxBuffer} {missing : Nat} (hnext : rx.nextRxSeq = add32 first missing)
    (hfin : rx.gotFin = true → rx.finSeq = add32 first stream.length ∧
      stream.length < missing + 4294967296) (hle : missing ≤ stream.length) :
    rx.settleFin =
      { rx with
        nextRxSeq :=
          add32 first (missing + if rx.gotFin = true ∧ missing = stream.length then 1 else 0) } := by
  by_cases hgot : rx.gotFin = true
  · have hsame : rx.nextRxSeq = rx.finSeq ↔ missing = stream.length := by
      rw [hnext, (hfin hgot).1]
      exact add32_inj first (by omega) (hfin hgot).2
    rw [TcpRxBuffer.settleFin, if_pos hgot, TcpRxBuffer.countFin]
    by_cases hend : missing = stream.length
    · rw [if_pos (hsame.mpr hend), if_pos ⟨hgot, hend⟩, hnext, add32_add32]
    · rw [if_neg fun h => hend (hsame.mp h), if_neg fun h => hend h.2, Nat.add_zero, ← hnext]
  · rw [TcpRxBuffer.settleFin, if_neg hgot, if_neg fun h => hgot h.1, Nat.add_zero, ← hnext]

theorem store_of_advance {rx : TcpRxBuffer} {p : List UInt8} {headSeq tailSeq : Nat}
    {sackList : List SackBlock} {advanced : Advanced}
    (hkey : rx.data.any (fun block => block.1 = headSeq) = false)
    (hsack : (if Gt headSeq rx.nextRxSeq then updateSackList rx.nextRxSeq headSeq tailSeq rx.sackList
      else some rx.sackList) = some sackList)
    (hadvance : advance ⟨rx.nextRxSeq, rx.availBytes, sackList⟩ (insertBlock headSeq p rx.data) =
      some advanced) :
    ∃ next : TcpRxBuffer, next = { rx with
        data := insertBlock headSeq p rx.data
        size := add32 rx.size p.length
        nextRxSeq := advanced.nextRxSeq
        availBytes := advanced.availBytes
        sackList := advanced.sackList } ∧
      rx.store p headSeq tailSeq = some next.settleFin := by
  refine ⟨_, rfl, ?_⟩
  rw [TcpRxBuffer.store, if_neg (by rw [hkey]; exact Bool.false_ne_true), hsack, Option.bind_some,
    hadvance, Option.map_some]

/-- The first missing place moves over blocks that follow each other. -/
theorem moves (holds : Holds first stream receiving front back) {state : Receiving}
    {moved rest : List RxBlock} {missing' : Nat}
    (hstate : state = { receiving with buffer := { receiving.buffer with
      data := ((front ++ moved) ++ rest).map (atSequence first)
      size := totalSize ((front ++ moved) ++ rest)
      nextRxSeq := add32 first
        (missing' + if receiving.buffer.gotFin = true ∧ missing' = stream.length then 1 else 0)
      availBytes := receiving.buffer.availBytes + (missing' - receiving.missing)
      sackList := state.buffer.sackList } })
    (happart : Apart stream receiving.missing
      (receiving.extracted.length + receiving.buffer.maxBuffer) (moved ++ rest))
    (hmoved : Contiguous receiving.missing moved missing')
    (hrest : Apart stream (missing' + 1)
      (receiving.extracted.length + receiving.buffer.maxBuffer) rest)
    (hreported : ∀ block ∈ state.buffer.sackList, Reports first missing'
      (receiving.extracted.length + receiving.buffer.maxBuffer) rest block) :
    Holds first stream state (front ++ moved) rest ∧ state.edge stream = receiving.edge stream := by
  have hreach := holds.reach
  have hsum : receiving.missing =
    receiving.extracted.length + receiving.buffer.availBytes := rfl
  have hmovedSize := hmoved.totalSize_eq
  have hinside : missing' ≤ stream.length := hmoved.le_of_forall holds.inside fun block hmem =>
    (happart.slices block (List.mem_append_left _ hmem)).bound
  have hroom : missing' ≤ receiving.extracted.length + receiving.buffer.maxBuffer :=
    hmoved.le_of_forall (by omega) fun block hmem =>
      happart.high block (List.mem_append_left _ hmem)
  have hextracted : state.extracted = receiving.extracted := by rw [hstate]
  have hmax : state.buffer.maxBuffer = receiving.buffer.maxBuffer := by rw [hstate]
  have hgot : state.buffer.gotFin = receiving.buffer.gotFin := by rw [hstate]
  have hfinSeq : state.buffer.finSeq = receiving.buffer.finSeq := by rw [hstate]
  have havail : state.buffer.availBytes =
    receiving.buffer.availBytes + (missing' - receiving.missing) := by rw [hstate]
  have hmissing : state.missing = missing' := by
    rw [Receiving.missing, hextracted, havail]
    omega
  have hnext : state.next stream =
      missing' + if receiving.buffer.gotFin = true ∧ missing' = stream.length then 1 else 0 := by
    rw [Receiving.next, hmissing, hgot]
  refine ⟨?_, by rw [edge, edge, hgot, hextracted, hmax]⟩
  constructor
  · rw [hextracted]
    exact holds.extracted
  · rw [hmissing]
    exact hinside
  · rw [hstate]
  · rw [hextracted, hmissing]
    exact holds.contiguous.append hmoved
  · rw [hextracted, hmissing]
    exact holds.available.append (happart.sublist (List.sublist_append_left _ _)) hmoved
      (Nat.le_add_right _ _)
  · rw [hextracted, hmissing, hmax]
    exact hrest
  · rw [havail, hmax]
    omega
  · rw [hmax]
    exact holds.word
  · rw [hstate]
  · rw [hnext, hstate]
  · rw [hgot, hfinSeq, hnext]
    intro hfin
    have hend := (holds.finSeq hfin).2
    have hbefore := (next_bounds stream receiving).2
    refine ⟨(holds.finSeq hfin).1, ?_⟩
    rw [Receiving.next] at hend
    split at hend
    · next hboth =>
        rw [if_pos ⟨hfin, by omega⟩]
        omega
    · omega
  · rw [hextracted, hmissing, hmax]
    exact hreported

/-- A trimmed segment is stored behind the first missing place. -/
theorem store (holds : Holds first stream receiving front back)
    (hnext : receiving.next stream = receiving.missing) {rx : TcpRxBuffer}
    {kept : List RxBlock} {head tail : Nat}
    (hrx : rx = { receiving.buffer with
      size := totalSize (front ++ kept)
      data := (front ++ kept).map (atSequence first) })
    (hkept : Apart stream (receiving.missing + 1)
      (receiving.extracted.length + receiving.buffer.maxBuffer) kept)
    (hheld : ∀ place, Held back place → Held kept place ∨ head ≤ place ∧ place < tail)
    (hfree : ∀ block ∈ kept, block.last ≤ head ∨ tail ≤ block.1)
    (hhead : receiving.missing ≤ head)
    (hlt : head < tail) (hend : tail ≤ stream.length)
    (hhigh : tail ≤ receiving.extracted.length + receiving.buffer.maxBuffer) :
    ∃ next front' back',
      rx.store ((stream.drop head).take (tail - head)) (add32 first head) (add32 first tail) =
        some next ∧
      Holds first stream { receiving with buffer := next } front' back' ∧
      Receiving.edge stream { receiving with buffer := next } = receiving.edge stream := by
  have hword := holds.word
  have hreach := holds.reach
  have hsum : receiving.missing =
    receiving.extracted.length + receiving.buffer.availBytes := rfl
  have hslice : IsSlice stream head ((stream.drop head).take (tail - head)) :=
    IsSlice.of_take (by omega)
  have hlength : ((stream.drop head).take (tail - head)).length = tail - head := by
    rw [List.length_take, List.length_drop]
    omega
  have hne : (stream.drop head).take (tail - head) ≠ [] :=
    List.ne_nil_of_length_pos (by omega)
  have hlast : RxBlock.last (head, (stream.drop head).take (tail - head)) = tail := by
    rw [RxBlock.last, hlength]
    omega
  generalize (stream.drop head).take (tail - head) = bytes at hslice hlength hne hlast ⊢
  have hfront : ∀ block ∈ front, block.1 < receiving.missing ∧ receiving.extracted.length ≤ block.1 :=
    fun block hmem => ⟨Nat.lt_of_lt_of_le (holds.available.lt_last hmem)
      (holds.available.high block hmem), holds.available.low block hmem⟩
  have hkey : rx.data.any (fun block => block.1 = add32 first head) = false := by
    rw [hrx]
    rw [List.any_eq_false]
    intro block hmem
    obtain ⟨original, horiginal, rfl⟩ := List.mem_map.mp hmem
    have hbounds : original.1 ≠ head ∧ original.1 < head + 4294967296 ∧
        head < original.1 + 4294967296 := by
      rcases List.mem_append.mp horiginal with hin | hin
      · have hbefore := hfront original hin
        omega
      · have hlow := hkept.low original hin
        have hend := hkept.high original hin
        have hpos := hkept.lt_last hin
        have hplace := hfree original hin
        omega
    intro hsame
    exact hbounds.1 ((add32_inj first hbounds.2.1 hbounds.2.2).mp (of_decide_eq_true hsame))
  obtain ⟨inserted, hinsert, happart, htotal, hinserted⟩ :=
    @insertBlock_apart first stream (receiving.extracted.length + receiving.buffer.maxBuffer)
      (head, bytes) hne hslice (hlast.symm ▸ hhigh) kept receiving.missing (by omega) hhead
      (hkept.weaken (Nat.le_succ _) (Nat.le_refl _)) fun block hmem => hlast.symm ▸ hfree block hmem
  have hdata : insertBlock (add32 first head) bytes rx.data =
      (front ++ inserted).map (atSequence first) := by
    rw [hrx, List.map_append, insertBlock_before, hinsert, List.map_append]
    intro block hmem
    obtain ⟨original, horiginal, rfl⟩ := List.mem_map.mp hmem
    have hbefore := hfront original horiginal
    refine ⟨fun h => ?_, fun h => ?_⟩
    · exact absurd ((lt_add32_iff first (by omega) (by omega)).mp h) (by omega)
    · exact absurd ((add32_inj first (by omega) (by omega)).mp h) (by omega)
  have hmono : ∀ place, Held back place → Held inserted place := fun place hplace =>
    (hinserted place).mpr ((hheld place hplace).imp_right fun hin => hlast.symm ▸ hin)
  have hreports : ∀ block ∈ receiving.buffer.sackList, Reports first receiving.missing
      (receiving.extracted.length + receiving.buffer.maxBuffer) inserted block :=
    fun block hmem => (holds.reported block hmem).mono hmono
  have hsack : ∃ sackList, (if Gt (add32 first head) rx.nextRxSeq then
        updateSackList rx.nextRxSeq (add32 first head) (add32 first tail) rx.sackList
      else some rx.sackList) = some sackList ∧
      ∀ block ∈ sackList, Reports first receiving.missing
        (receiving.extracted.length + receiving.buffer.maxBuffer) inserted block := by
    have hgt : Gt (add32 first head) (add32 first receiving.missing) ↔ receiving.missing < head :=
      gt_add32_iff first (by omega) (by omega)
    rw [hrx, holds.nextRxSeq, hnext]
    by_cases hbeyond : receiving.missing < head
    · rw [if_pos (hgt.mpr hbeyond)]
      refine updateSackList_reports (by omega) ⟨head, tail, rfl, hbeyond, hlt, hhigh, ?_⟩ hbeyond
        (by omega) hreports
      exact fun place hle hplace => (hinserted place).mpr (.inr ⟨hle, hlast.symm ▸ hplace⟩)
    · rw [if_neg fun h => hbeyond (hgt.mp h)]
      exact ⟨_, rfl, hreports⟩
  obtain ⟨sackList, hsackList, hsacks⟩ := hsack
  obtain ⟨moved, rest, missing', sackList', rfl, hmoved, hrest, hadvance, hsack'⟩ :=
    @advance_contiguous first stream (receiving.extracted.length + receiving.buffer.maxBuffer) inserted
      receiving.missing receiving.buffer.availBytes sackList (by omega) (by omega) happart
      fun block hmem => (hsacks block hmem).lt (by omega)
  have hmovedSize := hmoved.totalSize_eq
  have hinside : missing' ≤ stream.length := hmoved.le_of_forall holds.inside fun block hmem =>
    (happart.slices block (List.mem_append_left _ hmem)).bound
  have hroom : missing' ≤ receiving.extracted.length + receiving.buffer.maxBuffer :=
    hmoved.le_of_forall (by omega) fun block hmem =>
      happart.high block (List.mem_append_left _ hmem)
  have hall : advance ⟨rx.nextRxSeq, rx.availBytes, sackList⟩
      (insertBlock (add32 first head) bytes rx.data) =
      some ⟨add32 first missing', receiving.buffer.availBytes + (missing' - receiving.missing),
        sackList'⟩ := by
    have hnextRxSeq : rx.nextRxSeq = add32 first receiving.missing := by
      rw [hrx, holds.nextRxSeq, hnext]
    have havail : rx.availBytes = receiving.buffer.availBytes := by rw [hrx]
    rw [hdata, hnextRxSeq, havail, List.map_append, advance_before, hadvance]
    intro block hmem
    obtain ⟨original, horiginal, rfl⟩ := List.mem_map.mp hmem
    have hbefore := hfront original horiginal
    exact (lt_add32_iff first (by omega) (by omega)).mpr hbefore.1
  obtain ⟨next, hnext', hstore⟩ := store_of_advance hkey hsackList hall
  have hcount := @countFin_next first stream next missing' (by rw [hnext'])
    (fun hgot => by
      rw [hnext', hrx] at hgot ⊢
      have hend := (holds.finSeq hgot).2
      exact ⟨(holds.finSeq hgot).1, by omega⟩) hinside
  have htotal' : add32 rx.size bytes.length = totalSize ((front ++ moved) ++ rest) := by
    have hsmall := happart.totalSize_le (by omega)
    have hfrontSize := holds.contiguous.totalSize_eq
    have hrxSize : rx.size = totalSize front + totalSize kept := by rw [hrx, totalSize_append]
    have hblock : (head, bytes).2.length = bytes.length := rfl
    rw [List.append_assoc, totalSize_append, htotal, hblock, ← Nat.add_assoc, hrxSize]
    exact Nat.mod_eq_of_lt (by omega)
  refine ⟨_, front ++ moved, rest, hstore, holds.moves ?_ happart hmoved hrest fun block hmem => ?_⟩
  · rw [hcount, hnext', htotal', hdata, hrx, List.append_assoc]
  · rw [hcount, hnext'] at hmem
    obtain ⟨hin, hclear⟩ := hsack' block hmem
    exact (hsacks block hin).advance (by omega) hmoved (fun other hother => hrest.low other hother)
      hroom hclear

theorem add_nothing {rx : TcpRxBuffer} {p : List UInt8} {seq headSeq tailSeq : Nat}
    {window : Nat × Nat} (hwindow : rx.trimWindow seq (add32 seq p.length) = window)
    (htrim : trimOverlap window.1 window.2 rx.size rx.data = ⟨headSeq, tailSeq, rx.size, rx.data⟩)
    (hge : Ge headSeq tailSeq) : rx.add p seq = some (rx, false) := by
  rw [TcpRxBuffer.add, hwindow]
  simp only [htrim]
  rw [if_pos hge]

theorem add_stores {rx next : TcpRxBuffer} {p bytes : List UInt8} {seq : Nat} {window : Nat × Nat}
    {trimmed : Trimmed} (hwindow : rx.trimWindow seq (add32 seq p.length) = window)
    (htrim : trimOverlap window.1 window.2 rx.size rx.data = trimmed)
    (hlt : ¬ Ge trimmed.headSeq trimmed.tailSeq)
    (hbytes : (p.drop (sub32 trimmed.headSeq seq)).take
      (sub32 trimmed.tailSeq trimmed.headSeq) = bytes)
    (hlength : bytes.length = sub32 trimmed.tailSeq trimmed.headSeq)
    (hstore : { rx with size := trimmed.size, data := trimmed.data }.store bytes trimmed.headSeq
      trimmed.tailSeq = some next) : rx.add p seq = some (next, true) := by
  rw [TcpRxBuffer.add, hwindow]
  simp only [htrim]
  rw [if_neg hlt, hbytes, if_pos hlength, hstore, Option.map_some]

/-- A segment of the stream is received. -/
theorem segment (holds : Holds first stream receiving front back) {start length : Nat}
    (fits : receiving.Fits first stream (.segment start length)) :
    ∃ next front' back', step first stream receiving (.segment start length) = some next ∧
      Holds first stream next front' back' ∧ next.edge stream = receiving.edge stream := by
  obtain ⟨hinside, hbefore, hbehind, window⟩ := fits
  have hword := holds.word
  have hreach := holds.reach
  have hsum : receiving.missing =
    receiving.extracted.length + receiving.buffer.availBytes := rfl
  have hlength : ((stream.drop start).take length).length = length := by
    rw [List.length_take, List.length_drop]
    omega
  have htailSeq : add32 (add32 first start) ((stream.drop start).take length).length =
      add32 first (start + length) := by
    rw [hlength, add32_add32]
  have hunchanged : receiving.buffer.add ((stream.drop start).take length) (add32 first start) =
      some (receiving.buffer, false) → ∃ next front' back',
        step first stream receiving (.segment start length) = some next ∧
        Holds first stream next front' back' ∧ next.edge stream = receiving.edge stream := by
    intro hadd
    exact ⟨receiving, front, back, by rw [step, hadd, Option.map_some], holds, rfl⟩
  rcases holds.trimWindow (Nat.le_add_right start length) hinside hbefore hbehind window with
    ⟨place, hwindow⟩ | ⟨hempty, hle, hwindow⟩ | ⟨tail, hlt, htail, hhigh, hnext, hwindow⟩
  · have hends : ∀ block ∈ receiving.buffer.data, Gt block.lastByteSeq block.1 := by
      rw [holds.data]
      intro block hmem
      obtain ⟨original, horiginal, rfl⟩ := List.mem_map.mp hmem
      have hlow := holds.blocks.low original horiginal
      have hend := holds.blocks.high original horiginal
      have hpos := holds.blocks.lt_last horiginal
      rw [atSequence_last]
      exact (gt_add32_iff first (by omega) (by omega)).mpr hpos
    have hsorted : receiving.buffer.data.Pairwise fun block other => Gt other.1 block.1 := by
      rw [holds.data]
      refine List.pairwise_map.mpr (holds.blocks.apart.imp_of_mem ?_)
      intro block other hblock hother hapart
      have hlow := holds.blocks.low block hblock
      have hpos := holds.blocks.lt_last hblock
      have hend := holds.blocks.high other hother
      have hpos' := holds.blocks.lt_last hother
      exact (gt_add32_iff first (by omega) (by omega)).mpr (by omega)
    obtain ⟨headSeq, tailSeq, htrim, hge⟩ :=
      @trimOverlap_empty (add32 first place) receiving.buffer.size _ hends hsorted
    exact hunchanged (add_nothing (by rw [htailSeq, hwindow]) htrim hge)
  · refine hunchanged (add_nothing (by rw [htailSeq, hwindow]) (by rw [hempty]; rfl) ?_)
    exact (ge_add32_iff first (by omega) (by omega)).mpr hle
  · have hbeforeAll : ∀ block ∈ front.map (atSequence first), Le block.1 (add32 first tail) ∧
        ¬ Gt block.lastByteSeq (add32 first (max start (receiving.next stream))) := by
      intro block hmem
      obtain ⟨original, horiginal, rfl⟩ := List.mem_map.mp hmem
      have hlow := holds.available.low original horiginal
      have hend := holds.available.high original horiginal
      have hpos := holds.available.lt_last horiginal
      rw [atSequence_last]
      refine ⟨(le_add32_iff first (by omega) (by omega)).mpr (by omega), fun hgt => ?_⟩
      exact absurd ((gt_add32_iff first (by omega) (by omega)).mp hgt) (by omega)
    have hsize := holds.size
    have hsizeLe := holds.size_le
    rw [totalSize_append] at hsize
    obtain ⟨head', tail', size', kept, htrim, htotal, trims⟩ :=
      @trimOverlap_trims first stream receiving.missing
        (receiving.extracted.length + receiving.buffer.maxBuffer) tail (by omega) hhigh back
        (holds.behind.weaken (Nat.le_succ _) (Nat.le_refl _)) (max start (receiving.next stream))
        receiving.buffer.size (by omega) hlt (by omega) (by omega)
    have hall : trimOverlap (add32 first (max start (receiving.next stream))) (add32 first tail)
        receiving.buffer.size receiving.buffer.data =
        ⟨add32 first head', add32 first tail', size', (front ++ kept).map (atSequence first)⟩ := by
      rw [holds.data, List.map_append, trimOverlap_before hbeforeAll, htrim, List.map_append]
    have hgrown := trims.grown
    have hshrunk := trims.shrunk
    have hlowTail := trims.tailStays (receiving.missing + 1) (by omega) holds.behind.low
    have hhighHead := trims.headWithin
      (receiving.extracted.length + receiving.buffer.maxBuffer) (by omega) holds.behind.high
    have hge : Ge (add32 first head') (add32 first tail') ↔ tail' ≤ head' :=
      ge_add32_iff first (by omega) (by omega)
    by_cases hleft : tail' ≤ head'
    · have hsame := trims.whole hleft
      refine hunchanged (add_nothing (by rw [htailSeq, hwindow]) ?_ (hge.mpr hleft))
      have hsizeSame : size' = receiving.buffer.size := by
        rw [hsame] at htotal
        omega
      rw [hall, holds.data, hsame, hsizeSame]
    · have hstart : sub32 (add32 first head') (add32 first start) = head' - start :=
        sub32_add32 first (by omega) (by omega)
      have hsub : sub32 (add32 first tail') (add32 first head') = tail' - head' :=
        sub32_add32 first (by omega) (by omega)
      obtain ⟨next, front', back', hstore, hholds, hedge⟩ :=
        @store first stream receiving front back holds hnext
          { receiving.buffer with
            size := totalSize (front ++ kept)
            data := (front ++ kept).map (atSequence first) } kept head' tail' rfl
          (holds.behind.sublist trims.sublist) trims.held (trims.free (by omega)) (by omega)
          (by omega) (by omega) (by omega)
      have hsizeKept : size' = totalSize (front ++ kept) := by
        rw [totalSize_append]
        omega
      have hadd : receiving.buffer.add ((stream.drop start).take length) (add32 first start) =
          some (next, true) := by
        refine add_stores (by rw [htailSeq, hwindow]) hall (fun h => hleft (hge.mp h)) ?_ ?_
          (hsizeKept ▸ hstore)
        · dsimp only
          rw [hstart, hsub, List.drop_take, List.drop_drop, List.take_take,
            Nat.add_sub_cancel' (by omega), Nat.min_eq_left (by omega)]
        · dsimp only
          rw [hsub, List.length_take, List.length_drop]
          omega
      exact ⟨_, front', back', by rw [step, hadd, Option.map_some], hholds, hedge⟩

/-! ## An extraction and the FIN -/

/-- The first available bytes are extracted. -/
theorem extract (holds : Holds first stream receiving front back) (maxSize : Nat) :
    ∃ next front' back', step first stream receiving (.extract maxSize) = some next ∧
      Holds first stream next front' back' := by
  have hword := holds.word
  have hreach := holds.reach
  have hinside := holds.inside
  have hsum : receiving.missing =
    receiving.extracted.length + receiving.buffer.availBytes := rfl
  obtain ⟨hnext, hfin⟩ := next_bounds stream receiving
  by_cases hnone : min maxSize receiving.buffer.availBytes = 0
  · have hextract : receiving.buffer.extract maxSize = some (receiving.buffer, none) := by
      rw [TcpRxBuffer.extract, if_pos hnone]
    refine ⟨receiving, front, back, ?_, holds⟩
    rw [step, hextract, Option.map_some]
    exact congrArg some (congrArg (Receiving.mk receiving.buffer) (List.append_nil _))
  · obtain ⟨size, hsize⟩ : ∃ size, size = min maxSize receiving.buffer.availBytes := ⟨_, rfl⟩
    have hle : size ≤ receiving.buffer.availBytes := hsize ▸ Nat.min_le_right _ _
    have htotal := holds.size
    have hfrontSize := holds.contiguous.totalSize_eq
    have hsizeLe := holds.size_le
    rw [totalSize_append] at htotal
    obtain ⟨left, htake, hleft, hapart⟩ := @takeBlocks_contiguous first stream
      (receiving.next stream) receiving.missing
      (receiving.extracted.length + receiving.buffer.maxBuffer) back hnext
      (fun block hmem => ⟨holds.behind.low block hmem,
        Nat.le_trans (Nat.le_add_right _ _) (holds.behind.high block hmem)⟩) front
      receiving.extracted.length size (by omega) (by omega) holds.contiguous holds.available
      (by omega)
    have hall : receiving.buffer.extract maxSize = some ({ receiving.buffer with
        data := (left ++ back).map (atSequence first)
        size := receiving.buffer.size - size
        availBytes := receiving.buffer.availBytes - size },
        some ((stream.drop receiving.extracted.length).take size)) := by
      rw [← holds.data, ← holds.nextRxSeq] at htake
      rw [TcpRxBuffer.extract, ← hsize, if_neg (hsize ▸ hnone), htake, Option.map_some,
        sub32_eq (by omega) (by omega), sub32_eq hle (by omega)]
    obtain ⟨state, hstate⟩ : ∃ state : Receiving, state =
        { buffer := { receiving.buffer with
            data := (left ++ back).map (atSequence first)
            size := receiving.buffer.size - size
            availBytes := receiving.buffer.availBytes - size }
          extracted := receiving.extracted ++ (stream.drop receiving.extracted.length).take size } :=
      ⟨_, rfl⟩
    have hextracted : state.extracted.length = receiving.extracted.length + size := by
      rw [hstate, List.length_append, List.length_take, List.length_drop]
      omega
    have havail : state.buffer.availBytes = receiving.buffer.availBytes - size := by rw [hstate]
    have hmax : state.buffer.maxBuffer = receiving.buffer.maxBuffer := by rw [hstate]
    have hmissing : state.missing = receiving.missing := by
      rw [Receiving.missing, hextracted, havail]
      omega
    have hgot : state.buffer.gotFin = receiving.buffer.gotFin := by rw [hstate]
    have hsame : state.next stream = receiving.next stream := by
      rw [Receiving.next, Receiving.next, hmissing, hgot]
    refine ⟨state, left, back, by rw [step, hall, hstate]; rfl, ?_⟩
    constructor
    · rw [hextracted, hstate, List.take_add, ← holds.extracted]
    · rw [hmissing]
      exact hinside
    · rw [hstate]
    · rw [hextracted, hmissing]
      exact hleft
    · rw [hextracted, hmissing]
      exact hapart
    · rw [hmissing, hextracted, hmax]
      exact holds.behind.weaken (Nat.le_refl _) (by omega)
    · rw [havail, hmax]
      omega
    · rw [hmax]
      exact hword
    · have hstateSize : state.buffer.size = receiving.buffer.size - size := by rw [hstate]
      have hafter := hleft.totalSize_eq
      rw [totalSize_append, hstateSize]
      omega
    · rw [hsame, hstate]
      exact holds.nextRxSeq
    · rw [hgot, hsame, hstate]
      exact holds.finSeq
    · rw [hmissing, hextracted, hmax, hstate]
      intro block hmem
      obtain ⟨head, last, rfl, hafter, hlt, hhigh, hheld⟩ := holds.reported block hmem
      exact ⟨head, last, rfl, hafter, hlt, by omega, hheld⟩

/-- The FIN is received. -/
theorem fin (holds : Holds first stream receiving front back)
    (fits : receiving.Fits first stream .fin) :
    ∃ next, step first stream receiving .fin = some next ∧ Holds first stream next front back := by
  have hinside := holds.inside
  have hnear : stream.length < receiving.next stream + 2147483648 := fits
  have hsum : receiving.missing =
    receiving.extracted.length + receiving.buffer.availBytes := rfl
  have hbounds := next_bounds stream receiving
  have hend : receiving.buffer.setFinSequence (add32 first stream.length) = { receiving.buffer with
      gotFin := true
      finSeq := add32 first stream.length
      nextRxSeq := add32 first
        (receiving.missing + if receiving.missing = stream.length then 1 else 0) } := by
    have hsame : receiving.buffer.nextRxSeq = add32 first stream.length ↔
        receiving.next stream = stream.length := by
      rw [holds.nextRxSeq]
      exact add32_inj first (by omega) (by omega)
    rw [TcpRxBuffer.setFinSequence, TcpRxBuffer.countFin]
    by_cases hcounted : receiving.next stream = stream.length
    · have hreached : receiving.missing = stream.length := by
        rw [Receiving.next] at hcounted
        split at hcounted
        · next hboth => exact hboth.2
        · exact hcounted
      rw [if_pos (hsame.mpr hcounted), if_pos hreached, hreached, holds.nextRxSeq, hcounted,
        add32_add32]
    · have hplace : receiving.next stream =
          receiving.missing + if receiving.missing = stream.length then 1 else 0 := by
        rw [Receiving.next] at hcounted ⊢
        by_cases hreached : receiving.missing = stream.length
        · by_cases hgot : receiving.buffer.gotFin = true
          · rw [if_pos ⟨hgot, hreached⟩, if_pos hreached]
          · rw [if_neg fun h => hgot h.1] at hcounted
            exact absurd hreached hcounted
        · rw [if_neg fun h => hreached h.2, if_neg hreached]
      rw [if_neg fun h => hcounted (hsame.mp h), ← hplace, ← holds.nextRxSeq]
  obtain ⟨state, hstate⟩ : ∃ state : Receiving, state = { receiving with
    buffer := receiving.buffer.setFinSequence (add32 first stream.length) } := ⟨_, rfl⟩
  refine ⟨state, by rw [step, hstate], ?_⟩
  rw [hend] at hstate
  have hextracted : state.extracted = receiving.extracted := by rw [hstate]
  have havail : state.buffer.availBytes = receiving.buffer.availBytes := by rw [hstate]
  have hgot : state.buffer.gotFin = true := by rw [hstate]
  have hmax : state.buffer.maxBuffer = receiving.buffer.maxBuffer := by rw [hstate]
  have hmissing : state.missing = receiving.missing := by
    rw [Receiving.missing, hextracted, havail]
    rfl
  have hnext : state.next stream =
      receiving.missing + if receiving.missing = stream.length then 1 else 0 := by
    rw [Receiving.next, hmissing, hgot]
    simp only [true_and]
  constructor
  · rw [hextracted]
    exact holds.extracted
  · rw [hmissing]
    exact hinside
  · rw [hstate]
    exact holds.data
  · rw [hextracted, hmissing]
    exact holds.contiguous
  · rw [hextracted, hmissing]
    exact holds.available
  · rw [hextracted, hmissing, hmax]
    exact holds.behind
  · rw [havail, hmax]
    exact holds.reach
  · rw [hmax]
    exact holds.word
  · rw [hstate]
    exact holds.size
  · rw [hnext, hstate]
  · intro _
    refine ⟨by rw [hstate], ?_⟩
    rw [hnext]
    by_cases hreached : receiving.missing = stream.length
    · omega
    · rw [Receiving.next, if_neg fun h => hreached h.2] at hnear
      rw [if_neg hreached]
      exact hnear
  · rw [hmissing, hextracted, hmax, hstate]
    exact holds.reported

end Holds

/-! ## Runs -/

/-- A fitting event is processed and keeps the invariant. -/
theorem step_holds {event : RxEvent} (holds : ∃ front back, Holds first stream receiving front back)
    (fits : receiving.Fits first stream event) :
    ∃ next, step first stream receiving event = some next ∧
      ∃ front back, Holds first stream next front back := by
  obtain ⟨front, back, holds⟩ := holds
  cases event with
  | segment start length =>
      obtain ⟨next, front', back', hstep, hnext, -⟩ := holds.segment fits
      exact ⟨next, hstep, front', back', hnext⟩
  | extract maxSize =>
      obtain ⟨next, front', back', hstep, hnext⟩ := holds.extract maxSize
      exact ⟨next, hstep, front', back', hnext⟩
  | fin =>
      obtain ⟨next, hstep, hnext⟩ := holds.fin fits
      exact ⟨next, hstep, front, back, hnext⟩

/-- In every run whose segments fit the window the stream is reassembled, and the next fitting segment
stores nothing at or behind the limit announced before it. -/
theorem stream_reassembled (first : Nat) (hfirst : first < 4294967296) {maxBuffer : Nat}
    (hword : maxBuffer < 2147483647) (stream : List UInt8) {events : List RxEvent}
    (hfits : Foundation.Runs.Fitting (step first stream) (Fits first stream) (create first maxBuffer)
      events) :
    ∃ receiving blocks, (create first maxBuffer).run first stream events = some receiving ∧
      Reassembled first stream receiving blocks ∧
      ∀ start length, receiving.Fits first stream (.segment start length) →
        ∃ next others, step first stream receiving (.segment start length) = some next ∧
          Reassembled first stream next others ∧
          ∀ block ∈ others, block.last ≤ receiving.edge stream := by
  obtain ⟨receiving, hrun, front, back, holds⟩ := Foundation.Runs.exists_run_of_fitting
    (step first stream) (fun receiving => ∃ front back, Holds first stream receiving front back)
    (fun _ _ holds fits => step_holds holds fits) ⟨[], [], create_holds hword hfirst stream⟩ hfits
  refine ⟨receiving, front ++ back, hrun, holds.reassembled, fun start length fits => ?_⟩
  obtain ⟨next, front', back', hstep, hnext, hedge⟩ := holds.segment fits
  exact ⟨next, front' ++ back', hstep, hnext.reassembled, hedge ▸ hnext.reassembled.stored.high⟩

/-- Twelve bytes across the wrap, with segments out of order, embedded and overlapping. -/
theorem stream_reassembled_wrapped :
    ∃ receiving blocks,
      (create 4294967290 8).run 4294967290 [1, 2, 3, 4, 5, 6, 7, 8, 9, 10, 11, 12]
        [.segment 4 1, .segment 3 3, .segment 0 2, .segment 1 5, .extract 4, .fin, .segment 5 7,
          .extract 30] = some receiving ∧
      Reassembled 4294967290 [1, 2, 3, 4, 5, 6, 7, 8, 9, 10, 11, 12] receiving blocks := by
  obtain ⟨receiving, blocks, hrun, reassembled, -⟩ := 
    @stream_reassembled 4294967290 (by decide) 8 (by decide) [1, 2, 3, 4, 5, 6, 7, 8, 9, 10, 11, 12]
      [.segment 4 1, .segment 3 3, .segment 0 2, .segment 1 5, .extract 4, .fin, .segment 5 7,
        .extract 30] (by decide +kernel)
  exact ⟨receiving, blocks, hrun, reassembled⟩

/-- With an empty buffer a segment is not trimmed to the window: ten bytes are stored where four are
announced. -/
theorem stream_notTrimmed :
    (create 1 4).buffer.maxRxSequence = add32 1 4 ∧
    ∃ receiving, (create 1 4).run 1 [1, 2, 3, 4, 5, 6, 7, 8, 9, 10] [.segment 0 10] = some receiving ∧
      receiving.buffer.data = [(1, [1, 2, 3, 4, 5, 6, 7, 8, 9, 10])] ∧
      receiving.buffer.maxBuffer < receiving.buffer.size := by
  have hsome : (((create 1 4).run 1 [1, 2, 3, 4, 5, 6, 7, 8, 9, 10] [.segment 0 10]).any
      fun receiving => decide (receiving.buffer.data = [(1, [1, 2, 3, 4, 5, 6, 7, 8, 9, 10])] ∧
        receiving.buffer.maxBuffer < receiving.buffer.size)) = true := by decide +kernel
  obtain ⟨receiving, hrun, hboth⟩ := (Option.any_eq_true _ _).mp hsome
  exact ⟨by decide, receiving, hrun, of_decide_eq_true hboth⟩

end Receiving

end DeepcV2x.Tcp
