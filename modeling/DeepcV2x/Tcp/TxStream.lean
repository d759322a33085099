import DeepcV2x.Tcp.Recut

/-!
# The byte stream

Sent items and application data are together the accepted bytes without the
acknowledged ones; every sent item has the sequence number of its position, and
an item that is returned carries the bytes of the stream at the number asked for.
-/

namespace DeepcV2x.Tcp

open SequenceNumber32

/-! ## Positions -/

/-- Each item begins where the one before it ends. -/
def Placed (firstByteSeq : Nat) : Nat → List TcpTxItem → Prop
  | _, [] => True
  | offset, item :: items =>
      item.startSeq = add32 firstByteSeq offset ∧ Placed firstByteSeq (offset + item.size) items

theorem placed_append {firstByteSeq : Nat} (items others : List TcpTxItem) : ∀ offset,
    Placed firstByteSeq offset (items ++ others) ↔ Placed firstByteSeq offset items ∧
      Placed firstByteSeq (offset + (stream items).length) others := by
  induction items with
  | nil => exact fun _ => ⟨fun placed => ⟨trivial, placed⟩, And.right⟩
  | cons item items ih =>
      intro offset
      rw [List.cons_append, Placed, Placed, ih, stream_cons, List.length_append, and_assoc,
        TcpTxItem.size, Nat.add_assoc]

theorem placed_shift {firstByteSeq delta : Nat} (items : List TcpTxItem) : ∀ offset,
    Placed (add32 firstByteSeq delta) offset items ↔ Placed firstByteSeq (delta + offset) items := by
  induction items with
  | nil => exact fun _ => Iff.rfl
  | cons item items ih =>
      intro offset
      rw [Placed, Placed, ih, add32_add32, Nat.add_assoc]

theorem Edit.placed {firstByteSeq offset : Nat} {left right : List TcpTxItem × Nat}
    (edit : Edit left right) (placed : Placed firstByteSeq offset left.1) :
    Placed firstByteSeq offset right.1 := by
  cases edit with
  | split before item after node size retrans hpos hlt =>
      rw [placed_append] at placed ⊢
      obtain ⟨hbefore, hstart, hafter⟩ := placed
      have hlength : (item.packet.take size).length = size := by
        rw [TcpTxItem.size] at hlt
        rw [List.length_take, Nat.min_eq_left (Nat.le_of_lt hlt)]
      refine ⟨hbefore, hstart, ?_, ?_⟩
      · show add32 item.startSeq size = add32 firstByteSeq (_ + (item.packet.take size).length)
        rw [hstart, add32_add32, hlength]
      · show Placed firstByteSeq (_ + (item.packet.take size).length + (item.packet.drop size).length)
          after
        rw [Nat.add_assoc, ← List.length_append, List.take_append_drop]
        exact hafter
  | merge before t1 t2 after hmerge =>
      obtain ⟨-, -, hpacket, hstart, -⟩ := mergeItems_some hmerge
      rw [placed_append] at placed ⊢
      obtain ⟨hbefore, hfirst, -, hafter⟩ := placed
      refine ⟨hbefore, hstart.trans hfirst, ?_⟩
      rw [TcpTxItem.size, hpacket, List.length_append, ← Nat.add_assoc]
      exact hafter

theorem Edits.placed {firstByteSeq offset : Nat} {left right : List TcpTxItem × Nat}
    (edits : Edits left right) (placed : Placed firstByteSeq offset left.1) :
    Placed firstByteSeq offset right.1 := by
  induction edits with
  | refl => exact placed
  | tail _ edit ih => exact edit.placed ih

/-- The number and the bytes of an item, without its flags. -/
def TcpTxItem.label (item : TcpTxItem) : Nat × List UInt8 := (item.startSeq, item.packet)

theorem stream_label {items others : List TcpTxItem}
    (hlabel : items.map TcpTxItem.label = others.map TcpTxItem.label) : stream items = stream others := by
  have hstream : ∀ list : List TcpTxItem, stream list = (list.map TcpTxItem.label).flatMap Prod.snd := by
    intro list
    rw [List.flatMap_map]
    rfl
  rw [hstream, hstream, hlabel]

theorem nonEmpty_label {items others : List TcpTxItem}
    (hlabel : items.map TcpTxItem.label = others.map TcpTxItem.label) (nonEmpty : NonEmpty others) :
    NonEmpty items := by
  intro item hmem
  have hmap := @List.mem_map_of_mem _ _ _ _ TcpTxItem.label hmem
  rw [hlabel] at hmap
  obtain ⟨other, hother, heq⟩ := List.mem_map.mp hmap
  rw [show item.packet = other.packet from (congrArg Prod.snd heq).symm]
  exact nonEmpty other hother

theorem placed_label {firstByteSeq : Nat} (items : List TcpTxItem) :
    ∀ {others : List TcpTxItem} {offset : Nat},
      items.map TcpTxItem.label = others.map TcpTxItem.label →
      Placed firstByteSeq offset others → Placed firstByteSeq offset items := by
  induction items with
  | nil => exact fun _ _ => trivial
  | cons item items ih =>
      intro others offset hlabel placed
      cases others with
      | nil => cases hlabel
      | cons other others =>
          obtain ⟨hhead, htail⟩ := List.cons.inj hlabel
          have hstart : item.startSeq = other.startSeq := congrArg Prod.fst hhead
          have hpacket : item.packet = other.packet := congrArg Prod.snd hhead
          refine ⟨hstart.trans placed.1, ih htail ?_⟩
          rw [TcpTxItem.size, hpacket]
          exact placed.2

/-! ## The invariant -/

/-- The buffer holds the given bytes. -/
structure Stream (tx : TcpTxBuffer) (remaining : List UInt8) : Prop where
  bytes : stream tx.sentList ++ stream tx.appList = remaining
  sentNonEmpty : NonEmpty tx.sentList
  appNonEmpty : NonEmpty tx.appList
  placed : Placed tx.firstByteSeq 0 tx.sentList
  size : tx.size = remaining.length
  sentSize : tx.sentSize = (stream tx.sentList).length
  fits : tx.size ≤ tx.maxBuffer
  maxBuffer : tx.maxBuffer < 4294967296
  firstByteSeq : tx.firstByteSeq < 4294967296

namespace Stream

variable {tx next : TcpTxBuffer} {remaining : List UInt8}

theorem length_lt (holds : Stream tx remaining) :
    (stream tx.sentList).length + (stream tx.appList).length < 4294967296 := by
  have hsize := holds.size
  rw [← holds.bytes, List.length_append] at hsize
  have := holds.fits
  have := holds.maxBuffer
  omega

/-- Changes of the flags keep the stream. -/
theorem relabel (holds : Stream tx remaining)
    (hsent : next.sentList.map TcpTxItem.label = tx.sentList.map TcpTxItem.label)
    (happ : next.appList = tx.appList) (hmax : next.maxBuffer = tx.maxBuffer)
    (hsize : next.size = tx.size) (hsentSize : next.sentSize = tx.sentSize)
    (hfirst : next.firstByteSeq = tx.firstByteSeq) : Stream next remaining where
  bytes := by rw [stream_label hsent, happ, holds.bytes]
  sentNonEmpty := nonEmpty_label hsent holds.sentNonEmpty
  appNonEmpty := by rw [happ]; exact holds.appNonEmpty
  placed := by rw [hfirst]; exact placed_label _ hsent holds.placed
  size := hsize.trans holds.size
  sentSize := by rw [hsentSize, stream_label hsent]; exact holds.sentSize
  fits := by rw [hsize, hmax]; exact holds.fits
  maxBuffer := by rw [hmax]; exact holds.maxBuffer
  firstByteSeq := by rw [hfirst]; exact holds.firstByteSeq

/-! ## Adding and copying -/

theorem available (holds : Stream tx remaining) : tx.available = tx.maxBuffer - tx.size := by
  have := holds.fits
  have := holds.maxBuffer
  rw [TcpTxBuffer.available, sub32]
  omega

theorem add (holds : Stream tx remaining) (packet : List UInt8) :
    Stream (tx.add packet).1 (if (tx.add packet).2 then remaining ++ packet else remaining) := by
  have hfits := holds.fits
  have hmax := holds.maxBuffer
  have havailable := holds.available
  rw [TcpTxBuffer.add]
  split
  next hroom =>
    split
    next hpos =>
      have hsize : add32 tx.size packet.length = tx.size + packet.length := by
        rw [add32]
        omega
      exact {
        bytes := by
          rw [if_pos rfl, ← holds.bytes]
          simp only [stream_append, stream_cons, stream_nil, List.append_nil, List.append_assoc]
        sentNonEmpty := holds.sentNonEmpty
        appNonEmpty := by
          intro item hmem
          rcases List.mem_append.mp hmem with hmem | hmem
          · exact holds.appNonEmpty item hmem
          · cases List.mem_singleton.mp hmem
            exact List.length_pos_iff.mp hpos
        placed := holds.placed
        size := by
          show add32 tx.size packet.length = _
          rw [if_pos rfl, List.length_append, hsize, holds.size]
        sentSize := holds.sentSize
        fits := by
          show add32 tx.size packet.length ≤ tx.maxBuffer
          omega
        maxBuffer := hmax
        firstByteSeq := holds.firstByteSeq }
    next hzero =>
      obtain rfl : packet = [] := List.length_eq_zero_iff.mp (by omega)
      rw [if_pos rfl, List.append_nil]
      exact holds
  next => exact holds

/-- What a call of `CopyFromSequence` returns: an item of at most the requested bytes, which are
those of the stream at the requested number. -/
structure Carries (firstByteSeq : Nat) (remaining : List UInt8) (numBytes seq : Nat)
    (item : TcpTxItem) : Prop where
  startSeq : item.startSeq = seq
  size_pos : 0 < item.size
  size_le : item.size ≤ numBytes
  bytes : ∃ offset, seq = add32 firstByteSeq offset ∧ offset + item.size ≤ remaining.length ∧
    item.packet = (remaining.drop offset).take item.size

/-- The place of an item in the sent list tells the bytes it carries. -/
theorem carries_of_place (holds : Stream tx remaining) {before after : List TcpTxItem}
    {item : TcpTxItem} (hlist : tx.sentList = before ++ item :: after) {numBytes seq : Nat}
    (hseq : add32 tx.firstByteSeq (stream before).length = seq) (hle : item.size ≤ numBytes) :
    Carries tx.firstByteSeq remaining numBytes seq item := by
  have hplaced := holds.placed
  rw [hlist, placed_append, Nat.zero_add] at hplaced
  have hbytes := holds.bytes
  rw [hlist, stream_append, stream_cons, List.append_assoc, List.append_assoc] at hbytes
  refine ⟨hplaced.2.1.trans hseq, ?_, hle, (stream before).length, hseq.symm, ?_, ?_⟩
  · exact holds.sentNonEmpty.size_pos (by rw [hlist]; exact List.mem_append_right _ List.mem_cons_self)
  · rw [← hbytes, List.length_append, List.length_append, TcpTxItem.size]
    omega
  · rw [← hbytes, List.drop_left, TcpTxItem.size, List.take_left]

/-- The application data begins behind the sent items, so its first item is found first. -/
theorem before_nil (holds : Stream tx remaining) {before : List TcpTxItem}
    (nonEmpty : NonEmpty before) (hle : (stream before).length ≤ (stream tx.appList).length)
    (hseq : add32 (add32 tx.firstByteSeq tx.sentSize) (stream before).length =
      add32 tx.firstByteSeq tx.sentSize) : before = [] := by
  have hlength := holds.length_lt
  have hsent := holds.sentSize
  refine nonEmpty.eq_nil ?_
  simp only [add32] at hseq
  omega

theorem getNewSegment (holds : Stream tx remaining) {numBytes : Nat} (hpos : 0 < numBytes)
    (hsmall : numBytes < 4294967296) {out : TcpTxBuffer.OutItem}
    (hout : tx.getNewSegment numBytes = some out) :
    Stream { out.tx with sentList := out.before ++ out.item :: out.after } remaining ∧
      add32 out.tx.firstByteSeq (stream out.before).length = add32 tx.firstByteSeq tx.sentSize ∧
      out.item.size ≤ numBytes ∧ out.tx.firstByteSeq = tx.firstByteSeq := by
  have hbelow : add32 tx.firstByteSeq tx.sentSize < 4294967296 := Nat.mod_lt _ (by decide)
  have hlength := holds.length_lt
  obtain ⟨found, hfound, rfl⟩ := Option.map_eq_some_iff.mp hout
  obtain ⟨hedits, hseq, hle⟩ := getPacketFromList_spec hbelow hbelow hpos hsmall _ holds.appNonEmpty
    (by omega) hfound
  have hstream := hedits.stream
  have hnonEmpty := hedits.nonEmpty holds.appNonEmpty
  simp only [stream_append, stream_cons] at hstream
  have hbefore : found.before = [] := by
    refine holds.before_nil
      (fun item hmem => hnonEmpty item (List.mem_append_left _ hmem)) ?_ hseq
    rw [← hstream, List.length_append]
    omega
  simp only [hbefore, stream_nil, List.nil_append] at hstream hnonEmpty
  have hitem := hnonEmpty found.item List.mem_cons_self
  refine ⟨?_, by rw [holds.sentSize], hle, rfl⟩
  have hsentSize : add32 tx.sentSize found.item.size =
      (stream tx.sentList).length + found.item.packet.length := by
    rw [← hstream, List.length_append] at hlength
    rw [holds.sentSize, add32, TcpTxItem.size]
    omega
  exact {
    bytes := by
      rw [← holds.bytes, ← hstream, hbefore]
      simp only [stream_append, stream_cons, stream_nil, List.nil_append, List.append_nil,
        List.append_assoc]
    sentNonEmpty := by
      intro item hmem
      rcases List.mem_append.mp hmem with hmem | hmem
      · exact holds.sentNonEmpty item hmem
      · cases List.mem_singleton.mp hmem
        exact hitem
    appNonEmpty := by
      rw [hbefore]
      exact fun item hmem => hnonEmpty item (List.mem_cons_of_mem _ hmem)
    placed := by
      rw [placed_append, Nat.zero_add]
      refine ⟨holds.placed, ?_, trivial⟩
      rw [holds.sentSize]
    size := holds.size
    sentSize := by
      show add32 tx.sentSize found.item.size = _
      rw [hsentSize, stream_append, List.length_append, stream_cons, stream_nil, List.append_nil]
    fits := holds.fits
    maxBuffer := holds.maxBuffer
    firstByteSeq := holds.firstByteSeq }

theorem retransmitSize_bounds {numBytes seq : Nat} (hpos : 0 < numBytes) (items : List TcpTxItem)
    (nonEmpty : NonEmpty items) (hlength : (stream items).length < 4294967296) :
    0 < TcpTxBuffer.retransmitSize numBytes seq items ∧
      TcpTxBuffer.retransmitSize numBytes seq items ≤ numBytes := by
  induction items with
  | nil => exact ⟨hpos, Nat.le_refl _⟩
  | cons item items ih =>
      have hitem := nonEmpty.size_pos List.mem_cons_self
      rw [TcpTxBuffer.retransmitSize.eq_def]
      simp only
      split
      next =>
        split
        next => exact ⟨Nat.lt_min.mpr ⟨hpos, hitem⟩, Nat.min_le_left _ _⟩
        next next items =>
          split
          next =>
            refine ⟨Nat.lt_min.mpr ⟨hpos, ?_⟩, Nat.min_le_left _ _⟩
            rw [stream_cons, stream_cons, List.length_append, List.length_append] at hlength
            rw [TcpTxItem.size] at hitem
            rw [add32, TcpTxItem.size, TcpTxItem.size]
            omega
          next => exact ⟨Nat.lt_min.mpr ⟨hpos, hitem⟩, Nat.min_le_left _ _⟩
      next =>
        rw [stream_cons, List.length_append] at hlength
        exact ih (fun other hmem => nonEmpty other (List.mem_cons_of_mem _ hmem)) (by omega)

theorem getTransmittedSegment (holds : Stream tx remaining) {numBytes seq : Nat}
    (hpos : 0 < numBytes) (hsmall : numBytes < 4294967296) (hseq : seq < 4294967296)
    {out : TcpTxBuffer.OutItem} (hout : tx.getTransmittedSegment numBytes seq = some out) :
    Stream { out.tx with sentList := out.before ++ out.item :: out.after } remaining ∧
      add32 out.tx.firstByteSeq (stream out.before).length = seq ∧ out.item.size ≤ numBytes ∧
      out.tx.firstByteSeq = tx.firstByteSeq := by
  rw [TcpTxBuffer.getTransmittedSegment] at hout
  split at hout
  next =>
    have hlength := holds.length_lt
    obtain ⟨hbytes, hatMost⟩ := @retransmitSize_bounds numBytes seq hpos tx.sentList
      holds.sentNonEmpty (by omega)
    obtain ⟨found, hfound, rfl⟩ := Option.map_eq_some_iff.mp hout
    obtain ⟨hedits, hplace, hle⟩ := getPacketFromList_spec hseq holds.firstByteSeq hbytes (by omega) _
      holds.sentNonEmpty (by omega) hfound
    have hedited : Stream
        { tx with sentList := found.before ++ found.item :: found.after } remaining :=
      { bytes := by
          rw [hedits.stream]
          exact holds.bytes
        sentNonEmpty := hedits.nonEmpty holds.sentNonEmpty
        appNonEmpty := holds.appNonEmpty
        placed := hedits.placed holds.placed
        size := holds.size
        sentSize := by
          rw [hedits.stream]
          exact holds.sentSize
        fits := holds.fits
        maxBuffer := holds.maxBuffer
        firstByteSeq := holds.firstByteSeq }
    refine ⟨hedited.relabel ?_ rfl rfl rfl rfl rfl, hplace, hle.trans hatMost, rfl⟩
    rw [List.map_append, List.map_append, List.map_cons, List.map_cons]
    rfl
  next => cases hout

theorem send {numBytes seq now : Nat} {out : TcpTxBuffer.OutItem}
    (holds : Stream { out.tx with sentList := out.before ++ out.item :: out.after } remaining)
    (hseq : add32 out.tx.firstByteSeq (stream out.before).length = seq)
    (hle : out.item.size ≤ numBytes) {result : TcpTxBuffer × Option TcpTxItem}
    (hsend : out.send now = some result) :
    Stream result.1 remaining ∧ result.1.firstByteSeq = out.tx.firstByteSeq ∧
      ∀ item ∈ result.2, Carries out.tx.firstByteSeq remaining numBytes seq item := by
  rw [TcpTxBuffer.OutItem.send] at hsend
  split at hsend
  next =>
    cases hsend
    have hsent : Stream
        { out.tx with sentList := out.before ++ { out.item with lastSent := now } :: out.after }
        remaining := by
      refine holds.relabel ?_ rfl rfl rfl rfl rfl
      rw [List.map_append, List.map_append, List.map_cons, List.map_cons]
      rfl
    refine ⟨hsent, rfl, fun item hitem => ?_⟩
    obtain rfl := Option.some.inj hitem
    exact hsent.carries_of_place rfl hseq hle
  next => cases hsend

/-- A copied block keeps the stream, and the item returned carries its bytes. -/
def Copies (tx : TcpTxBuffer) (remaining : List UInt8) (numBytes seq : Nat)
    (result : Option (TcpTxBuffer × Option TcpTxItem)) : Prop :=
  ∀ next out, result = some (next, out) → Stream next remaining ∧
    next.firstByteSeq = tx.firstByteSeq ∧
    ∀ item ∈ out, Carries tx.firstByteSeq remaining numBytes seq item

theorem copyBlock (holds : Stream tx remaining) {now numBytes seq : Nat}
    (hsmall : numBytes < 4294967296) (hseq : seq < 4294967296)
    {recurse : Nat → Option (TcpTxBuffer × Option TcpTxItem)}
    (hrecurse : ∀ amount, amount ≤ numBytes → Copies tx remaining numBytes seq (recurse amount)) :
    Copies tx remaining numBytes seq (tx.copyBlock recurse now numBytes seq) := by
  intro next out hcopy
  rcases TcpTxBuffer.copyBlock_cases hcopy with hnothing | ⟨s, hpos, hle, hcases⟩
  · cases hnothing
    exact ⟨holds, rfl, fun _ hitem => nomatch hitem⟩
  · rcases hcases with ⟨item, hitem, -, hsend⟩ | ⟨item, heq, hitem, -, hsend⟩ |
      ⟨hbelow, habove, hinner⟩
    · obtain ⟨hstream, hplace, hsize, hfirst⟩ :=
        holds.getTransmittedSegment hpos (hle.trans_lt hsmall) hseq hitem
      have hsent := hstream.send hplace (hsize.trans hle) hsend
      rw [hfirst] at hsent
      exact hsent
    · obtain ⟨hstream, hplace, hsize, hfirst⟩ :=
        holds.getNewSegment hpos (hle.trans_lt hsmall) hitem
      have hsent := hstream.send (hplace.trans heq) (hsize.trans hle) hsend
      rw [hfirst] at hsent
      exact hsent
    · refine hrecurse _ ?_ next out hinner
      have hend : add32 tx.firstByteSeq tx.sentSize < 4294967296 := Nat.mod_lt _ (by decide)
      have : sub32 (add32 tx.firstByteSeq tx.sentSize) seq ≤ s := by
        simp only [add32, sub32] at *
        omega
      omega

theorem Copies.mono {result : Option (TcpTxBuffer × Option TcpTxItem)} {amount numBytes seq : Nat}
    (copies : Copies tx remaining amount seq result) (hle : amount ≤ numBytes) :
    Copies tx remaining numBytes seq result := by
  intro next out hcopy
  obtain ⟨hstream, hfirst, hcarries⟩ := copies next out hcopy
  exact ⟨hstream, hfirst, fun item hitem =>
    { hcarries item hitem with size_le := (hcarries item hitem).size_le.trans hle }⟩

theorem copyFromSequence (holds : Stream tx remaining) {now numBytes seq : Nat}
    (hsmall : numBytes < 4294967296) (hseq : seq < 4294967296) :
    Copies tx remaining numBytes seq (tx.copyFromSequence now numBytes seq) :=
  holds.copyBlock hsmall hseq fun _ hle =>
    (holds.copyBlock (hle.trans_lt hsmall) hseq fun _ _ _ _ hnone =>
      absurd hnone.symm (Option.some_ne_none _)).mono hle

/-- The call for the sent part of a block calls itself no more. -/
theorem copyBlock_sentPart {now seq : Nat}
    (recurse others : Nat → Option (TcpTxBuffer × Option TcpTxItem))
    (hseq : seq < add32 tx.firstByteSeq tx.sentSize) :
    tx.copyBlock recurse now (sub32 (add32 tx.firstByteSeq tx.sentSize) seq) seq =
      tx.copyBlock others now (sub32 (add32 tx.firstByteSeq tx.sentSize) seq) seq := by
  have hend : add32 tx.firstByteSeq tx.sentSize < 4294967296 := Nat.mod_lt _ (by decide)
  have hnone : ¬ (seq < add32 tx.firstByteSeq tx.sentSize ∧ add32 tx.firstByteSeq tx.sentSize <
      add32 seq (min (sub32 (add32 tx.firstByteSeq tx.sentSize) seq) (tx.sizeFromSequence seq))) := by
    generalize add32 tx.firstByteSeq tx.sentSize = endOfSent at hseq hend
    simp only [add32, sub32]
    omega
  rw [TcpTxBuffer.copyBlock, TcpTxBuffer.copyBlock]
  simp only [if_neg hnone]

/-- `CopyFromSequence` calls itself for the sent part of a block that is partly new. -/
theorem copyFromSequence_eq (now numBytes seq : Nat) :
    tx.copyFromSequence now numBytes seq =
      tx.copyBlock (fun amount => tx.copyFromSequence now amount seq) now numBytes seq := by
  rw [TcpTxBuffer.copyFromSequence, TcpTxBuffer.copyBlock, TcpTxBuffer.copyBlock]
  by_cases hseq : seq < add32 tx.firstByteSeq tx.sentSize
  · simp only [TcpTxBuffer.copyFromSequence, copyBlock_sentPart _ (fun _ => none) hseq]
  · simp only [hseq, false_and, if_false]

/-- An item that is returned is in the sent list. -/
theorem copyBlock_sent {recurse : Nat → Option (TcpTxBuffer × Option TcpTxItem)}
    {now numBytes seq : Nat} {copied : TcpTxBuffer} {out : Option TcpTxItem}
    (hrecurse : ∀ amount, recurse amount = some (copied, out) → out ≠ none → copied.sentList ≠ [])
    (hcopy : tx.copyBlock recurse now numBytes seq = some (copied, out)) (hsome : out ≠ none) :
    copied.sentList ≠ [] := by
  have hsend : ∀ item : TcpTxBuffer.OutItem, item.send now = some (copied, out) →
      copied.sentList ≠ [] := by
    intro item hitem
    cases TcpTxBuffer.OutItem.send_some hitem
    exact List.append_ne_nil_of_right_ne_nil _ (List.cons_ne_nil _ _)
  rcases TcpTxBuffer.copyBlock_cases hcopy with hnothing | ⟨_, -, -, hcases⟩
  · cases hnothing
    exact absurd rfl hsome
  · rcases hcases with ⟨item, -, -, hitem⟩ | ⟨item, -, -, -, hitem⟩ | ⟨-, -, hinner⟩
    · exact hsend item hitem
    · exact hsend item hitem
    · exact hrecurse _ hinner hsome

theorem copyFromSequence_sent {now numBytes seq : Nat} {copied : TcpTxBuffer}
    {out : Option TcpTxItem} (hcopy : tx.copyFromSequence now numBytes seq = some (copied, out))
    (hsome : out ≠ none) : copied.sentList ≠ [] :=
  copyBlock_sent (fun _ hinner hout => copyBlock_sent
    (fun _ hnone => absurd hnone.symm (Option.some_ne_none _)) hinner hout) hcopy hsome

/-! ## Discarding -/

/-- The first bytes leave the buffer. -/
theorem advance (holds : Stream tx remaining) {head : List UInt8} {rest : List TcpTxItem}
    (hbytes : stream tx.sentList = head ++ stream rest) (nonEmpty : NonEmpty rest)
    (hplaced : Placed tx.firstByteSeq head.length rest) :
    Stream (tx.advance rest head.length) (remaining.drop head.length) := by
  have hlength := holds.length_lt
  have hsize := holds.size
  have hsentSize := holds.sentSize
  rw [← holds.bytes, List.length_append] at hsize
  rw [hbytes, List.length_append] at hlength hsize hsentSize
  have hfits := holds.fits
  have hnew : sub32 tx.size head.length = (stream rest).length + (stream tx.appList).length := by
    rw [sub32]
    omega
  exact {
    bytes := by
      rw [← holds.bytes, hbytes, List.append_assoc, List.drop_left]
      rfl
    sentNonEmpty := nonEmpty
    appNonEmpty := holds.appNonEmpty
    placed := (placed_shift rest 0).mpr hplaced
    size := by
      show sub32 tx.size head.length = _
      rw [hnew, ← holds.bytes, hbytes, List.append_assoc, List.drop_left, List.length_append]
    sentSize := by
      show sub32 tx.sentSize head.length = (stream rest).length
      rw [sub32]
      omega
    fits := by
      show sub32 tx.size head.length ≤ tx.maxBuffer
      omega
    maxBuffer := holds.maxBuffer
    firstByteSeq := Nat.mod_lt _ (by decide) }

theorem removeFromCounts (holds : Stream tx remaining) {item : TcpTxItem} {size : Nat}
    (hremove : tx.removeFromCounts item size = some next) :
    Stream next remaining ∧ next.firstByteSeq = tx.firstByteSeq := by
  rw [TcpTxBuffer.removeFromCounts] at hremove
  split at hremove
  next =>
    cases hremove
    exact ⟨holds.relabel rfl rfl rfl rfl rfl rfl, rfl⟩
  next => cases hremove

/-- The loop of `DiscardUpTo` takes bytes from the front until none is left to discard. -/
theorem discardLoop {now : Nat} (fuel : Nat) :
    ∀ {tx : TcpTxBuffer} {remaining : List UInt8} {offset : Nat}, Stream tx remaining →
      offset < 4294967296 → TcpTxBuffer.discardLoop now fuel tx offset = some next →
      Stream next (remaining.drop offset) ∧
        next.firstByteSeq = add32 tx.firstByteSeq (min offset remaining.length) := by
  induction fuel with
  | zero => exact fun _ _ hloop => nomatch hloop
  | succ fuel ih =>
      intro tx remaining offset holds hoffset hloop
      have hfirst := holds.firstByteSeq
      rw [TcpTxBuffer.discardLoop] at hloop
      split at hloop
      next hdone =>
        cases hloop
        have hzero : min offset remaining.length = 0 := by
          have := holds.size
          omega
        have hdrop : remaining.drop offset = remaining := by
          rcases hdone with hsize | rfl
          · have hnil : remaining = [] := List.length_eq_zero_iff.mp (holds.size ▸ hsize)
            rw [hnil, List.drop_nil]
          · rfl
        rw [hdrop, hzero, add32, Nat.add_zero, Nat.mod_eq_of_lt hfirst]
        exact ⟨holds, rfl⟩
      next =>
        split at hloop
        next hnil =>
          obtain ⟨⟨copied, out⟩, hcopy, hrest⟩ := Option.bind_eq_some_iff.mp hloop
          split at hrest
          next => cases hrest
          next =>
            obtain ⟨hstream, hsame, -⟩ := holds.copyFromSequence hoffset hfirst copied out hcopy
            obtain ⟨hnext, hplace⟩ := ih hstream hoffset hrest
            exact ⟨hnext, by rw [hplace, hsame]⟩
        next item items hcons =>
          have hplaced := holds.placed
          have hbytes : stream tx.sentList = item.packet ++ stream items := by
            rw [hcons, stream_cons]
          have hnonEmpty := holds.sentNonEmpty
          rw [hcons] at hplaced hnonEmpty
          have hlength : item.packet.length ≤ remaining.length := by
            rw [← holds.bytes, hbytes, List.length_append, List.length_append]
            omega
          split at hloop
          next => cases hloop
          next =>
            split at hloop
            next hle =>
              obtain ⟨removed, hremoved, hrest⟩ := Option.bind_eq_some_iff.mp hloop
              have hadvanced := holds.advance hbytes
                (fun other hmem => hnonEmpty other (List.mem_cons_of_mem _ hmem)) (by
                  have := hplaced.2
                  rwa [Nat.zero_add] at this)
              obtain ⟨hstream, hsame⟩ := hadvanced.removeFromCounts hremoved
              obtain ⟨hnext, hplace⟩ := ih hstream (by omega) hrest
              rw [TcpTxItem.size] at hle hnext hplace
              rw [List.drop_drop, Nat.add_sub_cancel' hle] at hnext
              refine ⟨hnext, ?_⟩
              rw [hplace, hsame, List.length_drop]
              show add32 (add32 tx.firstByteSeq item.packet.length) _ = _
              rw [add32_add32]
              congr 1
              omega
            next hlt =>
              have hinside : offset < item.packet.length := Nat.lt_of_not_le hlt
              have htake : (item.packet.take offset).length = offset := by
                rw [List.length_take]
                omega
              have hadvanced := @Stream.advance tx remaining holds (item.packet.take offset)
                ({ item with
                  packet := item.packet.drop offset
                  startSeq := add32 item.startSeq offset } :: items)
                (by rw [hbytes, stream_cons, ← List.append_assoc, List.take_append_drop])
                (fun other hmem => by
                  rcases List.mem_cons.mp hmem with rfl | hmem
                  · refine List.length_pos_iff.mp ?_
                    show 0 < (item.packet.drop offset).length
                    rw [List.length_drop]
                    omega
                  · exact hnonEmpty other (List.mem_cons_of_mem _ hmem))
                (by
                  rw [htake]
                  refine ⟨?_, ?_⟩
                  · show add32 item.startSeq offset = _
                    rw [hplaced.1, add32_add32, Nat.zero_add]
                  · show Placed tx.firstByteSeq (offset + (item.packet.drop offset).length) items
                    have hrest := hplaced.2
                    rw [TcpTxItem.size, Nat.zero_add] at hrest
                    rw [List.length_drop, Nat.add_sub_cancel' (Nat.le_of_lt hinside)]
                    exact hrest)
              rw [htake] at hadvanced
              obtain ⟨hstream, hsame⟩ := hadvanced.removeFromCounts hloop
              refine ⟨hstream, ?_⟩
              rw [hsame, Nat.min_eq_left (by omega)]
              rfl

/-- More turns of the loop than it is given are never made. -/
theorem discardLoop_turns {now : Nat} (fuel : Nat) :
    ∀ {tx : TcpTxBuffer} {remaining : List UInt8} {offset : Nat}, Stream tx remaining →
      offset < 4294967296 → 2 * tx.size + (if tx.sentList = [] then 1 else 0) < fuel →
      TcpTxBuffer.discardLoop now (fuel + 1) tx offset = TcpTxBuffer.discardLoop now fuel tx offset := by
  induction fuel with
  | zero => exact fun _ _ hfuel => absurd hfuel (Nat.not_lt_zero _)
  | succ fuel ih =>
      intro tx remaining offset holds hoffset hfuel
      conv_lhs => rw [TcpTxBuffer.discardLoop]
      conv_rhs => rw [TcpTxBuffer.discardLoop]
      split
      next => rfl
      next =>
        split
        next hnil =>
          cases hcopy : tx.copyFromSequence now offset tx.firstByteSeq with
          | none => rfl
          | some result =>
              obtain ⟨copied, out⟩ := result
              rw [Option.bind_some, Option.bind_some]
              split
              next => rfl
              next hsome =>
                obtain ⟨hstream, -, hcarries⟩ :=
                  holds.copyFromSequence hoffset holds.firstByteSeq copied out hcopy
                have hsent : copied.sentList ≠ [] := copyFromSequence_sent hcopy hsome
                refine ih hstream hoffset ?_
                rw [if_neg hsent, hstream.size, ← holds.size]
                rw [if_pos hnil] at hfuel
                omega
        next item items hcons =>
          split
          next => rfl
          next =>
            split
            next hle =>
              cases hremoved : (tx.advance items item.size).removeFromCounts item item.size with
              | none => rfl
              | some removed =>
                  rw [Option.bind_some, Option.bind_some]
                  have hplaced := holds.placed
                  have hnonEmpty := holds.sentNonEmpty
                  have hbytes : stream tx.sentList = item.packet ++ stream items := by
                    rw [hcons, stream_cons]
                  rw [hcons] at hplaced hnonEmpty
                  have hpos := hnonEmpty.size_pos List.mem_cons_self
                  have hadvanced := holds.advance hbytes
                    (fun other hmem => hnonEmpty other (List.mem_cons_of_mem _ hmem)) (by
                      have := hplaced.2
                      rwa [Nat.zero_add] at this)
                  have hstream := (hadvanced.removeFromCounts hremoved).1
                  refine ih hstream (by omega) ?_
                  have hsize := hstream.size
                  have hbefore := holds.size
                  have hlength := congrArg List.length holds.bytes
                  rw [hbytes, List.length_append, List.length_append] at hlength
                  rw [List.length_drop] at hsize
                  rw [TcpTxItem.size] at hpos
                  rw [if_neg (by rw [hcons]; exact List.cons_ne_nil _ _)] at hfuel
                  split <;> omega
            next => rfl

/-! ## The scoreboard keeps the stream -/

theorem sackFirst_label (items : List TcpTxItem) : ∀ {result : List TcpTxItem × TcpTxItem},
    TcpTxBuffer.sackFirst items = some result →
    result.1.map TcpTxItem.label = items.map TcpTxItem.label := by
  induction items with
  | nil => exact fun hsack => nomatch hsack
  | cons item items ih =>
      intro result hsack
      rw [TcpTxBuffer.sackFirst] at hsack
      split at hsack
      next =>
        obtain ⟨rest, hrest, rfl⟩ := Option.map_eq_some_iff.mp hsack
        rw [List.map_cons, List.map_cons, ih hrest]
      next =>
        cases hsack
        rfl

theorem addRenoSack (holds : Stream tx remaining) (hadd : tx.addRenoSack = some next) :
    Stream next remaining ∧ next.firstByteSeq = tx.firstByteSeq := by
  rw [TcpTxBuffer.addRenoSack] at hadd
  split at hadd
  next => cases hadd
  next head items hcons =>
    split at hadd
    next => cases hadd
    next =>
      split at hadd
      next =>
        cases hadd
        exact ⟨holds.relabel rfl rfl rfl rfl rfl rfl, rfl⟩
      next sacked item hsack =>
        cases hadd
        refine ⟨holds.relabel ?_ rfl rfl rfl rfl rfl, rfl⟩
        rw [hcons, List.map_cons, List.map_cons, sackFirst_label items hsack]

theorem markHeadAsLost (holds : Stream tx remaining) :
    Stream tx.markHeadAsLost remaining ∧ tx.markHeadAsLost.firstByteSeq = tx.firstByteSeq := by
  rw [TcpTxBuffer.markHeadAsLost]
  split
  next => exact ⟨holds, rfl⟩
  next head items hcons =>
    refine ⟨holds.relabel ?_ rfl rfl rfl rfl rfl, rfl⟩
    rw [hcons]
    rfl

theorem moveHeadSack (holds : Stream tx remaining) {seq : Nat}
    (hmove : tx.moveHeadSack seq = some next) : Stream next remaining := by
  rw [TcpTxBuffer.moveHeadSack] at hmove
  split at hmove
  next =>
    cases hmove
    exact holds
  next head items hcons =>
    split at hmove
    next => cases hmove
    next =>
      split at hmove
      next =>
        split at hmove
        next => cases hmove
        next =>
          obtain ⟨added, hadded, rfl⟩ := Option.map_eq_some_iff.mp hmove
          have hflag : Stream
              { tx with
                sentList := { head with sacked := false } :: items
                sackedOut := sub32 tx.sackedOut head.size } remaining := by
            refine holds.relabel ?_ rfl rfl rfl rfl rfl
            rw [hcons]
            rfl
          exact (hflag.addRenoSack hadded).1.markHeadAsLost.1
      next =>
        cases hmove
        exact holds

theorem settle (holds : Stream tx remaining) {seq : Nat} (hsettle : tx.settle seq = some next) :
    Stream next remaining := by
  have hreset : Stream (if Le tx.highestSack.2 tx.firstByteSeq then
      { tx with highestSack := (none, 0) } else tx) remaining := by
    split
    next => exact holds.relabel rfl rfl rfl rfl rfl rfl
    next => exact holds
  rw [TcpTxBuffer.settle] at hsettle
  generalize (if Le tx.highestSack.2 tx.firstByteSeq then
      { tx with highestSack := (none, 0) } else tx) = reset at hreset hsettle
  split at hsettle
  next =>
    cases hsettle
    exact hreset
  next => cases hsettle

/-- An empty buffer may begin anywhere. -/
theorem emptied (holds : Stream tx remaining) {seq : Nat} (hseq : seq < 4294967296) :
    Stream (if tx.size = 0 then { tx with firstByteSeq := seq } else tx) remaining := by
  split
  next hzero =>
    have hnil : remaining = [] := List.length_eq_zero_iff.mp (holds.size ▸ hzero)
    have hempty := holds.bytes
    rw [hnil, List.append_eq_nil_iff] at hempty
    have hsent := holds.sentNonEmpty.eq_nil (by rw [hempty.1]; rfl)
    exact { holds with
      placed := by
        rw [hsent]
        trivial
      firstByteSeq := hseq }
  next => exact holds

/-- `DiscardUpTo` drops the acknowledged bytes. -/
theorem discardUpTo (holds : Stream tx remaining) {now seq : Nat} (hseq : seq < 4294967296)
    (hdiscard : tx.discardUpTo now seq = some next) :
    Stream next (if Gt seq tx.firstByteSeq then remaining.drop (sub32 seq tx.firstByteSeq)
      else remaining) := by
  rw [TcpTxBuffer.discardUpTo] at hdiscard
  split at hdiscard
  next hge =>
    cases hdiscard
    rw [if_neg ?_]
    · exact holds
    · have := holds.firstByteSeq
      simp only [Ge, Gt] at hge ⊢
      omega
  next hge =>
    have hgt : Gt seq tx.firstByteSeq := by
      have := holds.firstByteSeq
      simp only [Ge, Gt] at hge ⊢
      omega
    rw [if_pos hgt]
    obtain ⟨looped, hlooped, hrest⟩ := Option.bind_eq_some_iff.mp hdiscard
    have hoffset : sub32 seq tx.firstByteSeq < 4294967296 := Nat.mod_lt _ (by decide)
    obtain ⟨hstream, -⟩ := Stream.discardLoop _ holds hoffset hlooped
    obtain ⟨moved, hmoved, hsettled⟩ := Option.bind_eq_some_iff.mp hrest
    exact ((hstream.emptied hseq).moveHeadSack hmoved).settle hsettled

theorem resetRenoSack (holds : Stream tx remaining) : Stream tx.resetRenoSack remaining := by
  refine holds.relabel ?_ rfl rfl rfl rfl rfl
  rw [TcpTxBuffer.resetRenoSack, List.map_map]
  rfl

theorem setSentListLost (holds : Stream tx remaining) {resetSack : Bool}
    (hset : tx.setSentListLost resetSack = some next) : Stream next remaining := by
  cases resetSack with
  | true =>
      rw [TcpTxBuffer.setSentListLost, if_pos rfl] at hset
      split at hset
      next =>
        cases hset
        refine holds.relabel ?_ rfl rfl rfl rfl rfl
        rw [List.map_map]
        rfl
      next => cases hset
  | false =>
      rw [TcpTxBuffer.setSentListLost, if_neg Bool.false_ne_true] at hset
      split at hset
      next =>
        cases hset
        refine holds.relabel ?_ rfl rfl rfl rfl rfl
        rw [List.map_map]
        rfl
      next => cases hset

/-- `ResetSentList` gives the sent bytes back to the application list. -/
theorem resetSentList (holds : Stream tx remaining) : Stream tx.resetSentList remaining := by
  have hlabel : (tx.sentList.map fun item =>
      { item with retrans := false, sacked := false, lost := false }).map TcpTxItem.label =
        tx.sentList.map TcpTxItem.label := by
    rw [List.map_map]
    rfl
  exact {
    bytes := by
      show [] ++ stream (_ ++ tx.appList) = remaining
      rw [List.nil_append, stream_append, stream_label hlabel, holds.bytes]
    sentNonEmpty := fun _ hmem => nomatch hmem
    appNonEmpty := by
      intro item hmem
      rcases List.mem_append.mp hmem with hmem | hmem
      · exact nonEmpty_label hlabel holds.sentNonEmpty item hmem
      · exact holds.appNonEmpty item hmem
    placed := trivial
    size := holds.size
    sentSize := rfl
    fits := holds.fits
    maxBuffer := holds.maxBuffer
    firstByteSeq := holds.firstByteSeq }

/-- `ResetLastSegmentSent` gives the last item back. -/
theorem resetLastSegmentSent (holds : Stream tx remaining) :
    Stream tx.resetLastSegmentSent remaining := by
  rw [TcpTxBuffer.resetLastSegmentSent]
  split
  next => exact holds
  next item hlast =>
    have hlist : tx.sentList.dropLast ++ [item] = tx.sentList :=
      List.dropLast_append_getLast? item hlast
    have hbytes := holds.bytes
    have hnonEmpty := holds.sentNonEmpty
    have hplaced := holds.placed
    have hsentSize := holds.sentSize
    have hlength := holds.length_lt
    rw [← hlist] at hbytes hnonEmpty hplaced hsentSize hlength
    rw [placed_append] at hplaced
    simp only [stream_append, stream_cons, stream_nil, List.append_nil, List.length_append]
      at hbytes hsentSize hlength
    exact {
      bytes := by
        rw [stream_cons, ← List.append_assoc]
        exact hbytes
      sentNonEmpty := fun other hmem => hnonEmpty other (List.mem_append_left _ hmem)
      appNonEmpty := by
        intro other hmem
        rcases List.mem_cons.mp hmem with rfl | hmem
        · exact hnonEmpty _ (List.mem_append_right _ List.mem_cons_self)
        · exact holds.appNonEmpty other hmem
      placed := hplaced.1
      size := holds.size
      sentSize := by
        show sub32 tx.sentSize item.size = (stream tx.sentList.dropLast).length
        rw [sub32, TcpTxItem.size]
        omega
      fits := holds.fits
      maxBuffer := holds.maxBuffer
      firstByteSeq := holds.firstByteSeq }

theorem sackItems_label {first second : Nat} (items : List TcpTxItem) :
    ∀ {beginOfCurrentPacket : Nat} {board : TcpTxBuffer.Board}
      {result : List TcpTxItem × TcpTxBuffer.Board},
      TcpTxBuffer.sackItems first second beginOfCurrentPacket board items = some result →
      result.1.map TcpTxItem.label = items.map TcpTxItem.label := by
  induction items with
  | nil =>
      intro _ _ _ hsack
      cases hsack
      rfl
  | cons item items ih =>
      intro beginOfCurrentPacket board result hsack
      rw [TcpTxBuffer.sackItems] at hsack
      split at hsack
      next =>
        split at hsack
        next =>
          split at hsack
          next => cases hsack
          next =>
            obtain ⟨rest, hrest, rfl⟩ := Option.map_eq_some_iff.mp hsack
            rw [List.map_cons, List.map_cons, ih hrest]
        next =>
          obtain ⟨rest, hrest, rfl⟩ := Option.map_eq_some_iff.mp hsack
          rw [List.map_cons, List.map_cons, ih hrest]
          rfl
      next =>
        split at hsack
        next =>
          cases hsack
          rfl
        next =>
          obtain ⟨rest, hrest, rfl⟩ := Option.map_eq_some_iff.mp hsack
          rw [List.map_cons, List.map_cons, ih hrest]

theorem sackBlocks_label {firstByteSeq sentSize : Nat} (blocks : List (UInt32 × UInt32)) :
    ∀ {board : TcpTxBuffer.Board} {items : List TcpTxItem}
      {result : List TcpTxItem × TcpTxBuffer.Board × Bool},
      TcpTxBuffer.sackBlocks firstByteSeq sentSize blocks board items = some result →
      result.1.map TcpTxItem.label = items.map TcpTxItem.label := by
  induction blocks with
  | nil =>
      intro _ _ _ hsack
      cases hsack
      rfl
  | cons block blocks ih =>
      intro board items result hsack
      rw [TcpTxBuffer.sackBlocks] at hsack
      split at hsack
      next =>
        cases hsack
        rfl
      next =>
        obtain ⟨inner, hinner, hrest⟩ := Option.bind_eq_some_iff.mp hsack
        exact (ih hrest).trans (sackItems_label items hinner)

theorem markLost_label {dupAckThresh : Nat} (items : List TcpTxItem) : ∀ sacked lostOut : Nat,
    (TcpTxBuffer.markLost dupAckThresh sacked lostOut items).1.map TcpTxItem.label =
      items.map TcpTxItem.label := by
  induction items with
  | nil => exact fun _ _ => rfl
  | cons item items ih =>
      intro sacked lostOut
      rw [TcpTxBuffer.markLost]
      generalize (if item.sacked then sacked + 1 else sacked) = count
      split
      next =>
        rw [List.map_cons, List.map_cons, ih]
        rfl
      next => rw [List.map_cons, List.map_cons, ih]

theorem upToNode_append {node : Nat} (items : List TcpTxItem) :
    ∀ {parts : List TcpTxItem × List TcpTxItem}, TcpTxBuffer.upToNode node items = some parts →
      parts.1 ++ parts.2 = items := by
  induction items with
  | nil => exact fun hparts => nomatch hparts
  | cons item items ih =>
      intro parts hparts
      rw [TcpTxBuffer.upToNode] at hparts
      split at hparts
      next =>
        cases hparts
        rfl
      next =>
        obtain ⟨rest, hrest, rfl⟩ := Option.map_eq_some_iff.mp hparts
        rw [List.cons_append, ih hrest]

theorem markFirstLost (holds : Stream tx remaining) (sacked : Nat) :
    Stream (tx.markFirstLost sacked) remaining := by
  rw [TcpTxBuffer.markFirstLost]
  split
  next => exact holds
  next head items hcons =>
    split
    next =>
      refine holds.relabel ?_ rfl rfl rfl rfl rfl
      rw [hcons]
      rfl
    next => exact holds

/-- The loop of `UpdateLostCount` changes flags only. -/
theorem marked (holds : Stream tx remaining) {head : TcpTxItem} {items : List TcpTxItem} {node : Nat}
    {parts : List TcpTxItem × List TcpTxItem} (hcons : tx.sentList = head :: items)
    (hparts : TcpTxBuffer.upToNode node items = some parts) :
    Stream { tx with
      sentList := head ::
        ((TcpTxBuffer.markLost tx.dupAckThresh 0 tx.lostOut parts.1.reverse).1.reverse ++ parts.2)
      lostOut := (TcpTxBuffer.markLost tx.dupAckThresh 0 tx.lostOut parts.1.reverse).2.2 }
      remaining := by
  refine holds.relabel ?_ rfl rfl rfl rfl rfl
  rw [hcons, ← upToNode_append items hparts, List.map_cons, List.map_append, List.map_reverse,
    markLost_label, List.map_reverse, List.reverse_reverse, List.map_cons, List.map_append]

theorem updateLostCount (holds : Stream tx remaining) (hupdate : tx.updateLostCount = some next) :
    Stream next remaining := by
  rw [TcpTxBuffer.updateLostCount.eq_def] at hupdate
  split at hupdate
  next head items node hcons hnode =>
    split at hupdate
    next =>
      cases hupdate
      exact holds.markFirstLost 0
    next =>
      obtain ⟨parts, hparts, rfl⟩ := Option.map_eq_some_iff.mp hupdate
      exact (holds.marked hcons hparts).markFirstLost _
  next => cases hupdate

theorem update (holds : Stream tx remaining) {list : List (UInt32 × UInt32)}
    {result : TcpTxBuffer × Nat} (hupdate : tx.update list = some result) :
    Stream result.1 remaining := by
  obtain ⟨sacked, hsacked, hrest⟩ := Option.bind_eq_some_iff.mp hupdate
  have hsent := sackBlocks_label list hsacked
  have hstream : Stream { tx with
      sentList := sacked.1
      lostOut := sacked.2.1.lostOut
      sackedOut := sacked.2.1.sackedOut
      highestSack := sacked.2.1.highestSack } remaining := holds.relabel hsent rfl rfl rfl rfl rfl
  simp only at hrest
  split at hrest
  next =>
    cases hrest
    exact hstream
  next =>
    obtain ⟨last, hlast, rfl⟩ := Option.map_eq_some_iff.mp hrest
    obtain ⟨counted, hcounted, hchecked⟩ := Option.bind_eq_some_iff.mp hlast
    have hcount : Stream counted remaining := by
      split at hcounted
      next => exact hstream.updateLostCount hcounted
      next =>
        cases hcounted
        exact hstream
    rw [TcpTxBuffer.checked.eq_def] at hchecked
    split at hchecked
    next => cases hchecked
    next =>
      split at hchecked
      next =>
        cases hchecked
        exact hcount
      next => cases hchecked

end Stream

/-! ## Runs -/

namespace Streaming

/-- The buffer holds the accepted bytes without the acknowledged ones. -/
def Holds (streaming : Streaming) : Prop :=
  streaming.acked ≤ streaming.accepted.length ∧ Stream streaming.tx streaming.remaining

theorem step_holds {streaming next : Streaming} {op : TcpOp} (holds : streaming.Holds)
    (hstep : streaming.step op = some next) : next.Holds := by
  obtain ⟨hacked, hstream⟩ := holds
  cases op with
  | setHeadSequence seq =>
      obtain ⟨tx, htx, rfl⟩ := Option.map_eq_some_iff.mp hstep
      rw [TcpTxBuffer.setHeadSequence] at htx
      split at htx
      next hnil =>
        cases htx
        exact ⟨hacked, { hstream with
          placed := by
            rw [hnil]
            trivial
          firstByteSeq := seq.toNat_lt }⟩
      next => cases htx
  | add packet =>
      cases hstep
      have hadded := hstream.add packet
      simp only [Holds, remaining] at hadded ⊢
      split
      next htrue =>
        rw [if_pos htrue] at hadded
        rw [List.length_append, List.drop_append_of_le_length hacked]
        exact ⟨hacked.trans (Nat.le_add_right _ _), hadded⟩
      next hfalse =>
        rw [if_neg hfalse] at hadded
        exact ⟨hacked, hadded⟩
  | copyFromSequence now numBytes seq =>
      obtain ⟨⟨tx, out⟩, htx, rfl⟩ := Option.map_eq_some_iff.mp hstep
      exact ⟨hacked, (hstream.copyFromSequence numBytes.toNat_lt seq.toNat_lt tx out htx).1⟩
  | discardUpTo now seq =>
      obtain ⟨tx, htx, rfl⟩ := Option.map_eq_some_iff.mp hstep
      have hdiscarded := hstream.discardUpTo seq.toNat_lt htx
      simp only [Holds, remaining] at hdiscarded ⊢
      split
      next hgt =>
        rw [if_pos hgt, List.drop_drop] at hdiscarded
        refine ⟨Nat.min_le_left _ _, ?_⟩
        rcases Nat.le_total streaming.accepted.length
          (streaming.acked + sub32 seq.toNat streaming.tx.firstByteSeq) with hall | hsome
        · rw [Nat.min_eq_left hall, List.drop_length]
          rwa [List.drop_eq_nil_of_le hall] at hdiscarded
        · rw [Nat.min_eq_right hsome]
          exact hdiscarded
      next hle =>
        rw [if_neg hle] at hdiscarded
        exact ⟨hacked, hdiscarded⟩
  | update list =>
      obtain ⟨result, htx, rfl⟩ := Option.map_eq_some_iff.mp hstep
      exact ⟨hacked, hstream.update htx⟩
  | addRenoSack =>
      obtain ⟨tx, htx, rfl⟩ := Option.map_eq_some_iff.mp hstep
      exact ⟨hacked, (hstream.addRenoSack htx).1⟩
  | resetRenoSack =>
      cases hstep
      exact ⟨hacked, hstream.resetRenoSack⟩
  | setSentListLost resetSack =>
      obtain ⟨tx, htx, rfl⟩ := Option.map_eq_some_iff.mp hstep
      exact ⟨hacked, hstream.setSentListLost htx⟩
  | resetSentList =>
      cases hstep
      exact ⟨hacked, hstream.resetSentList⟩
  | resetLastSegmentSent =>
      cases hstep
      exact ⟨hacked, hstream.resetLastSegmentSent⟩
  | markHeadAsLost =>
      cases hstep
      exact ⟨hacked, hstream.markHeadAsLost.1⟩

theorem start_holds (firstByteSeq maxBuffer dupAckThresh : UInt32) (sackEnabled : Bool) :
    (start firstByteSeq maxBuffer dupAckThresh sackEnabled).Holds :=
  ⟨Nat.le_refl _, {
    bytes := rfl
    sentNonEmpty := fun _ hmem => nomatch hmem
    appNonEmpty := fun _ hmem => nomatch hmem
    placed := trivial
    size := rfl
    sentSize := rfl
    fits := Nat.zero_le _
    maxBuffer := maxBuffer.toNat_lt
    firstByteSeq := firstByteSeq.toNat_lt }⟩

/-- In every state reached the buffer holds the accepted bytes without the acknowledged prefix, each
sent item in its place, and `CopyFromSequence` returns bytes of the stream at the number asked for. -/
theorem stream_preserved (firstByteSeq maxBuffer dupAckThresh : UInt32) (sackEnabled : Bool)
    {ops : List TcpOp} {streaming : Streaming}
    (hrun : (start firstByteSeq maxBuffer dupAckThresh sackEnabled).run ops = some streaming) :
    Stream streaming.tx streaming.remaining ∧
      ∀ (now : Nat) (numBytes seq : UInt32) (next : TcpTxBuffer) (item : TcpTxItem),
        streaming.tx.copyFromSequence now numBytes.toNat seq.toNat = some (next, some item) →
        Stream.Carries streaming.tx.firstByteSeq streaming.remaining numBytes.toNat seq.toNat item := by
  have hholds := Foundation.Runs.state_invariant step Holds
    (fun _ _ _ holds hstep => step_holds holds hstep)
    (start_holds firstByteSeq maxBuffer dupAckThresh sackEnabled) hrun
  refine ⟨hholds.2, fun now numBytes seq next item hcopy => ?_⟩
  exact (hholds.2.copyFromSequence numBytes.toNat_lt seq.toNat_lt next _ hcopy).2.2 item rfl

/-- Five bytes straddle the wrap; three are sent and acknowledged in part, and two sent again. -/
theorem stream_preserved_wrapped :
    ∃ streaming,
      (start 4294967294 100 3 true).run
        [.add [1, 2, 3, 4, 5], .copyFromSequence 0 3 4294967294, .discardUpTo 1 4294967295,
          .copyFromSequence 2 2 4294967295] = some streaming ∧
      Stream streaming.tx streaming.remaining ∧
      ∀ (now : Nat) (numBytes seq : UInt32) (next : TcpTxBuffer) (item : TcpTxItem),
        streaming.tx.copyFromSequence now numBytes.toNat seq.toNat = some (next, some item) →
        Stream.Carries streaming.tx.firstByteSeq streaming.remaining numBytes.toNat seq.toNat item := by
  have hsome : ((start 4294967294 100 3 true).run
      [.add [1, 2, 3, 4, 5], .copyFromSequence 0 3 4294967294, .discardUpTo 1 4294967295,
        .copyFromSequence 2 2 4294967295]).isSome = true := by decide +kernel
  obtain ⟨streaming, hrun⟩ := Option.isSome_iff_exists.mp hsome
  obtain ⟨hstream, hcarries⟩ := stream_preserved 4294967294 100 3 true hrun
  exact ⟨streaming, hrun, hstream, hcarries⟩

end Streaming

end DeepcV2x.Tcp
