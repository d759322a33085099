import DeepcV2x.Tcp.TxStream

/-!
# The scoreboard

The counters of sacked, lost and retransmitted bytes are the sums over the
flags of the sent items, as long as no operation sacks a lost item, gives back
a flagged one or leaves the head sacked.
-/

namespace DeepcV2x.Tcp

open SequenceNumber32

/-- The bytes of the items with a flag. -/
def bytesWith (flag : TcpTxItem → Bool) : List TcpTxItem → Nat
  | [] => 0
  | item :: items => (if flag item then item.size else 0) + bytesWith flag items

theorem bytesWith_append (flag : TcpTxItem → Bool) (items others : List TcpTxItem) :
    bytesWith flag (items ++ others) = bytesWith flag items + bytesWith flag others := by
  induction items with
  | nil => exact (Nat.zero_add _).symm
  | cons item items ih => rw [List.cons_append, bytesWith, bytesWith, ih, Nat.add_assoc]

theorem bytesWith_le (flag : TcpTxItem → Bool) (items : List TcpTxItem) :
    bytesWith flag items ≤ (stream items).length := by
  induction items with
  | nil => exact Nat.le_refl _
  | cons item items ih =>
      rw [bytesWith, stream_cons, List.length_append, TcpTxItem.size]
      split <;> omega

theorem bytesWith_reverse (flag : TcpTxItem → Bool) (items : List TcpTxItem) :
    bytesWith flag items.reverse = bytesWith flag items := by
  induction items with
  | nil => rfl
  | cons item items ih =>
      rw [List.reverse_cons, bytesWith_append, ih, bytesWith, bytesWith, bytesWith]
      omega

theorem bytesWith_eq_zero {flag : TcpTxItem → Bool} {items : List TcpTxItem}
    (hnone : ∀ item ∈ items, flag item = false) : bytesWith flag items = 0 := by
  induction items with
  | nil => rfl
  | cons item items ih =>
      rw [bytesWith, hnone item List.mem_cons_self,
        ih fun other hmem => hnone other (List.mem_cons_of_mem _ hmem)]
      rfl

/-- The counters are the sums of some items, none of which is both sacked and lost. -/
structure Scored (items : List TcpTxItem) (sackedOut lostOut retrans : Nat) : Prop where
  sackedOut : sackedOut = bytesWith TcpTxItem.sacked items
  lostOut : lostOut = bytesWith TcpTxItem.lost items
  retrans : retrans = bytesWith TcpTxItem.retrans items
  notBoth : ∀ item ∈ items, ¬ (item.sacked = true ∧ item.lost = true)

/-- An item without flags. -/
def Plain (item : TcpTxItem) : Prop :=
  item.sacked = false ∧ item.lost = false ∧ item.retrans = false

instance (item : TcpTxItem) : Decidable (Plain item) := inferInstanceAs (Decidable (_ ∧ _ ∧ _))

/-- The first item is not sacked. -/
def HeadFree (items : List TcpTxItem) : Prop := ∀ head ∈ items.head?, head.sacked = false

theorem headFree_nil : HeadFree [] := fun _ hhead => nomatch hhead

/-! ## Items cut anew -/

theorem Scored.append {items others : List TcpTxItem} {sackedOut lostOut retrans : Nat}
    (scored : Scored items sackedOut lostOut retrans) (hplain : ∀ item ∈ others, Plain item) :
    Scored (items ++ others) sackedOut lostOut retrans where
  sackedOut := by
    rw [bytesWith_append, bytesWith_eq_zero fun item hmem => (hplain item hmem).1]
    exact scored.sackedOut
  lostOut := by
    rw [bytesWith_append, bytesWith_eq_zero fun item hmem => (hplain item hmem).2.1]
    exact scored.lostOut
  retrans := by
    rw [bytesWith_append, bytesWith_eq_zero fun item hmem => (hplain item hmem).2.2]
    exact scored.retrans
  notBoth := by
    intro item hmem
    rcases List.mem_append.mp hmem with hmem | hmem
    · exact scored.notBoth item hmem
    · exact fun hboth => Bool.false_ne_true ((hplain item hmem).1.symm.trans hboth.1)

theorem bytesWith_split {flag : TcpTxItem → Bool} {node size : Nat} {item : TcpTxItem}
    (hlt : size < item.size) (hfirst : flag (splitItems node item size).1 = flag item)
    (hsecond : flag (splitItems node item size).2 = flag item) (before after : List TcpTxItem) :
    bytesWith flag
        (before ++ (splitItems node item size).1 :: (splitItems node item size).2 :: after) =
      bytesWith flag (before ++ item :: after) := by
  have hsize : (splitItems node item size).1.size + (splitItems node item size).2.size = item.size := by
    show (item.packet.take size).length + (item.packet.drop size).length = item.packet.length
    rw [TcpTxItem.size] at hlt
    rw [List.length_take, List.length_drop]
    omega
  rw [bytesWith_append, bytesWith_append, bytesWith, bytesWith, bytesWith, hfirst, hsecond]
  split <;> omega

theorem Edit.scored {left right : List TcpTxItem × Nat} (edit : Edit left right)
    {sackedOut lostOut : Nat} (hlength : (Tcp.stream left.1).length < 4294967296)
    (scored : Scored left.1 sackedOut lostOut left.2) :
    Scored right.1 sackedOut lostOut right.2 := by
  cases edit with
  | split before item after node size retrans hpos hlt =>
      exact {
        sackedOut := scored.sackedOut.trans (bytesWith_split hlt rfl rfl before after).symm
        lostOut := scored.lostOut.trans (bytesWith_split hlt rfl rfl before after).symm
        retrans := scored.retrans.trans (bytesWith_split hlt rfl rfl before after).symm
        notBoth := by
          have hitem := scored.notBoth item (List.mem_append_right _ List.mem_cons_self)
          intro other hmem
          rcases List.mem_append.mp hmem with hmem | hmem
          · exact scored.notBoth other (List.mem_append_left _ hmem)
          · rcases List.mem_cons.mp hmem with rfl | hmem
            · exact hitem
            · rcases List.mem_cons.mp hmem with rfl | hmem
              · exact hitem
              · exact scored.notBoth other (List.mem_append_right _ (List.mem_cons_of_mem _ hmem)) }
  | merge before t1 t2 after hmerge =>
      obtain ⟨hsacked, hlost, hpacket, -, hsacked', hlost', hretrans', hcount⟩ :=
        mergeItems_some hmerge
      have hsize : ∀ merged : TcpTxItem, merged.packet = t1.packet ++ t2.packet →
          merged.size = t1.size + t2.size := by
        intro merged hmerged
        rw [TcpTxItem.size, hmerged, List.length_append]
        rfl
      have hmergedSize := hsize _ hpacket
      have hold := scored.retrans
      have hbound := bytesWith_le TcpTxItem.retrans (before ++ t1 :: t2 :: after)
      simp only at hlength hold
      exact {
        sackedOut := by
          rw [scored.sackedOut]
          simp only [bytesWith_append, bytesWith, hsacked', ← hsacked, hmergedSize]
          split <;> omega
        lostOut := by
          rw [scored.lostOut]
          simp only [bytesWith_append, bytesWith, hlost', ← hlost, hmergedSize]
          split <;> omega
        retrans := by
          rw [bytesWith_append, bytesWith, bytesWith] at hold hbound
          simp only [hcount, bytesWith_append, bytesWith, hretrans', hmergedSize]
          cases h1 : t1.retrans <;> cases h2 : t2.retrans <;>
            simp only [h1, h2, if_true, if_false, Bool.false_eq_true, Bool.true_eq_false, Bool.and_self,
              Bool.and_false, Bool.false_and, sub32] at hold hbound ⊢ <;> omega
        notBoth := by
          intro other hmem
          rcases List.mem_append.mp hmem with hmem | hmem
          · exact scored.notBoth other (List.mem_append_left _ hmem)
          · rcases List.mem_cons.mp hmem with rfl | hmem
            · rw [hsacked', hlost']
              exact scored.notBoth t1 (List.mem_append_right _ List.mem_cons_self)
            · exact scored.notBoth other
                (List.mem_append_right _ (List.mem_cons_of_mem _ (List.mem_cons_of_mem _ hmem))) }

theorem Edits.scored {left right : List TcpTxItem × Nat} (edits : Edits left right)
    {sackedOut lostOut : Nat} (hlength : (Tcp.stream left.1).length < 4294967296)
    (scored : Scored left.1 sackedOut lostOut left.2) :
    Scored right.1 sackedOut lostOut right.2 := by
  induction edits with
  | refl => exact scored
  | tail hedits edit ih =>
      refine edit.scored ?_ ih
      rw [Edits.stream hedits]
      exact hlength

theorem Edit.headFree {left right : List TcpTxItem × Nat} (edit : Edit left right)
    (headFree : HeadFree left.1) : HeadFree right.1 := by
  cases edit with
  | split before item after node size retrans hpos hlt =>
      cases before with
      | nil =>
          intro head hhead
          obtain rfl := Option.some.inj hhead
          exact headFree item rfl
      | cons first before => exact headFree
  | merge before t1 t2 after hmerge =>
      cases before with
      | nil =>
          intro head hhead
          obtain rfl := Option.some.inj hhead
          rw [(mergeItems_some hmerge).2.2.2.2.1]
          exact headFree t1 rfl
      | cons first before => exact headFree

theorem Edits.headFree {left right : List TcpTxItem × Nat} (edits : Edits left right)
    (headFree : HeadFree left.1) : HeadFree right.1 := by
  induction edits with
  | refl => exact headFree
  | tail _ edit ih => exact edit.headFree ih

theorem Edit.plain {left right : List TcpTxItem × Nat} (edit : Edit left right)
    (hplain : ∀ item ∈ left.1, Plain item) :
    (∀ item ∈ right.1, Plain item) ∧ right.2 = left.2 := by
  cases edit with
  | split before item after node size retrans hpos hlt =>
      have hitem := hplain item (List.mem_append_right _ List.mem_cons_self)
      refine ⟨fun other hmem => ?_, rfl⟩
      rcases List.mem_append.mp hmem with hmem | hmem
      · exact hplain other (List.mem_append_left _ hmem)
      · rcases List.mem_cons.mp hmem with rfl | hmem
        · exact hitem
        · rcases List.mem_cons.mp hmem with rfl | hmem
          · exact hitem
          · exact hplain other (List.mem_append_right _ (List.mem_cons_of_mem _ hmem))
  | merge before t1 t2 after hmerge =>
      obtain ⟨-, -, -, -, hsacked, hlost, hretrans, hcount⟩ := mergeItems_some hmerge
      have hfirst := hplain t1 (List.mem_append_right _ List.mem_cons_self)
      have hsecond := hplain t2 (List.mem_append_right _ (List.mem_cons_of_mem _ List.mem_cons_self))
      refine ⟨fun other hmem => ?_, ?_⟩
      · rcases List.mem_append.mp hmem with hmem | hmem
        · exact hplain other (List.mem_append_left _ hmem)
        · rcases List.mem_cons.mp hmem with rfl | hmem
          · exact ⟨hsacked.trans hfirst.1, hlost.trans hfirst.2.1,
              by rw [hretrans, hfirst.2.2, Bool.false_and]⟩
          · exact hplain other
              (List.mem_append_right _ (List.mem_cons_of_mem _ (List.mem_cons_of_mem _ hmem)))
      · show _ = _
        rw [hcount, if_pos (hfirst.2.2.trans hsecond.2.2.symm)]

theorem Edits.plain {left right : List TcpTxItem × Nat} (edits : Edits left right)
    (hplain : ∀ item ∈ left.1, Plain item) :
    (∀ item ∈ right.1, Plain item) ∧ right.2 = left.2 := by
  induction edits with
  | refl => exact ⟨hplain, rfl⟩
  | tail _ edit ih =>
      obtain ⟨hitems, hcount⟩ := edit.plain ih.1
      exact ⟨hitems, hcount.trans ih.2⟩

/-! ## Copying -/

/-- The counters of a buffer are those of its sent items; the application data has no flags. -/
structure Scores (tx : TcpTxBuffer) : Prop where
  scored : Scored tx.sentList tx.sackedOut tx.lostOut tx.retrans
  app : ∀ item ∈ tx.appList, Plain item

namespace Scores

variable {tx next : TcpTxBuffer} {remaining : List UInt8}

theorem getNewSegment (scores : Scores tx) (holds : Stream tx remaining) {numBytes : Nat}
    (hpos : 0 < numBytes) (hsmall : numBytes < 4294967296) {out : TcpTxBuffer.OutItem}
    (hout : tx.getNewSegment numBytes = some out) :
    Scores { out.tx with sentList := out.before ++ out.item :: out.after } ∧
      (HeadFree tx.sentList → HeadFree (out.before ++ out.item :: out.after)) := by
  have hbelow : add32 tx.firstByteSeq tx.sentSize < 4294967296 := Nat.mod_lt _ (by decide)
  have hlength := holds.length_lt
  obtain ⟨found, hfound, rfl⟩ := Option.map_eq_some_iff.mp hout
  obtain ⟨hedits, -, -⟩ := getPacketFromList_spec hbelow hbelow hpos hsmall _ holds.appNonEmpty
    (by omega) hfound
  obtain ⟨hplain, hcount⟩ := hedits.plain scores.app
  have hitem := hplain found.item (List.mem_append_right _ List.mem_cons_self)
  have hcount' : found.retrans = tx.retrans := hcount
  refine ⟨⟨?_, ?_⟩, ?_⟩
  · show Scored (tx.sentList ++ [_]) tx.sackedOut tx.lostOut found.retrans
    rw [hcount']
    refine scores.scored.append fun item hmem => ?_
    cases List.mem_singleton.mp hmem
    exact hitem
  · intro item hmem
    rcases List.mem_append.mp hmem with hmem | hmem
    · exact hplain item (List.mem_append_left _ hmem)
    · exact hplain item (List.mem_append_right _ (List.mem_cons_of_mem _ hmem))
  · show HeadFree tx.sentList → HeadFree (tx.sentList ++ [_])
    intro headFree
    cases hcases : tx.sentList with
    | nil =>
        intro head hhead
        obtain rfl := Option.some.inj hhead
        exact hitem.1
    | cons first items =>
        rw [hcases] at headFree
        exact headFree

theorem getTransmittedSegment (scores : Scores tx) (holds : Stream tx remaining)
    {numBytes seq : Nat} (hpos : 0 < numBytes) (hsmall : numBytes < 4294967296)
    (hseq : seq < 4294967296) {out : TcpTxBuffer.OutItem}
    (hout : tx.getTransmittedSegment numBytes seq = some out) :
    Scores { out.tx with sentList := out.before ++ out.item :: out.after } ∧
      (HeadFree tx.sentList → HeadFree (out.before ++ out.item :: out.after)) := by
  rw [TcpTxBuffer.getTransmittedSegment] at hout
  split at hout
  next =>
    have hlength := holds.length_lt
    obtain ⟨hbytes, hatMost⟩ := @Stream.retransmitSize_bounds numBytes seq hpos tx.sentList
      holds.sentNonEmpty (by omega)
    obtain ⟨found, hfound, rfl⟩ := Option.map_eq_some_iff.mp hout
    obtain ⟨hedits, -, -⟩ := getPacketFromList_spec hseq holds.firstByteSeq hbytes (by omega) _
      holds.sentNonEmpty (by omega) hfound
    have hshort : (stream tx.sentList).length < 4294967296 := by omega
    have hscored := hedits.scored hshort scores.scored
    have hstream := hedits.stream
    have hle := bytesWith_le TcpTxItem.retrans (found.before ++ found.item :: found.after)
    have hretrans := hscored.retrans
    rw [hstream] at hle
    simp only [bytesWith_append, bytesWith] at hretrans hle
    refine ⟨⟨⟨?_, ?_, ?_, ?_⟩, scores.app⟩, fun headFree => ?_⟩
    · have hsacked := hscored.sackedOut
      rw [bytesWith_append] at hsacked
      show tx.sackedOut = bytesWith _ (found.before ++ _ :: found.after)
      rw [bytesWith_append]
      exact hsacked
    · have hlost := hscored.lostOut
      rw [bytesWith_append] at hlost
      show tx.lostOut = bytesWith _ (found.before ++ _ :: found.after)
      rw [bytesWith_append]
      exact hlost
    · show (if found.item.retrans then found.retrans else add32 found.retrans found.item.size) =
        bytesWith _ (found.before ++ _ :: found.after)
      rw [bytesWith_append, bytesWith, if_pos rfl]
      show _ = bytesWith _ found.before + (found.item.size + bytesWith _ found.after)
      cases hflag : found.item.retrans with
      | true =>
          rw [hflag, if_pos rfl] at hretrans
          rw [if_pos rfl]
          exact hretrans
      | false =>
          rw [hflag, if_neg Bool.false_ne_true] at hretrans
          rw [if_neg Bool.false_ne_true, add32]
          have hroom : (stream (found.before ++ found.item :: found.after)).length < 4294967296 := by
            rw [hstream]
            exact hshort
          have hbefore := bytesWith_le TcpTxItem.retrans found.before
          have hafter := bytesWith_le TcpTxItem.retrans found.after
          rw [stream_append, stream_cons, List.length_append, List.length_append] at hroom
          rw [TcpTxItem.size]
          omega
    · intro item hmem
      rcases List.mem_append.mp hmem with hmem | hmem
      · exact hscored.notBoth item (List.mem_append_left _ hmem)
      · rcases List.mem_cons.mp hmem with rfl | hmem
        · exact hscored.notBoth found.item (List.mem_append_right _ List.mem_cons_self)
        · exact hscored.notBoth item (List.mem_append_right _ (List.mem_cons_of_mem _ hmem))
    · have hhead := hedits.headFree headFree
      show HeadFree (found.before ++ _ :: found.after)
      cases hcases : found.before with
      | nil =>
          rw [hcases] at hhead
          intro head hsome
          obtain rfl := Option.some.inj hsome
          exact hhead found.item rfl
      | cons first before =>
          rw [hcases] at hhead
          exact hhead
  next => cases hout

theorem send {now : Nat} {out : TcpTxBuffer.OutItem}
    (scores : Scores { out.tx with sentList := out.before ++ out.item :: out.after })
    {result : TcpTxBuffer × Option TcpTxItem} (hsend : out.send now = some result) :
    Scores result.1 ∧ (HeadFree (out.before ++ out.item :: out.after) → HeadFree result.1.sentList) := by
  cases TcpTxBuffer.OutItem.send_some hsend
  obtain ⟨⟨hsacked, hlost, hretrans, hnotBoth⟩, happ⟩ := scores
  rw [bytesWith_append] at hsacked hlost hretrans
  refine ⟨⟨⟨?_, ?_, ?_, ?_⟩, happ⟩, ?_⟩
  · rw [bytesWith_append]
    exact hsacked
  · rw [bytesWith_append]
    exact hlost
  · rw [bytesWith_append]
    exact hretrans
  · intro item hmem
    rcases List.mem_append.mp hmem with hmem | hmem
    · exact hnotBoth item (List.mem_append_left _ hmem)
    · rcases List.mem_cons.mp hmem with rfl | hmem
      · exact hnotBoth out.item (List.mem_append_right _ List.mem_cons_self)
      · exact hnotBoth item (List.mem_append_right _ (List.mem_cons_of_mem _ hmem))
  · show HeadFree _ → HeadFree (out.before ++ _ :: out.after)
    intro headFree
    cases hcases : out.before with
    | nil =>
        rw [hcases] at headFree
        intro head hsome
        obtain rfl := Option.some.inj hsome
        exact headFree out.item rfl
    | cons first before =>
        rw [hcases] at headFree
        exact headFree

theorem copyBlock (scores : Scores tx) (holds : Stream tx remaining) {now numBytes seq : Nat}
    (hsmall : numBytes < 4294967296) (hseq : seq < 4294967296)
    {recurse : Nat → Option (TcpTxBuffer × Option TcpTxItem)}
    (hrecurse : ∀ amount result, amount ≤ numBytes → recurse amount = some result →
      Scores result.1 ∧ (HeadFree tx.sentList → HeadFree result.1.sentList))
    {result : TcpTxBuffer × Option TcpTxItem}
    (hcopy : tx.copyBlock recurse now numBytes seq = some result) :
    Scores result.1 ∧ (HeadFree tx.sentList → HeadFree result.1.sentList) := by
  rcases TcpTxBuffer.copyBlock_cases hcopy with rfl | ⟨s, hpos, hle, hcases⟩
  · exact ⟨scores, id⟩
  · rcases hcases with ⟨out, hout, -, hsend⟩ | ⟨out, -, hout, -, hsend⟩ | ⟨hbelow, habove, hinner⟩
    · obtain ⟨hscores, hhead⟩ :=
        scores.getTransmittedSegment holds hpos (hle.trans_lt hsmall) hseq hout
      obtain ⟨hsent, hfree⟩ := hscores.send hsend
      exact ⟨hsent, fun headFree => hfree (hhead headFree)⟩
    · obtain ⟨hscores, hhead⟩ := scores.getNewSegment holds hpos (hle.trans_lt hsmall) hout
      obtain ⟨hsent, hfree⟩ := hscores.send hsend
      exact ⟨hsent, fun headFree => hfree (hhead headFree)⟩
    · refine hrecurse _ _ ?_ hinner
      have hend : add32 tx.firstByteSeq tx.sentSize < 4294967296 := Nat.mod_lt _ (by decide)
      generalize add32 tx.firstByteSeq tx.sentSize = endOfSent at hend hbelow habove
      simp only [add32, sub32] at *
      omega

theorem copyFromSequence (scores : Scores tx) (holds : Stream tx remaining)
    {now numBytes seq : Nat} (hsmall : numBytes < 4294967296) (hseq : seq < 4294967296)
    {result : TcpTxBuffer × Option TcpTxItem}
    (hcopy : tx.copyFromSequence now numBytes seq = some result) :
    Scores result.1 ∧ (HeadFree tx.sentList → HeadFree result.1.sentList) :=
  scores.copyBlock holds hsmall hseq
    (fun _ _ hle hinner => scores.copyBlock holds (hle.trans_lt hsmall) hseq
      (fun _ _ _ hnone => absurd hnone.symm (Option.some_ne_none _)) hinner) hcopy

/-! ## Discarding -/

theorem removeFromCounts {items : List TcpTxItem} {item : TcpTxItem} {size : Nat}
    (hsacked : tx.sackedOut = (if item.sacked then size else 0) + bytesWith TcpTxItem.sacked items)
    (hlost : tx.lostOut = (if item.lost then size else 0) + bytesWith TcpTxItem.lost items)
    (hretrans : tx.retrans = (if item.retrans then size else 0) + bytesWith TcpTxItem.retrans items)
    (hitems : tx.sentList = items)
    (hnotBoth : ∀ other ∈ items, ¬ (other.sacked = true ∧ other.lost = true))
    (happ : ∀ other ∈ tx.appList, Plain other)
    (hremove : tx.removeFromCounts item size = some next) :
    Scores next ∧ next.sentList = items := by
  rw [TcpTxBuffer.removeFromCounts] at hremove
  split at hremove
  next =>
    cases hremove
    refine ⟨⟨⟨?_, ?_, ?_, ?_⟩, happ⟩, hitems⟩
    · show (if item.sacked then tx.sackedOut - size else tx.sackedOut) =
        bytesWith TcpTxItem.sacked tx.sentList
      rw [hsacked, hitems]
      split <;> omega
    · show (if item.lost then tx.lostOut - size else tx.lostOut) = bytesWith TcpTxItem.lost tx.sentList
      rw [hlost, hitems]
      split <;> omega
    · show (if item.retrans then tx.retrans - size else tx.retrans) =
        bytesWith TcpTxItem.retrans tx.sentList
      rw [hretrans, hitems]
      split <;> omega
    · show ∀ other ∈ tx.sentList, _
      rw [hitems]
      exact hnotBoth
  next => cases hremove

end Scores

/-- The sent items behind some acknowledged bytes. -/
def unacked : Nat → List TcpTxItem → List TcpTxItem
  | _, [] => []
  | offset, item :: items => if item.size ≤ offset then unacked (offset - item.size) items else item :: items

/-- The item that a Reno acknowledgement sacks is not lost. -/
def RenoFits (items : List TcpTxItem) : Prop :=
  ∀ item ∈ items.find? fun item => !item.sacked, item.lost = false

/-- A sacked head can give its flag to an item that is not lost. -/
def HeadFits (items : List TcpTxItem) : Prop :=
  ∀ head ∈ items.head?, head.sacked = true → RenoFits items.tail

instance (items : List TcpTxItem) : Decidable (RenoFits items) :=
  match h : items.find? fun item => !item.sacked with
  | none => .isTrue fun item hitem => by rw [h] at hitem; cases hitem
  | some item => decidable_of_iff (item.lost = false)
      ⟨fun hlost other hother => by rw [h] at hother; exact Option.some.inj hother ▸ hlost,
        fun hall => hall item h⟩

instance : ∀ items : List TcpTxItem, Decidable (HeadFits items)
  | [] => .isTrue fun _ hhead => nomatch hhead
  | head :: items => decidable_of_iff (head.sacked = true → RenoFits items)
      ⟨fun hfits _ hother => Option.some.inj hother ▸ hfits, fun hall => hall head rfl⟩

theorem headFits_of_free {items : List TcpTxItem} (hfree : HeadFree items) : HeadFits items :=
  fun head hhead hsacked => absurd hsacked (by rw [hfree head hhead]; exact Bool.false_ne_true)

theorem unacked_mem {item : TcpTxItem} (items : List TcpTxItem) : ∀ {offset : Nat},
    item ∈ unacked offset items → item ∈ items := by
  induction items with
  | nil => exact id
  | cons first items ih =>
      intro offset hmem
      rw [unacked] at hmem
      split at hmem
      next => exact List.mem_cons_of_mem _ (ih hmem)
      next => exact hmem

theorem headFits_relabel {head other : TcpTxItem} {items : List TcpTxItem}
    (hfits : HeadFits (head :: items)) (hsacked : other.sacked = head.sacked) :
    HeadFits (other :: items) := by
  intro first hfirst hflag
  obtain rfl := Option.some.inj hfirst
  exact hfits head rfl (hsacked.symm.trans hflag)

theorem headFits_of_unsacked {items : List TcpTxItem} (hitems : ∀ item ∈ items, item.sacked = false)
    (offset : Nat) : HeadFits (unacked offset items) :=
  headFits_of_free fun head hhead => hitems head (unacked_mem items (List.mem_of_mem_head? hhead))

theorem unacked_zero {items : List TcpTxItem} (nonEmpty : NonEmpty items) :
    unacked 0 items = items := by
  cases items with
  | nil => rfl
  | cons item items =>
      have hpos := nonEmpty.size_pos List.mem_cons_self
      rw [unacked, if_neg (by rw [TcpTxItem.size] at *; omega)]

theorem unflagged_of_bytesWith {flag : TcpTxItem → Bool} {items : List TcpTxItem}
    (nonEmpty : NonEmpty items) (hzero : bytesWith flag items = 0) :
    ∀ item ∈ items, flag item = false := by
  induction items with
  | nil => exact fun _ hmem => nomatch hmem
  | cons first items ih =>
      rw [bytesWith] at hzero
      intro item hmem
      rcases List.mem_cons.mp hmem with rfl | hmem
      · have hpos := nonEmpty.size_pos List.mem_cons_self
        cases hflag : flag item with
        | false => rfl
        | true =>
            rw [if_pos hflag] at hzero
            omega
      · exact ih (fun other hother => nonEmpty other (List.mem_cons_of_mem _ hother))
          (by omega) item hmem

theorem copyBlock_sackedOut {tx : TcpTxBuffer}
    {recurse : Nat → Option (TcpTxBuffer × Option TcpTxItem)} {now numBytes seq : Nat}
    {result : TcpTxBuffer × Option TcpTxItem}
    (hrecurse : ∀ amount result, recurse amount = some result → result.1.sackedOut = tx.sackedOut)
    (hcopy : tx.copyBlock recurse now numBytes seq = some result) :
    result.1.sackedOut = tx.sackedOut := by
  rcases TcpTxBuffer.copyBlock_cases hcopy with rfl | ⟨s, -, -, hcases⟩
  · rfl
  · rcases hcases with ⟨out, hout, -, hsend⟩ | ⟨out, -, hout, -, hsend⟩ | ⟨-, -, hinner⟩
    · cases TcpTxBuffer.OutItem.send_some hsend
      rw [TcpTxBuffer.getTransmittedSegment] at hout
      split at hout
      next =>
        obtain ⟨found, -, rfl⟩ := Option.map_eq_some_iff.mp hout
        rfl
      next => cases hout
    · cases TcpTxBuffer.OutItem.send_some hsend
      obtain ⟨found, -, rfl⟩ := Option.map_eq_some_iff.mp hout
      rfl
    · exact hrecurse _ _ hinner

namespace Scores

variable {tx next : TcpTxBuffer} {remaining : List UInt8}

/-- What `CopyFromSequence` makes of an empty sent list has no sacked item. -/
theorem copied_unsacked (scores : Scores tx) (holds : Stream tx remaining) (hnil : tx.sentList = [])
    {now numBytes seq : Nat} (hsmall : numBytes < 4294967296) (hseq : seq < 4294967296)
    {result : TcpTxBuffer × Option TcpTxItem}
    (hcopy : tx.copyFromSequence now numBytes seq = some result) :
    ∀ item ∈ result.1.sentList, item.sacked = false := by
  have hsame : result.1.sackedOut = tx.sackedOut :=
    copyBlock_sackedOut (fun _ _ hinner => copyBlock_sackedOut
      (fun _ _ hnone => absurd hnone.symm (Option.some_ne_none _)) hinner) hcopy
  have hzero : tx.sackedOut = 0 := by
    rw [scores.scored.sackedOut, hnil]
    rfl
  have hcopied := (scores.copyFromSequence holds hsmall hseq hcopy).1.scored.sackedOut
  rw [hsame, hzero] at hcopied
  obtain ⟨copied, out⟩ := result
  exact unflagged_of_bytesWith
    (holds.copyFromSequence hsmall hseq copied out hcopy).1.sentNonEmpty hcopied.symm

/-- The loop of `DiscardUpTo` keeps the counters. -/
theorem discardLoop {now : Nat} (fuel : Nat) :
    ∀ {tx : TcpTxBuffer} {remaining : List UInt8} {offset : Nat}, Scores tx → Stream tx remaining →
      offset < 4294967296 → HeadFits (unacked offset tx.sentList) →
      TcpTxBuffer.discardLoop now fuel tx offset = some next →
      Scores next ∧ HeadFits next.sentList := by
  induction fuel with
  | zero => exact fun _ _ _ _ hloop => nomatch hloop
  | succ fuel ih =>
      intro tx remaining offset scores holds hoffset hfits hloop
      rw [TcpTxBuffer.discardLoop] at hloop
      split at hloop
      next hdone =>
        cases hloop
        refine ⟨scores, ?_⟩
        rcases hdone with hsize | rfl
        · have hbytes := congrArg List.length holds.bytes
          have hlength := holds.size
          rw [List.length_append] at hbytes
          rw [holds.sentNonEmpty.eq_nil (by omega)]
          exact fun _ hhead => nomatch hhead
        · rwa [unacked_zero holds.sentNonEmpty] at hfits
      next =>
        split at hloop
        next hnil =>
          obtain ⟨result, hcopy, hrest⟩ := Option.bind_eq_some_iff.mp hloop
          split at hrest
          next => cases hrest
          next =>
            have hunsacked := scores.copied_unsacked holds hnil hoffset holds.firstByteSeq hcopy
            obtain ⟨copied, out⟩ := result
            exact ih (scores.copyFromSequence holds hoffset holds.firstByteSeq hcopy).1
              (holds.copyFromSequence hoffset holds.firstByteSeq copied out hcopy).1 hoffset
              (headFits_of_unsacked hunsacked offset) hrest
        next item items hcons =>
          have hscored := scores.scored
          have hbytes : stream tx.sentList = item.packet ++ stream items := by
            rw [hcons, stream_cons]
          have hplaced := holds.placed
          have hnonEmpty := holds.sentNonEmpty
          rw [hcons] at hscored hplaced hnonEmpty hfits
          split at hloop
          next => cases hloop
          next =>
            split at hloop
            next hle =>
              obtain ⟨removed, hremoved, hrest⟩ := Option.bind_eq_some_iff.mp hloop
              have hadvanced := holds.advance hbytes
                (fun other hmem => hnonEmpty other (List.mem_cons_of_mem _ hmem)) (by
                  have := hplaced.2
                  rwa [Nat.zero_add] at this)
              obtain ⟨hstream, -⟩ := hadvanced.removeFromCounts hremoved
              obtain ⟨hscores, hitems⟩ := @removeFromCounts (tx.advance items item.size) removed items
                item item.size hscored.sackedOut hscored.lostOut hscored.retrans rfl
                (fun other hmem => hscored.notBoth other (List.mem_cons_of_mem _ hmem)) scores.app
                hremoved
              rw [unacked, if_pos hle] at hfits
              exact ih hscores hstream (by omega) (hitems ▸ hfits) hrest
            next hlt =>
              rw [unacked, if_neg hlt] at hfits
              generalize hother : ({ item with
                packet := item.packet.drop offset
                startSeq := add32 item.startSeq offset } : TcpTxItem) = other at hloop
              have hsacked : other.sacked = item.sacked := by rw [← hother]
              have hlost : other.lost = item.lost := by rw [← hother]
              have hretrans : other.retrans = item.retrans := by rw [← hother]
              have hsize : other.size = item.size - offset := by
                rw [← hother, TcpTxItem.size, List.length_drop]
                rfl
              have hpart : ∀ flag : TcpTxItem → Bool, flag other = flag item →
                  bytesWith flag (item :: items) =
                    (if flag item then offset else 0) + bytesWith flag (other :: items) := by
                intro flag hflag
                rw [bytesWith, bytesWith, hflag, hsize]
                split <;> omega
              obtain ⟨hscores, hitems⟩ :=
                @removeFromCounts (tx.advance (other :: items) offset) next (other :: items) item offset
                  (hscored.sackedOut.trans (hpart _ hsacked)) (hscored.lostOut.trans (hpart _ hlost))
                  (hscored.retrans.trans (hpart _ hretrans)) rfl
                  (fun behind hmem => by
                    rcases List.mem_cons.mp hmem with rfl | hmem
                    · rw [hsacked, hlost]
                      exact hscored.notBoth item List.mem_cons_self
                    · exact hscored.notBoth behind (List.mem_cons_of_mem _ hmem))
                  scores.app hloop
              refine ⟨hscores, ?_⟩
              rw [hitems]
              exact headFits_relabel hfits hsacked

end Scores

end DeepcV2x.Tcp
