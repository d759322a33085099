import DeepcV2x.Tcp.Scoreboard

/-!
# Runs of the scoreboard

The acknowledgements and resets that change the flags, and from them what holds
of the counters after every run whose operations do not lose track of a flag.
-/

namespace DeepcV2x.Tcp

open SequenceNumber32

theorem bytesWith_map (flag : TcpTxItem → Bool) (change : TcpTxItem → TcpTxItem)
    (hpacket : ∀ item, (change item).packet = item.packet) (items : List TcpTxItem) :
    bytesWith flag (items.map change) = bytesWith (fun item => flag (change item)) items := by
  induction items with
  | nil => rfl
  | cons item items ih =>
      rw [List.map_cons, bytesWith, bytesWith, ih, TcpTxItem.size, hpacket]
      rfl

theorem bytesWith_false (items : List TcpTxItem) : bytesWith (fun _ => false) items = 0 :=
  bytesWith_eq_zero fun _ _ => rfl

theorem bytesWith_true (items : List TcpTxItem) :
    bytesWith (fun _ => true) items = (stream items).length := by
  induction items with
  | nil => rfl
  | cons item items ih =>
      rw [bytesWith, ih, stream_cons, List.length_append, if_pos rfl, TcpTxItem.size]

/-- Sacked and lost items do not share bytes. -/
theorem Scored.sum_le {items : List TcpTxItem} {sackedOut lostOut retrans : Nat}
    (scored : Scored items sackedOut lostOut retrans) :
    sackedOut + lostOut ≤ (stream items).length := by
  rw [scored.sackedOut, scored.lostOut]
  have hnotBoth := scored.notBoth
  clear scored
  induction items with
  | nil => exact Nat.le_refl _
  | cons item items ih =>
      have hrest := ih fun other hmem => hnotBoth other (List.mem_cons_of_mem _ hmem)
      have hitem := hnotBoth item List.mem_cons_self
      rw [bytesWith, bytesWith, stream_cons, List.length_append, TcpTxItem.size]
      cases hsacked : item.sacked with
      | true =>
          have hlost : item.lost = false := by
            cases hlost : item.lost with
            | true => exact absurd ⟨hsacked, hlost⟩ hitem
            | false => rfl
          rw [hlost, if_pos rfl, if_neg Bool.false_ne_true]
          omega
      | false =>
          rw [if_neg Bool.false_ne_true]
          split <;> omega

/-! ## Reno acknowledgements -/

theorem sackFirst_find {items : List TcpTxItem} {result : List TcpTxItem × TcpTxItem}
    (hsack : TcpTxBuffer.sackFirst items = some result) :
    (items.find? fun item => !item.sacked) = some result.2 := by
  induction items generalizing result with
  | nil => cases hsack
  | cons item items ih =>
      rw [TcpTxBuffer.sackFirst] at hsack
      split at hsack
      next hflag =>
        obtain ⟨rest, hrest, rfl⟩ := Option.map_eq_some_iff.mp hsack
        rw [List.find?_cons_of_neg (by rw [hflag]; exact Bool.false_ne_true)]
        exact @ih rest hrest
      next hflag =>
        cases hsack
        rw [List.find?_cons_of_pos (by rw [Bool.eq_false_of_not_eq_true hflag]; rfl)]

theorem sackFirst_scored {items : List TcpTxItem} {result : List TcpTxItem × TcpTxItem}
    (hsack : TcpTxBuffer.sackFirst items = some result) (hlost : result.2.lost = false)
    (hnotBoth : ∀ item ∈ items, ¬ (item.sacked = true ∧ item.lost = true)) :
    bytesWith TcpTxItem.sacked result.1 = bytesWith TcpTxItem.sacked items + result.2.size ∧
      bytesWith TcpTxItem.lost result.1 = bytesWith TcpTxItem.lost items ∧
      bytesWith TcpTxItem.retrans result.1 = bytesWith TcpTxItem.retrans items ∧
      ∀ item ∈ result.1, ¬ (item.sacked = true ∧ item.lost = true) := by
  induction items generalizing result with
  | nil => cases hsack
  | cons item items ih =>
      have hitem := hnotBoth item List.mem_cons_self
      have hitems := fun other hmem => hnotBoth other (List.mem_cons_of_mem item hmem)
      rw [TcpTxBuffer.sackFirst] at hsack
      split at hsack
      next =>
        obtain ⟨rest, hrest, rfl⟩ := Option.map_eq_some_iff.mp hsack
        obtain ⟨hsum, hlosts, hretrans, hboth⟩ := ih hrest hlost hitems
        refine ⟨?_, ?_, ?_, ?_⟩
        · rw [bytesWith, bytesWith, hsum, Nat.add_assoc]
        · rw [bytesWith, bytesWith, hlosts]
        · rw [bytesWith, bytesWith, hretrans]
        · intro other hmem
          rcases List.mem_cons.mp hmem with rfl | hmem
          · exact hitem
          · exact hboth other hmem
      next hflag =>
        cases hsack
        refine ⟨?_, ?_, ?_, ?_⟩
        · rw [bytesWith, bytesWith, if_pos rfl, if_neg hflag, Nat.zero_add]
          exact Nat.add_comm _ _
        · rfl
        · rfl
        · intro other hmem
          rcases List.mem_cons.mp hmem with rfl | hmem
          · exact fun hboth => Bool.false_ne_true (hlost.symm.trans hboth.2)
          · exact hitems other hmem

namespace Scores

variable {tx next : TcpTxBuffer} {remaining : List UInt8}

theorem addRenoSack (scores : Scores tx) (holds : Stream tx remaining)
    (hfits : RenoFits tx.sentList.tail) (hadd : tx.addRenoSack = some next) :
    Scores next ∧ (HeadFree tx.sentList → HeadFree next.sentList) := by
  have hscored := scores.scored
  have hlength := holds.length_lt
  rw [TcpTxBuffer.addRenoSack.eq_def] at hadd
  split at hadd
  next => cases hadd
  next head items hcons =>
    rw [hcons] at hscored hfits hlength
    split at hadd
    next => cases hadd
    next =>
      split at hadd
      next =>
        cases hadd
        exact ⟨⟨scores.scored, scores.app⟩, id⟩
      next sacked item hsack =>
        cases hadd
        obtain ⟨hsum, hlosts, hretrans, hboth⟩ := sackFirst_scored hsack
          (hfits item (sackFirst_find hsack))
          fun other hmem => hscored.notBoth other (List.mem_cons_of_mem _ hmem)
        refine ⟨⟨⟨?_, ?_, ?_, ?_⟩, scores.app⟩, ?_⟩
        · have hbound := bytesWith_le TcpTxItem.sacked sacked
          have hlabel := congrArg List.length (stream_label (Stream.sackFirst_label items hsack))
          have hsackedOut := hscored.sackedOut
          simp only at hlabel hsum
          rw [stream_cons, List.length_append, ← TcpTxItem.size] at hlength
          rw [bytesWith] at hsackedOut
          show add32 tx.sackedOut item.size = bytesWith TcpTxItem.sacked (head :: sacked)
          rw [bytesWith, hsum, add32, hsackedOut]
          split <;> omega
        · show tx.lostOut = bytesWith TcpTxItem.lost (head :: sacked)
          rw [bytesWith, hlosts]
          exact hscored.lostOut
        · show tx.retrans = bytesWith TcpTxItem.retrans (head :: sacked)
          rw [bytesWith, hretrans]
          exact hscored.retrans
        · intro other hmem
          rcases List.mem_cons.mp hmem with rfl | hmem
          · exact hscored.notBoth other List.mem_cons_self
          · exact hboth other hmem
        · rw [hcons]
          exact fun hfree => hfree

theorem markHeadAsLost (scores : Scores tx) (holds : Stream tx remaining) :
    Scores tx.markHeadAsLost ∧ HeadFree tx.markHeadAsLost.sentList := by
  have hscored := scores.scored
  have hlength := holds.length_lt
  rw [TcpTxBuffer.markHeadAsLost.eq_def]
  split
  next hnil =>
    rw [hnil]
    exact ⟨scores, headFree_nil⟩
  next head items hcons =>
    rw [hcons] at hscored hlength
    obtain ⟨hsacked, hlost, hretrans, hboth⟩ := hscored
    rw [bytesWith] at hsacked hlost hretrans
    have hbound := bytesWith_le TcpTxItem.sacked items
    have hbound' := bytesWith_le TcpTxItem.lost items
    have hbound'' := bytesWith_le TcpTxItem.retrans items
    rw [stream_cons, List.length_append, ← TcpTxItem.size] at hlength
    refine ⟨⟨⟨?_, ?_, ?_, ?_⟩, scores.app⟩, ?_⟩
    · show (if head.sacked then sub32 tx.sackedOut head.size else tx.sackedOut) =
        0 + bytesWith TcpTxItem.sacked items
      rw [hsacked, sub32]
      split <;> omega
    · show (if head.lost then tx.lostOut else add32 tx.lostOut head.size) =
        head.size + bytesWith TcpTxItem.lost items
      rw [hlost, add32]
      split <;> omega
    · show (if head.retrans then sub32 tx.retrans head.size else tx.retrans) =
        0 + bytesWith TcpTxItem.retrans items
      rw [hretrans, sub32]
      split <;> omega
    · intro other hmem
      rcases List.mem_cons.mp hmem with rfl | hmem
      · exact fun hflags => Bool.false_ne_true hflags.1
      · exact hboth other (List.mem_cons_of_mem _ hmem)
    · intro first hfirst
      obtain rfl := Option.some.inj hfirst
      rfl

theorem moveHeadSack (scores : Scores tx) (holds : Stream tx remaining)
    (hfits : HeadFits tx.sentList) {seq : Nat} (hmove : tx.moveHeadSack seq = some next) :
    Scores next ∧ HeadFree next.sentList := by
  have hscored := scores.scored
  rw [TcpTxBuffer.moveHeadSack.eq_def] at hmove
  split at hmove
  next hnil =>
    cases hmove
    rw [hnil]
    exact ⟨scores, headFree_nil⟩
  next head items hcons =>
    rw [hcons] at hscored hfits
    split at hmove
    next => cases hmove
    next =>
      split at hmove
      next hflag =>
        split at hmove
        next => cases hmove
        next =>
          obtain ⟨added, hadded, rfl⟩ := Option.map_eq_some_iff.mp hmove
          have hlabel : ({ head with sacked := false } :: items : List TcpTxItem).map TcpTxItem.label =
              tx.sentList.map TcpTxItem.label := by
            rw [hcons]
            rfl
          have hstream : Stream
              { tx with
                sentList := { head with sacked := false } :: items
                sackedOut := sub32 tx.sackedOut head.size } remaining :=
            holds.relabel hlabel rfl rfl rfl rfl rfl
          have hflagged : Scores
              { tx with
                sentList := { head with sacked := false } :: items
                sackedOut := sub32 tx.sackedOut head.size } := by
            refine ⟨⟨?_, hscored.lostOut, hscored.retrans, ?_⟩, scores.app⟩
            · have hlength := holds.length_lt
              have hsacked := hscored.sackedOut
              have hbound := bytesWith_le TcpTxItem.sacked items
              rw [hcons, stream_cons, List.length_append, ← TcpTxItem.size] at hlength
              rw [bytesWith, if_pos hflag] at hsacked
              show sub32 tx.sackedOut head.size = 0 + bytesWith TcpTxItem.sacked items
              rw [hsacked, sub32]
              omega
            · intro other hmem
              rcases List.mem_cons.mp hmem with rfl | hmem
              · exact fun hboth => Bool.false_ne_true hboth.1
              · exact hscored.notBoth other (List.mem_cons_of_mem _ hmem)
          obtain ⟨hadd, -⟩ := hflagged.addRenoSack hstream (hfits head rfl hflag) hadded
          exact hadd.markHeadAsLost (hstream.addRenoSack hadded).1
      next hflag =>
        cases hmove
        refine ⟨scores, ?_⟩
        rw [hcons]
        intro first hfirst
        obtain rfl := Option.some.inj hfirst
        exact Bool.not_eq_true _ ▸ hflag

theorem settle (scores : Scores tx) (hfree : HeadFree tx.sentList) {seq : Nat}
    (hsettle : tx.settle seq = some next) : Scores next ∧ HeadFree next.sentList := by
  have hreset : Scores (if Le tx.highestSack.2 tx.firstByteSeq then
      { tx with highestSack := (none, 0) } else tx) ∧
      HeadFree (if Le tx.highestSack.2 tx.firstByteSeq then
        { tx with highestSack := (none, 0) } else tx).sentList := by
    split
    next => exact ⟨⟨scores.scored, scores.app⟩, hfree⟩
    next => exact ⟨scores, hfree⟩
  rw [TcpTxBuffer.settle] at hsettle
  generalize (if Le tx.highestSack.2 tx.firstByteSeq then
      { tx with highestSack := (none, 0) } else tx) = reset at hreset hsettle
  split at hsettle
  next =>
    cases hsettle
    exact hreset
  next => cases hsettle

theorem discardUpTo (scores : Scores tx) (holds : Stream tx remaining) (hfree : HeadFree tx.sentList)
    {now seq : Nat} (hseq : seq < 4294967296)
    (hfits : Gt seq tx.firstByteSeq → HeadFits (unacked (sub32 seq tx.firstByteSeq) tx.sentList))
    (hdiscard : tx.discardUpTo now seq = some next) :
    Scores next ∧ HeadFree next.sentList := by
  rw [TcpTxBuffer.discardUpTo] at hdiscard
  split at hdiscard
  next =>
    cases hdiscard
    exact ⟨scores, hfree⟩
  next hge =>
    have hgt : Gt seq tx.firstByteSeq := by
      have := holds.firstByteSeq
      simp only [Ge, Gt] at hge ⊢
      omega
    have hoffset : sub32 seq tx.firstByteSeq < 4294967296 := Nat.mod_lt _ (by decide)
    obtain ⟨looped, hlooped, hrest⟩ := Option.bind_eq_some_iff.mp hdiscard
    obtain ⟨moved, hmoved, hsettle⟩ := Option.bind_eq_some_iff.mp hrest
    obtain ⟨hscores, hheadFits⟩ := discardLoop _ scores holds hoffset (hfits hgt) hlooped
    obtain ⟨hstream, -⟩ := Stream.discardLoop _ holds hoffset hlooped
    have hemptied : Scores (if looped.size = 0 then { looped with firstByteSeq := seq } else looped) ∧
        HeadFits (if looped.size = 0 then { looped with firstByteSeq := seq } else looped).sentList := by
      split
      next => exact ⟨⟨hscores.scored, hscores.app⟩, hheadFits⟩
      next => exact ⟨hscores, hheadFits⟩
    obtain ⟨hmove, hmoveFree⟩ := hemptied.1.moveHeadSack (hstream.emptied hseq) hemptied.2 hmoved
    exact hmove.settle hmoveFree hsettle

/-! ## Resets -/

theorem add (scores : Scores tx) (packet : List UInt8) :
    Scores (tx.add packet).1 ∧ (tx.add packet).1.sentList = tx.sentList := by
  rw [TcpTxBuffer.add]
  split
  next =>
    split
    next =>
      refine ⟨⟨scores.scored, fun item hmem => ?_⟩, rfl⟩
      rcases List.mem_append.mp hmem with hmem | hmem
      · exact scores.app item hmem
      · cases List.mem_singleton.mp hmem
        exact ⟨rfl, rfl, rfl⟩
    next => exact ⟨scores, rfl⟩
  next => exact ⟨scores, rfl⟩

theorem resetRenoSack (scores : Scores tx) :
    Scores tx.resetRenoSack ∧ HeadFree tx.resetRenoSack.sentList := by
  obtain ⟨⟨hsacked, hlost, hretrans, hboth⟩, happ⟩ := scores
  refine ⟨⟨⟨?_, ?_, ?_, ?_⟩, happ⟩, ?_⟩
  · exact ((bytesWith_map TcpTxItem.sacked _ (by intro; rfl) tx.sentList).trans
      (bytesWith_false tx.sentList)).symm
  · show tx.lostOut = bytesWith TcpTxItem.lost (tx.sentList.map _)
    rwa [bytesWith_map]
    exact fun _ => rfl
  · show tx.retrans = bytesWith TcpTxItem.retrans (tx.sentList.map _)
    rwa [bytesWith_map]
    exact fun _ => rfl
  · intro item hmem hflags
    obtain ⟨other, -, rfl⟩ := List.mem_map.mp hmem
    exact Bool.false_ne_true hflags.1
  · intro head hhead
    obtain ⟨other, -, rfl⟩ := List.mem_map.mp (List.mem_of_mem_head? hhead)
    rfl

theorem resetSentList (scores : Scores tx) :
    Scores tx.resetSentList ∧ HeadFree tx.resetSentList.sentList := by
  refine ⟨⟨⟨rfl, rfl, rfl, fun _ hmem => nomatch hmem⟩, ?_⟩, headFree_nil⟩
  intro item hmem
  rcases List.mem_append.mp hmem with hmem | hmem
  · obtain ⟨other, -, rfl⟩ := List.mem_map.mp hmem
    exact ⟨rfl, rfl, rfl⟩
  · exact scores.app item hmem

/-- `ResetLastSegmentSent` keeps the counters when the last item has no flag. -/
theorem resetLastSegmentSent (scores : Scores tx)
    (hplain : ∀ item ∈ tx.sentList.getLast?, Plain item) :
    Scores tx.resetLastSegmentSent ∧
      (HeadFree tx.sentList → HeadFree tx.resetLastSegmentSent.sentList) := by
  rw [TcpTxBuffer.resetLastSegmentSent.eq_def]
  split
  next => exact ⟨scores, id⟩
  next item hlast =>
    have hitem := hplain item hlast
    have hlist : tx.sentList.dropLast ++ [item] = tx.sentList :=
      List.dropLast_append_getLast? item hlast
    obtain ⟨⟨hsacked, hlost, hretrans, hboth⟩, happ⟩ := scores
    rw [← hlist, bytesWith_append, bytesWith, bytesWith, Nat.add_zero] at hsacked hlost hretrans
    rw [hitem.1, if_neg Bool.false_ne_true, Nat.add_zero] at hsacked
    rw [hitem.2.1, if_neg Bool.false_ne_true, Nat.add_zero] at hlost
    rw [hitem.2.2, if_neg Bool.false_ne_true, Nat.add_zero] at hretrans
    refine ⟨⟨⟨hsacked, hlost, ?_, ?_⟩, ?_⟩, fun hfree => ?_⟩
    · show (if item.retrans then _ else tx.retrans) = _
      rw [hitem.2.2, if_neg Bool.false_ne_true]
      exact hretrans
    · exact fun other hmem => hboth other (hlist ▸ List.mem_append_left _ hmem)
    · intro other hmem
      rcases List.mem_cons.mp hmem with rfl | hmem
      · exact hitem
      · exact happ other hmem
    · intro head hhead
      refine hfree head ?_
      rw [← hlist]
      cases hcases : tx.sentList.dropLast with
      | nil => rw [hcases] at hhead; cases hhead
      | cons first items =>
          rw [hcases] at hhead
          exact hhead

theorem countLost_eq (items : List TcpTxItem) (hsmall : (stream items).length < 4294967296) :
    TcpTxBuffer.countLost items = bytesWith (fun item => item.lost || !item.sacked) items := by
  induction items with
  | nil => rfl
  | cons item items ih =>
      rw [stream_cons, List.length_append, ← TcpTxItem.size] at hsmall
      have hbound := bytesWith_le (fun item => item.lost || !item.sacked) items
      rw [TcpTxBuffer.countLost, bytesWith, ih (by omega)]
      cases item.lost <;> cases item.sacked <;> simp [add32] <;> omega

theorem setSentListLost (scores : Scores tx) (holds : Stream tx remaining) {resetSack : Bool}
    (hset : tx.setSentListLost resetSack = some next) :
    Scores next ∧ (HeadFree tx.sentList → HeadFree next.sentList) := by
  obtain ⟨⟨hsacked, hlost, hretrans, hboth⟩, happ⟩ := scores
  cases resetSack with
  | true =>
      rw [TcpTxBuffer.setSentListLost, if_pos rfl] at hset
      split at hset
      next =>
        cases hset
        refine ⟨⟨⟨?_, ?_, ?_, ?_⟩, happ⟩, fun _ => ?_⟩
        · exact ((bytesWith_map TcpTxItem.sacked _ (by intro; rfl) tx.sentList).trans
            (bytesWith_false tx.sentList)).symm
        · exact holds.sentSize.trans ((bytesWith_map TcpTxItem.lost _ (by intro; rfl)
            tx.sentList).trans (bytesWith_true tx.sentList)).symm
        · exact ((bytesWith_map TcpTxItem.retrans _ (by intro; rfl) tx.sentList).trans
            (bytesWith_false tx.sentList)).symm
        · intro item hmem hflags
          obtain ⟨other, -, rfl⟩ := List.mem_map.mp hmem
          exact Bool.false_ne_true hflags.1
        · intro head hhead
          obtain ⟨other, -, rfl⟩ := List.mem_map.mp (List.mem_of_mem_head? hhead)
          rfl
      next => cases hset
  | false =>
      rw [TcpTxBuffer.setSentListLost, if_neg Bool.false_ne_true] at hset
      split at hset
      next =>
        cases hset
        refine ⟨⟨⟨?_, ?_, ?_, ?_⟩, happ⟩, fun hfree => ?_⟩
        · show tx.sackedOut = bytesWith TcpTxItem.sacked (tx.sentList.map _)
          rwa [bytesWith_map]
          exact fun _ => rfl
        · have hlength := holds.length_lt
          show TcpTxBuffer.countLost tx.sentList = bytesWith TcpTxItem.lost (tx.sentList.map _)
          rw [countLost_eq tx.sentList (by omega), bytesWith_map]
          exact fun _ => rfl
        · exact ((bytesWith_map TcpTxItem.retrans _ (by intro; rfl) tx.sentList).trans
            (bytesWith_false tx.sentList)).symm
        · intro item hmem hflags
          obtain ⟨other, hother, rfl⟩ := List.mem_map.mp hmem
          have hsackedOther : other.sacked = true := hflags.1
          have hlostOther : (other.lost || !other.sacked) = true := hflags.2
          rw [hsackedOther, Bool.not_true, Bool.or_false] at hlostOther
          exact hboth other hother ⟨hsackedOther, hlostOther⟩
        · intro head hhead
          obtain ⟨other, hother, rfl⟩ := Option.map_eq_some_iff.mp (List.head?_map.symm.trans hhead)
          exact hfree other hother
      next => cases hset

end Scores

/-! ## Selective acknowledgements -/

/-- A board counts some items and the bytes of those in front of them. -/
structure Counted (board : TcpTxBuffer.Board) (items : List TcpTxItem)
    (frontSacked frontLost : Nat) : Prop where
  sackedOut : board.sackedOut = frontSacked + bytesWith TcpTxItem.sacked items
  lostOut : board.lostOut = frontLost + bytesWith TcpTxItem.lost items
  sackedRoom : frontSacked + (stream items).length < 4294967296
  lostRoom : frontLost + (stream items).length < 4294967296
  notBoth : ∀ item ∈ items, ¬ (item.sacked = true ∧ item.lost = true)

namespace Counted

variable {board : TcpTxBuffer.Board} {item : TcpTxItem} {items : List TcpTxItem}
  {frontSacked frontLost : Nat}

theorem tail (counted : Counted board (item :: items) frontSacked frontLost) :
    Counted board items (frontSacked + if item.sacked then item.size else 0)
      (frontLost + if item.lost then item.size else 0) := by
  obtain ⟨hsacked, hlost, hroom, hroom', hboth⟩ := counted
  rw [stream_cons, List.length_append, ← TcpTxItem.size] at hroom hroom'
  rw [bytesWith, ← Nat.add_assoc] at hsacked hlost
  refine ⟨hsacked, hlost, ?_, ?_, fun other hmem => hboth other (List.mem_cons_of_mem _ hmem)⟩
  · split <;> omega
  · split <;> omega

/-- Sacking the first item moves its bytes in front. -/
theorem sack (counted : Counted board (item :: items) frontSacked frontLost)
    (hsacked : item.sacked = false) (beginOfCurrentPacket : Nat) :
    Counted (board.sack item beginOfCurrentPacket) items (frontSacked + item.size) frontLost := by
  obtain ⟨hsackedOut, hlostOut, hroom, hroom', hboth⟩ := counted
  have hbound := bytesWith_le TcpTxItem.sacked items
  have hbound' := bytesWith_le TcpTxItem.lost items
  rw [stream_cons, List.length_append, ← TcpTxItem.size] at hroom hroom'
  rw [bytesWith] at hsackedOut hlostOut
  rw [hsacked, if_neg Bool.false_ne_true] at hsackedOut
  refine ⟨?_, ?_, by omega, by omega, fun other hmem => hboth other (List.mem_cons_of_mem _ hmem)⟩
  · show add32 board.sackedOut item.size = _
    rw [hsackedOut, add32]
    omega
  · show (if item.lost then sub32 board.lostOut item.size else board.lostOut) = _
    rw [hlostOut, sub32]
    split <;> omega

end Counted

/-- What the inner loop of `Update` keeps. -/
theorem sackItems_counted {first second : Nat} (items : List TcpTxItem) :
    ∀ {beginOfCurrentPacket frontSacked frontLost : Nat} {board : TcpTxBuffer.Board}
      {result : List TcpTxItem × TcpTxBuffer.Board},
      Counted board items frontSacked frontLost →
      TcpTxBuffer.sackItems first second beginOfCurrentPacket board items = some result →
      Counted result.2 result.1 frontSacked frontLost ∧
        bytesWith TcpTxItem.retrans result.1 = bytesWith TcpTxItem.retrans items := by
  induction items with
  | nil =>
      intro _ _ _ _ _ counted hsack
      cases hsack
      exact ⟨counted, rfl⟩
  | cons item items ih =>
      intro beginOfCurrentPacket frontSacked frontLost board result counted hsack
      have hlabel := stream_label (Stream.sackItems_label (item :: items) hsack)
      have hroom := counted.sackedRoom
      have hroom' := counted.lostRoom
      rw [← hlabel] at hroom hroom'
      have hkept : ∀ rest, TcpTxBuffer.sackItems first second
          (add32 beginOfCurrentPacket item.size) board items = some rest → result = (item :: rest.1, rest.2) →
          Counted result.2 result.1 frontSacked frontLost ∧
            bytesWith TcpTxItem.retrans result.1 = bytesWith TcpTxItem.retrans (item :: items) := by
        rintro rest hrest rfl
        obtain ⟨hcounted, hretrans⟩ := ih counted.tail hrest
        refine ⟨⟨?_, ?_, hroom, hroom', ?_⟩, ?_⟩
        · rw [bytesWith, ← Nat.add_assoc]
          exact hcounted.sackedOut
        · rw [bytesWith, ← Nat.add_assoc]
          exact hcounted.lostOut
        · intro other hmem
          rcases List.mem_cons.mp hmem with rfl | hmem
          · exact counted.notBoth other List.mem_cons_self
          · exact hcounted.notBoth other hmem
        · rw [bytesWith, bytesWith, hretrans]
      rw [TcpTxBuffer.sackItems] at hsack
      split at hsack
      next =>
        split at hsack
        next =>
          split at hsack
          next => cases hsack
          next =>
            obtain ⟨rest, hrest, hresult⟩ := Option.map_eq_some_iff.mp hsack
            exact hkept rest hrest hresult.symm
        next hsacked =>
          obtain ⟨rest, hrest, rfl⟩ := Option.map_eq_some_iff.mp hsack
          obtain ⟨hcounted, hretrans⟩ :=
            ih (counted.sack (Bool.eq_false_of_not_eq_true hsacked) beginOfCurrentPacket) hrest
          refine ⟨⟨?_, ?_, hroom, hroom', ?_⟩, ?_⟩
          · rw [bytesWith, if_pos rfl, ← Nat.add_assoc]
            exact hcounted.sackedOut
          · rw [bytesWith, if_neg Bool.false_ne_true, Nat.zero_add]
            exact hcounted.lostOut
          · intro other hmem
            rcases List.mem_cons.mp hmem with rfl | hmem
            · exact fun hflags => Bool.false_ne_true hflags.2
            · exact hcounted.notBoth other hmem
          · rw [bytesWith, bytesWith, hretrans]
            rfl
      next =>
        split at hsack
        next =>
          cases hsack
          exact ⟨counted, rfl⟩
        next =>
          obtain ⟨rest, hrest, hresult⟩ := Option.map_eq_some_iff.mp hsack
          exact hkept rest hrest hresult.symm

/-- A block covers the bytes of an item. -/
def Covers (firstByteSeq : Nat) (item : TcpTxItem) (block : UInt32 × UInt32) : Prop :=
  Ge firstByteSeq block.1.toNat ∧ Le (add32 firstByteSeq item.size) block.2.toNat

instance (firstByteSeq : Nat) (item : TcpTxItem) (block : UInt32 × UInt32) :
    Decidable (Covers firstByteSeq item block) := inferInstanceAs (Decidable (_ ∧ _))

/-- No block covers the head before one is found outside the sent items. -/
def HeadSpared (firstByteSeq sentSize : Nat) (head : Option TcpTxItem) :
    List (UInt32 × UInt32) → Prop
  | [] => True
  | block :: blocks =>
      Lt (add32 firstByteSeq sentSize) block.1.toNat ∨
        (∀ item ∈ head, ¬ Covers firstByteSeq item block) ∧
          HeadSpared firstByteSeq sentSize head blocks

instance HeadSpared.decidable (firstByteSeq sentSize : Nat) (head : Option TcpTxItem) :
    ∀ blocks, Decidable (HeadSpared firstByteSeq sentSize head blocks)
  | [] => .isTrue trivial
  | _ :: blocks =>
      have := HeadSpared.decidable firstByteSeq sentSize head blocks
      inferInstanceAs (Decidable (_ ∨ _ ∧ _))

/-- One of the blocks is outside the sent items. -/
def SomeOutside (firstByteSeq sentSize : Nat) (blocks : List (UInt32 × UInt32)) : Prop :=
  ∃ block ∈ blocks, Lt (add32 firstByteSeq sentSize) block.1.toNat

instance (firstByteSeq sentSize : Nat) (blocks : List (UInt32 × UInt32)) :
    Decidable (SomeOutside firstByteSeq sentSize blocks) :=
  inferInstanceAs (Decidable (∃ block ∈ blocks, _))

theorem sackBlocks_counted {firstByteSeq sentSize : Nat} (blocks : List (UInt32 × UInt32)) :
    ∀ {board : TcpTxBuffer.Board} {items : List TcpTxItem}
      {result : List TcpTxItem × TcpTxBuffer.Board × Bool}, Counted board items 0 0 →
      TcpTxBuffer.sackBlocks firstByteSeq sentSize blocks board items = some result →
      Counted result.2.1 result.1 0 0 ∧
        bytesWith TcpTxItem.retrans result.1 = bytesWith TcpTxItem.retrans items := by
  induction blocks with
  | nil =>
      intro _ _ _ counted hsack
      cases hsack
      exact ⟨counted, rfl⟩
  | cons block blocks ih =>
      intro board items result counted hsack
      rw [TcpTxBuffer.sackBlocks] at hsack
      split at hsack
      next =>
        cases hsack
        exact ⟨counted, rfl⟩
      next =>
        obtain ⟨inner, hinner, hrest⟩ := Option.bind_eq_some_iff.mp hsack
        obtain ⟨hcounted, hretrans⟩ := sackItems_counted items counted hinner
        obtain ⟨hlast, hsame⟩ := ih hcounted hrest
        exact ⟨hlast, hsame.trans hretrans⟩

theorem sackItems_head {firstByteSeq : Nat} {block : UInt32 × UInt32} {items : List TcpTxItem}
    {board : TcpTxBuffer.Board} {result : List TcpTxItem × TcpTxBuffer.Board}
    (hspared : ∀ head ∈ items.head?, ¬ Covers firstByteSeq head block)
    (hsack : TcpTxBuffer.sackItems block.1.toNat block.2.toNat firstByteSeq board items =
      some result) :
    result.1.head? = items.head? := by
  cases items with
  | nil =>
      cases hsack
      rfl
  | cons item items =>
      rw [TcpTxBuffer.sackItems] at hsack
      split at hsack
      next hcovers => exact absurd hcovers (hspared item rfl)
      next =>
        split at hsack
        next =>
          cases hsack
          rfl
        next =>
          obtain ⟨rest, hrest, rfl⟩ := Option.map_eq_some_iff.mp hsack
          rfl

theorem sackBlocks_head {firstByteSeq sentSize : Nat} (blocks : List (UInt32 × UInt32)) :
    ∀ {board : TcpTxBuffer.Board} {items : List TcpTxItem}
      {result : List TcpTxItem × TcpTxBuffer.Board × Bool},
      HeadSpared firstByteSeq sentSize items.head? blocks →
      TcpTxBuffer.sackBlocks firstByteSeq sentSize blocks board items = some result →
      result.1.head? = items.head? := by
  induction blocks with
  | nil =>
      intro _ _ _ _ hsack
      cases hsack
      rfl
  | cons block blocks ih =>
      intro board items result hspared hsack
      rw [TcpTxBuffer.sackBlocks] at hsack
      split at hsack
      next =>
        cases hsack
        rfl
      next hinside =>
        obtain ⟨inner, hinner, hrest⟩ := Option.bind_eq_some_iff.mp hsack
        obtain ⟨hcovers, hblocks⟩ := hspared.resolve_left hinside
        have hhead := sackItems_head hcovers hinner
        exact (ih (hhead ▸ hblocks) hrest).trans hhead

theorem sackBlocks_outside {firstByteSeq sentSize : Nat} (blocks : List (UInt32 × UInt32)) :
    ∀ {board : TcpTxBuffer.Board} {items : List TcpTxItem}
      {result : List TcpTxItem × TcpTxBuffer.Board × Bool},
      TcpTxBuffer.sackBlocks firstByteSeq sentSize blocks board items = some result →
      result.2.2 = true → SomeOutside firstByteSeq sentSize blocks := by
  induction blocks with
  | nil =>
      intro _ _ _ hsack hflag
      cases hsack
      cases hflag
  | cons block blocks ih =>
      intro board items result hsack hflag
      rw [TcpTxBuffer.sackBlocks] at hsack
      split at hsack
      next houtside => exact ⟨block, List.mem_cons_self, houtside⟩
      next =>
        obtain ⟨inner, hinner, hrest⟩ := Option.bind_eq_some_iff.mp hsack
        obtain ⟨other, hmem, houtside⟩ := ih hrest hflag
        exact ⟨other, List.mem_cons_of_mem _ hmem, houtside⟩

/-- What the loop of `UpdateLostCount` keeps. -/
theorem markLost_spec {dupAckThresh : Nat} (items : List TcpTxItem) :
    ∀ {sacked lostOut front : Nat}, lostOut = front + bytesWith TcpTxItem.lost items →
      front + (stream items).length < 4294967296 →
      (∀ item ∈ items, ¬ (item.sacked = true ∧ item.lost = true)) →
      (TcpTxBuffer.markLost dupAckThresh sacked lostOut items).2.2 =
          front + bytesWith TcpTxItem.lost
            (TcpTxBuffer.markLost dupAckThresh sacked lostOut items).1 ∧
        bytesWith TcpTxItem.sacked (TcpTxBuffer.markLost dupAckThresh sacked lostOut items).1 =
          bytesWith TcpTxItem.sacked items ∧
        bytesWith TcpTxItem.retrans (TcpTxBuffer.markLost dupAckThresh sacked lostOut items).1 =
          bytesWith TcpTxItem.retrans items ∧
        ∀ item ∈ (TcpTxBuffer.markLost dupAckThresh sacked lostOut items).1,
          ¬ (item.sacked = true ∧ item.lost = true) := by
  induction items with
  | nil => exact fun hlost _ hboth => ⟨hlost, rfl, rfl, hboth⟩
  | cons item items ih =>
      intro sacked lostOut front hlost hroom hboth
      have hitem := hboth item List.mem_cons_self
      have hitems := fun other hmem => hboth other (List.mem_cons_of_mem item hmem)
      have hbound := bytesWith_le TcpTxItem.lost items
      rw [stream_cons, List.length_append, ← TcpTxItem.size] at hroom
      rw [bytesWith] at hlost
      rw [TcpTxBuffer.markLost]
      generalize (if item.sacked then sacked + 1 else sacked) = count
      split
      next hflags =>
        rw [hflags.2.2, if_neg Bool.false_ne_true, Nat.zero_add] at hlost
        obtain ⟨hcount, hsacked, hretrans, hrest⟩ := @ih count (add32 lostOut item.size)
          (front + item.size) (by rw [add32]; omega) (by omega) hitems
        refine ⟨?_, ?_, ?_, ?_⟩
        · rw [bytesWith, if_pos rfl, ← Nat.add_assoc]
          exact hcount
        · rw [bytesWith, bytesWith, hsacked]
          rfl
        · rw [bytesWith, bytesWith, hretrans]
          rfl
        · intro other hmem
          rcases List.mem_cons.mp hmem with rfl | hmem
          · exact fun hboth => Bool.false_ne_true (hflags.2.1.symm.trans hboth.1)
          · exact hrest other hmem
      next =>
        obtain ⟨hcount, hsacked, hretrans, hrest⟩ := @ih count lostOut
          (front + if item.lost then item.size else 0) (by rw [hlost, Nat.add_assoc])
          (by split <;> omega) hitems
        refine ⟨?_, ?_, ?_, ?_⟩
        · rw [bytesWith, ← Nat.add_assoc]
          exact hcount
        · rw [bytesWith, bytesWith, hsacked]
        · rw [bytesWith, bytesWith, hretrans]
        · intro other hmem
          rcases List.mem_cons.mp hmem with rfl | hmem
          · exact hitem
          · exact hrest other hmem

namespace Scores

variable {tx next : TcpTxBuffer} {remaining : List UInt8}

theorem markFirstLost (scores : Scores tx) (holds : Stream tx remaining) {sacked : Nat}
    (hnext : tx.markFirstLost sacked = next) (hfree : HeadFree next.sentList) : Scores next := by
  rw [TcpTxBuffer.markFirstLost.eq_def] at hnext
  split at hnext
  next =>
    cases hnext
    exact scores
  next head items hcons =>
    split at hnext
    next hlost =>
      cases hnext
      have hscored := scores.scored
      have hlength := holds.length_lt
      rw [hcons] at hscored hlength
      obtain ⟨hsacked, hlostOut, hretrans, hboth⟩ := hscored
      have hbound := bytesWith_le TcpTxItem.lost items
      rw [stream_cons, List.length_append, ← TcpTxItem.size] at hlength
      rw [bytesWith, hlost.2, if_neg Bool.false_ne_true, Nat.zero_add] at hlostOut
      refine ⟨⟨hsacked, ?_, hretrans, ?_⟩, scores.app⟩
      · show add32 tx.lostOut head.size = head.size + bytesWith TcpTxItem.lost items
        rw [hlostOut, add32]
        omega
      · intro other hmem
        rcases List.mem_cons.mp hmem with rfl | hmem
        · exact fun hflags => Bool.false_ne_true ((hfree _ rfl).symm.trans hflags.1)
        · exact hboth other (List.mem_cons_of_mem _ hmem)
    next =>
      cases hnext
      exact scores

theorem updateLostCount (scores : Scores tx) (holds : Stream tx remaining)
    (hupdate : tx.updateLostCount = some next) (hfree : HeadFree next.sentList) : Scores next := by
  rw [TcpTxBuffer.updateLostCount.eq_def] at hupdate
  split at hupdate
  next head items node hcons hnode =>
    split at hupdate
    next =>
      cases hupdate
      exact scores.markFirstLost holds rfl hfree
    next =>
      obtain ⟨parts, hparts, rfl⟩ := Option.map_eq_some_iff.mp hupdate
      obtain ⟨⟨hsacked, hlost, hretrans, hboth⟩, happ⟩ := scores
      have hitems := Stream.upToNode_append items hparts
      have hlength := holds.length_lt
      rw [hcons, ← hitems] at hsacked hlost hretrans hboth
      rw [hcons, ← hitems, stream_cons, stream_append, List.length_append, List.length_append,
        ← TcpTxItem.size] at hlength
      rw [bytesWith, bytesWith_append] at hsacked hlost hretrans
      have hreverse : (stream parts.1.reverse).length = (stream parts.1).length := by
        rw [← bytesWith_true, bytesWith_reverse, bytesWith_true]
      have hbound := bytesWith_le TcpTxItem.lost parts.2
      obtain ⟨hcount, hmarkSacked, hmarkRetrans, hmarkBoth⟩ :=
        @markLost_spec tx.dupAckThresh parts.1.reverse 0 tx.lostOut
          ((if head.lost then head.size else 0) + bytesWith TcpTxItem.lost parts.2)
          (by rw [bytesWith_reverse]; omega) (by rw [hreverse]; split <;> omega)
          (fun other hmem => hboth other
            (List.mem_cons_of_mem _ (List.mem_append_left _ (List.mem_reverse.mp hmem))))
      have hmarked : Scores { tx with
          sentList := head ::
            ((TcpTxBuffer.markLost tx.dupAckThresh 0 tx.lostOut parts.1.reverse).1.reverse ++ parts.2)
          lostOut := (TcpTxBuffer.markLost tx.dupAckThresh 0 tx.lostOut parts.1.reverse).2.2 } := by
        refine ⟨⟨?_, ?_, ?_, ?_⟩, happ⟩
        · show tx.sackedOut = bytesWith TcpTxItem.sacked (head :: (_ ++ parts.2))
          rw [bytesWith, bytesWith_append, bytesWith_reverse, hmarkSacked, bytesWith_reverse]
          exact hsacked
        · refine hcount.trans ?_
          rw [bytesWith, bytesWith_append, bytesWith_reverse]
          omega
        · show tx.retrans = bytesWith TcpTxItem.retrans (head :: (_ ++ parts.2))
          rw [bytesWith, bytesWith_append, bytesWith_reverse, hmarkRetrans, bytesWith_reverse]
          exact hretrans
        · intro other hmem
          rcases List.mem_cons.mp hmem with rfl | hmem
          · exact hboth other List.mem_cons_self
          · rcases List.mem_append.mp hmem with hmem | hmem
            · exact hmarkBoth other (List.mem_reverse.mp hmem)
            · exact hboth other (List.mem_cons_of_mem _ (List.mem_append_right _ hmem))
      exact hmarked.markFirstLost (holds.marked hcons hparts) rfl hfree
  next => cases hupdate

theorem update (scores : Scores tx) (holds : Stream tx remaining) (hfree : HeadFree tx.sentList)
    {list : List (UInt32 × UInt32)}
    (hspared : SomeOutside tx.firstByteSeq tx.sentSize list →
      HeadSpared tx.firstByteSeq tx.sentSize tx.sentList.head? list)
    {result : TcpTxBuffer × Nat} (hupdate : tx.update list = some result) :
    Scores result.1 ∧ HeadFree result.1.sentList := by
  obtain ⟨sacked, hsacked, hrest⟩ := Option.bind_eq_some_iff.mp hupdate
  have hsent := Stream.sackBlocks_label list hsacked
  have hstream : Stream { tx with
      sentList := sacked.1
      lostOut := sacked.2.1.lostOut
      sackedOut := sacked.2.1.sackedOut
      highestSack := sacked.2.1.highestSack } remaining := holds.relabel hsent rfl rfl rfl rfl rfl
  have hlength := holds.length_lt
  obtain ⟨hcounted, hretrans⟩ := sackBlocks_counted list
    ⟨scores.scored.sackedOut.trans (Nat.zero_add _).symm,
      scores.scored.lostOut.trans (Nat.zero_add _).symm, by omega, by omega, scores.scored.notBoth⟩
    hsacked
  have hscores : Scores { tx with
      sentList := sacked.1
      lostOut := sacked.2.1.lostOut
      sackedOut := sacked.2.1.sackedOut
      highestSack := sacked.2.1.highestSack } :=
    ⟨⟨hcounted.sackedOut.trans (Nat.zero_add _), hcounted.lostOut.trans (Nat.zero_add _),
      scores.scored.retrans.trans hretrans.symm, hcounted.notBoth⟩, scores.app⟩
  simp only at hrest
  split at hrest
  next hflag =>
    cases hrest
    refine ⟨hscores, ?_⟩
    have hhead := sackBlocks_head list (hspared (sackBlocks_outside list hsacked hflag)) hsacked
    show HeadFree sacked.1
    rw [HeadFree, hhead]
    exact hfree
  next =>
    obtain ⟨last, hlast, rfl⟩ := Option.map_eq_some_iff.mp hrest
    obtain ⟨counted, hcounted, hchecked⟩ := Option.bind_eq_some_iff.mp hlast
    have hcheckedFree : last = counted ∧ HeadFree counted.sentList := by
      rw [TcpTxBuffer.checked.eq_def] at hchecked
      split at hchecked
      next => cases hchecked
      next head items hcons =>
        split at hchecked
        next hhead =>
          cases hchecked
          refine ⟨rfl, ?_⟩
          rw [hcons]
          intro first hfirst
          obtain rfl := Option.some.inj hfirst
          exact hhead.1
        next => cases hchecked
    obtain ⟨rfl, hcountedFree⟩ := hcheckedFree
    refine ⟨?_, hcountedFree⟩
    split at hcounted
    next => exact hscores.updateLostCount hstream hcounted hcountedFree
    next =>
      cases hcounted
      exact hscores

end Scores

/-! ## Runs -/

namespace Streaming

/-- The condition under which an operation keeps track of the flags. -/
def KeepsScore (streaming : Streaming) : TcpOp → Prop
  | .addRenoSack => RenoFits streaming.tx.sentList.tail
  | .discardUpTo _ seq =>
      Gt seq.toNat streaming.tx.firstByteSeq →
        HeadFits (unacked (sub32 seq.toNat streaming.tx.firstByteSeq) streaming.tx.sentList)
  | .resetLastSegmentSent => ∀ item ∈ streaming.tx.sentList.getLast?, Plain item
  | .update list =>
      SomeOutside streaming.tx.firstByteSeq streaming.tx.sentSize list →
        HeadSpared streaming.tx.firstByteSeq streaming.tx.sentSize streaming.tx.sentList.head? list
  | _ => True

instance (streaming : Streaming) : ∀ op, Decidable (streaming.KeepsScore op)
  | .addRenoSack => inferInstanceAs (Decidable (RenoFits _))
  | .discardUpTo _ _ => inferInstanceAs (Decidable (_ → HeadFits _))
  | .resetLastSegmentSent =>
      inferInstanceAs (Decidable (∀ item ∈ streaming.tx.sentList.getLast?, Plain item))
  | .update _ => inferInstanceAs (Decidable (SomeOutside _ _ _ → HeadSpared _ _ _ _))
  | .setHeadSequence _ => .isTrue trivial
  | .add _ => .isTrue trivial
  | .copyFromSequence _ _ _ => .isTrue trivial
  | .resetRenoSack => .isTrue trivial
  | .setSentListLost _ => .isTrue trivial
  | .resetSentList => .isTrue trivial
  | .markHeadAsLost => .isTrue trivial

/-- The stream and the scoreboard of a buffer whose head is not sacked. -/
def Balanced (streaming : Streaming) : Prop :=
  streaming.Holds ∧ Scores streaming.tx ∧ HeadFree streaming.tx.sentList

theorem step_balanced {streaming next : Streaming} {op : TcpOp} (balanced : streaming.Balanced)
    (keeps : streaming.KeepsScore op) (hstep : streaming.step op = some next) : next.Balanced := by
  refine ⟨step_holds balanced.1 hstep, ?_⟩
  obtain ⟨⟨-, hstream⟩, scores, hfree⟩ := balanced
  cases op with
  | setHeadSequence seq =>
      obtain ⟨tx, htx, rfl⟩ := Option.map_eq_some_iff.mp hstep
      rw [TcpTxBuffer.setHeadSequence] at htx
      split at htx
      next =>
        cases htx
        exact ⟨⟨scores.scored, scores.app⟩, hfree⟩
      next => cases htx
  | add packet =>
      cases hstep
      obtain ⟨hscores, hsame⟩ := scores.add packet
      exact ⟨hscores, hsame ▸ hfree⟩
  | copyFromSequence now numBytes seq =>
      obtain ⟨result, htx, rfl⟩ := Option.map_eq_some_iff.mp hstep
      obtain ⟨hscores, hhead⟩ := scores.copyFromSequence hstream numBytes.toNat_lt seq.toNat_lt htx
      exact ⟨hscores, hhead hfree⟩
  | discardUpTo now seq =>
      obtain ⟨tx, htx, rfl⟩ := Option.map_eq_some_iff.mp hstep
      exact scores.discardUpTo hstream hfree seq.toNat_lt keeps htx
  | update list =>
      obtain ⟨result, htx, rfl⟩ := Option.map_eq_some_iff.mp hstep
      exact scores.update hstream hfree keeps htx
  | addRenoSack =>
      obtain ⟨tx, htx, rfl⟩ := Option.map_eq_some_iff.mp hstep
      obtain ⟨hscores, hhead⟩ := scores.addRenoSack hstream keeps htx
      exact ⟨hscores, hhead hfree⟩
  | resetRenoSack =>
      cases hstep
      exact scores.resetRenoSack
  | setSentListLost resetSack =>
      obtain ⟨tx, htx, rfl⟩ := Option.map_eq_some_iff.mp hstep
      obtain ⟨hscores, hhead⟩ := scores.setSentListLost hstream htx
      exact ⟨hscores, hhead hfree⟩
  | resetSentList =>
      cases hstep
      exact scores.resetSentList
  | resetLastSegmentSent =>
      cases hstep
      obtain ⟨hscores, hhead⟩ := scores.resetLastSegmentSent keeps
      exact ⟨hscores, hhead hfree⟩
  | markHeadAsLost =>
      cases hstep
      exact scores.markHeadAsLost hstream

/-- After every run whose operations keep track of the flags, the counters are the sums over the
flags, no item is both sacked and lost, the head is not sacked, the application data has no flags,
and what is in flight can be counted. -/
theorem scoreboard_counts (firstByteSeq maxBuffer dupAckThresh : UInt32) (sackEnabled : Bool)
    {ops : List TcpOp} {streaming : Streaming}
    (hfits : Foundation.Runs.Fitting step KeepsScore
      (start firstByteSeq maxBuffer dupAckThresh sackEnabled) ops)
    (hrun : (start firstByteSeq maxBuffer dupAckThresh sackEnabled).run ops = some streaming) :
    Scores streaming.tx ∧ HeadFree streaming.tx.sentList ∧
      streaming.tx.sackedOut + streaming.tx.lostOut ≤ streaming.tx.sentSize ∧
      ∃ bytes, streaming.tx.bytesInFlight = some bytes := by
  have hbalanced := Foundation.Runs.invariant_of_fitting step Balanced
    (fun _ _ _ balanced keeps hstep => step_balanced balanced keeps hstep)
    ⟨start_holds firstByteSeq maxBuffer dupAckThresh sackEnabled,
      ⟨⟨rfl, rfl, rfl, fun _ hmem => nomatch hmem⟩, fun _ hmem => nomatch hmem⟩,
      headFree_nil⟩ hfits hrun
  obtain ⟨⟨-, hstream⟩, scores, hfree⟩ := hbalanced
  have hsum := scores.scored.sum_le
  rw [← hstream.sentSize] at hsum
  refine ⟨scores, hfree, hsum, ?_⟩
  have hle : add32 streaming.tx.sackedOut streaming.tx.lostOut ≤ streaming.tx.sentSize :=
    (Nat.mod_le _ _).trans hsum
  exact ⟨_, if_pos hle⟩

/-- Three items straddle the wrap; the second is sacked, becomes the head and gives its flag on. -/
theorem scoreboard_counts_wrapped :
    ∃ streaming,
      (start 4294967294 100 3 true).run
        [.add [1, 2, 3, 4, 5, 6], .copyFromSequence 0 2 4294967294, .copyFromSequence 1 2 0,
          .copyFromSequence 2 2 2, .update [(0, 2)], .discardUpTo 3 0] = some streaming ∧
      Scores streaming.tx ∧ HeadFree streaming.tx.sentList ∧
      streaming.tx.sackedOut + streaming.tx.lostOut ≤ streaming.tx.sentSize ∧
      ∃ bytes, streaming.tx.bytesInFlight = some bytes := by
  have hsome : ((start 4294967294 100 3 true).run
      [.add [1, 2, 3, 4, 5, 6], .copyFromSequence 0 2 4294967294, .copyFromSequence 1 2 0,
        .copyFromSequence 2 2 2, .update [(0, 2)], .discardUpTo 3 0]).isSome = true := by
    decide +kernel
  obtain ⟨streaming, hrun⟩ := Option.isSome_iff_exists.mp hsome
  exact ⟨streaming, hrun, scoreboard_counts 4294967294 100 3 true (by decide +kernel) hrun⟩

/-- A Reno acknowledgement sacks an item that a timeout has marked as lost. -/
theorem scoreboard_miscounts :
    ∃ streaming,
      (start 1 100 3 false).run
        [.add [1, 2, 3, 4, 5, 6], .copyFromSequence 0 2 1, .copyFromSequence 1 2 3,
          .copyFromSequence 2 2 5, .setSentListLost false, .addRenoSack] = some streaming ∧
      (∃ item ∈ streaming.tx.sentList, item.sacked = true ∧ item.lost = true) ∧
      streaming.tx.sentSize < streaming.tx.sackedOut + streaming.tx.lostOut ∧
      streaming.tx.bytesInFlight = none := by
  have hsome : (((start 1 100 3 false).run
      [.add [1, 2, 3, 4, 5, 6], .copyFromSequence 0 2 1, .copyFromSequence 1 2 3,
        .copyFromSequence 2 2 5, .setSentListLost false, .addRenoSack]).any fun streaming =>
      decide ((∃ item ∈ streaming.tx.sentList, item.sacked = true ∧ item.lost = true) ∧
        streaming.tx.sentSize < streaming.tx.sackedOut + streaming.tx.lostOut ∧
        streaming.tx.bytesInFlight = none)) = true := by
    decide +kernel
  obtain ⟨streaming, hrun, hbad⟩ := (Option.any_eq_true _ _).mp hsome
  exact ⟨streaming, hrun, of_decide_eq_true hbad⟩

end Streaming

end DeepcV2x.Tcp
