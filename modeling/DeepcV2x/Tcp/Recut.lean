import DeepcV2x.Tcp.TxBuffer
import Mathlib.Logic.Relation
import Mathlib.Algebra.Order.Group.Nat

/-!
# Items cut anew

Finding a packet only splits items and merges neighbours, so it keeps whatever
these two keep; the item found begins at the requested number and is not longer
than requested.
-/

namespace DeepcV2x.Tcp

open SequenceNumber32

/-- The bytes of some items. -/
def stream (items : List TcpTxItem) : List UInt8 := items.flatMap TcpTxItem.packet

@[simp]
theorem stream_nil : stream [] = [] := rfl

@[simp]
theorem stream_cons (item : TcpTxItem) (items : List TcpTxItem) :
    stream (item :: items) = item.packet ++ stream items := List.flatMap_cons

@[simp]
theorem stream_append (items others : List TcpTxItem) :
    stream (items ++ others) = stream items ++ stream others := List.flatMap_append

/-- No item is empty. -/
def NonEmpty (items : List TcpTxItem) : Prop := ∀ item ∈ items, item.packet ≠ []

theorem NonEmpty.size_pos {items : List TcpTxItem} (nonEmpty : NonEmpty items) {item : TcpTxItem}
    (hmem : item ∈ items) : 0 < item.size := List.length_pos_iff.mpr (nonEmpty item hmem)

theorem NonEmpty.eq_nil {items : List TcpTxItem} (nonEmpty : NonEmpty items)
    (hstream : (stream items).length = 0) : items = [] := by
  cases items with
  | nil => rfl
  | cons item items =>
      have hpos := nonEmpty.size_pos List.mem_cons_self
      rw [TcpTxItem.size] at hpos
      rw [stream_cons, List.length_append] at hstream
      omega

/-- An item is split, or two neighbours are merged. -/
inductive Edit : List TcpTxItem × Nat → List TcpTxItem × Nat → Prop
  | split (before : List TcpTxItem) (item : TcpTxItem) (after : List TcpTxItem)
      (node size retrans : Nat) (hpos : 0 < size) (hlt : size < item.size) :
      Edit (before ++ item :: after, retrans)
        (before ++ (splitItems node item size).1 :: (splitItems node item size).2 :: after, retrans)
  | merge (before : List TcpTxItem) (t1 t2 : TcpTxItem) (after : List TcpTxItem)
      {retrans retrans' : Nat} {merged : TcpTxItem}
      (hmerge : mergeItems retrans t1 t2 = some (retrans', merged)) :
      Edit (before ++ t1 :: t2 :: after, retrans) (before ++ merged :: after, retrans')

abbrev Edits := Relation.ReflTransGen Edit

theorem mergeItems_some {retrans retrans' : Nat} {t1 t2 merged : TcpTxItem}
    (hmerge : mergeItems retrans t1 t2 = some (retrans', merged)) :
    t1.sacked = t2.sacked ∧ t1.lost = t2.lost ∧ merged.packet = t1.packet ++ t2.packet ∧
      merged.startSeq = t1.startSeq ∧ merged.sacked = t1.sacked ∧ merged.lost = t1.lost ∧
      merged.retrans = (t1.retrans && t2.retrans) ∧
      retrans' = if t1.retrans = t2.retrans then retrans
        else sub32 retrans (if t1.retrans then t1.size else t2.size) := by
  rw [mergeItems] at hmerge
  split at hmerge
  next => cases hmerge
  next hsame =>
    cases hmerge
    rw [not_or, not_not, not_not] at hsame
    exact ⟨hsame.1, hsame.2, rfl, rfl, rfl, rfl, rfl, rfl⟩

theorem splitItems_stream (node : Nat) (item : TcpTxItem) (size : Nat) :
    (splitItems node item size).1.packet ++ (splitItems node item size).2.packet = item.packet :=
  List.take_append_drop size item.packet

theorem Edit.stream {left right : List TcpTxItem × Nat} (edit : Edit left right) :
    stream right.1 = stream left.1 := by
  cases edit with
  | split before item after node size retrans hpos hlt =>
      simp only [stream_append, stream_cons]
      rw [← List.append_assoc (splitItems node item size).1.packet, splitItems_stream]
  | merge before t1 t2 after hmerge =>
      simp only [stream_append, stream_cons, (mergeItems_some hmerge).2.2.1, List.append_assoc]

theorem Edit.nonEmpty {left right : List TcpTxItem × Nat} (edit : Edit left right)
    (nonEmpty : NonEmpty left.1) : NonEmpty right.1 := by
  cases edit with
  | split before item after node size retrans hpos hlt =>
      intro other hmem
      rcases List.mem_append.mp hmem with hbefore | hmem
      · exact nonEmpty other (List.mem_append_left _ hbefore)
      · rcases List.mem_cons.mp hmem with rfl | hmem
        · refine List.length_pos_iff.mp ?_
          show 0 < (item.packet.take size).length
          rw [TcpTxItem.size] at hlt
          rw [List.length_take]
          omega
        · rcases List.mem_cons.mp hmem with rfl | hmem
          · refine List.length_pos_iff.mp ?_
            show 0 < (item.packet.drop size).length
            rw [TcpTxItem.size] at hlt
            rw [List.length_drop]
            omega
          · exact nonEmpty other (List.mem_append_right _ (List.mem_cons_of_mem _ hmem))
  | merge before t1 t2 after hmerge =>
      intro other hmem
      rcases List.mem_append.mp hmem with hbefore | hmem
      · exact nonEmpty other (List.mem_append_left _ hbefore)
      · rcases List.mem_cons.mp hmem with rfl | hmem
        · rw [(mergeItems_some hmerge).2.2.1]
          exact fun hnil => nonEmpty t1 (List.mem_append_right _ List.mem_cons_self)
            (List.append_eq_nil_iff.mp hnil).1
        · exact nonEmpty other
            (List.mem_append_right _ (List.mem_cons_of_mem _ (List.mem_cons_of_mem _ hmem)))

theorem Edits.stream {left right : List TcpTxItem × Nat} (edits : Edits left right) :
    stream right.1 = stream left.1 := by
  induction edits with
  | refl => rfl
  | tail _ edit ih => rw [edit.stream, ih]

theorem Edits.nonEmpty {left right : List TcpTxItem × Nat} (edits : Edits left right)
    (nonEmpty : NonEmpty left.1) : NonEmpty right.1 := by
  induction edits with
  | refl => exact nonEmpty
  | tail _ edit ih => exact edit.nonEmpty ih

/-! ## The item found -/

/-- A number inside an item is behind its begin and before its end. -/
theorem sub32_inside {seq beginOfCurrentPacket size : Nat} (hseq : seq < 4294967296)
    (hbegin : beginOfCurrentPacket < 4294967296) (hpos : 0 < size) (hsize : size < 4294967296)
    (hgt : Gt seq beginOfCurrentPacket) (hlt : Lt seq (add32 beginOfCurrentPacket size)) :
    0 < sub32 seq beginOfCurrentPacket ∧ sub32 seq beginOfCurrentPacket < size := by
  simp only [Gt, Lt, add32, sub32] at *
  omega

/-- The walk stops at an item that ends behind the number it looks for. -/
theorem walk_spec {sent : Bool} {firstByteSeq seq start : Nat} (items : List TcpTxItem) :
    ∀ {before : List TcpTxItem} {cursor : Cursor},
      walk sent firstByteSeq seq before (add32 start (stream before).length) items = some cursor →
      cursor.before ++ cursor.item :: cursor.after = before ++ items ∧
        cursor.beginOfCurrentPacket = add32 start (stream cursor.before).length ∧
        Lt seq (add32 cursor.beginOfCurrentPacket cursor.item.size) := by
  induction items with
  | nil => exact fun hwalk => nomatch hwalk
  | cons item items ih =>
      intro before cursor hwalk
      rw [walk] at hwalk
      split at hwalk
      next => cases hwalk
      next =>
        split at hwalk
        next hlt =>
          cases hwalk
          exact ⟨rfl, rfl, hlt⟩
        next =>
          have hbegin : add32 (add32 start (stream before).length) item.size =
              add32 start (stream (before ++ [item])).length := by
            rw [add32_add32, stream_append, stream_cons, stream_nil, List.append_nil,
              List.length_append, TcpTxItem.size]
          rw [hbegin] at hwalk
          obtain ⟨hlist, hrest⟩ := ih hwalk
          exact ⟨by rw [hlist, List.append_assoc]; rfl, hrest⟩

/-- What a call does at the item the walk stops at. -/
def Outcome.Allowed (start numBytes seq : Nat) (list : List TcpTxItem) (retrans : Nat) :
    Outcome → Prop
  | .found result =>
      Edits (list, retrans) (result.before ++ result.item :: result.after, result.retrans) ∧
        add32 start (stream result.before).length = seq ∧ result.item.size ≤ numBytes
  | .again next retrans' _ => Edit (list, retrans) (next, retrans')
  | .fatal => True

theorem atCursor_allowed {start numBytes seq retrans nextNode : Nat} {cursor : Cursor}
    (hseq : seq < 4294967296) (hnumBytes : 0 < numBytes) (hsmall : numBytes < 4294967296)
    (hpos : 0 < cursor.item.size) (hsize : cursor.item.size < 4294967296)
    (hbegin : cursor.beginOfCurrentPacket = add32 start (stream cursor.before).length)
    (hlt : Lt seq (add32 cursor.beginOfCurrentPacket cursor.item.size)) :
    (atCursor numBytes seq retrans nextNode cursor).Allowed start numBytes seq
      (cursor.before ++ cursor.item :: cursor.after) retrans := by
  rw [atCursor]
  split
  next heq =>
    rw [← heq] at hbegin
    split
    next =>
      split
      next hexact => exact ⟨.refl, hbegin.symm, hexact.ge⟩
      next =>
        split
        next hless =>
          refine ⟨.single (Edit.split _ _ _ _ _ _ hnumBytes hless), hbegin.symm, ?_⟩
          show (cursor.item.packet.take numBytes).length ≤ numBytes
          rw [List.length_take]
          exact Nat.min_le_left _ _
        next => trivial
    next hbehind =>
      split
      next hnil =>
        rw [hnil]
        refine ⟨.refl, hbegin.symm, ?_⟩
        rw [← heq] at hbehind hlt
        simp only [Le, Gt, Lt, add32] at hbehind hlt
        show cursor.item.size ≤ numBytes
        omega
      next next after hcons =>
        rw [hcons]
        cases hmerge : mergeItems retrans cursor.item next with
        | none => trivial
        | some result => exact Edit.merge _ _ _ _ hmerge
  next hne =>
    split
    next hgt =>
      have hbelow : cursor.beginOfCurrentPacket < 4294967296 := by
        rw [hbegin]
        exact Nat.mod_lt _ (by decide)
      obtain ⟨hzero, hinside⟩ := sub32_inside hseq hbelow hpos hsize hgt hlt
      exact Edit.split _ _ _ _ _ _ hzero hinside
    next => trivial

theorem packetStep_allowed {sent : Bool} {firstByteSeq start numBytes seq : Nat}
    {list : List TcpTxItem} {retrans nextNode : Nat} (hseq : seq < 4294967296)
    (hstart : start < 4294967296) (hnumBytes : 0 < numBytes) (hsmall : numBytes < 4294967296)
    (nonEmpty : NonEmpty list) (hlength : (stream list).length < 4294967296) :
    (packetStep sent firstByteSeq start numBytes seq list retrans nextNode).Allowed start numBytes seq
      list retrans := by
  rw [packetStep]
  split
  next => trivial
  next cursor hwalk =>
    have hzero : start = add32 start (stream []).length := by
      rw [stream_nil, List.length_nil, add32, Nat.add_zero, Nat.mod_eq_of_lt hstart]
    rw [hzero] at hwalk
    obtain ⟨hlist, hbegin, hlt⟩ := walk_spec list hwalk
    rw [List.nil_append] at hlist
    subst hlist
    have hmem : cursor.item ∈ cursor.before ++ cursor.item :: cursor.after :=
      List.mem_append_right _ List.mem_cons_self
    refine atCursor_allowed hseq hnumBytes hsmall (nonEmpty.size_pos hmem) ?_ hbegin hlt
    simp only [stream_append, stream_cons, List.length_append] at hlength
    rw [TcpTxItem.size]
    omega

/-- `GetPacketFromList` edits the list; the item it returns begins at the requested number and has
at most the requested bytes. -/
theorem getPacketFromList_spec {sent : Bool} {firstByteSeq start numBytes seq : Nat}
    (hseq : seq < 4294967296) (hstart : start < 4294967296) (hnumBytes : 0 < numBytes)
    (hsmall : numBytes < 4294967296) (fuel : Nat) :
    ∀ {list : List TcpTxItem} {retrans nextNode : Nat} {found : Found}, NonEmpty list →
      (stream list).length < 4294967296 →
      getPacketFromList sent firstByteSeq start numBytes seq fuel list retrans nextNode = some found →
      Edits (list, retrans) (found.before ++ found.item :: found.after, found.retrans) ∧
        add32 start (stream found.before).length = seq ∧ found.item.size ≤ numBytes := by
  induction fuel with
  | zero => exact fun _ _ hfound => nomatch hfound
  | succ fuel ih =>
      intro list retrans nextNode found nonEmpty hlength hfound
      have hallowed := @packetStep_allowed sent firstByteSeq start numBytes seq list retrans nextNode hseq
        hstart hnumBytes hsmall nonEmpty hlength
      rw [getPacketFromList] at hfound
      cases hstep : packetStep sent firstByteSeq start numBytes seq list retrans nextNode with
      | found result =>
          rw [hstep] at hfound hallowed
          cases hfound
          exact hallowed
      | again next retrans' nextNode' =>
          rw [hstep] at hfound hallowed
          have hedit : Edit (list, retrans) (next, retrans') := hallowed
          obtain ⟨hedits, hrest⟩ := ih (hedit.nonEmpty nonEmpty) (by rw [hedit.stream]; exact hlength)
            hfound
          exact ⟨.head hedit hedits, hrest⟩
      | fatal =>
          rw [hstep] at hfound
          cases hfound

/-! ## The bound on the calls -/

/-- Some item begins at a number, or the list ends there. -/
def CutAt (start seq : Nat) (list : List TcpTxItem) : Prop :=
  ∃ before after, list = before ++ after ∧ add32 start (stream before).length = seq

theorem prefix_cases {before after left right : List TcpTxItem} {item : TcpTxItem}
    (hlist : before ++ after = left ++ item :: right) :
    (stream before).length ≤ (stream left).length ∨
      (stream left).length + item.size ≤ (stream before).length := by
  rcases List.append_eq_append_iff.mp hlist with ⟨more, rfl, -⟩ | ⟨more, rfl, hmore⟩
  · rw [stream_append, List.length_append]
    exact .inl (Nat.le_add_right _ _)
  · cases more with
    | nil =>
        rw [List.append_nil]
        exact .inl (Nat.le_refl _)
    | cons first more =>
        obtain ⟨rfl, -⟩ := List.cons.inj hmore
        rw [stream_append, stream_cons, List.length_append, List.length_append, TcpTxItem.size]
        exact .inr (by omega)

/-- A call that calls itself again merges two items, or splits one for the only time. -/
theorem packetStep_again {sent : Bool} {firstByteSeq start numBytes seq : Nat}
    {list next : List TcpTxItem} {retrans nextNode retrans' nextNode' : Nat}
    (hseq : seq < 4294967296) (hstart : start < 4294967296) (nonEmpty : NonEmpty list)
    (hlength : (stream list).length < 4294967296)
    (hagain : packetStep sent firstByteSeq start numBytes seq list retrans nextNode =
      .again next retrans' nextNode') :
    CutAt start seq next ∧ (next.length + 1 = list.length ∨
      (¬ CutAt start seq list ∧ next.length = list.length + 1)) := by
  rw [packetStep] at hagain
  split at hagain
  next => cases hagain
  next cursor hwalk =>
    have hzero : start = add32 start (stream []).length := by
      rw [stream_nil, List.length_nil, add32, Nat.add_zero, Nat.mod_eq_of_lt hstart]
    rw [hzero] at hwalk
    obtain ⟨hlist, hbegin, hlt⟩ := walk_spec list hwalk
    rw [List.nil_append] at hlist
    subst hlist
    have hpos := nonEmpty.size_pos
      (List.mem_append_right cursor.before (@List.mem_cons_self _ cursor.item cursor.after))
    simp only [stream_append, stream_cons, List.length_append] at hlength
    rw [atCursor] at hagain
    split at hagain
    next heq =>
      split at hagain
      next =>
        split at hagain
        next => cases hagain
        next =>
          split at hagain
          next => cases hagain
          next => cases hagain
      next =>
        split at hagain
        next => cases hagain
        next other after hcons =>
          split at hagain
          next => cases hagain
          next =>
            cases hagain
            refine ⟨⟨cursor.before, _, rfl, by rw [← hbegin, heq]⟩, .inl ?_⟩
            simp only [hcons, List.length_append, List.length_cons]
            omega
    next hne =>
      split at hagain
      next hgt =>
        cases hagain
        have hbelow : cursor.beginOfCurrentPacket < 4294967296 := by
          rw [hbegin]
          exact Nat.mod_lt _ (by decide)
        rw [TcpTxItem.size] at hpos hlt
        obtain ⟨hinside, houtside⟩ := sub32_inside hseq hbelow hpos (by omega) hgt hlt
        refine ⟨⟨cursor.before ++ [(splitItems nextNode cursor.item
          (sub32 seq cursor.beginOfCurrentPacket)).1], _, by rw [List.append_assoc]; rfl, ?_⟩, .inr ⟨?_, ?_⟩⟩
        · have htake : (cursor.item.packet.take (sub32 seq cursor.beginOfCurrentPacket)).length =
              sub32 seq cursor.beginOfCurrentPacket := by
            rw [List.length_take, Nat.min_eq_left (Nat.le_of_lt houtside)]
          rw [stream_append, stream_cons, stream_nil, List.append_nil, List.length_append]
          show add32 start (_ + (cursor.item.packet.take _).length) = seq
          rw [htake, ← add32_add32, ← hbegin]
          simp only [add32, sub32]
          omega
        · rintro ⟨before, after, hsplit, hcut⟩
          have hprefix := prefix_cases hsplit.symm
          have htotal := congrArg (fun items => (stream items).length) hsplit
          simp only [stream_append, stream_cons, List.length_append] at htotal
          rw [TcpTxItem.size] at hprefix
          rw [hbegin] at hinside houtside
          simp only [add32, sub32] at hinside houtside hcut
          omega
        · simp only [List.length_append, List.length_cons]
          omega
      next => cases hagain

/-- More calls than two and one for each item are never made. -/
theorem getPacketFromList_calls {sent : Bool} {firstByteSeq start numBytes seq : Nat}
    (hseq : seq < 4294967296) (hstart : start < 4294967296) (hnumBytes : 0 < numBytes)
    (hsmall : numBytes < 4294967296) (fuel : Nat) :
    ∀ {list : List TcpTxItem} {retrans nextNode : Nat}, NonEmpty list →
      (stream list).length < 4294967296 →
      (CutAt start seq list ∧ list.length ≤ fuel ∨ list.length + 2 ≤ fuel) →
      getPacketFromList sent firstByteSeq start numBytes seq (fuel + 1) list retrans nextNode =
        getPacketFromList sent firstByteSeq start numBytes seq fuel list retrans nextNode := by
  induction fuel with
  | zero =>
      intro list _ _ _ _ hfuel
      have hnil : list = [] := by
        rcases hfuel with ⟨-, hzero⟩ | hzero
        · exact List.eq_nil_of_length_eq_zero (Nat.le_zero.mp hzero)
        · omega
      rw [hnil]
      rfl
  | succ fuel ih =>
      intro list retrans nextNode nonEmpty hlength hfuel
      conv_lhs => rw [getPacketFromList]
      conv_rhs => rw [getPacketFromList]
      have hallowed := @packetStep_allowed sent firstByteSeq start numBytes seq list retrans nextNode hseq
        hstart hnumBytes hsmall nonEmpty hlength
      cases hstep : packetStep sent firstByteSeq start numBytes seq list retrans nextNode with
      | found result => rfl
      | fatal => rfl
      | again next retrans' nextNode' =>
          rw [hstep] at hallowed
          have hedit : Edit (list, retrans) (next, retrans') := hallowed
          obtain ⟨hcut, hcases⟩ := packetStep_again hseq hstart nonEmpty hlength hstep
          refine ih (hedit.nonEmpty nonEmpty) (by rw [hedit.stream]; exact hlength) (.inl ⟨hcut, ?_⟩)
          rcases hcases with hless | ⟨hnot, hmore⟩
          · rcases hfuel with ⟨-, hbound⟩ | hbound <;> omega
          · rcases hfuel with ⟨hcutBefore, -⟩ | hbound
            · exact absurd hcutBefore hnot
            · omega

end DeepcV2x.Tcp
