import DeepcV2x.Packets.MetadataWire

/-!
# Packet metadata is read back

Deserialization stores every item as a big one, with the lower half of the uid
of its packet.  So the uids of the packets of small items come back when their
lower halves tell the upper ones.
-/

namespace DeepcV2x.Packets

open Foundation Foundation.Octets

namespace PacketMetadata

/-! ## Items in the array -/

theorem length_appendValue (value : Nat) : (appendValue value).length = getUleb128Size value := by
  rw [appendValue, Leb128.length_encode, getUleb128Size]
  repeat' split
  all_goals rfl

theorem reads_readUleb128 {value : Nat} (hvalue : value < 4294967296) :
    Reads readUleb128 (appendValue value) value := by
  have hsize : getUleb128Size value - 1 < 5 ∧ value < 2 ^ (7 * (getUleb128Size value - 1 + 1)) := by
    rw [getUleb128Size]
    repeat' split
    all_goals omega
  have hread := (@Leb128.reads_decodeFrom _ 5 hsize.1 0 0 value (by decide) hsize.2).map
    (· % 4294967296)
  rwa [Nat.pow_zero, Nat.mul_one, Nat.zero_add, Nat.mod_eq_of_lt hvalue] at hread

/-- The fields are words of their widths. -/
structure Bounded (read : SmallItem × ExtraItem) : Prop where
  typeUid : read.1.typeUid < 4294967296
  size : read.1.size < 4294967296
  chunkUid : read.1.chunkUid < 65536
  fragmentStart : read.2.fragmentStart < 4294967296
  fragmentEnd : read.2.fragmentEnd < 4294967296
  packetUid : read.2.packetUid < 18446744073709551616

theorem signExtend_lt {word : Nat} (hword : word < 4294967296) :
    signExtend word < 18446744073709551616 := by
  rw [signExtend]
  split <;> omega

/-- Sign extension keeps the lower half. -/
theorem signExtend_mod {word : Nat} (hword : word < 4294967296) :
    signExtend word % 4294967296 = word := by
  rw [signExtend]
  split
  · exact Nat.mod_eq_of_lt hword
  · omega

theorem number_lt (before : Nat) (octets : List UInt8) :
    number before octets < (before + 1) * 256 ^ octets.length := by
  induction octets generalizing before with
  | nil => rw [number, List.length_nil, Nat.pow_zero, Nat.mul_one]; exact Nat.lt_succ_self _
  | cons octet rest ih =>
      rw [number, List.length_cons, Nat.pow_succ']
      refine Nat.lt_of_lt_of_le (ih _) ?_
      rw [← Nat.mul_assoc]
      refine Nat.mul_le_mul_right _ ?_
      have := octet.toNat_lt
      omega

theorem ltoh_lt {size value : Nat} {bytes rest : List UInt8}
    (hread : ltoh size bytes = some (value, rest)) : value < 256 ^ size := by
  rw [ltoh] at hread
  split at hread
  next hle =>
    obtain ⟨rfl, -⟩ := Prod.mk.inj (Option.some.inj hread)
    refine Nat.lt_of_lt_of_eq (number_lt 0 _) ?_
    rw [List.length_reverse, List.length_take, Nat.min_eq_left hle, Nat.zero_add, Nat.one_mul]
  next => cases hread

theorem readUleb128_lt {value : Nat} {bytes rest : List UInt8}
    (hread : readUleb128 bytes = some (value, rest)) : value < 4294967296 := by
  obtain ⟨⟨number, behind⟩, -, hnext⟩ := Option.bind_eq_some_iff.mp
    (show (Leb128.decodeFrom 5 0 0 bytes).bind (fun read => some (read.1 % 4294967296, read.2)) = _
      from hread)
  obtain ⟨rfl, -⟩ := Prod.mk.inj (Option.some.inj hnext)
  exact Nat.mod_lt _ (by decide)

/-- What an item in the array says of the uid of its packet. -/
theorem itemReader_inv {packetUid : Nat} (hpacketUid : packetUid < 18446744073709551616)
    {bytes rest : List UInt8} {read : SmallItem × ExtraItem}
    (hread : itemReader packetUid bytes = some (read, rest)) :
    Bounded read ∧ (read.1.typeUid % 2 = 0 → read.2.packetUid = packetUid) ∧
      (read.1.typeUid % 2 = 1 → ∃ word < 4294967296, read.2.packetUid = signExtend word) := by
  obtain ⟨next, behind, hnext, hread⟩ := bind_inv hread
  obtain ⟨prev, behind, hprev, hread⟩ := bind_inv hread
  obtain ⟨typeUid, behind, htypeUid, hread⟩ := bind_inv hread
  obtain ⟨size, behind, hsize, hread⟩ := bind_inv hread
  obtain ⟨chunkUid, behind, hchunkUid, hread⟩ := bind_inv hread
  have htype := readUleb128_lt htypeUid
  have hlength := readUleb128_lt hsize
  have hchunk := ltoh_lt hchunkUid
  dsimp only at hread
  split at hread
  next hodd =>
    obtain ⟨fragmentStart, behind, hstart, hread⟩ := bind_inv hread
    obtain ⟨fragmentEnd, behind, hend, hread⟩ := bind_inv hread
    obtain ⟨word, behind, hword, hread⟩ := bind_inv hread
    obtain ⟨rfl, -⟩ := Prod.mk.inj (Option.some.inj hread)
    have hlow := ltoh_lt hword
    refine ⟨⟨htype, hlength, hchunk, readUleb128_lt hstart, readUleb128_lt hend, signExtend_lt hlow⟩,
      fun heven => ?_, fun _ => ⟨word, hlow, rfl⟩⟩
    dsimp only at heven
    omega
  next heven =>
    obtain ⟨rfl, -⟩ := Prod.mk.inj (Option.some.inj hread)
    exact ⟨⟨htype, hlength, hchunk, Nat.zero_lt_of_lt htype, hlength, hpacketUid⟩, fun _ => rfl,
      fun hodd => absurd hodd heven⟩

/-- The type uid of an item that is made big. -/
def bigTypeUid (item : SmallItem) : Nat := if item.typeUid % 2 = 1 then item.typeUid else item.typeUid + 1

theorem bigTypeUid_eq (item : SmallItem) : bigTypeUid item = 2 * uidOf item + 1 := by
  rw [bigTypeUid, uidOf]
  split <;> omega

/-- An item as it is read after it was added. -/
def stored (next prev : Nat) (read : SmallItem × ExtraItem) : SmallItem × ExtraItem :=
  ({ next := next % 65536, prev := prev % 65536, typeUid := bigTypeUid read.1, size := read.1.size,
      chunkUid := read.1.chunkUid },
    { fragmentStart := read.2.fragmentStart, fragmentEnd := read.2.fragmentEnd,
      packetUid := signExtend (read.2.packetUid % 4294967296) })

/-- The octets of an item that is added. -/
def bigItem (next prev : Nat) (read : SmallItem × ExtraItem) : List UInt8 :=
  encodeBig next prev (bigTypeUid read.1) read.1 read.2

/-- The size of an item that is added. -/
def bigSize (read : SmallItem × ExtraItem) : Nat :=
  2 + 2 + getUleb128Size (bigTypeUid read.1) + getUleb128Size read.1.size + 2 +
    getUleb128Size read.2.fragmentStart + getUleb128Size read.2.fragmentEnd + 4

theorem length_bigItem (next prev : Nat) (read : SmallItem × ExtraItem) :
    (bigItem next prev read).length = bigSize read := by
  simp only [bigItem, encodeBig, bigSize, List.length_append, length_htol, length_appendValue]

theorem bigSize_bounds (read : SmallItem × ExtraItem) : 8 ≤ bigSize read ∧ bigSize read < 65536 := by
  have hsize : ∀ value, getUleb128Size value ≤ 5 := fun value => by
    rw [getUleb128Size]
    repeat' split
    all_goals omega
  have := hsize (bigTypeUid read.1)
  have := hsize read.1.size
  have := hsize read.2.fragmentStart
  have := hsize read.2.fragmentEnd
  rw [bigSize]
  omega

/-- An item that was added is read as it is stored. -/
theorem reads_bigItem (packetUid next prev : Nat) {read : SmallItem × ExtraItem}
    (bounded : Bounded read) :
    Reads (itemReader packetUid) (bigItem next prev read) (stored next prev read) := by
  have htype : bigTypeUid read.1 < 4294967296 := by
    have := bounded.typeUid
    rw [bigTypeUid]
    split <;> omega
  have hodd : bigTypeUid read.1 % 2 = 1 := by
    rw [bigTypeUid_eq]
    omega
  have hchunk : read.1.chunkUid % 256 ^ 2 = read.1.chunkUid := Nat.mod_eq_of_lt bounded.chunkUid
  intro rest
  simp only [bigItem, encodeBig, List.append_assoc]
  rw [itemReader, bind_of_eq (reads_ltoh_mod 2 next _), bind_of_eq (reads_ltoh_mod 2 prev _),
    bind_of_eq (reads_readUleb128 htype _), bind_of_eq (reads_readUleb128 bounded.size _),
    bind_of_eq (reads_ltoh_mod 2 read.1.chunkUid _), if_pos hodd,
    bind_of_eq (reads_readUleb128 bounded.fragmentStart _),
    bind_of_eq (reads_readUleb128 bounded.fragmentEnd _),
    bind_of_eq (reads_ltoh_mod 4 read.2.packetUid _), hchunk]
  rfl

/-! ## The array -/

/-- The octets of items that are added one after the other from an offset on. -/
def layout : Nat → Nat → List (SmallItem × ExtraItem) → List UInt8
  | _, _, [] => []
  | _, prev, [read] => bigItem 0xffff prev read
  | offset, prev, read :: next :: rest =>
      bigItem (offset + bigSize read) prev read ++ layout (offset + bigSize read) offset (next :: rest)

/-- The offset of the last item. -/
def lastOffset : Nat → List (SmallItem × ExtraItem) → Nat
  | offset, [] => offset
  | offset, [_] => offset
  | offset, read :: next :: rest => lastOffset (offset + bigSize read) (next :: rest)

/-- The offsets of the items. -/
def offsetsFrom : Nat → List (SmallItem × ExtraItem) → List Nat
  | _, [] => []
  | offset, read :: rest => offset :: offsetsFrom (offset + bigSize read) rest

/-- The items as they are read. -/
def storedFrom : Nat → Nat → List (SmallItem × ExtraItem) → List (SmallItem × ExtraItem)
  | _, _, [] => []
  | _, prev, [read] => [stored 0xffff prev read]
  | offset, prev, read :: next :: rest =>
      stored (offset + bigSize read) prev read ::
        storedFrom (offset + bigSize read) offset (next :: rest)

/-- Two octets replaced. -/
def patchAt (offset value : Nat) (data : List UInt8) : List UInt8 :=
  data.take offset ++ htol 2 value ++ data.drop (offset + 2)

theorem le_lastOffset (offset : Nat) (items : List (SmallItem × ExtraItem)) :
    offset ≤ lastOffset offset items := by
  induction items generalizing offset with
  | nil => exact Nat.le_refl _
  | cons read rest ih =>
      cases rest with
      | nil => exact Nat.le_refl _
      | cons next rest => exact Nat.le_trans (Nat.le_add_right _ _) (ih _)

theorem length_layout (offset prev : Nat) (items : List (SmallItem × ExtraItem)) :
    (layout offset prev items).length = (items.map bigSize).sum := by
  induction items generalizing offset prev with
  | nil => rfl
  | cons read rest ih =>
      cases rest with
      | nil => exact length_bigItem ..
      | cons next rest =>
          rw [layout, List.length_append, length_bigItem, ih]
          exact List.sum_cons.symm

theorem lastOffset_snoc (offset : Nat) (items : List (SmallItem × ExtraItem))
    (read : SmallItem × ExtraItem) :
    lastOffset offset (items ++ [read]) = offset + (items.map bigSize).sum := by
  induction items generalizing offset with
  | nil => rfl
  | cons first rest ih =>
      rw [List.map_cons, List.sum_cons, ← Nat.add_assoc, ← ih]
      cases rest with
      | nil => rfl
      | cons next rest => rfl

theorem bigItem_eq (next prev : Nat) (read : SmallItem × ExtraItem) :
    bigItem next prev read = htol 2 next ++ (bigItem next prev read).drop 2 ∧
      ∀ other, (bigItem other prev read).drop 2 = (bigItem next prev read).drop 2 := by
  have hdrop : ∀ next, (bigItem next prev read).drop 2 = htol 2 prev ++ (appendValue (bigTypeUid read.1) ++
      (appendValue read.1.size ++ (htol 2 read.1.chunkUid ++ (appendValue read.2.fragmentStart ++
        (appendValue read.2.fragmentEnd ++ htol 4 read.2.packetUid))))) := fun next => by
    simp only [bigItem, encodeBig, List.append_assoc]
    exact List.drop_left' (length_htol 2 next)
  refine ⟨?_, fun other => (hdrop other).trans (hdrop next).symm⟩
  rw [hdrop]
  simp only [bigItem, encodeBig, List.append_assoc]

/-- `UpdateTail` links a further item behind the last one. -/
theorem patchAt_layout {items : List (SmallItem × ExtraItem)} (hne : items ≠ [])
    (before : List UInt8) (offset prev : Nat) (hbefore : before.length = offset)
    (read : SmallItem × ExtraItem) (junk : List UInt8) :
    patchAt (lastOffset offset items) (offset + (items.map bigSize).sum)
        (before ++ (layout offset prev items ++ (bigItem 0xffff (lastOffset offset items) read ++ junk))) =
      before ++ (layout offset prev (items ++ [read]) ++ junk) := by
  induction items generalizing before offset prev with
  | nil => exact absurd rfl hne
  | cons first rest ih =>
      cases rest with
      | nil =>
          obtain ⟨hnew, hsame⟩ := bigItem_eq (offset + bigSize first) prev first
          have hdata : ∀ behind, before ++ (bigItem 0xffff prev first ++ behind) =
              (before ++ htol 2 0xffff) ++ ((bigItem (offset + bigSize first) prev first).drop 2 ++ behind) :=
            fun behind => by
              rw [(bigItem_eq 0xffff prev first).1, hsame 0xffff]
              simp only [List.append_assoc]
          rw [lastOffset, layout, List.singleton_append, layout, layout, List.map_singleton,
            List.sum_singleton, patchAt, List.take_left' hbefore, hdata,
            List.drop_left' (by rw [List.length_append, length_htol, hbefore])]
          nth_rewrite 2 [hnew]
          simp only [List.append_assoc]
      | cons next rest =>
          have hrest := ih (List.cons_ne_nil _ _) (before ++ bigItem (offset + bigSize first) prev first)
            (offset + bigSize first) offset
            (by rw [List.length_append, length_bigItem, hbefore])
          rw [lastOffset, layout, List.cons_append, List.cons_append, layout, ← List.cons_append,
            List.map_cons, List.sum_cons, ← Nat.add_assoc]
          simp only [List.append_assoc] at hrest ⊢
          exact hrest

theorem mem_offsetsFrom {items : List (SmallItem × ExtraItem)} {offset other : Nat}
    (hmem : other ∈ offsetsFrom offset items) : offset ≤ other ∧ other ≤ lastOffset offset items := by
  induction items generalizing offset with
  | nil => exact absurd hmem List.not_mem_nil
  | cons read rest ih =>
      rcases List.mem_cons.mp hmem with rfl | hmem
      · exact ⟨Nat.le_refl _, le_lastOffset _ _⟩
      · cases rest with
        | nil => exact absurd hmem List.not_mem_nil
        | cons next rest =>
            obtain ⟨hlow, hhigh⟩ := ih hmem
            exact ⟨Nat.le_trans (Nat.le_add_right _ _) hlow, hhigh⟩

theorem nodup_offsetsFrom (offset : Nat) (items : List (SmallItem × ExtraItem)) :
    (offsetsFrom offset items).Nodup := by
  induction items generalizing offset with
  | nil => exact List.nodup_nil
  | cons read rest ih =>
      refine List.nodup_cons.mpr ⟨fun hmem => ?_, ih _⟩
      have hlow := (mem_offsetsFrom hmem).1
      have hsize := (bigSize_bounds read).1
      omega

/-- The walk through the items that were added. -/
theorem walks_layout {metadata : PacketMetadata} {items : List (SmallItem × ExtraItem)}
    (hne : items ≠ []) (hbounded : ∀ read ∈ items, Bounded read) {before junk : List UInt8}
    {offset prev : Nat} (hbefore : before.length = offset)
    (hdata : metadata.data = before ++ (layout offset prev items ++ junk))
    (htail : metadata.tail = lastOffset offset items) (hfits : lastOffset offset items < 65535) :
    Walks metadata (offsetsFrom offset items) (storedFrom offset prev items) := by
  induction items generalizing before offset prev with
  | nil => exact absurd rfl hne
  | cons read rest ih =>
      have hread : ∀ next behind, metadata.data = before ++ (bigItem next prev read ++ behind) →
          metadata.readItems offset = some (stored next prev read) := fun next behind hdata => by
        rw [readItems, hdata, List.drop_left' hbefore,
          reads_bigItem metadata.packetUid next prev (hbounded read List.mem_cons_self)]
        rfl
      cases rest with
      | nil =>
          rw [offsetsFrom, offsetsFrom, storedFrom]
          rw [lastOffset] at htail
          rw [← htail]
          exact .last (htail ▸ hread 0xffff junk hdata)
      | cons next rest =>
          have hlast := le_lastOffset (offset + bigSize read) (next :: rest)
          have hsize := (bigSize_bounds read).1
          rw [lastOffset] at htail hfits
          rw [layout, List.append_assoc] at hdata
          have hlength : (before ++ bigItem (offset + bigSize read) prev read).length =
              offset + bigSize read := by
            rw [List.length_append, length_bigItem, hbefore]
          refine .cons (hread _ _ hdata) (by omega) (Nat.mod_eq_of_lt (by omega)) ?_
          rw [← List.append_assoc] at hdata
          exact ih (List.cons_ne_nil _ _) (fun other hmem => hbounded other (List.mem_cons_of_mem _ hmem))
            hlength hdata htail hfits

/-! ## Items on the wire -/

/-- A reader takes a piece when the piece and the rest are in a buffer of that length. -/
def ReadsIn {α : Type} (length : Nat) (reader : Reader α) (piece : List UInt8) (value : α) : Prop :=
  ∀ rest, piece.length + rest.length ≤ length → reader (piece ++ rest) = some (value, rest)

section Wire

variable {length size : Nat} {types : TypeIds}

theorem ReadsIn.bind {α β : Type} {reader : Reader α} {next : α → Reader β} {value : α} {result : β}
    {piece behind : List UInt8} (hfirst : ReadsIn length reader piece value)
    (hnext : ReadsIn length (next value) behind result) :
    ReadsIn length (reader >>= next) (piece ++ behind) result := by
  intro rest hrest
  rw [List.length_append] at hrest
  rw [List.append_assoc,
    bind_of_eq (hfirst (behind ++ rest) (by rw [List.length_append]; omega)), hnext rest (by omega)]

/-- What comes behind takes nothing. -/
theorem ReadsIn.bind_last {α β : Type} {reader : Reader α} {next : α → Reader β} {value : α}
    {result : β} {piece : List UInt8} (hfirst : ReadsIn length reader piece value)
    (hnext : ReadsIn length (next value) [] result) : ReadsIn length (reader >>= next) piece result := by
  have hboth := hfirst.bind hnext
  rwa [List.append_nil] at hboth

theorem ReadsIn.pure {α : Type} (value : α) : ReadsIn length (Pure.pure value) [] value :=
  fun _ _ => rfl

theorem readsIn_raw (hsize : length ≤ size) (hlength : length < 4294967296) {octets value : Nat}
    (hvalue : value < 256 ^ octets) :
    ReadsIn length (readFromRaw length size octets) (htol octets value) value := by
  intro rest hrest
  rw [length_htol] at hrest
  rw [readFromRaw, if_neg, reads_ltoh hvalue]
  rw [List.length_append, length_htol, Nat.mod_eq_of_lt (by omega)]
  omega

theorem readsIn_name (hsize : length ≤ size) (hlength : length < 4294967296) (name : List UInt8) :
    ReadsIn length (readName length size name.length) name name := by
  induction name with
  | nil => exact .pure []
  | cons ch name ih =>
      have hch : htol 1 ch.toNat = [ch] := by
        rw [htol, hton, hton, Nat.pow_zero, Nat.div_one, UInt8.ofNat_toNat]
        rfl
      have hfirst := @readsIn_raw _ _ hsize hlength 1 ch.toNat ch.toNat_lt
      rw [hch] at hfirst
      exact hfirst.bind (ih.bind_last (by rw [UInt8.ofNat_toNat]; exact .pure _))

/-- The uid that is read for an item: a name without characters stands for payload. -/
def receivedUid (types : TypeIds) (item : SmallItem) : Nat :=
  if nameIn types item = [] then 0 else uidOf item

theorem lookupByName_nameIn {item : SmallItem} (hregistered : uidOf item ≤ types.names.length)
    (hname : nameIn types item ≠ []) : types.lookupByName (nameIn types item) = some (uidOf item) := by
  have huid : uidOf item ≠ 0 := fun hpayload => hname (nameIn_payload hpayload)
  have hsmall := types.small
  have hindex : uidOf item - 1 < types.names.length := by omega
  have hin : nameIn types item = types.names[uidOf item - 1] := by
    rw [nameIn, nameOf, if_neg huid, TypeIds.getName, Nat.mod_eq_of_lt (by omega), if_neg huid,
      List.getElem?_eq_getElem hindex]
    rfl
  have hfind : types.names.findIdx? (· = nameIn types item) = some (uidOf item - 1) := by
    rw [List.findIdx?_eq_some_iff_getElem]
    refine ⟨hindex, decide_eq_true hin.symm, fun other hother hsame => ?_⟩
    have heq := (of_decide_eq_true hsame).trans hin
    have := (types.distinct.getElem_inj_iff).mp heq
    omega
  rw [TypeIds.lookupByName, hfind, Option.map_some, Nat.sub_add_cancel (by omega)]

theorem readsIn_uid (hsize : length ≤ size) (hlength : length < 4294967296) {item : SmallItem}
    (hregistered : uidOf item ≤ types.names.length)
    (hname : (nameIn types item).length < 4294967296) :
    ReadsIn length (readUid types length size)
      (if uidOf item = 0 then htol 4 0 else htol 4 (nameIn types item).length ++ nameIn types item)
      (receivedUid types item, 4 + (nameIn types item).length) := by
  by_cases hempty : nameIn types item = []
  · have hpiece : (if uidOf item = 0 then htol 4 0
        else htol 4 (nameIn types item).length ++ nameIn types item) = htol 4 0 ++ [] := by
      rw [hempty, List.length_nil, List.append_nil, ite_self]
    rw [hpiece, receivedUid, if_pos hempty, hempty]
    exact (readsIn_raw hsize hlength (by decide)).bind (.pure _)
  · have huid : uidOf item ≠ 0 := fun hpayload => hempty (nameIn_payload hpayload)
    rw [if_neg huid, receivedUid, if_neg hempty]
    refine (readsIn_raw hsize hlength hname).bind ?_
    rw [if_neg (mt List.eq_nil_of_length_eq_zero hempty)]
    have hlookup : ReadsIn length
        (fun bytes => (types.lookupByName (nameIn types item)).map (·, bytes)) [] (uidOf item) :=
      fun rest _ => by
        rw [lookupByName_nameIn hregistered hempty]
        rfl
    exact (readsIn_name hsize hlength _).bind_last (hlookup.bind_last (.pure _))

/-- An item as it is read from the wire. -/
def received (types : TypeIds) (read : SmallItem × ExtraItem) : SmallItem × ExtraItem :=
  ({ next := 0, prev := 0, typeUid := receivedUid types read.1 <<< 1 ||| read.1.typeUid % 2,
      size := read.1.size, chunkUid := read.1.chunkUid },
    { fragmentStart := read.2.fragmentStart, fragmentEnd := read.2.fragmentEnd,
      packetUid := read.2.packetUid })

theorem wireItem_eq (read : SmallItem × ExtraItem) : wireItem types read =
    (if uidOf read.1 = 0 then htol 4 0
      else htol 4 (nameIn types read.1).length ++ nameIn types read.1) ++
    (htol 1 (read.1.typeUid % 2) ++ (htol 4 read.1.size ++ (htol 2 read.1.chunkUid ++
      (htol 4 read.2.fragmentStart ++ (htol 4 read.2.fragmentEnd ++
        htol 8 read.2.packetUid))))) := by
  rw [wireItem, itemPieces]
  split
  all_goals simp only [List.flatten_cons, List.flatten_nil, List.append_nil, List.cons_append,
    List.nil_append, List.append_assoc]

theorem readsIn_item (hsize : length ≤ size) (hlength : length < 4294967296)
    {read : SmallItem × ExtraItem} (hregistered : uidOf read.1 ≤ types.names.length)
    (bounded : Bounded read) (hname : (nameIn types read.1).length < 4294967296) :
    ReadsIn length (readItem types length size) (wireItem types read)
      (received types read, (wireItem types read).length) := by
  have hraw : ∀ {octets value : Nat}, value < 256 ^ octets →
      ReadsIn length (readFromRaw length size octets) (htol octets value) value :=
    fun hvalue => readsIn_raw hsize hlength hvalue
  have hbig : read.1.typeUid % 2 < 256 ^ 1 := by omega
  have hvalue : (wireItem types read).length = 4 + (nameIn types read.1).length + (1 + 4 + 2 + 4 + 4 + 8) :=
    length_wireItem read
  rw [hvalue, wireItem_eq, readItem]
  refine (readsIn_uid hsize hlength hregistered hname).bind ?_
  refine (hraw hbig).bind ((hraw bounded.size).bind ((hraw bounded.chunkUid).bind
    ((hraw bounded.fragmentStart).bind ((hraw bounded.fragmentEnd).bind
      ((hraw bounded.packetUid).bind_last (.pure _))))))

end Wire

/-! ## Deserialization -/

section Deserialize

variable {types : TypeIds} {metadata : PacketMetadata} {items : List (SmallItem × ExtraItem)}

/-- The array of metadata that items were added to, one after the other. -/
structure Holds (metadata : PacketMetadata) (items : List (SmallItem × ExtraItem)) : Prop where
  data : ∃ junk, metadata.data = layout 0 0xffff items ++ junk
  used : metadata.used = (items.map bigSize).sum
  head : metadata.head = if items = [] then 0xffff else 0
  tail : metadata.tail = if items = [] then 0xffff else lastOffset 0 items

theorem lastOffset_lt (hne : items ≠ []) (offset : Nat) :
    lastOffset offset items < offset + (items.map bigSize).sum := by
  induction items generalizing offset with
  | nil => exact absurd rfl hne
  | cons read rest ih =>
      cases rest with
      | nil =>
          have hsize := (bigSize_bounds read).1
          rw [lastOffset, List.map_singleton, List.sum_singleton]
          omega
      | cons next rest =>
          rw [lastOffset, List.map_cons, List.sum_cons, ← Nat.add_assoc]
          exact ih (List.cons_ne_nil _ _) _

/-- `AddBig` and `UpdateTail` with an item that fits. -/
theorem Holds.add (holds : Holds metadata items) (read : SmallItem × ExtraItem)
    (hfits : lastOffset 0 (items ++ [read]) < 65535) :
    ∃ added next, metadata.addBig 0xffff metadata.tail read.1 read.2 = some (added, bigSize read) ∧
      added.updateTail (bigSize read % 65536) = some next ∧ Holds next (items ++ [read]) ∧
      next.packetUid = metadata.packetUid := by
  obtain ⟨junk, hdata⟩ := holds.data
  have hused := holds.used
  have htail := holds.tail
  have hhead := holds.head
  obtain ⟨hlow, hhigh⟩ := bigSize_bounds read
  rw [lastOffset_snoc, Nat.zero_add, ← hused] at hfits
  have hlength : (layout 0 0xffff items).length = metadata.used := (length_layout ..).trans hused.symm
  have hne : metadata.used ≠ metadata.tail := by
    rw [htail]
    split
    next => omega
    next hitems =>
      have := lastOffset_lt hitems 0
      omega
  have hadd : metadata.addBig 0xffff metadata.tail read.1 read.2 =
      some ({ metadata with
        data := layout 0 0xffff items ++ (bigItem 0xffff metadata.tail read ++ junk.drop (bigSize read)) },
        bigSize read) := by
    rw [addBig]
    refine (if_pos ⟨hne, by omega⟩).trans ?_
    have hdrop : (layout 0 0xffff items ++ junk).drop (metadata.used + bigSize read) =
        junk.drop (bigSize read) := by
      rw [← hlength]
      exact List.drop_length_add_append _
    show some ({ metadata with
      data := metadata.data.take metadata.used ++ bigItem 0xffff metadata.tail read ++
        metadata.data.drop (metadata.used + bigSize read) }, bigSize read) = _
    rw [hdata, List.take_left' hlength, hdrop, List.append_assoc]
  rw [hadd]
  have hmodUsed : metadata.used % 65536 = metadata.used := Nat.mod_eq_of_lt (by omega)
  have hsum : metadata.used + bigSize read = ((items ++ [read]).map bigSize).sum := by
    rw [hused, List.map_append, List.sum_append, List.map_singleton, List.sum_singleton]
  by_cases hitems : items = []
  · subst hitems
    rw [if_pos rfl] at htail hhead
    have hzero : metadata.used = 0 := hused
    refine ⟨_, _, rfl, (if_pos ⟨by rw [hmodUsed]; omega, by rw [Nat.mod_eq_of_lt hhigh]; exact hlow,
      iff_of_true hhead htail⟩).trans (if_pos hhead), ⟨⟨junk.drop (bigSize read), ?_⟩, ?_, ?_, ?_⟩, rfl⟩
    · dsimp only
      rw [htail]
      rfl
    · rw [Nat.mod_eq_of_lt hhigh]
      exact hsum
    · dsimp only
      rw [hmodUsed, hzero]
      rfl
    · dsimp only
      rw [hmodUsed, hzero]
      rfl
  · rw [if_neg hitems] at htail hhead
    have hlast := lastOffset_lt hitems 0
    have hsnoc : items ++ [read] ≠ [] := List.append_ne_nil_of_right_ne_nil _ (List.cons_ne_nil _ _)
    refine ⟨_, _, rfl, (if_pos ⟨by rw [hmodUsed]; omega, by rw [Nat.mod_eq_of_lt hhigh]; exact hlow,
      iff_of_false (by rw [hhead]; decide) (by rw [htail]; omega)⟩).trans
      (if_neg (by rw [hhead]; decide)), ⟨⟨junk.drop (bigSize read), ?_⟩, ?_, ?_, ?_⟩, rfl⟩
    · have hpatch := patchAt_layout hitems [] 0 0xffff rfl read (junk.drop (bigSize read))
      rw [List.nil_append, List.nil_append, Nat.zero_add, ← hused, ← htail] at hpatch
      exact hpatch
    · rw [Nat.mod_eq_of_lt hhigh]
      exact hsum
    · rw [if_neg hsnoc]
      exact hhead
    · rw [if_neg hsnoc, lastOffset_snoc, Nat.zero_add, ← hused]
      exact hmodUsed

theorem receivedUid_le (item : SmallItem) : receivedUid types item ≤ uidOf item := by
  rw [receivedUid]
  split
  · exact Nat.zero_le _
  · exact Nat.le_refl _

theorem received_typeUid (read : SmallItem × ExtraItem) :
    (received types read).1.typeUid = 2 * receivedUid types read.1 + read.1.typeUid % 2 := by
  have hbit : read.1.typeUid % 2 < 2 ^ 1 := by omega
  have hor := @Leb128.or_shiftLeft _ 1 (receivedUid types read.1) hbit
  show receivedUid types read.1 <<< 1 ||| read.1.typeUid % 2 = _
  rw [Nat.or_comm, hor]
  omega

theorem Bounded.received {read : SmallItem × ExtraItem} (bounded : Bounded read) :
    Bounded (received types read) where
  typeUid := by
    have hle := @receivedUid_le types read.1
    have hlt := bounded.typeUid
    rw [received_typeUid]
    rw [uidOf] at hle
    omega
  size := bounded.size
  chunkUid := bounded.chunkUid
  fragmentStart := bounded.fragmentStart
  fragmentEnd := bounded.fragmentEnd
  packetUid := bounded.packetUid

theorem uidOf_received (read : SmallItem × ExtraItem) :
    uidOf (PacketMetadata.received types read).1 = receivedUid types read.1 := by
  rw [uidOf, received_typeUid]
  omega

/-- Offsets of more items are larger. -/
theorem lastOffset_append_le (offset : Nat) (more : List (SmallItem × ExtraItem)) (hne : items ≠ []) :
    lastOffset offset items ≤ lastOffset offset (items ++ more) := by
  induction items generalizing offset with
  | nil => exact absurd rfl hne
  | cons read rest ih =>
      cases rest with
      | nil => exact le_lastOffset _ _
      | cons next rest => exact ih _ (List.cons_ne_nil _ _)

/-- The loop of `Deserialize`. -/
theorem exists_deserializeFrom {length size : Nat} (hsize : length ≤ size)
    (hlength : length < 4294967296) {rest : List (SmallItem × ExtraItem)}
    (hregistered : Registered types rest) (hbounded : ∀ read ∈ rest, Bounded read)
    (hin : (wireItems types rest).length ≤ length) {turns : Nat} (hturns : rest.length < turns)
    (holds : Holds metadata items)
    (hfits : lastOffset 0 (items ++ rest.map (received types)) < 65535) :
    ∃ last, deserializeFrom types length size turns (wireItems types rest).length metadata
        (wireItems types rest) = some last ∧
      Holds last (items ++ rest.map (received types)) ∧ last.packetUid = metadata.packetUid := by
  induction rest generalizing items metadata turns with
  | nil =>
      obtain ⟨turns, rfl⟩ : ∃ left, turns = left + 1 := ⟨turns - 1, by omega⟩
      refine ⟨metadata, by rw [deserializeFrom]; exact if_pos rfl, ?_, rfl⟩
      rwa [List.map_nil, List.append_nil]
  | cons read rest ih =>
      obtain ⟨turns, rfl⟩ : ∃ left, turns = left + 1 := ⟨turns - 1, by omega⟩
      have hwire : wireItems types (read :: rest) = wireItem types read ++ wireItems types rest := by
        rw [wireItems, List.map_cons, List.flatten_cons, ← wireItems]
      have hitem := @length_wireItem types read
      rw [hwire, List.length_append] at hin
      rw [List.map_cons, List.append_cons] at hfits ⊢
      have hread := readsIn_item hsize hlength (hregistered read List.mem_cons_self)
        (hbounded read List.mem_cons_self) (by omega) (wireItems types rest) hin
      have hfirst : lastOffset 0 (items ++ [received types read]) < 65535 :=
        Nat.lt_of_le_of_lt (lastOffset_append_le 0 _
          (List.append_ne_nil_of_right_ne_nil _ (List.cons_ne_nil _ _))) hfits
      obtain ⟨added, next, hadd, hupdate, hnext, huid⟩ := holds.add (received types read) hfirst
      obtain ⟨last, hlast, hholds, huid'⟩ :=
        ih (fun other hmem => hregistered other (List.mem_cons_of_mem _ hmem))
          (fun other hmem => hbounded other (List.mem_cons_of_mem _ hmem)) (by omega)
          (Nat.lt_of_succ_lt_succ hturns) hnext hfits
      refine ⟨last, ?_, hholds, huid'.trans huid⟩
      rw [deserializeFrom, hwire, List.length_append, if_neg (by omega), hread, Option.bind_some]
      dsimp only
      rw [hadd, Option.bind_some]
      dsimp only
      rw [hupdate, Option.bind_some]
      have hcount : ((wireItem types read).length + (wireItems types rest).length + 4294967296 -
          (wireItem types read).length % 4294967296) % 4294967296 = (wireItems types rest).length := by
        omega
      rw [hcount]
      exact hlast

/-- What `Deserialize` makes of the octets on the wire. -/
theorem exists_deserialize {fresh : PacketMetadata} (hfresh : Holds fresh [])
    (hregistered : Registered types items) (hbounded : ∀ read ∈ items, Bounded read)
    (hpacketUid : metadata.packetUid < 18446744073709551616)
    (hsize : (wire types metadata items).length + 4 < 4294967296)
    (hfits : lastOffset 0 (items.map (received types)) < 65535) :
    ∃ next, fresh.deserialize types (wire types metadata items) ((wire types metadata items).length + 4) =
        some (1, next) ∧
      next.packetUid = metadata.packetUid ∧ Holds next (items.map (received types)) := by
  have hlength := @length_wire types metadata items
  have hturns : items.length < (wire types metadata items).length + 4 + 1 := by
    have hle : items.length ≤ (wireItems types items).length := by
      clear hlength hsize hbounded hfits hregistered
      induction items with
      | nil => exact Nat.zero_le _
      | cons read rest ih =>
          have := @length_wireItem types read
          rw [wireItems, List.map_cons, List.flatten_cons, ← wireItems, List.length_append, List.length_cons]
          omega
    omega
  have hmore := Nat.le_add_right (wire types metadata items).length 4
  have hfirst := @readsIn_raw _ _ hmore (by omega) 8 _ hpacketUid (wireItems types items)
    (by rw [length_htol]; omega)
  obtain ⟨last, hlast, hholds, huid⟩ :=
    @exists_deserializeFrom types { fresh with packetUid := metadata.packetUid } [] _ _ hmore (by omega)
      items hregistered hbounded (by omega) _ hturns
      ⟨hfresh.data, hfresh.used, hfresh.head, hfresh.tail⟩ hfits
  refine ⟨last, ?_, huid, hholds⟩
  have hcount : ((wire types metadata items).length + 4 + 4294967296 - 12) % 4294967296 =
      (wireItems types items).length := by
    omega
  rw [deserialize, hcount]
  nth_rewrite 3 [wire]
  rw [hfirst, Option.bind_some, hlast]
  rfl

end Deserialize

/-! ## The round trip -/

/-- What an item says: the uid of its type, its size, its chunk, its bounds and its packet. -/
structure Item where
  typeId : Nat
  size : Nat
  chunkUid : Nat
  fragmentStart : Nat
  fragmentEnd : Nat
  packetUid : Nat
  deriving DecidableEq

def describe (read : SmallItem × ExtraItem) : Item where
  typeId := uidOf read.1
  size := read.1.size
  chunkUid := read.1.chunkUid
  fragmentStart := read.2.fragmentStart
  fragmentEnd := read.2.fragmentEnd
  packetUid := read.2.packetUid

/-- The size is that of what is written, nothing is written past a smaller size, and new metadata
becomes metadata of the same packet with the same items. -/
def RoundTrips (types : TypeIds) (enable : Bool) (metadata : PacketMetadata)
    (items : List (SmallItem × ExtraItem)) : Prop :=
  ∃ size bytes, metadata.getSerializedSize types enable = some size ∧
    metadata.serialize types size = some (1, bytes) ∧ bytes.length = size ∧
    (∀ maxSize < size, ∃ part, metadata.serialize types maxSize = some (0, part) ∧
      part.length ≤ maxSize) ∧
    ∀ uid data, ∃ next items', (create uid data).deserialize types bytes (size + 4) = some (1, next) ∧
      next.packetUid = metadata.packetUid ∧ next.Represents items' ∧
      items'.map describe = items.map describe

/-- Types have names, and the lower half of the uid of the packet tells the upper one when there are
small items. -/
def Recoverable (types : TypeIds) (metadata : PacketMetadata)
    (items : List (SmallItem × ExtraItem)) : Prop :=
  ∀ read ∈ items, (uidOf read.1 ≠ 0 → nameIn types read.1 ≠ []) ∧
    (read.1.typeUid % 2 = 0 →
      metadata.packetUid = signExtend (metadata.packetUid % 4294967296))

section RoundTrip

variable {types : TypeIds} {metadata : PacketMetadata} {items : List (SmallItem × ExtraItem)}

theorem map_describe_storedFrom (offset prev : Nat) :
    (storedFrom offset prev items).map describe =
      items.map fun read => { describe read with
        packetUid := signExtend (read.2.packetUid % 4294967296) } := by
  have hstored : ∀ next prev read, describe (stored next prev read) = { describe read with
      packetUid := signExtend (read.2.packetUid % 4294967296) } := fun next prev read => by
    rw [describe, describe, stored, uidOf, bigTypeUid_eq]
    congr 1
    show (2 * uidOf read.1 + 1) / 2 = uidOf read.1
    omega
  induction items generalizing offset prev with
  | nil => rfl
  | cons read rest ih =>
      cases rest with
      | nil => rw [storedFrom, List.map_singleton, List.map_singleton, hstored]
      | cons next rest =>
          rw [storedFrom, List.map_cons, hstored, ih]
          rfl

/-- What the items say after the round trip. -/
def comeBack (types : TypeIds) (read : SmallItem × ExtraItem) : Item :=
  { describe read with
    typeId := receivedUid types read.1
    packetUid := signExtend (read.2.packetUid % 4294967296) }

theorem map_describe_received (offset prev : Nat) :
    (storedFrom offset prev (items.map (received types))).map describe =
      items.map (comeBack types) := by
  rw [map_describe_storedFrom, List.map_map]
  refine List.map_congr_left fun read _ => ?_
  rw [Function.comp_apply, describe, uidOf_received]
  rfl

theorem Walks.exists_readItems {offsets : List Nat} (walks : Walks metadata offsets items) :
    ∀ read ∈ items, ∃ offset, metadata.readItems offset = some read := by
  induction walks with
  | last hread =>
      intro read hmem
      rw [List.mem_singleton.mp hmem]
      exact ⟨_, hread⟩
  | cons hread _ _ _ ih =>
      intro read hmem
      rcases List.mem_cons.mp hmem with rfl | hmem
      · exact ⟨_, hread⟩
      · exact ih read hmem

/-- What the items of metadata say of their packets. -/
theorem Represents.inv (represents : metadata.Represents items)
    (hpacketUid : metadata.packetUid < 18446744073709551616) {read : SmallItem × ExtraItem}
    (hmem : read ∈ items) :
    Bounded read ∧ (read.1.typeUid % 2 = 0 → read.2.packetUid = metadata.packetUid) ∧
      (read.1.typeUid % 2 = 1 → ∃ word < 4294967296, read.2.packetUid = signExtend word) := by
  rcases represents with ⟨rfl, -⟩ | ⟨offsets, walks, -, -⟩
  · exact absurd hmem List.not_mem_nil
  · obtain ⟨offset, hread⟩ := walks.exists_readItems read hmem
    obtain ⟨⟨found, rest⟩, hfound, rfl⟩ := Option.map_eq_some_iff.mp hread
    exact itemReader_inv hpacketUid hfound

/-- Metadata is a list of at most one list of items. -/
theorem Represents.unique {items' : List (SmallItem × ExtraItem)}
    (represents : metadata.Represents items) (represents' : metadata.Represents items') :
    items = items' := by
  have hcollect : ∀ (items seen : List (SmallItem × ExtraItem)),
      foldUntil (fun seen item extra => (seen ++ [(item, extra)], false)) seen items = seen ++ items := by
    intro items
    induction items with
    | nil => exact fun seen => (List.append_nil seen).symm
    | cons read rest ih =>
        intro seen
        rw [foldUntil]
        dsimp only
        rw [if_neg Bool.false_ne_true, ih, List.append_assoc]
        rfl
  have hwalk := @Represents.forItems _ metadata items
    (fun seen item extra => (seen ++ [(item, extra)], false)) represents []
  have hsame := hwalk.symm.trans (represents'.forItems [])
  rw [hcollect, hcollect] at hsame
  exact Option.some.inj hsame

theorem Holds.represents (holds : Holds metadata items) (hbounded : ∀ read ∈ items, Bounded read)
    (hfits : lastOffset 0 items < 65535) :
    metadata.Represents (storedFrom 0 0xffff items) := by
  cases items with
  | nil => exact .inl ⟨rfl, holds.head⟩
  | cons read rest =>
      obtain ⟨junk, hdata⟩ := holds.data
      have hne : read :: rest ≠ [] := List.cons_ne_nil _ _
      have htail := holds.tail
      have hhead := holds.head
      rw [if_neg hne] at htail hhead
      have hwalks := @walks_layout metadata (read :: rest) hne hbounded [] junk 0 0xffff rfl hdata htail
        hfits
      refine .inr ⟨offsetsFrom (0 + bigSize read) rest, ?_, ?_, fun offset hmem => ?_⟩
      · rw [hhead]
        exact hwalks
      · rw [hhead]
        exact nodup_offsetsFrom 0 (read :: rest)
      · rw [hhead] at hmem
        exact Nat.lt_of_le_of_lt (@mem_offsetsFrom (read :: rest) 0 offset hmem).2 hfits

/-- The items come back exactly when they can be recovered, if they fit into the array as big
items. -/
theorem roundTrips_iff_recoverable {enable : Bool} (represents : metadata.Represents items)
    (henable : enable = false → items = []) (hregistered : Registered types items)
    (hpacketUid : metadata.packetUid < 18446744073709551616)
    (hsize : (wire types metadata items).length + 4 < 4294967296)
    (hfits : lastOffset 0 (items.map (received types)) < 65535) :
    RoundTrips types enable metadata items ↔ Recoverable types metadata items := by
  have hlength := @length_wire types metadata items
  have hbounded : ∀ read ∈ items, Bounded read := fun read hmem => (represents.inv hpacketUid hmem).1
  have hreceived : ∀ read ∈ items.map (received types), Bounded read := fun read hmem => by
    obtain ⟨other, hother, rfl⟩ := List.mem_map.mp hmem
    exact (hbounded other hother).received
  have hserializedSize := getSerializedSize_eq represents henable hregistered (by omega)
  rw [← hlength] at hserializedSize
  have hserialize := serialize_eq represents hregistered (by omega)
  have hback : ∀ uid data, ∃ next,
      (create uid data).deserialize types (wire types metadata items)
        ((wire types metadata items).length + 4) = some (1, next) ∧
      next.packetUid = metadata.packetUid ∧
      next.Represents (storedFrom 0 0xffff (items.map (received types))) := fun uid data => by
    obtain ⟨next, hnext, huid, holds⟩ := @exists_deserialize types metadata items
      (create uid data) ⟨⟨data, rfl⟩, rfl, rfl, rfl⟩ hregistered hbounded hpacketUid hsize hfits
    exact ⟨next, hnext, huid, holds.represents hreceived hfits⟩
  have hsame : items.map (comeBack types) = items.map describe ↔ Recoverable types metadata items := by
    rw [List.map_inj_left]
    refine forall₂_congr fun read hmem => ?_
    obtain ⟨-, hsmall, hbig⟩ := represents.inv hpacketUid hmem
    have hcome : comeBack types read = describe read ↔ receivedUid types read.1 = uidOf read.1 ∧
        signExtend (read.2.packetUid % 4294967296) = read.2.packetUid := by
      rw [comeBack, describe, Item.mk.injEq]
      simp
    rw [hcome, receivedUid]
    refine and_congr ?_ ?_
    · split
      next hempty =>
        exact ⟨fun hzero huid => absurd hzero.symm huid, fun hnamed => (not_not.mp fun hne =>
          hnamed (fun hzero => hne hzero) hempty).symm⟩
      next hnamed => exact iff_of_true rfl fun _ => hnamed
    · rcases Nat.mod_two_eq_zero_or_one read.1.typeUid with heven | hodd
      · rw [hsmall heven]
        exact ⟨fun heq _ => heq.symm, fun heq => (heq heven).symm⟩
      · obtain ⟨word, hword, heq⟩ := hbig hodd
        rw [heq, signExtend_mod hword]
        exact iff_of_true rfl fun heven => by omega
  rw [← hsame]
  constructor
  · rintro ⟨size, bytes, hsize', hbytes, -, -, hdeserialize⟩
    obtain rfl := Option.some.inj (hserializedSize.symm.trans hsize')
    obtain ⟨-, rfl⟩ := Prod.mk.inj (Option.some.inj (hserialize.symm.trans hbytes))
    obtain ⟨next, items', hnext, -, hrepresents, hitems⟩ := hdeserialize 0 []
    obtain ⟨next', hnext', -, hrepresents'⟩ := hback 0 []
    obtain ⟨-, rfl⟩ := Prod.mk.inj (Option.some.inj (hnext.symm.trans hnext'))
    rw [← hitems, hrepresents.unique hrepresents', map_describe_received]
  · intro hitems
    refine ⟨_, _, hserializedSize, hserialize, rfl,
      fun maxSize hlt => serialize_of_lt represents hregistered (by omega) hlt, fun uid data => ?_⟩
    obtain ⟨next, hnext, huid, hrepresents⟩ := hback uid data
    exact ⟨next, _, hnext, huid, hrepresents, by rw [map_describe_received, hitems]⟩

end RoundTrip

/-- One registered type. -/
def oneType : TypeIds where
  names := [[0x41]]
  distinct := by decide
  small := by decide

/-- Metadata of one small header of that type. -/
def oneHeader (packetUid : Nat) : PacketMetadata where
  data := [0xff, 0xff, 0xff, 0xff, 2, 20, 5, 0]
  head := 0
  tail := 0
  used := 8
  packetUid := packetUid

/-- The item of that metadata. -/
def headerItem (packetUid : Nat) : SmallItem × ExtraItem :=
  ({ next := 0xffff, prev := 0xffff, typeUid := 2, size := 20, chunkUid := 5 },
    { fragmentStart := 0, fragmentEnd := 20, packetUid })

theorem represents_oneHeader (packetUid : Nat) :
    (oneHeader packetUid).Represents [headerItem packetUid] :=
  .inr ⟨[], .last rfl, List.nodup_singleton _, List.forall_mem_singleton.mpr (Nat.zero_lt_succ _)⟩

theorem roundTrips_iff_recoverable_oneHeader :
    RoundTrips oneType true (oneHeader 7) [headerItem 7] ↔
      Recoverable oneType (oneHeader 7) [headerItem 7] :=
  roundTrips_iff_recoverable (represents_oneHeader 7) (by decide)
    (List.forall_mem_singleton.mpr (by decide)) (by decide) (by decide) (by decide)

/-- The upper half of the uid of the packet of a small item is lost. -/
theorem not_roundTrips_largeUid :
    (oneHeader 4294967296).Represents [headerItem 4294967296] ∧
      ¬ RoundTrips oneType true (oneHeader 4294967296) [headerItem 4294967296] := by
  have represents := represents_oneHeader 4294967296
  refine ⟨represents, ?_⟩
  rintro ⟨size, bytes, hsize, hbytes, -, -, hback⟩
  have hserializedSize : (oneHeader 4294967296).getSerializedSize oneType true = some 36 := by
    decide +kernel
  obtain rfl := Option.some.inj (hserializedSize.symm.trans hsize)
  have hserialize : (oneHeader 4294967296).serialize oneType 36 =
      some (1, wire oneType (oneHeader 4294967296) [headerItem 4294967296]) := by
    decide +kernel
  obtain ⟨-, rfl⟩ := Prod.mk.inj (Option.some.inj (hserialize.symm.trans hbytes))
  obtain ⟨next, items', hnext, -, hitems, hsame⟩ := hback 0 []
  let last : PacketMetadata :=
    { data := [0xff, 0xff, 0xff, 0xff, 3, 20, 5, 0, 0, 20, 0, 0, 0, 0]
      head := 0
      tail := 0
      used := 14
      packetUid := 4294967296 }
  have hlast : (create 0 []).deserialize oneType
      (wire oneType (oneHeader 4294967296) [headerItem 4294967296]) 40 = some (1, last) := by
    decide +kernel
  obtain ⟨-, rfl⟩ := Prod.mk.inj (Option.some.inj (hlast.symm.trans hnext))
  have hread : last.Represents
      [({ next := 0xffff, prev := 0xffff, typeUid := 3, size := 20, chunkUid := 5 },
        { fragmentStart := 0, fragmentEnd := 20, packetUid := 0 })] :=
    .inr ⟨[], .last (by decide +kernel), List.nodup_singleton _, List.forall_mem_singleton.mpr (Nat.zero_lt_succ _)⟩
  rw [hitems.unique hread] at hsame
  simp [describe, headerItem] at hsame

end PacketMetadata

end DeepcV2x.Packets
