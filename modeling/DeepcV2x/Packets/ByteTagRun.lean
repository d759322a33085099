import DeepcV2x.Packets.ByteTagPackets

/-!
# Byte tags follow their bytes

In a run whose offsets do not overflow the iterator of every packet yields for
every byte the tags that the byte carries.
-/

namespace DeepcV2x.Packets

open Foundation Foundation.Runs Foundation.Sharing

/-! ## One packet and its bytes -/

/-- The bytes carry the tags that the value gives their positions. -/
def Carries (value : TagRanges) (bytes : TaggedBytes) : Prop :=
  ∀ (position : Nat) (tags : List Tag), bytes[position]? = some tags →
    value.tagsAt position = tags

theorem lt_offsetMax {size position : Nat} (hsize : size < 2 ^ 31) (hposition : position < size) :
    (position : Int) < offsetMax := by
  unfold offsetMax
  omega

theorem lt_of_getElem? {bytes : TaggedBytes} {position : Nat} {tags : List Tag}
    (hget : bytes[position]? = some tags) : position < bytes.length :=
  (List.getElem?_eq_some_iff.mp hget).1

theorem untagged_getElem? {size position : Nat} {tags : List Tag}
    (hget : (TaggedBytes.untagged size)[position]? = some tags) : tags = [] := by
  rw [TaggedBytes.untagged, List.getElem?_replicate] at hget
  split at hget
  · exact (Option.some.inj hget).symm
  · cases hget

namespace Carries

variable {value : TagRanges} {bytes : TaggedBytes}

theorem untagged (size : Nat) : Carries TagRanges.empty (TaggedBytes.untagged size) :=
  fun _ _ hget => (untagged_getElem? hget).symm

theorem take (carries : Carries value bytes) (size : Nat) : Carries value (bytes.take size) :=
  fun position tags hget => carries position tags (by
    rw [List.getElem?_take] at hget
    split at hget
    · exact hget
    · cases hget)

theorem drop (carries : Carries value bytes) {size : Nat}
    (hfits : value.AdjustFits (-size)) : Carries (value.adjust (-size)) (bytes.drop size) := by
  intro position tags hget
  rw [List.getElem?_drop] at hget
  have hplace : (position : Int) - -(size : Int) = ((size + position : Nat) : Int) := by omega
  rw [TagRanges.tagsAt_adjust hfits, hplace]
  exact carries (size + position) tags hget

theorem header (sound : value.Sound) (carries : Carries value bytes) {size : Nat}
    (hsize : bytes.length + size < 2 ^ 31) (hadjust : value.AdjustFits size)
    (hcut : (value.adjust size).CutFits size) :
    Carries ((value.adjust size).addAtStart size) (TaggedBytes.untagged size ++ bytes) := by
  intro position tags hget
  have hlength := lt_of_getElem? hget
  have huntagged : (TaggedBytes.untagged size).length = size := List.length_replicate
  rw [List.length_append, huntagged] at hlength
  rw [TagRanges.tagsAt_addAtStart (sound.adjust hadjust) (inInt32_of_nat (by omega)) hcut
    (Int.natCast_nonneg size) (lt_offsetMax hsize (by omega))]
  by_cases hfrom : size ≤ position
  · rw [List.getElem?_append_right (by omega), huntagged] at hget
    have hplace : (position : Int) - size = ((position - size : Nat) : Int) := by omega
    rw [if_pos (by omega), TagRanges.tagsAt_adjust hadjust, hplace]
    exact carries _ tags hget
  · rw [List.getElem?_append_left (by omega)] at hget
    rw [if_neg (by omega)]
    exact (untagged_getElem? hget).symm

/-- Behind the bytes the cut list gives no tags. -/
theorem cutAtEnd (sound : value.Sound) (carries : Carries value bytes)
    (hsize : bytes.length < 2 ^ 31) (hcut : value.CutFits bytes.length) {position : Nat}
    (hposition : position < 2 ^ 31 - 1) :
    (value.addAtEnd bytes.length).tagsAt position = (bytes[position]?).getD [] := by
  have hmax : (position : Int) < offsetMax := by
    unfold offsetMax
    omega
  rw [TagRanges.tagsAt_addAtEnd sound (inInt32_of_nat hsize) hcut (Int.natCast_nonneg position)
    hmax]
  by_cases hbefore : position < bytes.length
  · rw [if_pos (by omega), List.getElem?_eq_getElem hbefore]
    exact carries position _ (List.getElem?_eq_getElem hbefore)
  · rw [if_neg (by omega), List.getElem?_eq_none (by omega)]
    rfl

theorem cut (sound : value.Sound) (carries : Carries value bytes)
    (hsize : bytes.length < 2 ^ 31) (hcut : value.CutFits bytes.length) :
    Carries (value.addAtEnd bytes.length) bytes := by
  intro position tags hget
  have hlength := lt_of_getElem? hget
  rw [carries.cutAtEnd sound hsize hcut (by omega), hget]
  rfl

theorem trailer (sound : value.Sound) (carries : Carries value bytes) {size : Nat}
    (hsize : bytes.length + size < 2 ^ 31) (hcut : value.CutFits bytes.length) :
    Carries (value.addAtEnd bytes.length) (bytes ++ TaggedBytes.untagged size) := by
  intro position tags hget
  have hlength := lt_of_getElem? hget
  have huntagged : (TaggedBytes.untagged size).length = size := List.length_replicate
  rw [List.length_append, huntagged] at hlength
  rw [carries.cutAtEnd sound (by omega) hcut (by omega)]
  by_cases hbefore : position < bytes.length
  · rw [List.getElem?_append_left hbefore] at hget
    rw [hget]
    rfl
  · rw [List.getElem?_append_right (by omega)] at hget
    rw [List.getElem?_eq_none (by omega)]
    exact (untagged_getElem? hget).symm

theorem tag (carries : Carries value bytes) {start stop : Nat} (hfits : value.AddFits start stop)
    (tag : Tag) : Carries (value.add tag start stop) (bytes.tag tag start stop) := by
  intro position tags hget
  rw [TaggedBytes.tag, List.getElem?_mapIdx] at hget
  obtain ⟨before, hbefore, htags⟩ := Option.map_eq_some_iff.mp hget
  have hcovers : (⟨tag, start, stop⟩ : TagRange).covers position = true ↔
      start ≤ position ∧ position < stop := by
    rw [covers_iff]
    simp only
    omega
  rw [TagRanges.tagsAt_add hfits, carries position before hbefore, tagsIn_cons, tagsIn_nil]
  by_cases hinside : start ≤ position ∧ position < stop
  · rw [if_pos hinside] at htags
    rw [if_pos (hcovers.mpr hinside), htags]
  · rw [if_neg hinside] at htags
    rw [if_neg fun h => hinside (hcovers.mp h), List.append_nil, htags]

/-- Appending: behind the own bytes the tags are those of the other packet. -/
theorem append {other : TagRanges} {bytes' : TaggedBytes} (sound : value.Sound)
    (carries : Carries value bytes) (hcut : value.CutFits bytes.length) (sound' : other.Sound)
    (carries' : Carries other bytes') (hsize : bytes.length + bytes'.length < 2 ^ 31)
    (hfits : AppendFits (value.addAtEnd bytes.length) other bytes.length) :
    Carries ((value.addAtEnd bytes.length).addAll
      ((other.addAtStart 0).adjust bytes.length).itemsAll) (bytes ++ bytes') := by
  intro position tags hget
  obtain ⟨hstart, hadjust, hadd⟩ := hfits
  have hlength := lt_of_getElem? hget
  rw [List.length_append] at hlength
  have hmax := lt_offsetMax hsize hlength
  have hzero : InInt32 0 := inInt32_of_nat (Nat.two_pow_pos 31)
  have hitems := TagRanges.tagsIn_items ((sound'.addAtStart hzero).adjust hadjust)
    (Int.natCast_nonneg position) hmax
  rw [TagRanges.tagsAt_addAll hadd, carries.cutAtEnd sound (by omega) hcut (by omega)]
  rw [TagRanges.itemsAll, hitems, TagRanges.tagsAt_adjust hadjust,
    TagRanges.tagsAt_addAtStart sound' hzero hstart (Int.le_refl 0) (by omega)]
  by_cases hbefore : position < bytes.length
  · rw [List.getElem?_append_left hbefore] at hget
    rw [if_neg (by omega), hget, List.append_nil]
    rfl
  · have hplace : (position : Int) - bytes.length = ((position - bytes.length : Nat) : Int) := by
      omega
    rw [List.getElem?_append_right (by omega)] at hget
    rw [if_pos (by omega), List.getElem?_eq_none (by omega), hplace, carries' _ tags hget]
    rfl

end Carries

/-! ## The packets with their values and their bytes -/

structure Entry where
  packet : Packet
  value : TagRanges
  bytes : TaggedBytes

structure Entry.Sound (entry : Entry) : Prop where
  value : entry.value.Sound
  carries : Carries entry.value entry.bytes
  length_eq : entry.bytes.length = entry.packet.size
  size_lt : entry.packet.size < 2 ^ 31

def Entry.holder (entry : Entry) : ByteTagList × TagRanges :=
  (entry.packet.byteTagList, entry.value)

abbrev Entries := List (Option Entry)

def holders (entries : Entries) : Holders := entries.filterMap (Option.map Entry.holder)

/-- The packets of a state and the bytes they follow. -/
structure Tracks (state : State) (bytes : List (Option TaggedBytes)) (entries : Entries) : Prop where
  packets_eq : state.packets = entries.map (Option.map Entry.packet)
  bytes_eq : bytes = entries.map (Option.map Entry.bytes)
  holds : Holds state.heap (holders entries)
  sound : ∀ entry, some entry ∈ entries → entry.Sound

theorem holders_append (entries : Entries) (entry : Entry) :
    (holders (entries ++ [some entry])).Perm (entry.holder :: holders entries) := by
  unfold holders
  rw [List.filterMap_append]
  exact List.perm_append_comm

theorem holders_eraseIdx {entries : Entries} {index : Nat} {entry : Entry}
    (hget : entries[index]? = some (some entry)) :
    (holders entries).Perm (entry.holder :: holders (entries.eraseIdx index)) := by
  obtain ⟨hlt, hget⟩ := List.getElem?_eq_some_iff.mp hget
  have hperm := (List.getElem_cons_eraseIdx_perm hlt).symm.filterMap (Option.map Entry.holder)
  rw [hget] at hperm
  exact hperm

theorem holders_set {entries : Entries} {index : Nat} {entry changed : Entry}
    (hget : entries[index]? = some (some entry)) :
    (changed.holder :: holders (entries.eraseIdx index)).Perm
      (holders (entries.set index (some changed))) := by
  have hlt := (List.getElem?_eq_some_iff.mp hget).1
  have hset : (entries.set index (some changed))[index]? = some (some changed) :=
    List.getElem?_set_self hlt
  have hperm := holders_eraseIdx hset
  rw [List.eraseIdx_set_eq] at hperm
  exact hperm.symm

namespace Tracks

variable {state : State} {bytes : List (Option TaggedBytes)} {entries : Entries} {index : Nat}

theorem empty : Tracks State.empty [] [] :=
  ⟨rfl, rfl, Holds.empty, fun _ hmem => absurd hmem List.not_mem_nil⟩

theorem packet_eq (tracks : Tracks state bytes entries) (index : Nat) :
    state.packet index = (entries[index]?).join.map Entry.packet := by
  rw [State.packet, tracks.packets_eq, List.getElem?_map]
  cases entries[index]? with
  | none => rfl
  | some entry => cases entry <;> rfl

theorem at_eq (tracks : Tracks state bytes entries) (index : Nat) :
    TaggedBytes.at_ bytes index = (entries[index]?).join.map Entry.bytes := by
  rw [TaggedBytes.at_, tracks.bytes_eq, List.getElem?_map]
  cases entries[index]? with
  | none => rfl
  | some entry => cases entry <;> rfl

theorem exists_entry (tracks : Tracks state bytes entries) {packet : Packet}
    (hpacket : state.packet index = some packet) :
    ∃ entry, entries[index]? = some (some entry) ∧ entry.packet = packet ∧ entry.Sound := by
  rw [tracks.packet_eq] at hpacket
  obtain ⟨entry, hentry, hsame⟩ := Option.map_eq_some_iff.mp hpacket
  have hget := Option.join_eq_some_iff.mp hentry
  exact ⟨entry, hget, hsame, tracks.sound entry (List.mem_of_getElem? hget)⟩

theorem holds_at (tracks : Tracks state bytes entries) {entry : Entry}
    (hget : entries[index]? = some (some entry)) :
    Holds state.heap (entry.holder :: holders (entries.eraseIdx index)) :=
  tracks.holds.perm (holders_eraseIdx hget)

theorem at_of_entry (tracks : Tracks state bytes entries) {entry : Entry}
    (hget : entries[index]? = some (some entry)) :
    TaggedBytes.at_ bytes index = some entry.bytes := by
  rw [tracks.at_eq, hget]
  rfl

theorem value_eq (tracks : Tracks state bytes entries) {entry : Entry}
    (hget : entries[index]? = some (some entry)) :
    entry.packet.value state.heap = entry.value :=
  (tracks.holds_at hget).head.value_eq

/-- A packet that is created among the others. -/
theorem push (tracks : Tracks state bytes entries) {heap : TagHeap} {entry : Entry}
    (hholds : Holds heap (entry.holder :: holders entries)) (hsound : entry.Sound) :
    Tracks (state.push (heap, entry.packet)) (bytes ++ [some entry.bytes])
      (entries ++ [some entry]) where
  packets_eq := by rw [State.push, tracks.packets_eq, List.map_append]; rfl
  bytes_eq := by rw [tracks.bytes_eq, List.map_append]; rfl
  holds := hholds.perm (holders_append entries entry).symm
  sound := fun other hmem => by
    rcases List.mem_append.mp hmem with hold | hnew
    · exact tracks.sound other hold
    · rw [Option.some.inj (List.mem_singleton.mp hnew)]
      exact hsound

/-- A packet that changes among the others. -/
theorem set (tracks : Tracks state bytes entries) {heap : TagHeap} {entry changed : Entry}
    (hget : entries[index]? = some (some entry))
    (hholds : Holds heap (changed.holder :: holders (entries.eraseIdx index)))
    (hsound : changed.Sound) :
    Tracks (state.set index (heap, changed.packet)) (bytes.set index (some changed.bytes))
      (entries.set index (some changed)) where
  packets_eq := by rw [State.set, tracks.packets_eq, List.map_set]; rfl
  bytes_eq := by rw [tracks.bytes_eq, List.map_set]; rfl
  holds := hholds.perm (holders_set hget)
  sound := fun other hmem => by
    rcases List.mem_or_eq_of_mem_set hmem with hold | hnew
    · exact tracks.sound other hold
    · rw [Option.some.inj hnew]
      exact hsound

theorem change_eq (tracks : Tracks state bytes entries) {entry : Entry}
    (hget : entries[index]? = some (some entry)) (change : TaggedBytes → TaggedBytes) :
    TaggedBytes.change bytes index change = bytes.set index (some (change entry.bytes)) := by
  rw [TaggedBytes.change, tracks.at_of_entry hget]
  rfl

end Tracks

/-! ## The operations on one packet -/

theorem int32_neg {size : Nat} (hsize : size < 2 ^ 31) : int32 (-size) = -size :=
  int32_eq (by unfold InInt32; omega)

theorem int32_nat {size : Nat} (hsize : size < 2 ^ 31) : int32 size = size :=
  int32_eq (inInt32_of_nat hsize)

/-- A changed packet with a value among the others, over the bytes it is to carry. -/
def Changes (rest : Holders) (changed : TagHeap × Packet) (bytes : TaggedBytes) : Prop :=
  ∃ value, Holds changed.1 ((changed.2.byteTagList, value) :: rest) ∧
    Entry.Sound ⟨changed.2, value, bytes⟩

namespace Entry.Sound

variable {heap : TagHeap} {entry : Entry} {rest : Holders} {changed : TagHeap × Packet}

theorem create {size : Nat} (hsize : size < 2 ^ 31) :
    Entry.Sound ⟨Packet.create size, TagRanges.empty, TaggedBytes.untagged size⟩ :=
  ⟨TagRanges.sound_empty, Carries.untagged size, List.length_replicate, hsize⟩

theorem addRange (sound : entry.Sound) (holds : Holds heap (entry.holder :: rest)) {tag : Tag}
    {start stop : Nat} (htag : tag.data.length < 2 ^ 31) (hstart : start < 2 ^ 31)
    (hstop : stop < 2 ^ 31) (hfits : entry.value.AddFits start stop)
    {added : TagHeap × ByteTagList}
    (hadd : entry.packet.byteTagList.add heap tag start stop = some added) :
    Changes rest (added.1, { entry.packet with byteTagList := added.2 })
      (entry.bytes.tag tag start stop) := by
  refine ⟨entry.value.add tag start stop, Holds.add holds htag hadd, ?_, ?_, ?_, sound.size_lt⟩
  · exact sound.value.add hfits (inInt32_of_nat hstart) (inInt32_of_nat hstop) htag
  · exact sound.carries.tag hfits tag
  · rw [TaggedBytes.tag, List.length_mapIdx]
    exact sound.length_eq

theorem addByteTagRange (sound : entry.Sound) (holds : Holds heap (entry.holder :: rest))
    {tag : Tag} {start stop : Nat} (htag : tag.data.length < 2 ^ 31) (hstart : start < 2 ^ 31)
    (hstop : stop < 2 ^ 31) (hfits : entry.value.AddFits start stop)
    (hadd : entry.packet.addByteTagRange heap tag start stop = some changed) :
    Changes rest changed (entry.bytes.tag tag start stop) := by
  unfold Packet.addByteTagRange at hadd
  split at hadd
  · cases hadd
  · rw [int32_nat hstart, int32_nat hstop] at hadd
    obtain ⟨added, hadded, rfl⟩ := Option.map_eq_some_iff.mp hadd
    exact sound.addRange holds htag hstart hstop hfits hadded

/-- The whole packet is tagged. -/
theorem tag_all (tag : Tag) (bytes : TaggedBytes) :
    (bytes.map fun tags => tags ++ [tag]) = bytes.tag tag 0 bytes.length := by
  refine List.ext_getElem? fun position => ?_
  rw [List.getElem?_map, TaggedBytes.tag, List.getElem?_mapIdx]
  by_cases hposition : position < bytes.length
  · rw [List.getElem?_eq_getElem hposition]
    simp only [Option.map_some, Nat.zero_le, true_and, if_pos hposition]
  · rw [List.getElem?_eq_none (by omega)]
    rfl

theorem addByteTag (sound : entry.Sound) (holds : Holds heap (entry.holder :: rest)) {tag : Tag}
    (htag : tag.data.length < 2 ^ 31) (hfits : entry.value.AddFits 0 entry.packet.size)
    (hadd : entry.packet.addByteTag heap tag = some changed) :
    Changes rest changed (entry.bytes.map fun tags => tags ++ [tag]) := by
  unfold Packet.addByteTag at hadd
  rw [int32_nat sound.size_lt] at hadd
  obtain ⟨added, hadded, rfl⟩ := Option.map_eq_some_iff.mp hadd
  rw [tag_all, sound.length_eq]
  exact sound.addRange holds htag (Nat.two_pow_pos 31) sound.size_lt hfits hadded

theorem addHeader (sound : entry.Sound) (holds : Holds heap (entry.holder :: rest)) {size : Nat}
    (hsize : entry.packet.size + size < 2 ^ 31) (hadjust : entry.value.AdjustFits size)
    (hcut : (entry.value.adjust size).CutFits size)
    (hadd : entry.packet.addHeader heap size = some changed) :
    Changes rest changed (TaggedBytes.untagged size ++ entry.bytes) := by
  unfold Packet.addHeader at hadd
  have hsmall : size < 2 ^ 31 := by omega
  rw [int32_nat hsmall] at hadd
  obtain ⟨cut, hcutted, rfl⟩ := Option.map_eq_some_iff.mp hadd
  have hlength := sound.length_eq
  refine ⟨(entry.value.adjust size).addAtStart size,
    (Holds.adjust holds size).addAtStart sound.value.sized hcutted,
    (sound.value.adjust hadjust).addAtStart (inInt32_of_nat hsmall),
    sound.carries.header sound.value (by omega) hadjust hcut, ?_, hsize⟩
  rw [List.length_append, TaggedBytes.untagged, List.length_replicate, hlength, Nat.add_comm]

theorem removeAtStart (sound : entry.Sound) (holds : Holds heap (entry.holder :: rest))
    {size : Nat} (hsize : size < 2 ^ 31) (hadjust : entry.value.AdjustFits (-size)) :
    Changes rest (heap, entry.packet.removeAtStart size) (entry.bytes.drop size) := by
  have hlt := sound.size_lt
  refine ⟨entry.value.adjust (-size), ?_, sound.value.adjust hadjust, sound.carries.drop hadjust,
    ?_, ?_⟩
  · rw [Packet.removeAtStart, int32_neg hsize]
    exact Holds.adjust holds (-size)
  · rw [List.length_drop, sound.length_eq]
    rfl
  · exact Nat.lt_of_le_of_lt (Nat.sub_le _ _) hlt

theorem addPaddingAtEnd (sound : entry.Sound) (holds : Holds heap (entry.holder :: rest))
    {size : Nat} (hsize : entry.packet.size + size < 2 ^ 31)
    (hcut : entry.value.CutFits entry.packet.size)
    (hadd : entry.packet.addPaddingAtEnd heap size = some changed) :
    Changes rest changed (entry.bytes ++ TaggedBytes.untagged size) := by
  unfold Packet.addPaddingAtEnd at hadd
  rw [int32_nat sound.size_lt] at hadd
  obtain ⟨cut, hcutted, rfl⟩ := Option.map_eq_some_iff.mp hadd
  have hlength := sound.length_eq
  refine ⟨entry.value.addAtEnd entry.packet.size, Holds.addAtEnd holds sound.value.sized hcutted,
    sound.value.addAtEnd (inInt32_of_nat sound.size_lt), ?_, ?_, hsize⟩
  · rw [← hlength] at hcut ⊢
    exact sound.carries.trailer sound.value (by omega) hcut
  · rw [List.length_append, TaggedBytes.untagged, List.length_replicate, hlength]

theorem removeAtEnd (sound : entry.Sound) (holds : Holds heap (entry.holder :: rest))
    (size : Nat) :
    Changes rest (heap, entry.packet.removeAtEnd size)
      (entry.bytes.take (entry.bytes.length - size)) := by
  refine ⟨entry.value, holds, sound.value, sound.carries.take _, ?_,
    Nat.lt_of_le_of_lt (Nat.sub_le _ _) sound.size_lt⟩
  rw [List.length_take, Nat.min_eq_left (Nat.sub_le _ _), sound.length_eq]
  rfl

/-- The fragment holds the block beside the packet. -/
theorem createFragment (sound : entry.Sound) (holds : Holds heap (entry.holder :: rest))
    {start length : Nat} (hstart : start < 2 ^ 31) (hadjust : entry.value.AdjustFits (-start))
    (hcreate : entry.packet.createFragment heap start length = some changed) :
    Changes (entry.holder :: rest) changed ((entry.bytes.drop start).take length) := by
  unfold Packet.createFragment at hcreate
  split at hcreate
  · next hlength =>
      obtain rfl := Option.some.inj hcreate
      have hlt := sound.size_lt
      have hsame := sound.length_eq
      refine ⟨entry.value.adjust (-start), ?_, sound.value.adjust hadjust,
        (sound.carries.drop hadjust).take length, ?_, ?_⟩
      · rw [int32_neg hstart]
        exact (Holds.retain holds).retain.deallocate.adjust (-start)
      · rw [List.length_take, List.length_drop]
        change min length (entry.bytes.length - start) = length
        omega
      · change length < 2 ^ 31
        omega
  · cases hcreate

end Entry.Sound

/-! ## Appending another packet -/

/-- A copy of a list beside all others. -/
theorem Tracks.retain {state : State} {bytes : List (Option TaggedBytes)} {entries : Entries}
    {index : Nat} {entry : Entry} (tracks : Tracks state bytes entries)
    (hget : entries[index]? = some (some entry)) :
    Holds (state.heap.retain entry.packet.byteTagList.data) (entry.holder :: holders entries) :=
  (Holds.retain (tracks.holds_at hget)).perm ((holders_eraseIdx hget).symm.cons _)

theorem Holds.appendTags {heap : TagHeap} {packet : Packet} {copy : ByteTagList}
    {value other : TagRanges} {rest : Holders} {added : TagHeap × ByteTagList}
    (holds : Holds heap ((copy, other) :: (packet.byteTagList, value) :: rest))
    (sound : other.Sound) (hsize : packet.size < 2 ^ 31)
    (hadd : State.appendTags heap packet copy = some added) :
    Holds added.1
      ((added.2, value.addAll ((other.addAtStart 0).adjust packet.size).itemsAll) :: rest) := by
  unfold State.appendTags at hadd
  rw [int32_nat hsize] at hadd
  obtain ⟨cut, hcut, hrest⟩ := Option.bind_eq_some_iff.mp hadd
  obtain ⟨all, hall, rfl⟩ := Option.map_eq_some_iff.mp hrest
  have hholds := holds.addAtStart sound.sized hcut
  have hsized := sound.sized.addAtStart 0
  have hitems := (hholds.adjust packet.size).head.begin_eq 0 offsetMax
  unfold ByteTagList.beginAll at hall
  rw [hitems] at hall
  have hadded := Holds.addAll (hholds.perm (List.Perm.swap _ _ _)) (hsized.iterate _ _ _) hall
  exact Holds.deallocate (hadded.perm (List.Perm.swap _ _ _))

/-- The other packet as the call finds it once the own tags are cut. -/
theorem Tracks.exists_behind {state : State} {bytes : List (Option TaggedBytes)}
    {entries : Entries} {index other : Nat} {entry trimmed : Entry} {heap : TagHeap}
    {from_ : Packet} (tracks : Tracks state bytes entries)
    (hget : entries[index]? = some (some entry))
    (hfrom : (state.set index (heap, trimmed.packet)).packet other = some from_)
    (hsize : trimmed.packet.size = entry.packet.size) (hbytes : trimmed.bytes = entry.bytes)
    (hvalue : trimmed.value = entry.value.addAtEnd entry.packet.size) :
    ∃ found source, (entries.set index (some trimmed))[other]? = some (some found) ∧
      state.packet other = some source ∧ source.size = found.packet.size ∧
      state.valueBehind index other entry.packet source = found.value ∧
      TaggedBytes.at_ bytes other = some found.bytes := by
  by_cases hself : other = index
  · refine ⟨trimmed, entry.packet, ?_, ?_, hsize.symm, ?_, ?_⟩
    · rw [hself]
      exact List.getElem?_set_self (List.getElem?_eq_some_iff.mp hget).1
    · rw [hself, tracks.packet_eq, hget]
      rfl
    · rw [State.valueBehind, if_pos hself, tracks.value_eq hget, hvalue]
    · rw [hself, tracks.at_of_entry hget, hbytes]
  · have hsame : (state.set index (heap, trimmed.packet)).packet other = state.packet other := by
      rw [State.packet, State.set, List.getElem?_set_ne (Ne.symm hself), State.packet]
    obtain ⟨found, hfound, heq, _⟩ := tracks.exists_entry (hsame.symm.trans hfrom)
    refine ⟨found, found.packet, ?_, ?_, rfl, ?_, tracks.at_of_entry hfound⟩
    · rw [List.getElem?_set_ne (Ne.symm hself)]
      exact hfound
    · rw [← hsame, hfrom, heq]
    · rw [State.valueBehind, if_neg hself, tracks.value_eq hfound]

/-- The own bytes with the tags cut behind them. -/
theorem Entry.Sound.trimmed {entry : Entry} (sound : entry.Sound) (list : ByteTagList)
    (hcut : entry.value.CutFits entry.packet.size) :
    Entry.Sound ⟨{ entry.packet with byteTagList := list },
      entry.value.addAtEnd entry.packet.size, entry.bytes⟩ := by
  have hlength := sound.length_eq
  have hlt := sound.size_lt
  refine ⟨sound.value.addAtEnd (inInt32_of_nat hlt), ?_, hlength, hlt⟩
  rw [← hlength] at hcut ⊢
  exact sound.carries.cut sound.value (by omega) hcut

/-- The own bytes with the bytes of the other packet behind them. -/
theorem Entry.Sound.appended {entry found : Entry} (sound : entry.Sound)
    (hcut : entry.value.CutFits entry.packet.size) (foundSound : found.Sound)
    (hsize : entry.packet.size + found.packet.size < 2 ^ 31)
    (hfits : AppendFits (entry.value.addAtEnd entry.packet.size) found.value entry.packet.size)
    (list : ByteTagList) :
    Entry.Sound ⟨⟨entry.packet.size + found.packet.size, list⟩,
      (entry.value.addAtEnd entry.packet.size).addAll
        ((found.value.addAtStart 0).adjust entry.packet.size).itemsAll,
      entry.bytes ++ found.bytes⟩ := by
  have hlength := sound.length_eq
  have hlength' := foundSound.length_eq
  refine ⟨?_, ?_, ?_, hsize⟩
  · exact (sound.value.addAtEnd (inInt32_of_nat sound.size_lt)).addAll hfits.2.2
      (inRange_itemsAll _) ((foundSound.value.sized.addAtStart 0).iterate _ _ _)
  · rw [← hlength] at hcut hfits ⊢
    exact sound.carries.append sound.value hcut foundSound.value foundSound.carries (by omega)
      hfits
  · rw [List.length_append, hlength, hlength']

theorem Tracks.addAtEnd {state next : State} {bytes : List (Option TaggedBytes)}
    {entries : Entries} {index other : Nat} (tracks : Tracks state bytes entries)
    (hsizes : SmallSizes state (.addAtEnd index other))
    (hfits : OffsetsFit state (.addAtEnd index other))
    (hadd : state.addAtEnd index other = some next) :
    ∃ entries', Tracks next (TaggedBytes.follow bytes (.addAtEnd index other)) entries' := by
  obtain ⟨packet, hpacket, hafter⟩ := Option.bind_eq_some_iff.mp hadd
  obtain ⟨cut, hcut, hbehind⟩ := Option.bind_eq_some_iff.mp hafter
  obtain ⟨from_, hfrom, hmap⟩ := Option.bind_eq_some_iff.mp hbehind
  obtain ⟨added, hadded, rfl⟩ := Option.map_eq_some_iff.mp hmap
  obtain ⟨entry, hget, rfl, sound⟩ := tracks.exists_entry hpacket
  obtain ⟨trimmed, htrimmed⟩ : ∃ trimmed : Entry,
      trimmed = ⟨{ entry.packet with byteTagList := cut.2 },
        entry.value.addAtEnd entry.packet.size, entry.bytes⟩ := ⟨_, rfl⟩
  have hpacket' : { entry.packet with byteTagList := cut.2 } = trimmed.packet := by rw [htrimmed]
  have hsize : trimmed.packet.size = entry.packet.size := by rw [htrimmed]
  have hvalue : trimmed.value = entry.value.addAtEnd entry.packet.size := by rw [htrimmed]
  rw [hpacket'] at hfrom hadded
  obtain ⟨found, source, hfound, hsource, hsourceSize, hbehindValue, hat⟩ :=
    tracks.exists_behind hget hfrom hsize (by rw [htrimmed]) hvalue
  have hsmall := hsizes entry.packet hpacket source hsource
  obtain ⟨hcutFits, happendFits⟩ := hfits entry.packet hpacket source hsource
  rw [hbehindValue, tracks.value_eq hget] at happendFits
  rw [tracks.value_eq hget] at hcutFits
  rw [hsourceSize] at hsmall
  rw [int32_nat sound.size_lt] at hcut
  have hholds := Holds.addAtEnd (tracks.holds_at hget) sound.value.sized hcut
  have tracks' : Tracks (state.set index (cut.1, trimmed.packet))
      (bytes.set index (some trimmed.bytes)) (entries.set index (some trimmed)) :=
    tracks.set hget (by rw [htrimmed]; exact hholds)
      (by rw [htrimmed]; exact sound.trimmed cut.2 hcutFits)
  obtain ⟨known, hknown, hsame, foundSound⟩ := tracks'.exists_entry hfrom
  obtain rfl : known = found := Option.some.inj (Option.some.inj (hknown.symm.trans hfound))
  have hset : (entries.set index (some trimmed))[index]? = some (some trimmed) :=
    List.getElem?_set_self (List.getElem?_eq_some_iff.mp hget).1
  have hretained := (tracks'.retain hfound).perm ((holders_eraseIdx hset).cons _)
  rw [List.eraseIdx_set_eq] at hretained
  rw [← hsame] at hadded
  have hfinal := Holds.appendTags hretained foundSound.value (hsize ▸ sound.size_lt) hadded
  rw [hsize, hvalue] at hfinal
  obtain ⟨appended, happended⟩ : ∃ appended : Entry,
      appended = ⟨⟨entry.packet.size + known.packet.size, added.2⟩,
        (entry.value.addAtEnd entry.packet.size).addAll
          ((known.value.addAtStart 0).adjust entry.packet.size).itemsAll,
        entry.bytes ++ known.bytes⟩ := ⟨_, rfl⟩
  refine ⟨entries.set index (some appended), ?_⟩
  have htracks := @Tracks.set state bytes entries index tracks added.1 entry appended hget
    (by rw [happended]; exact hfinal)
    (by rw [happended]; exact sound.appended hcutFits foundSound hsmall happendFits added.2)
  rw [happended] at htracks ⊢
  rw [TaggedBytes.follow, tracks.change_eq hget, hat, Option.getD_some, ← hsame]
  exact htracks

/-! ## Steps and runs -/

/-- An operation on one packet among the others. -/
theorem Tracks.update {state next : State} {bytes : List (Option TaggedBytes)} {entries : Entries}
    {index : Nat} {change : Packet → Option (TagHeap × Packet)}
    {follow : TaggedBytes → TaggedBytes} (tracks : Tracks state bytes entries)
    (hchange : ∀ (entry : Entry) (rest : Holders) (changed : TagHeap × Packet),
      state.packet index = some entry.packet → entry.packet.value state.heap = entry.value → entry.Sound →
      Holds state.heap (entry.holder :: rest) → change entry.packet = some changed →
      Changes rest changed (follow entry.bytes))
    (hupdate : state.update index change = some next) :
    ∃ entries', Tracks next (TaggedBytes.change bytes index follow) entries' := by
  obtain ⟨changed, hbind, rfl⟩ := Option.map_eq_some_iff.mp hupdate
  obtain ⟨packet, hpacket, hchanged⟩ := Option.bind_eq_some_iff.mp hbind
  obtain ⟨entry, hget, rfl, sound⟩ := tracks.exists_entry hpacket
  obtain ⟨value, hholds, hsound⟩ := hchange entry _ changed hpacket (tracks.value_eq hget) sound
    (tracks.holds_at hget) hchanged
  rw [tracks.change_eq hget]
  exact ⟨_, @Tracks.set _ _ _ _ tracks _ entry ⟨changed.2, value, follow entry.bytes⟩ hget hholds
    hsound⟩

theorem Tracks.create {state : State} {bytes : List (Option TaggedBytes)} {entries : Entries}
    (tracks : Tracks state bytes entries) {size : Nat} (hsize : size < 2 ^ 31) :
    ∃ entries', Tracks (state.push (state.heap, Packet.create size))
      (TaggedBytes.follow bytes (.create size)) entries' :=
  ⟨_, tracks.push tracks.holds.fresh (Entry.Sound.create hsize)⟩

theorem Tracks.copy {state next : State} {bytes : List (Option TaggedBytes)} {entries : Entries}
    {index : Nat} (tracks : Tracks state bytes entries)
    (hcopy : apply state (.copy index) = some next) :
    ∃ entries', Tracks next (TaggedBytes.follow bytes (.copy index)) entries' := by
  obtain ⟨packet, hpacket, rfl⟩ := Option.map_eq_some_iff.mp hcopy
  obtain ⟨entry, hget, rfl, sound⟩ := tracks.exists_entry hpacket
  rw [TaggedBytes.follow, tracks.at_of_entry hget]
  exact ⟨_, tracks.push (tracks.retain hget) sound⟩

theorem Tracks.createFragment {state next : State} {bytes : List (Option TaggedBytes)}
    {entries : Entries} {index start length : Nat} (tracks : Tracks state bytes entries)
    (hstart : start < 2 ^ 31) (hfits : OffsetsFit state (.createFragment index start length))
    (hcreate : apply state (.createFragment index start length) = some next) :
    ∃ entries', Tracks next
      (TaggedBytes.follow bytes (.createFragment index start length)) entries' := by
  obtain ⟨created, hbind, rfl⟩ := Option.map_eq_some_iff.mp hcreate
  obtain ⟨packet, hpacket, hcreated⟩ := Option.bind_eq_some_iff.mp hbind
  obtain ⟨entry, hget, rfl, sound⟩ := tracks.exists_entry hpacket
  have hadjust := hfits entry.packet hpacket
  rw [tracks.value_eq hget] at hadjust
  obtain ⟨value, hholds, hsound⟩ := sound.createFragment (tracks.holds_at hget) hstart hadjust
    hcreated
  rw [TaggedBytes.follow, tracks.at_of_entry hget]
  have hall := hholds.perm ((holders_eraseIdx hget).symm.cons _)
  exact ⟨_, @Tracks.push _ _ _ tracks _ ⟨created.2, value, _⟩ hall hsound⟩

theorem Tracks.destroy {state next : State} {bytes : List (Option TaggedBytes)}
    {entries : Entries} {index : Nat} (tracks : Tracks state bytes entries)
    (hdestroy : state.destroy index = some next) :
    ∃ entries', Tracks next (TaggedBytes.follow bytes (.destroy index)) entries' := by
  obtain ⟨packet, hpacket, rfl⟩ := Option.map_eq_some_iff.mp hdestroy
  obtain ⟨entry, hget, rfl, sound⟩ := tracks.exists_entry hpacket
  have hlt := (List.getElem?_eq_some_iff.mp hget).1
  have hnone : (entries.set index none)[index]? = some none := List.getElem?_set_self hlt
  obtain ⟨hlt', hget'⟩ := List.getElem?_eq_some_iff.mp hnone
  have hperm := (List.getElem_cons_eraseIdx_perm hlt').filterMap (Option.map Entry.holder)
  rw [hget', List.eraseIdx_set_eq] at hperm
  refine ⟨entries.set index none, ⟨?_, ?_, ?_, ?_⟩⟩
  · rw [tracks.packets_eq, List.map_set]
    rfl
  · rw [TaggedBytes.follow, tracks.bytes_eq, List.map_set]
    rfl
  · exact (Holds.deallocate (tracks.holds_at hget)).perm hperm
  · intro other hmem
    rcases List.mem_or_eq_of_mem_set hmem with hold | hnew
    · exact tracks.sound other hold
    · cases hnew

theorem Tracks.step {state next : State} {bytes : List (Option TaggedBytes)} {entries : Entries}
    {event : Event} (tracks : Tracks state bytes entries) (hfits : OffsetsFit state event)
    (hstep : step state event = some next) :
    ∃ entries', Tracks next (TaggedBytes.follow bytes event) entries' := by
  unfold Packets.step at hstep
  split at hstep
  case isFalse => cases hstep
  case isTrue hsizes =>
    cases event with
    | create size =>
        obtain rfl := Option.some.inj hstep
        exact tracks.create hsizes
    | copy index => exact tracks.copy hstep
    | createFragment index start length => exact tracks.createFragment hsizes.1 hfits hstep
    | addByteTag index tag =>
        refine tracks.update (fun entry rest changed hpacket hvalue sound holds hadd => ?_) hstep
        exact sound.addByteTag holds hsizes (hvalue ▸ hfits entry.packet hpacket) hadd
    | addByteTagRange index tag start stop =>
        refine tracks.update (fun entry rest changed hpacket hvalue sound holds hadd => ?_) hstep
        obtain ⟨htag, hstart, hstop⟩ := hsizes
        exact sound.addByteTagRange holds htag hstart hstop (hvalue ▸ hfits entry.packet hpacket)
          hadd
    | addHeader index size =>
        refine tracks.update (fun entry rest changed hpacket hvalue sound holds hadd => ?_) hstep
        obtain ⟨hadjust, hcut⟩ := hfits entry.packet hpacket
        rw [hvalue] at hadjust hcut
        exact sound.addHeader holds (hsizes entry.packet hpacket) hadjust hcut hadd
    | removeHeader index deserialized =>
        refine tracks.update (fun entry rest changed hpacket hvalue sound holds hadd => ?_) hstep
        obtain rfl := Option.some.inj hadd
        exact sound.removeAtStart holds hsizes (hvalue ▸ hfits entry.packet hpacket)
    | addTrailer index size =>
        refine tracks.update (fun entry rest changed hpacket hvalue sound holds hadd => ?_) hstep
        exact sound.addPaddingAtEnd holds (hsizes entry.packet hpacket)
          (hvalue ▸ hfits entry.packet hpacket) hadd
    | removeTrailer index deserialized =>
        refine tracks.update (fun entry rest changed hpacket hvalue sound holds hadd => ?_) hstep
        obtain rfl := Option.some.inj hadd
        exact sound.removeAtEnd holds deserialized
    | addAtEnd index other => exact tracks.addAtEnd hsizes hfits hstep
    | addPaddingAtEnd index size =>
        refine tracks.update (fun entry rest changed hpacket hvalue sound holds hadd => ?_) hstep
        exact sound.addPaddingAtEnd holds (hsizes entry.packet hpacket)
          (hvalue ▸ hfits entry.packet hpacket) hadd
    | removeAtStart index size =>
        refine tracks.update (fun entry rest changed hpacket hvalue sound holds hadd => ?_) hstep
        obtain rfl := Option.some.inj hadd
        exact sound.removeAtStart holds hsizes (hvalue ▸ hfits entry.packet hpacket)
    | removeAtEnd index size =>
        refine tracks.update (fun entry rest changed hpacket hvalue sound holds hadd => ?_) hstep
        obtain rfl := Option.some.inj hadd
        exact sound.removeAtEnd holds size
    | destroy index => exact tracks.destroy hstep

theorem Tracks.run {events : List Event} {first last : State} {bytes : List (Option TaggedBytes)}
    {entries : Entries} (tracks : Tracks first bytes entries)
    (hfitting : Fitting Packets.step OffsetsFit first events)
    (hrun : runFrom Packets.step first events = some last) :
    ∃ entries', Tracks last (TaggedBytes.following bytes events) entries' := by
  induction events generalizing first bytes entries with
  | nil =>
      obtain rfl := Option.some.inj hrun
      exact ⟨entries, tracks⟩
  | cons event rest ih =>
      obtain ⟨next, hstep, hrest⟩ := runFrom_cons_inv Packets.step hrun
      obtain ⟨entries', tracks'⟩ := tracks.step hfitting.1 hstep
      exact ih tracks' (hfitting.2 next hstep) hrest

/-- The tags that a packet shows are those that its bytes carry. -/
def Shows (heap : TagHeap) (packet : Packet) (bytes : TaggedBytes) : Prop :=
  bytes.length = packet.size ∧
    ∀ position < packet.size,
      bytes[position]? = some (tagsIn (packet.getByteTagIterator heap) position)

instance (heap : TagHeap) (packet : Packet) (bytes : TaggedBytes) :
    Decidable (Shows heap packet bytes) :=
  inferInstanceAs (Decidable (bytes.length = packet.size ∧ ∀ position < packet.size,
    bytes[position]? = some (tagsIn (packet.getByteTagIterator heap) position)))

/-- In a run whose offsets do not overflow every packet shows the tags of its own bytes. -/
theorem byteTags_follow {events : List Event} {state : State}
    (hfitting : Fitting step OffsetsFit State.empty events)
    (hrun : runFrom step State.empty events = some state) {index : Nat} {packet : Packet}
    (hpacket : state.packet index = some packet) :
    ∃ bytes, TaggedBytes.at_ (TaggedBytes.following [] events) index = some bytes ∧
      Shows state.heap packet bytes := by
  obtain ⟨entries, tracks⟩ := Tracks.empty.run hfitting hrun
  obtain ⟨entry, hget, rfl, sound⟩ := tracks.exists_entry hpacket
  refine ⟨entry.bytes, tracks.at_of_entry hget, sound.length_eq, fun position hposition => ?_⟩
  have hlength := sound.length_eq
  have hsome := List.getElem?_eq_getElem (hlength.symm ▸ hposition : position < entry.bytes.length)
  have hitems := (tracks.holds_at hget).head.begin_eq 0 entry.packet.size
  rw [hsome, Packet.getByteTagIterator, int32_nat sound.size_lt]
  refine congrArg some ?_
  rw [← sound.carries position _ hsome, ← TagRanges.tagsIn_items sound.value
    (Int.natCast_nonneg position) (Int.ofNat_lt.mpr hposition)]
  exact congrArg (tagsIn · position) hitems.symm

/-- A shared list, ranges outside the packet, and packets appended to each other and themselves. -/
def sharedRun : List Event :=
  [.create 4, .addByteTag 0 ⟨7, [1]⟩, .copy 0, .addByteTagRange 1 ⟨8, [2, 3]⟩ 2 20,
    .removeHeader 1 1, .addHeader 1 1, .addTrailer 1 2, .addByteTag 0 ⟨9, []⟩, .addAtEnd 0 1,
    .addAtEnd 0 0, .createFragment 0 3 5, .destroy 1, .removeTrailer 0 5, .addPaddingAtEnd 0 1]

theorem byteTags_follow_shared :
    ∃ state packet, runFrom step State.empty sharedRun = some state ∧
      state.packet 2 = some packet ∧
      ∃ bytes, TaggedBytes.at_ (TaggedBytes.following [] sharedRun) 2 = some bytes ∧
        Shows state.heap packet bytes := by
  have hsome : ((runFrom step State.empty sharedRun).any fun state =>
      (state.packet 2).isSome) = true := by decide +kernel
  obtain ⟨state, hrun, hpacket⟩ := (Option.any_eq_true _ _).mp hsome
  obtain ⟨packet, hpacket⟩ := Option.isSome_iff_exists.mp hpacket
  exact ⟨state, packet, hrun, hpacket, byteTags_follow (by decide +kernel) hrun hpacket⟩

/-- A tagged packet of the largest size loses all bytes but one and gets a header. -/
def lostRun : List Event :=
  [.create (2 ^ 31 - 1), .addByteTag 0 ⟨7, [1]⟩, .removeAtEnd 0 (2 ^ 31 - 2), .addHeader 0 1]

/-- Behind the header is the byte that was left, with its tag. -/
theorem following_left_byte {size lost : Nat} (hleft : size - lost = 1) (tag : Tag) :
    ∃ bytes, TaggedBytes.at_ (TaggedBytes.following []
        [.create size, .addByteTag 0 tag, .removeAtEnd 0 lost, .addHeader 0 1]) 0 = some bytes ∧
      bytes[1]? = some [tag] := by
  have hsize : 0 < size := by omega
  refine ⟨TaggedBytes.untagged 1 ++ ((TaggedBytes.untagged size).map fun tags => tags ++ [tag]).take
    (((TaggedBytes.untagged size).map fun tags => tags ++ [tag]).length - lost), rfl, ?_⟩
  rw [TaggedBytes.untagged, TaggedBytes.untagged, List.length_map, List.length_replicate, hleft,
    List.getElem?_append_right (by rw [List.length_replicate]), List.length_replicate,
    List.getElem?_take_of_lt Nat.one_pos, List.getElem?_map, List.getElem?_replicate,
    if_pos hsize]
  rfl

/-- The adjusted end of the tag overflows, and the byte behind the header shows no tag. -/
theorem byteTags_lost :
    ∃ state packet bytes, runFrom step State.empty lostRun = some state ∧
      state.packet 0 = some packet ∧
      TaggedBytes.at_ (TaggedBytes.following [] lostRun) 0 = some bytes ∧
      ¬ Shows state.heap packet bytes := by
  have hsome : ((runFrom step State.empty lostRun).any fun state =>
      decide ((state.packet 0).any fun packet =>
        decide (packet.size = 2 ∧ packet.getByteTagIterator state.heap = []))) = true := by
    decide +kernel
  obtain ⟨state, hrun, hstate⟩ := (Option.any_eq_true _ _).mp hsome
  obtain ⟨packet, hpacket, hshown⟩ := (Option.any_eq_true _ _).mp (of_decide_eq_true hstate)
  obtain ⟨hsize, hitems⟩ := of_decide_eq_true hshown
  obtain ⟨bytes, hat, htagged⟩ := following_left_byte
    (by decide : 2 ^ 31 - 1 - (2 ^ 31 - 2) = 1) ⟨7, [1]⟩
  refine ⟨state, packet, bytes, hrun, hpacket, hat, fun hshows => ?_⟩
  have hbyte := hshows.2 1 (by omega)
  rw [hitems, tagsIn_nil, htagged] at hbyte
  cases hbyte

end DeepcV2x.Packets
