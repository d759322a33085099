import DeepcV2x.Foundation.Runs
import DeepcV2x.Packets.PacketTagWriters
import Mathlib.Data.List.Perm.Basic

/-!
# Packet tag lists are independent maps

Every list is a map from types to data that keeps the order of insertion, newest
first.  Whatever is called, a list is as its own map, every node counts its
pointers and no node in use is freed, unless a tag is replaced in place by one
of another size.
-/

namespace DeepcV2x.Packets

open Foundation Foundation.Association Foundation.Sharing Foundation.SharedLists PacketTagList

/-! ## Maps -/

/-- The data of types, the first one that was inserted first. -/
abbrev TagMap := Table Nat (List Nat)

/-- The tags of a map, the last one that was inserted first. -/
def tagsOf (map : TagMap) : List Tag := map.reverse.map fun entry => ⟨entry.1, entry.2⟩

/-- What a call does to maps that share nothing; a type is added once. -/
def mapStep (maps : List TagMap) : TagCall → Option (List TagMap × TagAnswer)
  | .create => some (maps ++ [[]], .done)
  | .copy other => do
      let map ← maps[other]?
      some (maps ++ [map], .done)
  | .assign list other => do
      let _ ← maps[list]?
      let map ← maps[other]?
      some (maps.set list map, .done)
  | .removeAll list => do
      let _ ← maps[list]?
      some (maps.set list [], .done)
  | .add list tag => do
      let map ← maps[list]?
      if lookup tag.tid map = none then
        some (maps.set list (upsert tag.tid (fun _ => tag.data) map), .done)
      else none
  | .remove list tid => do
      let map ← maps[list]?
      some (maps.set list (Association.erase tid map), .tag ((lookup tid map).map (⟨tid, ·⟩)))
  | .replace list tag => do
      let map ← maps[list]?
      some (maps.set list (upsert tag.tid (fun _ => tag.data) map),
        .found (lookup tag.tid map).isSome)
  | .peek list tid => do
      let map ← maps[list]?
      some (maps, .tag ((lookup tid map).map (⟨tid, ·⟩)))

/-- Distinct types with tags of less than 2 ^ 32 - 1 bytes. -/
structure Proper (map : TagMap) : Prop where
  nodup : (keys map).Nodup
  small : ∀ entry ∈ map, entry.2.length < 4294967295

section Maps

variable {map : TagMap} {tid : Nat} {data : List Nat}

theorem mem_tagsOf {tag : Tag} : tag ∈ tagsOf map ↔ (tag.tid, tag.data) ∈ map := by
  rw [tagsOf, List.mem_map]
  constructor
  · rintro ⟨entry, hmem, rfl⟩
    exact List.mem_reverse.mp hmem
  · exact fun hmem => ⟨_, List.mem_reverse.mpr hmem, rfl⟩

theorem Proper.small_tag (proper : Proper map) {tag : Tag} (hmem : tag ∈ tagsOf map) : Allocable tag :=
  proper.small _ (mem_tagsOf.mp hmem)

/-- A type that is not in the map. -/
theorem forall_ne_of_lookup (hlookup : lookup tid map = none) :
    ∀ tag ∈ tagsOf map, tag.tid ≠ tid := by
  rintro tag hmem rfl
  have hkey : tag.tid ∈ keys map := List.mem_map.mpr ⟨_, mem_tagsOf.mp hmem, rfl⟩
  rw [← lookup_isSome_iff, hlookup] at hkey
  cases hkey

theorem tagsOf_upsert_none (hlookup : lookup tid map = none) :
    tagsOf (upsert tid (fun _ => data) map) = ⟨tid, data⟩ :: tagsOf map := by
  have hfresh : tid ∉ keys map := by
    rw [← lookup_isSome_iff, hlookup]
    exact Bool.false_ne_true
  rw [upsert_of_not_mem _ hfresh, tagsOf, List.reverse_append]
  rfl

theorem erase_none (hlookup : lookup tid map = none) : Association.erase tid map = map := by
  refine erase_of_not_mem ?_
  rw [← lookup_isSome_iff, hlookup]
  exact Bool.false_ne_true

theorem tagsOf_append_cons (before after : TagMap) (tid : Nat) (data : List Nat) :
    tagsOf (before ++ (tid, data) :: after) = tagsOf after ++ ⟨tid, data⟩ :: tagsOf before := by
  rw [tagsOf, List.reverse_append, List.reverse_cons, List.map_append, List.map_append,
    List.append_assoc]
  rfl

/-- The tag of a type, the newer ones in front of it and the older ones behind it. -/
theorem Proper.exists_split (proper : Proper map) (hlookup : lookup tid map = some data) :
    ∃ front rest, tagsOf map = front ++ ⟨tid, data⟩ :: rest ∧
      (∀ tag ∈ front, Allocable tag ∧ tag.tid ≠ tid) ∧
      (∀ new, tagsOf (upsert tid (fun _ => new) map) = front ++ ⟨tid, new⟩ :: rest) ∧
      tagsOf (Association.erase tid map) = front ++ rest := by
  obtain ⟨before, after, rfl, hbefore, hafter⟩ := exists_split_of_lookup proper.nodup hlookup
  refine ⟨tagsOf after, tagsOf before, tagsOf_append_cons .., fun tag hmem => ⟨?_, ?_⟩,
    fun new => ?_, ?_⟩
  · exact proper.small _ (List.mem_append_right _ (List.mem_cons_of_mem _ (mem_tagsOf.mp hmem)))
  · rintro rfl
    exact hafter (List.mem_map.mpr ⟨_, mem_tagsOf.mp hmem, rfl⟩)
  · rw [upsert_append_cons _ _ hbefore, tagsOf_append_cons]
  · rw [erase_append_cons _ hbefore hafter, tagsOf, List.reverse_append, List.map_append]
    rfl

theorem Proper.find?_tagsOf (proper : Proper map) (tid : Nat) :
    ((tagsOf map).find? fun tag => decide (tag.tid = tid)) = (lookup tid map).map (⟨tid, ·⟩) := by
  cases hlookup : lookup tid map with
  | none => exact find?_eq_none_of_forall_ne (forall_ne_of_lookup hlookup)
  | some data =>
      obtain ⟨front, rest, htags, hfront, -, -⟩ := proper.exists_split hlookup
      rw [htags, List.find?_append,
        find?_eq_none_of_forall_ne fun tag hmem => (hfront tag hmem).2, Option.none_or]
      exact List.find?_cons_of_pos (decide_eq_true rfl)

theorem Proper.upsert (proper : Proper map) (small : data.length < 4294967295) :
    Proper (Association.upsert tid (fun _ => data) map) where
  nodup := keys_upsert_nodup tid _ proper.nodup
  small := by
    intro entry hmem
    rcases List.mem_cons.mp ((upsert_perm_erase tid _ proper.nodup).mem_iff.mp hmem) with
      rfl | hrest
    · exact small
    · exact proper.small entry (List.mem_of_mem_filter hrest)

theorem Proper.erase (proper : Proper map) (tid : Nat) : Proper (Association.erase tid map) where
  nodup := keys_erase_nodup tid proper.nodup
  small := fun entry hmem => proper.small entry (List.mem_of_mem_filter hmem)

end Maps

/-! ## Several lists -/

/-- All lists with their nodes and tags. -/
structure Holding (tree : TagTree) (holders : List Holder) : Prop where
  tracked : Tracked tree (pointers tree (holders.map Holder.head))
  chains : ∀ holder ∈ holders, Chain tree holder.head holder.places holder.tags

namespace Holding

variable {tree tree' : TagTree} {holders : List Holder} {list : Nat} {holder : Holder}
  {first first' : Option Nat} {tags : List Tag}

theorem pointers_perm {holders holders' : List Holder} (hperm : holders.Perm holders') :
    (pointers tree (holders.map Holder.head)).Perm (pointers tree (holders'.map Holder.head)) :=
  ((hperm.map _).filterMap _).append_right _

/-- One of the lists, and the others. -/
theorem family (holding : Holding tree holders) (hlist : holders[list]? = some holder) :
    Family tree holder.head holder.tags (holders.eraseIdx list) := by
  obtain ⟨hlength, rfl⟩ := List.getElem?_eq_some_iff.mp hlist
  refine ⟨holding.tracked.perm (pointers_perm (List.getElem_cons_eraseIdx_perm hlength).symm),
    ⟨_, holding.chains _ (List.getElem_mem hlength)⟩, fun other hother => ?_⟩
  exact holding.chains other (List.mem_of_mem_eraseIdx hother)

/-- The list was changed. -/
theorem of_family (hlength : list < holders.length)
    (family : Family tree first tags (holders.eraseIdx list)) :
    ∃ places, Holding tree (holders.set list ⟨first, places, tags⟩) := by
  obtain ⟨places, chain⟩ := family.chain
  have hperm := List.set_perm_cons_eraseIdx hlength ⟨first, places, tags⟩
  refine ⟨places, family.tracked.perm (pointers_perm hperm.symm), fun other hother => ?_⟩
  rcases List.mem_cons.mp (hperm.mem_iff.mp hother) with rfl | hrest
  · exact chain
  · exact family.chains other hrest

/-- A further pointer at the nodes of a list. -/
theorem merge (holding : Holding tree holders) (hholder : holder ∈ holders) :
    Holding (PacketTagList.merge tree holder.head) (holder :: holders) where
  tracked := by
    have hmem : ∀ place, holder.head = some place →
        place ∈ pointers tree (holders.map Holder.head) := by
      intro place hplace
      refine List.mem_append_left _ (List.mem_filterMap.mpr ⟨holder.head, ?_, hplace⟩)
      exact List.mem_map_of_mem hholder
    have merged := tracked_merge holding.tracked hmem
    rw [List.map_cons, pointers_cons]
    exact merged.perm (((links_merge holding.tracked _).symm.append_left _).append_left _)
  chains := fun other hother => by
    have hchain : Chain tree other.head other.places other.tags := by
      rcases List.mem_cons.mp hother with rfl | hrest
      · exact holding.chains other hholder
      · exact holding.chains other hrest
    exact hchain.frame fun place _ => block_merge ..

theorem perm {holders' : List Holder} (holding : Holding tree holders)
    (hperm : holders.Perm holders') : Holding tree holders' :=
  ⟨holding.tracked.perm (pointers_perm hperm), fun other hother =>
    holding.chains other (hperm.mem_iff.mpr hother)⟩

/-- An empty list has no pointer. -/
theorem cons_none (holding : Holding tree holders) : Holding tree (⟨none, [], []⟩ :: holders) := by
  refine ⟨holding.tracked, fun other hother => ?_⟩
  rcases List.mem_cons.mp hother with rfl | hrest
  · exact .nil none
  · exact holding.chains other hrest

theorem of_cons_none {places : List Nat} (holding : Holding tree (⟨none, places, tags⟩ :: holders)) :
    Holding tree holders :=
  ⟨holding.tracked, fun other hother => holding.chains other (List.mem_cons_of_mem _ hother)⟩

end Holding

/-- The lists have the tags of the maps. -/
def Represents (lists : TagLists) (maps : List TagMap) : Prop :=
  ∃ holders : List Holder, holders.map Holder.head = lists.lists ∧
    holders.map Holder.tags = maps.map tagsOf ∧ Holding lists.tree holders ∧
      ∀ map ∈ maps, Proper map

/-- The contents of the lists are those of the maps. -/
def Agrees (lists : TagLists) (maps : List TagMap) : Prop :=
  lists.lists.length = maps.length ∧ ∀ (list : Nat) (first : Option Nat) (map : TagMap),
    lists.lists[list]? = some first → maps[list]? = some map →
      ∃ places, Chain lists.tree first places (tagsOf map)

/-- A tag has less than 2 ^ 32 - 1 bytes, and is not written over a node of another size. -/
def Fits (lists : TagLists) : TagCall → Prop
  | .add _ tag => Allocable tag
  | .replace list tag => Allocable tag ∧
      ∀ first, lists.lists[list]? = some first → ¬ Misfits lists.tree first tag
  | _ => True

namespace Represents

variable {lists : TagLists} {maps : List TagMap} {list : Nat} {map map' : TagMap}

theorem agrees (represents : Represents lists maps) : Agrees lists maps := by
  obtain ⟨holders, hheads, htags, holding, -⟩ := represents
  refine ⟨?_, fun list first map hfirst hmap => ?_⟩
  · rw [← hheads, List.length_map, ← List.length_map tagsOf, ← htags, List.length_map]
  · rw [← hheads, List.getElem?_map] at hfirst
    obtain ⟨holder, hholder, rfl⟩ := Option.map_eq_some_iff.mp hfirst
    have hsame : (maps.map tagsOf)[list]? = some holder.tags := by
      rw [← htags, List.getElem?_map, hholder]
      rfl
    rw [List.getElem?_map, hmap] at hsame
    rw [show tagsOf map = holder.tags from Option.some.inj hsame]
    exact ⟨_, holding.chains holder (List.mem_of_getElem? hholder)⟩

theorem exists_holder {holders : List Holder} (htags : holders.map Holder.tags = maps.map tagsOf)
    (hmap : maps[list]? = some map) :
    ∃ holder, holders[list]? = some holder ∧ holder.tags = tagsOf map := by
  have htag : (holders.map Holder.tags)[list]? = some (tagsOf map) := by
    rw [htags, List.getElem?_map, hmap]
    rfl
  rw [List.getElem?_map] at htag
  exact Option.map_eq_some_iff.mp htag

/-- A list with the tags of its map, among the others. -/
theorem exists_family (represents : Represents lists maps) (hmap : maps[list]? = some map) :
    ∃ first others, lists.lists[list]? = some first ∧ Proper map ∧
      Family lists.tree first (tagsOf map) others ∧
      ∀ tree' first' map', Proper map' → Family tree' first' (tagsOf map') others →
        Represents (lists.update list (tree', first')) (maps.set list map') := by
  obtain ⟨holders, hheads, htags, holding, hproper⟩ := represents
  obtain ⟨holder, hholder, hholderTags⟩ := exists_holder htags hmap
  have hfamily := holding.family hholder
  rw [hholderTags] at hfamily
  refine ⟨holder.head, holders.eraseIdx list, ?_, hproper map (List.mem_of_getElem? hmap), hfamily,
    fun tree' first' map' hmap' hfamily' => ?_⟩
  · rw [← hheads, List.getElem?_map, hholder]
    rfl
  · obtain ⟨places, hholding⟩ :=
      Holding.of_family (List.getElem?_eq_some_iff.mp hholder).1 hfamily'
    refine ⟨holders.set list ⟨first', places, tagsOf map'⟩, ?_, ?_, hholding, fun other hother => ?_⟩
    · rw [List.map_set, hheads]
      rfl
    · rw [List.map_set, List.map_set, htags]
    · rcases List.mem_or_eq_of_mem_set hother with hmem | rfl
      · exact hproper other hmem
      · exact hmap'

theorem create (represents : Represents lists maps) :
    Represents { lists with lists := lists.lists ++ [none] } (maps ++ [[]]) := by
  obtain ⟨holders, hheads, htags, holding, hproper⟩ := represents
  refine ⟨holders ++ [⟨none, [], []⟩], ?_, ?_, ?_, ?_⟩
  · rw [List.map_append, hheads]
    rfl
  · rw [List.map_append, htags, List.map_append]
    rfl
  · exact holding.cons_none.perm (List.perm_append_singleton _ _).symm
  · intro map hmap
    rcases List.mem_append.mp hmap with hmem | hmem
    · exact hproper map hmem
    · rw [List.mem_singleton.mp hmem]
      exact ⟨List.nodup_nil, nofun⟩

theorem copy (represents : Represents lists maps) (hmap : maps[list]? = some map) :
    ∃ first, lists.lists[list]? = some first ∧ Represents (lists.copyOf first) (maps ++ [map]) := by
  obtain ⟨holders, hheads, htags, holding, hproper⟩ := represents
  obtain ⟨holder, hholder, hholderTags⟩ := exists_holder htags hmap
  refine ⟨holder.head, by rw [← hheads, List.getElem?_map, hholder]; rfl, holders ++ [holder],
    ?_, ?_, ?_, ?_⟩
  · rw [List.map_append, hheads]
    rfl
  · rw [List.map_append, htags, List.map_append, List.map_singleton, hholderTags]
    rfl
  · exact (holding.merge (List.mem_of_getElem? hholder)).perm
      (List.perm_append_singleton _ _).symm
  · intro other hother
    rcases List.mem_append.mp hother with hmem | hmem
    · exact hproper other hmem
    · rw [List.mem_singleton.mp hmem]
      exact hproper map (List.mem_of_getElem? hmap)

/-- The nodes of a list are left for those of another one. -/
theorem assign {other : Nat} (represents : Represents lists maps)
    (hlist : maps[list]? = some map) (hother : maps[other]? = some map') :
    ∃ first target next, lists.lists[list]? = some first ∧ lists.lists[other]? = some target ∧
      lists.assignTo list first target = some next ∧ Represents next (maps.set list map') := by
  obtain ⟨holders, hheads, htags, holding, hproper⟩ := represents
  obtain ⟨holder, hholder, hholderTags⟩ := exists_holder htags hlist
  obtain ⟨source, hsource, hsourceTags⟩ := exists_holder htags hother
  have hmaps : ∀ proper ∈ maps.set list map', Proper proper := by
    intro proper hmem
    rcases List.mem_or_eq_of_mem_set hmem with hmem | rfl
    · exact hproper proper hmem
    · exact hproper _ (List.mem_of_getElem? hother)
  have hfirst : lists.lists[list]? = some holder.head := by
    rw [← hheads, List.getElem?_map, hholder]
    rfl
  have htarget : lists.lists[other]? = some source.head := by
    rw [← hheads, List.getElem?_map, hsource]
    rfl
  by_cases hsame : holder.head = source.head
  · refine ⟨holder.head, source.head, lists, hfirst, htarget, if_pos hsame, holders, hheads, ?_,
      holding, hmaps⟩
    -- lists with one head have the same tags
    have hchain := holding.chains holder (List.mem_of_getElem? hholder)
    rw [hsame] at hchain
    have htag := (Segment.unique hchain (holding.chains source (List.mem_of_getElem? hsource))).2
    rw [hholderTags, hsourceTags] at htag
    have hset : (maps.map tagsOf)[list]? = some (tagsOf map') := by
      rw [List.getElem?_map, hlist, ← htag]
      rfl
    obtain ⟨hlength, hget⟩ := List.getElem?_eq_some_iff.mp hset
    rw [List.map_set, ← hget, List.set_getElem_self, htags]
  · obtain ⟨hlength, -⟩ := List.getElem?_eq_some_iff.mp hholder
    obtain ⟨tree', hremove, hfamily⟩ := (holding.family hholder).removeAll
    obtain ⟨places, hremoved⟩ := Holding.of_family hlength hfamily
    have hne : list ≠ other := by
      rintro rfl
      exact hsame (congrArg Holder.head (Option.some.inj (hholder.symm.trans hsource)))
    have hkept : (holders.set list ⟨none, places, []⟩)[other]? = some source := by
      rw [List.getElem?_set_ne hne, hsource]
    have hmerged := hremoved.merge (List.mem_of_getElem? hkept)
    have hperm := (List.set_perm_cons_eraseIdx hlength ⟨none, places, []⟩).cons source
    have hleft := (hmerged.perm (hperm.trans (List.Perm.swap _ _ _))).of_cons_none
    refine ⟨holder.head, source.head, lists.update list (merge tree' source.head, source.head),
      hfirst, htarget, ?_, holders.set list source, ?_, ?_,
      hleft.perm (List.set_perm_cons_eraseIdx hlength source).symm, hmaps⟩
    · rw [TagLists.assignTo, if_neg hsame, hremove]
      rfl
    · rw [List.map_set, hheads]
      rfl
    · rw [List.map_set, List.map_set, htags, hsourceTags]

/-- A call that fits does to a list what it does to its map. -/
theorem step {call : TagCall} {maps' : List TagMap} {answer : TagAnswer}
    (represents : Represents lists maps) (hcall : mapStep maps call = some (maps', answer))
    (fits : Fits lists call) :
    ∃ lists', lists.step call = some (lists', answer) ∧ Represents lists' maps' := by
  cases call with
  | create =>
      obtain ⟨rfl, rfl⟩ := Prod.mk.inj (Option.some.inj hcall)
      exact ⟨_, rfl, represents.create⟩
  | copy other =>
      obtain ⟨map, hmap, hcall⟩ := Option.bind_eq_some_iff.mp hcall
      obtain ⟨rfl, rfl⟩ := Prod.mk.inj (Option.some.inj hcall)
      obtain ⟨first, hfirst, hnext⟩ := represents.copy hmap
      refine ⟨_, ?_, hnext⟩
      rw [TagLists.step, hfirst]
      rfl
  | assign list other =>
      obtain ⟨map, hmap, hcall⟩ := Option.bind_eq_some_iff.mp hcall
      obtain ⟨source, hsource, hcall⟩ := Option.bind_eq_some_iff.mp hcall
      obtain ⟨rfl, rfl⟩ := Prod.mk.inj (Option.some.inj hcall)
      obtain ⟨first, target, next, hfirst, htarget, hassign, hnext⟩ :=
        represents.assign hmap hsource
      refine ⟨next, ?_, hnext⟩
      show (lists.lists[list]?).bind _ = _
      rw [hfirst, Option.bind_some]
      show (lists.lists[other]?).bind _ = _
      rw [htarget, Option.bind_some, hassign]
      rfl
  | removeAll list =>
      obtain ⟨map, hmap, hcall⟩ := Option.bind_eq_some_iff.mp hcall
      obtain ⟨rfl, rfl⟩ := Prod.mk.inj (Option.some.inj hcall)
      obtain ⟨first, others, hfirst, -, family, hset⟩ := represents.exists_family hmap
      obtain ⟨tree', hremove, hfamily⟩ := family.removeAll
      refine ⟨_, ?_, hset tree' none [] ⟨List.nodup_nil, nofun⟩ hfamily⟩
      rw [TagLists.step, hfirst, Option.bind_eq_bind, Option.bind_some, hremove]
      rfl
  | add list tag =>
      obtain ⟨map, hmap, hcall⟩ := Option.bind_eq_some_iff.mp hcall
      obtain ⟨first, others, hfirst, proper, family, hset⟩ := represents.exists_family hmap
      by_cases hlookup : lookup tag.tid map = none
      · rw [if_pos hlookup] at hcall
        obtain ⟨rfl, rfl⟩ := Prod.mk.inj (Option.some.inj hcall)
        obtain ⟨tree', first', hadd, hfamily⟩ := family.add fits (forall_ne_of_lookup hlookup)
        rw [← tagsOf_upsert_none hlookup] at hfamily
        refine ⟨_, ?_, hset tree' first' _ (proper.upsert fits) hfamily⟩
        rw [TagLists.step, hfirst, Option.bind_eq_bind, Option.bind_some, hadd]
        rfl
      · rw [if_neg hlookup] at hcall
        cases hcall
  | remove list tid =>
      obtain ⟨map, hmap, hcall⟩ := Option.bind_eq_some_iff.mp hcall
      obtain ⟨rfl, rfl⟩ := Prod.mk.inj (Option.some.inj hcall)
      obtain ⟨first, others, hfirst, proper, family, hset⟩ := represents.exists_family hmap
      cases hlookup : lookup tid map with
      | none =>
          have hsame := hset lists.tree first map proper family
          refine ⟨_, ?_, (erase_none hlookup).symm ▸ hsame⟩
          rw [TagLists.step, hfirst, Option.bind_eq_bind, Option.bind_some,
            family.remove_none (forall_ne_of_lookup hlookup)]
          rfl
      | some data =>
          obtain ⟨front, rest, htags, hfront, -, herase⟩ := proper.exists_split hlookup
          rw [htags] at family
          obtain ⟨tree', first', hremove, hfamily⟩ := family.remove hfront rfl
          rw [← herase] at hfamily
          refine ⟨_, ?_, hset tree' first' _ (proper.erase tid) hfamily⟩
          rw [TagLists.step, hfirst, Option.bind_eq_bind, Option.bind_some, hremove]
          rfl
  | replace list tag =>
      obtain ⟨map, hmap, hcall⟩ := Option.bind_eq_some_iff.mp hcall
      obtain ⟨rfl, rfl⟩ := Prod.mk.inj (Option.some.inj hcall)
      obtain ⟨first, others, hfirst, proper, family, hset⟩ := represents.exists_family hmap
      obtain ⟨small, hfits⟩ := fits
      cases hlookup : lookup tag.tid map with
      | none =>
          obtain ⟨tree', first', hreplace, hfamily⟩ :=
            family.replace_none small (forall_ne_of_lookup hlookup)
          rw [← tagsOf_upsert_none hlookup] at hfamily
          refine ⟨_, ?_, hset tree' first' _ (proper.upsert small) hfamily⟩
          rw [TagLists.step, hfirst, Option.bind_eq_bind, Option.bind_some, hreplace]
          rfl
      | some data =>
          obtain ⟨front, rest, htags, hfront, hupsert, -⟩ := proper.exists_split hlookup
          rw [htags] at family
          obtain ⟨tree', first', hreplace, hfamily⟩ :=
            family.replace small hfront rfl (hfits first hfirst)
          rw [← hupsert tag.data] at hfamily
          refine ⟨_, ?_, hset tree' first' _ (proper.upsert small) hfamily⟩
          rw [TagLists.step, hfirst, Option.bind_eq_bind, Option.bind_some, hreplace]
          rfl
  | peek list tid =>
      obtain ⟨map, hmap, hcall⟩ := Option.bind_eq_some_iff.mp hcall
      obtain ⟨rfl, rfl⟩ := Prod.mk.inj (Option.some.inj hcall)
      obtain ⟨first, others, hfirst, proper, family, -⟩ := represents.exists_family hmap
      refine ⟨lists, ?_, represents⟩
      rw [TagLists.step, hfirst, Option.bind_eq_bind, Option.bind_some, peek, family.findTag_eq,
        proper.find?_tagsOf]
      rfl

/-- After a call that does not fit, a list is not as its map. -/
theorem not_agrees_of_misfit {call : TagCall} {maps' : List TagMap} {answer answer' : TagAnswer}
    {lists' : TagLists} (represents : Represents lists maps)
    (hcall : mapStep maps call = some (maps', answer)) (hmisfit : ¬ Fits lists call)
    (hstep : lists.step call = some (lists', answer')) : ¬ Agrees lists' maps' := by
  cases call with
  | create => exact absurd trivial hmisfit
  | copy other => exact absurd trivial hmisfit
  | assign list other => exact absurd trivial hmisfit
  | removeAll list => exact absurd trivial hmisfit
  | add list tag =>
      obtain ⟨map, hmap, -⟩ := Option.bind_eq_some_iff.mp hcall
      obtain ⟨first, others, hfirst, -, family, -⟩ := represents.exists_family hmap
      rw [TagLists.step, hfirst, Option.bind_eq_bind, Option.bind_some,
        family.add_large hmisfit] at hstep
      cases hstep
  | remove list tid => exact absurd trivial hmisfit
  | replace list tag =>
      obtain ⟨map, hmap, hcall⟩ := Option.bind_eq_some_iff.mp hcall
      obtain ⟨rfl, rfl⟩ := Prod.mk.inj (Option.some.inj hcall)
      obtain ⟨first, others, hfirst, proper, family, -⟩ := represents.exists_family hmap
      rw [TagLists.step, hfirst, Option.bind_eq_bind, Option.bind_some] at hstep
      obtain ⟨result, hreplace, hresult⟩ := Option.map_eq_some_iff.mp hstep
      obtain ⟨rfl, -⟩ := Prod.mk.inj hresult
      cases hlookup : lookup tag.tid map with
      | none =>
          have hother := forall_ne_of_lookup hlookup
          by_cases small : Allocable tag
          · refine absurd ⟨small, fun first' hfirst' misfits => ?_⟩ hmisfit
            obtain rfl := Option.some.inj (hfirst.symm.trans hfirst')
            obtain ⟨other, hmem, hsame⟩ := family.exists_of_misfits misfits
            exact hother other hmem hsame
          · rw [family.replace_none_large small hother] at hreplace
            cases hreplace
      | some data =>
          obtain ⟨front, rest, htags, hfront, hupsert, -⟩ := proper.exists_split hlookup
          have hsmall : Allocable ⟨tag.tid, data⟩ := proper.small_tag (by rw [htags]; simp)
          rw [htags] at family
          by_cases small : Allocable tag
          · have misfits : Misfits lists.tree first tag := by
              by_contra hfits
              refine hmisfit ⟨small, fun first' hfirst' => ?_⟩
              rwa [← Option.some.inj (hfirst.symm.trans hfirst')]
            obtain ⟨other, hne, hfamily⟩ := family.replace_misfit hfront rfl misfits hreplace
            rintro ⟨-, hagrees⟩
            obtain ⟨places, chain⟩ := hfamily.chain
            obtain ⟨others', hchain⟩ := hagrees list result.1.2 _
              (List.getElem?_set_self (List.getElem?_eq_some_iff.mp hfirst).1)
              (List.getElem?_set_self (List.getElem?_eq_some_iff.mp hmap).1)
            rw [hupsert] at hchain
            have hvalues := (Segment.unique chain hchain).2
            exact hne (List.cons.inj (List.append_cancel_left hvalues)).1
          · rw [family.replace_large small hfront rfl hsmall] at hreplace
            cases hreplace
  | peek list tid => exact absurd trivial hmisfit

end Represents

/-! ## Runs -/

/-- Every list agrees with its map; every node counts its pointers, and no pointer is left behind. -/
structure Exact (lists : TagLists) (maps : List TagMap) : Prop where
  agrees : Agrees lists maps
  counted : ∀ place cell, lists.tree.cell place = some cell →
    cell.count = (pointers lists.tree lists.lists).count place
  live : ∀ place ∈ pointers lists.tree lists.lists, ∃ cell, lists.tree.cell place = some cell

theorem Represents.exact {lists : TagLists} {maps : List TagMap}
    (represents : Represents lists maps) : Exact lists maps := by
  have hagrees := represents.agrees
  obtain ⟨holders, hheads, -, holding, -⟩ := represents
  have tracked := holding.tracked
  rw [hheads] at tracked
  exact ⟨hagrees, fun _ _ => tracked.count_eq, fun _ => tracked.cell_of_mem⟩

/-- The lists, unless a call did not return, the maps, and whether the answers are those of the maps. -/
structure TagRun where
  lists : Option TagLists := some {}
  maps : List TagMap := []
  right : Bool := true

namespace TagRun

def step (run : TagRun) (call : TagCall) : Option TagRun :=
  (mapStep run.maps call).map fun (maps, answer) =>
    let result := run.lists.bind (·.step call)
    ⟨result.map Prod.fst, maps, run.right && decide (result.map Prod.snd = some answer)⟩

/-- So far every call returned, and the lists are as maps that share nothing. -/
def Independent (run : TagRun) : Prop :=
  ∃ lists, run.lists = some lists ∧ Exact lists run.maps ∧ run.right = true

/-- The call fits the lists that are there. -/
def Fits (run : TagRun) (call : TagCall) : Prop :=
  ∀ lists, run.lists = some lists → Packets.Fits lists call

/-- The lists have the tags of the maps, and answered as they do. -/
def Sound (run : TagRun) : Prop :=
  ∃ lists, run.lists = some lists ∧ Represents lists run.maps ∧ run.right = true

theorem Sound.independent {run : TagRun} : Sound run → Independent run := by
  rintro ⟨lists, hlists, represents, hright⟩
  exact ⟨lists, hlists, represents.exact, hright⟩

theorem sound_start : Sound {} := by
  refine ⟨{}, rfl, ⟨[], rfl, rfl, ⟨Tracked.empty, nofun⟩, nofun⟩, rfl⟩

theorem step_sound (run : TagRun) (call : TagCall) (next : TagRun) (sound : Sound run)
    (hstep : run.step call = some next) :
    (Fits run call ∧ Sound next ∧ Independent next) ∨ (¬ Fits run call ∧ ¬ Independent next) := by
  obtain ⟨lists, hlists, represents, hright⟩ := sound
  obtain ⟨⟨maps', answer⟩, hcall, rfl⟩ := Option.map_eq_some_iff.mp hstep
  by_cases hfits : Packets.Fits lists call
  · obtain ⟨lists', hcalled, hnext⟩ := represents.step hcall hfits
    have hsound : Sound ⟨(run.lists.bind (·.step call)).map Prod.fst, maps',
        run.right && decide ((run.lists.bind (·.step call)).map Prod.snd = some answer)⟩ := by
      rw [hlists, Option.bind_some, hcalled, hright]
      exact ⟨lists', rfl, hnext, (Bool.true_and _).trans (decide_eq_true rfl)⟩
    refine .inl ⟨fun other hother => ?_, hsound, hsound.independent⟩
    obtain rfl := Option.some.inj (hlists.symm.trans hother)
    exact hfits
  · refine .inr ⟨fun hall => hfits (hall lists hlists), ?_⟩
    rintro ⟨lists', hnext, exact', -⟩
    change (run.lists.bind (·.step call)).map Prod.fst = some lists' at hnext
    rw [hlists, Option.bind_some] at hnext
    obtain ⟨⟨other, answer'⟩, hcalled, rfl⟩ := Option.map_eq_some_iff.mp hnext
    exact represents.not_agrees_of_misfit hcall hfits hcalled exact'.agrees

/-- Lists are independent maps in every state of a run exactly when every tag fits. -/
theorem independent_iff_fitting {calls : List TagCall} {last : TagRun}
    (hrun : Runs.runFrom step {} calls = some last) :
    (∀ before state, before <+: calls → Runs.runFrom step {} before = some state →
        Independent state) ↔
      Runs.Fitting step Fits {} calls :=
  Runs.forall_reached_iff_fitting step Sound Independent step_sound sound_start
    sound_start.independent hrun

theorem independent_iff_fitting_copied : ∃ last,
    Runs.runFrom step {} [.create, .add 0 ⟨1, [5]⟩, .copy 0, .replace 1 ⟨1, [7, 8]⟩, .peek 0 1] =
        some last ∧
      ((∀ before state, before <+: [.create, .add 0 ⟨1, [5]⟩, .copy 0, .replace 1 ⟨1, [7, 8]⟩,
          .peek 0 1] → Runs.runFrom step {} before = some state → Independent state) ↔
        Runs.Fitting step Fits {} [.create, .add 0 ⟨1, [5]⟩, .copy 0, .replace 1 ⟨1, [7, 8]⟩,
          .peek 0 1]) :=
  ⟨_, rfl, independent_iff_fitting rfl⟩

/-- A tag that grows ends the run. -/
theorem not_independent_larger : ∃ state,
    Runs.runFrom step {} [.create, .add 0 ⟨1, [5]⟩, .replace 0 ⟨1, [7, 8]⟩] = some state ∧
      ¬ Independent state := by
  refine ⟨_, rfl, ?_⟩
  rintro ⟨lists, hlists, -⟩
  cases hlists

-- a tag that shrinks leaves the end of the old one behind it
example : (Runs.runFrom (fun lists call => (TagLists.step lists call).map Prod.fst) {}
    [.create, .add 0 ⟨1, [5, 6]⟩, .replace 0 ⟨1, [7]⟩]).bind
      (fun lists => (lists.step (.peek 0 1)).map Prod.snd) = some (.tag (some ⟨1, [7, 6]⟩)) := by
  decide

end TagRun

end DeepcV2x.Packets
