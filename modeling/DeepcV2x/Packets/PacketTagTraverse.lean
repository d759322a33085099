import DeepcV2x.Packets.PacketTagList

/-!
# Copying the shared part of a tag list

A traversal walks over the nodes that belong to its list alone.  From the first
merge on it copies them, so that the nodes in front of the cursor stay apart
from the other lists while the merge moves down to the type that is looked for.
-/

namespace DeepcV2x.Packets

open Foundation.Sharing Foundation.SharedLists

/-- Another list: its first node, its nodes and its tags. -/
structure Holder where
  head : Option Nat
  places : List Nat
  tags : List Tag

namespace PacketTagList

/-- A list with some tags, and the others. -/
structure Family (tree : TagTree) (first : Option Nat) (tags : List Tag) (others : List Holder) :
    Prop where
  tracked : Tracked tree (pointers tree (first :: others.map Holder.head))
  chain : ∃ places, Chain tree first places tags
  chains : ∀ other ∈ others, Chain tree other.head other.places other.tags

/-- The cursor is at a node; the nodes in front of it belong to the list alone. -/
structure Reached (tree : TagTree) (first : Option Nat) (others : List Holder) (before : List Nat)
    (tagsBefore : List Tag) (prevNext : Option Nat) (cur count : Nat) (next : Option Nat)
    (tag : Tag) (after : List Nat) (tagsAfter : List Tag) : Prop where
  tracked : Tracked tree (pointers tree (first :: others.map Holder.head))
  leads : Leads tree first before tagsBefore prevNext (some cur)
  cell : tree.cell cur = some ⟨count, ⟨next, tag⟩⟩
  rest : Chain tree next after tagsAfter
  nodup : (before ++ cur :: after).Nodup
  chains : ∀ other ∈ others, Chain tree other.head other.places other.tags
  apart : ∀ other ∈ others, ∀ place ∈ before, place ∉ other.places

/-! ## Looking for a type -/

theorem findTag_eq {tree : TagTree} {tid : Nat} {places : List Nat} {tags : List Tag} :
    ∀ {fuel : Nat} {cur : Option Nat}, places.length < fuel → Chain tree cur places tags →
      findTag tree tid fuel cur = some (tags.find? fun tag => decide (tag.tid = tid)) := by
  induction places generalizing tags with
  | nil =>
      intro fuel cur hfuel chain
      obtain ⟨fuel, rfl⟩ : ∃ left, fuel = left + 1 := ⟨fuel - 1, by omega⟩
      cases chain
      rw [findTag, List.find?_nil]
  | cons place places ih =>
      intro fuel cur hfuel chain
      obtain ⟨fuel, rfl⟩ : ∃ left, fuel = left + 1 := ⟨fuel - 1, by omega⟩
      cases chain with
      | @cons _ next tag _ tags _ hblock tail =>
          rw [findTag, hblock, Option.bind_eq_bind, Option.bind_some]
          split
          next hsame => rw [List.find?_cons_of_pos (by simpa using hsame)]
          next hother =>
            rw [List.find?_cons_of_neg (by simpa using hother)]
            exact ih (Nat.lt_of_succ_lt_succ hfuel) tail

theorem lt_steps {tree : TagTree} {first : Option Nat} {places : List Nat} {tags : List Tag}
    (chain : Chain tree first places tags) : places.length < steps tree :=
  Nat.lt_succ_of_le chain.length_le

/-- Nothing is found: the nodes up to a merge have other types. -/
theorem search_eq {tree : TagTree} {tid : Nat} {places : List Nat} {tags : List Tag} :
    ∀ {fuel : Nat} {prevNext cur : Option Nat}, places.length < fuel →
      Chain tree cur places tags →
      ∃ before after tagsBefore tagsAfter stop,
        search tree tid fuel prevNext cur = some (before.getLast?.or prevNext, stop) ∧
          places = before ++ after ∧ tags = tagsBefore ++ tagsAfter ∧
            Segment tree cur before tagsBefore stop ∧ Chain tree stop after tagsAfter ∧
              (∀ place ∈ before, ∃ cell, tree.cell place = some cell ∧ ¬ 1 < cell.count) ∧
                (∀ tag ∈ tagsBefore, tag.tid ≠ tid) ∧
                  ∀ place, stop = some place → ∃ cell, tree.cell place = some cell ∧
                    (1 < cell.count ∨ cell.block.value.tid = tid) := by
  induction places generalizing tags with
  | nil =>
      intro fuel prevNext cur hfuel chain
      obtain ⟨fuel, rfl⟩ : ∃ left, fuel = left + 1 := ⟨fuel - 1, by omega⟩
      cases chain
      exact ⟨[], [], [], [], none, rfl, rfl, rfl, .nil _, .nil _, nofun, nofun, nofun⟩
  | cons place places ih =>
      intro fuel prevNext cur hfuel chain
      obtain ⟨fuel, rfl⟩ : ∃ left, fuel = left + 1 := ⟨fuel - 1, by omega⟩
      have hwhole := chain
      cases chain with
      | @cons _ next tag _ tags _ hblock tail =>
          obtain ⟨count, hcell⟩ := cell_of_block hblock
          rw [search, hcell, Option.bind_eq_bind, Option.bind_some]
          by_cases hmerge : count > 1
          · rw [if_pos hmerge]
            refine ⟨[], place :: places, [], tag :: tags, some place, rfl, rfl, rfl, .nil _, hwhole,
              nofun, nofun, ?_⟩
            rintro _ ⟨⟩
            exact ⟨_, hcell, .inl hmerge⟩
          · rw [if_neg hmerge]
            by_cases hsame : tag.tid = tid
            · rw [if_pos hsame]
              refine ⟨[], place :: places, [], tag :: tags, some place, rfl, rfl, rfl, .nil _,
                hwhole, nofun, nofun, ?_⟩
              rintro _ ⟨⟩
              exact ⟨_, hcell, .inr hsame⟩
            · rw [if_neg hsame]
              obtain ⟨before, after, tagsBefore, tagsAfter, stop, hsearch, rfl, rfl, segment,
                hrest, hone, hothers, hstop⟩ := ih (Nat.lt_of_succ_lt_succ hfuel) tail
              refine ⟨place :: before, after, tag :: tagsBefore, tagsAfter, stop, ?_, rfl, rfl,
                .cons hblock segment, hrest, ?_, ?_, hstop⟩
              · rw [hsearch]
                cases before with
                | nil => rfl
                | cons head before =>
                    rw [List.getLast?_cons_cons, List.getLast?_cons]
                    rfl
              · exact List.forall_mem_cons.mpr ⟨⟨_, hcell, hmerge⟩, hone⟩
              · exact List.forall_mem_cons.mpr ⟨hsame, hothers⟩

/-- The search from the head of a list. -/
theorem search_start (tid : Nat) {tree : TagTree} {first : Option Nat} {places : List Nat}
    {tags : List Tag} (chain : Chain tree first places tags) :
    ∃ before after tagsBefore tagsAfter stop,
      search tree tid (steps tree) none first = some (before.getLast?, stop) ∧
        places = before ++ after ∧ tags = tagsBefore ++ tagsAfter ∧
          Segment tree first before tagsBefore stop ∧ Chain tree stop after tagsAfter ∧
            (∀ place ∈ before, ∃ cell, tree.cell place = some cell ∧ ¬ 1 < cell.count) ∧
              (∀ tag ∈ tagsBefore, tag.tid ≠ tid) ∧
                ∀ place, stop = some place → ∃ cell, tree.cell place = some cell ∧
                  (1 < cell.count ∨ cell.block.value.tid = tid) := by
  obtain ⟨before, after, tagsBefore, tagsAfter, stop, hsearch, hrest⟩ :=
    @search_eq tree tid places tags (steps tree) none first (lt_steps chain) chain
  rw [Option.or_none] at hsearch
  exact ⟨before, after, tagsBefore, tagsAfter, stop, hsearch, hrest⟩

/-! ## Merging -/

theorem block_merge (tree : TagTree) (next : Option Nat) (place : Nat) :
    (merge tree next).block place = tree.block place := by
  cases next with
  | none => rfl
  | some next => exact Arena.block_retain tree next place

theorem links_merge {tree : TagTree} {held : List Nat} (tracked : Tracked tree held)
    (next : Option Nat) : (links (merge tree next)).Perm (links tree) := by
  cases next with
  | none => exact List.Perm.refl _
  | some next => exact links_retain next tracked.nodup

theorem tracked_merge {tree : TagTree} {held : List Nat} (tracked : Tracked tree held)
    {next : Option Nat} (hnext : ∀ place, next = some place → place ∈ held) :
    Tracked (merge tree next) (next.toList ++ held) := by
  cases next with
  | none => exact tracked
  | some next => exact tracked.retain (hnext next rfl)

theorem cell_merge_self {tree : TagTree} {place : Nat} {cell : Cell TagData}
    (hcell : tree.cell place = some cell) :
    (merge tree (some place)).cell place = some { cell with count := cell.count + 1 } := by
  rw [merge, Arena.retain, hcell]
  exact (Arena.cell_put ..).trans (if_pos rfl)

namespace Reached

variable {tree : TagTree} {first : Option Nat} {others : List Holder} {before : List Nat}
  {tagsBefore : List Tag} {prevNext : Option Nat} {cur count : Nat} {next : Option Nat} {tag : Tag}
  {after : List Nat} {tagsAfter : List Tag}

theorem block (reached : Reached tree first others before tagsBefore prevNext cur count next tag
    after tagsAfter) : tree.block cur = some ⟨next, tag⟩ := by
  rw [Arena.block, reached.cell]
  rfl

/-- The pointer at the cursor is in front of it. -/
theorem prevNext_ne (reached : Reached tree first others before tagsBefore prevNext cur count next
    tag after tagsAfter) {place : Nat} (hplace : place ∉ before) : prevNext ≠ some place := by
  intro hsame
  rw [reached.leads.last] at hsame
  exact hplace (List.mem_of_getLast? hsame)

theorem cur_not_mem (reached : Reached tree first others before tagsBefore prevNext cur count next
    tag after tagsAfter) : cur ∉ before := fun hmem =>
  List.disjoint_of_nodup_append reached.nodup hmem List.mem_cons_self

theorem after_not_mem (reached : Reached tree first others before tagsBefore prevNext cur count
    next tag after tagsAfter) {place : Nat} (hplace : place ∈ after) : place ∉ before := fun hmem =>
  List.disjoint_of_nodup_append reached.nodup hmem (List.mem_cons_of_mem _ hplace)

theorem ne_cur (reached : Reached tree first others before tagsBefore prevNext cur count next
    tag after tagsAfter) {place : Nat} (hplace : place ∈ after) : place ≠ cur := fun hsame =>
  (List.nodup_cons.mp (List.nodup_append.mp reached.nodup).2.1).1 (hsame ▸ hplace)

/-- The node behind the cursor is another one. -/
theorem next_mem (reached : Reached tree first others before tagsBefore prevNext cur count next
    tag after tagsAfter) {place : Nat} (hnext : next = some place) : place ∈ after := by
  subst hnext
  cases reached.rest with
  | cons hblock tail => exact List.mem_cons_self

/-- The pointers besides one at the cursor. -/
theorem exists_pointers (reached : Reached tree first others before tagsBefore prevNext cur count
    next tag after tagsAfter) :
    ∃ held, (pointers tree (first :: others.map Holder.head)).Perm (cur :: held) ∧
      held.count cur + 1 = count ∧ ∀ place, next = some place → place ∈ held := by
  have hmem := reached.tracked.live cur _ reached.cell
  have hperm := List.perm_cons_erase hmem
  refine ⟨_, hperm, ?_, fun place hnext => ?_⟩
  · have hcount := reached.tracked.count_eq reached.cell
    rw [hperm.count_eq, List.count_cons_self] at hcount
    exact hcount.symm
  · have hne := reached.ne_cur (reached.next_mem hnext)
    refine (List.mem_erase_of_ne hne).mpr (List.mem_append_right _ ?_)
    subst hnext
    exact mem_links reached.tracked.nodup reached.block

/-- One pointer less at the cursor. -/
theorem exists_unmerged (reached : Reached tree first others before tagsBefore prevNext cur count
    next tag after tagsAfter) (hmerge : 1 < count) :
    ∃ held, (pointers tree (first :: others.map Holder.head)).Perm (cur :: held) ∧
      Tracked (unmerge tree cur) held ∧ ∀ place, next = some place → place ∈ held := by
  obtain ⟨held, hperm, hcount, hnext⟩ := reached.exists_pointers
  have hcur : cur ∈ held := List.count_pos_iff.mp (by omega)
  exact ⟨held, hperm, (reached.tracked.perm hperm).unmerge hcur, hnext⟩

section Link

variable {value : Tag} {made : Nat × TagTree} {list : TagTree × Option Nat}

/-- A place that is in use is not the new one. -/
theorem ne_made (reached : Reached tree first others before tagsBefore prevNext cur count next tag
    after tagsAfter) (hmerge : 1 < count)
    (hmade : create (unmerge tree cur) ⟨next, value⟩ = made) {place : Nat} {node : TagData}
    (hblock : tree.block place = some node) : place ≠ made.1 := by
  rintro rfl
  obtain ⟨held, -, tracked, -⟩ := reached.exists_unmerged hmerge
  have hfresh := tracked.cell_create_fst ⟨next, value⟩
  rw [hmade] at hfresh
  rw [← block_unmerge tree cur, Arena.block, hfresh] at hblock
  cases hblock

theorem block_linked (reached : Reached tree first others before tagsBefore prevNext cur count next
    tag after tagsAfter) (hmerge : 1 < count)
    (hmade : create (unmerge tree cur) ⟨next, value⟩ = made) {place : Nat}
    (hne : place ≠ made.1) : (merge made.2 next).block place = tree.block place := by
  obtain ⟨held, -, tracked, -⟩ := reached.exists_unmerged hmerge
  subst hmade
  rw [block_merge, tracked.block_create _ hne, block_unmerge]

/-- The pointer at the cursor, with the copy in the tree. -/
theorem leads_linked (reached : Reached tree first others before tagsBefore prevNext cur count next
    tag after tagsAfter) (hmerge : 1 < count)
    (hmade : create (unmerge tree cur) ⟨next, value⟩ = made) :
    Leads (merge made.2 next) first before tagsBefore prevNext (some cur) := by
  refine ⟨reached.leads.segment.frame fun place hplace => ?_, reached.leads.last,
    reached.leads.nodup⟩
  obtain ⟨node, hblock⟩ := reached.leads.segment.live hplace
  exact reached.block_linked hmerge hmade (reached.ne_made hmerge hmade hblock)

theorem tracked_linked (reached : Reached tree first others before tagsBefore prevNext cur count
    next tag after tagsAfter) (hmerge : 1 < count)
    (hmade : create (unmerge tree cur) ⟨next, value⟩ = made)
    (hlist : assign (merge made.2 next) first prevNext (some made.1) = list) :
    Tracked list.1 (pointers list.1 (list.2 :: others.map Holder.head)) := by
  obtain ⟨held, hperm, tracked, hnext⟩ := reached.exists_unmerged hmerge
  have leads := reached.leads_linked hmerge hmade
  have hmadeTracked := tracked.create ⟨next, value⟩
  have hlinks := tracked.links_create ⟨next, value⟩
  rw [hmade] at hmadeTracked hlinks
  have merged := tracked_merge hmadeTracked (fun place hplace =>
    List.mem_cons_of_mem made.1 (hnext place hplace) : ∀ place, next = some place → _)
  have hpointers := leads.pointers_assign (some made.1) merged (others.map Holder.head)
  have hmerged := (links_merge hmadeTracked next).trans
    (hlinks.trans ((links_unmerge cur reached.tracked.nodup).append_left _))
  rw [hlist] at hpointers
  have assigned : Tracked list.1 (next.toList ++ made.1 :: held) := hlist ▸ merged.assign _
  refine assigned.perm (List.perm_iff_count.mpr fun place => ?_)
  have hfirst := hpointers.count_eq place
  have hsecond := hmerged.count_eq place
  have hthird := hperm.count_eq place
  simp only [pointers, Option.toList_some, List.count_append, List.count_cons, List.count_nil]
    at hfirst hsecond hthird ⊢
  omega

/-- The cursor's node is exchanged for a copy with some tag, and the merge moves on. -/
theorem link (reached : Reached tree first others before tagsBefore prevNext cur count next tag
    after tagsAfter) (hmerge : 1 < count)
    (hmade : create (unmerge tree cur) ⟨next, value⟩ = made)
    (hlist : assign (merge made.2 next) first prevNext (some made.1) = list) :
    Leads list.1 list.2 (before ++ [made.1]) (tagsBefore ++ [value]) (some made.1) next ∧
      Chain list.1 next after tagsAfter ∧ (before ++ [made.1] ++ after).Nodup ∧
      (∀ other ∈ others, Chain list.1 other.head other.places other.tags ∧
        ∀ place ∈ before ++ [made.1], place ∉ other.places) ∧
      ∀ place, next = some place → ∃ cell, tree.cell place = some cell ∧
        list.1.cell place = some { cell with count := cell.count + 1 } := by
  obtain ⟨held, hperm, tracked, hnext⟩ := reached.exists_unmerged hmerge
  have hlive : ∀ {start stop : Option Nat} {places : List Nat} {tags : List Tag},
      Segment tree start places tags stop → ∀ place ∈ places, place ≠ made.1 := by
    intro start stop places tags segment place hplace
    obtain ⟨node, hblock⟩ := segment.live hplace
    exact reached.ne_made hmerge hmade hblock
  have hkept : ∀ place, place ≠ made.1 → place ∉ before → list.1.block place = tree.block place := by
    intro place hne hbefore
    rw [← hlist, block_assign_of_ne _ (reached.prevNext_ne hbefore)]
    exact reached.block_linked hmerge hmade hne
  have hmadeBefore : made.1 ∉ before := fun hmem => hlive reached.leads.segment _ hmem rfl
  have hblock : list.1.block made.1 = some ⟨next, value⟩ := by
    rw [← hlist, block_assign_of_ne _ (reached.prevNext_ne hmadeBefore), block_merge, Arena.block,
      ← hmade, tracked.cell_create, if_pos rfl]
    rfl
  have hleads := (reached.leads_linked hmerge hmade).assign (some made.1)
  rw [hlist] at hleads
  refine ⟨⟨hleads.segment.concat hblock, (List.getLast?_concat ..).symm, ?_⟩, ?_, ?_, ?_, ?_⟩
  · exact List.nodup_append_comm.mp (List.nodup_cons.mpr ⟨hmadeBefore, hleads.nodup⟩)
  · exact reached.rest.frame fun place hplace =>
      hkept place (hlive reached.rest place hplace) (reached.after_not_mem hplace)
  · rw [List.append_assoc]
    refine List.perm_middle.nodup_iff.mpr (List.nodup_cons.mpr ⟨fun hmem => ?_, ?_⟩)
    · rcases List.mem_append.mp hmem with hmem | hmem
      · exact hmadeBefore hmem
      · exact hlive reached.rest _ hmem rfl
    · exact reached.nodup.sublist ((List.sublist_cons_self cur after).append_left before)
  · intro other hother
    have hapart := reached.apart other hother
    have hchain := reached.chains other hother
    refine ⟨hchain.frame fun place hplace => ?_, fun place hplace => ?_⟩
    · exact hkept place (hlive hchain place hplace) fun hmem => hapart place hmem hplace
    · rcases List.mem_append.mp hplace with hmem | hmem
      · exact hapart place hmem
      · rw [List.mem_singleton.mp hmem]
        exact fun hplaces => hlive hchain _ hplaces rfl
  · rintro place rfl
    have hafter := reached.next_mem rfl
    obtain ⟨node, hnode⟩ := reached.rest.live hafter
    obtain ⟨number, hcell⟩ := cell_of_block hnode
    refine ⟨_, hcell, ?_⟩
    rw [← hlist, cell_assign_of_ne _ (reached.prevNext_ne (reached.after_not_mem hafter))]
    refine cell_merge_self ?_
    rw [← hmade, tracked.cell_create,
      if_neg (by rw [hmade]; exact hlive reached.rest place hafter),
      cell_unmerge_of_ne tree (reached.ne_cur hafter), hcell]

end Link

end Reached

/-- A tag whose size `CreateTagData` allows. -/
def Allocable (tag : Tag) : Prop := tag.data.length < 4294967295

theorem createTagData_eq (tree : TagTree) (next : Option Nat) {tag : Tag} (small : Allocable tag) :
    createTagData tree next tag = some (create tree ⟨next, tag⟩) := if_pos small

theorem createTagData_large (tree : TagTree) (next : Option Nat) {tag : Tag} (large : ¬ Allocable tag) :
    createTagData tree next tag = none := if_neg large

/-- From a merge on the nodes are copied up to one with the type. -/
theorem exists_copyUntil {tid : Nat} {others : List Holder} {found : Tag} (hfound : found.tid = tid)
    {rest middle : List Tag} : ∀ {fuel : Nat} {tree : TagTree} {first : Option Nat}
      {before : List Nat} {tagsBefore : List Tag} {prevNext : Option Nat} {cur count : Nat}
      {next : Option Nat} {tag : Tag} {after : List Nat} {tagsAfter : List Tag},
      middle.length < fuel →
      Reached tree first others before tagsBefore prevNext cur count next tag after tagsAfter →
      1 < count → tag :: tagsAfter = middle ++ found :: rest →
      (∀ tag ∈ middle, Allocable tag ∧ tag.tid ≠ tid) →
      ∃ tree' first' before' prevNext' cur' count' next' after',
        copyUntil tid fuel (tree, first) prevNext cur = some ((tree', first'), prevNext', cur') ∧
          Reached tree' first' others before' (tagsBefore ++ middle) prevNext' cur' count' next'
            found after' rest ∧ 1 < count' := by
  induction middle with
  | nil =>
      intro fuel tree first before tagsBefore prevNext cur count next tag after tagsAfter hfuel
        reached hmerge htags hmiddle
      obtain ⟨fuel, rfl⟩ : ∃ left, fuel = left + 1 := ⟨fuel - 1, by omega⟩
      obtain ⟨rfl, rfl⟩ := List.cons.inj htags
      refine ⟨tree, first, before, prevNext, cur, count, next, after, ?_, ?_, hmerge⟩
      · rw [copyUntil, reached.cell, Option.bind_eq_bind, Option.bind_some, if_pos hfound]
      · rw [List.append_nil]
        exact reached
  | cons copied middle ih =>
      intro fuel tree first before tagsBefore prevNext cur count next tag after tagsAfter hfuel
        reached hmerge htags hmiddle
      obtain ⟨fuel, rfl⟩ : ∃ left, fuel = left + 1 := ⟨fuel - 1, by omega⟩
      obtain ⟨rfl, htail⟩ := List.cons.inj htags
      obtain ⟨⟨small, hother⟩, hmiddle⟩ := List.forall_mem_cons.mp hmiddle
      obtain ⟨place, rfl⟩ : ∃ place, next = some place := by
        cases reached.rest with
        | nil => exact absurd htail (by simp)
        | cons hblock tail => exact ⟨_, rfl⟩
      obtain ⟨made, hmade⟩ : ∃ made, create (unmerge tree cur) ⟨some place, tag⟩ = made := ⟨_, rfl⟩
      obtain ⟨list, hlist⟩ :
        ∃ list, assign (merge made.2 (some place)) first prevNext (some made.1) = list := ⟨_, rfl⟩
      obtain ⟨hleads, hchain, hnodup, hothers, hnext⟩ := reached.link hmerge hmade hlist
      obtain ⟨cell, hcell, hcount⟩ := hnext place rfl
      have hpositive := reached.tracked.count_pos hcell
      have htracked := reached.tracked_linked hmerge hmade hlist
      cases hchain with
      | @cons _ next' tag' after' values' _ hblock tail =>
          have hnode : cell.block = ⟨next', tag'⟩ := by
            rw [Arena.block, hcount] at hblock
            exact Option.some.inj hblock
          have hreached : Reached list.1 list.2 others (before ++ [made.1]) (tagsBefore ++ [tag])
              (some made.1) place (cell.count + 1) next' tag' after' values' :=
            ⟨htracked, hleads, by rw [hcount, hnode], tail, hnodup,
              fun other hmem => (hothers other hmem).1, fun other hmem => (hothers other hmem).2⟩
          obtain ⟨tree', first', before', prevNext', cur', count', next'', after'', hcopy, hlast,
            hshared⟩ := ih (Nat.lt_of_succ_lt_succ hfuel) hreached (by omega) htail hmiddle
          refine ⟨tree', first', before', prevNext', cur', count', next'', after'', ?_, ?_, hshared⟩
          · rw [copyUntil, reached.cell, Option.bind_eq_bind, Option.bind_some, if_neg hother,
              if_pos hmerge]
            show (createTagData (unmerge tree cur) (some place) tag).bind _ = _
            rw [createTagData_eq _ _ small, hmade, Option.bind_some]
            show copyUntil tid fuel (assign (merge made.2 (some place)) first prevNext
              (some made.1)) (some made.1) place = _
            rw [hlist]
            exact hcopy
          · rw [List.append_assoc] at hlast
            exact hlast

/-! ## Traversals -/

section Traversal

variable {tree : TagTree} {first : Option Nat} {others : List Holder} {tid : Nat} {writer : COWWriter}

/-- A type that is not there. -/
theorem cowTraverse_of_forall_ne {tags : List Tag} (family : Family tree first tags others)
    (hother : ∀ tag ∈ tags, tag.tid ≠ tid) :
    cowTraverse tid writer tree first = some ((tree, first), none) := by
  obtain ⟨places, chain⟩ := family.chain
  rw [cowTraverse]
  split
  next => rfl
  next =>
    obtain ⟨before, after, tagsBefore, tagsAfter, stop, hsearch, rfl, rfl, segment, hrest, hone,
      hothers, hstop⟩ := search_start tid chain
    rw [hsearch, Option.bind_eq_bind, Option.bind_some]
    cases stop with
    | none => rfl
    | some cur =>
        obtain ⟨cell, hcell, hend⟩ := hstop cur rfl
        have hnone : ∀ tag ∈ tagsAfter, tag.tid ≠ tid := fun tag hmem =>
          hother tag (List.mem_append_right _ hmem)
        have hmerge : 1 < cell.count := by
          refine hend.resolve_right fun hsame => ?_
          cases hrest with
          | cons hblock tail =>
              rw [Arena.block, hcell] at hblock
              have hnode : cell.block = _ := Option.some.inj hblock
              rw [hnode] at hsame
              exact hnone _ List.mem_cons_self hsame
        have hlength : after.length < steps tree :=
          Nat.lt_of_le_of_lt (by rw [List.length_append]; omega) (lt_steps chain)
        have hfind : tagsAfter.find? (fun tag => decide (tag.tid = tid)) = none :=
          List.find?_eq_none.mpr fun tag hmem => by simpa using hnone tag hmem
        show (tree.cell cur).bind _ = _
        rw [hcell, Option.bind_some, if_pos hmerge, findTag_eq hlength hrest, hfind]
        rfl

/-- The two ways to a tag: alone with the nodes in front of it, or over copies of them. -/
inductive Found (tree : TagTree) (first : Option Nat) (others : List Holder) (tid : Nat)
    (writer : COWWriter) (front : List Tag) (found : Tag) (rest : List Tag) : Prop
  | alone {before : List Nat} {prevNext : Option Nat} {cur : Nat} {next : Option Nat}
      {after : List Nat}
      (reached : Reached tree first others before front prevNext cur 1 next found after rest)
      (hsearch : search tree tid (steps tree) none first = some (prevNext, some cur))
      (apart : ∀ other ∈ others, cur ∉ other.places)
      (htraverse : cowTraverse tid writer tree first =
        (writer true cur prevNext (tree, first)).map fun (list, tag) => (list, some tag))
  | shared {tree' : TagTree} {first' : Option Nat} {before : List Nat} {prevNext : Option Nat}
      {cur count : Nat} {next : Option Nat} {after : List Nat} {merged : Nat}
      {pointer : Option Nat} {cell : Cell TagData}
      (reached : Reached tree' first' others before front prevNext cur count next found after rest)
      (hsearch : search tree tid (steps tree) none first = some (pointer, some merged))
      (hcell : tree.cell merged = some cell) (hmerge : 1 < cell.count) (hcount : 1 < count)
      (htraverse : cowTraverse tid writer tree first =
        (writer false cur prevNext (tree', first')).map fun (list, tag) => (list, some tag))

theorem found_of_mem {front rest : List Tag} {found : Tag}
    (family : Family tree first (front ++ found :: rest) others)
    (hfront : ∀ tag ∈ front, Allocable tag ∧ tag.tid ≠ tid) (hfound : found.tid = tid) :
    Found tree first others tid writer front found rest := by
  obtain ⟨places, chain⟩ := family.chain
  have hsome : first ≠ none := by
    rintro rfl
    generalize htags : front ++ found :: rest = tags at chain
    cases chain
    simp at htags
  obtain ⟨before, after, tagsBefore, tagsAfter, stop, hsearch, rfl, htags, segment, hrest, hone,
    hothers, hstop⟩ := search_start tid chain
  -- the search does not pass the tag
  obtain ⟨middle, rfl, rfl⟩ :
      ∃ middle, front = tagsBefore ++ middle ∧ tagsAfter = middle ++ found :: rest := by
    rcases List.append_eq_append_iff.mp htags with ⟨middle, hbefore, hafter⟩ | ⟨middle, hbefore, hafter⟩
    · cases middle with
      | nil => exact ⟨[], by simpa using hbefore.symm, by simpa using hafter.symm⟩
      | cons head middle =>
          obtain ⟨rfl, -⟩ := List.cons.inj hafter
          exact absurd hfound (hothers found (by rw [hbefore]; simp))
    · exact ⟨middle, hbefore, hafter⟩
  obtain ⟨cur, rfl⟩ : ∃ cur, stop = some cur := by
    cases hrest' : stop with
    | some cur => exact ⟨cur, rfl⟩
    | none =>
        rw [hrest'] at hrest
        generalize htags : middle ++ found :: rest = tags at hrest
        cases hrest
        simp at htags
  obtain ⟨cell, hcell, hend⟩ := hstop cur rfl
  have hwhole := chain.nodup
  obtain ⟨tags, hvalues⟩ : ∃ tags, middle ++ found :: rest = tags := ⟨_, rfl⟩
  have hlater := hrest
  rw [hvalues] at hrest
  cases hrest with
  | @cons _ next tag after tagsAfter _ hblock tail =>
      have hnode : cell.block = ⟨next, tag⟩ := by
        rw [Arena.block, hcell] at hblock
        exact Option.some.inj hblock
      have hreached : Reached tree first others before tagsBefore before.getLast? cur cell.count
          next tag after tagsAfter :=
        ⟨family.tracked, ⟨segment, rfl, (List.nodup_append.mp hwhole).1⟩, by rw [hcell, ← hnode],
          tail, hwhole, family.chains, fun other hother =>
            segment.apart family.tracked hone (List.mem_map_of_mem hother)
              (family.chains other hother)⟩
      by_cases hmerge : 1 < cell.count
      · have hmiddle : ∀ tag ∈ middle, Allocable tag ∧ tag.tid ≠ tid := fun tag hmem =>
          hfront tag (List.mem_append_right _ hmem)
        have hlength := lt_steps chain
        rw [chain.length_eq, List.length_append, List.length_append] at hlength
        obtain ⟨tree', first', before', prevNext', cur', count', next', after', hcopy, hlast,
          hcount⟩ := exists_copyUntil hfound (show middle.length < steps tree by omega) hreached
            hmerge hvalues.symm hmiddle
        refine .shared hlast hsearch hcell hmerge hcount ?_
        obtain ⟨it, hit⟩ := Option.isSome_iff_exists.mp (List.find?_isSome.mpr
          ⟨found, List.mem_append_right middle List.mem_cons_self, decide_eq_true hfound⟩ :
            ((middle ++ found :: rest).find? fun tag => decide (tag.tid = tid)).isSome)
        have hafter : (cur :: after).length < steps tree := Nat.lt_of_le_of_lt
          (by rw [List.length_append]; exact Nat.le_add_left _ _) (lt_steps chain)
        rw [cowTraverse, if_neg hsome, hsearch, Option.bind_eq_bind, Option.bind_some]
        show (tree.cell cur).bind _ = _
        rw [hcell, Option.bind_some, if_pos hmerge, findTag_eq hafter hlater, hit]
        show (copyUntil tid (steps tree) (tree, first) before.getLast? cur).bind _ = _
        rw [hcopy, Option.bind_some]
        show (tree'.cell cur').bind _ = _
        rw [hlast.cell, Option.bind_some, if_pos hcount]
      · have hsame : tag.tid = tid := by
          have htid := hend.resolve_left hmerge
          rwa [hnode] at htid
        have hmiddle : middle = [] := by
          cases middle with
          | nil => rfl
          | cons head middle =>
              obtain ⟨rfl, -⟩ := List.cons.inj hvalues
              exact absurd hsame (hfront head (by simp)).2
        subst hmiddle
        obtain ⟨rfl, rfl⟩ := List.cons.inj hvalues
        have hpositive := family.tracked.count_pos hcell
        rw [show cell.count = 1 by omega] at hreached
        rw [List.append_nil]
        refine .alone hreached hsearch (fun other hother => ?_) ?_
        · have hsegment := segment.concat hblock
          refine hsegment.apart family.tracked (fun place hplace => ?_)
            (List.mem_map_of_mem hother) (family.chains other hother) cur (by simp)
          rcases List.mem_append.mp hplace with hmem | hmem
          · exact hone place hmem
          · rw [List.mem_singleton.mp hmem]
            exact ⟨cell, hcell, hmerge⟩
        · rw [cowTraverse, if_neg hsome, hsearch, Option.bind_eq_bind, Option.bind_some]
          show (tree.cell cur).bind _ = _
          rw [hcell, Option.bind_some, if_neg hmerge]

end Traversal

end PacketTagList

end DeepcV2x.Packets
