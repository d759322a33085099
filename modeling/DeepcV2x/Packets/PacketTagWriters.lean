import DeepcV2x.Packets.PacketTagTraverse

/-!
# What the methods of a tag list leave

A method changes the tags of its own list and no others, and every node still
counts the pointers at it.  A tag that is replaced in place keeps the size of
its node.
-/

namespace DeepcV2x.Packets.PacketTagList

open Foundation.Sharing Foundation.SharedLists

/-! ## Writers -/

namespace Reached

variable {tree : TagTree} {first : Option Nat} {others : List Holder} {before : List Nat}
  {tagsBefore : List Tag} {prevNext : Option Nat} {cur count : Nat} {next : Option Nat} {tag : Tag}
  {after : List Nat} {tagsAfter : List Tag} {list : TagTree × Option Nat}

/-- The list is linked around the cursor. -/
theorem unlink (reached : Reached tree first others before tagsBefore prevNext cur count next tag
    after tagsAfter) (hlist : assign tree first prevNext next = list) :
    Chain list.1 list.2 (before ++ after) (tagsBefore ++ tagsAfter) ∧
      (∀ other ∈ others, Chain list.1 other.head other.places other.tags) ∧
      (cur :: pointers list.1 (list.2 :: others.map Holder.head)).Perm
        (next.toList ++ pointers tree (first :: others.map Holder.head)) ∧
      list.1.cell cur = some ⟨count, ⟨next, tag⟩⟩ := by
  have hkept : ∀ place, place ∉ before → list.1.block place = tree.block place := by
    intro place hbefore
    rw [← hlist, block_assign_of_ne _ (reached.prevNext_ne hbefore)]
  have hleads := reached.leads.assign next
  rw [hlist] at hleads
  refine ⟨hleads.segment.append (reached.rest.frame fun place hplace =>
    hkept place (reached.after_not_mem hplace)), fun other hother => ?_, ?_, ?_⟩
  · refine (reached.chains other hother).frame fun place hplace => hkept place fun hmem => ?_
    exact reached.apart other hother place hmem hplace
  · rw [← hlist]
    exact reached.leads.pointers_assign next reached.tracked _
  · rw [← hlist, cell_assign_of_ne _ (reached.prevNext_ne reached.cur_not_mem), reached.cell]

/-- A node that others hold too is left to them. -/
theorem removeWriter_shared (reached : Reached tree first others before tagsBefore prevNext cur
    count next tag after tagsAfter) (hmerge : 1 < count) :
    ∃ tree' first', removeWriter false cur prevNext (tree, first) = some ((tree', first'), tag) ∧
      Family tree' first' (tagsBefore ++ tagsAfter) others := by
  obtain ⟨list, hlist⟩ : ∃ list, assign tree first prevNext next = list := ⟨_, rfl⟩
  obtain ⟨hchain, hothers, hpointers, -⟩ := reached.unlink hlist
  obtain ⟨held, hperm, hcount, hnext⟩ := reached.exists_pointers
  have assigned : Tracked list.1 (cur :: held) := hlist ▸ (reached.tracked.assign next).perm hperm
  have unmerged := assigned.unmerge (List.count_pos_iff.mp (by omega))
  have merged := tracked_merge unmerged hnext
  have hlinks := (links_merge unmerged next).trans (links_unmerge cur assigned.nodup)
  have hblocks : ∀ place, (merge (unmerge list.1 cur) next).block place = list.1.block place :=
    fun place => (block_merge _ next place).trans (block_unmerge list.1 cur place)
  refine ⟨merge (unmerge list.1 cur) next, list.2, ?_, ?_, ⟨_, hchain.frame fun place _ =>
    hblocks place⟩, fun other hother => (hothers other hother).frame fun place _ => hblocks place⟩
  · show (tree.block cur).bind _ = _
    rw [reached.block, Option.bind_some]
    show (if false = true then _ else some ((merge (unmerge (assign tree first prevNext next).1 cur)
      next, (assign tree first prevNext next).2), tag)) = _
    rw [hlist]
    rfl
  · refine merged.perm (List.perm_iff_count.mpr fun place => ?_)
    have hfirst := hpointers.count_eq place
    have hsecond := hlinks.count_eq place
    have hthird := hperm.count_eq place
    simp only [pointers, List.count_append, List.count_cons] at hfirst hsecond hthird ⊢
    omega

/-- A node of the list alone is freed. -/
theorem removeWriter_alone (reached : Reached tree first others before tagsBefore prevNext cur 1
    next tag after tagsAfter) (apart : ∀ other ∈ others, cur ∉ other.places) :
    ∃ tree' first', removeWriter true cur prevNext (tree, first) = some ((tree', first'), tag) ∧
      Family tree' first' (tagsBefore ++ tagsAfter) others := by
  obtain ⟨list, hlist⟩ : ∃ list, assign tree first prevNext next = list := ⟨_, rfl⟩
  obtain ⟨hchain, hothers, hpointers, hcell⟩ := reached.unlink hlist
  obtain ⟨held, hperm, hcount, hnext⟩ := reached.exists_pointers
  have assigned : Tracked list.1 (cur :: held) := hlist ▸ (reached.tracked.assign next).perm hperm
  have deleted := assigned.delete (List.count_eq_zero.mp (by omega))
  have hlinks := links_perm_of_cell assigned.nodup hcell
  have hblocks : ∀ place, place ≠ cur → (list.1.delete cur).block place = list.1.block place :=
    fun place hne => Arena.block_delete_of_ne list.1 hne
  refine ⟨list.1.delete cur, list.2, ?_, ?_, ⟨_, hchain.frame fun place hplace => hblocks place ?_⟩,
    fun other hother => (hothers other hother).frame fun place hplace => hblocks place fun hsame =>
      apart other hother (hsame ▸ hplace)⟩
  · show (tree.block cur).bind _ = _
    rw [reached.block, Option.bind_some]
    show (if true = true then some (((assign tree first prevNext next).1.delete cur,
      (assign tree first prevNext next).2), tag) else _) = _
    rw [hlist]
    rfl
  · refine deleted.perm (List.perm_iff_count.mpr fun place => ?_)
    have hfirst := hpointers.count_eq place
    have hsecond := hlinks.count_eq place
    have hthird := hperm.count_eq place
    simp only [pointers, List.count_append, List.count_cons] at hfirst hsecond hthird ⊢
    omega
  · rcases List.mem_append.mp hplace with hmem | hmem
    · exact fun hsame => reached.cur_not_mem (hsame ▸ hmem)
    · exact reached.ne_cur hmem

/-- A node that others hold too is replaced by a new one. -/
theorem replaceWriter_shared (reached : Reached tree first others before tagsBefore prevNext cur
    count next tag after tagsAfter) (hmerge : 1 < count) {new : Tag} (small : Allocable new) :
    ∃ tree' first', replaceWriter new false cur prevNext (tree, first) =
        some ((tree', first'), new) ∧
      Family tree' first' (tagsBefore ++ new :: tagsAfter) others := by
  obtain ⟨made, hmade⟩ : ∃ made, create (unmerge tree cur) ⟨next, new⟩ = made := ⟨_, rfl⟩
  obtain ⟨list, hlist⟩ :
    ∃ list, assign (merge made.2 next) first prevNext (some made.1) = list := ⟨_, rfl⟩
  obtain ⟨hleads, hchain, -, hothers, -⟩ := reached.link hmerge hmade hlist
  refine ⟨list.1, list.2, ?_, reached.tracked_linked hmerge hmade hlist,
    ⟨before ++ [made.1] ++ after, ?_⟩, fun other hother => (hothers other hother).1⟩
  · show (tree.block cur).bind _ = _
    rw [reached.block, Option.bind_some]
    show (createTagData (unmerge tree cur) next new).bind _ = _
    rw [createTagData_eq _ _ small, hmade, Option.bind_some]
    show some (assign (merge made.2 next) first prevNext (some made.1), new) = _
    rw [hlist]
  · have hwhole := hleads.segment.append hchain
    rwa [List.append_assoc tagsBefore] at hwhole

/-- The new node cannot be made. -/
theorem replaceWriter_shared_large (reached : Reached tree first others before tagsBefore prevNext
    cur count next tag after tagsAfter) {new : Tag} (large : ¬ Allocable new) :
    replaceWriter new false cur prevNext (tree, first) = none := by
  show (tree.block cur).bind _ = _
  rw [reached.block, Option.bind_some]
  show (createTagData (unmerge tree cur) next new).bind _ = _
  rw [createTagData_large _ _ large, Option.bind_none]

/-- A node of the list alone is written over, when the tag fits. -/
theorem replaceWriter_alone (reached : Reached tree first others before tagsBefore prevNext cur 1
    next tag after tagsAfter) (apart : ∀ other ∈ others, cur ∉ other.places) {new : Tag}
    (hfits : new.data.length ≤ tag.data.length) :
    ∃ tree', replaceWriter new true cur prevNext (tree, first) = some ((tree', first), new) ∧
      Family tree' first (tagsBefore ++
        { tag with data := new.data ++ tag.data.drop new.data.length } :: tagsAfter) others := by
  have hblocks : ∀ place, place ≠ cur →
      (tree.write cur (rewrite new)).block place = tree.block place :=
    fun place hne => Arena.block_write_of_ne tree _ hne
  refine ⟨tree.write cur (rewrite new), ?_, ?_, ⟨before ++ cur :: after, ?_⟩, fun other hother =>
    (reached.chains other hother).frame fun place hplace => hblocks place fun hsame =>
      apart other hother (hsame ▸ hplace)⟩
  · show (tree.block cur).bind _ = _
    rw [reached.block, Option.bind_some]
    show (if new.data.length ≤ tag.data.length then _ else _) = _
    rw [if_pos hfits]
  · have hlinks : (links (tree.write cur (rewrite new))).Perm (links tree) := by
      rw [Arena.write, reached.cell]
      exact links_put_same reached.tracked.nodup reached.cell rfl
    exact (reached.tracked.write _).perm (hlinks.symm.append_left _)
  · refine (reached.leads.segment.frame fun place hplace => hblocks place fun hsame =>
      reached.cur_not_mem (hsame ▸ hplace)).append (.cons ?_ (reached.rest.frame fun place hplace =>
        hblocks place (reached.ne_cur hplace)))
    rw [Arena.block_write_self, reached.block]
    rfl

/-- A tag that is too large ends the run. -/
theorem replaceWriter_large (reached : Reached tree first others before tagsBefore prevNext cur 1
    next tag after tagsAfter) {new : Tag} (hlarge : tag.data.length < new.data.length) :
    replaceWriter new true cur prevNext (tree, first) = none := by
  show (tree.block cur).bind _ = _
  rw [reached.block, Option.bind_some]
  show (if new.data.length ≤ tag.data.length then _ else _) = _
  rw [if_neg (Nat.not_le_of_lt hlarge)]

end Reached

/-! ## Methods -/

section Methods

variable {tree : TagTree} {first : Option Nat} {others : List Holder} {tags front rest : List Tag}
  {tag found : Tag} {tid : Nat}

theorem Family.findTag_eq (family : Family tree first tags others) (tid : Nat) :
    findTag tree tid (steps tree) first = some (tags.find? fun tag => decide (tag.tid = tid)) := by
  obtain ⟨places, chain⟩ := family.chain
  exact PacketTagList.findTag_eq (lt_steps chain) chain

theorem find?_eq_none_of_forall_ne (hother : ∀ tag ∈ tags, tag.tid ≠ tid) :
    (tags.find? fun tag => decide (tag.tid = tid)) = none :=
  List.find?_eq_none.mpr fun tag hmem => by simpa using hother tag hmem

/-- A further node with a tag, in front of the others. -/
theorem Family.add (family : Family tree first tags others) (small : Allocable tag)
    (hother : ∀ other ∈ tags, other.tid ≠ tag.tid) :
    ∃ tree' first', add tree first tag = some (tree', first') ∧
      Family tree' first' (tag :: tags) others := by
  obtain ⟨made, hmade⟩ : ∃ made, create tree ⟨first, tag⟩ = made := ⟨_, rfl⟩
  have tracked := family.tracked.create ⟨first, tag⟩
  have hlinks := family.tracked.links_create ⟨first, tag⟩
  have hcell := family.tracked.cell_create ⟨first, tag⟩ made.1
  have hfresh := family.tracked.cell_create_fst ⟨first, tag⟩
  rw [hmade] at tracked hlinks hcell hfresh
  rw [if_pos rfl] at hcell
  have hkept : ∀ {start : Option Nat} {places : List Nat} {tags : List Tag},
      Chain tree start places tags → Chain made.2 start places tags := by
    intro start places tags chain
    refine chain.frame fun place hplace => ?_
    obtain ⟨node, hblock⟩ := chain.live hplace
    have hne : place ≠ made.1 := by
      rintro rfl
      rw [Arena.block, hfresh] at hblock
      cases hblock
    rw [← hmade] at hne ⊢
    exact family.tracked.block_create _ hne
  obtain ⟨places, chain⟩ := family.chain
  refine ⟨made.2, some made.1, ?_, ?_, ⟨made.1 :: places, .cons ?_ (hkept chain)⟩, fun other hmem =>
    hkept (family.chains other hmem)⟩
  · rw [PacketTagList.add, family.findTag_eq, find?_eq_none_of_forall_ne hother,
      Option.bind_eq_bind, Option.bind_some, if_pos rfl, createTagData_eq _ _ small, hmade]
    rfl
  · refine tracked.perm (List.perm_iff_count.mpr fun place => ?_)
    have hcount := hlinks.count_eq place
    rw [List.count_cons, pointers_cons, pointers_cons]
    simp only [pointers, Option.toList_some, List.count_append, List.count_cons, List.count_nil]
      at hcount ⊢
    omega
  · rw [Arena.block, hcell]
    rfl

theorem Family.add_large (family : Family tree first tags others) (large : ¬ Allocable tag) :
    PacketTagList.add tree first tag = none := by
  rw [PacketTagList.add, family.findTag_eq, Option.bind_eq_bind, Option.bind_some]
  split
  next => rw [createTagData_large _ _ large, Option.bind_eq_bind, Option.bind_none]
  next => rfl

/-- The first tag of the type is removed. -/
theorem Family.remove (family : Family tree first (front ++ found :: rest) others)
    (hfront : ∀ tag ∈ front, Allocable tag ∧ tag.tid ≠ tid) (hfound : found.tid = tid) :
    ∃ tree' first', remove tree first tid = some ((tree', first'), some found) ∧
      Family tree' first' (front ++ rest) others := by
  rcases found_of_mem family hfront hfound with
    ⟨reached, hsearch, apart, htraverse⟩ | ⟨reached, hsearch, hcell, hmerge, hcount, htraverse⟩
  · obtain ⟨tree', first', hwriter, hfamily⟩ := reached.removeWriter_alone apart
    exact ⟨tree', first', by rw [PacketTagList.remove, htraverse, hwriter]; rfl, hfamily⟩
  · obtain ⟨tree', first', hwriter, hfamily⟩ := reached.removeWriter_shared hcount
    exact ⟨tree', first', by rw [PacketTagList.remove, htraverse, hwriter]; rfl, hfamily⟩

theorem Family.remove_none (family : Family tree first tags others)
    (hother : ∀ tag ∈ tags, tag.tid ≠ tid) :
    PacketTagList.remove tree first tid = some ((tree, first), none) :=
  cowTraverse_of_forall_ne family hother

/-- The tag would be written over a node of the list alone that has another size. -/
def Misfits (tree : TagTree) (first : Option Nat) (tag : Tag) : Prop :=
  ∃ prevNext cur cell, search tree tag.tid (steps tree) none first = some (prevNext, some cur) ∧
    tree.cell cur = some cell ∧ ¬ 1 < cell.count ∧
      cell.block.value.data.length ≠ tag.data.length

/-- Only a tag whose type is there misfits. -/
theorem Family.exists_of_misfits (family : Family tree first tags others)
    (misfits : Misfits tree first tag) : ∃ other ∈ tags, other.tid = tag.tid := by
  obtain ⟨places, chain⟩ := family.chain
  obtain ⟨pointer, place, cell, hmisfit, hplace, halone, -⟩ := misfits
  obtain ⟨before, after, tagsBefore, tagsAfter, stop, hsearch, -, rfl, -, hrest, -, -, hstop⟩ :=
    search_start tag.tid chain
  obtain ⟨-, rfl⟩ := Prod.mk.inj (Option.some.inj (hsearch.symm.trans hmisfit))
  obtain ⟨found, hfound, hend⟩ := hstop place rfl
  obtain rfl := Option.some.inj (hplace.symm.trans hfound)
  cases hrest with
  | @cons _ next other _ tagsAfter _ hblock tail =>
      refine ⟨other, List.mem_append_right _ List.mem_cons_self, ?_⟩
      rw [Arena.block, hplace] at hblock
      rw [← hend.resolve_left halone, show cell.block = _ from Option.some.inj hblock]

/-- The first tag of the type is replaced, when its node is copied or has the size. -/
theorem Family.replace (family : Family tree first (front ++ found :: rest) others)
    (small : Allocable tag) (hfront : ∀ other ∈ front, Allocable other ∧ other.tid ≠ tag.tid)
    (hfound : found.tid = tag.tid) (fits : ¬ Misfits tree first tag) :
    ∃ tree' first', PacketTagList.replace tree first tag = some ((tree', first'), some tag) ∧
      Family tree' first' (front ++ tag :: rest) others := by
  rcases found_of_mem family hfront hfound with
    ⟨reached, hsearch, apart, htraverse⟩ | ⟨reached, hsearch, hcell, hmerge, hcount, htraverse⟩
  · have hsize : found.data.length = tag.data.length := by
      by_contra hne
      exact fits ⟨_, _, _, hsearch, reached.cell, Nat.lt_irrefl 1, hne⟩
    obtain ⟨tree', hwriter, hfamily⟩ := reached.replaceWriter_alone apart (Nat.le_of_eq hsize.symm)
    have htag : ({ found with data := tag.data ++ found.data.drop tag.data.length } : Tag) = tag := by
      rw [← hsize, List.drop_length, List.append_nil, hfound]
    rw [htag] at hfamily
    refine ⟨tree', first, ?_, hfamily⟩
    rw [PacketTagList.replace, htraverse, hwriter]
    rfl
  · obtain ⟨tree', first', hwriter, hfamily⟩ := reached.replaceWriter_shared hcount small
    refine ⟨tree', first', ?_, hfamily⟩
    rw [PacketTagList.replace, htraverse, hwriter]
    rfl

/-- A tag of another size than its node is not put into the list. -/
theorem Family.replace_misfit (family : Family tree first (front ++ found :: rest) others)
    (hfront : ∀ other ∈ front, Allocable other ∧ other.tid ≠ tag.tid) (hfound : found.tid = tag.tid)
    (misfits : Misfits tree first tag) {result : (TagTree × Option Nat) × Option Tag}
    (hreplace : PacketTagList.replace tree first tag = some result) :
    ∃ other, other ≠ tag ∧ Family result.1.1 result.1.2 (front ++ other :: rest) others := by
  obtain ⟨pointer, place, cell, hmisfit, hplace, halone, hsize⟩ := misfits
  rcases found_of_mem family hfront hfound with
    ⟨reached, hsearch, apart, htraverse⟩ | ⟨reached, hsearch, hcell, hmerge, hcount, htraverse⟩
  · obtain ⟨rfl, hcur⟩ := Prod.mk.inj (Option.some.inj (hsearch.symm.trans hmisfit))
    obtain rfl := Option.some.inj hcur
    have hfoundCell := reached.cell
    rw [hplace] at hfoundCell
    rw [Option.some.inj hfoundCell] at hsize
    rcases Nat.lt_or_ge found.data.length tag.data.length with hlarge | hless
    · rw [PacketTagList.replace, htraverse, reached.replaceWriter_large hlarge] at hreplace
      cases hreplace
    · obtain ⟨tree', hwriter, hfamily⟩ := reached.replaceWriter_alone apart hless
      rw [PacketTagList.replace, htraverse, hwriter] at hreplace
      obtain rfl := Option.some.inj hreplace
      refine ⟨_, fun hsame => hsize ?_, hfamily⟩
      have hlength := congrArg (fun tag : Tag => tag.data.length) hsame
      simp only [List.length_append, List.length_drop] at hlength
      show found.data.length = tag.data.length
      omega
  · obtain ⟨rfl, hcur⟩ := Prod.mk.inj (Option.some.inj (hsearch.symm.trans hmisfit))
    obtain rfl := Option.some.inj hcur
    rw [hplace] at hcell
    exact absurd (Option.some.inj hcell ▸ hmerge) halone

/-- No node has such a size. -/
theorem Family.replace_large (family : Family tree first (front ++ found :: rest) others)
    (large : ¬ Allocable tag) (hfront : ∀ other ∈ front, Allocable other ∧ other.tid ≠ tag.tid)
    (hfound : found.tid = tag.tid) (small : Allocable found) :
    PacketTagList.replace tree first tag = none := by
  rcases found_of_mem family hfront hfound with
    ⟨reached, hsearch, apart, htraverse⟩ | ⟨reached, hsearch, hcell, hmerge, hcount, htraverse⟩
  · have hlarge : found.data.length < tag.data.length := by
      simp only [Allocable] at small large
      omega
    rw [PacketTagList.replace, htraverse, reached.replaceWriter_large hlarge]
    rfl
  · rw [PacketTagList.replace, htraverse, reached.replaceWriter_shared_large large]
    rfl

theorem Family.replace_none_large (family : Family tree first tags others) (large : ¬ Allocable tag)
    (hother : ∀ other ∈ tags, other.tid ≠ tag.tid) :
    PacketTagList.replace tree first tag = none := by
  rw [PacketTagList.replace, cowTraverse_of_forall_ne family hother]
  show (PacketTagList.add tree first tag).map _ = _
  rw [family.add_large large]
  rfl

/-- A new type is added. -/
theorem Family.replace_none (family : Family tree first tags others) (small : Allocable tag)
    (hother : ∀ other ∈ tags, other.tid ≠ tag.tid) :
    ∃ tree' first', PacketTagList.replace tree first tag = some ((tree', first'), none) ∧
      Family tree' first' (tag :: tags) others := by
  obtain ⟨tree', first', hadd, hfamily⟩ := family.add small hother
  refine ⟨tree', first', ?_, hfamily⟩
  rw [PacketTagList.replace, cowTraverse_of_forall_ne family hother]
  show (PacketTagList.add tree first tag).map _ = _
  rw [hadd]
  rfl

/-! ## Removing all tags -/

theorem free_unmerge {prev cur : Nat} (hne : prev ≠ cur) (tree : TagTree) :
    free (unmerge tree cur) (some prev) = unmerge (free tree (some prev)) cur := by
  rw [free, free, unmerge, unmerge, Arena.cell_delete, if_neg (Ne.symm hne)]
  cases tree.cell cur with
  | none => rfl
  | some cell => exact put_delete_of_ne hne _

theorem delete_unmerge (tree : TagTree) (cur : Nat) :
    (unmerge tree cur).delete cur = tree.delete cur := by
  rw [unmerge]
  split
  next => rfl
  next cell _ => exact delete_put tree cur _

/-- The first node is freed, or left to the other lists; `free tree prev` is what the loop leaves of
the tree so far. -/
theorem exists_removeAllFrom {places : List Nat} : ∀ {fuel : Nat} {tree : TagTree}
    {prev cur : Option Nat} {tags : List Tag}, places.length < fuel →
    Tracked (free tree prev) (pointers (free tree prev) (cur :: others.map Holder.head)) →
    Chain (free tree prev) cur places tags →
    (∀ other ∈ others, Chain (free tree prev) other.head other.places other.tags) →
    ∃ last, removeAllFrom fuel tree prev cur = some last ∧
      Tracked last (pointers last (none :: others.map Holder.head)) ∧
        ∀ other ∈ others, Chain last other.head other.places other.tags := by
  induction places with
  | nil =>
      intro fuel tree prev cur tags hfuel tracked chain hothers
      obtain ⟨fuel, rfl⟩ : ∃ left, fuel = left + 1 := ⟨fuel - 1, by omega⟩
      cases chain
      exact ⟨_, rfl, tracked, hothers⟩
  | cons place places ih =>
      intro fuel tree prev cur tags hfuel tracked chain hothers
      obtain ⟨fuel, rfl⟩ : ∃ left, fuel = left + 1 := ⟨fuel - 1, by omega⟩
      have hwhole := chain
      cases chain with
      | @cons _ next tag _ tags _ hblock tail =>
          obtain ⟨count, hcell⟩ := cell_of_block hblock
          have hprev : prev ≠ some place := by
            rintro rfl
            rw [free, Arena.cell_delete, if_pos rfl] at hcell
            cases hcell
          have hcommute : free (unmerge tree place) prev = unmerge (free tree prev) place := by
            cases prev with
            | none => rfl
            | some prev => exact free_unmerge (fun hsame => hprev (congrArg some hsame)) tree
          have hhere : tree.cell place = some ⟨count, ⟨next, tag⟩⟩ := by
            cases prev with
            | none => exact hcell
            | some prev =>
                rw [free, Arena.cell_delete, if_neg fun hsame => hprev (congrArg some hsame.symm)]
                  at hcell
                exact hcell
          have hcount := tracked.count_eq hcell
          have hcounted := tracked
          rw [pointers_cons, Option.toList_some, List.singleton_append] at tracked hcount
          rw [List.count_cons_self] at hcount
          rw [removeAllFrom, hhere, Option.bind_eq_bind, Option.bind_some, hcommute]
          by_cases hmerge : count - 1 > 0
          · have hmem : place ∈ pointers (free tree prev) (others.map Holder.head) :=
              List.count_pos_iff.mp (by simp only at hcount; omega)
            have unmerged := tracked.unmerge hmem
            rw [if_pos hmerge]
            refine ⟨_, rfl, unmerged.perm ?_, fun other hother =>
              (hothers other hother).frame fun _ _ => block_unmerge ..⟩
            exact ((links_unmerge place tracked.nodup).symm.append_left _)
          · have hnot : place ∉ pointers (free tree prev) (others.map Holder.head) :=
              List.count_eq_zero.mp (by simp only at hcount; omega)
            have deleted := tracked.delete hnot
            have hlinks := links_perm_of_cell tracked.nodup hcell
            have hkept : ∀ other, other ≠ place →
                ((free tree prev).delete place).block other = (free tree prev).block other :=
              fun other hne => Arena.block_delete_of_ne _ hne
            have hnodup := hwhole.nodup
            rw [if_neg hmerge]
            have hrest : Chain ((free tree prev).delete place) next places tags :=
              tail.frame fun other hother => hkept other fun hsame =>
                (List.nodup_cons.mp hnodup).1 (hsame ▸ hother)
            have hleft : ∀ other ∈ others,
                Chain ((free tree prev).delete place) other.head other.places other.tags := by
              intro other hother
              have happart := (Segment.cons hblock (.nil next)).apart hcounted
                (fun other hmem => ⟨_, List.mem_singleton.mp hmem ▸ hcell, by simp only; omega⟩)
                (List.mem_map_of_mem hother) (hothers other hother) place List.mem_cons_self
              exact (hothers other hother).frame fun other hmem => hkept other fun hsame =>
                happart (hsame ▸ hmem)
            have hpointers : Tracked ((free tree prev).delete place)
                (pointers ((free tree prev).delete place) (next :: others.map Holder.head)) := by
              refine deleted.perm (List.perm_iff_count.mpr fun other => ?_)
              have hcounts := hlinks.count_eq other
              rw [pointers_cons]
              simp only [pointers, List.count_append] at hcounts ⊢
              omega
            rw [← delete_unmerge (free tree prev) place] at hrest hleft hpointers
            exact ih (Nat.lt_of_succ_lt_succ hfuel) hpointers hrest hleft

theorem Family.removeAll (family : Family tree first tags others) :
    ∃ tree', removeAll tree first = some (tree', none) ∧ Family tree' none [] others := by
  obtain ⟨places, chain⟩ := family.chain
  obtain ⟨last, hlast, tracked, hothers⟩ :=
    @exists_removeAllFrom others places (steps tree) tree none first tags (lt_steps chain)
      family.tracked chain family.chains
  exact ⟨last, by rw [PacketTagList.removeAll, hlast]; rfl, tracked, ⟨[], .nil none⟩, hothers⟩

end Methods

end DeepcV2x.Packets.PacketTagList
