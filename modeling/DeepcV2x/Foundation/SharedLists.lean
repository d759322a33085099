import DeepcV2x.Foundation.Sharing
import Mathlib.Data.List.Perm.Subperm

/-!
# Lists that share their tails

The nodes of an arena are linked to lists, and a list is the place of its first
node.  Lists may share their tails, so a node counts the heads and the nodes
that point at it.  A node with one pointer on the way from a head belongs to no
other list.
-/

namespace DeepcV2x.Foundation.SharedLists

open Association Sharing

structure Node (Value : Type*) where
  next : Option Nat
  value : Value

variable {Value : Type*}

/-! ## Pointers -/

/-- The places that nodes point at. -/
def links (arena : Arena (Node Value)) : List Nat :=
  arena.cells.filterMap fun entry => entry.2.block.next

/-- The places that some heads and all nodes point at. -/
def pointers (arena : Arena (Node Value)) (heads : List (Option Nat)) : List Nat :=
  heads.filterMap id ++ links arena

theorem filterMap_cons_toList {Source : Type*} (function : Source → Option Nat) (first : Source)
    (rest : List Source) :
    (first :: rest).filterMap function = (function first).toList ++ rest.filterMap function := by
  cases hfirst : function first with
  | none => rw [List.filterMap_cons_none hfirst, Option.toList_none, List.nil_append]
  | some place => rw [List.filterMap_cons_some hfirst, Option.toList_some, List.singleton_append]

theorem pointers_cons (arena : Arena (Node Value)) (head : Option Nat) (heads : List (Option Nat)) :
    pointers arena (head :: heads) = head.toList ++ pointers arena heads := by
  rw [pointers, filterMap_cons_toList, List.append_assoc]
  rfl

theorem links_perm_of_cell {arena : Arena (Node Value)} {place : Nat} {cell : Cell (Node Value)}
    (hnodup : (keys arena.cells).Nodup) (hcell : arena.cell place = some cell) :
    (links arena).Perm (cell.block.next.toList ++ links (arena.delete place)) := by
  have hperm := (perm_erase_of_lookup hnodup hcell).filterMap fun entry => entry.2.block.next
  rwa [filterMap_cons_toList] at hperm

theorem links_put {arena : Arena (Node Value)} (place : Nat) (cell : Cell (Node Value))
    (hnodup : (keys arena.cells).Nodup) :
    (links (arena.put place cell)).Perm
      (cell.block.next.toList ++ links (arena.delete place)) := by
  have hperm := (upsert_perm_erase place (fun _ => cell) hnodup).filterMap fun entry =>
    entry.2.block.next
  rwa [filterMap_cons_toList] at hperm

/-- A changed node gives up its pointer for another one. -/
theorem links_put_of_cell {arena : Arena (Node Value)} {place : Nat} {old : Cell (Node Value)}
    (new : Cell (Node Value)) (hnodup : (keys arena.cells).Nodup)
    (hcell : arena.cell place = some old) :
    (old.block.next.toList ++ links (arena.put place new)).Perm
      (new.block.next.toList ++ links arena) := by
  refine ((links_put place new hnodup).append_left _).trans ?_
  refine List.Perm.trans ?_ ((links_perm_of_cell hnodup hcell).symm.append_left _)
  rw [← List.append_assoc, ← List.append_assoc]
  exact List.perm_append_comm.append_right _

theorem delete_put (arena : Arena (Node Value)) (place : Nat) (cell : Cell (Node Value)) :
    (arena.put place cell).delete place = arena.delete place := by
  rw [Arena.delete, Arena.put, Arena.delete, erase_upsert]

theorem put_delete_of_ne {arena : Arena (Node Value)} {place other : Nat} (hne : place ≠ other)
    (cell : Cell (Node Value)) :
    (arena.put other cell).delete place = (arena.delete place).put other cell := by
  rw [Arena.delete, Arena.put, Arena.delete, Arena.put, erase_upsert_of_ne hne]

/-- A node with the same pointer. -/
theorem links_put_same {arena : Arena (Node Value)} {place : Nat} {old new : Cell (Node Value)}
    (hnodup : (keys arena.cells).Nodup) (hcell : arena.cell place = some old)
    (hnext : new.block.next = old.block.next) :
    (links (arena.put place new)).Perm (links arena) := by
  have hperm := links_put_of_cell new hnodup hcell
  rw [hnext] at hperm
  exact (List.perm_append_left_iff _).mp hperm

theorem links_retain {arena : Arena (Node Value)} (place : Nat) (hnodup : (keys arena.cells).Nodup) :
    (links (arena.retain place)).Perm (links arena) := by
  rw [Arena.retain]
  split
  next => exact List.Perm.refl _
  next cell hcell => exact links_put_same hnodup hcell rfl

/-- One pointer less at a node that stays. -/
def unmerge (arena : Arena (Node Value)) (place : Nat) : Arena (Node Value) :=
  match arena.cell place with
  | none => arena
  | some cell => arena.put place { cell with count := cell.count - 1 }

theorem links_unmerge {arena : Arena (Node Value)} (place : Nat)
    (hnodup : (keys arena.cells).Nodup) : (links (unmerge arena place)).Perm (links arena) := by
  rw [unmerge]
  split
  next => exact List.Perm.refl _
  next cell hcell => exact links_put_same hnodup hcell rfl

theorem block_unmerge (arena : Arena (Node Value)) (place other : Nat) :
    (unmerge arena place).block other = arena.block other := by
  rw [unmerge]
  split
  next => rfl
  next cell hcell =>
    by_cases hsame : other = place
    · rw [hsame, Arena.block_put_self, Arena.block, hcell]
      rfl
    · exact arena.block_put_of_ne _ hsame

theorem cell_unmerge_of_ne (arena : Arena (Node Value)) {place other : Nat} (hne : other ≠ place) :
    (unmerge arena place).cell other = arena.cell other := by
  rw [unmerge]
  split
  next => rfl
  next => exact (Arena.cell_put ..).trans (if_neg hne)

/-! ## Counted nodes -/

/-- Every node has a pointer, and counts its pointers. -/
structure Tracked (arena : Arena (Node Value)) (held : List Nat) : Prop where
  owned : arena.Owned held
  nodup : (keys arena.cells).Nodup
  live : ∀ place cell, arena.cell place = some cell → place ∈ held
  free : arena.free = []

namespace Tracked

variable {arena : Arena (Node Value)} {held held' : List Nat} {place : Nat}
  {cell : Cell (Node Value)}

theorem empty : Tracked (Arena.empty : Arena (Node Value)) [] :=
  ⟨Arena.Owned.empty, List.nodup_nil, nofun, rfl⟩

theorem perm (tracked : Tracked arena held) (hperm : held.Perm held') : Tracked arena held' :=
  ⟨tracked.owned.perm hperm, tracked.nodup,
    fun place cell hcell => hperm.mem_iff.mp (tracked.live place cell hcell), tracked.free⟩

theorem count_eq (tracked : Tracked arena held) (hcell : arena.cell place = some cell) :
    cell.count = held.count place := by
  obtain ⟨node, hnode⟩ := tracked.owned.counted place (tracked.live place cell hcell)
  rw [hcell] at hnode
  exact congrArg Cell.count (Option.some.inj hnode)

theorem count_pos (tracked : Tracked arena held) (hcell : arena.cell place = some cell) :
    0 < cell.count := by
  rw [tracked.count_eq hcell]
  exact List.count_pos_iff.mpr (tracked.live place cell hcell)

theorem cell_of_mem (tracked : Tracked arena held) (hplace : place ∈ held) :
    ∃ cell, arena.cell place = some cell := by
  obtain ⟨node, hnode⟩ := tracked.owned.counted place hplace
  exact ⟨_, hnode⟩

/-- A node that stays at its place. -/
theorem put (tracked : Tracked arena held) (owned : (arena.put place cell).Owned held')
    (hplace : place ∈ held') (hlive : ∀ other ∈ held, other ∈ held') :
    Tracked (arena.put place cell) held' where
  owned := owned
  nodup := keys_upsert_nodup place _ tracked.nodup
  live := fun other found hfound => by
    rw [Arena.cell_put] at hfound
    split at hfound
    next hsame => exact hsame ▸ hplace
    next => exact hlive other (tracked.live other found hfound)
  free := tracked.free

theorem retain (tracked : Tracked arena held) (hplace : place ∈ held) :
    Tracked (arena.retain place) (place :: held) := by
  have howned := tracked.owned.retain hplace
  obtain ⟨cell, hcell⟩ := tracked.cell_of_mem hplace
  rw [Arena.retain, hcell] at howned ⊢
  exact tracked.put howned List.mem_cons_self fun other hother => List.mem_cons_of_mem _ hother

/-- One pointer less at a node that has others. -/
theorem unmerge (tracked : Tracked arena (place :: held)) (hplace : place ∈ held) :
    Tracked (SharedLists.unmerge arena place) held := by
  have howned := (tracked.owned.release false).1
  obtain ⟨cell, hcell⟩ := tracked.cell_of_mem List.mem_cons_self
  have hcount := tracked.count_eq hcell
  rw [List.count_cons_self] at hcount
  have hpositive := List.count_pos_iff.mpr hplace
  rw [Arena.release, hcell] at howned
  simp only [if_neg (show ¬ cell.count - 1 = 0 by omega)] at howned
  rw [SharedLists.unmerge, hcell]
  exact tracked.put howned hplace fun other hother =>
    (List.mem_cons.mp hother).elim (fun hsame => hsame ▸ hplace) id

/-- The last pointer at a node. -/
theorem delete (tracked : Tracked arena (place :: held)) (hplace : place ∉ held) :
    Tracked (arena.delete place) held := by
  have howned := (tracked.owned.release false).1
  obtain ⟨cell, hcell⟩ := tracked.cell_of_mem List.mem_cons_self
  have hcount := tracked.count_eq hcell
  rw [List.count_cons_self, List.count_eq_zero.mpr hplace] at hcount
  rw [Arena.release, hcell] at howned
  simp only [hcount, Nat.zero_add, Nat.sub_self, if_true, Bool.false_eq_true, if_false] at howned
  refine ⟨howned, keys_erase_nodup place tracked.nodup, fun other found hfound => ?_, tracked.free⟩
  rw [Arena.cell_delete] at hfound
  split at hfound
  next => cases hfound
  next hne => exact (List.mem_cons.mp (tracked.live other found hfound)).resolve_left hne

theorem write (tracked : Tracked arena held) (change : Node Value → Node Value) :
    Tracked (arena.write place change) held := by
  cases hcell : arena.cell place with
  | none =>
      rw [Arena.write, hcell]
      exact tracked
  | some cell =>
      have hplace := tracked.live place cell hcell
      have howned := tracked.owned.write hplace change
      rw [Arena.write, hcell] at howned ⊢
      exact tracked.put howned hplace fun _ => id

end Tracked

/-! ## New nodes -/

/-- A new node with one pointer, at a place that was never used. -/
def create (arena : Arena (Node Value)) (node : Node Value) : Nat × Arena (Node Value) :=
  arena.claim (fun _ => false) id node

section Create

variable {arena : Arena (Node Value)} {held : List Nat} (node : Node Value)

theorem create_eq (hfree : arena.free = []) :
    create arena node =
      (arena.next, { arena.put arena.next ⟨1, node⟩ with next := arena.next + 1, free := [] }) := by
  rw [create, Arena.claim, hfree, Arena.claimFrom]

namespace Tracked

theorem cell_next (tracked : Tracked arena held) : arena.cell arena.next = none :=
  tracked.owned.unused _ (Nat.le_refl _)

/-- The new place was not in use. -/
theorem cell_create_fst (tracked : Tracked arena held) :
    arena.cell (create arena node).1 = none := by
  rw [create_eq node tracked.free]
  exact tracked.cell_next

theorem cell_create (tracked : Tracked arena held) (place : Nat) :
    (create arena node).2.cell place =
      if place = (create arena node).1 then some ⟨1, node⟩ else arena.cell place := by
  rw [create_eq node tracked.free]
  exact Arena.cell_put ..

theorem block_create (tracked : Tracked arena held) {place : Nat}
    (hne : place ≠ (SharedLists.create arena node).1) :
    (SharedLists.create arena node).2.block place = arena.block place :=
  Arena.block_eq_of_cell_eq ((tracked.cell_create node place).trans (if_neg hne))

theorem create (tracked : Tracked arena held) :
    Tracked (SharedLists.create arena node).2 ((SharedLists.create arena node).1 :: held) where
  owned := (Arena.claim_claimed tracked.owned).owned
  nodup := by
    rw [create_eq node tracked.free]
    exact keys_upsert_nodup _ _ tracked.nodup
  live := fun place cell hcell => by
    rw [tracked.cell_create] at hcell
    split at hcell
    next hsame => exact hsame ▸ List.mem_cons_self
    next => exact List.mem_cons_of_mem _ (tracked.live place cell hcell)
  free := by rw [create_eq node tracked.free]

theorem links_create (tracked : Tracked arena held) :
    (links (SharedLists.create arena node).2).Perm (node.next.toList ++ links arena) := by
  have hfresh : arena.delete arena.next = arena := by
    rw [Arena.delete, erase_of_not_mem]
    rw [← lookup_isSome_iff]
    exact Option.not_isSome_iff_eq_none.mpr tracked.cell_next
  have hlinks := links_put arena.next ⟨1, node⟩ tracked.nodup
  rw [hfresh] at hlinks
  rw [create_eq node tracked.free]
  exact hlinks

end Tracked

end Create

/-! ## Segments -/

/-- The nodes from a place on up to another one, and their values. -/
inductive Segment (arena : Arena (Node Value)) : Option Nat → List Nat → List Value → Option Nat → Prop
  | nil (stop : Option Nat) : Segment arena stop [] [] stop
  | cons {place : Nat} {next : Option Nat} {value : Value} {places : List Nat} {values : List Value}
      {stop : Option Nat} (hblock : arena.block place = some ⟨next, value⟩)
      (rest : Segment arena next places values stop) :
      Segment arena (some place) (place :: places) (value :: values) stop

/-- All nodes of a list. -/
abbrev Chain (arena : Arena (Node Value)) (head : Option Nat) (places : List Nat)
    (values : List Value) : Prop :=
  Segment arena head places values none

namespace Segment

variable {arena arena' : Arena (Node Value)} {start middle stop : Option Nat}
  {places others : List Nat} {values rest : List Value} {place : Nat} {value : Value}

theorem append (first : Segment arena start places values middle)
    (second : Segment arena middle others rest stop) :
    Segment arena start (places ++ others) (values ++ rest) stop := by
  induction first with
  | nil => exact second
  | cons hblock _ ih => exact .cons hblock (ih second)

/-- What happens elsewhere does not matter. -/
theorem frame (segment : Segment arena start places values stop)
    (hsame : ∀ place ∈ places, arena'.block place = arena.block place) :
    Segment arena' start places values stop := by
  induction segment with
  | nil => exact .nil _
  | cons hblock _ ih =>
      refine .cons ((hsame _ List.mem_cons_self).trans hblock) (ih fun other hother => ?_)
      exact hsame other (List.mem_cons_of_mem _ hother)

theorem live (segment : Segment arena start places values stop) (hplace : place ∈ places) :
    ∃ node, arena.block place = some node := by
  induction segment with
  | nil => cases hplace
  | cons hblock _ ih =>
      rcases List.mem_cons.mp hplace with rfl | hrest
      · exact ⟨_, hblock⟩
      · exact ih hrest

theorem length_eq (segment : Segment arena start places values stop) :
    places.length = values.length := by
  induction segment with
  | nil => rfl
  | cons _ _ ih => exact congrArg (· + 1) ih

/-- One more node at the end. -/
theorem concat (segment : Segment arena start places values (some place))
    (hblock : arena.block place = some ⟨stop, value⟩) :
    Segment arena start (places ++ [place]) (values ++ [value]) stop :=
  segment.append (.cons hblock (.nil stop))

theorem concat_inv (segment : Segment arena start (places ++ [place]) rest stop) :
    ∃ values value, rest = values ++ [value] ∧ Segment arena start places values (some place) ∧
      arena.block place = some ⟨stop, value⟩ := by
  induction places generalizing start rest with
  | nil =>
      cases segment with
      | cons hblock tail =>
          cases tail
          exact ⟨[], _, rfl, .nil _, hblock⟩
  | cons first places ih =>
      cases segment with
      | cons hblock tail =>
          obtain ⟨values, value, rfl, hbefore, hlast⟩ := ih tail
          exact ⟨_ :: values, value, rfl, .cons hblock hbefore, hlast⟩

/-- A place of a segment is its start, or a node of the segment points at it. -/
theorem start_or_linked (segment : Segment arena start places values stop)
    (hplace : place ∈ places) :
    start = some place ∨ ∃ other ∈ places, ∃ value, arena.block other = some ⟨some place, value⟩ := by
  induction segment with
  | nil => cases hplace
  | cons hblock _ ih =>
      rcases List.mem_cons.mp hplace with rfl | hrest
      · exact .inl rfl
      · rcases ih hrest with rfl | ⟨other, hother, hlinked⟩
        · exact .inr ⟨_, List.mem_cons_self, _, hblock⟩
        · exact .inr ⟨other, List.mem_cons_of_mem _ hother, hlinked⟩

/-- There is one list from a place on. -/
theorem unique (first : Chain arena start places values) (second : Chain arena start others rest) :
    places = others ∧ values = rest := by
  induction places generalizing start values others rest with
  | nil =>
      cases first
      cases second
      exact ⟨rfl, rfl⟩
  | cons place places ih =>
      cases first with
      | cons hblock tail =>
          cases second with
          | cons hblock' tail' =>
              obtain ⟨rfl, rfl⟩ := Node.mk.inj (Option.some.inj (hblock.symm.trans hblock'))
              obtain ⟨rfl, rfl⟩ := ih tail tail'
              exact ⟨rfl, rfl⟩

theorem suffix (segment : Segment arena start places values stop) (hplace : place ∈ places) :
    ∃ before after values', places = before ++ place :: after ∧
      Segment arena (some place) (place :: after) values' stop := by
  induction segment with
  | nil => cases hplace
  | cons hblock tail ih =>
      rcases List.mem_cons.mp hplace with rfl | hrest
      · exact ⟨[], _, _, rfl, .cons hblock tail⟩
      · obtain ⟨before, after, values', rfl, hsuffix⟩ := ih hrest
        exact ⟨_ :: before, after, values', rfl, hsuffix⟩

/-- A list does not come back to a place. -/
theorem nodup (chain : Chain arena start places values) : places.Nodup := by
  induction places generalizing start values with
  | nil => exact List.nodup_nil
  | cons place places ih =>
      cases chain with
      | cons hblock tail =>
          refine List.nodup_cons.mpr ⟨fun hagain => ?_, ih tail⟩
          obtain ⟨before, after, values', rfl, hsuffix⟩ := tail.suffix hagain
          have hsame := (List.cons.inj (unique (.cons hblock tail) hsuffix).1).2
          have hlength := congrArg List.length hsame
          rw [List.length_append, List.length_cons] at hlength
          omega

end Segment

theorem cell_of_block {arena : Arena (Node Value)} {place : Nat} {node : Node Value}
    (hblock : arena.block place = some node) :
    ∃ count, arena.cell place = some ⟨count, node⟩ := by
  obtain ⟨cell, hcell, rfl⟩ := Option.map_eq_some_iff.mp hblock
  exact ⟨cell.count, hcell⟩

/-- A list is not longer than its arena. -/
theorem Segment.length_le {arena : Arena (Node Value)} {head : Option Nat} {places : List Nat}
    {values : List Value} (chain : Chain arena head places values) :
    places.length ≤ arena.cells.length := by
  have hkeys : places ⊆ keys arena.cells := by
    intro place hplace
    obtain ⟨node, hblock⟩ := chain.live hplace
    obtain ⟨count, hcell⟩ := cell_of_block hblock
    exact (lookup_isSome_iff place arena.cells).mp (Option.isSome_of_eq_some hcell)
  have hlength := (List.subperm_of_subset chain.nodup hkeys).length_le
  rwa [keys, List.length_map] at hlength

/-! ## Nodes of one list -/

section Unshared

variable {arena : Arena (Node Value)} {heads : List (Option Nat)} {place first second : Nat}
  {value other : Value}

theorem mem_links (hnodup : (keys arena.cells).Nodup)
    (hblock : arena.block first = some ⟨some place, value⟩) : place ∈ links arena := by
  obtain ⟨count, hcell⟩ := cell_of_block hblock
  exact (links_perm_of_cell hnodup hcell).mem_iff.mpr List.mem_cons_self

theorem two_le_count_links (hnodup : (keys arena.cells).Nodup)
    (hfirst : arena.block first = some ⟨some place, value⟩)
    (hsecond : arena.block second = some ⟨some place, other⟩) (hne : second ≠ first) :
    2 ≤ (links arena).count place := by
  obtain ⟨count, hcell⟩ := cell_of_block hfirst
  have hrest : place ∈ links (arena.delete first) :=
    mem_links (keys_erase_nodup first hnodup) ((Arena.block_delete_of_ne arena hne).trans hsecond)
  have hpositive := List.count_pos_iff.mpr hrest
  have hperm := (links_perm_of_cell hnodup hcell).count_eq place
  rw [hperm]
  show 2 ≤ (place :: links (arena.delete first)).count place
  rw [List.count_cons_self]
  omega

theorem count_pointers (heads : List (Option Nat)) (place : Nat) :
    (pointers arena heads).count place =
      (heads.filterMap id).count place + (links arena).count place :=
  List.count_append

/-- Nodes with one pointer on the way from a head are in no other list. -/
theorem Segment.apart {head stop : Option Nat} {places : List Nat} {values : List Value}
    (tracked : Tracked arena (pointers arena (head :: heads)))
    (segment : Segment arena head places values stop)
    (hone : ∀ place ∈ places, ∃ cell, arena.cell place = some cell ∧ ¬ 1 < cell.count)
    {start : Option Nat} (hstart : start ∈ heads) {others : List Nat} {rest : List Value}
    (chain : Chain arena start others rest) : ∀ place ∈ places, place ∉ others := by
  have hcount : ∀ place ∈ places, (pointers arena (head :: heads)).count place ≤ 1 := by
    intro place hplace
    obtain ⟨cell, hcell, hless⟩ := hone place hplace
    rw [← tracked.count_eq hcell]
    omega
  -- a second pointer would lead from the other list to the first shared node
  have hfrom : ∀ {from_ stop : Option Nat} {places : List Nat} {values : List Value},
      Segment arena from_ places values stop →
      (∀ place ∈ places, (pointers arena (head :: heads)).count place ≤ 1) →
      (∀ place, from_ = some place → (pointers arena (head :: heads)).count place ≤ 1 →
        place ∉ others) → ∀ place ∈ places, place ∉ others := by
    intro from_ stop places values segment
    induction segment with
    | nil => exact fun _ _ place hplace => absurd hplace List.not_mem_nil
    | @cons first next value places values stop hblock rest ih =>
        intro hcount hfirst
        obtain ⟨honce, hothers⟩ := List.forall_mem_cons.mp hcount
        have happart := hfirst first rfl honce
        refine List.forall_mem_cons.mpr ⟨happart, ih hothers ?_⟩
        rintro place rfl hplace hmem
        rw [count_pointers] at hplace
        rcases chain.start_or_linked hmem with rfl | ⟨second, hsecond, value', hlinked⟩
        · have hhead : place ∈ (head :: heads).filterMap id :=
            List.mem_filterMap.mpr ⟨some place, List.mem_cons_of_mem _ hstart, rfl⟩
          have hheads := List.count_pos_iff.mpr hhead
          have hlinks := List.count_pos_iff.mpr (mem_links tracked.nodup hblock)
          omega
        · have hlinks := two_le_count_links tracked.nodup hblock hlinked fun hsame =>
            happart (hsame ▸ hsecond)
          omega
  refine hfrom segment hcount ?_
  rintro place rfl hplace hmem
  rw [pointers_cons, Option.toList_some, List.singleton_append, List.count_cons_self,
    count_pointers] at hplace
  rcases chain.start_or_linked hmem with rfl | ⟨second, -, value', hlinked⟩
  · have hheads := List.count_pos_iff.mpr
      (List.mem_filterMap.mpr ⟨some place, hstart, rfl⟩ : place ∈ heads.filterMap id)
    omega
  · have hlinks := List.count_pos_iff.mpr (mem_links tracked.nodup hlinked)
    omega

end Unshared

/-! ## Setting a pointer -/

/-- A pointer of a list is set: its head, or the link of a node. -/
def assign (arena : Arena (Node Value)) (head pointer target : Option Nat) :
    Arena (Node Value) × Option Nat :=
  match pointer with
  | none => (arena, target)
  | some place => (arena.write place fun node => { node with next := target }, head)

/-- The nodes in front of a pointer, which is the head or the link of the last one of them. -/
structure Leads (arena : Arena (Node Value)) (head : Option Nat) (places : List Nat)
    (values : List Value) (pointer stop : Option Nat) : Prop where
  segment : Segment arena head places values stop
  last : pointer = places.getLast?
  nodup : places.Nodup

section Assign

variable {arena : Arena (Node Value)} {head pointer stop : Option Nat} {places : List Nat}
  {values : List Value} (target : Option Nat)

theorem Tracked.assign {held : List Nat} (tracked : Tracked arena held) :
    Tracked (SharedLists.assign arena head pointer target).1 held := by
  cases pointer with
  | none => exact tracked
  | some place => exact tracked.write fun node => { node with next := target }

theorem block_assign_of_ne {place : Nat} (hne : pointer ≠ some place) :
    (assign arena head pointer target).1.block place = arena.block place := by
  cases pointer with
  | none => rfl
  | some other => exact Arena.block_write_of_ne arena _ fun hsame => hne (congrArg some hsame.symm)

theorem cell_assign_of_ne {place : Nat} (hne : pointer ≠ some place) :
    (assign arena head pointer target).1.cell place = arena.cell place := by
  cases pointer with
  | none => rfl
  | some other =>
      rw [assign]
      show (arena.write other _).cell place = _
      rw [Arena.write]
      cases arena.cell other with
      | none => rfl
      | some cell =>
          exact (Arena.cell_put ..).trans (if_neg fun hsame => hne (congrArg some hsame.symm))

theorem Leads.assign (leads : Leads arena head places values pointer stop) :
    Leads (SharedLists.assign arena head pointer target).1
      (SharedLists.assign arena head pointer target).2 places values pointer target := by
  obtain ⟨segment, hlast, hnodup⟩ := leads
  refine ⟨?_, hlast, hnodup⟩
  rcases List.eq_nil_or_concat' places with rfl | ⟨before, place, rfl⟩
  · rw [List.getLast?_nil] at hlast
    subst hlast
    cases segment
    exact .nil _
  · rw [List.getLast?_concat] at hlast
    subst hlast
    obtain ⟨values, value, rfl, hbefore, hblock⟩ := segment.concat_inv
    have happart : place ∉ before := fun hmem =>
      List.disjoint_of_nodup_append hnodup hmem List.mem_cons_self
    refine (hbefore.frame fun other hother => ?_).concat ?_
    · exact block_assign_of_ne target fun hsame => happart (Option.some.inj hsame ▸ hother)
    · show (arena.write place _).block place = _
      rw [Arena.block_write_self, hblock]
      rfl

/-- The pointer is exchanged for another one. -/
theorem Leads.pointers_assign {held : List Nat} (tracked : Tracked arena held)
    (leads : Leads arena head places values pointer stop) (heads : List (Option Nat)) :
    (stop.toList ++ pointers (SharedLists.assign arena head pointer target).1
        ((SharedLists.assign arena head pointer target).2 :: heads)).Perm
      (target.toList ++ pointers arena (head :: heads)) := by
  obtain ⟨segment, hlast, hnodup⟩ := leads
  rcases List.eq_nil_or_concat' places with rfl | ⟨before, place, rfl⟩
  · rw [List.getLast?_nil] at hlast
    subst hlast
    cases segment
    show (head.toList ++ pointers arena (target :: heads)).Perm _
    rw [pointers_cons, pointers_cons, ← List.append_assoc, ← List.append_assoc]
    exact List.perm_append_comm.append_right _
  · rw [List.getLast?_concat] at hlast
    subst hlast
    obtain ⟨values, value, rfl, -, hblock⟩ := segment.concat_inv
    obtain ⟨count, hcell⟩ := cell_of_block hblock
    have hlinks := links_put_of_cell ⟨count, ⟨target, value⟩⟩ tracked.nodup hcell
    show (stop.toList ++ pointers (arena.write place _) (head :: heads)).Perm _
    rw [Arena.write, hcell, pointers, pointers, ← List.append_assoc, ← List.append_assoc]
    refine (List.perm_append_comm.append_right _).trans ?_
    rw [List.append_assoc]
    refine (hlinks.append_left _).trans ?_
    rw [← List.append_assoc]
    exact List.perm_append_comm.append_right _

end Assign

end DeepcV2x.Foundation.SharedLists
