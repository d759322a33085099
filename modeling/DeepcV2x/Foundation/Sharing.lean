import DeepcV2x.Foundation.Association
import Mathlib.Data.List.Count

/-!
# Reference-counted blocks

An arena holds counted blocks at places that are never used twice, and a free
list of the blocks that nobody holds.  The holders are the list of the places
they point at, one entry a holder: in an owned arena the count of a block is
the number of its entries.
-/

namespace DeepcV2x.Foundation.Sharing

open Association

structure Cell (Block : Type*) where
  count : Nat
  block : Block

structure Arena (Block : Type*) where
  cells : Table Nat (Cell Block)
  next : Nat
  free : List Nat

namespace Arena

variable {Block : Type*}

def empty : Arena Block := ⟨[], 0, []⟩

def cell (arena : Arena Block) (place : Nat) : Option (Cell Block) := lookup place arena.cells

def block (arena : Arena Block) (place : Nat) : Option Block :=
  (arena.cell place).map Cell.block

def put (arena : Arena Block) (place : Nat) (cell : Cell Block) : Arena Block :=
  { arena with cells := upsert place (fun _ => cell) arena.cells }

/-- A deleted block is not found any more. -/
def delete (arena : Arena Block) (place : Nat) : Arena Block :=
  { arena with cells := erase place arena.cells }

/-- A change of the block that leaves its count alone. -/
def write (arena : Arena Block) (place : Nat) (change : Block → Block) : Arena Block :=
  match arena.cell place with
  | none => arena
  | some cell => arena.put place { cell with block := change cell.block }

def retain (arena : Arena Block) (place : Nat) : Arena Block :=
  match arena.cell place with
  | none => arena
  | some cell => arena.put place { cell with count := cell.count + 1 }

/-- The last holder puts the block on the free list or deletes it. -/
def release (arena : Arena Block) (keep : Bool) (place : Nat) : Arena Block :=
  match arena.cell place with
  | none => arena
  | some cell =>
      if cell.count - 1 = 0 then
        if keep then
          { arena.put place { cell with count := 0 } with free := place :: arena.free }
        else arena.delete place
      else arena.put place { cell with count := cell.count - 1 }

/-- The first free block that fits, else a new one; the blocks in front of it are deleted. -/
def claimFrom (fits : Block → Bool) (reset : Block → Block) (fresh : Block)
    (arena : Arena Block) : List Nat → Nat × Arena Block
  | [] =>
      (arena.next,
        { arena.put arena.next ⟨1, fresh⟩ with next := arena.next + 1, free := [] })
  | place :: rest =>
      match arena.cell place with
      | none => claimFrom fits reset fresh arena rest
      | some cell =>
          if fits cell.block then
            (place, { arena.put place ⟨1, reset cell.block⟩ with free := rest })
          else claimFrom fits reset fresh (arena.delete place) rest

def claim (arena : Arena Block) (fits : Block → Bool) (reset : Block → Block) (fresh : Block) :
    Nat × Arena Block :=
  claimFrom fits reset fresh arena arena.free

/-! ## Reading what was written -/

theorem cell_put (arena : Arena Block) (place other : Nat) (cell : Cell Block) :
    (arena.put place cell).cell other = if other = place then some cell else arena.cell other :=
  lookup_upsert place other _ arena.cells

theorem cell_delete (arena : Arena Block) (place other : Nat) :
    (arena.delete place).cell other = if other = place then none else arena.cell other :=
  lookup_erase place other arena.cells

theorem block_eq_of_cell_eq {arena arena' : Arena Block} {place : Nat}
    (hcell : arena'.cell place = arena.cell place) : arena'.block place = arena.block place := by
  rw [block, block, hcell]

theorem block_put_of_ne (arena : Arena Block) {place other : Nat} (cell : Cell Block)
    (hne : other ≠ place) : (arena.put place cell).block other = arena.block other :=
  block_eq_of_cell_eq (by rw [cell_put, if_neg hne])

theorem block_put_self (arena : Arena Block) (place : Nat) (cell : Cell Block) :
    (arena.put place cell).block place = some cell.block := by
  rw [block, cell_put, if_pos rfl]
  rfl

theorem block_delete_of_ne (arena : Arena Block) {place other : Nat} (hne : other ≠ place) :
    (arena.delete place).block other = arena.block other :=
  block_eq_of_cell_eq (by rw [cell_delete, if_neg hne])

theorem block_write_of_ne (arena : Arena Block) {place other : Nat} (change : Block → Block)
    (hne : other ≠ place) : (arena.write place change).block other = arena.block other := by
  unfold write
  cases arena.cell place with
  | none => rfl
  | some cell => exact arena.block_put_of_ne _ hne

theorem block_write_self (arena : Arena Block) (place : Nat) (change : Block → Block) :
    (arena.write place change).block place = (arena.block place).map change := by
  unfold write
  cases hcell : arena.cell place with
  | none => simp [block, hcell]
  | some cell =>
      rw [block_put_self, block, hcell]
      rfl

theorem block_retain (arena : Arena Block) (place other : Nat) :
    (arena.retain place).block other = arena.block other := by
  unfold retain
  cases hcell : arena.cell place with
  | none => rfl
  | some cell =>
      by_cases hne : other = place
      · subst hne
        rw [block_put_self, block, hcell]
        rfl
      · exact arena.block_put_of_ne _ hne

/-! ## Owned arenas -/

/-- The count of every held block is the number of its holders; a free block has none. -/
structure Owned (arena : Arena Block) (held : List Nat) : Prop where
  counted : ∀ place ∈ held, ∃ block, arena.cell place = some ⟨held.count place, block⟩
  freeCounted : ∀ place ∈ arena.free, ∃ block, arena.cell place = some ⟨0, block⟩
  freeNodup : arena.free.Nodup
  unused : ∀ place, arena.next ≤ place → arena.cell place = none

namespace Owned

variable {arena : Arena Block} {held held' : List Nat} {place : Nat}

theorem empty : Owned (Arena.empty : Arena Block) [] where
  counted := by simp
  freeCounted := by simp [Arena.empty]
  freeNodup := List.nodup_nil
  unused := fun _ _ => rfl

theorem perm (owned : Owned arena held) (hperm : held.Perm held') : Owned arena held' where
  counted := fun place hplace => by
    rw [← hperm.count_eq]
    exact owned.counted place (hperm.mem_iff.mpr hplace)
  freeCounted := owned.freeCounted
  freeNodup := owned.freeNodup
  unused := owned.unused

theorem block_isSome (owned : Owned arena held) (hplace : place ∈ held) :
    ∃ block, arena.block place = some block := by
  obtain ⟨block, hcell⟩ := owned.counted place hplace
  exact ⟨block, by rw [Arena.block, hcell]; rfl⟩

theorem not_free (owned : Owned arena held) (hplace : place ∈ held) : place ∉ arena.free := by
  intro hfree
  obtain ⟨_, hheld⟩ := owned.counted place hplace
  obtain ⟨_, hzero⟩ := owned.freeCounted place hfree
  have hcount : held.count place = 0 :=
    congrArg Cell.count (Option.some.inj (hheld.symm.trans hzero))
  exact List.count_eq_zero.mp hcount hplace

theorem lt_next (owned : Owned arena held) (hplace : place ∈ held) : place < arena.next := by
  obtain ⟨_, hcell⟩ := owned.counted place hplace
  by_contra hge
  rw [owned.unused place (Nat.le_of_not_lt hge)] at hcell
  cases hcell

/-- A block with one holder is held by nobody else. -/
theorem not_mem_of_count_one (owned : Owned arena (place :: held)) {cell : Cell Block}
    (hcell : arena.cell place = some cell) (hone : cell.count = 1) : place ∉ held := by
  obtain ⟨_, hheld⟩ := owned.counted place List.mem_cons_self
  have hcount : cell.count = (place :: held).count place := by
    rw [hcell] at hheld
    exact congrArg Cell.count (Option.some.inj hheld)
  rw [hone, List.count_cons_self] at hcount
  exact List.count_eq_zero.mp (by omega)

/-- An exchange of a held cell for one with the count of the holders to come. -/
theorem put (owned : Owned arena held) (hplace : place ∈ held) (block : Block)
    (hsame : ∀ other ∈ held', other ≠ place → other ∈ held ∧ held'.count other = held.count other) :
    Owned (arena.put place ⟨held'.count place, block⟩) held' where
  counted := fun other hother => by
    rw [cell_put]
    by_cases hne : other = place
    · subst hne
      exact ⟨block, if_pos rfl⟩
    · obtain ⟨hheld, hcount⟩ := hsame other hother hne
      rw [if_neg hne, hcount]
      exact owned.counted other hheld
  freeCounted := fun other hfree => by
    have hne : other ≠ place := fun heq => owned.not_free hplace (heq ▸ hfree)
    rw [cell_put, if_neg hne]
    exact owned.freeCounted other hfree
  freeNodup := owned.freeNodup
  unused := fun other hother => by
    have hlt := owned.lt_next hplace
    have hge : arena.next ≤ other := hother
    rw [cell_put, if_neg (by omega)]
    exact owned.unused other hge

theorem write (owned : Owned arena held) (hplace : place ∈ held) (change : Block → Block) :
    Owned (arena.write place change) held := by
  obtain ⟨block, hcell⟩ := owned.counted place hplace
  unfold Arena.write
  rw [hcell]
  exact owned.put hplace (change block) fun other hother _ => ⟨hother, rfl⟩

theorem retain (owned : Owned arena held) (hplace : place ∈ held) :
    Owned (arena.retain place) (place :: held) := by
  obtain ⟨block, hcell⟩ := owned.counted place hplace
  unfold Arena.retain
  rw [hcell]
  have hcount : (place :: held).count place = held.count place + 1 := List.count_cons_self
  simp only
  rw [← hcount]
  refine owned.put hplace block fun other hother hne => ?_
  exact ⟨(List.mem_cons.mp hother).resolve_left hne, List.count_cons_of_ne (Ne.symm hne)⟩

theorem release (owned : Owned arena (place :: held)) (keep : Bool) :
    Owned (arena.release keep place) held ∧
      ∀ other ∈ held, (arena.release keep place).block other = arena.block other := by
  obtain ⟨block, hcell⟩ := owned.counted place List.mem_cons_self
  have hcount : (place :: held).count place - 1 = held.count place := by
    rw [List.count_cons_self, Nat.add_sub_cancel]
  have hothers : ∀ other ∈ held, other ≠ place →
      other ∈ place :: held ∧ held.count other = (place :: held).count other :=
    fun other hother hne =>
      ⟨List.mem_cons_of_mem _ hother, (List.count_cons_of_ne (Ne.symm hne)).symm⟩
  have hstay := owned.put List.mem_cons_self block hothers
  unfold Arena.release
  rw [hcell]
  simp only [hcount]
  by_cases hzero : held.count place = 0
  · have hnot : place ∉ held := List.count_eq_zero.mp hzero
    have hne : ∀ other ∈ held, other ≠ place := fun other hother heq => hnot (heq ▸ hother)
    rw [if_pos hzero]
    rw [hzero] at hstay
    cases keep with
    | true =>
        refine ⟨⟨hstay.counted, ?_, ?_, hstay.unused⟩, fun other hother =>
          arena.block_put_of_ne _ (hne other hother)⟩
        · intro other hother
          rcases List.mem_cons.mp hother with rfl | hfree
          · exact ⟨block, (cell_put ..).trans (if_pos rfl)⟩
          · exact hstay.freeCounted other hfree
        · exact List.nodup_cons.mpr ⟨owned.not_free List.mem_cons_self, owned.freeNodup⟩
    | false =>
        refine ⟨⟨fun other hother => ?_, fun other hfree => ?_, owned.freeNodup,
          fun other hother => ?_⟩, fun other hother => arena.block_delete_of_ne (hne other hother)⟩
        · obtain ⟨hmem, hsame⟩ := hothers other hother (hne other hother)
          rw [if_neg Bool.false_ne_true, cell_delete, if_neg (hne other hother), hsame]
          exact owned.counted other hmem
        · have hdiff : other ≠ place := fun heq =>
            owned.not_free List.mem_cons_self (heq ▸ hfree)
          rw [if_neg Bool.false_ne_true, cell_delete, if_neg hdiff]
          exact owned.freeCounted other hfree
        · rw [if_neg Bool.false_ne_true, cell_delete]
          split
          · rfl
          · exact owned.unused other hother
  · rw [if_neg hzero]
    refine ⟨hstay, fun other _ => ?_⟩
    by_cases hne : other = place
    · subst hne
      rw [block_put_self, Arena.block, hcell]
      rfl
    · exact arena.block_put_of_ne _ hne

end Owned

/-! ## Claimed blocks -/

variable {fits : Block → Bool} {reset : Block → Block} {fresh : Block}

/-- What a claim gives: a place that nobody held, with a new block or a recycled one. -/
structure Claimed (fits : Block → Bool) (reset : Block → Block) (fresh : Block)
    (arena : Arena Block) (held : List Nat) (claimed : Nat × Arena Block) : Prop where
  owned : Owned claimed.2 (claimed.1 :: held)
  apart : claimed.1 ∉ held
  blocks : ∀ other ∈ held, claimed.2.block other = arena.block other
  block : claimed.2.block claimed.1 = some fresh ∨
    ∃ block, fits block = true ∧ claimed.2.block claimed.1 = some (reset block)

theorem claimFrom_claimed (places : List Nat) {arena : Arena Block} {held : List Nat}
    (owned : Owned { arena with free := places } held) :
    Claimed fits reset fresh arena held (claimFrom fits reset fresh arena places) := by
  induction places generalizing arena with
  | nil =>
      have happart : arena.next ∉ held := fun hmem => absurd (owned.lt_next hmem) (Nat.lt_irrefl _)
      have hne : ∀ other ∈ held, other ≠ arena.next := fun other hother heq =>
        happart (heq ▸ hother)
      rw [claimFrom]
      refine ⟨⟨fun other hother => ?_, by simp, List.nodup_nil, fun other hother => ?_⟩, happart,
        fun other hother => arena.block_put_of_ne _ (hne other hother),
        Or.inl (arena.block_put_self _ _)⟩
      · rcases List.mem_cons.mp hother with rfl | hmem
        · rw [List.count_cons_self, List.count_eq_zero.mpr happart]
          exact ⟨fresh, (cell_put ..).trans (if_pos rfl)⟩
        · rw [List.count_cons_of_ne (Ne.symm (hne other hmem))]
          obtain ⟨block, hcell⟩ := owned.counted other hmem
          exact ⟨block, (cell_put ..).trans ((if_neg (hne other hmem)).trans hcell)⟩
      · have hlt : arena.next + 1 ≤ other := hother
        exact (cell_put ..).trans ((if_neg (by omega)).trans (owned.unused other (by
          change arena.next ≤ other
          omega)))
  | cons place rest ih =>
      obtain ⟨block, hcell⟩ := owned.freeCounted place List.mem_cons_self
      obtain ⟨hfresh, hnodup⟩ := List.nodup_cons.mp owned.freeNodup
      replace hcell : arena.cell place = some ⟨0, block⟩ := hcell
      have happart : place ∉ held := fun hmem => owned.not_free hmem List.mem_cons_self
      have hne : ∀ other ∈ held, other ≠ place := fun other hother heq => happart (heq ▸ hother)
      have hrest : ∀ other ∈ rest, other ≠ place := fun other hother heq => hfresh (heq ▸ hother)
      rw [claimFrom]
      simp only [hcell]
      by_cases hfits : fits block = true
      · rw [if_pos hfits]
        refine ⟨⟨fun other hother => ?_, fun other hother => ?_, hnodup, fun other hother => ?_⟩,
          happart, fun other hother => arena.block_put_of_ne _ (hne other hother),
          Or.inr ⟨block, hfits, arena.block_put_self _ _⟩⟩
        · rcases List.mem_cons.mp hother with rfl | hmem
          · rw [List.count_cons_self, List.count_eq_zero.mpr happart]
            exact ⟨reset block, (cell_put ..).trans (if_pos rfl)⟩
          · rw [List.count_cons_of_ne (Ne.symm (hne other hmem))]
            obtain ⟨kept, hkept⟩ := owned.counted other hmem
            exact ⟨kept, (cell_put ..).trans ((if_neg (hne other hmem)).trans hkept)⟩
        · obtain ⟨kept, hkept⟩ := owned.freeCounted other (List.mem_cons_of_mem _ hother)
          exact ⟨kept, (cell_put ..).trans ((if_neg (hrest other hother)).trans hkept)⟩
        · have hnone : arena.cell other = none := owned.unused other hother
          have hdiff : other ≠ place := by
            rintro rfl
            rw [hcell] at hnone
            cases hnone
          exact (cell_put ..).trans ((if_neg hdiff).trans hnone)
      · rw [if_neg hfits]
        have howned : Owned { arena.delete place with free := rest } held := by
          refine ⟨fun other hother => ?_, fun other hother => ?_, hnodup, fun other hother => ?_⟩
          · obtain ⟨kept, hkept⟩ := owned.counted other hother
            exact ⟨kept, (cell_delete ..).trans ((if_neg (hne other hother)).trans hkept)⟩
          · obtain ⟨kept, hkept⟩ := owned.freeCounted other (List.mem_cons_of_mem _ hother)
            exact ⟨kept, (cell_delete ..).trans ((if_neg (hrest other hother)).trans hkept)⟩
          · refine (cell_delete ..).trans ?_
            split
            · rfl
            · exact owned.unused other hother
        have hclaimed := ih howned
        exact ⟨hclaimed.owned, hclaimed.apart, fun other hother =>
          (hclaimed.blocks other hother).trans (arena.block_delete_of_ne (hne other hother)),
          hclaimed.block⟩

theorem claim_claimed {arena : Arena Block} {held : List Nat} (owned : Owned arena held) :
    Claimed fits reset fresh arena held (arena.claim fits reset fresh) :=
  claimFrom_claimed arena.free owned

end Arena

/-! ## Handles on blocks -/

variable {Block Handle Value : Type*}

/-- The places that the handles point at. -/
def places (place : Handle → Option Nat) (holders : List (Handle × Value)) : List Nat :=
  holders.filterMap fun holder => place holder.1

/-- What a handle reads depends on its own block alone. -/
def ReadsOwnBlock (place : Handle → Option Nat) (reads : Arena Block → Handle → Value → Prop) :
    Prop :=
  ∀ arena arena' handle value,
    (∀ at_, place handle = some at_ → arena'.block at_ = arena.block at_) →
    reads arena handle value → reads arena' handle value

/-- All handles, temporaries included, own their blocks and read their values. -/
structure Held (place : Handle → Option Nat) (reads : Arena Block → Handle → Value → Prop)
    (arena : Arena Block) (holders : List (Handle × Value)) : Prop where
  owned : arena.Owned (places place holders)
  reads : ∀ holder ∈ holders, reads arena holder.1 holder.2

namespace Held

open Arena

variable {place : Handle → Option Nat} {reads : Arena Block → Handle → Value → Prop}
  {arena arena' : Arena Block} {handle : Handle} {value : Value}
  {holders rest : List (Handle × Value)} {at_ : Nat}

theorem mem_places {holder : Handle × Value} (hmem : holder ∈ holders)
    (hplace : place holder.1 = some at_) : at_ ∈ places place holders :=
  List.mem_filterMap.mpr ⟨holder, hmem, hplace⟩

theorem places_cons_some (value : Value) (rest : List (Handle × Value))
    (hplace : place handle = some at_) :
    places place ((handle, value) :: rest) = at_ :: places place rest :=
  List.filterMap_cons_some hplace

theorem places_cons_none (value : Value) (rest : List (Handle × Value))
    (hplace : place handle = none) :
    places place ((handle, value) :: rest) = places place rest :=
  List.filterMap_cons_none hplace

theorem perm (held : Held place reads arena holders) (hperm : holders.Perm rest) :
    Held place reads arena rest :=
  ⟨held.owned.perm (hperm.filterMap _), fun holder hmem =>
    held.reads holder (hperm.mem_iff.mpr hmem)⟩

theorem head (held : Held place reads arena ((handle, value) :: rest)) :
    reads arena handle value :=
  held.reads _ List.mem_cons_self

theorem tail_reads (held : Held place reads arena ((handle, value) :: rest)) :
    ∀ holder ∈ rest, reads arena holder.1 holder.2 := fun holder hmem =>
  held.reads holder (List.mem_cons_of_mem _ hmem)

/-- Handles whose blocks are as they were read what they read. -/
theorem reads_of_blocks (hlocal : ReadsOwnBlock place reads)
    (hreads : ∀ holder ∈ rest, reads arena holder.1 holder.2)
    (hblocks : ∀ at_ ∈ places place rest, arena'.block at_ = arena.block at_) :
    ∀ holder ∈ rest, reads arena' holder.1 holder.2 := fun holder hmem =>
  hlocal arena arena' _ _ (fun at_ hplace => hblocks at_ (mem_places hmem hplace))
    (hreads holder hmem)

theorem cons (hlocal : ReadsOwnBlock place reads)
    (hreads : ∀ holder ∈ rest, reads arena holder.1 holder.2)
    (howned : arena'.Owned (places place ((handle, value) :: rest)))
    (hblocks : ∀ at_ ∈ places place rest, arena'.block at_ = arena.block at_)
    (hhead : reads arena' handle value) : Held place reads arena' ((handle, value) :: rest) := by
  refine ⟨howned, fun holder hmem => ?_⟩
  rcases List.mem_cons.mp hmem with rfl | hrest
  · exact hhead
  · exact reads_of_blocks hlocal hreads hblocks holder hrest

/-- Another handle on the block of this one. -/
theorem retain (held : Held place reads arena ((handle, value) :: rest))
    (hlocal : ReadsOwnBlock place reads) (hplace : place handle = some at_) {handle' : Handle}
    {value' : Value} (hplace' : place handle' = some at_) (hreads : reads arena handle' value') :
    Held place reads (arena.retain at_) ((handle', value') :: (handle, value) :: rest) := by
  have hmem : at_ ∈ places place ((handle, value) :: rest) :=
    mem_places List.mem_cons_self hplace
  refine cons hlocal held.reads ?_ (fun other _ => block_retain arena at_ other) ?_
  · rw [places_cons_some _ _ hplace']
    exact held.owned.retain hmem
  · exact hlocal arena _ _ _ (fun other _ => block_retain arena at_ other) hreads

theorem release (held : Held place reads arena ((handle, value) :: rest))
    (hlocal : ReadsOwnBlock place reads) (hplace : place handle = some at_) (keep : Bool) :
    Held place reads (arena.release keep at_) rest := by
  have howned := held.owned
  rw [places_cons_some _ _ hplace] at howned
  exact ⟨(howned.release keep).1,
    reads_of_blocks hlocal held.tail_reads (howned.release keep).2⟩

end Held

end DeepcV2x.Foundation.Sharing
