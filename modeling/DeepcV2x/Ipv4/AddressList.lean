import DeepcV2x.Ipv4.AddressGenerator
import Mathlib.Data.Nat.Bitwise

/-!
# The list of allocated addresses

The blocks are sorted and disjoint, and hold exactly the addresses that were
added.  The answers about single addresses are therefore right.  The answer
about a network looks at the ends of the blocks only, and is the opposite of
what it is documented to be.
-/

namespace DeepcV2x.Ipv4

/-! ## Blocks -/

/-- Blocks behind an address, each behind the one before. -/
def Blocks : Nat → List Entry → Prop
  | _, [] => True
  | floor, i :: rest =>
      floor < i.addrLow ∧ i.addrLow ≤ i.addrHigh ∧ i.addrHigh < 4294967296 ∧ Blocks i.addrHigh rest

/-- An address in one of the blocks. -/
def InUse (entries : List Entry) (addr : Nat) : Prop :=
  ∃ i ∈ entries, i.addrLow ≤ addr ∧ addr ≤ i.addrHigh

instance (entries : List Entry) (addr : Nat) : Decidable (InUse entries addr) :=
  inferInstanceAs (Decidable (∃ i ∈ entries, i.addrLow ≤ addr ∧ addr ≤ i.addrHigh))

theorem inUse_cons {i : Entry} {rest : List Entry} {addr : Nat} :
    InUse (i :: rest) addr ↔ (i.addrLow ≤ addr ∧ addr ≤ i.addrHigh) ∨ InUse rest addr :=
  List.exists_mem_cons_iff _ i rest

theorem Blocks.le_of_mem {entries : List Entry} {floor : Nat} (blocks : Blocks floor entries)
    {i : Entry} (hmem : i ∈ entries) : i.addrLow ≤ i.addrHigh := by
  induction entries generalizing floor with
  | nil => cases hmem
  | cons first rest ih =>
      rcases List.mem_cons.mp hmem with rfl | hmem
      · exact blocks.2.1
      · exact ih blocks.2.2.2 hmem

theorem Blocks.lt_of_mem {entries : List Entry} {floor : Nat} (blocks : Blocks floor entries)
    {i : Entry} (hmem : i ∈ entries) : i.addrHigh < 4294967296 := by
  induction entries generalizing floor with
  | nil => cases hmem
  | cons first rest ih =>
      rcases List.mem_cons.mp hmem with rfl | hmem
      · exact blocks.2.2.1
      · exact ih blocks.2.2.2 hmem

/-- All addresses of the blocks are behind the address they are behind. -/
theorem Blocks.lt {entries : List Entry} {floor addr : Nat} (blocks : Blocks floor entries)
    (hinUse : InUse entries addr) : floor < addr := by
  induction entries generalizing floor with
  | nil =>
      obtain ⟨i, hmem, -⟩ := hinUse
      cases hmem
  | cons i rest ih =>
      obtain ⟨hfloor, hle, -, hrest⟩ := blocks
      rcases inUse_cons.mp hinUse with ⟨hlow, -⟩ | hinUse
      · exact Nat.lt_of_lt_of_le hfloor hlow
      · exact Nat.lt_trans (Nat.lt_of_lt_of_le hfloor hle) (ih hrest hinUse)

/-- No address is in two blocks. -/
theorem Blocks.eq_of_mem {entries : List Entry} {floor addr : Nat} (blocks : Blocks floor entries)
    {i j : Entry} (hi : i ∈ entries) (hj : j ∈ entries)
    (hin : i.addrLow ≤ addr ∧ addr ≤ i.addrHigh) (hjn : j.addrLow ≤ addr ∧ addr ≤ j.addrHigh) :
    i = j := by
  induction entries generalizing floor with
  | nil => cases hi
  | cons first rest ih =>
      obtain ⟨-, -, -, hrest⟩ := blocks
      rcases List.mem_cons.mp hi with rfl | hi' <;> rcases List.mem_cons.mp hj with rfl | hj'
      · rfl
      · exact absurd hin.2 (Nat.not_le_of_lt (hrest.lt ⟨j, hj', hjn⟩))
      · exact absurd hjn.2 (Nat.not_le_of_lt (hrest.lt ⟨i, hi', hin⟩))
      · exact ih hrest hi' hj'

theorem Blocks.of_head {entries : List Entry} {floor higher : Nat} (blocks : Blocks floor entries)
    (hhead : ∀ i ∈ entries.head?, higher < i.addrLow) : Blocks higher entries := by
  cases entries with
  | nil => trivial
  | cons i rest => exact ⟨hhead i rfl, blocks.2⟩

/-- In sorted blocks, each one ends before the next ones begin. -/
theorem Blocks.pairwise {entries : List Entry} {floor : Nat} (blocks : Blocks floor entries) :
    entries.Pairwise fun first second => first.addrHigh < second.addrLow := by
  induction entries generalizing floor with
  | nil => exact List.Pairwise.nil
  | cons i rest ih =>
      obtain ⟨-, -, -, hrest⟩ := blocks
      refine List.pairwise_cons.mpr ⟨fun other hother => ?_, ih hrest⟩
      exact hrest.lt ⟨other, hother, Nat.le_refl _, hrest.le_of_mem hother⟩

namespace AddressGenerator

theorem pred32_of_pos {a : Nat} (hpos : 0 < a) (hword : a < 4294967296) : pred32 a = a - 1 := by
  rw [pred32]
  omega

/-- An address of the blocks is not added again. -/
theorem collision_spec {entries : List Entry} {floor addr : Nat} (blocks : Blocks floor entries)
    (hinUse : InUse entries addr) :
    ∃ next, collision true entries = some (next, decide (¬ InUse entries addr)) ∧
      Blocks floor next ∧ ∀ other, InUse next other ↔ other = addr ∨ InUse entries other := by
  rw [collision, if_pos rfl, decide_eq_false (not_not_intro hinUse)]
  refine ⟨entries, rfl, blocks, fun other => ⟨Or.inr, fun hother => ?_⟩⟩
  rcases hother with rfl | hother
  · exact hinUse
  · exact hother

/-- Adding an address adds it and nothing else, and tells whether it is new. -/
theorem addEntry_spec {addr : Nat} (hword : addr < 4294967296) {entries : List Entry} {floor : Nat}
    (blocks : Blocks floor entries) (hfloor : floor < addr) :
    ∃ next, addEntry true addr entries = some (next, decide (¬ InUse entries addr)) ∧
      Blocks floor next ∧ ∀ other, InUse next other ↔ other = addr ∨ InUse entries other := by
  induction entries generalizing floor with
  | nil =>
      have hnone : ∀ other, ¬ InUse [] other := fun _ ⟨_, hmem, _⟩ => nomatch hmem
      refine ⟨[⟨addr, addr⟩], by rw [addEntry, decide_eq_true (hnone addr)],
        ⟨hfloor, Nat.le_refl addr, hword, trivial⟩, fun other => ?_⟩
      rw [inUse_cons, or_iff_left (hnone other), or_iff_left (hnone other)]
      exact ⟨fun hin => Nat.le_antisymm hin.2 hin.1, fun heq => ⟨heq.ge, heq.le⟩⟩
  | cons i rest ih =>
      have hlow := blocks.1
      have hle := blocks.2.1
      have hhigh := blocks.2.2.1
      have hrest := blocks.2.2.2
      rw [addEntry, pred32_of_pos (Nat.zero_lt_of_lt hlow) (Nat.lt_of_le_of_lt hle hhigh)]
      by_cases hin : i.addrLow ≤ addr ∧ addr ≤ i.addrHigh
      · -- the address is in the block
        rw [if_pos hin]
        exact collision_spec blocks (inUse_cons.mpr (Or.inl hin))
      rw [if_neg hin]
      by_cases hbefore : addr < i.addrLow - 1
      · -- a block of its own, before this one
        have hnot : ¬ InUse (i :: rest) addr := fun hinUse =>
          Nat.lt_irrefl addr (@Blocks.lt (i :: rest) addr addr ⟨by omega, blocks.2⟩ hinUse)
        rw [if_pos hbefore, decide_eq_true hnot]
        refine ⟨_, rfl, ⟨hfloor, Nat.le_refl addr, hword, by simp only; omega, blocks.2⟩, fun other => ?_⟩
        rw [inUse_cons]
        exact or_congr_left
          ⟨fun hin => Nat.le_antisymm hin.2 hin.1, fun heq => ⟨heq.ge, heq.le⟩⟩
      rw [if_neg hbefore]
      by_cases hnext : addr = (i.addrHigh + 1) % 4294967296
      · -- the block grows upward
        have haddr : addr = i.addrHigh + 1 := by omega
        rw [if_pos hnext]
        by_cases hhead : addr ∈ rest.head?.map Entry.addrLow
        · have hinUse : InUse (i :: rest) addr := by
            obtain ⟨j, hj, rfl⟩ := Option.mem_map.mp hhead
            cases rest with
            | nil => cases hj
            | cons k rest =>
                obtain rfl : k = j := Option.some.inj hj
                exact ⟨k, List.mem_cons_of_mem i List.mem_cons_self, Nat.le_refl _, hrest.2.1⟩
          rw [if_pos hhead]
          exact collision_spec blocks hinUse
        · have hbehind : Blocks addr rest := by
            refine hrest.of_head fun j hj => ?_
            have hne : j.addrLow ≠ addr := fun heq => hhead (Option.mem_map.mpr ⟨j, hj, heq⟩)
            cases rest with
            | nil => cases hj
            | cons k rest =>
                obtain rfl : k = j := Option.some.inj hj
                have := hrest.1
                omega
          have hnot : ¬ InUse (i :: rest) addr := fun hinUse =>
            (inUse_cons.mp hinUse).elim hin fun hrest =>
              Nat.lt_irrefl addr (hbehind.lt hrest)
          rw [if_neg hhead, decide_eq_true hnot]
          refine ⟨_, rfl, ⟨hlow, by simp only; omega, hword, hbehind⟩, fun other => ?_⟩
          rw [inUse_cons, inUse_cons, ← or_assoc]
          refine or_congr_left ?_
          simp only
          omega
      rw [if_neg hnext]
      by_cases hprevious : addr = i.addrLow - 1
      · -- the block grows downward
        have hnot : ¬ InUse (i :: rest) addr := fun hinUse =>
          Nat.lt_irrefl addr (@Blocks.lt (i :: rest) addr addr ⟨by omega, blocks.2⟩ hinUse)
        rw [if_pos hprevious, decide_eq_true hnot]
        refine ⟨_, rfl, ⟨hfloor, by simp only; omega, hhigh, hrest⟩, fun other => ?_⟩
        rw [inUse_cons, inUse_cons, ← or_assoc]
        refine or_congr_left ?_
        simp only
        omega
      · -- the address is behind the block
        rw [if_neg hprevious]
        obtain ⟨next, hadd, hblocks, hinUse⟩ := ih hrest (by omega)
        have hsame : InUse (i :: rest) addr ↔ InUse rest addr := by
          rw [inUse_cons, or_iff_right hin]
        rw [hadd, decide_eq_decide.mpr (not_congr hsame)]
        refine ⟨i :: next, rfl, ⟨hlow, hle, hhigh, hblocks⟩, fun other => ?_⟩
        rw [inUse_cons, inUse_cons, hinUse, or_left_comm]

/-! ## The networks -/

/-- The addresses of every network are words. -/
def WordTable (generator : AddressGenerator) : Prop :=
  ∀ state ∈ generator.netTable, state.addrMax < 4294967296

theorem tableFrom_word (mask i left : Nat) :
    ∀ state ∈ tableFrom mask i left, state.addrMax < 4294967296 := by
  induction left generalizing mask i with
  | zero => exact fun _ hmem => nomatch hmem
  | succ left ih =>
      refine List.forall_mem_cons.mpr ⟨?_, ih _ _⟩
      exact Nat.lt_of_le_of_lt (Nat.sub_le _ _) (by decide)

/-- What may be put in the place of a network. -/
theorem networkOf_spec {generator : AddressGenerator} (table : generator.WordTable) {mask : Nat}
    {state : NetworkState} {put : NetworkState → AddressGenerator}
    (hnetwork : generator.networkOf mask = some (state, put)) :
    state.addrMax < 4294967296 ∧ ∀ next : NetworkState, next.addrMax = state.addrMax →
      (put next).WordTable ∧ (put next).entries = generator.entries ∧
        (put next).test = generator.test := by
  simp only [networkOf, Option.bind_eq_bind, Option.bind_eq_some_iff, Option.some.injEq,
    Prod.mk.injEq] at hnetwork
  obtain ⟨index, -, state', hstate, rfl, rfl⟩ := hnetwork
  have hword := table state' (List.mem_of_getElem? hstate)
  refine ⟨hword, fun next hnext => ⟨fun other hother => ?_, rfl, rfl⟩⟩
  rcases List.mem_or_eq_of_mem_set hother with hmem | rfl
  · exact table other hmem
  · exact hnext ▸ hword

end AddressGenerator

/-! ## Runs -/

/-- The arguments of the calls are words. -/
def AddressCall.Word : AddressCall → Prop
  | .init net mask addr => net < 4294967296 ∧ mask < 4294967296 ∧ addr < 4294967296
  | .nextNetwork mask => mask < 4294967296
  | .initAddress addr mask => addr < 4294967296 ∧ mask < 4294967296
  | .nextAddress mask => mask < 4294967296
  | .addAllocated addr => addr < 4294967296
  | .isAddressAllocated addr => addr < 4294967296
  | .isNetworkAllocated address mask => address < 4294967296 ∧ mask < 4294967296

namespace Allocating

/-- The blocks are sorted, disjoint, and hold exactly the addresses that were added. -/
structure Exact (allocating : Allocating) : Prop where
  pairwise : allocating.generator.entries.Pairwise fun first second =>
    first.addrHigh < second.addrLow
  le : ∀ i ∈ allocating.generator.entries, i.addrLow ≤ i.addrHigh
  inUse_iff : ∀ addr, InUse allocating.generator.entries addr ↔ addr ∈ allocating.added

/-- A network with an added address, but without the first or the last one of a block. -/
def Overlooked (allocating : Allocating) (address mask : Nat) : Prop :=
  allocating.InNetwork address mask ∧ ∀ i ∈ allocating.generator.entries,
    address ≠ i.addrLow &&& mask ∧ address ≠ i.addrHigh &&& mask

instance (allocating : Allocating) (address mask : Nat) :
    Decidable (allocating.Overlooked address mask) :=
  inferInstanceAs (Decidable (_ ∧ _))

/-- Only networks that are overlooked are asked for. -/
def Fits (allocating : Allocating) : AddressCall → Prop
  | .isNetworkAllocated address mask => allocating.Overlooked address mask
  | _ => True

instance (allocating : Allocating) (call : AddressCall) : Decidable (allocating.Fits call) :=
  match call with
  | .isNetworkAllocated address mask =>
      inferInstanceAs (Decidable (allocating.Overlooked address mask))
  | .init _ _ _ | .nextNetwork _ | .initAddress _ _ | .nextAddress _ | .addAllocated _
  | .isAddressAllocated _ => .isTrue trivial

/-- The generator in test mode, with the blocks of the added addresses. -/
structure Keeping (allocating : Allocating) : Prop where
  test : allocating.generator.test = true
  table : allocating.generator.WordTable
  blocks : Blocks 0 allocating.generator.entries
  inUse_iff : ∀ addr, InUse allocating.generator.entries addr ↔ addr ∈ allocating.added

theorem Keeping.exact {allocating : Allocating} (keeping : allocating.Keeping) :
    allocating.Exact :=
  ⟨keeping.blocks.pairwise, fun _ hmem => keeping.blocks.le_of_mem hmem, keeping.inUse_iff⟩

theorem keeping_start : start.Keeping where
  test := rfl
  table := AddressGenerator.tableFrom_word 0 0 32
  blocks := trivial
  inUse_iff := fun _ => iff_of_false (fun ⟨_, hmem, _⟩ => nomatch hmem) List.not_mem_nil

/-- The networks do not matter for the blocks. -/
theorem Keeping.congr {allocating next : Allocating} (keeping : allocating.Keeping)
    (table : next.generator.WordTable)
    (hentries : next.generator.entries = allocating.generator.entries)
    (htest : next.generator.test = allocating.generator.test)
    (hadded : next.added = allocating.added) : next.Keeping where
  test := htest.trans keeping.test
  table := table
  blocks := hentries ▸ keeping.blocks
  inUse_iff := by
    rw [hentries, hadded]
    exact keeping.inUse_iff

/-- An address is added, and the answer tells whether it is new. -/
theorem Keeping.addAllocated {allocating : Allocating} (keeping : allocating.Keeping) {addr : Nat}
    (hpos : addr ≠ 0) (hword : addr < 4294967296) :
    ∃ next, allocating.generator.addAllocated addr =
        some (next, decide (addr ∉ allocating.added)) ∧
      ∀ right, Keeping ⟨next, allocating.added ++ [addr], right⟩ := by
  obtain ⟨next, hadd, hblocks, hinUse⟩ :=
    AddressGenerator.addEntry_spec hword keeping.blocks (Nat.pos_of_ne_zero hpos)
  rw [AddressGenerator.addAllocated, if_neg hpos, keeping.test, hadd,
    decide_eq_decide.mpr (not_congr (keeping.inUse_iff addr))]
  refine ⟨_, rfl, fun right => ⟨rfl, keeping.table, hblocks, fun other => ?_⟩⟩
  rw [hinUse, keeping.inUse_iff, List.mem_append, List.mem_singleton, or_comm]

/-- A single address is looked up among the added ones. -/
theorem Keeping.isAddressAllocated {allocating : Allocating} (keeping : allocating.Keeping)
    {addr : Nat} (hpos : addr ≠ 0) :
    allocating.generator.isAddressAllocated addr = some (decide (addr ∈ allocating.added)) := by
  rw [AddressGenerator.isAddressAllocated, if_neg hpos, Option.some_inj, Bool.eq_iff_iff,
    List.any_eq_true, decide_eq_true_iff, ← keeping.inUse_iff]
  simp only [decide_eq_true_iff]
  rfl

/-- The answer about a network is right for an overlooked one. -/
theorem Keeping.isNetworkAllocated {allocating : Allocating} (keeping : allocating.Keeping)
    {address mask : Nat} {answer : Bool}
    (hanswer : allocating.generator.isNetworkAllocated address mask = some answer) :
    answer = decide (allocating.InNetwork address mask) ↔ allocating.Overlooked address mask := by
  rw [AddressGenerator.isNetworkAllocated] at hanswer
  by_cases hbits : address ≠ address &&& mask
  · rw [if_pos hbits] at hanswer
    cases hanswer
  rw [if_neg hbits] at hanswer
  obtain rfl := Option.some.inj hanswer
  by_cases hends : ∃ i ∈ allocating.generator.entries,
      address = i.addrLow &&& mask ∨ address = i.addrHigh &&& mask
  · -- a block begins or ends in the network: the answer is no
    have hany : (allocating.generator.entries.any fun i =>
        decide (address = i.addrLow &&& mask ∨ address = i.addrHigh &&& mask)) = true := by
      simpa only [List.any_eq_true, decide_eq_true_iff] using hends
    obtain ⟨i, hmem, hend⟩ := hends
    have hin : allocating.InNetwork address mask := by
      have hle := keeping.blocks.le_of_mem hmem
      rcases hend with hlow | hhigh
      · exact ⟨i.addrLow, (keeping.inUse_iff _).mp ⟨i, hmem, Nat.le_refl _, hle⟩, hlow.symm⟩
      · exact ⟨i.addrHigh, (keeping.inUse_iff _).mp ⟨i, hmem, hle, Nat.le_refl _⟩, hhigh.symm⟩
    rw [hany, decide_eq_true hin]
    exact iff_of_false Bool.false_ne_true fun hover =>
      hend.elim (hover.2 i hmem).1 (hover.2 i hmem).2
  · -- no block begins or ends in the network: the answer is yes
    have hany : (allocating.generator.entries.any fun i =>
        decide (address = i.addrLow &&& mask ∨ address = i.addrHigh &&& mask)) = false := by
      rw [← Bool.not_eq_true]
      simpa only [List.any_eq_true, decide_eq_true_iff] using hends
    rw [hany, Bool.not_false, eq_comm, decide_eq_true_iff]
    refine ⟨fun hin => ⟨hin, fun i hmem => ?_⟩, And.left⟩
    exact not_or.mp fun hend => hends ⟨i, hmem, hend⟩

/-- The mask of a prefix clears the last bits of a word. -/
theorem and_prefixMask {addr bits : Nat} (hbits : bits ≤ 32) (hword : addr < 2 ^ 32) :
    addr &&& (2 ^ 32 - 2 ^ bits) = 2 ^ bits * (addr / 2 ^ bits) := by
  have hmask : 2 ^ 32 - 2 ^ bits = 2 ^ bits * (2 ^ (32 - bits) - 1) := by
    rw [Nat.mul_sub_one, ← Nat.pow_add, Nat.add_sub_cancel' hbits]
  refine Nat.eq_of_testBit_eq fun j => ?_
  rw [hmask, Nat.testBit_and, Nat.testBit_two_pow_mul, Nat.testBit_two_pow_mul,
    Nat.testBit_two_pow_sub_one, Nat.testBit_div_two_pow]
  by_cases hj : bits ≤ j
  · rw [decide_eq_true hj, Nat.sub_add_cancel hj, Bool.true_and, Bool.true_and]
    by_cases hlow : j < 32
    · rw [decide_eq_true (Nat.sub_lt_sub_right hj hlow), Bool.and_true]
    · rw [Nat.testBit_lt_two_pow (Nat.lt_of_lt_of_le hword
        (Nat.pow_le_pow_right (by decide) (Nat.le_of_not_lt hlow))), Bool.false_and]
  · rw [decide_eq_false hj, Bool.false_and, Bool.false_and, Bool.and_false]

/-- The overlooked networks of a prefix are those that lie strictly inside a block. -/
theorem Keeping.overlooked_iff {allocating : Allocating} (keeping : allocating.Keeping)
    {address bits : Nat} (hbits : bits ≤ 32) (hword : address < 2 ^ 32)
    (haddress : address = address &&& (2 ^ 32 - 2 ^ bits)) :
    allocating.Overlooked address (2 ^ 32 - 2 ^ bits) ↔
      ∃ i ∈ allocating.generator.entries,
        i.addrLow < address ∧ address + 2 ^ bits ≤ i.addrHigh := by
  have hpos : 0 < 2 ^ bits := Nat.two_pow_pos bits
  have hnetwork : ∀ {addr : Nat}, addr < 2 ^ 32 →
      (addr &&& (2 ^ 32 - 2 ^ bits) = address ↔ address ≤ addr ∧ addr < address + 2 ^ bits) := by
    intro addr haddr
    rw [and_prefixMask hbits hword] at haddress
    rw [and_prefixMask hbits haddr, haddress]
    generalize address / 2 ^ bits = network
    rw [Nat.mul_right_inj (Nat.ne_of_gt hpos), Nat.div_eq_iff hpos, Nat.mul_comm network]
    omega
  constructor
  · rintro ⟨⟨addr, hadded, hin⟩, hends⟩
    obtain ⟨i, hmem, hlow, hhigh⟩ := (keeping.inUse_iff addr).mpr hadded
    have hlast := keeping.blocks.lt_of_mem hmem
    obtain ⟨hnotLow, hnotHigh⟩ := hends i hmem
    have hin := (hnetwork (Nat.lt_of_le_of_lt hhigh hlast)).mp hin
    have hbefore := mt (hnetwork (by omega)).mpr (Ne.symm hnotLow)
    have hbehind := mt (hnetwork (by omega)).mpr (Ne.symm hnotHigh)
    exact ⟨i, hmem, by omega, by omega⟩
  · rintro ⟨i, hmem, hlow, hhigh⟩
    refine ⟨⟨address, (keeping.inUse_iff address).mp ⟨i, hmem, by omega, by omega⟩,
      haddress.symm⟩, fun j hj => ?_⟩
    have hle := keeping.blocks.le_of_mem hj
    have hlast := keeping.blocks.lt_of_mem hj
    -- an end of another block in the network would be in this block
    have hsame : ∀ addr, address ≤ addr → addr < address + 2 ^ bits →
        j.addrLow ≤ addr ∧ addr ≤ j.addrHigh → i = j := fun addr hge hlt hin =>
      keeping.blocks.eq_of_mem hmem hj ⟨by omega, by omega⟩ hin
    constructor
    · intro heq
      obtain ⟨hge, hlt⟩ := (hnetwork (by omega)).mp heq.symm
      obtain rfl := hsame j.addrLow hge hlt ⟨Nat.le_refl _, hle⟩
      omega
    · intro heq
      obtain ⟨hge, hlt⟩ := (hnetwork hlast).mp heq.symm
      obtain rfl := hsame j.addrHigh hge hlt ⟨hle, Nat.le_refl _⟩
      omega

/-- The next address is a word, and is added. -/
theorem Keeping.nextAddress {allocating : Allocating} (keeping : allocating.Keeping) {mask : Nat}
    {next : AddressGenerator × Nat} (hnext : allocating.generator.nextAddress mask = some next) :
    ∀ right, Keeping ⟨next.1, allocating.added ++ [next.2], right⟩ := by
  simp only [AddressGenerator.nextAddress, Option.bind_eq_bind, Option.bind_eq_some_iff] at hnext
  obtain ⟨⟨state, put⟩, hnetwork, hnext⟩ := hnext
  obtain ⟨hmax, hput⟩ := AddressGenerator.networkOf_spec keeping.table hnetwork
  by_cases hle : state.addr ≤ state.addrMax
  · rw [if_pos hle] at hnext
    obtain ⟨added, hadd, hnext⟩ := Option.bind_eq_some_iff.mp hnext
    obtain rfl := Option.some.inj hnext
    obtain ⟨htable, hentries, htest⟩ :=
      hput { state with addr := (state.addr + 1) % 4294967296 } rfl
    have hword : state.network <<< state.shift % 4294967296 ||| state.addr < 2 ^ 32 :=
      Nat.or_lt_two_pow (Nat.mod_lt _ (by decide)) (Nat.lt_of_le_of_lt hle hmax)
    have hpos : state.network <<< state.shift % 4294967296 ||| state.addr ≠ 0 := by
      intro hzero
      rw [AddressGenerator.addAllocated, if_pos hzero] at hadd
      cases hadd
    have hkeeping : Keeping ⟨put { state with addr := (state.addr + 1) % 4294967296 },
        allocating.added, allocating.right⟩ := keeping.congr htable hentries htest rfl
    obtain ⟨generator, hagain, hall⟩ := hkeeping.addAllocated hpos hword
    obtain rfl := Option.some.inj (hagain.symm.trans hadd)
    exact hall
  · rw [if_neg hle] at hnext
    cases hnext

/-- A call on the networks changes neither the blocks nor what was answered. -/
theorem Keeping.of_map {allocating next : Allocating} (keeping : allocating.Keeping)
    {result : Option AddressGenerator}
    (hresult : ∀ generator, result = some generator → generator.WordTable ∧
      generator.entries = allocating.generator.entries ∧
        generator.test = allocating.generator.test)
    (hnext : (result.map fun generator => { allocating with generator }) = some next) :
    next.Keeping ∧ next.right = allocating.right := by
  obtain ⟨generator, hsome, rfl⟩ := Option.map_eq_some_iff.mp hnext
  obtain ⟨htable, hentries, htest⟩ := hresult generator hsome
  exact ⟨keeping.congr htable hentries htest rfl, rfl⟩

/-- `Init` puts a network in the place of another one. -/
theorem Keeping.init {allocating : Allocating} (keeping : allocating.Keeping) {net mask addr : Nat}
    {generator : AddressGenerator}
    (hinit : allocating.generator.init net mask addr = some generator) :
    generator.WordTable ∧ generator.entries = allocating.generator.entries ∧
      generator.test = allocating.generator.test := by
  rw [AddressGenerator.init] at hinit
  by_cases hbits : net &&& (4294967295 - mask) ≠ 0 ∨ addr &&& mask ≠ 0
  · rw [if_pos hbits] at hinit
    cases hinit
  rw [if_neg hbits] at hinit
  obtain ⟨⟨state, put⟩, hnetwork, hinit⟩ := Option.bind_eq_some_iff.mp hinit
  simp only at hinit
  by_cases hle : addr ≤ state.addrMax
  · rw [if_pos hle] at hinit
    obtain rfl := Option.some.inj hinit
    exact (AddressGenerator.networkOf_spec keeping.table hnetwork).2 _ rfl
  · rw [if_neg hle] at hinit
    cases hinit

/-- `InitAddress` puts a network in the place of another one. -/
theorem Keeping.initAddress {allocating : Allocating} (keeping : allocating.Keeping)
    {addr mask : Nat} {generator : AddressGenerator}
    (hinit : allocating.generator.initAddress addr mask = some generator) :
    generator.WordTable ∧ generator.entries = allocating.generator.entries ∧
      generator.test = allocating.generator.test := by
  obtain ⟨⟨state, put⟩, hnetwork, hinit⟩ := Option.bind_eq_some_iff.mp hinit
  simp only at hinit
  by_cases hle : addr ≤ state.addrMax
  · rw [if_pos hle] at hinit
    obtain rfl := Option.some.inj hinit
    exact (AddressGenerator.networkOf_spec keeping.table hnetwork).2 _ rfl
  · rw [if_neg hle] at hinit
    cases hinit

/-- `NextNetwork` puts a network in the place of another one. -/
theorem Keeping.nextNetwork {allocating : Allocating} (keeping : allocating.Keeping) {mask : Nat}
    {next : Nat × AddressGenerator} (hnext : allocating.generator.nextNetwork mask = some next) :
    next.2.WordTable ∧ next.2.entries = allocating.generator.entries ∧
      next.2.test = allocating.generator.test := by
  obtain ⟨⟨state, put⟩, hnetwork, hnext⟩ := Option.bind_eq_some_iff.mp hnext
  obtain rfl := Option.some.inj hnext
  exact (AddressGenerator.networkOf_spec keeping.table hnetwork).2 _ rfl

/-- What a call leaves: the blocks of the added addresses, and a right answer when it fits. -/
theorem Keeping.step {allocating next : Allocating} (keeping : allocating.Keeping)
    {call : AddressCall} (hword : call.Word) (hstep : allocating.step call = some next) :
    next.Keeping ∧ (next.right = true ↔ allocating.right = true ∧ allocating.Fits call) := by
  have hquiet : ∀ {call : AddressCall}, next.right = allocating.right → allocating.Fits call →
      (next.right = true ↔ allocating.right = true ∧ allocating.Fits call) :=
    fun hright hfits => by rw [hright, and_iff_left hfits]
  cases call with
  | init net mask addr =>
      obtain ⟨hnext, hright⟩ := keeping.of_map (fun _ => keeping.init) hstep
      exact ⟨hnext, hquiet hright trivial⟩
  | nextNetwork mask =>
      obtain ⟨generator, hsome, rfl⟩ := Option.map_eq_some_iff.mp hstep
      obtain ⟨htable, hentries, htest⟩ := keeping.nextNetwork hsome
      exact ⟨keeping.congr htable hentries htest rfl, hquiet rfl trivial⟩
  | initAddress addr mask =>
      obtain ⟨hnext, hright⟩ := keeping.of_map (fun _ => keeping.initAddress) hstep
      exact ⟨hnext, hquiet hright trivial⟩
  | nextAddress mask =>
      obtain ⟨generator, hsome, rfl⟩ := Option.map_eq_some_iff.mp hstep
      exact ⟨keeping.nextAddress hsome _, hquiet rfl trivial⟩
  | addAllocated addr =>
      obtain ⟨result, hsome, rfl⟩ := Option.map_eq_some_iff.mp hstep
      by_cases hzero : addr = 0
      · rw [AddressGenerator.addAllocated, if_pos hzero] at hsome
        cases hsome
      obtain ⟨generator, hadd, hall⟩ := keeping.addAllocated hzero hword
      obtain rfl := Option.some.inj (hadd.symm.trans hsome)
      refine ⟨hall _, ?_⟩
      simp only [check, beq_self_eq_true, Bool.and_true]
      exact (and_iff_left trivial).symm
  | isAddressAllocated addr =>
      obtain ⟨answer, hsome, rfl⟩ := Option.map_eq_some_iff.mp hstep
      by_cases hzero : addr = 0
      · rw [AddressGenerator.isAddressAllocated, if_pos hzero] at hsome
        cases hsome
      obtain rfl := Option.some.inj ((keeping.isAddressAllocated hzero).symm.trans hsome)
      refine ⟨keeping.congr keeping.table rfl rfl rfl, ?_⟩
      simp only [check, beq_self_eq_true, Bool.and_true]
      exact (and_iff_left trivial).symm
  | isNetworkAllocated address mask =>
      obtain ⟨answer, hsome, rfl⟩ := Option.map_eq_some_iff.mp hstep
      refine ⟨keeping.congr keeping.table rfl rfl rfl, ?_⟩
      rw [check, Bool.and_eq_true, beq_iff_eq, keeping.isNetworkAllocated hsome]
      rfl

/-- Whatever was called, the blocks are those of the added addresses. -/
theorem keeping_of_run {calls : List AddressCall} (hwords : ∀ call ∈ calls, call.Word)
    {last : Allocating} (hrun : run start calls = some last) : last.Keeping :=
  Foundation.Runs.invariant_of_fitting step Keeping
    (fun _ _ _ keeping hword hstep => (keeping.step hword hstep).1) keeping_start
    (Foundation.Runs.fitting_of_forall step (fun call hcall _ => hwords call hcall) start) hrun

/--
The allocated addresses are an exact set: after every run in test mode the
blocks are sorted, disjoint and hold the addresses that were added, and a
further address that is not zero can be added.  All answers of the run are
right if and only if the networks that are asked for are overlooked ones.
-/
theorem exact_and_right_iff {calls : List AddressCall} (hwords : ∀ call ∈ calls, call.Word)
    {last : Allocating} (hrun : run start calls = some last) :
    (∀ before state, before <+: calls → run start before = some state →
      state.Exact ∧ ∀ addr, addr ≠ 0 → addr < 4294967296 →
        (step state (.addAllocated addr)).isSome) ∧
    ((∀ before state, before <+: calls → run start before = some state → state.right = true) ↔
      Foundation.Runs.Fitting step Fits start calls) := by
  constructor
  · intro before state hprefix hstate
    have keeping := keeping_of_run (fun call hcall => hwords call ( hprefix.subset hcall)) hstate
    refine ⟨keeping.exact, fun addr hpos hword => ?_⟩
    obtain ⟨next, hadd, -⟩ := keeping.addAllocated hpos hword
    rw [step, hadd]
    rfl
  · refine Foundation.Runs.forall_reached_iff_fitting_of_allowed step
      (fun state => state.Keeping ∧ state.right = true) (fun state => state.right = true)
      ?_ hwords ⟨keeping_start, rfl⟩ rfl hrun
    rintro state call next ⟨keeping, hright⟩ hword hstep
    obtain ⟨hnext, hiff⟩ := keeping.step hword hstep
    rw [hright, eq_self_iff_true, true_and] at hiff
    rcases Classical.em (state.Fits call) with hfits | hmisses
    · exact .inl ⟨hfits, ⟨hnext, hiff.mpr hfits⟩, hiff.mpr hfits⟩
    · exact .inr ⟨hmisses, fun hnext => hmisses (hiff.mp hnext)⟩

/-- Nine addresses of a network of 16, where a network of four lies strictly inside. -/
def nineAddresses : List AddressCall :=
  [.init 167772160 4294967280 3] ++ List.replicate 9 (.nextAddress 4294967280) ++
    [.addAllocated 167772166, .isAddressAllocated 167772172,
      .isNetworkAllocated 167772164 4294967292]

theorem exact_and_right_iff_nine :
    ∃ last, run start nineAddresses = some last ∧
      (∀ before state, before <+: nineAddresses → run start before = some state →
        state.Exact ∧ ∀ addr, addr ≠ 0 → addr < 4294967296 →
          (step state (.addAllocated addr)).isSome) ∧
      ((∀ before state, before <+: nineAddresses → run start before = some state →
        state.right = true) ↔ Foundation.Runs.Fitting step Fits start nineAddresses) := by
  have hsome : (run start nineAddresses).isSome = true := by decide +kernel
  obtain ⟨last, hrun⟩ := Option.isSome_iff_exists.mp hsome
  have hwords : ∀ call ∈ nineAddresses, call.Word := by
    simp [nineAddresses, AddressCall.Word]
  exact ⟨last, hrun, exact_and_right_iff hwords hrun⟩

/-- One address of a network is given, and the network is said not to be allocated. -/
theorem not_right_one :
    ∃ last, run start [.init 167772160 4294967040 1, .nextAddress 4294967040,
      .isNetworkAllocated 167772160 4294967040] = some last ∧
      last.InNetwork 167772160 4294967040 ∧
      last.generator.isNetworkAllocated 167772160 4294967040 = some false ∧
      last.right = false := by
  refine ⟨(run start [.init 167772160 4294967040 1, .nextAddress 4294967040,
      .isNetworkAllocated 167772160 4294967040]).getD start, ?_⟩
  decide +kernel

end Allocating

end DeepcV2x.Ipv4
