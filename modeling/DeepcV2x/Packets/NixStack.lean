import DeepcV2x.Packets.NixVector

/-!
# The nix-vector as a stack

The words hold the number into which the fields are packed.  Adding a field
puts it above the others, and extracting cuts out the highest bits that are
left.
-/

namespace DeepcV2x.Packets

open Foundation.BitFields

namespace NixVector

/-- The words hold the fields. -/
structure Holds (fields : List Field) (nix : NixVector) : Prop where
  words : ∀ word ∈ nix.nixVector, word < 2 ^ 32
  number : packed (asFields 32 nix.nixVector) = packed fields
  length : nix.nixVector.length = (bits fields + 31) / 32
  totalBitSize : nix.totalBitSize = bits fields % 4294967296

/-- The widths that can be added and extracted. -/
def Widths (fields : List Field) : Prop := ∀ field ∈ fields, 1 ≤ field.2 ∧ field.2 ≤ 32

instance (fields : List Field) : Decidable (Widths fields) :=
  inferInstanceAs (Decidable (∀ field ∈ fields, 1 ≤ field.2 ∧ field.2 ≤ 32))

theorem holds_nil (epoch : Nat) : Holds [] { epoch } :=
  ⟨fun _ hmem => absurd hmem List.not_mem_nil, rfl, rfl, rfl⟩

section Adding

variable {fields : List Field} {nix : NixVector}

/-- The word that takes the next bits, with the whole words before it. -/
theorem Holds.back (holds : Holds fields nix) (fit : Fit fields) :
    ∃ front last, (if bits fields % 32 = 0 then nix.nixVector ++ [0] else nix.nixVector) =
        front ++ [last] ∧ (∀ word ∈ front, word < 2 ^ 32) ∧
      32 * front.length + bits fields % 32 = bits fields ∧ last < 2 ^ (bits fields % 32) ∧
      packed (asFields 32 (front ++ [last])) = packed fields := by
  have hlength := holds.length
  by_cases hwhole : bits fields % 32 = 0
  · refine ⟨nix.nixVector, 0, by rw [if_pos hwhole], holds.words, by omega,
      Nat.two_pow_pos _, ?_⟩
    rw [asFields_append, packed_append, holds.number]
    rfl
  · have hsome : nix.nixVector ≠ [] := by
      rintro hnil
      rw [hnil, List.length_nil] at hlength
      omega
    obtain ⟨front, last, hwords⟩ : ∃ front last, nix.nixVector = front ++ [last] :=
      ⟨_, _, (List.dropLast_concat_getLast hsome).symm⟩
    have hfront : 32 * front.length + bits fields % 32 = bits fields := by
      rw [hwords, List.length_append, List.length_singleton] at hlength
      omega
    have hnumber : packed (asFields 32 (front ++ [last])) = packed fields :=
      hwords ▸ holds.number
    refine ⟨front, last, by rw [if_neg hwhole, hwords],
      fun word hmem => holds.words word (hwords ▸ List.mem_append_left _ hmem), hfront, ?_, hnumber⟩
    have hless := packed_lt fit
    rw [← hnumber, asFields_append, packed_append, bits_asFields, packed_word, ← hfront,
      Nat.pow_add] at hless
    exact Nat.lt_of_mul_lt_mul_left (Nat.lt_of_le_of_lt (Nat.le_add_left _ _) hless)

/-- A field above the bits of a word, cut into the words it needs. -/
theorem packed_behind {front tail : List Nat} {last value width : Nat}
    (hplace : 32 * front.length + bits fields % 32 = bits fields)
    (hnumber : packed (asFields 32 (front ++ [last])) = packed fields)
    (htail : packed (asFields 32 tail) = last + 2 ^ (bits fields % 32) * value) :
    packed (asFields 32 (front ++ tail)) = packed (fields ++ [(value, width)]) := by
  rw [asFields_append, packed_append, packed_word, bits_asFields] at hnumber
  rw [asFields_append, packed_append, packed_append, htail, bits_asFields, packed_singleton,
    ← hnumber]
  conv_rhs => rw [← hplace, Nat.pow_add]
  ring

/-- The low word takes what fits, the rest goes into a new word. -/
theorem shifted_parts {value last count : Nat} (hcount : count < 32) (hlast : last < 2 ^ count) :
    (value <<< count % 4294967296 ||| last) + 2 ^ 32 * (value >>> (32 - count)) =
      last + 2 ^ count * value := by
  have hpow : 2 ^ 32 = 2 ^ (32 - count) * 2 ^ count := by
    rw [← Nat.pow_add, Nat.sub_add_cancel (Nat.le_of_lt hcount)]
  have hlow : value <<< count % 4294967296 = (value % 2 ^ (32 - count)) <<< count := by
    rw [Nat.shiftLeft_eq, Nat.shiftLeft_eq, show 4294967296 = 2 ^ (32 - count) * 2 ^ count from hpow,
      Nat.mul_mod_mul_right]
  rw [hlow, ← Nat.shiftLeft_add_eq_or_of_lt hlast, Nat.shiftLeft_eq, Nat.shiftRight_eq_div_pow, hpow]
  conv_rhs => rw [← Nat.mod_add_div value (2 ^ (32 - count))]
  ring

/-- A field is added above the others. -/
theorem Holds.addNeighborIndex (holds : Holds fields nix) (fit : Fit fields) {value width : Nat}
    (hvalue : value < 2 ^ width) (hwidth : 1 ≤ width ∧ width ≤ 32) :
    ∃ next, nix.addNeighborIndex value width = some next ∧ Holds (fields ++ [(value, width)]) next ∧
      next.used = nix.used ∧ next.epoch = nix.epoch := by
  obtain ⟨front, last, hback, hfront, hplace, hlast, hnumber⟩ := holds.back fit
  have hlength : front.length = bits fields / 32 := by omega
  have hcurrent : nix.totalBitSize % 32 = bits fields % 32 := by
    rw [holds.totalBitSize]
    omega
  have hcount : bits fields % 32 < 32 := Nat.mod_lt _ (by decide)
  have hbits : bits (fields ++ [(value, width)]) = bits fields + width := bits_append _ _
  have htotal : (nix.totalBitSize + width) % 4294967296 = (bits fields + width) % 4294967296 := by
    rw [holds.totalBitSize, Nat.mod_add_mod]
  have hlow : (value <<< (bits fields % 32) % 4294967296 ||| last) < 2 ^ 32 :=
    Nat.or_lt_two_pow (Nat.mod_lt _ (by decide))
      (Nat.lt_of_lt_of_le hlast (Nat.pow_le_pow_right (by decide) (Nat.le_of_lt hcount)))
  have hparts := @shifted_parts value last _ hcount hlast
  have hshl : shl32 value (bits fields % 32) =
      some (value <<< (bits fields % 32) % 4294967296) := if_pos hcount
  simp only [NixVector.addNeighborIndex, if_neg (Nat.not_lt.mpr hwidth.2), hcurrent, hback,
    List.getLast?_concat, List.dropLast_concat, htotal, hshl, Option.bind_eq_bind, Option.bind_some]
  by_cases hsplit : 32 < bits fields % 32 + width
  · have hshr : shr32 value (32 - bits fields % 32) = some (value >>> (32 - bits fields % 32)) :=
      if_pos (by omega)
    rw [if_pos hsplit, hshr, Option.bind_some]
    refine ⟨_, rfl, ⟨?_, ?_, ?_, ?_⟩, rfl, rfl⟩
    · refine List.forall_mem_append.mpr ⟨hfront, List.forall_mem_cons.mpr ⟨hlow,
        List.forall_mem_singleton.mpr ?_⟩⟩
      rw [Nat.shiftRight_eq_div_pow]
      exact Nat.lt_of_le_of_lt (Nat.div_le_self _ _)
        (Nat.lt_of_lt_of_le hvalue (Nat.pow_le_pow_right (by decide) hwidth.2))
    · refine packed_behind hplace hnumber (Eq.trans ?_ hparts)
      simp only [asFields, List.map_cons, List.map_nil, packed, Nat.mul_zero, Nat.add_zero]
    · rw [List.length_append, List.length_cons, List.length_singleton, hbits]
      omega
    · rw [hbits]
  · have hrest : value >>> (32 - bits fields % 32) = 0 := by
      rw [Nat.shiftRight_eq_div_pow]
      exact Nat.div_eq_of_lt
        (Nat.lt_of_lt_of_le hvalue (Nat.pow_le_pow_right (by decide) (by omega)))
    rw [hrest, Nat.mul_zero, Nat.add_zero] at hparts
    rw [if_neg hsplit]
    refine ⟨_, rfl, ⟨?_, ?_, ?_, ?_⟩, rfl, rfl⟩
    · exact List.forall_mem_append.mpr ⟨hfront, List.forall_mem_singleton.mpr hlow⟩
    · refine packed_behind hplace hnumber (Eq.trans ?_ hparts)
      simp only [asFields, List.map_cons, List.map_nil, packed, Nat.mul_zero, Nat.add_zero]
    · rw [List.length_append, List.length_singleton, hbits]
      omega
    · rw [hbits]

/-- Fields are added one by one. -/
theorem Holds.addAll (more : List Field) : ∀ {fields : List Field} {nix : NixVector},
    Holds fields nix → Fit (fields ++ more) → Widths more →
      ∃ next, nix.addAll more = some next ∧ Holds (fields ++ more) next ∧
        next.used = nix.used ∧ next.epoch = nix.epoch := by
  induction more with
  | nil =>
      intro fields nix holds _ _
      exact ⟨nix, rfl, by rw [List.append_nil]; exact holds, rfl, rfl⟩
  | cons field more ih =>
      intro fields nix holds fit hwidths
      obtain ⟨hwidth, hrest⟩ := List.forall_mem_cons.mp hwidths
      obtain ⟨hfields, hmore⟩ := List.forall_mem_append.mp fit
      obtain ⟨next, hadd, hnext, hused, hepoch⟩ :=
        holds.addNeighborIndex hfields (List.forall_mem_cons.mp hmore).1 hwidth
      rw [List.append_cons] at fit ⊢
      obtain ⟨last, hlast, hholds, hused', hepoch'⟩ := ih hnext fit hrest
      exact ⟨last, by rw [NixVector.addAll, hadd, Option.bind_some, hlast], hholds,
        hused'.trans hused, hepoch'.trans hepoch⟩

end Adding

section Extracting

variable {fields : List Field} {nix : NixVector}

/-- The bits of a word that are left, at the top of a word. -/
theorem testBit_above {word count : Nat} (i : Nat) :
    (word <<< count % 4294967296).testBit i =
      (decide (i < 32) && (decide (count ≤ i) && word.testBit (i - count))) := by
  rw [show 4294967296 = 2 ^ 32 from rfl, Nat.testBit_mod_two_pow, Nat.testBit_shiftLeft]

/-- A field within one word. -/
theorem cut_one {number word index left width : Nat} (hwidth : 1 ≤ width ∧ width ≤ left)
    (hleft : left ≤ 32) (hword : ∀ i, word.testBit i =
      (decide (i < 32) && number.testBit (32 * index + i))) :
    (word <<< (32 - left) % 4294967296) >>> (32 - width) =
      number / 2 ^ (32 * index + left - width) % 2 ^ width := by
  refine Nat.eq_of_testBit_eq fun i => ?_
  rw [Nat.testBit_shiftRight, testBit_above, hword, Nat.testBit_mod_two_pow,
    Nat.testBit_div_two_pow]
  by_cases hi : i < width
  · rw [decide_eq_true hi, decide_eq_true (by omega), decide_eq_true (by omega),
      decide_eq_true (by omega), Bool.true_and, Bool.true_and, Bool.true_and, Bool.true_and]
    exact congrArg number.testBit (by omega)
  · rw [decide_eq_false hi, decide_eq_false (by omega), Bool.false_and, Bool.false_and]

/-- A field that is cut from two words. -/
theorem cut_two {number word below index left width : Nat} (hwidth : left < width ∧ width ≤ 32)
    (hword : ∀ i, word.testBit i = (decide (i < 32) && number.testBit (32 * (index + 1) + i)))
    (hbelow : ∀ i, below.testBit i = (decide (i < 32) && number.testBit (32 * index + i))) :
    (word <<< (32 - left) % 4294967296) >>> (32 - width) ||| below >>> (32 - (width - left)) =
      number / 2 ^ (32 * (index + 1) + left - width) % 2 ^ width := by
  refine Nat.eq_of_testBit_eq fun i => ?_
  rw [Nat.testBit_or, Nat.testBit_shiftRight, Nat.testBit_shiftRight, testBit_above, hword, hbelow,
    Nat.testBit_mod_two_pow, Nat.testBit_div_two_pow]
  by_cases hi : i < width
  · rcases Nat.lt_or_ge i (width - left) with hlow | hhigh
    · rw [decide_eq_true hi, decide_eq_true (by omega : 32 - width + i < 32),
        decide_eq_false (by omega : ¬ 32 - left ≤ 32 - width + i),
        decide_eq_true (by omega : 32 - (width - left) + i < 32), Bool.false_and, Bool.and_false,
        Bool.false_or, Bool.true_and, Bool.true_and]
      exact congrArg number.testBit (by omega)
    · rw [decide_eq_true hi, decide_eq_true (by omega : 32 - width + i < 32),
        decide_eq_true (by omega : 32 - left ≤ 32 - width + i),
        decide_eq_false (by omega : ¬ 32 - (width - left) + i < 32),
        decide_eq_true (by omega : 32 - width + i - (32 - left) < 32), Bool.false_and,
        Bool.or_false, Bool.true_and, Bool.true_and, Bool.true_and, Bool.true_and]
      exact congrArg number.testBit (by omega)
  · rw [decide_eq_false hi, decide_eq_false (by omega : ¬ 32 - width + i < 32),
      decide_eq_false (by omega : ¬ 32 - (width - left) + i < 32), Bool.false_and, Bool.false_and,
      Bool.false_and, Bool.false_or]

/-- A field is cut from the bits that are left, unless they fill whole words. -/
theorem cutIndex_eq {words : List Nat} {number width remaining : Nat}
    (hwidth : 1 ≤ width ∧ width ≤ 32) (hle : width ≤ remaining)
    (hlength : remaining ≤ 32 * words.length) (hbits : ∀ {index word : Nat},
      words[index]? = some word → ∀ i, word.testBit i =
        (decide (i < 32) && number.testBit (32 * index + i))) :
    cutIndex words remaining width =
      if remaining % 32 = 0 then none
      else some (number / 2 ^ (remaining - width) % 2 ^ width) := by
  obtain ⟨word, hword⟩ : ∃ word, words[(remaining - 1) / 32]? = some word :=
    ⟨_, List.getElem?_eq_getElem (by omega)⟩
  simp only [cutIndex, hword, Option.bind_eq_bind, Option.bind_some]
  by_cases hwhole : remaining % 32 = 0
  · rw [if_pos hwhole, hwhole]
    rfl
  · have habove : shl32 word (32 - remaining % 32) =
        some (word <<< (32 - remaining % 32) % 4294967296) := if_pos (by omega)
    rw [if_neg hwhole, habove, Option.bind_some]
    by_cases hspan : 0 < (remaining - 1) / 32 ∧ (remaining - 1) % 32 < width - 1
    · obtain ⟨below, hbelow⟩ : ∃ below, words[(remaining - 1) / 32 - 1]? = some below :=
        ⟨_, List.getElem?_eq_getElem (by omega)⟩
      have hover : minus32 width (remaining % 32) = width - remaining % 32 := by
        rw [minus32]
        omega
      have hcount : minus32 (32 - remaining % 32) (width - remaining % 32) = 32 - width := by
        rw [minus32]
        omega
      have hrest : minus32 32 (width - remaining % 32) = 32 - (width - remaining % 32) := by
        rw [minus32]
        omega
      have hplace : 32 * ((remaining - 1) / 32 - 1 + 1) + remaining % 32 - width =
          remaining - width := by omega
      have hcut := @cut_two number word below ((remaining - 1) / 32 - 1) (remaining % 32) width
        ⟨by omega, hwidth.2⟩ (by rw [Nat.sub_add_cancel hspan.1]; exact hbits hword)
        (hbits hbelow)
      have hhigh : shr32 (word <<< (32 - remaining % 32) % 4294967296) (32 - width) =
          some ((word <<< (32 - remaining % 32) % 4294967296) >>> (32 - width)) :=
        if_pos (by omega)
      have hlow : shr32 below (32 - (width - remaining % 32)) =
          some (below >>> (32 - (width - remaining % 32))) := if_pos (by omega)
      rw [hplace] at hcut
      rw [if_pos hspan, hover, hcount, hrest, hbelow, ← hcut, hhigh, Option.bind_some,
        Option.bind_some, hlow, Option.bind_some]
    · have hplace : 32 * ((remaining - 1) / 32) + remaining % 32 - width = remaining - width := by
        omega
      have hcut := @cut_one number word ((remaining - 1) / 32) (remaining % 32) width
        ⟨hwidth.1, by omega⟩ (by omega) (hbits hword)
      rw [hplace] at hcut
      rw [if_neg hspan, ← hcut]
      exact if_pos (by omega)

/-- A field is extracted from the bits that are left, unless they fill whole words. -/
theorem Holds.extractNeighborIndex (holds : Holds fields nix) (hsmall : bits fields < 4294967296)
    {width remaining : Nat} (hwidth : 1 ≤ width ∧ width ≤ 32) (hle : width ≤ remaining)
    (hremaining : nix.used + remaining = bits fields) :
    nix.extractNeighborIndex width =
      if remaining % 32 = 0 then none
      else some (packed fields / 2 ^ (remaining - width) % 2 ^ width,
        { nix with used := nix.used + width }) := by
  have hget : nix.getRemainingBits = remaining := by
    rw [getRemainingBits, minus32, holds.totalBitSize]
    omega
  have hlength := holds.length
  have hcut := @cutIndex_eq nix.nixVector (packed fields) width remaining hwidth hle (by omega)
    fun hword => holds.number ▸ testBit_word holds.words hword
  have hused : (nix.used + width) % 4294967296 = nix.used + width := Nat.mod_eq_of_lt (by omega)
  rw [NixVector.extractNeighborIndex, hget, if_neg (by omega), hcut, hused]
  by_cases hwhole : remaining % 32 = 0
  · rw [if_pos hwhole, if_pos hwhole, Option.map_none]
  · rw [if_neg hwhole, if_neg hwhole, Option.map_some]

/-- What is extracted was counted as remaining. -/
theorem extractNeighborIndex_some {width : Nat} {first : Nat × NixVector}
    (hsome : nix.extractNeighborIndex width = some first) :
    width ≤ nix.getRemainingBits ∧
      first.2 = { nix with used := (nix.used + width) % 4294967296 } := by
  rw [NixVector.extractNeighborIndex] at hsome
  split at hsome
  next => cases hsome
  next hvalid =>
    obtain ⟨extracted, -, rfl⟩ := Option.map_eq_some_iff.mp hsome
    exact ⟨by omega, rfl⟩

/-- The widths extracted together are at most what the counter has. -/
theorem extractAll_some (widths : List Nat) : ∀ {nix : NixVector} {result : List Nat × NixVector},
    nix.extractAll widths = some result → nix.used ≤ nix.totalBitSize →
      nix.totalBitSize < 4294967296 → nix.used + widths.sum ≤ nix.totalBitSize ∧
        result.2 = { nix with used := nix.used + widths.sum } := by
  induction widths with
  | nil =>
      intro nix result hsome hused _
      obtain rfl := Option.some.inj hsome
      exact ⟨hused, rfl⟩
  | cons width widths ih =>
      intro nix result hsome hused htotal
      obtain ⟨first, hfirst, hrest⟩ := Option.bind_eq_some_iff.mp hsome
      obtain ⟨others, hothers, rfl⟩ := Option.map_eq_some_iff.mp hrest
      obtain ⟨hle, hnext⟩ := extractNeighborIndex_some hfirst
      rw [getRemainingBits, minus32] at hle
      rw [Nat.mod_eq_of_lt (by omega : nix.used + width < 4294967296)] at hnext
      rw [hnext] at hothers
      obtain ⟨hsum, hlast⟩ := ih hothers (by show nix.used + width ≤ nix.totalBitSize; omega) htotal
      rw [List.sum_cons, ← Nat.add_assoc]
      exact ⟨hsum, hlast⟩

theorem extractAll_append (front back : List Nat) : ∀ nix : NixVector,
    nix.extractAll (front ++ back) = (nix.extractAll front).bind fun first =>
      (first.2.extractAll back).map fun second => (first.1 ++ second.1, second.2) := by
  induction front with
  | nil => exact fun nix => Option.map_id'.symm
  | cons width front ih =>
      intro nix
      rw [List.cons_append, NixVector.extractAll, NixVector.extractAll, Option.bind_assoc]
      refine congrArg _ (funext fun first => ?_)
      rw [ih, Option.bind_map, Option.map_bind]
      refine congrArg _ (funext fun second => ?_)
      simp only [Function.comp, Option.map_map]
      rfl

/-- The last fields are extracted one by one, the last one first. -/
theorem Holds.extractAll (holds : Holds fields nix) (fit : Fit fields) (hwidths : Widths fields)
    (hsmall : bits fields < 4294967296)
    (hpart : ∀ count, 0 < count → count ≤ fields.length → bits (fields.take count) % 32 ≠ 0)
    (last : List Field) : ∀ {front back : List Field}, fields = front ++ last.reverse ++ back →
      { nix with used := bits back }.extractAll (last.map Prod.snd) =
        some (last.map Prod.fst, { nix with used := bits (last.reverse ++ back) }) := by
  induction last with
  | nil => exact fun _ => rfl
  | cons field last ih =>
      intro front back heq
      have hlater : fields = front ++ last.reverse ++ field :: back := by
        rw [heq, List.reverse_cons, ← List.append_assoc, List.append_assoc _ [field]]
        rfl
      have hwidth := hwidths field (hlater ▸ List.mem_append_right _ List.mem_cons_self)
      have hbits : bits fields = bits (front ++ last.reverse) + (field.2 + bits back) := by
        rw [hlater, bits_append, bits_cons]
      have hnext := ih hlater
      rw [bits_cons] at hnext
      have htake := hpart ((front ++ last.reverse).length + 1) (Nat.succ_pos _) (by
        rw [hlater, @List.length_append _ (front ++ last.reverse), List.length_cons]
        omega)
      rw [hlater, List.take_length_add_append, List.take_succ_cons, List.take_zero, bits_append,
        bits_cons, bits_nil, Nat.add_zero] at htake
      have hextract := @Holds.extractNeighborIndex fields { nix with used := bits back }
        ⟨holds.words, holds.number, holds.length, holds.totalBitSize⟩ hsmall field.2
        (bits (front ++ last.reverse) + field.2) hwidth (Nat.le_add_left _ _)
        (by show bits back + _ = _; omega)
      rw [if_neg htake, Nat.add_sub_cancel, hlater, packed_field (hlater ▸ fit)] at hextract
      rw [List.map_cons, NixVector.extractAll, hextract, Option.bind_some, Nat.add_comm (bits back),
        hnext, Option.map_some, List.reverse_cons, List.append_assoc]
      rfl

end Extracting

/-! ## Serialization -/

/-- What is written of a nix-vector is read back; the epoch is not written without any bits. -/
theorem Holds.section {fields : List Field} {nix : NixVector} (holds : Holds fields nix)
    (hsmall : bits fields < 4294967296) (hused : nix.used ≤ bits fields) :
    ∃ words, nix.toSection = some words ∧
      ofSection words = some { nix with epoch := if bits fields = 0 then 0 else nix.epoch } := by
  obtain ⟨-, -, hlength, htotal⟩ := holds
  rw [Nat.mod_eq_of_lt hsmall] at htotal
  by_cases hnone : bits fields = 0
  · rw [hnone] at htotal hlength hused
    obtain ⟨words, used, total, epoch⟩ := nix
    obtain rfl : words = [] := List.eq_nil_of_length_eq_zero hlength
    obtain rfl : used = 0 := Nat.le_zero.mp hused
    obtain rfl : total = 0 := htotal
    exact ⟨[8, 0], rfl, by rw [if_pos hnone]; rfl⟩
  · have hsize : nix.getSerializedSize = 12 + 4 * nix.nixVector.length := by
      rw [getSerializedSize, if_neg (by omega)]
      omega
    have hwords : nix.totalBitSize / 32 + (if nix.totalBitSize % 32 ≠ 0 then 1 else 0) =
        nix.nixVector.length := by
      split <;> omega
    refine ⟨(nix.getSerializedSize + 4) :: nix.totalBitSize :: nix.used :: nix.nixVector ++
      [nix.epoch], ?_, ?_⟩
    · rw [toSection, serialize, if_neg (Nat.lt_irrefl _), if_neg (by omega)]
      rfl
    · rw [List.cons_append, List.cons_append, List.cons_append, ofSection, if_pos (by omega),
        deserialize, if_neg (by omega), if_neg (by omega)]
      simp only [hwords]
      rw [if_neg (by omega), List.getElem?_append_right (Nat.le_refl _), Nat.sub_self,
        List.getElem?_cons_zero, Option.map_some, List.take_left, if_neg hnone]

/-! ## The stack -/

/--
The vector of a sequence of fields: it has as many words as its bits need at
every point, the fields come out again from the last one on, and at every point
a vector that is written and read yields the same indexes from then on.
-/
structure IsStack (epoch : Nat) (fields : List Field) : Prop where
  words : ∀ count, ∃ nix, addAll { epoch } (fields.take count) = some nix ∧
    nix.nixVector.length = (bits (fields.take count) + 31) / 32
  extracts : ∃ nix, addAll { epoch } fields = some nix ∧ ∀ count, ∃ rest,
    nix.extractAll ((fields.reverse.take count).map Prod.snd) =
      some ((fields.reverse.take count).map Prod.fst, rest) ∧
    rest.nixVector.length = (bits fields + 31) / 32 ∧
    ∃ words copy, rest.toSection = some words ∧ ofSection words = some copy ∧
      ∀ widths, (copy.extractAll widths).map Prod.fst = (rest.extractAll widths).map Prod.fst

/-- The epoch plays no part in an extraction. -/
theorem extractNeighborIndex_epoch (nix : NixVector) (epoch width : Nat) :
    { nix with epoch }.extractNeighborIndex width =
      (nix.extractNeighborIndex width).map fun first => (first.1, { first.2 with epoch }) := by
  have hremaining : { nix with epoch }.getRemainingBits = nix.getRemainingBits := rfl
  rw [extractNeighborIndex, extractNeighborIndex, hremaining]
  by_cases hvalid : 32 < width ∨ nix.getRemainingBits < width ∨ width = 0
  · rw [if_pos hvalid, if_pos hvalid, Option.map_none]
  · rw [if_neg hvalid, if_neg hvalid, Option.map_map]
    rfl

theorem extractAll_epoch (widths : List Nat) : ∀ (nix : NixVector) (epoch : Nat),
    ({ nix with epoch }.extractAll widths).map Prod.fst = (nix.extractAll widths).map Prod.fst := by
  induction widths with
  | nil => exact fun _ _ => rfl
  | cons width widths ih =>
      intro nix epoch
      rw [NixVector.extractAll, NixVector.extractAll, extractNeighborIndex_epoch, Option.bind_map,
        Option.map_bind, Option.map_bind]
      refine congrArg _ (funext fun first => ?_)
      have hrest := congrArg (Option.map fun others => first.1 :: others) (ih first.2 epoch)
      rw [Option.map_map, Option.map_map] at hrest
      simp only [Function.comp, Option.map_map]
      exact hrest

/-- The sum of the widths is the number of bits. -/
theorem sum_widths (fields : List Field) : (fields.reverse.map Prod.snd).sum = bits fields := by
  rw [List.map_reverse, List.sum_reverse]
  induction fields with
  | nil => rfl
  | cons field fields ih => rw [List.map_cons, List.sum_cons, ih, bits_cons]

/--
A nix-vector is a stack of its fields exactly when they have fewer than `2 ^ 32`
bits and no extraction finds a multiple of 32 bits left.
-/
theorem isStack_iff (epoch : Nat) (fields : List Field) (hwidths : Widths fields)
    (fit : Fit fields) :
    IsStack epoch fields ↔ bits fields < 4294967296 ∧
      ∀ count, 0 < count → count ≤ fields.length → bits (fields.take count) % 32 ≠ 0 := by
  obtain ⟨nix, hadd, holds, hused, -⟩ := (holds_nil epoch).addAll fields fit hwidths
  rw [List.nil_append] at holds
  constructor
  · rintro ⟨-, other, hother, hextracts⟩
    obtain rfl : nix = other := Option.some.inj (hadd.symm.trans hother)
    have htotal : nix.totalBitSize < 4294967296 := by
      rw [holds.totalBitSize]
      omega
    have hstart : nix.used ≤ nix.totalBitSize := by
      rw [hused]
      exact Nat.zero_le _
    have hsmall : bits fields < 4294967296 := by
      obtain ⟨rest, hall, -⟩ := hextracts fields.length
      rw [List.take_of_length_le (Nat.le_of_eq List.length_reverse)] at hall
      have hsum := (extractAll_some _ hall hstart htotal).1
      rw [sum_widths] at hsum
      omega
    refine ⟨hsmall, fun count hpos hle hwhole => ?_⟩
    -- The extraction that finds these fields left is part of the longest one.
    obtain ⟨rest, hall, -⟩ := hextracts (fields.length - count + 1)
    obtain ⟨before, field, after, hfields, hbefore⟩ :
        ∃ before field after, fields = before ++ field :: after ∧ before.length + 1 = count := by
      obtain ⟨index, rfl⟩ := Nat.exists_eq_succ_of_ne_zero hpos.ne'
      refine ⟨fields.take index, fields[index], fields.drop (index + 1), ?_, ?_⟩
      · rw [← List.drop_eq_getElem_cons, List.take_append_drop]
      · rw [List.length_take, Nat.min_eq_left (Nat.le_of_succ_le hle)]
    have hafter : fields.length - count = after.reverse.length := by
      rw [hfields, List.length_append, List.length_cons, List.length_reverse]
      omega
    have hwidth := hwidths field (hfields ▸ List.mem_append_right _ List.mem_cons_self)
    rw [hfields, List.reverse_append, List.reverse_cons, List.append_assoc, ← hfields, hafter,
      List.take_length_add_append, List.singleton_append, List.take_succ_cons, List.take_zero,
      List.map_append, extractAll_append] at hall
    obtain ⟨first, hfirst, hlast⟩ := Option.bind_eq_some_iff.mp hall
    obtain ⟨last, hlast, -⟩ := Option.map_eq_some_iff.mp hlast
    obtain ⟨single, hsingle, -⟩ := Option.bind_eq_some_iff.mp hlast
    obtain ⟨hsum, hnext⟩ := extractAll_some _ hfirst hstart htotal
    rw [sum_widths, hused, Nat.zero_add] at hnext
    have htake : bits (fields.take count) = bits before + field.2 := by
      rw [hfields, ← hbefore, List.take_length_add_append, List.take_succ_cons, List.take_zero,
        bits_append, bits_cons, bits_nil, Nat.add_zero]
    have hextract := @Holds.extractNeighborIndex fields first.2
      ⟨by rw [hnext]; exact holds.words, by rw [hnext]; exact holds.number,
        by rw [hnext]; exact holds.length, by rw [hnext]; exact holds.totalBitSize⟩ hsmall field.2
      (bits (fields.take count)) hwidth (by omega) (by
        rw [hnext, htake]
        show bits after + _ = _
        rw [hfields, bits_append, bits_cons]
        omega)
    rw [if_pos hwhole] at hextract
    exact Option.some_ne_none _ (hsingle.symm.trans hextract)
  · rintro ⟨hsmall, hpart⟩
    refine ⟨fun count => ?_, nix, hadd, fun count => ?_⟩
    · have hmem : ∀ field ∈ fields.take count, field ∈ fields :=
        fun _ => List.mem_of_mem_take
      obtain ⟨part, hpartAdd, hpartHolds, -⟩ := (holds_nil epoch).addAll (fields.take count)
        (fun field h => fit field (hmem field h)) (fun field h => hwidths field (hmem field h))
      exact ⟨part, hpartAdd, hpartHolds.length⟩
    · have hsplit : fields = fields.take (fields.length - count) ++
          (fields.reverse.take count).reverse ++ [] := by
        rw [List.append_nil, List.reverse_take, List.reverse_reverse, List.length_reverse,
          List.take_append_drop]
      have hextract := holds.extractAll fit hwidths hsmall hpart _ hsplit
      rw [List.append_nil] at hextract
      have hsame : { nix with used := bits [] } = nix := by
        rw [bits_nil, ← show nix.used = 0 from hused]
      rw [hsame] at hextract
      have hpopped : bits (fields.reverse.take count).reverse ≤ bits fields := by
        conv_rhs => rw [hsplit, bits_append, bits_append]
        omega
      refine ⟨_, hextract, holds.length, ?_⟩
      obtain ⟨words, hwords, hcopy⟩ := @Holds.section fields
        { nix with used := bits (fields.reverse.take count).reverse }
        ⟨holds.words, holds.number, holds.length, holds.totalBitSize⟩ hsmall hpopped
      exact ⟨words, _, hwords, hcopy, fun widths => extractAll_epoch widths _ _⟩

/-- Two fields that leave no multiple of 32 bits. -/
theorem isStack_iff_two : IsStack 7 [(5, 3), (70000, 32)] ↔ bits [(5, 3), (70000, 32)] < 4294967296 ∧
    ∀ count, 0 < count → count ≤ 2 → bits ([(5, 3), (70000, 32)].take count) % 32 ≠ 0 :=
  isStack_iff 7 [(5, 3), (70000, 32)] (by decide) (by decide)

/-- An index of 32 bits cannot be extracted: the word would be shifted by 32. -/
theorem not_isStack_word : ¬ IsStack 0 [(5, 32)] := by
  rintro ⟨-, nix, hadd, hextracts⟩
  obtain rfl := Option.some.inj hadd
  obtain ⟨rest, hextract, -⟩ := hextracts 1
  exact absurd hextract (Option.some_ne_none _ ∘ Eq.symm)

end NixVector

end DeepcV2x.Packets
