import DeepcV2x.Lte.RoundRobin

/-!
# Taking resource block groups

A retransmission and a new transmission both mark free RBGs of the subframe and
send their bitmap.  The two searches find distinct free RBGs and mark just those.
-/

namespace DeepcV2x.Lte.RoundRobin

open DeepcV2x.Foundation.Marks

/-- The RBGs of a cell fit a bitmap of 32 bits. -/
theorem rbgNum_lt {dlBandwidth rbgSize : Nat} (hsize : getRbgSize dlBandwidth = some rbgSize) :
    dlBandwidth / rbgSize < 32 := by
  have hlimit : ∃ index, type0AllocationRbg.findIdx?
      (fun limit => decide (dlBandwidth < limit)) = some index ∧ index + 1 = rbgSize := by
    simpa [getRbgSize] using hsize
  obtain ⟨index, hindex, rfl⟩ := hlimit
  simp only [type0AllocationRbg, List.findIdx?_cons, List.findIdx?_nil, decide_eq_true_eq]
    at hindex
  split at hindex
  · cases hindex
    omega
  · split at hindex
    · cases hindex
      change dlBandwidth / 2 < 32
      omega
    · split at hindex
      · cases hindex
        change dlBandwidth / 3 < 32
        omega
      · split at hindex
        · cases hindex
          change dlBandwidth / 4 < 32
          omega
        · cases hindex

/-- A bitmap of some RBGs of the cell. -/
def InCell (rbgNum rbBitmap : Nat) : Prop := rbBitmap ≠ 0 ∧ rbBitmap < 2 ^ rbgNum

theorem mem_rbgsOf {rbBitmap rbg : Nat} :
    rbg ∈ rbgsOf rbBitmap ↔ rbg < 32 ∧ rbBitmap.testBit rbg = true := by
  simp [rbgsOf]

theorem rbgsOf_nodup (rbBitmap : Nat) : (rbgsOf rbBitmap).Nodup :=
  List.nodup_range.filter _

theorem InCell.lt {rbgNum rbBitmap rbg : Nat} (hcell : InCell rbgNum rbBitmap)
    (hbit : rbBitmap.testBit rbg = true) : rbg < rbgNum := by
  have hpow := Nat.ge_two_pow_of_testBit hbit
  exact (Nat.pow_lt_pow_iff_right (by decide)).mp (lt_of_le_of_lt hpow hcell.2)

theorem InCell.rbgsOf_ne_nil {rbgNum rbBitmap : Nat} (hcell : InCell rbgNum rbBitmap)
    (hnum : rbgNum ≤ 32) : rbgsOf rbBitmap ≠ [] := by
  obtain ⟨rbg, hbit⟩ := Nat.exists_testBit_of_ne_zero hcell.1
  have hmem := mem_rbgsOf.mpr ⟨lt_of_lt_of_le (hcell.lt hbit) hnum, hbit⟩
  exact List.ne_nil_of_mem hmem

theorem mem_rbgsOf_maskOf {places : List Nat} (hnodup : places.Nodup)
    (hlt : ∀ place ∈ places, place < 32) (rbg : Nat) :
    rbg ∈ rbgsOf (maskOf places) ↔ rbg ∈ places := by
  rw [mem_rbgsOf, testBit_maskOf hnodup]
  exact ⟨And.right, fun hmem => ⟨hlt rbg hmem, hmem⟩⟩

theorem inCell_maskOf {rbgNum : Nat} {places : List Nat} (hnodup : places.Nodup)
    (hne : places ≠ []) (hlt : ∀ place ∈ places, place < rbgNum) :
    InCell rbgNum (maskOf places) := by
  constructor
  · intro hzero
    obtain ⟨place, hmem⟩ := List.exists_mem_of_ne_nil places hne
    have hbit := (testBit_maskOf hnodup place).mpr hmem
    rw [hzero, Nat.zero_testBit] at hbit
    cases hbit
  · refine Nat.lt_pow_two_of_testBit _ fun rbg hle => ?_
    rw [Bool.eq_false_iff, Ne, testBit_maskOf hnodup]
    exact fun hmem => absurd (hlt rbg hmem) (Nat.not_lt.mpr hle)

/-! ## The RBGs of a retransmission -/

theorem allFree_eq_true {rbgMap : List Bool} {rbgs : List Nat} :
    allFree rbgMap rbgs = some true ↔ ∀ rbg ∈ rbgs, rbgMap[rbg]? = some false := by
  induction rbgs with
  | nil => simp [allFree]
  | cons rbg rest ih =>
      cases hflag : rbgMap[rbg]? with
      | none => simp [allFree, hflag]
      | some taken =>
          cases taken with
          | true => simp [allFree, hflag]
          | false => simpa [allFree, hflag] using ih

theorem exists_flag {rbgMap : List Bool} {rbg : Nat} (hinside : rbg < rbgMap.length) :
    ∃ taken, rbgMap[rbg]? = some taken :=
  ⟨_, List.getElem?_eq_getElem hinside⟩

theorem exists_allFree {rbgMap : List Bool} {rbgs : List Nat}
    (hinside : ∀ rbg ∈ rbgs, rbg < rbgMap.length) : ∃ every, allFree rbgMap rbgs = some every := by
  induction rbgs with
  | nil => exact ⟨true, rfl⟩
  | cons rbg rest ih =>
      obtain ⟨taken, hflag⟩ := exists_flag (hinside rbg List.mem_cons_self)
      cases taken with
      | true => exact ⟨false, by simp [allFree, hflag]⟩
      | false =>
          obtain ⟨every, hevery⟩ := ih fun other hmem => hinside other (List.mem_cons_of_mem _ hmem)
          exact ⟨every, by simpa [allFree, hflag] using hevery⟩

/-- The search marks the free RBGs it finds. -/
theorem searchRbgs_marks {rbgNum startRbg needed left rbgId : Nat} {rbgMap after : List Bool}
    {found all : List Nat}
    (hsearch : searchRbgs rbgNum startRbg needed left rbgId rbgMap found = some (all, after)) :
    ∃ places, all = found ++ places ∧ FreeAt rbgMap places ∧ after = mark rbgMap places := by
  induction left generalizing rbgId rbgMap found with
  | zero =>
      rw [searchRbgs] at hsearch
      split at hsearch
      · cases hsearch
      · cases hsearch
        exact ⟨[], (List.append_nil _).symm, FreeAt.nil _, rfl⟩
  | succ left ih =>
      rw [searchRbgs] at hsearch
      split at hsearch
      · split at hsearch
        · cases hsearch
        · exact ih hsearch
        · next hfree =>
            obtain ⟨places, hall, hplaces, hafter⟩ := ih hsearch
            exact ⟨rbgId :: places, by simpa using hall, freeAt_cons hfree hplaces, hafter⟩
      · cases hsearch
        exact ⟨[], (List.append_nil _).symm, FreeAt.nil _, rfl⟩

/-- The search comes back to its start before its turns run out. -/
theorem exists_searchRbgs {rbgNum startRbg needed left gone : Nat} {rbgMap : List Bool}
    (hlength : rbgMap.length = rbgNum) (hstart : startRbg < rbgNum) (hgone : gone < rbgNum)
    (hleft : gone + left = rbgNum) (found : List Nat) :
    ∃ result, searchRbgs rbgNum startRbg needed left ((startRbg + 1 + gone) % rbgNum)
      rbgMap found = some result := by
  induction left generalizing gone rbgMap found with
  | zero => exact absurd hgone (by omega)
  | succ left ih =>
      have hpos : 0 < rbgNum := by omega
      have hinside : (startRbg + 1 + gone) % rbgNum < rbgMap.length := by
        rw [hlength]
        exact Nat.mod_lt _ hpos
      obtain ⟨taken, hflag⟩ := exists_flag hinside
      have hnext : ((startRbg + 1 + gone) % rbgNum + 1) % rbgNum =
          (startRbg + 1 + (gone + 1)) % rbgNum := by
        rw [Nat.mod_add_mod]
        rfl
      rw [searchRbgs]
      split
      · next hgo =>
          have hmore : gone + 1 < rbgNum := by
            by_contra hlast
            have hround : startRbg + 1 + gone = startRbg + rbgNum := by omega
            rw [hround, Nat.add_mod_right, Nat.mod_eq_of_lt hstart] at hgo
            exact hgo.2 rfl
          rw [hnext, hflag]
          cases taken with
          | true => exact ih hlength hmore (by omega) found
          | false => exact ih (by simpa using hlength) hmore (by omega) _
      · exact ⟨_, rfl⟩

/-- Where the RBGs of a bitmap are in the cell, the placement is decided. -/
theorem placeRetx_isSome {rbgNum rbBitmap : Nat} {rbgMap : List Bool}
    (hlength : rbgMap.length = rbgNum) (hnum : rbgNum ≤ 32) (hcell : InCell rbgNum rbBitmap) :
    (placeRetx rbgNum rbgMap rbBitmap).isSome := by
  have hinside : ∀ rbg ∈ rbgsOf rbBitmap, rbg < rbgMap.length := fun rbg hmem =>
    hlength ▸ hcell.lt (mem_rbgsOf.mp hmem).2
  obtain ⟨every, hevery⟩ := exists_allFree hinside
  cases every with
  | true => simp [placeRetx, hevery]
  | false =>
      have hlast := List.getLast?_eq_some_getLast (hcell.rbgsOf_ne_nil hnum)
      have hstart := hinside _ (List.getLast_mem (hcell.rbgsOf_ne_nil hnum))
      rw [hlength] at hstart
      obtain ⟨⟨found, rbgMapCopy⟩, hresult⟩ :
          ∃ result, searchRbgs rbgNum ((rbgsOf rbBitmap).getLast (hcell.rbgsOf_ne_nil hnum))
            (rbgsOf rbBitmap).length rbgNum
            (((rbgsOf rbBitmap).getLast (hcell.rbgsOf_ne_nil hnum) + 1) % rbgNum) rbgMap [] =
              some result :=
        exists_searchRbgs hlength hstart (by omega) (Nat.zero_add _) []
      by_cases hfound : found.length = (rbgsOf rbBitmap).length
      · simp [placeRetx, hevery, hlast, hresult, hfound]
      · simp [placeRetx, hevery, hlast, hresult, hfound]

/-- A placement takes free RBGs, as many as before, and sends their bitmap. -/
structure Takes (rbgNum : Nat) (rbgMap : List Bool) (placement : Placement) (places : List Nat) :
    Prop where
  freeAt : FreeAt rbgMap places
  marked : placement.rbgMap = mark rbgMap places
  counted : placement.rbgAllocated = places.length
  bitmap : ∀ rbg, rbg ∈ rbgsOf placement.rbBitmap ↔ rbg ∈ places
  inCell : InCell rbgNum placement.rbBitmap

theorem placeRetx_takes {rbgNum rbBitmap : Nat} {rbgMap : List Bool} {placement : Placement}
    (hlength : rbgMap.length = rbgNum) (hnum : rbgNum ≤ 32) (hcell : InCell rbgNum rbBitmap)
    (hplace : placeRetx rbgNum rbgMap rbBitmap = some placement)
    (htxed : placement.untxed = false) : ∃ places, Takes rbgNum rbgMap placement places := by
  rw [placeRetx] at hplace
  cases hfree : allFree rbgMap (rbgsOf rbBitmap) with
  | none => simp [hfree] at hplace
  | some every =>
      cases every with
      | true =>
          simp only [hfree, Option.bind_eq_bind, Option.bind_some, if_pos, Option.pure_def,
            Option.some.injEq] at hplace
          subst hplace
          exact ⟨rbgsOf rbBitmap, ⟨rbgsOf_nodup _, allFree_eq_true.mp hfree⟩, rfl, rfl,
            fun _ => Iff.rfl, hcell⟩
      | false =>
          cases hlast : (rbgsOf rbBitmap).getLast? with
          | none => simp [hfree, hlast] at hplace
          | some startRbg =>
              cases hsearch : searchRbgs rbgNum startRbg (rbgsOf rbBitmap).length rbgNum
                  ((startRbg + 1) % rbgNum) rbgMap [] with
              | none => simp [hfree, hlast, hsearch] at hplace
              | some result =>
                  obtain ⟨found, after⟩ := result
                  obtain ⟨places, hall, hplaces, hafter⟩ := searchRbgs_marks hsearch
                  rw [List.nil_append] at hall
                  subst hall
                  simp only [hfree, hlast, hsearch, Option.bind_eq_bind, Option.bind_some,
                    Bool.false_eq_true, if_false, Option.pure_def] at hplace
                  split at hplace
                  · next hfound =>
                      cases hplace
                      have hin : ∀ place ∈ found, place < rbgNum := fun place hmem =>
                        hlength ▸ hplaces.lt_length hmem
                      have hne : found ≠ [] := by
                        rw [← List.length_pos_iff, hfound, List.length_pos_iff]
                        exact hcell.rbgsOf_ne_nil hnum
                      exact ⟨found, hplaces, hafter, rfl,
                        mem_rbgsOf_maskOf hplaces.1 fun place hmem =>
                          lt_of_lt_of_le (hin place hmem) hnum,
                        inCell_maskOf hplaces.1 hne hin⟩
                  · cases hplace
                    cases htxed

/-! ## The RBGs of a new transmission -/

/-- With enough free RBGs, all at the pointer or behind, the next ones are taken. -/
theorem exists_takeRbgs {left wanted rbgAllocated : Nat} {rbgMap : List Bool} (taken : List Nat)
    (hbelow : ∀ rbg < rbgAllocated, rbgMap[rbg]? ≠ some false) (hwanted : wanted ≤ free rbgMap)
    (hleft : rbgMap.length < left + rbgAllocated) :
    ∃ places pointer,
      takeRbgs left wanted rbgMap rbgAllocated taken =
        some (taken ++ places, mark rbgMap places, pointer) ∧
      FreeAt rbgMap places ∧ places.length = wanted ∧
      ∀ rbg < pointer, (mark rbgMap places)[rbg]? ≠ some false := by
  induction left generalizing wanted rbgAllocated rbgMap taken with
  | zero =>
      have hzero : wanted = 0 := by
        have hnone := free_eq_zero fun rbg hflag =>
          hbelow rbg (lt_trans (List.getElem?_eq_some_iff.mp hflag).1 (by omega)) hflag
        omega
      subst hzero
      exact ⟨[], rbgAllocated, by simp [takeRbgs], FreeAt.nil _, rfl, hbelow⟩
  | succ left ih =>
      cases wanted with
      | zero => exact ⟨[], rbgAllocated, by simp [takeRbgs], FreeAt.nil _, rfl, hbelow⟩
      | succ wanted =>
          cases hflag : rbgMap[rbgAllocated]? with
          | none =>
              have hnone := free_eq_zero fun rbg hfree => by
                by_cases hlt : rbg < rbgAllocated
                · exact hbelow rbg hlt hfree
                · have hin := (List.getElem?_eq_some_iff.mp hfree).1
                  have hout := List.getElem?_eq_none_iff.mp hflag
                  omega
              omega
          | some flag =>
              cases flag with
              | true =>
                  have hnext : ∀ rbg < rbgAllocated + 1, rbgMap[rbg]? ≠ some false := by
                    intro rbg hlt hfree
                    rcases Nat.lt_succ_iff_lt_or_eq.mp hlt with hless | rfl
                    · exact hbelow rbg hless hfree
                    · rw [hflag] at hfree
                      cases hfree
                  obtain ⟨places, pointer, htake, hrest⟩ :=
                    ih taken hnext hwanted (by omega)
                  exact ⟨places, pointer, by simpa only [takeRbgs, hflag] using htake, hrest⟩
              | false =>
                  have hset := free_set hflag
                  have hnext : ∀ rbg < rbgAllocated + 1,
                      (rbgMap.set rbgAllocated true)[rbg]? ≠ some false := by
                    intro rbg hlt hfree
                    rw [List.getElem?_set] at hfree
                    split at hfree
                    · split at hfree <;> cases hfree
                    · next hne =>
                        exact hbelow rbg (lt_of_le_of_ne (Nat.le_of_lt_succ hlt)
                          fun same => hne same.symm) hfree
                  obtain ⟨places, pointer, htake, hplaces, hlength, hrest⟩ :=
                    ih (taken ++ [rbgAllocated]) hnext (Nat.le_of_succ_le_succ (hset ▸ hwanted))
                      (by rw [List.length_set]; omega)
                  refine ⟨rbgAllocated :: places, pointer, ?_, freeAt_cons hflag hplaces,
                    by rw [List.length_cons, hlength], hrest⟩
                  simpa only [takeRbgs, hflag, List.append_assoc, List.singleton_append,
                    mark_cons] using htake

end DeepcV2x.Lte.RoundRobin
