import Mathlib.Data.List.Nodup

/-!
# Ordered tables

A table is a list of entries with distinct keys.  `upsert` changes the value
of a key in place or appends a new entry, so the keys keep the order of their
first insertion; `erase` drops the entries of a key.
-/

namespace DeepcV2x.Foundation.Association

variable {Key Value : Type*}

abbrev Table (Key Value : Type*) := List (Key × Value)

def keys (table : Table Key Value) : List Key := table.map Prod.fst

variable [DecidableEq Key]

def lookup (key : Key) : Table Key Value → Option Value
  | [] => none
  | entry :: rest => if entry.1 = key then some entry.2 else lookup key rest

/-- Change the value of a key; the change sees whether there was one. -/
def upsert (key : Key) (change : Option Value → Value) : Table Key Value → Table Key Value
  | [] => [(key, change none)]
  | entry :: rest =>
      if entry.1 = key then (entry.1, change (some entry.2)) :: rest
      else entry :: upsert key change rest

theorem lookup_upsert (key other : Key) (change : Option Value → Value)
    (table : Table Key Value) :
    lookup other (upsert key change table) =
      if other = key then some (change (lookup key table)) else lookup other table := by
  induction table with
  | nil =>
      by_cases same : other = key
      · simp [upsert, lookup, same]
      · simp [upsert, lookup, same, Ne.symm same]
  | cons entry rest ih =>
      by_cases here : entry.1 = key
      · by_cases same : other = key
        · simp [upsert, lookup, here, same]
        · simp [upsert, lookup, here, same, Ne.symm same]
      · by_cases same : other = key
        · subst same
          simpa [upsert, lookup, here] using ih
        · by_cases hit : entry.1 = other
          · simp [upsert, lookup, same, hit]
          · simpa [upsert, lookup, here, same, hit] using ih

def erase (key : Key) (table : Table Key Value) : Table Key Value :=
  table.filter fun entry => entry.1 ≠ key

theorem lookup_erase (key other : Key) (table : Table Key Value) :
    lookup other (erase key table) = if other = key then none else lookup other table := by
  induction table with
  | nil => simp [erase, lookup]
  | cons entry rest ih =>
      rw [erase] at ih ⊢
      by_cases here : entry.1 = key
      · by_cases same : other = key
        · simpa [lookup, here, same] using ih
        · simpa [lookup, here, same, Ne.symm same] using ih
      · by_cases same : other = key
        · subst same
          simpa [lookup, here] using ih
        · by_cases hit : entry.1 = other
          · simp [lookup, same, hit]
          · simpa [lookup, here, same, hit] using ih

theorem lookup_isSome_iff (key : Key) (table : Table Key Value) :
    (lookup key table).isSome ↔ key ∈ keys table := by
  induction table with
  | nil => simp [lookup, keys]
  | cons entry rest ih =>
      by_cases here : entry.1 = key
      · simp [lookup, keys, here]
      · simpa [lookup, keys, here, Ne.symm here] using ih

theorem mem_keys_upsert (key other : Key) (change : Option Value → Value)
    (table : Table Key Value) :
    other ∈ keys (upsert key change table) ↔ other = key ∨ other ∈ keys table := by
  rw [← lookup_isSome_iff, lookup_upsert, ← lookup_isSome_iff]
  by_cases same : other = key <;> simp [same]

theorem keys_upsert_nodup (key : Key) (change : Option Value → Value)
    {table : Table Key Value} (hnodup : (keys table).Nodup) :
    (keys (upsert key change table)).Nodup := by
  induction table with
  | nil => simp [upsert, keys]
  | cons entry rest ih =>
      obtain ⟨hfresh, hrest⟩ := List.nodup_cons.mp hnodup
      by_cases here : entry.1 = key
      · simpa [upsert, keys, here] using hnodup
      · rw [upsert, if_neg here]
        refine List.nodup_cons.mpr ⟨?_, ih hrest⟩
        intro hmem
        rcases (mem_keys_upsert key entry.1 change rest).mp hmem with same | hin
        · exact here same
        · exact hfresh hin

/-- With distinct keys an entry is what a lookup of its key finds. -/
theorem lookup_eq_some_iff {table : Table Key Value} (hnodup : (keys table).Nodup) (key : Key)
    (value : Value) : lookup key table = some value ↔ (key, value) ∈ table := by
  induction table with
  | nil => simp [lookup]
  | cons entry rest ih =>
      obtain ⟨hfresh, hrest⟩ := List.nodup_cons.mp hnodup
      by_cases here : entry.1 = key
      · subst here
        have hnot : ∀ other, (entry.1, other) ∉ rest := fun other hmem =>
          hfresh (List.mem_map.mpr ⟨_, hmem, rfl⟩)
        simp [lookup, Prod.ext_iff, hnot, eq_comm]
      · simp [lookup, here, ih hrest, Prod.ext_iff, Ne.symm here]

/-! ## One entry and the others -/

theorem erase_cons (key : Key) (entry : Key × Value) (rest : Table Key Value) :
    erase key (entry :: rest) =
      if entry.1 = key then erase key rest else entry :: erase key rest := by
  by_cases here : entry.1 = key
  · rw [if_pos here]
    exact List.filter_cons_of_neg (by simp [here])
  · rw [if_neg here]
    exact List.filter_cons_of_pos (by simp [here])

theorem erase_of_not_mem {key : Key} {table : Table Key Value} (hfresh : key ∉ keys table) :
    erase key table = table := by
  refine List.filter_eq_self.mpr fun entry hmem => decide_eq_true fun hsame => hfresh ?_
  exact List.mem_map.mpr ⟨entry, hmem, hsame⟩

theorem keys_erase_nodup (key : Key) {table : Table Key Value} (hnodup : (keys table).Nodup) :
    (keys (erase key table)).Nodup :=
  hnodup.sublist (List.filter_sublist.map _)

theorem perm_erase_of_lookup {key : Key} {value : Value} {table : Table Key Value}
    (hnodup : (keys table).Nodup) (hlookup : lookup key table = some value) :
    table.Perm ((key, value) :: erase key table) := by
  induction table with
  | nil => cases hlookup
  | cons entry rest ih =>
      obtain ⟨hfresh, hrest⟩ := List.nodup_cons.mp hnodup
      rw [lookup] at hlookup
      split at hlookup
      next here =>
        subst here
        rw [erase_cons, if_pos rfl, ← Option.some.inj hlookup, erase_of_not_mem hfresh]
      next here =>
        rw [erase_cons, if_neg here]
        exact ((ih hrest hlookup).cons entry).trans (List.Perm.swap ..)

theorem upsert_perm_erase (key : Key) (change : Option Value → Value) {table : Table Key Value}
    (hnodup : (keys table).Nodup) :
    (upsert key change table).Perm ((key, change (lookup key table)) :: erase key table) := by
  induction table with
  | nil => exact List.Perm.refl _
  | cons entry rest ih =>
      obtain ⟨hfresh, hrest⟩ := List.nodup_cons.mp hnodup
      by_cases here : entry.1 = key
      · subst here
        rw [upsert, if_pos rfl, lookup, if_pos rfl, erase_cons, if_pos rfl, erase_of_not_mem hfresh]
      · rw [upsert, if_neg here, lookup, if_neg here, erase_cons, if_neg here]
        exact ((ih hrest).cons entry).trans (List.Perm.swap ..)

/-- An entry is erased, whatever its value was. -/
theorem erase_upsert (key : Key) (change : Option Value → Value) (table : Table Key Value) :
    erase key (upsert key change table) = erase key table := by
  induction table with
  | nil => rw [upsert, erase_cons, if_pos rfl]
  | cons entry rest ih =>
      by_cases here : entry.1 = key
      · rw [upsert, if_pos here, erase_cons, if_pos here, erase_cons, if_pos here]
      · rw [upsert, if_neg here, erase_cons, if_neg here, erase_cons, if_neg here, ih]

theorem erase_upsert_of_ne {key other : Key} (hne : key ≠ other) (change : Option Value → Value)
    (table : Table Key Value) :
    erase key (upsert other change table) = upsert other change (erase key table) := by
  induction table with
  | nil => rw [upsert, erase_cons, if_neg (Ne.symm hne), erase, List.filter_nil, upsert]
  | cons entry rest ih =>
      by_cases here : entry.1 = other
      · have hother : entry.1 ≠ key := fun hit => hne (hit.symm.trans here)
        rw [upsert, if_pos here, erase_cons, if_neg hother, erase_cons, if_neg hother, upsert,
          if_pos here]
      · rw [upsert, if_neg here]
        by_cases hit : entry.1 = key
        · rw [erase_cons, if_pos hit, erase_cons, if_pos hit, ih]
        · rw [erase_cons, if_neg hit, erase_cons, if_neg hit, ih, upsert, if_neg here]

/-- A found entry stands between entries with other keys. -/
theorem exists_split_of_lookup {key : Key} {value : Value} {table : Table Key Value}
    (hnodup : (keys table).Nodup) (hlookup : lookup key table = some value) :
    ∃ before after, table = before ++ (key, value) :: after ∧ key ∉ keys before ∧
      key ∉ keys after := by
  induction table with
  | nil => cases hlookup
  | cons entry rest ih =>
      obtain ⟨hfresh, hrest⟩ := List.nodup_cons.mp hnodup
      rw [lookup] at hlookup
      split at hlookup
      next here =>
        subst here
        obtain rfl := Option.some.inj hlookup
        exact ⟨[], rest, rfl, List.not_mem_nil, hfresh⟩
      next here =>
        obtain ⟨before, after, rfl, hbefore, hafter⟩ := ih hrest hlookup
        refine ⟨entry :: before, after, rfl, fun hmem => ?_, hafter⟩
        exact (List.mem_cons.mp hmem).elim (fun hsame => here hsame.symm) hbefore

theorem upsert_of_not_mem {key : Key} (change : Option Value → Value) {table : Table Key Value}
    (hfresh : key ∉ keys table) : upsert key change table = table ++ [(key, change none)] := by
  induction table with
  | nil => rfl
  | cons entry rest ih =>
      have here : entry.1 ≠ key := fun hsame => hfresh (hsame ▸ List.mem_cons_self)
      rw [upsert, if_neg here, ih fun hmem => hfresh (List.mem_cons_of_mem _ hmem), List.cons_append]

theorem upsert_append_cons {key : Key} (change : Option Value → Value) (value : Value)
    {before : Table Key Value} (hbefore : key ∉ keys before) (after : Table Key Value) :
    upsert key change (before ++ (key, value) :: after) =
      before ++ (key, change (some value)) :: after := by
  induction before with
  | nil => rw [List.nil_append, upsert, if_pos rfl, List.nil_append]
  | cons entry rest ih =>
      have here : entry.1 ≠ key := fun hsame => hbefore (hsame ▸ List.mem_cons_self)
      rw [List.cons_append, upsert, if_neg here,
        ih fun hmem => hbefore (List.mem_cons_of_mem _ hmem), List.cons_append]

theorem erase_append_cons {key : Key} (value : Value) {before after : Table Key Value}
    (hbefore : key ∉ keys before) (hafter : key ∉ keys after) :
    erase key (before ++ (key, value) :: after) = before ++ after := by
  have hfirst := erase_of_not_mem hbefore
  have hlast := erase_of_not_mem hafter
  rw [erase] at hfirst
  rw [erase, List.filter_append, hfirst]
  exact congrArg (before ++ ·) ((erase_cons key (key, value) after).trans
    ((if_pos rfl).trans hlast))

end DeepcV2x.Foundation.Association
