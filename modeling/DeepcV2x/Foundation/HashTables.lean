import DeepcV2x.Foundation.Association
import Mathlib.Data.List.Perm.Subperm

/-!
# Hash tables

A hash table is a table whose entries stand in the order of iteration, with
distinct keys as part of the value.  Two tables are equal when they have as
many entries and each entry of one is found in the other; their orders may
differ.
-/

namespace DeepcV2x.Foundation.Association

variable {Key Value Content : Type*}

structure HashTable (Key Value : Type*) where
  entries : Table Key Value
  distinct : (keys entries).Nodup

namespace HashTable

/-- The key iteration starts with. -/
def firstKey (table : HashTable Key Value) : Option Key := table.entries.head?.map Prod.fst

theorem perm_keys_of_subset {left right : HashTable Key Value}
    (subset : keys left.entries ⊆ keys right.entries)
    (lengths : left.entries.length = right.entries.length) :
    (keys left.entries).Perm (keys right.entries) := by
  apply (List.subperm_of_subset left.distinct subset).perm_of_length_le
  simp [keys, lengths]

theorem length_eq_of_keys {left right : HashTable Key Value}
    (same : ∀ key, key ∈ keys left.entries ↔ key ∈ keys right.entries) :
    left.entries.length = right.entries.length := by
  have perm := (List.perm_ext_iff_of_nodup left.distinct right.distinct).mpr same
  simpa [keys] using perm.length_eq

variable [DecidableEq Key]

def find (table : HashTable Key Value) (key : Key) : Option Value := lookup key table.entries

/-- Equality of the two tables, with a comparison of their values. -/
def equalBy (same : Value → Value → Bool) (left right : HashTable Key Value) : Bool :=
  decide (left.entries.length = right.entries.length) &&
    left.entries.all fun entry => (right.find entry.1).any fun value => same entry.2 value

theorem find_eq_some_iff (table : HashTable Key Value) (key : Key) (value : Value) :
    table.find key = some value ↔ (key, value) ∈ table.entries :=
  lookup_eq_some_iff table.distinct key value

theorem mem_keys_iff (table : HashTable Key Value) (key : Key) :
    key ∈ keys table.entries ↔ ∃ value, table.find key = some value := by
  rw [← lookup_isSome_iff, Option.isSome_iff_exists]
  rfl

/-- Tables compare equal exactly when every key finds the same content in both. -/
theorem equalBy_iff {same : Value → Value → Bool} {content : Value → Content}
    (hsame : ∀ value other, same value other = true ↔ content value = content other)
    (left right : HashTable Key Value) :
    equalBy same left right = true ↔
      ∀ key, (left.find key).map content = (right.find key).map content := by
  rw [equalBy, Bool.and_eq_true, decide_eq_true_iff, List.all_eq_true]
  constructor
  · rintro ⟨lengths, each⟩ key
    have found (key : Key) (value : Value) (hvalue : left.find key = some value) :
        ∃ other, right.find key = some other ∧ content value = content other := by
      have here := each (key, value) ((left.find_eq_some_iff key value).mp hvalue)
      obtain ⟨other, hother, heq⟩ := (Option.any_eq_true _ _).mp here
      exact ⟨other, hother, (hsame value other).mp heq⟩
    have subset : keys left.entries ⊆ keys right.entries := by
      intro key hkey
      obtain ⟨value, hvalue⟩ := (left.mem_keys_iff key).mp hkey
      obtain ⟨other, hother, -⟩ := found key value hvalue
      exact (right.mem_keys_iff key).mpr ⟨other, hother⟩
    cases hleft : left.find key with
    | some value =>
        obtain ⟨other, hother, heq⟩ := found key value hleft
        rw [hother, Option.map_some, Option.map_some, heq]
    | none =>
        cases hright : right.find key with
        | none => rfl
        | some other =>
            have hmem := (right.mem_keys_iff key).mpr ⟨other, hright⟩
            rw [← (perm_keys_of_subset subset lengths).mem_iff, left.mem_keys_iff, hleft] at hmem
            obtain ⟨value, hvalue⟩ := hmem
            cases hvalue
  · intro agree
    constructor
    · apply length_eq_of_keys
      intro key
      have hmap := congrArg Option.isSome (agree key)
      rw [Option.isSome_map, Option.isSome_map] at hmap
      rw [mem_keys_iff, mem_keys_iff, ← Option.isSome_iff_exists, ← Option.isSome_iff_exists, hmap]
    · intro entry hentry
      have hleft := (left.find_eq_some_iff entry.1 entry.2).mpr hentry
      have hmap := agree entry.1
      rw [hleft, Option.map_some] at hmap
      obtain ⟨other, hother, heq⟩ := Option.map_eq_some_iff.mp hmap.symm
      rw [hother, Option.any_some]
      exact (hsame entry.2 other).mpr heq.symm

/-! ## Updates -/

/-- The table without entries. -/
def empty : HashTable Key Value := ⟨[], List.nodup_nil⟩

/-- The number of entries. -/
def size (table : HashTable Key Value) : Nat := table.entries.length

/-- Give a key a value, in place where the key has one. -/
def put (table : HashTable Key Value) (key : Key) (value : Value) : HashTable Key Value :=
  ⟨upsert key (fun _ => value) table.entries, keys_upsert_nodup key _ table.distinct⟩

/-- Drop the entry of a key. -/
def erase (table : HashTable Key Value) (key : Key) : HashTable Key Value :=
  ⟨Association.erase key table.entries,
    table.distinct.sublist (List.Sublist.map _ List.filter_sublist)⟩

@[simp]
theorem find_empty (key : Key) : (empty : HashTable Key Value).find key = none := rfl

@[simp]
theorem find_put (table : HashTable Key Value) (key other : Key) (value : Value) :
    (table.put key value).find other = if other = key then some value else table.find other :=
  lookup_upsert key other _ table.entries

@[simp]
theorem find_erase (table : HashTable Key Value) (key other : Key) :
    (table.erase key).find other = if other = key then none else table.find other :=
  lookup_erase key other table.entries

/-- The size counts the keys that are found, over any list of all keys. -/
theorem size_eq_countP (table : HashTable Key Value) {all : List Key} (distinct : all.Nodup)
    (complete : ∀ key, key ∈ all) :
    table.size = all.countP fun key => (table.find key).isSome := by
  have perm : (keys table.entries).Perm (all.filter fun key => (table.find key).isSome) := by
    rw [List.perm_ext_iff_of_nodup table.distinct (distinct.filter _)]
    intro key
    rw [mem_keys_iff, List.mem_filter, ← Option.isSome_iff_exists]
    simp [complete key]
  rw [List.countP_eq_length_filter, ← perm.length_eq]
  simp [size, keys]

end HashTable

end DeepcV2x.Foundation.Association
