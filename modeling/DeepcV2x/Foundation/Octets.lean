import Mathlib.Algebra.Order.Group.Nat
import Mathlib.Data.List.Basic
import Mathlib.Tactic.Ring

/-!
# Octets in network order

Numbers written as octets, the most significant one first, and readers that
take octets from the front of a list.  A reader reads a piece when it takes it
from before any rest; what reads the pieces one after the other reads them
together.
-/

namespace DeepcV2x.Foundation.Octets

/-! ## Writing -/

/-- The lowest octets of a number, the most significant one first. -/
def hton : Nat → Nat → List UInt8
  | 0, _ => []
  | size + 1, value => UInt8.ofNat (value / 256 ^ size) :: hton size value

@[simp]
theorem length_hton (size value : Nat) : (hton size value).length = size := by
  induction size with
  | zero => rfl
  | succ size ih => rw [hton, List.length_cons, ih]

/-- The number of some octets, behind a number that was read before. -/
def number : Nat → List UInt8 → Nat
  | before, [] => before
  | before, octet :: rest => number (before * 256 + octet.toNat) rest

/-- Octets give back what they were written from. -/
theorem number_hton (size value : Nat) : ∀ before : Nat,
    number before (hton size value) = before * 256 ^ size + value % 256 ^ size := by
  induction size with
  | zero =>
      intro before
      rw [hton, number, Nat.pow_zero, Nat.mul_one, Nat.mod_one, Nat.add_zero]
  | succ size ih =>
      intro before
      have hoctet : (UInt8.ofNat (value / 256 ^ size)).toNat = value / 256 ^ size % 256 :=
        UInt8.toNat_ofNat'
      have hsplit : value % 256 ^ (size + 1) =
          value / 256 ^ size % 256 * 256 ^ size + value % 256 ^ size := by
        rw [Nat.pow_succ, Nat.mod_mul, Nat.add_comm, Nat.mul_comm]
      rw [hton, number, ih, hoctet, hsplit, Nat.pow_succ]
      ring

/-! ## Reading -/

/-- A reader takes octets from the front, or fails. -/
abbrev Reader (α : Type) : Type := StateT (List UInt8) Option α

/-- Any octet. -/
def octet : Reader UInt8
  | [] => none
  | first :: rest => some (first, rest)

/-- A number of some octets. -/
def ntoh (size : Nat) : Reader Nat := fun bytes =>
  if size ≤ bytes.length then some (number 0 (bytes.take size), bytes.drop size) else none

/-- A condition that is checked or not. -/
def ensure (checked : Bool) (holds : Bool) : Reader Unit := fun bytes =>
  if checked = true ∧ holds = false then none else some ((), bytes)

/-- A reader takes exactly a piece, whatever is behind it. -/
def Reads {α : Type} (reader : Reader α) (piece : List UInt8) (value : α) : Prop :=
  ∀ rest, reader (piece ++ rest) = some (value, rest)

section Rules

variable {α β : Type} {reader : Reader α} {next : α → Reader β} {value : α} {result : β}
  {piece : List UInt8} {pieces : List (List UInt8)}

theorem bind_of_eq {bytes rest : List UInt8} (hread : reader bytes = some (value, rest)) :
    (reader >>= next) bytes = next value rest := by
  show (reader bytes).bind (fun read => next read.1 read.2) = _
  rw [hread]
  rfl

/-- What a reader that is followed by another one did, when both did not fail. -/
theorem bind_inv {bytes rest : List UInt8} (hread : (reader >>= next) bytes = some (result, rest)) :
    ∃ value behind, reader bytes = some (value, behind) ∧ next value behind = some (result, rest) := by
  obtain ⟨⟨value, behind⟩, hfirst, hnext⟩ := Option.bind_eq_some_iff.mp hread
  exact ⟨value, behind, hfirst, hnext⟩

theorem Reads.pure (value : α) : Reads (Pure.pure value) [] value := fun _ => rfl

/-- One piece after the other. -/
theorem Reads.cons (hfirst : Reads reader piece value)
    (hnext : Reads (next value) pieces.flatten result) :
    Reads (reader >>= next) (piece :: pieces).flatten result := by
  intro rest
  rw [List.flatten_cons, List.append_assoc, bind_of_eq (hfirst _), hnext]

/-- The last piece. -/
theorem Reads.last (hlast : Reads reader piece value) : Reads reader [piece].flatten value := by
  rw [List.flatten_singleton]
  exact hlast

theorem Reads.map (hread : Reads reader piece value) (f : α → β) :
    Reads (f <$> reader) piece (f value) := by
  intro rest
  show (reader (piece ++ rest)).bind (fun read => some (f read.1, read.2)) = _
  rw [hread]
  rfl

/-- A condition that holds takes nothing. -/
theorem Reads.ensure {next : Unit → Reader β} {checked holds : Bool} (hholds : holds = true)
    (hnext : Reads (next ()) piece result) :
    Reads (Octets.ensure checked holds >>= next) piece result := by
  intro rest
  rw [bind_of_eq (if_neg fun hfail => Bool.false_ne_true (hfail.2.symm.trans hholds)), hnext]

theorem reads_octet (value : UInt8) : Reads octet [value] value := fun _ => rfl

theorem reads_ntoh {size value : Nat} (hvalue : value < 256 ^ size) :
    Reads (ntoh size) (hton size value) value := by
  intro rest
  rw [ntoh, if_pos (by rw [List.length_append, length_hton]; exact Nat.le_add_right _ _),
    List.take_left' (length_hton size value), List.drop_left' (length_hton size value), number_hton,
    Nat.zero_mul, Nat.zero_add, Nat.mod_eq_of_lt hvalue]

end Rules

/-! ## Words -/

def htonU16 (value : UInt16) : List UInt8 := hton 2 value.toNat

def htonU32 (value : UInt32) : List UInt8 := hton 4 value.toNat

def htonU64 (value : UInt64) : List UInt8 := hton 8 value.toNat

def ntohU16 : Reader UInt16 := UInt16.ofNat <$> ntoh 2

def ntohU32 : Reader UInt32 := UInt32.ofNat <$> ntoh 4

def ntohU64 : Reader UInt64 := UInt64.ofNat <$> ntoh 8

theorem reads_ntohU16 (value : UInt16) : Reads ntohU16 (htonU16 value) value := by
  have hread := (@reads_ntoh 2 _ value.toNat_lt).map UInt16.ofNat
  rwa [UInt16.ofNat_toNat] at hread

theorem reads_ntohU32 (value : UInt32) : Reads ntohU32 (htonU32 value) value := by
  have hread := (@reads_ntoh 4 _ value.toNat_lt).map UInt32.ofNat
  rwa [UInt32.ofNat_toNat] at hread

theorem reads_ntohU64 (value : UInt64) : Reads ntohU64 (htonU64 value) value := by
  have hread := (@reads_ntoh 8 _ value.toNat_lt).map UInt64.ofNat
  rwa [UInt64.ofNat_toNat] at hread

/-! ## Little endian -/

/-- The lowest octets of a number, the least significant one first. -/
def htol (size value : Nat) : List UInt8 := (hton size value).reverse

@[simp]
theorem length_htol (size value : Nat) : (htol size value).length = size := by
  rw [htol, List.length_reverse, length_hton]

def ltoh (size : Nat) : Reader Nat := fun bytes =>
  if size ≤ bytes.length then some (number 0 (bytes.take size).reverse, bytes.drop size) else none

theorem reads_ltoh_mod (size value : Nat) : Reads (ltoh size) (htol size value) (value % 256 ^ size) := by
  intro rest
  rw [ltoh, if_pos (by rw [List.length_append, length_htol]; exact Nat.le_add_right _ _),
    List.take_left' (length_htol size value), List.drop_left' (length_htol size value), htol,
    List.reverse_reverse, number_hton, Nat.zero_mul, Nat.zero_add]

theorem reads_ltoh {size value : Nat} (hvalue : value < 256 ^ size) :
    Reads (ltoh size) (htol size value) value := by
  have hread := reads_ltoh_mod size value
  rwa [Nat.mod_eq_of_lt hvalue] at hread

/-! ## Items up to the end -/

/-- Items are read as long as something remains, in a number of turns at most. -/
def readToEnd {α : Type} (item : Reader α) : Nat → List α → Reader (List α)
  | 0, before => fun bytes => if bytes = [] then some (before, []) else none
  | turns + 1, before => fun bytes =>
      if bytes = [] then some (before, [])
      else (item bytes).bind fun read => readToEnd item turns (before ++ [read.1]) read.2

/-- What was written of each item is read, one behind the other. -/
theorem readToEnd_spec {α : Type} {item : Reader α} {write : α → List UInt8} {elements : List α}
    (hsome : ∀ element, write element ≠ []) :
    ∀ {turns : Nat} {before : List α}, elements.length ≤ turns →
      (∀ element ∈ elements, Reads item (write element) element) →
      readToEnd item turns before (elements.map write).flatten = some (before ++ elements, []) := by
  induction elements with
  | nil =>
      intro turns before _ _
      rw [List.map_nil, List.flatten_nil, List.append_nil]
      cases turns <;> rfl
  | cons element rest ih =>
      intro turns before hle hall
      obtain ⟨hfirst, hrest⟩ := List.forall_mem_cons.mp hall
      cases turns with
      | zero => exact absurd hle (Nat.not_succ_le_zero _)
      | succ turns =>
          have hne : write element ++ (rest.map write).flatten ≠ [] := fun hnil =>
            hsome element (List.append_eq_nil_iff.mp hnil).1
          rw [List.map_cons, List.flatten_cons]
          refine (if_neg hne).trans ?_
          rw [hfirst, Option.bind_some, ih (Nat.le_of_succ_le_succ hle) hrest, List.append_assoc,
            List.singleton_append]

/-- There are turns enough when every item has an octet. -/
theorem length_le_flatten {α : Type} {write : α → List UInt8} (hsome : ∀ element, write element ≠ [])
    (elements : List α) : elements.length ≤ (elements.map write).flatten.length := by
  induction elements with
  | nil => exact Nat.zero_le _
  | cons element rest ih =>
      have hpos := List.length_pos_iff.mpr (hsome element)
      rw [List.map_cons, List.flatten_cons, List.length_append, List.length_cons]
      omega

end DeepcV2x.Foundation.Octets
