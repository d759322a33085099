import Mathlib.Algebra.Order.Group.Nat
import Mathlib.Data.List.Basic

/-!
# Messages cut into pieces

A chunk carries pieces of consecutive messages; its first piece may continue a
message of the chunks before it and its last one may be continued behind it.
Putting the chunks together again gives the messages, and leaving out chunks
leaves out messages.
-/

namespace DeepcV2x.Foundation.Segmentation

variable {Byte : Type}

structure Chunk (Byte : Type) where
  pieces : List (List Byte)
  continues : Bool
  continued : Bool

namespace Chunk

/-- The pieces with what was left before put in front. -/
def joined (left : List Byte) (chunk : Chunk Byte) : List (List Byte) :=
  match chunk.pieces with
  | [] => []
  | piece :: pieces => (left ++ piece) :: pieces

/-- The messages that end in a chunk. -/
def finished (left : List Byte) (chunk : Chunk Byte) : List (List Byte) :=
  if chunk.continued then (chunk.joined left).dropLast else chunk.joined left

/-- What a chunk leaves of a message that goes on. -/
def leaves (left : List Byte) (chunk : Chunk Byte) : List Byte :=
  if chunk.continued then (chunk.joined left).getLastD [] else []

theorem joined_flatten {left : List Byte} {chunk : Chunk Byte} (hpieces : chunk.pieces ≠ []) :
    (chunk.joined left).flatten = left ++ chunk.pieces.flatten := by
  rw [joined]
  cases hcases : chunk.pieces with
  | nil => exact absurd hcases hpieces
  | cons piece pieces => rw [List.flatten_cons, List.flatten_cons, List.append_assoc]

/-- A chunk moves its bytes behind what was left. -/
theorem finished_leaves {left : List Byte} {chunk : Chunk Byte} (hpieces : chunk.pieces ≠ []) :
    (chunk.finished left).flatten ++ chunk.leaves left = left ++ chunk.pieces.flatten := by
  rw [← joined_flatten hpieces, finished, leaves]
  split
  · have hne : chunk.joined left ≠ [] := by
      rw [joined]
      cases hcases : chunk.pieces with
      | nil => exact absurd hcases hpieces
      | cons piece pieces => exact List.cons_ne_nil _ _
    obtain ⟨front, last, hlast⟩ : ∃ front last, chunk.joined left = front ++ [last] :=
      ⟨_, _, (List.dropLast_append_getLast hne).symm⟩
    rw [hlast, List.dropLast_concat, List.getLastD_concat, List.flatten_append,
      List.flatten_singleton]
  · rw [List.append_nil]

/-- A piece before others ends the message it is of. -/
theorem finished_cons (left piece : List Byte) {pieces : List (List Byte)} (hne : pieces ≠ [])
    (continues continues' continued : Bool) :
    (⟨piece :: pieces, continues, continued⟩ : Chunk Byte).finished left =
        (left ++ piece) :: (⟨pieces, continues', continued⟩ : Chunk Byte).finished [] ∧
      (⟨piece :: pieces, continues, continued⟩ : Chunk Byte).leaves left =
        (⟨pieces, continues', continued⟩ : Chunk Byte).leaves [] := by
  cases pieces with
  | nil => exact absurd rfl hne
  | cons next pieces =>
      cases continued with
      | false => exact ⟨rfl, rfl⟩
      | true =>
          simp only [finished, leaves, joined, if_true, List.nil_append, List.dropLast_cons_cons,
            List.getLastD_cons, and_self]

/-- Something is left exactly when a message goes on. -/
theorem leaves_ne_nil_iff {left : List Byte} {chunk : Chunk Byte} (hpieces : chunk.pieces ≠ [])
    (hbytes : ∀ piece ∈ chunk.pieces, piece ≠ []) :
    chunk.leaves left ≠ [] ↔ chunk.continued = true := by
  rw [leaves]
  split
  next hcontinued =>
    refine iff_of_true ?_ hcontinued
    rw [joined]
    cases hcases : chunk.pieces with
    | nil => exact absurd hcases hpieces
    | cons piece pieces =>
        rw [hcases] at hbytes
        rcases List.eq_nil_or_concat pieces with rfl | ⟨front, last, rfl⟩
        · rw [List.getLastD_cons, List.getLastD_nil]
          exact fun hnil => hbytes piece List.mem_cons_self (List.append_eq_nil_iff.mp hnil).2
        · rw [List.concat_eq_append] at hbytes ⊢
          show ((left ++ piece) :: (front ++ [last])).getLastD [] ≠ []
          rw [← List.cons_append, List.getLastD_concat]
          exact hbytes last (List.mem_cons_of_mem _ (List.mem_append_right _ List.mem_cons_self))
  next hdone => exact iff_of_false (fun hne => hne rfl) hdone

end Chunk

/-! ## Putting chunks together -/

/-- The messages some chunks finish, and what is left of the last one. -/
def assemble (left : List Byte) : List (Chunk Byte) → List (List Byte) × List Byte
  | [] => ([], left)
  | chunk :: chunks =>
      let rest := assemble (chunk.leaves left) chunks
      (chunk.finished left ++ rest.1, rest.2)

theorem assemble_append (chunks others : List (Chunk Byte)) : ∀ left : List Byte,
    assemble left (chunks ++ others) =
      ((assemble left chunks).1 ++ (assemble (assemble left chunks).2 others).1,
        (assemble (assemble left chunks).2 others).2) := by
  induction chunks with
  | nil => exact fun left => rfl
  | cons chunk chunks ih =>
      intro left
      rw [List.cons_append, assemble, assemble, ih]
      simp only [List.append_assoc]

theorem assemble_snoc (left : List Byte) (chunks : List (Chunk Byte)) (chunk : Chunk Byte) :
    assemble left (chunks ++ [chunk]) =
      ((assemble left chunks).1 ++ chunk.finished (assemble left chunks).2,
        chunk.leaves (assemble left chunks).2) := by
  rw [assemble_append]
  simp only [assemble, List.append_nil]

/-- What is left before a chunk. -/
def leftBefore (chunks : List (Chunk Byte)) (number : Nat) : List Byte :=
  (assemble [] (chunks.take number)).2

/-- The messages finished before a chunk. -/
def finishedBefore (chunks : List (Chunk Byte)) (number : Nat) : List (List Byte) :=
  (assemble [] (chunks.take number)).1

theorem take_succ_of_getElem? {chunks : List (Chunk Byte)} {number : Nat} {chunk : Chunk Byte}
    (hchunk : chunks[number]? = some chunk) :
    chunks.take (number + 1) = chunks.take number ++ [chunk] := by
  rw [List.take_add_one, hchunk, Option.toList_some]

theorem leftBefore_succ {chunks : List (Chunk Byte)} {number : Nat} {chunk : Chunk Byte}
    (hchunk : chunks[number]? = some chunk) :
    leftBefore chunks (number + 1) = chunk.leaves (leftBefore chunks number) := by
  rw [leftBefore, take_succ_of_getElem? hchunk, assemble_snoc]
  rfl

theorem finishedBefore_succ {chunks : List (Chunk Byte)} {number : Nat} {chunk : Chunk Byte}
    (hchunk : chunks[number]? = some chunk) :
    finishedBefore chunks (number + 1) =
      finishedBefore chunks number ++ chunk.finished (leftBefore chunks number) := by
  rw [finishedBefore, take_succ_of_getElem? hchunk, assemble_snoc]
  rfl

/-- Messages finished earlier come first. -/
theorem finishedBefore_sublist (chunks : List (Chunk Byte)) {earlier later : Nat}
    (hle : earlier ≤ later) :
    (finishedBefore chunks earlier).Sublist (finishedBefore chunks later) := by
  have htake : chunks.take later = chunks.take earlier ++ (chunks.take later).drop earlier := by
    have := (List.take_append_drop earlier (chunks.take later)).symm
    rwa [List.take_take, Nat.min_eq_left hle] at this
  rw [finishedBefore, finishedBefore, htake, assemble_append]
  exact List.sublist_append_left _ _

/-- The marks of the chunks agree: one continues a message when the one before it left some. -/
def Consistent (chunks : List (Chunk Byte)) : Prop :=
  ∀ number chunk, chunks[number]? = some chunk → chunk.pieces ≠ [] ∧
    (∀ piece ∈ chunk.pieces, piece ≠ []) ∧
    (chunk.continues = true ↔ leftBefore chunks number ≠ [])

theorem leftBefore_append {chunks others : List (Chunk Byte)} {number : Nat}
    (hle : number ≤ chunks.length) : leftBefore (chunks ++ others) number = leftBefore chunks number := by
  rw [leftBefore, leftBefore, List.take_append_of_le_length hle]

theorem Consistent.nil : Consistent ([] : List (Chunk Byte)) :=
  fun _ _ hchunk => nomatch hchunk

theorem Consistent.snoc {chunks : List (Chunk Byte)} {chunk : Chunk Byte}
    (consistent : Consistent chunks) (hpieces : chunk.pieces ≠ [])
    (hbytes : ∀ piece ∈ chunk.pieces, piece ≠ [])
    (hcontinues : chunk.continues = true ↔ (assemble [] chunks).2 ≠ []) :
    Consistent (chunks ++ [chunk]) := by
  intro number other hother
  rcases Nat.lt_or_ge number chunks.length with hlt | hge
  · rw [List.getElem?_append_left hlt] at hother
    rw [leftBefore_append hlt.le]
    exact consistent number other hother
  · rw [List.getElem?_append_right hge] at hother
    have hzero : number - chunks.length = 0 := by
      by_contra hne
      rw [List.getElem?_eq_none (by rw [List.length_singleton]; omega)] at hother
      cases hother
    rw [hzero] at hother
    obtain rfl : chunk = other := Option.some.inj hother
    obtain rfl : number = chunks.length := by omega
    rw [leftBefore_append (Nat.le_refl _), leftBefore, List.take_length]
    exact ⟨hpieces, hbytes, hcontinues⟩

/-- The bytes of some chunks are those of the messages they finish and what they leave. -/
theorem assemble_flatten (chunks : List (Chunk Byte)) : ∀ left : List Byte,
    (∀ chunk ∈ chunks, chunk.pieces ≠ []) →
    (assemble left chunks).1.flatten ++ (assemble left chunks).2 =
      left ++ (chunks.map fun chunk => chunk.pieces.flatten).flatten := by
  induction chunks with
  | nil => exact fun left _ => (List.append_nil left).symm
  | cons chunk chunks ih =>
      intro left hpieces
      rw [assemble, List.map_cons, List.flatten_cons, List.flatten_append, List.append_assoc,
        ih _ fun other hmem => hpieces other (List.mem_cons_of_mem _ hmem), ← List.append_assoc,
        Chunk.finished_leaves (hpieces chunk List.mem_cons_self), List.append_assoc]

/-! ## Messages within some bytes -/

/-- The messages all of whose bytes are among the first ones of the stream. -/
def within : List (List Byte) → Nat → List (List Byte)
  | [], _ => []
  | message :: messages, count =>
      if message.length ≤ count then message :: within messages (count - message.length) else []

/-- The messages finished are those within the bytes of the chunks. -/
theorem within_finished (messages pending : List (List Byte)) (left : Nat)
    (hpending : ∀ message ∈ pending.head?, left < message.length) :
    within (messages ++ pending) (messages.flatten.length + left) = messages := by
  induction messages with
  | nil =>
      cases pending with
      | nil => rfl
      | cons message others =>
          rw [List.nil_append, within, List.flatten_nil, List.length_nil, Nat.zero_add,
            if_neg (Nat.not_le_of_lt (hpending message rfl))]
  | cons message messages ih =>
      rw [List.cons_append, within, List.flatten_cons, List.length_append, Nat.add_assoc,
        if_pos (Nat.le_add_right _ _), Nat.add_sub_cancel_left, ih]

end DeepcV2x.Foundation.Segmentation
