import DeepcV2x.Foundation.Slices
import DeepcV2x.Ipv4.Fragmentation

/-!
# Fragmentation and reassembly

The fragments of a datagram are kept in the order of their offsets, whatever
order they arrive in.  As long as the flag of the kept fragments tells whether
the end of the payload is among them, the datagram is entire exactly when the
fragments cover its payload.
-/

namespace DeepcV2x.Ipv4

open Foundation.Association Foundation.Slices

/-- Fragments that hold every byte of a payload and its end. -/
def Covers (payload : List UInt8) (pieces : List Ipv4PayloadHeaderPair) : Prop :=
  (∃ piece ∈ pieces, piece.2.fragmentOffset + piece.1.length = payload.length) ∧
    ∀ place < payload.length, ∃ piece ∈ pieces,
      piece.2.fragmentOffset ≤ place ∧ place < piece.2.fragmentOffset + piece.1.length

instance (payload : List UInt8) (pieces : List Ipv4PayloadHeaderPair) :
    Decidable (Covers payload pieces) :=
  inferInstanceAs (Decidable
    ((∃ piece ∈ pieces, piece.2.fragmentOffset + piece.1.length = payload.length) ∧
      ∀ place < payload.length, ∃ piece ∈ pieces,
        piece.2.fragmentOffset ≤ place ∧ place < piece.2.fragmentOffset + piece.1.length))

namespace Fragments

/-! ## The order of the offsets -/

theorem mem_insertFragment {fragment other : List UInt8 × Nat}
    {fragments : List (List UInt8 × Nat)} :
    other ∈ insertFragment fragment fragments ↔ other = fragment ∨ other ∈ fragments := by
  induction fragments with
  | nil => simp [insertFragment]
  | cons first rest ih =>
      rw [insertFragment]
      split
      · exact List.mem_cons
      · rw [List.mem_cons, ih, List.mem_cons]
        exact or_left_comm

theorem insertFragment_sorted {fragment : List UInt8 × Nat} {fragments : List (List UInt8 × Nat)}
    (hsorted : fragments.Pairwise fun first second => first.2 ≤ second.2) :
    (insertFragment fragment fragments).Pairwise fun first second => first.2 ≤ second.2 := by
  induction fragments with
  | nil => exact List.pairwise_singleton _ _
  | cons first rest ih =>
      obtain ⟨hfirst, hrest⟩ := List.pairwise_cons.mp hsorted
      rw [insertFragment]
      split
      · next hlt =>
          refine List.pairwise_cons.mpr ⟨List.forall_mem_cons.mpr ⟨Nat.le_of_lt hlt, ?_⟩, hsorted⟩
          exact fun other hmem => Nat.le_trans (Nat.le_of_lt hlt) (hfirst other hmem)
      · next hge =>
          refine List.pairwise_cons.mpr ⟨fun other hmem => ?_, ih hrest⟩
          rcases mem_insertFragment.mp hmem with rfl | hmem
          · exact Nat.le_of_not_lt hge
          · exact hfirst other hmem

/-! ## Fragments without a gap -/

/-- A place inside a fragment. -/
def Holds (fragment : List UInt8 × Nat) (place : Nat) : Prop :=
  fragment.2 ≤ place ∧ place < fragment.2 + fragment.1.length

/-- The loop finds a gap exactly when a place before some end is in no fragment. -/
theorem contiguous_iff {fragments : List (List UInt8 × Nat)}
    (hsorted : fragments.Pairwise fun first second => first.2 ≤ second.2)
    (hword : ∀ fragment ∈ fragments, fragment.2 + fragment.1.length < 65536) :
    ∀ lastEndOffset, contiguous lastEndOffset fragments = true ↔
      ∀ place, lastEndOffset ≤ place →
        (∃ fragment ∈ fragments, place < fragment.2 + fragment.1.length) →
        ∃ fragment ∈ fragments, Holds fragment place := by
  induction fragments with
  | nil => simp [contiguous]
  | cons first rest ih =>
      intro lastEndOffset
      obtain ⟨hfirst, hrest⟩ := List.pairwise_cons.mp hsorted
      obtain ⟨hend, hends⟩ := List.forall_mem_cons.mp hword
      rw [contiguous, Nat.add_comm first.1.length, Nat.mod_eq_of_lt hend]
      by_cases hgap : lastEndOffset < first.2
      · rw [if_pos hgap]
        refine iff_of_false (by decide) fun hall => ?_
        obtain ⟨fragment, hmem, hle, -⟩ :=
          hall lastEndOffset (Nat.le_refl _) ⟨first, List.mem_cons_self, by omega⟩
        rcases List.mem_cons.mp hmem with rfl | hmem
        · omega
        · have := hfirst fragment hmem
          omega
      · rw [if_neg hgap, ih hrest hends]
        constructor
        · rintro hall place hplace ⟨fragment, hmem, hlt⟩
          rcases Nat.lt_or_ge place (first.2 + first.1.length) with hin | hout
          · exact ⟨first, List.mem_cons_self, by omega, hin⟩
          · rcases List.mem_cons.mp hmem with rfl | hmem
            · omega
            · obtain ⟨other, hother, hholds⟩ := hall place (by omega) ⟨fragment, hmem, hlt⟩
              exact ⟨other, List.mem_cons_of_mem _ hother, hholds⟩
        · rintro hall place hplace ⟨fragment, hmem, hlt⟩
          obtain ⟨other, hother, hholds⟩ :=
            hall place (by omega) ⟨fragment, List.mem_cons_of_mem _ hmem, hlt⟩
          rcases List.mem_cons.mp hother with rfl | hother
          · obtain ⟨-, hbefore⟩ := hholds
            omega
          · exact ⟨other, hother, hholds⟩

/-- Slices without a gap are joined to a beginning of the payload. -/
theorem join_eq_take {payload : List UInt8} (hshort : payload.length < 65536)
    {fragments : List (List UInt8 × Nat)} :
    ∀ last ≤ payload.length, (∀ fragment ∈ fragments, IsSlice payload fragment.2 fragment.1) →
      contiguous last fragments = true →
      ∃ upTo ≤ payload.length, join (payload.take last) last fragments = payload.take upTo ∧
        last ≤ upTo ∧ ∀ fragment ∈ fragments, fragment.2 + fragment.1.length ≤ upTo := by
  induction fragments with
  | nil =>
      exact fun last hlast _ _ => ⟨last, hlast, rfl, Nat.le_refl _, fun _ hmem =>
        absurd hmem List.not_mem_nil⟩
  | cons first rest ih =>
      intro last hlast hslices hcontiguous
      obtain ⟨hslice, hrest⟩ := List.forall_mem_cons.mp hslices
      have hend := hslice.bound
      rw [contiguous, Nat.add_comm first.1.length, Nat.mod_eq_of_lt (by omega)] at hcontiguous
      by_cases hgap : last < first.2
      · rw [if_pos hgap] at hcontiguous
        exact absurd hcontiguous (by decide)
      · rw [if_neg hgap] at hcontiguous
        have hjoined : (if first.2 < last then
              if last - first.2 < first.1.length then
                payload.take last ++ createFragment first.1 (last - first.2)
                  (first.1.length - (last - first.2))
              else payload.take last
            else payload.take last ++ first.1) =
            payload.take (max last (first.2 + first.1.length)) := by
          split
          · split
            · rw [createFragment, ← List.length_drop, List.take_length,
                hslice.take_append_drop (by omega) (by omega), Nat.max_eq_right (by omega)]
            · rw [Nat.max_eq_left (by omega)]
          · have hsame : last = first.2 := by omega
            rw [hsame, hslice.take_append, Nat.max_eq_right (by omega)]
        obtain ⟨upTo, hle, hall, hbehind, hends⟩ :=
          ih (max last (first.2 + first.1.length)) (by omega) hrest hcontiguous
        refine ⟨upTo, hle, ?_, by omega, List.forall_mem_cons.mpr ⟨by omega, hends⟩⟩
        rw [join, hjoined, List.length_take, Nat.min_eq_left (by omega),
          Nat.mod_eq_of_lt (by omega), hall]

/-- Slices without a gap that reach the end of the payload give the payload. -/
theorem getPacket_eq {payload : List UInt8} (hshort : payload.length < 65536)
    {fragments : Fragments}
    (hslices : ∀ fragment ∈ fragments.fragments, IsSlice payload fragment.2 fragment.1)
    (hcontiguous : contiguous 0 fragments.fragments = true)
    (hend : ∃ fragment ∈ fragments.fragments, fragment.2 + fragment.1.length = payload.length) :
    fragments.getPacket = some payload := by
  obtain ⟨last, hmem, hlast⟩ := hend
  rw [getPacket]
  cases hfragments : fragments.fragments with
  | nil => exact absurd (hfragments ▸ hmem) List.not_mem_nil
  | cons first rest =>
      rw [hfragments] at hslices hcontiguous hmem
      obtain ⟨hslice, hrest⟩ := List.forall_mem_cons.mp hslices
      obtain ⟨upTo, hle, hjoin, -, hends⟩ :=
        join_eq_take hshort 0 (Nat.zero_le _) hslices hcontiguous
      have hreach := hends last hmem
      have hzero : first.2 = 0 := by
        by_contra hne
        rw [contiguous, if_pos (Nat.pos_of_ne_zero hne)] at hcontiguous
        exact absurd hcontiguous (by decide)
      rw [join, if_neg (by omega), List.take_zero, List.nil_append, List.take_of_length_le
        (by omega)] at hjoin
      exact congrArg some hjoin

end Fragments

/-! ## The fragments of one datagram -/

/-- A fragment at the end of the kept ones does not hide that the end of the payload was received;
one that is not at their end is not the first that has the end of the payload. -/
def InPlace (pieces : List Ipv4PayloadHeaderPair) (piece : Ipv4PayloadHeaderPair) : Prop :=
  if ∀ other ∈ pieces, other.2.fragmentOffset ≤ piece.2.fragmentOffset then
    piece.2.moreFragments = true → ∀ other ∈ pieces, other.2.moreFragments = true
  else piece.2.moreFragments = false → ∃ other ∈ pieces, other.2.moreFragments = false

instance (pieces : List Ipv4PayloadHeaderPair) (piece : Ipv4PayloadHeaderPair) :
    Decidable (InPlace pieces piece) :=
  inferInstanceAs (Decidable
    (if ∀ other ∈ pieces, other.2.fragmentOffset ≤ piece.2.fragmentOffset then
      piece.2.moreFragments = true → ∀ other ∈ pieces, other.2.moreFragments = true
    else piece.2.moreFragments = false → ∃ other ∈ pieces, other.2.moreFragments = false))

/-- The kept fragments are those received, and the flag tells whether the end is among them. -/
structure Assembling (payload : List UInt8) (datagram : Ipv4Header)
    (pieces : List Ipv4PayloadHeaderPair) (fragments : Fragments) : Prop where
  members : ∀ fragment, fragment ∈ fragments.fragments ↔
    ∃ piece ∈ pieces, (piece.1, piece.2.fragmentOffset) = fragment
  sorted : fragments.fragments.Pairwise fun first second => first.2 ≤ second.2
  flag : pieces ≠ [] → (fragments.moreFragment = false ↔
    ∃ piece ∈ pieces, piece.2.moreFragments = false)
  describes : ∀ piece ∈ pieces, Describes payload datagram piece

namespace Assembling

variable {payload : List UInt8} {datagram : Ipv4Header} {pieces : List Ipv4PayloadHeaderPair}
  {fragments : Fragments}

theorem nil : Assembling payload datagram [] {} where
  members := by simp
  sorted := List.Pairwise.nil
  flag := fun hne => absurd rfl hne
  describes := fun _ hmem => absurd hmem List.not_mem_nil

theorem atEnd_iff (assembling : Assembling payload datagram pieces fragments)
    (fragmentOffset : Nat) :
    fragments.AtEnd fragmentOffset ↔ ∀ other ∈ pieces, other.2.fragmentOffset ≤ fragmentOffset := by
  constructor
  · exact fun hend other hmem =>
      hend (other.1, other.2.fragmentOffset) ((assembling.members _).mpr ⟨other, hmem, rfl⟩)
  · intro hall fragment hmem
    obtain ⟨piece, hpiece, rfl⟩ := (assembling.members fragment).mp hmem
    exact hall piece hpiece

/-- A fragment that is in place keeps the flag right. -/
theorem addFragment (assembling : Assembling payload datagram pieces fragments)
    {piece : Ipv4PayloadHeaderPair} (describes : Describes payload datagram piece)
    (inPlace : InPlace pieces piece) :
    Assembling payload datagram (pieces ++ [piece])
      (fragments.addFragment piece.1 piece.2.fragmentOffset piece.2.moreFragments) := by
  constructor
  · intro fragment
    rw [Fragments.addFragment, Fragments.mem_insertFragment, assembling.members]
    constructor
    · rintro (rfl | ⟨other, hmem, rfl⟩)
      · exact ⟨piece, List.mem_append_right _ (List.mem_singleton_self _), rfl⟩
      · exact ⟨other, List.mem_append_left _ hmem, rfl⟩
    · rintro ⟨other, hmem, rfl⟩
      rcases List.mem_append.mp hmem with hmem | hmem
      · exact .inr ⟨other, hmem, rfl⟩
      · exact .inl (List.mem_singleton.mp hmem ▸ rfl)
  · exact Fragments.insertFragment_sorted assembling.sorted
  · intro _
    have hsplit : (∃ other ∈ pieces ++ [piece], other.2.moreFragments = false) ↔
        (∃ other ∈ pieces, other.2.moreFragments = false) ∨ piece.2.moreFragments = false := by
      simp [or_and_right, exists_or]
    rw [hsplit, Fragments.addFragment]
    rw [InPlace] at inPlace
    by_cases hend : fragments.AtEnd piece.2.fragmentOffset
    · rw [if_pos ((assembling.atEnd_iff _).mp hend)] at inPlace
      rw [if_pos hend]
      refine ⟨.inr, fun hsome => hsome.elim (fun ⟨other, hmem, hlast⟩ => ?_) id⟩
      by_contra hmore
      have hother := inPlace ((Bool.not_eq_false _).mp hmore) other hmem
      exact absurd (hother.symm.trans hlast) (by decide)
    · rw [if_neg fun hall => hend ((assembling.atEnd_iff _).mpr hall)] at inPlace
      rw [if_neg hend]
      have hne : pieces ≠ [] := by
        rintro rfl
        exact hend ((assembling.atEnd_iff _).mpr fun _ hmem => absurd hmem List.not_mem_nil)
      rw [assembling.flag hne]
      exact ⟨.inl, fun hsome => hsome.elim id inPlace⟩
  · intro other hmem
    rcases List.mem_append.mp hmem with hmem | hmem
    · exact assembling.describes other hmem
    · exact List.mem_singleton.mp hmem ▸ describes

/-- The end of a fragment is the end of the payload only for a last one. -/
theorem exists_end_iff (assembling : Assembling payload datagram pieces fragments) :
    (∃ piece ∈ pieces, piece.2.fragmentOffset + piece.1.length = payload.length) ↔
      ∃ piece ∈ pieces, piece.2.moreFragments = false := by
  constructor
  · exact fun ⟨piece, hmem, hend⟩ => ⟨piece, hmem, (assembling.describes piece hmem).last.mpr hend⟩
  · exact fun ⟨piece, hmem, hlast⟩ => ⟨piece, hmem, (assembling.describes piece hmem).last.mp hlast⟩

theorem slices (assembling : Assembling payload datagram pieces fragments) :
    ∀ fragment ∈ fragments.fragments, IsSlice payload fragment.2 fragment.1 := by
  intro fragment hmem
  obtain ⟨piece, hpiece, rfl⟩ := (assembling.members fragment).mp hmem
  exact ⟨(assembling.describes piece hpiece).slice, (assembling.describes piece hpiece).within⟩

/-- With the end among them, the fragments have no gap when they hold every byte. -/
theorem contiguous_iff (assembling : Assembling payload datagram pieces fragments)
    (hshort : payload.length ≤ 65515)
    (hend : ∃ piece ∈ pieces, piece.2.fragmentOffset + piece.1.length = payload.length) :
    Fragments.contiguous 0 fragments.fragments = true ↔
      ∀ place < payload.length, ∃ piece ∈ pieces,
        piece.2.fragmentOffset ≤ place ∧ place < piece.2.fragmentOffset + piece.1.length := by
  rw [Fragments.contiguous_iff assembling.sorted fun fragment hmem =>
    Nat.lt_of_le_of_lt (assembling.slices fragment hmem).bound (by omega)]
  constructor
  · intro hall place hplace
    obtain ⟨piece, hpiece, hlast⟩ := hend
    obtain ⟨fragment, hmem, hholds⟩ := hall place (Nat.zero_le _)
      ⟨_, (assembling.members _).mpr ⟨piece, hpiece, rfl⟩, hlast ▸ hplace⟩
    obtain ⟨other, hother, rfl⟩ := (assembling.members fragment).mp hmem
    exact ⟨other, hother, hholds⟩
  · rintro hall place - ⟨fragment, hmem, hlt⟩
    obtain ⟨piece, hpiece, hholds⟩ :=
      hall place (Nat.lt_of_lt_of_le hlt (assembling.slices fragment hmem).bound)
    exact ⟨_, (assembling.members _).mpr ⟨piece, hpiece, rfl⟩, hholds⟩

theorem isEntire_iff (assembling : Assembling payload datagram pieces fragments)
    (hshort : payload.length ≤ 65515) :
    fragments.isEntire = true ↔ Covers payload pieces := by
  rw [Fragments.isEntire, Bool.and_eq_true, Bool.and_eq_true, Bool.not_eq_true', Bool.not_eq_true',
    List.isEmpty_eq_false_iff, Covers]
  constructor
  · rintro ⟨⟨hflag, hne⟩, hcontiguous⟩
    obtain ⟨fragment, hmem⟩ := List.exists_mem_of_ne_nil _ hne
    obtain ⟨piece, hpiece, -⟩ := (assembling.members fragment).mp hmem
    have hend := assembling.exists_end_iff.mpr
      ((assembling.flag (List.ne_nil_of_mem hpiece)).mp hflag)
    exact ⟨hend, (assembling.contiguous_iff hshort hend).mp hcontiguous⟩
  · rintro ⟨hend, hall⟩
    have hsome := hend
    obtain ⟨piece, hpiece, -⟩ := hsome
    have hmem := (assembling.members _).mpr ⟨piece, hpiece, rfl⟩
    refine ⟨⟨?_, List.ne_nil_of_mem hmem⟩, (assembling.contiguous_iff hshort hend).mpr hall⟩
    exact (assembling.flag (List.ne_nil_of_mem hpiece)).mpr (assembling.exists_end_iff.mp hend)

theorem getPacket_eq (assembling : Assembling payload datagram pieces fragments)
    (hshort : payload.length ≤ 65515) (covers : Covers payload pieces) :
    fragments.getPacket = some payload := by
  have hcontiguous := (assembling.contiguous_iff hshort covers.1).mpr covers.2
  obtain ⟨piece, hpiece, hend⟩ := covers.1
  exact Fragments.getPacket_eq (by omega) assembling.slices hcontiguous
    ⟨_, (assembling.members _).mpr ⟨piece, hpiece, rfl⟩, hend⟩

end Assembling

/-! ## Runs -/

theorem fragmentsOf_upsert (table : Table FragmentKey Fragments) (key other : FragmentKey)
    (fragments : Fragments) :
    fragmentsOf (upsert key (fun _ => fragments) table) other =
      if other = key then fragments else fragmentsOf table other := by
  rw [fragmentsOf, lookup_upsert]
  split <;> rfl

theorem fragmentsOf_erase (table : Table FragmentKey Fragments) (key other : FragmentKey) :
    fragmentsOf (erase key table) other =
      if other = key then {} else fragmentsOf table other := by
  rw [fragmentsOf, lookup_erase]
  split <;> rfl

/-- `ProcessFragment` always returns, and leaves the fragments of other keys alone. -/
theorem processFragment_cases (table : Table FragmentKey Fragments) (packet : List UInt8)
    (ipHeader : Ipv4Header) :
    ∃ next returned reported,
      processFragment table packet ipHeader = some (next, returned, reported) ∧
      ∀ key, fragmentsOf next key =
        if key = fragmentKey ipHeader then
          if reported then {}
          else (fragmentsOf table key).addFragment packet ipHeader.fragmentOffset
            ipHeader.moreFragments
        else fragmentsOf table key := by
  rw [processFragment]
  by_cases hentire : ((fragmentsOf table (fragmentKey ipHeader)).addFragment packet
      ipHeader.fragmentOffset ipHeader.moreFragments).isEntire = true
  · rw [if_pos hentire]
    cases hget : ((fragmentsOf table (fragmentKey ipHeader)).addFragment packet
        ipHeader.fragmentOffset ipHeader.moreFragments).getPacket with
    | none =>
        rw [Fragments.getPacket] at hget
        split at hget
        · next hnil =>
            rw [Fragments.isEntire, hnil] at hentire
            simp at hentire
        · cases hget
    | some entire =>
        exact ⟨_, _, _, rfl, fun key => fragmentsOf_erase _ _ _⟩
  · rw [if_neg hentire]
    refine ⟨_, _, _, rfl, fun key => (fragmentsOf_upsert _ _ _ _).trans ?_⟩
    by_cases hkey : key = fragmentKey ipHeader
    · rw [hkey]
      rfl
    · rw [if_neg hkey, if_neg hkey]

/-- A fragment of an assembled datagram: what is reported and returned. -/
theorem Assembling.processFragment {payload : List UInt8} {datagram : Ipv4Header}
    {pieces : List Ipv4PayloadHeaderPair} {table : Table FragmentKey Fragments}
    (assembling : Assembling payload datagram pieces (fragmentsOf table (fragmentKey datagram)))
    (hshort : payload.length ≤ 65515) {piece : Ipv4PayloadHeaderPair}
    (describes : Describes payload datagram piece) (inPlace : InPlace pieces piece) :
    ∃ next returned reported,
      Ipv4.processFragment table piece.1 piece.2 = some (next, returned, reported) ∧
      (reported = true ↔ Covers payload (pieces ++ [piece])) ∧
      (reported = true → returned = payload) := by
  have hnext := assembling.addFragment describes inPlace
  rw [Ipv4.processFragment, describes.key]
  by_cases hcovers : Covers payload (pieces ++ [piece])
  · rw [if_pos ((hnext.isEntire_iff hshort).mpr hcovers), hnext.getPacket_eq hshort hcovers]
    exact ⟨_, _, _, rfl, iff_of_true rfl hcovers, fun _ => rfl⟩
  · rw [if_neg fun hentire => hcovers ((hnext.isEntire_iff hshort).mp hentire)]
    exact ⟨_, _, _, rfl, iff_of_false (by decide) hcovers, fun hreported => absurd hreported (by decide)⟩

namespace Reassembling

/-- The fragments of a datagram are kept, and do not cover it yet. -/
structure Holds (payload : List UInt8) (datagram : Ipv4Header) (reassembling : Reassembling) :
    Prop where
  assembling : Assembling payload datagram (reassembling.ofKey (fragmentKey datagram))
    (fragmentsOf reassembling.table (fragmentKey datagram))
  waits : ¬ Covers payload (reassembling.ofKey (fragmentKey datagram))

/-- A fragment with the key of the datagram is in place. -/
def Fits (datagram : Ipv4Header) (reassembling : Reassembling) (piece : Ipv4PayloadHeaderPair) :
    Prop :=
  fragmentKey piece.2 = fragmentKey datagram →
    InPlace (reassembling.ofKey (fragmentKey datagram)) piece

instance (datagram : Ipv4Header) (reassembling : Reassembling) (piece : Ipv4PayloadHeaderPair) :
    Decidable (Fits datagram reassembling piece) :=
  inferInstanceAs (Decidable (fragmentKey piece.2 = fragmentKey datagram →
    InPlace (reassembling.ofKey (fragmentKey datagram)) piece))

theorem init_holds (payload : List UInt8) (datagram : Ipv4Header) :
    ({} : Reassembling).Holds payload datagram where
  assembling := Assembling.nil
  waits := fun ⟨⟨_, hmem, _⟩, _⟩ => absurd hmem List.not_mem_nil

/-- What a step does to the fragments of a key, received and kept. -/
theorem step_cases (key : FragmentKey) (reassembling : Reassembling) (piece : Ipv4PayloadHeaderPair) :
    ∃ next returned reported,
      processFragment reassembling.table piece.1 piece.2 = some (next.table, returned, reported) ∧
      reassembling.step piece = some next ∧
      (fragmentKey piece.2 ≠ key → next.ofKey key = reassembling.ofKey key ∧
        fragmentsOf next.table key = fragmentsOf reassembling.table key) ∧
      (fragmentKey piece.2 = key → reported = true → next.ofKey key = [] ∧
        fragmentsOf next.table key = {}) ∧
      (fragmentKey piece.2 = key → reported = false →
        next.ofKey key = reassembling.ofKey key ++ [piece] ∧
        fragmentsOf next.table key = (fragmentsOf reassembling.table key).addFragment piece.1
          piece.2.fragmentOffset piece.2.moreFragments) := by
  obtain ⟨table, returned, reported, hprocess, htable⟩ :=
    processFragment_cases reassembling.table piece.1 piece.2
  refine ⟨{ table := table, received := _ }, returned, reported, hprocess,
    by rw [step, hprocess, Option.map_some], fun hother => ?_, fun hkey hreported => ?_,
    fun hkey hreported => ?_⟩
  · refine ⟨?_, (htable key).trans (if_neg (Ne.symm hother))⟩
    rw [ofKey, ofKey]
    cases reported with
    | true =>
        rw [if_pos rfl, List.filter_filter]
        refine List.filter_congr fun other _ => ?_
        by_cases hsame : fragmentKey other.2 = key
        · simp [hsame, Ne.symm hother]
        · simp [hsame]
    | false => simp [List.filter_append, hother]
  · refine ⟨?_, by rw [htable, if_pos hkey.symm, if_pos hreported]⟩
    rw [ofKey, if_pos hreported, List.filter_filter, hkey, List.filter_eq_nil_iff]
    exact fun other _ => by simp
  · refine ⟨?_, by rw [htable, if_pos hkey.symm, hreported]; rfl⟩
    rw [ofKey, ofKey, hreported]
    simp [List.filter_append, hkey]

/-- A fragment of the datagram, or any fragment with another key, keeps the invariant. -/
theorem step_holds {payload : List UInt8} {datagram : Ipv4Header}
    (hshort : payload.length ≤ 65515) {reassembling : Reassembling}
    (holds : reassembling.Holds payload datagram) {piece : Ipv4PayloadHeaderPair}
    (hdescribes : fragmentKey piece.2 = fragmentKey datagram → Describes payload datagram piece)
    (fits : reassembling.Fits datagram piece) :
    ∃ next, reassembling.step piece = some next ∧ next.Holds payload datagram := by
  obtain ⟨next, returned, reported, hprocess, hstep, hother, hentire, hkept⟩ :=
    step_cases (fragmentKey datagram) reassembling piece
  refine ⟨next, hstep, ?_⟩
  by_cases hkey : fragmentKey piece.2 = fragmentKey datagram
  · cases reported with
    | true =>
        obtain ⟨hpieces, htable⟩ := hentire hkey rfl
        exact ⟨by rw [hpieces, htable]; exact Assembling.nil,
          by rw [hpieces]; exact fun ⟨⟨_, hmem, _⟩, _⟩ => absurd hmem List.not_mem_nil⟩
    | false =>
        obtain ⟨hpieces, htable⟩ := hkept hkey rfl
        obtain ⟨_, _, _, hsame, hcovers, -⟩ :=
          holds.assembling.processFragment hshort (hdescribes hkey) (fits hkey)
        obtain rfl := (Prod.ext_iff.mp (Prod.ext_iff.mp
          (Option.some.inj (hprocess.symm.trans hsame))).2).2
        constructor
        · rw [hpieces, htable]
          exact holds.assembling.addFragment (hdescribes hkey) (fits hkey)
        · rw [hpieces]
          exact fun hall => absurd (hcovers.mpr hall) Bool.false_ne_true
  · obtain ⟨hpieces, htable⟩ := hother hkey
    exact ⟨by rw [hpieces, htable]; exact holds.assembling, by rw [hpieces]; exact holds.waits⟩

/-- Every fragmentation of a fragment of a datagram gives fragments of it that fit the MTU.  In every
run whose fragments are in place, whatever comes with other keys, the datagram is reported by the
first fragment with which its payload is covered, and it is its payload that is returned. -/
theorem fragments_reassemble {payload : List UInt8} {datagram : Ipv4Header}
    (isDatagram : IsDatagram payload datagram) :
    (∀ piece outIfaceMtu, Derived payload datagram piece → 28 ≤ outIfaceMtu →
      outIfaceMtu < 4294967296 →
      ∃ listFragments, doFragmentation piece.1 piece.2 outIfaceMtu = some listFragments ∧
        Fragmented payload datagram piece outIfaceMtu 0 listFragments) ∧
    ∀ arrivals : List Ipv4PayloadHeaderPair,
      (∀ piece ∈ arrivals, fragmentKey piece.2 = fragmentKey datagram →
        Derived payload datagram piece) →
      Foundation.Runs.Fitting step (Fits datagram) {} arrivals →
      ∃ reassembling, run {} arrivals = some reassembling ∧
        ¬ Covers payload (reassembling.ofKey (fragmentKey datagram)) ∧
        ∀ piece, Derived payload datagram piece →
          InPlace (reassembling.ofKey (fragmentKey datagram)) piece →
          ∃ table returned reported,
            processFragment reassembling.table piece.1 piece.2 = some (table, returned, reported) ∧
            (reported = true ↔
              Covers payload (reassembling.ofKey (fragmentKey datagram) ++ [piece])) ∧
            (reported = true → returned = payload) := by
  have hshort := isDatagram.short
  constructor
  · exact fun piece outIfaceMtu derived hmtu hword =>
      doFragmentation_fragmented (derived.describes isDatagram) hshort hmtu hword
  · intro arrivals hderived hfits
    obtain ⟨last, hrun, holds⟩ := Foundation.Runs.exists_run_of_fitting step
      (Holds payload datagram) (fun reassembling piece holds hfits =>
        step_holds hshort holds (fun hkey => (hfits.1 hkey).describes isDatagram) hfits.2)
      (init_holds payload datagram) (hfits.and_forall step hderived)
    exact ⟨last, hrun, holds.waits, fun piece derived inPlace =>
      holds.assembling.processFragment hshort (derived.describes isDatagram) inPlace⟩

/-- A datagram of 32 bytes. -/
def sent : Ipv4PayloadHeaderPair :=
  ((List.range 32).map UInt8.ofNat,
    { source := 167772161, destination := 167772162, identification := 7, protocol := 17,
      payloadSize := 32, fragmentOffset := 0, moreFragments := false })

theorem sent_isDatagram : IsDatagram sent.1 sent.2 := by
  constructor <;> decide

theorem sent_halves : doFragmentation sent.1 sent.2 36 =
    some [partOf sent 0 16 true, partOf sent 16 16 false] := by
  decide +kernel

theorem sent_quarters : doFragmentation sent.1 sent.2 28 =
    some [partOf sent 0 8 true, partOf sent 8 8 true, partOf sent 16 8 true,
      partOf sent 24 8 false] := by
  decide +kernel

theorem derived_half {piece : Ipv4PayloadHeaderPair}
    (hmem : piece ∈ [partOf sent 0 16 true, partOf sent 16 16 false]) :
    Derived sent.1 sent.2 piece :=
  .fragment .datagram (by decide) (by decide) sent_halves hmem

theorem derived_quarter {piece : Ipv4PayloadHeaderPair}
    (hmem : piece ∈ [partOf sent 0 8 true, partOf sent 8 8 true, partOf sent 16 8 true,
      partOf sent 24 8 false]) : Derived sent.1 sent.2 piece :=
  .fragment .datagram (by decide) (by decide) sent_quarters hmem

/-- The second quarter, the second half twice and a fragment of another datagram; then the first half
completes the datagram. -/
theorem fragments_reassemble_overlapping :
    ∃ reassembling table returned,
      run {} [partOf sent 8 8 true, partOf sent 16 16 false, partOf sent 16 16 false,
        ([], { sent.2 with identification := 8, moreFragments := true })] = some reassembling ∧
      processFragment reassembling.table (partOf sent 0 16 true).1 (partOf sent 0 16 true).2 =
        some (table, returned, true) ∧ returned = sent.1 := by
  obtain ⟨reassembling, hrun, -, hnext⟩ := (fragments_reassemble sent_isDatagram).2
    [partOf sent 8 8 true, partOf sent 16 16 false, partOf sent 16 16 false,
      ([], { sent.2 with identification := 8, moreFragments := true })]
    (by
      intro piece hmem hkey
      simp only [List.mem_cons, List.not_mem_nil, or_false] at hmem
      rcases hmem with rfl | rfl | rfl | rfl
      · exact derived_quarter (by simp)
      · exact derived_half (by simp)
      · exact derived_half (by simp)
      · exact absurd hkey (by decide))
    (by decide +kernel)
  have hall : ((run {} [partOf sent 8 8 true, partOf sent 16 16 false, partOf sent 16 16 false,
      ([], { sent.2 with identification := 8, moreFragments := true })]).all fun reassembling =>
        decide (InPlace (reassembling.ofKey (fragmentKey sent.2)) (partOf sent 0 16 true) ∧
          Covers sent.1 (reassembling.ofKey (fragmentKey sent.2) ++ [partOf sent 0 16 true]))) =
      true := by decide +kernel
  rw [hrun, Option.all_some] at hall
  obtain ⟨inPlace, covers⟩ := of_decide_eq_true hall
  obtain ⟨table, returned, reported, hprocess, hreported, hreturned⟩ :=
    hnext _ (derived_half (by simp)) inPlace
  obtain rfl := hreported.mpr covers
  exact ⟨reassembling, table, returned, hrun, hprocess, hreturned rfl⟩

/-- After the second half, its first quarter hides that the end of the payload was received: the first
half completes the datagram, and nothing is reported. -/
theorem fragments_reassemble_hidden :
    Derived sent.1 sent.2 (partOf sent 16 16 false) ∧ Derived sent.1 sent.2 (partOf sent 16 8 true) ∧
    Derived sent.1 sent.2 (partOf sent 0 16 true) ∧
    ∃ reassembling table returned,
      run {} [partOf sent 16 16 false, partOf sent 16 8 true] = some reassembling ∧
      Covers sent.1 (reassembling.ofKey (fragmentKey sent.2) ++ [partOf sent 0 16 true]) ∧
      processFragment reassembling.table (partOf sent 0 16 true).1 (partOf sent 0 16 true).2 =
        some (table, returned, false) := by
  refine ⟨derived_half (by simp), derived_quarter (by simp), derived_half (by simp), ?_⟩
  have hsome : ((run {} [partOf sent 16 16 false, partOf sent 16 8 true]).any fun reassembling =>
      decide (Covers sent.1 (reassembling.ofKey (fragmentKey sent.2) ++ [partOf sent 0 16 true]) ∧
        ((processFragment reassembling.table (partOf sent 0 16 true).1
          (partOf sent 0 16 true).2).any fun result => !result.2.2) = true)) = true := by
    decide +kernel
  obtain ⟨reassembling, hrun, hboth⟩ := (Option.any_eq_true _ _).mp hsome
  obtain ⟨covers, hnot⟩ := of_decide_eq_true hboth
  obtain ⟨⟨table, returned, reported⟩, hprocess, hreported⟩ := (Option.any_eq_true _ _).mp hnot
  obtain rfl : reported = false := by simpa using hreported
  exact ⟨reassembling, table, returned, hrun, covers, hprocess⟩

end Reassembling

end DeepcV2x.Ipv4
