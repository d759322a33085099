import DeepcV2x.Ipv4.Reassembly

/-!
# Datagrams that are not completed

When the time for a datagram is over, its fragments are joined as far as they
have no gap.  The loop asks for the rest of a fragment behind what it has
joined, also when nothing of the fragment is left.
-/

namespace DeepcV2x.Ipv4

open Foundation.Association Foundation.Slices Reassembling

namespace Fragments

/-- The place behind a fragment. -/
def last (fragment : List UInt8 × Nat) : Nat := fragment.2 + fragment.1.length

/-- A place that is in one of the fragments. -/
def Covered (fragments : List (List UInt8 × Nat)) (place : Nat) : Prop :=
  ∃ fragment ∈ fragments, Holds fragment place

/-- The range that is asked for lies inside the packet. -/
def FragmentRequest.Inside (request : FragmentRequest) : Prop :=
  request.start + request.length ≤ request.size

/-- A fragment that is joined does not end behind a later one. -/
def Reaches (fragments : List (List UInt8 × Nat)) (first second : List UInt8 × Nat) : Prop :=
  (∀ place < first.2, Covered fragments place) → last first ≤ last second

section Loop

variable {payload : List UInt8} {fragments : List (List UInt8 × Nat)}

/-- Nothing is joined behind a gap. -/
theorem partialLoop_gap (hshort : payload.length < 65536) {upTo : Nat} (hle : upTo ≤ payload.length)
    (requests : List FragmentRequest) (rest : List (List UInt8 × Nat))
    (hgap : ∀ fragment ∈ rest, upTo < fragment.2) :
    partialLoop (payload.take upTo) upTo requests rest = (payload.take upTo, requests) := by
  induction rest with
  | nil => rfl
  | cons first rest ih =>
      obtain ⟨hfirst, hrest⟩ := List.forall_mem_cons.mp hgap
      have hlength : (payload.take upTo).length % 65536 = upTo := by
        rw [List.length_take]
        omega
      rw [partialLoop, if_neg (Nat.lt_asymm hfirst), if_neg (Nat.ne_of_lt hfirst), hlength]
      exact ih hrest

/-- One turn on a fragment without a gap before it. -/
theorem partialLoop_cons (hshort : payload.length < 65536) {upTo : Nat} (hle : upTo ≤ payload.length)
    {first : List UInt8 × Nat} (hslice : IsSlice payload first.2 first.1) (hnear : first.2 ≤ upTo)
    (requests : List FragmentRequest) (rest : List (List UInt8 × Nat)) :
    ∃ asked : List FragmentRequest,
      partialLoop (payload.take upTo) upTo requests (first :: rest) =
        partialLoop (payload.take (max upTo (last first))) (max upTo (last first))
          (requests ++ asked) rest ∧
      ((∀ request ∈ asked, request.Inside) ↔ (first.2 < upTo → upTo ≤ last first)) := by
  have hbound := hslice.bound
  have hlength : (payload.take (max upTo (last first))).length % 65536 = max upTo (last first) := by
    rw [List.length_take, last]
    omega
  rw [partialLoop]
  by_cases hover : first.2 < upTo
  · rw [if_pos hover]
    refine ⟨[⟨first.1.length, upTo - first.2,
      (first.1.length + 4294967296 - (upTo - first.2)) % 4294967296⟩], ?_, ?_⟩
    · have hjoined : payload.take upTo ++ createFragment first.1 (upTo - first.2)
          ((first.1.length + 4294967296 - (upTo - first.2)) % 4294967296) =
            payload.take (max upTo (last first)) := by
        by_cases hreach : upTo ≤ last first
        · have hsize : (first.1.length + 4294967296 - (upTo - first.2)) % 4294967296 =
              first.1.length - (upTo - first.2) := by
            rw [last] at hreach
            omega
          rw [hsize, createFragment, ← List.length_drop, List.take_length,
            hslice.take_append_drop hnear hreach, Nat.max_eq_right hreach, last]
        · have hnone : first.1.drop (upTo - first.2) = [] := by
            rw [last] at hreach
            exact List.drop_eq_nil_of_le (by omega)
          rw [createFragment, hnone, List.take_nil, List.append_nil,
            Nat.max_eq_left (Nat.le_of_not_le hreach)]
      simp only [hjoined, hlength]
    · rw [List.forall_mem_singleton, FragmentRequest.Inside, last]
      simp only
      omega
  · obtain rfl : upTo = first.2 := Nat.le_antisymm (Nat.le_of_not_lt hover) hnear
    refine ⟨[], ?_, by simp⟩
    have hjoined : payload.take first.2 ++ first.1 = payload.take (max first.2 (last first)) := by
      rw [hslice.take_append, last, Nat.max_eq_right (Nat.le_add_right _ _)]
    rw [if_neg hover, if_pos rfl, List.append_nil]
    simp only [hjoined, hlength]

/-- What the loop has joined of the fragments it has seen. -/
structure Joined (fragments seen : List (List UInt8 × Nat)) (upTo : Nat) : Prop where
  covered : ∀ place < upTo, Covered fragments place
  le : ∀ fragment ∈ seen, last fragment ≤ upTo
  reached : 0 < upTo → ∃ fragment ∈ seen, last fragment = upTo

theorem Joined.snoc {seen : List (List UInt8 × Nat)} {upTo : Nat}
    (joined : Joined fragments seen upTo) {first : List UInt8 × Nat} (hmem : first ∈ fragments)
    (hnear : first.2 ≤ upTo) : Joined fragments (seen ++ [first]) (max upTo (last first)) := by
  constructor
  · intro place hplace
    rcases Nat.lt_or_ge place upTo with hbefore | hbehind
    · exact joined.covered place hbefore
    · refine ⟨first, hmem, Nat.le_trans hnear hbehind, ?_⟩
      show place < last first
      omega
  · intro fragment hfragment
    rcases List.mem_append.mp hfragment with hseen | hfirst
    · exact Nat.le_trans (joined.le fragment hseen) (Nat.le_max_left _ _)
    · obtain rfl := List.mem_singleton.mp hfirst
      exact Nat.le_max_right _ _
  · intro hpos
    rcases Nat.le_total upTo (last first) with hle | hge
    · exact ⟨first, List.mem_append_right _ (List.mem_singleton_self _),
        (Nat.max_eq_right hle).symm⟩
    · rw [Nat.max_eq_left hge] at hpos ⊢
      obtain ⟨fragment, hseen, hlast⟩ := joined.reached hpos
      exact ⟨fragment, List.mem_append_left _ hseen, hlast⟩

/-- The rest of a fragment is there when no joined fragment ends behind it. -/
theorem Joined.reaches_iff {seen : List (List UInt8 × Nat)} {upTo : Nat}
    (joined : Joined fragments seen upTo) (first : List UInt8 × Nat) :
    (∀ fragment ∈ seen, Reaches fragments fragment first) ↔
      (first.2 < upTo → upTo ≤ last first) := by
  constructor
  · intro hall hover
    obtain ⟨fragment, hseen, hlast⟩ := joined.reached (Nat.zero_lt_of_lt hover)
    rw [← hlast]
    refine hall fragment hseen fun place hplace => joined.covered place ?_
    rw [← hlast]
    exact Nat.lt_of_lt_of_le hplace (Nat.le_add_right _ _)
  · intro hreach fragment hseen _
    have hle := joined.le fragment hseen
    rcases Nat.lt_or_ge first.2 upTo with hover | hbehind
    · exact Nat.le_trans hle (hreach hover)
    · exact Nat.le_trans hle (Nat.le_trans hbehind (Nat.le_add_right _ _))

/-- The loop joins the fragments up to the first place that is in none of them. -/
theorem partialLoop_spec (hshort : payload.length < 65536)
    (hsorted : fragments.Pairwise fun first second => first.2 ≤ second.2)
    (hslices : ∀ fragment ∈ fragments, IsSlice payload fragment.2 fragment.1)
    (rest : List (List UInt8 × Nat)) : ∀ {seen : List (List UInt8 × Nat)} {upTo : Nat}
      {requests : List FragmentRequest}, fragments = seen ++ rest → upTo ≤ payload.length →
      Joined fragments seen upTo →
      ∃ end' asked, partialLoop (payload.take upTo) upTo requests rest =
          (payload.take end', requests ++ asked) ∧
        (∀ place < end', Covered fragments place) ∧ ¬ Covered fragments end' ∧
        ((∀ request ∈ asked, request.Inside) ↔
          rest.Pairwise (Reaches fragments) ∧
            ∀ first ∈ seen, ∀ second ∈ rest, Reaches fragments first second) := by
  induction rest with
  | nil =>
      intro seen upTo requests hall hle joined
      refine ⟨upTo, [], by rw [partialLoop, List.append_nil], joined.covered, ?_, by simp⟩
      rintro ⟨fragment, hmem, -, hlt⟩
      rw [hall, List.append_nil] at hmem
      exact Nat.not_lt.mpr (joined.le fragment hmem) hlt
  | cons first rest ih =>
      intro seen upTo requests hall hle joined
      have hmem : first ∈ fragments := hall ▸ List.mem_append_right _ List.mem_cons_self
      rcases Nat.lt_or_ge upTo first.2 with hgap | hnear
      · have hbehind : ∀ fragment ∈ first :: rest, upTo < fragment.2 := by
          rw [hall, List.pairwise_append] at hsorted
          refine List.forall_mem_cons.mpr ⟨hgap, fun fragment h => ?_⟩
          exact Nat.lt_of_lt_of_le hgap ((List.pairwise_cons.mp hsorted.2.1).1 fragment h)
        have hfree : ¬ Covered fragments upTo := by
          rintro ⟨fragment, hfragment, hfrom, hlt⟩
          rw [hall] at hfragment
          rcases List.mem_append.mp hfragment with hseen | hrest
          · exact Nat.not_lt.mpr (joined.le fragment hseen) hlt
          · exact Nat.not_le.mpr (hbehind fragment hrest) hfrom
        refine ⟨upTo, [], by rw [partialLoop_gap hshort hle _ _ hbehind, List.append_nil],
          joined.covered, hfree, iff_of_true (by simp) ⟨?_, ?_⟩⟩
        · refine List.pairwise_of_forall_mem_list fun one hone other _ hcovered => ?_
          exact absurd (hcovered upTo (hbehind one hone)) hfree
        · intro one hone other hother _
          exact Nat.le_trans (joined.le one hone) (Nat.le_trans (Nat.le_of_lt (hbehind other hother))
            (Nat.le_add_right _ _))
      · have hslice := hslices first hmem
        obtain ⟨asked, hturn, hinside⟩ := partialLoop_cons hshort hle hslice hnear requests rest
        obtain ⟨end', more, hloop, hcovered, hfree, hrest⟩ := @ih (seen ++ [first])
          (max upTo (last first)) (requests ++ asked) (by rw [hall, List.append_assoc]; rfl)
          (Nat.max_le.mpr ⟨hle, hslice.bound⟩) (joined.snoc hmem hnear)
        refine ⟨end', asked ++ more, by rw [hturn, hloop, List.append_assoc], hcovered, hfree, ?_⟩
        rw [List.forall_mem_append, hinside, hrest, ← joined.reaches_iff, List.pairwise_cons]
        constructor
        · rintro ⟨hfirst, hpairs, hcross⟩
          obtain ⟨hseen, hown⟩ := List.forall_mem_append.mp hcross
          exact ⟨⟨hown first (List.mem_singleton_self _), hpairs⟩, fun one hone =>
            List.forall_mem_cons.mpr ⟨hfirst one hone, hseen one hone⟩⟩
        · rintro ⟨⟨hown, hpairs⟩, hcross⟩
          exact ⟨fun one hone => (List.forall_mem_cons.mp (hcross one hone)).1, hpairs,
            List.forall_mem_append.mpr
              ⟨fun one hone => (List.forall_mem_cons.mp (hcross one hone)).2,
                List.forall_mem_singleton.mpr hown⟩⟩

/-- Also when the beginning is missing the packet is what the loop joins. -/
theorem getPartialPacket_eq (hshort : payload.length < 65536) {kept : Fragments}
    (hsorted : kept.fragments.Pairwise fun first second => first.2 ≤ second.2)
    (hsome : kept.fragments ≠ []) :
    kept.getPartialPacket = some (partialLoop (payload.take 0) 0 [] kept.fragments) := by
  rw [getPartialPacket]
  cases hfragments : kept.fragments with
  | nil => exact absurd hfragments hsome
  | cons first rest =>
      by_cases hgap : 0 < first.2
      · have hbehind : ∀ fragment ∈ first :: rest, 0 < fragment.2 := by
          rw [hfragments] at hsorted
          exact List.forall_mem_cons.mpr ⟨hgap, fun fragment h =>
            Nat.lt_of_lt_of_le hgap ((List.pairwise_cons.mp hsorted).1 fragment h)⟩
        rw [partialLoop_gap hshort (Nat.zero_le _) _ _ hbehind]
        exact if_pos hgap
      · exact if_neg hgap

end Loop

/-- Fragments that are added one after the other. -/
def store (pieces : List Ipv4PayloadHeaderPair) : Fragments :=
  pieces.foldl (fun fragments piece =>
    fragments.addFragment piece.1 piece.2.fragmentOffset piece.2.moreFragments) {}

theorem store_snoc (pieces : List Ipv4PayloadHeaderPair) (piece : Ipv4PayloadHeaderPair) :
    store (pieces ++ [piece]) =
      (store pieces).addFragment piece.1 piece.2.fragmentOffset piece.2.moreFragments := by
  rw [store, List.foldl_append]
  rfl

/-- The stored fragments are those that were added, in the order of their offsets. -/
theorem store_holds (pieces : List Ipv4PayloadHeaderPair) :
    (∀ fragment, fragment ∈ (store pieces).fragments ↔
        ∃ piece ∈ pieces, (piece.1, piece.2.fragmentOffset) = fragment) ∧
      (store pieces).fragments.Pairwise fun first second => first.2 ≤ second.2 := by
  induction pieces using List.reverseRecOn with
  | nil => exact ⟨by simp [store], List.Pairwise.nil⟩
  | append_singleton pieces piece ih =>
      obtain ⟨hmembers, hsorted⟩ := ih
      rw [store_snoc, addFragment]
      refine ⟨fun fragment => ?_, insertFragment_sorted hsorted⟩
      rw [mem_insertFragment, hmembers]
      constructor
      · rintro (rfl | ⟨other, hmem, rfl⟩)
        · exact ⟨piece, List.mem_append_right _ (List.mem_singleton_self _), rfl⟩
        · exact ⟨other, List.mem_append_left _ hmem, rfl⟩
      · rintro ⟨other, hmem, rfl⟩
        rcases List.mem_append.mp hmem with hmem | hmem
        · exact .inr ⟨other, hmem, rfl⟩
        · exact .inl (List.mem_singleton.mp hmem ▸ rfl)

/-- No range outside a fragment is asked for, and the packet is the longest beginning of the payload
that the fragments cover. -/
def ReturnsPrefix (payload : List UInt8) (pieces : List Ipv4PayloadHeaderPair) : Prop :=
  ∃ packet requests upTo, (store pieces).getPartialPacket = some (packet, requests) ∧
    (∀ request ∈ requests, request.Inside) ∧ packet = payload.take upTo ∧
    (∀ place < upTo, ∃ piece ∈ pieces, piece.2.fragmentOffset ≤ place ∧
      place < piece.2.fragmentOffset + piece.1.length) ∧
    ¬ ∃ piece ∈ pieces, piece.2.fragmentOffset ≤ upTo ∧
      upTo < piece.2.fragmentOffset + piece.1.length

theorem covered_store_iff (pieces : List Ipv4PayloadHeaderPair) (place : Nat) :
    Covered (store pieces).fragments place ↔ ∃ piece ∈ pieces,
      piece.2.fragmentOffset ≤ place ∧ place < piece.2.fragmentOffset + piece.1.length := by
  constructor
  · rintro ⟨fragment, hmem, hholds⟩
    obtain ⟨piece, hpiece, rfl⟩ := ((store_holds pieces).1 fragment).mp hmem
    exact ⟨piece, hpiece, hholds⟩
  · rintro ⟨piece, hpiece, hholds⟩
    exact ⟨_, ((store_holds pieces).1 _).mpr ⟨piece, hpiece, rfl⟩, hholds⟩

/-- The packet is what the fragments cover from the beginning, whatever ranges are asked for. -/
theorem getPartialPacket_prefix {payload : List UInt8} (hshort : payload.length ≤ 65515)
    {pieces : List Ipv4PayloadHeaderPair} (hsome : pieces ≠ [])
    (hslices : ∀ piece ∈ pieces, IsSlice payload piece.2.fragmentOffset piece.1) :
    ∃ upTo asked, (store pieces).getPartialPacket = some (payload.take upTo, asked) ∧
      (∀ place < upTo, Covered (store pieces).fragments place) ∧
      ¬ Covered (store pieces).fragments upTo ∧
      ((∀ request ∈ asked, request.Inside) ↔
        (store pieces).fragments.Pairwise (Reaches (store pieces).fragments)) := by
  obtain ⟨hmembers, hsorted⟩ := store_holds pieces
  have hparts : ∀ fragment ∈ (store pieces).fragments, IsSlice payload fragment.2 fragment.1 := by
    intro fragment hmem
    obtain ⟨piece, hpiece, rfl⟩ := (hmembers fragment).mp hmem
    exact hslices piece hpiece
  obtain ⟨upTo, asked, hloop, hcovered, hfree, hasked⟩ :=
    @partialLoop_spec payload (store pieces).fragments (by omega) hsorted hparts
      (store pieces).fragments [] 0 [] rfl (Nat.zero_le _)
      ⟨fun _ h => absurd h (Nat.not_lt_zero _), fun _ h => absurd h List.not_mem_nil,
        fun h => absurd h (Nat.lt_irrefl 0)⟩
  refine ⟨upTo, asked, ?_, hcovered, hfree,
    hasked.trans (and_iff_left fun _ h => absurd h List.not_mem_nil)⟩
  rw [@getPartialPacket_eq payload (by omega) _ hsorted ?_, hloop, List.nil_append]
  obtain ⟨piece, hpiece⟩ := List.exists_mem_of_ne_nil _ hsome
  exact List.ne_nil_of_mem ((hmembers _).mpr ⟨piece, hpiece, rfl⟩)

/-- When the time is over, the fragments of the datagram are forgotten, and those of others kept. -/
theorem handleFragmentsTimeout_forgets {payload : List UInt8} (hshort : payload.length ≤ 65515)
    {pieces : List Ipv4PayloadHeaderPair} (hsome : pieces ≠ [])
    (hslices : ∀ piece ∈ pieces, IsSlice payload piece.2.fragmentOffset piece.1)
    {table : Table FragmentKey Fragments} {key : FragmentKey}
    (hkept : lookup key table = some (store pieces)) :
    ∃ next packet, handleFragmentsTimeout table key = some (next, packet, decide (8 < packet.length)) ∧
      packet <+: payload ∧
      ∀ other, fragmentsOf next other = if other = key then {} else fragmentsOf table other := by
  obtain ⟨upTo, asked, hpacket, -⟩ := getPartialPacket_prefix hshort hsome hslices
  refine ⟨erase key table, payload.take upTo, ?_, List.take_prefix _ _, fragmentsOf_erase table key⟩
  rw [handleFragmentsTimeout, hkept, Option.bind_some, hpacket, Option.map_some]

/--
The partial packet of the fragments of a datagram is right exactly when no
stored fragment ends before the end of an earlier one that starts within what
is covered from the beginning.
-/
theorem returnsPrefix_iff {payload : List UInt8} (hshort : payload.length ≤ 65515)
    {pieces : List Ipv4PayloadHeaderPair} (hsome : pieces ≠ [])
    (hslices : ∀ piece ∈ pieces, IsSlice payload piece.2.fragmentOffset piece.1) :
    ReturnsPrefix payload pieces ↔
      (store pieces).fragments.Pairwise (Reaches (store pieces).fragments) := by
  obtain ⟨upTo, asked, hpacket, hcovered, hfree, hasked⟩ :=
    getPartialPacket_prefix hshort hsome hslices
  rw [← hasked]
  constructor
  · rintro ⟨packet, requests, end', hreturned, hinside, -⟩
    obtain ⟨rfl, rfl⟩ := Prod.ext_iff.mp (Option.some.inj (hpacket.symm.trans hreturned))
    exact hinside
  · exact fun hinside => ⟨_, asked, upTo, hpacket, hinside, rfl,
      fun place hplace => (covered_store_iff pieces place).mp (hcovered place hplace),
      fun h => hfree ((covered_store_iff pieces upTo).mpr h)⟩

/-- Two fragments that touch. -/
theorem returnsPrefix_iff_touching :
    ReturnsPrefix sent.1 [partOf sent 8 8 true, partOf sent 0 8 true] ↔
      (store [partOf sent 8 8 true, partOf sent 0 8 true]).fragments.Pairwise
        (Reaches (store [partOf sent 8 8 true, partOf sent 0 8 true]).fragments) :=
  returnsPrefix_iff (by decide) (by decide)
    (List.forall_mem_cons.mpr ⟨⟨by decide +kernel, by decide⟩,
      List.forall_mem_singleton.mpr ⟨by decide +kernel, by decide⟩⟩)

/-- A quarter inside the first half: the range behind it is asked for. -/
theorem not_returnsPrefix_nested :
    ¬ ReturnsPrefix sent.1 [partOf sent 0 16 true, partOf sent 0 8 true] := by
  rintro ⟨packet, requests, upTo, hreturned, hinside, -⟩
  have hrequests : (store [partOf sent 0 16 true, partOf sent 0 8 true]).getPartialPacket.map
      Prod.snd = some [⟨8, 16, 4294967288⟩] := by decide +kernel
  rw [hreturned] at hrequests
  obtain rfl : requests = [⟨8, 16, 4294967288⟩] := Option.some.inj hrequests
  have hless : 16 + 4294967288 ≤ 8 := hinside _ (List.mem_singleton_self _)
  exact absurd hless (by decide)

end Fragments

end DeepcV2x.Ipv4
