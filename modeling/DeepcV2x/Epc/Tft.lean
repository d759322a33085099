import DeepcV2x.Sidelink.Tft

/-!
# Traffic flow templates

`EpcTft` keeps packet filters in the order of their precedence, and matches a
packet when one of its filters does.
-/

namespace DeepcV2x.Epc

open Sidelink (Ipv6Bytes ipv4IsMatch ipv6IsMatch)

/-- `EpcTft::Direction`, with the value 0 that two bits may also have. -/
inductive Direction
  | unlisted
  | downlink
  | uplink
  | bidirectional
  deriving DecidableEq, Repr

namespace Direction

def value : Direction → UInt8
  | unlisted => 0
  | downlink => 1
  | uplink => 2
  | bidirectional => 3

/-- The direction of the two lowest bits. -/
def ofValue (value : UInt8) : Direction :=
  if value &&& 3 = 1 then downlink
  else if value &&& 3 = 2 then uplink
  else if value &&& 3 = 3 then bidirectional
  else unlisted

theorem ofValue_value (direction : Direction) : ofValue direction.value = direction := by
  cases direction <;> rfl

end Direction

/-- `EpcTft::PacketFilter`, with the values its constructor gives. -/
structure PacketFilter where
  precedence : UInt8 := 255
  direction : Direction := .bidirectional
  remoteAddress : UInt32 := 0x66666666
  remoteMask : UInt32 := 0
  localAddress : UInt32 := 0x66666666
  localMask : UInt32 := 0
  remoteIpv6Address : Ipv6Bytes := fun _ => 0
  remoteIpv6Prefix : Ipv6Bytes := fun _ => 0
  localIpv6Address : Ipv6Bytes := fun _ => 0
  localIpv6Prefix : Ipv6Bytes := fun _ => 0
  remotePortStart : UInt16 := 0
  remotePortEnd : UInt16 := 65535
  localPortStart : UInt16 := 0
  localPortEnd : UInt16 := 65535
  typeOfService : UInt8 := 0
  typeOfServiceMask : UInt8 := 0
  deriving DecidableEq

namespace PacketFilter

/-- What both `Matches` compare besides the addresses. -/
def matchesRest (filter : PacketFilter) (rp lp : UInt16) (tos : UInt8) : Bool :=
  decide (filter.remotePortStart ≤ rp ∧ rp ≤ filter.remotePortEnd) &&
    decide (filter.localPortStart ≤ lp ∧ lp ≤ filter.localPortEnd) &&
      tos &&& filter.typeOfServiceMask == filter.typeOfService &&& filter.typeOfServiceMask

/-- `Matches` of IPv4 addresses. -/
def matchesIpv4 (filter : PacketFilter) (d : Direction) (ra la : UInt32) (rp lp : UInt16)
    (tos : UInt8) : Bool :=
  d.value &&& filter.direction.value != 0 && ipv4IsMatch filter.remoteMask filter.remoteAddress ra &&
    ipv4IsMatch filter.localMask filter.localAddress la && filter.matchesRest rp lp tos

/-- `Matches` of IPv6 addresses. -/
def matchesIpv6 (filter : PacketFilter) (d : Direction) (ra la : Ipv6Bytes) (rp lp : UInt16)
    (tos : UInt8) : Bool :=
  d.value &&& filter.direction.value != 0 &&
    ipv6IsMatch filter.remoteIpv6Prefix filter.remoteIpv6Address ra &&
      ipv6IsMatch filter.localIpv6Prefix filter.localIpv6Address la && filter.matchesRest rp lp tos

end PacketFilter

/-- `EpcTft`. -/
structure EpcTft where
  filters : List PacketFilter := []
  numFilters : UInt8 := 0
  deriving DecidableEq

namespace EpcTft

/-- Behind the filters whose precedence is not higher. -/
def insertFilter (f : PacketFilter) : List PacketFilter → List PacketFilter
  | [] => [f]
  | it :: rest =>
      if it.precedence ≤ f.precedence then it :: insertFilter f rest else f :: it :: rest

/-- `Add`, which aborts when there are 16 filters. -/
def add (tft : EpcTft) (f : PacketFilter) : Option EpcTft :=
  if 16 ≤ tft.numFilters then none
  else some { filters := insertFilter f tft.filters, numFilters := tft.numFilters + 1 }

/-- `Matches` of IPv4 addresses. -/
def matchesIpv4 (tft : EpcTft) (direction : Direction) (remoteAddress localAddress : UInt32)
    (remotePort localPort : UInt16) (typeOfService : UInt8) : Bool :=
  tft.filters.any fun it =>
    it.matchesIpv4 direction remoteAddress localAddress remotePort localPort typeOfService

/-- `Matches` of IPv6 addresses. -/
def matchesIpv6 (tft : EpcTft) (direction : Direction) (remoteAddress localAddress : Ipv6Bytes)
    (remotePort localPort : UInt16) (typeOfService : UInt8) : Bool :=
  tft.filters.any fun it =>
    it.matchesIpv6 direction remoteAddress localAddress remotePort localPort typeOfService

/-- Several filters, one after the other. -/
def addAll (tft : EpcTft) : List PacketFilter → Option EpcTft
  | [] => some tft
  | f :: rest => (tft.add f).bind fun next => next.addAll rest

/-- The templates that `Add` makes. -/
def Admitted (tft : EpcTft) : Prop := ∃ filters, addAll {} filters = some tft

/-! ## What `Add` keeps -/

/-- At most 16 filters in the order of their precedence, with their number. -/
structure Ordered (tft : EpcTft) : Prop where
  count : tft.numFilters.toNat = tft.filters.length
  le : tft.filters.length ≤ 16
  sorted : tft.filters.Pairwise fun first second => first.precedence ≤ second.precedence

theorem mem_insertFilter {f other : PacketFilter} {filters : List PacketFilter} :
    other ∈ insertFilter f filters ↔ other = f ∨ other ∈ filters := by
  induction filters with
  | nil => rw [insertFilter, List.mem_singleton, or_iff_left List.not_mem_nil]
  | cons it rest ih =>
      rw [insertFilter]
      split
      next => rw [List.mem_cons, ih, List.mem_cons, or_left_comm]
      next => rw [List.mem_cons]

theorem length_insertFilter (f : PacketFilter) (filters : List PacketFilter) :
    (insertFilter f filters).length = filters.length + 1 := by
  induction filters with
  | nil => rfl
  | cons it rest ih =>
      rw [insertFilter]
      split
      next => rw [List.length_cons, ih, List.length_cons]
      next => rfl

theorem sorted_insertFilter {f : PacketFilter} {filters : List PacketFilter}
    (sorted : filters.Pairwise fun first second => first.precedence ≤ second.precedence) :
    (insertFilter f filters).Pairwise fun first second => first.precedence ≤ second.precedence := by
  induction filters with
  | nil => exact List.pairwise_singleton _ _
  | cons it rest ih =>
      obtain ⟨hfirst, hrest⟩ := List.pairwise_cons.mp sorted
      rw [insertFilter]
      split
      next hle =>
        refine List.pairwise_cons.mpr ⟨fun other hother => ?_, ih hrest⟩
        rcases mem_insertFilter.mp hother with rfl | hother
        · exact hle
        · exact hfirst other hother
      next hgt =>
        have hlt : f.precedence < it.precedence := UInt8.not_le.mp hgt
        refine List.pairwise_cons.mpr ⟨fun other hother => ?_, sorted⟩
        rcases List.mem_cons.mp hother with rfl | hother
        · exact UInt8.le_of_lt hlt
        · exact UInt8.le_trans (UInt8.le_of_lt hlt) (hfirst other hother)

theorem Ordered.add {tft next : EpcTft} (ordered : tft.Ordered) {f : PacketFilter}
    (hadd : tft.add f = some next) : next.Ordered := by
  rw [EpcTft.add] at hadd
  split at hadd
  next => cases hadd
  next hfew =>
    obtain rfl := Option.some.inj hadd
    have hlt : tft.numFilters.toNat < 16 := UInt8.lt_iff_toNat_lt.mp (UInt8.not_le.mp hfew)
    have hcount := ordered.count
    refine ⟨?_, ?_, sorted_insertFilter ordered.sorted⟩
    · rw [length_insertFilter, UInt8.toNat_add, ← hcount]
      show (tft.numFilters.toNat + 1) % 256 = tft.numFilters.toNat + 1
      omega
    · rw [length_insertFilter]
      omega

theorem ordered_of_addAll {filters : List PacketFilter} : ∀ {tft last : EpcTft}, tft.Ordered →
    tft.addAll filters = some last → last.Ordered := by
  induction filters with
  | nil =>
      intro tft last ordered hadd
      obtain rfl := Option.some.inj hadd
      exact ordered
  | cons f rest ih =>
      intro tft last ordered hadd
      obtain ⟨next, hnext, hrest⟩ := Option.bind_eq_some_iff.mp hadd
      exact ih (ordered.add hnext) hrest

theorem Admitted.ordered {tft : EpcTft} (admitted : tft.Admitted) : tft.Ordered := by
  obtain ⟨filters, hadd⟩ := admitted
  exact ordered_of_addAll ⟨rfl, Nat.zero_le _, List.Pairwise.nil⟩ hadd

/-- A filter that belongs at the end is put there. -/
theorem insertFilter_of_le {f : PacketFilter} {filters : List PacketFilter}
    (hle : ∀ other ∈ filters, other.precedence ≤ f.precedence) :
    insertFilter f filters = filters ++ [f] := by
  induction filters with
  | nil => rfl
  | cons it rest ih =>
      obtain ⟨hfirst, hrest⟩ := List.forall_mem_cons.mp hle
      rw [insertFilter, if_pos hfirst, ih hrest, List.cons_append]

/-- Filters that are in order are added in this order. -/
theorem addAll_of_sorted {rest : List PacketFilter} : ∀ {tft : EpcTft}, tft.Ordered →
    (tft.filters ++ rest).length ≤ 16 →
    (tft.filters ++ rest).Pairwise (fun first second => first.precedence ≤ second.precedence) →
    ∃ last, tft.addAll rest = some last ∧ last.Ordered ∧ last.filters = tft.filters ++ rest := by
  induction rest with
  | nil => exact fun ordered _ _ => ⟨_, rfl, ordered, (List.append_nil _).symm⟩
  | cons f rest ih =>
      intro tft ordered hle hsorted
      have hlast : ∀ other ∈ tft.filters, other.precedence ≤ f.precedence := fun other hother =>
        (List.pairwise_append.mp hsorted).2.2 other hother f List.mem_cons_self
      have hfew : ¬ 16 ≤ tft.numFilters := by
        rw [UInt8.not_le, UInt8.lt_iff_toNat_lt, ordered.count]
        rw [List.length_append, List.length_cons] at hle
        show tft.filters.length < 16
        omega
      have hadd : tft.add f = some ⟨tft.filters ++ [f], tft.numFilters + 1⟩ := by
        rw [EpcTft.add, if_neg hfew, insertFilter_of_le hlast]
      have hsame : tft.filters ++ [f] ++ rest = tft.filters ++ f :: rest := by
        rw [List.append_assoc, List.singleton_append]
      obtain ⟨last, hlast, hordered, hfilters⟩ :=
        ih (ordered.add hadd) (by rwa [hsame]) (by rwa [hsame])
      refine ⟨last, ?_, hordered, hfilters.trans hsame⟩
      rw [addAll, hadd, Option.bind_some, hlast]

/-- Templates in order are told apart by their filters. -/
theorem Ordered.ext {tft other : EpcTft} (ordered : tft.Ordered) (hother : other.Ordered)
    (hfilters : tft.filters = other.filters) : tft = other := by
  have hcount : tft.numFilters = other.numFilters := UInt8.toNat_inj.mp (by
    rw [ordered.count, hother.count, hfilters])
  cases tft
  cases other
  exact congr (congrArg EpcTft.mk hfilters) hcount

end EpcTft

end DeepcV2x.Epc
