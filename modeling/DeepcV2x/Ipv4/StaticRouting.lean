import Mathlib.Data.List.Induction

/-!
# Static routing

`Ipv4StaticRouting` looks a destination up in one pass over the routes in the
order of their addition.  The pass keeps the longest prefix and the least metric
so far, and leaves at the first full prefix, whatever its metric.
-/

namespace DeepcV2x.Ipv4.StaticRouting

/-! ## Masks -/

/-- The loop of `GetPrefixLength`, for at most so many turns. -/
def prefixLengthIn : Nat → BitVec 32 → Nat
  | 0, _ => 0
  | turns + 1, mask => if mask = 0 then 0 else prefixLengthIn turns (mask <<< 1) + 1

/-- `Ipv4Mask::GetPrefixLength`: after as many turns as a word has bits nothing is left. -/
def getPrefixLength (mask : BitVec 32) : Nat := prefixLengthIn 32 mask

/-- `Ipv4Mask::IsMatch`. -/
def isMatch (mask a b : BitVec 32) : Bool := a &&& mask == b &&& mask

/-- `Ipv4Address::IsLocalMulticast`. -/
def isLocalMulticast (address : BitVec 32) : Bool := address &&& 0xffffff00 == 0xe0000000

/-- The contiguous mask of so many bits. -/
def maskOf (length : Nat) : BitVec 32 := BitVec.allOnes 32 <<< (32 - length)

theorem prefixLengthIn_le (turns : Nat) (mask : BitVec 32) : prefixLengthIn turns mask ≤ turns := by
  induction turns generalizing mask with
  | zero => exact Nat.le_refl 0
  | succ turns ih =>
      rw [prefixLengthIn]
      split
      · exact Nat.zero_le _
      · exact Nat.succ_le_succ (ih _)

theorem getPrefixLength_le (mask : BitVec 32) : getPrefixLength mask ≤ 32 := prefixLengthIn_le 32 mask

/-- The loop ends when no bit is left, so that more turns change nothing. -/
theorem prefixLengthIn_of_shiftLeft {turns : Nat} {mask : BitVec 32} (hmask : mask <<< turns = 0)
    (more : Nat) : prefixLengthIn (turns + more) mask = prefixLengthIn turns mask := by
  induction turns generalizing mask with
  | zero =>
      rw [BitVec.shiftLeft_zero] at hmask
      cases more with
      | zero => rfl
      | succ more =>
          rw [Nat.zero_add, prefixLengthIn, prefixLengthIn]
          exact if_pos hmask
  | succ turns ih =>
      rw [Nat.succ_add, prefixLengthIn, prefixLengthIn, ih]
      rw [← BitVec.shiftLeft_add, Nat.add_comm 1 turns]
      exact hmask

theorem prefixLengthIn_more (more : Nat) (mask : BitVec 32) :
    prefixLengthIn (32 + more) mask = getPrefixLength mask :=
  prefixLengthIn_of_shiftLeft (BitVec.shiftLeft_eq_zero (Nat.le_refl 32)) more

theorem getPrefixLength_maskOf {length : Nat} (hlength : length ≤ 32) :
    getPrefixLength (maskOf length) = length := by
  have hall : ∀ length : Fin 33, getPrefixLength (maskOf length.val) = length.val := by
    decide +kernel
  exact hall ⟨length, Nat.lt_succ_of_le hlength⟩

/-- Addresses match under a contiguous mask when they agree in its bits. -/
theorem isMatch_maskOf {length : Nat} {a b : BitVec 32} :
    isMatch (maskOf length) a b = true ↔ a >>> (32 - length) = b >>> (32 - length) := by
  have hand : ∀ a : BitVec 32, ∀ i < 32, (a &&& maskOf length).getLsbD i =
      (decide (32 - length ≤ i) && a.getLsbD i) := fun a i hi => by
    rw [maskOf, BitVec.getLsbD_and, BitVec.getLsbD_shiftLeft, BitVec.getLsbD_allOnes]
    by_cases hlow : i < 32 - length
    · simp [hlow, Nat.not_le_of_lt hlow]
    · simp [hlow, Nat.le_of_not_lt hlow, hi, Nat.lt_of_le_of_lt (Nat.sub_le _ _) hi]
  rw [isMatch, beq_iff_eq]
  constructor
  · intro heq
    refine BitVec.eq_of_getLsbD_eq fun i _ => ?_
    rw [BitVec.getLsbD_ushiftRight, BitVec.getLsbD_ushiftRight]
    rcases Nat.lt_or_ge (32 - length + i) 32 with hin | hout
    · have hbit := congrArg (·.getLsbD (32 - length + i)) heq
      simpa [hand a _ hin, hand b _ hin] using hbit
    · rw [BitVec.getLsbD_of_ge _ _ hout, BitVec.getLsbD_of_ge _ _ hout]
  · intro heq
    refine BitVec.eq_of_getLsbD_eq fun i hi => ?_
    rw [hand a i hi, hand b i hi]
    by_cases hhigh : 32 - length ≤ i
    · have hbit := congrArg (·.getLsbD (i - (32 - length))) heq
      simpa [BitVec.getLsbD_ushiftRight, Nat.add_sub_cancel' hhigh, hhigh] using hbit
    · simp [hhigh]

/-! ## The table -/

/-- An entry of the table with its metric. -/
structure Route where
  dest : BitVec 32
  destNetworkMask : BitVec 32
  gateway : BitVec 32
  interface : BitVec 32
  metric : BitVec 32
  deriving DecidableEq, Repr

/-- `LookupRoute`. -/
def lookupRoute (networkRoutes : List Route) (route : Route) : Bool :=
  networkRoutes.any fun j => j.dest = route.dest ∧ j.destNetworkMask = route.destNetworkMask ∧
    j.gateway = route.gateway ∧ j.interface = route.interface ∧ j.metric = route.metric

/-- `AddNetworkRouteTo` with a next hop. -/
def addNetworkRouteToVia (networkRoutes : List Route)
    (network networkMask nextHop interface metric : BitVec 32) : List Route :=
  let route : Route :=
    { dest := network, destNetworkMask := networkMask, gateway := nextHop, interface, metric }
  if lookupRoute networkRoutes route then networkRoutes else networkRoutes ++ [route]

/-- `AddNetworkRouteTo` without a next hop. -/
def addNetworkRouteTo (networkRoutes : List Route)
    (network networkMask interface metric : BitVec 32) : List Route :=
  let route : Route :=
    { dest := network, destNetworkMask := networkMask, gateway := 0, interface, metric }
  if lookupRoute networkRoutes route then networkRoutes else networkRoutes ++ [route]

/-- `AddHostRouteTo` with a next hop. -/
def addHostRouteToVia (networkRoutes : List Route) (dest nextHop interface metric : BitVec 32) :
    List Route :=
  addNetworkRouteToVia networkRoutes dest 0xffffffff nextHop interface metric

/-- `AddHostRouteTo` without a next hop. -/
def addHostRouteTo (networkRoutes : List Route) (dest interface metric : BitVec 32) : List Route :=
  addNetworkRouteTo networkRoutes dest 0xffffffff interface metric

/-- `SetDefaultRoute`. -/
def setDefaultRoute (networkRoutes : List Route) (nextHop interface metric : BitVec 32) :
    List Route :=
  addNetworkRouteToVia networkRoutes 0 0 nextHop interface metric

/-- A call that adds a route. -/
inductive Addition where
  | networkRouteVia (network networkMask nextHop interface metric : BitVec 32)
  | networkRoute (network networkMask interface metric : BitVec 32)
  | hostRouteVia (dest nextHop interface metric : BitVec 32)
  | hostRoute (dest interface metric : BitVec 32)
  | defaultRoute (nextHop interface metric : BitVec 32)
  deriving DecidableEq, Repr

namespace Addition

def apply (networkRoutes : List Route) : Addition → List Route
  | networkRouteVia network networkMask nextHop interface metric =>
      addNetworkRouteToVia networkRoutes network networkMask nextHop interface metric
  | networkRoute network networkMask interface metric =>
      addNetworkRouteTo networkRoutes network networkMask interface metric
  | hostRouteVia dest nextHop interface metric =>
      addHostRouteToVia networkRoutes dest nextHop interface metric
  | hostRoute dest interface metric => addHostRouteTo networkRoutes dest interface metric
  | defaultRoute nextHop interface metric => setDefaultRoute networkRoutes nextHop interface metric

/-- The route a call asks for. -/
def route : Addition → Route
  | networkRouteVia network networkMask nextHop interface metric =>
      ⟨network, networkMask, nextHop, interface, metric⟩
  | networkRoute network networkMask interface metric => ⟨network, networkMask, 0, interface, metric⟩
  | hostRouteVia dest nextHop interface metric => ⟨dest, maskOf 32, nextHop, interface, metric⟩
  | hostRoute dest interface metric => ⟨dest, maskOf 32, 0, interface, metric⟩
  | defaultRoute nextHop interface metric => ⟨0, maskOf 0, nextHop, interface, metric⟩

end Addition

/-- The table after a sequence of additions. -/
def build (additions : List Addition) : List Route := additions.foldl Addition.apply []

theorem lookupRoute_iff {networkRoutes : List Route} {route : Route} :
    lookupRoute networkRoutes route = true ↔ route ∈ networkRoutes := by
  rw [lookupRoute, List.any_eq_true]
  constructor
  · rintro ⟨j, hmem, hsame⟩
    obtain ⟨hdest, hmask, hgateway, hinterface, hmetric⟩ := of_decide_eq_true hsame
    have heq : j = route := by
      cases j
      cases route
      simp_all
    exact heq ▸ hmem
  · exact fun hmem => ⟨route, hmem, decide_eq_true ⟨rfl, rfl, rfl, rfl, rfl⟩⟩

/-- A call adds its route at the end unless it is there. -/
theorem Addition.apply_eq (networkRoutes : List Route) (addition : Addition) :
    addition.apply networkRoutes =
      if addition.route ∈ networkRoutes then networkRoutes
      else networkRoutes ++ [addition.route] := by
  have hadd : ∀ route : Route,
      (if lookupRoute networkRoutes route then networkRoutes else networkRoutes ++ [route]) =
        if route ∈ networkRoutes then networkRoutes else networkRoutes ++ [route] :=
    fun route => if_congr lookupRoute_iff rfl rfl
  cases addition <;> exact hadd _

theorem mem_build {additions : List Addition} {route : Route} :
    route ∈ build additions ↔ route ∈ additions.map Addition.route := by
  induction additions using List.reverseRecOn with
  | nil => exact Iff.rfl
  | append_singleton additions addition ih =>
      rw [build, List.foldl_append, List.foldl_cons, List.foldl_nil, ← build, addition.apply_eq, List.map_append, List.mem_append,
        List.map_singleton, List.mem_singleton]
      split
      next hmem =>
        rw [ih]
        exact ⟨.inl, fun h => h.elim id fun heq => heq ▸ ih.mp (heq ▸ hmem)⟩
      next => rw [List.mem_append, List.mem_singleton, ih]

/-- The first route of a kind in the table is the first one that was asked for. -/
theorem find?_build (p : Route → Bool) (additions : List Addition) :
    (build additions).find? p = (additions.map Addition.route).find? p := by
  induction additions using List.reverseRecOn with
  | nil => rfl
  | append_singleton additions addition ih =>
      rw [build, List.foldl_append, List.foldl_cons, List.foldl_nil, ← build, addition.apply_eq, List.map_append, List.find?_append,
        ← ih, List.map_singleton]
      split
      next hmem =>
        cases hfound : (build additions).find? p with
        | some route => rfl
        | none =>
            have hnot := List.find?_eq_none.mp hfound _ hmem
            rw [Option.none_or, List.find?_cons_of_neg hnot, List.find?_nil]
      next => rw [List.find?_append]

/-! ## The lookup -/

/-- What the lookup asks the node for. -/
structure Ipv4Interfaces (Device : Type) where
  getNetDevice : BitVec 32 → Device
  getInterfaceForDevice : Device → BitVec 32
  getAddress : BitVec 32 → Nat → BitVec 32
  sourceAddressSelection : BitVec 32 → BitVec 32 → BitVec 32

/-- `Ipv4Route`. -/
structure Ipv4Route (Device : Type) where
  destination : BitVec 32
  source : BitVec 32
  gateway : BitVec 32
  outputDevice : Device
  deriving DecidableEq

/-- The variables of the loop, with the entry `rtentry` is made of. -/
structure Search where
  longestMask : Nat := 0
  shortestMetric : BitVec 32 := 0xffffffff
  rtentry : Option Route := none
  deriving DecidableEq, Repr

section Lookup

variable {Device : Type} [DecidableEq Device] (ipv4 : Ipv4Interfaces Device) (dest : BitVec 32)
  (oif : Option Device)

/-- The entry matches, on the requested device when there is one. -/
def usable (j : Route) : Bool :=
  isMatch j.destNetworkMask dest j.dest && oif.all (ipv4.getNetDevice j.interface = ·)

/-- A turn of the loop of `LookupStatic`, and whether it leaves the loop. -/
def visit (search : Search) (j : Route) : Search × Bool :=
  let masklen := getPrefixLength j.destNetworkMask
  if usable ipv4 dest oif j then
    if masklen < search.longestMask then (search, false)
    else
      let shortestMetric :=
        if masklen > search.longestMask then 0xffffffff else search.shortestMetric
      if j.metric > shortestMetric then
        ({ search with longestMask := masklen, shortestMetric }, false)
      else
        ({ longestMask := masklen, shortestMetric := j.metric, rtentry := some j }, masklen == 32)
  else (search, false)

/-- The loop of `LookupStatic`. -/
def scan : Search → List Route → Search
  | search, [] => search
  | search, j :: rest =>
      let turn := visit ipv4 dest oif search j
      if turn.2 then turn.1 else scan turn.1 rest

/-- The entry that the loop ends with. -/
def chosen (networkRoutes : List Route) : Option Route :=
  (scan ipv4 dest oif {} networkRoutes).rtentry

/-- The route made of an entry. -/
def Ipv4Interfaces.routeOf (route : Route) : Ipv4Route Device where
  destination := route.dest
  source := ipv4.sourceAddressSelection route.interface route.dest
  gateway := route.gateway
  outputDevice := ipv4.getNetDevice route.interface

/-- `LookupStatic`. -/
def lookupStatic (networkRoutes : List Route) : Except String (Option (Ipv4Route Device)) :=
  if isLocalMulticast dest then
    match oif with
    | none => .error
        "Try to send on link-local multicast address, and no interface index is given!"
    | some device => .ok (some {
        destination := dest
        source := ipv4.getAddress (ipv4.getInterfaceForDevice device) 0
        gateway := 0
        outputDevice := device })
  else .ok ((chosen ipv4 dest oif networkRoutes).map ipv4.routeOf)

/-- The loop has seen some routes. -/
structure Seen (seen : List Route) (search : Search) : Prop where
  empty : search.rtentry = none → search.longestMask = 0 ∧ search.shortestMetric = 0xffffffff ∧
    ∀ route ∈ seen, usable ipv4 dest oif route = false
  kept : ∀ route, search.rtentry = some route →
    route ∈ seen ∧ usable ipv4 dest oif route = true ∧
      getPrefixLength route.destNetworkMask = search.longestMask ∧
      route.metric = search.shortestMetric
  longest : ∀ other ∈ seen, usable ipv4 dest oif other = true →
    getPrefixLength other.destNetworkMask ≤ search.longestMask
  cheapest : ∀ other ∈ seen, usable ipv4 dest oif other = true →
    getPrefixLength other.destNetworkMask = search.longestMask →
      search.shortestMetric ≤ other.metric

variable {ipv4 dest oif} {seen : List Route} {search : Search}

theorem Seen.start : Seen ipv4 dest oif [] {} :=
  { empty := fun _ => ⟨rfl, rfl, fun _ hmem => absurd hmem List.not_mem_nil⟩
    kept := fun _ hsome => nomatch hsome
    longest := fun _ hmem => absurd hmem List.not_mem_nil
    cheapest := fun _ hmem => absurd hmem List.not_mem_nil }

/-- An entry that is not better than those seen. -/
theorem Seen.skip (h : Seen ipv4 dest oif seen search) {j : Route}
    (hj : usable ipv4 dest oif j = true → search.rtentry ≠ none ∧
      getPrefixLength j.destNetworkMask ≤ search.longestMask ∧
      (getPrefixLength j.destNetworkMask = search.longestMask → search.shortestMetric ≤ j.metric)) :
    Seen ipv4 dest oif (seen ++ [j]) search where
  empty hnone := by
    obtain ⟨hlongest, hshortest, hall⟩ := h.empty hnone
    refine ⟨hlongest, hshortest, fun route hmem => ?_⟩
    rcases List.mem_append.mp hmem with hmem | hmem
    · exact hall route hmem
    · rw [List.mem_singleton.mp hmem]
      exact Bool.eq_false_iff.mpr fun husable => (hj husable).1 hnone
  kept route hsome := by
    obtain ⟨hmem, hrest⟩ := h.kept route hsome
    exact ⟨List.mem_append_left _ hmem, hrest⟩
  longest other hmem husable := by
    rcases List.mem_append.mp hmem with hmem | hmem
    · exact h.longest other hmem husable
    · rw [List.mem_singleton.mp hmem] at husable ⊢
      exact (hj husable).2.1
  cheapest other hmem husable hlength := by
    rcases List.mem_append.mp hmem with hmem | hmem
    · exact h.cheapest other hmem husable hlength
    · rw [List.mem_singleton.mp hmem] at husable hlength ⊢
      exact (hj husable).2.2 hlength

/-- An entry that is at least as good as those seen. -/
theorem Seen.take (h : Seen ipv4 dest oif seen search) {j : Route}
    (husable : usable ipv4 dest oif j = true)
    (hlonger : search.longestMask ≤ getPrefixLength j.destNetworkMask)
    (hcheaper : getPrefixLength j.destNetworkMask = search.longestMask →
      j.metric ≤ search.shortestMetric) :
    Seen ipv4 dest oif (seen ++ [j])
      { longestMask := getPrefixLength j.destNetworkMask
        shortestMetric := j.metric
        rtentry := some j } where
  empty hnone := by cases hnone
  kept route hsome := by
    obtain rfl := Option.some.inj hsome
    exact ⟨List.mem_append_right _ (List.mem_singleton_self _), husable, rfl, rfl⟩
  longest other hmem hother := by
    rcases List.mem_append.mp hmem with hmem | hmem
    · exact Nat.le_trans (h.longest other hmem hother) hlonger
    · exact Nat.le_of_eq
        (congrArg (fun route => getPrefixLength route.destNetworkMask) (List.mem_singleton.mp hmem))
  cheapest other hmem hother hlength := by
    rcases List.mem_append.mp hmem with hmem | hmem
    · have heq : getPrefixLength j.destNetworkMask = search.longestMask :=
        Nat.le_antisymm (Nat.le_trans (Nat.le_of_eq hlength.symm) (h.longest other hmem hother)) hlonger
      exact BitVec.le_trans (hcheaper heq) (h.cheapest other hmem hother (hlength.trans heq))
    · rw [List.mem_singleton.mp hmem]
      exact BitVec.le_refl _

/-- What a turn keeps. -/
theorem Seen.visit (h : Seen ipv4 dest oif seen search) (j : Route) :
    Seen ipv4 dest oif (seen ++ [j]) (visit ipv4 dest oif search j).1 := by
  have hmax : ∀ metric : BitVec 32, ¬ 0xffffffff < metric := fun metric hlt => by bv_omega
  unfold StaticRouting.visit
  by_cases husable : usable ipv4 dest oif j = true
  · rw [if_pos husable]
    rcases Nat.lt_or_ge (getPrefixLength j.destNetworkMask) search.longestMask with hlt | hge
    · rw [if_pos hlt]
      refine h.skip fun _ => ⟨fun hnone => ?_, Nat.le_of_lt hlt, fun heq => by omega⟩
      rw [(h.empty hnone).1] at hlt
      exact Nat.not_lt_zero _ hlt
    · rw [if_neg (Nat.not_lt_of_le hge)]
      rcases Nat.eq_or_lt_of_le hge with heq | hlonger
      · rw [if_neg (Nat.not_lt_of_le (Nat.le_of_eq heq.symm))]
        by_cases hdear : j.metric > search.shortestMetric
        · rw [if_pos hdear, ← heq]
          refine h.skip fun _ => ⟨fun hnone => ?_, Nat.le_of_eq heq.symm, fun _ => BitVec.le_of_lt hdear⟩
          rw [(h.empty hnone).2.1] at hdear
          exact hmax _ hdear
        · rw [if_neg hdear]
          exact h.take husable hge fun _ => BitVec.not_lt.mp hdear
      · rw [if_pos hlonger, if_neg (hmax _)]
        exact h.take husable hge fun heq => by omega
  · rw [if_neg husable]
    exact h.skip fun husable' => absurd husable' husable

/-- The entry is usable and full, so that the loop leaves at it. -/
def fullMatch (ipv4 : Ipv4Interfaces Device) (dest : BitVec 32) (oif : Option Device)
    (j : Route) : Bool :=
  usable ipv4 dest oif j && getPrefixLength j.destNetworkMask == 32

/-- A turn leaves the loop at full entries only. -/
theorem visit_of_not_full {j : Route} (hfull : fullMatch ipv4 dest oif j = false) :
    (visit ipv4 dest oif search j).2 = false := by
  unfold visit
  by_cases husable : usable ipv4 dest oif j = true
  · rw [fullMatch, husable, Bool.true_and] at hfull
    rw [if_pos husable]
    split
    · rfl
    · by_cases hdear : j.metric >
          if getPrefixLength j.destNetworkMask > search.longestMask then 0xffffffff
          else search.shortestMetric
      · exact congrArg Prod.snd (if_pos hdear)
      · exact (congrArg Prod.snd (if_neg hdear)).trans hfull
  · rw [if_neg husable]

/-- The first full entry is taken. -/
theorem visit_of_full {j : Route} (hfull : fullMatch ipv4 dest oif j = true)
    (hlongest : search.longestMask < 32) :
    visit ipv4 dest oif search j =
      ({ longestMask := 32, shortestMetric := j.metric, rtentry := some j }, true) := by
  obtain ⟨husable, hlength⟩ := Bool.and_eq_true_iff.mp hfull
  have hmax : ¬ j.metric > 0xffffffff := fun hlt => by bv_omega
  rw [visit, if_pos husable, beq_iff_eq.mp hlength, if_neg (Nat.not_lt_of_lt hlongest),
    if_pos hlongest, if_neg hmax]
  rfl

theorem Seen.longest_lt (h : Seen ipv4 dest oif seen search)
    (hfull : ∀ j ∈ seen, fullMatch ipv4 dest oif j = false) : search.longestMask < 32 := by
  cases hentry : search.rtentry with
  | none =>
      rw [(h.empty hentry).1]
      decide
  | some route =>
      obtain ⟨hmem, husable, hlength, -⟩ := h.kept route hentry
      have hnot := hfull route hmem
      rw [fullMatch, husable, Bool.true_and, beq_eq_false_iff_ne, hlength] at hnot
      exact Nat.lt_of_le_of_ne (hlength ▸ getPrefixLength_le _) hnot

/-- The loop takes the first full entry, and sees all entries when there is none. -/
theorem Seen.scan (h : Seen ipv4 dest oif seen search)
    (hfull : ∀ j ∈ seen, fullMatch ipv4 dest oif j = false) (rest : List Route) :
    match rest.find? (fullMatch ipv4 dest oif) with
    | some j => (scan ipv4 dest oif search rest).rtentry = some j
    | none => Seen ipv4 dest oif (seen ++ rest) (scan ipv4 dest oif search rest) := by
  induction rest generalizing seen search with
  | nil => rwa [List.find?_nil, List.append_nil]
  | cons j rest ih =>
      cases hj : fullMatch ipv4 dest oif j with
      | true =>
          rw [List.find?_cons_of_pos hj, StaticRouting.scan,
            visit_of_full hj (h.longest_lt hfull)]
          rfl
      | false =>
          have hleave : StaticRouting.scan ipv4 dest oif search (j :: rest) =
              StaticRouting.scan ipv4 dest oif (StaticRouting.visit ipv4 dest oif search j).1 rest := by
            rw [StaticRouting.scan, visit_of_not_full hj]
            rfl
          have hseen : ∀ i ∈ seen ++ [j], fullMatch ipv4 dest oif i = false := fun i hmem => by
            rcases List.mem_append.mp hmem with hmem | hmem
            · exact hfull i hmem
            · rwa [List.mem_singleton.mp hmem]
          have hrest := ih (h.visit j) hseen
          rw [List.find?_cons_of_neg (by rw [hj]; exact Bool.false_ne_true), hleave]
          rwa [List.append_assoc, List.singleton_append] at hrest

/-- The entry of the lookup is the first full one, or the best of all. -/
theorem chosen_spec (networkRoutes : List Route) :
    match networkRoutes.find? (fullMatch ipv4 dest oif) with
    | some j => chosen ipv4 dest oif networkRoutes = some j
    | none => ∃ search, Seen ipv4 dest oif networkRoutes search ∧
        chosen ipv4 dest oif networkRoutes = search.rtentry := by
  have hstart : Seen ipv4 dest oif [] {} := Seen.start
  have hscan := hstart.scan (fun _ hmem => absurd hmem List.not_mem_nil) networkRoutes
  cases hfull : networkRoutes.find? (fullMatch ipv4 dest oif) with
  | some j =>
      rw [hfull] at hscan
      exact hscan
  | none =>
      rw [hfull] at hscan
      exact ⟨_, hscan, rfl⟩

/-! ## The best route -/

variable (ipv4 dest oif)

/-- The route leads to the destination by a prefix of so many bits, on the device if one is given. -/
def LeadsBy (length : Nat) (route : Route) : Prop :=
  length ≤ 32 ∧ route.destNetworkMask = maskOf length ∧
    dest >>> (32 - length) = route.dest >>> (32 - length) ∧
    ∀ device, oif = some device → device = ipv4.getNetDevice route.interface

/-- One of the routes has the longest prefix of those that lead to the destination, and the least
metric of those with that prefix. -/
def Best (routes : List Route) (route : Route) : Prop :=
  route ∈ routes ∧ ∃ length, LeadsBy ipv4 dest oif length route ∧
    ∀ other ∈ routes, ∀ length', LeadsBy ipv4 dest oif length' other →
      length' ≤ length ∧ (length' = length → route.metric ≤ other.metric)

/-- The lookup finds the best of the routes that were added. -/
def PicksBest (additions : List Addition) : Prop :=
  lookupStatic ipv4 dest oif (build additions) =
      .ok ((chosen ipv4 dest oif (build additions)).map ipv4.routeOf) ∧
    (chosen ipv4 dest oif (build additions) = none ↔
      ∀ route ∈ additions.map Addition.route, ∀ length, ¬ LeadsBy ipv4 dest oif length route) ∧
    ∀ route, chosen ipv4 dest oif (build additions) = some route →
      Best ipv4 dest oif (additions.map Addition.route) route

/-- The first of the host routes to the destination has the least metric of them. -/
def FirstHostCheapest (additions : List Addition) : Prop :=
  ∀ first, (additions.map Addition.route).find? (fullMatch ipv4 dest oif) = some first →
    ∀ other ∈ additions.map Addition.route, LeadsBy ipv4 dest oif 32 other →
      first.metric ≤ other.metric

/-- The masks that the calls are given are contiguous. -/
def Contiguous (additions : List Addition) : Prop :=
  ∀ addition ∈ additions, ∃ length ≤ 32, addition.route.destNetworkMask = maskOf length

variable {ipv4 dest oif} {length : Nat} {route : Route} {routes : List Route}

theorem leadsBy_iff (hlength : length ≤ 32) (hmask : route.destNetworkMask = maskOf length) :
    LeadsBy ipv4 dest oif length route ↔ usable ipv4 dest oif route = true := by
  rw [LeadsBy, usable, hmask, Bool.and_eq_true, isMatch_maskOf]
  constructor
  · rintro ⟨-, -, hagree, hdevice⟩
    refine ⟨hagree, ?_⟩
    cases hoif : oif with
    | none => rfl
    | some device => exact decide_eq_true (hdevice device hoif).symm
  · rintro ⟨hagree, hdevice⟩
    refine ⟨hlength, rfl, hagree, fun device hoif => ?_⟩
    rw [hoif] at hdevice
    exact (of_decide_eq_true hdevice).symm

theorem LeadsBy.usable (leads : LeadsBy ipv4 dest oif length route) :
    usable ipv4 dest oif route = true :=
  (leadsBy_iff leads.1 leads.2.1).mp leads

omit [DecidableEq Device] in
theorem LeadsBy.length_eq (leads : LeadsBy ipv4 dest oif length route) :
    getPrefixLength route.destNetworkMask = length := by
  rw [leads.2.1, getPrefixLength_maskOf leads.1]

theorem leadsBy_of_usable (hmask : ∃ length ≤ 32, route.destNetworkMask = maskOf length)
    (husable : StaticRouting.usable ipv4 dest oif route = true) :
    LeadsBy ipv4 dest oif (getPrefixLength route.destNetworkMask) route := by
  obtain ⟨length, hlength, hmask⟩ := hmask
  rw [hmask, getPrefixLength_maskOf hlength]
  exact (leadsBy_iff hlength hmask).mpr husable

theorem fullMatch_iff (hmask : ∃ length ≤ 32, route.destNetworkMask = maskOf length) :
    fullMatch ipv4 dest oif route = true ↔ LeadsBy ipv4 dest oif 32 route := by
  rw [fullMatch, Bool.and_eq_true, beq_iff_eq]
  constructor
  · rintro ⟨husable, hlength⟩
    exact hlength ▸ leadsBy_of_usable hmask husable
  · exact fun leads => ⟨leads.usable, leads.length_eq⟩

omit [DecidableEq Device] in
/-- Prefix length and metric of the best route do not depend on the order of the routes. -/
theorem Best.same {routes' : List Route} {route' : Route} (hperm : routes.Perm routes')
    (best : Best ipv4 dest oif routes route) (best' : Best ipv4 dest oif routes' route') :
    route.destNetworkMask = route'.destNetworkMask ∧ route.metric = route'.metric := by
  obtain ⟨hmem, length, leads, hbest⟩ := best
  obtain ⟨hmem', length', leads', hbest'⟩ := best'
  obtain ⟨hle, hcheap⟩ := hbest route' (hperm.mem_iff.mpr hmem') length' leads'
  obtain ⟨hle', hcheap'⟩ := hbest' route (hperm.mem_iff.mp hmem) length leads
  have heq : length' = length := Nat.le_antisymm hle hle'
  exact ⟨by rw [leads.2.1, leads'.2.1, heq], BitVec.le_antisymm (hcheap heq) (hcheap' heq.symm)⟩

/-- The lookup picks the best route exactly when the first host route to the destination is the
cheapest. -/
theorem picksBest_iff (ipv4 : Ipv4Interfaces Device) {dest : BitVec 32} (oif : Option Device)
    {additions : List Addition} (hmasks : Contiguous additions)
    (hdest : isLocalMulticast dest = false) :
    PicksBest ipv4 dest oif additions ↔ FirstHostCheapest ipv4 dest oif additions := by
  have hlookup : lookupStatic ipv4 dest oif (build additions) =
      .ok ((chosen ipv4 dest oif (build additions)).map ipv4.routeOf) := by
    unfold lookupStatic
    rw [if_neg (by rw [hdest]; exact Bool.false_ne_true)]
  have hmask : ∀ route ∈ additions.map Addition.route,
      ∃ length ≤ 32, route.destNetworkMask = maskOf length := fun route hmem => by
    obtain ⟨addition, haddition, rfl⟩ := List.mem_map.mp hmem
    exact hmasks addition haddition
  have hchosen := @chosen_spec _ _ ipv4 dest oif (build additions)
  rw [find?_build] at hchosen
  cases hfirst : (additions.map Addition.route).find? (fullMatch ipv4 dest oif) with
  | some first =>
      rw [hfirst] at hchosen
      have hmem := List.mem_of_find?_eq_some hfirst
      have hleads := (fullMatch_iff (hmask first hmem)).mp (List.find?_some hfirst)
      constructor
      · rintro ⟨-, -, hbest⟩ first' hfirst' other hother hleads'
        obtain rfl := Option.some.inj (hfirst.symm.trans hfirst')
        obtain ⟨-, length, hlength, hleast⟩ := hbest first hchosen
        obtain rfl := hlength.length_eq.symm.trans hleads.length_eq
        exact (hleast other hother 32 hleads').2 rfl
      · intro hcheapest
        refine ⟨hlookup, ?_, fun route hroute => ?_⟩
        · rw [hchosen]
          exact iff_of_false (fun hnone => nomatch hnone) fun hno => hno first hmem 32 hleads
        · obtain rfl := Option.some.inj (hchosen.symm.trans hroute)
          refine ⟨hmem, 32, hleads, fun other hother length' hleads' => ⟨hleads'.1, ?_⟩⟩
          rintro rfl
          exact hcheapest first hfirst other hother hleads'
  | none =>
      rw [hfirst] at hchosen
      obtain ⟨search, seen, hsearch⟩ := hchosen
      refine iff_of_true ⟨hlookup, ?_, fun route hroute => ?_⟩ fun first hsome => ?_
      · rw [hsearch]
        constructor
        · intro hnone route hmem length hleads
          have hunusable := (seen.empty hnone).2.2 route (mem_build.mpr hmem)
          exact absurd hleads.usable (Bool.eq_false_iff.mp hunusable)
        · intro hno
          cases hentry : search.rtentry with
          | none => rfl
          | some route =>
              obtain ⟨hmem, husable, -⟩ := seen.kept route hentry
              have hadded := mem_build.mp hmem
              exact absurd (leadsBy_of_usable (hmask route hadded) husable) (hno route hadded _)
      · obtain ⟨hmem, husable, hlength, hmetric⟩ := seen.kept route (hsearch.symm.trans hroute)
        have hadded := mem_build.mp hmem
        refine ⟨hadded, _, leadsBy_of_usable (hmask route hadded) husable,
          fun other hother length' hleads' => ?_⟩
        have hmem' := mem_build.mpr hother
        rw [← hleads'.length_eq, hlength, hmetric]
        exact ⟨seen.longest other hmem' hleads'.usable, seen.cheapest other hmem' hleads'.usable⟩
      · rw [hfirst] at hsome
        exact nomatch hsome

end Lookup

/-- A node with one device for each interface. -/
def twoDevices : Ipv4Interfaces (BitVec 32) where
  getNetDevice interface := interface
  getInterfaceForDevice device := device
  getAddress interface _ := 0x0a000001 + interface
  sourceAddressSelection interface _ := 0x0a000001 + interface

theorem picksBest_iff_hostRoutes :
    PicksBest twoDevices 0x0a000005 none
        [.defaultRoute 0x0a0000fe 0 1, .hostRoute 0x0a000005 1 1, .hostRoute 0x0a000005 2 5] ↔
      FirstHostCheapest twoDevices 0x0a000005 none
        [.defaultRoute 0x0a0000fe 0 1, .hostRoute 0x0a000005 1 1, .hostRoute 0x0a000005 2 5] := by
  refine picksBest_iff twoDevices none (fun addition hmem => ?_) (by decide)
  rcases List.mem_cons.mp hmem with rfl | hmem
  · exact ⟨0, Nat.zero_le _, rfl⟩
  · refine ⟨32, Nat.le_refl _, ?_⟩
    rcases List.mem_cons.mp hmem with rfl | hmem
    · rfl
    · rw [List.mem_singleton.mp hmem]
      rfl

/-- The host route that was added first is taken, although the other one is cheaper. -/
theorem not_picksBest_hostRoutes :
    ¬ PicksBest twoDevices 0x0a000005 none
      [.hostRoute 0x0a000005 1 5, .hostRoute 0x0a000005 2 1] := by
  rintro ⟨-, -, hbest⟩
  obtain ⟨-, length, hleads, hleast⟩ := hbest ⟨0x0a000005, maskOf 32, 0, 1, 5⟩ (by decide)
  have hlength : 32 = length := hleads.length_eq
  obtain rfl := hlength
  have hother := hleast ⟨0x0a000005, maskOf 32, 0, 2, 1⟩ (by decide) 32
    ⟨by decide, rfl, rfl, fun _ hnone => nomatch hnone⟩
  exact absurd (hother.2 rfl) (by decide)

end DeepcV2x.Ipv4.StaticRouting
