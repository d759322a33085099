import DeepcV2x.Wifi.BlockAck

/-!
# Receive reordering

The window seen with numbers that do not wrap.  What is forwarded and what is
buffered stays one increasing list, cut at the start of the window, as long as
the window does not move to a start computed below zero.
-/

namespace DeepcV2x.Wifi

/-! ## Distances of numbers that do not wrap -/

theorem wrapped_eq {seqNumber startingSeqNumber : Nat} (hseq : seqNumber < 4096)
    (hstart : startingSeqNumber < 4096) :
    wrapped seqNumber startingSeqNumber = ((seqNumber + 4096 - startingSeqNumber) % 4096 : Nat) := by
  rw [wrapped, Int.tmod_eq_emod_of_nonneg (by omega)]
  omega

theorem distance_eq {seqNumber startingSeqNumber : Nat} (hseq : seqNumber < 4096)
    (hstart : startingSeqNumber < 4096) :
    distance seqNumber startingSeqNumber = (seqNumber + 4096 - startingSeqNumber) % 4096 := by
  rw [distance, wrapped_eq hseq hstart]
  omega

theorem getDistance_eq {asserts : Bool} {seqNumber startingSeqNumber : Nat} (hseq : seqNumber < 4096)
    (hstart : startingSeqNumber < 4096) :
    getDistance asserts seqNumber startingSeqNumber =
      some ((seqNumber + 4096 - startingSeqNumber) % 4096) := by
  rw [getDistance, if_neg fun hfail => hfail.2 ⟨hseq, hstart⟩, distance_eq hseq hstart]

/-- The distance of a number that is not behind the start and less than a turn ahead. -/
theorem ahead_eq {number start : Nat} (hle : start ≤ number) (hlt : number < start + 4096) :
    (number % 4096 + 4096 - start % 4096) % 4096 = number - start := by
  omega

/-! ## The scoreboard -/

namespace BlockAckWindow

/-- The scoreboard starts at a sequence number and keeps its size. -/
def Sized (window : BlockAckWindow) (winSize : Nat) : Prop :=
  window.winStart < 4096 ∧ window.window.length = winSize

variable {window : BlockAckWindow} {winSize : Nat}

theorem clear_winSize (count : Nat) : ∀ window : BlockAckWindow,
    (clear count window).window.length = window.window.length := by
  induction count with
  | zero => exact fun _ => rfl
  | succ count ih =>
      intro window
      rw [clear, ih, List.length_set]

theorem Sized.advance (sized : window.Sized winSize) (count : Nat) :
    (window.advance count).Sized winSize ∧
      (window.advance count).winStart = (window.winStart + count) % 4096 := by
  have hstart : (window.winStart + count) % 4096 < 4096 := Nat.mod_lt _ (by decide)
  rw [BlockAckWindow.advance]
  split
  next => exact ⟨⟨hstart, by rw [reset, init, List.length_replicate]; exact sized.2⟩, rfl⟩
  next => exact ⟨⟨hstart, (clear_winSize count window).trans sized.2⟩, rfl⟩

theorem Sized.setAt (sized : window.Sized winSize) (asserts : Bool) {distance : Nat}
    (hdistance : distance < winSize) :
    ∃ next, window.setAt asserts distance = some next ∧ next.Sized winSize := by
  refine ⟨_, if_neg ?_, sized.1, (List.length_set ..).trans sized.2⟩
  rw [getWinSize, sized.2]
  rintro (hzero | ⟨-, hfail⟩)
  · omega
  · exact hfail hdistance

/-- An empty scoreboard takes no MPDU. -/
theorem Sized.receiveMpdu (sized : window.Sized winSize) (asserts : Bool) {seqNumber : Nat}
    (hseq : seqNumber < 4096)
    (hroom : (seqNumber + 4096 - window.winStart) % 4096 < 2048 → 0 < winSize) :
    ∃ next, window.receiveMpdu asserts seqNumber = some next ∧ next.Sized winSize := by
  have hsmall : (seqNumber + 4096 - window.winStart) % 4096 % 65536 =
      (seqNumber + 4096 - window.winStart) % 4096 := Nat.mod_eq_of_lt (by omega)
  rw [BlockAckWindow.receiveMpdu, getDistance_eq hseq sized.1, Option.bind_some, hsmall]
  split
  next hlt =>
    refine sized.setAt asserts ?_
    rwa [getWinSize, sized.2] at hlt
  next =>
    split
    next hhalf =>
      obtain ⟨hadvanced, -⟩ :=
        sized.advance ((seqNumber + 4096 - window.winStart) % 4096 - window.getWinSize + 1)
      refine hadvanced.setAt asserts ?_
      have hpos := hroom hhalf
      rw [getWinSize, hadvanced.2]
      omega
    next => exact ⟨window, rfl, sized⟩

theorem Sized.receiveBar (sized : window.Sized winSize) (asserts : Bool) {seqNumber : Nat}
    (hseq : seqNumber < 4096) :
    ∃ next, window.receiveBar asserts seqNumber = some next ∧ next.Sized winSize := by
  have hstart := sized.1
  have hsmall : (seqNumber + 4096 - window.winStart) % 4096 % 65536 =
      (seqNumber + 4096 - window.winStart) % 4096 := Nat.mod_eq_of_lt (by omega)
  rw [BlockAckWindow.receiveBar, getDistance_eq hseq hstart, Option.bind_some, hsmall]
  obtain ⟨hadvanced, hplace⟩ := sized.advance ((seqNumber + 4096 - window.winStart) % 4096)
  have hsame : (window.winStart + (seqNumber + 4096 - window.winStart) % 4096) % 4096 = seqNumber := by
    omega
  split
  next =>
    rw [if_neg fun hfail => hfail.2 (hplace.trans hsame)]
    exact ⟨_, rfl, hadvanced⟩
  next =>
    split
    next =>
      refine ⟨_, rfl, hseq, ?_⟩
      rw [reset, init, List.length_replicate]
      exact sized.2
    next => exact ⟨window, rfl, sized⟩

end BlockAckWindow

/-! ## The buffer as an increasing list -/

variable {β : Type*}

/-- The unwrapped number of an MPDU. -/
def WifiMpdu.number (mpdu : WifiMpdu (Nat × β)) : Nat := mpdu.packet.1

/-- The MPDUs are in increasing order. -/
def Increasing (mpdus : List (WifiMpdu (Nat × β))) : Prop :=
  mpdus.Pairwise fun mpdu other => mpdu.number < other.number

/-- The MPDUs carry their numbers modulo 4096, and the numbers are in a range. -/
def Within (start limit : Nat) (mpdus : List (WifiMpdu (Nat × β))) : Prop :=
  ∀ mpdu ∈ mpdus, mpdu.seqNumber = mpdu.number % 4096 ∧ start ≤ mpdu.number ∧ mpdu.number < limit

theorem Within.tail {start limit : Nat} {mpdu : WifiMpdu (Nat × β)}
    {mpdus : List (WifiMpdu (Nat × β))} (within : Within start limit (mpdu :: mpdus)) :
    Within start limit mpdus :=
  fun other hmem => within other (List.mem_cons_of_mem _ hmem)

theorem wrapped_ahead {start limit : Nat} {mpdu : WifiMpdu (Nat × β)} {winStartB : Nat}
    (hstart : winStartB = start % 4096) (hlimit : limit ≤ start + 4096)
    (hmpdu : mpdu.seqNumber = mpdu.number % 4096 ∧ start ≤ mpdu.number ∧ mpdu.number < limit) :
    wrapped mpdu.seqNumber winStartB = ((mpdu.number - start : Nat) : Int) := by
  obtain ⟨hseq, hle, hlt⟩ := hmpdu
  rw [hseq, hstart, wrapped_eq (Nat.mod_lt _ (by decide)) (Nat.mod_lt _ (by decide)),
    ahead_eq hle (by omega)]

namespace RecipientBlockAckAgreement

/-- An MPDU goes to its place, unless its number is buffered. -/
theorem insertMpdu_spec {start limit winStartB : Nat} {mpdu : WifiMpdu (Nat × β)}
    (hstart : winStartB = start % 4096) (hlimit : limit ≤ start + 4096)
    (hmpdu : mpdu.seqNumber = mpdu.number % 4096 ∧ start ≤ mpdu.number ∧ mpdu.number < limit)
    (mpdus : List (WifiMpdu (Nat × β))) (within : Within start limit mpdus)
    (increasing : Increasing mpdus) :
    Increasing (insertMpdu winStartB mpdu mpdus) ∧
      (∀ other ∈ insertMpdu winStartB mpdu mpdus, other = mpdu ∨ other ∈ mpdus) ∧
      (∀ other ∈ mpdus, other ∈ insertMpdu winStartB mpdu mpdus) ∧
      ∃ other ∈ insertMpdu winStartB mpdu mpdus, other.number = mpdu.number := by
  induction mpdus with
  | nil =>
      refine ⟨List.pairwise_singleton .., fun other hmem => Or.inl (List.mem_singleton.mp hmem),
        fun _ hmem => absurd hmem List.not_mem_nil, mpdu, List.mem_singleton_self _, rfl⟩
  | cons first rest ih =>
      obtain ⟨hfirst, hrest⟩ := List.pairwise_cons.mp increasing
      have hplace := within first List.mem_cons_self
      have hleft := wrapped_ahead hstart hlimit hplace
      have hright := wrapped_ahead hstart hlimit hmpdu
      rw [insertMpdu, hleft, hright]
      split
      next hlt =>
        obtain ⟨hincreasing, hmembers, hold, other, hother, hnumber⟩ := ih within.tail hrest
        refine ⟨List.pairwise_cons.mpr ⟨fun behind hmem => ?_, hincreasing⟩, fun behind hmem => ?_,
          fun behind hmem => ?_, other, List.mem_cons_of_mem _ hother, hnumber⟩
        · rcases hmembers behind hmem with rfl | hmem
          · omega
          · exact hfirst behind hmem
        · rcases List.mem_cons.mp hmem with rfl | hmem
          · exact Or.inr List.mem_cons_self
          · exact (hmembers behind hmem).imp_right (List.mem_cons_of_mem _)
        · rcases List.mem_cons.mp hmem with rfl | hmem
          · exact List.mem_cons_self
          · exact List.mem_cons_of_mem _ (hold behind hmem)
      next hge =>
        split
        next hgt =>
          refine ⟨List.pairwise_cons.mpr ⟨fun behind hmem => ?_, increasing⟩, fun behind hmem => ?_,
            fun behind hmem => List.mem_cons_of_mem _ hmem, mpdu, List.mem_cons_self, rfl⟩
          · rcases List.mem_cons.mp hmem with rfl | hmem
            · omega
            · have := hfirst behind hmem
              omega
          · exact List.mem_cons.mp hmem
        next hle =>
          refine ⟨increasing, fun behind hmem => Or.inr hmem, fun behind hmem => hmem, first,
            List.mem_cons_self, ?_⟩
          have := hplace.2.1
          have := hmpdu.2.1
          omega

/-- The MPDUs forwarded and buffered, which no loop changes. -/
def all (agreement : RecipientBlockAckAgreement (Nat × β)) : List (WifiMpdu (Nat × β)) :=
  agreement.forwarded ++ agreement.bufferedMpdus

/-- The loop that forwards MPDUs below a number. -/
theorem passWhileLess_spec {asserts : Bool} {start new : Nat} (hle : start ≤ new)
    (hnew : new < start + 4096) (mpdus : List (WifiMpdu (Nat × β))) :
    ∀ agreement : RecipientBlockAckAgreement (Nat × β), agreement.winStartB = start % 4096 →
      Within start (start + 4096) mpdus → Increasing mpdus →
      ∃ passed, passWhileLess asserts (new % 4096) mpdus agreement = some passed ∧
        passed.all = agreement.forwarded ++ mpdus ∧ passed.winSizeB = agreement.winSizeB ∧
        passed.scoreboard = agreement.scoreboard ∧
        (∀ mpdu ∈ passed.forwarded, mpdu ∈ agreement.forwarded ∨ mpdu.number < new) ∧
        ∀ mpdu ∈ passed.bufferedMpdus, mpdu ∈ mpdus ∧ new ≤ mpdu.number := by
  have hmod : new % 4096 < 4096 := Nat.mod_lt _ (by decide)
  induction mpdus with
  | nil =>
      intro agreement _ _ _
      exact ⟨_, rfl, rfl, rfl, rfl, fun _ hmem => Or.inl hmem, fun _ hmem => absurd hmem List.not_mem_nil⟩
  | cons mpdu rest ih =>
      intro agreement hstart within increasing
      obtain ⟨hfirst, hrest⟩ := List.pairwise_cons.mp increasing
      obtain ⟨hseq, hbelow, habove⟩ := within mpdu List.mem_cons_self
      have hdistance : getDistance asserts mpdu.seqNumber agreement.winStartB =
          some (mpdu.number - start) := by
        rw [hstart, hseq, getDistance_eq (Nat.mod_lt _ (by decide)) (Nat.mod_lt _ (by decide)),
          ahead_eq hbelow habove]
      have hnewDistance : getDistance asserts (new % 4096) agreement.winStartB =
          some (new - start) := by
        rw [hstart, getDistance_eq hmod (Nat.mod_lt _ (by decide)), ahead_eq hle hnew]
      rw [passWhileLess, hdistance, hnewDistance, Option.bind_some, Option.bind_some]
      split
      next hlt =>
        obtain ⟨passed, hpassed, hall, hsize, hboard, hforwarded, hbuffered⟩ :=
          ih { agreement with forwarded := agreement.forwarded ++ [mpdu] } hstart within.tail hrest
        refine ⟨passed, hpassed, ?_, hsize, hboard, fun other hmem => ?_, fun other hmem => ?_⟩
        · rw [hall, List.append_assoc]
          rfl
        · rcases hforwarded other hmem with hmem | hmem
          · rcases List.mem_append.mp hmem with hmem | hmem
            · exact Or.inl hmem
            · cases List.mem_singleton.mp hmem
              exact Or.inr (by omega)
          · exact Or.inr hmem
        · exact ⟨List.mem_cons_of_mem _ (hbuffered other hmem).1, (hbuffered other hmem).2⟩
      next hge =>
        refine ⟨_, rfl, rfl, rfl, rfl, fun _ hmem => Or.inl hmem, fun other hmem => ⟨hmem, ?_⟩⟩
        rcases List.mem_cons.mp hmem with rfl | hmem
        · omega
        · have := hfirst other hmem
          omega

/-- The loop that forwards MPDUs up to the first one missing. -/
theorem passWhileNext_spec (mpdus : List (WifiMpdu (Nat × β))) : ∀ {start limit : Nat}
    (agreement : RecipientBlockAckAgreement (Nat × β)), agreement.winStartB = start % 4096 →
      limit ≤ start + 4096 → Within start limit mpdus → Increasing mpdus →
      ∃ last, (passWhileNext mpdus agreement).winStartB = last % 4096 ∧ start ≤ last ∧
        last ≤ max start limit ∧
        (passWhileNext mpdus agreement).all = agreement.forwarded ++ mpdus ∧
        (passWhileNext mpdus agreement).winSizeB = agreement.winSizeB ∧
        (passWhileNext mpdus agreement).scoreboard = agreement.scoreboard ∧
        (∀ mpdu ∈ (passWhileNext mpdus agreement).forwarded,
          mpdu ∈ agreement.forwarded ∨ mpdu.number < last) ∧
        ∀ mpdu ∈ (passWhileNext mpdus agreement).bufferedMpdus, mpdu ∈ mpdus ∧ last < mpdu.number := by
  induction mpdus with
  | nil =>
      intro start limit agreement hstart _ _ _
      exact ⟨start, hstart, Nat.le_refl _, Nat.le_max_left _ _, rfl, rfl, rfl,
        fun _ hmem => Or.inl hmem, fun _ hmem => absurd hmem List.not_mem_nil⟩
  | cons mpdu rest ih =>
      intro start limit agreement hstart hlimit within increasing
      obtain ⟨hfirst, hrest⟩ := List.pairwise_cons.mp increasing
      obtain ⟨hseq, hbelow, habove⟩ := within mpdu List.mem_cons_self
      rw [passWhileNext]
      split
      next heq =>
        have hnumber : mpdu.number = start := by omega
        obtain ⟨last, hlast, hle, hmax, hall, hsize, hboard, hforwarded, hbuffered⟩ :=
          @ih (start + 1) limit
            { agreement with
              winStartB := (agreement.winStartB + 1) % 4096
              forwarded := agreement.forwarded ++ [mpdu] }
            (by
              show (agreement.winStartB + 1) % 4096 = _
              rw [hstart]
              omega)
            (by omega)
            (fun other hmem => ⟨(within.tail other hmem).1, by
              have := hfirst other hmem
              omega, (within.tail other hmem).2.2⟩) hrest
        refine ⟨last, hlast, by omega, by omega, ?_, hsize, hboard, fun other hmem => ?_,
          fun other hmem => ?_⟩
        · rw [hall, List.append_assoc]
          rfl
        · rcases hforwarded other hmem with hmem | hmem
          · rcases List.mem_append.mp hmem with hmem | hmem
            · exact Or.inl hmem
            · cases List.mem_singleton.mp hmem
              exact Or.inr (by omega)
          · exact Or.inr hmem
        · exact ⟨List.mem_cons_of_mem _ (hbuffered other hmem).1, (hbuffered other hmem).2⟩
      next hne =>
        refine ⟨start, hstart, Nat.le_refl _, Nat.le_max_left _ _, rfl, rfl, rfl,
          fun _ hmem => Or.inl hmem, fun other hmem => ⟨hmem, ?_⟩⟩
        have hahead : start < mpdu.number := by
          rcases Nat.lt_or_eq_of_le hbelow with hlt | heq
          · exact hlt
          · exact absurd (hseq.trans (by rw [hstart, heq])) hne
        rcases List.mem_cons.mp hmem with rfl | hmem
        · exact hahead
        · exact Nat.lt_trans hahead (hfirst other hmem)

/-- The window of an agreement in numbers that do not wrap. -/
structure Ordered (start : Nat) (agreement : RecipientBlockAckAgreement (Nat × β)) : Prop where
  winStart : agreement.winStartB = start % 4096
  winSize : agreement.winSizeB ≤ 1024
  scoreboard : agreement.scoreboard.Sized agreement.winSizeB
  behind : 2048 ≤ start
  increasing : Increasing agreement.all
  forwarded : ∀ mpdu ∈ agreement.forwarded, mpdu.number < start
  buffered : Within start (start + agreement.winSizeB) agreement.bufferedMpdus
  lost : ∀ mpdu ∈ agreement.bufferedMpdus, start < mpdu.number

/-- Before the loops run, the buffer may hold the start of the window and MPDUs beyond its end. -/
structure Received (start : Nat) (agreement : RecipientBlockAckAgreement (Nat × β)) : Prop where
  winStart : agreement.winStartB = start % 4096
  winSize : agreement.winSizeB ≤ 1024
  scoreboard : agreement.scoreboard.Sized agreement.winSizeB
  behind : 2048 ≤ start
  increasing : Increasing agreement.all
  forwarded : ∀ mpdu ∈ agreement.forwarded, mpdu.number < start
  buffered : Within start (start + 2048) agreement.bufferedMpdus

theorem Ordered.received {start : Nat} {agreement : RecipientBlockAckAgreement (Nat × β)}
    (ordered : Ordered start agreement) : Received start agreement where
  winStart := ordered.winStart
  winSize := ordered.winSize
  scoreboard := ordered.scoreboard
  behind := ordered.behind
  increasing := ordered.increasing
  forwarded := ordered.forwarded
  buffered := fun mpdu hmem => by
    obtain ⟨hseq, hle, hlt⟩ := ordered.buffered mpdu hmem
    have := ordered.winSize
    exact ⟨hseq, hle, by omega⟩

theorem Received.noOldMpdus {start : Nat} {agreement : RecipientBlockAckAgreement (Nat × β)}
    (received : Received start agreement) : agreement.NoOldMpdus := by
  intro mpdu hlast
  obtain ⟨hseq, hle, hlt⟩ := received.buffered mpdu (List.mem_of_getLast? hlast)
  have hmod : mpdu.seqNumber < 4096 := hseq ▸ Nat.mod_lt _ (by decide)
  have hstart : agreement.winStartB < 4096 := received.winStart ▸ Nat.mod_lt _ (by decide)
  refine ⟨hmod, hstart, ?_⟩
  rw [distance_eq hmod hstart, hseq, received.winStart, ahead_eq hle (by omega)]
  omega

/-- `PassBufferedMpdusUntilFirstLost` leaves nothing at the start of the window. -/
theorem Received.untilFirstLost {start : Nat} {agreement : RecipientBlockAckAgreement (Nat × β)}
    (received : Received start agreement) (asserts : Bool)
    (hbuffered : Within start (start + agreement.winSizeB) agreement.bufferedMpdus) :
    ∃ next last, agreement.passBufferedMpdusUntilFirstLost asserts = some next ∧
      start ≤ last ∧ last ≤ start + agreement.winSizeB ∧ Ordered last next ∧
      next.all = agreement.all := by
  have hsize := received.winSize
  obtain ⟨last, hlast, hle, hmax, hall, hwinSize, hboard, hforwarded, hrest⟩ :=
    passWhileNext_spec agreement.bufferedMpdus agreement received.winStart
      (by omega : start + agreement.winSizeB ≤ start + 4096) hbuffered
      (List.pairwise_append.mp received.increasing).2.1
  refine ⟨_, last, if_neg fun hfail => hfail.2 received.noOldMpdus, hle, by omega, ?_, hall⟩
  exact {
    winStart := hlast
    winSize := hwinSize ▸ hsize
    scoreboard := by
      rw [hwinSize, hboard]
      exact received.scoreboard
    behind := Nat.le_trans received.behind hle
    increasing := by
      rw [hall]
      exact received.increasing
    forwarded := fun mpdu hmem => by
      rcases hforwarded mpdu hmem with hmem | hlt
      · have := received.forwarded mpdu hmem
        omega
      · exact hlt
    buffered := fun mpdu hmem => by
      obtain ⟨hold, hgt⟩ := hrest mpdu hmem
      obtain ⟨hseq, -, hlt⟩ := hbuffered mpdu hold
      exact ⟨hseq, Nat.le_of_lt hgt, by omega⟩
    lost := fun mpdu hmem => (hrest mpdu hmem).2 }

/-- `PassBufferedMpdusWithSeqNumberLessThan` moves the window. -/
theorem Received.lessThan {start new : Nat} {agreement : RecipientBlockAckAgreement (Nat × β)}
    (received : Received start agreement) (asserts : Bool) (hle : start ≤ new)
    (hnew : new < start + 4096)
    (hlimit : Within start (new + agreement.winSizeB) agreement.bufferedMpdus) :
    ∃ next, agreement.passBufferedMpdusWithSeqNumberLessThan asserts (new % 4096) = some next ∧
      Received new next ∧ next.all = agreement.all ∧ next.winSizeB = agreement.winSizeB ∧
      Within new (new + next.winSizeB) next.bufferedMpdus := by
  have hsize := received.winSize
  have hwide : Within start (start + 4096) agreement.bufferedMpdus := fun mpdu hmem => by
    obtain ⟨hseq, hbelow, habove⟩ := received.buffered mpdu hmem
    exact ⟨hseq, hbelow, by omega⟩
  obtain ⟨passed, hpassed, hall, hwinSize, hboard, hforwarded, hrest⟩ :=
    @passWhileLess_spec β asserts start new hle hnew agreement.bufferedMpdus agreement
      received.winStart hwide (List.pairwise_append.mp received.increasing).2.1
  have hbuffered : Within new (new + agreement.winSizeB) passed.bufferedMpdus := fun mpdu hmem => by
    obtain ⟨hold, hge⟩ := hrest mpdu hmem
    obtain ⟨hseq, -, hlt⟩ := hlimit mpdu hold
    exact ⟨hseq, hge, hlt⟩
  refine ⟨{ passed with winStartB := new % 4096 }, ?_, ?_, hall, hwinSize, ?_⟩
  · rw [passBufferedMpdusWithSeqNumberLessThan, if_neg fun hfail => hfail.2 received.noOldMpdus,
      hpassed, Option.map_some]
  · exact {
      winStart := rfl
      winSize := hwinSize ▸ hsize
      scoreboard := by
        show passed.scoreboard.Sized passed.winSizeB
        rw [hwinSize, hboard]
        exact received.scoreboard
      behind := Nat.le_trans received.behind hle
      increasing := by
        show Increasing passed.all
        rw [hall]
        exact received.increasing
      forwarded := fun mpdu hmem => by
        rcases hforwarded mpdu hmem with hmem | hlt
        · have := received.forwarded mpdu hmem
          omega
        · exact hlt
      buffered := fun mpdu hmem => by
        obtain ⟨hseq, hge, hlt⟩ := hbuffered mpdu hmem
        exact ⟨hseq, hge, by omega⟩ }
  · rw [hwinSize]
    exact hbuffered

/-- The agreement holds the MPDUs it held, and nothing else but a new one. -/
structure Grows (agreement next : RecipientBlockAckAgreement (Nat × β))
    (mpdu : WifiMpdu (Nat × β)) : Prop where
  kept : ∀ other ∈ agreement.all, other ∈ next.all
  genuine : ∀ other ∈ next.all, other = mpdu ∨ other ∈ agreement.all

/-- An MPDU ahead of the start of the window is inserted. -/
theorem Ordered.insert {start : Nat} {agreement : RecipientBlockAckAgreement (Nat × β)}
    (ordered : Ordered start agreement) {mpdu : WifiMpdu (Nat × β)} {scoreboard : BlockAckWindow}
    (hboard : scoreboard.Sized agreement.winSizeB) (hseq : mpdu.seqNumber = mpdu.number % 4096)
    (hle : start ≤ mpdu.number) (hlt : mpdu.number < start + 2048) {limit : Nat}
    (hlimit : start + agreement.winSizeB ≤ limit) (hbelow : mpdu.number < limit) :
    ∃ inserted : RecipientBlockAckAgreement (Nat × β),
      inserted = { agreement with
        scoreboard := scoreboard
        bufferedMpdus := insertMpdu agreement.winStartB mpdu agreement.bufferedMpdus } ∧
      Received start inserted ∧ Within start limit inserted.bufferedMpdus ∧
      Grows agreement inserted mpdu ∧ ∃ other ∈ inserted.all, other.number = mpdu.number := by
  have received := ordered.received
  obtain ⟨hincreasing, hmembers, hold, other, hother, hnumber⟩ :=
    insertMpdu_spec received.winStart (by omega : start + 2048 ≤ start + 4096) ⟨hseq, hle, hlt⟩
      agreement.bufferedMpdus received.buffered (List.pairwise_append.mp received.increasing).2.1
  obtain ⟨hforwarded, -, -⟩ := List.pairwise_append.mp received.increasing
  refine ⟨_, rfl, ?_, fun behind hmem => ?_, ⟨fun behind hmem => ?_, fun behind hmem => ?_⟩, other,
    List.mem_append_right _ hother, hnumber⟩
  · exact {
      winStart := received.winStart
      winSize := received.winSize
      scoreboard := hboard
      behind := received.behind
      increasing := by
        refine List.pairwise_append.mpr ⟨hforwarded, hincreasing, fun front hfront behind hmem => ?_⟩
        have hfrontLt := received.forwarded front hfront
        rcases hmembers behind hmem with rfl | hmem
        · omega
        · have := (received.buffered behind hmem).2.1
          omega
      forwarded := received.forwarded
      buffered := fun behind hmem => by
        rcases hmembers behind hmem with rfl | hmem
        · exact ⟨hseq, hle, hlt⟩
        · exact received.buffered behind hmem }
  · rcases hmembers behind hmem with rfl | hmem
    · exact ⟨hseq, hle, hbelow⟩
    · obtain ⟨hplace, hfrom, hto⟩ := ordered.buffered behind hmem
      exact ⟨hplace, hfrom, by omega⟩
  · rcases List.mem_append.mp hmem with hmem | hmem
    · exact List.mem_append_left _ hmem
    · exact List.mem_append_right _ (hold behind hmem)
  · rcases List.mem_append.mp hmem with hmem | hmem
    · exact Or.inr (List.mem_append_left _ hmem)
    · exact (hmembers behind hmem).imp_right (List.mem_append_right _)

theorem Ordered.withScoreboard {start : Nat} {agreement : RecipientBlockAckAgreement (Nat × β)}
    (ordered : Ordered start agreement) {scoreboard : BlockAckWindow}
    (hboard : scoreboard.Sized agreement.winSizeB) :
    Ordered start { agreement with scoreboard := scoreboard } :=
  { ordered with scoreboard := hboard }

/-- The new start of the window does not wrap below zero. -/
theorem toUInt16_eq {number winSizeB : Nat} (hle : winSizeB ≤ number % 4096 + 1)
    (hlt : number % 4096 + 1 < winSizeB + 4096) (hsize : winSizeB ≤ number + 1) :
    toUInt16 (((number % 4096 : Nat) : Int) - winSizeB + 1) = (number + 1 - winSizeB) % 4096 := by
  rw [toUInt16]
  omega

/-- `NotifyReceivedMpdu` keeps the window. -/
theorem Ordered.notifyReceivedMpdu {start : Nat} {agreement : RecipientBlockAckAgreement (Nat × β)}
    (ordered : Ordered start agreement) (asserts : Bool) {mpdu : WifiMpdu (Nat × β)}
    (hseq : mpdu.seqNumber = mpdu.number % 4096) (hbehind : start < mpdu.number + 2048)
    (hahead : mpdu.number < start + 2048)
    (hroom : (mpdu.seqNumber + 4096 - agreement.scoreboard.winStart) % 4096 < 2048 →
      0 < agreement.winSizeB)
    (hspace : start + agreement.winSizeB ≤ mpdu.number →
      agreement.winSizeB ≤ mpdu.seqNumber + 1 ∧ mpdu.seqNumber + 1 < agreement.winSizeB + 4096) :
    ∃ next last, agreement.notifyReceivedMpdu asserts mpdu = some next ∧ start ≤ last ∧
      last < start + 4096 ∧ Ordered last next ∧
      (mpdu.number < start → next.all = agreement.all) ∧
      (start ≤ mpdu.number →
        Grows agreement next mpdu ∧ ∃ other ∈ next.all, other.number = mpdu.number) := by
  have hmod : mpdu.seqNumber < 4096 := hseq ▸ Nat.mod_lt _ (by decide)
  have hstart : agreement.winStartB < 4096 := ordered.winStart ▸ Nat.mod_lt _ (by decide)
  have hsize := ordered.winSize
  have hfar := ordered.behind
  obtain ⟨scoreboard, hscoreboard, hsized⟩ := ordered.scoreboard.receiveMpdu asserts hmod hroom
  have hsmall : (mpdu.seqNumber + 4096 - agreement.winStartB) % 4096 % 65536 =
      (mpdu.seqNumber + 4096 - agreement.winStartB) % 4096 := Nat.mod_eq_of_lt (by omega)
  rw [RecipientBlockAckAgreement.notifyReceivedMpdu, hscoreboard, Option.bind_some,
    getDistance_eq hmod hstart, Option.bind_some, hsmall]
  rcases Nat.lt_or_ge mpdu.number start with hold | hle
  · have hdistance : 2048 < (mpdu.seqNumber + 4096 - agreement.winStartB) % 4096 := by
      rw [hseq, ordered.winStart]
      omega
    rw [if_neg (by omega), if_neg (by omega)]
    exact ⟨_, start, rfl, Nat.le_refl _, by omega, ordered.withScoreboard hsized, fun _ => rfl,
      fun hle => absurd hold (Nat.not_lt_of_le hle)⟩
  · have hdistance : (mpdu.seqNumber + 4096 - agreement.winStartB) % 4096 = mpdu.number - start := by
      rw [hseq, ordered.winStart, ahead_eq hle (by omega)]
    rw [hdistance]
    split
    next hinside =>
      obtain ⟨inserted, hinserted, received, hwithin, grows, other, hother, hnumber⟩ :=
        ordered.insert hsized hseq hle hahead (Nat.le_refl (start + agreement.winSizeB)) (by omega)
      have hwinSize : inserted.winSizeB = agreement.winSizeB := by rw [hinserted]
      obtain ⟨next, last, hnext, hfrom, hto, hordered, hall⟩ :=
        received.untilFirstLost asserts (by rwa [hwinSize])
      refine ⟨next, last, hinserted ▸ hnext, hfrom, by omega, hordered,
        fun hlt => absurd hlt (Nat.not_lt_of_le hle), fun _ => ⟨?_, other, hall ▸ hother, hnumber⟩⟩
      exact ⟨fun behind hmem => hall ▸ grows.kept behind hmem,
        fun behind hmem => grows.genuine behind (hall ▸ hmem)⟩
    next houtside =>
      obtain ⟨hfits, hfits'⟩ := hspace (by omega)
      obtain ⟨inserted, hinserted, received, hwithin, grows, other, hother, hnumber⟩ :=
        ordered.insert hsized hseq hle hahead (by omega : start + agreement.winSizeB ≤ mpdu.number + 1)
          (Nat.lt_succ_self _)
      have hwinSize : inserted.winSizeB = agreement.winSizeB := by rw [hinserted]
      rw [hseq] at hfits hfits'
      obtain ⟨moved, hmoved, hreceived, hmovedAll, hmovedSize, hmovedWithin⟩ :=
        received.lessThan asserts (by omega : start ≤ mpdu.number + 1 - agreement.winSizeB) (by omega)
          (fun behind hmem => by
            obtain ⟨hplace, hfrom, hto⟩ := hwithin behind hmem
            exact ⟨hplace, hfrom, by omega⟩)
      obtain ⟨next, last, hnext, hfrom, hto, hordered, hall⟩ :=
        hreceived.untilFirstLost asserts hmovedWithin
      have hsame := hall.trans hmovedAll
      refine ⟨next, last, ?_, by omega, by omega, hordered,
        fun hlt => absurd hlt (Nat.not_lt_of_le hle), fun _ => ⟨?_, other, hsame ▸ hother, hnumber⟩⟩
      · rw [if_pos (by omega), hseq, toUInt16_eq hfits hfits' (by omega), ← hinserted, hmoved,
          Option.bind_some]
        exact hnext
      · exact ⟨fun behind hmem => hsame ▸ grows.kept behind hmem,
          fun behind hmem => grows.genuine behind (hsame ▸ hmem)⟩

/-- `NotifyReceivedBar` keeps the window and loses nothing. -/
theorem Ordered.notifyReceivedBar {start number : Nat}
    {agreement : RecipientBlockAckAgreement (Nat × β)} (ordered : Ordered start agreement)
    (asserts : Bool) (hbehind : start < number + 2048) (hahead : number < start + 2048) :
    ∃ next last, agreement.notifyReceivedBar asserts (number % 4096) = some next ∧ start ≤ last ∧
      last < start + 4096 ∧ Ordered last next ∧ next.all = agreement.all := by
  have hmod : number % 4096 < 4096 := Nat.mod_lt _ (by decide)
  have hstart : agreement.winStartB < 4096 := ordered.winStart ▸ Nat.mod_lt _ (by decide)
  have hsize := ordered.winSize
  have hfar := ordered.behind
  obtain ⟨scoreboard, hscoreboard, hsized⟩ := ordered.scoreboard.receiveBar asserts hmod
  have hsmall : (number % 4096 + 4096 - agreement.winStartB) % 4096 % 65536 =
      (number % 4096 + 4096 - agreement.winStartB) % 4096 := Nat.mod_eq_of_lt (by omega)
  rw [RecipientBlockAckAgreement.notifyReceivedBar, hscoreboard, Option.bind_some,
    getDistance_eq hmod hstart, Option.bind_some, hsmall]
  split
  next hmoves =>
    rw [ordered.winStart] at hmoves
    have hle : start ≤ number := by omega
    obtain ⟨moved, hmoved, hreceived, hmovedAll, hmovedSize, hmovedWithin⟩ :=
      (ordered.withScoreboard hsized).received.lessThan asserts hle (by omega)
        (fun behind hmem => by
          obtain ⟨hplace, hfrom, hto⟩ := ordered.buffered behind hmem
          refine ⟨hplace, hfrom, ?_⟩
          show behind.number < number + agreement.winSizeB
          omega)
    obtain ⟨next, last, hnext, hfrom, hto, hordered, hall⟩ :=
      hreceived.untilFirstLost asserts hmovedWithin
    refine ⟨next, last, ?_, by omega, ?_, hordered, hall.trans hmovedAll⟩
    · rw [hmoved, Option.bind_some]
      exact hnext
    · rw [hmovedSize] at hto
      have : last ≤ number + agreement.winSizeB := hto
      omega
  next => exact ⟨_, start, rfl, Nat.le_refl _, by omega, ordered.withScoreboard hsized, rfl⟩

end RecipientBlockAckAgreement

/-! ## Runs -/

namespace Reordering

/-- A number is less than half a turn ahead of or behind the start of the window. -/
def Near (reordering : Reordering β) : ReorderEvent β → Prop
  | .mpdu number _ => reordering.start < number + 2048 ∧ number < reordering.start + 2048
  | .bar number => reordering.start < number + 2048 ∧ number < reordering.start + 2048

/-- An MPDU beyond the window leaves its new start in the space of sequence numbers, and an empty
scoreboard gets none. -/
def InSpace (reordering : Reordering β) : ReorderEvent β → Prop
  | .mpdu number _ =>
      (distance (number % 4096) reordering.agreement.scoreboard.winStart < 2048 →
          0 < reordering.agreement.winSizeB) ∧
        (reordering.agreement.winSizeB ≤ distance (number % 4096) reordering.agreement.winStartB ∧
            distance (number % 4096) reordering.agreement.winStartB < 2048 →
          reordering.agreement.winSizeB ≤ number % 4096 + 1 ∧
            number % 4096 + 1 < reordering.agreement.winSizeB + 4096)
  | .bar _ => True

def Fits (reordering : Reordering β) (event : ReorderEvent β) : Prop :=
  reordering.Near event ∧ reordering.InSpace event

instance (reordering : Reordering β) : ∀ event, Decidable (reordering.Fits event)
  | .mpdu _ _ => inferInstanceAs (Decidable ((_ ∧ _) ∧ (_ → _) ∧ (_ ∧ _ → _ ∧ _)))
  | .bar _ => inferInstanceAs (Decidable ((_ ∧ _) ∧ True))

/-- What is promised of a reordering buffer. -/
structure InOrder (reordering : Reordering β) : Prop where
  winStart : reordering.agreement.winStartB = reordering.start % 4096
  increasing : Increasing reordering.agreement.forwarded
  kept : ∀ packet ∈ reordering.kept,
    ∃ mpdu ∈ reordering.agreement.forwarded ++ reordering.agreement.bufferedMpdus,
      mpdu.number = packet.1
  genuine : ∀ mpdu ∈ reordering.agreement.forwarded ++ reordering.agreement.bufferedMpdus,
    mpdu.packet ∈ reordering.kept
  buffered : ∀ mpdu ∈ reordering.agreement.bufferedMpdus,
    mpdu.seqNumber = mpdu.number % 4096 ∧ reordering.start < mpdu.number ∧
      mpdu.number < reordering.start + reordering.agreement.winSizeB
  nothingHeld : ∀ mpdu ∈ reordering.agreement.bufferedMpdus,
    mpdu.seqNumber ≠ reordering.agreement.winStartB

/-- The invariant of the runs. -/
structure Holds (reordering : Reordering β) : Prop where
  ordered : RecipientBlockAckAgreement.Ordered reordering.start reordering.agreement
  kept : ∀ packet ∈ reordering.kept, ∃ mpdu ∈ reordering.agreement.all, mpdu.number = packet.1
  genuine : ∀ mpdu ∈ reordering.agreement.all, mpdu.packet ∈ reordering.kept

theorem Holds.inOrder {reordering : Reordering β} (holds : reordering.Holds) :
    reordering.InOrder where
  winStart := holds.ordered.winStart
  increasing := (List.pairwise_append.mp holds.ordered.increasing).1
  kept := holds.kept
  genuine := holds.genuine
  buffered := fun mpdu hmem =>
    ⟨(holds.ordered.buffered mpdu hmem).1, holds.ordered.lost mpdu hmem,
      (holds.ordered.buffered mpdu hmem).2.2⟩
  nothingHeld := fun mpdu hmem => by
    obtain ⟨hseq, -, hlt⟩ := holds.ordered.buffered mpdu hmem
    have hgt := holds.ordered.lost mpdu hmem
    have hsize := holds.ordered.winSize
    rw [hseq, holds.ordered.winStart]
    omega

theorem moveTo_start {reordering : Reordering β} {next : RecipientBlockAckAgreement (Nat × β)}
    {last : Nat} (holds : reordering.Holds)
    (ordered : RecipientBlockAckAgreement.Ordered last next) (hle : reordering.start ≤ last)
    (hlt : last < reordering.start + 4096) : (reordering.moveTo next).start = last := by
  show reordering.start + (next.winStartB + 4096 - reordering.agreement.winStartB) % 4096 = last
  rw [ordered.winStart, holds.ordered.winStart]
  omega

/-- A fitting event is processed and keeps the invariant. -/
theorem step_holds (asserts : Bool) {reordering : Reordering β} {event : ReorderEvent β}
    (holds : reordering.Holds) (fits : reordering.Fits event) :
    ∃ next, step asserts reordering event = some next ∧ next.Holds := by
  have hstart : reordering.agreement.winStartB < 4096 :=
    holds.ordered.winStart ▸ Nat.mod_lt _ (by decide)
  cases event with
  | mpdu number body =>
      obtain ⟨⟨hbehind, hahead⟩, hroom, hspace⟩ := fits
      have hmod : number % 4096 < 4096 := Nat.mod_lt _ (by decide)
      rw [distance_eq hmod holds.ordered.scoreboard.1] at hroom
      rw [distance_eq hmod hstart] at hspace
      obtain ⟨next, last, hnext, hle, hlt, hordered, hbelow, habove⟩ :=
        @RecipientBlockAckAgreement.Ordered.notifyReceivedMpdu β _ _ holds.ordered asserts
          ⟨number % 4096, (number, body)⟩ rfl hbehind hahead hroom fun hfar => by
            have hfar : reordering.start + reordering.agreement.winSizeB ≤ number := hfar
            refine hspace ?_
            rw [holds.ordered.winStart, ahead_eq (by omega) (by omega)]
            omega
      have hmoved := moveTo_start holds hordered hle hlt
      refine ⟨_, by rw [step, hnext, Option.map_some], ?_⟩
      rcases Nat.lt_or_ge number reordering.start with hold | hnew
      · have hall := hbelow hold
        rw [if_neg (Nat.not_le_of_lt hold)]
        exact ⟨hmoved ▸ hordered, fun packet hmem => hall ▸ holds.kept packet hmem,
          fun mpdu hmem => holds.genuine mpdu (hall ▸ hmem)⟩
      · obtain ⟨grows, other, hother, hnumber⟩ := habove hnew
        rw [if_pos hnew]
        refine ⟨hmoved ▸ hordered, fun packet hmem => ?_, fun mpdu hmem => ?_⟩
        · rcases List.mem_append.mp hmem with hmem | hmem
          · obtain ⟨mpdu, hmpdu, heq⟩ := holds.kept packet hmem
            exact ⟨mpdu, grows.kept mpdu hmpdu, heq⟩
          · cases List.mem_singleton.mp hmem
            exact ⟨other, hother, hnumber⟩
        · rcases grows.genuine mpdu hmem with rfl | hmem
          · exact List.mem_append_right _ (List.mem_singleton_self _)
          · exact List.mem_append_left _ (holds.genuine mpdu hmem)
  | bar number =>
      obtain ⟨⟨hbehind, hahead⟩, -⟩ := fits
      obtain ⟨next, last, hnext, hle, hlt, hordered, hall⟩ :=
        holds.ordered.notifyReceivedBar asserts hbehind hahead
      have hmoved := moveTo_start holds hordered hle hlt
      refine ⟨_, by rw [step, hnext, Option.map_some], ?_⟩
      exact ⟨hmoved ▸ hordered, fun packet hmem => hall ▸ holds.kept packet hmem,
        fun mpdu hmem => holds.genuine mpdu (hall ▸ hmem)⟩

theorem create_holds {bufferSize startingSeq : Nat} (hsize : bufferSize ≤ 1024)
    (hseq : startingSeq < 4096) : (create bufferSize startingSeq : Reordering β).Holds where
  ordered := {
    winStart := by
      show startingSeq = (4096 + startingSeq) % 4096
      omega
    winSize := hsize
    scoreboard := ⟨hseq, List.length_replicate⟩
    behind := by
      show 2048 ≤ 4096 + startingSeq
      omega
    increasing := List.Pairwise.nil
    forwarded := fun _ hmem => absurd hmem List.not_mem_nil
    buffered := fun _ hmem => absurd hmem List.not_mem_nil
    lost := fun _ hmem => absurd hmem List.not_mem_nil }
  kept := fun _ hmem => absurd hmem List.not_mem_nil
  genuine := fun _ hmem => absurd hmem List.not_mem_nil

/-- Every run whose MPDUs leave the start of the window in the space of sequence numbers exists, with
assertions or without them, and what it forwards is in order. -/
theorem forwards_inOrder (asserts : Bool) {bufferSize startingSeq : Nat} (hsize : bufferSize ≤ 1024)
    (hseq : startingSeq < 4096) {events : List (ReorderEvent β)}
    (hfits : Foundation.Runs.Fitting (step asserts) Fits (create bufferSize startingSeq) events) :
    ∃ reordering, (create bufferSize startingSeq).run asserts events = some reordering ∧
      reordering.InOrder := by
  obtain ⟨last, hrun, holds⟩ := Foundation.Runs.exists_run_of_fitting (step asserts) Holds
    (fun _ _ holds fits => step_holds asserts holds fits) (create_holds hsize hseq) hfits
  exact ⟨last, hrun, holds.inOrder⟩

/-- A window of four MPDUs across the wrap, moved by an MPDU beyond its end and by a request. -/
theorem forwards_inOrder_wrapped :
    ∃ reordering,
      (create 4 4094).run true
        [.mpdu 8191 "b", .mpdu 8192 "c", .mpdu 8190 "a", .mpdu 8192 "c", .mpdu 8197 "h", .mpdu 8194 "e",
          .bar 8196, .mpdu 8196 "g"] = some reordering ∧ reordering.InOrder :=
  forwards_inOrder true (by decide) (by decide) (by decide +kernel)

/-- An MPDU just behind the wrap and beyond the window moves the start of the window below zero: the
assertions fail, and without them the start is no sequence number. -/
theorem forwards_outOfSpace :
    ((create 64 4000 : Reordering Unit).Near (.mpdu 8202 ())) ∧
      (create 64 4000 : Reordering Unit).run true [.mpdu 8202 ()] = none ∧
      ∃ reordering, (create 64 4000).run false [.mpdu 8202 ()] = some reordering ∧
        4096 ≤ reordering.agreement.winStartB := by
  have hsome : (((create 64 4000 : Reordering Unit).run false [.mpdu 8202 ()]).any fun reordering =>
      decide (4096 ≤ reordering.agreement.winStartB)) = true := by decide +kernel
  obtain ⟨reordering, hrun, hstart⟩ := (Option.any_eq_true _ _).mp hsome
  exact ⟨⟨by decide, by decide⟩, by decide +kernel, reordering, hrun, of_decide_eq_true hstart⟩

end Reordering

end DeepcV2x.Wifi
