import DeepcV2x.Foundation.Rings
import DeepcV2x.Wifi.BlockAckHeader

/-!
# The scoreboard

What a scoreboard is for: its start moves by the rule of the standard, and a
number in its window is marked when an MPDU with it was received since it came
into the window.  The ring of bits is compared with this after every event.
-/

namespace DeepcV2x.Wifi

open Foundation.Runs Foundation.Rings

/-- What the recipient of an agreement is notified of. -/
inductive BlockAckEvent (α : Type*)
  | mpdu (mpdu : WifiMpdu α)
  | bar (startingSequenceNumber : Nat)

namespace BlockAckEvent

variable {α : Type*}

/-- The sequence number of an event. -/
def number : BlockAckEvent α → Nat
  | .mpdu received => received.seqNumber
  | .bar startingSequenceNumber => startingSequenceNumber

/-- An MPDU with a sequence number. -/
def Carries (event : BlockAckEvent α) (number : Nat) : Prop :=
  ∃ received, event = .mpdu received ∧ received.seqNumber = number

@[simp]
theorem carries_mpdu {received : WifiMpdu α} {number : Nat} :
    (BlockAckEvent.mpdu received).Carries number ↔ received.seqNumber = number := by
  refine ⟨fun ⟨other, heq, hnumber⟩ => ?_, fun hnumber => ⟨received, rfl, hnumber⟩⟩
  obtain rfl := BlockAckEvent.mpdu.inj heq
  exact hnumber

@[simp]
theorem carries_bar {startingSequenceNumber number : Nat} :
    ¬ (BlockAckEvent.bar startingSequenceNumber : BlockAckEvent α).Carries number :=
  fun ⟨_, heq, _⟩ => nomatch heq

end BlockAckEvent

/-! ## What the standard says -/

/-- The number at a distance from a start that has moved. -/
theorem ahead_moved {start count distance : Nat} (hstart : start < 4096)
    (hnear : count + distance < 4096) :
    ahead start (((start + count) % 4096 + distance) % 4096) = count + distance := by
  rw [ahead]
  omega

theorem number_eq_iff {start distance number : Nat} (hstart : start < 4096)
    (hnear : distance < 4096) (hnumber : number < 4096) :
    number = (start + distance) % 4096 ↔ ahead start number = distance := by
  rw [ahead]
  omega

/-- The rule for the start: an MPDU behind the end of the window becomes its end, a request moves
the start forward. -/
def startRule {α : Type*} (winSize start : Nat) : BlockAckEvent α → Nat
  | .mpdu received =>
      if winSize ≤ ahead start received.seqNumber ∧ ahead start received.seqNumber < 2048 then
        (received.seqNumber + 1 + 4096 - winSize) % 4096
      else start
  | .bar startingSequenceNumber =>
      if ahead start startingSequenceNumber < 2048 then startingSequenceNumber else start

/-- The start of the window after some events. -/
def startAfter {α : Type*} (winSize start : Nat) (events : List (BlockAckEvent α)) : Nat :=
  events.foldl (startRule winSize) start

def InWindow (winSize start number : Nat) : Prop := ahead start number < winSize

/-- An MPDU with the number was received, and the number was in the window ever since. -/
def ReceivedSince {α : Type*} (winSize start : Nat) (events : List (BlockAckEvent α))
    (number : Nat) : Prop :=
  ∃ before event after, events = before ++ event :: after ∧ event.Carries number ∧
    ∀ since, since <+: after →
      InWindow winSize (startAfter winSize start (before ++ event :: since)) number

section Standard

variable {α : Type*} {winSize start : Nat} {events : List (BlockAckEvent α)} {number : Nat}

theorem startAfter_snoc (event : BlockAckEvent α) :
    startAfter winSize start (events ++ [event]) =
      startRule winSize (startAfter winSize start events) event := by
  rw [startAfter, List.foldl_append]
  rfl

theorem not_receivedSince_nil : ¬ ReceivedSince winSize start ([] : List (BlockAckEvent α)) number :=
  fun ⟨_, _, _, heq, _⟩ => List.append_ne_nil_of_right_ne_nil _ (List.cons_ne_nil _ _) heq.symm

/-- What was received is in the window. -/
theorem ReceivedSince.inWindow (received : ReceivedSince winSize start events number) :
    InWindow winSize (startAfter winSize start events) number := by
  obtain ⟨before, event, after, rfl, -, hsince⟩ := received
  exact hsince after (List.prefix_refl after)

/-- One event more. -/
theorem receivedSince_snoc (event : BlockAckEvent α) :
    ReceivedSince winSize start (events ++ [event]) number ↔
      InWindow winSize (startAfter winSize start (events ++ [event])) number ∧
        (event.Carries number ∨ ReceivedSince winSize start events number) := by
  constructor
  · intro received
    refine ⟨received.inWindow, ?_⟩
    obtain ⟨before, first, after, heq, hcarries, hsince⟩ := received
    rcases List.eq_nil_or_concat after with rfl | ⟨after, last, rfl⟩
    · obtain ⟨-, heq⟩ := List.append_inj' heq rfl
      obtain rfl := List.singleton_inj.mp heq
      exact Or.inl hcarries
    · rw [List.concat_eq_append, ← List.cons_append, ← List.append_assoc] at heq
      obtain ⟨rfl, -⟩ := List.append_inj' heq rfl
      refine Or.inr ⟨before, first, after, rfl, hcarries, fun since hprefix => ?_⟩
      exact hsince since ( hprefix.trans (List.concat_eq_append ▸ List.prefix_append after [last]))
  · rintro ⟨hin, hcarries | ⟨before, first, after, rfl, hcarries, hsince⟩⟩
    · refine ⟨events, event, [], rfl, hcarries, fun since hprefix => ?_⟩
      obtain rfl := List.prefix_nil.mp hprefix
      exact hin
    · refine ⟨before, first, after ++ [event], by rw [List.append_assoc, List.cons_append], hcarries,
        fun since hprefix => ?_⟩
      rcases List.prefix_concat_iff.mp hprefix with rfl | hprefix
      · rwa [List.append_assoc, List.cons_append] at hin
      · exact hsince since hprefix

end Standard

/-! ## The ring of bits -/

namespace BlockAckWindow

variable {window : BlockAckWindow} {winSize : Nat}

/-- The bits from the start of the window on. -/
def bits (window : BlockAckWindow) : List Bool := window.window.rotate window.head

/-- A window that starts at a sequence number, with its first bit in the ring. -/
structure Ring (window : BlockAckWindow) (winSize : Nat) : Prop where
  start : window.winStart < 4096
  length : window.window.length = winSize
  head : 0 < winSize → window.head < winSize

theorem Ring.length_bits (ring : window.Ring winSize) : window.bits.length = winSize := by
  rw [bits, List.length_rotate, ring.length]

theorem ring_init {winStart : Nat} (hstart : winStart < 4096) (winSize : Nat) :
    (init winStart winSize).Ring winSize :=
  ⟨hstart, List.length_replicate, id⟩

theorem bits_init (winStart winSize : Nat) :
    (init winStart winSize).bits = List.replicate winSize false :=
  List.rotate_replicate ..

/-- The loop of `Advance` shifts the bits. -/
theorem Ring.clear (count : Nat) : ∀ {window : BlockAckWindow}, window.Ring winSize →
    count ≤ winSize → (clear count window).Ring winSize ∧
      (BlockAckWindow.clear count window).bits =
        window.bits.drop count ++ List.replicate count false := by
  induction count with
  | zero =>
      refine fun ring _ => ⟨ring, ?_⟩
      rw [BlockAckWindow.clear, List.drop_zero, List.replicate_zero, List.append_nil]
  | succ count ih =>
      intro window ring hle
      have hhead := ring.head (Nat.zero_lt_of_lt hle)
      have hnext : Ring { window with
          window := window.window.set window.head false
          head := (window.head + 1) % window.getWinSize } winSize :=
        ⟨ring.start, List.length_set.trans ring.length, fun hpos => by
          rw [getWinSize, ring.length]
          exact Nat.mod_lt _ hpos⟩
      obtain ⟨hcleared, hbits⟩ := ih hnext (Nat.le_of_succ_le hle)
      refine ⟨hcleared, ?_⟩
      have hshift : BlockAckWindow.bits { window with
          window := window.window.set window.head false
          head := (window.head + 1) % window.getWinSize } = window.bits.tail ++ [false] :=
        rotate_set_next (ring.length.symm ▸ hhead) false
      have hlong : count ≤ window.bits.tail.length := by
        rw [List.length_tail, ring.length_bits]
        omega
      rw [BlockAckWindow.clear, hbits, hshift, List.drop_append_of_le_length hlong, List.drop_tail,
        List.append_assoc, List.singleton_append, ← List.replicate_succ]

/-- A bit of the window is set. -/
def Marked (window : BlockAckWindow) (distance : Nat) : Prop :=
  window.bits[distance]? = some true

theorem not_marked_init (winStart winSize distance : Nat) :
    ¬ (init winStart winSize).Marked distance := by
  rw [Marked, bits_init, List.getElem?_replicate]
  split
  next => exact fun heq => Bool.false_ne_true (Option.some.inj heq)
  next => exact nofun

theorem Ring.lt_of_marked (ring : window.Ring winSize) {distance : Nat}
    (hmarked : window.Marked distance) : distance < winSize := by
  obtain ⟨hlt, -⟩ := List.getElem?_eq_some_iff.mp hmarked
  rwa [ring.length_bits] at hlt

/-- `Advance` drops bits at the front, and the bits it takes in at the end are not set. -/
theorem Ring.advance (ring : window.Ring winSize) (count : Nat) :
    (window.advance count).Ring winSize ∧
      (window.advance count).winStart = (window.winStart + count) % 4096 ∧
      ∀ distance, (window.advance count).Marked distance ↔ window.Marked (count + distance) := by
  have hstart : (window.winStart + count) % 4096 < 4096 := Nat.mod_lt _ (by decide)
  rw [BlockAckWindow.advance, getWinSize, ring.length]
  by_cases hle : winSize ≤ count
  · rw [if_pos hle, reset, ring.length]
    refine ⟨ring_init hstart winSize, rfl, fun distance => ?_⟩
    refine iff_of_false (not_marked_init _ _ _) fun hmarked => ?_
    exact absurd (ring.lt_of_marked hmarked) (by omega)
  · rw [if_neg hle]
    obtain ⟨hcleared, hbits⟩ := ring.clear count (Nat.le_of_not_le hle)
    refine ⟨⟨hstart, hcleared.length, hcleared.head⟩, rfl, fun distance => ?_⟩
    have hsame : BlockAckWindow.bits { BlockAckWindow.clear count window with
        winStart := (window.winStart + count) % 4096 } =
        window.bits.drop count ++ List.replicate count false := hbits
    rw [Marked, hsame]
    have hdrop : (window.bits.drop count).length = winSize - count := by
      rw [List.length_drop, ring.length_bits]
    rcases Nat.lt_or_ge distance (winSize - count) with hlt | hge
    · rw [List.getElem?_append_left (hdrop ▸ hlt), List.getElem?_drop, Marked]
    · rw [List.getElem?_append_right (hdrop ▸ hge), List.getElem?_replicate]
      refine iff_of_false (fun heq => ?_) fun hmarked => ?_
      · split at heq
        next => exact Bool.false_ne_true (Option.some.inj heq)
        next => cases heq
      · have := ring.lt_of_marked hmarked
        omega

/-- Setting a bit of the window. -/
theorem Ring.setAt (ring : window.Ring winSize) (asserts : Bool) {distance : Nat}
    (hdistance : distance < winSize) :
    ∃ next, window.setAt asserts distance = some next ∧ next.Ring winSize ∧
      next.winStart = window.winStart ∧
      ∀ other, next.Marked other ↔ other = distance ∨ window.Marked other := by
  refine ⟨_, if_neg ?_, ⟨ring.start, List.length_set.trans ring.length, ring.head⟩, rfl,
    fun other => ?_⟩
  · rw [getWinSize, ring.length]
    rintro (hzero | ⟨-, hfail⟩)
    · omega
    · exact hfail hdistance
  · have hbits : BlockAckWindow.bits { window with
        window := window.window.set ((window.head + distance) % window.getWinSize) true } =
        window.bits.set distance true := rotate_set (ring.length.symm ▸ hdistance) true
    rw [Marked, hbits, List.getElem?_set, ring.length_bits, if_pos hdistance, Marked]
    by_cases heq : distance = other
    · rw [if_pos heq]
      exact iff_of_true rfl (Or.inl heq.symm)
    · rw [if_neg heq, or_iff_right (Ne.symm heq)]

/-- What an event does: the start moves by the rule, and the bits move along. -/
def Follows (window next : BlockAckWindow) {α : Type*} (winSize : Nat)
    (event : BlockAckEvent α) : Prop :=
  next.Ring winSize ∧ next.winStart = startRule winSize window.winStart event ∧
    ∀ distance < winSize, next.Marked distance ↔
      event.Carries ((next.winStart + distance) % 4096) ∨
        window.Marked (ahead window.winStart ((next.winStart + distance) % 4096))

/-- An event that moves the start and sets the bit of its number, if it has one. -/
theorem follows_of_moved {α : Type*} {next : BlockAckWindow} {event : BlockAckEvent α} {count : Nat}
    (hsize : winSize ≤ 1024) (hstart : window.winStart < 4096) (hring : next.Ring winSize)
    (hcount : count < 2048) (hnext : next.winStart = (window.winStart + count) % 4096)
    (hrule : next.winStart = startRule winSize window.winStart event)
    (hmarked : ∀ distance < winSize, next.Marked distance ↔
      event.Carries ((next.winStart + distance) % 4096) ∨ window.Marked (count + distance)) :
    window.Follows next winSize event := by
  refine ⟨hring, hrule, fun distance hlt => ?_⟩
  rw [hmarked distance hlt, hnext, ahead_moved hstart (by omega)]

theorem Ring.receiveMpdu {α : Type*} (ring : window.Ring winSize) (asserts : Bool)
    (hsize : winSize ≤ 1024) {received : WifiMpdu α} (hseq : received.seqNumber < 4096) :
    (0 < winSize → (window.receiveMpdu asserts received.seqNumber).isSome) ∧
      ∀ next, window.receiveMpdu asserts received.seqNumber = some next →
        window.Follows next winSize (.mpdu received) := by
  have hstart := ring.start
  have hturn := ahead_lt window.winStart received.seqNumber
  have hdistance : getDistance asserts received.seqNumber window.winStart =
      some (ahead window.winStart received.seqNumber) := getDistance_eq hseq hstart
  have hstays : (window.winStart + 0) % 4096 = window.winStart := Nat.mod_eq_of_lt hstart
  rw [BlockAckWindow.receiveMpdu, hdistance, Option.bind_some,
    Nat.mod_eq_of_lt (Nat.lt_trans hturn (by decide)), getWinSize, ring.length]
  by_cases hinside : ahead window.winStart received.seqNumber < winSize
  · -- the MPDU is in the window
    obtain ⟨set, hset, hring, hsame, hmarked⟩ := ring.setAt asserts hinside
    rw [if_pos hinside, hset]
    refine ⟨fun _ => rfl, fun next hnext => ?_⟩
    obtain rfl := Option.some.inj hnext
    refine follows_of_moved hsize hstart hring (by decide : 0 < 2048) (hsame.trans hstays.symm)
      (hsame.trans (if_neg fun hout => Nat.not_le_of_lt hinside hout.1).symm) fun distance hlt => ?_
    rw [hmarked, hsame, BlockAckEvent.carries_mpdu, number_eq_iff hstart (by omega) hseq,
      Nat.zero_add, eq_comm]
  rw [if_neg hinside]
  by_cases hahead : ahead window.winStart received.seqNumber < 2048
  · -- the window ends at the MPDU
    rw [if_pos hahead]
    generalize hcount : ahead window.winStart received.seqNumber - winSize + 1 = count
    obtain ⟨hadvanced, hmoved, hshifted⟩ := ring.advance count
    rw [getWinSize, hadvanced.length]
    rcases Nat.eq_zero_or_pos winSize with rfl | hpos
    · refine ⟨fun hpos => absurd hpos (Nat.lt_irrefl 0), fun next hnext => ?_⟩
      rw [BlockAckWindow.setAt, if_pos (Or.inl (by rw [getWinSize, hadvanced.length]))] at hnext
      cases hnext
    obtain ⟨set, hset, hring, hsame, hmarked⟩ :=
      hadvanced.setAt asserts (Nat.sub_lt hpos Nat.one_pos)
    rw [hset]
    refine ⟨fun _ => rfl, fun next hnext => ?_⟩
    obtain rfl := Option.some.inj hnext
    refine follows_of_moved hsize hstart hring (by omega : count < 2048) (hsame.trans hmoved) ?_
      fun distance hlt => ?_
    · rw [hsame, hmoved, startRule, if_pos ⟨Nat.le_of_not_lt hinside, hahead⟩]
      rw [ahead] at *
      omega
    · rw [hmarked, hshifted, hsame, hmoved, BlockAckEvent.carries_mpdu, Nat.mod_add_mod,
        Nat.add_assoc, number_eq_iff hstart (by omega) hseq]
      refine or_congr_left ?_
      omega
  · -- the MPDU is behind the window
    rw [if_neg hahead]
    refine ⟨fun _ => rfl, fun next hnext => ?_⟩
    obtain rfl := Option.some.inj hnext
    refine follows_of_moved hsize hstart ring (by decide : 0 < 2048) hstays.symm
      (if_neg fun hin => hahead hin.2).symm fun distance hlt => ?_
    rw [Nat.zero_add, BlockAckEvent.carries_mpdu, number_eq_iff hstart (by omega) hseq,
      or_iff_right (by omega)]

theorem Ring.receiveBar {α : Type*} (ring : window.Ring winSize) (asserts : Bool)
    (hsize : winSize ≤ 1024) {startingSequenceNumber : Nat} (hseq : startingSequenceNumber < 4096) :
    ∃ next, window.receiveBar asserts startingSequenceNumber = some next ∧
      window.Follows next winSize (.bar startingSequenceNumber : BlockAckEvent α) := by
  have hstart := ring.start
  have hturn := ahead_lt window.winStart startingSequenceNumber
  have hdistance : getDistance asserts startingSequenceNumber window.winStart =
      some (ahead window.winStart startingSequenceNumber) := getDistance_eq hseq hstart
  have hmoves : (window.winStart + ahead window.winStart startingSequenceNumber) % 4096 =
      startingSequenceNumber := by
    rw [ahead]
    omega
  rw [BlockAckWindow.receiveBar, hdistance, Option.bind_some,
    Nat.mod_eq_of_lt (Nat.lt_trans hturn (by decide)), getWinSize, ring.length]
  generalize hcount : ahead window.winStart startingSequenceNumber = count at *
  by_cases hinside : 0 < count ∧ count < winSize
  · -- the window moves to the request
    obtain ⟨hadvanced, hmoved, hshifted⟩ := ring.advance count
    rw [if_pos hinside, if_neg fun hfail => hfail.2 (hmoved.trans hmoves)]
    refine ⟨_, rfl, follows_of_moved hsize hstart hadvanced (by omega : count < 2048) hmoved ?_
      fun distance hlt => ?_⟩
    · rw [hmoved, hmoves, startRule, hcount, if_pos (by omega)]
    · rw [hshifted, or_iff_right BlockAckEvent.carries_bar]
  rw [if_neg hinside]
  by_cases hahead : 0 < count ∧ count < 2048
  · -- the window starts anew at the request
    rw [if_pos hahead, reset, ring.length]
    refine ⟨_, rfl, follows_of_moved hsize hstart (ring_init hseq winSize) hahead.2 hmoves.symm ?_
      fun distance hlt => ?_⟩
    · rw [startRule, hcount, if_pos hahead.2]
      rfl
    · refine iff_of_false (not_marked_init _ _ _) ?_
      rintro (hcarries | hmarked)
      · exact BlockAckEvent.carries_bar hcarries
      · have := ring.lt_of_marked hmarked
        omega
  · -- the request is at the start of the window, or behind the window
    rw [if_neg hahead]
    have hstays : (window.winStart + 0) % 4096 = window.winStart := Nat.mod_eq_of_lt hstart
    refine ⟨window, rfl, follows_of_moved hsize hstart ring (by decide : 0 < 2048) hstays.symm ?_
      fun distance hlt => ?_⟩
    · rw [startRule, hcount]
      split
      next =>
        obtain rfl : count = 0 := by omega
        rw [← hmoves, hstays]
      next => rfl
    · rw [Nat.zero_add, or_iff_right BlockAckEvent.carries_bar]

/-! ## Filling a bitmap -/

theorem Ring.getAt (ring : window.Ring winSize) (asserts : Bool) {distance : Nat}
    (hdistance : distance < winSize) :
    ∃ bit, window.getAt asserts distance = some bit ∧ (bit = true ↔ window.Marked distance) := by
  have hlength : distance < window.window.length := ring.length.symm ▸ hdistance
  have hbit : window.bits[distance]? =
      window.window[(window.head + distance) % window.window.length]? := rotate_getElem? hlength
  have hplace : (window.head + distance) % window.window.length < window.window.length :=
    Nat.mod_lt _ (Nat.zero_lt_of_lt hlength)
  rw [BlockAckWindow.getAt, Marked, hbit, getWinSize, if_neg, List.getElem?_eq_getElem hplace]
  · exact ⟨_, rfl, Option.some_inj.symm⟩
  · rintro (hzero | ⟨-, hfail⟩)
    · omega
    · exact hfail hlength

/-- The loop marks what is set in the scoreboard. -/
theorem Ring.fillLoop (ring : window.Ring winSize) (hsize : winSize ≤ 1024) (asserts : Bool)
    (index : Nat) (rest : List Nat) : ∀ {header : CtrlBAckResponseHeader} {info : BaInfoInstance},
      (∀ i ∈ rest, i < winSize) → header.Ready asserts index info →
      info.startingSeq = window.winStart → winSize ≤ info.bitmap.length * 8 →
      ∃ filled info', window.fillLoop asserts index rest header = some filled ∧
        filled.Ready asserts index info' ∧ info'.startingSeq = window.winStart ∧
        ∀ distance, info'.Marked distance ↔
          (distance ∈ rest ∧ window.Marked distance) ∨ info.Marked distance := by
  induction rest with
  | nil =>
      refine fun _ ready hstart _ => ⟨_, _, rfl, ready, hstart, fun distance => ?_⟩
      rw [or_iff_right fun hnil => List.not_mem_nil hnil.1]
  | cons i rest ih =>
      intro header info hall ready hstart hroom
      obtain ⟨hi, hrest⟩ := List.forall_mem_cons.mp hall
      obtain ⟨bit, hbit, hmarked⟩ := ring.getAt asserts hi
      have hwin : info.startingSeq < 4096 := hstart ▸ ring.start
      have hplace : ahead info.startingSeq ((window.winStart + i) % 4096) = i :=
        ((number_eq_iff hwin (by omega) (Nat.mod_lt _ (by decide))).mp (by rw [hstart]))
      rw [BlockAckWindow.fillLoop, hbit]
      cases bit with
      | false =>
          obtain ⟨filled, info', hfilled, hready, hsame, hiff⟩ := ih hrest ready hstart hroom
          refine ⟨filled, info', hfilled, hready, hsame, fun distance => ?_⟩
          rw [hiff, List.mem_cons]
          refine or_congr_left ⟨fun hin => ⟨Or.inr hin.1, hin.2⟩, fun hin => ?_⟩
          rcases hin.1 with rfl | hmem
          · exact absurd (hmarked.mpr hin.2) Bool.false_ne_true
          · exact ⟨hmem, hin.2⟩
      | true =>
          obtain ⟨next, info₁, hnext, hready₁, hstart₁, hlength₁, hiff₁⟩ :=
            ready.setReceivedPacket hwin (Nat.mod_lt (window.winStart + i) (by decide))
              (by rw [hplace]; omega)
          obtain ⟨filled, info', hfilled, hready, hsame, hiff⟩ :=
            ih hrest hready₁ (hstart₁.trans hstart) (hlength₁.symm ▸ hroom)
          refine ⟨filled, info', ?_, hready, hsame, fun distance => ?_⟩
          · simp only [Option.bind_eq_bind, Option.bind_some, if_true, hnext, hfilled]
          · rw [hiff, hiff₁, hplace, List.mem_cons, ← or_assoc]
            refine or_congr_left ?_
            constructor
            · rintro (hin | rfl)
              · exact ⟨Or.inr hin.1, hin.2⟩
              · exact ⟨Or.inl rfl, hmarked.mp rfl⟩
            · rintro ⟨rfl | hmem, hset⟩
              · exact Or.inr rfl
              · exact Or.inl ⟨hmem, hset⟩

/-- The header acknowledges what is set in the scoreboard, and nothing else. -/
theorem Ring.fillBlockAckBitmap (ring : window.Ring winSize) (hsize : winSize ≤ 1024)
    {asserts : Bool} {header : CtrlBAckResponseHeader} {index : Nat} {info : BaInfoInstance}
    (ready : header.Ready asserts index info) (hroom : winSize ≤ info.bitmap.length * 8) :
    ∃ filled info', window.fillBlockAckBitmap asserts header index = some filled ∧
      filled.instanceAt asserts index = some info' ∧ info'.startingSeq = window.winStart ∧
      ∀ seq < 4096, ∃ answer, filled.isPacketReceived asserts seq index = some answer ∧
        (answer = true ↔ window.Marked (ahead window.winStart seq)) := by
  have hstarted := ready.putInstance { info with startingSeq := window.winStart } rfl rfl
  have hempty := hstarted.putInstance
    ⟨info.aidTidInfo, window.winStart, List.replicate info.bitmap.length 0⟩ rfl
    List.length_replicate
  have hnone : ∀ distance, ¬ BaInfoInstance.Marked
      ⟨info.aidTidInfo, window.winStart, List.replicate info.bitmap.length 0⟩ distance := by
    rintro distance ⟨byte, hbyte, hbit⟩
    obtain rfl := List.eq_of_mem_replicate (List.mem_of_getElem? hbyte)
    rw [Nat.zero_testBit] at hbit
    exact Bool.false_ne_true hbit
  obtain ⟨filled, info', hfilled, hready, hsame, hiff⟩ :=
    ring.fillLoop hsize asserts index (List.range winSize) (fun i hi => List.mem_range.mp hi) hempty
      rfl (by rw [List.length_replicate]; exact hroom)
  have hreset : (header.putInstance index { info with startingSeq := window.winStart }).resetBitmap
      asserts index = some ((header.putInstance index
        { info with startingSeq := window.winStart }).putInstance index
          ⟨info.aidTidInfo, window.winStart, List.replicate info.bitmap.length 0⟩) := by
    rw [CtrlBAckResponseHeader.resetBitmap, hstarted.instanceAt]
    simp only [Option.bind_eq_bind, Option.bind_some]
    rw [hstarted.bitmapLen]
    rfl
  refine ⟨filled, info', ?_, hready.instanceAt, hsame, fun seq hseq => ?_⟩
  · have hloop : ((header.setStartingSequence asserts window.winStart index).bind fun started =>
        (started.resetBitmap asserts index).bind fun reset =>
          window.fillLoop asserts index (List.range window.getWinSize) reset) = some filled := by
      rw [CtrlBAckResponseHeader.setStartingSequence, ready.instanceAt, Option.map_some,
        Option.bind_some, hreset, Option.bind_some, getWinSize, ring.length, hfilled]
    have hbasic := ready.notBasic
    have hmultiTid := ready.notMultiTid
    rw [BlockAckWindow.fillBlockAckBitmap]
    cases hvariant : header.baType.variant with
    | basic => exact absurd hvariant hbasic
    | multiTid => exact absurd hvariant hmultiTid
    | compressed => exact hloop
    | extendedCompressed => exact hloop
    | multiSta => exact hloop
  · obtain ⟨answer, hanswer, hreads⟩ := hready.isPacketReceived (hsame ▸ ring.start) hseq
    refine ⟨answer, hanswer, ?_⟩
    rw [hreads, hiff, or_iff_left (hnone _), hsame, List.mem_range]
    exact and_iff_right_of_imp ring.lt_of_marked

end BlockAckWindow

/-! ## Runs -/

section Runs

variable {α : Type*}

/-- What an event does to the scoreboard. -/
def boardStep (asserts : Bool) (window : BlockAckWindow) :
    BlockAckEvent α → Option BlockAckWindow
  | .mpdu received => window.receiveMpdu asserts received.seqNumber
  | .bar startingSequenceNumber => window.receiveBar asserts startingSequenceNumber

/-- What an event does to the agreement. -/
def notifyStep (asserts : Bool) (agreement : RecipientBlockAckAgreement α) :
    BlockAckEvent α → Option (RecipientBlockAckAgreement α)
  | .mpdu received => agreement.notifyReceivedMpdu asserts received
  | .bar startingSequenceNumber => agreement.notifyReceivedBar asserts startingSequenceNumber

/-- The scoreboard after some events is what it is for, and so are the headers filled from it. -/
structure Exact (asserts : Bool) (winSize startingSeq : Nat) (events : List (BlockAckEvent α))
    (window : BlockAckWindow) : Prop where
  winStart : window.winStart = startAfter winSize startingSeq events
  bit : ∀ i < winSize, ∃ bit, window.getAt asserts i = some bit ∧
    (bit = true ↔ ReceivedSince winSize startingSeq events ((window.winStart + i) % 4096))
  acknowledges : ∀ header index info, CtrlBAckResponseHeader.Ready header asserts index info →
    winSize ≤ info.bitmap.length * 8 →
    ∃ filled info', window.fillBlockAckBitmap asserts header index = some filled ∧
      filled.instanceAt asserts index = some info' ∧ info'.startingSeq = window.winStart ∧
      ∀ seq < 4096, ∃ answer, filled.isPacketReceived asserts seq index = some answer ∧
        (answer = true ↔ ReceivedSince winSize startingSeq events seq)

/-- A ring whose bits are those of the numbers received since they came into the window. -/
def Tracks (winSize startingSeq : Nat) (events : List (BlockAckEvent α)) (window : BlockAckWindow) :
    Prop :=
  window.Ring winSize ∧ window.winStart = startAfter winSize startingSeq events ∧
    ∀ distance < winSize, window.Marked distance ↔
      ReceivedSince winSize startingSeq events ((window.winStart + distance) % 4096)

variable {asserts : Bool} {winSize startingSeq : Nat} {events : List (BlockAckEvent α)}
  {window : BlockAckWindow}

/-- The bit of any number: one that is not in the window has none, and counts as not received. -/
theorem Tracks.marked_iff (tracks : Tracks winSize startingSeq events window) {number : Nat}
    (hnumber : number < 4096) :
    window.Marked (ahead window.winStart number) ↔
      ReceivedSince winSize startingSeq events number := by
  obtain ⟨ring, hstart, hmarked⟩ := tracks
  have hsame := (number_eq_iff ring.start (ahead_lt window.winStart number) hnumber).mpr rfl
  rcases Nat.lt_or_ge (ahead window.winStart number) winSize with hin | hout
  · rw [hmarked _ hin, ← hsame]
  · refine iff_of_false (fun hset => Nat.not_le_of_lt (ring.lt_of_marked hset) hout) fun received => ?_
    have hin : ahead (startAfter winSize startingSeq events) number < winSize := received.inWindow
    rw [← hstart] at hin
    exact Nat.not_le_of_lt hin hout

theorem Tracks.exact (tracks : Tracks winSize startingSeq events window) (hsize : winSize ≤ 1024) :
    Exact asserts winSize startingSeq events window where
  winStart := tracks.2.1
  bit := fun i hi => by
    obtain ⟨bit, hbit, hmarked⟩ := tracks.1.getAt asserts hi
    exact ⟨bit, hbit, hmarked.trans (tracks.2.2 i hi)⟩
  acknowledges := fun header index info ready hroom => by
    obtain ⟨filled, info', hfilled, hinstance, hsame, hall⟩ :=
      tracks.1.fillBlockAckBitmap hsize ready hroom
    refine ⟨filled, info', hfilled, hinstance, hsame, fun seq hseq => ?_⟩
    obtain ⟨answer, hanswer, hiff⟩ := hall seq hseq
    exact ⟨answer, hanswer, hiff.trans (tracks.marked_iff hseq)⟩

theorem tracks_init (hstart : startingSeq < 4096) :
    Tracks winSize startingSeq ([] : List (BlockAckEvent α)) (.init startingSeq winSize) :=
  ⟨BlockAckWindow.ring_init hstart winSize, rfl, fun _ _ =>
    iff_of_false (BlockAckWindow.not_marked_init _ _ _) not_receivedSince_nil⟩

/-- The step lemma: what the ring does is what the history says. -/
theorem Tracks.snoc (tracks : Tracks winSize startingSeq events window) (hsize : winSize ≤ 1024)
    {next : BlockAckWindow} {event : BlockAckEvent α} (follows : window.Follows next winSize event) :
    Tracks winSize startingSeq (events ++ [event]) next := by
  obtain ⟨hring, hrule, hmarked⟩ := follows
  have hstart : next.winStart = startAfter winSize startingSeq (events ++ [event]) := by
    rw [startAfter_snoc, ← tracks.2.1, hrule]
  refine ⟨hring, hstart, fun distance hlt => ?_⟩
  have hnumber : (next.winStart + distance) % 4096 < 4096 := Nat.mod_lt _ (by decide)
  have hin : InWindow winSize (startAfter winSize startingSeq (events ++ [event]))
      ((next.winStart + distance) % 4096) := by
    have hplace := (number_eq_iff hring.start (by omega) hnumber).mp rfl
    rw [InWindow, ← hstart, hplace]
    exact hlt
  rw [hmarked distance hlt, tracks.marked_iff hnumber, receivedSince_snoc, and_iff_right hin]

theorem Tracks.step (tracks : Tracks winSize startingSeq events window) (hsize : winSize ≤ 1024)
    (asserts : Bool) {event : BlockAckEvent α} (hnumber : event.number < 4096) :
    (0 < winSize → (boardStep asserts window event).isSome) ∧
      ∀ next, boardStep asserts window event = some next →
        Tracks winSize startingSeq (events ++ [event]) next := by
  cases event with
  | mpdu received =>
      obtain ⟨hsome, hfollows⟩ := tracks.1.receiveMpdu asserts hsize hnumber
      exact ⟨hsome, fun next hnext => tracks.snoc hsize (hfollows next hnext)⟩
  | bar startingSequenceNumber =>
      obtain ⟨next, hnext, hfollows⟩ := tracks.1.receiveBar (α := α) asserts hsize hnumber
      refine ⟨fun _ => ?_, fun other hother => ?_⟩
      · exact Option.isSome_of_eq_some hnext
      · obtain rfl := Option.some.inj (hnext.symm.trans hother)
        exact tracks.snoc hsize hfollows

theorem tracks_of_run (hsize : winSize ≤ 1024) (hstart : startingSeq < 4096)
    (hevents : ∀ event ∈ events, event.number < 4096)
    (hrun : runFrom (boardStep asserts) (.init startingSeq winSize) events = some window) :
    Tracks winSize startingSeq events window := by
  refine history_invariant (boardStep asserts)
    (fun past state => (∀ event ∈ past, event.number < 4096) → Tracks winSize startingSeq past state)
    (fun past state event next tracks hnext hall => ?_) [] (fun _ => tracks_init hstart) hrun hevents
  obtain ⟨hpast, hevent⟩ := List.forall_mem_append.mp hall
  exact ((tracks hpast).step hsize asserts (hevent event (List.mem_singleton_self _))).2 next hnext

theorem exists_run (asserts : Bool) (hpos : 0 < winSize) (hsize : winSize ≤ 1024)
    (hstart : startingSeq < 4096) (hevents : ∀ event ∈ events, event.number < 4096) :
    ∃ window, runFrom (boardStep asserts) (.init startingSeq winSize) events = some window := by
  obtain ⟨window, hrun, -⟩ := exists_history_of_fitting (boardStep asserts)
    (Tracks winSize startingSeq)
    (fun past state event tracks (hnumber : event.number < 4096) => by
      obtain ⟨hsome, hnext⟩ := tracks.step hsize asserts hnumber
      obtain ⟨next, hstep⟩ := Option.isSome_iff_exists.mp (hsome hpos)
      exact ⟨next, hstep, hnext next hstep⟩)
    [] (tracks_init hstart)
    (fitting_of_forall (boardStep asserts) (fun event hmem _ => hevents event hmem) _)
  exact ⟨window, hrun⟩

end Runs

/-! ## The agreement around the scoreboard -/

namespace RecipientBlockAckAgreement

variable {α : Type*} {asserts : Bool}

theorem passWhileNext_scoreboard (mpdus : List (WifiMpdu α)) :
    ∀ agreement : RecipientBlockAckAgreement α,
      (passWhileNext mpdus agreement).scoreboard = agreement.scoreboard := by
  induction mpdus with
  | nil => exact fun _ => rfl
  | cons first rest ih =>
      intro agreement
      rw [passWhileNext]
      split
      next => rw [ih]
      next => rfl

theorem passBufferedMpdusUntilFirstLost_scoreboard {agreement next : RecipientBlockAckAgreement α}
    (hpass : passBufferedMpdusUntilFirstLost asserts agreement = some next) :
    next.scoreboard = agreement.scoreboard := by
  rw [passBufferedMpdusUntilFirstLost] at hpass
  split at hpass
  next => cases hpass
  next =>
    obtain rfl := Option.some.inj hpass
    exact passWhileNext_scoreboard _ _

theorem passWhileLess_scoreboard {newWinStartB : Nat} (mpdus : List (WifiMpdu α)) :
    ∀ {agreement next : RecipientBlockAckAgreement α},
      passWhileLess asserts newWinStartB mpdus agreement = some next →
      next.scoreboard = agreement.scoreboard := by
  induction mpdus with
  | nil =>
      rintro agreement next hpass
      obtain rfl := Option.some.inj hpass
      rfl
  | cons first rest ih =>
      intro agreement next hpass
      obtain ⟨distance, -, hpass⟩ := Option.bind_eq_some_iff.mp hpass
      obtain ⟨newDistance, -, hpass⟩ := Option.bind_eq_some_iff.mp hpass
      split at hpass
      next => rw [ih hpass]
      next =>
        obtain rfl := Option.some.inj hpass
        rfl

theorem passBufferedMpdusWithSeqNumberLessThan_scoreboard {newWinStartB : Nat}
    {agreement next : RecipientBlockAckAgreement α}
    (hpass : passBufferedMpdusWithSeqNumberLessThan asserts newWinStartB agreement = some next) :
    next.scoreboard = agreement.scoreboard := by
  rw [passBufferedMpdusWithSeqNumberLessThan] at hpass
  split at hpass
  next => cases hpass
  next =>
    obtain ⟨passed, hpassed, rfl⟩ := Option.map_eq_some_iff.mp hpass
    have hsame := passWhileLess_scoreboard _ hpassed
    exact hsame

/-- The reordering buffer leaves the scoreboard as it is. -/
theorem boardStep_of_notifyStep {agreement next : RecipientBlockAckAgreement α}
    {event : BlockAckEvent α} (hnext : notifyStep asserts agreement event = some next) :
    boardStep asserts agreement.scoreboard event = some next.scoreboard := by
  cases event with
  | mpdu received =>
      obtain ⟨scoreboard, hboard, hnext⟩ := Option.bind_eq_some_iff.mp hnext
      obtain ⟨distance, -, hnext⟩ := Option.bind_eq_some_iff.mp hnext
      refine hboard.trans (congrArg some ?_)
      split at hnext
      next => exact (passBufferedMpdusUntilFirstLost_scoreboard hnext).symm
      next =>
        split at hnext
        next =>
          obtain ⟨passed, hpassed, hnext⟩ := Option.bind_eq_some_iff.mp hnext
          rw [passBufferedMpdusUntilFirstLost_scoreboard hnext,
            passBufferedMpdusWithSeqNumberLessThan_scoreboard hpassed]
        next =>
          obtain rfl := Option.some.inj hnext
          rfl
  | bar startingSequenceNumber =>
      obtain ⟨scoreboard, hboard, hnext⟩ := Option.bind_eq_some_iff.mp hnext
      obtain ⟨distance, -, hnext⟩ := Option.bind_eq_some_iff.mp hnext
      refine hboard.trans (congrArg some ?_)
      split at hnext
      next =>
        obtain ⟨passed, hpassed, hnext⟩ := Option.bind_eq_some_iff.mp hnext
        rw [passBufferedMpdusUntilFirstLost_scoreboard hnext,
          passBufferedMpdusWithSeqNumberLessThan_scoreboard hpassed]
      next =>
        obtain rfl := Option.some.inj hnext
        rfl

theorem boardRun_of_notifyRun {events : List (BlockAckEvent α)} :
    ∀ {agreement last : RecipientBlockAckAgreement α},
      runFrom (notifyStep asserts) agreement events = some last →
      runFrom (boardStep asserts) agreement.scoreboard events = some last.scoreboard := by
  induction events with
  | nil =>
      rintro agreement last hrun
      obtain rfl := Option.some.inj hrun
      rfl
  | cons event rest ih =>
      intro agreement last hrun
      obtain ⟨next, hnext, hrest⟩ := runFrom_cons_inv (notifyStep asserts) hrun
      rw [runFrom_cons_of_step (boardStep asserts) (boardStep_of_notifyStep hnext)]
      exact ih hrest

end RecipientBlockAckAgreement

/--
The scoreboard is exact.  Whatever the agreement is notified of, its scoreboard
takes it, and is then what the standard says: the start follows the rule, a bit
of the window is set for the numbers received since they came into the window,
and a header that is filled acknowledges these and no other.
-/
theorem scoreboard_exact {α : Type*} (asserts : Bool) {bufferSize startingSeq : Nat}
    (hsize : bufferSize ≤ 1024) (hstart : startingSeq < 4096) {events : List (BlockAckEvent α)}
    (hevents : ∀ event ∈ events, event.number < 4096) :
    (0 < bufferSize →
      ∃ window, runFrom (boardStep asserts) (.init startingSeq bufferSize) events = some window) ∧
    (∀ agreement, runFrom (notifyStep asserts) (.create bufferSize startingSeq) events =
        some agreement →
      runFrom (boardStep asserts) (.init startingSeq bufferSize) events =
        some agreement.scoreboard) ∧
    ∀ window, runFrom (boardStep asserts) (.init startingSeq bufferSize) events = some window →
      Exact asserts bufferSize startingSeq events window :=
  ⟨fun hpos => exists_run asserts hpos hsize hstart hevents,
    fun _ hrun => RecipientBlockAckAgreement.boardRun_of_notifyRun hrun,
    fun _ hrun => (tracks_of_run hsize hstart hevents hrun).exact hsize⟩

/-- A window of four numbers that wraps, moves, is asked for and starts anew. -/
def wrappedEvents : List (BlockAckEvent Unit) :=
  [.mpdu ⟨4095, ()⟩, .mpdu ⟨3, ()⟩, .bar 2, .mpdu ⟨2000, ()⟩, .bar 2001]

theorem scoreboard_exact_wrapped :
    ∃ window, runFrom (boardStep true) (.init 4094 4) wrappedEvents = some window ∧
      Exact true 4 4094 wrappedEvents window := by
  obtain ⟨hsome, -, hexact⟩ := scoreboard_exact true (by decide : 4 ≤ 1024) (by decide : 4094 < 4096)
    (by simp [wrappedEvents, BlockAckEvent.number] : ∀ event ∈ wrappedEvents, event.number < 4096)
  obtain ⟨window, hrun⟩ := hsome (by decide)
  exact ⟨window, hrun, hexact window hrun⟩

end DeepcV2x.Wifi
