import DeepcV2x.Foundation.Runs
import Mathlib.Data.List.TakeWhile
import Mathlib.Data.Nat.Count
import Mathlib.Data.Nat.ModEq

/-!
# The packet loss counter

`PacketLossCounter`: one bit for each of the last numbers tells whether a packet
with it was received.  When a number leaves the window, its bit is read and
cleared for the number that enters.
-/

namespace DeepcV2x.Applications

/-- The members of the counter. -/
structure PacketLossCounter where
  lost : Nat := 0
  bitMapSize : Nat
  lastMaxSeqNum : Nat := 0
  receiveBitMap : List UInt8
  deriving DecidableEq, Repr

namespace PacketLossCounter

/-- `SetBitMapSize` of a new counter, which asserts that the window fills octets. -/
def create (winSize : Nat) : Option PacketLossCounter :=
  if winSize % 8 = 0 then
    some { bitMapSize := winSize / 8, receiveBitMap := List.replicate (winSize / 8) 0xFF }
  else none

/-- The octet with the bit of a number. -/
def place (counter : PacketLossCounter) (seqNum : Nat) : Nat :=
  seqNum % (counter.bitMapSize * 8) / 8

/-- `GetBit`. -/
def getBit (counter : PacketLossCounter) (seqNum : Nat) : Bool :=
  counter.receiveBitMap.getD (counter.place seqNum) 0 >>> UInt8.ofNat (7 - seqNum % 8) &&& 1 != 0

/-- An octet with another bit. -/
def setOctet (seqNum : Nat) (val : Bool) (octet : UInt8) : UInt8 :=
  if val then octet ||| 0x80 >>> UInt8.ofNat (seqNum % 8)
  else octet &&& ~~~(0x80 >>> UInt8.ofNat (seqNum % 8))

/-- `SetBit`. -/
def setBit (counter : PacketLossCounter) (seqNum : Nat) (val : Bool) : PacketLossCounter :=
  { counter with
    receiveBitMap := counter.receiveBitMap.modify (counter.place seqNum) (setOctet seqNum val) }

/-- One more packet is lost when the bit of a number is not set. -/
def countLost (counter : PacketLossCounter) (seqNum : Nat) : PacketLossCounter :=
  if counter.getBit seqNum then counter
  else { counter with lost := (counter.lost + 1) % 4294967296 }

/-- The loop of `NotifyReceived`, for so many turns; its number is a word. -/
def checkFrom (seqNum : Nat) : Nat → Nat → PacketLossCounter → Option PacketLossCounter
  | 0, _, _ => none
  | turns + 1, i, counter =>
      if i ≤ seqNum then
        checkFrom seqNum turns ((i + 1) % 4294967296) ((counter.countLost i).setBit i false)
      else some counter

/-- The bit and the maximum at the end of `NotifyReceived`. -/
def markReceived (counter : PacketLossCounter) (seqNum : Nat) : PacketLossCounter :=
  let marked := counter.setBit seqNum true
  if seqNum > counter.lastMaxSeqNum then { marked with lastMaxSeqNum := seqNum } else marked

/-- What `NotifyReceived` leaves when it returns after so many turns of its loop. -/
def notifyReceivedIn (turns : Nat) (counter : PacketLossCounter) (seqNum : Nat) :
    Option PacketLossCounter :=
  (checkFrom seqNum turns ((counter.lastMaxSeqNum + 1) % 4294967296) counter).map
    (markReceived · seqNum)

/-- `NotifyReceived`: its loop goes from behind the maximum up to the number, or does not end. -/
def notifyReceived (counter : PacketLossCounter) (seqNum : Nat) : Option PacketLossCounter :=
  counter.notifyReceivedIn (seqNum - counter.lastMaxSeqNum + 1) seqNum

/-! ## One bit -/

theorem shift_and_all : ∀ (octet : Fin 256) (bit : Fin 8),
    (UInt8.ofNat octet.val >>> UInt8.ofNat (7 - bit.val) &&& 1 != 0) =
      octet.val.testBit (7 - bit.val) := by
  decide +kernel

theorem shift_and (octet : UInt8) (seqNum : Nat) :
    (octet >>> UInt8.ofNat (7 - seqNum % 8) &&& 1 != 0) =
      octet.toNat.testBit (7 - seqNum % 8) := by
  have hall := shift_and_all ⟨octet.toNat, octet.toNat_lt⟩ ⟨seqNum % 8, Nat.mod_lt _ (by decide)⟩
  rwa [UInt8.ofNat_toNat] at hall

theorem masks_all : ∀ first second : Fin 8,
    (0x80 >>> UInt8.ofNat first.val).toNat.testBit (7 - second.val) = decide (first = second) ∧
      (~~~(0x80 >>> UInt8.ofNat first.val)).toNat.testBit (7 - second.val) =
        decide (first ≠ second) := by
  decide +kernel

theorem testBit_setOctet (seqNum other : Nat) (val : Bool) (octet : UInt8) :
    (setOctet seqNum val octet).toNat.testBit (7 - other % 8) =
      if seqNum % 8 = other % 8 then val else octet.toNat.testBit (7 - other % 8) := by
  obtain ⟨hset, hclear⟩ := masks_all ⟨seqNum % 8, Nat.mod_lt _ (by decide)⟩
    ⟨other % 8, Nat.mod_lt _ (by decide)⟩
  rw [setOctet]
  cases val with
  | true =>
      rw [if_pos rfl, UInt8.toNat_or, Nat.testBit_or, hset]
      by_cases hsame : seqNum % 8 = other % 8
      · simp [hsame]
      · simp [hsame]
  | false =>
      rw [if_neg Bool.false_ne_true, UInt8.toNat_and, Nat.testBit_and, hclear]
      by_cases hsame : seqNum % 8 = other % 8
      · simp [hsame]
      · simp [hsame]

/-- A bit that is set already. -/
theorem setOctet_true {seqNum : Nat} {octet : UInt8}
    (hset : octet.toNat.testBit (7 - seqNum % 8) = true) : setOctet seqNum true octet = octet := by
  refine UInt8.toNat_inj.mp (Nat.eq_of_testBit_eq fun index => ?_)
  rcases Nat.lt_or_ge index 8 with hindex | hindex
  · have hother : 7 - (7 - index) % 8 = index := by omega
    have hbit := testBit_setOctet seqNum (7 - index) true octet
    rw [hother] at hbit
    rw [hbit]
    split
    next hsame =>
      rw [← hset, hsame, hother]
    next => rfl
  · have hpow : (256 : Nat) ≤ 2 ^ index := Nat.pow_le_pow_right (n := 2) (by decide) hindex
    rw [Nat.testBit_lt_two_pow (Nat.lt_of_lt_of_le (UInt8.toNat_lt _) hpow),
      Nat.testBit_lt_two_pow (Nat.lt_of_lt_of_le (UInt8.toNat_lt _) hpow)]

/-! ## The ring of bits -/

theorem getBit_eq (counter : PacketLossCounter) (seqNum : Nat) :
    counter.getBit seqNum =
      (counter.receiveBitMap.getD (counter.place seqNum) 0).toNat.testBit (7 - seqNum % 8) :=
  shift_and ..

theorem getBit_countLost (counter : PacketLossCounter) (seqNum other : Nat) :
    (counter.countLost seqNum).getBit other = counter.getBit other := by
  rw [PacketLossCounter.countLost]
  split
  next => rfl
  next => rfl

/-- The bits are those of a window. -/
structure Sized (window : Nat) (counter : PacketLossCounter) : Prop where
  size : counter.bitMapSize * 8 = window
  pos : 0 < window
  length : counter.receiveBitMap.length = counter.bitMapSize

namespace Sized

variable {window : Nat} {counter : PacketLossCounter}

theorem place_lt (sized : counter.Sized window) (seqNum : Nat) :
    counter.place seqNum < counter.receiveBitMap.length := by
  have hmod := Nat.mod_lt seqNum sized.pos
  rw [place, sized.length, sized.size]
  have hwindow := sized.size
  omega

theorem setBit (sized : counter.Sized window) (seqNum : Nat) (val : Bool) :
    (counter.setBit seqNum val).Sized window where
  size := sized.size
  pos := sized.pos
  length := by
    rw [PacketLossCounter.setBit, List.length_modify]
    exact sized.length

theorem countLost (sized : counter.Sized window) (seqNum : Nat) :
    (counter.countLost seqNum).Sized window := by
  rw [PacketLossCounter.countLost]
  split
  next => exact sized
  next => exact ⟨sized.size, sized.pos, sized.length⟩

/-- Two numbers have one bit when they are a multiple of the window apart. -/
theorem same_bit_iff (sized : counter.Sized window) (first second : Nat) :
    (counter.place first = counter.place second ∧ first % 8 = second % 8) ↔
      first % window = second % window := by
  have hdvd : 8 ∣ window := sized.size ▸ Nat.dvd_mul_left 8 counter.bitMapSize
  have hfirst := Nat.mod_mod_of_dvd first hdvd
  have hsecond := Nat.mod_mod_of_dvd second hdvd
  rw [place, place, sized.size]
  constructor
  · rintro ⟨hplace, hbit⟩
    omega
  · intro hsame
    rw [hsame] at hfirst ⊢
    exact ⟨rfl, hfirst.symm.trans hsecond⟩

/-- Setting a bit. -/
theorem getBit_setBit (sized : counter.Sized window) (seqNum other : Nat) (val : Bool) :
    (counter.setBit seqNum val).getBit other =
      if seqNum % window = other % window then val else counter.getBit other := by
  have hplace : (counter.setBit seqNum val).place other = counter.place other := rfl
  have hin := List.getElem?_eq_getElem (sized.place_lt other)
  rw [getBit_eq, getBit_eq, hplace, List.getD_eq_getElem?_getD, List.getD_eq_getElem?_getD,
    PacketLossCounter.setBit, List.getElem?_modify, hin, Option.map_eq_map, Option.map_some,
    Option.getD_some, Option.getD_some]
  by_cases hsame : counter.place seqNum = counter.place other
  · rw [if_pos hsame]
    refine (testBit_setOctet ..).trans (if_congr ?_ rfl rfl)
    rw [← sized.same_bit_iff, and_iff_right hsame]
  · rw [if_neg hsame, if_neg fun hmod => hsame ((sized.same_bit_iff _ _).mpr hmod).1]

/-- A bit that is set already. -/
theorem setBit_of_getBit (sized : counter.Sized window) {seqNum : Nat}
    (hset : counter.getBit seqNum = true) : counter.setBit seqNum true = counter := by
  have hin := List.getElem?_eq_getElem (sized.place_lt seqNum)
  rw [getBit_eq, List.getD_eq_getElem?_getD, hin, Option.getD_some] at hset
  have hsame : counter.receiveBitMap.modify (counter.place seqNum) (setOctet seqNum true) =
      counter.receiveBitMap := by
    refine List.ext_getElem? fun index => ?_
    rw [List.getElem?_modify]
    by_cases hplace : counter.place seqNum = index
    · rw [← hplace, hin, Option.map_eq_map, Option.map_some, if_pos rfl, setOctet_true hset]
    · simp only [if_neg hplace, Option.map_eq_map, Option.map_id']
  rw [PacketLossCounter.setBit, hsame]

end Sized

/-! ## The loop -/

/-- The loop does not end when its bound is the largest word. -/
theorem checkFrom_largest (turns : Nat) : ∀ {i : Nat} (counter : PacketLossCounter),
    i < 4294967296 → checkFrom 4294967295 turns i counter = none := by
  induction turns with
  | zero => exact fun _ _ => rfl
  | succ turns ih =>
      intro i counter hi
      rw [checkFrom, if_pos (Nat.le_of_lt_succ hi)]
      exact ih _ (Nat.mod_lt _ (by decide))

theorem checkFrom_mono {seqNum turns more i : Nat} {counter result : PacketLossCounter}
    (hle : turns ≤ more) (hresult : checkFrom seqNum turns i counter = some result) :
    checkFrom seqNum more i counter = some result := by
  induction turns generalizing more i counter with
  | zero => cases hresult
  | succ turns ih =>
      obtain ⟨more, rfl⟩ : ∃ left, more = left + 1 := ⟨more - 1, by omega⟩
      rw [checkFrom] at hresult ⊢
      split at hresult
      next hi =>
        rw [if_pos hi]
        exact ih (Nat.le_of_succ_le_succ hle) hresult
      next hi => rw [if_neg hi, hresult]

/-! ## What is lost -/

/-- The largest number notified. -/
def maxOf (history : List Nat) : Nat := history.foldl max 0

/-- The number was not notified when the maximum first left the window behind it. -/
def Missed (window : Nat) (history : List Nat) (seqNum : Nat) : Prop :=
  1 ≤ seqNum ∧ seqNum ∉ history.takeWhile fun number => decide (number < seqNum + window)

instance (window : Nat) (history : List Nat) (seqNum : Nat) :
    Decidable (Missed window history seqNum) :=
  inferInstanceAs (Decidable (_ ∧ _))

/-- The numbers that the window has left behind and that were missed. -/
def lostOf (window : Nat) (history : List Nat) : Nat :=
  Nat.count (Missed window history) (maxOf history + 1 - window)

theorem maxOf_snoc (history : List Nat) (seqNum : Nat) :
    maxOf (history ++ [seqNum]) = max (maxOf history) seqNum := by
  rw [maxOf, List.foldl_append]
  rfl

theorem le_maxOf {history : List Nat} {number : Nat} (hmem : number ∈ history) :
    number ≤ maxOf history := by
  induction history using List.reverseRecOn with
  | nil => cases hmem
  | append_singleton history last ih =>
      rw [maxOf_snoc]
      rcases List.mem_append.mp hmem with hmem | hmem
      · exact Nat.le_trans (ih hmem) (Nat.le_max_left ..)
      · rw [List.mem_singleton.mp hmem]
        exact Nat.le_max_right ..

/-- Some number is the largest one. -/
theorem maxOf_mem {history : List Nat} (hpos : 0 < maxOf history) : maxOf history ∈ history := by
  induction history using List.reverseRecOn with
  | nil => exact absurd hpos (Nat.lt_irrefl 0)
  | append_singleton history last ih =>
      rw [maxOf_snoc] at hpos ⊢
      rcases Nat.le_total last (maxOf history) with hle | hle
      · rw [Nat.max_eq_left hle] at hpos ⊢
        exact List.mem_append_left _ (ih hpos)
      · rw [Nat.max_eq_right hle]
        exact List.mem_append_right _ List.mem_cons_self

theorem takeWhile_of_forall {history rest : List Nat} {bound : Nat}
    (hall : ∀ number ∈ history, number < bound) :
    (history ++ rest).takeWhile (fun number => decide (number < bound)) =
      history ++ rest.takeWhile fun number => decide (number < bound) :=
  List.takeWhile_append_of_pos fun number hmem => decide_eq_true (hall number hmem)

/-- What was left behind before is missed or not, as before. -/
theorem missed_snoc_of_le {window seqNum left : Nat} {history : List Nat} (hwindow : 0 < window)
    (hleft : left + window ≤ maxOf history) :
    Missed window (history ++ [seqNum]) left ↔ Missed window history left := by
  have hmem := maxOf_mem (Nat.lt_of_lt_of_le (Nat.lt_of_lt_of_le hwindow (Nat.le_add_left ..)) hleft)
  have hstop : ∀ tail, (history ++ tail).takeWhile (fun number => decide (number < left + window)) =
      history.takeWhile fun number => decide (number < left + window) := by
    intro tail
    refine List.takeWhile_append.trans (if_neg fun hall => ?_)
    have hwhole : history.takeWhile (fun number => decide (number < left + window)) = history :=
      (List.takeWhile_prefix _).eq_of_length hall
    have hin : maxOf history ∈ history.takeWhile fun number => decide (number < left + window) := by
      rw [hwhole]
      exact hmem
    have hlt : maxOf history < left + window := by simpa using List.mem_takeWhile_imp hin
    omega
  rw [Missed, Missed, hstop]

/-- What is left behind now is missed when it was not notified. -/
theorem missed_snoc_of_lt {window seqNum left : Nat} {history : List Nat}
    (hleft : maxOf history < left + window) (hle : left + window ≤ seqNum) :
    Missed window (history ++ [seqNum]) left ↔ 1 ≤ left ∧ left ∉ history := by
  rw [Missed, takeWhile_of_forall fun number hmem => Nat.lt_of_le_of_lt (le_maxOf hmem) hleft,
    List.takeWhile_cons_of_neg (by simpa using hle), List.append_nil]

theorem count_congr {first second : Nat → Prop} [DecidablePred first] [DecidablePred second]
    {bound : Nat} (hsame : ∀ number < bound, first number ↔ second number) :
    Nat.count first bound = Nat.count second bound :=
  Nat.le_antisymm (Nat.count_mono_left fun number hlt => (hsame number hlt).mp)
    (Nat.count_mono_left fun number hlt => (hsame number hlt).mpr)

/-! ## The window -/

/-- The numbers up to one have been in the window: those behind the window are counted when they are
missed, and the bit of each next number tells whether the number that leaves was notified. -/
structure Covers (window : Nat) (received : Nat → Prop) (missed : Nat → Prop)
    [DecidablePred missed] (reached : Nat) (counter : PacketLossCounter) : Prop where
  sized : counter.Sized window
  lost : counter.lost = Nat.count missed (reached + 1 - window)
  bits : ∀ next, reached < next → next ≤ reached + window →
    (counter.getBit next = true ↔ next ≤ window ∨ received (next - window))

namespace Covers

variable {window reached seqNum : Nat} {received missed : Nat → Prop} [DecidablePred missed]
  {counter : PacketLossCounter}

/-- One turn of the loop. -/
theorem turn (covers : Covers window received missed reached counter) (hword : reached < 4294967295)
    (hreceived : ∀ number, received number → number ≤ reached)
    (hmissed : ∀ left, left + window = reached + 1 → (missed left ↔ 1 ≤ left ∧ ¬ received left)) :
    Covers window received missed (reached + 1)
      ((counter.countLost (reached + 1)).setBit (reached + 1) false) := by
  have hpos := covers.sized.pos
  have hbit := covers.bits (reached + 1) (Nat.lt_succ_self _) (by omega)
  refine ⟨(covers.sized.countLost _).setBit _ _, ?_, fun next hlow hhigh => ?_⟩
  · show (counter.countLost (reached + 1)).lost = _
    have hlost := covers.lost
    have hbound : Nat.count missed (reached + 1 - window) ≤ reached + 1 - window := Nat.count_le _
    rcases Nat.lt_or_ge (reached + 1) window with hless | hge
    · -- nothing leaves the window yet
      have hzero : reached + 1 + 1 - window = 0 ∧ reached + 1 - window = 0 := by omega
      rw [hzero.2] at hlost
      rw [countLost, if_pos (hbit.mpr (.inl (Nat.le_of_lt hless))), hlost, hzero.1]
    · obtain ⟨left, hleft⟩ : ∃ left, left + window = reached + 1 := ⟨reached + 1 - window, by omega⟩
      have hnext : reached + 1 + 1 - window = left + 1 := by omega
      have hthis : reached + 1 - window = left := by omega
      rw [hthis] at hlost hbit hbound
      rw [hnext, Nat.count_succ]
      by_cases hset : counter.getBit (reached + 1) = true
      · rw [countLost, if_pos hset, hlost, if_neg, Nat.add_zero]
        rw [hmissed left hleft]
        rintro ⟨hone, hnot⟩
        exact (hbit.mp hset).elim (fun hle => by omega) hnot
      · rw [countLost, if_neg hset, if_pos]
        · show (counter.lost + 1) % 4294967296 = _
          rw [hlost, Nat.mod_eq_of_lt (by omega)]
        · rw [hmissed left hleft]
          exact ⟨by have := mt (fun hle => hbit.mpr (.inl hle)) hset; omega,
            fun hin => hset (hbit.mpr (.inr hin))⟩
  · rw [(covers.sized.countLost _).getBit_setBit, getBit_countLost]
    rcases Nat.lt_or_ge (reached + window) next with hlast | hin
    · -- the number that enters the window was not notified
      obtain rfl : next = reached + 1 + window := by omega
      rw [Nat.add_mod_right, if_pos rfl, Nat.add_sub_cancel]
      refine iff_of_false Bool.false_ne_true ?_
      rintro (hle | hin)
      · omega
      · exact absurd (hreceived _ hin) (by omega)
    · rw [if_neg, covers.bits next (by omega) hin]
      intro hsame
      have hmod : Nat.ModEq window (reached + 1) next := hsame
      have hdvd := (Nat.modEq_iff_dvd' (Nat.le_of_lt hlow)).mp hmod
      exact absurd (Nat.le_of_dvd (by omega) hdvd) (by omega)

/-- The loop goes up to its bound. -/
theorem exists_checkFrom (turns : Nat) : ∀ {reached : Nat} {counter : PacketLossCounter},
    turns + reached = seqNum + 1 → reached ≤ seqNum → seqNum < 4294967295 →
    Covers window received missed reached counter →
    (∀ number, received number → number ≤ reached) →
    (∀ left, reached < left + window → left + window ≤ seqNum →
      (missed left ↔ 1 ≤ left ∧ ¬ received left)) →
    ∃ result, checkFrom seqNum turns (reached + 1) counter = some result ∧
      result.lastMaxSeqNum = counter.lastMaxSeqNum ∧
      Covers window received missed seqNum result := by
  induction turns with
  | zero => exact fun hturns hle => absurd hturns (by omega)
  | succ turns ih =>
      intro reached counter hturns hle hword covers hreceived hmissed
      rw [checkFrom]
      rcases Nat.lt_or_ge seqNum (reached + 1) with hdone | hmore
      · obtain rfl : reached = seqNum := by omega
        exact ⟨counter, if_neg (Nat.not_le_of_lt hdone), rfl, covers⟩
      · have hturn := covers.turn (by omega) hreceived fun left hleft =>
          hmissed left (by omega) (by omega)
        have hlast : ((counter.countLost (reached + 1)).setBit (reached + 1) false).lastMaxSeqNum =
            counter.lastMaxSeqNum := by
          show (counter.countLost (reached + 1)).lastMaxSeqNum = _
          rw [countLost]
          split
          next => rfl
          next => rfl
        rw [if_pos hmore, Nat.mod_eq_of_lt (by omega), ← hlast]
        exact ih (by omega) hmore hword hturn
          (fun number hin => Nat.le_succ_of_le (hreceived number hin))
          fun left hlow hhigh => hmissed left (by omega) hhigh

/-- The bit of a number in the window is set. -/
theorem mark (covers : Covers window received missed reached counter) (hle : seqNum ≤ reached)
    (hin : reached < seqNum + window) :
    Covers window (fun number => received number ∨ number = seqNum) missed reached
      (counter.setBit seqNum true) := by
  refine ⟨covers.sized.setBit _ _, covers.lost, fun next hlow hhigh => ?_⟩
  have hpos := covers.sized.pos
  rw [covers.sized.getBit_setBit]
  by_cases hsame : seqNum % window = next % window
  · -- in this turn of the window only the number that follows it has its bit
    have hdvd := (Nat.modEq_iff_dvd' (by omega)).mp (show Nat.ModEq window seqNum next from hsame)
    obtain ⟨rounds, hrounds⟩ := hdvd
    have hone : rounds = 1 := by
      rcases rounds with _ | _ | rounds
      · omega
      · rfl
      · have : window * 2 ≤ window * (rounds + 1 + 1) := Nat.mul_le_mul_left _ (by omega)
        omega
    rw [hone, Nat.mul_one] at hrounds
    rw [if_pos hsame]
    exact iff_of_true rfl (.inr (.inr (by omega)))
  · have hne : next - window ≠ seqNum ∨ next ≤ window := by
      rcases Nat.lt_or_ge window next with hlast | hle
      · refine .inl fun heq => hsame ?_
        rw [← heq, ← Nat.add_mod_right (next - window), Nat.sub_add_cancel (Nat.le_of_lt hlast)]
      · exact .inr hle
    rw [if_neg hsame, covers.bits next hlow hhigh]
    constructor
    · rintro (hle | hin)
      · exact .inl hle
      · exact .inr (.inl hin)
    · rintro (hle | hin | heq)
      · exact .inl hle
      · exact .inr hin
      · exact .inl (hne.resolve_left (not_not_intro heq))

end Covers

/-! ## A packet -/

/-- The counter is as its history says. -/
structure Tracks (window : Nat) (history : List Nat) (counter : PacketLossCounter) : Prop where
  covers : Covers window (· ∈ history) (Missed window history) (maxOf history) counter
  last : counter.lastMaxSeqNum = maxOf history
  word : maxOf history < 4294967295

theorem Covers.congr {window reached : Nat} {received received' missed missed' : Nat → Prop}
    [DecidablePred missed] [DecidablePred missed'] {counter : PacketLossCounter}
    (covers : Covers window received missed reached counter)
    (hreceived : ∀ number, reached < number + window → (received' number ↔ received number))
    (hmissed : ∀ left, left + window ≤ reached → (missed' left ↔ missed left)) :
    Covers window received' missed' reached counter where
  sized := covers.sized
  lost := by
    rw [covers.lost]
    exact count_congr fun left hleft => (hmissed left (by omega)).symm
  bits := fun next hlow hhigh => by
    rw [covers.bits next hlow hhigh]
    by_cases hle : next ≤ window
    · exact iff_of_true (.inl hle) (.inl hle)
    · rw [hreceived (next - window) (by omega)]

/-- A call that returns after so many turns is a call. -/
theorem notifyReceived_of_in {counter result : PacketLossCounter} {turns seqNum : Nat}
    {history : List Nat} {window : Nat} (tracks : Tracks window history counter)
    (hseqNum : seqNum < 4294967296)
    (hresult : counter.notifyReceivedIn turns seqNum = some result) :
    counter.notifyReceived seqNum = some result := by
  obtain ⟨left, hleft, rfl⟩ := Option.map_eq_some_iff.mp hresult
  have hlast := tracks.last
  have hword := tracks.word
  rw [Nat.mod_eq_of_lt (by omega)] at hleft
  have hne : seqNum ≠ 4294967295 := by
    rintro rfl
    rw [checkFrom_largest turns counter (by omega)] at hleft
    cases hleft
  obtain ⟨other, hother⟩ : ∃ other, checkFrom seqNum (seqNum - counter.lastMaxSeqNum + 1)
      (counter.lastMaxSeqNum + 1) counter = some other := by
    rcases Nat.lt_or_ge seqNum (counter.lastMaxSeqNum + 1) with hold | hnew
    · exact ⟨counter, by rw [checkFrom, if_neg (Nat.not_le_of_lt hold)]⟩
    · obtain ⟨other, hother, -⟩ := @Covers.exists_checkFrom window seqNum (fun number => number ∈ history)
        (Missed window (history ++ [seqNum])) _ (seqNum - counter.lastMaxSeqNum + 1)
        (maxOf history) counter (by omega) (by omega) (by omega)
        (tracks.covers.congr (fun _ _ => Iff.rfl) fun left hin =>
          missed_snoc_of_le tracks.covers.sized.pos hin) (fun _ => le_maxOf)
        fun left hlow hhigh => missed_snoc_of_lt hlow hhigh
      exact ⟨other, hlast ▸ hother⟩
  have hsame : left = other := by
    have hfirst := checkFrom_mono (Nat.le_max_left turns (seqNum - counter.lastMaxSeqNum + 1)) hleft
    have hsecond :=
      checkFrom_mono (Nat.le_max_right turns (seqNum - counter.lastMaxSeqNum + 1)) hother
    exact Option.some.inj (hfirst.symm.trans hsecond)
  rw [notifyReceived, notifyReceivedIn, Nat.mod_eq_of_lt (by omega), hother, hsame]
  rfl

namespace Tracks

variable {window seqNum : Nat} {history : List Nat} {counter : PacketLossCounter}

theorem create (hpos : 0 < window) (hwindow : window % 8 = 0) :
    ∃ counter, PacketLossCounter.create window = some counter ∧ Tracks window [] counter := by
  have hsized : Sized window
      { bitMapSize := window / 8, receiveBitMap := List.replicate (window / 8) 0xFF } :=
    ⟨by show window / 8 * 8 = window; omega, hpos, List.length_replicate⟩
  refine ⟨_, if_pos hwindow, ⟨hsized, ?_, fun next _ hle => ?_⟩, rfl, by decide⟩
  · show 0 = Nat.count _ (0 + 1 - window)
    rw [show 0 + 1 - window = 0 by omega, Nat.count_zero]
  · refine iff_of_true ?_ (.inl (by rwa [maxOf, List.foldl_nil, Nat.zero_add] at hle))
    have hin := List.getElem?_eq_getElem (hsized.place_lt next)
    have hall : ∀ bit : Fin 8, (0xFF : UInt8).toNat.testBit (7 - bit.val) = true := by decide
    rw [getBit_eq, List.getD_eq_getElem?_getD, hin, List.getElem_replicate, Option.getD_some]
    exact hall ⟨next % 8, Nat.mod_lt _ (by decide)⟩

/-- A packet with a new largest number. -/
theorem newer (tracks : Tracks window history counter) (hnew : maxOf history < seqNum)
    (hword : seqNum < 4294967295) :
    ∃ next, counter.notifyReceived seqNum = some next ∧ Tracks window (history ++ [seqNum]) next := by
  have hmax : maxOf (history ++ [seqNum]) = seqNum :=
    (maxOf_snoc ..).trans (Nat.max_eq_right (Nat.le_of_lt hnew))
  have hlast := tracks.last
  have hpos := tracks.covers.sized.pos
  obtain ⟨result, hresult, hkept, hcovers⟩ := @Covers.exists_checkFrom window seqNum
    (fun number => number ∈ history) (Missed window (history ++ [seqNum])) _
    (seqNum - counter.lastMaxSeqNum + 1) (maxOf history) counter (by omega) (Nat.le_of_lt hnew) hword
    (tracks.covers.congr (fun _ _ => Iff.rfl) fun left hin => missed_snoc_of_le hpos hin)
    (fun _ => le_maxOf) fun left hlow hhigh => missed_snoc_of_lt hlow hhigh
  rw [← hlast] at hresult
  have hmark : markReceived result seqNum =
      { result.setBit seqNum true with lastMaxSeqNum := seqNum } := by
    rw [markReceived, if_pos (by omega)]
  refine ⟨{ result.setBit seqNum true with lastMaxSeqNum := seqNum }, ?_, ?_, hmax.symm, ?_⟩
  · rw [notifyReceived, notifyReceivedIn, Nat.mod_eq_of_lt (by omega), hresult, Option.map_some,
      hmark]
  · rw [hmax]
    have hmarked : Covers window (· ∈ history ++ [seqNum]) (Missed window (history ++ [seqNum]))
        seqNum (result.setBit seqNum true) :=
      (hcovers.mark (Nat.le_refl _) (by omega)).congr
        (fun number _ => by rw [List.mem_append, List.mem_singleton]) fun _ _ => Iff.rfl
    exact ⟨⟨hmarked.sized.size, hmarked.sized.pos, hmarked.sized.length⟩, hmarked.lost, hmarked.bits⟩
  · rw [hmax]
    exact hword

/-- A packet with an older number. -/
theorem older (tracks : Tracks window history counter) (hold : seqNum ≤ maxOf history)
    (hset : seqNum + window ≤ maxOf history → counter.getBit seqNum = true) :
    ∃ next, counter.notifyReceived seqNum = some next ∧
      Tracks window (history ++ [seqNum]) next ∧ (seqNum + window ≤ maxOf history → next = counter) := by
  have hmax : maxOf (history ++ [seqNum]) = maxOf history :=
    (maxOf_snoc ..).trans (Nat.max_eq_left hold)
  have hlast := tracks.last
  have hword := tracks.word
  have hpos := tracks.covers.sized.pos
  have hcall : counter.notifyReceived seqNum = some (counter.setBit seqNum true) := by
    rw [notifyReceived, notifyReceivedIn, Nat.mod_eq_of_lt (by omega), checkFrom,
      if_neg (by omega), Option.map_some, markReceived, if_neg (by omega)]
  have hmissed : ∀ left, left + window ≤ maxOf history →
      (Missed window (history ++ [seqNum]) left ↔ Missed window history left) :=
    fun left hin => missed_snoc_of_le hpos hin
  rcases Nat.lt_or_ge (maxOf history) (seqNum + window) with hin | hlate
  · refine ⟨_, hcall, ⟨?_, hlast.trans hmax.symm, hmax.symm ▸ hword⟩, fun hle => by omega⟩
    rw [hmax]
    refine (tracks.covers.mark hold hin).congr (fun number _ => ?_) hmissed
    rw [List.mem_append, List.mem_singleton]
  · have hsame := tracks.covers.sized.setBit_of_getBit (hset hlate)
    refine ⟨counter, by rw [hcall, hsame], ⟨?_, hlast.trans hmax.symm, hmax.symm ▸ hword⟩,
      fun _ => rfl⟩
    rw [hmax]
    refine tracks.covers.congr (fun number hnumber => ?_) hmissed
    rw [List.mem_append, List.mem_singleton, or_iff_left]
    omega

end Tracks

end PacketLossCounter

/-! ## Runs -/

/-- The counter, unless a call did not return, the numbers notified so far, and whether those behind
the window left the counter as it was. -/
structure Counting where
  counter : Option PacketLossCounter
  history : List Nat := []
  undisturbed : Bool := true
  deriving DecidableEq

namespace Counting

open PacketLossCounter

def step (window : Nat) (counting : Counting) (seqNum : Nat) : Option Counting :=
  let next := counting.counter.bind (·.notifyReceived seqNum)
  some {
    counter := next
    history := counting.history ++ [seqNum]
    undisturbed := counting.undisturbed &&
      decide (seqNum + window ≤ maxOf counting.history → next = counting.counter) }

/-- All calls returned, the losses are those of the history, and packets behind the window changed
nothing. -/
def Exact (window : Nat) (counting : Counting) : Prop :=
  ∃ counter, counting.counter = some counter ∧ counter.lost = lostOf window counting.history ∧
    counting.undisturbed = true

/-- The number is not the largest word, and when it is behind the window, the number that shares its
bit was notified. -/
def Fits (window : Nat) (counting : Counting) (seqNum : Nat) : Prop :=
  seqNum ≠ 4294967295 ∧ (seqNum + window ≤ maxOf counting.history →
    ∀ counter, counting.counter = some counter → counter.getBit seqNum = true)

/-- The counter is as the history says. -/
def Sound (window : Nat) (counting : Counting) : Prop :=
  ∃ counter, counting.counter = some counter ∧ Tracks window counting.history counter ∧
    counting.undisturbed = true

variable {window : Nat} {counting : Counting}

theorem Sound.exact (sound : Sound window counting) : Exact window counting := by
  obtain ⟨counter, hcounter, tracks, hundisturbed⟩ := sound
  exact ⟨counter, hcounter, tracks.covers.lost, hundisturbed⟩

/-- A call that fits. -/
theorem Sound.step {seqNum : Nat} (sound : Sound window counting) (hword : seqNum < 4294967296)
    (fits : Fits window counting seqNum) :
    ∃ next, counting.step window seqNum = some next ∧ Sound window next := by
  obtain ⟨counter, hcounter, tracks, hundisturbed⟩ := sound
  obtain ⟨hne, hset⟩ := fits
  obtain ⟨next, hnext, hnextTracks, hlate⟩ : ∃ next, counter.notifyReceived seqNum = some next ∧
      Tracks window (counting.history ++ [seqNum]) next ∧
      (seqNum + window ≤ maxOf counting.history → next = counter) := by
    rcases Nat.lt_or_ge (maxOf counting.history) seqNum with hnew | hold
    · obtain ⟨next, hnext, hnextTracks⟩ := tracks.newer hnew (by omega)
      exact ⟨next, hnext, hnextTracks, fun hlate => by omega⟩
    · exact tracks.older hold fun hlate => hset hlate counter hcounter
  refine ⟨_, rfl, next, ?_, hnextTracks, ?_⟩
  · rw [hcounter, Option.bind_some, hnext]
  · rw [hcounter, Option.bind_some, hnext, hundisturbed, Bool.true_and, decide_eq_true_iff]
    exact fun hin => congrArg some (hlate hin)

/-- A call that does not fit. -/
theorem Sound.not_exact {seqNum : Nat} {next : Counting} (sound : Sound window counting)
    (hmisfit : ¬ Fits window counting seqNum) (hstep : counting.step window seqNum = some next) :
    ¬ Exact window next := by
  obtain ⟨counter, hcounter, tracks, hundisturbed⟩ := sound
  obtain rfl := Option.some.inj hstep
  rintro ⟨result, hresult, -, hkept⟩
  rw [hcounter, Option.bind_some] at hresult
  have hword := tracks.word
  have hlast := tracks.last
  by_cases hlargest : seqNum = 4294967295
  · subst hlargest
    rw [notifyReceived, notifyReceivedIn, checkFrom_largest _ _ (Nat.mod_lt _ (by decide))] at hresult
    cases hresult
  · obtain ⟨hlate, hset⟩ : seqNum + window ≤ maxOf counting.history ∧
        ¬ counter.getBit seqNum = true := by
      by_contra hfits
      refine hmisfit ⟨hlargest, fun hlate other hother => ?_⟩
      obtain rfl := Option.some.inj (hcounter.symm.trans hother)
      by_contra hset
      exact hfits ⟨hlate, hset⟩
    have hsame : counter.notifyReceived seqNum = some counter := by
      rw [hundisturbed, Bool.true_and, decide_eq_true_iff, hcounter, Option.bind_some] at hkept
      exact hkept hlate
    have hcall : counter.notifyReceived seqNum = some (counter.setBit seqNum true) := by
      rw [notifyReceived, notifyReceivedIn, Nat.mod_eq_of_lt (by omega), checkFrom,
        if_neg (by omega), Option.map_some, markReceived, if_neg (by omega)]
    have hbit := tracks.covers.sized.getBit_setBit seqNum seqNum true
    rw [if_pos rfl, Option.some.inj (hcall.symm.trans hsame)] at hbit
    exact hset hbit

/-- A counter of a window is exact in every state of a run exactly when every call fits. -/
theorem exact_iff_fitting (hpos : 0 < window) (hwindow : window % 8 = 0) {numbers : List Nat}
    (hwords : ∀ number ∈ numbers, number < 4294967296) {last : Counting}
    (hrun : Foundation.Runs.runFrom (step window) ⟨create window, [], true⟩ numbers = some last) :
    (∀ before state, before <+: numbers →
        Foundation.Runs.runFrom (step window) ⟨create window, [], true⟩ before = some state →
          Exact window state) ↔
      Foundation.Runs.Fitting (step window) (Fits window) ⟨create window, [], true⟩ numbers := by
  have hstart : Sound window ⟨create window, [], true⟩ := by
    obtain ⟨counter, hcounter, tracks⟩ := Tracks.create hpos hwindow
    exact ⟨counter, hcounter, tracks, rfl⟩
  refine Foundation.Runs.forall_reached_iff_fitting_of_allowed (step window) (Sound window)
    (Exact window) (fun state number next sound hword hstep => ?_) hwords hstart hstart.exact hrun
  by_cases hfits : Fits window state number
  · obtain ⟨other, hother, hsound⟩ := sound.step hword hfits
    obtain rfl := Option.some.inj (hstep.symm.trans hother)
    exact .inl ⟨hfits, hsound, hsound.exact⟩
  · exact .inr ⟨hfits, sound.not_exact hfits hstep⟩

theorem exact_iff_fitting_late : ∃ last,
    Foundation.Runs.runFrom (step 8) ⟨create 8, [], true⟩ [1, 3, 12, 2, 4] = some last ∧
      ((∀ before state, before <+: [1, 3, 12, 2, 4] →
          Foundation.Runs.runFrom (step 8) ⟨create 8, [], true⟩ before = some state →
            Exact 8 state) ↔
        Foundation.Runs.Fitting (step 8) (Fits 8) ⟨create 8, [], true⟩ [1, 3, 12, 2, 4]) :=
  ⟨_, rfl, exact_iff_fitting (by decide) (by decide) (by simp) rfl⟩

/-- A packet behind the window hides the loss of the number that shares its bit. -/
theorem not_exact_late : ∃ last,
    Foundation.Runs.runFrom (step 8) ⟨create 8, [], true⟩ [12, 2, 20] = some last ∧
      ¬ Exact 8 last := by
  refine ⟨⟨some ⟨10, 1, 20, [8]⟩, [12, 2, 20], false⟩, by decide +kernel, ?_⟩
  rintro ⟨counter, hcounter, hlost, -⟩
  obtain rfl := Option.some.inj hcounter
  have hmissed : lostOf 8 [12, 2, 20] = 11 := by decide +kernel
  exact absurd (hlost.trans hmissed) (by decide)

end Counting

end DeepcV2x.Applications
