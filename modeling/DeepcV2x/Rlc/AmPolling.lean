import DeepcV2x.Rlc.AmTransmit
import DeepcV2x.Rlc.UmAccounting
import Mathlib.Algebra.BigOperators.Group.Finset.Basic

/-!
# Polls for STATUS units

A bearer is stuck when units wait for a STATUS unit and nothing will be sent
that asks for one, unless t-PollRetransmit is running.  Every event keeps a
bearer from getting stuck but one: a STATUS unit that acknowledges all units
considered for retransmission, when t-PollRetransmit has expired before.
-/

namespace DeepcV2x.Rlc

open Foundation.Runs
open UmTransmitter (bytesOf bytesOf_cons sizeOf_add)

/-! ## Bytes of headers -/

namespace LteRlcHeader

/-- The fields that are read are in the bytes. -/
theorem deserializeFields_le (bytes : List UInt8) : ∀ {fields : List Nat × List Nat × Nat},
    deserializeFields bytes = some fields → fields.2.2 ≤ bytes.length := by
  fun_induction deserializeFields bytes with
  | case1 =>
      next ih =>
        intro fields hread
        obtain ⟨rest, hrest, rfl⟩ := Option.map_eq_some_iff.mp hread
        exact Nat.succ_le_succ (Nat.succ_le_succ (Nat.succ_le_succ (ih hrest)))
  | case2 =>
      rintro fields ⟨⟩
      exact Nat.succ_le_succ (Nat.succ_le_succ (Nat.succ_le_succ (Nat.zero_le _)))
  | case3 => nofun
  | case4 =>
      rintro fields ⟨⟩
      exact Nat.succ_le_succ (Nat.succ_le_succ (Nat.zero_le _))
  | case5 => nofun

end LteRlcHeader

namespace LteRlcAmHeader

theorem deserializeNacks_le (byte : Nat) (bytes : List UInt8) : ∀ {nacks : List Nat × Nat},
    deserializeNacks byte bytes = some nacks → nacks.2 ≤ bytes.length := by
  fun_induction deserializeNacks byte bytes with
  | case1 =>
      next ih =>
        intro nacks hread
        obtain ⟨rest, hrest, rfl⟩ := Option.map_eq_some_iff.mp hread
        exact Nat.succ_le_succ (Nat.succ_le_succ (Nat.succ_le_succ (ih hrest)))
  | case2 =>
      rintro nacks ⟨⟩
      exact Nat.succ_le_succ (Nat.succ_le_succ (Nat.succ_le_succ (Nat.zero_le _)))
  | case3 => nofun
  | case4 =>
      rintro nacks ⟨⟩
      exact Nat.succ_le_succ (Nat.zero_le _)
  | case5 => nofun

theorem deserializeData_le {start byte1 : Nat} {bytes : List UInt8} {header : LteRlcAmHeader}
    (hread : deserializeData start byte1 bytes = some header) :
    header.headerLength ≤ bytes.length + 1 := by
  rw [deserializeData.eq_def] at hread
  split at hread
  next byte2 byte3 byte4 bytes =>
    simp only at hread
    split at hread
    next =>
      obtain rfl := Option.some.inj hread
      exact Nat.le_add_left 4 bytes.length
    next =>
      obtain ⟨fields, hfields, rfl⟩ := Option.map_eq_some_iff.mp hread
      have := LteRlcHeader.deserializeFields_le bytes hfields
      show 4 + fields.2.2 ≤ bytes.length + 1 + 1 + 1 + 1
      omega
  next => cases hread

theorem deserializeControl_le {byte1 : Nat} {bytes : List UInt8} {header : LteRlcAmHeader}
    (hread : deserializeControl byte1 bytes = some header) :
    header.headerLength ≤ bytes.length + 1 := by
  rw [deserializeControl.eq_def] at hread
  split at hread
  next byte2 bytes =>
    simp only at hread
    split at hread
    next =>
      split at hread
      next byte3 byte4 bytes =>
        split at hread
        next =>
          obtain ⟨nacks, hnacks, rfl⟩ := Option.map_eq_some_iff.mp hread
          have := deserializeNacks_le _ bytes hnacks
          show 4 + nacks.2 ≤ bytes.length + 1 + 1 + 1 + 1
          omega
        next =>
          obtain rfl := Option.some.inj hread
          exact Nat.le_add_left 4 bytes.length
      next => cases hread
    next =>
      obtain rfl := Option.some.inj hread
      exact Nat.le_add_left 2 bytes.length
  next => cases hread

/-- A header that is read is in the packet. -/
theorem getSerializedSize_le {packet : List UInt8} {header : LteRlcAmHeader}
    (hread : deserialize packet = some header) : header.getSerializedSize ≤ packet.length := by
  refine (Nat.mod_le _ _).trans ?_
  cases packet with
  | nil => cases hread
  | cons byte1 bytes =>
      rw [deserialize] at hread
      split at hread
      · exact deserializeData_le hread
      · exact deserializeControl_le hread

end LteRlcAmHeader

namespace AmTransmitter

/-! ## The property -/

/-- How far a number is above VT(A). -/
def distance (tx : AmTransmitter) (value : Nat) : Nat := (value + 1024 - tx.vtA.value) % 1024

/-- The unit with a key is from VT(A) to VT(S) and not acknowledged. -/
def Unacknowledged (tx : AmTransmitter) (key : Nat) : Prop :=
  tx.distance key < tx.distance tx.vtS.value ∧
    ((tx.txedBuffer key).isSome = true ∨ (tx.retxBuffer key).isSome = true)

/-- No unit is considered for retransmission. -/
def RetxEmpty (tx : AmTransmitter) : Prop := ∀ key < 1024, tx.retxBuffer key = none

/-- Units wait for a STATUS unit, and nothing is left to send; or the window is stalled, and nothing
is left to send again. -/
def Waits (tx : AmTransmitter) : Prop :=
  ((∃ key < 1024, tx.Unacknowledged key) ∧ tx.txonBuffer = [] ∧ tx.RetxEmpty) ∨
    (tx.vtS.value = tx.vtMs.value ∧ tx.RetxEmpty)

def NoSilentStall (tx : AmTransmitter) : Prop := tx.Waits → tx.pollRetransmitTimer = true

/-! ## The condition -/

/-- A STATUS unit acknowledges the number of a unit or reports it missing. -/
def Covers (tx : AmTransmitter) (rlcAmHeader : LteRlcAmHeader) (key : Nat) : Prop :=
  tx.distance key < tx.distance rlcAmHeader.ackSn ∧ tx.distance key < tx.distance tx.vtS.value

/-- t-PollRetransmit is not running, and a STATUS unit that reports no unit missing acknowledges all
that is left to send, but not all that was sent. -/
structure Strands (tx : AmTransmitter) (rlcAmHeader : LteRlcAmHeader) : Prop where
  timer : tx.pollRetransmitTimer = false
  txonBuffer : tx.txonBuffer = []
  someRetx : ∃ key < 1024, (tx.retxBuffer key).isSome = true
  retx : ∀ key < 1024, (tx.retxBuffer key).isSome = true → tx.Covers rlcAmHeader key
  noNack : ∀ key < 1024, tx.Covers rlcAmHeader key → rlcAmHeader.isNackPresent key = false
  someTxed : ∃ key < 1024, (tx.txedBuffer key).isSome = true ∧ ¬ tx.Covers rlcAmHeader key

/-- The event is no STATUS unit that leaves the bearer stuck. -/
def Keeps (tx : AmTransmitter) : TxEvent → Prop
  | .pdu packet =>
      ∀ rlcAmHeader ∈ LteRlcAmHeader.deserialize packet,
        rlcAmHeader.dataControlBit ≠ LteRlcAmHeader.DATA_PDU → ¬ tx.Strands rlcAmHeader
  | _ => True

/-! ## Sizes of buffers -/

def slotSize (slot : Option (List UInt8)) : Nat := slot.elim 0 List.length

@[simp]
theorem slotSize_none : slotSize none = 0 := rfl

@[simp]
theorem slotSize_some (stored : List UInt8) : slotSize (some stored) = stored.length := rfl

/-- The bytes of all units in a buffer. -/
def totalSize (buffer : Nat → Option (List UInt8)) : Nat :=
  ∑ key ∈ Finset.range 1024, slotSize (buffer key)

theorem totalSize_update (buffer : Nat → Option (List UInt8)) {key : Nat} (hkey : key < 1024)
    (slot : Option (List UInt8)) :
    totalSize (Function.update buffer key slot) + slotSize (buffer key) =
      totalSize buffer + slotSize slot := by
  have hmem := Finset.mem_range.mpr hkey
  have hold := Finset.add_sum_erase (Finset.range 1024) (fun other => slotSize (buffer other)) hmem
  have hnew := Finset.add_sum_erase (Finset.range 1024)
    (fun other => slotSize (Function.update buffer key slot other)) hmem
  have hothers : ∑ other ∈ (Finset.range 1024).erase key,
      slotSize (Function.update buffer key slot other) =
        ∑ other ∈ (Finset.range 1024).erase key, slotSize (buffer other) :=
    Finset.sum_congr rfl fun other hother => by
      rw [Function.update_of_ne (Finset.ne_of_mem_erase hother)]
  rw [Function.update_self, hothers] at hnew
  rw [totalSize, totalSize, ← hold, ← hnew]
  omega

theorem totalSize_eq_zero {buffer : Nat → Option (List UInt8)}
    (hempty : ∀ key < 1024, buffer key = none) : totalSize buffer = 0 :=
  Finset.sum_eq_zero fun key hmem => by
    rw [hempty key (Finset.mem_range.mp hmem)]
    rfl

/-! ## What runs keep -/

/-- The numbers of the window: VT(A) is `a`, VT(S) is `s`. -/
structure Window (tx : AmTransmitter) (a s : Nat) : Prop where
  windowSize : tx.windowSize = 512
  vtA : tx.vtA.Stands a a
  vtMs : tx.vtMs.Stands a ((a + 512 : Nat) : Int)
  vtS : tx.vtS.Stands a s
  le : a ≤ s
  le_add : s ≤ a + 512

/-- The buffers have units from VT(A) to VT(S) only, each of them in one of the buffers. -/
structure Slots (txedBuffer retxBuffer : Nat → Option (List UInt8)) (a s : Nat) : Prop where
  txed : ∀ key, (txedBuffer key).isSome = true → ∃ number, a ≤ number ∧ number < s ∧ key = number % 1024
  retx : ∀ key, (retxBuffer key).isSome = true → ∃ number, a ≤ number ∧ number < s ∧ key = number % 1024
  apart : ∀ key, (txedBuffer key).isSome = true → retxBuffer key = none

structure Holding (tx : AmTransmitter) (a s : Nat) : Prop where
  window : tx.Window a s
  slots : Slots tx.txedBuffer tx.retxBuffer a s
  retxBufferSize : tx.retxBufferSize = UInt32.ofNat (totalSize tx.retxBuffer)
  txonBufferSize : tx.txonBufferSize = UmTransmitter.sizeOf (bytesOf tx.txonBuffer)
  pollPdu : tx.pollPdu = 1
  pduWithoutPoll : tx.pduWithoutPoll = 0
  pollSn : tx.pollRetransmitTimer = true → tx.pollSn.value = (s + 1023) % 1024

/-- A stalled window has a unit that is not acknowledged. -/
def Open (tx : AmTransmitter) (a s : Nat) : Prop :=
  s = a + 512 → ∃ key, (tx.txedBuffer key).isSome = true ∨ (tx.retxBuffer key).isSome = true

section Holding

variable {tx : AmTransmitter} {a s : Nat}

theorem Slots.key_lt {txedBuffer retxBuffer : Nat → Option (List UInt8)}
    (slots : Slots txedBuffer retxBuffer a s) {key : Nat}
    (hsome : (txedBuffer key).isSome = true ∨ (retxBuffer key).isSome = true) :
    ∃ number, a ≤ number ∧ number < s ∧ key = number % 1024 := by
  rcases hsome with htxed | hretx
  · exact slots.txed key htxed
  · exact slots.retx key hretx

/-- How far the numbers of the window are above VT(A). -/
theorem Window.distance_eq (window : tx.Window a s) {number : Nat} (hlow : a ≤ number)
    (hhigh : number < a + 1024) : tx.distance (number % 1024) = number - a := by
  have hvalue := window.vtA.value
  rw [distance]
  omega

theorem Window.vtS_distance (window : tx.Window a s) : tx.distance tx.vtS.value = s - a := by
  have hvalue : tx.vtS.value = s % 1024 := by
    have := window.vtS.value
    omega
  have := window.le_add
  rw [hvalue, window.distance_eq window.le (by omega)]

theorem Window.stalled_iff (window : tx.Window a s) :
    tx.vtS.value = tx.vtMs.value ↔ s = a + 512 := by
  have := window.le
  have := window.le_add
  rw [window.vtS.value_eq_iff window.vtMs (by omega) (by omega) (by omega) (by omega)]
  exact Nat.cast_inj

/-- What a stuck bearer is: something was sent, nothing is left to send again, and nothing new can be
sent. -/
theorem Holding.noSilentStall_iff (holding : tx.Holding a s) (hopen : tx.Open a s) :
    tx.NoSilentStall ↔ (tx.RetxEmpty → (∃ key, (tx.txedBuffer key).isSome = true) →
      (tx.txonBuffer = [] ∨ s = a + 512) → tx.pollRetransmitTimer = true) := by
  have hwindow := holding.window.le_add
  have hnone : tx.RetxEmpty → ∀ key, ¬ (tx.retxBuffer key).isSome = true := by
    intro hempty key hsome
    obtain ⟨number, -, -, rfl⟩ := holding.slots.retx key hsome
    rw [hempty _ (Nat.mod_lt _ (by omega))] at hsome
    cases hsome
  rw [NoSilentStall, Waits, holding.window.stalled_iff]
  constructor
  · rintro hwaits hempty ⟨key, hkey⟩ (htxon | hfull)
    · obtain ⟨number, hlow, hhigh, rfl⟩ := holding.slots.txed key hkey
      refine hwaits (.inl ⟨⟨number % 1024, Nat.mod_lt _ (by omega), ?_, .inl hkey⟩, htxon, hempty⟩)
      rw [holding.window.vtS_distance, holding.window.distance_eq hlow (by omega)]
      omega
    · exact hwaits (.inr ⟨hfull, hempty⟩)
  · rintro hstuck (⟨⟨key, -, -, hkey⟩, htxon, hempty⟩ | ⟨hfull, hempty⟩)
    · exact hstuck hempty ⟨key, hkey.resolve_right (hnone hempty key)⟩ (.inl htxon)
    · obtain ⟨key, hkey⟩ := hopen hfull
      exact hstuck hempty ⟨key, hkey.resolve_right (hnone hempty key)⟩ (.inr hfull)

/-! ## Units moved between the buffers -/

theorem Slots.update {txedBuffer retxBuffer : Nat → Option (List UInt8)} {key : Nat}
    (slots : Slots txedBuffer retxBuffer a s) {txed retx : Option (List UInt8)}
    (hkey : txed.isSome = true ∨ retx.isSome = true →
      ∃ number, a ≤ number ∧ number < s ∧ key = number % 1024)
    (hapart : txed.isSome = true → retx = none) :
    Slots (Function.update txedBuffer key txed) (Function.update retxBuffer key retx) a s := by
  refine ⟨fun other hsome => ?_, fun other hsome => ?_, fun other hsome => ?_⟩
  all_goals rw [Function.update_apply] at hsome
  all_goals split at hsome
  next heq => exact heq ▸ hkey (.inl hsome)
  next hne => exact slots.txed other hsome
  next heq => exact heq ▸ hkey (.inr hsome)
  next hne => exact slots.retx other hsome
  next heq => rw [Function.update_apply, if_pos heq, hapart hsome]
  next hne => rw [Function.update_apply, if_neg hne, slots.apart other hsome]

/-- The unit at VT(S) is stored. -/
theorem Slots.push {txedBuffer retxBuffer : Nat → Option (List UInt8)}
    (slots : Slots txedBuffer retxBuffer a s) (hle : a ≤ s) (hless : s < a + 512) {key : Nat}
    (hkey : key = s % 1024) (stored : List UInt8) :
    Slots (Function.update txedBuffer key (some stored)) retxBuffer a (s + 1) := by
  have hmore : ∀ {other : Nat}, (∃ number, a ≤ number ∧ number < s ∧ other = number % 1024) →
      other ≠ key ∧ ∃ number, a ≤ number ∧ number < s + 1 ∧ other = number % 1024 := by
    rintro other ⟨number, hlow, hhigh, rfl⟩
    exact ⟨by omega, number, hlow, by omega, rfl⟩
  refine ⟨fun other hsome => ?_, fun other hsome => (hmore (slots.retx other hsome)).2,
    fun other hsome => ?_⟩
  all_goals rw [Function.update_apply] at hsome
  all_goals split at hsome
  next heq => exact ⟨s, hle, Nat.lt_succ_self s, heq.trans hkey⟩
  next hne => exact (hmore (slots.txed other hsome)).2
  next heq =>
    by_contra hother
    exact (hmore (slots.retx other (Option.isSome_iff_ne_none.mpr hother))).1 heq
  next hne => exact slots.apart other hsome

theorem ofNat_totalSize {retxBuffer : Nat → Option (List UInt8)} {key : Nat} (hkey : key < 1024)
    {stored : List UInt8} (hfree : retxBuffer key = none) :
    UInt32.ofNat (totalSize (Function.update retxBuffer key (some stored))) =
      UInt32.ofNat (totalSize retxBuffer) + UmTransmitter.sizeOf stored := by
  have hsize := totalSize_update retxBuffer hkey (some stored)
  rw [hfree, slotSize_none, slotSize_some, Nat.add_zero] at hsize
  rw [hsize, UInt32.ofNat_add, UmTransmitter.sizeOf]

theorem ofNat_totalSize_erase {retxBuffer : Nat → Option (List UInt8)} {key : Nat}
    (hkey : key < 1024) {stored : List UInt8} (hslot : retxBuffer key = some stored) :
    UInt32.ofNat (totalSize retxBuffer) - UmTransmitter.sizeOf stored =
      UInt32.ofNat (totalSize (Function.update retxBuffer key none)) := by
  have hsize := totalSize_update retxBuffer hkey none
  rw [hslot, slotSize_none, slotSize_some, Nat.add_zero] at hsize
  rw [← hsize, UInt32.ofNat_add, UmTransmitter.sizeOf, UInt32.add_sub_cancel]

/-- A transmitted unit is considered for retransmission. -/
theorem Holding.toRetx (holding : tx.Holding a s) {key : Nat} {stored : List UInt8}
    (hslot : tx.txedBuffer key = some stored) : (tx.toRetx key stored).Holding a s := by
  have hsome : (tx.txedBuffer key).isSome = true := by rw [hslot]; rfl
  obtain ⟨number, hlow, hhigh, hkey⟩ := holding.slots.txed key hsome
  exact
    { window := ⟨holding.window.windowSize, holding.window.vtA, holding.window.vtMs,
        holding.window.vtS, holding.window.le, holding.window.le_add⟩
      slots := holding.slots.update (fun _ => ⟨number, hlow, hhigh, hkey⟩) nofun
      retxBufferSize := by
        rw [AmTransmitter.toRetx, ofNat_totalSize (by omega) (holding.slots.apart key hsome),
          ← holding.retxBufferSize]
      txonBufferSize := holding.txonBufferSize
      pollPdu := holding.pollPdu
      pduWithoutPoll := holding.pduWithoutPoll
      pollSn := holding.pollSn }

theorem Holding.answerPoll (holding : tx.Holding a s) (key : Nat) :
    (tx.answerPoll key).Holding a s := by
  rw [AmTransmitter.answerPoll]
  split
  next => exact
    { window := ⟨holding.window.windowSize, holding.window.vtA, holding.window.vtMs,
        holding.window.vtS, holding.window.le, holding.window.le_add⟩
      slots := holding.slots
      retxBufferSize := holding.retxBufferSize
      txonBufferSize := holding.txonBufferSize
      pollPdu := holding.pollPdu
      pduWithoutPoll := holding.pduWithoutPoll
      pollSn := nofun }
  next => exact holding

/-- VT(A) moves when the unit there is in none of the buffers. -/
theorem Holding.moveVtA (holding : tx.Holding a s) (hlt : a < s)
    (htxed : tx.txedBuffer (a % 1024) = none) (hretx : tx.retxBuffer (a % 1024) = none) :
    tx.moveVtA.Holding (a + 1) s := by
  have hnext : (tx.vtA.next.value : Int) = ((a + 1 : Nat) : Int) % 1024 := by
    have := holding.window.vtA.next.value
    push_cast
    exact this
  have hle := holding.window.le_add
  have hmore : ∀ {buffer : Nat → Option (List UInt8)} {key : Nat}, buffer (a % 1024) = none →
      (buffer key).isSome = true → (∃ number, a ≤ number ∧ number < s ∧ key = number % 1024) →
      ∃ number, a + 1 ≤ number ∧ number < s ∧ key = number % 1024 := by
    rintro buffer key hfree hsome ⟨number, hlow, hhigh, rfl⟩
    rcases Nat.eq_or_lt_of_le hlow with rfl | hless
    · rw [hfree] at hsome
      cases hsome
    · exact ⟨number, hless, hhigh, rfl⟩
  exact
    { window :=
        { windowSize := holding.window.windowSize
          vtA := ⟨hnext, hnext⟩
          vtMs := by
            refine ⟨?_, hnext⟩
            have hadd := (holding.window.vtA.next.add tx.windowSize).value
            rw [holding.window.windowSize] at hadd
            show ((tx.vtA.next.add tx.windowSize).value : Int) = _
            rw [holding.window.windowSize, hadd]
            push_cast
            rfl
          vtS := holding.window.vtS.setModulusBase hnext
          le := hlt
          le_add := by omega }
      slots :=
        { txed := fun key hsome => hmore htxed hsome (holding.slots.txed key hsome)
          retx := fun key hsome => hmore hretx hsome (holding.slots.retx key hsome)
          apart := holding.slots.apart }
      retxBufferSize := holding.retxBufferSize
      txonBufferSize := holding.txonBufferSize
      pollPdu := holding.pollPdu
      pduWithoutPoll := holding.pduWithoutPoll
      pollSn := holding.pollSn }

/-! ## One number of a STATUS unit -/

/-- What the loop does for the unit with a key: it is not waited for any longer, and considered for
retransmission when it is missing. -/
structure Settles (tx next : AmTransmitter) (key : Nat) (missing : Bool) : Prop where
  txed : ∀ other, next.txedBuffer other = if other = key then none else tx.txedBuffer other
  retx : (next.retxBuffer key).isSome = missing
  others : ∀ other, other ≠ key → next.retxBuffer other = tx.retxBuffer other
  txonBuffer : next.txonBuffer = tx.txonBuffer
  pollRetransmitTimer : next.pollRetransmitTimer = tx.pollRetransmitTimer

variable {next : AmTransmitter} {key : Nat}

theorem Holding.nack (holding : tx.Holding a s) (hnack : tx.nack key = some next) :
    next.Holding a s ∧ tx.Settles next key true := by
  rw [AmTransmitter.nack] at hnack
  cases hslot : tx.txedBuffer key with
  | some stored =>
      rw [hslot] at hnack
      obtain rfl := Option.some.inj hnack
      refine ⟨holding.toRetx hslot, fun other => Function.update_apply _ _ _ _, ?_,
        fun other hne => Function.update_of_ne hne _ _, rfl, rfl⟩
      show (Function.update tx.retxBuffer key (some stored) key).isSome = true
      rw [Function.update_self]
      rfl
  | none =>
      simp only [hslot] at hnack
      split at hnack
      next hsome =>
        obtain rfl := Option.some.inj hnack
        refine ⟨holding, fun other => ?_, hsome, fun _ _ => rfl, rfl, rfl⟩
        split
        next heq => rw [heq, hslot]
        next => rfl
      next => cases hnack

theorem Holding.ack (holding : tx.Holding a s) (hack : tx.ack key = some next) :
    next.Holding a s ∧ tx.Settles next key false := by
  rw [AmTransmitter.ack] at hack
  cases htxed : tx.txedBuffer key with
  | some stored =>
      have hretx := holding.slots.apart key (by rw [htxed]; rfl)
      simp only [htxed, hretx] at hack
      obtain rfl := Option.some.inj hack
      have hsame : Function.update tx.retxBuffer key none = tx.retxBuffer :=
        Function.update_eq_self_iff.mpr hretx.symm
      refine ⟨?_, fun other => Function.update_apply _ _ _ _, ?_, fun _ _ => rfl, rfl, rfl⟩
      · exact
          { window := ⟨holding.window.windowSize, holding.window.vtA, holding.window.vtMs,
              holding.window.vtS, holding.window.le, holding.window.le_add⟩
            slots := by
              have hslots := @Slots.update a s _ _ key holding.slots none none nofun nofun
              rw [hsame] at hslots
              exact hslots
            retxBufferSize := holding.retxBufferSize
            txonBufferSize := holding.txonBufferSize
            pollPdu := holding.pollPdu
            pduWithoutPoll := holding.pduWithoutPoll
            pollSn := holding.pollSn }
      · show (tx.retxBuffer key).isSome = false
        rw [hretx]
        rfl
  | none =>
      have hsame : Function.update tx.txedBuffer key none = tx.txedBuffer :=
        Function.update_eq_self_iff.mpr htxed.symm
      have hothers : ∀ other, tx.txedBuffer other =
          if other = key then none else tx.txedBuffer other := by
        intro other
        split
        next heq => rw [heq, htxed]
        next => rfl
      cases hretx : tx.retxBuffer key with
      | none =>
          simp only [htxed, hretx] at hack
          obtain rfl := Option.some.inj hack
          refine ⟨holding, hothers, ?_, fun _ _ => rfl, rfl, rfl⟩
          rw [hretx]
          rfl
      | some stored =>
          simp only [htxed, hretx] at hack
          obtain rfl := Option.some.inj hack
          obtain ⟨number, hlow, hhigh, hkey⟩ := holding.slots.retx key (by rw [hretx]; rfl)
          refine ⟨?_, hothers, ?_, fun other hne => Function.update_of_ne hne _ _, rfl, rfl⟩
          · exact
              { window := ⟨holding.window.windowSize, holding.window.vtA, holding.window.vtMs,
                  holding.window.vtS, holding.window.le, holding.window.le_add⟩
                slots := by
                  have hslots := @Slots.update a s _ _ key holding.slots none none nofun nofun
                  rw [hsame] at hslots
                  exact hslots
                retxBufferSize := by
                  rw [← ofNat_totalSize_erase (by omega) hretx, ← holding.retxBufferSize]
                txonBufferSize := holding.txonBufferSize
                pollPdu := holding.pollPdu
                pduWithoutPoll := holding.pduWithoutPoll
                pollSn := holding.pollSn }
          · show (Function.update tx.retxBuffer key none key).isSome = false
            rw [Function.update_self]
            rfl

end Holding

/-! ## STATUS units -/

/-- What a STATUS unit did up to number `n`, with VT(A) at `a'`: the units below `n` are settled, the
ones from `n` on are as they were. -/
structure Answered (tx next : AmTransmitter) (rlcAmHeader : LteRlcAmHeader) (a a' n s : Nat) :
    Prop where
  holding : next.Holding a' s
  low : a ≤ a'
  high : a' ≤ n
  first : a' < n → rlcAmHeader.isNackPresent (a' % 1024) = true
  covered : ∀ number, a ≤ number → number < n →
    next.txedBuffer (number % 1024) = none ∧
      (next.retxBuffer (number % 1024)).isSome = rlcAmHeader.isNackPresent (number % 1024)
  rest : ∀ number, n ≤ number → number < s →
    next.txedBuffer (number % 1024) = tx.txedBuffer (number % 1024) ∧
      next.retxBuffer (number % 1024) = tx.retxBuffer (number % 1024)
  txonBuffer : next.txonBuffer = tx.txonBuffer
  pollRetransmitTimer : next.pollRetransmitTimer = true ↔
    tx.pollRetransmitTimer = true ∧ (n < s ∨ n = a)

section Answered

variable {tx current next : AmTransmitter} {rlcAmHeader : LteRlcAmHeader} {a a' a'' n s : Nat}

/-- The timer runs on when the poll is not answered. -/
theorem Holding.answerPoll_timer (holding : current.Holding a s) (hlow : a ≤ n) (hhigh : n < s) :
    (current.answerPoll (n % 1024)).pollRetransmitTimer = true ↔
      current.pollRetransmitTimer = true ∧ n + 1 < s := by
  have hwindow := holding.window.le_add
  have hpollSn := holding.pollSn
  rw [AmTransmitter.answerPoll]
  split
  next hanswered =>
    refine iff_of_false Bool.false_ne_true ?_
    rintro ⟨htimer, hmore⟩
    have := hpollSn htimer
    have := hanswered.2
    omega
  next hother =>
    refine ⟨fun htimer => ⟨htimer, ?_⟩, And.left⟩
    by_contra hlast
    have := hpollSn htimer
    exact hother ⟨htimer, by omega⟩

/-- The loop settles one number more. -/
theorem Answered.succ (answered : tx.Answered current rlcAmHeader a a' n s) (hhigh : n < s)
    (hsn : s ≤ a + 512) (holding : next.Holding a'' s) (hlow' : a ≤ a'') (hhigh' : a'' ≤ n + 1)
    (hfirst : a'' < n + 1 → rlcAmHeader.isNackPresent (a'' % 1024) = true)
    (settles : (current.answerPoll (n % 1024)).Settles next (n % 1024)
      (rlcAmHeader.isNackPresent (n % 1024))) :
    tx.Answered next rlcAmHeader a a'' (n + 1) s := by
  have hsame : (current.answerPoll (n % 1024)).txedBuffer = current.txedBuffer ∧
      (current.answerPoll (n % 1024)).retxBuffer = current.retxBuffer ∧
      (current.answerPoll (n % 1024)).txonBuffer = current.txonBuffer := by
    rw [AmTransmitter.answerPoll]
    split <;> exact ⟨rfl, rfl, rfl⟩
  obtain ⟨htxed, hretx, htxon⟩ := hsame
  have hlow := answered.low.trans answered.high
  refine ⟨holding, hlow', hhigh', hfirst, fun number hge hlt => ?_, fun number hge hlt => ?_,
    settles.txonBuffer.trans (htxon.trans answered.txonBuffer), ?_⟩
  · rw [settles.txed, htxed]
    rcases Nat.eq_or_lt_of_le (Nat.le_of_lt_succ hlt) with rfl | hless
    · exact ⟨if_pos rfl, settles.retx⟩
    · have hne : number % 1024 ≠ n % 1024 := by omega
      rw [if_neg hne, settles.others _ hne, hretx]
      exact answered.covered number hge hless
  · have hne : number % 1024 ≠ n % 1024 := by omega
    rw [settles.txed, htxed, if_neg hne, settles.others _ hne, hretx]
    exact answered.rest number (by omega) hlt
  · rw [settles.pollRetransmitTimer,
      answered.holding.answerPoll_timer answered.high hhigh, answered.pollRetransmitTimer]
    constructor
    · rintro ⟨⟨htimer, -⟩, hmore⟩
      exact ⟨htimer, .inl hmore⟩
    · rintro ⟨htimer, hmore⟩
      exact ⟨⟨htimer, .inl hhigh⟩, by omega⟩

/-- The loop settles all numbers below the acknowledged one and VT(S). -/
theorem Answered.acknowledge (hwindow : s ≤ a + 512) {ack : Nat} (hack : ack < a + 1024)
    (fuel : Nat) :
    ∀ {current : AmTransmitter} {sn ackSn : SequenceNumber10} {a' n : Nat} {incrementVtA : Bool},
      tx.Answered current rlcAmHeader a a' n s → sn.Stands a' n → ackSn.Stands a' ack →
      n ≤ ack → n ≤ s → min ack s ≤ n + fuel → (incrementVtA = true ↔ a' = n) →
      AmTransmitter.acknowledge rlcAmHeader fuel sn ackSn incrementVtA current = some next →
      ∃ last, tx.Answered next rlcAmHeader a last (min ack s) s := by
  induction fuel with
  | zero =>
      intro current sn ackSn a' n incrementVtA answered hsn hackSn hle hles hfuel hincrement hloop
      obtain rfl := Option.some.inj hloop
      obtain rfl : n = min ack s := by omega
      exact ⟨a', answered⟩
  | succ fuel ih =>
      intro current sn ackSn a' n incrementVtA answered hsn hackSn hle hles hfuel hincrement hloop
      have hlow := answered.low
      have hhigh := answered.high
      have hkey : sn.value = n % 1024 := by
        have := hsn.value
        omega
      have hmore := hsn.lt_iff hackSn (by omega) (by omega) (by omega) (by omega)
      have hsent := hsn.lt_iff answered.holding.window.vtS (by omega) (by omega) (by omega)
        (by omega)
      have hnext : sn.next.Stands a' ((n + 1 : Nat) : Int) := by
        push_cast
        exact hsn.next
      rw [AmTransmitter.acknowledge, hkey] at hloop
      split at hloop
      next hin =>
        have hless : n < ack := by
          have := hmore.mp hin.1
          omega
        have hhigh' : n < s := by
          have := hsent.mp hin.2
          omega
        split at hloop
        next => cases hloop
        next =>
          have hpolled := answered.holding.answerPoll (n % 1024)
          split at hloop
          next hmissing =>
            obtain ⟨settled, hnack, hrest⟩ := Option.bind_eq_some_iff.mp hloop
            obtain ⟨holding, settles⟩ := hpolled.nack hnack
            rw [← hmissing] at settles
            have hanswered : tx.Answered settled rlcAmHeader a a' (n + 1) s := by
              refine answered.succ hhigh' hwindow holding hlow (by omega) (fun hlt => ?_) settles
              rcases Nat.eq_or_lt_of_le hhigh with rfl | hlater
              · exact hmissing
              · exact answered.first hlater
            exact ih hanswered hnext hackSn hless hhigh' (by omega)
              (iff_of_false Bool.false_ne_true (by omega)) hrest
          next hpresent =>
            have hpresent := Bool.not_eq_true _ ▸ hpresent
            obtain ⟨settled, hack', hrest⟩ := Option.bind_eq_some_iff.mp hloop
            obtain ⟨holding, settles⟩ := hpolled.ack hack'
            rw [← hpresent] at settles
            split at hrest
            next hincrements =>
              obtain rfl := hincrement.mp hincrements
              have hretx : settled.retxBuffer (a' % 1024) = none := by
                rw [← Option.not_isSome_iff_eq_none, settles.retx, hpresent]
                exact Bool.false_ne_true
              have htxed : settled.txedBuffer (a' % 1024) = none := by
                rw [settles.txed, if_pos rfl]
              have hmoved := holding.moveVtA hhigh' htxed hretx
              have hanswered : tx.Answered settled.moveVtA rlcAmHeader a (a' + 1) (a' + 1) s :=
                answered.succ hhigh' hwindow hmoved (by omega) (Nat.le_refl _)
                  (fun hlt => absurd hlt (Nat.lt_irrefl _))
                  ⟨settles.txed, settles.retx, settles.others, settles.txonBuffer,
                    settles.pollRetransmitTimer⟩
              have hbase := hmoved.window.vtA.value
              exact ih hanswered (hnext.setModulusBase hbase) (hackSn.setModulusBase hbase) hless
                hhigh' (by omega) (iff_of_true rfl rfl) hrest
            next hstays =>
              have hne : a' ≠ n := fun heq => hstays (hincrement.mpr heq)
              have hanswered : tx.Answered settled rlcAmHeader a a' (n + 1) s :=
                answered.succ hhigh' hwindow holding hlow (by omega)
                  (fun _ => answered.first (by omega)) settles
              exact ih hanswered hnext hackSn hless hhigh' (by omega)
                (iff_of_false Bool.false_ne_true (by omega)) hrest
      next hout =>
        obtain rfl := Option.some.inj hloop
        have hends : ¬ (n < ack ∧ n < s) := by
          rintro ⟨hless, hhigh'⟩
          exact hout ⟨hmore.mpr (by omega), hsent.mpr (by omega)⟩
        obtain rfl : n = min ack s := by omega
        exact ⟨a', answered⟩

/-- A STATUS unit is answered up to the acknowledged number. -/
theorem Holding.receiveStatus (holding : tx.Holding a s)
    (hstatus : tx.receiveStatus rlcAmHeader = some next) :
    ∃ a' ack, a ≤ ack ∧ tx.distance rlcAmHeader.ackSn = ack - a ∧ ack < a + 1024 ∧
      tx.Answered next rlcAmHeader a a' (min ack s) s := by
  have hvalue := holding.window.vtA.value
  have hbase := holding.window.vtA.base
  have hsame : tx.withVtABases = tx := by
    have hsetBase : ∀ {sn : SequenceNumber10} {number : Int}, sn.Stands a number →
        sn.setModulusBase tx.vtA = sn := by
      intro sn number hsn
      have hsnBase := hsn.base
      rw [SequenceNumber10.setModulusBase]
      congr 1
      omega
    rw [withVtABases, hsetBase holding.window.vtA, hsetBase holding.window.vtS,
      hsetBase holding.window.vtMs]
  have hdistance : tx.distance rlcAmHeader.ackSn < 1024 := Nat.mod_lt _ (by omega)
  have hackSn : ((SequenceNumber10.ofValue rlcAmHeader.ackSn).setModulusBase tx.vtA).Stands a
      ((a + tx.distance rlcAmHeader.ackSn : Nat) : Int) := by
    refine ⟨?_, hvalue⟩
    show ((rlcAmHeader.ackSn % 1024 : Nat) : Int) = _
    rw [distance]
    omega
  have hle := holding.window.le
  have hstart : tx.Answered tx rlcAmHeader a a a s :=
    ⟨holding, Nat.le_refl _, Nat.le_refl _, fun hlt => absurd hlt (Nat.lt_irrefl _),
      fun _ hge hlt => absurd hlt (Nat.not_lt.mpr hge), fun _ _ _ => ⟨rfl, rfl⟩, rfl,
      ⟨fun htimer => ⟨htimer, .inr rfl⟩, And.left⟩⟩
  rw [AmTransmitter.receiveStatus, hsame] at hstatus
  obtain ⟨last, hanswered⟩ := Answered.acknowledge holding.window.le_add (by omega) 1024 hstart
    holding.window.vtA hackSn (by omega) hle (by omega) (iff_of_true rfl rfl) hstatus
  exact ⟨last, _, Nat.le_add_right _ _, by omega, by omega, hanswered⟩

/-- The units a STATUS unit covers are the ones below the acknowledged number and VT(S). -/
theorem Window.covers_iff (window : tx.Window a s) {ack number : Nat} (hge : a ≤ ack)
    (hdistance : tx.distance rlcAmHeader.ackSn = ack - a) (hlow : a ≤ number) (hhigh : number < s) :
    tx.Covers rlcAmHeader (number % 1024) ↔ number < min ack s := by
  have := window.le_add
  rw [Covers, window.vtS_distance, window.distance_eq hlow (by omega), hdistance]
  omega

/-- A STATUS unit leaves the bearer stuck exactly when it strands units. -/
theorem Answered.noSilentStall_iff (holding : tx.Holding a s) (hopen : tx.Open a s)
    (hgood : tx.NoSilentStall) {ack : Nat} (hge : a ≤ ack)
    (hdistance : tx.distance rlcAmHeader.ackSn = ack - a)
    (answered : tx.Answered next rlcAmHeader a a' (min ack s) s) :
    next.Open a' s ∧ (next.NoSilentStall ↔ ¬ tx.Strands rlcAmHeader) := by
  have hwindow := holding.window.le_add
  have hle := holding.window.le
  have hlow := answered.low
  have hhigh := answered.high
  have hcovers : ∀ {number : Nat}, a ≤ number → number < s →
      (tx.Covers rlcAmHeader (number % 1024) ↔ number < min ack s) :=
    fun hnumber hless => holding.window.covers_iff hge hdistance hnumber hless
  have hmissing : ∀ number, a ≤ number → number < min ack s →
      rlcAmHeader.isNackPresent (number % 1024) = true →
      (next.retxBuffer (number % 1024)).isSome = true := fun number hnumber hless hnack =>
    (answered.covered number hnumber hless).2.trans hnack
  have hnextOpen : next.Open a' s := by
    intro hfull
    obtain rfl : a' = a := by omega
    rcases Nat.eq_or_lt_of_le answered.high with hnone | hsome
    · obtain ⟨key, hkey⟩ := hopen hfull
      obtain ⟨number, hnumber, hless, rfl⟩ := holding.slots.key_lt hkey
      obtain ⟨htxed, hretx⟩ := answered.rest number (by omega) hless
      exact ⟨number % 1024, by rw [htxed, hretx]; exact hkey⟩
    · exact ⟨a' % 1024, .inr (hmissing a' (Nat.le_refl _) hsome (answered.first hsome))⟩
  refine ⟨hnextOpen, ?_⟩
  have hbefore := (holding.noSilentStall_iff hopen).mp hgood
  rw [answered.holding.noSilentStall_iff hnextOpen, answered.txonBuffer]
  constructor
  · rintro hstuck ⟨htimer, htxon, ⟨some, hsome, hretx⟩, hall, hnoNack, ⟨key, hkey, htxed, hnot⟩⟩
    have hempty : next.RetxEmpty := by
      intro other hother
      by_contra hne
      have hisSome := Option.isSome_iff_ne_none.mpr hne
      obtain ⟨number, hnumber, hless, rfl⟩ := answered.holding.slots.retx other hisSome
      have hin : number < min ack s := by
        by_contra hout
        obtain ⟨-, hsame⟩ := answered.rest number (Nat.le_of_not_lt hout) hless
        rw [hsame] at hisSome
        exact hout ((hcovers (hlow.trans hnumber) hless).mp (hall _ hother hisSome))
      have hnack := hnoNack _ hother ((hcovers (hlow.trans hnumber) hless).mpr hin)
      rw [(answered.covered number (hlow.trans hnumber) hin).2, hnack] at hisSome
      cases hisSome
    have hwaiting : ∃ key, (next.txedBuffer key).isSome = true := by
      obtain ⟨number, hnumber, hless, rfl⟩ := holding.slots.txed key htxed
      have hout : min ack s ≤ number := Nat.le_of_not_lt fun hin => hnot ((hcovers hnumber hless).mpr hin)
      exact ⟨number % 1024, by rw [(answered.rest number hout hless).1]; exact htxed⟩
    have htrue := answered.pollRetransmitTimer.mp (hstuck hempty hwaiting (.inl htxon))
    rw [htimer] at htrue
    exact Bool.false_ne_true htrue.1
  · intro hnot hempty hwaiting hstalls
    obtain ⟨key, htxed⟩ := hwaiting
    obtain ⟨number, hnumber, hless, rfl⟩ := answered.holding.slots.txed key htxed
    have hnumber := hlow.trans hnumber
    have hout : min ack s ≤ number := by
      by_contra hin
      rw [(answered.covered number hnumber (Nat.lt_of_not_le hin)).1] at htxed
      cases htxed
    have hold := htxed
    rw [(answered.rest number hout hless).1] at hold
    have hrest : ∀ other < 1024, (tx.retxBuffer other).isSome = true →
        tx.Covers rlcAmHeader other := by
      intro other hother hsome
      obtain ⟨covered, hcovered, hcoveredLess, rfl⟩ := holding.slots.retx other hsome
      refine (hcovers hcovered hcoveredLess).mpr ?_
      by_contra houtside
      obtain ⟨-, hsame⟩ := answered.rest covered (Nat.le_of_not_lt houtside) hcoveredLess
      rw [← hsame, hempty _ hother] at hsome
      cases hsome
    have hnoNack : ∀ other < 1024, tx.Covers rlcAmHeader other →
        rlcAmHeader.isNackPresent other = false := by
      intro other hother hcover
      have hdist : tx.distance other < s - a := by
        have := hcover.2
        rwa [holding.window.vtS_distance] at this
      have hvalue := holding.window.vtA.value
      obtain ⟨covered, hcovered, hcoveredLess, rfl⟩ :
          ∃ covered, a ≤ covered ∧ covered < s ∧ other = covered % 1024 := by
        refine ⟨a + tx.distance other, Nat.le_add_right _ _, by omega, ?_⟩
        rw [distance]
        omega
      have hin := (hcovers hcovered hcoveredLess).mp hcover
      rw [← (answered.covered covered hcovered hin).2, hempty _ hother]
      rfl
    by_contra htimer
    have hstopped : tx.pollRetransmitTimer = false := by
      by_contra hrunning
      exact htimer (answered.pollRetransmitTimer.mpr ⟨Bool.not_eq_false _ ▸ hrunning, by omega⟩)
    have hretx : ∃ key < 1024, (tx.retxBuffer key).isSome = true := by
      by_contra hnone
      have hallNone : tx.RetxEmpty := fun other hother =>
        Option.not_isSome_iff_eq_none.mp fun hsome => hnone ⟨other, hother, hsome⟩
      have hstalls' : tx.txonBuffer = [] ∨ s = a + 512 := hstalls.imp id fun hfull => by omega
      rw [hbefore hallNone ⟨_, hold⟩ hstalls'] at hstopped
      cases hstopped
    have htxon : tx.txonBuffer = [] := by
      refine hstalls.resolve_right fun hfull => ?_
      obtain rfl : a' = a := by omega
      obtain ⟨key, hkey, hsome⟩ := hretx
      obtain ⟨covered, hcovered, hcoveredLess, rfl⟩ := holding.slots.retx key hsome
      have hin := (hcovers hcovered hcoveredLess).mp (hrest _ hkey hsome)
      have hfirst := hmissing a' (Nat.le_refl _) (by omega) (answered.first (by omega))
      rw [hempty _ (Nat.mod_lt _ (by omega))] at hfirst
      cases hfirst
    exact hnot ⟨hstopped, htxon, hretx, hrest, hnoNack, ⟨number % 1024, Nat.mod_lt _ (by omega), hold,
      fun hcover => absurd ((hcovers hnumber hless).mp hcover) (Nat.not_lt.mpr hout)⟩⟩

end Answered

/-! ## t-PollRetransmit -/

section Steps

variable {tx next : AmTransmitter} {a s : Nat}

/-- The loop moves all units it reaches, and no unit is lost. -/
theorem Holding.moveToRetx (fuel : Nat) :
    ∀ {tx : AmTransmitter} {sn : SequenceNumber10} {n : Nat}, tx.Holding a s → sn.Stands a n →
      a ≤ n → n ≤ s → s ≤ n + fuel →
      (tx.moveToRetx fuel sn).Holding a s ∧
        (∀ key, tx.txedBuffer key = none → (tx.moveToRetx fuel sn).txedBuffer key = none) ∧
        (∀ number, n ≤ number → number < s →
          (tx.moveToRetx fuel sn).txedBuffer (number % 1024) = none) ∧
        ∀ key, (tx.txedBuffer key).isSome = true ∨ (tx.retxBuffer key).isSome = true →
          ((tx.moveToRetx fuel sn).txedBuffer key).isSome = true ∨
            ((tx.moveToRetx fuel sn).retxBuffer key).isSome = true := by
  induction fuel with
  | zero =>
      intro tx sn n holding hsn hlow hhigh hfuel
      exact ⟨holding, fun _ hnone => hnone, fun number hge hlt => by omega, fun _ hsome => hsome⟩
  | succ fuel ih =>
      intro tx sn n holding hsn hlow hhigh hfuel
      have hwindow := holding.window.le_add
      have hkey : sn.value = n % 1024 := by
        have := hsn.value
        omega
      have hsent := hsn.lt_iff holding.window.vtS (by omega) (by omega) (by omega) (by omega)
      have hnext : sn.next.Stands a ((n + 1 : Nat) : Int) := by
        push_cast
        exact hsn.next
      rw [AmTransmitter.moveToRetx, hkey]
      split
      next hless =>
        have hless : n < s := by
          have := hsent.mp hless
          omega
        have hrest : ∀ {current : AmTransmitter}, current.txedBuffer (n % 1024) = none →
            (∀ key, current.txedBuffer key = none →
              (current.moveToRetx fuel sn.next).txedBuffer key = none) →
            (∀ number, n + 1 ≤ number → number < s →
              (current.moveToRetx fuel sn.next).txedBuffer (number % 1024) = none) →
            ∀ number, n ≤ number → number < s →
              (current.moveToRetx fuel sn.next).txedBuffer (number % 1024) = none := by
          intro current hfree hkept hmoved number hge hlt
          rcases Nat.eq_or_lt_of_le hge with rfl | hlater
          · exact hkept _ hfree
          · exact hmoved number hlater hlt
        cases hslot : tx.txedBuffer (n % 1024) with
        | none =>
            obtain ⟨hholding, hkept, hmoved, hsome⟩ := ih holding hnext (by omega) hless (by omega)
            exact ⟨hholding, hkept, hrest hslot hkept hmoved, hsome⟩
        | some stored =>
            obtain ⟨hholding, hkept, hmoved, hsome⟩ :=
              ih (holding.toRetx hslot) hnext (by omega) hless (by omega)
            have hfree : (tx.toRetx (n % 1024) stored).txedBuffer (n % 1024) = none :=
              Function.update_self _ _ _
            refine ⟨hholding, fun key hnone => hkept key ?_, hrest hfree hkept hmoved,
              fun key hkey => hsome key ?_⟩
            · show Function.update tx.txedBuffer (n % 1024) none key = none
              rw [Function.update_apply, hnone, ite_self]
            · show (Function.update tx.txedBuffer (n % 1024) none key).isSome = true ∨
                (Function.update tx.retxBuffer (n % 1024) (some stored) key).isSome = true
              rw [Function.update_apply, Function.update_apply]
              split
              · exact .inr rfl
              · exact hkey
      next hends =>
        refine ⟨holding, fun _ hnone => hnone, fun number hge hlt => ?_, fun _ hsome => hsome⟩
        exact absurd (hsent.mpr (by omega)) hends

/-- When t-PollRetransmit expires, units are left to send, or all that wait are sent again. -/
theorem Holding.expirePollRetransmitTimer (holding : tx.Holding a s) (hopen : tx.Open a s)
    (hexpire : tx.expirePollRetransmitTimer = some next) :
    next.Holding a s ∧ next.Open a s ∧ next.NoSilentStall := by
  have hle := holding.window.le
  have hwindow := holding.window.le_add
  rw [AmTransmitter.expirePollRetransmitTimer] at hexpire
  split at hexpire
  next =>
    obtain rfl := Option.some.inj hexpire
    have hexpired : Holding { tx with
        pollRetransmitTimer := false
        pollRetransmitTimerJustExpired := true } a s :=
      { window := ⟨holding.window.windowSize, holding.window.vtA, holding.window.vtMs,
          holding.window.vtS, hle, hwindow⟩
        slots := holding.slots
        retxBufferSize := holding.retxBufferSize
        txonBufferSize := holding.txonBufferSize
        pollPdu := holding.pollPdu
        pduWithoutPoll := holding.pduWithoutPoll
        pollSn := nofun }
    split
    next hmoves =>
      obtain ⟨hholding, -, hmoved, hsome⟩ :=
        hexpired.moveToRetx 1024 hexpired.window.vtA (Nat.le_refl a) hle (by omega)
      have hnextOpen : ∀ {moved : AmTransmitter}, (∀ key, (tx.txedBuffer key).isSome = true ∨
          (tx.retxBuffer key).isSome = true → (moved.txedBuffer key).isSome = true ∨
            (moved.retxBuffer key).isSome = true) → moved.Open a s := by
        intro moved hkept hfull
        obtain ⟨key, hkey⟩ := hopen hfull
        exact ⟨key, hkept key hkey⟩
      refine ⟨hholding, hnextOpen hsome,
        (hholding.noSilentStall_iff (hnextOpen hsome)).mpr fun _ hwaiting _ => ?_⟩
      obtain ⟨key, hkey⟩ := hwaiting
      obtain ⟨number, hnumber, hless, rfl⟩ := hholding.slots.txed key hkey
      rw [hmoved number hnumber hless] at hkey
      cases hkey
    next hstays =>
      refine ⟨hexpired, hopen, (hexpired.noSilentStall_iff hopen).mpr fun hempty _ hstalls => ?_⟩
      refine absurd ?_ hstays
      rcases hstalls with htxon | hfull
      · have htxon : tx.txonBuffer = [] := htxon
        refine .inl ⟨?_, ?_⟩
        · show tx.txonBufferSize = 0
          rw [holding.txonBufferSize, htxon]
          rfl
        · show tx.retxBufferSize = 0
          rw [holding.retxBufferSize, totalSize_eq_zero hempty]
          rfl
      · exact .inr (hexpired.window.stalled_iff.mpr hfull)
  next => cases hexpire

/-! ## Opportunities -/

theorem Holding.poll (holding : tx.Holding a s) : tx.poll.Holding a s :=
  { window := ⟨holding.window.windowSize, holding.window.vtA, holding.window.vtMs,
      holding.window.vtS, holding.window.le, holding.window.le_add⟩
    slots := holding.slots
    retxBufferSize := holding.retxBufferSize
    txonBufferSize := holding.txonBufferSize
    pollPdu := holding.pollPdu
    pduWithoutPoll := rfl
    pollSn := fun _ => by
      have hvalue := (holding.window.vtS.sub 1).value
      show (tx.vtS.sub 1).value = _
      omega }

/-- A unit goes back to the transmitted ones. -/
theorem Holding.moveBack (holding : tx.Holding a s) {key : Nat} {stored : List UInt8}
    (hslot : tx.retxBuffer key = some stored) :
    Holding { tx with
      txedBuffer := Function.update tx.txedBuffer key (some stored)
      retxBuffer := Function.update tx.retxBuffer key none
      retxBufferSize := tx.retxBufferSize - UmTransmitter.sizeOf stored } a s := by
  obtain ⟨number, hlow, hhigh, hkey⟩ := holding.slots.retx key (by rw [hslot]; rfl)
  exact
    { window := ⟨holding.window.windowSize, holding.window.vtA, holding.window.vtMs,
        holding.window.vtS, holding.window.le, holding.window.le_add⟩
      slots := holding.slots.update (fun _ => ⟨number, hlow, hhigh, hkey⟩) fun _ => rfl
      retxBufferSize := by
        rw [← ofNat_totalSize_erase (by omega) hslot, ← holding.retxBufferSize]
      txonBufferSize := holding.txonBufferSize
      pollPdu := holding.pollPdu
      pduWithoutPoll := holding.pduWithoutPoll
      pollSn := holding.pollSn }

/-- The last unit considered for retransmission polls when nothing new is left to send. -/
theorem Holding.pollsWith_last (holding : tx.Holding a s) {key : Nat} {stored : List UInt8}
    (hslot : tx.retxBuffer key = some stored) (hlast : ∀ other < 1024,
      Function.update tx.retxBuffer key none other = none) (htxon : tx.txonBuffer = [])
    {rlcAmHeader : LteRlcAmHeader} (hread : LteRlcAmHeader.deserialize stored = some rlcAmHeader) :
    tx.PollsWith rlcAmHeader (stored.drop rlcAmHeader.getSerializedSize) := by
  obtain ⟨number, -, -, hkey⟩ := holding.slots.retx key (by rw [hslot]; rfl)
  have hsize := totalSize_update tx.retxBuffer (show key < 1024 by omega) none
  rw [totalSize_eq_zero hlast, hslot, slotSize_none, slotSize_some, Nat.zero_add,
    Nat.add_zero] at hsize
  have hle := LteRlcAmHeader.getSerializedSize_le hread
  refine .inl ⟨?_, ?_⟩
  · rw [htxon]
    rfl
  · rw [holding.retxBufferSize, ← hsize, UmTransmitter.sizeOf, ← UInt32.ofNat_add,
      List.length_drop, Nat.sub_add_cancel hle]

/-- After a retransmission the bearer polls, or units are left to send. -/
theorem Holding.resend (holding : tx.Holding a s) {key : Nat} {stored : List UInt8}
    (hslot : tx.retxBuffer key = some stored) {result : AmTransmitter × Option AmPdu}
    (hresend : tx.resend key stored = some result) :
    result.1.Holding a s ∧ result.1.Open a s ∧ result.1.NoSilentStall := by
  rw [AmTransmitter.resend] at hresend
  obtain ⟨rlcAmHeader, hread, rfl⟩ := Option.map_eq_some_iff.mp hresend
  by_cases hpolls : tx.PollsWith rlcAmHeader (stored.drop rlcAmHeader.getSerializedSize)
  · simp only [hpolls, decide_true, if_true]
    refine ⟨holding.poll.moveBack hslot, fun _ => ⟨key, .inl ?_⟩, fun _ => rfl⟩
    show (Function.update tx.txedBuffer key (some stored) key).isSome = true
    rw [Function.update_self]
    rfl
  · simp only [hpolls, decide_false, Bool.false_eq_true, if_false]
    have hback := holding.moveBack hslot
    have hopen : Open { tx with
        txedBuffer := Function.update tx.txedBuffer key (some stored)
        retxBuffer := Function.update tx.retxBuffer key none
        retxBufferSize := tx.retxBufferSize - UmTransmitter.sizeOf stored } a s := by
      refine fun _ => ⟨key, .inl ?_⟩
      show (Function.update tx.txedBuffer key (some stored) key).isSome = true
      rw [Function.update_self]
      rfl
    refine ⟨hback, hopen, (hback.noSilentStall_iff hopen).mpr fun hempty _ hstalls => ?_⟩
    refine absurd ?_ hpolls
    rcases hstalls with htxon | hfull
    · exact holding.pollsWith_last hslot hempty htxon hread
    · exact .inr (.inl (.inr (holding.window.stalled_iff.mpr hfull)))

/-- The loop finds a unit to send again. -/
theorem retransmit_cases {bytes : Nat} {result : AmTransmitter × Option AmPdu} (fuel : Nat) :
    ∀ {sn : SequenceNumber10}, tx.retransmit bytes fuel sn = some result →
      result.1 = tx ∨ ∃ key stored, tx.retxBuffer key = some stored ∧
        tx.resend key stored = some result := by
  induction fuel with
  | zero => nofun
  | succ fuel ih =>
      intro sn hloop
      rw [retransmit] at hloop
      split at hloop
      next =>
        cases hslot : tx.retxBuffer sn.value with
        | none =>
            rw [hslot] at hloop
            exact ih hloop
        | some stored =>
            simp only [hslot] at hloop
            split at hloop
            next => exact .inr ⟨sn.value, stored, hslot, hloop⟩
            next =>
              obtain rfl := Option.some.inj hloop
              exact .inl rfl
      next => cases hloop

/-- The counter of the buffer is the number of its bytes, modulo a word. -/
theorem fillDataField_counter (txonBuffer : List TxPdu) :
    ∀ {firstSegment : TxPdu} {nextSegmentSize nextSegmentId : Nat} {dataField : List TxPdu}
      {rlcAmHeader : LteRlcAmHeader} {txonBufferSize : UInt32},
      txonBufferSize = UmTransmitter.sizeOf (bytesOf txonBuffer) →
      (fillDataField firstSegment txonBuffer nextSegmentSize nextSegmentId dataField rlcAmHeader
        txonBufferSize).txonBufferSize =
        UmTransmitter.sizeOf (bytesOf (fillDataField firstSegment txonBuffer nextSegmentSize
          nextSegmentId dataField rlcAmHeader txonBufferSize).txonBuffer) := by
  have hback : ∀ {rest : List UInt8} {status : SduStatus} {buffer : List TxPdu} {size : UInt32},
      size = UmTransmitter.sizeOf (bytesOf buffer) →
      size + UmTransmitter.sizeOf rest =
        UmTransmitter.sizeOf (bytesOf (⟨rest, status⟩ :: buffer)) := by
    intro rest status buffer size hcounter
    rw [bytesOf_cons, sizeOf_add, hcounter, UInt32.add_comm]
  induction txonBuffer with
  | nil =>
      intro firstSegment nextSegmentSize nextSegmentId dataField rlcAmHeader txonBufferSize hcounter
      rw [fillDataField]
      split
      · exact hcounter
      · split
        · dsimp only
          split
          · exact hback hcounter
          · exact hcounter
        · exact hcounter
  | cons next txonBuffer ih =>
      intro firstSegment nextSegmentSize nextSegmentId dataField rlcAmHeader txonBufferSize hcounter
      have htaken : txonBufferSize - UmTransmitter.sizeOf next.pdu =
          UmTransmitter.sizeOf (bytesOf txonBuffer) := by
        rw [hcounter, bytesOf_cons, sizeOf_add, UInt32.add_comm, UInt32.add_sub_cancel]
      rw [fillDataField]
      split
      · exact hcounter
      · split
        · dsimp only
          split
          · exact hback hcounter
          · exact hcounter
        · split
          · exact hcounter
          · exact ih htaken

/-- A new unit polls, and is the last one below VT(S). -/
theorem Holding.sendNew (holding : tx.Holding a s) (hopen : tx.Open a s) (hgood : tx.NoSilentStall)
    {bytes : Nat} {result : AmTransmitter × Option AmPdu}
    (hsend : tx.sendNew bytes = some result) :
    ∃ s', result.1.Holding a s' ∧ result.1.Open a s' ∧ result.1.NoSilentStall := by
  have hle := holding.window.le
  have hwindow := holding.window.le_add
  rw [AmTransmitter.sendNew] at hsend
  cases hbuffer : tx.txonBuffer with
  | nil =>
      rw [hbuffer] at hsend
      obtain rfl := Option.some.inj hsend
      exact ⟨s, holding, hopen, hgood⟩
  | cons firstSegment txonBuffer =>
      have hcounter : tx.txonBufferSize - UmTransmitter.sizeOf firstSegment.pdu =
          UmTransmitter.sizeOf (bytesOf txonBuffer) := by
        rw [holding.txonBufferSize, hbuffer, bytesOf_cons, sizeOf_add, UInt32.add_comm,
          UInt32.add_sub_cancel]
      have hbuilt := @fillDataField_counter txonBuffer firstSegment (bytes - 4) 1 []
        (LteRlcAmHeader.setDataPdu {}) _ hcounter
      simp only [hbuffer] at hsend
      generalize fillDataField firstSegment txonBuffer (bytes - 4) 1 []
        (LteRlcAmHeader.setDataPdu {})
        (tx.txonBufferSize - UmTransmitter.sizeOf firstSegment.pdu) = building at hsend hbuilt
      cases hfirst : building.dataField.head? with
      | none =>
          simp only [hfirst] at hsend
          cases hsend
      | some first =>
          cases hlast : building.dataField.getLast? with
          | none =>
              simp only [hfirst, hlast] at hsend
              cases hsend
          | some last =>
              simp only [hfirst, hlast] at hsend
              split at hsend
              next hin =>
                have hless : s < a + 512 := by
                  have := (holding.window.vtS.lt_iff holding.window.vtMs (by omega) (by omega)
                    (by omega) (by omega)).mp hin.1
                  omega
                have hkey : tx.vtS.value = s % 1024 := by
                  have := holding.window.vtS.value
                  omega
                have hnext : tx.vtS.next.Stands a ((s + 1 : Nat) : Int) := by
                  push_cast
                  exact holding.window.vtS.next
                have hpolls : Polls { tx with
                    txonBuffer := building.txonBuffer
                    txonBufferSize := building.txonBufferSize
                    vtS := tx.vtS.next
                    pduWithoutPoll := tx.pduWithoutPoll + 1
                    byteWithoutPoll := tx.byteWithoutPoll +
                      UmTransmitter.sizeOf (building.dataField.map TxPdu.pdu).flatten } := by
                  refine .inl ?_
                  show tx.pollPdu ≤ tx.pduWithoutPoll + 1
                  rw [holding.pollPdu, holding.pduWithoutPoll]
                  decide
                simp only [hpolls, decide_true, if_true] at hsend
                obtain rfl := Option.some.inj hsend
                refine ⟨s + 1, ?_, fun _ => ⟨tx.vtS.value, .inl ?_⟩, fun _ => rfl⟩
                · exact
                    { window := ⟨holding.window.windowSize, holding.window.vtA,
                        holding.window.vtMs, hnext, by omega, by omega⟩
                      slots := holding.slots.push hle hless hkey _
                      retxBufferSize := holding.retxBufferSize
                      txonBufferSize := hbuilt
                      pollPdu := holding.pollPdu
                      pduWithoutPoll := rfl
                      pollSn := fun _ => by
                        have hvalue := (hnext.sub 1).value
                        show (tx.vtS.next.sub 1).value = _
                        omega }
                · show (Function.update tx.txedBuffer tx.vtS.value _ tx.vtS.value).isSome = true
                  rw [Function.update_self]
                  rfl
              next => cases hsend

theorem Holding.doNotifyTxOpportunity (holding : tx.Holding a s) (hopen : tx.Open a s)
    (hgood : tx.NoSilentStall) {bytes : Nat} {result : AmTransmitter × Option AmPdu}
    (hnotify : tx.doNotifyTxOpportunity bytes = some result) :
    ∃ s', result.1.Holding a s' ∧ result.1.Open a s' ∧ result.1.NoSilentStall := by
  have hsame : result.1 = tx →
      ∃ s', result.1.Holding a s' ∧ result.1.Open a s' ∧ result.1.NoSilentStall := by
    intro heq
    rw [heq]
    exact ⟨s, holding, hopen, hgood⟩
  have hstays : some (tx, none) = some result →
      ∃ s', result.1.Holding a s' ∧ result.1.Open a s' ∧ result.1.NoSilentStall :=
    fun heq => hsame (congrArg Prod.fst (Option.some.inj heq)).symm
  rw [AmTransmitter.doNotifyTxOpportunity] at hnotify
  split at hnotify
  · exact hstays hnotify
  · split at hnotify
    · split at hnotify
      · rcases retransmit_cases 1024 hnotify with heq | ⟨key, stored, hslot, hresend⟩
        · exact hsame heq
        · exact ⟨s, holding.resend hslot hresend⟩
      · cases hnotify
    · split at hnotify
      · split at hnotify
        · exact hstays hnotify
        · split at hnotify
          · split at hnotify
            · exact hstays hnotify
            · exact holding.sendNew hopen hgood hnotify
          · cases hnotify
      · exact hstays hnotify

/-! ## Units from above -/

theorem Holding.doTransmitPdcpPdu (holding : tx.Holding a s) (hopen : tx.Open a s)
    (hgood : tx.NoSilentStall) (sdu : List UInt8) :
    (tx.doTransmitPdcpPdu sdu).Holding a s ∧ (tx.doTransmitPdcpPdu sdu).Open a s ∧
      (tx.doTransmitPdcpPdu sdu).NoSilentStall := by
  rw [AmTransmitter.doTransmitPdcpPdu]
  split
  next =>
    refine ⟨?_, hopen, ?_⟩
    · exact
        { window := ⟨holding.window.windowSize, holding.window.vtA, holding.window.vtMs,
            holding.window.vtS, holding.window.le, holding.window.le_add⟩
          slots := holding.slots
          retxBufferSize := holding.retxBufferSize
          txonBufferSize := by
            rw [UmTransmitter.bytesOf_append, bytesOf_cons, UmTransmitter.bytesOf_nil,
              List.append_nil, sizeOf_add, ← holding.txonBufferSize]
          pollPdu := holding.pollPdu
          pduWithoutPoll := holding.pduWithoutPoll
          pollSn := holding.pollSn }
    · rintro (⟨-, htxon, -⟩ | hstalls)
      · exact absurd htxon (List.append_ne_nil_of_right_ne_nil _ (List.cons_ne_nil _ _))
      · exact hgood (.inr hstalls)
  next => exact ⟨holding, hopen, hgood⟩

/-! ## Runs -/

/-- What holds in every state, until a bearer gets stuck. -/
def Sound (tx : AmTransmitter) : Prop :=
  ∃ a s, tx.Holding a s ∧ tx.Open a s ∧ tx.NoSilentStall

theorem created_sound (maxTxBufferSize : UInt32) (alwaysBigEnough : Bool) :
    (created maxTxBufferSize alwaysBigEnough).Sound := by
  have holding : (created maxTxBufferSize alwaysBigEnough).Holding 0 0 :=
    { window := ⟨rfl, ⟨rfl, rfl⟩, ⟨rfl, rfl⟩, ⟨rfl, rfl⟩, Nat.le_refl 0, Nat.zero_le _⟩
      slots := ⟨nofun, nofun, nofun⟩
      retxBufferSize := (congrArg UInt32.ofNat (totalSize_eq_zero fun _ _ => rfl)).symm
      txonBufferSize := rfl
      pollPdu := rfl
      pduWithoutPoll := rfl
      pollSn := nofun }
  have hopen : (created maxTxBufferSize alwaysBigEnough).Open 0 0 := nofun
  refine ⟨0, 0, holding, hopen, (holding.noSilentStall_iff hopen).mpr ?_⟩
  rintro - ⟨key, hkey⟩
  cases hkey

/-- A step leaves the bearer stuck exactly when a STATUS unit strands units. -/
theorem Sound.step (sound : tx.Sound) {event : TxEvent} (hstep : tx.step event = some next) :
    (tx.Keeps event ∧ next.Sound ∧ next.NoSilentStall) ∨
      (¬ tx.Keeps event ∧ ¬ next.NoSilentStall) := by
  obtain ⟨a, s, holding, hopen, hgood⟩ := sound
  have hkeeps : (∃ s', next.Holding a s' ∧ next.Open a s' ∧ next.NoSilentStall) →
      next.Sound ∧ next.NoSilentStall := by
    rintro ⟨s', hholding, hopen', hgood'⟩
    exact ⟨⟨a, s', hholding, hopen', hgood'⟩, hgood'⟩
  cases event with
  | pdcpPdu sdu =>
      obtain rfl := Option.some.inj hstep
      exact .inl ⟨trivial, hkeeps ⟨s, holding.doTransmitPdcpPdu hopen hgood sdu⟩⟩
  | opportunity bytes =>
      obtain ⟨result, hnotify, rfl⟩ := Option.map_eq_some_iff.mp hstep
      exact .inl ⟨trivial, hkeeps (holding.doNotifyTxOpportunity hopen hgood hnotify)⟩
  | pollRetransmitExpires =>
      exact .inl ⟨trivial, hkeeps ⟨s, holding.expirePollRetransmitTimer hopen hstep⟩⟩
  | pdu packet =>
      obtain ⟨rlcAmHeader, hread, hreceive⟩ := Option.bind_eq_some_iff.mp hstep
      have hkeepsIff : tx.Keeps (.pdu packet) ↔
          (rlcAmHeader.dataControlBit ≠ LteRlcAmHeader.DATA_PDU → ¬ tx.Strands rlcAmHeader) := by
        rw [Keeps, hread]
        simp only [Option.mem_some_iff, forall_eq']
      rw [hkeepsIff]
      split at hreceive
      next hdata =>
        obtain rfl := Option.some.inj hreceive
        exact .inl ⟨fun hcontrol => absurd hdata hcontrol, hkeeps ⟨s, holding, hopen, hgood⟩⟩
      next hcontrol =>
        obtain ⟨a', ack, hge, hdistance, -, answered⟩ := holding.receiveStatus hreceive
        obtain ⟨hopen', hiff⟩ := answered.noSilentStall_iff holding hopen hgood hge hdistance
        by_cases hstrands : tx.Strands rlcAmHeader
        · exact .inr ⟨fun hall => hall hcontrol hstrands, fun hnext => hiff.mp hnext hstrands⟩
        · have hnext := hiff.mpr hstrands
          exact .inl ⟨fun _ => hstrands, ⟨a', s, answered.holding, hopen', hnext⟩, hnext⟩

/-- In no state of a run the bearer is stuck exactly when no STATUS unit strands units. -/
theorem run_noSilentStall_iff (maxTxBufferSize : UInt32) (alwaysBigEnough : Bool)
    {events : List TxEvent} {last : AmTransmitter}
    (hrun : runFrom AmTransmitter.step (created maxTxBufferSize alwaysBigEnough) events =
      some last) :
    (∀ before tx, before <+: events →
      runFrom AmTransmitter.step (created maxTxBufferSize alwaysBigEnough) before = some tx →
      tx.NoSilentStall) ↔
      Fitting AmTransmitter.step Keeps (created maxTxBufferSize alwaysBigEnough) events := by
  have sound := created_sound maxTxBufferSize alwaysBigEnough
  obtain ⟨-, -, -, -, hgood⟩ := id sound
  exact forall_reached_iff_fitting AmTransmitter.step Sound NoSilentStall
    (fun _ _ _ hsound hstep => hsound.step hstep) sound hgood hrun

/-- A STATUS unit as the peer sends it. -/
def statusUnit (ackSn : Nat) (nacks : List Nat) : TxEvent :=
  .pdu (nacks.foldl LteRlcAmHeader.pushNack
    ((LteRlcAmHeader.setControlPdu {} LteRlcAmHeader.STATUS_PDU).setAckSn ackSn)).serialize

/-- Three units are sent, and the first of them is sent again. -/
def answered : List TxEvent :=
  [.pdcpPdu [1], .opportunity 7, .pdcpPdu [2], .opportunity 7, .pdcpPdu [3], .opportunity 7,
    statusUnit 2 [0], .pollRetransmitExpires, .opportunity 7, statusUnit 3 []]

theorem run_noSilentStall_iff_answered :
    ∃ last, runFrom AmTransmitter.step (created 10240 false) answered = some last ∧
      ((∀ before tx, before <+: answered →
        runFrom AmTransmitter.step (created 10240 false) before = some tx → tx.NoSilentStall) ↔
        Fitting AmTransmitter.step Keeps (created 10240 false) answered) := by
  have hsome : (runFrom AmTransmitter.step (created 10240 false) answered).isSome = true := by
    decide +kernel
  obtain ⟨last, hrun⟩ := Option.isSome_iff_exists.mp hsome
  exact ⟨last, hrun, run_noSilentStall_iff 10240 false hrun⟩

/-- The first of three units is reported missing, but acknowledged before it is sent again: the third
one waits for a STATUS unit, and nothing asks for one. -/
theorem run_stalls :
    ∃ events tx, runFrom AmTransmitter.step (created 10240 false) events = some tx ∧
      (tx.txedBuffer 2).isSome = true ∧ ¬ tx.NoSilentStall := by
  have hresult : (runFrom AmTransmitter.step (created 10240 false)
      [.pdcpPdu [1], .opportunity 7, .pdcpPdu [2], .opportunity 7, .pdcpPdu [3], .opportunity 7,
        statusUnit 2 [0], .pollRetransmitExpires, statusUnit 2 []]).map (fun tx =>
      (decide (tx.distance 2 < tx.distance tx.vtS.value), (tx.txedBuffer 2).isSome, tx.txonBuffer,
        (List.range 1024).all (fun key => (tx.retxBuffer key).isNone),
        tx.pollRetransmitTimer)) = some (true, true, [], true, false) := by decide +kernel
  obtain ⟨tx, hrun, hresult⟩ := Option.map_eq_some_iff.mp hresult
  simp only [Prod.mk.injEq, decide_eq_true_eq, List.all_eq_true, List.mem_range,
    Option.isNone_iff_eq_none] at hresult
  obtain ⟨hbelow, htxed, htxon, hretx, htimer⟩ := hresult
  refine ⟨_, tx, hrun, htxed, fun hgood => ?_⟩
  rw [hgood (.inl ⟨⟨2, by decide, hbelow, .inl htxed⟩, htxon, hretx⟩)] at htimer
  cases htimer

end Steps

end AmTransmitter

end DeepcV2x.Rlc
