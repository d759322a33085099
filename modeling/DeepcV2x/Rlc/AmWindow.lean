import DeepcV2x.Rlc.AmReceive

/-!
# The receiving window

The buffer holds exactly the received units from VR(R) on, VR(R) and VR(MS) are
missing, and nothing at VR(H) or above it has been received; VR(H) is at most
the window above VR(R).
-/

namespace DeepcV2x.Rlc

open Foundation.Runs

namespace AmReceiver

/-- The numbers the variables stand for, counted from VR(R), and the units in the buffer. -/
structure Holding (rx : AmReceiver) (r ms h : Nat) (received : List Nat) : Prop where
  windowSize : rx.windowSize = 512
  vrR : rx.vrR.Stands r r
  vrMs : rx.vrMs.Stands r ms
  vrH : rx.vrH.Stands r h
  le_ms : r ≤ ms
  ms_le : ms ≤ h
  window : h ≤ r + 512
  complete_iff : ∀ key, rx.complete key = true ↔
    ∃ number ∈ received, r ≤ number ∧ number % 1024 = key
  stored : ∀ key pdu, rx.rxonBuffer key = some pdu → pdu.pduComplete = true
  below : ∀ number ∈ received, number < h
  passed : ∀ number < r, number ∈ received

section Window

variable {rx : AmReceiver} {r ms h : Nat} {received : List Nat}

/-- Numbers of the window are told apart by their keys. -/
theorem Holding.complete_mod (holding : Holding rx r ms h received) {number : Nat}
    (hlow : r ≤ number) (hhigh : number < r + 1024) :
    rx.complete (number % 1024) = true ↔ number ∈ received := by
  have hwindow := holding.window
  rw [holding.complete_iff]
  constructor
  · rintro ⟨other, hmem, hge, hmod⟩
    have hlt := holding.below other hmem
    obtain rfl : other = number := by omega
    exact hmem
  · exact fun hmem => ⟨number, hmem, hlow, rfl⟩

theorem Holding.isSome_iff (holding : Holding rx r ms h received) (key : Nat) :
    (rx.rxonBuffer key).isSome = true ↔ rx.complete key = true := by
  rw [complete]
  cases hpdu : rx.rxonBuffer key with
  | none => exact Iff.rfl
  | some pdu => exact iff_of_true rfl (holding.stored key pdu hpdu)

/-- What is inside the window, in numbers that do not wrap around. -/
theorem insideWindow_iff {seqNumber : SequenceNumber10} {number : Nat}
    (hvrR : (rx.vrR.value : Int) = (r : Int) % 1024) (hvrMr : rx.vrMr.value = (r + 512) % 1024)
    (hseq : seqNumber.value = number % 1024) (hlow : r ≤ number) (hhigh : number < r + 1024) :
    rx.InsideWindow seqNumber ↔ number < r + 512 := by
  have standsR : rx.withWindowBases.vrR.Stands r r := ⟨hvrR, hvrR⟩
  have standsMr : rx.withWindowBases.vrMr.Stands r ((r : Int) + 512) := by
    refine ⟨?_, hvrR⟩
    show (rx.vrMr.value : Int) = _
    omega
  have standsSn : (seqNumber.setModulusBase rx.vrR).Stands r number := by
    refine ⟨?_, hvrR⟩
    show (seqNumber.value : Int) = _
    omega
  rw [InsideWindow, standsR.le_iff standsSn (by omega) (by omega) (by omega) (by omega),
    standsSn.lt_iff standsMr (by omega) (by omega) (by omega) (by omega)]
  omega

/-! ## Steps -/

/-- A unit of the window is placed, and VR(H) is above it. -/
theorem Holding.arrive (holding : Holding rx r ms h received) {number : Nat} (hlow : r ≤ number)
    (hhigh : number < r + 512) {seqNumber : SequenceNumber10} (hseq : seqNumber.Stands r number)
    (packet : List UInt8) :
    Holding ((rx.place (number % 1024) packet).moveVrH seqNumber) r ms (max h (number + 1))
      (received ++ [number]) := by
  have hwindow := holding.window
  have hle := holding.le_ms
  have hms := holding.ms_le
  have hplaced : ∀ key, (rx.place (number % 1024) packet).complete key = true ↔
      rx.complete key = true ∨ key = number % 1024 := by
    intro key
    rw [place]
    split
    next hsome =>
      refine ⟨.inl, fun heither => heither.elim id ?_⟩
      rintro rfl
      exact (holding.isSome_iff _).mp hsome
    next hnone =>
      show (Function.update rx.rxonBuffer (number % 1024) (some ⟨[packet], true⟩) key).any
        PduBuffer.pduComplete = true ↔ _
      rw [Function.update_apply]
      split
      next heq => exact iff_of_true rfl (.inr heq)
      next hne => exact (or_iff_left hne).symm
  have hmoved : (rx.place (number % 1024) packet).moveVrH seqNumber =
      { rx.place (number % 1024) packet with
        vrH := ((rx.place (number % 1024) packet).moveVrH seqNumber).vrH } := by
    rw [moveVrH]
    split <;> rfl
  have hframe : rx.place (number % 1024) packet =
      { rx with rxonBuffer := (rx.place (number % 1024) packet).rxonBuffer } := by
    rw [place]
    split <;> rfl
  have hvrH : ((rx.place (number % 1024) packet).moveVrH seqNumber).vrH.Stands r
      ((max h (number + 1) : Nat) : Int) := by
    have hsame : (rx.place (number % 1024) packet).vrH = rx.vrH := by
      rw [hframe]
    have hgt := hseq.gt_iff holding.vrH (by omega) (by omega) (by omega) (by omega)
    have heq := hseq.value_eq_iff holding.vrH (by omega) (by omega) (by omega) (by omega)
    have habove : seqNumber.Gt rx.vrH ∨ seqNumber.value = rx.vrH.value ↔ h ≤ number := by
      rw [hgt, heq]
      omega
    rw [moveVrH, hsame]
    split
    next hnew =>
      rw [show max h (number + 1) = number + 1 by have := habove.mp hnew; omega]
      exact_mod_cast hseq.add 1
    next hold =>
      have hbelow : ¬ h ≤ number := fun hnew => hold (habove.mpr hnew)
      rw [show max h (number + 1) = h by omega, hsame]
      exact holding.vrH
  refine ⟨?_, ?_, ?_, hvrH, hle, by omega, by omega, fun key => ?_, fun key pdu hpdu => ?_,
    fun other hmem => ?_, fun other hother => List.mem_append_left _ (holding.passed other hother)⟩
  · rw [hmoved, hframe]
    exact holding.windowSize
  · rw [hmoved, hframe]
    exact holding.vrR
  · rw [hmoved, hframe]
    exact holding.vrMs
  · rw [hmoved]
    show (rx.place (number % 1024) packet).complete key = true ↔ _
    rw [hplaced, holding.complete_iff]
    constructor
    · rintro (⟨other, hmem, hge, rfl⟩ | rfl)
      · exact ⟨other, List.mem_append_left _ hmem, hge, rfl⟩
      · exact ⟨number, List.mem_append_right _ List.mem_cons_self, hlow, rfl⟩
    · rintro ⟨other, hmem, hge, rfl⟩
      rcases List.mem_append.mp hmem with hmem | hmem
      · exact .inl ⟨other, hmem, hge, rfl⟩
      · rw [List.mem_singleton.mp hmem]
        exact .inr rfl
  · rw [hmoved] at hpdu
    have hpdu : (rx.place (number % 1024) packet).rxonBuffer key = some pdu := hpdu
    rw [place] at hpdu
    split at hpdu
    next => exact holding.stored key pdu hpdu
    next =>
      have hupdate : Function.update rx.rxonBuffer (number % 1024) (some ⟨[packet], true⟩) key =
          some pdu := hpdu
      rw [Function.update_apply] at hupdate
      split at hupdate
      next =>
        cases hupdate
        rfl
      next => exact holding.stored key pdu hupdate
  · rcases List.mem_append.mp hmem with hmem | hmem
    · have := holding.below other hmem
      omega
    · rw [List.mem_singleton.mp hmem]
      omega

theorem arrive_same (seqNumber : SequenceNumber10) (key : Nat) (packet : List UInt8) :
    ((rx.place key packet).moveVrH seqNumber).reorderingTimer = rx.reorderingTimer ∧
      ((rx.place key packet).moveVrH seqNumber).vrX = rx.vrX ∧
      ((rx.place key packet).moveVrH seqNumber).vrMr = rx.vrMr := by
  rw [moveVrH, place]
  split <;> split <;> exact ⟨rfl, rfl, rfl⟩

/-- The scan over complete units ends at the first one that is missing. -/
theorem Holding.firstIncomplete (holding : Holding rx r ms h received) (fuel : Nat) :
    ∀ {sn : SequenceNumber10} {start : Nat}, sn.Stands r start → r ≤ start → start ≤ h →
      h ≤ start + fuel →
      ∃ bound, start ≤ bound ∧ bound ≤ h ∧ bound ∉ received ∧
        (AmReceiver.firstIncomplete rx.complete fuel sn).Stands r bound ∧
        ∀ number, start ≤ number → number < bound → number ∈ received := by
  have hwindow := holding.window
  induction fuel with
  | zero =>
      intro sn start hsn hlow hhigh hfuel
      obtain rfl : start = h := Nat.le_antisymm hhigh hfuel
      exact ⟨start, Nat.le_refl _, hhigh, fun hmem => Nat.lt_irrefl _ (holding.below _ hmem), hsn,
        fun _ hge hlt => absurd hlt (Nat.not_lt.mpr hge)⟩
  | succ fuel ih =>
      intro sn start hsn hlow hhigh hfuel
      have hkey : sn.value = start % 1024 := by
        have := hsn.value
        omega
      have hcomplete := holding.complete_mod hlow (by omega)
      rw [AmReceiver.firstIncomplete, hkey]
      split
      next hmem =>
        have hmem := hcomplete.mp hmem
        have hlt := holding.below _ hmem
        have hnext : sn.next.Stands r ((start + 1 : Nat) : Int) := by
          push_cast
          exact hsn.next
        obtain ⟨bound, hle, hbound, hmissing, hstands, hall⟩ :=
          ih hnext (by omega) hlt (by omega)
        refine ⟨bound, by omega, hbound, hmissing, hstands, fun number hge hless => ?_⟩
        rcases Nat.eq_or_lt_of_le hge with rfl | hmore
        · exact hmem
        · exact hall number hmore hless
      next hmissing =>
        exact ⟨start, Nat.le_refl _, hhigh, fun hmem => hmissing (hcomplete.mpr hmem), hsn,
          fun _ hge hlt => absurd hlt (Nat.not_lt.mpr hge)⟩

/-- VR(MS) moves to a number that is missing. -/
theorem Holding.moveVrMs (holding : Holding rx r ms h received) :
    ∃ ms', ms' ∉ received ∧ (∀ number, ms ≤ number → number < ms' → number ∈ received) ∧
      Holding rx.moveVrMs r ms' h received := by
  have hle := holding.le_ms
  have hms := holding.ms_le
  have hwindow := holding.window
  obtain ⟨ms', hge, hhigh, hmissing, hstands, hall⟩ :=
    holding.firstIncomplete 1024 holding.vrMs hle hms (by omega)
  exact ⟨ms', hmissing, hall,
    { windowSize := holding.windowSize
      vrR := holding.vrR
      vrMs := hstands
      vrH := holding.vrH
      le_ms := Nat.le_trans hle hge
      ms_le := hhigh
      window := hwindow
      complete_iff := holding.complete_iff
      stored := holding.stored
      below := holding.below
      passed := holding.passed }⟩

/-- VR(R) moves to a number that is missing. -/
theorem Holding.deliver (hmissing : ms ∉ received) (fuel : Nat) :
    ∀ {rx : AmReceiver} {r : Nat}, Holding rx r ms h received → h ≤ r + fuel →
      ∃ r', r ≤ r' ∧ r' ∉ received ∧ Holding (rx.deliver fuel).1 r' ms h received ∧
        (rx.deliver fuel).1.reorderingTimer = rx.reorderingTimer ∧
        ∀ number, rx.vrX.Stands r number → (rx.deliver fuel).1.vrX.Stands r' number := by
  induction fuel with
  | zero =>
      intro rx r holding hfuel
      exact ⟨r, Nat.le_refl _, fun hmem => absurd (holding.below r hmem) (Nat.not_lt.mpr hfuel),
        holding, rfl, fun _ hstands => hstands⟩
  | succ fuel ih =>
      intro rx r holding hfuel
      have hle := holding.le_ms
      have hms := holding.ms_le
      have hwindow := holding.window
      have hkey : rx.vrR.value = r % 1024 := by
        have := holding.vrR.value
        omega
      have hcomplete := holding.complete_mod (Nat.le_refl r) (by omega)
      rw [AmReceiver.deliver, hkey]
      cases hpdu : rx.rxonBuffer (r % 1024) with
      | none =>
          refine ⟨r, Nat.le_refl _, fun hmem => ?_, holding, rfl, fun _ hstands => hstands⟩
          have hsome := (holding.isSome_iff _).mpr (hcomplete.mpr hmem)
          rw [hpdu] at hsome
          cases hsome
      | some pdu =>
          have hstored := holding.stored _ _ hpdu
          have hmem : r ∈ received := hcomplete.mp ((holding.isSome_iff _).mp (by rw [hpdu]; rfl))
          have hless : r < ms := by
            rcases Nat.eq_or_lt_of_le hle with rfl | hless
            · exact absurd hmem hmissing
            · exact hless
          have hbase : ((rx.vrR.next.value : Nat) : Int) = ((r + 1 : Nat) : Int) % 1024 := by
            have := holding.vrR.next.value
            push_cast
            exact this
          have hnext : Holding { rx with
              rxonBuffer := Function.update rx.rxonBuffer (r % 1024) none
              vrR := rx.vrR.next.setModulusBase rx.vrR.next
              vrX := rx.vrX.setModulusBase (rx.vrR.next.setModulusBase rx.vrR.next)
              vrMs := rx.vrMs.setModulusBase (rx.vrR.next.setModulusBase rx.vrR.next)
              vrH := rx.vrH.setModulusBase (rx.vrR.next.setModulusBase rx.vrR.next) }
              (r + 1) ms h received := by
            refine ⟨holding.windowSize, ⟨hbase, hbase⟩, ⟨holding.vrMs.value, hbase⟩,
              ⟨holding.vrH.value, hbase⟩, hless, hms, by omega, fun key => ?_, fun key other hother => ?_,
              holding.below, fun number hlt => ?_⟩
            · show (Function.update rx.rxonBuffer (r % 1024) none key).any PduBuffer.pduComplete =
                true ↔ _
              rw [Function.update_apply]
              split
              next heq =>
                refine iff_of_false Bool.false_ne_true ?_
                rintro ⟨number, hnumber, hge, hmod⟩
                have := holding.below number hnumber
                omega
              next hne =>
                rw [← complete, holding.complete_iff]
                constructor
                · rintro ⟨number, hnumber, hge, rfl⟩
                  refine ⟨number, hnumber, ?_, rfl⟩
                  rcases Nat.eq_or_lt_of_le hge with rfl | hmore
                  · exact absurd rfl hne
                  · exact hmore
                · rintro ⟨number, hnumber, hge, rfl⟩
                  exact ⟨number, hnumber, by omega, rfl⟩
            · have hupdate : Function.update rx.rxonBuffer (r % 1024) none key = some other := hother
              rw [Function.update_apply] at hupdate
              split at hupdate
              next => cases hupdate
              next => exact holding.stored key other hupdate
            · rcases Nat.eq_or_lt_of_le (Nat.le_of_lt_succ hlt) with rfl | hless'
              · exact hmem
              · exact holding.passed number hless'
          obtain ⟨r', hge, hfirst, hholding, hsame, hvrX⟩ := ih hnext (by omega)
          simp only [hstored, if_true]
          exact ⟨r', by omega, hfirst, hholding, hsame, fun number hstands =>
            hvrX number ⟨hstands.value, hbase⟩⟩

/-- VR(R) and VR(MR), when the unit at VR(R) was received or nothing was. -/
theorem Holding.moveVrR (holding : Holding rx r ms h received) (hmissing : ms ∉ received)
    (hvrMr : rx.vrMr.value = (r + 512) % 1024) {number : Nat} (hlow : r ≤ number)
    (hhigh : number < r + 512) {seqNumber : SequenceNumber10} (hseq : seqNumber.Stands r number)
    (honly : r ∈ received → number = r) :
    ∃ r', r ≤ r' ∧ r' ∉ received ∧ Holding (rx.moveVrR seqNumber).1 r' ms h received ∧
      (rx.moveVrR seqNumber).1.vrMr.value = (r' + 512) % 1024 ∧
      (rx.moveVrR seqNumber).1.reorderingTimer = rx.reorderingTimer ∧
      ∀ number, rx.vrX.Stands r number → (rx.moveVrR seqNumber).1.vrX.Stands r' number := by
  have hwindow := holding.window
  have hfirst := hseq.value_eq_iff holding.vrR (by omega) (by omega) (by omega) (by omega)
  have hkey : seqNumber.value = number % 1024 := by
    have := hseq.value
    omega
  have hcomplete := holding.complete_mod hlow (by omega)
  rw [AmReceiver.moveVrR]
  split
  next hmoves =>
    obtain ⟨r', hge, hnext, hholding, hsame, hvrX⟩ :=
      Holding.deliver hmissing 1024 holding (by omega)
    refine ⟨r', hge, hnext, ?_, ?_, hsame, hvrX⟩
    · exact {
        windowSize := hholding.windowSize
        vrR := hholding.vrR
        vrMs := hholding.vrMs
        vrH := hholding.vrH
        le_ms := hholding.le_ms
        ms_le := hholding.ms_le
        window := hholding.window
        complete_iff := hholding.complete_iff
        stored := hholding.stored
        below := hholding.below
        passed := hholding.passed }
    · have hvalue := hholding.vrR.value
      show ((rx.deliver 1024).1.vrR.value + (rx.deliver 1024).1.windowSize) % 1024 = _
      rw [hholding.windowSize]
      omega
  next hstays =>
    refine ⟨r, Nat.le_refl _, fun hmem => hstays ?_, holding, hvrMr, rfl,
      fun _ hstands => hstands⟩
    have hnumber := honly hmem
    rw [hkey, hcomplete, ← hkey, hfirst]
    exact ⟨congrArg Nat.cast hnumber, hnumber ▸ hmem⟩

/-- The state between events. -/
structure Windowed (rx : AmReceiver) (r ms h : Nat) (received : List Nat) : Prop where
  holding : Holding rx r ms h received
  missingR : r ∉ received
  missingMs : ms ∉ received
  vrMr : rx.vrMr.value = (r + 512) % 1024
  vrX : rx.reorderingTimer = true → ∃ x : Nat, r < x ∧ x ≤ h ∧ rx.vrX.Stands r x

/-- t-Reordering runs only while VR(R) is below VR(X). -/
theorem Holding.moveTimer (holding : Holding rx r ms h received) (hmissingR : r ∉ received)
    (hmissingMs : ms ∉ received) (hvrMr : rx.vrMr.value = (r + 512) % 1024)
    (hvrX : rx.reorderingTimer = true →
      ∃ x : Nat, x ≤ h ∧ r < x + 512 ∧ rx.vrX.Stands r x) :
    Windowed rx.moveTimer r ms h received := by
  have hle := holding.le_ms
  have hms := holding.ms_le
  have hwindow := holding.window
  have hgt := holding.vrH.gt_iff holding.vrR (by omega) (by omega) (by omega) (by omega)
  have hholding : ∀ vrX reorderingTimer, Holding { rx with
      vrX := vrX
      reorderingTimer := reorderingTimer } r ms h received := fun _ _ =>
    { windowSize := holding.windowSize
      vrR := holding.vrR
      vrMs := holding.vrMs
      vrH := holding.vrH
      le_ms := hle
      ms_le := hms
      window := hwindow
      complete_iff := holding.complete_iff
      stored := holding.stored
      below := holding.below
      passed := holding.passed }
  rw [AmReceiver.moveTimer]
  split
  next hstart =>
    refine ⟨hholding _ _, hmissingR, hmissingMs, hvrMr, fun _ => ⟨h, ?_, Nat.le_refl _, holding.vrH⟩⟩
    have := hgt.mp hstart.2
    omega
  next hkeep =>
    refine ⟨hholding rx.vrX _, hmissingR, hmissingMs, hvrMr, fun hrunning => ?_⟩
    obtain ⟨htimer, hstays⟩ := Bool.and_eq_true_iff.mp hrunning
    obtain ⟨x, hxh, hnear, hstands⟩ := hvrX htimer
    rw [Bool.not_eq_true', decide_eq_false_iff_not, not_or] at hstays
    obtain ⟨hne, hstays⟩ := hstays
    have hvalueR := holding.vrR.value
    have hvalueX := hstands.value
    refine ⟨x, ?_, hxh, hstands⟩
    by_contra hless
    refine hstays ⟨?_, ?_⟩
    · rw [@insideWindow_iff rx r rx.vrX (x + 1024) hvalueR hvrMr (by omega) (by omega) (by omega)]
      omega
    · omega

/-! ## Events -/

/-- The members for STATUS units have no part in the window. -/
theorem Windowed.withStatus (windowed : Windowed rx r ms h received) (statusPduRequested : Bool)
    (statusPduBufferSize : Nat) (statusProhibitTimer : Bool) :
    Windowed { rx with
      statusPduRequested := statusPduRequested
      statusPduBufferSize := statusPduBufferSize
      statusProhibitTimer := statusProhibitTimer } r ms h received where
  holding :=
    { windowSize := windowed.holding.windowSize
      vrR := windowed.holding.vrR
      vrMs := windowed.holding.vrMs
      vrH := windowed.holding.vrH
      le_ms := windowed.holding.le_ms
      ms_le := windowed.holding.ms_le
      window := windowed.holding.window
      complete_iff := windowed.holding.complete_iff
      stored := windowed.holding.stored
      below := windowed.holding.below
      passed := windowed.holding.passed }
  missingR := windowed.missingR
  missingMs := windowed.missingMs
  vrMr := windowed.vrMr
  vrX := windowed.vrX

/-- The bases set for the window are those the variables have. -/
theorem Windowed.withWindowBases (windowed : Windowed rx r ms h received) :
    Windowed rx.withWindowBases r ms h received where
  holding :=
    { windowSize := windowed.holding.windowSize
      vrR := ⟨windowed.holding.vrR.value, windowed.holding.vrR.value⟩
      vrMs := windowed.holding.vrMs
      vrH := windowed.holding.vrH
      le_ms := windowed.holding.le_ms
      ms_le := windowed.holding.ms_le
      window := windowed.holding.window
      complete_iff := windowed.holding.complete_iff
      stored := windowed.holding.stored
      below := windowed.holding.below
      passed := windowed.holding.passed }
  missingR := windowed.missingR
  missingMs := windowed.missingMs
  vrMr := windowed.vrMr
  vrX := windowed.vrX

theorem Windowed.poll (windowed : Windowed rx r ms h received) (pollingBit : Nat) :
    Windowed (rx.poll pollingBit) r ms h received := by
  rw [AmReceiver.poll]
  split
  next => exact windowed.withStatus true 4 rx.statusProhibitTimer
  next => exact windowed

theorem poll_vrR (rx : AmReceiver) (pollingBit : Nat) : (rx.poll pollingBit).vrR = rx.vrR := by
  rw [poll]
  split <;> rfl

/-- A data unit in the window is received. -/
theorem Windowed.arrive (windowed : Windowed rx r ms h received) {number : Nat} (hlow : r ≤ number)
    (hhigh : number < r + 512) {seqNumber : SequenceNumber10} (hseq : seqNumber.Stands r number)
    (packet : List UInt8) :
    ∃ r' ms' h', r ≤ r' ∧ r' ≤ r + 512 ∧
      Windowed ((((rx.place (number % 1024) packet).moveVrH seqNumber).moveVrMs).moveVrR
        seqNumber).1.moveTimer r' ms' h' (received ++ [number]) := by
  have holding := windowed.holding
  have hle := holding.le_ms
  have hms := holding.ms_le
  have hwindow := holding.window
  obtain ⟨htimer, hvrX, hvrMr⟩ := @arrive_same rx seqNumber (number % 1024) packet
  obtain ⟨ms', hmissingMs, -, hscanned⟩ := (holding.arrive hlow hhigh hseq packet).moveVrMs
  obtain ⟨r', hge, hmissingR, hmoved, hvrMr', htimer', hstays⟩ :=
    hscanned.moveVrR hmissingMs ((congrArg SequenceNumber10.value hvrMr).trans windowed.vrMr) hlow hhigh hseq (fun hmem => by
      rcases List.mem_append.mp hmem with hmem | hmem
      · exact absurd hmem windowed.missingR
      · exact (List.mem_singleton.mp hmem).symm)
  have hle' := hmoved.le_ms
  have hms' := hmoved.ms_le
  refine ⟨r', ms', max h (number + 1), hge, by omega,
    hmoved.moveTimer hmissingR hmissingMs hvrMr' fun hrunning => ?_⟩
  obtain ⟨x, hrx, hxh, hstands⟩ := windowed.vrX (htimer.symm.trans (htimer'.symm.trans hrunning))
  exact ⟨x, by omega, by omega, hstays x (hvrX.symm ▸ hstands)⟩

theorem deserialize_sequenceNumber_lt {packet : List UInt8} {rlcAmHeader : LteRlcAmHeader}
    (hread : LteRlcAmHeader.deserialize packet = some rlcAmHeader) :
    rlcAmHeader.sequenceNumber < 1024 := by
  rw [LteRlcAmHeader.deserialize.eq_def] at hread
  split at hread
  next => cases hread
  next byte1 bytes =>
    split at hread
    next =>
      rw [LteRlcAmHeader.deserializeData.eq_def] at hread
      split at hread
      next =>
        simp only at hread
        split at hread
        next =>
          cases hread
          exact Nat.mod_lt _ (by decide)
        next =>
          obtain ⟨fields, -, rfl⟩ := Option.map_eq_some_iff.mp hread
          exact Nat.mod_lt _ (by decide)
      next => cases hread
    next =>
      rw [LteRlcAmHeader.deserializeControl.eq_def] at hread
      split at hread
      next =>
        simp only at hread
        split at hread
        next =>
          split at hread
          next =>
            split at hread
            next =>
              obtain ⟨nacks, -, rfl⟩ := Option.map_eq_some_iff.mp hread
              exact Nat.mod_lt _ (by decide)
            next =>
              cases hread
              exact Nat.mod_lt _ (by decide)
          next => cases hread
        next =>
          cases hread
          exact Nat.mod_lt _ (by decide)
      next => cases hread

/-- A data unit is received; it counts when it is in the window. -/
theorem Windowed.receive (windowed : Windowed rx r ms h received) {sn : Nat} (hsn : sn < 1024)
    (pollingBit : Nat) (packet : List UInt8) :
    ∃ r' ms' h', r ≤ r' ∧ r' ≤ r + 512 ∧
      Windowed (rx.receive pollingBit ⟨sn, 0⟩ packet).1 r' ms' h'
        (received ++ if rx.InsideWindow ⟨sn, 0⟩ then [r + (sn + 1024 - rx.vrR.value) % 1024]
          else []) := by
  have hvalue := windowed.holding.vrR.value
  obtain ⟨number, hlow, hhigh, hnumber, hmod⟩ : ∃ number, r ≤ number ∧ number < r + 1024 ∧
      r + (sn + 1024 - rx.vrR.value) % 1024 = number ∧ number % 1024 = sn :=
    ⟨_, Nat.le_add_right _ _, by omega, rfl, by omega⟩
  have hinside := @insideWindow_iff rx r ⟨sn, 0⟩ number hvalue windowed.vrMr hmod.symm hlow hhigh
  have hpolled := @insideWindow_iff (rx.poll pollingBit) r
    ((⟨sn, 0⟩ : SequenceNumber10).setModulusBase rx.vrR) number
    (by rw [poll_vrR]; exact hvalue) (windowed.poll pollingBit).vrMr hmod.symm hlow hhigh
  rw [AmReceiver.receive, hnumber]
  by_cases hin : number < r + 512
  · rw [if_pos (hinside.mpr hin)]
    simp only [if_pos (hpolled.mpr hin)]
    have hseq : ((⟨sn, 0⟩ : SequenceNumber10).setModulusBase rx.vrR).Stands r number := by
      refine ⟨?_, hvalue⟩
      show (sn : Int) = _
      omega
    have harrive := (windowed.poll pollingBit).withWindowBases.arrive hlow hin hseq packet
    rw [hmod] at harrive
    exact harrive
  · rw [if_neg (fun h => hin (hinside.mp h)), List.append_nil]
    simp only [if_neg (fun h => hin (hpolled.mp h))]
    exact ⟨r, ms, h, Nat.le_refl _, Nat.le_add_right _ _, (windowed.poll pollingBit).withWindowBases⟩

/-- When t-Reordering expires, VR(MS) moves to the first missing unit from VR(X) on. -/
theorem Windowed.expire (windowed : Windowed rx r ms h received) {next : AmReceiver}
    (hexpire : rx.expireReorderingTimer = some next) :
    ∃ ms', Windowed next r ms' h received := by
  have holding := windowed.holding
  have hle := holding.le_ms
  have hms := holding.ms_le
  have hwindow := holding.window
  rw [expireReorderingTimer] at hexpire
  split at hexpire
  next hrunning =>
    obtain ⟨x, hrx, hxh, hstands⟩ := windowed.vrX hrunning
    obtain ⟨ms', hge, hhigh, hmissing, hscanned, -⟩ :=
      holding.firstIncomplete 1024 hstands (by omega) hxh (by omega)
    have hgt := holding.vrH.gt_iff hscanned (by omega) (by omega) (by omega) (by omega)
    refine ⟨ms', ?_⟩
    cases hexpire
    have hholding : ∀ vrX reorderingTimer, Holding { rx with
        vrMs := AmReceiver.firstIncomplete rx.complete 1024 rx.vrX
        vrX := vrX
        reorderingTimer := reorderingTimer
        statusPduRequested := true } r ms' h received := fun _ _ =>
      { windowSize := holding.windowSize
        vrR := holding.vrR
        vrMs := hscanned
        vrH := holding.vrH
        le_ms := by omega
        ms_le := hhigh
        window := hwindow
        complete_iff := holding.complete_iff
        stored := holding.stored
        below := holding.below
        passed := holding.passed }
    split
    next hstart =>
      have := hgt.mp hstart
      exact ⟨hholding _ _, windowed.missingR, hmissing, windowed.vrMr,
        fun _ => ⟨h, by omega, Nat.le_refl _, holding.vrH⟩⟩
    next =>
      exact ⟨hholding _ _, windowed.missingR, hmissing, windowed.vrMr, nofun⟩
  next => cases hexpire

/-! ## Runs -/

theorem start_windowed : Windowed {} 0 0 0 [] where
  holding :=
    { windowSize := rfl
      vrR := ⟨rfl, rfl⟩
      vrMs := ⟨rfl, rfl⟩
      vrH := ⟨rfl, rfl⟩
      le_ms := Nat.le_refl _
      ms_le := Nat.le_refl _
      window := Nat.zero_le _
      complete_iff := fun key => iff_of_false Bool.false_ne_true (by
        rintro ⟨number, hmem, -⟩
        cases hmem)
      stored := nofun
      below := nofun
      passed := nofun }
  missingR := nofun
  missingMs := nofun
  vrMr := rfl
  vrX := nofun

end Window

/-- The numbers of a run are those of its window. -/
def Receiving.Windowed (receiving : Receiving) : Prop :=
  ∃ ms h, AmReceiver.Windowed receiving.rx receiving.lowest ms h receiving.received

theorem Receiving.step_windowed {receiving next : Receiving} (windowed : receiving.Windowed)
    {event : RxEvent} (hstep : receiving.step event = some next) : next.Windowed := by
  obtain ⟨ms, h, windowed⟩ := windowed
  cases event with
  | pdu packet =>
      obtain ⟨⟨rx, handed⟩, hreceive, rfl⟩ := Option.map_eq_some_iff.mp hstep
      obtain ⟨rlcAmHeader, hread, hresult⟩ := Option.map_eq_some_iff.mp hreceive
      simp only [Receiving.arriving, hread, Option.bind_some]
      have hvalue := windowed.holding.vrR.value
      by_cases hdata : rlcAmHeader.dataControlBit = LteRlcAmHeader.DATA_PDU
      · rw [if_pos hdata] at hresult
        obtain ⟨r', ms', h', hge, hnear, hnext⟩ := windowed.receive
          (deserialize_sequenceNumber_lt hread) rlcAmHeader.pollingBit packet
        rw [hresult] at hnext
        have hvalue' : (rx.vrR.value : Int) = (r' : Int) % 1024 := hnext.holding.vrR.value
        have hlowest : receiving.lowest + (rx.vrR.value + 1024 - receiving.rx.vrR.value) % 1024 =
            r' := by omega
        refine ⟨ms', h', ?_⟩
        simp only [hlowest, hdata, true_and]
        split
        next hin =>
          rw [if_pos hin] at hnext
          exact hnext
        next hout =>
          rw [if_neg hout] at hnext
          exact hnext
      · rw [if_neg hdata] at hresult
        cases hresult
        simp only [hdata, false_and, if_false, Option.toList_none, List.append_nil]
        rw [show (receiving.rx.vrR.value + 1024 - receiving.rx.vrR.value) % 1024 = 0 by omega]
        exact ⟨ms, h, windowed⟩
  | reorderingExpires =>
      obtain ⟨rx, hexpire, rfl⟩ := Option.map_eq_some_iff.mp hstep
      obtain ⟨ms', hnext⟩ := windowed.expire hexpire
      exact ⟨ms', h, hnext⟩
  | prohibitExpires =>
      rw [Receiving.step] at hstep
      split at hstep
      next =>
        cases hstep
        exact ⟨ms, h, windowed.withStatus _ _ false⟩
      next => cases hstep
  | opportunity bytes =>
      obtain ⟨⟨rx, header⟩, hnotify, rfl⟩ := Option.map_eq_some_iff.mp hstep
      refine ⟨ms, h, ?_⟩
      rw [doNotifyTxOpportunity] at hnotify
      split at hnotify
      next =>
        cases hnotify
        exact windowed
      split at hnotify
      next =>
        split at hnotify
        next =>
          cases hnotify
          exact windowed
        next =>
          obtain ⟨status, -, heq⟩ := Option.map_eq_some_iff.mp hnotify
          cases heq
          exact windowed.withStatus false 0 true
      next =>
        cases hnotify
        exact windowed

theorem Receiving.run_windowed {events : List RxEvent} {receiving : Receiving}
    (hrun : runFrom Receiving.step {} events = some receiving) : receiving.Windowed :=
  state_invariant Receiving.step Receiving.Windowed
    (fun _ _ _ windowed hstep => Receiving.step_windowed windowed hstep)
    ⟨0, 0, start_windowed⟩ hrun

/-- The size announced for a STATUS unit. -/
theorem deliver_statusPduBufferSize (fuel : Nat) : ∀ rx : AmReceiver,
    (rx.deliver fuel).1.statusPduBufferSize = rx.statusPduBufferSize := by
  induction fuel with
  | zero => exact fun _ => rfl
  | succ fuel ih =>
      intro rx
      rw [deliver]
      split
      next => rfl
      next =>
        split
        next => exact ih _
        next => rfl

theorem receive_statusPduBufferSize (rx : AmReceiver) (pollingBit : Nat)
    (seqNumber : SequenceNumber10) (packet : List UInt8) :
    (rx.receive pollingBit seqNumber packet).1.statusPduBufferSize =
      (rx.poll pollingBit).statusPduBufferSize := by
  have htimer : ∀ rx : AmReceiver, rx.moveTimer.statusPduBufferSize = rx.statusPduBufferSize := by
    intro rx
    rw [moveTimer]
    split <;> rfl
  have hmove : ∀ (rx : AmReceiver) (sn : SequenceNumber10),
      (rx.moveVrR sn).1.statusPduBufferSize = rx.statusPduBufferSize := by
    intro rx sn
    rw [moveVrR]
    split
    next => exact deliver_statusPduBufferSize 1024 rx
    next => rfl
  have hhigh : ∀ (rx : AmReceiver) (sn : SequenceNumber10),
      (rx.moveVrH sn).statusPduBufferSize = rx.statusPduBufferSize := by
    intro rx sn
    rw [moveVrH]
    split <;> rfl
  have hplace : ∀ (rx : AmReceiver) (key : Nat),
      (rx.place key packet).statusPduBufferSize = rx.statusPduBufferSize := by
    intro rx key
    rw [place]
    split <;> rfl
  rw [receive]
  split
  next =>
    rw [htimer, hmove]
    show ((_ : AmReceiver).moveVrH _).statusPduBufferSize = _
    rw [hhigh, hplace]
    rfl
  next => rfl

/-- Four bytes are announced at most. -/
theorem Receiving.run_statusPduBufferSize {events : List RxEvent} {receiving : Receiving}
    (hrun : runFrom Receiving.step {} events = some receiving) :
    receiving.rx.statusPduBufferSize ≤ 4 := by
  refine state_invariant Receiving.step (fun receiving => receiving.rx.statusPduBufferSize ≤ 4)
    (fun receiving event next hsize hstep => ?_) (Nat.zero_le 4) hrun
  cases event with
  | pdu packet =>
      obtain ⟨⟨rx, handed⟩, hreceive, rfl⟩ := Option.map_eq_some_iff.mp hstep
      obtain ⟨rlcAmHeader, -, hresult⟩ := Option.map_eq_some_iff.mp hreceive
      split at hresult
      next =>
        have hsame := receive_statusPduBufferSize receiving.rx rlcAmHeader.pollingBit
          ⟨rlcAmHeader.sequenceNumber, 0⟩ packet
        rw [hresult, poll] at hsame
        show rx.statusPduBufferSize ≤ 4
        rw [hsame]
        split
        next => exact Nat.le_refl 4
        next => exact hsize
      next =>
        cases hresult
        exact hsize
  | reorderingExpires =>
      obtain ⟨rx, hexpire, rfl⟩ := Option.map_eq_some_iff.mp hstep
      rw [expireReorderingTimer] at hexpire
      split at hexpire
      next =>
        cases hexpire
        split <;> exact hsize
      next => cases hexpire
  | prohibitExpires =>
      rw [Receiving.step] at hstep
      split at hstep
      next =>
        cases hstep
        exact hsize
      next => cases hstep
  | opportunity bytes =>
      obtain ⟨⟨rx, header⟩, hnotify, rfl⟩ := Option.map_eq_some_iff.mp hstep
      rw [doNotifyTxOpportunity] at hnotify
      split at hnotify
      next =>
        cases hnotify
        exact hsize
      split at hnotify
      next =>
        split at hnotify
        next =>
          cases hnotify
          exact hsize
        next =>
          obtain ⟨status, -, heq⟩ := Option.map_eq_some_iff.mp hnotify
          cases heq
          exact Nat.zero_le 4
      next =>
        cases hnotify
        exact hsize

end AmReceiver

end DeepcV2x.Rlc
