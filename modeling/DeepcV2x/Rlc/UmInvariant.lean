import Mathlib.Data.List.TakeWhile
import DeepcV2x.Rlc.UmWindow

/-!
# The reordering window

What holds of VR(UR), VR(UH), the reception buffer and t-Reordering between
events, whatever the packets hold.  The scan for the next VR(UR) and the flush
of the units that leave the window both follow the order of the keys, so each
goes wrong at one kind of wrap of the numbers.
-/

namespace DeepcV2x.Rlc

open Foundation.Runs

namespace UmReceiver

/-! ## Taking out -/

/-- Some keys were taken out, and their packets put together; the rest is as it was. -/
structure Without (rx next : UmReceiver) (gone : Nat → Prop) : Prop where
  frame : ∃ rxBuffer expectedSeqNumber reassemblingState keepS0 sdusBuffer, next = { rx with
    rxBuffer := rxBuffer
    expectedSeqNumber := expectedSeqNumber
    reassemblingState := reassemblingState
    keepS0 := keepS0
    sdusBuffer := sdusBuffer }
  isSome_iff : ∀ key, (next.rxBuffer key).isSome = true ↔ (rx.rxBuffer key).isSome = true ∧ ¬ gone key

theorem Without.refl (rx : UmReceiver) : Without rx rx fun _ => False :=
  ⟨⟨_, _, _, _, _, rfl⟩, fun _ => by simp⟩

theorem Without.congr {rx next : UmReceiver} {gone other : Nat → Prop} (without : Without rx next gone)
    (hsame : ∀ key, gone key ↔ other key) : Without rx next other :=
  ⟨without.frame, fun key => by rw [without.isSome_iff, hsame]⟩

theorem Without.trans {rx next last : UmReceiver} {gone more : Nat → Prop}
    (without : Without rx next gone) (others : Without next last more) :
    Without rx last fun key => gone key ∨ more key := by
  obtain ⟨_, _, _, _, _, hnext⟩ := without.frame
  obtain ⟨_, _, _, _, _, hlast⟩ := others.frame
  refine ⟨⟨_, _, _, _, _, by rw [hlast, hnext]⟩, fun key => ?_⟩
  rw [others.isSome_iff, without.isSome_iff, not_or, and_assoc]

theorem Without.sameWindow {rx next : UmReceiver} {gone : Nat → Prop}
    (without : Without rx next gone) :
    SameWindow rx next ∧ next.firstPduRxed = rx.firstPduRxed := by
  obtain ⟨_, _, _, _, _, rfl⟩ := without.frame
  exact ⟨⟨rfl, rfl, rfl, rfl, rfl⟩, rfl⟩

theorem fromS0_without {rx next : UmReceiver} {framingInfo : Nat} {out : List (List UInt8)}
    (hresult : rx.fromS0 framingInfo = some (next, out)) : Without rx next fun _ => False := by
  rw [fromS0] at hresult
  split at hresult
  · cases hresult
    exact ⟨⟨_, _, _, _, _, rfl⟩, fun _ => by simp⟩
  split at hresult
  · obtain ⟨s0, -, heq⟩ := Option.map_eq_some_iff.mp hresult
    cases heq
    exact ⟨⟨_, _, _, _, _, rfl⟩, fun _ => by simp⟩
  split at hresult
  · split at hresult
    next => cases hresult
    next =>
      cases hresult
      exact ⟨⟨_, _, _, _, _, rfl⟩, fun _ => by simp⟩
  split at hresult
  · split at hresult
    next => cases hresult
    next =>
      cases hresult
      exact ⟨⟨_, _, _, _, _, rfl⟩, fun _ => by simp⟩
    next =>
      cases hresult
      exact ⟨⟨_, _, _, _, _, rfl⟩, fun _ => by simp⟩
  · cases hresult
    exact Without.refl rx

theorem fromSi_without {rx next : UmReceiver} {framingInfo : Nat} {out : List (List UInt8)}
    (hresult : rx.fromSi framingInfo = some (next, out)) : Without rx next fun _ => False := by
  rw [fromSi] at hresult
  split at hresult
  · split at hresult
    next =>
      cases hresult
      exact ⟨⟨_, _, _, _, _, rfl⟩, fun _ => by simp⟩
    next => cases hresult
  split at hresult
  · split at hresult
    next =>
      cases hresult
      exact ⟨⟨_, _, _, _, _, rfl⟩, fun _ => by simp⟩
    next =>
      cases hresult
      exact ⟨⟨_, _, _, _, _, rfl⟩, fun _ => by simp⟩
    next => cases hresult
  · cases hresult
    exact Without.refl rx

/-- Reassembly leaves the window and the reception buffer as they are. -/
theorem reassembleAndDeliver_without {rx next : UmReceiver} {packet : List UInt8}
    {out : List (List UInt8)} (hresult : rx.reassembleAndDeliver packet = some (next, out)) :
    Without rx next fun _ => False := by
  rw [reassembleAndDeliver] at hresult
  split at hresult
  next => cases hresult
  next rlcHeader payload _ =>
    split at hresult
    next => cases hresult
    next sdus _ =>
      have hlost : ∀ expectedSeqNumber keepS0, Without rx { rx with
          expectedSeqNumber := expectedSeqNumber
          keepS0 := keepS0
          sdusBuffer := rx.sdusBuffer ++ sdus } fun _ => False :=
        fun _ _ => ⟨⟨_, _, _, _, _, rfl⟩, fun _ => by simp⟩
      simp only at hresult
      split at hresult
      next => exact ((hlost _ _).trans (fromS0_without hresult)).congr fun _ => or_self_iff
      next => exact ((hlost _ _).trans (fromS0_without hresult)).congr fun _ => or_self_iff
      next => exact ((hlost _ _).trans (fromSi_without hresult)).congr fun _ => or_self_iff

theorem takeOut_without {rx next : UmReceiver} {key : Nat} {out : List (List UInt8)}
    (hresult : rx.takeOut key = some (next, out)) : Without rx next (· = key) := by
  rw [takeOut] at hresult
  cases hpacket : rx.rxBuffer key with
  | none =>
      rw [hpacket] at hresult
      cases hresult
      refine ⟨⟨_, _, _, _, _, rfl⟩, fun other => ⟨fun hsome => ⟨hsome, ?_⟩, And.left⟩⟩
      rintro rfl
      rw [hpacket] at hsome
      cases hsome
  | some packet =>
      rw [hpacket] at hresult
      obtain ⟨⟨read, delivered⟩, hread, heq⟩ := Option.map_eq_some_iff.mp hresult
      cases heq
      have without := reassembleAndDeliver_without hread
      have htaken : Without read { read with rxBuffer := Function.update read.rxBuffer key none }
          (· = key) := by
        refine ⟨⟨_, _, _, _, _, rfl⟩, fun other => ?_⟩
        show (Function.update read.rxBuffer key none other).isSome = true ↔ _
        rw [Function.update_apply]
        split
        next heq => exact iff_of_false Bool.false_ne_true fun hboth => hboth.2 heq
        next hne => exact (and_iff_left hne).symm
      exact (without.trans htaken).congr fun _ => iff_of_eq (false_or _)

theorem takeOutAll_without (keys : List Nat) : ∀ {rx next : UmReceiver} {out : List (List UInt8)},
    rx.takeOutAll keys = some (next, out) → Without rx next (· ∈ keys) := by
  induction keys with
  | nil =>
      intro rx next out hresult
      cases hresult
      exact (Without.refl rx).congr fun _ => by simp
  | cons key keys ih =>
      intro rx next out hresult
      rw [takeOutAll] at hresult
      split at hresult
      next => cases hresult
      next taken delivered htaken =>
        obtain ⟨⟨last, rest⟩, hrest, heq⟩ := Option.map_eq_some_iff.mp hresult
        cases heq
        exact ((takeOut_without htaken).trans (ih hrest)).congr fun _ => List.mem_cons.symm

/-- An interval is taken out as a whole. -/
theorem interval_without {base : Int} {bound : Nat} (fuel : Nat) :
    ∀ {rx next : UmReceiver} {low : Nat} {out : List (List UInt8)}
      {reassembleSn highSeqNumber : SequenceNumber10},
      low ≤ bound → reassembleSn.Stands base low → highSeqNumber.Stands base bound → base ≤ low →
      (bound : Int) < base + 1024 → bound ≤ low + fuel →
      rx.reassembleSnInterval fuel reassembleSn highSeqNumber = some (next, out) →
      Without rx next fun key => ∃ number, low ≤ number ∧ number < bound ∧ number % 1024 = key := by
  induction fuel with
  | zero =>
      intro rx next low out _ _ hlow _ _ _ _ hfuel hresult
      cases hresult
      refine (Without.refl rx).congr fun key => iff_of_false id ?_
      rintro ⟨number, hge, hlt, -⟩
      omega
  | succ fuel ih =>
      intro rx next low out reassembleSn highSeqNumber hlow hsn hbound hbase hwide hfuel hresult
      have hlt := hsn.lt_iff hbound hbase (by omega) (by omega) hwide
      rw [reassembleSnInterval] at hresult
      split at hresult
      next hless =>
        have hless' := hlt.mp hless
        have hkey : reassembleSn.value = low % 1024 := by
          have := hsn.value
          omega
        have hnext : reassembleSn.next.Stands base ((low + 1 : Nat) : Int) := by
          push_cast
          exact hsn.next
        split at hresult
        next => cases hresult
        next taken delivered htaken =>
          obtain ⟨⟨last, rest⟩, hrest, heq⟩ := Option.map_eq_some_iff.mp hresult
          cases heq
          rw [hkey] at htaken
          refine ((takeOut_without htaken).trans
            (ih (by omega) hnext hbound (by omega) hwide (by omega) hrest)).congr fun key => ?_
          constructor
          · rintro (rfl | ⟨number, hge, hlt', hmod⟩)
            · exact ⟨low, Nat.le_refl _, by omega, rfl⟩
            · exact ⟨number, by omega, hlt', hmod⟩
          · rintro ⟨number, hge, hlt', hmod⟩
            rcases Nat.eq_or_lt_of_le hge with rfl | hmore
            · exact .inl hmod.symm
            · exact .inr ⟨number, hmore, hlt', hmod⟩
      next hdone =>
        cases hresult
        have hge : ¬ (low : Int) < bound := fun hless => hdone (hlt.mpr hless)
        refine (Without.refl rx).congr fun key => iff_of_false id ?_
        rintro ⟨number, hnumber, hlt', -⟩
        omega

/-! ## Where the scans stop -/

theorem firstMissing_stops (rxBuffer : Nat → Option (List UInt8)) (fuel : Nat) : ∀ start : Nat,
    firstMissing rxBuffer fuel start < start + fuel →
    rxBuffer (firstMissing rxBuffer fuel start) = none := by
  induction fuel with
  | zero => exact fun start hlt => absurd hlt (Nat.lt_irrefl _)
  | succ fuel ih =>
      intro start hlt
      rw [firstMissing] at hlt ⊢
      split at hlt
      next hsome =>
        rw [if_pos hsome]
        exact ih (start + 1) (by omega)
      next hnone =>
        rw [if_neg hnone]
        exact Option.not_isSome_iff_eq_none.mp hnone

theorem firstMissingSn_stops {rxBuffer : Nat → Option (List UInt8)} {base : Int} (fuel : Nat) :
    ∀ {sn : SequenceNumber10} {number : Nat}, sn.Stands base number →
      (∀ other, number ≤ other → other < number + fuel →
        (rxBuffer (other % 1024)).isSome = true) ∨
      rxBuffer (firstMissingSn rxBuffer fuel sn).value = none := by
  induction fuel with
  | zero => exact fun _ => .inl fun _ hge hlt => absurd hlt (Nat.not_lt.mpr hge)
  | succ fuel ih =>
      intro sn number hsn
      have hkey : sn.value = number % 1024 := by
        have := hsn.value
        omega
      have hnext : sn.next.Stands base ((number + 1 : Nat) : Int) := by
        push_cast
        exact hsn.next
      rw [firstMissingSn]
      split
      next hsome =>
        rw [hkey] at hsome
        rcases ih hnext with hall | hstops
        · refine .inl fun other hge hlt => ?_
          rcases Nat.eq_or_lt_of_le hge with rfl | hmore
          · exact hsome
          · exact hall other hmore (by omega)
        · exact .inr hstops
      next hnone => exact .inr (Option.not_isSome_iff_eq_none.mp hnone)

/-! ## Sound states -/

/-- How far a number is above VR(UH) - 512. -/
def above (rx : UmReceiver) (number : Nat) : Nat := (number + 1536 - rx.vrUh.value) % 1024

/-- VR(UR) is missing, the buffer is between VR(UR) and VR(UH), and t-Reordering is running exactly
when VR(UH) is ahead of VR(UR). -/
structure Sound (rx : UmReceiver) : Prop where
  vrUr_lt : rx.vrUr.value < 1024
  missing : rx.rxBuffer rx.vrUr.value = none
  inside : ∀ key, (rx.rxBuffer key).isSome = true → key < 1024 ∧
    rx.above rx.vrUr.value < rx.above key ∧ rx.above key < rx.above rx.vrUh.value
  pending : rx.reorderingTimer = true ↔ rx.above rx.vrUr.value < rx.above rx.vrUh.value

/-- The numbers the state between events stands for; the first unit of a sidelink channel finds an
empty window. -/
structure Framed (path : Path) (rx : UmReceiver) (ur uh : Nat) : Prop where
  windowSize : rx.windowSize = 512
  far : 1024 ≤ uh
  le : ur ≤ uh
  window : uh ≤ ur + 512
  vrUr : rx.vrUr.value = ur % 1024
  vrUh : rx.vrUh.value = uh % 1024
  buffered : ∀ key, (rx.rxBuffer key).isSome = true →
    ∃ number, ur < number ∧ number < uh ∧ number % 1024 = key
  pending : rx.reorderingTimer = true ↔ ur < uh
  timed : rx.reorderingTimer = true → Timed rx ur uh
  first : rx.firstPduRxed = false → (∃ srcL2Id dstL2Id, path = .nrSl true srcL2Id dstL2Id) → ur = uh

theorem above_eq {rx : UmReceiver} {uh number : Nat} (huh : rx.vrUh.value = uh % 1024)
    (hlow : uh ≤ number + 512) (hhigh : number < uh + 512) :
    rx.above (number % 1024) = number + 512 - uh := by
  rw [above, huh]
  omega

theorem Framed.sound {path : Path} {rx : UmReceiver} {ur uh : Nat} (framed : Framed path rx ur uh) :
    rx.Sound := by
  have hle := framed.le
  have hwindow := framed.window
  have hur : rx.above rx.vrUr.value = ur + 512 - uh := by
    rw [framed.vrUr, above_eq framed.vrUh hwindow (by omega)]
  have huh : rx.above rx.vrUh.value = 512 := by
    rw [framed.vrUh, above_eq framed.vrUh (by omega) (by omega)]
    omega
  refine ⟨?_, ?_, fun key hsome => ?_, ?_⟩
  · rw [framed.vrUr]
    exact Nat.mod_lt _ (by decide)
  · rw [← Option.not_isSome_iff_eq_none, framed.vrUr]
    intro hsome
    obtain ⟨number, hlow, hhigh, hmod⟩ := framed.buffered _ hsome
    omega
  · obtain ⟨number, hlow, hhigh, rfl⟩ := framed.buffered key hsome
    rw [hur, huh, above_eq framed.vrUh (by omega) (by omega)]
    refine ⟨Nat.mod_lt _ (by decide), by omega, by omega⟩
  · rw [framed.pending, hur, huh]
    omega

/-! ## VR(UR) and t-Reordering -/

/-- The scan from a key on goes over the last key, and the first one is buffered. -/
def ScansOver (buffered : Nat → Prop) (start : Nat) : Prop :=
  (∀ key, start ≤ key → key < 1024 → buffered key) ∧ buffered 0

/-- t-Reordering is running exactly when a number is missing. -/
theorem moveTimer_pending {rx : UmReceiver} {ur uh : Nat} (hle : ur ≤ uh) (hspan : uh ≤ ur + 512)
    (timed : Timed rx.withTimerBases.moveTimer ur uh)
    (hframe : ∃ vrUx reorderingTimer, rx.withTimerBases.moveTimer =
      { rx.withTimerBases with vrUx := vrUx, reorderingTimer := reorderingTimer }) :
    rx.withTimerBases.moveTimer.reorderingTimer = true ↔ ur < uh := by
  constructor
  · intro hrunning
    obtain ⟨ux, hur, hux, -⟩ := timed.vrUx hrunning
    omega
  · intro hless
    obtain ⟨vrUx, reorderingTimer, heq⟩ := hframe
    have standsUr := timed.vrUr
    have standsUh := timed.vrUh
    rw [heq] at standsUr standsUh
    have hgt : rx.withTimerBases.vrUh.Gt rx.withTimerBases.vrUr :=
      (standsUh.gt_iff standsUr (by omega) (by omega) (by omega) (by omega)).mpr (by omega)
    rw [moveTimer]
    split
    next => rfl
    next hkeep =>
      by_contra hidle
      exact hkeep ⟨Bool.eq_false_iff.mpr hidle, hgt⟩

theorem moveTimer_rxBuffer (rx : UmReceiver) :
    rx.withTimerBases.moveTimer.rxBuffer = rx.rxBuffer := by
  rw [moveTimer]
  split <;> rfl

theorem moveTimer_vrUr_value (rx : UmReceiver) :
    rx.withTimerBases.moveTimer.vrUr.value = rx.vrUr.value := by
  rw [moveTimer]
  split <;> rfl

theorem moveTimer_vrUh_value (rx : UmReceiver) :
    rx.withTimerBases.moveTimer.vrUh.value = rx.vrUh.value := by
  rw [moveTimer]
  split <;> rfl

section Settle

variable {path : Path} {rx : UmReceiver} {start uh : Nat}

/-- The bases and the timer, once VR(UR) is where it stays. -/
theorem framed_moveTimer {ur : Nat} (hwindow : rx.windowSize = 512) (hfar : 1024 ≤ uh) (hle : ur ≤ uh)
    (hspan : uh ≤ ur + 512) (hur : rx.vrUr.value = ur % 1024) (huh : rx.vrUh.value = uh % 1024)
    (hux : rx.reorderingTimer = true →
      ∃ ux : Nat, ux ≤ uh ∧ uh < ux + 1024 ∧ rx.vrUx.value = ux % 1024)
    (hbuffered : ∀ key, (rx.rxBuffer key).isSome = true →
      ∃ number, ur < number ∧ number < uh ∧ number % 1024 = key)
    (hfirst : rx.firstPduRxed = false →
      ¬ ∃ srcL2Id dstL2Id, path = .nrSl true srcL2Id dstL2Id) :
    Framed path rx.withTimerBases.moveTimer ur uh := by
  obtain ⟨vrUx, reorderingTimer, hframe, timed⟩ :=
    moveTimer_timed hwindow hle hspan hur (by omega) hux
  have hpending := moveTimer_pending hle hspan timed ⟨_, _, hframe⟩
  refine ⟨?_, hfar, hle, hspan, ?_, ?_, ?_, hpending, fun _ => timed, ?_⟩
  · rw [hframe]
    exact hwindow
  · rw [hframe]
    exact hur
  · rw [hframe]
    exact huh
  · rw [hframe]
    exact hbuffered
  · rw [hframe]
    exact fun hfresh hstch => absurd hstch (hfirst hfresh)

/-- VR(UR) moved over buffered numbers up to a bound, which is buffered only behind the last key. -/
structure MovedOver (rx moved : UmReceiver) (start bound : Nat) : Prop where
  le : start ≤ bound
  without : ∃ vrUr : SequenceNumber10, vrUr.value = bound % 1024 ∧
    Without { rx with vrUr := vrUr } moved fun key =>
      ∃ number, start ≤ number ∧ number < bound ∧ number % 1024 = key
  scanned : ∀ number, start ≤ number → number < bound → (rx.rxBuffer (number % 1024)).isSome = true
  scansOver_iff : ScansOver (fun key => (rx.rxBuffer key).isSome = true) (start % 1024) ↔
    (rx.rxBuffer (bound % 1024)).isSome = true

/-- The scan for the next VR(UR) stops at a number that is not buffered, or before it. -/
theorem moveVrUr_movedOver {base : Int} {limit : Nat} (hvrUr : rx.vrUr.Stands base start)
    (hbase : base ≤ start) (hlimit : start ≤ limit) (hnear : limit ≤ start + 512)
    (hkeys : ∀ key, (rx.rxBuffer key).isSome = true → key < 1024)
    (hnone : rx.rxBuffer (limit % 1024) = none)
    (hwide : (rx.rxBuffer (start % 1024)).isSome = true → (limit : Int) < base + 1024)
    {moved : UmReceiver} {out : List (List UInt8)} (hmoved : rx.moveVrUr = some (moved, out)) :
    ∃ bound, bound ≤ limit ∧ MovedOver rx moved start bound := by
  have hvalue : rx.vrUr.value = start % 1024 := by
    have := hvrUr.value
    omega
  have hnotSome : ¬ (rx.rxBuffer (limit % 1024)).isSome = true :=
    Option.not_isSome_iff_eq_none.mpr hnone
  rw [UmReceiver.moveVrUr, hvalue] at hmoved
  split at hmoved
  next hsome =>
    obtain ⟨hge, hall⟩ := firstMissing_spec rx.rxBuffer 1024 (start % 1024 + 1)
    have hstops := firstMissing_stops rx.rxBuffer 1024 (start % 1024 + 1)
    generalize firstMissing rx.rxBuffer 1024 (start % 1024 + 1) = found at hge hall hstops hmoved
    have hfound : found ≤ 1024 := by
      by_contra hlt
      exact Nat.lt_irrefl _ (hkeys 1024 (hall 1024 (by omega) (by omega)))
    have hmissing : ¬ (rx.rxBuffer found).isSome = true :=
      Option.not_isSome_iff_eq_none.mpr (hstops (by omega))
    have hrun : ∀ key, start % 1024 ≤ key → key < found → (rx.rxBuffer key).isSome = true := by
      intro key hkey hlt
      rcases Nat.eq_or_lt_of_le hkey with rfl | hmore
      · exact hsome
      · exact hall key hmore hlt
    have hbound : start + (found - start % 1024) ≤ limit := by
      by_contra hless
      exact hnotSome (hrun (limit % 1024) (by omega) (by omega))
    have standsNew : (rx.vrUr.assign found).Stands base
        ((start + (found - start % 1024) : Nat) : Int) := hvrUr.assign (by omega)
    have hfar := hwide hsome
    refine ⟨start + (found - start % 1024), hbound, Nat.le_add_right _ _,
      ⟨rx.vrUr.assign found, ?_, interval_without 1024 (Nat.le_add_right _ _) hvrUr standsNew hbase
        (by omega) (by omega) hmoved⟩, fun number hlow hlt => hrun _ (by omega) (by omega), ?_⟩
    · show found % 1024 = _
      omega
    · rcases Nat.eq_or_lt_of_le hfound with rfl | hsmall
      · rw [show (start + (1024 - start % 1024)) % 1024 = 0 by omega]
        exact ⟨And.right, fun hzero => ⟨hrun, hzero⟩⟩
      · rw [show (start + (found - start % 1024)) % 1024 = found by omega]
        exact iff_of_false (fun hscans => hmissing (hscans.1 found (by omega) hsmall)) hmissing
  next hidle =>
    cases hmoved
    refine ⟨start, hlimit, Nat.le_refl _, ⟨rx.vrUr, hvalue, ?_⟩, fun number hlow hlt => ?_, ?_⟩
    · refine (Without.refl rx).congr fun key => iff_of_false id ?_
      rintro ⟨number, hlow, hlt, -⟩
      omega
    · omega
    · exact iff_of_false (fun hscans =>
        hidle (hscans.1 _ (Nat.le_refl _) (Nat.mod_lt _ (by decide)))) hidle

/-- VR(UR) and the timer move once the window has: soundly, but for a scan over the last key. -/
theorem settle_framed {base : Int} (hwindow : rx.windowSize = 512) (hfar : 1024 ≤ uh)
    (hle : start ≤ uh) (hspan : uh ≤ start + 512) (hvrUr : rx.vrUr.Stands base start)
    (hbase : base ≤ start)
    (hwide : (rx.rxBuffer (start % 1024)).isSome = true → (uh : Int) < base + 1024)
    (huh : rx.vrUh.value = uh % 1024)
    (hux : rx.reorderingTimer = true →
      ∃ ux : Nat, ux ≤ uh ∧ uh < ux + 1024 ∧ rx.vrUx.value = ux % 1024)
    (hbuffered : ∀ key, (rx.rxBuffer key).isSome = true →
      ∃ number, start ≤ number ∧ number < uh ∧ number % 1024 = key)
    (hfirst : rx.firstPduRxed = false →
      ¬ ∃ srcL2Id dstL2Id, path = .nrSl true srcL2Id dstL2Id)
    {moved : UmReceiver} {out : List (List UInt8)} (hmoved : rx.moveVrUr = some (moved, out)) :
    (¬ ScansOver (fun key => (rx.rxBuffer key).isSome = true) (start % 1024) ∧
        ∃ ur, Framed path moved.withTimerBases.moveTimer ur uh) ∨
      (ScansOver (fun key => (rx.rxBuffer key).isSome = true) (start % 1024) ∧
        ¬ moved.withTimerBases.moveTimer.Sound) := by
  obtain ⟨bound, hbound, moves⟩ := moveVrUr_movedOver hvrUr hbase hle hspan
    (fun key hkey => by
      obtain ⟨number, -, -, rfl⟩ := hbuffered key hkey
      exact Nat.mod_lt _ (by decide))
    (by
      rw [← Option.not_isSome_iff_eq_none]
      intro hsome
      obtain ⟨number, hlow, hhigh, hmod⟩ := hbuffered _ hsome
      omega) hwide hmoved
  have hge := moves.le
  obtain ⟨vrUr, hvalue, without⟩ := moves.without
  obtain ⟨same, hrxed⟩ := without.sameWindow
  have hnew : moved.vrUr.value = bound % 1024 := by
    rw [same.vrUr]
    exact hvalue
  rw [moves.scansOver_iff]
  by_cases hbuffer : (rx.rxBuffer (bound % 1024)).isSome = true
  · refine .inr ⟨hbuffer, fun sound => ?_⟩
    have hmissed := sound.missing
    rw [moveTimer_rxBuffer, moveTimer_vrUr_value, hnew, ← Option.not_isSome_iff_eq_none] at hmissed
    refine hmissed ((without.isSome_iff _).mpr ⟨hbuffer, ?_⟩)
    rintro ⟨number, hlow, hhigh, hmod⟩
    omega
  · refine .inl ⟨hbuffer, bound, framed_moveTimer (same.windowSize.trans hwindow) hfar hbound
      (by omega) hnew (by rw [same.vrUh]; exact huh) (fun hrunning => ?_) (fun key hkey => ?_)
      (fun hfresh => hfirst (hrxed.symm.trans hfresh))⟩
    · rw [same.vrUx]
      exact hux (same.reorderingTimer.symm.trans hrunning)
    · obtain ⟨hkept, hleft⟩ := (without.isSome_iff key).mp hkey
      obtain ⟨number, hlow, hhigh, rfl⟩ := hbuffered key hkept
      refine ⟨number, ?_, hhigh, rfl⟩
      by_contra hless
      rcases Nat.eq_or_lt_of_le (Nat.le_of_not_lt hless) with rfl | hbefore
      · exact hbuffer hkept
      · exact hleft ⟨number, hlow, hbefore, rfl⟩

end Settle

/-! ## Reception -/

/-- The key is buffered once a unit is. -/
def Held (rx : UmReceiver) (sn key : Nat) : Prop := key = sn ∨ (rx.rxBuffer key).isSome = true

/-- The units that the received one moves out of the window have smaller keys than those that stay. -/
def FlushesFirst (rx : UmReceiver) (sn : Nat) : Prop :=
  ¬ rx.InsideWindow ⟨sn, 0⟩ → ∀ key later, rx.Held sn key → rx.Held sn later →
    512 ≤ age sn key → age sn later < 512 → key < later

/-- Where the scan for VR(UR) starts: at VR(UR), unless the received unit moves it. -/
def scanStart (rx : UmReceiver) (sn : Nat) : Nat :=
  if age sn rx.vrUr.value < 512 then rx.vrUr.value else (sn + 513) % 1024

/-- A received unit does not reach the defects of the window. -/
def Settles (rx : UmReceiver) (sn : Nat) : Prop :=
  rx.FlushesFirst sn ∧ ¬ ScansOver (rx.Held sn) (rx.scanStart sn)

theorem ScansOver.congr {buffered other : Nat → Prop} {start : Nat}
    (hsame : ∀ key, buffered key ↔ other key) : ScansOver buffered start ↔ ScansOver other start := by
  rw [show buffered = other from funext fun key => propext (hsame key)]

section Receive

variable {path : Path} {rx : UmReceiver} {ur uh number : Nat}

theorem Framed.held (framed : Framed path rx ur uh) {key : Nat} (hheld : rx.Held (number % 1024) key) :
    key = number % 1024 ∨ ∃ other, ur < other ∧ other < uh ∧ other % 1024 = key :=
  hheld.imp id (framed.buffered key)

/-- The numbers a unit is compared by. -/
theorem Framed.compares (framed : Framed path rx ur uh) (hlow : uh ≤ number + 512)
    (hhigh : number < uh + 512) :
    rx.withWindowBases.vrUr.Stands ((uh : Int) - 512) ur ∧
      rx.withWindowBases.vrUh.Stands ((uh : Int) - 512) uh ∧
      (rx.withWindowBases.vrUh.sub rx.windowSize).Stands ((uh : Int) - 512) ((uh : Int) - 512) ∧
      SequenceNumber10.Stands ((⟨number % 1024, 0⟩ : SequenceNumber10).setModulusBase
        (rx.withWindowBases.vrUh.sub rx.withWindowBases.windowSize)) ((uh : Int) - 512) number ∧
      (rx.InsideWindow ⟨number % 1024, 0⟩ ↔ number < uh) := by
  have hwindow := framed.windowSize
  have hbase : ((rx.vrUh.sub rx.windowSize).value : Int) = ((uh : Int) - 512) % 1024 := by
    rw [hwindow]
    exact sub_value (by rw [framed.vrUh]; omega)
  have hvrUr := framed.vrUr
  have hvrUh := framed.vrUh
  have standsUr : rx.withWindowBases.vrUr.Stands ((uh : Int) - 512) ur :=
    ⟨by show (rx.vrUr.value : Int) = _; omega, hbase⟩
  have standsUh : rx.withWindowBases.vrUh.Stands ((uh : Int) - 512) uh :=
    ⟨by show (rx.vrUh.value : Int) = _; omega, hbase⟩
  have standsLow := standsUh.sub rx.windowSize
  rw [hwindow] at standsLow
  refine ⟨standsUr, standsUh, by rw [hwindow]; exact standsLow, ⟨?_, ?_⟩, ?_⟩
  · show ((number % 1024 : Nat) : Int) = _
    omega
  · show (((rx.withWindowBases.vrUh.sub rx.windowSize).value : Nat) : Int) = _
    rw [hwindow, standsLow.value]
    rfl
  · rw [@insideWindow_iff rx uh number _ hwindow.le (by omega) (by
        show ((number % 1024 : Nat) : Int) = _
        omega) (by rw [hwindow]; omega) (by rw [hwindow]; omega)]
    omega

/-- A unit that is discarded changes the bases only. -/
theorem Framed.discard (framed : Framed path rx ur uh) : Framed path rx.withWindowBases ur uh where
  windowSize := framed.windowSize
  far := framed.far
  le := framed.le
  window := framed.window
  vrUr := framed.vrUr
  vrUh := framed.vrUh
  buffered := framed.buffered
  pending := framed.pending
  timed := by
    have hle := framed.le
    have hwindow := framed.window
    obtain ⟨standsUr, standsUh, -⟩ := @Framed.compares path rx ur uh ur framed (by omega) (by omega)
    exact fun hrunning => ⟨standsUr, standsUh, (framed.timed hrunning).vrUx⟩
  first := framed.first

/-- A unit that is discarded does not reach the defects either. -/
theorem Framed.settles_of_discarded (framed : Framed path rx ur uh) (hlow : uh ≤ number + 512)
    (hhigh : number < uh) (hdiscarded : number < ur ∨
      (ur < number ∧ (rx.rxBuffer (number % 1024)).isSome = true)) :
    rx.Settles (number % 1024) := by
  have hle := framed.le
  have hwindow := framed.window
  obtain ⟨-, -, -, -, hinside⟩ := framed.compares hlow (Nat.lt_add_right 512 hhigh)
  refine ⟨fun hout => absurd (hinside.mpr hhigh) hout, fun hscans => ?_⟩
  have hage : age (number % 1024) (ur % 1024) = (number + 1024 - ur) % 1024 := by
    rw [age]
    omega
  rcases hdiscarded with hbefore | ⟨hbehind, -⟩
  · have hstart : rx.scanStart (number % 1024) = (number + 513) % 1024 := by
      rw [scanStart, framed.vrUr, hage, if_neg (by omega)]
      omega
    rw [hstart] at hscans
    rcases framed.held (hscans.1 _ (Nat.le_refl _) (Nat.mod_lt _ (by decide))) with
      hsame | ⟨other, hother, hother', hmod⟩
    · omega
    · omega
  · have hstart : rx.scanStart (number % 1024) = ur % 1024 := by
      rw [scanStart, framed.vrUr, hage, if_pos (by omega)]
    rw [hstart] at hscans
    rcases framed.held (hscans.1 _ (Nat.le_refl _) (Nat.mod_lt _ (by decide))) with
      hsame | ⟨other, hother, hother', hmod⟩
    · omega
    · omega

/-- Ages tell what is inside the window once a unit has moved it. -/
theorem insideWindow_iff_age {sn : SequenceNumber10} (hwindow : rx.windowSize = 512)
    (huh : rx.vrUh.value = (number + 1) % 1024) (hsn : sn.value < 1024) :
    rx.InsideWindow sn ↔ age (number % 1024) sn.value < 512 := by
  have hinside := @insideWindow_iff rx ((number : Int) + 1)
    ((number : Int) - 511 + ((sn.value : Int) - ((number : Int) - 511)) % 1024) sn hwindow.le
    (by omega) (by omega) (by rw [hwindow]; omega) (by rw [hwindow]; omega)
  rw [hinside, age]
  omega

theorem test_of_mem_takeWhile {test : Nat → Bool} {keys : List Nat} (hsorted : keys.Pairwise (· < ·))
    {key earlier : Nat} (hmem : key ∈ keys.takeWhile test) (hearlier : earlier ∈ keys)
    (hlt : earlier < key) : test earlier = true := by
  induction keys with
  | nil => cases hearlier
  | cons first keys ih =>
      rw [List.pairwise_cons] at hsorted
      rw [List.takeWhile_cons] at hmem
      split at hmem
      next htest =>
        rcases List.mem_cons.mp hearlier with rfl | hbehind
        · exact htest
        · rcases List.mem_cons.mp hmem with rfl | hrest
          · exact absurd (hsorted.1 earlier hbehind) (Nat.lt_asymm hlt)
          · exact ih hsorted.2 hrest hbehind
      next => cases hmem

/-- The keys that are flushed are outside the window; they are all of these, or the first one inside
it comes before one of them. -/
structure Flushes (rx : UmReceiver) (sn : Nat) (flushed : List Nat) : Prop where
  outside : ∀ key ∈ flushed, 512 ≤ age sn key
  all : rx.FlushesFirst sn → ∀ key, rx.Held sn key → 512 ≤ age sn key → key ∈ flushed
  stops : ∀ key later, rx.Held sn later → age sn later < 512 → later < key → key ∉ flushed

/-- The order of the map and the window decide on the keys that are flushed. -/
theorem keysOutside_flushes {placed : UmReceiver} (hwindow : placed.windowSize = 512)
    (huh : placed.vrUh.value = (number + 1) % 1024)
    (hheld : ∀ key, (placed.rxBuffer key).isSome = true ↔ rx.Held (number % 1024) key)
    (hkeys : ∀ key, rx.Held (number % 1024) key → key < 1024)
    (hout : ¬ rx.InsideWindow ⟨number % 1024, 0⟩) :
    Flushes rx (number % 1024) placed.keysOutside := by
  have hsorted : ((List.range 1024).filter fun key =>
      (placed.rxBuffer key).isSome).Pairwise (· < ·) := List.pairwise_lt_range.filter _
  have hmem : ∀ key, key ∈ ((List.range 1024).filter fun key => (placed.rxBuffer key).isSome) ↔
      rx.Held (number % 1024) key := by
    intro key
    rw [List.mem_filter, List.mem_range, hheld]
    exact and_iff_right_of_imp (hkeys key)
  have hoff : ∀ key, key < 1024 →
      (decide (¬ placed.InsideWindow (.ofValue key)) = true ↔ 512 ≤ age (number % 1024) key) := by
    intro key hkey
    have hvalue : (SequenceNumber10.ofValue key).value = key := Nat.mod_eq_of_lt hkey
    rw [decide_eq_true_iff, insideWindow_iff_age hwindow huh (hvalue.symm ▸ hkey), hvalue, not_lt]
  rw [keysOutside]
  generalize ((List.range 1024).filter fun key => (placed.rxBuffer key).isSome) = keys at hsorted hmem ⊢
  refine ⟨fun key hflushed => ?_, fun hfirst key hkey hage => ?_,
    fun key later hlater hage hlt hflushed => ?_⟩
  · have hkey := hkeys key ((hmem key).mp ((List.takeWhile_prefix _).subset hflushed))
    exact (hoff key hkey).mp (List.mem_takeWhile_imp
      (p := fun key => decide ¬ placed.InsideWindow (.ofValue key)) hflushed)
  · rw [takeWhile_eq_filter, List.mem_filter, hmem]
    · exact ⟨hkey, (hoff key (hkeys key hkey)).mpr hage⟩
    · refine hsorted.imp_of_mem fun {earlier later} hearlier hlater hlt htest => ?_
      rw [hmem] at hearlier hlater
      by_contra hinside
      rw [hoff _ (hkeys _ hearlier), not_le] at hinside
      rw [hoff _ (hkeys _ hlater)] at htest
      exact Nat.lt_asymm hlt (hfirst hout later earlier hlater hearlier htest hinside)
  · have htest := test_of_mem_takeWhile hsorted hflushed ((hmem later).mpr hlater) hlt
    rw [hoff later (hkeys later hlater)] at htest
    omega

theorem placed_isSome_iff (rx : UmReceiver) (sn : Nat) (packet : List UInt8) (key : Nat) :
    ((rx.withWindowBases.put sn packet).rxBuffer key).isSome = true ↔ rx.Held sn key := by
  show (Function.update rx.rxBuffer sn (some packet) key).isSome = true ↔ _
  rw [Function.update_apply, Held]
  split
  next heq => exact iff_of_true rfl (.inl heq)
  next hne => exact (or_iff_right hne).symm

theorem Framed.placed_insideWindow (framed : Framed path rx ur uh) (hlow : uh ≤ number + 512)
    (hhigh : number < uh + 512) {seqNumber : SequenceNumber10}
    (hseq : seqNumber.value = number % 1024) (key : Nat) (packet : List UInt8) :
    (rx.withWindowBases.put key packet).InsideWindow seqNumber ↔ number < uh := by
  have hwindow := framed.windowSize
  have hvrUh := framed.vrUh
  rw [@insideWindow_iff (rx.withWindowBases.put key packet) uh number seqNumber hwindow.le
    (by show (rx.vrUh.value : Int) = _; omega) (by omega)
    (by show (uh : Int) - rx.windowSize ≤ _; rw [hwindow]; omega)
    (by show _ < (uh : Int) - rx.windowSize + 1024; rw [hwindow]; omega)]
  omega

/-- VR(UR), or the lower edge of the window when it has passed VR(UR). -/
def scanNumber (ur number : Nat) : Nat := if number < ur + 512 then ur else number - 511

/-- What a unit beyond VR(UH) makes of the window. -/
structure Moved (rx moved : UmReceiver) (ur uh number : Nat) (flushed : List Nat) : Prop where
  windowSize : moved.windowSize = 512
  vrUh : moved.vrUh.value = (number + 1) % 1024
  vrUr : ∃ base : Int, moved.vrUr.Stands base (scanNumber ur number) ∧
    ((base = (uh : Int) - 512 ∧ number < ur + 512) ∨ base = (number : Int) - 511)
  vrUx : moved.vrUx = rx.vrUx
  reorderingTimer : moved.reorderingTimer = rx.reorderingTimer
  firstPduRxed : moved.firstPduRxed = rx.firstPduRxed
  isSome_iff : ∀ key, (moved.rxBuffer key).isSome = true ↔
    rx.Held (number % 1024) key ∧ key ∉ flushed

theorem Framed.scanStart_eq (framed : Framed path rx ur uh) (hlow : ur ≤ number)
    (hhigh : number < uh + 512) : rx.scanStart (number % 1024) = scanNumber ur number % 1024 := by
  have hwindow := framed.window
  have hage : age (number % 1024) (ur % 1024) = (number - ur) % 1024 := by
    rw [age]
    omega
  rw [scanStart, framed.vrUr, hage, scanNumber]
  by_cases hnear : number < ur + 512
  · rw [if_pos hnear, if_pos (by omega)]
  · rw [if_neg hnear]
    split <;> omega

/-- A unit beyond VR(UH) moves the window, and flushes units by their keys. -/
theorem Framed.moveWindow (framed : Framed path rx ur uh) (hlow : uh ≤ number)
    (hhigh : number < uh + 512) {seqNumber : SequenceNumber10}
    (hseq : seqNumber.value = number % 1024) {packet : List UInt8} {moved : UmReceiver}
    {out : List (List UInt8)}
    (hmoved : (rx.withWindowBases.put (number % 1024) packet).moveWindow seqNumber =
      some (moved, out)) :
    ∃ flushed, Flushes rx (number % 1024) flushed ∧
      Moved rx moved ur uh number flushed := by
  have hwindow := framed.windowSize
  have hvrUr := framed.vrUr
  have hvrUh := framed.vrUh
  have hspan := framed.window
  have hle := framed.le
  obtain ⟨standsUr, -, -, -, hinside⟩ := @Framed.compares path rx ur uh number framed (by omega) hhigh
  have hplaced := placed_isSome_iff rx (number % 1024) packet
  have hkeys : ∀ key, rx.Held (number % 1024) key → key < 1024 := by
    intro key hheld
    rcases framed.held hheld with rfl | ⟨other, -, -, rfl⟩
    · exact Nat.mod_lt _ (by decide)
    · exact Nat.mod_lt _ (by decide)
  have hout : ¬ (rx.withWindowBases.put (number % 1024) packet).InsideWindow seqNumber := by
    rw [@Framed.placed_insideWindow path rx ur uh number framed (by omega) hhigh _ hseq]
    omega
  rw [UmReceiver.moveWindow, if_neg hout] at hmoved
  obtain ⟨⟨flushed, rest⟩, hflushed, heq⟩ := Option.map_eq_some_iff.mp hmoved
  let advanced : UmReceiver :=
    { rx.withWindowBases.put (number % 1024) packet with vrUh := seqNumber.add 1 }
  have hadd : (seqNumber.add 1).value = (number + 1) % 1024 := by
    show (seqNumber.value + 1) % 1024 = _
    omega
  have flushes := @keysOutside_flushes rx number advanced.withWindowBase hwindow hadd hplaced hkeys
    fun hin => absurd (hinside.mp hin) (Nat.not_lt.mpr hlow)
  rw [show ({ rx.withWindowBases.put (number % 1024) packet with
    vrUh := seqNumber.add 1 } : UmReceiver) = advanced from rfl, reassembleOutsideWindow] at hflushed
  generalize advanced.withWindowBase.keysOutside = keys at hflushed flushes
  have without := takeOutAll_without keys hflushed
  obtain ⟨same, hrxed⟩ := without.sameWindow
  have hflushedUh : flushed.vrUh.value = (number + 1) % 1024 := by
    rw [same.vrUh]
    exact hadd
  have hkept := @insideWindow_iff_age flushed number flushed.vrUr (same.windowSize.trans hwindow)
    hflushedUh (by
      rw [same.vrUr]
      show rx.vrUr.value < 1024
      omega)
  have hsn : flushed.vrUr = rx.withWindowBases.vrUr := same.vrUr
  have hage : age (number % 1024) flushed.vrUr.value = (number - ur) % 1024 := by
    rw [age, hsn]
    show (number % 1024 + 1024 - rx.vrUr.value) % 1024 = _
    omega
  rw [hage] at hkept
  refine ⟨keys, flushes, ?_⟩
  have hisSome : ∀ key, (flushed.rxBuffer key).isSome = true ↔
      rx.Held (number % 1024) key ∧ key ∉ keys := by
    intro key
    rw [without.isSome_iff, ← hplaced]
    rfl
  simp only at heq
  split at heq
  next hin =>
    cases heq
    have hnear : number < ur + 512 := by
      have := hkept.mp hin
      omega
    refine ⟨same.windowSize.trans hwindow, hflushedUh, ⟨(uh : Int) - 512, ?_, .inl ⟨rfl, hnear⟩⟩,
      same.vrUx, same.reorderingTimer, hrxed, hisSome⟩
    rw [scanNumber, if_pos hnear, hsn]
    exact standsUr
  next hoff =>
    cases heq
    have hfar : ¬ number < ur + 512 := fun hnear => hoff (hkept.mpr (by omega))
    refine ⟨same.windowSize.trans hwindow, hflushedUh, ⟨(number : Int) - 511, ?_, .inr rfl⟩,
      same.vrUx, same.reorderingTimer, hrxed, hisSome⟩
    rw [scanNumber, if_neg hfar]
    show (flushed.vrUh.sub flushed.windowSize).Stands _ _
    have hbase := @sub_value (seqNumber.add 1) ((number : Int) + 1) 512 (by omega)
    have standsUh : flushed.vrUh.Stands ((number : Int) - 511) ((number : Int) + 1) := by
      refine ⟨by omega, ?_⟩
      rw [same.vrUh]
      show (((seqNumber.add 1).sub rx.windowSize).value : Int) = _
      rw [hwindow, hbase]
      omega
    have standsLow := standsUh.sub flushed.windowSize
    rw [same.windowSize, show advanced.withWindowBase.windowSize = 512 from hwindow] at standsLow
    rw [same.windowSize, show advanced.withWindowBase.windowSize = 512 from hwindow]
    convert standsLow using 1
    push_cast
    omega

/-- The scan goes over the last key among the buffered units exactly when it does among those that
stay inside the window. -/
theorem Framed.scansOver_moved (framed : Framed path rx ur uh) (hlow : uh ≤ number)
    (hhigh : number < uh + 512) {moved : UmReceiver} {flushed : List Nat}
    (flushes : Flushes rx (number % 1024) flushed)
    (hmoved : Moved rx moved ur uh number flushed) :
    ScansOver (fun key => (moved.rxBuffer key).isSome = true) (scanNumber ur number % 1024) ↔
      ScansOver (rx.Held (number % 1024)) (rx.scanStart (number % 1024)) := by
  have hle := framed.le
  have hspan := framed.window
  have hnone : ¬ rx.Held (number % 1024) ((number + 1) % 1024) := by
    intro hheld
    rcases framed.held hheld with hsame | ⟨other, hother, hother', hmod⟩
    · omega
    · omega
  rw [framed.scanStart_eq (Nat.le_trans hle hlow) hhigh]
  have hscan : scanNumber ur number ≤ number ∧ number < scanNumber ur number + 512 := by
    rw [scanNumber]
    split <;> omega
  generalize scanNumber ur number = start at hscan
  constructor
  · rintro ⟨hall, hzero⟩
    exact ⟨fun key hkey hlt => ((hmoved.isSome_iff key).mp (hall key hkey hlt)).1,
      ((hmoved.isSome_iff 0).mp hzero).1⟩
  · rintro ⟨hall, hzero⟩
    have hnear : start + (1024 - start % 1024) ≤ number := by
      by_contra hfar
      rcases Nat.eq_or_lt_of_le (Nat.lt_of_not_le hfar) with hlast | hbefore
      · rw [show (number + 1) % 1024 = 0 by omega] at hnone
        exact hnone hzero
      · exact hnone (hall _ (by omega) (Nat.mod_lt _ (by decide)))
    have hstays : ∀ key, age (number % 1024) key < 512 → rx.Held (number % 1024) key →
        (moved.rxBuffer key).isSome = true := fun key hage hheld =>
      (hmoved.isSome_iff key).mpr ⟨hheld, fun hflushed =>
        absurd (flushes.outside key hflushed) (Nat.not_le.mpr hage)⟩
    refine ⟨fun key hkey hlt => hstays key ?_ (hall key hkey hlt), hstays 0 ?_ hzero⟩
    · rw [age]
      omega
    · rw [age]
      omega

/-- VR(UX), while t-Reordering is running. -/
theorem Framed.vrUx (framed : Framed path rx ur uh) (hrunning : rx.reorderingTimer = true) :
    ∃ ux : Nat, ur < ux ∧ ux ≤ uh ∧ rx.vrUx.value = ux % 1024 := by
  obtain ⟨ux, hlow, hhigh, hstands⟩ := (framed.timed hrunning).vrUx hrunning
  have hvalue := hstands.value
  exact ⟨ux, hlow, hhigh, by omega⟩

theorem Framed.not_isSome_vrUr (framed : Framed path rx ur uh) :
    ¬ (rx.rxBuffer (ur % 1024)).isSome = true := by
  have hle := framed.le
  have hspan := framed.window
  intro hsome
  obtain ⟨other, hother, hother', hmod⟩ := framed.buffered _ hsome
  omega

/-- A unit inside the window. -/
theorem Framed.settle_inside (framed : Framed path rx ur uh) (hlow : ur ≤ number) (hhigh : number < uh)
    (hfirst : rx.firstPduRxed = false →
      ¬ ∃ srcL2Id dstL2Id, path = .nrSl true srcL2Id dstL2Id) {packet : List UInt8}
    {last : UmReceiver} {out : List (List UInt8)}
    (hlast : (rx.withWindowBases.put (number % 1024) packet).withWindowBase.moveVrUr =
      some (last, out)) :
    (rx.Settles (number % 1024) ∧ ∃ ur, Framed path last.withTimerBases.moveTimer ur uh) ∨
      (¬ rx.Settles (number % 1024) ∧ ¬ last.withTimerBases.moveTimer.Sound) := by
  have hle := framed.le
  have hspan := framed.window
  obtain ⟨standsUr, -, -, -, hinside⟩ :=
    @Framed.compares path rx ur uh number framed (by omega) (by omega)
  have hplaced := placed_isSome_iff rx (number % 1024) packet
  have hstart : rx.scanStart (number % 1024) = ur % 1024 := by
    rw [framed.scanStart_eq hlow (by omega), scanNumber, if_pos (by omega)]
  have hsettles : rx.Settles (number % 1024) ↔ ¬ ScansOver
      (fun key => ((rx.withWindowBases.put (number % 1024) packet).rxBuffer key).isSome = true)
      (ur % 1024) := by
    rw [Settles, hstart, ScansOver.congr hplaced]
    exact and_iff_right fun hout => absurd (hinside.mpr hhigh) hout
  rw [hsettles, not_not]
  refine @settle_framed path (rx.withWindowBases.put (number % 1024) packet).withWindowBase ur uh
    ((uh : Int) - 512) framed.windowSize framed.far hle hspan standsUr (by omega)
    (fun _ => by omega) framed.vrUh (fun hrunning => ?_) (fun key hkey => ?_) hfirst _ _ hlast
  · obtain ⟨ux, hur, hux, hvalue⟩ := framed.vrUx hrunning
    exact ⟨ux, hux, by omega, hvalue⟩
  · rcases framed.held ((hplaced key).mp hkey) with rfl | ⟨other, hother, hother', rfl⟩
    · exact ⟨number, hlow, hhigh, rfl⟩
    · exact ⟨other, Nat.le_of_lt hother, hother', rfl⟩

/-- A unit beyond VR(UH), when the units that leave the window come first. -/
theorem Framed.settle_beyond (framed : Framed path rx ur uh) (hlow : uh ≤ number)
    (hhigh : number < uh + 512)
    (hfirst : rx.firstPduRxed = false →
      ¬ ∃ srcL2Id dstL2Id, path = .nrSl true srcL2Id dstL2Id)
    {flushed : List Nat} (flushes : Flushes rx (number % 1024) flushed) {moved last : UmReceiver}
    (hmoved : Moved rx moved ur uh number flushed)
    (horder : rx.FlushesFirst (number % 1024)) {out : List (List UInt8)}
    (hlast : moved.moveVrUr = some (last, out)) :
    (rx.Settles (number % 1024) ∧ ∃ ur, Framed path last.withTimerBases.moveTimer ur (number + 1)) ∨
      (¬ rx.Settles (number % 1024) ∧ ¬ last.withTimerBases.moveTimer.Sound) := by
  have hle := framed.le
  have hspan := framed.window
  have hscans := framed.scansOver_moved hlow hhigh flushes hmoved
  have hsettles : rx.Settles (number % 1024) ↔ ¬ ScansOver
      (fun key => (moved.rxBuffer key).isSome = true) (scanNumber ur number % 1024) := by
    rw [Settles, hscans]
    exact and_iff_right horder
  have hscan : scanNumber ur number ≤ number ∧ number < scanNumber ur number + 512 ∧
      (scanNumber ur number = ur ∨ scanNumber ur number = number - 511) ∧
      ur ≤ scanNumber ur number := by
    rw [scanNumber]
    split <;> omega
  have hfar := framed.far
  obtain ⟨base, standsUr, hbase⟩ := hmoved.vrUr
  rw [hsettles, not_not]
  refine settle_framed hmoved.windowSize (by omega) (by omega) (by omega) standsUr ?_ ?_ hmoved.vrUh
    (fun hrunning => ?_) (fun key hkey => ?_)
    (fun hfresh => hfirst (hmoved.firstPduRxed.symm.trans hfresh)) hlast
  · rcases hbase with ⟨rfl, -⟩ | rfl <;> omega
  · intro hsome
    rcases hbase with ⟨rfl, hnear⟩ | rfl
    · rw [scanNumber, if_pos hnear] at hsome
      rcases ((hmoved.isSome_iff _).mp hsome).1 with hsame | hsome
      · omega
      · exact absurd hsome framed.not_isSome_vrUr
    · omega
  · obtain ⟨ux, hur, hux, hvalue⟩ := framed.vrUx (hmoved.reorderingTimer.symm.trans hrunning)
    rw [hmoved.vrUx]
    exact ⟨ux, by omega, by omega, hvalue⟩
  · obtain ⟨hheld, hkept⟩ := (hmoved.isSome_iff key).mp hkey
    have hage : age (number % 1024) key < 512 := by
      by_contra hfar
      exact hkept (flushes.all horder key hheld (Nat.le_of_not_lt hfar))
    rw [age] at hage
    rcases framed.held hheld with rfl | ⟨other, hother, hother', rfl⟩
    · exact ⟨number, by omega, Nat.lt_succ_self _, rfl⟩
    · exact ⟨other, by omega, by omega, rfl⟩

/-- A unit that leaves the window stays in the buffer. -/
theorem Framed.not_sound_of_stuck (framed : Framed path rx ur uh) (hlow : uh ≤ number)
    (hhigh : number < uh + 512) {flushed : List Nat} (flushes : Flushes rx (number % 1024) flushed)
    {moved last : UmReceiver} (hmoved : Moved rx moved ur uh number flushed)
    (horder : ¬ rx.FlushesFirst (number % 1024)) {out : List (List UInt8)}
    (hlast : moved.moveVrUr = some (last, out)) : ¬ last.withTimerBases.moveTimer.Sound := by
  have hle := framed.le
  have hspan := framed.window
  rw [FlushesFirst] at horder
  push Not at horder
  obtain ⟨-, key, later, hkey, hlater, hold, hyoung, hge⟩ := horder
  have hstuck : (moved.rxBuffer key).isSome = true := by
    refine (hmoved.isSome_iff key).mpr ⟨hkey, flushes.stops key later hlater hyoung ?_⟩
    rcases Nat.eq_or_lt_of_le hge with rfl | hlt
    · omega
    · exact hlt
  obtain ⟨other, hother, hother', rfl⟩ : ∃ other, ur < other ∧ other < uh ∧ other % 1024 = key := by
    rcases framed.held hkey with rfl | hsome
    · rw [age] at hold
      omega
    · exact hsome
  have hleft : other + 512 ≤ number := by
    rw [age] at hold
    omega
  have hscan : scanNumber ur number ≤ number ∧ number < scanNumber ur number + 512 ∧
      other < scanNumber ur number + 1 := by
    rw [scanNumber]
    split <;> omega
  obtain ⟨base, standsUr, hbase⟩ := hmoved.vrUr
  obtain ⟨bound, hbound, moves⟩ := @moveVrUr_movedOver moved (scanNumber ur number) base (number + 1)
    standsUr (by rcases hbase with ⟨rfl, hnear⟩ | rfl <;> omega) (by omega) (by omega)
    (fun key hsome => by
      rcases framed.held ((hmoved.isSome_iff key).mp hsome).1 with rfl | ⟨_, -, -, rfl⟩ <;>
        exact Nat.mod_lt _ (by decide))
    (by
      rw [← Option.not_isSome_iff_eq_none]
      intro hsome
      rcases framed.held ((hmoved.isSome_iff _).mp hsome).1 with hsame | ⟨another, _, _, hmod⟩
      · omega
      · omega)
    (fun _ => by rcases hbase with ⟨rfl, hnear⟩ | rfl <;> omega) _ _ hlast
  obtain ⟨vrUr, -, without⟩ := moves.without
  have hvrUh : last.withTimerBases.moveTimer.vrUh.value = (number + 1) % 1024 := by
    rw [moveTimer_vrUh_value, without.sameWindow.1.vrUh]
    exact hmoved.vrUh
  have hkept : (last.rxBuffer (other % 1024)).isSome = true := by
    refine (without.isSome_iff _).mpr ⟨hstuck, ?_⟩
    rintro ⟨another, hge, hlt, hmod⟩
    omega
  intro sound
  have hinside := (sound.inside (other % 1024) (by rw [moveTimer_rxBuffer]; exact hkept)).2.2
  rw [above, above, hvrUh] at hinside
  omega

/-- A unit that is not discarded leaves a sound state unless it reaches the defects. -/
theorem Framed.place (framed : Framed path rx ur uh) (hlow : ur ≤ number)
    (hhigh : number < uh + 512)
    (hfirst : rx.firstPduRxed = false →
      ¬ ∃ srcL2Id dstL2Id, path = .nrSl true srcL2Id dstL2Id)
    {seqNumber : SequenceNumber10} (hseq : seqNumber.value = number % 1024) {packet : List UInt8}
    {next : UmReceiver} {out : List (List UInt8)}
    (hresult : rx.withWindowBases.place seqNumber packet = some (next, out)) :
    (rx.Settles (number % 1024) ∧ ∃ ur' uh', Framed path next ur' uh') ∨
      (¬ rx.Settles (number % 1024) ∧ ¬ next.Sound) := by
  have hspan := framed.window
  rw [UmReceiver.place, hseq] at hresult
  obtain ⟨⟨moved, before⟩, hmoved, hrest⟩ := Option.bind_eq_some_iff.mp hresult
  obtain ⟨⟨last, after⟩, hlast, heq⟩ := Option.map_eq_some_iff.mp hrest
  cases heq
  rcases Nat.lt_or_ge number uh with hold | hbeyond
  · have hinside := (@Framed.placed_insideWindow path rx ur uh number framed (by omega) hhigh _ hseq
      (number % 1024) packet).mpr hold
    rw [UmReceiver.moveWindow, if_pos hinside] at hmoved
    cases hmoved
    exact (framed.settle_inside hlow hold hfirst hlast).imp
      (fun hboth => ⟨hboth.1, hboth.2.imp fun _ hframed => ⟨uh, hframed⟩⟩) id
  · obtain ⟨flushed, flushes, hshape⟩ := framed.moveWindow hbeyond hhigh hseq hmoved
    by_cases horder : rx.FlushesFirst (number % 1024)
    · exact (framed.settle_beyond hbeyond hhigh hfirst flushes hshape horder hlast).imp
        (fun hboth => ⟨hboth.1, hboth.2.imp fun _ hframed => ⟨number + 1, hframed⟩⟩) id
    · exact .inr ⟨fun settles => horder settles.1,
        framed.not_sound_of_stuck hbeyond hhigh flushes hshape horder hlast⟩

/-- A received unit leaves a sound state unless it reaches the defects. -/
theorem Framed.receive (framed : Framed path rx ur uh) {sn : Nat} (hsn : sn < 1024)
    (hfirst : rx.firstPduRxed = false →
      ¬ ∃ srcL2Id dstL2Id, path = .nrSl true srcL2Id dstL2Id) {packet : List UInt8}
    {next : UmReceiver} {out : List (List UInt8)}
    (hresult : rx.receive ⟨sn, 0⟩ packet = some (next, out)) :
    (rx.Settles sn ∧ ∃ ur' uh', Framed path next ur' uh') ∨ (¬ rx.Settles sn ∧ ¬ next.Sound) := by
  have hle := framed.le
  have hspan := framed.window
  have hfar := framed.far
  obtain ⟨number, hlow, hhigh, rfl⟩ :
      ∃ number, uh ≤ number + 512 ∧ number < uh + 512 ∧ number % 1024 = sn :=
    ⟨uh - 512 + (sn + 1024 - (uh - 512) % 1024) % 1024, by omega, by omega, by omega⟩
  obtain ⟨standsUr, standsUh, standsLow, standsSn, -⟩ := framed.compares hlow hhigh
  have hdiscards : rx.withWindowBases.Discards ((⟨number % 1024, 0⟩ : SequenceNumber10).setModulusBase
      (rx.withWindowBases.vrUh.sub rx.withWindowBases.windowSize)) ↔
      (ur < number ∧ number < uh ∧ (rx.rxBuffer (number % 1024)).isSome = true) ∨ number < ur := by
    rw [Discards, standsUr.lt_iff standsSn (by omega) (by omega) (by omega) (by omega),
      standsSn.lt_iff standsUh (by omega) (by omega) (by omega) (by omega),
      standsSn.lt_iff standsUr (by omega) (by omega) (by omega) (by omega)]
    have hlower : (rx.withWindowBases.vrUh.sub rx.withWindowBases.windowSize).Le
        ((⟨number % 1024, 0⟩ : SequenceNumber10).setModulusBase
          (rx.withWindowBases.vrUh.sub rx.withWindowBases.windowSize)) :=
      (standsLow.le_iff standsSn (by omega) (by omega) (by omega) (by omega)).mpr (by omega)
    rw [and_iff_right hlower]
    exact or_congr (and_congr Nat.cast_lt (and_congr Nat.cast_lt Iff.rfl)) Nat.cast_lt
  rw [UmReceiver.receive] at hresult
  split at hresult
  next hdiscarded =>
    cases hresult
    refine .inl ⟨?_, ur, uh, framed.discard⟩
    rcases hdiscards.mp hdiscarded with ⟨hbehind, hbefore, hsome⟩ | hless
    · exact framed.settles_of_discarded hlow hbefore (.inr ⟨hbehind, hsome⟩)
    · exact framed.settles_of_discarded hlow (by omega) (.inl hless)
  next hkept =>
    have hge : ur ≤ number := by
      by_contra hless
      exact hkept (hdiscards.mpr (.inr (Nat.lt_of_not_le hless)))
    exact framed.place hge hhigh hfirst rfl hresult

/-- In an empty window no unit reaches the defects. -/
theorem settles_of_empty {sn : Nat} (hvrUr : rx.vrUr.value < 1024)
    (hempty : ∀ key, ¬ (rx.rxBuffer key).isSome = true) : rx.Settles sn := by
  have honly : ∀ key, rx.Held sn key → key = sn := fun key hheld => hheld.resolve_right (hempty key)
  refine ⟨fun _ key later hkey hlater hold hyoung => ?_, fun hscans => ?_⟩
  · rw [honly key hkey] at hold
    rw [honly later hlater] at hyoung
    omega
  · have hstart : rx.scanStart sn ≤ 1023 := by
      rw [scanStart]
      split <;> omega
    have hzero := honly 0 hscans.2
    have hlast := honly 1023 (hscans.1 1023 hstart (by decide))
    omega

theorem deserialize_sequenceNumber_lt {packet : List UInt8} {rlcHeader : LteRlcHeader}
    (hread : LteRlcHeader.deserialize packet = some rlcHeader) : rlcHeader.sequenceNumber < 1024 := by
  rw [LteRlcHeader.deserialize.eq_def] at hread
  split at hread
  next =>
    simp only at hread
    split at hread
    next =>
      cases hread
      exact Nat.mod_lt _ (by decide)
    next =>
      obtain ⟨fields, -, rfl⟩ := Option.map_eq_some_iff.mp hread
      exact Nat.mod_lt _ (by decide)
  next => cases hread

/-- A packet received on a path leaves a sound state unless it reaches the defects. -/
theorem Framed.receivePdu (framed : Framed path rx ur uh) {packet : List UInt8} {next : UmReceiver}
    {out : List (List UInt8)} (hresult : UmReceiver.receivePdu path rx packet = some (next, out)) :
    ∃ rlcHeader, LteRlcHeader.deserialize packet = some rlcHeader ∧
      ((rx.Settles rlcHeader.sequenceNumber ∧ ∃ ur' uh', Framed path next ur' uh') ∨
        (¬ rx.Settles rlcHeader.sequenceNumber ∧ ¬ next.Sound)) := by
  cases path with
  | lte =>
      rw [UmReceiver.receivePdu, doReceivePdu] at hresult
      split at hresult
      next => cases hresult
      next rlcHeader hread =>
        have hlater : rx.firstPduRxed = false →
            ¬ ∃ srcL2Id dstL2Id, Path.lte = .nrSl true srcL2Id dstL2Id := by
          rintro - ⟨srcL2Id, dstL2Id, heq⟩
          cases heq
        exact ⟨rlcHeader, hread,
          framed.receive (deserialize_sequenceNumber_lt hread) hlater hresult⟩
  | nrSl stch srcL2Id dstL2Id =>
      rw [UmReceiver.receivePdu, doReceiveNrSlRlcPdu] at hresult
      split at hresult
      next => cases hresult
      next rlcHeader hread =>
        have hsn := deserialize_sequenceNumber_lt hread
        refine ⟨rlcHeader, hread, ?_⟩
        simp only at hresult
        split at hresult
        next => cases hresult
        split at hresult
        next hfresh =>
          obtain ⟨rfl, hfresh⟩ := hfresh
          have hsame := framed.first hfresh ⟨srcL2Id, dstL2Id, rfl⟩
          have hempty : ∀ key, ¬ (rx.rxBuffer key).isSome = true := by
            intro key hsome
            obtain ⟨number, hlow, hhigh, -⟩ := framed.buffered key hsome
            omega
          have hidle : ¬ rx.reorderingTimer = true := by
            rw [framed.pending, hsame]
            exact Nat.lt_irrefl _
          have hvalue := framed.vrUr
          have hfirst : Framed (.nrSl true srcL2Id dstL2Id)
              { rx with
                vrUr := ⟨rlcHeader.sequenceNumber, 0⟩
                vrUh := ⟨rlcHeader.sequenceNumber, 0⟩
                expectedSeqNumber := ⟨rlcHeader.sequenceNumber, 0⟩
                firstPduRxed := true }
              (rlcHeader.sequenceNumber + 1024) (rlcHeader.sequenceNumber + 1024) :=
            { windowSize := framed.windowSize
              far := Nat.le_add_left _ _
              le := Nat.le_refl _
              window := Nat.le_add_right _ _
              vrUr := by
                show rlcHeader.sequenceNumber = _
                omega
              vrUh := by
                show rlcHeader.sequenceNumber = _
                omega
              buffered := fun key hsome => absurd hsome (hempty key)
              pending := iff_of_false hidle (Nat.lt_irrefl _)
              timed := fun hrunning => absurd hrunning hidle
              first := fun hfresh => Bool.noConfusion hfresh }
          have hsettles := @settles_of_empty rx rlcHeader.sequenceNumber (by omega) hempty
          rcases hfirst.receive hsn (fun hfresh => Bool.noConfusion hfresh) hresult with
            hkept | hlost
          · exact .inl ⟨hsettles, hkept.2⟩
          · exact (hlost.1 (settles_of_empty hsn hempty)).elim
        next hlater =>
          refine framed.receive hsn (fun hfresh hstch => hlater ⟨?_, hfresh⟩) hresult
          obtain ⟨_, _, heq⟩ := hstch
          cases heq
          rfl

/-- When t-Reordering expires, the state stays sound. -/
theorem Framed.expire (framed : Framed path rx ur uh) {next : UmReceiver} {out : List (List UInt8)}
    (hresult : rx.expireReorderingTimer = some (next, out)) : ∃ ur', Framed path next ur' uh := by
  have hle := framed.le
  have hspan := framed.window
  rw [expireReorderingTimer] at hresult
  split at hresult
  next hrunning =>
    have timed := framed.timed hrunning
    obtain ⟨ux, hur, hux, standsUx⟩ := timed.vrUx hrunning
    obtain ⟨bound, hbelow, standsNew, hall⟩ := @firstMissingSn_spec rx.rxBuffer _ 1024 _ _ standsUx
    have hbound : bound ≤ uh := by
      by_contra hless
      obtain ⟨other, hother, hother', hmod⟩ :=
        framed.buffered _ (hall uh hux (Nat.lt_of_not_le hless))
      omega
    have hvalue : (firstMissingSn rx.rxBuffer 1024 rx.vrUx).value = bound % 1024 := by
      have := standsNew.value
      omega
    have hmissing : ¬ (rx.rxBuffer (bound % 1024)).isSome = true := by
      rcases @firstMissingSn_stops rx.rxBuffer _ 1024 _ _ standsUx with hfull | hstops
      · obtain ⟨other, hother, hother', hmod⟩ :=
          framed.buffered _ (hfull uh hux (by omega))
        omega
      · rw [← hvalue, hstops]
        exact Bool.false_ne_true
    obtain ⟨⟨last, rest⟩, hlast, heq⟩ := Option.map_eq_some_iff.mp hresult
    have without := interval_without 1024 (Nat.le_trans (Nat.le_of_lt hur) hbelow) timed.vrUr
      standsNew (by omega) (by omega) (by omega) hlast
    obtain ⟨same, hrxed⟩ := without.sameWindow
    have standsUr : last.vrUr.Stands ((uh : Int) - 512) bound := by
      rw [same.vrUr]
      exact standsNew
    have standsUh : last.vrUh.Stands ((uh : Int) - 512) uh := by
      rw [same.vrUh]
      exact timed.vrUh
    have hgt := standsUh.gt_iff standsUr (by omega) (by omega) (by omega) (by omega)
    have hvrUr : last.vrUr.value = bound % 1024 := by
      rw [same.vrUr]
      exact hvalue
    have hvrUh : last.vrUh.value = uh % 1024 := by
      rw [same.vrUh]
      exact framed.vrUh
    have hbuffered : ∀ key, (last.rxBuffer key).isSome = true →
        ∃ number, bound < number ∧ number < uh ∧ number % 1024 = key := by
      intro key hkey
      obtain ⟨hkept, hleft⟩ := (without.isSome_iff key).mp hkey
      obtain ⟨number, hlow, hhigh, rfl⟩ := framed.buffered key hkept
      refine ⟨number, ?_, hhigh, rfl⟩
      by_contra hless
      rcases Nat.eq_or_lt_of_le (Nat.le_of_not_lt hless) with rfl | hbefore
      · exact hmissing hkept
      · exact hleft ⟨number, Nat.le_of_lt hlow, hbefore, rfl⟩
    have hfirst : last.firstPduRxed = false →
        (∃ srcL2Id dstL2Id, path = .nrSl true srcL2Id dstL2Id) → bound = uh := by
      intro hfresh hstch
      have := framed.first (hrxed.symm.trans hfresh) hstch
      omega
    cases heq
    refine ⟨bound, ?_⟩
    simp only
    split
    next hstart =>
      exact ⟨same.windowSize.trans framed.windowSize, framed.far, hbound, by omega, hvrUr, hvrUh,
        hbuffered, iff_of_true rfl (by have := hgt.mp hstart; omega),
        fun _ => ⟨standsUr, standsUh, fun _ => ⟨uh, by have := hgt.mp hstart; omega,
          Nat.le_refl _, standsUh⟩⟩, hfirst⟩
    next hstay =>
      exact ⟨same.windowSize.trans framed.windowSize, framed.far, hbound, by omega, hvrUr, hvrUh,
        hbuffered, iff_of_false Bool.false_ne_true (fun hless => hstay (hgt.mpr (by omega))),
        fun hrunning => absurd hrunning Bool.false_ne_true, hfirst⟩
  next => cases hresult

end Receive

/-! ## Runs -/

inductive WindowEvent
  | pdu (packet : List UInt8)
  | expiration

/-- A packet is received on a path, or t-Reordering expires. -/
def windowStep (path : Path) (rx : UmReceiver) : WindowEvent → Option UmReceiver
  | .pdu packet => (receivePdu path rx packet).map Prod.fst
  | .expiration => rx.expireReorderingTimer.map Prod.fst

/-- A received packet does not reach the defects of the window. -/
def Settling (rx : UmReceiver) : WindowEvent → Prop
  | .pdu packet => ∀ rlcHeader ∈ LteRlcHeader.deserialize packet, rx.Settles rlcHeader.sequenceNumber
  | .expiration => True

theorem start_framed (path : Path) : Framed path {} 1024 1024 where
  windowSize := rfl
  far := Nat.le_refl _
  le := Nat.le_refl _
  window := Nat.le_add_right _ _
  vrUr := rfl
  vrUh := rfl
  buffered := fun _ hsome => absurd hsome Bool.false_ne_true
  pending := iff_of_false Bool.false_ne_true (Nat.lt_irrefl _)
  timed := fun hrunning => absurd hrunning Bool.false_ne_true
  first := fun _ _ => rfl

/-- The states of a run are all sound exactly when no packet reaches the defects of the window. -/
theorem sound_iff_settling (path : Path) {events : List WindowEvent} {last : UmReceiver}
    (hrun : runFrom (windowStep path) {} events = some last) :
    (∀ before state, before <+: events → runFrom (windowStep path) {} before = some state →
      state.Sound) ↔ Fitting (windowStep path) Settling {} events := by
  refine forall_reached_iff_fitting (windowStep path) (fun rx => ∃ ur uh, Framed path rx ur uh) Sound
    ?_ ⟨1024, 1024, start_framed path⟩ (start_framed path).sound hrun
  rintro rx event next ⟨ur, uh, framed⟩ hstep
  cases event with
  | pdu packet =>
      obtain ⟨⟨received, out⟩, hreceived, rfl⟩ := Option.map_eq_some_iff.mp hstep
      obtain ⟨rlcHeader, hread, hcases⟩ := framed.receivePdu hreceived
      have hsettling : Settling rx (.pdu packet) ↔ rx.Settles rlcHeader.sequenceNumber := by
        rw [Settling, hread]
        exact ⟨fun hall => hall rlcHeader rfl, fun hsettles other hother =>
          Option.some.inj hother ▸ hsettles⟩
      rw [hsettling]
      refine hcases.imp (fun hkept => ?_) id
      obtain ⟨hsettles, ur', uh', hnext⟩ := hkept
      exact ⟨hsettles, ⟨ur', uh', hnext⟩, hnext.sound⟩
  | expiration =>
      obtain ⟨⟨expired, out⟩, hexpired, rfl⟩ := Option.map_eq_some_iff.mp hstep
      obtain ⟨ur', hnext⟩ := framed.expire hexpired
      exact .inl ⟨trivial, ⟨ur', uh, hnext⟩, hnext.sound⟩

/-- A packet that carries one unit of one byte. -/
def oneByte (sn : Nat) (byte : UInt8) : List UInt8 :=
  [UInt8.ofNat (sn / 256), UInt8.ofNat (sn % 256), byte]

/-- The second unit is lost for good, and the fourth comes before the third. -/
def reordered : List WindowEvent :=
  [.pdu (oneByte 0 7), .pdu (oneByte 3 8), .pdu (oneByte 2 9), .expiration]

theorem sound_iff_settling_reordered :
    ∃ last, runFrom (windowStep .lte) {} reordered = some last ∧
      ((∀ before state, before <+: reordered → runFrom (windowStep .lte) {} before = some state →
        state.Sound) ↔ Fitting (windowStep .lte) Settling {} reordered) := by
  obtain ⟨last, hlast⟩ := Option.isSome_iff_exists.mp
    (show (runFrom (windowStep .lte) {} reordered).isSome = true by decide +kernel)
  exact ⟨last, hlast, sound_iff_settling .lte hlast⟩

/-- The unit 1023 comes behind the unit 0: the scan goes on to 1024, so VR(UR) is 0, which is
buffered. -/
theorem not_sound_of_wrap :
    ∃ rx, runFrom (windowStep (.nrSl true 1 2)) {}
        [.pdu (oneByte 1022 7), .pdu (oneByte 0 8), .pdu (oneByte 1023 9)] = some rx ∧
      rx.vrUr.value = 0 ∧ (rx.rxBuffer 0).isSome = true ∧ ¬ rx.Sound := by
  have hresult : (runFrom (windowStep (.nrSl true 1 2)) {}
      [.pdu (oneByte 1022 7), .pdu (oneByte 0 8), .pdu (oneByte 1023 9)]).map
        (fun rx => (rx.vrUr.value, (rx.rxBuffer 0).isSome)) = some (0, true) := by decide +kernel
  obtain ⟨rx, hrun, heq⟩ := Option.map_eq_some_iff.mp hresult
  obtain ⟨hvrUr, hsome⟩ := Prod.mk.inj heq
  refine ⟨rx, hrun, hvrUr, hsome, fun sound => ?_⟩
  have hmissing := sound.missing
  rw [hvrUr] at hmissing
  rw [hmissing] at hsome
  cases hsome

end UmReceiver

end DeepcV2x.Rlc
