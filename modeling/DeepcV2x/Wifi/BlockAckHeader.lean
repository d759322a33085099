import DeepcV2x.Wifi.Reorder
import Mathlib.Data.Nat.Bitwise

/-!
# The header of a block ack

`CtrlBAckResponseHeader` with its bitmaps, and how a recipient fills one from
its scoreboard.  A failed assertion, a fatal error or an index behind the end
of a vector ends the run.
-/

namespace DeepcV2x.Wifi

/-- `BlockAckType::Variant`. -/
inductive Variant
  | basic
  | compressed
  | extendedCompressed
  | multiTid
  | multiSta
  deriving DecidableEq, Repr

/-- `BlockAckType`, with the lengths of its bitmaps in bytes. -/
structure BlockAckType where
  variant : Variant
  bitmapLen : List Nat
  deriving DecidableEq, Repr

/-- The bitmap lengths of the standard, in bits. -/
def lengths : List Nat := [64, 256, 512, 1024]

/-- `BlockAckAgreement::GetBlockAckType` of an agreement with HT support: the first length that is
not below the size of the buffer. -/
def getBlockAckType (bufferSize : Nat) : Option BlockAckType :=
  (lengths.find? fun length => bufferSize ≤ length).map fun length =>
    ⟨.compressed, [length / 8 % 256]⟩

structure BaInfoInstance where
  aidTidInfo : Nat
  startingSeq : Nat
  bitmap : List Nat
  deriving DecidableEq, Repr

structure CtrlBAckResponseHeader where
  baType : BlockAckType
  tidInfo : Nat
  baInfo : List BaInfoInstance
  deriving DecidableEq, Repr

namespace CtrlBAckResponseHeader

/-- `SetType`. -/
def setType (header : CtrlBAckResponseHeader) (type : BlockAckType) : CtrlBAckResponseHeader :=
  { header with
    baType := type
    baInfo := type.bitmapLen.map fun bitmapLen => ⟨0, 0, List.replicate bitmapLen 0⟩ }

/-- Only a Multi-STA block ack may have another index than 0. -/
def IndexAsserted (header : CtrlBAckResponseHeader) (asserts : Bool) (index : Nat) : Prop :=
  asserts = true → header.baType.variant = .multiSta ∨ index = 0

instance (header : CtrlBAckResponseHeader) (asserts : Bool) (index : Nat) :
    Decidable (header.IndexAsserted asserts index) :=
  inferInstanceAs (Decidable (_ → _))

/-- An instance, for a function that asserts its index. -/
def instanceAt (header : CtrlBAckResponseHeader) (asserts : Bool) (index : Nat) :
    Option BaInfoInstance :=
  if header.IndexAsserted asserts index then header.baInfo[index]? else none

/-- An instance put in the place of another one. -/
def putInstance (header : CtrlBAckResponseHeader) (index : Nat) (info : BaInfoInstance) :
    CtrlBAckResponseHeader :=
  { header with baInfo := header.baInfo.set index info }

/-- `SetStartingSequence`. -/
def setStartingSequence (header : CtrlBAckResponseHeader) (asserts : Bool) (seq index : Nat) :
    Option CtrlBAckResponseHeader :=
  (header.instanceAt asserts index).map fun info =>
    header.putInstance index { info with startingSeq := seq }

/-- `ResetBitmap`. -/
def resetBitmap (header : CtrlBAckResponseHeader) (asserts : Bool) (index : Nat) :
    Option CtrlBAckResponseHeader := do
  let info ← header.instanceAt asserts index
  let bitmapLen ← header.baType.bitmapLen[index]?
  some (header.putInstance index { info with bitmap := List.replicate bitmapLen 0 })

/-- How many MPDUs a bitmap acknowledges. -/
def nAckedMpdus (header : CtrlBAckResponseHeader) (index : Nat) : Option Nat :=
  (header.baType.bitmapLen[index]?).map fun bitmapLen =>
    if header.baType.variant = .basic then bitmapLen * 8 / 16 else bitmapLen * 8

/-- `IndexInBitmap`. -/
def indexInBitmap (header : CtrlBAckResponseHeader) (asserts : Bool) (seq index : Nat) :
    Option Nat := do
  let info ← header.baInfo[index]?
  let nAckedMpdus ← header.nAckedMpdus index
  let i := (if info.startingSeq ≤ seq then seq - info.startingSeq
    else seq + 4096 + 65536 - info.startingSeq) % 65536
  if asserts = true ∧ ¬ i < nAckedMpdus then none else some i

/-- `IsInBitmap`. -/
def isInBitmap (header : CtrlBAckResponseHeader) (asserts : Bool) (seq index : Nat) :
    Option Bool := do
  let info ← header.instanceAt asserts index
  let nAckedMpdus ← header.nAckedMpdus index
  some (decide (wrapped seq info.startingSeq < nAckedMpdus))

/-- A bit of a byte of the bitmap is set. -/
def markBitmap (header : CtrlBAckResponseHeader) (index place mask : Nat) :
    Option CtrlBAckResponseHeader := do
  let info ← header.baInfo[index]?
  let byte ← info.bitmap[place]?
  some (header.putInstance index { info with bitmap := info.bitmap.set place (byte ||| mask) })

/-- `SetReceivedPacket`. -/
def setReceivedPacket (header : CtrlBAckResponseHeader) (asserts : Bool) (seq index : Nat) :
    Option CtrlBAckResponseHeader := do
  let _ ← header.instanceAt asserts index
  let inBitmap ← header.isInBitmap asserts seq index
  if inBitmap then
    match header.baType.variant with
    | .basic =>
        let i ← header.indexInBitmap asserts seq 0
        header.markBitmap index (i * 2) 1
    | .compressed | .extendedCompressed | .multiSta =>
        let i ← header.indexInBitmap asserts seq index
        header.markBitmap index (i / 8) (1 <<< (i % 8))
    | .multiTid => none
  else some header

/-- `GetAckType` of an instance. -/
def BaInfoInstance.ackType (info : BaInfoInstance) : Bool := info.aidTidInfo >>> 11 &&& 1 ≠ 0

/-- `GetTidInfo` of an instance of a Multi-STA block ack. -/
def BaInfoInstance.tid (info : BaInfoInstance) : Nat := info.aidTidInfo >>> 12 &&& 15

/-- An All-ack context. -/
def AllAck (header : CtrlBAckResponseHeader) (info : BaInfoInstance) : Prop :=
  header.baType.variant = .multiSta ∧ BaInfoInstance.ackType info = true ∧
    BaInfoInstance.tid info = 14

instance (header : CtrlBAckResponseHeader) (info : BaInfoInstance) :
    Decidable (header.AllAck info) :=
  inferInstanceAs (Decidable (_ ∧ _))

/-- `IsPacketReceived`. -/
def isPacketReceived (header : CtrlBAckResponseHeader) (asserts : Bool) (seq index : Nat) :
    Option Bool := do
  let info ← header.instanceAt asserts index
  if header.AllAck info then some true
  else
    let inBitmap ← header.isInBitmap asserts seq index
    if inBitmap then
      match header.baType.variant with
      | .basic => some false
      | .compressed | .extendedCompressed | .multiSta =>
          let i ← header.indexInBitmap asserts seq index
          let byte ← info.bitmap[i / 8]?
          some (byte &&& (1 <<< (i % 8)) ≠ 0)
      | .multiTid => none
    else some false

end CtrlBAckResponseHeader

/-! ## Filling a bitmap -/

namespace BlockAckWindow

/-- `At`, read. -/
def getAt (window : BlockAckWindow) (asserts : Bool) (distance : Nat) : Option Bool :=
  if window.getWinSize = 0 ∨ asserts = true ∧ ¬ distance < window.getWinSize then none
  else window.window[(window.head + distance) % window.getWinSize]?

/-- The loop of `FillBlockAckBitmap`. -/
def fillLoop (window : BlockAckWindow) (asserts : Bool) (index : Nat) :
    List Nat → CtrlBAckResponseHeader → Option CtrlBAckResponseHeader
  | [], header => some header
  | i :: rest, header => do
      let bit ← window.getAt asserts i
      let next ←
        if bit then header.setReceivedPacket asserts ((window.winStart + i) % 4096) index
        else some header
      fillLoop window asserts index rest next

/-- `FillBlockAckBitmap`. -/
def fillBlockAckBitmap (window : BlockAckWindow) (asserts : Bool)
    (header : CtrlBAckResponseHeader) (index : Nat) : Option CtrlBAckResponseHeader :=
  match header.baType.variant with
  | .basic | .multiTid => none
  | .compressed | .extendedCompressed | .multiSta => do
      let started ← header.setStartingSequence asserts window.winStart index
      let reset ← started.resetBitmap asserts index
      window.fillLoop asserts index (List.range window.getWinSize) reset

end BlockAckWindow

/-! ## What a bitmap says -/

/-- How far a number is ahead of the start of the window. -/
def ahead (start number : Nat) : Nat := (number + 4096 - start) % 4096

theorem ahead_lt (start number : Nat) : ahead start number < 4096 := Nat.mod_lt _ (by decide)

/-- The bit at a distance from the starting sequence number. -/
def BaInfoInstance.Marked (info : BaInfoInstance) (distance : Nat) : Prop :=
  ∃ byte ∈ info.bitmap[distance / 8]?, byte.testBit (distance % 8) = true

namespace CtrlBAckResponseHeader

/-- A header that a recipient may fill at an index: of a type with a bitmap for each number, and no
All-ack context. -/
structure Ready (header : CtrlBAckResponseHeader) (asserts : Bool) (index : Nat)
    (info : BaInfoInstance) : Prop where
  notBasic : header.baType.variant ≠ .basic
  notMultiTid : header.baType.variant ≠ .multiTid
  asserted : header.IndexAsserted asserts index
  stored : header.baInfo[index]? = some info
  bitmapLen : header.baType.bitmapLen[index]? = some info.bitmap.length
  allAck : ¬ header.AllAck info

variable {header : CtrlBAckResponseHeader} {asserts : Bool} {index : Nat} {info : BaInfoInstance}

theorem Ready.instanceAt (ready : header.Ready asserts index info) :
    header.instanceAt asserts index = some info := by
  rw [CtrlBAckResponseHeader.instanceAt, if_pos ready.asserted, ready.stored]

theorem Ready.nAckedMpdus (ready : header.Ready asserts index info) :
    header.nAckedMpdus index = some (info.bitmap.length * 8) := by
  rw [CtrlBAckResponseHeader.nAckedMpdus, ready.bitmapLen, Option.map_some, if_neg ready.notBasic]

/-- An instance may be changed in its starting number and its bits. -/
theorem Ready.putInstance (ready : header.Ready asserts index info) (next : BaInfoInstance)
    (htid : next.aidTidInfo = info.aidTidInfo) (hlength : next.bitmap.length = info.bitmap.length) :
    (header.putInstance index next).Ready asserts index next where
  notBasic := ready.notBasic
  notMultiTid := ready.notMultiTid
  asserted := ready.asserted
  stored := by
    obtain ⟨hlt, -⟩ := List.getElem?_eq_some_iff.mp ready.stored
    exact List.getElem?_set_self hlt
  bitmapLen := by rw [hlength, ← ready.bitmapLen]; rfl
  allAck := fun hall => ready.allAck ⟨hall.1, by
    rw [BaInfoInstance.ackType, ← htid]
    exact hall.2.1, by
    rw [BaInfoInstance.tid, ← htid]
    exact hall.2.2⟩

theorem Ready.isInBitmap (ready : header.Ready asserts index info) {seq : Nat}
    (hstart : info.startingSeq < 4096) (hseq : seq < 4096) :
    header.isInBitmap asserts seq index =
      some (decide (ahead info.startingSeq seq < info.bitmap.length * 8)) := by
  rw [CtrlBAckResponseHeader.isInBitmap, ready.instanceAt, ready.nAckedMpdus]
  simp only [Option.bind_eq_bind, Option.bind_some, wrapped_eq hseq hstart, ahead, Option.some_inj]
  exact decide_eq_decide.mpr Int.ofNat_lt

theorem Ready.indexInBitmap (ready : header.Ready asserts index info) {seq : Nat}
    (hstart : info.startingSeq < 4096) (hseq : seq < 4096)
    (hin : ahead info.startingSeq seq < info.bitmap.length * 8) :
    header.indexInBitmap asserts seq index = some (ahead info.startingSeq seq) := by
  have hi : (if info.startingSeq ≤ seq then seq - info.startingSeq
      else seq + 4096 + 65536 - info.startingSeq) % 65536 = ahead info.startingSeq seq := by
    rw [ahead]
    split
    next => omega
    next => omega
  rw [CtrlBAckResponseHeader.indexInBitmap, ready.stored, ready.nAckedMpdus]
  simp only [Option.bind_eq_bind, Option.bind_some, hi]
  exact if_neg fun hfail => hfail.2 hin

/-- A bit of a byte of the bitmap. -/
theorem marked_set {place : Nat} (hplace : place < info.bitmap.length * 8) {byte : Nat}
    (hbyte : info.bitmap[place / 8]? = some byte) (distance : Nat) :
    BaInfoInstance.Marked { info with
      bitmap := info.bitmap.set (place / 8) (byte ||| 1 <<< (place % 8)) } distance ↔
      distance = place ∨ info.Marked distance := by
  have hlt : place / 8 < info.bitmap.length := by omega
  rw [BaInfoInstance.Marked, BaInfoInstance.Marked, List.getElem?_set]
  by_cases hsame : place / 8 = distance / 8
  · rw [if_pos hsame, if_pos hlt, ← hsame, hbyte]
    simp only [Option.mem_some_iff, exists_eq_left', Nat.testBit_or, Nat.one_shiftLeft,
      Nat.testBit_two_pow, Bool.or_eq_true, decide_eq_true_iff]
    rw [or_comm]
    refine or_congr_left ?_
    omega
  · rw [if_neg hsame, or_iff_right]
    rintro rfl
    exact hsame rfl

/-- A received packet is marked, and nothing else. -/
theorem Ready.setReceivedPacket (ready : header.Ready asserts index info) {seq : Nat}
    (hstart : info.startingSeq < 4096) (hseq : seq < 4096)
    (hin : ahead info.startingSeq seq < info.bitmap.length * 8) :
    ∃ next info', header.setReceivedPacket asserts seq index = some next ∧
      next.Ready asserts index info' ∧ info'.startingSeq = info.startingSeq ∧
      info'.bitmap.length = info.bitmap.length ∧
      ∀ distance, info'.Marked distance ↔
        distance = ahead info.startingSeq seq ∨ info.Marked distance := by
  obtain ⟨byte, hbyte⟩ : ∃ byte, info.bitmap[ahead info.startingSeq seq / 8]? = some byte :=
    ⟨_, List.getElem?_eq_getElem (by omega)⟩
  obtain ⟨info', hinfo⟩ : ∃ info', info' = { info with
      bitmap := info.bitmap.set (ahead info.startingSeq seq / 8)
        (byte ||| 1 <<< (ahead info.startingSeq seq % 8)) } := ⟨_, rfl⟩
  have hlength : info'.bitmap.length = info.bitmap.length := hinfo ▸ List.length_set
  have hmark : header.markBitmap index (ahead info.startingSeq seq / 8)
      (1 <<< (ahead info.startingSeq seq % 8)) = some (header.putInstance index info') := by
    rw [markBitmap, ready.stored]
    simp only [Option.bind_eq_bind, Option.bind_some, hbyte, hinfo]
  refine ⟨_, info', ?_, ready.putInstance info' (hinfo ▸ rfl) hlength, hinfo ▸ rfl, hlength,
    hinfo ▸ marked_set hin hbyte⟩
  rw [CtrlBAckResponseHeader.setReceivedPacket, ready.instanceAt, ready.isInBitmap hstart hseq,
    decide_eq_true hin]
  simp only [Option.bind_eq_bind, Option.bind_some, if_true, ready.indexInBitmap hstart hseq hin]
  have hbasic := ready.notBasic
  have hmultiTid := ready.notMultiTid
  cases hvariant : header.baType.variant with
  | basic => exact absurd hvariant hbasic
  | multiTid => exact absurd hvariant hmultiTid
  | compressed => exact hmark
  | extendedCompressed => exact hmark
  | multiSta => exact hmark

/-- What the originator reads. -/
theorem Ready.isPacketReceived (ready : header.Ready asserts index info) {seq : Nat}
    (hstart : info.startingSeq < 4096) (hseq : seq < 4096) :
    ∃ answer, header.isPacketReceived asserts seq index = some answer ∧
      (answer = true ↔ info.Marked (ahead info.startingSeq seq)) := by
  rw [CtrlBAckResponseHeader.isPacketReceived, ready.instanceAt, ready.isInBitmap hstart hseq]
  simp only [Option.bind_eq_bind, Option.bind_some, if_neg ready.allAck]
  by_cases hin : ahead info.startingSeq seq < info.bitmap.length * 8
  · obtain ⟨byte, hbyte⟩ : ∃ byte, info.bitmap[ahead info.startingSeq seq / 8]? = some byte :=
      ⟨_, List.getElem?_eq_getElem (by omega)⟩
    have hread : info.Marked (ahead info.startingSeq seq) ↔
        byte &&& 1 <<< (ahead info.startingSeq seq % 8) ≠ 0 := by
      rw [BaInfoInstance.Marked, hbyte, Nat.one_shiftLeft, Nat.and_two_pow]
      simp only [Option.mem_some_iff, exists_eq_left']
      cases byte.testBit (ahead info.startingSeq seq % 8) <;> simp
    rw [decide_eq_true hin, hread]
    simp only [if_true, ready.indexInBitmap hstart hseq hin, Option.bind_some, hbyte]
    have hbasic := ready.notBasic
    have hmultiTid := ready.notMultiTid
    cases hvariant : header.baType.variant with
    | basic => exact absurd hvariant hbasic
    | multiTid => exact absurd hvariant hmultiTid
    | compressed => exact ⟨_, rfl, decide_eq_true_iff⟩
    | extendedCompressed => exact ⟨_, rfl, decide_eq_true_iff⟩
    | multiSta => exact ⟨_, rfl, decide_eq_true_iff⟩
  · rw [decide_eq_false hin]
    refine ⟨false, if_neg Bool.false_ne_true, iff_of_false Bool.false_ne_true ?_⟩
    rintro ⟨byte, hbyte, -⟩
    obtain ⟨hlt, -⟩ := List.getElem?_eq_some_iff.mp hbyte
    omega

/-- The header that is sent for an agreement has a bitmap for its whole window. -/
theorem ready_getBlockAckType (header : CtrlBAckResponseHeader) (asserts : Bool) {bufferSize : Nat}
    (hsize : bufferSize ≤ 1024) :
    ∃ type info, getBlockAckType bufferSize = some type ∧
      (header.setType type).Ready asserts 0 info ∧ bufferSize ≤ info.bitmap.length * 8 := by
  have hfits : ∃ length ∈ lengths, bufferSize ≤ length := ⟨1024, by decide, hsize⟩
  obtain ⟨length, hfind⟩ : ∃ length, lengths.find? (fun length => bufferSize ≤ length) =
      some length := by
    rw [← Option.isSome_iff_exists, List.find?_isSome]
    simpa only [decide_eq_true_iff] using hfits
  have hle : bufferSize ≤ length := by
    have hfound := List.find?_some hfind
    exact of_decide_eq_true hfound
  have hbytes : length / 8 % 256 * 8 = length := by
    have hmem := List.mem_of_find?_eq_some hfind
    revert hmem
    generalize length = bits
    revert bits
    decide
  refine ⟨⟨.compressed, [length / 8 % 256]⟩, ⟨0, 0, List.replicate (length / 8 % 256) 0⟩,
    by rw [getBlockAckType, hfind]; rfl, ⟨nofun, nofun, fun _ => Or.inr rfl, rfl, ?_, nofun⟩, ?_⟩
  · rw [List.length_replicate]
    rfl
  · rw [List.length_replicate, hbytes]
    exact hle

end CtrlBAckResponseHeader

end DeepcV2x.Wifi
