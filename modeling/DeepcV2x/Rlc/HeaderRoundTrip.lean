import DeepcV2x.Rlc.UmSegment

/-!
# Headers read back

The header of unacknowledged mode counts its length while its fields are pushed,
in a member of 16 bits, and writes the fields independently of it.
-/

namespace DeepcV2x.Rlc

namespace LteRlcHeader

/-- `GetSerializedSize`.  The length only grows, and `m_headerLength` keeps 16 bits of it. -/
def getSerializedSize (header : LteRlcHeader) : Nat := header.headerLength % 65536

/-- A header with some length indicators and their extension bits, one more, the last of them zero. -/
def withFields (framingInfo sequenceNumber : Nat) (lengthIndicators : List Nat) : LteRlcHeader :=
  ((pushFields {} lengthIndicators).setSequenceNumber sequenceNumber).setFramingInfo framingInfo

/-- `Serialize` writes as many bytes as announced, and `Deserialize` reads as many of them and the
same fields, whatever is behind. -/
structure RoundTrips (header : LteRlcHeader) : Prop where
  written : header.serialize.length = header.getSerializedSize
  read : ∀ payload, ∃ other, deserialize (header.serialize ++ payload) = some other ∧
    other.getSerializedSize = header.getSerializedSize ∧
    other.sequenceNumber = header.sequenceNumber ∧ other.framingInfo = header.framingInfo ∧
    other.extensionBits = header.extensionBits ∧ other.lengthIndicators = header.lengthIndicators

theorem withFields_eq (framingInfo sequenceNumber : Nat) (lengthIndicators : List Nat) :
    withFields framingInfo sequenceNumber lengthIndicators =
      ofSegments (framingInfo &&& 0x03) sequenceNumber lengthIndicators :=
  pushFields_eq lengthIndicators sequenceNumber framingInfo

/-- The extension bits are ones, one for each length indicator, followed by a zero. -/
theorem withFields_extensionBits (framingInfo sequenceNumber : Nat) (lengthIndicators : List Nat) :
    (withFields framingInfo sequenceNumber lengthIndicators).extensionBits =
      List.replicate lengthIndicators.length E_LI_FIELDS_FOLLOWS ++ [DATA_FIELD_FOLLOWS] := by
  rw [withFields_eq]
  exact bitsOf_cons 0 lengthIndicators

theorem ofSegments_serialize_length (framingInfo sequenceNumber : Nat) {lengthIndicators : List Nat}
    (hsmall : ∀ lengthIndicator ∈ lengthIndicators, lengthIndicator < 2048) :
    (ofSegments framingInfo sequenceNumber lengthIndicators).serialize.length =
      2 + fieldsLength lengthIndicators.length := by
  cases lengthIndicators with
  | nil => rfl
  | cons lengthIndicator others =>
      have hfields := (fields_read (lengthIndicator :: others) [] (List.cons_ne_nil _ _) hsmall).1
      simp only [ofSegments, serialize, bitsOf, List.tail_cons, List.length_cons, hfields]
      omega

theorem and_three_lt (framingInfo : Nat) : framingInfo &&& 0x03 < 4 :=
  Nat.lt_of_le_of_lt Nat.and_le_right (by decide)

/-- A header is read back exactly when it has fewer than 43689 length indicators. -/
theorem withFields_roundTrips_iff (framingInfo : Nat) {sequenceNumber : Nat}
    (hsn : sequenceNumber < 1024) {lengthIndicators : List Nat}
    (hsmall : ∀ lengthIndicator ∈ lengthIndicators, lengthIndicator < 2048) :
    (withFields framingInfo sequenceNumber lengthIndicators).RoundTrips ↔
      lengthIndicators.length < 43689 := by
  rw [withFields_eq]
  have hlength := ofSegments_serialize_length (framingInfo &&& 0x03) sequenceNumber hsmall
  have hsize : (ofSegments (framingInfo &&& 0x03) sequenceNumber lengthIndicators).getSerializedSize =
      (2 + fieldsLength lengthIndicators.length) % 65536 := rfl
  rw [fieldsLength] at hlength hsize
  constructor
  · intro roundTrips
    have hwritten := roundTrips.written
    omega
  · intro hfew
    refine ⟨by omega, fun payload => ?_⟩
    obtain ⟨other, hread, heq⟩ := Option.map_eq_some_iff.mp
      (removeHeader_serialize (and_three_lt framingInfo) hsn hsmall payload)
    obtain rfl : other = ofSegments (framingInfo &&& 0x03) sequenceNumber lengthIndicators :=
      congrArg Prod.fst heq
    exact ⟨_, hread, rfl, rfl, rfl, rfl, rfl⟩

/-- Three length indicators of segments of an opportunity. -/
theorem withFields_roundTrips_three :
    (withFields 2 1023 [2047, 1, 300]).RoundTrips ↔ [2047, 1, 300].length < 43689 :=
  withFields_roundTrips_iff 2 (by decide) (by decide)

/-- With 43689 length indicators 65536 bytes are written and none is announced. -/
theorem withFields_overflows :
    ∃ lengthIndicators : List Nat, (∀ lengthIndicator ∈ lengthIndicators, lengthIndicator < 2048) ∧
      (withFields 0 0 lengthIndicators).serialize.length = 65536 ∧
      (withFields 0 0 lengthIndicators).getSerializedSize = 0 := by
  have hsmall : ∀ lengthIndicator ∈ List.replicate 43689 1, lengthIndicator < 2048 := by
    intro lengthIndicator hmem
    rw [(List.mem_replicate.mp hmem).2]
    decide
  refine ⟨List.replicate 43689 1, hsmall, ?_, ?_⟩
  · rw [withFields_eq, ofSegments_serialize_length _ _ hsmall, List.length_replicate]
    rfl
  · rw [withFields_eq, getSerializedSize, ofSegments, List.length_replicate]
    rfl

end LteRlcHeader

end DeepcV2x.Rlc
