import Mathlib.Data.Fintype.Pi
import Mathlib.Tactic.Common

/-!
# Sidelink traffic flow templates

`LteSlTft` matches packets by the address and the port of the remote host, and
`Equals` compares two templates.  `Equals` looks at everything an address is
matched with, but not at the port.
-/

namespace DeepcV2x.Sidelink

inductive CastType
  | broadcast
  | groupcast
  | unicast
  | groupcastNegativeOnly
  | invalid
  deriving DecidableEq, Repr

/-- The members of `SidelinkInfo`; times are in nanoseconds. -/
structure SidelinkInfo where
  castType : CastType := .invalid
  srcL2Id : UInt32 := 0
  dstL2Id : UInt32 := 0
  harqEnabled : Bool := false
  pdb : Int := 0
  isDynamic : Bool := false
  rri : Int := 0
  lcId : UInt8 := 0
  priority : UInt8 := 0
  deriving DecidableEq, Repr

/-- `operator==`. -/
def SidelinkInfo.equal (a b : SidelinkInfo) : Bool :=
  a.castType == b.castType && a.srcL2Id == b.srcL2Id && a.dstL2Id == b.dstL2Id &&
    a.harqEnabled == b.harqEnabled && a.pdb == b.pdb && a.isDynamic == b.isDynamic &&
    a.rri == b.rri && a.lcId == b.lcId && a.priority == b.priority

/-- The operator compares every member. -/
theorem SidelinkInfo.equal_iff {a b : SidelinkInfo} : a.equal b = true ↔ a = b := by
  cases a
  cases b
  simp [SidelinkInfo.equal, and_assoc]

/-- The 16 bytes of an IPv6 address or prefix. -/
abbrev Ipv6Bytes := Fin 16 → UInt8

/-- `IsMatch` of an IPv4 mask. -/
def ipv4IsMatch (mask a b : UInt32) : Bool := a &&& mask == b &&& mask

/-- `IsMatch` of an IPv6 prefix. -/
def ipv6IsMatch (mask a b : Ipv6Bytes) : Bool := decide (∀ i, a i &&& mask i = b i &&& mask i)

theorem ipv4IsMatch_self (mask a : UInt32) : ipv4IsMatch mask a a = true := beq_self_eq_true _

inductive Direction
  | transmit
  | receive
  | bidirectional
  | invalid
  deriving DecidableEq, Repr

structure LteSlTft where
  direction : Direction := .invalid
  hasRemoteAddress : Bool := false
  remoteAddress : UInt32 := 0
  remoteAddress6 : Ipv6Bytes := fun _ => 0
  remoteMask : UInt32 := 0
  remoteMask6 : Ipv6Bytes := fun _ => 0
  hasRemotePort : Bool := false
  remotePort : UInt16 := 0
  sidelinkInfo : SidelinkInfo := {}
  deriving DecidableEq

namespace LteSlTft

/-! ## Constructors -/

/-- The assertions of the constructors. -/
def Allowed (slInfo : SidelinkInfo) : Prop :=
  0 < slInfo.dstL2Id ∧ slInfo.dstL2Id &&& 0xFF000000 = 0

instance (slInfo : SidelinkInfo) : Decidable (Allowed slInfo) := inferInstanceAs (Decidable (_ ∧ _))

def ofIpv4 (d : Direction) (remoteAddr : UInt32) (slInfo : SidelinkInfo) : Option LteSlTft :=
  if Allowed slInfo then
    some { direction := d, remoteAddress := remoteAddr, sidelinkInfo := slInfo,
           hasRemoteAddress := true, remoteMask := 0xFFFFFFFF }
  else none

def ofIpv6 (d : Direction) (remoteAddr : Ipv6Bytes) (slInfo : SidelinkInfo) : Option LteSlTft :=
  if Allowed slInfo then
    some { direction := d, remoteAddress6 := remoteAddr, sidelinkInfo := slInfo,
           hasRemoteAddress := true, remoteMask6 := fun _ => 0xFF }
  else none

def ofIpv4Port (d : Direction) (remoteAddr : UInt32) (remotePort : UInt16)
    (slInfo : SidelinkInfo) : Option LteSlTft :=
  if Allowed slInfo then
    some { direction := d, remoteAddress := remoteAddr, remotePort := remotePort,
           sidelinkInfo := slInfo, hasRemoteAddress := true, remoteMask := 0xFFFFFFFF,
           hasRemotePort := true }
  else none

def ofIpv6Port (d : Direction) (remoteAddr : Ipv6Bytes) (remotePort : UInt16)
    (slInfo : SidelinkInfo) : Option LteSlTft :=
  if Allowed slInfo then
    some { direction := d, remoteAddress6 := remoteAddr, remotePort := remotePort,
           sidelinkInfo := slInfo, hasRemoteAddress := true, remoteMask6 := fun _ => 0xFF,
           hasRemotePort := true }
  else none

/-- The constructor from another template. -/
def copy (tft : LteSlTft) : LteSlTft where
  direction := tft.direction
  remoteAddress := tft.remoteAddress
  remoteAddress6 := tft.remoteAddress6
  hasRemoteAddress := tft.hasRemoteAddress
  remoteMask := tft.remoteMask
  remoteMask6 := tft.remoteMask6
  remotePort := tft.remotePort
  hasRemotePort := tft.hasRemotePort
  sidelinkInfo := tft.sidelinkInfo

def setSidelinkInfoLcId (tft : LteSlTft) (lcId : UInt8) : LteSlTft :=
  { tft with sidelinkInfo := { tft.sidelinkInfo with lcId := lcId } }

/-- The templates a program can have. -/
inductive Constructed : LteSlTft → Prop
  | ipv4 {d : Direction} {remoteAddr : UInt32} {slInfo : SidelinkInfo} {tft : LteSlTft}
      (made : ofIpv4 d remoteAddr slInfo = some tft) : Constructed tft
  | ipv6 {d : Direction} {remoteAddr : Ipv6Bytes} {slInfo : SidelinkInfo} {tft : LteSlTft}
      (made : ofIpv6 d remoteAddr slInfo = some tft) : Constructed tft
  | ipv4Port {d : Direction} {remoteAddr : UInt32} {remotePort : UInt16} {slInfo : SidelinkInfo}
      {tft : LteSlTft} (made : ofIpv4Port d remoteAddr remotePort slInfo = some tft) :
      Constructed tft
  | ipv6Port {d : Direction} {remoteAddr : Ipv6Bytes} {remotePort : UInt16}
      {slInfo : SidelinkInfo} {tft : LteSlTft}
      (made : ofIpv6Port d remoteAddr remotePort slInfo = some tft) : Constructed tft
  | copy {tft : LteSlTft} (constructed : Constructed tft) : Constructed tft.copy
  | lcId {tft : LteSlTft} (lcId : UInt8) (constructed : Constructed tft) :
      Constructed (tft.setSidelinkInfoLcId lcId)

/-- Every constructor gives a remote address. -/
theorem Constructed.hasRemoteAddress {tft : LteSlTft} (constructed : Constructed tft) :
    tft.hasRemoteAddress = true := by
  induction constructed with
  | ipv4 made =>
      cases (Option.ite_none_right_eq_some.mp made).2
      rfl
  | ipv6 made =>
      cases (Option.ite_none_right_eq_some.mp made).2
      rfl
  | ipv4Port made =>
      cases (Option.ite_none_right_eq_some.mp made).2
      rfl
  | ipv6Port made =>
      cases (Option.ite_none_right_eq_some.mp made).2
      rfl
  | copy _ ih => exact ih
  | lcId _ _ ih => exact ih

/-! ## Matching -/

/-- `Matches` of an IPv4 address. -/
def matchesIpv4 (tft : LteSlTft) (ra : UInt32) : Bool :=
  if tft.hasRemoteAddress then ipv4IsMatch tft.remoteMask ra tft.remoteAddress else true

/-- `Matches` of an IPv6 address. -/
def matchesIpv6 (tft : LteSlTft) (ra : Ipv6Bytes) : Bool :=
  if tft.hasRemoteAddress then ipv6IsMatch tft.remoteMask6 ra tft.remoteAddress6 else true

/-- The check of the remote port. -/
def okPort (tft : LteSlTft) (rp : UInt16) : Bool :=
  if tft.hasRemotePort then tft.remotePort == rp else true

/-- `Matches` of an IPv6 address and a port. -/
def matchesIpv6Port (tft : LteSlTft) (ra : Ipv6Bytes) (rp : UInt16) : Bool :=
  tft.matchesIpv6 ra && tft.okPort rp

/-- `Matches` of an IPv4 address and a port. -/
def matchesIpv4Port (tft : LteSlTft) (ra : UInt32) (rp : UInt16) : Bool :=
  tft.matchesIpv4 ra && tft.okPort rp

/-- `Equals`. -/
def equals (a tft : LteSlTft) : Bool :=
  a.direction == tft.direction && a.remoteAddress == tft.remoteAddress &&
    a.remoteAddress6 == tft.remoteAddress6 && a.remoteMask == tft.remoteMask &&
    a.remoteMask6 == tft.remoteMask6 && a.sidelinkInfo.equal tft.sidelinkInfo

/-- What `Equals` compares. -/
structure Same (a b : LteSlTft) : Prop where
  direction : a.direction = b.direction
  remoteAddress : a.remoteAddress = b.remoteAddress
  remoteAddress6 : a.remoteAddress6 = b.remoteAddress6
  remoteMask : a.remoteMask = b.remoteMask
  remoteMask6 : a.remoteMask6 = b.remoteMask6
  sidelinkInfo : a.sidelinkInfo = b.sidelinkInfo

theorem equals_iff {a b : LteSlTft} : a.equals b = true ↔ Same a b := by
  rw [equals]
  simp only [Bool.and_eq_true, beq_iff_eq, SidelinkInfo.equal_iff]
  constructor
  · rintro ⟨⟨⟨⟨⟨hdirection, haddress⟩, haddress6⟩, hmask⟩, hmask6⟩, hinfo⟩
    exact ⟨hdirection, haddress, haddress6, hmask, hmask6, hinfo⟩
  · rintro ⟨hdirection, haddress, haddress6, hmask, hmask6, hinfo⟩
    exact ⟨⟨⟨⟨⟨hdirection, haddress⟩, haddress6⟩, hmask⟩, hmask6⟩, hinfo⟩

theorem equals_refl (a : LteSlTft) : a.equals a = true :=
  equals_iff.mpr ⟨rfl, rfl, rfl, rfl, rfl, rfl⟩

theorem Same.symm {a b : LteSlTft} (same : Same a b) : Same b a :=
  ⟨same.direction.symm, same.remoteAddress.symm, same.remoteAddress6.symm, same.remoteMask.symm,
    same.remoteMask6.symm, same.sidelinkInfo.symm⟩

theorem equals_comm (a b : LteSlTft) : a.equals b = b.equals a :=
  Bool.eq_iff_iff.mpr
    ⟨fun h => equals_iff.mpr (equals_iff.mp h).symm, fun h => equals_iff.mpr (equals_iff.mp h).symm⟩

/-- Two templates match the same packets. -/
structure Agree (a b : LteSlTft) : Prop where
  ipv4 : ∀ ra, a.matchesIpv4 ra = b.matchesIpv4 ra
  ipv6 : ∀ ra, a.matchesIpv6 ra = b.matchesIpv6 ra
  ipv4Port : ∀ ra rp, a.matchesIpv4Port ra rp = b.matchesIpv4Port ra rp
  ipv6Port : ∀ ra rp, a.matchesIpv6Port ra rp = b.matchesIpv6Port ra rp

/-- Neither template has a port, or both have the same one. -/
def SamePort (a b : LteSlTft) : Prop :=
  a.hasRemotePort = b.hasRemotePort ∧ (a.hasRemotePort = true → a.remotePort = b.remotePort)

instance (a b : LteSlTft) : Decidable (SamePort a b) := inferInstanceAs (Decidable (_ ∧ _))

theorem samePort_iff {a b : LteSlTft} : SamePort a b ↔ ∀ rp, a.okPort rp = b.okPort rp := by
  constructor
  · rintro ⟨hhas, hport⟩ rp
    rw [okPort, okPort, ← hhas]
    split
    next hgiven => rw [hport hgiven]
    next => rfl
  · intro hall
    have hown := hall a.remotePort
    have hnext := hall (a.remotePort + 1)
    have hnextOther := hall (b.remotePort + 1)
    have hne : ∀ port : UInt16, (port == port + 1) = false := fun port => by
      rw [beq_eq_false_iff_ne, Ne, UInt16.left_eq_add]
      decide
    simp only [okPort] at hown hnext hnextOther
    cases ha : a.hasRemotePort with
    | true =>
        cases hb : b.hasRemotePort with
        | true =>
            rw [ha, hb, if_pos rfl, if_pos rfl, beq_self_eq_true] at hown
            exact ⟨ha.trans hb.symm, fun _ => (beq_iff_eq.mp hown.symm).symm⟩
        | false =>
            rw [ha, hb, if_pos rfl, if_neg Bool.false_ne_true, hne] at hnext
            exact absurd hnext Bool.false_ne_true
    | false =>
        cases hb : b.hasRemotePort with
        | true =>
            rw [ha, hb, if_pos rfl, if_neg Bool.false_ne_true, hne] at hnextOther
            exact absurd hnextOther.symm Bool.false_ne_true
        | false => exact ⟨ha.trans hb.symm, fun h => absurd (ha.symm.trans h) Bool.false_ne_true⟩

/-- Templates that compare equal match the same packets exactly when their ports agree. -/
theorem agree_iff {a b : LteSlTft} (ha : Constructed a) (hb : Constructed b) (same : Same a b) :
    Agree a b ↔ SamePort a b := by
  have hipv4 : ∀ ra, a.matchesIpv4 ra = b.matchesIpv4 ra := fun ra => by
    rw [matchesIpv4, matchesIpv4, ha.hasRemoteAddress, hb.hasRemoteAddress, same.remoteMask,
      same.remoteAddress]
  have hipv6 : ∀ ra, a.matchesIpv6 ra = b.matchesIpv6 ra := fun ra => by
    rw [matchesIpv6, matchesIpv6, ha.hasRemoteAddress, hb.hasRemoteAddress, same.remoteMask6,
      same.remoteAddress6]
  constructor
  · intro agree
    refine samePort_iff.mpr fun rp => ?_
    have hself : a.matchesIpv4 a.remoteAddress = true := by
      rw [matchesIpv4, if_pos ha.hasRemoteAddress, ipv4IsMatch_self]
    have hport := agree.ipv4Port a.remoteAddress rp
    rwa [matchesIpv4Port, matchesIpv4Port, ← hipv4, hself, Bool.true_and, Bool.true_and] at hport
  · intro hport
    have hok := samePort_iff.mp hport
    exact ⟨hipv4, hipv6, fun ra rp => by rw [matchesIpv4Port, matchesIpv4Port, hipv4, hok],
      fun ra rp => by rw [matchesIpv6Port, matchesIpv6Port, hipv6, hok]⟩

/-- Comparing is reflexive and symmetric, and templates that compare equal match the same packets,
exactly when those that compare equal have no port or the same one. -/
theorem equals_agree_iff {a b : LteSlTft} (ha : Constructed a) (hb : Constructed b) :
    (a.equals a = true ∧ a.equals b = b.equals a ∧ (a.equals b = true → Agree a b)) ↔
      (a.equals b = true → SamePort a b) := by
  constructor
  · rintro ⟨-, -, hagree⟩ hequals
    exact (agree_iff ha hb (equals_iff.mp hequals)).mp (hagree hequals)
  · intro hport
    refine ⟨equals_refl a, equals_comm a b, fun hequals => ?_⟩
    exact (agree_iff ha hb (equals_iff.mp hequals)).mpr (hport hequals)

/-- A transmit template for `10.0.0.1` and a port. -/
def toPort (remotePort : UInt16) : LteSlTft where
  direction := .transmit
  remoteAddress := 0x0A000001
  remotePort := remotePort
  sidelinkInfo := { dstL2Id := 224 }
  hasRemoteAddress := true
  remoteMask := 0xFFFFFFFF
  hasRemotePort := true

theorem toPort_constructed (remotePort : UInt16) : Constructed (toPort remotePort) :=
  @Constructed.ipv4Port .transmit 0x0A000001 remotePort { dstL2Id := 224 } _ rfl

theorem equals_agree_iff_ports :
    ((toPort 80).equals (toPort 80) = true ∧
      (toPort 80).equals (toPort 80) = (toPort 80).equals (toPort 80) ∧
      ((toPort 80).equals (toPort 80) = true → Agree (toPort 80) (toPort 80))) ↔
      ((toPort 80).equals (toPort 80) = true → SamePort (toPort 80) (toPort 80)) :=
  equals_agree_iff (toPort_constructed 80) (toPort_constructed 80)

/-- Templates for two ports compare equal, but only one of them matches a packet to port 80. -/
theorem equals_ignoresPort :
    ∃ a b, Constructed a ∧ Constructed b ∧ a.equals b = true ∧
      a.matchesIpv4Port 0x0A000001 80 = true ∧ b.matchesIpv4Port 0x0A000001 80 = false :=
  ⟨toPort 80, toPort 90, toPort_constructed 80, toPort_constructed 90, by decide +kernel,
    by decide +kernel, by decide +kernel⟩

end LteSlTft

end DeepcV2x.Sidelink
