import DeepcV2x.Lte.RoundRobin

/-!
# The round-robin uplink scheduler

What `RrFfMacScheduler` keeps for the uplink: the HARQ processes of every UE,
the buffer status reports, the measured SINRs and the resource blocks (RBs) of
random access.  A downlink trigger grants RBs to the random access requests, an
uplink trigger first repeats the blocks that were not received and then divides
the other RBs among the UEs with data.
-/

namespace DeepcV2x.Lte.Uplink

open DeepcV2x.Foundation.Loops
open DeepcV2x.Foundation.Marks (mark)
open DeepcV2x.Foundation.Runs
open DeepcV2x.Lte.RoundRobin (Rnti HarqProcess harqProcNum nextProcess processZero put allFree)

/-- The subframes between a grant and the feedback for its block. -/
def harqPeriod : Nat := 7

/-! ## The messages -/

structure UlDciListElement where
  rnti : Rnti
  rbStart : Nat
  rbLen : Nat
  tbSize : Nat
  mcs : Nat
  ndi : Nat
  cceIndex : Nat
  aggrLevel : Nat
  ueTxAntennaSelection : Nat
  hopping : Bool
  n2Dmrs : Nat
  tpc : Int
  cqiRequest : Bool
  ulIndex : Nat
  dai : Nat
  freqHopping : Nat
  pdcchPowerOffset : Int
  deriving DecidableEq, Repr

/-- The DCI of a process that was never used. -/
def UlDciListElement.unused : UlDciListElement :=
  { rnti := 65535, rbStart := 255, rbLen := 255, tbSize := 65535, mcs := 255, ndi := 255,
    cceIndex := 255, aggrLevel := 255, ueTxAntennaSelection := 255, hopping := false,
    n2Dmrs := 255, tpc := -128, cqiRequest := false, ulIndex := 255, dai := 255,
    freqHopping := 255, pdcchPowerOffset := -128 }

/-- The DCI of a new block, with the fields that the scheduler does not choose. -/
def newUlDci (rnti rbStart rbLen tbSize mcs : Nat) : UlDciListElement :=
  { rnti := rnti, rbStart := rbStart % 256, rbLen := rbLen % 256, tbSize := tbSize % 65536,
    mcs := mcs % 256, ndi := 1, cceIndex := 0, aggrLevel := 1, ueTxAntennaSelection := 3,
    hopping := false, n2Dmrs := 0, tpc := 0, cqiRequest := false, ulIndex := 0, dai := 1,
    freqHopping := 0, pdcchPowerOffset := 0 }

/-- The RBs of a window. -/
def window (rbStart rbLen : Nat) : List Nat := List.range' rbStart rbLen

def UlDciListElement.rbs (dci : UlDciListElement) : List Nat := window dci.rbStart dci.rbLen

structure RachListElement where
  rnti : Rnti
  estimatedSize : Nat
  deriving DecidableEq, Repr

structure UlGrant where
  rnti : Rnti
  rbStart : Nat
  rbLen : Nat
  tbSize : Nat
  mcs : Nat
  hopping : Bool
  tpc : Int
  cqiRequest : Bool
  ulDelay : Bool
  deriving DecidableEq, Repr

structure BuildRarListElement where
  rnti : Rnti
  grant : UlGrant
  deriving DecidableEq, Repr

def UlGrant.rbs (grant : UlGrant) : List Nat := window grant.rbStart grant.rbLen

inductive ReceptionStatus
  | ok
  | notOk
  | notValid
  deriving DecidableEq, Repr

structure UlInfoListElement where
  rnti : Rnti
  receptionStatus : ReceptionStatus
  deriving DecidableEq, Repr

/-- A control element; a BSR holds the levels of four groups of channels. -/
inductive MacCeListElement
  | bsr (rnti : Rnti) (bufferStatus : List Nat)
  | other (rnti : Rnti)
  deriving DecidableEq, Repr

inductive UlCqiType
  | srs
  | pusch
  | pucch1
  | pucch2
  | prach
  deriving DecidableEq, Repr

inductive UlCqiFilter
  | srsUlCqi
  | puschUlCqi
  deriving DecidableEq, Repr

/-- An uplink report; `srsRnti` is what the vendor specific parameters name, 0 without one. -/
structure UlCqiInfo where
  sfnSf : Nat
  type : UlCqiType
  sinr : List Nat
  srsRnti : Rnti
  deriving DecidableEq, Repr

/-! ## The state -/

/-- What the scheduler asks `LteAmc` and the converters; an SINR is a `double`. -/
structure UlRadio (Sinr : Type) where
  getUlTbSizeFromMcs : Nat → Nat → Nat
  getMcsFromCqi : Nat → Nat
  bsrId2BufferSize : Nat → Nat
  fpS11dot3toDouble : Nat → Sinr
  /-- The value 30.0 of an RB without a measurement. -/
  noSinr : Sinr
  below : Sinr → Sinr → Bool
  /-- The CQI of the spectral efficiency of an SINR. -/
  cqiOfSinr : Sinr → Nat

/-- The entries of one RNTI in the uplink maps that `DoCschedUeConfigReq` fills together. -/
structure UlHarq where
  currentProcessId : HarqProcess
  processesStatus : HarqProcess → Nat
  processesDci : HarqProcess → UlDciListElement

/-- The entries of one RNTI in the maps of SINRs and of their timers. -/
structure UeCqi (Sinr : Type) where
  sinrs : List Sinr
  timer : Nat

/-- `ceBsrRxed` lists the queues of the UEs in the order of the RNTIs. -/
structure UlScheduler (Sinr : Type) where
  ulBandwidth : Nat
  harqOn : Bool
  ulGrantMcs : Nat
  cqiTimersThreshold : Nat
  ulCqiFilter : UlCqiFilter
  ues : Rnti → Option UlHarq
  rachList : List RachListElement
  rachAllocationMap : List Rnti
  ceBsrRxed : List (Rnti × Nat)
  nextRntiUl : Rnti
  ueCqi : Rnti → Option (UeCqi Sinr)
  allocationMaps : Nat → Option (List Rnti)

/-- The attributes of a scheduler and the cell that it is configured for. -/
structure UlConfig where
  ulBandwidth : Nat
  harqOn : Bool
  ulGrantMcs : Nat
  cqiTimersThreshold : Nat
  ulCqiFilter : UlCqiFilter

variable {Sinr : Type}

/-- The scheduler behind `DoCschedCellConfigReq`. -/
def UlScheduler.start (config : UlConfig) : UlScheduler Sinr :=
  { ulBandwidth := config.ulBandwidth, harqOn := config.harqOn, ulGrantMcs := config.ulGrantMcs,
    cqiTimersThreshold := config.cqiTimersThreshold, ulCqiFilter := config.ulCqiFilter,
    ues := fun _ => none, rachList := [],
    rachAllocationMap := List.replicate config.ulBandwidth 0, ceBsrRxed := [],
    nextRntiUl := 0, ueCqi := fun _ => none, allocationMaps := fun _ => none }

def UlHarq.fresh (firstProcess : HarqProcess) : UlHarq :=
  { currentProcessId := firstProcess, processesStatus := fun _ => 0,
    processesDci := fun _ => .unused }

def doCschedUeConfigReq (scheduler : UlScheduler Sinr) (rnti : Rnti) : UlScheduler Sinr :=
  match scheduler.ues rnti with
  | none => { scheduler with ues := put scheduler.ues rnti (some (.fresh processZero)) }
  | some _ => scheduler

/-! ## Reports -/

def doSchedDlRachInfoReq (scheduler : UlScheduler Sinr) (rachList : List RachListElement) :
    UlScheduler Sinr :=
  { scheduler with rachList := rachList }

/-- Set the value of a key among entries in the order of their keys. -/
def insertBsr (rnti : Rnti) (buffer : Nat) : List (Rnti × Nat) → List (Rnti × Nat)
  | [] => [(rnti, buffer)]
  | entry :: rest =>
      if entry.1 = rnti then (rnti, buffer) :: rest
      else if rnti < entry.1 then (rnti, buffer) :: entry :: rest
      else entry :: insertBsr rnti buffer rest

/-- One control element; `none` for a BSR without its four groups. -/
def bsrReported (radio : UlRadio Sinr) (scheduler : UlScheduler Sinr) :
    MacCeListElement → Option (UlScheduler Sinr)
  | .bsr rnti bufferStatus =>
      if bufferStatus.length < 4 then none
      else
        let buffer := ((bufferStatus.take 4).map radio.bsrId2BufferSize).sum % 4294967296
        some { scheduler with ceBsrRxed := insertBsr rnti buffer scheduler.ceBsrRxed }
  | .other _ => some scheduler

def doSchedUlMacCtrlInfoReq (radio : UlRadio Sinr) (scheduler : UlScheduler Sinr)
    (macCeList : List MacCeListElement) : Option (UlScheduler Sinr) :=
  macCeList.foldlM (bsrReported radio) scheduler

/-- The measurement of one RB for the UE it was granted to. -/
def measured (radio : UlRadio Sinr) (bandwidth threshold : Nat) (info : UlCqiInfo)
    (allocation : List Rnti) (ueCqi : Rnti → Option (UeCqi Sinr)) (rb : Nat) :
    Option (Rnti → Option (UeCqi Sinr)) := do
  let sinr := radio.fpS11dot3toDouble (← info.sinr[rb]?)
  let rnti ← allocation[rb]?
  match ueCqi rnti with
  | none =>
      let sinrs := (List.replicate bandwidth radio.noSinr).set rb sinr
      return put ueCqi rnti (some ⟨sinrs, threshold⟩)
  | some cqi =>
      if rb < cqi.sinrs.length then
        return put ueCqi rnti (some ⟨cqi.sinrs.set rb sinr, threshold⟩)
      else none

/-- The new SINRs of all RBs. -/
def sounded (radio : UlRadio Sinr) (bandwidth : Nat) (info : UlCqiInfo) : Option (List Sinr) :=
  (List.range bandwidth).mapM fun rb => (info.sinr[rb]?).map radio.fpS11dot3toDouble

/-- The vector of a UE with the new SINRs stored into it. -/
def overwritten (ueCqi : Option (UeCqi Sinr)) (sinrs : List Sinr) : Option (List Sinr) :=
  match ueCqi with
  | none => some sinrs
  | some cqi =>
      if cqi.sinrs.length < sinrs.length then none
      else some (sinrs ++ cqi.sinrs.drop sinrs.length)

/-- A report that the filter lets through; the other types are fatal errors. -/
def filteredCqi (radio : UlRadio Sinr) (scheduler : UlScheduler Sinr) (info : UlCqiInfo) :
    Option (UlScheduler Sinr) :=
  match info.type with
  | .pusch =>
      match scheduler.allocationMaps info.sfnSf with
      | none => some scheduler
      | some allocation => do
          let ueCqi ← (List.range allocation.length).foldlM
            (measured radio scheduler.ulBandwidth scheduler.cqiTimersThreshold info allocation)
            scheduler.ueCqi
          return { scheduler with
            ueCqi := ueCqi
            allocationMaps := put scheduler.allocationMaps info.sfnSf none }
  | .srs => do
      let sinrs ← sounded radio scheduler.ulBandwidth info
      let stored ← overwritten (scheduler.ueCqi info.srsRnti) sinrs
      return { scheduler with
        ueCqi := put scheduler.ueCqi info.srsRnti
          (some ⟨stored, scheduler.cqiTimersThreshold⟩) }
  | _ => none

def doSchedUlCqiInfoReq (radio : UlRadio Sinr) (scheduler : UlScheduler Sinr)
    (info : UlCqiInfo) : Option (UlScheduler Sinr) :=
  match scheduler.ulCqiFilter with
  | .srsUlCqi => if info.type ≠ .srs then some scheduler else filteredCqi radio scheduler info
  | .puschUlCqi =>
      if info.type ≠ .pusch then some scheduler else filteredCqi radio scheduler info

def UeCqi.refresh (cqi : UeCqi Sinr) : Option (UeCqi Sinr) :=
  if cqi.timer = 0 then none else some { cqi with timer := cqi.timer - 1 }

def refreshUlCqiMaps (scheduler : UlScheduler Sinr) : UlScheduler Sinr :=
  { scheduler with ueCqi := fun rnti => (scheduler.ueCqi rnti).bind UeCqi.refresh }

/-! ## Random access -/

/-- Store the RNTI of a grant at its RBs. -/
def assign (allocation : List Rnti) (rbs : List Nat) (rnti : Rnti) : List Rnti :=
  rbs.foldl (fun allocation rb => allocation.set rb rnti) allocation

/-- The same with `.at`: `none` when an RB is outside the map. -/
def assignAt (allocation : List Rnti) (rbs : List Nat) (rnti : Rnti) : Option (List Rnti) :=
  if ∀ rb ∈ rbs, rb < allocation.length then some (assign allocation rbs rnti) else none

/-- The search for the lowest block that fits a request, `left` steps at most. -/
def growGrant (radio : UlRadio Sinr) (bandwidth mcs estimatedSize rbStart : Nat) :
    Nat → Nat → Nat → Nat × Nat
  | 0, rbLen, tbSizeBits => (rbLen, tbSizeBits)
  | left + 1, rbLen, tbSizeBits =>
      if tbSizeBits < estimatedSize ∧ rbStart + rbLen < bandwidth then
        growGrant radio bandwidth mcs estimatedSize rbStart left (rbLen + 1)
          (radio.getUlTbSizeFromMcs mcs (rbLen + 1) % 65536)
      else (rbLen, tbSizeBits)

def newUlGrant (rnti rbStart rbLen tbSize mcs : Nat) : UlGrant :=
  { rnti := rnti, rbStart := rbStart % 256, rbLen := rbLen % 256, tbSize := tbSize,
    mcs := mcs, hopping := false, tpc := 0, cqiRequest := false, ulDelay := false }

/-- Store a DCI at one process. -/
def UlHarq.store (ue : UlHarq) (process : HarqProcess) (dci : UlDciListElement) : UlHarq :=
  { ue with
    processesDci := fun other => if other = process then dci else ue.processesDci other }

/-- What the loop over the requests changes. -/
structure RachLoop where
  ues : Rnti → Option UlHarq
  rachAllocationMap : List Rnti
  buildRarList : List BuildRarListElement

/-- The UEs with the DCI of a granted request, kept for its retransmissions. -/
def storeRach (scheduler : UlScheduler Sinr) (ues : Rnti → Option UlHarq)
    (dci : UlDciListElement) : Option (Rnti → Option UlHarq) :=
  if scheduler.harqOn then
    (ues dci.rnti).map fun ue => put ues dci.rnti (some (ue.store ue.currentProcessId dci))
  else some ues

/-- The requests in their order, each behind the RBs of the one before. -/
def allocateRach (radio : UlRadio Sinr) (scheduler : UlScheduler Sinr) :
    List RachListElement → Nat → RachLoop → Option RachLoop
  | [], _, rach => some rach
  | request :: rest, rbStart, rach =>
      let (rbLen, tbSizeBits) := growGrant radio scheduler.ulBandwidth scheduler.ulGrantMcs
        request.estimatedSize rbStart scheduler.ulBandwidth 1 0
      if tbSizeBits < request.estimatedSize then some rach
      else do
        let allocation ←
          assignAt rach.rachAllocationMap (window rbStart rbLen) request.rnti
        let ues ← storeRach scheduler rach.ues
          (newUlDci request.rnti rbStart rbLen (tbSizeBits / 8) scheduler.ulGrantMcs)
        let grant :=
          newUlGrant request.rnti rbStart rbLen (tbSizeBits / 8) scheduler.ulGrantMcs
        allocateRach radio scheduler rest (rbStart + rbLen)
          { ues := ues
            rachAllocationMap := allocation
            buildRarList := rach.buildRarList ++ [⟨request.rnti, grant⟩] }

def UlHarq.nextSubframe (ue : UlHarq) : UlHarq :=
  { ue with currentProcessId := nextProcess ue.currentProcessId }

/-- `.resize(size, 0)` -/
def resize (allocation : List Rnti) (size : Nat) : List Rnti :=
  allocation.take size ++ List.replicate (size - allocation.length) 0

/-- What `DoSchedDlTriggerReq` does for the uplink, with its list of random access responses. -/
def doSchedDlTriggerReq (radio : UlRadio Sinr) (scheduler : UlScheduler Sinr) :
    Option (UlScheduler Sinr × List BuildRarListElement) := do
  let rach ← allocateRach radio scheduler scheduler.rachList 0
    { ues := fun rnti => (scheduler.ues rnti).map UlHarq.nextSubframe
      rachAllocationMap := resize scheduler.rachAllocationMap scheduler.ulBandwidth
      buildRarList := [] }
  return ({ scheduler with
    ues := rach.ues, rachAllocationMap := rach.rachAllocationMap, rachList := [] },
    rach.buildRarList)

/-! ## Retransmissions -/

/-- What the phases of one uplink trigger share. -/
structure UlSubframe where
  ues : Rnti → Option UlHarq
  rbMap : List Bool
  rbgAllocationMap : List Rnti
  rntiAllocated : List Rnti
  dciList : List UlDciListElement

/-- The process of the block that the feedback of this subframe is for. -/
def UlHarq.pastProcess (ue : UlHarq) : HarqProcess :=
  ⟨(ue.currentProcessId.val + 256 - harqPeriod) % 256 % harqProcNum, Nat.mod_lt _ (by decide)⟩

/-- Whether one of the RBs is taken; each of them is looked at with `.at`. -/
def busyAmong (rbMap : List Bool) (rbs : List Nat) : Option Bool :=
  (rbs.mapM fun rb => rbMap[rb]?).map fun flags => flags.any id

/-- The block moves to the current process with its count of retransmissions. -/
def UlHarq.retransmitted (ue : UlHarq) (process : HarqProcess) (dci : UlDciListElement) :
    UlHarq :=
  { ue.store ue.currentProcessId dci with
    processesStatus := fun other =>
      if other = process then 0
      else if other = ue.currentProcessId then ue.processesStatus process + 1
      else ue.processesStatus other }

/-- Take RBs for a UE in both maps. -/
def UlSubframe.take (subframe : UlSubframe) (rbs : List Nat) (rnti : Rnti) : UlSubframe :=
  { subframe with
    rbMap := mark subframe.rbMap rbs
    rbgAllocationMap := assign subframe.rbgAllocationMap rbs rnti }

/-- The turn of one feedback element. -/
def processUlInfo (subframe : UlSubframe) (info : UlInfoListElement) : Option UlSubframe :=
  if info.receptionStatus ≠ .notOk then some subframe
  else do
    let ue ← subframe.ues info.rnti
    let process := ue.pastProcess
    if ue.processesStatus process ≥ 3 then return subframe
    else
      let dci := { ue.processesDci process with ndi := 0 }
      if (← busyAmong subframe.rbMap dci.rbs) then return subframe
      else
        return { subframe.take dci.rbs dci.rnti with
          ues := put subframe.ues info.rnti (some (ue.retransmitted process dci))
          rntiAllocated := subframe.rntiAllocated.insert dci.rnti
          dciList := subframe.dciList ++ [dci] }

/-! ## New blocks -/

/-- The width of the next grant, limited to the rest of the band; below 3 it ends. -/
def limitWidth (bandwidth rbAllocated rbPerFlow : Nat) : Nat :=
  if rbAllocated + rbPerFlow - 1 > bandwidth then
    let rest := (bandwidth + 65536 - rbAllocated) % 65536
    if rest < 3 then 0 else rest
  else rbPerFlow

/-- The end of the search for free RBs. -/
structure Search where
  found : Option Nat
  rbAllocated : Nat
  rbPerFlow : Nat
  deriving DecidableEq, Repr

/-- The next free RBs of the width, `left` places at most. -/
def searchWindow (bandwidth : Nat) (rbMap : List Bool) : Nat → Nat → Nat → Option Search
  | 0, _, _ => none
  | left + 1, rbAllocated, rbPerFlow =>
      if rbAllocated + rbPerFlow ≤ bandwidth ∧ rbPerFlow ≠ 0 then
        match allFree rbMap (window rbAllocated rbPerFlow) with
        | none => none
        | some true => some ⟨some rbAllocated, rbAllocated + rbPerFlow, rbPerFlow⟩
        | some false =>
            searchWindow bandwidth rbMap left (rbAllocated + 1)
              (limitWidth bandwidth (rbAllocated + 1) rbPerFlow)
      else some ⟨none, rbAllocated, rbPerFlow⟩

/-- The lowest SINR among the RBs of a grant. -/
def minSinr (radio : UlRadio Sinr) (sinrs : List Sinr) (rbStart rbLen : Nat) : Option Sinr := do
  let first ← sinrs[rbStart]?
  (window rbStart rbLen).foldlM (fun lowest rb => do
    let sinr ← sinrs[rb]?
    return if radio.below sinr lowest then sinr else lowest) first

/-- The MCS on the RBs of a grant, if the UE is in range there. -/
def mcsFor (radio : UlRadio Sinr) (ueCqi : Option (UeCqi Sinr)) (rbStart rbLen : Nat) :
    Option (Option Nat) :=
  match ueCqi with
  | none => some (some 0)
  | some cqi =>
      if cqi.sinrs = [] then none
      else do
        let lowest ← minSinr radio cqi.sinrs rbStart rbLen
        let index := radio.cqiOfSinr lowest
        return if index = 0 then none else some (radio.getMcsFromCqi index)

/-- The queue behind a block; its overhead of 2 bytes is taken off a `uint16_t`. -/
def bufferLeft (buffer tbSize : Nat) : Nat :=
  let size := (tbSize + 65536 - 2) % 65536
  if buffer ≥ size then buffer - size else 0

/-- `UpdateUlRlcBufferInfo` -/
def updateUlRlcBufferInfo (rnti tbSize : Nat) (reports : List (Rnti × Nat)) : List (Rnti × Nat) :=
  reports.map fun entry =>
    if entry.1 = rnti then (entry.1, bufferLeft entry.2 tbSize) else entry

/-- A new block at the current process. -/
def UlHarq.transmitted (ue : UlHarq) (dci : UlDciListElement) : UlHarq :=
  { ue.store ue.currentProcessId dci with
    processesStatus := fun other =>
      if other = ue.currentProcessId then 0 else ue.processesStatus other }

/-- The loop variables of the round robin. -/
structure UlRobin where
  subframe : UlSubframe
  ceBsrRxed : List (Rnti × Nat)
  rbAllocated : Nat
  rbPerFlow : Nat
  place : Nat
  nextRntiUl : Rnti

/-- The next entry, the first one after the last. -/
def UlRobin.advance (robin : UlRobin) : UlRobin :=
  { robin with
    place := if robin.place + 1 = robin.ceBsrRxed.length then 0 else robin.place + 1 }

def UlRobin.rnti (robin : UlRobin) : Option Rnti :=
  (robin.ceBsrRxed[robin.place]?).map Prod.fst

/-- The condition of the loop. -/
def UlRobin.finished (robin : UlRobin) : Option Bool :=
  robin.rnti.map fun rnti => decide (rnti = robin.nextRntiUl) || decide (robin.rbPerFlow = 0)

/-- The UE whose grant is kept for retransmissions. -/
def storeGrant (scheduler : UlScheduler Sinr) (ues : Rnti → Option UlHarq)
    (dci : UlDciListElement) : Option (Rnti → Option UlHarq) :=
  if scheduler.harqOn then
    (ues dci.rnti).map fun ue => put ues dci.rnti (some (ue.transmitted dci))
  else some ues

/-- A grant on free RBs, with whether the loop ends behind it. -/
def grantWindow (radio : UlRadio Sinr) (scheduler : UlScheduler Sinr) (robin : UlRobin)
    (rnti rbStart rbLen : Nat) : Option (Bool × UlRobin) := do
  let taken := robin.subframe.take (window rbStart robin.rbPerFlow) rnti
  match ← mcsFor radio (scheduler.ueCqi rnti) (rbStart % 256) (rbLen % 256) with
  | none =>
      let next : UlRobin := { robin.advance with
        subframe := { taken with
          rbgAllocationMap :=
            assign taken.rbgAllocationMap (window (rbStart % 256) (rbLen % 256)) 0 } }
      return (← next.finished, next)
  | some mcs =>
      let tbSize := radio.getUlTbSizeFromMcs (mcs % 256) robin.rbPerFlow / 8 % 65536
      let dci := newUlDci rnti rbStart rbLen tbSize mcs
      let ues ← storeGrant scheduler taken.ues dci
      let next : UlRobin := { robin.advance with
        subframe := { taken with ues := ues, dciList := taken.dciList ++ [dci] }
        ceBsrRxed := updateUlRlcBufferInfo rnti tbSize robin.ceBsrRxed }
      if next.rbAllocated = scheduler.ulBandwidth ∨ next.rbPerFlow = 0 then
        return (true, { next with nextRntiUl := ← next.rnti })
      else return (← next.finished, next)

/-- One turn of the round robin. -/
def takeTurn (radio : UlRadio Sinr) (scheduler : UlScheduler Sinr) (robin : UlRobin) :
    Option (Bool × UlRobin) := do
  let (rnti, buffer) ← robin.ceBsrRxed[robin.place]?
  if rnti ∈ robin.subframe.rntiAllocated ∨ buffer = 0 then
    return (← robin.advance.finished, robin.advance)
  else
    let rbLen := limitWidth scheduler.ulBandwidth robin.rbAllocated robin.rbPerFlow
    let search ← searchWindow scheduler.ulBandwidth robin.subframe.rbMap
      (scheduler.ulBandwidth + 1) robin.rbAllocated rbLen
    let robin := { robin with rbAllocated := search.rbAllocated, rbPerFlow := search.rbPerFlow }
    match search.found with
    | none => return (true, { robin with nextRntiUl := rnti })
    | some rbStart => grantWindow radio scheduler robin rnti rbStart rbLen

/-! ## The trigger -/

/-- What an uplink trigger hands out; it sends no DCI where the list is empty. -/
structure UlOutcome where
  dciList : List UlDciListElement
  allocationMap : Option (List Rnti)
  deriving DecidableEq, Repr

/-- The maps without the RBs of random access. -/
def openSubframe (scheduler : UlScheduler Sinr) : Option UlSubframe := do
  let rbMap ← (List.range scheduler.ulBandwidth).mapM fun rb =>
    (scheduler.rachAllocationMap[rb]?).map fun rnti => decide (rnti ≠ 0)
  return {
    ues := scheduler.ues
    rbMap := rbMap
    rbgAllocationMap := scheduler.rachAllocationMap
    rntiAllocated := []
    dciList := [] }

def serveUlInfo (scheduler : UlScheduler Sinr) (ulInfoList : List UlInfoListElement) :
    Option UlSubframe := do
  let opened ← openSubframe scheduler
  if scheduler.harqOn then runFrom processUlInfo opened ulInfoList else return opened

/-- The UEs with data that have no retransmission. -/
def flows (subframe : UlSubframe) (reports : List (Rnti × Nat)) : Nat :=
  reports.countP fun entry => decide (entry.2 > 0) && decide (entry.1 ∉ subframe.rntiAllocated)

/-- Where the round robin starts. -/
def firstTurn (nextRntiUl : Rnti) (reports : List (Rnti × Nat)) : Option (Nat × Rnti) :=
  if nextRntiUl ≠ 0 then
    (reports.findIdx? fun entry => decide (entry.1 = nextRntiUl)).map fun place =>
      (place, nextRntiUl)
  else (reports.head?).map fun entry => (0, entry.1)

/-- The share of a UE, 3 RBs at least. -/
def shareOf (bandwidth : Nat) (subframe : UlSubframe) (nflows : Nat) : Nat :=
  let share := bandwidth / (nflows + subframe.rntiAllocated.length)
  if share < 3 then 3 else share

/-- The new blocks of a trigger; the loop takes a turn for each report at most. -/
def divideBand (radio : UlRadio Sinr) (scheduler : UlScheduler Sinr) (served : UlSubframe) :
    Option UlRobin := do
  let (place, nextRntiUl) ← firstTurn scheduler.nextRntiUl scheduler.ceBsrRxed
  loop (takeTurn radio scheduler) scheduler.ceBsrRxed.length
    { subframe := served
      ceBsrRxed := scheduler.ceBsrRxed
      rbAllocated := 0
      rbPerFlow := shareOf scheduler.ulBandwidth served (flows served scheduler.ceBsrRxed)
      place := place
      nextRntiUl := nextRntiUl }

def UlScheduler.storeMap (scheduler : UlScheduler Sinr) (sfnSf : Nat) (allocation : List Rnti) :
    UlScheduler Sinr :=
  { scheduler with allocationMaps := put scheduler.allocationMaps sfnSf (some allocation) }

/-- `DoSchedUlTriggerReq` -/
def doSchedUlTriggerReq (radio : UlRadio Sinr) (scheduler : UlScheduler Sinr) (sfnSf : Nat)
    (ulInfoList : List UlInfoListElement) : Option (UlScheduler Sinr × UlOutcome) := do
  let scheduler := refreshUlCqiMaps scheduler
  let served ← serveUlInfo scheduler ulInfoList
  let scheduler := { scheduler with
    ues := served.ues, rachAllocationMap := List.replicate scheduler.ulBandwidth 0 }
  if flows served scheduler.ceBsrRxed = 0 then
    if served.dciList = [] then return (scheduler, ⟨[], none⟩)
    else
      return (scheduler.storeMap sfnSf served.rbgAllocationMap,
        ⟨served.dciList, some served.rbgAllocationMap⟩)
  else
    let robin ← divideBand radio scheduler served
    let allocation := robin.subframe.rbgAllocationMap
    return ({ scheduler.storeMap sfnSf allocation with
        ues := robin.subframe.ues
        ceBsrRxed := robin.ceBsrRxed
        nextRntiUl := robin.nextRntiUl },
      ⟨robin.subframe.dciList, some allocation⟩)

/-! ## Runs -/

/-- What a trigger sent. -/
inductive Sent
  | downlink (buildRarList : List BuildRarListElement)
  | uplink (outcome : UlOutcome)
  deriving DecidableEq, Repr

/-- A scheduler with what it sent, the latest first. -/
structure UlRun (Sinr : Type) where
  scheduler : UlScheduler Sinr
  sent : List Sent

inductive Call
  | configureUe (rnti : Rnti)
  | rachInfo (rachList : List RachListElement)
  | macCtrlInfo (macCeList : List MacCeListElement)
  | ulCqiInfo (info : UlCqiInfo)
  | dlTrigger
  | ulTrigger (sfnSf : Nat) (ulInfoList : List UlInfoListElement)
  deriving DecidableEq, Repr

def UlRun.start (config : UlConfig) : UlRun Sinr := ⟨.start config, []⟩

def step (radio : UlRadio Sinr) (run : UlRun Sinr) : Call → Option (UlRun Sinr)
  | .configureUe rnti => some { run with scheduler := doCschedUeConfigReq run.scheduler rnti }
  | .rachInfo rachList =>
      some { run with scheduler := doSchedDlRachInfoReq run.scheduler rachList }
  | .macCtrlInfo macCeList =>
      (doSchedUlMacCtrlInfoReq radio run.scheduler macCeList).map fun scheduler =>
        { run with scheduler := scheduler }
  | .ulCqiInfo info =>
      (doSchedUlCqiInfoReq radio run.scheduler info).map fun scheduler =>
        { run with scheduler := scheduler }
  | .dlTrigger =>
      (doSchedDlTriggerReq radio run.scheduler).map fun result =>
        ⟨result.1, .downlink result.2 :: run.sent⟩
  | .ulTrigger sfnSf ulInfoList =>
      (doSchedUlTriggerReq radio run.scheduler sfnSf ulInfoList).map fun result =>
        ⟨result.1, .uplink result.2 :: run.sent⟩

end DeepcV2x.Lte.Uplink
