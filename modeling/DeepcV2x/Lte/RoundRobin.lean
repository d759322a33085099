import Mathlib.Data.List.Sort
import DeepcV2x.Foundation.Association
import DeepcV2x.Foundation.Loops
import DeepcV2x.Foundation.Marks
import DeepcV2x.Foundation.Runs

/-!
# The round-robin downlink scheduler

`RrFfMacScheduler` keeps the HARQ processes of every UE, the queue sizes that
the RLC entities report and the last CQI of each UE.  A trigger first serves
the HARQ feedback, then divides the free resource block groups (RBGs) among
the UEs with data.  HARQ is enabled and the random access list is empty.
-/

namespace DeepcV2x.Lte.RoundRobin

open DeepcV2x.Foundation.Association
open DeepcV2x.Foundation.Loops
open DeepcV2x.Foundation.Marks (mark maskOf)
open DeepcV2x.Foundation.Runs

abbrev Rnti := Nat

def harqProcNum : Nat := 8

def harqDlTimeout : Nat := 11

abbrev HarqProcess := Fin harqProcNum

/-! ## The messages -/

structure RlcPduListElement where
  logicalChannelIdentity : Nat
  size : Nat
  deriving DecidableEq, Repr

structure DlDciListElement where
  rnti : Rnti
  rbBitmap : Nat
  resAlloc : Nat
  tbsSize : List Nat
  mcs : List Nat
  ndi : List Nat
  rv : List Nat
  tpc : Nat
  harqProcess : Nat
  deriving DecidableEq, Repr

/-- The DCI of a process that was never used. -/
def DlDciListElement.unused : DlDciListElement :=
  { rnti := 65535, rbBitmap := 255, resAlloc := 255, tbsSize := [], mcs := [], ndi := [],
    rv := [], tpc := 255, harqProcess := 255 }

inductive HarqStatus
  | ack
  | nack
  | dtx
  deriving DecidableEq, Repr

structure DlInfoListElement where
  rnti : Rnti
  harqProcessId : Nat
  harqStatus : List HarqStatus
  deriving DecidableEq, Repr

structure BuildDataListElement where
  rnti : Rnti
  dci : DlDciListElement
  rlcPduList : List (List RlcPduListElement)
  deriving DecidableEq, Repr

structure SchedDlRlcBufferReq where
  rnti : Rnti
  logicalChannelIdentity : Nat
  rlcTransmissionQueueSize : Nat
  rlcRetransmissionQueueSize : Nat
  rlcStatusPduSize : Nat
  deriving DecidableEq, Repr

inductive CqiListElement
  | p10 (rnti : Rnti) (wbCqi : List Nat)
  | other (rnti : Rnti)
  deriving DecidableEq, Repr

/-! ## The state -/

/-- The two functions of `LteAmc` that the scheduler calls. -/
structure LteAmc where
  getMcsFromCqi : Nat → Nat
  getDlTbSizeFromMcs : Nat → Nat → Nat

/--
The entries of one RNTI in the maps that `DoCschedUeConfigReq` fills and
`DoCschedUeReleaseReq` clears together.  The RLC PDU lists are by layer and process.
-/
structure UeHarq where
  transmissionMode : Nat
  currentProcessId : HarqProcess
  processesStatus : HarqProcess → Nat
  processesTimer : HarqProcess → Nat
  processesDci : HarqProcess → DlDciListElement
  processesRlcPduList : Nat → HarqProcess → List RlcPduListElement

/-- The entries of one RNTI in the maps of CQIs and of their timers, made and erased together. -/
structure P10Cqi where
  cqiRxed : Nat
  timer : Nat
  deriving DecidableEq, Repr

structure RrFfMacScheduler where
  dlBandwidth : Nat
  cqiTimersThreshold : Nat
  ues : Rnti → Option UeHarq
  dlInfoListBuffered : List DlInfoListElement
  rlcBufferReq : List SchedDlRlcBufferReq
  p10Cqi : Rnti → Option P10Cqi
  nextRntiDl : Rnti

def RrFfMacScheduler.start (dlBandwidth cqiTimersThreshold : Nat) : RrFfMacScheduler :=
  { dlBandwidth := dlBandwidth, cqiTimersThreshold := cqiTimersThreshold, ues := fun _ => none,
    dlInfoListBuffered := [], rlcBufferReq := [], p10Cqi := fun _ => none, nextRntiDl := 0 }

/-- Set the entry of one key. -/
def put {Value : Type} (map : Rnti → Option Value) (rnti : Rnti) (value : Option Value) :
    Rnti → Option Value :=
  fun other => if other = rnti then value else map other

/-! ## Configuration and reports -/

/-- A UE as its first configuration leaves it; `firstProcess` is process 0. -/
def UeHarq.fresh (transmissionMode : Nat) (firstProcess : HarqProcess) : UeHarq :=
  { transmissionMode := transmissionMode, currentProcessId := firstProcess,
    processesStatus := fun _ => 0, processesTimer := fun _ => 0,
    processesDci := fun _ => .unused, processesRlcPduList := fun _ _ => [] }

def processZero : HarqProcess := ⟨0, by decide⟩

def doCschedUeConfigReq (scheduler : RrFfMacScheduler) (rnti transmissionMode : Nat) :
    RrFfMacScheduler :=
  match scheduler.ues rnti with
  | none =>
      { scheduler with
        ues := put scheduler.ues rnti (some (.fresh transmissionMode processZero)) }
  | some ue =>
      { scheduler with
        ues := put scheduler.ues rnti (some { ue with transmissionMode := transmissionMode }) }

def doCschedLcReleaseReq (scheduler : RrFfMacScheduler) (rnti : Rnti)
    (logicalChannelIdentities : List Nat) : RrFfMacScheduler :=
  { scheduler with
    rlcBufferReq := scheduler.rlcBufferReq.filter fun req =>
      ¬ (req.rnti = rnti ∧ req.logicalChannelIdentity ∈ logicalChannelIdentities) }

def doCschedUeReleaseReq (scheduler : RrFfMacScheduler) (rnti : Rnti) : RrFfMacScheduler :=
  { scheduler with
    ues := put scheduler.ues rnti none
    rlcBufferReq := scheduler.rlcBufferReq.filter fun req => req.rnti ≠ rnti
    nextRntiDl := if scheduler.nextRntiDl = rnti then 0 else scheduler.nextRntiDl }

/-- One UE's logical channel. -/
def SchedDlRlcBufferReq.Of (req : SchedDlRlcBufferReq) (rnti lcid : Nat) : Prop :=
  req.rnti = rnti ∧ req.logicalChannelIdentity = lcid

instance (req : SchedDlRlcBufferReq) (rnti lcid : Nat) : Decidable (req.Of rnti lcid) :=
  inferInstanceAs (Decidable (req.rnti = rnti ∧ req.logicalChannelIdentity = lcid))

def doSchedDlRlcBufferReq (scheduler : RrFfMacScheduler) (params : SchedDlRlcBufferReq) :
    RrFfMacScheduler :=
  let others := scheduler.rlcBufferReq.filter fun req =>
    ¬ req.Of params.rnti params.logicalChannelIdentity
  let newLc := decide (others.length = scheduler.rlcBufferReq.length)
  { scheduler with
    rlcBufferReq := others ++ [params]
    p10Cqi :=
      if newLc then put scheduler.p10Cqi params.rnti (some ⟨1, scheduler.cqiTimersThreshold⟩)
      else scheduler.p10Cqi }

/-- One element of a CQI list; `none` where the report holds no CQI. -/
def cqiReported (scheduler : RrFfMacScheduler) : CqiListElement → Option RrFfMacScheduler
  | .p10 rnti wbCqi =>
      match wbCqi with
      | [] => none
      | cqi :: _ =>
          some { scheduler with
            p10Cqi := put scheduler.p10Cqi rnti (some ⟨cqi, scheduler.cqiTimersThreshold⟩) }
  | .other _ => some scheduler

def doSchedDlCqiInfoReq (scheduler : RrFfMacScheduler) (cqiList : List CqiListElement) :
    Option RrFfMacScheduler :=
  cqiList.foldlM cqiReported scheduler

/-! ## Refreshing at a trigger -/

/-- A CQI whose timer is at 0 is dropped; the other timers count down. -/
def P10Cqi.refresh (cqi : P10Cqi) : Option P10Cqi :=
  if cqi.timer = 0 then none else some { cqi with timer := cqi.timer - 1 }

def refreshDlCqiMaps (scheduler : RrFfMacScheduler) : RrFfMacScheduler :=
  { scheduler with p10Cqi := fun rnti => (scheduler.p10Cqi rnti).bind P10Cqi.refresh }

def UeHarq.refresh (ue : UeHarq) : UeHarq :=
  { ue with
    processesStatus := fun process =>
      if ue.processesTimer process = harqDlTimeout then 0 else ue.processesStatus process
    processesTimer := fun process =>
      if ue.processesTimer process = harqDlTimeout then 0 else ue.processesTimer process + 1 }

def refreshHarqProcesses (scheduler : RrFfMacScheduler) : RrFfMacScheduler :=
  { scheduler with ues := fun rnti => (scheduler.ues rnti).map UeHarq.refresh }

/-! ## HARQ processes -/

def nextProcess (process : HarqProcess) : HarqProcess :=
  ⟨(process.val + 1) % harqProcNum, Nat.mod_lt _ (by decide)⟩

/-- The search for a free process, `left` steps behind the current one at most. -/
def searchProcess (ue : UeHarq) : Nat → HarqProcess → HarqProcess
  | 0, process => process
  | left + 1, process =>
      let next := nextProcess process
      if ue.processesStatus next ≠ 0 ∧ next ≠ ue.currentProcessId then searchProcess ue left next
      else next

def UeHarq.searched (ue : UeHarq) : HarqProcess :=
  searchProcess ue harqProcNum ue.currentProcessId

def harqProcessAvailability (ue : UeHarq) : Bool :=
  decide (ue.processesStatus ue.searched = 0)

/-- The process of a new transmission with the UE that holds it; 9 is no process. -/
def updateHarqProcessId (ue : UeHarq) : Option (HarqProcess × UeHarq) :=
  if ue.processesStatus ue.searched = 0 then
    some (ue.searched,
      { ue with
        currentProcessId := ue.searched
        processesStatus := fun process =>
          if process = ue.searched then 1 else ue.processesStatus process })
  else none

/-- A process id used as an index. -/
def processAt (harqProcessId : Nat) : Option HarqProcess :=
  if h : harqProcessId < harqProcNum then some ⟨harqProcessId, h⟩ else none

/-- An acknowledged or dropped process. -/
def UeHarq.freeProcess (ue : UeHarq) (process : HarqProcess) : UeHarq :=
  { ue with
    processesStatus := fun other => if other = process then 0 else ue.processesStatus other
    processesRlcPduList := fun layer other =>
      if other = process then [] else ue.processesRlcPduList layer other }

/-! ## Resource block groups -/

def type0AllocationRbg : List Nat := [10, 26, 63, 110]

/-- `none` stands for the size -1 of a bandwidth outside the table. -/
def getRbgSize (dlBandwidth : Nat) : Option Nat :=
  (type0AllocationRbg.findIdx? fun limit => decide (dlBandwidth < limit)).map fun index => index + 1

/-- The RBGs of a bitmap of 32 bits. -/
def rbgsOf (rbBitmap : Nat) : List Nat :=
  (List.range 32).filter fun rbg => rbBitmap.testBit rbg

/-- Whether all RBGs are free; `none` for one outside the map. -/
def allFree (rbgMap : List Bool) : List Nat → Option Bool
  | [] => some true
  | rbg :: rest =>
      match rbgMap[rbg]? with
      | none => none
      | some true => some false
      | some false => allFree rbgMap rest

/-- The cyclic search for other RBGs, up to `startRbg`. -/
def searchRbgs (rbgNum startRbg needed : Nat) :
    Nat → Nat → List Bool → List Nat → Option (List Nat × List Bool)
  | 0, rbgId, rbgMap, found =>
      if found.length < needed ∧ startRbg ≠ rbgId then none else some (found, rbgMap)
  | left + 1, rbgId, rbgMap, found =>
      if found.length < needed ∧ startRbg ≠ rbgId then
        match rbgMap[rbgId]? with
        | none => none
        | some true =>
            searchRbgs rbgNum startRbg needed left ((rbgId + 1) % rbgNum) rbgMap found
        | some false =>
            searchRbgs rbgNum startRbg needed left ((rbgId + 1) % rbgNum)
              (rbgMap.set rbgId true) (found ++ [rbgId])
      else some (found, rbgMap)

/-- Where a retransmission goes: `rbgs` are the RBGs it takes in the map, if it finds them. -/
structure Placement where
  rbBitmap : Nat
  rbgMap : List Bool
  rbgAllocated : Nat
  untxed : Bool
  deriving DecidableEq, Repr

/-- The same RBGs again, or as many others, or none that are free. -/
def placeRetx (rbgNum : Nat) (rbgMap : List Bool) (rbBitmap : Nat) : Option Placement := do
  let dciRbg := rbgsOf rbBitmap
  if (← allFree rbgMap dciRbg) then
    return ⟨rbBitmap, mark rbgMap dciRbg, dciRbg.length, false⟩
  else
    let startRbg ← dciRbg.getLast?
    let (found, rbgMapCopy) ←
      searchRbgs rbgNum startRbg dciRbg.length rbgNum ((startRbg + 1) % rbgNum) rbgMap []
    if found.length = dciRbg.length then
      return ⟨maskOf found, rbgMapCopy, found.length, false⟩
    else return ⟨rbBitmap, rbgMap, 0, true⟩

/-! ## HARQ feedback -/

/-- What the phases of one trigger share; `untxed` are the retransmissions kept for later. -/
structure Subframe where
  scheduler : RrFfMacScheduler
  rbgNum : Nat
  rbgMap : List Bool
  rbgAllocatedNum : Nat
  rntiAllocated : List Rnti
  untxed : List DlInfoListElement
  buildDataList : List BuildDataListElement

/-- The layers that were not received, two entries at least. -/
def retxOf (harqStatus : List HarqStatus) : Option (List Bool) :=
  match harqStatus with
  | [] => none
  | [status] => some [decide (status = .nack), false]
  | first :: second :: _ => some [decide (first = .nack), decide (second = .nack)]

/-- The redundancy version that is compared with the limit. -/
def rvOf (rv : List Nat) : Option Nat :=
  match rv with
  | [] => none
  | [only] => some only
  | first :: second :: _ => some (if first > second then first else second)

/-- `.at(index) = value` -/
def setAt (values : List Nat) (index value : Nat) : Option (List Nat) :=
  if index < values.length then some (values.set index value) else none

/-- The fields of a retransmitted DCI for one layer. -/
def retxLayer (dci : DlDciListElement) (layer : Nat) (retx : Bool) : Option DlDciListElement :=
  if retx then
    if dci.ndi.length ≤ layer then
      some { dci with
        ndi := dci.ndi ++ [0], rv := dci.rv ++ [0], mcs := dci.mcs ++ [0],
        tbsSize := dci.tbsSize ++ [0] }
    else do
      let version ← dci.rv[layer]?
      let ndi ← setAt dci.ndi layer 0
      let rv ← setAt dci.rv layer (version + 1)
      return { dci with ndi := ndi, rv := rv }
  else do
    let ndi ← setAt dci.ndi layer 0
    let rv ← setAt dci.rv layer 0
    let mcs ← setAt dci.mcs layer 0
    let tbsSize ← setAt dci.tbsSize layer 0
    return { dci with ndi := ndi, rv := rv, mcs := mcs, tbsSize := tbsSize }

/-- The loop over the layers of the feedback. -/
def retxLayers (retx : List Bool) : Nat → Nat → DlDciListElement → Option DlDciListElement
  | 0, _, dci => some dci
  | left + 1, layer, dci => do
      let again ← retx[layer]?
      retxLayers retx left (layer + 1) (← retxLayer dci layer again)

/-- The PDUs of the channel at one place of the lists, a layer each. -/
def retxPdusAt (ue : UeHarq) (process : HarqProcess) (layers : Nat) (retx : List Bool)
    (place : Nat) : Nat → Nat → Option (List RlcPduListElement)
  | 0, _ => some []
  | left + 1, layer => do
      let again ← retx[layer]?
      let rest ← retxPdusAt ue process layers retx place left (layer + 1)
      if again then
        if layer < layers then
          return (← (ue.processesRlcPduList layer process)[place]?) :: rest
        else return rest
      else
        let pdu ← (ue.processesRlcPduList layer process)[place]?
        return { pdu with size := 0 } :: rest

/-- The loop over the PDUs of the first layer; a channel without a PDU adds no list. -/
def retxPdus (ue : UeHarq) (process : HarqProcess) (layers : Nat) (retx : List Bool)
    (nLayers : Nat) : Nat → Nat → Option (List (List RlcPduListElement))
  | 0, _ => some []
  | left + 1, place => do
      let pdus ← retxPdusAt ue process layers retx place nLayers 0
      let rest ← retxPdus ue process layers retx nLayers left (place + 1)
      if pdus.isEmpty then return rest else return pdus :: rest

/-- The UE after a retransmission: the stored versions follow the DCI and the timer restarts. -/
def UeHarq.retransmitted (ue : UeHarq) (process : HarqProcess) (rv : List Nat) : UeHarq :=
  { ue with
    processesDci := fun other =>
      if other = process then { ue.processesDci process with rv := rv } else ue.processesDci other
    processesTimer := fun other => if other = process then 0 else ue.processesTimer other }

def RrFfMacScheduler.withUe (scheduler : RrFfMacScheduler) (rnti : Rnti) (ue : UeHarq) :
    RrFfMacScheduler :=
  { scheduler with ues := put scheduler.ues rnti (some ue) }

/-- A retransmission below the limit, on the RBGs of its placement. -/
def retransmit (subframe : Subframe) (info : DlInfoListElement) (ue : UeHarq)
    (process : HarqProcess) (retx : List Bool) : Option Subframe := do
  let stored := ue.processesDci process
  let placement ← placeRetx subframe.rbgNum subframe.rbgMap stored.rbBitmap
  let nLayers := info.harqStatus.length
  let dci ← retxLayers retx nLayers 0 { stored with rbBitmap := placement.rbBitmap }
  let pduProcess ← processAt dci.harqProcess
  let rlcPduList ← retxPdus ue pduProcess dci.ndi.length retx nLayers
    (ue.processesRlcPduList 0 pduProcess).length 0
  return { subframe with
    scheduler := subframe.scheduler.withUe info.rnti (ue.retransmitted process dci.rv)
    rbgMap := placement.rbgMap
    rbgAllocatedNum := subframe.rbgAllocatedNum + placement.rbgAllocated
    rntiAllocated := info.rnti :: subframe.rntiAllocated
    untxed := if placement.untxed then subframe.untxed ++ [info] else subframe.untxed
    buildDataList := subframe.buildDataList ++ [⟨info.rnti, dci, rlcPduList⟩] }

/-- The turn of one feedback element; an exception or a fatal error is `none`. -/
def processFeedback (subframe : Subframe) (info : DlInfoListElement) : Option Subframe :=
  if info.rnti ∈ subframe.rntiAllocated then some subframe
  else do
    let retx ← retxOf info.harqStatus
    let ue ← subframe.scheduler.ues info.rnti
    let process ← processAt info.harqProcessId
    if true ∈ retx then
      if (← rvOf (ue.processesDci process).rv) = 3 then
        return { subframe with
          scheduler := subframe.scheduler.withUe info.rnti (ue.freeProcess process) }
      else retransmit subframe info ue process retx
    else
      return { subframe with
        scheduler := subframe.scheduler.withUe info.rnti (ue.freeProcess process) }

/-! ## The queues -/

def SchedDlRlcBufferReq.hasData (req : SchedDlRlcBufferReq) : Bool :=
  decide (req.rlcTransmissionQueueSize > 0) || decide (req.rlcRetransmissionQueueSize > 0) ||
    decide (req.rlcStatusPduSize > 0)

/-- The RLC overhead that is counted, 4 bytes for SRB1. -/
def rlcOverhead (lcid : Nat) : Nat := if lcid = 1 then 4 else 2

/-- The difference of a `uint16_t` and a `uint32_t`. -/
def sub32 (left right : Nat) : Nat := (left + 4294967296 - right) % 4294967296

/-- The data queue after some bytes of payload. -/
def dataLeft (queue payload : Nat) : Nat := if queue ≤ payload then 0 else queue - payload

/-- The queues of one channel after a grant: status, then retransmissions, then data. -/
def SchedDlRlcBufferReq.served (req : SchedDlRlcBufferReq) (size : Nat) : SchedDlRlcBufferReq :=
  if req.rlcStatusPduSize > 0 ∧ req.rlcStatusPduSize ≤ size then
    { req with rlcStatusPduSize := 0 }
  else if req.rlcRetransmissionQueueSize > 0 ∧ req.rlcRetransmissionQueueSize ≤ size then
    { req with rlcRetransmissionQueueSize := 0 }
  else if req.rlcTransmissionQueueSize > 0 then
    { req with
      rlcTransmissionQueueSize := dataLeft req.rlcTransmissionQueueSize
        (sub32 size (rlcOverhead req.logicalChannelIdentity)) }
  else req

def updateDlRlcBufferInfo (rnti lcid size : Nat) :
    List SchedDlRlcBufferReq → List SchedDlRlcBufferReq
  | [] => []
  | req :: rest =>
      if req.Of rnti lcid then req.served size :: rest
      else req :: updateDlRlcBufferInfo rnti lcid size rest

/-! ## New transmissions -/

/-- The CQI of a UE; 1 when no report is valid. -/
def RrFfMacScheduler.cqiOf (scheduler : RrFfMacScheduler) (rnti : Rnti) : Nat :=
  match scheduler.p10Cqi rnti with
  | none => 1
  | some cqi => cqi.cqiRxed

/-- Whether a channel takes part; `none` for a UE that is not configured. -/
def isActive (subframe : Subframe) (req : SchedDlRlcBufferReq) : Option Bool :=
  if req.hasData ∧ req.rnti ∉ subframe.rntiAllocated then
    (subframe.scheduler.ues req.rnti).map fun ue =>
      harqProcessAvailability ue && decide (subframe.scheduler.cqiOf req.rnti ≠ 0)
  else some false

/-- One more active channel of a UE; the count is a `uint8_t`. -/
def countActive : Option Nat → Nat
  | none => 1
  | some count => (count + 1) % 256

/-- `lcActivesPerRnti` -/
def lcActives (subframe : Subframe) :
    List SchedDlRlcBufferReq → Table Rnti Nat → Option (Table Rnti Nat)
  | [], actives => some actives
  | req :: rest, actives => do
      if (← isActive subframe req) then
        lcActives subframe rest (upsert req.rnti countActive actives)
      else lcActives subframe rest actives

/-- Where the iteration starts and the RNTI it ends at; `none` when the last UE is not listed. -/
def firstTurn (nextRntiDl : Rnti) (reqs : List SchedDlRlcBufferReq) : Option (Nat × Rnti) := do
  let place ←
    if nextRntiDl = 0 then some 0
    else (reqs.findIdx? fun req => decide (req.rnti = nextRntiDl)).map fun place =>
      if place + 1 = reqs.length then 0 else place + 1
  return (place, (← reqs[place]?).rnti)

/-- The end of the entries of one RNTI from a place on. -/
def groupEnd (reqs : List SchedDlRlcBufferReq) (rnti : Rnti) (place : Nat) : Nat :=
  place + ((reqs.drop place).takeWhile fun req => decide (req.rnti = rnti)).length

/-- The place behind these entries, the first one after the last. -/
def nextGroup (reqs : List SchedDlRlcBufferReq) (rnti : Rnti) (place : Nat) : Nat :=
  if groupEnd reqs rnti place = reqs.length then 0 else groupEnd reqs rnti place

/-- What the loop over the channels of one UE changes. -/
structure ChannelLoop where
  rlcBufferReq : List SchedDlRlcBufferReq
  rlcPduList : List (List RlcPduListElement)

/-- The turn of one channel. -/
def grantChannel (nLayer size : Nat) (req : SchedDlRlcBufferReq) (channels : ChannelLoop) :
    ChannelLoop :=
  if req.hasData then
    { rlcBufferReq :=
        (updateDlRlcBufferInfo req.rnti req.logicalChannelIdentity size)^[nLayer]
          channels.rlcBufferReq
      rlcPduList :=
        channels.rlcPduList ++ [List.replicate nLayer ⟨req.logicalChannelIdentity, size⟩] }
  else channels

/-- The channels from a place on, `left` of them. -/
def grantChannels (nLayer size : Nat) : Nat → Nat → ChannelLoop → ChannelLoop
  | 0, _, channels => channels
  | left + 1, place, channels =>
      match channels.rlcBufferReq[place]? with
      | none => channels
      | some req =>
          grantChannels nLayer size left (place + 1) (grantChannel nLayer size req channels)

/-- The next free RBGs, `wanted` of them, from `rbgAllocated` on; `none` past the map. -/
def takeRbgs : Nat → Nat → List Bool → Nat → List Nat → Option (List Nat × List Bool × Nat)
  | _, 0, rbgMap, rbgAllocated, taken => some (taken, rbgMap, rbgAllocated)
  | 0, _ + 1, _, _, _ => none
  | left + 1, wanted + 1, rbgMap, rbgAllocated, taken =>
      match rbgMap[rbgAllocated]? with
      | none => none
      | some true => takeRbgs left (wanted + 1) rbgMap (rbgAllocated + 1) taken
      | some false =>
          takeRbgs left wanted (rbgMap.set rbgAllocated true) (rbgAllocated + 1)
            (taken ++ [rbgAllocated])

/-- `TransmissionModesLayers::TxMode2LayerNum` -/
def txMode2LayerNum (txMode : Nat) : Nat :=
  if txMode ≤ 1 then 1 else if txMode ≤ 4 then 2 else if txMode ≤ 6 then 1 else 0

/-- The UE that holds the new transmission. -/
def UeHarq.transmitted (ue : UeHarq) (process : HarqProcess) (dci : DlDciListElement)
    (rlcPduList : List (List RlcPduListElement)) : UeHarq :=
  { ue with
    processesDci := fun other => if other = process then dci else ue.processesDci other
    processesTimer := fun other => if other = process then 0 else ue.processesTimer other
    processesRlcPduList := fun layer other =>
      ue.processesRlcPduList layer other ++
        if other = process then rlcPduList.filterMap fun pdus => pdus[layer]? else [] }

/-- The loop variables of the round robin. -/
structure TurnLoop where
  subframe : Subframe
  rbgAllocated : Nat
  place : Nat
  nextRntiDl : Rnti

/-- What does not change during the round robin. -/
structure Shares where
  amc : LteAmc
  rbgSize : Nat
  rbgPerTb : Nat
  actives : Table Rnti Nat

/-- The MCS of a new transmission, a `uint8_t`. -/
def Shares.mcsOf (shares : Shares) (scheduler : RrFfMacScheduler) (rnti : Rnti) : Nat :=
  match scheduler.p10Cqi rnti with
  | none => 0
  | some cqi => shares.amc.getMcsFromCqi cqi.cqiRxed % 256

/-- The bytes of a transport block. -/
def Shares.tbSizeOf (shares : Shares) (scheduler : RrFfMacScheduler) (rnti : Rnti) : Nat :=
  shares.amc.getDlTbSizeFromMcs (shares.mcsOf scheduler rnti)
    (shares.rbgPerTb * shares.rbgSize) / 8

/-- The bytes of one RLC PDU, a `uint16_t`. -/
def Shares.pduSizeOf (shares : Shares) (scheduler : RrFfMacScheduler) (rnti : Rnti)
    (lcNum : Nat) : Nat :=
  shares.tbSizeOf scheduler rnti / lcNum % 65536

def newDci (rnti mcs tbSize nLayer process : Nat) (rbgs : List Nat) : DlDciListElement :=
  { rnti := rnti, rbBitmap := maskOf rbgs, resAlloc := 0,
    tbsSize := List.replicate nLayer (tbSize % 65536), mcs := List.replicate nLayer mcs,
    ndi := List.replicate nLayer 1, rv := List.replicate nLayer 0, tpc := 1,
    harqProcess := process }

/-- A transport block for the UE at the current place. -/
def grant (shares : Shares) (robin : TurnLoop) (rnti lcNum : Nat) : Option TurnLoop := do
  let subframe := robin.subframe
  let scheduler := subframe.scheduler
  let ue ← scheduler.ues rnti
  let nLayer := txMode2LayerNum ue.transmissionMode
  let (process, ue) ← updateHarqProcessId ue
  if nLayer = 0 ∨ lcNum = 0 then none
  else
    let mcs := shares.mcsOf scheduler rnti
    let tbSize := shares.tbSizeOf scheduler rnti
    let size := shares.pduSizeOf scheduler rnti lcNum
    let reqs := scheduler.rlcBufferReq
    let channels := grantChannels nLayer size (groupEnd reqs rnti robin.place - robin.place)
      robin.place ⟨reqs, []⟩
    let (rbgs, rbgMap, rbgAllocated) ← takeRbgs (subframe.rbgMap.length + 1) shares.rbgPerTb
      subframe.rbgMap robin.rbgAllocated []
    let dci := newDci rnti mcs tbSize nLayer process rbgs
    let ue := ue.transmitted process dci channels.rlcPduList
    return {
      subframe := { subframe with
        scheduler :=
          { scheduler.withUe rnti ue with rlcBufferReq := channels.rlcBufferReq }
        rbgMap := rbgMap
        rbgAllocatedNum := subframe.rbgAllocatedNum + rbgs.length
        buildDataList := subframe.buildDataList ++ [⟨rnti, dci, channels.rlcPduList⟩] }
      rbgAllocated := rbgAllocated
      place := nextGroup reqs rnti robin.place
      nextRntiDl := robin.nextRntiDl }

/-- The UE whose turn it is and whether it takes part. -/
def turnOf (shares : Shares) (robin : TurnLoop) : Option (Rnti × Option Nat) := do
  let req ← robin.subframe.scheduler.rlcBufferReq[robin.place]?
  if req.rnti ∈ robin.subframe.rntiAllocated then return (req.rnti, none)
  else return (req.rnti, lookup req.rnti shares.actives)

/-- One turn with whether the loop ends behind it. -/
def takeTurn (shares : Shares) (robin : TurnLoop) : Option (Bool × TurnLoop) := do
  let (rnti, active) ← turnOf shares robin
  match active with
  | none =>
      let robin := { robin with
        place := nextGroup robin.subframe.scheduler.rlcBufferReq rnti robin.place }
      return (decide ((← turnOf shares robin).1 = robin.nextRntiDl), robin)
  | some lcNum =>
      let robin ← grant shares robin rnti lcNum
      if robin.subframe.rbgAllocatedNum = robin.subframe.rbgNum then
        return (true, { robin with nextRntiDl := rnti })
      else return (decide ((← turnOf shares robin).1 = robin.nextRntiDl), robin)

/-! ## The trigger -/

/-- The state and map a trigger starts from. -/
def openSubframe (scheduler : RrFfMacScheduler) (rbgSize : Nat) : Subframe :=
  { scheduler := refreshHarqProcesses (refreshDlCqiMaps scheduler)
    rbgNum := scheduler.dlBandwidth / rbgSize
    rbgMap := List.replicate (scheduler.dlBandwidth / rbgSize) false
    rbgAllocatedNum := 0
    rntiAllocated := []
    untxed := []
    buildDataList := [] }

/-- All feedback of a trigger. -/
def serveFeedback (scheduler : RrFfMacScheduler) (rbgSize : Nat)
    (dlInfoList : List DlInfoListElement) : Option Subframe :=
  runFrom processFeedback (openSubframe scheduler rbgSize)
    (scheduler.dlInfoListBuffered ++ dlInfoList)

/-- The feedback that could not be served is kept and the reports are sorted by RNTI. -/
def Subframe.sorted (subframe : Subframe) : Subframe :=
  { subframe with
    scheduler := { subframe.scheduler with
      dlInfoListBuffered := subframe.untxed
      rlcBufferReq := subframe.scheduler.rlcBufferReq.insertionSort
        fun left right => left.rnti ≤ right.rnti } }

/-- What the round robin starts with. -/
def sharesOf (amc : LteAmc) (rbgSize : Nat) (subframe : Subframe) (actives : Table Rnti Nat) :
    Shares :=
  let share := (subframe.rbgNum - subframe.rbgAllocatedNum) / actives.length
  { amc := amc, rbgSize := rbgSize, rbgPerTb := if share = 0 then 1 else share,
    actives := actives }

/-- The new transmissions of a trigger; a loop over the UEs takes fewer turns than it is given. -/
def transmitNew (amc : LteAmc) (rbgSize : Nat) (subframe : Subframe) : Option Subframe := do
  let scheduler := subframe.scheduler
  let actives ← lcActives subframe scheduler.rlcBufferReq []
  if actives = [] then return subframe
  else
    let (place, nextRntiDl) ← firstTurn scheduler.nextRntiDl scheduler.rlcBufferReq
    let robin ← loop (takeTurn (sharesOf amc rbgSize subframe actives))
      (2 * scheduler.rlcBufferReq.length + 1) ⟨subframe, 0, place, nextRntiDl⟩
    return { robin.subframe with
      scheduler := { robin.subframe.scheduler with nextRntiDl := robin.nextRntiDl } }

/-- `DoSchedDlTriggerReq` with the data list of its `SchedDlConfigInd`, empty where it sends none. -/
def doSchedDlTriggerReq (amc : LteAmc) (scheduler : RrFfMacScheduler)
    (dlInfoList : List DlInfoListElement) :
    Option (RrFfMacScheduler × List BuildDataListElement) := do
  let rbgSize ← getRbgSize scheduler.dlBandwidth
  let served ← serveFeedback scheduler rbgSize dlInfoList
  if served.rbgAllocatedNum = served.rbgNum then
    return ({ served.scheduler with dlInfoListBuffered := served.untxed }, served.buildDataList)
  else
    let subframe ← transmitNew amc rbgSize served.sorted
    return (subframe.scheduler, subframe.buildDataList)

/-! ## Events -/

inductive Event
  | configureUe (rnti transmissionMode : Nat)
  | releaseUe (rnti : Rnti)
  | releaseLcs (rnti : Rnti) (logicalChannelIdentities : List Nat)
  | rlcBuffer (params : SchedDlRlcBufferReq)
  | cqiInfo (cqiList : List CqiListElement)
  | trigger (dlInfoList : List DlInfoListElement)
  deriving DecidableEq, Repr

def step (amc : LteAmc) (scheduler : RrFfMacScheduler) : Event → Option RrFfMacScheduler
  | .configureUe rnti transmissionMode =>
      some (doCschedUeConfigReq scheduler rnti transmissionMode)
  | .releaseUe rnti => some (doCschedUeReleaseReq scheduler rnti)
  | .releaseLcs rnti lcids => some (doCschedLcReleaseReq scheduler rnti lcids)
  | .rlcBuffer params => some (doSchedDlRlcBufferReq scheduler params)
  | .cqiInfo cqiList => doSchedDlCqiInfoReq scheduler cqiList
  | .trigger dlInfoList =>
      (doSchedDlTriggerReq amc scheduler dlInfoList).map Prod.fst

end DeepcV2x.Lte.RoundRobin
