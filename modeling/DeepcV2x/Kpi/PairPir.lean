import DeepcV2x.Kpi.Window
import Mathlib.Data.List.ReduceOption

/-!
# The reception intervals of one pair

A machine that sees only the transmissions of `a` and the receptions of
`(a, b)` is compared with the logger, which other calls may prune at any time.
The two agree as long as no reception depends on such a pruning.
-/

namespace DeepcV2x.Kpi

open DeepcV2x.Foundation DeepcV2x.Pool

variable (config : KpiConfig) (a b : VehicleId)

/-! ## Receptions of a run -/

/-- The event `LogRx` pushes; `none` where it returns early. -/
def rxEventOf (scene : Scene) (txVehicleId rxVehicleId : VehicleId) (seq : UInt64) (tRx : ℚ)
    (posRx : Position) (logger : KpiLogger) : Option RxEvent :=
  if !KpiLogger.rxNodesAccepted config scene txVehicleId rxVehicleId tRx then none
  else
    match KpiLogger.findTxEvent logger.txEvents (txVehicleId, seq) with
    | none => none
    | some tx =>
        if !config.isInsideCore posRx || decide (rxVehicleId ∉ tx.rxAtTx) then none
        else if (txVehicleId, rxVehicleId, seq) ∈ logger.loggedRxTriples then none
        else
          some ⟨tRx, txVehicleId, rxVehicleId, seq,
            (logger.lastRxTimePerPair (txVehicleId, rxVehicleId)).map (tRx - ·)⟩

/-- What a `LogRx` call for the pair pushes, one entry a call. -/
def receptionAt (event : KpiEvent) (logger : KpiLogger) : List (Option RxEvent) :=
  match event.call with
  | .logRx txVehicleId rxVehicleId seq posRx =>
      if txVehicleId = a ∧ rxVehicleId = b then
        [rxEventOf config event.scene txVehicleId rxVehicleId seq event.now posRx logger]
      else []
  | _ => []

/-- What the `LogRx` calls for the pair push, in the order of the calls. -/
def receptions (logger : KpiLogger) : List KpiEvent → List (Option RxEvent)
  | [] => []
  | event :: rest =>
      receptionAt config a b event logger ++ receptions (callLogger config event logger) rest

/-- A `LogTx` call for `a` or a `LogRx` call for `(a, b)`. -/
def concernsPair (event : KpiEvent) : Bool :=
  match event.call with
  | .logTx txVehicleId _ _ _ => decide (txVehicleId = a)
  | .logRx txVehicleId rxVehicleId _ _ => decide (txVehicleId = a ∧ rxVehicleId = b)
  | _ => false

/-! ## The pair on its own -/

/-- The accepted transmissions of `a`, the counted receptions of `(a, b)` and the
time of the last call among them that prunes. -/
structure PairHistory where
  sent : List TxEvent
  counted : List RxEvent
  prunedAt : Option ℚ

namespace PairHistory

def initial : PairHistory := ⟨[], [], none⟩

/-- The transmission has been received and not sent again since. -/
def received (tx : TxEvent) (history : PairHistory) : Bool :=
  history.counted.any fun rx => decide (rx.seq = tx.seq ∧ tx.timeS ≤ rx.timeS)

/-- A reception counts when its transmission is inside the window and not yet received;
its interval is the time since the last counted one. -/
def reception (scene : Scene) (seq : UInt64) (tRx : ℚ) (posRx : Position)
    (history : PairHistory) : Option RxEvent :=
  if !KpiLogger.rxNodesAccepted config scene a b tRx then none
  else
    match KpiLogger.findTxEvent history.sent (a, seq) with
    | none => none
    | some tx =>
        if !config.isInsideCore posRx || decide (b ∉ tx.rxAtTx) ||
            decide (tx.timeS < tRx - config.kpiWindowS) then none
        else if history.received tx then none
        else some ⟨tRx, a, b, seq, history.counted.getLast?.map (tRx - ·.timeS)⟩

def call (event : KpiEvent) (history : PairHistory) : PairHistory :=
  match event.call with
  | .logTx _ _ _ _ =>
      match txOf config event with
      | none => history
      | some tx => { history with sent := history.sent ++ [tx], prunedAt := some event.now }
  | .logRx _ _ seq posRx =>
      match reception config a b event.scene seq event.now posRx history with
      | none => history
      | some rx => { history with counted := history.counted ++ [rx], prunedAt := some event.now }
  | _ => history

def outcome (event : KpiEvent) (history : PairHistory) : List (Option RxEvent) :=
  match event.call with
  | .logRx _ _ seq posRx => [reception config a b event.scene seq event.now posRx history]
  | _ => []

/-- The counted receptions of the pair's calls. -/
def outcomes (history : PairHistory) : List KpiEvent → List (Option RxEvent)
  | [] => []
  | event :: rest =>
      outcome config a b event history ++ outcomes (call config a b event history) rest

/-- A reception arrives inside the window of its transmission, or after one of the pair's
own calls has pruned the transmission.  A sequence number is sent again only when its
last reception has left the window. -/
def Settled (event : KpiEvent) (history : PairHistory) : Prop :=
  match event.call with
  | .logTx _ _ _ _ => ∀ tx ∈ txOf config event, ∀ rx ∈ history.counted, rx.seq = tx.seq →
      rx.timeS < event.now - config.kpiWindowS
  | .logRx _ _ seq posRx =>
      KpiLogger.rxNodesAccepted config event.scene a b event.now = true →
        config.isInsideCore posRx = true →
          ∀ tx ∈ KpiLogger.findTxEvent history.sent (a, seq), b ∈ tx.rxAtTx →
            event.now - config.kpiWindowS ≤ tx.timeS ∨
              ∃ pruned ∈ history.prunedAt, tx.timeS < pruned - config.kpiWindowS
  | _ => True

instance Settled.decidable (event : KpiEvent) (history : PairHistory) :
    Decidable (Settled config a b event history) := by
  unfold Settled
  split <;> infer_instance

/-- Every call of the pair is settled when it is made. -/
def AllSettled (history : PairHistory) : List KpiEvent → Prop
  | [] => True
  | event :: rest =>
      Settled config a b event history ∧ AllSettled (call config a b event history) rest

instance AllSettled.decidable : ∀ (history : PairHistory) (events : List KpiEvent),
    Decidable (AllSettled config a b history events)
  | _, [] => .isTrue trivial
  | history, event :: rest =>
      have : Decidable (AllSettled config a b (call config a b event history) rest) :=
        AllSettled.decidable _ rest
      inferInstanceAs (Decidable (Settled config a b event history ∧ _))

end PairHistory

variable {config a b}

/-! ## One call -/

theorem logRx_eq (scene : Scene) (txVehicleId rxVehicleId : VehicleId) (seq : UInt64) (tRx : ℚ)
    (posRx : Position) (logger : KpiLogger) :
    logger.logRx config scene txVehicleId rxVehicleId seq tRx posRx =
      ((rxEventOf config scene txVehicleId rxVehicleId seq tRx posRx logger).map
        fun rx => (logger.appendRx rx).pruneOldEvents config tRx).getD logger := by
  unfold KpiLogger.logRx rxEventOf
  split
  next => rfl
  next =>
    cases KpiLogger.findTxEvent logger.txEvents (txVehicleId, seq) with
    | none => rfl
    | some tx =>
        dsimp only
        split
        next => rfl
        next =>
          split
          next => rfl
          next => rfl

/-- A pushed event names its call, and its triple was not logged. -/
theorem rxEventOf_some {scene : Scene} {txVehicleId rxVehicleId : VehicleId} {seq : UInt64}
    {tRx : ℚ} {posRx : Position} {logger : KpiLogger} {rx : RxEvent}
    (hrx : rxEventOf config scene txVehicleId rxVehicleId seq tRx posRx logger = some rx) :
    rx.timeS = tRx ∧ rx.triple = (txVehicleId, rxVehicleId, seq) ∧
      rx.triple ∉ logger.loggedRxTriples := by
  unfold rxEventOf at hrx
  split at hrx
  next => cases hrx
  next =>
    split at hrx
    next => cases hrx
    next =>
      split at hrx
      next => cases hrx
      next =>
        split at hrx
        next => cases hrx
        next hnew =>
          cases hrx
          exact ⟨rfl, rfl, hnew⟩

theorem txEventOf_some {scene : Scene} {txVehicleId : VehicleId} {txNodeId : NodeId}
    {seq : UInt64} {timeS : ℚ} {posTx : Position} {tx : TxEvent}
    (htx : KpiLogger.txEventOf config scene txVehicleId txNodeId seq timeS posTx = some tx) :
    tx.timeS = timeS ∧ tx.key = (txVehicleId, seq) := by
  unfold KpiLogger.txEventOf at htx
  split at htx
  next => cases htx
  next =>
    rw [← Option.some.inj htx]
    exact ⟨rfl, rfl⟩

/-- A counted reception belongs to a transmission of the pair's history. -/
theorem reception_some {scene : Scene} {seq : UInt64} {tRx : ℚ} {posRx : Position}
    {history : PairHistory} {rx : RxEvent}
    (hrx : PairHistory.reception config a b scene seq tRx posRx history = some rx) :
    ∃ tx, KpiLogger.findTxEvent history.sent rx.txKey = some tx ∧ rx.txVehicleId = a ∧
      rx.rxVehicleId = b := by
  unfold PairHistory.reception at hrx
  split at hrx
  next => cases hrx
  next =>
    split at hrx
    next => cases hrx
    next tx hfind =>
      split at hrx
      next => cases hrx
      next =>
        split at hrx
        next => cases hrx
        next =>
          cases hrx
          exact ⟨tx, hfind, rfl, rfl⟩

theorem reception_pirS {scene : Scene} {seq : UInt64} {tRx : ℚ} {posRx : Position}
    {history : PairHistory} {rx : RxEvent}
    (hrx : PairHistory.reception config a b scene seq tRx posRx history = some rx) :
    rx.pirS = history.counted.getLast?.map (rx.timeS - ·.timeS) := by
  unfold PairHistory.reception at hrx
  split at hrx
  next => cases hrx
  next =>
    split at hrx
    next => cases hrx
    next =>
      split at hrx
      next => cases hrx
      next =>
        split at hrx
        next => cases hrx
        next =>
          cases hrx
          rfl

theorem findTxEvent_append (left right : List TxEvent) (key : TxKey) :
    KpiLogger.findTxEvent (left ++ right) key =
      (KpiLogger.findTxEvent right key).or (KpiLogger.findTxEvent left key) := by
  rw [KpiLogger.findTxEvent, List.reverse_append, List.find?_append]
  rfl

theorem findTxEvent_some {txEvents : List TxEvent} {key : TxKey} {tx : TxEvent}
    (hfind : KpiLogger.findTxEvent txEvents key = some tx) : tx ∈ txEvents ∧ tx.key = key := by
  constructor
  · exact List.mem_reverse.mp (List.mem_of_find?_eq_some hfind)
  · simpa using List.find?_some hfind

theorem findTxEvent_ofVehicle (txEvents : List TxEvent) (vehicleId : VehicleId) (seq : UInt64) :
    KpiLogger.findTxEvent (txEvents.filter fun tx => tx.txVehicleId = vehicleId)
        (vehicleId, seq) =
      KpiLogger.findTxEvent txEvents (vehicleId, seq) := by
  rw [KpiLogger.findTxEvent, ← List.filter_reverse, List.find?_filter]
  refine congrArg (fun test => List.find? test txEvents.reverse) (funext fun tx => ?_)
  by_cases hkey : tx.key = (vehicleId, seq)
  · have hvehicle : tx.txVehicleId = vehicleId := congrArg Prod.fst hkey
    simp [hkey, hvehicle]
  · simp [hkey]

theorem sorted_concat {Item : Type} {time : Item → ℚ} {items : List Item} {last : Item}
    (sorted : items.Pairwise fun left right => time left ≤ time right)
    (hlast : ∀ item ∈ items, time item ≤ time last) :
    (items ++ [last]).Pairwise fun left right => time left ≤ time right := by
  refine List.pairwise_append.mpr ⟨sorted, List.pairwise_singleton _ _, ?_⟩
  intro left hleft right hright
  rw [List.mem_singleton.mp hright]
  exact hlast left hleft

theorem past_concat {Item : Type} {time : Item → ℚ} {items : List Item} {last : Item} {now : ℚ}
    (past : ∀ item ∈ items, time item ≤ now) (hlast : time last = now) :
    ∀ item ∈ items ++ [last], time item ≤ now := by
  intro item hmem
  rcases List.mem_append.mp hmem with hold | hnew
  · exact past item hold
  · rw [List.mem_singleton.mp hnew, hlast]

theorem appendRx_last (rx : RxEvent) (logger : KpiLogger) :
    (logger.appendRx rx).lastRxTimePerPair = Function.update logger.lastRxTimePerPair
      (rx.txVehicleId, rx.rxVehicleId) (some rx.timeS) := rfl

theorem mem_dropWhile_of_le {rxEvents : List RxEvent} {rx : RxEvent} {cutoff : ℚ}
    (hmem : rx ∈ rxEvents) (hle : cutoff ≤ rx.timeS) :
    rx ∈ rxEvents.dropWhile fun rx => decide (rx.timeS < cutoff) := by
  rw [← @List.takeWhile_append_dropWhile _ (fun rx : RxEvent => decide (rx.timeS < cutoff))
    rxEvents] at hmem
  rcases List.mem_append.mp hmem with hexpired | hkept
  · have hpopped := List.mem_takeWhile_imp hexpired
    rw [decide_eq_true_eq] at hpopped
    exact absurd hle (not_le.mpr hpopped)
  · exact hkept

/-- Popping the front of a list sorted by time leaves nothing that has expired. -/
theorem le_of_mem_dropWhile {rxEvents : List RxEvent} {rx : RxEvent} {cutoff : ℚ}
    (sorted : rxEvents.Pairwise fun left right => left.timeS ≤ right.timeS)
    (hmem : rx ∈ rxEvents.dropWhile fun rx => decide (rx.timeS < cutoff)) :
    cutoff ≤ rx.timeS := by
  induction rxEvents with
  | nil => cases hmem
  | cons first rest ih =>
      obtain ⟨hfirst, hrest⟩ := List.pairwise_cons.mp sorted
      by_cases hexpired : first.timeS < cutoff
      · rw [List.dropWhile_cons_of_pos (by simpa using hexpired)] at hmem
        exact ih hrest hmem
      · rw [List.dropWhile_cons_of_neg (by simpa using hexpired)] at hmem
        rcases List.mem_cons.mp hmem with rfl | hin
        · exact not_lt.mp hexpired
        · exact (not_lt.mp hexpired).trans (hfirst rx hin)

/-! ## The two views of the pair -/

/-- What the logger knows of the pair at time `now`, against the pair's own history. -/
structure PairWindow (config : KpiConfig) (a b : VehicleId) (history : PairHistory) (now : ℚ)
    (logger : KpiLogger) : Prop where
  sent : ∃ dropped, history.sent =
      dropped ++ logger.txEvents.filter (fun tx => tx.txVehicleId = a) ∧
    ∀ tx ∈ dropped, tx.timeS < now - config.kpiWindowS
  prunedAt : ∀ pruned ∈ history.prunedAt, pruned ≤ now ∧
    ∀ tx ∈ logger.txEvents, tx.txVehicleId = a → pruned - config.kpiWindowS ≤ tx.timeS
  last : logger.lastRxTimePerPair (a, b) = history.counted.getLast?.map RxEvent.timeS
  pair : ∀ rx ∈ history.counted, rx.txVehicleId = a ∧ rx.rxVehicleId = b
  complete : ∀ rx ∈ history.counted, ∀ tx,
    KpiLogger.findTxEvent history.sent rx.txKey = some tx → tx.timeS ≤ rx.timeS →
      now - config.kpiWindowS ≤ tx.timeS → rx ∈ logger.rxEvents
  agrees : TriplesAgree logger.rxEvents logger.loggedRxTriples
  txSorted : logger.txEvents.Pairwise fun left right => left.timeS ≤ right.timeS
  rxSorted : logger.rxEvents.Pairwise fun left right => left.timeS ≤ right.timeS
  txPast : ∀ tx ∈ logger.txEvents, tx.timeS ≤ now
  sentPast : ∀ tx ∈ history.sent, tx.timeS ≤ now
  rxPast : ∀ rx ∈ logger.rxEvents, rx.timeS ≤ now

/-- Every stored reception of the pair was counted for the latest transmission with its key. -/
def StoredCounted (a b : VehicleId) (history : PairHistory) (logger : KpiLogger) : Prop :=
  ∀ rx ∈ logger.rxEvents, rx.txVehicleId = a → rx.rxVehicleId = b →
    rx ∈ history.counted ∧ ∃ tx, KpiLogger.findTxEvent history.sent rx.txKey = some tx ∧
      tx.timeS ≤ rx.timeS

theorem pairWindow_initial (config : KpiConfig) (a b : VehicleId) (now : ℚ) :
    PairWindow config a b PairHistory.initial now KpiLogger.initial where
  sent := ⟨[], rfl, by simp⟩
  prunedAt pruned hmem := by cases hmem
  last := rfl
  pair rx hmem := by cases hmem
  complete rx hmem := by cases hmem
  agrees := ⟨rfl, List.nodup_nil⟩
  txSorted := List.Pairwise.nil
  rxSorted := List.Pairwise.nil
  txPast tx hmem := by cases hmem
  sentPast tx hmem := by cases hmem
  rxPast rx hmem := by cases hmem

namespace PairWindow

variable {history : PairHistory} {now : ℚ} {logger : KpiLogger}

/-- Time may pass between two calls. -/
theorem wait (inv : PairWindow config a b history now logger) {later : ℚ} (hle : now ≤ later) :
    PairWindow config a b history later logger where
  sent := by
    obtain ⟨dropped, hsplit, hold⟩ := inv.sent
    exact ⟨dropped, hsplit, fun tx hmem => by linarith [hold tx hmem]⟩
  prunedAt pruned hmem := ⟨(inv.prunedAt pruned hmem).1.trans hle, (inv.prunedAt pruned hmem).2⟩
  last := inv.last
  pair := inv.pair
  complete rx hmem tx hfind hafter hlive :=
    inv.complete rx hmem tx hfind hafter (by linarith)
  agrees := inv.agrees
  txSorted := inv.txSorted
  rxSorted := inv.rxSorted
  txPast tx hmem := (inv.txPast tx hmem).trans hle
  sentPast tx hmem := (inv.sentPast tx hmem).trans hle
  rxPast rx hmem := (inv.rxPast rx hmem).trans hle

/-- A transmission of the window is still in the deque. -/
theorem mem_txEvents (inv : PairWindow config a b history now logger) {tx : TxEvent}
    (hmem : tx ∈ history.sent) (hlive : now - config.kpiWindowS ≤ tx.timeS) :
    tx ∈ logger.txEvents := by
  obtain ⟨dropped, hsplit, hold⟩ := inv.sent
  rw [hsplit] at hmem
  rcases List.mem_append.mp hmem with hin | hin
  · linarith [hold tx hin]
  · exact (List.mem_filter.mp hin).1

/-- What the deque finds is the latest transmission ever made with the key. -/
theorem findTxEvent_sent (inv : PairWindow config a b history now logger) {seq : UInt64}
    {tx : TxEvent} (hfind : KpiLogger.findTxEvent logger.txEvents (a, seq) = some tx) :
    KpiLogger.findTxEvent history.sent (a, seq) = some tx := by
  obtain ⟨dropped, hsplit, -⟩ := inv.sent
  rw [hsplit, findTxEvent_append, findTxEvent_ofVehicle, hfind, Option.some_or]

/-- The latest transmission with a key is found while it is in the window. -/
theorem findTxEvent_live (inv : PairWindow config a b history now logger) {seq : UInt64}
    {tx : TxEvent} (hfind : KpiLogger.findTxEvent history.sent (a, seq) = some tx)
    (hlive : now - config.kpiWindowS ≤ tx.timeS) :
    KpiLogger.findTxEvent logger.txEvents (a, seq) = some tx := by
  obtain ⟨dropped, hsplit, hold⟩ := inv.sent
  rw [hsplit, findTxEvent_append, findTxEvent_ofVehicle] at hfind
  cases hkept : KpiLogger.findTxEvent logger.txEvents (a, seq) with
  | some found => rwa [hkept, Option.some_or] at hfind
  | none =>
      rw [hkept, Option.none_or] at hfind
      linarith [hold tx (findTxEvent_some hfind).1]

/-- The pruned receptions are some of the stored ones. -/
theorem mem_rxEvents_of_prune {rx : RxEvent}
    (hmem : rx ∈ (logger.pruneOldEvents config now).rxEvents) :
    rx ∈ logger.rxEvents.dropWhile fun rx => decide (rx.timeS < now - config.kpiWindowS) := by
  rw [KpiLogger.pruneOldEvents, removeStaleRx_fst, popExpiredRx_fst] at hmem
  exact (List.mem_filter.mp hmem).1

theorem rxEvents_prune_sublist (config : KpiConfig) (now : ℚ) (logger : KpiLogger) :
    (logger.pruneOldEvents config now).rxEvents.Sublist logger.rxEvents := by
  rw [KpiLogger.pruneOldEvents, removeStaleRx_fst, popExpiredRx_fst]
  exact List.filter_sublist.trans (List.dropWhile_sublist _)

theorem txEvents_prune_sublist (config : KpiConfig) (now : ℚ) (logger : KpiLogger) :
    (logger.pruneOldEvents config now).txEvents.Sublist logger.txEvents :=
  List.dropWhile_sublist _

/-- Pruning at any time keeps what the pair's history needs. -/
theorem prune (inv : PairWindow config a b history now logger) {pruned : Option ℚ}
    (hpruned : pruned = some now ∨ pruned = history.prunedAt) :
    PairWindow config a b { history with prunedAt := pruned } now
      (logger.pruneOldEvents config now) where
  sent := by
    obtain ⟨dropped, hsplit, hold⟩ := inv.sent
    refine ⟨dropped ++ (logger.txEvents.takeWhile
      fun tx => decide (tx.timeS < now - config.kpiWindowS)).filter
        (fun tx => tx.txVehicleId = a), ?_, ?_⟩
    · rw [List.append_assoc, KpiLogger.pruneOldEvents, ← List.filter_append,
        List.takeWhile_append_dropWhile]
      exact hsplit
    · intro tx hmem
      rcases List.mem_append.mp hmem with hin | hin
      · exact hold tx hin
      · have hpopped := List.mem_takeWhile_imp (List.mem_filter.mp hin).1
        rwa [decide_eq_true_eq] at hpopped
  prunedAt time hmem := by
    rcases hpruned with rfl | rfl
    · obtain rfl := Option.some.inj hmem
      refine ⟨le_rfl, fun tx hin _ => ?_⟩
      rw [KpiLogger.pruneOldEvents, dropWhile_eq_filter inv.txSorted] at hin
      exact of_decide_eq_true (List.mem_filter.mp hin).2
    · obtain ⟨hle, hkept⟩ := inv.prunedAt time hmem
      exact ⟨hle, fun tx hin => hkept tx ((txEvents_prune_sublist config now logger).mem hin)⟩
  last := inv.last
  pair := inv.pair
  complete rx hmem tx hfind hafter hlive := by
    have hin := inv.complete rx hmem tx hfind hafter hlive
    obtain ⟨htx, hkey⟩ := findTxEvent_some hfind
    have hkept : tx ∈ (logger.pruneOldEvents config now).txEvents := by
      rw [KpiLogger.pruneOldEvents, dropWhile_eq_filter inv.txSorted]
      exact List.mem_filter.mpr ⟨inv.mem_txEvents htx hlive, decide_eq_true hlive⟩
    have hactive : rx.txKey ∈
        KpiLogger.activeTxKeys (logger.pruneOldEvents config now).txEvents := by
      rw [KpiLogger.activeTxKeys, List.mem_toFinset, ← hkey]
      exact List.mem_map_of_mem hkept
    rw [KpiLogger.pruneOldEvents, removeStaleRx_fst, popExpiredRx_fst]
    exact List.mem_filter.mpr
      ⟨mem_dropWhile_of_le hin (hlive.trans hafter), decide_eq_true hactive⟩
  agrees := removeStaleRx_agrees _ (popExpiredRx_agrees _ inv.agrees)
  txSorted := inv.txSorted.sublist (txEvents_prune_sublist config now logger)
  rxSorted := inv.rxSorted.sublist (rxEvents_prune_sublist config now logger)
  txPast tx hmem := inv.txPast tx ((txEvents_prune_sublist config now logger).mem hmem)
  sentPast := inv.sentPast
  rxPast rx hmem := inv.rxPast rx ((rxEvents_prune_sublist config now logger).mem hmem)

theorem prune_other (inv : PairWindow config a b history now logger) :
    PairWindow config a b history now (logger.pruneOldEvents config now) :=
  inv.prune (Or.inr rfl)

/-- A transmission of another vehicle is appended. -/
theorem appendTx_other (inv : PairWindow config a b history now logger) {tx : TxEvent}
    (htime : tx.timeS = now) (hother : tx.txVehicleId ≠ a) :
    PairWindow config a b history now { logger with txEvents := logger.txEvents ++ [tx] } where
  sent := by
    obtain ⟨dropped, hsplit, hold⟩ := inv.sent
    refine ⟨dropped, ?_, hold⟩
    rw [List.filter_append, List.filter_cons_of_neg (by simpa using hother), List.filter_nil,
      List.append_nil]
    exact hsplit
  prunedAt pruned hmem := by
    obtain ⟨hle, hkept⟩ := inv.prunedAt pruned hmem
    refine ⟨hle, fun other hin hvehicle => ?_⟩
    rcases List.mem_append.mp hin with hold | hnew
    · exact hkept other hold hvehicle
    · exact absurd (List.mem_singleton.mp hnew ▸ hvehicle) hother
  last := inv.last
  pair := inv.pair
  complete := inv.complete
  agrees := inv.agrees
  txSorted := sorted_concat inv.txSorted fun other hin => htime ▸ inv.txPast other hin
  rxSorted := inv.rxSorted
  txPast := past_concat inv.txPast htime
  sentPast := inv.sentPast
  rxPast := inv.rxPast

/-- A transmission of `a` is appended; receptions counted before it are not of it. -/
theorem appendTx_own (inv : PairWindow config a b history now logger) {tx : TxEvent}
    (htime : tx.timeS = now) (hown : tx.txVehicleId = a)
    (hsettled : ∀ rx ∈ history.counted, rx.seq = tx.seq → rx.timeS < now - config.kpiWindowS) :
    PairWindow config a b { history with sent := history.sent ++ [tx], prunedAt := none } now
      { logger with txEvents := logger.txEvents ++ [tx] } where
  sent := by
    obtain ⟨dropped, hsplit, hold⟩ := inv.sent
    refine ⟨dropped, ?_, hold⟩
    rw [List.filter_append, List.filter_cons_of_pos (by simpa using hown), List.filter_nil,
      ← List.append_assoc]
    exact congrArg (· ++ [tx]) hsplit
  prunedAt pruned hmem := by cases hmem
  last := inv.last
  pair := inv.pair
  complete rx hmem latest hfind hafter hlive := by
    rw [findTxEvent_append] at hfind
    by_cases hkey : tx.key = rx.txKey
    · have hseq : rx.seq = tx.seq := (congrArg Prod.snd hkey).symm
      have hlatest : latest = tx := by
        rw [KpiLogger.findTxEvent, List.reverse_singleton,
          List.find?_cons_of_pos (by simpa using hkey), Option.some_or] at hfind
        exact (Option.some.inj hfind).symm
      rw [hlatest] at hafter hlive
      linarith [hsettled rx hmem hseq]
    · rw [KpiLogger.findTxEvent, List.reverse_singleton,
        List.find?_cons_of_neg (by simpa using hkey), List.find?_nil, Option.none_or] at hfind
      exact inv.complete rx hmem latest hfind hafter hlive
  agrees := inv.agrees
  txSorted := sorted_concat inv.txSorted fun other hin => htime ▸ inv.txPast other hin
  rxSorted := inv.rxSorted
  txPast := past_concat inv.txPast htime
  sentPast := past_concat inv.sentPast htime
  rxPast := inv.rxPast

theorem agrees_append {rxEvents : List RxEvent} {logged : Finset RxTriple} {rx : RxEvent}
    (agrees : TriplesAgree rxEvents logged) (hnew : rx.triple ∉ logged) :
    TriplesAgree (rxEvents ++ [rx]) (insert rx.triple logged) := by
  obtain ⟨rfl, hnodup⟩ := agrees
  rw [List.mem_toFinset] at hnew
  constructor
  · rw [List.map_append, List.map_singleton, List.toFinset_append, Finset.union_comm]
    simp
  · rw [List.map_append, List.map_singleton]
    exact List.nodup_append.mpr ⟨hnodup, List.nodup_singleton _, fun left hleft right hright =>
      fun same => hnew (List.mem_singleton.mp hright ▸ same ▸ hleft)⟩

/-- A reception of another pair is remembered. -/
theorem appendRx_other (inv : PairWindow config a b history now logger) {rx : RxEvent}
    (htime : rx.timeS = now) (hnew : rx.triple ∉ logger.loggedRxTriples)
    (hother : ¬ (rx.txVehicleId = a ∧ rx.rxVehicleId = b)) :
    PairWindow config a b history now (logger.appendRx rx) where
  sent := inv.sent
  prunedAt := inv.prunedAt
  last := by
    rw [appendRx_last, Function.update_of_ne, inv.last]
    exact fun same => hother ⟨(congrArg Prod.fst same).symm, (congrArg Prod.snd same).symm⟩
  pair := inv.pair
  complete other hmem tx hfind hafter hlive :=
    List.mem_append_left _ (inv.complete other hmem tx hfind hafter hlive)
  agrees := agrees_append inv.agrees hnew
  txSorted := inv.txSorted
  rxSorted := sorted_concat inv.rxSorted fun other hin => htime ▸ inv.rxPast other hin
  txPast := inv.txPast
  sentPast := inv.sentPast
  rxPast := past_concat inv.rxPast htime

/-- A reception of the pair is remembered. -/
theorem appendRx_own (inv : PairWindow config a b history now logger) {rx : RxEvent}
    (htime : rx.timeS = now) (hnew : rx.triple ∉ logger.loggedRxTriples)
    (hown : rx.txVehicleId = a ∧ rx.rxVehicleId = b) :
    PairWindow config a b { history with counted := history.counted ++ [rx] } now
      (logger.appendRx rx) where
  sent := inv.sent
  prunedAt := inv.prunedAt
  last := by
    rw [appendRx_last, hown.1, hown.2, Function.update_self, List.getLast?_concat]
    rfl
  pair other hin := by
    rcases List.mem_append.mp hin with hold | hadded
    · exact inv.pair other hold
    · rw [List.mem_singleton.mp hadded]
      exact hown
  complete other hin tx hfind hafter hlive := by
    rcases List.mem_append.mp hin with hold | hadded
    · exact List.mem_append_left _ (inv.complete other hold tx hfind hafter hlive)
    · exact List.mem_append_right _ hadded
  agrees := agrees_append inv.agrees hnew
  txSorted := inv.txSorted
  rxSorted := sorted_concat inv.rxSorted fun other hin => htime ▸ inv.rxPast other hin
  txPast := inv.txPast
  sentPast := inv.sentPast
  rxPast := past_concat inv.rxPast htime

end PairWindow

/-- The pair's window with every stored reception accounted for. -/
structure PairAgrees (config : KpiConfig) (a b : VehicleId) (history : PairHistory) (now : ℚ)
    (logger : KpiLogger) : Prop where
  window : PairWindow config a b history now logger
  stored : StoredCounted a b history logger

namespace PairAgrees

variable {history : PairHistory} {now : ℚ} {logger : KpiLogger}

/-- The transmission has been received exactly when its triple is still logged. -/
theorem received_iff (inv : PairAgrees config a b history now logger) {seq : UInt64}
    {tx : TxEvent} (hfind : KpiLogger.findTxEvent history.sent (a, seq) = some tx)
    (hlive : now - config.kpiWindowS ≤ tx.timeS) :
    history.received tx = true ↔ (a, b, seq) ∈ logger.loggedRxTriples := by
  have hseq : tx.seq = seq := congrArg Prod.snd (findTxEvent_some hfind).2
  rw [inv.window.agrees.1, List.mem_toFinset, List.mem_map, PairHistory.received, List.any_eq_true]
  constructor
  · rintro ⟨rx, hmem, hreceived⟩
    obtain ⟨hsame, hafter⟩ := of_decide_eq_true hreceived
    obtain ⟨htx, hrx⟩ := inv.window.pair rx hmem
    have hkey : rx.txKey = (a, seq) := by rw [RxEvent.txKey, htx, hsame, hseq]
    refine ⟨rx, inv.window.complete rx hmem tx (hkey ▸ hfind) hafter hlive, ?_⟩
    rw [RxEvent.triple, htx, hrx, hsame, hseq]
  · rintro ⟨rx, hmem, htriple⟩
    obtain ⟨htx, hrest⟩ := Prod.mk.inj htriple
    obtain ⟨hrx, hsame⟩ := Prod.mk.inj hrest
    obtain ⟨hcounted, latest, hlatest, hafter⟩ := inv.stored rx hmem htx hrx
    have hkey : rx.txKey = (a, seq) := by rw [RxEvent.txKey, htx, hsame]
    rw [hkey, hfind] at hlatest
    obtain rfl := Option.some.inj hlatest
    exact ⟨rx, hcounted, decide_eq_true ⟨hsame.trans hseq.symm, hafter⟩⟩

/-- A settled reception has the same outcome in the logger and in the pair's history. -/
theorem rxEventOf_eq_reception (inv : PairAgrees config a b history now logger) {scene : Scene}
    {seq : UInt64} {posRx : Position}
    (settled : KpiLogger.rxNodesAccepted config scene a b now = true →
      config.isInsideCore posRx = true →
        ∀ tx ∈ KpiLogger.findTxEvent history.sent (a, seq), b ∈ tx.rxAtTx →
          now - config.kpiWindowS ≤ tx.timeS ∨
            ∃ pruned ∈ history.prunedAt, tx.timeS < pruned - config.kpiWindowS) :
    rxEventOf config scene a b seq now posRx logger =
      PairHistory.reception config a b scene seq now posRx history := by
  unfold rxEventOf PairHistory.reception
  split
  next => rfl
  next haccepted =>
    have hnodes : KpiLogger.rxNodesAccepted config scene a b now = true := by simpa using haccepted
    cases hsent : KpiLogger.findTxEvent history.sent (a, seq) with
    | none =>
        cases hfind : KpiLogger.findTxEvent logger.txEvents (a, seq) with
        | none => rfl
        | some tx => rw [inv.window.findTxEvent_sent hfind] at hsent; cases hsent
    | some tx =>
        cases hfind : KpiLogger.findTxEvent logger.txEvents (a, seq) with
        | none =>
            have hgone : tx.timeS < now - config.kpiWindowS := by
              by_contra hlive
              rw [inv.window.findTxEvent_live hsent (not_lt.mp hlive)] at hfind
              cases hfind
            simp [hgone]
        | some found =>
            have hsame := inv.window.findTxEvent_sent hfind
            rw [hsent] at hsame
            obtain rfl := Option.some.inj hsame
            by_cases hfilter : config.isInsideCore posRx = true ∧ b ∈ tx.rxAtTx
            · have hlive : now - config.kpiWindowS ≤ tx.timeS := by
                rcases settled hnodes hfilter.1 tx hsent hfilter.2 with hlive | ⟨pruned, hat, hlt⟩
                · exact hlive
                · obtain ⟨hmem, hkey⟩ := findTxEvent_some hfind
                  have hkept := (inv.window.prunedAt pruned hat).2 tx hmem (congrArg Prod.fst hkey)
                  linarith
              have hreceived := inv.received_iff hsent hlive
              have hlast : (logger.lastRxTimePerPair (a, b)).map (now - ·) =
                  history.counted.getLast?.map (now - ·.timeS) := by
                rw [inv.window.last, Option.map_map]
                rfl
              by_cases hlogged : (a, b, seq) ∈ logger.loggedRxTriples
              · simp [hfilter, hlogged, hreceived.mpr hlogged]
              · have hnot : history.received tx = false := by
                  simpa using mt hreceived.mp hlogged
                simp [hfilter, hlogged, hnot, not_lt.mpr hlive, hlast]
            · have hfiltered : (!config.isInsideCore posRx || decide (b ∉ tx.rxAtTx)) = true := by
                by_contra hpassed
                exact hfilter (by simpa using hpassed)
              simp only [hfiltered, Bool.true_or, if_true]

theorem wait (inv : PairAgrees config a b history now logger) {later : ℚ} (hle : now ≤ later) :
    PairAgrees config a b history later logger := ⟨inv.window.wait hle, inv.stored⟩

theorem prune_other (inv : PairAgrees config a b history now logger) :
    PairAgrees config a b history now (logger.pruneOldEvents config now) where
  window := inv.window.prune_other
  stored rx hmem := inv.stored rx ((PairWindow.rxEvents_prune_sublist config now logger).mem hmem)

/-- The members the pair depends on determine the invariant. -/
theorem of_members (inv : PairAgrees config a b history now logger) {other : KpiLogger}
    (htx : other.txEvents = logger.txEvents) (hrx : other.rxEvents = logger.rxEvents)
    (hlogged : other.loggedRxTriples = logger.loggedRxTriples)
    (hlast : other.lastRxTimePerPair = logger.lastRxTimePerPair) :
    PairAgrees config a b history now other := by
  obtain ⟨power, interval, sample, txEvents, rxEvents, triples, lastRx, rows⟩ := other
  obtain rfl := htx
  obtain rfl := hrx
  obtain rfl := hlogged
  obtain rfl := hlast
  obtain ⟨window, stored⟩ := inv
  exact ⟨⟨window.sent, window.prunedAt, window.last, window.pair, window.complete, window.agrees,
    window.txSorted, window.rxSorted, window.txPast, window.sentPast, window.rxPast⟩, stored⟩

theorem logTx_other (inv : PairAgrees config a b history now logger) {scene : Scene}
    {txVehicleId : VehicleId} (hother : txVehicleId ≠ a) (txNodeId : NodeId) (seq : UInt64)
    (posTx : Position) :
    PairAgrees config a b history now
      (logger.logTx config scene txVehicleId txNodeId seq now posTx) := by
  unfold KpiLogger.logTx
  cases htx : KpiLogger.txEventOf config scene txVehicleId txNodeId seq now posTx with
  | none => exact inv
  | some tx =>
      obtain ⟨htime, hkey⟩ := txEventOf_some htx
      have window := inv.window.appendTx_other htime
        fun same => hother ((congrArg Prod.fst hkey).symm.trans same)
      exact prune_other ⟨window, inv.stored⟩

theorem logRx_other (inv : PairAgrees config a b history now logger) {scene : Scene}
    {txVehicleId rxVehicleId : VehicleId} (hother : ¬ (txVehicleId = a ∧ rxVehicleId = b))
    (seq : UInt64) (posRx : Position) :
    PairAgrees config a b history now
      (logger.logRx config scene txVehicleId rxVehicleId seq now posRx) := by
  rw [logRx_eq]
  cases hrx : rxEventOf config scene txVehicleId rxVehicleId seq now posRx logger with
  | none => exact inv
  | some rx =>
      obtain ⟨htime, htriple, hnew⟩ := rxEventOf_some hrx
      obtain ⟨htx, hrest⟩ := Prod.mk.inj htriple
      have hpair : ¬ (rx.txVehicleId = a ∧ rx.rxVehicleId = b) := by
        rwa [htx, (Prod.mk.inj hrest).1]
      refine prune_other ⟨inv.window.appendRx_other htime hnew hpair, ?_⟩
      intro other hmem hfirst hsecond
      rcases List.mem_append.mp hmem with hold | hadded
      · exact inv.stored other hold hfirst hsecond
      · rw [List.mem_singleton.mp hadded] at hfirst hsecond
        exact absurd ⟨hfirst, hsecond⟩ hpair

/-- A call that does not concern the pair changes neither history nor agreement. -/
theorem other {event : KpiEvent} (inv : PairAgrees config a b history event.now logger)
    (hother : concernsPair a b event = false) :
    receptionAt config a b event logger = [] ∧
      PairAgrees config a b history event.now (callLogger config event logger) := by
  cases hcall : event.call with
  | setCurrentInputs pDbm tbS =>
      simp only [receptionAt, callLogger, hcall, true_and]
      exact inv.of_members rfl rfl rfl rfl
  | logTx txVehicleId txNodeId seq posTx =>
      simp only [concernsPair, hcall, decide_eq_false_iff_not] at hother
      simp only [receptionAt, callLogger, hcall, true_and]
      exact inv.logTx_other hother txNodeId seq posTx
  | logRx txVehicleId rxVehicleId seq posRx =>
      simp only [concernsPair, hcall, decide_eq_false_iff_not] at hother
      simp only [receptionAt, callLogger, hcall, if_neg hother, true_and]
      exact inv.logRx_other hother seq posRx
  | sampleAndWrite cbr =>
      simp only [receptionAt, callLogger, hcall, true_and]
      exact inv.prune_other.of_members rfl rfl rfl rfl

/-- A settled transmission of `a` leaves no reception of its number in the deque. -/
theorem appendTx_own (inv : PairAgrees config a b history now logger) {tx : TxEvent}
    (htime : tx.timeS = now) (hown : tx.txVehicleId = a)
    (hsettled : ∀ rx ∈ history.counted, rx.seq = tx.seq → rx.timeS < now - config.kpiWindowS) :
    PairAgrees config a b
      { history with sent := history.sent ++ [tx], prunedAt := some now } now
      ({ logger with txEvents := logger.txEvents ++ [tx] }.pruneOldEvents config now) where
  window := (inv.window.appendTx_own htime hown hsettled).prune (Or.inl rfl)
  stored rx hmem hfirst hsecond := by
    have hkept := PairWindow.mem_rxEvents_of_prune hmem
    have hfresh := le_of_mem_dropWhile inv.window.rxSorted hkept
    have hin := (PairWindow.rxEvents_prune_sublist config now _).mem hmem
    obtain ⟨hcounted, latest, hfind, hafter⟩ := inv.stored rx hin hfirst hsecond
    refine ⟨hcounted, latest, ?_, hafter⟩
    have hkey : tx.key ≠ rx.txKey := by
      intro same
      have hold := hsettled rx hcounted (congrArg Prod.snd same).symm
      linarith
    rw [findTxEvent_append, KpiLogger.findTxEvent, List.reverse_singleton,
      List.find?_cons_of_neg (by simpa using hkey), List.find?_nil, Option.none_or]
    exact hfind

theorem appendRx_own (inv : PairAgrees config a b history now logger) {rx : RxEvent}
    (htime : rx.timeS = now) (hnew : rx.triple ∉ logger.loggedRxTriples)
    (hown : rx.txVehicleId = a ∧ rx.rxVehicleId = b) {tx : TxEvent}
    (hfind : KpiLogger.findTxEvent history.sent rx.txKey = some tx) :
    PairAgrees config a b
      { history with counted := history.counted ++ [rx], prunedAt := some now } now
      ((logger.appendRx rx).pruneOldEvents config now) where
  window := (inv.window.appendRx_own htime hnew hown).prune (Or.inl rfl)
  stored other hmem hfirst hsecond := by
    have hin := (PairWindow.rxEvents_prune_sublist config now _).mem hmem
    rcases List.mem_append.mp hin with hold | hadded
    · obtain ⟨hcounted, hlatest⟩ := inv.stored other hold hfirst hsecond
      exact ⟨List.mem_append_left _ hcounted, hlatest⟩
    · obtain rfl := List.mem_singleton.mp hadded
      refine ⟨List.mem_append_right _ hadded, tx, hfind, ?_⟩
      rw [htime]
      exact inv.window.sentPast tx (findTxEvent_some hfind).1

/-- A settled call of the pair has the same outcome for both and keeps the agreement. -/
theorem own {event : KpiEvent} (inv : PairAgrees config a b history event.now logger)
    (hown : concernsPair a b event = true)
    (settled : PairHistory.Settled config a b event history) :
    receptionAt config a b event logger = PairHistory.outcome config a b event history ∧
      PairAgrees config a b (PairHistory.call config a b event history) event.now
        (callLogger config event logger) := by
  cases hcall : event.call with
  | setCurrentInputs pDbm tbS => simp [concernsPair, hcall] at hown
  | sampleAndWrite cbr => simp [concernsPair, hcall] at hown
  | logTx txVehicleId txNodeId seq posTx =>
      simp only [concernsPair, hcall, decide_eq_true_eq] at hown
      simp only [PairHistory.Settled, hcall, txOf] at settled
      simp only [receptionAt, PairHistory.outcome, PairHistory.call, callLogger, hcall, txOf,
        KpiLogger.logTx, true_and]
      cases htx : KpiLogger.txEventOf config event.scene txVehicleId txNodeId seq event.now
        posTx with
      | none => exact inv
      | some tx =>
          obtain ⟨htime, hkey⟩ := txEventOf_some htx
          have hvehicle : tx.txVehicleId = a := (congrArg Prod.fst hkey).trans hown
          exact inv.appendTx_own htime hvehicle (settled tx htx)
  | logRx txVehicleId rxVehicleId seq posRx =>
      simp only [concernsPair, hcall, decide_eq_true_eq] at hown
      obtain ⟨rfl, rfl⟩ := hown
      simp only [PairHistory.Settled, hcall] at settled
      have houtcome := inv.rxEventOf_eq_reception settled
      simp only [receptionAt, PairHistory.outcome, PairHistory.call, callLogger, hcall, logRx_eq,
        and_self, if_true, houtcome, true_and]
      cases hrx : PairHistory.reception config txVehicleId rxVehicleId event.scene seq event.now
        posRx history with
      | none => exact inv
      | some rx =>
          obtain ⟨htime, htriple, hnew⟩ := rxEventOf_some (houtcome.trans hrx)
          obtain ⟨tx, hfind, hrxTx, hrxRx⟩ := reception_some hrx
          exact inv.appendRx_own htime hnew ⟨hrxTx, hrxRx⟩ hfind

/-- Along a run the pair's receptions are those of its own calls. -/
theorem receptions_eq {state last : KpiState} {events : List KpiEvent}
    (inv : PairAgrees config a b history state.now state.logger)
    (hrun : Runs.runFrom (kpiStep config) state events = some last)
    (settled : history.AllSettled config a b (events.filter (concernsPair a b))) :
    receptions config a b state.logger events =
      history.outcomes config a b (events.filter (concernsPair a b)) := by
  induction events generalizing state history with
  | nil => rfl
  | cons event rest ih =>
      obtain ⟨next, hstep, hrest⟩ := Runs.runFrom_cons_inv _ hrun
      obtain ⟨hle, rfl⟩ := kpiStep_some hstep
      have waited := inv.wait hle
      cases hconcerns : concernsPair a b event with
      | false =>
          rw [List.filter_cons_of_neg (by simp [hconcerns])] at settled
          rw [List.filter_cons_of_neg (by simp [hconcerns])]
          obtain ⟨hnone, agrees⟩ := waited.other hconcerns
          rw [receptions, hnone, List.nil_append]
          exact ih agrees hrest settled
      | true =>
          rw [List.filter_cons_of_pos hconcerns] at settled
          rw [List.filter_cons_of_pos hconcerns]
          obtain ⟨hsame, agrees⟩ := waited.own hconcerns settled.1
          rw [receptions, PairHistory.outcomes, hsame]
          exact congrArg (_ ++ ·) (ih agrees hrest settled.2)

end PairAgrees

/-! ## Two runs -/

/-- A counted reception records the time since the last one counted before it. -/
theorem outcomes_pirS {history : PairHistory} {events : List KpiEvent}
    {earlier later : List (Option RxEvent)} {rx : RxEvent}
    (hsplit : history.outcomes config a b events = earlier ++ some rx :: later) :
    rx.pirS = (history.counted ++ earlier.reduceOption).getLast?.map (rx.timeS - ·.timeS) := by
  induction events generalizing history earlier with
  | nil => simp [PairHistory.outcomes] at hsplit
  | cons event rest ih =>
      rw [PairHistory.outcomes] at hsplit
      cases hcall : event.call with
      | logRx txVehicleId rxVehicleId seq posRx =>
          simp only [PairHistory.outcome, PairHistory.call, hcall, List.singleton_append] at hsplit
          cases earlier with
          | nil =>
              obtain ⟨hrx, -⟩ := List.cons.inj hsplit
              rw [List.reduceOption_nil, List.append_nil]
              exact reception_pirS hrx
          | cons first earlier =>
              obtain ⟨hfirst, hrest⟩ := List.cons.inj hsplit
              cases first with
              | none =>
                  simp only [hfirst] at hrest
                  rw [List.reduceOption_cons_of_none]
                  exact ih hrest
              | some counted =>
                  simp only [hfirst] at hrest
                  have hpir := ih hrest
                  rwa [List.reduceOption_cons_of_some, List.append_cons]
      | setCurrentInputs pDbm tbS =>
          simp only [PairHistory.outcome, PairHistory.call, hcall, List.nil_append] at hsplit
          exact ih hsplit
      | sampleAndWrite cbr =>
          simp only [PairHistory.outcome, PairHistory.call, hcall, List.nil_append] at hsplit
          exact ih hsplit
      | logTx txVehicleId txNodeId seq posTx =>
          simp only [PairHistory.outcome, PairHistory.call, hcall, List.nil_append] at hsplit
          cases htx : txOf config event with
          | none =>
              simp only [htx] at hsplit
              exact ih hsplit
          | some tx =>
              simp only [htx] at hsplit
              have hpir := ih hsplit
              exact hpir

/--
Two runs with the same calls of the pair, all of them settled: the pair's receptions
are the same in both, they are those counted inside the window of their transmission,
and each records the time since the one counted before it.
-/
theorem pairReceptions_independent (config : KpiConfig) (a b : VehicleId)
    (left right : List KpiEvent) (leftEnd rightEnd : KpiState)
    (hleft : Runs.runFrom (kpiStep config) KpiState.initial left = some leftEnd)
    (hright : Runs.runFrom (kpiStep config) KpiState.initial right = some rightEnd)
    (same : left.filter (concernsPair a b) = right.filter (concernsPair a b))
    (settled : PairHistory.initial.AllSettled config a b (left.filter (concernsPair a b))) :
    receptions config a b KpiLogger.initial left = receptions config a b KpiLogger.initial right ∧
      receptions config a b KpiLogger.initial left =
        PairHistory.initial.outcomes config a b (left.filter (concernsPair a b)) ∧
      ∀ earlier rx later,
        receptions config a b KpiLogger.initial left = earlier ++ some rx :: later →
          rx.pirS = earlier.reduceOption.getLast?.map (rx.timeS - ·.timeS) := by
  have hfirst : PairAgrees config a b PairHistory.initial KpiState.initial.now
      KpiState.initial.logger :=
    ⟨pairWindow_initial config a b _, fun rx hmem => by cases hmem⟩
  have hleftEq := hfirst.receptions_eq hleft settled
  have hrightEq := hfirst.receptions_eq hright (same ▸ settled)
  refine ⟨hleftEq.trans ((congrArg _ same).trans hrightEq.symm), hleftEq, ?_⟩
  intro earlier rx later hsplit
  have hpir := outcomes_pirS (hleftEq.symm.trans hsplit)
  rwa [PairHistory.initial, List.nil_append] at hpir

/-- Two messages received in time, with or without a sample between the calls. -/
def timelyHistory (extra : List KpiEvent) : List KpiEvent :=
  [⟨0, pairScene, .logTx 10 1 0 ⟨0, 0⟩⟩, ⟨1 / 10, pairScene, .logRx 10 20 0 ⟨3, 4⟩⟩] ++ extra ++
    [⟨11 / 10, pairScene, .logTx 10 1 1 ⟨0, 0⟩⟩, ⟨6 / 5, pairScene, .logRx 10 20 1 ⟨3, 4⟩⟩]

theorem pairReceptions_independent_timely :
    receptions pairConfig 10 20 KpiLogger.initial (timelyHistory []) =
      receptions pairConfig 10 20 KpiLogger.initial
        (timelyHistory [⟨21 / 20, pairScene, .sampleAndWrite 0⟩]) := by
  have hleft : (Runs.runFrom (kpiStep pairConfig) KpiState.initial (timelyHistory [])).isSome =
      true := by
    decide +kernel
  have hright : (Runs.runFrom (kpiStep pairConfig) KpiState.initial
      (timelyHistory [⟨21 / 20, pairScene, .sampleAndWrite 0⟩])).isSome = true := by
    decide +kernel
  obtain ⟨leftEnd, hleft⟩ := Option.isSome_iff_exists.mp hleft
  obtain ⟨rightEnd, hright⟩ := Option.isSome_iff_exists.mp hright
  exact (pairReceptions_independent pairConfig 10 20 _ _ leftEnd rightEnd hleft hright rfl
    (by decide +kernel)).1

/-- The second message arrives when it has left the window, the third one in time. -/
def lateHistory (extra : List KpiEvent) : List KpiEvent :=
  [⟨0, pairScene, .logTx 10 1 0 ⟨0, 0⟩⟩, ⟨1 / 10, pairScene, .logRx 10 20 0 ⟨3, 4⟩⟩,
    ⟨1 / 5, pairScene, .logTx 10 1 1 ⟨0, 0⟩⟩, ⟨11 / 10, pairScene, .logTx 10 1 2 ⟨0, 0⟩⟩] ++
  extra ++
  [⟨13 / 10, pairScene, .logRx 10 20 1 ⟨3, 4⟩⟩, ⟨27 / 20, pairScene, .logRx 10 20 2 ⟨3, 4⟩⟩]

/-- The intervals a run records for the pair, one entry a call. -/
def recordedPirs (events : List KpiEvent) : List (Option (Option ℚ)) :=
  (receptions pairConfig 10 20 KpiLogger.initial events).map (Option.map RxEvent.pirS)

/-- A sample before the late reception changes the interval of the one in time. -/
theorem pairReceptions_dependent :
    (Runs.runFrom (kpiStep pairConfig) KpiState.initial (lateHistory [])).isSome = true ∧
      (Runs.runFrom (kpiStep pairConfig) KpiState.initial
        (lateHistory [⟨5 / 4, pairScene, .sampleAndWrite 0⟩])).isSome = true ∧
      (lateHistory []).filter (concernsPair 10 20) =
        (lateHistory [⟨5 / 4, pairScene, .sampleAndWrite 0⟩]).filter (concernsPair 10 20) ∧
      (∃ tx ∈ windowTx pairConfig (27 / 20) (lateHistory []), tx.key = (10, 2)) ∧
      recordedPirs (lateHistory []) = [some none, some (some (6 / 5)), some (some (1 / 20))] ∧
      recordedPirs (lateHistory [⟨5 / 4, pairScene, .sampleAndWrite 0⟩]) =
        [some none, none, some (some (5 / 4))] := by
  refine ⟨by decide +kernel, by decide +kernel, rfl, ?_, by decide +kernel, by decide +kernel⟩
  decide +kernel

end DeepcV2x.Kpi
