import DeepcV2x.Kpi.Logger
import Mathlib.Algebra.BigOperators.Group.Finset.Basic
import Mathlib.Algebra.BigOperators.Group.List.Basic
import Mathlib.Algebra.Order.BigOperators.Group.Finset
import Mathlib.Data.List.TakeWhile
import Mathlib.Data.Set.Card
import Mathlib.Tactic.Linarith

/-!
# The KPI window over the full history

The reception ratio is defined over all calls a run ever made, without any
pruning.  The invariant ties the two deques and the set of logged triples to
that history, and every sample then agrees with the definition.
-/

namespace DeepcV2x.Kpi

open DeepcV2x.Foundation DeepcV2x.Pool

variable (config : KpiConfig)

/-! ## Definition over the history -/

/-- The transmission an event logs, if it is accepted. -/
def txOf (event : KpiEvent) : Option TxEvent :=
  match event.call with
  | .logTx txVehicleId txNodeId seq posTx =>
      KpiLogger.txEventOf config event.scene txVehicleId txNodeId seq event.now posTx
  | _ => none

/-- All accepted transmissions of a history. -/
def acceptedTx (history : List KpiEvent) : List TxEvent := history.filterMap (txOf config)

/-- The event is a `LogRx` call for the triple that passes its filters. -/
def Receives (sent : List TxEvent) (event : KpiEvent) (triple : RxTriple) : Prop :=
  ∃ posRx, event.call = .logRx triple.1 triple.2.1 triple.2.2 posRx ∧
    KpiLogger.rxNodesAccepted config event.scene triple.1 triple.2.1 event.now = true ∧
    config.isInsideCore posRx = true ∧
    ∃ tx ∈ sent, tx.key = txKeyOf triple ∧ triple.2.1 ∈ tx.rxAtTx

/-- Some call of the history received the triple. -/
def Received (history : List KpiEvent) (triple : RxTriple) : Prop :=
  ∃ past event later, history = past ++ event :: later ∧
    Receives config (acceptedTx config past) event triple

/-- The accepted transmissions of the window that ends at `now`. -/
def windowTx (now : ℚ) (history : List KpiEvent) : List TxEvent :=
  (acceptedTx config history).filter fun tx => now - config.kpiWindowS ≤ tx.timeS

/-- The received triples whose transmission is in the window. -/
def windowReceived (now : ℚ) (history : List KpiEvent) : Set RxTriple :=
  {triple | Received config history triple ∧
    ∃ tx ∈ windowTx config now history, tx.key = txKeyOf triple}

/-- No key is logged twice. -/
def UniqueKeys (history : List KpiEvent) : Prop :=
  ((acceptedTx config history).map TxEvent.key).Nodup

variable {config}

theorem acceptedTx_snoc (history : List KpiEvent) (event : KpiEvent) :
    acceptedTx config (history ++ [event]) =
      acceptedTx config history ++ (txOf config event).toList := by
  simp only [acceptedTx, List.filterMap_append, List.filterMap_cons, List.filterMap_nil]
  cases txOf config event <;> rfl

theorem received_snoc_iff (history : List KpiEvent) (event : KpiEvent) (triple : RxTriple) :
    Received config (history ++ [event]) triple ↔
      Received config history triple ∨
        Receives config (acceptedTx config history) event triple := by
  constructor
  · rintro ⟨past, current, later, hsplit, hreceives⟩
    rcases List.eq_nil_or_concat later with rfl | ⟨init, last, rfl⟩
    · obtain ⟨rfl, hsame⟩ := List.append_inj' hsplit rfl
      rw [List.cons.inj hsame |>.1]
      exact Or.inr hreceives
    · have hsplit' : history ++ [event] = (past ++ current :: init) ++ [last] := by
        simpa using hsplit
      obtain ⟨rfl, -⟩ := List.append_inj' hsplit' rfl
      exact Or.inl ⟨past, current, init, rfl, hreceives⟩
  · rintro (⟨past, current, later, rfl, hreceives⟩ | hreceives)
    · exact ⟨past, current, later ++ [event], by simp, hreceives⟩
    · exact ⟨history, event, [], rfl, hreceives⟩

theorem UniqueKeys.of_snoc {history : List KpiEvent} {event : KpiEvent}
    (unique : UniqueKeys config (history ++ [event])) : UniqueKeys config history := by
  rw [UniqueKeys, acceptedTx_snoc, List.map_append] at unique
  exact (List.nodup_append.mp unique).1

/-- The transmission of a key is unique. -/
theorem UniqueKeys.eq {history : List KpiEvent} (unique : UniqueKeys config history)
    {left right : TxEvent} (hleft : left ∈ acceptedTx config history)
    (hright : right ∈ acceptedTx config history) (same : left.key = right.key) : left = right :=
  List.inj_on_of_nodup_map unique hleft hright same

theorem Received.has_tx {history : List KpiEvent} {triple : RxTriple}
    (received : Received config history triple) :
    ∃ tx ∈ acceptedTx config history, tx.key = txKeyOf triple ∧ triple.2.1 ∈ tx.rxAtTx := by
  obtain ⟨past, event, later, rfl, -, -, -, -, tx, hmem, hkey, hin⟩ := received
  refine ⟨tx, ?_, hkey, hin⟩
  rw [acceptedTx, List.filterMap_append]
  exact List.mem_append_left _ hmem

/-- A transmission event carries the number of its receivers. -/
theorem txOf_eligible {event : KpiEvent} {tx : TxEvent} (htx : txOf config event = some tx) :
    tx.eligibleRxCount = tx.rxAtTx.card ∧ tx.timeS = event.now := by
  unfold txOf at htx
  split at htx
  · unfold KpiLogger.txEventOf at htx
    split at htx
    · cases htx
    · rw [← Option.some.inj htx]
      exact ⟨rfl, rfl⟩
  · cases htx

theorem acceptedTx_eligible {history : List KpiEvent} {tx : TxEvent}
    (hmem : tx ∈ acceptedTx config history) : tx.eligibleRxCount = tx.rxAtTx.card := by
  obtain ⟨event, -, htx⟩ := List.mem_filterMap.mp hmem
  exact (txOf_eligible htx).1

/-! ## Pruning -/

/-- The dedup set holds the triples of the reception deque, each once. -/
def TriplesAgree (rxEvents : List RxEvent) (logged : Finset RxTriple) : Prop :=
  logged = (rxEvents.map RxEvent.triple).toFinset ∧ (rxEvents.map RxEvent.triple).Nodup

theorem popExpiredRx_fst (cutoff : ℚ) (rxEvents : List RxEvent) (logged : Finset RxTriple) :
    (KpiLogger.popExpiredRx cutoff rxEvents logged).1 =
      rxEvents.dropWhile fun rx => decide (rx.timeS < cutoff) := by
  induction rxEvents generalizing logged with
  | nil => rfl
  | cons rx rest ih =>
      simp only [KpiLogger.popExpiredRx, List.dropWhile_cons, decide_eq_true_eq]
      split
      · exact ih _
      · rfl

theorem popExpiredRx_agrees (cutoff : ℚ) {rxEvents : List RxEvent} {logged : Finset RxTriple}
    (agrees : TriplesAgree rxEvents logged) :
    TriplesAgree (KpiLogger.popExpiredRx cutoff rxEvents logged).1
      (KpiLogger.popExpiredRx cutoff rxEvents logged).2 := by
  induction rxEvents generalizing logged with
  | nil => exact agrees
  | cons rx rest ih =>
      obtain ⟨rfl, hnodup⟩ := agrees
      simp only [KpiLogger.popExpiredRx]
      split
      · rw [List.map_cons, List.nodup_cons] at hnodup
        refine ih ⟨?_, hnodup.2⟩
        rw [List.map_cons, List.toFinset_cons, Finset.erase_insert]
        simpa using hnodup.1
      · exact ⟨rfl, hnodup⟩

theorem removeStaleRx_fst (keys : Finset TxKey) (rxEvents : List RxEvent)
    (logged : Finset RxTriple) :
    (KpiLogger.removeStaleRx keys rxEvents logged).1 =
      rxEvents.filter fun rx => decide (rx.txKey ∈ keys) := by
  induction rxEvents generalizing logged with
  | nil => rfl
  | cons rx rest ih =>
      simp only [KpiLogger.removeStaleRx, List.filter_cons, decide_eq_true_eq]
      split
      · rw [ih]
      · exact ih _

/-- Removing stale receptions takes exactly their triples out of the set. -/
theorem removeStaleRx_snd (keys : Finset TxKey) {rxEvents : List RxEvent}
    {kept : Finset RxTriple} (hnodup : (rxEvents.map RxEvent.triple).Nodup)
    (hkept : ∀ rx ∈ rxEvents, rx.triple ∉ kept) :
    (KpiLogger.removeStaleRx keys rxEvents
        (kept ∪ (rxEvents.map RxEvent.triple).toFinset)).2 =
      kept ∪ ((rxEvents.filter fun rx => decide (rx.txKey ∈ keys)).map
        RxEvent.triple).toFinset := by
  induction rxEvents generalizing kept with
  | nil => rfl
  | cons rx rest ih =>
      rw [List.map_cons, List.nodup_cons] at hnodup
      obtain ⟨hfresh, hrest⟩ := hnodup
      by_cases hlive : rx.txKey ∈ keys
      · have hmove : kept ∪ (rx.triple :: rest.map RxEvent.triple).toFinset =
            insert rx.triple kept ∪ (rest.map RxEvent.triple).toFinset := by
          rw [List.toFinset_cons, Finset.union_insert, Finset.insert_union]
        have hdisjoint : ∀ other ∈ rest, other.triple ∉ insert rx.triple kept := by
          intro other hmem hin
          rcases Finset.mem_insert.mp hin with same | hold
          · exact hfresh (same ▸ List.mem_map_of_mem hmem)
          · exact hkept other (List.mem_cons_of_mem _ hmem) hold
        rw [List.filter_cons_of_pos (by simpa using hlive), List.map_cons, List.map_cons, hmove]
        simp only [KpiLogger.removeStaleRx, if_pos hlive, ih hrest hdisjoint]
        rw [List.toFinset_cons, Finset.union_insert, Finset.insert_union]
      · have herase : (kept ∪ (rx.triple :: rest.map RxEvent.triple).toFinset).erase rx.triple =
            kept ∪ (rest.map RxEvent.triple).toFinset := by
          rw [List.toFinset_cons, Finset.union_insert, Finset.erase_insert]
          rw [Finset.mem_union, List.mem_toFinset]
          rintro (hin | hin)
          · exact hkept rx List.mem_cons_self hin
          · exact hfresh hin
        have hdisjoint : ∀ other ∈ rest, other.triple ∉ kept := fun other hmem =>
          hkept other (List.mem_cons_of_mem _ hmem)
        rw [List.filter_cons_of_neg (by simpa using hlive), List.map_cons]
        simp only [KpiLogger.removeStaleRx, if_neg hlive, herase, ih hrest hdisjoint]

theorem removeStaleRx_agrees (keys : Finset TxKey) {rxEvents : List RxEvent}
    {logged : Finset RxTriple} (agrees : TriplesAgree rxEvents logged) :
    TriplesAgree (KpiLogger.removeStaleRx keys rxEvents logged).1
      (KpiLogger.removeStaleRx keys rxEvents logged).2 := by
  obtain ⟨rfl, hnodup⟩ := agrees
  have hsnd := @removeStaleRx_snd keys rxEvents ∅ hnodup (by simp)
  rw [Finset.empty_union, Finset.empty_union] at hsnd
  rw [TriplesAgree, hsnd, removeStaleRx_fst]
  exact ⟨rfl, hnodup.sublist (List.filter_sublist.map _)⟩

/-- On a list sorted by time, dropping the expired front keeps what has not expired. -/
theorem dropWhile_eq_filter {txEvents : List TxEvent}
    (sorted : txEvents.Pairwise fun left right => left.timeS ≤ right.timeS) (cutoff : ℚ) :
    txEvents.dropWhile (fun tx => decide (tx.timeS < cutoff)) =
      txEvents.filter fun tx => decide (cutoff ≤ tx.timeS) := by
  induction txEvents with
  | nil => rfl
  | cons tx rest ih =>
      obtain ⟨hfirst, hrest⟩ := List.pairwise_cons.mp sorted
      by_cases hexpired : tx.timeS < cutoff
      · simp [hexpired, not_le.mpr hexpired, ih hrest]
      · have hall : ∀ other ∈ tx :: rest, cutoff ≤ other.timeS := by
          intro other hmem
          rcases List.mem_cons.mp hmem with rfl | hin
          · exact not_lt.mp hexpired
          · exact (not_lt.mp hexpired).trans (hfirst other hin)
        rw [List.dropWhile_cons_of_neg (by simpa using hexpired), List.filter_eq_self.mpr]
        intro other hmem
        exact decide_eq_true (hall other hmem)

/-! ## The invariant -/

/-- The pruned members against the full history at time `now`. -/
structure KpiInvariant (config : KpiConfig) (history : List KpiEvent) (now : ℚ)
    (logger : KpiLogger) : Prop where
  sorted : (acceptedTx config history).Pairwise fun left right => left.timeS ≤ right.timeS
  past : ∀ tx ∈ acceptedTx config history, tx.timeS ≤ now
  txDeque : ∃ expired, acceptedTx config history = expired ++ logger.txEvents ∧
    ∀ tx ∈ expired, tx.timeS < now - config.kpiWindowS
  received : ∀ rx ∈ logger.rxEvents, Received config history rx.triple
  afterTx : ∀ rx ∈ logger.rxEvents, ∀ tx ∈ acceptedTx config history,
    tx.key = rx.txKey → tx.timeS ≤ rx.timeS
  complete : ∀ triple ∈ windowReceived config now history,
    ∃ rx ∈ logger.rxEvents, rx.triple = triple
  agrees : TriplesAgree logger.rxEvents logger.loggedRxTriples

theorem kpiInvariant_initial (config : KpiConfig) : KpiInvariant config [] 0 KpiLogger.initial where
  sorted := List.Pairwise.nil
  past tx hmem := by cases hmem
  txDeque := ⟨[], rfl, by simp⟩
  received rx hmem := by cases hmem
  afterTx rx hmem := by cases hmem
  complete triple hmem := by
    obtain ⟨-, tx, htx, -⟩ := hmem
    simp [windowTx, acceptedTx] at htx
  agrees := ⟨rfl, List.nodup_nil⟩

namespace KpiInvariant

variable {history : List KpiEvent} {now : ℚ} {logger : KpiLogger}

/-- Time may pass between two calls. -/
theorem wait (inv : KpiInvariant config history now logger) {later : ℚ} (hle : now ≤ later) :
    KpiInvariant config history later logger where
  sorted := inv.sorted
  past tx hmem := (inv.past tx hmem).trans hle
  txDeque := by
    obtain ⟨expired, hsplit, hold⟩ := inv.txDeque
    exact ⟨expired, hsplit, fun tx hmem => by linarith [hold tx hmem]⟩
  received := inv.received
  afterTx := inv.afterTx
  complete triple hmem := by
    obtain ⟨hreceived, tx, htx, hkey⟩ := hmem
    obtain ⟨hin, hlive⟩ := List.mem_filter.mp htx
    refine inv.complete triple ⟨hreceived, tx, List.mem_filter.mpr ⟨hin, ?_⟩, hkey⟩
    have hbound := of_decide_eq_true hlive
    exact decide_eq_true (by linarith)
  agrees := inv.agrees

theorem tx_sorted (inv : KpiInvariant config history now logger) :
    logger.txEvents.Pairwise fun left right => left.timeS ≤ right.timeS := by
  obtain ⟨expired, hsplit, -⟩ := inv.txDeque
  have sorted := inv.sorted
  rw [hsplit] at sorted
  exact (List.pairwise_append.mp sorted).2.1

/-- After pruning, the transmissions are exactly those of the window. -/
theorem prune_txEvents (inv : KpiInvariant config history now logger) :
    (logger.pruneOldEvents config now).txEvents = windowTx config now history := by
  obtain ⟨expired, hsplit, hold⟩ := inv.txDeque
  have hnone : expired.filter (fun tx => decide (now - config.kpiWindowS ≤ tx.timeS)) = [] := by
    rw [List.filter_eq_nil_iff]
    intro tx hmem
    rw [decide_eq_true_eq]
    exact not_le.mpr (hold tx hmem)
  rw [windowTx, hsplit, List.filter_append, hnone, List.nil_append]
  exact dropWhile_eq_filter inv.tx_sorted _

theorem mem_activeTxKeys_prune (inv : KpiInvariant config history now logger) (key : TxKey) :
    key ∈ KpiLogger.activeTxKeys (logger.pruneOldEvents config now).txEvents ↔
      ∃ tx ∈ windowTx config now history, tx.key = key := by
  rw [inv.prune_txEvents, KpiLogger.activeTxKeys, List.mem_toFinset, List.mem_map]

/-- After pruning, the receptions are those whose transmission is in the window. -/
theorem prune_rxEvents (inv : KpiInvariant config history now logger) (rx : RxEvent) :
    rx ∈ (logger.pruneOldEvents config now).rxEvents ↔
      rx ∈ logger.rxEvents ∧ ∃ tx ∈ windowTx config now history, tx.key = rx.txKey := by
  have hfst : (logger.pruneOldEvents config now).rxEvents =
      (logger.rxEvents.dropWhile fun rx => decide (rx.timeS < now - config.kpiWindowS)).filter
        fun rx => decide (rx.txKey ∈
          KpiLogger.activeTxKeys (logger.pruneOldEvents config now).txEvents) := by
    rw [KpiLogger.pruneOldEvents, removeStaleRx_fst, popExpiredRx_fst]
  rw [hfst, List.mem_filter, decide_eq_true_eq, inv.mem_activeTxKeys_prune]
  constructor
  · rintro ⟨hmem, hlive⟩
    exact ⟨(List.dropWhile_sublist _).mem hmem, hlive⟩
  · rintro ⟨hmem, tx, htx, hkey⟩
    refine ⟨?_, tx, htx, hkey⟩
    obtain ⟨haccepted, hlive⟩ := List.mem_filter.mp htx
    rcases List.mem_append.mp (by rwa [List.takeWhile_append_dropWhile] :
        rx ∈ (logger.rxEvents.takeWhile fun rx => decide (rx.timeS < now - config.kpiWindowS)) ++
          logger.rxEvents.dropWhile fun rx => decide (rx.timeS < now - config.kpiWindowS)) with
      hexpired | hkept
    · have hbefore : rx.timeS < now - config.kpiWindowS := by
        have hpopped := List.mem_takeWhile_imp hexpired
        rwa [decide_eq_true_eq] at hpopped
      have hafter := inv.afterTx rx hmem tx haccepted hkey
      have hbound := of_decide_eq_true hlive
      linarith
    · exact hkept

theorem prune (inv : KpiInvariant config history now logger) :
    KpiInvariant config history now (logger.pruneOldEvents config now) where
  sorted := inv.sorted
  past := inv.past
  txDeque := by
    obtain ⟨expired, hsplit, hold⟩ := inv.txDeque
    refine ⟨expired ++ logger.txEvents.takeWhile
      fun tx => decide (tx.timeS < now - config.kpiWindowS), ?_, ?_⟩
    · rw [hsplit, List.append_assoc, KpiLogger.pruneOldEvents,
        List.takeWhile_append_dropWhile]
    · intro tx hmem
      rcases List.mem_append.mp hmem with hin | hin
      · exact hold tx hin
      · have hpopped := List.mem_takeWhile_imp hin
        rwa [decide_eq_true_eq] at hpopped
  received rx hmem := inv.received rx ((inv.prune_rxEvents rx).mp hmem).1
  afterTx rx hmem := inv.afterTx rx ((inv.prune_rxEvents rx).mp hmem).1
  complete triple hmem := by
    obtain ⟨rx, hin, rfl⟩ := inv.complete triple hmem
    exact ⟨rx, (inv.prune_rxEvents rx).mpr ⟨hin, hmem.2⟩, rfl⟩
  agrees := removeStaleRx_agrees _ (popExpiredRx_agrees _ inv.agrees)

/-- An accepted transmission is appended to the deque. -/
theorem appendTx (inv : KpiInvariant config history now logger) {event : KpiEvent} {tx : TxEvent}
    (htx : txOf config event = some tx) (hnow : event.now = now)
    (unique : UniqueKeys config (history ++ [event])) :
    KpiInvariant config (history ++ [event]) now
      { logger with txEvents := logger.txEvents ++ [tx] } := by
  have htime : tx.timeS = now := (txOf_eligible htx).2.trans hnow
  have haccepted : acceptedTx config (history ++ [event]) = acceptedTx config history ++ [tx] := by
    rw [acceptedTx_snoc, htx]
    rfl
  have hnotRx : ∀ triple, ¬ Receives config (acceptedTx config history) event triple := by
    rintro triple ⟨posRx, hcall, -⟩
    simp [txOf, hcall] at htx
  have hreceived : ∀ triple, Received config (history ++ [event]) triple ↔
      Received config history triple := by
    intro triple
    rw [received_snoc_iff, or_iff_left (hnotRx triple)]
  have hold : ∀ {triple : RxTriple}, Received config history triple →
      ∀ other ∈ acceptedTx config (history ++ [event]), other.key = txKeyOf triple →
        other ∈ acceptedTx config history := by
    intro triple received other hother hkey
    obtain ⟨first, hfirst, hfirstKey, -⟩ := received.has_tx
    have same := unique.eq hother (by rw [haccepted]; exact List.mem_append_left _ hfirst)
      (hkey.trans hfirstKey.symm)
    exact same ▸ hfirst
  refine ⟨?_, ?_, ?_, ?_, ?_, ?_, inv.agrees⟩
  · rw [haccepted]
    refine List.pairwise_append.mpr ⟨inv.sorted, List.pairwise_singleton _ _, ?_⟩
    intro left hleft right hright
    rw [List.mem_singleton.mp hright, htime]
    exact inv.past left hleft
  · intro other hmem
    rw [haccepted] at hmem
    rcases List.mem_append.mp hmem with hin | hin
    · exact inv.past other hin
    · rw [List.mem_singleton.mp hin, htime]
  · obtain ⟨expired, hsplit, hexpired⟩ := inv.txDeque
    exact ⟨expired, by rw [haccepted, hsplit, List.append_assoc], hexpired⟩
  · intro rx hmem
    exact (hreceived _).mpr (inv.received rx hmem)
  · intro rx hmem other hother hkey
    exact inv.afterTx rx hmem other (hold (inv.received rx hmem) other hother hkey) hkey
  · rintro triple ⟨hreceivedTriple, other, hother, hkey⟩
    obtain ⟨hin, hlive⟩ := List.mem_filter.mp hother
    have hbefore := (hreceived triple).mp hreceivedTriple
    exact inv.complete triple ⟨hbefore, other,
      List.mem_filter.mpr ⟨hold hbefore other hin hkey, hlive⟩, hkey⟩

/-- An event that logs no transmission leaves the members alone when everything it receives
for the window is in the deque already. -/
theorem extend (inv : KpiInvariant config history now logger) {event : KpiEvent}
    (htx : txOf config event = none)
    (hold : ∀ triple, Receives config (acceptedTx config history) event triple →
      (∃ tx ∈ windowTx config now history, tx.key = txKeyOf triple) →
        ∃ rx ∈ logger.rxEvents, rx.triple = triple) :
    KpiInvariant config (history ++ [event]) now logger := by
  have haccepted : acceptedTx config (history ++ [event]) = acceptedTx config history := by
    rw [acceptedTx_snoc, htx]
    exact List.append_nil _
  refine ⟨by rw [haccepted]; exact inv.sorted, by rw [haccepted]; exact inv.past,
    by rw [haccepted]; exact inv.txDeque, ?_, by rw [haccepted]; exact inv.afterTx, ?_, inv.agrees⟩
  · intro rx hmem
    exact (received_snoc_iff _ _ _).mpr (Or.inl (inv.received rx hmem))
  · rintro triple ⟨hreceived, hlive⟩
    rw [windowTx, haccepted] at hlive
    rcases (received_snoc_iff _ _ _).mp hreceived with hbefore | hnew
    · exact inv.complete triple ⟨hbefore, hlive⟩
    · exact hold triple hnew hlive

/-- The one reception of an event, not logged before, is appended to the deque. -/
theorem appendRx (inv : KpiInvariant config history now logger) {event : KpiEvent} {rx : RxEvent}
    (htx : txOf config event = none) (htime : rx.timeS = now)
    (hreceives : Receives config (acceptedTx config history) event rx.triple)
    (honly : ∀ triple, Receives config (acceptedTx config history) event triple →
      triple = rx.triple)
    (hnew : rx.triple ∉ logger.loggedRxTriples) :
    KpiInvariant config (history ++ [event]) now (logger.appendRx rx) := by
  have haccepted : acceptedTx config (history ++ [event]) = acceptedTx config history := by
    rw [acceptedTx_snoc, htx]
    exact List.append_nil _
  obtain ⟨hset, hnodup⟩ := inv.agrees
  refine ⟨by rw [haccepted]; exact inv.sorted, by rw [haccepted]; exact inv.past,
    by rw [haccepted]; exact inv.txDeque, ?_, ?_, ?_, ?_, ?_⟩
  · intro other hmem
    rw [received_snoc_iff]
    rcases List.mem_append.mp hmem with hin | hin
    · exact Or.inl (inv.received other hin)
    · rw [List.mem_singleton.mp hin]
      exact Or.inr hreceives
  · intro other hmem tx hsent hkey
    rw [haccepted] at hsent
    rcases List.mem_append.mp hmem with hin | hin
    · exact inv.afterTx other hin tx hsent hkey
    · rw [List.mem_singleton.mp hin, htime]
      exact inv.past tx hsent
  · rintro triple ⟨hreceived, hlive⟩
    rw [windowTx, haccepted] at hlive
    rcases (received_snoc_iff _ _ _).mp hreceived with hbefore | hnow
    · obtain ⟨other, hin, hsame⟩ := inv.complete triple ⟨hbefore, hlive⟩
      exact ⟨other, List.mem_append_left _ hin, hsame⟩
    · exact ⟨rx, List.mem_append_right _ List.mem_cons_self, (honly triple hnow).symm⟩
  · simp only [KpiLogger.appendRx, hset, List.map_append, List.map_cons, List.map_nil,
      List.toFinset_append, List.toFinset_cons, List.toFinset_nil]
    rw [Finset.union_comm, Finset.insert_union, Finset.empty_union]
  · rw [hset, List.mem_toFinset] at hnew
    simp only [KpiLogger.appendRx, List.map_append, List.map_cons, List.map_nil]
    refine List.nodup_append.mpr ⟨hnodup, List.nodup_singleton _, ?_⟩
    rintro triple hin other hother rfl
    rw [List.mem_singleton.mp hother] at hin
    exact hnew hin

/-! ## The calls -/

theorem setCurrentInputs (inv : KpiInvariant config history now logger) (pDbm tbS : ℚ) :
    KpiInvariant config history now (logger.setCurrentInputs pDbm tbS) :=
  ⟨inv.sorted, inv.past, inv.txDeque, inv.received, inv.afterTx, inv.complete, inv.agrees⟩

/-- A live transmission is found in the deque by its key. -/
theorem findTxEvent_window (inv : KpiInvariant config history now logger)
    (unique : UniqueKeys config history) {tx : TxEvent}
    (hmem : tx ∈ windowTx config now history) :
    KpiLogger.findTxEvent logger.txEvents tx.key = some tx := by
  obtain ⟨expired, hsplit, hold⟩ := inv.txDeque
  obtain ⟨haccepted, hlive⟩ := List.mem_filter.mp hmem
  have hin : tx ∈ logger.txEvents := by
    rw [hsplit] at haccepted
    rcases List.mem_append.mp haccepted with hexpired | hkept
    · have hbound := of_decide_eq_true hlive
      linarith [hold tx hexpired]
    · exact hkept
  cases hfind : KpiLogger.findTxEvent logger.txEvents tx.key with
  | none =>
      have hnone := List.find?_eq_none.mp hfind tx (List.mem_reverse.mpr hin)
      simp at hnone
  | some found =>
      have hfound := List.mem_reverse.mp (List.mem_of_find?_eq_some hfind)
      have hkey : found.key = tx.key := by simpa using List.find?_some hfind
      have hfoundAccepted : found ∈ acceptedTx config history := by
        rw [hsplit]
        exact List.mem_append_right _ hfound
      rw [unique.eq hfoundAccepted haccepted hkey]

theorem findTxEvent_accepted (inv : KpiInvariant config history now logger) {key : TxKey}
    {tx : TxEvent} (hfind : KpiLogger.findTxEvent logger.txEvents key = some tx) :
    tx ∈ acceptedTx config history ∧ tx.key = key := by
  obtain ⟨expired, hsplit, -⟩ := inv.txDeque
  constructor
  · rw [hsplit]
    exact List.mem_append_right _ (List.mem_reverse.mp (List.mem_of_find?_eq_some hfind))
  · simpa using List.find?_some hfind

theorem logTx (inv : KpiInvariant config history now logger) {event : KpiEvent}
    (hnow : event.now = now) (unique : UniqueKeys config (history ++ [event]))
    {txVehicleId : VehicleId} {txNodeId : NodeId} {seq : UInt64} {posTx : Position}
    (hcall : event.call = .logTx txVehicleId txNodeId seq posTx) :
    KpiInvariant config (history ++ [event]) now
      (logger.logTx config event.scene txVehicleId txNodeId seq now posTx) := by
  have hofCall : txOf config event =
      KpiLogger.txEventOf config event.scene txVehicleId txNodeId seq now posTx := by
    simp only [txOf, hcall, hnow]
  cases htx : KpiLogger.txEventOf config event.scene txVehicleId txNodeId seq now posTx with
  | none =>
      simp only [KpiLogger.logTx, htx]
      refine inv.extend (hofCall.trans htx) ?_
      rintro triple ⟨posRx, hrx, -⟩
      rw [hcall] at hrx
      cases hrx
  | some tx =>
      simp only [KpiLogger.logTx, htx]
      exact (inv.appendTx (hofCall.trans htx) hnow unique).prune

/-- A reception is ignored or remembered; either way the window stays complete. -/
theorem logRx (inv : KpiInvariant config history now logger) {event : KpiEvent}
    (hnow : event.now = now) (unique : UniqueKeys config (history ++ [event]))
    {txVehicleId rxVehicleId : VehicleId} {seq : UInt64} {posRx : Position}
    (hcall : event.call = .logRx txVehicleId rxVehicleId seq posRx) :
    KpiInvariant config (history ++ [event]) now
      (logger.logRx config event.scene txVehicleId rxVehicleId seq now posRx) := by
  have htx : txOf config event = none := by simp only [txOf, hcall]
  have hreceives : ∀ triple, Receives config (acceptedTx config history) event triple →
      triple = (txVehicleId, rxVehicleId, seq) ∧
        KpiLogger.rxNodesAccepted config event.scene txVehicleId rxVehicleId now = true ∧
        config.isInsideCore posRx = true ∧
        ∃ tx ∈ acceptedTx config history, tx.key = (txVehicleId, seq) ∧
          rxVehicleId ∈ tx.rxAtTx := by
    rintro ⟨first, second, third⟩ ⟨pos, hsame, hnodes, hcore, tx, hmem, hkey, hin⟩
    rw [hcall] at hsame
    cases hsame
    exact ⟨rfl, hnow ▸ hnodes, hcore, tx, hmem, hkey, hin⟩
  have hfound : ∀ triple, Receives config (acceptedTx config history) event triple →
      (∃ tx ∈ windowTx config now history, tx.key = txKeyOf triple) →
        ∃ tx, KpiLogger.findTxEvent logger.txEvents (txVehicleId, seq) = some tx ∧
          rxVehicleId ∈ tx.rxAtTx := by
    rintro triple hrx ⟨tx, hlive, hkey⟩
    obtain ⟨rfl, -, -, sent, hsent, hsentKey, hin⟩ := hreceives triple hrx
    have same := unique.of_snoc.eq (List.mem_filter.mp hlive).1 hsent (hkey.trans hsentKey.symm)
    have hfind := inv.findTxEvent_window unique.of_snoc hlive
    rw [hkey] at hfind
    exact ⟨tx, hfind, same ▸ hin⟩
  unfold KpiLogger.logRx
  split
  next hrejected =>
    refine inv.extend htx ?_
    intro triple hrx
    have hnodes := (hreceives triple hrx).2.1
    simp [hnodes] at hrejected
  next haccepted =>
    cases hfind : KpiLogger.findTxEvent logger.txEvents (txVehicleId, seq) with
    | none =>
        refine inv.extend htx ?_
        intro triple hrx hlive
        obtain ⟨tx, hsome, -⟩ := hfound triple hrx hlive
        rw [hfind] at hsome
        cases hsome
    | some tx =>
        dsimp only
        split
        next hfiltered =>
          refine inv.extend htx ?_
          intro triple hrx hlive
          obtain ⟨found, hsome, hin⟩ := hfound triple hrx hlive
          obtain rfl := Option.some.inj (hfind.symm.trans hsome)
          simp [(hreceives triple hrx).2.2.1, hin] at hfiltered
        next hpassed =>
          split
          next hlogged =>
            refine inv.extend htx ?_
            intro triple hrx _
            obtain ⟨rfl, -⟩ := hreceives triple hrx
            rw [inv.agrees.1, List.mem_toFinset] at hlogged
            obtain ⟨rx, hmem, hsame⟩ := List.mem_map.mp hlogged
            exact ⟨rx, hmem, hsame⟩
          next hnew =>
            obtain ⟨hsent, hkey⟩ := inv.findTxEvent_accepted hfind
            have hpasses : config.isInsideCore posRx = true ∧ rxVehicleId ∈ tx.rxAtTx := by
              simpa using hpassed
            have hpass : config.isInsideCore posRx = true ∧ rxVehicleId ∈ tx.rxAtTx := by
              simpa using hpassed
            set pir := (logger.lastRxTimePerPair (txVehicleId, rxVehicleId)).map (now - ·)
            set rx : RxEvent := ⟨now, txVehicleId, rxVehicleId, seq, pir⟩
            have hfresh : rx.triple ∉ logger.loggedRxTriples := hnew
            refine (inv.appendRx htx rfl ?_ ?_ hfresh).prune
            · refine ⟨posRx, hcall, ?_, hpass.1, tx, hsent, hkey, hpass.2⟩
              rw [hnow]
              simpa [RxEvent.triple] using haccepted
            · intro triple hrx
              exact (hreceives triple hrx).1

theorem sampleAndWrite (inv : KpiInvariant config history now logger) {event : KpiEvent} {cbr : ℚ}
    (hcall : event.call = .sampleAndWrite cbr) :
    KpiInvariant config (history ++ [event]) now
      (logger.sampleAndWrite config event.scene now cbr) := by
  have htx : txOf config event = none := by simp only [txOf, hcall]
  have hnone : ∀ triple, ¬ Receives config (acceptedTx config history) event triple := by
    rintro triple ⟨posRx, hrx, -⟩
    rw [hcall] at hrx
    cases hrx
  have pruned := inv.prune.extend htx fun triple hrx => absurd hrx (hnone triple)
  exact ⟨pruned.sorted, pruned.past, pruned.txDeque, pruned.received, pruned.afterTx,
    pruned.complete, pruned.agrees⟩

/-- One call of a run preserves the invariant. -/
theorem step {state next : KpiState} {event : KpiEvent}
    (inv : KpiInvariant config history state.now state.logger)
    (unique : UniqueKeys config (history ++ [event]))
    (hstep : kpiStep config state event = some next) :
    KpiInvariant config (history ++ [event]) next.now next.logger := by
  obtain ⟨hle, rfl⟩ := kpiStep_some hstep
  have waited := inv.wait hle
  cases hcall : event.call with
  | setCurrentInputs pDbm tbS =>
      simp only [callLogger, hcall]
      refine (waited.setCurrentInputs pDbm tbS).extend (by simp only [txOf, hcall]) ?_
      rintro triple ⟨posRx, hrx, -⟩
      rw [hcall] at hrx
      cases hrx
  | logTx txVehicleId txNodeId seq posTx =>
      simp only [callLogger, hcall]
      exact waited.logTx rfl unique hcall
  | logRx txVehicleId rxVehicleId seq posRx =>
      simp only [callLogger, hcall]
      exact waited.logRx rfl unique hcall
  | sampleAndWrite cbr =>
      simp only [callLogger, hcall]
      exact waited.sampleAndWrite hcall

end KpiInvariant

/-- The invariant holds along every run that logs no key twice. -/
theorem kpiRun_invariant {history : List KpiEvent} {state : KpiState}
    (unique : UniqueKeys config history)
    (hrun : Runs.runFrom (kpiStep config) KpiState.initial history = some state) :
    KpiInvariant config history state.now state.logger := by
  have hinvariant := Runs.history_invariant (kpiStep config)
    (fun past current => UniqueKeys config past →
      KpiInvariant config past current.now current.logger)
    (fun past current event next inv hstep unique => (inv unique.of_snoc).step unique hstep)
    [] (fun _ => kpiInvariant_initial config) hrun
  exact hinvariant unique

/-! ## Counting -/

/-- The distinct triples a sample counts are the received triples of the window. -/
theorem KpiInvariant.uniqueRxTriples_eq {history : List KpiEvent} {now : ℚ} {logger : KpiLogger}
    (inv : KpiInvariant config history now logger) :
    ((logger.pruneOldEvents config now).uniqueRxTriples : Set RxTriple) =
      windowReceived config now history := by
  ext triple
  simp only [KpiLogger.uniqueRxTriples, Finset.mem_coe, List.mem_toFinset, List.mem_map,
    List.mem_filter, decide_eq_true_eq, inv.mem_activeTxKeys_prune, inv.prune_rxEvents]
  constructor
  · rintro ⟨rx, ⟨⟨hmem, hlive⟩, -⟩, rfl⟩
    exact ⟨inv.received rx hmem, hlive⟩
  · intro hwindow
    obtain ⟨rx, hmem, rfl⟩ := inv.complete triple hwindow
    exact ⟨rx, ⟨⟨hmem, hwindow.2⟩, hwindow.2⟩, rfl⟩

/-- No more triples are received than receivers were eligible. -/
theorem windowReceived_ncard_le (now : ℚ) (history : List KpiEvent)
    (unique : UniqueKeys config history) :
    (windowReceived config now history).ncard ≤
      ((windowTx config now history).map TxEvent.eligibleRxCount).sum := by
  have hnodup : (windowTx config now history).Nodup :=
    (List.Nodup.of_map _ unique).sublist List.filter_sublist
  set reached : Finset RxTriple := (windowTx config now history).toFinset.biUnion fun tx =>
    tx.rxAtTx.image fun rxVehicleId => (tx.txVehicleId, rxVehicleId, tx.seq)
  have hsubset : windowReceived config now history ⊆ reached := by
    rintro ⟨txVehicleId, rxVehicleId, seq⟩ ⟨received, tx, hlive, hkey⟩
    obtain ⟨sent, hsent, hsentKey, hin⟩ := received.has_tx
    obtain rfl := unique.eq (List.mem_filter.mp hlive).1 hsent (hkey.trans hsentKey.symm)
    obtain ⟨rfl, rfl⟩ := Prod.mk.inj hkey
    refine Finset.mem_coe.mpr (Finset.mem_biUnion.mpr ⟨tx, List.mem_toFinset.mpr hlive, ?_⟩)
    exact Finset.mem_image.mpr ⟨rxVehicleId, hin, rfl⟩
  calc (windowReceived config now history).ncard
      ≤ (reached : Set RxTriple).ncard := Set.ncard_le_ncard hsubset reached.finite_toSet
    _ = reached.card := Set.ncard_coe_finset reached
    _ ≤ ∑ tx ∈ (windowTx config now history).toFinset, tx.eligibleRxCount := by
        refine Finset.card_biUnion_le.trans (Finset.sum_le_sum ?_)
        intro tx hmem
        have haccepted := (List.mem_filter.mp (List.mem_toFinset.mp hmem)).1
        rw [acceptedTx_eligible haccepted]
        exact Finset.card_image_le
    _ = ((windowTx config now history).map TxEvent.eligibleRxCount).sum :=
        List.sum_toFinset _ hnodup

/--
Every sample of a run in which no key is logged twice: the row's denominator sums
the eligible receivers of the window's transmissions, its numerator counts the
window's received triples, each once, and the numerator is at most the denominator.
-/
theorem sampleAndWrite_window (config : KpiConfig) (history : List KpiEvent) (state : KpiState)
    (event : KpiEvent) (next : KpiState) (cbr : ℚ)
    (hrun : Runs.runFrom (kpiStep config) KpiState.initial history = some state)
    (hstep : kpiStep config state event = some next)
    (hcall : event.call = .sampleAndWrite cbr) (unique : UniqueKeys config history) :
    ∃ row, next.logger.rows = state.logger.rows ++ [row] ∧
      next.logger.latestSample = some row.sample ∧ row.sample.timeS = event.now ∧
      row.denom = ((windowTx config event.now history).map TxEvent.eligibleRxCount).sum ∧
      row.numer = (windowReceived config event.now history).ncard ∧
      row.numer ≤ row.denom ∧ row.sample.prrAwareness = KpiLogger.ratio row.numer row.denom ∧
      (next.logger.rxEvents.map RxEvent.triple).Nodup := by
  obtain ⟨hle, rfl⟩ := kpiStep_some hstep
  have inv := (kpiRun_invariant unique hrun).wait hle
  have hdenom : ((state.logger.pruneOldEvents config event.now).txEvents.map
      TxEvent.eligibleRxCount).sum =
        ((windowTx config event.now history).map TxEvent.eligibleRxCount).sum := by
    rw [inv.prune_txEvents]
  have hnumer : (state.logger.pruneOldEvents config event.now).uniqueRxTriples.card =
      (windowReceived config event.now history).ncard := by
    rw [← inv.uniqueRxTriples_eq, Set.ncard_coe_finset]
  have hbound := windowReceived_ncard_le event.now history unique
  rw [← hdenom, ← hnumer] at hbound
  simp only [callLogger, hcall]
  exact ⟨(state.logger.pruneOldEvents config event.now).rowAt config event.scene event.now cbr,
    rfl, rfl, rfl, hdenom, hnumer, hbound, rfl, inv.prune.agrees.2⟩

/-- Two nodes in range of each other, a window of one second and no core filter. -/
def pairConfig : KpiConfig := ⟨[1, 2], 150, 1, 0, -1, ⟨false, .y, 0, 0⟩⟩

/-- Node 1 carries vehicle 10 and node 2 vehicle 20. -/
def pairScene : Scene where
  dynamicActivePoolEnabled := true
  nodeIdToVehicleId nodeId := if nodeId = 1 then some 10 else if nodeId = 2 then some 20 else none
  vehicleIdToNodeId vehicleId :=
    if vehicleId = 10 then some 1 else if vehicleId = 20 then some 2 else none
  nodeIdToActiveTimeRangeS _ := none
  position nodeId := if nodeId = 1 then ⟨0, 0⟩ else ⟨3, 4⟩

/-- One message is received twice, and once more after it left the window. -/
def duplicateHistory : List KpiEvent :=
  [⟨0, pairScene, .logTx 10 1 0 ⟨0, 0⟩⟩, ⟨1 / 10, pairScene, .logRx 10 20 0 ⟨3, 4⟩⟩,
    ⟨1 / 5, pairScene, .logRx 10 20 0 ⟨3, 4⟩⟩, ⟨1 / 2, pairScene, .logTx 10 1 1 ⟨0, 0⟩⟩,
    ⟨6 / 5, pairScene, .logRx 10 20 0 ⟨3, 4⟩⟩]

theorem sampleAndWrite_window_duplicate :
    ∃ (state next : KpiState) (row : KpiRow),
      Runs.runFrom (kpiStep pairConfig) KpiState.initial duplicateHistory = some state ∧
      next.logger.rows = state.logger.rows ++ [row] ∧
      row.denom = ((windowTx pairConfig (5 / 4) duplicateHistory).map
        TxEvent.eligibleRxCount).sum ∧
      row.numer = (windowReceived pairConfig (5 / 4) duplicateHistory).ncard := by
  set event : KpiEvent := ⟨5 / 4, pairScene, .sampleAndWrite 0⟩ with hevent
  have hsome : ((Runs.runFrom (kpiStep pairConfig) KpiState.initial duplicateHistory).bind
      fun state => kpiStep pairConfig state event).isSome = true := by
    decide +kernel
  obtain ⟨next, hnext⟩ := Option.isSome_iff_exists.mp hsome
  obtain ⟨state, hrun, hstep⟩ := Option.bind_eq_some_iff.mp hnext
  have unique : UniqueKeys pairConfig duplicateHistory := by
    unfold UniqueKeys
    decide +kernel
  obtain ⟨row, hrows, -, -, hdenom, hnumer, -⟩ := sampleAndWrite_window pairConfig
    duplicateHistory state event next 0 hrun hstep rfl unique
  exact ⟨state, next, row, hrun, hrows, hdenom, hnumer⟩

end DeepcV2x.Kpi
