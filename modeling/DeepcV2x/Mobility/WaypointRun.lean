import DeepcV2x.Mobility.Waypoints
import Mathlib.Algebra.Module.Torsion.Field

/-!
# Runs of the waypoint mobility model

While the queue is ahead of the time, the model is on the line to its next
waypoint, whoever asked before.  When the end of the queue was seen, it leaves
for a further waypoint from the time minus one, so that the node jumps.
-/

namespace DeepcV2x.Mobility

open Foundation.Polylines WaypointMobilityModel

/-! ## One update -/

namespace WaypointMobilityModel

theorem velocityOver_eq (span : ℚ) (source target : Vector3D) :
    velocityOver span source target = span⁻¹ • (target - source) := by
  simp only [velocityOver, div_eq_inv_mul]
  rfl

theorem moveTo_eq {now : ℚ} {model : WaypointMobilityModel} (hle : model.current.time ≤ now) :
    moveTo now model =
      { model with
        current := ⟨now, model.current.place + (now - model.current.time) • model.velocity⟩ } := by
  rw [moveTo]
  split
  next => rfl
  next hnot =>
    obtain rfl : model.current.time = now := le_antisymm hle (not_lt.mp hnot)
    rw [sub_self, zero_smul, add_zero]

/-- The queue is ahead of the time: the model is on the line to the next waypoint. -/
structure Moving (start : Waypoint) (rest : List Waypoint) (clock : ℚ)
    (model : WaypointMobilityModel) : Prop where
  queue : ∃ before, start :: rest = before ++ model.next :: model.waypoints
  le : model.current.time ≤ model.next.time
  early : ∀ t, clock ≤ t → t ≤ model.current.time → placeFrom start rest t = model.current.place
  line : ∀ t, clock ≤ t → model.current.time ≤ t → t ≤ model.next.time →
    placeFrom start rest t = model.current.place + (t - model.current.time) • model.velocity

/-- The end of the queue was seen, and waypoints may have been added since. -/
structure Ended (start : Waypoint) (rest : List Waypoint) (clock : ℚ)
    (model : WaypointMobilityModel) : Prop where
  queue : ∃ before last, start :: rest = before ++ last :: model.waypoints ∧
    last.place = model.next.place ∧ last.time ≤ clock ∧
      ∀ waypoint, model.waypoints.head? = some waypoint → waypoint.place = last.place
  marked : model.next.time = -1
  place : model.current.place = model.next.place
  le : model.current.time ≤ clock

/-- The model is as the waypoints say that were added. -/
def Follows (start : Waypoint) (rest : List Waypoint) (clock : ℚ) (model : WaypointMobilityModel) :
    Prop :=
  Moving start rest clock model ∨ Ended start rest clock model

variable {start : Waypoint} {rest : List Waypoint} {clock now : ℚ} {model : WaypointMobilityModel}

theorem Moving.mono (moving : Moving start rest clock model) (hle : clock ≤ now) :
    Moving start rest now model :=
  ⟨moving.queue, moving.le, fun t ht => moving.early t (le_trans hle ht),
    fun t ht => moving.line t (le_trans hle ht)⟩

theorem Ended.mono (ended : Ended start rest clock model) (hle : clock ≤ now) :
    Ended start rest now model := by
  obtain ⟨before, last, hsplit, hplace, htime, hhead⟩ := ended.queue
  exact ⟨⟨before, last, hsplit, hplace, le_trans htime hle, hhead⟩, ended.marked, ended.place,
    le_trans ended.le hle⟩

/-- The loop of a model that is on the line to its next waypoint. -/
theorem exists_updateFrom (hascending : Ascending (start :: rest)) {waypoints : List Waypoint}
    (hqueue : ∃ before, start :: rest = before ++ model.next :: waypoints)
    (hcurrent : model.current.time ≤ now) (hle : model.current.time ≤ model.next.time)
    (hline : ∀ t, now ≤ t → t ≤ model.next.time →
      placeFrom start rest t = model.current.place + (t - model.current.time) • model.velocity) :
    ∃ next, updateFrom now model waypoints = some next ∧ Follows start rest now next ∧
      next.current.place = placeFrom start rest now ∧ next.first = model.first := by
  -- a turn of the loop that is not its last one leads to a model of the same kind
  have hmove : ∀ model : WaypointMobilityModel, now < model.next.time →
      (∃ before, start :: rest = before ++ model.next :: model.waypoints) →
      model.current.time ≤ now →
      (∀ t, now ≤ t → t ≤ model.next.time →
        placeFrom start rest t = model.current.place + (t - model.current.time) • model.velocity) →
      Follows start rest now (moveTo now model) ∧
        (moveTo now model).current.place = placeFrom start rest now ∧
          (moveTo now model).first = model.first := by
    intro model hnext hqueue hcurrent hline
    rw [moveTo_eq hcurrent]
    have hnow := hline now (le_refl now) (le_of_lt hnext)
    refine ⟨.inl ⟨hqueue, le_of_lt hnext, fun t hlow hhigh => ?_, fun t hlow _ hhigh => ?_⟩, hnow.symm,
      rfl⟩
    · rw [le_antisymm hhigh hlow]
      exact hnow
    · rw [hline t hlow hhigh]
      dsimp only
      rw [add_assoc, ← add_smul]
      congr 2
      linarith
  induction waypoints generalizing model with
  | nil =>
      rw [updateFrom]
      by_cases hdue : model.next.time ≤ now
      · rw [if_pos hdue, if_pos hle]
        obtain ⟨before, hsplit⟩ := hqueue
        refine ⟨_, rfl, .inr ⟨⟨before, model.next, hsplit, rfl, hdue, fun _ hnone => nomatch hnone⟩,
          rfl, rfl, le_refl now⟩, ?_, rfl⟩
        exact (placeFrom_of_last_le hascending hsplit hdue).symm
      · rw [if_neg hdue]
        exact ⟨_, rfl, hmove { model with waypoints := [] } (not_le.mp hdue) hqueue hcurrent hline⟩
  | cons front waypoints ih =>
      obtain ⟨before, hsplit⟩ := hqueue
      rw [updateFrom]
      by_cases hdue : model.next.time ≤ now
      · rw [if_pos hdue]
        have hfront : model.next.time < front.time := by
          have hsorted : Ascending (before ++ model.next :: front :: waypoints) := hsplit ▸ hascending
          exact List.rel_of_pairwise_cons (List.pairwise_append.mp hsorted).2.1 List.mem_cons_self
        rw [if_pos (sub_pos.mpr hfront)]
        refine ih ⟨before ++ [model.next], by rw [hsplit, List.append_assoc]; rfl⟩ hdue
          (le_of_lt hfront) fun t hlow hhigh => ?_
        dsimp only at hhigh ⊢
        rw [placeFrom_drop hascending hsplit (le_trans hdue hlow),
          placeFrom_cons_of_ge hfront (le_trans hdue hlow) hhigh, line_eq_velocity, velocityOver_eq]
      · rw [if_neg hdue]
        exact ⟨_, rfl, hmove { model with waypoints := front :: waypoints } (not_le.mp hdue)
          ⟨before, hsplit⟩ hcurrent hline⟩

/-- An update puts the node where the waypoints say. -/
theorem Follows.update (follows : Follows start rest clock model)
    (hascending : Ascending (start :: rest)) (hpositive : ∀ knot ∈ start :: rest, 0 ≤ knot.time)
    (hclock : 0 ≤ clock) (hnow : clock ≤ now) :
    ∃ next, model.update now = some next ∧ Follows start rest now next ∧
      next.current.place = placeFrom start rest now ∧ next.first = model.first := by
  rw [WaypointMobilityModel.update]
  rcases follows with moving | ended
  · split
    next hearly =>
      exact ⟨model, rfl, .inl (moving.mono hnow), (moving.early now hnow (le_of_lt hearly)).symm, rfl⟩
    next hcurrent =>
      exact exists_updateFrom hascending moving.queue (not_lt.mp hcurrent) moving.le
        fun t hlow hhigh => moving.line t (le_trans hnow hlow)
          (le_trans (not_lt.mp hcurrent) hlow) hhigh
  · obtain ⟨before, last, hsplit, hplace, hlast, hhead⟩ := ended.queue
    have hmarked := ended.marked
    rw [if_neg (not_lt.mpr (le_trans ended.le hnow))]
    have hdue : model.next.time ≤ now := by linarith
    cases hwaypoints : model.waypoints with
    | nil =>
        rw [hwaypoints] at hsplit
        have hrest := placeFrom_of_last_le hascending hsplit (le_trans hlast hnow)
        rw [updateFrom, if_pos hdue]
        split
        · exact ⟨_, rfl, .inr ⟨⟨before, last, hsplit, hplace, le_trans hlast hnow,
            fun _ hnone => nomatch hnone⟩, rfl, rfl, le_refl now⟩, by rw [hrest, hplace], rfl⟩
        · exact ⟨_, rfl, .inr ⟨⟨before, last, hsplit, hplace, le_trans hlast hnow,
            fun _ hnone => nomatch hnone⟩, hmarked, ended.place, le_refl now⟩,
            by rw [hrest, hplace, ended.place], rfl⟩
    | cons front waypoints =>
        rw [hwaypoints] at hsplit hhead
        have hfront : last.time < front.time := by
          have hsorted : Ascending (before ++ last :: front :: waypoints) := hsplit ▸ hascending
          exact List.rel_of_pairwise_cons (List.pairwise_append.mp hsorted).2.1 List.mem_cons_self
        have hmem : front ∈ start :: rest := by
          rw [hsplit]
          exact List.mem_append_right _ (List.mem_cons_of_mem _ List.mem_cons_self)
        have hpos := hpositive front hmem
        have hsame := hhead front rfl
        rw [updateFrom, if_pos hdue, if_pos (by linarith)]
        refine exists_updateFrom hascending ⟨before ++ [last], by rw [hsplit, List.append_assoc]; rfl⟩
          hdue (by dsimp only; linarith) fun t hlow hhigh => ?_
        dsimp only at hhigh ⊢
        have htime : last.time ≤ t := le_trans hlast (le_trans hnow hlow)
        rw [placeFrom_drop hascending hsplit htime, placeFrom_cons_of_ge hfront htime hhigh,
          line_of_same hsame, velocityOver_eq, hsame, hplace, sub_self, smul_zero, smul_zero, add_zero]

/-- A further waypoint that is in time. -/
theorem Follows.add (follows : Follows start rest clock model)
    (hascending : Ascending (start :: rest)) {before : List Waypoint} {last waypoint : Waypoint}
    (hlast : start :: rest = before ++ [last]) (hnow : clock ≤ now)
    (hinTime : now < last.time ∨ waypoint.place = last.place) :
    Follows start (rest ++ [waypoint]) now
      { model with waypoints := model.waypoints ++ [waypoint] } := by
  have hkept : ∀ t, t ≤ last.time →
      placeFrom start (rest ++ [waypoint]) t = placeFrom start rest t := fun t =>
    placeFrom_append_of_le hascending hlast
  rcases follows with moving | ended
  · obtain ⟨before', hsplit⟩ := moving.queue
    have hnext : model.next.time ≤ last.time := by
      have hsorted : Ascending (before' ++ model.next :: model.waypoints) := hsplit ▸ hascending
      have hmem : last ∈ model.next :: model.waypoints := by
        have heq : before' ++ model.next :: model.waypoints = before ++ [last] := hsplit ▸ hlast
        have hget := congrArg List.getLast? heq
        rw [List.getLast?_append_cons, List.getLast?_append_cons, List.getLast?_singleton] at hget
        exact List.mem_of_getLast? hget
      rcases List.mem_cons.mp hmem with heq | hmem
      · rw [heq]
      · exact le_of_lt (List.rel_of_pairwise_cons (List.pairwise_append.mp hsorted).2.1 hmem)
    refine .inl ⟨⟨before', ?_⟩, moving.le, fun t hlow hhigh => ?_, fun t hlow hcurrent hhigh => ?_⟩
    · rw [← List.cons_append, hsplit, List.append_assoc]
      rfl
    · rw [hkept t (le_trans hhigh (le_trans moving.le hnext))]
      exact moving.early t (le_trans hnow hlow) hhigh
    · rw [hkept t (le_trans hhigh hnext)]
      exact moving.line t (le_trans hnow hlow) hcurrent hhigh
  · obtain ⟨before', last', hsplit, hplace, htime, hhead⟩ := ended.queue
    refine .inr ⟨⟨before', last', ?_, hplace, le_trans htime hnow, fun first hfirst => ?_⟩,
      ended.marked, ended.place, le_trans ended.le hnow⟩
    · rw [← List.cons_append, hsplit, List.append_assoc]
      rfl
    · dsimp only at hfirst
      cases hwaypoints : model.waypoints with
      | nil =>
          rw [hwaypoints] at hsplit hfirst
          obtain rfl := Option.some.inj hfirst
          obtain rfl : last' = last := by
            have hget := congrArg List.getLast? (hsplit.symm.trans hlast)
            rw [List.getLast?_append_cons, List.getLast?_append_cons] at hget
            exact Option.some.inj hget
          exact hinTime.resolve_left (not_lt.mpr (le_trans htime hnow))
      | cons front waypoints =>
          rw [hwaypoints] at hfirst hhead
          exact hhead first hfirst

end WaypointMobilityModel

/-! ## Runs of schedules that are in time -/

/-- The place on the waypoints of a schedule. -/
def placeOn : List (ℚ × Waypoint) → ℚ → Vector3D
  | [], _ => 0
  | (_, waypoint) :: rest, t => placeFrom waypoint (rest.map Prod.snd) t

/-- The model is as a schedule says. -/
def ModelSound (clock : ℚ) (model : WaypointMobilityModel) : List (ℚ × Waypoint) → Prop
  | [] => model.first = true ∧ model.waypoints = [] ∧ model.current.place = 0 ∧
      model.next.place = 0 ∧ model.velocity = 0
  | (_, waypoint) :: rest => model.first = false ∧ Follows waypoint (rest.map Prod.snd) clock model

variable {schedule : List (ℚ × Waypoint)} {clock now : ℚ} {model : WaypointMobilityModel}

theorem Valid.of_append {later : List (ℚ × Waypoint)} (valid : Valid (schedule ++ later)) :
    Valid schedule where
  ordered := (List.pairwise_append.mp valid.ordered).1
  ascending := by
    have hascending := valid.ascending
    rw [List.map_append] at hascending
    exact (List.pairwise_append.mp hascending).1
  ahead := fun addition hmem => valid.ahead addition (List.mem_append_left _ hmem)

theorem ModelSound.update (sound : ModelSound clock model schedule) (valid : Valid schedule)
    (hclock : 0 ≤ clock) (hnow : clock ≤ now) :
    ∃ next, model.update now = some next ∧ ModelSound now next schedule ∧
      next.current.place = placeOn schedule now := by
  cases schedule with
  | nil =>
      obtain ⟨hfirst, hwaypoints, hcurrent, hnext, hvelocity⟩ := sound
      rw [WaypointMobilityModel.update, hwaypoints]
      split
      · exact ⟨model, rfl, ⟨hfirst, hwaypoints, hcurrent, hnext, hvelocity⟩, hcurrent⟩
      · rw [updateFrom]
        split
        · split
          · exact ⟨_, rfl, ⟨hfirst, rfl, hnext, hnext, rfl⟩, hnext⟩
          · exact ⟨_, rfl, ⟨hfirst, rfl, hcurrent, hnext, hvelocity⟩, hcurrent⟩
        next hcurrentTime _ =>
          have hplace : model.current.place + (now - model.current.time) • model.velocity = 0 := by
            rw [hcurrent, hvelocity, smul_zero, add_zero]
          have hmove := @moveTo_eq now { model with waypoints := [] } (not_lt.mp hcurrentTime)
          rw [hmove]
          exact ⟨_, rfl, ⟨hfirst, rfl, hplace, hnext, hvelocity⟩, hplace⟩
  | cons addition rest =>
      obtain ⟨hfirst, hfollows⟩ := sound
      have hpositive : ∀ knot ∈ addition.2 :: rest.map Prod.snd, 0 ≤ knot.time := fun knot hmem => by
        obtain ⟨other, hother, rfl⟩ := List.mem_map.mp (List.map_cons ▸ hmem)
        exact le_trans (valid.ahead other hother).1 (valid.ahead other hother).2
      obtain ⟨next, hnext, hfollows', hplace, hfirst'⟩ :=
        hfollows.update valid.ascending hpositive hclock hnow
      exact ⟨next, hnext, ⟨hfirst'.trans hfirst, hfollows'⟩, hplace⟩

theorem ModelSound.mem_of_waypoints (sound : ModelSound clock model schedule) {waypoint : Waypoint}
    (hmem : waypoint ∈ model.waypoints) : waypoint ∈ schedule.map Prod.snd := by
  cases schedule with
  | nil =>
      rw [sound.2.1] at hmem
      exact absurd hmem List.not_mem_nil
  | cons addition rest =>
      have hqueue : ∃ before knot, addition.2 :: rest.map Prod.snd = before ++ knot :: model.waypoints := by
        rcases sound.2 with moving | ended
        · obtain ⟨before, hsplit⟩ := moving.queue
          exact ⟨before, _, hsplit⟩
        · obtain ⟨before, last, hsplit, -⟩ := ended.queue
          exact ⟨before, last, hsplit⟩
      obtain ⟨before, knot, hsplit⟩ := hqueue
      rw [List.map_cons, hsplit]
      exact List.mem_append_right _ (List.mem_cons_of_mem _ hmem)

theorem ModelSound.add (sound : ModelSound clock model schedule) {waypoint : Waypoint}
    (valid : Valid (schedule ++ [(now, waypoint)])) (inTime : InTime (schedule ++ [(now, waypoint)]))
    (hnow : clock ≤ now) :
    ∃ next, model.addWaypoint waypoint now = some next ∧
      ModelSound now next (schedule ++ [(now, waypoint)]) := by
  have hahead : ¬ waypoint.time - now < 0 := by
    have := (valid.ahead (now, waypoint) (List.mem_append_right _ (List.mem_singleton_self _))).2
    exact not_lt.mpr (sub_nonneg.mpr this)
  have hascending := valid.ascending
  rw [List.map_append, List.map_singleton] at hascending
  have hlater : ¬ ∃ last ∈ model.waypoints.getLast?, waypoint.time ≤ last.time := by
    rintro ⟨last, hlast, hle⟩
    have hmem := sound.mem_of_waypoints (List.mem_of_getLast? hlast)
    have hlt := (List.pairwise_append.mp hascending).2.2 last hmem waypoint
      (List.mem_singleton_self _)
    exact absurd hle (not_le.mpr hlt)
  have hguard : ¬ (!model.lazyNotify && decide (waypoint.time - now < 0)) = true := by
    rw [decide_eq_false hahead, Bool.and_false]
    exact Bool.false_ne_true
  rw [addWaypoint, if_neg hguard]
  cases schedule with
  | nil =>
      obtain ⟨hfirst, hwaypoints, -⟩ := sound
      refine ⟨_, if_pos hfirst, rfl, .inl ⟨⟨[], ?_⟩, le_refl _, fun t _ ht => ?_, fun t _ hlow hhigh => ?_⟩⟩
      · rw [hwaypoints]
        rfl
      · exact placeFrom_of_le ht
      · rw [le_antisymm hhigh hlow, sub_self, zero_smul, add_zero]
        exact placeFrom_of_le (le_refl _)
  | cons addition rest =>
      obtain ⟨hfirst, hfollows⟩ := sound
      rw [if_neg (by rw [hfirst]; exact Bool.false_ne_true), if_neg hlater]
      refine ⟨_, rfl, hfirst, ?_⟩
      obtain ⟨before, last, hlast⟩ : ∃ before last, addition :: rest = before ++ [last] :=
        ⟨_, _, (List.dropLast_append_getLast (List.cons_ne_nil addition rest)).symm⟩
      have hrelated : now < last.2.time ∨ waypoint.place = last.2.place := by
        refine (List.isChain_append.mp inTime).2.2 last ?_ (now, waypoint) rfl
        rw [hlast]
        exact List.getLast?_concat
      have hmap : addition.2 :: rest.map Prod.snd = before.map Prod.snd ++ [last.2] := by
        rw [← List.map_cons, hlast, List.map_append, List.map_singleton]
      show Follows addition.2 ((rest ++ [(now, waypoint)]).map Prod.snd) now _
      rw [List.map_append]
      exact hfollows.add (List.pairwise_append.mp hascending).1 hmap hnow hrelated

/-- The node is as a schedule says. -/
structure Sound (schedule : List (ℚ × Waypoint)) (node : Node) : Prop where
  clock : 0 ≤ node.clock
  added : node.added = schedule.length
  model : ∃ model, node.model = some model ∧ ModelSound node.clock model schedule
  observed : ∀ seen ∈ node.observed, seen.added ≤ node.added ∧ seen.time ≤ node.clock ∧
    seen.position = if seen.added = 0 then 0 else placeOn schedule seen.time

/-- A further waypoint does not change the places of the past. -/
theorem placeOn_append {waypoint : Waypoint} (valid : Valid (schedule ++ [(now, waypoint)]))
    (inTime : InTime (schedule ++ [(now, waypoint)])) (hne : schedule ≠ []) {t : ℚ} (ht : t ≤ now) :
    placeOn (schedule ++ [(now, waypoint)]) t = placeOn schedule t := by
  obtain ⟨before, last, hlast⟩ : ∃ before last, schedule = before ++ [last] :=
    ⟨_, _, (List.dropLast_append_getLast hne).symm⟩
  have hrelated : now < last.2.time ∨ waypoint.place = last.2.place := by
    refine (List.isChain_append.mp inTime).2.2 last ?_ (now, waypoint) rfl
    rw [hlast]
    exact List.getLast?_concat
  have hascending := valid.of_append.ascending
  cases schedule with
  | nil => exact absurd rfl hne
  | cons addition rest =>
      have hmap : addition.2 :: rest.map Prod.snd = before.map Prod.snd ++ [last.2] := by
        rw [← List.map_cons, hlast, List.map_append, List.map_singleton]
      rw [List.cons_append, placeOn, placeOn, List.map_append, List.map_singleton]
      rcases hrelated with hlt | hsame
      · exact placeFrom_append_of_le hascending hmap (le_trans ht (le_of_lt hlt))
      · exact placeFrom_append_of_same hascending hmap hsame t

theorem additions_append (run later : List (ℚ × Call)) :
    additions (run ++ later) = additions run ++ additions later := List.filterMap_append

theorem InTime.of_append {later : List (ℚ × Waypoint)} (inTime : InTime (schedule ++ later)) :
    InTime schedule :=
  (List.isChain_append.mp inTime).1

/-- A step of a schedule that is in time. -/
theorem Sound.step {node next : Node} {event : ℚ × Call} (sound : Sound schedule node)
    (valid : Valid (schedule ++ additions [event])) (inTime : InTime (schedule ++ additions [event]))
    (hstep : node.step event = some next) : Sound (schedule ++ additions [event]) next := by
  obtain ⟨time, call⟩ := event
  obtain ⟨model, hmodel, hsound⟩ := sound.model
  rw [Node.step] at hstep
  split at hstep
  next hguard =>
    rw [hmodel] at hstep
    obtain rfl := Option.some.inj hstep
    have hclock : node.clock ≤ time := hguard.1
    have hobserved : ∀ seen ∈ node.observed, seen.added ≤ node.added ∧ seen.time ≤ time ∧
        seen.position = if seen.added = 0 then 0 else placeOn schedule seen.time :=
      fun seen hmem => by
        obtain ⟨hadded, htime, hposition⟩ := sound.observed seen hmem
        exact ⟨hadded, le_trans htime hclock, hposition⟩
    obtain ⟨updated, hupdated, hupdatedSound, hplace⟩ :=
      hsound.update valid.of_append sound.clock hclock
    cases call with
    | addWaypoint waypoint =>
        obtain ⟨added, hadded, haddedSound⟩ := hsound.add valid inTime hclock
        refine ⟨le_trans sound.clock hclock, ?_, ⟨added, hadded, haddedSound⟩, fun seen hmem => ?_⟩
        · rw [List.length_append]
          exact congrArg (· + 1) sound.added
        · obtain ⟨hle, htime, hposition⟩ := hobserved seen hmem
          refine ⟨Nat.le_succ_of_le hle, htime, ?_⟩
          rw [hposition]
          by_cases hzero : seen.added = 0
          · rw [if_pos hzero, if_pos hzero]
          · rw [if_neg hzero, if_neg hzero]
            refine (placeOn_append valid inTime (fun hnil => hzero ?_) htime).symm
            rw [sound.added, hnil] at hle
            exact Nat.le_zero.mp hle
    | getPosition =>
        rw [show schedule ++ additions [(time, Call.getPosition)] = schedule from List.append_nil _]
        refine ⟨le_trans sound.clock hclock, sound.added, ⟨updated, hupdated, hupdatedSound⟩,
          fun seen hmem => ?_⟩
        dsimp only [Node.perform] at hmem
        rw [hupdated] at hmem
        rcases List.mem_append.mp hmem with hmem | hmem
        · exact hobserved seen hmem
        · obtain rfl := List.mem_singleton.mp hmem
          refine ⟨Nat.le_refl _, le_refl _, ?_⟩
          dsimp only
          rw [hplace]
          split
          next hzero =>
            rw [sound.added] at hzero
            rw [List.eq_nil_of_length_eq_zero hzero]
            rfl
          next => rfl
    | getVelocity =>
        rw [show schedule ++ additions [(time, Call.getVelocity)] = schedule from List.append_nil _]
        refine ⟨le_trans sound.clock hclock, sound.added, ⟨model, hmodel, ?_⟩, hobserved⟩
        cases schedule with
        | nil => exact hsound
        | cons addition rest =>
            obtain ⟨hfirst, moving | ended⟩ := hsound
            · exact ⟨hfirst, .inl (moving.mono hclock)⟩
            · exact ⟨hfirst, .inr (ended.mono hclock)⟩
    | waypointsLeft =>
        rw [show schedule ++ additions [(time, Call.waypointsLeft)] = schedule from List.append_nil _]
        exact ⟨le_trans sound.clock hclock, sound.added, ⟨updated, hupdated, hupdatedSound⟩, hobserved⟩
    | update =>
        rw [show schedule ++ additions [(time, Call.update)] = schedule from List.append_nil _]
        exact ⟨le_trans sound.clock hclock, sound.added, ⟨updated, hupdated, hupdatedSound⟩, hobserved⟩
  next => cases hstep

/-- Runs of a schedule that is in time. -/
theorem sound_of_run {lazyNotify : Bool} {run : List (ℚ × Call)} {last : Node}
    (valid : Valid (additions run)) (inTime : InTime (additions run))
    (hrun : Foundation.Runs.runFrom Node.step (Node.start lazyNotify) run = some last) :
    Sound (additions run) last := by
  have hstart : Sound [] (Node.start lazyNotify) :=
    ⟨le_refl _, rfl, ⟨_, rfl, rfl, rfl, rfl, rfl, rfl⟩, fun _ hmem => absurd hmem List.not_mem_nil⟩
  refine Foundation.Runs.history_invariant Node.step
    (fun past node => Valid (additions past) → InTime (additions past) → Sound (additions past) node)
    (fun past node event next hinvariant hstep valid inTime => ?_) [] (fun _ _ => hstart) hrun valid inTime
  rw [additions_append] at valid inTime ⊢
  exact (hinvariant valid.of_append inTime.of_append).step valid inTime hstep

/-- The motion of a schedule that is in time goes along its waypoints. -/
theorem trajectoryFrom_eq {call : ℚ} {reached : Waypoint} {rest : List (ℚ × Waypoint)}
    (inTime : InTime ((call, reached) :: rest)) (hascending : Ascending (reached :: rest.map Prod.snd))
    (hahead : ∀ addition ∈ rest, addition.1 ≤ addition.2.time) (t : ℚ) :
    trajectoryFrom reached rest t = placeFrom reached (rest.map Prod.snd) t := by
  induction rest generalizing call reached with
  | nil => rfl
  | cons addition rest ih =>
      obtain ⟨later, waypoint⟩ := addition
      obtain ⟨hrelated, hchain⟩ := List.isChain_cons_cons.mp inTime
      have hnext := ih hchain (List.pairwise_cons.mp hascending).2
        fun other hmem => hahead other (List.mem_cons_of_mem _ hmem)
      rw [trajectoryFrom, List.map_cons, placeFrom, hnext]
      rcases hrelated with hlt | hsame
      · rw [max_eq_left (le_of_lt hlt)]
      · have hfirst : ∀ time, line ⟨time, reached.place⟩ waypoint t = reached.place := fun time =>
          line_of_same (a := ⟨time, reached.place⟩) hsame t
        rw [hfirst, hfirst]
        by_cases hearly : t ≤ reached.time
        · rw [if_pos hearly, if_pos (le_trans hearly (le_max_left ..))]
        · rw [if_neg hearly]
          by_cases hcall : t ≤ max reached.time later
          · rw [if_pos hcall]
            split
            · rfl
            next hdue =>
              have hle : t ≤ waypoint.time :=
                le_trans hcall (max_le (le_of_lt (List.rel_of_pairwise_cons hascending List.mem_cons_self))
                  (hahead _ List.mem_cons_self))
              rw [placeFrom_of_le hle, hsame]
          · rw [if_neg hcall]

theorem trajectory_eq (valid : Valid schedule) (inTime : InTime schedule) (t : ℚ) :
    trajectory schedule t = placeOn schedule t := by
  cases schedule with
  | nil => rfl
  | cons addition rest =>
      exact trajectoryFrom_eq inTime valid.ascending
        (fun other hmem => (valid.ahead other (List.mem_cons_of_mem _ hmem)).2) t

theorem unobserved_of_inTime (valid : Valid schedule) (inTime : InTime schedule) :
    Unobserved schedule := by
  have hseen : ∀ lazyNotify run last, additions run = schedule →
      Foundation.Runs.runFrom Node.step (Node.start lazyNotify) run = some last →
        ∀ seen ∈ last.observed,
          seen.position = if seen.added = 0 then 0 else trajectory schedule seen.time := by
    rintro lazyNotify run last rfl hrun seen hmem
    rw [trajectory_eq valid inTime]
    exact ((sound_of_run valid inTime hrun).observed seen hmem).2.2
  refine ⟨?_, hseen, ?_⟩
  · rintro lazyNotify run last rfl hrun hnone
    obtain ⟨model, hmodel, -⟩ := (sound_of_run valid inTime hrun).model
    exact nomatch hmodel.symm.trans hnone
  · intro lazyNotify run last lazyNotify' run' last' hadditions hadditions' hrun hrun' seen hmem
      seen' hmem' htime hadded
    rw [hseen lazyNotify run last hadditions hrun seen hmem,
      hseen lazyNotify' run' last' hadditions' hrun' seen' hmem', htime]
    exact if_congr hadded rfl rfl

/-! ## A waypoint that is added too late -/

/-- The event of an addition. -/
def addEvent (addition : ℚ × Waypoint) : ℚ × Call := (addition.1, .addWaypoint addition.2)

theorem additions_addEvents (schedule : List (ℚ × Waypoint)) :
    additions (schedule.map addEvent) = schedule := by
  rw [additions, List.filterMap_map]
  exact List.filterMap_some

/-- Additions with nobody asking. -/
theorem exists_runFrom_additions {later : List (ℚ × Waypoint)} {node : Node}
    {model : WaypointMobilityModel} (hmodel : node.model = some model) (hfirst : model.first = false)
    (hlazy : model.lazyNotify = true) (hpending : node.pending = [])
    (hordered : (node.clock :: later.map Prod.fst).Pairwise (· ≤ ·))
    (hascending : Ascending (model.waypoints ++ later.map Prod.snd)) :
    ∃ last, Foundation.Runs.runFrom Node.step node (later.map addEvent) = some last ∧
      last.model = some { model with waypoints := model.waypoints ++ later.map Prod.snd } ∧
      last.pending = [] ∧ last.observed = node.observed ∧
      last.added = node.added + later.length ∧
      ∀ t, node.clock ≤ t → (∀ addition ∈ later, addition.1 ≤ t) → last.clock ≤ t := by
  induction later generalizing node model with
  | nil =>
      refine ⟨node, rfl, ?_, hpending, rfl, rfl, fun t ht _ => ht⟩
      rw [hmodel, List.map_nil, List.append_nil]
  | cons addition later ih =>
      obtain ⟨call, waypoint⟩ := addition
      rw [List.map_cons] at hordered hascending
      obtain ⟨hclock, hrest⟩ := List.pairwise_cons.mp hordered
      have hcall : node.clock ≤ call := hclock call List.mem_cons_self
      have hlater : ¬ ∃ last ∈ model.waypoints.getLast?, waypoint.time ≤ last.time := by
        rintro ⟨last, hlast, hle⟩
        have hlt := (List.pairwise_append.mp hascending).2.2 last (List.mem_of_getLast? hlast) waypoint
          List.mem_cons_self
        exact absurd hle (not_le.mpr hlt)
      have hadd : model.addWaypoint waypoint call =
          some { model with waypoints := model.waypoints ++ [waypoint] } := by
        rw [addWaypoint, hlazy, hfirst, Bool.not_true, Bool.false_and]
        exact if_neg hlater
      have hstep : node.step (addEvent (call, waypoint)) =
          some (node.perform call model (.addWaypoint waypoint)) := by
        rw [Node.step, if_pos, hmodel]
        · rfl
        · exact ⟨hcall, by rw [hpending]; exact fun _ hmem => absurd hmem List.not_mem_nil,
            fun hupdate => nomatch hupdate⟩
      have hnext : (node.perform call model (.addWaypoint waypoint)).pending = [] := by
        dsimp only [Node.perform]
        rw [if_pos hlazy, hpending]
      obtain ⟨last, hrun, hlast, hpending', hobserved, hadded, htime⟩ :=
        @ih (node.perform call model (.addWaypoint waypoint)) _ hadd hfirst hlazy hnext hrest
          (by rw [List.append_assoc]; exact hascending)
      refine ⟨last, (Foundation.Runs.runFrom_cons_of_step Node.step hstep _).trans hrun, ?_, hpending',
        hobserved, ?_, fun t _ hall => ?_⟩
      · rw [hlast, List.map_cons, List.append_assoc]
        rfl
      · rw [hadded, List.length_cons, Nat.add_comm later.length]
        exact Nat.add_assoc ..
      · exact htime t (hall _ List.mem_cons_self)
          fun other hmem => hall other (List.mem_cons_of_mem _ hmem)

/-- An update when all waypoints are over. -/
theorem updateFrom_over {waypoints before : List Waypoint} {last : Waypoint} {now : ℚ}
    {model : WaypointMobilityModel} (hle : model.current.time ≤ model.next.time)
    (hascending : Ascending (model.next :: waypoints)) (hlast : model.next :: waypoints = before ++ [last])
    (hover : last.time ≤ now) :
    updateFrom now model waypoints =
      some { model with
        waypoints := []
        next := ⟨-1, last.place⟩
        current := ⟨now, last.place⟩
        velocity := 0 } := by
  induction waypoints generalizing model before with
  | nil =>
      obtain rfl : model.next = last := by
        have hget := congrArg List.getLast? hlast
        rw [List.getLast?_concat] at hget
        exact Option.some.inj hget
      rw [updateFrom, if_pos hover, if_pos hle]
  | cons front waypoints ih =>
      cases before with
      | nil => exact absurd (List.cons.inj hlast).2 (List.cons_ne_nil _ _)
      | cons other before =>
          obtain ⟨hfront, htail⟩ := List.pairwise_cons.mp hascending
          have hmem : last ∈ front :: waypoints := by
            rw [(List.cons.inj hlast).2]
            exact List.mem_append_right _ (List.mem_singleton_self _)
          have hdue : model.next.time ≤ now := le_trans (le_of_lt (hfront last hmem)) hover
          rw [updateFrom, if_pos hdue, if_pos (sub_pos.mpr (hfront front List.mem_cons_self))]
          exact ih (le_of_lt (hfront front List.mem_cons_self)) htail (List.cons.inj hlast).2

/-- A waypoint of another place that is added when all others are over moves the node at once. -/
theorem exists_update_jump {now : ℚ} {place : Vector3D} {waypoint : Waypoint}
    {model : WaypointMobilityModel} (hnow : 0 ≤ now) (hahead : now ≤ waypoint.time)
    (hplace : waypoint.place ≠ place)
    (hmodel : model.current = ⟨now, place⟩ ∧ model.next = ⟨-1, place⟩ ∧ model.waypoints = [waypoint]) :
    ∃ next, model.update now = some next ∧ next.first = model.first ∧
      next.lazyNotify = model.lazyNotify ∧ next.waypoints = [] ∧ next.current.place ≠ place := by
  obtain ⟨hcurrent, hnext, hwaypoints⟩ := hmodel
  have hdue : model.next.time ≤ now := by
    rw [hnext]
    dsimp only
    linarith
  have hspan : 0 < waypoint.time - model.next.time := by
    rw [hnext]
    dsimp only
    linarith
  rw [update, hcurrent, if_neg (lt_irrefl now), hwaypoints, updateFrom, if_pos hdue, if_pos hspan,
    updateFrom]
  by_cases hover : waypoint.time ≤ now
  · rw [if_pos hover, if_pos (le_of_lt (sub_pos.mp hspan))]
    exact ⟨_, rfl, rfl, rfl, rfl, hplace⟩
  · rw [if_neg hover, moveTo_eq hdue]
    refine ⟨_, rfl, rfl, rfl, rfl, fun hsame => ?_⟩
    rw [hnext, velocityOver_eq] at hsame
    have hzero := add_eq_left.mp hsame
    rw [smul_eq_zero, smul_eq_zero, inv_eq_zero, sub_eq_zero (a := waypoint.place)] at hzero
    rcases hzero with hzero | hzero | hzero
    · dsimp only at hzero
      linarith
    · dsimp only at hzero
      linarith
    · exact hplace hzero

theorem Valid.pairwise_calls (valid : Valid schedule) {addition : ℚ × Waypoint}
    (hbefore : ∀ other ∈ schedule, addition.1 ≤ other.1) :
    (addition.1 :: schedule.map Prod.fst).Pairwise (· ≤ ·) := by
  refine List.pairwise_cons.mpr ⟨fun call hmem => ?_, List.pairwise_map.mpr valid.ordered⟩
  obtain ⟨other, hother, rfl⟩ := List.mem_map.mp hmem
  exact hbefore other hother

theorem Valid.of_append_right {earlier : List (ℚ × Waypoint)} (valid : Valid (earlier ++ schedule)) :
    Valid schedule where
  ordered := (List.pairwise_append.mp valid.ordered).2.1
  ascending := by
    have hascending := valid.ascending
    rw [List.map_append] at hascending
    exact (List.pairwise_append.mp hascending).2.1
  ahead := fun addition hmem => valid.ahead addition (List.mem_append_right _ hmem)

/-- A question of a node of that model that nothing is pending for. -/
theorem step_getPosition {node : Node} {model next : WaypointMobilityModel} {now : ℚ}
    (hmodel : node.model = some model) (hpending : node.pending = []) (hclock : node.clock ≤ now)
    (hupdate : model.update now = some next) :
    node.step (now, .getPosition) = some { node with
      model := some next
      clock := now
      observed := node.observed ++
        [{ added := node.added, time := now, position := next.current.place }] } := by
  rw [Node.step, if_pos, hmodel]
  · dsimp only [Node.perform]
    rw [hupdate]
    rfl
  · exact ⟨hclock, by rw [hpending]; exact fun _ hmem => absurd hmem List.not_mem_nil,
      fun hupdate => nomatch hupdate⟩

/-- A question when all waypoints are over, the first one since the start. -/
theorem exists_run_over {before : List (ℚ × Waypoint)} {earlier : ℚ × Waypoint} {now : ℚ}
    (valid : Valid (before ++ [earlier])) (hnow : ∀ addition ∈ before ++ [earlier], addition.1 ≤ now)
    (hover : earlier.2.time ≤ now) :
    ∃ run node model, additions run = before ++ [earlier] ∧
      Foundation.Runs.runFrom Node.step (Node.start true) run = some node ∧
      node.model = some model ∧ node.pending = [] ∧ node.clock = now ∧ node.added ≠ 0 ∧
      node.observed = [⟨node.added, now, earlier.2.place⟩] ∧
      model.first = false ∧ model.lazyNotify = true ∧ model.waypoints = [] ∧
      model.current = ⟨now, earlier.2.place⟩ ∧ model.next = ⟨-1, earlier.2.place⟩ := by
  obtain ⟨first, rest, hfirst⟩ : ∃ first rest, before ++ [earlier] = first :: rest := by
    cases before with
    | nil => exact ⟨earlier, [], rfl⟩
    | cons first before => exact ⟨first, before ++ [earlier], rfl⟩
  have hlast : first.2 :: rest.map Prod.snd = before.map Prod.snd ++ [earlier.2] := by
    rw [← List.map_cons, ← hfirst, List.map_append, List.map_singleton]
  rw [hfirst] at valid hnow
  have hordered := List.pairwise_cons.mp valid.ordered
  let model : WaypointMobilityModel :=
    { first := false, lazyNotify := true, current := first.2, next := first.2 }
  let ended : WaypointMobilityModel :=
    { model with next := ⟨-1, earlier.2.place⟩, current := ⟨now, earlier.2.place⟩, velocity := 0 }
  let started : Node := { model := some model, clock := first.1, added := 1 }
  have hstart : (Node.start true).step (addEvent first) = some started := by
    rw [Node.step, if_pos]
    · rfl
    · exact ⟨(valid.ahead first List.mem_cons_self).1, fun _ hmem => absurd hmem List.not_mem_nil,
        fun hupdate => nomatch hupdate⟩
  have hrestValid : Valid rest := (List.singleton_append ▸ valid : Valid ([first] ++ rest)).of_append_right
  obtain ⟨reached, hreached, hmodel, hpending, hobserved, hadded, hclock⟩ :=
    @exists_runFrom_additions rest started model rfl rfl rfl rfl
      (hrestValid.pairwise_calls hordered.1) hrestValid.ascending
  have hupdate : ({ model with waypoints := rest.map Prod.snd } : WaypointMobilityModel).update now =
      some ended := by
    have hcurrent : first.2.time ≤ now := by
      have hmem : earlier.2 ∈ first.2 :: rest.map Prod.snd := by
        rw [hlast]
        exact List.mem_append_right _ (List.mem_singleton_self _)
      rcases List.mem_cons.mp hmem with heq | hmem
      · exact heq ▸ hover
      · exact le_trans (le_of_lt (List.rel_of_pairwise_cons valid.ascending hmem)) hover
    rw [WaypointMobilityModel.update, if_neg (not_lt.mpr hcurrent)]
    exact updateFrom_over (le_refl _) valid.ascending hlast hover
  have hasked := step_getPosition hmodel hpending
    (hclock now (hnow first List.mem_cons_self) fun other hmem =>
      hnow other (List.mem_cons_of_mem _ hmem)) hupdate
  refine ⟨[addEvent first] ++ (rest.map addEvent ++ [(now, .getPosition)]),
    { reached with
      model := some ended
      clock := now
      observed := reached.observed ++ [⟨reached.added, now, earlier.2.place⟩] }, ended, ?_,
    (Foundation.Runs.runFrom_cons_of_step Node.step hstart _).trans
      (Foundation.Runs.runFrom_snoc Node.step hreached hasked), rfl, hpending, rfl, ?_, ?_, rfl, rfl, rfl,
    rfl, rfl⟩
  · rw [additions_append, additions_append, additions_addEvents, hfirst]
    exact congrArg (first :: ·) (List.append_nil rest)
  · rw [hadded]
    exact Nat.ne_of_gt (Nat.lt_of_lt_of_le Nat.one_pos (Nat.le_add_right _ _))
  · rw [hobserved]
    rfl

/-- Two answers at one time, before and behind a waypoint that is added too late. -/
theorem exists_run_jump {before after : List (ℚ × Waypoint)} {earlier later : ℚ × Waypoint}
    (valid : Valid (before ++ earlier :: later :: after)) (hlate : earlier.2.time ≤ later.1)
    (hplace : later.2.place ≠ earlier.2.place) :
    ∃ run last, additions run = before ++ earlier :: later :: after ∧
      Foundation.Runs.runFrom Node.step (Node.start true) run = some last ∧
      ∃ seen ∈ last.observed, ∃ seen' ∈ last.observed, seen.time = seen'.time ∧
        seen.added ≠ 0 ∧ seen'.added ≠ 0 ∧ seen.position ≠ seen'.position := by
  have hsplit : before ++ earlier :: later :: after = before ++ [earlier] ++ later :: after := by
    rw [List.append_assoc]
    rfl
  rw [hsplit] at valid
  obtain ⟨-, hright, hcross⟩ := List.pairwise_append.mp valid.ordered
  obtain ⟨hlaterAfter, -⟩ := List.pairwise_cons.mp hright
  have hlaterValid : Valid ([later] ++ after) := valid.of_append_right
  have hahead := hlaterValid.ahead later (List.mem_append_left _ (List.mem_singleton_self _))
  obtain ⟨run, asked, ended, hadditions, hrun, hended, hpending, hclock, hadded, hobserved, hfirst,
      hlazy, hwaypoints, hcurrent, hnext⟩ :=
    exists_run_over valid.of_append (fun other hmem => hcross other hmem later List.mem_cons_self) hlate
  -- the late waypoint, and the second question
  obtain ⟨added, haddedRun, haddedModel, haddedPending, haddedObserved, haddedAdded, haddedClock⟩ :=
    @exists_runFrom_additions [later] asked ended hended hfirst hlazy hpending
      (List.pairwise_cons.mpr ⟨fun call hmem => by rw [hclock, List.mem_singleton.mp hmem],
        List.pairwise_singleton _ _⟩) (by rw [hwaypoints]; exact List.pairwise_singleton _ _)
  obtain ⟨jumped, hjumped, hjumpedFirst, hjumpedLazy, hjumpedWaypoints, hjumpedPlace⟩ :=
    @exists_update_jump later.1 earlier.2.place later.2
      { ended with waypoints := ended.waypoints ++ [later].map Prod.snd } hahead.1 hahead.2 hplace
      ⟨hcurrent, hnext, by rw [hwaypoints]; rfl⟩
  have hanswered := step_getPosition haddedModel haddedPending
    (haddedClock later.1 (le_of_eq hclock) fun other hmem => by rw [List.mem_singleton.mp hmem]) hjumped
  -- the other waypoints
  obtain ⟨last, hlastRun, -, -, hlastObserved, -⟩ :=
    @exists_runFrom_additions after { added with
        model := some jumped
        clock := later.1
        observed := added.observed ++
          [{ added := added.added, time := later.1, position := jumped.current.place }] }
      jumped rfl (hjumpedFirst.trans hfirst) (hjumpedLazy.trans hlazy) haddedPending
      (hlaterValid.of_append_right.pairwise_calls hlaterAfter)
      (by rw [hjumpedWaypoints]; exact hlaterValid.of_append_right.ascending)
  rw [haddedObserved, hobserved] at hlastObserved
  refine ⟨run ++ ([later].map addEvent ++ [(later.1, .getPosition)] ++ after.map addEvent), last, ?_,
    ?_, ⟨asked.added, later.1, earlier.2.place⟩, ?_, ⟨added.added, later.1, jumped.current.place⟩, ?_, rfl,
    hadded, ?_, fun heq => hjumpedPlace heq.symm⟩
  · rw [additions_append, additions_append, additions_append, additions_addEvents, additions_addEvents,
      hadditions, hsplit]
    rfl
  · exact Foundation.Runs.runFrom_append Node.step hrun
      (Foundation.Runs.runFrom_append Node.step
        (Foundation.Runs.runFrom_snoc Node.step haddedRun hanswered) hlastRun)
  · rw [hlastObserved]
    exact List.mem_cons_self
  · rw [hlastObserved]
    exact List.mem_cons_of_mem _ (List.mem_singleton_self _)
  · rw [haddedAdded]
    exact Nat.succ_ne_zero _

/-- The positions do not depend on the questions exactly when every waypoint is added in time. -/
theorem unobserved_iff_inTime (valid : Valid schedule) : Unobserved schedule ↔ InTime schedule := by
  refine ⟨fun unobserved => ?_, unobserved_of_inTime valid⟩
  refine List.isChain_iff_forall_rel_of_append_cons_cons.mpr fun earlier later before after hsplit => ?_
  by_contra hnot
  obtain ⟨hlate, hplace⟩ := not_or.mp hnot
  obtain ⟨run, last, hadditions, hrun, seen, hseen, seen', hseen', htime, hadded, hadded', hne⟩ :=
    exists_run_jump (hsplit ▸ valid) (not_lt.mp hlate) hplace
  rw [← hsplit] at hadditions
  exact hne (unobserved.same true run last true run last hadditions hadditions hrun hrun seen hseen seen'
    hseen' htime (iff_of_false hadded hadded'))

/-- A waypoint that is added on the way to the one before. -/
def onTheWay : List (ℚ × Waypoint) :=
  [(0, ⟨1, (0, 0, 0)⟩), (0, ⟨2, (10, 0, 0)⟩), (1, ⟨4, (10, 20, 0)⟩)]

theorem unobserved_iff_inTime_onTheWay : Unobserved onTheWay ↔ InTime onTheWay :=
  unobserved_iff_inTime ⟨by decide, by decide, by decide⟩

/-- A waypoint that is added when the one before is over. -/
def tooLate : List (ℚ × Waypoint) := [(0, ⟨1, (0, 0, 0)⟩), (2, ⟨4, (10, 0, 0)⟩)]

/-- The node leaps by three fifths of the way at the moment the waypoint is added. -/
theorem not_unobserved_tooLate : Valid tooLate ∧ ¬ Unobserved tooLate := by
  refine ⟨⟨by decide, by decide, by decide⟩, fun unobserved => ?_⟩
  let run : List (ℚ × Call) :=
    [(0, .addWaypoint ⟨1, (0, 0, 0)⟩), (1, .update), (2, .getPosition),
      (2, .addWaypoint ⟨4, (10, 0, 0)⟩), (2, .getPosition)]
  let last : Node :=
    { model := some {
        first := false
        lazyNotify := false
        current := ⟨2, (6, 0, 0)⟩
        next := ⟨4, (10, 0, 0)⟩
        velocity := (2, 0, 0) }
      pending := [4]
      clock := 2
      added := 2
      observed := [⟨1, 2, (0, 0, 0)⟩, ⟨2, 2, (6, 0, 0)⟩] }
  have hrun : Foundation.Runs.runFrom Node.step (Node.start false) run = some last := by
    decide +kernel
  have hsame := unobserved.same false run last false run last rfl rfl hrun hrun
    ⟨1, 2, (0, 0, 0)⟩ List.mem_cons_self ⟨2, 2, (6, 0, 0)⟩
    (List.mem_cons_of_mem _ List.mem_cons_self) rfl (by decide)
  exact absurd hsame (by decide)

end DeepcV2x.Mobility
