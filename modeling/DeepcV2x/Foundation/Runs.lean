import Mathlib.Data.List.Basic

/-!
# Runs of guarded step functions

A system is a partial step function: `step state event` is `some next` when the
event is enabled.  A run replays a list of events.  The history rule carries an
invariant that may mention every event executed so far, so a bounded state can
be compared with the whole unbounded past.
-/

namespace DeepcV2x.Foundation.Runs

variable {State Event : Type*} (step : State → Event → Option State)

/-- Replay a list of events; `none` as soon as one of them is disabled. -/
def runFrom (state : State) : List Event → Option State
  | [] => some state
  | event :: rest =>
      match step state event with
      | none => none
      | some next => runFrom next rest

@[simp]
theorem runFrom_nil (state : State) : runFrom step state [] = some state := rfl

theorem runFrom_cons_of_step {state next : State} {event : Event}
    (hstep : step state event = some next) (rest : List Event) :
    runFrom step state (event :: rest) = runFrom step next rest := by
  simp [runFrom, hstep]

/-- Inversion of a nonempty run: its first event was enabled. -/
theorem runFrom_cons_inv {state last : State} {event : Event} {rest : List Event}
    (hrun : runFrom step state (event :: rest) = some last) :
    ∃ next, step state event = some next ∧ runFrom step next rest = some last := by
  simp only [runFrom] at hrun
  cases hstep : step state event with
  | none => simp [hstep] at hrun
  | some next =>
      rw [hstep] at hrun
      exact ⟨next, rfl, hrun⟩

/-- Two runs compose when the second starts where the first ends. -/
theorem runFrom_append {first middle last : State} {left right : List Event}
    (hleft : runFrom step first left = some middle)
    (hright : runFrom step middle right = some last) :
    runFrom step first (left ++ right) = some last := by
  induction left generalizing first with
  | nil =>
      have same : first = middle := Option.some.inj hleft
      subst same
      exact hright
  | cons event left ih =>
      obtain ⟨next, hstep, hrest⟩ := runFrom_cons_inv step hleft
      rw [List.cons_append, runFrom_cons_of_step step hstep]
      exact ih hrest

theorem runFrom_snoc {first middle last : State} {events : List Event} {event : Event}
    (hrun : runFrom step first events = some middle)
    (hstep : step middle event = some last) :
    runFrom step first (events ++ [event]) = some last :=
  runFrom_append step hrun (by rw [runFrom_cons_of_step step hstep, runFrom_nil])

/--
The history rule.  An invariant over the executed events and the current state
holds after every run when it holds before and each enabled event preserves it.
-/
theorem history_invariant (Invariant : List Event → State → Prop)
    (hstep : ∀ past state event next, Invariant past state →
      step state event = some next → Invariant (past ++ [event]) next)
    (past : List Event) {first last : State} {events : List Event}
    (hfirst : Invariant past first)
    (hrun : runFrom step first events = some last) :
    Invariant (past ++ events) last := by
  induction events generalizing past first with
  | nil =>
      have same : first = last := Option.some.inj hrun
      subst same
      simpa using hfirst
  | cons event rest ih =>
      obtain ⟨next, henabled, hrest⟩ := runFrom_cons_inv step hrun
      have hnext := hstep past first event next hfirst henabled
      simpa [List.append_assoc] using ih (past ++ [event]) hnext hrest

/-- The state rule: the history rule for an invariant of the state alone. -/
theorem state_invariant (Invariant : State → Prop)
    (hstep : ∀ state event next, Invariant state →
      step state event = some next → Invariant next)
    {first last : State} {events : List Event}
    (hfirst : Invariant first)
    (hrun : runFrom step first events = some last) : Invariant last :=
  history_invariant step (fun _ => Invariant)
    (fun _ state event next => hstep state event next)
    [] hfirst hrun

/-! ## Runs whose events meet a condition -/

/-- Every event meets a condition on the state it finds. -/
def Fitting (fits : State → Event → Prop) (state : State) : List Event → Prop
  | [] => True
  | event :: rest =>
      fits state event ∧ ∀ next, step state event = some next → Fitting fits next rest

instance Fitting.decidable {fits : State → Event → Prop}
    [∀ state event, Decidable (fits state event)] :
    ∀ state events, Decidable (Fitting step fits state events)
  | _, [] => .isTrue trivial
  | state, event :: rest =>
      match hstep : step state event with
      | none => decidable_of_iff (fits state event)
          ⟨fun hfits => ⟨hfits, fun _ hnext => by rw [hstep] at hnext; cases hnext⟩, And.left⟩
      | some next =>
          have : Decidable (Fitting step fits next rest) := Fitting.decidable next rest
          decidable_of_iff (fits state event ∧ Fitting step fits next rest)
            ⟨fun hboth => ⟨hboth.1, fun other hnext => by
                rw [hstep] at hnext
                exact Option.some.inj hnext ▸ hboth.2⟩,
              fun hall => ⟨hall.1, hall.2 next hstep⟩⟩

/-- The history rule for fitting events that are enabled: their runs exist and keep the invariant. -/
theorem exists_history_of_fitting {fits : State → Event → Prop}
    (Invariant : List Event → State → Prop)
    (hstep : ∀ past state event, Invariant past state → fits state event →
      ∃ next, step state event = some next ∧ Invariant (past ++ [event]) next)
    (past : List Event) {first : State} {events : List Event} (hfirst : Invariant past first)
    (hfitting : Fitting step fits first events) :
    ∃ last, runFrom step first events = some last ∧ Invariant (past ++ events) last := by
  induction events generalizing past first with
  | nil => exact ⟨first, rfl, by simpa using hfirst⟩
  | cons event rest ih =>
      obtain ⟨next, henabled, hnext⟩ := hstep past first event hfirst hfitting.1
      obtain ⟨last, hrest, hlast⟩ := ih (past ++ [event]) hnext (hfitting.2 next henabled)
      refine ⟨last, (runFrom_cons_of_step step henabled rest).trans hrest, ?_⟩
      simpa [List.append_assoc] using hlast

/-- When fitting events are enabled and preserve an invariant, their runs exist and keep it. -/
theorem exists_run_of_fitting {fits : State → Event → Prop} (Invariant : State → Prop)
    (hstep : ∀ state event, Invariant state → fits state event →
      ∃ next, step state event = some next ∧ Invariant next)
    {first : State} {events : List Event} (hfirst : Invariant first)
    (hfitting : Fitting step fits first events) :
    ∃ last, runFrom step first events = some last ∧ Invariant last :=
  exists_history_of_fitting step (fun _ => Invariant)
    (fun _ state event => hstep state event) [] hfirst hfitting

/-- Every event of a fitting run finds a state that keeps the invariant. -/
theorem exists_state_of_fitting {fits : State → Event → Prop} (Invariant : State → Prop)
    (hstep : ∀ state event, Invariant state → fits state event →
      ∃ next, step state event = some next ∧ Invariant next)
    {first : State} {before after : List Event} {event : Event} (hfirst : Invariant first)
    (hfitting : Fitting step fits first (before ++ event :: after)) :
    ∃ state, runFrom step first before = some state ∧ Invariant state ∧ fits state event := by
  induction before generalizing first with
  | nil => exact ⟨first, rfl, hfirst, hfitting.1⟩
  | cons earlier rest ih =>
      obtain ⟨next, henabled, hnext⟩ := hstep first earlier hfirst hfitting.1
      obtain ⟨state, hrest, hstate⟩ := ih hnext (hfitting.2 next henabled)
      exact ⟨state, (runFrom_cons_of_step step henabled rest).trans hrest, hstate⟩

/-- The state rule for fitting runs. -/
theorem invariant_of_fitting {fits : State → Event → Prop} (Invariant : State → Prop)
    (hstep : ∀ state event next, Invariant state → fits state event →
      step state event = some next → Invariant next)
    {first last : State} {events : List Event} (hfirst : Invariant first)
    (hfitting : Fitting step fits first events) (hrun : runFrom step first events = some last) :
    Invariant last := by
  induction events generalizing first with
  | nil =>
      obtain rfl : first = last := Option.some.inj hrun
      exact hfirst
  | cons event rest ih =>
      obtain ⟨next, henabled, hrest⟩ := runFrom_cons_inv step hrun
      exact ih (hstep first event next hfirst hfitting.1 henabled) (hfitting.2 next henabled) hrest

/-- A condition on the events alone is met in every state. -/
theorem fitting_of_forall {fits : State → Event → Prop} {events : List Event}
    (hevents : ∀ event ∈ events, ∀ state, fits state event) (first : State) :
    Fitting step fits first events := by
  induction events generalizing first with
  | nil => trivial
  | cons event rest ih =>
      exact ⟨hevents event List.mem_cons_self first, fun next _ =>
        ih (fun other hmem => hevents other (List.mem_cons_of_mem _ hmem)) next⟩

/-- A condition on the events alone may be added. -/
theorem Fitting.and_forall {fits : State → Event → Prop} {holds : Event → Prop} {first : State}
    {events : List Event} (hfitting : Fitting step fits first events)
    (hevents : ∀ event ∈ events, holds event) :
    Fitting step (fun state event => holds event ∧ fits state event) first events := by
  induction events generalizing first with
  | nil => trivial
  | cons event rest ih =>
      obtain ⟨hfirst, hrest⟩ := hfitting
      exact ⟨⟨hevents event List.mem_cons_self, hfirst⟩, fun next hnext =>
        ih (hrest next hnext) fun other hmem => hevents other (List.mem_cons_of_mem _ hmem)⟩

/-- When a condition tells exactly which events lead from good states to good states, a run goes
through good states only exactly when all its events meet the condition. -/
theorem forall_states_iff_fitting {fits : State → Event → Prop} (Invariant Good : State → Prop)
    {allowed : Event → Prop}
    (hstep : ∀ state event, Invariant state → Good state → allowed event →
      ∃ next, step state event = some next ∧ Invariant next ∧ (Good next ↔ fits state event))
    {first : State} {events : List Event} (hevents : ∀ event ∈ events, allowed event)
    (hfirst : Invariant first) (hgood : Good first) :
    (∀ before, before <+: events → ∃ last, runFrom step first before = some last ∧ Good last) ↔
      Fitting step fits first events := by
  induction events generalizing first with
  | nil =>
      refine ⟨fun _ => trivial, fun _ before hprefix => ?_⟩
      obtain rfl := List.prefix_nil.mp hprefix
      exact ⟨first, rfl, hgood⟩
  | cons event rest ih =>
      obtain ⟨hallowed, hrest⟩ := List.forall_mem_cons.mp hevents
      obtain ⟨next, henabled, hinvariant, hiff⟩ := hstep first event hfirst hgood hallowed
      constructor
      · intro hall
        obtain ⟨last, hrun, hlast⟩ := hall [event] (List.prefix_append [event] rest)
        rw [runFrom_cons_of_step step henabled, runFrom_nil] at hrun
        obtain rfl : next = last := Option.some.inj hrun
        refine ⟨hiff.mp hlast, fun other hother => ?_⟩
        obtain rfl : next = other := Option.some.inj (henabled.symm.trans hother)
        refine (ih hrest hinvariant hlast).mp fun before hprefix => ?_
        obtain ⟨state, hstate, hholds⟩ :=
          hall (event :: before) ((List.prefix_cons_inj event).mpr hprefix)
        exact ⟨state, (runFrom_cons_of_step step henabled before).symm.trans hstate, hholds⟩
      · rintro ⟨hfits, hothers⟩ before hprefix
        cases before with
        | nil => exact ⟨first, rfl, hgood⟩
        | cons other before =>
            obtain ⟨rfl, hbefore⟩ := List.cons_prefix_cons.mp hprefix
            obtain ⟨last, hrun, hlast⟩ :=
              (ih hrest hinvariant (hiff.mpr hfits)).mpr (hothers next henabled) before hbefore
            exact ⟨last, (runFrom_cons_of_step step henabled before).trans hrun, hlast⟩

/-- The same for the states of one run, when events need not be enabled. -/
theorem forall_reached_iff_fitting_of_allowed {fits : State → Event → Prop}
    (Invariant Good : State → Prop) {allowed : Event → Prop}
    (hstep : ∀ state event next, Invariant state → allowed event → step state event = some next →
      (fits state event ∧ Invariant next ∧ Good next) ∨ (¬ fits state event ∧ ¬ Good next))
    {first last : State} {events : List Event} (hevents : ∀ event ∈ events, allowed event)
    (hfirst : Invariant first) (hgood : Good first)
    (hrun : runFrom step first events = some last) :
    (∀ before state, before <+: events → runFrom step first before = some state → Good state) ↔
      Fitting step fits first events := by
  induction events generalizing first with
  | nil =>
      refine ⟨fun _ => trivial, fun _ before state hprefix hstate => ?_⟩
      obtain rfl := List.prefix_nil.mp hprefix
      obtain rfl : first = state := Option.some.inj hstate
      exact hgood
  | cons event rest ih =>
      obtain ⟨hallowed, hothers⟩ := List.forall_mem_cons.mp hevents
      obtain ⟨next, henabled, hrest⟩ := runFrom_cons_inv step hrun
      have hnext : runFrom step first [event] = some next := by
        rw [runFrom_cons_of_step step henabled, runFrom_nil]
      rcases hstep first event next hfirst hallowed henabled with
        ⟨hfits, hinvariant, hholds⟩ | ⟨hmisses, hfails⟩
      · constructor
        · refine fun hall => ⟨hfits, fun other hother => ?_⟩
          obtain rfl : next = other := Option.some.inj (henabled.symm.trans hother)
          refine (ih hothers hinvariant hholds hrest).mp fun before state hprefix hstate => ?_
          exact hall (event :: before) state ((List.prefix_cons_inj event).mpr hprefix)
            ((runFrom_cons_of_step step henabled before).trans hstate)
        · rintro ⟨-, hlater⟩ before state hprefix hstate
          cases before with
          | nil =>
              obtain rfl : first = state := Option.some.inj hstate
              exact hgood
          | cons other before =>
              obtain ⟨rfl, hbefore⟩ := List.cons_prefix_cons.mp hprefix
              exact (ih hothers hinvariant hholds hrest).mpr (hlater next henabled) before state hbefore
                ((runFrom_cons_of_step step henabled before).symm.trans hstate)
      · exact iff_of_false (fun hall => hfails (hall [event] next (List.prefix_append [event] rest) hnext))
          fun hfitting => hmisses hfitting.1

/-- The same when every event is allowed. -/
theorem forall_reached_iff_fitting {fits : State → Event → Prop} (Invariant Good : State → Prop)
    (hstep : ∀ state event next, Invariant state → step state event = some next →
      (fits state event ∧ Invariant next ∧ Good next) ∨ (¬ fits state event ∧ ¬ Good next))
    {first last : State} {events : List Event} (hfirst : Invariant first) (hgood : Good first)
    (hrun : runFrom step first events = some last) :
    (∀ before state, before <+: events → runFrom step first before = some state → Good state) ↔
      Fitting step fits first events :=
  forall_reached_iff_fitting_of_allowed step Invariant Good
    (fun state event next hinvariant (_ : True) => hstep state event next hinvariant)
    (fun _ _ => trivial) hfirst hgood hrun

end DeepcV2x.Foundation.Runs
