import DeepcV2x.Bridge.StepFiles
import DeepcV2x.Foundation.Association
import DeepcV2x.Foundation.Runs

/-!
# The file bridge protocol

The simulator and the controller share a request and a response directory.
Files appear by renaming, so a write is one step; the polling loop, the glob,
the opening and the reading of a file are steps of their own, and the two
parties interleave freely.  What a response was computed from, the requests
written so far and the answers returned so far are ghost data.
-/

namespace DeepcV2x.Bridge

open DeepcV2x.Foundation DeepcV2x.Foundation.Strings
open DeepcV2x.Foundation.Association (Table)

/-- A response file; `answers` is the request text the controller of this run computed it
from, `none` for a file left by an earlier run. -/
structure ResponseFile where
  text : Text
  answers : Option Text
  deriving DecidableEq, Repr

/-- Where the simulator is in `RequestControl`. -/
inductive SimulatorPhase
  | idle
  | polling (request : Text)
  | reading (request : Text)
  | aborted
  deriving DecidableEq, Repr

/-- Where the controller is in its main loop. -/
inductive ControllerPhase
  | scanning
  | serving (pending : List Text)
  | answering (name request : Text) (pending : List Text)
  | stopped
  deriving DecidableEq, Repr

/-- What one `RequestControl` call wrote and what it parsed. -/
structure Returned where
  step : Nat
  request : Text
  response : ResponseFile
  deriving DecidableEq, Repr

/-- The response was computed from the request of the same step of this run. -/
def Returned.Fresh (entry : Returned) : Prop := entry.response.answers = some entry.request

structure BridgeState where
  requests : Table Text Text
  responses : Table Text ResponseFile
  simulator : SimulatorPhase
  step : Nat
  controller : ControllerPhase
  processed : List Text
  written : List Text
  returned : List Returned
  deriving DecidableEq, Repr

/-- Both parties before their first step, over what the directories hold already. -/
def BridgeState.start (requests : Table Text Text) (responses : Table Text ResponseFile) :
    BridgeState where
  requests := requests
  responses := responses
  simulator := .idle
  step := 0
  controller := .scanning
  processed := []
  written := []
  returned := []

inductive BridgeEvent
  | writeRequest (request : Text)
  | pollMiss
  | pollHit
  | timeOut
  | readResponse
  | scan
  | openRequest
  | publish
  | stopController
  deriving DecidableEq, Repr

/-- The inner loop goes on with what is pending, the outer loop scans again. -/
def continueWith : List Text → ControllerPhase
  | [] => .scanning
  | name :: rest => .serving (name :: rest)

/-- The names the controller finds, in the order it serves them. -/
def pendingRequests (state : BridgeState) : List Text :=
  ((Association.keys state.requests).filter fun name =>
    matchesRequestGlob name && decide (name ∉ state.processed)).mergeSort
      fun left right => decide (¬ right < left)

variable (solve : Text → Text)

/-- One atomic step of either party; `solve` is the controller's answer to a request text. -/
def bridgeStep (state : BridgeState) (event : BridgeEvent) : Option BridgeState :=
  match event, state.simulator, state.controller with
  | .writeRequest request, .idle, _ =>
      some { state with
        requests := Association.upsert (requestName state.step) (fun _ => request) state.requests
        simulator := .polling request
        written := state.written ++ [request] }
  | .pollMiss, .polling _, _ =>
      match Association.lookup (responseName state.step) state.responses with
      | none => some state
      | some _ => none
  | .pollHit, .polling request, _ =>
      match Association.lookup (responseName state.step) state.responses with
      | none => none
      | some _ => some { state with simulator := .reading request }
  | .timeOut, .polling _, _ => some { state with simulator := .aborted }
  | .readResponse, .reading request, _ =>
      match Association.lookup (responseName state.step) state.responses with
      | none => some { state with simulator := .aborted }
      | some response =>
          some { state with
            simulator := .idle
            step := state.step + 1
            returned := state.returned ++ [⟨state.step, request, response⟩] }
  | .scan, _, .scanning =>
      some { state with controller := continueWith (pendingRequests state) }
  | .openRequest, _, .serving (name :: rest) =>
      match Association.lookup name state.requests with
      | none => some { state with controller := .stopped }
      | some request => some { state with controller := .answering name request rest }
  | .publish, _, .answering name request rest =>
      some { state with
        responses := Association.upsert (responseNameOf name)
          (fun _ => ⟨solve request, some request⟩) state.responses
        controller := continueWith rest
        processed := state.processed ++ [name] }
  | .stopController, _, _ => some { state with controller := .stopped }
  | _, _, _ => none

/-- The directories hold step files only, as runs of the two programs leave them. -/
structure WellNamed (requests : Table Text Text) (responses : Table Text ResponseFile) :
    Prop where
  requestNames : ∀ name ∈ Association.keys requests, ∃ step, name = requestName step
  responseNames : ∀ name ∈ Association.keys responses, ∃ step, name = responseName step
  leftover : ∀ name file, Association.lookup name responses = some file → file.answers = none

/-- No request and no response of the first `count` steps is left from an earlier run. -/
def CleanBelow (count : Nat) (requests : Table Text Text)
    (responses : Table Text ResponseFile) : Prop :=
  ∀ step < count, Association.lookup (requestName step) requests = none ∧
    Association.lookup (responseName step) responses = none

/-- Everything returned for the first `count` steps of any run is fresh. -/
def FreshBelow (count : Nat) (requests : Table Text Text)
    (responses : Table Text ResponseFile) : Prop :=
  ∀ events final, Runs.runFrom (bridgeStep solve) (BridgeState.start requests responses) events =
      some final →
    ∀ entry ∈ final.returned, entry.step < count → entry.Fresh

/-! ## What clean directories guarantee -/

/-- Files of the first `count` steps belong to this run, along whichever run. -/
structure FreshInvariant (count : Nat) (state : BridgeState) : Prop where
  idleLength : state.simulator = .idle → state.written.length = state.step
  current : ∀ request, state.simulator = .polling request ∨ state.simulator = .reading request →
    state.written[state.step]? = some request ∧ state.written.length = state.step + 1
  requestNames : ∀ name ∈ Association.keys state.requests, ∃ step, name = requestName step
  requests : ∀ step < count,
    Association.lookup (requestName step) state.requests = state.written[step]?
  responses : ∀ step < count, ∀ file,
    Association.lookup (responseName step) state.responses = some file →
      ∃ text, state.written[step]? = some text ∧ file.answers = some text
  serving : ∀ pending, state.controller = .serving pending →
    ∀ name ∈ pending, ∃ step, name = requestName step
  answering : ∀ name request pending, state.controller = .answering name request pending →
    (∃ step, name = requestName step ∧
      (step < count → state.written[step]? = some request)) ∧
    ∀ other ∈ pending, ∃ step, other = requestName step
  returned : ∀ entry ∈ state.returned, entry.step < count → entry.Fresh

theorem freshInvariant_start {count : Nat} {requests : Table Text Text}
    {responses : Table Text ResponseFile} (named : WellNamed requests responses)
    (clean : CleanBelow count requests responses) :
    FreshInvariant count (BridgeState.start requests responses) where
  idleLength _ := rfl
  current request hphase := by rcases hphase with hphase | hphase <;> cases hphase
  requestNames := named.requestNames
  requests step hlt := (clean step hlt).1
  responses step hlt file hfound := by cases (clean step hlt).2.symm.trans hfound
  serving pending hphase := by cases hphase
  answering name request pending hphase := by cases hphase
  returned entry hmem := by cases hmem

theorem continueWith_serving {rest pending : List Text} (hphase : continueWith rest = .serving pending) :
    pending = rest := by
  cases rest with
  | nil => cases hphase
  | cons name rest => exact (ControllerPhase.serving.inj hphase).symm

theorem continueWith_not_answering {rest : List Text} {name request : Text} {pending : List Text} :
    continueWith rest ≠ .answering name request pending := by
  cases rest <;> exact nofun

theorem mem_pendingRequests {state : BridgeState} {name : Text} :
    name ∈ pendingRequests state ↔ name ∈ Association.keys state.requests ∧
      matchesRequestGlob name = true ∧ name ∉ state.processed := by
  simp [pendingRequests]

namespace FreshInvariant

variable {count : Nat} {state : BridgeState}

/-- A written request extends the log and the directory at the current step. -/
theorem writeRequest (inv : FreshInvariant count state) (hidle : state.simulator = .idle)
    (request : Text) :
    FreshInvariant count
      { state with
        requests := Association.upsert (requestName state.step) (fun _ => request) state.requests
        simulator := .polling request
        written := state.written ++ [request] } := by
  have hlength := inv.idleLength hidle
  have hkept : ∀ {step : Nat} {text : Text}, state.written[step]? = some text →
      (state.written ++ [request])[step]? = some text := by
    intro step text hfound
    obtain ⟨hlt, -⟩ := List.getElem?_eq_some_iff.mp hfound
    rw [List.getElem?_append_left hlt]
    exact hfound
  refine ⟨nofun, ?_, ?_, ?_, ?_, inv.serving, ?_, inv.returned⟩
  · rintro other (hphase | hphase)
    · obtain rfl := SimulatorPhase.polling.inj hphase
      simp [hlength]
    · cases hphase
  · intro name hmem
    rcases (Association.mem_keys_upsert _ _ _ _).mp hmem with rfl | hold
    · exact ⟨state.step, rfl⟩
    · exact inv.requestNames name hold
  · intro step hlt
    rw [Association.lookup_upsert]
    by_cases same : step = state.step
    · subst same
      simp [← hlength]
    · have hname : requestName step ≠ requestName state.step := fun h =>
        same (requestName_injective h)
      rw [if_neg hname, inv.requests step hlt]
      rcases Nat.lt_or_ge step state.step with hbefore | hafter
      · rw [List.getElem?_append_left (by omega)]
      · rw [List.getElem?_eq_none (by omega), List.getElem?_eq_none]
        rw [List.length_append, List.length_singleton]
        omega
  · intro step hlt file hfound
    obtain ⟨text, hwritten, hanswers⟩ := inv.responses step hlt file hfound
    exact ⟨text, hkept hwritten, hanswers⟩
  · intro name other pending hphase
    obtain ⟨⟨step, hname, hcurrent⟩, hpending⟩ := inv.answering name other pending hphase
    exact ⟨⟨step, hname, fun hlt => hkept (hcurrent hlt)⟩, hpending⟩

/-- What is read for an early step was computed from the request just written. -/
theorem readResponse (inv : FreshInvariant count state) {request : Text}
    (hreading : state.simulator = .reading request) {response : ResponseFile}
    (hfound : Association.lookup (responseName state.step) state.responses = some response) :
    FreshInvariant count
      { state with
        simulator := .idle
        step := state.step + 1
        returned := state.returned ++ [⟨state.step, request, response⟩] } := by
  obtain ⟨hcurrent, hlength⟩ := inv.current request (Or.inr hreading)
  refine ⟨fun _ => hlength, ?_, inv.requestNames, inv.requests, inv.responses, inv.serving,
    inv.answering, ?_⟩
  · rintro other (hphase | hphase) <;> cases hphase
  · intro entry hmem hlt
    rcases List.mem_append.mp hmem with hold | hnew
    · exact inv.returned entry hold hlt
    · obtain rfl := List.mem_singleton.mp hnew
      obtain ⟨text, hwritten, hanswers⟩ := inv.responses state.step hlt response hfound
      rw [Returned.Fresh, hanswers, ← hwritten, hcurrent]

/-- A published answer was computed from the request it is filed under. -/
theorem publish (inv : FreshInvariant count state) {name request : Text} {rest : List Text}
    (hanswering : state.controller = .answering name request rest) :
    FreshInvariant count
      { state with
        responses := Association.upsert (responseNameOf name)
          (fun _ => ⟨solve request, some request⟩) state.responses
        controller := continueWith rest
        processed := state.processed ++ [name] } := by
  obtain ⟨⟨served, rfl, hcurrent⟩, hpending⟩ := inv.answering name request rest hanswering
  refine ⟨inv.idleLength, inv.current, inv.requestNames, inv.requests, ?_, ?_, ?_, inv.returned⟩
  · intro step hlt file hfound
    rw [responseNameOf_requestName, Association.lookup_upsert] at hfound
    by_cases same : step = served
    · subst same
      rw [if_pos rfl] at hfound
      exact ⟨request, hcurrent hlt, by rw [← Option.some.inj hfound]⟩
    · rw [if_neg fun h => same (responseName_injective h)] at hfound
      exact inv.responses step hlt file hfound
  · intro pending hphase
    rw [continueWith_serving hphase]
    exact hpending
  · intro other text pending hphase
    exact absurd hphase continueWith_not_answering

/-- A controller that changes its phase only. -/
theorem withController (inv : FreshInvariant count state) {phase : ControllerPhase}
    (hserving : ∀ pending, phase = .serving pending →
      ∀ name ∈ pending, ∃ step, name = requestName step)
    (hanswering : ∀ name request pending, phase = .answering name request pending →
      (∃ step, name = requestName step ∧
        (step < count → state.written[step]? = some request)) ∧
      ∀ other ∈ pending, ∃ step, other = requestName step) :
    FreshInvariant count { state with controller := phase } :=
  ⟨inv.idleLength, inv.current, inv.requestNames, inv.requests, inv.responses, hserving,
    hanswering, inv.returned⟩

/-- One step of either party preserves the invariant. -/
theorem step {event : BridgeEvent} {next : BridgeState} (inv : FreshInvariant count state)
    (hstep : bridgeStep solve state event = some next) : FreshInvariant count next := by
  unfold bridgeStep at hstep
  split at hstep
  next _ request hidle =>
    rw [← Option.some.inj hstep]
    exact inv.writeRequest hidle request
  next _ request hpolling =>
    split at hstep
    · rw [← Option.some.inj hstep]
      exact inv
    · cases hstep
  next _ request hpolling =>
    split at hstep
    · cases hstep
    · rw [← Option.some.inj hstep]
      refine ⟨nofun, ?_, inv.requestNames, inv.requests, inv.responses, inv.serving,
        inv.answering, inv.returned⟩
      rintro other (hphase | hphase)
      · cases hphase
      · obtain rfl := SimulatorPhase.reading.inj hphase
        exact inv.current request (Or.inl hpolling)
  next _ request hpolling =>
    rw [← Option.some.inj hstep]
    refine ⟨nofun, ?_, inv.requestNames, inv.requests, inv.responses, inv.serving,
      inv.answering, inv.returned⟩
    rintro other (hphase | hphase) <;> cases hphase
  next _ request hreading =>
    split at hstep
    · rw [← Option.some.inj hstep]
      refine ⟨nofun, ?_, inv.requestNames, inv.requests, inv.responses, inv.serving,
        inv.answering, inv.returned⟩
      rintro other (hphase | hphase) <;> cases hphase
    next response hfound =>
      rw [← Option.some.inj hstep]
      exact inv.readResponse hreading hfound
  next hscanning =>
    rw [← Option.some.inj hstep]
    refine inv.withController ?_ fun name request pending hphase =>
      absurd hphase continueWith_not_answering
    intro pending hphase name hmem
    rw [continueWith_serving hphase] at hmem
    exact inv.requestNames name (mem_pendingRequests.mp hmem).1
  next name rest hserving =>
    have hnames := inv.serving (name :: rest) hserving
    obtain ⟨served, hname⟩ := hnames name List.mem_cons_self
    split at hstep
    · rw [← Option.some.inj hstep]
      exact inv.withController nofun nofun
    next request hfound =>
      rw [← Option.some.inj hstep]
      refine inv.withController nofun ?_
      intro other text pending hphase
      obtain ⟨rfl, rfl, rfl⟩ := ControllerPhase.answering.inj hphase
      refine ⟨⟨served, hname, ?_⟩, fun other hmem => hnames other (List.mem_cons_of_mem _ hmem)⟩
      intro hlt
      rw [← inv.requests served hlt, ← hname]
      exact hfound
  next name request rest hanswering =>
    rw [← Option.some.inj hstep]
    exact inv.publish solve hanswering
  next =>
    rw [← Option.some.inj hstep]
    exact inv.withController nofun nofun
  next => cases hstep

end FreshInvariant

/-- Clean directories make every run fresh. -/
theorem freshBelow_of_clean {count : Nat} {requests : Table Text Text}
    {responses : Table Text ResponseFile} (named : WellNamed requests responses)
    (clean : CleanBelow count requests responses) :
    FreshBelow solve count requests responses := by
  intro events final hrun
  have inv := Runs.state_invariant (bridgeStep solve) (FreshInvariant count)
    (fun _ _ _ inv hstep => inv.step solve hstep) (freshInvariant_start named clean) hrun
  exact inv.returned

end DeepcV2x.Bridge
