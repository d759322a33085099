import DeepcV2x.Bridge.Protocol

/-!
# Freshness of the file bridge

Every run over directories without leftovers for its steps is fresh.  With a
leftover request or response there is a run in which the simulator parses a
response that does not answer the request it has just written.
-/

namespace DeepcV2x.Bridge

open DeepcV2x.Foundation DeepcV2x.Foundation.Strings
open DeepcV2x.Foundation.Association (Table)

variable (solve : Text → Text)

/-- Some run leads from one state to the other. -/
def Leads (first last : BridgeState) : Prop :=
  ∃ events, Runs.runFrom (bridgeStep solve) first events = some last

variable {solve}

theorem Leads.refl (state : BridgeState) : Leads solve state state := ⟨[], rfl⟩

theorem Leads.trans {first middle last : BridgeState} (left : Leads solve first middle)
    (right : Leads solve middle last) : Leads solve first last := by
  obtain ⟨leftEvents, hleft⟩ := left
  obtain ⟨rightEvents, hright⟩ := right
  exact ⟨leftEvents ++ rightEvents, Runs.runFrom_append _ hleft hright⟩

theorem Leads.step {first last : BridgeState} {event : BridgeEvent}
    (hstep : bridgeStep solve first event = some last) : Leads solve first last :=
  ⟨[event], by rw [Runs.runFrom_cons_of_step _ hstep, Runs.runFrom_nil]⟩

/-! ## The controller serves what is pending -/

/-- Every processed request has its response. -/
def Served (state : BridgeState) : Prop :=
  ∀ name ∈ state.processed,
    (Association.lookup (responseNameOf name) state.responses).isSome

/-- The controller has worked on: the simulator's side is as before and no response is lost. -/
structure WorkedOn (first last : BridgeState) : Prop where
  requests : last.requests = first.requests
  simulator : last.simulator = first.simulator
  stepSame : last.step = first.step
  responses : ∀ name, (Association.lookup name first.responses).isSome →
    (Association.lookup name last.responses).isSome

theorem WorkedOn.refl (state : BridgeState) : WorkedOn state state :=
  ⟨rfl, rfl, rfl, fun _ hfound => hfound⟩

theorem WorkedOn.trans {first middle last : BridgeState} (left : WorkedOn first middle)
    (right : WorkedOn middle last) : WorkedOn first last :=
  ⟨right.requests.trans left.requests, right.simulator.trans left.simulator,
    right.stepSame.trans left.stepSame, fun name hfound => right.responses name
      (left.responses name hfound)⟩

/-- Pending requests that exist are all answered. -/
theorem exists_served (pending : List Text) {state : BridgeState} (served : Served state)
    (hcontroller : state.controller = continueWith pending)
    (hfiles : ∀ name ∈ pending, (Association.lookup name state.requests).isSome) :
    ∃ last, Leads solve state last ∧ WorkedOn state last ∧ Served last ∧
      last.controller = .scanning ∧ last.processed = state.processed ++ pending := by
  induction pending generalizing state with
  | nil => exact ⟨state, Leads.refl state, WorkedOn.refl state, served, hcontroller, by simp⟩
  | cons name rest ih =>
      obtain ⟨request, hrequest⟩ := Option.isSome_iff_exists.mp (hfiles name List.mem_cons_self)
      have hserving : state.controller = .serving (name :: rest) := hcontroller
      set opened : BridgeState := { state with controller := .answering name request rest }
      have hopen : bridgeStep solve state .openRequest = some opened := by
        simp only [bridgeStep, hserving, hrequest]
        rfl
      set published : BridgeState :=
        { opened with
          responses := Association.upsert (responseNameOf name)
            (fun _ => ⟨solve request, some request⟩) opened.responses
          controller := continueWith rest
          processed := opened.processed ++ [name] }
      have hpublish : bridgeStep solve opened .publish = some published := rfl
      have hkept : ∀ other, (Association.lookup other state.responses).isSome →
          (Association.lookup other published.responses).isSome := by
        intro other hfound
        rw [Association.lookup_upsert]
        split
        · rfl
        · exact hfound
      have servedNext : Served published := by
        intro other hmem
        rcases List.mem_append.mp hmem with hold | hnew
        · exact hkept _ (served other hold)
        · rw [List.mem_singleton.mp hnew, Association.lookup_upsert, if_pos rfl]
          rfl
      obtain ⟨last, hleads, worked, servedLast, hscanning, hprocessed⟩ :=
        ih servedNext rfl fun other hmem => hfiles other (List.mem_cons_of_mem _ hmem)
      refine ⟨last, ((Leads.step hopen).trans (Leads.step hpublish)).trans hleads, ?_, servedLast,
        hscanning, by rw [hprocessed]; simp [published, opened]⟩
      have workedHere : WorkedOn state published := ⟨rfl, rfl, rfl, hkept⟩
      exact workedHere.trans worked

/-- From a scan the controller answers every request step file there is. -/
theorem exists_drained {state : BridgeState} (served : Served state)
    (hscanning : state.controller = .scanning) :
    ∃ last, Leads solve state last ∧ WorkedOn state last ∧ Served last ∧
      last.controller = .scanning ∧
      ∀ step, requestName step ∈ Association.keys state.requests →
        (Association.lookup (responseName step) last.responses).isSome := by
  set scanned : BridgeState := { state with controller := continueWith (pendingRequests state) }
  have hscan : bridgeStep solve state .scan = some scanned := by
    simp only [bridgeStep, hscanning]
    rfl
  have hfiles : ∀ name ∈ pendingRequests state,
      (Association.lookup name scanned.requests).isSome := by
    intro name hmem
    exact (Association.lookup_isSome_iff _ _).mpr (mem_pendingRequests.mp hmem).1
  obtain ⟨last, hleads, worked, servedLast, hcontroller, hprocessed⟩ :=
    @exists_served solve (pendingRequests state) scanned served rfl hfiles
  refine ⟨last, (Leads.step hscan).trans hleads, ⟨worked.requests, worked.simulator,
    worked.stepSame, worked.responses⟩, servedLast, hcontroller, ?_⟩
  intro step hmem
  rw [← responseNameOf_requestName]
  apply servedLast
  rw [hprocessed]
  by_cases hdone : requestName step ∈ state.processed
  · exact List.mem_append_left _ hdone
  · exact List.mem_append_right _
      (mem_pendingRequests.mpr ⟨hmem, matchesRequestGlob_requestName step, hdone⟩)

/-! ## The simulator reaches every step -/

/-- Both parties between two steps. -/
structure Between (state : BridgeState) : Prop where
  idle : state.simulator = .idle
  scanning : state.controller = .scanning
  served : Served state

/-- Reading the response of the current step, once there is one. -/
theorem exists_read {state : BridgeState} {request : Text}
    (hpolling : state.simulator = .polling request) {response : ResponseFile}
    (hfound : Association.lookup (responseName state.step) state.responses = some response) :
    Leads solve state
      { state with
        simulator := .idle
        step := state.step + 1
        returned := state.returned ++ [⟨state.step, request, response⟩] } := by
  set hit : BridgeState := { state with simulator := .reading request }
  have hpoll : bridgeStep solve state .pollHit = some hit := by
    simp only [bridgeStep, hpolling, hfound]
    rfl
  have hread : bridgeStep solve hit .readResponse =
      some { state with
        simulator := .idle
        step := state.step + 1
        returned := state.returned ++ [⟨state.step, request, response⟩] } := by
    simp only [bridgeStep, hit, hfound]
  exact (Leads.step hpoll).trans (Leads.step hread)

/-- One control step with an answer of the controller. -/
theorem Between.exists_next {state : BridgeState} (between : Between state) :
    ∃ last, Leads solve state last ∧ Between last ∧ last.step = state.step + 1 ∧
      ∀ name, (Association.lookup name state.responses).isSome →
        (Association.lookup name last.responses).isSome := by
  set asked : BridgeState :=
    { state with
      requests := Association.upsert (requestName state.step) (fun _ => []) state.requests
      simulator := .polling []
      written := state.written ++ [[]] }
  have hwrite : bridgeStep solve state (.writeRequest []) = some asked := by
    simp only [bridgeStep, between.idle]
    rfl
  obtain ⟨answered, hleads, worked, served, hscanning, hall⟩ :=
    @exists_drained solve asked between.served between.scanning
  have hpolling : answered.simulator = .polling [] := worked.simulator
  have hcurrent : requestName state.step ∈ Association.keys asked.requests :=
    (Association.mem_keys_upsert _ _ _ _).mpr (Or.inl rfl)
  obtain ⟨response, hresponse⟩ := Option.isSome_iff_exists.mp (hall state.step hcurrent)
  have hstep : answered.step = state.step := worked.stepSame
  have hread := @exists_read solve answered [] hpolling response (by rw [hstep]; exact hresponse)
  refine ⟨_, ((Leads.step hwrite).trans hleads).trans hread, ⟨rfl, hscanning, served⟩, ?_, ?_⟩
  · exact congrArg (· + 1) hstep
  · exact worked.responses

/-- Every step is reached between two calls, with all earlier responses in place. -/
theorem Between.exists_step {state : BridgeState} (between : Between state) (count : Nat) :
    ∃ last, Leads solve state last ∧ Between last ∧ last.step = state.step + count ∧
      ∀ name, (Association.lookup name state.responses).isSome →
        (Association.lookup name last.responses).isSome := by
  induction count with
  | zero => exact ⟨state, Leads.refl state, between, rfl, fun _ hfound => hfound⟩
  | succ count ih =>
      obtain ⟨middle, hleft, betweenMiddle, hstep, hkept⟩ := ih
      obtain ⟨last, hright, betweenLast, hnext, hmore⟩ := @Between.exists_next solve _ betweenMiddle
      refine ⟨last, hleft.trans hright, betweenLast, by omega, ?_⟩
      intro name hfound
      exact hmore name (hkept name hfound)

/-- A response that is there before the request is written is parsed for it, whatever it
answers. -/
theorem Between.exists_stale {state : BridgeState} (between : Between state)
    {response : ResponseFile}
    (hfound : Association.lookup (responseName state.step) state.responses = some response) :
    ∃ last, Leads solve state last ∧
      ∃ entry ∈ last.returned, entry.step = state.step ∧ ¬ entry.Fresh := by
  set request : Text := 'x' :: response.answers.getD []
  set asked : BridgeState :=
    { state with
      requests := Association.upsert (requestName state.step) (fun _ => request) state.requests
      simulator := .polling request
      written := state.written ++ [request] }
  have hwrite : bridgeStep solve state (.writeRequest request) = some asked := by
    simp only [bridgeStep, between.idle]
    rfl
  refine ⟨_, (Leads.step hwrite).trans (@exists_read solve asked request rfl response hfound),
    ⟨state.step, request, response⟩, List.mem_append_right _ List.mem_cons_self, rfl, ?_⟩
  intro hfresh
  have hanswers : response.answers = some request := hfresh
  have hlength := congrArg (fun text => text.getD [] |>.length) hanswers
  simp [request] at hlength

/-- A leftover of an early step makes some run stale. -/
theorem clean_of_freshBelow {count : Nat} {requests : Table Text Text}
    {responses : Table Text ResponseFile} (fresh : FreshBelow solve count requests responses) :
    CleanBelow count requests responses := by
  set start := BridgeState.start requests responses
  have servedStart : Served start := by
    intro name hmem
    cases hmem
  obtain ⟨drained, hdrain, worked, served, hscanning, hall⟩ :=
    @exists_drained solve start servedStart rfl
  have between : Between drained := ⟨worked.simulator, hscanning, served⟩
  have hnone : ∀ step < count,
      ¬ (Association.lookup (responseName step) drained.responses).isSome := by
    intro step hlt hpresent
    obtain ⟨reached, hreach, betweenReached, hstep, hkept⟩ :=
      @Between.exists_step solve _ between step
    have hstepReached : reached.step = step := by
      rw [hstep, worked.stepSame]
      exact Nat.zero_add step
    obtain ⟨response, hfound⟩ := Option.isSome_iff_exists.mp (hkept _ hpresent)
    obtain ⟨last, hlast, entry, hentry, hsame, hstale⟩ :=
      @Between.exists_stale solve _ betweenReached response (by rw [hstepReached]; exact hfound)
    obtain ⟨events, hrun⟩ := (hdrain.trans hreach).trans hlast
    exact hstale (fresh events last hrun entry hentry (by omega))
  intro step hlt
  constructor
  · by_contra hsome
    apply hnone step hlt
    apply hall step
    exact (Association.lookup_isSome_iff _ _).mp (Option.ne_none_iff_isSome.mp hsome)
  · by_contra hsome
    apply hnone step hlt
    exact worked.responses _ (Option.ne_none_iff_isSome.mp hsome)

/--
What the simulator parses for the first `count` steps is fresh in every run, under
every interleaving, if and only if the directories hold no request and no response
of these steps when the run starts.
-/
theorem freshBelow_iff (solve : Text → Text) (count : Nat) (requests : Table Text Text)
    (responses : Table Text ResponseFile) (named : WellNamed requests responses) :
    FreshBelow solve count requests responses ↔ CleanBelow count requests responses := by
  constructor
  · exact clean_of_freshBelow
  · exact freshBelow_of_clean solve named

/-- Leftovers of later steps do not matter to the first ones. -/
theorem freshBelow_iff_later :
    FreshBelow (fun request => request) 1 [] [(responseName 7, ⟨"\x7b\x7d".toList, none⟩)] := by
  have named : WellNamed [] [(responseName 7, ⟨"\x7b\x7d".toList, none⟩)] := by
    refine ⟨nofun, ?_, ?_⟩
    · intro name hmem
      exact ⟨7, List.mem_singleton.mp hmem⟩
    · intro name file hfound
      simp only [Association.lookup] at hfound
      split at hfound
      · rw [← Option.some.inj hfound]
      · cases hfound
  refine (freshBelow_iff _ 1 _ _ named).mpr ?_
  intro step hlt
  obtain rfl : step = 0 := by omega
  exact ⟨rfl, by decide⟩

/-- With `response_000000.json` left by an earlier run, the first call parses it before the
controller has taken a single step. -/
theorem freshBelow_leftover_fails :
    ∃ final, Runs.runFrom (bridgeStep fun request => request)
        (BridgeState.start [] [("response_000000.json".toList, ⟨"\x7b\x7d".toList, none⟩)])
        [.writeRequest "\x7b\"step\": 0\x7d".toList, .pollHit, .readResponse] = some final ∧
      ∃ entry ∈ final.returned, ¬ entry.Fresh := by
  refine ⟨_, rfl, ⟨0, "\x7b\"step\": 0\x7d".toList, ⟨"\x7b\x7d".toList, none⟩⟩, by decide, ?_⟩
  exact nofun

end DeepcV2x.Bridge
