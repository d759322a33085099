import DeepcV2x.Foundation.Runs

/-!
# Nodes that exchange datagrams

What the nodes of a network send is in flight until it is delivered.  Datagrams
are delivered in any order; they may be lost and may be duplicated.  The rule
for such a network asks what one action and one delivery keep, and says what all
runs keep.
-/

namespace DeepcV2x.Foundation.Datagrams

open Runs

variable {Node Datagram Action : Type*}

/-- The state of the nodes, and the datagrams in the order in which they were sent. -/
structure Network (Node Datagram : Type*) where
  nodes : Node
  inFlight : List Datagram

/-- What happens next. -/
inductive Event (Action : Type*)
  | act (action : Action)
  | deliver (i : Nat)
  | lose (i : Nat)
  | duplicate (i : Nat)

variable (act : Node → Action → Option (Node × List Datagram))
  (receive : Node → Datagram → Option (Node × List Datagram))

def step (network : Network Node Datagram) : Event Action → Option (Network Node Datagram)
  | .act action =>
      (act network.nodes action).map fun next => ⟨next.1, network.inFlight ++ next.2⟩
  | .deliver i =>
      network.inFlight[i]?.bind fun datagram =>
        (receive network.nodes datagram).map fun next =>
          ⟨next.1, network.inFlight.eraseIdx i ++ next.2⟩
  | .lose i => some { network with inFlight := network.inFlight.eraseIdx i }
  | .duplicate i =>
      network.inFlight[i]?.map fun datagram =>
        { network with inFlight := network.inFlight ++ [datagram] }

/-- What the nodes keep when they send: they stay sound, and what was genuine stays so. -/
structure Keeps (Sound : Node → Prop) (Genuine : Node → Datagram → Prop) (before : Node)
    (after : Node × List Datagram) : Prop where
  sound : Sound after.1
  stays : ∀ datagram, Genuine before datagram → Genuine after.1 datagram
  sent : ∀ datagram ∈ after.2, Genuine after.1 datagram

/-- The nodes are sound and all datagrams are genuine. -/
structure SoundNetwork (Sound : Node → Prop) (Genuine : Node → Datagram → Prop)
    (network : Network Node Datagram) : Prop where
  nodes : Sound network.nodes
  inFlight : ∀ datagram ∈ network.inFlight, Genuine network.nodes datagram

section Rule

/-- The nodes are ready for the event, and an action is allowed. -/
def Allows (ready : Node → Prop) (allowed : Node → Action → Prop)
    (network : Network Node Datagram) : Event Action → Prop
  | .act action => ready network.nodes ∧ allowed network.nodes action
  | _ => ready network.nodes

instance Allows.decidable {ready : Node → Prop} {allowed : Node → Action → Prop}
    [∀ node, Decidable (ready node)] [∀ node action, Decidable (allowed node action)]
    (network : Network Node Datagram) :
    ∀ event, Decidable (Allows ready allowed network event)
  | .act action => inferInstanceAs (Decidable (ready network.nodes ∧ allowed network.nodes action))
  | .deliver _ | .lose _ | .duplicate _ => inferInstanceAs (Decidable (ready network.nodes))

variable {act receive} {Sound ready : Node → Prop} {Genuine : Node → Datagram → Prop}
  {allowed : Node → Action → Prop}

theorem Keeps.network {before : Node} {after : Node × List Datagram}
    (keeps : Keeps Sound Genuine before after) {kept : List Datagram}
    (hkept : ∀ datagram ∈ kept, Genuine before datagram) :
    SoundNetwork Sound Genuine ⟨after.1, kept ++ after.2⟩ := by
  refine ⟨keeps.sound, fun datagram hmem => ?_⟩
  rcases List.mem_append.mp hmem with hold | hnew
  · exact keeps.stays datagram (hkept datagram hold)
  · exact keeps.sent datagram hnew

variable (hact : ∀ node action next, Sound node → ready node → allowed node action →
    act node action = some next → Keeps Sound Genuine node next)
  (hreceive : ∀ node datagram next, Sound node → ready node → Genuine node datagram →
    receive node datagram = some next → Keeps Sound Genuine node next)

include hact hreceive

theorem soundNetwork_step {network next : Network Node Datagram} {event : Event Action}
    (sound : SoundNetwork Sound Genuine network) (hallows : Allows ready allowed network event)
    (hstep : step act receive network event = some next) : SoundNetwork Sound Genuine next := by
  have hall := sound.inFlight
  have hfound : ∀ {i : Nat} {datagram : Datagram}, network.inFlight[i]? = some datagram →
      Genuine network.nodes datagram := fun hget => hall _ (List.mem_of_getElem? hget)
  have herase : ∀ i, ∀ datagram ∈ network.inFlight.eraseIdx i, Genuine network.nodes datagram :=
    fun i datagram hmem => hall datagram (List.mem_of_mem_eraseIdx hmem)
  cases event with
  | act action =>
      obtain ⟨after, hafter, rfl⟩ := Option.map_eq_some_iff.mp hstep
      exact (hact _ _ _ sound.nodes hallows.1 hallows.2 hafter).network hall
  | deliver i =>
      obtain ⟨datagram, hget, hstep⟩ := Option.bind_eq_some_iff.mp hstep
      obtain ⟨after, hafter, rfl⟩ := Option.map_eq_some_iff.mp hstep
      exact (hreceive _ _ _ sound.nodes hallows (hfound hget) hafter).network (herase i)
  | lose i =>
      obtain rfl := Option.some.inj hstep
      exact ⟨sound.nodes, herase i⟩
  | duplicate i =>
      obtain ⟨datagram, hget, rfl⟩ := Option.map_eq_some_iff.mp hstep
      refine ⟨sound.nodes, fun other hmem => ?_⟩
      rcases List.mem_append.mp hmem with hold | hnew
      · exact hall other hold
      · rw [List.mem_singleton.mp hnew]
        exact hfound hget

/-- In every run whose actions are allowed the nodes stay sound and all datagrams genuine. -/
theorem soundNetwork_of_run {first last : Network Node Datagram} {events : List (Event Action)}
    (sound : SoundNetwork Sound Genuine first)
    (hallows : Fitting (step act receive) (Allows ready allowed) first events)
    (hrun : runFrom (step act receive) first events = some last) :
    SoundNetwork Sound Genuine last :=
  invariant_of_fitting (step act receive) (SoundNetwork Sound Genuine)
    (fun _ _ _ hsound hfits hstep => soundNetwork_step hact hreceive hsound hfits hstep)
    sound hallows hrun

end Rule

end DeepcV2x.Foundation.Datagrams
