import CampusMesh.Library.Runs
import Mathlib.Logic.Function.Basic

/-!
# Parties that exchange messages

Any number of state machines of one kind, each with a record of the messages that it ever handed to
the network. The network is as unreliable as can be: at any time a message of a record may arrive
at the party it is addressed to, in any order, again and again, or never.

`network_invariant` is the rule of assumptions and guarantees. If a party that only hears good
messages keeps its own invariant, and a party with the invariant has only good messages in its
record, then every party keeps the invariant in every run, though the parties rely on one another
in a circle.
-/

set_option autoImplicit false
set_option relaxedAutoImplicit false

namespace CampusMesh.Library

universe u v w x y

variable {ι : Type u} {σ : Type v} {ε : Type w} {μ : Type x} {κ : Type y}

/-- What can happen in a network. -/
inductive NetworkEvent (ι : Type u) (ε : Type w) (κ : Type y)
  | acts (party : ι) (event : ε)
  /-- The message at an index of the sender's record arrives. -/
  | delivers (sender receiver : ι) (index : ℕ) (context : κ)

/-- A kind of party: how it steps, what it handed to the network so far, and what event the arrival
of a message is for it. -/
structure PartyKind (ι : Type u) (σ : Type v) (ε : Type w) (μ : Type x) (κ : Type y) where
  step : σ → ε → σ
  record : σ → List (ι × μ)
  arrival : κ → ι → μ → ε

section Steps

variable [DecidableEq ι] (kind : PartyKind ι σ ε μ κ)

/-- One party takes a step. -/
def PartyKind.moves (system : ι → σ) (party : ι) (event : ε) : ι → σ :=
  Function.update system party (kind.step (system party) event)

/-- One step of a network. A message arrives nowhere but at the party it is addressed to. -/
def networkStep (system : ι → σ) : NetworkEvent ι ε κ → ι → σ
  | .acts party event => kind.moves system party event
  | .delivers sender receiver index context =>
    match (kind.record (system sender))[index]? with
    | some message =>
      if message.1 = receiver then
        kind.moves system receiver (kind.arrival context sender message.2)
      else system
    | none => system

/-- What the parties do on their own is allowed. -/
def ActsAllowed (allowed : ι → σ → ε → Prop) (system : ι → σ) : NetworkEvent ι ε κ → Prop
  | .acts party event => allowed party (system party) event
  | .delivers _ _ _ _ => True

variable {kind} {allowed : ι → σ → ε → Prop} {Inv : ι → σ → Prop} {good : ι → μ → Prop}

/-- A party that moves keeps the invariant of all. -/
theorem inv_moves
    (hstep : ∀ party state event, Inv party state → allowed party state event →
      Inv party (kind.step state event))
    {system : ι → σ} (hinv : ∀ party, Inv party (system party)) {party : ι} {event : ε}
    (hallowed : allowed party (system party) event) (other : ι) :
    Inv other (kind.moves system party event other) := by
  by_cases hother : other = party
  · subst hother
    rw [PartyKind.moves, Function.update_self]
    exact hstep other (system other) event (hinv other) hallowed
  · rw [PartyKind.moves, Function.update_of_ne hother]
    exact hinv other

/-- Assumptions and guarantees, in one step. -/
theorem inv_networkStep
    (hstep : ∀ party state event, Inv party state → allowed party state event →
      Inv party (kind.step state event))
    (harrival : ∀ party state context sender message, Inv party state → good sender message →
      allowed party state (kind.arrival context sender message))
    (hrecord : ∀ party state, Inv party state → ∀ message ∈ kind.record state, good party message.2)
    {system : ι → σ} (hinv : ∀ party, Inv party (system party)) {event : NetworkEvent ι ε κ}
    (hallowed : ActsAllowed allowed system event) (party : ι) :
    Inv party (networkStep kind system event party) := by
  cases event with
  | acts actor event => exact inv_moves hstep hinv hallowed party
  | delivers sender receiver index context =>
    cases hmessage : (kind.record (system sender))[index]? with
    | none =>
      simp only [networkStep, hmessage]
      exact hinv party
    | some message =>
      have hgood : good sender message.2 :=
        hrecord sender (system sender) (hinv sender) message (List.mem_of_getElem? hmessage)
      simp only [networkStep, hmessage]
      split_ifs
      · exact inv_moves hstep hinv
          (harrival receiver _ context sender message.2 (hinv receiver) hgood) party
      · exact hinv party

/-- **Assumptions and guarantees.** A party that hears only good messages keeps its invariant, and
the invariant makes it send good messages only: then all parties keep it in every run. -/
theorem network_invariant (good : ι → μ → Prop)
    (hstep : ∀ party state event, Inv party state → allowed party state event →
      Inv party (kind.step state event))
    (harrival : ∀ party state context sender message, Inv party state → good sender message →
      allowed party state (kind.arrival context sender message))
    (hrecord : ∀ party state, Inv party state → ∀ message ∈ kind.record state, good party message.2)
    {system : ι → σ} (hinit : ∀ party, Inv party (system party))
    {events : List (NetworkEvent ι ε κ)}
    (halong : Along (networkStep kind) (ActsAllowed allowed) system events) (party : ι) :
    Inv party (run (networkStep kind) system events party) :=
  run_invariant (fun reached : ι → σ ↦ ∀ party, Inv party (reached party))
    (fun _ _ hinv hallowed ↦ inv_networkStep hstep harrival hrecord hinv hallowed) hinit halong
    party

end Steps

end CampusMesh.Library
