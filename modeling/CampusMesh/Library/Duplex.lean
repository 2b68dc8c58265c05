import CampusMesh.Library.Runs
import Mathlib.Logic.Function.Basic

/-!
# Two parties with a channel in each direction

Two state machines that act on their own and send each other messages. What one sends goes to the
end of the queue of the other, which is delivered from its front, with any delay; messages may also
be lost. `Consistent` is the shape of an invariant that talks about each party alone and about each
message on its way: a step keeps it if the party that moves keeps its own part, given that the
message it receives is as promised, and sends only messages that are as promised
(`Consistent.step`).
-/

set_option autoImplicit false
set_option relaxedAutoImplicit false

namespace CampusMesh.Library

universe u v w

/-- One of two parties. -/
inductive Side
  | first | second
  deriving DecidableEq

/-- The opposite party. -/
def Side.other : Side → Side
  | first => second
  | second => first

@[simp] theorem Side.other_other (side : Side) : side.other.other = side := by
  cases side <;> rfl

theorem Side.other_ne (side : Side) : side.other ≠ side := by
  cases side <;> exact nofun

theorem Side.eq_or_eq_other (side current : Side) : current = side ∨ current = side.other := by
  cases side <;> cases current <;> simp [Side.other]

/-- The states of two parties and the messages on their way to each. -/
structure Duplex (σ : Type u) (μ : Type v) where
  parties : Side → σ
  incoming : Side → List μ

/-- What can happen to two parties. -/
inductive DuplexEvent (ε : Type w)
  | acts (side : Side) (event : ε)
  /-- The oldest message on its way to a party arrives. -/
  | delivered (side : Side)
  /-- The oldest message on its way to a party is lost. -/
  | lost (side : Side)

section Steps

variable {σ : Type u} {μ : Type v} {ε : Type w}

/-- A party moves to a new state and sends messages to the other. -/
def Duplex.moved (system : Duplex σ μ) (side : Side) (outcome : σ × List μ) : Duplex σ μ where
  parties := Function.update system.parties side outcome.1
  incoming := Function.update system.incoming side.other
    (system.incoming side.other ++ outcome.2)

/-- The oldest message on its way to a party is taken from the queue. -/
def Duplex.dequeued (system : Duplex σ μ) (side : Side) : Duplex σ μ :=
  { system with incoming := Function.update system.incoming side (system.incoming side).tail }

/-- One step of two parties, given what each does on its own and with a message. -/
def duplexStep (act : Side → ε → σ → σ × List μ) (receive : Side → μ → σ → σ × List μ)
    (system : Duplex σ μ) : DuplexEvent ε → Duplex σ μ
  | .acts side event => system.moved side (act side event (system.parties side))
  | .delivered side =>
    match system.incoming side with
    | [] => system
    | message :: _ =>
      (system.dequeued side).moved side (receive side message (system.parties side))
  | .lost side => system.dequeued side

/-- Each party is as promised, and so is each message on its way to it. -/
structure Consistent (Party : Side → σ → Prop) (Message : Side → μ → Prop) (system : Duplex σ μ) :
    Prop where
  party : ∀ side, Party side (system.parties side)
  message : ∀ side, ∀ message ∈ system.incoming side, Message side message

variable {Party : Side → σ → Prop} {Message : Side → μ → Prop} {system : Duplex σ μ}

theorem Consistent.moved (hsystem : Consistent Party Message system) {side : Side}
    {outcome : σ × List μ} (hparty : Party side outcome.1)
    (hsent : ∀ message ∈ outcome.2, Message side.other message) :
    Consistent Party Message (system.moved side outcome) := by
  constructor
  · intro current
    rcases side.eq_or_eq_other current with rfl | rfl
    · simpa only [Duplex.moved, Function.update_self] using hparty
    · simpa only [Duplex.moved, Function.update_of_ne side.other_ne] using hsystem.party side.other
  · intro current message hmem
    rcases side.eq_or_eq_other current with rfl | rfl
    · simp only [Duplex.moved, Function.update_of_ne current.other_ne.symm] at hmem
      exact hsystem.message current message hmem
    · simp only [Duplex.moved, Function.update_self, List.mem_append] at hmem
      exact hmem.elim (hsystem.message side.other message) (hsent message)

theorem Consistent.dequeued (hsystem : Consistent Party Message system) (side : Side) :
    Consistent Party Message (system.dequeued side) := by
  refine ⟨hsystem.party, fun current message hmem ↦ ?_⟩
  rcases side.eq_or_eq_other current with rfl | rfl
  · simp only [Duplex.dequeued, Function.update_self] at hmem
    exact hsystem.message current message (List.mem_of_mem_tail hmem)
  · simp only [Duplex.dequeued, Function.update_of_ne side.other_ne] at hmem
    exact hsystem.message side.other message hmem

/-- A step keeps what is promised if the party that moves does its part. -/
theorem Consistent.step {act : Side → ε → σ → σ × List μ} {receive : Side → μ → σ → σ × List μ}
    (hsystem : Consistent Party Message system) {event : DuplexEvent ε}
    (hact : ∀ side own, event = .acts side own → Party side (system.parties side) →
      Party side (act side own (system.parties side)).1 ∧
        ∀ message ∈ (act side own (system.parties side)).2, Message side.other message)
    (hreceive : ∀ side message state, Party side state → Message side message →
      Party side (receive side message state).1 ∧
        ∀ sent ∈ (receive side message state).2, Message side.other sent) :
    Consistent Party Message (duplexStep act receive system event) := by
  cases event with
  | acts side own =>
    have hmove := hact side own rfl (hsystem.party side)
    exact hsystem.moved hmove.1 hmove.2
  | delivered side =>
    rw [duplexStep]
    split
    · exact hsystem
    · rename_i message rest hqueue
      have hmove := hreceive side message (system.parties side) (hsystem.party side)
        (hsystem.message side message (hqueue ▸ List.mem_cons_self))
      exact (hsystem.dequeued side).moved hmove.1 hmove.2
  | lost side => exact hsystem.dequeued side

end Steps

end CampusMesh.Library
