import Mathlib.Data.List.Basic
import Mathlib.Data.List.Induction

/-!
# Runs of a step function

A system is a step function on states and events, and a run folds it over a list of events. An
invariant that every allowed step keeps holds after every run whose steps are all allowed
(`run_invariant`); every initial part of such a run is one again (`along_append`), so the states
passed on the way are covered too.

For systems whose events belong to domains, `run_purge` is the unwinding theorem: when a step of
one domain is invisible to every other and what a domain sees after one of its own steps depends
only on what it saw before, deleting the events of all other domains changes nothing it sees.
-/

set_option autoImplicit false
set_option relaxedAutoImplicit false

namespace CampusMesh.Library

universe u v w

section Invariants

variable {σ : Type u} {ε : Type v}

/-- The state after a list of events, oldest first. -/
def run (step : σ → ε → σ) (state : σ) (events : List ε) : σ := events.foldl step state

/-- Every step of the run is allowed in the state in which it is taken. -/
def Along (step : σ → ε → σ) (allowed : σ → ε → Prop) : σ → List ε → Prop
  | _, [] => True
  | state, event :: rest => allowed state event ∧ Along step allowed (step state event) rest

variable {step : σ → ε → σ} {allowed : σ → ε → Prop}

@[simp] theorem run_nil (state : σ) : run step state [] = state := rfl

@[simp] theorem run_cons (state : σ) (event : ε) (rest : List ε) :
    run step state (event :: rest) = run step (step state event) rest := rfl

theorem run_append (state : σ) (first second : List ε) :
    run step state (first ++ second) = run step (run step state first) second :=
  List.foldl_append

@[simp] theorem along_cons (state : σ) (event : ε) (rest : List ε) :
    Along step allowed state (event :: rest) ↔
      allowed state event ∧ Along step allowed (step state event) rest := Iff.rfl

instance decidableAlong [∀ state event, Decidable (allowed state event)] :
    ∀ (state : σ) (events : List ε), Decidable (Along step allowed state events)
  | _, [] => inferInstanceAs (Decidable True)
  | state, event :: rest =>
    have := decidableAlong (step state event) rest
    inferInstanceAs (Decidable (_ ∧ _))

/-- A run in two parts is allowed exactly when both parts are. -/
theorem along_append (state : σ) (first second : List ε) :
    Along step allowed state (first ++ second) ↔
      Along step allowed state first ∧ Along step allowed (run step state first) second := by
  induction first generalizing state with
  | nil => simp [Along]
  | cons event rest ih => simp only [List.cons_append, along_cons, run_cons, ih, and_assoc]

/-- A run is allowed if every event is, in the state that the events before it lead to. -/
theorem along_of_splits {state : σ} {events : List ε}
    (hall : ∀ before event later, events = before ++ event :: later →
      allowed (run step state before) event) : Along step allowed state events := by
  induction events generalizing state with
  | nil => trivial
  | cons event rest ih =>
    exact ⟨hall [] event rest rfl, ih fun before other later hsplit ↦
      hall (event :: before) other later (congrArg (event :: ·) hsplit)⟩

/-- What is known of all events of a run is known at each step. -/
theorem along_of_forall {known : ε → Prop} {events : List ε} (hall : ∀ event ∈ events, known event)
    (state : σ) : Along step (fun _ event ↦ known event) state events :=
  along_of_splits fun before event _ hsplit ↦
    hall event (hsplit ▸ List.mem_append_right before List.mem_cons_self)

/-- An invariant that every allowed step keeps holds at the end of every allowed run. -/
theorem run_invariant (Inv : σ → Prop)
    (hstep : ∀ state event, Inv state → allowed state event → Inv (step state event))
    {state : σ} (hinit : Inv state) {events : List ε}
    (halong : Along step allowed state events) : Inv (run step state events) := by
  induction events generalizing state with
  | nil => exact hinit
  | cons event rest ih => exact ih (hstep state event hinit halong.1) halong.2

/-- An invariant that every step keeps holds at the end of every run. -/
theorem run_invariant_of_step (Inv : σ → Prop)
    (hstep : ∀ state event, Inv state → Inv (step state event))
    {state : σ} (hinit : Inv state) (events : List ε) : Inv (run step state events) := by
  induction events generalizing state with
  | nil => exact hinit
  | cons event rest ih => exact ih (hstep state event hinit)

/-- What holds of every allowed step from a state with the invariant holds along every allowed
run. -/
theorem along_of_invariant {promise : σ → ε → Prop} (Inv : σ → Prop)
    (hstep : ∀ state event, Inv state → allowed state event → Inv (step state event))
    (hpromise : ∀ state event, Inv state → allowed state event → promise state event)
    {state : σ} (hinit : Inv state) {events : List ε}
    (halong : Along step allowed state events) : Along step promise state events := by
  induction events generalizing state with
  | nil => trivial
  | cons event rest ih =>
    exact ⟨hpromise state event hinit halong.1, ih (hstep state event hinit halong.1) halong.2⟩

/-- What is allowed along a run is allowed in every weaker sense. -/
theorem Along.mono {weaker : σ → ε → Prop}
    (hweaker : ∀ state event, allowed state event → weaker state event) {state : σ}
    {events : List ε} (halong : Along step allowed state events) : Along step weaker state events :=
  along_of_invariant (fun _ ↦ True) (fun _ _ _ _ ↦ trivial)
    (fun state event _ ↦ hweaker state event) trivial halong

/-- When from every good state exactly the allowed steps lead to a good one, exactly the allowed
runs stay in good states. The invariant is what every step keeps. -/
theorem forall_prefix_iff_along {good : σ → Prop} (Inv : σ → Prop)
    (hstep : ∀ state event, Inv state → Inv (step state event))
    (hiff : ∀ state event, Inv state → good state → (good (step state event) ↔ allowed state event))
    {state : σ} (hinit : Inv state) (hgood : good state) (events : List ε) :
    (∀ before later, events = before ++ later → good (run step state before)) ↔
      Along step allowed state events := by
  induction events generalizing state with
  | nil =>
    refine iff_of_true (fun before later hsplit ↦ ?_) trivial
    rw [(List.append_eq_nil_iff.mp hsplit.symm).1]
    exact hgood
  | cons event rest ih =>
    have hevent := hiff state event hinit hgood
    constructor
    · intro hall
      have hnext : good (step state event) := hall [event] rest rfl
      exact ⟨hevent.mp hnext, (ih (hstep state event hinit) hnext).mp fun before later hsplit ↦
        hall (event :: before) later (congrArg (event :: ·) hsplit)⟩
    · rintro ⟨hallowed, halong⟩ before later hsplit
      cases before with
      | nil => exact hgood
      | cons first before =>
        obtain ⟨rfl, hrest⟩ := List.cons.inj hsplit
        exact (ih (hstep state event hinit) (hevent.mpr hallowed)).mpr halong before later hrest

/-- What does not hold of no event but of a whole run comes true at one of its events. -/
theorem exists_first {reached : List ε → Prop} (hinit : ¬ reached []) {events : List ε}
    (hreached : reached events) :
    ∃ passed last later, events = passed ++ last :: later ∧ ¬ reached passed ∧
      reached (passed ++ [last]) := by
  induction events using List.reverseRecOn with
  | nil => exact absurd hreached hinit
  | append_singleton part event ih =>
    by_cases hpart : reached part
    · obtain ⟨passed, last, later, rfl, hbefore, hafter⟩ := ih hpart
      exact ⟨passed, last, later ++ [event], by rw [List.append_assoc]; rfl, hbefore, hafter⟩
    · exact ⟨part, event, [], rfl, hpart, hreached⟩

/-- Every event of a run is one of its events, so what is known of these may be used at each step.
-/
theorem Along.and_mem {state : σ} {events : List ε} (halong : Along step allowed state events) :
    Along step (fun reached event ↦ allowed reached event ∧ event ∈ events) state events := by
  have hpart : ∀ part reached, (∀ event ∈ part, event ∈ events) → Along step allowed reached part →
      Along step (fun current event ↦ allowed current event ∧ event ∈ events) reached part := by
    intro part
    induction part with
    | nil => exact fun _ _ _ ↦ trivial
    | cons event rest ih =>
      exact fun reached hmem hpart ↦ ⟨⟨hpart.1, hmem event List.mem_cons_self⟩,
        ih _ (fun other hother ↦ hmem other (List.mem_cons_of_mem event hother)) hpart.2⟩
  exact hpart events state (fun _ h ↦ h) halong

end Invariants

section Unwinding

variable {σ : Type u} {ε : Type v} {δ : Type w} [DecidableEq δ]

/-- The events of one domain, in their order. -/
def purge (domain : ε → δ) (viewer : δ) (events : List ε) : List ε :=
  events.filter fun event ↦ domain event = viewer

/-- The unwinding theorem. `Agrees` says that two states look the same to a domain. Allowed steps of
other domains are invisible to it, its own allowed steps take states that look the same to states
that look the same, and both facts may use an invariant; whether a step of its own is allowed it can
see. An allowed run and the run with all foreign events deleted then end in states that look the
same. -/
theorem run_purge {step : σ → ε → σ} {allowed : σ → ε → Prop} {domain : ε → δ} {viewer : δ}
    (Inv : σ → Prop) {Agrees : σ → σ → Prop}
    (htrans : ∀ first second third, Agrees first second → Agrees second third →
      Agrees first third)
    (hinv : ∀ state event, Inv state → allowed state event → Inv (step state event))
    (hforeign : ∀ state event, Inv state → allowed state event → domain event ≠ viewer →
      Agrees (step state event) state)
    (hallowed : ∀ first second event, Agrees first second → domain event = viewer →
      allowed first event → allowed second event)
    (hown : ∀ first second event, Inv first → Inv second → allowed first event →
      domain event = viewer → Agrees first second → Agrees (step first event) (step second event))
    {events : List ε} {full purged : σ} (hfull : Inv full) (hpurged : Inv purged)
    (halong : Along step allowed full events) (hagree : Agrees full purged) :
    Agrees (run step full events) (run step purged (purge domain viewer events)) := by
  induction events generalizing full purged with
  | nil => exact hagree
  | cons event rest ih =>
    by_cases howned : domain event = viewer
    · rw [purge, List.filter_cons_of_pos (by simpa using howned)]
      exact ih (hinv full event hfull halong.1)
        (hinv purged event hpurged (hallowed full purged event hagree howned halong.1)) halong.2
        (hown full purged event hfull hpurged halong.1 howned hagree)
    · rw [purge, List.filter_cons_of_neg (by simpa using howned)]
      exact ih (hinv full event hfull halong.1) hpurged halong.2
        (htrans _ _ _ (hforeign full event hfull halong.1 howned) hagree)

end Unwinding

end CampusMesh.Library
