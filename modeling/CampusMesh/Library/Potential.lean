import CampusMesh.Library.Runs
import Mathlib.Algebra.BigOperators.Group.Finset.Basic
import Mathlib.Algebra.Order.BigOperators.Group.Finset
import Mathlib.Order.Interval.Finset.Nat

/-!
# The potential method

A potential gives every state a number. When a step that makes progress lowers it and a setback
raises it by a bounded amount, the progress of a whole run is paid for by the potential at its start
and by the setbacks on the way (`tally_add_potential_le`).

A potential is often a sum over places of which a step touches one: `sum_range_of_touched`.
-/

set_option autoImplicit false
set_option relaxedAutoImplicit false

namespace CampusMesh.Library

universe u v

variable {σ : Type u} {ε : Type v}

/-- What the steps of a run weigh together, each in the state in which it is taken. -/
def tally (step : σ → ε → σ) (weight : σ → ε → ℕ) : σ → List ε → ℕ
  | _, [] => 0
  | state, event :: rest => weight state event + tally step weight (step state event) rest

section Tally

variable {step : σ → ε → σ} {allowed : σ → ε → Prop} {weight : σ → ε → ℕ}

@[simp] theorem tally_nil (state : σ) : tally step weight state [] = 0 := rfl

@[simp] theorem tally_cons (state : σ) (event : ε) (rest : List ε) :
    tally step weight state (event :: rest) =
      weight state event + tally step weight (step state event) rest := rfl

/-- A run in two parts weighs what its parts weigh. -/
theorem tally_append (state : σ) (first second : List ε) :
    tally step weight state (first ++ second) =
      tally step weight state first + tally step weight (run step state first) second := by
  induction first generalizing state with
  | nil => simp
  | cons event rest ih => rw [List.cons_append, tally_cons, ih, tally_cons, run_cons, Nat.add_assoc]

/-- Weights that are all zero weigh nothing. -/
theorem tally_eq_zero {state : σ} {events : List ε}
    (hzero : Along step (fun current event ↦ weight current event = 0) state events) :
    tally step weight state events = 0 := by
  induction events generalizing state with
  | nil => rfl
  | cons event rest ih => rw [tally_cons, hzero.1, ih hzero.2]

/-- When every allowed step pays for its gain from the potential and its cost, so does every allowed
run. -/
theorem tally_add_potential_le (Inv : σ → Prop) {potential : σ → ℕ} {gain cost : σ → ε → ℕ}
    (hstep : ∀ state event, Inv state → allowed state event → Inv (step state event) ∧
      gain state event + potential (step state event) ≤ potential state + cost state event)
    {state : σ} (hinit : Inv state) {events : List ε} (halong : Along step allowed state events) :
    tally step gain state events + potential (run step state events) ≤
      potential state + tally step cost state events := by
  induction events generalizing state with
  | nil => simp
  | cons event rest ih =>
    obtain ⟨hinv, hpaid⟩ := hstep state event hinit halong.1
    have hrest := ih hinv halong.2
    rw [tally_cons, tally_cons, run_cons]
    omega

/-- Multiplied weights multiply what a run weighs. -/
theorem tally_mul (factor : ℕ) (state : σ) (events : List ε) :
    tally step (fun current event ↦ factor * weight current event) state events =
      factor * tally step weight state events := by
  induction events generalizing state with
  | nil => rfl
  | cons event rest ih => rw [tally_cons, tally_cons, ih, Nat.mul_add]

/-- Steps of one unit each weigh as much as there are of them. -/
theorem tally_eq_length {state : σ} {events : List ε}
    (hunit : Along step (fun current event ↦ weight current event = 1) state events) :
    tally step weight state events = events.length := by
  induction events generalizing state with
  | nil => rfl
  | cons event rest ih => rw [tally_cons, hunit.1, ih hunit.2, List.length_cons, Nat.add_comm]

/-- Steps of one unit or none weigh as much as there are of one. -/
theorem tally_toNat (counts : ε → Bool) (state : σ) (events : List ε) :
    tally step (fun _ event ↦ (counts event).toNat) state events = events.countP counts := by
  induction events generalizing state with
  | nil => rfl
  | cons event rest ih =>
    rw [tally_cons, ih, List.countP_cons, Nat.add_comm]
    cases counts event <;> rfl

end Tally

/-- A sum over places, when one place is touched: the rest of the sum is the same. -/
theorem sum_range_of_touched {count place : ℕ} (hplace : place < count) {before after : ℕ → ℕ}
    (hothers : ∀ other ≠ place, after other = before other) :
    ∑ other ∈ Finset.range count, after other + before place =
      ∑ other ∈ Finset.range count, before other + after place := by
  have hmem : place ∈ Finset.range count := Finset.mem_range.mpr hplace
  have hafter := Finset.add_sum_erase (Finset.range count) after hmem
  have hbefore := Finset.add_sum_erase (Finset.range count) before hmem
  have hrest : ∑ other ∈ (Finset.range count).erase place, after other =
      ∑ other ∈ (Finset.range count).erase place, before other :=
    Finset.sum_congr rfl fun other hother ↦ hothers other (Finset.ne_of_mem_erase hother)
  omega

end CampusMesh.Library
