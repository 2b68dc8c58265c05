import CampusMesh.Library.Runs

/-!
# Runs with their histories

What a state means often depends on what has happened before it. `Happened` says that some step of
a run was of a given kind, and `run_history` proves what is to hold of a state and the events that
led to it: every step may use what holds of the events before. `gathered` is all that the steps of a
run give.
-/

set_option autoImplicit false
set_option relaxedAutoImplicit false

namespace CampusMesh.Library

universe u v

variable {σ : Type u} {ε : Type v} {step : σ → ε → σ} {kind : σ → ε → Prop} {state : σ}
  {events : List ε}

/-- Some step of the run is of the kind. -/
def Happened (step : σ → ε → σ) (kind : σ → ε → Prop) (state : σ) (events : List ε) : Prop :=
  ∃ before event later, events = before ++ event :: later ∧ kind (run step state before) event

/-- What has happened stays so. -/
theorem Happened.append (hhappened : Happened step kind state events) (more : List ε) :
    Happened step kind state (events ++ more) := by
  obtain ⟨before, event, later, rfl, hkind⟩ := hhappened
  exact ⟨before, event, later ++ more, by simp, hkind⟩

/-- What holds at every place of a list holds at all places but the last, and there. -/
theorem forall_split_concat_iff {holds : List ε → ε → Prop} {last : ε} :
    (∀ before event later, events ++ [last] = before ++ event :: later → holds before event) ↔
      (∀ before event later, events = before ++ event :: later → holds before event) ∧
        holds events last := by
  constructor
  · intro hall
    refine ⟨fun before event later hsplit ↦ hall before event (later ++ [last]) ?_,
      hall events last [] rfl⟩
    rw [hsplit, List.append_assoc, List.cons_append]
  · rintro ⟨hall, hlast⟩ before event later hsplit
    rcases List.eq_nil_or_concat later with rfl | ⟨rest, final, rfl⟩
    · obtain ⟨rfl, hsame⟩ := List.append_inj' hsplit rfl
      obtain rfl := List.singleton_inj.mp hsame
      exact hlast
    · have hregroup : events ++ [last] = (before ++ event :: rest) ++ [final] := by
        rw [hsplit, List.concat_eq_append, List.append_assoc, List.cons_append]
      exact hall before event rest (List.append_inj' hregroup rfl).1

/-- What has happened at the end of a run had happened before, or happens in the last step. -/
theorem happened_concat_iff {event : ε} :
    Happened step kind state (events ++ [event]) ↔
      Happened step kind state events ∨ kind (run step state events) event := by
  constructor
  · rintro ⟨before, found, later, hsplit, hkind⟩
    by_contra hneither
    rw [not_or] at hneither
    have hnever := forall_split_concat_iff.mpr
      ⟨fun before found later hsplit hkind ↦ hneither.1 ⟨before, found, later, hsplit, hkind⟩,
        hneither.2⟩
    exact hnever before found later hsplit hkind
  · rintro (hhappened | hkind)
    · exact hhappened.append [event]
    · exact ⟨events, event, [], rfl, hkind⟩

/-- An invariant of states and their histories. -/
theorem run_history (Inv : List ε → σ → Prop) (hinit : Inv [] state)
    (hstep : ∀ before event later, events = before ++ event :: later →
      Inv before (run step state before) →
        Inv (before ++ [event]) (step (run step state before) event)) :
    Inv events (run step state events) := by
  have hpart : ∀ before later, events = before ++ later → Inv before (run step state before) := by
    intro before
    induction before using List.reverseRecOn with
    | nil => exact fun _ _ ↦ hinit
    | append_singleton before event ih =>
      intro later hsplit
      rw [List.append_assoc, List.singleton_append] at hsplit
      rw [run_append]
      exact hstep before event later hsplit (ih (event :: later) hsplit)
  exact hpart events [] (List.append_nil events).symm

/-- What the steps of a run give, one after the other. -/
def gathered {α : Type*} (step : σ → ε → σ) (piece : σ → ε → List α) : σ → List ε → List α
  | _, [] => []
  | state, event :: rest => piece state event ++ gathered step piece (step state event) rest

theorem gathered_concat {α : Type*} {piece : σ → ε → List α} (state : σ) (events : List ε)
    (event : ε) :
    gathered step piece state (events ++ [event]) =
      gathered step piece state events ++ piece (run step state events) event := by
  induction events generalizing state with
  | nil => exact List.append_nil _
  | cons first rest ih => rw [List.cons_append, gathered, gathered, ih, List.append_assoc, run_cons]

end CampusMesh.Library
