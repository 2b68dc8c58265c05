import CampusMesh.Library.History
import Mathlib.Logic.Function.Basic

/-!
# Shelves

A shelf has one place for each name. A thing is put on a place that is free, lies there unchanged,
and is taken away again. Something that is made of many steps, any of which may be the last, is a
shelf when each step is one of these three moves (`Shelved`). Then whatever lies there was put there
(`Shelved.source`), and if no name is used twice, a name stands for one thing throughout
(`Shelved.agrees`).
-/

set_option autoImplicit false
set_option relaxedAutoImplicit false

namespace CampusMesh.Library

universe u v w x

variable {ι : Type u} {α : Type v} [DecidableEq ι]

/-- What may become of a shelf in one step. -/
inductive ShelfMove (puts takes : ι → α → Prop) (old : ι → Option α) : (ι → Option α) → Prop
  | kept : ShelfMove puts takes old old
  | put (name : ι) (thing : α) (hputs : puts name thing) (hfree : old name = none) :
      ShelfMove puts takes old (Function.update old name (some thing))
  | taken (name : ι) (thing : α) (htakes : takes name thing) (hthere : old name = some thing) :
      ShelfMove puts takes old (Function.update old name none)

section Move

variable {puts takes other otherTakes : ι → α → Prop} {old new : ι → Option α} {name : ι}
  {thing : α}

theorem ShelfMove.mono (hmove : ShelfMove puts takes old new)
    (hputs : ∀ name thing, puts name thing → other name thing)
    (htakes : ∀ name thing, takes name thing → otherTakes name thing) :
    ShelfMove other otherTakes old new := by
  cases hmove with
  | kept => exact .kept
  | put name thing hput hfree => exact .put name thing (hputs name thing hput) hfree
  | taken name thing htaken hthere => exact .taken name thing (htakes name thing htaken) hthere

/-- What lies there now lay there before, or has just been put on a free place. -/
theorem ShelfMove.source (hmove : ShelfMove puts takes old new) (hnew : new name = some thing) :
    old name = some thing ∨ old name = none ∧ puts name thing := by
  cases hmove with
  | kept => exact Or.inl hnew
  | put place item hputs hfree =>
    by_cases hname : name = place
    · subst hname
      rw [Function.update_self] at hnew
      obtain rfl := Option.some.inj hnew
      exact Or.inr ⟨hfree, hputs⟩
    · rw [Function.update_of_ne hname] at hnew
      exact Or.inl hnew
  | taken place item _ _ =>
    by_cases hname : name = place
    · rw [hname, Function.update_self] at hnew
      cases hnew
    · rw [Function.update_of_ne hname] at hnew
      exact Or.inl hnew

end Move

/-! ### Runs -/

section Runs

variable {σ : Type w} {ε : Type x} {step : σ → ε → σ} {shelf : σ → ι → Option α}
  {puts takes : List ε → ε → ι → α → Prop} {state : σ} {events : List ε} {name : ι} {thing : α}

/-- Every step of a run moves things on a shelf, as the events before it and its own allow. -/
def Shelved (step : σ → ε → σ) (shelf : σ → ι → Option α)
    (puts takes : List ε → ε → ι → α → Prop) (state : σ) (events : List ε) : Prop :=
  ∀ before event later, events = before ++ event :: later →
    ShelfMove (puts before event) (takes before event) (shelf (run step state before))
      (shelf (run step state (before ++ [event])))

theorem Shelved.left {later : List ε}
    (hshelved : Shelved step shelf puts takes state (events ++ later)) :
    Shelved step shelf puts takes state events := by
  rintro before event rest rfl
  exact hshelved before event (rest ++ later) (by simp)

/-- **Everything was put there.** What lies on the shelf lay there at the start or was put there. -/
theorem Shelved.source (hshelved : Shelved step shelf puts takes state events)
    (hthere : shelf (run step state events) name = some thing) :
    shelf state name = some thing ∨
      ∃ before event later, events = before ++ event :: later ∧ puts before event name thing := by
  induction events using List.reverseRecOn with
  | nil => exact Or.inl hthere
  | append_singleton before event ih =>
    rcases (hshelved before event [] rfl).source hthere with hold | ⟨-, hputs⟩
    · refine (ih hshelved.left hold).imp_right ?_
      rintro ⟨front, first, later, rfl, hputs⟩
      exact ⟨front, first, later ++ [event], by simp, hputs⟩
    · exact Or.inr ⟨before, event, [], rfl, hputs⟩

/-- **A name means one thing.** When things are put under names that were never used, what lies
under a name at one time and at another is the same. -/
theorem Shelved.agrees (hshelved : Shelved step shelf puts takes state events)
    (hunused : ∀ before event later, events = before ++ event :: later → ∀ name thing,
      puts before event name thing → ∀ part rest, before = part ++ rest →
        shelf (run step state part) name = none)
    {first second firstRest secondRest : List ε} (hfirst : events = first ++ firstRest)
    (hsecond : events = second ++ secondRest) {other : α}
    (hthing : shelf (run step state first) name = some thing)
    (hother : shelf (run step state second) name = some other) : thing = other := by
  have hlater : ∀ middle : List ε, ∀ part rest found item, events = part ++ middle ++ rest →
      shelf (run step state part) name = some found →
        shelf (run step state (part ++ middle)) name = some item → found = item := by
    intro middle part
    induction middle using List.reverseRecOn with
    | nil =>
      intro rest found item _ hfound hitem
      rw [List.append_nil, hfound] at hitem
      exact Option.some.inj hitem
    | append_singleton middle event ih =>
      intro rest found item hsplit hfound hitem
      have hcut : events = (part ++ middle) ++ event :: rest := by simp [hsplit]
      have hmove := hshelved (part ++ middle) event rest hcut
      rw [List.append_assoc] at hmove
      rcases hmove.source hitem with hold | ⟨-, hputs⟩
      · exact ih (event :: rest) found item hcut hfound hold
      · have hfree := hunused _ _ _ hcut name item hputs part middle rfl
        rw [hfound] at hfree
        cases hfree
  rcases List.append_eq_append_iff.mp (hfirst.symm.trans hsecond) with
    ⟨middle, rfl, -⟩ | ⟨middle, rfl, -⟩
  · exact hlater middle first secondRest thing other hsecond hthing hother
  · exact (hlater middle second firstRest other thing hfirst hother hthing).symm

end Runs

end CampusMesh.Library
