import Mathlib.Data.Nat.Notation
import Mathlib.Order.Defs.Unbundled

/-!
# Actions that may end abruptly

A method of an object with mutable fields either returns or throws. When it throws, the field
updates it made before that point stay. `Action σ ε` is such a method on states `σ` with errors
`ε`; `andThen` runs a second action only when the first one returned, and `forEach` runs a loop
body over a list until the list or the patience of the body ends.

What an action can do is stated by one relation between the state before and the state reached,
whether it returned or threw. The rules `andThen_rel` and `forEach_rel` derive such a statement for
a compound action from its parts, for any transitive relation.
-/

set_option autoImplicit false
set_option relaxedAutoImplicit false

namespace CampusMesh.Library

universe u v w

/-- A method on states `σ`: the state it reaches, and the error if it threw. -/
abbrev Action (σ : Type u) (ε : Type v) := σ → σ × Option ε

namespace Action

variable {σ : Type u} {ε : Type v} {α : Type w}

/-- Returns at once. -/
def skip : Action σ ε := fun state ↦ (state, none)

/-- Runs `second` from where `first` returned, and nothing more if `first` threw. -/
def andThen (first second : Action σ ε) : Action σ ε := fun state ↦
  match first state with
  | (reached, none) => second reached
  | (reached, some error) => (reached, some error)

/-- Runs the body on the items in order, until one of them throws. -/
def forEach (body : α → Action σ ε) : List α → Action σ ε
  | [] => skip
  | item :: rest => andThen (body item) (forEach body rest)

/-- What a loop adds up: the weights of the runs of its body, each in the state where it begins. -/
def forEachSum (weigh : α → σ → ℕ) (body : α → Action σ ε) : List α → σ → ℕ
  | [], _ => 0
  | item :: rest, state =>
    weigh item state +
      if (body item state).2.isNone then forEachSum weigh body rest (body item state).1 else 0

theorem andThen_of_returns {first second : Action σ ε} {state : σ}
    (hreturns : (first state).2 = none) :
    andThen first second state = second (first state).1 := by
  unfold andThen
  split
  · next reached heq => rw [heq]
  · next reached error heq =>
    rw [heq] at hreturns
    exact absurd hreturns (by simp)

theorem andThen_of_throws {first second : Action σ ε} {state : σ} {error : ε}
    (hthrows : (first state).2 = some error) :
    andThen first second state = ((first state).1, some error) := by
  unfold andThen
  split
  · next reached heq =>
    rw [heq] at hthrows
    exact absurd hthrows (by simp)
  · next reached other heq =>
    rw [heq] at hthrows ⊢
    rw [← hthrows]

/-- Keeping a property, as a relation between the states before and after. -/
def Keeps (Inv : σ → Prop) (before after : σ) : Prop := Inv before → Inv after

instance (Inv : σ → Prop) : Std.Refl (Keeps Inv) := ⟨fun _ ↦ id⟩

instance (Inv : σ → Prop) : IsTrans σ (Keeps Inv) := ⟨fun _ _ _ hfirst hsecond ↦ hsecond ∘ hfirst⟩

variable {R : σ → σ → Prop} [IsTrans σ R]

/-- A transitive relation holds across a sequence when it holds across each part. -/
theorem andThen_rel {first second : Action σ ε} {state : σ} (hfirst : R state (first state).1)
    (hsecond : (first state).2 = none → R (first state).1 (second (first state).1).1) :
    R state (andThen first second state).1 := by
  cases hresult : (first state).2 with
  | none =>
    rw [andThen_of_returns hresult]
    exact trans_of R hfirst (hsecond hresult)
  | some error =>
    rw [andThen_of_throws hresult]
    exact hfirst

/-- A preorder holds across a loop when it holds across each run of the body. -/
theorem forEach_rel [Std.Refl R] {body : α → Action σ ε} {items : List α}
    (hbody : ∀ item ∈ items, ∀ state, R state (body item state).1) (state : σ) :
    R state (forEach body items state).1 := by
  induction items generalizing state with
  | nil => exact refl_of R state
  | cons item rest ih =>
    exact andThen_rel (hbody item List.mem_cons_self state) fun _ ↦
      ih (fun other hother ↦ hbody other (List.mem_cons_of_mem item hother)) _

/-- A loop over items with distinct keys whose bodies leave each other's preconditions alone. Each
body then finds its own precondition as it was before the loop. -/
theorem forEach_rel_of_distinct [Std.Refl R] {β : Type*} (key : α → β) (ready : β → σ → Prop)
    {body : α → Action σ ε} {items : List α} (hdistinct : (items.map key).Nodup)
    (hbody : ∀ item ∈ items, ∀ state, ready (key item) state → R state (body item state).1)
    (hframe : ∀ item ∈ items, ∀ other, other ≠ key item → ∀ state, ready (key item) state →
      ready other state → ready other (body item state).1)
    {state : σ} (hready : ∀ item ∈ items, ready (key item) state) :
    R state (forEach body items state).1 := by
  induction items generalizing state with
  | nil => exact refl_of R state
  | cons item rest ih =>
    rw [List.map_cons, List.nodup_cons] at hdistinct
    refine andThen_rel (hbody item List.mem_cons_self state (hready item List.mem_cons_self))
      fun _ ↦ ih hdistinct.2 (fun other hother ↦ hbody other (List.mem_cons_of_mem item hother))
        (fun other hother ↦ hframe other (List.mem_cons_of_mem item hother)) fun other hother ↦ ?_
    refine hframe item List.mem_cons_self _ (fun heq ↦ hdistinct.1 ?_) state
      (hready item List.mem_cons_self) (hready other (List.mem_cons_of_mem item hother))
    rw [← heq]
    exact List.mem_map_of_mem hother

omit [IsTrans σ R] in
/-- A loop over items with distinct keys, with a count beside the state that each run of the body
raises by its weight. -/
theorem forEach_sum_of_distinct {β : Type*} (key : α → β) (ready : β → σ → Prop)
    {Inv : ℕ → σ → Prop} {weigh : α → σ → ℕ} {body : α → Action σ ε} {items : List α}
    (hdistinct : (items.map key).Nodup)
    (hbody : ∀ item ∈ items, ∀ count state, ready (key item) state → Inv count state →
      Inv (count + weigh item state) (body item state).1)
    (hframe : ∀ item ∈ items, ∀ other, other ≠ key item → ∀ state, ready (key item) state →
      ready other state → ready other (body item state).1)
    {count : ℕ} {state : σ} (hready : ∀ item ∈ items, ready (key item) state)
    (hstart : Inv count state) :
    Inv (count + forEachSum weigh body items state) (forEach body items state).1 := by
  induction items generalizing count state with
  | nil => exact hstart
  | cons item rest ih =>
    rw [List.map_cons, List.nodup_cons] at hdistinct
    have hitem := hbody item List.mem_cons_self count state (hready item List.mem_cons_self) hstart
    rw [forEachSum, forEach]
    cases hresult : (body item state).2 with
    | some error => rwa [andThen_of_throws hresult]
    | none =>
      rw [andThen_of_returns hresult, Option.isNone_none, if_pos rfl, ← Nat.add_assoc]
      refine ih hdistinct.2 (fun other hother ↦ hbody other (List.mem_cons_of_mem item hother))
        (fun other hother ↦ hframe other (List.mem_cons_of_mem item hother))
        (fun other hother ↦ ?_) hitem
      refine hframe item List.mem_cons_self _ (fun heq ↦ hdistinct.1 ?_) state
        (hready item List.mem_cons_self) (hready other (List.mem_cons_of_mem item hother))
      rw [← heq]
      exact List.mem_map_of_mem hother

omit [IsTrans σ R] in
theorem andThen_assoc (first second third : Action σ ε) :
    andThen (andThen first second) third = andThen first (andThen second third) := by
  funext state
  cases hfirst : (first state).2 with
  | none => rw [andThen_of_returns hfirst, andThen, andThen_of_returns hfirst, andThen]
  | some error =>
    rw [andThen_of_throws hfirst]
    have hthrows : (andThen first second state).2 = some error := by rw [andThen_of_throws hfirst]
    rw [andThen_of_throws hthrows, andThen_of_throws hfirst]

omit [IsTrans σ R] in
/-- A loop over two lists is the loop over the first and then that over the second. -/
theorem forEach_append (body : α → Action σ ε) (first second : List α) :
    forEach body (first ++ second) = andThen (forEach body first) (forEach body second) := by
  induction first with
  | nil => rfl
  | cons item rest ih => rw [List.cons_append, forEach, ih, forEach, andThen_assoc]

omit [IsTrans σ R] in
/-- A loop depends on its body at its items only. -/
theorem forEach_congr {body other : α → Action σ ε} {items : List α}
    (hsame : ∀ item ∈ items, body item = other item) :
    forEach body items = forEach other items := by
  induction items with
  | nil => rfl
  | cons item rest ih =>
    rw [forEach, forEach, hsame item List.mem_cons_self,
      ih fun next hnext ↦ hsame next (List.mem_cons_of_mem item hnext)]

omit [IsTrans σ R] in
/-- A loop whose body does nothing in a state does nothing in it. -/
theorem forEach_idle {body : α → Action σ ε} {items : List α} {state : σ}
    (hidle : ∀ item ∈ items, body item state = (state, none)) :
    forEach body items state = (state, none) := by
  induction items with
  | nil => rfl
  | cons item rest ih =>
    have hitem := hidle item List.mem_cons_self
    rw [forEach, andThen_of_returns (by rw [hitem]), hitem]
    exact ih fun next hnext ↦ hidle next (List.mem_cons_of_mem item hnext)

omit [IsTrans σ R] in
/-- A goal holds after a sequence when it holds wherever the sequence may end. -/
theorem andThen_establishes {goal : σ → Prop} {first second : Action σ ε} {state : σ}
    (hfirst : goal (first state).1) (hsecond : goal (second (first state).1).1) :
    goal (andThen first second state).1 := by
  cases hresult : (first state).2 with
  | none => rwa [andThen_of_returns hresult]
  | some error => rwa [andThen_of_throws hresult]

omit [IsTrans σ R] in
/-- A loop returns whose body always returns where it is run. -/
theorem forEach_returns {context : σ → Prop} {body : α → Action σ ε} {items : List α}
    (hbody : ∀ item ∈ items, ∀ state, context state →
      context (body item state).1 ∧ (body item state).2 = none)
    {state : σ} (hstart : context state) :
    context (forEach body items state).1 ∧ (forEach body items state).2 = none := by
  induction items generalizing state with
  | nil => exact ⟨hstart, rfl⟩
  | cons item rest ih =>
    have hitem := hbody item List.mem_cons_self state hstart
    rw [forEach, andThen_of_returns hitem.2]
    exact ih (fun other hother ↦ hbody other (List.mem_cons_of_mem item hother)) hitem.1

omit [IsTrans σ R] in
/-- What no body destroys is kept by the loop. -/
theorem forEach_keeps {goal : σ → Prop} {body : α → Action σ ε} {items : List α}
    (hkeeps : ∀ item ∈ items, ∀ state, goal state → goal (body item state).1)
    {state : σ} (hstart : goal state) : goal (forEach body items state).1 := by
  induction items generalizing state with
  | nil => exact hstart
  | cons item rest ih =>
    have hnext := hkeeps item List.mem_cons_self state hstart
    cases hresult : (body item state).2 with
    | some error => rwa [forEach, andThen_of_throws hresult]
    | none =>
      rw [forEach, andThen_of_returns hresult]
      exact ih (fun other hother ↦ hkeeps other (List.mem_cons_of_mem item hother)) hnext

omit [IsTrans σ R] in
/-- What one body establishes and no body destroys holds after the loop. -/
theorem forEach_establishes {context goal : σ → Prop} {body : α → Action σ ε} {items : List α}
    (hcontext : ∀ item ∈ items, ∀ state, context state →
      context (body item state).1 ∧ (body item state).2 = none)
    (hkeeps : ∀ item ∈ items, ∀ state, goal state → goal (body item state).1)
    {target : α} (htarget : target ∈ items)
    (hgoal : ∀ state, context state → goal (body target state).1)
    {state : σ} (hstart : context state) : goal (forEach body items state).1 := by
  induction items generalizing state with
  | nil => exact absurd htarget List.not_mem_nil
  | cons item rest ih =>
    have hitem := hcontext item List.mem_cons_self state hstart
    have hlater : ∀ other ∈ rest, ∀ reached, goal reached → goal (body other reached).1 :=
      fun other hother ↦ hkeeps other (List.mem_cons_of_mem item hother)
    rw [forEach, andThen_of_returns hitem.2]
    rcases List.mem_cons.mp htarget with rfl | hrest
    · exact forEach_keeps hlater (hgoal state hstart)
    · exact ih (fun other hother ↦ hcontext other (List.mem_cons_of_mem item hother)) hlater
        hrest hitem.1

end Action

end CampusMesh.Library
