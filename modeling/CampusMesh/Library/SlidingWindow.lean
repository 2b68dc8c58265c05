import Mathlib.Algebra.Order.Group.Defs
import Mathlib.Algebra.Order.Sub.Basic
import Mathlib.Data.List.Induction

/-!
# Sliding windows

Times that still count at a later time: those less than a window before it. A list of times may be
pruned to what counts now, since nothing that is dropped counts again later (`recent_recent`). When
every time of a list found fewer than `limit` recent times before it, no stretch of time that is
shorter than a window holds more than `limit` of them (`countP_narrow_le`).

Times are the elements of any ordered group.
-/

set_option autoImplicit false
set_option relaxedAutoImplicit false

namespace CampusMesh.Library

universe u

variable {τ : Type u} [AddCommGroup τ] [LinearOrder τ]

/-- The times that are less than a window before `now`. -/
def recent (window now : τ) (times : List τ) : List τ :=
  times.filter fun time ↦ now - time < window

theorem recent_append (window now : τ) (first second : List τ) :
    recent window now (first ++ second) = recent window now first ++ recent window now second :=
  List.filter_append _ _

/-- Each time found fewer than `limit` recent ones before it. -/
def Admitted (limit : ℕ) (window : τ) (times : List τ) : Prop :=
  ∀ before time after, times = before ++ time :: after →
    (recent window time before).length < limit

theorem admitted_nil (limit : ℕ) (window : τ) : Admitted limit window [] := by
  intro before time after hsplit
  exact absurd hsplit (by simp)

theorem admitted_append_singleton {limit : ℕ} {window time : τ} {times : List τ} :
    Admitted limit window (times ++ [time]) ↔
      Admitted limit window times ∧ (recent window time times).length < limit := by
  constructor
  · intro hadmitted
    refine ⟨fun before other after hsplit ↦ hadmitted before other (after ++ [time]) ?_,
      hadmitted times time [] rfl⟩
    rw [hsplit, List.append_assoc, List.cons_append]
  · rintro ⟨hadmitted, hfew⟩ before other after hsplit
    rcases List.eq_nil_or_concat after with rfl | ⟨front, last, rfl⟩
    · obtain ⟨rfl, hlast⟩ := List.append_inj' hsplit rfl
      cases hlast
      exact hfew
    · have hregroup : times ++ [time] = (before ++ other :: front) ++ [last] := by
        rw [hsplit, List.concat_eq_append, List.append_assoc, List.cons_append]
      exact hadmitted before other front (List.append_inj' hregroup rfl).1

/-- A stretch of time shorter than a window holds at most `limit` admitted times. The induction is
on the last of the list: if it lies in the stretch, all others there were recent when it came. -/
theorem countP_narrow_le {limit : ℕ} {window : τ} {times : List τ}
    (hadmitted : Admitted limit window times) {inside : τ → Bool}
    (hnarrow : ∀ first last, inside first → inside last → last - first < window) :
    times.countP inside ≤ limit := by
  induction times using List.reverseRecOn with
  | nil => exact Nat.zero_le limit
  | append_singleton times time ih =>
    obtain ⟨hbefore, hfew⟩ := admitted_append_singleton.mp hadmitted
    rw [List.countP_append, List.countP_singleton]
    split_ifs with hinside
    · have hrecent : times.countP inside ≤ (recent window time times).length := by
        rw [recent, ← List.countP_eq_length_filter]
        refine List.countP_mono_left fun other _ hother ↦ ?_
        exact decide_eq_true (hnarrow other time hother hinside)
      omega
    · exact ih hbefore

variable [IsOrderedAddMonoid τ]

/-- What no longer counts does not count later. -/
theorem recent_recent {earlier later : τ} (hle : earlier ≤ later) (window : τ) (times : List τ) :
    recent window later (recent window earlier times) = recent window later times := by
  rw [recent, recent, recent, List.filter_filter]
  refine List.filter_congr fun time _ ↦ ?_
  have himp : later - time < window → earlier - time < window :=
    lt_of_le_of_lt (sub_le_sub_right hle time)
  rw [Bool.eq_iff_iff, Bool.and_eq_true, decide_eq_true_eq, decide_eq_true_eq]
  exact ⟨fun hboth ↦ hboth.1, fun hlater ↦ ⟨hlater, himp hlater⟩⟩

/-- The two half-open intervals of the length of a window hold at most `limit` admitted times. -/
theorem countP_halfOpen_le {limit : ℕ} {window : τ} {times : List τ}
    (hadmitted : Admitted limit window times) (start : τ) :
    times.countP (fun time ↦ start < time ∧ time ≤ start + window) ≤ limit ∧
      times.countP (fun time ↦ start ≤ time ∧ time < start + window) ≤ limit := by
  constructor
  · refine countP_narrow_le hadmitted fun first last hfirst hlast ↦ ?_
    rw [decide_eq_true_eq] at hfirst hlast
    calc last - first ≤ start + window - first := sub_le_sub_right hlast.2 first
      _ < start + window - start := sub_lt_sub_left hfirst.1 _
      _ = window := add_sub_cancel_left start window
  · refine countP_narrow_le hadmitted fun first last hfirst hlast ↦ ?_
    rw [decide_eq_true_eq] at hfirst hlast
    calc last - first < start + window - first := sub_lt_sub_right hlast.2 first
      _ ≤ start + window - start := sub_le_sub_left hfirst.1 _
      _ = window := add_sub_cancel_left start window

end CampusMesh.Library
