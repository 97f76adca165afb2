import Mathlib.Algebra.Order.Group.Int
import Mathlib.Algebra.Order.Group.Abs
import Mathlib.Data.List.Count
import Mathlib.Data.List.Induction
import Mathlib.Logic.Function.Basic
import TokenWeasel.Library.Schedule

/-!
# Serving the least served

A server gives one unit of service at a time, to somebody who has had no more of it than either of
two parties that both stay in line.  Whoever else is served in between, the two stay within one
unit of each other, or no further apart than they were.
-/

namespace TokenWeasel.Library

universe u
variable {ι : Type u}

/-- How much more service `u` has had than `v`. -/
def gap (count : ι → Nat) (u v : ι) : Int := count u - count v

theorem gap_swap (count : ι → Nat) (u v : ι) : gap count v u = -gap count u v := by
  unfold gap
  omega

variable [DecidableEq ι]

/-- One unit of service to `i`. -/
def serve (count : ι → Nat) (i : ι) : ι → Nat := Function.update count i (count i + 1)

/-- Whenever somebody is served, it has had no more than `u` and no more than `v`. -/
def LeastServed (u v : ι) (count : ι → Nat) (picks : List ι) : Prop :=
  ∀ taken i rest, picks = taken ++ i :: rest →
    run serve count taken i ≤ run serve count taken u ∧
      run serve count taken i ≤ run serve count taken v

theorem serve_apply (count : ι → Nat) (i u : ι) :
    serve count i u = count u + if i = u then 1 else 0 := by
  unfold serve
  by_cases hu : i = u
  · subst hu
    rw [Function.update_self, if_pos rfl]
  · rw [Function.update_of_ne (Ne.symm hu), if_neg hu, Nat.add_zero]

theorem serve_run_apply (count : ι → Nat) (picks : List ι) (u : ι) :
    run serve count picks u = count u + picks.countP fun i ↦ i = u := by
  induction picks generalizing count with
  | nil => rfl
  | cons i picks ih =>
      rw [run_cons, ih, serve_apply, List.countP_cons]
      simp only [decide_eq_true_eq]
      omega

theorem LeastServed.swap {u v : ι} {count : ι → Nat} {picks : List ι}
    (h : LeastServed u v count picks) : LeastServed v u count picks :=
  fun taken i rest hsplit ↦ (h taken i rest hsplit).symm

theorem LeastServed.initial {u v : ι} {count : ι → Nat} {taken rest : List ι}
    (h : LeastServed u v count (taken ++ rest)) : LeastServed u v count taken := by
  intro first i later hsplit
  apply h first i (later ++ rest)
  rw [hsplit, List.append_assoc, List.cons_append]

theorem gap_serve_le {u v i : ι} {count : ι → Nat} (hv : count i ≤ count v) :
    gap (serve count i) u v ≤ max (gap count u v) 1 := by
  unfold gap
  rw [serve_apply, serve_apply]
  by_cases hiu : i = u
  · -- a unit for `u` comes only when `u` is not ahead
    subst hiu
    rw [if_pos rfl]
    omega
  · rw [if_neg hiu]
    omega

/-- The gap grows only while it is not positive. -/
theorem LeastServed.gap_le {u v : ι} {count : ι → Nat} {picks : List ι}
    (h : LeastServed u v count picks) :
    gap (run serve count picks) u v ≤ max (gap count u v) 1 := by
  induction picks using List.reverseRecOn with
  | nil => exact le_max_left _ _
  | append_singleton picks i ih =>
      have hlast := gap_serve_le (u := u) (h picks i [] rfl).2
      have hrest := ih h.initial
      rw [run_concat]
      omega

/-- The parties end no further apart than they began, or within one unit. -/
theorem LeastServed.abs_gap_le {u v : ι} {count : ι → Nat} {picks : List ι}
    (h : LeastServed u v count picks) :
    |gap (run serve count picks) u v| ≤ max |gap count u v| 1 := by
  have hup := h.gap_le
  have hdown := h.swap.gap_le
  rw [gap_swap, gap_swap count] at hdown
  have hle := le_abs_self (gap count u v)
  have hneg := neg_le_abs (gap count u v)
  apply abs_le.mpr
  omega

/-- A gap that is not zero never grows. -/
theorem abs_gap_serve_le {u v i : ι} {count : ι → Nat} (hu : count i ≤ count u)
    (hv : count i ≤ count v) (hgap : 1 ≤ |gap count u v|) :
    |gap (serve count i) u v| ≤ |gap count u v| := by
  have hup := gap_serve_le (u := u) hv
  have hdown := gap_serve_le (u := v) hu
  rw [gap_swap, gap_swap count] at hdown
  have hle := le_abs_self (gap count u v)
  have hneg := neg_le_abs (gap count u v)
  apply abs_le.mpr
  omega

/-- Service to `u` is paid for by its arrears and by service to `v`, up to one unit. -/
theorem LeastServed.count_le {u v : ι} {count : ι → Nat} {picks : List ι}
    (h : LeastServed u v count picks) :
    (picks.countP fun i ↦ i = u) ≤
      (count v - count u) + (picks.countP fun i ↦ i = v) + 1 := by
  have hgap := h.gap_le
  unfold gap at hgap
  rw [serve_run_apply, serve_run_apply] at hgap
  omega

end TokenWeasel.Library
