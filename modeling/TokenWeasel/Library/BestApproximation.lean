import Mathlib.Algebra.Order.Ring.Abs
import Mathlib.Data.List.Chain
import Mathlib.Tactic.Linarith
import Mathlib.Tactic.Ring

/-!
# Best approximations

The multiples of `k` modulo `m` stay away from 0 as far as the continued fraction of `k / m` says:
between two neighbouring fractions on the two sides of `k / m`, no smaller denominator has a smaller
error.  A fraction is a pair of its numerator and its denominator.
-/

namespace TokenWeasel.Library

/-- How far a fraction misses `k / m`, times its denominator and `m`. -/
def fractionError (k m : Int) (a : Int × Int) : Int := a.2 * k - a.1 * m

/-- Neighbouring fractions with `k / m` between them. -/
def Neighbours (k m : Int) (a b : Int × Int) : Prop :=
  0 < a.2 ∧ a.1 * b.2 - b.1 * a.2 ∈ [1, -1] ∧ fractionError k m a * fractionError k m b ≤ 0

instance (k m : Int) (a b : Int × Int) : Decidable (Neighbours k m a b) :=
  inferInstanceAs (Decidable (_ ∧ _ ∧ _))

section

variable {k m : Int} {a b : Int × Int}

/-- Every fraction is a combination of two neighbours. -/
theorem Neighbours.combination (h : Neighbours k m a b) (n d : Int) :
    ∃ s t, d = s * a.2 + t * b.2 ∧ n = s * a.1 + t * b.1 := by
  have hdet := h.2.1
  rw [List.mem_cons, List.mem_singleton] at hdet
  let u := a.1 * b.2 - b.1 * a.2
  have hu : u * u = 1 := by
    cases hdet with
    | inl hone => rw [show u = 1 from hone]; rfl
    | inr hneg => rw [show u = -1 from hneg]; rfl
  refine ⟨u * (n * b.2 - d * b.1), u * (d * a.1 - n * a.2), ?_, ?_⟩
  · calc d = u * u * d := by rw [hu, one_mul]
      _ = u * (n * b.2 - d * b.1) * a.2 + u * (d * a.1 - n * a.2) * b.2 := by
        simp only [u]
        ring
  · calc n = u * u * n := by rw [hu, one_mul]
      _ = u * (n * b.2 - d * b.1) * a.1 + u * (d * a.1 - n * a.2) * b.1 := by
        simp only [u]
        ring

/-- A denominator below that of the second neighbour has no smaller error than the first. -/
theorem Neighbours.best (h : Neighbours k m a b) {n d : Int} (hd : 0 < d) (hlt : d < b.2) :
    |fractionError k m a| ≤ |d * k - n * m| := by
  rcases h.combination n d with ⟨s, t, hden, hnum⟩
  have herror : d * k - n * m = s * fractionError k m a + t * fractionError k m b := by
    rw [hden, hnum, fractionError, fractionError]
    ring
  have hs : s ≠ 0 := by
    intro hzero
    rw [hzero, zero_mul, zero_add] at hden
    have hone : 1 ≤ t := by nlinarith
    nlinarith
  -- the second neighbour can only be taken with the other sign
  have hst : s * t ≤ 0 := by
    by_contra hpos
    rcases mul_pos_iff.mp (not_le.mp hpos) with ⟨hspos, htpos⟩ | ⟨hsneg, htneg⟩
    · nlinarith [h.1]
    · nlinarith [h.1]
  have hsame : 0 ≤ s * fractionError k m a * (t * fractionError k m b) := by
    have hprod := mul_nonneg_of_nonpos_of_nonpos hst h.2.2
    calc 0 ≤ s * t * (fractionError k m a * fractionError k m b) := hprod
      _ = s * fractionError k m a * (t * fractionError k m b) := by ring
  have hone : 1 ≤ |s| := Int.one_le_abs hs
  rw [herror, (abs_add_eq_add_abs_iff _ _).mpr (mul_nonneg_iff.mp hsame), abs_mul]
  have hfirst : |fractionError k m a| ≤ |s| * |fractionError k m a| :=
    le_mul_of_one_le_left (abs_nonneg _) hone
  have hsecond : 0 ≤ |t * fractionError k m b| := abs_nonneg _
  omega

/-- Some fractions, in the order of their denominators, and what is to hold of each of them beside
the next: the one whose denominator is the last below `n` is followed by one that is not below. -/
theorem exists_neighbours {R : Int × Int → Int × Int → Prop} {a : Int × Int}
    {fractions : List (Int × Int)} {n : Int} (hchain : (a :: fractions).IsChain R) (hfirst : a.2 < n)
    (hlast : n ≤ ((a :: fractions).getLast (List.cons_ne_nil _ _)).2) :
    ∃ b c, R b c ∧ b.2 < n ∧ n ≤ c.2 := by
  induction fractions generalizing a with
  | nil =>
      rw [List.getLast_singleton] at hlast
      omega
  | cons b rest ih =>
      rw [List.isChain_cons_cons] at hchain
      by_cases hnext : b.2 < n
      · rw [List.getLast_cons (List.cons_ne_nil _ _)] at hlast
        exact ih hchain.2 hnext hlast
      · exact ⟨a, b, hchain.1, hfirst, not_lt.mp hnext⟩

end

end TokenWeasel.Library
