import Mathlib.Algebra.Order.BigOperators.Group.List
import Mathlib.Algebra.Order.Ring.Int

/-!
# Checked sums

A sum that is taken one term after the other and fails as soon as it leaves its range.  It depends
on the order of the terms unless none of them is negative.
-/

namespace TokenWeasel.Library

/-- Adds the terms to what there is so far. -/
def checkedSumFrom (low high : Int) : Int → List Int → Option Int
  | total, [] => some total
  | total, term :: terms =>
    if low ≤ total + term ∧ total + term ≤ high then checkedSumFrom low high (total + term) terms
    else none

def checkedSum (low high : Int) (terms : List Int) : Option Int := checkedSumFrom low high 0 terms

section

variable {low high : Int}

theorem checkedSumFrom_eq_some {total result : Int} {terms : List Int}
    (h : checkedSumFrom low high total terms = some result) : result = total + terms.sum := by
  induction terms generalizing total with
  | nil => simpa [checkedSumFrom] using h.symm
  | cons term terms ih =>
      rw [checkedSumFrom] at h
      split at h
      · rw [ih h, List.sum_cons, Int.add_assoc]
      · exact absurd h (by simp)

/-- A checked sum that does not fail is exact. -/
theorem checkedSum_eq_some {terms : List Int} (h : (checkedSum low high terms).isSome = true) :
    checkedSum low high terms = some terms.sum := by
  rcases Option.isSome_iff_exists.mp h with ⟨result, hresult⟩
  rw [hresult, checkedSumFrom_eq_some hresult, Int.zero_add]

theorem checkedSumFrom_isSome {total : Int} {terms : List Int} (hlow : low ≤ total)
    (hhigh : total ≤ high) (hterms : ∀ term ∈ terms, 0 ≤ term) :
    (checkedSumFrom low high total terms).isSome = true ↔ total + terms.sum ≤ high := by
  induction terms generalizing total with
  | nil => simpa [checkedSumFrom] using hhigh
  | cons term terms ih =>
      have hterm := hterms term List.mem_cons_self
      have hrest : ∀ term ∈ terms, 0 ≤ term := fun t ht ↦ hterms t (List.mem_cons_of_mem _ ht)
      have hsum : 0 ≤ terms.sum := List.sum_nonneg hrest
      rw [checkedSumFrom, List.sum_cons]
      split
      · rename_i hrange
        rw [ih hrange.1 hrange.2 hrest, Int.add_assoc]
      · rename_i hrange
        rw [Option.isSome_none]
        constructor
        · intro h
          exact absurd h (by simp)
        · intro h
          omega

/-- Without negative terms only the sum itself has to be in range. -/
theorem checkedSum_isSome {terms : List Int} (hlow : low ≤ 0) (hhigh : 0 ≤ high)
    (hterms : ∀ term ∈ terms, 0 ≤ term) :
    (checkedSum low high terms).isSome = true ↔ terms.sum ≤ high := by
  rw [checkedSum, checkedSumFrom_isSome hlow hhigh hterms, Int.zero_add]

end

/-! ## Sums of a column -/

section

variable {α : Type*}

theorem sum_map_nonneg {rows : List α} {column : α → Int} (h : ∀ row ∈ rows, 0 ≤ column row) :
    0 ≤ (rows.map column).sum := by
  apply List.sum_nonneg
  intro n hn
  obtain ⟨row, hrow, rfl⟩ := List.mem_map.mp hn
  exact h row hrow

theorem sum_map_sub (f g : α → Int) (rows : List α) :
    (rows.map fun row ↦ f row - g row).sum = (rows.map f).sum - (rows.map g).sum := by
  induction rows with
  | nil => rfl
  | cons row rows ih =>
      simp only [List.map_cons, List.sum_cons]
      omega

/-- No term is more than a sum without negative terms. -/
theorem le_sum_map {rows : List α} {column : α → Int} (h : ∀ row ∈ rows, 0 ≤ column row) {row : α}
    (hrow : row ∈ rows) : column row ≤ (rows.map column).sum := by
  apply List.single_le_sum
  · intro n hn
    obtain ⟨other, hother, rfl⟩ := List.mem_map.mp hn
    exact h other hother
  · exact List.mem_map_of_mem hrow

end

end TokenWeasel.Library
