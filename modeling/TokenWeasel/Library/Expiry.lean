import Mathlib.Data.List.Basic
import Mathlib.Data.List.TakeWhile
import Mathlib.Order.Basic

/-!
# Expiry at the front of a sorted log

A log that only grows at the back, by readings of a monotone clock, is sorted.  Expiry is then a
property of a prefix: popping expired entries from the front drops every expired entry.
-/

namespace TokenWeasel.Library

universe u
variable {α : Type u}

theorem dropWhile_eq_self_of_neg {p : α → Bool} {log : List α} (h : ∀ t, p t = false) :
    log.dropWhile p = log := by
  cases log with
  | nil => rfl
  | cons t log => exact List.dropWhile_cons_of_neg (by simp [h t])

/-- The expired entries of a log are its front, so popping leaves the others. -/
theorem dropWhile_eq_filter [Preorder α] {p : α → Bool} {log : List α}
    (hsorted : log.Pairwise (· ≤ ·)) (hp : ∀ s t, s ≤ t → p t = true → p s = true) :
    log.dropWhile p = log.filter fun t ↦ !p t := by
  induction log with
  | nil => rfl
  | cons t log ih =>
      obtain ⟨hhead, htail⟩ := List.pairwise_cons.mp hsorted
      by_cases ht : p t = true
      · rw [List.dropWhile_cons_of_pos ht, ih htail, List.filter_cons_of_neg (by simp [ht])]
      · -- nothing behind the first entry that stays is expired
        have hstay : ∀ t' ∈ t :: log, (!p t') = true := by
          intro t' hmem
          rw [Bool.not_eq_true']
          apply Bool.eq_false_iff.mpr
          intro hexpired
          obtain rfl | hmem := List.mem_cons.mp hmem
          · exact ht hexpired
          · exact ht (hp t t' (hhead t' hmem) hexpired)
        rw [List.dropWhile_cons_of_neg ht, List.filter_eq_self.mpr hstay]

theorem sorted_concat [Preorder α] {log : List α} (hsorted : log.Pairwise (· ≤ ·)) {now : α}
    (hnow : ∀ t ∈ log, t ≤ now) : (log ++ [now]).Pairwise (· ≤ ·) := by
  refine List.pairwise_append.mpr ⟨hsorted, List.pairwise_singleton _ _, fun t ht t' ht' ↦ ?_⟩
  rw [List.mem_singleton.mp ht']
  exact hnow t ht

end TokenWeasel.Library
