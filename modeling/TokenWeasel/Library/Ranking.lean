import Mathlib.Data.List.Nodup
import Mathlib.Data.List.Rotate

/-!
# Rankings

Ways to put the elements of a list in another order: a rotation, a stable sort by a key, and one
element in front of the others.
-/

namespace TokenWeasel.Library

variable {α : Type*}

theorem rotateLeft_eq_rotate (l : List α) (n : Nat) : l.rotateLeft n = l.rotate n := by
  unfold List.rotateLeft
  dsimp only
  split
  · rename_i hshort
    match l, hshort with
    | [], _ => rfl
    | [a], _ => exact (List.rotate_singleton a n).symm
  · rw [List.rotate_eq_drop_append_take_mod]

/-! ## One element in front -/

theorem perm_cons_filter_ne [DecidableEq α] {l : List α} (hnodup : l.Nodup) {a : α} (ha : a ∈ l) :
    (a :: l.filter fun b ↦ b ≠ a).Perm l := by
  have herase : l.erase a = l.filter fun b ↦ b ≠ a := by
    rw [hnodup.erase_eq_filter]
    apply List.filter_congr
    intro b _
    rw [Bool.eq_iff_iff, bne_iff_ne, decide_eq_true_eq]
  rw [← herase]
  exact (List.perm_cons_erase ha).symm

/-! ## Order of two elements -/

/-- One of two elements comes first. -/
theorem pair_sublist_or {l : List α} {a b : α} (ha : a ∈ l) (hb : b ∈ l) (hne : a ≠ b) :
    [a, b].Sublist l ∨ [b, a].Sublist l := by
  induction l with
  | nil => exact absurd ha List.not_mem_nil
  | cons x rest ih =>
      cases List.mem_cons.mp ha with
      | inl hax =>
          have hrest : b ∈ rest := (List.mem_cons.mp hb).resolve_left fun h ↦ hne (hax.trans h.symm)
          rw [hax]
          exact Or.inl ((List.singleton_sublist.mpr hrest).cons_cons x)
      | inr harest =>
          cases List.mem_cons.mp hb with
          | inl hbx =>
              rw [hbx]
              exact Or.inr ((List.singleton_sublist.mpr harest).cons_cons x)
          | inr hbrest =>
              cases ih harest hbrest with
              | inl h => exact Or.inl (h.cons x)
              | inr h => exact Or.inr (h.cons x)

/-- Without repetitions, no two elements come before each other. -/
theorem not_sublist_swap {l : List α} (hnodup : l.Nodup) {a b : α} (hab : [a, b].Sublist l) :
    ¬ [b, a].Sublist l := by
  induction l with
  | nil => exact absurd (List.sublist_nil.mp hab) (by simp)
  | cons x rest ih =>
      have hx : x ∉ rest := (List.nodup_cons.mp hnodup).1
      intro hba
      cases hab with
      | cons _ hab =>
          cases hba with
          | cons _ hba => exact ih (List.nodup_cons.mp hnodup).2 hab hba
          | cons_cons _ ha => exact hx (hab.subset (by simp))
      | cons_cons _ hb =>
          cases hba with
          | cons _ hba => exact hx (hba.subset (by simp))
          | cons_cons _ ha => exact hx (List.singleton_sublist.mp ha)

/-! ## Sorting -/

section Sorting

variable {R : α → α → Prop} [DecidableRel R] (htrans : ∀ a b c, R a b → R b c → R a c)
  (htotal : ∀ a b, R a b ∨ R b a)

include htrans in
theorem decide_trans (a b c : α) (hab : decide (R a b) = true) (hbc : decide (R b c) = true) :
    decide (R a c) = true :=
  decide_eq_true (htrans a b c (of_decide_eq_true hab) (of_decide_eq_true hbc))

include htotal in
theorem decide_total (a b : α) : (decide (R a b) || decide (R b a)) = true := by
  rw [Bool.or_eq_true, decide_eq_true_eq, decide_eq_true_eq]
  exact htotal a b

include htrans htotal

theorem pairwise_mergeSort_rel (l : List α) : (l.mergeSort fun a b ↦ R a b).Pairwise R := by
  have hsorted := List.pairwise_mergeSort (decide_trans htrans) (decide_total htotal) l
  exact hsorted.imp of_decide_eq_true

/-- The sort is stable: elements that are as good as each other stay in the order in which they
were. -/
theorem pairwise_mergeSort_stable {S : α → α → Prop} {l : List α} (hnodup : l.Nodup)
    (hS : l.Pairwise S) :
    (l.mergeSort fun a b ↦ R a b).Pairwise fun a b ↦ R a b ∧ (R b a → S a b) := by
  have hperm := List.mergeSort_perm l fun a b ↦ decide (R a b)
  have hnodup' := hperm.nodup_iff.mpr hnodup
  have hsorted := pairwise_mergeSort_rel htrans htotal l
  apply List.pairwise_iff_forall_sublist.mpr
  intro a b hab
  refine ⟨List.pairwise_iff_forall_sublist.mp hsorted hab, fun hge ↦ ?_⟩
  have ha : a ∈ l := hperm.subset (hab.subset (by simp))
  have hb : b ∈ l := hperm.subset (hab.subset (by simp))
  have hne : a ≠ b := by
    have hpair := hnodup'.sublist hab
    simpa using hpair
  cases pair_sublist_or ha hb hne with
  | inl hfirst => exact List.pairwise_iff_forall_sublist.mp hS hfirst
  | inr hsecond =>
      -- the sort would have kept this order
      have hkept := List.pair_sublist_mergeSort (decide_trans htrans) (decide_total htotal)
        (decide_eq_true hge) hsecond
      exact absurd hkept (not_sublist_swap hnodup' hab)

end Sorting

/-- What is found first in a sorted list comes before all that could be found. -/
theorem rel_of_find? {R : α → α → Prop} {l : List α} {p : α → Bool} {a : α}
    (hrefl : ∀ b, R b b) (hsorted : l.Pairwise R) (hfind : l.find? p = some a) :
    ∀ b ∈ l, p b = true → R a b := by
  intro b hb hpb
  rcases List.find?_eq_some_iff_append.mp hfind with ⟨-, before, after, rfl, hbefore⟩
  cases List.mem_append.mp hb with
  | inl hmem =>
      have hfalse := hbefore b hmem
      rw [hpb] at hfalse
      exact absurd hfalse (by decide)
  | inr hmem =>
      cases List.mem_cons.mp hmem with
      | inl heq =>
          rw [heq]
          exact hrefl a
      | inr hafter =>
          exact (List.pairwise_cons.mp (List.pairwise_append.mp hsorted).2.1).1 b hafter

end TokenWeasel.Library
