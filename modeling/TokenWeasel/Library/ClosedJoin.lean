import Mathlib.Order.Bounds.Basic
import Mathlib.Order.Closure

/-!
# Closed joins

Observations are joined one after the other, and what there is so far is closed each time.  The
first observation is taken as it is.  From the second one on the result is the closure of the join
of all of them, which neither their order nor a repeated one changes.
-/

namespace TokenWeasel.Library

section

variable {α : Type*} [SemilatticeSup α]

/-- Joins the terms to `a`. -/
def joinFrom (a : α) (terms : List α) : α := terms.foldl (· ⊔ ·) a

/-- Joins the terms to `a`, and closes behind each of them. -/
def closedJoinFrom (c : ClosureOperator α) (a : α) (terms : List α) : α :=
  terms.foldl (fun total term ↦ c (total ⊔ term)) a

theorem joinFrom_cons (a term : α) (terms : List α) :
    joinFrom a (term :: terms) = joinFrom (a ⊔ term) terms :=
  rfl

theorem joinFrom_le_iff {a bound : α} {terms : List α} :
    joinFrom a terms ≤ bound ↔ ∀ x ∈ a :: terms, x ≤ bound := by
  induction terms generalizing a with
  | nil => simp [joinFrom]
  | cons term terms ih =>
      rw [joinFrom_cons, ih]
      simp only [List.forall_mem_cons, sup_le_iff, and_assoc]

theorem isLUB_joinFrom (a : α) (terms : List α) :
    IsLUB {x | x ∈ a :: terms} (joinFrom a terms) := by
  apply (isLUB_iff_le_iff).mpr
  intro bound
  exact joinFrom_le_iff

theorem joinFrom_sup (a b : α) (terms : List α) :
    joinFrom (a ⊔ b) terms = a ⊔ joinFrom b terms := by
  induction terms generalizing b with
  | nil => rfl
  | cons term terms ih => rw [joinFrom_cons, sup_assoc, ih, joinFrom_cons]

/-- A map that keeps joins keeps the join of the terms. -/
theorem map_joinFrom {β : Type*} [SemilatticeSup β] {f : α → β} (hf : ∀ a b, f (a ⊔ b) = f a ⊔ f b)
    (a : α) (terms : List α) : f (joinFrom a terms) = joinFrom (f a) (terms.map f) := by
  induction terms generalizing a with
  | nil => rfl
  | cons term terms ih => rw [joinFrom_cons, ih, hf, List.map_cons, joinFrom_cons]

variable (c : ClosureOperator α)

theorem closure_closedJoinFrom (a : α) (terms : List α) :
    c (closedJoinFrom c a terms) = c (joinFrom a terms) := by
  induction terms generalizing a with
  | nil => rfl
  | cons term terms ih =>
      have hraised : c (a ⊔ term) = c (a ⊔ term) ⊔ (a ⊔ term) :=
        (sup_eq_left.mpr (c.le_closure _)).symm
      have habsorbed : a ⊔ term ≤ joinFrom (a ⊔ term) terms :=
        (isLUB_joinFrom (a ⊔ term) terms).1 List.mem_cons_self
      rw [joinFrom_cons]
      show c (closedJoinFrom c (c (a ⊔ term)) terms) = _
      rw [ih, hraised, joinFrom_sup, c.closure_sup_closure_left, sup_eq_right.mpr habsorbed]

theorem isClosed_closedJoinFrom (a : α) {terms : List α} (hterms : terms ≠ []) :
    c.IsClosed (closedJoinFrom c a terms) := by
  obtain ⟨init, last, rfl⟩ := (List.eq_nil_or_concat terms).resolve_left hterms
  rw [closedJoinFrom, List.concat_eq_append, List.foldl_append]
  exact c.isClosed_closure _

/-- Behind the first term, only the closure of the join counts. -/
theorem closedJoinFrom_eq (a : α) {terms : List α} (hterms : terms ≠ []) :
    closedJoinFrom c a terms = c (joinFrom a terms) := by
  rw [← closure_closedJoinFrom, (isClosed_closedJoinFrom c a hterms).closure_eq]

/-- More terms, or greater ones, give no less. -/
theorem closedJoinFrom_le {a b : α} {terms more : List α} (hterms : terms ≠ []) (hmore : more ≠ [])
    (h : ∀ x ∈ a :: terms, ∃ y ∈ b :: more, x ≤ y) :
    closedJoinFrom c a terms ≤ closedJoinFrom c b more := by
  rw [closedJoinFrom_eq c a hterms, closedJoinFrom_eq c b hmore]
  apply c.monotone
  apply joinFrom_le_iff.mpr
  intro x hx
  obtain ⟨y, hy, hle⟩ := h x hx
  exact hle.trans ((isLUB_joinFrom b more).1 hy)

end

end TokenWeasel.Library
