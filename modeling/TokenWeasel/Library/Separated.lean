import Mathlib.Data.List.Basic

/-!
# Separated elements

A list is split at its separators and every element is read, which fails if one of them does.
-/

namespace TokenWeasel.Library

universe u v
variable {α : Type u} {β : Type v}

/-! ## Splitting -/

/-- Splitting commutes with a map that takes nothing else to the separator. -/
theorem splitOn_map [DecidableEq α] [DecidableEq β] (f : α → β) (sep : α)
    {xs : List α} (h : ∀ x ∈ xs, f x = f sep → x = sep) :
    (xs.map f).splitOn (f sep) = (xs.splitOn sep).map (List.map f) := by
  induction xs with
  | nil => rfl
  | cons x xs ih =>
      have hrest := ih fun y hy ↦ h y (List.mem_cons_of_mem x hy)
      rw [List.map_cons, List.splitOn_cons_eq_if_modifyHead, List.splitOn_cons_eq_if_modifyHead,
        hrest]
      by_cases hx : x = sep
      · rw [hx, if_pos (by simp), if_pos (by simp)]
        rfl
      · have hf : f x ≠ f sep := fun heq ↦ hx (h x List.mem_cons_self heq)
        rw [if_neg (by simpa using hf), if_neg (by simpa using hx)]
        cases xs.splitOn sep <;> rfl

/-- The first element is what stands before the first separator. -/
theorem headD_splitOn [DecidableEq α] (sep : α) (xs : List α) :
    (xs.splitOn sep).headD [] = xs.takeWhile (· ≠ sep) := by
  induction xs with
  | nil => rfl
  | cons x xs ih =>
      rw [List.splitOn_cons_eq_if_modifyHead]
      by_cases hx : x = sep
      · rw [if_pos (by simpa using hx), List.takeWhile_cons_of_neg (by simpa using hx)]
        rfl
      · rw [if_neg (by simpa using hx), List.takeWhile_cons_of_pos (by simpa using hx), ← ih]
        cases hsplit : xs.splitOn sep with
        | nil => exact absurd hsplit (List.splitOn_ne_nil sep xs)
        | cons element elements => rfl

/-- What is joined comes from an element or is a separator. -/
theorem mem_intercalate {sep x : α} {elements : List (List α)}
    (hx : x ∈ [sep].intercalate elements) : x = sep ∨ ∃ element ∈ elements, x ∈ element := by
  induction elements with
  | nil => exact absurd hx List.not_mem_nil
  | cons element elements ih =>
      by_cases hnil : elements = []
      · rw [hnil, List.intercalate_singleton] at hx
        exact Or.inr ⟨element, List.mem_cons_self, hx⟩
      · rw [List.intercalate_cons_of_ne_nil hnil] at hx
        rcases List.mem_append.mp hx with hx | hx
        · rcases List.mem_append.mp hx with hx | hx
          · exact Or.inr ⟨element, List.mem_cons_self, hx⟩
          · exact Or.inl (List.mem_singleton.mp hx)
        · rcases ih hx with hsep | ⟨later, hlater, hin⟩
          · exact Or.inl hsep
          · exact Or.inr ⟨later, List.mem_cons_of_mem element hlater, hin⟩

theorem mem_intercalate_of_mem {sep x : α} {element : List α} {elements : List (List α)}
    (helement : element ∈ elements) (hx : x ∈ element) : x ∈ [sep].intercalate elements := by
  induction elements with
  | nil => exact absurd helement List.not_mem_nil
  | cons first elements ih =>
      by_cases hnil : elements = []
      · rw [hnil] at helement ⊢
        rw [List.intercalate_singleton, ← List.mem_singleton.mp helement]
        exact hx
      · rw [List.intercalate_cons_of_ne_nil hnil]
        cases List.mem_cons.mp helement with
        | inl heq =>
            rw [← heq]
            exact List.mem_append_left _ (List.mem_append_left _ hx)
        | inr hlater => exact List.mem_append_right _ (ih hlater)

theorem mem_splitOn [DecidableEq α] {sep x : α} {xs : List α} (hx : x ∈ xs) (hne : x ≠ sep) :
    ∃ element ∈ xs.splitOn sep, x ∈ element := by
  have hjoin : [sep].intercalate (xs.splitOn sep) = xs := List.intercalate_splitOn sep
  rw [← hjoin] at hx
  exact (mem_intercalate hx).resolve_left hne

theorem mem_of_mem_splitOn [DecidableEq α] {sep x : α} {xs element : List α}
    (helement : element ∈ xs.splitOn sep) (hx : x ∈ element) : x ∈ xs := by
  have hjoin : [sep].intercalate (xs.splitOn sep) = xs := List.intercalate_splitOn sep
  rw [← hjoin]
  exact mem_intercalate_of_mem helement hx

/-! ## Reading every element -/

/-- Reading succeeds when every element does. -/
theorem mapM_eq_some {f : α → Option β} {xs : List α} {ys : List β} :
    xs.mapM f = some ys ↔ xs.map f = ys.map some := by
  induction xs generalizing ys with
  | nil =>
      cases ys with
      | nil => exact ⟨fun _ ↦ rfl, fun _ ↦ rfl⟩
      | cons y ys => exact ⟨fun h ↦ absurd h (by simp), fun h ↦ absurd h (by simp)⟩
  | cons x xs ih =>
      rw [List.mapM_cons, List.map_cons]
      cases hx : f x with
      | none => cases ys <;> simp
      | some y =>
          cases ys with
          | nil => simp [Option.bind_eq_some_iff]
          | cons z ys => simp [Option.bind_eq_some_iff, ih, and_comm]

theorem exists_map_some {f : α → Option β} {xs : List α}
    (h : ∀ x ∈ xs, (f x).isSome = true) : ∃ ys : List β, xs.map f = ys.map some := by
  induction xs with
  | nil => exact ⟨[], rfl⟩
  | cons x xs ih =>
      rcases Option.isSome_iff_exists.mp (h x List.mem_cons_self) with ⟨y, hy⟩
      rcases ih fun z hz ↦ h z (List.mem_cons_of_mem x hz) with ⟨ys, hys⟩
      exact ⟨y :: ys, by rw [List.map_cons, List.map_cons, hy, hys]⟩

/-- What was read of an element is among the results. -/
theorem read_of_mem {f : α → Option β} {xs : List α} {ys : List β} (h : xs.map f = ys.map some)
    {x : α} (hx : x ∈ xs) : ∃ y ∈ ys, f x = some y := by
  have hmem := List.mem_map_of_mem (f := f) hx
  rw [h] at hmem
  rcases List.mem_map.mp hmem with ⟨y, hy, heq⟩
  exact ⟨y, hy, heq.symm⟩

theorem mem_of_read {f : α → Option β} {xs : List α} {ys : List β} (h : xs.map f = ys.map some)
    {y : β} (hy : y ∈ ys) : ∃ x ∈ xs, f x = some y := by
  have hmem := List.mem_map_of_mem (f := some) hy
  rw [← h] at hmem
  exact List.mem_map.mp hmem

end TokenWeasel.Library
