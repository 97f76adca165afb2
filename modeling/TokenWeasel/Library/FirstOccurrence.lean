import Mathlib.Data.List.Chain
import Mathlib.Data.List.Induction
import Mathlib.Order.Basic

/-!
# First occurrences

Two ways to keep a list free of duplicates while it is built in order: keep the first element with
each key, remembering the keys seen, and append an element unless it repeats the last one.
-/

namespace TokenWeasel.Library

universe u v
variable {α : Type u} {κ : Type v}

section DistinctBy

variable [DecidableEq κ] (key : α → κ)

/-- Keep the first element with each key that has not been seen. -/
def distinctBy : List κ → List α → List α
  | _, [] => []
  | seen, x :: xs =>
    if key x ∈ seen then distinctBy seen xs else x :: distinctBy (key x :: seen) xs

variable {key}

theorem mem_of_mem_distinctBy {seen : List κ} {xs : List α} {x : α}
    (h : x ∈ distinctBy key seen xs) : x ∈ xs := by
  induction xs generalizing seen with
  | nil => exact h
  | cons y xs ih =>
      rw [distinctBy] at h
      split at h
      · exact List.mem_cons_of_mem y (ih h)
      · cases List.mem_cons.mp h with
        | inl heq => exact heq ▸ List.mem_cons_self
        | inr hmem => exact List.mem_cons_of_mem y (ih hmem)

theorem key_not_mem_seen {seen : List κ} {xs : List α} {x : α}
    (h : x ∈ distinctBy key seen xs) : key x ∉ seen := by
  induction xs generalizing seen with
  | nil => exact absurd h List.not_mem_nil
  | cons y xs ih =>
      rw [distinctBy] at h
      split at h
      · exact ih h
      · rename_i hy
        cases List.mem_cons.mp h with
        | inl heq => exact heq ▸ hy
        | inr hmem => exact fun hseen ↦ ih hmem (List.mem_cons_of_mem _ hseen)

theorem distinctBy_keys_nodup (seen : List κ) (xs : List α) :
    ((distinctBy key seen xs).map key).Nodup := by
  induction xs generalizing seen with
  | nil => exact List.nodup_nil
  | cons y xs ih =>
      rw [distinctBy]
      split
      · exact ih seen
      · rw [List.map_cons]
        apply List.nodup_cons.mpr
        constructor
        · intro hmem
          rcases List.mem_map.mp hmem with ⟨x, hx, heq⟩
          exact key_not_mem_seen hx (heq ▸ List.mem_cons_self)
        · exact ih _

theorem distinctBy_eq_self {seen : List κ} {xs : List α} (hnodup : (xs.map key).Nodup)
    (hseen : ∀ x ∈ xs, key x ∉ seen) : distinctBy key seen xs = xs := by
  induction xs generalizing seen with
  | nil => rfl
  | cons y xs ih =>
      rw [List.map_cons] at hnodup
      have hfirst := (List.nodup_cons.mp hnodup).1
      rw [distinctBy, if_neg (hseen y List.mem_cons_self)]
      congr 1
      apply ih (List.nodup_cons.mp hnodup).2
      intro x hx hmem
      cases List.mem_cons.mp hmem with
      | inl heq => exact hfirst (heq ▸ List.mem_map_of_mem hx)
      | inr hold => exact hseen x (List.mem_cons_of_mem y hx) hold

/-- For a key that has not been seen the first element is the same. -/
theorem find?_distinctBy {seen : List κ} {k : κ} (hk : k ∉ seen) (xs : List α) :
    (distinctBy key seen xs).find? (fun x ↦ key x = k) = xs.find? fun x ↦ key x = k := by
  induction xs generalizing seen with
  | nil => rfl
  | cons y xs ih =>
      rw [distinctBy]
      by_cases hy : key y = k
      · rw [if_neg (by rw [hy]; exact hk), List.find?_cons_of_pos (by simpa using hy),
          List.find?_cons_of_pos (by simpa using hy)]
      · rw [List.find?_cons_of_neg (by simpa using hy)]
        split
        · exact ih hk
        · rw [List.find?_cons_of_neg (by simpa using hy)]
          apply ih
          intro hmem
          cases List.mem_cons.mp hmem with
          | inl heq => exact hy heq.symm
          | inr hseen => exact hk hseen

theorem exists_mem_iff_find? {k : κ} {xs : List α} :
    (∃ x ∈ xs, key x = k) ↔ (xs.find? fun x ↦ key x = k) ≠ none := by
  rw [Ne, List.find?_eq_none]
  simp

/-- An element of a list without repeated keys is the first with its key. -/
theorem find?_of_mem_nodup {xs : List α} (hnodup : (xs.map key).Nodup) {x : α} (hx : x ∈ xs) :
    (xs.find? fun y ↦ key y = key x) = some x := by
  induction xs with
  | nil => exact absurd hx List.not_mem_nil
  | cons y xs ih =>
      rw [List.map_cons] at hnodup
      have hnot := (List.nodup_cons.mp hnodup).1
      cases List.mem_cons.mp hx with
      | inl heq =>
          subst heq
          exact List.find?_cons_of_pos (by simp)
      | inr hmem =>
          have hne : key y ≠ key x := fun heq ↦ hnot (heq ▸ List.mem_map_of_mem hmem)
          rw [List.find?_cons_of_neg (by simpa using hne)]
          exact ih (List.nodup_cons.mp hnodup).2 hmem

/-- The keys that are kept depend on the keys alone. -/
theorem distinctBy_map_key (seen : List κ) (xs : List α) :
    (distinctBy key seen xs).map key = distinctBy id seen (xs.map key) := by
  induction xs generalizing seen with
  | nil => rfl
  | cons y xs ih =>
      rw [List.map_cons, distinctBy, distinctBy, id_eq]
      split
      · exact ih seen
      · rw [List.map_cons, ih]

/-- A list without repeated keys is its keys and the element of each. -/
theorem filterMap_find?_keys {xs : List α} (hnodup : (xs.map key).Nodup) :
    (xs.map key).filterMap (fun k ↦ xs.find? fun x ↦ key x = k) = xs := by
  rw [List.filterMap_map]
  have hfind : ∀ x ∈ xs, ((fun k ↦ xs.find? fun y ↦ key y = k) ∘ key) x = some x :=
    fun x hx ↦ find?_of_mem_nodup hnodup hx
  rw [List.filterMap_congr hfind, List.filterMap_some]

theorem eq_of_find?_eq {xs ys : List α} (hkeys : xs.map key = ys.map key)
    (hnodup : (xs.map key).Nodup)
    (hfind : ∀ k, (xs.find? fun x ↦ key x = k) = ys.find? fun y ↦ key y = k) : xs = ys := by
  have hys := filterMap_find?_keys (hkeys ▸ hnodup)
  have hcongr : (xs.map key).filterMap (fun k ↦ xs.find? fun x ↦ key x = k) =
      (ys.map key).filterMap fun k ↦ ys.find? fun y ↦ key y = k := by
    rw [hkeys]
    exact List.filterMap_congr fun k _ ↦ hfind k
  rw [filterMap_find?_keys hnodup, hys] at hcongr
  exact hcongr

end DistinctBy

section PushNew

variable [DecidableEq α]

/-- Append `x` unless it repeats the last element. -/
def pushNew (xs : List α) (x : α) : List α := if xs.getLast? = some x then xs else xs ++ [x]

theorem pushNew_idem (xs : List α) (x : α) : pushNew (pushNew xs x) x = pushNew xs x := by
  by_cases h : xs.getLast? = some x
  · rw [pushNew, if_pos (by rw [pushNew, if_pos h]; exact h)]
  · have hlast : (pushNew xs x).getLast? = some x := by
      rw [pushNew, if_neg h, List.getLast?_concat]
    rw [pushNew, if_pos hlast]

theorem pushNew_ne_nil (xs : List α) (x : α) : pushNew xs x ≠ [] := by
  unfold pushNew
  split
  · rename_i h
    intro hnil
    rw [hnil] at h
    exact absurd h (by simp)
  · exact List.concat_ne_nil x xs

theorem foldl_pushNew_concat (xs : List α) (x : α) :
    (xs ++ [x]).foldl pushNew [] = pushNew (xs.foldl pushNew []) x := by
  rw [List.foldl_concat]

/-- A list in which no element repeats the one before is rebuilt as it is. -/
theorem foldl_pushNew_of_isChain {xs : List α} (h : xs.IsChain (· ≠ ·)) :
    xs.foldl pushNew [] = xs := by
  induction xs using List.reverseRecOn with
  | nil => rfl
  | append_singleton xs x ih =>
      have hparts := List.isChain_append.mp h
      rw [foldl_pushNew_concat, ih hparts.1, pushNew, if_neg]
      intro hlast
      exact hparts.2.2 x (Option.mem_def.mpr hlast) x rfl rfl

theorem foldl_pushNew_of_increasing [Preorder α] {xs : List α} (h : xs.Pairwise (· < ·)) :
    xs.foldl pushNew [] = xs := by
  have hne : xs.Pairwise (· ≠ ·) := h.imp fun hlt ↦ hlt.ne
  exact foldl_pushNew_of_isChain hne.isChain

end PushNew

end TokenWeasel.Library
