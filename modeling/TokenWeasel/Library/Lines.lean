import Mathlib.Data.List.Basic

/-!
# Lines of a stream

A delimiter cuts a list into terminated lines, each with its delimiter, and an unterminated tail.
Both are determined by the list, so how the list was cut into chunks cannot matter: the lines of a
concatenation are those of its first part, and then those of its first part's tail with the rest.
-/

namespace TokenWeasel.Library

universe u
variable {α : Type u} [DecidableEq α]

/-- The lines that end in `delim`, each with it. -/
def terminatedLines (delim : α) : List α → List (List α)
  | [] => []
  | b :: rest =>
    if b = delim then [b] :: terminatedLines delim rest
    else
      match terminatedLines delim rest with
      | [] => []
      | line :: lines => (b :: line) :: lines

/-- What comes after the last `delim`. -/
def unterminatedTail (delim : α) : List α → List α
  | [] => []
  | b :: rest => if delim ∈ b :: rest then unterminatedTail delim rest else b :: rest

variable {delim : α}

theorem lines_of_not_mem {xs : List α} (h : delim ∉ xs) :
    terminatedLines delim xs = [] ∧ unterminatedTail delim xs = xs := by
  induction xs with
  | nil => exact ⟨rfl, rfl⟩
  | cons b xs ih =>
      have hb : b ≠ delim := fun heq ↦ h (heq ▸ List.mem_cons_self)
      have hrest := (ih fun hmem ↦ h (List.mem_cons_of_mem b hmem)).1
      constructor
      · rw [terminatedLines, if_neg hb, hrest]
      · rw [unterminatedTail, if_neg h]

/-- The first delimiter ends the first line. -/
theorem lines_cons_line {xs : List α} (h : delim ∉ xs) (rest : List α) :
    terminatedLines delim (xs ++ delim :: rest) =
        (xs ++ [delim]) :: terminatedLines delim rest ∧
      unterminatedTail delim (xs ++ delim :: rest) = unterminatedTail delim rest := by
  induction xs with
  | nil =>
      constructor
      · rw [List.nil_append, terminatedLines, if_pos rfl, List.nil_append]
      · rw [List.nil_append, unterminatedTail, if_pos List.mem_cons_self]
  | cons b xs ih =>
      have hb : b ≠ delim := fun heq ↦ h (heq ▸ List.mem_cons_self)
      have hrest := ih fun hmem ↦ h (List.mem_cons_of_mem b hmem)
      constructor
      · rw [List.cons_append, terminatedLines, if_neg hb, hrest.1, List.cons_append]
      · rw [List.cons_append, unterminatedTail, if_pos (by simp), hrest.2]

/-- A list has no delimiter, or it is cut at its first one. -/
theorem first_line_split (delim : α) (xs : List α) :
    delim ∉ xs ∨ ∃ line rest, xs = line ++ delim :: rest ∧ delim ∉ line := by
  by_cases h : delim ∈ xs
  · exact Or.inr (List.eq_append_cons_of_mem h)
  · exact Or.inl h

/-- What holds of lists without a delimiter, and of a list when it holds after its first line,
holds of every list. -/
theorem line_induction (delim : α) {P : List α → Prop} (htail : ∀ xs, delim ∉ xs → P xs)
    (hline : ∀ line rest, delim ∉ line → P rest → P (line ++ delim :: rest)) (xs : List α) :
    P xs := by
  cases first_line_split delim xs with
  | inl h => exact htail xs h
  | inr h =>
      rcases h with ⟨line, rest, heq, hnot⟩
      have hlt : rest.length < xs.length := by
        rw [heq, List.length_append, List.length_cons]
        omega
      rw [heq]
      exact hline line rest hnot (line_induction delim htail hline rest)
  termination_by xs.length

/-- Nothing is lost: the lines and the tail are the list. -/
theorem flatten_lines_append_tail (xs : List α) :
    (terminatedLines delim xs).flatten ++ unterminatedTail delim xs = xs := by
  induction xs using line_induction delim with
  | htail xs h => rw [(lines_of_not_mem h).1, (lines_of_not_mem h).2]; rfl
  | hline line rest h ih =>
      rw [(lines_cons_line h rest).1, (lines_cons_line h rest).2, List.flatten_cons,
        List.append_assoc, ih, List.append_assoc, List.singleton_append]

/-- A terminated line has its delimiter at the end and nowhere else. -/
theorem mem_terminatedLines {xs line : List α} (hline : line ∈ terminatedLines delim xs) :
    ∃ text, line = text ++ [delim] ∧ delim ∉ text := by
  induction xs using line_induction delim with
  | htail xs h =>
      rw [(lines_of_not_mem h).1] at hline
      exact absurd hline List.not_mem_nil
  | hline first rest h ih =>
      rw [(lines_cons_line h rest).1] at hline
      cases List.mem_cons.mp hline with
      | inl heq => exact ⟨first, heq, h⟩
      | inr hmem => exact ih hmem

theorem not_mem_unterminatedTail (delim : α) (xs : List α) : delim ∉ unterminatedTail delim xs := by
  induction xs using line_induction delim with
  | htail xs h => rw [(lines_of_not_mem h).2]; exact h
  | hline line rest h ih => rw [(lines_cons_line h rest).2]; exact ih

/-- The lines of a concatenation. -/
theorem lines_append (xs ys : List α) :
    terminatedLines delim (xs ++ ys) =
        terminatedLines delim xs ++ terminatedLines delim (unterminatedTail delim xs ++ ys) ∧
      unterminatedTail delim (xs ++ ys) =
        unterminatedTail delim (unterminatedTail delim xs ++ ys) := by
  induction xs using line_induction delim with
  | htail xs h =>
      rw [(lines_of_not_mem h).1, (lines_of_not_mem h).2, List.nil_append]
      exact ⟨rfl, rfl⟩
  | hline line rest h ih =>
      rw [List.append_assoc, List.cons_append, (lines_cons_line h (rest ++ ys)).1,
        (lines_cons_line h (rest ++ ys)).2, (lines_cons_line h rest).1, (lines_cons_line h rest).2,
        List.cons_append, ih.1, ih.2]
      exact ⟨rfl, rfl⟩

end TokenWeasel.Library
