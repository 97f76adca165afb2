import Mathlib.Data.List.Perm.Basic

/-!
# Numbered slots — a list whose entries are updated in place

A table of parties indexed by their number changes one entry at a time.  Splitting the table at
that entry turns every count over the table into a sum the update touches in one place.
-/

namespace TokenWeasel.Library

universe u v
variable {α : Type u} {β : Type v}

/-- A present entry splits the table, and writing to it replaces just that entry. -/
theorem slot_split {l : List α} {i : Nat} {a : α} (h : l[i]? = some a) :
    ∃ pre post, l = pre ++ a :: post ∧ pre.length = i ∧
      (∀ b, l.set i b = pre ++ b :: post) ∧ l.eraseIdx i = pre ++ post := by
  obtain ⟨hi, rfl⟩ := List.getElem?_eq_some_iff.mp h
  refine ⟨l.take i, l.drop (i + 1), ?_, ?_, fun b ↦ ?_, ?_⟩
  · rw [← List.drop_eq_getElem_cons hi, List.take_append_drop]
  · rw [List.length_take]; omega
  · rw [List.set_eq_take_append_cons_drop, if_pos hi]
  · rw [List.eraseIdx_eq_take_drop_succ]

theorem slot_set_self {l : List α} {i : Nat} {a b : α} (h : l[i]? = some a) :
    (l.set i b)[i]? = some b := by
  obtain ⟨hi, -⟩ := List.getElem?_eq_some_iff.mp h
  rw [List.getElem?_set_self hi]

/-- Writing what is there changes nothing. -/
theorem slot_set_eq {l : List α} {i : Nat} {a : α} (h : l[i]? = some a) : l.set i a = l := by
  rcases slot_split h with ⟨pre, post, hl, -, hset, -⟩
  rw [hset, hl]

/-- A written slot reads back the new value, and every other slot its old one. -/
theorem slot_set_cases {l : List α} {i j : Nat} {b c : α} (h : (l.set i b)[j]? = some c) :
    (j = i ∧ c = b) ∨ (j ≠ i ∧ l[j]? = some c) := by
  by_cases hij : j = i
  · subst hij
    obtain ⟨hj, hc⟩ := List.getElem?_eq_some_iff.mp h
    rw [List.getElem_set_self] at hc
    exact Or.inl ⟨rfl, hc.symm⟩
  · rw [List.getElem?_set_ne (Ne.symm hij)] at h
    exact Or.inr ⟨hij, h⟩

/-- A slot of an extended table is an old slot or the new one. -/
theorem slot_concat_cases {l : List α} {j : Nat} {b c : α} (h : (l ++ [b])[j]? = some c) :
    (j = l.length ∧ c = b) ∨ (j < l.length ∧ l[j]? = some c) := by
  by_cases hj : j < l.length
  · rw [List.getElem?_append_left hj] at h
    exact Or.inr ⟨hj, h⟩
  · rw [List.getElem?_append_right (by omega)] at h
    obtain ⟨hlt, hc⟩ := List.getElem?_eq_some_iff.mp h
    simp only [List.length_singleton] at hlt
    refine Or.inl ⟨by omega, ?_⟩
    simpa only [List.getElem_singleton] using hc.symm

theorem slot_lt {l : List α} {i : Nat} {a : α} (h : l[i]? = some a) : i < l.length :=
  (List.getElem?_eq_some_iff.mp h).1

/-! ## What an update does to a collection over the table -/

/-- An update that keeps the collected value keeps the collection. -/
theorem filterMap_set_same {p : α → Option β} {l : List α} {i : Nat} {a b : α}
    (h : l[i]? = some a) (hp : p b = p a) : (l.set i b).filterMap p = l.filterMap p := by
  obtain ⟨pre, post, rfl, -, hset, -⟩ := slot_split h
  rw [hset]
  simp only [List.filterMap_append, List.filterMap_cons, hp]

theorem filterMap_set_remove {p : α → Option β} {l : List α} {i : Nat} {a b : α} {v : β}
    (h : l[i]? = some a) (ha : p a = some v) (hb : p b = none) :
    (l.filterMap p).Perm (v :: (l.set i b).filterMap p) := by
  obtain ⟨pre, post, rfl, -, hset, -⟩ := slot_split h
  rw [hset]
  simp only [List.filterMap_append, List.filterMap_cons, ha, hb]
  exact List.perm_middle

theorem filterMap_set_add {p : α → Option β} {l : List α} {i : Nat} {a b : α} {v : β}
    (h : l[i]? = some a) (ha : p a = none) (hb : p b = some v) :
    ((l.set i b).filterMap p).Perm (v :: l.filterMap p) := by
  obtain ⟨pre, post, rfl, -, hset, -⟩ := slot_split h
  rw [hset]
  simp only [List.filterMap_append, List.filterMap_cons, ha, hb]
  exact List.perm_middle

open scoped List in
/-- The collection changes by what the entry contributes before and after. -/
theorem filterMap_set_perm {p : α → Option β} {l : List α} {i : Nat} {a : α} (b : α)
    (h : l[i]? = some a) :
    ((p a).toList ++ (l.set i b).filterMap p).Perm ((p b).toList ++ l.filterMap p) := by
  rcases slot_split h with ⟨pre, post, rfl, -, hset, -⟩
  have hcons (c : α) : (c :: post).filterMap p = (p c).toList ++ post.filterMap p := by
    cases hc : p c with
    | none => rw [List.filterMap_cons_none hc]; rfl
    | some v => rw [List.filterMap_cons_some hc]; rfl
  rw [hset, List.filterMap_append, List.filterMap_append, hcons, hcons]
  calc (p a).toList ++ (pre.filterMap p ++ ((p b).toList ++ post.filterMap p))
      ~ pre.filterMap p ++ ((p a).toList ++ ((p b).toList ++ post.filterMap p)) :=
        List.perm_append_comm_assoc _ _ _
    _ ~ pre.filterMap p ++ ((p b).toList ++ ((p a).toList ++ post.filterMap p)) :=
        (List.perm_append_comm_assoc _ _ _).append_left _
    _ ~ (p b).toList ++ (pre.filterMap p ++ ((p a).toList ++ post.filterMap p)) :=
        List.perm_append_comm_assoc _ _ _

/-- An update moves one entry in or out of what is counted. -/
theorem countP_set {p : α → Bool} {l : List α} {i : Nat} {a b : α} (h : l[i]? = some a) :
    (l.set i b).countP p + (if p a then 1 else 0) = l.countP p + if p b then 1 else 0 := by
  rcases slot_split h with ⟨pre, post, rfl, -, hset, -⟩
  rw [hset, List.countP_append, List.countP_append, List.countP_cons, List.countP_cons]
  omega

theorem map_eraseIdx_perm {p : α → β} {l : List α} {i : Nat} {a : α} (h : l[i]? = some a) :
    (l.map p).Perm (p a :: (l.eraseIdx i).map p) := by
  obtain ⟨pre, post, rfl, -, -, herase⟩ := slot_split h
  rw [herase]
  simp only [List.map_append, List.map_cons]
  exact List.perm_middle

/-- What one entry has as the only one, no other entry has. -/
theorem map_ne_of_mem_eraseIdx {p : α → β} {l : List α} {i : Nat} {a b : α}
    (hnodup : (l.map p).Nodup) (h : l[i]? = some a) (hb : b ∈ l.eraseIdx i) : p b ≠ p a := by
  have hperm := (map_eraseIdx_perm (p := p) h).nodup_iff.mp hnodup
  exact fun heq ↦ (List.nodup_cons.mp hperm).1 (heq ▸ List.mem_map_of_mem hb)

end TokenWeasel.Library
