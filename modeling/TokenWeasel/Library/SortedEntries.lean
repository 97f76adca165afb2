import Mathlib.Order.Lattice
import Mathlib.Data.List.Basic

/-!
# Sorted entries

A map as the list of its entries in the order of the keys, with the insertion that replaces the
value of a key that is there.
-/

namespace TokenWeasel.Library

variable {κ : Type*} {β : Type*} [LinearOrder κ]

def insertEntry (key : κ) (value : β) : List (κ × β) → List (κ × β)
  | [] => [(key, value)]
  | entry :: rest =>
    if entry.1 < key then entry :: insertEntry key value rest
    else if entry.1 = key then (key, value) :: rest
    else (key, value) :: entry :: rest

/-- The keys of a map come in their order, each once. -/
def SortedKeys (entries : List (κ × β)) : Prop := entries.Pairwise fun a b ↦ a.1 < b.1

instance (entries : List (κ × β)) : Decidable (SortedKeys entries) :=
  inferInstanceAs (Decidable (entries.Pairwise _))

variable {key : κ} {value : β} {entries : List (κ × β)}

section Lookup

variable [BEq κ] [LawfulBEq κ]

theorem lookup_insertEntry_self : (insertEntry key value entries).lookup key = some value := by
  induction entries with
  | nil => simp [insertEntry]
  | cons entry rest ih =>
      unfold insertEntry
      split
      · rename_i hlt
        have hne : (key == entry.1) = false := beq_eq_false_iff_ne.mpr hlt.ne'
        rw [List.lookup_cons, hne]
        exact ih
      · split
        · simp
        · simp

theorem lookup_insertEntry_ne {other : κ} (hne : other ≠ key) :
    (insertEntry key value entries).lookup other = entries.lookup other := by
  have hother : (other == key) = false := beq_eq_false_iff_ne.mpr hne
  induction entries with
  | nil => rw [insertEntry, List.lookup_cons, hother]
  | cons entry rest ih =>
      unfold insertEntry
      split
      · rw [List.lookup_cons, List.lookup_cons, ih]
      · split
        · rename_i heq
          rw [List.lookup_cons, List.lookup_cons, hother, heq, hother]
        · rw [List.lookup_cons, hother]

end Lookup

/-- The second insertion at a key wins. -/
theorem insertEntry_insertEntry (value' : β) :
    insertEntry key value (insertEntry key value' entries) = insertEntry key value entries := by
  induction entries with
  | nil => simp [insertEntry]
  | cons entry rest ih =>
      by_cases hlt : entry.1 < key
      · simp only [insertEntry, if_pos hlt, ih]
      · by_cases heq : entry.1 = key
        · simp [insertEntry, heq]
        · simp [insertEntry, hlt, heq]

theorem mem_insertEntry {entry : κ × β} (h : entry ∈ insertEntry key value entries) :
    entry = (key, value) ∨ entry ∈ entries := by
  induction entries with
  | nil => exact Or.inl (List.mem_singleton.mp h)
  | cons first rest ih =>
      unfold insertEntry at h
      split at h
      · cases List.mem_cons.mp h with
        | inl heq => exact Or.inr (heq ▸ List.mem_cons_self)
        | inr hrest =>
            cases ih hrest with
            | inl hnew => exact Or.inl hnew
            | inr hold => exact Or.inr (List.mem_cons_of_mem first hold)
      · split at h
        · cases List.mem_cons.mp h with
          | inl heq => exact Or.inl heq
          | inr hrest => exact Or.inr (List.mem_cons_of_mem first hrest)
        · cases List.mem_cons.mp h with
          | inl heq => exact Or.inl heq
          | inr hall => exact Or.inr hall

theorem SortedKeys.insertEntry (h : SortedKeys entries) (key : κ) (value : β) :
    SortedKeys (insertEntry key value entries) := by
  induction entries with
  | nil => exact List.pairwise_singleton _ _
  | cons entry rest ih =>
      have hhead := (List.pairwise_cons.mp h).1
      have hrest := (List.pairwise_cons.mp h).2
      unfold Library.insertEntry
      split
      · rename_i hlt
        refine List.pairwise_cons.mpr ⟨fun other hother ↦ ?_, ih hrest⟩
        cases mem_insertEntry hother with
        | inl hnew => rw [hnew]; exact hlt
        | inr hold => exact hhead other hold
      · rename_i hnot
        split
        · rename_i heq
          exact List.pairwise_cons.mpr ⟨fun other hother ↦ heq ▸ hhead other hother, hrest⟩
        · rename_i hne
          have hlt : key < entry.1 := lt_of_le_of_ne (not_lt.mp hnot) (Ne.symm hne)
          refine List.pairwise_cons.mpr ⟨fun other hother ↦ ?_, h⟩
          cases List.mem_cons.mp hother with
          | inl heq => rw [heq]; exact hlt
          | inr hmem => exact lt_trans hlt (hhead other hmem)

section Ext

variable [BEq κ] [LawfulBEq κ]

omit [LinearOrder κ] in
theorem mem_keys_of_lookup {key : κ} {value : β} {entries : List (κ × β)}
    (h : entries.lookup key = some value) : key ∈ entries.map Prod.fst := by
  rcases List.lookup_eq_some_iff.mp h with ⟨front, back, rfl, -⟩
  exact List.mem_map_of_mem (List.mem_append_right front List.mem_cons_self)

/-- What comes behind the first entry does not have its key. -/
theorem SortedKeys.lookup_tail {entry : κ × β} {rest : List (κ × β)}
    (h : SortedKeys (entry :: rest)) : rest.lookup entry.1 = none := by
  cases hlookup : rest.lookup entry.1 with
  | none => rfl
  | some value =>
      rcases List.mem_map.mp (mem_keys_of_lookup hlookup) with ⟨other, hother, heq⟩
      exact absurd heq ((List.pairwise_cons.mp h).1 other hother).ne'

/-- A map is its values. -/
theorem SortedKeys.ext {left right : List (κ × β)} (hleft : SortedKeys left)
    (hright : SortedKeys right) (h : ∀ key, left.lookup key = right.lookup key) :
    left = right := by
  have hfirst : ∀ (entry : κ × β) (rest : List (κ × β)),
      (entry :: rest).lookup entry.1 = some entry.2 := by
    intro entry rest
    rw [List.lookup_cons, beq_self_eq_true]
  induction left generalizing right with
  | nil =>
      cases right with
      | nil => rfl
      | cons entry rest =>
          have hnone := h entry.1
          rw [hfirst] at hnone
          cases hnone
  | cons first left ih =>
      cases right with
      | nil =>
          have hnone := h first.1
          rw [hfirst] at hnone
          cases hnone
      | cons second right =>
          -- neither first key comes before the other
          have hle : ∀ {a b : κ × β} {bs : List (κ × β)}, SortedKeys (b :: bs) →
              (b :: bs).lookup a.1 = some a.2 → b.1 ≤ a.1 := by
            intro a b bs hsorted hlookup
            have hmem := mem_keys_of_lookup hlookup
            rw [List.map_cons] at hmem
            cases List.mem_cons.mp hmem with
            | inl heq => exact heq.ge
            | inr htail =>
                rcases List.mem_map.mp htail with ⟨other, hother, heq⟩
                exact heq ▸ ((List.pairwise_cons.mp hsorted).1 other hother).le
          have hsecond : second.1 ≤ first.1 :=
            hle hright ((h first.1).symm.trans (hfirst first left))
          have hkey : first.1 = second.1 :=
            le_antisymm (hle hleft ((h second.1).trans (hfirst second right))) hsecond
          have hvalue : first.2 = second.2 := by
            have hsame := h first.1
            rw [hfirst, hkey, hfirst] at hsame
            exact Option.some.inj hsame
          have heq : first = second := Prod.ext hkey hvalue
          rw [heq]
          congr 1
          apply ih (List.pairwise_cons.mp hleft).2 (List.pairwise_cons.mp hright).2
          intro key
          by_cases hkeys : key = second.1
          · rw [hkeys, hright.lookup_tail, ← heq, hleft.lookup_tail]
          · have hrest := h key
            have hne : (key == second.1) = false := beq_eq_false_iff_ne.mpr hkeys
            rw [heq, List.lookup_cons, List.lookup_cons, hne] at hrest
            exact hrest

end Ext

end TokenWeasel.Library
