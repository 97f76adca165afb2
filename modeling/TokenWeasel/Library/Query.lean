import Mathlib.Algebra.BigOperators.Group.List.Basic
import Mathlib.Data.List.Dedup
import TokenWeasel.Library.Checks

/-!
# Queries over tables

A table is the list of its rows.  Keys that the schema declares unique, inner and left joins along
such keys, and grouping: the groups of a grouping partition its rows, so that what is summed over
the groups is what is summed over the rows.
-/

namespace TokenWeasel.Library

universe u v w
variable {α : Type u} {β : Type v} {κ : Type v}

/-! ## Unique keys -/

section Unique

variable {key : α → κ} {rows : List α}

theorem nodup_map_filter (p : α → Bool) (h : (rows.map key).Nodup) :
    ((rows.filter p).map key).Nodup :=
  h.sublist (List.filter_sublist.map key)

theorem nodup_map_concat {row : α} (h : (rows.map key).Nodup)
    (hfresh : ∀ other ∈ rows, key other ≠ key row) : ((rows ++ [row]).map key).Nodup := by
  rw [List.map_append, List.nodup_append]
  refine ⟨h, List.nodup_singleton _, ?_⟩
  rintro k hk k' hk' rfl
  rcases List.mem_map.mp hk with ⟨other, hother, heq⟩
  rw [List.map_singleton, List.mem_singleton] at hk'
  exact hfresh other hother (heq.trans hk')

/-- Two rows of a table with the same unique key are the same row. -/
theorem eq_of_key_eq (h : (rows.map key).Nodup) {row row' : α} (hrow : row ∈ rows)
    (hrow' : row' ∈ rows) (heq : key row = key row') : row = row' :=
  List.inj_on_of_nodup_map h hrow hrow' heq

theorem find?_key_eq_some [DecidableEq κ] (h : (rows.map key).Nodup) {row : α}
    (hrow : row ∈ rows) : rows.find? (fun other ↦ key other = key row) = some row := by
  cases hfind : rows.find? fun other ↦ key other = key row with
  | none => exact absurd (List.find?_eq_none.mp hfind row hrow) (by simp)
  | some found =>
      have hkey : key found = key row := by simpa using List.find?_some hfind
      rw [eq_of_key_eq h (List.mem_of_find?_eq_some hfind) hrow hkey]

/-- A unique key selects at most one row. -/
theorem filter_key_eq [DecidableEq κ] (h : (rows.map key).Nodup) (k : κ) :
    rows.filter (fun row ↦ key row = k) = (rows.find? fun row ↦ key row = k).toList := by
  induction rows with
  | nil => rfl
  | cons row rows ih =>
      rw [List.map_cons, List.nodup_cons] at h
      by_cases hk : key row = k
      · rw [List.filter_cons_of_pos (by simpa using hk), List.find?_cons_of_pos (by simpa using hk),
          List.filter_eq_nil_iff.mpr, Option.toList_some]
        intro other hother heq
        apply h.1
        rw [hk, ← of_decide_eq_true heq]
        exact List.mem_map_of_mem hother
      · rw [List.filter_cons_of_neg (by simpa using hk), List.find?_cons_of_neg (by simpa using hk),
          ih h.2]

end Unique

/-! ## Joins -/

section Join

variable (on : α → β → Bool)

/-- Every row beside each row of the other table that it matches. -/
def innerJoin (rows : List α) (other : List β) : List (α × β) :=
  rows.flatMap fun row ↦ (other.filter (on row)).map (Prod.mk row)

/-- As the inner join, and a row without a match is kept once. -/
def leftJoin (rows : List α) (other : List β) : List (α × Option β) :=
  rows.flatMap fun row ↦
    match other.filter (on row) with
    | [] => [(row, none)]
    | found => found.map fun partner ↦ (row, some partner)

variable {on} {rows : List α} {other : List β}

/-- A left join along a unique key keeps each row exactly once. -/
theorem leftJoin_eq_map
    (h : ∀ row, other.filter (on row) = (other.find? (on row)).toList) :
    leftJoin on rows other = rows.map fun row ↦ (row, other.find? (on row)) := by
  rw [leftJoin, List.map_eq_flatMap]
  congr 1
  funext row
  rw [h row]
  cases other.find? (on row) <;> rfl

/-- An inner join along a unique key keeps each row that has a match exactly once. -/
theorem innerJoin_eq_filterMap
    (h : ∀ row, other.filter (on row) = (other.find? (on row)).toList) :
    innerJoin on rows other =
      rows.filterMap fun row ↦ (other.find? (on row)).map (Prod.mk row) := by
  rw [innerJoin, List.filterMap_eq_flatMap_toList]
  congr 1
  funext row
  rw [h row]
  cases other.find? (on row) <;> rfl

/-- A condition on the partner can be taken to the table it is in. -/
theorem innerJoin_filter (p : β → Bool) :
    (innerJoin on rows other).filter (fun row ↦ p row.2) = innerJoin on rows (other.filter p) := by
  rw [innerJoin, innerJoin, List.filter_flatMap]
  congr 1
  funext row
  rw [List.filter_map, List.filter_filter, List.filter_filter]
  congr 1
  exact List.filter_congr fun partner _ ↦ Bool.and_comm ..

/-- Rows that have no partner do not matter. -/
theorem innerJoin_filter_any :
    innerJoin on (rows.filter fun row ↦ other.any (on row)) other = innerJoin on rows other := by
  rw [innerJoin, innerJoin]
  induction rows with
  | nil => rfl
  | cons row rows ih =>
      rw [List.flatMap_cons, ← ih]
      cases hany : other.any (on row) with
      | true => rw [List.filter_cons_of_pos (by exact hany), List.flatMap_cons]
      | false =>
          have hnone : other.filter (on row) = [] :=
            List.filter_eq_nil_iff.mpr (by simpa using hany)
          rw [List.filter_cons_of_neg (by rw [hany]; decide), hnone]
          rfl

end Join

/-! ## Groups -/

section Group

variable [DecidableEq κ] (key : α → κ)

/-- The groups of rows with the same key, each with its key. -/
def groupBy (rows : List α) : List (κ × List α) :=
  (rows.map key).dedup.map fun k ↦ (k, rows.filter fun row ↦ key row = k)

variable {key} {rows : List α}

theorem mem_groupBy {group : κ × List α} :
    group ∈ groupBy key rows ↔
      (∃ row ∈ rows, key row = group.1) ∧ group.2 = rows.filter fun row ↦ key row = group.1 := by
  simp only [groupBy, List.mem_map, List.mem_dedup]
  constructor
  · rintro ⟨k, hk, rfl⟩
    exact ⟨hk, rfl⟩
  · rintro ⟨hk, hrows⟩
    exact ⟨group.1, hk, Prod.ext rfl hrows.symm⟩

/-- The rows of a group are rows, with the key of the group. -/
theorem mem_of_mem_group {group : κ × List α} (hgroup : group ∈ groupBy key rows) {row : α}
    (hrow : row ∈ group.2) : row ∈ rows ∧ key row = group.1 := by
  rw [(mem_groupBy.mp hgroup).2, List.mem_filter] at hrow
  exact ⟨hrow.1, of_decide_eq_true hrow.2⟩

/-- Every row is in the group of its key. -/
theorem groupBy_of_mem {row : α} (h : row ∈ rows) :
    (key row, rows.filter fun other ↦ key other = key row) ∈ groupBy key rows :=
  mem_groupBy.mpr ⟨⟨row, h, rfl⟩, rfl⟩

theorem groupBy_keys_nodup : ((groupBy key rows).map Prod.fst).Nodup := by
  rw [groupBy, List.map_map]
  simpa [Function.comp_def] using List.nodup_dedup (rows.map key)

/-- What holds of every group holds of the rows with any key. -/
theorem forall_groupBy {P : List α → Prop} (hnil : P []) :
    (∀ group ∈ groupBy key rows, P group.2) ↔ ∀ k, P (rows.filter fun row ↦ key row = k) := by
  constructor
  · intro h k
    by_cases hexists : ∃ row ∈ rows, key row = k
    · exact h (k, _) (mem_groupBy.mpr ⟨hexists, rfl⟩)
    · have hempty : (rows.filter fun row ↦ key row = k) = [] :=
        List.filter_eq_nil_iff.mpr fun row hrow heq ↦
          hexists ⟨row, hrow, of_decide_eq_true heq⟩
      rw [hempty]
      exact hnil
  · intro h group hgroup
    rw [(mem_groupBy.mp hgroup).2]
    exact h group.1

theorem flatMap_filter_perm {ks : List κ} (hks : ks.Nodup) :
    (ks.flatMap fun k ↦ rows.filter fun row ↦ key row = k).Perm
      (rows.filter fun row ↦ key row ∈ ks) := by
  induction ks with
  | nil => simp
  | cons k ks ih =>
      rw [List.nodup_cons] at hks
      rw [List.flatMap_cons]
      have hsplit := List.filter_append_perm (fun row ↦ decide (key row = k))
        (rows.filter fun row ↦ key row ∈ k :: ks)
      rw [List.filter_filter, List.filter_filter] at hsplit
      have hfirst : ∀ row ∈ rows,
          (decide (key row = k) && decide (key row ∈ k :: ks)) = decide (key row = k) := by
        intro row _
        by_cases hk : key row = k <;> simp [hk]
      have hrest : ∀ row ∈ rows,
          (!decide (key row = k) && decide (key row ∈ k :: ks)) = decide (key row ∈ ks) := by
        intro row _
        by_cases hk : key row = k
        · simp [hk, hks.1]
        · simp [hk]
      rw [List.filter_congr hfirst, List.filter_congr hrest] at hsplit
      exact ((ih hks.2).append_left _).trans hsplit

/-- Summed key by key, over keys that each row has one of, the rows sum to the same. -/
theorem sum_filter_key {M : Type w} [AddCommMonoid M] {ks : List κ} (hks : ks.Nodup)
    (hkeys : ∀ row ∈ rows, key row ∈ ks) (f : α → M) :
    (ks.map fun k ↦ ((rows.filter fun row ↦ key row = k).map f).sum).sum = (rows.map f).sum := by
  have hperm : (ks.flatMap fun k ↦ rows.filter fun row ↦ key row = k).Perm rows := by
    apply (flatMap_filter_perm hks).trans
    rw [List.filter_eq_self.mpr fun row hrow ↦ decide_eq_true (hkeys row hrow)]
  rw [← (hperm.map f).sum_eq]
  clear hperm hkeys hks
  induction ks with
  | nil => rfl
  | cons k ks ih =>
      rw [List.map_cons, List.sum_cons, List.flatMap_cons, List.map_append, List.sum_append, ih]

/-- What is summed over the groups is what is summed over the rows. -/
theorem groupBy_sum {M : Type w} [AddCommMonoid M] (f : α → M) :
    ((groupBy key rows).map fun group ↦ (group.2.map f).sum).sum = (rows.map f).sum := by
  rw [groupBy, List.map_map]
  apply sum_filter_key (List.nodup_dedup _)
  exact fun row hrow ↦ List.mem_dedup.mpr (List.mem_map_of_mem hrow)

end Group

/-! ## Reports -/

section Report

variable {ε ρ : Type v}

theorem mapM_eq_ok {f : α → Except ε ρ} {g : α → ρ} {rows : List α}
    (h : ∀ row ∈ rows, f row = .ok (g row)) : rows.mapM f = .ok (rows.map g) := by
  induction rows with
  | nil => rfl
  | cons row rows ih =>
      rw [List.mapM_cons, h row List.mem_cons_self,
        ih fun other hother ↦ h other (List.mem_cons_of_mem row hother)]
      rfl

theorem mapM_ok_mem {f : α → Except ε ρ} {rows : List α} {results : List ρ}
    (h : rows.mapM f = .ok results) {row : α} (hrow : row ∈ rows) :
    ∃ result ∈ results, f row = .ok result := by
  induction rows generalizing results with
  | nil => exact absurd hrow List.not_mem_nil
  | cons first rows ih =>
      rw [List.mapM_cons] at h
      rcases except_bind_eq_ok.mp h with ⟨value, hfirst, h⟩
      rcases except_bind_eq_ok.mp h with ⟨values, hrest, h⟩
      rw [← Except.ok.inj h]
      cases List.mem_cons.mp hrow with
      | inl heq =>
          rw [heq]
          exact ⟨value, List.mem_cons_self, hfirst⟩
      | inr hmem =>
          rcases ih hrest hmem with ⟨result, hresult, hvalue⟩
          exact ⟨result, List.mem_cons_of_mem value hresult, hvalue⟩

variable [DecidableEq κ] (key : α → κ) (build : κ → List α → Except ε ρ) (le : ρ → ρ → Bool)

/-- One row for each group, in the order of the report. -/
def report (rows : List α) : Except ε (List ρ) :=
  ((groupBy key rows).mapM fun group ↦ build group.1 group.2).map fun results ↦
    results.mergeSort le

variable {key build le} {rows : List α}

/-- A report succeeds when the row of every group can be built, and has these rows. -/
theorem report_eq_ok {P : κ × List α → Prop} {result : κ × List α → ρ}
    (hbuild : ∀ k rows r, build k rows = .ok r ↔ P (k, rows) ∧ r = result (k, rows))
    {results : List ρ} : report key build le rows = .ok results ↔
      (∀ group ∈ groupBy key rows, P group) ∧
        results = ((groupBy key rows).map result).mergeSort le := by
  have hall : (∀ group ∈ groupBy key rows, P group) →
      report key build le rows = .ok (((groupBy key rows).map result).mergeSort le) := by
    intro h
    rw [report, mapM_eq_ok fun group hgroup ↦ (hbuild _ _ _).mpr ⟨h group hgroup, rfl⟩]
    rfl
  constructor
  · intro h
    have hgroups : ∀ group ∈ groupBy key rows, P group := by
      intro group hgroup
      rcases except_map_eq_ok.mp h with ⟨built, hbuilt, -⟩
      rcases mapM_ok_mem hbuilt hgroup with ⟨r, -, hr⟩
      exact ((hbuild _ _ _).mp hr).1
    rw [hall hgroups] at h
    exact ⟨hgroups, (Except.ok.inj h).symm⟩
  · rintro ⟨hgroups, rfl⟩
    exact hall hgroups

/-- The rows of a report have different keys. -/
theorem report_keys_nodup {result : κ × List α → ρ} (keyOf : ρ → κ)
    (hkey : ∀ group, keyOf (result group) = group.1) :
    ((((groupBy key rows).map result).mergeSort le).map keyOf).Nodup := by
  have hperm := (List.mergeSort_perm ((groupBy key rows).map result) le).map keyOf
  rw [hperm.nodup_iff, List.map_map]
  have hcomp : keyOf ∘ result = Prod.fst := funext hkey
  rw [hcomp]
  exact groupBy_keys_nodup

/-- The row of a report for a key, if there is one. -/
theorem report_find? {result : κ × List α → ρ} (keyOf : ρ → κ)
    (hkey : ∀ group, keyOf (result group) = group.1) (k : κ) :
    (((groupBy key rows).map result).mergeSort le).find? (fun r ↦ keyOf r = k) =
      if ∃ row ∈ rows, key row = k then some (result (k, rows.filter fun row ↦ key row = k))
      else none := by
  split
  · rename_i hexists
    have hgroup : (k, rows.filter fun row ↦ key row = k) ∈ groupBy key rows :=
      mem_groupBy.mpr ⟨hexists, rfl⟩
    have hmem : result (k, rows.filter fun row ↦ key row = k) ∈
        ((groupBy key rows).map result).mergeSort le :=
      List.mem_mergeSort.mpr (List.mem_map_of_mem hgroup)
    have hfind := find?_key_eq_some (report_keys_nodup keyOf hkey) hmem
    rwa [hkey] at hfind
  · rename_i hnone
    apply List.find?_eq_none.mpr
    intro r hr heq
    rcases List.mem_map.mp (List.mem_mergeSort.mp hr) with ⟨group, hgroup, rfl⟩
    rw [hkey] at heq
    rw [← of_decide_eq_true heq] at hnone
    exact hnone (mem_groupBy.mp hgroup).1

end Report

end TokenWeasel.Library
