import Mathlib.Data.List.Nodup
import Mathlib.Data.List.Perm.Subperm
import Mathlib.Data.List.Range
import Mathlib.Data.Nat.ModEq

/-!
# Wrapping counters — a round robin by a counter of bounded width

`n` consecutive values of a counter that counts modulo `m` pick the `n` places of a cycle by their
remainders.  Where the values wrap the remainders jump, unless `n` divides `m`.
-/

namespace TokenWeasel.Library

variable {α : Type*}

/-- The place that the counter picks `j` steps after it is at `c`. -/
def wrapPick (m n c j : Nat) : Nat := (c + j) % m % n

theorem wrapPick_lt {m n : Nat} (hn : 0 < n) (c j : Nat) : wrapPick m n c j < n := Nat.mod_lt _ hn

@[simp] theorem wrapPick_zero {m n c : Nat} (hc : c < m) : wrapPick m n c 0 = c % n := by
  rw [wrapPick, Nat.add_zero, Nat.mod_eq_of_lt hc]

/-- A step of the counter is a step along its picks. -/
theorem wrapPick_step (m n c j : Nat) : wrapPick m n ((c + 1) % m) j = wrapPick m n c (j + 1) := by
  rw [wrapPick, wrapPick, Nat.mod_add_mod, Nat.add_assoc, Nat.add_comm 1]

theorem mod_injOn {n c i j : Nat} (hi : i < n) (hj : j < n) (h : (c + i) % n = (c + j) % n) :
    i = j := by
  have hmod : i ≡ j [MOD n] := Nat.ModEq.add_left_cancel' c h
  exact hmod.eq_of_lt_of_lt hi hj

/-- Two of the values pick one place where they wrap and `n` does not divide `m`. -/
theorem wrapPick_collides {m n c : Nat} (hc : c < m) (hwrap : m < c + n) (hdvd : ¬ n ∣ m) :
    ∃ i j, i < j ∧ j < n ∧ wrapPick m n c i = wrapPick m n c j := by
  have hn : 0 < n := by omega
  have hr : 0 < m % n := Nat.pos_of_ne_zero fun h ↦ hdvd (Nat.dvd_of_mod_eq_zero h)
  have hrn : m % n < n := Nat.mod_lt m hn
  have hrm : m % n ≤ m := Nat.mod_le m n
  unfold wrapPick
  by_cases hearly : m - c ≤ m % n
  · -- the first value has the remainder that comes up again a while after the wrap
    refine ⟨0, m % n, hr, hrn, ?_⟩
    have hafter : (c + m % n) % m = c + m % n - m := by
      rw [Nat.mod_eq_sub_mod (by omega), Nat.mod_eq_of_lt (by omega)]
    have hfirst : c % n = c + m % n - m := by
      have hdecomp := Nat.div_add_mod m n
      have hsplit : c = n * (m / n) + (c + m % n - m) := by omega
      have hlt : c + m % n - m < n := by omega
      rw [hsplit, Nat.mul_add_mod, Nat.mod_eq_of_lt hlt]
      omega
    rw [Nat.add_zero, Nat.mod_eq_of_lt hc, hafter, ← hfirst, Nat.mod_mod]
  · -- the last multiple of `n` before the wrap picks the same place as the value 0 after it
    refine ⟨m - c - m % n, m - c, by omega, by omega, ?_⟩
    have hlast : c + (m - c - m % n) = n * (m / n) := by
      have hdecomp := Nat.div_add_mod m n
      omega
    have hlt : n * (m / n) < m := by
      have hdecomp := Nat.div_add_mod m n
      omega
    rw [hlast, Nat.mod_eq_of_lt hlt, Nat.mul_mod_right, Nat.add_sub_cancel' hc.le, Nat.mod_self,
      Nat.zero_mod]

/-- The places are all different exactly when `n` divides `m` or the values do not wrap. -/
theorem wrapPick_nodup_iff {m n c : Nat} (hc : c < m) :
    ((List.range n).map (wrapPick m n c)).Nodup ↔ n ∣ m ∨ c + n ≤ m := by
  constructor
  · intro hnodup
    by_contra hneither
    push Not at hneither
    rcases wrapPick_collides hc hneither.2 hneither.1 with ⟨i, j, hij, hj, heq⟩
    have hi : i < n := hij.trans hj
    have hsame := List.inj_on_of_nodup_map hnodup (List.mem_range.mpr hi) (List.mem_range.mpr hj) heq
    omega
  · intro h
    apply List.Nodup.map_on _ List.nodup_range
    intro i hi j hj heq
    rw [List.mem_range] at hi hj
    unfold wrapPick at heq
    cases h with
    | inl hdvd =>
        rw [Nat.mod_mod_of_dvd _ hdvd, Nat.mod_mod_of_dvd _ hdvd] at heq
        exact mod_injOn hi hj heq
    | inr hroom =>
        have hunwrapped : ∀ k < n, (c + k) % m = c + k := fun k hk ↦ Nat.mod_eq_of_lt (by omega)
        rw [hunwrapped i hi, hunwrapped j hj] at heq
        exact mod_injOn hi hj heq

/-- As many values as there are elements pick each element once exactly when no place is picked
twice. -/
theorem picks_perm_iff {l : List α} (hnodup : l.Nodup) {picks : List α} {m c : Nat} (hc : c < m)
    (hpicks : picks.map some = (List.range l.length).map fun j ↦ l[wrapPick m l.length c j]?) :
    picks.Perm l ↔ l.length ∣ m ∨ c + l.length ≤ m := by
  have hlength : picks.length = l.length := by
    have h := congrArg List.length hpicks
    rw [List.length_map, List.length_map, List.length_range] at h
    exact h
  have hsubset : picks ⊆ l := by
    intro a ha
    have hmem : some a ∈ picks.map some := List.mem_map_of_mem ha
    rw [hpicks, List.mem_map] at hmem
    rcases hmem with ⟨j, -, hj⟩
    exact List.mem_of_getElem? hj
  have hplaces : picks.Nodup ↔ ((List.range l.length).map (wrapPick m l.length c)).Nodup := by
    rw [← List.nodup_map_iff (Option.some_injective α), hpicks]
    constructor
    · intro h
      apply List.Nodup.map_on _ List.nodup_range
      intro i hi j hj heq
      exact List.inj_on_of_nodup_map h hi hj (congrArg (l[·]?) heq)
    · intro h
      apply List.Nodup.map_on _ List.nodup_range
      intro i hi j hj heq
      have hpos : 0 < l.length := lt_of_le_of_lt (Nat.zero_le i) (List.mem_range.mp hi)
      apply List.inj_on_of_nodup_map h hi hj
      exact (List.getElem?_inj (wrapPick_lt hpos c i) hnodup).mp heq
  rw [← wrapPick_nodup_iff hc, ← hplaces]
  constructor
  · intro hperm
    exact hperm.nodup_iff.mpr hnodup
  · intro h
    exact (List.subperm_of_subset h hsubset).perm_of_length_le hlength.ge

end TokenWeasel.Library
