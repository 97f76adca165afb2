import Mathlib.Algebra.Order.BigOperators.Group.List
import Mathlib.Algebra.Order.Ring.Rat
import Mathlib.Tactic.Linarith
import TokenWeasel.Backends.Candidates

/-!
# Affinity of prompts to backends (`twl-backends/src/lib.rs`)

A prefix goes to the best candidate under the load bound.  There always is one, and which it is does
not depend on the other candidates.
-/

namespace TokenWeasel.Backends

open Library

/-! ## A candidate under the bound -/

/-- The counters after `begin_load`. -/
def beginLoad (inflight : List Nat) (idx : Nat) : List Nat :=
  inflight.modify idx fun count ↦ (count + 1) % 2 ^ 32

theorem load_beginLoad_le (inflight : List Nat) (idx : Nat) :
    load (beginLoad inflight idx) idx ≤ load inflight idx + 1 := by
  unfold load beginLoad
  rw [List.getElem?_modify]
  cases inflight[idx]? with
  | none => simp
  | some count =>
      simp only [if_true, Option.getD_some]
      exact Nat.mod_le _ _

/-- A factor of at least one leaves room for one more request. -/
theorem total_lt_mul_loadBound {overloadFactor : Rat} (hfactor : 1 ≤ overloadFactor)
    {total n : Nat} (hn : 2 ≤ n) (htotal : total < 2 ^ 32 - 1) :
    total < n * loadBound overloadFactor total n := by
  have hle : min (overloadFactor * (total + 1) / n).ceil.toNat (2 ^ 32 - 1) ≤
      loadBound overloadFactor total n := Nat.le_max_right _ _
  apply lt_of_lt_of_le _ (Nat.mul_le_mul_left n hle)
  by_cases hcap : (overloadFactor * (total + 1) / n).ceil.toNat ≤ 2 ^ 32 - 1
  · rw [Nat.min_eq_left hcap]
    have hpos : (0 : Rat) < n := Nat.cast_pos.mpr (by omega)
    have hrequests : (0 : Rat) ≤ total + 1 := by positivity
    -- the factor only raises the number of requests that are shared out
    have hshare : (total + 1 : Rat) / n ≤ overloadFactor * (total + 1) / n := by
      apply div_le_div_of_nonneg_right _ hpos.le
      exact le_mul_of_one_le_left hrequests hfactor
    have hceil : (total + 1 : Rat) / n ≤ ((overloadFactor * (total + 1) / n).ceil.toNat : Nat) := by
      apply hshare.trans
      apply Rat.le_ceil.trans
      exact_mod_cast Int.self_le_toNat _
    rw [div_le_iff₀ hpos] at hceil
    have hnat : total + 1 ≤ (overloadFactor * (total + 1) / n).ceil.toNat * n := by
      exact_mod_cast hceil
    rw [Nat.mul_comm]
    exact hnat
  · rw [Nat.min_eq_right (by omega)]
    calc total < 2 ^ 32 - 1 := htotal
      _ = 1 * (2 ^ 32 - 1) := (Nat.one_mul _).symm
      _ ≤ n * (2 ^ 32 - 1) := Nat.mul_le_mul_right _ (by omega)

/-- Not all candidates have reached the bound. -/
theorem exists_under_bound {overloadFactor : Rat} (hfactor : 1 ≤ overloadFactor)
    {inflight candidates : List Nat} (hn : 2 ≤ candidates.length)
    (htotal : (candidates.map (load inflight)).sum < 2 ^ 32 - 1) :
    ∃ idx ∈ candidates, load inflight idx < requestBound overloadFactor inflight candidates := by
  by_contra hnone
  push Not at hnone
  unfold requestBound at hnone
  have hmod : (candidates.map (load inflight)).sum % 2 ^ 32 = (candidates.map (load inflight)).sum :=
    Nat.mod_eq_of_lt (by omega)
  rw [hmod] at hnone
  have hsum := List.card_nsmul_le_sum (candidates.map (load inflight)) _
    (List.forall_mem_map.mpr hnone)
  rw [List.length_map, nsmul_eq_mul, Nat.cast_id] at hsum
  have hroom := total_lt_mul_loadBound hfactor hn htotal
  omega

/-- The candidates of a prefix in the order of its scores. -/
def rendezvousOrder (prefixHash : BitVec 64) (candidates : List Nat) : List Nat :=
  (scoredCandidates prefixHash candidates).map Prod.snd

theorem scoredCandidates_eq_map (prefixHash : BitVec 64) (candidates : List Nat) :
    scoredCandidates prefixHash candidates =
      (rendezvousOrder prefixHash candidates).map fun idx ↦ (score prefixHash idx, idx) := by
  rw [rendezvousOrder, List.map_map]
  have hself (scored : BitVec 64 × Nat) (h : scored ∈ scoredCandidates prefixHash candidates) :
      scored = (score prefixHash scored.2, scored.2) := by
    rw [← ((mem_scoredCandidates prefixHash candidates scored).mp h).2]
  have hmap := List.map_congr_left hself
  rw [List.map_id'] at hmap
  exact hmap

/-- The search for a spill target goes through the candidates in their order. -/
theorem find?_scoredCandidates (bound : Nat) (inflight : List Nat) (prefixHash : BitVec 64)
    (candidates : List Nat) :
    ((scoredCandidates prefixHash candidates).find? fun candidate ↦
        load inflight candidate.2 < bound).map Prod.snd =
      (rendezvousOrder prefixHash candidates).find? fun idx ↦ load inflight idx < bound := by
  rw [scoredCandidates_eq_map, List.find?_map, Option.map_map]
  exact Option.map_id_apply

/-- With an overload factor of at least one, two candidates or more and fewer than `2 ^ 32 - 1`
requests on them, there is a candidate under the bound, a prefix goes to the first such in its
order, and is within the bound there once it is placed. -/
theorem orderedCandidates_within_bound {overloadFactor : Rat} (hfactor : 1 ≤ overloadFactor)
    {inflight candidates : List Nat} (hn : 2 ≤ candidates.length)
    (htotal : (candidates.map (load inflight)).sum < 2 ^ 32 - 1) (strategy : LbStrategy)
    (rotation : Nat) (prefixHash : BitVec 64) :
    let total := (candidates.map (load inflight)).sum
    let bound := max 1 (min (overloadFactor * (total + 1) / candidates.length).ceil.toNat
      (2 ^ 32 - 1))
    (∃ idx ∈ candidates, load inflight idx < bound) ∧
    ∃ chosen rest,
      (orderedCandidates strategy overloadFactor inflight rotation candidates
        (some prefixHash)).1 = chosen :: rest ∧
      (rendezvousOrder prefixHash candidates).find? (fun idx ↦ load inflight idx < bound) =
        some chosen ∧
      load (beginLoad inflight chosen) chosen ≤ bound := by
  intro total bound
  have hbound : requestBound overloadFactor inflight candidates = bound := by
    show loadBound overloadFactor (total % 2 ^ 32) candidates.length = bound
    rw [Nat.mod_eq_of_lt (lt_of_lt_of_le htotal (Nat.sub_le _ _))]
    rfl
  have hunder := exists_under_bound hfactor hn htotal
  rw [hbound] at hunder
  refine ⟨hunder, ?_⟩
  have hfound : ∃ chosen, (rendezvousOrder prefixHash candidates).find?
      (fun idx ↦ load inflight idx < bound) = some chosen := by
    rcases hunder with ⟨idx, hidx, hlt⟩
    apply Option.isSome_iff_exists.mp
    rw [List.find?_isSome]
    refine ⟨idx, (scoredCandidates_indices prefixHash candidates).mem_iff.mpr hidx, ?_⟩
    exact decide_eq_true hlt
  rcases hfound with ⟨chosen, hchosen⟩
  have hplaced : (orderedCandidates strategy overloadFactor inflight rotation candidates
      (some prefixHash)).1 = placedUnder bound inflight prefixHash candidates := by
    rw [← hbound]
    exact prefixPlacement_eq overloadFactor inflight prefixHash candidates
  rw [hplaced]
  unfold placedUnder
  cases hscored : scoredCandidates prefixHash candidates with
  | nil =>
      rw [rendezvousOrder, hscored] at hchosen
      exact absurd hchosen (by simp)
  | cons head rest =>
      -- the fallback to the primary is not taken
      have hspill : spillTarget inflight (head :: rest) bound head.2 = chosen := by
        have hfind := find?_scoredCandidates bound inflight prefixHash candidates
        rw [hchosen, hscored] at hfind
        rw [spillTarget, hfind, Option.getD_some]
      refine ⟨_, _, rfl, ?_, ?_⟩
      · rw [hchosen, ← hspill]
      · rw [hspill]
        have hlt : load inflight chosen < bound := by simpa using List.find?_some hchosen
        exact (load_beginLoad_le inflight chosen).trans hlt

/-- Beside three requests at the first of two backends the next goes to the second. -/
theorem orderedCandidates_within_bound_two :
    ∃ chosen rest,
      (orderedCandidates .leastLoaded 1 [3, 0] 0 [0, 1] (some 7#64)).1 = chosen :: rest ∧
      load [3, 0] chosen < 2 ∧ load (beginLoad [3, 0] chosen) chosen ≤ 2 := by
  have hn : 2 ≤ ([0, 1] : List Nat).length := by decide
  have htotal : ([0, 1].map (load [3, 0])).sum < 2 ^ 32 - 1 := by decide
  have h := orderedCandidates_within_bound (le_refl (1 : Rat)) hn htotal .leastLoaded 0 7#64
  have hbound : max 1 (min ((1 : Rat) * (([0, 1].map (load [3, 0])).sum + 1) /
      ([0, 1] : List Nat).length).ceil.toNat (2 ^ 32 - 1)) = 2 := by
    decide +kernel
  dsimp only at h
  rw [hbound] at h
  rcases h with ⟨-, chosen, rest, hplaced, hfind, hload⟩
  exact ⟨chosen, rest, hplaced, by simpa using List.find?_some hfind, hload⟩

/-! ## Other candidates do not matter -/

section Order

variable (prefixHash : BitVec 64)

theorem rendezvousOrder_perm (candidates : List Nat) :
    (rendezvousOrder prefixHash candidates).Perm candidates :=
  scoredCandidates_indices prefixHash candidates

variable {candidates others : List Nat}

theorem rendezvousOrder_strict (hsmall : ∀ idx ∈ candidates, idx < 2 ^ 32)
    (hnodup : candidates.Nodup) : (rendezvousOrder prefixHash candidates).Pairwise
      fun i j ↦ score prefixHash j < score prefixHash i :=
  scoredCandidates_strict prefixHash hsmall hnodup

/-- The scores alone decide the order. -/
theorem eq_rendezvousOrder (hsmall : ∀ idx ∈ candidates, idx < 2 ^ 32)
    (hnodup : candidates.Nodup) {order : List Nat} (hperm : order.Perm candidates)
    (hstrict : order.Pairwise fun i j ↦ score prefixHash j < score prefixHash i) :
    order = rendezvousOrder prefixHash candidates := by
  apply List.Perm.eq_of_pairwise _ hstrict (rendezvousOrder_strict prefixHash hsmall hnodup)
    (hperm.trans (rendezvousOrder_perm prefixHash candidates).symm)
  intro i j _ _ hji hij
  exact absurd (BitVec.lt_trans hji hij) (BitVec.lt_irrefl _)

/-- The order of some of the candidates is that of all of them, restricted. -/
theorem rendezvousOrder_restrict (hsmall : ∀ idx ∈ others, idx < 2 ^ 32) (hnodup : others.Nodup)
    (hnodup' : candidates.Nodup) (hsubset : candidates ⊆ others) :
    rendezvousOrder prefixHash candidates =
      (rendezvousOrder prefixHash others).filter fun idx ↦ idx ∈ candidates := by
  symm
  apply eq_rendezvousOrder prefixHash (fun idx h ↦ hsmall idx (hsubset h)) hnodup'
  · have hothers := rendezvousOrder_perm prefixHash others
    apply (List.perm_ext_iff_of_nodup ((hothers.nodup_iff.mpr hnodup).filter _) hnodup').mpr
    intro idx
    rw [List.mem_filter, hothers.mem_iff, decide_eq_true_eq]
    exact and_iff_right_of_imp fun h ↦ hsubset h
  · exact (rendezvousOrder_strict prefixHash hsmall hnodup).filter _

/-- An unstable sort of the candidates, listed in any order, gives the one order there is. -/
theorem sorted_rendezvousOrder (hsmall : ∀ idx ∈ candidates, idx < 2 ^ 32)
    (hnodup : candidates.Nodup) {listed : List Nat} (hlisted : listed.Perm candidates)
    {sorted : List (BitVec 64 × Nat)}
    (hperm : sorted.Perm (listed.map fun idx ↦ (score prefixHash idx, idx)))
    (hsorted : sorted.Pairwise fun a b ↦ b.1 ≤ a.1) :
    sorted.map Prod.snd = rendezvousOrder prefixHash candidates := by
  have hsmall' : ∀ idx ∈ listed, idx < 2 ^ 32 := fun idx h ↦ hsmall idx (hlisted.mem_iff.mp h)
  have hnodup' := hlisted.nodup_iff.mpr hnodup
  rw [scoredCandidates_unique prefixHash hsmall' hperm hsorted]
  apply eq_rendezvousOrder prefixHash hsmall hnodup
  · exact (rendezvousOrder_perm prefixHash listed).trans hlisted
  · exact rendezvousOrder_strict prefixHash hsmall' hnodup'

end Order

/-! ## First choices -/

/-- `route`: `none` is the failed `expect`. -/
def BackendRegistry.route (registry : BackendRegistry) (model : Option String)
    (prefixHash : Option (BitVec 64)) : Except RouteError (Option Nat) :=
  (registry.routeCandidates model prefixHash).1.map List.head?

/-- No candidate has reached the bound. -/
def Unloaded (overloadFactor : Rat) (inflight candidates : List Nat) : Prop :=
  ∀ idx ∈ candidates, load inflight idx < requestBound overloadFactor inflight candidates

/-- Without load the first choice of a prefix is the candidate with the highest score. -/
theorem route_unloaded {registry : BackendRegistry} {m : String} {e : RoutingEntry}
    (he : registry.catalog.routing m = some e) (hne : e.candidates ≠ [])
    (hincreasing : e.candidates.Pairwise (· < ·)) (hsmall : ∀ idx ∈ e.candidates, idx < 2 ^ 32)
    (hunloaded : Unloaded registry.overloadFactor registry.inflight e.candidates)
    (prefixHash : BitVec 64) :
    ∃ first, registry.route (some m) (some prefixHash) = .ok (some first) ∧
      first ∈ e.candidates ∧ ∀ idx ∈ e.candidates, score prefixHash idx ≤ score prefixHash first := by
  rcases BackendRegistry.routeCandidates_ok he hne hincreasing hsmall (some prefixHash) with
    ⟨order, hok, hplaced⟩
  rcases hplaced.byPrefix prefixHash rfl with ⟨first, rest, horder, hchosen, -⟩
  refine ⟨first, ?_, hchosen.1, fun idx hidx ↦ ?_⟩
  · unfold BackendRegistry.route
    rw [hok, horder]
    rfl
  · cases hchosen.2 with
    | inl hunder => exact hunder.2 idx hidx (hunloaded idx hidx)
    | inr hover => exact (hover idx hidx).2

namespace BackendRegistry

section Reachable

variable {backends : List Backend} {staticModels : List (List String)}
  {routingMode : RoutingMode} {registry : BackendRegistry}

theorem Represents.candidates {listings : List (List ModelEntry)}
    (h : Represents registry backends listings) (hbackends : backends.length ≤ 2 ^ 32) {m : String}
    {e : RoutingEntry} (he : registry.catalog.routing m = some e) :
    e.candidates ≠ [] ∧ e.candidates.Pairwise (· < ·) ∧ (∀ idx ∈ e.candidates, idx < 2 ^ 32) ∧
      ∀ idx, idx ∈ e.candidates ↔
        idx < backends.length ∧ Holds (registry.catalog.entries[idx]?.getD []) m := by
  have hmem : ∀ idx, idx ∈ e.candidates ↔
      idx < backends.length ∧ Holds (registry.catalog.entries[idx]?.getD []) m := by
    intro idx
    rw [h.candidates_eq hbackends he, mem_holders, h.entries_length]
  refine ⟨?_, ?_, fun idx hidx ↦ ?_, hmem⟩
  · rw [h.candidates_eq hbackends he]
    exact (h.routed_iff m).mp (by rw [he]; rfl)
  · rw [h.candidates_eq hbackends he]
    exact holders_increasing _ m
  · exact lt_of_lt_of_le ((hmem idx).mp hidx).1 hbackends

/-- An update leaves the entries of the other backends as they are. -/
theorem update_entries (registry : BackendRegistry) (call : Nat × List ModelEntry) {idx : Nat}
    (hne : idx ≠ call.1) :
    (registry.update call).catalog.entries[idx]? = registry.catalog.entries[idx]? := by
  unfold update setBackendModels
  cases registry.backends[call.1]? with
  | none => rfl
  | some backend => exact List.getElem?_set_ne hne.symm

/-- An update of one backend changes the first choice of a prefix only from that backend, when it
stops serving the model, or to it, when it starts to. -/
theorem route_update (hnew : new backends staticModels routingMode = some registry)
    (hbackends : backends.length ≤ 2 ^ 32) (strategy : LbStrategy) (overloadFactor : Rat)
    (calls : List (Nat × List ModelEntry)) (call : Nat × List ModelEntry)
    (inflight inflight' : List Nat) (prefixHash : BitVec 64) :
    let before := { run update (registry.withLoadBalancing strategy overloadFactor) calls with
      inflight := inflight }
    let after := { run update (registry.withLoadBalancing strategy overloadFactor)
      (calls ++ [call]) with inflight := inflight' }
    ∀ m e e', before.catalog.routing m = some e → after.catalog.routing m = some e' →
      Unloaded overloadFactor inflight e.candidates →
      Unloaded overloadFactor inflight' e'.candidates →
      ∃ first first', before.route (some m) (some prefixHash) = .ok (some first) ∧
        after.route (some m) (some prefixHash) = .ok (some first') ∧
        (first ≠ first' → (first = call.1 ∧ call.1 ∉ e'.candidates) ∨
          (first' = call.1 ∧ call.1 ∉ e.candidates)) := by
  intro before after m e e' he he' hunloaded hunloaded'
  have hbefore := represents_run hnew strategy overloadFactor calls
  have hafter := represents_run hnew strategy overloadFactor (calls ++ [call])
  have hfactor := (run_update_balancing (registry.withLoadBalancing strategy overloadFactor)
    calls).2
  have hfactor' := (run_update_balancing (registry.withLoadBalancing strategy overloadFactor)
    (calls ++ [call])).2
  rcases hbefore.1.candidates hbackends he with ⟨hne, hincreasing, hsmall, hmem⟩
  rcases hafter.1.candidates hbackends he' with ⟨hne', hincreasing', hsmall', hmem'⟩
  have hlight : Unloaded before.overloadFactor before.inflight e.candidates := by
    rw [show before.overloadFactor = overloadFactor from hfactor]
    exact hunloaded
  have hlight' : Unloaded after.overloadFactor after.inflight e'.candidates := by
    rw [show after.overloadFactor = overloadFactor from hfactor']
    exact hunloaded'
  rcases route_unloaded he hne hincreasing hsmall hlight prefixHash with
    ⟨first, hroute, hfirst, hbest⟩
  rcases route_unloaded he' hne' hincreasing' hsmall' hlight' prefixHash with
    ⟨first', hroute', hfirst', hbest'⟩
  refine ⟨first, first', hroute, hroute', fun hdiffer ↦ ?_⟩
  -- the other backends serve the model before the update exactly when they do after it
  have hothers : ∀ idx, idx ≠ call.1 → (idx ∈ e.candidates ↔ idx ∈ e'.candidates) := by
    intro idx hidx
    rw [hmem, hmem', run_concat, update_entries _ call hidx]
  by_cases hkept : first ∈ e'.candidates
  · by_cases hkept' : first' ∈ e.candidates
    · have hscores := BitVec.le_antisymm (hbest' first hkept) (hbest first' hkept')
      exact absurd (score_inj (hsmall first hfirst) (hsmall first' hkept') hscores) hdiffer
    · have hself : first' = call.1 := by
        by_contra hother
        exact hkept' ((hothers first' hother).mpr hfirst')
      exact Or.inr ⟨hself, hself ▸ hkept'⟩
  · have hself : first = call.1 := by
      by_contra hother
      exact hkept ((hothers first hother).mp hfirst)
    exact Or.inl ⟨hself, hself ▸ hkept⟩

end Reachable

/-- Scores tell the candidates apart, so that their order is a strict one and depends on the set of
them alone, and for fewer candidates is the same order restricted; an update of one backend then
moves, as long as no candidate reaches the bound, only prefixes from it or to it. -/
theorem rendezvous_minimal_disruption (prefixHash : BitVec 64) :
    (∀ i j, i < 2 ^ 32 → j < 2 ^ 32 → i ≠ j → score prefixHash i ≠ score prefixHash j) ∧
    (∀ candidates : List Nat, (∀ idx ∈ candidates, idx < 2 ^ 32) → candidates.Nodup →
      (rendezvousOrder prefixHash candidates).Perm candidates ∧
      (rendezvousOrder prefixHash candidates).Pairwise
        (fun i j ↦ score prefixHash j < score prefixHash i) ∧
      (∀ (listed : List Nat) (sorted : List (BitVec 64 × Nat)), listed.Perm candidates →
        sorted.Perm (listed.map fun idx ↦ (score prefixHash idx, idx)) →
        sorted.Pairwise (fun a b ↦ b.1 ≤ a.1) →
        sorted.map Prod.snd = rendezvousOrder prefixHash candidates) ∧
      ∀ fewer : List Nat, fewer.Nodup → fewer ⊆ candidates →
        rendezvousOrder prefixHash fewer =
          (rendezvousOrder prefixHash candidates).filter fun idx ↦ idx ∈ fewer) ∧
    ∀ (backends : List Backend) (staticModels : List (List String)) (routingMode : RoutingMode)
      (registry : BackendRegistry), new backends staticModels routingMode = some registry →
      backends.length ≤ 2 ^ 32 →
      ∀ (strategy : LbStrategy) (overloadFactor : Rat) (calls : List (Nat × List ModelEntry))
        (call : Nat × List ModelEntry) (inflight inflight' : List Nat),
        let before := { run update (registry.withLoadBalancing strategy overloadFactor) calls with
          inflight := inflight }
        let after := { run update (registry.withLoadBalancing strategy overloadFactor)
          (calls ++ [call]) with inflight := inflight' }
        ∀ m e e', before.catalog.routing m = some e → after.catalog.routing m = some e' →
          Unloaded overloadFactor inflight e.candidates →
          Unloaded overloadFactor inflight' e'.candidates →
          ∃ first first', before.route (some m) (some prefixHash) = .ok (some first) ∧
            after.route (some m) (some prefixHash) = .ok (some first') ∧
            (first ≠ first' → (first = call.1 ∧ call.1 ∉ e'.candidates) ∨
              (first' = call.1 ∧ call.1 ∉ e.candidates)) := by
  refine ⟨fun i j hi hj hne h ↦ hne (score_inj hi hj h), ?_, ?_⟩
  · intro candidates hsmall hnodup
    refine ⟨rendezvousOrder_perm prefixHash candidates,
      rendezvousOrder_strict prefixHash hsmall hnodup, ?_, ?_⟩
    · intro listed sorted hlisted hperm hsorted
      exact sorted_rendezvousOrder prefixHash hsmall hnodup hlisted hperm hsorted
    · intro fewer hfewer hsubset
      exact rendezvousOrder_restrict prefixHash hsmall hnodup hfewer hsubset
  · intro backends staticModels routingMode registry hnew hbackends strategy overloadFactor calls
      call inflight inflight'
    exact route_update hnew hbackends strategy overloadFactor calls call inflight inflight'
      prefixHash

end BackendRegistry

end TokenWeasel.Backends
