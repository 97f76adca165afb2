import Mathlib.Data.BitVec
import TokenWeasel.Backends.Registry
import TokenWeasel.Library.Ranking

/-!
# The order of the candidates (`twl-backends/src/lib.rs`)

Every placement puts the candidates of a model in some order, and leaves none of them out.
-/

namespace TokenWeasel.Backends

open Library

/-! ## Scores -/

theorem rotateLeft_injective : Function.Injective fun x : BitVec 64 ↦ x.rotateLeft 26 := by
  intro x y h
  apply BitVec.eq_of_getLsbD_eq
  intro i hi
  -- bit `i` is at `i + 26` of the rotated words, wrapping
  have hbit := congrArg (fun z : BitVec 64 ↦ z.getLsbD ((i + 26) % 64)) h
  dsimp only at hbit
  rw [BitVec.getLsbD_rotateLeft, BitVec.getLsbD_rotateLeft] at hbit
  by_cases hwrap : i + 26 < 64
  · rw [Nat.mod_eq_of_lt hwrap] at hbit
    simpa [hwrap] using hbit
  · have hmod : (i + 26) % 64 = i - 38 := by omega
    have hlow : i - 38 < 26 := by omega
    have hback : 38 + (i - 38) = i := by omega
    rw [hmod] at hbit
    simpa [hlow, hback] using hbit

theorem fxAdd_injective (state : BitVec 64) : Function.Injective (fxAdd state) := by
  intro x y h
  -- the multiplier is odd: it has an inverse
  have hinverse : 0xf1357aea2e62a9c5#64 * 0x781494a55daaed0d#64 = 1#64 := by decide
  have hmul := congrArg (fun z ↦ z * 0x781494a55daaed0d#64) h
  unfold fxAdd at hmul
  rw [BitVec.mul_assoc, BitVec.mul_assoc, hinverse, BitVec.mul_one, BitVec.mul_one] at hmul
  exact (BitVec.add_right_inj state).mp hmul

/-- Two `u32` candidates never have one score. -/
theorem score_inj {prefixHash : BitVec 64} {i j : Nat} (hi : i < 2 ^ 32) (hj : j < 2 ^ 32)
    (h : score prefixHash i = score prefixHash j) : i = j := by
  have hword := fxAdd_injective _ (rotateLeft_injective h)
  have hnat := congrArg BitVec.toNat hword
  rw [BitVec.toNat_ofNat, BitVec.toNat_ofNat] at hnat
  omega

section Scored

variable (prefixHash : BitVec 64) (candidates : List Nat)

theorem scoredCandidates_perm : (scoredCandidates prefixHash candidates).Perm
    (candidates.map fun idx ↦ (score prefixHash idx, idx)) :=
  List.mergeSort_perm _ _

theorem scoredCandidates_indices :
    ((scoredCandidates prefixHash candidates).map Prod.snd).Perm candidates := by
  have hperm := (scoredCandidates_perm prefixHash candidates).map Prod.snd
  rw [List.map_map] at hperm
  have hid : candidates.map (Prod.snd ∘ fun idx ↦ (score prefixHash idx, idx)) = candidates :=
    List.map_id candidates
  rw [hid] at hperm
  exact hperm

theorem mem_scoredCandidates (scored : BitVec 64 × Nat) :
    scored ∈ scoredCandidates prefixHash candidates ↔
      scored.2 ∈ candidates ∧ scored.1 = score prefixHash scored.2 := by
  rw [(scoredCandidates_perm prefixHash candidates).mem_iff, List.mem_map]
  constructor
  · rintro ⟨idx, hidx, rfl⟩
    exact ⟨hidx, rfl⟩
  · rintro ⟨hidx, hscore⟩
    exact ⟨scored.2, hidx, by rw [← hscore]⟩

theorem scoredCandidates_descending : (scoredCandidates prefixHash candidates).Pairwise
    fun a b ↦ b.1 ≤ a.1 := by
  have htrans : ∀ a b c : BitVec 64 × Nat, b.1 ≤ a.1 → c.1 ≤ b.1 → c.1 ≤ a.1 :=
    fun _ _ _ hab hbc ↦ BitVec.le_trans hbc hab
  exact pairwise_mergeSort_rel htrans (fun a b ↦ BitVec.le_total b.1 a.1) _

variable {candidates}

/-- No two candidates tie. -/
theorem scoredCandidates_strict (hsmall : ∀ idx ∈ candidates, idx < 2 ^ 32)
    (hnodup : candidates.Nodup) :
    ((scoredCandidates prefixHash candidates).map Prod.snd).Pairwise
      fun i j ↦ score prefixHash j < score prefixHash i := by
  have hindices := scoredCandidates_indices prefixHash candidates
  have hdistinct : ((scoredCandidates prefixHash candidates).map Prod.snd).Nodup :=
    hindices.nodup_iff.mpr hnodup
  have hboth := (scoredCandidates_descending prefixHash candidates).and
    (List.pairwise_map.mp hdistinct)
  apply List.pairwise_map.mpr
  apply hboth.imp_of_mem
  rintro a b ha hb ⟨hle, hne⟩
  rcases (mem_scoredCandidates prefixHash candidates _).mp ha with ⟨ha, hscorea⟩
  rcases (mem_scoredCandidates prefixHash candidates _).mp hb with ⟨hb, hscoreb⟩
  rw [hscorea, hscoreb] at hle
  apply BitVec.not_le.mp
  intro hge
  exact hne (score_inj (hsmall _ ha) (hsmall _ hb) (BitVec.le_antisymm hge hle))

/-- Whatever sort puts the scores in descending order, it puts the candidates in this one: the
unstable sort of the source does too. -/
theorem scoredCandidates_unique (hsmall : ∀ idx ∈ candidates, idx < 2 ^ 32)
    {sorted : List (BitVec 64 × Nat)}
    (hperm : sorted.Perm (candidates.map fun idx ↦ (score prefixHash idx, idx)))
    (hsorted : sorted.Pairwise fun a b ↦ b.1 ≤ a.1) :
    sorted = scoredCandidates prefixHash candidates := by
  have hsame := hperm.trans (scoredCandidates_perm prefixHash candidates).symm
  refine List.Perm.eq_of_pairwise ?_ hsorted (scoredCandidates_descending prefixHash candidates)
    hsame
  intro a b ha hb hba hab
  rcases (mem_scoredCandidates prefixHash candidates _).mp (hsame.mem_iff.mp ha) with ⟨ha, hscorea⟩
  rcases (mem_scoredCandidates prefixHash candidates _).mp hb with ⟨hb, hscoreb⟩
  have hscore : a.1 = b.1 := BitVec.le_antisymm hab hba
  have hidx : a.2 = b.2 := by
    rw [hscorea, hscoreb] at hscore
    exact score_inj (hsmall _ ha) (hsmall _ hb) hscore
  exact Prod.ext hscore hidx

end Scored

/-! ## Placement by a prefix -/

/-- The bound that a request with a prefix is held to. -/
def requestBound (overloadFactor : Rat) (inflight candidates : List Nat) : Nat :=
  loadBound overloadFactor ((candidates.map (load inflight)).sum % 2 ^ 32) candidates.length

/-- The placement under a bound, whatever arithmetic the bound comes from. -/
def placedUnder (bound : Nat) (inflight : List Nat) (prefixHash : BitVec 64)
    (candidates : List Nat) : List Nat :=
  match scoredCandidates prefixHash candidates with
  | [] => []
  | (top, primary) :: rest =>
    let chosen := spillTarget inflight ((top, primary) :: rest) bound primary
    chosen :: (((top, primary) :: rest).map Prod.snd).filter fun idx ↦ idx ≠ chosen

/-- The primary under the bound is what the search for a spill target finds. -/
theorem prefixPlacement_eq (overloadFactor : Rat) (inflight : List Nat) (prefixHash : BitVec 64)
    (candidates : List Nat) :
    prefixPlacement overloadFactor inflight prefixHash candidates =
      placedUnder (requestBound overloadFactor inflight candidates) inflight prefixHash
        candidates := by
  unfold prefixPlacement placedUnder requestBound
  cases scoredCandidates prefixHash candidates with
  | nil => rfl
  | cons head rest =>
      dsimp only
      split
      · rename_i hunder
        have hspill : ∀ bound, load inflight head.2 < bound →
            spillTarget inflight (head :: rest) bound head.2 = head.2 := by
          intro bound hbound
          rw [spillTarget, List.find?_cons_of_pos (by simpa using hbound)]
          rfl
        rw [hspill _ hunder]
      · rfl

/-- The backend that a prefix goes to: the best of those under the bound, or the best of all. -/
def Chosen (bound : Nat) (inflight : List Nat) (prefixHash : BitVec 64) (candidates : List Nat)
    (chosen : Nat) : Prop :=
  chosen ∈ candidates ∧
    ((load inflight chosen < bound ∧ ∀ idx ∈ candidates, load inflight idx < bound →
        score prefixHash idx ≤ score prefixHash chosen) ∨
      ∀ idx ∈ candidates, bound ≤ load inflight idx ∧
        score prefixHash idx ≤ score prefixHash chosen)

theorem placedUnder_chosen (bound : Nat) (inflight : List Nat) (prefixHash : BitVec 64)
    {candidates : List Nat} (hne : candidates ≠ []) :
    ∃ chosen, Chosen bound inflight prefixHash candidates chosen ∧
      placedUnder bound inflight prefixHash candidates = chosen ::
        ((scoredCandidates prefixHash candidates).map Prod.snd).filter fun idx ↦ idx ≠ chosen := by
  have hmem := mem_scoredCandidates prefixHash candidates
  have hdescending := scoredCandidates_descending prefixHash candidates
  have hindices := scoredCandidates_indices prefixHash candidates
  unfold placedUnder
  cases hscored : scoredCandidates prefixHash candidates with
  | nil =>
      rw [hscored] at hindices
      exact absurd (List.nil_perm.mp hindices) hne
  | cons head rest =>
      refine ⟨_, ?_, rfl⟩
      rw [hscored] at hmem hdescending
      have hidx : ∀ idx ∈ candidates, (score prefixHash idx, idx) ∈ head :: rest :=
        fun idx h ↦ (hmem _).mpr ⟨h, rfl⟩
      unfold spillTarget
      cases hfind : (head :: rest).find? fun candidate ↦ load inflight candidate.2 < bound with
      | some found =>
          rcases (hmem found).mp (List.mem_of_find?_eq_some hfind) with ⟨hcandidate, hscore⟩
          refine ⟨hcandidate, Or.inl ⟨?_, fun idx h hunder ↦ ?_⟩⟩
          · simpa using List.find?_some hfind
          · have hle := rel_of_find? (fun b ↦ BitVec.le_refl b.1) hdescending hfind _ (hidx idx h)
              (by simpa using hunder)
            rw [hscore] at hle
            exact hle
      | none =>
          rcases (hmem head).mp List.mem_cons_self with ⟨hcandidate, hscore⟩
          refine ⟨hcandidate, Or.inr fun idx h ↦ ⟨?_, ?_⟩⟩
          · simpa using List.find?_eq_none.mp hfind _ (hidx idx h)
          · show score prefixHash idx ≤ score prefixHash head.2
            rw [← hscore]
            cases List.mem_cons.mp (hidx idx h) with
            | inl heq => rw [← heq]; exact BitVec.le_refl _
            | inr hrest => exact (List.pairwise_cons.mp hdescending).1 _ hrest

/-! ## Placements -/

/-- What the order of a model's candidates is, under each kind of placement. -/
structure Placed (strategy : LbStrategy) (overloadFactor : Rat) (inflight : List Nat)
    (rotation : Nat) (prefixHash : Option (BitVec 64)) (candidates order : List Nat) : Prop where
  nonempty : order ≠ []
  nodup : order.Nodup
  perm : order.Perm candidates
  roundRobin : prefixHash = none → strategy = .roundRobin → order = candidates.rotate rotation
  leastLoaded : prefixHash = none → strategy = .leastLoaded → order.Pairwise fun i j ↦
    load inflight i < load inflight j ∨ (load inflight i = load inflight j ∧ i < j)
  byPrefix : ∀ h, prefixHash = some h → ∃ chosen rest, order = chosen :: rest ∧
    Chosen (requestBound overloadFactor inflight candidates) inflight h candidates chosen ∧
    rest.Pairwise fun i j ↦ score h j < score h i

section Order

variable {strategy : LbStrategy} {overloadFactor : Rat} {inflight : List Nat} {rotation : Nat}
  {candidates : List Nat}

/-- A single candidate needs no placement. -/
theorem placed_singleton (candidate : Nat) (prefixHash : Option (BitVec 64)) :
    Placed strategy overloadFactor inflight rotation prefixHash [candidate] [candidate] where
  nonempty := List.cons_ne_nil _ _
  nodup := List.nodup_cons.mpr ⟨List.not_mem_nil, List.nodup_nil⟩
  perm := List.Perm.refl _
  roundRobin _ _ := (List.rotate_singleton candidate rotation).symm
  leastLoaded _ _ := List.pairwise_singleton _ _
  byPrefix h _ := by
    refine ⟨candidate, [], rfl, ⟨List.mem_singleton_self _, ?_⟩, List.Pairwise.nil⟩
    have hself : ∀ idx ∈ [candidate], score h idx ≤ score h candidate := by
      intro idx hidx
      rw [List.mem_singleton.mp hidx]
      exact BitVec.le_refl _
    by_cases hunder : load inflight candidate <
        requestBound overloadFactor inflight [candidate]
    · exact Or.inl ⟨hunder, fun idx hidx _ ↦ hself idx hidx⟩
    · refine Or.inr fun idx hidx ↦ ⟨?_, hself idx hidx⟩
      rw [List.mem_singleton.mp hidx]
      exact Nat.le_of_not_lt hunder

theorem strategyPlacement_roundRobin :
    (strategyPlacement .roundRobin inflight rotation candidates).1 = candidates.rotate rotation := by
  show candidates.rotateLeft (rotation % candidates.length) = _
  rw [rotateLeft_eq_rotate, List.rotate_mod]

theorem strategyPlacement_leastLoaded (hincreasing : candidates.Pairwise (· < ·)) :
    (strategyPlacement .leastLoaded inflight rotation candidates).1.Pairwise fun i j ↦
      load inflight i < load inflight j ∨ (load inflight i = load inflight j ∧ i < j) := by
  have htrans : ∀ i j k, load inflight i ≤ load inflight j →
      load inflight j ≤ load inflight k → load inflight i ≤ load inflight k :=
    fun _ _ _ hij hjk ↦ le_trans hij hjk
  have hstable := pairwise_mergeSort_stable htrans (fun i j ↦ le_total _ _)
    (hincreasing.imp fun hlt ↦ Nat.ne_of_lt hlt) hincreasing
  apply hstable.imp
  intro i j hij
  omega

theorem strategyPlacement_perm :
    (strategyPlacement strategy inflight rotation candidates).1.Perm candidates := by
  cases strategy with
  | roundRobin =>
      rw [strategyPlacement_roundRobin]
      exact List.rotate_perm candidates rotation
  | leastLoaded => exact List.mergeSort_perm _ _

theorem placedUnder_perm (bound : Nat) (prefixHash : BitVec 64) (hne : candidates ≠ [])
    (hnodup : candidates.Nodup) :
    (placedUnder bound inflight prefixHash candidates).Perm candidates := by
  have hindices := scoredCandidates_indices prefixHash candidates
  rcases placedUnder_chosen bound inflight prefixHash hne with ⟨chosen, hchosen, heq⟩
  rw [heq]
  have hmem := hindices.mem_iff.mpr hchosen.1
  exact (perm_cons_filter_ne (hindices.nodup_iff.mpr hnodup) hmem).trans hindices

/-- Every placement of increasing `u32` candidates is an order of them. -/
theorem orderedCandidates_placed (hne : candidates ≠ [])
    (hincreasing : candidates.Pairwise (· < ·)) (hsmall : ∀ idx ∈ candidates, idx < 2 ^ 32)
    (prefixHash : Option (BitVec 64)) :
    Placed strategy overloadFactor inflight rotation prefixHash candidates
      (orderedCandidates strategy overloadFactor inflight rotation candidates prefixHash).1 := by
  have hnodup : candidates.Nodup := hincreasing.imp fun hlt ↦ Nat.ne_of_lt hlt
  have hperm : (orderedCandidates strategy overloadFactor inflight rotation candidates
      prefixHash).1.Perm candidates := by
    cases prefixHash with
    | none => exact strategyPlacement_perm
    | some h =>
        show (prefixPlacement overloadFactor inflight h candidates).Perm candidates
        rw [prefixPlacement_eq]
        exact placedUnder_perm _ h hne hnodup
  constructor
  case nonempty =>
    intro hnil
    rw [hnil] at hperm
    exact hne (List.nil_perm.mp hperm)
  case nodup => exact hperm.nodup_iff.mpr hnodup
  case perm => exact hperm
  case roundRobin =>
    intro hhash hstrategy
    rw [hhash, hstrategy]
    show (strategyPlacement .roundRobin inflight rotation candidates).1 = _
    exact strategyPlacement_roundRobin
  case leastLoaded =>
    intro hhash hstrategy
    rw [hhash, hstrategy]
    exact strategyPlacement_leastLoaded hincreasing
  case byPrefix =>
    intro h hhash
    rcases placedUnder_chosen (requestBound overloadFactor inflight candidates) inflight h hne with
      ⟨chosen, hchosen, heq⟩
    have hstrict := scoredCandidates_strict h hsmall hnodup
    refine ⟨chosen, _, ?_, hchosen, hstrict.filter fun idx ↦ idx ≠ chosen⟩
    rw [hhash]
    show prefixPlacement overloadFactor inflight h candidates = _
    rw [prefixPlacement_eq, heq]

end Order

/-! ## Reachable registries -/

namespace BackendRegistry

theorem run_update_balancing (registry : BackendRegistry) (calls : List (Nat × List ModelEntry)) :
    (run update registry calls).strategy = registry.strategy ∧
      (run update registry calls).overloadFactor = registry.overloadFactor := by
  induction calls using List.reverseRecOn with
  | nil => exact ⟨rfl, rfl⟩
  | append_singleton calls call ih =>
      rw [run_concat]
      have hstep : ∀ r : BackendRegistry, (update r call).strategy = r.strategy ∧
          (update r call).overloadFactor = r.overloadFactor := by
        intro r
        unfold update setBackendModels
        cases r.backends[call.1]? with
        | none => exact ⟨rfl, rfl⟩
        | some backend => exact ⟨rfl, rfl⟩
      exact ⟨(hstep _).1.trans ih.1, (hstep _).2.trans ih.2⟩

theorem routeCandidates_ok {registry : BackendRegistry} {m : String} {e : RoutingEntry}
    (he : registry.catalog.routing m = some e) (hne : e.candidates ≠ [])
    (hincreasing : e.candidates.Pairwise (· < ·)) (hsmall : ∀ idx ∈ e.candidates, idx < 2 ^ 32)
    (prefixHash : Option (BitVec 64)) :
    ∃ order, (registry.routeCandidates (some m) prefixHash).1 = .ok order ∧
      Placed registry.strategy registry.overloadFactor registry.inflight
        (registry.rotations e.rotation) prefixHash e.candidates order := by
  unfold routeCandidates
  simp only [he]
  split
  · rename_i candidate hone
    rw [hone]
    exact ⟨_, rfl, placed_singleton candidate prefixHash⟩
  · exact ⟨_, rfl, orderedCandidates_placed hne hincreasing hsmall prefixHash⟩

/-- In a registry of at most `2 ^ 32` backends, after any updates, at any load and with any
counters, a routed model's candidates are all there, each once, in the order of the placement. -/
theorem routeCandidates_placed {backends : List Backend} {staticModels : List (List String)}
    {routingMode : RoutingMode} {registry : BackendRegistry}
    (hnew : new backends staticModels routingMode = some registry)
    (hbackends : backends.length ≤ 2 ^ 32) (strategy : LbStrategy) (overloadFactor : Rat)
    (calls : List (Nat × List ModelEntry)) (inflight : List Nat)
    (rotations : RotationId → Nat) :
    let r := { run update (registry.withLoadBalancing strategy overloadFactor) calls with
      inflight := inflight
      rotations := rotations }
    ∀ m e prefixHash, r.catalog.routing m = some e →
      ∃ order, (r.routeCandidates (some m) prefixHash).1 = .ok order ∧
        Placed strategy overloadFactor inflight (rotations e.rotation) prefixHash e.candidates
          order := by
  intro r m e prefixHash he
  have h := (represents_run hnew strategy overloadFactor calls).1
  have hbalancing := run_update_balancing (registry.withLoadBalancing strategy overloadFactor) calls
  have hcandidates := h.candidates_eq hbackends he
  have hne : e.candidates ≠ [] := by
    rw [hcandidates]
    exact (h.routed_iff m).mp (by rw [he]; rfl)
  have hincreasing : e.candidates.Pairwise (· < ·) := by
    rw [hcandidates]
    exact holders_increasing _ m
  have hsmall : ∀ idx ∈ e.candidates, idx < 2 ^ 32 := by
    intro idx hidx
    rw [hcandidates, mem_holders, h.entries_length] at hidx
    omega
  have hroute := routeCandidates_ok he hne hincreasing hsmall prefixHash
  rcases hroute with ⟨order, hok, hplaced⟩
  refine ⟨order, hok, ?_⟩
  have hstrategy : r.strategy = strategy := hbalancing.1
  have hfactor : r.overloadFactor = overloadFactor := hbalancing.2
  rw [hstrategy, hfactor] at hplaced
  exact hplaced

/-- With the counter at 5 the second of two replicas comes first. -/
theorem routeCandidates_placed_two :
    ∃ registry, new twoBackends [["m", "x"], ["m"]] .catalog = some registry ∧
      let r := { run update (registry.withLoadBalancing .roundRobin 2) [(1, [⟨"m", .null⟩])] with
        inflight := [3, 1]
        rotations := fun _ ↦ 5 }
      (r.routeCandidates (some "m") none).1 = .ok [1, 0] := by
  cases hnew : new twoBackends [["m", "x"], ["m"]] .catalog with
  | none => exact absurd hnew (by decide)
  | some registry =>
      refine ⟨registry, rfl, ?_⟩
      intro r
      have h := routeCandidates_placed hnew (by decide) .roundRobin 2 [(1, [⟨"m", .null⟩])] [3, 1]
        fun _ ↦ 5
      have heq := Option.some.inj hnew
      subst heq
      rcases h "m" ⟨[0, 1], 0⟩ none (by decide) with ⟨order, hok, hplaced⟩
      rw [hok, hplaced.roundRobin rfl rfl]
      rfl

/-- A registry with `2 ^ 32 + 1` backends for one model returns a candidate twice. -/
theorem crowded_order_repeats :
    ∃ registry, new (List.replicate (2 ^ 32 + 1) ⟨.llamaCpp, [], none⟩)
        (List.replicate (2 ^ 32 + 1) ["m"]) .catalog = some registry ∧
      ∃ order, (registry.routeCandidates (some "m") none).1 = .ok order ∧ ¬ order.Nodup := by
  rcases new_crowded (2 ^ 32) ⟨.llamaCpp, [], none⟩ ["m"] with ⟨registry, hnew, hrouting⟩
  refine ⟨registry, hnew, ?_⟩
  have hholds : Holds (backendEntries ⟨.llamaCpp, [], none⟩
      (staticListing ⟨.llamaCpp, [], none⟩ ["m"])) "m" := by decide
  have hrepeat := buildRouting_not_nodup hholds (Nat.lt_succ_self (2 ^ 32)) none 0
  rw [← hrouting, candidatesOf] at hrepeat
  cases he : registry.catalog.routing "m" with
  | none =>
      rw [he] at hrepeat
      exact absurd List.nodup_nil hrepeat
  | some e =>
      rw [he] at hrepeat
      unfold routeCandidates
      simp only [he]
      split
      · rename_i candidate hone
        rw [Option.map_some, Option.getD_some, hone] at hrepeat
        exact ⟨_, rfl, hrepeat⟩
      · -- the order is a permutation of the candidates even so
        exact ⟨_, rfl, fun hnodup ↦ hrepeat (strategyPlacement_perm.nodup_iff.mp hnodup)⟩

end BackendRegistry

end TokenWeasel.Backends
