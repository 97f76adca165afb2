import Mathlib.Data.List.Range
import TokenWeasel.Backends.Catalog
import TokenWeasel.Backends.Placement
import TokenWeasel.Library.Schedule

/-!
# The backend registry (`twl-backends/src/lib.rs`)

The registry as one thread sees it.  The catalog is compared with the listings it was made from:
the latest listing of each backend decides what is listed and what is routed.
-/

namespace TokenWeasel.Backends

open Library

inductive RoutingMode where
  /-- Forward every supplied model name to the sole backend. -/
  | flatPassthrough
  /-- Only route model names in the catalog. -/
  | catalog
  deriving DecidableEq, Repr

inductive RouteError where
  | missingModel
  | unknownModel (name : String)
  deriving DecidableEq, Repr

structure BackendRegistry where
  catalog : Catalog
  backends : List Backend
  routingMode : RoutingMode
  inflight : List Nat
  strategy : LbStrategy
  overloadFactor : Rat
  /-- The values of the rotation counters, and the number the next one gets. -/
  rotations : RotationId → Nat
  nextRotation : RotationId

namespace BackendRegistry

/-- The model object `new` makes for a configured model. -/
def staticListing (backend : Backend) (models : List String) : List ModelEntry :=
  models.map fun id ↦
    { id := id
      raw := .object [("id", .string id), ("object", .string "model"),
        ("owned_by", .string backend.provider.name)] }

/-- `BackendRegistry::new`: `none` is a failed assertion. -/
def new (backends : List Backend) (staticModels : List (List String)) (routingMode : RoutingMode) :
    Option BackendRegistry :=
  if backends ≠ [] ∧ backends.length = staticModels.length ∧
      (routingMode ≠ .flatPassthrough ∨ backends.length = 1) then
    let entries := List.zipWith
      (fun backend models ↦ backendEntries backend (staticListing backend models))
      backends staticModels
    let routing := buildRouting entries none 0
    some {
      catalog := { entries := entries, routing := routing.1 }
      backends := backends
      routingMode := routingMode
      inflight := List.replicate backends.length 0
      strategy := .leastLoaded
      overloadFactor := 5 / 4
      rotations := fun _ ↦ 0
      nextRotation := routing.2 }
  else none

def withLoadBalancing (registry : BackendRegistry) (strategy : LbStrategy)
    (overloadFactor : Rat) : BackendRegistry :=
  { registry with strategy := strategy, overloadFactor := overloadFactor }

/-- The catalog that replaces `catalog` when a backend's entries do. -/
def updateCatalog (catalog : Catalog) (idx : Nat) (newEntries : List CatalogEntry)
    (fresh : RotationId) : Catalog × RotationId :=
  let entries := catalog.entries.set idx newEntries
  let routing := buildRouting entries (some catalog.routing) fresh
  ({ entries := entries, routing := routing.1 }, routing.2)

/-- `set_backend_models`, undisturbed by other threads: `none` is the index panic. -/
def setBackendModels (registry : BackendRegistry) (idx : Nat) (listing : List ModelEntry) :
    Option BackendRegistry :=
  registry.backends[idx]?.map fun backend ↦
    let next := updateCatalog registry.catalog idx (backendEntries backend listing)
      registry.nextRotation
    { registry with catalog := next.1, nextRotation := next.2 }

/-- The entries behind `model_entries`. -/
def listedEntries (registry : BackendRegistry) : List CatalogEntry :=
  distinctBy CatalogEntry.id [] registry.catalog.entries.flatten

def modelEntries (registry : BackendRegistry) : List Value :=
  registry.listedEntries.map CatalogEntry.raw

def routeCandidates (registry : BackendRegistry) (model : Option String)
    (prefixHash : Option (BitVec 64)) : Except RouteError (List Nat) × BackendRegistry :=
  match model with
  | none => (.error .missingModel, registry)
  | some name =>
    match registry.catalog.routing name with
    | some entry =>
      match entry.candidates with
      -- a single candidate leaves the counter alone
      | [candidate] => (.ok [candidate], registry)
      | candidates =>
        let placed := orderedCandidates registry.strategy registry.overloadFactor
          registry.inflight (registry.rotations entry.rotation) candidates prefixHash
        (.ok placed.1,
          { registry with
            rotations := Function.update registry.rotations entry.rotation placed.2 })
    | none =>
      if registry.routingMode = .flatPassthrough then (.ok [0], registry)
      else (.error (.unknownModel name), registry)

/-! ## Histories of updates -/

/-- One call of `set_backend_models`; a call that panics has written nothing. -/
def update (registry : BackendRegistry) (call : Nat × List ModelEntry) : BackendRegistry :=
  (registry.setBackendModels call.1 call.2).getD registry

/-- The latest listing of each backend. -/
def latestListings (backends : List Backend) (staticModels : List (List String))
    (calls : List (Nat × List ModelEntry)) : List (List ModelEntry) :=
  calls.foldl (fun listings call ↦ listings.set call.1 call.2)
    (List.zipWith staticListing backends staticModels)

/-- The registry's catalog is the one its backends' latest listings make. -/
structure Represents (registry : BackendRegistry) (backends : List Backend)
    (listings : List (List ModelEntry)) : Prop where
  backends_eq : registry.backends = backends
  length_eq : listings.length = backends.length
  entries_eq : registry.catalog.entries = List.zipWith backendEntries backends listings
  routing_eq : ∃ previous fresh,
    registry.catalog.routing = (buildRouting registry.catalog.entries previous fresh).1

theorem zipWith_staticListing (backends : List Backend) (staticModels : List (List String)) :
    List.zipWith backendEntries backends (List.zipWith staticListing backends staticModels) =
      List.zipWith (fun backend models ↦ backendEntries backend (staticListing backend models))
        backends staticModels := by
  induction backends generalizing staticModels with
  | nil => rfl
  | cons backend backends ih =>
      cases staticModels with
      | nil => rfl
      | cons models staticModels =>
          rw [List.zipWith_cons_cons, List.zipWith_cons_cons, List.zipWith_cons_cons, ih]

/-- A new listing for one backend changes the entries of that backend. -/
theorem zipWith_set {backends : List Backend} {listings : List (List ModelEntry)} {idx : Nat}
    {backend : Backend} (hbackend : backends[idx]? = some backend) (listing : List ModelEntry) :
    List.zipWith backendEntries backends (listings.set idx listing) =
      (List.zipWith backendEntries backends listings).set idx (backendEntries backend listing) := by
  induction backends generalizing listings idx with
  | nil => simp at hbackend
  | cons first backends ih =>
      cases listings with
      | nil => rfl
      | cons head listings =>
          cases idx with
          | zero =>
              have heq : first = backend := by simpa using hbackend
              rw [List.set_cons_zero, List.zipWith_cons_cons, List.zipWith_cons_cons,
                List.set_cons_zero, heq]
          | succ idx =>
              rw [List.set_cons_succ, List.zipWith_cons_cons, List.zipWith_cons_cons,
                List.set_cons_succ, ih (by simpa using hbackend)]

theorem represents_new {backends : List Backend} {staticModels : List (List String)}
    {routingMode : RoutingMode} {registry : BackendRegistry}
    (hnew : new backends staticModels routingMode = some registry) :
    Represents registry backends (List.zipWith staticListing backends staticModels) ∧
      registry.routingMode = routingMode ∧
      (routingMode = .flatPassthrough → backends.length = 1) := by
  unfold new at hnew
  split at hnew
  · rename_i hassert
    have heq := Option.some.inj hnew
    subst heq
    refine ⟨⟨rfl, ?_, ?_, none, 0, rfl⟩, rfl, fun hflat ↦ ?_⟩
    · rw [List.length_zipWith, ← hassert.2.1, Nat.min_self]
    · exact (zipWith_staticListing backends staticModels).symm
    · cases hassert.2.2 with
      | inl hnot => exact absurd hflat hnot
      | inr hone => exact hone
  · exact absurd hnew (by simp)

theorem represents_update {registry : BackendRegistry} {backends : List Backend}
    {listings : List (List ModelEntry)} (h : Represents registry backends listings)
    (call : Nat × List ModelEntry) :
    Represents (registry.update call) backends (listings.set call.1 call.2) ∧
      (registry.update call).routingMode = registry.routingMode := by
  have hlength : (listings.set call.1 call.2).length = backends.length := by
    rw [List.length_set, h.length_eq]
  unfold update setBackendModels
  cases hbackend : registry.backends[call.1]? with
  | none =>
      -- the index panics, and no listing has it
      have hout : listings.length ≤ call.1 := by
        rw [h.length_eq, ← h.backends_eq]
        exact List.getElem?_eq_none_iff.mp hbackend
      rw [Option.map_none, Option.getD_none, List.set_eq_of_length_le hout]
      exact ⟨h, rfl⟩
  | some backend =>
      rw [Option.map_some, Option.getD_some]
      refine ⟨⟨h.backends_eq, hlength, ?_, some registry.catalog.routing, registry.nextRotation,
        rfl⟩, rfl⟩
      rw [zipWith_set (h.backends_eq ▸ hbackend), ← h.entries_eq]
      rfl

theorem represents_run {backends : List Backend} {staticModels : List (List String)}
    {routingMode : RoutingMode} {registry : BackendRegistry}
    (hnew : new backends staticModels routingMode = some registry) (strategy : LbStrategy)
    (overloadFactor : Rat) (calls : List (Nat × List ModelEntry)) :
    Represents (run update (registry.withLoadBalancing strategy overloadFactor) calls) backends
        (latestListings backends staticModels calls) ∧
      (run update (registry.withLoadBalancing strategy overloadFactor) calls).routingMode =
        routingMode := by
  have hstart := represents_new hnew
  induction calls using List.reverseRecOn with
  | nil =>
      have h := hstart.1
      exact ⟨⟨h.backends_eq, h.length_eq, h.entries_eq, h.routing_eq⟩, hstart.2.1⟩
  | append_singleton calls call ih =>
      have hstep := represents_update ih.1 call
      rw [run_concat, latestListings, List.foldl_concat]
      exact ⟨hstep.1, hstep.2.trans ih.2⟩

/-! ## Entries and listings -/

theorem backendEntries_allowed {backend : Backend} {listing : List ModelEntry}
    {entry : CatalogEntry} (h : entry ∈ backendEntries backend listing) :
    modelAllowed backend.modelFilter entry.id = true := by
  rcases List.mem_map.mp (mem_of_mem_distinctBy h) with ⟨source, hsource, rfl⟩
  exact (List.mem_filter.mp hsource).2

/-- An entry is made from the first element of the listing with its id. -/
theorem backendEntries_source {backend : Backend} {listing : List ModelEntry}
    {entry : CatalogEntry} (h : entry ∈ backendEntries backend listing) :
    ∃ source, (listing.find? fun e ↦ e.id = entry.id) = some source ∧
      entry.raw = applyTypeOverride source.raw backend.modelTypes entry.id := by
  have hallowed := backendEntries_allowed h
  have hfirst := find?_of_mem_nodup (distinctBy_keys_nodup _ _) h
  rw [find?_distinctBy List.not_mem_nil, List.find?_map, List.find?_filter] at hfirst
  rcases Option.map_eq_some_iff.mp hfirst with ⟨source, hsource, heq⟩
  have hid : source.id = entry.id := by rw [← heq]
  refine ⟨source, ?_, ?_⟩
  · rw [← hsource]
    congr 1
    funext e
    -- an element with this id passes the filter
    by_cases he : e.id = entry.id <;> simp [he, hallowed]
  · rw [← heq]

section Represented

variable {registry : BackendRegistry} {backends : List Backend}
  {listings : List (List ModelEntry)}

theorem Represents.entries_length (h : Represents registry backends listings) :
    registry.catalog.entries.length = backends.length := by
  rw [h.entries_eq, List.length_zipWith, h.length_eq, Nat.min_self]

theorem Represents.routed_iff (h : Represents registry backends listings) (m : String) :
    (registry.catalog.routing m).isSome = true ↔ holders registry.catalog.entries m ≠ [] := by
  rcases h.routing_eq with ⟨previous, fresh, hrouting⟩
  rw [hrouting]
  exact buildRouting_isSome _ previous fresh m

theorem Represents.candidates_eq (h : Represents registry backends listings)
    (hbackends : backends.length ≤ 2 ^ 32) {m : String} {e : RoutingEntry}
    (he : registry.catalog.routing m = some e) :
    e.candidates = holders registry.catalog.entries m := by
  rcases h.routing_eq with ⟨previous, fresh, hrouting⟩
  have hlength : registry.catalog.entries.length ≤ 2 ^ 32 := by
    rw [h.entries_length]
    exact hbackends
  have heq := buildRouting_candidates_eq registry.catalog.entries previous fresh hlength m
  rw [← hrouting, candidatesOf, he] at heq
  exact heq

/-- A model is listed exactly when it is routed. -/
theorem Represents.listed_iff (h : Represents registry backends listings) (m : String) :
    m ∈ registry.listedEntries.map CatalogEntry.id ↔
      (registry.catalog.routing m).isSome = true := by
  have hmem : m ∈ registry.listedEntries.map CatalogEntry.id ↔
      ∃ e ∈ registry.catalog.entries.flatten, e.id = m := by
    rw [List.mem_map, exists_mem_iff_find?, exists_mem_iff_find?, listedEntries,
      find?_distinctBy List.not_mem_nil]
  rw [h.routed_iff, hmem]
  constructor
  · rintro ⟨e, he, hid⟩ hnil
    rcases List.mem_flatten.mp he with ⟨entries, hentries, he⟩
    rcases List.mem_iff_getElem.mp hentries with ⟨i, hi, heq⟩
    have hholds : i ∈ holders registry.catalog.entries m := by
      apply mem_holders.mpr
      refine ⟨hi, e, ?_, hid⟩
      rw [List.getElem?_eq_getElem hi, heq]
      exact he
    rw [hnil] at hholds
    exact absurd hholds List.not_mem_nil
  · intro hne
    rcases List.exists_mem_of_ne_nil _ hne with ⟨i, hi⟩
    rcases mem_holders.mp hi with ⟨hlt, e, he, hid⟩
    rw [List.getElem?_eq_getElem hlt] at he
    exact ⟨e, List.mem_flatten.mpr ⟨_, List.getElem_mem hlt, he⟩, hid⟩

theorem Represents.entries_at (h : Represents registry backends listings) {i : Nat}
    {entries : List CatalogEntry} (hi : registry.catalog.entries[i]? = some entries) :
    ∃ backend listing, backends[i]? = some backend ∧ listings[i]? = some listing ∧
      entries = backendEntries backend listing := by
  rw [h.entries_eq] at hi
  rcases List.getElem?_zipWith_eq_some.mp hi with ⟨backend, listing, hb, hl, heq⟩
  exact ⟨backend, listing, hb, hl, heq.symm⟩

/-- A listed entry is the first with its id of the first backend that holds the id. -/
theorem Represents.listed_source (h : Represents registry backends listings)
    (hbackends : backends.length ≤ 2 ^ 32) {entry : CatalogEntry}
    (hentry : entry ∈ registry.listedEntries) :
    ∃ i backend listing source,
      (candidatesOf registry.catalog.routing entry.id).head? = some i ∧
      backends[i]? = some backend ∧ listings[i]? = some listing ∧
      (listing.find? fun e ↦ e.id = entry.id) = some source ∧
      entry.raw = applyTypeOverride source.raw backend.modelTypes entry.id := by
  have hfirst := find?_of_mem_nodup (distinctBy_keys_nodup _ _) hentry
  rw [find?_distinctBy List.not_mem_nil, List.find?_flatten] at hfirst
  rcases List.findSome?_eq_some_iff.mp hfirst with ⟨pre, entries, post, hsplit, hfind, hnone⟩
  have hentries : registry.catalog.entries[pre.length]? = some entries := by
    rw [hsplit, List.getElem?_append_right (Nat.le_refl _), Nat.sub_self]
    rfl
  rcases h.entries_at hentries with ⟨backend, listing, hb, hl, heq⟩
  have hmem : entry ∈ backendEntries backend listing := heq ▸ List.mem_of_find?_eq_some hfind
  rcases backendEntries_source hmem with ⟨source, hsource, hraw⟩
  refine ⟨pre.length, backend, listing, source, ?_, hb, hl, hsource, hraw⟩
  -- no backend before it holds the id
  have hhead : (holders registry.catalog.entries entry.id).head? = some pre.length := by
    rw [holders, List.head?_filter, List.find?_range_eq_some]
    refine ⟨?_, ?_, ?_⟩
    · rw [decide_eq_true_eq, hentries]
      exact ⟨entry, heq ▸ hmem, rfl⟩
    · rw [hsplit]
      simp
    · intro j hj
      have hget : registry.catalog.entries[j]? = some pre[j] := by
        rw [hsplit, List.getElem?_append_left hj, List.getElem?_eq_getElem hj]
      rw [Bool.not_eq_true', decide_eq_false_iff_not, hget]
      intro hholds
      exact exists_mem_iff_find?.mp hholds (hnone _ (List.getElem_mem hj))
  have hrouted := (h.listed_iff entry.id).mp (List.mem_map_of_mem hentry)
  rcases Option.isSome_iff_exists.mp hrouted with ⟨e, he⟩
  rw [candidatesOf, he]
  show e.candidates.head? = some pre.length
  rw [h.candidates_eq hbackends he]
  exact hhead

theorem Represents.routeCandidates_isOk (h : Represents registry backends listings)
    (hmode : registry.routingMode = .catalog) (m : String) (prefixHash : Option (BitVec 64)) :
    (registry.routeCandidates (some m) prefixHash).1.isOk = true ↔
      m ∈ registry.listedEntries.map CatalogEntry.id := by
  rw [h.listed_iff]
  unfold routeCandidates
  cases hm : registry.catalog.routing m with
  | none => simp [hm, hmode, Except.isOk, Except.toBool]
  | some e =>
      simp only [hm]
      split <;> simp [Except.isOk, Except.toBool]

theorem Represents.routeCandidates_flat (h : Represents registry backends listings)
    (hmode : registry.routingMode = .flatPassthrough) (hone : backends.length = 1) (m : String)
    (prefixHash : Option (BitVec 64)) :
    (registry.routeCandidates (some m) prefixHash).1 = .ok [0] := by
  unfold routeCandidates
  cases hm : registry.catalog.routing m with
  | none => simp [hm, hmode]
  | some e =>
      -- one backend holds whatever is routed
      have hne : holders registry.catalog.entries m ≠ [] :=
        (h.routed_iff m).mp (by rw [hm]; rfl)
      have hholders : holders registry.catalog.entries m = [0] := by
        rw [holders, h.entries_length, hone] at hne ⊢
        rw [List.range_one] at hne ⊢
        by_cases hzero : Holds (registry.catalog.entries[0]?.getD []) m
        · rw [List.filter_cons_of_pos (by simpa using hzero), List.filter_nil]
        · rw [List.filter_cons_of_neg (by simpa using hzero)] at hne
          exact absurd List.filter_nil hne
      have hcandidates := h.candidates_eq (by omega) hm
      rw [hholders] at hcandidates
      simp only [hm, hcandidates]

end Represented

/-- Listing and routing agree after any sequence of updates of a registry with at most `2 ^ 32`
backends, whatever its load balancing. -/
theorem listing_agrees_with_routing {backends : List Backend} {staticModels : List (List String)}
    {routingMode : RoutingMode} {registry : BackendRegistry}
    (hnew : new backends staticModels routingMode = some registry)
    (hbackends : backends.length ≤ 2 ^ 32) (strategy : LbStrategy) (overloadFactor : Rat)
    (calls : List (Nat × List ModelEntry)) :
    let r := run update (registry.withLoadBalancing strategy overloadFactor) calls
    let listings := latestListings backends staticModels calls
    (∀ m, (r.catalog.routing m).isSome = true ↔
      ∃ entries ∈ r.catalog.entries, ∃ e ∈ entries, e.id = m) ∧
    (∀ m e, r.catalog.routing m = some e →
      e.candidates ≠ [] ∧ e.candidates.Pairwise (· < ·) ∧ e.candidates.Nodup ∧
      ∀ i, i ∈ e.candidates ↔ i < backends.length ∧ Holds (r.catalog.entries[i]?.getD []) m) ∧
    (∀ (i : Nat) entries, r.catalog.entries[i]? = some entries →
      ∃ backend, backends[i]? = some backend ∧
        ∀ e ∈ entries, modelAllowed backend.modelFilter e.id = true) ∧
    r.modelEntries = r.listedEntries.map CatalogEntry.raw ∧
    (r.listedEntries.map CatalogEntry.id).Nodup ∧
    (∀ m, m ∈ r.listedEntries.map CatalogEntry.id ↔ (r.catalog.routing m).isSome = true) ∧
    (∀ e ∈ r.listedEntries, ∃ i backend listing source,
      (candidatesOf r.catalog.routing e.id).head? = some i ∧
      backends[i]? = some backend ∧ listings[i]? = some listing ∧
      (listing.find? fun s ↦ s.id = e.id) = some source ∧
      e.raw = applyTypeOverride source.raw backend.modelTypes e.id) ∧
    (routingMode = .catalog → ∀ m prefixHash,
      (r.routeCandidates (some m) prefixHash).1.isOk = true ↔
        m ∈ r.listedEntries.map CatalogEntry.id) ∧
    (routingMode = .flatPassthrough → ∀ m prefixHash,
      (r.routeCandidates (some m) prefixHash).1 = .ok [0]) := by
  intro r listings
  have hrun := represents_run hnew strategy overloadFactor calls
  have h : Represents r backends listings := hrun.1
  refine ⟨?_, ?_, ?_, rfl, distinctBy_keys_nodup _ _, h.listed_iff, ?_, ?_, ?_⟩
  · intro m
    rw [← h.listed_iff, List.mem_map, exists_mem_iff_find?, listedEntries,
      find?_distinctBy List.not_mem_nil, ← exists_mem_iff_find?]
    constructor
    · rintro ⟨e, he, hid⟩
      rcases List.mem_flatten.mp he with ⟨entries, hentries, he⟩
      exact ⟨entries, hentries, e, he, hid⟩
    · rintro ⟨entries, hentries, e, he, hid⟩
      exact ⟨e, List.mem_flatten.mpr ⟨entries, hentries, he⟩, hid⟩
  · intro m e he
    have hcandidates := h.candidates_eq hbackends he
    have hne := (h.routed_iff m).mp (by rw [he]; rfl)
    have hincreasing := holders_increasing r.catalog.entries m
    rw [hcandidates]
    refine ⟨hne, hincreasing, hincreasing.imp fun hlt ↦ Nat.ne_of_lt hlt, fun i ↦ ?_⟩
    rw [mem_holders, h.entries_length]
  · intro i entries hi
    rcases h.entries_at hi with ⟨backend, listing, hb, -, heq⟩
    refine ⟨backend, hb, fun e he ↦ ?_⟩
    exact backendEntries_allowed (heq ▸ he)
  · exact fun e he ↦ h.listed_source hbackends he
  · intro hmode m prefixHash
    exact h.routeCandidates_isOk (hrun.2.trans hmode) m prefixHash
  · intro hmode m prefixHash
    exact h.routeCandidates_flat (hrun.2.trans hmode) ((represents_new hnew).2.2 hmode) m prefixHash

/-- A restricted and an unrestricted backend. -/
def twoBackends : List Backend :=
  [⟨.llamaCpp, [], some ["m"]⟩, ⟨.ollama, [("e", .embedding)], none⟩]

/-- After a new listing for the second backend "e" is routed, and "x" no longer is. -/
theorem listing_agrees_with_routing_two :
    ∃ registry, new twoBackends [["m", "x"], ["m", "x", "m"]] .catalog = some registry ∧
      let r := run update (registry.withLoadBalancing .roundRobin 2)
        [(1, [⟨"e", .object []⟩, ⟨"m", .null⟩, ⟨"e", .null⟩])]
      (r.routeCandidates (some "e") none).1.isOk = true ∧
        (r.routeCandidates (some "x") none).1.isOk ≠ true := by
  cases hnew : new twoBackends [["m", "x"], ["m", "x", "m"]] .catalog with
  | none => exact absurd hnew (by decide)
  | some registry =>
      refine ⟨registry, rfl, ?_⟩
      intro r
      have h := listing_agrees_with_routing hnew (by decide) .roundRobin 2
        [(1, [⟨"e", .object []⟩, ⟨"m", .null⟩, ⟨"e", .null⟩])]
      have hroutes := h.2.2.2.2.2.2.2.1 rfl
      have heq := Option.some.inj hnew
      subst heq
      constructor
      · apply (hroutes "e" none).mpr
        decide
      · intro hok
        exact absurd ((hroutes "x" none).mp hok) (by decide)

/-! ## More backends than a candidate can name -/

theorem holders_replicate {entries : List CatalogEntry} {m : String} (h : Holds entries m)
    (n : Nat) : holders (List.replicate n entries) m = List.range n := by
  rw [holders, List.length_replicate]
  apply List.filter_eq_self.mpr
  intro i hi
  rw [List.getElem?_replicate_of_lt (List.mem_range.mp hi)]
  exact decide_eq_true h

/-- With more than `2 ^ 32` backends for a model a candidate comes up twice. -/
theorem buildRouting_not_nodup {entries : List CatalogEntry} {m : String}
    (h : Holds entries m) {n : Nat} (hn : 2 ^ 32 < n) (previous : Option RoutingMap)
    (fresh : RotationId) :
    ¬ (candidatesOf (buildRouting (List.replicate n entries) previous fresh).1 m).Nodup := by
  have hchain : ((List.range n).map (· % 2 ^ 32)).IsChain (· ≠ ·) := by
    rw [List.isChain_map, List.isChain_range]
    intro i _
    omega
  rw [(buildRouting_candidates _ previous fresh).2 m, holders_replicate h,
    foldl_pushNew_of_isChain hchain]
  intro hnodup
  have hzero : (0 : Nat) ∈ List.range n := List.mem_range.mpr (by omega)
  have hlast : 2 ^ 32 ∈ List.range n := List.mem_range.mpr hn
  have heq := List.inj_on_of_nodup_map hnodup hzero hlast (by decide)
  exact absurd heq (by decide)

theorem new_crowded (n : Nat) (backend : Backend) (models : List String) :
    ∃ registry, new (List.replicate (n + 1) backend) (List.replicate (n + 1) models) .catalog =
        some registry ∧
      registry.catalog.routing = (buildRouting (List.replicate (n + 1)
        (backendEntries backend (staticListing backend models))) none 0).1 := by
  have hassert : List.replicate (n + 1) backend ≠ [] ∧
      (List.replicate (n + 1) backend).length = (List.replicate (n + 1) models).length ∧
      (RoutingMode.catalog ≠ .flatPassthrough ∨ (List.replicate (n + 1) backend).length = 1) := by
    refine ⟨List.cons_ne_nil _ _, ?_, Or.inl (by decide)⟩
    rw [List.length_replicate, List.length_replicate]
  refine ⟨_, if_pos hassert, ?_⟩
  show (buildRouting (List.zipWith _ (List.replicate (n + 1) backend) _) none 0).1 = _
  rw [List.zipWith_replicate, Nat.min_self]

/-- A registry with `2 ^ 32 + 1` backends for one model repeats a candidate. -/
theorem crowded_candidates_repeat :
    ∃ registry, new (List.replicate (2 ^ 32 + 1) ⟨.llamaCpp, [], none⟩)
        (List.replicate (2 ^ 32 + 1) ["m"]) .catalog = some registry ∧
      ∃ e, registry.catalog.routing "m" = some e ∧ ¬ e.candidates.Nodup := by
  rcases new_crowded (2 ^ 32) ⟨.llamaCpp, [], none⟩ ["m"] with ⟨registry, hnew, hrouting⟩
  refine ⟨registry, hnew, ?_⟩
  have hholds : Holds (backendEntries ⟨.llamaCpp, [], none⟩
      (staticListing ⟨.llamaCpp, [], none⟩ ["m"])) "m" := by decide
  have hrepeat := buildRouting_not_nodup hholds (Nat.lt_succ_self (2 ^ 32)) none 0
  rw [← hrouting] at hrepeat
  cases he : registry.catalog.routing "m" with
  | none =>
      rw [candidatesOf, he] at hrepeat
      exact absurd List.nodup_nil hrepeat
  | some e =>
      rw [candidatesOf, he] at hrepeat
      exact ⟨e, rfl, hrepeat⟩

end BackendRegistry

end TokenWeasel.Backends
