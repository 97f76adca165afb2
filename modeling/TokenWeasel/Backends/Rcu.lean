import TokenWeasel.Backends.Registry
import TokenWeasel.Library.Rcu

/-!
# Catalog updates by concurrent threads (`twl-backends/src/lib.rs`)

`set_backend_models` replaces the catalog by `ArcSwap::rcu`, and `route_candidates` works on the
catalog it loaded, which may have been replaced since.  A snapshot keeps its `Arc` alive, so no
address is used again while it can still be compared, and an `Arc` is named by when it was made.
-/

namespace TokenWeasel.Backends

open Library

/-- A `route_candidates` call that has loaded the catalog. -/
structure Reader where
  catalog : Catalog
  model : Option String
  prefixHash : Option (BitVec 64)
  finished : Bool

/-- A registry and the threads that use it.  `base` has everything but the catalog, and
`fetchAdds`, kept for the proofs, the model and the counter of each `fetch_add`. -/
structure World where
  base : BackendRegistry
  cell : Rcu.Cell Catalog (Nat × List CatalogEntry) RotationId
  readers : List Reader
  fetchAdds : List (String × RotationId)

inductive Event where
  | setBackendModels (idx : Nat) (listing : List ModelEntry)
  | load (k : Nat)
  | compute (k : Nat)
  | swap (k : Nat)
  | routeCandidates (model : Option String) (prefixHash : Option (BitVec 64))
  | place (r : Nat)

/-- The closure that `set_backend_models` gives to `rcu`. -/
def rcuClosure (update : Nat × List CatalogEntry) (catalog : Catalog) (fresh : RotationId) :
    Catalog × RotationId :=
  BackendRegistry.updateCatalog catalog update.1 update.2 fresh

/-- The counter a `route_candidates` call advances. -/
def advancedCounter (registry : BackendRegistry) (model : Option String)
    (prefixHash : Option (BitVec 64)) : Option (String × RotationId) :=
  model.bind fun name ↦ (registry.catalog.routing name).bind fun entry ↦
    if entry.candidates.length ≠ 1 ∧ prefixHash = none ∧ registry.strategy = .roundRobin then
      some (name, entry.rotation)
    else none

namespace World

def initial (registry : BackendRegistry) : World where
  base := registry
  cell := Rcu.Cell.make registry.catalog registry.nextRotation
  readers := []
  fetchAdds := []

/-- The registry as a thread that loaded `catalog` sees it. -/
def seen (world : World) (catalog : Catalog) : BackendRegistry :=
  { world.base with catalog := catalog, nextRotation := world.cell.allocator }

def registry (world : World) : BackendRegistry := world.seen world.cell.current.value

def rcu (world : World) (event : Rcu.Event (Nat × List CatalogEntry)) : World :=
  { world with cell := world.cell.step rcuClosure event }

/-- The rest of a `route_candidates` call. -/
def place (world : World) (r : Nat) (reader : Reader) : World :=
  let seen := world.seen reader.catalog
  let result := seen.routeCandidates reader.model reader.prefixHash
  { world with
    base := { world.base with rotations := result.2.rotations }
    readers := world.readers.set r { reader with finished := true }
    fetchAdds := world.fetchAdds ++ (advancedCounter seen reader.model reader.prefixHash).toList }

def step (world : World) : Event → World
  | .setBackendModels idx listing =>
    match world.base.backends[idx]? with
    | some backend => world.rcu (.call (idx, backendEntries backend listing))
    | none => world
  | .load k => world.rcu (.load k)
  | .compute k => world.rcu (.compute k)
  | .swap k => world.rcu (.swap k)
  | .routeCandidates model prefixHash =>
    { world with
      readers := world.readers ++ [{
        catalog := world.cell.current.value
        model := model
        prefixHash := prefixHash
        finished := false }] }
  | .place r =>
    match world.readers[r]? with
    | some reader => if reader.finished then world else world.place r reader
    | none => world

end World

/-! ## Counters and placement -/

theorem routeCandidates_rotations (registry : BackendRegistry) (model : Option String)
    (prefixHash : Option (BitVec 64)) :
    (registry.routeCandidates model prefixHash).2.rotations =
      match advancedCounter registry model prefixHash with
      | some (_, id) =>
        Function.update registry.rotations id ((registry.rotations id + 1) % 2 ^ 32)
      | none => registry.rotations := by
  unfold BackendRegistry.routeCandidates
  cases model with
  | none => rfl
  | some name =>
      cases hentry : registry.catalog.routing name with
      | none =>
          have hnone : advancedCounter registry (some name) prefixHash = none := by
            simp only [advancedCounter, Option.bind_some, hentry, Option.bind_none]
          rw [hnone]
          simp only [hentry]
          split <;> rfl
      | some entry =>
          simp only [advancedCounter, Option.bind_some, hentry]
          split
          · -- a single candidate is not placed
            rename_i candidate hone
            rw [if_neg (by rw [hone]; simp)]
          · rename_i hmany
            have hlength : entry.candidates.length ≠ 1 := by
              intro hone
              rcases List.length_eq_one_iff.mp hone with ⟨candidate, heq⟩
              exact hmany candidate heq
            cases prefixHash with
            | some h =>
                -- placement by prefix leaves the counter as it is
                rw [if_neg (by simp)]
                show Function.update registry.rotations entry.rotation _ = registry.rotations
                exact Function.update_eq_self _ _
            | none =>
                cases hstrategy : registry.strategy with
                | leastLoaded =>
                    rw [if_neg (by simp)]
                    show Function.update registry.rotations entry.rotation _ = registry.rotations
                    exact Function.update_eq_self _ _
                | roundRobin =>
                    rw [if_pos ⟨hlength, rfl, rfl⟩]
                    rfl

theorem advancedCounter_routed {registry : BackendRegistry} {model : Option String}
    {prefixHash : Option (BitVec 64)} {name : String} {id : RotationId}
    (h : advancedCounter registry model prefixHash = some (name, id)) :
    ∃ e, registry.catalog.routing name = some e ∧ e.rotation = id := by
  rcases Option.bind_eq_some_iff.mp h with ⟨requested, -, hrouted⟩
  rcases Option.bind_eq_some_iff.mp hrouted with ⟨entry, hentry, hadvanced⟩
  split at hadvanced
  · cases hadvanced
    exact ⟨entry, hentry, rfl⟩
  · exact absurd hadvanced (by simp)

/-! ## The cell of a world -/

namespace World

theorem step_cell (world : World) (event : Event) :
    (world.step event).cell = world.cell ∨
      ∃ e, (world.step event).cell = world.cell.step rcuClosure e := by
  cases event with
  | setBackendModels idx listing =>
      simp only [step]
      split
      · rename_i backend _
        exact Or.inr ⟨.call (idx, backendEntries backend listing), rfl⟩
      · exact Or.inl rfl
  | load k => exact Or.inr ⟨.load k, rfl⟩
  | compute k => exact Or.inr ⟨.compute k, rfl⟩
  | swap k => exact Or.inr ⟨.swap k, rfl⟩
  | routeCandidates model prefixHash => exact Or.inl rfl
  | place r =>
      simp only [step]
      split
      · split
        · exact Or.inl rfl
        · exact Or.inl rfl
      · exact Or.inl rfl

/-- The cell runs as it would without the readers. -/
theorem run_cell (registry : BackendRegistry) (events : List Event) :
    ∃ es, (run step (initial registry) events).cell =
      run (Rcu.Cell.step rcuClosure) (Rcu.Cell.make registry.catalog registry.nextRotation) es := by
  induction events using List.reverseRecOn with
  | nil => exact ⟨[], rfl⟩
  | append_singleton events event ih =>
      rcases ih with ⟨es, hes⟩
      rw [run_concat]
      rcases step_cell (run step (initial registry) events) event with hsame | ⟨e, hnext⟩
      · exact ⟨es, hsame.trans hes⟩
      · refine ⟨es ++ [e], ?_⟩
        rw [hnext, hes, run_concat]

end World

/-- A call that nothing disturbs does what `BackendRegistry.setBackendModels` does. -/
theorem World.undisturbed_call (world : World) (idx : Nat) (listing : List ModelEntry) :
    let k := world.cell.callers.length
    (run World.step world
      [.setBackendModels idx listing, .load k, .compute k, .swap k]).registry =
        world.registry.update (idx, listing) := by
  intro k
  cases hbackend : world.base.backends[idx]? with
  | none =>
      have hcaller : world.cell.callers[k]? = none := List.getElem?_eq_none (Nat.le_refl _)
      have hupdate : world.registry.update (idx, listing) = world.registry := by
        show (Option.map _ world.base.backends[idx]?).getD world.registry = world.registry
        rw [hbackend]
        rfl
      rw [hupdate]
      simp only [run_cons, run_nil, World.step, hbackend, World.rcu, Rcu.Cell.step, hcaller]
  | some backend =>
      have hcell := Rcu.Cell.run_undisturbed rcuClosure world.cell
        (idx, backendEntries backend listing)
      have hvalue := congrArg Prod.fst hcell
      have hallocator := congrArg Prod.snd hcell
      have hupdate : world.registry.update (idx, listing) =
          { world.base with
            catalog := (rcuClosure (idx, backendEntries backend listing)
              world.cell.current.value world.cell.allocator).1
            nextRotation := (rcuClosure (idx, backendEntries backend listing)
              world.cell.current.value world.cell.allocator).2 } := by
        show (Option.map _ world.base.backends[idx]?).getD world.registry = _
        rw [hbackend]
        rfl
      rw [hupdate, ← hvalue, ← hallocator]
      simp only [run_cons, run_nil, World.step, hbackend]
      rfl

/-! ## Entries and candidates -/

abbrev CatalogCommit := Rcu.Commit Catalog (Nat × List CatalogEntry)

/-- The entries a backend was last given. -/
def lastUpdate (commits : List CatalogCommit) (i : Nat) : Option (List CatalogEntry) :=
  (commits.filter (·.update.1 = i)).getLast?.map (·.update.2)

theorem lastUpdate_concat (commits : List CatalogCommit) (c : CatalogCommit) (i : Nat) :
    lastUpdate (commits ++ [c]) i =
      if c.update.1 = i then some c.update.2 else lastUpdate commits i := by
  rw [lastUpdate, List.filter_append]
  by_cases h : c.update.1 = i
  · rw [if_pos h, List.filter_cons_of_pos (by simpa using h), List.filter_nil,
      List.getLast?_concat]
    rfl
  · rw [if_neg h, List.filter_cons_of_neg (by simpa using h), List.filter_nil, List.append_nil]
    rfl

/-- Updates in the order of their commits leave each backend with its last one. -/
theorem foldl_set_commits (entries : List (List CatalogEntry)) (commits : List CatalogCommit) :
    (commits.foldl (fun es c ↦ es.set c.update.1 c.update.2) entries).length = entries.length ∧
      ∀ i < entries.length,
        (commits.foldl (fun es c ↦ es.set c.update.1 c.update.2) entries)[i]? =
          (lastUpdate commits i).or entries[i]? := by
  induction commits using List.reverseRecOn with
  | nil => exact ⟨rfl, fun i _ ↦ rfl⟩
  | append_singleton commits c ih =>
      rw [List.foldl_concat]
      constructor
      · rw [List.length_set]
        exact ih.1
      · intro i hi
        rw [lastUpdate_concat]
        by_cases h : c.update.1 = i
        · subst h
          rw [if_pos rfl, List.getElem?_set_self (by rw [ih.1]; exact hi)]
          rfl
        · rw [if_neg h, List.getElem?_set_ne h]
          exact ih.2 i hi

theorem Populated.candidates_eq {a b : RoutingMap} (ha : Populated a) (hb : Populated b)
    {m : String} (h : candidatesOf a m = candidatesOf b m) :
    (a m).map RoutingEntry.candidates = (b m).map RoutingEntry.candidates := by
  unfold candidatesOf at h
  cases hma : a m with
  | none =>
      cases hmb : b m with
      | none => rfl
      | some e =>
          rw [hma, hmb] at h
          exact absurd h.symm (hb m e hmb)
  | some e =>
      cases hmb : b m with
      | none =>
          rw [hma, hmb] at h
          exact absurd h (ha m e hma)
      | some e' =>
          rw [hma, hmb] at h
          exact congrArg some h

/-- The candidates in a routing map are decided by the entries alone. -/
theorem buildRouting_candidates_congr (entries : List (List CatalogEntry))
    (previous previous' : Option RoutingMap) (fresh fresh' : RotationId) (m : String) :
    ((buildRouting entries previous fresh).1 m).map RoutingEntry.candidates =
      ((buildRouting entries previous' fresh').1 m).map RoutingEntry.candidates := by
  have hleft := buildRouting_candidates entries previous fresh
  have hright := buildRouting_candidates entries previous' fresh'
  apply hleft.1.candidates_eq hright.1
  rw [hleft.2, hright.2]

/-- The routing map of a catalog is one that `build_routing` makes of its entries. -/
def Catalog.Built (catalog : Catalog) : Prop :=
  ∃ previous fresh, catalog.routing = (buildRouting catalog.entries previous fresh).1

theorem Catalog.Built.candidates_eq {catalog : Catalog} (h : catalog.Built) (m : String) :
    (catalog.routing m).map RoutingEntry.candidates =
      ((buildRouting catalog.entries none 0).1 m).map RoutingEntry.candidates := by
  rcases h with ⟨previous, fresh, hrouting⟩
  rw [hrouting]
  exact buildRouting_candidates_congr catalog.entries previous none fresh 0 m

theorem updateCatalog_built (catalog : Catalog) (idx : Nat) (newEntries : List CatalogEntry)
    (fresh : RotationId) :
    (BackendRegistry.updateCatalog catalog idx newEntries fresh).1.Built :=
  ⟨some catalog.routing, fresh, rfl⟩

/-! ## Counters of catalogs -/

/-- A model that stays keeps its counter. -/
theorem updateCatalog_rotation {catalog : Catalog} {idx : Nat} {newEntries : List CatalogEntry}
    {fresh : RotationId} {m : String} {old e : RoutingEntry} (hold : catalog.routing m = some old)
    (he : (BackendRegistry.updateCatalog catalog idx newEntries fresh).1.routing m = some e) :
    e.rotation = old.rotation :=
  (buildRouting_rotations _ (some catalog.routing) fresh).kept m e old he hold

/-- Counters of all catalogs made so far are below `fresh`, and none serves two models. -/
def OneModelEach (heap : List Catalog) (fresh : RotationId) : Prop :=
  (∀ c ∈ heap, ∀ m e, c.routing m = some e → e.rotation < fresh) ∧
  ∀ c₁ ∈ heap, ∀ c₂ ∈ heap, ∀ m₁ m₂ e₁ e₂, c₁.routing m₁ = some e₁ → c₂.routing m₂ = some e₂ →
    e₁.rotation = e₂.rotation → m₁ = m₂

/-- A counter of the updated catalog is an old counter of the same model or a new one. -/
theorem updateCatalog_counter {catalog : Catalog} {idx : Nat} {newEntries : List CatalogEntry}
    {fresh : RotationId} {m : String} {e : RoutingEntry}
    (he : (BackendRegistry.updateCatalog catalog idx newEntries fresh).1.routing m = some e) :
    (∃ old, catalog.routing m = some old ∧ e.rotation = old.rotation) ∨
      (catalog.routing m = none ∧ fresh ≤ e.rotation ∧
        e.rotation < (BackendRegistry.updateCatalog catalog idx newEntries fresh).2) := by
  have hrotations := buildRouting_rotations (catalog.entries.set idx newEntries)
    (some catalog.routing) fresh
  cases hold : catalog.routing m with
  | none => exact Or.inr ⟨rfl, hrotations.new m e he hold⟩
  | some old => exact Or.inl ⟨old, rfl, updateCatalog_rotation hold he⟩

theorem OneModelEach.update {heap : List Catalog} {fresh : RotationId} {catalog : Catalog}
    (h : OneModelEach heap fresh) (hcatalog : catalog ∈ heap) (idx : Nat)
    (newEntries : List CatalogEntry) :
    OneModelEach (heap ++ [(BackendRegistry.updateCatalog catalog idx newEntries fresh).1])
      (BackendRegistry.updateCatalog catalog idx newEntries fresh).2 := by
  let next := BackendRegistry.updateCatalog catalog idx newEntries fresh
  have hrotations : RotationsFrom (some catalog.routing) fresh (next.1.routing, next.2) :=
    buildRouting_rotations _ (some catalog.routing) fresh
  have hle : fresh ≤ next.2 := hrotations.fresh_le
  -- an old catalog and the new one
  have hmixed : ∀ c ∈ heap, ∀ m m' e e', c.routing m = some e → next.1.routing m' = some e' →
      e.rotation = e'.rotation → m = m' := by
    intro c hc m m' e e' he he' heq
    rcases updateCatalog_counter he' with ⟨old, hold, hsame⟩ | ⟨-, hnew, -⟩
    · exact h.2 c hc catalog hcatalog m m' e old he hold (heq.trans hsame)
    · have hlt : e'.rotation < fresh := heq ▸ h.1 c hc m e he
      exact absurd hlt (Nat.not_lt_of_le hnew)
  constructor
  · intro c hc m e he
    show e.rotation < next.2
    cases List.mem_append.mp hc with
    | inl hold => exact Nat.lt_of_lt_of_le (h.1 c hold m e he) hle
    | inr heq =>
        rw [List.mem_singleton.mp heq] at he
        rcases updateCatalog_counter he with ⟨old, hold, hsame⟩ | ⟨-, -, hlt⟩
        · rw [hsame]
          exact Nat.lt_of_lt_of_le (h.1 catalog hcatalog m old hold) hle
        · exact hlt
  · intro c₁ hc₁ c₂ hc₂ m₁ m₂ e₁ e₂ he₁ he₂ heq
    cases List.mem_append.mp hc₁ with
    | inl hold₁ =>
        cases List.mem_append.mp hc₂ with
        | inl hold₂ => exact h.2 c₁ hold₁ c₂ hold₂ m₁ m₂ e₁ e₂ he₁ he₂ heq
        | inr hnew₂ =>
            rw [List.mem_singleton.mp hnew₂] at he₂
            exact hmixed c₁ hold₁ m₁ m₂ e₁ e₂ he₁ he₂ heq
    | inr hnew₁ =>
        rw [List.mem_singleton.mp hnew₁] at he₁
        cases List.mem_append.mp hc₂ with
        | inl hold₂ => exact (hmixed c₂ hold₂ m₂ m₁ e₂ e₁ he₂ he₁ heq.symm).symm
        | inr hnew₂ =>
            rw [List.mem_singleton.mp hnew₂] at he₂
            rcases updateCatalog_counter he₁ with ⟨old, hold, hsame⟩ | ⟨hnone₁, hnew, -⟩
            · exact hmixed catalog hcatalog m₁ m₂ old e₂ hold he₂ (hsame.symm.trans heq)
            · rcases updateCatalog_counter he₂ with ⟨old, hold, hsame⟩ | ⟨hnone₂, -, -⟩
              · exact (hmixed catalog hcatalog m₂ m₁ old e₁ hold he₁
                  (hsame.symm.trans heq.symm)).symm
              · exact hrotations.distinct m₁ m₂ e₁ e₂ he₁ he₂ hnone₁ hnone₂ heq

/-- If every commit has the model, all catalogs that have it share the counter of the latest. -/
def SharedCounter (init : Catalog) (m : String) (commits : List CatalogCommit) : Prop :=
  (∀ c ∈ commits, (c.value.routing m).isSome = true) →
  ∀ e, (Rcu.latest init commits).routing m = some e →
  ∀ c ∈ Rcu.published init commits, ∀ e', c.routing m = some e' → e'.rotation = e.rotation

theorem SharedCounter.concat {init : Catalog} {m : String} {commits : List CatalogCommit}
    (h : SharedCounter init m commits) (k : Nat) (update : Nat × List CatalogEntry)
    (fresh : RotationId) :
    SharedCounter init m
      (commits ++ [⟨k, update, (rcuClosure update (Rcu.latest init commits) fresh).1⟩]) := by
  intro hpresent e he c hc e' he'
  rw [Rcu.latest_concat] at he
  have hpublished : c ∈ Rcu.published init commits ∨
      c = (rcuClosure update (Rcu.latest init commits) fresh).1 := by
    rw [Rcu.published, List.map_append, ← List.cons_append] at hc
    exact (List.mem_append.mp hc).imp id List.mem_singleton.mp
  cases hpublished with
  | inr hnew =>
      rw [hnew, he] at he'
      rw [Option.some.inj he']
  | inl hold =>
      cases hlatest : (Rcu.latest init commits).routing m with
      | some previous =>
          rw [updateCatalog_rotation hlatest he]
          have hbefore : ∀ c ∈ commits, (c.value.routing m).isSome = true :=
            fun c hc ↦ hpresent c (List.mem_append_left _ hc)
          exact h hbefore previous hlatest c hold e' he'
      | none =>
          -- only the initial catalog can lack the model
          rcases List.eq_nil_or_concat' commits with rfl | ⟨front, last, rfl⟩
          · rw [List.mem_singleton.mp hold] at he'
            exact absurd (hlatest.symm.trans he') (by simp)
          · have hsome := hpresent last
              (List.mem_append_left _ (List.mem_append_right _ List.mem_cons_self))
            rw [Rcu.latest_concat] at hlatest
            rw [hlatest] at hsome
            exact absurd hsome (by simp)

/-! ## Readers -/

/-- What readers have seen and done: each works on a catalog that was published, and a counter has
the number of its `fetch_add`s. -/
structure Tracked (init : Catalog) (world : World) : Prop where
  sound : Rcu.Sound rcuClosure init world.cell
  readers : ∀ reader ∈ world.readers, reader.catalog ∈ Rcu.published init world.cell.commits
  advanced : ∀ a ∈ world.fetchAdds, ∃ c ∈ Rcu.published init world.cell.commits,
    ∃ e, c.routing a.1 = some e ∧ e.rotation = a.2
  counted : ∀ id, world.base.rotations id = (world.fetchAdds.map Prod.snd).count id % 2 ^ 32

theorem Tracked.rcu {init : Catalog} {world : World} (h : Tracked init world)
    (event : Rcu.Event (Nat × List CatalogEntry)) : Tracked init (world.rcu event) := by
  have htransition := world.cell.step_transition rcuClosure event
  have hgrows : Rcu.published init world.cell.commits ⊆
      Rcu.published init (world.cell.step rcuClosure event).commits :=
    Rcu.published_transition htransition
  refine ⟨h.sound.transition htransition, ?_, ?_, h.counted⟩
  · exact fun reader hreader ↦ hgrows (h.readers reader hreader)
  · intro a ha
    rcases h.advanced a ha with ⟨c, hc, hrouted⟩
    exact ⟨c, hgrows hc, hrouted⟩

theorem Tracked.place {init : Catalog} {world : World} (h : Tracked init world) {r : Nat}
    {reader : Reader} (hreader : reader ∈ world.readers) :
    Tracked init (world.place r reader) := by
  have hseen := h.readers reader hreader
  refine ⟨h.sound, ?_, ?_, ?_⟩
  · intro other hother
    cases List.mem_or_eq_of_mem_set hother with
    | inl hold => exact h.readers other hold
    | inr heq =>
        rw [heq]
        exact hseen
  · intro a ha
    cases List.mem_append.mp ha with
    | inl hold => exact h.advanced a hold
    | inr hnew =>
        have hcounter := Option.mem_toList.mp hnew
        exact ⟨reader.catalog, hseen, advancedCounter_routed hcounter⟩
  · intro id
    show ((world.seen reader.catalog).routeCandidates _ _).2.rotations id =
      ((world.fetchAdds ++ (advancedCounter _ _ _).toList).map Prod.snd).count id % 2 ^ 32
    rw [routeCandidates_rotations]
    cases advancedCounter (world.seen reader.catalog) reader.model reader.prefixHash with
    | none =>
        rw [Option.toList_none, List.append_nil]
        exact h.counted id
    | some counter =>
        have hcount := h.counted id
        rw [Option.toList_some, List.map_append, List.count_append, List.map_singleton]
        show Function.update world.base.rotations counter.2 _ id = _
        by_cases heq : id = counter.2
        · rw [heq, Function.update_self, List.count_singleton_self]
          show (world.base.rotations counter.2 + 1) % 2 ^ 32 = _
          rw [← heq, hcount, Nat.mod_add_mod]
        · rw [Function.update_of_ne heq, List.count_singleton, if_neg (by simpa using Ne.symm heq)]
          exact hcount

theorem Tracked.step {init : Catalog} {world : World} (h : Tracked init world) (event : Event) :
    Tracked init (world.step event) := by
  cases event with
  | setBackendModels idx listing =>
      simp only [World.step]
      split
      · exact h.rcu _
      · exact h
  | load k => exact h.rcu (.load k)
  | compute k => exact h.rcu (.compute k)
  | swap k => exact h.rcu (.swap k)
  | routeCandidates model prefixHash =>
      refine ⟨h.sound, ?_, h.advanced, h.counted⟩
      intro reader hreader
      cases List.mem_append.mp hreader with
      | inl hold => exact h.readers reader hold
      | inr hnew =>
          rw [List.mem_singleton.mp hnew]
          show world.cell.current.value ∈ Rcu.published init world.cell.commits
          rw [h.sound.current_latest]
          exact Rcu.latest_mem_published init world.cell.commits
  | place r =>
      simp only [World.step]
      split
      · rename_i reader hreader
        split
        · exact h
        · exact h.place (List.mem_of_getElem? hreader)
      · exact h

/-- If all `fetch_add`s of a model, and no others, are on one counter, it counts them. -/
theorem Tracked.rotations_eq {init : Catalog} {world : World} (h : Tracked init world) {m : String}
    {id : RotationId} (hsame : ∀ a ∈ world.fetchAdds, a.1 = m ↔ a.2 = id) :
    world.base.rotations id = (world.fetchAdds.map Prod.fst).count m % 2 ^ 32 := by
  have hcount : (world.fetchAdds.map Prod.snd).count id =
      (world.fetchAdds.map Prod.fst).count m := by
    rw [List.count_eq_countP, List.count_eq_countP, List.countP_map, List.countP_map]
    apply List.countP_congr
    intro a ha
    simpa using (hsame a ha).symm
  rw [h.counted id, hcount]

/-! ## Whole runs -/

section Runs

variable {backends : List Backend} {staticModels : List (List String)} {routingMode : RoutingMode}
  {registry : BackendRegistry}

theorem new_counters
    (hnew : BackendRegistry.new backends staticModels routingMode = some registry) :
    (registry.catalog.routing, registry.nextRotation) =
        buildRouting registry.catalog.entries none 0 ∧
      registry.rotations = fun _ ↦ 0 := by
  unfold BackendRegistry.new at hnew
  split at hnew
  · have heq := Option.some.inj hnew
    subst heq
    exact ⟨rfl, rfl⟩
  · exact absurd hnew (by simp)

theorem oneModelEach_new
    (hnew : BackendRegistry.new backends staticModels routingMode = some registry) :
    OneModelEach [registry.catalog] registry.nextRotation := by
  have hrotations := buildRouting_rotations registry.catalog.entries none 0
  rw [← (new_counters hnew).1] at hrotations
  constructor
  · intro c hc m e he
    rw [List.mem_singleton.mp hc] at he
    exact (hrotations.new m e he rfl).2
  · intro c₁ hc₁ c₂ hc₂ m₁ m₂ e₁ e₂ he₁ he₂ heq
    rw [List.mem_singleton.mp hc₁] at he₁
    rw [List.mem_singleton.mp hc₂] at he₂
    exact hrotations.distinct m₁ m₂ e₁ e₂ he₁ he₂ rfl rfl heq

theorem tracked_run (hnew : BackendRegistry.new backends staticModels routingMode = some registry)
    (strategy : LbStrategy) (overloadFactor : Rat) (events : List Event) :
    Tracked registry.catalog
      (run World.step (World.initial (registry.withLoadBalancing strategy overloadFactor))
        events) := by
  refine run_invariant ⟨Rcu.sound_make rcuClosure _ _, ?_, ?_, ?_⟩ (fun _ event h ↦ h.step event)
    events
  · exact fun reader hreader ↦ absurd hreader List.not_mem_nil
  · exact fun a ha ↦ absurd ha List.not_mem_nil
  · intro id
    show registry.rotations id = 0
    rw [(new_counters hnew).2]

variable (registry) in
/-- What the library says of the cell, at the catalog: updates are atomic, every catalog is built
from its entries, and a model that stays has one counter. -/
theorem cell_run (events : List Event) :
    let cell := (run World.step (World.initial registry) events).cell
    Rcu.CommittedOnce cell ∧
    (Rcu.latest registry.catalog cell.commits).entries =
      cell.commits.foldl (fun es c ↦ es.set c.update.1 c.update.2) registry.catalog.entries ∧
    (registry.catalog.Built → (Rcu.latest registry.catalog cell.commits).Built) ∧
    (∀ m, SharedCounter registry.catalog m cell.commits) ∧
    (OneModelEach [registry.catalog] registry.nextRotation →
      OneModelEach cell.heap cell.allocator) := by
  rcases World.run_cell registry events with ⟨es, hes⟩
  intro cell
  have hcell : cell = run (Rcu.Cell.step rcuClosure)
    (Rcu.Cell.make registry.catalog registry.nextRotation) es := hes
  rw [hcell]
  refine ⟨Rcu.committedOnce_run rcuClosure _ _ es, ?_, ?_, ?_, ?_⟩
  · exact Rcu.linearizable (f := rcuClosure) Catalog.entries
      (fun update entries ↦ entries.set update.1 update.2) (fun _ _ _ ↦ rfl) _ es
  · intro hbuilt
    refine Rcu.commits_induction
      (P := fun commits ↦ (Rcu.latest registry.catalog commits).Built) hbuilt ?_ _ es
    intro commits k update fresh _
    rw [Rcu.latest_concat]
    exact updateCatalog_built _ update.1 update.2 fresh
  · intro m
    refine Rcu.commits_induction (P := SharedCounter registry.catalog m) ?_ ?_ _ es
    · intro _ e he c hc e' he'
      rw [List.mem_singleton.mp hc] at he'
      rw [Option.some.inj (he'.symm.trans he)]
    · exact fun commits k update fresh h ↦ h.concat k update fresh
  · intro hinit
    refine Rcu.heap_induction (P := OneModelEach) hinit ?_ es
    exact fun heap fresh update catalog hcatalog h ↦ h.update hcatalog update.1 update.2

/-- Updates of two backends commute, but for the counters of new models. -/
theorem updateCatalog_comm (catalog : Catalog) {i j : Nat} (hij : i ≠ j)
    (xs ys : List CatalogEntry) (f₁ f₂ g₁ g₂ : RotationId) :
    let ij := (BackendRegistry.updateCatalog
      (BackendRegistry.updateCatalog catalog i xs f₁).1 j ys f₂).1
    let ji := (BackendRegistry.updateCatalog
      (BackendRegistry.updateCatalog catalog j ys g₁).1 i xs g₂).1
    ij.entries = ji.entries ∧ ∀ m, (ij.routing m).map RoutingEntry.candidates =
      (ji.routing m).map RoutingEntry.candidates := by
  intro ij ji
  have hentries : ij.entries = ji.entries := List.set_comm xs ys hij
  refine ⟨hentries, fun m ↦ ?_⟩
  have hleft : ij.Built := updateCatalog_built _ j ys f₂
  have hright : ji.Built := updateCatalog_built _ i xs g₂
  rw [hleft.candidates_eq, hright.candidates_eq, hentries]

/-- Entries and candidates are decided by the last updates. -/
theorem catalog_run
    (hnew : BackendRegistry.new backends staticModels routingMode = some registry)
    (strategy : LbStrategy) (overloadFactor : Rat) (events : List Event) :
    let world := run World.step
      (World.initial (registry.withLoadBalancing strategy overloadFactor)) events
    world.registry.catalog.entries.length = backends.length ∧
      (∀ i < backends.length, world.registry.catalog.entries[i]? =
        (lastUpdate world.cell.commits i).or registry.catalog.entries[i]?) ∧
      world.registry.catalog.Built := by
  intro world
  have hcell := cell_run (registry.withLoadBalancing strategy overloadFactor) events
  have hbuilt : registry.catalog.Built :=
    ⟨none, 0, congrArg Prod.fst (new_counters hnew).1⟩
  have hlength : registry.catalog.entries.length = backends.length :=
    (BackendRegistry.represents_new hnew).1.entries_length
  have hcurrent : world.registry.catalog = Rcu.latest registry.catalog world.cell.commits :=
    (tracked_run hnew strategy overloadFactor events).sound.current_latest
  have hset := foldl_set_commits registry.catalog.entries world.cell.commits
  have hfold : world.registry.catalog.entries = world.cell.commits.foldl
      (fun es c ↦ es.set c.update.1 c.update.2) registry.catalog.entries := by
    rw [hcurrent]
    exact hcell.2.1
  rw [hfold]
  refine ⟨hset.1.trans hlength, fun i hi ↦ hset.2 i (by rw [hlength]; exact hi), ?_⟩
  rw [hcurrent]
  exact hcell.2.2.1 hbuilt

/-- A model in every committed catalog has one counter, and all its `fetch_add`s went there. -/
theorem counter_run
    (hnew : BackendRegistry.new backends staticModels routingMode = some registry)
    (strategy : LbStrategy) (overloadFactor : Rat) (events : List Event) {m : String}
    {e : RoutingEntry} :
    let world := run World.step
      (World.initial (registry.withLoadBalancing strategy overloadFactor)) events
    (∀ c ∈ world.cell.commits, (c.value.routing m).isSome = true) →
    world.registry.catalog.routing m = some e →
    (∀ c ∈ Rcu.published registry.catalog world.cell.commits, ∀ e', c.routing m = some e' →
        e'.rotation = e.rotation) ∧
      world.registry.rotations e.rotation =
        (world.fetchAdds.map Prod.fst).count m % 2 ^ 32 := by
  intro world hpresent he
  have htracked : Tracked registry.catalog world := tracked_run hnew strategy overloadFactor events
  have hcell := cell_run (registry.withLoadBalancing strategy overloadFactor) events
  have hcurrent : world.registry.catalog = Rcu.latest registry.catalog world.cell.commits :=
    htracked.sound.current_latest
  rw [hcurrent] at he
  have hshared := hcell.2.2.2.1 m hpresent e he
  refine ⟨hshared, htracked.rotations_eq fun a ha ↦ ?_⟩
  have hinit : OneModelEach [registry.catalog] registry.nextRotation := oneModelEach_new hnew
  have hunique := (hcell.2.2.2.2 hinit).2
  rcases htracked.advanced a ha with ⟨c, hc, e', he', hid⟩
  constructor
  · intro hm
    rw [← hid]
    exact hshared c hc e' (hm ▸ he')
  · -- no other model has the counter of the latest catalog
    intro heq
    have hlatest := htracked.sound.published_subset
      (Rcu.latest_mem_published registry.catalog world.cell.commits)
    exact hunique c (htracked.sound.published_subset hc) _ hlatest a.1 m e' e he' he
      (hid.trans heq)

/-- No update is lost, in any interleaving of `set_backend_models` and `route_candidates` calls on a
new registry: each call that has returned committed once, each backend has its last committed
entries, the candidates are those of the entries, whatever the order of updates to different
backends was, and a model in every committed catalog has one counter, with all its `fetch_add`s. -/
theorem no_lost_update
    (hnew : BackendRegistry.new backends staticModels routingMode = some registry)
    (strategy : LbStrategy) (overloadFactor : Rat) (events : List Event) :
    let start := World.initial (registry.withLoadBalancing strategy overloadFactor)
    let world := run World.step start events
    let final := world.registry.catalog
    let commits := world.cell.commits
    (∀ k caller, world.cell.callers[k]? = some caller →
      Rcu.commitsOf commits k = if caller.hasReturned then [caller.update] else []) ∧
    final.entries.length = backends.length ∧
    (∀ i < backends.length,
      final.entries[i]? = (lastUpdate commits i).or registry.catalog.entries[i]?) ∧
    (∀ m, (final.routing m).map RoutingEntry.candidates =
      ((buildRouting final.entries none 0).1 m).map RoutingEntry.candidates) ∧
    (∀ others, let world' := run World.step start others
      (∀ i, lastUpdate world'.cell.commits i = lastUpdate commits i) →
      world'.registry.catalog.entries = final.entries ∧
        ∀ m, (world'.registry.catalog.routing m).map RoutingEntry.candidates =
          (final.routing m).map RoutingEntry.candidates) ∧
    (∀ (i j : Nat) xs ys f₁ f₂ g₁ g₂, i ≠ j →
      let ij := (BackendRegistry.updateCatalog
        (BackendRegistry.updateCatalog final i xs f₁).1 j ys f₂).1
      let ji := (BackendRegistry.updateCatalog
        (BackendRegistry.updateCatalog final j ys g₁).1 i xs g₂).1
      ij.entries = ji.entries ∧ ∀ m, (ij.routing m).map RoutingEntry.candidates =
        (ji.routing m).map RoutingEntry.candidates) ∧
    (∀ m, (∀ c ∈ commits, (c.value.routing m).isSome = true) → ∀ e, final.routing m = some e →
      (∀ c ∈ Rcu.published registry.catalog commits, ∀ e', c.routing m = some e' →
        e'.rotation = e.rotation) ∧
      world.registry.rotations e.rotation =
        (world.fetchAdds.map Prod.fst).count m % 2 ^ 32) := by
  intro start world final commits
  have hcell := cell_run (registry.withLoadBalancing strategy overloadFactor) events
  have hthis := catalog_run hnew strategy overloadFactor events
  refine ⟨hcell.1.2, hthis.1, hthis.2.1, hthis.2.2.candidates_eq, ?_, ?_, ?_⟩
  · intro others world' hsame
    have hother := catalog_run hnew strategy overloadFactor others
    have heq : world'.registry.catalog.entries = final.entries := by
      apply List.ext_getElem?
      intro i
      by_cases hi : i < backends.length
      · rw [hother.2.1 i hi, hthis.2.1 i hi, hsame i]
      · rw [List.getElem?_eq_none (by rw [hother.1]; omega),
          List.getElem?_eq_none (by rw [hthis.1]; omega)]
    refine ⟨heq, fun m ↦ ?_⟩
    rw [hother.2.2.candidates_eq, hthis.2.2.candidates_eq, heq]
  · exact fun i j xs ys f₁ f₂ g₁ g₂ hij ↦ updateCatalog_comm final hij xs ys f₁ f₂ g₁ g₂
  · exact fun m hpresent e he ↦ counter_run hnew strategy overloadFactor events hpresent he

end Runs

/-- Two updates race: the second swap finds the catalog of the first and starts again, and a reader
advances the counter through the initial catalog in between. -/
def raceEvents : List Event :=
  [.routeCandidates (some "m") none, .setBackendModels 0 [⟨"m", .null⟩],
    .setBackendModels 1 [⟨"m", .null⟩, ⟨"x", .null⟩], .load 0, .load 1, .compute 0, .compute 1,
    .swap 0, .swap 1, .load 1, .compute 1, .place 0, .swap 1]

theorem no_lost_update_race :
    ∃ registry, BackendRegistry.new BackendRegistry.twoBackends [["m"], ["m"]] .catalog =
        some registry ∧
      let world := run World.step (World.initial (registry.withLoadBalancing .roundRobin 2))
        raceEvents
      (world.registry.catalog.routing "m").isSome = true ∧
        ∀ e, world.registry.catalog.routing "m" = some e →
          world.registry.rotations e.rotation = 1 := by
  cases hnew : BackendRegistry.new BackendRegistry.twoBackends [["m"], ["m"]] .catalog with
  | none => exact absurd hnew (by decide)
  | some registry =>
      refine ⟨registry, rfl, ?_⟩
      have h := no_lost_update hnew .roundRobin 2 raceEvents
      have heq := Option.some.inj hnew
      subst heq
      refine ⟨by decide, fun e he ↦ ?_⟩
      have hshared := h.2.2.2.2.2.2 "m" (by decide) e he
      exact hshared.2.trans (by decide)

end TokenWeasel.Backends
