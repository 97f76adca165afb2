import TokenWeasel.Backends.Affinity
import TokenWeasel.Backends.Rcu
import TokenWeasel.Library.WrappingCounter

/-!
# Rotation through the candidates (`twl-backends/src/lib.rs`)

The requests of a model without a prefix, in the order of their `fetch_add`s, and where each of them
starts among the candidates, while other requests and updates interleave.
-/

namespace TokenWeasel.Backends

open Library

namespace Reader

/-- A request for the model, without a prefix, that has loaded a catalog and not been placed. -/
def Pending (reader : Reader) (m : String) : Prop :=
  reader.finished = false ∧ reader.model = some m ∧ reader.prefixHash = none

instance (reader : Reader) (m : String) : Decidable (reader.Pending m) :=
  inferInstanceAs (Decidable (_ ∧ _))

end Reader

namespace World

/-- The first choice of a request for the model without a prefix, where the event places one. -/
def start? (m : String) (world : World) : Event → Option Nat
  | .place r =>
    match world.readers[r]? with
    | some reader =>
      if reader.Pending m then
        match (world.seen reader.catalog).route (some m) none with
        | .ok first => first
        | .error _ => none
      else none
    | none => none
  | _ => none

def starts (m : String) : World → List Event → List Nat
  | _, [] => []
  | world, event :: events => (world.start? m event).toList ++ starts m (world.step event) events

/-- The model keeps its candidates. -/
def Keeps (m : String) (candidates : List Nat) (world : World) (event : Event) : Prop :=
  ((world.step event).registry.catalog.routing m).map RoutingEntry.candidates = some candidates

instance (m : String) (candidates : List Nat) (world : World) (event : Event) :
    Decidable (Keeps m candidates world event) :=
  inferInstanceAs (Decidable (_ = _))

/-- The model's requests that are under way are on the list and the counter of the catalog. -/
structure Settled (m : String) (e : RoutingEntry) (world : World) : Prop where
  routed : world.registry.catalog.routing m = some e
  readers : ∀ reader ∈ world.readers, reader.Pending m → reader.catalog.routing m = some e

/-- What holds of every world that a new registry with round robin leads to. -/
structure Reached (init : Catalog) (world : World) : Prop where
  tracked : Tracked init world
  oneModelEach : OneModelEach world.cell.heap world.cell.allocator
  strategy : world.base.strategy = .roundRobin

theorem step_strategy (world : World) (event : Event) :
    (world.step event).base.strategy = world.base.strategy := by
  cases event with
  | setBackendModels idx listing =>
      simp only [step]
      split <;> rfl
  | place r =>
      simp only [step]
      split
      · split <;> rfl
      · rfl
  | _ => rfl

theorem reached_run {backends : List Backend} {staticModels : List (List String)}
    {routingMode : RoutingMode} {registry : BackendRegistry}
    (hnew : BackendRegistry.new backends staticModels routingMode = some registry)
    (overloadFactor : Rat) (events : List Event) :
    Reached registry.catalog
      (run step (initial (registry.withLoadBalancing .roundRobin overloadFactor)) events) where
  tracked := tracked_run hnew .roundRobin overloadFactor events
  oneModelEach := by
    have hcell := cell_run (registry.withLoadBalancing .roundRobin overloadFactor) events
    have hinit : OneModelEach [registry.catalog] registry.nextRotation := oneModelEach_new hnew
    exact hcell.2.2.2.2 hinit
  strategy := run_invariant (P := fun world ↦ world.base.strategy = .roundRobin) rfl
    (fun world event h ↦ (step_strategy world event).trans h) events

theorem Reached.counter_lt {init : Catalog} {world : World} (h : Reached init world)
    (id : RotationId) : world.base.rotations id < 2 ^ 32 := by
  rw [h.tracked.counted]
  exact Nat.mod_lt _ (by decide)

/-! ## One step -/

section Step

variable {init : Catalog} {world : World} {m : String} {e : RoutingEntry}

/-- The catalog of a step is the one before it, or an update of it. -/
theorem step_catalog (hreached : Reached init world) (event : Event) :
    (world.step event).registry.catalog = world.registry.catalog ∨
      ∃ idx newEntries fresh, (world.step event).registry.catalog =
        (BackendRegistry.updateCatalog world.registry.catalog idx newEntries fresh).1 := by
  have hsound := hreached.tracked.sound
  rcases step_cell world event with hsame | ⟨rcuEvent, hnext⟩
  · exact Or.inl (congrArg (·.current.value) hsame)
  · have htransition := world.cell.step_transition rcuClosure rcuEvent
    rw [← hnext] at htransition
    generalize hcell : (world.step event).cell = next at htransition
    have hcatalog : (world.step event).registry.catalog = next.current.value := by rw [← hcell]; rfl
    rw [hcatalog]
    cases htransition with
    | commit k update cur new hk hsame =>
        rcases hsound.commit_value hk hsame with ⟨fresh, hvalue⟩
        rw [← hsound.current_latest] at hvalue
        exact Or.inr ⟨update.1, update.2, fresh, hvalue⟩
    | _ => exact Or.inl rfl

/-- A model that keeps its candidates keeps its counter. -/
theorem Settled.routed_step (h : Settled m e world) (hreached : Reached init world) (event : Event)
    (hkeeps : Keeps m e.candidates world event) :
    (world.step event).registry.catalog.routing m = some e := by
  rcases Option.map_eq_some_iff.mp hkeeps with ⟨next, hnext, hcandidates⟩
  rw [hnext]
  rcases step_catalog hreached event with hsame | ⟨idx, newEntries, fresh, hupdate⟩
  · rw [hsame, h.routed] at hnext
    exact hnext.symm
  · rw [hupdate] at hnext
    have hrotation := updateCatalog_rotation h.routed hnext
    cases next
    cases e
    simp only at hcandidates hrotation
    rw [hcandidates, hrotation]

/-- New requests read the current catalog. -/
theorem step_readers (world : World) (event : Event) {reader : Reader}
    (hreader : reader ∈ (world.step event).readers) (hpending : reader.Pending m) :
    reader ∈ world.readers ∨ reader.catalog = world.registry.catalog := by
  cases event with
  | setBackendModels idx listing =>
      simp only [step] at hreader
      split at hreader <;> exact Or.inl hreader
  | routeCandidates model prefixHash =>
      cases List.mem_append.mp hreader with
      | inl hold => exact Or.inl hold
      | inr hnew =>
          rw [List.mem_singleton.mp hnew]
          exact Or.inr rfl
  | place r =>
      simp only [step] at hreader
      split at hreader
      · split at hreader
        · exact Or.inl hreader
        · cases List.mem_or_eq_of_mem_set hreader with
          | inl hold => exact Or.inl hold
          | inr hplaced =>
              -- the placed request is not pending any more
              rw [hplaced] at hpending
              exact absurd hpending.1 (by simp)
      · exact Or.inl hreader
  | _ => exact Or.inl hreader

theorem Settled.step (h : Settled m e world) (hreached : Reached init world) (event : Event)
    (hkeeps : Keeps m e.candidates world event) : Settled m e (world.step event) where
  routed := h.routed_step hreached event hkeeps
  readers reader hreader hpending := by
    cases step_readers world event hreader hpending with
    | inl hold => exact h.readers reader hold hpending
    | inr hnew => rw [hnew]; exact h.routed

theorem advancedCounter_request {registry : BackendRegistry} {model : Option String}
    {prefixHash : Option (BitVec 64)} {name : String} {id : RotationId}
    (h : advancedCounter registry model prefixHash = some (name, id)) :
    model = some name ∧ prefixHash = none := by
  rcases Option.bind_eq_some_iff.mp h with ⟨requested, hmodel, hrouted⟩
  rcases Option.bind_eq_some_iff.mp hrouted with ⟨entry, -, hadvanced⟩
  split at hadvanced
  · rename_i hplaced
    have hname : requested = name := congrArg Prod.fst (Option.some.inj hadvanced)
    rw [hmodel, hname]
    exact ⟨rfl, hplaced.2.1⟩
  · exact absurd hadvanced (by simp)

/-- Round robin starts at the candidate that the counter points to. -/
theorem route_roundRobin {registry : BackendRegistry} (hstrategy : registry.strategy = .roundRobin)
    (he : registry.catalog.routing m = some e) (hn : 2 ≤ e.candidates.length) :
    registry.route (some m) none =
      .ok e.candidates[registry.rotations e.rotation % e.candidates.length]? := by
  unfold BackendRegistry.route BackendRegistry.routeCandidates
  simp only [he]
  split
  · rename_i candidate hone
    rw [hone] at hn
    exact absurd hn (by simp)
  · rw [hstrategy]
    show Except.ok (strategyPlacement .roundRobin registry.inflight _ e.candidates).1.head? = _
    rw [strategyPlacement_roundRobin, ← List.rotate_mod, List.head?_rotate (Nat.mod_lt _ (by omega))]

/-- A pending request of the model advances its counter. -/
theorem advancedCounter_pending {registry : BackendRegistry}
    (hstrategy : registry.strategy = .roundRobin) (he : registry.catalog.routing m = some e)
    (hn : 2 ≤ e.candidates.length) :
    advancedCounter registry (some m) none = some (m, e.rotation) := by
  unfold advancedCounter
  rw [Option.bind_some, he, Option.bind_some, if_pos ⟨by omega, rfl, hstrategy⟩]

/-- No other request does. -/
theorem advancedCounter_ne (hreached : Reached init world) (h : Settled m e world)
    {reader : Reader} (hreader : reader ∈ world.readers) (hfinished : reader.finished = false)
    (hpending : ¬ reader.Pending m) {name : String} {id : RotationId}
    (hcounter : advancedCounter (world.seen reader.catalog) reader.model reader.prefixHash =
      some (name, id)) : id ≠ e.rotation := by
  intro hsame
  have hheap := hreached.tracked.sound.published_subset
  have hcurrent : world.registry.catalog ∈ world.cell.heap :=
    hreached.tracked.sound.current_backed.mem
  have hcatalog : reader.catalog ∈ world.cell.heap := hheap (hreached.tracked.readers reader hreader)
  rcases advancedCounter_routed hcounter with ⟨other, hother, hrotation⟩
  -- one counter serves one model
  have hname : name = m := hreached.oneModelEach.2 reader.catalog hcatalog _ hcurrent name m other e
    hother h.routed (hrotation.trans hsame)
  have hrequest := advancedCounter_request hcounter
  rw [hname] at hrequest
  exact hpending ⟨hfinished, hrequest⟩

/-- A request of the model moves the counter on by one. -/
theorem place_rotations_pending (hreached : Reached init world) (h : Settled m e world)
    (hn : 2 ≤ e.candidates.length) {reader : Reader} (hreader : reader ∈ world.readers)
    (hpending : reader.Pending m) (r : Nat) :
    (world.place r reader).base.rotations e.rotation =
      (world.base.rotations e.rotation + 1) % 2 ^ 32 := by
  have hrouted : (world.seen reader.catalog).catalog.routing m = some e :=
    h.readers reader hreader hpending
  have hstrategy : (world.seen reader.catalog).strategy = .roundRobin := hreached.strategy
  show ((world.seen reader.catalog).routeCandidates reader.model
    reader.prefixHash).2.rotations _ = _
  rw [routeCandidates_rotations, hpending.2.1, hpending.2.2,
    advancedCounter_pending hstrategy hrouted hn]
  exact Function.update_self _ _ _

/-- Every other request leaves it where it is. -/
theorem place_rotations_other (hreached : Reached init world) (h : Settled m e world)
    {reader : Reader} (hreader : reader ∈ world.readers) (hfinished : reader.finished = false)
    (hpending : ¬ reader.Pending m) (r : Nat) :
    (world.place r reader).base.rotations e.rotation = world.base.rotations e.rotation := by
  show ((world.seen reader.catalog).routeCandidates reader.model
    reader.prefixHash).2.rotations _ = _
  rw [routeCandidates_rotations]
  cases hcounter : advancedCounter (world.seen reader.catalog) reader.model reader.prefixHash with
  | none => rfl
  | some advanced =>
      have hne : advanced.2 ≠ e.rotation :=
        advancedCounter_ne hreached h hreader hfinished hpending hcounter
      exact Function.update_of_ne hne.symm _ _

/-- A request of the model starts where the counter points. -/
theorem start?_pending (hstrategy : world.base.strategy = .roundRobin)
    (hn : 2 ≤ e.candidates.length) {reader : Reader} {r : Nat}
    (hr : world.readers[r]? = some reader) (hpending : reader.Pending m)
    (hrouted : reader.catalog.routing m = some e) :
    world.start? m (.place r) =
      e.candidates[world.base.rotations e.rotation % e.candidates.length]? := by
  have hseen : (world.seen reader.catalog).strategy = .roundRobin := hstrategy
  have hcatalog : (world.seen reader.catalog).catalog.routing m = some e := hrouted
  have hstart := route_roundRobin hseen hcatalog hn
  simp only [start?, hr]
  rw [if_pos hpending, hstart]
  rfl

/-- The counter moves with the model's own requests, each of which starts where it points. -/
theorem step_counter (hreached : Reached init world) (h : Settled m e world)
    (hn : 2 ≤ e.candidates.length) (event : Event) :
    let counter := world.base.rotations e.rotation
    let next := (world.step event).base.rotations e.rotation
    (world.start? m event = none ∧ next = counter) ∨
      ((world.start? m event).isSome = true ∧
        world.start? m event = e.candidates[counter % e.candidates.length]? ∧
        next = (counter + 1) % 2 ^ 32) := by
  intro counter next
  cases event with
  | setBackendModels idx listing =>
      refine Or.inl ⟨rfl, ?_⟩
      show (World.step world (.setBackendModels idx listing)).base.rotations _ = _
      simp only [step]
      split <;> rfl
  | place r =>
      have hnext : next = (World.step world (.place r)).base.rotations e.rotation := rfl
      cases hr : world.readers[r]? with
      | none =>
          simp only [step, hr] at hnext
          simp only [start?, hr]
          exact Or.inl ⟨trivial, hnext⟩
      | some reader =>
          have hreader := List.mem_of_getElem? hr
          simp only [step, hr] at hnext
          by_cases hpending : reader.Pending m
          · have hstart := start?_pending hreached.strategy hn hr hpending
              (h.readers reader hreader hpending)
            have hlt : counter % e.candidates.length < e.candidates.length :=
              Nat.mod_lt _ (by omega)
            rw [hpending.1, if_neg Bool.false_ne_true] at hnext
            refine Or.inr ⟨?_, hstart, ?_⟩
            · rw [hstart, List.getElem?_eq_getElem hlt]
              rfl
            · rw [hnext]
              exact place_rotations_pending hreached h hn hreader hpending r
          · refine Or.inl ⟨?_, ?_⟩
            · simp only [start?, hr]
              exact if_neg hpending
            · rw [hnext]
              cases hfinished : reader.finished with
              | true => rfl
              | false => exact place_rotations_other hreached h hreader hfinished hpending r
  | _ => exact Or.inl ⟨rfl, rfl⟩

end Step

/-! ## Whole runs -/

section Runs

variable {backends : List Backend} {staticModels : List (List String)}
  {routingMode : RoutingMode} {registry : BackendRegistry}

/-- Where a new registry with round robin gets to. -/
def reached (registry : BackendRegistry) (overloadFactor : Rat) (events : List Event) : World :=
  run step (initial (registry.withLoadBalancing .roundRobin overloadFactor)) events

/-- The requests of a model that keeps its candidates start at the places that the counter picks,
one after the other. -/
theorem starts_eq (hnew : BackendRegistry.new backends staticModels routingMode = some registry)
    (overloadFactor : Rat) {m : String} {e : RoutingEntry} (hn : 2 ≤ e.candidates.length)
    (history events : List Event) (hsettled : Settled m e (reached registry overloadFactor history))
    (hkeeps : Along step (Keeps m e.candidates) (reached registry overloadFactor history) events) :
    let world := reached registry overloadFactor history
    let counter := world.base.rotations e.rotation
    let picked := starts m world events
    picked.map some = ((List.range picked.length).map fun j ↦
        e.candidates[wrapPick (2 ^ 32) e.candidates.length counter j]?) ∧
      (run step world events).base.rotations e.rotation = (counter + picked.length) % 2 ^ 32 ∧
      Settled m e (run step world events) := by
  induction events generalizing history with
  | nil =>
      refine ⟨rfl, ?_, hsettled⟩
      exact (Nat.mod_eq_of_lt ((reached_run hnew overloadFactor history).counter_lt _)).symm
  | cons event events ih =>
      intro world counter picked
      have hreached : Reached registry.catalog world := reached_run hnew overloadFactor history
      have hlt : counter < 2 ^ 32 := hreached.counter_lt e.rotation
      have hnext : reached registry overloadFactor (history ++ [event]) = world.step event :=
        run_concat _ _ _ _
      have hrest := ih (history ++ [event])
        (hnext ▸ hsettled.step hreached event hkeeps.1) (hnext ▸ hkeeps.2)
      rw [hnext] at hrest
      rcases hrest with ⟨hpicks, hcounter, hend⟩
      have hpicked : picked = (world.start? m event).toList ++ starts m (world.step event) events :=
        rfl
      rw [run_cons]
      cases step_counter hreached hsettled hn event with
      | inl hother =>
          rw [hother.2] at hpicks hcounter
          rw [hpicked, hother.1, Option.toList_none, List.nil_append]
          exact ⟨hpicks, hcounter, hend⟩
      | inr hown =>
          rcases hown with ⟨hsome, hstart, hadvance⟩
          rcases Option.isSome_iff_exists.mp hsome with ⟨first, hfirst⟩
          rw [hadvance] at hpicks hcounter
          rw [hpicked, hfirst, Option.toList_some, List.singleton_append]
          refine ⟨?_, ?_, hend⟩
          · rw [List.map_cons, List.length_cons, List.range_succ_eq_map, List.map_cons,
              wrapPick_zero hlt, List.map_map, ← hfirst, hpicks, hstart]
            congr 1
            apply List.map_congr_left
            intro j _
            rw [wrapPick_step]
            rfl
          · rw [hcounter, Nat.mod_add_mod, List.length_cons, Nat.add_assoc, Nat.add_comm 1]

/-- While a model keeps its candidates, as many of its requests as it has candidates start at each
of them once exactly when that number divides `2 ^ 32` or the counter does not wrap among them. -/
theorem round_robin_even_iff
    (hnew : BackendRegistry.new backends staticModels routingMode = some registry)
    (overloadFactor : Rat) {m : String} {e : RoutingEntry} (hn : 2 ≤ e.candidates.length)
    (hnodup : e.candidates.Nodup) (history events : List Event)
    (hsettled : Settled m e (reached registry overloadFactor history))
    (hkeeps : Along step (Keeps m e.candidates) (reached registry overloadFactor history) events)
    (hcount : (starts m (reached registry overloadFactor history) events).length =
      e.candidates.length) :
    (starts m (reached registry overloadFactor history) events).Perm e.candidates ↔
      e.candidates.length ∣ 2 ^ 32 ∨
        (reached registry overloadFactor history).base.rotations e.rotation +
          e.candidates.length ≤ 2 ^ 32 := by
  have hpicks := (starts_eq hnew overloadFactor hn history events hsettled hkeeps).1
  rw [hcount] at hpicks
  exact picks_perm_iff hnodup ((reached_run hnew overloadFactor history).counter_lt e.rotation)
    hpicks

/-- Two requests that are placed in the other order, with an update between them. -/
def interleaved : List Event :=
  [.routeCandidates (some "m") none, .setBackendModels 1 [⟨"m", .null⟩, ⟨"x", .null⟩],
    .routeCandidates (some "m") none, .load 0, .place 1, .compute 0, .swap 0, .place 0]

theorem round_robin_even_two :
    ∃ registry, BackendRegistry.new BackendRegistry.twoBackends [["m"], ["m"]] .catalog =
        some registry ∧ (starts "m" (reached registry 2 []) interleaved).Perm [0, 1] := by
  cases hnew : BackendRegistry.new BackendRegistry.twoBackends [["m"], ["m"]] .catalog with
  | none => exact absurd hnew (by decide)
  | some registry =>
      refine ⟨registry, rfl, ?_⟩
      have heq := Option.some.inj hnew
      have hsettled : Settled "m" ⟨[0, 1], 0⟩ (reached registry 2 []) := by
        refine ⟨?_, fun _ hreader ↦ absurd hreader List.not_mem_nil⟩
        rw [← heq]
        decide
      have hkeeps : Along step (Keeps "m" [0, 1]) (reached registry 2 []) interleaved := by
        rw [← heq]
        decide
      have hcount : (starts "m" (reached registry 2 []) interleaved).length = 2 := by
        rw [← heq]
        decide
      apply (round_robin_even_iff hnew 2 (by decide) (by decide) [] interleaved hsettled hkeeps
        hcount).mpr
      exact Or.inl (by decide)

/-! ## Requests one after the other -/

/-- Requests for a model without a prefix, each placed at once: the first is the `k`-th. -/
def requests (m : String) (k count : Nat) : List Event :=
  (List.range' k count).flatMap fun r ↦ [.routeCandidates (some m) none, .place r]

/-- Nothing but `k` requests has happened to the registry. -/
structure Quiet (registry : BackendRegistry) (k : Nat) (world : World) : Prop where
  cell : world.cell = (initial registry).cell
  readers_length : world.readers.length = k
  finished : ∀ reader ∈ world.readers, reader.finished = true

variable {m : String} {e : RoutingEntry} {k : Nat} {world : World}

theorem Quiet.settled (h : Quiet registry k world) (he : registry.catalog.routing m = some e) :
    Settled m e world where
  routed := by
    show world.cell.current.value.routing m = some e
    rw [h.cell]
    exact he
  readers reader hreader hpending := by
    have hfinished := hpending.1
    rw [h.finished reader hreader] at hfinished
    exact absurd hfinished (by simp)

theorem Quiet.keeps {event : Event} (h : Quiet registry k (world.step event))
    (he : registry.catalog.routing m = some e) : Keeps m e.candidates world event := by
  show ((world.step event).cell.current.value.routing m).map RoutingEntry.candidates = _
  rw [h.cell]
  exact congrArg (Option.map RoutingEntry.candidates) he

theorem Quiet.placed (h : Quiet registry k world) (reader : Reader) :
    Quiet registry (k + 1)
      ({ world with readers := world.readers ++ [reader] }.place k reader) := by
  refine ⟨h.cell, ?_, fun other hother ↦ ?_⟩
  · show ((world.readers ++ [reader]).set k _).length = k + 1
    rw [List.length_set, List.length_append, h.readers_length, List.length_singleton]
  · have hset : (world.readers ++ [reader]).set k { reader with finished := true } =
        world.readers ++ [{ reader with finished := true }] := by
      rw [List.set_append_right _ _ h.readers_length.le, h.readers_length, Nat.sub_self]
      rfl
    have hmem : other ∈ world.readers ++ [{ reader with finished := true }] := hset ▸ hother
    cases List.mem_append.mp hmem with
    | inl hold => exact h.finished other hold
    | inr hnew => rw [List.mem_singleton.mp hnew]

theorem Quiet.request (h : Quiet registry k world) (hstrategy : world.base.strategy = .roundRobin)
    (he : registry.catalog.routing m = some e) (hn : 2 ≤ e.candidates.length) :
    Quiet registry (k + 1) (run step world (requests m k 1)) ∧
      Along step (Keeps m e.candidates) world (requests m k 1) ∧
      (starts m world (requests m k 1)).length = 1 := by
  let reader : Reader := ⟨registry.catalog, some m, none, false⟩
  let loaded := { world with readers := world.readers ++ [reader] }
  have hload : world.step (.routeCandidates (some m) none) = loaded := by
    have hcatalog : world.cell.current.value = registry.catalog := by
      rw [h.cell]
      rfl
    simp only [step, hcatalog]
    rfl
  have hget : loaded.readers[k]? = some reader := by
    show (world.readers ++ [reader])[k]? = _
    rw [← h.readers_length, List.getElem?_concat_length]
  have hplace : loaded.step (.place k) = loaded.place k reader := by
    simp only [step, hget]
    rfl
  have hstart : (loaded.start? m (.place k)).toList.length = 1 := by
    have hround : loaded.base.strategy = .roundRobin := hstrategy
    have hpick := start?_pending hround hn hget ⟨rfl, rfl, rfl⟩ he
    rw [hpick, List.getElem?_eq_getElem (Nat.mod_lt _ (by omega))]
    rfl
  have hquiet : Quiet registry (k + 1) (loaded.place k reader) := h.placed reader
  have hevents : requests m k 1 = [.routeCandidates (some m) none, .place k] := rfl
  rw [hevents, run_cons, run_cons, run_nil, hload, hplace]
  refine ⟨hquiet, ⟨?_, ?_, trivial⟩, ?_⟩
  · show ((world.step _).registry.catalog.routing m).map RoutingEntry.candidates = _
    rw [hload]
    show (world.cell.current.value.routing m).map RoutingEntry.candidates = _
    rw [h.cell]
    exact congrArg (Option.map RoutingEntry.candidates) he
  · rw [hload]
    exact Quiet.keeps (hplace.symm ▸ hquiet) he
  · show ((none : Option Nat).toList ++ ((World.start? m (world.step _) _).toList ++ [])).length = 1
    rw [hload, Option.toList_none, List.nil_append, List.append_nil]
    exact hstart

theorem run_strategy (world : World) (events : List Event) :
    (run step world events).base.strategy = world.base.strategy :=
  run_invariant (P := fun w ↦ w.base.strategy = world.base.strategy) rfl
    (fun w event h ↦ (step_strategy w event).trans h) events

theorem starts_append (m : String) (world : World) (xs ys : List Event) :
    starts m world (xs ++ ys) = starts m world xs ++ starts m (run step world xs) ys := by
  induction xs generalizing world with
  | nil => rfl
  | cons x xs ih =>
      show (world.start? m x).toList ++ starts m (world.step x) (xs ++ ys) =
        ((world.start? m x).toList ++ starts m (world.step x) xs) ++ _
      rw [ih, List.append_assoc, run_cons]

theorem Quiet.requests (h : Quiet registry k world) (hstrategy : world.base.strategy = .roundRobin)
    (he : registry.catalog.routing m = some e) (hn : 2 ≤ e.candidates.length) (count : Nat) :
    Quiet registry (k + count) (run step world (requests m k count)) ∧
      Along step (Keeps m e.candidates) world (World.requests m k count) ∧
      (starts m world (World.requests m k count)).length = count := by
  induction count with
  | zero => exact ⟨h, trivial, rfl⟩
  | succ count ih =>
      have hsplit : World.requests m k (count + 1) =
          World.requests m k count ++ World.requests m (k + count) 1 := by
        unfold World.requests
        rw [← List.flatMap_append, List.range'_append_1]
      have hlast := ih.1.request ((run_strategy world _).trans hstrategy) he hn
      rw [hsplit, run_append, along_append, starts_append, List.length_append, ih.2.2, hlast.2.2]
      exact ⟨hlast.1, ⟨ih.2.1, hlast.2.1⟩, rfl⟩

/-- What the counter is at and where the next requests start, after so many of them on a new
registry. -/
theorem starts_requests
    (hnew : BackendRegistry.new backends staticModels routingMode = some registry)
    (overloadFactor : Rat) (he : registry.catalog.routing m = some e)
    (hn : 2 ≤ e.candidates.length) (count next : Nat) :
    let world := reached registry overloadFactor (requests m 0 count)
    Settled m e world ∧ Along step (Keeps m e.candidates) world (requests m count next) ∧
      world.base.rotations e.rotation = count % 2 ^ 32 ∧
      (starts m world (requests m count next)).map some = (List.range next).map fun j ↦
        e.candidates[wrapPick (2 ^ 32) e.candidates.length (count % 2 ^ 32) j]? := by
  intro world
  have hstart : Quiet (registry.withLoadBalancing .roundRobin overloadFactor) 0
      (reached registry overloadFactor []) :=
    ⟨rfl, rfl, fun _ hreader ↦ absurd hreader List.not_mem_nil⟩
  have hbefore := hstart.requests rfl he hn count
  rw [Nat.zero_add] at hbefore
  have hquiet : Quiet (registry.withLoadBalancing .roundRobin overloadFactor) count world :=
    hbefore.1
  have hafter := hquiet.requests (reached_run hnew overloadFactor _).strategy he hn next
  have hsettled := hquiet.settled he
  have hcounter : world.base.rotations e.rotation = count % 2 ^ 32 := by
    have hruns := (starts_eq hnew overloadFactor hn [] _ (hstart.settled he) hbefore.2.1).2.1
    rw [hbefore.2.2] at hruns
    have hzero : (reached registry overloadFactor []).base.rotations e.rotation = 0 := by
      show registry.rotations e.rotation = 0
      rw [(new_counters hnew).2]
    rw [hzero, Nat.zero_add] at hruns
    exact hruns
  have hpicks := (starts_eq hnew overloadFactor hn (requests m 0 count) _ hsettled hafter.2.1).1
  rw [hafter.2.2] at hpicks
  have hworld : (reached registry overloadFactor (requests m 0 count)).base.rotations e.rotation =
      count % 2 ^ 32 := hcounter
  rw [hworld] at hpicks
  exact ⟨hsettled, hafter.2.1, hcounter, hpicks⟩

end Runs

def threeBackends : List Backend := List.replicate 3 ⟨.llamaCpp, [], none⟩

/-- The requests that bring the counter to its last value, and the next three. -/
def beforeWrap : List Event := requests "m" 0 (2 ^ 32 - 1)

def acrossWrap : List Event := requests "m" (2 ^ 32 - 1) 3

/-- After `2 ^ 32 - 1` requests two in a row start at the first of three candidates. -/
theorem round_robin_wrap_repeats :
    ∃ registry, BackendRegistry.new threeBackends [["m"], ["m"], ["m"]] .catalog =
        some registry ∧
      Settled "m" ⟨[0, 1, 2], 0⟩ (reached registry 2 beforeWrap) ∧
      Along step (Keeps "m" [0, 1, 2]) (reached registry 2 beforeWrap) acrossWrap ∧
      (reached registry 2 beforeWrap).base.rotations 0 = 2 ^ 32 - 1 ∧
      starts "m" (reached registry 2 beforeWrap) acrossWrap = [0, 0, 1] ∧
      ¬ (starts "m" (reached registry 2 beforeWrap) acrossWrap).Perm [0, 1, 2] := by
  cases hnew : BackendRegistry.new threeBackends [["m"], ["m"], ["m"]] .catalog with
  | none => exact absurd hnew (by decide)
  | some registry =>
      refine ⟨registry, rfl, ?_⟩
      have heq := Option.some.inj hnew
      obtain ⟨e, he⟩ : ∃ e : RoutingEntry, e = ⟨[0, 1, 2], 0⟩ := ⟨_, rfl⟩
      have hcandidates : e.candidates = [0, 1, 2] := congrArg RoutingEntry.candidates he
      have hrotation : e.rotation = 0 := congrArg RoutingEntry.rotation he
      have hrouted : registry.catalog.routing "m" = some e := by
        rw [← heq, he]
        decide
      have hn : 2 ≤ e.candidates.length := by
        rw [hcandidates]
        decide
      have hruns := starts_requests hnew 2 hrouted hn (2 ^ 32 - 1) 3
      rw [← beforeWrap, ← acrossWrap, Nat.mod_eq_of_lt (by decide), hcandidates, hrotation]
        at hruns
      rcases hruns with ⟨hsettled, hkeeps, hcounter, hpicks⟩
      have hstarts : starts "m" (reached registry 2 beforeWrap) acrossWrap = [0, 0, 1] := by
        apply List.map_injective_iff.mpr (Option.some_injective Nat)
        exact hpicks.trans (by decide +kernel)
      rw [hstarts, ← he]
      exact ⟨hsettled, hkeeps, hcounter, rfl, by decide⟩

end World

end TokenWeasel.Backends
