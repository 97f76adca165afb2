import TokenWeasel.Backends.Listing
import TokenWeasel.Backends.Registry

/-!
# The watchdog (`twl-server/src/watchdog.rs`)

One task for each polled backend writes what it polls into the registry, unless the ids of the
listing are the ones it saw last.  The tasks take their turns in any order.
-/

namespace TokenWeasel.Server

open Backends Library

/-! ## One poll -/

/-- How a request for the models ended, with the text of the body unless reading it failed. -/
inductive PollResponse where
  | timedOut
  | requestFailed
  | response (status : Nat) (text : Option (List UInt8))

def pollOnce (fromSlice : List UInt8 → Option Value) (provider : ProviderKind) :
    PollResponse → Option (List ModelEntry)
  | .timedOut | .requestFailed | .response _ none => none
  | .response status (some body) =>
    if 200 ≤ status ∧ status < 300 then (parseModels provider fromSlice body).toOption else none

/-- A successful poll gives a task models with ids, each object naming its model. -/
theorem pollOnce_entry {fromSlice : List UInt8 → Option Value} {provider : ProviderKind}
    {response : PollResponse} {entries : List ModelEntry}
    (h : pollOnce fromSlice provider response = some entries) {e : ModelEntry} (he : e ∈ entries) :
    e.id ≠ "" ∧ e.raw.get "id" = some (.string e.id) := by
  unfold pollOnce at h
  split at h
  · exact absurd h (by simp)
  · exact absurd h (by simp)
  · exact absurd h (by simp)
  · split at h
    · rename_i body _
      cases hparse : parseModels provider fromSlice body with
      | error e =>
          rw [hparse] at h
          exact absurd h (by simp [Except.toOption])
      | ok listing =>
          rw [hparse] at h
          exact parseModels_entry (hparse.trans (congrArg _ (Option.some.inj h))) he
    · exact absurd h (by simp)

/-! ## The tasks -/

structure Watchdog where
  registry : BackendRegistry
  /-- `last_ids` of the task of a backend. -/
  tasks : Nat → Option (Option (List String))
  /-- The latest poll of a backend, which no task keeps. -/
  latest : Nat → Option (Option (List ModelEntry)) := fun _ ↦ none

/-- A task for every backend with `models_poll_secs`. -/
def spawnWatchdog (registry : BackendRegistry) (modelsPollSecs : List (Option Nat)) : Watchdog where
  registry := registry
  tasks := fun idx ↦
    if idx < registry.backends.length ∧ (modelsPollSecs[idx]?.join).isSome then some none else none

namespace Watchdog

def setModels (w : Watchdog) (idx : Nat) (entries : List ModelEntry) : Watchdog :=
  { w with
    registry := w.registry.update (idx, entries)
    tasks := Function.update w.tasks idx (some (some (entries.map ModelEntry.id))) }

/-- What a task does with the outcome of its poll. -/
def applyPoll (w : Watchdog) (idx : Nat) (lastIds : Option (List String)) :
    Option (List ModelEntry) → Watchdog
  | some entries =>
    if lastIds ≠ some (entries.map ModelEntry.id) then w.setModels idx entries else w
  -- an unreachable backend is cleared, once
  | none => if lastIds ≠ some [] then w.setModels idx [] else w

/-- One iteration of the loop of a task. -/
def step (w : Watchdog) (poll : Nat × Option (List ModelEntry)) : Watchdog :=
  match w.tasks poll.1 with
  | none => w
  | some lastIds =>
    { w.applyPoll poll.1 lastIds poll.2 with
      latest := Function.update w.latest poll.1 (some poll.2) }

end Watchdog

/-- The entries a poll stands for. -/
def polledEntries (backend : Backend) : Option (List ModelEntry) → List CatalogEntry
  | some listing => backendEntries backend listing
  | none => []

/-- The entries of every polled backend are those of its latest poll. -/
def Watchdog.Fresh (w : Watchdog) : Prop :=
  ∀ idx backend poll, w.registry.backends[idx]? = some backend → w.latest idx = some poll →
    w.registry.catalog.entries[idx]? = some (polledEntries backend poll)

/-! ## Listings with the same entries -/

/-- The object that is served for a model of a listing. -/
def servedRaw (backend : Backend) (listing : List ModelEntry) (id : String) : Option Value :=
  (listing.find? fun e ↦ e.id = id).map fun e ↦ applyTypeOverride e.raw backend.modelTypes id

/-- The first entries of each served model have the same object. -/
def SameObjects (backend : Backend) (before after : List ModelEntry) : Prop :=
  ∀ id, modelAllowed backend.modelFilter id = true →
    servedRaw backend before id = servedRaw backend after id

theorem backendEntries_keys {backend : Backend} {before after : List ModelEntry}
    (h : before.map ModelEntry.id = after.map ModelEntry.id) :
    (backendEntries backend before).map CatalogEntry.id =
      (backendEntries backend after).map CatalogEntry.id := by
  have hkeys : ∀ listing : List ModelEntry, (backendEntries backend listing).map CatalogEntry.id =
      distinctBy id [] ((listing.map ModelEntry.id).filter (modelAllowed backend.modelFilter)) := by
    intro listing
    unfold backendEntries deduplicateBackendEntries
    rw [distinctBy_map_key, List.map_map, List.filter_map]
    rfl
  rw [hkeys, hkeys, h]

theorem backendEntries_find? (backend : Backend) (listing : List ModelEntry) (id : String) :
    (backendEntries backend listing).find? (fun e ↦ e.id = id) =
      if modelAllowed backend.modelFilter id then
        (servedRaw backend listing id).map fun raw ↦ { id := id, raw := raw }
      else none := by
  unfold backendEntries deduplicateBackendEntries servedRaw
  rw [find?_distinctBy List.not_mem_nil, List.find?_map, List.find?_filter]
  by_cases hallowed : modelAllowed backend.modelFilter id = true
  · have hfind : (listing.find? fun e ↦ decide (modelAllowed backend.modelFilter e.id = true ∧
        decide (e.id = id) = true)) = listing.find? fun e ↦ e.id = id := by
      congr 1
      funext e
      by_cases he : e.id = id <;> simp [he, hallowed]
    rw [if_pos hallowed, Option.map_map]
    show Option.map _ (listing.find? fun e ↦ decide (modelAllowed backend.modelFilter e.id = true ∧
      decide (e.id = id) = true)) = _
    rw [hfind]
    cases hfound : listing.find? fun e ↦ e.id = id with
    | none => rfl
    | some e =>
        have hid : e.id = id := by simpa using List.find?_some hfound
        rw [Option.map_some, Option.map_some, hid]
        rfl
  · rw [if_neg hallowed, Option.map_eq_none_iff, List.find?_eq_none]
    intro e _ he
    rw [decide_eq_true_eq] at he
    have hid : e.id = id := by simpa using he.2
    exact hallowed (hid ▸ he.1)

/-- Listings of the same ids make the same entries exactly when the objects agree. -/
theorem backendEntries_eq_iff {backend : Backend} {before after : List ModelEntry}
    (h : before.map ModelEntry.id = after.map ModelEntry.id) :
    backendEntries backend before = backendEntries backend after ↔
      SameObjects backend before after := by
  constructor
  · intro heq id hallowed
    have hbefore := backendEntries_find? backend before id
    rw [heq, backendEntries_find?, if_pos hallowed, if_pos hallowed] at hbefore
    have hinj : Function.Injective fun raw : Value ↦ ({ id := id, raw := raw } : CatalogEntry) :=
      fun a b hab ↦ (CatalogEntry.mk.inj hab).2
    exact (Option.map_injective hinj hbefore).symm
  · intro hsame
    apply eq_of_find?_eq (backendEntries_keys h) (distinctBy_keys_nodup _ _)
    intro id
    rw [backendEntries_find?, backendEntries_find?]
    by_cases hallowed : modelAllowed backend.modelFilter id = true
    · rw [if_pos hallowed, if_pos hallowed, hsame id hallowed]
    · rw [if_neg hallowed, if_neg hallowed]

/-! ## Runs of the tasks -/

namespace Watchdog

/-- A listing with the ids of the listing polled before it has its objects too. -/
def IdsDecide (w : Watchdog) (poll : Nat × Option (List ModelEntry)) : Prop :=
  ∀ backend before listing, w.registry.backends[poll.1]? = some backend →
    w.latest poll.1 = some (some before) → poll.2 = some listing →
    before.map ModelEntry.id = listing.map ModelEntry.id → SameObjects backend before listing

/-- A task remembers the ids of its latest poll. -/
structure Wf (w : Watchdog) : Prop where
  length_eq : w.registry.catalog.entries.length = w.registry.backends.length
  tasks_lt : ∀ idx lastIds, w.tasks idx = some lastIds → idx < w.registry.backends.length
  lastIds_eq : ∀ idx lastIds, w.tasks idx = some lastIds →
    lastIds = (w.latest idx).map fun poll ↦ (poll.getD []).map ModelEntry.id
  latest_none : ∀ idx, w.tasks idx = none → w.latest idx = none

theorem update_entries {registry : BackendRegistry} {idx : Nat} {backend : Backend}
    (hbackend : registry.backends[idx]? = some backend) (listing : List ModelEntry) :
    (registry.update (idx, listing)).backends = registry.backends ∧
      (registry.update (idx, listing)).catalog.entries =
        registry.catalog.entries.set idx (backendEntries backend listing) := by
  unfold BackendRegistry.update BackendRegistry.setBackendModels
  rw [hbackend]
  exact ⟨rfl, rfl⟩

variable {w : Watchdog} {idx : Nat} {backend : Backend} {lastIds : Option (List String)}

theorem polledEntries_getD (backend : Backend) (poll : Option (List ModelEntry)) :
    polledEntries backend poll = backendEntries backend (poll.getD []) := by
  cases poll <;> rfl

/-- What one iteration does: it takes note of the poll, and writes the listing unless the ids are
the ones of the poll before. -/
theorem step_cases (poll : Option (List ModelEntry)) (htask : w.tasks idx = some lastIds)
    (hbackend : w.registry.backends[idx]? = some backend) :
    let ids := (poll.getD []).map ModelEntry.id
    let next := w.step (idx, poll)
    next.registry.backends = w.registry.backends ∧
      next.tasks = Function.update w.tasks idx (some (some ids)) ∧
      next.latest = Function.update w.latest idx (some poll) ∧
      (lastIds ≠ some ids ∧ next.registry.catalog.entries =
          w.registry.catalog.entries.set idx (backendEntries backend (poll.getD [])) ∨
        lastIds = some ids ∧ next.registry.catalog.entries = w.registry.catalog.entries) := by
  intro ids next
  have hnext : next = { w.applyPoll idx lastIds poll with
      latest := Function.update w.latest idx (some poll) } := by
    show w.step (idx, poll) = _
    unfold step
    dsimp only
    rw [htask]
  have happly : w.applyPoll idx lastIds poll =
      if lastIds ≠ some ids then w.setModels idx (poll.getD []) else w := by
    cases poll <;> rfl
  rw [hnext, happly]
  have hupdate := update_entries hbackend (poll.getD [])
  by_cases hids : lastIds = some ids
  · rw [if_neg (not_not.mpr hids)]
    have htasks : Function.update w.tasks idx (some (some ids)) = w.tasks := by
      rw [← hids, ← htask, Function.update_eq_self]
    exact ⟨rfl, htasks.symm, rfl, Or.inr ⟨hids, rfl⟩⟩
  · rw [if_pos hids]
    exact ⟨hupdate.1, rfl, rfl, Or.inl ⟨hids, hupdate.2⟩⟩

theorem Wf.backend_of_task (h : w.Wf) (htask : w.tasks idx = some lastIds) :
    ∃ backend, w.registry.backends[idx]? = some backend :=
  ⟨_, List.getElem?_eq_getElem (h.tasks_lt idx lastIds htask)⟩

theorem Wf.step (h : w.Wf) (poll : Nat × Option (List ModelEntry)) : (w.step poll).Wf := by
  cases htask : w.tasks poll.1 with
  | none =>
      unfold Watchdog.step
      rw [htask]
      exact h
  | some lastIds =>
      rcases h.backend_of_task htask with ⟨backend, hbackend⟩
      rcases step_cases poll.2 htask hbackend with ⟨hbackends, htasks, hlatest, hentries⟩
      refine ⟨?_, ?_, ?_, ?_⟩
      · rw [hbackends]
        cases hentries with
        | inl hwritten => rw [hwritten.2, List.length_set, h.length_eq]
        | inr hsame => rw [hsame.2, h.length_eq]
      · intro other ids hother
        rw [htasks] at hother
        rw [hbackends]
        by_cases heq : other = poll.1
        · rw [heq]
          exact h.tasks_lt poll.1 lastIds htask
        · rw [Function.update_of_ne heq] at hother
          exact h.tasks_lt other ids hother
      · intro other ids hother
        rw [htasks] at hother
        rw [hlatest]
        by_cases heq : other = poll.1
        · rw [heq, Function.update_self] at hother
          rw [heq, Function.update_self, ← Option.some.inj hother]
          rfl
        · rw [Function.update_of_ne heq] at hother ⊢
          exact h.lastIds_eq other ids hother
      · intro other hother
        rw [htasks] at hother
        rw [hlatest]
        by_cases heq : other = poll.1
        · rw [heq, Function.update_self] at hother
          exact absurd hother (by simp)
        · rw [Function.update_of_ne heq] at hother ⊢
          exact h.latest_none other hother

theorem idsDecide_iff {before poll : Option (List ModelEntry)}
    (hbackend : w.registry.backends[idx]? = some backend) (hlatest : w.latest idx = some before)
    (hids : (before.getD []).map ModelEntry.id = (poll.getD []).map ModelEntry.id) :
    w.IdsDecide (idx, poll) ↔ SameObjects backend (before.getD []) (poll.getD []) := by
  constructor
  · intro h
    cases before with
    | none =>
        have hnil : poll.getD [] = [] := List.map_eq_nil_iff.mp hids.symm
        rw [hnil]
        exact fun _ _ ↦ rfl
    | some before =>
        cases poll with
        | none =>
            have hnil : before = [] := List.map_eq_nil_iff.mp hids
            rw [hnil]
            exact fun _ _ ↦ rfl
        | some listing => exact h backend before listing hbackend hlatest rfl hids
  · intro h backend' before' listing hbackend' hlatest' hpoll _
    change w.registry.backends[idx]? = some backend' at hbackend'
    change w.latest idx = some (some before') at hlatest'
    change poll = some listing at hpoll
    rw [hbackend, Option.some.injEq] at hbackend'
    rw [hlatest, Option.some.injEq] at hlatest'
    rw [hlatest', hpoll, hbackend'] at h
    exact h

/-- After an iteration it is the polled backend's entries that count. -/
theorem fresh_step_iff_polled (hfresh : w.Fresh) {poll : Option (List ModelEntry)}
    (htask : w.tasks idx = some lastIds) (hbackend : w.registry.backends[idx]? = some backend) :
    (w.step (idx, poll)).Fresh ↔ (w.step (idx, poll)).registry.catalog.entries[idx]? =
      some (polledEntries backend poll) := by
  rcases step_cases poll htask hbackend with ⟨hbackends, _, hlatest, hentries⟩
  -- the entries of the other backends stay as they are
  have hothers : ∀ other, other ≠ idx →
      (w.step (idx, poll)).registry.catalog.entries[other]? =
        w.registry.catalog.entries[other]? := by
    intro other hne
    cases hentries with
    | inl hwritten => rw [hwritten.2, List.getElem?_set_ne (Ne.symm hne)]
    | inr hsame => rw [hsame.2]
  constructor
  · intro hnext
    apply hnext idx backend poll
    · rw [hbackends, hbackend]
    · rw [hlatest, Function.update_self]
  · intro hnext other backend' poll' hbackend' hlatest'
    rw [hbackends] at hbackend'
    rw [hlatest] at hlatest'
    by_cases heq : other = idx
    · rw [heq, hbackend, Option.some.injEq] at hbackend'
      rw [heq, Function.update_self, Option.some.injEq] at hlatest'
      rw [heq, ← hbackend', ← hlatest']
      exact hnext
    · rw [Function.update_of_ne heq] at hlatest'
      rw [hothers other heq]
      exact hfresh other backend' poll' hbackend' hlatest'

/-- The one iteration that can leave stale entries is one that writes nothing. -/
theorem Wf.fresh_step_iff (h : w.Wf) (hfresh : w.Fresh) (poll : Nat × Option (List ModelEntry)) :
    (w.step poll).Fresh ↔ w.IdsDecide poll := by
  cases htask : w.tasks poll.1 with
  | none =>
      have hstep : w.step poll = w := by
        unfold Watchdog.step
        rw [htask]
      rw [hstep]
      apply iff_of_true hfresh
      intro backend before listing _ hlatest
      rw [h.latest_none poll.1 htask] at hlatest
      exact absurd hlatest (by simp)
  | some lastIds =>
      rcases h.backend_of_task htask with ⟨backend, hbackend⟩
      rcases step_cases poll.2 htask hbackend with ⟨-, -, -, hentries⟩
      have hids := h.lastIds_eq poll.1 lastIds htask
      have hlt := h.tasks_lt poll.1 lastIds htask
      rw [fresh_step_iff_polled hfresh htask hbackend]
      cases hentries with
      | inl hwritten =>
          -- the ids differ from those of the poll before
          apply iff_of_true
          · rw [hwritten.2, List.getElem?_set_self (h.length_eq ▸ hlt), polledEntries_getD]
          · intro backend' before listing _ hbefore hpoll hsame
            apply absurd _ hwritten.1
            rw [hids, hbefore, hpoll]
            exact congrArg some hsame
      | inr hsame =>
          cases hbefore : w.latest poll.1 with
          | none =>
              rw [hbefore, hsame.1] at hids
              exact absurd hids (by simp)
          | some before =>
              rw [hbefore, hsame.1] at hids
              have hids' := (Option.some.inj hids).symm
              rw [hsame.2, hfresh poll.1 backend before hbackend hbefore, polledEntries_getD,
                polledEntries_getD, Option.some.injEq, backendEntries_eq_iff hids',
                idsDecide_iff hbackend hbefore hids']

end Watchdog

theorem spawnWatchdog_wf {registry : BackendRegistry} (modelsPollSecs : List (Option Nat))
    (hlength : registry.catalog.entries.length = registry.backends.length) :
    (spawnWatchdog registry modelsPollSecs).Wf where
  length_eq := hlength
  tasks_lt := by
    intro idx lastIds htask
    unfold spawnWatchdog at htask
    dsimp only at htask
    split at htask
    · rename_i hidx
      exact hidx.1
    · exact absurd htask (by simp)
  lastIds_eq := by
    intro idx lastIds htask
    unfold spawnWatchdog at htask
    dsimp only at htask
    split at htask
    · exact (Option.some.inj htask).symm
    · exact absurd htask (by simp)
  latest_none := fun _ _ ↦ rfl

/-- The catalog follows the polls at any moment of a run exactly when no poll lists the ids of the
one before with other objects. -/
theorem fresh_iff_idsDecide {backends : List Backend} {staticModels : List (List String)}
    {routingMode : RoutingMode} {registry : BackendRegistry}
    (hnew : BackendRegistry.new backends staticModels routingMode = some registry)
    (strategy : LbStrategy) (overloadFactor : Rat) (modelsPollSecs : List (Option Nat))
    (polls : List (Nat × Option (List ModelEntry))) :
    let start := spawnWatchdog (registry.withLoadBalancing strategy overloadFactor) modelsPollSecs
    (∀ done, done <+: polls → (run Watchdog.step start done).Fresh) ↔
      Along Watchdog.step Watchdog.IdsDecide start polls := by
  intro start
  have hrepresents := (BackendRegistry.represents_new hnew).1
  have hlength : registry.catalog.entries.length = registry.backends.length := by
    rw [hrepresents.entries_length, hrepresents.backends_eq]
  have hwf : start.Wf := spawnWatchdog_wf modelsPollSecs hlength
  have hstart : start.Fresh := fun _ _ _ _ hlatest ↦ absurd hlatest (by simp [start, spawnWatchdog])
  exact along_iff_forall_run hwf hstart (fun _ poll h ↦ h.step poll)
    (fun _ poll h hfresh ↦ h.fresh_step_iff hfresh poll) polls

def polledBackend : Backend := ⟨.vllm, [], none⟩

def listingOf (ownedBy : String) : List ModelEntry :=
  [⟨"m", normalizedModel "m" (.object []) ownedBy⟩]

/-- A backend that goes away and comes back. -/
theorem fresh_after_outage :
    ∃ registry, BackendRegistry.new [polledBackend] [[]] .catalog = some registry ∧
      (run Watchdog.step (spawnWatchdog (registry.withLoadBalancing .leastLoaded 2) [some 30])
        [(0, some (listingOf "a")), (0, none), (0, some (listingOf "b"))]).Fresh := by
  have hnew : BackendRegistry.new [polledBackend] [[]] .catalog = some _ := rfl
  refine ⟨_, hnew, ?_⟩
  apply (fresh_iff_idsDecide hnew .leastLoaded 2 [some 30]
    [(0, some (listingOf "a")), (0, none), (0, some (listingOf "b"))]).mpr _ _ (List.prefix_refl _)
  refine ⟨?_, ?_, ?_, trivial⟩
  · intro _ before _ _ hlatest
    have hnone : none = some (some before) := hlatest
    exact absurd hnone (by simp)
  · intro _ _ listing _ _ hpoll
    have hnone : none = some listing := hpoll
    exact absurd hnone (by simp)
  · intro _ before _ _ hlatest
    have hfailed : some none = some (some before) := hlatest
    exact absurd hfailed (by simp)

/-- The model changes hands under its id, and the catalog keeps the old object. -/
theorem changed_object_not_served :
    ∃ registry, BackendRegistry.new [polledBackend] [[]] .catalog = some registry ∧
      ¬ (run Watchdog.step (spawnWatchdog (registry.withLoadBalancing .leastLoaded 2) [some 30])
        [(0, some (listingOf "a")), (0, some (listingOf "b"))]).Fresh := by
  refine ⟨_, rfl, fun hfresh ↦ ?_⟩
  have hentries : some (backendEntries polledBackend (listingOf "a")) =
      some (backendEntries polledBackend (listingOf "b")) :=
    hfresh 0 polledBackend (some (listingOf "b")) rfl rfl
  have hids : (listingOf "a").map ModelEntry.id = (listingOf "b").map ModelEntry.id := rfl
  have hraw : some (normalizedModel "m" (.object []) "a") =
      some (normalizedModel "m" (.object []) "b") :=
    (backendEntries_eq_iff hids).mp (Option.some.inj hentries) "m" rfl
  have howned : (normalizedModel "m" (.object []) "a").get "owned_by" =
      (normalizedModel "m" (.object []) "b").get "owned_by" :=
    congrArg (fun raw ↦ raw.get "owned_by") (Option.some.inj hraw)
  rw [(normalizedModel_get _ _ _).2.2, (normalizedModel_get _ _ _).2.2] at howned
  exact absurd howned (by simp)

end TokenWeasel.Server
