import TokenWeasel.Backends.ModelObject
import TokenWeasel.Library.Checks
import TokenWeasel.Server.Watchdog

/-!
# Instances behind one another (`twl-server/src/routes.rs`, `watchdog.rs`)

What `/v1/models` answers is a listing that another instance can poll, and so on.
-/

namespace TokenWeasel.Server

open Backends Library

/-- `models_handler`. -/
def modelsHandler (registry : BackendRegistry) : Value :=
  .object [("data", .array registry.modelEntries), ("object", .string "list")]

/-! ## Only model objects are served -/

/-- Its object is of the form that is served. -/
def Served (id : String) (raw : Value) : Prop := ∃ map, raw = .object map ∧ IsModelObject id map

theorem served_of_parseList {provider : ProviderKind} {field : String}
    {idOf : Value → Option String} {value : Value} {entries : List ModelEntry}
    (h : parseList provider field idOf value = .ok entries) : ∀ e ∈ entries, Served e.id e.raw := by
  unfold parseList at h
  split at h
  · cases h
  · split at h
    · cases h
    · cases h
      intro e he
      rcases List.mem_filterMap.mp he with ⟨item, -, hitem⟩
      unfold parseItem at hitem
      split at hitem
      · cases hitem
      · split at hitem
        · cases hitem
        · cases hitem
          exact ⟨_, rfl, isModelObject_modelMap _ item _⟩

theorem served_of_pollOnce {fromSlice : List UInt8 → Option Value} {provider : ProviderKind}
    {response : PollResponse} {entries : List ModelEntry}
    (h : pollOnce fromSlice provider response = some entries) :
    ∀ e ∈ entries, Served e.id e.raw := by
  unfold pollOnce at h
  split at h
  · cases h
  · cases h
  · cases h
  · split at h
    · rename_i body _
      unfold parseModels at h
      split at h
      · cases h
      · split at h
        · exact served_of_parseList (except_toOption_eq_some.mp h)
        · exact served_of_parseList (except_toOption_eq_some.mp h)
    · cases h

theorem served_applyTypeOverride {id : String} {raw : Value} (h : Served id raw)
    (overrides : List (String × ModelKind)) : Served id (applyTypeOverride raw overrides id) := by
  rcases h with ⟨map, rfl, hmap⟩
  unfold applyTypeOverride
  cases overrides.lookup id with
  | none => exact ⟨map, rfl, hmap⟩
  | some kind => exact ⟨_, rfl, hmap.typed kind⟩

theorem served_backendEntries {backend : Backend} {listing : List ModelEntry}
    (h : ∀ e ∈ listing, Served e.id e.raw) :
    ∀ e ∈ backendEntries backend listing, Served e.id e.raw := by
  intro e he
  rcases List.mem_map.mp (mem_of_mem_distinctBy he) with ⟨source, hsource, rfl⟩
  exact served_applyTypeOverride (h source (List.mem_of_mem_filter hsource)) backend.modelTypes

theorem served_staticListing (backend : Backend) (models : List String) :
    ∀ e ∈ BackendRegistry.staticListing backend models, Served e.id e.raw := by
  intro e he
  rcases List.mem_map.mp he with ⟨id, -, rfl⟩
  exact ⟨_, rfl, isModelObject_static id backend.provider⟩

/-- The registry stands for listings of such objects. -/
def Listed (registry : BackendRegistry) : Prop :=
  ∃ backends listings, BackendRegistry.Represents registry backends listings ∧
    ∀ listing ∈ listings, ∀ e ∈ listing, Served e.id e.raw

theorem listed_new {backends : List Backend} {staticModels : List (List String)}
    {routingMode : RoutingMode} {registry : BackendRegistry}
    (hnew : BackendRegistry.new backends staticModels routingMode = some registry)
    (strategy : LbStrategy) (overloadFactor : Rat) :
    Listed (registry.withLoadBalancing strategy overloadFactor) := by
  have h := (BackendRegistry.represents_new hnew).1
  refine ⟨_, _, ⟨h.backends_eq, h.length_eq, h.entries_eq, h.routing_eq⟩, ?_⟩
  intro listing hlisting
  rcases List.mem_iff_getElem?.mp hlisting with ⟨i, hi⟩
  rcases List.getElem?_zipWith_eq_some.mp hi with ⟨backend, models, -, -, rfl⟩
  exact served_staticListing backend models

section Listed

variable {registry : BackendRegistry}

theorem Listed.update (h : Listed registry) (idx : Nat) {listing : List ModelEntry}
    (hlisting : ∀ e ∈ listing, Served e.id e.raw) : Listed (registry.update (idx, listing)) := by
  rcases h with ⟨backends, listings, hrepresents, hserved⟩
  refine ⟨backends, listings.set idx listing,
    (BackendRegistry.represents_update hrepresents (idx, listing)).1, ?_⟩
  intro other hother
  cases List.mem_or_eq_of_mem_set hother with
  | inl hold => exact hserved other hold
  | inr heq => exact heq ▸ hlisting

theorem Listed.entries (h : Listed registry) : ∀ e ∈ registry.listedEntries, Served e.id e.raw := by
  rcases h with ⟨backends, listings, hrepresents, hserved⟩
  intro e he
  rcases List.mem_flatten.mp (mem_of_mem_distinctBy he) with ⟨entries, hentries, he⟩
  rcases List.mem_iff_getElem?.mp hentries with ⟨i, hi⟩
  rcases hrepresents.entries_at hi with ⟨backend, listing, -, hlisting, rfl⟩
  exact served_backendEntries (hserved listing (List.mem_of_getElem? hlisting)) e he

/-- What is listed is what is routed. -/
theorem Listed.routed (h : Listed registry) (model : String) :
    model ∈ registry.listedEntries.map CatalogEntry.id ↔
      (registry.catalog.routing model).isSome = true := by
  rcases h with ⟨backends, listings, hrepresents, -⟩
  exact hrepresents.listed_iff model

/-- A name is routed when it is listed, and any name is in flat mode. -/
theorem Listed.routes (h : Listed registry) (model : String) (prefixHash : Option (BitVec 64)) :
    (registry.routeCandidates (some model) prefixHash).1.isOk = true ↔
      registry.routingMode = .flatPassthrough ∨
        model ∈ registry.listedEntries.map CatalogEntry.id := by
  rw [h.routed]
  unfold BackendRegistry.routeCandidates
  cases hrouting : registry.catalog.routing model with
  | none =>
      simp only [hrouting]
      split
      · rename_i hflat
        exact iff_of_true rfl (Or.inl hflat)
      · rename_i hcatalog
        refine iff_of_false (fun hok ↦ by cases hok) ?_
        rintro (hflat | hrouted)
        · exact hcatalog hflat
        · cases hrouted
  | some e =>
      simp only [hrouting]
      split <;> exact iff_of_true rfl (Or.inr rfl)

theorem listed_step {w : Watchdog} (h : Listed w.registry) {poll : Nat × Option (List ModelEntry)}
    (hpoll : ∀ listing ∈ poll.2, ∀ e ∈ listing, Served e.id e.raw) :
    Listed (w.step poll).registry := by
  unfold Watchdog.step
  cases w.tasks poll.1 with
  | none => exact h
  | some lastIds =>
      show Listed (w.applyPoll poll.1 lastIds poll.2).registry
      cases hlisting : poll.2 with
      | none =>
          show Listed (if lastIds ≠ some [] then w.setModels poll.1 [] else w).registry
          split
          · exact h.update poll.1 fun e he ↦ absurd he List.not_mem_nil
          · exact h
      | some listing =>
          show Listed (if lastIds ≠ _ then w.setModels poll.1 listing else w).registry
          split
          · exact h.update poll.1 (hpoll listing hlisting)
          · exact h

theorem listed_run {w : Watchdog} (h : Listed w.registry)
    (fromSlice : List UInt8 → Option Value) (polls : List (Nat × ProviderKind × PollResponse)) :
    Listed (run Watchdog.step w
      (polls.map fun poll ↦ (poll.1, pollOnce fromSlice poll.2.1 poll.2.2))).registry := by
  have halong : Along Watchdog.step (fun _ poll ↦ ∀ listing ∈ poll.2, ∀ e ∈ listing,
      Served e.id e.raw) w
        (polls.map fun poll ↦ (poll.1, pollOnce fromSlice poll.2.1 poll.2.2)) := by
    apply along_of_forall
    intro poll hpoll listing hlisting
    rcases List.mem_map.mp hpoll with ⟨response, -, rfl⟩
    exact served_of_pollOnce hlisting
  exact run_invariant_along halong (P := fun w : Watchdog ↦ Listed w.registry) h
    fun w poll hserved h ↦ listed_step h hserved

end Listed

/-! ## One hop -/

/-- The entries with a name that a listing can have. -/
def nameable (entries : List CatalogEntry) : List CatalogEntry := entries.filter fun e ↦ e.id ≠ ""

def asListing (entries : List CatalogEntry) : List ModelEntry :=
  entries.map fun e ↦ { id := e.id, raw := e.raw }

theorem filterMap_parseItem (provider : ProviderKind) {entries : List CatalogEntry}
    (h : ∀ e ∈ entries, Served e.id e.raw) :
    (entries.map CatalogEntry.raw).filterMap (parseItem provider openaiId) =
      asListing (nameable entries) := by
  induction entries with
  | nil => rfl
  | cons e entries ih =>
      rcases h e List.mem_cons_self with ⟨map, hraw, hmap⟩
      have hitem : parseItem provider openaiId e.raw =
          if e.id = "" then none else some { id := e.id, raw := e.raw } := by
        rw [hraw]
        exact hmap.parseItem_eq provider
      have hrest := ih fun other hother ↦ h other (List.mem_cons_of_mem e hother)
      unfold asListing nameable at hrest ⊢
      rw [List.map_cons]
      by_cases hid : e.id = ""
      · rw [List.filterMap_cons_none (by rw [hitem, if_pos hid]), hrest,
          List.filter_cons_of_neg (by simpa using hid)]
      · rw [List.filterMap_cons_some (by rw [hitem, if_neg hid]), hrest,
          List.filter_cons_of_pos (by simpa using hid), List.map_cons]

/-- What one instance serves the next one reads. -/
theorem pollOnce_modelsHandler {registry : BackendRegistry} (h : Listed registry)
    {fromSlice : List UInt8 → Option Value} {body : List UInt8}
    (hbody : fromSlice body = some (modelsHandler registry)) {provider : ProviderKind}
    (hprovider : provider ≠ .ollama) :
    pollOnce fromSlice provider (.response 200 (some body)) =
      some (asListing (nameable registry.listedEntries)) := by
  have hparse : parseModels provider fromSlice body =
      .ok (asListing (nameable registry.listedEntries)) := by
    unfold parseModels
    rw [hbody, ← filterMap_parseItem provider h.entries]
    cases provider with
    | ollama => exact absurd rfl hprovider
    | _ => rfl
  show (if 200 ≤ 200 ∧ 200 < 300 then (parseModels provider fromSlice body).toOption else none) = _
  rw [if_pos (by decide), hparse]
  rfl

/-- Without overrides a backend's entries are its listing, as far as its filter lets it through. -/
theorem backendEntries_asListing {backend : Backend} (htypes : backend.modelTypes = [])
    {entries : List CatalogEntry} (hnodup : (entries.map CatalogEntry.id).Nodup) :
    backendEntries backend (asListing entries) =
      entries.filter fun e ↦ modelAllowed backend.modelFilter e.id := by
  have hentry : ∀ e : CatalogEntry,
      (⟨e.id, applyTypeOverride e.raw backend.modelTypes e.id⟩ : CatalogEntry) = e := by
    intro e
    rw [htypes]
    rfl
  have hmap : ((asListing entries).filter fun e ↦ modelAllowed backend.modelFilter e.id).map
      (fun e ↦ (⟨e.id, applyTypeOverride e.raw backend.modelTypes e.id⟩ : CatalogEntry)) =
        entries.filter fun e ↦ modelAllowed backend.modelFilter e.id := by
    unfold asListing
    rw [List.filter_map, List.map_map]
    conv_rhs => rw [← List.map_id (entries.filter _)]
    exact List.map_congr_left fun e _ ↦ hentry e
  show distinctBy CatalogEntry.id [] (List.map _ _) = _
  rw [hmap]
  exact distinctBy_eq_self (hnodup.sublist (List.filter_sublist.map _)) fun _ _ ↦
    List.not_mem_nil

/-- The task of the only backend has polled, and what it saw is its listing or nothing. -/
def Polled (w : Watchdog) (backend : Backend) (listing : List ModelEntry) : Prop :=
  w.registry.backends = [backend] ∧ w.registry.catalog.entries.length = 1 ∧
    (w.tasks 0 = some none ∨ ∃ shown, (shown = [] ∨ shown = listing) ∧
      w.tasks 0 = some (some (shown.map ModelEntry.id)) ∧
      w.registry.catalog.entries = [backendEntries backend shown])

/-- Two of the listings with the same ids are the same. -/
theorem eq_of_ids {listing shown seen : List ModelEntry} (hshown : shown = [] ∨ shown = listing)
    (hseen : seen = [] ∨ seen = listing)
    (hids : shown.map ModelEntry.id = seen.map ModelEntry.id) : shown = seen := by
  have hlength := congrArg List.length hids
  rw [List.length_map, List.length_map] at hlength
  cases hshown with
  | inl hnil =>
      rw [hnil] at hlength ⊢
      exact (List.length_eq_zero_iff.mp hlength.symm).symm
  | inr hshown =>
      cases hseen with
      | inl hnil =>
          rw [hnil] at hlength ⊢
          exact List.length_eq_zero_iff.mp hlength
      | inr hseen => exact hshown.trans hseen.symm

/-- After a poll it shows what the poll brought. -/
theorem Polled.step {w : Watchdog} {backend : Backend} {listing : List ModelEntry}
    (h : Polled w backend listing) (poll : Option (List ModelEntry))
    (hpoll : poll = none ∨ poll = some listing) :
    Polled (w.step (0, poll)) backend listing ∧
      (w.step (0, poll)).registry.catalog.entries = [backendEntries backend (poll.getD [])] := by
  rcases h with ⟨hbackends, hlength, htask⟩
  have hbackend : w.registry.backends[0]? = some backend := by
    rw [hbackends]
    rfl
  have hseen : poll.getD [] = [] ∨ poll.getD [] = listing := by
    rcases hpoll with rfl | rfl
    · exact Or.inl rfl
    · exact Or.inr rfl
  have hentries : (w.step (0, poll)).registry.backends = [backend] ∧
      (w.step (0, poll)).tasks 0 = some (some ((poll.getD []).map ModelEntry.id)) ∧
      (w.step (0, poll)).registry.catalog.entries = [backendEntries backend (poll.getD [])] := by
    rcases List.length_eq_one_iff.mp hlength with ⟨only, honly⟩
    have hset : w.registry.catalog.entries.set 0 (backendEntries backend (poll.getD [])) =
        [backendEntries backend (poll.getD [])] := by
      rw [honly, List.set_cons_zero]
    rcases htask with hfirst | ⟨shown, hshown, hlast, hshows⟩
    · have hstep := Watchdog.step_cases poll hfirst hbackend
      refine ⟨hstep.1.trans hbackends, ?_, ?_⟩
      · rw [hstep.2.1, Function.update_self]
      · rw [(hstep.2.2.2.resolve_right fun hsame ↦ by cases hsame.1).2, hset]
    · have hstep := Watchdog.step_cases poll hlast hbackend
      refine ⟨hstep.1.trans hbackends, ?_, ?_⟩
      · rw [hstep.2.1, Function.update_self]
      · cases hstep.2.2.2 with
        | inl hwritten => rw [hwritten.2, hset]
        | inr hkept =>
            -- the same ids, so the same listing as before
            rw [hkept.2, hshows, eq_of_ids hshown hseen (Option.some.inj hkept.1)]
  refine ⟨⟨hentries.1, ?_, Or.inr ⟨poll.getD [], hseen, hentries.2⟩⟩, hentries.2.2⟩
  rw [hentries.2.2]
  rfl

/-- An instance that polls its only backend. -/
def nextInstance (fromSlice : List UInt8 → Option Value) (start : BackendRegistry)
    (strategy : LbStrategy) (overloadFactor : Rat) (provider : ProviderKind) (secs : Nat)
    (responses : List PollResponse) : BackendRegistry :=
  (run Watchdog.step (spawnWatchdog (start.withLoadBalancing strategy overloadFactor) [some secs])
    (responses.map fun response ↦ (0, pollOnce fromSlice provider response))).registry

section Hop

variable {registry start : BackendRegistry} {fromSlice : List UInt8 → Option Value}
  {body : List UInt8} {backend : Backend} {models : List String} {routingMode : RoutingMode}

theorem polled_new (hnew : BackendRegistry.new [backend] [models] routingMode = some start)
    (strategy : LbStrategy) (overloadFactor : Rat) (secs : Nat) (listing : List ModelEntry) :
    Polled (spawnWatchdog (start.withLoadBalancing strategy overloadFactor) [some secs]) backend
      listing := by
  have hstart := (BackendRegistry.represents_new hnew).1
  have hpos : 0 < start.backends.length := by
    rw [hstart.backends_eq]
    exact Nat.one_pos
  exact ⟨hstart.backends_eq, hstart.entries_length, Or.inl (if_pos ⟨hpos, rfl⟩)⟩

/-- Once a poll of an instance was answered it lists what the other one lists and its own filter
lets through. -/
theorem nextInstance_listed (h : Listed registry)
    (hbody : fromSlice body = some (modelsHandler registry))
    (hprovider : backend.provider ≠ .ollama) (htypes : backend.modelTypes = [])
    (hnew : BackendRegistry.new [backend] [models] routingMode = some start)
    (strategy : LbStrategy) (overloadFactor : Rat) (secs : Nat) {earlier : List PollResponse}
    (hearlier : ∀ response ∈ earlier, response = .response 200 (some body) ∨
      pollOnce fromSlice backend.provider response = none) :
    let next := nextInstance fromSlice start strategy overloadFactor backend.provider secs
      (earlier ++ [.response 200 (some body)])
    Listed next ∧ next.listedEntries =
      (nameable registry.listedEntries).filter fun e ↦ modelAllowed backend.modelFilter e.id := by
  intro next
  have hpoll := pollOnce_modelsHandler h hbody hprovider
  have hnodup : ((nameable registry.listedEntries).map CatalogEntry.id).Nodup :=
    (distinctBy_keys_nodup [] _).sublist (List.filter_sublist.map _)
  have hlisted : next.catalog.entries =
      [(nameable registry.listedEntries).filter fun e ↦ modelAllowed backend.modelFilter e.id] := by
    let listing := asListing (nameable registry.listedEntries)
    -- the earlier polls failed or brought the same listing
    have hrun : Polled (run Watchdog.step
        (spawnWatchdog (start.withLoadBalancing strategy overloadFactor) [some secs])
        (earlier.map fun response ↦ (0, pollOnce fromSlice backend.provider response)))
        backend listing := by
      have halong : Along Watchdog.step (fun _ poll ↦ poll.1 = 0 ∧
          (poll.2 = none ∨ poll.2 = some listing))
          (spawnWatchdog (start.withLoadBalancing strategy overloadFactor) [some secs])
          (earlier.map fun response ↦ (0, pollOnce fromSlice backend.provider response)) := by
        apply along_of_forall
        intro poll hmem
        rcases List.mem_map.mp hmem with ⟨response, hresponse, rfl⟩
        rcases hearlier response hresponse with rfl | hfailed
        · exact ⟨rfl, Or.inr hpoll⟩
        · exact ⟨rfl, Or.inl hfailed⟩
      refine run_invariant_along halong (P := fun w : Watchdog ↦ Polled w backend listing)
        (polled_new hnew strategy overloadFactor secs listing) ?_
      rintro w ⟨idx, poll⟩ ⟨rfl, hpoll⟩ hpolled
      exact (hpolled.step poll hpoll).1
    have hlast := (hrun.step (some listing) (Or.inr rfl)).2
    show (run Watchdog.step _ (List.map _ (earlier ++ _))).registry.catalog.entries = _
    rw [List.map_append, List.map_singleton, run_concat, hpoll, hlast, Option.getD_some,
      backendEntries_asListing htypes hnodup]
  constructor
  · have hrun := listed_run
      (w := spawnWatchdog (start.withLoadBalancing strategy overloadFactor) [some secs])
      (listed_new hnew strategy overloadFactor) fromSlice
      ((earlier ++ [PollResponse.response 200 (some body)]).map fun response ↦
        (0, backend.provider, response))
    rw [List.map_map] at hrun
    exact hrun
  · unfold BackendRegistry.listedEntries
    rw [hlisted, List.flatten_singleton]
    exact distinctBy_eq_self (hnodup.sublist (List.filter_sublist.map _)) fun _ _ ↦
      List.not_mem_nil

end Hop

/-! ## Any number of hops -/

/-- The last instance polls one that polls ... that polls the first, each of them as its only
backend.  What the filters on the way let through is `allowed`.  A poll may have failed, but not
the latest one, and those that were answered had the same answer. -/
inductive Behind (fromSlice : List UInt8 → Option Value) (first : BackendRegistry) :
    BackendRegistry → (allowed : String → Bool) → Prop where
  | here : Behind fromSlice first first fun _ ↦ true
  | hop {last start : BackendRegistry} {allowed : String → Bool} {backend : Backend}
      {models : List String} {routingMode : RoutingMode} {body : List UInt8}
      {earlier : List PollResponse} (strategy : LbStrategy) (overloadFactor : Rat) (secs : Nat)
      (hlast : Behind fromSlice first last allowed)
      (hprovider : backend.provider ≠ .ollama) (htypes : backend.modelTypes = [])
      (hnew : BackendRegistry.new [backend] [models] routingMode = some start)
      (hbody : fromSlice body = some (modelsHandler last))
      (hearlier : ∀ response ∈ earlier, response = .response 200 (some body) ∨
        pollOnce fromSlice backend.provider response = none) :
      Behind fromSlice first
        (nextInstance fromSlice start strategy overloadFactor backend.provider secs
          (earlier ++ [.response 200 (some body)]))
        fun id ↦ allowed id && modelAllowed backend.modelFilter id

theorem Behind.listed {fromSlice : List UInt8 → Option Value} {first last : BackendRegistry}
    {allowed : String → Bool} (h : Behind fromSlice first last allowed) (hfirst : Listed first) :
    Listed last ∧ nameable last.listedEntries =
      (nameable first.listedEntries).filter fun e ↦ allowed e.id := by
  induction h with
  | here => exact ⟨hfirst, (List.filter_eq_self.mpr fun _ _ ↦ rfl).symm⟩
  | hop strategy overloadFactor secs hlast hprovider htypes hnew hbody hearlier ih =>
      have hnext := nextInstance_listed ih.1 hbody hprovider htypes hnew strategy overloadFactor
        secs hearlier
      refine ⟨hnext.1, ?_⟩
      rw [hnext.2, ih.2]
      unfold nameable
      rw [List.filter_filter, List.filter_filter, List.filter_filter, List.filter_filter]
      apply List.filter_congr
      intro e _
      cases decide (e.id ≠ "") <;> simp [Bool.and_comm]

/-- Whatever the first instance polled of its backends, through any number of instances the models
are served with the same objects and the same models are routed, as far as the filters on the way
let them through.  Only a configured model with an empty name is lost, and an instance in flat mode
routes any model. -/
theorem cascade {backends : List Backend} {staticModels : List (List String)}
    {routingMode : RoutingMode} {registry : BackendRegistry}
    (hnew : BackendRegistry.new backends staticModels routingMode = some registry)
    (strategy : LbStrategy) (overloadFactor : Rat) (modelsPollSecs : List (Option Nat))
    (fromSlice : List UInt8 → Option Value) (polls : List (Nat × ProviderKind × PollResponse)) :
    let start := spawnWatchdog (registry.withLoadBalancing strategy overloadFactor) modelsPollSecs
    let first := (run Watchdog.step start (polls.map fun poll ↦
      (poll.1, pollOnce fromSlice poll.2.1 poll.2.2))).registry
    ∀ last allowed, Behind fromSlice first last allowed →
      (last.listedEntries.filter fun e ↦ e.id ≠ "") =
        (first.listedEntries.filter fun e ↦ e.id ≠ "" ∧ allowed e.id = true) ∧
      ∀ model prefixHash, model ≠ "" →
        ((last.routeCandidates (some model) prefixHash).1.isOk = true ↔
          last.routingMode = .flatPassthrough ∨
            model ∈ first.listedEntries.map CatalogEntry.id ∧ allowed model = true) := by
  intro start first last allowed hbehind
  have hfirst : Listed first := listed_run (listed_new hnew strategy overloadFactor) fromSlice polls
  have hlast := hbehind.listed hfirst
  have hlisted : nameable last.listedEntries =
      first.listedEntries.filter fun e ↦ e.id ≠ "" ∧ allowed e.id = true := by
    rw [hlast.2]
    unfold nameable
    rw [List.filter_filter]
    apply List.filter_congr
    intro e _
    simp [and_comm]
  refine ⟨hlisted, fun model prefixHash hmodel ↦ ?_⟩
  rw [hlast.1.routes]
  apply or_congr_right
  have hnamed : model ∈ last.listedEntries.map CatalogEntry.id ↔
      model ∈ (nameable last.listedEntries).map CatalogEntry.id := by
    unfold nameable
    simp only [List.mem_map, List.mem_filter, decide_eq_true_eq]
    constructor
    · rintro ⟨e, he, rfl⟩
      exact ⟨e, ⟨he, hmodel⟩, rfl⟩
    · rintro ⟨e, he, rfl⟩
      exact ⟨e, he.1, rfl⟩
  rw [hnamed, hlisted]
  simp only [List.mem_map, List.mem_filter, decide_eq_true_eq]
  constructor
  · rintro ⟨e, ⟨he, -, hallowed⟩, rfl⟩
    exact ⟨⟨e, he, rfl⟩, hallowed⟩
  · rintro ⟨⟨e, he, rfl⟩, hallowed⟩
    exact ⟨e, ⟨he, hmodel, hallowed⟩, rfl⟩

/-- A configured model behind one hop, after a poll that failed, and one that the filter of the hop
does not let through. -/
theorem cascade_one_hop : ∃ registry start,
    BackendRegistry.new [polledBackend] [["m", "n", ""]] .catalog = some registry ∧
      BackendRegistry.new [⟨.llamaCpp, [], some ["m"]⟩] [[]] .catalog = some start ∧
      let body := modelsHandler (registry.withLoadBalancing .leastLoaded 2)
      let next := nextInstance (fun _ ↦ some body) start .roundRobin 1 .llamaCpp 30
        [.response 502 none, .response 200 (some [])]
      (next.routeCandidates (some "m") none).1.isOk = true ∧
        ¬ (next.routeCandidates (some "n") none).1.isOk = true := by
  refine ⟨_, _, rfl, rfl, ?_⟩
  intro body next
  have hfailed : ∀ response ∈ [PollResponse.response 502 none],
      response = .response 200 (some []) ∨
        pollOnce (fun _ ↦ some body) .llamaCpp response = none := by
    intro response hresponse
    rw [List.mem_singleton.mp hresponse]
    exact Or.inr rfl
  have hprovider : ProviderKind.llamaCpp ≠ .ollama := by decide
  have hbehind : Behind (fun _ ↦ some body) _ next
      (fun id ↦ true && modelAllowed (some ["m"]) id) :=
    @Behind.hop _ _ _ _ _ ⟨.llamaCpp, [], some ["m"]⟩ [] .catalog [] _ .roundRobin 1 30
      Behind.here hprovider rfl rfl rfl hfailed
  have hhop := (@cascade [polledBackend] [["m", "n", ""]] .catalog _ rfl .leastLoaded 2 [none]
    (fun _ ↦ some body) [] next _ hbehind).2
  have hmode : next.routingMode ≠ .flatPassthrough := by decide +kernel
  constructor
  · exact (hhop "m" none (by decide)).mpr (Or.inr ⟨by decide +kernel, by decide +kernel⟩)
  · rw [hhop "n" none (by decide)]
    rintro (hflat | ⟨-, hallowed⟩)
    · exact hmode hflat
    · exact absurd hallowed (by decide +kernel)

end TokenWeasel.Server
