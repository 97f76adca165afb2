import TokenWeasel.Config.Resolve

/-!
# What an accepted configuration is worth

Every check of the resolution as a fact about its result, and all of them about the configuration
that the server is started with.
-/

namespace TokenWeasel

namespace Config

open Library Backends Net

/-! ## Identifiers -/

theorem checkIdentifiers_ok {valid : String → Bool} {invalid duplicate : String → String}
    {seen ids : List String} :
    checkIdentifiers valid invalid duplicate seen ids = .ok () ↔
      (∀ id ∈ ids, valid id = true) ∧ ids.Nodup ∧ ∀ id ∈ ids, id ∉ seen := by
  induction ids generalizing seen with
  | nil =>
      unfold checkIdentifiers
      simp
  | cons id rest ih =>
      unfold checkIdentifiers
      by_cases hvalid : valid id = true
      · rw [if_neg (by simpa using hvalid)]
        by_cases hseen : id ∈ seen
        · rw [if_pos (by simpa using hseen)]
          constructor
          · intro h
            cases h
          · intro h
            exact absurd hseen (h.2.2 id List.mem_cons_self)
        · rw [if_neg (by simpa using hseen), ih, List.nodup_cons]
          constructor
          · intro h
            have hfresh : id ∉ rest := fun hmem ↦ h.2.2 id hmem List.mem_cons_self
            refine ⟨?_, ⟨hfresh, h.2.1⟩, ?_⟩
            · intro other hother
              cases List.mem_cons.mp hother with
              | inl heq => exact heq ▸ hvalid
              | inr hmem => exact h.1 other hmem
            · intro other hother
              cases List.mem_cons.mp hother with
              | inl heq => exact heq ▸ hseen
              | inr hmem => exact fun hold ↦ h.2.2 other hmem (List.mem_cons_of_mem id hold)
          · intro h
            refine ⟨fun other hother ↦ h.1 other (List.mem_cons_of_mem id hother), h.2.1.2, ?_⟩
            intro other hother hmem
            cases List.mem_cons.mp hmem with
            | inl heq => exact h.2.1.1 (heq ▸ hother)
            | inr hold => exact h.2.2 other (List.mem_cons_of_mem id hother) hold
      · rw [if_pos (by simpa using hvalid)]
        constructor
        · intro h
          cases h
        · intro h
          exact absurd (h.1 id List.mem_cons_self) hvalid

theorem resolveIdentifiers_ok {what : String} {valid default ids : List String}
    {configured : Option (List String)} (hdefault : (∀ id ∈ default, id ∈ valid) ∧ default.Nodup)
    (h : resolveIdentifiers what valid default configured = .ok ids) :
    (∀ id ∈ ids, id ∈ valid) ∧ ids.Nodup := by
  unfold resolveIdentifiers at h
  cases configured with
  | none =>
      cases h
      exact hdefault
  | some list =>
      rcases except_bind_eq_ok.mp h with ⟨_, hcheck, h⟩
      cases h
      have hlist := checkIdentifiers_ok.mp (except_mapError_eq_ok.mp hcheck)
      exact ⟨fun id hid ↦ List.contains_iff_mem.mp (hlist.1 id hid), hlist.2.1⟩

/-! ## Backends -/

structure BackendConfig.WellFormed (backend : BackendConfig) : Prop where
  gpuWatts_nonneg : 0 ≤ backend.gpuWatts
  poll_pos : ∀ secs ∈ backend.modelsPollSecs, 1 ≤ secs
  headers : ∀ header ∈ backend.extraHeaders, Proxy.Sendable header
  headers_nodup : (backend.extraHeaders.map Prod.fst).Nodup
  one_authorization : backend.apiKey ≠ none →
    ∀ header ∈ backend.extraHeaders, header.1 ≠ "authorization"
  filter : ∀ ids ∈ backend.modelFilter, ids ≠ [] ∧ ids.Nodup ∧ "" ∉ ids

theorem validateGpuWatts_ok {m : Machine} {value : F64} {watts : Rat}
    (h : validateGpuWatts m value = .ok watts) : 0 ≤ watts := by
  unfold validateGpuWatts at h
  cases value with
  | finite value =>
      dsimp only at h
      split at h
      · cases h
      · rename_i hnonneg
        cases h
        exact not_lt.mp hnonneg
  | infinite negative => cases h
  | nan => cases h

theorem checkModelFilter_ok {filter : Option (List String)}
    (h : checkModelFilter filter = .ok ()) :
    ∀ ids ∈ filter, ids ≠ [] ∧ ids.Nodup ∧ "" ∉ ids := by
  intro ids hids
  cases hids
  rcases except_bind_eq_ok.mp h with ⟨_, hne, h⟩
  have hcheck := checkIdentifiers_ok.mp h
  refine ⟨require_eq_ok.mp hne, hcheck.2.1, ?_⟩
  intro hmem
  exact absurd (hcheck.1 "" hmem) (by decide)

theorem resolveBackend_ok {m : Machine} {entry : BackendConfigFile} {backend : BackendConfig}
    (h : resolveBackend m entry = .ok backend) : backend.WellFormed := by
  unfold resolveBackend at h
  rcases except_bind_eq_ok.mp h with ⟨upstream, hupstream, h⟩
  rcases except_bind_eq_ok.mp h with ⟨_, hexclusive, h⟩
  rcases except_bind_eq_ok.mp h with ⟨apiKey, hapiKey, h⟩
  rcases except_bind_eq_ok.mp h with ⟨gpuWatts, hgpuWatts, h⟩
  rcases except_bind_eq_ok.mp h with ⟨_, hpoll, h⟩
  rcases except_bind_eq_ok.mp h with ⟨_, hmodels, h⟩
  rcases except_bind_eq_ok.mp h with ⟨extraHeaders, hheaders, h⟩
  rcases except_bind_eq_ok.mp h with ⟨_, hauthorization, h⟩
  rcases except_bind_eq_ok.mp h with ⟨_, hfilter, h⟩
  cases h
  have hresolved := Proxy.resolveBackendHeaders_ok (except_mapError_eq_ok.mp hheaders)
  exact {
    gpuWatts_nonneg := validateGpuWatts_ok hgpuWatts
    poll_pos := require_eq_ok.mp hpoll
    headers := hresolved.1
    headers_nodup := hresolved.2
    one_authorization := (require_eq_ok.mp hauthorization).resolve_left
    filter := checkModelFilter_ok hfilter }

theorem resolveBackends_eq_ok {m : Machine} {entries : List BackendConfigFile}
    {backends : List BackendConfig} :
    resolveBackends m entries = .ok backends ↔
      entries ≠ [] ∧ List.Forall₂ (fun entry backend ↦ resolveBackend m entry = .ok backend)
        entries backends := by
  unfold resolveBackends
  rw [except_bind_eq_ok]
  simp only [require_eq_ok, collect_eq_ok]
  have hforall : ∀ (entries : List BackendConfigFile) (backends : List BackendConfig) (i : Nat),
      entries.mapIdx (fun j ↦ resolveBackendAt m (i + j)) = backends.map Except.ok ↔
        List.Forall₂ (fun entry backend ↦ resolveBackend m entry = .ok backend)
          entries backends := by
    intro entries
    induction entries with
    | nil =>
        intro backends i
        cases backends <;> simp
    | cons entry entries ih =>
        intro backends i
        cases backends with
        | nil => simp
        | cons backend backends =>
            rw [List.mapIdx_cons, List.map_cons, List.cons.injEq, List.forall₂_cons]
            have hrest := ih backends (i + 1)
            simp only [Nat.add_right_comm, Nat.add_assoc] at hrest ⊢
            rw [hrest]
            unfold resolveBackendAt
            rw [except_mapError_eq_ok]
  have hall := hforall entries backends 0
  simp only [Nat.zero_add] at hall
  rw [← hall]
  constructor
  · intro h
    rcases h with ⟨_, hne, h⟩
    exact ⟨hne, h⟩
  · intro h
    exact ⟨(), h.1, h.2⟩

/-! ## Single settings -/

theorem validateMaxConcurrency_ok {value n : Nat} {source : String}
    (h : validateMaxConcurrency value source = .ok n) : 1 ≤ n ∧ n ≤ maxConcurrencyLimit := by
  rcases except_bind_eq_ok.mp h with ⟨_, hrange, h⟩
  cases h
  exact require_eq_ok.mp hrange

theorem resolveMaxConcurrency_ok {m : Machine} {cliMax cfgMax : Option Nat} {n : Nat}
    (h : resolveMaxConcurrency m cliMax cfgMax = .ok n) : 1 ≤ n ∧ n ≤ maxConcurrencyLimit := by
  unfold resolveMaxConcurrency at h
  split at h
  · exact validateMaxConcurrency_ok h
  · split at h
    · split at h
      · exact validateMaxConcurrency_ok h
      · cases h
    · cases h
    · split at h
      · exact validateMaxConcurrency_ok h
      · cases h
        decide

theorem resolveFairQueue_ok {cfg : Option ConfigFile} {fairQueue : FairQueueConfig}
    (h : resolveFairQueue cfg = .ok fairQueue) : 0 < fairQueue.windowSeconds := by
  rcases except_bind_eq_ok.mp h with ⟨_, hwindow, h⟩
  cases h
  exact Nat.pos_of_ne_zero (require_eq_ok.mp hwindow)

theorem resolveRetentionDays_ok {cfg : Option ConfigFile} {days : Nat}
    (h : resolveRetentionDays cfg = .ok days) : days * secondsPerDay ≤ i64Max := by
  rcases except_bind_eq_ok.mp h with ⟨_, hdays, h⟩
  cases h
  exact require_eq_ok.mp hdays

theorem resolveMetricsToken_ok {m : Machine} {cfg : Option ConfigFile} {token : Option String}
    (h : resolveMetricsToken m cfg = .ok token) : ∀ t ∈ token, 16 ≤ t.utf8ByteSize := by
  rcases except_bind_eq_ok.mp h with ⟨_, hlength, h⟩
  cases h
  exact require_eq_ok.mp hlength

theorem resolveGpuWatts_ok {m : Machine} {cfg : Option ConfigFile} {watts : Rat}
    (h : resolveGpuWatts m cfg = .ok watts) : 0 ≤ watts := by
  unfold resolveGpuWatts at h
  split at h
  · cases h
    exact le_refl 0
  · exact validateGpuWatts_ok (except_mapError_eq_ok.mp h)

theorem resolveLoadBalancing_ok {m : Machine} {cfg : Option ConfigFile} {lb : LoadBalancing}
    (h : resolveLoadBalancing m cfg = .ok lb) : 1 ≤ lb.overloadFactor := by
  unfold resolveLoadBalancing at h
  split at h
  · cases h
    show (1 : Rat) ≤ 5 / 4
    decide +kernel
  · dsimp only at h
    split at h
    · split at h
      · cases h
      · rename_i hfactor
        cases h
        exact not_lt.mp hfactor
    · cases h

structure DashboardConfig.WellFormed (dashboard : DashboardConfig) : Prop where
  cards : (∀ card ∈ dashboard.cards, card ∈ validCards) ∧ dashboard.cards.Nodup
  graphs : (∀ graph ∈ dashboard.graphs, graph ∈ validGraphs) ∧ dashboard.graphs.Nodup
  maxRows : ∀ rows ∈ dashboard.maxRows, 1 ≤ rows

theorem default_cards : (∀ card ∈ ({} : DashboardConfig).cards, card ∈ validCards) ∧
    ({} : DashboardConfig).cards.Nodup := by decide

theorem default_graphs : (∀ graph ∈ ({} : DashboardConfig).graphs, graph ∈ validGraphs) ∧
    ({} : DashboardConfig).graphs.Nodup := by decide

theorem resolveDashboard_ok {cfg : Option ConfigFile} {dashboard : DashboardConfig}
    (h : resolveDashboard cfg = .ok dashboard) : dashboard.WellFormed := by
  unfold resolveDashboard at h
  split at h
  · cases h
    exact ⟨default_cards, default_graphs, fun _ hrows ↦ by cases hrows⟩
  · rcases except_bind_eq_ok.mp h with ⟨cards, hcards, h⟩
    rcases except_bind_eq_ok.mp h with ⟨graphs, hgraphs, h⟩
    rcases except_bind_eq_ok.mp h with ⟨_, hrows, h⟩
    rcases except_bind_eq_ok.mp h with ⟨trustedProxies, -, h⟩
    cases h
    exact {
      cards := resolveIdentifiers_ok default_cards hcards
      graphs := resolveIdentifiers_ok default_graphs hgraphs
      maxRows := require_eq_ok.mp hrows }

structure TlsConfig.WellFormed (m : Machine) (tls : TlsConfig) : Prop where
  hostnames_ne_nil : tls.hostnames ≠ []
  named : tls.enabled = true → tls.certPath ≠ "" ∧ tls.keyPath ≠ "" ∧ "" ∉ tls.hostnames
  /-- What is checked again when the certificate is loaded. -/
  distinct : tls.validateDistinctPaths m = .ok ()

theorem resolveTls_ok {m : Machine} {cliTls : Option Bool} {cliCert cliKey : Option String}
    {cfg : Option TlsConfigFile} {tls : TlsConfig}
    (h : resolveTls m cliTls cliCert cliKey cfg = .ok tls) : tls.WellFormed m := by
  rcases except_bind_eq_ok.mp h with ⟨enabled, -, h⟩
  rcases except_bind_eq_ok.mp h with ⟨_, hcert, h⟩
  rcases except_bind_eq_ok.mp h with ⟨_, hkey, h⟩
  rcases except_bind_eq_ok.mp h with ⟨_, hhostnames, h⟩
  rcases except_bind_eq_ok.mp h with ⟨_, hdistinct, h⟩
  cases h
  exact {
    hostnames_ne_nil := by
      show ((cfg.bind TlsConfigFile.hostnames).filter (· ≠ [])).getD ["localhost"] ≠ []
      cases hfilter : (cfg.bind TlsConfigFile.hostnames).filter (· ≠ []) with
      | none => decide
      | some hostnames =>
          have hne := (Option.filter_eq_some_iff.mp hfilter).2
          exact of_decide_eq_true hne
    named := fun henabled ↦ ⟨require_eq_ok.mp hcert henabled, require_eq_ok.mp hkey henabled,
      require_eq_ok.mp hhostnames henabled⟩
    distinct := hdistinct }

/-- Only a password that is not empty is configured. -/
theorem resolveDashboardAuth_ne_empty (m : Machine) (cfg : Option ConfigFile) :
    ∀ auth ∈ resolveDashboardAuth m cfg, auth.2 ≠ "" := by
  intro auth hauth
  unfold resolveDashboardAuth at hauth
  rcases Option.map_eq_some_iff.mp hauth with ⟨password, hpassword, rfl⟩
  exact of_decide_eq_true (Option.filter_eq_some_iff.mp hpassword).2

end Config

/-! ## The whole configuration -/

open Config Library

structure Config.WellFormed (m : Machine) (config : Config) : Prop where
  maxConcurrency : 1 ≤ config.maxConcurrency ∧ config.maxConcurrency ≤ maxConcurrencyLimit
  window_pos : 0 < config.fairQueue.windowSeconds
  retention : config.retentionDays * secondsPerDay ≤ i64Max
  overloadFactor : 1 ≤ config.loadBalancing.overloadFactor
  backends : ∀ backend ∈ config.backends, backend.WellFormed
  first : ∀ backend ∈ config.backends.head?, config.upstream = backend.upstream ∧
    config.gpuWatts = backend.gpuWatts
  flat : config.flatPassthrough = true →
    config.backends = [flatBackend config.upstream config.gpuWatts]
  dashboard : config.dashboard.WellFormed
  tls : config.tls.WellFormed m
  metricsToken : ∀ token ∈ config.metricsToken, 16 ≤ token.utf8ByteSize
  dashboardAuth : ∀ auth ∈ config.dashboardAuth, auth.2 ≠ ""

theorem Config.flatBackend_wellFormed (upstream : String) {gpuWatts : Rat} (h : 0 ≤ gpuWatts) :
    (flatBackend upstream gpuWatts).WellFormed where
  gpuWatts_nonneg := h
  poll_pos := by
    intro secs hsecs
    cases hsecs
    decide
  headers := fun _ hheader ↦ absurd hheader List.not_mem_nil
  headers_nodup := List.nodup_nil
  one_authorization := fun hkey ↦ absurd rfl hkey
  filter := fun _ hfilter ↦ by cases hfilter

theorem Config.resolveRest_ok {m : Machine} {cli : Cli} {cfg : Option ConfigFile}
    {retentionDays : Nat} {first : BackendConfig} {others : List BackendConfig}
    {flatPassthrough : Bool} {config : Config}
    (hretention : retentionDays * secondsPerDay ≤ i64Max)
    (hbackends : ∀ backend ∈ first :: others, backend.WellFormed)
    (hflat : flatPassthrough = true →
      first :: others = [flatBackend first.upstream first.gpuWatts])
    (h : resolveRest m cli cfg retentionDays first others flatPassthrough = .ok config) :
    config.WellFormed m := by
  rcases except_bind_eq_ok.mp h with ⟨loadBalancing, hloadBalancing, h⟩
  rcases except_bind_eq_ok.mp h with ⟨dashboard, hdashboard, h⟩
  rcases except_bind_eq_ok.mp h with ⟨maxConcurrency, hmaxConcurrency, h⟩
  rcases except_bind_eq_ok.mp h with ⟨tls, htls, h⟩
  rcases except_bind_eq_ok.mp h with ⟨fairQueue, hfairQueue, h⟩
  rcases except_bind_eq_ok.mp h with ⟨metricsToken, hmetricsToken, h⟩
  cases h
  exact {
    maxConcurrency := resolveMaxConcurrency_ok hmaxConcurrency
    window_pos := resolveFairQueue_ok hfairQueue
    retention := hretention
    overloadFactor := resolveLoadBalancing_ok hloadBalancing
    backends := hbackends
    first := by
      intro backend hbackend
      cases hbackend
      exact ⟨rfl, rfl⟩
    flat := hflat
    dashboard := resolveDashboard_ok hdashboard
    tls := resolveTls_ok htls
    metricsToken := resolveMetricsToken_ok hmetricsToken
    dashboardAuth := resolveDashboardAuth_ne_empty m cfg }

theorem Config.resolveMode_ok {m : Machine} {cli : Cli} {cfg : Option ConfigFile}
    {config : Config} (h : resolveMode m cli cfg = .ok config) : config.WellFormed m := by
  rcases except_bind_eq_ok.mp h with ⟨retentionDays, hretentionDays, h⟩
  rcases except_bind_eq_ok.mp h with ⟨_, -, h⟩
  have hretention := resolveRetentionDays_ok hretentionDays
  split at h
  · rename_i entries hentries
    rcases except_bind_eq_ok.mp h with ⟨_, -, h⟩
    rcases except_bind_eq_ok.mp h with ⟨_, -, h⟩
    rcases except_bind_eq_ok.mp h with ⟨backends, hbackends, h⟩
    have hforall := (resolveBackends_eq_ok.mp hbackends).2
    have hall : ∀ backend ∈ backends, backend.WellFormed := by
      intro backend hbackend
      rcases List.forall₂_iff_zip.mp hforall with ⟨hlength, hzip⟩
      rcases List.mem_iff_getElem.mp hbackend with ⟨i, hi, rfl⟩
      have hentry : (entries[i], backends[i]) ∈ entries.zip backends := by
        rw [← List.getElem_zip (h := by rw [List.length_zip]; omega)]
        exact List.getElem_mem _
      exact resolveBackend_ok (hzip hentry)
    cases backends with
    | nil => cases h
    | cons first others =>
        exact resolveRest_ok hretention hall (fun hflat ↦ by cases hflat) h
  · rcases except_bind_eq_ok.mp h with ⟨gpuWatts, hgpuWatts, h⟩
    rcases except_bind_eq_ok.mp h with ⟨upstream, -, h⟩
    apply resolveRest_ok hretention _ (fun _ ↦ rfl) h
    intro backend hbackend
    rw [List.mem_singleton.mp hbackend]
    exact flatBackend_wellFormed upstream (resolveGpuWatts_ok hgpuWatts)

theorem Config.resolve_ok {m : Machine} {cli : Cli} {config : Config}
    (h : resolve m cli = .ok config) : config.WellFormed m := by
  rcases except_bind_eq_ok.mp h with ⟨cfg, -, h⟩
  exact resolveMode_ok h

end TokenWeasel
