import TokenWeasel.Config.TlsPaths

/-!
# Resolving the configuration (`Config::resolve` in `twl-config/src/config.rs`)

Command line over environment over file over defaults, setting by setting, and every check in the
order in which its error would be the one that is reported.
-/

namespace TokenWeasel

namespace Config

open Library Backends Net

/-! ## Single settings -/

/-- `str::parse::<usize>`. -/
def parseUsize (text : List Char) : Option Nat :=
  let digits := match text with
    | '+' :: digits => digits
    | digits => digits
  if digits ≠ [] ∧ digits.all (isDigit 10) then
    (some (numeralValue 10 0 digits)).filter (· < 2 ^ 64)
  else none

def resolveFairQueue (cfg : Option ConfigFile) : Except ConfigError FairQueueConfig := do
  let file := cfg.bind ConfigFile.fairQueue
  let windowSeconds := (file.bind FairQueueConfigFile.windowSeconds).getD (30 * 60)
  require (windowSeconds ≠ 0)
    (.validation "fair_queue.window_seconds must be greater than zero")
  .ok {
    enabled := (file.bind FairQueueConfigFile.enabled).getD false
    windowSeconds := windowSeconds }

def secondsPerDay : Int := 86400

def resolveRetentionDays (cfg : Option ConfigFile) : Except ConfigError Nat := do
  let days := (cfg.bind ConfigFile.retentionDays).getD 90
  require (days * secondsPerDay ≤ i64Max)
    (.validation s!"retention_days must be at most {i64Max / secondsPerDay}")
  .ok days

/-- `None` falls back to an implicit, optional `config.json`. -/
def resolveConfigPath (m : Machine) (cliConfig : Option String) : Option String :=
  cliConfig.or (m.env "CONFIG_PATH").ok

def loadConfigFile (m : Machine) (path : String) : Except ConfigError ConfigFile :=
  (m.loadConfigFile path).mapError fun message ↦ .configFile path message

/-- The file layer, if there is one. -/
def resolveConfigFile (m : Machine) (cliConfig : Option String) :
    Except ConfigError (Option ConfigFile) :=
  match resolveConfigPath m cliConfig with
  | some path => (loadConfigFile m path).map some
  | none =>
    if m.hasConfigJson then (loadConfigFile m "config.json").map some
    else .ok none

def resolveString (m : Machine) (cli : Option String) (envName : String) (cfg : Option String)
    (default : String) : String :=
  ((cli.or (m.env envName).ok).or cfg).getD default

def validateMaxConcurrency (value : Nat) (source : String) : Except ConfigError Nat := do
  require (1 ≤ value ∧ value ≤ maxConcurrencyLimit)
    (.validation s!"max_concurrency from {source} must be between 1 and {maxConcurrencyLimit}")
  .ok value

/-- Only an absent variable falls through to the file. -/
def resolveMaxConcurrency (m : Machine) (cliMax cfgMax : Option Nat) : Except ConfigError Nat :=
  match cliMax with
  | some value => validateMaxConcurrency value "CLI"
  | none =>
    match m.env "MAX_CONCURRENCY" with
    | .present raw =>
      match parseUsize raw.toList with
      | some value => validateMaxConcurrency value "MAX_CONCURRENCY"
      | none => .error (.validation
          s!"MAX_CONCURRENCY must be an integer between 1 and {maxConcurrencyLimit}")
    | .notUnicode => .error (.validation
        s!"MAX_CONCURRENCY must be valid Unicode and an integer between 1 and {maxConcurrencyLimit}")
    | .notPresent =>
      match cfgMax with
      | some value => validateMaxConcurrency value "config file"
      | none => .ok 32

/-- `str::trim_end_matches('/')`. -/
def trimEndSlashes (path : String) : String :=
  String.ofList (path.toList.reverse.dropWhile (· = '/')).reverse

/-- An upstream is a base URL: endpoint paths are appended to it. -/
def validateUpstream (m : Machine) (upstream : String) : Except String String :=
  match m.parseUrl upstream with
  | .error error => .error s!"upstream must be a valid absolute URL: {error}"
  | .ok parsed => do
    require (parsed.scheme = "http" ∨ parsed.scheme = "https")
      "upstream URL scheme must be http or https"
    require (parsed.hostStr ≠ none) "upstream URL must include a host"
    require (parsed.query = none ∧ parsed.fragment = none)
      "upstream URL must not include a query string or fragment"
    .ok (parsed.beforePath ++ trimEndSlashes parsed.path)

def resolveUpstream (m : Machine) (cliUpstream configUpstream : Option String) :
    Except ConfigError String :=
  (validateUpstream m
    (resolveString m cliUpstream "UPSTREAM_URL" configUpstream "http://127.0.0.1:8080")).mapError
      .validation

/-- An IPv6 address is put in brackets. -/
def hostPort (host : String) (port : UInt16) : String :=
  let host := if host.toList.contains ':' ∧ host.toList.head? ≠ some '[' then "[" ++ host ++ "]"
    else host
  host ++ ":" ++ toString port.toNat

/-- Any host or port on the command line makes `BIND_ADDR` be ignored entirely. -/
def resolveBind (m : Machine) (cliHost : Option String) (cliPort : Option UInt16)
    (cfgHost : Option String) (cfgPort : Option UInt16) : String :=
  let components := hostPort ((cliHost.or cfgHost).getD "127.0.0.1") ((cliPort.or cfgPort).getD 3000)
  if cliHost.isSome ∨ cliPort.isSome then components
  else
    match (m.env "BIND_ADDR").ok.filter (· ≠ "") with
    | some bindAddr => bindAddr
    | none => components

/-- `None` without a password that is not empty. -/
def resolveDashboardAuth (m : Machine) (cfg : Option ConfigFile) : Option (String × String) :=
  let user := ((m.env "DASHBOARD_USER").ok.or (cfg.bind ConfigFile.dashboardUser)).getD "admin"
  let password := (m.env "DASHBOARD_PASSWORD").ok.or (cfg.bind ConfigFile.dashboardPassword)
  (password.filter (· ≠ "")).map fun password ↦ (user, password)

/-- An empty token counts as unset. -/
def resolveMetricsToken (m : Machine) (cfg : Option ConfigFile) :
    Except ConfigError (Option String) := do
  let token := ((m.env "METRICS_TOKEN").ok.or (cfg.bind ConfigFile.metricsToken)).filter (· ≠ "")
  require (∀ t ∈ token, 16 ≤ t.utf8ByteSize)
    (.validation "metrics_token must be at least 16 characters")
  .ok token

def validateGpuWatts (m : Machine) (value : F64) : Except String Rat :=
  match value with
  | .finite watts =>
    if watts < 0 then .error s!"gpu_watts must be finite and non-negative, got {m.displayF64 value}"
    else .ok watts
  | _ => .error s!"gpu_watts must be finite and non-negative, got {m.displayF64 value}"

def resolveGpuWatts (m : Machine) (cfg : Option ConfigFile) : Except ConfigError Rat :=
  match cfg.bind ConfigFile.gpuWatts with
  | none => .ok 0
  | some value => (validateGpuWatts m value).mapError .validation

def resolveLoadBalancing (m : Machine) (cfg : Option ConfigFile) :
    Except ConfigError LoadBalancing :=
  match cfg.bind ConfigFile.loadBalancing with
  | none => .ok {}
  | some lb =>
    let overloadFactor := lb.overloadFactor.getD (.finite (5 / 4))
    let refused : Except ConfigError LoadBalancing := .error (.validation
      s!"load_balancing.overload_factor must be finite and >= 1.0, got {m.displayF64 overloadFactor}")
    match overloadFactor with
    | .finite factor =>
      if factor < 1 then refused
      else .ok { strategy := lb.strategy.getD .leastLoaded, overloadFactor := factor }
    | _ => refused

/-- One identifier after the other: it has to be valid, and must not have come before. -/
def checkIdentifiers (valid : String → Bool) (invalid duplicate : String → String) :
    List String → List String → Except String Unit
  | _, [] => .ok ()
  | seen, id :: rest =>
    if ¬ valid id then .error (invalid id)
    else if seen.contains id then .error (duplicate id)
    else checkIdentifiers valid invalid duplicate (id :: seen) rest

def validCards : List String := ["cost", "energy", "tokens", "requests", "io", "cache_hit"]

def validGraphs : List String := ["today", "over_time"]

/-- The identifiers of `what` that are configured, or the default ones. -/
def resolveIdentifiers (what : String) (valid default : List String)
    (configured : Option (List String)) : Except ConfigError (List String) :=
  match configured with
  | none => .ok default
  | some list => do
    let _ ← (checkIdentifiers valid.contains
      (fun id ↦ s!"invalid dashboard {what} identifier: '{id}'")
      (fun id ↦ s!"duplicate dashboard {what} identifier: '{id}'") [] list).mapError .validation
    .ok list

def resolveTrustedProxy (raw : String) : Except ConfigError IpAddr :=
  match IpAddr.parse raw.toList with
  | some ip => .ok ip
  | none => .error (.validation
      s!"dashboard.trusted_proxies contains invalid IP address: '{raw}'")

def resolveDashboard (cfg : Option ConfigFile) : Except ConfigError DashboardConfig :=
  match cfg.bind ConfigFile.dashboard with
  | none => .ok {}
  | some d => do
    let cards ← resolveIdentifiers "card" validCards ({} : DashboardConfig).cards d.cards
    let graphs ← resolveIdentifiers "graph" validGraphs ({} : DashboardConfig).graphs d.graphs
    require (∀ v ∈ d.maxRows, 1 ≤ v)
      (.validation s!"dashboard.max_rows must be at least 1, got {d.maxRows.getD 0}")
    let trustedProxies ← collect ((d.trustedProxies.getD []).map resolveTrustedProxy)
    .ok { cards := cards, graphs := graphs, maxRows := d.maxRows, trustedProxies := trustedProxies }

/-- No letter beyond ASCII has one of these words' letters as its lower case. -/
def resolveTlsEnabled (m : Machine) (cliTls : Option Bool) (cfg : Option TlsConfigFile) :
    Except ConfigError Bool :=
  match cliTls with
  | some enabled => .ok enabled
  | none =>
    match (m.env "TLS_ENABLED").ok with
    | some value =>
      let low := String.ofList (Text.toAsciiLowercase value.toList)
      if low = "true" ∨ low = "1" then .ok true
      else if low = "false" ∨ low = "0" then .ok false
      else .error (.validation "TLS_ENABLED must be true or false")
    | none => .ok ((cfg.bind TlsConfigFile.enabled).getD true)

def resolveTls (m : Machine) (cliTls : Option Bool) (cliCert cliKey : Option String)
    (cfg : Option TlsConfigFile) : Except ConfigError TlsConfig := do
  let enabled ← resolveTlsEnabled m cliTls cfg
  let certPath := resolveString m cliCert "TLS_CERT_PATH" (cfg.bind TlsConfigFile.certPath)
    "tls/cert.pem"
  let keyPath := resolveString m cliKey "TLS_KEY_PATH" (cfg.bind TlsConfigFile.keyPath)
    "tls/key.pem"
  let hostnames := ((cfg.bind TlsConfigFile.hostnames).filter (· ≠ [])).getD ["localhost"]
  require (enabled → certPath ≠ "") (.validation "TLS is enabled but cert_path is empty")
  require (enabled → keyPath ≠ "") (.validation "TLS is enabled but key_path is empty")
  require (enabled → "" ∉ hostnames) (.validation "TLS hostname entry must not be empty")
  let tls : TlsConfig :=
    { enabled := enabled, certPath := certPath, keyPath := keyPath, hostnames := hostnames }
  let _ ← tls.validateDistinctPaths m
  .ok tls

/-! ## Backends -/

def headerMessage (m : Machine) : Proxy.ConfigError → String
  | .invalidHeaderName name => s!"invalid HTTP header name: {m.debugStr name}"
  | .invalidHeaderValue name =>
    s!"invalid HTTP header value for {name}: contains bytes not permitted in a header value"
  | .duplicateHeaderName name =>
    s!"duplicate HTTP header name (case-insensitive): {m.debugStr name}"
  | .authorizationCombined =>
    "authorization header cannot be combined with api_key or api_key_env"

def resolveApiKey (m : Machine) (entry : BackendConfigFile) : Except String (Option String) :=
  match entry.apiKey, entry.apiKeyEnv with
  | some key, _ => .ok (some key)
  | none, none => .ok none
  | none, some envName =>
    match (m.env envName).ok with
    | some value =>
      if value = "" then .error s!"api_key_env env var \"{envName}\" is empty"
      else .ok (some value)
    | none => .error s!"api_key_env env var \"{envName}\" is not set"

def requireUpstream (m : Machine) (upstream : Option String) : Except String String :=
  match upstream with
  | some upstream => validateUpstream m upstream
  | none => .error "upstream is required"

def checkModelFilter (filter : Option (List String)) : Except String Unit :=
  match filter with
  | none => .ok ()
  | some ids => do
    require (ids ≠ []) "model_filter must not be empty"
    checkIdentifiers (· ≠ "") (fun _ ↦ "model_filter entries must not be empty")
      (fun id ↦ s!"duplicate model_filter entry: '{id}'") [] ids

/-- One entry of the `backends` array, with its messages behind the index. -/
def resolveBackend (m : Machine) (entry : BackendConfigFile) : Except String BackendConfig := do
  let upstream ← requireUpstream m entry.upstream
  require (entry.apiKey = none ∨ entry.apiKeyEnv = none)
    "api_key and api_key_env are mutually exclusive"
  let apiKey ← resolveApiKey m entry
  let gpuWatts ← validateGpuWatts m (entry.gpuWatts.getD (.finite 0))
  require (∀ v ∈ entry.modelsPollSecs, 1 ≤ v)
    s!"models_poll_secs must be >= 1, got {entry.modelsPollSecs.getD 0}"
  require (entry.models ≠ none ∨ entry.modelsPollSecs ≠ none)
    "each backend must have at least one of models or models_poll_secs"
  let extraHeaders ←
    (Proxy.resolveBackendHeaders (entry.headers.getD [])).mapError (headerMessage m)
  require (apiKey = none ∨ ∀ header ∈ extraHeaders, header.1 ≠ "authorization")
    (headerMessage m .authorizationCombined)
  let _ ← checkModelFilter entry.modelFilter
  .ok {
    upstream := upstream
    provider := entry.provider.getD .llamaCpp
    apiKey := apiKey
    extraHeaders := extraHeaders
    models := entry.models.getD []
    modelsPollSecs := entry.modelsPollSecs
    gpuWatts := gpuWatts
    modelTypes := entry.modelTypes.getD []
    modelFilter := entry.modelFilter }

def resolveBackendAt (m : Machine) (i : Nat) (entry : BackendConfigFile) :
    Except ConfigError BackendConfig :=
  (resolveBackend m entry).mapError fun message ↦ .validation s!"backend[{i}]: {message}"

def resolveBackends (m : Machine) (entries : List BackendConfigFile) :
    Except ConfigError (List BackendConfig) := do
  require (entries ≠ []) (.validation "backends array must not be empty")
  collect (entries.mapIdx (resolveBackendAt m))

end Config

/-! ## The whole configuration -/

open Config Library

/-- The one backend of flat mode. -/
def Config.flatBackend (upstream : String) (gpuWatts : Rat) : BackendConfig where
  upstream := upstream
  provider := .llamaCpp
  apiKey := none
  extraHeaders := []
  models := []
  modelsPollSecs := some 30
  gpuWatts := gpuWatts
  modelTypes := []
  modelFilter := none

/-- What the two modes have in common, behind their backends. -/
def Config.resolveRest (m : Machine) (cli : Cli) (cfg : Option ConfigFile) (retentionDays : Nat)
    (first : BackendConfig) (others : List BackendConfig) (flatPassthrough : Bool) :
    Except ConfigError Config := do
  let loadBalancing ← resolveLoadBalancing m cfg
  let dashboard ← resolveDashboard cfg
  let maxConcurrency ←
    resolveMaxConcurrency m cli.maxConcurrency (cfg.bind ConfigFile.maxConcurrency)
  let tls ← resolveTls m cli.tls cli.tlsCert cli.tlsKey (cfg.bind ConfigFile.tls)
  let fairQueue ← resolveFairQueue cfg
  let metricsToken ← resolveMetricsToken m cfg
  .ok {
    bind := resolveBind m cli.host cli.port (cfg.bind ConfigFile.host) (cfg.bind ConfigFile.port)
    upstream := first.upstream
    dbPath := resolveString m cli.db "DB_PATH" (cfg.bind ConfigFile.dbPath) "proxydb.db"
    pricing := ((cfg.bind ConfigFile.pricing).map Pricing.sanitized).getD {}
    maxConcurrency := maxConcurrency
    gpuWatts := first.gpuWatts
    backends := first :: others
    backends_ne_nil := List.cons_ne_nil first others
    flatPassthrough := flatPassthrough
    dashboardAuth := resolveDashboardAuth m cfg
    publicUsage := (cfg.bind ConfigFile.publicUsage).getD false
    requireApiKey := (cfg.bind ConfigFile.requireApiKey).getD true
    loadBalancing := loadBalancing
    fairQueue := fairQueue
    dashboard := dashboard
    retentionDays := retentionDays
    tls := tls
    metricsToken := metricsToken }

/-- A `backends` array selects the backends mode, which rejects an upstream from any source. -/
def Config.resolveBackendsMode (m : Machine) (cli : Cli) (cfg : Option ConfigFile)
    (entries : List BackendConfigFile) (retentionDays : Nat) : Except ConfigError Config := do
  require (cli.upstream = none)
    (.validation "the --upstream flag is not supported when a backends array is configured")
  require ((m.env "UPSTREAM_URL").ok = none)
    (.validation "UPSTREAM_URL env var is not supported when a backends array is configured")
  match ← resolveBackends m entries with
  | first :: others => resolveRest m cli cfg retentionDays first others false
  -- `backends[0]`: the array is not empty
  | [] => .error (.validation "backends array must not be empty")

def Config.resolveFlatMode (m : Machine) (cli : Cli) (cfg : Option ConfigFile)
    (retentionDays : Nat) : Except ConfigError Config := do
  let gpuWatts ← resolveGpuWatts m cfg
  let upstream ← resolveUpstream m cli.upstream (cfg.bind ConfigFile.upstream)
  resolveRest m cli cfg retentionDays (flatBackend upstream gpuWatts) [] true

/-- The mode that the file selects. -/
def Config.resolveMode (m : Machine) (cli : Cli) (cfg : Option ConfigFile) :
    Except ConfigError Config := do
  let retentionDays ← resolveRetentionDays cfg
  require (cfg.bind ConfigFile.backends = none ∨
      (cfg.bind ConfigFile.upstream = none ∧ cfg.bind ConfigFile.gpuWatts = none))
    (.validation "backends array and flat upstream/gpu_watts fields are mutually exclusive")
  match cfg.bind ConfigFile.backends with
  | some entries => resolveBackendsMode m cli cfg entries retentionDays
  | none => resolveFlatMode m cli cfg retentionDays

def Config.resolve (m : Machine) (cli : Cli) : Except ConfigError Config := do
  let cfg ← resolveConfigFile m cli.config
  resolveMode m cli cfg

end TokenWeasel
