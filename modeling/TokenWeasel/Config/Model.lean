import TokenWeasel.Backends.Catalog
import TokenWeasel.Backends.Placement
import TokenWeasel.Net.IpAddr
import TokenWeasel.Pricing
import TokenWeasel.Proxy.Upstream

/-!
# Configuration (`twl-config/src/config.rs`, `cli.rs`)

The layers that a configuration is resolved from, and what it is resolved to.  Maps are lists in
the order of their iteration, and a float is its exact value or not finite.
-/

namespace TokenWeasel

namespace Config

open Backends Net

/-- Tokio's `Semaphore::MAX_PERMITS` on 64 bits. -/
def maxConcurrencyLimit : Nat := (2 ^ 64 - 1) >>> 3

inductive F64 where
  | finite (value : Rat)
  | infinite (negative : Bool)
  | nan
  deriving DecidableEq, Repr

inductive ConfigError where
  | configFile (path message : String)
  | bare (message : String)
  | validation (message : String)
  deriving DecidableEq, Repr

/-- What `std::env::var` answers. -/
inductive EnvVar where
  | notPresent
  | notUnicode
  | present (value : String)
  deriving DecidableEq, Repr

/-- `Result::ok`. -/
def EnvVar.ok : EnvVar → Option String
  | .present value => some value
  | .notPresent | .notUnicode => none

/-! ## The layers -/

/-- What was given on the command line. -/
structure Cli where
  port : Option UInt16 := none
  host : Option String := none
  upstream : Option String := none
  db : Option String := none
  maxConcurrency : Option Nat := none
  config : Option String := none
  tls : Option Bool := none
  tlsCert : Option String := none
  tlsKey : Option String := none

structure DashboardConfigFile where
  cards : Option (List String) := none
  graphs : Option (List String) := none
  maxRows : Option Nat := none
  trustedProxies : Option (List String) := none

structure TlsConfigFile where
  enabled : Option Bool := none
  certPath : Option String := none
  keyPath : Option String := none
  hostnames : Option (List String) := none

structure LoadBalancingFile where
  strategy : Option LbStrategy := none
  overloadFactor : Option F64 := none

structure FairQueueConfigFile where
  enabled : Option Bool := none
  windowSeconds : Option Nat := none

structure BackendConfigFile where
  provider : Option ProviderKind := none
  upstream : Option String := none
  apiKey : Option String := none
  apiKeyEnv : Option String := none
  headers : Option (List (String × String)) := none
  models : Option (List String) := none
  modelsPollSecs : Option Nat := none
  gpuWatts : Option F64 := none
  modelTypes : Option (List (String × ModelKind)) := none
  modelFilter : Option (List String) := none

structure ConfigFile where
  host : Option String := none
  port : Option UInt16 := none
  upstream : Option String := none
  dbPath : Option String := none
  pricing : Option Pricing := none
  maxConcurrency : Option Nat := none
  gpuWatts : Option F64 := none
  backends : Option (List BackendConfigFile) := none
  dashboardUser : Option String := none
  dashboardPassword : Option String := none
  publicUsage : Option Bool := none
  requireApiKey : Option Bool := none
  loadBalancing : Option LoadBalancingFile := none
  fairQueue : Option FairQueueConfigFile := none
  dashboard : Option DashboardConfigFile := none
  retentionDays : Option Nat := none
  tls : Option TlsConfigFile := none
  metricsToken : Option String := none

/-- What `Url::parse` tells about a text: `beforePath` is the text up to the path. -/
structure Url where
  scheme : String
  hostStr : Option String
  query : Option String
  fragment : Option String
  beforePath : String
  path : String

/-- The process around the resolution, with the texts and the parsers of other crates. -/
structure Machine where
  env : String → EnvVar
  /-- The file at a path, read and deserialized. -/
  loadConfigFile : String → Except String ConfigFile
  hasConfigJson : Bool
  currentDir : Except String String
  tryExists : String → Except String Bool
  canonicalize : String → Except String String
  parseUrl : String → Except String Url
  displayF64 : F64 → String
  debugStr : String → String

/-- A process in `/srv` without variables and files, where one text is a URL. -/
def bareMachine : Machine where
  env := fun _ ↦ .notPresent
  loadConfigFile := fun _ ↦ .error "No such file or directory (os error 2)"
  hasConfigJson := false
  currentDir := .ok "/srv"
  tryExists := fun _ ↦ .ok false
  canonicalize := fun _ ↦ .error "No such file or directory (os error 2)"
  parseUrl := fun text ↦
    if text = "http://127.0.0.1:8080" then
      .ok {
        scheme := "http"
        hostStr := some "127.0.0.1"
        query := none
        fragment := none
        beforePath := "http://127.0.0.1:8080"
        path := "/" }
    else .error "relative URL without a base"
  displayF64 := fun _ ↦ ""
  debugStr := fun text ↦ "\"" ++ text ++ "\""

/-! ## The resolved configuration -/

structure BackendConfig where
  upstream : String
  provider : ProviderKind
  apiKey : Option String
  extraHeaders : List (String × String)
  models : List String
  modelsPollSecs : Option Nat
  gpuWatts : Rat
  modelTypes : List (String × ModelKind)
  modelFilter : Option (List String)

structure LoadBalancing where
  strategy : LbStrategy := .leastLoaded
  overloadFactor : Rat := 5 / 4

structure FairQueueConfig where
  enabled : Bool := false
  windowSeconds : Nat := 30 * 60

structure DashboardConfig where
  cards : List String := ["cost", "energy", "tokens", "requests", "io", "cache_hit"]
  graphs : List String := ["today", "over_time"]
  maxRows : Option Nat := none
  trustedProxies : List IpAddr := []

structure TlsConfig where
  enabled : Bool := true
  certPath : String := "tls/cert.pem"
  keyPath : String := "tls/key.pem"
  hostnames : List String := ["localhost"]

end Config

structure Config where
  bind : String
  upstream : String
  dbPath : String
  pricing : Pricing
  maxConcurrency : Nat
  gpuWatts : Rat
  backends : List Config.BackendConfig
  /-- Always non-empty. -/
  backends_ne_nil : backends ≠ []
  flatPassthrough : Bool
  dashboardAuth : Option (String × String)
  publicUsage : Bool
  requireApiKey : Bool
  loadBalancing : Config.LoadBalancing
  fairQueue : Config.FairQueueConfig
  dashboard : Config.DashboardConfig
  retentionDays : Nat
  tls : Config.TlsConfig
  metricsToken : Option String

end TokenWeasel
