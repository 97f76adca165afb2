import TokenWeasel.Backends.Candidates
import TokenWeasel.Backends.Energy
import TokenWeasel.Backends.Rcu
import TokenWeasel.Config.Accepted
import TokenWeasel.FairQueue.Model
import TokenWeasel.Library.Semaphore
import TokenWeasel.Proxy.Failover
import TokenWeasel.Server.Startup

/-!
# From a configuration to a server (`build_app` in `twl-server/src/server.rs`)

The database is opened and its administrator provided for, and behind it the parts are built.  They
assert what they are made of, the proxy indexes the backends with what the registry answers, and
its loop expects a candidate.
-/

namespace TokenWeasel.Server.Assembly

open Library Backends Store Auth

/-- The `auth_headers` of `Backend::new`. -/
def authHeaders (c : Config.BackendConfig) : List (String × String) :=
  Proxy.authHeaders c.apiKey ++ c.extraHeaders

structure AppState where
  registry : BackendRegistry
  meters : List EnergyMeter
  authHeaders : List (List (String × String))
  apiKeyValidationSlots : Semaphore Nat
  fairQueue : FairQueue
  /-- The limit of the management routes. -/
  managementSlots : Semaphore Nat

def routingMode (config : Config) : RoutingMode :=
  if config.flatPassthrough then .flatPassthrough else .catalog

inductive Outcome where
  | failed (error : ServerError)
  | panicked
  | serving (app : AppState)

section Accepted

variable {m : Config.Machine} {config : Config}

end Accepted

end TokenWeasel.Server.Assembly
