import TokenWeasel.FairQueue.Arrival
import TokenWeasel.FairQueue.Share
import TokenWeasel.Stream.Accounting
import TokenWeasel.Backends.Rcu
import TokenWeasel.Server.ClientIp
import TokenWeasel.Server.Login
import TokenWeasel.Proxy.Headers
import TokenWeasel.Proxy.Sandbox
import TokenWeasel.Auth.ApiKey
import TokenWeasel.Proxy.Handler
import TokenWeasel.Library.Transaction
import TokenWeasel.Store.Database
import TokenWeasel.Store.Identity
import TokenWeasel.Library.Query
import TokenWeasel.Store.Integrity
import TokenWeasel.Auth.Accounts
import TokenWeasel.Server.Startup
import TokenWeasel.Server.Management
import TokenWeasel.Server.CutOver
import TokenWeasel.Server.PasswordSwap
import TokenWeasel.Library.CheckedSum
import TokenWeasel.Store.Usage
import TokenWeasel.Store.Reports
import TokenWeasel.Store.Agreement
import TokenWeasel.Store.History
import TokenWeasel.Server.Dashboard
import TokenWeasel.Pricing
import TokenWeasel.Library.Binary64
import TokenWeasel.Pricing.Floats
import TokenWeasel.Server.Routes
import TokenWeasel.Server.AccountsApi
import TokenWeasel.Library.Channel
import TokenWeasel.Server.SessionStore
import TokenWeasel.Server.Shutdown
import TokenWeasel.Store.Upgrade
import TokenWeasel.Backends.Listing
import TokenWeasel.Server.Watchdog
import TokenWeasel.Library.Occupancy
import TokenWeasel.Backends.Energy
import TokenWeasel.Proxy.Upstream
import TokenWeasel.Backends.Candidates
import TokenWeasel.Proxy.Failover
import TokenWeasel.Library.Semaphore
import TokenWeasel.Proxy.Validation
import TokenWeasel.Backends.Affinity
import TokenWeasel.Backends.Rotation
import TokenWeasel.Backends.Balance
import TokenWeasel.Library.ClosedJoin
import TokenWeasel.Usage.Totals
import TokenWeasel.Stream.Cumulative
import TokenWeasel.Server.Costs
import TokenWeasel.Store.Buckets
import TokenWeasel.Library.Escaping
import TokenWeasel.Server.Metrics
import TokenWeasel.Auth.Bearer
import TokenWeasel.Proxy.BackendHeaders
import TokenWeasel.Library.SortedEntries
import TokenWeasel.Library.TimeZone
import TokenWeasel.Proxy.Body
import TokenWeasel.Proxy.PrefixKey
import TokenWeasel.Server.ThrottleRuns
import TokenWeasel.Server.LocalDay
import TokenWeasel.FairQueue.Stages
import TokenWeasel.Config.Resolve
import TokenWeasel.Proxy.Settlement
import TokenWeasel.Proxy.Exchange
import TokenWeasel.Config.Entries
import TokenWeasel.Config.Precedence
import TokenWeasel.Server.Retention
import TokenWeasel.Server.Assembly
import TokenWeasel.Server.SessionPurge
import TokenWeasel.Server.Cascade
import TokenWeasel.Server.Sessions
import TokenWeasel.Server.Router
import TokenWeasel.Server.Tls
