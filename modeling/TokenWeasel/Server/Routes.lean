import TokenWeasel.Library.Numeral
import TokenWeasel.Pricing
import TokenWeasel.Server.Dashboard
import TokenWeasel.Server.Management
import TokenWeasel.Store.Energy

/-!
# The usage endpoints (`twl-server/src/routes.rs`)

Each endpoint picks a scope for the user who asks and reads the reports of that scope.  Rows with
equal totals come in any order, and a response may give them in another one than the next.
-/

namespace TokenWeasel.Server.Routes

open Library Store Management

/-! ## The state and the clock -/

structure DashboardConfig where
  cards : List String
  graphs : List String
  maxRows : Option Nat
  deriving DecidableEq, Repr

/-- What the handlers read of `AppState`, beside the store. -/
structure AppState where
  publicUsage : Bool
  pricing : Pricing
  dashboard : DashboardConfig

/-- The clock and its zone at a request: `date_to_start_timestamp` of the day that is so many days
after today, and the local date of a timestamp. -/
structure LocalTime where
  startOfDay : Int → Int
  date : Int → Option String

/-- What SQLite leaves open of an order: rows change places only with rows of equal totals. -/
structure TieOrder (ρ : Type) (total : ρ → Int) where
  reorder : List ρ → List ρ
  perm : ∀ rows, (reorder rows).Perm rows
  totals : ∀ rows, (reorder rows).map total = rows.map total

/-- The two reports that are ordered by totals alone. -/
structure RowOrder where
  models : TieOrder ModelStats fun r ↦ r.totalTokens
  keys : TieOrder KeyStats fun r ↦ r.totalTokens

/-! ## Scopes -/

inductive UsageScope where
  | all
  | user (id : Int)
  deriving DecidableEq, Repr

/-- `str::parse::<i64>`. -/
def parseI64 (text : List Char) : Option Int :=
  let magnitude (digits : List Char) : Option Int :=
    if digits ≠ [] ∧ digits.all (isDigit 10) then some (numeralValue 10 0 digits) else none
  let n := match text with
    | '-' :: digits => (magnitude digits).map fun n ↦ -n
    | '+' :: digits => magnitude digits
    | digits => magnitude digits
  n.filter fun n ↦ i64Min ≤ n ∧ n ≤ i64Max

/-- The parameters of a query, by name. -/
abbrev Params := String → Option String

def resolveUsageScope (auth : Option AuthUser) (params : Params) : UsageScope :=
  match auth with
  | none => .all
  | some user =>
    if ¬ user.isAdmin then .user user.id
    else
      -- an administrator may look at one user
      match (params "user_id").bind fun id ↦ parseI64 id.toList with
      | some id => .user id
      | none => .all

/-! ## The dashboard -/

structure ModelRow where
  stats : ModelStats
  cost : Cost
  deriving DecidableEq, Repr

structure DayRow where
  stats : DailyStats
  cost : Cost
  deriving DecidableEq, Repr

/-- `keys` is left out of a public response. -/
structure DashboardResponse where
  models : List ModelRow
  days : List DayRow
  grandTotalTokens : Option Int
  grandTotalCost : Rat
  currency : String
  unit : Rat
  prices : List (String × ModelPrice)
  energyDays : List DailyEnergy
  totalKwh : Rat
  dashboard : DashboardConfig
  viewerIsAdmin : Bool
  scope : UsageScope
  keys : Option (List KeyStats)
  deriving DecidableEq, Repr

def modelRow (pricing : Pricing) (r : ModelStats) : ModelRow :=
  { stats := r, cost := pricing.cost r.model r.inputTokens r.outputTokens r.cachedTokens }

def dayRow (pricing : Pricing) (r : DailyStats) : DayRow :=
  { stats := r, cost := pricing.cost r.model r.inputTokens r.outputTokens r.cachedTokens }

/-- The `days` of the query. -/
def daysOf (params : Params) : Int :=
  max 1 (min (((params "days").bind fun days ↦ parseI64 days.toList).getD 30) 3650)

section

variable (state : AppState) (clock : LocalTime) (order : RowOrder) (tables : Tables)

def dashboardStats (scope : UsageScope) (sinceTs : Int) : Except DbError (List ModelStats) :=
  order.models.reorder <$> match scope with
    | .user id => statsForUser sinceTs id tables.toDatabase
    | .all => stats sinceTs tables.toDatabase

def dashboardDays (scope : UsageScope) (sinceTs : Int) : Except DbError (List DailyStats) :=
  match scope with
  | .user id => dailyForUser clock.date sinceTs id tables.toDatabase
  | .all => daily clock.date sinceTs tables.toDatabase

/-- Energy is of the whole server, so one user's scope has none. -/
def dashboardEnergy (scope : UsageScope) (sinceTs : Int) :
    Except DbError (List DailyEnergy × Rat) :=
  match scope with
  | .user _ => .ok ([], 0)
  | .all => (dailyEnergy clock.date sinceTs tables).map fun days ↦
      (days, (days.map DailyEnergy.kwh).sum)

/-- A public dashboard must not show the labels, so it does not ask for them. -/
def dashboardKeys (scope : UsageScope) (sinceTs : Int) : Except DbError (List KeyStats) :=
  if state.publicUsage then .ok []
  else
    order.keys.reorder <$> match scope with
      | .user id => statsByKeyForUser sinceTs id tables.toDatabase
      | .all => statsByUser sinceTs tables.toDatabase

/-- The response for the rows that the queries gave. -/
def dashboardResponse (auth : Option AuthUser) (scope : UsageScope) (rows : List ModelStats)
    (dailyRows : List DailyStats) (energy : List DailyEnergy × Rat) (keyRows : List KeyStats) :
    DashboardResponse :=
  let models := rows.map (modelRow state.pricing)
  { models := models
    days := dailyRows.map (dayRow state.pricing)
    grandTotalTokens := grandTotalTokens rows
    grandTotalCost := (models.map fun row ↦ row.cost.total).sum
    currency := state.pricing.currency
    unit := state.pricing.unit
    prices := state.pricing.models
    energyDays := energy.1
    totalKwh := energy.2
    dashboard := state.dashboard
    viewerIsAdmin := (auth.map AuthUser.isAdmin).getD false
    scope := scope
    keys := if state.publicUsage then none else some keyRows }

/-- A query that fails is a 500 response with its error. -/
def dashboardApi (auth : Option AuthUser) (params : Params) :
    Except DbError DashboardResponse := do
  let scope := resolveUsageScope auth params
  let sinceTs := clock.startOfDay (-(daysOf params - 1))
  let rows ← dashboardStats order tables scope sinceTs
  let dailyRows ← dashboardDays clock tables scope sinceTs
  let energy ← dashboardEnergy clock tables scope sinceTs
  let keyRows ← dashboardKeys state order tables scope sinceTs
  pure (dashboardResponse state auth scope rows dailyRows energy keyRows)

/-! ## Days in buckets -/

def dayBucketsResponse (daysAgo : Int) (scope : UsageScope) : Except DbError (List TodayBucket) :=
  let dayStart := clock.startOfDay (-daysAgo)
  let dayEnd := clock.startOfDay (-daysAgo + 1)
  match scope with
  | .user id => todayBucketsForUser dayStart dayEnd id tables.toDatabase
  | .all => todayBuckets dayStart dayEnd tables.toDatabase

def todayApi (auth : Option AuthUser) (params : Params) : Except DbError (List TodayBucket) :=
  dayBucketsResponse clock tables 0 (resolveUsageScope auth params)

def yesterdayApi (auth : Option AuthUser) (params : Params) : Except DbError (List TodayBucket) :=
  dayBucketsResponse clock tables 1 (resolveUsageScope auth params)

/-- Where `build_router` registers a usage endpoint: behind `require_auth`, or without a user. -/
def usageRoute {α : Type} (auth : Option AuthUser) (handler : Option AuthUser → α) : Option α :=
  if state.publicUsage then some (handler none) else auth.map fun user ↦ handler (some user)

end

/-! ## What the scope of one user reads -/

section

variable (userId : Int) (db : Database)

/-- The user's rows of `api_key_attribution`. -/
def attributionsOf : List Attribution := db.attribution.filter fun a ↦ a.userId = userId

/-- The usage rows whose key is attributed to the user. -/
def attributedUsage : List TokenUsage :=
  db.tokenUsage.filter fun row ↦ (attributionsOf userId db).any fun a ↦
    row.apiKeyId = some a.apiKeyId

/-- Two stores agree on a user. -/
def AgreeOn (userId : Int) (db db' : Database) : Prop :=
  attributionsOf userId db = attributionsOf userId db' ∧
    attributedUsage userId db = attributedUsage userId db'

theorem usageOf_eq_innerJoin : usageOf userId db =
    innerJoin (fun row a ↦ row.apiKeyId = some a.apiKeyId) (attributedUsage userId db)
      (attributionsOf userId db) := by
  rw [attributedUsage, innerJoin_filter_any]
  exact innerJoin_filter fun a : Attribution ↦ decide (a.userId = userId)

variable {userId} {db} {db' : Database}

/-- Whatever a report of the user reads, it reads from there. -/
theorem AgreeOn.usageOf_eq (h : AgreeOn userId db db') : usageOf userId db = usageOf userId db' := by
  rw [usageOf_eq_innerJoin, usageOf_eq_innerJoin, h.1, h.2]

theorem AgreeOn.statsForUser_eq (h : AgreeOn userId db db') (sinceTs : Int) :
    statsForUser sinceTs userId db = statsForUser sinceTs userId db' := by
  unfold statsForUser
  rw [h.usageOf_eq]

theorem AgreeOn.dailyForUser_eq (h : AgreeOn userId db db') (date : Int → Option String)
    (sinceTs : Int) :
    dailyForUser date sinceTs userId db = dailyForUser date sinceTs userId db' := by
  unfold dailyForUser
  rw [h.usageOf_eq]

theorem AgreeOn.statsByKeyForUser_eq (h : AgreeOn userId db db') (sinceTs : Int) :
    statsByKeyForUser sinceTs userId db = statsByKeyForUser sinceTs userId db' := by
  unfold statsByKeyForUser
  rw [h.usageOf_eq]

theorem AgreeOn.todayBucketsForUser_eq (h : AgreeOn userId db db') (dayStartTs endTs : Int) :
    todayBucketsForUser dayStartTs endTs userId db =
      todayBucketsForUser dayStartTs endTs userId db' := by
  unfold todayBucketsForUser
  rw [h.usageOf_eq]

end

/-! ## Responses up to the order of equal totals -/

def UpToTies {ρ : Type} (total : ρ → Int) (rows rows' : List ρ) : Prop :=
  rows.Perm rows' ∧ rows.map total = rows'.map total

theorem TieOrder.upToTies {ρ : Type} {total : ρ → Int} (order order' : TieOrder ρ total)
    (rows : List ρ) : UpToTies total (order.reorder rows) (order'.reorder rows) :=
  ⟨(order.perm rows).trans (order'.perm rows).symm,
    (order.totals rows).trans (order'.totals rows).symm⟩

/-- All fields are the same, and the rows of models and of keys up to ties. -/
structure SameUpToTies (r r' : DashboardResponse) : Prop where
  models : UpToTies (fun row ↦ row.stats.totalTokens) r.models r'.models
  keys : ∃ rows rows', r.keys = some rows ∧ r'.keys = some rows' ∧
    UpToTies (fun row ↦ row.totalTokens) rows rows'
  others : { r with models := [], keys := none } = { r' with models := [], keys := none }

/-- The same failure, or the same response. -/
def SameResult : Except DbError DashboardResponse → Except DbError DashboardResponse → Prop
  | .ok r, .ok r' => SameUpToTies r r'
  | .error e, .error e' => e = e'
  | _, _ => False

theorem dashboardResponse_sameUpToTies {state : AppState} (hpublic : state.publicUsage = false)
    (auth : Option AuthUser) (scope : UsageScope) {rows rows' : List ModelStats}
    (hrows : UpToTies (fun r ↦ r.totalTokens) rows rows') (dailyRows : List DailyStats)
    (energy : List DailyEnergy × Rat) {keyRows keyRows' : List KeyStats}
    (hkeys : UpToTies (fun r ↦ r.totalTokens) keyRows keyRows') :
    SameUpToTies (dashboardResponse state auth scope rows dailyRows energy keyRows)
      (dashboardResponse state auth scope rows' dailyRows energy keyRows') where
  models := by
    refine ⟨hrows.1.map _, ?_⟩
    show (rows.map (modelRow state.pricing)).map _ = (rows'.map (modelRow state.pricing)).map _
    rw [List.map_map, List.map_map]
    exact hrows.2
  keys := by
    refine ⟨keyRows, keyRows', ?_, ?_, hkeys⟩
    · show (if state.publicUsage then none else some keyRows) = some keyRows
      rw [hpublic]
      rfl
    · show (if state.publicUsage then none else some keyRows') = some keyRows'
      rw [hpublic]
      rfl
  others := by
    -- the totals come in one order, and a sum of exact costs has none
    have htokens : grandTotalTokens rows = grandTotalTokens rows' := by
      unfold grandTotalTokens
      rw [hrows.2]
    have hcost : ((rows.map (modelRow state.pricing)).map fun row ↦ row.cost.total).sum =
        ((rows'.map (modelRow state.pricing)).map fun row ↦ row.cost.total).sum :=
      ((hrows.1.map _).map _).sum_eq
    unfold dashboardResponse
    dsimp only
    rw [htokens, hcost]

/-! ## Noninterference -/

theorem resolveUsageScope_nonAdmin {user : AuthUser} (h : user.isAdmin = false) (params : Params) :
    resolveUsageScope (some user) params = .user user.id := by
  unfold resolveUsageScope
  dsimp only
  rw [h]
  rfl

section

variable {state : AppState} {user : AuthUser} {tables tables' : Tables}

/-- Each query of the dashboard is that of the user's scope. -/
theorem dashboardApi_sameResult (hpublic : state.publicUsage = false)
    (huser : user.isAdmin = false) (hagree : AgreeOn user.id tables.toDatabase tables'.toDatabase)
    (clock : LocalTime) (order order' : RowOrder) (params : Params) :
    SameResult (dashboardApi state clock order tables (some user) params)
      (dashboardApi state clock order' tables' (some user) params) := by
  unfold dashboardApi
  rw [resolveUsageScope_nonAdmin huser]
  unfold dashboardStats dashboardDays dashboardEnergy dashboardKeys
  rw [hpublic]
  dsimp only
  rw [hagree.statsForUser_eq, hagree.dailyForUser_eq, hagree.statsByKeyForUser_eq]
  -- the first query that fails, fails for both
  cases statsForUser (clock.startOfDay (-(daysOf params - 1))) user.id tables'.toDatabase with
  | error e => rfl
  | ok rows =>
      cases dailyForUser clock.date (clock.startOfDay (-(daysOf params - 1))) user.id
          tables'.toDatabase with
      | error e => rfl
      | ok dailyRows =>
          cases statsByKeyForUser (clock.startOfDay (-(daysOf params - 1))) user.id
              tables'.toDatabase with
          | error e => rfl
          | ok keyRows =>
              exact dashboardResponse_sameUpToTies hpublic _ _ (order.models.upToTies order'.models
                rows) dailyRows _ (order.keys.upToTies order'.keys keyRows)

theorem dayBucketsResponse_eq (hagree : AgreeOn user.id tables.toDatabase tables'.toDatabase)
    (clock : LocalTime) (daysAgo : Int) :
    dayBucketsResponse clock tables daysAgo (.user user.id) =
      dayBucketsResponse clock tables' daysAgo (.user user.id) :=
  hagree.todayBucketsForUser_eq _ _

/-- What the usage endpoints tell a user who is no administrator depends on that user's own
attributions and usage alone, whatever the query asks for. -/
theorem nonAdmin_noninterference (hpublic : state.publicUsage = false)
    (huser : user.isAdmin = false) (hagree : AgreeOn user.id tables.toDatabase tables'.toDatabase)
    (clock : LocalTime) (order order' : RowOrder) (params : Params) :
    (∃ result result',
      usageRoute state (some user) (fun auth ↦
        dashboardApi state clock order tables auth params) = some result ∧
      usageRoute state (some user) (fun auth ↦
        dashboardApi state clock order' tables' auth params) = some result' ∧
      SameResult result result') ∧
    usageRoute state (some user) (fun auth ↦ todayApi clock tables auth params) =
      usageRoute state (some user) (fun auth ↦ todayApi clock tables' auth params) ∧
    usageRoute state (some user) (fun auth ↦ yesterdayApi clock tables auth params) =
      usageRoute state (some user) (fun auth ↦ yesterdayApi clock tables' auth params) := by
  have hroute : ∀ {α : Type} (handler : Option AuthUser → α),
      usageRoute state (some user) handler = some (handler (some user)) := by
    intro α handler
    unfold usageRoute
    rw [hpublic]
    rfl
  refine ⟨⟨_, _, hroute _, hroute _, dashboardApi_sameResult hpublic huser hagree clock order
    order' params⟩, ?_, ?_⟩
  · rw [hroute, hroute]
    unfold todayApi
    rw [resolveUsageScope_nonAdmin huser, dayBucketsResponse_eq hagree]
  · rw [hroute, hroute]
    unfold yesterdayApi
    rw [resolveUsageScope_nonAdmin huser, dayBucketsResponse_eq hagree]

end

def privateState : AppState :=
  { publicUsage := false, pricing := {}, dashboard := { cards := [], graphs := [], maxRows := none } }

/-- A zone at the offset zero, on its first day. -/
def firstDay : LocalTime where
  startOfDay days := 86400 * days
  date _ := some "1970-01-01"

def inOrder : RowOrder where
  models := { reorder := id, perm := fun _ ↦ List.Perm.refl _, totals := fun _ ↦ rfl }
  keys := { reorder := id, perm := fun _ ↦ List.Perm.refl _, totals := fun _ ↦ rfl }

/-- Two users with a key each, the first with some usage and some energy. -/
def twoTenants (tokens : Int) : Tables where
  users := [⟨1, "admin", "h", 1, 0⟩, ⟨2, "alice", "h", 0, 0⟩]
  apiKeys := [⟨1, 1, none, "k1", "twl_a", 0⟩, ⟨2, 2, none, "k2", "twl_b", 0⟩]
  attribution := [⟨1, 1, none, "twl_a"⟩, ⟨2, 2, none, "twl_b"⟩]
  tokenUsage := [⟨1, 60, "m", "/v1/chat/completions", tokens, 0, 0, tokens, some 1⟩,
    ⟨2, 90, "m", "/v1/chat/completions", 5, 3, 0, 8, some 2⟩]
  energy := [⟨1, 60, tokens, 300⟩]

/-- The second user sees nothing of it, not even by asking for the first one. -/
theorem nonAdmin_noninterference_tenants : ∃ result result',
    usageRoute privateState (some ⟨2, "alice", false⟩) (fun auth ↦ dashboardApi privateState
      firstDay inOrder (twoTenants 7) auth fun _ ↦ some "1") = some result ∧
    usageRoute privateState (some ⟨2, "alice", false⟩) (fun auth ↦ dashboardApi privateState
      firstDay inOrder (twoTenants 1000) auth fun _ ↦ some "1") = some result' ∧
    SameResult result result' :=
  (nonAdmin_noninterference rfl rfl ⟨by decide, by decide⟩ firstDay inOrder inOrder fun _ ↦
    some "1").1

end TokenWeasel.Server.Routes
