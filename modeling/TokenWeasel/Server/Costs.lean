import TokenWeasel.Server.Routes
import TokenWeasel.Stream.Cumulative

/-!
# What the usage of responses costs

The records that the accounting streams hand over, the sums of what is stored of them, and the costs
the dashboard makes of the sums.  No clamp does anything on them, so that a cost does not depend on
how the rows are grouped.
-/

namespace TokenWeasel.Server

open Library Store Routes

/-! ## Records that are handed over -/

/-- The fold of what was read off JSON, with the key of its request. -/
def HandedOver (u : Usage) : Prop :=
  ∃ observations total, (∀ o ∈ observations, Stream.Extracted o) ∧
    Stream.foldUsage observations = some total ∧ u = { total with apiKeyId := u.apiKeyId }

theorem HandedOver.counted {u : Usage} (h : HandedOver u) : u.Counted := by
  obtain ⟨observations, total, hextracted, htotal, heq⟩ := h
  have hcounted := Stream.foldUsage_counted (fun o ho ↦ (hextracted o ho).counted) htotal
  rw [heq]
  exact { hcounted with }

theorem HandedOver.of_handsOver {β ε : Type} {body : Stream.Body β ε} {apiKeyId : Option Int}
    {observations : List Usage} (hextracted : ∀ o ∈ observations, Stream.Extracted o)
    (h : Stream.HandsOver body apiKeyId (Stream.foldUsage observations)) :
    ∀ u ∈ body.recorded, HandedOver u := by
  intro u hu
  obtain ⟨total, htotal, rfl⟩ := h.eq_of_mem hu
  exact ⟨observations, total, hextracted, htotal, rfl⟩

theorem lineAccountingStream_handedOver {ε : Type} {ctx : Stream.AccountingContext}
    {parseLine : Stream.Bytes → String → Option String → Option Usage}
    {value : Stream.Bytes → Option Value}
    (hparse : ∀ line, parseLine line ctx.endpoint ctx.reqModel =
      (value line).bind fun v ↦ Usage.extractUsage v ctx.endpoint ctx.reqModel)
    (events : List (Stream.Event ε)) :
    ∀ u ∈ (Stream.bodyAfter (Stream.lineAccountingStream ctx parseLine) ctx.apiKeyId
      events).recorded, HandedOver u := by
  have hhands := Stream.handsOver (Stream.lineAccountingStream ctx parseLine) ctx.apiKeyId events
    (Stream.lineAccountingStream_usage ctx parseLine _)
  apply HandedOver.of_handsOver _ hhands
  intro o ho
  rw [Stream.observations_eq hparse] at ho
  obtain ⟨v, -, hextract⟩ := List.mem_filterMap.mp ho
  exact ⟨v, ctx.endpoint, ctx.reqModel, Or.inl hextract⟩

theorem bufferedAccountingStream_handedOver {ε : Type} (ctx : Stream.AccountingContext)
    (fromSlice : Stream.Bytes → Option Value) (parse : Bool) (events : List (Stream.Event ε)) :
    ∀ u ∈ (Stream.bodyAfter (Stream.bufferedAccountingStream fromSlice ctx parse) ctx.apiKeyId
      events).recorded, HandedOver u := by
  intro u hu
  obtain ⟨total, htotal, rfl⟩ := (Stream.handsOver _ _ _
    (Stream.bufferedAccountingStream_usage fromSlice ctx parse _)).eq_of_mem hu
  refine ⟨[total], total, ?_, rfl, rfl⟩
  intro o ho
  obtain rfl := List.mem_singleton.mp ho
  split at htotal
  · rw [Stream.finalizeBufferedUsage, Option.bind_eq_some_iff] at htotal
    obtain ⟨v, -, hread⟩ := htotal
    exact ⟨v, ctx.endpoint, ctx.reqModel, (Option.or_eq_some_iff.mp hread).imp_right And.right⟩
  · exact absurd htotal (by simp)

/-- Whatever an accounting stream records is handed over. -/
theorem recorded_handedOver {ε : Type} (ctx : Stream.AccountingContext)
    (fromStr : Text → Option Value) (fromSlice : Stream.Bytes → Option Value) (parse : Bool)
    (events : List (Stream.Event ε)) :
    (∀ u ∈ (Stream.bodyAfter (Stream.sseAccountingStream fromStr ctx) ctx.apiKeyId events).recorded,
      HandedOver u) ∧
    (∀ u ∈ (Stream.bodyAfter (Stream.ndjsonAccountingStream fromStr ctx) ctx.apiKeyId
      events).recorded, HandedOver u) ∧
    ∀ u ∈ (Stream.bodyAfter (Stream.bufferedAccountingStream fromSlice ctx parse) ctx.apiKeyId
      events).recorded, HandedOver u :=
  ⟨lineAccountingStream_handedOver (fun line ↦ Stream.parseSseLine_eq fromStr line _ _) events,
    lineAccountingStream_handedOver (fun line ↦ Stream.parseNdjsonLine_eq fromStr line _ _) events,
    bufferedAccountingStream_handedOver ctx fromSlice parse events⟩

/-- The records of a history are handed over, and its clock is not before the epoch. -/
def EventHandedOver : History.Event → Prop
  | .record now _ u => HandedOver u ∧ ∀ ts ∈ now, 0 ≤ ts
  | _ => True

theorem run_handedOver {events : List History.Event} (h : ∀ e ∈ events, EventHandedOver e) :
    ∀ row ∈ (run History.step History.empty events).db.tokenUsage, Counted row ∧ 0 ≤ row.ts := by
  apply run_tokenUsage (P := fun row ↦ Counted row ∧ 0 ≤ row.ts)
  intro ts fault u id hmem
  obtain ⟨hhanded, hclock⟩ := h _ hmem
  exact ⟨{ hhanded.counted with }, hclock ts rfl⟩

/-! ## Sums of stored rows -/

/-- No sum is negative, what was cached is of the input, and taking it off the input clamps
nothing. -/
structure CountedSums (sums : TokenCounts) : Prop where
  inputTokens : 0 ≤ sums.inputTokens
  outputTokens : 0 ≤ sums.outputTokens
  cachedTokens : 0 ≤ sums.cachedTokens ∧ sums.cachedTokens ≤ sums.inputTokens
  totalTokens : 0 ≤ sums.totalTokens
  unclamped : max (saturatingSub sums.inputTokens sums.cachedTokens) 0 =
    sums.inputTokens - sums.cachedTokens

theorem exactCounts_counted {rows : List TokenUsage} (h : ∀ row ∈ rows, Counted row)
    (hrange : InRange rows) : CountedSums (exactCounts rows) := by
  have hinput : (exactCounts rows).inputTokens ≤ i64Max := ((inRange_iff h).mp hrange).1.1
  have hcached : 0 ≤ (exactCounts rows).cachedTokens ∧
      (exactCounts rows).cachedTokens ≤ (exactCounts rows).inputTokens :=
    ⟨sum_map_nonneg fun row hrow ↦ (h row hrow).cachedTokens.1,
      List.sum_le_sum fun row hrow ↦ (h row hrow).cachedTokens.2⟩
  exact {
    inputTokens := sum_map_nonneg fun row hrow ↦ (h row hrow).inputTokens
    outputTokens := sum_map_nonneg fun row hrow ↦ (h row hrow).outputTokens
    cachedTokens := hcached
    totalTokens := sum_map_nonneg fun row hrow ↦ (h row hrow).totalTokens
    unclamped := billableInput_eq hcached hinput }

theorem modelReport_counted {rows : List TokenUsage} (h : ∀ row ∈ rows, Counted row)
    {results : List ModelStats} (hreport : modelReport rows = .ok results) :
    ∀ r ∈ results, CountedSums r.toTokenCounts := by
  obtain ⟨hrange, rfl⟩ := modelReport_eq_ok.mp hreport
  intro r hr
  obtain ⟨group, hgroup, rfl⟩ := List.mem_map.mp (List.mem_mergeSort.mp hr)
  apply exactCounts_counted _ (hrange group hgroup)
  exact fun row hrow ↦ h row (mem_of_mem_group hgroup hrow).1

theorem dailyReport_counted {date : Int → Option String} {rows : List TokenUsage}
    (h : ∀ row ∈ rows, Counted row) {results : List DailyStats}
    (hreport : dailyReport date rows = .ok results) :
    ∀ r ∈ results, CountedSums r.toTokenCounts := by
  obtain ⟨hrange, rfl⟩ := dailyReport_eq_ok.mp hreport
  intro r hr
  obtain ⟨group, hgroup, rfl⟩ := List.mem_map.mp (List.mem_mergeSort.mp hr)
  apply exactCounts_counted _ (hrange group hgroup).1
  exact fun row hrow ↦ h row (mem_of_mem_group hgroup hrow).1

/-! ## Rows of a scope -/

/-- The requests since a time that a scope looks at. -/
def scopeRows (scope : UsageScope) (sinceTs : Int) (db : Database) : List TokenUsage :=
  match scope with
  | .all => db.tokenUsage.filter fun row ↦ sinceTs ≤ row.ts
  | .user id => db.tokenUsage.filter fun row ↦ sinceTs ≤ row.ts && ownerOf db row = some id

section

variable {tables : Tables} {scope : UsageScope} {sinceTs : Int}

theorem mem_of_mem_scopeRows {db : Database} {row : TokenUsage}
    (h : row ∈ scopeRows scope sinceTs db) : row ∈ db.tokenUsage := by
  cases scope with
  | all => exact List.mem_of_mem_filter h
  | user id => exact List.mem_of_mem_filter h

/-- The rows since a time before the epoch are those since the epoch. -/
theorem scopeRows_max {db : Database} (h : ∀ row ∈ db.tokenUsage, 0 ≤ row.ts) :
    scopeRows scope (max sinceTs 0) db = scopeRows scope sinceTs db := by
  have hsame : ∀ row ∈ db.tokenUsage,
      decide (max sinceTs 0 ≤ row.ts) = decide (sinceTs ≤ row.ts) := by
    intro row hrow
    have := h row hrow
    exact decide_eq_decide.mpr (by omega)
  cases scope with
  | all => exact List.filter_congr hsame
  | user id => exact List.filter_congr fun row hrow ↦ by rw [hsame row hrow]

theorem dashboardStats_eq (hschema : Schema tables.toDatabase) (order : RowOrder) :
    dashboardStats order tables scope sinceTs =
      order.models.reorder <$> modelReport (scopeRows scope sinceTs tables.toDatabase) := by
  cases scope with
  | all => rfl
  | user id =>
      show order.models.reorder <$> modelReport _ = order.models.reorder <$> modelReport _
      rw [hschema.usageOf_rows id fun row ↦ sinceTs ≤ row.ts]
      rfl

theorem dashboardDays_eq (hschema : Schema tables.toDatabase)
    (h : ∀ row ∈ tables.tokenUsage, 0 ≤ row.ts) (clock : LocalTime) :
    dashboardDays clock tables scope sinceTs =
      dailyReport clock.date (scopeRows scope sinceTs tables.toDatabase) := by
  rw [← scopeRows_max h]
  cases scope with
  | all => rfl
  | user id =>
      show dailyReport _ _ = dailyReport _ _
      rw [hschema.usageOf_rows id fun row ↦ max sinceTs 0 ≤ row.ts]
      rfl

end

/-- A dashboard that answers, after any history of records that were handed over, answers with the
reports of the requests of its scope. -/
theorem dashboardApi_reports {events : List History.Event} (hevents : ∀ e ∈ events, EventHandedOver e)
    {tables : Tables} (htables : tables.toDatabase = (run History.step History.empty events).db)
    {state : AppState} {clock : LocalTime} {order : RowOrder} {auth : Option Management.AuthUser}
    {params : Params} {response : DashboardResponse}
    (h : dashboardApi state clock order tables auth params = .ok response) :
    let requests := scopeRows (resolveUsageScope auth params)
      (clock.startOfDay (-(daysOf params - 1))) tables.toDatabase
    (∀ row ∈ requests, Counted row) ∧ ∃ rows dailyRows, modelReport requests = .ok rows ∧
      dailyReport clock.date requests = .ok dailyRows ∧
      response.models = (order.models.reorder rows).map (Routes.modelRow state.pricing) ∧
      response.days = dailyRows.map (dayRow state.pricing) ∧
      response.grandTotalCost = (response.models.map fun row ↦ row.cost.total).sum := by
  intro requests
  have hschema : Schema tables.toDatabase := by
    rw [htables]
    exact (run_coherent events).integrity.toSchema
  have hrows : ∀ row ∈ tables.tokenUsage, Counted row ∧ 0 ≤ row.ts := by
    show ∀ row ∈ tables.toDatabase.tokenUsage, _
    rw [htables]
    exact run_handedOver hevents
  refine ⟨fun row hrow ↦ (hrows row (mem_of_mem_scopeRows hrow)).1, ?_⟩
  unfold dashboardApi at h
  obtain ⟨rows, hstats, h⟩ := except_bind_eq_ok.mp h
  obtain ⟨dailyRows, hdaily, h⟩ := except_bind_eq_ok.mp h
  obtain ⟨energy, -, h⟩ := except_bind_eq_ok.mp h
  obtain ⟨keyRows, -, h⟩ := except_bind_eq_ok.mp h
  obtain rfl := Except.ok.inj h
  rw [dashboardStats_eq hschema] at hstats
  rw [dashboardDays_eq hschema fun row hrow ↦ (hrows row hrow).2] at hdaily
  obtain ⟨results, hreport, rfl⟩ := except_map_eq_ok.mp hstats
  exact ⟨results, dailyRows, hreport, hdaily, rfl, rfl, rfl⟩

/-! ## What is extracted is well-formed -/

/-- Whatever the JSON, no count is negative and what was cached is of the input: of what is read off
it, of every fold, of every sum of records, and of every row of the dashboard after any history of
such records. -/
theorem extracted_usage_counted :
    (∀ v endpoint reqModel u, (Usage.extractUsage v endpoint reqModel = some u ∨
      Usage.scavengeUsage v endpoint reqModel = some u) → u.Counted) ∧
    (∀ observations total, (∀ o ∈ observations, Stream.Extracted o) →
      Stream.foldUsage observations = some total → total.Counted) ∧
    (∀ records : List Usage, (∀ u ∈ records, HandedOver u) →
      let input := (records.map fun u ↦ u.inputTokens).sum
      let cached := (records.map fun u ↦ u.cachedTokens).sum
      0 ≤ cached ∧ cached ≤ input ∧
        max (saturatingSub input cached) 0 = saturatingSub input cached ∧
        (input ≤ i64Max → saturatingSub input cached = input - cached)) ∧
    ∀ events : List History.Event, (∀ e ∈ events, EventHandedOver e) →
      ∀ tables : Tables, tables.toDatabase = (run History.step History.empty events).db →
      ∀ state clock order auth params response,
        dashboardApi state clock order tables auth params = .ok response →
        (∀ row ∈ response.models, CountedSums row.stats.toTokenCounts) ∧
        ∀ row ∈ response.days, CountedSums row.stats.toTokenCounts := by
  refine ⟨fun v endpoint reqModel u h ↦ Stream.Extracted.counted ⟨v, endpoint, reqModel, h⟩,
    fun observations total h htotal ↦
      Stream.foldUsage_counted (fun o ho ↦ (h o ho).counted) htotal, ?_, ?_⟩
  · intro records hrecords input cached
    have hcached : 0 ≤ cached := sum_map_nonneg fun u hu ↦ (hrecords u hu).counted.cachedTokens.1
    have hle : cached ≤ input :=
      List.sum_le_sum fun u hu ↦ (hrecords u hu).counted.cachedTokens.2
    have hmax : 0 ≤ i64Max := by decide
    have hmin : i64Min ≤ 0 := by decide
    unfold saturatingSub
    refine ⟨hcached, hle, by omega, fun hfits ↦ by omega⟩
  · intro events hevents tables htables state clock order auth params response hresponse
    obtain ⟨hcounted, rows, dailyRows, hstats, hdaily, hmodels, hdays, -⟩ :=
      dashboardApi_reports hevents htables hresponse
    rw [hmodels, hdays]
    constructor
    · intro row hrow
      obtain ⟨r, hr, rfl⟩ := List.mem_map.mp hrow
      exact modelReport_counted hcounted hstats r ((order.models.perm rows).mem_iff.mp hr)
    · intro row hrow
      obtain ⟨r, hr, rfl⟩ := List.mem_map.mp hrow
      exact dailyReport_counted hcounted hdaily r hr

def pricedState : AppState :=
  { publicUsage := false
    pricing := { models := [("m", { input := 3, output := 6, inputCached := 1 })] }
    dashboard := { cards := [], graphs := [], maxRows := none } }

/-- A zone at the offset zero, on its second day. -/
def secondDay : LocalTime where
  startOfDay days := 86400 * (days + 1)
  date ts := if ts < 86400 then some "1970-01-01" else some "1970-01-02"

/-- A request of the model on each of two days. -/
def twoDays : List History.Event :=
  [.record (some 100) none (completionUsage 5 3), .record (some 90000) none (completionUsage 2 1)]

theorem completionUsage_handedOver {promptTokens completionTokens : Int}
    (h : Usage.extractUsage (completionResponse promptTokens completionTokens)
      "/v1/chat/completions" none = some (completionUsage promptTokens completionTokens)) :
    HandedOver (completionUsage promptTokens completionTokens) := by
  refine ⟨[completionUsage promptTokens completionTokens], _, ?_, rfl, rfl⟩
  intro o ho
  obtain rfl := List.mem_singleton.mp ho
  exact ⟨_, _, _, Or.inl h⟩

theorem twoDays_handedOver : ∀ e ∈ twoDays, EventHandedOver e := by
  intro e he
  rcases List.mem_pair.mp he with rfl | rfl
  · exact ⟨completionUsage_handedOver (by decide +kernel), by simp⟩
  · exact ⟨completionUsage_handedOver (by decide +kernel), by simp⟩

def twoDaysTables : Tables := { toDatabase := (run History.step History.empty twoDays).db }

theorem twoDays_answered : ∃ response,
    dashboardApi pricedState secondDay inOrder twoDaysTables none (fun _ ↦ none) = .ok response :=
  ⟨_, rfl⟩

theorem extracted_usage_counted_twoDays : ∃ response,
    dashboardApi pricedState secondDay inOrder twoDaysTables none (fun _ ↦ none) = .ok response ∧
      ∀ row ∈ response.days, CountedSums row.stats.toTokenCounts := by
  obtain ⟨response, hresponse⟩ := twoDays_answered
  exact ⟨response, hresponse, (extracted_usage_counted.2.2.2 twoDays twoDays_handedOver
    twoDaysTables rfl pricedState secondDay inOrder none (fun _ ↦ none) response hresponse).2⟩

/-! ## Costs of a grouping -/

/-- What one request costs. -/
def requestCost (pricing : Pricing) (row : TokenUsage) : Cost :=
  pricing.cost row.model row.inputTokens row.outputTokens row.cachedTokens

/-- What the sums of the rows of one model cost. -/
def sumsCost (pricing : Pricing) (model : String) (sums : TokenCounts) : Cost :=
  pricing.cost model sums.inputTokens sums.outputTokens sums.cachedTokens

theorem sumsCost_exactCounts (pricing : Pricing) {model : String} {rows : List TokenUsage}
    (hmodel : ∀ row ∈ rows, row.model = model) (h : ∀ row ∈ rows, Counted row)
    (hrange : InRange rows) :
    sumsCost pricing model (exactCounts rows) = (rows.map (requestCost pricing)).sum := by
  have hcosts : rows.map (requestCost pricing) = rows.map fun row ↦
      pricing.cost model row.inputTokens row.outputTokens row.cachedTokens :=
    List.map_congr_left fun row hrow ↦ by rw [requestCost, hmodel row hrow]
  rw [hcosts]
  exact pricing.cost_sum model
    (fun row hrow ↦ ⟨(h row hrow).cachedTokens, (h row hrow).outputTokens⟩)
    ((inRange_iff h).mp hrange).1.1

/-- Grouped in any way that keeps models apart, the rows cost the same. -/
theorem groupBy_cost {κ : Type} [DecidableEq κ] (pricing : Pricing) {key : TokenUsage → κ}
    (modelOf : κ → String) {rows : List TokenUsage} (h : ∀ row ∈ rows, Counted row)
    (hrange : ∀ group ∈ groupBy key rows, InRange group.2)
    (hmodel : ∀ row, modelOf (key row) = row.model) :
    ((groupBy key rows).map fun group ↦
      sumsCost pricing (modelOf group.1) (exactCounts group.2)).sum =
        (rows.map (requestCost pricing)).sum := by
  refine Eq.trans (congrArg List.sum (List.map_congr_left fun group hgroup ↦ ?_))
    (groupBy_sum (requestCost pricing))
  apply sumsCost_exactCounts pricing _ _ (hrange group hgroup)
  · exact fun row hrow ↦ by rw [← hmodel, (mem_of_mem_group hgroup hrow).2]
  · exact fun row hrow ↦ h row (mem_of_mem_group hgroup hrow).1

theorem modelReport_cost (pricing : Pricing) {rows : List TokenUsage}
    (h : ∀ row ∈ rows, Counted row) {results : List ModelStats}
    (hreport : modelReport rows = .ok results) :
    (results.map fun r ↦ (Routes.modelRow pricing r).cost).sum =
      (rows.map (requestCost pricing)).sum := by
  obtain ⟨hrange, rfl⟩ := modelReport_eq_ok.mp hreport
  have hperm := List.mergeSort_perm ((groupBy TokenUsage.model rows).map exactModelRow)
    fun a b ↦ b.totalTokens ≤ a.totalTokens
  rw [exactModels, (hperm.map fun r ↦ (Routes.modelRow pricing r).cost).sum_eq, List.map_map]
  exact groupBy_cost pricing id h hrange fun _ ↦ rfl

theorem dailyReport_cost (pricing : Pricing) {date : Int → Option String}
    {rows : List TokenUsage} (h : ∀ row ∈ rows, Counted row) {results : List DailyStats}
    (hreport : dailyReport date rows = .ok results) :
    (results.map fun r ↦ (dayRow pricing r).cost).sum = (rows.map (requestCost pricing)).sum := by
  obtain ⟨hrange, rfl⟩ := dailyReport_eq_ok.mp hreport
  have hperm := List.mergeSort_perm ((groupBy (fun row : TokenUsage ↦ (date row.ts, row.model))
    rows).map exactDailyRow) fun a b ↦ a.day < b.day || a.day = b.day && a.model ≤ b.model
  rw [exactDays, (hperm.map fun r ↦ (dayRow pricing r).cost).sum_eq, List.map_map]
  exact groupBy_cost pricing Prod.snd h (fun group hgroup ↦ (hrange group hgroup).1) fun _ ↦ rfl

/-- The cost of summed counts is the sum of the costs, whatever the prices.  So the grand total of
the dashboard, which is made of rows of models, is what its rows of days cost, and what the requests
of its scope cost. -/
theorem cost_additive :
    (∀ (pricing : Pricing) (model : String) (records : List Usage),
      (∀ u ∈ records, u.model = model ∧ (0 ≤ u.cachedTokens ∧ u.cachedTokens ≤ u.inputTokens) ∧
        0 ≤ u.outputTokens) →
      (records.map fun u ↦ u.inputTokens).sum ≤ i64Max →
      (records.map fun u ↦ u.outputTokens).sum ≤ i64Max →
      pricing.cost model (records.map fun u ↦ u.inputTokens).sum
          (records.map fun u ↦ u.outputTokens).sum (records.map fun u ↦ u.cachedTokens).sum =
        (records.map fun u ↦
          pricing.cost u.model u.inputTokens u.outputTokens u.cachedTokens).sum) ∧
    ∀ events : List History.Event, (∀ e ∈ events, EventHandedOver e) →
      ∀ tables : Tables, tables.toDatabase = (run History.step History.empty events).db →
      ∀ state clock order auth params response,
        dashboardApi state clock order tables auth params = .ok response →
        let requests := scopeRows (resolveUsageScope auth params)
          (clock.startOfDay (-(daysOf params - 1))) tables.toDatabase
        response.grandTotalCost = (response.days.map fun row ↦ row.cost.total).sum ∧
        response.grandTotalCost =
          (requests.map fun row ↦ (requestCost state.pricing row).total).sum := by
  constructor
  · intro pricing model records h hinput _
    rw [pricing.cost_sum model (fun u hu ↦ (h u hu).2) hinput]
    congr 1
    exact List.map_congr_left fun u hu ↦ by rw [(h u hu).1]
  · intro events hevents tables htables state clock order auth params response hresponse requests
    obtain ⟨hcounted, rows, dailyRows, hstats, hdaily, hmodels, hdays, hgrand⟩ :=
      dashboardApi_reports hevents htables hresponse
    have hrequests : response.grandTotalCost =
        (requests.map fun row ↦ (requestCost state.pricing row).total).sum := by
      have hperm := (order.models.perm rows).map fun r ↦
        (Routes.modelRow state.pricing r).cost.total
      rw [hgrand, hmodels, List.map_map]
      show ((order.models.reorder rows).map fun r ↦
        (Routes.modelRow state.pricing r).cost.total).sum = _
      rw [hperm.sum_eq, ← Cost.total_sum, ← Cost.total_sum,
        modelReport_cost state.pricing hcounted hstats]
    refine ⟨hrequests.trans ?_, hrequests⟩
    rw [hdays, List.map_map]
    show _ = (dailyRows.map fun r ↦ (dayRow state.pricing r).cost.total).sum
    rw [← Cost.total_sum, ← Cost.total_sum, dailyReport_cost state.pricing hcounted hdaily]

theorem cost_additive_twoDays : ∃ response,
    dashboardApi pricedState secondDay inOrder twoDaysTables none (fun _ ↦ none) = .ok response ∧
      response.grandTotalCost = (response.days.map fun row ↦ row.cost.total).sum := by
  obtain ⟨response, hresponse⟩ := twoDays_answered
  exact ⟨response, hresponse, (cost_additive.2 twoDays twoDays_handedOver twoDaysTables rfl
    pricedState secondDay inOrder none (fun _ ↦ none) response hresponse).1⟩

end TokenWeasel.Server
