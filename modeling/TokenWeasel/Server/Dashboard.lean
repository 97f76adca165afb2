import Mathlib.Algebra.Order.BigOperators.Group.List
import TokenWeasel.Store.History

/-!
# The dashboard (`twl-server/src/routes.rs`)

Whether the reports that the dashboard reads are there, for every history whose records were read
off responses.  The store takes whatever counts a response has, and the sums of the reports fail
when they leave the range of an `i64`.
-/

namespace TokenWeasel.Server

open Library Store

/-- `grand_total_tokens`, which `dashboard_api` adds up over the rows. -/
def grandTotalTokens (rows : List ModelStats) : Option Int :=
  checkedSum i64Min i64Max (rows.map fun r ↦ r.totalTokens)

/-- A record that was read off a response, with the key of its request. -/
def Reported (u : Usage) : Prop :=
  ∃ v endpoint reqModel extracted, (Usage.extractUsage v endpoint reqModel = some extracted ∨
    Usage.scavengeUsage v endpoint reqModel = some extracted) ∧
    u = { extracted with apiKeyId := u.apiKeyId }

/-- The records of a history are such records. -/
def EventReported : History.Event → Prop
  | .record _ _ u => Reported u
  | _ => True

/-! ## The counts of stored rows -/

/-- No count of a row is negative, and what was cached is of the input. -/
structure Counted (row : TokenUsage) : Prop where
  inputTokens : 0 ≤ row.inputTokens
  outputTokens : 0 ≤ row.outputTokens
  cachedTokens : 0 ≤ row.cachedTokens ∧ row.cachedTokens ≤ row.inputTokens
  totalTokens : 0 ≤ row.totalTokens

theorem Reported.counted {u : Usage} (h : Reported u) (id ts : Int) :
    Counted (storedUsage id ts u) := by
  rcases h with ⟨v, endpoint, reqModel, extracted, hextracted, heq⟩
  have hcounted : extracted.Counted := by
    cases hextracted with
    | inl hextract => exact Usage.extractUsage_counted hextract
    | inr hscavenge => exact Usage.scavengeUsage_counted hscavenge
  rw [heq]
  exact { inputTokens := hcounted.inputTokens, outputTokens := hcounted.outputTokens,
          cachedTokens := hcounted.cachedTokens, totalTokens := hcounted.totalTokens }

theorem run_counted {events : List History.Event} (h : ∀ e ∈ events, EventReported e) :
    ∀ row ∈ (run History.step History.empty events).db.tokenUsage, Counted row :=
  run_tokenUsage fun ts _ _ id hmem ↦ Reported.counted (h _ hmem) id ts

/-! ## Sums in range -/

/-- The input and the output tokens of the rows sum to an `i64`. -/
def Fits (rows : List TokenUsage) : Prop :=
  (rows.map TokenUsage.inputTokens).sum ≤ i64Max ∧ (rows.map TokenUsage.outputTokens).sum ≤ i64Max

instance (rows : List TokenUsage) : Decidable (Fits rows) := inferInstanceAs (Decidable (_ ∧ _))

section

variable {rows : List TokenUsage}

theorem sumInRange_iff {column : TokenUsage → Int} (h : ∀ row ∈ rows, 0 ≤ column row) :
    SumInRange column rows ↔ (rows.map column).sum ≤ i64Max :=
  checkedSum_isSome (by decide) (by decide) (by simpa using h)

/-- What was cached is no more than the input. -/
theorem countsInRange_iff (h : ∀ row ∈ rows, Counted row) : CountsInRange rows ↔ Fits rows := by
  rw [CountsInRange, sumInRange_iff fun row hrow ↦ (h row hrow).inputTokens,
    sumInRange_iff fun row hrow ↦ (h row hrow).outputTokens,
    sumInRange_iff fun row hrow ↦ (h row hrow).cachedTokens.1]
  -- the sum of the cached tokens adds no condition
  have hcached : (rows.map TokenUsage.cachedTokens).sum ≤ (rows.map TokenUsage.inputTokens).sum :=
    List.sum_le_sum fun row hrow ↦ (h row hrow).cachedTokens.2
  constructor
  · exact fun hall ↦ ⟨hall.1, hall.2.1⟩
  · exact fun hfits ↦ ⟨hfits.1, hfits.2, Int.le_trans hcached hfits.1⟩

theorem inRange_iff (h : ∀ row ∈ rows, Counted row) :
    InRange rows ↔ Fits rows ∧ (rows.map TokenUsage.totalTokens).sum ≤ i64Max := by
  rw [InRange, countsInRange_iff h, sumInRange_iff fun row hrow ↦ (h row hrow).totalTokens]

/-- Fewer rows sum to no more. -/
theorem sum_filter_le {column : TokenUsage → Int} (h : ∀ row ∈ rows, 0 ≤ column row)
    {p q : TokenUsage → Bool} (hpq : ∀ row, p row = true → q row = true) :
    ((rows.filter p).map column).sum ≤ ((rows.filter q).map column).sum := by
  refine ((List.monotone_filter_right rows hpq).map column).sum_le_sum fun n hn ↦ ?_
  rcases List.mem_map.mp hn with ⟨row, hrow, rfl⟩
  exact h row (List.mem_of_mem_filter hrow)

theorem Fits.filter (h : ∀ row ∈ rows, Counted row) {p q : TokenUsage → Bool}
    (hfits : Fits (rows.filter q)) (hpq : ∀ row, p row = true → q row = true) :
    Fits (rows.filter p) :=
  ⟨Int.le_trans (sum_filter_le (fun row hrow ↦ (h row hrow).inputTokens) hpq) hfits.1,
    Int.le_trans (sum_filter_le (fun row hrow ↦ (h row hrow).outputTokens) hpq) hfits.2⟩

theorem countsInRange_filter_iff (h : ∀ row ∈ rows, Counted row) (p : TokenUsage → Bool) :
    CountsInRange (rows.filter p) ↔ Fits (rows.filter p) :=
  countsInRange_iff fun row hrow ↦ h row (List.mem_of_mem_filter hrow)

theorem inRange_filter_iff (h : ∀ row ∈ rows, Counted row) {p q : TokenUsage → Bool}
    (htotal : ((rows.filter q).map TokenUsage.totalTokens).sum ≤ i64Max)
    (hpq : ∀ row, p row = true → q row = true) :
    InRange (rows.filter p) ↔ Fits (rows.filter p) := by
  rw [inRange_iff fun row hrow ↦ h row (List.mem_of_mem_filter hrow)]
  refine ⟨fun hboth ↦ hboth.1, fun hfits ↦ ⟨hfits, Int.le_trans ?_ htotal⟩⟩
  exact sum_filter_le (fun row hrow ↦ (h row hrow).totalTokens) hpq

end

/-! ## Reports that are there -/

/-- The reports since a time, and of a day, succeed with exact rows, and so does the grand total. -/
structure Available (date : Int → Option String) (sinceTs dayStartTs endTs : Int)
    (db : Database) : Prop where
  stats : Store.stats sinceTs db =
    .ok (exactModels (db.tokenUsage.filter fun row ↦ sinceTs ≤ row.ts))
  statsByUser : Store.statsByUser sinceTs db =
    .ok ((exactOwners ((withOwner db).filter fun row ↦ sinceTs ≤ row.1.1.ts)).map Prod.snd)
  daily : Store.daily date sinceTs db =
    .ok (exactDays date (db.tokenUsage.filter fun row ↦ max sinceTs 0 ≤ row.ts))
  todayBuckets : Store.todayBuckets dayStartTs endTs db =
    .ok (exactBuckets dayStartTs
      (db.tokenUsage.filter fun row ↦ dayStartTs ≤ row.ts && row.ts < endTs))
  statsForUser : ∀ userId, Store.statsForUser sinceTs userId db =
    .ok (exactModels (((usageOf userId db).filter fun row ↦ sinceTs ≤ row.1.ts).map Prod.fst))
  dailyForUser : ∀ userId, Store.dailyForUser date sinceTs userId db =
    .ok (exactDays date
      (((usageOf userId db).filter fun row ↦ max sinceTs 0 ≤ row.1.ts).map Prod.fst))
  statsByKeyForUser : ∀ userId, Store.statsByKeyForUser sinceTs userId db =
    .ok (exactKeys ((usageOf userId db).filter fun row ↦ sinceTs ≤ row.1.ts))
  todayBucketsForUser : ∀ userId, Store.todayBucketsForUser dayStartTs endTs userId db =
    .ok (exactBuckets dayStartTs (((usageOf userId db).filter fun row ↦
      dayStartTs ≤ row.1.ts && row.1.ts < endTs).map Prod.fst))
  grandTotal : ∀ models, Store.stats sinceTs db = .ok models →
    grandTotalTokens models = some ((db.tokenUsage.filter fun row ↦ sinceTs ≤ row.ts).map
      TokenUsage.totalTokens).sum
  grandTotalForUser : ∀ userId models, Store.statsForUser sinceTs userId db = .ok models →
    grandTotalTokens models =
      some ((((usageOf userId db).filter fun row ↦ sinceTs ≤ row.1.ts).map Prod.fst).map
        TokenUsage.totalTokens).sum

/-- The rows since a time sum to an `i64` in total, and those of each model, of each user, deleted
key or no key, and of each five minutes of the day do so in input and output; and they have days. -/
structure SumsFit (date : Int → Option String) (sinceTs dayStartTs endTs : Int)
    (db : Database) : Prop where
  total : ((db.tokenUsage.filter fun row ↦ sinceTs ≤ row.ts).map TokenUsage.totalTokens).sum ≤
    i64Max
  model : ∀ model, Fits (db.tokenUsage.filter fun row ↦
    decide (sinceTs ≤ row.ts) && decide (row.model = model))
  owner : ∀ group, Fits (db.tokenUsage.filter fun row ↦ decide (sinceTs ≤ row.ts) &&
    decide (ownerGroup ((row, attributionOf db row), userOf db row) = group))
  bucket : ∀ i, Fits (db.tokenUsage.filter fun row ↦
    (decide (dayStartTs ≤ row.ts) && decide (row.ts < endTs)) &&
      decide (bucketOf dayStartTs row = i))
  day : ∀ row ∈ db.tokenUsage, max sinceTs 0 ≤ row.ts → (date row.ts).isSome = true

section

variable {date : Int → Option String} {sinceTs dayStartTs endTs : Int} {db : Database}

theorem inRange_nil : InRange [] := by decide

/-- The groups of the rows that a filter selects. -/
theorem forall_inRange {κ : Type} [DecidableEq κ] {key : TokenUsage → κ}
    {rows : List TokenUsage} (h : ∀ row ∈ rows, Counted row) {selected : TokenUsage → Bool}
    (htotal : ((rows.filter selected).map TokenUsage.totalTokens).sum ≤ i64Max) :
    (∀ group ∈ groupBy key (rows.filter selected), InRange group.2) ↔
      ∀ k, Fits (rows.filter fun row ↦ selected row && decide (key row = k)) := by
  rw [forall_groupBy inRange_nil]
  refine forall_congr' fun k ↦ ?_
  rw [List.filter_filter, inRange_filter_iff h htotal fun row hrow ↦
    (Bool.and_eq_true_iff.mp hrow).2]
  simp only [Bool.and_comm]

theorem forall_countsInRange {rows : List TokenUsage} (h : ∀ row ∈ rows, Counted row)
    {selected : TokenUsage → Bool} {key : TokenUsage → Nat} :
    (∀ group ∈ groupBy key (rows.filter selected), CountsInRange group.2) ↔
      ∀ k, Fits (rows.filter fun row ↦ selected row && decide (key row = k)) := by
  rw [forall_groupBy (by decide)]
  refine forall_congr' fun k ↦ ?_
  rw [List.filter_filter, countsInRange_filter_iff h]
  simp only [Bool.and_comm]

theorem forall_owner_inRange (hschema : Schema db) (h : ∀ row ∈ db.tokenUsage, Counted row)
    (htotal : ((db.tokenUsage.filter fun row ↦ sinceTs ≤ row.ts).map
      TokenUsage.totalTokens).sum ≤ i64Max) :
    (∀ group ∈ groupBy ownerGroup ((withOwner db).filter fun row ↦ sinceTs ≤ row.1.1.ts),
      InRange (group.2.map fun row ↦ row.1.1)) ↔
      ∀ group, Fits (db.tokenUsage.filter fun row ↦ decide (sinceTs ≤ row.ts) &&
        decide (ownerGroup ((row, attributionOf db row), userOf db row) = group)) := by
  rw [forall_groupBy (P := fun rows : List OwnedUsage ↦ InRange (rows.map fun row ↦ row.1.1))
    inRange_nil]
  refine forall_congr' fun group ↦ ?_
  rw [hschema.withOwner_group_rows fun row ↦ sinceTs ≤ row.ts]
  exact inRange_filter_iff h htotal fun row hrow ↦ (Bool.and_eq_true_iff.mp hrow).1

/-- The totals of the models sum to the total of the rows. -/
theorem grandTotalTokens_exactModels {rows : List TokenUsage} (h : ∀ row ∈ rows, Counted row) :
    grandTotalTokens (exactModels rows) = some (rows.map TokenUsage.totalTokens).sum ↔
      (rows.map TokenUsage.totalTokens).sum ≤ i64Max := by
  have hsum : ((exactModels rows).map fun r ↦ r.totalTokens).sum =
      (rows.map TokenUsage.totalTokens).sum :=
    sum_mergeSort_groupBy _ id ModelStats.toTokenCounts (fun group ↦ by rw [List.map_id]; rfl)
      Column.totalTokens
  -- without negative terms the order of the rows does not matter
  have hterms : ∀ n ∈ (exactModels rows).map fun r ↦ r.totalTokens, 0 ≤ n := by
    intro n hn
    rcases List.mem_map.mp hn with ⟨r, hr, rfl⟩
    rcases List.mem_map.mp (List.mem_mergeSort.mp hr) with ⟨group, hgroup, rfl⟩
    show 0 ≤ (group.2.map TokenUsage.totalTokens).sum
    rw [(mem_groupBy.mp hgroup).2]
    exact sum_map_nonneg fun row hrow ↦ (h row (List.mem_of_mem_filter hrow)).totalTokens
  have hrange : (checkedSum i64Min i64Max ((exactModels rows).map fun r ↦ r.totalTokens)).isSome =
      true ↔ ((exactModels rows).map fun r ↦ r.totalTokens).sum ≤ i64Max :=
    checkedSum_isSome (by decide) (by decide) hterms
  rw [grandTotalTokens, ← hsum]
  constructor
  · intro hsome
    exact hrange.mp (by rw [hsome]; rfl)
  · intro hle
    exact checkedSum_eq_some (hrange.mpr hle)

/-- Rows of one user since the time, however a report of the user groups them. -/
theorem SumsFit.inRange_forUser (hfit : SumsFit date sinceTs dayStartTs endTs db)
    (hschema : Schema db) (h : ∀ row ∈ db.tokenUsage, Counted row) (userId : Int)
    {p : TokenUsage → Bool}
    (hp : ∀ row, p row = true → sinceTs ≤ row.ts ∧ ownerOf db row = some userId) :
    InRange (db.tokenUsage.filter p) := by
  rw [inRange_filter_iff h hfit.total fun row hrow ↦ decide_eq_true (hp row hrow).1]
  -- the rows of the user are those of the user's group
  refine (hfit.owner (userGroup userId)).filter h fun row hrow ↦ ?_
  rw [decide_eq_true (hp row hrow).1,
    decide_eq_true (hschema.ownerGroup_eq_userGroup.mpr (hp row hrow).2)]
  rfl

theorem SumsFit.daysInRange (hfit : SumsFit date sinceTs dayStartTs endTs db)
    {rows : List TokenUsage} (hrows : ∀ row ∈ rows, row ∈ db.tokenUsage ∧ max sinceTs 0 ≤ row.ts)
    (hrange : ∀ key, InRange (rows.filter fun row ↦ (date row.ts, row.model) = key)) :
    dailyReport date rows = .ok (exactDays date rows) := by
  refine dailyReport_eq_ok.mpr ⟨fun group hgroup ↦ ⟨?_, ?_⟩, rfl⟩
  · exact (forall_groupBy inRange_nil).mpr hrange group hgroup
  · rcases (mem_groupBy.mp hgroup).1 with ⟨row, hrow, hkey⟩
    rw [← hkey]
    exact hfit.day row (hrows row hrow).1 (hrows row hrow).2

theorem SumsFit.daily (hfit : SumsFit date sinceTs dayStartTs endTs db)
    (h : ∀ row ∈ db.tokenUsage, Counted row) : Store.daily date sinceTs db =
      .ok (exactDays date (db.tokenUsage.filter fun row ↦ max sinceTs 0 ≤ row.ts)) := by
  refine hfit.daysInRange (fun row hrow ↦ ?_) fun key ↦ ?_
  · exact ⟨List.mem_of_mem_filter hrow, of_decide_eq_true (List.mem_filter.mp hrow).2⟩
  · rw [List.filter_filter, inRange_filter_iff h hfit.total]
    · refine (hfit.model key.2).filter h fun row hrow ↦ ?_
      simp only [Bool.and_eq_true, decide_eq_true_eq] at hrow ⊢
      -- a group of a day is part of the group of its model
      exact ⟨by omega, congrArg Prod.snd hrow.1⟩
    · intro row hrow
      simp only [Bool.and_eq_true, decide_eq_true_eq] at hrow ⊢
      omega

theorem SumsFit.statsForUser (hfit : SumsFit date sinceTs dayStartTs endTs db)
    (hschema : Schema db) (h : ∀ row ∈ db.tokenUsage, Counted row) (userId : Int) :
    Store.statsForUser sinceTs userId db = .ok
      (exactModels (((usageOf userId db).filter fun row ↦ sinceTs ≤ row.1.ts).map Prod.fst)) := by
  refine modelReport_eq_ok.mpr ⟨?_, rfl⟩
  rw [hschema.usageOf_rows userId fun row ↦ sinceTs ≤ row.ts, forall_groupBy inRange_nil]
  intro model
  rw [List.filter_filter]
  refine hfit.inRange_forUser hschema h userId fun row hrow ↦ ?_
  simp only [Bool.and_eq_true, decide_eq_true_eq] at hrow
  exact hrow.2

theorem SumsFit.dailyForUser (hfit : SumsFit date sinceTs dayStartTs endTs db)
    (hschema : Schema db) (h : ∀ row ∈ db.tokenUsage, Counted row) (userId : Int) :
    Store.dailyForUser date sinceTs userId db = .ok (exactDays date
      (((usageOf userId db).filter fun row ↦ max sinceTs 0 ≤ row.1.ts).map Prod.fst)) := by
  refine hfit.daysInRange (fun row hrow ↦ ?_) fun key ↦ ?_
  · rw [hschema.usageOf_rows userId fun row ↦ max sinceTs 0 ≤ row.ts] at hrow
    have hselected := (List.mem_filter.mp hrow).2
    rw [Bool.and_eq_true_iff] at hselected
    exact ⟨List.mem_of_mem_filter hrow, of_decide_eq_true hselected.1⟩
  · rw [hschema.usageOf_rows userId fun row ↦ max sinceTs 0 ≤ row.ts, List.filter_filter]
    refine hfit.inRange_forUser hschema h userId fun row hrow ↦ ?_
    simp only [Bool.and_eq_true, decide_eq_true_eq] at hrow
    exact ⟨by omega, hrow.2.2⟩

theorem SumsFit.statsByKeyForUser (hfit : SumsFit date sinceTs dayStartTs endTs db)
    (hschema : Schema db) (h : ∀ row ∈ db.tokenUsage, Counted row) (userId : Int) :
    Store.statsByKeyForUser sinceTs userId db =
      .ok (exactKeys ((usageOf userId db).filter fun row ↦ sinceTs ≤ row.1.ts)) := by
  refine keyReport_eq_ok.mpr ⟨?_, rfl⟩
  rw [forall_groupBy (P := fun rows : List (TokenUsage × Attribution) ↦
    InRange (rows.map Prod.fst)) inRange_nil]
  intro keyId
  show InRange (List.map Prod.fst (List.filter
    ((fun row : TokenUsage ↦ decide (row.apiKeyId = keyId)) ∘ Prod.fst) _))
  rw [← List.filter_map, hschema.usageOf_rows userId fun row ↦ sinceTs ≤ row.ts, List.filter_filter]
  refine hfit.inRange_forUser hschema h userId fun row hrow ↦ ?_
  simp only [Bool.and_eq_true, decide_eq_true_eq] at hrow
  exact hrow.2

theorem SumsFit.todayBucketsForUser (hfit : SumsFit date sinceTs dayStartTs endTs db)
    (hschema : Schema db) (h : ∀ row ∈ db.tokenUsage, Counted row) (userId : Int) :
    Store.todayBucketsForUser dayStartTs endTs userId db = .ok (exactBuckets dayStartTs
      (((usageOf userId db).filter fun row ↦
        dayStartTs ≤ row.1.ts && row.1.ts < endTs).map Prod.fst)) := by
  refine bucketReport_eq_ok.mpr ⟨?_, rfl⟩
  rw [hschema.usageOf_rows userId fun row ↦ dayStartTs ≤ row.ts && row.ts < endTs,
    forall_countsInRange h]
  intro i
  refine (hfit.bucket i).filter h fun row hrow ↦ ?_
  simp only [Bool.and_eq_true, decide_eq_true_eq] at hrow ⊢
  exact ⟨hrow.1.1, hrow.2⟩

/-- The grand total over the rows of one user is at most that over all rows. -/
theorem SumsFit.totalForUser (hfit : SumsFit date sinceTs dayStartTs endTs db)
    (hschema : Schema db) (h : ∀ row ∈ db.tokenUsage, Counted row) (userId : Int) :
    let rows := ((usageOf userId db).filter fun row ↦ sinceTs ≤ row.1.ts).map Prod.fst
    grandTotalTokens (exactModels rows) = some (rows.map TokenUsage.totalTokens).sum := by
  dsimp only
  rw [hschema.usageOf_rows userId fun row ↦ sinceTs ≤ row.ts, grandTotalTokens_exactModels
    fun row hrow ↦ h row (List.mem_of_mem_filter hrow)]
  refine Int.le_trans (sum_filter_le (fun row hrow ↦ (h row hrow).totalTokens) ?_) hfit.total
  exact fun row hrow ↦ (Bool.and_eq_true_iff.mp hrow).1

theorem available_of_sumsFit (hschema : Schema db) (h : ∀ row ∈ db.tokenUsage, Counted row)
    (hfit : SumsFit date sinceTs dayStartTs endTs db) :
    Available date sinceTs dayStartTs endTs db := by
  have hstats : Store.stats sinceTs db =
      .ok (exactModels (db.tokenUsage.filter fun row ↦ sinceTs ≤ row.ts)) :=
    modelReport_eq_ok.mpr ⟨(forall_inRange h hfit.total).mpr hfit.model, rfl⟩
  refine { stats := hstats, statsByUser := ?_, daily := hfit.daily h, todayBuckets := ?_,
           statsForUser := hfit.statsForUser hschema h,
           dailyForUser := hfit.dailyForUser hschema h,
           statsByKeyForUser := hfit.statsByKeyForUser hschema h,
           todayBucketsForUser := hfit.todayBucketsForUser hschema h,
           grandTotal := fun models hmodels ↦ ?_,
           grandTotalForUser := fun userId models hmodels ↦ ?_ }
  · exact statsByUser_eq_ok.mpr ⟨(forall_owner_inRange hschema h hfit.total).mpr hfit.owner, rfl⟩
  · exact bucketReport_eq_ok.mpr ⟨(forall_countsInRange h).mpr hfit.bucket, rfl⟩
  · rw [Except.ok.inj (hmodels.symm.trans hstats), grandTotalTokens_exactModels fun row hrow ↦
      h row (List.mem_of_mem_filter hrow)]
    exact hfit.total
  · rw [Except.ok.inj (hmodels.symm.trans (hfit.statsForUser hschema h userId))]
    exact hfit.totalForUser hschema h userId

theorem sumsFit_of_available (hschema : Schema db) (h : ∀ row ∈ db.tokenUsage, Counted row)
    (havailable : Available date sinceTs dayStartTs endTs db) :
    SumsFit date sinceTs dayStartTs endTs db := by
  have htotal : ((db.tokenUsage.filter fun row ↦ sinceTs ≤ row.ts).map
      TokenUsage.totalTokens).sum ≤ i64Max := by
    -- the total is read off the grand total, and bounds the totals of the other reports
    rw [← grandTotalTokens_exactModels fun row hrow ↦ h row (List.mem_of_mem_filter hrow)]
    exact havailable.grandTotal _ havailable.stats
  refine { total := htotal, model := ?_, owner := ?_, bucket := ?_, day := ?_ }
  · exact (forall_inRange h htotal).mp (modelReport_eq_ok.mp havailable.stats).1
  · exact (forall_owner_inRange hschema h htotal).mp (statsByUser_eq_ok.mp havailable.statsByUser).1
  · exact (forall_countsInRange h).mp (bucketReport_eq_ok.mp havailable.todayBuckets).1
  · intro row hrow hts
    have hmem : row ∈ db.tokenUsage.filter fun row ↦ max sinceTs 0 ≤ row.ts :=
      List.mem_filter.mpr ⟨hrow, decide_eq_true hts⟩
    exact ((dailyReport_eq_ok.mp havailable.daily).1 _ (groupBy_of_mem hmem)).2

/-- Enough for all of it is that everything stored sums to an `i64`. -/
theorem SumsFit.of_sums (h : ∀ row ∈ db.tokenUsage, Counted row) (hfits : Fits db.tokenUsage)
    (htotal : (db.tokenUsage.map TokenUsage.totalTokens).sum ≤ i64Max)
    (hday : ∀ row ∈ db.tokenUsage, (date row.ts).isSome = true) :
    SumsFit date sinceTs dayStartTs endTs db := by
  -- every condition is on a part of the rows
  have hall : db.tokenUsage.filter (fun _ ↦ true) = db.tokenUsage :=
    List.filter_eq_self.mpr fun _ _ ↦ rfl
  rw [← hall] at hfits htotal
  refine { total := ?_, model := fun _ ↦ hfits.filter h fun _ _ ↦ rfl,
           owner := fun _ ↦ hfits.filter h fun _ _ ↦ rfl,
           bucket := fun _ ↦ hfits.filter h fun _ _ ↦ rfl, day := fun row hrow _ ↦ hday row hrow }
  exact Int.le_trans (sum_filter_le (fun row hrow ↦ (h row hrow).totalTokens) fun _ _ ↦ rfl) htotal

end

/-! ## When they are there -/

/-- Whatever responses reported, the reports are there exactly while the sums fit. -/
theorem available_iff_sumsFit (date : Int → Option String) {events : List History.Event}
    (hreported : ∀ e ∈ events, EventReported e) (sinceTs dayStartTs endTs : Int) :
    let db := (run History.step History.empty events).db
    Available date sinceTs dayStartTs endTs db ↔ SumsFit date sinceTs dayStartTs endTs db := by
  intro db
  have hschema : Schema db := (run_coherent events).integrity.toSchema
  have hcounted : ∀ row ∈ db.tokenUsage, Counted row := run_counted hreported
  exact ⟨sumsFit_of_available hschema hcounted, available_of_sumsFit hschema hcounted⟩

/-- A response body with the usage of a chat completion. -/
def completionResponse (promptTokens completionTokens : Int) : Value :=
  .object [("model", .string "m"), ("usage", .object
    [("completion_tokens", .number (.int completionTokens)),
      ("prompt_tokens", .number (.int promptTokens))])]

def completionUsage (promptTokens completionTokens : Int) : Usage :=
  { model := "m", endpoint := "/v1/chat/completions", inputTokens := promptTokens,
    outputTokens := completionTokens, cachedTokens := 0,
    totalTokens := saturatingAdd promptTokens completionTokens, apiKeyId := none }

theorem completionUsage_ordinary : Reported (completionUsage 5 3) :=
  ⟨completionResponse 5 3, "/v1/chat/completions", none, completionUsage 5 3,
    Or.inl (by decide +kernel), rfl⟩

theorem completionUsage_huge : Reported (completionUsage i64Max 0) :=
  ⟨completionResponse i64Max 0, "/v1/chat/completions", none, completionUsage i64Max 0,
    Or.inl (by decide +kernel), rfl⟩

theorem available_ordinary : Available (fun _ ↦ some "1970-01-01") 0 0 86400
    (run History.step History.empty [.record (some 100) none (completionUsage 5 3)]).db := by
  have hreported : ∀ e ∈ [History.Event.record (some 100) none (completionUsage 5 3)],
      EventReported e := by
    simpa [EventReported] using completionUsage_ordinary
  exact (available_iff_sumsFit _ hreported 0 0 86400).mpr
    (SumsFit.of_sums (run_counted hreported) (by decide +kernel) (by decide +kernel)
      (by decide +kernel))

/-- One response with the largest count there is, and any other of the model. -/
def hugeThenOrdinary : List History.Event :=
  [.record (some 100) none (completionUsage i64Max 0),
    .record (some 200) none (completionUsage 5 3)]

theorem huge_count_disables_stats : (∀ e ∈ hugeThenOrdinary, EventReported e) ∧
    Store.stats 0 (run History.step History.empty hugeThenOrdinary).db =
      .error (.sqlite .integerOverflow) ∧
    ∀ date dayStartTs endTs, ¬ Available date 0 dayStartTs endTs
      (run History.step History.empty hugeThenOrdinary).db := by
  have hfails : Store.stats 0 (run History.step History.empty hugeThenOrdinary).db =
      .error (.sqlite .integerOverflow) := by
    decide +kernel
  refine ⟨?_, hfails, fun date dayStartTs endTs havailable ↦ ?_⟩
  · simpa [hugeThenOrdinary, EventReported] using
      ⟨completionUsage_huge, completionUsage_ordinary⟩
  · have hstats := havailable.stats
    rw [hfails] at hstats
    exact absurd hstats (by simp)

end TokenWeasel.Server
