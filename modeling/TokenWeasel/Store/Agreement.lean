import TokenWeasel.Store.Reports

/-!
# Agreement of the reports

Grouped by model, by day or by user, the reports sum the same rows; and the reports of one user sum
those that the report over all users has in the group of that user.
-/

namespace TokenWeasel.Store

open Library

/-- No `SUM` of the reports since a time leaves the range of an `i64`. -/
structure NoOverflow (date : Int → Option String) (sinceTs : Int) (db : Database) : Prop where
  stats : ∀ group ∈ groupBy TokenUsage.model (db.tokenUsage.filter fun row ↦ sinceTs ≤ row.ts),
    InRange group.2
  statsByUser : ∀ group ∈ groupBy ownerGroup
    ((withOwner db).filter fun row ↦ sinceTs ≤ row.1.1.ts),
      InRange (group.2.map fun row ↦ row.1.1)
  daily : ∀ group ∈ groupBy (fun row : TokenUsage ↦ (date row.ts, row.model))
    (db.tokenUsage.filter fun row ↦ sinceTs ≤ row.ts), InRange group.2
  statsForUser : ∀ user ∈ db.users, ∀ group ∈ groupBy TokenUsage.model
    (((usageOf user.id db).filter fun row ↦ sinceTs ≤ row.1.ts).map Prod.fst), InRange group.2
  dailyForUser : ∀ user ∈ db.users,
    ∀ group ∈ groupBy (fun row : TokenUsage ↦ (date row.ts, row.model))
      (((usageOf user.id db).filter fun row ↦ sinceTs ≤ row.1.ts).map Prod.fst), InRange group.2
  statsByKeyForUser : ∀ user ∈ db.users,
    ∀ group ∈ groupBy (fun row : TokenUsage × Attribution ↦ row.1.apiKeyId)
      ((usageOf user.id db).filter fun row ↦ sinceTs ≤ row.1.ts),
        InRange (group.2.map Prod.fst)

/-! ## Each report -/

section

variable {date : Int → Option String}

theorem modelReport_sums {rows : List TokenUsage}
    (h : ∀ group ∈ groupBy TokenUsage.model rows, InRange group.2) :
    ∃ results, modelReport rows = .ok results ∧ ∀ column : Column,
      (results.map fun r ↦ column.ofCounts r.toTokenCounts).sum =
        (rows.map column.ofUsage).sum := by
  refine ⟨_, modelReport_eq_ok.mpr ⟨h, rfl⟩, ?_⟩
  exact sum_mergeSort_groupBy _ id ModelStats.toTokenCounts fun group ↦ by
    rw [List.map_id]
    rfl

theorem dailyReport_sums {rows : List TokenUsage}
    (hdate : ∀ row ∈ rows, (date row.ts).isSome = true)
    (h : ∀ group ∈ groupBy (fun row : TokenUsage ↦ (date row.ts, row.model)) rows,
      InRange group.2) :
    ∃ results, dailyReport date rows = .ok results ∧ ∀ column : Column,
      (results.map fun r ↦ column.ofCounts r.toTokenCounts).sum =
        (rows.map column.ofUsage).sum := by
  refine ⟨_, dailyReport_eq_ok.mpr ⟨fun group hgroup ↦ ⟨h group hgroup, ?_⟩, rfl⟩, ?_⟩
  · rcases (mem_groupBy.mp hgroup).1 with ⟨row, hrow, hkey⟩
    rw [← hkey]
    exact hdate row hrow
  · exact sum_mergeSort_groupBy _ id DailyStats.toTokenCounts fun group ↦ by
      rw [List.map_id]
      rfl

theorem keyReport_sums {rows : List (TokenUsage × Attribution)}
    (h : ∀ group ∈ groupBy (fun row : TokenUsage × Attribution ↦ row.1.apiKeyId) rows,
      InRange (group.2.map Prod.fst)) :
    ∃ results, keyReport rows = .ok results ∧ ∀ column : Column,
      (results.map fun r ↦ column.ofCounts r.toTokenCounts).sum =
        ((rows.map Prod.fst).map column.ofUsage).sum := by
  refine ⟨_, keyReport_eq_ok.mpr ⟨h, rfl⟩, fun column ↦ ?_⟩
  rw [List.map_map]
  exact sum_mergeSort_groupBy _ Prod.fst KeyStats.toTokenCounts (fun group ↦ rfl) column

/-- The report over all users, with the row of each group. -/
theorem ownerReport_sums {rows : List OwnedUsage}
    (h : ∀ group ∈ groupBy ownerGroup rows, InRange (group.2.map fun row ↦ row.1.1)) :
    ∃ results, ownerReport rows = .ok results ∧ (∀ column : Column,
      (results.map fun r ↦ column.ofCounts r.2.toTokenCounts).sum =
        ((rows.map fun row ↦ row.1.1).map column.ofUsage).sum) ∧
      ∀ group, results.find? (fun r ↦ r.1 = group) =
        if ∃ row ∈ rows, ownerGroup row = group then
          some (exactOwnerRow (group, rows.filter fun row ↦ ownerGroup row = group))
        else none := by
  refine ⟨_, ownerReport_eq_ok.mpr ⟨h, rfl⟩, fun column ↦ ?_,
    report_find? Prod.fst fun group ↦ rfl⟩
  rw [List.map_map]
  exact sum_mergeSort_groupBy _ (fun row : OwnedUsage ↦ row.1.1)
    (fun r : String × KeyStats ↦ r.2.toTokenCounts) (fun group ↦ rfl) column

end

/-! ## All of them -/

/-- The row that the report over all users has for a group. -/
def groupCounts (owners : List (String × KeyStats)) (group : String) (column : Column) : Int :=
  match owners.find? fun r ↦ r.1 = group with
  | some r => column.ofCounts r.2.toTokenCounts
  | none => 0

theorem groupCounts_user {db : Database} (h : Schema db) (selected : TokenUsage → Bool)
    {owners : List (String × KeyStats)} (hfind : ∀ group, owners.find? (fun r ↦ r.1 = group) =
      if ∃ row ∈ (withOwner db).filter (fun row : OwnedUsage ↦ selected row.1.1),
          ownerGroup row = group then
        some (exactOwnerRow (group,
          ((withOwner db).filter fun row : OwnedUsage ↦ selected row.1.1).filter
            fun row ↦ ownerGroup row = group))
      else none) (userId : Int) (column : Column) :
    groupCounts owners (userGroup userId) column =
      ((db.tokenUsage.filter fun row ↦ selected row && decide (ownerOf db row = some userId)).map
        column.ofUsage).sum := by
  rw [← h.withOwner_user_rows, groupCounts, hfind]
  split
  · rename_i r hr
    split at hr
    · rw [← Option.some.inj hr]
      exact ofCounts_exactCounts column _
    · exact absurd hr (by simp)
  · rename_i hr
    split at hr
    · exact absurd hr (by simp)
    · rename_i hnone
      -- a user without a row in the report has no usage, which sums to zero
      have hempty : (((withOwner db).filter fun row ↦ selected row.1.1).filter fun row ↦
          ownerGroup row = userGroup userId) = [] := by
        apply List.filter_eq_nil_iff.mpr
        intro row hrow heq
        exact hnone ⟨row, hrow, of_decide_eq_true heq⟩
      rw [hempty]
      rfl

/-- The reports agree, with each other and with the rows of the table. -/
theorem reports_agree (date : Int → Option String) (db : Database) (sinceTs : Int)
    (hschema : Schema db) (hsince : 0 ≤ sinceTs)
    (hdate : ∀ row ∈ db.tokenUsage, 0 ≤ row.ts ∧ (date row.ts).isSome = true)
    (hsums : NoOverflow date sinceTs db) :
    ∃ models days owners, stats sinceTs db = .ok models ∧ daily date sinceTs db = .ok days ∧
      ownerReport ((withOwner db).filter fun row ↦ sinceTs ≤ row.1.1.ts) = .ok owners ∧
      statsByUser sinceTs db = .ok (owners.map Prod.snd) ∧
      (∀ column : Column,
        let exact := ((db.tokenUsage.filter fun row ↦ sinceTs ≤ row.ts).map column.ofUsage).sum
        (models.map fun r ↦ column.ofCounts r.toTokenCounts).sum = exact ∧
        (days.map fun r ↦ column.ofCounts r.toTokenCounts).sum = exact ∧
        ((owners.map Prod.snd).map fun r ↦ column.ofCounts r.toTokenCounts).sum = exact) ∧
      ∀ user ∈ db.users, ∃ models days keys, statsForUser sinceTs user.id db = .ok models ∧
        dailyForUser date sinceTs user.id db = .ok days ∧
        statsByKeyForUser sinceTs user.id db = .ok keys ∧
        ∀ column : Column,
          let own := groupCounts owners (userGroup user.id) column
          (models.map fun r ↦ column.ofCounts r.toTokenCounts).sum = own ∧
          (days.map fun r ↦ column.ofCounts r.toTokenCounts).sum = own ∧
          (keys.map fun r ↦ column.ofCounts r.toTokenCounts).sum = own := by
  -- `daily` does not look before the epoch, and neither does the time
  have hmax : max sinceTs 0 = sinceTs := by omega
  have hdates : ∀ (rows : List TokenUsage), (∀ row ∈ rows, row ∈ db.tokenUsage) →
      ∀ row ∈ rows, (date row.ts).isSome = true :=
    fun rows hrows row hrow ↦ (hdate row (hrows row hrow)).2
  rcases modelReport_sums hsums.stats with ⟨models, hmodels, hmodelSums⟩
  rcases dailyReport_sums (hdates _ fun row hrow ↦ List.mem_of_mem_filter hrow) hsums.daily with
    ⟨days, hdays, hdaySums⟩
  rcases ownerReport_sums hsums.statsByUser with ⟨owners, howners, hownerSums, hfind⟩
  rw [hschema.withOwner_rows (fun row ↦ sinceTs ≤ row.ts)] at hownerSums
  refine ⟨models, days, owners, hmodels, ?_, howners, ?_, fun column ↦ ⟨hmodelSums column,
    hdaySums column, ?_⟩, fun user huser ↦ ?_⟩
  · rw [daily, hmax]
    exact hdays
  · rw [statsByUser, howners]
    rfl
  · rw [List.map_map]
    exact hownerSums column
  · have hown := hschema.usageOf_rows user.id fun row ↦ sinceTs ≤ row.ts
    -- the rows of one user are rows of the table, so they have days
    have hrows : ∀ row ∈ ((usageOf user.id db).filter fun row ↦ sinceTs ≤ row.1.ts).map Prod.fst,
        row ∈ db.tokenUsage := by
      intro row hrow
      rw [hown] at hrow
      exact List.mem_of_mem_filter hrow
    rcases modelReport_sums (hsums.statsForUser user huser) with ⟨models, hmodels, hmodelSums⟩
    rcases dailyReport_sums (hdates _ hrows) (hsums.dailyForUser user huser) with
      ⟨days, hdays, hdaySums⟩
    rcases keyReport_sums (hsums.statsByKeyForUser user huser) with ⟨keys, hkeys, hkeySums⟩
    refine ⟨models, days, keys, hmodels, ?_, hkeys, fun column ↦ ?_⟩
    · rw [dailyForUser, hmax]
      exact hdays
    · have hgroup := groupCounts_user hschema (fun row ↦ sinceTs ≤ row.ts) hfind user.id column
      rw [← hown] at hgroup
      dsimp only
      rw [hgroup]
      exact ⟨hmodelSums column, hdaySums column, hkeySums column⟩

/-- A user with a key, and usage without a key, with that key, and with one that is gone. -/
def someUsage : Database :=
  { run Call.perform {}
      [.createUser (some 1) none "admin" "hash" true,
        .insertApiKey (some 2) (fun _ ↦ none) 1 none "key hash" "twl_abcdef"] with
    tokenUsage :=
      [⟨1, 100, "m", "/v1/chat/completions", 5, 3, 2, 8, none⟩,
        ⟨2, 200, "m", "/v1/chat/completions", 7, 1, 0, 8, some 1⟩,
        ⟨3, 300, "n", "/v1/embeddings", 2, 0, 0, 2, some 9⟩] }

theorem reports_agree_someUsage : ∃ owners, statsByUser 0 someUsage = .ok owners ∧
    (owners.map fun r ↦ r.totalTokens).sum = 18 := by
  have hintegrity : Integrity someUsage := (run_integrity _ empty_integrity).tokenUsage _ 0
  have hsums : NoOverflow (fun _ ↦ some "1970-01-01") 0 someUsage :=
    { stats := by decide +kernel, statsByUser := by decide +kernel, daily := by decide +kernel
      statsForUser := by decide +kernel, dailyForUser := by decide +kernel
      statsByKeyForUser := by decide +kernel }
  rcases reports_agree (fun _ ↦ some "1970-01-01") someUsage 0 hintegrity.toSchema (by decide)
    (by decide +kernel) hsums with ⟨_, _, owners, -, -, -, howners, hcolumns, -⟩
  exact ⟨_, howners, (hcolumns .totalTokens).2.2.trans (by decide +kernel)⟩

end TokenWeasel.Store
