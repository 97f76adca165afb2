import TokenWeasel.Library.Numeral
import TokenWeasel.Store.Integrity
import TokenWeasel.Store.Usage

/-!
# What the reports sum

Each report is an aggregation of a list of usage rows.  Its rows are exact when no sum leaves its
range, and the joins of the reports find for each usage row the one user it is attributed to.
-/

namespace TokenWeasel.Store

open Library

/-! ## Exact sums -/

/-- The counts of a row of a report. -/
inductive Column where
  | requests
  | inputTokens
  | outputTokens
  | cachedTokens
  | totalTokens
  deriving DecidableEq, Repr

def Column.ofUsage : Column → TokenUsage → Int
  | requests, _ => 1
  | inputTokens, row => row.inputTokens
  | outputTokens, row => row.outputTokens
  | cachedTokens, row => row.cachedTokens
  | totalTokens, row => row.totalTokens

def Column.ofCounts : Column → TokenCounts → Int
  | requests, sums => sums.requests
  | inputTokens, sums => sums.inputTokens
  | outputTokens, sums => sums.outputTokens
  | cachedTokens, sums => sums.cachedTokens
  | totalTokens, sums => sums.totalTokens

def exactCounts (rows : List TokenUsage) : TokenCounts :=
  { requests := rows.length
    inputTokens := (rows.map TokenUsage.inputTokens).sum
    outputTokens := (rows.map TokenUsage.outputTokens).sum
    cachedTokens := (rows.map TokenUsage.cachedTokens).sum
    totalTokens := (rows.map TokenUsage.totalTokens).sum }

theorem ofCounts_exactCounts (column : Column) (rows : List TokenUsage) :
    column.ofCounts (exactCounts rows) = (rows.map column.ofUsage).sum := by
  cases column with
  | requests =>
      show (rows.length : Int) = (rows.map fun _ ↦ (1 : Int)).sum
      induction rows with
      | nil => rfl
      | cons row rows ih =>
          rw [List.length_cons, List.map_cons, List.sum_cons, ← ih]
          omega
  | inputTokens | outputTokens | cachedTokens | totalTokens => rfl

/-- The sum of the column does not leave the range of an `i64` at any row. -/
def SumInRange (column : TokenUsage → Int) (rows : List TokenUsage) : Prop :=
  (checkedSum i64Min i64Max (rows.map column)).isSome = true

instance (column : TokenUsage → Int) (rows : List TokenUsage) :
    Decidable (SumInRange column rows) :=
  inferInstanceAs (Decidable (_ = true))

theorem sum_eq_ok {column : TokenUsage → Int} {rows : List TokenUsage} {n : Int} :
    sum column rows = .ok n ↔ SumInRange column rows ∧ n = (rows.map column).sum := by
  unfold sum SumInRange
  cases hsum : checkedSum i64Min i64Max (rows.map column) with
  | none => simp
  | some total =>
      have hexact : checkedSum i64Min i64Max (rows.map column) = some (rows.map column).sum :=
        checkedSum_eq_some (by rw [hsum]; rfl)
      rw [hsum] at hexact
      rw [Option.some.inj hexact]
      simp [eq_comm]

/-- The sums of a bucket. -/
def CountsInRange (rows : List TokenUsage) : Prop :=
  SumInRange TokenUsage.inputTokens rows ∧ SumInRange TokenUsage.outputTokens rows ∧
    SumInRange TokenUsage.cachedTokens rows

instance (rows : List TokenUsage) : Decidable (CountsInRange rows) :=
  inferInstanceAs (Decidable (_ ∧ _))

/-- The sums of any other row. -/
def InRange (rows : List TokenUsage) : Prop :=
  CountsInRange rows ∧ SumInRange TokenUsage.totalTokens rows

instance (rows : List TokenUsage) : Decidable (InRange rows) :=
  inferInstanceAs (Decidable (_ ∧ _))

theorem counts_eq_ok {rows : List TokenUsage} {sums : Counts} :
    counts rows = .ok sums ↔ CountsInRange rows ∧ sums = (exactCounts rows).toCounts := by
  unfold counts
  constructor
  · intro h
    rcases except_bind_eq_ok.mp h with ⟨input, hinput, h⟩
    rcases except_bind_eq_ok.mp h with ⟨output, houtput, h⟩
    rcases except_bind_eq_ok.mp h with ⟨cached, hcached, h⟩
    rw [sum_eq_ok] at hinput houtput hcached
    refine ⟨⟨hinput.1, houtput.1, hcached.1⟩, ?_⟩
    rw [← Except.ok.inj h, hinput.2, houtput.2, hcached.2]
    rfl
  · rintro ⟨⟨hinput, houtput, hcached⟩, rfl⟩
    rw [sum_eq_ok.mpr ⟨hinput, rfl⟩, sum_eq_ok.mpr ⟨houtput, rfl⟩, sum_eq_ok.mpr ⟨hcached, rfl⟩]
    rfl

theorem tokenCounts_eq_ok {rows : List TokenUsage} {sums : TokenCounts} :
    tokenCounts rows = .ok sums ↔ InRange rows ∧ sums = exactCounts rows := by
  unfold tokenCounts
  constructor
  · intro h
    rcases except_bind_eq_ok.mp h with ⟨first, hfirst, h⟩
    rcases except_bind_eq_ok.mp h with ⟨total, htotal, h⟩
    rw [counts_eq_ok] at hfirst
    rw [sum_eq_ok] at htotal
    refine ⟨⟨hfirst.1, htotal.1⟩, ?_⟩
    rw [← Except.ok.inj h, hfirst.2, htotal.2]
    rfl
  · rintro ⟨⟨hcounts, htotal⟩, rfl⟩
    rw [counts_eq_ok.mpr ⟨hcounts, rfl⟩, sum_eq_ok.mpr ⟨htotal, rfl⟩]
    rfl

/-- A row that is made of its sums. -/
theorem tokenCounts_bind_eq_ok {ρ : Type} {rows : List TokenUsage} {build : TokenCounts → ρ}
    {result : ρ} : (tokenCounts rows >>= fun sums ↦ pure (build sums)) = .ok result ↔
      InRange rows ∧ result = build (exactCounts rows) := by
  constructor
  · intro h
    rcases except_bind_eq_ok.mp h with ⟨sums, hsums, h⟩
    rw [tokenCounts_eq_ok] at hsums
    rw [← Except.ok.inj h, hsums.2]
    exact ⟨hsums.1, rfl⟩
  · rintro ⟨hrange, rfl⟩
    rw [tokenCounts_eq_ok.mpr ⟨hrange, rfl⟩]
    rfl

/-! ## Exact reports -/

def exactModelRow (group : String × List TokenUsage) : ModelStats :=
  { toTokenCounts := exactCounts group.2, model := group.1 }

def exactDailyRow (group : (Option String × String) × List TokenUsage) : DailyStats :=
  { toTokenCounts := exactCounts group.2, day := group.1.1.getD "", model := group.1.2 }

def exactBucket (group : Nat × List TokenUsage) : TodayBucket :=
  { toCounts := (exactCounts group.2).toCounts, bucket := group.1 }

theorem modelRow_eq_ok {model : String} {rows : List TokenUsage} {result : ModelStats} :
    modelRow model rows = .ok result ↔ InRange rows ∧ result = exactModelRow (model, rows) :=
  tokenCounts_bind_eq_ok

theorem dailyRow_eq_ok {key : Option String × String} {rows : List TokenUsage}
    {result : DailyStats} : dailyRow key rows = .ok result ↔
      InRange rows ∧ key.1.isSome = true ∧ result = exactDailyRow (key, rows) := by
  unfold dailyRow
  constructor
  · intro h
    rcases except_bind_eq_ok.mp h with ⟨sums, hsums, h⟩
    rw [tokenCounts_eq_ok] at hsums
    split at h
    · exact absurd h (by simp)
    · rename_i day hday
      rw [← Except.ok.inj h, hsums.2, hday, exactDailyRow, hday]
      exact ⟨hsums.1, rfl, rfl⟩
  · rintro ⟨hrange, hday, rfl⟩
    rcases Option.isSome_iff_exists.mp hday with ⟨day, hday⟩
    rw [tokenCounts_eq_ok.mpr ⟨hrange, rfl⟩, exactDailyRow, hday]
    rfl

theorem bucketRow_eq_ok {bucket : Nat} {rows : List TokenUsage} {result : TodayBucket} :
    bucketRow bucket rows = .ok result ↔
      CountsInRange rows ∧ result = exactBucket (bucket, rows) := by
  unfold bucketRow
  constructor
  · intro h
    rcases except_bind_eq_ok.mp h with ⟨sums, hsums, h⟩
    rw [counts_eq_ok] at hsums
    rw [← Except.ok.inj h, hsums.2]
    exact ⟨hsums.1, rfl⟩
  · rintro ⟨hrange, rfl⟩
    rw [counts_eq_ok.mpr ⟨hrange, rfl⟩]
    rfl

def exactOwnerRow (group : String × List OwnedUsage) : String × KeyStats :=
  (group.1, { toTokenCounts := exactCounts (group.2.map fun row ↦ row.1.1)
              apiKeyId := (ownerLabel group.2).1, label := (ownerLabel group.2).2 })

def exactKeyRow (group : Option Int × List (TokenUsage × Attribution)) : KeyStats :=
  { toTokenCounts := exactCounts (group.2.map Prod.fst), apiKeyId := group.1
    label := (group.2.head?.map fun row ↦ keyLabel row.2).getD "" }

theorem ownerRow_eq_ok {group : String} {rows : List OwnedUsage} {result : String × KeyStats} :
    ownerRow group rows = .ok result ↔
      InRange (rows.map fun row ↦ row.1.1) ∧ result = exactOwnerRow (group, rows) :=
  tokenCounts_bind_eq_ok

theorem keyRow_eq_ok {apiKeyId : Option Int} {rows : List (TokenUsage × Attribution)}
    {result : KeyStats} : keyRow apiKeyId rows = .ok result ↔
      InRange (rows.map Prod.fst) ∧ result = exactKeyRow (apiKeyId, rows) :=
  tokenCounts_bind_eq_ok

def exactModels (rows : List TokenUsage) : List ModelStats :=
  ((groupBy TokenUsage.model rows).map exactModelRow).mergeSort fun a b ↦
    b.totalTokens ≤ a.totalTokens

def exactDays (date : Int → Option String) (rows : List TokenUsage) : List DailyStats :=
  ((groupBy (fun row ↦ (date row.ts, row.model)) rows).map exactDailyRow).mergeSort fun a b ↦
    a.day < b.day || a.day = b.day && a.model ≤ b.model

def exactOwners (rows : List OwnedUsage) : List (String × KeyStats) :=
  ((groupBy ownerGroup rows).map exactOwnerRow).mergeSort fun a b ↦
    b.2.totalTokens ≤ a.2.totalTokens

def exactKeys (rows : List (TokenUsage × Attribution)) : List KeyStats :=
  ((groupBy (fun row ↦ row.1.apiKeyId) rows).map exactKeyRow).mergeSort fun a b ↦
    b.totalTokens ≤ a.totalTokens

theorem modelReport_eq_ok {rows : List TokenUsage} {results : List ModelStats} :
    modelReport rows = .ok results ↔
      (∀ group ∈ groupBy TokenUsage.model rows, InRange group.2) ∧ results = exactModels rows :=
  report_eq_ok (P := fun group ↦ InRange group.2) fun _ _ _ ↦ modelRow_eq_ok

theorem dailyReport_eq_ok {date : Int → Option String} {rows : List TokenUsage}
    {results : List DailyStats} : dailyReport date rows = .ok results ↔
      (∀ group ∈ groupBy (fun row : TokenUsage ↦ (date row.ts, row.model)) rows,
        InRange group.2 ∧ group.1.1.isSome = true) ∧ results = exactDays date rows := by
  refine report_eq_ok (P := fun group : (Option String × String) × List TokenUsage ↦
    InRange group.2 ∧ group.1.1.isSome = true) fun _ _ _ ↦ ?_
  rw [dailyRow_eq_ok, and_assoc]

theorem ownerReport_eq_ok {rows : List OwnedUsage} {results : List (String × KeyStats)} :
    ownerReport rows = .ok results ↔
      (∀ group ∈ groupBy ownerGroup rows, InRange (group.2.map fun row ↦ row.1.1)) ∧
        results = exactOwners rows := by
  rw [ownerReport, exactOwners]
  exact report_eq_ok (P := fun group : String × List OwnedUsage ↦
    InRange (group.2.map fun row ↦ row.1.1)) fun _ _ _ ↦ ownerRow_eq_ok

theorem keyReport_eq_ok {rows : List (TokenUsage × Attribution)} {results : List KeyStats} :
    keyReport rows = .ok results ↔
      (∀ group ∈ groupBy (fun row : TokenUsage × Attribution ↦ row.1.apiKeyId) rows,
        InRange (group.2.map Prod.fst)) ∧ results = exactKeys rows :=
  report_eq_ok (P := fun group : Option Int × List (TokenUsage × Attribution) ↦
    InRange (group.2.map Prod.fst)) fun _ _ _ ↦ keyRow_eq_ok

theorem statsByUser_eq_ok {sinceTs : Int} {db : Database} {results : List KeyStats} :
    statsByUser sinceTs db = .ok results ↔
      (∀ group ∈ groupBy ownerGroup ((withOwner db).filter fun row ↦ sinceTs ≤ row.1.1.ts),
        InRange (group.2.map fun row ↦ row.1.1)) ∧
        results = (exactOwners ((withOwner db).filter fun row ↦ sinceTs ≤ row.1.1.ts)).map
          Prod.snd := by
  rw [statsByUser, except_map_eq_ok]
  constructor
  · rintro ⟨owners, howners, rfl⟩
    rcases ownerReport_eq_ok.mp howners with ⟨hrange, rfl⟩
    exact ⟨hrange, rfl⟩
  · rintro ⟨hrange, rfl⟩
    exact ⟨_, ownerReport_eq_ok.mpr ⟨hrange, rfl⟩, rfl⟩

/-- A report over all users that succeeds has the row of every group. -/
theorem statsByUser_ok_mem {sinceTs : Int} {db : Database} {results : List KeyStats}
    (h : statsByUser sinceTs db = .ok results) {row : OwnedUsage}
    (hrow : row ∈ (withOwner db).filter fun row ↦ sinceTs ≤ row.1.1.ts) :
    (exactOwnerRow (ownerGroup row, ((withOwner db).filter fun row ↦ sinceTs ≤ row.1.1.ts).filter
      fun other ↦ ownerGroup other = ownerGroup row)).2 ∈ results := by
  rw [(statsByUser_eq_ok.mp h).2]
  exact List.mem_map_of_mem (List.mem_mergeSort.mpr (List.mem_map_of_mem (groupBy_of_mem hrow)))

/-! ## Exact buckets -/

def exactBuckets (dayStartTs : Int) (rows : List TokenUsage) : List TodayBucket :=
  (List.range 288).map fun i ↦ exactBucket (i, rows.filter fun row ↦ bucketOf dayStartTs row = i)

/-- Each index has the bucket of that index, if there is one. -/
theorem fillBuckets_eq {sparse : List TodayBucket} {start n : Nat}
    (hsorted : sparse.Pairwise fun a b ↦ a.bucket < b.bucket)
    (hstart : ∀ b ∈ sparse, start ≤ b.bucket) :
    fillBuckets (List.range' start n) sparse =
      (List.range' start n).map fun i ↦ (sparse.find? (·.bucket = i)).getD (emptyBucket i) := by
  induction n generalizing start sparse with
  | zero => rfl
  | succ n ih =>
      rw [List.range'_succ, List.map_cons]
      cases sparse with
      | nil =>
          rw [fillBuckets, ih List.Pairwise.nil fun _ h ↦ absurd h List.not_mem_nil]
          rfl
      | cons next sparse =>
          rw [List.pairwise_cons] at hsorted
          rw [fillBuckets]
          split
          · rename_i hnext
            -- the bucket is taken, and the later indices do not find it
            rw [ih hsorted.2 fun b hb ↦ by have := hsorted.1 b hb; omega,
              List.find?_cons_of_pos (by simpa using hnext)]
            refine congrArg _ (List.map_congr_left fun i hi ↦ ?_)
            have hlt := (List.mem_range'_1.mp hi).1
            rw [List.find?_cons_of_neg (by simp; omega)]
          · rename_i hnext
            -- the first bucket is a later one, so none has this index
            have hlater : ∀ b ∈ next :: sparse, start + 1 ≤ b.bucket := by
              have hfirst := hstart next List.mem_cons_self
              intro b hb
              cases List.mem_cons.mp hb with
              | inl heq =>
                  rw [heq]
                  omega
              | inr hmem =>
                  have := hsorted.1 b hmem
                  omega
            rw [ih (List.pairwise_cons.mpr hsorted) hlater, List.find?_eq_none.mpr]
            · rfl
            · intro b hb heq
              have := hlater b hb
              simp at heq
              omega

def exactSparse (dayStartTs : Int) (rows : List TokenUsage) : List TodayBucket :=
  ((groupBy (bucketOf dayStartTs) rows).map exactBucket).mergeSort fun a b ↦ a.bucket ≤ b.bucket

theorem exactSparse_sorted (dayStartTs : Int) (rows : List TokenUsage) :
    (exactSparse dayStartTs rows).Pairwise fun a b ↦ a.bucket < b.bucket := by
  have hle : (exactSparse dayStartTs rows).Pairwise
      fun a b ↦ decide (a.bucket ≤ b.bucket) = true := by
    apply List.pairwise_mergeSort
    · intro a b c hab hbc
      exact decide_eq_true (Nat.le_trans (of_decide_eq_true hab) (of_decide_eq_true hbc))
    · intro a b
      simpa using Nat.le_total a.bucket b.bucket
  have hne : ((exactSparse dayStartTs rows).map TodayBucket.bucket).Nodup :=
    report_keys_nodup TodayBucket.bucket fun _ ↦ rfl
  refine hle.imp₂ (fun a b hle hne ↦ ?_) (List.pairwise_map.mp hne)
  exact Nat.lt_of_le_of_ne (of_decide_eq_true hle) hne

theorem fill288Buckets_exactSparse (dayStartTs : Int) (rows : List TokenUsage) :
    fill288Buckets (exactSparse dayStartTs rows) = exactBuckets dayStartTs rows := by
  rw [fill288Buckets, List.range_eq_range', fillBuckets_eq (exactSparse_sorted dayStartTs rows)
    fun _ _ ↦ Nat.zero_le _, exactBuckets, List.range_eq_range']
  refine List.map_congr_left fun i _ ↦ ?_
  rw [exactSparse, report_find? TodayBucket.bucket fun _ ↦ rfl]
  split
  · rfl
  · rename_i hnone
    -- a bucket without rows sums to zero, as the empty one does
    rw [List.filter_eq_nil_iff.mpr fun row hrow heq ↦ hnone ⟨row, hrow, of_decide_eq_true heq⟩]
    rfl

theorem bucketReport_eq_ok {dayStartTs : Int} {rows : List TokenUsage}
    {results : List TodayBucket} : bucketReport dayStartTs rows = .ok results ↔
      (∀ group ∈ groupBy (bucketOf dayStartTs) rows, CountsInRange group.2) ∧
        results = exactBuckets dayStartTs rows := by
  have hsparse : ∀ sparse, report (bucketOf dayStartTs) bucketRow
      (fun a b ↦ a.bucket ≤ b.bucket) rows = .ok sparse ↔
        (∀ group ∈ groupBy (bucketOf dayStartTs) rows, CountsInRange group.2) ∧
          sparse = exactSparse dayStartTs rows :=
    fun sparse ↦ report_eq_ok (P := fun group : Nat × List TokenUsage ↦ CountsInRange group.2)
      fun _ _ _ ↦ bucketRow_eq_ok
  rw [bucketReport, except_map_eq_ok, ← fill288Buckets_exactSparse]
  constructor
  · rintro ⟨sparse, hreport, rfl⟩
    rcases (hsparse sparse).mp hreport with ⟨hrange, rfl⟩
    exact ⟨hrange, rfl⟩
  · rintro ⟨hrange, rfl⟩
    exact ⟨_, (hsparse _).mpr ⟨hrange, rfl⟩, rfl⟩

/-- Summed over its rows, a report gives what is summed over the usage rows. -/
theorem sum_mergeSort_groupBy {α ρ κ : Type} [DecidableEq κ] {key : α → κ} {rows : List α}
    {result : κ × List α → ρ} (le : ρ → ρ → Bool) (usage : α → TokenUsage)
    (sums : ρ → TokenCounts) (hsums : ∀ group, sums (result group) =
      exactCounts (group.2.map usage)) (column : Column) :
    ((((groupBy key rows).map result).mergeSort le).map fun r ↦ column.ofCounts (sums r)).sum =
      (rows.map fun row ↦ column.ofUsage (usage row)).sum := by
  have hperm := (List.mergeSort_perm ((groupBy key rows).map result) le).map
    fun r ↦ column.ofCounts (sums r)
  -- a row of the report sums its group, and the groups partition the rows
  have hrow : (fun r ↦ column.ofCounts (sums r)) ∘ result =
      fun group ↦ (group.2.map fun row ↦ column.ofUsage (usage row)).sum := by
    funext group
    rw [Function.comp_apply, hsums, ofCounts_exactCounts, List.map_map]
    rfl
  rw [hperm.sum_eq, List.map_map, hrow, groupBy_sum]

/-! ## The user of a usage row -/

def attributionOf (db : Database) (row : TokenUsage) : Option Attribution :=
  db.attribution.find? fun a ↦ row.apiKeyId = some a.apiKeyId

def ownerOf (db : Database) (row : TokenUsage) : Option Int :=
  (attributionOf db row).map Attribution.userId

def userOf (db : Database) (row : TokenUsage) : Option User :=
  (attributionOf db row).bind fun a ↦ db.users.find? (·.id = a.userId)

section

variable {db : Database}

theorem Schema.attribution_unique (h : Schema db) (row : TokenUsage) :
    db.attribution.filter (fun a ↦ row.apiKeyId = some a.apiKeyId) =
      (attributionOf db row).toList := by
  unfold attributionOf
  cases hkey : row.apiKeyId with
  | none => simp
  | some keyId =>
      have hsame : (fun a : Attribution ↦ decide (some keyId = some a.apiKeyId)) =
          fun a ↦ decide (a.apiKeyId = keyId) := by
        funext a
        simp [eq_comm]
      rw [hsame]
      exact filter_key_eq h.attributionIds keyId

theorem Schema.user_unique (h : Schema db) (row : TokenUsage × Option Attribution) :
    db.users.filter (fun user ↦ row.2.any fun a ↦ user.id = a.userId) =
      (db.users.find? fun user ↦ row.2.any fun a ↦ user.id = a.userId).toList := by
  cases row.2 with
  | none => simp
  | some a => exact filter_key_eq h.userIds a.userId

/-- The inner join keeps each attributed row once. -/
theorem Schema.usageOf_eq (h : Schema db) (userId : Int) : usageOf userId db =
    db.tokenUsage.filterMap fun row ↦
      ((attributionOf db row).filter (·.userId = userId)).map (Prod.mk row) := by
  rw [usageOf, innerJoin_eq_filterMap h.attribution_unique, List.filter_filterMap]
  congr 1
  funext row
  show Option.filter _ ((attributionOf db row).map (Prod.mk row)) = _
  cases attributionOf db row with
  | none => rfl
  | some a => by_cases hown : a.userId = userId <;> simp [Option.filter, hown]

/-- The rows that a report of one user aggregates. -/
theorem Schema.usageOf_rows (h : Schema db) (userId : Int) (selected : TokenUsage → Bool) :
    ((usageOf userId db).filter fun row ↦ selected row.1).map Prod.fst =
      db.tokenUsage.filter fun row ↦ selected row && decide (ownerOf db row = some userId) := by
  have hrows : (usageOf userId db).map Prod.fst =
      db.tokenUsage.filter fun row ↦ ownerOf db row = some userId := by
    rw [h.usageOf_eq, List.map_filterMap]
    induction db.tokenUsage with
    | nil => rfl
    | cons row rows ih =>
        rw [List.filterMap_cons, List.filter_cons, ih]
        unfold ownerOf
        cases attributionOf db row with
        | none => rfl
        | some a => by_cases hown : a.userId = userId <;> simp [Option.filter, hown]
  rw [← List.filter_filter, ← hrows, List.filter_map]
  rfl

/-- The left joins keep every row once, with its user. -/
theorem Schema.withOwner_eq (h : Schema db) :
    withOwner db = db.tokenUsage.map fun row ↦ ((row, attributionOf db row), userOf db row) := by
  rw [withOwner, leftJoin_eq_map h.user_unique, leftJoin_eq_map h.attribution_unique, List.map_map]
  congr 1
  funext row
  rw [Function.comp_apply]
  refine Prod.ext rfl ?_
  show db.users.find? _ = userOf db row
  unfold userOf
  show (db.users.find? fun user ↦ (attributionOf db row).any fun a ↦ user.id = a.userId) = _
  cases attributionOf db row with
  | none => simp
  | some a => rfl

/-- Every attribution has its user. -/
theorem Schema.ownerOf_eq (h : Schema db) (row : TokenUsage) :
    ownerOf db row = (userOf db row).map User.id := by
  unfold ownerOf userOf
  cases hfind : attributionOf db row with
  | none => rfl
  | some a =>
      -- an attribution refers to a user, so the second join finds one
      rcases h.attributionOwners a (List.mem_of_find?_eq_some hfind) with ⟨user, huser, hid⟩
      rw [Option.bind_some, ← hid, find?_key_eq_some h.userIds huser]
      exact congrArg some hid.symm

theorem userOf_keyless {row : TokenUsage} (h : row.apiKeyId = none) : userOf db row = none := by
  have hnone : attributionOf db row = none := by
    rw [attributionOf, List.find?_eq_none]
    simp [h]
  rw [userOf, hnone]
  rfl

end

/-! ## The groups of `stats_by_user` -/

theorem userGroup_injective {a b : Int} (h : userGroup a = userGroup b) : a = b := by
  have hlist := congrArg String.toList h
  rw [userGroup, userGroup, String.toList_append, String.toList_append] at hlist
  exact intToString_injective (String.toList_injective (List.append_cancel_left hlist))

theorem userGroup_ne_deletedGroup (userId keyId : Int) : userGroup userId ≠ deletedGroup keyId := by
  intro h
  have hlist := congrArg String.toList h
  rw [userGroup, deletedGroup, String.toList_append, String.toList_append] at hlist
  exact absurd (List.cons.inj hlist).1 (by decide)

theorem userGroup_ne_genericGroup (userId : Int) : userGroup userId ≠ genericGroup := by
  intro h
  have hlist := congrArg String.toList h
  rw [userGroup, String.toList_append] at hlist
  exact absurd (List.cons.inj hlist).1 (by decide)

theorem deletedGroup_injective {a b : Int} (h : deletedGroup a = deletedGroup b) : a = b := by
  have hlist := congrArg String.toList h
  rw [deletedGroup, deletedGroup, String.toList_append, String.toList_append] at hlist
  exact intToString_injective (String.toList_injective (List.append_cancel_left hlist))

theorem deletedGroup_ne_genericGroup (keyId : Int) : deletedGroup keyId ≠ genericGroup := by
  intro h
  have hlist := congrArg String.toList h
  rw [deletedGroup, String.toList_append] at hlist
  exact absurd (List.cons.inj hlist).1 (by decide)

section

variable {db : Database}

/-- The group of a row in `stats_by_user`. -/
theorem ownerGroup_eq (row : TokenUsage) :
    ownerGroup ((row, attributionOf db row), userOf db row) =
      match row.apiKeyId, userOf db row with
      | none, _ => genericGroup
      | some keyId, none => deletedGroup keyId
      | some _, some user => userGroup user.id := rfl

theorem Schema.ownerGroup_eq_userGroup (h : Schema db) {row : TokenUsage} {userId : Int} :
    ownerGroup ((row, attributionOf db row), userOf db row) = userGroup userId ↔
      ownerOf db row = some userId := by
  rw [h.ownerOf_eq, ownerGroup_eq]
  cases hkey : row.apiKeyId with
  | none =>
      rw [userOf_keyless hkey]
      exact ⟨fun heq ↦ absurd heq.symm (userGroup_ne_genericGroup userId), fun heq ↦ by simp at heq⟩
  | some keyId =>
      cases userOf db row with
      | none =>
          exact ⟨fun heq ↦ absurd heq.symm (userGroup_ne_deletedGroup userId keyId),
            fun heq ↦ by simp at heq⟩
      | some user =>
          rw [Option.map_some, Option.some.injEq]
          exact ⟨userGroup_injective, congrArg userGroup⟩

/-- A row of a key without an owner is in the group of that key. -/
theorem ownerGroup_eq_deletedGroup {row : TokenUsage} {keyId : Int}
    (hkey : row.apiKeyId = some keyId) (howner : userOf db row = none) :
    ownerGroup ((row, attributionOf db row), userOf db row) = deletedGroup keyId := by
  rw [ownerGroup_eq, hkey, howner]

theorem Schema.withOwner_rows (h : Schema db) (selected : TokenUsage → Bool) :
    ((withOwner db).filter fun row ↦ selected row.1.1).map (fun row ↦ row.1.1) =
      db.tokenUsage.filter selected := by
  rw [h.withOwner_eq, List.filter_map, List.map_map]
  exact List.map_id _

/-- The rows in a group of `stats_by_user`. -/
theorem Schema.withOwner_group (h : Schema db) (selected : TokenUsage → Bool) (group : String) :
    ((withOwner db).filter fun row ↦ selected row.1.1).filter
        (fun row ↦ ownerGroup row = group) =
      (db.tokenUsage.filter fun row ↦ selected row &&
        decide (ownerGroup ((row, attributionOf db row), userOf db row) = group)).map
          fun row ↦ ((row, attributionOf db row), userOf db row) := by
  rw [h.withOwner_eq, List.filter_map, List.filter_map, List.filter_filter]
  congr 1
  exact List.filter_congr fun row _ ↦ Bool.and_comm ..

theorem Schema.withOwner_group_rows (h : Schema db) (selected : TokenUsage → Bool)
    (group : String) : (((withOwner db).filter fun row ↦ selected row.1.1).filter fun row ↦
        ownerGroup row = group).map (fun row ↦ row.1.1) =
      db.tokenUsage.filter fun row ↦ selected row &&
        decide (ownerGroup ((row, attributionOf db row), userOf db row) = group) := by
  rw [h.withOwner_group selected group, List.map_map]
  exact List.map_id _

/-- The rows in the group of a user are those that are attributed to the user. -/
theorem Schema.withOwner_user_rows (h : Schema db) (selected : TokenUsage → Bool) (userId : Int) :
    (((withOwner db).filter fun row ↦ selected row.1.1).filter fun row ↦
        ownerGroup row = userGroup userId).map (fun row ↦ row.1.1) =
      db.tokenUsage.filter fun row ↦ selected row && decide (ownerOf db row = some userId) := by
  rw [h.withOwner_group_rows selected]
  simp only [h.ownerGroup_eq_userGroup]

theorem exists_maxKey {rows : List OwnedUsage} (hne : rows ≠ [])
    (hkeys : ∀ row ∈ rows, row.1.1.apiKeyId.isSome = true) :
    ∃ keyId row, (rows.filterMap fun row ↦ row.1.1.apiKeyId).max? = some keyId ∧ row ∈ rows ∧
      rows.find? (fun row ↦ row.1.1.apiKeyId = some keyId) = some row ∧
      row.1.1.apiKeyId = some keyId := by
  -- the greatest key is the key of some row, whose columns the label is made of
  cases hmax : (rows.filterMap fun row ↦ row.1.1.apiKeyId).max? with
  | none =>
      rw [List.max?_eq_none_iff, List.filterMap_eq_nil_iff] at hmax
      rcases List.exists_mem_of_ne_nil rows hne with ⟨row, hrow⟩
      have hsome := hkeys row hrow
      rw [hmax row hrow] at hsome
      exact absurd hsome (by simp)
  | some keyId =>
      rcases List.mem_filterMap.mp (List.max?_mem hmax) with ⟨row, hrow, hkey⟩
      cases hfind : rows.find? fun row ↦ row.1.1.apiKeyId = some keyId with
      | none => exact absurd (List.find?_eq_none.mp hfind row hrow) (by simpa using hkey)
      | some found =>
          have hfound : found.1.1.apiKeyId = some keyId := by simpa using List.find?_some hfind
          exact ⟨keyId, found, rfl, List.mem_of_find?_eq_some hfind, hfind, hfound⟩

/-- The rows of one key without an owner are labelled with the key. -/
theorem ownerLabel_of_deleted {rows : List OwnedUsage} (hne : rows ≠ []) {keyId : Int}
    (hkeys : ∀ row ∈ rows, row.1.1.apiKeyId = some keyId) (huser : ∀ row ∈ rows, row.2 = none) :
    ownerLabel rows = (some keyId, "(deleted key #" ++ toString keyId ++ ")") := by
  rcases exists_maxKey hne (fun row hrow ↦ by rw [hkeys row hrow]; rfl) with
    ⟨maxId, row, hmax, hrow, hfind, hkey⟩
  rw [hkeys row hrow, Option.some.injEq] at hkey
  simp only [ownerLabel, hmax, hfind, Option.bind_some, huser row hrow, hkey]

end

end TokenWeasel.Store
