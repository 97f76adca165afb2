import TokenWeasel.Store.Reports

/-!
# Days in buckets

The five-minute buckets of a day, of whatever length, carry each of its rows once.  The last one
carries what comes behind its five minutes as well.
-/

namespace TokenWeasel.Store

open Library

/-- The rows of a bucket. -/
def inBucket (dayStartTs endTs : Int) (i : Nat) (row : TokenUsage) : Bool :=
  dayStartTs + 300 * i ≤ row.ts && (i = 287 || row.ts < dayStartTs + 300 * (i + 1)) &&
    row.ts < endTs

/-- The sums of all buckets. -/
def bucketSums (buckets : List TodayBucket) : Counts :=
  { requests := (buckets.map fun b ↦ b.requests).sum
    inputTokens := (buckets.map fun b ↦ b.inputTokens).sum
    outputTokens := (buckets.map fun b ↦ b.outputTokens).sum
    cachedTokens := (buckets.map fun b ↦ b.cachedTokens).sum }

/-- The buckets carry the rows: each its own five minutes, the last one all that is later, and all
of them together the day. -/
structure Carries (dayStartTs endTs : Int) (rows : List TokenUsage) (buckets : List TodayBucket) :
    Prop where
  indices : buckets.map TodayBucket.bucket = List.range 288
  early : ∀ b ∈ buckets, b.bucket < 287 → b.toCounts = (exactCounts (rows.filter fun row ↦
    dayStartTs + 300 * b.bucket ≤ row.ts && row.ts < dayStartTs + 300 * (b.bucket + 1) &&
      row.ts < endTs)).toCounts
  last : ∀ b ∈ buckets, b.bucket = 287 → b.toCounts = (exactCounts (rows.filter fun row ↦
    dayStartTs + 300 * 287 ≤ row.ts && row.ts < endTs)).toCounts
  conserved : bucketSums buckets =
    (exactCounts (rows.filter fun row ↦ dayStartTs ≤ row.ts && row.ts < endTs)).toCounts

/-- The counts of the rows of each bucket sum up without leaving the range of an `i64`. -/
def BucketsFit (dayStartTs endTs : Int) (rows : List TokenUsage) : Prop :=
  ∀ i < 288, CountsInRange (rows.filter (inBucket dayStartTs endTs i))

section

variable {dayStartTs endTs : Int} {rows : List TokenUsage}

theorem bucketOf_lt (dayStartTs : Int) (row : TokenUsage) : bucketOf dayStartTs row < 288 := by
  unfold bucketOf
  omega

/-- The division and the clamp find the bucket. -/
theorem bucketOf_eq_iff {row : TokenUsage} {i : Nat} (hi : i < 288) :
    (bucketOf dayStartTs row = i ∧ dayStartTs ≤ row.ts ∧ row.ts < endTs) ↔
      inBucket dayStartTs endTs i row = true := by
  simp only [inBucket, Bool.and_eq_true, Bool.or_eq_true, decide_eq_true_eq]
  by_cases hstart : dayStartTs ≤ row.ts
  · have hdiv : (row.ts - dayStartTs).tdiv 300 = (row.ts - dayStartTs) / 300 :=
      Int.tdiv_eq_ediv_of_nonneg (by omega)
    unfold bucketOf
    rw [hdiv]
    omega
  · omega

theorem filter_bucketOf {i : Nat} (hi : i < 288) :
    (rows.filter fun row ↦ dayStartTs ≤ row.ts && row.ts < endTs).filter
        (fun row ↦ bucketOf dayStartTs row = i) =
      rows.filter (inBucket dayStartTs endTs i) := by
  rw [List.filter_filter]
  apply List.filter_congr
  intro row _
  apply Bool.eq_iff_iff.mpr
  rw [← bucketOf_eq_iff hi]
  simp only [Bool.and_eq_true, decide_eq_true_eq]

theorem forall_group_iff :
    (∀ group ∈ groupBy (bucketOf dayStartTs)
      (rows.filter fun row ↦ dayStartTs ≤ row.ts && row.ts < endTs), CountsInRange group.2) ↔
      BucketsFit dayStartTs endTs rows := by
  rw [forall_groupBy (by decide)]
  constructor
  · intro h i hi
    rw [← filter_bucketOf hi]
    exact h i
  · intro h k
    by_cases hk : k < 288
    · rw [filter_bucketOf hk]
      exact h k hk
    · -- there is no such bucket
      rw [List.filter_eq_nil_iff.mpr]
      · decide
      · intro row _ heq
        have hlt := bucketOf_lt dayStartTs row
        rw [of_decide_eq_true heq] at hlt
        exact hk hlt

/-- Every row is in the bucket of its index. -/
theorem bucketSums_exactBuckets (dayStartTs : Int) (rows : List TokenUsage) :
    bucketSums (exactBuckets dayStartTs rows) = (exactCounts rows).toCounts := by
  have hcolumn : ∀ column : Column, ((List.range 288).map fun i ↦ column.ofCounts
      (exactCounts (rows.filter fun row ↦ bucketOf dayStartTs row = i))).sum =
        column.ofCounts (exactCounts rows) := by
    intro column
    simp only [ofCounts_exactCounts]
    apply sum_filter_key List.nodup_range
    exact fun row _ ↦ List.mem_range.mpr (bucketOf_lt dayStartTs row)
  unfold bucketSums exactBuckets
  simp only [List.map_map]
  show (⟨_, _, _, _⟩ : Counts) = ⟨_, _, _, _⟩
  rw [Counts.mk.injEq]
  exact ⟨hcolumn .requests, hcolumn .inputTokens, hcolumn .outputTokens, hcolumn .cachedTokens⟩

theorem exactBuckets_carries : Carries dayStartTs endTs rows
    (exactBuckets dayStartTs (rows.filter fun row ↦ dayStartTs ≤ row.ts && row.ts < endTs)) := by
  have hbucket : ∀ b ∈ exactBuckets dayStartTs
      (rows.filter fun row ↦ dayStartTs ≤ row.ts && row.ts < endTs), b.bucket < 288 ∧
        b.toCounts = (exactCounts (rows.filter (inBucket dayStartTs endTs b.bucket))).toCounts := by
    intro b hb
    obtain ⟨i, hi, rfl⟩ := List.mem_map.mp hb
    rw [List.mem_range] at hi
    refine ⟨hi, ?_⟩
    show (exactCounts (List.filter _ _)).toCounts = _
    rw [filter_bucketOf hi]
    rfl
  exact {
    indices := by
      rw [exactBuckets, List.map_map]
      exact List.map_id _
    early := by
      intro b hb hearly
      rw [(hbucket b hb).2]
      congr 2
      apply List.filter_congr
      intro row _
      have hlast : decide (b.bucket = 287) = false := decide_eq_false (by omega)
      rw [inBucket, hlast, Bool.false_or]
    last := by
      intro b hb hlast
      rw [(hbucket b hb).2]
      congr 2
      apply List.filter_congr
      intro row _
      rw [inBucket, decide_eq_true hlast, Bool.true_or, Bool.and_true, hlast]
      rfl
    conserved := bucketSums_exactBuckets dayStartTs _ }

theorem bucketReport_carries_iff :
    (∃ buckets, bucketReport dayStartTs
      (rows.filter fun row ↦ dayStartTs ≤ row.ts && row.ts < endTs) = .ok buckets ∧
        Carries dayStartTs endTs rows buckets) ↔ BucketsFit dayStartTs endTs rows := by
  rw [← forall_group_iff]
  constructor
  · rintro ⟨buckets, hreport, -⟩
    exact (bucketReport_eq_ok.mp hreport).1
  · intro h
    exact ⟨_, bucketReport_eq_ok.mpr ⟨h, rfl⟩, exactBuckets_carries⟩

end

/-- The rows that are attributed to a user. -/
def rowsOf (userId : Int) (db : Database) : List TokenUsage :=
  db.tokenUsage.filter fun row ↦ ownerOf db row = some userId

/-- The buckets of a day of any length carry its rows, of all users or of one, iff the counts of
each bucket sum up to an `i64`. -/
theorem todayBuckets_carry_iff (db : Database) (hschema : Schema db) (dayStartTs endTs : Int) :
    ((∃ buckets, todayBuckets dayStartTs endTs db = .ok buckets ∧
      Carries dayStartTs endTs db.tokenUsage buckets) ↔
        BucketsFit dayStartTs endTs db.tokenUsage) ∧
    ∀ userId, (∃ buckets, todayBucketsForUser dayStartTs endTs userId db = .ok buckets ∧
      Carries dayStartTs endTs (rowsOf userId db) buckets) ↔
        BucketsFit dayStartTs endTs (rowsOf userId db) := by
  refine ⟨bucketReport_carries_iff, fun userId ↦ ?_⟩
  rw [← bucketReport_carries_iff]
  unfold todayBucketsForUser
  rw [hschema.usageOf_rows userId fun row ↦ dayStartTs ≤ row.ts && row.ts < endTs, rowsOf,
    List.filter_filter]

/-- A day of 25 hours, with a request in its last hour. -/
def longDay : Database :=
  { tokenUsage :=
      [⟨1, 100, "m", "/v1/chat/completions", 5, 3, 2, 8, none⟩,
        ⟨2, 86399, "m", "/v1/chat/completions", 7, 1, 0, 8, none⟩,
        ⟨3, 89999, "n", "/v1/embeddings", 2, 0, 0, 2, none⟩] }

theorem todayBuckets_carry_longDay : ∃ buckets, todayBuckets 0 90000 longDay = .ok buckets ∧
    Carries 0 90000 longDay.tokenUsage buckets := by
  have hschema : Schema longDay := (empty_integrity.tokenUsage longDay.tokenUsage 0).toSchema
  exact (todayBuckets_carry_iff longDay hschema 0 90000).1.mpr
    (forall_group_iff.mp (by decide +kernel))

/-- Five minutes with the largest count there is, and any other. -/
def overfullDay : Database :=
  { tokenUsage :=
      [⟨1, 100, "m", "/v1/chat/completions", i64Max, 0, 0, i64Max, none⟩,
        ⟨2, 200, "m", "/v1/chat/completions", 5, 3, 0, 8, none⟩] }

theorem overfullDay_fails : Schema overfullDay ∧
    todayBuckets 0 86400 overfullDay = .error (.sqlite .integerOverflow) ∧
    ¬∃ buckets, todayBuckets 0 86400 overfullDay = .ok buckets ∧
      Carries 0 86400 overfullDay.tokenUsage buckets := by
  have hfails : todayBuckets 0 86400 overfullDay = .error (.sqlite .integerOverflow) := by
    decide +kernel
  refine ⟨(empty_integrity.tokenUsage overfullDay.tokenUsage 0).toSchema, hfails, ?_⟩
  rintro ⟨buckets, hok, -⟩
  rw [hfails] at hok
  exact absurd hok (by simp)

end TokenWeasel.Store
