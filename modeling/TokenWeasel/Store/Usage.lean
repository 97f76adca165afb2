import TokenWeasel.Library.CheckedSum
import TokenWeasel.Library.Query
import TokenWeasel.Store.Database
import TokenWeasel.Usage.Extract

/-!
# The usage store (`twl-store/src/usage.rs`)

Recording, pruning, and the reports of the dashboard.  `SUM` fails when it leaves the range of an
`i64`, in the order of the rows; the order that SQLite leaves open among equal rows of a report is
that of the groups.  The local date of a timestamp is a parameter.
-/

namespace TokenWeasel.Store

open Library

/-! ## Recording -/

/-- The row of a record. -/
def storedUsage (id ts : Int) (u : Usage) : TokenUsage :=
  { id := id, ts := ts, model := u.model, endpoint := u.endpoint, inputTokens := u.inputTokens,
    outputTokens := u.outputTokens, cachedTokens := u.cachedTokens, totalTokens := u.totalTokens,
    apiKeyId := u.apiKeyId }

/-- `INSERT INTO token_usage`. -/
def insertTokenUsage (ts : Int) (u : Usage) : Statement Unit := fun db ↦
  match nextRowid db.tokenUsageSeq (db.tokenUsage.map TokenUsage.id) with
  | none => .error (.sqlite .full)
  | some id =>
    .ok ((), { db with tokenUsage := db.tokenUsage ++ [storedUsage id ts u], tokenUsageSeq := id })

/-- A record that cannot be stored is dropped. -/
def record (now : Option Int) (fault : Option DbError) (u : Usage) (db : Database) : Database :=
  match now with
  -- a clock before the epoch
  | none => db
  | some ts => (autocommit (attempt fault (insertTokenUsage ts u)) db).2

def pruneOlderThan (fault : Option DbError) (cutoff : Int) (db : Database) :
    Except DbError Nat × Database :=
  autocommit (attempt fault fun db ↦
    .ok (db.tokenUsage.countP (·.ts < cutoff),
      { db with tokenUsage := db.tokenUsage.filter fun row ↦ !decide (row.ts < cutoff) })) db

/-- A record adds its row, or nothing. -/
theorem record_eq (now : Option Int) (fault : Option DbError) (u : Usage) (db : Database) :
    record now fault u db = db ∨ ∃ id ts, now = some ts ∧ record now fault u db =
      { db with tokenUsage := db.tokenUsage ++ [storedUsage id ts u], tokenUsageSeq := id } := by
  cases now with
  | none => exact Or.inl rfl
  | some ts =>
      have hwrites : ∀ result db', attempt fault (insertTokenUsage ts u) db = .ok (result, db') →
          ∃ id, db' = { db with
            tokenUsage := db.tokenUsage ++ [storedUsage id ts u], tokenUsageSeq := id } := by
        intro result db' h
        have hinsert := (attempt_eq_ok.mp h).2
        unfold insertTokenUsage at hinsert
        split at hinsert
        · exact absurd hinsert (by simp)
        · rename_i id _
          rw [Except.ok.injEq, Prod.mk.injEq] at hinsert
          exact ⟨id, hinsert.2.symm⟩
      show (autocommit _ db).2 = db ∨ ∃ id ts', _
      cases hresult : autocommit (attempt fault (insertTokenUsage ts u)) db with
      | mk result db' =>
          cases result with
          | error e => exact Or.inl (autocommit_error hresult)
          | ok done =>
              rcases hwrites done db' (autocommit_eq_ok.mp hresult) with ⟨id, hdb'⟩
              refine Or.inr ⟨id, ts, rfl, ?_⟩
              show (autocommit _ db).2 = _
              rw [hresult, hdb']

theorem pruneOlderThan_eq (fault : Option DbError) (cutoff : Int) (db : Database) :
    (pruneOlderThan fault cutoff db).2 = db ∨ (pruneOlderThan fault cutoff db).2 =
      { db with tokenUsage := db.tokenUsage.filter fun row ↦ !decide (row.ts < cutoff) } := by
  cases fault with
  | some e => exact Or.inl rfl
  | none => exact Or.inr rfl

/-! ## Rows of the reports -/

structure Counts where
  requests : Int
  inputTokens : Int
  outputTokens : Int
  cachedTokens : Int
  deriving DecidableEq, Repr

structure TokenCounts extends Counts where
  totalTokens : Int
  deriving DecidableEq, Repr

structure ModelStats extends TokenCounts where
  model : String
  deriving DecidableEq, Repr

structure KeyStats extends TokenCounts where
  apiKeyId : Option Int
  label : String
  deriving DecidableEq, Repr

structure DailyStats extends TokenCounts where
  day : String
  model : String
  deriving DecidableEq, Repr

structure TodayBucket extends Counts where
  bucket : Nat
  deriving DecidableEq, Repr

/-- `SUM`. -/
def sum (column : TokenUsage → Int) (rows : List TokenUsage) : Except DbError Int :=
  match checkedSum i64Min i64Max (rows.map column) with
  | some n => .ok n
  | none => .error (.sqlite .integerOverflow)

def counts (rows : List TokenUsage) : Except DbError Counts := do
  let inputTokens ← sum TokenUsage.inputTokens rows
  let outputTokens ← sum TokenUsage.outputTokens rows
  let cachedTokens ← sum TokenUsage.cachedTokens rows
  pure { requests := rows.length, inputTokens, outputTokens, cachedTokens }

def tokenCounts (rows : List TokenUsage) : Except DbError TokenCounts := do
  let sums ← counts rows
  let totalTokens ← sum TokenUsage.totalTokens rows
  pure { toCounts := sums, totalTokens }

/-! ## By model -/

def modelRow (model : String) (rows : List TokenUsage) : Except DbError ModelStats := do
  let sums ← tokenCounts rows
  pure { toTokenCounts := sums, model }

def modelReport (rows : List TokenUsage) : Except DbError (List ModelStats) :=
  report TokenUsage.model modelRow (fun a b ↦ b.totalTokens ≤ a.totalTokens) rows

def stats (sinceTs : Int) (db : Database) : Except DbError (List ModelStats) :=
  modelReport (db.tokenUsage.filter fun row ↦ sinceTs ≤ row.ts)

/-! ## By day and model -/

section Daily

variable (date : Int → Option String)

/-- A day that `DATE` cannot give is no text. -/
def dailyRow (key : Option String × String) (rows : List TokenUsage) :
    Except DbError DailyStats := do
  let sums ← tokenCounts rows
  match key.1 with
  | none => .error (.sqlite .invalidColumnType)
  | some day => pure { toTokenCounts := sums, day, model := key.2 }

def dailyReport (rows : List TokenUsage) : Except DbError (List DailyStats) :=
  report (fun row ↦ (date row.ts, row.model)) dailyRow
    (fun a b ↦ a.day < b.day || a.day = b.day && a.model ≤ b.model) rows

def daily (sinceTs : Int) (db : Database) : Except DbError (List DailyStats) :=
  -- a time before the epoch is taken as the epoch
  let sinceTs := max sinceTs 0
  dailyReport date (db.tokenUsage.filter fun row ↦ sinceTs ≤ row.ts)

end Daily

/-! ## By user -/

/-- A row with its attribution, and with the user of that. -/
abbrev OwnedUsage := (TokenUsage × Option Attribution) × Option User

def withOwner (db : Database) : List OwnedUsage :=
  leftJoin (fun row user ↦ row.2.any fun a ↦ user.id = a.userId)
    (leftJoin (fun row a ↦ row.apiKeyId = some a.apiKeyId) db.tokenUsage db.attribution) db.users

def genericGroup : String := "generic"
def deletedGroup (keyId : Int) : String := "deleted:" ++ toString keyId
def userGroup (userId : Int) : String := "user:" ++ toString userId

def ownerGroup (row : OwnedUsage) : String :=
  match row.1.1.apiKeyId, row.2 with
  | none, _ => genericGroup
  -- the key's attribution went with its user, or never was
  | some keyId, none => deletedGroup keyId
  | some _, some user => userGroup user.id

/-- Beside `MAX(api_key_id)` the other columns are those of a row that has it. -/
def ownerLabel (rows : List OwnedUsage) : Option Int × String :=
  let danglingKeyId := (rows.filterMap fun row ↦ row.1.1.apiKeyId).max?
  let user := (rows.find? fun row ↦ row.1.1.apiKeyId = danglingKeyId).bind Prod.snd
  match user, danglingKeyId with
  | some user, _ => (none, user.username)
  | none, some id => (some id, "(deleted key #" ++ toString id ++ ")")
  | none, none => (none, "GENERIC")

def ownerRow (group : String) (rows : List OwnedUsage) : Except DbError (String × KeyStats) := do
  let sums ← tokenCounts (rows.map fun row ↦ row.1.1)
  let (apiKeyId, label) := ownerLabel rows
  pure (group, { toTokenCounts := sums, apiKeyId, label })

/-- The rows of `stats_by_user`, each with its group. -/
def ownerReport (rows : List OwnedUsage) : Except DbError (List (String × KeyStats)) :=
  report ownerGroup ownerRow (fun a b ↦ b.2.totalTokens ≤ a.2.totalTokens) rows

def statsByUser (sinceTs : Int) (db : Database) : Except DbError (List KeyStats) :=
  (ownerReport ((withOwner db).filter fun row ↦ sinceTs ≤ row.1.1.ts)).map (·.map Prod.snd)

/-! ## Of one user -/

/-- The rows that are attributed to the user, each with its attribution. -/
def usageOf (userId : Int) (db : Database) : List (TokenUsage × Attribution) :=
  (innerJoin (fun row a ↦ row.apiKeyId = some a.apiKeyId) db.tokenUsage db.attribution).filter
    fun row ↦ row.2.userId = userId

def statsForUser (sinceTs userId : Int) (db : Database) : Except DbError (List ModelStats) :=
  modelReport (((usageOf userId db).filter fun row ↦ sinceTs ≤ row.1.ts).map Prod.fst)

def dailyForUser (date : Int → Option String) (sinceTs userId : Int) (db : Database) :
    Except DbError (List DailyStats) :=
  let sinceTs := max sinceTs 0
  dailyReport date (((usageOf userId db).filter fun row ↦ sinceTs ≤ row.1.ts).map Prod.fst)

def keyLabel (a : Attribution) : String :=
  match a.name with
  | some name => if name ≠ "" then name else a.keyPrefix
  | none => a.keyPrefix

def keyRow (apiKeyId : Option Int) (rows : List (TokenUsage × Attribution)) :
    Except DbError KeyStats := do
  let sums ← tokenCounts (rows.map Prod.fst)
  let label := (rows.head?.map fun row ↦ keyLabel row.2).getD ""
  pure { toTokenCounts := sums, apiKeyId, label }

def keyReport (rows : List (TokenUsage × Attribution)) : Except DbError (List KeyStats) :=
  report (fun row ↦ row.1.apiKeyId) keyRow (fun a b ↦ b.totalTokens ≤ a.totalTokens) rows

def statsByKeyForUser (sinceTs userId : Int) (db : Database) : Except DbError (List KeyStats) :=
  keyReport ((usageOf userId db).filter fun row ↦ sinceTs ≤ row.1.ts)

/-! ## Five-minute buckets -/

/-- The difference is not negative where the row is selected. -/
def bucketOf (dayStartTs : Int) (row : TokenUsage) : Nat :=
  (min ((row.ts - dayStartTs).tdiv 300) 287).toNat

def bucketRow (bucket : Nat) (rows : List TokenUsage) : Except DbError TodayBucket := do
  let sums ← counts rows
  pure { toCounts := sums, bucket }

def emptyBucket (bucket : Nat) : TodayBucket :=
  { requests := 0, inputTokens := 0, outputTokens := 0, cachedTokens := 0, bucket }

/-- Each index takes the next sparse bucket if that is its own. -/
def fillBuckets : List Nat → List TodayBucket → List TodayBucket
  | [], _ => []
  | i :: indices, [] => emptyBucket i :: fillBuckets indices []
  | i :: indices, next :: sparse =>
    -- the sparse buckets are in ascending order, so the next one is the only candidate
    if next.bucket = i then next :: fillBuckets indices sparse
    else emptyBucket i :: fillBuckets indices (next :: sparse)

def fill288Buckets (sparse : List TodayBucket) : List TodayBucket :=
  fillBuckets (List.range 288) sparse

def bucketReport (dayStartTs : Int) (rows : List TokenUsage) : Except DbError (List TodayBucket) :=
  (report (bucketOf dayStartTs) bucketRow (fun a b ↦ a.bucket ≤ b.bucket) rows).map fill288Buckets

def todayBuckets (dayStartTs endTs : Int) (db : Database) : Except DbError (List TodayBucket) :=
  bucketReport dayStartTs (db.tokenUsage.filter fun row ↦ dayStartTs ≤ row.ts && row.ts < endTs)

def todayBucketsForUser (dayStartTs endTs userId : Int) (db : Database) :
    Except DbError (List TodayBucket) :=
  bucketReport dayStartTs (((usageOf userId db).filter fun row ↦
    dayStartTs ≤ row.1.ts && row.1.ts < endTs).map Prod.fst)

end TokenWeasel.Store
