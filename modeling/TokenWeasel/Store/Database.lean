import TokenWeasel.Library.Transaction
import TokenWeasel.Usage.Json

/-!
# The database (`twl-store/src/schema.sql`, `twl-store/src/db.rs`)

The tables that the stores read and write, and the statements that are run on them.  A statement
checks the constraints of its table as SQLite does with foreign keys on, and gives its result and
the tables it leaves.
-/

namespace TokenWeasel.Store

open Library

/-! ## Tables -/

/-- A row of `users`. -/
structure User where
  id : Int
  username : String
  passwordHash : String
  isAdmin : Int
  createdTs : Int
  deriving DecidableEq, Repr

/-- A row of `api_keys`. -/
structure ApiKey where
  id : Int
  userId : Int
  name : Option String
  keyHash : String
  keyPrefix : String
  createdTs : Int
  deriving DecidableEq, Repr

/-- A row of `api_key_attribution`, which outlives its key. -/
structure Attribution where
  apiKeyId : Int
  userId : Int
  name : Option String
  keyPrefix : String
  deriving DecidableEq, Repr

/-- The attribution that is stored with a key. -/
def ApiKey.attribution (key : ApiKey) : Attribution :=
  { apiKeyId := key.id, userId := key.userId, name := key.name, keyPrefix := key.keyPrefix }

/-- A row of `token_usage`. -/
structure TokenUsage where
  id : Int
  ts : Int
  model : String
  endpoint : String
  inputTokens : Int
  outputTokens : Int
  cachedTokens : Int
  totalTokens : Int
  apiKeyId : Option Int
  deriving DecidableEq, Repr

/-- The tables, and the row of each in `sqlite_sequence`. -/
structure Database where
  users : List User := []
  apiKeys : List ApiKey := []
  attribution : List Attribution := []
  tokenUsage : List TokenUsage := []
  usersSeq : Int := 0
  apiKeysSeq : Int := 0
  tokenUsageSeq : Int := 0
  deriving DecidableEq, Repr

/-! ## Errors -/

inductive SqliteError where
  | primaryKey
  | foreignKey
  | full
  | integerOverflow
  | invalidColumnType
  | other (message : String)
  deriving DecidableEq, Repr

inductive DbError where
  | uniqueViolation
  | clock
  | pool (message : String)
  | sqlite (error : SqliteError)
  deriving DecidableEq, Repr

abbrev Statement (α : Type) := StateT Database (Except DbError) α

/-! ## Statements -/

/-- `AUTOINCREMENT`: past every row there is and every row there was. -/
def nextRowid (seq : Int) (ids : List Int) : Option Int :=
  let last := ids.foldl max seq
  if last < i64Max then some (last + 1) else none

/-- `INSERT INTO users`, with `last_insert_rowid`. -/
def insertUser (username passwordHash : String) (isAdmin ts : Int) : Statement Int := fun db ↦
  match nextRowid db.usersSeq (db.users.map User.id) with
  | none => .error (.sqlite .full)
  | some id =>
    -- `UNIQUE (username)`
    if db.users.any (·.username = username) then .error .uniqueViolation
    else
      let user : User :=
        { id := id, username := username, passwordHash := passwordHash, isAdmin := isAdmin,
          createdTs := ts }
      .ok (id, { db with users := db.users ++ [user], usersSeq := id })

/-- `INSERT INTO api_keys`, with `last_insert_rowid`. -/
def insertApiKeyRow (userId : Int) (name : Option String) (keyHash keyPrefix : String) (ts : Int) :
    Statement Int := fun db ↦
  match nextRowid db.apiKeysSeq (db.apiKeys.map ApiKey.id) with
  | none => .error (.sqlite .full)
  | some id =>
    -- `UNIQUE (key_hash)`, and the foreign key of `user_id`
    if db.apiKeys.any (·.keyHash = keyHash) then .error .uniqueViolation
    else if !db.users.any (·.id = userId) then .error (.sqlite .foreignKey)
    else
      let key : ApiKey :=
        { id := id, userId := userId, name := name, keyHash := keyHash, keyPrefix := keyPrefix,
          createdTs := ts }
      .ok (id, { db with apiKeys := db.apiKeys ++ [key], apiKeysSeq := id })

/-- `INSERT INTO api_key_attribution`. -/
def insertAttribution (row : Attribution) : Statement Unit := fun db ↦
  if db.attribution.any (·.apiKeyId = row.apiKeyId) then .error (.sqlite .primaryKey)
  else if !db.users.any (·.id = row.userId) then .error (.sqlite .foreignKey)
  else .ok ((), { db with attribution := db.attribution ++ [row] })

/-- `UPDATE users SET password_hash`, with the number of rows. -/
def updatePasswordHash (cond : User → Bool) (passwordHash : String) : Statement Nat := fun db ↦
  .ok (db.users.countP cond, { db with
    users := db.users.map fun user ↦
      if cond user then { user with passwordHash := passwordHash } else user })

/-- `DELETE FROM api_keys`, with the number of rows. -/
def deleteApiKeys (cond : ApiKey → Bool) : Statement Nat := fun db ↦
  .ok (db.apiKeys.countP cond, { db with apiKeys := db.apiKeys.filter fun key ↦ !cond key })

/-- `DELETE FROM users WHERE id`: keys of the user forbid it, attributions go with it. -/
def deleteUserRow (id : Int) : Statement Unit := fun db ↦
  if !db.users.any (·.id = id) then .ok ((), db)
  else if db.apiKeys.any (·.userId = id) then .error (.sqlite .foreignKey)
  -- `ON DELETE CASCADE` of `api_key_attribution`
  else .ok ((), { db with
    users := db.users.filter (·.id ≠ id)
    attribution := db.attribution.filter (·.userId ≠ id) })

/-- `SELECT is_admin FROM users WHERE id`. -/
def selectIsAdmin (id : Int) : Statement (Option Bool) := fun db ↦
  .ok ((db.users.find? (·.id = id)).map fun user ↦ user.isAdmin ≠ 0, db)

/-- `SELECT COUNT(*) FROM users WHERE is_admin = 1`. -/
def selectAdminCount : Statement Nat := fun db ↦ .ok (db.users.countP (·.isAdmin = 1), db)

/-- The backfill that opening a database runs, `INSERT OR IGNORE` from `api_keys`. -/
def backfillAttribution (db : Database) : Database :=
  let missing := db.apiKeys.filter fun key ↦ !db.attribution.any (·.apiKeyId = key.id)
  { db with attribution := db.attribution ++ missing.map ApiKey.attribution }

/-- `COMMIT`. -/
def commit {α : Type} (result : α) : Statement (Finish α) := pure (.commit result)

/-! ## What a new row id is -/

theorem le_foldl_max (seq : Int) (ids : List Int) :
    seq ≤ ids.foldl max seq ∧ ∀ id ∈ ids, id ≤ ids.foldl max seq := by
  induction ids generalizing seq with
  | nil => exact ⟨Int.le_refl seq, fun _ h ↦ absurd h List.not_mem_nil⟩
  | cons first ids ih =>
      rcases ih (max seq first) with ⟨hseq, hids⟩
      rw [List.foldl_cons]
      refine ⟨by omega, fun id hid ↦ ?_⟩
      cases List.mem_cons.mp hid with
      | inl heq =>
          rw [heq]
          omega
      | inr hmem => exact hids id hmem

theorem nextRowid_eq_some {seq id : Int} {ids : List Int} (h : nextRowid seq ids = some id) :
    seq < id ∧ ∀ other ∈ ids, other < id := by
  unfold nextRowid at h
  dsimp only at h
  split at h
  · have hle := le_foldl_max seq ids
    have hid : ids.foldl max seq + 1 = id := Option.some.inj h
    refine ⟨by omega, fun other hother ↦ ?_⟩
    have hother := hle.2 other hother
    omega
  · exact absurd h (by simp)

end TokenWeasel.Store
